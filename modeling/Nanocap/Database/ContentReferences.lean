import Nanocap.Database.History

/-! # References from packets and votes to their content

A packet row or a vote row names the table its content is in and the id of the
content row. `put` chooses the reference before it knows whether there is any
content to store. -/

namespace Nanocap

/-! ## References -/

/-- The row refers to no content, or to content that came with the given packet. -/
def Row.Resolves (rows : List Row) (packetId : Value) (row : Row) : Prop :=
  (row.get .contentTable = .null ∧ row.get .contentId = .null) ∨
    ∃ table, row.get .contentTable = .text (Table.name table) ∧ ∃ content ∈ rows,
      content.table = table ∧ content.get .id = row.get .contentId ∧
      content.get .packetId = packetId

def ContentsResolve (rows : List Row) : Prop :=
  ∀ row ∈ rows, (row.table = .packet → row.Resolves rows (row.get .id)) ∧
    (row.table = .vote → row.Resolves rows (row.get .packetId))

theorem Row.Resolves.mono {rows more : List Row} {packetId : Value} {row : Row}
    (resolves : row.Resolves rows packetId) (fewer : rows ⊆ more) :
    row.Resolves more packetId := by
  rcases resolves with none | ⟨table, named, content, member, found⟩
  · exact .inl none
  · exact .inr ⟨table, named, content, fewer member, found⟩

theorem ContentsResolve.append {rows added : List Row} (first : ContentsResolve rows)
    (second : ContentsResolve added) : ContentsResolve (rows ++ added) := by
  intro row member
  rcases List.mem_append.mp member with member | member
  · exact ⟨fun packet => ((first row member).1 packet).mono (List.subset_append_left _ _),
      fun vote => ((first row member).2 vote).mono (List.subset_append_left _ _)⟩
  · exact ⟨fun packet => ((second row member).1 packet).mono (List.subset_append_right _ _),
      fun vote => ((second row member).2 vote).mono (List.subset_append_right _ _)⟩

private theorem ContentsResolve.of_tables {rows : List Row}
    (others : ∀ row ∈ rows, row.table ≠ .packet ∧ row.table ≠ .vote) : ContentsResolve rows :=
  fun row member => ⟨fun packet => absurd packet (others row member).1,
    fun vote => absurd vote (others row member).2⟩

/-! ## Calls whose content is stored -/

/-- The content a call refers to is stored: its block is of a known type and
`block_details` is on. A vote without a block finds no reference of an earlier vote
in the statement. -/
def Call.StoresContent (env : Environment) (db : Db) (call : Call) : Prop :=
  match call.request with
  | .publish _ msg => (storable env (some msg.body)).isSome
  | .confirmReq _ msg => (storable env msg.block).isSome
  | .confirmAck _ msg =>
      match msg.block with
      | some block => (storable env (some block)).isSome
      | none => db.bindings .vote .contentTable = .null ∧ db.bindings .vote .contentId = .null
  | _ => True

/-- The databases a run reaches whose calls all meet a condition. -/
inductive Db.Reached (env : Environment) (meets : Db → Call → Prop) (start : Db) : Db → Prop where
  | start : Reached env meets start start
  | call {db : Db} (call : Call) : Reached env meets start db → meets db call →
      Reached env meets start (call.perform env db).db

section Insertions

variable {env : Environment} {info : NanoPacket} {header : MessageHeader}

private theorem packet_resolves_none {id : Nat} (rows : List Row) (packetId : Value)
    (bindings : Bindings) :
    (Insertion.row ⟨.packet, header.packetCells info id⟩ bindings).Resolves rows packetId := by
  have column : ∀ parameter ∈ [Parameter.contentTable, .contentId],
      (Insertion.row ⟨.packet, header.packetCells info id⟩ bindings).get parameter = .null := by
    intro parameter member
    have all : ∀ parameter ∈ [Parameter.contentTable, .contentId],
        parameter ∈ Table.packet.parameters ∧ parameter ∉ packetFieldParameters := by decide
    obtain ⟨column, own⟩ := all parameter member
    refine Insertion.get_row column ?_ bindings
    rw [boundTo_packetCells header info id (packetFields_unbound info own)]
    rcases List.mem_cons.mp member with rfl | member
    · rfl
    · rw [List.mem_singleton.mp member]
      rfl
  exact .inl ⟨column _ (by simp), column _ (by simp)⟩

theorem packet_resolves {rows : List Row} {packetId contentId : Nat} {content : Row}
    {table : Table} (member : content ∈ rows) (isTable : content.table = table)
    (id : content.get .id = .nat contentId) (packet : content.get .packetId = .nat packetId)
    (bindings : Bindings) :
    let row := Insertion.row ⟨.packet, header.packetCells info packetId ++
      packetContentCells contentId table.name⟩ bindings
    row.Resolves rows (row.get .id) := by
  intro row
  have own : row.get .id = .nat packetId :=
    packet_get (by decide) (by decide) (boundTo_of_notMem (by simp [packetContentCells])) rfl
      bindings
  have named : row.get .contentTable = .text table.name :=
    Insertion.get_row (by simp [Table.parameters]) (by rw [boundTo_append]; rfl) bindings
  have pointed : row.get .contentId = .nat contentId :=
    Insertion.get_row (by simp [Table.parameters]) (by rw [boundTo_append]; rfl) bindings
  exact .inr ⟨table, named, content, member, isTable, id.trans pointed.symm,
    packet.trans own.symm⟩

theorem exists_blockRow {insertions : List Insertion} {block : Block} {id packetId : Nat}
    (member : ⟨block.table, block.cells env id packetId⟩ ∈ insertions) (bindings : Bindings) :
    ∃ row ∈ insertedRows bindings insertions, row.table = block.table ∧
      row.get .id = .nat id ∧ row.get .packetId = .nat packetId := by
  obtain ⟨before, inserted⟩ := @exists_row_of_mem bindings _ _ member
  refine ⟨_, inserted, rfl, ?_, ?_⟩
  · exact Insertion.get_row (by cases block <;> simp [Block.table, Table.parameters])
      (block.boundTo_id env id packetId) before
  · exact Insertion.get_row (by cases block <;> simp [Block.table, Table.parameters])
      (block.boundTo_packetId env id packetId) before

theorem insertedRows_resolve {insertions : List Insertion}
    (others : ∀ insertion ∈ insertions,
      insertion.table ≠ .packet ∧ insertion.table ≠ .vote) (bindings : Bindings) :
    ContentsResolve (insertedRows bindings insertions) := by
  refine .of_tables fun row member => ?_
  obtain ⟨insertion, inside, before, rfl⟩ := exists_of_mem_insertedRows member
  exact others insertion inside

theorem message_resolves {drawn ids packetId : Nat} {rest : List Insertion}
    (others : ∀ insertion ∈ rest, insertion.table ≠ .packet ∧ insertion.table ≠ .vote)
    (bindings : Bindings) :
    ContentsResolve ((Plan.message info header drawn ids packetId rest).rows bindings) := by
  refine @ContentsResolve.append [_] _ (fun row member => ?_)
    (insertedRows_resolve others _)
  rw [List.mem_singleton.mp member]
  exact ⟨fun _ => packet_resolves_none _ _ _, fun vote => Table.noConfusion vote⟩

theorem withBlock_resolves {blockSelector : Option BlockSelector} {nextId : Nat}
    (stored : (storable env blockSelector).isSome) (bindings : Bindings) :
    ContentsResolve ((Plan.withBlock env info header blockSelector nextId).rows bindings) := by
  obtain ⟨block, stored⟩ := Option.isSome_iff_exists.mp stored
  have inserted : blockInsertions env blockSelector (nextId + 1) nextId =
      [⟨block.table, block.cells env (nextId + 1) nextId⟩] := by rw [blockInsertions, stored]
  have named : contentTableOf env blockSelector = block.table.name := by
    rw [contentTableOf, stored]
  intro row member
  obtain ⟨content, contentMember, isTable, id, packet⟩ :=
    @exists_blockRow env (Plan.withBlock env info header blockSelector nextId).insertions block
      (nextId + 1) nextId (List.mem_append_left _ (by rw [inserted]; simp))
      (Heading.clear (some ⟨header.messageType, 1⟩) bindings)
  obtain ⟨insertion, inside, before, rfl⟩ := exists_of_mem_insertedRows member
  rcases List.mem_append.mp inside with inside | inside
  · rw [inserted] at inside
    obtain rfl := List.mem_singleton.mp inside
    exact ⟨fun table => absurd table block.table_belongs.ne.1,
      fun table => by cases block <;> cases table⟩
  · obtain rfl := List.mem_singleton.mp inside
    rw [named]
    exact ⟨fun _ => packet_resolves contentMember isTable id packet before,
      fun table => Table.noConfusion table⟩

theorem vote_packet_resolves {msg : MsgConfirmAck} {blockId voteId packetId : Nat}
    {rows : List Row} {before : Bindings}
    (member : Insertion.row ⟨.vote, msg.voteCells env blockId voteId packetId⟩ before ∈ rows)
    (bindings : Bindings) :
    let row := Insertion.row ⟨.packet, header.packetCells info packetId ++
      packetContentCells voteId Table.vote.name⟩ bindings
    row.Resolves rows (row.get .id) := by
  refine packet_resolves member rfl ?_ ?_ bindings
  · refine Insertion.get_row (by simp [Table.parameters]) ?_ before
    rw [MsgConfirmAck.voteCells, boundTo_append]
    rfl
  · exact Insertion.get_row (by simp [Table.parameters]) (msg.boundTo_packetId env _ _ _) before

private theorem vote_resolves_block {msg : MsgConfirmAck} {selector : BlockSelector} {block : Block}
    (regular : msg.block = some selector) (stored : storable env (some selector) = some block)
    (nextId : Nat) (bindings : Bindings) :
    ContentsResolve ((Plan.vote env info header msg nextId).rows bindings) := by
  have inserted : voteBlockInsertions env msg (nextId + 1) nextId =
      [⟨block.table, block.cells env (nextId + 1) nextId⟩] := by
    simp only [voteBlockInsertions, regular, Option.isSome_some, if_true, blockInsertions, stored]
  have cells : msg.contentCells env (nextId + 1) =
      [(.contentId, .nat (nextId + 1)), (.contentTable, .text block.table.name),
       (.voteCount, .nat 1), (.vbh, .nat 0)] := by
    rw [MsgConfirmAck.contentCells, regular]
    simp only [contentTableOf, stored]
  obtain ⟨content, contentMember, isTable, id, packet⟩ :=
    @exists_blockRow env (Plan.vote env info header msg nextId).insertions block
      (nextId + 1) nextId (List.mem_append_left _ (List.mem_append_left _ (by
        rw [inserted]
        simp))) (Heading.clear (some ⟨header.messageType, 1⟩) bindings)
  have voteMember := @exists_row_of_mem
    (Heading.clear (some ⟨header.messageType, 1⟩) bindings)
    (Plan.vote env info header msg nextId).insertions _
    (List.mem_append_left _ (List.mem_append_right _ (List.mem_singleton_self _)))
  obtain ⟨voteBefore, voteMember⟩ := voteMember
  intro row member
  obtain ⟨insertion, inside, before, rfl⟩ := exists_of_mem_insertedRows member
  rcases List.mem_append.mp inside with inside | inside
  · rcases List.mem_append.mp inside with inside | inside
    · rw [inserted] at inside
      obtain rfl := List.mem_singleton.mp inside
      exact ⟨fun table => absurd table block.table_belongs.ne.1,
        fun table => by cases block <;> cases table⟩
    · obtain rfl := List.mem_singleton.mp inside
      refine ⟨fun table => Table.noConfusion table, fun _ => .inr ⟨block.table, ?_, content,
        contentMember, isTable, id.trans ?_, packet.trans ?_⟩⟩
      · refine Insertion.get_row (by simp [Table.parameters]) ?_ before
        rw [MsgConfirmAck.voteCells, cells]
        rfl
      · refine (Insertion.get_row (by simp [Table.parameters]) ?_ before).symm
        rw [MsgConfirmAck.voteCells, cells]
        rfl
      · exact (Insertion.get_row (by simp [Table.parameters])
          (msg.boundTo_packetId env _ _ _) before).symm
  · obtain rfl := List.mem_singleton.mp inside
    exact ⟨fun _ => vote_packet_resolves voteMember before, fun table => Table.noConfusion table⟩

private theorem vote_resolves_none {msg : MsgConfirmAck} (noBlock : msg.block = none) (nextId : Nat)
    {bindings : Bindings} (table : bindings .vote .contentTable = .null)
    (id : bindings .vote .contentId = .null) :
    ContentsResolve ((Plan.vote env info header msg nextId).rows bindings) := by
  have inserted : voteBlockInsertions env msg (nextId + 1) nextId = [] := by
    rw [voteBlockInsertions, noBlock]
    rfl
  have unbound : ∀ parameter ∈ [Parameter.contentTable, .contentId],
      parameter ∉ (msg.voteCells env (nextId + 1) (nextId + 1 + msg.blockIds) nextId).map
        Prod.fst := by
    intro parameter member
    simp only [MsgConfirmAck.voteCells, MsgConfirmAck.contentCells, VoteCommon.cells, noBlock]
    rcases List.mem_cons.mp member with rfl | member
    · split <;> simp
    · rw [List.mem_singleton.mp member]
      split <;> simp
  have column : ∀ parameter ∈ [Parameter.contentTable, .contentId],
      (Insertion.row ⟨.vote, msg.voteCells env (nextId + 1) (nextId + 1 + msg.blockIds) nextId⟩
        (Heading.clear (some ⟨header.messageType, 1⟩) bindings)).get parameter =
      bindings .vote parameter := by
    intro parameter member
    have column : parameter ∈ Table.vote.parameters := by
      have all : ∀ parameter ∈ [Parameter.contentTable, .contentId],
          parameter ∈ Table.vote.parameters := by decide
      exact all parameter member
    rw [Insertion.row, Table.get_row _ column, overwrite_eq,
      boundTo_of_notMem (unbound parameter member)]
    rfl
  intro row member
  have rows : row ∈ insertedRows (Heading.clear (some ⟨header.messageType, 1⟩) bindings)
      (voteBlockInsertions env msg (nextId + 1) nextId ++
        [⟨.vote, msg.voteCells env (nextId + 1) (nextId + 1 + msg.blockIds) nextId⟩] ++
        [⟨.packet, header.packetCells info nextId ++
          packetContentCells (nextId + 1 + msg.blockIds) Table.vote.name⟩]) := member
  rw [inserted] at rows
  rcases List.mem_cons.mp rows with rfl | rows
  · exact ⟨fun isPacket => Table.noConfusion isPacket, fun _ =>
      .inl ⟨(column _ (by simp)).trans table, (column _ (by simp)).trans id⟩⟩
  · obtain rfl := List.mem_singleton.mp rows
    have voteMember := @exists_row_of_mem
      (Heading.clear (some ⟨header.messageType, 1⟩) bindings)
      (Plan.vote env info header msg nextId).insertions _
      (List.mem_append_left _ (List.mem_append_right _ (List.mem_singleton_self _)))
    obtain ⟨voteBefore, voteMember⟩ := voteMember
    exact ⟨fun _ => vote_packet_resolves voteMember _, fun isVote => Table.noConfusion isVote⟩

end Insertions

/-! ## Runs -/

section Runs

variable {env : Environment}

theorem Call.resolves {call : Call} {db : Db} (stores : call.StoresContent env db) :
    ContentsResolve
      ((call.request.plan env call.info db.nextId call.flow).rows db.bindings) := by
  obtain ⟨request, info, flow⟩ := call
  have one : ∀ {table : Table} {cells : List Cell}, table ≠ .packet → table ≠ .vote →
      ∀ insertion ∈ [Insertion.mk table cells],
        insertion.table ≠ .packet ∧ insertion.table ≠ .vote := by
    intro table cells packet vote insertion member
    rw [List.mem_singleton.mp member]
    exact ⟨packet, vote⟩
  have bulk : ∀ {table : Table} {cell : Cell} {event : String} {selector : BlockSelector},
      table ≠ .packet → table ≠ .vote → ContentsResolve
        ((Plan.bulkEntry env info table cell event selector flow db.nextId).rows db.bindings) := by
    intro table cell event selector packet vote
    refine insertedRows_resolve (fun insertion member => ?_) _
    rcases Plan.mem_bulkEntry member with isEvent | ⟨block, -, rfl | rfl⟩
    · rw [isEvent]
      exact ⟨Table.noConfusion, Table.noConfusion⟩
    · exact ⟨block.table_belongs.ne.1, by cases block <;> exact Table.noConfusion⟩
    · exact ⟨packet, vote⟩
  cases request
  case connection => exact insertedRows_resolve (one Table.noConfusion Table.noConfusion) _
  case telemetryReq => exact message_resolves (by simp) _
  case telemetryAck => exact message_resolves (one Table.noConfusion Table.noConfusion) _
  case keepalive msg =>
    refine message_resolves (fun insertion member => ?_) _
    obtain ⟨peer, id, rfl⟩ := exists_of_mem_peerInsertions member
    exact ⟨Table.noConfusion, Table.noConfusion⟩
  case confirmAck header msg =>
    simp only [StoresContent] at stores
    cases regular : msg.block with
    | some selector =>
        rw [regular] at stores
        obtain ⟨block, stored⟩ := Option.isSome_iff_exists.mp stores
        exact vote_resolves_block regular stored _ _
    | none =>
        rw [regular] at stores
        exact vote_resolves_none regular _ stores.1 stores.2
  case confirmReq => exact withBlock_resolves stores _
  case publish => exact withBlock_resolves stores _
  case nodeIdHandshake msg =>
    refine message_resolves (fun insertion member => ?_) _
    rcases List.mem_append.mp member with member | member
    · obtain ⟨query, rfl⟩ := exists_of_mem_queryInsertions member
      exact ⟨Table.noConfusion, Table.noConfusion⟩
    · obtain ⟨response, rfl⟩ := exists_of_mem_responseInsertions member
      exact ⟨Table.noConfusion, Table.noConfusion⟩
  case frontierReq => exact message_resolves (one Table.noConfusion Table.noConfusion) _
  case bulkPull => exact message_resolves (one Table.noConfusion Table.noConfusion) _
  case bulkPullAccount => exact message_resolves (one Table.noConfusion Table.noConfusion) _
  case bulkPush => exact message_resolves (by simp) _
  case frontierEntry => exact insertedRows_resolve (one Table.noConfusion Table.noConfusion) _
  case bulkPullEntry => exact bulk Table.noConfusion Table.noConfusion
  case bulkPushEntry => exact bulk Table.noConfusion Table.noConfusion
  case frontierBalanceEntry =>
    exact insertedRows_resolve (one Table.noConfusion Table.noConfusion) _
  case bulkPullAccountEntry =>
    exact insertedRows_resolve (one Table.noConfusion Table.noConfusion) _

/-- In a run whose calls all store the content they refer to, the references resolve
in every state. -/
theorem contents_resolve (neverFails : env.NeverFails) {durable : Contents}
    (start : ContentsResolve durable.rows) {db : Db}
    (reached : Db.Reached env (fun db call => call.StoresContent env db) (.opened durable) db) :
    ContentsResolve db.contents.rows := by
  have both : db.Ready ∧ ContentsResolve db.contents.rows := by
    induction reached with
    | start => exact ⟨Db.opened_ready durable, start⟩
    | call call _ stores induction =>
        obtain ⟨ready, resolve⟩ := induction
        refine ⟨call.ready_perform neverFails ready, ?_⟩
        rw [call.perform_eq neverFails ready, Request.after, Db.store_rows]
        exact resolve.append (Call.resolves stores)
  exact both.2

end Runs

/-- A run with one vote with a block. -/
theorem contents_resolve_vote :
    ContentsResolve ((Db.opened .empty).history .sample
      [⟨.confirmAck ⟨0, 0, 0, 0, .confirmAck, 0x300⟩
        ⟨⟨.zero 32, .zero 64, 0⟩, none,
          some (.known (.receive ⟨.zero 32, .zero 32, .zero 64, 0⟩))⟩, .sample [],
        .initial⟩]).contents.rows :=
  @contents_resolve .sample Environment.sample_neverFails .empty
    (by simp [Contents.empty, ContentsResolve]) _ (.call _ .start rfl)

private theorem withBlock_not_resolves {env : Environment} {info : NanoPacket}
    {header : MessageHeader} {blockSelector : Option BlockSelector}
    (stored : storable env blockSelector = none) (rows : List Row) (nextId : Nat)
    (bindings : Bindings) :
    ¬ContentsResolve
      (rows ++ (Plan.withBlock env info header blockSelector nextId).rows bindings) := by
  intro resolve
  obtain ⟨before, member⟩ := @exists_row_of_mem
    (Heading.clear (some ⟨header.messageType, 1⟩) bindings)
    (Plan.withBlock env info header blockSelector nextId).insertions _
    (List.mem_append_right _ (List.mem_singleton_self _))
  have named : ∀ bindings, (Insertion.row ⟨.packet, header.packetCells info nextId ++
      packetContentCells (nextId + 1) (contentTableOf env blockSelector)⟩ bindings).get
        .contentTable = .text "" := by
    intro bindings
    refine Insertion.get_row (by simp [Table.parameters]) ?_ bindings
    rw [boundTo_append, contentTableOf, stored]
    rfl
  rcases (resolve _ (List.mem_append_right _ member)).1 rfl with ⟨null, -⟩ | ⟨table, other, -⟩
  · exact Value.noConfusion ((named before).symm.trans null)
  · have same := Value.text.inj ((named before).symm.trans other)
    cases table <;> simp [Table.name] at same

/-- A confirm_req by hash stores no block. -/
theorem contents_not_resolve :
    ¬∀ (env : Environment) (db : Db), env.NeverFails →
      Db.Reached env (fun _ _ => True) (.opened .empty) db →
      ContentsResolve db.contents.rows := by
  intro resolve
  have resolves := resolve .sample _ Environment.sample_neverFails
    (.call ⟨.confirmReq ⟨0, 0, 0, 0, .confirmReq, 0x1100⟩
      ⟨some ⟨some [⟨.zero 32, .zero 32⟩]⟩, none⟩, .sample [], .initial⟩ .start trivial)
  rw [Call.perform_eq Environment.sample_neverFails (Db.opened_ready .empty), Request.after,
    Db.store_rows] at resolves
  exact withBlock_not_resolves rfl _ _ _ resolves

end Nanocap
