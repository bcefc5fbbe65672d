import Nanocap.Database.History

/-! # Rows and earlier traffic

The prepared statements keep their bindings between calls. A row depends on the
calls before it exactly when its statement is executed without every parameter
bound anew. -/

namespace Nanocap

section Bindings

variable {left right : Bindings}

private theorem insertedRows_congr {insertions : List Insertion}
    (same : ∀ insertion ∈ insertions,
      insertion.Complete ∨ left insertion.table = right insertion.table) :
    insertedRows left insertions = insertedRows right insertions := by
  induction insertions generalizing left right with
  | nil => rfl
  | cons insertion insertions induction =>
      have first : insertion.row left = insertion.row right := by
        rcases same insertion (by simp) with complete | equal
        · exact complete.row_eq left right
        · rw [Insertion.row, Insertion.row, equal]
      rw [insertedRows, insertedRows, first, induction fun other member => ?_]
      rcases same other (List.mem_cons_of_mem _ member) with complete | equal
      · exact .inl complete
      · refine .inr ?_
        by_cases table : other.table = insertion.table
        · rw [Insertion.rebind, Insertion.rebind, table, Function.update_self,
            Function.update_self, ← table, equal]
        · rw [Insertion.rebind, Insertion.rebind, Function.update_of_ne table,
            Function.update_of_ne table, equal]

private theorem Plan.rows_congr {plan : Plan}
    (complete : ∀ insertion ∈ plan.insertions,
      insertion.Complete ∨ insertion.table = .packet ∧ plan.heading.isSome) :
    plan.rows left = plan.rows right := by
  refine insertedRows_congr fun insertion member => ?_
  rcases complete insertion member with complete | ⟨table, heading⟩
  · exact .inl complete
  · refine .inr ?_
    rw [Heading.clear, Heading.clear, if_pos heading, if_pos heading, table,
      Function.update_self, Function.update_self]

end Bindings

/-! ## Calls that bind everything -/

/-- The fields of the flow the rows of a call are made of. -/
def TcpFlowData.SameIds (left right : TcpFlowData) : Prop :=
  left.packetId = right.packetId ∧ left.messageId = right.messageId ∧
    left.requestFlags = right.requestFlags

/-- The calls that bind every parameter, given the request flags of the flow. A
vote leaves what only the other kinds of votes bind; an entry of a
bulk_pull_account response leaves the parts it has not; a bulk entry without a
block to store is reported once for each flow. -/
def Request.BindsAll (env : Environment) (flags : UInt8) : Request → Prop
  | confirmAck _ _ => False
  | bulkPullAccountEntry _ => flags = pendingHashAmountAndAddress
  | bulkPullEntry entry => (storable env (some entry.block)).isSome
  | bulkPushEntry entry => (storable env (some entry.block)).isSome
  | _ => True

section Complete

variable {env : Environment} {info : NanoPacket}

theorem Block.insertion_complete (block : Block) (id packetId : Nat) :
    Insertion.Complete ⟨block.table, block.cells env id packetId⟩ :=
  .of_covers (block.cells_covers env id packetId)

theorem blockInsertions_complete (blockSelector : Option BlockSelector) (id packetId : Nat) :
    ∀ insertion ∈ blockInsertions env blockSelector id packetId, insertion.Complete := by
  intro insertion member
  obtain ⟨block, -, rfl⟩ := mem_blockInsertions.mp member
  exact block.insertion_complete id packetId

theorem Plan.bulkEntry_complete {table : Table} {request : Cell} {event : String}
    {selector : BlockSelector} {flow : TcpFlowData} {nextId : Nat}
    (stored : (storable env (some selector)).isSome)
    (covers : [.id, request.1, .contentId, .contentTable] = table.parameters) :
    ∀ insertion ∈ (bulkEntry env info table request event selector flow nextId).insertions,
      insertion.Complete := by
  intro insertion member
  obtain ⟨block, stored⟩ := Option.isSome_iff_exists.mp stored
  simp only [bulkEntry, stored] at member
  rcases List.mem_cons.mp member with rfl | member
  · exact block.insertion_complete _ _
  · rw [List.mem_singleton.mp member]
    exact .of_covers covers

theorem Request.complete {request : Request} {flow : TcpFlowData}
    (binds : request.BindsAll env flow.requestFlags) (nextId : Nat) :
    ∀ insertion ∈ (request.plan env info nextId flow).insertions,
      insertion.Complete ∨
        insertion.table = .packet ∧ (request.plan env info nextId flow).heading.isSome := by
  have one : ∀ {table : Table} {cells : List Cell}, cells.map Prod.fst = table.parameters →
      ∀ insertion ∈ [Insertion.mk table cells], insertion.Complete := by
    intro table cells covers insertion member
    rw [List.mem_singleton.mp member]
    exact .of_covers covers
  have behind : ∀ {packet : Insertion} {rest : List Insertion}, packet.table = .packet →
      (∀ insertion ∈ rest, insertion.Complete) →
      ∀ insertion ∈ packet :: rest,
        insertion.Complete ∨ insertion.table = .packet ∧ true = true := by
    intro packet rest isPacket complete insertion member
    rcases List.mem_cons.mp member with rfl | member
    · exact .inr ⟨isPacket, rfl⟩
    · exact .inl (complete insertion member)
  have before : ∀ {packet : Insertion} {rest : List Insertion}, packet.table = .packet →
      (∀ insertion ∈ rest, insertion.Complete) →
      ∀ insertion ∈ rest ++ [packet],
        insertion.Complete ∨ insertion.table = .packet ∧ true = true := by
    intro packet rest isPacket complete insertion member
    exact behind isPacket complete insertion (by simpa [or_comm] using member)
  cases request
  case connection => exact fun insertion member => .inl (one rfl insertion member)
  case telemetryReq => exact behind rfl (by simp)
  case telemetryAck => exact behind rfl (one rfl)
  case keepalive msg =>
    refine behind rfl fun insertion member => ?_
    obtain ⟨peer, id, rfl⟩ := exists_of_mem_peerInsertions member
    exact .of_covers rfl
  case confirmAck => exact absurd binds id
  case confirmReq msg => exact before rfl (blockInsertions_complete _ _ _)
  case publish msg => exact before rfl (blockInsertions_complete _ _ _)
  case nodeIdHandshake msg =>
    refine behind rfl fun insertion member => ?_
    rcases List.mem_append.mp member with member | member
    · obtain ⟨query, rfl⟩ := exists_of_mem_queryInsertions member
      exact .of_covers rfl
    · obtain ⟨response, rfl⟩ := exists_of_mem_responseInsertions member
      exact .of_covers rfl
  case frontierReq => exact behind rfl (one rfl)
  case bulkPull => exact behind rfl (one rfl)
  case bulkPullAccount => exact behind rfl (one rfl)
  case bulkPush => exact behind rfl (by simp)
  case frontierEntry => exact fun insertion member => .inl (one rfl insertion member)
  case bulkPullEntry =>
    exact fun insertion member => .inl (Plan.bulkEntry_complete binds rfl insertion member)
  case bulkPushEntry =>
    exact fun insertion member => .inl (Plan.bulkEntry_complete binds rfl insertion member)
  case frontierBalanceEntry => exact fun insertion member => .inl (one rfl insertion member)
  case bulkPullAccountEntry entry =>
    have flags : flow.requestFlags = pendingHashAmountAndAddress := binds
    have different : pendingHashAmountAndAddress ≠ pendingAddressOnly := by decide
    exact fun insertion member => .inl (one (by
      simp [BulkPullAccountEntry.cells, flags, different, Table.parameters]) insertion member)

end Complete

/-! ## Two histories -/

/-- A call inserts the same rows after any two histories that have drawn the same
ids, for flows with the same ids and request flags. -/
def Request.Independent (env : Environment) (request : Request) (flags : UInt8) : Prop :=
  ∀ (info : NanoPacket) (leftDurable rightDurable : Contents) (left right : List Call)
    (leftFlow rightFlow : TcpFlowData), leftFlow.requestFlags = flags →
    leftFlow.SameIds rightFlow →
    ((Db.opened leftDurable).history env left).nextId =
      ((Db.opened rightDurable).history env right).nextId →
    (Call.mk request info leftFlow).inserted env ((Db.opened leftDurable).history env left) =
      (Call.mk request info rightFlow).inserted env ((Db.opened rightDurable).history env right)

section Independent

variable {env : Environment}

theorem voteBlockInsertions_tables (msg : MsgConfirmAck) (id packetId : Nat) :
    Table.vote ∉ (voteBlockInsertions env msg id packetId).map Insertion.table := by
  intro member
  obtain ⟨insertion, inside, table⟩ := List.mem_map.mp member
  unfold voteBlockInsertions at inside
  split at inside
  · obtain ⟨block, -, rfl⟩ := mem_blockInsertions.mp inside
    cases block <;> cases table
  · cases inside

private theorem Request.plan_congr {request : Request} {left right : TcpFlowData}
    (binds : request.BindsAll env left.requestFlags) (same : left.SameIds right)
    (info : NanoPacket) (nextId : Nat) :
    request.plan env info nextId left = request.plan env info nextId right := by
  obtain ⟨packetId, messageId, requestFlags⟩ := same
  cases request with
  | bulkPullEntry entry =>
      obtain ⟨block, stored⟩ := Option.isSome_iff_exists.mp binds
      simp only [plan, Plan.bulkEntry, stored, packetId, messageId]
  | bulkPushEntry entry =>
      obtain ⟨block, stored⟩ := Option.isSome_iff_exists.mp binds
      simp only [plan, Plan.bulkEntry, stored, packetId]
  | _ => simp only [plan, messageId, requestFlags]

variable (neverFails : env.NeverFails)
include neverFails

theorem Request.independent {request : Request} {flags : UInt8}
    (binds : request.BindsAll env flags) : request.Independent env flags := by
  rintro info leftDurable rightDurable left right leftFlow rightFlow rfl same nextId
  have readyLeft := Db.ready_history neverFails (Db.opened_ready leftDurable) left
  have readyRight := Db.ready_history neverFails (Db.opened_ready rightDurable) right
  rw [Call.inserted_eq neverFails readyLeft, Call.inserted_eq neverFails readyRight, ← nextId,
    ← request.plan_congr binds same]
  exact Plan.rows_congr (request.complete binds _)

/-! ## Calls that leave bindings -/

def connections (count : Nat) : List Call :=
  List.replicate count ⟨.connection "", .sample [], .initial⟩

private theorem history_connections {db : Db} (ready : db.Ready) (count : Nat) :
    (db.history env (connections count)).nextId = db.nextId + count ∧
      ∀ table, table ≠ .connection →
        (db.history env (connections count)).bindings table = db.bindings table := by
  induction count generalizing db with
  | zero => exact ⟨rfl, fun _ _ => rfl⟩
  | succ count induction =>
      rw [connections, List.replicate_succ, Db.history_cons neverFails ready]
      obtain ⟨nextId, bindings⟩ := @induction _ (ready.store env _)
      rw [connections] at nextId bindings
      refine ⟨nextId.trans ?_, fun table other => (bindings table other).trans ?_⟩
      · rw [Db.store_nextId]
        change db.nextId + 1 + count = _
        omega
      · rw [Db.bindings_store]
        exact rebind_of_notMem _ (by simpa [Request.plan, Plan.entry] using other)

/-- A column an independent call does not bind has the same value after any history
that has drawn the same ids as connection events. -/
theorem Request.Independent.column {request : Request} {flags : UInt8}
    (independent : request.Independent env flags) (calls : List Call) {flow : TcpFlowData}
    (isFlags : flow.requestFlags = flags) {count : Nat}
    (drawn : ((Db.opened .empty).history env calls).nextId =
      (Db.opened .empty).nextId + count) {insertion : Insertion} {first last : List Insertion}
    (insertions : (request.plan env (.sample [])
      ((Db.opened .empty).nextId + count) flow).insertions = first ++ insertion :: last)
    (only : insertion.table ∉ first.map Insertion.table) (other : insertion.table ≠ .packet)
    (noEvent : insertion.table ≠ .connection) {parameter : Parameter}
    (column : parameter ∈ insertion.table.parameters)
    (unbound : parameter ∉ insertion.cells.map Prod.fst) :
    ((Db.opened .empty).history env calls).bindings insertion.table parameter = .null := by
  have opened := Db.opened_ready .empty
  have readyLeft := Db.ready_history neverFails opened calls
  have readyRight := Db.ready_history neverFails opened (connections count)
  obtain ⟨drawnRight, kept⟩ := history_connections neverFails opened count
  have equal := independent (.sample []) .empty .empty calls (connections count) flow flow isFlags
    ⟨rfl, rfl, rfl⟩ (drawn.trans drawnRight.symm)
  rw [Call.inserted_eq neverFails readyLeft, Call.inserted_eq neverFails readyRight, drawn,
    drawnRight, Plan.rows, Plan.rows] at equal
  simp only [insertions, insertedRows_append, insertedRows] at equal
  -- the rows before the one the column belongs to are as many
  have count : ∀ bindings, (insertedRows bindings first).length = first.length := fun bindings =>
    (List.length_map _).symm.trans
      ((congrArg List.length (insertedRows_tables bindings first)).trans (List.length_map _))
  have row := (List.cons.inj (List.append_inj equal ((count _).trans (count _).symm)).2).1
  have value := congrArg (·.get parameter) row
  simp only [Insertion.row] at value
  rw [Table.get_row _ column, Table.get_row _ column, overwrite_eq, overwrite_eq,
    boundTo_of_notMem unbound, rebind_of_notMem _ only, rebind_of_notMem _ only] at value
  have clears : ∀ heading (bindings : Bindings),
      Heading.clear heading bindings insertion.table = bindings insertion.table := by
    intro heading bindings
    unfold Heading.clear
    split
    · exact Function.update_of_ne other _ _
    · rfl
  rw [clears, clears, kept insertion.table noEvent] at value
  exact value

/-! ## The calls that depend on earlier ones -/

def blockVote : Call :=
  ⟨.confirmAck ⟨0, 0, 0, 0, .confirmAck, 0⟩
    ⟨⟨.zero 32, .zero 64, 0⟩, none, some (.ignored 0 none)⟩, .sample [], .initial⟩

def hashVote : Call :=
  ⟨.confirmAck ⟨0, 0, 0, 0, .confirmAck, 0⟩
    ⟨⟨.zero 32, .zero 64, 0⟩, some ⟨some [.zero 32]⟩, none⟩, .sample [], .initial⟩

def fullEntry : Call :=
  ⟨.bulkPullAccountEntry ⟨some (.zero 32), some (.zero 16), some (.zero 32)⟩, .sample [],
    { TcpFlowData.initial with requestFlags := pendingHashAmountAndAddress }⟩

private theorem bindings_blockVote {db : Db} (ready : db.Ready) :
    (db.history env [blockVote]).nextId = db.nextId + 3 ∧
      (db.history env [blockVote]).bindings .vote .contentId = .nat (db.nextId + 1) := by
  rw [Db.history_cons neverFails ready, Db.history, Db.store_nextId, Db.bindings_store]
  exact ⟨rfl, rfl⟩

private theorem bindings_hashVote {db : Db} (ready : db.Ready) :
    (db.history env [hashVote]).nextId = db.nextId + 2 ∧
      (db.history env [hashVote]).bindings .vote .hashes =
        .text (joinHashes [Bytes.zero 32]) := by
  rw [Db.history_cons neverFails ready, Db.history, Db.store_nextId, Db.bindings_store]
  exact ⟨rfl, rfl⟩

private theorem bindings_fullEntry {db : Db} (ready : db.Ready) :
    (db.history env [fullEntry]).nextId = db.nextId + 1 ∧
      (db.history env [fullEntry]).bindings .bulkPullAccountResponseEntry .amount ≠ .null ∧
      (db.history env [fullEntry]).bindings .bulkPullAccountResponseEntry .source ≠ .null := by
  rw [Db.history_cons neverFails ready, Db.history, Db.store_nextId, Db.bindings_store]
  exact ⟨rfl, Value.noConfusion, Value.noConfusion⟩

/-- Every kind of vote leaves a column to an earlier vote of another kind. -/
theorem not_independent_vote (header : MessageHeader) (msg : MsgConfirmAck) (flags : UInt8) :
    ¬(Request.confirmAck header msg).Independent env flags := by
  intro independent
  have opened := Db.opened_ready .empty
  cases block : msg.block with
  | some selector =>
      obtain ⟨drawn, bound⟩ := bindings_hashVote neverFails opened
      have null := @Request.Independent.column env neverFails _ flags independent [hashVote]
        { TcpFlowData.initial with requestFlags := flags } rfl 2 drawn _ _ _
        (List.append_assoc _ _ _) (voteBlockInsertions_tables _ _ _) Table.noConfusion
        Table.noConfusion .hashes (by simp [Table.parameters])
        (by simp [MsgConfirmAck.voteCells, MsgConfirmAck.contentCells, VoteCommon.cells, block])
      exact Value.noConfusion (bound.symm.trans null)
  | none =>
      obtain ⟨drawn, bound⟩ := bindings_blockVote neverFails opened
      have null := @Request.Independent.column env neverFails _ flags independent [blockVote]
        { TcpFlowData.initial with requestFlags := flags } rfl 3 drawn _ _ _
        (List.append_assoc _ _ _) (voteBlockInsertions_tables _ _ _) Table.noConfusion
        Table.noConfusion .contentId (by simp [Table.parameters]) (by
          simp only [MsgConfirmAck.voteCells, MsgConfirmAck.contentCells, VoteCommon.cells, block]
          split <;> simp)
      exact Value.noConfusion (bound.symm.trans null)

/-- The first entry without a block to store is reported, the others are not. -/
theorem not_independent_bulkEntry {request : Request} {selector : BlockSelector}
    (plans : ∀ info nextId flow, ∃ table cell event, request.plan env info nextId flow =
      Plan.bulkEntry env info table cell event selector flow nextId)
    (nothing : storable env (some selector) = none) (flags : UInt8) :
    ¬request.Independent env flags := by
  intro independent
  have opened := Db.opened_ready .empty
  let flow := { TcpFlowData.initial with requestFlags := flags }
  have equal := independent (.sample []) .empty .empty [] [] flow
    { flow with invalidResponseCount := 1 } rfl ⟨rfl, rfl, rfl⟩ rfl
  rw [Call.inserted_eq neverFails (by exact opened), Call.inserted_eq neverFails (by exact opened)]
    at equal
  obtain ⟨_, _, _, left⟩ := plans (.sample []) (Db.opened .empty).nextId flow
  obtain ⟨_, _, _, right⟩ :=
    plans (.sample []) (Db.opened .empty).nextId { flow with invalidResponseCount := 1 }
  simp only [Db.history, left, right, Plan.bulkEntry, nothing] at equal
  exact List.cons_ne_nil _ _ equal

/-- The rows of a call depend on earlier calls exactly when it does not bind
everything anew. -/
theorem rows_independent_iff (request : Request) (flags : UInt8) :
    request.Independent env flags ↔ request.BindsAll env flags := by
  refine ⟨fun independent => ?_, Request.independent neverFails⟩
  cases request with
  | confirmAck header msg => exact not_independent_vote neverFails header msg flags independent
  | bulkPullAccountEntry entry =>
      by_contra others
      have different : flags ≠ pendingHashAmountAndAddress := others
      obtain ⟨drawn, amount, source⟩ := bindings_fullEntry neverFails (Db.opened_ready .empty)
      have column := @Request.Independent.column env neverFails _ flags independent [fullEntry]
        { TcpFlowData.initial with requestFlags := flags } rfl 1 drawn _ [] [] rfl (by simp)
        Table.noConfusion Table.noConfusion
      by_cases addressOnly : flags = pendingAddressOnly
      · exact amount (column (by simp [Table.parameters]) (by
          simp [BulkPullAccountEntry.cells, addressOnly]))
      · exact source (column (by simp [Table.parameters]) (by
          simp [BulkPullAccountEntry.cells, addressOnly, different]))
  | bulkPullEntry entry =>
      by_contra none
      exact not_independent_bulkEntry neverFails (fun _ _ _ => ⟨_, _, _, rfl⟩)
        (by simpa [Request.BindsAll] using none) flags independent
  | bulkPushEntry entry =>
      by_contra none
      exact not_independent_bulkEntry neverFails (fun _ _ _ => ⟨_, _, _, rfl⟩)
        (by simpa [Request.BindsAll] using none) flags independent
  | _ => trivial

end Independent

/-- A keepalive. -/
theorem rows_independent_keepalive :
    (Request.keepalive ⟨0, 0, 0, 0, .keepalive, 0⟩ ⟨none⟩).Independent .sample 0 :=
  (rows_independent_iff Environment.sample_neverFails _ 0).mpr trivial

/-- A vote by hash, behind a vote with a block. -/
theorem rows_not_independent :
    ¬∀ (env : Environment) (request : Request) (flags : UInt8), env.NeverFails →
      request.Independent env flags := by
  intro independent
  exact not_independent_vote Environment.sample_neverFails ⟨0, 0, 0, 0, .confirmAck, 0⟩
    ⟨⟨.zero 32, .zero 64, 0⟩, some ⟨some [.zero 32]⟩, none⟩ 0
    (independent .sample _ 0 Environment.sample_neverFails)

end Nanocap
