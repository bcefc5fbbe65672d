import Nanocap.Database.Plan

/-! # The plan of every member function

`Request` collects the overloads of `put` and `put_connection`, and
`Request.plan` says what each of them stores. The effects of a plan that do not
depend on each other can be put in any order. -/

namespace Nanocap

/-! ## Order of independent effects -/

namespace Db

variable (db : Db) (cells more : List Cell) (count : Nat)

private theorem setPhase_insertRow_of_ne {table other : Table} (different : other ≠ table)
    (phase : Phase) :
    (db.insertRow table cells).setPhase other phase =
      (db.setPhase other phase).insertRow table cells := by
  simp only [insertRow, bindAll, insert, setPhase, setStatement, write, autocommit,
    Function.update_self, Function.update_of_ne different, Function.update_of_ne different.symm,
    Function.update_idem]
  rw [Function.update_comm different]

private theorem bindAll_insertRow_of_ne {table other : Table} (different : other ≠ table) :
    (db.bindAll other more).insertRow table cells =
      (db.insertRow table cells).bindAll other more := by
  simp only [insertRow, bindAll, insert, setPhase, setStatement, write, autocommit,
    Function.update_self, Function.update_of_ne different, Function.update_of_ne different.symm,
    Function.update_idem]
  rw [Function.update_comm different]

theorem bindAll_insertRow_self (table : Table) :
    (db.bindAll table cells).insertRow table more = db.insertRow table (cells ++ more) := by
  rw [insertRow, insertRow, bindAll_append]

theorem dispense_dispense (more : Nat) :
    (db.dispense count).dispense more = db.dispense (count + more) := by
  simp [dispense, Nat.add_assoc]

private theorem insertRow_dispense (table : Table) :
    (db.dispense count).insertRow table cells = (db.insertRow table cells).dispense count := rfl

private theorem bindAll_dispense (table : Table) :
    (db.dispense count).bindAll table cells = (db.bindAll table cells).dispense count := rfl

private theorem insert_dispense (table : Table) :
    (db.dispense count).insert table = (db.insert table).dispense count := rfl

theorem setPhase_dispense (table : Table) (phase : Phase) :
    (db.dispense count).setPhase table phase = (db.setPhase table phase).dispense count := rfl

theorem insertAll_dispense (db : Db) (insertions : List Insertion) :
    (db.dispense count).insertAll insertions = (db.insertAll insertions).dispense count := by
  induction insertions generalizing db with
  | nil => rfl
  | cons insertion insertions induction =>
      exact induction (db.insertRow insertion.table insertion.cells)

section BesidePacket

variable {insertions : List Insertion}
  (beside : ∀ insertion ∈ insertions, insertion.table ≠ .packet)
include beside

private theorem setPhase_insertAll (db : Db) (phase : Phase) :
    (db.insertAll insertions).setPhase .packet phase =
      (db.setPhase .packet phase).insertAll insertions := by
  induction insertions generalizing db with
  | nil => rfl
  | cons insertion insertions induction =>
      change ((db.insertRow _ _).insertAll insertions).setPhase _ _ = _
      rw [induction fun other member => beside other (by simp [member]),
        setPhase_insertRow_of_ne _ _ (beside insertion (by simp)).symm]
      rfl

private theorem bindAll_insertAll (db : Db) :
    (db.bindAll .packet cells).insertAll insertions =
      (db.insertAll insertions).bindAll .packet cells := by
  induction insertions generalizing db with
  | nil => rfl
  | cons insertion insertions induction =>
      change ((db.bindAll _ _).insertRow _ _).insertAll insertions = _
      rw [bindAll_insertRow_of_ne _ _ _ (beside insertion (by simp)).symm,
        induction fun other member => beside other (by simp [member])]
      rfl

end BesidePacket

theorem singleton_beside (table : Table) (different : table ≠ .packet) (cells : List Cell) :
    ∀ insertion ∈ [Insertion.mk table cells], insertion.table ≠ .packet := by
  simpa using different

def Idle (db : Db) : Prop := ∀ table, table ≠ .packet → (db.statements table).phase = .ready

variable {db}

theorem Ready.idle (ready : db.Ready) : db.Idle := fun table _ => ready.reset table

theorem Idle.dispense (idle : db.Idle) (count : Nat) : (db.dispense count).Idle := idle

theorem Idle.insertRow (idle : db.Idle) (table : Table) (cells : List Cell) :
    (db.insertRow table cells).Idle := by
  intro other notPacket
  by_cases equal : other = table
  · subst equal
    simp
  · rw [insertRow_statements_of_ne _ _ equal]
    exact idle other notPacket

theorem Idle.insertAll (idle : db.Idle) (insertions : List Insertion) :
    (db.insertAll insertions).Idle := by
  induction insertions generalizing db with
  | nil => exact idle
  | cons insertion insertions induction => exact induction (idle.insertRow _ _)

theorem Idle.bindAll (idle : db.Idle) (table : Table) (cells : List Cell) :
    (db.bindAll table cells).Idle := by
  intro other notPacket
  rw [bindAll_phase]
  exact idle other notPacket

theorem Idle.insert (idle : db.Idle) : (db.insert .packet).Idle := by
  intro other notPacket
  rw [insert_statements, setPhase_statements_of_ne _ _ notPacket]
  exact idle other notPacket

end Db

/-! ## The packet row -/

def MessageHeader.packetCells (header : MessageHeader) (info : NanoPacket) (id : Nat) :
    List Cell :=
  header.cells id ++ info.packetFields

namespace Db

variable (env : Environment) (header : MessageHeader) (info : NanoPacket) (id count : Nat)

/-- What `bind_header_fields` does before it binds. -/
def begun (messageType : EnumMsgtype) (nextId : Nat) (db : Db) : Db :=
  ((commitAt env nextId db).clearBindings .packet).countType messageType

theorem begun_dispense (messageType : EnumMsgtype) (nextId : Nat) (db : Db) :
    (db.dispense count).begun env messageType nextId =
      (db.begun env messageType nextId).dispense count := by
  rw [begun, commitAt_dispense]
  rfl

theorem Ready.begun {db : Db} (ready : db.Ready) (messageType : EnumMsgtype) (nextId : Nat) :
    (db.begun env messageType nextId).Ready :=
  ⟨fun table => by simp [Db.begun, ready.reset], by simp [Db.begun, ready.inTransaction]⟩

/-- After `bind_header_fields` and `bind_packet_fields`. -/
def bound (db : Db) : Db :=
  (db.begun env header.messageType db.nextId).bindAll .packet (header.packetCells info id)

theorem Ready.bound {db : Db} (ready : db.Ready) : (db.bound env header info id).Ready :=
  let begun := ready.begun env header.messageType db.nextId
  ⟨fun table => by simpa [Db.bound] using begun.reset table,
    by simpa [Db.bound] using begun.inTransaction⟩

@[simp] theorem bound_nextId (db : Db) : (db.bound env header info id).nextId = db.nextId := by
  simp [bound, begun]

def headed (db : Db) : Db := (db.bound env header info id).insert .packet

theorem Ready.headed {db : Db} (ready : db.Ready) : (db.headed env header info id).Idle :=
  (ready.bound env header info id).idle.insert

@[simp] theorem headed_nextId (db : Db) :
    (db.headed env header info id).nextId = db.nextId := by
  simp [headed]

section Finish

variable (db : Db) {insertions : List Insertion}
  (beside : ∀ insertion ∈ insertions, insertion.table ≠ .packet)
include beside

theorem headed_finish :
    (((db.dispense count).headed env header info id).insertAll insertions).setPhase .packet
        .ready =
      ((db.begun env header.messageType (db.nextId + count)).insertAll
        (⟨.packet, header.packetCells info id⟩ :: insertions)).dispense count := by
  rw [setPhase_insertAll beside, headed, bound, begun_dispense, bindAll_dispense,
    insert_dispense, setPhase_dispense, insertAll_dispense]
  rfl

theorem bound_finish (content : List Cell) :
    (((((db.dispense count).bound env header info id).insertAll insertions).bindAll .packet
        content).insert .packet).setPhase .packet .ready =
      ((db.begun env header.messageType (db.nextId + count)).insertAll
        (insertions ++ [⟨.packet, header.packetCells info id ++ content⟩])).dispense count := by
  rw [bound, begun_dispense, bindAll_insertAll _ beside, bindAll_append, insertAll_dispense,
    insertAll_append]
  rfl

end Finish

/-- As `headed_finish`, for one row that draws its id after the packet row. -/
theorem headed_finish_row (db : Db) {table : Table} (different : table ≠ .packet)
    (cells : List Cell) :
    ((((db.dispense count).headed env header info id).dispense 1).insertRow table
        cells).setPhase .packet .ready =
      ((db.begun env header.messageType (db.nextId + count)).insertAll
        [⟨.packet, header.packetCells info id⟩, ⟨table, cells⟩]).dispense (count + 1) := by
  have finished := headed_finish env header info id count db
    (singleton_beside table different cells)
  have insertOne : ∀ db : Db, db.insertAll [⟨table, cells⟩] = db.insertRow table cells :=
    fun _ => rfl
  rw [insertOne] at finished
  rw [insertRow_dispense, setPhase_dispense, finished, dispense_dispense]

end Db

/-! ## Requests -/

/-- A call of one of the overloads of `put`, or of `put_connection`. -/
inductive Request where
  | connection (event : String)
  | telemetryReq (header : MessageHeader)
  | telemetryAck (header : MessageHeader) (msg : MsgTelemetryAck)
  | keepalive (header : MessageHeader) (msg : MsgKeepalive)
  | confirmAck (header : MessageHeader) (msg : MsgConfirmAck)
  | confirmReq (header : MessageHeader) (msg : MsgConfirmReq)
  | publish (header : MessageHeader) (msg : MsgPublish)
  | nodeIdHandshake (header : MessageHeader) (msg : MsgNodeIdHandshake)
  | frontierReq (header : MessageHeader) (msg : MsgFrontierReq)
  | bulkPull (header : MessageHeader) (msg : MsgBulkPull)
  | bulkPullAccount (header : MessageHeader) (msg : MsgBulkPullAccount)
  | bulkPush (header : MessageHeader)
  | frontierEntry (entry : FrontierEntry)
  | bulkPullEntry (entry : BulkPullEntry)
  | bulkPushEntry (entry : BulkPushEntry)
  | frontierBalanceEntry (entry : FrontierBalanceEntry)
  | bulkPullAccountEntry (entry : BulkPullAccountEntry)
deriving DecidableEq

section Plans

variable (env : Environment) (info : NanoPacket)

def Request.put : Request → Put Unit
  | connection event => putConnection info event
  | telemetryReq header => putTelemetryReq env header info
  | telemetryAck header msg => putTelemetryAck env header msg info
  | keepalive header msg => putKeepalive env header msg info
  | confirmAck header msg => putConfirmAck env header msg info
  | confirmReq header msg => putConfirmReq env header msg info
  | publish header msg => putPublish env header msg info
  | nodeIdHandshake header msg => putNodeIdHandshake env header msg info
  | frontierReq header msg => putFrontierReq env header msg info
  | bulkPull header msg => putBulkPull env header msg info
  | bulkPullAccount header msg => putBulkPullAccount env header msg info
  | bulkPush header => putBulkPush env header info
  | frontierEntry entry => putFrontierEntry env entry
  | bulkPullEntry entry => putBulkPullEntry env entry info
  | bulkPushEntry entry => putBulkPushEntry env entry info
  | frontierBalanceEntry entry => putFrontierBalanceEntry entry
  | bulkPullAccountEntry entry => putBulkPullAccountEntry entry

def connectionInsertion (event : String) (id : Nat) : Insertion :=
  ⟨.connection, info.connectionCells event id⟩

def blockInsertions (blockSelector : Option BlockSelector) (id packetId : Nat) :
    List Insertion :=
  match storable env blockSelector with
  | some block => [⟨block.table, block.cells env id packetId⟩]
  | none => []

def contentTableOf (blockSelector : Option BlockSelector) : String :=
  match storable env blockSelector with
  | some block => block.table.name
  | none => ""

def peerInsertions (packetId : Nat) : Nat → List Peer → List Insertion
  | _, [] => []
  | id, peer :: peers =>
      ⟨.keepaliveHost, peer.cells env id packetId⟩ :: peerInsertions packetId (id + 1) peers

def queryInsertions (id packetId : Nat) : Option NodeIdQuery → List Insertion
  | some query => [⟨.nodeidQuery, query.cells id packetId⟩]
  | none => []

def responseInsertions (id packetId : Nat) : Option NodeIdResponse → List Insertion
  | some response => [⟨.nodeidResponse, response.cells env id packetId⟩]
  | none => []

def MsgConfirmAck.contentCells (msg : MsgConfirmAck) (blockContentId : Nat) : List Cell :=
  match msg.block with
  | some block =>
      [(.contentId, .nat blockContentId),
       (.contentTable, .text (contentTableOf env (some block))),
       (.voteCount, .nat 1),
       (.vbh, .nat 0)]
  | none =>
      if msg.hashes ≠ [] then
        [(.vbh, .nat 1),
         (.voteCount, .nat msg.hashes.length),
         (.hashes, .text (joinHashes msg.hashes))]
      else
        [(.vbh, .nat 2), (.voteCount, .nat 0)]

def MsgConfirmAck.voteCells (msg : MsgConfirmAck) (blockContentId id packetId : Nat) :
    List Cell :=
  msg.contentCells env blockContentId ++ msg.common.cells env ++
    [(.id, .nat id), (.packetId, .nat packetId)]

def MsgConfirmAck.blockIds (msg : MsgConfirmAck) : Nat := if msg.block.isSome then 1 else 0

def voteBlockInsertions (msg : MsgConfirmAck) (id packetId : Nat) : List Insertion :=
  if msg.block.isSome then blockInsertions env msg.block id packetId else []

def packetContentCells (id : Nat) (contentTable : String) : List Cell :=
  [(.contentId, .nat id), (.contentTable, .text contentTable)]

namespace Plan

def message (header : MessageHeader) (drawn ids packetId : Nat) (rest : List Insertion) : Plan where
  heading := some ⟨header.messageType, drawn⟩
  ids := ids
  insertions := ⟨.packet, header.packetCells info packetId⟩ :: rest

/-- The rows of a message whose packet row points to one of them, and then the
packet row. -/
def withContent (header : MessageHeader) (ids packetId : Nat) (rest : List Insertion)
    (content : List Cell) : Plan where
  heading := some ⟨header.messageType, 1⟩
  ids := ids
  insertions := rest ++ [⟨.packet, header.packetCells info packetId ++ content⟩]

def withBlock (header : MessageHeader) (blockSelector : Option BlockSelector)
    (nextId : Nat) : Plan :=
  withContent info header 2 nextId (blockInsertions env blockSelector (nextId + 1) nextId)
    (packetContentCells (nextId + 1) (contentTableOf env blockSelector))

def vote (header : MessageHeader) (msg : MsgConfirmAck) (nextId : Nat) : Plan :=
  let voteId := nextId + 1 + msg.blockIds
  withContent info header (1 + (msg.blockIds + 1)) nextId
    (voteBlockInsertions env msg (nextId + 1) nextId ++
      [⟨.vote, msg.voteCells env (nextId + 1) voteId nextId⟩])
    (packetContentCells voteId Table.vote.name)

def entry (table : Table) (cells : List Cell) : Plan := ⟨none, 1, [⟨table, cells⟩]⟩

theorem rows_entry {table : Table} {cells : List Cell}
    (covers : cells.map Prod.fst = table.parameters) (bindings : Bindings) :
    (entry table cells).rows bindings = [table.rowOf cells] :=
  insertedRows_of_covers _ fun insertion member => by
    rw [List.mem_singleton.mp member]
    exact covers

def bulkEntry (table : Table) (request : Cell) (event : String) (block : BlockSelector)
    (flow : TcpFlowData) (nextId : Nat) : Plan :=
  match storable env (some block) with
  | some block =>
      ⟨none, 2,
        [⟨block.table, block.cells env nextId flow.packetId⟩,
         ⟨table, referenceCells request (nextId + 1) nextId block.table.name⟩]⟩
  | none =>
      if flow.invalidResponseCount = 0 then
        ⟨none, 2, [connectionInsertion info event (nextId + 1)]⟩
      else ⟨none, 1, []⟩

end Plan

/-- The plan of a request, given the id counter and the flow it starts with. -/
def Request.plan (nextId : Nat) (flow : TcpFlowData) : Request → Plan
  | connection event => .entry .connection (info.connectionCells event nextId)
  | telemetryReq header => .message info header 1 1 nextId []
  | telemetryAck header msg =>
      .message info header 1 2 nextId [⟨.telemetry, msg.cells env (nextId + 1) nextId⟩]
  | keepalive header msg =>
      let peers := msg.peers.getD []
      .message info header 1 (1 + peers.length) nextId
        (peerInsertions env nextId (nextId + 1) peers)
  | confirmAck header msg => .vote env info header msg nextId
  | confirmReq header msg => .withBlock env info header msg.block nextId
  | publish header msg => .withBlock env info header (some msg.body) nextId
  | nodeIdHandshake header msg =>
      let queries := queryInsertions (nextId + 1) nextId msg.query
      let responses :=
        responseInsertions env (nextId + 1 + queries.length) nextId msg.response
      .message info header 1 (1 + queries.length + responses.length) nextId
        (queries ++ responses)
  | frontierReq header msg =>
      .message info header 1 2 nextId [⟨.frontierRequest, msg.cells (nextId + 1) nextId⟩]
  | bulkPull header msg =>
      .message info header 1 2 nextId [⟨.bulkPullRequest, msg.cells env (nextId + 1) nextId⟩]
  | bulkPullAccount header msg =>
      .message info header 2 2 nextId
        [⟨.bulkPullAccountRequest, msg.cells env (nextId + 1) nextId⟩]
  | bulkPush header => .message info header 1 1 nextId []
  | frontierEntry entry =>
      .entry .frontierResponse (entry.cells env nextId flow.messageId)
  | bulkPullEntry entry =>
      .bulkEntry env info .bulkPullResponse (.bulkPullRequestId, .nat flow.messageId)
        "first invalid bulk_pull response" entry.block flow nextId
  | bulkPushEntry entry =>
      .bulkEntry env info .bulkPushEntry (.packetId, .nat flow.packetId)
        "first invalid bulk_push entry" entry.block flow nextId
  | frontierBalanceEntry entry =>
      .entry .bulkPullAccountResponse (entry.cells nextId flow.messageId)
  | bulkPullAccountEntry entry =>
      .entry .bulkPullAccountResponseEntry
        (entry.cells flow.requestFlags nextId flow.messageId)

def Request.flowAfter (nextId : Nat) (flow : TcpFlowData) : Request → TcpFlowData
  | frontierReq _ _ | bulkPull _ _ | bulkPullAccount _ _ =>
      { flow with packetId := nextId, messageId := nextId + 1 }
  | bulkPush _ => { flow with packetId := nextId }
  | bulkPullEntry ⟨_, block⟩ | bulkPushEntry ⟨_, block⟩ =>
      if (storable env (some block)).isSome then flow
      else { flow with invalidResponseCount := flow.invalidResponseCount + 1 }
  | _ => flow

/-- What a completed request makes of the database and the flow. -/
def Request.after (request : Request) (world : World) : World where
  db := world.db.store env (request.plan env info world.db.nextId world.flow)
  flow := request.flowAfter env world.db.nextId world.flow

end Plans

/-! ## Insertions beside the packet table -/

theorem Block.table_ne_packet (block : Block) : block.table ≠ .packet := by
  cases block <;> simp [Block.table]

theorem Block.table_name_ne (block : Block) : block.table.name ≠ "" := by
  cases block <;> simp [Block.table, Table.name]

section Beside

variable (env : Environment)

theorem blockInsertions_beside (blockSelector : Option BlockSelector) (id packetId : Nat) :
    ∀ insertion ∈ blockInsertions env blockSelector id packetId, insertion.table ≠ .packet := by
  intro insertion member
  unfold blockInsertions at member
  split at member
  · exact Db.singleton_beside _ (Block.table_ne_packet _) _ insertion member
  · cases member

theorem peerInsertions_beside (packetId id : Nat) (peers : List Peer) :
    ∀ insertion ∈ peerInsertions env packetId id peers, insertion.table ≠ .packet := by
  induction peers generalizing id with
  | nil => simp [peerInsertions]
  | cons peer peers induction =>
      intro insertion member
      rcases List.mem_cons.mp member with equal | member
      · simp [equal]
      · exact induction _ insertion member

theorem voteInsertions_beside (msg : MsgConfirmAck) (id packetId : Nat)
    (cells : List Cell) :
    ∀ insertion ∈ voteBlockInsertions env msg id packetId ++ [⟨.vote, cells⟩],
      insertion.table ≠ .packet := by
  intro insertion member
  rcases List.mem_append.mp member with member | member
  · unfold voteBlockInsertions at member
    split at member
    · exact blockInsertions_beside env _ _ _ insertion member
    · cases member
  · exact Db.singleton_beside .vote (by decide) cells insertion member

theorem handshakeInsertions_beside (id other packetId : Nat) (query : Option NodeIdQuery)
    (response : Option NodeIdResponse) :
    ∀ insertion ∈ queryInsertions id packetId query ++
      responseInsertions env other packetId response, insertion.table ≠ .packet := by
  cases query <;> cases response <;> simp [queryInsertions, responseInsertions]

end Beside

end Nanocap
