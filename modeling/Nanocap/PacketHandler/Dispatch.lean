import Nanocap.Database.PacketRows
import Nanocap.PacketHandler.Deliveries
import Nanocap.PacketHandler.Responses

/-! # Message dispatch

The parser and the switch of `handle_tcp` agree on the body of every message type, so
that a segment outside the bootstrap modes is stored as one message or not at all. -/

namespace Nanocap

/-! ## Parser and switch -/

/-- The message types with an overload of `handle_message`. -/
def handledTypes : List EnumMsgtype :=
  [.keepalive, .confirmAck, .confirmReq, .publish, .nodeIdHandshake, .bulkPull, .bulkPush,
   .frontierReq, .bulkPullAccount, .telemetryReq, .telemetryAck]

theorem Body.handling_of_read {header : MessageHeader} {body : Body} {stream stop : KStream}
    (reads : Body.read header stream = .ok body stop) :
    (Nano.handling ⟨header, body⟩).isSome ↔ header.messageType ∈ handledTypes := by
  unfold Body.read at reads
  obtain ⟨_, _, _, _, messageType, _⟩ := header
  cases messageType
  case telemetryReq =>
    cases reads
    simp [Nano.handling, handledTypes]
  all_goals
    obtain ⟨_, _, _, built⟩ := EStateM.bind_eq_ok reads
    cases built
    simp [Nano.handling, handledTypes]

theorem Nano.handling_of_read {nano : Nano} {stream stop : KStream}
    (reads : Nano.read stream = .ok nano stop) :
    nano.handling.isSome ↔ nano.header.messageType ∈ handledTypes := by
  obtain ⟨_, _, _, rest⟩ := EStateM.bind_eq_ok reads
  obtain ⟨_, _, content, built⟩ := EStateM.bind_eq_ok rest
  cases built
  exact Body.handling_of_read content

/-! ## Rows of a message -/

section Rows

variable {env : Environment} {info : NanoPacket} {header : MessageHeader} {request : Request}
  (message : request.header = some header) (nextId : Nat) (flow : TcpFlowData)
  (bindings : Bindings)
include message

theorem Request.packetRow_plan :
    ∃ row, ((request.plan env info nextId flow).rows bindings).filter (·.table = .packet) =
        [row] ∧ row.get .id = .nat nextId ∧ headerColumns.map row.get = header.columns := by
  have headers := @Request.packetHeaders_plan env info header request message nextId flow bindings
  obtain ⟨row, single, columns⟩ := List.map_eq_singleton_iff.mp headers
  refine ⟨row, single, ?_, columns⟩
  have member : row ∈ ((request.plan env info nextId flow).rows bindings).filter
      (·.table = .packet) := single ▸ List.mem_singleton_self row
  obtain ⟨inside, packet⟩ := List.mem_filter.mp member
  obtain ⟨insertion, inserted, before, rfl⟩ := exists_of_mem_insertedRows inside
  cases request.messageInsertions message nextId flow inserted with
  | packet content kind =>
      exact packet_get (by decide) (by decide) (contentCells_unbound kind (by decide)) rfl before
  | part belongs _ => exact absurd (of_decide_eq_true packet) belongs.ne.1

private theorem Request.noConnection_plan :
    ((request.plan env info nextId flow).rows bindings).filter (·.table = .connection) = [] := by
  apply List.filter_eq_nil_iff.mpr
  intro row member isConnection
  obtain ⟨insertion, inserted, before, rfl⟩ := exists_of_mem_insertedRows member
  have connection : insertion.table = .connection := of_decide_eq_true isConnection
  cases request.messageInsertions message nextId flow inserted with
  | packet content kind => cases connection
  | part belongs _ =>
      rw [connection] at belongs
      exact belongs

end Rows

theorem Handling.announced_rows {env : Environment} {info : NanoPacket} (handling : Handling)
    (db : Db) :
    (handling.announced env info db).db.contents.rows = db.contents.rows ++
        (if env.config.connectionDetails then [connectionRow info handling.event db.nextId]
         else []) ∧
      db.nextId ≤ (handling.announced env info db).db.nextId := by
  unfold Handling.announced
  split
  · have stored := @Db.store_rows env
      ((Request.connection handling.event).plan env info db.nextId handling.flow) db
    rw [rows_connection] at stored
    refine ⟨stored, ?_⟩
    rw [Request.after, Db.store_nextId]
    exact Nat.le_add_right _ _
  · exact ⟨(List.append_nil _).symm, Nat.le_refl _⟩

/-! ## What a segment does -/

def Nano.requestFlags (nano : Nano) : UInt8 :=
  match nano.body with
  | .bulkPullAccount msg => msg.flags
  | _ => 0

def requestTypes : List EnumMsgtype := [.frontierReq, .bulkPull, .bulkPullAccount]

/-- The flow a message leaves. A message that starts an exchange notes the id of its
packet row, and of its request row. -/
def Nano.startedFlow (nano : Nano) (packetId : Nat) : TcpFlowData :=
  { TcpFlowData.reset nano.header.messageType with
    packetId := if nano.header.messageType ∈ bootstrapModes then packetId else 0
    messageId := if nano.header.messageType ∈ requestTypes then packetId + 1 else 0
    requestFlags := nano.requestFlags }

/-- The message is stored by one packet row, after one connection row if those are wanted. -/
structure Stored (env : Environment) (nano : Nano) (before after : Handler)
    (added : List Row) (packetId : Nat) : Prop where
  rows : after.db.contents.rows = before.db.contents.rows ++ added
  packet : ∃ row, added.filter (·.table = .packet) = [row] ∧ row.get .id = .nat packetId ∧
    headerColumns.map row.get = nano.header.columns
  connection : (added.filter (·.table = .connection)).length =
    if env.config.connectionDetails then 1 else 0
  fresh : before.db.nextId ≤ packetId ∧ packetId < after.db.nextId
  flow : after.flow = nano.startedFlow packetId

/-- What becomes of a segment outside the bootstrap modes. -/
def Dispatched (env : Environment) (info : NanoPacket) (before after : Handler) : Prop :=
  match Nano.read (.ofBytes info.data) with
  | .error _ _ => after.db = before.db ∧ after.flow = before.flow
  | .ok nano _ =>
      if nano.header.messageType ∈ handledTypes then
        ∃ added packetId, Stored env nano before after added packetId
      else after.db = before.db ∧ after.flow = .reset .invalid

private theorem Nano.startedFlow_eq {env : Environment} {nano : Nano} {handling : Handling}
    (handled : nano.handling = some handling) (nextId : Nat) :
    handling.request.flowAfter env nextId handling.flow = nano.startedFlow nextId := by
  obtain ⟨⟨_, _, _, _, messageType, _⟩, body⟩ := nano
  cases messageType <;> cases body <;> cases handled <;> rfl

theorem Handling.ids_pos {env : Environment} {info : NanoPacket} {nano : Nano}
    {handling : Handling} (handled : nano.handling = some handling) (nextId : Nat)
    (flow : TcpFlowData) : 0 < (handling.request.plan env info nextId flow).ids := by
  obtain ⟨⟨_, _, _, _, messageType, _⟩, body⟩ := nano
  cases messageType <;> cases body <;> cases handled
  all_goals
    dsimp only [Request.plan, Plan.message, Plan.withBlock, Plan.withContent, Plan.vote]
    omega

theorem Handling.stored {env : Environment} {info : NanoPacket} {nano : Nano}
    {handling : Handling} (handled : nano.handling = some handling) {before after : Handler}
    (stores : after.toWorld = handling.after env info before.db) :
    ∃ added packetId, Stored env nano before after added packetId := by
  obtain ⟨message, -, -, -⟩ := Nano.handling_request handled
  obtain ⟨rows, drawn⟩ := @Handling.announced_rows env info handling before.db
  obtain ⟨flow, -⟩ := @Handling.announced_spec env info handling before.db
  let world := handling.announced env info before.db
  let plan := handling.request.plan env info world.db.nextId world.flow
  have inserted := @Db.store_rows env plan world.db
  let event : List Row :=
    if env.config.connectionDetails then [connectionRow info handling.event before.db.nextId]
    else []
  have noPacket : event.filter (·.table = .packet) = [] := by
    unfold event
    split <;> rfl
  have oneEvent : (event.filter (·.table = .connection)).length =
      if env.config.connectionDetails then 1 else 0 := by
    unfold event
    split <;> rfl
  refine ⟨event ++ plan.rows world.db.bindings, world.db.nextId, ?_, ?_, ?_, ⟨drawn, ?_⟩, ?_⟩
  · rw [stores, Handling.after, Request.after]
    exact inserted.trans ((congrArg (· ++ _) rows).trans (List.append_assoc _ _ _))
  · obtain ⟨row, single, id, columns⟩ := @Request.packetRow_plan env info nano.header
      handling.request message world.db.nextId world.flow world.db.bindings
    refine ⟨row, ?_, id, columns⟩
    rw [List.filter_append, noPacket, single]
    rfl
  · have none := @Request.noConnection_plan env info nano.header handling.request message
      world.db.nextId world.flow world.db.bindings
    rw [List.filter_append, none, List.append_nil, oneEvent]
  · rw [stores, Handling.after, Request.after, Db.store_nextId]
    exact Nat.lt_add_of_pos_right (Handling.ids_pos handled _ _)
  · rw [stores, Handling.after, Request.after, flow]
    exact Nano.startedFlow_eq handled _

/-- Outside the bootstrap modes `handle_tcp` returns for every segment. One that cannot
be read changes neither the database nor the flow, a message of a handled type is
stored, and any other is ignored. -/
theorem segment_dispatched {env : Environment} (neverFails : env.NeverFails) (info : NanoPacket)
    {before : Handler} (ready : before.db.Ready)
    (message : before.flow.currentMsgType ∉ bootstrapModes) :
    ∃ after, (∀ other, Handles env info before other ↔ other = after) ∧
      Dispatched env info before after := by
  have noLoop : drainLoop env info before.flow.currentMsgType = none :=
    (drainLoop_eq_none_iff env info).mpr message
  refine ⟨_, fun other => (handles_iff_message noLoop).trans eq_comm, ?_⟩
  unfold Dispatched
  cases reads : Nano.read (.ofBytes info.data) with
  | error exception stop =>
      rw [handleSegment_of_error reads]
      cases exception <;> exact ⟨rfl, rfl⟩
  | ok nano stop =>
      rw [handleSegment_of_ok neverFails info ready before.flow reads]
      dsimp only
      have agree := Nano.handling_of_read reads
      unfold Nano.after
      cases handled : nano.handling with
      | some handling =>
          rw [if_pos (agree.mp (by rw [handled]; rfl))]
          exact Handling.stored handled rfl
      | none =>
          rw [if_neg (fun known => by simpa [handled] using agree.mpr known)]
          exact ⟨rfl, rfl⟩

def NanoPacket.sampleVote : NanoPacket :=
  .sample ((MessageHeader.sample .confirmAck 0x2100).wire ++ List.replicate 168 1)

/-- A vote on a flow that has seen a keepalive is stored. -/
theorem segment_dispatched_vote :
    let before := Handler.waiting (.reset .keepalive)
    ∃ nano stop after added packetId,
      Nano.read (.ofBytes NanoPacket.sampleVote.data) = .ok nano stop ∧
      nano.header = .sample .confirmAck 0x2100 ∧
      (∀ other, Handles .sample .sampleVote before other ↔ other = after) ∧
      Stored .sample nano before after added packetId := by
  intro before
  have returns : returnsWith (fun nano => nano.header = .sample .confirmAck 0x2100)
      (Nano.read (.ofBytes NanoPacket.sampleVote.data)) = true := by decide +kernel
  -- the message is not read again from here on
  generalize NanoPacket.sampleVote = info at returns ⊢
  obtain ⟨nano, stop, reads, header⟩ := exists_of_returnsWith returns
  obtain ⟨after, handles, dispatched⟩ := @segment_dispatched .sample
    Environment.sample_neverFails info before (Db.opened_ready _) (by decide)
  have known := of_decide_eq_true header
  have handled : nano.header.messageType ∈ handledTypes := known ▸ by decide
  rw [Dispatched, reads] at dispatched
  dsimp only at dispatched
  rw [if_pos handled] at dispatched
  obtain ⟨added, packetId, stored⟩ := dispatched
  exact ⟨nano, stop, after, added, packetId, reads, known, handles, stored⟩

end Nanocap
