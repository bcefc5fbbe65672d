import Nanocap.Database.Query
import Nanocap.PacketHandler.Queueing
import Nanocap.PacketHandler.Termination

/-! # Texts of a capture

Every event binds plain texts only, but for the `start` of a frontier_req, which is
bound as it was received. Statements may fail. -/

namespace Nanocap

open Loop (Control)

/-! ## Actions -/

section Actions

variable {env : Environment} {info : NanoPacket}

theorem modifyFlow_keeps_text (change : TcpFlowData → TcpFlowData) :
    Keeps World.QuerySafe (modifyFlow change) := fun _ safe => safe

theorem whenBootstrapDetails_keeps_text {put : Put Unit} (every : put.Every Op.QuerySafe) :
    Keeps World.QuerySafe (whenBootstrapDetails env put) :=
  .ite (fun _ => Put.run_querySafe env every) fun _ => .pure ()

theorem consumeEntry_keeps_text (ks : KStream) : Keeps World.QuerySafe (consumeEntry ks) :=
  modifyFlow_keeps_text _

variable (ips : info.PlainIps)
include ips

theorem endResponse_keeps_text {event : TcpFlowData → String} (plain : ∀ flow, Plain (event flow)) :
    Keeps World.QuerySafe (endResponse env info event) :=
  (getFlow_keeps _).bind fun flow =>
    (whenBootstrapDetails_keeps_text (putConnection_every ips (plain flow))).bind fun _ =>
      modifyFlow_keeps_text _

omit ips in
private theorem plain_endOfFrontierReq (flow : TcpFlowData) : Plain (endOfFrontierReq flow) :=
  ((Plain.append (by decide) (Nat.plain_repr _)).append (by decide)).append (Nat.plain_repr _)

omit ips in
theorem plain_endOfBulk {name : String} (plain : Plain name) (flow : TcpFlowData) :
    Plain (endOfBulk name flow) :=
  ((((Plain.append (by decide) plain).append (by decide)).append (Nat.plain_repr _)).append
    (by decide)).append (Nat.plain_repr _)

private theorem frontierIteration_keeps_text : Keeps World.QuerySafe (frontierIteration env info) :=
  frontierIteration_keeps (endResponse_keeps_text ips plain_endOfFrontierReq)
    (fun _ => whenBootstrapDetails_keeps_text (putFrontierEntry_every _)) consumeEntry_keeps_text
    ((modifyFlow_keeps_text _).bind fun _ => .pure _)

theorem bulkIteration_keeps_text {Entry : Type} {name : String} (plain : Plain name)
    {build : UInt8 → BlockSelector → Entry} {put : Entry → Put Unit}
    (every : ∀ entry, (put entry).Every Op.QuerySafe) :
    Keeps World.QuerySafe (bulkIteration env info name (readBulkEntry build) put) :=
  bulkIteration_keeps (endResponse_keeps_text ips (plain_endOfBulk plain))
    (fun entry => whenBootstrapDetails_keeps_text (every entry)) consumeEntry_keeps_text

omit ips in
private theorem accountHeader_keeps_text (stream : KStream) :
    Keeps World.QuerySafe (accountHeader env stream) :=
  (construct_keeps _ _ _).bind fun _ =>
    (whenBootstrapDetails_keeps_text (putFrontierBalanceEntry_every _)).bind fun _ =>
      (modifyFlow_keeps_text _).bind fun _ => .pure _

private theorem accountEntry_keeps_text (stream : KStream) :
    Keeps World.QuerySafe (accountEntry env info stream) :=
  accountEntry_keeps (endResponse_keeps_text ips (plain_endOfBulk (by decide)))
    (fun _ => whenBootstrapDetails_keeps_text (putBulkPullAccountEntry_every _))
    (modifyFlow_keeps_text _) stream

private theorem accountIteration_keeps_text :
    Keeps World.QuerySafe (accountIteration env info) := by
  refine (getFlow_keeps _).bind fun flow => Keeps.ite (fun _ => .pure _) fun _ =>
    catchRuntimeError_keeps ?_ (.pure _)
  have rest : ∀ stream, Keeps World.QuerySafe (do
      if (← getFlow).step = 1 then accountEntry env info stream
      return Control.again : Action Control) := fun stream =>
    (getFlow_keeps _).bind fun flow => Keeps.ite
      (fun _ => (accountEntry_keeps_text ips stream).bind fun _ => .pure _) fun _ => .pure _
  exact (getFlow_keeps _).bind fun flow => Keeps.ite
    (fun _ => (accountHeader_keeps_text _).bind rest) fun _ => (Keeps.pure _).bind rest

private theorem drainLoop_keeps_text {mode : EnumMsgtype} {iteration : Action Control}
    (loop : drainLoop env info mode = some iteration) : Keeps World.QuerySafe iteration := by
  unfold drainLoop at loop
  split at loop <;> cases loop
  · exact frontierIteration_keeps_text ips
  · exact bulkIteration_keeps_text ips (by decide) (putBulkPullEntry_every ips)
  · exact bulkIteration_keeps_text ips (by decide) (putBulkPushEntry_every ips)
  · exact accountIteration_keeps_text ips

theorem handleMessage_keeps_text {event : String} (plain : Plain event) {put : Put Unit}
    (every : put.Every Op.QuerySafe) (messageType : EnumMsgtype) :
    Keeps World.QuerySafe (handleMessage env messageType event put info) :=
  handleMessage_keeps (modifyFlow_keeps_text _)
    (Put.run_querySafe env (putConnection_every ips plain)) (Put.run_querySafe env every)

end Actions

/-! ## Segments -/

def Body.rawBytes : Body → List UInt8
  | .frontierReq msg => msg.start.val
  | _ => []

/-- The message is no frontier_req, or its `start` consists of plain bytes. -/
def Body.PlainStart (body : Body) : Prop := ∀ byte ∈ body.rawBytes, PlainByte byte

instance (body : Body) : Decidable body.PlainStart := List.decidableBAll PlainByte body.rawBytes

section Segments

variable {env : Environment} (addresses : env.PlainAddresses) {info : NanoPacket}
  (ips : info.PlainIps)
include addresses ips

private theorem dispatch_keeps_text (header : MessageHeader) {body : Body}
    (start : body.PlainStart) :
    Keeps World.QuerySafe (dispatch env header info body) := by
  unfold dispatch
  split
  case h_1 msg _ =>
    exact handleMessage_keeps_text ips (by decide)
      (putKeepalive_every ips header addresses msg) _
  case h_2 msg _ =>
    exact handleMessage_keeps_text ips (by decide) (putConfirmAck_every ips header msg) _
  case h_3 msg _ =>
    exact handleMessage_keeps_text ips (by decide) (putWithBlock_every ips header msg.block) _
  case h_4 msg _ =>
    exact handleMessage_keeps_text ips (by decide) (putWithBlock_every ips header (some msg.body)) _
  case h_5 msg _ =>
    exact handleMessage_keeps_text ips (by decide) (putNodeIdHandshake_every ips header msg) _
  case h_6 msg _ =>
    exact handleMessage_keeps_text ips (by decide) (putBulkPull_every ips header msg) _
  case h_7 => exact handleMessage_keeps_text ips (by decide) (putBulkPush_every ips header) _
  case h_8 msg _ =>
    exact handleMessage_keeps_text ips (by decide) (putFrontierReq_every ips header start) _
  case h_9 msg _ =>
    refine (modifyFlow_keeps_text _).bind fun _ => (modifyFlow_keeps_text _).bind fun _ => ?_
    have every : (putBulkPullAccount env header msg info).Every Op.QuerySafe :=
      putBulkPullAccount_every ips header msg
    split
    · exact (Put.run_querySafe env (putConnection_every ips (by decide))).bind fun _ =>
        Put.run_querySafe env every
    · exact Put.run_querySafe env every
  case h_10 => exact handleMessage_keeps_text ips (by decide) (putTelemetryReq_every ips header) _
  case h_11 msg _ =>
    exact handleMessage_keeps_text ips (by decide) (putTelemetryAck_every ips header msg) _
  case h_12 => exact .pure _

private theorem handleSegment_keeps_text
    (start : ∀ nano stop, Nano.read (.ofBytes info.data) = .ok nano stop → nano.body.PlainStart) :
    Keeps World.QuerySafe (handleSegment env info) := by
  intro world safe
  unfold handleSegment
  cases reads : Nano.read (.ofBytes info.data) with
  | error exception stop =>
      rw [EStateM.bind_of_error (construct_of_error reads)]
      exact safe
  | ok nano stop =>
      rw [EStateM.bind_of_ok (construct_of_ok reads)]
      exact ((modifyFlow_keeps_text _).bind fun _ =>
        dispatch_keeps_text addresses ips _ (start nano stop reads)) world safe

/-- A segment that `handle_tcp` reads as a message is no frontier_req with a `start`
of other bytes. -/
def NanoPacket.PlainStart (info : NanoPacket) (flow : TcpFlowData) : Prop :=
  flow.currentMsgType ∉ bootstrapModes ∨ info.data = [] →
    ∀ nano stop, Nano.read (.ofBytes info.data) = .ok nano stop → nano.body.PlainStart

theorem Handles.keeps_text {before after : Handler} (handles : Handles env info before after)
    (start : info.PlainStart before.flow) (safe : before.db.QuerySafe) : after.db.QuerySafe := by
  obtain ⟨fuel, result, processed, rfl⟩ := (handles_iff _ _).mp handles
  change (before.checkMaxReached.settle result).toWorld.QuerySafe
  rw [Handler.settle_toWorld]
  unfold processSegment at processed
  split at processed
  · rename_i iteration byte bytes loop data
    have accumulated : (accumulate info before.toWorld).QuerySafe := safe
    exact (drainLoop_keeps_text ips loop).loop ⟨fuel, processed⟩ accumulated
  · rename_i noLoop
    have message : before.flow.currentMsgType ∉ bootstrapModes ∨ info.data = [] := by
      rw [← drainLoop_eq_none_iff env info]
      cases loop : drainLoop env info before.flow.currentMsgType with
      | none => exact .inl rfl
      | some iteration =>
          cases data : info.data with
          | nil => exact .inr rfl
          | cons byte bytes => exact absurd data (noLoop _ _ _ loop)
    rw [← Option.some.inj processed]
    exact handleSegment_keeps_text addresses ips (start message) before.toWorld safe

end Segments

/-! ## Runs -/

structure ConnectionData.PlainIps (connection : ConnectionData) : Prop where
  srcIp : Plain connection.srcIp
  dstIp : Plain connection.dstIp

def Event.PlainIps : Event → Prop
  | .connectionStart connection | .messageReady connection _ _ | .connectionEnd connection =>
      connection.PlainIps
  | _ => True

theorem ConnectionData.PlainIps.packet {connection : ConnectionData} (ips : connection.PlainIps)
    (side : Int) (data : List UInt8) : (connection.packet side data).PlainIps :=
  ⟨ips.srcIp, ips.dstIp⟩

namespace PacketHandler

/-- No segment that is handled is read as a frontier_req whose `start` has bytes that
are not plain. -/
def PlainStarts (handler : PacketHandler) : Event → Prop
  | .handleNext => ∀ info rest flow, handler.packetQueue = info :: rest →
      handler.connMgr info.flowKey = some flow → info.PlainStart flow
  | _ => True

structure QuerySafe (handler : PacketHandler) : Prop where
  db : handler.db.QuerySafe
  queue : ∀ info ∈ handler.packetQueue, info.PlainIps

theorem QuerySafe.opened {durable : Contents} (safe : ∀ row ∈ durable.rows, row.QuerySafe) :
    (PacketHandler.opened durable).QuerySafe :=
  ⟨.opened safe, fun _ member => absurd member List.not_mem_nil⟩

theorem QuerySafe.callDb {handler : PacketHandler} (safe : handler.QuerySafe) (env : Environment)
    {put : Put Unit} (every : put.Every Op.QuerySafe) : (handler.callDb env put).QuerySafe :=
  ⟨Put.run_querySafe env every ⟨handler.db, .initial⟩ safe.db, safe.queue⟩

end PacketHandler

section Runs

variable {env : Environment} (addresses : env.PlainAddresses)
include addresses

theorem Step.keeps_text {before after : PacketHandler} {event : Event} (ips : event.PlainIps)
    (starts : before.PlainStarts event) (step : Step env before event after)
    (safe : before.QuerySafe) : after.QuerySafe := by
  cases step with
  | connectionStart connection =>
      have stored := Put.run_querySafe env (putConnection_every (ips.packet 0 [])
        (by decide : Plain "open connection")) ⟨before.db, .initial⟩ safe.db
      unfold PacketHandler.connectionStart
      split
      · rename_i run
        rw [run] at stored
        exact ⟨stored, safe.queue⟩
      · rename_i run
        rw [run] at stored
        exact ⟨stored, safe.queue⟩
  | messageReady connection side data =>
      refine ⟨?_, fun info waits => ?_⟩
      · rw [PacketHandler.messageReady_db]
        exact safe.db
      · rw [PacketHandler.messageReady_packetQueue] at waits
        rcases List.mem_append.mp waits with waited | enqueued
        · exact safe.queue info waited
        · rw [Event.of_mem_enqueued enqueued]
          exact ConnectionData.PlainIps.packet ips side data
  | connectionEnd connection =>
      exact safe.callDb env
        (putConnection_every (ConnectionData.PlainIps.packet ips 0 []) (by decide))
  | @handleNext _ info rest queued handled =>
      obtain ⟨known, handles⟩ := handled
      have front : info ∈ before.packetQueue := queued ▸ List.mem_cons_self
      refine ⟨handles.keeps_text addresses (safe.queue info front)
        (starts info rest _ queued known) safe.db, fun other waits => ?_⟩
      exact safe.queue other (queued ▸ List.mem_cons_of_mem _ waits)
  | flush => exact safe.callDb env flush_every
  | destroyCaptureData => exact safe.callDb env destroyCaptureData_every
  | restart durable => exact .opened (safe.db.committed _ durable)

theorem Run.keeps_text {durable : Contents} {events : List Event} {after : PacketHandler}
    (safe : ∀ row ∈ durable.rows, row.QuerySafe) (ips : ∀ event ∈ events, event.PlainIps)
    (run : Run env (.opened durable) events after)
    (starts : (PacketHandler.opened durable).Always env events PacketHandler.PlainStarts) :
    after.db.QuerySafe := by
  have always : (PacketHandler.opened durable).Always env events fun handler event =>
      event.PlainIps ∧ handler.PlainStarts event := by
    intro first event rest middle split prior
    exact ⟨ips event (by rw [split]; simp), starts first event rest middle split prior⟩
  exact (run.keeps_always (fun meets step => step.keeps_text addresses meets.1 meets.2) always
    (PacketHandler.QuerySafe.opened safe)).db

end Runs

/-! ## Stored text -/

/-- Every text a member function inserts can be queried if and only if the request is no
frontier_req whose `start` has bytes that are not plain. In a capture without such
requests every query of a data table is answered in full and can be written. -/
theorem stored_text_querySafe_iff {env : Environment} (addresses : env.PlainAddresses) :
    (∀ info : NanoPacket, info.PlainIps → ∀ request : Request,
      (∀ (refuses : Nat → Bool) (world : World), world.QuerySafe →
        ∀ row ∈ (stateOf ((request.put env info).run (env.refusing refuses)
          world)).db.contents.rows, row.QuerySafe) ↔ request.QuerySafe) ∧
    ∀ (durable : Contents) (events : List Event) (after : PacketHandler),
      (∀ row ∈ durable.rows, row.QuerySafe) → (∀ event ∈ events, event.PlainIps) →
      Run env (.opened durable) events after →
      (PacketHandler.opened durable).Always env events PacketHandler.PlainStarts →
      (∀ row ∈ after.db.contents.rows, row.QuerySafe) ∧
        ∀ (maxQueryResult : Int) (stamp : Row → String) (select : Select),
          (∀ row, Plain (stamp row)) → select.Answers after.db.contents →
          select.AnsweredInFull maxQueryResult stamp := by
  refine ⟨fun info ips request => Request.rows_querySafe_iff addresses ips request, ?_⟩
  intro durable events after safe ips run starts
  have kept := run.keeps_text addresses safe ips starts
  refine ⟨kept.rows, fun maxQueryResult stamp select stamped answers => ?_⟩
  exact Select.answeredInFull (fun row found => kept.rows row (answers row found).1) stamped

/-- A frontier_req whose `start` repeats a byte. -/
def frontierReqBytes (byte : UInt8) : List UInt8 :=
  (MessageHeader.sample .frontierReq 0).wire ++ List.replicate 32 byte ++ List.replicate 8 0xFF

/-- The query of the column `start`. -/
def selectStart (contents : Contents) : Select where
  table := .frontierRequest
  columns := [("start", .start)]
  found := contents.rows.filter fun row => row.table = .frontierRequest

theorem selectStart_answers (contents : Contents) : (selectStart contents).Answers contents := by
  intro row found
  obtain ⟨stored, table⟩ := List.mem_filter.mp found
  exact ⟨stored, of_decide_eq_true table⟩

def Event.delivery (data : List UInt8) : List Event :=
  [.messageReady .sample 0 data, .handleNext]

theorem Event.delivery_plainIps (data : List UInt8) :
    ∀ event ∈ Event.delivery data, event.PlainIps := by
  intro event member
  rcases List.mem_cons.mp member with rfl | member
  · exact ⟨by decide, by decide⟩
  · rw [List.mem_singleton.mp member]
    trivial

private theorem Event.delivery_plainStarts {data : List UInt8}
    (start : ∀ nano stop, Nano.read (.ofBytes data) = .ok nano stop → nano.body.PlainStart) :
    (PacketHandler.opened .empty).Always .sample (Event.delivery data)
      PacketHandler.PlainStarts := by
  intro first event rest middle split prior
  match first with
  | [] =>
      cases split
      trivial
  | [_] =>
      cases split
      cases prior with
      | cons step others =>
      cases others
      cases step
      intro info rest flow queued known _ nano stop reads
      rw [PacketHandler.messageReady_packetQueue] at queued
      have front : info ∈ info :: rest := List.mem_cons_self
      rw [← queued] at front
      rcases List.mem_append.mp front with waited | enqueued
      · exact absurd waited List.not_mem_nil
      · rw [Event.of_mem_enqueued enqueued] at reads
        exact start nano stop reads
  | _ :: _ :: first =>
      have short := (List.cons.inj (List.cons.inj split).2).2
      cases first <;> cases short

theorem Environment.sample_plainAddresses : Environment.sample.PlainAddresses := fun _ => by
  exact (by decide : Plain "::1")

/-- The `start` is 32 times the character 1. -/
theorem stored_text_querySafe_ones :
    ∃ after, Run .sample (.opened .empty) (Event.delivery (frontierReqBytes 0x31)) after ∧
      (selectStart after.db.contents).found.length = 1 ∧
      (∀ row ∈ after.db.contents.rows, row.QuerySafe) ∧
      (selectStart after.db.contents).AnsweredInFull 5000 fun _ => "2020-02-29 15:04:05" := by
  have executed : ((PacketHandler.opened .empty).performAll .sample 20
      (Event.delivery (frontierReqBytes 0x31))).map
      (fun after => (selectStart after.db.contents).found.length) = some 1 := by decide +kernel
  obtain ⟨after, performs, one⟩ := Option.map_eq_some_iff.mp executed
  have run := Run.of_performAll performs
  have read : returnsWith (fun nano => decide nano.body.PlainStart)
      (Nano.read (.ofBytes (frontierReqBytes 0x31))) = true := by decide +kernel
  have start : ∀ nano stop, Nano.read (.ofBytes (frontierReqBytes 0x31)) = .ok nano stop →
      nano.body.PlainStart := by
    intro nano stop reads
    rw [reads] at read
    exact of_decide_eq_true read
  obtain ⟨rows, answered⟩ := (stored_text_querySafe_iff Environment.sample_plainAddresses).2
    .empty _ after (fun row member => absurd member List.not_mem_nil)
    (Event.delivery_plainIps _) run (Event.delivery_plainStarts start)
  exact ⟨after, run, one, rows, answered 5000 _ _ (fun _ => by decide) (selectStart_answers _)⟩

/-- A `start` of zeros, as in the request for all frontiers, is not answered at all. -/
theorem stored_text_not_querySafe :
    ¬∀ (env : Environment) (durable : Contents) (events : List Event) (after : PacketHandler)
      (maxQueryResult : Int) (stamp : Row → String) (select : Select), env.PlainAddresses →
      (∀ row ∈ durable.rows, row.QuerySafe) → (∀ event ∈ events, event.PlainIps) →
      Run env (.opened durable) events after → (∀ row, Plain (stamp row)) →
      select.Answers after.db.contents → select.AnsweredInFull maxQueryResult stamp := by
  intro always
  have executed : ((PacketHandler.opened .empty).performAll .sample 20
      (Event.delivery (frontierReqBytes 0))).map
      (fun after => (selectStart after.db.contents).found.map (·.get .start)) =
        some [.raw (List.replicate 32 0)] := by decide +kernel
  obtain ⟨after, performs, starts⟩ := Option.map_eq_some_iff.mp executed
  have answered := always .sample .empty _ after 5000 (fun _ => "2020-02-29 15:04:05")
    (selectStart after.db.contents) Environment.sample_plainAddresses
    (fun row member => absurd member List.not_mem_nil) (Event.delivery_plainIps _)
    (.of_performAll performs)
    (fun _ => by decide) (selectStart_answers _)
  obtain ⟨row, only, start⟩ := List.map_eq_singleton_iff.mp starts
  have stepped : row ∈ (selectStart after.db.contents).stepped 5000 := by
    rw [Select.stepped, only]
    exact List.mem_cons_self
  obtain ⟨free, -⟩ := Select.answeredInFull_iff.mp answered row stepped ("start", .start)
    List.mem_cons_self
  rw [start, Value.stored_raw] at free
  exact free (by decide)

end Nanocap
