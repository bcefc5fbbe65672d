import Nanocap.Database.SameRequests
import Nanocap.PacketHandler.Queueing

/-! # Connections beside each other

All flows share one database, one counter of ids and one set of prepared statements.
What is recorded for a flow is compared between runs in which the other flows, the
commits and the requests to destroy the data differ. -/

namespace Nanocap

/-! ## The events of a flow -/

inductive FlowEvent where
  | started (connection : ConnectionData)
  | ended (connection : ConnectionData)
  | segment (info : NanoPacket)
deriving DecidableEq

namespace PacketHandler

/-- What an event is to the flow of a key. -/
def tells (handler : PacketHandler) (key : UInt32) : Event → Option FlowEvent
  | .connectionStart connection =>
      if connection.flowKey = key then some (.started connection) else none
  | .connectionEnd connection =>
      if connection.flowKey = key then some (.ended connection) else none
  | .handleNext =>
      match handler.packetQueue with
      | [] => none
      | info :: _ => if info.flowKey = key then some (.segment info) else none
  | _ => none

def recordedSince (handler before : PacketHandler) : List RecordedRow :=
  before.db.bindings.recorded
    (handler.db.contents.rows.drop before.db.contents.rows.length)

end PacketHandler

/-- A run, with the history of one flow and the rows its events recorded. -/
inductive FlowRun (env : Environment) (key : UInt32) :
    PacketHandler → List Event → List FlowEvent → List RecordedRow → PacketHandler → Prop where
  | nil (handler : PacketHandler) : FlowRun env key handler [] [] [] handler
  | other {before middle after : PacketHandler} {event : Event} {events : List Event}
      {history : List FlowEvent} {rows : List RecordedRow} : Step env before event middle →
      before.tells key event = none → FlowRun env key middle events history rows after →
      FlowRun env key before (event :: events) history rows after
  | own {before middle after : PacketHandler} {event : Event} {events : List Event}
      {flowEvent : FlowEvent} {history : List FlowEvent} {rows : List RecordedRow} :
      Step env before event middle → before.tells key event = some flowEvent →
      FlowRun env key middle events history rows after →
      FlowRun env key before (event :: events) (flowEvent :: history)
        (middle.recordedSince before ++ rows) after

def PacketHandler.performFlow (env : Environment) (fuel : Nat) (key : UInt32) :
    PacketHandler → List Event → Option (List FlowEvent × List RecordedRow × PacketHandler)
  | handler, [] => some ([], [], handler)
  | handler, event :: events =>
      (handler.perform env fuel event).bind fun middle =>
        (middle.performFlow env fuel key events).map fun (history, rows, after) =>
          match handler.tells key event with
          | none => (history, rows, after)
          | some flowEvent => (flowEvent :: history, middle.recordedSince handler ++ rows, after)

theorem FlowRun.of_performFlow {env : Environment} {fuel : Nat} {key : UInt32}
    {before after : PacketHandler} {events : List Event} {history : List FlowEvent}
    {rows : List RecordedRow}
    (performs : before.performFlow env fuel key events = some (history, rows, after)) :
    FlowRun env key before events history rows after := by
  induction events generalizing before history rows with
  | nil =>
      cases performs
      exact .nil _
  | cons event events induction =>
      obtain ⟨middle, first, performs⟩ := Option.bind_eq_some_iff.mp performs
      obtain ⟨⟨_, _, _⟩, rest, result⟩ := Option.map_eq_some_iff.mp performs
      cases tells : before.tells key event with
      | none =>
          rw [tells] at result
          cases result
          exact .other (.of_perform first) tells (induction rest)
      | some flowEvent =>
          rw [tells] at result
          cases result
          exact .own (.of_perform first) tells (induction rest)

/-! ## What an event does to its flow -/

inductive FlowEvent.Does (env : Environment) : FlowEvent → World → World → Prop where
  | started (connection : ConnectionData) (world : World) :
      Does env (.started connection) world
        ((Request.connection "open connection").after env (connection.packet 0 [])
          ⟨world.db, .initial⟩)
  | ended (connection : ConnectionData) (world : World) :
      Does env (.ended connection) world
        ((Request.connection "close connection").after env (connection.packet 0 []) world)
  | segment {info : NanoPacket} {world : World} {fuel : Nat}
      {result : EStateM.Result Exception World Unit} :
      processSegment env fuel info world = some result →
      Does env (.segment info) world (stateOf result)

section Steps

variable {env : Environment} {key : UInt32}

theorem FlowEvent.Does.unique {flowEvent : FlowEvent} {world left right : World}
    (first : flowEvent.Does env world left) (second : flowEvent.Does env world right) :
    left = right := by
  cases first with
  | started connection | ended connection =>
      cases second
      rfl
  | segment processed =>
      cases second with
      | segment processed' => rw [processSegment_unique processed processed']

variable (neverFails : env.NeverFails) {before after : PacketHandler} {event : Event}
include neverFails

theorem Step.does (ready : before.db.Ready) (step : Step env before event after)
    {flowEvent : FlowEvent} (tells : before.tells key event = some flowEvent) :
    flowEvent.Does env ⟨before.db, before.flowOf key⟩ ⟨after.db, after.flowOf key⟩ := by
  cases step with
  | connectionStart connection =>
      obtain ⟨rfl, rfl⟩ : connection.flowKey = key ∧ .started connection = flowEvent := by
        simpa [PacketHandler.tells] using tells
      rw [PacketHandler.connectionStart_eq neverFails ready, PacketHandler.flowOf_setFlow,
        if_pos rfl]
      exact .started connection _
  | connectionEnd connection =>
      obtain ⟨rfl, rfl⟩ : connection.flowKey = key ∧ .ended connection = flowEvent := by
        simpa [PacketHandler.tells] using tells
      rw [PacketHandler.connectionEnd_eq neverFails ready]
      exact .ended connection _
  | @handleNext _ info rest queue handled =>
      obtain ⟨rfl, rfl⟩ : info.flowKey = key ∧ .segment info = flowEvent := by
        simpa [PacketHandler.tells, queue] using tells
      cases handled with
      | @mk flow handler known handles =>
          have own : before.flowOf info.flowKey = flow := by
            rw [PacketHandler.flowOf, show before.connMgr info.flowKey = some flow from known]
            rfl
          obtain ⟨fuel, result, processed, rfl⟩ := (handles_iff _ _).mp handles
          have does := FlowEvent.Does.segment processed
          rw [← Handler.settle_toWorld] at does
          rw [own, PacketHandler.flowOf_update, if_pos rfl]
          exact does
  | messageReady | flush | destroyCaptureData | restart => cases tells

theorem Step.other (noRestart : event ≠ .restart) (ready : before.db.Ready)
    (step : Step env before event after) (untold : before.tells key event = none) :
    before.db.nextId ≤ after.db.nextId ∧ after.flowOf key = before.flowOf key := by
  constructor
  · refine @Step.keeps env (fun db => before.db.nextId ≤ db.nextId)
      (fun _ _ _ db _ _ bound => ?_) neverFails before after event
      (fun _ bound => bound) (fun _ bound => ?_) (fun restart => absurd restart noRestart)
      step ready (Nat.le_refl _)
    · rw [Db.store_nextId]
      exact Nat.le_add_right_of_le bound
    · exact Nat.le_trans bound (Nat.le_of_eq (Db.destroyed_nextId _).symm)
  · cases step with
    | connectionStart connection =>
        have different : key ≠ connection.flowKey := by
          rintro rfl
          simp [PacketHandler.tells] at untold
        rw [PacketHandler.connectionStart_eq neverFails ready, PacketHandler.flowOf_setFlow,
          if_neg different]
        rfl
    | connectionEnd connection =>
        rw [PacketHandler.connectionEnd_eq neverFails ready]
        rfl
    | messageReady connection side data => exact PacketHandler.messageReady_flowOf ..
    | @handleNext _ info rest queue handled =>
        obtain ⟨known, handles⟩ := handled
        have different : key ≠ info.flowKey := by
          rintro rfl
          simp [PacketHandler.tells, queue] at untold
        rw [PacketHandler.flowOf_update, if_neg different]
        rfl
    | flush | destroyCaptureData => rfl
    | restart durable => exact absurd rfl noRestart

end Steps

/-! ## Two runs with one history -/

structure World.SameRequests (start start' : Db) (same : IdMatch) (left right : World) :
    Prop where
  db : Db.SameRequests start start' same left.db right.db
  flow : TcpFlowData.Alike same left.flow right.flow
  zero : same 0 0

section SameRequests

variable {env : Environment} {start start' : Db} {same : IdMatch}

theorem World.SameRequests.after (request : Request) (info : NanoPacket) {left right : World}
    (alike : World.SameRequests start start' same left right) :
    ∃ more, same ≤ more ∧ World.SameRequests start start' more
      (request.after env info left) (request.after env info right) := by
  let plan := request.plan env info left.db.nextId left.flow
  let more := same.extend left.db.nextId right.db.nextId plan.ids
  have grows : same ≤ more := same.le_extend _ _ _
  have flows := alike.flow.mono grows
  have ids : ∀ drawn < plan.ids, more (left.db.nextId + drawn) (right.db.nextId + drawn) :=
    fun drawn below => same.extend_drawn _ _ below
  exact ⟨more, grows, alike.db.store (request.plan_alike flows ids)
    (request.bindsTheRest _ _), request.flowAfter_alike flows ids, grows 0 0 alike.zero⟩

def World.sameRequestsRelation (env : Environment) (start start' : Db) :
    WorldRelation env where
  related := World.SameRequests start start'
  readyLeft alike := alike.db.readyLeft
  readyRight alike := alike.db.readyRight
  flow alike := alike.flow
  zero alike := alike.zero
  withFlow alike _ _ flows := ⟨alike.db, flows, alike.zero⟩
  after request info _ _ _ alike := alike.after request info

theorem FlowEvent.Does.relates (neverFails : env.NeverFails) {flowEvent : FlowEvent}
    {left right leftAfter rightAfter : World}
    (alike : World.SameRequests start start' same left right)
    (first : flowEvent.Does env left leftAfter) (second : flowEvent.Does env right rightAfter) :
    ∃ more, same ≤ more ∧ World.SameRequests start start' more leftAfter rightAfter := by
  cases first with
  | started connection =>
      cases second
      exact World.SameRequests.after _ _
        ⟨alike.db, TcpFlowData.alike_reset alike.zero .invalid, alike.zero⟩
  | ended connection =>
      cases second
      exact alike.after _ _
  | segment processed =>
      cases second with
      | segment processed' =>
          obtain ⟨result, more, grows, again, alike⟩ := processSegment_relates_states neverFails
            (World.sameRequestsRelation env start start') alike processed
          rw [processSegment_unique processed' again]
          exact ⟨more, grows, alike⟩

end SameRequests

/-- Two handlers, at points of their runs where the flow has the same history. -/
structure SameFlow (key : UInt32) (same : IdMatch) (left right : PacketHandler) : Prop where
  readyLeft : left.db.Ready
  readyRight : right.db.Ready
  oneToOne : same.OneToOne
  bounded : same.Bounded left.db.nextId right.db.nextId
  flow : TcpFlowData.Alike same (left.flowOf key) (right.flowOf key)
  zero : same 0 0

section SameFlow

variable {env : Environment} (neverFails : env.NeverFails) {key : UInt32} {same : IdMatch}
  {left right leftAfter rightAfter : PacketHandler} {event event' : Event}
include neverFails

theorem SameFlow.own (alike : SameFlow key same left right) {flowEvent : FlowEvent}
    (first : Step env left event leftAfter) (tells : left.tells key event = some flowEvent)
    (second : Step env right event' rightAfter)
    (tells' : right.tells key event' = some flowEvent) :
    ∃ more, same ≤ more ∧ SameFlow key more leftAfter rightAfter ∧
      List.Forall₂ (RecordedRow.SameRequest more) (leftAfter.recordedSince left)
        (rightAfter.recordedSince right) := by
  have start : World.SameRequests left.db right.db same
      ⟨left.db, left.flowOf key⟩ ⟨right.db, right.flowOf key⟩ :=
    ⟨⟨alike.readyLeft, alike.readyRight, alike.oneToOne, alike.bounded,
      Bindings.alikeSince_refl _ _ _, [], [], (List.append_nil _).symm, (List.append_nil _).symm,
      .nil⟩, alike.flow, alike.zero⟩
  obtain ⟨more, grows, alike⟩ := FlowEvent.Does.relates neverFails start
    (first.does neverFails alike.readyLeft tells)
    (second.does neverFails alike.readyRight tells')
  obtain ⟨newLeft, newRight, rowsLeft, rowsRight, rows⟩ := alike.db.rows
  refine ⟨more, grows, ⟨alike.db.readyLeft, alike.db.readyRight, alike.db.oneToOne,
    alike.db.bounded, alike.flow, alike.zero⟩, ?_⟩
  rw [PacketHandler.recordedSince, PacketHandler.recordedSince]
  dsimp only at rowsLeft rowsRight
  rw [rowsLeft, rowsRight, List.drop_left, List.drop_left]
  exact rows

private theorem SameFlow.otherLeft (alike : SameFlow key same left right)
    (noRestart : event ≠ .restart) (step : Step env left event leftAfter)
    (untold : left.tells key event = none) :
    SameFlow key same leftAfter right := by
  obtain ⟨nextId, flow⟩ := step.other neverFails noRestart alike.readyLeft untold
  exact ⟨step.ready neverFails alike.readyLeft, alike.readyRight, alike.oneToOne,
    alike.bounded.mono nextId (Nat.le_refl _), flow ▸ alike.flow, alike.zero⟩

private theorem SameFlow.otherRight (alike : SameFlow key same left right)
    (noRestart : event ≠ .restart) (step : Step env right event rightAfter)
    (untold : right.tells key event = none) :
    SameFlow key same left rightAfter := by
  obtain ⟨nextId, flow⟩ := step.other neverFails noRestart alike.readyRight untold
  exact ⟨alike.readyLeft, step.ready neverFails alike.readyRight, alike.oneToOne,
    alike.bounded.mono (Nat.le_refl _) nextId, flow ▸ alike.flow, alike.zero⟩

/-- The right run goes on until the next event of the flow, or to its end. -/
theorem SameFlow.skip (alike : SameFlow key same left right) {events : List Event}
    {history : List FlowEvent} {rows : List RecordedRow}
    (run : FlowRun env key right events history rows rightAfter) (noRestart : .restart ∉ events) :
    (history = [] ∧ rows = [] ∧ SameFlow key same left rightAfter) ∨
      ∃ before event middle rest flowEvent later more,
        SameFlow key same left before ∧ Step env before event middle ∧
          before.tells key event = some flowEvent ∧ .restart ∉ rest ∧
          FlowRun env key middle rest later more rightAfter ∧
          history = flowEvent :: later ∧ rows = middle.recordedSince before ++ more := by
  induction run with
  | nil handler => exact .inl ⟨rfl, rfl, alike⟩
  | other step untold _ induction =>
      simp only [List.mem_cons, not_or] at noRestart
      exact induction (alike.otherRight neverFails (Ne.symm noRestart.1) step untold) noRestart.2
  | own step tells run _ =>
      simp only [List.mem_cons, not_or] at noRestart
      exact .inr ⟨_, _, _, _, _, _, _, alike, step, tells, noRestart.2, run, rfl, rfl⟩

theorem SameFlow.run (alike : SameFlow key same left right) {events events' : List Event}
    {history : List FlowEvent} {rows rows' : List RecordedRow}
    (first : FlowRun env key left events history rows leftAfter)
    (second : FlowRun env key right events' history rows' rightAfter)
    (noRestart : .restart ∉ events) (noRestart' : .restart ∉ events') :
    ∃ more, same ≤ more ∧ SameFlow key more leftAfter rightAfter ∧
      List.Forall₂ (RecordedRow.SameRequest more) rows rows' := by
  induction first generalizing same right events' rows' with
  | nil handler =>
      rcases alike.skip neverFails second noRestart' with ⟨-, rfl, alike⟩ | skipped
      · exact ⟨same, le_refl same, alike, .nil⟩
      · obtain ⟨_, _, _, _, _, _, _, -, -, -, -, -, history, -⟩ := skipped
        cases history
  | other step untold _ induction =>
      simp only [List.mem_cons, not_or] at noRestart
      exact induction (alike.otherLeft neverFails (Ne.symm noRestart.1) step untold) second
        noRestart.2 noRestart'
  | own step tells _ induction =>
      simp only [List.mem_cons, not_or] at noRestart
      rcases alike.skip neverFails second noRestart' with ⟨history, -⟩ | skipped
      · cases history
      · obtain ⟨_, _, _, _, _, _, _, alike, step', tells', noRestart', second, history, rfl⟩ :=
          skipped
        cases history
        obtain ⟨more, grows, alike, added⟩ := alike.own neverFails step tells step' tells'
        obtain ⟨last, later, alike, rows⟩ := induction alike second noRestart.2 noRestart'
        exact ⟨last, grows.trans later, alike,
          List.rel_append (added.imp fun _ _ row => row.mono later) rows⟩

end SameFlow

/-- In runs in which a flow sees the same connections and segments, the same is recorded
for it up to ids, but for columns of votes and of account entries that a call does not
bind: they hold what an earlier call, of any flow, has bound. -/
theorem flow_isolated {env : Environment} (neverFails : env.NeverFails) {key : UInt32}
    {durable durable' : Contents} {events events' : List Event} {history : List FlowEvent}
    {rows rows' : List RecordedRow} {after after' : PacketHandler}
    (first : FlowRun env key (.opened durable) events history rows after)
    (second : FlowRun env key (.opened durable') events' history rows' after')
    (noRestart : .restart ∉ events) (noRestart' : .restart ∉ events') :
    ∃ same : IdMatch, same.OneToOne ∧ List.Forall₂ (RecordedRow.SameRequest same) rows rows' ∧
      TcpFlowData.Alike same (after.flowOf key) (after'.flowOf key) := by
  have start : SameFlow key (fun a b => a = 0 ∧ b = 0) (.opened durable) (.opened durable') := by
    refine ⟨Db.opened_ready durable, Db.opened_ready durable', ?_, ?_,
      TcpFlowData.alike_reset ⟨rfl, rfl⟩ .invalid, rfl, rfl⟩
    · rintro _ _ _ _ ⟨rfl, rfl⟩ ⟨rfl, rfl⟩
      simp
    · rintro _ _ ⟨rfl, rfl⟩
      exact ⟨Db.opened_nextId_pos durable, Db.opened_nextId_pos durable'⟩
  obtain ⟨same, -, alike, rows⟩ := start.run neverFails first second noRestart noRestart'
  exact ⟨same, alike.oneToOne, rows, alike.flow⟩

/-- Another connection delivers a segment in between, and the data are destroyed. -/
theorem flow_isolated_beside :
    ∃ rows rows' after after',
      FlowRun .sample 1 (.opened .empty)
        [.connectionStart .sample, .messageReady .sample 0 pushBytes, .handleNext,
          .messageReady .sample 0 telemetryBytes, .handleNext]
        [.started .sample, .segment (ConnectionData.sample.packet 0 pushBytes),
          .segment (ConnectionData.sample.packet 0 telemetryBytes)] rows after ∧
      FlowRun .sample 1 (.opened .empty)
        [.messageReady { ConnectionData.sample with flowKey := 2 } 0 telemetryBytes,
          .connectionStart .sample, .messageReady .sample 0 pushBytes, .handleNext,
          .handleNext, .destroyCaptureData, .messageReady .sample 0 telemetryBytes, .handleNext]
        [.started .sample, .segment (ConnectionData.sample.packet 0 pushBytes),
          .segment (ConnectionData.sample.packet 0 telemetryBytes)] rows' after' ∧
      ∃ same : IdMatch, same.OneToOne ∧ List.Forall₂ (RecordedRow.SameRequest same) rows rows' ∧
        TcpFlowData.Alike same (after.flowOf 1) (after'.flowOf 1) := by
  have alone : ((PacketHandler.opened .empty).performFlow .sample 20 1
      [.connectionStart .sample, .messageReady .sample 0 pushBytes, .handleNext,
        .messageReady .sample 0 telemetryBytes, .handleNext]).map Prod.fst =
      some [.started .sample, .segment (ConnectionData.sample.packet 0 pushBytes),
        .segment (ConnectionData.sample.packet 0 telemetryBytes)] := by decide +kernel
  have beside : ((PacketHandler.opened .empty).performFlow .sample 20 1
      [.messageReady { ConnectionData.sample with flowKey := 2 } 0 telemetryBytes,
        .connectionStart .sample, .messageReady .sample 0 pushBytes, .handleNext,
        .handleNext, .destroyCaptureData, .messageReady .sample 0 telemetryBytes,
        .handleNext]).map Prod.fst =
      some [.started .sample, .segment (ConnectionData.sample.packet 0 pushBytes),
        .segment (ConnectionData.sample.packet 0 telemetryBytes)] := by decide +kernel
  obtain ⟨⟨history, rows, after⟩, performs, told⟩ := Option.map_eq_some_iff.mp alone
  obtain ⟨⟨history', rows', after'⟩, performs', told'⟩ := Option.map_eq_some_iff.mp beside
  obtain rfl : history = _ := told
  obtain rfl : history' = _ := told'
  have first := FlowRun.of_performFlow performs
  have second := FlowRun.of_performFlow performs'
  exact ⟨rows, rows', after, after', first, second,
    flow_isolated Environment.sample_neverFails first second (by simp) (by simp)⟩

end Nanocap
