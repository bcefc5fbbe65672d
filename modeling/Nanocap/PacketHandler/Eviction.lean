import Nanocap.PacketHandler.Queueing

/-! # Bytes evicted before they are parsed

Between two segments the buffer of a bootstrap stream holds the beginning of an entry. -/

namespace Nanocap

open Loop (Control)

/-! ## Held bytes -/

/-- No entry can be read from the bytes the buffer holds. -/
def TcpFlowData.Unparsed (flow : TcpFlowData) : Prop :=
  match flow.currentMsgType with
  | .frontierReq => Unreadable FrontierEntry.read flow.accumulatedData.toList
  | .bulkPull => Unreadable BulkPullEntry.read flow.accumulatedData.toList
  | .bulkPush => Unreadable BulkPushEntry.read flow.accumulatedData.toList
  | .bulkPullAccount =>
      if flow.step = 0 then Unreadable FrontierBalanceEntry.read flow.accumulatedData.toList
      else Unreadable (BulkPullAccountEntry.read flow.requestFlags) flow.accumulatedData.toList
  | _ => True

theorem TcpFlowData.Unparsed.of_empty {flow : TcpFlowData}
    (empty : flow.accumulatedData.toList = []) : flow.Unparsed := by
  have positive := BulkPullAccountEntry.size_pos flow.requestFlags
  unfold TcpFlowData.Unparsed
  rw [empty]
  split
  · exact FrontierEntry.codec.unreadable (by decide)
  · exact ⟨_, _, rfl⟩
  · exact ⟨_, _, rfl⟩
  · split
    · exact FrontierBalanceEntry.codec.unreadable (by decide)
    · exact (BulkPullAccountEntry.codec _).unreadable positive
  · trivial

theorem TcpFlowData.Unparsed.initial : TcpFlowData.initial.Unparsed := .of_empty rfl

def readLength {α : Type} (reader : Reader α) (bytes : List UInt8) : Nat :=
  match reader (.ofBytes bytes) with
  | .ok _ stop => stop.position
  | .error _ _ => 0

theorem Unreadable.readLength_eq {α : Type} {reader : Reader α} {bytes : List UInt8}
    (unreadable : Unreadable reader bytes) : readLength reader bytes = 0 := by
  obtain ⟨exception, stop, raises⟩ := unreadable
  rw [readLength, raises]

/-- How many of the bytes the buffer holds have been read as an entry. They are
held further only where storing the entry fails. -/
def TcpFlowData.parsed (flow : TcpFlowData) : Nat :=
  match flow.currentMsgType with
  | .frontierReq => readLength FrontierEntry.read flow.accumulatedData.toList
  | .bulkPull => readLength BulkPullEntry.read flow.accumulatedData.toList
  | .bulkPush => readLength BulkPushEntry.read flow.accumulatedData.toList
  | .bulkPullAccount =>
      if flow.step = 0 then readLength FrontierBalanceEntry.read flow.accumulatedData.toList
      else readLength (BulkPullAccountEntry.read flow.requestFlags) flow.accumulatedData.toList
  | _ => 0

theorem TcpFlowData.Unparsed.parsed_eq {flow : TcpFlowData} (unparsed : flow.Unparsed) :
    flow.parsed = 0 := by
  unfold TcpFlowData.parsed
  unfold TcpFlowData.Unparsed at unparsed
  split at unparsed
  · exact unparsed.readLength_eq
  · exact unparsed.readLength_eq
  · exact unparsed.readLength_eq
  · split at unparsed
    · rename_i zero
      rw [if_pos zero]
      exact unparsed.readLength_eq
    · rename_i one
      rw [if_neg one]
      exact unparsed.readLength_eq
  · rfl

/-- The bytes that are overwritten unparsed while a segment is appended. -/
def TcpFlowData.evicted (flow : TcpFlowData) (data : List UInt8) : List UInt8 :=
  (flow.accumulatedData.overwritten data).drop flow.parsed

/-! ## The end of a drain loop -/

def EndsIn (final : World → Prop) : EStateM.Result Exception World Control → Prop
  | .ok .again _ => True
  | .ok .leave after => final after
  | .error _ after => final after

section Iterations

variable {env : Environment} {info : NanoPacket} {world : World} (neverFails : env.NeverFails)
  (ready : world.db.Ready)
include neverFails ready

private theorem frontierIteration_ends (mode : world.flow.currentMsgType = .frontierReq) :
    EndsIn (·.flow.Unparsed) (frontierIteration env info world) := by
  by_cases short : world.flow.accumulatedData.toList.length < 64
  · rw [frontierIteration_short env info short]
    change world.flow.Unparsed
    rw [TcpFlowData.Unparsed, mode]
    exact FrontierEntry.codec.unreadable short
  obtain ⟨entry, rest, -, bytes⟩ := FrontierEntry.codec.split (Nat.le_of_not_lt short)
  rw [frontierIteration_entry env info bytes]
  by_cases zero : allZero entry.account.val
  · have ended := @endResponse_eq env info world neverFails ready endOfFrontierReq
    have result : frontierRest env info entry ⟨64, []⟩ world =
        .ok .leave (reported env info (endOfFrontierReq world.flow) world) := by
      rw [frontierRest, if_pos zero]
      exact EStateM.bind_of_ok ended
    rw [catchRuntimeError_of_ok result]
    exact TcpFlowData.Unparsed.initial
  · have taken := @consumeEntry_eq env info world neverFails ready (.frontierEntry entry) ⟨64, []⟩
    rw [frontierRest, if_neg zero, catchRuntimeError_of_ok (by exact taken)]
    trivial

theorem bulkIteration_ends {Entry : Type} {name : String}
    {build : UInt8 → BlockSelector → Entry} {request : Entry → Request}
    (unparsed : Unreadable (readBulkEntry build) world.flow.accumulatedData.toList →
      world.flow.Unparsed) :
    EndsIn (·.flow.Unparsed) (bulkIteration env info name (readBulkEntry build)
      (fun entry => (request entry).put env info) world) := by
  cases bytes : world.flow.accumulatedData.toList with
  | nil =>
      rw [bulkIteration_empty env info name build _ bytes]
      exact .of_empty bytes
  | cons first rest =>
      rw [bulkIteration_cons env info name build _ bytes]
      split
      · have ended := @endResponse_eq env info world neverFails ready (endOfBulk name)
        rw [EStateM.bind_of_ok ended]
        exact TcpFlowData.Unparsed.initial
      · cases read : readBulkEntry build (.ofBytes (first :: rest)) with
        | error exception stop =>
            have raises : (do
                let parsed ← construct (readBulkEntry build) (.ofBytes (first :: rest))
                bulkRest env (fun entry => (request entry).put env info) parsed.1 parsed.2)
                  world = .error exception world :=
              EStateM.bind_of_error (construct_of_error read)
            have held : world.flow.Unparsed := unparsed ⟨exception, stop, by rw [bytes, read]⟩
            rw [catchRuntimeError, raises]
            cases exception <;> exact held
        | ok entry stop =>
            have taken := @consumeEntry_eq env info world neverFails ready (request entry) stop
            have body : (do
                let parsed ← construct (readBulkEntry build) (.ofBytes (first :: rest))
                bulkRest env (fun entry => (request entry).put env info) parsed.1 parsed.2)
                  world = _ := (EStateM.bind_of_ok (construct_of_ok read)).trans taken
            rw [catchRuntimeError_of_ok body]
            trivial

theorem accountEntry_ends_unparsed {stream : KStream}
    (unparsed : stream.rest.length < BulkPullAccountEntry.size world.flow.requestFlags →
      world.flow.Unparsed) :
    EndsIn (·.flow.Unparsed) (catchRuntimeError (do
      accountEntry env info stream
      return .again) (pure .leave) world) := by
  rcases (BulkPullAccountEntry.codec world.flow.requestFlags).cases stream with
    ⟨short, stopped, raises⟩ | ⟨entry, rest, layout, bytes, reads⟩
  · have failed := accountEntry_of_error env info raises
    rw [catchRuntimeError_of_error (EStateM.bind_of_error failed)]
    exact unparsed short
  · have returned : ∃ after, accountEntry env info stream world = .ok () after := by
      rw [accountEntry_of_ok env info reads]
      unfold accountEntryRest
      split
      · exact ⟨_, endResponse_eq neverFails ready _⟩
      · have put := @whenBootstrapDetails_eq env info world neverFails ready
          (.bulkPullAccountEntry entry)
        exact ⟨_, EStateM.bind_of_ok (by exact put)⟩
    obtain ⟨after, returned⟩ := returned
    have body : (do
        accountEntry env info stream
        return Control.again) world = .ok .again after := EStateM.bind_of_ok returned
    rw [catchRuntimeError_of_ok body]
    trivial

private theorem accountIteration_ends (mode : world.flow.currentMsgType = .bulkPullAccount) :
    EndsIn (·.flow.Unparsed) (accountIteration env info world) := by
  by_cases some : world.flow.accumulatedData.toList = []
  · rw [accountIteration_empty env info some]
    exact .of_empty some
  by_cases one : world.flow.step = 1
  · rw [accountIteration_step_one env info one some]
    refine accountEntry_ends_unparsed neverFails ready fun short => ?_
    rw [TcpFlowData.Unparsed, mode]
    dsimp only
    rw [if_neg (by omega)]
    exact (BulkPullAccountEntry.codec _).unreadable short
  by_cases zero : world.flow.step = 0
  · by_cases short : world.flow.accumulatedData.toList.length < 48
    · rw [accountIteration_short env info zero some short]
      change world.flow.Unparsed
      rw [TcpFlowData.Unparsed, mode]
      dsimp only
      rw [if_pos zero]
      exact FrontierBalanceEntry.codec.unreadable short
    obtain ⟨record, rest, -, bytes⟩ :=
      FrontierBalanceEntry.codec.split (Nat.le_of_not_lt short)
    have put := @whenBootstrapDetails_eq env info world neverFails ready
      (.frontierBalanceEntry record)
    let stored := (Request.frontierBalanceEntry record).afterDetails env info world
    have kept := whenBootstrapDetails_of_ok env put
    have readyStored : stored.db.Ready := Request.ready_afterDetails ready _
    rw [accountIteration_step_zero env info zero bytes]
    have consumed : modifyFlow consumeHeader stored =
        .ok () { stored with flow := consumeHeader stored.flow } := rfl
    have ends := @accountEntry_ends_unparsed env info
      { stored with flow := consumeHeader stored.flow } neverFails readyStored
      (memoryBehindHeader (record.wire ++ rest)) (by
        intro short
        rw [length_memoryBehindHeader] at short
        have current : stored.flow.currentMsgType = .bulkPullAccount :=
          kept.currentMsgType.trans mode
        have held : stored.flow.accumulatedData.toList = record.wire ++ rest := by
          rw [← bytes, ← kept.accumulatedData]
        rw [TcpFlowData.Unparsed, consumeHeader]
        dsimp only
        rw [current]
        dsimp only
        rw [if_neg (Nat.succ_ne_zero _), CircularBuffer.toList_eraseFront, held]
        refine (BulkPullAccountEntry.codec _).unreadable ?_
        rwa [List.length_drop])
    have stores : whenBootstrapDetails env (putFrontierBalanceEntry record) world =
        .ok () stored := put
    exact Eq.mpr (congrArg (EndsIn _) (catchRuntimeError_congr
      ((EStateM.bind_of_ok stores).trans (EStateM.bind_of_ok consumed)))) ends
  · have flow : getFlow world = .ok world.flow world := rfl
    have body : accountBody env info world.flow.accumulatedData.toList world =
        .ok .again world := by
      simp only [accountBody, EStateM.bind_of_ok flow, if_neg zero, if_neg one, pure_bind]
      rfl
    rw [accountIteration_apply, if_neg some, catchRuntimeError_of_ok body]
    trivial

private theorem drainLoop_ends {iteration : Action Control}
    (loop : drainLoop env info world.flow.currentMsgType = some iteration) :
    EndsIn (·.flow.Unparsed) (iteration world) := by
  unfold drainLoop at loop
  split at loop <;> cases loop
  · rename_i mode
    exact frontierIteration_ends neverFails ready mode
  · rename_i mode
    refine @bulkIteration_ends env info world neverFails ready _ "bulk_pull" BulkPullEntry.mk
      Request.bulkPullEntry fun unreadable => ?_
    rw [TcpFlowData.Unparsed, mode]
    exact unreadable
  · rename_i mode
    refine @bulkIteration_ends env info world neverFails ready _ "bulk_push" BulkPushEntry.mk
      Request.bulkPushEntry fun unreadable => ?_
    rw [TcpFlowData.Unparsed, mode]
    exact unreadable
  · rename_i mode
    exact accountIteration_ends neverFails ready mode

end Iterations

/-! ## Runs -/

def PacketHandler.Unparsed (handler : PacketHandler) : Prop :=
  ∀ key flow, handler.connMgr key = some flow → flow.Unparsed

private theorem Nano.handling_step {nano : Nano} {handling : Handling}
    (handled : nano.handling = some handling) : handling.flow.step = 0 := by
  obtain ⟨⟨_, _, _, _, messageType, _⟩, body⟩ := nano
  cases messageType <;> cases body <;> cases handled <;> rfl

theorem Nano.after_flow {env : Environment} {info : NanoPacket} (nano : Nano) (db : Db) :
    (nano.after env info db).flow.accumulatedData.toList = [] ∧
      (nano.after env info db).flow.step = 0 := by
  unfold Nano.after
  cases handled : nano.handling with
  | none => exact ⟨rfl, rfl⟩
  | some handling =>
      obtain ⟨-, -, empty, -⟩ := Nano.handling_request handled
      obtain ⟨flow, -⟩ := @Handling.announced_spec env info handling db
      have rewritten := @Request.flowAfter_rewritten env handling.request
        (handling.announced env info db).db.nextId (handling.announced env info db).flow
      change (handling.request.flowAfter env _ _).accumulatedData.toList = [] ∧
        (handling.request.flowAfter env _ _).step = 0
      rw [rewritten.accumulatedData, rewritten.step, flow, empty]
      exact ⟨rfl, Nano.handling_step handled⟩

section Runs

variable {env : Environment} (neverFails : env.NeverFails)
include neverFails

private theorem drainLoop_unparsed {info : NanoPacket} {world : World} {iteration : Action Control}
    (loop : drainLoop env info world.flow.currentMsgType = some iteration)
    (ready : world.db.Ready) {result : EStateM.Result Exception World Unit}
    (returns : Loop.Returns iteration world result) : (stateOf result).flow.Unparsed := by
  obtain ⟨drains, nothing⟩ := drainLoop_drains neverFails loop
  -- the loop stays in its mode, or has reset the flow
  let valid (state : World) : Prop := state.db.Ready ∧
    (state.flow.currentMsgType = world.flow.currentMsgType ∨ state.flow = .initial)
  have ends : ∀ state, valid state → EndsIn (·.flow.Unparsed) (iteration state) := by
    rintro state ⟨readyState, same | reset⟩
    · exact drainLoop_ends neverFails readyState (by rw [same]; exact loop)
    · rw [nothing state (by rw [reset]; rfl)]
      exact .of_empty (by rw [reset]; rfl)
  refine Loop.Returns.preserves valid (fun result => (stateOf result).flow.Unparsed)
    (fun state next holds again => ?_) (fun state next holds leave => ?_)
    (fun state next exception holds error => ?_) returns ⟨ready, .inl rfl⟩
  · obtain ⟨readyState, same | reset⟩ := holds
    · have effects := drains state readyState same
      rw [again] at effects
      exact ⟨effects.ready readyState, effects.mode.imp_left fun kept => kept.trans same⟩
    · rw [nothing state (by rw [reset]; rfl)] at again
      cases again
  · have final := ends state holds
    rwa [leave] at final
  · have final := ends state holds
    rwa [error] at final

theorem Handles.unparsed {info : NanoPacket} {before after : Handler}
    (handles : Handles env info before after) (ready : before.db.Ready)
    (unparsed : before.flow.Unparsed) : after.flow.Unparsed := by
  rcases handles.cases neverFails ready with
    ⟨iteration, result, loop, returns, left⟩ | ⟨nano, stop, message, reads, left⟩ | left
  · rw [left]
    exact @drainLoop_unparsed env neverFails info (accumulate info before.toWorld) iteration
      loop ready result returns
  · rw [left]
    exact .of_empty (nano.after_flow before.db).1
  · rw [left]
    exact unparsed

theorem Step.unparsed {before after : PacketHandler} {event : Event}
    (step : Step env before event after) (ready : before.db.Ready) (unparsed : before.Unparsed) :
    after.Unparsed :=
  Step.everyFlow (fun handles => handles.unparsed neverFails) neverFails .initial step ready
    unparsed

theorem Run.unparsed {before after : PacketHandler} {events : List Event}
    (run : Run env before events after) (ready : before.db.Ready) (unparsed : before.Unparsed) :
    after.Unparsed := by
  induction run with
  | nil handler => exact unparsed
  | cons step _ induction =>
      exact induction (step.ready neverFails ready) (step.unparsed neverFails ready unparsed)

/-- Between two segments the buffers hold no byte that has been parsed. -/
theorem Run.parsed_eq {durable : Contents} {events : List Event} {handler : PacketHandler}
    (run : Run env (.opened durable) events handler) {key : UInt32} {flow : TcpFlowData}
    (known : handler.connMgr key = some flow) : flow.parsed = 0 := by
  have initially : (PacketHandler.opened durable).Unparsed := by
    intro other found held
    cases held
  exact (run.unparsed neverFails (Db.opened_ready durable) initially key flow known).parsed_eq

end Runs

theorem TcpFlowData.evicted_eq_nil_iff (flow : TcpFlowData) (data : List UInt8) :
    flow.evicted data = [] ↔ flow.accumulatedData.size + data.length ≤ 4096 + flow.parsed := by
  rw [evicted, CircularBuffer.overwritten_eq (by decide), ← List.length_eq_zero_iff,
    List.length_drop, List.length_take, List.length_append, CircularBuffer.size]
  omega

/-- Appending a segment evicts no unparsed byte exactly when the unparsed bytes of
the flow and the segment fit the buffer. In a run without failing statements all
bytes a flow holds are unparsed. -/
theorem nothing_evicted_iff {env : Environment} {durable : Contents} {events : List Event}
    {handler : PacketHandler} (run : Run env (.opened durable) events handler) {key : UInt32}
    {flow : TcpFlowData} (known : handler.connMgr key = some flow) (data : List UInt8) :
    (flow.evicted data = [] ↔
        flow.accumulatedData.size + data.length ≤ 4096 + flow.parsed) ∧
      (env.NeverFails → flow.parsed = 0) :=
  ⟨flow.evicted_eq_nil_iff data, fun neverFails => run.parsed_eq neverFails known⟩

/-- Behind an entry of a bulk_push, the type and two bytes of the next block wait. -/
theorem nothing_evicted_push :
    let events : List Event := [.connectionStart .sample, .messageReady .sample 0 pushBytes,
      .handleNext, .messageReady .sample 0 (5 :: List.replicate 136 0 ++ [3, 0, 0]), .handleNext]
    ∃ handler flow, Run .sample (.opened .empty) events handler ∧
      handler.connMgr 1 = some flow ∧ flow.currentMsgType = .bulkPush ∧
      flow.accumulatedData.size = 3 ∧ ∀ data, flow.evicted data = [] ↔ data.length ≤ 4093 := by
  intro events
  have executed : ((PacketHandler.opened .empty).performAll .sample 20 events).bind
      (fun handler => (handler.connMgr 1).map fun flow =>
        (flow.currentMsgType, flow.accumulatedData.size)) = some (.bulkPush, 3) := by
    decide +kernel
  obtain ⟨handler, performs, known⟩ := Option.bind_eq_some_iff.mp executed
  obtain ⟨flow, known, fields⟩ := Option.map_eq_some_iff.mp known
  obtain ⟨mode, residue⟩ := Prod.mk.inj fields
  have run := Run.of_performAll performs
  refine ⟨handler, flow, run, known, mode, residue, fun data => ?_⟩
  obtain ⟨exact, unparsed⟩ := nothing_evicted_iff run known data
  rw [exact, residue, unparsed Environment.sample_neverFails]
  omega

/-- The first byte of a segment of 4097 bytes is overwritten by its last one. -/
theorem first_byte_evicted :
    ¬∀ (env : Environment) (durable : Contents) (events : List Event) (handler : PacketHandler)
      (key : UInt32) (flow : TcpFlowData) (data : List UInt8),
      Run env (.opened durable) events handler → handler.connMgr key = some flow →
      flow.currentMsgType ∈ bootstrapModes → flow.evicted data = [] := by
  intro kept
  have executed : ((PacketHandler.opened .empty).performAll .sample 20
      [.connectionStart .sample, .messageReady .sample 0 pushBytes, .handleNext]).bind
      (fun handler => (handler.connMgr 1).map fun flow =>
        (flow.currentMsgType, flow.accumulatedData.size, flow.parsed)) =
        some (.bulkPush, 0, 0) := by decide +kernel
  obtain ⟨handler, performs, known⟩ := Option.bind_eq_some_iff.mp executed
  obtain ⟨flow, known, fields⟩ := Option.map_eq_some_iff.mp known
  obtain ⟨mode, rest⟩ := Prod.mk.inj fields
  obtain ⟨empty, unparsed⟩ := Prod.mk.inj rest
  have nothing := kept .sample .empty _ handler 1 flow (List.replicate 4097 3)
    (.of_performAll performs) known (by rw [mode]; decide)
  rw [TcpFlowData.evicted_eq_nil_iff, empty, unparsed, List.length_replicate] at nothing
  exact absurd nothing (by decide)

end Nanocap
