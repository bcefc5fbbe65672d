import Nanocap.PacketHandler.Eviction
import Nanocap.PacketHandler.Termination

/-! # Flows between two segments

The mode of a flow says which of its fields are in use between two segments, and how
few bytes then wait in its buffer. -/

namespace Nanocap

open Loop (Control)

/-! ## Settled flows -/

/-- What holds of a flow while no segment is handled. -/
structure TcpFlowData.Settled (flow : TcpFlowData) : Prop where
  capacity : flow.accumulatedData.capacity = 4096
  buffer : flow.accumulatedData.size ≠ 0 → flow.currentMsgType ∈ bootstrapModes
  step : flow.step = 0 ∨ flow.step = 1 ∧ flow.currentMsgType = .bulkPullAccount
  frontierReq : flow.currentMsgType = .frontierReq → flow.accumulatedData.size < 64
  bulk : flow.currentMsgType = .bulkPull ∨ flow.currentMsgType = .bulkPush →
    flow.accumulatedData.toList = [] ∨ EntryBegun flow.accumulatedData.toList
  bulkPullAccount : flow.currentMsgType = .bulkPullAccount → flow.accumulatedData.size <
    if flow.step = 0 then 48 else BulkPullAccountEntry.size flow.requestFlags

/-- The mode uses the buffer and the step, where they are in use. -/
structure TcpFlowData.InMode (flow : TcpFlowData) : Prop where
  buffer : flow.accumulatedData.toList ≠ [] → flow.currentMsgType ∈ bootstrapModes
  step : flow.step = 0 ∨ flow.step = 1 ∧ flow.currentMsgType = .bulkPullAccount

namespace TcpFlowData

theorem InMode.initial : TcpFlowData.initial.InMode :=
  ⟨fun some => absurd rfl some, .inl rfl⟩

theorem InMode.settled {flow : TcpFlowData} (inMode : flow.InMode) (unparsed : flow.Unparsed) :
    flow.Settled where
  capacity := rfl
  buffer some := inMode.buffer fun empty => some (congrArg List.length empty)
  step := inMode.step
  frontierReq mode := by
    rw [Unparsed, mode] at unparsed
    exact FrontierEntry.codec.length_lt_of_unreadable unparsed
  bulk mode := by
    unfold Unparsed at unparsed
    rcases mode with mode | mode
    · rw [mode] at unparsed
      exact @readBulkEntry_begun _ BulkPullEntry.mk _ unparsed
    · rw [mode] at unparsed
      exact @readBulkEntry_begun _ BulkPushEntry.mk _ unparsed
  bulkPullAccount mode := by
    rw [Unparsed, mode] at unparsed
    dsimp only at unparsed
    split at unparsed <;> rename_i step
    · rw [if_pos step]
      exact FrontierBalanceEntry.codec.length_lt_of_unreadable unparsed
    · rw [if_neg step]
      exact (BulkPullAccountEntry.codec _).length_lt_of_unreadable unparsed

theorem Settled.size_le {flow : TcpFlowData} (settled : flow.Settled) :
    flow.accumulatedData.size ≤ 216 := by
  by_cases empty : flow.accumulatedData.size = 0
  · omega
  have bulk (mode : flow.currentMsgType = .bulkPull ∨ flow.currentMsgType = .bulkPush) :
      flow.accumulatedData.size ≤ 216 := by
    rcases settled.bulk mode with none | ⟨block, -, -, -, -, -, length, size⟩
    · exact absurd (congrArg List.length none) empty
    · exact Nat.le_trans length size
  have mode := settled.buffer empty
  simp only [bootstrapModes, List.mem_cons, List.not_mem_nil, or_false] at mode
  rcases mode with mode | mode | mode | mode
  · exact Nat.le_of_lt (Nat.lt_of_lt_of_le (settled.frontierReq mode) (by decide))
  · exact bulk (.inl mode)
  · exact bulk (.inr mode)
  · have short := settled.bulkPullAccount mode
    have size := BulkPullAccountEntry.size_le flow.requestFlags
    split at short <;> omega

end TcpFlowData

/-! ## Handling -/

section Handling

variable {env : Environment} (neverFails : env.NeverFails)
include neverFails

/-- A drain loop stays in its mode, in which the buffer is in use, or resets the flow. -/
private theorem drainLoop_inMode {info : NanoPacket} {world : World} {iteration : Action Control}
    (loop : drainLoop env info world.flow.currentMsgType = some iteration)
    (ready : world.db.Ready) {result : EStateM.Result Exception World Unit}
    (returns : Loop.Returns iteration world result)
    (step : world.flow.step = 0 ∨
      world.flow.step = 1 ∧ world.flow.currentMsgType = .bulkPullAccount) :
    (stateOf result).flow.InMode := by
  have effects := drainLoop_effects neverFails loop ready returns
  rcases effects.mode with same | reset
  · have bootstrap : world.flow.currentMsgType ∈ bootstrapModes := by
      by_contra message
      rw [(drainLoop_eq_none_iff env info).mpr message] at loop
      cases loop
    refine ⟨fun _ => same ▸ bootstrap, ?_⟩
    by_cases account : world.flow.currentMsgType = .bulkPullAccount
    · have atMost : StepBound (stateOf result) :=
        (drainLoop_keeps_step env info loop).loop returns (by change world.flow.step ≤ 1; omega)
      rcases Nat.le_one_iff_eq_zero_or_eq_one.mp atMost with zero | one
      · exact .inl zero
      · exact .inr ⟨one, same.trans account⟩
    · have none : world.flow.step = 0 := step.resolve_right fun one => account one.2
      have atMost : StepAtMost 0 (stateOf result) :=
        (drainLoop_keeps_stepAtMost env info account loop).loop returns (Nat.le_of_eq none)
      exact .inl (Nat.le_zero.mp atMost)
  · rw [reset]
    exact .initial

theorem Handles.inMode {info : NanoPacket} {before after : Handler}
    (handles : Handles env info before after) (ready : before.db.Ready)
    (inMode : before.flow.InMode) : after.flow.InMode := by
  rcases handles.cases neverFails ready with
    ⟨iteration, result, loop, returns, left⟩ | ⟨nano, stop, message, reads, left⟩ | left
  · rw [left]
    exact @drainLoop_inMode env neverFails info (accumulate info before.toWorld) iteration loop
      ready result returns inMode.step
  · obtain ⟨empty, step⟩ := @Nano.after_flow env info nano before.db
    rw [left]
    exact ⟨fun some => absurd empty some, .inl step⟩
  · rw [left]
    exact inMode

/-- Segments of up to 3880 bytes always find room behind what waits in the buffer. -/
theorem AppendsFit.of_short {segments : List NanoPacket} {before : Handler}
    (ready : before.db.Ready) (unparsed : before.flow.Unparsed) (inMode : before.flow.InMode)
    (short : ∀ info ∈ segments, info.data.length ≤ 3880) : AppendsFit env segments before := by
  induction segments generalizing before with
  | nil => trivial
  | cons info rest induction =>
      have waiting := (inMode.settled unparsed).size_le
      have own := short info List.mem_cons_self
      refine ⟨Nat.le_trans (Nat.add_le_add waiting own) (by decide), fun next handles => ?_⟩
      exact induction ((handles.delivery neverFails ready).ready ready)
        (handles.unparsed neverFails ready unparsed) (handles.inMode neverFails ready inMode)
        fun other member => short other (List.mem_cons_of_mem _ member)

theorem AppendsFit.of_waiting {segments : List NanoPacket} {before : Handler}
    (ready : before.db.Ready) (empty : before.flow.accumulatedData.toList = [])
    (step : before.flow.step = 0) (short : ∀ info ∈ segments, info.data.length ≤ 3880) :
    AppendsFit env segments before :=
  .of_short neverFails ready (.of_empty empty) ⟨fun some => absurd empty some, .inl step⟩ short

end Handling

/-! ## Reachable states -/

/-- The states that segments of any data and any events lead to. -/
inductive PacketHandler.Reachable (env : Environment) : PacketHandler → Prop where
  | opened (durable : Contents) : Reachable env (.opened durable)
  | handleTcp {before after : PacketHandler} (info : NanoPacket) :
      Reachable env before → before.Handled env info after → Reachable env after
  | step {before after : PacketHandler} (event : Event) :
      Reachable env before → Step env before event after → Reachable env after

theorem Run.reachable {env : Environment} {before after : PacketHandler} {events : List Event}
    (run : Run env before events after) (reachable : before.Reachable env) :
    after.Reachable env := by
  induction run with
  | nil handler => exact reachable
  | cons step _ induction => exact induction (.step _ reachable step)

theorem PacketHandler.Reachable.waits {env : Environment} (neverFails : env.NeverFails)
    {handler : PacketHandler} (reachable : handler.Reachable env) :
    handler.db.Ready ∧ handler.EveryFlow fun flow => flow.Unparsed ∧ flow.InMode := by
  have handles : ∀ {info : NanoPacket} {before after : Handler},
      Handles env info before after → before.db.Ready →
      before.flow.Unparsed ∧ before.flow.InMode → after.flow.Unparsed ∧ after.flow.InMode :=
    fun handles ready waits =>
      ⟨handles.unparsed neverFails ready waits.1, handles.inMode neverFails ready waits.2⟩
  induction reachable with
  | opened durable =>
      refine ⟨Db.opened_ready durable, fun key flow known => ?_⟩
      cases known
  | handleTcp info _ handled induction =>
      obtain ⟨ready, every⟩ := induction
      exact ⟨handled.ready neverFails ready, handled.everyFlow handles ready every⟩
  | step event _ step induction =>
      obtain ⟨ready, every⟩ := induction
      exact ⟨step.ready neverFails ready,
        step.everyFlow handles neverFails ⟨.initial, .initial⟩ ready every⟩

/-- Between two segments every flow is settled, whatever the segments hold. -/
theorem flow_settled {env : Environment} (neverFails : env.NeverFails)
    {handler : PacketHandler} (reachable : handler.Reachable env) {key : UInt32}
    {flow : TcpFlowData} (known : handler.connMgr key = some flow) : flow.Settled := by
  obtain ⟨unparsed, inMode⟩ := (reachable.waits neverFails).2 key flow known
  exact inMode.settled unparsed

/-- The type and two bytes of a block wait for the rest of the block. -/
theorem flow_settled_push :
    ∃ (handler : PacketHandler) (flow : TcpFlowData), handler.Reachable .sample ∧
      handler.connMgr 1 = some flow ∧ flow.currentMsgType = .bulkPush ∧
      flow.accumulatedData.toList = [3, 0, 0] ∧ flow.Settled := by
  have executed : ((PacketHandler.opened .empty).performAll .sample 20
      [.connectionStart .sample, .messageReady .sample 0 pushBytes, .handleNext,
        .messageReady .sample 0 [3, 0, 0], .handleNext]).bind
      (fun handler => (handler.connMgr 1).map fun flow =>
        (flow.currentMsgType, flow.accumulatedData.toList)) = some (.bulkPush, [3, 0, 0]) := by
    decide +kernel
  obtain ⟨handler, performs, known⟩ := Option.bind_eq_some_iff.mp executed
  obtain ⟨flow, known, fields⟩ := Option.map_eq_some_iff.mp known
  obtain ⟨mode, bytes⟩ := Prod.mk.inj fields
  have reachable := (Run.of_performAll performs).reachable (.opened .empty)
  exact ⟨handler, flow, reachable, known, mode, bytes,
    flow_settled Environment.sample_neverFails reachable known⟩

end Nanocap
