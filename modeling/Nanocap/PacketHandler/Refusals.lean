import Nanocap.Database.Attempts
import Nanocap.PacketHandler.Callbacks
import Nanocap.PacketHandler.Messages
import Nanocap.PacketHandler.Segments

/-! # Segments of which SQLite refuses statements

As long as none of its own executions is refused, a call of `handle_tcp` or of a callback
does what it does when nothing ever fails. -/

namespace Nanocap

open Loop (Control)

/-- None of the executions between two states of a database is refused. -/
def Accepted (refuses : Nat → Bool) (before after : Db) : Prop :=
  ∀ execution, before.executed ≤ execution → execution < after.executed →
    refuses execution = false

theorem Accepted.left {refuses : Nat → Bool} {before middle after : Db}
    (accepted : Accepted refuses before after) (later : middle.executed ≤ after.executed) :
    Accepted refuses before middle := fun execution above below =>
  accepted execution above (Nat.lt_of_lt_of_le below later)

theorem Accepted.right {refuses : Nat → Bool} {before middle after : Db}
    (accepted : Accepted refuses before after) (later : before.executed ≤ middle.executed) :
    Accepted refuses middle after := fun execution above =>
  accepted execution (Nat.le_trans later above)

/-- `action` counts its executions, and does the same as `other` if all are accepted. -/
structure RefusesOnly {α : Type} (refuses : Nat → Bool) (action other : Action α) : Prop where
  counts : ∀ world, world.db.executed ≤ (stateOf (action world)).db.executed
  same : ∀ world, Accepted refuses world.db (stateOf (action world)).db →
    other world = action world

namespace RefusesOnly

variable {α β : Type} {refuses : Nat → Bool}

theorem of_db {action : Action α} (keeps : ∀ world, (stateOf (action world)).db = world.db) :
    RefusesOnly refuses action action where
  counts world := Nat.le_of_eq (congrArg Db.executed (keeps world).symm)
  same _ _ := rfl

theorem pure (value : α) : RefusesOnly refuses (Pure.pure value) (Pure.pure value) :=
  of_db fun _ => rfl

theorem bind {action other : Action α} {rest otherRest : α → Action β}
    (first : RefusesOnly refuses action other)
    (second : ∀ value, RefusesOnly refuses (rest value) (otherRest value)) :
    RefusesOnly refuses (action >>= rest) (other >>= otherRest) := by
  refine ⟨fun world => ?_, fun world accepted => ?_⟩
  · rw [EStateM.bind_apply]
    have counts := first.counts world
    cases run : action world with
    | error exception middle =>
        rw [run] at counts
        exact counts
    | ok value middle =>
        rw [run] at counts
        exact Nat.le_trans counts ((second value).counts middle)
  · have counts := first.counts world
    have same := first.same world
    rw [EStateM.bind_apply] at accepted ⊢
    rw [EStateM.bind_apply]
    cases run : action world with
    | error exception middle =>
        rw [run] at accepted same
        rw [same accepted]
    | ok value middle =>
        rw [run] at counts accepted same
        rw [same (accepted.left ((second value).counts middle))]
        exact (second value).same middle (accepted.right counts)

theorem ite {condition : Prop} [Decidable condition] {action other action' other' : Action α}
    (first : RefusesOnly refuses action other) (second : RefusesOnly refuses action' other') :
    RefusesOnly refuses (if condition then action else action')
      (if condition then other else other') := by
  split
  · exact first
  · exact second

theorem catchRuntimeError {body other handler otherHandler : Action α}
    (bodies : RefusesOnly refuses body other)
    (handlers : RefusesOnly refuses handler otherHandler) :
    RefusesOnly refuses (Nanocap.catchRuntimeError body handler)
      (Nanocap.catchRuntimeError other otherHandler) := by
  refine ⟨fun world => ?_, fun world accepted => ?_⟩
  · have counts := bodies.counts world
    unfold Nanocap.catchRuntimeError
    cases run : body world with
    | ok value after =>
        rw [run] at counts
        exact counts
    | error exception stopped =>
        rw [run] at counts
        cases exception with
        | runtimeError => exact Nat.le_trans counts (handlers.counts stopped)
        | outOfRange => exact counts
  · have counts := bodies.counts world
    have same := bodies.same world
    unfold Nanocap.catchRuntimeError at accepted ⊢
    cases run : body world with
    | ok value after =>
        rw [run] at accepted same
        rw [same accepted]
    | error exception stopped =>
        rw [run] at accepted counts same
        cases exception with
        | runtimeError =>
            rw [same (accepted.left (handlers.counts stopped))]
            exact handlers.same stopped (accepted.right counts)
        | outOfRange => rw [same accepted]

theorem loop {body other : Action Control} (iterations : RefusesOnly refuses body other)
    {fuel : Nat} {world : World} {result : EStateM.Result Exception World Unit}
    (returns : Loop.run body fuel world = some result) :
    world.db.executed ≤ (stateOf result).db.executed ∧
      (Accepted refuses world.db (stateOf result).db →
        Loop.run other fuel world = some result) := by
  induction fuel generalizing world with
  | zero => cases returns
  | succ fuel induction =>
      have counts := iterations.counts world
      have same := iterations.same world
      rw [Loop.run] at returns
      cases run : body world with
      | error exception stopped =>
          rw [run] at returns counts same
          cases returns
          exact ⟨counts, fun accepted => Loop.run_error (same accepted) fuel⟩
      | ok control middle =>
          rw [run] at returns counts same
          cases control with
          | leave =>
              cases returns
              exact ⟨counts, fun accepted => Loop.run_leave (same accepted) fuel⟩
          | again =>
              obtain ⟨later, rest⟩ := induction returns
              refine ⟨Nat.le_trans counts later, fun accepted => ?_⟩
              rw [Loop.run_again (same (accepted.left later)) fuel]
              exact rest (accepted.right counts)

end RefusesOnly

section Actions

variable {env : Environment} {refuses : Nat → Bool}

theorem Put.refusesOnly {α : Type} (put : Put α) :
    RefusesOnly refuses (put.run (env.refusing refuses)) (put.run (env.refusing fun _ => false))
    where
  counts := put.executed_le
  same world accepted := Put.run_refusing put world fun execution above below =>
    (accepted execution above below).symm

theorem getFlow_refusesOnly : RefusesOnly refuses getFlow getFlow := .of_db fun _ => rfl

theorem modifyFlow_refusesOnly (change : TcpFlowData → TcpFlowData) :
    RefusesOnly refuses (modifyFlow change) (modifyFlow change) := .of_db fun _ => rfl

theorem construct_refusesOnly {α : Type} (reader : Reader α) (stream : KStream) :
    RefusesOnly refuses (construct reader stream) (construct reader stream) := by
  refine .of_db fun world => ?_
  unfold construct
  cases reader stream <;> rfl

theorem details_refusesOnly (put : Put Unit) :
    RefusesOnly refuses (whenBootstrapDetails (env.refusing refuses) put)
      (whenBootstrapDetails (env.refusing fun _ => false) put) :=
  .ite put.refusesOnly (.pure ())

/-! ## Drain loops -/

variable {info : NanoPacket}

theorem endResponse_refusesOnly (event : TcpFlowData → String) :
    RefusesOnly refuses (endResponse (env.refusing refuses) info event)
      (endResponse (env.refusing fun _ => false) info event) :=
  .bind getFlow_refusesOnly fun _ => .bind (details_refusesOnly _) fun _ =>
    modifyFlow_refusesOnly _

private theorem frontierIteration_refusesOnly :
    RefusesOnly refuses (frontierIteration (env.refusing refuses) info)
      (frontierIteration (env.refusing fun _ => false) info) := by
  refine .bind getFlow_refusesOnly fun flow => .ite (.pure _) (.catchRuntimeError ?_ ?_)
  · refine .bind (construct_refusesOnly _ _) fun parsed => .ite ?_ ?_
    · exact .bind (endResponse_refusesOnly _) fun _ => .pure _
    · exact .bind (details_refusesOnly _) fun _ =>
        .bind (modifyFlow_refusesOnly _) fun _ => .pure _
  · exact .bind (modifyFlow_refusesOnly _) fun _ => .pure _

theorem bulkIteration_refusesOnly {Entry : Type} (name : String) (reader : Reader Entry)
    (put : Entry → Put Unit) :
    RefusesOnly refuses (bulkIteration (env.refusing refuses) info name reader put)
      (bulkIteration (env.refusing fun _ => false) info name reader put) := by
  refine .bind getFlow_refusesOnly fun flow => ?_
  dsimp only
  cases flow.accumulatedData.toList.head? with
  | none => exact .pure _
  | some first =>
      refine .ite (.bind (endResponse_refusesOnly _) fun _ => .pure _)
        (.catchRuntimeError ?_ (.pure _))
      exact .bind (construct_refusesOnly _ _) fun _ => .bind (details_refusesOnly _) fun _ =>
        .bind (modifyFlow_refusesOnly _) fun _ => .pure _

private theorem accountIteration_refusesOnly :
    RefusesOnly refuses (accountIteration (env.refusing refuses) info)
      (accountIteration (env.refusing fun _ => false) info) := by
  have entry (stream : KStream) : RefusesOnly refuses
      (accountEntry (env.refusing refuses) info stream)
      (accountEntry (env.refusing fun _ => false) info stream) :=
    .bind getFlow_refusesOnly fun _ => .bind (construct_refusesOnly _ _) fun _ =>
      .ite (endResponse_refusesOnly _) (.bind (details_refusesOnly _) fun _ =>
        modifyFlow_refusesOnly _)
  have header (stream : KStream) : RefusesOnly refuses
      (accountHeader (env.refusing refuses) stream)
      (accountHeader (env.refusing fun _ => false) stream) :=
    .bind (construct_refusesOnly _ _) fun _ => .bind (details_refusesOnly _) fun _ =>
      .bind (modifyFlow_refusesOnly _) fun _ => .pure _
  refine .bind getFlow_refusesOnly fun flow => .ite (.pure _) (.catchRuntimeError ?_ (.pure _))
  have rest (stream : KStream) : RefusesOnly refuses
      (do if (← getFlow).step = 1 then accountEntry (env.refusing refuses) info stream
          return Control.again)
      (do if (← getFlow).step = 1 then accountEntry (env.refusing fun _ => false) info stream
          return Control.again) :=
    .bind getFlow_refusesOnly fun _ => .ite (.bind (entry stream) fun _ => .pure _) (.pure _)
  exact .bind getFlow_refusesOnly fun _ => .ite (.bind (header _) rest) (rest _)

/-! ## Messages -/

private theorem Handling.run_refusesOnly (handling : Handling) :
    RefusesOnly refuses (handling.run (env.refusing refuses) info)
      (handling.run (env.refusing fun _ => false) info) := by
  unfold Handling.run
  simp only [Request.put_refusing]
  exact .bind (modifyFlow_refusesOnly _) fun _ =>
    .ite (.bind (Put.refusesOnly _) fun _ => Put.refusesOnly _) (Put.refusesOnly _)

private theorem handleSegment_refusesOnly :
    RefusesOnly refuses (handleSegment (env.refusing refuses) info)
      (handleSegment (env.refusing fun _ => false) info) := by
  refine .bind (construct_refusesOnly _ _) fun parsed =>
    .bind (modifyFlow_refusesOnly _) fun _ => ?_
  simp only [dispatch_eq]
  cases parsed.1.handling with
  | none => exact .pure _
  | some handling => exact handling.run_refusesOnly

end Actions

/-! ## Segments -/

section Segments

variable {env : Environment} {refuses : Nat → Bool} {info : NanoPacket}

private theorem drainLoop_refusing {mode : EnumMsgtype} {iteration : Action Control}
    (loop : drainLoop (env.refusing refuses) info mode = some iteration) :
    ∃ other, drainLoop (env.refusing fun _ => false) info mode = some other ∧
      RefusesOnly refuses iteration other := by
  unfold drainLoop at loop
  split at loop <;> cases loop
  · exact ⟨_, rfl, frontierIteration_refusesOnly⟩
  · exact ⟨_, rfl, bulkIteration_refusesOnly _ _ _⟩
  · exact ⟨_, rfl, bulkIteration_refusesOnly _ _ _⟩
  · exact ⟨_, rfl, accountIteration_refusesOnly⟩

private theorem processSegment_refusing {fuel : Nat} {world : World}
    {result : EStateM.Result Exception World Unit}
    (processed : processSegment (env.refusing refuses) fuel info world = some result)
    (accepted : Accepted refuses world.db (stateOf result).db) :
    processSegment (env.refusing fun _ => false) fuel info world = some result := by
  unfold processSegment at processed ⊢
  split at processed
  · rename_i iteration first rest loop data
    obtain ⟨other, loop', iterations⟩ := drainLoop_refusing loop
    rw [loop', data]
    exact (iterations.loop processed).2 accepted
  · rename_i noLoop
    cases processed
    have same := handleSegment_refusesOnly.same world accepted
    split
    · rename_i other first rest loop data
      cases own : drainLoop (env.refusing refuses) info world.flow.currentMsgType with
      | some iteration => exact absurd data (noLoop iteration first rest own)
      | none =>
          rw [drainLoop_eq_none_iff] at own
          rw [(drainLoop_eq_none_iff _ _).mpr own] at loop
          cases loop
    · rw [same]

theorem Handles.refusing {before after : Handler}
    (handles : Handles (env.refusing refuses) info before after)
    (accepted : Accepted refuses before.db after.db) :
    Handles (env.refusing fun _ => false) info before after := by
  obtain ⟨fuel, result, processed, rfl⟩ := (handles_iff _ _).mp handles
  refine (handles_iff _ _).mpr ⟨fuel, result, processSegment_refusing processed ?_, rfl⟩
  have left := congrArg World.db (Handler.settle_toWorld before.checkMaxReached result)
  exact left ▸ accepted

/-! ## Events -/

theorem PacketHandler.callDb_refusing {put : Put Unit} {before : PacketHandler}
    (accepted : Accepted refuses before.db (before.callDb (env.refusing refuses) put).db) :
    before.callDb (env.refusing fun _ => false) put =
      before.callDb (env.refusing refuses) put := by
  have same := (@Put.refusesOnly env refuses _ put).same ⟨before.db, .initial⟩ accepted
  rw [callDb, callDb, same]

private theorem PacketHandler.connectionStart_refusing {connection : ConnectionData}
    {before : PacketHandler} (accepted : Accepted refuses before.db
      (before.connectionStart (env.refusing refuses) connection).db) :
    before.connectionStart (env.refusing fun _ => false) connection =
      before.connectionStart (env.refusing refuses) connection := by
  have same := (@Put.refusesOnly env refuses _
    (putConnection (connection.packet 0 []) "open connection")).same ⟨before.db, .initial⟩
  unfold connectionStart at accepted ⊢
  rw [same ?_]
  revert accepted
  cases (putConnection (connection.packet 0 []) "open connection").run (env.refusing refuses)
    ⟨before.db, .initial⟩ <;> exact id

theorem Step.refusing {before after : PacketHandler} {event : Event}
    (step : Step (env.refusing refuses) before event after)
    (accepted : Accepted refuses before.db after.db) :
    Step (env.refusing fun _ => false) before event after := by
  cases step with
  | connectionStart connection =>
      rw [← PacketHandler.connectionStart_refusing accepted]
      exact .connectionStart before connection
  | messageReady connection side data => exact .messageReady before connection side data
  | connectionEnd connection =>
      have same := PacketHandler.callDb_refusing accepted
      rw [PacketHandler.connectionEnd, ← same]
      exact .connectionEnd before connection
  | handleNext queue handled =>
      cases handled with
      | mk known handles =>
          exact .handleNext queue (.mk known (handles.refusing accepted))
  | flush =>
      rw [← PacketHandler.callDb_refusing accepted]
      exact .flush before
  | destroyCaptureData =>
      rw [← PacketHandler.callDb_refusing accepted]
      exact .destroyCaptureData before
  | restart durable => exact .restart durable

end Segments

end Nanocap
