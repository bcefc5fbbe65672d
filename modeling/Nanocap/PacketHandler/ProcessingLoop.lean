import Nanocap.Foundation.Transitions
import Nanocap.Shared

/-! # The processing loop

`run_packet_processing_loop` takes the segments from `packet_queue` one at a time.
It holds `packet_queue_mutex` but while it waits and while it calls `handle_tcp`. -/

namespace Nanocap

/-! ## State -/

inductive LoopPoint where
  /-- `while(!stopped)` -/
  | outerTest
  | lock
  /-- The condition of `wait_for`. -/
  | waitTest
  /-- Asleep, without the lock. -/
  | waiting
  /-- Awake again, with or without a time-out. -/
  | waitLock (timedOut : Bool)
  /-- `while (!stopped && packet_queue.size() > 0)` -/
  | innerTest
  | front
  | popFront (info : NanoPacket)
  | unlock (info : NanoPacket)
  | call (info : NanoPacket)
  /-- In `handle_tcp`. -/
  | handling
  | relock
  /-- The end of the scope of the lock. -/
  | endScope
  | returned
  /-- The front of an empty deque was read or removed. -/
  | undefined
deriving DecidableEq

structure PacketQueue where
  packetQueue : List NanoPacket
  stopped : Bool
  /-- Does the processing thread hold the lock? -/
  locked : Bool
  loop : LoopPoint
deriving DecidableEq

namespace PacketQueue

def started : PacketQueue where
  packetQueue := []
  stopped := false
  locked := false
  loop := .outerTest

/-- What the threads do. The sections other threads spend under the lock are one
step each; the processing thread goes from one point of the loop to the next. -/
inductive Action where
  /-- `tcpReassemblyMsgReadyCallback` -/
  | enqueue (info : NanoPacket)
  /-- `packet_queue_size` -/
  | querySize
  /-- `stop_packet_processing_thread` -/
  | stop
  /-- A notification, or none, or the end of the 500 ms. -/
  | wake (timedOut : Bool)
  /-- `handle_tcp` is called. -/
  | handle (info : NanoPacket)
  | handled
  | advance
deriving DecidableEq

def advance (state : PacketQueue) : Option PacketQueue :=
  match state.loop with
  | .outerTest => some { state with loop := if state.stopped then .returned else .lock }
  | .lock =>
      if state.locked then none else some { state with locked := true, loop := .waitTest }
  | .waitTest =>
      if state.stopped ∨ state.packetQueue.length > 0 then
        some { state with loop := .innerTest }
      else
        some { state with locked := false, loop := .waiting }
  | .waitLock timedOut =>
      if state.locked then none
      else some { state with locked := true, loop := if timedOut then .innerTest else .waitTest }
  | .innerTest =>
      if ¬state.stopped ∧ state.packetQueue.length > 0 then some { state with loop := .front }
      else some { state with loop := .endScope }
  | .front =>
      match state.packetQueue with
      | [] => some { state with loop := .undefined }
      | info :: _ => some { state with loop := .popFront info }
  | .popFront info =>
      match state.packetQueue with
      | [] => some { state with loop := .undefined }
      | _ :: rest => some { state with packetQueue := rest, loop := .unlock info }
  | .unlock info => some { state with locked := false, loop := .call info }
  | .relock =>
      if state.locked then none else some { state with locked := true, loop := .innerTest }
  | .endScope => some { state with locked := false, loop := .outerTest }
  | .waiting | .call _ | .handling | .returned | .undefined => none

/-- `none` when the action is not possible. -/
def perform (state : PacketQueue) : Action → Option PacketQueue
  | .enqueue info =>
      if state.locked then none else some { state with packetQueue := state.packetQueue ++ [info] }
  | .querySize => if state.locked then none else some state
  | .stop => some { state with stopped := true }
  | .wake timedOut =>
      if state.loop = .waiting then some { state with loop := .waitLock timedOut } else none
  | .handle info =>
      if state.loop = .call info then some { state with loop := .handling } else none
  | .handled => if state.loop = .handling then some { state with loop := .relock } else none
  | .advance => state.advance

def Step (before : PacketQueue) (action : Action) (after : PacketQueue) : Prop :=
  before.perform action = some after

def performAll (state : PacketQueue) (actions : List Action) : Option PacketQueue :=
  actions.foldlM perform state

abbrev Run : PacketQueue → List Action → PacketQueue → Prop := Transitions Step

/-- The segments an action enqueues, and those it passes to `handle_tcp`. -/
def Action.enqueued : Action → List NanoPacket
  | enqueue info => [info]
  | _ => []

def Action.passed : Action → List NanoPacket
  | handle info => [info]
  | _ => []

end PacketQueue

/-! ## The invariant -/

namespace LoopPoint

/-- The segment copied from the queue, removed from it and not passed on yet. -/
def inHand : LoopPoint → List NanoPacket
  | unlock info | call info => [info]
  | _ => []

def locks : LoopPoint → Bool
  | waitTest | innerTest | front | popFront _ | unlock _ | endScope => true
  | _ => false

/-- How many segments are removed even if the thread is stopped now: the loop has
decided to take the front. -/
def committed : LoopPoint → Nat
  | front | popFront _ => 1
  | _ => 0

def Fits (packetQueue : List NanoPacket) : LoopPoint → Prop
  | front => packetQueue ≠ []
  | popFront info => packetQueue.head? = some info
  | undefined => False
  | _ => True

theorem Fits.append {packetQueue : List NanoPacket} {loop : LoopPoint}
    (fits : loop.Fits packetQueue) (more : List NanoPacket) : loop.Fits (packetQueue ++ more) := by
  cases loop with
  | front => exact List.append_ne_nil_of_left_ne_nil fits more
  | popFront info =>
      change (packetQueue ++ more).head? = some info
      rw [List.head?_append, fits, Option.some_or]
  | undefined => exact fits
  | _ => trivial

end LoopPoint

namespace PacketQueue

structure Sound (state : PacketQueue) : Prop where
  locked : state.locked = state.loop.locks
  fits : state.loop.Fits state.packetQueue

def contents (state : PacketQueue) : List NanoPacket :=
  state.loop.inHand ++ state.packetQueue

theorem started_sound : started.Sound := ⟨rfl, trivial⟩

private theorem advance_sound {before after : PacketQueue} (sound : before.Sound)
    (advances : before.advance = some after) :
    after.Sound ∧ before.contents = after.contents := by
  obtain ⟨packetQueue, stopped, locked, loop⟩ := before
  obtain ⟨holds, fits⟩ := sound
  cases loop with
  | outerTest =>
      cases Option.some.inj advances
      cases stopped <;> exact ⟨⟨holds, trivial⟩, rfl⟩
  | lock =>
      cases holds
      cases Option.some.inj advances
      exact ⟨⟨rfl, trivial⟩, rfl⟩
  | waitTest =>
      dsimp only [advance] at advances
      split at advances <;> cases Option.some.inj advances
      · exact ⟨⟨holds, trivial⟩, rfl⟩
      · exact ⟨⟨rfl, trivial⟩, rfl⟩
  | waitLock timedOut =>
      cases holds
      cases Option.some.inj advances
      cases timedOut <;> exact ⟨⟨rfl, trivial⟩, rfl⟩
  | innerTest =>
      dsimp only [advance] at advances
      split at advances <;> cases Option.some.inj advances
      · rename_i goesOn
        exact ⟨⟨holds, List.ne_nil_of_length_pos goesOn.2⟩, rfl⟩
      · exact ⟨⟨holds, trivial⟩, rfl⟩
  | front =>
      cases packetQueue with
      | nil => exact absurd rfl fits
      | cons info rest =>
          cases Option.some.inj advances
          exact ⟨⟨holds, rfl⟩, rfl⟩
  | popFront info =>
      cases packetQueue with
      | nil => cases fits
      | cons front rest =>
          cases fits
          cases Option.some.inj advances
          exact ⟨⟨holds, trivial⟩, rfl⟩
  | unlock info =>
      cases Option.some.inj advances
      exact ⟨⟨rfl, trivial⟩, rfl⟩
  | relock =>
      cases holds
      cases Option.some.inj advances
      exact ⟨⟨rfl, trivial⟩, rfl⟩
  | endScope =>
      cases Option.some.inj advances
      exact ⟨⟨rfl, trivial⟩, rfl⟩
  | waiting | call | handling | returned | undefined => cases advances

theorem step_sound {before after : PacketQueue} {action : Action} (sound : before.Sound)
    (step : Step before action after) :
    after.Sound ∧ before.contents ++ action.enqueued = action.passed ++ after.contents := by
  cases action with
  | advance =>
      obtain ⟨soundAfter, same⟩ := advance_sound sound step
      exact ⟨soundAfter, (List.append_nil _).trans same⟩
  | enqueue info =>
      obtain ⟨free, changed⟩ := Option.ite_none_left_eq_some.mp step
      cases changed
      exact ⟨⟨sound.locked, sound.fits.append [info]⟩, List.append_assoc ..⟩
  | querySize =>
      obtain ⟨free, changed⟩ := Option.ite_none_left_eq_some.mp step
      cases changed
      exact ⟨sound, List.append_nil _⟩
  | stop =>
      cases Option.some.inj step
      exact ⟨⟨sound.locked, sound.fits⟩, List.append_nil _⟩
  | wake | handle | handled =>
      obtain ⟨packetQueue, stopped, locked, loop⟩ := before
      obtain ⟨here, changed⟩ := Option.ite_none_right_eq_some.mp step
      cases here
      cases changed
      exact ⟨⟨sound.locked, trivial⟩, List.append_nil _⟩

theorem handsOn : HandsOn Step Sound contents Action.enqueued Action.passed :=
  ⟨fun step sound => (step_sound sound step).1, fun step sound => (step_sound sound step).2⟩

/-- In every state reached, the segments passed to `handle_tcp` are the first ones
enqueued, those of a flow keep their order, and no empty queue was read. -/
theorem segments_handled_in_order {actions : List Action} {state : PacketQueue}
    (run : Run started actions state) :
    actions.flatMap Action.passed <+: actions.flatMap Action.enqueued ∧
      (∀ key, (actions.flatMap Action.passed).filter (·.flowKey = key) <+:
        (actions.flatMap Action.enqueued).filter (·.flowKey = key)) ∧
      (state.loop = .front → state.packetQueue ≠ []) ∧ state.loop ≠ .undefined := by
  have inOrder := handsOn.received_prefix run started_sound rfl
  have sound := handsOn.valid_after run started_sound
  refine ⟨inOrder, fun key => inOrder.filter _, fun front => ?_, fun undefined => ?_⟩
  · have fits := sound.fits
    rwa [front] at fits
  · have fits := sound.fits
    rwa [undefined] at fits

/-- A segment is handled, and another one comes in during the call. -/
theorem segments_handled_in_order_two :
    let actions : List Action := .enqueue (.sample [1]) :: List.replicate 7 .advance ++
      [.handle (.sample [1]), .enqueue (.sample [2]), .handled, .advance, .advance]
    ∃ state, Run started actions state ∧ state.loop = .front ∧ state.packetQueue ≠ [] ∧
      actions.flatMap Action.passed <+: actions.flatMap Action.enqueued := by
  intro actions
  have executed : (started.performAll actions).map (fun state => state.loop) = some .front := by
    decide +kernel
  obtain ⟨state, performs, front⟩ := Option.map_eq_some_iff.mp executed
  have run : Run started actions state := .of_foldlM performs
  obtain ⟨inOrder, -, nonempty, -⟩ := segments_handled_in_order run
  exact ⟨state, run, front, nonempty front, inOrder⟩

/-! ## After a stop request -/

private theorem advance_stopped {before after : PacketQueue} (stopped : before.stopped = true)
    (advances : before.advance = some after) (defined : after.loop ≠ .undefined) :
    after.stopped = true ∧ after.packetQueue.drop after.loop.committed =
      before.packetQueue.drop before.loop.committed := by
  obtain ⟨packetQueue, flag, locked, loop⟩ := before
  cases stopped
  cases loop with
  | outerTest | waitTest | unlock | endScope =>
      cases Option.some.inj advances
      exact ⟨rfl, rfl⟩
  | innerTest =>
      cases Option.some.inj advances
      exact ⟨rfl, rfl⟩
  | lock | relock =>
      obtain ⟨-, changed⟩ := Option.ite_none_left_eq_some.mp advances
      cases changed
      exact ⟨rfl, rfl⟩
  | waitLock timedOut =>
      obtain ⟨-, changed⟩ := Option.ite_none_left_eq_some.mp advances
      cases changed
      cases timedOut <;> exact ⟨rfl, rfl⟩
  | front | popFront =>
      cases packetQueue with
      | nil =>
          cases Option.some.inj advances
          exact absurd rfl defined
      | cons front rest =>
          cases Option.some.inj advances
          exact ⟨rfl, rfl⟩
  | waiting | call | handling | returned | undefined => cases advances

theorem step_stop {before after : PacketQueue} (step : Step before .stop after) :
    after.stopped = true ∧ after.packetQueue.drop after.loop.committed =
      before.packetQueue.drop before.loop.committed := by
  cases Option.some.inj step
  exact ⟨rfl, rfl⟩

/-- Once stopped, the loop takes no segment but the one it has decided to take. -/
theorem step_stopped {before after : PacketQueue} {action : Action} (sound : before.Sound)
    (step : Step before action after) (nothing : action.enqueued = [])
    (stopped : before.stopped = true) :
    after.stopped = true ∧ after.packetQueue.drop after.loop.committed =
      before.packetQueue.drop before.loop.committed := by
  cases action with
  | advance =>
      apply advance_stopped stopped step
      intro undefined
      have fits := (step_sound sound step).1.fits
      rwa [undefined] at fits
  | enqueue info => cases nothing
  | querySize =>
      obtain ⟨free, changed⟩ := Option.ite_none_left_eq_some.mp step
      cases changed
      exact ⟨stopped, rfl⟩
  | stop => exact step_stop step
  | wake | handle | handled =>
      obtain ⟨packetQueue, flag, locked, loop⟩ := before
      obtain ⟨here, changed⟩ := Option.ite_none_right_eq_some.mp step
      cases here
      cases changed
      exact ⟨stopped, rfl⟩

theorem step_returned {before after : PacketQueue} {action : Action}
    (step : Step before action after) (returned : before.loop = .returned) :
    after.loop = .returned := by
  obtain ⟨packetQueue, flag, locked, loop⟩ := before
  cases returned
  cases action with
  | enqueue | querySize =>
      obtain ⟨free, changed⟩ := Option.ite_none_left_eq_some.mp step
      cases changed
      rfl
  | stop =>
      cases Option.some.inj step
      rfl
  | wake | handle | handled | advance => cases step

end PacketQueue

end Nanocap
