import Nanocap.PacketHandler.ProcessingLoop

/-! # Importing a capture file

`main` analyzes a capture file and returns, when neither the web server nor the live
capture is enabled. The destructor of the packet handler then stops the processing
thread and waits for it. -/

namespace Nanocap

/-! ## Threads -/

inductive MainPoint where
  /-- In `analyze_pcap_file`, with the segments the reassembly has still to deliver. -/
  | analyzing (segments : List NanoPacket)
  /-- The destructor waits for the processing thread. -/
  | joining
  | destroyed
deriving DecidableEq

def MainPoint.undelivered : MainPoint → List NanoPacket
  | analyzing segments => segments
  | joining | destroyed => []

structure App where
  handler : PacketQueue
  main : MainPoint
deriving DecidableEq

namespace App

def launched (segments : List NanoPacket) : App := ⟨.started, .analyzing segments⟩

inductive Turn where
  /-- The reassembly callback is called for the next segment of the file. -/
  | deliver (info : NanoPacket)
  /-- `main` has returned, and the destructor stops the thread. -/
  | stop
  | join
  | processing (action : PacketQueue.Action)
deriving DecidableEq

/-- What a turn does to the packet queue. -/
def Turn.actions : Turn → List PacketQueue.Action
  | deliver info => [.enqueue info]
  | stop => [.stop]
  | join => []
  | processing action => [action]

/-- The segments a turn passes to `handle_tcp`. -/
def Turn.passed (turn : Turn) : List NanoPacket :=
  turn.actions.flatMap PacketQueue.Action.passed

/-- `none` when it is not the turn's time. -/
def perform (app : App) : Turn → Option App
  | .deliver info =>
      match app.main with
      | .analyzing (next :: segments) =>
          if info = next then
            (app.handler.perform (.enqueue info)).map (⟨·, .analyzing segments⟩)
          else none
      | _ => none
  | .stop =>
      if app.main = .analyzing [] then (app.handler.perform .stop).map (⟨·, .joining⟩) else none
  | .join =>
      if app.main = .joining ∧ app.handler.loop = .returned then
        some { app with main := .destroyed }
      else none
  | .processing (.enqueue _) | .processing .querySize | .processing .stop => none
  | .processing action => (app.handler.perform action).map (⟨·, app.main⟩)

def performAll (app : App) (turns : List Turn) : Option App :=
  turns.foldlM perform app

def Step (before : App) (turn : Turn) (after : App) : Prop :=
  before.perform turn = some after

abbrev Run : App → List Turn → App → Prop := Transitions Step

/-! ## What a turn can do -/

inductive Step.Cases (before after : App) : Turn → Prop where
  | deliver {info : NanoPacket} {segments : List NanoPacket} :
      before.main = .analyzing (info :: segments) → after.main = .analyzing segments →
      before.handler.Step (.enqueue info) after.handler → Cases before after (.deliver info)
  | stop : before.main = .analyzing [] → after.main = .joining →
      before.handler.Step .stop after.handler → Cases before after .stop
  | join : before.main = .joining → before.handler.loop = .returned → after.main = .destroyed →
      after.handler = before.handler → Cases before after .join
  | processing {action : PacketQueue.Action} : action.enqueued = [] → after.main = before.main →
      before.handler.Step action after.handler → Cases before after (.processing action)

theorem Step.cases {before after : App} {turn : Turn} (step : Step before turn after) :
    Step.Cases before after turn := by
  unfold Step perform at step
  split at step
  · split at step
    · rename_i main
      obtain ⟨rfl, delivers⟩ := Option.ite_none_right_eq_some.mp step
      obtain ⟨handler, enqueues, rfl⟩ := Option.map_eq_some_iff.mp delivers
      exact .deliver main rfl enqueues
    · cases step
  · obtain ⟨main, returns⟩ := Option.ite_none_right_eq_some.mp step
    obtain ⟨handler, stops, rfl⟩ := Option.map_eq_some_iff.mp returns
    exact .stop main rfl stops
  · obtain ⟨⟨main, returned⟩, joins⟩ := Option.ite_none_right_eq_some.mp step
    cases joins
    exact .join main returned rfl rfl
  · cases step
  · cases step
  · cases step
  · rename_i action noEnqueue _ _
    obtain ⟨handler, acts, rfl⟩ := Option.map_eq_some_iff.mp step
    refine .processing ?_ rfl acts
    cases action with
    | enqueue info => exact absurd rfl (noEnqueue info)
    | _ => rfl

theorem Run.handler {before after : App} {turns : List Turn} (run : Run before turns after) :
    PacketQueue.Run before.handler (turns.flatMap Turn.actions) after.handler := by
  refine run.simulate (fun step => ?_)
  cases step.cases with
  | deliver _ _ acts | stop _ _ acts | processing _ _ acts => exact .cons acts (.nil _)
  | join _ _ _ same =>
      rw [same]
      exact .nil _

/-! ## The segments of the file -/

section Delivered

variable {before after : App} {turn : Turn} {turns : List Turn}

theorem Run.delivered (run : Run before turns after) :
    turns.flatMap (fun turn => turn.actions.flatMap PacketQueue.Action.enqueued) ++
      after.main.undelivered = before.main.undelivered := by
  induction run with
  | nil app => rfl
  | @cons before middle after turn turns step _ induction =>
      rw [List.flatMap_cons, List.append_assoc, induction]
      cases step.cases with
      | deliver earlier later => rw [earlier, later]; rfl
      | stop earlier later => rw [earlier, later]; rfl
      | join earlier _ later => rw [earlier, later]; rfl
      | processing nothing same =>
          rw [same, Turn.actions, List.flatMap_singleton, nothing]
          rfl

theorem Step.returned (step : Step before turn after)
    (returned : before.main = .destroyed → before.handler.loop = .returned) :
    after.main = .destroyed → after.handler.loop = .returned := by
  intro destroyed
  cases step.cases with
  | deliver _ later | stop _ later =>
      rw [later] at destroyed
      cases destroyed
  | join _ ended _ same => exact same ▸ ended
  | processing _ same acts =>
      rw [same] at destroyed
      exact PacketQueue.step_returned acts (returned destroyed)

end Delivered

/-! ## Shutdown -/

/-- The destructor waits for the thread, which leaves these segments behind. -/
structure Stopping (left : List NanoPacket) (app : App) : Prop where
  main : app.main = .joining ∨ app.main = .destroyed
  sound : app.handler.Sound
  stopped : app.handler.stopped = true
  left : app.handler.packetQueue.drop app.handler.loop.committed = left

private theorem Step.stopping_of_stop {before after : App} (step : Step before .stop after)
    (sound : before.handler.Sound) :
    after.Stopping (before.handler.packetQueue.drop before.handler.loop.committed) := by
  cases step.cases with
  | stop _ later stops =>
      obtain ⟨stopped, same⟩ := PacketQueue.step_stop stops
      exact ⟨.inl later, (PacketQueue.step_sound sound stops).1, stopped, same⟩

theorem Step.stopping {before after : App} {turn : Turn} {left : List NanoPacket}
    (step : Step before turn after) (stopping : before.Stopping left) : after.Stopping left := by
  cases step.cases with
  | deliver earlier | stop earlier =>
      rcases stopping.main with main | main <;> rw [main] at earlier <;> cases earlier
  | join _ _ later same =>
      exact ⟨.inr later, same ▸ stopping.sound, same ▸ stopping.stopped, same ▸ stopping.left⟩
  | processing nothing same acts =>
      obtain ⟨stopped, stays⟩ :=
        PacketQueue.step_stopped stopping.sound acts nothing stopping.stopped
      exact ⟨same ▸ stopping.main, (PacketQueue.step_sound stopping.sound acts).1, stopped,
        stays.trans stopping.left⟩

/-- When the application is destroyed, every segment of the file has been handled once
and in order if and only if at the stop request none waited but one the loop had
already decided to take. -/
theorem import_complete_iff {segments : List NanoPacket} {first rest : List Turn}
    {before after : App} (analyzed : Run (launched segments) first before)
    (ends : Run before (.stop :: rest) after) (destroyed : after.main = .destroyed) :
    (first ++ .stop :: rest).flatMap Turn.passed = segments ↔
      before.handler.packetQueue.length ≤ before.handler.loop.committed := by
  have whole : Run (launched segments) (first ++ .stop :: rest) after := analyzed.append ends
  have soundBefore := PacketQueue.handsOn.valid_after analyzed.handler PacketQueue.started_sound
  -- what is left behind was left at the stop request
  have left : after.Stopping
      (before.handler.packetQueue.drop before.handler.loop.committed) := by
    cases ends with
    | cons stop later =>
        exact later.invariant Step.stopping (stop.stopping_of_stop soundBefore)
  have returned : after.handler.loop = .returned :=
    whole.invariant Step.returned MainPoint.noConfusion destroyed
  have leftBehind := left.left
  rw [returned] at leftBehind
  have contents : after.handler.contents =
      before.handler.packetQueue.drop before.handler.loop.committed := by
    rw [PacketQueue.contents, returned]
    exact leftBehind
  have enqueued := whole.delivered
  rw [destroyed] at enqueued
  have handedOn := PacketQueue.handsOn.received_eq_sent_iff whole.handler
    PacketQueue.started_sound rfl
  rw [contents, List.drop_eq_nil_iff, List.flatMap_assoc, List.flatMap_assoc] at handedOn
  have all : (first ++ .stop :: rest).flatMap
      (fun turn => turn.actions.flatMap PacketQueue.Action.enqueued) = segments :=
    (List.append_nil _).symm.trans enqueued
  rw [← handedOn, all]
  rfl

/-- When the thread is asked to stop, it has handled the first of two segments and has
just found the second one in the queue. -/
theorem import_complete_iff_two :
    let segments : List NanoPacket := [.sample [1], .sample [2]]
    let first : List Turn := .deliver (.sample [1]) :: List.replicate 7 (.processing .advance) ++
      [.processing (.handle (.sample [1])), .deliver (.sample [2]), .processing .handled,
        .processing .advance, .processing .advance]
    let rest : List Turn := List.replicate 3 (.processing .advance) ++
      .processing (.handle (.sample [2])) :: .processing .handled ::
        List.replicate 4 (.processing .advance) ++ [.join]
    ∃ before after, Run (launched segments) first before ∧ Run before (.stop :: rest) after ∧
      after.main = .destroyed ∧ before.handler.packetQueue = [.sample [2]] ∧
      (first ++ .stop :: rest).flatMap Turn.passed = segments := by
  intro segments first rest
  have analyzed : ((launched segments).performAll first).map (fun before =>
      (before.handler.packetQueue, before.handler.loop.committed)) =
        some ([.sample [2]], 1) := by decide +kernel
  obtain ⟨before, analyzes, outcome⟩ := Option.map_eq_some_iff.mp analyzed
  obtain ⟨queue, committed⟩ := Prod.mk.inj outcome
  have ended : (((launched segments).performAll first).bind fun before =>
      (before.performAll (.stop :: rest)).map fun after => after.main) = some .destroyed := by
    decide +kernel
  rw [analyzes, Option.bind_some] at ended
  obtain ⟨after, ends, destroyed⟩ := Option.map_eq_some_iff.mp ended
  have start : Run _ first before := .of_foldlM analyzes
  have finish : Run before (.stop :: rest) after := .of_foldlM ends
  refine ⟨before, after, start, finish, destroyed, queue,
    (import_complete_iff start finish destroyed).mpr ?_⟩
  rw [queue, committed]
  exact Nat.le_refl _

/-- `main` returns before the processing thread has looked at the queue. -/
theorem import_not_complete :
    ¬∀ (segments : List NanoPacket) (turns : List Turn) (after : App),
      Run (launched segments) turns after → after.main = .destroyed →
      turns.flatMap Turn.passed = segments := by
  intro complete
  have executed : ((launched [.sample [1]]).performAll
      [.deliver (.sample [1]), .stop, .processing .advance, .join]).map (fun after => after.main) =
      some .destroyed := by decide +kernel
  obtain ⟨after, performs, destroyed⟩ := Option.map_eq_some_iff.mp executed
  exact absurd (complete _ _ after (.of_foldlM performs) destroyed) (by decide)

end App

end Nanocap
