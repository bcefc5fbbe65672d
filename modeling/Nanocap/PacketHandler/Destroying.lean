import Nanocap.PacketHandler.ParentReferences
import Nanocap.PacketHandler.Queueing

/-! # Destroying captured data while segments wait

A destroy request empties the tables of the database. Segments on the queue or in
hand, and flows that wait for a response, are left as they are. -/

namespace Nanocap

/-! ## Turns of the threads -/

/-- What the threads do. A destroy request stops the capture if there is one,
destroys the data and starts the capture again; the other threads go on. -/
inductive Turn where
  | callback (event : Event)
  /-- The processing thread takes the front of the queue. -/
  | take
  | handle
  | stopCapture
  | startCapture
  | destroyCaptureData
deriving DecidableEq

structure Machine where
  handler : PacketHandler
  /-- The segment taken from the queue and not handled yet. -/
  inHand : Option NanoPacket
  /-- Of the segment in hand and those on the queue: delivered since the data were
  destroyed last? -/
  late : List Bool
  /-- Of the rows: from a delivery since? -/
  origins : List Bool

namespace Machine

def opened (durable : Contents) : Machine where
  handler := .opened durable
  inHand := none
  late := []
  origins := durable.rows.map fun _ => false

end Machine

/-- The number of rows a callback or a call of `handle_tcp` adds. -/
def PacketHandler.added (before after : PacketHandler) : Nat :=
  after.db.contents.rows.length - before.db.contents.rows.length

inductive Machine.Step (env : Environment) (before : Machine) : Turn → Machine → Prop where
  | callback {event : Event} {after : PacketHandler} : event.isCallback = true →
      Nanocap.Step env before.handler event after →
      Step env before (.callback event)
        { before with
          handler := after
          late := before.late ++ event.enqueued.map fun _ => true
          origins := before.origins ++ List.replicate (before.handler.added after) true }
  | take {info : NanoPacket} {rest : List NanoPacket} : before.inHand = none →
      before.handler.packetQueue = info :: rest →
      Step env before .take
        { before with handler.packetQueue := rest, inHand := some info }
  | handle {info : NanoPacket} {after : PacketHandler} : before.inHand = some info →
      before.handler.Handled env info after →
      Step env before .handle
        { handler := after
          inHand := none
          late := before.late.tail
          origins := before.origins ++
            List.replicate (before.handler.added after) (before.late.headD false) }
  | stopCapture : Step env before .stopCapture { before with handler.dev := none }
  | startCapture :
      Step env before .startCapture { before with handler.dev := some { capturing := true } }
  | destroyCaptureData {after : PacketHandler} :
      Nanocap.Step env before.handler .destroyCaptureData after →
      Step env before .destroyCaptureData
        { before with
          handler := after
          late := before.late.map fun _ => false
          origins := after.db.contents.rows.map fun _ => false }

inductive Machine.Run (env : Environment) : Machine → List Turn → Machine → Prop where
  | nil (machine : Machine) : Run env machine [] machine
  | cons {before middle after : Machine} {turn : Turn} {turns : List Turn} :
      Machine.Step env before turn middle → Run env middle turns after →
      Run env before (turn :: turns) after

/-! ## Execution -/

namespace Machine

section

variable (env : Environment) (fuel : Nat)

/-- `none` when the turn is not possible, or the fuel runs out. -/
def perform (machine : Machine) : Turn → Option Machine
  | .callback event =>
      if event.isCallback then
        (machine.handler.perform env fuel event).map fun after =>
          { machine with
            handler := after
            late := machine.late ++ event.enqueued.map fun _ => true
            origins := machine.origins ++ List.replicate (machine.handler.added after) true }
      else none
  | .take =>
      match machine.inHand, machine.handler.packetQueue with
      | none, info :: rest =>
          some { machine with handler.packetQueue := rest, inHand := some info }
      | _, _ => none
  | .handle =>
      machine.inHand.bind fun info =>
        (machine.handler.connMgr info.flowKey).bind fun flow =>
          (handleTcp env fuel info (machine.handler.view flow)).map fun handled =>
            let after := machine.handler.update info.flowKey handled
            { handler := after
              inHand := none
              late := machine.late.tail
              origins := machine.origins ++
                List.replicate (machine.handler.added after) (machine.late.headD false) }
  | .stopCapture => some { machine with handler.dev := none }
  | .startCapture => some { machine with handler.dev := some { capturing := true } }
  | .destroyCaptureData =>
      let after := machine.handler.callDb env Nanocap.destroyCaptureData
      some { machine with
        handler := after
        late := machine.late.map fun _ => false
        origins := after.db.contents.rows.map fun _ => false }

def performAll : Machine → List Turn → Option Machine
  | machine, [] => some machine
  | machine, turn :: turns =>
      (machine.perform env fuel turn).bind fun next => next.performAll turns

end

variable {env : Environment} {fuel : Nat}

theorem Step.of_perform {before after : Machine} {turn : Turn}
    (performs : before.perform env fuel turn = some after) : Step env before turn after := by
  cases turn with
  | callback event =>
      dsimp only [perform] at performs
      split at performs
      · rename_i isCallback
        obtain ⟨handler, delivers, rfl⟩ := Option.map_eq_some_iff.mp performs
        exact .callback isCallback (.of_perform delivers)
      · cases performs
  | take =>
      dsimp only [perform] at performs
      split at performs
      · rename_i info rest free queue
        exact Option.some.inj performs ▸ .take free queue
      · cases performs
  | handle =>
      obtain ⟨info, present, performs⟩ := Option.bind_eq_some_iff.mp performs
      obtain ⟨flow, known, performs⟩ := Option.bind_eq_some_iff.mp performs
      obtain ⟨handled, handles, rfl⟩ := Option.map_eq_some_iff.mp performs
      exact .handle present (.mk known ⟨fuel, handles⟩)
  | stopCapture => exact Option.some.inj performs ▸ .stopCapture
  | startCapture => exact Option.some.inj performs ▸ .startCapture
  | destroyCaptureData =>
      exact Option.some.inj performs ▸ .destroyCaptureData (.destroyCaptureData before.handler)

theorem Run.of_performAll {before after : Machine} {turns : List Turn}
    (performs : before.performAll env fuel turns = some after) : Run env before turns after := by
  induction turns generalizing before with
  | nil => exact Option.some.inj performs ▸ .nil before
  | cons turn turns induction =>
      obtain ⟨middle, first, rest⟩ := Option.bind_eq_some_iff.mp performs
      exact .cons (.of_perform first) (induction rest)

/-! ## Destroying while everything is quiet -/

/-- Nothing waits, nothing is being handled, and no flow waits for a response. -/
structure Quiet (machine : Machine) : Prop where
  queue : machine.handler.packetQueue = []
  inHand : machine.inHand = none
  flows : ∀ key flow, machine.handler.connMgr key = some flow →
    flow.currentMsgType ∉ bootstrapModes

def DestroysQuiet (env : Environment) (before : Machine) (turns : List Turn) : Prop :=
  ∀ first rest middle, turns = first ++ .destroyCaptureData :: rest →
    Run env before first middle → middle.Quiet

def Marked (machine : Machine) : Prop :=
  machine.late.length = machine.inHand.toList.length + machine.handler.packetQueue.length

/-- Everything that is there or will come of what is there is late. -/
structure Clean (old : List Contents) (machine : Machine) : Prop where
  attached : machine.handler.Attached old
  late : ∀ mark ∈ machine.late, mark = true
  origins : machine.origins = machine.handler.db.contents.rows.map fun _ => true

theorem Clean.added {old : List Contents} {machine : Machine} (clean : machine.Clean old)
    {after : PacketHandler}
    (rows : machine.handler.db.contents.rows <+: after.db.contents.rows) :
    machine.origins ++ List.replicate (machine.handler.added after) true =
      after.db.contents.rows.map fun _ => true := by
  obtain ⟨added, rows⟩ := rows
  rw [clean.origins, PacketHandler.added, ← rows]
  simp

section Steps

variable (neverFails : env.NeverFails) {before after : Machine} {turn : Turn}
  (ready : before.handler.db.Ready) (step : Step env before turn after)
include neverFails ready step

theorem Step.ready_after : after.handler.db.Ready := by
  cases step with
  | callback isCallback step => exact step.ready neverFails ready
  | take => exact ready
  | handle present handled =>
      obtain ⟨flow, world, -, delivery, db, -⟩ := handled.delivery neverFails ready
      rw [db]
      exact delivery.ready ready
  | stopCapture => exact ready
  | startCapture => exact ready
  | destroyCaptureData step => exact step.ready neverFails ready

theorem Step.marked (marked : before.Marked) : after.Marked := by
  unfold Marked at marked ⊢
  cases step with
  | callback isCallback step =>
      obtain ⟨-, queue, -⟩ := PacketHandler.callback_spec neverFails isCallback ready step
      rw [queue, List.length_append, List.length_append, List.length_map, marked, Nat.add_assoc]
  | take free queue =>
      rw [free, queue] at marked
      simp only [marked, Option.toList, List.length_cons, List.length_nil]
      omega
  | handle present handled =>
      obtain ⟨known, handles⟩ := handled
      rw [present] at marked
      rw [List.length_tail, marked]
      simp [PacketHandler.update]
  | stopCapture => exact marked
  | startCapture => exact marked
  | destroyCaptureData step =>
      cases step
      rw [PacketHandler.callDb_destroyCaptureData neverFails ready, List.length_map]
      exact marked

theorem Step.clean {old : List Contents} (marked : before.Marked) (clean : before.Clean old)
    (noDestroy : turn ≠ .destroyCaptureData) : after.Clean old := by
  cases step with
  | @callback event after isCallback step =>
      obtain ⟨events, -, -⟩ := PacketHandler.callback_spec neverFails isCallback ready step
      obtain ⟨added, rows, -⟩ := events.rows
      refine ⟨step.attached neverFails ready clean.attached ?_ ?_, fun mark member => ?_,
        clean.added ⟨added, rows.symm⟩⟩
      · rintro rfl
        cases isCallback
      · rintro rfl
        cases isCallback
      · rcases List.mem_append.mp member with earlier | delivered
        · exact clean.late mark earlier
        · obtain ⟨info, -, rfl⟩ := List.mem_map.mp delivered
          rfl
  | take free queue =>
      exact ⟨⟨clean.attached.db, clean.attached.flows⟩, clean.late, clean.origins⟩
  | handle present handled =>
      refine ⟨handled.attached neverFails ready clean.attached,
        fun mark member => clean.late mark (List.mem_of_mem_tail member), ?_⟩
      obtain ⟨flow, world, -, delivery, db, -⟩ := handled.delivery neverFails ready
      have isLate : before.late.headD false = true := by
        cases marks : before.late with
        | nil =>
            rw [Marked, marks, present] at marked
            simp only [List.length_nil, Option.toList, List.length_cons] at marked
            omega
        | cons mark rest => exact clean.late mark (by simp [marks])
      rw [isLate]
      exact clean.added (db ▸ delivery.rows)
  | stopCapture => exact ⟨⟨clean.attached.db, clean.attached.flows⟩, clean.late, clean.origins⟩
  | startCapture =>
      exact ⟨⟨clean.attached.db, clean.attached.flows⟩, clean.late, clean.origins⟩
  | destroyCaptureData => exact absurd rfl noDestroy

end Steps

/-- Data destroyed while everything is quiet leave nothing behind. -/
theorem Step.clean_destroyed (neverFails : env.NeverFails) {before after : Machine}
    (ready : before.handler.db.Ready) (step : Step env before .destroyCaptureData after)
    (marked : before.Marked) (quiet : before.Quiet) :
    after.Clean after.handler.db.committed := by
  cases step with
  | destroyCaptureData step =>
      cases step
      rw [PacketHandler.callDb_destroyCaptureData neverFails ready]
      have empty : before.handler.db.destroyed.contents.rows = [] := by
        rw [Db.destroyed_contents]
      refine ⟨⟨⟨?_, fun snapshot member => .inl member⟩, fun key flow known => ?_⟩, ?_, ?_⟩
      · rw [empty]
        exact fun row member => absurd member List.not_mem_nil
      · exact TcpFlowData.attached_of_notMem (quiet.flows key flow known) _
      · rw [Marked, quiet.queue, quiet.inHand] at marked
        rw [List.eq_nil_of_length_eq_zero marked]
        exact fun mark member => absurd member List.not_mem_nil
      · rw [empty]
        rfl

namespace Run

variable (neverFails : env.NeverFails) {before after : Machine} {turns : List Turn}
  (run : Run env before turns after) (start : before.handler.db.Ready)
include neverFails run start

theorem ready : after.handler.db.Ready := by
  induction run with
  | nil machine => exact start
  | cons step _ induction => exact induction (step.ready_after neverFails start)

theorem marked (marks : before.Marked) : after.Marked := by
  induction run with
  | nil machine => exact marks
  | cons step _ induction =>
      exact induction (step.ready_after neverFails start) (step.marked neverFails start marks)

theorem clean (marks : before.Marked) (quiet : before.DestroysQuiet env turns)
    (clean : ∃ old, before.Clean old) : ∃ old, after.Clean old := by
  induction run with
  | nil machine => exact clean
  | @cons before middle after turn turns step _ induction =>
      have later : middle.DestroysQuiet env turns := fun first rest other split reached =>
        quiet (turn :: first) rest other (by rw [split]; rfl) (.cons step reached)
      apply induction (step.ready_after neverFails start) (step.marked neverFails start marks) later
      by_cases destroys : turn = .destroyCaptureData
      · subst destroys
        have quietNow : before.Quiet := quiet [] turns before rfl (.nil before)
        exact ⟨_, step.clean_destroyed neverFails start marks quietNow⟩
      · obtain ⟨old, clean⟩ := clean
        exact ⟨old, step.clean neverFails start marks clean destroys⟩

end Run

private theorem opened_marked (durable : Contents) : (opened durable).Marked := rfl

/-- When the data are only destroyed while everything is quiet, every row there is
afterwards comes from what was delivered since, and none refers to a destroyed one. -/
theorem destroy_complete (neverFails : env.NeverFails) {durable : Contents}
    {turns continuation : List Turn} {before after : Machine}
    (reached : Run env (opened durable) turns before)
    (run : Run env before (.destroyCaptureData :: continuation) after)
    (quiet : before.DestroysQuiet env (.destroyCaptureData :: continuation)) :
    (after.origins = after.handler.db.contents.rows.map fun _ => true) ∧
      ParentsResolve after.handler.db.contents.rows := by
  have ready := reached.ready neverFails (Db.opened_ready durable)
  have marked := reached.marked neverFails (Db.opened_ready durable) (opened_marked durable)
  cases run with
  | @cons _ destroyed _ _ _ step continues =>
      have clean := step.clean_destroyed neverFails ready marked
        (quiet [] _ before rfl (.nil before))
      have later : destroyed.DestroysQuiet env continuation := fun first rest other split prior =>
        quiet (.destroyCaptureData :: first) rest other (by rw [split]; rfl) (.cons step prior)
      obtain ⟨old, clean⟩ := continues.clean neverFails (step.ready_after neverFails ready)
        (step.marked neverFails ready marked) later ⟨_, clean⟩
      exact ⟨clean.origins, clean.attached.db.contents⟩

/-- The events of a connection are destroyed before a telemetry_req is delivered and
handled. -/
theorem destroy_complete_telemetry :
    let events : List Turn :=
      [.callback (.connectionStart .sample), .callback (.connectionEnd .sample)]
    ∃ before after, Run .sample (opened .empty) events before ∧
      before.handler.db.contents.rows.length = 2 ∧
      Run .sample before
        [.destroyCaptureData, .callback (.messageReady .sample 0 telemetryBytes), .take, .handle]
        after ∧
      after.origins = [true] ∧ ParentsResolve after.handler.db.contents.rows := by
  intro events
  have neverFails := Environment.sample_neverFails
  let continuation : List Turn :=
    [.destroyCaptureData, .callback (.messageReady .sample 0 telemetryBytes), .take, .handle]
  have executed : ((opened .empty).performAll .sample 20 events).bind (fun before =>
      (before.performAll .sample 20 continuation).map fun after =>
        (before.handler.db.contents.rows.length, after.origins)) = some (2, [true]) := by
    decide +kernel
  obtain ⟨before, performs, executed⟩ := Option.bind_eq_some_iff.mp executed
  obtain ⟨after, continues, outcome⟩ := Option.map_eq_some_iff.mp executed
  obtain ⟨rows, origins⟩ := Prod.mk.inj outcome
  have reached := Run.of_performAll performs
  have run := Run.of_performAll continues
  have quiet : before.Quiet := by
    cases performs
    refine ⟨rfl, rfl, fun key flow known => ?_⟩
    change ((PacketHandler.opened .empty).connectionStart .sample .sample).connMgr key =
      some flow at known
    rw [PacketHandler.connectionStart_eq neverFails (Db.opened_ready .empty)] at known
    by_cases same : key = ConnectionData.sample.flowKey
    · rw [same, PacketHandler.setFlow_self] at known
      exact Option.some.inj known ▸ by decide
    · rw [PacketHandler.setFlow_of_ne same] at known
      cases known
  refine ⟨before, after, reached, rows, run, origins, ?_⟩
  refine (destroy_complete neverFails reached run fun first rest middle split prior => ?_).2
  cases first with
  | nil =>
      cases prior
      exact quiet
  | cons turn first =>
      have later : Turn.destroyCaptureData ∈
          [.callback (.messageReady .sample 0 telemetryBytes), .take, .handle] := by
        rw [(List.cons.inj split).2]
        simp
      simp at later

/-- A telemetry_req that waits while the data are destroyed is recorded afterwards. -/
theorem destroy_not_complete :
    ¬∀ (env : Environment) (durable : Contents) (turns continuation : List Turn)
      (before after : Machine), env.NeverFails → Run env (opened durable) turns before →
      Run env before (.destroyCaptureData :: continuation) after →
      (∀ mark ∈ after.origins, mark = true) ∧ ParentsResolve after.handler.db.contents.rows := by
  intro complete
  have delivered : ((opened .empty).performAll .sample 20
      [.callback (.messageReady .sample 0 telemetryBytes)]).isSome = true := by decide +kernel
  obtain ⟨before, delivers⟩ := Option.isSome_iff_exists.mp delivered
  have continued : ((opened .empty).performAll .sample 20
      [.callback (.messageReady .sample 0 telemetryBytes)]).bind (fun before =>
        (before.performAll .sample 20 [.destroyCaptureData, .take, .handle]).map
          fun after => after.origins) = some [false] := by decide +kernel
  rw [delivers, Option.bind_some] at continued
  obtain ⟨after, continues, origins⟩ := Option.map_eq_some_iff.mp continued
  obtain ⟨allLate, -⟩ := complete .sample .empty _ _ before after Environment.sample_neverFails
    (.of_performAll delivers) (.of_performAll continues)
  exact absurd (allLate false (by simp [origins])) Bool.false_ne_true

end Machine

end Nanocap
