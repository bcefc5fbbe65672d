import Nanocap.PacketHandler.Parallel
import Nanocap.PacketHandler.Runs

/-! # Segments that wait

The callbacks act on the flows at once, while the segments delivered before still
wait in `packet_queue`. What a lagging processing thread records is compared with
what is recorded when every segment is handled upon its delivery. -/

namespace Nanocap

/-! ## Callbacks -/

namespace Event

def isCallback : Event → Bool
  | connectionStart _ | messageReady .. | connectionEnd _ => true
  | _ => false

def enqueued : Event → List NanoPacket
  | messageReady connection side data =>
      if data = [] ∨ hasMissingData data then [] else [connection.packet side data]
  | _ => []

theorem of_mem_enqueued {connection : ConnectionData} {side : Int} {data : List UInt8}
    {info : NanoPacket} (member : info ∈ (messageReady connection side data).enqueued) :
    info = connection.packet side data := by
  change info ∈ (if _ then _ else _) at member
  split at member
  · cases member
  · exact List.mem_singleton.mp member

def startKey : Event → Option UInt32
  | connectionStart connection => some connection.flowKey
  | _ => none

end Event

/-- The segment of each callback is handled before the next callback. -/
inductive PacketHandler.Immediate (env : Environment) :
    PacketHandler → List Event → PacketHandler → Prop where
  | nil (handler : PacketHandler) : Immediate env handler [] handler
  | cons {before delivered handled after : PacketHandler} {callback : Event}
      {callbacks : List Event} : Step env before callback delivered →
      Run env delivered (List.replicate delivered.packetQueue.length .handleNext) handled →
      Immediate env handled callbacks after → Immediate env before (callback :: callbacks) after

/-- No segment of a connection waits when the flow of the connection is reset. -/
def PacketHandler.ResetsIdle (handler : PacketHandler) : Event → Prop
  | .connectionStart connection =>
      (handler.connMgr connection.flowKey).isSome →
        ∀ info ∈ handler.packetQueue, info.flowKey ≠ connection.flowKey
  | _ => True

def PacketHandler.Always (env : Environment) (before : PacketHandler) (events : List Event)
    (meets : PacketHandler → Event → Prop) : Prop :=
  ∀ first event rest middle, events = first ++ event :: rest → Run env before first middle →
    meets middle event

variable {env : Environment}

theorem Run.keeps_always {meets : PacketHandler → Event → Prop} {kept : PacketHandler → Prop}
    (each : ∀ {before event after}, meets before event → Step env before event after →
      kept before → kept after) {before after : PacketHandler} {events : List Event}
    (run : Run env before events after) (always : before.Always env events meets)
    (start : kept before) : kept after := by
  induction run with
  | nil handler => exact start
  | @cons before middle _ event events step _ induction =>
      have first := each (always [] event events before rfl (.nil before)) step start
      refine induction ?_ first
      rintro earlier other rest reached rfl prior
      exact always (event :: earlier) other rest reached rfl (.cons step prior)

namespace PacketHandler

theorem Immediate.append {before middle after : PacketHandler} {first second : List Event}
    (start : Immediate env before first middle) (rest : Immediate env middle second after) :
    Immediate env before (first ++ second) after := by
  induction start with
  | nil handler => exact rest
  | cons step run _ induction => exact .cons step run (induction rest)

def performImmediately (env : Environment) (fuel : Nat) :
    PacketHandler → List Event → Option PacketHandler
  | handler, [] => some handler
  | handler, callback :: callbacks =>
      (handler.perform env fuel callback).bind fun delivered =>
        (delivered.performAll env fuel
          (List.replicate delivered.packetQueue.length .handleNext)).bind fun handled =>
            handled.performImmediately env fuel callbacks

private theorem Immediate.of_performImmediately {fuel : Nat} {before after : PacketHandler}
    {callbacks : List Event}
    (performs : before.performImmediately env fuel callbacks = some after) :
    Immediate env before callbacks after := by
  induction callbacks generalizing before with
  | nil => exact Option.some.inj performs ▸ .nil before
  | cons callback callbacks induction =>
      obtain ⟨delivered, first, performs⟩ := Option.bind_eq_some_iff.mp performs
      obtain ⟨handled, segments, rest⟩ := Option.bind_eq_some_iff.mp performs
      exact .cons (.of_perform first) (.of_performAll segments) (induction rest)

end PacketHandler

theorem Step.unique {before left right : PacketHandler} {event : Event}
    (noRestart : event ≠ .restart) (first : Step env before event left)
    (second : Step env before event right) : left = right := by
  cases first with
  | handleNext queue handled =>
      cases second with
      | handleNext queue' handled' =>
          cases queue.symm.trans queue'
          cases handled with
          | mk known handles => cases handled' with
            | mk known' handles' =>
                cases known.symm.trans known'
                rw [handles.unique handles']
  | restart durable => exact absurd rfl noRestart
  | _ =>
      cases second
      rfl

theorem Run.unique {before left right : PacketHandler} {events : List Event}
    (noRestart : .restart ∉ events) (first : Run env before events left)
    (second : Run env before events right) : left = right := by
  induction first with
  | nil handler =>
      cases second
      rfl
  | cons step run induction =>
      cases second with
      | cons step' run' =>
          simp only [List.mem_cons, not_or] at noRestart
          obtain rfl := step.unique (Ne.symm noRestart.1) step'
          exact induction noRestart.2 run'

namespace PacketHandler

theorem Immediate.unique {before left right : PacketHandler} {callbacks : List Event}
    (areCallbacks : ∀ callback ∈ callbacks, callback.isCallback = true)
    (first : Immediate env before callbacks left)
    (second : Immediate env before callbacks right) : left = right := by
  induction first with
  | nil handler =>
      cases second
      rfl
  | @cons _ _ _ _ callback _ step run _ induction =>
      cases second with
      | cons step' run' rest' =>
          have isCallback := areCallbacks callback (by simp)
          have noRestart : callback ≠ .restart := by
            rintro rfl
            cases isCallback
          obtain rfl := step.unique noRestart step'
          obtain rfl := run.unique (by simp) run'
          exact induction (fun callback member => areCallbacks callback (by simp [member])) rest'

def flowOf (handler : PacketHandler) (key : UInt32) : TcpFlowData :=
  (handler.connMgr key).getD .initial

theorem flowOf_setFlow (handler : PacketHandler) (key other : UInt32) (flow : TcpFlowData) :
    (handler.setFlow key flow).flowOf other =
      if other = key then flow else handler.flowOf other := by
  split
  · rename_i same
    rw [same, flowOf, setFlow_self]
    rfl
  · rename_i different
    rw [flowOf, setFlow_of_ne different]
    rfl

theorem flowOf_update (handler : PacketHandler) (key other : UInt32) (after : Handler) :
    (handler.update key after).flowOf other =
      if other = key then after.flow else handler.flowOf other :=
  flowOf_setFlow handler key other after.flow

section MessageReady

variable (handler : PacketHandler) (connection : ConnectionData) (side : Int)
  (data : List UInt8)

theorem messageReady_flowOf (key : UInt32) :
    (handler.messageReady connection side data).flowOf key = handler.flowOf key := by
  unfold messageReady
  split
  · rfl
  · cases present : handler.connMgr connection.flowKey with
    | some flow => dsimp only; split <;> rfl
    | none =>
        have added : (handler.setFlow connection.flowKey .initial).flowOf key =
            handler.flowOf key := by
          rw [flowOf_setFlow]
          split
          · rename_i same
            rw [same, flowOf, present]
            rfl
          · rfl
        dsimp only
        split <;> exact added

theorem messageReady_packetQueue :
    (handler.messageReady connection side data).packetQueue =
      handler.packetQueue ++ (Event.messageReady connection side data).enqueued := by
  unfold messageReady Event.enqueued
  by_cases empty : data = []
  · simp [empty]
  · rw [if_neg empty]
    cases handler.connMgr connection.flowKey <;>
      by_cases missing : hasMissingData data <;> simp [empty, missing, setFlow]

private theorem messageReady_known (some : data ≠ []) :
    (handler.messageReady connection side data).connMgr connection.flowKey =
      .some (handler.flowOf connection.flowKey) := by
  unfold messageReady flowOf
  rw [if_neg some]
  cases present : handler.connMgr connection.flowKey <;>
    by_cases missing : hasMissingData data <;> simp [missing, present]

end MessageReady

end PacketHandler

/-! ## Known flows -/

def PacketHandler.QueueKnown (handler : PacketHandler) : Prop :=
  ∀ info ∈ handler.packetQueue, (handler.connMgr info.flowKey).isSome

theorem PacketHandler.isSome_setFlow {handler : PacketHandler} {key other : UInt32}
    (flow : TcpFlowData) (known : (handler.connMgr other).isSome ∨ other = key) :
    ((handler.setFlow key flow).connMgr other).isSome := by
  by_cases same : other = key
  · rw [same, setFlow_self]
    rfl
  · rw [setFlow_of_ne same]
    exact known.resolve_right same

private theorem PacketHandler.messageReady_isSome {handler : PacketHandler} {key : UInt32}
    (connection : ConnectionData) (side : Int) (data : List UInt8)
    (known : (handler.connMgr key).isSome ∨ data ≠ [] ∧ key = connection.flowKey) :
    ((handler.messageReady connection side data).connMgr key).isSome := by
  unfold messageReady
  split
  · exact known.resolve_right fun both => both.1 ‹_›
  · cases present : handler.connMgr connection.flowKey with
    | some flow =>
        have there : (handler.connMgr key).isSome := by
          rcases known with known | ⟨-, rfl⟩
          · exact known
          · rw [present]
            rfl
        dsimp only
        split <;> exact there
    | none =>
        have there := isSome_setFlow .initial (known.imp_right And.right)
        dsimp only
        split <;> exact there

theorem Step.queueKnown {before after : PacketHandler} {event : Event}
    (neverFails : env.NeverFails) (ready : before.db.Ready) (step : Step env before event after)
    (known : before.QueueKnown) : after.QueueKnown := by
  cases step with
  | connectionStart connection =>
      rw [PacketHandler.connectionStart_eq neverFails ready]
      exact fun info waits => PacketHandler.isSome_setFlow _ (.inl (known info waits))
  | messageReady connection side data =>
      intro info waits
      rw [PacketHandler.messageReady_packetQueue] at waits
      refine PacketHandler.messageReady_isSome connection side data ?_
      rcases List.mem_append.mp waits with waits | delivered
      · exact .inl (known info waits)
      · simp only [Event.enqueued] at delivered
        split at delivered
        · cases delivered
        · rename_i queued
          rw [List.mem_singleton.mp delivered]
          exact .inr ⟨fun empty => queued (.inl empty), rfl⟩
  | connectionEnd connection =>
      rw [PacketHandler.connectionEnd_eq neverFails ready]
      exact fun info waits => known info waits
  | handleNext queue handled =>
      obtain ⟨present, -⟩ := handled
      intro info waits
      exact PacketHandler.isSome_setFlow _
        (.inl (known info (queue ▸ List.mem_cons_of_mem _ waits)))
  | flush =>
      rw [PacketHandler.callDb_flush neverFails ready]
      exact fun info waits => known info waits
  | destroyCaptureData =>
      rw [PacketHandler.callDb_destroyCaptureData neverFails ready]
      exact fun info waits => known info waits
  | restart durable => exact fun info waits => absurd waits List.not_mem_nil

/-! ## Callbacks without segments -/

def Resets (callbacks : List Event) (key : UInt32) : Prop :=
  some key ∈ callbacks.map Event.startKey

instance (callbacks : List Event) (key : UInt32) : Decidable (Resets callbacks key) :=
  inferInstanceAs (Decidable (some key ∈ _))

theorem resets_cons {callback : Event} {callbacks : List Event} {key : UInt32} :
    Resets (callback :: callbacks) key ↔ callback.startKey = some key ∨ Resets callbacks key := by
  simp [Resets, eq_comm]

theorem resets_append {first second : List Event} {key : UInt32} :
    Resets (first ++ second) key ↔ Resets first key ∨ Resets second key := by
  simp [Resets]

namespace PacketHandler

section Callback

variable (neverFails : env.NeverFails) {before after : PacketHandler} {callback : Event}
include neverFails

theorem callback_spec (isCallback : callback.isCallback = true) (ready : before.db.Ready)
    (step : Step env before callback after) :
    before.db.OnlyEvents after.db ∧
      after.packetQueue = before.packetQueue ++ callback.enqueued ∧
      ∀ key, after.flowOf key =
        if callback.startKey = some key then .initial else before.flowOf key := by
  cases step with
  | connectionStart connection =>
      rw [connectionStart_eq neverFails ready]
      refine ⟨Db.onlyEvents_store ready env _ _ _, (List.append_nil _).symm, fun key => ?_⟩
      rw [flowOf_setFlow]
      simp only [Event.startKey, Option.some.injEq, eq_comm]
      rfl
  | messageReady connection side data =>
      refine ⟨?_, messageReady_packetQueue .., fun key => messageReady_flowOf ..⟩
      rw [messageReady_db]
      exact .refl ready
  | connectionEnd connection =>
      rw [connectionEnd_eq neverFails ready]
      exact ⟨Db.onlyEvents_store ready env _ _ _, (List.append_nil _).symm, fun _ => rfl⟩
  | _ => cases isCallback

theorem immediate_of_no_segments {callbacks : List Event}
    (areCallbacks : ∀ callback ∈ callbacks, callback.isCallback = true)
    (noSegments : callbacks.flatMap Event.enqueued = []) (ready : before.db.Ready)
    (empty : before.packetQueue = []) :
    ∃ after, before.Immediate env callbacks after ∧ before.db.OnlyEvents after.db ∧
      after.packetQueue = [] ∧
      ∀ key, after.flowOf key = if Resets callbacks key then .initial else before.flowOf key := by
  induction callbacks generalizing before with
  | nil => exact ⟨before, .nil before, .refl ready, empty, fun key => rfl⟩
  | cons callback callbacks induction =>
      rw [List.flatMap_cons, List.append_eq_nil_iff] at noSegments
      have isCallback := areCallbacks callback (by simp)
      obtain ⟨middle, step⟩ : ∃ middle, Step env before callback middle := by
        cases callback with
        | connectionStart connection => exact ⟨_, .connectionStart before connection⟩
        | messageReady connection side data => exact ⟨_, .messageReady before connection side data⟩
        | connectionEnd connection => exact ⟨_, .connectionEnd before connection⟩
        | _ => cases isCallback
      obtain ⟨events, queue, flows⟩ := callback_spec neverFails isCallback ready step
      rw [empty, noSegments.1] at queue
      obtain ⟨after, immediate, more, queueAfter, flowsAfter⟩ := induction
        (fun other member => areCallbacks other (by simp [member])) noSegments.2 events.ready queue
      refine ⟨after, .cons step ?_ immediate, events.trans more, queueAfter, fun key => ?_⟩
      · rw [queue]
        exact .nil middle
      · rw [flowsAfter, flows, if_congr resets_cons rfl rfl]
        split <;> simp [*]

end Callback

end PacketHandler

/-! ## A lagging handler -/

/-- Of the callbacks the lagging handler has been through, the other one has still to
make up for `pending`, whose segments wait on the queue of the first. -/
structure Lags (old : List Row) (same : IdMatch) (lagging : PacketHandler)
    (pending : List Event) (settled : PacketHandler) : Prop where
  db : Db.Alike old old same lagging.db settled.db
  zero : same 0 0
  queue : lagging.packetQueue = pending.flatMap Event.enqueued
  known : lagging.QueueKnown
  settledQueue : settled.packetQueue = []
  flows : ∀ key, if Resets pending key then lagging.flowOf key = .initial
    else TcpFlowData.Alike same (lagging.flowOf key) (settled.flowOf key)
  /-- The segments of a connection come after its last reset. -/
  resets : ∀ first second key, pending = first ++ second → Resets second key →
    ∀ info ∈ first.flatMap Event.enqueued, info.flowKey ≠ key
  callbacks : ∀ callback ∈ pending, callback.isCallback = true

private theorem exists_delivery {callbacks : List Event} {info : NanoPacket}
    {rest : List NanoPacket} (queue : callbacks.flatMap Event.enqueued = info :: rest) :
    ∃ first connection side data last,
      callbacks = first ++ .messageReady connection side data :: last ∧
      first.flatMap Event.enqueued = [] ∧ last.flatMap Event.enqueued = rest ∧
      data ≠ [] ∧ (Event.messageReady connection side data).enqueued = [info] ∧
      info.flowKey = connection.flowKey := by
  induction callbacks with
  | nil => cases queue
  | cons callback callbacks induction =>
      by_cases nothing : callback.enqueued = []
      · rw [List.flatMap_cons, nothing] at queue
        obtain ⟨first, connection, side, data, last, rfl, before, rest⟩ := induction queue
        exact ⟨callback :: first, connection, side, data, last, rfl,
          by rw [List.flatMap_cons, nothing, before]; rfl, rest⟩
      · cases callback with
        | messageReady connection side data =>
            have kept : ¬(data = [] ∨ hasMissingData data) :=
              fun dropped => nothing (if_pos dropped)
            have enqueued : (Event.messageReady connection side data).enqueued =
                [connection.packet side data] := if_neg kept
            rw [List.flatMap_cons, enqueued] at queue
            obtain ⟨rfl, behind⟩ := List.cons.inj queue
            exact ⟨[], connection, side, data, callbacks, rfl, rfl, behind,
              fun empty => kept (.inl empty), enqueued, rfl⟩
        | _ => exact absurd rfl nothing

section Lags

variable (neverFails : env.NeverFails) {old : List Row} {same : IdMatch}
  {lagging settled after : PacketHandler} {pending : List Event}
include neverFails

theorem Lags.callback (lags : Lags old same lagging pending settled) {callback : Event}
    (isCallback : callback.isCallback = true) (idle : lagging.ResetsIdle callback)
    (step : Step env lagging callback after) :
    Lags old same after (pending ++ [callback]) settled := by
  obtain ⟨events, queue, flows⟩ :=
    PacketHandler.callback_spec neverFails isCallback lags.db.readyLeft step
  have last : ∀ key, Resets [callback] key ↔ callback.startKey = some key := by
    simp [Resets, eq_comm]
  refine ⟨lags.db.eventsLeft events, lags.zero, ?_, step.queueKnown neverFails lags.db.readyLeft
    lags.known, lags.settledQueue, fun key => ?_, ?_, ?_⟩
  · rw [queue, lags.queue]
    simp
  · have before := lags.flows key
    rw [flows]
    by_cases reset : callback.startKey = some key
    · rw [if_pos (resets_append.mpr (.inr ((last key).mpr reset))), if_pos reset]
    · have still : Resets (pending ++ [callback]) key ↔ Resets pending key := by
        rw [resets_append, last]
        exact or_iff_left reset
      rw [if_neg reset, if_congr still rfl rfl]
      exact before
  · intro first second key split reset info waits same
    obtain rfl | ⟨earlier, final, rfl⟩ := List.eq_nil_or_concat second
    · cases reset
    · rw [List.concat_eq_append, ← List.append_assoc] at split
      obtain ⟨shorter, rfl⟩ : pending = first ++ earlier ∧ callback = final := by
        simpa using List.append_inj' split rfl
      rw [List.concat_eq_append, resets_append, last] at reset
      rcases reset with before | now
      · exact lags.resets first earlier key shorter before info waits same
      · have queued : info ∈ lagging.packetQueue := by
          rw [lags.queue, shorter, List.flatMap_append]
          exact List.mem_append_left _ waits
        have known := lags.known info queued
        cases callback with
        | connectionStart connection =>
            cases now
            exact idle (same ▸ known) info queued same
        | _ => cases now
  · intro other member
    rcases List.mem_append.mp member with earlier | now
    · exact lags.callbacks other earlier
    · rw [List.mem_singleton.mp now]
      exact isCallback

/-- The lagging handler handles a segment, and the other one goes through the
callbacks up to the delivery of the segment. -/
theorem Lags.handleNext (lags : Lags old same lagging pending settled)
    (step : Step env lagging .handleNext after) :
    ∃ first last next more, pending = first ++ last ∧ settled.Immediate env first next ∧
      Lags old more after last next := by
  have knownAfter := step.queueKnown neverFails lags.db.readyLeft lags.known
  cases step with
  | @handleNext _ info rest queue handled =>
  cases handled with
  | @mk flow handlerAfter present handles =>
  rw [lags.queue] at queue
  obtain ⟨first, connection, side, data, last, rfl, nothing, behind, some, enqueued, key⟩ :=
    exists_delivery queue
  have areCallbacks := lags.callbacks
  -- the other handler makes up for what came before the delivery
  obtain ⟨middle, immediate, events, middleQueue, middleFlows⟩ :=
    PacketHandler.immediate_of_no_segments neverFails
      (fun callback member => areCallbacks callback (List.mem_append_left _ member)) nothing
      lags.db.readyRight lags.settledQueue
  -- and for the delivery
  let delivered := middle.messageReady connection side data
  have deliveredQueue : delivered.packetQueue = [info] := by
    rw [PacketHandler.messageReady_packetQueue, middleQueue, enqueued]
    rfl
  have deliveredKnown : delivered.connMgr info.flowKey = .some (middle.flowOf info.flowKey) :=
    key ▸ middle.messageReady_known connection side data some
  have noReset : ¬Resets last info.flowKey := fun reset =>
    lags.resets (first ++ [.messageReady connection side data]) last info.flowKey
      (by simp) reset info (by simp [enqueued]) rfl
  have resets : ∀ key, Resets (first ++ .messageReady connection side data :: last) key ↔
      Resets first key ∨ Resets last key := by
    intro key
    rw [resets_append, resets_cons]
    simp [Event.startKey]
  have flows : ∀ key, ¬Resets last key →
      TcpFlowData.Alike same (lagging.flowOf key) (middle.flowOf key) := by
    intro key noReset
    have before := lags.flows key
    rw [if_congr ((resets key).trans (or_iff_left noReset)) rfl rfl] at before
    rw [middleFlows]
    split
    · rename_i reset
      rw [if_pos reset] at before
      rw [before]
      exact TcpFlowData.alike_reset lags.zero .invalid
    · rename_i kept
      rwa [if_neg kept] at before
  have start : World.Alike old old same ⟨lagging.db, flow⟩
      ⟨delivered.db, middle.flowOf info.flowKey⟩ := by
    refine ⟨?_, ?_, lags.zero⟩
    · rw [PacketHandler.messageReady_db]
      exact lags.db.eventsRight events
    · have known : lagging.flowOf info.flowKey = flow := by
        rw [PacketHandler.flowOf]
        exact congrArg (Option.getD · .initial) present
      exact known ▸ flows info.flowKey noReset
  obtain ⟨nextAfter, more, grows, nextHandles, alike⟩ := @Handles.alike env neverFails info old old
    same (lagging.view flow) (delivered.view (middle.flowOf info.flowKey)) handlerAfter start
    handles
  refine ⟨first ++ [.messageReady connection side data], last,
    { delivered with packetQueue := [] }.update info.flowKey nextAfter, more, by simp, ?_, ?_⟩
  · refine immediate.append (.cons (.messageReady middle connection side data) ?_ (.nil _))
    rw [deliveredQueue]
    exact .cons (.handleNext deliveredQueue (.mk deliveredKnown nextHandles)) (.nil _)
  · refine ⟨alike.db, alike.zero, behind.symm, knownAfter, rfl, fun key => ?_, ?_, ?_⟩
    · rw [PacketHandler.flowOf_update, PacketHandler.flowOf_update]
      by_cases own : key = info.flowKey
      · rw [if_neg (own ▸ noReset), if_pos own, if_pos own]
        exact alike.flow
      · rw [if_neg own, if_neg own]
        split
        · rename_i reset
          have before := lags.flows key
          rwa [if_pos ((resets key).mpr (.inr reset))] at before
        · rename_i kept
          have unchanged := middle.messageReady_flowOf connection side data key
          exact unchanged.symm ▸ (flows key kept).mono grows
    · rintro earlier later key rfl reset other waits
      refine lags.resets (first ++ .messageReady connection side data :: earlier) later key
        (by simp) reset other ?_
      rw [List.flatMap_append, List.flatMap_cons]
      exact List.mem_append_right _ (List.mem_append_right _ waits)
    · exact fun callback member =>
        areCallbacks callback (List.mem_append_right _ (List.mem_cons_of_mem _ member))

/-- A lagging handler that goes on to the end, and the callbacks it goes through on
the way. -/
theorem Lags.run {events : List Event} (run : Run env lagging events after)
    (allowed : ∀ event ∈ events, event.isCallback = true ∨ event = .handleNext)
    (idle : lagging.Always env events PacketHandler.ResetsIdle)
    (lags : Lags old same lagging pending settled) :
    ∃ first last next more,
      pending ++ events.filter Event.isCallback = first ++ last ∧
      settled.Immediate env first next ∧ Lags old more after last next := by
  induction run generalizing same pending settled with
  | nil handler => exact ⟨[], pending, settled, same, by simp, .nil settled, lags⟩
  | @cons before middle _ event events step run induction =>
      have idleNow := idle [] event events before rfl (.nil before)
      have idleLater : middle.Always env events PacketHandler.ResetsIdle := by
        rintro first other rest reached rfl prior
        exact idle (event :: first) other rest reached rfl (.cons step prior)
      have allowedLater : ∀ other ∈ events, other.isCallback = true ∨ other = .handleNext :=
        fun other member => allowed other (by simp [member])
      rcases allowed event (by simp) with isCallback | rfl
      · obtain ⟨first, last, next, more, split, immediate, lags⟩ := induction allowedLater idleLater
          (lags.callback neverFails isCallback idleNow step)
        refine ⟨first, last, next, more, ?_, immediate, lags⟩
        rw [List.filter_cons_of_pos isCallback, ← split, List.append_assoc]
        rfl
      · obtain ⟨first, last, next, more, rfl, immediate, lags⟩ := lags.handleNext neverFails step
        obtain ⟨later, rest, final, most, split, others, lags⟩ :=
          induction allowedLater idleLater lags
        refine ⟨first ++ later, rest, final, most, ?_, immediate.append others, lags⟩
        rw [List.filter_cons_of_neg (by simp [Event.isCallback]), List.append_assoc, split,
          List.append_assoc]

end Lags

def PacketHandler.recorded (durable : Contents) (handler : PacketHandler) : List Row :=
  dataRows (handler.db.contents.rows.drop durable.rows.length)

/-- If no flow is reset while segments of it wait, the rows recorded are those of
the schedule that handles every segment upon its delivery. -/
theorem queueing_harmless (neverFails : env.NeverFails) {durable : Contents}
    {events : List Event} {after : PacketHandler}
    (run : Run env (.opened durable) events after)
    (allowed : ∀ event ∈ events, event.isCallback = true ∨ event = .handleNext)
    (idle : (PacketHandler.opened durable).Always env events PacketHandler.ResetsIdle)
    (drained : after.packetQueue = []) :
    ∃ settled,
      (∀ other, (PacketHandler.opened durable).Immediate env (events.filter Event.isCallback)
        other ↔ other = settled) ∧
      ∃ same : IdMatch, same.OneToOne ∧
        List.Forall₂ (Row.Alike same) (after.recorded durable) (settled.recorded durable) := by
  have start : Lags durable.rows (fun a b => a = 0 ∧ b = 0) (.opened durable) []
      (.opened durable) := by
    refine ⟨Db.opened_alike durable durable, ⟨rfl, rfl⟩, rfl,
      fun info waits => absurd waits List.not_mem_nil, rfl,
      fun key => TcpFlowData.alike_reset ⟨rfl, rfl⟩ .invalid, ?_, by simp⟩
    rintro first second key split reset
    rw [(List.append_eq_nil_iff.mp split.symm).2] at reset
    cases reset
  obtain ⟨first, last, next, more, split, immediate, lags⟩ :=
    start.run neverFails run allowed idle
  -- nothing waits any more
  have noSegments : last.flatMap Event.enqueued = [] := lags.queue.symm.trans drained
  obtain ⟨settled, rest, onlyEvents, -, -⟩ := PacketHandler.immediate_of_no_segments neverFails
    lags.callbacks noSegments lags.db.readyRight lags.settledQueue
  have whole : (PacketHandler.opened durable).Immediate env (events.filter Event.isCallback)
      settled := by
    rw [List.nil_append] at split
    rw [split]
    exact immediate.append rest
  refine ⟨settled, fun other => ⟨fun schedule => ?_, fun same => same ▸ whole⟩, more,
    lags.db.oneToOne, ?_⟩
  · exact schedule.unique (fun callback member => (List.mem_filter.mp member).2) whole
  · obtain ⟨newLeft, newRight, rowsLeft, rowsRight, rows⟩ :=
      (lags.db.eventsRight onlyEvents).rows
    rw [PacketHandler.recorded, PacketHandler.recorded, rowsLeft, rowsRight, List.drop_left,
      List.drop_left]
    exact rows

def pushBytes : List UInt8 := (MessageHeader.sample .bulkPush 0).wire ++ [1]

def telemetryBytes : List UInt8 := (MessageHeader.sample .telemetryReq 0).wire

/-- Two segments are handled after the connection has ended. -/
theorem queueing_harmless_two :
    ∃ settled,
      (∀ other, (PacketHandler.opened .empty).Immediate .sample
        [.connectionStart .sample, .messageReady .sample 0 pushBytes,
          .messageReady .sample 0 telemetryBytes, .connectionEnd .sample] other ↔
        other = settled) ∧
      ∃ after same, IdMatch.OneToOne same ∧
        List.Forall₂ (Row.Alike same) (PacketHandler.recorded .empty after)
          (settled.recorded .empty) := by
  have callbacks : ∀ event ∈ ([.connectionStart .sample, .messageReady .sample 0 pushBytes,
      .messageReady .sample 0 telemetryBytes, .connectionEnd .sample, .handleNext, .handleNext] :
      List Event), event.isCallback = true ∨ event = .handleNext := by
    simp [Event.isCallback]
  have executed : ((PacketHandler.opened .empty).performAll .sample 20
      [.connectionStart .sample, .messageReady .sample 0 pushBytes,
        .messageReady .sample 0 telemetryBytes, .connectionEnd .sample, .handleNext,
        .handleNext]).map (fun after => after.packetQueue) = some [] := by decide +kernel
  obtain ⟨after, performs, drained⟩ := Option.map_eq_some_iff.mp executed
  have idle : (PacketHandler.opened .empty).Always .sample
      [.connectionStart .sample, .messageReady .sample 0 pushBytes,
        .messageReady .sample 0 telemetryBytes, .connectionEnd .sample, .handleNext,
        .handleNext] PacketHandler.ResetsIdle := by
    intro first event rest middle split prior
    cases first with
    | nil =>
        cases split
        cases prior
        exact fun known => absurd known (by simp [PacketHandler.opened])
    | cons other first =>
        have later : event ∈ ([.messageReady .sample 0 pushBytes,
            .messageReady .sample 0 telemetryBytes, .connectionEnd .sample, .handleNext,
            .handleNext] : List Event) := by
          rw [(List.cons.inj split).2]
          simp
        cases event with
        | connectionStart connection => simp at later
        | _ => trivial
  obtain ⟨settled, schedule, same, oneToOne, rows⟩ := queueing_harmless
    Environment.sample_neverFails (.of_performAll performs) callbacks idle drained
  exact ⟨settled, schedule, after, same, oneToOne, rows⟩

/-- A connection is started again while the telemetry_req waits, so that it is
recorded as a message instead of read as entries. -/
theorem queueing_not_harmless :
    ¬∀ (env : Environment) (durable : Contents) (events : List Event)
      (after settled : PacketHandler), env.NeverFails → Run env (.opened durable) events after →
      (∀ event ∈ events, event.isCallback = true ∨ event = .handleNext) →
      after.packetQueue = [] →
      (PacketHandler.opened durable).Immediate env (events.filter Event.isCallback) settled →
      ∃ same : IdMatch, List.Forall₂ (Row.Alike same) (after.recorded durable)
        (settled.recorded durable) := by
  intro harmless
  have lagging : ((PacketHandler.opened .empty).performAll .sample 20
      [.messageReady .sample 0 pushBytes, .handleNext, .messageReady .sample 0 telemetryBytes,
        .connectionStart .sample, .handleNext]).map
      (fun after => (after.packetQueue, (after.recorded .empty).length)) = some ([], 2) := by
    decide +kernel
  have immediate : ((PacketHandler.opened .empty).performImmediately .sample 20
      [.messageReady .sample 0 pushBytes, .messageReady .sample 0 telemetryBytes,
        .connectionStart .sample]).map
      (fun settled => (settled.recorded .empty).length) = some 1 := by
    decide +kernel
  obtain ⟨after, performs, ends⟩ := Option.map_eq_some_iff.mp lagging
  obtain ⟨drained, two⟩ := Prod.mk.inj ends
  obtain ⟨settled, settles, one⟩ := Option.map_eq_some_iff.mp immediate
  obtain ⟨same, rows⟩ := harmless .sample .empty _ after settled Environment.sample_neverFails
    (.of_performAll performs) (by simp [Event.isCallback]) drained
    (.of_performImmediately settles)
  have lengths := rows.length_eq
  rw [two, one] at lengths
  exact absurd lengths (by decide)

end Nanocap
