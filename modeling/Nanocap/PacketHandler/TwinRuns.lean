import Nanocap.Database.Containment
import Nanocap.PacketHandler.Queueing
import Nanocap.PacketHandler.Refusals

/-! # Runs with and without failures

Two runs of the same events, of which no statement is refused. Segments that fail are
handled in one of them only, and what they leave behind makes no difference. -/

namespace Nanocap

/-! ## Messages that fail in the check -/

section Messages

variable (env : Environment) (refuses : Nat → Bool) (info : NanoPacket)

def Handling.attempt (handling : Handling) : Attempt where
  request := handling.request
  info := info
  flow := handling.flow
  refuses := refuses

/-- The message is no bootstrap request, its connection event is accepted, and of the
message itself at most the `COMMIT` or a `PRAGMA` of the periodic check is refused. -/
structure Handling.Harmless (handling : Handling) (db : Db) : Prop where
  mode : handling.flow.currentMsgType ∉ bootstrapModes
  event : env.config.connectionDetails = true → refuses db.executed = false
  put : (handling.attempt refuses info).Harmless env (handling.announced env info db).db

/-- If a statement of the next segment is refused, the segment is one message that is
harmless. -/
def PacketHandler.Harmless (handler : PacketHandler) : Prop :=
  ∀ info rest, handler.packetQueue = info :: rest →
    (handler.flowOf info.flowKey).currentMsgType ∉ bootstrapModes ∧
      ∀ nano stop handling, Nano.read (.ofBytes info.data) = .ok nano stop →
        nano.handling = some handling → handling.Harmless env refuses info handler.db

end Messages

/-- What a harmless failure leaves behind: connection events and commits, and a flow
that is in none of the bootstrap modes. -/
structure PacketHandler.Unharmed (before after : PacketHandler) : Prop where
  db : ∃ announced, before.db.OnlyEvents announced ∧ announced.Untouched after.db
  counted : before.db.Counted → after.db.Counted
  flows : ∀ key, after.flowOf key = before.flowOf key ∨
    (before.flowOf key).currentMsgType ∉ bootstrapModes ∧
      (after.flowOf key).currentMsgType ∉ bootstrapModes

theorem Accepted.refl {refuses : Nat → Bool} {before after : Db}
    (still : after.executed = before.executed) : Accepted refuses before after :=
  fun _ above below => absurd (Nat.lt_of_lt_of_eq below still) (Nat.not_lt_of_le above)

theorem Accepted.trans {refuses : Nat → Bool} {before middle after : Db}
    (first : Accepted refuses before middle) (second : Accepted refuses middle after) :
    Accepted refuses before after := by
  intro execution above below
  rcases Nat.lt_or_ge execution middle.executed with earlier | later
  · exact first execution above earlier
  · exact second execution later below

section Messages

variable {env : Environment} {refuses : Nat → Bool} {info : NanoPacket}

theorem Attempt.Undisturbed.accepted {attempt : Attempt} {db : Db} (ready : db.Ready)
    (undisturbed : attempt.Undisturbed env db) :
    Accepted attempt.refuses db (attempt.perform env db) := by
  rw [undisturbed.perform_eq ready]
  intro execution above below
  rw [Db.executed_store] at below
  obtain ⟨count, rfl⟩ := Nat.exists_eq_add_of_le above
  exact undisturbed count (Nat.lt_of_add_lt_add_left below)

private theorem Attempt.Throws.not_accepted {attempt : Attempt} {db : Db} (ready : db.Ready)
    (throws : attempt.Throws env db) :
    ¬Accepted attempt.refuses db (attempt.perform env db) := by
  intro accepted
  let quiet : Attempt := { attempt with refuses := fun _ => false }
  have same : quiet.result env db = attempt.result env db :=
    Put.run_refusing _ _ fun execution above below => (accepted execution above below).symm
  have undisturbed : quiet.Undisturbed env db := fun _ _ => rfl
  refine undisturbed.not_throws ready ?_
  rw [Throws, same]
  exact throws

namespace Handling

variable {handling : Handling} {db : Db} (ready : db.Ready)
  (event : env.config.connectionDetails = true → refuses db.executed = false)
include event

private theorem accepted_announced :
    Accepted refuses db (handling.announced env info db).db := by
  unfold announced
  split
  · rename_i details
    intro execution above below
    have one : (db.store env ((Request.connection handling.event).plan env info db.nextId
        handling.flow)).executed = db.executed + 1 := Db.executed_store ..
    have first : execution = db.executed :=
      Nat.le_antisymm (Nat.lt_succ_iff.mp (Nat.lt_of_lt_of_eq below one)) above
    exact first ▸ event details
  · exact .refl rfl

include ready

theorem run_eq_result (flow : TcpFlowData) :
    handling.run (env.refusing refuses) info ⟨db, flow⟩ =
      (handling.attempt refuses info).result env (handling.announced env info db).db := by
  have reset : modifyFlow (fun _ => handling.flow) ⟨db, flow⟩ = .ok () ⟨db, handling.flow⟩ := rfl
  rw [Handling.run, EStateM.bind_of_ok reset, Request.put_refusing]
  by_cases details : (env.refusing refuses).config.connectionDetails = true
  · let call : Attempt := ⟨⟨.connection handling.event, info, handling.flow⟩, refuses⟩
    have undisturbed : call.Undisturbed env db := by
      intro execution own
      obtain rfl := Nat.lt_one_iff.mp own
      exact event details
    have announced : handling.announced env info db =
        call.request.after env call.info ⟨db, call.flow⟩ := if_pos details
    rw [announced, if_pos details]
    exact EStateM.bind_of_ok (undisturbed.result_eq ready)
  · have announced : handling.announced env info db = ⟨db, handling.flow⟩ := if_neg details
    rw [announced, if_neg details]
    rfl

omit event in
private theorem onlyEvents_announced : db.OnlyEvents (handling.announced env info db).db := by
  unfold announced
  split
  · exact Db.onlyEvents_store ready env info handling.event handling.flow
  · exact .refl ready

omit event in
private theorem counted_announced (counted : db.Counted) :
    (handling.announced env info db).db.Counted := by
  unfold announced
  split
  · exact counted.storeRequest _ info handling.flow db (.connection handling.event) ready
  · exact counted

end Handling

/-- If a statement of a harmless message is refused, it stays in the mode it starts in, and
the database keeps its connection event only. -/
theorem Handling.Harmless.run {handling : Handling} {db : Db}
    (harmless : handling.Harmless env refuses info db) (ready : db.Ready) (flow : TcpFlowData) :
    let after := stateOf (handling.run (env.refusing refuses) info ⟨db, flow⟩)
    after.flow.currentMsgType ∉ bootstrapModes ∧ (Accepted refuses db after.db ∨
      (handling.announced env info db).db.Untouched after.db) := by
  intro after
  have readyAnnounced := @Handling.ready_announced env info db ready handling
  have result := @Handling.run_eq_result env refuses info handling db ready harmless.event flow
  have rewritten := Put.run_rewritten (env.refusing refuses) (handling.request.put env info)
    ⟨(handling.announced env info db).db, handling.flow⟩
  refine ⟨?_, ?_⟩
  · have mode : after.flow.currentMsgType = handling.flow.currentMsgType := by
      rw [show after = _ from congrArg stateOf result]
      exact rewritten.currentMsgType
    exact mode ▸ harmless.mode
  · rw [show after = _ from congrArg stateOf result]
    rcases harmless.put.outcome readyAnnounced with undisturbed | ⟨-, untouched⟩
    · exact .inl ((Handling.accepted_announced harmless.event).trans
        (undisturbed.accepted readyAnnounced))
    · exact .inr untouched

end Messages

/-! ## Segments that fail -/

section Segments

variable {env : Environment} {refuses : Nat → Bool} {before after : PacketHandler}

theorem PacketHandler.Harmless.unharmed (harmless : before.Harmless env refuses)
    (ready : before.db.Ready) (step : Step (env.refusing refuses) before .handleNext after)
    (refused : ¬Accepted refuses before.db after.db) : before.Unharmed after := by
  cases step with
  | @handleNext _ info rest queue handled =>
      obtain ⟨message, own⟩ := harmless info rest queue
      cases handled with
      | @mk flow handler known handles =>
          have flowOf : before.flowOf info.flowKey = flow := by
            rw [PacketHandler.flowOf, show before.connMgr info.flowKey = some flow from known]
            rfl
          rw [flowOf] at message
          have settled := (handles_iff_message ((drainLoop_eq_none_iff _ _).mpr message)).mp handles
          have world : handler.toWorld =
              stateOf (handleSegment (env.refusing refuses) info ⟨before.db, flow⟩) := by
            rw [← settled, Handler.settle_toWorld]
            rfl
          have db : handler.db =
              (stateOf (handleSegment (env.refusing refuses) info ⟨before.db, flow⟩)).db :=
            congrArg World.db world
          change ¬Accepted refuses before.db handler.db at refused
          cases reads : Nano.read (.ofBytes info.data) with
          | error exception stop =>
              rw [db, handleSegment_of_error reads] at refused
              exact absurd (.refl rfl) refused
          | ok nano stop =>
              rw [handleSegment_of_read reads] at world db
              cases handled : nano.handling with
              | none =>
                  rw [handled] at db
                  rw [db] at refused
                  exact absurd (.refl rfl) refused
              | some handling =>
                  rw [handled] at world db
                  have harmless := own nano stop handling reads handled
                  obtain ⟨mode, outcome⟩ := harmless.run ready .initial
                  dsimp only at world db mode outcome
                  rw [← world] at mode
                  rw [← db] at outcome
                  have untouched := outcome.resolve_left refused
                  refine ⟨⟨_, Handling.onlyEvents_announced ready, untouched⟩,
                    fun counted => (Handling.counted_announced ready counted).untouched untouched,
                    fun key => ?_⟩
                  rw [PacketHandler.flowOf_update]
                  split
                  · rename_i same
                    rw [same, flowOf]
                    exact .inr ⟨message, mode⟩
                  · exact .inl rfl

end Segments

/-! ## Events without failures -/

/-- Since `start` and `start'`, the same ids were drawn from both databases, and the same
rows inserted. -/
structure Db.InStep (base : IdMatch) (start start' : Db) (same : IdMatch) (left right : Db) :
    Prop where
  alike : ∃ oldLeft oldRight, Db.Alike oldLeft oldRight same left right
  drawn : ∃ count, left.nextId = start.nextId + count ∧ right.nextId = start'.nextId + count ∧
    same = base.extend start.nextId start'.nextId count
  rows : ∃ newLeft newRight, left.contents.rows = start.contents.rows ++ newLeft ∧
    right.contents.rows = start'.contents.rows ++ newRight ∧
    List.Forall₂ (Row.Alike same) newLeft newRight

/-- The flows differ in the ids of their request, or both are in no bootstrap mode. -/
def TcpFlowData.Paired (same : IdMatch) (left right : TcpFlowData) : Prop :=
  TcpFlowData.Alike same left right ∨
    left.currentMsgType ∉ bootstrapModes ∧ right.currentMsgType ∉ bootstrapModes

theorem TcpFlowData.Paired.mono {same more : IdMatch} (grows : same ≤ more)
    {left right : TcpFlowData} (paired : TcpFlowData.Paired same left right) :
    TcpFlowData.Paired more left right :=
  paired.imp_left fun alike => alike.mono grows

section InStep

variable {env : Environment} {base same : IdMatch} {start start' left right : Db}

theorem Db.Alike.inStep {oldLeft oldRight : List Row}
    (alike : Db.Alike oldLeft oldRight same left right) :
    Db.InStep same left right same left right :=
  ⟨⟨_, _, alike⟩, ⟨0, rfl, rfl, (same.extend_zero _ _).symm⟩,
    [], [], (List.append_nil _).symm, (List.append_nil _).symm, .nil⟩

theorem Db.InStep.store (inStep : Db.InStep base start start' same left right)
    {plan plan' : Plan}
    (plans : Plan.Alike (same.extend left.nextId right.nextId plan.ids) plan plan')
    (events : ∀ insertion ∈ plan.insertions, insertion.table = .connection → insertion.Complete) :
    Db.InStep base start start' (same.extend left.nextId right.nextId plan.ids)
      (left.store env plan) (right.store env plan') := by
  obtain ⟨oldLeft, oldRight, alike⟩ := inStep.alike
  obtain ⟨count, drawnLeft, drawnRight, extends_⟩ := inStep.drawn
  obtain ⟨newLeft, newRight, rowsLeft, rowsRight, rows⟩ := inStep.rows
  have grows := same.le_extend left.nextId right.nextId plan.ids
  refine ⟨⟨_, _, alike.store plans⟩, ⟨count + plan.ids, ?_, ?_, ?_⟩,
    newLeft ++ plan.rows left.bindings, newRight ++ plan'.rows right.bindings, ?_, ?_, ?_⟩
  · rw [Db.store_nextId, drawnLeft, Nat.add_assoc]
  · rw [Db.store_nextId, drawnRight, ← plans.ids, Nat.add_assoc]
  · rw [extends_, drawnLeft, drawnRight, IdMatch.extend_extend]
  · rw [Db.store_rows, rowsLeft, List.append_assoc]
  · rw [Db.store_rows, rowsRight, List.append_assoc]
  · refine List.rel_append (rows.imp fun _ _ row => row.mono grows) ?_
    rw [Plan.rows, Plan.rows, ← plans.heading]
    exact insertedRows_all_alike (Heading.clear_alike _ (alike.bindings.mono grows))
      plans.insertions events

structure World.InStep (base : IdMatch) (start start' : Db) (same : IdMatch)
    (left right : World) : Prop where
  db : Db.InStep base start start' same left.db right.db
  flow : TcpFlowData.Alike same left.flow right.flow
  zero : same 0 0

theorem World.InStep.after (request : Request) (info : NanoPacket) {left right : World}
    (inStep : World.InStep base start start' same left right) :
    ∃ more, same ≤ more ∧ World.InStep base start start' more (request.after env info left)
      (request.after env info right) := by
  let plan := request.plan env info left.db.nextId left.flow
  let more := same.extend left.db.nextId right.db.nextId plan.ids
  have grows : same ≤ more := same.le_extend _ _ _
  have flows := inStep.flow.mono grows
  have ids : ∀ drawn < plan.ids, more (left.db.nextId + drawn) (right.db.nextId + drawn) :=
    fun drawn below => same.extend_drawn _ _ below
  exact ⟨more, grows, inStep.db.store (request.plan_alike flows ids) fun insertion member =>
    Request.connection_complete member, request.flowAfter_alike flows ids, grows 0 0 inStep.zero⟩

def World.inStepRelation (env : Environment) (base : IdMatch) (start start' : Db) :
    WorldRelation env where
  related := World.InStep base start start'
  readyLeft inStep := inStep.db.alike.choose_spec.choose_spec.readyLeft
  readyRight inStep := inStep.db.alike.choose_spec.choose_spec.readyRight
  flow inStep := inStep.flow
  zero inStep := inStep.zero
  withFlow inStep _ _ flows := ⟨inStep.db, flows, inStep.zero⟩
  after request info _ _ _ inStep := inStep.after request info

theorem Handles.inStep (neverFails : env.NeverFails) {info : NanoPacket}
    {left right leftAfter rightAfter : Handler} (zero : same 0 0)
    (inStep : Db.InStep base start start' same left.db right.db)
    (flows : TcpFlowData.Paired same left.flow right.flow)
    (first : Handles env info left leftAfter) (second : Handles env info right rightAfter) :
    ∃ more, same ≤ more ∧ Db.InStep base start start' more leftAfter.db rightAfter.db ∧
      TcpFlowData.Paired more leftAfter.flow rightAfter.flow := by
  let relation := World.inStepRelation env base start start'
  rcases flows with alike | ⟨message, message'⟩
  · have holds : relation.related same left.toWorld right.toWorld := ⟨inStep, alike, zero⟩
    obtain ⟨again, more, grows, handles, holds⟩ := first.relates neverFails relation holds
    rw [second.unique handles]
    exact ⟨more, grows, holds.db, .inl holds.flow⟩
  · rw [handles_iff_message ((drainLoop_eq_none_iff _ _).mpr message)] at first
    rw [handles_iff_message ((drainLoop_eq_none_iff _ _).mpr message')] at second
    have afterLeft := congrArg Handler.toWorld first
    have afterRight := congrArg Handler.toWorld second
    rw [Handler.settle_toWorld] at afterLeft afterRight
    rw [← afterLeft, ← afterRight]
    cases reads : Nano.read (.ofBytes info.data) with
    | error exception stop =>
        rw [handleSegment_of_error reads, handleSegment_of_error reads]
        exact ⟨same, le_refl same, inStep, .inr ⟨message, message'⟩⟩
    | ok nano stop =>
        have fresh : relation.related same ⟨left.db, .initial⟩ ⟨right.db, .initial⟩ :=
          ⟨inStep, TcpFlowData.alike_reset zero .invalid, zero⟩
        obtain ⟨more, grows, holds⟩ := @Nano.after_relates env info relation same nano _ _ fresh
        rw [handleSegment_of_ok neverFails info (relation.readyLeft fresh) left.flow reads,
          handleSegment_of_ok neverFails info (relation.readyRight fresh) right.flow reads]
        exact ⟨more, grows, holds.db, .inl holds.flow⟩

end InStep

/-! ## Twin runs -/

def AcceptedStep (env : Environment) (before : PacketHandler) (event : Event)
    (after : PacketHandler) : Prop :=
  ∃ refuses, Step (env.refusing refuses) before event after ∧ Accepted refuses before.db after.db

/-- An event of two runs, none of whose statements is refused. -/
structure InBoth (env : Environment) (event : Event)
    (left right leftAfter rightAfter : PacketHandler) : Prop where
  noRestart : event ≠ .restart
  queued : event = .handleNext → left.packetQueue.head? = right.packetQueue.head?
  left : AcceptedStep env left event leftAfter
  right : AcceptedStep env right event rightAfter

namespace PacketHandler

def matchAfter (same : IdMatch) (left right leftAfter : PacketHandler) : IdMatch :=
  same.extend left.db.nextId right.db.nextId (leftAfter.db.nextId - left.db.nextId)

/-- Two runs of processes that opened the same database file. A segment of which a
statement is refused may be handled in one of them only, where it satisfies `meets`. -/
inductive Twins (env : Environment) (meets : (Nat → Bool) → PacketHandler → Prop)
    (durable : Contents) : IdMatch → PacketHandler → PacketHandler → Prop where
  | opened : Twins env meets durable (fun a b => a = 0 ∧ b = 0) (.opened durable) (.opened durable)
  | both {same : IdMatch} {left right leftAfter rightAfter : PacketHandler} {event : Event} :
      Twins env meets durable same left right →
      InBoth env event left right leftAfter rightAfter →
      Twins env meets durable (matchAfter same left right leftAfter) leftAfter rightAfter
  | restarted {same : IdMatch} {left right : PacketHandler} {durableLeft durableRight : Contents} :
      Twins env meets durable same left right → durableLeft ∈ left.db.committed →
      durableRight ∈ right.db.committed →
      Twins env meets durable (fun a b => a = 0 ∧ b = 0) (.opened durableLeft)
        (.opened durableRight)
  | arrivesLeft {same : IdMatch} {left right : PacketHandler} (connection : ConnectionData)
      (side : Int) (data : List UInt8) : Twins env meets durable same left right →
      Twins env meets durable same (left.messageReady connection side data) right
  | arrivesRight {same : IdMatch} {left right : PacketHandler} (connection : ConnectionData)
      (side : Int) (data : List UInt8) : Twins env meets durable same left right →
      Twins env meets durable same left (right.messageReady connection side data)
  | failsLeft {same : IdMatch} {left right leftAfter : PacketHandler} {refuses : Nat → Bool} :
      Twins env meets durable same left right → meets refuses left →
      Step (env.refusing refuses) left .handleNext leftAfter →
      ¬Accepted refuses left.db leftAfter.db → Twins env meets durable same leftAfter right
  | failsRight {same : IdMatch} {left right rightAfter : PacketHandler}
      {refuses : Nat → Bool} : Twins env meets durable same left right → meets refuses right →
      Step (env.refusing refuses) right .handleNext rightAfter →
      ¬Accepted refuses right.db rightAfter.db → Twins env meets durable same left rightAfter

def inserted (before after : PacketHandler) : List Row :=
  after.db.contents.rows.drop before.db.contents.rows.length

/-- The counters agree with the rows, and whatever of which no statement fails next, a
call of the database or an event, inserts the same rows in both runs, up to ids. -/
structure Contained (env : Environment) (same : IdMatch) (left right : PacketHandler) :
    Prop where
  countsLeft : ∀ messageType,
    left.db.countPerType messageType = packetCount left.db.contents.rows messageType
  countsRight : ∀ messageType,
    right.db.countPerType messageType = packetCount right.db.contents.rows messageType
  calls : ∀ attempt other : Attempt, attempt.request.Arises → attempt.SamePut same other →
    attempt.Undisturbed env left.db → other.Undisturbed env right.db →
    ∃ more : IdMatch, same ≤ more ∧ more.OneToOne ∧
      List.Forall₂ (Row.Alike more) (attempt.inserted env left.db) (other.inserted env right.db)
  events : ∀ event leftAfter rightAfter, InBoth env event left right leftAfter rightAfter →
    (matchAfter same left right leftAfter).OneToOne ∧
      List.Forall₂ (Row.Alike (matchAfter same left right leftAfter)) (left.inserted leftAfter)
        (right.inserted rightAfter)

structure Related (same : IdMatch) (left right : PacketHandler) : Prop where
  alike : ∃ oldLeft oldRight, Db.Alike oldLeft oldRight same left.db right.db
  countedLeft : left.db.Counted
  countedRight : right.db.Counted
  flows : ∀ key, TcpFlowData.Paired same (left.flowOf key) (right.flowOf key)
  zero : same 0 0

end PacketHandler

section Both

variable {env : Environment} (neverFails : env.NeverFails) {same : IdMatch}
  {left right leftAfter rightAfter : PacketHandler} {event : Event}
include neverFails

theorem Step.counted {before after : PacketHandler} (step : Step env before event after)
    (ready : before.db.Ready) (counted : before.db.Counted) : after.db.Counted :=
  step.keeps (fun request info flow db arises ready counted =>
      Db.Counted.storeRequest request info flow db arises ready counted) neverFails
    (fun _ counted => counted.flushed) (fun _ counted => counted.destroyed)
    (fun _ durable committed counted => .opened (counted.committed durable committed))
    ready counted

theorem Step.inStep (related : PacketHandler.Related same left right)
    (first : Step env left event leftAfter) (second : Step env right event rightAfter)
    (queued : event = .handleNext → left.packetQueue.head? = right.packetQueue.head?)
    (noRestart : event ≠ .restart) (noDestroy : event ≠ .destroyCaptureData) :
    ∃ more, same ≤ more ∧ Db.InStep same left.db right.db more leftAfter.db rightAfter.db ∧
      ∀ key, TcpFlowData.Paired more (leftAfter.flowOf key) (rightAfter.flowOf key) := by
  obtain ⟨oldLeft, oldRight, alike⟩ := related.alike
  have start := alike.inStep
  have fresh : World.InStep same left.db right.db same ⟨left.db, .initial⟩ ⟨right.db, .initial⟩ :=
    ⟨start, TcpFlowData.alike_reset related.zero .invalid, related.zero⟩
  cases first with
  | connectionStart connection =>
      cases second
      obtain ⟨more, grows, inStep⟩ :=
        fresh.after (.connection "open connection") (connection.packet 0 [])
      rw [PacketHandler.connectionStart_eq neverFails alike.readyLeft,
        PacketHandler.connectionStart_eq neverFails alike.readyRight]
      refine ⟨more, grows, inStep.db, fun key => ?_⟩
      rw [PacketHandler.flowOf_setFlow, PacketHandler.flowOf_setFlow]
      split
      · exact .inl (TcpFlowData.alike_reset inStep.zero .invalid)
      · exact (related.flows key).mono grows
  | messageReady connection side data =>
      cases second
      refine ⟨same, le_refl same, ?_, fun key => ?_⟩
      · rw [PacketHandler.messageReady_db, PacketHandler.messageReady_db]
        exact start
      · rw [PacketHandler.messageReady_flowOf, PacketHandler.messageReady_flowOf]
        exact related.flows key
  | connectionEnd connection =>
      cases second
      obtain ⟨more, grows, inStep⟩ :=
        fresh.after (.connection "close connection") (connection.packet 0 [])
      rw [PacketHandler.connectionEnd_eq neverFails alike.readyLeft,
        PacketHandler.connectionEnd_eq neverFails alike.readyRight]
      exact ⟨more, grows, inStep.db, fun key => (related.flows key).mono grows⟩
  | @handleNext _ info rest queue handled =>
      cases second with
      | @handleNext _ info' rest' queue' handled' =>
          have heads := queued rfl
          rw [queue, queue'] at heads
          obtain rfl : info = info' := Option.some.inj heads
          cases handled with
          | @mk flow handler known handles =>
              cases handled' with
              | @mk flow' handler' known' handles' =>
                  have paired := related.flows info.flowKey
                  rw [PacketHandler.flowOf, PacketHandler.flowOf,
                    show left.connMgr info.flowKey = some flow from known,
                    show right.connMgr info.flowKey = some flow' from known'] at paired
                  obtain ⟨more, grows, inStep, flows⟩ := Handles.inStep neverFails related.zero
                    (by exact start) (by exact paired) handles handles'
                  refine ⟨more, grows, inStep, fun key => ?_⟩
                  rw [PacketHandler.flowOf_update, PacketHandler.flowOf_update]
                  split
                  · exact flows
                  · exact (related.flows key).mono grows
  | flush =>
      cases second
      rw [PacketHandler.callDb_flush neverFails alike.readyLeft,
        PacketHandler.callDb_flush neverFails alike.readyRight]
      exact ⟨same, le_refl same, ⟨⟨_, _, alike.flushed⟩, start.drawn, start.rows⟩, related.flows⟩
  | destroyCaptureData => exact absurd rfl noDestroy
  | restart durable => exact absurd rfl noRestart

end Both

section Contained

variable {env : Environment} {same : IdMatch} {left right leftAfter rightAfter : PacketHandler}

namespace PacketHandler

private theorem Related.mono_left (related : Related same left right)
    (unharmed : left.Unharmed leftAfter) : Related same leftAfter right := by
  obtain ⟨oldLeft, oldRight, alike⟩ := related.alike
  obtain ⟨announced, events, untouched⟩ := unharmed.db
  refine ⟨⟨_, _, (alike.eventsLeft events).untouchedLeft untouched⟩,
    unharmed.counted related.countedLeft, related.countedRight, fun key => ?_, related.zero⟩
  rcases unharmed.flows key with stays | ⟨before, after⟩
  · exact stays ▸ related.flows key
  · rcases related.flows key with flows | ⟨-, other⟩
    · rw [flows.rest]
      exact .inr ⟨after, before⟩
    · exact .inr ⟨after, other⟩

private theorem Related.mono_right (related : Related same left right)
    (unharmed : right.Unharmed rightAfter) : Related same left rightAfter := by
  obtain ⟨oldLeft, oldRight, alike⟩ := related.alike
  obtain ⟨announced, events, untouched⟩ := unharmed.db
  refine ⟨⟨_, _, (alike.eventsRight events).untouchedRight untouched⟩,
    related.countedLeft, unharmed.counted related.countedRight, fun key => ?_, related.zero⟩
  rcases unharmed.flows key with stays | ⟨before, after⟩
  · exact stays ▸ related.flows key
  · rcases related.flows key with flows | ⟨other, -⟩
    · rw [flows.rest] at before
      exact .inr ⟨before, after⟩
    · exact .inr ⟨other, after⟩

private theorem inserted_destroyed (handler : PacketHandler) :
    handler.inserted { handler with db := handler.db.destroyed } = [] := by
  change handler.db.destroyed.contents.rows.drop _ = []
  rw [Db.destroyed_contents]
  exact List.drop_nil

private theorem matchAfter_destroyed (same : IdMatch) (left right : PacketHandler) :
    matchAfter same left right { left with db := left.db.destroyed } = same := by
  change same.extend _ _ (left.db.destroyed.nextId - left.db.nextId) = same
  rw [Db.destroyed_nextId, Nat.sub_self, IdMatch.extend_zero]

theorem Related.destroyed (related : Related same left right) :
    Related same { left with db := left.db.destroyed }
      { right with db := right.db.destroyed } where
  alike := by
    obtain ⟨oldLeft, oldRight, alike⟩ := related.alike
    exact ⟨[], [], alike.destroyed⟩
  countedLeft := related.countedLeft.destroyed
  countedRight := related.countedRight.destroyed
  flows key := by
    have flows := related.flows key
    unfold flowOf at flows ⊢
    exact flows
  zero := related.zero

/-- An event of both runs inserts the same rows, and keeps what the runs keep. -/
theorem Related.both (related : Related same left right) {event : Event}
    (both : InBoth env event left right leftAfter rightAfter) :
    Related (matchAfter same left right leftAfter) leftAfter rightAfter ∧
      List.Forall₂ (Row.Alike (matchAfter same left right leftAfter)) (left.inserted leftAfter)
        (right.inserted rightAfter) := by
  obtain ⟨noRestart, queued, ⟨refuses, step, accepted⟩, ⟨refuses', step', accepted'⟩⟩ := both
  have neverFails := env.refusing_neverFails
  have first := step.refusing accepted
  have second := step'.refusing accepted'
  obtain ⟨oldLeft, oldRight, alike⟩ := related.alike
  by_cases destroys : event = .destroyCaptureData
  · subst destroys
    cases first
    cases second
    rw [callDb_destroyCaptureData neverFails alike.readyLeft,
      callDb_destroyCaptureData neverFails alike.readyRight, matchAfter_destroyed,
      inserted_destroyed, inserted_destroyed]
    exact ⟨related.destroyed, .nil⟩
  · obtain ⟨more, grows, inStep, flows⟩ :=
      first.inStep neverFails related second queued noRestart destroys
    obtain ⟨count, drawn, -, equal⟩ := inStep.drawn
    obtain ⟨newLeft, newRight, rowsLeft, rowsRight, rows⟩ := inStep.rows
    have last : matchAfter same left right leftAfter = more := by
      rw [matchAfter, drawn, Nat.add_sub_cancel_left, equal]
    rw [last, inserted, inserted, rowsLeft, rowsRight, List.drop_left, List.drop_left]
    exact ⟨⟨inStep.alike, first.counted neverFails alike.readyLeft related.countedLeft,
      second.counted neverFails alike.readyRight related.countedRight, flows,
      grows 0 0 related.zero⟩, rows⟩

theorem Related.opened {durableLeft durableRight : Contents} (fitLeft : TypesFit durableLeft.rows)
    (fitRight : TypesFit durableRight.rows) :
    Related (fun a b => a = 0 ∧ b = 0) (.opened durableLeft) (.opened durableRight) where
  alike := ⟨_, _, Db.opened_alike durableLeft durableRight⟩
  countedLeft := .opened fitLeft
  countedRight := .opened fitRight
  flows _ := .inl ⟨⟨rfl, rfl⟩, ⟨rfl, rfl⟩, rfl⟩
  zero := ⟨rfl, rfl⟩

/-- Runs whose failures are harmless stay related. -/
theorem Twins.related {durable : Contents} (fit : TypesFit durable.rows)
    (twins : Twins env (fun refuses handler => handler.Harmless env refuses) durable same left
      right) : Related same left right := by
  induction twins with
  | opened => exact .opened fit fit
  | both _ both induction => exact (induction.both both).1
  | restarted _ committedLeft committedRight induction =>
      exact .opened (induction.countedLeft.committed _ committedLeft)
        (induction.countedRight.committed _ committedRight)
  | @arrivesLeft same left right connection side data _ induction =>
      obtain ⟨alike, countedLeft, countedRight, flows, zero⟩ := induction
      refine ⟨?_, ?_, countedRight, fun key => ?_, zero⟩
      · rwa [messageReady_db]
      · rwa [messageReady_db]
      · rw [messageReady_flowOf]
        exact flows key
  | @arrivesRight same left right connection side data _ induction =>
      obtain ⟨alike, countedLeft, countedRight, flows, zero⟩ := induction
      refine ⟨?_, countedLeft, ?_, fun key => ?_, zero⟩
      · rwa [messageReady_db]
      · rwa [messageReady_db]
      · rw [messageReady_flowOf]
        exact flows key
  | failsLeft _ harmless step refused induction =>
      obtain ⟨_, _, alike⟩ := induction.alike
      exact induction.mono_left (harmless.unharmed alike.readyLeft step refused)
  | failsRight _ harmless step refused induction =>
      obtain ⟨_, _, alike⟩ := induction.alike
      exact induction.mono_right (harmless.unharmed alike.readyRight step refused)

end PacketHandler

end Contained

/-- In runs whose failures are harmless, every failure is contained. -/
theorem failures_contained {env : Environment} {durable : Contents}
    (fit : TypesFit durable.rows) {same : IdMatch} {left right : PacketHandler}
    (twins : PacketHandler.Twins env (fun refuses handler => handler.Harmless env refuses)
      durable same left right) : PacketHandler.Contained env same left right := by
  have related := twins.related fit
  obtain ⟨_, _, alike⟩ := related.alike
  refine ⟨related.countedLeft.counts, related.countedRight.counts, fun attempt other _ put => ?_,
    fun event leftAfter rightAfter both => ?_⟩
  · exact put.inserted_alike alike
  · obtain ⟨after, rows⟩ := related.both both
    obtain ⟨_, _, alike⟩ := after.alike
    exact ⟨alike.oneToOne, rows⟩

def Environment.sampleEvents : Environment :=
  { Environment.sample with
    config := { Environment.sample.config with connectionDetails := true } }

private theorem PacketHandler.Twins.connectionEnds {env : Environment}
    {meets : (Nat → Bool) → PacketHandler → Prop} {durable : Contents} (count : Nat) :
    ∃ same handler, Twins env meets durable same handler handler ∧
      handler.db.Ready ∧ handler.db.nextId = (Db.opened durable).nextId + count ∧
      (∀ key, handler.connMgr key = none) ∧ handler.packetQueue = [] := by
  induction count with
  | zero => exact ⟨_, _, .opened, Db.opened_ready durable, rfl, fun _ => rfl, rfl⟩
  | succ count induction =>
      obtain ⟨same, handler, twins, ready, counter, flows, queue⟩ := induction
      have step : AcceptedStep env handler (.connectionEnd .sample) _ :=
        ⟨fun _ => false, .connectionEnd handler .sample, fun _ _ _ => rfl⟩
      have both : InBoth env (.connectionEnd .sample) handler handler _ _ :=
        ⟨nofun, nofun, step, step⟩
      refine ⟨_, _, twins.both both, ?_⟩
      rw [connectionEnd_eq env.refusing_neverFails ready]
      exact ⟨ready.store _ _, congrArg (· + 1) counter, flows, queue⟩

private theorem PacketHandler.messageReady_unknown {handler : PacketHandler}
    {connection : ConnectionData} {data : List UInt8}
    (unknown : handler.connMgr connection.flowKey = none) (some : data ≠ [])
    (complete : hasMissingData data = false) (side : Int) :
    handler.messageReady connection side data =
      { handler.setFlow connection.flowKey .initial with
        packetQueue := handler.packetQueue ++ [connection.packet side data] } := by
  rw [messageReady, if_neg some, unknown]
  simp only [complete]
  rfl

private theorem Step.of_message {env : Environment} {handler : PacketHandler} {info : NanoPacket}
    {rest : List NanoPacket} {flow : TcpFlowData} {nano : Nano} {stop : KStream}
    {handling : Handling} (queue : handler.packetQueue = info :: rest)
    (known : handler.connMgr info.flowKey = some flow)
    (message : flow.currentMsgType ∉ bootstrapModes)
    (reads : Nano.read (.ofBytes info.data) = .ok nano stop)
    (handled : nano.handling = some handling) :
    ∃ after, Step env handler .handleNext after ∧
      after.db = (stateOf (handling.run env info ⟨handler.db, .initial⟩)).db := by
  refine ⟨_, .handleNext queue (.mk known
    ((handles_iff_message ((drainLoop_eq_none_iff _ _).mpr message)).mpr rfl)), ?_⟩
  change (Handler.settle _ _).toWorld.db = _
  rw [Handler.settle_toWorld, handleSegment_of_read reads, handled]
  rfl

/-- A call of which the `COMMIT` is refused. -/
private theorem Attempt.harmless_of_commit {env : Environment} {attempt : Attempt} {db : Db}
    (ready : db.Ready) (commits : (attempt.plan env db).commits db.nextId = true)
    (refused : attempt.refuses db.executed = true) (keeps : env.rollsBack db.executed = false) :
    attempt.Harmless env db ∧ attempt.Throws env db := by
  have harmless : attempt.Harmless env db := by
    intro execution _ _ first
    obtain rfl : execution = 0 := Nat.eq_zero_of_not_pos fun positive =>
      Bool.noConfusion ((first 0 positive).symm.trans refused)
    exact ⟨commits, .inl rfl, keeps⟩
  refine ⟨harmless, ((harmless.outcome ready).resolve_left fun undisturbed => ?_).1⟩
  refine Bool.noConfusion ((undisturbed 0 ?_).symm.trans refused)
  rw [Plan.executions, commits, if_pos rfl]
  exact Nat.lt_add_right _ (Nat.succ_pos 3)

/-- With the event of the next message, a number of connections takes the id counter to a
multiple of 10000. The commit before the telemetry_req that arrives then is refused. -/
theorem failures_contained_commit :
    ∃ same handler after refuses, let arrived := handler.messageReady .sample 0 telemetryBytes
      Step (Environment.sampleEvents.refusing refuses) arrived .handleNext after ∧
        ¬Accepted refuses arrived.db after.db ∧
        PacketHandler.Contained .sampleEvents same after handler := by
  obtain ⟨same, handler, twins, ready, counter, unknown, queue⟩ :=
    @PacketHandler.Twins.connectionEnds .sampleEvents
      (fun refuses handler => handler.Harmless .sampleEvents refuses) .empty 9998
  let refuses : Nat → Bool := (· != handler.db.executed)
  let arrived := handler.messageReady .sample 0 telemetryBytes
  let info := ConnectionData.sample.packet 0 telemetryBytes
  let handling : Handling :=
    ⟨"telemetry_req", .reset .telemetryReq, .telemetryReq (.sample .telemetryReq 0)⟩
  have reads : ∃ stop, Nano.read (.ofBytes info.data) =
      .ok ⟨.sample .telemetryReq 0, .telemetryReq⟩ stop := ⟨_, rfl⟩
  obtain ⟨stop, reads⟩ := reads
  have delivered : arrived = _ :=
    PacketHandler.messageReady_unknown (unknown _) (by decide) (by decide) 0
  have arrivedFlow : arrived.connMgr info.flowKey = some .initial := by
    rw [delivered]
    exact handler.setFlow_self ConnectionData.sample.flowKey .initial
  have arrivedQueue : arrived.packetQueue = [info] := by
    rw [delivered, queue]
    rfl
  have arrivedDb : arrived.db = handler.db := by
    rw [delivered]
    rfl
  have message : TcpFlowData.initial.currentMsgType ∉ bootstrapModes := by decide
  have event : Environment.sampleEvents.config.connectionDetails = true →
      refuses handler.db.executed = false := fun _ => bne_self_eq_false _
  let announced := (handling.announced .sampleEvents info handler.db).db
  have announcedReady : announced.Ready := handling.ready_announced ready
  have announcedExecuted : announced.executed = handler.db.executed + 1 := rfl
  have announcedId : announced.nextId = 1000000000 + 9999 := congrArg (· + 1) counter
  have commits : ((handling.attempt refuses info).plan .sampleEvents announced).commits
      announced.nextId = true := by
    rw [announcedId]
    rfl
  have commit : refuses announced.executed = true := by
    rw [announcedExecuted]
    exact bne_iff_ne.mpr (Nat.succ_ne_self _)
  obtain ⟨put, throws⟩ := @Attempt.harmless_of_commit .sampleEvents (handling.attempt refuses info)
    announced announcedReady commits commit rfl
  have harmless : arrived.Harmless .sampleEvents refuses := by
    intro other rest front
    rw [arrivedQueue] at front
    cases front
    rw [arrivedDb, PacketHandler.flowOf, arrivedFlow]
    refine ⟨message, fun nano after other reads' handled => ?_⟩
    rw [reads] at reads'
    cases reads'
    cases handled
    exact ⟨by decide, event, put⟩
  obtain ⟨after, step, afterDb⟩ := @Step.of_message
    (Environment.sampleEvents.refusing refuses) _ _ _ _ _ _ _ arrivedQueue arrivedFlow message
    reads rfl
  rw [arrivedDb, Handling.run_eq_result ready event] at afterDb
  have refused : ¬Accepted refuses arrived.db after.db := fun accepted => by
    rw [afterDb, arrivedDb] at accepted
    exact throws.not_accepted announcedReady (accepted.right (Nat.le_succ _))
  exact ⟨same, handler, after, refuses, step, refused, failures_contained
    (fun _ member => absurd member List.not_mem_nil)
    (.failsLeft (.arrivesLeft .sample 0 telemetryBytes twins) harmless step refused)⟩

/-- The insertion of the packet row is refused after the packet has been counted. -/
theorem failures_not_contained :
    ¬∀ (env : Environment) (durable : Contents) (same : IdMatch) (left right : PacketHandler),
      TypesFit durable.rows → PacketHandler.Twins env (fun _ _ => True) durable same left right →
      PacketHandler.Contained env same left right := by
  intro contained
  let arrived := (PacketHandler.opened .empty).messageReady .sample 0 telemetryBytes
  have computed : (arrived.handleNext (Environment.sample.refusing fun _ => true) 1).map
      (fun after => (after.db.countPerType 12, packetCount after.db.contents.rows 12,
        after.db.executed)) = some (1, 0, 1) := by decide +kernel
  obtain ⟨after, handled, outcome⟩ := Option.map_eq_some_iff.mp computed
  simp only [Prod.mk.injEq] at outcome
  obtain ⟨counter, rows, executed⟩ := outcome
  have refused : ¬Accepted (fun _ => true) arrived.db after.db := fun accepted =>
    Bool.noConfusion (accepted 0 (Nat.le_refl 0) (executed ▸ Nat.one_pos))
  have counts := (contained .sample .empty _ _ _ (fun _ member => absurd member List.not_mem_nil)
    (.failsLeft (.arrivesLeft .sample 0 telemetryBytes .opened) trivial
      (.of_handleNext handled) refused)).countsLeft 12
  rw [counter, rows] at counts
  exact absurd counts (by decide)

end Nanocap
