import Nanocap.Database.Alike
import Nanocap.PacketHandler.Deliveries

/-! # Handling the same segment twice

For flows that differ in the ids of their request, `handle_tcp` makes the same requests
of two databases, which may differ in more than ids. -/

namespace Nanocap

open Loop (Control)

/-- What may relate two worlds in which the same segments are handled. The flows differ
in ids; an initial flow has id 0 on both sides. -/
structure WorldRelation (env : Environment) where
  related : IdMatch → World → World → Prop
  readyLeft {same : IdMatch} {left right : World} (holds : related same left right) :
    left.db.Ready
  readyRight {same : IdMatch} {left right : World} (holds : related same left right) :
    right.db.Ready
  flow {same : IdMatch} {left right : World} (holds : related same left right) :
    TcpFlowData.Alike same left.flow right.flow
  zero {same : IdMatch} {left right : World} (holds : related same left right) : same 0 0
  withFlow {same : IdMatch} {left right : World} (holds : related same left right)
    {flow flow' : TcpFlowData} (flows : TcpFlowData.Alike same flow flow') :
    related same ⟨left.db, flow⟩ ⟨right.db, flow'⟩
  after (request : Request) (info : NanoPacket) {same : IdMatch} {left right : World}
    (holds : related same left right) :
    ∃ more, same ≤ more ∧
      related more (request.after env info left) (request.after env info right)

section Actions

variable {env : Environment} (neverFails : env.NeverFails) {info : NanoPacket}
  (relation : WorldRelation env) {known : IdMatch}

abbrev SimulatesIds {α : Type} (known : IdMatch) (left right : Action α) : Prop :=
  Simulates relation.related SameValues known left right

theorem TcpFlowData.alike_reset {same : IdMatch} (zero : same 0 0) (messageType : EnumMsgtype) :
    TcpFlowData.Alike same (.reset messageType) (.reset messageType) := ⟨zero, zero, rfl⟩

/-! ## Flow accesses -/

theorem simulates_getFlow :
    Simulates relation.related TcpFlowData.Alike known getFlow getFlow :=
  fun more _ _ _ holds => ⟨more, le_refl more, holds, relation.flow holds⟩

theorem simulates_modifyFlow {change change' : TcpFlowData → TcpFlowData}
    (changes : ∀ same : IdMatch, same 0 0 → ∀ left right, TcpFlowData.Alike same left right →
      TcpFlowData.Alike same (change left) (change' right)) :
    SimulatesIds relation known (modifyFlow change) (modifyFlow change') :=
  fun more _ left right holds => ⟨more, le_refl more, relation.withFlow holds
    (changes more (relation.zero holds) left.flow right.flow (relation.flow holds)), rfl⟩

theorem simulates_construct {α : Type} (reader : Reader α) (stream : KStream) :
    SimulatesIds relation known (construct reader stream) (construct reader stream) := by
  intro more _ left right holds
  unfold construct
  cases reader stream with
  | ok value after => exact ⟨more, le_refl more, holds, rfl⟩
  | error exception after => exact ⟨rfl, more, le_refl more, holds⟩

theorem simulates_catchRuntimeError {α : Type} {body body' handler handler' : Action α}
    (bodies : SimulatesIds relation known body body')
    (handlers : SimulatesIds relation known handler handler') :
    SimulatesIds relation known (catchRuntimeError body handler)
      (catchRuntimeError body' handler') := by
  intro more grows left right holds
  have ended := bodies more grows left right holds
  unfold catchRuntimeError
  cases run : body left <;> cases run' : body' right <;> rw [run, run'] at ended <;>
    try exact ended.elim
  · exact ended
  · obtain ⟨rfl, later, laterGrows, holds⟩ := ended
    rename_i exception _ _
    cases exception with
    | runtimeError => exact (handlers later (grows.trans laterGrows) _ _ holds).of_le laterGrows
    | outOfRange => exact ⟨rfl, later, laterGrows, holds⟩

/-! ## Requests -/

include neverFails

theorem simulates_details (request : Request) :
    SimulatesIds relation known (whenBootstrapDetails env (request.put env info))
      (whenBootstrapDetails env (request.put env info)) := by
  intro more _ left right holds
  rw [whenBootstrapDetails_eq neverFails (relation.readyLeft holds),
    whenBootstrapDetails_eq neverFails (relation.readyRight holds)]
  unfold Request.afterDetails
  split
  · obtain ⟨later, grows, holds⟩ := relation.after request info holds
    exact ⟨later, grows, holds, rfl⟩
  · exact ⟨more, le_refl more, holds, rfl⟩

theorem simulates_endResponse {event : TcpFlowData → String}
    (events : ∀ (same : IdMatch) left right, TcpFlowData.Alike same left right →
      event left = event right) :
    SimulatesIds relation known (endResponse env info event)
      (endResponse env info event) := by
  refine Simulates.bind (simulates_getFlow relation) fun more _ left right flows => ?_
  rw [events more left right flows]
  exact Simulates.bind (simulates_details neverFails relation (.connection _)) fun _ _ _ _ _ =>
    simulates_modifyFlow relation fun same zero _ _ _ => TcpFlowData.alike_reset zero .invalid

omit neverFails in
theorem simulates_consumeEntry (stream : KStream) :
    SimulatesIds relation known (consumeEntry stream) (consumeEntry stream) := by
  refine simulates_modifyFlow relation fun same _ left right flows =>
    ⟨flows.packetId, flows.messageId, ?_⟩
  rw [flows.rest]

/-! ## Iterations -/

omit neverFails in
theorem TcpFlowData.Alike.accumulatedData {same : IdMatch} {left right : TcpFlowData}
    (flows : TcpFlowData.Alike same left right) : left.accumulatedData = right.accumulatedData := by
  rw [flows.rest]

private theorem simulates_frontierIteration :
    SimulatesIds relation known (frontierIteration env info)
      (frontierIteration env info) := by
  refine Simulates.bind (simulates_getFlow relation) fun more _ left right flows => ?_
  rw [flows.accumulatedData]
  refine Simulates.ite (fun _ => .pure fun _ _ => rfl) fun _ => ?_
  refine simulates_catchRuntimeError relation ?_ ?_
  · refine Simulates.bind (simulates_construct relation _ _) fun _ _ parsed parsed' same => ?_
    obtain rfl : parsed = parsed' := same
    refine Simulates.ite (fun _ => ?_) fun _ => ?_
    · refine Simulates.bind (simulates_endResponse neverFails relation fun _ _ _ flows => ?_)
        fun _ _ _ _ _ => .pure fun _ _ => rfl
      unfold endOfFrontierReq
      rw [flows.rest]
    · refine Simulates.bind
        (@simulates_details env neverFails info relation _ (.frontierEntry parsed.1))
        fun _ _ _ _ _ => ?_
      exact Simulates.bind (simulates_consumeEntry relation _) fun _ _ _ _ _ => .pure fun _ _ => rfl
  · refine Simulates.bind (simulates_modifyFlow relation fun _ _ _ _ flows => flows.countInvalid)
      fun _ _ _ _ _ => .pure fun _ _ => rfl

theorem simulates_bulkIteration {Entry : Type} (name : String) (reader : Reader Entry)
    (request : Entry → Request) :
    SimulatesIds relation known
      (bulkIteration env info name reader fun entry => (request entry).put env info)
      (bulkIteration env info name reader fun entry => (request entry).put env info) := by
  refine Simulates.bind (simulates_getFlow relation) fun more _ left right flows => ?_
  rw [flows.accumulatedData]
  dsimp only
  cases right.accumulatedData.toList.head? with
  | none => exact .pure fun _ _ => rfl
  | some first =>
      dsimp only
      refine Simulates.ite (fun _ => ?_) fun _ => ?_
      · refine Simulates.bind (simulates_endResponse neverFails relation fun _ _ _ flows => ?_)
          fun _ _ _ _ _ => .pure fun _ _ => rfl
        unfold endOfBulk
        rw [flows.rest]
      · refine simulates_catchRuntimeError relation ?_ (.pure fun _ _ => rfl)
        refine Simulates.bind (simulates_construct relation _ _) fun _ _ parsed parsed' same => ?_
        obtain rfl : parsed = parsed' := same
        refine Simulates.bind (simulates_details neverFails relation (request parsed.1))
          fun _ _ _ _ _ => ?_
        exact Simulates.bind (simulates_consumeEntry relation _)
          fun _ _ _ _ _ => .pure fun _ _ => rfl

private theorem simulates_accountHeader (stream : KStream) :
    SimulatesIds relation known (accountHeader env stream) (accountHeader env stream) := by
  refine Simulates.bind (simulates_construct relation _ _) fun _ _ parsed parsed' same => ?_
  obtain rfl : parsed = parsed' := same
  -- the packet does not matter to this entry
  refine Simulates.bind (@simulates_details env neverFails (.sample []) relation _
    (.frontierBalanceEntry parsed.1)) fun _ _ _ _ _ => ?_
  refine Simulates.bind (simulates_modifyFlow relation fun _ _ left right flows => ?_)
    fun _ _ _ _ _ => .pure fun _ _ => rfl
  refine ⟨flows.packetId, flows.messageId, ?_⟩
  rw [flows.rest]

private theorem simulates_accountEntry (stream : KStream) :
    SimulatesIds relation known (accountEntry env info stream)
      (accountEntry env info stream) := by
  refine Simulates.bind (simulates_getFlow relation) fun more _ left right flows => ?_
  rw [flows.requestFlags]
  refine Simulates.bind (simulates_construct relation _ _) fun _ _ parsed parsed' same => ?_
  obtain rfl : parsed = parsed' := same
  refine Simulates.ite (fun _ => ?_) fun _ => ?_
  · refine simulates_endResponse neverFails relation fun _ _ _ flows => ?_
    unfold endOfBulk
    rw [flows.rest]
  · refine Simulates.bind (@simulates_details env neverFails info relation _
      (.bulkPullAccountEntry parsed.1)) fun _ _ _ _ _ => ?_
    refine simulates_modifyFlow relation fun _ _ left right flows =>
      ⟨flows.packetId, flows.messageId, ?_⟩
    rw [flows.rest]

private theorem simulates_accountIteration :
    SimulatesIds relation known (accountIteration env info)
      (accountIteration env info) := by
  refine Simulates.bind (simulates_getFlow relation) fun more _ left right flows => ?_
  rw [flows.accumulatedData]
  refine Simulates.ite (fun _ => .pure fun _ _ => rfl) fun _ => ?_
  refine simulates_catchRuntimeError relation ?_ (.pure fun _ _ => rfl)
  have rest : ∀ known (stream : KStream), SimulatesIds relation known
      (do if (← getFlow).step = 1 then accountEntry env info stream
          return Control.again)
      (do if (← getFlow).step = 1 then accountEntry env info stream
          return Control.again) := by
    intro known stream
    refine Simulates.bind (simulates_getFlow relation) fun _ _ left right flows => ?_
    rw [flows.rest]
    refine Simulates.ite (fun _ => ?_) fun _ => .pure fun _ _ => rfl
    exact Simulates.bind (simulates_accountEntry neverFails relation _)
      fun _ _ _ _ _ => .pure fun _ _ => rfl
  refine Simulates.bind (simulates_getFlow relation) fun _ _ left right flows => ?_
  rw [flows.rest]
  refine Simulates.ite (fun _ => ?_) fun _ => ?_
  · refine Simulates.bind (simulates_accountHeader neverFails relation _)
      fun _ _ stream stream' same => ?_
    obtain rfl : stream = stream' := same
    exact rest _ stream
  · exact rest _ _

private theorem simulates_drainLoop {mode : EnumMsgtype} {iteration : Action Control}
    (loop : drainLoop env info mode = some iteration) :
    SimulatesIds relation known iteration iteration := by
  unfold drainLoop at loop
  split at loop <;> cases loop
  · exact simulates_frontierIteration neverFails relation
  · exact simulates_bulkIteration neverFails relation _ _ .bulkPullEntry
  · exact simulates_bulkIteration neverFails relation _ _ .bulkPushEntry
  · exact simulates_accountIteration neverFails relation

end Actions

/-! ## Segments -/

private theorem Nano.handling_ids {nano : Nano} {handling : Handling}
    (handled : nano.handling = some handling) :
    handling.flow.packetId = 0 ∧ handling.flow.messageId = 0 := by
  obtain ⟨⟨_, _, _, _, messageType, _⟩, body⟩ := nano
  cases messageType <;> cases body <;> cases handled <;> exact ⟨rfl, rfl⟩

section Segments

variable {env : Environment} (neverFails : env.NeverFails) {info : NanoPacket}
  (relation : WorldRelation env) {same : IdMatch}

theorem Nano.after_relates (nano : Nano) {left right : World}
    (holds : relation.related same left right) :
    ∃ more, same ≤ more ∧ relation.related more (nano.after env info left.db)
      (nano.after env info right.db) := by
  have zero := relation.zero holds
  unfold Nano.after
  cases handled : nano.handling with
  | none =>
      exact ⟨same, le_refl same,
        relation.withFlow holds (TcpFlowData.alike_reset zero .invalid)⟩
  | some handling =>
      obtain ⟨packetId, messageId⟩ := Nano.handling_ids handled
      have flows : TcpFlowData.Alike same handling.flow handling.flow :=
        ⟨packetId ▸ zero, messageId ▸ zero, rfl⟩
      have start := relation.withFlow holds flows
      have announced : ∃ more, same ≤ more ∧ relation.related more
          (handling.announced env info left.db) (handling.announced env info right.db) := by
        unfold Handling.announced
        split
        · exact relation.after (.connection handling.event) info start
        · exact ⟨same, le_refl same, start⟩
      obtain ⟨more, grows, holds⟩ := announced
      obtain ⟨last, later, holds⟩ := relation.after handling.request info holds
      exact ⟨last, grows.trans later, holds⟩

include neverFails

private theorem processSegment_relates (fuel : Nat) {left right : World}
    (holds : relation.related same left right) :
    Option.Rel (RelatedResults relation.related SameValues same)
      (processSegment env fuel info left) (processSegment env fuel info right) := by
  have flows := relation.flow holds
  have mode : left.flow.currentMsgType = right.flow.currentMsgType := by rw [flows.rest]
  have message : RelatedResults relation.related SameValues same
      (handleSegment env info left) (handleSegment env info right) := by
    cases read : Nano.read (.ofBytes info.data) with
    | ok nano stop =>
        rw [handleSegment_of_ok neverFails info (relation.readyLeft holds) left.flow read,
          handleSegment_of_ok neverFails info (relation.readyRight holds) right.flow read]
        obtain ⟨more, grows, holds⟩ := @Nano.after_relates env info relation _ nano _ _ holds
        exact ⟨more, grows, holds, rfl⟩
    | error exception stop =>
        rw [handleSegment_of_error read, handleSegment_of_error read]
        exact ⟨rfl, same, le_refl same, holds⟩
  unfold processSegment
  rw [← mode]
  split
  · rename_i iteration _ _ loop data
    have accumulated : relation.related same (accumulate info left) (accumulate info right) := by
      refine relation.withFlow holds ⟨flows.packetId, flows.messageId, ?_⟩
      rw [flows.rest]
    exact (simulates_drainLoop neverFails relation loop).loop fuel (le_refl same) accumulated
  · exact .some message

theorem processSegment_relates_states {fuel : Nat} {left right : World}
    (holds : relation.related same left right) {result : EStateM.Result Exception World Unit}
    (processed : processSegment env fuel info left = some result) :
    ∃ result' more, same ≤ more ∧ processSegment env fuel info right = some result' ∧
      relation.related more (stateOf result) (stateOf result') := by
  have results := @processSegment_relates env neverFails info relation same fuel _ _ holds
  rw [processed] at results
  cases other : processSegment env fuel info right with
  | none =>
      rw [other] at results
      cases results
  | some result' =>
      rw [other] at results
      cases results with
      | some results =>
          cases result <;> cases result' <;> try exact results.elim
          · obtain ⟨more, grows, holds, -⟩ := results
            exact ⟨_, more, grows, rfl, holds⟩
          · obtain ⟨-, more, grows, holds⟩ := results
            exact ⟨_, more, grows, rfl, holds⟩

theorem Handles.relates {left right leftAfter : Handler}
    (holds : relation.related same left.toWorld right.toWorld)
    (handles : Handles env info left leftAfter) :
    ∃ rightAfter more, same ≤ more ∧ Handles env info right rightAfter ∧
      relation.related more leftAfter.toWorld rightAfter.toWorld := by
  obtain ⟨fuel, result, processed, rfl⟩ := (handles_iff _ _).mp handles
  obtain ⟨result', more, grows, processed', holds⟩ :=
    processSegment_relates_states neverFails relation holds processed
  refine ⟨_, more, grows, (handles_iff _ _).mpr ⟨fuel, result', processed', rfl⟩, ?_⟩
  rwa [Handler.settle_toWorld, Handler.settle_toWorld]

end Segments

/-! ## Databases that differ in ids -/

structure World.Alike (oldLeft oldRight : List Row) (same : IdMatch) (left right : World) :
    Prop where
  db : Db.Alike oldLeft oldRight same left.db right.db
  flow : TcpFlowData.Alike same left.flow right.flow
  zero : same 0 0

section Alike

variable {env : Environment} {oldLeft oldRight : List Row} {same : IdMatch}

theorem World.Alike.after (request : Request) (info : NanoPacket) {left right : World}
    (alike : World.Alike oldLeft oldRight same left right) :
    ∃ more, same ≤ more ∧ World.Alike oldLeft oldRight more (request.after env info left)
      (request.after env info right) := by
  let plan := request.plan env info left.db.nextId left.flow
  let more := same.extend left.db.nextId right.db.nextId plan.ids
  have grows : same ≤ more := same.le_extend _ _ _
  have flows := alike.flow.mono grows
  have ids : ∀ drawn < plan.ids, more (left.db.nextId + drawn) (right.db.nextId + drawn) :=
    fun drawn below => same.extend_drawn _ _ below
  exact ⟨more, grows, alike.db.store (request.plan_alike flows ids),
    request.flowAfter_alike flows ids, grows 0 0 alike.zero⟩

def World.alikeRelation (env : Environment) (oldLeft oldRight : List Row) :
    WorldRelation env where
  related := World.Alike oldLeft oldRight
  readyLeft alike := alike.db.readyLeft
  readyRight alike := alike.db.readyRight
  flow alike := alike.flow
  zero alike := alike.zero
  withFlow alike _ _ flows := ⟨alike.db, flows, alike.zero⟩
  after request info _ _ _ alike := alike.after request info

end Alike

theorem Handles.alike {env : Environment} (neverFails : env.NeverFails) {info : NanoPacket}
    {oldLeft oldRight : List Row} {same : IdMatch} {left right leftAfter : Handler}
    (alike : World.Alike oldLeft oldRight same left.toWorld right.toWorld)
    (handles : Handles env info left leftAfter) :
    ∃ rightAfter more, same ≤ more ∧ Handles env info right rightAfter ∧
      World.Alike oldLeft oldRight more leftAfter.toWorld rightAfter.toWorld :=
  handles.relates neverFails (World.alikeRelation env oldLeft oldRight) alike

end Nanocap
