import Nanocap.Foundation.Invariant
import Nanocap.PacketHandler.Messages
import Nanocap.PacketHandler.Progress
import Nanocap.PacketHandler.Segments

/-! # Termination of segment handling

`handle_tcp` returns for every segment but the ones that leave the
bulk_pull_account loop in front of a pending entry it does not erase. -/

namespace Nanocap

open Loop (Control)

/-! ## Reachable states -/

/-- The states one flow can be in: deliveries and connection starts reset and
change it, and the other flows may have done anything to the database. -/
inductive Reachable (env : Environment) : Handler → Prop where
  | start {handler : Handler} : handler.flow = .initial → Reachable env handler
  | deliver {before after : Handler} {info : NanoPacket} :
      Reachable env before → Handles env info before after → Reachable env after
  | connectionStart {handler : Handler} :
      Reachable env handler → Reachable env { handler with flow := .initial }
  | otherFlows {handler : Handler} (db : Db) :
      Reachable env handler → Reachable env { handler with db }

section StepBound

def StepAtMost (bound : Nat) (world : World) : Prop := world.flow.step ≤ bound

def StepBound (world : World) : Prop := world.flow.step ≤ 1

variable (env : Environment) (info : NanoPacket) {bound : Nat}

theorem whenBootstrapDetails_keeps_step (put : Put Unit) :
    Keeps (StepAtMost bound) (whenBootstrapDetails env put) := by
  intro world atMost
  rw [StepAtMost, (whenBootstrapDetails_rewritten env put world).step]
  exact atMost

theorem run_keeps_step (put : Put Unit) : Keeps (StepAtMost bound) (put.run env) := by
  intro world atMost
  rw [StepAtMost, (Put.run_rewritten env put world).step]
  exact atMost

theorem modifyFlow_keeps_step {change : TcpFlowData → TcpFlowData}
    (same : ∀ flow, flow.step ≤ bound → (change flow).step ≤ bound) :
    Keeps (StepAtMost bound) (modifyFlow change) := fun world atMost => same world.flow atMost

theorem endResponse_keeps_step (event : TcpFlowData → String) :
    Keeps (StepAtMost bound) (endResponse env info event) :=
  (getFlow_keeps _).bind fun _ => (whenBootstrapDetails_keeps_step env _).bind fun _ =>
    modifyFlow_keeps_step fun _ _ => Nat.zero_le _

theorem consumeEntry_keeps_step (ks : KStream) : Keeps (StepAtMost bound) (consumeEntry ks) :=
  modifyFlow_keeps_step fun _ atMost => atMost

private theorem frontierIteration_keeps_step :
    Keeps (StepAtMost bound) (frontierIteration env info) :=
  frontierIteration_keeps (endResponse_keeps_step env info _)
    (fun _ => whenBootstrapDetails_keeps_step env _) consumeEntry_keeps_step
    ((modifyFlow_keeps_step (by exact fun _ atMost => atMost)).bind fun _ => .pure _)

theorem bulkIteration_keeps_step {Entry : Type} (name : String)
    (build : UInt8 → BlockSelector → Entry) (put : Entry → Put Unit) :
    Keeps (StepAtMost bound) (bulkIteration env info name (readBulkEntry build) put) :=
  bulkIteration_keeps (endResponse_keeps_step env info _)
    (fun _ => whenBootstrapDetails_keeps_step env _) consumeEntry_keeps_step

theorem drainLoop_keeps_stepAtMost {mode : EnumMsgtype} {iteration : Action Control}
    (other : mode ≠ .bulkPullAccount) (loop : drainLoop env info mode = some iteration) :
    Keeps (StepAtMost bound) iteration := by
  unfold drainLoop at loop
  split at loop <;> cases loop
  · exact frontierIteration_keeps_step env info
  · exact bulkIteration_keeps_step env info _ _ _
  · exact bulkIteration_keeps_step env info _ _ _
  · exact absurd rfl other

theorem accountEntry_keeps_step (stream : KStream) :
    Keeps (StepAtMost bound) (accountEntry env info stream) :=
  accountEntry_keeps (endResponse_keeps_step env info _)
    (fun _ => whenBootstrapDetails_keeps_step env _)
    (modifyFlow_keeps_step (by exact fun _ atMost => atMost)) stream

private theorem accountIteration_keeps_step : Keeps StepBound (accountIteration env info) := by
  intro world bound
  by_cases some : world.flow.accumulatedData.toList = []
  · rw [accountIteration_empty env info some]
    exact bound
  by_cases one : world.flow.step = 1
  · rw [accountIteration_step_one env info one some]
    exact catchRuntimeError_keeps ((accountEntry_keeps_step env info _).bind fun _ => .pure _)
      (.pure _) world bound
  have zero : world.flow.step = 0 := by
    unfold StepBound at bound
    omega
  by_cases short : world.flow.accumulatedData.toList.length < 48
  · rw [accountIteration_short env info zero some short]
    exact bound
  obtain ⟨entry, rest, -, bytes⟩ := FrontierBalanceEntry.codec.split (Nat.le_of_not_lt short)
  rw [accountIteration_step_zero env info zero bytes]
  -- the step is still zero when the header has been stored, and one when it is consumed
  have stored := whenBootstrapDetails_rewritten env (putFrontierBalanceEntry entry) world
  have body : StepBound (stateOf ((do
      whenBootstrapDetails env (putFrontierBalanceEntry entry)
      modifyFlow consumeHeader
      accountEntry env info (memoryBehindHeader (entry.wire ++ rest))
      return Control.again : Action Control) world)) := by
    rw [EStateM.bind_apply]
    cases put : whenBootstrapDetails env (putFrontierBalanceEntry entry) world with
    | error exception after =>
        rw [put] at stored
        exact (congrArg (· ≤ 1) stored.step).mpr bound
    | ok result after =>
        rw [put] at stored
        have consumed : StepBound { after with flow := consumeHeader after.flow } := by
          change after.flow.step + 1 ≤ 1
          exact (congrArg (· + 1 ≤ 1) (stored.step.trans zero)).mpr (Nat.le_refl 1)
        exact ((accountEntry_keeps_step env info _).bind fun _ => .pure _) _ consumed
  unfold catchRuntimeError
  split
  · rename_i stopped raises
    rw [raises] at body
    exact body
  · exact body

private theorem handleMessage_keeps_step (messageType : EnumMsgtype) (event : String)
    (put : Put Unit) :
    Keeps StepBound (handleMessage env messageType event put info) :=
  handleMessage_keeps (modifyFlow_keeps_step fun _ _ => Nat.zero_le _) (run_keeps_step env _)
    (run_keeps_step env put)

private theorem dispatch_keeps_step (header : MessageHeader) (body : Body) :
    Keeps StepBound (dispatch env header info body) := by
  unfold dispatch
  split
  all_goals first
    | exact handleMessage_keeps_step env info _ _ _
    | exact .pure _
    | skip
  refine (modifyFlow_keeps_step fun _ _ => Nat.zero_le _).bind fun _ =>
    (modifyFlow_keeps_step (by exact fun _ bound => bound)).bind fun _ => ?_
  split
  · exact (run_keeps_step env _).bind fun _ => run_keeps_step env _
  · exact run_keeps_step env _

private theorem handleSegment_keeps_step : Keeps StepBound (handleSegment env info) :=
  (construct_keeps _ _ _).bind fun _ =>
    (modifyFlow_keeps_step fun _ _ => Nat.zero_le _).bind fun _ =>
      dispatch_keeps_step env info _ _

theorem drainLoop_keeps_step {messageType : EnumMsgtype} {iteration : Action Control}
    (loop : drainLoop env info messageType = some iteration) : Keeps StepBound iteration := by
  by_cases account : messageType = .bulkPullAccount
  · rw [account] at loop
    cases loop
    exact accountIteration_keeps_step env info
  · exact drainLoop_keeps_stepAtMost env info account loop

end StepBound

variable {env : Environment} {info : NanoPacket}

private theorem processSegment_keeps_step {fuel : Nat} {world : World}
    {result : EStateM.Result Exception World Unit}
    (processed : processSegment env fuel info world = some result) (bound : StepBound world) :
    StepBound (stateOf result) := by
  unfold processSegment at processed
  split at processed
  · rename_i iteration byte bytes loop data
    exact (drainLoop_keeps_step env info loop).loop ⟨fuel, processed⟩ bound
  · cases processed
    exact handleSegment_keeps_step env info world bound

theorem Reachable.step_le {handler : Handler} (reachable : Reachable env handler) :
    handler.flow.step ≤ 1 := by
  induction reachable with
  | start fresh => rw [fresh]; exact Nat.zero_le _
  | deliver _ handles induction =>
      obtain ⟨fuel, returns⟩ := handles
      obtain ⟨result, processed, rfl⟩ := Option.map_eq_some_iff.mp returns
      rw [Handler.checkMaxReached_toWorld] at processed
      have bound := processSegment_keeps_step processed induction
      rwa [StepBound, ← Handler.settle_toWorld] at bound
  | connectionStart _ _ => exact Nat.zero_le _
  | otherFlows _ _ induction => exact induction

/-! ## The bulk_pull_account loop -/

section AccountLoop

variable (env : Environment) (info : NanoPacket) {world next : World}

/-- The statement of `table` is reset, and SQLite refuses no execution from here on. -/
structure Db.AcceptsAlways (db : Db) (env : Environment) (table : Table) : Prop where
  ready : (db.statements table).phase = .ready
  succeeds : ∀ execution, db.executed ≤ execution → env.fails execution = false

theorem Db.AcceptsAlways.accepts {db : Db} {table : Table}
    (always : db.AcceptsAlways env table) : db.Accepts env table :=
  ⟨always.ready, always.succeeds _ (Nat.le_refl _)⟩

/-- The states behind the header from which the loop does not end. -/
structure Spins (world : World) : Prop where
  step : world.flow.step = 1
  flags : world.flow.requestFlags = pendingHashAmountAndAddress
  pending : Pending world.flow.accumulatedData.toList
  accepts : env.config.bootstrapDetails →
    world.db.AcceptsAlways env .bulkPullAccountResponseEntry

/-- One successful execution does not change what is accepted from there on. -/
theorem Db.acceptsAlways_iff_of_executed {before after : Db} {table : Table}
    (phase : (after.statements table).phase = (before.statements table).phase)
    (executed : after.executed = before.executed + 1)
    (succeeded : env.fails before.executed = false) :
    after.AcceptsAlways env table ↔ before.AcceptsAlways env table := by
  constructor
  · rintro ⟨ready, succeeds⟩
    refine ⟨phase ▸ ready, fun execution later => ?_⟩
    by_cases now : execution = before.executed
    · exact now ▸ succeeded
    · exact succeeds execution (by omega)
  · rintro ⟨ready, succeeds⟩
    exact ⟨phase.trans ready, fun execution later => succeeds execution (by omega)⟩

theorem Repeated.acceptsAlways_iff {table : Table} (repeated : Repeated env world next)
    (details : env.config.bootstrapDetails) :
    next.db.AcceptsAlways env table ↔ world.db.AcceptsAlways env table :=
  Db.acceptsAlways_iff_of_executed env (repeated.phase table) (repeated.executed details)
    (repeated.accepts details).succeeds

theorem Recorded.acceptsAlways_iff {table other : Table} (recorded : Recorded env table world next)
    (details : env.config.bootstrapDetails) :
    next.db.AcceptsAlways env other ↔ world.db.AcceptsAlways env other :=
  Db.acceptsAlways_iff_of_executed env (recorded.phase other) (recorded.executed details)
    (recorded.accepts details).succeeds

theorem Spins.again (spins : Spins env world) :
    ∃ next, accountIteration env info world = .ok .again next ∧ Spins env next := by
  have some : world.flow.accumulatedData.toList ≠ [] := by
    intro empty
    have pending := spins.pending.1
    rw [empty] at pending
    cases pending
  obtain ⟨next, entry, repeated⟩ := accountEntry_repeated env info
    (.ofBytes world.flow.accumulatedData.toList) spins.flags spins.pending
    fun details => (spins.accepts details).accepts
  refine ⟨next, ?_, by rw [repeated.flow]; exact spins.step,
    by rw [repeated.flow]; exact spins.flags, by rw [repeated.flow]; exact spins.pending,
    fun details => (repeated.acceptsAlways_iff env details).mpr (spins.accepts details)⟩
  rw [accountIteration_step_one env info spins.step some]
  exact catchRuntimeError_of_ok (EStateM.bind_of_ok entry)

theorem Spins.not_returns (spins : Spins env world) (result : EStateM.Result Exception World Unit) :
    ¬Loop.Returns (accountIteration env info) world result := by
  rintro ⟨fuel, finished⟩
  rw [Loop.run_eq_none_of_stuck (Spins env) (fun _ spins => spins.again env info) spins fuel]
    at finished
  cases finished

theorem returns_of_not_again
    (stops : ∀ next, accountIteration env info world ≠ .ok .again next) :
    ∃ result, Loop.Returns (accountIteration env info) world result := by
  cases step : accountIteration env info world with
  | error exception next => exact ⟨_, .of_error step⟩
  | ok control next =>
      cases control with
      | leave => exact ⟨_, .of_leave step⟩
      | again => exact absurd step (stops next)

theorem returns_of_initial (reset : world.flow = .initial) :
    ∃ result, Loop.Returns (accountIteration env info) world result :=
  ⟨_, .of_leave (accountIteration_empty env info (by rw [reset]; rfl))⟩

theorem returns_of_again (again : accountIteration env info world = .ok .again next)
    (returns : ∃ result, Loop.Returns (accountIteration env info) next result) :
    ∃ result, Loop.Returns (accountIteration env info) world result := by
  obtain ⟨result, returns⟩ := returns
  exact ⟨result, (Loop.returns_again_iff again result).mpr returns⟩

/-- Behind the header a pending entry is read again until SQLite refuses to store
it. -/
private theorem returns_of_refusal (details : env.config.bootstrapDetails)
    (step : world.flow.step = 1) {refused : Nat} (later : world.db.executed ≤ refused)
    (refuses : env.fails refused = true) :
    ∃ result, Loop.Returns (accountIteration env info) world result := by
  generalize distance : refused - world.db.executed = remaining
  induction remaining generalizing world with
  | zero =>
      have now : world.db.executed = refused := by omega
      by_cases again : ∃ next, accountIteration env info world = .ok .again next
      · obtain ⟨next, again⟩ := again
        rcases accountIteration_again_of_one env info step again with ⟨reset, -⟩ | ⟨-, repeated⟩
        · exact returns_of_again env info again (returns_of_initial env info reset)
        · have succeeds := (repeated.accepts details).succeeds
          rw [now, refuses] at succeeds
          cases succeeds
      · exact returns_of_not_again env info fun next equal => again ⟨next, equal⟩
  | succ remaining induction =>
      by_cases again : ∃ next, accountIteration env info world = .ok .again next
      · obtain ⟨next, again⟩ := again
        refine returns_of_again env info again ?_
        rcases accountIteration_again_of_one env info step again with ⟨reset, -⟩ | ⟨-, repeated⟩
        · exact returns_of_initial env info reset
        · have executed := repeated.executed details
          exact induction (by rw [repeated.flow]; exact step) (by omega) (by omega)
      · exact returns_of_not_again env info fun next equal => again ⟨next, equal⟩

theorem returns_of_not_spins (step : world.flow.step = 1) (ends : ¬Spins env world) :
    ∃ result, Loop.Returns (accountIteration env info) world result := by
  by_cases again : ∃ next, accountIteration env info world = .ok .again next
  · obtain ⟨next, again⟩ := again
    rcases accountIteration_again_of_one env info step again with
      ⟨reset, -⟩ | ⟨repeats, repeated⟩
    · exact returns_of_again env info again (returns_of_initial env info reset)
    · -- it repeats now, so what keeps it from spinning is a later refusal
      have refused : env.config.bootstrapDetails ∧
          ¬world.db.AcceptsAlways env .bulkPullAccountResponseEntry := by
        by_contra always
        refine ends ⟨step, repeats.flags, repeats.pending, fun details => ?_⟩
        by_contra refuses
        exact always ⟨details, refuses⟩
      obtain ⟨details, refuses⟩ := refused
      have later : ∃ execution, world.db.executed ≤ execution ∧
          env.fails execution = true := by
        by_contra never
        refine refuses ⟨(repeats.accepts details).ready, fun execution after => ?_⟩
        cases answer : env.fails execution with
        | false => rfl
        | true => exact absurd ⟨execution, after, answer⟩ never
      obtain ⟨execution, after, fails⟩ := later
      exact returns_of_refusal env info details step after fails
  · exact returns_of_not_again env info fun next equal => again ⟨next, equal⟩

/-- The states in front of the header from which the loop does not end: the entry
behind the header is pending, and so is what the shifted memory holds in its
place. -/
structure SpinsBehindHeader (world : World) : Prop where
  step : world.flow.step = 0
  flags : world.flow.requestFlags = pendingHashAmountAndAddress
  pending : Pending (world.flow.accumulatedData.toList.drop 48)
  shifted : Pending (memoryBehindHeader world.flow.accumulatedData.toList).rest
  accepts : env.config.bootstrapDetails →
    world.db.AcceptsAlways env .bulkPullAccountResponse ∧
    world.db.AcceptsAlways env .bulkPullAccountResponseEntry

theorem SpinsBehindHeader.again (spins : SpinsBehindHeader env world) :
    ∃ next, accountIteration env info world = .ok .again next ∧ Spins env next := by
  have enough : 48 ≤ world.flow.accumulatedData.toList.length := by
    have long := spins.pending.1
    rw [List.length_drop] at long
    omega
  obtain ⟨entry, rest, -, bytes⟩ := FrontierBalanceEntry.codec.split enough
  obtain ⟨stored, put, recorded⟩ := @entry_recorded env world .bulkPullAccountResponse
    (fun id flow => entry.cells id flow.messageId) fun details => (spins.accepts details).1.accepts
  have alwaysStored : env.config.bootstrapDetails →
      stored.db.AcceptsAlways env .bulkPullAccountResponseEntry := fun details =>
    (recorded.acceptsAlways_iff env details).mpr (spins.accepts details).2
  let consumed : World := { stored with flow := consumeHeader stored.flow }
  have flags : consumed.flow.requestFlags = pendingHashAmountAndAddress :=
    (congrArg TcpFlowData.requestFlags recorded.flow).trans spins.flags
  obtain ⟨next, second, repeated⟩ := @accountEntry_repeated env info consumed
    (memoryBehindHeader (entry.wire ++ rest)) flags (bytes ▸ spins.shifted)
    fun details => (alwaysStored details).accepts
  refine ⟨next, ?_, ?_, by rw [repeated.flow]; exact flags, ?_, fun details =>
    (repeated.acceptsAlways_iff env details).mpr (alwaysStored details)⟩
  · rw [accountIteration_step_zero env info spins.step bytes, putFrontierBalanceEntry_eq]
    refine catchRuntimeError_of_ok ?_
    rw [EStateM.bind_of_ok put]
    have modified : modifyFlow consumeHeader stored = .ok () consumed := rfl
    rw [EStateM.bind_of_ok modified, EStateM.bind_of_ok second]
    rfl
  · rw [repeated.flow]
    exact congrArg (· + 1) ((congrArg TcpFlowData.step recorded.flow).trans spins.step)
  · rw [repeated.flow]
    have buffer : consumed.flow.accumulatedData.toList =
        world.flow.accumulatedData.toList.drop 48 :=
      congrArg (fun flow : TcpFlowData => flow.accumulatedData.toList.drop 48) recorded.flow
    exact buffer ▸ spins.pending

private theorem returns_of_not_spinsBehindHeader (step : world.flow.step = 0)
    (ends : ¬SpinsBehindHeader env world) :
    ∃ result, Loop.Returns (accountIteration env info) world result := by
  by_cases again : ∃ next, accountIteration env info world = .ok .again next
  · obtain ⟨next, again⟩ := again
    refine returns_of_again env info again ?_
    obtain ⟨-, stored, recorded, reset | ⟨flags, shifted, repeated⟩⟩ :=
      accountIteration_again_of_zero env info step again
    · exact returns_of_initial env info reset
    · have stepped : next.flow.step = 1 := by
        rw [repeated.flow]
        exact congrArg (· + 1) step
      refine returns_of_not_spins env info stepped fun spins => ends ?_
      have pending := spins.pending
      rw [repeated.flow] at pending
      refine ⟨step, flags, pending, shifted, fun details => ?_⟩
      have later := (repeated.acceptsAlways_iff env details).mp (spins.accepts details)
      have always := (recorded.acceptsAlways_iff env details).mp later
      exact ⟨⟨(recorded.accepts details).ready, always.succeeds⟩, always⟩
  · exact returns_of_not_again env info fun next equal => again ⟨next, equal⟩

private theorem accountLoop_returns_iff (step : world.flow.step ≤ 1) :
    (∃ result, Loop.Returns (accountIteration env info) world result) ↔
      ¬(Spins env world ∨ SpinsBehindHeader env world) := by
  constructor
  · rintro ⟨result, returns⟩ (spins | spins)
    · exact spins.not_returns env info result returns
    · obtain ⟨next, again, later⟩ := spins.again env info
      exact later.not_returns env info result ((Loop.returns_again_iff again result).mp returns)
  · intro ends
    by_cases one : world.flow.step = 1
    · exact returns_of_not_spins env info one fun spins => ends (.inl spins)
    · exact returns_of_not_spinsBehindHeader env info (by omega) fun spins => ends (.inr spins)

end AccountLoop

/-! ## Segments -/

section Segments

variable {env : Environment} {info : NanoPacket}

private theorem drainLoop_returns {messageType : EnumMsgtype} {iteration : Action Control}
    (loop : drainLoop env info messageType = some iteration)
    (other : messageType ≠ .bulkPullAccount) (world : World) :
    ∃ result, Loop.Returns iteration world result := by
  obtain ⟨result, finished⟩ := Loop.run_of_measure (fun _ => True)
    (fun world : World => world.flow.accumulatedData.size)
    (fun state next _ again => ⟨trivial, drainLoop_again env info loop other again⟩)
    (trivial : (fun _ => True) world)
  exact ⟨result, _, finished⟩

/-- The segments on which `handle_tcp` does not return. -/
structure Stalls (env : Environment) (info : NanoPacket) (handler : Handler) : Prop where
  mode : handler.flow.currentMsgType = .bulkPullAccount
  data : info.data ≠ []
  spins : Spins env (accumulate info handler.toWorld) ∨
    SpinsBehindHeader env (accumulate info handler.toWorld)

theorem processSegment_returns_iff {world : World} (step : world.flow.step ≤ 1) :
    (∃ fuel result, processSegment env fuel info world = some result) ↔
      ¬(world.flow.currentMsgType = .bulkPullAccount ∧ info.data ≠ [] ∧
        (Spins env (accumulate info world) ∨ SpinsBehindHeader env (accumulate info world))) := by
  unfold processSegment
  cases data : info.data with
  | nil =>
      refine iff_of_true ⟨0, handleSegment env info world, ?_⟩ (by simp)
      cases drainLoop env info world.flow.currentMsgType <;> rfl
  | cons byte bytes =>
      cases loop : drainLoop env info world.flow.currentMsgType with
      | none =>
          refine iff_of_true ⟨0, handleSegment env info world, rfl⟩ ?_
          rintro ⟨mode, -⟩
          rw [mode] at loop
          cases loop
      | some iteration =>
          by_cases mode : world.flow.currentMsgType = .bulkPullAccount
          · rw [mode] at loop
            cases loop
            have returns := @accountLoop_returns_iff env info (accumulate info world) step
            simp only [mode, true_and, ne_eq, reduceCtorEq, not_false_eq_true]
            rw [← returns]
            exact exists_comm
          · refine iff_of_true ?_ fun stalls => mode stalls.1
            obtain ⟨result, fuel, finished⟩ :=
              drainLoop_returns loop mode (accumulate info world)
            exact ⟨fuel, result, finished⟩

/-- `handle_tcp` returns exactly when the segment does not stall the flow, and an
iteration of a drain loop makes progress exactly when it does not read a pending
entry of a bulk_pull_account response and record it. -/
theorem handleTcp_returns_iff {handler : Handler} (reachable : Reachable env handler)
    (info : NanoPacket) :
    ((∃ after, Handles env info handler after) ↔ ¬Stalls env info handler) ∧
    ∀ messageType iteration, drainLoop env info messageType = some iteration →
      ∀ world : World, world.flow.step ≤ 1 →
        (Progresses world (iteration world) ↔
          ¬(messageType = .bulkPullAccount ∧ Repeats env world)) := by
  constructor
  · have returns := @processSegment_returns_iff env info handler.toWorld reachable.step_le
    have stalls : Stalls env info handler ↔
        handler.flow.currentMsgType = .bulkPullAccount ∧ info.data ≠ [] ∧
          (Spins env (accumulate info handler.toWorld) ∨
            SpinsBehindHeader env (accumulate info handler.toWorld)) :=
      ⟨fun stalls => ⟨stalls.mode, stalls.data, stalls.spins⟩,
        fun ⟨mode, data, spins⟩ => ⟨mode, data, spins⟩⟩
    rw [stalls, ← returns]
    simp [handles_iff]
  · intro messageType iteration loop world step
    by_cases account : messageType = .bulkPullAccount
    · subst account
      cases loop
      simpa using accountIteration_progresses env info step
    · exact iff_of_true (drainLoop_progresses env info loop account) fun repeats =>
        account repeats.1

def bulkPullAccountRequest (flags : UInt8) : List UInt8 :=
  [0x52, 0x43, 18, 18, 13, 11, 0, 0] ++ List.replicate 32 1 ++ List.replicate 16 0 ++ [flags]

theorem reachable_bulkPullAccount : ∃ handler, Reachable .sample handler ∧
    handler.flow = { TcpFlowData.reset .bulkPullAccount with
      requestFlags := 2
      packetId := handler.flow.packetId
      messageId := handler.flow.messageId } ∧
    handler.db.Ready := by
  let request := NanoPacket.sample (bulkPullAccountRequest 2)
  let nano : Nano := ⟨⟨0x43, 18, 18, 13, .bulkPullAccount, 0⟩,
    .bulkPullAccount ⟨⟨List.replicate 32 1, by simp⟩, .zero 16, 2⟩⟩
  have reads : Nano.read (.ofBytes request.data) = .ok nano ⟨57, []⟩ := rfl
  have ready := Db.opened_ready .empty
  have handled := handleSegment_of_ok Environment.sample_neverFails request ready
    .initial reads
  let after := Handler.sample.checkMaxReached.settle
    (.ok () (nano.after .sample request Handler.sample.db))
  have handles : Handles .sample request Handler.sample after :=
    (handles_iff Handler.sample after).mpr ⟨0, _, congrArg some handled, rfl⟩
  exact ⟨after, .deliver (.start rfl) handles, rfl, nano.ready_after ready⟩

theorem accumulate_of_empty {world : World} {info : NanoPacket}
    (empty : world.flow.accumulatedData = .empty) (fits : info.data.length ≤ 4096) :
    (accumulate info world).flow.accumulatedData.toList = info.data := by
  change (world.flow.accumulatedData.append info.data).toList = info.data
  rw [empty, CircularBuffer.toList_append_of_fits _ _ (by simpa using fits)]
  rfl

/-- A record and a terminator do not stall the flow, and the record makes progress. -/
theorem handleTcp_returns_first :
    ∃ handler info, Reachable .sample handler ∧
      handler.flow.currentMsgType = .bulkPullAccount ∧
      info.data = List.replicate 48 1 ++ List.replicate 80 0 ∧
      (∃ after, Handles .sample info handler after) ∧
        Progresses (accumulate info handler.toWorld)
          (accountIteration .sample info (accumulate info handler.toWorld)) := by
  obtain ⟨info, data⟩ : ∃ info : NanoPacket,
      info.data = List.replicate 48 1 ++ List.replicate 80 0 := ⟨.sample _, rfl⟩
  obtain ⟨handler, reachable, flow, -⟩ := reachable_bulkPullAccount
  have step : handler.flow.step = 0 := (congrArg TcpFlowData.step flow :)
  have buffer : (accumulate info handler.toWorld).flow.accumulatedData.toList = info.data :=
    accumulate_of_empty (congrArg TcpFlowData.accumulatedData flow :) (by simp [data])
  obtain ⟨returns, progresses⟩ := handleTcp_returns_iff reachable info
  have record := progresses .bulkPullAccount (accountIteration .sample info) rfl
    (accumulate info handler.toWorld) (Nat.le_trans (Nat.le_of_eq step) (Nat.zero_le 1))
  refine ⟨handler, info, reachable, (congrArg TcpFlowData.currentMsgType flow :), data,
    returns.mpr ?_, record.mpr ?_⟩
  · rintro ⟨-, -, spins | spins⟩
    · exact absurd (step.symm.trans spins.step) (by decide)
    · have pending := spins.pending
      rw [buffer, data] at pending
      exact absurd pending (by decide +kernel)
  · rintro ⟨-, repeats⟩
    exact absurd (step.symm.trans repeats.step) (by decide)

theorem pending_replicate {count : Nat} (enough : 80 ≤ count) :
    Pending (List.replicate count 1) := by
  have front : min 32 count = 32 := by omega
  have behind : min 32 (count - 48) = 32 := by omega
  refine ⟨by simpa using enough, ?_, ?_⟩
  · rw [List.take_replicate, front]
    decide
  · rw [List.drop_replicate, List.take_replicate, behind]
    decide

/-- Ones only: a record and an entry, and ones again in the memory behind them. -/
private theorem spinsBehindHeader_of_ones {handler : Handler} {data : List UInt8}
    (ones : data = List.replicate 128 1) (ready : handler.db.Ready)
    (flow : handler.flow = { TcpFlowData.reset .bulkPullAccount with
      requestFlags := 2
      packetId := handler.flow.packetId
      messageId := handler.flow.messageId }) :
    SpinsBehindHeader .sample (accumulate (.sample data) handler.toWorld) := by
  have buffer : (accumulate (.sample data) handler.toWorld).flow.accumulatedData.toList =
      List.replicate 128 1 :=
    (accumulate_of_empty (congrArg TcpFlowData.accumulatedData flow :)
      (by simp [NanoPacket.sample, ones])).trans ones
  refine ⟨(congrArg TcpFlowData.step flow :), (congrArg TcpFlowData.requestFlags flow :), ?_, ?_,
    fun _ => ⟨⟨ready.reset _, fun _ _ => rfl⟩, ⟨ready.reset _, fun _ _ => rfl⟩⟩⟩
  · rw [buffer, List.drop_replicate]
    exact pending_replicate (by decide)
  · rw [buffer, memoryBehindHeader, CircularBuffer.memoryAfterErase, List.drop_replicate,
      List.drop_replicate, List.replicate_append_replicate, List.drop_replicate,
      List.length_replicate]
    exact @pending_replicate 80 (by decide)

/-- A record and an entry in one segment, which keep `handle_tcp` busy for ever. -/
theorem handleTcp_not_returns :
    ¬∀ (env : Environment) (handler : Handler), Reachable env handler →
      ∀ info, ∃ after, Handles env info handler after := by
  intro returns
  obtain ⟨handler, reachable, flow, ready⟩ := reachable_bulkPullAccount
  obtain ⟨after, handles⟩ := returns .sample handler reachable (.sample (List.replicate 128 1))
  obtain ⟨fuel, result, processed, -⟩ := (handles_iff handler after).mp handles
  have ends := (processSegment_returns_iff reachable.step_le).mp ⟨fuel, result, processed⟩
  exact ends ⟨(congrArg TcpFlowData.currentMsgType flow :), by simp [NanoPacket.sample],
    .inr (spinsBehindHeader_of_ones rfl ready flow)⟩

end Segments

end Nanocap
