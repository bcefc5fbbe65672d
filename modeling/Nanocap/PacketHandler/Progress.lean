import Nanocap.PacketHandler.Iterations

/-! # Progress of the drain loops

Three of the loops consume bytes in every iteration that asks for another one.
The bulk_pull_account loop reads pending entries without erasing them, and goes
round for ever on one that is not all zero. -/

namespace Nanocap

open Loop (Control)

/-- The iteration removes a byte, advances the step, resets the flow, or leaves. -/
def Progresses (before : World) : EStateM.Result Exception World Control → Prop
  | .ok .again after =>
      after.flow.accumulatedData.size < before.flow.accumulatedData.size ∨
      before.flow.step < after.flow.step ∨ after.flow = .initial
  | _ => True

section Results

variable (env : Environment) (info : NanoPacket) {world next after : World}

/-! ## Database calls and the flow -/

theorem whenBootstrapDetails_rewritten (put : Put Unit) (world : World) :
    world.flow.Rewritten (stateOf (whenBootstrapDetails env put world)).flow := by
  unfold whenBootstrapDetails
  split
  · exact Put.run_rewritten env put world
  · rfl

theorem whenBootstrapDetails_of_ok {put : Put Unit} {result : Unit}
    (returns : whenBootstrapDetails env put world = .ok result after) :
    world.flow.Rewritten after.flow := by
  have kept := whenBootstrapDetails_rewritten env put world
  rwa [returns] at kept

private theorem endResponse_of_ok {event : TcpFlowData → String} {result : Unit}
    (returns : endResponse env info event world = .ok result after) :
    after.flow = .initial := by
  obtain ⟨_, _, _, reset⟩ := EStateM.bind_eq_ok returns
  obtain ⟨_, _, _, reset⟩ := EStateM.bind_eq_ok reset
  cases reset
  rfl

theorem size_of_consumed {put : Put Unit} {ks : KStream} {result : Control}
    (advanced : 0 < ks.position) (some : 0 < world.flow.accumulatedData.size)
    (returns : (do
      whenBootstrapDetails env put
      consumeEntry ks
      return Control.again) world = .ok result after) :
    after.flow.accumulatedData.size < world.flow.accumulatedData.size := by
  obtain ⟨_, stored, put, rest⟩ := EStateM.bind_eq_ok returns
  obtain ⟨_, consumed, consumes, done⟩ := EStateM.bind_eq_ok rest
  cases consumes
  cases done
  have kept := (whenBootstrapDetails_of_ok env put).accumulatedData
  simp only [CircularBuffer.size_eraseFront, kept]
  omega

theorem pure_leave_ne (state next : World) :
    (pure .leave : Action Control) state ≠ .ok .again next := by
  intro equal
  cases equal

/-! ## Frontiers -/

private theorem frontierIteration_again
    (again : frontierIteration env info world = .ok .again next) :
    next.flow.accumulatedData.size < world.flow.accumulatedData.size := by
  by_cases short : world.flow.accumulatedData.toList.length < 64
  · rw [frontierIteration_short env info short] at again
    cases again
  · obtain ⟨entry, rest, -, bytes⟩ := FrontierEntry.codec.split (Nat.le_of_not_lt short)
    rw [frontierIteration_entry env info bytes] at again
    have body := catchRuntimeError_eq_ok (by
      intro state next equal
      cases equal) again
    unfold frontierRest at body
    split at body
    · obtain ⟨_, _, _, left⟩ := EStateM.bind_eq_ok body
      cases left
    · exact size_of_consumed env (by decide) (by rw [CircularBuffer.size]; omega) body

/-! ## Bulk transfers -/

theorem bulkIteration_again {Entry : Type} {name : String}
    {build : UInt8 → BlockSelector → Entry} {put : Entry → Put Unit}
    (again : bulkIteration env info name (readBulkEntry build) put world = .ok .again next) :
    next.flow.accumulatedData.size < world.flow.accumulatedData.size := by
  cases bytes : world.flow.accumulatedData.toList with
  | nil =>
      rw [bulkIteration_empty env info name build put bytes] at again
      cases again
  | cons first rest =>
      rw [bulkIteration_cons env info name build put bytes] at again
      split at again
      · obtain ⟨_, _, _, left⟩ := EStateM.bind_eq_ok again
        cases left
      · have body := catchRuntimeError_eq_ok pure_leave_ne again
        obtain ⟨⟨entry, ks⟩, same, parsed, rest⟩ := EStateM.bind_eq_ok body
        obtain ⟨rfl, reads⟩ := construct_eq_ok parsed
        have advanced := (readBulkEntry_consumes build _ _ _ reads).2
        exact size_of_consumed env advanced (by simp [CircularBuffer.size, bytes]) rest

/-! ## Pending entries -/

def Pending (bytes : List UInt8) : Prop :=
  80 ≤ bytes.length ∧ allZero (bytes.take 32) = false ∧
    allZero ((bytes.drop 48).take 32) = false

instance (bytes : List UInt8) : Decidable (Pending bytes) :=
  inferInstanceAs (Decidable (_ ∧ _ ∧ _))

open BulkPullAccountEntry (part)

theorem pending_wire {entry : BulkPullAccountEntry}
    (layout : entry.Layout pendingHashAmountAndAddress) (rest : List UInt8) :
    Pending (entry.wire ++ rest) ↔
      allZero (part entry.hash) = false ∧ allZero (part entry.source) = false := by
  obtain ⟨hash, amount, source⟩ := entry
  cases hash with
  | none => simp [BulkPullAccountEntry.Layout, pendingHashAmountAndAddress, pendingAddressOnly]
      at layout
  | some hash => cases amount with
    | none => simp [BulkPullAccountEntry.Layout, pendingHashAmountAndAddress,
        pendingAddressOnly] at layout
    | some amount => cases source with
      | none => simp [BulkPullAccountEntry.Layout] at layout
      | some source =>
          have bytes : BulkPullAccountEntry.wire ⟨some hash, some amount, some source⟩ ++ rest =
              (hash.val ++ amount.val) ++ (source.val ++ rest) := by
            simp [BulkPullAccountEntry.wire, part]
          have front : (hash.val ++ amount.val ++ (source.val ++ rest)).take 32 = hash.val := by
            rw [List.append_assoc, List.take_left' hash.property]
          have behind : (hash.val ++ amount.val ++ (source.val ++ rest)).drop 48 =
              source.val ++ rest := List.drop_left' (by simp)
          rw [Pending, bytes, front, behind, List.take_left' source.property]
          have long : 80 ≤ (hash.val ++ amount.val ++ (source.val ++ rest)).length := by
            simp only [List.length_append, Bytes.length_val]
            omega
          exact and_iff_right long

private theorem read_pending {flags : UInt8} {stream : KStream}
    (all : flags = pendingHashAmountAndAddress) (pending : Pending stream.rest) :
    ∃ entry stop, BulkPullAccountEntry.read flags stream = .ok entry stop ∧
      allZero (part entry.source) = false ∧ allZero (part entry.hash) = false := by
  subst all
  rcases (BulkPullAccountEntry.codec pendingHashAmountAndAddress).cases stream with
    ⟨short, -⟩ | ⟨entry, rest, layout, bytes, reads⟩
  · exact absurd pending.1 (Nat.not_le_of_lt short)
  · rw [bytes, pending_wire layout] at pending
    exact ⟨entry, _, reads, pending.2, pending.1⟩

/-- Anything else is an incomplete entry or looks like the last one: under other
flags a part is absent, and the empty string counts as all zero. -/
theorem read_not_pending {flags : UInt8} {stream : KStream}
    (ended : ¬(flags = pendingHashAmountAndAddress ∧ Pending stream.rest)) :
    (∃ stop, BulkPullAccountEntry.read flags stream = .error .runtimeError stop) ∨
    ∃ entry stop, BulkPullAccountEntry.read flags stream = .ok entry stop ∧
      (allZero (part entry.source) = true ∨ allZero (part entry.hash) = true) := by
  rcases (BulkPullAccountEntry.codec flags).cases stream with
    ⟨-, stopped, raises⟩ | ⟨entry, rest, layout, bytes, reads⟩
  · exact .inl ⟨stopped, raises⟩
  · refine .inr ⟨entry, _, reads, ?_⟩
    by_cases all : flags = pendingHashAmountAndAddress
    · subst all
      have notPending : ¬Pending stream.rest := fun pending => ended ⟨rfl, pending⟩
      rw [bytes, pending_wire layout] at notPending
      cases hash : allZero (part entry.hash) with
      | true => exact .inr rfl
      | false => exact .inl (by simpa [hash] using notPending)
    · by_cases addressOnly : flags = pendingAddressOnly
      · have absent : entry.hash = none := by
          simpa [addressOnly] using layout.1
        exact .inr (by rw [absent]; rfl)
      · have absent : entry.source = none := by
          simpa [addressOnly, all] using layout.2.2
        exact .inl (by rw [absent]; rfl)

theorem accountEntry_pending {stream : KStream}
    (all : world.flow.requestFlags = pendingHashAmountAndAddress)
    (pending : Pending stream.rest) :
    ∃ entry, accountEntry env info stream world = (do
      whenBootstrapDetails env (putBulkPullAccountEntry entry)
      modifyFlow fun flow => { flow with responseCount := flow.responseCount + 1 }) world := by
  obtain ⟨entry, stop, reads, source, hash⟩ := read_pending all pending
  refine ⟨entry, ?_⟩
  rw [accountEntry_of_ok env info reads, accountEntryRest, if_neg (by simp [source, hash])]

theorem accountEntry_ended {stream : KStream} {result : Unit}
    (ended : ¬(world.flow.requestFlags = pendingHashAmountAndAddress ∧ Pending stream.rest))
    (returns : accountEntry env info stream world = .ok result next) :
    next.flow = .initial := by
  rcases read_not_pending ended with ⟨stop, raises⟩ | ⟨entry, stop, reads, zero⟩
  · rw [accountEntry_of_error env info raises] at returns
    cases returns
  · rw [accountEntry_of_ok env info reads, accountEntryRest, if_pos zero] at returns
    exact endResponse_of_ok env info returns

/-! ## Entries and the statement they need -/

/-- `next` follows `world` when one entry has been put into `table`. -/
structure Recorded (table : Table) (world next : World) : Prop where
  flow : next.flow = world.flow
  phase : ∀ other, (next.db.statements other).phase = (world.db.statements other).phase
  executed : env.config.bootstrapDetails → next.db.executed = world.db.executed + 1
  accepts : env.config.bootstrapDetails → world.db.Accepts env table

section Entry

variable {table : Table} {cells : Nat → TcpFlowData → List Cell}

theorem entry_recorded (accepts : env.config.bootstrapDetails → world.db.Accepts env table) :
    ∃ next, whenBootstrapDetails env (Put.entry table cells) world = .ok () next ∧
      Recorded env table world next := by
  unfold whenBootstrapDetails
  split
  · rename_i details
    refine ⟨_, Put.run_entry_of_accepts cells (accepts details), rfl, fun other => ?_, fun _ => rfl,
      fun _ => accepts details⟩
    by_cases equal : other = table
    · subst equal
      simpa using (accepts details).ready.symm
    · rw [Db.insertRow_statements_of_ne _ _ equal]
      rfl
  · rename_i noDetails
    exact ⟨world, rfl, rfl, fun _ => rfl, fun details => absurd details noDetails,
      fun details => absurd details noDetails⟩

theorem entry_recorded_of_ok {result : Unit} (some : ∀ id flow, cells id flow ≠ [])
    (returns : whenBootstrapDetails env (Put.entry table cells) world = .ok result next) :
    Recorded env table world next := by
  by_cases accepts : env.config.bootstrapDetails → world.db.Accepts env table
  · obtain ⟨other, recorded, holds⟩ := @entry_recorded env world table cells accepts
    rw [recorded] at returns
    cases returns
    exact holds
  · obtain ⟨details, refuses⟩ := Classical.not_imp.mp accepts
    obtain ⟨after, raises⟩ := Put.run_entry_of_not_accepts cells refuses some
    rw [whenBootstrapDetails, if_pos details, raises] at returns
    cases returns

end Entry

/-! ## The bulk_pull_account loop -/

/-- The iteration that starts behind the header record reads an entry, records it
and leaves the buffer as it is. -/
structure Repeats (world : World) : Prop where
  step : world.flow.step = 1
  flags : world.flow.requestFlags = pendingHashAmountAndAddress
  pending : Pending world.flow.accumulatedData.toList
  accepts : env.config.bootstrapDetails → world.db.Accepts env .bulkPullAccountResponseEntry

structure Repeated (world next : World) : Prop where
  flow : next.flow = { world.flow with responseCount := world.flow.responseCount + 1 }
  phase : ∀ other, (next.db.statements other).phase = (world.db.statements other).phase
  executed : env.config.bootstrapDetails → next.db.executed = world.db.executed + 1
  accepts : env.config.bootstrapDetails → world.db.Accepts env .bulkPullAccountResponseEntry

private theorem BulkPullAccountEntry.cells_ne_nil (entry : BulkPullAccountEntry) (flags : UInt8)
    (id messageId : Nat) : entry.cells flags id messageId ≠ [] := by
  simp [BulkPullAccountEntry.cells]

theorem accountEntry_of_pending {stream : KStream}
    (all : world.flow.requestFlags = pendingHashAmountAndAddress)
    (pending : Pending stream.rest) {result : Unit}
    (returns : accountEntry env info stream world = .ok result next) :
    Repeated env world next := by
  obtain ⟨entry, equal⟩ := accountEntry_pending env info all pending
  rw [equal, putBulkPullAccountEntry_eq] at returns
  obtain ⟨_, stored, put, counted⟩ := EStateM.bind_eq_ok returns
  have recorded := entry_recorded_of_ok env
    (fun id flow => entry.cells_ne_nil flow.requestFlags id flow.messageId) put
  cases counted
  exact ⟨by simp only [recorded.flow], recorded.phase, recorded.executed, recorded.accepts⟩

theorem accountEntry_repeated (stream : KStream)
    (all : world.flow.requestFlags = pendingHashAmountAndAddress)
    (pending : Pending stream.rest)
    (accepts : env.config.bootstrapDetails →
      world.db.Accepts env .bulkPullAccountResponseEntry) :
    ∃ next, accountEntry env info stream world = .ok () next ∧ Repeated env world next := by
  obtain ⟨entry, equal⟩ := accountEntry_pending env info all pending
  obtain ⟨stored, put, recorded⟩ := @entry_recorded env world _
    (fun id flow => entry.cells flow.requestFlags id flow.messageId) accepts
  refine ⟨{ stored with flow.responseCount := stored.flow.responseCount + 1 }, ?_,
    by simp only [recorded.flow], recorded.phase, recorded.executed, recorded.accepts⟩
  rw [equal, putBulkPullAccountEntry_eq, EStateM.bind_of_ok put]
  rfl

theorem accountIteration_step_one (step : world.flow.step = 1)
    (some : world.flow.accumulatedData.toList ≠ []) :
    accountIteration env info world = catchRuntimeError (do
      accountEntry env info (.ofBytes world.flow.accumulatedData.toList)
      return .again) (pure .leave) world := by
  have body : accountBody env info world.flow.accumulatedData.toList world = (do
      accountEntry env info (.ofBytes world.flow.accumulatedData.toList)
      return Control.again) world := by
    have flow : getFlow world = .ok world.flow world := rfl
    simp only [accountBody, EStateM.bind_of_ok flow, step, Nat.one_ne_zero, if_false, if_true,
      pure_bind]
  rw [accountIteration_apply, if_neg some, catchRuntimeError, catchRuntimeError, body]

theorem accountIteration_short (step : world.flow.step = 0)
    (some : world.flow.accumulatedData.toList ≠ [])
    (short : world.flow.accumulatedData.toList.length < 48) :
    accountIteration env info world = .ok .leave world := by
  have flow : getFlow world = .ok world.flow world := rfl
  have raises := @accountHeader_short env world _ short
  have body : accountBody env info world.flow.accumulatedData.toList world =
      .error .runtimeError world := by
    simp only [accountBody, EStateM.bind_of_ok flow, step, if_true]
    exact EStateM.bind_of_error raises
  rw [accountIteration_apply, if_neg some, catchRuntimeError_of_error body]
  rfl

theorem accountIteration_step_zero {entry : FrontierBalanceEntry} {rest : List UInt8}
    (step : world.flow.step = 0)
    (bytes : world.flow.accumulatedData.toList = entry.wire ++ rest) :
    accountIteration env info world = catchRuntimeError (do
      whenBootstrapDetails env (putFrontierBalanceEntry entry)
      modifyFlow consumeHeader
      accountEntry env info (memoryBehindHeader (entry.wire ++ rest))
      return .again) (pure .leave) world := by
  have flow : ∀ world : World, getFlow world = .ok world.flow world := fun _ => rfl
  have some : entry.wire ++ rest ≠ [] := by
    have length := FrontierBalanceEntry.codec.length entry trivial
    intro empty
    rw [(List.append_eq_nil_iff.mp empty).1] at length
    cases length
  have body : accountBody env info (entry.wire ++ rest) world = (do
      whenBootstrapDetails env (putFrontierBalanceEntry entry)
      modifyFlow consumeHeader
      accountEntry env info (memoryBehindHeader (entry.wire ++ rest))
      return Control.again) world := by
    simp only [accountBody, EStateM.bind_of_ok (flow _), step, if_true]
    cases put : whenBootstrapDetails env (putFrontierBalanceEntry entry) world with
    | error exception stored =>
        have header : accountHeader env (.ofBytes (entry.wire ++ rest)) world =
            .error exception stored := by
          rw [accountHeader_apply, EStateM.bind_of_error put]
        rw [EStateM.bind_of_error header, EStateM.bind_of_error put]
    | ok result stored =>
        let consumed : World := { stored with flow := consumeHeader stored.flow }
        have modified : modifyFlow consumeHeader stored = .ok () consumed := rfl
        have header : accountHeader env (.ofBytes (entry.wire ++ rest)) world =
            .ok (memoryBehindHeader (entry.wire ++ rest)) consumed := by
          rw [accountHeader_apply, EStateM.bind_of_ok put, EStateM.bind_of_ok modified]
          rfl
        have stepped : consumed.flow.step = 1 := by
          have kept := (whenBootstrapDetails_of_ok env put).step
          change stored.flow.step + 1 = 1
          rw [kept, step]
        rw [EStateM.bind_of_ok header, EStateM.bind_of_ok put, EStateM.bind_of_ok modified,
          EStateM.bind_of_ok (flow _), if_pos stepped]
  rw [accountIteration_apply, bytes, if_neg some, catchRuntimeError, catchRuntimeError, body]

theorem accountIteration_again_of_one (step : world.flow.step = 1)
    (again : accountIteration env info world = .ok .again next) :
    (next.flow = .initial ∧ ¬(world.flow.requestFlags = pendingHashAmountAndAddress ∧
      Pending world.flow.accumulatedData.toList)) ∨
    (Repeats env world ∧ Repeated env world next) := by
  by_cases some : world.flow.accumulatedData.toList = []
  · rw [accountIteration_empty env info some] at again
    cases again
  · rw [accountIteration_step_one env info step some] at again
    obtain ⟨_, entered, entry, done⟩ :=
      EStateM.bind_eq_ok (catchRuntimeError_eq_ok pure_leave_ne again)
    cases done
    by_cases pending : world.flow.requestFlags = pendingHashAmountAndAddress ∧
        Pending world.flow.accumulatedData.toList
    · have repeated := accountEntry_of_pending env info pending.1 pending.2 entry
      exact .inr ⟨⟨step, pending.1, pending.2, repeated.accepts⟩, repeated⟩
    · exact .inl ⟨accountEntry_ended env info pending entry, pending⟩

theorem accountIteration_again_of_zero (step : world.flow.step = 0)
    (again : accountIteration env info world = .ok .again next) :
    48 ≤ world.flow.accumulatedData.toList.length ∧ ∃ stored,
      Recorded env .bulkPullAccountResponse world stored ∧
      (next.flow = .initial ∨
        (world.flow.requestFlags = pendingHashAmountAndAddress ∧
          Pending (memoryBehindHeader world.flow.accumulatedData.toList).rest ∧
          Repeated env { stored with flow := consumeHeader world.flow } next)) := by
  by_cases some : world.flow.accumulatedData.toList = []
  · rw [accountIteration_empty env info some] at again
    cases again
  by_cases short : world.flow.accumulatedData.toList.length < 48
  · rw [accountIteration_short env info step some short] at again
    cases again
  · obtain ⟨entry, rest, -, bytes⟩ :=
      FrontierBalanceEntry.codec.split (Nat.le_of_not_lt short)
    rw [accountIteration_step_zero env info step bytes, putFrontierBalanceEntry_eq] at again
    obtain ⟨_, stored, put, after⟩ :=
      EStateM.bind_eq_ok (catchRuntimeError_eq_ok pure_leave_ne again)
    have recorded := entry_recorded_of_ok env
      (fun id flow => by simp [FrontierBalanceEntry.cells]) put
    obtain ⟨_, consumed, modified, after⟩ := EStateM.bind_eq_ok after
    cases modified
    obtain ⟨_, entered, entry, done⟩ := EStateM.bind_eq_ok after
    cases done
    refine ⟨Nat.le_of_not_lt short, stored, recorded, ?_⟩
    rw [recorded.flow] at entry
    by_cases pending : world.flow.requestFlags = pendingHashAmountAndAddress ∧
        Pending (memoryBehindHeader world.flow.accumulatedData.toList).rest
    · rw [bytes] at pending
      exact .inr ⟨pending.1, bytes ▸ pending.2,
        accountEntry_of_pending env info pending.1 pending.2 entry⟩
    · rw [bytes] at pending
      have ended : ¬((World.mk stored.db (consumeHeader world.flow)).flow.requestFlags =
        pendingHashAmountAndAddress ∧ Pending _) := pending
      exact .inl (accountEntry_ended env info ended entry)

/-! ## Progress of all loops -/

private theorem Repeats.not_progresses (repeats : Repeats env world) :
    ¬Progresses world (accountIteration env info world) := by
  have some : world.flow.accumulatedData.toList ≠ [] := by
    intro empty
    have pending := repeats.pending.1
    rw [empty] at pending
    cases pending
  obtain ⟨next, entry, repeated⟩ := accountEntry_repeated env info
    (.ofBytes world.flow.accumulatedData.toList) repeats.flags repeats.pending repeats.accepts
  have again : accountIteration env info world = .ok .again next := by
    rw [accountIteration_step_one env info repeats.step some]
    exact catchRuntimeError_of_ok (EStateM.bind_of_ok entry)
  rw [again]
  simp only [Progresses, repeated.flow]
  rintro (smaller | advanced | reset)
  · exact Nat.lt_irrefl _ smaller
  · exact Nat.lt_irrefl _ advanced
  · have step := congrArg TcpFlowData.step reset
    simp only [repeats.step] at step
    cases step

theorem accountIteration_progresses (step : world.flow.step ≤ 1) :
    Progresses world (accountIteration env info world) ↔ ¬Repeats env world := by
  refine ⟨fun progresses repeats => repeats.not_progresses env info progresses,
    fun notRepeats => ?_⟩
  cases result : accountIteration env info world with
  | error exception next => trivial
  | ok control next =>
      cases control with
      | leave => trivial
      | again =>
          by_cases one : world.flow.step = 1
          · rcases accountIteration_again_of_one env info one result with ⟨reset, -⟩ | ⟨repeats, -⟩
            · exact .inr (.inr reset)
            · exact absurd repeats notRepeats
          · obtain ⟨-, stored, -, reset | ⟨-, -, repeated⟩⟩ :=
              accountIteration_again_of_zero env info (by omega) result
            · exact .inr (.inr reset)
            · refine .inr (.inl ?_)
              rw [repeated.flow]
              exact Nat.lt_succ_self _

/-- Every loop but that of bulk_pull_account gives up bytes in every iteration. -/
theorem drainLoop_again {messageType : EnumMsgtype} {iteration : Action Control}
    (loop : drainLoop env info messageType = some iteration)
    (other : messageType ≠ .bulkPullAccount) (again : iteration world = .ok .again next) :
    next.flow.accumulatedData.size < world.flow.accumulatedData.size := by
  unfold drainLoop at loop
  split at loop <;> cases loop
  · exact frontierIteration_again env info again
  · exact bulkIteration_again env info again
  · exact bulkIteration_again env info again
  · exact absurd rfl other

theorem drainLoop_progresses {messageType : EnumMsgtype} {iteration : Action Control}
    (loop : drainLoop env info messageType = some iteration)
    (other : messageType ≠ .bulkPullAccount) : Progresses world (iteration world) := by
  cases result : iteration world with
  | error exception next => trivial
  | ok control next =>
      cases control with
      | leave => trivial
      | again => exact .inl (drainLoop_again env info loop other result)

end Results

end Nanocap
