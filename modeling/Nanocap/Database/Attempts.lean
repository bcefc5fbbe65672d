import Nanocap.Database.History

/-! # Calls of which SQLite refuses statements

Which executions are refused is told for each call. As long as none of its own is
refused, a call does on a working database what it does when nothing ever fails. -/

namespace Nanocap

/-! ## Refused executions -/

/-- The same surroundings, where the given executions are refused. -/
def Environment.refusing (env : Environment) (refuses : Nat → Bool) : Environment :=
  { env with fails := refuses }

theorem Environment.refusing_neverFails (env : Environment) :
    (env.refusing fun _ => false).NeverFails := fun _ => rfl

/-- A call during which SQLite refuses some of the executions. -/
structure Attempt extends Call where
  refuses : Nat → Bool

section Window

variable {env : Environment} {refuses others : Nat → Bool}

theorem execution_refusing {α : Type} {world : World}
    {accepted accepted' : EStateM.Result Exception World α} {refused : Db}
    (same : accepted' = accepted)
    (counts : (stateOf accepted).db.executed = world.db.executed + 1)
    (countsRefused : refused.executed = world.db.executed + 1) :
    (stateOf (execution (env.refusing refuses) world accepted refused)).db.executed =
        world.db.executed + 1 ∧
      (others world.db.executed = refuses world.db.executed →
        execution (env.refusing others) world accepted' refused =
          execution (env.refusing refuses) world accepted refused) := by
  unfold execution Environment.refusing
  subst same
  refine ⟨?_, fun agree => by simp only [agree]⟩
  split
  · exact countsRefused
  · exact counts

theorem Op.answer_refusing (op : Op) (world : World) :
    (stateOf (op.answer (env.refusing refuses) world)).db.executed = world.db.executed + 1 ∧
        (others world.db.executed = refuses world.db.executed →
          op.answer (env.refusing others) world = op.answer (env.refusing refuses) world) ∨
      (stateOf (op.answer (env.refusing refuses) world)).db.executed = world.db.executed ∧
        op.answer (env.refusing others) world = op.answer (env.refusing refuses) world := by
  cases op with
  | exec table =>
      simp only [Op.answer]
      split
      · exact .inr ⟨rfl, rfl⟩
      · exact .inl (execution_refusing rfl rfl (Db.refuse_executed ..))
  | commit =>
      simp only [Op.answer]
      split
      · exact .inl (execution_refusing rfl rfl (Db.refuse_executed ..))
      · exact .inr ⟨rfl, rfl⟩
  | bind table parameter value =>
      refine .inr ⟨?_, rfl⟩
      simp only [Op.answer]
      split <;> rfl
  | beginTransaction | pageSize | pageCount | deleteFrom table | deleteRuns | insertRun =>
      exact .inl (execution_refusing rfl rfl (Db.refuse_executed ..))
  | _ => exact .inr ⟨rfl, rfl⟩

theorem Put.executed_le {α : Type} (put : Put α) (world : World) :
    world.db.executed ≤ (stateOf (put.run env world)).db.executed := by
  refine (Program.every_true put).run_keeps
    (fun after : World => world.db.executed ≤ after.db.executed) (fun op _ state below => ?_)
    (Nat.le_refl _)
  rcases @Op.answer_refusing env env.fails env.fails op state with ⟨counts, -⟩ | ⟨still, -⟩
  · exact Nat.le_trans below (Nat.le_trans (Nat.le_succ _) (Nat.le_of_eq counts.symm))
  · exact Nat.le_trans below (Nat.le_of_eq still.symm)

/-- What a call does depends only on whether its own executions are refused. -/
theorem Put.run_refusing {α : Type} (put : Put α) (world : World)
    (agree : ∀ execution, world.db.executed ≤ execution →
      execution < (stateOf (put.run (env.refusing refuses) world)).db.executed →
      others execution = refuses execution) :
    put.run (env.refusing others) world = put.run (env.refusing refuses) world := by
  induction put generalizing world with
  | done result => rfl
  | perform op next induction =>
      have runs : ∀ refuses : Nat → Bool,
          Put.run (env.refusing refuses) (.perform op next) world =
            match op.answer (env.refusing refuses) world with
            | .ok response after => Put.run (env.refusing refuses) (next response) after
            | .error exception after => .error exception after := by
        intro refuses
        rw [Put.run, Program.run_perform, EStateM.bind_apply]
        cases op.answer (env.refusing refuses) world <;> rfl
      have first := @Op.answer_refusing env refuses others op world
      rw [runs] at agree
      rw [runs, runs]
      cases answer : op.answer (env.refusing refuses) world with
      | error exception after =>
          rw [answer] at first agree
          rcases first with ⟨counts, same⟩ | ⟨-, same⟩
          · have own := Nat.lt_of_lt_of_eq (Nat.lt_succ_self world.db.executed) counts.symm
            rw [same (agree _ (Nat.le_refl _) own)]
          · rw [same]
      | ok response after =>
          rw [answer] at first agree
          have later := @Put.executed_le (env.refusing refuses) _ (next response) after
          rcases first with ⟨counts, same⟩ | ⟨still, same⟩
          · have now : world.db.executed < after.db.executed :=
              Nat.lt_of_lt_of_eq (Nat.lt_succ_self _) counts.symm
            rw [same (agree _ (Nat.le_refl _) (Nat.lt_of_lt_of_le now later))]
            exact induction response after fun execution above =>
              agree execution (Nat.le_trans (Nat.le_of_lt now) above)
          · rw [same]
            exact induction response after fun execution above =>
              agree execution (Nat.le_trans (Nat.le_of_eq still.symm) above)

/-! Which executions are refused makes no difference to what is asked for. -/

private theorem putPeers_refusing (packetId : Nat) (peers : List Peer) :
    putPeers (env.refusing refuses) packetId peers = putPeers env packetId peers := by
  induction peers with
  | nil => rfl
  | cons peer peers induction =>
      rw [putPeers, putPeers, induction]
      rfl

theorem Request.put_refusing (request : Request) (info : NanoPacket) :
    request.put (env.refusing refuses) info = request.put env info := by
  cases request with
  | keepalive header msg =>
      rw [Request.put, Request.put, putKeepalive, putKeepalive]
      simp only [putPeers_refusing]
      rfl
  | _ => rfl

private theorem peerInsertions_refusing (packetId id : Nat) (peers : List Peer) :
    peerInsertions (env.refusing refuses) packetId id peers =
      peerInsertions env packetId id peers := by
  induction peers generalizing id with
  | nil => rfl
  | cons peer peers induction =>
      rw [peerInsertions, peerInsertions, induction]
      rfl

private theorem Request.plan_refusing (request : Request) (info : NanoPacket) (nextId : Nat)
    (flow : TcpFlowData) :
    request.plan (env.refusing refuses) info nextId flow = request.plan env info nextId flow := by
  cases request with
  | keepalive header msg =>
      simp only [Request.plan, peerInsertions_refusing]
  | _ => rfl

private theorem Request.after_refusing (request : Request) (info : NanoPacket) (world : World) :
    request.after (env.refusing refuses) info world = request.after env info world := by
  rw [Request.after, Request.after, Request.plan_refusing]
  rfl

end Window

/-! ## The executions of a plan -/

def Plan.executions (plan : Plan) (nextId : Nat) : Nat :=
  (if plan.commits nextId then 4 else 0) + plan.insertions.length

private theorem Db.executed_insertAll (db : Db) (insertions : List Insertion) :
    (db.insertAll insertions).executed = db.executed + insertions.length := by
  induction insertions generalizing db with
  | nil => rfl
  | cons insertion insertions induction =>
      have rest := induction (db.insertRow insertion.table insertion.cells)
      rw [Db.insertRow_executed] at rest
      rw [List.length_cons]
      exact rest.trans (by omega)

theorem Db.executed_store (env : Environment) (plan : Plan) (db : Db) :
    (db.store env plan).executed = db.executed + plan.executions db.nextId := by
  change ((db.start env plan).insertAll plan.insertions).executed = _
  rw [Db.executed_insertAll, Plan.executions, ← Nat.add_assoc]
  congr 1
  unfold Db.start Plan.commits
  cases plan.heading with
  | none => rfl
  | some heading =>
      change (commitAt env (db.nextId + heading.drawn) db).executed = _
      simp only [commitAt, beq_iff_eq]
      split <;> rfl

section Attempts

variable (env : Environment)

namespace Attempt

def plan (attempt : Attempt) (db : Db) : Plan :=
  attempt.request.plan env attempt.info db.nextId attempt.flow

def result (attempt : Attempt) (db : Db) : EStateM.Result Exception World Unit :=
  (attempt.request.put env attempt.info).run (env.refusing attempt.refuses) ⟨db, attempt.flow⟩

/-- The database an attempt leaves, whether it returns or throws. -/
def perform (attempt : Attempt) (db : Db) : Db := (stateOf (attempt.result env db)).db

def Throws (attempt : Attempt) (db : Db) : Prop :=
  ∃ exception after, attempt.result env db = .error exception after

def inserted (attempt : Attempt) (db : Db) : List Row :=
  (attempt.perform env db).contents.rows.drop db.contents.rows.length

def Undisturbed (attempt : Attempt) (db : Db) : Prop :=
  ∀ execution < (attempt.plan env db).executions db.nextId,
    attempt.refuses (db.executed + execution) = false

/-- The first execution of the call that is refused, if any, is the `COMMIT` or one of
the two `PRAGMA`s of a periodic check, and the open transaction goes on. -/
def Harmless (attempt : Attempt) (db : Db) : Prop :=
  ∀ execution < (attempt.plan env db).executions db.nextId,
    attempt.refuses (db.executed + execution) = true →
    (∀ earlier < execution, attempt.refuses (db.executed + earlier) = false) →
    (attempt.plan env db).commits db.nextId = true ∧
      (execution = 0 ∨ execution = 2 ∨ execution = 3) ∧
      env.rollsBack (db.executed + execution) = false

end Attempt

end Attempts

section Ready

variable {env : Environment} {attempt : Attempt} {db : Db} (ready : db.Ready)
include ready

theorem Attempt.Undisturbed.result_eq (undisturbed : attempt.Undisturbed env db) :
    attempt.result env db = .ok () (attempt.request.after env attempt.info ⟨db, attempt.flow⟩) := by
  have returns := Request.run_put env.refusing_neverFails attempt.info
    (by exact ready : (World.mk db attempt.flow).db.Ready) attempt.request
  rw [Request.put_refusing, Request.after_refusing] at returns
  rw [← returns]
  refine Put.run_refusing _ _ fun execution above below => ?_
  rw [returns] at below
  change execution < (db.store env (attempt.plan env db)).executed at below
  rw [Db.executed_store] at below
  obtain ⟨count, rfl⟩ := Nat.exists_eq_add_of_le above
  exact undisturbed count (Nat.lt_of_add_lt_add_left below)

theorem Attempt.Undisturbed.perform_eq (undisturbed : attempt.Undisturbed env db) :
    attempt.perform env db = db.store env (attempt.plan env db) := by
  rw [perform, undisturbed.result_eq ready]
  rfl

theorem Attempt.Undisturbed.inserted_eq (undisturbed : attempt.Undisturbed env db) :
    attempt.inserted env db = (attempt.plan env db).rows db.bindings := by
  rw [inserted, undisturbed.perform_eq ready, Db.store_rows, List.drop_left]

theorem Attempt.Undisturbed.not_throws (undisturbed : attempt.Undisturbed env db) :
    ¬attempt.Throws env db := by
  rintro ⟨exception, after, throws⟩
  rw [undisturbed.result_eq ready] at throws
  cases throws

end Ready

/-! ## A refused check -/

/-- The database before and after a periodic check that was not completed: nothing has
been counted, bound or inserted. -/
structure Db.Untouched (before after : Db) : Prop where
  contents : after.contents = before.contents
  statements : after.statements = before.statements
  inTransaction : after.inTransaction = before.inTransaction
  countPerType : after.countPerType = before.countPerType
  nextId : before.nextId ≤ after.nextId
  committed : ∀ snapshot ∈ after.committed,
    snapshot ∈ before.committed ∨ snapshot = before.contents

theorem Db.Untouched.ready {before after : Db} (untouched : before.Untouched after)
    (ready : before.Ready) : after.Ready where
  reset table := by rw [untouched.statements, ready.reset]
  inTransaction := by rw [untouched.inTransaction, ready.inTransaction]

section Check

variable {env : Environment} {refuses : Nat → Bool} {world : World}

theorem execution_refused {α : Type} {accepted : EStateM.Result Exception World α} {refused : Db}
    (refusal : refuses world.db.executed = true) :
    execution (env.refusing refuses) world accepted refused =
      .error .runtimeError { world with db := refused } :=
  if_pos refusal

theorem Db.Untouched.refl (db : Db) : db.Untouched db :=
  ⟨rfl, rfl, rfl, rfl, Nat.le_refl _, fun _ member => .inl member⟩

theorem Db.Untouched.count {before after : Db} (untouched : before.Untouched after)
    (executed : Nat) : before.Untouched { after with executed } :=
  ⟨untouched.contents, untouched.statements, untouched.inTransaction, untouched.countPerType,
    untouched.nextId, untouched.committed⟩

theorem Db.Untouched.refuse {before after : Db} (untouched : before.Untouched after)
    (keeps : env.rollsBack after.executed = false) : before.Untouched (after.refuse env) := by
  rw [Db.refuse_of_keeps keeps]
  exact untouched.count _

theorem flushInternal_accepted (open_ : world.db.inTransaction = true)
    (accepted : ∀ execution < 2, refuses (world.db.executed + execution) = false) :
    flushInternal.run (env.refusing refuses) world =
      .ok () { world with
        db.committed := world.db.contents :: world.db.committed
        db.executed := world.db.executed + 2 } := by
  have returns := Put.run_flushInternal env.refusing_neverFails open_
  rw [← returns]
  refine Put.run_refusing _ _ fun execution above below => ?_
  rw [returns] at below
  obtain ⟨count, rfl⟩ := Nat.exists_eq_add_of_le above
  exact accepted count (Nat.lt_of_add_lt_add_left below)

theorem periodicCommit_refused (open_ : world.db.inTransaction = true)
    (due : world.db.nextId % 10000 = 0) {refused : Nat}
    (refusal : refuses (world.db.executed + refused) = true)
    (first : ∀ earlier < refused, refuses (world.db.executed + earlier) = false)
    (place : refused = 0 ∨ refused = 2 ∨ refused = 3)
    (keeps : env.rollsBack (world.db.executed + refused) = false) :
    ∃ after, (periodicCommit env).run (env.refusing refuses) world = .error .runtimeError after ∧
      world.db.Untouched after.db := by
  have counter : (Op.perform .nextId).run (env.refusing refuses) world =
      .ok world.db.nextId world := rfl
  rw [periodicCommit, Put.run_bind_of_ok _ counter, if_pos due]
  let flushed : World := { world with
    db.committed := world.db.contents :: world.db.committed
    db.executed := world.db.executed + 2 }
  have kept : world.db.Untouched flushed.db := by
    refine ⟨rfl, rfl, rfl, rfl, Nat.le_refl _, fun snapshot member => ?_⟩
    rcases List.mem_cons.mp member with now | earlier
    · exact .inr now
    · exact .inl earlier
  rcases place with rfl | rfl | rfl
  · have commits : (Op.perform .commit).run (env.refusing refuses) world =
        .error .runtimeError { world with db := world.db.refuse env } := by
      rw [Put.run_perform]
      simp only [Op.answer, open_, if_true]
      exact execution_refused refusal
    refine ⟨{ world with db := world.db.refuse env }, ?_,
      (Db.Untouched.refl world.db).refuse keeps⟩
    rw [Put.run_bind, flushInternal, Put.run_bind, commits]
  · have flushes := @flushInternal_accepted env refuses world open_ first
    have size : (Op.perform .pageSize).run (env.refusing refuses) flushed =
        .error .runtimeError { flushed with db := flushed.db.refuse env } := by
      rw [Put.run_perform]
      exact execution_refused refusal
    refine ⟨{ flushed with db := flushed.db.refuse env }, ?_, kept.refuse keeps⟩
    rw [Put.run_bind_of_ok _ flushes, Put.run_bind, size]
  · have flushes := @flushInternal_accepted env refuses world open_ fun execution less =>
      first execution (Nat.lt_trans less (by decide))
    have size : (Op.perform .pageSize).run (env.refusing refuses) flushed =
        .ok env.pageSize { flushed with db.executed := flushed.db.executed + 1 } := by
      rw [Put.run_perform]
      exact if_neg fun refused =>
        Bool.false_ne_true ((first 2 (by decide)).symm.trans refused)
    let sized : World := { flushed with db.executed := flushed.db.executed + 1 }
    have count : (Op.perform .pageCount).run (env.refusing refuses) sized =
        .error .runtimeError { sized with db := sized.db.refuse env } := by
      rw [Put.run_perform]
      exact execution_refused refusal
    refine ⟨{ sized with db := sized.db.refuse env }, ?_, (kept.count _).refuse keeps⟩
    rw [Put.run_bind_of_ok _ flushes, Put.run_bind_of_ok _ size, Put.run_bind, count]

end Check

end Nanocap
