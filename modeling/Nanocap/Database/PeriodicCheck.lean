import Nanocap.Database.History

/-! # The periodic commit and size check

`bind_header_fields` commits and looks at the database size when the id counter
is a multiple of 10000 at the moment the header of a message is bound. -/

namespace Nanocap

section Calls

variable (env : Environment)

/-- The call commits, and with it looks at the size of the database. -/
def Call.Checks (call : Call) (db : Db) : Prop :=
  (call.perform env db).db.committed.length ≠ db.committed.length

/-- A call that takes the counter to or past a multiple of 10000 binds a header
when the counter is a multiple. -/
def Call.MeetsMultiple (call : Call) (db : Db) : Prop :=
  let plan := call.request.plan env call.info db.nextId call.flow
  (∃ multiple, 10000 ∣ multiple ∧ db.nextId < multiple ∧ multiple ≤ db.nextId + plan.ids) →
    ∃ heading, plan.heading = some heading ∧ 10000 ∣ db.nextId + heading.drawn

def Db.Always (db : Db) (calls : List Call) (meets : Call → Db → Prop) : Prop :=
  ∀ first call rest, calls = first ++ call :: rest → meets call (db.history env first)

end Calls

variable {env : Environment}

section Ready

variable (neverFails : env.NeverFails) {db : Db} (ready : db.Ready)
include neverFails ready

theorem Call.checks_iff (call : Call) :
    call.Checks env db ↔
      (call.request.plan env call.info db.nextId call.flow).commits db.nextId := by
  rw [Checks, call.perform_eq neverFails ready, Request.after, Db.store_committed ready]
  split <;> simp [*]

theorem Call.nextId_perform (call : Call) :
    (call.perform env db).db.nextId =
      db.nextId + (call.request.plan env call.info db.nextId call.flow).ids := by
  rw [call.perform_eq neverFails ready, Request.after, Db.store_nextId]

theorem Call.MeetsMultiple.checks {call : Call} (meets : call.MeetsMultiple env db)
    {multiple : Nat} (divides : 10000 ∣ multiple) (before : db.nextId < multiple)
    (after : multiple ≤ (call.perform env db).db.nextId) : call.Checks env db := by
  rw [call.nextId_perform neverFails ready] at after
  obtain ⟨heading, present, bound⟩ := meets ⟨multiple, divides, before, after⟩
  rw [call.checks_iff neverFails ready, Plan.commits, present]
  simpa using Nat.mod_eq_zero_of_dvd bound

private theorem Db.exists_crossing {calls : List Call} {limit : Nat} (before : db.nextId < limit)
    (after : limit ≤ (db.history env calls).nextId) :
    ∃ first call rest, calls = first ++ call :: rest ∧
      (db.history env first).nextId < limit ∧
      limit ≤ (call.perform env (db.history env first)).db.nextId := by
  induction calls generalizing db with
  | nil => exact absurd after (Nat.not_le_of_lt before)
  | cons call calls induction =>
      by_cases crossed : limit ≤ (call.perform env db).db.nextId
      · exact ⟨[], call, calls, rfl, before, crossed⟩
      · obtain ⟨first, other, rest, rfl, low, high⟩ := induction
          (call.ready_perform neverFails ready) (Nat.lt_of_not_le crossed) after
        exact ⟨call :: first, other, rest, rfl, low, high⟩

end Ready

/-- In a run whose calls meet the multiples they come past, every stretch that
hands out 20,000 ids contains a check. -/
theorem check_not_starved (neverFails : env.NeverFails) {db : Db} (ready : db.Ready)
    {before stretch : List Call}
    (meets : db.Always env (before ++ stretch) (Call.MeetsMultiple env))
    (advances : (db.history env before).nextId + 20000 ≤
      (db.history env (before ++ stretch)).nextId) :
    ∃ first call rest, stretch = first ++ call :: rest ∧
      call.Checks env (db.history env (before ++ first)) := by
  let counter := (db.history env before).nextId
  let multiple := (counter / 10000 + 1) * 10000
  have low : counter < multiple := by omega
  have high : multiple ≤ counter + 10000 := by omega
  rw [Db.history_append] at advances
  have reached : multiple ≤ ((db.history env before).history env stretch).nextId := by omega
  obtain ⟨first, call, rest, rfl, start, finish⟩ := Db.exists_crossing neverFails
    (Db.ready_history neverFails ready before) low reached
  refine ⟨first, call, rest, rfl, ?_⟩
  have meetsCall := meets (before ++ first) call rest (by simp)
  rw [← Db.history_append] at start finish
  exact meetsCall.checks neverFails (Db.ready_history neverFails ready _) (Nat.dvd_mul_left _ _)
    start finish

/-! ## Calls of one kind -/

theorem Db.nextId_replicate (neverFails : env.NeverFails) {call : Call} {ids : Nat}
    (each : ∀ db : Db, (call.request.plan env call.info db.nextId call.flow).ids = ids)
    {db : Db} (ready : db.Ready) (count : Nat) :
    (db.history env (List.replicate count call)).nextId = db.nextId + count * ids := by
  induction count generalizing db with
  | zero => simp [Db.history]
  | succ count induction =>
      rw [List.replicate_succ, Db.history, induction (call.ready_perform neverFails ready),
        call.nextId_perform neverFails ready, each, Nat.succ_mul]
      omega

def Call.telemetryReq : Call :=
  ⟨.telemetryReq ⟨0, 0, 0, 0, .telemetryReq, 0⟩, .sample [], .initial⟩

def Call.keepalive : Call :=
  ⟨.keepalive ⟨0, 0, 0, 0, .keepalive, 0⟩ ⟨some [⟨.zero 16, 7075⟩]⟩, .sample [], .initial⟩

private theorem Call.telemetryReq_meets (db : Db) : Call.telemetryReq.MeetsMultiple env db := by
  rintro ⟨multiple, divides, before, after⟩
  change multiple ≤ db.nextId + 1 at after
  obtain rfl : multiple = db.nextId + 1 := by omega
  exact ⟨⟨.telemetryReq, 1⟩, rfl, divides⟩

/-- Twenty thousand telemetry_reqs. -/
theorem check_not_starved_telemetry :
    ∃ first call rest, List.replicate 20000 Call.telemetryReq = first ++ call :: rest ∧
      call.Checks .sample ((Db.opened .empty).history .sample ([] ++ first)) := by
  refine check_not_starved Environment.sample_neverFails (Db.opened_ready .empty) ?_ ?_
  · intro first call rest equal
    have member : call ∈ List.replicate 20000 Call.telemetryReq := by
      rw [← List.nil_append (List.replicate _ _), equal]
      simp
    rw [List.eq_of_mem_replicate member]
    exact Call.telemetryReq_meets _
  · have counter := @Db.nextId_replicate .sample Environment.sample_neverFails
      Call.telemetryReq 1 (fun _ => rfl) (.opened .empty) (Db.opened_ready .empty) 20000
    exact Nat.le_of_eq counter.symm

/-- From an even counter on, keepalives with one peer never check. -/
private theorem Call.keepalive_not_checks (neverFails : env.NeverFails) {db : Db} (ready : db.Ready)
    (even : 2 ∣ db.nextId) : ¬Call.keepalive.Checks env db := by
  rw [Call.checks_iff neverFails ready]
  change ¬((db.nextId + 1) % 10000 == 0) = true
  rw [beq_iff_eq]
  omega

/-- Ten thousand keepalives with one peer each. -/
theorem check_starved :
    ¬∀ (env : Environment) (db : Db) (stretch : List Call), env.NeverFails → db.Ready →
      db.nextId + 20000 ≤ (db.history env stretch).nextId →
      ∃ first call rest, stretch = first ++ call :: rest ∧
        call.Checks env (db.history env first) := by
  intro checked
  have counter := fun count => @Db.nextId_replicate .sample Environment.sample_neverFails
    Call.keepalive 2 (fun _ => rfl) (.opened .empty) (Db.opened_ready .empty) count
  obtain ⟨first, call, rest, equal, checks⟩ := checked .sample (.opened .empty)
    (List.replicate 10000 Call.keepalive) Environment.sample_neverFails (Db.opened_ready .empty)
    (Nat.le_of_eq (counter 10000).symm)
  have allKeepalive : ∀ other ∈ first ++ call :: rest, other = Call.keepalive :=
    fun other member => List.eq_of_mem_replicate (equal ▸ member)
  have before : first = List.replicate first.length Call.keepalive :=
    List.eq_replicate_of_mem fun other member => allKeepalive other (by simp [member])
  rw [allKeepalive call (by simp), before] at checks
  refine Call.keepalive_not_checks Environment.sample_neverFails
    (Db.ready_history Environment.sample_neverFails (Db.opened_ready .empty) _) ?_ checks
  rw [counter]
  change 2 ∣ 1000000000 + first.length * 2
  omega

end Nanocap
