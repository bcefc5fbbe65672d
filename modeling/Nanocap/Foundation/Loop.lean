import Mathlib.Tactic.Common

/-! # While loops

`Loop.run body fuel` repeats `body` until it leaves or raises an exception and
answers `none` when `fuel` iterations do not suffice. `Returns` abstracts from
the fuel; the rules below establish it from a measure and refute it from a set
of states the loop cannot get out of. -/

namespace Nanocap.Loop

inductive Control where
  | again
  | leave
deriving DecidableEq

variable {σ ε : Type}

def run (body : EStateM ε σ Control) : Nat → σ → Option (EStateM.Result ε σ Unit)
  | 0, _ => none
  | fuel + 1, state =>
      match body state with
      | .ok .again next => run body fuel next
      | .ok .leave next => some (.ok () next)
      | .error exception next => some (.error exception next)

/-- The loop started in `state` ends with `result`. -/
def Returns (body : EStateM ε σ Control) (state : σ)
    (result : EStateM.Result ε σ Unit) : Prop :=
  ∃ fuel, run body fuel state = some result

variable {body : EStateM ε σ Control}

theorem run_again {state next : σ} (again : body state = .ok .again next)
    (fuel : Nat) : run body (fuel + 1) state = run body fuel next := by
  simp [run, again]

theorem run_leave {state next : σ} (leave : body state = .ok .leave next)
    (fuel : Nat) : run body (fuel + 1) state = some (.ok () next) := by
  simp [run, leave]

theorem run_error {state next : σ} {exception : ε}
    (raises : body state = .error exception next) (fuel : Nat) :
    run body (fuel + 1) state = some (.error exception next) := by
  simp [run, raises]

theorem run_mono {fuel more : Nat} (enough : fuel ≤ more) {state : σ}
    {result : EStateM.Result ε σ Unit} (finished : run body fuel state = some result) :
    run body more state = some result := by
  induction fuel generalizing more state with
  | zero => simp [run] at finished
  | succ fuel induction =>
      obtain ⟨more, rfl⟩ : ∃ rest, more = rest + 1 := ⟨more - 1, by omega⟩
      rw [run] at finished ⊢
      split at finished <;> rename_i step
      · exact induction (by omega) finished
      · exact finished
      · exact finished

theorem Returns.unique {state : σ} {left right : EStateM.Result ε σ Unit}
    (leftReturns : Returns body state left) (rightReturns : Returns body state right) :
    left = right := by
  obtain ⟨leftFuel, leftRun⟩ := leftReturns
  obtain ⟨rightFuel, rightRun⟩ := rightReturns
  have leftMore := run_mono (Nat.le_max_left leftFuel rightFuel) leftRun
  have rightMore := run_mono (Nat.le_max_right leftFuel rightFuel) rightRun
  exact Option.some.inj (leftMore.symm.trans rightMore)

theorem Returns.of_leave {state next : σ} (leave : body state = .ok .leave next) :
    Returns body state (.ok () next) :=
  ⟨1, run_leave leave 0⟩

theorem Returns.of_error {state next : σ} {exception : ε}
    (raises : body state = .error exception next) :
    Returns body state (.error exception next) :=
  ⟨1, run_error raises 0⟩

theorem returns_again_iff {state next : σ} (again : body state = .ok .again next)
    (result : EStateM.Result ε σ Unit) :
    Returns body state result ↔ Returns body next result := by
  constructor
  · rintro ⟨fuel, finished⟩
    cases fuel with
    | zero => simp [run] at finished
    | succ fuel => exact ⟨fuel, by rwa [run_again again] at finished⟩
  · rintro ⟨fuel, finished⟩
    exact ⟨fuel + 1, by rwa [run_again again]⟩

/-- A loop whose iterations keep `valid` and decrease `measure` ends, after at
most one iteration more than the measure it starts with. -/
theorem run_of_measure (valid : σ → Prop) (measure : σ → Nat)
    (decreases : ∀ state next, valid state → body state = .ok .again next →
      valid next ∧ measure next < measure state) {state : σ} (start : valid state) :
    ∃ result, run body (measure state + 1) state = some result := by
  suffices bounded : ∀ bound state, valid state → measure state ≤ bound →
      ∃ result, run body (bound + 1) state = some result from
    bounded _ _ start (Nat.le_refl _)
  intro bound
  induction bound with
  | zero =>
      intro state holds small
      cases step : body state with
      | error exception next => exact ⟨_, run_error step 0⟩
      | ok control next =>
          cases control with
          | leave => exact ⟨_, run_leave step 0⟩
          | again =>
              have smaller := (decreases state next holds step).2
              omega
  | succ bound induction =>
      intro state holds small
      cases step : body state with
      | error exception next => exact ⟨_, run_error step _⟩
      | ok control next =>
          cases control with
          | leave => exact ⟨_, run_leave step _⟩
          | again =>
              have ⟨nextHolds, smaller⟩ := decreases state next holds step
              obtain ⟨result, finished⟩ := induction next nextHolds (by omega)
              exact ⟨result, by rw [run_again step]; exact finished⟩

/-- A loop never ends from a set of states in which every iteration asks for
another one and stays in the set. -/
theorem run_eq_none_of_stuck (stuck : σ → Prop)
    (stays : ∀ state, stuck state → ∃ next, body state = .ok .again next ∧ stuck next)
    {state : σ} (start : stuck state) (fuel : Nat) : run body fuel state = none := by
  induction fuel generalizing state with
  | zero => rfl
  | succ fuel induction =>
      obtain ⟨next, again, still⟩ := stays state start
      rw [run_again again]
      exact induction still

/-- What every iteration keeps, and every last iteration turns into `final`,
the loop as a whole turns into `final`. -/
theorem Returns.preserves (valid : σ → Prop)
    (final : EStateM.Result ε σ Unit → Prop)
    (again : ∀ state next, valid state → body state = .ok .again next → valid next)
    (leave : ∀ state next, valid state → body state = .ok .leave next →
      final (.ok () next))
    (error : ∀ state next exception, valid state →
      body state = .error exception next → final (.error exception next))
    {state : σ} {result : EStateM.Result ε σ Unit}
    (returns : Returns body state result) (start : valid state) : final result := by
  obtain ⟨fuel, finished⟩ := returns
  induction fuel generalizing state with
  | zero => simp [run] at finished
  | succ fuel induction =>
      rw [run] at finished
      split at finished <;> rename_i step
      · exact induction (again _ _ start step) finished
      · cases finished
        exact leave _ _ start step
      · cases finished
        exact error _ _ _ start step

end Nanocap.Loop
