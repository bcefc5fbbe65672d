import Mathlib.Tactic.Common

/-! # Programs over a set of operations

A `Program` is a finite tree of operations, each of which answers with a
response the rest of the program may depend on. The same program can be run to
completion in a monad or taken one operation at a time by a scheduler. -/

namespace Nanocap

inductive Program (Op : Type) (Response : Op → Type) (α : Type) where
  | done (result : α)
  | perform (op : Op) (next : Response op → Program Op Response α)

namespace Program

variable {Op : Type} {Response : Op → Type} {α β γ : Type}

protected def bind : Program Op Response α → (α → Program Op Response β) →
    Program Op Response β
  | .done result, rest => rest result
  | .perform op next, rest => .perform op fun response => (next response).bind rest

instance : Monad (Program Op Response) where
  pure := .done
  bind := Program.bind

@[simp] theorem pure_eq (result : α) :
    (pure result : Program Op Response α) = .done result := rfl

@[simp] theorem done_bind (result : α) (rest : α → Program Op Response β) :
    ((.done result : Program Op Response α) >>= rest) = rest result := rfl

@[simp] theorem perform_bind (op : Op) (next : Response op → Program Op Response α)
    (rest : α → Program Op Response β) :
    (.perform op next >>= rest) =
      .perform op fun response => next response >>= rest := rfl

protected theorem bind_done (program : Program Op Response α) :
    program.bind .done = program := by
  induction program with
  | done result => rfl
  | perform op next induction => exact congrArg (perform op) (funext induction)

protected theorem bind_assoc (program : Program Op Response α)
    (first : α → Program Op Response β) (second : β → Program Op Response γ) :
    (program.bind first).bind second =
      program.bind fun result => (first result).bind second := by
  induction program with
  | done result => rfl
  | perform op next induction => exact congrArg (perform op) (funext induction)

instance : LawfulMonad (Program Op Response) :=
  LawfulMonad.mk' _ Program.bind_done (fun _ _ => rfl) Program.bind_assoc

/-- Run a program by answering each operation in the monad `m`. -/
def run {m : Type → Type} [Monad m] (answer : (op : Op) → m (Response op)) :
    Program Op Response α → m α
  | .done result => pure result
  | .perform op next => answer op >>= fun response => (next response).run answer

section Run

variable {m : Type → Type} [Monad m] (answer : (op : Op) → m (Response op))

@[simp] theorem run_done (result : α) :
    (done result : Program Op Response α).run answer = pure result := rfl

@[simp] theorem run_perform (op : Op) (next : Response op → Program Op Response α) :
    (perform op next).run answer =
      answer op >>= fun response => (next response).run answer := rfl

theorem run_bind [LawfulMonad m] (program : Program Op Response α)
    (rest : α → Program Op Response β) :
    (program >>= rest).run answer =
      program.run answer >>= fun result => (rest result).run answer := by
  induction program with
  | done result => simp
  | perform op next induction => simp [induction]

end Run

/-- `Every allowed program` holds when each operation the program can come to
perform, whatever the answers before it, satisfies `allowed`. -/
def Every (allowed : Op → Prop) : Program Op Response α → Prop
  | .done _ => True
  | .perform op next => allowed op ∧ ∀ response, (next response).Every allowed

theorem every_true (program : Program Op Response α) : program.Every fun _ => True := by
  induction program with
  | done result => trivial
  | perform op next induction => exact ⟨trivial, induction⟩

theorem Every.bind {allowed : Op → Prop} {program : Program Op Response α}
    {rest : α → Program Op Response β} (first : program.Every allowed)
    (second : ∀ result, (rest result).Every allowed) :
    (program >>= rest).Every allowed := by
  induction program with
  | done result => exact second result
  | perform op next induction =>
      exact ⟨first.1, fun response => induction response (first.2 response)⟩

/-! ## Disciplines

A rule says in which abstract states an operation may be performed, and what holds
of every response and of the abstract state it leads to. -/

section Obeys

variable {State : Type} (rule : (op : Op) → State → (Response op → State → Prop) → Prop)

/-- The program keeps to the rule from the state on, and `after` holds at its end. -/
def Obeys : Program Op Response α → State → (α → State → Prop) → Prop
  | .done result, state, after => after result state
  | .perform op next, state, after =>
      rule op state fun response state => (next response).Obeys state after

@[simp] theorem obeys_done (result : α) (state : State) (after : α → State → Prop) :
    (done result : Program Op Response α).Obeys rule state after ↔ after result state := Iff.rfl

theorem obeys_perform (op : Op) (next : Response op → Program Op Response α) (state : State)
    (after : α → State → Prop) :
    (perform op next).Obeys rule state after ↔
      rule op state fun response state => (next response).Obeys rule state after := Iff.rfl

end Obeys

-- a program is not to be run where only its discipline is asked for
attribute [irreducible] Obeys

end Program

/-! ## Runs that may raise an exception -/

section Exceptions

variable {σ ε α β : Type}

theorem EStateM.bind_apply (action : EStateM ε σ α) (rest : α → EStateM ε σ β) (before : σ) :
    (action >>= rest) before =
      match action before with
      | .ok result after => rest result after
      | .error exception after => .error exception after := by
  change EStateM.bind action rest before = _
  unfold EStateM.bind
  cases action before <;> rfl

theorem EStateM.bind_of_ok {action : EStateM ε σ α} {rest : α → EStateM ε σ β}
    {before after : σ} {result : α} (returns : action before = .ok result after) :
    (action >>= rest) before = rest result after := by
  rw [EStateM.bind_apply, returns]

theorem EStateM.bind_of_error {action : EStateM ε σ α} {rest : α → EStateM ε σ β}
    {before after : σ} {exception : ε}
    (raises : action before = .error exception after) :
    (action >>= rest) before = .error exception after := by
  rw [EStateM.bind_apply, raises]

theorem EStateM.bind_eq_ok {action : EStateM ε σ α} {rest : α → EStateM ε σ β}
    {before after : σ} {result : β} (returns : (action >>= rest) before = .ok result after) :
    ∃ value middle, action before = .ok value middle ∧ rest value middle = .ok result after := by
  rw [EStateM.bind_apply] at returns
  cases run : action before with
  | ok value middle => exact ⟨value, middle, rfl, by rwa [run] at returns⟩
  | error exception middle =>
      rw [run] at returns
      cases returns

def stateOf : EStateM.Result ε σ α → σ
  | .ok _ state => state
  | .error _ state => state

def returnsWith (property : α → Bool) : EStateM.Result ε σ α → Bool
  | .ok value _ => property value
  | .error _ _ => false

theorem exists_of_returnsWith {property : α → Bool} {result : EStateM.Result ε σ α}
    (returns : returnsWith property result = true) :
    ∃ value state, result = .ok value state ∧ property value = true := by
  cases result with
  | ok value state => exact ⟨value, state, rfl, returns⟩
  | error exception state => cases returns

/-- What every allowed operation keeps, a program that performs no others keeps. -/
theorem Program.Every.run_keeps {Op : Type} {Response : Op → Type} {allowed : Op → Prop}
    {answer : (op : Op) → EStateM ε σ (Response op)} (kept : σ → Prop)
    (each : ∀ op, allowed op → ∀ state, kept state → kept (stateOf (answer op state)))
    {program : Program Op Response α} (every : program.Every allowed) {before : σ}
    (start : kept before) : kept (stateOf (program.run answer before)) := by
  induction program generalizing before with
  | done result => exact start
  | perform op next induction =>
      have first := each op every.1 before start
      rw [Program.run_perform, EStateM.bind_apply]
      cases run : answer op before with
      | error exception after =>
          rw [run] at first
          exact first
      | ok response after =>
          rw [run] at first
          exact induction response (every.2 response) first

end Exceptions

end Nanocap
