import Nanocap.Foundation.Loop
import Nanocap.Foundation.Program

/-! # Invariants of stateful computations

An action keeps a property of the state when the property holds after the action
if it held before, also when the action raises an exception. -/

namespace Nanocap

variable {σ ε α β : Type}

def Keeps (kept : σ → Prop) (action : EStateM ε σ α) : Prop :=
  ∀ state, kept state → kept (stateOf (action state))

namespace Keeps

variable {kept : σ → Prop}

theorem pure (result : α) : Keeps kept (Pure.pure result : EStateM ε σ α) :=
  fun _ holds => holds

theorem bind {action : EStateM ε σ α} {rest : α → EStateM ε σ β} (first : Keeps kept action)
    (second : ∀ result, Keeps kept (rest result)) : Keeps kept (action >>= rest) := by
  intro state holds
  have middle := first state holds
  rw [EStateM.bind_apply]
  cases run : action state with
  | ok result after =>
      rw [run] at middle
      exact second result after middle
  | error exception after =>
      rw [run] at middle
      exact middle

theorem ite {condition : Prop} [Decidable condition] {yes no : EStateM ε σ α}
    (first : condition → Keeps kept yes) (second : ¬condition → Keeps kept no) :
    Keeps kept (if condition then yes else no) := by
  split
  · exact first ‹_›
  · exact second ‹_›

theorem loop {body : EStateM ε σ Loop.Control} (iterations : Keeps kept body) {state : σ}
    {result : EStateM.Result ε σ Unit} (returns : Loop.Returns body state result)
    (holds : kept state) : kept (stateOf result) := by
  refine returns.preserves kept (fun result => kept (stateOf result)) ?_ ?_ ?_ holds
  · intro before next valid again
    have after := iterations before valid
    rwa [again] at after
  · intro before next valid leave
    have after := iterations before valid
    rwa [leave] at after
  · intro before next exception valid error
    have after := iterations before valid
    rwa [error] at after

end Keeps

end Nanocap
