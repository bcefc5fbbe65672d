import Mathlib.Data.List.Basic
import Mathlib.Tactic.Common

/-! # Buffered blocks

Input that comes in pieces is absorbed block by block. The last block is kept back
until more input follows it, so that it can be absorbed unlike the others. What has been
absorbed depends on the input as a whole, not on how it came. -/

namespace Nanocap.BlockBuffer

variable {State β : Type} {size : Nat} {absorb : State → List β → State}

/-- Absorb the blocks that more input follows. The state and the bytes kept back. -/
def absorbAll (size : Nat) (absorb : State → List β → State) (state : State)
    (input : List β) : State × List β :=
  go ((input.length - 1) / size) state input
where
  go : Nat → State → List β → State × List β
    | 0, state, input => (state, input)
    | blocks + 1, state, input => go blocks (absorb state (input.take size)) (input.drop size)

theorem absorbAll_short (positive : 0 < size) (state : State) {input : List β}
    (short : input.length ≤ size) : absorbAll size absorb state input = (state, input) := by
  have none : (input.length - 1) / size = 0 := Nat.div_eq_of_lt (by omega)
  rw [absorbAll, none, absorbAll.go]

theorem absorbAll_long (positive : 0 < size) (state : State) {input : List β}
    (long : size < input.length) :
    absorbAll size absorb state input =
      absorbAll size absorb (absorb state (input.take size)) (input.drop size) := by
  have count : (input.length - 1) / size = (input.length - size - 1) / size + 1 := by
    rw [← Nat.add_div_right _ positive]
    congr 1
    omega
  rw [absorbAll, absorbAll, count, absorbAll.go, List.length_drop]

@[elab_as_elim]
theorem input_induction (positive : 0 < size) {motive : List β → Prop}
    (short : ∀ input, input.length ≤ size → motive input)
    (long : ∀ input, size < input.length → motive (input.drop size) → motive input)
    (input : List β) : motive input := by
  induction length : input.length using Nat.strongRecOn generalizing input with
  | ind count induction =>
      by_cases fits : input.length ≤ size
      · exact short input fits
      · refine long input (Nat.lt_of_not_le fits) (induction _ ?_ _ rfl)
        rw [List.length_drop]
        omega

section Rules

variable (positive : 0 < size)
include positive

theorem absorbAll_append (state : State) (first second : List β) :
    absorbAll size absorb state (first ++ second) =
      absorbAll size absorb (absorbAll size absorb state first).1
        ((absorbAll size absorb state first).2 ++ second) := by
  induction first using input_induction positive generalizing state with
  | short first fits => rw [absorbAll_short positive state fits]
  | long first long induction =>
      have longer : size < (first ++ second).length := by
        rw [List.length_append]
        omega
      rw [absorbAll_long positive state long, ← induction, absorbAll_long positive state longer,
        List.take_append_of_le_length (Nat.le_of_lt long),
        List.drop_append_of_le_length (Nat.le_of_lt long)]

theorem length_kept_le (state : State) (input : List β) :
    (absorbAll size absorb state input).2.length ≤ size := by
  induction input using input_induction positive generalizing state with
  | short input fits => rwa [absorbAll_short positive state fits]
  | long input long induction =>
      rw [absorbAll_long positive state long]
      exact induction _

end Rules

end Nanocap.BlockBuffer
