import Mathlib.Order.Basic
import Nanocap.Foundation.Loop
import Nanocap.Foundation.Program

/-! # Related runs

Two actions are started in related states. What relates the states is indexed by
what is known of them so far, which only grows. -/

namespace Nanocap

variable {ι σ ε α β γ δ : Type} [Preorder ι]

def RelatedResults (related : ι → σ → σ → Prop) (values : ι → α → β → Prop) (known : ι) :
    EStateM.Result ε σ α → EStateM.Result ε σ β → Prop
  | .ok left leftAfter, .ok right rightAfter =>
      ∃ more, known ≤ more ∧ related more leftAfter rightAfter ∧ values more left right
  | .error left leftAfter, .error right rightAfter =>
      left = right ∧ ∃ more, known ≤ more ∧ related more leftAfter rightAfter
  | _, _ => False

theorem RelatedResults.of_le {related : ι → σ → σ → Prop} {values : ι → α → β → Prop}
    {known more : ι} (grows : known ≤ more) {left : EStateM.Result ε σ α}
    {right : EStateM.Result ε σ β} (results : RelatedResults related values more left right) :
    RelatedResults related values known left right := by
  cases left <;> cases right <;> try exact results
  · obtain ⟨last, later, related, values⟩ := results
    exact ⟨last, grows.trans later, related, values⟩
  · obtain ⟨same, last, later, related⟩ := results
    exact ⟨same, last, grows.trans later, related⟩

/-- Started in related states, the actions end alike. -/
def Simulates (related : ι → σ → σ → Prop) (values : ι → α → β → Prop) (known : ι)
    (left : EStateM ε σ α) (right : EStateM ε σ β) : Prop :=
  ∀ more, known ≤ more → ∀ leftBefore rightBefore, related more leftBefore rightBefore →
    RelatedResults related values more (left leftBefore) (right rightBefore)

abbrev SameValues : ι → α → α → Prop := fun _ => Eq

namespace Simulates

variable {related : ι → σ → σ → Prop} {values : ι → α → β → Prop}
  {results : ι → γ → δ → Prop} {known : ι}

theorem pure {left : α} {right : β} (equal : ∀ more, known ≤ more → values more left right) :
    Simulates related values known (Pure.pure left : EStateM ε σ α) (Pure.pure right) :=
  fun more grows _ _ holds => ⟨more, le_refl more, holds, equal more grows⟩

theorem bind {left : EStateM ε σ α} {right : EStateM ε σ β} {leftRest : α → EStateM ε σ γ}
    {rightRest : β → EStateM ε σ δ} (first : Simulates related values known left right)
    (rest : ∀ more, known ≤ more → ∀ a b, values more a b →
      Simulates related results more (leftRest a) (rightRest b)) :
    Simulates related results known (left >>= leftRest) (right >>= rightRest) := by
  intro more grows leftBefore rightBefore holds
  have ended := first more grows leftBefore rightBefore holds
  rw [EStateM.bind_apply, EStateM.bind_apply]
  cases leftRun : left leftBefore <;> cases rightRun : right rightBefore <;>
    rw [leftRun, rightRun] at ended <;> try exact ended.elim
  · obtain ⟨later, laterGrows, holds, same⟩ := ended
    exact (rest later (grows.trans laterGrows) _ _ same later (le_refl later) _ _ holds).of_le
      laterGrows
  · exact ended

theorem ite {condition : Prop} [Decidable condition] {left left' : EStateM ε σ α}
    {right right' : EStateM ε σ β}
    (first : condition → Simulates related values known left right)
    (second : ¬condition → Simulates related values known left' right') :
    Simulates related values known (if condition then left else left')
      (if condition then right else right') := by
  split
  · exact first ‹_›
  · exact second ‹_›

theorem loop {left right : EStateM ε σ Loop.Control}
    (iterations : Simulates related SameValues known left right) (fuel : Nat) {more : ι}
    (grows : known ≤ more) {leftBefore rightBefore : σ}
    (holds : related more leftBefore rightBefore) :
    Option.Rel (RelatedResults related SameValues more) (Loop.run left fuel leftBefore)
      (Loop.run right fuel rightBefore) := by
  induction fuel generalizing more leftBefore rightBefore with
  | zero => exact .none
  | succ fuel induction =>
      have ended := iterations more grows leftBefore rightBefore holds
      rw [Loop.run, Loop.run]
      cases leftRun : left leftBefore <;> cases rightRun : right rightBefore <;>
        rw [leftRun, rightRun] at ended <;> try exact ended.elim
      · obtain ⟨later, laterGrows, holds, rfl⟩ := ended
        rename_i control _ _
        cases control with
        | leave => exact .some ⟨later, laterGrows, holds, rfl⟩
        | again =>
            have rest := induction (grows.trans laterGrows) holds
            dsimp only
            revert rest
            generalize Loop.run left fuel _ = leftEnd
            generalize Loop.run right fuel _ = rightEnd
            intro rest
            cases rest with
            | none => exact .none
            | some results => exact .some (results.of_le laterGrows)
      · exact .some ended

end Simulates

end Nanocap
