import Mathlib.Data.List.Forall2
import Mathlib.Data.List.Nodup
import Nanocap.PacketHandler.Callbacks

/-! # Stretches of a byte stream

The reassembler delivers a stream stretch by stretch. Where bytes are missing, a text
that counts them stands in front of the bytes that follow. -/

namespace Nanocap

/-! ## Texts that look lossy -/

def KeepsMarks (left right : List UInt8) : Prop :=
  List.Forall₂ (fun before after => 3 ≤ before → after = before) left right

private theorem containsMissingMark_keeps {left right : List UInt8} (keeps : KeepsMarks left right)
    (marked : containsMissingMark left = true) : containsMissingMark right = true := by
  induction keeps with
  | nil => exact marked
  | @cons byte other left right same keeps induction =>
      rw [containsMissingMark, Bool.or_eq_true] at marked ⊢
      rcases marked with now | later
      · obtain ⟨rest, front⟩ := List.isPrefixOf_iff_prefix.mp now
        have whole : KeepsMarks (missingMark ++ rest) (other :: right) := by
          rw [front]
          exact .cons same keeps
        simp only [KeepsMarks, missingMark, List.cons_append, List.nil_append,
          List.forall₂_cons_left_iff] at whole
        obtain ⟨i, _, first, ⟨n, _, second, ⟨g, _, third, ⟨bracket, more, fourth, -, rfl⟩, rfl⟩,
          rfl⟩, equal⟩ := whole
        rw [equal, first (by decide), second (by decide), third (by decide), fourth (by decide)]
        exact .inl (List.isPrefixOf_iff_prefix.mpr ⟨more, rfl⟩)
      · exact .inr (induction later)

theorem hasMissingData_keeps {left right : List UInt8} (keeps : KeepsMarks left right)
    (lossy : hasMissingData left = true) : hasMissingData right = true := by
  simp only [hasMissingData, Bool.and_eq_true, decide_eq_true_eq, beq_iff_eq] at lossy ⊢
  obtain ⟨⟨long, head⟩, marked⟩ := lossy
  refine ⟨⟨keeps.length_eq ▸ long, ?_⟩, containsMissingMark_keeps keeps marked⟩
  cases keeps with
  | nil => cases head
  | cons same _ =>
      cases head
      rw [same (by decide)]
      rfl

private theorem containsMissingMark_iff (data : List UInt8) :
    containsMissingMark data = true ↔ missingMark <:+: data := by
  induction data with
  | nil => simp [containsMissingMark, missingMark]
  | cons byte data induction =>
      rw [containsMissingMark, Bool.or_eq_true, induction, List.isPrefixOf_iff_prefix,
        List.infix_cons_iff]

theorem hasMissingData_iff (data : List UInt8) :
    hasMissingData data = true ↔
      16 < data.length ∧ data.head? = some 0x5b ∧ missingMark <:+: data := by
  simp only [hasMissingData, Bool.and_eq_true, decide_eq_true_eq, beq_iff_eq,
    containsMissingMark_iff, and_assoc]

/-- `[nnn bytes missing]` -/
def missingText (count : Nat) : List UInt8 :=
  ('[' :: Nat.toDigits 10 count ++ " bytes missing]".toList).map fun character =>
    character.toNat.toUInt8

theorem hasMissingData_missingText (count : Nat) (data : List UInt8) :
    hasMissingData (missingText count ++ data) = true := by
  have ends : (" bytes missing]".toList.map fun character => character.toNat.toUInt8) =
      [0x20, 0x62, 0x79, 0x74, 0x65, 0x73, 0x20, 0x6d, 0x69, 0x73, 0x73] ++ missingMark := by
    decide
  have digits := @Nat.length_toDigits_pos 10 count
  have equal : missingText count ++ data = 0x5b ::
      ((Nat.toDigits 10 count).map (fun character => character.toNat.toUInt8) ++
        [0x20, 0x62, 0x79, 0x74, 0x65, 0x73, 0x20, 0x6d, 0x69, 0x73, 0x73]) ++ missingMark ++
        data := by
    rw [missingText, List.cons_append, List.map_cons, List.map_append, ends]
    simp
  refine (hasMissingData_iff _).mpr ⟨?_, rfl, ⟨_, _, equal.symm⟩⟩
  rw [equal]
  simp only [missingMark, List.length_append, List.length_cons, List.length_map, List.length_nil]
  omega

/-! ## Stretches -/

/-- The bytes that are missing and the bytes that follow them. -/
structure Stretch (α : Type) where
  gap : List α
  data : List α
deriving DecidableEq

namespace Stretch

variable {α β : Type}

def elements (stretch : Stretch α) : List α := stretch.gap ++ stretch.data

def map (f : α → β) (stretch : Stretch α) : Stretch β := ⟨stretch.gap.map f, stretch.data.map f⟩

def text (stretch : Stretch UInt8) : List UInt8 :=
  if stretch.gap = [] then stretch.data else missingText stretch.gap.length ++ stretch.data

end Stretch

def isQueued (data : List UInt8) : Bool := data ≠ [] && !hasMissingData data

theorem Stretch.text_of_isQueued {stretch : Stretch UInt8}
    (queued : isQueued stretch.text = true) : stretch.text = stretch.data := by
  rw [isQueued, Bool.and_eq_true, Bool.not_eq_true'] at queued
  unfold Stretch.text at queued ⊢
  split
  · rfl
  · rename_i lossy
    rw [if_neg lossy, hasMissingData_missingText] at queued
    exact absurd queued.2 Bool.noConfusion

/-- Whether a stretch is queued depends on its bytes only where it has no gap, and
there on the bytes of marks. -/
theorem Stretch.isQueued_eq {positions : Stretch Nat} {left right : Nat → UInt8}
    (forth : isQueued (positions.map left).text = false →
      ∀ position ∈ positions.data, 3 ≤ left position → right position = left position)
    (back : isQueued (positions.map left).text = true →
      ∀ position ∈ positions.data, 3 ≤ right position → left position = right position) :
    isQueued (positions.map right).text = isQueued (positions.map left).text := by
  have keeps : ∀ {first second : Nat → UInt8},
      (∀ position ∈ positions.data, 3 ≤ first position → second position = first position) →
      KeepsMarks (positions.data.map first) (positions.data.map second) := by
    intro first second same
    rw [KeepsMarks, List.forall₂_map_left_iff, List.forall₂_map_right_iff, List.forall₂_same]
    exact same
  by_cases gap : positions.gap = []
  · have plain : ∀ f : Nat → UInt8, (positions.map f).text = positions.data.map f := by
      intro f
      rw [Stretch.text, Stretch.map, gap]
      rfl
    rw [plain] at forth back ⊢
    rw [plain]
    by_cases empty : positions.data = []
    · rw [empty]
      rfl
    · have some : ∀ f : Nat → UInt8, positions.data.map f ≠ [] := by simpa using empty
      simp only [isQueued, some, ne_eq, not_false_eq_true, decide_true, Bool.true_and,
        Bool.not_eq_false', Bool.not_eq_true'] at forth back ⊢
      congr 1
      cases lossy : hasMissingData (positions.data.map left) with
      | true => exact hasMissingData_keeps (keeps (forth lossy)) lossy
      | false =>
          refine Bool.eq_false_iff.mpr fun becomes => ?_
          have was := hasMissingData_keeps (keeps (back lossy)) becomes
          exact Bool.false_ne_true (lossy.symm.trans was)
  · have lost : ∀ f : Nat → UInt8, isQueued (positions.map f).text = false := by
      intro f
      rw [Stretch.text, Stretch.map, if_neg (by simpa using gap), isQueued,
        hasMissingData_missingText]
      simp
    rw [lost, lost]

end Nanocap
