import Nanocap.Foundation.Loop

/-! # Framed streams

Items sent one after the other and closed by a terminator, and a loop that takes
complete items from the front of a buffer. What the loop has taken depends on how
much of the stream has arrived, not on how it was cut. -/

namespace Nanocap.Framing

open Loop (Control Returns)

section Streams

variable {Item β : Type} (wire : Item → List β) (terminator : List β)

def stream (items : List Item) : List β := items.flatMap wire ++ terminator

def front : List Item → List β
  | [] => terminator
  | item :: _ => wire item

/-- The bytes stop before the end of the first frame. -/
def Truncated (items : List Item) (bytes : List β) : Prop :=
  ∃ missing, missing ≠ [] ∧ front wire terminator items = bytes ++ missing

/-- The items that lie within the first `count` bytes of their stream. -/
def complete : List Item → Nat → List Item
  | [], _ => []
  | item :: items, count =>
      if (wire item).length ≤ count then
        item :: complete items (count - (wire item).length)
      else []

variable {wire terminator}

theorem complete_flatMap_append (items more : List Item) (count : Nat) :
    complete wire (items ++ more) ((items.flatMap wire).length + count) =
      items ++ complete wire more count := by
  induction items with
  | nil => simp
  | cons item items induction =>
      have rest : (wire item ++ items.flatMap wire).length + count - (wire item).length =
          (items.flatMap wire).length + count := by
        rw [List.length_append]
        omega
      rw [List.cons_append, complete, List.flatMap_cons, if_pos (by
        rw [List.length_append]
        omega), rest, induction]
      rfl

theorem complete_of_truncated {items : List Item} {bytes : List β}
    (truncated : Truncated wire terminator items bytes) :
    complete wire items bytes.length = [] := by
  cases items with
  | nil => rfl
  | cons item items =>
      obtain ⟨missing, some, equal⟩ := truncated
      have positive := List.length_pos_iff.mpr some
      have length := congrArg List.length equal
      rw [front, List.length_append] at length
      rw [complete, if_neg (by omega)]

theorem complete_eq_take {size : Nat} (positive : 0 < size) {items : List Item}
    (sized : ∀ item ∈ items, (wire item).length = size) (count : Nat) :
    complete wire items count = items.take (count / size) := by
  induction items generalizing count with
  | nil => simp [complete]
  | cons item items induction =>
      have length := sized item (by simp)
      have rest := induction (fun other member => sized other (by simp [member])) (count - size)
      rw [complete, length]
      split
      · rename_i enough
        rw [Nat.div_eq_sub_div positive enough, List.take_succ_cons, rest]
      · rename_i short
        rw [Nat.div_eq_of_lt (Nat.lt_of_not_le short), List.take_zero]

theorem split {items : List Item} {bytes later : List β}
    (equal : bytes ++ later = stream wire terminator items) (more : later ≠ []) :
    ∃ todo residue, items = complete wire items bytes.length ++ todo ∧
      bytes = (complete wire items bytes.length).flatMap wire ++ residue ∧
      residue ++ later = stream wire terminator todo ∧
      Truncated wire terminator todo residue := by
  induction items generalizing bytes with
  | nil => exact ⟨[], bytes, rfl, rfl, equal, later, more, equal.symm⟩
  | cons item items induction =>
      rw [stream, List.flatMap_cons, List.append_assoc] at equal
      by_cases enough : (wire item).length ≤ bytes.length
      · obtain ⟨rest, rfl⟩ : wire item <+: bytes :=
          List.prefix_of_prefix_length_le ⟨_, rfl⟩ ⟨later, equal⟩ enough
        rw [List.append_assoc] at equal
        obtain ⟨todo, residue, items_eq, rest_eq, remaining, truncated⟩ :=
          induction (List.append_cancel_left equal)
        have taken : complete wire (item :: items) (wire item ++ rest).length =
            item :: complete wire items rest.length := by
          rw [complete, if_pos enough, List.length_append, Nat.add_sub_cancel_left]
        refine ⟨todo, residue, ?_, ?_, remaining, truncated⟩
        · rw [taken, List.cons_append, ← items_eq]
        · rw [taken, List.flatMap_cons, List.append_assoc, ← rest_eq]
      · obtain ⟨missing, wire_eq⟩ : bytes <+: wire item :=
          List.prefix_of_prefix_length_le ⟨later, rfl⟩ ⟨_, equal.symm⟩ (by omega)
        have nothing : complete wire (item :: items) bytes.length = [] := by
          rw [complete, if_neg enough]
        refine ⟨item :: items, bytes, by rw [nothing]; rfl, by rw [nothing]; rfl, ?_,
          missing, ?_, wire_eq.symm⟩
        · rw [equal, stream, List.flatMap_cons, List.append_assoc]
        · rintro rfl
          rw [List.append_nil] at wire_eq
          exact enough (Nat.le_of_eq (congrArg List.length wire_eq.symm))

end Streams

/-! ## Loops over framed streams -/

/-- `Holds done buffer state`: the items `done` have been taken and the bytes
`buffer` wait. A complete item is taken, a truncated frame waits for more bytes,
and the terminator ends the stream. -/
structure Drains {Item β σ ε : Type} (wire : Item → List β) (terminator : List β)
    (body : EStateM ε σ Control) (Holds : List Item → List β → σ → Prop)
    (Ended : List Item → σ → Prop) : Prop where
  take : ∀ {done item rest state}, Holds done (wire item ++ rest) state →
    ∃ next, body state = .ok .again next ∧ Holds (done ++ [item]) rest next
  wait : ∀ {done todo residue state}, Truncated wire terminator todo residue →
    Holds done residue state → body state = .ok .leave state
  finish : ∀ {done state}, Holds done terminator state →
    ∃ next, body state = .ok .leave next ∧ Ended done next

namespace Drains

variable {Item β σ ε : Type} {wire : Item → List β} {terminator : List β}
  {body : EStateM ε σ Control} {Holds : List Item → List β → σ → Prop}
  {Ended : List Item → σ → Prop} (drains : Drains wire terminator body Holds Ended)
include drains

theorem takes (items : List Item) {done : List Item} {rest : List β} {state : σ}
    (holds : Holds done (items.flatMap wire ++ rest) state) :
    ∃ next, Holds (done ++ items) rest next ∧
      ∀ result, Returns body next result → Returns body state result := by
  induction items generalizing done state with
  | nil => exact ⟨state, by simpa using holds, fun _ returns => returns⟩
  | cons item items induction =>
      rw [List.flatMap_cons, List.append_assoc] at holds
      obtain ⟨middle, again, middleHolds⟩ := drains.take holds
      obtain ⟨next, nextHolds, returns⟩ := induction middleHolds
      rw [List.append_assoc] at nextHolds
      exact ⟨next, nextHolds, fun result finished =>
        (Loop.returns_again_iff again result).mpr (returns result finished)⟩

/-- Part of a stream: the complete items are taken and the rest waits. -/
theorem returns_part {done todo : List Item} {buffer later : List β} {state : σ}
    (holds : Holds done buffer state) (equal : buffer ++ later = stream wire terminator todo)
    (more : later ≠ []) :
    ∃ rest residue after, todo = complete wire todo buffer.length ++ rest ∧
      buffer = (complete wire todo buffer.length).flatMap wire ++ residue ∧
      residue ++ later = stream wire terminator rest ∧
      Truncated wire terminator rest residue ∧ Returns body state (.ok () after) ∧
      Holds (done ++ complete wire todo buffer.length) residue after := by
  obtain ⟨rest, residue, todo_eq, buffer_eq, remaining, truncated⟩ := split equal more
  rw [buffer_eq] at holds
  obtain ⟨after, afterHolds, returns⟩ := drains.takes _ holds
  exact ⟨rest, residue, after, todo_eq, buffer_eq, remaining, truncated,
    returns _ (.of_leave (drains.wait truncated afterHolds)), afterHolds⟩

/-- The rest of a stream: every item is taken and the stream ends. -/
theorem returns_all {done todo : List Item} {state : σ}
    (holds : Holds done (stream wire terminator todo) state) :
    ∃ after, Returns body state (.ok () after) ∧ Ended (done ++ todo) after := by
  obtain ⟨last, lastHolds, returns⟩ := drains.takes _ holds
  obtain ⟨after, leave, ended⟩ := drains.finish lastHolds
  exact ⟨after, returns _ (.of_leave leave), ended⟩

end Drains

/-! ## Marked pieces -/

section Marked

variable {β : Type} {mark : β}

/-- The mark stands in front of the piece and nowhere else. -/
def Marked (mark : β) (piece : List β) : Prop := ∃ tail, piece = mark :: tail ∧ mark ∉ tail

theorem eq_of_marked {pieces : List (List β)} {cuts : List (List β)}
    (marked : ∀ piece ∈ pieces, Marked mark piece)
    (starts : ∀ cut ∈ cuts, ∃ tail, cut = mark :: tail)
    (equal : cuts.flatten = pieces.flatten) (many : pieces.length ≤ cuts.length) :
    cuts = pieces := by
  induction pieces generalizing cuts with
  | nil =>
      cases cuts with
      | nil => rfl
      | cons cut cuts =>
          obtain ⟨tail, rfl⟩ := starts cut (by simp)
          cases equal
  | cons piece pieces induction =>
      obtain ⟨cut, others, rfl⟩ := List.exists_cons_of_length_pos (Nat.lt_of_lt_of_le
        (Nat.succ_pos _) many)
      obtain ⟨tail, rfl, clean⟩ := marked piece (by simp)
      obtain ⟨cutTail, rfl⟩ := starts cut (by simp)
      have laterStarts := fun other member => starts other (List.mem_cons_of_mem _ member)
      have laterMarked := fun other member => marked other (List.mem_cons_of_mem _ member)
      simp only [List.flatten_cons, List.cons_append, List.cons.injEq, true_and,
        List.length_cons] at equal many
      rcases List.append_eq_append_iff.mp equal with ⟨more, rfl, rest⟩ | ⟨more, rfl, rest⟩
      · -- the cut ends inside the piece, where no mark follows
        cases more with
        | nil =>
            rw [List.append_nil, induction laterMarked laterStarts rest (by omega)]
        | cons first more =>
            cases others with
            | nil => cases rest
            | cons other others =>
                obtain ⟨otherTail, rfl⟩ := laterStarts other (by simp)
                obtain ⟨rfl, -⟩ := List.cons.inj rest
                exact absurd (by simp) clean
      · -- what the cut holds beyond the piece is a cut of the others
        cases more with
        | nil =>
            rw [List.append_nil, induction laterMarked laterStarts rest.symm (by omega)]
        | cons first more =>
            have front : first = mark := by
              cases pieces with
              | nil => cases rest
              | cons other pieces =>
                  obtain ⟨otherTail, rfl, -⟩ := laterMarked other (by simp)
                  exact (List.cons.inj rest).1.symm
            have same := @induction ((first :: more) :: others) laterMarked (by
              intro cut member
              rcases List.mem_cons.mp member with rfl | member
              · exact ⟨more, by rw [front]⟩
              · exact laterStarts cut member) rest.symm (by
                rw [List.length_cons]
                omega)
            have lengths := congrArg List.length same
            rw [List.length_cons] at lengths
            omega

end Marked

end Nanocap.Framing
