import Mathlib.Data.List.Dedup
import Mathlib.Data.List.DropRight
import Mathlib.Data.List.Induction
import Nanocap.Public.Query

/-! # The query history

The page remembers the last hundred different queries that were answered without an
error, and offers them with the most recent one first. -/

namespace Nanocap

/-! ## Recent items -/

section Recent

variable {Item : Type} [DecidableEq Item]

/-- Move an item to the end of a list, or add it and drop the first of more than `limit`. -/
def remember (limit : Nat) (items : List Item) (item : Item) : List Item :=
  let items := items.filter (· != item) ++ [item]
  if items.length > limit then items.tail else items

/-- The last `limit` different items, in the order of their last occurrences. -/
def recent (limit : Nat) (items : List Item) : List Item := items.dedup.rtake limit

theorem filter_ne_eq_self {items : List Item} {item : Item} (absent : item ∉ items) :
    items.filter (· != item) = items := by
  rw [List.filter_eq_self]
  intro other member
  exact bne_iff_ne.mpr fun same => absent (same ▸ member)

theorem dedup_concat (items : List Item) (item : Item) :
    (items ++ [item]).dedup = items.dedup.filter (· != item) ++ [item] := by
  induction items with
  | nil => simp
  | cons first items induction =>
      by_cases same : first = item
      · subst same
        by_cases again : first ∈ items
        · rw [List.cons_append, List.dedup_cons_of_mem (by simp), induction,
            List.dedup_cons_of_mem again]
        · rw [List.cons_append, List.dedup_cons_of_mem (by simp), induction,
            List.dedup_cons_of_notMem again, List.filter_cons_of_neg (by simp)]
      · by_cases again : first ∈ items
        · rw [List.cons_append, List.dedup_cons_of_mem (by simp [again]), induction,
            List.dedup_cons_of_mem again]
        · rw [List.cons_append, List.dedup_cons_of_notMem (by simp [again, same]), induction,
            List.dedup_cons_of_notMem again, List.filter_cons_of_pos (by simp [same])]
          rfl

omit [DecidableEq Item] in
theorem rtake_append_of_length {first last : List Item} {count : Nat}
    (all : last.length = count) : (first ++ last).rtake count = last := by
  rw [List.rtake, List.length_append, all, Nat.add_sub_cancel, List.drop_left]

omit [DecidableEq Item] in
theorem rtake_of_length_le {items : List Item} {count : Nat} (few : items.length ≤ count) :
    items.rtake count = items := by
  rw [List.rtake, Nat.sub_eq_zero_of_le few, List.drop_zero]

omit [DecidableEq Item] in
private theorem rtake_cases (items : List Item) (count : Nat) :
    ∃ first, items = first ++ items.rtake count ∧
      (first = [] ∧ (items.rtake count).length ≤ count ∨ (items.rtake count).length = count) := by
  refine ⟨items.take (items.length - count), (List.take_append_drop _ _).symm, ?_⟩
  rcases Nat.le_total items.length count with few | many
  · rw [rtake_of_length_le few, Nat.sub_eq_zero_of_le few]
    exact .inl ⟨rfl, few⟩
  · refine .inr ?_
    rw [List.rtake, List.length_drop, Nat.sub_sub_self many]

private theorem length_filter_ne {items : List Item} (distinct : items.Nodup) {item : Item}
    (member : item ∈ items) : (items.filter (· != item)).length = items.length - 1 := by
  rw [← distinct.erase_eq_filter, List.length_erase_of_mem member]

/-- The recent items are remembered as they come. -/
theorem remember_rtake (limit : Nat) {items : List Item} (distinct : items.Nodup) (item : Item) :
    remember (limit + 1) (items.rtake (limit + 1)) item =
      (items.filter (· != item) ++ [item]).rtake (limit + 1) := by
  rw [List.rtake_concat_succ]
  obtain ⟨first, split, lengths⟩ := rtake_cases items (limit + 1)
  generalize last : items.rtake (limit + 1) = kept at split lengths ⊢
  subst split
  clear last
  obtain ⟨-, keptDistinct, apart⟩ := List.nodup_append.mp distinct
  rw [List.filter_append, remember, List.length_append, List.length_singleton]
  by_cases member : item ∈ kept
  · have length := length_filter_ne keptDistinct member
    have some := List.length_pos_of_mem member
    have absent : item ∉ first := fun inside => apart item inside item member rfl
    rw [filter_ne_eq_self absent]
    rcases lengths with ⟨rfl, few⟩ | full
    · rw [if_neg (by omega), List.nil_append, rtake_of_length_le (by omega)]
    · rw [if_neg (by omega), rtake_append_of_length (by omega)]
  · rw [filter_ne_eq_self member]
    by_cases full : kept.length = limit + 1
    · obtain ⟨oldest, rest, rfl⟩ := List.exists_cons_of_length_eq_add_one full
      have others : rest.length = limit := Nat.succ.inj full
      have newest : (first.filter (· != item) ++ oldest :: rest).rtake limit = rest := by
        rw [List.append_cons, rtake_append_of_length others]
      rw [if_pos (by omega), newest]
      rfl
    · obtain ⟨rfl, few⟩ := lengths.resolve_right full
      rw [if_neg (by omega), List.filter_nil, List.nil_append, rtake_of_length_le (by omega)]

private theorem foldl_remember (limit : Nat) (items : List Item) :
    items.foldl (remember (limit + 1)) [] = recent (limit + 1) items := by
  induction items using List.reverseRecOn with
  | nil => simp [recent]
  | append_singleton items item induction =>
      rw [List.foldl_append, List.foldl_cons, List.foldl_nil, induction, recent, recent,
        remember_rtake limit items.nodup_dedup, dedup_concat]

end Recent

/-! ## The page -/

/-- What the page keeps about the queries: the list in `localStorage`, the items of the
drop-down menu, and whether the last answer was shown. -/
structure QueryHistory where
  stored : Option (List (List Char))
  menu : List (List Char)
  shown : Bool
deriving DecidableEq

inductive QueryEvent where
  | opened
  | answered (query : List Char) (error : Bool)
deriving DecidableEq

def QueryEvent.succeeded : QueryEvent → Option (List Char)
  | answered query false => some query
  | _ => none

namespace QueryHistory

def initial : QueryHistory := ⟨none, [], true⟩

/-- The callback of `execute`. An item that `btoa` throws on ends it. -/
def answer (history : QueryHistory) (query : List Char) (error : Bool) : QueryHistory :=
  if error then { history with shown := true }
  else
    let queries := remember 100 (history.stored.getD []) query
    let menu := queries.reverse.takeWhile fun item => (btoa item).isSome
    ⟨some queries, menu, menu.length == queries.length⟩

def perform (history : QueryHistory) : QueryEvent → QueryHistory
  | .opened => { history with menu := [], shown := true }
  | .answered query error => history.answer query error

private theorem stored_foldl (events : List QueryEvent) (history : QueryHistory) :
    (events.foldl perform history).stored.getD [] =
      (events.filterMap QueryEvent.succeeded).foldl (remember 100) (history.stored.getD []) := by
  induction events generalizing history with
  | nil => rfl
  | cons event events induction =>
      rw [List.foldl_cons, induction]
      cases event with
      | opened => rfl
      | answered query error => cases error <;> rfl

private theorem btoa_isSome (text : List Char) : (btoa text).isSome = decide (Latin1 text) := by
  unfold btoa
  by_cases latin : Latin1 text <;> simp [latin]

/-- Whatever the page was answered, it remembers the last hundred different queries that
succeeded, in the order in which each succeeded last. The next success offers them
from the most recent one down to the first that is not Latin-1, and is shown if there is
no such query. -/
theorem queries_remembered (events : List QueryEvent) :
    let queries := events.filterMap QueryEvent.succeeded
    let history := events.foldl perform initial
    history.stored.getD [] = recent 100 queries ∧
      ∀ query,
        let offered := (recent 100 (queries ++ [query])).reverse
        let next := history.perform (.answered query false)
        next.menu = offered.takeWhile (fun item => decide (Latin1 item)) ∧
          (next.shown = true ↔ ∀ item ∈ offered, Latin1 item) := by
  intro queries history
  have stored : ∀ events : List QueryEvent, (events.foldl perform initial).stored.getD [] =
      recent 100 (events.filterMap QueryEvent.succeeded) := fun events =>
    (stored_foldl events initial).trans (foldl_remember 99 _)
  refine ⟨stored events, fun query => ?_⟩
  have newest : remember 100 (history.stored.getD []) query = recent 100 (queries ++ [query]) := by
    rw [stored events, recent, remember_rtake 99 queries.nodup_dedup, recent, dedup_concat]
  intro offered next
  have taken : (offered.takeWhile fun item => decide (Latin1 item)).length = offered.length ↔
      (offered.takeWhile fun item => decide (Latin1 item)) = offered :=
    ⟨(List.takeWhile_prefix _).eq_of_length, congrArg _⟩
  have answered : next = ⟨some (recent 100 (queries ++ [query])),
      offered.takeWhile fun item => (btoa item).isSome,
      (offered.takeWhile fun item => (btoa item).isSome).length ==
        (recent 100 (queries ++ [query])).length⟩ := by
    rw [← newest]
    unfold offered
    rw [← newest]
    rfl
  simp only [btoa_isSome, ← @List.length_reverse _ (recent _ _)] at answered
  rw [answered]
  refine ⟨rfl, ?_⟩
  rw [beq_iff_eq, taken, List.takeWhile_eq_self_iff]
  simp

end QueryHistory

end Nanocap
