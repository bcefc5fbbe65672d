import Mathlib.Data.List.Infix
import Mathlib.Data.List.TakeWhile

/-! # Regular expressions

Regular expressions in which only classes of characters are repeated. A matcher
that backtracks finds the first of the outcomes that `results` lists. -/

namespace Nanocap

inductive RegExp where
  | empty
  | one (allowed : Char → Bool)
  /-- As many characters as possible, and not fewer than `least`. -/
  | repeated (least : Nat) (allowed : Char → Bool)
  | andThen (first second : RegExp)
  | orElse (first second : RegExp)
  /-- A group that is captured. -/
  | group (body : RegExp)
  /-- `^` -/
  | start
  /-- `$` -/
  | finish

namespace RegExp

/-- A way to match the beginning of a text. Groups that take no part are left out. -/
structure Outcome where
  matched : List Char
  rest : List Char
  groups : List (List Char)
deriving DecidableEq

def char (char : Char) : RegExp := .one (· == char)

def sequence : List RegExp → RegExp
  | [] => .empty
  | pattern :: patterns => .andThen pattern (sequence patterns)

/-- `.`, which is no line terminator. -/
def dot (char : Char) : Bool :=
  char != '\n' && char != '\r' && char != '\u2028' && char != '\u2029'

/-- `\w` -/
def isWord (char : Char) : Bool :=
  ('a' ≤ char && char ≤ 'z') || ('A' ≤ char && char ≤ 'Z') || ('0' ≤ char && char ≤ '9') ||
    char == '_'

/-- The outcomes in the order in which they are tried. `atStart` tells whether the
text is a whole string or what is left of one. -/
def results : RegExp → (atStart : Bool) → List Char → List Outcome
  | .empty, _, text => [⟨[], text, []⟩]
  | .one _, _, [] => []
  | .one allowed, _, char :: rest => if allowed char then [⟨[char], rest, []⟩] else []
  | .repeated least allowed, _, text =>
      ((text.takeWhile allowed).inits.reverse.filter fun front => least ≤ front.length).map
        fun front => ⟨front, text.drop front.length, []⟩
  | .andThen first second, atStart, text =>
      (first.results atStart text).flatMap fun front =>
        (second.results (atStart && front.matched.isEmpty) front.rest).map fun back =>
          ⟨front.matched ++ back.matched, back.rest, front.groups ++ back.groups⟩
  | .orElse first second, atStart, text =>
      first.results atStart text ++ second.results atStart text
  | .group body, atStart, text =>
      (body.results atStart text).map fun outcome =>
        { outcome with groups := outcome.matched :: outcome.groups }
  | .start, atStart, text => if atStart then [⟨[], text, []⟩] else []
  | .finish, _, text => if text = [] then [⟨[], [], []⟩] else []

/-! ## Outcomes -/

section Outcomes

variable {pattern : RegExp} {atStart : Bool} {text : List Char} {outcome : Outcome}

@[simp] theorem mem_results_empty :
    outcome ∈ empty.results atStart text ↔ outcome = ⟨[], text, []⟩ :=
  List.mem_singleton

@[simp] theorem mem_results_one {allowed : Char → Bool} :
    outcome ∈ (one allowed).results atStart text ↔
      ∃ char, allowed char = true ∧ text = char :: outcome.rest ∧
        outcome.matched = [char] ∧ outcome.groups = [] := by
  obtain ⟨matched, rest, groups⟩ := outcome
  cases text with
  | nil =>
      constructor
      · exact fun member => absurd member List.not_mem_nil
      · rintro ⟨_, -, same, -⟩
        cases same
  | cons first more =>
      change _ ∈ (if allowed first then _ else _) ↔ _
      split
      · rename_i fits
        rw [List.mem_singleton, Outcome.mk.injEq]
        constructor
        · rintro ⟨rfl, rfl, rfl⟩
          exact ⟨first, fits, rfl, rfl, rfl⟩
        · rintro ⟨char, -, same, rfl, rfl⟩
          obtain ⟨rfl, rfl⟩ := List.cons.inj same
          exact ⟨rfl, rfl, rfl⟩
      · rename_i fits
        constructor
        · exact fun member => absurd member List.not_mem_nil
        · rintro ⟨char, other, same, -⟩
          obtain ⟨rfl, -⟩ := List.cons.inj same
          exact absurd other fits

@[simp] theorem mem_results_repeated {least : Nat} {allowed : Char → Bool} :
    outcome ∈ (repeated least allowed).results atStart text ↔
      text = outcome.matched ++ outcome.rest ∧ (∀ char ∈ outcome.matched, allowed char = true) ∧
        least ≤ outcome.matched.length ∧ outcome.groups = [] := by
  obtain ⟨matched, rest, groups⟩ := outcome
  change _ ∈ List.map _ (List.filter _ (List.reverse (List.inits _))) ↔ _
  simp only [List.mem_map, List.mem_filter, List.mem_reverse, List.mem_inits,
    decide_eq_true_eq, Outcome.mk.injEq]
  constructor
  · rintro ⟨front, ⟨⟨more, whole⟩, enough⟩, rfl, rfl, rfl⟩
    refine ⟨?_, fun char member => ?_, enough, rfl⟩
    · have split := List.takeWhile_append_dropWhile (p := allowed) (l := text)
      rw [← whole, List.append_assoc] at split
      conv_rhs => rw [← split, List.drop_left]
      exact split.symm
    · have inside : char ∈ text.takeWhile allowed := whole ▸ List.mem_append_left more member
      exact List.mem_takeWhile_imp inside
  · rintro ⟨rfl, each, enough, rfl⟩
    refine ⟨matched, ⟨?_, enough⟩, rfl, List.drop_left, rfl⟩
    rw [List.takeWhile_append_of_pos each]
    exact List.prefix_append _ _

@[simp] theorem mem_results_andThen {first second : RegExp} :
    outcome ∈ (andThen first second).results atStart text ↔
      ∃ front ∈ first.results atStart text,
        ∃ back ∈ second.results (atStart && front.matched.isEmpty) front.rest,
          outcome = ⟨front.matched ++ back.matched, back.rest, front.groups ++ back.groups⟩ := by
  change _ ∈ List.flatMap (fun _ => List.map _ _) _ ↔ _
  simp only [List.mem_flatMap, List.mem_map, eq_comm]

@[simp] theorem mem_results_orElse {first second : RegExp} :
    outcome ∈ (orElse first second).results atStart text ↔
      outcome ∈ first.results atStart text ∨ outcome ∈ second.results atStart text :=
  List.mem_append

@[simp] theorem mem_results_group {body : RegExp} :
    outcome ∈ (group body).results atStart text ↔
      ∃ inner ∈ body.results atStart text,
        outcome = ⟨inner.matched, inner.rest, inner.matched :: inner.groups⟩ := by
  change _ ∈ List.map _ _ ↔ _
  simp only [List.mem_map, eq_comm]

@[simp] theorem mem_results_start :
    outcome ∈ start.results atStart text ↔ atStart = true ∧ outcome = ⟨[], text, []⟩ := by
  change _ ∈ (if atStart then _ else _) ↔ _
  split <;> rename_i start <;> simp [start]

@[simp] theorem mem_results_finish :
    outcome ∈ finish.results atStart text ↔ text = [] ∧ outcome = ⟨[], [], []⟩ := by
  change _ ∈ (if text = [] then _ else _) ↔ _
  split <;> rename_i ends <;> simp [ends]

theorem mem_results_chars {chars : List Char} {patterns : List RegExp} :
    outcome ∈ (sequence (chars.map char ++ patterns)).results atStart text ↔
      ∃ rest, text = chars ++ rest ∧
        ∃ back ∈ (sequence patterns).results (atStart && chars.isEmpty) rest,
          outcome = ⟨chars ++ back.matched, back.rest, back.groups⟩ := by
  induction chars generalizing atStart text outcome with
  | nil => simp
  | cons first chars induction =>
      rw [List.map_cons, List.cons_append, sequence, mem_results_andThen]
      constructor
      · rintro ⟨⟨_, _, _⟩, head, tail, member, rfl⟩
        obtain ⟨other, same, rfl, rfl, rfl⟩ := mem_results_one.mp head
        obtain ⟨rest, rfl, back, inside, rfl⟩ := induction.mp member
        rw [beq_iff_eq] at same
        subst same
        exact ⟨rest, rfl, back, by simpa using inside, rfl⟩
      · rintro ⟨rest, rfl, back, inside, rfl⟩
        refine ⟨⟨[first], chars ++ rest, []⟩, ?_, _, induction.mpr ⟨rest, rfl, back, ?_, rfl⟩, rfl⟩
        · exact mem_results_one.mpr ⟨first, beq_self_eq_true first, rfl, rfl, rfl⟩
        · simpa using inside

theorem matched_append_rest (member : outcome ∈ pattern.results atStart text) :
    outcome.matched ++ outcome.rest = text := by
  induction pattern generalizing atStart text outcome with
  | empty =>
      rw [mem_results_empty.mp member]
      rfl
  | one allowed =>
      obtain ⟨char, -, whole, single, -⟩ := mem_results_one.mp member
      rw [whole, single]
      rfl
  | repeated least allowed => exact (mem_results_repeated.mp member).1.symm
  | andThen first second left right =>
      obtain ⟨front, early, back, late, rfl⟩ := mem_results_andThen.mp member
      rw [List.append_assoc, right late, left early]
  | orElse first second left right =>
      exact (mem_results_orElse.mp member).elim (left ·) (right ·)
  | group body induction =>
      obtain ⟨inner, inside, rfl⟩ := mem_results_group.mp member
      exact @induction _ _ inner inside
  | start =>
      rw [(mem_results_start.mp member).2]
      rfl
  | finish =>
      obtain ⟨rfl, rfl⟩ := mem_results_finish.mp member
      rfl

theorem groups_subset (member : outcome ∈ pattern.results atStart text) :
    ∀ group ∈ outcome.groups, group ⊆ text := by
  induction pattern generalizing atStart text outcome with
  | empty =>
      rw [mem_results_empty.mp member]
      exact fun _ none => absurd none List.not_mem_nil
  | one allowed =>
      obtain ⟨-, -, -, -, none⟩ := mem_results_one.mp member
      rw [none]
      exact fun _ none => absurd none List.not_mem_nil
  | repeated least allowed =>
      rw [(mem_results_repeated.mp member).2.2.2]
      exact fun _ none => absurd none List.not_mem_nil
  | andThen first second left right =>
      obtain ⟨front, early, back, late, rfl⟩ := mem_results_andThen.mp member
      intro group inside
      rcases List.mem_append.mp inside with one | other
      · exact left early group one
      · refine List.Subset.trans (right late group other) ?_
        rw [← matched_append_rest early]
        exact List.subset_append_right _ _
  | orElse first second left right =>
      exact (mem_results_orElse.mp member).elim (left ·) (right ·)
  | group body induction =>
      obtain ⟨inner, inside, rfl⟩ := mem_results_group.mp member
      intro group found
      rcases List.mem_cons.mp found with rfl | other
      · rw [← matched_append_rest inside]
        exact List.subset_append_left _ _
      · exact @induction _ _ inner inside group other
  | start =>
      rw [(mem_results_start.mp member).2]
      exact fun _ none => absurd none List.not_mem_nil
  | finish =>
      rw [(mem_results_finish.mp member).2]
      exact fun _ none => absurd none List.not_mem_nil

end Outcomes

/-! ## Matches in a text -/

def exec (pattern : RegExp) (atStart : Bool) (text : List Char) : Option Outcome :=
  (pattern.results atStart text).head?

inductive Piece where
  | kept (char : Char)
  | found (outcome : Outcome)
deriving DecidableEq

def Piece.text : Piece → List Char
  | .kept char => [char]
  | .found outcome => outcome.matched

def Piece.replaced (replacement : Outcome → List Char) : Piece → List Char
  | .kept char => [char]
  | .found outcome => replacement outcome

/-- What a search from left to right finds and what it passes over. The first `skipped`
characters belong to a match already. Empty matches are passed over too. -/
def pieces (pattern : RegExp) : (skipped : Nat) → (atStart : Bool) → List Char → List Piece
  | _, _, [] => []
  | skipped + 1, _, _ :: rest => pattern.pieces skipped false rest
  | 0, atStart, char :: rest =>
      match pattern.exec atStart (char :: rest) with
      | none | some ⟨[], _, _⟩ => .kept char :: pattern.pieces 0 false rest
      | some ⟨first :: more, behind, groups⟩ =>
          .found ⟨first :: more, behind, groups⟩ :: pattern.pieces more.length false rest

/-- `match` -/
def find (pattern : RegExp) (text : List Char) : Option Outcome :=
  (pattern.pieces 0 true text).findSome? fun
    | .kept _ => none
    | .found outcome => some outcome

/-- `replace` with the flag `g`; the replacement may use the groups. -/
def replaceAll (pattern : RegExp) (replacement : Outcome → List Char) (text : List Char) :
    List Char :=
  (pattern.pieces 0 true text).flatMap (Piece.replaced replacement)

/-- `replace` without flags. -/
def replaceFirst (pattern : RegExp) (replacement : List Char) (text : List Char) : List Char :=
  go (pattern.pieces 0 true text)
where
  go : List Piece → List Char
    | [] => []
    | .kept char :: more => char :: go more
    | .found _ :: more => replacement ++ more.flatMap Piece.text

/-- `split`, which puts the groups between the parts. -/
def split (pattern : RegExp) (text : List Char) : List (List Char) :=
  go [] (pattern.pieces 0 true text)
where
  go (part : List Char) : List Piece → List (List Char)
    | [] => [part]
    | .kept char :: more => go (part ++ [char]) more
    | .found outcome :: more => part :: (outcome.groups ++ go [] more)

section Pieces

variable {pattern : RegExp} {atStart : Bool} {text : List Char} {outcome : Outcome}

theorem mem_of_exec (found : pattern.exec atStart text = some outcome) :
    outcome ∈ pattern.results atStart text := List.mem_of_head? found

theorem exec_of_unique (member : outcome ∈ pattern.results atStart text)
    (unique : ∀ other ∈ pattern.results atStart text, other = outcome) :
    pattern.exec atStart text = some outcome := by
  rw [exec]
  cases results : pattern.results atStart text with
  | nil => exact absurd member (results ▸ List.not_mem_nil)
  | cons first more => rw [List.head?_cons, unique first (results ▸ List.mem_cons_self)]

theorem results_eq_nil (nothing : ∀ outcome, outcome ∉ pattern.results atStart text) :
    pattern.results atStart text = [] := List.eq_nil_iff_forall_not_mem.mpr nothing

theorem pieces_skipped (skipped : Nat) :
    pattern.pieces skipped false text = pattern.pieces 0 false (text.drop skipped) := by
  induction skipped generalizing text with
  | zero => rfl
  | succ skipped induction =>
      cases text with
      | nil => rfl
      | cons char rest => exact induction

theorem pieces_found {first : Char} {more behind : List Char} {groups : List (List Char)}
    (found : pattern.exec atStart text = some ⟨first :: more, behind, groups⟩) :
    pattern.pieces 0 atStart text =
      .found ⟨first :: more, behind, groups⟩ :: pattern.pieces 0 false behind := by
  have whole := matched_append_rest (mem_of_exec found)
  obtain rfl : text = first :: (more ++ behind) := whole.symm
  rw [pieces, found]
  dsimp only
  rw [pieces_skipped, List.drop_left]

theorem pieces_kept {char : Char} {rest : List Char}
    (nothing : pattern.results atStart (char :: rest) = []) :
    pattern.pieces 0 atStart (char :: rest) = .kept char :: pattern.pieces 0 false rest := by
  rw [pieces, exec, nothing]
  rfl

theorem flatMap_pieces (skipped : Nat) (atStart : Bool) (text : List Char) :
    (pattern.pieces skipped atStart text).flatMap Piece.text = text.drop skipped := by
  induction text generalizing skipped atStart with
  | nil => cases skipped <;> rfl
  | cons char rest induction =>
      cases skipped with
      | succ skipped => exact induction skipped false
      | zero =>
          rw [pieces]
          split
          · exact congrArg (char :: ·) (induction 0 false)
          · exact congrArg (char :: ·) (induction 0 false)
          · rename_i first more behind groups found
            have whole := matched_append_rest (mem_of_exec found)
            rw [List.flatMap_cons, induction, Piece.text]
            obtain ⟨rfl, tail⟩ := List.cons.inj whole
            rw [List.drop_zero, ← tail, List.append_eq, List.drop_left]
            rfl

theorem exists_of_found {skipped : Nat}
    (member : .found outcome ∈ pattern.pieces skipped atStart text) :
    ∃ fromStart behind, outcome ∈ pattern.results fromStart behind ∧ behind ⊆ text := by
  induction text generalizing skipped atStart with
  | nil => cases skipped <;> cases member
  | cons char rest induction =>
      have later : ∀ {skipped}, .found outcome ∈ pattern.pieces skipped false rest →
          ∃ fromStart behind, outcome ∈ pattern.results fromStart behind ∧
            behind ⊆ char :: rest := fun inside => by
        obtain ⟨fromStart, behind, found, part⟩ := induction inside
        exact ⟨fromStart, behind, found, List.Subset.trans part (List.subset_cons_self char rest)⟩
      cases skipped with
      | succ skipped => exact @later skipped member
      | zero =>
          rw [pieces] at member
          split at member
          · exact later (by simpa using member)
          · exact later (by simpa using member)
          · rename_i found
            rcases List.mem_cons.mp member with same | behind
            · cases same
              exact ⟨_, _, mem_of_exec found, List.Subset.refl _⟩
            · exact later behind

theorem pieces_append {front : List Char} (back : List Char)
    (nothing : ∀ before char after, front = before ++ char :: after →
      pattern.results (atStart && before.isEmpty) (char :: after ++ back) = []) :
    pattern.pieces 0 atStart (front ++ back) =
      front.map .kept ++ pattern.pieces 0 (atStart && front.isEmpty) back := by
  induction front generalizing atStart with
  | nil =>
      rw [List.isEmpty_nil, Bool.and_true]
      rfl
  | cons char rest induction =>
      have first := nothing [] char rest rfl
      rw [List.isEmpty_nil, Bool.and_true] at first
      have later := @induction false fun before other after same =>
        by simpa using nothing (char :: before) other after (congrArg (char :: ·) same)
      rw [List.cons_append, pieces_kept (by exact first), later]
      simp

theorem pieces_of_nothing
    (nothing : ∀ before char after, text = before ++ char :: after →
      pattern.results (atStart && before.isEmpty) (char :: after) = []) :
    pattern.pieces 0 atStart text = text.map .kept := by
  have all := @pieces_append pattern atStart text [] (by simpa using nothing)
  simpa [pieces] using all

/-- A pattern that begins with `^` is only tried at the beginning. -/
theorem find_of_anchored (anchored : ∀ rest, pattern.results false rest = []) (text : List Char) :
    pattern.find text =
      (pattern.exec true text).filter fun outcome => outcome.matched ≠ [] := by
  have none : ∀ rest, (pattern.pieces 0 false rest).findSome?
      (fun | .kept _ => Option.none | .found outcome => some outcome) = Option.none := by
    intro rest
    rw [pieces_of_nothing fun _ _ _ _ => anchored _, List.findSome?_eq_none_iff]
    intro piece member
    obtain ⟨char, -, rfl⟩ := List.mem_map.mp member
    rfl
  cases text with
  | nil =>
      cases found : pattern.exec true [] with
      | none => rfl
      | some outcome =>
          have whole := List.append_eq_nil_iff.mp (matched_append_rest (mem_of_exec found))
          simp [find, pieces, Option.filter, whole.1]
  | cons char rest =>
      rw [find, pieces]
      cases found : pattern.exec true (char :: rest) with
      | none => exact none rest
      | some outcome =>
          obtain ⟨matched, behind, groups⟩ := outcome
          cases matched with
          | nil => exact none rest
          | cons first more => rfl

/-! ## Replacing -/

theorem replaceAll_of_nothing {replacement : Outcome → List Char}
    (nothing : ∀ before char after, text = before ++ char :: after →
      pattern.results before.isEmpty (char :: after) = []) :
    pattern.replaceAll replacement text = text := by
  rw [replaceAll, pieces_of_nothing (by simpa using nothing), List.flatMap_map]
  exact List.flatMap_singleton' text

theorem replaceFirst_go_kept (replacement : List Char) (front : List Char) (more : List Piece) :
    replaceFirst.go replacement (front.map .kept ++ more) =
      front ++ replaceFirst.go replacement more := by
  induction front with
  | nil => rfl
  | cons char front induction => exact congrArg (char :: ·) induction

theorem replaceFirst_of_nothing {replacement : List Char}
    (nothing : ∀ before char after, text = before ++ char :: after →
      pattern.results before.isEmpty (char :: after) = []) :
    pattern.replaceFirst replacement text = text := by
  have kept := replaceFirst_go_kept replacement text []
  rw [List.append_nil] at kept
  rw [replaceFirst, pieces_of_nothing (by simpa using nothing), kept]
  exact List.append_nil text

theorem split_of_nothing
    (nothing : ∀ before char after, text = before ++ char :: after →
      pattern.results before.isEmpty (char :: after) = []) :
    pattern.split text = [text] := by
  have kept : ∀ (part front : List Char), split.go part (front.map .kept) = [part ++ front] := by
    intro part front
    induction front generalizing part with
    | nil => rw [List.map_nil, split.go, List.append_nil]
    | cons char front induction =>
        rw [List.map_cons, split.go, induction, List.append_assoc]
        rfl
  rw [split, pieces_of_nothing (by simpa using nothing), kept]
  rfl

theorem filter_replaceAll {replacement : Outcome → List Char} {keep : Char → Bool}
    (same : ∀ fromStart behind, ∀ outcome ∈ pattern.results fromStart behind,
      (replacement outcome).filter keep = outcome.matched.filter keep) (text : List Char) :
    (pattern.replaceAll replacement text).filter keep = text.filter keep := by
  have whole := @flatMap_pieces pattern 0 true text
  rw [List.drop_zero] at whole
  conv_rhs => rw [← whole]
  rw [replaceAll, List.filter_flatMap, List.filter_flatMap]
  refine List.flatMap_congr fun piece member => ?_
  cases piece with
  | kept char => rfl
  | found outcome =>
      obtain ⟨fromStart, behind, inside, -⟩ := exists_of_found member
      exact same fromStart behind outcome inside

theorem filter_replaceFirst {replacement : List Char} {keep : Char → Bool}
    (same : ∀ fromStart behind, ∀ outcome ∈ pattern.results fromStart behind,
      replacement.filter keep = outcome.matched.filter keep) (text : List Char) :
    (pattern.replaceFirst replacement text).filter keep = text.filter keep := by
  have each : ∀ pieces : List Piece, (∀ outcome, .found outcome ∈ pieces →
      replacement.filter keep = outcome.matched.filter keep) →
      (replaceFirst.go replacement pieces).filter keep =
        (pieces.flatMap Piece.text).filter keep := by
    intro pieces known
    induction pieces with
    | nil => rfl
    | cons piece more induction =>
        cases piece with
        | kept char =>
            have later := induction fun outcome member => known outcome (.tail _ member)
            rw [replaceFirst.go, List.flatMap_cons, Piece.text, List.filter_append, ← later,
              ← List.filter_append]
            rfl
        | found outcome =>
            rw [replaceFirst.go, List.flatMap_cons, List.filter_append, List.filter_append,
              known outcome (.head _)]
            rfl
  rw [replaceFirst, each _ fun outcome member => ?_, flatMap_pieces, List.drop_zero]
  obtain ⟨fromStart, behind, inside, -⟩ := exists_of_found member
  exact same fromStart behind outcome inside

end Pieces

end RegExp

end Nanocap
