import Mathlib.Data.List.Basic
import Nanocap.Foundation.CircularBuffer

/-! # Chunks from a circular buffer

Pieces are appended to a circular buffer, and after each of them the complete chunks
at its front are taken out. The positions of the elements decide where the cuts are,
not the elements. -/

namespace Nanocap.Chunks

variable {α β : Type}

/-- Appending to a buffer that gives up its oldest elements. -/
def keepLast (capacity : Nat) (buffer : List α) : List α :=
  buffer.drop (buffer.length - capacity)

theorem toList_append_eq {capacity : Nat} (buffer : CircularBuffer α capacity)
    (values : List α) :
    (buffer.append values).toList = keepLast capacity (buffer.toList ++ values) := by
  rw [CircularBuffer.toList_append, keepLast, List.length_append]
  rfl

def fronts (size : Nat) (buffer : List α) : List (List α) :=
  (List.range (buffer.length / size)).map fun index => (buffer.drop (size * index)).take size

def residue (size : Nat) (buffer : List α) : List α :=
  buffer.drop (size * (buffer.length / size))

def run (capacity size : Nat) : List α → List (List α) → List (List α) × List α
  | buffer, [] => ([], buffer)
  | buffer, piece :: pieces =>
      let filled := keepLast capacity (buffer ++ piece)
      let rest := run capacity size (residue size filled) pieces
      (fronts size filled ++ rest.1, rest.2)

variable {capacity size : Nat}

/-! ## One chunk after the other -/

theorem fronts_of_short {buffer : List α} (short : buffer.length < size) :
    fronts size buffer = [] ∧ residue size buffer = buffer := by
  simp [fronts, residue, Nat.div_eq_of_lt short]

theorem fronts_append {chunk : List α} (length : chunk.length = size) (positive : 0 < size)
    (rest : List α) : fronts size (chunk ++ rest) = chunk :: fronts size rest ∧
      residue size (chunk ++ rest) = residue size rest := by
  have count : (chunk ++ rest).length / size = rest.length / size + 1 := by
    rw [List.length_append, length, Nat.add_div_left _ positive]
  have later : ∀ index, (chunk ++ rest).drop (size * (index + 1)) = rest.drop (size * index) := by
    intro index
    rw [Nat.mul_succ, Nat.add_comm, ← List.drop_drop, ← length, List.drop_left]
  constructor
  · rw [fronts, count, List.range_succ_eq_map, List.map_cons, List.map_map]
    congr 1
    · rw [Nat.mul_zero, List.drop_zero, ← length, List.take_left]
    · apply List.map_congr_left
      intro index _
      exact congrArg (List.take size) (later index)
  · rw [residue, count, later]
    rfl

theorem length_of_mem_fronts {buffer chunk : List α} (member : chunk ∈ fronts size buffer) :
    chunk.length = size := by
  obtain ⟨index, inside, rfl⟩ := List.mem_map.mp member
  have below := List.mem_range.mp inside
  have enough : size * (index + 1) ≤ buffer.length :=
    Nat.le_trans (Nat.mul_le_mul_left _ below) (Nat.mul_div_le _ _)
  rw [Nat.mul_succ] at enough
  rw [List.length_take, List.length_drop]
  omega

@[elab_as_elim]
theorem buffer_induction (positive : 0 < size) {motive : List α → Prop}
    (short : ∀ buffer, buffer.length < size → motive buffer)
    (append : ∀ chunk rest, chunk.length = size → motive rest → motive (chunk ++ rest))
    (buffer : List α) : motive buffer := by
  induction length : buffer.length using Nat.strongRecOn generalizing buffer with
  | ind count induction =>
      by_cases less : buffer.length < size
      · exact short buffer less
      · have enough := Nat.le_of_not_lt less
        rw [← List.take_append_drop size buffer]
        refine append _ _ (List.length_take_of_le enough) (induction _ ?_ _ rfl)
        rw [List.length_drop]
        omega

theorem flatten_fronts (buffer : List α) :
    (fronts size buffer).flatten ++ residue size buffer = buffer := by
  rcases Nat.eq_zero_or_pos size with rfl | positive
  · simp [fronts, residue]
  · induction buffer using buffer_induction positive with
    | short buffer less =>
        rw [(fronts_of_short less).1, (fronts_of_short less).2]
        rfl
    | append chunk rest length induction =>
        obtain ⟨front, behind⟩ := fronts_append length positive rest
        rw [front, behind, List.flatten_cons, List.append_assoc, induction]

/-! ## Elements and their positions -/

theorem keepLast_map (f : α → β) (buffer : List α) :
    keepLast capacity (buffer.map f) = (keepLast capacity buffer).map f := by
  simp [keepLast]

theorem fronts_map (f : α → β) (buffer : List α) :
    fronts size (buffer.map f) = (fronts size buffer).map (List.map f) := by
  simp [fronts]

theorem residue_map (f : α → β) (buffer : List α) :
    residue size (buffer.map f) = (residue size buffer).map f := by
  simp [residue]

theorem run_map (f : α → β) (buffer : List α) (pieces : List (List α)) :
    run capacity size (buffer.map f) (pieces.map (List.map f)) =
      ((run capacity size buffer pieces).1.map (List.map f),
        (run capacity size buffer pieces).2.map f) := by
  induction pieces generalizing buffer with
  | nil => rfl
  | cons piece pieces induction =>
      simp only [run, List.map_cons, ← List.map_append, keepLast_map, fronts_map, residue_map,
        induction]

theorem run_append (buffer : List α) (first second : List (List α)) :
    run capacity size buffer (first ++ second) =
      ((run capacity size buffer first).1 ++
          (run capacity size (run capacity size buffer first).2 second).1,
        (run capacity size (run capacity size buffer first).2 second).2) := by
  induction first generalizing buffer with
  | nil => rfl
  | cons piece first induction =>
      simp only [List.cons_append, run, induction, List.append_assoc]

theorem length_of_mem_run {buffer chunk : List α} {pieces : List (List α)}
    (member : chunk ∈ (run capacity size buffer pieces).1) : chunk.length = size := by
  induction pieces generalizing buffer with
  | nil => cases member
  | cons piece pieces induction =>
      rcases List.mem_append.mp member with front | later
      · exact length_of_mem_fronts front
      · exact induction later

theorem length_residue_lt (positive : 0 < size) (buffer : List α) :
    (residue size buffer).length < size := by
  have split := Nat.div_add_mod buffer.length size
  have less := Nat.mod_lt buffer.length positive
  rw [residue, List.length_drop]
  omega

theorem fronts_append_residue (positive : 0 < size) (buffer more : List α) :
    fronts size (buffer ++ more) = fronts size buffer ++ fronts size (residue size buffer ++ more) ∧
      residue size (buffer ++ more) = residue size (residue size buffer ++ more) := by
  induction buffer using buffer_induction positive with
  | short buffer less =>
      obtain ⟨none, all⟩ := fronts_of_short less
      rw [none, all]
      exact ⟨rfl, rfl⟩
  | append chunk rest length induction =>
      obtain ⟨front, behind⟩ := fronts_append length positive rest
      obtain ⟨whole, wholeBehind⟩ := fronts_append length positive (rest ++ more)
      rw [List.append_assoc, whole, wholeBehind, front, behind, induction.1, induction.2]
      exact ⟨rfl, rfl⟩

/-- No piece finds the buffer too full. -/
def Fits (capacity size : Nat) : List α → List (List α) → Prop
  | _, [] => True
  | buffer, piece :: pieces =>
      (buffer ++ piece).length ≤ capacity ∧
        Fits capacity size (residue size (buffer ++ piece)) pieces

/-- Where the pieces fit, the cuts between them do not matter. -/
theorem run_of_fits (positive : 0 < size) {buffer : List α} {pieces : List (List α)}
    (short : buffer.length < size) (fits : Fits capacity size buffer pieces) :
    run capacity size buffer pieces =
      (fronts size (buffer ++ pieces.flatten), residue size (buffer ++ pieces.flatten)) := by
  induction pieces generalizing buffer with
  | nil =>
      obtain ⟨none, all⟩ := fronts_of_short short
      rw [run, List.flatten_nil, List.append_nil, none, all]
  | cons piece pieces induction =>
      obtain ⟨room, fitsRest⟩ := fits
      have kept : keepLast capacity (buffer ++ piece) = buffer ++ piece := by
        rw [keepLast, Nat.sub_eq_zero_of_le room, List.drop_zero]
      obtain ⟨front, behind⟩ := fronts_append_residue positive (buffer ++ piece) pieces.flatten
      rw [run, kept, induction (length_residue_lt positive _) fitsRest, List.flatten_cons,
        ← List.append_assoc, front, behind]

theorem flatten_run_sublist (buffer : List α) (pieces : List (List α)) :
    List.Sublist ((run capacity size buffer pieces).1.flatten ++
      (run capacity size buffer pieces).2) (buffer ++ pieces.flatten) := by
  induction pieces generalizing buffer with
  | nil => simp [run]
  | cons piece pieces induction =>
      simp only [run, List.flatten_append, List.flatten_cons, List.append_assoc]
      have rest := (induction (residue size (keepLast capacity (buffer ++ piece)))).append_left
        (fronts size (keepLast capacity (buffer ++ piece))).flatten
      rw [← List.append_assoc _ (residue _ _), flatten_fronts] at rest
      refine rest.trans ?_
      rw [← List.append_assoc buffer]
      exact (List.drop_sublist _ _).append_right _

end Nanocap.Chunks
