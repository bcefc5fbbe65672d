import Mathlib.Tactic.Common

/-! # Circular buffers

A bounded buffer that overwrites its oldest elements when it is full. Only the
logical contents are kept; `memoryAfterErase` describes the one situation in
which the cells behind the contents matter. -/

namespace Nanocap

structure CircularBuffer (α : Type) (capacity : Nat) where
  toList : List α
  fits : toList.length ≤ capacity
deriving DecidableEq

namespace CircularBuffer

def capacity {α : Type} {bound : Nat} (_ : CircularBuffer α bound) : Nat := bound

variable {α : Type} {capacity : Nat}

@[ext] theorem ext {left right : CircularBuffer α capacity}
    (equal : left.toList = right.toList) : left = right := by
  cases left
  cases right
  simpa using equal

def empty : CircularBuffer α capacity := ⟨[], Nat.zero_le _⟩

@[simp] theorem toList_empty : (empty : CircularBuffer α capacity).toList = [] := rfl

def size (buffer : CircularBuffer α capacity) : Nat := buffer.toList.length

@[simp] theorem size_empty : (empty : CircularBuffer α capacity).size = 0 := rfl

/-- Append one element; a full buffer gives up its oldest one. -/
def pushBack (buffer : CircularBuffer α capacity) (value : α) :
    CircularBuffer α capacity where
  toList := (buffer.toList ++ [value]).drop (buffer.size + 1 - capacity)
  fits := by
    have fits := buffer.fits
    simp only [List.length_drop, List.length_append, List.length_singleton, size]
    omega

@[simp] theorem toList_pushBack (buffer : CircularBuffer α capacity) (value : α) :
    (buffer.pushBack value).toList =
      (buffer.toList ++ [value]).drop (buffer.size + 1 - capacity) := rfl

def append (buffer : CircularBuffer α capacity) (values : List α) :
    CircularBuffer α capacity :=
  values.foldl pushBack buffer

/-- Appending keeps the last `capacity` elements. -/
theorem toList_append (buffer : CircularBuffer α capacity) (values : List α) :
    (buffer.append values).toList =
      (buffer.toList ++ values).drop (buffer.size + values.length - capacity) := by
  induction values generalizing buffer with
  | nil =>
      have fits := buffer.fits
      have nothing : buffer.size - capacity = 0 := by
        simp only [size]
        omega
      simp [append, nothing]
  | cons value values induction =>
      have fits := buffer.fits
      have step : (buffer.append (value :: values)) =
          (buffer.pushBack value).append values := rfl
      rw [step, induction]
      simp only [pushBack, size, List.length_drop, List.length_append,
        List.length_cons, List.length_nil]
      rw [← List.drop_append_of_le_length, List.drop_drop, List.append_assoc]
      · simp only [List.cons_append, List.nil_append]
        congr 1
        omega
      · simp only [List.length_append, List.length_cons, List.length_nil]
        omega

theorem toList_append_of_fits (buffer : CircularBuffer α capacity) (values : List α)
    (room : buffer.size + values.length ≤ capacity) :
    (buffer.append values).toList = buffer.toList ++ values := by
  rw [toList_append, Nat.sub_eq_zero_of_le room, List.drop_zero]

/-- The elements a full buffer gives up while values are appended, the oldest first. -/
def overwritten : CircularBuffer α capacity → List α → List α
  | _, [] => []
  | buffer, value :: values =>
      (if buffer.size = capacity then buffer.toList.take 1 else []) ++
        overwritten (buffer.pushBack value) values

theorem overwritten_append (positive : 0 < capacity) (buffer : CircularBuffer α capacity)
    (values : List α) :
    buffer.overwritten values ++ (buffer.append values).toList = buffer.toList ++ values := by
  induction values generalizing buffer with
  | nil => rw [overwritten, append, List.foldl_nil, List.append_nil, List.nil_append]
  | cons value values induction =>
      have later := induction (buffer.pushBack value)
      have step : buffer.append (value :: values) = (buffer.pushBack value).append values := rfl
      rw [overwritten, step, List.append_assoc, later]
      have fits := buffer.fits
      split
      · rename_i full
        obtain ⟨oldest, rest, bytes⟩ := List.exists_cons_of_ne_nil
          (List.ne_nil_of_length_pos (Nat.lt_of_lt_of_eq positive full.symm))
        have one : buffer.size + 1 - capacity = 1 := by omega
        rw [toList_pushBack, one, bytes]
        simp
      · rename_i room
        have nothing : buffer.size + 1 - capacity = 0 := by
          have different : buffer.toList.length ≠ capacity := room
          rw [size]
          omega
        rw [toList_pushBack, nothing]
        simp

theorem overwritten_eq (positive : 0 < capacity) (buffer : CircularBuffer α capacity)
    (values : List α) :
    buffer.overwritten values =
      (buffer.toList ++ values).take (buffer.size + values.length - capacity) := by
  have split := overwritten_append positive buffer values
  rw [toList_append] at split
  exact List.append_cancel_right (split.trans (List.take_append_drop _ _).symm)

theorem size_append_le (buffer : CircularBuffer α capacity) (values : List α) :
    (buffer.append values).size ≤ buffer.size + values.length := by
  simp only [size, toList_append, List.length_drop, List.length_append]
  omega

/-- Remove the `count` oldest elements. -/
def eraseFront (buffer : CircularBuffer α capacity) (count : Nat) :
    CircularBuffer α capacity where
  toList := buffer.toList.drop count
  fits := by
    have fits := buffer.fits
    rw [List.length_drop]
    omega

@[simp] theorem toList_eraseFront (buffer : CircularBuffer α capacity) (count : Nat) :
    (buffer.eraseFront count).toList = buffer.toList.drop count := rfl

theorem size_eraseFront (buffer : CircularBuffer α capacity) (count : Nat) :
    (buffer.eraseFront count).size = buffer.size - count := by
  simp [size]

/-- The cells of a linearized buffer after `eraseFront count`, seen through a
pointer taken before: the elements behind the erased ones have moved to the
front, and the cells they leave at the end keep their old values. -/
def memoryAfterErase (memory : List α) (count : Nat) : List α :=
  memory.drop count ++ memory.drop (memory.length - count)

end CircularBuffer

end Nanocap
