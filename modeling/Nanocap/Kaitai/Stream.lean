import Nanocap.Foundation.Program
import Nanocap.Foundation.ByteString

/-! # Kaitai streams

The reading operations of `kaitai::kstream` the generated parser uses. The
stream exceptions are enabled, so a read past the end throws. -/

namespace Nanocap

/-- What the code throws. `std::ios_base::failure`, `SQLite::Exception` and the
parser's own errors all are `std::runtime_error`s; `std::out_of_range`, thrown by
`std::vector::at`, is not. -/
inductive Exception where
  | runtimeError
  | outOfRange
deriving DecidableEq

/-- The position reached and the bytes from there to the end. -/
structure KStream where
  position : Nat
  rest : List UInt8
deriving DecidableEq

abbrev Reader (α : Type) := EStateM Exception KStream α

namespace KStream

def ofBytes (bytes : List UInt8) : KStream := ⟨0, bytes⟩

def readBytes (length : Nat) : Reader (Bytes length) := fun stream =>
  if enough : length ≤ stream.rest.length then
    .ok ⟨stream.rest.take length, by rw [List.length_take]; omega⟩
      ⟨stream.position + length, stream.rest.drop length⟩
  else
    .error .runtimeError stream

def isEof : Reader Bool := fun stream => .ok stream.rest.isEmpty stream

def readU1 : Reader UInt8 := fun stream =>
  match stream.rest with
  | [] => .error .runtimeError stream
  | byte :: rest => .ok byte ⟨stream.position + 1, rest⟩

def readU2le : Reader UInt16 := do
  let bytes ← readBytes 2
  return UInt16.ofNat (littleEndianValue bytes.val)

def readU4le : Reader UInt32 := do
  let bytes ← readBytes 4
  return UInt32.ofNat (littleEndianValue bytes.val)

def readU4be : Reader UInt32 := do
  let bytes ← readBytes 4
  return UInt32.ofNat (bigEndianValue bytes.val)

def readU8le : Reader UInt64 := do
  let bytes ← readBytes 8
  return UInt64.ofNat (littleEndianValue bytes.val)

def readU8be : Reader UInt64 := do
  let bytes ← readBytes 8
  return UInt64.ofNat (bigEndianValue bytes.val)

def ensureFixedContents {length : Nat} (expected : Bytes length) :
    Reader (Bytes length) := do
  let actual ← readBytes length
  if actual = expected then return actual else throw .runtimeError

/-- The generated `do … while` loops: read items until `stop`, asked with the
number of items read so far, holds. Every item takes at least one byte, so
`fuel` need not exceed the number of unread bytes by more than one. -/
def readUntil {α : Type} (item : Reader α) (stop : Nat → Reader Bool) :
    (fuel read : Nat) → Reader (List α)
  | 0, _ => throw .runtimeError
  | fuel + 1, read => do
      let head ← item
      if ← stop (read + 1) then return [head]
      let tail ← readUntil item stop fuel (read + 1)
      return head :: tail

/-! ## Reading what was written -/

@[simp] theorem readBytes_append {length : Nat} (bytes : Bytes length) (position : Nat)
    (rest : List UInt8) :
    readBytes length ⟨position, bytes.val ++ rest⟩ = .ok bytes ⟨position + length, rest⟩ := by
  have taken : (bytes.val ++ rest).take length = bytes.val := by
    rw [List.take_append_of_le_length (by simp), List.take_of_length_le (by simp)]
  have dropped : (bytes.val ++ rest).drop length = rest := by
    rw [List.drop_append_of_le_length (by simp), List.drop_of_length_le (by simp)]
    rfl
  simp [readBytes, taken, dropped]

@[simp] theorem readU1_cons (byte : UInt8) (position : Nat) (rest : List UInt8) :
    readU1 ⟨position, byte :: rest⟩ = .ok byte ⟨position + 1, rest⟩ := rfl

@[simp] theorem readU1_nil (position : Nat) :
    readU1 ⟨position, []⟩ = .error .runtimeError ⟨position, []⟩ := rfl

@[simp] theorem isEof_nil (position : Nat) :
    isEof ⟨position, []⟩ = .ok true ⟨position, []⟩ := rfl

@[simp] theorem isEof_cons (byte : UInt8) (position : Nat) (rest : List UInt8) :
    isEof ⟨position, byte :: rest⟩ = .ok false ⟨position, byte :: rest⟩ := rfl

/-- The reader reads the value from the bytes, whatever follows them. -/
def Reads {α : Type} (reader : Reader α) (bytes : List UInt8) (value : α) : Prop :=
  ∀ position rest,
    reader ⟨position, bytes ++ rest⟩ = .ok value ⟨position + bytes.length, rest⟩

namespace Reads

variable {α β : Type} {reader : Reader α} {next : α → Reader β} {bytes more : List UInt8}
  {value : α} {result : β}

theorem pure (value : α) : Reads (pure value) [] value := fun _ _ => rfl

theorem bind (first : Reads reader bytes value) (second : Reads (next value) more result) :
    Reads (reader >>= next) (bytes ++ more) result := by
  intro position rest
  rw [List.append_assoc, EStateM.bind_of_ok (first position _), second, List.length_append,
    Nat.add_assoc]

theorem map (first : Reads reader bytes value) (build : α → β) :
    Reads (reader >>= fun value => Pure.pure (build value)) bytes (build value) := by
  have read := @bind _ _ _ (fun value => Pure.pure (build value)) _ _ _ _ first (pure (build value))
  rwa [List.append_nil] at read

theorem notEof {next : Bool → Reader α} (some : bytes ≠ [])
    (reads : Reads (next false) bytes value) : Reads (isEof >>= next) bytes value := by
  intro position rest
  obtain ⟨byte, bytes, rfl⟩ := List.exists_cons_of_ne_nil some
  exact (EStateM.bind_of_ok rfl).trans (reads position rest)

end Reads

/-! ## Consumption -/

/-- A reader that moves on by at least `least` bytes and skips none. -/
def Consumes {α : Type} (reader : Reader α) (least : Nat) : Prop :=
  ∀ stream value after, reader stream = .ok value after →
    after.position + after.rest.length = stream.position + stream.rest.length ∧
    stream.position + least ≤ after.position

namespace Consumes

variable {α β : Type}

theorem pure (value : α) : Consumes (pure value) 0 := by
  intro stream _ after read
  cases read
  exact ⟨rfl, Nat.le_refl _⟩

theorem bind {first : Reader α} {second : α → Reader β} {firstLeast secondLeast : Nat}
    (left : Consumes first firstLeast) (right : ∀ value, Consumes (second value) secondLeast) :
    Consumes (first >>= second) (firstLeast + secondLeast) := by
  intro stream result after read
  obtain ⟨value, middle, firstRead, secondRead⟩ := EStateM.bind_eq_ok read
  have ⟨firstTotal, firstMoved⟩ := left stream value middle firstRead
  have ⟨secondTotal, secondMoved⟩ := right value middle result after secondRead
  exact ⟨secondTotal.trans firstTotal, by omega⟩

theorem andThen {first : Reader α} {second : α → Reader β} {least : Nat}
    (left : Consumes first least) (right : ∀ value, Consumes (second value) 0) :
    Consumes (first >>= second) least := bind left right

theorem weaken {reader : Reader α} {least less : Nat} (consumes : Consumes reader least)
    (smaller : less ≤ least) : Consumes reader less := by
  intro stream value after read
  have ⟨total, moved⟩ := consumes stream value after read
  exact ⟨total, by omega⟩

theorem readBytes (length : Nat) : Consumes (readBytes length) length := by
  intro stream value after read
  unfold KStream.readBytes at read
  split at read
  · cases read
    simp only [List.length_drop]
    omega
  · cases read

theorem readU1 : Consumes readU1 1 := by
  intro stream value after read
  obtain ⟨position, _ | ⟨byte, rest⟩⟩ := stream
  · cases read
  · cases read
    simp only [List.length_cons]
    omega

theorem isEof : Consumes isEof 0 := by
  intro stream value after read
  cases read
  exact ⟨rfl, Nat.le_refl _⟩

theorem throw (exception : Exception) (least : Nat) :
    Consumes (throw exception : Reader α) least := by
  intro stream value after read
  cases read

theorem readUntil {item : Reader α} {stop : Nat → Reader Bool} {least : Nat}
    (items : Consumes item least) (stops : ∀ read, Consumes (stop read) 0) (fuel read : Nat) :
    Consumes (readUntil item stop fuel read) least := by
  induction fuel generalizing read with
  | zero => exact throw _ _
  | succ fuel induction =>
      refine items.andThen fun head => (stops (read + 1)).andThen fun stopped => ?_
      cases stopped with
      | true => exact pure _
      | false =>
          exact ((induction (read + 1)).weaken (Nat.zero_le _)).andThen fun tail => pure _

end Consumes

end KStream

end Nanocap
