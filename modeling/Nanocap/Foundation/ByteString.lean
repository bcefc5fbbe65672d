import Mathlib.Algebra.GroupWithZero.Nat
import Mathlib.Data.List.Basic
import Mathlib.Tactic.Common

/-! # Byte strings and byte order

Byte strings of a fixed length, and the natural numbers they denote when they
are read from their least or from their most significant end. -/

namespace Nanocap

abbrev Bytes (length : Nat) := {bytes : List UInt8 // bytes.length = length}

namespace Bytes

def zero (length : Nat) : Bytes length := ⟨List.replicate length 0, by simp⟩

@[simp] theorem length_val {length : Nat} (bytes : Bytes length) :
    bytes.val.length = length := bytes.property

theorem eq_of_append_eq {length : Nat} {left right : Bytes length}
    {leftRest rightRest : List UInt8}
    (equal : left.val ++ leftRest = right.val ++ rightRest) :
    left = right ∧ leftRest = rightRest := by
  have parts := List.append_inj equal (by simp)
  exact ⟨Subtype.ext parts.1, parts.2⟩

end Bytes

/-! ## Byte order -/

def littleEndianValue : List UInt8 → Nat
  | [] => 0
  | byte :: bytes => byte.toNat + 256 * littleEndianValue bytes

def littleEndianBytes : Nat → Nat → List UInt8
  | 0, _ => []
  | length + 1, value => UInt8.ofNat (value % 256) :: littleEndianBytes length (value / 256)

def bigEndianValue (bytes : List UInt8) : Nat := littleEndianValue bytes.reverse

def bigEndianBytes (length value : Nat) : List UInt8 :=
  (littleEndianBytes length value).reverse

example : littleEndianBytes 2 0x0107 = [7, 1] := by decide

example : bigEndianValue [1, 7] = 0x0107 := by decide

@[simp] theorem length_littleEndianBytes (length value : Nat) :
    (littleEndianBytes length value).length = length := by
  induction length generalizing value with
  | zero => rfl
  | succ length induction => simp [littleEndianBytes, induction]

@[simp] theorem length_bigEndianBytes (length value : Nat) :
    (bigEndianBytes length value).length = length := by
  simp [bigEndianBytes]

theorem littleEndianValue_bytes (length value : Nat) :
    littleEndianValue (littleEndianBytes length value) = value % 256 ^ length := by
  induction length generalizing value with
  | zero => simp [littleEndianBytes, littleEndianValue, Nat.mod_one]
  | succ length induction =>
      simp only [littleEndianBytes, littleEndianValue, induction]
      have byte : (UInt8.ofNat (value % 256)).toNat = value % 256 := by simp
      rw [byte, Nat.pow_succ', Nat.mod_mul]

theorem littleEndianBytes_value (bytes : List UInt8) :
    littleEndianBytes bytes.length (littleEndianValue bytes) = bytes := by
  induction bytes with
  | nil => rfl
  | cons byte bytes induction =>
      have bound := byte.toNat_lt
      have low : (byte.toNat + 256 * littleEndianValue bytes) % 256 = byte.toNat := by omega
      have high : (byte.toNat + 256 * littleEndianValue bytes) / 256 =
          littleEndianValue bytes := by omega
      simp [littleEndianBytes, littleEndianValue, low, high, induction]

theorem bigEndianValue_bytes (length value : Nat) :
    bigEndianValue (bigEndianBytes length value) = value % 256 ^ length := by
  simp [bigEndianValue, bigEndianBytes, littleEndianValue_bytes]

theorem bigEndianBytes_value (bytes : List UInt8) :
    bigEndianBytes bytes.length (bigEndianValue bytes) = bytes := by
  have reversed := littleEndianBytes_value bytes.reverse
  rw [List.length_reverse] at reversed
  rw [bigEndianBytes, bigEndianValue, reversed, List.reverse_reverse]

theorem littleEndianValue_lt (bytes : List UInt8) :
    littleEndianValue bytes < 256 ^ bytes.length := by
  induction bytes with
  | nil => simp [littleEndianValue]
  | cons byte bytes induction =>
      have bound := byte.toNat_lt
      simp only [littleEndianValue, List.length_cons, Nat.pow_succ']
      omega

theorem bigEndianValue_lt (bytes : List UInt8) :
    bigEndianValue bytes < 256 ^ bytes.length := by
  simpa [bigEndianValue] using littleEndianValue_lt bytes.reverse

end Nanocap
