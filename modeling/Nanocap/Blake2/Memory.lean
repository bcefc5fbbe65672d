import Mathlib.Data.Nat.Bitwise
import Mathlib.Tactic.Common
import Mathlib.Tactic.IntervalCases
import Nanocap.Foundation.ByteString

/-! # Memory

The helpers of `blake2-impl.h`, and what is read from bytes and written to them. -/

namespace Nanocap.Blake2

/-- `uint64_t` -/
abbrev Word := BitVec 64

def blockBytes : Nat := 128

def outBytes : Nat := 64

def keyBytes : Nat := 64

/-! ## Memory -/

def byteAt (src : List UInt8) (index : Nat) : Word := (src.getD index 0).toBitVec.setWidth 64

def load64 (src : List UInt8) : Word :=
  byteAt src 0 <<< 0 ||| byteAt src 1 <<< 8 ||| byteAt src 2 <<< 16 ||| byteAt src 3 <<< 24 |||
    byteAt src 4 <<< 32 ||| byteAt src 5 <<< 40 ||| byteAt src 6 <<< 48 ||| byteAt src 7 <<< 56

def store64 (word : Word) : List UInt8 :=
  [0, 8, 16, 24, 32, 40, 48, 56].map fun shift => .ofBitVec ((word >>> shift).setWidth 8)

def store32 (word : BitVec 32) : List UInt8 :=
  [0, 8, 16, 24].map fun shift => .ofBitVec ((word >>> shift).setWidth 8)

def rotr64 (word : Word) (count : Nat) : Word := (word >>> count) ||| (word <<< (64 - count))

/-- Copy to an offset of an array; what does not fit is never copied. -/
def memcpy {length : Nat} (dst : Bytes length) (offset : Nat) (src : List UInt8) : Bytes length :=
  ⟨dst.val.mapIdx fun index old =>
      if offset ≤ index ∧ index < offset + src.length then src.getD (index - offset) 0 else old,
    by rw [List.length_mapIdx, dst.property]⟩

def clearFrom {length : Nat} (dst : Bytes length) (offset : Nat) : Bytes length :=
  memcpy dst offset (.replicate (length - offset) 0)

/-! ## Words -/

private theorem getLsbD_shifted (src : List UInt8) {place byte bit : Nat} (small : bit < 8)
    (inside : byte < 8) :
    (byteAt src place <<< (8 * place)).getLsbD (8 * byte + bit) =
      (decide (place = byte) && (src.getD byte 0).toBitVec.getLsbD bit) := by
  rw [BitVec.getLsbD_shiftLeft, byteAt, BitVec.getLsbD_setWidth,
    decide_eq_true (by omega : 8 * byte + bit < 64)]
  rcases Nat.lt_trichotomy place byte with less | rfl | more
  · rw [decide_eq_false (Nat.ne_of_lt less),
      BitVec.getLsbD_of_ge _ _ (by omega : 8 ≤ 8 * byte + bit - 8 * place)]
    simp
  · rw [show 8 * place + bit - 8 * place = bit by omega,
      decide_eq_false (by omega : ¬8 * place + bit < 8 * place),
      decide_eq_true (by omega : bit < 64), decide_eq_true rfl, List.getD_eq_getElem?_getD]
    rfl
  · rw [decide_eq_false (Nat.ne_of_gt more), decide_eq_true (by omega : 8 * byte + bit < 8 * place)]
    simp

theorem getLsbD_load64 (src : List UInt8) {byte bit : Nat} (small : bit < 8) (inside : byte < 8) :
    (load64 src).getLsbD (8 * byte + bit) = (src.getD byte 0).toBitVec.getLsbD bit := by
  have place (place : Nat) := @getLsbD_shifted src place byte bit small inside
  unfold load64
  simp only [BitVec.getLsbD_or]
  rw [place 0, place 1, place 2, place 3, place 4, place 5, place 6, place 7]
  interval_cases byte <;> simp

theorem word_ext {left right : Word} (same : ∀ byte bit, bit < 8 → byte < 8 →
    left.getLsbD (8 * byte + bit) = right.getLsbD (8 * byte + bit)) : left = right := by
  apply BitVec.eq_of_getLsbD_eq
  intro index bound
  have split := same (index / 8) (index % 8) (Nat.mod_lt _ (by decide)) (by omega)
  rwa [Nat.div_add_mod] at split

theorem load64_store64 (word : Word) (rest : List UInt8) :
    load64 (store64 word ++ rest) = word := by
  apply word_ext
  intro byte bit small inside
  rw [getLsbD_load64 _ small inside]
  interval_cases byte <;> simp [store64, small, Nat.add_comm]

theorem load64_xor {left right : List UInt8} (leftLong : 8 ≤ left.length)
    (rightLong : 8 ≤ right.length) :
    load64 (List.zipWith (· ^^^ ·) left right) = load64 left ^^^ load64 right := by
  apply word_ext
  intro byte bit small inside
  have leftBound : byte < left.length := by omega
  have rightBound : byte < right.length := by omega
  rw [BitVec.getLsbD_xor, getLsbD_load64 _ small inside, getLsbD_load64 _ small inside,
    getLsbD_load64 _ small inside]
  simp [leftBound, rightBound]

theorem testBit_littleEndianValue (bytes : List UInt8) (byte : Nat) {bit : Nat}
    (small : bit < 8) :
    (littleEndianValue bytes).testBit (8 * byte + bit) =
      (bytes.getD byte 0).toBitVec.getLsbD bit := by
  induction bytes generalizing byte with
  | nil => simp [littleEndianValue]
  | cons first bytes induction =>
      have sum : littleEndianValue (first :: bytes) =
          2 ^ 8 * littleEndianValue bytes + first.toNat := Nat.add_comm _ _
      rw [sum, Nat.testBit_two_pow_mul_add _ first.toNat_lt]
      cases byte with
      | zero =>
          rw [Nat.mul_zero, Nat.zero_add, if_pos small]
          rfl
      | succ byte =>
          rw [if_neg (by omega), show 8 * (byte + 1) + bit - 8 = 8 * byte + bit by omega,
            induction byte, List.getD_cons_succ]

theorem load64_value (bytes : Bytes 8) (rest : List UInt8) :
    load64 (bytes.val ++ rest) = .ofNat 64 (littleEndianValue bytes.val) := by
  apply word_ext
  intro byte bit small inside
  rw [getLsbD_load64 _ small inside, BitVec.getLsbD_ofNat, testBit_littleEndianValue _ _ small,
    List.getD_append _ _ _ _ (by rw [bytes.length_val]; exact inside)]
  simp
  omega

/-! ## Arrays -/

theorem memcpy_val {length : Nat} (dst : Bytes length) {offset : Nat} {src : List UInt8}
    (fits : offset + src.length ≤ length) :
    (memcpy dst offset src).val =
      dst.val.take offset ++ src ++ dst.val.drop (offset + src.length) := by
  apply List.ext_getElem?
  intro index
  have size := dst.length_val
  rw [memcpy, List.getElem?_mapIdx, List.append_assoc]
  rcases Nat.lt_or_ge index offset with before | after
  · rw [List.getElem?_append_left (by rw [List.length_take]; omega),
      List.getElem?_take_of_lt before, List.getElem?_eq_getElem (by omega)]
    exact congrArg some (if_neg (by omega))
  rw [List.getElem?_append_right (by rw [List.length_take]; omega), List.length_take,
    Nat.min_eq_left (by omega)]
  rcases Nat.lt_or_ge index (offset + src.length) with inside | beyond
  · have bound : index - offset < src.length := by omega
    rw [List.getElem?_append_left bound, List.getElem?_eq_getElem bound,
      List.getElem?_eq_getElem (by omega : index < dst.val.length)]
    refine congrArg some ((if_pos ⟨after, inside⟩).trans ?_)
    rw [List.getD_eq_getElem?_getD, List.getElem?_eq_getElem bound, Option.getD_some]
  · rw [List.getElem?_append_right (by omega), List.getElem?_drop,
      show offset + src.length + (index - offset - src.length) = index by omega]
    cases dst.val[index]? with
    | none => rfl
    | some old => exact congrArg some (if_neg (by omega))

theorem take_memcpy {length : Nat} (dst : Bytes length) {offset : Nat} {src : List UInt8}
    (fits : offset + src.length ≤ length) :
    (memcpy dst offset src).val.take (offset + src.length) = dst.val.take offset ++ src := by
  rw [memcpy_val dst fits]
  refine List.take_left' ?_
  rw [List.length_append, List.length_take, dst.length_val, Nat.min_eq_left (by omega)]

theorem clearFrom_val {length : Nat} (dst : Bytes length) {offset : Nat}
    (fits : offset ≤ length) :
    (clearFrom dst offset).val = dst.val.take offset ++ .replicate (length - offset) 0 := by
  rw [clearFrom, memcpy_val dst (by rw [List.length_replicate]; omega), List.length_replicate,
    List.drop_eq_nil_of_le (by rw [dst.length_val]; omega), List.append_nil]

end Nanocap.Blake2
