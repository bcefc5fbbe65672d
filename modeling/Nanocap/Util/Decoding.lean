import Mathlib.Data.List.Induction
import Nanocap.Util.Encoding

/-! # Reading the encodings back

Hexadecimal texts, decimal balances and account texts determine the bytes they were
made from. -/

namespace Nanocap

/-! ## Hexadecimal texts -/

def hexValue (digit : Char) : Nat :=
  if digit.toNat < 58 then digit.toNat - 48 else digit.toNat - 55

def ofHexDigits : List Char → List UInt8
  | high :: low :: digits =>
      UInt8.ofNat (16 * hexValue high + hexValue low) :: ofHexDigits digits
  | _ => []

def ofHex (text : String) : List UInt8 := ofHexDigits text.toList

theorem hexValue_hexDigit {value : Nat} (digit : value < 16) :
    hexValue (hexDigit value) = value := by
  have all : ∀ value : Fin 16, hexValue (hexDigit value.val) = value.val := by decide
  exact all ⟨value, digit⟩

private theorem ofHexDigits_byte (byte : UInt8) (digits : List Char) :
    ofHexDigits (hexDigit (byte.toNat / 16) :: hexDigit (byte.toNat % 16) :: digits) =
      byte :: ofHexDigits digits := by
  have bound := byte.toNat_lt
  rw [ofHexDigits, hexValue_hexDigit (by omega), hexValue_hexDigit (Nat.mod_lt _ (by decide)),
    Nat.div_add_mod, UInt8.ofNat_toNat]

@[simp] theorem ofHex_toHex (bytes : List UInt8) : ofHex (toHex bytes) = bytes := by
  rw [ofHex, toHex, String.toList_ofList]
  induction bytes with
  | nil => rfl
  | cons byte bytes induction =>
      rw [List.flatMap_cons, List.cons_append, List.cons_append, List.nil_append,
        ofHexDigits_byte, induction]

theorem toHex_injective {left right : List UInt8} (same : toHex left = toHex right) :
    left = right := by
  rw [← ofHex_toHex left, same, ofHex_toHex]

/-! ## Balances -/

def ofBalance (text : String) : List UInt8 := bigEndianBytes 16 (Nat.ofDigitChars 10 text.toList 0)

@[simp] theorem ofBalance_balanceToDec (balance : Bytes 16) :
    ofBalance (balanceToDec balance) = balance.val := by
  have bytes := bigEndianBytes_value balance.val
  rw [balance.length_val] at bytes
  rw [ofBalance, balanceToDec]
  exact (congrArg (bigEndianBytes 16)
    ((congrArg (Nat.ofDigitChars 10 · 0) Nat.toList_repr).trans
      Nat.ofDigitChars_ten_toDigits)).trans bytes

/-! ## Accounts -/

private theorem bigEndianValue_concat (bytes : List UInt8) (byte : UInt8) :
    bigEndianValue (bytes ++ [byte]) = byte.toNat + 256 * bigEndianValue bytes := by
  rw [bigEndianValue, List.reverse_append]
  rfl

/-- The shifts lose nothing of 32 bytes. -/
private theorem number_eq {bytes : List UInt8} (fits : bytes.length ≤ 32) :
    number bytes = bigEndianValue bytes := by
  have state : ∀ bytes : List UInt8, bytes.length ≤ 32 →
      bytes.foldl (fun state byte => ((state.1 <<< state.2) % 2 ^ 256 ||| byte.toNat, 8)) (0, 0) =
        (bigEndianValue bytes, if bytes = [] then 0 else 8) := by
    intro bytes
    induction bytes using List.reverseRecOn with
    | nil => exact fun _ => rfl
    | append_singleton bytes byte induction =>
        intro fits
        rw [List.length_append, List.length_singleton] at fits
        rw [List.foldl_append, induction (by omega), bigEndianValue_concat]
        by_cases first : bytes = []
        · subst first
          simp [bigEndianValue, littleEndianValue]
        · have bound := bigEndianValue_lt bytes
          have power : 256 ^ bytes.length ≤ 256 ^ 31 :=
            Nat.pow_le_pow_right (by decide) (by omega)
          have small : bigEndianValue bytes * 256 < 2 ^ 256 := by omega
          have byteBound : byte.toNat < 2 ^ 8 := byte.toNat_lt
          simp only [List.foldl_cons, List.foldl_nil, if_neg first]
          rw [Nat.mod_eq_of_lt (by rwa [Nat.shiftLeft_eq]),
            ← Nat.shiftLeft_add_eq_or_of_lt byteBound, Nat.shiftLeft_eq]
          simp
          omega
  exact congrArg Prod.fst (state bytes fits)

private theorem accountEncode_injective {left right : Fin 32}
    (same : accountEncode left = accountEncode right) : left = right := by
  revert left right
  decide

private theorem accountDigits_injective {count left right : Nat}
    (same : accountDigits count left = accountDigits count right) :
    left % 32 ^ count = right % 32 ^ count := by
  induction count generalizing left right with
  | zero => simp [Nat.mod_one]
  | succ count induction =>
      obtain ⟨low, high⟩ := List.cons.inj same
      have lows : left % 32 = right % 32 := congrArg Fin.val (accountEncode_injective low)
      have highs := induction high
      simp only [Nat.shiftRight_eq_div_pow] at highs
      rw [Nat.pow_succ', Nat.mod_mul, Nat.mod_mul, lows, highs]

/-- The key and the check sum do not overlap. -/
theorem accountNumber_eq (publicBytes : Bytes 32) (check : Bytes 5) :
    ((number publicBytes.val <<< 40) % 2 ^ 512 ||| littleEndianValue check.val) =
      bigEndianValue publicBytes.val * 2 ^ 40 + littleEndianValue check.val := by
  have key := bigEndianValue_lt publicBytes.val
  have sum := littleEndianValue_lt check.val
  rw [publicBytes.length_val] at key
  rw [check.length_val] at sum
  have small : bigEndianValue publicBytes.val <<< 40 < 2 ^ 512 := by
    rw [Nat.shiftLeft_eq]
    omega
  rw [number_eq (Nat.le_of_eq publicBytes.length_val), Nat.mod_eq_of_lt small,
    ← Nat.shiftLeft_add_eq_or_of_lt (by omega), Nat.shiftLeft_eq]

/-- The account text determines the public key, whatever the check sum. -/
theorem pubToAccount_injective {blake2b : (length : Nat) → List UInt8 → Bytes length}
    {left right : Bytes 32} (same : pubToAccount blake2b left = pubToAccount blake2b right) :
    left = right := by
  have texts := List.reverse_injective (String.ofList_injective same)
  have digits := accountDigits_injective (List.append_inj_left' texts rfl)
  rw [accountNumber_eq, accountNumber_eq] at digits
  have leftKey := bigEndianValue_lt left.val
  have rightKey := bigEndianValue_lt right.val
  have leftSum := littleEndianValue_lt (blake2b 5 left.val).val
  have rightSum := littleEndianValue_lt (blake2b 5 right.val).val
  rw [Bytes.length_val] at leftKey rightKey leftSum rightSum
  have keys : bigEndianValue left.val = bigEndianValue right.val := by
    omega
  have bytes := congrArg (bigEndianBytes 32) keys
  have leftBytes := bigEndianBytes_value left.val
  have rightBytes := bigEndianBytes_value right.val
  rw [Bytes.length_val] at leftBytes rightBytes
  exact Subtype.ext (leftBytes.symm.trans (bytes.trans rightBytes))

end Nanocap
