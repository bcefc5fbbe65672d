import Mathlib.Data.Nat.Digits.Defs
import Nanocap.Util.Decoding

/-! # Account texts

What `pub_to_account` writes, read as numbers in base 32. -/

namespace Nanocap

/-! ## The assertion -/

/-- `account_encode`, where the assertion `value < 32` may fail. -/
def assertedEncode (value : UInt8) : Option Char :=
  if value < 32 then some (accountLookup.getD value.toNat '1') else none

/-- The loop of `pub_to_account`, which pushes a character for every `r`. -/
def assertedDigits : Nat → Nat → List Char → Option (List Char)
  | 0, _, destination => some destination
  | count + 1, numberL, destination => do
      let r := UInt8.ofNat (numberL &&& 0x1f)
      let result ← assertedEncode r
      assertedDigits count (numberL >>> 5) (destination ++ [result])

/-- `pub_to_account`, where the assertion may fail. -/
def assertedAccount (blake2b : (length : Nat) → List UInt8 → Bytes length)
    (publicBytes : Bytes 32) : Option String := do
  let check := littleEndianValue (blake2b 5 publicBytes.val).val
  let numberL := (number publicBytes.val <<< 40) % 2 ^ 512 ||| check
  let destination ← assertedDigits 60 numberL []
  return String.ofList (destination ++ "_onan".toList).reverse

private theorem assertedEncode_masked (numberL : Nat) :
    assertedEncode (UInt8.ofNat (numberL &&& 0x1f)) =
      some (accountEncode ⟨numberL % 32, Nat.mod_lt _ (by decide)⟩) := by
  have masked : numberL &&& 0x1f = numberL % 32 := Nat.and_two_pow_sub_one_eq_mod numberL 5
  have bound : numberL % 32 < 32 := Nat.mod_lt _ (by decide)
  have value : (UInt8.ofNat (numberL % 32)).toNat = numberL % 32 :=
    UInt8.toNat_ofNat_of_lt' (Nat.lt_trans bound (by decide))
  rw [masked, assertedEncode,
    if_pos (UInt8.lt_iff_toNat_lt.mpr (by rw [value]; exact bound)), value]
  rfl

private theorem assertedDigits_eq (count numberL : Nat) (destination : List Char) :
    assertedDigits count numberL destination =
      some (destination ++ accountDigits count numberL) := by
  induction count generalizing numberL destination with
  | zero => rw [assertedDigits, accountDigits, List.append_nil]
  | succ count induction =>
      rw [assertedDigits, assertedEncode_masked]
      exact (induction _ _).trans (by rw [accountDigits, List.append_assoc]; rfl)

/-- The assertion holds for every character. -/
theorem assertedAccount_eq (blake2b : (length : Nat) → List UInt8 → Bytes length)
    (publicBytes : Bytes 32) :
    assertedAccount blake2b publicBytes = some (pubToAccount blake2b publicBytes) := by
  rw [assertedAccount, assertedDigits_eq]
  rfl

/-! ## Numbers in base 32 -/

def accountDecode (char : Char) : Nat := accountLookup.idxOf char

def base32Value (chars : List Char) : Nat := Nat.ofDigits 32 (chars.reverse.map accountDecode)

private theorem accountDecode_encode (value : Fin 32) :
    accountDecode (accountEncode value) = value.val := by
  revert value
  decide

private theorem accountEncode_mem (value : Fin 32) : accountEncode value ∈ accountLookup := by
  revert value
  decide

theorem length_accountDigits (count numberL : Nat) :
    (accountDigits count numberL).length = count := by
  induction count generalizing numberL with
  | zero => rfl
  | succ count induction => rw [accountDigits, List.length_cons, induction]

theorem accountDigits_mem {count numberL : Nat} :
    ∀ char ∈ accountDigits count numberL, char ∈ accountLookup := by
  induction count generalizing numberL with
  | zero => exact fun _ member => absurd member List.not_mem_nil
  | succ count induction =>
      intro char member
      rcases List.mem_cons.mp member with rfl | member
      · exact accountEncode_mem _
      · exact induction char member

theorem accountDigits_add (low high numberL : Nat) :
    accountDigits (low + high) numberL =
      accountDigits low numberL ++ accountDigits high (numberL / 32 ^ low) := by
  induction low generalizing numberL with
  | zero => rw [Nat.zero_add, Nat.pow_zero, Nat.div_one]; rfl
  | succ low induction =>
      have shift : numberL >>> 5 / 32 ^ low = numberL / 32 ^ (low + 1) := by
        rw [Nat.shiftRight_eq_div_pow, Nat.div_div_eq_div_mul, show 2 ^ 5 = 32 from rfl,
          ← Nat.pow_succ']
      rw [Nat.succ_add, accountDigits, induction, shift]
      rfl

theorem base32Value_digits (count numberL : Nat) :
    base32Value (accountDigits count numberL).reverse = numberL % 32 ^ count := by
  rw [base32Value, List.reverse_reverse]
  induction count generalizing numberL with
  | zero => rw [Nat.pow_zero, Nat.mod_one]; rfl
  | succ count induction =>
      have low := accountDecode_encode ⟨numberL % 32, Nat.mod_lt _ (by decide)⟩
      rw [accountDigits, List.map_cons, Nat.ofDigits_cons, induction, low,
        Nat.shiftRight_eq_div_pow, @Nat.pow_succ' 32, Nat.mod_mul]

/-! ## The text of a key -/

/-- A text stands for a key with a check sum. -/
structure AccountText (text : String) (key : Bytes 32) (check : Bytes 5) : Prop where
  length : text.length = 65
  front : text.toList.take 5 = "nano_".toList
  alphabet : ∀ char ∈ text.toList.drop 5, char ∈ accountLookup
  first : text.toList[5]? = some '1' ∨ text.toList[5]? = some '3'
  value : base32Value ((text.toList.drop 5).take 52) = bigEndianValue key.val
  check : base32Value (text.toList.drop 57) = littleEndianValue check.val

section Key

variable (key : Bytes 32) (check : Bytes 5)

/-- The characters of the check sum, and those of the key. -/
private theorem accountDigits_key {numberL : Nat}
    (made : numberL = bigEndianValue key.val * 2 ^ 40 + littleEndianValue check.val) :
    accountDigits 60 numberL =
      accountDigits 8 numberL ++ accountDigits 52 (bigEndianValue key.val) := by
  have sum := littleEndianValue_lt check.val
  rw [check.length_val] at sum
  have shifted : numberL / 32 ^ 8 = bigEndianValue key.val := by omega
  rw [← shifted]
  exact accountDigits_add 8 52 numberL

/-- A key has 256 bits, one more than 51 characters hold. -/
private theorem accountDigits_first :
    accountDigits 52 (bigEndianValue key.val) =
        accountDigits 51 (bigEndianValue key.val) ++ ['1'] ∨
      accountDigits 52 (bigEndianValue key.val) =
        accountDigits 51 (bigEndianValue key.val) ++ ['3'] := by
  have bound := bigEndianValue_lt key.val
  rw [key.length_val] at bound
  have small : bigEndianValue key.val / 32 ^ 51 < 2 := by omega
  have split := accountDigits_add 51 1 (bigEndianValue key.val)
  generalize bigEndianValue key.val / 32 ^ 51 = top at small split
  rcases Nat.lt_succ_iff_lt_or_eq.mp small with below | rfl
  · obtain rfl := Nat.lt_one_iff.mp below
    exact .inl split
  · exact .inr split

end Key

private theorem toList_pubToAccount (blake2b : (length : Nat) → List UInt8 → Bytes length)
    (key : Bytes 32) :
    ∃ numberL,
      numberL = bigEndianValue key.val * 2 ^ 40 + littleEndianValue (blake2b 5 key.val).val ∧
      (pubToAccount blake2b key).toList =
        "nano_".toList ++ ((accountDigits 52 (bigEndianValue key.val)).reverse ++
          (accountDigits 8 numberL).reverse) := by
  refine ⟨_, rfl, ?_⟩
  rw [pubToAccount, accountNumber_eq, String.toList_ofList, List.reverse_append,
    accountDigits_key key _ rfl, List.reverse_append]
  rfl

theorem accountText_pubToAccount (blake2b : (length : Nat) → List UInt8 → Bytes length)
    (key : Bytes 32) : AccountText (pubToAccount blake2b key) key (blake2b 5 key.val) := by
  obtain ⟨numberL, made, text⟩ := toList_pubToAccount blake2b key
  have keyLength := length_accountDigits 52 (bigEndianValue key.val)
  have sumLength := length_accountDigits 8 numberL
  have behind : (pubToAccount blake2b key).toList.drop 5 =
      (accountDigits 52 (bigEndianValue key.val)).reverse ++
        (accountDigits 8 numberL).reverse := by
    rw [text]
    exact List.drop_left' rfl
  refine ⟨?length, ?front, ?alphabet, ?first, ?value, ?check⟩
  case length =>
    rw [← String.length_toList, text]
    simp only [List.length_append, List.length_reverse, keyLength, sumLength]
    rfl
  case front =>
    rw [text]
    exact List.take_left' rfl
  case alphabet =>
    intro char member
    rw [behind, List.mem_append, List.mem_reverse, List.mem_reverse] at member
    exact member.elim (accountDigits_mem char) (accountDigits_mem char)
  case first =>
    have front : ∀ char, accountDigits 52 (bigEndianValue key.val) =
        accountDigits 51 (bigEndianValue key.val) ++ [char] →
        (pubToAccount blake2b key).toList[5]? = some char := by
      intro char last
      rw [text, last, List.reverse_append]
      rfl
    exact (accountDigits_first key).imp (front '1') (front '3')
  case value =>
    have bound := bigEndianValue_lt key.val
    rw [key.length_val] at bound
    rw [behind, List.take_left' (by rw [List.length_reverse, keyLength]), base32Value_digits,
      Nat.mod_eq_of_lt (Nat.lt_of_lt_of_le bound (by decide))]
  case check =>
    have sum := littleEndianValue_lt (blake2b 5 key.val).val
    rw [Bytes.length_val] at sum
    have low : numberL % 32 ^ 8 = littleEndianValue (blake2b 5 key.val).val := by omega
    have split : (pubToAccount blake2b key).toList.drop 57 = (accountDigits 8 numberL).reverse := by
      rw [← @List.drop_drop _ 52 5, behind]
      exact List.drop_left' (by rw [List.length_reverse, keyLength])
    rw [split, base32Value_digits, low]

def ofAccount (text : String) : List UInt8 :=
  bigEndianBytes 32 (base32Value ((text.toList.drop 5).take 52))

@[simp] theorem ofAccount_pubToAccount (blake2b : (length : Nat) → List UInt8 → Bytes length)
    (key : Bytes 32) : ofAccount (pubToAccount blake2b key) = key.val := by
  have bytes := bigEndianBytes_value key.val
  rw [key.length_val] at bytes
  rw [ofAccount, (accountText_pubToAccount blake2b key).value, bytes]

/-- `pub_to_account` writes every key with its check sum, no assertion of
`account_encode` fails, and different keys have different texts. -/
theorem pubToAccount_correct (blake2b : (length : Nat) → List UInt8 → Bytes length) :
    (∀ key : Bytes 32,
      AccountText (pubToAccount blake2b key) key (blake2b 5 key.val) ∧
      assertedAccount blake2b key = some (pubToAccount blake2b key)) ∧
    Function.Injective (pubToAccount blake2b) :=
  ⟨fun key => ⟨accountText_pubToAccount blake2b key, assertedAccount_eq blake2b key⟩,
    fun _ _ same => pubToAccount_injective same⟩

end Nanocap
