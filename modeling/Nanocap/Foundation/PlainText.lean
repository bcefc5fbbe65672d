import Mathlib.Data.List.TakeWhile

/-! # Plain texts

Texts of ASCII characters without NUL. They survive what ends at a NUL and what
asks for UTF-8. -/

namespace Nanocap

/-! ## Characters and bytes -/

def PlainChar (char : Char) : Prop := 0 < char.toNat ∧ char.toNat < 128

instance (char : Char) : Decidable (PlainChar char) :=
  inferInstanceAs (Decidable (_ ∧ _))

def PlainByte (byte : UInt8) : Prop := 0 < byte.toNat ∧ byte.toNat < 128

instance (byte : UInt8) : Decidable (PlainByte byte) :=
  inferInstanceAs (Decidable (_ ∧ _))

def Plain (text : String) : Prop := ∀ char ∈ text.toList, PlainChar char

instance (text : String) : Decidable (Plain text) := List.decidableBAll PlainChar text.toList

def latin1 (text : String) : List UInt8 :=
  text.toList.map fun char => UInt8.ofNat char.toNat

def upToNul (bytes : List UInt8) : List UInt8 := bytes.takeWhile (· ≠ 0)

def IsUtf8 (bytes : List UInt8) : Prop := bytes.toByteArray.IsValidUTF8

instance (bytes : List UInt8) : Decidable (IsUtf8 bytes) :=
  inferInstanceAs (Decidable (ByteArray.IsValidUTF8 _))

/-! ## Plain texts -/

namespace Plain

variable {first second : String}

theorem empty : Plain "" := fun _ member => absurd member List.not_mem_nil

theorem append (left : Plain first) (right : Plain second) : Plain (first ++ second) := by
  intro char member
  rw [String.toList_append] at member
  exact (List.mem_append.mp member).elim (left char) (right char)

theorem ofList {chars : List Char} (each : ∀ char ∈ chars, PlainChar char) :
    Plain (String.ofList chars) := by
  intro char member
  rw [String.toList_ofList] at member
  exact each char member

end Plain

theorem PlainChar.of_isDigit {char : Char} (digit : char.isDigit = true) : PlainChar char := by
  obtain ⟨low, high⟩ := Char.isDigit_iff_toNat.mp digit
  exact ⟨Nat.lt_of_lt_of_le (by decide) low, Nat.lt_of_le_of_lt high (by decide)⟩

theorem Nat.plain_repr (value : Nat) : Plain (toString value) := by
  intro char member
  exact .of_isDigit (Nat.isDigit_of_mem_toDigits (by decide) (by decide)
    ((Nat.toList_repr).symm ▸ member))

theorem Int.plain_repr (value : Int) : Plain (toString value) := by
  cases value with
  | ofNat value => exact Nat.plain_repr value
  | negSucc value => exact Plain.append (by decide) (Nat.plain_repr (value + 1))

/-! ## Plain bytes -/

theorem upToNul_eq_self_iff {bytes : List UInt8} : upToNul bytes = bytes ↔ 0 ∉ bytes := by
  rw [upToNul, List.takeWhile_eq_self_iff]
  constructor
  · intro each nul
    exact absurd (each 0 nul) (by decide)
  · exact fun free byte member => decide_eq_true fun nul => free (nul ▸ member)

theorem zero_notMem_of_plain {bytes : List UInt8} (plain : ∀ byte ∈ bytes, PlainByte byte) :
    0 ∉ bytes := fun nul => Nat.lt_irrefl 0 (plain 0 nul).1

theorem toNat_charOfByte (byte : UInt8) : (Char.ofNat byte.toNat).toNat = byte.toNat := by
  have valid : byte.toNat.isValidChar := .inl (Nat.lt_trans byte.toNat_lt (by decide))
  rw [Char.ofNat, dif_pos valid]
  exact UInt32.toNat_ofNatLT ..

theorem utf8EncodeChar_of_plain {byte : UInt8} (plain : PlainByte byte) :
    String.utf8EncodeChar (Char.ofNat byte.toNat) = [byte] := by
  have small : byte.toNat ≤ 0x7f := Nat.le_of_lt_succ plain.2
  have value : (Char.ofNat byte.toNat).val.toNat = byte.toNat := toNat_charOfByte byte
  unfold String.utf8EncodeChar
  rw [value, if_pos small, UInt8.ofNat_toNat]

theorem isUtf8_of_plain {bytes : List UInt8} (plain : ∀ byte ∈ bytes, PlainByte byte) :
    IsUtf8 bytes := by
  refine .intro (bytes.map fun byte => Char.ofNat byte.toNat) (congrArg List.toByteArray ?_)
  rw [List.flatMap_map]
  induction bytes with
  | nil => rfl
  | cons byte bytes induction =>
      rw [List.flatMap_cons, utf8EncodeChar_of_plain (plain byte List.mem_cons_self),
        ← induction fun other member => plain other (List.mem_cons_of_mem _ member)]
      rfl

theorem latin1_ofBytes (bytes : List UInt8) :
    latin1 (String.ofList (bytes.map fun byte => Char.ofNat byte.toNat)) = bytes := by
  rw [latin1, String.toList_ofList, List.map_map]
  refine (List.map_congr_left fun byte _ => ?_).trans (List.map_id bytes)
  rw [Function.comp_apply, toNat_charOfByte, UInt8.ofNat_toNat]
  rfl

theorem plain_ofBytes_iff {bytes : List UInt8} :
    Plain (String.ofList (bytes.map fun byte => Char.ofNat byte.toNat)) ↔
      ∀ byte ∈ bytes, PlainByte byte := by
  simp only [Plain, String.toList_ofList, List.forall_mem_map, PlainChar, PlainByte,
    toNat_charOfByte]

theorem latin1_plain {text : String} (plain : Plain text) :
    ∀ byte ∈ latin1 text, PlainByte byte := by
  intro byte member
  obtain ⟨char, inside, rfl⟩ := List.mem_map.mp member
  obtain ⟨positive, ascii⟩ := plain char inside
  have value : (UInt8.ofNat char.toNat).toNat = char.toNat :=
    UInt8.toNat_ofNat_of_lt' (Nat.lt_trans ascii (by decide))
  exact ⟨by rwa [value], by rwa [value]⟩

end Nanocap
