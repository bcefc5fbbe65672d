import Mathlib.Data.List.FinRange
import Mathlib.Data.List.Count

/-! # Base64

The standard alphabet with padding, and a decoder that skips white space and does
without the padding. -/

namespace Nanocap

namespace Base64

def alphabet : List Char :=
  ['A', 'B', 'C', 'D', 'E', 'F', 'G', 'H', 'I', 'J', 'K', 'L', 'M', 'N', 'O', 'P',
    'Q', 'R', 'S', 'T', 'U', 'V', 'W', 'X', 'Y', 'Z', 'a', 'b', 'c', 'd', 'e', 'f',
    'g', 'h', 'i', 'j', 'k', 'l', 'm', 'n', 'o', 'p', 'q', 'r', 's', 't', 'u', 'v',
    'w', 'x', 'y', 'z', '0', '1', '2', '3', '4', '5', '6', '7', '8', '9', '+', '/']

def digit (value : Fin 64) : Char := alphabet.getD value.val 'A'

def digitValue (char : Char) : Option (Fin 64) :=
  (List.finRange 64).find? fun value => digit value == char

def isWhitespace (char : Char) : Bool :=
  char == '\t' || char == '\n' || char == '\x0c' || char == '\r' || char == ' '

/-- Six bits at a time; the last group is filled with zeros. -/
def sextets : List UInt8 → List (Fin 64)
  | [] => []
  | [first] => [.ofNat 64 (first.toNat / 4), .ofNat 64 (first.toNat * 16)]
  | [first, second] =>
      [.ofNat 64 (first.toNat / 4), .ofNat 64 (first.toNat * 16 + second.toNat / 16),
        .ofNat 64 (second.toNat * 4)]
  | first :: second :: third :: rest =>
      .ofNat 64 (first.toNat / 4) :: .ofNat 64 (first.toNat * 16 + second.toNat / 16) ::
        .ofNat 64 (second.toNat * 4 + third.toNat / 64) :: .ofNat 64 third.toNat :: sextets rest

/-- Eight bits at a time; bits that are left over are dropped. -/
def octets : List (Fin 64) → List UInt8
  | [] => []
  | [_] => []
  | [first, second] => [.ofNat (first.val * 4 + second.val / 16)]
  | [first, second, third] =>
      [.ofNat (first.val * 4 + second.val / 16), .ofNat (second.val * 16 + third.val / 4)]
  | first :: second :: third :: fourth :: rest =>
      .ofNat (first.val * 4 + second.val / 16) :: .ofNat (second.val * 16 + third.val / 4) ::
        .ofNat (third.val * 64 + fourth.val) :: octets rest

def padding (length : Nat) : List Char := List.replicate ((3 - length % 3) % 3) '='

def encode (bytes : List UInt8) : List Char :=
  (sextets bytes).map digit ++ padding bytes.length

/-- One or two `=` at the end are dropped. -/
def dropPadding (text : List Char) : List Char :=
  match text.reverse with
  | '=' :: '=' :: rest => rest.reverse
  | '=' :: rest => rest.reverse
  | _ => text

def significant (text : List Char) : List Char :=
  let data := text.filter fun char => !isWhitespace char
  if data.length % 4 = 0 then dropPadding data else data

def decode (text : List Char) : Option (List UInt8) :=
  if (significant text).length % 4 = 1 then none
  else ((significant text).mapM digitValue).map octets

/-! ## Digits -/

@[simp] theorem digitValue_digit (value : Fin 64) : digitValue (digit value) = some value := by
  have all : ∀ value : Fin 64, digitValue (digit value) = some value := by decide +kernel
  exact all value

theorem digit_ne_padding (value : Fin 64) : digit value ≠ '=' := by
  have all : ∀ value : Fin 64, digit value ≠ '=' := by decide +kernel
  exact all value

theorem isWhitespace_digit (value : Fin 64) : isWhitespace (digit value) = false := by
  have all : ∀ value : Fin 64, isWhitespace (digit value) = false := by decide +kernel
  exact all value

theorem digitValue_eq_none {char : Char} (other : ∀ value, digit value ≠ char) :
    digitValue char = none :=
  List.find?_eq_none.mpr fun value _ same => other value (beq_iff_eq.mp same)

theorem digitValue_padding : digitValue '=' = none := digitValue_eq_none digit_ne_padding

theorem digitValue_of_isWhitespace {char : Char} (white : isWhitespace char = true) :
    digitValue char = none := by
  refine digitValue_eq_none fun value same => ?_
  rw [← same, isWhitespace_digit] at white
  cases white

theorem mapM_digitValue (values : List (Fin 64)) :
    (values.map digit).mapM digitValue = some values := by
  induction values with
  | nil => rfl
  | cons value values induction => simp [induction]

/-! ## Bits -/

theorem octets_sextets (bytes : List UInt8) : octets (sextets bytes) = bytes := by
  induction bytes using sextets.induct with
  | case1 => rfl
  | case2 first =>
      have bound := first.toNat_lt
      simp only [sextets, octets, Fin.ofNat, List.cons.injEq, ← UInt8.toNat_inj,
        UInt8.toNat_ofNat', and_true]
      omega
  | case3 first second =>
      have bound := first.toNat_lt
      have other := second.toNat_lt
      simp only [sextets, octets, Fin.ofNat, List.cons.injEq, ← UInt8.toNat_inj,
        UInt8.toNat_ofNat', and_true]
      omega
  | case4 first second third rest induction =>
      have bound := first.toNat_lt
      have other := second.toNat_lt
      have last := third.toNat_lt
      simp only [sextets, octets, Fin.ofNat, List.cons.injEq, ← UInt8.toNat_inj,
        UInt8.toNat_ofNat', induction, and_true]
      omega

theorem length_sextets (bytes : List UInt8) :
    (sextets bytes).length = (4 * bytes.length + 2) / 3 := by
  induction bytes using sextets.induct with
  | case1 => rfl
  | case2 | case3 => simp [sextets]
  | case4 first second third rest induction =>
      simp only [sextets, List.length_cons, induction]
      omega

theorem length_octets (values : List (Fin 64)) :
    (octets values).length = 3 * values.length / 4 := by
  induction values using octets.induct with
  | case1 => rfl
  | case2 | case3 | case4 => simp [octets]
  | case5 first second third fourth rest induction =>
      simp only [octets, List.length_cons, induction]
      omega

/-! ## Decoding -/

theorem length_encode (bytes : List UInt8) : (encode bytes).length % 4 = 0 := by
  rw [encode, List.length_append, List.length_map, length_sextets, padding, List.length_replicate]
  have whole := Nat.div_add_mod bytes.length 3
  generalize bytes.length / 3 = count at whole
  have few : bytes.length % 3 = 0 ∨ bytes.length % 3 = 1 ∨ bytes.length % 3 = 2 := by omega
  rcases few with rest | rest | rest <;> rw [rest] at whole ⊢ <;> omega

theorem dropPadding_append {digits : List Char} (unpadded : '=' ∉ digits) (length : Nat) :
    dropPadding (digits ++ padding length) = digits := by
  have last : ∀ rest, digits.reverse ≠ '=' :: rest := fun rest same =>
    unpadded (List.mem_reverse.mp (same ▸ List.mem_cons_self))
  have few : (3 - length % 3) % 3 = 0 ∨ (3 - length % 3) % 3 = 1 ∨ (3 - length % 3) % 3 = 2 := by
    omega
  unfold dropPadding padding
  rcases few with none | one | two
  · rw [none, List.replicate_zero, List.append_nil]
    split
    · rename_i same
      exact absurd same (last _)
    · rename_i same
      exact absurd same (last _)
    · rfl
  · rw [one]
    simp [List.replicate]
  · rw [two]
    simp

@[simp] theorem decode_encode (bytes : List UInt8) : decode (encode bytes) = some bytes := by
  have visible : (encode bytes).filter (fun char => !isWhitespace char) = encode bytes := by
    rw [List.filter_eq_self]
    intro char member
    rcases List.mem_append.mp member with inside | padded
    · obtain ⟨value, -, rfl⟩ := List.mem_map.mp inside
      rw [isWhitespace_digit]
      rfl
    · rw [List.eq_of_mem_replicate padded]
      rfl
  have unpadded : '=' ∉ (sextets bytes).map digit := fun member => by
    obtain ⟨value, -, same⟩ := List.mem_map.mp member
    exact digit_ne_padding value same
  have data : significant (encode bytes) = (sextets bytes).map digit := by
    rw [significant, visible, if_pos (length_encode bytes)]
    exact dropPadding_append unpadded _
  have length : ((sextets bytes).map digit).length % 4 ≠ 1 := by
    rw [List.length_map, length_sextets]
    omega
  rw [decode, data, if_neg length, mapM_digitValue, Option.map_some, octets_sextets]

/-! ## Missing digits -/

def isDigit (char : Char) : Bool := (digitValue char).isSome

theorem isDigit_digit (value : Fin 64) : isDigit (digit value) = true := by
  rw [isDigit, digitValue_digit]
  rfl

theorem isDigit_padding : isDigit '=' = false := by
  rw [isDigit, digitValue_padding]
  rfl

theorem countP_dropPadding (text : List Char) :
    (dropPadding text).countP isDigit = text.countP isDigit := by
  have forwards := List.countP_reverse (p := isDigit) (l := text)
  unfold dropPadding
  split
  · rename_i rest same
    rw [same, List.countP_cons, List.countP_cons, isDigit_padding] at forwards
    rw [List.countP_reverse, ← forwards]
    rfl
  · rename_i rest _ same
    rw [same, List.countP_cons, isDigit_padding] at forwards
    rw [List.countP_reverse, ← forwards]
    rfl
  · rfl

theorem countP_of_mapM {digits : List Char} {values : List (Fin 64)}
    (known : digits.mapM digitValue = some values) :
    values.length = digits.countP isDigit := by
  induction digits generalizing values with
  | nil =>
      cases known
      rfl
  | cons char digits induction =>
      rw [List.mapM_cons] at known
      obtain ⟨value, first, known⟩ := Option.bind_eq_some_iff.mp known
      obtain ⟨rest, later, built⟩ := Option.bind_eq_some_iff.mp known
      cases built
      rw [List.length_cons, induction later, List.countP_cons, isDigit, first]
      rfl

theorem countP_significant (text : List Char) :
    (significant text).countP isDigit = text.countP isDigit := by
  have visible : (text.filter fun char => !isWhitespace char).countP isDigit =
      text.countP isDigit := by
    rw [List.countP_filter]
    refine List.countP_congr fun char _ => ?_
    cases white : isWhitespace char with
    | true => simp [isDigit, digitValue_of_isWhitespace white]
    | false => simp
  rw [significant, ← visible]
  split
  · exact countP_dropPadding _
  · rfl

theorem length_of_decode {text : List Char} {bytes : List UInt8}
    (decodes : decode text = some bytes) : bytes.length = 3 * text.countP isDigit / 4 := by
  unfold decode at decodes
  split at decodes
  · cases decodes
  · obtain ⟨values, known, rfl⟩ := Option.map_eq_some_iff.mp decodes
    rw [length_octets, countP_of_mapM known, countP_significant]

theorem decode_filter {bytes : List UInt8} {keep : Char → Bool}
    (decodes : decode ((encode bytes).filter keep) = some bytes) :
    ∀ value ∈ sextets bytes, keep (digit value) = true := by
  have count := length_of_decode decodes
  have kept : ((encode bytes).filter keep).countP isDigit =
      (sextets bytes).countP fun value => keep (digit value) := by
    have padded : ∀ length,
        (padding length).countP (fun char => isDigit char && keep char) = 0 := by
      intro length
      rw [List.countP_eq_zero]
      intro char member
      rw [List.eq_of_mem_replicate member]
      simp [isDigit_padding]
    rw [List.countP_filter, encode, List.countP_append, padded, List.countP_map]
    exact List.countP_congr fun value _ => by simp [isDigit_digit]
  rw [kept] at count
  rw [← List.countP_eq_length]
  have most := List.countP_le_length (p := fun value => keep (digit value)) (l := sextets bytes)
  have length := length_sextets bytes
  omega

end Base64

end Nanocap
