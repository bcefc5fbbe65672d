import Nanocap.Blake2.Memory

/-! # Vector registers

The intrinsics of the optimized sources, and what they do to the two words of a register. -/

namespace Nanocap.Blake2

/-- `__m128i` -/
abbrev M128i := BitVec 128

/-! ## Elements -/

def element (width : Nat) (register : M128i) (index : Nat) : BitVec width :=
  register.extractLsb' (width * index) width

def assemble {width : Nat} (elements : Nat → BitVec width) : Nat → M128i
  | 0 => 0
  | count + 1 => assemble elements count ||| (elements count).setWidth 128 <<< (width * count)

theorem getLsbD_element {width : Nat} (register : M128i) (index bit : Nat) :
    (element width register index).getLsbD bit =
      (decide (bit < width) && register.getLsbD (width * index + bit)) := by
  rw [element, BitVec.getLsbD_extractLsb']

theorem getLsbD_assemble {width : Nat} (positive : 0 < width) (elements : Nat → BitVec width)
    (count : Nat) {bit : Nat} (inside : bit < 128) :
    (assemble elements count).getLsbD bit =
      (decide (bit < width * count) && (elements (bit / width)).getLsbD (bit % width)) := by
  induction count with
  | zero => simp [assemble]
  | succ count induction =>
      rw [assemble, BitVec.getLsbD_or, induction, BitVec.getLsbD_shiftLeft,
        BitVec.getLsbD_setWidth, decide_eq_true inside, Bool.true_and, Nat.mul_succ]
      rcases Nat.lt_or_ge bit (width * count) with below | above
      · rw [decide_eq_true below, decide_eq_true (Nat.lt_add_right width below)]
        simp
      rw [decide_eq_false (Nat.not_lt.mpr above)]
      rcases Nat.lt_or_ge bit (width * count + width) with within | beyond
      · have place : bit / width = count := by
          rw [Nat.div_eq_iff positive]
          constructor <;> rw [Nat.mul_comm] <;> omega
        have rest : bit % width = bit - width * count := by
          rw [← place, Nat.mod_eq_sub_mul_div]
        rw [decide_eq_true within, place, rest,
          decide_eq_true (by omega : bit - width * count < 128)]
        simp
      · rw [decide_eq_false (Nat.not_lt.mpr beyond),
          BitVec.getLsbD_of_ge _ _ (by omega : width ≤ bit - width * count)]
        simp

/-! ## Intrinsics -/

def mmSetEpi64x (e1 e0 : Word) : M128i := e1 ++ e0

def mmSetrEpi8 (bytes : List Nat) : M128i :=
  assemble (fun index => BitVec.ofNat 8 (bytes.getD index 0)) 16

def wordwise (operation : Word → Word → Word) (a b : M128i) : M128i :=
  assemble (fun index => operation (element 64 a index) (element 64 b index)) 2

def mmAddEpi64 : M128i → M128i → M128i := wordwise (· + ·)

def mmXorSi128 (a b : M128i) : M128i := a ^^^ b

def mmSrliEpi64 (a : M128i) (count : Nat) : M128i := wordwise (fun word _ => word >>> count) a a

def mmSlliEpi64 (a : M128i) (count : Nat) : M128i := wordwise (fun word _ => word <<< count) a a

/-- `_MM_SHUFFLE` -/
def mmShuffle (z y x w : Nat) : Nat := z <<< 6 ||| y <<< 4 ||| x <<< 2 ||| w

def mmShuffleEpi32 (a : M128i) (control : Nat) : M128i :=
  assemble (fun index => element 32 a (control >>> (2 * index) &&& 3)) 4

def shuffled (a : M128i) (control : BitVec 8) : BitVec 8 :=
  if control.msb then 0 else element 8 a (control.toNat % 16)

def mmShuffleEpi8 (a b : M128i) : M128i :=
  assemble (fun index => shuffled a (element 8 b index)) 16

def mmUnpackloEpi64 (a b : M128i) : M128i := element 64 b 0 ++ element 64 a 0

def mmUnpackhiEpi64 (a b : M128i) : M128i := element 64 b 1 ++ element 64 a 1

def mmAlignrEpi8 (a b : M128i) (count : Nat) : M128i := ((a ++ b) >>> (8 * count)).setWidth 128

def mmBlendEpi16 (a b : M128i) (control : Nat) : M128i :=
  assemble (fun index => element 16 (if control.testBit index then b else a) index) 8

/-- `_mm_roti_epi64` of XOP, with a negative count. -/
def mmRotiEpi64 (a : M128i) (count : Nat) : M128i :=
  wordwise (fun word _ => word.rotateRight count) a a

def loadu (src : List UInt8) : M128i := .ofNat 128 (littleEndianValue (src.take 16))

/-! ## The two words of a register -/

theorem getLsbD_set (e1 e0 : Word) (bit : Nat) :
    (mmSetEpi64x e1 e0).getLsbD bit =
      if bit < 64 then e0.getLsbD bit else e1.getLsbD (bit - 64) := by
  rw [mmSetEpi64x, BitVec.getLsbD_append]

@[simp] theorem element_set_low (e1 e0 : Word) : element 64 (mmSetEpi64x e1 e0) 0 = e0 := by
  apply BitVec.eq_of_getLsbD_eq
  intro bit bound
  rw [getLsbD_element, getLsbD_set, decide_eq_true bound, if_pos (by omega), Nat.mul_zero,
    Nat.zero_add, Bool.true_and]

@[simp] theorem element_set_high (e1 e0 : Word) : element 64 (mmSetEpi64x e1 e0) 1 = e1 := by
  apply BitVec.eq_of_getLsbD_eq
  intro bit bound
  rw [getLsbD_element, getLsbD_set, decide_eq_true bound, if_neg (by omega), Nat.mul_one,
    Nat.add_sub_cancel_left, Bool.true_and]

private theorem register_ext {left right : M128i} (low : element 64 left 0 = element 64 right 0)
    (high : element 64 left 1 = element 64 right 1) : left = right := by
  apply BitVec.eq_of_getLsbD_eq
  intro bit bound
  rcases Nat.lt_or_ge bit 64 with inside | beyond
  · have same : (element 64 left 0).getLsbD bit = (element 64 right 0).getLsbD bit := by rw [low]
    rwa [getLsbD_element, getLsbD_element, decide_eq_true inside, Nat.mul_zero, Nat.zero_add,
      Bool.true_and, Bool.true_and] at same
  · have same : (element 64 left 1).getLsbD (bit - 64) =
        (element 64 right 1).getLsbD (bit - 64) := by rw [high]
    rwa [getLsbD_element, getLsbD_element, decide_eq_true (by omega), Nat.mul_one,
      Nat.add_sub_cancel' beyond, Bool.true_and, Bool.true_and] at same

private theorem assemble_words (elements : Nat → Word) :
    assemble elements 2 = mmSetEpi64x (elements 1) (elements 0) := by
  apply BitVec.eq_of_getLsbD_eq
  intro bit bound
  rw [getLsbD_assemble (by decide) _ _ bound, getLsbD_set, decide_eq_true bound, Bool.true_and]
  split
  · rw [Nat.div_eq_of_lt ‹_›, Nat.mod_eq_of_lt ‹_›]
  · rw [show bit / 64 = 1 by omega, show bit % 64 = bit - 64 by omega]

theorem wordwise_set (operation : Word → Word → Word) (a1 a0 b1 b0 : Word) :
    wordwise operation (mmSetEpi64x a1 a0) (mmSetEpi64x b1 b0) =
      mmSetEpi64x (operation a1 b1) (operation a0 b0) := by
  rw [wordwise, assemble_words, element_set_low, element_set_low, element_set_high,
    element_set_high]

@[simp] theorem mmAddEpi64_set (a1 a0 b1 b0 : Word) :
    mmAddEpi64 (mmSetEpi64x a1 a0) (mmSetEpi64x b1 b0) = mmSetEpi64x (a1 + b1) (a0 + b0) :=
  wordwise_set _ _ _ _ _

@[simp] theorem mmXorSi128_set (a1 a0 b1 b0 : Word) :
    mmXorSi128 (mmSetEpi64x a1 a0) (mmSetEpi64x b1 b0) = mmSetEpi64x (a1 ^^^ b1) (a0 ^^^ b0) := by
  apply BitVec.eq_of_getLsbD_eq
  intro bit bound
  rw [mmXorSi128, BitVec.getLsbD_xor, getLsbD_set, getLsbD_set, getLsbD_set]
  split
  · rw [BitVec.getLsbD_xor]
  · rw [BitVec.getLsbD_xor]

@[simp] theorem mmUnpackloEpi64_set (a1 a0 b1 b0 : Word) :
    mmUnpackloEpi64 (mmSetEpi64x a1 a0) (mmSetEpi64x b1 b0) = mmSetEpi64x b0 a0 := by
  rw [mmUnpackloEpi64, element_set_low, element_set_low]
  rfl

@[simp] theorem mmUnpackhiEpi64_set (a1 a0 b1 b0 : Word) :
    mmUnpackhiEpi64 (mmSetEpi64x a1 a0) (mmSetEpi64x b1 b0) = mmSetEpi64x b1 a1 := by
  rw [mmUnpackhiEpi64, element_set_high, element_set_high]
  rfl

@[simp] theorem mmAlignrEpi8_set (a1 a0 b1 b0 : Word) :
    mmAlignrEpi8 (mmSetEpi64x a1 a0) (mmSetEpi64x b1 b0) 8 = mmSetEpi64x a0 b1 := by
  apply BitVec.eq_of_getLsbD_eq
  intro bit bound
  rw [mmAlignrEpi8, BitVec.getLsbD_setWidth, decide_eq_true bound, BitVec.getLsbD_ushiftRight,
    BitVec.getLsbD_append, getLsbD_set, getLsbD_set, getLsbD_set]
  rcases Nat.lt_or_ge bit 64 with inside | beyond
  · simp [inside, show 64 + bit < 128 by omega]
  · simp [show ¬bit < 64 by omega, show ¬64 + bit < 128 by omega,
      show 64 + bit - 128 = bit - 64 by omega, show bit - 64 < 64 by omega]

@[simp] theorem mmBlendEpi16_set (a1 a0 b1 b0 : Word) :
    mmBlendEpi16 (mmSetEpi64x a1 a0) (mmSetEpi64x b1 b0) 0xF0 = mmSetEpi64x b1 a0 := by
  have control : ∀ index < 8, Nat.testBit 0xF0 index = decide (4 ≤ index) := by decide
  apply BitVec.eq_of_getLsbD_eq
  intro bit bound
  rw [mmBlendEpi16, getLsbD_assemble (by decide) _ _ bound, getLsbD_element,
    control _ (by omega), decide_eq_true bound, decide_eq_true (Nat.mod_lt _ (by decide)),
    Nat.div_add_mod, getLsbD_set]
  rcases Nat.lt_or_ge bit 64 with inside | beyond
  · rw [decide_eq_false (by omega : ¬4 ≤ bit / 16)]
    simp [getLsbD_set, inside]
  · rw [decide_eq_true (by omega : 4 ≤ bit / 16)]
    simp [getLsbD_set, show ¬bit < 64 by omega]

@[simp] theorem mmShuffleEpi32_words (a1 a0 : Word) :
    mmShuffleEpi32 (mmSetEpi64x a1 a0) (mmShuffle 1 0 3 2) = mmSetEpi64x a0 a1 := by
  have control : ∀ index < 4,
      mmShuffle 1 0 3 2 >>> (2 * index) &&& 3 = (index + 2) % 4 := by decide
  apply BitVec.eq_of_getLsbD_eq
  intro bit bound
  rw [mmShuffleEpi32, getLsbD_assemble (by decide) _ _ bound, getLsbD_element,
    control _ (by omega), decide_eq_true bound, decide_eq_true (Nat.mod_lt _ (by decide)),
    getLsbD_set, getLsbD_set]
  rcases Nat.lt_or_ge bit 64 with inside | beyond
  · simp [inside, show ¬32 * ((bit / 32 + 2) % 4) + bit % 32 < 64 by omega,
      show 32 * ((bit / 32 + 2) % 4) + bit % 32 - 64 = bit by omega]
  · simp [show ¬bit < 64 by omega, show bit - 64 < 64 by omega,
      show 32 * ((bit / 32 + 2) % 4) + bit % 32 = bit - 64 by omega]

/-! ## Rotations -/

theorem getLsbD_rotr64 (word : Word) {count bit : Nat} (positive : 0 < count) (small : count < 64)
    (inside : bit < 64) : (rotr64 word count).getLsbD bit = word.getLsbD ((bit + count) % 64) := by
  rw [rotr64, BitVec.getLsbD_or, BitVec.getLsbD_ushiftRight, BitVec.getLsbD_shiftLeft,
    decide_eq_true inside, Bool.true_and]
  rcases Nat.lt_or_ge (bit + count) 64 with stays | wraps
  · rw [decide_eq_true (by omega : bit < 64 - count), Nat.mod_eq_of_lt stays, Nat.add_comm]
    simp
  · rw [decide_eq_false (by omega : ¬bit < 64 - count),
      BitVec.getLsbD_of_ge _ _ (by omega : 64 ≤ count + bit),
      show (bit + count) % 64 = bit - (64 - count) by omega]
    simp

theorem rotated {register : M128i} {a1 a0 : Word} {count : Nat} (positive : 0 < count)
    (small : count < 64)
    (bits : ∀ half bit, half < 2 → bit < 64 → register.getLsbD (64 * half + bit) =
      (mmSetEpi64x a1 a0).getLsbD (64 * half + (bit + count) % 64)) :
    register = mmSetEpi64x (rotr64 a1 count) (rotr64 a0 count) := by
  apply BitVec.eq_of_getLsbD_eq
  intro bit bound
  have source := bits (bit / 64) (bit % 64) (by omega) (Nat.mod_lt _ (by decide))
  rw [Nat.div_add_mod, getLsbD_set] at source
  rw [source, getLsbD_set]
  rcases Nat.lt_or_ge bit 64 with inside | beyond
  · rw [if_pos inside, if_pos (by omega), getLsbD_rotr64 _ positive small inside]
    congr 1
    omega
  · rw [if_neg (by omega), if_neg (by omega), getLsbD_rotr64 _ positive small (by omega)]
    congr 1
    omega

@[simp] theorem mmShuffleEpi32_rotates (a1 a0 : Word) :
    mmShuffleEpi32 (mmSetEpi64x a1 a0) (mmShuffle 2 3 0 1) =
      mmSetEpi64x (rotr64 a1 32) (rotr64 a0 32) := by
  have control : ∀ index < 4,
      mmShuffle 2 3 0 1 >>> (2 * index) &&& 3 = 2 * (index / 2) + (index + 1) % 2 := by decide
  refine rotated (by decide) (by decide) fun half bit halfBound inside => ?_
  rw [mmShuffleEpi32, getLsbD_assemble (by decide) _ _ (by omega), getLsbD_element,
    control _ (by omega), decide_eq_true (by omega), decide_eq_true (Nat.mod_lt _ (by decide)),
    Bool.true_and, Bool.true_and]
  congr 1
  omega

private theorem shuffled_ofNat (a : M128i) {index : Nat} (inside : index < 16) :
    shuffled a (.ofNat 8 index) = element 8 a index := by
  have positive : (BitVec.ofNat 8 index).msb = false := by
    rw [BitVec.msb_eq_false_iff_two_mul_lt, BitVec.toNat_ofNat]
    omega
  rw [shuffled, positive, if_neg Bool.false_ne_true, BitVec.toNat_ofNat]
  congr 1
  omega

theorem mmShuffleEpi8_rotates {control : M128i} {places : Nat} (positive : 0 < places)
    (small : places < 8)
    (places_eq : ∀ index < 16,
      element 8 control index = BitVec.ofNat 8 (8 * (index / 8) + (index + places) % 8))
    (a1 a0 : Word) :
    mmShuffleEpi8 (mmSetEpi64x a1 a0) control =
      mmSetEpi64x (rotr64 a1 (8 * places)) (rotr64 a0 (8 * places)) := by
  refine rotated (by omega) (by omega) fun half bit halfBound inside => ?_
  have bound : 8 * ((64 * half + bit) / 8 / 8) + ((64 * half + bit) / 8 + places) % 8 < 16 := by
    omega
  rw [mmShuffleEpi8, getLsbD_assemble (by decide) _ _ (by omega), places_eq _ (by omega),
    shuffled_ofNat _ bound, decide_eq_true (by omega), Bool.true_and, getLsbD_element,
    decide_eq_true (Nat.mod_lt _ (by decide)), Bool.true_and]
  congr 1
  omega

/-- `r16` and `r24` of `blake2b_compress` -/
def r16 : M128i := mmSetrEpi8 [2, 3, 4, 5, 6, 7, 0, 1, 10, 11, 12, 13, 14, 15, 8, 9]

def r24 : M128i := mmSetrEpi8 [3, 4, 5, 6, 7, 0, 1, 2, 11, 12, 13, 14, 15, 8, 9, 10]

@[simp] theorem mmShuffleEpi8_r16 (a1 a0 : Word) :
    mmShuffleEpi8 (mmSetEpi64x a1 a0) r16 = mmSetEpi64x (rotr64 a1 16) (rotr64 a0 16) :=
  @mmShuffleEpi8_rotates r16 2 (by decide) (by decide) (by decide) a1 a0

@[simp] theorem mmShuffleEpi8_r24 (a1 a0 : Word) :
    mmShuffleEpi8 (mmSetEpi64x a1 a0) r24 = mmSetEpi64x (rotr64 a1 24) (rotr64 a0 24) :=
  @mmShuffleEpi8_rotates r24 3 (by decide) (by decide) (by decide) a1 a0

theorem xor_shifts (word : Word) {count : Nat} (positive : 0 < count) (small : count < 64) :
    word >>> count ^^^ word <<< (64 - count) = rotr64 word count := by
  apply BitVec.eq_of_getLsbD_eq
  intro bit bound
  rw [getLsbD_rotr64 word positive small bound, BitVec.getLsbD_xor, BitVec.getLsbD_ushiftRight,
    BitVec.getLsbD_shiftLeft, decide_eq_true bound, Bool.true_and]
  rcases Nat.lt_or_ge (bit + count) 64 with stays | wraps
  · rw [decide_eq_true (by omega : bit < 64 - count), Nat.mod_eq_of_lt stays, Nat.add_comm]
    simp
  · rw [decide_eq_false (by omega : ¬bit < 64 - count),
      BitVec.getLsbD_of_ge _ _ (by omega : 64 ≤ count + bit),
      show (bit + count) % 64 = bit - (64 - count) by omega]
    simp

@[simp] theorem mmSrliEpi64_set (a1 a0 : Word) (count : Nat) :
    mmSrliEpi64 (mmSetEpi64x a1 a0) count = mmSetEpi64x (a1 >>> count) (a0 >>> count) :=
  wordwise_set _ _ _ _ _

@[simp] theorem mmSlliEpi64_set (a1 a0 : Word) (count : Nat) :
    mmSlliEpi64 (mmSetEpi64x a1 a0) count = mmSetEpi64x (a1 <<< count) (a0 <<< count) :=
  wordwise_set _ _ _ _ _

theorem mmRotiEpi64_set (a1 a0 : Word) {count : Nat} (small : count < 64) :
    mmRotiEpi64 (mmSetEpi64x a1 a0) count = mmSetEpi64x (rotr64 a1 count) (rotr64 a0 count) := by
  have same (word : Word) : word.rotateRight count = rotr64 word count := by
    rw [BitVec.rotateRight_def, Nat.mod_eq_of_lt small]
    rfl
  rw [← same, ← same]
  exact wordwise_set _ _ _ _ _

/-! ## Loads -/

theorem loadu_eq (src : List UInt8) :
    loadu src = mmSetEpi64x (load64 (src.drop 8)) (load64 src) := by
  have bits (byte bit : Nat) (small : bit < 8) (inside : byte < 16) :
      (loadu src).getLsbD (8 * byte + bit) = (src.getD byte 0).toBitVec.getLsbD bit := by
    rw [loadu, BitVec.getLsbD_ofNat, testBit_littleEndianValue _ _ small,
      decide_eq_true (by omega), Bool.true_and, List.getD_eq_getElem?_getD,
      List.getElem?_take_of_lt inside, ← List.getD_eq_getElem?_getD]
  refine register_ext ?_ ?_
  · rw [element_set_low]
    refine word_ext fun byte bit small inside => ?_
    rw [getLsbD_load64 _ small inside, getLsbD_element, decide_eq_true (by omega), Nat.mul_zero,
      Nat.zero_add, Bool.true_and, bits _ _ small (by omega)]
  · rw [element_set_high]
    refine word_ext fun byte bit small inside => ?_
    rw [getLsbD_load64 _ small inside, getLsbD_element, decide_eq_true (by omega),
      Bool.true_and, show 64 * 1 + (8 * byte + bit) = 8 * (8 + byte) + bit by omega,
      bits _ _ small (by omega), List.getD_eq_getElem?_getD, List.getD_eq_getElem?_getD,
      List.getElem?_drop]

@[simp] theorem loadu_words (low high : Word) :
    loadu (store64 low ++ store64 high) = mmSetEpi64x high low := by
  have back := load64_store64 high []
  rw [List.append_nil] at back
  rw [loadu_eq, load64_store64]
  exact congrArg (mmSetEpi64x · low) back

end Nanocap.Blake2
