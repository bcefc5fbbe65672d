import Nanocap.Blake2.Blake2b

/-! # Streaming

The calls that compute the digest of a message piece by piece. -/

namespace Nanocap.Blake2

open BlockBuffer

private theorem memcpy_zero {key : List UInt8} (fits : key.length ≤ blockBytes) :
    (memcpy (.zero 128) 0 key).val = padded key := by
  rw [memcpy_val _ (by rw [Nat.zero_add]; exact fits), List.take_zero, List.nil_append,
    Nat.zero_add, Bytes.zero, List.drop_replicate]
  rfl

/-! ## States -/

/-- A state that has absorbed the blocks of a chain. -/
structure Absorbed (outlen : Nat) (S : State) (chain : Chain) : Prop where
  h : S.h = chain.h
  t0 : S.t0 = .ofNat 64 chain.count
  t1 : S.t1 = .ofNat 64 (chain.count / 2 ^ 64)
  f0 : S.f0 = 0
  f1 : S.f1 = 0
  lastNode : S.lastNode = false
  outlen : S.outlen = outlen

/-- A state that also keeps bytes back. -/
structure Buffers (outlen : Nat) (S : State) (chain : Chain) (kept : List UInt8) : Prop where
  absorbed : Absorbed outlen S chain
  buflen : S.buflen = kept.length
  fits : kept.length ≤ blockBytes
  buf : S.buf.val.take kept.length = kept

/-- The two words of the counter count bytes modulo `2 ^ 128`. -/
private theorem counter_carry (count : Nat) {inc : Nat} (small : inc < 2 ^ 64) :
    (BitVec.ofNat 64 (count / 2 ^ 64) +
        (if (BitVec.ofNat 64 count + BitVec.ofNat 64 inc : Word) < .ofNat 64 inc then 1 else 0) :
          Word) = .ofNat 64 ((count + inc) / 2 ^ 64) := by
  have wraps : ((BitVec.ofNat 64 count + BitVec.ofNat 64 inc : Word) < .ofNat 64 inc) ↔
      2 ^ 64 ≤ count % 2 ^ 64 + inc := by
    rw [BitVec.lt_def, BitVec.toNat_add, BitVec.toNat_ofNat, BitVec.toNat_ofNat,
      Nat.mod_eq_of_lt small]
    omega
  apply BitVec.eq_of_toNat_eq
  by_cases carry : 2 ^ 64 ≤ count % 2 ^ 64 + inc
  · rw [if_pos (wraps.mpr carry), BitVec.toNat_add, BitVec.toNat_ofNat, BitVec.toNat_ofNat,
      show (1 : Word).toNat = 1 from rfl]
    omega
  · rw [if_neg fun less => carry (wraps.mp less), BitVec.toNat_add, BitVec.toNat_ofNat,
      BitVec.toNat_ofNat, show (0 : Word).toNat = 0 from rfl]
    omega

theorem Absorbed.counted {outlen : Nat} {S : State} {chain : Chain}
    (absorbed : Absorbed outlen S chain) {inc : Nat} (small : inc < 2 ^ 64) :
    Absorbed outlen (S.incrementCounter (.ofNat 64 inc)) ⟨chain.h, chain.count + inc⟩ where
  h := absorbed.h
  t0 := by rw [State.incrementCounter, absorbed.t0, BitVec.ofNat_add]
  t1 := by
    rw [State.incrementCounter, absorbed.t0, absorbed.t1]
    exact counter_carry chain.count small
  f0 := absorbed.f0
  f1 := absorbed.f1
  lastNode := absorbed.lastNode
  outlen := absorbed.outlen

private theorem Absorbed.mixed_eq {outlen : Nat} {S : State} {chain : Chain}
    (absorbed : Absorbed outlen S chain) (block : List UInt8) :
    mixed S.h S.t0 S.t1 S.f0 S.f1 block = compression chain.h block chain.count false := by
  rw [absorbed.h, absorbed.t0, absorbed.t1, absorbed.f0, absorbed.f1]
  rfl

theorem absorbed_compress {outlen : Nat} {S : State} {chain : Chain}
    (absorbed : Absorbed outlen S chain) (block : List UInt8) :
    Absorbed outlen (compress (S.incrementCounter 128) block) (chain.absorb block) :=
  have counted := @Absorbed.counted outlen S chain absorbed 128 (by decide)
  { counted with h := counted.mixed_eq block }

private theorem absorbed_compressWhile {outlen : Nat} {S : State} {chain : Chain}
    (absorbed : Absorbed outlen S chain) (input : List UInt8) :
    Absorbed outlen (compressWhile reference S input).1
        (absorbAll blockBytes Chain.absorb chain input).1 ∧
      (compressWhile reference S input).2 = (absorbAll blockBytes Chain.absorb chain input).2 ∧
      (compressWhile reference S input).1.buflen = S.buflen := by
  induction input using @input_induction _ blockBytes (by decide)
    generalizing S chain with
  | short input fits =>
      rw [absorbAll_short (by decide) chain fits, compressWhile, if_neg (Nat.not_lt.mpr fits)]
      exact ⟨absorbed, rfl, rfl⟩
  | long input long induction =>
      rw [absorbAll_long (by decide) chain long, compressWhile, if_pos long]
      exact induction (absorbed_compress absorbed _)

theorem Buffers.keep {outlen : Nat} {S : State} {chain : Chain} {kept : List UInt8}
    (buffers : Buffers outlen S chain kept) {input : List UInt8}
    (fits : kept.length + input.length ≤ blockBytes) :
    Buffers outlen
      { S with buf := memcpy S.buf S.buflen input, buflen := S.buflen + input.length }
      chain (kept ++ input) where
  absorbed := { buffers.absorbed with }
  buflen := by rw [buffers.buflen, List.length_append]
  fits := by rwa [List.length_append]
  buf := by
    rw [buffers.buflen, List.length_append, take_memcpy S.buf fits, buffers.buf]

theorem Buffers.fill {outlen : Nat} {S : State} {chain : Chain} {kept : List UInt8}
    (buffers : Buffers outlen S chain kept) {input : List UInt8}
    (fills : blockBytes - kept.length < input.length) :
    (memcpy S.buf kept.length (input.take (blockBytes - kept.length))).val =
      (kept ++ input).take blockBytes := by
  have room : kept.length + (blockBytes - kept.length) = blockBytes :=
    Nat.add_sub_cancel' buffers.fits
  have taken : (input.take (blockBytes - kept.length)).length = blockBytes - kept.length :=
    List.length_take_of_le (Nat.le_of_lt fills)
  have whole := @take_memcpy _ S.buf kept.length (input.take (blockBytes - kept.length))
    (by rw [taken, room]; exact le_rfl)
  rw [taken, room, List.take_of_length_le (by rw [Bytes.length_val]; exact le_rfl),
    buffers.buf] at whole
  rw [whole, List.take_append, List.take_of_length_le buffers.fits]

private theorem buffers_compressWhile {outlen : Nat} {S : State} {chain : Chain}
    (absorbed : Absorbed outlen S chain) (empty : S.buflen = 0) (input : List UInt8) :
    Buffers outlen
      { (compressWhile reference S input).1 with
        buf := memcpy (compressWhile reference S input).1.buf
          (compressWhile reference S input).1.buflen (compressWhile reference S input).2
        buflen := (compressWhile reference S input).1.buflen +
          (compressWhile reference S input).2.length }
      (absorbAll blockBytes Chain.absorb chain input).1
      (absorbAll blockBytes Chain.absorb chain input).2 := by
  obtain ⟨after, left, same⟩ := absorbed_compressWhile absorbed input
  rw [left]
  have emptied : Buffers outlen (compressWhile reference S input).1
      (absorbAll blockBytes Chain.absorb chain input).1 [] :=
    ⟨after, same.trans empty, Nat.zero_le _, rfl⟩
  exact emptied.keep (by
    rw [List.length_nil, Nat.zero_add]
    exact length_kept_le (by decide) chain input)

/-! ## Calls -/

/-- `blake2b_update` absorbs its input after the bytes kept back. -/
theorem buffers_update {outlen : Nat} {S : State} {chain : Chain} {kept : List UInt8}
    (buffers : Buffers outlen S chain kept) (input : List UInt8) :
    Buffers outlen (update reference S input)
      (absorbAll blockBytes Chain.absorb chain (kept ++ input)).1
      (absorbAll blockBytes Chain.absorb chain (kept ++ input)).2 := by
  have size := buffers.fits
  unfold update
  by_cases empty : 0 < input.length
  case neg =>
    rw [if_neg empty, List.eq_nil_of_length_eq_zero (Nat.eq_zero_of_not_pos empty),
      List.append_nil, absorbAll_short (by decide) chain size]
    exact buffers
  rw [if_pos empty]
  by_cases fills : blockBytes - kept.length < input.length
  · have long : blockBytes < (kept ++ input).length := by
      rw [List.length_append]
      omega
    have rest : (kept ++ input).drop blockBytes = input.drop (blockBytes - kept.length) := by
      rw [List.drop_append, List.drop_eq_nil_of_le size, List.nil_append]
    -- The buffer is compressed first, and then blocks straight from the input.
    let emptied : State := { S with
      buflen := 0, buf := memcpy S.buf kept.length (input.take (blockBytes - kept.length)) }
    have before : Absorbed outlen emptied chain := { buffers.absorbed with }
    have first := absorbed_compress before ((kept ++ input).take blockBytes)
    rw [absorbAll_long (by decide) chain long, rest]
    simp only [buffers.buflen, if_pos fills, buffers.fill fills]
    exact buffers_compressWhile first rfl _
  · have fits : kept.length + input.length ≤ blockBytes := by omega
    rw [absorbAll_short (by decide) chain (by rwa [List.length_append])]
    simp only [buffers.buflen, if_neg fills]
    have stays := buffers.keep fits
    rwa [buffers.buflen] at stays

def State.finished (S : State) : State :=
  let S := (S.incrementCounter (.ofNat 64 S.buflen)).setLastblock
  let S := { S with buf := clearFrom S.buf S.buflen }
  compress S S.buf.val

theorem Buffers.finished {outlen : Nat} {S : State} {chain : Chain} {kept : List UInt8}
    (buffers : Buffers outlen S chain kept) : S.finished.h = chain.finish kept := by
  have counted := @Absorbed.counted outlen S chain buffers.absorbed kept.length
    (Nat.lt_of_le_of_lt buffers.fits (by decide))
  have block : (clearFrom S.buf kept.length).val = padded kept := by
    rw [clearFrom_val S.buf buffers.fits, buffers.buf]
    rfl
  have words : S.finished.h =
      mixed S.h (S.t0 + .ofNat 64 S.buflen) (S.incrementCounter (.ofNat 64 S.buflen)).t1
        (.allOnes 64) S.f1 (clearFrom S.buf S.buflen).val := by
    unfold State.finished State.setLastblock
    rw [if_neg (by rw [State.incrementCounter, buffers.absorbed.lastNode]; decide)]
    rfl
  have low : S.t0 + .ofNat 64 kept.length = _ := counted.t0
  rw [words, buffers.buflen, block, low, counted.t1, buffers.absorbed.h, buffers.absorbed.f1]
  rfl

/-- `blake2b_final` answers the hash words after the padded rest. -/
private theorem buffers_final {outlen : Nat} {S : State} {chain : Chain} {kept : List UInt8}
    (buffers : Buffers outlen S chain kept) {room : Nat} (fits : outlen ≤ room) :
    final reference S room =
      some (((chain.finish kept).toList.flatMap store64).take outlen, S.finished) := by
  have waits : ¬S.isLastblock := by
    rw [State.isLastblock, buffers.absorbed.f0]
    decide
  have size : S.finished.outlen = outlen := by
    rw [← buffers.absorbed.outlen]
    unfold State.finished State.setLastblock
    split <;> rfl
  rw [← buffers.finished, ← size, final, if_neg waits, buffers.absorbed.outlen,
    if_neg (Nat.not_lt.mpr fits)]
  rfl

private theorem final_finished (S : State) (room : Nat) :
    final reference S.finished room = none := by
  have marked : S.finished.isLastblock := by
    unfold State.finished State.setLastblock
    split <;> rfl
  rw [final, if_pos marked, ite_self]

/-! ## Start -/

private theorem bytes_sequential (outlen keylen : Nat) :
    (sequentialParam outlen keylen).bytes =
      [.ofNat outlen, .ofNat keylen, 1, 1, 0, 0, 0, 0] ++ .replicate 56 0 := by
  have zero : store32 0 = .replicate 4 0 := by decide
  unfold Param.bytes sequentialParam
  rw [zero]
  rfl

private theorem load64_sequential {outlen keylen : Nat} (outBound : outlen ≤ outBytes)
    (keyBound : keylen ≤ keyBytes) (index : Fin 8) :
    load64 ((sequentialParam outlen keylen).bytes.drop (8 * index)) =
      if index = 0 then .ofNat 64 (0x01010000 + 256 * keylen + outlen) else 0 := by
  rw [bytes_sequential]
  refine Fin.cases ?_ (fun index => ?_) index
  · have low : (UInt8.ofNat outlen).toNat = outlen :=
      UInt8.toNat_ofNat_of_lt' (Nat.lt_of_le_of_lt outBound (by decide))
    have high : (UInt8.ofNat keylen).toNat = keylen :=
      UInt8.toNat_ofNat_of_lt' (Nat.lt_of_le_of_lt keyBound (by decide))
    have value := load64_value ⟨[.ofNat outlen, .ofNat keylen, 1, 1, 0, 0, 0, 0], rfl⟩
      (.replicate 56 0)
    have sum : littleEndianValue [.ofNat outlen, .ofNat keylen, 1, 1, 0, 0, 0, 0] =
        0x01010000 + 256 * keylen + outlen := by
      simp only [littleEndianValue, low, high, UInt8.toNat_one, UInt8.toNat_zero]
      omega
    rw [sum] at value
    exact value
  · have zero : ∀ index : Fin 7, load64 (.drop (8 * index) (.replicate 56 0)) = 0 := by decide
    have shift : 8 * (index.succ : Fin 8).val = 8 + 8 * index.val := by
      rw [Fin.val_succ]
      omega
    rw [if_neg (Fin.succ_ne_zero index), shift, ← List.drop_drop]
    exact zero index

private theorem initParam_sequential {outlen keylen : Nat} (outBound : outlen ≤ outBytes)
    (keyBound : keylen ≤ keyBytes) :
    Buffers outlen (initParam (sequentialParam outlen keylen)) (.start outlen keylen) [] where
  absorbed :=
    { h := by
        apply Vector.ext
        intro index bound
        have word := load64_sequential outBound keyBound ⟨index, bound⟩
        rw [initParam, Chain.start, Vector.getElem_ofFn, Vector.getElem_set, word]
        by_cases first : index = 0
        · subst first
          rfl
        · rw [if_neg fun same => first (congrArg Fin.val same), if_neg (Ne.symm first)]
          exact BitVec.xor_zero
      t0 := rfl
      t1 := by rw [Chain.start, Nat.zero_div]; rfl
      f0 := rfl
      f1 := rfl
      lastNode := rfl
      outlen := UInt8.toNat_ofNat_of_lt' (Nat.lt_of_le_of_lt outBound (by decide)) }
  buflen := rfl
  fits := Nat.zero_le _
  buf := rfl

/-! ## The whole run -/

private theorem keyBlock_cons {key : List UInt8} (some : 0 < key.length) :
    keyBlock key = padded key :=
  if_neg (List.ne_nil_of_length_pos some)

private theorem buffers_begin {outlen : Nat} {key : List UInt8} (positive : 0 < outlen)
    (outBound : outlen ≤ outBytes) (keyBound : key.length ≤ keyBytes) :
    ∃ S, begin reference outlen key = some S ∧
      Buffers outlen S
        (absorbAll blockBytes Chain.absorb (.start outlen key.length) (keyBlock key)).1
        (absorbAll blockBytes Chain.absorb (.start outlen key.length) (keyBlock key)).2 := by
  have started := initParam_sequential outBound keyBound
  have opens : ¬(outlen = 0 ∨ outBytes < outlen) := by omega
  by_cases keyed : 0 < key.length
  · refine ⟨update reference (initParam (sequentialParam outlen key.length)) (padded key), ?_, ?_⟩
    · rw [begin, if_pos keyed, initKey, if_neg opens, if_neg (by omega),
        memcpy_zero (Nat.le_trans keyBound (by decide))]
    · rw [keyBlock_cons keyed]
      exact buffers_update started (padded key)
  · have none : key = [] := List.eq_nil_of_length_eq_zero (Nat.eq_zero_of_not_pos keyed)
    subst none
    refine ⟨_, (if_neg keyed).trans (if_neg opens), ?_⟩
    rw [show keyBlock [] = [] from rfl, absorbAll_short (by decide) _ (Nat.zero_le _)]
    exact started

private theorem buffers_updates {outlen : Nat} {S : State} {chain : Chain} {kept : List UInt8}
    (buffers : Buffers outlen S chain kept) (pieces : List (List UInt8)) :
    Buffers outlen (pieces.foldl (update reference) S)
      (absorbAll blockBytes Chain.absorb chain (kept ++ pieces.flatten)).1
      (absorbAll blockBytes Chain.absorb chain (kept ++ pieces.flatten)).2 := by
  induction pieces generalizing S chain kept with
  | nil =>
      rw [List.flatten_nil, List.append_nil, absorbAll_short (by decide) chain buffers.fits]
      exact buffers
  | cons piece pieces induction =>
      have rest := induction (buffers_update buffers piece)
      rw [← absorbAll_append (by decide), List.append_assoc] at rest
      exact rest

/-- However a message is cut into pieces, what is computed is its digest, once. -/
theorem streaming {outlen : Nat} {key : List UInt8} (positive : 0 < outlen)
    (outBound : outlen ≤ outBytes) (keyBound : key.length ≤ keyBytes)
    (pieces : List (List UInt8)) {room : Nat} (fits : outlen ≤ room) :
    ∃ S last, begin reference outlen key = some S ∧
      final reference (pieces.foldl (update reference) S) room =
        some (digest outlen key pieces.flatten, last) ∧
      ∀ room, final reference last room = none := by
  obtain ⟨S, begun, buffers⟩ := buffers_begin positive outBound keyBound
  have whole := buffers_updates buffers pieces
  rw [← absorbAll_append (by decide)] at whole
  exact ⟨S, _, begun, buffers_final whole fits, final_finished _⟩

theorem streaming_keyed : ∃ S last, begin reference 32 [7] = some S ∧
    final reference ([[1, 2], [3]].foldl (update reference) S) 32 =
      some (digest 32 [7] [1, 2, 3], last) ∧
    ∀ room, final reference last room = none :=
  streaming (by decide) (by decide) (by decide) [[1, 2], [3]] (by decide)

/-- What is computed does not depend on the sources nor on the instructions they are
built for. -/
theorem optimized_streaming (build : Simd.Build) {outlen : Nat} {key : List UInt8}
    (positive : 0 < outlen) (outBound : outlen ≤ outBytes) (keyBound : key.length ≤ keyBytes)
    (pieces : List (List UInt8)) {room : Nat} (fits : outlen ≤ room) :
    ∃ S last, begin (optimized build) outlen key = some S ∧
      final (optimized build) (pieces.foldl (update (optimized build)) S) room =
        some (digest outlen key pieces.flatten, last) ∧
      begin reference outlen key = some S ∧
      final reference (pieces.foldl (update reference) S) room =
        some (digest outlen key pieces.flatten, last) := by
  rw [optimized_eq]
  obtain ⟨S, last, begun, answer, once⟩ := streaming positive outBound keyBound pieces fits
  exact ⟨S, last, begun, answer, begun, answer⟩

theorem optimized_streaming_keyed : ∃ S last, begin (optimized .sse2) 5 [7] = some S ∧
    final (optimized .sse2) ([[1, 2], [3]].foldl (update (optimized .sse2)) S) 8 =
      some (digest 5 [7] [1, 2, 3], last) ∧
    begin reference 5 [7] = some S ∧
    final reference ([[1, 2], [3]].foldl (update reference) S) 8 =
      some (digest 5 [7] [1, 2, 3], last) :=
  optimized_streaming .sse2 (by decide) (by decide) (by decide) [[1, 2], [3]] (by decide)

end Nanocap.Blake2
