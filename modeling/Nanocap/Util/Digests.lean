import Nanocap.Blake2.Streaming
import Nanocap.Database.BlockRows
import Nanocap.Util.Accounts

/-! # Digests

`hash_of` and `pub_to_account` call by call, over the sources of BLAKE2b. -/

namespace Nanocap

open Blake2 in
/-- The sources `CMakeLists.txt` takes, and the instructions they are built for. -/
inductive Blake2Sources where
  | ref
  | sse (build : Simd.Build)

open Blake2 in
def Blake2Sources.code : Blake2Sources → Implementation
  | ref => reference
  | sse build => optimized build

section Calls

variable (sources : Blake2Sources)

open Blake2 in
/-- `blake2b_init`, a `blake2b_update` for every piece, and `blake2b_final`. -/
def digestCalls (length : Nat) (pieces : List (List UInt8)) : Option (List UInt8) := do
  let S ← init sources.code length
  let (result, _) ← final sources.code (pieces.foldl (update sources.code) S) length
  return result

/-- What the overloads of `hash_of` pass to `blake2b_update`. -/
def Block.hashPieces : Block → List (List UInt8)
  | send block => [block.previous.val, block.destination.val, block.balance.val]
  | receive block => [block.previous.val, block.source.val]
  | opening block => [block.source.val, block.representative.val, block.account.val]
  | change block => [block.previous.val, block.representative.val]
  | state block => [List.replicate 31 0 ++ [EnumBlocktype.state.toUInt8], block.account.val,
      block.previous.val, block.representative.val, block.balance.val, block.link.val]

/-- `hash_of`; `none` where one of its assertions fails. -/
def Block.calledHash (block : Block) : Option (List UInt8) :=
  digestCalls sources 32 block.hashPieces

/-- `pub_to_account`, which ignores what the calls answer. -/
def calledAccount (publicBytes : Bytes 32) : Option String := do
  let check := littleEndianValue ((digestCalls sources 5 [publicBytes.val]).getD [])
  let numberL := (number publicBytes.val <<< 40) % 2 ^ 512 ||| check
  let destination ← assertedDigits 60 numberL []
  return String.ofList (destination ++ "_onan".toList).reverse

end Calls

def blake2bDigest (length : Nat) (input : List UInt8) : Bytes length :=
  if whole : (Blake2.digest length [] input).length = length then ⟨_, whole⟩ else .zero length

theorem length_digest {outlen : Nat} (outBound : outlen ≤ Blake2.outBytes)
    (key input : List UInt8) : (Blake2.digest outlen key input).length = outlen := by
  have word (word : Blake2.Word) : (Blake2.store64 word).length = 8 := rfl
  have words (h : Vector Blake2.Word 8) : (h.toList.flatMap Blake2.store64).length = 64 := by
    simp [List.length_flatMap, word]
  rw [Blake2.digest]
  exact List.length_take_of_le (by rw [words]; exact outBound)

private theorem code_eq (sources : Blake2Sources) : sources.code = Blake2.reference := by
  cases sources with
  | ref => rfl
  | sse build => exact Blake2.optimized_eq build

theorem digestCalls_eq (sources : Blake2Sources) {length : Nat} (positive : 0 < length)
    (bound : length ≤ Blake2.outBytes) (pieces : List (List UInt8)) :
    digestCalls sources length pieces = some (blake2bDigest length pieces.flatten).val := by
  obtain ⟨S, last, begun, answer, -⟩ :=
    @Blake2.streaming length [] positive bound (by decide) pieces length (Nat.le_refl length)
  have started : Blake2.init Blake2.reference length = some S := begun
  rw [digestCalls, code_eq, started, blake2bDigest, dif_pos (length_digest bound _ _)]
  exact (congrArg (Option.bind · _) answer).trans rfl

private theorem flatten_hashPieces (block : Block) :
    block.hashPieces.flatten = block.hashInput := by
  rw [Block.hashInput, Block.hashedWire_eq]
  cases block <;> simp [Block.hashPieces, Block.type, EnumBlocktype.preamble, EnumBlocktype.toUInt8]

/-- Whatever sources are built, the assertions of `hash_of` hold, and block hashes and
accounts are made of the digest of BLAKE2b. -/
theorem called_digests (sources : Blake2Sources) (block : Block) (publicBytes : Bytes 32) :
    block.calledHash sources = some (block.hashOf blake2bDigest).val ∧
      (block.hashOf blake2bDigest).val = Blake2.digest 32 [] block.hashInput ∧
      calledAccount sources publicBytes = some (pubToAccount blake2bDigest publicBytes) := by
  refine ⟨?_, ?_, ?_⟩
  · rw [Block.calledHash, digestCalls_eq sources (by decide) (by decide), flatten_hashPieces,
      Block.hashOf_eq]
  · rw [Block.hashOf_eq, blake2bDigest, dif_pos (length_digest (by decide) _ _)]
  · rw [calledAccount, digestCalls_eq sources (by decide) (by decide)]
    refine Eq.trans ?_ (assertedAccount_eq blake2bDigest publicBytes)
    rw [List.flatten_singleton, Option.getD_some]
    rfl

end Nanocap
