import Nanocap.Protocol.Types

/-! # Text encodings

`util/hex.hpp` and `util/nanoutil.cpp`. Blake2b is a parameter: the digest
length and the hashed bytes determine the digest. -/

namespace Nanocap

def hexDigit (value : Nat) : Char :=
  if value < 10 then Char.ofNat (48 + value) else Char.ofNat (55 + value)

/-- Two digits for each byte, as `std::setw(2)` and `std::setfill('0')` ask for. -/
def toHex (str : List UInt8) : String :=
  String.ofList (str.flatMap fun byte => [hexDigit (byte.toNat / 16), hexDigit (byte.toNat % 16)])

example : toHex [0x0A, 0xFF] = "0AFF" := by decide

def accountLookup : List Char := "13456789abcdefghijkmnopqrstuwxyz".toList

/-- The assertion `value < 32` is the type of the argument. -/
def accountEncode (value : Fin 32) : Char := accountLookup.getD value.val '1'

/-- Accumulate bytes in a `uint256_t`; the shift is zero for the first byte. -/
def number (bytes : List UInt8) : Nat :=
  (bytes.foldl
    (fun (result, shift) byte => ((result <<< shift) % 2 ^ 256 ||| byte.toNat, 8))
    (0, 0)).1

def balanceToDec (balance : Bytes 16) : String := toString (bigEndianValue balance.val)

section Blake2b

variable (blake2b : (length : Nat) → List UInt8 → Bytes length)

/-- The loop of `pub_to_account`: five bits at a time, lowest first. -/
def accountDigits : Nat → Nat → List Char
  | 0, _ => []
  | count + 1, numberL =>
      accountEncode ⟨numberL % 32, Nat.mod_lt _ (by decide)⟩ ::
        accountDigits count (numberL >>> 5)

/-- The five bytes of the digest are written to the low end of a `uint64_t`, and
the digits and `"_onan"` are reversed at the end. -/
def pubToAccount (publicBytes : Bytes 32) : String :=
  let check := littleEndianValue (blake2b 5 publicBytes.val).val
  let numberL := (number publicBytes.val <<< 40) % 2 ^ 512 ||| check
  String.ofList (accountDigits 60 numberL ++ "_onan".toList).reverse

def BlockState.hashOf (block : BlockState) : Bytes 32 :=
  let preamble := List.replicate 31 0 ++ [EnumBlocktype.state.toUInt8]
  blake2b 32 (preamble ++ block.account.val ++ block.previous.val ++
    block.representative.val ++ block.balance.val ++ block.link.val)

def BlockSend.hashOf (block : BlockSend) : Bytes 32 :=
  blake2b 32 (block.previous.val ++ block.destination.val ++ block.balance.val)

def BlockReceive.hashOf (block : BlockReceive) : Bytes 32 :=
  blake2b 32 (block.previous.val ++ block.source.val)

def BlockOpen.hashOf (block : BlockOpen) : Bytes 32 :=
  blake2b 32 (block.source.val ++ block.representative.val ++ block.account.val)

def BlockChange.hashOf (block : BlockChange) : Bytes 32 :=
  blake2b 32 (block.previous.val ++ block.representative.val)

end Blake2b

end Nanocap
