import Mathlib
import Nanocap.Blake2.Intrinsics
import Nanocap.Foundation.BlockBuffer

/-! # BLAKE2b

`blake2b-ref.c`, and `sse/blake2b.c` for each set of vector instructions it can be built
for: both compress alike. -/

namespace Nanocap.Blake2

open BlockBuffer

/-! ## State -/

/-- `blake2b_param`, which is packed. -/
structure Param where
  digestLength : UInt8
  keyLength : UInt8
  fanout : UInt8
  depth : UInt8
  leafLength : BitVec 32
  nodeOffset : BitVec 32
  xofLength : BitVec 32
  nodeDepth : UInt8
  innerLength : UInt8
  reserved : Bytes 14
  salt : Bytes 16
  personal : Bytes 16

def Param.bytes (P : Param) : List UInt8 :=
  [P.digestLength, P.keyLength, P.fanout, P.depth] ++ store32 P.leafLength ++
    store32 P.nodeOffset ++ store32 P.xofLength ++ [P.nodeDepth, P.innerLength] ++
    P.reserved.val ++ P.salt.val ++ P.personal.val

/-- `blake2b_state` -/
structure State where
  h : Vector Word 8
  t0 : Word
  t1 : Word
  f0 : Word
  f1 : Word
  buf : Bytes 128
  buflen : Nat
  outlen : Nat
  lastNode : Bool
deriving DecidableEq

/-- `memset( S, 0, sizeof( blake2b_state ) )` -/
def State.zero : State where
  h := .replicate 8 0
  t0 := 0
  t1 := 0
  f0 := 0
  f1 := 0
  buf := .zero 128
  buflen := 0
  outlen := 0
  lastNode := false

def iv : Vector Word 8 :=
  #v[0x6a09e667f3bcc908, 0xbb67ae8584caa73b, 0x3c6ef372fe94f82b, 0xa54ff53a5f1d36f1,
    0x510e527fade682d1, 0x9b05688c2b3e6c1f, 0x1f83d9abfb41bd6b, 0x5be0cd19137e2179]

def sigma : Vector (Vector (Fin 16) 16) 12 :=
  #v[#v[0, 1, 2, 3, 4, 5, 6, 7, 8, 9, 10, 11, 12, 13, 14, 15],
    #v[14, 10, 4, 8, 9, 15, 13, 6, 1, 12, 0, 2, 11, 7, 5, 3],
    #v[11, 8, 12, 0, 5, 2, 15, 13, 10, 14, 3, 6, 7, 1, 9, 4],
    #v[7, 9, 3, 1, 13, 12, 11, 14, 2, 6, 5, 10, 4, 0, 15, 8],
    #v[9, 0, 5, 7, 2, 4, 10, 15, 14, 1, 11, 12, 6, 8, 3, 13],
    #v[2, 12, 6, 10, 0, 11, 8, 3, 4, 13, 7, 5, 15, 14, 1, 9],
    #v[12, 5, 1, 15, 14, 13, 4, 10, 0, 7, 6, 3, 9, 2, 8, 11],
    #v[13, 11, 7, 14, 12, 1, 3, 9, 5, 0, 15, 4, 8, 6, 2, 10],
    #v[6, 15, 14, 9, 11, 3, 0, 8, 12, 2, 13, 7, 1, 4, 10, 5],
    #v[10, 2, 8, 4, 7, 6, 1, 5, 15, 11, 9, 14, 3, 12, 13, 0],
    #v[0, 1, 2, 3, 4, 5, 6, 7, 8, 9, 10, 11, 12, 13, 14, 15],
    #v[14, 10, 4, 8, 9, 15, 13, 6, 1, 12, 0, 2, 11, 7, 5, 3]]

namespace State

def setLastnode (S : State) : State := { S with f1 := .allOnes 64 }

def isLastblock (S : State) : Bool := S.f0 != 0

def setLastblock (S : State) : State :=
  let S := if S.lastNode then S.setLastnode else S
  { S with f0 := .allOnes 64 }

def incrementCounter (S : State) (inc : Word) : State :=
  let t0 := S.t0 + inc
  { S with t0, t1 := S.t1 + (if t0 < inc then 1 else 0) }

end State

def init0 : State := { State.zero with h := iv }

def initParam (P : Param) : State :=
  { init0 with
    h := .ofFn fun i => init0.h[i] ^^^ load64 (P.bytes.drop (8 * i))
    outlen := P.digestLength.toNat }

/-- The parameter block of `blake2b_init` and `blake2b_init_key`. -/
def sequentialParam (outlen keylen : Nat) : Param where
  digestLength := .ofNat outlen
  keyLength := .ofNat keylen
  fanout := 1
  depth := 1
  leafLength := 0
  nodeOffset := 0
  xofLength := 0
  nodeDepth := 0
  innerLength := 0
  reserved := .zero 14
  salt := .zero 16
  personal := .zero 16

/-! ## Compression -/

/-- The macro `G` -/
def g (m : Vector Word 16) (r : Fin 12) (i : Fin 8) (a b c d : Fin 16) (v : Vector Word 16) :
    Vector Word 16 :=
  let va := v[a] + v[b] + m[sigma[r][2 * i.val]]
  let vd := rotr64 (v[d] ^^^ va) 32
  let vc := v[c] + vd
  let vb := rotr64 (v[b] ^^^ vc) 24
  let va := va + vb + m[sigma[r][2 * i.val + 1]]
  let vd := rotr64 (vd ^^^ va) 16
  let vc := vc + vd
  let vb := rotr64 (vb ^^^ vc) 63
  (((v.set a va).set b vb).set c vc).set d vd

/-- The macro `ROUND` -/
def round (m : Vector Word 16) (v : Vector Word 16) (r : Fin 12) : Vector Word 16 :=
  let v := g m r 0 0 4 8 12 v
  let v := g m r 1 1 5 9 13 v
  let v := g m r 2 2 6 10 14 v
  let v := g m r 3 3 7 11 15 v
  let v := g m r 4 0 5 10 15 v
  let v := g m r 5 1 6 11 12 v
  let v := g m r 6 2 7 8 13 v
  g m r 7 3 4 9 14 v

def rounds : List (Fin 12) := [0, 1, 2, 3, 4, 5, 6, 7, 8, 9, 10, 11]

def message (block : List UInt8) : Vector Word 16 :=
  .ofFn fun i => load64 (block.drop (8 * i))

def work (h : Vector Word 8) (t0 t1 f0 f1 : Word) : Vector Word 16 :=
  #v[h[0], h[1], h[2], h[3], h[4], h[5], h[6], h[7], iv[0], iv[1], iv[2], iv[3],
    iv[4] ^^^ t0, iv[5] ^^^ t1, iv[6] ^^^ f0, iv[7] ^^^ f1]

def mixed (h : Vector Word 8) (t0 t1 f0 f1 : Word) (block : List UInt8) : Vector Word 8 :=
  let v := rounds.foldl (round (message block)) (work h t0 t1 f0 f1)
  .ofFn fun i => h[i] ^^^ v[i.val] ^^^ v[i.val + 8]

def compress (S : State) (block : List UInt8) : State :=
  { S with h := mixed S.h S.t0 S.t1 S.f0 S.f1 block }

/-! ## Calls

The two directories of sources share the text of what follows. -/

/-- The functions in which they differ. -/
structure Implementation where
  initParam : Param → State
  compress : State → List UInt8 → State

abbrev reference : Implementation := ⟨initParam, compress⟩

section Calls

variable (code : Implementation)

/-- `none` where the function answers -1. -/
def init (outlen : Nat) : Option State :=
  if outlen = 0 ∨ outBytes < outlen then none
  else some (code.initParam (sequentialParam outlen 0))

/-- The loop of `blake2b_update`. -/
def compressWhile (S : State) (input : List UInt8) : State × List UInt8 :=
  if blockBytes < input.length then
    compressWhile (code.compress (S.incrementCounter 128) (input.take blockBytes))
      (input.drop blockBytes)
  else (S, input)
termination_by input.length
decreasing_by
  rw [List.length_drop]
  unfold blockBytes at *
  omega

/-- `blake2b_update`, which never fails. -/
def update (S : State) (input : List UInt8) : State :=
  if 0 < input.length then
    let left := S.buflen
    let fill := blockBytes - left
    let (S, input) :=
      if fill < input.length then
        let S := { S with buflen := 0, buf := memcpy S.buf left (input.take fill) }
        let S := code.compress (S.incrementCounter 128) S.buf.val
        compressWhile code S (input.drop fill)
      else (S, input)
    { S with buf := memcpy S.buf S.buflen input, buflen := S.buflen + input.length }
  else S

/-- `blake2b_final`: the bytes written to `out` and the state left, or `none` where it
answers -1 and changes nothing. -/
def final (S : State) (outlen : Nat) : Option (List UInt8 × State) :=
  if outlen < S.outlen then none
  else if S.isLastblock then none
  else
    let S := (S.incrementCounter (.ofNat 64 S.buflen)).setLastblock
    let S := { S with buf := clearFrom S.buf S.buflen }
    let S := code.compress S S.buf.val
    let buffer := S.h.toList.flatMap store64
    some (buffer.take S.outlen, S)

def initKey (outlen : Nat) (key : List UInt8) : Option State :=
  if outlen = 0 ∨ outBytes < outlen then none
  else if key.length = 0 ∨ keyBytes < key.length then none
  else
    let S := code.initParam (sequentialParam outlen key.length)
    some (update code S (memcpy (.zero 128) 0 key).val)

/-- The state `blake2b` starts with. -/
def begin (outlen : Nat) (key : List UInt8) : Option State :=
  if 0 < key.length then initKey code outlen key else init code outlen

/-- `blake2b`, for an output and an input that are no null pointers. -/
def blake2b (outlen : Nat) (input key : List UInt8) : Option (List UInt8) :=
  if outlen = 0 ∨ outBytes < outlen then none
  else if keyBytes < key.length then none
  else
    (begin code outlen key).bind fun S =>
      (final code (update code S input) outlen).map Prod.fst

end Calls

/-! ## The digest of a message -/

/-- The hash words, and the number of bytes they stand for. -/
structure Chain where
  h : Vector Word 8
  count : Nat

/-- The compression of a block that ends `count` bytes. -/
def compression (h : Vector Word 8) (block : List UInt8) (count : Nat) (last : Bool) :
    Vector Word 8 :=
  mixed h (.ofNat 64 count) (.ofNat 64 (count / 2 ^ 64)) (if last then .allOnes 64 else 0) 0 block

namespace Chain

def start (outlen keylen : Nat) : Chain :=
  ⟨iv.set 0 (iv[0] ^^^ .ofNat 64 (0x01010000 + 256 * keylen + outlen)), 0⟩

def absorb (chain : Chain) (block : List UInt8) : Chain :=
  ⟨compression chain.h block (chain.count + blockBytes) false, chain.count + blockBytes⟩

end Chain

def padded (bytes : List UInt8) : List UInt8 :=
  bytes ++ .replicate (blockBytes - bytes.length) 0

def keyBlock (key : List UInt8) : List UInt8 := if key = [] then [] else padded key

def Chain.finish (chain : Chain) (kept : List UInt8) : Vector Word 8 :=
  compression chain.h (padded kept) (chain.count + kept.length) true

def digest (outlen : Nat) (key input : List UInt8) : List UInt8 :=
  let (chain, kept) :=
    absorbAll blockBytes Chain.absorb (.start outlen key.length) (keyBlock key ++ input)
  ((chain.finish kept).toList.flatMap store64).take outlen

/-! ## The optimized compression -/

namespace Simd

/-- What `blake2-config.h` finds. Every set includes those before it. -/
inductive Build where
  | sse2
  | ssse3
  | sse41
  | xop
deriving DecidableEq

namespace Build

def haveSsse3 : Build → Bool
  | sse2 => false
  | _ => true

def haveSse41 : Build → Bool
  | sse2 => false
  | ssse3 => false
  | _ => true

def haveXop (build : Build) : Bool := build = xop

end Build

/-! ## Messages -/

inductive Load where
  | unpacklo (a b : Fin 8)
  | unpackhi (a b : Fin 8)
  | alignr (a b : Fin 8)
  | blend (a b : Fin 8)
  | shuffle (a : Fin 8)
  | whole (a : Fin 8)
deriving DecidableEq

def Load.run (m : Fin 8 → M128i) : Load → M128i
  | unpacklo a b => mmUnpackloEpi64 (m a) (m b)
  | unpackhi a b => mmUnpackhiEpi64 (m a) (m b)
  | alignr a b => mmAlignrEpi8 (m a) (m b) 8
  | blend a b => mmBlendEpi16 (m a) (m b) 0xF0
  | shuffle a => mmShuffleEpi32 (m a) (mmShuffle 1 0 3 2)
  | whole a => m a

/-- `blake2b-load-sse2.h`: the words of the two calls of `_mm_set_epi64x`. -/
def loadSse2 : Vector (Vector (Fin 16 × Fin 16 × Fin 16 × Fin 16) 4) 12 :=
  #v[#v[(2, 0, 6, 4), (3, 1, 7, 5), (10, 8, 14, 12), (11, 9, 15, 13)],
    #v[(4, 14, 13, 9), (8, 10, 6, 15), (0, 1, 5, 11), (2, 12, 3, 7)],
    #v[(12, 11, 15, 5), (0, 8, 13, 2), (3, 10, 9, 7), (6, 14, 4, 1)],
    #v[(3, 7, 11, 13), (1, 9, 14, 12), (5, 2, 15, 4), (10, 6, 8, 0)],
    #v[(5, 9, 10, 2), (7, 0, 15, 4), (11, 14, 3, 6), (12, 1, 13, 8)],
    #v[(6, 2, 8, 0), (10, 12, 3, 11), (7, 4, 1, 15), (5, 13, 9, 14)],
    #v[(1, 12, 4, 14), (15, 5, 10, 13), (6, 0, 8, 9), (3, 7, 11, 2)],
    #v[(7, 13, 3, 12), (14, 11, 9, 1), (15, 5, 2, 8), (4, 0, 10, 6)],
    #v[(14, 6, 0, 11), (9, 15, 8, 3), (13, 12, 10, 1), (7, 2, 5, 4)],
    #v[(8, 10, 1, 7), (4, 2, 5, 6), (9, 15, 13, 3), (14, 11, 0, 12)],
    #v[(2, 0, 6, 4), (3, 1, 7, 5), (10, 8, 14, 12), (11, 9, 15, 13)],
    #v[(4, 14, 13, 9), (8, 10, 6, 15), (0, 1, 5, 11), (2, 12, 3, 7)]]

/-- `blake2b-load-sse41.h` -/
def loadSse41 : Vector (Vector (Load × Load) 4) 12 :=
  #v[#v[(.unpacklo 0 1, .unpacklo 2 3), (.unpackhi 0 1, .unpackhi 2 3),
      (.unpacklo 4 5, .unpacklo 6 7), (.unpackhi 4 5, .unpackhi 6 7)],
    #v[(.unpacklo 7 2, .unpackhi 4 6), (.unpacklo 5 4, .alignr 3 7),
      (.shuffle 0, .unpackhi 5 2), (.unpacklo 6 1, .unpackhi 3 1)],
    #v[(.alignr 6 5, .unpackhi 2 7), (.unpacklo 4 0, .blend 1 6),
      (.blend 5 1, .unpackhi 3 4), (.unpacklo 7 3, .alignr 2 0)],
    #v[(.unpackhi 3 1, .unpackhi 6 5), (.unpackhi 4 0, .unpacklo 6 7),
      (.blend 1 2, .blend 2 7), (.unpacklo 3 5, .unpacklo 0 4)],
    #v[(.unpackhi 4 2, .unpacklo 1 5), (.blend 0 3, .blend 2 7),
      (.blend 7 5, .blend 3 1), (.alignr 6 0, .blend 4 6)],
    #v[(.unpacklo 1 3, .unpacklo 0 4), (.unpacklo 6 5, .unpackhi 5 1),
      (.blend 2 3, .unpackhi 7 0), (.unpackhi 6 2, .blend 7 4)],
    #v[(.blend 6 0, .unpacklo 7 2), (.unpackhi 2 7, .alignr 5 6),
      (.unpacklo 0 3, .shuffle 4), (.unpackhi 3 1, .blend 1 5)],
    #v[(.unpackhi 6 3, .blend 6 1), (.alignr 7 5, .unpackhi 0 4),
      (.unpackhi 2 7, .unpacklo 4 1), (.unpacklo 0 2, .unpacklo 3 5)],
    #v[(.unpacklo 3 7, .alignr 0 5), (.unpackhi 7 4, .alignr 4 1),
      (.whole 6, .alignr 5 0), (.blend 1 3, .whole 2)],
    #v[(.unpacklo 5 4, .unpackhi 3 0), (.unpacklo 1 2, .blend 3 2),
      (.unpackhi 7 4, .unpackhi 1 6), (.alignr 7 5, .unpacklo 6 0)],
    #v[(.unpacklo 0 1, .unpacklo 2 3), (.unpackhi 0 1, .unpackhi 2 3),
      (.unpacklo 4 5, .unpacklo 6 7), (.unpackhi 4 5, .unpackhi 6 7)],
    #v[(.unpacklo 7 2, .unpackhi 4 6), (.unpacklo 5 4, .alignr 3 7),
      (.shuffle 0, .unpackhi 5 2), (.unpacklo 6 1, .unpackhi 3 1)]]

/-- The macros `LOAD_MSG` of a round, in their order. -/
def loadMsg (build : Build) (block : List UInt8) (r : Fin 12) (step : Fin 4) : M128i × M128i :=
  if build.haveSse41 then
    let m (index : Fin 8) := loadu (block.drop (16 * index))
    let (b0, b1) := loadSse41[r][step]
    (b0.run m, b1.run m)
  else
    let m := message block
    let (i, j, k, l) := loadSse2[r][step]
    (mmSetEpi64x m[i] m[j], mmSetEpi64x m[k] m[l])

/-! ## Rounds -/

structure Rows where
  row1l : M128i
  row1h : M128i
  row2l : M128i
  row2h : M128i
  row3l : M128i
  row3h : M128i
  row4l : M128i
  row4h : M128i

/-- The macro `_mm_roti_epi64` -/
def rotiEpi64 (build : Build) (x : M128i) (count : Nat) : M128i :=
  if build.haveXop then mmRotiEpi64 x count
  else if build.haveSsse3 then
    if count = 32 then mmShuffleEpi32 x (mmShuffle 2 3 0 1)
    else if count = 24 then mmShuffleEpi8 x r24
    else if count = 16 then mmShuffleEpi8 x r16
    else if count = 63 then mmXorSi128 (mmSrliEpi64 x count) (mmAddEpi64 x x)
    else mmXorSi128 (mmSrliEpi64 x count) (mmSlliEpi64 x (64 - count))
  else mmXorSi128 (mmSrliEpi64 x count) (mmSlliEpi64 x (64 - count))

/-- The macros `G1`, which rotates by 32 and 24, and `G2`, which rotates by 16 and 63. -/
def gHalf (build : Build) (first second : Nat) (b : M128i × M128i) (rows : Rows) : Rows :=
  let row1l := mmAddEpi64 (mmAddEpi64 rows.row1l b.1) rows.row2l
  let row1h := mmAddEpi64 (mmAddEpi64 rows.row1h b.2) rows.row2h
  let row4l := rotiEpi64 build (mmXorSi128 rows.row4l row1l) first
  let row4h := rotiEpi64 build (mmXorSi128 rows.row4h row1h) first
  let row3l := mmAddEpi64 rows.row3l row4l
  let row3h := mmAddEpi64 rows.row3h row4h
  let row2l := rotiEpi64 build (mmXorSi128 rows.row2l row3l) second
  let row2h := rotiEpi64 build (mmXorSi128 rows.row2h row3h) second
  ⟨row1l, row1h, row2l, row2h, row3l, row3h, row4l, row4h⟩

def g1 (build : Build) : M128i × M128i → Rows → Rows := gHalf build 32 24

def g2 (build : Build) : M128i × M128i → Rows → Rows := gHalf build 16 63

/-- The macro `DIAGONALIZE` -/
def diagonalize (build : Build) (rows : Rows) : Rows :=
  if build.haveSsse3 then
    { rows with
      row2l := mmAlignrEpi8 rows.row2h rows.row2l 8
      row2h := mmAlignrEpi8 rows.row2l rows.row2h 8
      row3l := rows.row3h
      row3h := rows.row3l
      row4l := mmAlignrEpi8 rows.row4l rows.row4h 8
      row4h := mmAlignrEpi8 rows.row4h rows.row4l 8 }
  else
    let t0 := rows.row4l
    let t1 := rows.row2l
    let row4l := mmUnpackhiEpi64 rows.row4h (mmUnpackloEpi64 t0 t0)
    let row4h := mmUnpackhiEpi64 t0 (mmUnpackloEpi64 rows.row4h rows.row4h)
    let row2l := mmUnpackhiEpi64 rows.row2l (mmUnpackloEpi64 rows.row2h rows.row2h)
    let row2h := mmUnpackhiEpi64 rows.row2h (mmUnpackloEpi64 t1 t1)
    { rows with row2l, row2h, row3l := rows.row3h, row3h := rows.row3l, row4l, row4h }

/-- The macro `UNDIAGONALIZE` -/
def undiagonalize (build : Build) (rows : Rows) : Rows :=
  if build.haveSsse3 then
    { rows with
      row2l := mmAlignrEpi8 rows.row2l rows.row2h 8
      row2h := mmAlignrEpi8 rows.row2h rows.row2l 8
      row3l := rows.row3h
      row3h := rows.row3l
      row4l := mmAlignrEpi8 rows.row4h rows.row4l 8
      row4h := mmAlignrEpi8 rows.row4l rows.row4h 8 }
  else
    let t0 := rows.row2l
    let t1 := rows.row4l
    let row2l := mmUnpackhiEpi64 rows.row2h (mmUnpackloEpi64 rows.row2l rows.row2l)
    let row2h := mmUnpackhiEpi64 t0 (mmUnpackloEpi64 rows.row2h rows.row2h)
    let row4l := mmUnpackhiEpi64 rows.row4l (mmUnpackloEpi64 rows.row4h rows.row4h)
    let row4h := mmUnpackhiEpi64 rows.row4h (mmUnpackloEpi64 t1 t1)
    { rows with row2l, row2h, row3l := rows.row3h, row3h := rows.row3l, row4l, row4h }

/-- The macro `ROUND` -/
def round (build : Build) (block : List UInt8) (rows : Rows) (r : Fin 12) : Rows :=
  let rows := g1 build (loadMsg build block r 0) rows
  let rows := g2 build (loadMsg build block r 1) rows
  let rows := diagonalize build rows
  let rows := g1 build (loadMsg build block r 2) rows
  let rows := g2 build (loadMsg build block r 3) rows
  undiagonalize build rows

/-! ## Compression -/

def loadWords {length : Nat} (words : Vector Word length) (index : Nat)
    (inside : index + 1 < length := by decide) : M128i :=
  loadu (store64 words[index] ++ store64 words[index + 1])

def start (S : State) : Rows where
  row1l := loadWords S.h 0
  row1h := loadWords S.h 2
  row2l := loadWords S.h 4
  row2h := loadWords S.h 6
  row3l := loadWords iv 0
  row3h := loadWords iv 2
  row4l := mmXorSi128 (loadWords iv 4) (loadWords #v[S.t0, S.t1] 0)
  row4h := mmXorSi128 (loadWords iv 6) (loadWords #v[S.f0, S.f1] 0)

def store (h : Vector Word 8) (rows : Rows) : Vector Word 8 :=
  let h0 := mmXorSi128 (loadWords h 0) (mmXorSi128 rows.row3l rows.row1l)
  let h2 := mmXorSi128 (loadWords h 2) (mmXorSi128 rows.row3h rows.row1h)
  let h4 := mmXorSi128 (loadWords h 4) (mmXorSi128 rows.row4l rows.row2l)
  let h6 := mmXorSi128 (loadWords h 6) (mmXorSi128 rows.row4h rows.row2h)
  #v[element 64 h0 0, element 64 h0 1, element 64 h2 0, element 64 h2 1,
    element 64 h4 0, element 64 h4 1, element 64 h6 0, element 64 h6 1]

def compress (build : Build) (S : State) (block : List UInt8) : State :=
  { S with h := store S.h (rounds.foldl (round build block) (start S)) }

def initParam (P : Param) : State :=
  let bytes := List.zipWith (· ^^^ ·) (iv.toList.flatMap store64) P.bytes
  { State.zero with
    h := .ofFn fun i => load64 (bytes.drop (8 * i))
    outlen := P.digestLength.toNat }

/-! ## The words of the registers -/

def pack (v : Vector Word 16) : Rows where
  row1l := mmSetEpi64x v[1] v[0]
  row1h := mmSetEpi64x v[3] v[2]
  row2l := mmSetEpi64x v[5] v[4]
  row2h := mmSetEpi64x v[7] v[6]
  row3l := mmSetEpi64x v[9] v[8]
  row3h := mmSetEpi64x v[11] v[10]
  row4l := mmSetEpi64x v[13] v[12]
  row4h := mmSetEpi64x v[15] v[14]

/-- What the macro `G` makes of four words. -/
structure Mixed where
  a : Word
  b : Word
  c : Word
  d : Word

def Mixed.get (mixed : Mixed) : Fin 4 → Word
  | 0 => mixed.a
  | 1 => mixed.b
  | 2 => mixed.c
  | 3 => mixed.d

def mixWords (a b c d x y : Word) : Mixed :=
  let va := a + b + x
  let vd := rotr64 (d ^^^ va) 32
  let vc := c + vd
  let vb := rotr64 (b ^^^ vc) 24
  let va := va + vb + y
  let vd := rotr64 (vd ^^^ va) 16
  let vc := vc + vd
  let vb := rotr64 (vb ^^^ vc) 63
  ⟨va, vb, vc, vd⟩

def mixAt (v : Vector Word 16) (places : Fin 4 → Fin 16) (x y : Word) : Mixed :=
  mixWords v[places 0] v[places 1] v[places 2] v[places 3] x y

def columnPlace (column row : Fin 4) : Fin 16 := ⟨4 * row + column, by omega⟩

def mixColumns (x y : Fin 4 → Word) (v : Vector Word 16) : Vector Word 16 :=
  let mixed (column : Fin 4) := mixAt v (columnPlace column) (x column) (y column)
  #v[(mixed 0).a, (mixed 1).a, (mixed 2).a, (mixed 3).a,
    (mixed 0).b, (mixed 1).b, (mixed 2).b, (mixed 3).b,
    (mixed 0).c, (mixed 1).c, (mixed 2).c, (mixed 3).c,
    (mixed 0).d, (mixed 1).d, (mixed 2).d, (mixed 3).d]

def diagonal (v : Vector Word 16) : Vector Word 16 :=
  #v[v[0], v[1], v[2], v[3], v[5], v[6], v[7], v[4], v[10], v[11], v[8], v[9],
    v[15], v[12], v[13], v[14]]

def messageWords (m : Vector Word 16) (r : Fin 12) (step column : Fin 4) : Word :=
  m[sigma[r][2 * (4 * (step.val / 2) + column.val) + step.val % 2]]

private theorem mixWords_eq (a b c d x y : Word) : mixWords a b c d x y =
    let va := a + x + b
    let vd := rotr64 (d ^^^ va) 32
    let vc := c + vd
    let vb := rotr64 (b ^^^ vc) 24
    let va := va + y + vb
    let vd := rotr64 (vd ^^^ va) 16
    let vc := vc + vd
    let vb := rotr64 (vb ^^^ vc) 63
    ⟨va, vb, vc, vd⟩ := by
  have swap (left right last : Word) : left + right + last = left + last + right := by
    rw [BitVec.add_assoc, BitVec.add_comm right, ← BitVec.add_assoc]
  simp only [mixWords]
  rw [swap a b x, swap _ _ y]

theorem rotiEpi64_set (build : Build) (a1 a0 : Word) {count : Nat} (positive : 0 < count)
    (small : count < 64) :
    rotiEpi64 build (mmSetEpi64x a1 a0) count =
      mmSetEpi64x (rotr64 a1 count) (rotr64 a0 count) := by
  have shifts : mmXorSi128 (mmSrliEpi64 (mmSetEpi64x a1 a0) count)
      (mmSlliEpi64 (mmSetEpi64x a1 a0) (64 - count)) =
      mmSetEpi64x (rotr64 a1 count) (rotr64 a0 count) := by
    rw [mmSrliEpi64_set, mmSlliEpi64_set, mmXorSi128_set, xor_shifts a1 positive small,
      xor_shifts a0 positive small]
  have doubled (word : Word) : word + word = word <<< (64 - 63) := by
    rw [← BitVec.two_mul, BitVec.shiftLeft_eq_mul_twoPow, BitVec.mul_comm]
    rfl
  unfold rotiEpi64
  split
  · exact mmRotiEpi64_set a1 a0 small
  split
  · split
    · subst count
      exact mmShuffleEpi32_rotates a1 a0
    split
    · subst count
      exact mmShuffleEpi8_r24 a1 a0
    split
    · subst count
      exact mmShuffleEpi8_r16 a1 a0
    split
    · subst count
      rw [mmAddEpi64_set, doubled, doubled, ← mmSlliEpi64_set]
      exact shifts
    · exact shifts
  · exact shifts

/-- `G1` and then `G2` mix the columns. -/
private theorem g2_g1_pack (build : Build) (x y : Fin 4 → Word) (v : Vector Word 16) :
    g2 build (mmSetEpi64x (y 1) (y 0), mmSetEpi64x (y 3) (y 2))
        (g1 build (mmSetEpi64x (x 1) (x 0), mmSetEpi64x (x 3) (x 2)) (pack v)) =
      pack (mixColumns x y v) := by
  have roti32 (a1 a0 : Word) := @rotiEpi64_set build a1 a0 32 (by decide) (by decide)
  have roti24 (a1 a0 : Word) := @rotiEpi64_set build a1 a0 24 (by decide) (by decide)
  have roti16 (a1 a0 : Word) := @rotiEpi64_set build a1 a0 16 (by decide) (by decide)
  have roti63 (a1 a0 : Word) := @rotiEpi64_set build a1 a0 63 (by decide) (by decide)
  simp only [g1, g2, gHalf, pack, mmAddEpi64_set, mmXorSi128_set, roti32, roti24, roti16, roti63,
    mixColumns, mixAt, mixWords_eq]
  rfl

private theorem diagonalize_pack (build : Build) (v : Vector Word 16) :
    diagonalize build (pack v) = pack (diagonal v) := by
  unfold diagonalize pack
  split
  · simp only [mmAlignrEpi8_set]
    rfl
  · simp only [mmUnpackhiEpi64_set, mmUnpackloEpi64_set]
    rfl

private theorem undiagonalize_pack (build : Build) (v : Vector Word 16) :
    undiagonalize build (pack (diagonal v)) = pack v := by
  unfold undiagonalize pack
  split
  · simp only [mmAlignrEpi8_set]
    rfl
  · simp only [mmUnpackhiEpi64_set, mmUnpackloEpi64_set]
    rfl

/-! ## The words of the reference -/

section Places

variable (m : Vector Word 16) (r : Fin 12)

def gAt (i : Fin 8) (places : Fin 4 → Fin 16) (v : Vector Word 16) : Vector Word 16 :=
  g m r i (places 0) (places 1) (places 2) (places 3) v

private theorem gAt_own (i : Fin 8) {places : Fin 4 → Fin 16} (distinct : Function.Injective places)
    (v : Vector Word 16) (row : Fin 4) :
    (gAt m r i places v)[places row] =
      (mixAt v places m[sigma[r][2 * i.val]] m[sigma[r][2 * i.val + 1]]).get row := by
  have apart (left right : Fin 4) (different : left ≠ right) :
      (places left).val ≠ (places right).val :=
    fun same => different (distinct (Fin.ext same))
  have rows : row = 0 ∨ row = 1 ∨ row = 2 ∨ row = 3 := by
    revert row
    decide
  unfold gAt g
  simp only [Fin.getElem_fin, Vector.getElem_set]
  rcases rows with rfl | rfl | rfl | rfl
  · rw [if_neg (apart 3 0 (by decide)), if_neg (apart 2 0 (by decide)),
      if_neg (apart 1 0 (by decide)), if_pos rfl]
    rfl
  · rw [if_neg (apart 3 1 (by decide)), if_neg (apart 2 1 (by decide)), if_pos rfl]
    rfl
  · rw [if_neg (apart 3 2 (by decide)), if_pos rfl]
    rfl
  · rw [if_pos rfl]
    rfl

private theorem gAt_other (i : Fin 8) {places : Fin 4 → Fin 16} (v : Vector Word 16)
    {place : Fin 16} (outside : ∀ row, places row ≠ place) :
    (gAt m r i places v)[place] = v[place] := by
  have apart (row : Fin 4) : (places row).val ≠ place.val :=
    fun same => outside row (Fin.ext same)
  unfold gAt g
  simp only [Fin.getElem_fin, Vector.getElem_set, if_neg (apart _)]

theorem foldl_gAt {place : Fin 4 → Fin 4 → Fin 16} (number : Fin 4 → Fin 8)
    (apart : ∀ left row right row', place left row = place right row' →
      left = right ∧ row = row')
    {columns : List (Fin 4)} (once : columns.Nodup) (v : Vector Word 16) (column row : Fin 4) :
    (columns.foldl (fun v column => gAt m r (number column) (place column) v) v)[
        place column row] =
      if column ∈ columns then
        (mixAt v (place column) m[sigma[r][2 * (number column).val]]
          m[sigma[r][2 * (number column).val + 1]]).get row
      else v[place column row] := by
  induction columns generalizing v with
  | nil => rfl
  | cons first columns induction =>
      obtain ⟨fresh, once⟩ := List.nodup_cons.mp once
      rw [List.foldl_cons, induction once]
      by_cases same : column = first
      · subst same
        rw [if_neg fresh, if_pos List.mem_cons_self, gAt_own m r _ fun row row' equal =>
          (apart column row column row' equal).2]
      · have kept (row : Fin 4) : (gAt m r (number first) (place first) v)[place column row] =
            v[place column row] :=
          gAt_other m r _ v fun other equal => same (apart _ _ _ _ equal).1.symm
        simp only [List.mem_cons, same, false_or, mixAt, kept]

end Places

theorem column_ext {left right : Vector Word 16}
    (same : ∀ column row, left[columnPlace column row] = right[columnPlace column row]) :
    left = right := by
  have places : ∀ index : Fin 16, ∃ column row, columnPlace column row = index := by decide
  apply Vector.ext
  intro index bound
  obtain ⟨column, row, place⟩ := places ⟨index, bound⟩
  have agree := same column row
  simp only [place] at agree
  exact agree

theorem mixColumns_place (x y : Fin 4 → Word) (v : Vector Word 16) (column row : Fin 4) :
    (mixColumns x y v)[columnPlace column row] =
      (mixAt v (columnPlace column) (x column) (y column)).get row := by
  obtain ⟨column, columnBound⟩ := column
  obtain ⟨row, rowBound⟩ := row
  interval_cases row <;> interval_cases column <;> rfl

def diagonalPlace (column row : Fin 4) : Fin 16 := ⟨4 * row + (column + row) % 4, by omega⟩

theorem diagonal_place (v : Vector Word 16) (column row : Fin 4) :
    (diagonal v)[columnPlace column row] = v[diagonalPlace column row] := by
  obtain ⟨column, columnBound⟩ := column
  obtain ⟨row, rowBound⟩ := row
  interval_cases row <;> interval_cases column <;> simp [diagonal, columnPlace, diagonalPlace]

private theorem mixAt_diagonal (v : Vector Word 16) (column : Fin 4) (x y : Word) :
    mixAt (diagonal v) (columnPlace column) x y = mixAt v (diagonalPlace column) x y := by
  simp only [mixAt, diagonal_place]

theorem mem_columns (column : Fin 4) : column ∈ [0, 1, 2, 3] := by
  revert column
  decide

private theorem columns_eq (m : Vector Word 16) (r : Fin 12) (v : Vector Word 16) :
    g m r 3 3 7 11 15 (g m r 2 2 6 10 14 (g m r 1 1 5 9 13 (g m r 0 0 4 8 12 v))) =
      mixColumns (messageWords m r 0) (messageWords m r 1) v := by
  apply column_ext
  intro column row
  have all := @foldl_gAt m r columnPlace (fun column => ⟨column, by omega⟩) (by decide)
    [0, 1, 2, 3] (by decide) v column row
  rw [if_pos (mem_columns column)] at all
  rw [mixColumns_place]
  refine Eq.trans all ?_
  simp [messageWords]

private theorem diagonals_eq (m : Vector Word 16) (r : Fin 12) (v : Vector Word 16) :
    diagonal (g m r 7 3 4 9 14 (g m r 6 2 7 8 13 (g m r 5 1 6 11 12 (g m r 4 0 5 10 15 v)))) =
      mixColumns (messageWords m r 2) (messageWords m r 3) (diagonal v) := by
  apply column_ext
  intro column row
  have all := @foldl_gAt m r diagonalPlace (fun column => ⟨4 + column, by omega⟩) (by decide)
    [0, 1, 2, 3] (by decide) v column row
  rw [if_pos (mem_columns column)] at all
  rw [mixColumns_place, diagonal_place, mixAt_diagonal]
  refine Eq.trans all ?_
  simp [messageWords]

/-! ## Messages -/

def Load.words : Load → Fin 16 × Fin 16
  | unpacklo a b => (⟨2 * b, by omega⟩, ⟨2 * a, by omega⟩)
  | unpackhi a b => (⟨2 * b + 1, by omega⟩, ⟨2 * a + 1, by omega⟩)
  | alignr a b => (⟨2 * a, by omega⟩, ⟨2 * b + 1, by omega⟩)
  | blend a b => (⟨2 * b + 1, by omega⟩, ⟨2 * a, by omega⟩)
  | shuffle a => (⟨2 * a, by omega⟩, ⟨2 * a + 1, by omega⟩)
  | whole a => (⟨2 * a + 1, by omega⟩, ⟨2 * a, by omega⟩)

private theorem loadu_block (block : List UInt8) (index : Fin 8) :
    loadu (block.drop (16 * index)) =
      mmSetEpi64x (message block)[2 * index.val + 1] (message block)[2 * index.val] := by
  rw [loadu_eq, List.drop_drop, message, Vector.getElem_ofFn, Vector.getElem_ofFn,
    show 8 * (2 * index.val + 1) = 16 * index.val + 8 by omega,
    show 8 * (2 * index.val) = 16 * index.val by omega]

theorem Load.run_eq (block : List UInt8) (load : Load) :
    load.run (fun index => loadu (block.drop (16 * index.val))) =
      mmSetEpi64x (message block)[load.words.1] (message block)[load.words.2] := by
  cases load <;> simp only [run, loadu_block] <;> simp [words]

def stepWords (r : Fin 12) (step : Fin 4) : Fin 16 × Fin 16 × Fin 16 × Fin 16 :=
  let word (column : Fin 4) := sigma[r][2 * (4 * (step.val / 2) + column.val) + step.val % 2]
  (word 1, word 0, word 3, word 2)

private theorem loadSse2_eq : ∀ r step, loadSse2[r][step] = stepWords r step := by decide

private theorem loadSse41_eq : ∀ r step, (loadSse41[r][step].1.words, loadSse41[r][step].2.words) =
    (((stepWords r step).1, (stepWords r step).2.1), (stepWords r step).2.2) := by decide

private theorem loadMsg_eq (build : Build) (block : List UInt8) (r : Fin 12) (step : Fin 4) :
    loadMsg build block r step =
      (mmSetEpi64x (messageWords (message block) r step 1) (messageWords (message block) r step 0),
        mmSetEpi64x (messageWords (message block) r step 3)
          (messageWords (message block) r step 2)) := by
  unfold loadMsg
  split
  · have words := loadSse41_eq r step
    simp only [Prod.mk.injEq] at words
    simp only [Load.run_eq, words]
    rfl
  · rw [loadSse2_eq]
    rfl

/-! ## Agreement -/

private theorem round_pack (build : Build) (block : List UInt8) (v : Vector Word 16) (r : Fin 12) :
    round build block (pack v) r = pack (Blake2.round (message block) v r) := by
  simp only [round, loadMsg_eq, g2_g1_pack, diagonalize_pack]
  rw [← columns_eq, ← diagonals_eq, undiagonalize_pack]
  rfl

private theorem rounds_pack (build : Build) (block : List UInt8) (v : Vector Word 16)
    (rs : List (Fin 12)) :
    rs.foldl (round build block) (pack v) = pack (rs.foldl (Blake2.round (message block)) v) := by
  induction rs generalizing v with
  | nil => rfl
  | cons r rs induction => rw [List.foldl_cons, List.foldl_cons, round_pack, induction]

theorem loadWords_eq {length : Nat} (words : Vector Word length) (index : Nat)
    (inside : index + 1 < length) :
    loadWords words index inside = mmSetEpi64x words[index + 1] words[index] := by
  rw [loadWords, loadu_words]

private theorem start_eq (S : State) : start S = pack (work S.h S.t0 S.t1 S.f0 S.f1) := by
  simp only [start, loadWords_eq, mmXorSi128_set]
  rfl

private theorem store_pack (h : Vector Word 8) (v : Vector Word 16) :
    store h (pack v) = .ofFn fun i => h[i] ^^^ v[i.val] ^^^ v[i.val + 8] := by
  have regroup (word low high : Word) : word ^^^ (high ^^^ low) = word ^^^ low ^^^ high := by
    rw [BitVec.xor_comm high, BitVec.xor_assoc]
  simp only [store, pack, loadWords_eq, mmXorSi128_set, element_set_low, element_set_high, regroup]
  apply Vector.ext
  intro index bound
  rw [Vector.getElem_ofFn]
  interval_cases index <;> rfl

/-- Every build compresses as the reference does. -/
private theorem compress_eq (build : Build) (S : State) (block : List UInt8) :
    compress build S block = Blake2.compress S block := by
  rw [compress, start_eq, rounds_pack, store_pack]
  rfl

private theorem length_bytes (P : Param) : P.bytes.length = 64 := by
  simp [Param.bytes, store32]

private theorem initParam_eq (P : Param) : initParam P = Blake2.initParam P := by
  have length : (iv.toList.flatMap store64).length = 64 := by decide
  have words : ∀ i : Fin 8, load64 ((iv.toList.flatMap store64).drop (8 * i)) = iv[i] := by decide
  unfold initParam Blake2.initParam
  refine congrArg (fun h : Vector Word 8 => { State.zero with h, outlen := P.digestLength.toNat })
    (Vector.ext fun index bound => ?_)
  rw [Vector.getElem_ofFn, Vector.getElem_ofFn, List.drop_zipWith, load64_xor, words]
  · rfl
  · rw [List.length_drop, length]
    omega
  · rw [List.length_drop, length_bytes]
    omega

end Simd

/-- The sources under `sse`. -/
def optimized (build : Simd.Build) : Implementation := ⟨Simd.initParam, Simd.compress build⟩

theorem optimized_eq (build : Simd.Build) : optimized build = reference := by
  rw [optimized, reference, funext Simd.initParam_eq,
    funext fun S => funext (Simd.compress_eq build S)]

end Nanocap.Blake2
