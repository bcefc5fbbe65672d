import Nanocap.Kaitai.Codec
import Nanocap.Protocol.Parser

/-! # Wire forms

The bytes of the records of a fixed size, in the order the parser reads them. -/

namespace Nanocap

/-! ## Blocks -/

def BlockSend.wire (block : BlockSend) : List UInt8 :=
  block.previous.val ++ (block.destination.val ++ (block.balance.val ++
    (block.signature.val ++ littleEndianBytes 8 block.work.toNat)))

theorem BlockSend.codec : Codec BlockSend.read BlockSend.wire 152 fun _ => True :=
  .field BlockSend.previous (.readBytes 32) fun _ =>
  .field BlockSend.destination (.readBytes 32) fun _ =>
  .field BlockSend.balance (.readBytes 16) fun _ =>
  .field BlockSend.signature (.readBytes 64) fun _ =>
  .last BlockSend.work .readU8le (by simp) (by rintro _ ⟨⟨⟨⟨-, rfl⟩, rfl⟩, rfl⟩, rfl⟩; rfl)

def BlockReceive.wire (block : BlockReceive) : List UInt8 :=
  block.previous.val ++ (block.source.val ++ (block.signature.val ++
    littleEndianBytes 8 block.work.toNat))

theorem BlockReceive.codec : Codec BlockReceive.read BlockReceive.wire 136 fun _ => True :=
  .field BlockReceive.previous (.readBytes 32) fun _ =>
  .field BlockReceive.source (.readBytes 32) fun _ =>
  .field BlockReceive.signature (.readBytes 64) fun _ =>
  .last BlockReceive.work .readU8le (by simp) (by rintro _ ⟨⟨⟨-, rfl⟩, rfl⟩, rfl⟩; rfl)

def BlockOpen.wire (block : BlockOpen) : List UInt8 :=
  block.source.val ++ (block.representative.val ++ (block.account.val ++
    (block.signature.val ++ littleEndianBytes 8 block.work.toNat)))

theorem BlockOpen.codec : Codec BlockOpen.read BlockOpen.wire 168 fun _ => True :=
  .field BlockOpen.source (.readBytes 32) fun _ =>
  .field BlockOpen.representative (.readBytes 32) fun _ =>
  .field BlockOpen.account (.readBytes 32) fun _ =>
  .field BlockOpen.signature (.readBytes 64) fun _ =>
  .last BlockOpen.work .readU8le (by simp) (by rintro _ ⟨⟨⟨⟨-, rfl⟩, rfl⟩, rfl⟩, rfl⟩; rfl)

def BlockChange.wire (block : BlockChange) : List UInt8 :=
  block.previous.val ++ (block.representative.val ++ (block.signature.val ++
    littleEndianBytes 8 block.work.toNat))

theorem BlockChange.codec : Codec BlockChange.read BlockChange.wire 136 fun _ => True :=
  .field BlockChange.previous (.readBytes 32) fun _ =>
  .field BlockChange.representative (.readBytes 32) fun _ =>
  .field BlockChange.signature (.readBytes 64) fun _ =>
  .last BlockChange.work .readU8le (by simp) (by rintro _ ⟨⟨⟨-, rfl⟩, rfl⟩, rfl⟩; rfl)

def BlockState.wire (block : BlockState) : List UInt8 :=
  block.account.val ++ (block.previous.val ++ (block.representative.val ++
    (block.balance.val ++ (block.link.val ++ (block.signature.val ++
      bigEndianBytes 8 block.work.toNat)))))

theorem BlockState.codec : Codec BlockState.read BlockState.wire 216 fun _ => True :=
  .field BlockState.account (.readBytes 32) fun _ =>
  .field BlockState.previous (.readBytes 32) fun _ =>
  .field BlockState.representative (.readBytes 32) fun _ =>
  .field BlockState.balance (.readBytes 16) fun _ =>
  .field BlockState.link (.readBytes 32) fun _ =>
  .field BlockState.signature (.readBytes 64) fun _ =>
  .last BlockState.work .readU8be (by simp)
    (by rintro _ ⟨⟨⟨⟨⟨⟨-, rfl⟩, rfl⟩, rfl⟩, rfl⟩, rfl⟩, rfl⟩; rfl)

def Block.wire : Block → List UInt8
  | send block => block.wire
  | receive block => block.wire
  | opening block => block.wire
  | change block => block.wire
  | state block => block.wire

def EnumBlocktype.blockSize : EnumBlocktype → Option Nat
  | send => some 152
  | receive => some 136
  | opening => some 168
  | change => some 136
  | state => some 216
  | _ => none

def Block.size (block : Block) : Nat := block.wire.length

def BlockSelector.wire : BlockSelector → List UInt8
  | known block => block.wire
  | ignored _ empty => empty.getD []

def BlockSelector.Holds (blockType : EnumBlocktype) (selector : BlockSelector) : Prop :=
  ∃ block, selector = .known block ∧ block.type = blockType

theorem BlockSelector.holds_iff {blockType : EnumBlocktype} {α : Type} (build : α → Block)
    (blocks : ∀ block : Block, block.type = blockType ↔ ∃ value, block = build value)
    (selector : BlockSelector) :
    selector.Holds blockType ↔ ∃ value, selector = .known (build value) := by
  constructor
  · rintro ⟨block, rfl, typed⟩
    obtain ⟨value, rfl⟩ := (blocks block).mp typed
    exact ⟨value, rfl⟩
  · rintro ⟨value, rfl⟩
    exact ⟨build value, rfl, (blocks _).mpr ⟨value, rfl⟩⟩

theorem BlockSelector.codec {argBlockType : UInt8} {size : Nat}
    (known : (EnumBlocktype.ofUInt8 argBlockType).blockSize = some size) :
    Codec (BlockSelector.read argBlockType) BlockSelector.wire size
      (BlockSelector.Holds (.ofUInt8 argBlockType)) := by
  unfold BlockSelector.read
  cases kind : EnumBlocktype.ofUInt8 argBlockType <;> rw [kind] at known <;> cases known
  case send =>
    exact (BlockSend.codec.wrap (BlockSelector.known ∘ Block.send) fun _ => rfl).congr
      (holds_iff Block.send fun block => by cases block <;> simp [Block.type])
  case receive =>
    exact (BlockReceive.codec.wrap (BlockSelector.known ∘ Block.receive) fun _ => rfl).congr
      (holds_iff Block.receive fun block => by cases block <;> simp [Block.type])
  case opening =>
    exact (BlockOpen.codec.wrap (BlockSelector.known ∘ Block.opening) fun _ => rfl).congr
      (holds_iff Block.opening fun block => by cases block <;> simp [Block.type])
  case change =>
    exact (BlockChange.codec.wrap (BlockSelector.known ∘ Block.change) fun _ => rfl).congr
      (holds_iff Block.change fun block => by cases block <;> simp [Block.type])
  case state =>
    exact (BlockState.codec.wrap (BlockSelector.known ∘ Block.state) fun _ => rfl).congr
      (holds_iff Block.state fun block => by cases block <;> simp [Block.type])

@[simp] theorem Block.ofUInt8_type (block : Block) :
    EnumBlocktype.ofUInt8 block.type.toUInt8 = block.type := by
  cases block <;> rfl

theorem Block.blockSize_type (block : Block) : block.type.blockSize = some block.size := by
  cases block with
  | send block => exact congrArg some (BlockSend.codec.length block trivial).symm
  | receive block => exact congrArg some (BlockReceive.codec.length block trivial).symm
  | opening block => exact congrArg some (BlockOpen.codec.length block trivial).symm
  | change block => exact congrArg some (BlockChange.codec.length block trivial).symm
  | state block => exact congrArg some (BlockState.codec.length block trivial).symm

theorem Block.selectorCodec (block : Block) :
    Codec (BlockSelector.read block.type.toUInt8) BlockSelector.wire block.size
      (BlockSelector.Holds block.type) := by
  have codec := @BlockSelector.codec block.type.toUInt8 block.size
    (by rw [Block.ofUInt8_type, Block.blockSize_type])
  rwa [Block.ofUInt8_type] at codec

private theorem readIgnoreUntilEof_consumes : KStream.Consumes readIgnoreUntilEof 0 := by
  refine KStream.Consumes.isEof.andThen fun ended => ?_
  cases ended with
  | true => exact .pure _
  | false =>
      have items : KStream.Consumes (KStream.doWhile KStream.readU1 fun _ => KStream.isEof) 0 :=
        fun stream => (KStream.Consumes.readUntil (KStream.Consumes.readU1.weaken (Nat.zero_le _))
          (fun _ => .isEof) _ _) stream
      exact items.andThen fun _ => .pure _

private theorem KStream.readUntil_eof {byte : UInt8} {rest : List UInt8} {fuel read position : Nat}
    (enough : rest.length < fuel) :
    ∃ bytes stop, KStream.readUntil KStream.readU1 (fun _ => KStream.isEof) fuel read
      ⟨position, byte :: rest⟩ = .ok bytes stop := by
  induction rest generalizing byte fuel read position with
  | nil =>
      obtain ⟨fuel, rfl⟩ := Nat.exists_eq_succ_of_ne_zero (Nat.ne_zero_of_lt enough)
      exact ⟨_, _, rfl⟩
  | cons next rest induction =>
      obtain ⟨fuel, rfl⟩ := Nat.exists_eq_succ_of_ne_zero (Nat.ne_zero_of_lt enough)
      obtain ⟨bytes, stop, later⟩ := @induction next fuel (read + 1) (position + 1)
        (Nat.lt_of_succ_lt_succ enough)
      have head : KStream.readU1 ⟨position, byte :: next :: rest⟩ =
          .ok byte ⟨position + 1, next :: rest⟩ := rfl
      have more : KStream.isEof ⟨position + 1, next :: rest⟩ =
          .ok false ⟨position + 1, next :: rest⟩ := rfl
      refine ⟨byte :: bytes, stop, ?_⟩
      rw [KStream.readUntil, EStateM.bind_of_ok head, EStateM.bind_of_ok more]
      exact EStateM.bind_of_ok later

private theorem readIgnoreUntilEof_returns (stream : KStream) :
    ∃ ignored stop, readIgnoreUntilEof stream = .ok ignored stop := by
  obtain ⟨position, rest⟩ := stream
  cases rest with
  | nil => exact ⟨_, _, rfl⟩
  | cons byte rest =>
      obtain ⟨bytes, stop, loop⟩ := @KStream.readUntil_eof byte rest (rest.length + 2) 0 position
        (by omega)
      have more : KStream.isEof ⟨position, byte :: rest⟩ =
          .ok false ⟨position, byte :: rest⟩ := rfl
      have items : KStream.doWhile KStream.readU1 (fun _ => KStream.isEof)
          ⟨position, byte :: rest⟩ = .ok bytes stop := loop
      refine ⟨some bytes, stop, ?_⟩
      rw [readIgnoreUntilEof, EStateM.bind_of_ok more]
      exact EStateM.bind_of_ok items

theorem BlockSelector.read_of_unknown {argBlockType : UInt8}
    (unknown : (EnumBlocktype.ofUInt8 argBlockType).blockSize = none) :
    BlockSelector.read argBlockType =
      (do return .ignored argBlockType (← readIgnoreUntilEof)) := by
  unfold BlockSelector.read
  split <;> rename_i equal
  all_goals first
    | (rw [equal] at unknown; cases unknown)
    | rfl

theorem BlockSelector.read_consumes (argBlockType : UInt8) :
    KStream.Consumes (BlockSelector.read argBlockType) 0 := by
  cases kind : (EnumBlocktype.ofUInt8 argBlockType).blockSize with
  | some size => exact (BlockSelector.codec kind).consumes.weaken (Nat.zero_le _)
  | none =>
      rw [BlockSelector.read_of_unknown kind]
      exact readIgnoreUntilEof_consumes.andThen fun _ => .pure _

theorem BlockSelector.read_wire {argBlockType : UInt8} {stream stop : KStream} {block : Block}
    (reads : BlockSelector.read argBlockType stream = .ok (.known block) stop) :
    EnumBlocktype.ofUInt8 argBlockType = block.type ∧ stream.rest = block.wire ++ stop.rest ∧
      stop.position = stream.position + block.size := by
  cases kind : (EnumBlocktype.ofUInt8 argBlockType).blockSize with
  | some size =>
      rcases (BlockSelector.codec kind).cases stream with
        ⟨-, _, raises⟩ | ⟨selector, rest, ⟨other, rfl, typed⟩, bytes, found⟩
      · rw [raises] at reads
        cases reads
      · rw [found] at reads
        cases reads
        have size_eq := block.blockSize_type
        rw [typed, kind] at size_eq
        exact ⟨typed.symm, bytes, by rw [Option.some.inj size_eq]⟩
  | none =>
      rw [BlockSelector.read_of_unknown kind] at reads
      obtain ⟨_, _, _, built⟩ := EStateM.bind_eq_ok reads
      cases built

/-! ## Entries of bulk transfers -/

def Block.entryWire (block : Block) : List UInt8 := block.type.toUInt8 :: block.wire

/-- How `bulk_pull_entry_t` and `bulk_push_entry_t` read an entry. -/
def readBulkEntry {Entry : Type} (build : UInt8 → BlockSelector → Entry) : Reader Entry := do
  let blockType ← KStream.readU1
  return build blockType (← BlockSelector.read blockType)

theorem readBulkEntry_wire {Entry : Type} (build : UInt8 → BlockSelector → Entry) (block : Block)
    (position : Nat) (rest : List UInt8) :
    readBulkEntry build ⟨position, block.entryWire ++ rest⟩ =
      .ok (build block.type.toUInt8 (.known block))
        ⟨position + block.entryWire.length, rest⟩ := by
  have read : BlockSelector.read block.type.toUInt8 ⟨position + 1, block.wire ++ rest⟩ =
      .ok (.known block) ⟨position + 1 + block.size, rest⟩ :=
    block.selectorCodec.reads (.known block) ⟨block, rfl, rfl⟩ (position + 1) rest
  have first : KStream.readU1 ⟨position, block.entryWire ++ rest⟩ =
      .ok block.type.toUInt8 ⟨position + 1, block.wire ++ rest⟩ := rfl
  rw [readBulkEntry, EStateM.bind_of_ok first, EStateM.bind_of_ok read, Block.entryWire,
    List.length_cons, Nat.add_assoc, Nat.add_comm 1]
  rfl

theorem readBulkEntry_consumes {Entry : Type} (build : UInt8 → BlockSelector → Entry) :
    KStream.Consumes (readBulkEntry build) 1 :=
  KStream.Consumes.readU1.andThen fun blockType =>
    (BlockSelector.read_consumes blockType).andThen fun _ => .pure _

theorem readBulkEntry_known {Entry : Type} {build : UInt8 → BlockSelector → Entry}
    {stream stop : KStream} {entry : Entry}
    (reads : readBulkEntry build stream = .ok entry stop) :
    ∃ blockType selector, entry = build blockType selector ∧
      ∀ block, selector = .known block →
        stop.position = stream.position + block.entryWire.length := by
  obtain ⟨blockType, middle, first, rest⟩ := EStateM.bind_eq_ok reads
  obtain ⟨selector, last, second, built⟩ := EStateM.bind_eq_ok rest
  cases built
  refine ⟨blockType, selector, rfl, ?_⟩
  rintro block rfl
  have behind : middle.position = stream.position + 1 := by
    rcases Codec.readU1.cases stream with ⟨-, _, raises⟩ | ⟨_, _, -, -, found⟩
    · rw [raises] at first
      cases first
    · rw [found] at first
      cases first
      rfl
  rw [(BlockSelector.read_wire second).2.2, behind, Block.entryWire, List.length_cons, Block.size]
  omega

theorem readBulkEntry_truncated {Entry : Type} (build : UInt8 → BlockSelector → Entry)
    {block : Block} {bytes missing : List UInt8} (truncated : block.entryWire = bytes ++ missing)
    (some : missing ≠ []) (position : Nat) :
    ∃ stopped, readBulkEntry build ⟨position, bytes⟩ = .error .runtimeError stopped := by
  cases bytes with
  | nil => exact ⟨_, rfl⟩
  | cons byte bytes =>
      obtain ⟨rfl, rest⟩ := List.cons.inj truncated
      have short : bytes.length < block.size := by
        have positive := List.length_pos_iff.mpr some
        have lengths := congrArg List.length rest
        rw [List.append_eq, List.length_append] at lengths
        rw [Block.size]
        omega
      obtain ⟨stopped, raises⟩ := block.selectorCodec.throws ⟨position + 1, bytes⟩ short
      have first : KStream.readU1 ⟨position, block.type.toUInt8 :: bytes⟩ =
          .ok block.type.toUInt8 ⟨position + 1, bytes⟩ := rfl
      exact ⟨stopped, by
        rw [readBulkEntry, EStateM.bind_of_ok first, EStateM.bind_of_error raises]⟩

/-- The beginning of an entry: the type of a block, and bytes of such a block but not
all of them. -/
def EntryBegun (bytes : List UInt8) : Prop :=
  ∃ (block : Block) (held missing : List UInt8), bytes = block.type.toUInt8 :: held ∧
    block.wire = held ++ missing ∧ missing ≠ [] ∧
    bytes.length ≤ block.size ∧ block.size ≤ 216

theorem Block.size_le (block : Block) : block.size ≤ 216 := by
  have size := block.blockSize_type
  unfold EnumBlocktype.blockSize at size
  split at size <;> simp only [Option.some.injEq, reduceCtorEq] at size <;> omega

theorem EntryBegun.of_short {first : UInt8} {size : Nat}
    (known : (EnumBlocktype.ofUInt8 first).blockSize = some size) {held : List UInt8}
    (short : held.length < size) : EntryBegun (first :: held) := by
  -- zeros make up for what is missing
  let missing := List.replicate (size - held.length) (0 : UInt8)
  have length : (held ++ missing).length = size := by
    rw [List.length_append, List.length_replicate]
    omega
  obtain ⟨selector, ⟨block, rfl, typed⟩, wire⟩ := (BlockSelector.codec known).covers _ length
  have same : block.size = size := by
    have own := block.blockSize_type
    rw [typed, known] at own
    exact (Option.some.inj own).symm
  refine ⟨block, held, missing, ?_, wire, ?_, ?_, block.size_le⟩
  · rw [typed, EnumBlocktype.toUInt8_ofUInt8]
  · intro complete
    rw [complete, List.append_nil] at length
    exact absurd length (Nat.ne_of_lt short)
  · rw [same]
    exact short

theorem readBulkEntry_begun {Entry : Type} {build : UInt8 → BlockSelector → Entry}
    {bytes : List UInt8} (unreadable : Unreadable (readBulkEntry build) bytes) :
    bytes = [] ∨ EntryBegun bytes := by
  cases bytes with
  | nil => exact .inl rfl
  | cons first held =>
      obtain ⟨exception, stop, raises⟩ := unreadable
      have type : KStream.readU1 (.ofBytes (first :: held)) = .ok first ⟨1, held⟩ := rfl
      rw [readBulkEntry, EStateM.bind_of_ok type] at raises
      cases kind : (EnumBlocktype.ofUInt8 first).blockSize with
      | none =>
          -- an unknown type takes whatever follows
          obtain ⟨ignored, behind, ignores⟩ := readIgnoreUntilEof_returns ⟨1, held⟩
          have reads : BlockSelector.read first ⟨1, held⟩ =
              .ok (.ignored first ignored) behind := by
            rw [BlockSelector.read_of_unknown kind]
            exact EStateM.bind_of_ok ignores
          rw [EStateM.bind_of_ok reads] at raises
          cases raises
      | some size =>
          rcases (BlockSelector.codec kind).cases ⟨1, held⟩ with
            ⟨short, -⟩ | ⟨selector, rest, -, -, reads⟩
          · exact .inr (EntryBegun.of_short kind short)
          · rw [EStateM.bind_of_ok reads] at raises
            cases raises

/-! ## Entries of the other responses -/

def FrontierEntry.wire (entry : FrontierEntry) : List UInt8 :=
  entry.account.val ++ entry.frontierHash.val

theorem FrontierEntry.codec : Codec FrontierEntry.read FrontierEntry.wire 64 fun _ => True :=
  .field FrontierEntry.account (.readBytes 32) fun _ =>
  .last FrontierEntry.frontierHash (.readBytes 32) (by simp) (by rintro _ ⟨-, rfl⟩; rfl)

def FrontierBalanceEntry.wire (entry : FrontierBalanceEntry) : List UInt8 :=
  entry.frontierHash.val ++ entry.balance.val

theorem FrontierBalanceEntry.codec :
    Codec FrontierBalanceEntry.read FrontierBalanceEntry.wire 48 fun _ => True :=
  .field FrontierBalanceEntry.frontierHash (.readBytes 32) fun _ =>
  .last FrontierBalanceEntry.balance (.readBytes 16) (by simp) (by rintro _ ⟨-, rfl⟩; rfl)

namespace BulkPullAccountEntry

/-- A part that is absent reads as the empty string. -/
def part {length : Nat} (bytes : Option (Bytes length)) : List UInt8 :=
  (bytes.map (·.val)).getD []

def wire (entry : BulkPullAccountEntry) : List UInt8 :=
  part entry.hash ++ (part entry.amount ++ part entry.source)

def size (flags : UInt8) : Nat :=
  if flags = pendingAddressOnly then 32
  else if flags = pendingHashAmountAndAddress then 80
  else 48

theorem size_pos (flags : UInt8) : 0 < size flags := by
  unfold size
  split
  · decide
  · split <;> decide

theorem size_le (flags : UInt8) : size flags ≤ 80 := by
  unfold size
  split
  · decide
  · split <;> decide

def Layout (flags : UInt8) (entry : BulkPullAccountEntry) : Prop :=
  (entry.hash.isSome ↔ flags ≠ pendingAddressOnly) ∧
  (entry.amount.isSome ↔ flags ≠ pendingAddressOnly) ∧
  (entry.source.isSome ↔ flags = pendingAddressOnly ∨ flags = pendingHashAmountAndAddress)

def hashAndAmount : Reader (Bytes 32 × Bytes 16) := do
  let hash ← KStream.readBytes 32
  let amount ← KStream.readBytes 16
  return (hash, amount)

def hashAmountAndAddress : Reader (Bytes 32 × Bytes 16 × Bytes 32) := do
  let hash ← KStream.readBytes 32
  let amount ← KStream.readBytes 16
  let source ← KStream.readBytes 32
  return (hash, amount, source)

private theorem codec_hashAndAmount :
    Codec hashAndAmount (fun parts => parts.1.val ++ parts.2.val) 48 fun _ => True :=
  .field Prod.fst (.readBytes 32) fun _ =>
  .last Prod.snd (.readBytes 16) (by simp) (by rintro _ ⟨-, rfl⟩; rfl)

private theorem codec_hashAmountAndAddress :
    Codec hashAmountAndAddress
      (fun parts => parts.1.val ++ (parts.2.1.val ++ parts.2.2.val)) 80 fun _ => True :=
  .field Prod.fst (.readBytes 32) fun _ =>
  .field (Prod.fst ∘ Prod.snd) (.readBytes 16) fun _ =>
  .last (Prod.snd ∘ Prod.snd) (.readBytes 32) (by simp) (by rintro _ ⟨⟨-, rfl⟩, rfl⟩; rfl)

theorem codec (flags : UInt8) : Codec (read flags) wire (size flags) (Layout flags) := by
  by_cases addressOnly : flags = pendingAddressOnly
  · have reader : read flags = (KStream.readBytes 32 >>= fun source =>
        pure { hash := none, amount := none, source := some source }) := by
      simp [read, addressOnly]
    rw [reader, size, if_pos addressOnly]
    refine ((Codec.readBytes 32).wrap
      (fun source => ({ hash := none, amount := none, source := some source } :
        BulkPullAccountEntry)) fun _ => rfl).congr fun ⟨hash, amount, source⟩ => ?_
    cases hash <;> cases amount <;> cases source <;> simp [Layout, addressOnly]
  · by_cases includeAddress : flags = pendingHashAmountAndAddress
    · have different : pendingHashAmountAndAddress ≠ pendingAddressOnly := by decide
      have reader : read flags = (hashAmountAndAddress >>= fun parts =>
          pure { hash := some parts.1, amount := some parts.2.1, source := some parts.2.2 }) := by
        simp [read, hashAmountAndAddress, includeAddress, different]
      rw [reader, size, if_neg addressOnly, if_pos includeAddress]
      refine (codec_hashAmountAndAddress.wrap
        (fun parts => ({ hash := some parts.1, amount := some parts.2.1,
                         source := some parts.2.2 } : BulkPullAccountEntry))
        fun _ => rfl).congr fun ⟨hash, amount, source⟩ => ?_
      cases hash <;> cases amount <;> cases source <;> simp [Layout, includeAddress, different]
    · have reader : read flags = (hashAndAmount >>= fun parts =>
          pure { hash := some parts.1, amount := some parts.2, source := none }) := by
        simp [read, hashAndAmount, addressOnly, includeAddress]
      rw [reader, size, if_neg addressOnly, if_neg includeAddress]
      refine (codec_hashAndAmount.wrap
        (fun parts => ({ hash := some parts.1, amount := some parts.2, source := none } :
          BulkPullAccountEntry)) fun _ => ?_).congr fun ⟨hash, amount, source⟩ => ?_
      · simp [wire, part]
      · cases hash <;> cases amount <;> cases source <;>
          simp [Layout, addressOnly, includeAddress]

end BulkPullAccountEntry

/-! ## Messages -/

def MessageHeader.wire (header : MessageHeader) : List UInt8 :=
  headerMagic.val ++ ([header.networkId] ++ ([header.versionMax] ++ ([header.versionUsing] ++
    ([header.versionMin] ++ ([header.messageType.toUInt8] ++
      littleEndianBytes 2 header.extensions.toNat)))))

@[simp] theorem MessageHeader.length_wire (header : MessageHeader) : header.wire.length = 8 := rfl

def MessageHeader.sample (messageType : EnumMsgtype) (extensions : UInt16) : MessageHeader :=
  ⟨0x43, 18, 18, 13, messageType, extensions⟩

theorem MessageHeader.read_consumes : KStream.Consumes MessageHeader.read 8 := by
  have magic : KStream.Consumes (KStream.ensureFixedContents headerMagic) 1 := by
    refine (KStream.Consumes.readBytes 1).andThen fun actual => ?_
    split
    · exact .pure _
    · exact .throw _ _
  have extensions : KStream.Consumes KStream.readU2le 2 :=
    (KStream.Consumes.readBytes 2).andThen fun _ => .pure _
  exact magic.bind fun _ => .bind .readU1 fun _ => .bind .readU1 fun _ => .bind .readU1 fun _ =>
    .bind .readU1 fun _ => .bind .readU1 fun _ => extensions.andThen fun _ => .pure _

theorem MsgBulkPush.read_consumes : KStream.Consumes MsgBulkPush.read 1 := by
  have entries : KStream.Consumes (KStream.doWhile BulkPushEntry.read fun _ => do
      if ← KStream.isEof then return true
      throw .outOfRange) 1 := by
    intro stream
    refine KStream.Consumes.readUntil (readBulkEntry_consumes BulkPushEntry.mk)
      (fun _ => KStream.Consumes.isEof.andThen fun last => ?_) _ _ stream
    split
    · exact .pure _
    · exact .throw _ _
  exact entries.andThen fun _ => .pure _

/-- A bulk_push message takes nine bytes: its header and the type of an entry. -/
theorem Nano.read_bulkPush {bytes : List UInt8} {nano : Nano} {stop : KStream}
    (reads : Nano.read (.ofBytes bytes) = .ok nano stop)
    (push : nano.header.messageType = .bulkPush) : 9 ≤ bytes.length := by
  obtain ⟨header, middle, headerRead, rest⟩ := EStateM.bind_eq_ok reads
  obtain ⟨body, last, bodyRead, built⟩ := EStateM.bind_eq_ok rest
  cases built
  have isPush : Body.read header = (do return .bulkPush (← MsgBulkPush.read)) := by
    have messageType : header.messageType = .bulkPush := push
    rw [Body.read, messageType]
  rw [isPush] at bodyRead
  have front := MessageHeader.read_consumes _ _ _ headerRead
  have behind := (MsgBulkPush.read_consumes.andThen fun msg => .pure (Body.bulkPush msg)) _ _ _
    bodyRead
  simp only [KStream.ofBytes, Nat.zero_add] at front
  omega

end Nanocap
