import Nanocap.Foundation.Framing
import Nanocap.Protocol.Wire

/-! # Live messages

The bytes of the messages a node sends while it is live, and the parser that reads
them back, whatever follows them in the stream. -/

namespace Nanocap

/-! ## Records -/

def Peer.wire (peer : Peer) : List UInt8 :=
  peer.address.val ++ littleEndianBytes 2 peer.port.toNat

theorem Peer.codec : Codec Peer.read Peer.wire 18 fun _ => True :=
  .field Peer.address (.readBytes 16) fun _ =>
  .last Peer.port .readU2le (by simp) (by rintro _ ⟨-, rfl⟩; rfl)

def HashPair.wire (pair : HashPair) : List UInt8 := pair.first.val ++ pair.second.val

theorem HashPair.codec : Codec HashPair.read HashPair.wire 64 fun _ => True :=
  .field HashPair.first (.readBytes 32) fun _ =>
  .last HashPair.second (.readBytes 32) (by simp) (by rintro _ ⟨-, rfl⟩; rfl)

def VoteCommon.wire (common : VoteCommon) : List UInt8 :=
  common.account.val ++ (common.signature.val ++ littleEndianBytes 8 common.sequence.toNat)

theorem VoteCommon.codec : Codec VoteCommon.read VoteCommon.wire 104 fun _ => True :=
  .field VoteCommon.account (.readBytes 32) fun _ =>
  .field VoteCommon.signature (.readBytes 64) fun _ =>
  .last VoteCommon.sequence .readU8le (by simp) (by rintro _ ⟨⟨-, rfl⟩, rfl⟩; rfl)

def NodeIdQuery.wire (query : NodeIdQuery) : List UInt8 := query.cookie.val

theorem NodeIdQuery.codec : Codec NodeIdQuery.read NodeIdQuery.wire 32 fun _ => True :=
  .last NodeIdQuery.cookie (.readBytes 32) (by simp) (by rintro _ -; rfl)

def NodeIdResponse.wire (response : NodeIdResponse) : List UInt8 :=
  response.account.val ++ response.signature.val

theorem NodeIdResponse.codec :
    Codec NodeIdResponse.read NodeIdResponse.wire 96 fun _ => True :=
  .field NodeIdResponse.account (.readBytes 32) fun _ =>
  .last NodeIdResponse.signature (.readBytes 64) (by simp) (by rintro _ ⟨-, rfl⟩; rfl)

def MsgTelemetryAck.wire (msg : MsgTelemetryAck) : List UInt8 :=
  msg.signature.val ++ (msg.nodeid.val ++ (bigEndianBytes 8 msg.blockcount.toNat ++
    (bigEndianBytes 8 msg.cementedcount.toNat ++ (bigEndianBytes 8 msg.uncheckedcount.toNat ++
    (bigEndianBytes 8 msg.accountcount.toNat ++ (bigEndianBytes 8 msg.bandwidthcap.toNat ++
    (bigEndianBytes 8 msg.uptime.toNat ++ (bigEndianBytes 4 msg.peercount.toNat ++
    ([msg.protocolversion] ++ (msg.genesisblock.val ++ ([msg.majorversion] ++
    ([msg.minorversion] ++ ([msg.patchversion] ++ ([msg.prereleaseversion] ++ ([msg.maker] ++
    (bigEndianBytes 8 msg.timestamp.toNat ++
      bigEndianBytes 8 msg.activedifficulty.toNat))))))))))))))))

theorem MsgTelemetryAck.codec :
    Codec MsgTelemetryAck.read MsgTelemetryAck.wire 202 fun _ => True :=
  .field signature (.readBytes 64) fun _ => .field nodeid (.readBytes 32) fun _ =>
  .field blockcount .readU8be fun _ => .field cementedcount .readU8be fun _ =>
  .field uncheckedcount .readU8be fun _ => .field accountcount .readU8be fun _ =>
  .field bandwidthcap .readU8be fun _ => .field uptime .readU8be fun _ =>
  .field peercount .readU4be fun _ => .field protocolversion .readU1 fun _ =>
  .field genesisblock (.readBytes 32) fun _ => .field majorversion .readU1 fun _ =>
  .field minorversion .readU1 fun _ => .field patchversion .readU1 fun _ =>
  .field prereleaseversion .readU1 fun _ => .field maker .readU1 fun _ =>
  .field timestamp .readU8be fun _ => .last activedifficulty .readU8be (by simp)
    (by
      rintro ⟨⟩ valid
      simp only [true_and] at valid
      grind)

/-! ## Lists -/

section Lists

variable {α : Type} {item : Reader α} {wire : α → List UInt8} {size : Nat}
  (codec : Codec item wire size fun _ => True)
include codec

theorem length_flatMap_wire (items : List α) :
    (items.flatMap wire).length = items.length * size := by
  induction items with
  | nil => simp
  | cons head tail induction =>
      rw [List.flatMap_cons, List.length_append, codec.length head trivial, induction,
        List.length_cons]
      grind

/-- The loop that stops after `count` items reads exactly as many. -/
private theorem readUntil_wire (positive : 0 < size) (count : Nat) {items : List α}
    (some : items ≠ []) {fuel read : Nat} (enough : items.length ≤ fuel)
    (last : read + items.length = count) :
    KStream.Reads
      (KStream.readUntil item (fun i => do return i == count || (← KStream.isEof)) fuel read)
      (items.flatMap wire) items := by
  induction items generalizing fuel read with
  | nil => exact absurd rfl some
  | cons head tail induction =>
      obtain ⟨fuel, rfl⟩ := Nat.exists_eq_succ_of_ne_zero
        (Nat.ne_of_gt (Nat.lt_of_lt_of_le (Nat.succ_pos _) enough))
      simp only [List.length_cons] at enough last
      refine (codec.reads_wire head trivial).bind ?_
      cases tail with
      | nil =>
          have stops : (read + 1 == count) = true := beq_iff_eq.mpr last
          intro position rest
          simp only [stops]
          rfl
      | cons next tail =>
          have goesOn : (read + 1 == count) = false := by
            rw [beq_eq_false_iff_ne]
            simp only [List.length_cons] at last
            omega
          have more : (next :: tail).flatMap wire ≠ [] := by
            have length := length_flatMap_wire codec (next :: tail)
            rw [List.length_cons] at length
            intro empty
            rw [empty, List.length_nil, Nat.succ_mul] at length
            omega
          have rest := @induction (by simp) fuel (read + 1) (by omega) (by omega)
          simp only [goesOn]
          exact .notEof more (rest.map _)

private theorem doWhile_wire (positive : 0 < size) {items : List α} (some : items ≠ []) :
    KStream.Reads
      (KStream.doWhile item fun i => do return i == items.length || (← KStream.isEof))
      (items.flatMap wire) items := by
  intro position rest
  have length := length_flatMap_wire codec items
  refine readUntil_wire codec positive items.length some ?_ (Nat.zero_add _) position rest
  rw [List.length_append, length]
  have larger := Nat.le_mul_of_pos_right items.length positive
  omega

end Lists

/-! ## Bodies -/

def optionalWire {α : Type} (wire : α → List UInt8) : Option α → List UInt8
  | some part => wire part
  | none => []

def MsgKeepalive.wire (msg : MsgKeepalive) : List UInt8 :=
  optionalWire (List.flatMap Peer.wire) msg.peers

def ConfirmRequestByHash.wire (request : ConfirmRequestByHash) : List UInt8 :=
  optionalWire (List.flatMap HashPair.wire) request.pairs

def MsgConfirmReq.wire (msg : MsgConfirmReq) : List UInt8 :=
  optionalWire ConfirmRequestByHash.wire msg.reqbyhash ++ optionalWire BlockSelector.wire msg.block

def VoteByHash.wire (vote : VoteByHash) : List UInt8 :=
  optionalWire (List.flatMap fun hash : Bytes 32 => hash.val) vote.hashes

def MsgConfirmAck.wire (msg : MsgConfirmAck) : List UInt8 :=
  msg.common.wire ++
    (optionalWire VoteByHash.wire msg.votebyhash ++ optionalWire BlockSelector.wire msg.block)

def MsgNodeIdHandshake.wire (msg : MsgNodeIdHandshake) : List UInt8 :=
  optionalWire NodeIdQuery.wire msg.query ++ optionalWire NodeIdResponse.wire msg.response

def Body.wire : Body → List UInt8
  | keepalive msg => msg.wire
  | publish msg => msg.body.wire
  | confirmReq msg => msg.wire
  | confirmAck msg => msg.wire
  | nodeIdHandshake msg => msg.wire
  | telemetryAck msg => msg.wire
  | _ => []

inductive Body.Live (header : MessageHeader) : Body → Prop where
  | keepalive (peers : List Peer) : header.messageType = .keepalive → peers.length = 8 →
      Live header (.keepalive ⟨some peers⟩)
  | publish (block : Block) : header.messageType = .publish → header.blockType = block.type →
      Live header (.publish ⟨.known block⟩)
  | confirmReq (block : Block) : header.messageType = .confirmReq →
      header.blockType = block.type → Live header (.confirmReq ⟨none, some (.known block)⟩)
  | confirmReqByHash (pairs : List HashPair) : header.messageType = .confirmReq →
      header.blockType = .notABlock → pairs ≠ [] → pairs.length = header.itemCountInt →
      Live header (.confirmReq ⟨some ⟨some pairs⟩, none⟩)
  | confirmAck (common : VoteCommon) (block : Block) : header.messageType = .confirmAck →
      header.blockType = block.type →
      Live header (.confirmAck ⟨common, none, some (.known block)⟩)
  | confirmAckByHash (common : VoteCommon) (hashes : List (Bytes 32)) :
      header.messageType = .confirmAck → header.blockType = .notABlock → hashes ≠ [] →
      hashes.length = header.itemCountInt →
      Live header (.confirmAck ⟨common, some ⟨some hashes⟩, none⟩)
  | nodeIdHandshake (msg : MsgNodeIdHandshake) : header.messageType = .nodeIdHandshake →
      (msg.query.isSome ↔ header.queryFlag ≠ 0) →
      (msg.response.isSome ↔ header.responseFlag ≠ 0) →
      Live header (.nodeIdHandshake msg)
  | telemetryReq : header.messageType = .telemetryReq → Live header .telemetryReq
  | telemetryAck (msg : MsgTelemetryAck) : header.messageType = .telemetryAck →
      Live header (.telemetryAck msg)

def liveTypes : List EnumMsgtype :=
  [.keepalive, .publish, .confirmReq, .confirmAck, .nodeIdHandshake, .telemetryReq, .telemetryAck]

theorem Body.Live.messageType {header : MessageHeader} {body : Body} (live : body.Live header) :
    header.messageType ∈ liveTypes := by
  cases live <;> simp_all [liveTypes]

/-! ## Reading bodies -/

section Bodies

variable {header : MessageHeader}

theorem BlockSelector.reads_known {block : Block} (known : header.blockType = block.type) :
    KStream.Reads (BlockSelector.read header.blockTypeInt) block.wire (.known block) := by
  have value : header.blockTypeInt = block.type.toUInt8 := by
    rw [← known, MessageHeader.blockType, EnumBlocktype.toUInt8_ofUInt8]
  rw [value]
  exact block.selectorCodec.reads_wire (.known block) ⟨block, rfl, rfl⟩

theorem Block.not_notABlock {block : Block} (known : header.blockType = block.type) :
    header.blockType ≠ .notABlock := by
  rw [known]
  cases block <;> exact EnumBlocktype.noConfusion

theorem flatMap_wire_ne {α : Type} {item : Reader α} {wire : α → List UInt8} {size : Nat}
    (codec : Codec item wire size fun _ => True) (positive : 0 < size) {items : List α}
    (some : items ≠ []) : items.flatMap wire ≠ [] := by
  have length := length_flatMap_wire codec items
  have counts := List.length_pos_iff.mpr some
  intro empty
  rw [empty, List.length_nil] at length
  exact absurd length.symm (Nat.mul_ne_zero (by omega) (by omega))

theorem reads_items {α β : Type} {item : Reader α} {wire : α → List UInt8} {size : Nat}
    (codec : Codec item wire size fun _ => True) (positive : 0 < size) {items : List α}
    (some : items ≠ []) {count : Nat} (counted : items.length = count) (none : β)
    (build : List α → β) :
    KStream.Reads
      (do
        if ← KStream.isEof then return none
        return build (← KStream.doWhile item fun i => do return i == count || (← KStream.isEof)))
      (items.flatMap wire) (build items) := by
  subst counted
  exact .notEof (flatMap_wire_ne codec positive some) ((doWhile_wire codec positive some).map _)

theorem reads_flagged {α : Type} {reader : Reader α} {wire : α → List UInt8} {size : Nat}
    (codec : Codec reader wire size fun _ => True) {part : Option α} {flag : Prop} [Decidable flag]
    (present : part.isSome ↔ flag) :
    KStream.Reads (if flag then some <$> reader else pure none) (optionalWire wire part) part := by
  cases part with
  | some value =>
      rw [if_pos (present.mp rfl)]
      exact (codec.reads_wire value trivial).map some
  | none =>
      rw [if_neg fun set => absurd (present.mpr set) (by simp)]
      exact .pure none

theorem MsgNodeIdHandshake.read_eq (header : MessageHeader) :
    MsgNodeIdHandshake.read header =
      (if header.queryFlag ≠ 0 then some <$> NodeIdQuery.read else pure none) >>= fun query =>
        (if header.responseFlag ≠ 0 then some <$> NodeIdResponse.read else pure none) >>=
          fun response => pure (MsgNodeIdHandshake.mk query response) := by
  unfold MsgNodeIdHandshake.read
  by_cases query : header.queryFlag ≠ 0 <;> by_cases response : header.responseFlag ≠ 0 <;>
    simp only [query, response, if_true, if_false, ne_eq, not_false_eq_true]

theorem Body.Live.reads {body : Body} (live : body.Live header) :
    KStream.Reads (Body.read header) body.wire body := by
  cases live with
  | keepalive peers kind eight =>
      rw [Body.read, kind]
      have some : peers ≠ [] := by
        rintro rfl
        cases eight
      exact (reads_items Peer.codec (by decide) some eight ⟨none⟩
        (MsgKeepalive.mk ∘ Option.some)).map Body.keepalive
  | publish block kind known =>
      rw [Body.read, kind]
      exact ((BlockSelector.reads_known known).map MsgPublish.mk).map Body.publish
  | confirmReq block kind known =>
      rw [Body.read, kind, MsgConfirmReq.read, if_neg (Block.not_notABlock known)]
      exact ((BlockSelector.reads_known known).map fun block => ⟨none, some block⟩).map
        Body.confirmReq
  | confirmReqByHash pairs kind byHash some counted =>
      have request : KStream.Reads (ConfirmRequestByHash.read header)
          (pairs.flatMap HashPair.wire) ⟨Option.some pairs⟩ := by
        unfold ConfirmRequestByHash.read
        exact reads_items HashPair.codec (by decide) some counted ⟨none⟩
          (ConfirmRequestByHash.mk ∘ Option.some)
      have wire : (Body.confirmReq ⟨Option.some ⟨Option.some pairs⟩, none⟩).wire =
          pairs.flatMap HashPair.wire := List.append_nil _
      rw [Body.read, kind, MsgConfirmReq.read, if_pos byHash, wire]
      exact (request.map fun request => MsgConfirmReq.mk (Option.some request) none).map
        Body.confirmReq
  | confirmAck common block kind known =>
      have content := (BlockSelector.reads_known known).map fun block =>
        MsgConfirmAck.mk common none (some block)
      rw [Body.read, kind, MsgConfirmAck.read]
      simp only [if_neg (Block.not_notABlock known)]
      exact ((VoteCommon.codec.reads_wire common trivial).bind (by exact content)).map
        Body.confirmAck
  | confirmAckByHash common hashes kind byHash some counted =>
      have vote : KStream.Reads (VoteByHash.read header)
          (hashes.flatMap fun hash => hash.val) ⟨Option.some hashes⟩ := by
        unfold VoteByHash.read
        exact reads_items (Codec.readBytes 32) (by decide) some counted ⟨none⟩
          (VoteByHash.mk ∘ Option.some)
      have content := vote.map fun vote => MsgConfirmAck.mk common (Option.some vote) none
      have wire : (Body.confirmAck ⟨common, Option.some ⟨Option.some hashes⟩, none⟩).wire =
          common.wire ++ hashes.flatMap fun hash => hash.val :=
        congrArg (common.wire ++ ·) (List.append_nil _)
      rw [Body.read, kind, MsgConfirmAck.read, wire]
      simp only [if_pos byHash]
      exact ((VoteCommon.codec.reads_wire common trivial).bind (by exact content)).map
        Body.confirmAck
  | nodeIdHandshake msg kind query response =>
      have parts : KStream.Reads (MsgNodeIdHandshake.read header) msg.wire msg := by
        rw [MsgNodeIdHandshake.read_eq]
        refine (reads_flagged NodeIdQuery.codec query).bind ?_
        exact (reads_flagged NodeIdResponse.codec response).map (MsgNodeIdHandshake.mk msg.query)
      rw [Body.read, kind]
      exact parts.map Body.nodeIdHandshake
  | telemetryReq kind =>
      rw [Body.read, kind]
      exact .pure Body.telemetryReq
  | telemetryAck msg kind =>
      rw [Body.read, kind]
      exact (MsgTelemetryAck.codec.reads_wire _ trivial).map Body.telemetryAck

end Bodies

/-! ## Whole messages -/

def Nano.wire (nano : Nano) : List UInt8 := nano.header.wire ++ nano.body.wire

def Nano.Live (nano : Nano) : Prop := nano.body.Live nano.header

theorem MessageHeader.reads {header : MessageHeader}
    (known : EnumMsgtype.ofUInt8 header.messageType.toUInt8 = header.messageType) :
    KStream.Reads MessageHeader.read header.wire header := by
  have magic : KStream.Reads (KStream.ensureFixedContents headerMagic) headerMagic.val
      headerMagic := by
    have compare : KStream.Reads (if headerMagic = headerMagic then pure headerMagic
        else throw .runtimeError : Reader (Bytes 1)) [] headerMagic := .pure headerMagic
    have read := ((Codec.readBytes 1).reads_wire headerMagic trivial).bind compare
    rwa [List.append_nil] at read
  have byte : ∀ value, KStream.Reads KStream.readU1 [value] value := fun _ _ _ => rfl
  have last := (Codec.readU2le.reads_wire header.extensions trivial).map
    fun extensions => MessageHeader.mk header.networkId header.versionMax header.versionUsing
      header.versionMin (.ofUInt8 header.messageType.toUInt8) extensions
  rw [known] at last
  exact magic.bind ((byte _).bind ((byte _).bind ((byte _).bind ((byte _).bind
    ((byte header.messageType.toUInt8).bind (by rw [known]; exact last))))))

theorem Nano.Live.known {nano : Nano} (live : nano.Live) :
    EnumMsgtype.ofUInt8 nano.header.messageType.toUInt8 = nano.header.messageType := by
  have types : ∀ messageType ∈ liveTypes,
      EnumMsgtype.ofUInt8 messageType.toUInt8 = messageType := by decide
  exact types _ (Body.Live.messageType live)

theorem Nano.Live.reads {nano : Nano} (live : nano.Live) :
    KStream.Reads Nano.read nano.wire nano := by
  have body := (Body.Live.reads live).map fun body => Nano.mk nano.header body
  exact (MessageHeader.reads live.known).bind (by exact body)

/-! ## Blank messages -/

theorem MessageHeader.itemCountInt_lt (header : MessageHeader) : header.itemCountInt < 16 := by
  unfold MessageHeader.itemCountInt
  rw [UInt16.toNat_shiftRight, UInt16.toNat_and, Nat.shiftRight_eq_div_pow]
  have masked : header.extensions.toNat &&& (61440 : UInt16).toNat ≤ 61440 := Nat.and_le_right
  exact Nat.div_lt_of_lt_mul (Nat.lt_of_le_of_lt masked (by decide))

structure Nano.SameForm (nano other : Nano) : Prop where
  live : other.Live
  messageType : other.header.messageType = nano.header.messageType
  length : other.wire.length = nano.wire.length

/-- A message of the same form, in which the magic byte stands only in front. -/
structure Nano.Blank (nano blank : Nano) : Prop extends nano.SameForm blank where
  marked : Framing.Marked 0x52 blank.wire

section Blank

variable {header : MessageHeader}

theorem Nano.Blank.of_zeros {body blank : Body} {extensions : UInt16}
    (quiet : 0x52 ∉ (MessageHeader.sample header.messageType extensions).wire.tail)
    (live : blank.Live (MessageHeader.sample header.messageType extensions))
    (length : blank.wire.length = body.wire.length) (zero : ∀ byte ∈ blank.wire, byte = 0) :
    Nano.Blank ⟨header, body⟩
      ⟨MessageHeader.sample header.messageType extensions, blank⟩ := by
  refine ⟨⟨live, rfl, ?_⟩,
    (MessageHeader.sample header.messageType extensions).wire.tail ++ blank.wire, rfl, ?_⟩
  · rw [Nano.wire, Nano.wire, List.length_append, List.length_append, length,
      MessageHeader.length_wire, MessageHeader.length_wire]
  · intro member
    rcases List.mem_append.mp member with member | member
    · exact quiet member
    · exact absurd (zero _ member) (by decide)

def Block.extensions (block : Block) : UInt16 := block.type.toUInt8.toUInt16 <<< 8

theorem Block.exists_blank (block : Block) :
    ∃ blank : Block, blank.type = block.type ∧ blank.wire.length = block.wire.length ∧
      ∀ byte ∈ blank.wire, byte = 0 := by
  obtain ⟨_, ⟨blank, rfl, typed⟩, length, zero⟩ := block.selectorCodec.exists_zero
  exact ⟨blank, typed, length, zero⟩

def byHashExtensions (count : Nat) : UInt16 := .ofNat (256 + 4096 * count)

theorem byHashExtensions_spec : ∀ count < 16, ∀ messageType ∈ liveTypes,
    let header := MessageHeader.sample messageType (byHashExtensions count)
    header.blockType = .notABlock ∧ header.itemCountInt = count ∧ 0x52 ∉ header.wire.tail := by
  decide

theorem Block.extensions_spec (block : Block) : ∀ messageType ∈ liveTypes,
    let header := MessageHeader.sample messageType block.extensions
    header.blockType = block.type ∧ 0x52 ∉ header.wire.tail := by
  cases block <;> simp only [Block.extensions, Block.type] <;> decide

theorem exists_zero_items {α : Type} {item : Reader α} {wire : α → List UInt8} {size : Nat}
    (codec : Codec item wire size fun _ => True) (items : List α) :
    ∃ blanks : List α, blanks.length = items.length ∧
      (blanks.flatMap wire).length = (items.flatMap wire).length ∧
      ∀ byte ∈ blanks.flatMap wire, byte = 0 := by
  obtain ⟨blank, -, -, zero⟩ := codec.exists_zero
  refine ⟨List.replicate items.length blank, List.length_replicate, ?_, fun byte member => ?_⟩
  · rw [length_flatMap_wire codec, length_flatMap_wire codec, List.length_replicate]
  · obtain ⟨other, isBlank, inside⟩ := List.mem_flatMap.mp member
    rw [List.eq_of_mem_replicate isBlank] at inside
    exact zero byte inside

theorem exists_zero_part {α : Type} {reader : Reader α} {wire : α → List UInt8} {size : Nat}
    (codec : Codec reader wire size fun _ => True) (part : Option α) :
    ∃ blank : Option α, blank.isSome = part.isSome ∧
      (optionalWire wire blank).length = (optionalWire wire part).length ∧
      ∀ byte ∈ optionalWire wire blank, byte = 0 := by
  cases part with
  | none => exact ⟨none, rfl, rfl, by simp [optionalWire]⟩
  | some value =>
      obtain ⟨blank, -, length, zero⟩ := codec.exists_zero
      exact ⟨some blank, rfl, length.trans (codec.length value trivial).symm, zero⟩

def handshakeExtensions (query response : Bool) : UInt16 :=
  (if query then 1 else 0) + (if response then 2 else 0)

private theorem handshakeExtensions_spec : ∀ query response,
    let header := MessageHeader.sample .nodeIdHandshake (handshakeExtensions query response)
    (query ↔ header.queryFlag ≠ 0) ∧ (response ↔ header.responseFlag ≠ 0) ∧
      0x52 ∉ header.wire.tail := by
  decide

theorem Nano.Live.exists_blank {nano : Nano} (live : nano.Live) :
    ∃ blank, nano.Blank blank := by
  obtain ⟨header, body⟩ := nano
  have kind := Body.Live.messageType live
  have quiet : ∀ messageType ∈ liveTypes,
      0x52 ∉ (MessageHeader.sample messageType 0).wire.tail := by decide
  cases live with
  | keepalive peers type eight =>
      obtain ⟨blanks, same, length, zero⟩ := exists_zero_items Peer.codec peers
      exact ⟨_, .of_zeros (quiet _ kind) (.keepalive blanks type (same.trans eight)) length zero⟩
  | publish block type known =>
      obtain ⟨blank, same, length, zero⟩ := block.exists_blank
      obtain ⟨announced, free⟩ := block.extensions_spec _ kind
      exact ⟨_, .of_zeros free (.publish blank type (announced.trans same.symm)) length zero⟩
  | confirmReq block type known =>
      obtain ⟨blank, same, length, zero⟩ := block.exists_blank
      obtain ⟨announced, free⟩ := block.extensions_spec _ kind
      exact ⟨_, .of_zeros free (.confirmReq blank type (announced.trans same.symm)) length zero⟩
  | confirmReqByHash pairs type byHash some counted =>
      obtain ⟨blanks, same, length, zero⟩ := exists_zero_items HashPair.codec pairs
      obtain ⟨announced, count, free⟩ :=
        byHashExtensions_spec pairs.length (counted ▸ header.itemCountInt_lt) _ kind
      have many : blanks ≠ [] := fun empty => some (List.length_eq_zero_iff.mp (by
        rw [← same, empty, List.length_nil]))
      refine ⟨_, .of_zeros free
        (.confirmReqByHash blanks type announced many (same.trans count.symm)) ?_ ?_⟩
      · simpa [Body.wire, MsgConfirmReq.wire, ConfirmRequestByHash.wire, optionalWire] using length
      · simpa [Body.wire, MsgConfirmReq.wire, ConfirmRequestByHash.wire, optionalWire] using zero
  | confirmAck common block type known =>
      obtain ⟨blankCommon, -, commonLength, commonZero⟩ := VoteCommon.codec.exists_zero
      obtain ⟨blank, same, length, zero⟩ := block.exists_blank
      obtain ⟨announced, free⟩ := block.extensions_spec _ kind
      refine ⟨_, .of_zeros free
        (.confirmAck blankCommon blank type (announced.trans same.symm)) ?_ ?_⟩
      · rw [← VoteCommon.codec.length common trivial] at commonLength
        simp [Body.wire, MsgConfirmAck.wire, optionalWire, BlockSelector.wire, commonLength, length]
      · simp only [Body.wire, MsgConfirmAck.wire, List.mem_append]
        rintro byte (member | member | member)
        · exact commonZero byte member
        · cases member
        · exact zero byte member
  | confirmAckByHash common hashes type byHash some counted =>
      obtain ⟨blankCommon, -, commonLength, commonZero⟩ := VoteCommon.codec.exists_zero
      obtain ⟨blanks, same, length, zero⟩ := exists_zero_items (Codec.readBytes 32) hashes
      obtain ⟨announced, count, free⟩ :=
        byHashExtensions_spec hashes.length (counted ▸ header.itemCountInt_lt) _ kind
      have many : blanks ≠ [] := fun empty => some (List.length_eq_zero_iff.mp (by
        rw [← same, empty, List.length_nil]))
      refine ⟨_, .of_zeros free
        (.confirmAckByHash blankCommon blanks type announced many (same.trans count.symm)) ?_ ?_⟩
      · rw [← VoteCommon.codec.length common trivial] at commonLength
        simp only [Body.wire, MsgConfirmAck.wire, VoteByHash.wire, optionalWire,
          List.length_append, commonLength, length]
      · simp only [Body.wire, MsgConfirmAck.wire, List.mem_append]
        rintro byte (member | member | member)
        · exact commonZero byte member
        · exact zero byte member
        · cases member
  | nodeIdHandshake msg type query response =>
      obtain ⟨blankQuery, sameQuery, queryLength, queryZero⟩ :=
        exists_zero_part NodeIdQuery.codec msg.query
      obtain ⟨blankResponse, sameResponse, responseLength, responseZero⟩ :=
        exists_zero_part NodeIdResponse.codec msg.response
      obtain ⟨queries, responds, free⟩ :=
        handshakeExtensions_spec msg.query.isSome msg.response.isSome
      rw [← type] at queries responds free
      refine ⟨_, .of_zeros free (.nodeIdHandshake ⟨blankQuery, blankResponse⟩ type
        (sameQuery ▸ queries) (sameResponse ▸ responds)) ?_ ?_⟩
      · simp only [Body.wire, MsgNodeIdHandshake.wire, List.length_append, queryLength,
          responseLength]
      · simp only [Body.wire, MsgNodeIdHandshake.wire, List.mem_append]
        rintro byte (member | member)
        · exact queryZero byte member
        · exact responseZero byte member
  | telemetryReq type =>
      exact ⟨_, .of_zeros (quiet _ kind) (.telemetryReq type) rfl (by simp [Body.wire])⟩
  | telemetryAck msg type =>
      obtain ⟨blank, -, length, zero⟩ := MsgTelemetryAck.codec.exists_zero
      exact ⟨_, .of_zeros (quiet _ kind) (.telemetryAck blank type)
        (length.trans (MsgTelemetryAck.codec.length msg trivial).symm) zero⟩

end Blank

end Nanocap
