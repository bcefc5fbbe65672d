import Nanocap.Kaitai.Grammar
import Nanocap.Protocol.Messages

/-! # The grammar of the messages

The parser reads a message if and only if its bytes are there. What it reads last may
depend on the end of the segment: a list that stops there, a block or a message of a
type it does not know. -/

namespace Nanocap

/-! ## Lists and ignored bytes -/

/-- A list that is read up to `count` items or the end of the stream. It is absent
when the stream has ended in front of it. -/
def ListedUpTo {α : Type} (count : Nat) (rest : List UInt8) : Option (List α) → Prop
  | none => rest = []
  | some items =>
      items ≠ [] ∧ (items.length = count ∨ rest = []) ∧ (items.length ≤ count ∨ count = 0)

def IgnoredUpToEof (rest : List UInt8) (empty : Option (List UInt8)) : Prop :=
  rest = [] ∧ empty ≠ some []

def BlockSelector.WellFormed (argBlockType : UInt8) (rest : List UInt8) : BlockSelector → Prop
  | known block => EnumBlocktype.ofUInt8 argBlockType = block.type
  | ignored blockType empty =>
      blockType = argBlockType ∧ (EnumBlocktype.ofUInt8 argBlockType).blockSize = none ∧
        IgnoredUpToEof rest empty

section Lists

variable {α : Type} {item : Reader α} {wire : α → List UInt8} {size : Nat}
  (codec : Codec item wire size fun _ => True) (positive : 0 < size)
include codec positive

private theorem grammar_list (count : Nat) :
    Grammar (KStream.doWhile item fun read => do return read == count || (← KStream.isEof))
      (List.flatMap wire) fun items rest => ListedUpTo count rest (some items) := by
  have takes : ∀ value, wire value ≠ [] := fun value empty => by
    have length := codec.length value trivial
    rw [empty] at length
    exact absurd length (Nat.ne_of_lt positive)
  refine (Grammar.overRest codec.grammar (Grammar.countOrEof count)
    fun value _ _ => takes value).congr fun items rest => ?_
  rw [loopItems_countOrEof takes, ListedUpTo, Nat.zero_add, Nat.le_zero]

theorem grammar_items {β : Type} (count : Nat) (build : Option (List α) → β)
    {listed : β → Option (List α)} (builds : ∀ items, listed (build items) = items)
    (all : ∀ record, build (listed record) = record) :
    Grammar
      (do
        if ← KStream.isEof then return build none
        return build (some (← KStream.doWhile item fun read => do
          return read == count || (← KStream.isEof))))
      (fun record => optionalWire (List.flatMap wire) (listed record))
      fun record rest => ListedUpTo count rest (listed record) := by
  have ended : Grammar (pure (build none))
      (fun record => optionalWire (List.flatMap wire) (listed record))
      fun record _ => record = build none := .pure _ _ (by rw [builds]; rfl)
  have more : Grammar _ (fun record => optionalWire (List.flatMap wire) (listed record)) _ :=
    (grammar_list codec positive count).wrap (fun items => build (some items))
      fun items => by rw [builds]; rfl
  refine (ended.isEof more).congr fun record rest => ?_
  obtain ⟨items, rfl⟩ : ∃ items, record = build items := ⟨listed record, (all record).symm⟩
  have same : ∀ other, build items = build other ↔ items = other := fun other =>
    ⟨fun equal => by rw [← builds items, equal, builds], fun equal => equal ▸ rfl⟩
  simp only [builds, same]
  cases items with
  | none => simp [optionalWire, ListedUpTo]
  | some items =>
      by_cases empty : items = []
      · simp [empty, ListedUpTo]
      · have more := flatMap_wire_ne codec positive empty
        simp [optionalWire, more]

end Lists

theorem readIgnoreUntilEof_grammar :
    Grammar readIgnoreUntilEof (fun empty => empty.getD []) fun empty rest =>
      IgnoredUpToEof rest empty := by
  have ended : Grammar (pure none) (fun empty : Option (List UInt8) => empty.getD [])
      fun empty _ => empty = none := .pure none _ rfl
  have bytes := (Grammar.overRest Codec.readU1.grammar (fun _ => Grammar.eof) (by simp)).congr
    fun bytes rest => (loopItems_eof (by simp) (by simp) 0 bytes rest).symm
  have more : Grammar _ (fun empty : Option (List UInt8) => empty.getD []) _ :=
    bytes.wrap Option.some (by simp)
  refine (ended.isEof more).congr fun empty rest => ?_
  cases empty with
  | none => simp [IgnoredUpToEof]
  | some bytes => by_cases nothing : bytes = [] <;> simp [IgnoredUpToEof, nothing]

theorem BlockSelector.grammar (argBlockType : UInt8) :
    Grammar (BlockSelector.read argBlockType) BlockSelector.wire fun selector rest =>
      selector.WellFormed argBlockType rest := by
  cases kind : (EnumBlocktype.ofUInt8 argBlockType).blockSize with
  | some size =>
      refine (BlockSelector.codec kind).grammar.congr fun selector rest => ?_
      cases selector with
      | known block => simp [WellFormed, Holds, eq_comm]
      | ignored blockType empty => simp [WellFormed, Holds, kind]
  | none =>
      rw [BlockSelector.read_of_unknown kind]
      refine (readIgnoreUntilEof_grammar.wrap (BlockSelector.ignored argBlockType)
        fun _ => rfl).congr fun selector rest => ?_
      cases selector with
      | known block =>
          have unlike : EnumBlocktype.ofUInt8 argBlockType ≠ block.type := fun same => by
            rw [same, Block.blockSize_type] at kind
            cases kind
          simp [WellFormed, unlike]
      | ignored blockType empty => simp [WellFormed, kind]

/-! ## Records -/

private theorem headerMagic_grammar :
    Grammar (KStream.ensureFixedContents headerMagic) (fun bytes => bytes.val) fun bytes _ =>
      bytes = headerMagic := by
  have compared (actual : Bytes 1) :
      Grammar (if actual = headerMagic then pure actual else throw .runtimeError)
        (fun _ => []) fun bytes _ => bytes = headerMagic ∧ bytes = actual := by
    split
    · rename_i same
      exact (Grammar.pure actual _ rfl).congr fun bytes rest => by simp [same]
    · rename_i different
      exact (Grammar.throw _ _).congr fun bytes rest => by
        simp only [iff_false, not_and]
        exact fun magic read => different (read ▸ magic)
  have read := (Codec.readBytes 1).grammar.field id fun actual _ _ => compared actual
  simp only [id, List.append_nil, true_and] at read
  exact read

/-- A message type stands for the byte it is read from. -/
def MessageHeader.WellFormed (header : MessageHeader) : Prop :=
  EnumMsgtype.ofUInt8 header.messageType.toUInt8 = header.messageType

theorem MessageHeader.grammar :
    Grammar MessageHeader.read MessageHeader.wire fun header _ => header.WellFormed := by
  have fields : Codec
      (do
        let networkId ← KStream.readU1
        let versionMax ← KStream.readU1
        let versionUsing ← KStream.readU1
        let versionMin ← KStream.readU1
        let messageType ← KStream.readU1
        let extensions ← KStream.readU2le
        return { networkId, versionMax, versionUsing, versionMin,
                 messageType := .ofUInt8 messageType, extensions })
      (fun header : MessageHeader => [header.networkId] ++ ([header.versionMax] ++
        ([header.versionUsing] ++ ([header.versionMin] ++ ([header.messageType.toUInt8] ++
          littleEndianBytes 2 header.extensions.toNat)))))
      7 WellFormed :=
    .field networkId .readU1 fun _ => .field versionMax .readU1 fun _ =>
    .field versionUsing .readU1 fun _ => .field versionMin .readU1 fun _ =>
    .field (fun header => header.messageType.toUInt8) .readU1 fun _ =>
    .last extensions .readU2le (by simp [WellFormed]) (by
      rintro ⟨_, _, _, _, messageType, _⟩ ⟨⟨⟨⟨⟨known, rfl⟩, rfl⟩, rfl⟩, rfl⟩, rfl⟩
      exact congrArg (MessageHeader.mk _ _ _ _ · _) known)
  have whole : Grammar MessageHeader.read MessageHeader.wire fun header _ =>
      headerMagic = headerMagic ∧ header.WellFormed :=
    headerMagic_grammar.field (fun _ => headerMagic) fun magic _ read =>
      fields.grammar.congr fun header rest => by rw [read]; simp
  exact whole.congr fun header rest => by simp

def ExtendedParameters.wire (parameters : ExtendedParameters) : List UInt8 :=
  [parameters.zero] ++ (littleEndianBytes 4 parameters.count.toNat ++ parameters.reserved.val)

theorem ExtendedParameters.codec :
    Codec ExtendedParameters.read ExtendedParameters.wire 8 fun _ => True :=
  .field ExtendedParameters.zero .readU1 fun _ =>
  .field ExtendedParameters.count .readU4le fun _ =>
  .last ExtendedParameters.reserved (.readBytes 3) (by simp) (by rintro _ ⟨⟨-, rfl⟩, rfl⟩; rfl)

def MsgBulkPull.wire (msg : MsgBulkPull) : List UInt8 :=
  msg.start.val ++ (msg.stop.val ++ optionalWire ExtendedParameters.wire msg.extended)

def MsgBulkPullAccount.wire (msg : MsgBulkPullAccount) : List UInt8 :=
  msg.account.val ++ (msg.minimumAmount.val ++ [msg.flags])

theorem MsgBulkPullAccount.codec :
    Codec MsgBulkPullAccount.read MsgBulkPullAccount.wire 49 fun _ => True :=
  .field MsgBulkPullAccount.account (.readBytes 32) fun _ =>
  .field MsgBulkPullAccount.minimumAmount (.readBytes 16) fun _ =>
  .last MsgBulkPullAccount.flags .readU1 (by simp) (by rintro _ ⟨⟨-, rfl⟩, rfl⟩; rfl)

def MsgFrontierReq.wire (msg : MsgFrontierReq) : List UInt8 :=
  msg.start.val ++ (littleEndianBytes 4 msg.age.toNat ++ littleEndianBytes 4 msg.count.toNat)

theorem MsgFrontierReq.codec :
    Codec MsgFrontierReq.read MsgFrontierReq.wire 40 fun _ => True :=
  .field MsgFrontierReq.start (.readBytes 32) fun _ =>
  .field MsgFrontierReq.age .readU4le fun _ =>
  .last MsgFrontierReq.count .readU4le (by simp) (by rintro _ ⟨⟨-, rfl⟩, rfl⟩; rfl)

def BulkPushEntry.wire (entry : BulkPushEntry) : List UInt8 :=
  [entry.blockType] ++ entry.block.wire

theorem BulkPushEntry.grammar :
    Grammar BulkPushEntry.read BulkPushEntry.wire fun entry rest =>
      entry.block.WellFormed entry.blockType rest := by
  have block (blockType : UInt8) :
      Grammar
        (BlockSelector.read blockType >>= fun block => pure (BulkPushEntry.mk blockType block))
        (fun entry => entry.block.wire) fun entry rest =>
          entry.block.WellFormed entry.blockType rest ∧ entry.blockType = blockType := by
    refine ((BlockSelector.grammar blockType).wrap (BulkPushEntry.mk blockType)
      fun _ => rfl).congr fun entry rest => ?_
    constructor
    · rintro ⟨holds, rfl⟩
      exact ⟨entry.block, rfl, holds⟩
    · rintro ⟨block, rfl, holds⟩
      exact ⟨holds, rfl⟩
  exact .front BulkPushEntry.blockType .readU1 block

theorem grammar_flagged {α : Type} {reader : Reader α} {wire : α → List UInt8} {size : Nat}
    (codec : Codec reader wire size fun _ => True) (flag : Prop) [Decidable flag] :
    Grammar (if flag then some <$> reader else pure none) (optionalWire wire) fun part _ =>
      (part.isSome ↔ flag) := by
  split
  · rename_i set
    refine (codec.grammar.wrap some fun _ => rfl).congr fun part rest => ?_
    cases part <;> simp [set]
  · rename_i unset
    refine (Grammar.pure none _ rfl).congr fun part rest => ?_
    cases part <;> simp [unset]

/-! ## Bodies -/

def MsgConfirmReq.WellFormed (header : MessageHeader) (rest : List UInt8) (msg : MsgConfirmReq) :
    Prop :=
  if header.blockType = .notABlock then
    ∃ request, msg = ⟨some request, none⟩ ∧ ListedUpTo header.itemCountInt rest request.pairs
  else ∃ block, msg = ⟨none, some block⟩ ∧ block.WellFormed header.blockTypeInt rest

theorem MsgConfirmReq.grammar (header : MessageHeader) :
    Grammar (MsgConfirmReq.read header) MsgConfirmReq.wire fun msg rest =>
      msg.WellFormed header rest := by
  unfold MsgConfirmReq.read WellFormed
  split
  · have request : Grammar (ConfirmRequestByHash.read header) ConfirmRequestByHash.wire
        fun request rest => ListedUpTo header.itemCountInt rest request.pairs :=
      grammar_items HashPair.codec (by decide) header.itemCountInt ConfirmRequestByHash.mk
        (fun _ => rfl) fun _ => rfl
    exact request.wrap (fun request => MsgConfirmReq.mk (some request) none)
      fun _ => List.append_nil _
  · exact (BlockSelector.grammar header.blockTypeInt).wrap
      (fun block => MsgConfirmReq.mk none (some block)) fun _ => rfl

def MsgConfirmAck.WellFormed (header : MessageHeader) (rest : List UInt8) (msg : MsgConfirmAck) :
    Prop :=
  if header.blockType = .notABlock then
    ∃ vote, msg = ⟨msg.common, some vote, none⟩ ∧ ListedUpTo header.itemCountInt rest vote.hashes
  else ∃ block, msg = ⟨msg.common, none, some block⟩ ∧ block.WellFormed header.blockTypeInt rest

theorem MsgConfirmAck.grammar (header : MessageHeader) :
    Grammar (MsgConfirmAck.read header) MsgConfirmAck.wire fun msg rest =>
      msg.WellFormed header rest := by
  have content (common : VoteCommon) :
      Grammar
        (if header.blockType = .notABlock then do
          return MsgConfirmAck.mk common (some (← VoteByHash.read header)) none
        else do
          return MsgConfirmAck.mk common none (some (← BlockSelector.read header.blockTypeInt)))
        (fun msg => optionalWire VoteByHash.wire msg.votebyhash ++
          optionalWire BlockSelector.wire msg.block)
        fun msg rest => msg.WellFormed header rest ∧ msg.common = common := by
    unfold WellFormed
    split
    · have vote : Grammar (VoteByHash.read header) VoteByHash.wire fun vote rest =>
          ListedUpTo header.itemCountInt rest vote.hashes :=
        grammar_items (Codec.readBytes 32) (by decide) header.itemCountInt VoteByHash.mk
          (fun _ => rfl) fun _ => rfl
      refine (vote.wrap (fun vote => MsgConfirmAck.mk common (some vote) none)
        fun _ => List.append_nil _).congr fun msg rest => ?_
      constructor
      · rintro ⟨⟨vote, same, listed⟩, rfl⟩
        exact ⟨vote, same, listed⟩
      · rintro ⟨vote, rfl, listed⟩
        exact ⟨⟨vote, rfl, listed⟩, rfl⟩
    · refine ((BlockSelector.grammar header.blockTypeInt).wrap
        (fun block => MsgConfirmAck.mk common none (some block))
        fun _ => rfl).congr fun msg rest => ?_
      constructor
      · rintro ⟨⟨block, same, holds⟩, rfl⟩
        exact ⟨block, same, holds⟩
      · rintro ⟨block, rfl, holds⟩
        exact ⟨⟨block, rfl, holds⟩, rfl⟩
  exact .front MsgConfirmAck.common VoteCommon.codec content

theorem MsgBulkPull.grammar (header : MessageHeader) :
    Grammar (MsgBulkPull.read header) MsgBulkPull.wire fun msg _ =>
      (msg.extended.isSome ↔ header.extendedParamsPresent ≠ 0) := by
  have extended (start stop : Bytes 32) :
      Grammar
        (if header.extendedParamsPresent ≠ 0 then do
          return MsgBulkPull.mk start stop (some (← ExtendedParameters.read))
        else
          return MsgBulkPull.mk start stop none)
        (fun msg => optionalWire ExtendedParameters.wire msg.extended)
        fun msg _ => ((msg.extended.isSome ↔ header.extendedParamsPresent ≠ 0) ∧
          msg.start = start) ∧ msg.stop = stop := by
    split
    · rename_i present
      refine (ExtendedParameters.codec.grammar.wrap
        (fun parameters => MsgBulkPull.mk start stop (some parameters)) fun _ => rfl).congr
          fun ⟨_, _, extended⟩ rest => ?_
      cases extended <;> simp [present]
    · rename_i absent
      refine (Grammar.pure (MsgBulkPull.mk start stop none) _ rfl).congr
        fun ⟨_, _, extended⟩ rest => ?_
      cases extended <;> simp [absent]
  exact .front MsgBulkPull.start (.readBytes 32) fun start =>
    .front MsgBulkPull.stop (.readBytes 32) fun stop => extended start stop

def MsgBulkPush.wire (msg : MsgBulkPush) : List UInt8 := msg.entry.flatMap BulkPushEntry.wire

/-- The loop of the parser never gets to a second entry. -/
theorem MsgBulkPush.grammar :
    Grammar MsgBulkPush.read MsgBulkPush.wire fun msg rest =>
      ∃ entry, msg = ⟨[entry]⟩ ∧ entry.block.WellFormed entry.blockType rest ∧ rest = [] := by
  have stops : Grammar (KStream.isEof >>= fun ended =>
      if ended = true then pure true else throw .outOfRange)
      (fun _ => []) fun last rest => last = true ∧ rest = [] := by
    have asked : Grammar (KStream.isEof >>= fun ended =>
        if ended = true then pure true else throw .outOfRange) (fun _ => []) _ :=
      .isEof (.pure true _ rfl) (.throw _ _)
    refine asked.congr fun last rest => ?_
    by_cases ended : rest = [] <;> simp [ended]
  have entries := (Grammar.overRest BulkPushEntry.grammar (fun _ => stops)
    fun entry rest _ => List.cons_ne_nil _ _).congr
      fun entries rest => (loopItems_single 0 entries rest).symm
  have read : Grammar MsgBulkPush.read MsgBulkPush.wire _ :=
    entries.wrap MsgBulkPush.mk fun _ => rfl
  refine read.congr fun msg rest => ?_
  constructor
  · rintro ⟨entry, rfl, holds⟩
    exact ⟨[entry], rfl, entry, rfl, holds⟩
  · rintro ⟨_, rfl, entry, rfl, holds⟩
    exact ⟨entry, rfl, holds⟩

theorem MsgNodeIdHandshake.grammar (header : MessageHeader) :
    Grammar (MsgNodeIdHandshake.read header) MsgNodeIdHandshake.wire fun msg _ =>
      (msg.query.isSome ↔ header.queryFlag ≠ 0) ∧
        (msg.response.isSome ↔ header.responseFlag ≠ 0) := by
  have response (query : Option NodeIdQuery) :
      Grammar
        ((if header.responseFlag ≠ 0 then some <$> NodeIdResponse.read else pure none) >>=
          fun response => pure (MsgNodeIdHandshake.mk query response))
        (fun msg => optionalWire NodeIdResponse.wire msg.response)
        fun msg _ => (msg.response.isSome ↔ header.responseFlag ≠ 0) ∧ msg.query = query := by
    refine ((grammar_flagged NodeIdResponse.codec (header.responseFlag ≠ 0)).wrap
      (MsgNodeIdHandshake.mk query) fun _ => rfl).congr fun msg rest => ?_
    constructor
    · rintro ⟨present, rfl⟩
      exact ⟨msg.response, rfl, present⟩
    · rintro ⟨response, rfl, present⟩
      exact ⟨present, rfl⟩
  rw [MsgNodeIdHandshake.read_eq]
  exact (grammar_flagged NodeIdQuery.codec (header.queryFlag ≠ 0)).field MsgNodeIdHandshake.query
    fun query _ _ => response query

def Body.bytes : Body → List UInt8
  | bulkPull msg => msg.wire
  | bulkPush msg => msg.wire
  | frontierReq msg => msg.wire
  | bulkPullBlocks blockType => [blockType]
  | bulkPullAccount msg => msg.wire
  | ignored empty => empty.getD []
  | body => body.wire

/-- The types that `nano_t` reads no body for. -/
def EnumMsgtype.HasNoBody : EnumMsgtype → Prop
  | invalid | notAType | unknown _ => True
  | _ => False

/-- A body of the type the header tells, in front of what follows in the segment. -/
def Body.WellFormed (header : MessageHeader) (rest : List UInt8) : Body → Prop
  | keepalive msg => header.messageType = .keepalive ∧ ListedUpTo 8 rest msg.peers
  | publish msg =>
      header.messageType = .publish ∧ msg.body.WellFormed header.blockTypeInt rest
  | confirmReq msg => header.messageType = .confirmReq ∧ msg.WellFormed header rest
  | confirmAck msg => header.messageType = .confirmAck ∧ msg.WellFormed header rest
  | bulkPull msg =>
      header.messageType = .bulkPull ∧ (msg.extended.isSome ↔ header.extendedParamsPresent ≠ 0)
  | bulkPush msg =>
      header.messageType = .bulkPush ∧
        ∃ entry, msg = ⟨[entry]⟩ ∧ entry.block.WellFormed entry.blockType rest ∧ rest = []
  | frontierReq _ => header.messageType = .frontierReq
  | bulkPullBlocks _ => header.messageType = .bulkPullBlocks
  | nodeIdHandshake msg =>
      header.messageType = .nodeIdHandshake ∧ (msg.query.isSome ↔ header.queryFlag ≠ 0) ∧
        (msg.response.isSome ↔ header.responseFlag ≠ 0)
  | bulkPullAccount _ => header.messageType = .bulkPullAccount
  | telemetryReq => header.messageType = .telemetryReq
  | telemetryAck _ => header.messageType = .telemetryAck
  | ignored empty => header.messageType.HasNoBody ∧ IgnoredUpToEof rest empty

theorem MsgKeepalive.grammar :
    Grammar MsgKeepalive.read MsgKeepalive.wire fun msg rest => ListedUpTo 8 rest msg.peers :=
  grammar_items Peer.codec (by decide) 8 MsgKeepalive.mk (fun _ => rfl) fun _ => rfl

theorem MsgPublish.grammar (header : MessageHeader) :
    Grammar (MsgPublish.read header) (fun msg => msg.body.wire) fun msg rest =>
      msg.body.WellFormed header.blockTypeInt rest := by
  refine ((BlockSelector.grammar header.blockTypeInt).wrap MsgPublish.mk fun _ => rfl).congr
    fun msg rest => ?_
  exact ⟨fun holds => ⟨msg.body, rfl, holds⟩, fun ⟨_, same, holds⟩ => same ▸ holds⟩

attribute [local simp] Body.WellFormed EnumMsgtype.HasNoBody in
theorem Body.grammar (header : MessageHeader) :
    Grammar (Body.read header) Body.bytes fun body rest => body.WellFormed header rest := by
  unfold Body.read
  cases kind : header.messageType with
  | keepalive =>
      exact (MsgKeepalive.grammar.wrap Body.keepalive fun _ => rfl).congr fun body rest => by
        cases body <;> simp [kind]
  | publish =>
      exact ((MsgPublish.grammar header).wrap Body.publish fun _ => rfl).congr fun body rest => by
        cases body <;> simp [kind]
  | confirmReq =>
      exact ((MsgConfirmReq.grammar header).wrap Body.confirmReq fun _ => rfl).congr
        fun body rest => by cases body <;> simp [kind]
  | confirmAck =>
      exact ((MsgConfirmAck.grammar header).wrap Body.confirmAck fun _ => rfl).congr
        fun body rest => by cases body <;> simp [kind]
  | bulkPull =>
      exact ((MsgBulkPull.grammar header).wrap Body.bulkPull fun _ => rfl).congr
        fun body rest => by cases body <;> simp [kind]
  | bulkPush =>
      exact (MsgBulkPush.grammar.wrap Body.bulkPush fun _ => rfl).congr fun body rest => by
        cases body <;> simp [kind]
  | frontierReq =>
      exact (MsgFrontierReq.codec.grammar.wrap Body.frontierReq fun _ => rfl).congr
        fun body rest => by cases body <;> simp [kind]
  | bulkPullBlocks =>
      exact (Codec.readU1.grammar.wrap Body.bulkPullBlocks fun _ => rfl).congr
        fun body rest => by cases body <;> simp [kind]
  | nodeIdHandshake =>
      exact ((MsgNodeIdHandshake.grammar header).wrap Body.nodeIdHandshake fun _ => rfl).congr
        fun body rest => by cases body <;> simp [kind]
  | bulkPullAccount =>
      exact (MsgBulkPullAccount.codec.grammar.wrap Body.bulkPullAccount fun _ => rfl).congr
        fun body rest => by cases body <;> simp [kind]
  | telemetryReq =>
      exact (Grammar.pure Body.telemetryReq _ rfl).congr fun body rest => by
        cases body <;> simp [kind]
  | telemetryAck =>
      exact (MsgTelemetryAck.codec.grammar.wrap Body.telemetryAck fun _ => rfl).congr
        fun body rest => by cases body <;> simp [kind]
  | invalid | notAType | unknown value =>
      exact (readIgnoreUntilEof_grammar.wrap Body.ignored fun _ => rfl).congr
        fun body rest => by cases body <;> simp [kind]

/-! ## Messages -/

def Nano.bytes (nano : Nano) : List UInt8 := nano.header.wire ++ nano.body.bytes

def Nano.WellFormed (nano : Nano) (rest : List UInt8) : Prop :=
  nano.header.WellFormed ∧ nano.body.WellFormed nano.header rest

theorem Nano.grammar :
    Grammar Nano.read Nano.bytes fun nano rest => nano.WellFormed rest := by
  have body (header : MessageHeader) :
      Grammar (Body.read header >>= fun body => pure (Nano.mk header body))
        (fun nano => nano.body.bytes)
        fun nano rest => nano.body.WellFormed nano.header rest ∧ nano.header = header := by
    refine ((Body.grammar header).wrap (Nano.mk header) fun _ => rfl).congr fun nano rest => ?_
    constructor
    · rintro ⟨holds, rfl⟩
      exact ⟨nano.body, rfl, holds⟩
    · rintro ⟨body, rfl, holds⟩
      exact ⟨holds, rfl⟩
  exact MessageHeader.grammar.field Nano.header fun header _ _ => body header

/-- The parser reads a message from the front of a segment if and only if the message
is well formed in front of the bytes it leaves, and its bytes are there. -/
theorem Nano.read_iff (data : List UInt8) (nano : Nano) (stop : KStream) :
    Nano.read (.ofBytes data) = .ok nano stop ↔
      nano.WellFormed stop.rest ∧ data = nano.bytes ++ stop.rest ∧
        stop.position = nano.bytes.length := by
  rw [Nano.grammar, KStream.ofBytes, Nat.zero_add]

end Nanocap
