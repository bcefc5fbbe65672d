import Nanocap.Foundation.ByteString

/-! # Messages of the Nano protocol

The enumerations and records of the generated header `nano.h`. Byte strings
carry their length; a record part that is read only under a condition is an
`Option`. -/

namespace Nanocap

/-! ## Enumerations -/

/-- `enum_blocktype_t`; a byte outside the enumeration keeps its value. -/
inductive EnumBlocktype where
  | invalid
  | notABlock
  | send
  | receive
  | opening
  | change
  | state
  | unknown (value : UInt8)
deriving DecidableEq

namespace EnumBlocktype

def ofUInt8 (value : UInt8) : EnumBlocktype :=
  match value.toNat with
  | 0 => .invalid
  | 1 => .notABlock
  | 2 => .send
  | 3 => .receive
  | 4 => .opening
  | 5 => .change
  | 6 => .state
  | _ => .unknown value

def toUInt8 : EnumBlocktype → UInt8
  | invalid => 0
  | notABlock => 1
  | send => 2
  | receive => 3
  | opening => 4
  | change => 5
  | state => 6
  | unknown value => value

@[simp] theorem toUInt8_ofUInt8 (value : UInt8) : (ofUInt8 value).toUInt8 = value := by
  unfold ofUInt8
  split <;> simp_all [toUInt8, ← UInt8.toNat_inj]

end EnumBlocktype

/-- `enum_msgtype_t`; a byte outside the enumeration keeps its value. -/
inductive EnumMsgtype where
  | invalid
  | notAType
  | keepalive
  | publish
  | confirmReq
  | confirmAck
  | bulkPull
  | bulkPush
  | frontierReq
  | bulkPullBlocks
  | nodeIdHandshake
  | bulkPullAccount
  | telemetryReq
  | telemetryAck
  | unknown (value : UInt8)
deriving DecidableEq

namespace EnumMsgtype

def ofUInt8 (value : UInt8) : EnumMsgtype :=
  match value.toNat with
  | 0 => .invalid
  | 1 => .notAType
  | 2 => .keepalive
  | 3 => .publish
  | 4 => .confirmReq
  | 5 => .confirmAck
  | 6 => .bulkPull
  | 7 => .bulkPush
  | 8 => .frontierReq
  | 9 => .bulkPullBlocks
  | 10 => .nodeIdHandshake
  | 11 => .bulkPullAccount
  | 12 => .telemetryReq
  | 13 => .telemetryAck
  | _ => .unknown value

def toUInt8 : EnumMsgtype → UInt8
  | invalid => 0
  | notAType => 1
  | keepalive => 2
  | publish => 3
  | confirmReq => 4
  | confirmAck => 5
  | bulkPull => 6
  | bulkPush => 7
  | frontierReq => 8
  | bulkPullBlocks => 9
  | nodeIdHandshake => 10
  | bulkPullAccount => 11
  | telemetryReq => 12
  | telemetryAck => 13
  | unknown value => value

@[simp] theorem toUInt8_ofUInt8 (value : UInt8) : (ofUInt8 value).toUInt8 = value := by
  unfold ofUInt8
  split <;> simp_all [toUInt8, ← UInt8.toNat_inj]

end EnumMsgtype

/-! The request flags `enum_bulk_pull_account_t`. -/

def pendingHashAndAmount : UInt8 := 0
def pendingAddressOnly : UInt8 := 1
def pendingHashAmountAndAddress : UInt8 := 2

/-! ## Blocks -/

structure BlockSend where
  previous : Bytes 32
  destination : Bytes 32
  balance : Bytes 16
  signature : Bytes 64
  work : UInt64
deriving DecidableEq

structure BlockReceive where
  previous : Bytes 32
  source : Bytes 32
  signature : Bytes 64
  work : UInt64
deriving DecidableEq

structure BlockOpen where
  source : Bytes 32
  representative : Bytes 32
  account : Bytes 32
  signature : Bytes 64
  work : UInt64
deriving DecidableEq

structure BlockChange where
  previous : Bytes 32
  representative : Bytes 32
  signature : Bytes 64
  work : UInt64
deriving DecidableEq

structure BlockState where
  account : Bytes 32
  previous : Bytes 32
  representative : Bytes 32
  balance : Bytes 16
  link : Bytes 32
  signature : Bytes 64
  work : UInt64
deriving DecidableEq

inductive Block where
  | send (block : BlockSend)
  | receive (block : BlockReceive)
  | opening (block : BlockOpen)
  | change (block : BlockChange)
  | state (block : BlockState)
deriving DecidableEq

def Block.type : Block → EnumBlocktype
  | send _ => .send
  | receive _ => .receive
  | opening _ => .opening
  | change _ => .change
  | state _ => .state

/-- `block_selector_t`: the block of a known type, or the bytes skipped for any
other value of `arg_block_type`. -/
inductive BlockSelector where
  | known (block : Block)
  | ignored (argBlockType : UInt8) (empty : Option (List UInt8))
deriving DecidableEq

def BlockSelector.argBlockType : BlockSelector → UInt8
  | known block => block.type.toUInt8
  | ignored argBlockType _ => argBlockType

/-! ## Message header -/

structure MessageHeader where
  networkId : UInt8
  versionMax : UInt8
  versionUsing : UInt8
  versionMin : UInt8
  messageType : EnumMsgtype
  extensions : UInt16
deriving DecidableEq

namespace MessageHeader

def responseFlag (header : MessageHeader) : UInt16 := header.extensions &&& 2

def queryFlag (header : MessageHeader) : UInt16 := header.extensions &&& 1

def extendedParamsPresent (header : MessageHeader) : UInt16 := header.extensions &&& 1

def blockTypeInt (header : MessageHeader) : UInt8 :=
  ((header.extensions &&& 3840) >>> 8).toUInt8

def blockType (header : MessageHeader) : EnumBlocktype := .ofUInt8 header.blockTypeInt

def itemCountInt (header : MessageHeader) : Nat :=
  ((header.extensions &&& 61440) >>> 12).toNat

end MessageHeader

/-! ## Message bodies -/

structure Peer where
  address : Bytes 16
  port : UInt16
deriving DecidableEq

structure MsgKeepalive where
  peers : Option (List Peer)
deriving DecidableEq

structure MsgPublish where
  body : BlockSelector
deriving DecidableEq

structure HashPair where
  first : Bytes 32
  second : Bytes 32
deriving DecidableEq

structure ConfirmRequestByHash where
  pairs : Option (List HashPair)
deriving DecidableEq

structure MsgConfirmReq where
  reqbyhash : Option ConfirmRequestByHash
  block : Option BlockSelector
deriving DecidableEq

structure VoteCommon where
  account : Bytes 32
  signature : Bytes 64
  sequence : UInt64
deriving DecidableEq

structure VoteByHash where
  hashes : Option (List (Bytes 32))
deriving DecidableEq

structure MsgConfirmAck where
  common : VoteCommon
  votebyhash : Option VoteByHash
  block : Option BlockSelector
deriving DecidableEq

structure NodeIdQuery where
  cookie : Bytes 32
deriving DecidableEq

structure NodeIdResponse where
  account : Bytes 32
  signature : Bytes 64
deriving DecidableEq

structure MsgNodeIdHandshake where
  query : Option NodeIdQuery
  response : Option NodeIdResponse
deriving DecidableEq

structure MsgTelemetryAck where
  signature : Bytes 64
  nodeid : Bytes 32
  blockcount : UInt64
  cementedcount : UInt64
  uncheckedcount : UInt64
  accountcount : UInt64
  bandwidthcap : UInt64
  uptime : UInt64
  peercount : UInt32
  protocolversion : UInt8
  genesisblock : Bytes 32
  majorversion : UInt8
  minorversion : UInt8
  patchversion : UInt8
  prereleaseversion : UInt8
  maker : UInt8
  timestamp : UInt64
  activedifficulty : UInt64
deriving DecidableEq

structure MsgFrontierReq where
  start : Bytes 32
  age : UInt32
  count : UInt32
deriving DecidableEq

structure ExtendedParameters where
  zero : UInt8
  count : UInt32
  reserved : Bytes 3
deriving DecidableEq

structure MsgBulkPull where
  start : Bytes 32
  stop : Bytes 32
  extended : Option ExtendedParameters
deriving DecidableEq

structure MsgBulkPullAccount where
  account : Bytes 32
  minimumAmount : Bytes 16
  flags : UInt8
deriving DecidableEq

structure BulkPushEntry where
  blockType : UInt8
  block : BlockSelector
deriving DecidableEq

structure MsgBulkPush where
  entry : List BulkPushEntry
deriving DecidableEq

/-- The body `nano_t` reads for each message type. -/
inductive Body where
  | keepalive (msg : MsgKeepalive)
  | publish (msg : MsgPublish)
  | confirmReq (msg : MsgConfirmReq)
  | confirmAck (msg : MsgConfirmAck)
  | bulkPull (msg : MsgBulkPull)
  | bulkPush (msg : MsgBulkPush)
  | frontierReq (msg : MsgFrontierReq)
  | bulkPullBlocks (blockType : UInt8)
  | nodeIdHandshake (msg : MsgNodeIdHandshake)
  | bulkPullAccount (msg : MsgBulkPullAccount)
  | telemetryReq
  | telemetryAck (msg : MsgTelemetryAck)
  | ignored (empty : Option (List UInt8))
deriving DecidableEq

structure Nano where
  header : MessageHeader
  body : Body
deriving DecidableEq

/-! ## Entries of bootstrap responses -/

structure FrontierEntry where
  account : Bytes 32
  frontierHash : Bytes 32
deriving DecidableEq

structure BulkPullEntry where
  blockType : UInt8
  block : BlockSelector
deriving DecidableEq

structure FrontierBalanceEntry where
  frontierHash : Bytes 32
  balance : Bytes 16
deriving DecidableEq

structure BulkPullAccountEntry where
  hash : Option (Bytes 32)
  amount : Option (Bytes 16)
  source : Option (Bytes 32)
deriving DecidableEq

end Nanocap
