import Nanocap.Kaitai.Stream
import Nanocap.Protocol.Types

/-! # The generated parser

The `_read` functions of `nano.cpp`, each under the name of the record it
reads. -/

namespace Nanocap

open KStream

/-- A `do … while` loop over the rest of the stream. -/
def KStream.doWhile {α : Type} (item : Reader α) (stop : Nat → Reader Bool) :
    Reader (List α) := fun stream =>
  readUntil item stop (stream.rest.length + 1) 0 stream

/-- `ignore_until_eof_t` -/
def readIgnoreUntilEof : Reader (Option (List UInt8)) := do
  if ← isEof then return none
  return some (← doWhile readU1 fun _ => isEof)

/-! ## Blocks -/

def BlockSend.read : Reader BlockSend := do
  let previous ← readBytes 32
  let destination ← readBytes 32
  let balance ← readBytes 16
  let signature ← readBytes 64
  let work ← readU8le
  return { previous, destination, balance, signature, work }

def BlockReceive.read : Reader BlockReceive := do
  let previous ← readBytes 32
  let source ← readBytes 32
  let signature ← readBytes 64
  let work ← readU8le
  return { previous, source, signature, work }

def BlockOpen.read : Reader BlockOpen := do
  let source ← readBytes 32
  let representative ← readBytes 32
  let account ← readBytes 32
  let signature ← readBytes 64
  let work ← readU8le
  return { source, representative, account, signature, work }

def BlockChange.read : Reader BlockChange := do
  let previous ← readBytes 32
  let representative ← readBytes 32
  let signature ← readBytes 64
  let work ← readU8le
  return { previous, representative, signature, work }

def BlockState.read : Reader BlockState := do
  let account ← readBytes 32
  let previous ← readBytes 32
  let representative ← readBytes 32
  let balance ← readBytes 16
  let link ← readBytes 32
  let signature ← readBytes 64
  let work ← readU8be
  return { account, previous, representative, balance, link, signature, work }

def BlockSelector.read (argBlockType : UInt8) : Reader BlockSelector :=
  match EnumBlocktype.ofUInt8 argBlockType with
  | .receive => return .known (.receive (← BlockReceive.read))
  | .change => return .known (.change (← BlockChange.read))
  | .state => return .known (.state (← BlockState.read))
  | .opening => return .known (.opening (← BlockOpen.read))
  | .send => return .known (.send (← BlockSend.read))
  | _ => return .ignored argBlockType (← readIgnoreUntilEof)

/-! ## Header -/

/-- The magic byte `'R'`. -/
def headerMagic : Bytes 1 := ⟨[0x52], rfl⟩

def MessageHeader.read : Reader MessageHeader := do
  let _ ← ensureFixedContents headerMagic
  let networkId ← readU1
  let versionMax ← readU1
  let versionUsing ← readU1
  let versionMin ← readU1
  let messageType ← readU1
  let extensions ← readU2le
  return { networkId, versionMax, versionUsing, versionMin,
           messageType := .ofUInt8 messageType, extensions }

/-! ## Bodies -/

def Peer.read : Reader Peer := do
  let address ← readBytes 16
  let port ← readU2le
  return { address, port }

def MsgKeepalive.read : Reader MsgKeepalive := do
  if ← isEof then return { peers := none }
  let peers ← doWhile Peer.read fun i => return i == 8 || (← isEof)
  return { peers := some peers }

def MsgPublish.read (header : MessageHeader) : Reader MsgPublish := do
  return { body := ← BlockSelector.read header.blockTypeInt }

def HashPair.read : Reader HashPair := do
  let first ← readBytes 32
  let second ← readBytes 32
  return { first, second }

def ConfirmRequestByHash.read (header : MessageHeader) : Reader ConfirmRequestByHash := do
  if ← isEof then return { pairs := none }
  let pairs ← doWhile HashPair.read fun i => return i == header.itemCountInt || (← isEof)
  return { pairs := some pairs }

def MsgConfirmReq.read (header : MessageHeader) : Reader MsgConfirmReq :=
  if header.blockType = .notABlock then
    return { reqbyhash := some (← ConfirmRequestByHash.read header), block := none }
  else
    return { reqbyhash := none, block := some (← BlockSelector.read header.blockTypeInt) }

def VoteCommon.read : Reader VoteCommon := do
  let account ← readBytes 32
  let signature ← readBytes 64
  let sequence ← readU8le
  return { account, signature, sequence }

def VoteByHash.read (header : MessageHeader) : Reader VoteByHash := do
  if ← isEof then return { hashes := none }
  let hashes ← doWhile (readBytes 32) fun i => return i == header.itemCountInt || (← isEof)
  return { hashes := some hashes }

def MsgConfirmAck.read (header : MessageHeader) : Reader MsgConfirmAck := do
  let common ← VoteCommon.read
  if header.blockType = .notABlock then
    return { common, votebyhash := some (← VoteByHash.read header), block := none }
  else
    return { common, votebyhash := none,
             block := some (← BlockSelector.read header.blockTypeInt) }

def ExtendedParameters.read : Reader ExtendedParameters := do
  let zero ← readU1
  let count ← readU4le
  let reserved ← readBytes 3
  return { zero, count, reserved }

def MsgBulkPull.read (header : MessageHeader) : Reader MsgBulkPull := do
  let start ← readBytes 32
  let stop ← readBytes 32
  if header.extendedParamsPresent ≠ 0 then
    return { start, stop, extended := some (← ExtendedParameters.read) }
  else
    return { start, stop, extended := none }

def MsgBulkPullAccount.read : Reader MsgBulkPullAccount := do
  let account ← readBytes 32
  let minimumAmount ← readBytes 16
  let flags ← readU1
  return { account, minimumAmount, flags }

def BulkPushEntry.read : Reader BulkPushEntry := do
  let blockType ← readU1
  return { blockType, block := ← BlockSelector.read blockType }

/-- The loop asks `entry()->at(i)` after it has incremented `i`, an index past
the entries read so far. -/
def MsgBulkPush.read : Reader MsgBulkPush := do
  let entry ← doWhile BulkPushEntry.read fun _ => do
    if ← isEof then return true
    throw .outOfRange
  return { entry }

def MsgFrontierReq.read : Reader MsgFrontierReq := do
  let start ← readBytes 32
  let age ← readU4le
  let count ← readU4le
  return { start, age, count }

def NodeIdQuery.read : Reader NodeIdQuery := do
  return { cookie := ← readBytes 32 }

def NodeIdResponse.read : Reader NodeIdResponse := do
  let account ← readBytes 32
  let signature ← readBytes 64
  return { account, signature }

def MsgNodeIdHandshake.read (header : MessageHeader) : Reader MsgNodeIdHandshake := do
  let query ← if header.queryFlag ≠ 0 then some <$> NodeIdQuery.read else pure none
  let response ← if header.responseFlag ≠ 0 then some <$> NodeIdResponse.read else pure none
  return { query, response }

def MsgTelemetryAck.read : Reader MsgTelemetryAck := do
  let signature ← readBytes 64
  let nodeid ← readBytes 32
  let blockcount ← readU8be
  let cementedcount ← readU8be
  let uncheckedcount ← readU8be
  let accountcount ← readU8be
  let bandwidthcap ← readU8be
  let uptime ← readU8be
  let peercount ← readU4be
  let protocolversion ← readU1
  let genesisblock ← readBytes 32
  let majorversion ← readU1
  let minorversion ← readU1
  let patchversion ← readU1
  let prereleaseversion ← readU1
  let maker ← readU1
  let timestamp ← readU8be
  let activedifficulty ← readU8be
  return { signature, nodeid, blockcount, cementedcount, uncheckedcount, accountcount,
           bandwidthcap, uptime, peercount, protocolversion, genesisblock, majorversion,
           minorversion, patchversion, prereleaseversion, maker, timestamp,
           activedifficulty }

def Body.read (header : MessageHeader) : Reader Body :=
  match header.messageType with
  | .confirmReq => return .confirmReq (← MsgConfirmReq.read header)
  | .confirmAck => return .confirmAck (← MsgConfirmAck.read header)
  | .bulkPull => return .bulkPull (← MsgBulkPull.read header)
  | .bulkPullAccount => return .bulkPullAccount (← MsgBulkPullAccount.read)
  | .keepalive => return .keepalive (← MsgKeepalive.read)
  | .bulkPush => return .bulkPush (← MsgBulkPush.read)
  | .telemetryAck => return .telemetryAck (← MsgTelemetryAck.read)
  | .nodeIdHandshake => return .nodeIdHandshake (← MsgNodeIdHandshake.read header)
  | .frontierReq => return .frontierReq (← MsgFrontierReq.read)
  | .bulkPullBlocks => return .bulkPullBlocks (← readU1)
  | .publish => return .publish (← MsgPublish.read header)
  | .telemetryReq => return .telemetryReq
  | _ => return .ignored (← readIgnoreUntilEof)

/-- `nano_t`: one message from the front of the stream. -/
def Nano.read : Reader Nano := do
  let header ← MessageHeader.read
  let body ← Body.read header
  return { header, body }

/-! ## Entries of bootstrap responses -/

def FrontierEntry.read : Reader FrontierEntry := do
  let account ← readBytes 32
  let frontierHash ← readBytes 32
  return { account, frontierHash }

def BulkPullEntry.read : Reader BulkPullEntry := do
  let blockType ← readU1
  return { blockType, block := ← BlockSelector.read blockType }

def FrontierBalanceEntry.read : Reader FrontierBalanceEntry := do
  let frontierHash ← readBytes 32
  let balance ← readBytes 16
  return { frontierHash, balance }

def BulkPullAccountEntry.read (flags : UInt8) : Reader BulkPullAccountEntry := do
  let addressOnly := flags = pendingAddressOnly
  let includeAddress := flags = pendingHashAmountAndAddress
  let hash ← if ¬addressOnly then some <$> readBytes 32 else pure none
  let amount ← if ¬addressOnly then some <$> readBytes 16 else pure none
  let source ← if addressOnly ∨ includeAddress then some <$> readBytes 32 else pure none
  return { hash, amount, source }

end Nanocap
