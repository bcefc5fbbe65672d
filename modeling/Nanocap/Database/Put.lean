import Nanocap.Database.Sqlite
import Nanocap.Util.Encoding
import Nanocap.Util.Time

/-! # The member functions of `nanocap::db`

Each `put` overload has the name of the message or entry it stores. The lists of
cells give the `bind` calls in their order. -/

namespace Nanocap

/-! ## Values -/

def Value.nat (value : Nat) : Value := .integer value

theorem Value.nat_inj {first second : Nat} : Value.nat first = .nat second ↔ first = second := by
  simp only [Value.nat, Value.integer.injEq, Int.natCast_inj]

/-- `static_cast<int64_t>` of an unsigned 64-bit value. -/
def Value.int64 (value : UInt64) : Value := .integer value.toInt64.toInt

def Value.raw (bytes : List UInt8) : Value :=
  .text (String.ofList (bytes.map fun byte => Char.ofNat byte.toNat))

def Value.hex (bytes : List UInt8) : Value := .text (toHex bytes)

/-! ## Building blocks -/

namespace Put

def fetchAdd : Put Nat := Op.perform .fetchAdd
def lock : Put Unit := Op.perform .lock
def unlock : Put Unit := Op.perform .unlock
def readFlow : Put TcpFlowData := Op.perform .readFlow
def exec (table : Table) : Put Unit := Op.perform (.exec table)
def reset (table : Table) : Put Unit := Op.perform (.reset table)

def bindAll (table : Table) : List Cell → Put Unit
  | [] => return
  | (parameter, value) :: cells => do
      Op.perform (.bind table parameter value)
      bindAll table cells

def insert (table : Table) (cells : List Cell) : Put Unit := do
  bindAll table cells
  exec table
  reset table

end Put

open Put

/-! ## Shared parts -/

def flushInternal : Put Unit := do
  Op.perform .commit
  Op.perform .beginTransaction

def flush : Put Unit := do
  lock
  flushInternal
  unlock

/-- `~db` -/
def close : Put Unit := do
  lock
  Op.perform .commit
  unlock

/-- The block at the head of `bind_header_fields`. -/
def periodicCommit (env : Environment) : Put Unit := do
  if (← Op.perform .nextId) % 10000 = 0 then
    flushInternal
    let pageSize ← Op.perform .pageSize
    let pageCount ← Op.perform .pageCount
    if pageSize * pageCount > env.config.maxCaptureMegabytes * 1024 * 1024 then
      Op.perform .setMaxReached

def MessageHeader.cells (header : MessageHeader) (id : Nat) : List Cell :=
  [(.id, .nat id),
   (.hdrMsgType, .nat header.messageType.toUInt8.toNat),
   (.hdrVersionUsing, .nat header.versionUsing.toNat),
   (.hdrVersionMin, .nat header.versionMin.toNat),
   (.hdrBlockType, .nat header.blockType.toUInt8.toNat),
   (.hdrExtensions, .nat header.extensions.toNat),
   -- overridden by certain messages
   (.contentTable, .null),
   (.contentId, .null)]

def bindHeaderFields (env : Environment) (header : MessageHeader) (id : Nat) : Put Unit := do
  periodicCommit env
  Op.perform (.clearBindings .packet)
  bindAll .packet (header.cells id)
  Op.perform (.countType header.messageType)

def NanoPacket.packetFields (info : NanoPacket) : List Cell :=
  [(.srcip, .text info.srcIp),
   (.srcport, .nat info.srcPort.toNat),
   (.dstip, .text info.dstIp),
   (.dstport, .nat info.dstPort.toNat),
   (.timeUsec, .integer info.timestampUsec),
   (.flowKey, .nat info.flowKey.toNat),
   (.ipv, .nat info.ipVersion.toNat)] ++
  match strftime 32 (gmtime info.timestamp) with
  | some time => [(.time, .text time)]
  | none => []

def bindPacketFields (info : NanoPacket) : Put Unit := bindAll .packet info.packetFields

def NanoPacket.connectionCells (info : NanoPacket) (event : String) (id : Nat) : List Cell :=
  [(.id, .nat id),
   (.ipv, .nat info.ipVersion.toNat),
   (.srcip, .text info.srcIp),
   (.srcport, .nat info.srcPort.toNat),
   (.dstip, .text info.dstIp),
   (.dstport, .nat info.dstPort.toNat),
   (.flowkey, .nat info.flowKey.toNat),
   (.event, .text event)]

def putConnection (info : NanoPacket) (event : String) : Put Unit := do
  lock
  let id ← fetchAdd
  insert .connection (info.connectionCells event id)
  unlock

/-! ## Blocks -/

def Block.table : Block → Table
  | send _ => .blockSend
  | receive _ => .blockReceive
  | opening _ => .blockOpen
  | change _ => .blockChange
  | state _ => .blockState

/-- The tables `put_block` stores blocks in. -/
def Table.blocks : List Table :=
  [.blockSend, .blockReceive, .blockOpen, .blockChange, .blockState]

theorem Block.table_mem (block : Block) : block.table ∈ Table.blocks := by
  cases block <;> simp [Block.table, Table.blocks]

/-- The cases of the switch in `put_block`. -/
def Block.cells (env : Environment) (id packetId : Nat) : Block → List Cell
  | state block =>
      [(.id, .nat id),
       (.packetId, .nat packetId),
       (.hash, .hex (block.hashOf env.blake2b).val),
       (.account, .text (pubToAccount env.blake2b block.account)),
       (.previous, .hex block.previous.val),
       (.representative, .text (pubToAccount env.blake2b block.representative)),
       (.balance, .text (balanceToDec block.balance)),
       (.link, .hex block.link.val),
       (.signature, .hex block.signature.val),
       (.work, .int64 block.work)]
  | send block =>
      [(.id, .nat id),
       (.packetId, .nat packetId),
       (.hash, .hex (block.hashOf env.blake2b).val),
       (.previous, .hex block.previous.val),
       (.destination, .text (pubToAccount env.blake2b block.destination)),
       (.balance, .text (balanceToDec block.balance)),
       (.signature, .hex block.signature.val),
       (.work, .int64 block.work)]
  | receive block =>
      [(.id, .nat id),
       (.packetId, .nat packetId),
       (.hash, .hex (block.hashOf env.blake2b).val),
       (.previous, .hex block.previous.val),
       (.source, .hex block.source.val),
       (.signature, .hex block.signature.val),
       (.work, .int64 block.work)]
  | opening block =>
      [(.id, .nat id),
       (.packetId, .nat packetId),
       (.hash, .hex (block.hashOf env.blake2b).val),
       (.source, .hex block.source.val),
       (.representative, .text (pubToAccount env.blake2b block.representative)),
       (.account, .text (pubToAccount env.blake2b block.account)),
       (.signature, .hex block.signature.val),
       (.work, .int64 block.work)]
  | change block =>
      [(.id, .nat id),
       (.packetId, .nat packetId),
       (.hash, .hex (block.hashOf env.blake2b).val),
       (.previous, .hex block.previous.val),
       (.representative, .text (pubToAccount env.blake2b block.representative)),
       (.signature, .hex block.signature.val),
       (.work, .int64 block.work)]

/-- The block `put_block` stores, if it stores any. -/
def storable (env : Environment) : Option BlockSelector → Option Block
  | some (.known block) => if env.config.blockDetails then some block else none
  | _ => none

/-- Answers the value of `content_table`, which starts out empty. -/
def putBlock (env : Environment) (blockSelector : Option BlockSelector) (id packetId : Nat) :
    Put String :=
  match storable env blockSelector with
  | some block => do
      insert block.table (block.cells env id packetId)
      return block.table.name
  | none => return ""

/-! ## Live messages -/

def putHeader (env : Environment) (header : MessageHeader) (info : NanoPacket)
    (packetId : Nat) : Put Unit := do
  bindHeaderFields env header packetId
  bindPacketFields info
  exec .packet

def putTelemetryReq (env : Environment) (header : MessageHeader) (info : NanoPacket) :
    Put Unit := do
  let packetId ← fetchAdd
  lock
  putHeader env header info packetId
  reset .packet
  unlock

def MsgTelemetryAck.cells (env : Environment) (msg : MsgTelemetryAck) (id packetId : Nat) :
    List Cell :=
  [(.id, .nat id),
   (.packetId, .nat packetId),
   (.signature, .hex msg.signature.val),
   (.nodeid, .hex msg.nodeid.val),
   (.nodeidAsAccount, .text (pubToAccount env.blake2b msg.nodeid)),
   (.blockcount, .int64 msg.blockcount),
   (.cementedcount, .int64 msg.cementedcount),
   (.uncheckedcount, .int64 msg.uncheckedcount),
   (.accountcount, .int64 msg.accountcount),
   (.bandwidthcap, .int64 msg.bandwidthcap),
   (.uptime, .int64 msg.uptime),
   (.peercount, .nat msg.peercount.toNat),
   (.protocolversion, .nat msg.protocolversion.toNat),
   (.genesisblock, .hex msg.genesisblock.val),
   (.majorversion, .nat msg.majorversion.toNat),
   (.minorversion, .nat msg.minorversion.toNat),
   (.patchversion, .nat msg.patchversion.toNat),
   (.prereleaseversion, .nat msg.prereleaseversion.toNat),
   (.maker, .nat msg.maker.toNat),
   (.timestamp, .int64 msg.timestamp),
   (.activedifficulty, .int64 msg.activedifficulty)]

def putTelemetryAck (env : Environment) (header : MessageHeader) (msg : MsgTelemetryAck)
    (info : NanoPacket) : Put Unit := do
  let packetId ← fetchAdd
  lock
  putHeader env header info packetId
  insert .telemetry (msg.cells env (← fetchAdd) packetId)
  reset .packet
  unlock

def Peer.cells (env : Environment) (peer : Peer) (id packetId : Nat) : List Cell :=
  [(.id, .nat id),
   (.packetId, .nat packetId),
   (.address, .text (env.addressToString peer.address)),
   (.port, .nat peer.port.toNat)]

def putPeers (env : Environment) (packetId : Nat) : List Peer → Put Unit
  | [] => return
  | peer :: peers => do
      insert .keepaliveHost (peer.cells env (← fetchAdd) packetId)
      putPeers env packetId peers

def putKeepalive (env : Environment) (header : MessageHeader) (msg : MsgKeepalive)
    (info : NanoPacket) : Put Unit := do
  let packetId ← fetchAdd
  lock
  putHeader env header info packetId
  putPeers env packetId (msg.peers.getD [])
  reset .packet
  unlock

def joinHashes : List (Bytes 32) → String
  | [] => ""
  | [hash] => toHex hash.val
  | hash :: hashes => toHex hash.val ++ "," ++ joinHashes hashes

/-- The hashes of a vote-by-hash; a vote without any is malformed. -/
def MsgConfirmAck.hashes (msg : MsgConfirmAck) : List (Bytes 32) :=
  (msg.votebyhash.bind VoteByHash.hashes).getD []

/-- The bindings the three branches of `put(msg_confirm_ack_t)` make before the
common fields: a regular vote, a vote-by-hash, a malformed vote. -/
def bindVoteContent (env : Environment) (msg : MsgConfirmAck) (packetId : Nat) : Put Unit :=
  match msg.block with
  | some block => do
      let blockContentId ← fetchAdd
      let contentTable ← putBlock env (some block) blockContentId packetId
      bindAll .vote
        [(.contentId, .nat blockContentId),
         (.contentTable, .text contentTable),
         (.voteCount, .nat 1),
         (.vbh, .nat 0)]
  | none =>
      if msg.hashes ≠ [] then
        bindAll .vote
          [(.vbh, .nat 1),
           (.voteCount, .nat msg.hashes.length),
           (.hashes, .text (joinHashes msg.hashes))]
      else
        bindAll .vote [(.vbh, .nat 2), (.voteCount, .nat 0)]

/-- The fields every vote has; `common()` is never null. -/
def VoteCommon.cells (env : Environment) (common : VoteCommon) : List Cell :=
  [(.account, .text (pubToAccount env.blake2b common.account)),
   (.signature, .hex common.signature.val),
   (.sequence, .int64 common.sequence)]

def putConfirmAck (env : Environment) (header : MessageHeader) (msg : MsgConfirmAck)
    (info : NanoPacket) : Put Unit := do
  let packetId ← fetchAdd
  lock
  bindHeaderFields env header packetId
  bindPacketFields info
  bindVoteContent env msg packetId
  bindAll .vote (msg.common.cells env)
  let voteContentId ← fetchAdd
  insert .vote [(.id, .nat voteContentId), (.packetId, .nat packetId)]
  bindAll .packet [(.contentId, .nat voteContentId), (.contentTable, .text Table.vote.name)]
  exec .packet
  reset .packet
  unlock

def putWithBlock (env : Environment) (header : MessageHeader)
    (blockSelector : Option BlockSelector) (info : NanoPacket) : Put Unit := do
  let packetId ← fetchAdd
  lock
  bindHeaderFields env header packetId
  bindPacketFields info
  let contentId ← fetchAdd
  let contentTable ← putBlock env blockSelector contentId packetId
  bindAll .packet [(.contentId, .nat contentId), (.contentTable, .text contentTable)]
  exec .packet
  reset .packet
  unlock

def putConfirmReq (env : Environment) (header : MessageHeader) (msg : MsgConfirmReq)
    (info : NanoPacket) : Put Unit :=
  putWithBlock env header msg.block info

def putPublish (env : Environment) (header : MessageHeader) (msg : MsgPublish)
    (info : NanoPacket) : Put Unit :=
  putWithBlock env header (some msg.body) info

def NodeIdQuery.cells (query : NodeIdQuery) (id packetId : Nat) : List Cell :=
  [(.id, .nat id),
   (.packetId, .nat packetId),
   (.cookie, .hex query.cookie.val)]

def NodeIdResponse.cells (env : Environment) (response : NodeIdResponse) (id packetId : Nat) :
    List Cell :=
  [(.id, .nat id),
   (.packetId, .nat packetId),
   (.nodeid, .hex response.account.val),
   (.nodeidAsAccount, .text (pubToAccount env.blake2b response.account)),
   (.signature, .hex response.signature.val)]

def putNodeIdQuery (packetId : Nat) : Option NodeIdQuery → Put Unit
  | some query => do insert .nodeidQuery (query.cells (← fetchAdd) packetId)
  | none => return

def putNodeIdResponse (env : Environment) (packetId : Nat) : Option NodeIdResponse → Put Unit
  | some response => do insert .nodeidResponse (response.cells env (← fetchAdd) packetId)
  | none => return

def putNodeIdHandshake (env : Environment) (header : MessageHeader) (msg : MsgNodeIdHandshake)
    (info : NanoPacket) : Put Unit := do
  let packetId ← fetchAdd
  lock
  putHeader env header info packetId
  putNodeIdQuery packetId msg.query
  putNodeIdResponse env packetId msg.response
  reset .packet
  unlock

/-! ## Bootstrap requests -/

def MsgFrontierReq.cells (msg : MsgFrontierReq) (id packetId : Nat) : List Cell :=
  [(.id, .nat id),
   (.packetId, .nat packetId),
   (.start, .raw msg.start.val),
   (.age, .nat msg.age.toNat),
   (.count, .nat msg.count.toNat)]

def putFrontierReq (env : Environment) (header : MessageHeader) (msg : MsgFrontierReq)
    (info : NanoPacket) : Put Unit := do
  let packetId ← fetchAdd
  Op.perform (.setPacketId packetId)
  lock
  putHeader env header info packetId
  let messageId ← fetchAdd
  Op.perform (.setMessageId messageId)
  insert .frontierRequest (msg.cells messageId packetId)
  reset .packet
  unlock

def MsgBulkPull.cells (env : Environment) (msg : MsgBulkPull) (id packetId : Nat) : List Cell :=
  [(.id, .nat id),
   (.packetId, .nat packetId),
   (.start, .text (pubToAccount env.blake2b msg.start)),
   (.stop, .text (pubToAccount env.blake2b msg.stop)),
   (.extendedCount, .nat ((msg.extended.map fun extended => extended.count.toNat).getD 0))]

def putBulkPull (env : Environment) (header : MessageHeader) (msg : MsgBulkPull)
    (info : NanoPacket) : Put Unit := do
  let packetId ← fetchAdd
  Op.perform (.setPacketId packetId)
  lock
  putHeader env header info packetId
  let messageId ← fetchAdd
  Op.perform (.setMessageId messageId)
  insert .bulkPullRequest (msg.cells env messageId packetId)
  reset .packet
  unlock

def MsgBulkPullAccount.cells (env : Environment) (msg : MsgBulkPullAccount)
    (id packetId : Nat) : List Cell :=
  [(.id, .nat id),
   (.packetId, .nat packetId),
   (.account, .text (pubToAccount env.blake2b msg.account)),
   (.minimumAmount, .text (balanceToDec msg.minimumAmount)),
   (.flags, .nat msg.flags.toNat)]

def putBulkPullAccount (env : Environment) (header : MessageHeader)
    (msg : MsgBulkPullAccount) (info : NanoPacket) : Put Unit := do
  let packetId ← fetchAdd
  Op.perform (.setPacketId packetId)
  let messageId ← fetchAdd
  Op.perform (.setMessageId messageId)
  lock
  putHeader env header info packetId
  insert .bulkPullAccountRequest (msg.cells env messageId packetId)
  reset .packet
  unlock

def putBulkPush (env : Environment) (header : MessageHeader) (info : NanoPacket) :
    Put Unit := do
  let packetId ← fetchAdd
  Op.perform (.setPacketId packetId)
  lock
  putHeader env header info packetId
  reset .packet
  unlock

/-! ## Bootstrap responses -/

def FrontierEntry.cells (env : Environment) (entry : FrontierEntry) (id messageId : Nat) :
    List Cell :=
  [(.id, .nat id),
   (.frontierRequestId, .nat messageId),
   (.account, .text (pubToAccount env.blake2b entry.account)),
   (.frontierHash, .hex entry.frontierHash.val)]

def putFrontierEntry (env : Environment) (entry : FrontierEntry) : Put Unit := do
  lock
  let id ← fetchAdd
  insert .frontierResponse (entry.cells env id (← readFlow).messageId)
  unlock

def referenceCells (request : Cell) (id blockContentId : Nat) (contentTable : String) :
    List Cell :=
  [(.id, .nat id),
   request,
   (.contentId, .nat blockContentId),
   (.contentTable, .text contentTable)]

/-- What `put(bulk_pull_entry_t)` and `put(bulk_push_entry_t)` share: store the
block and a reference to it in `table`; an entry without a block to store is
reported once for each flow. -/
def putBulkEntry (env : Environment) (table : Table) (request : TcpFlowData → Cell)
    (event : String) (block : BlockSelector) (info : NanoPacket) : Put Unit := do
  lock
  let blockContentId ← fetchAdd
  let flow ← readFlow
  let contentTable ← putBlock env (some block) blockContentId flow.packetId
  if contentTable ≠ "" then
    insert table (referenceCells (request flow) (← fetchAdd) blockContentId contentTable)
    unlock
  else
    unlock
    if (← Op.perform .addInvalidResponse) = 1 then putConnection info event

def putBulkPullEntry (env : Environment) (entry : BulkPullEntry) (info : NanoPacket) :
    Put Unit :=
  putBulkEntry env .bulkPullResponse (fun flow => (.bulkPullRequestId, .nat flow.messageId))
    "first invalid bulk_pull response" entry.block info

def putBulkPushEntry (env : Environment) (entry : BulkPushEntry) (info : NanoPacket) :
    Put Unit :=
  putBulkEntry env .bulkPushEntry (fun flow => (.packetId, .nat flow.packetId))
    "first invalid bulk_push entry" entry.block info

def FrontierBalanceEntry.cells (entry : FrontierBalanceEntry) (id messageId : Nat) :
    List Cell :=
  [(.id, .nat id),
   (.bulkPullAccountRequestId, .nat messageId),
   (.frontierHash, .hex entry.frontierHash.val),
   (.balance, .text (balanceToDec entry.balance))]

def putFrontierBalanceEntry (entry : FrontierBalanceEntry) : Put Unit := do
  lock
  let id ← fetchAdd
  insert .bulkPullAccountResponse (entry.cells id (← readFlow).messageId)
  unlock

/-- Only the columns transmitted under the request flags are bound. -/
def BulkPullAccountEntry.cells (entry : BulkPullAccountEntry) (flags : UInt8)
    (id messageId : Nat) : List Cell :=
  let addressOnly := flags = pendingAddressOnly
  let includeAddress := flags = pendingHashAmountAndAddress
  [(.id, .nat id), (.bulkPullAccountRequestId, .nat messageId)] ++
  (if ¬addressOnly then
    [(.hash, .hex ((entry.hash.map (·.val)).getD [])),
     (.amount, .text (balanceToDec (entry.amount.getD (Bytes.zero 16))))]
  else []) ++
  (if addressOnly ∨ includeAddress then
    [(.source, .hex ((entry.source.map (·.val)).getD []))]
  else [])

def putBulkPullAccountEntry (entry : BulkPullAccountEntry) : Put Unit := do
  lock
  let id ← fetchAdd
  let flow ← readFlow
  insert .bulkPullAccountResponseEntry (entry.cells flow.requestFlags id flow.messageId)
  unlock

/-! ## Destroying the captured data -/

/-- Empty one table after the other, each in a transaction of its own. -/
def deleteTables : List Table → Put Unit
  | [] => return
  | table :: tables => do
      Op.perform (.deleteFrom table)
      flushInternal
      deleteTables tables

/-- `sqlite_master` lists the tables in the order of their creation, the `runs`
table first. -/
def destroyCaptureData : Put Unit := do
  lock
  Op.perform .deleteRuns
  flushInternal
  deleteTables Table.all
  Op.perform .insertRun
  flushInternal
  Op.perform .clearCounts
  unlock

/-! ## Opening the database -/

/-- The constructor on a database file with the given durable contents: enter a
new run, derive the first id from it, prepare the statements, start a
transaction and count the packets of each type. -/
def Db.opened (durable : Contents) : Db :=
  let key := durable.sequence + 1
  let contents := { durable with runs := durable.runs ++ [key], sequence := key }
  { nextId := 1000000000 * contents.runs.foldl max 0
    contents
    committed := [contents, durable]
    inTransaction := true
    statements := fun _ => .prepared
    countPerType := fun messageType =>
      (contents.rows.filter fun row =>
        row.table = .packet ∧ row.get .hdrMsgType = .nat messageType).length
    maxReached := false
    executed := 0 }

end Nanocap
