import Nanocap.Database.Attempts
import Nanocap.Foundation.Invariant
import Nanocap.Foundation.PlainText
import Nanocap.Util.Accounts

/-! # Stored text

Which texts the member functions of `nanocap::db` bind, and what they leave in the
tables, also when SQLite refuses a statement. -/

namespace Nanocap

open Put

/-! ## Texts of the encoders -/

theorem plain_hexDigit {value : Nat} (digit : value < 16) : PlainChar (hexDigit value) := by
  have all : ∀ value : Fin 16, PlainChar (hexDigit value.val) := by decide
  exact all ⟨value, digit⟩

@[simp] theorem plain_toHex (bytes : List UInt8) : Plain (toHex bytes) := by
  refine .ofList fun char member => ?_
  obtain ⟨byte, -, inside⟩ := List.mem_flatMap.mp member
  have bound := byte.toNat_lt
  rcases List.mem_cons.mp inside with rfl | inside
  · exact plain_hexDigit (by omega)
  · rw [List.mem_singleton.mp inside]
    exact plain_hexDigit (Nat.mod_lt _ (by decide))

@[simp] theorem plain_pubToAccount (blake2b : (length : Nat) → List UInt8 → Bytes length)
    (publicBytes : Bytes 32) : Plain (pubToAccount blake2b publicBytes) := by
  have alphabet : ∀ char ∈ accountLookup, PlainChar char :=
    (by decide : Plain "13456789abcdefghijkmnopqrstuwxyz")
  have suffix : Plain "_onan" := by decide
  refine .ofList fun char member => ?_
  rcases List.mem_append.mp (List.mem_reverse.mp member) with digit | letter
  · exact alphabet char (accountDigits_mem char digit)
  · exact suffix char letter

@[simp] theorem plain_balanceToDec (balance : Bytes 16) : Plain (balanceToDec balance) :=
  Nat.plain_repr _

@[simp] theorem plain_joinHashes (hashes : List (Bytes 32)) : Plain (joinHashes hashes) := by
  fun_induction joinHashes hashes with
  | case1 => exact .empty
  | case2 hash => exact plain_toHex _
  | case3 hash hashes _ induction => exact ((plain_toHex _).append (by decide)).append induction

@[simp] theorem Table.plain_name (table : Table) : Plain table.name := by
  cases table <;> decide

theorem plain_twoDigits (value : Nat) : Plain (twoDigits value) := by
  unfold twoDigits
  split
  · exact Plain.append (by decide) (Nat.plain_repr value)
  · exact Nat.plain_repr value

private theorem plain_strftime {size : Nat} {time : Tm} {text : String}
    (written : strftime size time = some text) : Plain text := by
  have dash : Plain "-" := by decide
  have colon : Plain ":" := by decide
  have blank : Plain " " := by decide
  unfold strftime at written
  dsimp only at written
  split at written
  · rw [← Option.some.inj written]
    exact (((((((((Int.plain_repr _).append dash).append (plain_twoDigits _)).append dash).append
      (plain_twoDigits _)).append blank).append (plain_twoDigits _)).append colon).append
      (plain_twoDigits _)).append colon |>.append (plain_twoDigits _)
  · cases written

/-! ## Safe values -/

/-- A value that can be queried: no text, or a plain one. -/
def Value.QuerySafe : Value → Prop
  | .text content => Plain content
  | _ => True

instance (value : Value) : Decidable value.QuerySafe :=
  match value with
  | .text content => inferInstanceAs (Decidable (Plain content))
  | .null | .integer _ | .currentTimestamp => .isTrue trivial

def SafeCells (cells : List Cell) : Prop := ∀ cell ∈ cells, cell.2.QuerySafe

def Row.QuerySafe (row : Row) : Prop := SafeCells row.cells

instance (row : Row) : Decidable row.QuerySafe :=
  List.decidableBAll (fun cell : Cell => cell.2.QuerySafe) row.cells

@[simp] theorem Value.querySafe_text {text : String} :
    (Value.text text).QuerySafe ↔ Plain text := Iff.rfl

@[simp] theorem Value.querySafe_null : Value.null.QuerySafe := trivial

@[simp] theorem Value.querySafe_nat (value : Nat) : (Value.nat value).QuerySafe := trivial

@[simp] theorem Value.querySafe_integer (value : Int) : (Value.integer value).QuerySafe := trivial

@[simp] theorem Value.querySafe_int64 (value : UInt64) : (Value.int64 value).QuerySafe := trivial

@[simp] theorem Value.querySafe_hex (bytes : List UInt8) : (Value.hex bytes).QuerySafe :=
  plain_toHex bytes

theorem Value.querySafe_raw_iff {bytes : List UInt8} :
    (Value.raw bytes).QuerySafe ↔ ∀ byte ∈ bytes, PlainByte byte := plain_ofBytes_iff

theorem Row.QuerySafe.get {row : Row} (safe : row.QuerySafe) (column : Parameter) :
    (row.get column).QuerySafe := by
  unfold Row.get
  cases found : row.cells.lookup column with
  | none => trivial
  | some value =>
      obtain ⟨front, rest, split, -⟩ := List.lookup_eq_some_iff.mp found
      exact safe (column, value) (by rw [split]; simp)

/-! ## Safe operations -/

def Op.QuerySafe : Op → Prop
  | bind _ _ value => value.QuerySafe
  | _ => True

/-- Every text in the database and in its statements can be queried. -/
structure Db.QuerySafe (db : Db) : Prop where
  bindings : ∀ table parameter, ((db.statements table).bindings parameter).QuerySafe
  rows : ∀ row ∈ db.contents.rows, row.QuerySafe
  committed : ∀ snapshot ∈ db.committed, ∀ row ∈ snapshot.rows, row.QuerySafe

private theorem Table.row_querySafe {bindings : Parameter → Value}
    (safe : ∀ parameter, (bindings parameter).QuerySafe) (table : Table) :
    (table.row bindings).QuerySafe := by
  intro cell member
  rcases List.mem_append.mp member with bound | stamp
  · obtain ⟨parameter, -, rfl⟩ := List.mem_map.mp bound
    exact safe parameter
  · cases table <;> simp [Table.stamps] at stamp <;> rw [stamp] <;> trivial

namespace Db.QuerySafe

variable {db : Db}

theorem opened {durable : Contents} (safe : ∀ row ∈ durable.rows, row.QuerySafe) :
    (Db.opened durable).QuerySafe where
  bindings _ _ := trivial
  rows := safe
  committed snapshot member := by
    rcases List.mem_cons.mp member with rfl | member
    · exact safe
    · rw [List.mem_singleton.mp member]
      exact safe

theorem setStatement (safe : db.QuerySafe) {table : Table} {statement : Statement}
    (bindings : ∀ parameter, (statement.bindings parameter).QuerySafe) :
    (db.setStatement table statement).QuerySafe where
  bindings other parameter := by
    change ((Function.update db.statements table statement other).bindings parameter).QuerySafe
    by_cases same : other = table
    · subst same
      rw [Function.update_self]
      exact bindings parameter
    · rw [Function.update_of_ne same]
      exact safe.bindings other parameter
  rows := safe.rows
  committed := safe.committed

theorem setPhase (safe : db.QuerySafe) (table : Table) (phase : Phase) :
    (db.setPhase table phase).QuerySafe := safe.setStatement (safe.bindings table)

theorem bind (safe : db.QuerySafe) (table : Table) (parameter : Parameter) {value : Value}
    (bound : value.QuerySafe) : (db.bind table parameter value).QuerySafe := by
  refine safe.setStatement fun other => ?_
  change (Function.update (db.statements table).bindings parameter value other).QuerySafe
  by_cases same : other = parameter
  · subst same
    rw [Function.update_self]
    exact bound
  · rw [Function.update_of_ne same]
    exact safe.bindings table other

theorem write (safe : db.QuerySafe) {contents : Contents}
    (rows : ∀ row ∈ contents.rows, row.QuerySafe) : (db.write contents).QuerySafe where
  bindings := safe.bindings
  rows := rows
  committed snapshot member := by
    change snapshot ∈ if db.inTransaction then db.committed else contents :: db.committed at member
    split at member
    · exact safe.committed snapshot member
    · rcases List.mem_cons.mp member with rfl | member
      · exact rows
      · exact safe.committed snapshot member

theorem refuse (safe : db.QuerySafe) (env : Environment) : (db.refuse env).QuerySafe := by
  rcases db.refuse_cases env with same | ⟨-, undone⟩
  · rw [same]
    exact ⟨safe.bindings, safe.rows, safe.committed⟩
  · rw [undone]
    refine ⟨safe.bindings, fun row member => ?_, safe.committed⟩
    dsimp only at member
    cases last : db.committed with
    | nil =>
        rw [last] at member
        exact safe.rows row member
    | cons snapshot _ =>
        rw [last] at member
        exact safe.committed snapshot (by simp [last]) row member

theorem insert (safe : db.QuerySafe) (table : Table) : (db.insert table).QuerySafe := by
  refine (safe.setPhase table .done).write fun row member => ?_
  rcases List.mem_append.mp member with old | new
  · exact safe.rows row old
  · rw [List.mem_singleton.mp new]
    exact table.row_querySafe (safe.bindings table)

end Db.QuerySafe

abbrev World.QuerySafe (world : World) : Prop := world.db.QuerySafe

theorem execution_querySafe {α : Type} {env : Environment} {world : World}
    {accepted : EStateM.Result Exception World α} {refused : Db}
    (whenAccepted : (stateOf accepted).QuerySafe) (whenRefused : refused.QuerySafe) :
    (stateOf (execution env world accepted refused)).QuerySafe := by
  unfold execution
  split
  · exact whenRefused
  · exact whenAccepted

private theorem Op.answer_querySafe (env : Environment) {op : Op} (bound : op.QuerySafe)
    (world : World) (safe : world.QuerySafe) : (stateOf (op.answer env world)).QuerySafe := by
  cases op with
  | bind table parameter value =>
      simp only [Op.answer]
      split
      · exact safe.bind table parameter bound
      · exact safe
  | clearBindings table => exact safe.setStatement fun _ => trivial
  | exec table =>
      simp only [Op.answer]
      split
      · exact safe
      · exact execution_querySafe (safe.insert table) ((safe.refuse env).setPhase table .failed)
  | reset table => exact safe.setPhase table .ready
  | commit =>
      simp only [Op.answer]
      split
      · refine execution_querySafe ⟨safe.bindings, safe.rows, fun snapshot member => ?_⟩
          (safe.refuse env)
        rcases List.mem_cons.mp member with rfl | member
        · exact safe.rows
        · exact safe.committed snapshot member
      · exact safe
  | beginTransaction | pageSize | pageCount =>
      all_goals
        exact execution_querySafe ⟨safe.bindings, safe.rows, safe.committed⟩ (safe.refuse env)
  | deleteFrom table =>
      refine execution_querySafe (safe.write fun row member => ?_) (safe.refuse env)
      exact safe.rows row (List.mem_of_mem_filter member)
  | deleteRuns | insertRun =>
      all_goals exact execution_querySafe (safe.write safe.rows) (safe.refuse env)
  | _ => exact ⟨safe.bindings, safe.rows, safe.committed⟩

theorem Put.run_querySafe {α : Type} (env : Environment) {put : Put α}
    (every : put.Every Op.QuerySafe) : Keeps World.QuerySafe (put.run env) := fun _ safe =>
  every.run_keeps World.QuerySafe (fun _ bound => Op.answer_querySafe env bound) safe

/-! ## What the member functions bind -/

/-- The addresses of a packet are texts like `"192.0.2.1"`. -/
structure NanoPacket.PlainIps (info : NanoPacket) : Prop where
  srcIp : Plain info.srcIp
  dstIp : Plain info.dstIp

def Environment.PlainAddresses (env : Environment) : Prop :=
  ∀ address, Plain (env.addressToString address)

theorem Op.perform_every {op : Op} (bound : op.QuerySafe) : op.perform.Every Op.QuerySafe :=
  ⟨bound, fun _ => trivial⟩

theorem Op.perform_bind_every {β : Type} {op : Op} {rest : op.Response → Put β}
    (bound : op.QuerySafe) (later : ∀ response, (rest response).Every Op.QuerySafe) :
    (op.perform >>= rest).Every Op.QuerySafe := ⟨bound, later⟩

theorem bindAll_every (table : Table) {cells : List Cell} (safe : SafeCells cells) :
    (bindAll table cells).Every Op.QuerySafe := by
  induction cells with
  | nil => trivial
  | cons cell cells induction =>
      have first : cell.2.QuerySafe := safe cell List.mem_cons_self
      exact Op.perform_bind_every (by exact first) fun _ =>
        induction fun other member => safe other (List.mem_cons_of_mem _ member)

theorem insert_every (table : Table) {cells : List Cell} (safe : SafeCells cells) :
    (insert table cells).Every Op.QuerySafe :=
  (bindAll_every table safe).bind fun _ =>
    Op.perform_bind_every trivial fun _ => Op.perform_every trivial

section Cells

variable {env : Environment} {info : NanoPacket}

theorem Block.cells_safe (block : Block) (id packetId : Nat) :
    SafeCells (block.cells env id packetId) := by
  cases block <;> simp [SafeCells, Block.cells]

theorem MsgTelemetryAck.cells_safe (msg : MsgTelemetryAck) (id packetId : Nat) :
    SafeCells (msg.cells env id packetId) := by
  simp [SafeCells, MsgTelemetryAck.cells]

theorem MessageHeader.cells_safe (header : MessageHeader) (id : Nat) :
    SafeCells (header.cells id) := by
  simp [SafeCells, MessageHeader.cells]

theorem NanoPacket.packetFields_safe (ips : info.PlainIps) : SafeCells info.packetFields := by
  have fields : SafeCells
      [(.srcip, .text info.srcIp), (.srcport, .nat info.srcPort.toNat),
       (.dstip, .text info.dstIp), (.dstport, .nat info.dstPort.toNat),
       (.timeUsec, .integer info.timestampUsec), (.flowKey, .nat info.flowKey.toNat),
       (.ipv, .nat info.ipVersion.toNat)] := by
    simp [SafeCells, ips.srcIp, ips.dstIp]
  intro cell member
  rcases List.mem_append.mp member with field | time
  · exact fields cell field
  · split at time
    · rename_i text written
      rw [List.mem_singleton.mp time]
      exact plain_strftime written
    · cases time

private theorem NanoPacket.connectionCells_safe (ips : info.PlainIps) {event : String}
    (plain : Plain event) (id : Nat) : SafeCells (info.connectionCells event id) := by
  simp [SafeCells, NanoPacket.connectionCells, ips.srcIp, ips.dstIp, plain]

theorem BulkPullAccountEntry.cells_safe (entry : BulkPullAccountEntry) (flags : UInt8)
    (id messageId : Nat) : SafeCells (entry.cells flags id messageId) := by
  unfold BulkPullAccountEntry.cells
  dsimp only
  split <;> split <;> simp [SafeCells]

theorem MsgFrontierReq.cells_safe {msg : MsgFrontierReq}
    (start : ∀ byte ∈ msg.start.val, PlainByte byte) (id packetId : Nat) :
    SafeCells (msg.cells id packetId) := by
  simpa [SafeCells, MsgFrontierReq.cells, Value.querySafe_raw_iff] using start

end Cells

section Puts

variable {env : Environment} {info : NanoPacket}

theorem flushInternal_every : flushInternal.Every Op.QuerySafe :=
  Op.perform_bind_every trivial fun _ => Op.perform_every trivial

private theorem periodicCommit_every : (periodicCommit env).Every Op.QuerySafe := by
  refine Op.perform_bind_every trivial fun count => ?_
  split
  · refine flushInternal_every.bind fun _ => Op.perform_bind_every trivial fun pageSize =>
      Op.perform_bind_every trivial fun pageCount => ?_
    split
    · exact Op.perform_every trivial
    · trivial
  · trivial

theorem bindHeaderFields_every (header : MessageHeader) (id : Nat) :
    (bindHeaderFields env header id).Every Op.QuerySafe :=
  periodicCommit_every.bind fun _ => Op.perform_bind_every trivial fun _ =>
    (bindAll_every .packet (header.cells_safe id)).bind fun _ => Op.perform_every trivial

theorem putConnection_every (ips : info.PlainIps) {event : String} (plain : Plain event) :
    (putConnection info event).Every Op.QuerySafe :=
  Op.perform_bind_every trivial fun _ => Op.perform_bind_every trivial fun id =>
    (insert_every _ (NanoPacket.connectionCells_safe ips plain id)).bind fun _ =>
      Op.perform_every trivial

theorem putBlock_every {β : Type} (blockSelector : Option BlockSelector) (id packetId : Nat)
    {rest : String → Put β} (later : ∀ name, Plain name → (rest name).Every Op.QuerySafe) :
    (putBlock env blockSelector id packetId >>= rest).Every Op.QuerySafe := by
  unfold putBlock
  split
  · rename_i block _
    rw [bind_assoc]
    exact (insert_every _ (block.cells_safe id packetId)).bind fun _ =>
      later _ block.table.plain_name
  · exact later "" .empty

theorem end_every : (do reset .packet; unlock : Put Unit).Every Op.QuerySafe :=
  Op.perform_bind_every trivial fun _ => Op.perform_every trivial

private theorem bindVoteContent_every (msg : MsgConfirmAck) (packetId : Nat) :
    (bindVoteContent env msg packetId).Every Op.QuerySafe := by
  unfold bindVoteContent
  split
  · refine Op.perform_bind_every trivial fun id => putBlock_every _ id packetId fun name plain =>
      bindAll_every .vote ?_
    simp [SafeCells, plain]
  · split <;> exact bindAll_every .vote (by simp [SafeCells])

section Messages

variable (ips : info.PlainIps) (header : MessageHeader)
include ips

theorem putHeader_every (id : Nat) : (putHeader env header info id).Every Op.QuerySafe :=
  (bindHeaderFields_every header id).bind fun _ =>
    (bindAll_every .packet (NanoPacket.packetFields_safe ips)).bind fun _ =>
      Op.perform_every trivial

theorem message_every {β : Type} {rest : Nat → Put β}
    (later : ∀ packetId, (rest packetId).Every Op.QuerySafe) :
    (do
      let packetId ← fetchAdd
      lock
      putHeader env header info packetId
      rest packetId).Every Op.QuerySafe :=
  Op.perform_bind_every trivial fun packetId => Op.perform_bind_every trivial fun _ =>
    (putHeader_every ips header packetId).bind fun _ => later packetId

theorem putTelemetryReq_every : (putTelemetryReq env header info).Every Op.QuerySafe :=
  message_every ips header fun _ => end_every

theorem putTelemetryAck_every (msg : MsgTelemetryAck) :
    (putTelemetryAck env header msg info).Every Op.QuerySafe :=
  message_every ips header fun packetId => Op.perform_bind_every trivial fun id =>
    (insert_every _ (msg.cells_safe id packetId)).bind fun _ => end_every

theorem putKeepalive_every (addresses : env.PlainAddresses) (msg : MsgKeepalive) :
    (putKeepalive env header msg info).Every Op.QuerySafe := by
  have peers : ∀ packetId peers, (putPeers env packetId peers).Every Op.QuerySafe := by
    intro packetId peers
    induction peers with
    | nil => trivial
    | cons peer peers induction =>
        refine Op.perform_bind_every trivial fun id =>
          (insert_every _ ?_).bind fun _ => induction
        simp [SafeCells, Peer.cells, addresses peer.address]
  exact message_every ips header fun packetId => (peers packetId _).bind fun _ => end_every

theorem putConfirmAck_every (msg : MsgConfirmAck) :
    (putConfirmAck env header msg info).Every Op.QuerySafe := by
  refine Op.perform_bind_every trivial fun packetId => Op.perform_bind_every trivial fun _ =>
    (bindHeaderFields_every header packetId).bind fun _ =>
    (bindAll_every .packet (NanoPacket.packetFields_safe ips)).bind fun _ =>
    (bindVoteContent_every msg packetId).bind fun _ => ?_
  have common : SafeCells (msg.common.cells env) := by simp [SafeCells, VoteCommon.cells]
  refine (bindAll_every .vote common).bind fun _ => Op.perform_bind_every trivial fun id =>
    (insert_every .vote (by simp [SafeCells])).bind fun _ => ?_
  exact (bindAll_every .packet (by simp [SafeCells])).bind fun _ =>
    Op.perform_bind_every trivial fun _ => end_every

theorem putWithBlock_every (blockSelector : Option BlockSelector) :
    (putWithBlock env header blockSelector info).Every Op.QuerySafe := by
  refine Op.perform_bind_every trivial fun packetId => Op.perform_bind_every trivial fun _ =>
    (bindHeaderFields_every header packetId).bind fun _ =>
    (bindAll_every .packet (NanoPacket.packetFields_safe ips)).bind fun _ =>
    Op.perform_bind_every trivial fun id => putBlock_every _ id packetId fun name plain => ?_
  exact (bindAll_every .packet (by simp [SafeCells, plain])).bind fun _ =>
    Op.perform_bind_every trivial fun _ => end_every

theorem putNodeIdHandshake_every (msg : MsgNodeIdHandshake) :
    (putNodeIdHandshake env header msg info).Every Op.QuerySafe := by
  have query : ∀ packetId, (putNodeIdQuery packetId msg.query).Every Op.QuerySafe := by
    intro packetId
    cases msg.query with
    | none => trivial
    | some query =>
        exact Op.perform_bind_every trivial fun id =>
          insert_every _ (by simp [SafeCells, NodeIdQuery.cells])
  have response : ∀ packetId,
      (putNodeIdResponse env packetId msg.response).Every Op.QuerySafe := by
    intro packetId
    cases msg.response with
    | none => trivial
    | some response =>
        exact Op.perform_bind_every trivial fun id =>
          insert_every _ (by simp [SafeCells, NodeIdResponse.cells])
  exact message_every ips header fun packetId => (query packetId).bind fun _ =>
    (response packetId).bind fun _ => end_every

theorem request_every (table : Table) {cells : Nat → Nat → List Cell}
    (safe : ∀ id packetId, SafeCells (cells id packetId)) :
    (do
      let packetId ← fetchAdd
      Op.perform (.setPacketId packetId)
      lock
      putHeader env header info packetId
      let messageId ← fetchAdd
      Op.perform (.setMessageId messageId)
      insert table (cells messageId packetId)
      reset .packet
      unlock : Put Unit).Every Op.QuerySafe :=
  Op.perform_bind_every trivial fun packetId => Op.perform_bind_every trivial fun _ =>
    Op.perform_bind_every trivial fun _ => (putHeader_every ips header packetId).bind fun _ =>
    Op.perform_bind_every trivial fun id => Op.perform_bind_every trivial fun _ =>
    (insert_every table (safe id packetId)).bind fun _ => end_every

theorem putFrontierReq_every {msg : MsgFrontierReq}
    (start : ∀ byte ∈ msg.start.val, PlainByte byte) :
    (putFrontierReq env header msg info).Every Op.QuerySafe :=
  request_every ips header .frontierRequest (MsgFrontierReq.cells_safe start)

theorem putBulkPull_every (msg : MsgBulkPull) :
    (putBulkPull env header msg info).Every Op.QuerySafe :=
  request_every ips header .bulkPullRequest fun _ _ => by simp [SafeCells, MsgBulkPull.cells]

theorem putBulkPullAccount_every (msg : MsgBulkPullAccount) :
    (putBulkPullAccount env header msg info).Every Op.QuerySafe := by
  refine Op.perform_bind_every trivial fun packetId => Op.perform_bind_every trivial fun _ =>
    Op.perform_bind_every trivial fun id => Op.perform_bind_every trivial fun _ =>
    Op.perform_bind_every trivial fun _ => (putHeader_every ips header packetId).bind fun _ =>
    (insert_every _ ?_).bind fun _ => end_every
  simp [SafeCells, MsgBulkPullAccount.cells]

theorem putBulkPush_every : (putBulkPush env header info).Every Op.QuerySafe :=
  Op.perform_bind_every trivial fun packetId => Op.perform_bind_every trivial fun _ =>
    Op.perform_bind_every trivial fun _ => (putHeader_every ips header packetId).bind fun _ =>
    end_every

end Messages

theorem putFrontierEntry_every (entry : FrontierEntry) :
    (putFrontierEntry env entry).Every Op.QuerySafe :=
  Op.perform_bind_every trivial fun _ => Op.perform_bind_every trivial fun id =>
    Op.perform_bind_every trivial fun flow =>
      (insert_every _ (by simp [SafeCells, FrontierEntry.cells])).bind fun _ =>
        Op.perform_every trivial

theorem putBulkEntry_every (ips : info.PlainIps) (table : Table) {request : TcpFlowData → Cell}
    (safe : ∀ flow, (request flow).2.QuerySafe) {event : String} (plain : Plain event)
    (block : BlockSelector) :
    (putBulkEntry env table request event block info).Every Op.QuerySafe := by
  refine Op.perform_bind_every trivial fun _ => Op.perform_bind_every trivial fun contentId =>
    Op.perform_bind_every trivial fun flow => putBlock_every _ _ _ fun name plainName => ?_
  split
  · refine Op.perform_bind_every trivial fun id => (insert_every table ?_).bind fun _ =>
      Op.perform_every trivial
    simp [SafeCells, referenceCells, plainName, safe flow]
  · refine Op.perform_bind_every trivial fun _ => Op.perform_bind_every trivial fun count => ?_
    split
    · exact putConnection_every ips plain
    · trivial

theorem putBulkPullEntry_every (ips : info.PlainIps) (entry : BulkPullEntry) :
    (putBulkPullEntry env entry info).Every Op.QuerySafe :=
  putBulkEntry_every ips _ (fun _ => by exact trivial) (by decide) _

theorem putBulkPushEntry_every (ips : info.PlainIps) (entry : BulkPushEntry) :
    (putBulkPushEntry env entry info).Every Op.QuerySafe :=
  putBulkEntry_every ips _ (fun _ => by exact trivial) (by decide) _

theorem putFrontierBalanceEntry_every (entry : FrontierBalanceEntry) :
    (putFrontierBalanceEntry entry).Every Op.QuerySafe :=
  Op.perform_bind_every trivial fun _ => Op.perform_bind_every trivial fun id =>
    Op.perform_bind_every trivial fun flow =>
      (insert_every _ (by simp [SafeCells, FrontierBalanceEntry.cells])).bind fun _ =>
        Op.perform_every trivial

theorem putBulkPullAccountEntry_every (entry : BulkPullAccountEntry) :
    (putBulkPullAccountEntry entry).Every Op.QuerySafe :=
  Op.perform_bind_every trivial fun _ => Op.perform_bind_every trivial fun id =>
    Op.perform_bind_every trivial fun flow =>
      (insert_every _ (entry.cells_safe flow.requestFlags id flow.messageId)).bind fun _ =>
        Op.perform_every trivial

private theorem deleteTables_every (tables : List Table) :
    (deleteTables tables).Every Op.QuerySafe := by
  induction tables with
  | nil => trivial
  | cons table tables induction =>
      exact Op.perform_bind_every trivial fun _ => flushInternal_every.bind fun _ => induction

theorem flush_every : flush.Every Op.QuerySafe :=
  Op.perform_bind_every trivial fun _ => flushInternal_every.bind fun _ => Op.perform_every trivial

theorem destroyCaptureData_every : destroyCaptureData.Every Op.QuerySafe :=
  Op.perform_bind_every trivial fun _ => Op.perform_bind_every trivial fun _ =>
    flushInternal_every.bind fun _ => (deleteTables_every Table.all).bind fun _ =>
    Op.perform_bind_every trivial fun _ => flushInternal_every.bind fun _ =>
    Op.perform_bind_every trivial fun _ => Op.perform_every trivial

end Puts

/-! ## Safe requests -/

/-- The request carries no bytes that are stored as they are and could not be queried. -/
def Request.QuerySafe : Request → Prop
  | connection event => Plain event
  | frontierReq _ msg => ∀ byte ∈ msg.start.val, PlainByte byte
  | _ => True

section Requests

variable {env : Environment} (addresses : env.PlainAddresses) {info : NanoPacket}
  (ips : info.PlainIps)
include addresses ips

private theorem Request.put_every {request : Request} (safe : request.QuerySafe) :
    (request.put env info).Every Op.QuerySafe := by
  cases request with
  | connection event => exact putConnection_every ips safe
  | telemetryReq header => exact putTelemetryReq_every ips header
  | telemetryAck header msg => exact putTelemetryAck_every ips header msg
  | keepalive header msg => exact putKeepalive_every ips header addresses msg
  | confirmAck header msg => exact putConfirmAck_every ips header msg
  | confirmReq header msg => exact putWithBlock_every ips header msg.block
  | publish header msg => exact putWithBlock_every ips header (some msg.body)
  | nodeIdHandshake header msg => exact putNodeIdHandshake_every ips header msg
  | frontierReq header msg => exact putFrontierReq_every ips header safe
  | bulkPull header msg => exact putBulkPull_every ips header msg
  | bulkPullAccount header msg => exact putBulkPullAccount_every ips header msg
  | bulkPush header => exact putBulkPush_every ips header
  | frontierEntry entry => exact putFrontierEntry_every entry
  | bulkPullEntry entry => exact putBulkPullEntry_every ips entry
  | bulkPushEntry entry => exact putBulkPushEntry_every ips entry
  | frontierBalanceEntry entry => exact putFrontierBalanceEntry_every entry
  | bulkPullAccountEntry entry => exact putBulkPullAccountEntry_every entry

omit addresses ips in
theorem Request.querySafe_of_rows {request : Request}
    (stored : ∀ row ∈ (stateOf ((request.put env info).run (env.refusing fun _ => false)
      ⟨.opened .empty, .initial⟩)).db.contents.rows, row.QuerySafe) {insertion : Insertion}
    (member : insertion ∈ (request.plan (env.refusing fun _ => false) info
      (Db.opened .empty).nextId .initial).insertions) {parameter : Parameter} {value : Value}
    (column : parameter ∈ insertion.table.parameters)
    (bound : boundTo insertion.cells parameter = some value) : value.QuerySafe := by
  obtain ⟨before, inserted⟩ := exists_row_of_mem member
  have run := request.run_put env.refusing_neverFails info
    (by exact Db.opened_ready _ : (World.mk (.opened .empty) .initial).db.Ready)
  rw [request.put_refusing] at run
  rw [run] at stored
  have safe := stored (insertion.row before) (by
    change insertion.row before ∈ (Db.store _ _ _).contents.rows
    rw [Db.store_rows]
    exact List.mem_append_right _ inserted)
  have get := safe.get parameter
  rwa [Insertion.get_row column bound] at get

/-- Whichever statements SQLite refuses, the rows a request inserts can be queried
exactly when the request is safe. -/
theorem Request.rows_querySafe_iff (request : Request) :
    (∀ (refuses : Nat → Bool) (world : World), world.QuerySafe →
      ∀ row ∈ (stateOf ((request.put env info).run (env.refusing refuses) world)).db.contents.rows,
        row.QuerySafe) ↔ request.QuerySafe := by
  constructor
  · intro always
    have stored := always (fun _ => false) ⟨.opened .empty, .initial⟩
      (Db.QuerySafe.opened fun row member => absurd member List.not_mem_nil)
    cases request with
    | connection event =>
        exact Request.querySafe_of_rows stored List.mem_cons_self
          (by decide : Parameter.event ∈ Table.connection.parameters) rfl
    | frontierReq header msg =>
        exact Value.querySafe_raw_iff.mp (Request.querySafe_of_rows stored
          (List.mem_cons_of_mem _ List.mem_cons_self)
          (by decide : Parameter.start ∈ Table.frontierRequest.parameters) rfl)
    | _ => trivial
  · intro safe refuses world kept
    exact (Put.run_querySafe (env.refusing refuses) (Request.put_every addresses ips safe)
      world kept).rows

end Requests

end Nanocap
