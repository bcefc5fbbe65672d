import Mathlib.Logic.Function.Basic
import Nanocap.Kaitai.Stream
import Nanocap.Shared

/-! # The capture database

Tables, prepared statements and transactions as `db.cpp` uses them, and the
operations its member functions are made of. Every data table has exactly one
prepared `INSERT`, so a statement is named by the table it inserts into. -/

namespace Nanocap

/-! ## Tables and rows -/

/-- The data tables, in the order the constructor creates them. -/
inductive Table where
  | packet
  | connection
  | keepaliveHost
  | vote
  | blockState
  | blockSend
  | blockReceive
  | blockOpen
  | blockChange
  | nodeidQuery
  | nodeidResponse
  | telemetry
  | frontierRequest
  | frontierResponse
  | bulkPullRequest
  | bulkPullResponse
  | bulkPullAccountRequest
  | bulkPullAccountResponse
  | bulkPullAccountResponseEntry
  | bulkPushEntry
deriving DecidableEq

def Table.all : List Table :=
  [.packet, .connection, .keepaliveHost, .vote, .blockState, .blockSend, .blockReceive,
   .blockOpen, .blockChange, .nodeidQuery, .nodeidResponse, .telemetry, .frontierRequest,
   .frontierResponse, .bulkPullRequest, .bulkPullResponse, .bulkPullAccountRequest,
   .bulkPullAccountResponse, .bulkPullAccountResponseEntry, .bulkPushEntry]

def Table.name : Table → String
  | packet => "packet"
  | connection => "connection"
  | keepaliveHost => "keepalive_host"
  | vote => "vote"
  | blockState => "block_state"
  | blockSend => "block_send"
  | blockReceive => "block_receive"
  | blockOpen => "block_open"
  | blockChange => "block_change"
  | nodeidQuery => "nodeid_query"
  | nodeidResponse => "nodeid_response"
  | telemetry => "telemetry"
  | frontierRequest => "frontier_request"
  | frontierResponse => "frontier_response"
  | bulkPullRequest => "bulk_pull_request"
  | bulkPullResponse => "bulk_pull_response"
  | bulkPullAccountRequest => "bulk_pull_account_request"
  | bulkPullAccountResponse => "bulk_pull_account_response"
  | bulkPullAccountResponseEntry => "bulk_pull_account_response_entry"
  | bulkPushEntry => "bulk_push_entry"

/-- The named parameters of the `INSERT` statements. `:end` is `stop`. -/
inductive Parameter where
  | id | packetId | flowKey | ipv | srcip | srcport | dstip | dstport | flowkey | event
  | hdrMsgType | hdrVersionUsing | hdrVersionMin | hdrBlockType | hdrExtensions
  | contentTable | contentId | time | timeUsec
  | address | port
  | voteCount | vbh | account | signature | sequence | hashes
  | hash | previous | representative | balance | link | work | destination | source
  | cookie | nodeid | nodeidAsAccount
  | blockcount | cementedcount | uncheckedcount | accountcount | bandwidthcap | uptime
  | peercount | protocolversion | genesisblock | majorversion | minorversion
  | patchversion | prereleaseversion | maker | timestamp | activedifficulty
  | start | age | count | frontierRequestId | frontierHash
  | stop | extendedCount | bulkPullRequestId
  | minimumAmount | flags | bulkPullAccountRequestId | amount
deriving DecidableEq

/-- What a parameter is bound to. Raw bytes bound as text are read as Latin-1;
`CURRENT_TIMESTAMP` stays symbolic. -/
inductive Value where
  | null
  | integer (value : Int)
  | text (value : String)
  | currentTimestamp
deriving DecidableEq

abbrev Cell := Parameter × Value

/-- The parameters of the statement, in the order of its `VALUES`. -/
def Table.parameters : Table → List Parameter
  | packet => [.id, .flowKey, .ipv, .hdrMsgType, .hdrVersionUsing, .hdrVersionMin,
      .hdrBlockType, .hdrExtensions, .contentTable, .contentId, .srcip, .srcport, .dstip,
      .dstport, .time, .timeUsec]
  | connection => [.id, .ipv, .srcip, .srcport, .dstip, .dstport, .flowkey, .event]
  | keepaliveHost => [.id, .packetId, .address, .port]
  | vote => [.id, .packetId, .contentTable, .contentId, .voteCount, .vbh, .account,
      .signature, .sequence, .hashes]
  | blockState => [.id, .packetId, .hash, .account, .previous, .representative, .balance,
      .link, .signature, .work]
  | blockSend => [.id, .packetId, .hash, .previous, .destination, .balance, .signature,
      .work]
  | blockReceive => [.id, .packetId, .hash, .previous, .source, .signature, .work]
  | blockOpen => [.id, .packetId, .hash, .source, .representative, .account, .signature,
      .work]
  | blockChange => [.id, .packetId, .hash, .previous, .representative, .signature, .work]
  | nodeidQuery => [.id, .packetId, .cookie]
  | nodeidResponse => [.id, .packetId, .nodeid, .nodeidAsAccount, .signature]
  | telemetry => [.id, .packetId, .signature, .nodeid, .nodeidAsAccount, .blockcount,
      .cementedcount, .uncheckedcount, .accountcount, .bandwidthcap, .uptime, .peercount,
      .protocolversion, .genesisblock, .majorversion, .minorversion, .patchversion,
      .prereleaseversion, .maker, .timestamp, .activedifficulty]
  | frontierRequest => [.id, .packetId, .start, .age, .count]
  | frontierResponse => [.id, .frontierRequestId, .account, .frontierHash]
  | bulkPullRequest => [.id, .packetId, .start, .stop, .extendedCount]
  | bulkPullResponse => [.id, .bulkPullRequestId, .contentId, .contentTable]
  | bulkPullAccountRequest => [.id, .packetId, .account, .minimumAmount, .flags]
  | bulkPullAccountResponse => [.id, .bulkPullAccountRequestId, .frontierHash, .balance]
  | bulkPullAccountResponseEntry => [.id, .bulkPullAccountRequestId, .hash, .amount, .source]
  | bulkPushEntry => [.id, .packetId, .contentId, .contentTable]

/-- The columns the statement fills with an expression instead of a parameter. -/
def Table.stamps : Table → List Cell
  | connection => [(.time, .currentTimestamp)]
  | keepaliveHost => [(.time, .currentTimestamp)]
  | _ => []

structure Row where
  table : Table
  cells : List Cell
deriving DecidableEq

/-- The value in a column, which is `NULL` where the table has no such column. -/
def Row.get (row : Row) (column : Parameter) : Value :=
  (row.cells.lookup column).getD .null

/-! ## Database contents -/

/-- What a transaction commits: the data rows in the order of their insertion,
the keys of the `runs` table, and the largest key `sqlite_sequence` remembers
for it. -/
structure Contents where
  rows : List Row
  runs : List Nat
  sequence : Nat

def Contents.empty : Contents := ⟨[], [], 0⟩

/-! ## Prepared statements -/

/-- Where a prepared statement stands since its last reset. -/
inductive Phase where
  | ready
  | done
  | failed
deriving DecidableEq

/-- The bindings survive execution and reset. -/
structure Statement where
  bindings : Parameter → Value
  phase : Phase

def Statement.prepared : Statement := ⟨fun _ => .null, .ready⟩

/-- Bind parameters in order, so that a later binding wins. -/
def overwrite (bindings : Parameter → Value) (cells : List Cell) : Parameter → Value :=
  cells.foldl (fun current cell => Function.update current cell.1 cell.2) bindings

def Table.row (table : Table) (bindings : Parameter → Value) : Row where
  table := table
  cells := table.parameters.map (fun parameter => (parameter, bindings parameter)) ++
    table.stamps

/-- The state of a `nanocap::db`. `committed` holds every content made durable
so far, the last one first; `executed` counts statement executions. -/
structure Db where
  nextId : Nat
  contents : Contents
  committed : List Contents
  inTransaction : Bool
  statements : Table → Statement
  countPerType : Nat → Nat
  maxReached : Bool
  executed : Nat

/-- Everything outside the program its database code depends on. `fails` tells
which statement executions SQLite refuses, and `rollsBack` which refusals undo the
open transaction, as those for a full disk and a failed write do. -/
structure Environment where
  config : ConfigCapture
  blake2b : (length : Nat) → List UInt8 → Bytes length
  addressToString : Bytes 16 → String
  pageSize : Int
  pageCount : Contents → Int
  fails : Nat → Bool
  rollsBack : Nat → Bool

def Environment.NeverFails (env : Environment) : Prop := ∀ execution, env.fails execution = false

/-- All details recorded but the connection events, and no failing statement. -/
def Environment.sample : Environment where
  config := ⟨1024, true, true, false⟩
  blake2b length _ := .zero length
  addressToString _ := "::1"
  pageSize := 4096
  pageCount _ := 0
  fails _ := false
  rollsBack _ := false

theorem Environment.sample_neverFails : Environment.sample.NeverFails := fun _ => rfl

/-- What one call of a `put` function works on: the database and the flow of the
packet it was given. -/
structure World where
  db : Db
  flow : TcpFlowData

/-! ## Operations -/

inductive Op where
  | fetchAdd
  | nextId
  | lock
  | unlock
  | bind (table : Table) (parameter : Parameter) (value : Value)
  | clearBindings (table : Table)
  | exec (table : Table)
  | reset (table : Table)
  | commit
  | beginTransaction
  | pageSize
  | pageCount
  | setMaxReached
  | countType (messageType : EnumMsgtype)
  | readFlow
  | setPacketId (id : Nat)
  | setMessageId (id : Nat)
  | addInvalidResponse
  | deleteFrom (table : Table)
  | deleteRuns
  | insertRun
  | clearCounts

@[reducible] def Op.Response : Op → Type
  | fetchAdd => Nat
  | nextId => Nat
  | pageSize => Int
  | pageCount => Int
  | readFlow => TcpFlowData
  | addInvalidResponse => Nat
  | _ => Unit

namespace Db

def setStatement (db : Db) (table : Table) (statement : Statement) : Db :=
  { db with statements := Function.update db.statements table statement }

def bind (db : Db) (table : Table) (parameter : Parameter) (value : Value) : Db :=
  let statement := db.statements table
  db.setStatement table
    { statement with bindings := Function.update statement.bindings parameter value }

def clearBindings (db : Db) (table : Table) : Db :=
  db.setStatement table { db.statements table with bindings := fun _ => .null }

def setPhase (db : Db) (table : Table) (phase : Phase) : Db :=
  db.setStatement table { db.statements table with phase }

/-- Make the current contents durable, when no transaction keeps them back. -/
def autocommit (db : Db) : Db :=
  { db with
    committed := if db.inTransaction then db.committed else db.contents :: db.committed }

def write (db : Db) (contents : Contents) : Db :=
  autocommit { db with contents, executed := db.executed + 1 }

/-- Execute the statement of `table`. -/
def insert (db : Db) (table : Table) : Db :=
  let row := table.row (db.statements table).bindings
  (db.setPhase table .done).write { db.contents with rows := db.contents.rows ++ [row] }

/-- What the open transaction wrote is lost, and later statements commit on their own. -/
def rollBack (db : Db) : Db :=
  if db.inTransaction then
    { db with contents := db.committed.headD db.contents, inTransaction := false }
  else db

/-- An execution that SQLite refused. -/
def refuse (env : Environment) (db : Db) : Db :=
  let refused := { db with executed := db.executed + 1 }
  if env.rollsBack db.executed then refused.rollBack else refused

theorem refuse_cases (env : Environment) (db : Db) :
    db.refuse env = { db with executed := db.executed + 1 } ∨
      db.inTransaction = true ∧ db.refuse env = { db with
        contents := db.committed.headD db.contents
        inTransaction := false
        executed := db.executed + 1 } := by
  unfold refuse rollBack
  dsimp only
  split
  · split
    · exact .inr ⟨‹_›, rfl⟩
    · exact .inl rfl
  · exact .inl rfl

theorem refuse_of_keeps {env : Environment} {db : Db} (keeps : env.rollsBack db.executed = false) :
    db.refuse env = { db with executed := db.executed + 1 } :=
  if_neg (Bool.eq_false_iff.mp keeps)

@[simp] theorem refuse_executed (env : Environment) (db : Db) :
    (db.refuse env).executed = db.executed + 1 := by
  rcases db.refuse_cases env with same | ⟨-, undone⟩
  · rw [same]
  · rw [undone]

end Db

/-- A statement execution: `refused` when SQLite refuses it, else `accepted`. -/
def execution {α : Type} (env : Environment) (world : World)
    (accepted : EStateM.Result Exception World α) (refused : Db) :
    EStateM.Result Exception World α :=
  if env.fails world.db.executed then .error .runtimeError { world with db := refused }
  else accepted

/-- What each operation does. The locks only matter between threads; a call that
runs alone passes them. -/
def Op.answer (env : Environment) : (op : Op) → EStateM Exception World op.Response
  | fetchAdd => fun world =>
      .ok world.db.nextId { world with db.nextId := world.db.nextId + 1 }
  | nextId => fun world => .ok world.db.nextId world
  | lock => fun world => .ok () world
  | unlock => fun world => .ok () world
  | bind table parameter value => fun world =>
      -- `sqlite3_bind` answers `SQLITE_MISUSE` for a statement stepped and not reset
      if (world.db.statements table).phase = .ready then
        .ok () { world with db := world.db.bind table parameter value }
      else
        .error .runtimeError world
  | clearBindings table => fun world =>
      .ok () { world with db := world.db.clearBindings table }
  | exec table => fun world =>
      if (world.db.statements table).phase = .done then
        .error .runtimeError world
      else
        execution env world (.ok () { world with db := world.db.insert table })
          ((world.db.refuse env).setPhase table .failed)
  | reset table => fun world =>
      .ok () { world with db := world.db.setPhase table .ready }
  | commit => fun world =>
      -- `Transaction::commit` throws when it has committed already, and SQLite refuses
      -- a `COMMIT` outside a transaction
      if world.db.inTransaction then
        execution env world
          (.ok () { world with
            db.inTransaction := false
            db.committed := world.db.contents :: world.db.committed
            db.executed := world.db.executed + 1 })
          (world.db.refuse env)
      else
        .error .runtimeError world
  | beginTransaction => fun world =>
      execution env world
        (.ok () { world with
          db.inTransaction := true, db.executed := world.db.executed + 1 })
        (world.db.refuse env)
  | pageSize => fun world =>
      execution env world
        (.ok env.pageSize { world with db.executed := world.db.executed + 1 })
        (world.db.refuse env)
  | pageCount => fun world =>
      execution env world
        (.ok (env.pageCount world.db.contents)
          { world with db.executed := world.db.executed + 1 })
        (world.db.refuse env)
  | setMaxReached => fun world => .ok () { world with db.maxReached := true }
  | countType messageType => fun world =>
      let index := messageType.toUInt8.toNat
      .ok () { world with
        db.countPerType := Function.update world.db.countPerType index
          (world.db.countPerType index + 1) }
  | readFlow => fun world => .ok world.flow world
  | setPacketId id => fun world => .ok () { world with flow.packetId := id }
  | setMessageId id => fun world => .ok () { world with flow.messageId := id }
  | addInvalidResponse => fun world =>
      let count := world.flow.invalidResponseCount + 1
      .ok count { world with flow.invalidResponseCount := count }
  | deleteFrom table => fun world =>
      let rows := world.db.contents.rows.filter fun row => row.table ≠ table
      execution env world
        (.ok () { world with db := world.db.write { world.db.contents with rows } })
        (world.db.refuse env)
  | deleteRuns => fun world =>
      execution env world
        (.ok () { world with db := world.db.write { world.db.contents with runs := [] } })
        (world.db.refuse env)
  | insertRun => fun world =>
      -- an `AUTOINCREMENT` key is larger than every key the table ever held
      let contents := world.db.contents
      let key := contents.sequence + 1
      execution env world
        (.ok () { world with
          db := world.db.write { contents with runs := contents.runs ++ [key], sequence := key } })
        (world.db.refuse env)
  | clearCounts => fun world => .ok () { world with db.countPerType := fun _ => 0 }

/-- A member function of `nanocap::db`. -/
abbrev Put (α : Type) := Program Op Op.Response α

/-- Run a member function to its end, without other threads in between. -/
def Put.run {α : Type} (env : Environment) (put : Put α) : EStateM Exception World α :=
  Program.run (Op.answer env) put

def Op.perform (op : Op) : Put op.Response := .perform op .done

end Nanocap
