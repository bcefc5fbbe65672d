import Nanocap.Database.Put
import Nanocap.Foundation.Loop
import Nanocap.Protocol.Parser

/-! # Segment handling

`handle_tcp` of `packet_handler.cpp`, its four drain loops and the
`handle_message` overloads. `fuel` bounds the iterations of a drain loop; the
result is `none` when it runs out. -/

namespace Nanocap

open Loop (Control)

abbrev Action (α : Type) := EStateM Exception World α

/-! ## Access to the flow -/

def getFlow : Action TcpFlowData := fun world => .ok world.flow world

def modifyFlow (change : TcpFlowData → TcpFlowData) : Action Unit := fun world =>
  .ok () { world with flow := change world.flow }

/-- `catch (std::runtime_error &)`; side effects before the exception stay. -/
def catchRuntimeError {α : Type} (body handler : Action α) : Action α := fun world =>
  match body world with
  | .error .runtimeError stopped => handler stopped
  | result => result

/-- Construct a record from a stream; the stream afterwards tells `ks.pos()`. -/
def construct {α : Type} (reader : Reader α) (stream : KStream) : Action (α × KStream) :=
  fun world =>
    match reader stream with
    | .ok value after => .ok (value, after) world
    | .error exception _ => .error exception world

/-- `find_first_not_of((char)0) == npos`, which holds of an empty string. -/
def allZero (bytes : List UInt8) : Bool := bytes.all (· == 0)

section Details

variable (env : Environment)

/-- A statement that runs only with `bootstrap_details`. -/
def whenBootstrapDetails (put : Put Unit) : Action Unit :=
  if env.config.bootstrapDetails then put.run env else return

def endResponse (info : NanoPacket) (event : TcpFlowData → String) : Action Unit := do
  whenBootstrapDetails env (putConnection info (event (← getFlow)))
  modifyFlow fun _ => .initial

def consumeEntry (stream : KStream) : Action Unit :=
  modifyFlow fun flow => { flow with
    responseCount := flow.responseCount + 1
    accumulatedData := flow.accumulatedData.eraseFront stream.position }

end Details

/-! ## Drain loops -/

section DrainLoops

variable (env : Environment) (info : NanoPacket)

def endOfFrontierReq (flow : TcpFlowData) : String :=
  "end of frontier_req, responses. valid: " ++ toString flow.responseCount ++
    ", invalid: " ++ toString flow.invalidResponseCount

def frontierIteration : Action Control := do
  let buffer := (← getFlow).accumulatedData.toList
  if buffer.length < 64 then return .leave
  catchRuntimeError
    (do
      let (entry, ks) ← construct FrontierEntry.read (.ofBytes (buffer.take 64))
      if allZero entry.account.val then
        endResponse env info endOfFrontierReq
        return .leave
      whenBootstrapDetails env (putFrontierEntry env entry)
      consumeEntry ks
      return .again)
    (do
      modifyFlow fun flow => { flow with
        invalidResponseCount := flow.invalidResponseCount + 1 }
      return .leave)

def endOfBulk (name : String) (flow : TcpFlowData) : String :=
  "end of " ++ name ++ ". valid entries: " ++ toString flow.responseCount ++
    ", invalid: " ++ toString flow.invalidResponseCount

/-- What the bulk_pull and the bulk_push loop share. The exception of a truncated
entry ends the loop; the entry is tried again with the next segment. -/
def bulkIteration {Entry : Type} (name : String) (reader : Reader Entry)
    (put : Entry → Put Unit) : Action Control := do
  let buffer := (← getFlow).accumulatedData.toList
  match buffer.head? with
  | none => return .leave
  | some first =>
      if EnumBlocktype.ofUInt8 first = .notABlock then
        endResponse env info (endOfBulk name)
        return .leave
      catchRuntimeError
        (do
          let (entry, ks) ← construct reader (.ofBytes buffer)
          whenBootstrapDetails env (put entry)
          consumeEntry ks
          return .again)
        (return .leave)

def bulkPullIteration : Action Control :=
  bulkIteration env info "bulk_pull" BulkPullEntry.read fun entry =>
    putBulkPullEntry env entry info

def bulkPushIteration : Action Control :=
  bulkIteration env info "bulk_push" BulkPushEntry.read fun entry =>
    putBulkPushEntry env entry info

/-- The record before the pending entries. The stream stays open over the memory
the erasure shifts. -/
def accountHeader (stream : KStream) : Action KStream := do
  let (entry, ks) ← construct FrontierBalanceEntry.read stream
  whenBootstrapDetails env (putFrontierBalanceEntry entry)
  modifyFlow fun flow => { flow with
    accumulatedData := flow.accumulatedData.eraseFront ks.position
    step := flow.step + 1 }
  return { ks with
    rest := (CircularBuffer.memoryAfterErase stream.rest ks.position).drop ks.position }

/-- One pending entry. Its bytes are not erased. -/
def accountEntry (stream : KStream) : Action Unit := do
  let flags := (← getFlow).requestFlags
  let (entry, _) ← construct (BulkPullAccountEntry.read flags) stream
  if allZero ((entry.source.map (·.val)).getD []) ∨
      allZero ((entry.hash.map (·.val)).getD []) then
    endResponse env info (endOfBulk "bulk_pull_account")
  else
    whenBootstrapDetails env (putBulkPullAccountEntry entry)
    modifyFlow fun flow => { flow with responseCount := flow.responseCount + 1 }

def accountIteration : Action Control := do
  let buffer := (← getFlow).accumulatedData.toList
  if buffer = [] then return .leave
  catchRuntimeError
    (do
      let stream ←
        if (← getFlow).step = 0 then accountHeader env (.ofBytes buffer)
        else pure (.ofBytes buffer)
      if (← getFlow).step = 1 then accountEntry env info stream
      return .again)
    (return .leave)

def drainLoop : EnumMsgtype → Option (Action Control)
  | .frontierReq => some (frontierIteration env info)
  | .bulkPull => some (bulkPullIteration env info)
  | .bulkPush => some (bulkPushIteration env info)
  | .bulkPullAccount => some (accountIteration env info)
  | _ => none

def bootstrapModes : List EnumMsgtype := [.frontierReq, .bulkPull, .bulkPush, .bulkPullAccount]

theorem drainLoop_eq_none_iff {mode : EnumMsgtype} :
    drainLoop env info mode = none ↔ mode ∉ bootstrapModes := by
  cases mode <;> simp [drainLoop, bootstrapModes]

end DrainLoops

/-! ## Messages -/

section Messages

variable (env : Environment) (header : MessageHeader)

/-- What the `handle_message` overloads share. -/
def handleMessage (messageType : EnumMsgtype) (event : String) (put : Put Unit)
    (info : NanoPacket) : Action Unit := do
  modifyFlow fun _ => .reset messageType
  if env.config.connectionDetails then (putConnection info event).run env
  put.run env

def handleKeepalive (msg : MsgKeepalive) (info : NanoPacket) : Action Unit :=
  handleMessage env .keepalive "keepalive" (putKeepalive env header msg info) info

def handleConfirmAck (msg : MsgConfirmAck) (info : NanoPacket) : Action Unit :=
  handleMessage env .confirmAck "confirm_ack" (putConfirmAck env header msg info) info

def handleConfirmReq (msg : MsgConfirmReq) (info : NanoPacket) : Action Unit :=
  handleMessage env .confirmReq "confirm_req" (putConfirmReq env header msg info) info

def handlePublish (msg : MsgPublish) (info : NanoPacket) : Action Unit :=
  handleMessage env .publish "publish" (putPublish env header msg info) info

def handleNodeIdHandshake (msg : MsgNodeIdHandshake) (info : NanoPacket) : Action Unit :=
  handleMessage env .nodeIdHandshake "node_id_handshake"
    (putNodeIdHandshake env header msg info) info

def handleFrontierReq (msg : MsgFrontierReq) (info : NanoPacket) : Action Unit :=
  handleMessage env .frontierReq "frontier_req" (putFrontierReq env header msg info) info

def handleTelemetryReq (info : NanoPacket) : Action Unit :=
  handleMessage env .telemetryReq "telemetry_req" (putTelemetryReq env header info) info

def handleTelemetryAck (msg : MsgTelemetryAck) (info : NanoPacket) : Action Unit :=
  handleMessage env .telemetryAck "telemetry_ack" (putTelemetryAck env header msg info) info

def handleBulkPull (msg : MsgBulkPull) (info : NanoPacket) : Action Unit :=
  handleMessage env .bulkPull "bulk_pull" (putBulkPull env header msg info) info

/-- The entries the message was read with are not stored; the entries that follow
it are left to the drain loop. -/
def handleBulkPush (info : NanoPacket) : Action Unit :=
  handleMessage env .bulkPush "bulk_push" (putBulkPush env header info) info

/-- Unlike the others this one sets a flow field between the reset and the event. -/
def handleBulkPullAccount (msg : MsgBulkPullAccount) (info : NanoPacket) : Action Unit := do
  modifyFlow fun _ => .reset .bulkPullAccount
  modifyFlow fun flow => { flow with requestFlags := msg.flags }
  if env.config.connectionDetails then (putConnection info "bulk_pull_account").run env
  (putBulkPullAccount env header msg info).run env

/-- The switch over the message type, with the cast of the body. The parser's
switch makes the body fit the type. -/
def dispatch (info : NanoPacket) : Body → Action Unit := fun body =>
  match header.messageType, body with
  | .keepalive, .keepalive msg => handleKeepalive env header msg info
  | .confirmAck, .confirmAck msg => handleConfirmAck env header msg info
  | .confirmReq, .confirmReq msg => handleConfirmReq env header msg info
  | .publish, .publish msg => handlePublish env header msg info
  | .nodeIdHandshake, .nodeIdHandshake msg => handleNodeIdHandshake env header msg info
  | .bulkPull, .bulkPull msg => handleBulkPull env header msg info
  | .bulkPush, .bulkPush _ => handleBulkPush env header info
  | .frontierReq, .frontierReq msg => handleFrontierReq env header msg info
  | .bulkPullAccount, .bulkPullAccount msg => handleBulkPullAccount env header msg info
  | .telemetryReq, .telemetryReq => handleTelemetryReq env header info
  | .telemetryAck, .telemetryAck msg => handleTelemetryAck env header msg info
  | _, _ => return

end Messages

/-- The last branch of `handle_tcp`: the segment is read as one message. -/
def handleSegment (env : Environment) (info : NanoPacket) : Action Unit := do
  let (proto, _) ← construct Nano.read (.ofBytes info.data)
  modifyFlow fun _ => .initial
  dispatch env proto.header info proto.body

/-! ## `handle_tcp` -/

structure PcapLiveDevice where
  capturing : Bool
deriving DecidableEq

/-- What `handle_tcp` reads and writes for the packets of one flow. `consumed`
is its static counter. -/
structure Handler extends World where
  consumed : Nat
  packetParseErrorCount : Nat
  dev : Option PcapLiveDevice

/-- Stop the capture when the database has reached its maximum size; looked at
once in ten thousand segments. -/
def Handler.checkMaxReached (handler : Handler) : Handler :=
  let consumed := handler.consumed + 1
  if consumed % 10000 = 0 ∧ handler.db.maxReached then
    { handler with consumed, dev := handler.dev.map fun dev => { dev with capturing := false } }
  else
    { handler with consumed }

def accumulate (info : NanoPacket) (world : World) : World :=
  { world with
    flow.accumulatedData := world.flow.accumulatedData.append info.data }

/-- The body of the `try` block. -/
def processSegment (env : Environment) (fuel : Nat) (info : NanoPacket) (world : World) :
    Option (EStateM.Result Exception World Unit) :=
  match drainLoop env info world.flow.currentMsgType, info.data with
  | some iteration, _ :: _ => Loop.run iteration fuel (accumulate info world)
  | _, _ => some (handleSegment env info world)

/-- The two `catch` clauses. -/
def Handler.settle (handler : Handler) : EStateM.Result Exception World Unit → Handler
  | .ok _ world => { handler with toWorld := world }
  | .error .runtimeError world =>
      { handler with
        toWorld := world
        packetParseErrorCount := handler.packetParseErrorCount + 1 }
  | .error .outOfRange world => { handler with toWorld := world }

def handleTcp (env : Environment) (fuel : Nat) (info : NanoPacket) (handler : Handler) :
    Option Handler :=
  let checked := handler.checkMaxReached
  (processSegment env fuel info checked.toWorld).map checked.settle

/-- `handle_tcp` returns, in the state `after`. -/
def Handles (env : Environment) (info : NanoPacket) (before after : Handler) : Prop :=
  ∃ fuel, handleTcp env fuel info before = some after

/-- `handle_tcp` returns for one segment after the other. -/
inductive HandlesAll (env : Environment) : List NanoPacket → Handler → Handler → Prop where
  | nil (handler : Handler) : HandlesAll env [] handler handler
  | cons {info : NanoPacket} {rest : List NanoPacket} {before middle after : Handler} :
      Handles env info before middle → HandlesAll env rest middle after →
      HandlesAll env (info :: rest) before after

/-! ## A sample capture -/

def Handler.sample : Handler where
  db := .opened .empty
  flow := .initial
  consumed := 0
  packetParseErrorCount := 0
  dev := none

def Handler.waiting (flow : TcpFlowData) : Handler := { Handler.sample with flow }

end Nanocap
