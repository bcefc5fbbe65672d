import Mathlib.Logic.Function.Basic
import Nanocap.PacketHandler.HandleTcp

/-! # The packet handler

The reassembly callbacks fill `packet_queue` on the capture thread, and the
processing thread hands its packets to `handle_tcp`. A callback, a call of
`handle_tcp` and a call of the database from elsewhere are one event each. -/

namespace Nanocap

/-! ## Lossy deliveries -/

/-- The bytes `ing]`. -/
def missingMark : List UInt8 := [0x69, 0x6e, 0x67, 0x5d]

def containsMissingMark : List UInt8 → Bool
  | [] => false
  | byte :: rest => missingMark.isPrefixOf (byte :: rest) || containsMissingMark rest

/-- `[` is 0x5b. -/
def hasMissingData (data : List UInt8) : Bool :=
  16 < data.length && data.head? == some 0x5b && containsMissingMark data

/-! ## State -/

/-- What the callbacks read of `pcpp::ConnectionData`. -/
structure ConnectionData where
  srcIp : String
  dstIp : String
  srcPort : UInt16
  dstPort : UInt16
  endTime : Int
  endTimeUsec : Int
  isIpv4 : Bool
  flowKey : UInt32
deriving DecidableEq

/-- The packet queued for data delivered on the connection. The events of a
connection are stored with the same connection fields. -/
def ConnectionData.packet (connection : ConnectionData) (side : Int) (data : List UInt8) :
    NanoPacket where
  srcIp := connection.srcIp
  dstIp := connection.dstIp
  srcPort := connection.srcPort
  dstPort := connection.dstPort
  timestamp := connection.endTime
  timestampUsec := connection.endTimeUsec
  ipVersion := if connection.isIpv4 then 4 else 6
  data := data
  side := side
  flowKey := connection.flowKey

def ConnectionData.sample : ConnectionData where
  srcIp := "::1"
  dstIp := "::2"
  srcPort := 7075
  dstPort := 7075
  endTime := 0
  endTimeUsec := 0
  isIpv4 := false
  flowKey := 1

/-- `connMgr` maps a flow key to the flow that packets of the key share; nothing
is ever erased from it. `consumed` is the static counter of `handle_tcp`. -/
structure PacketHandler where
  db : Db
  connMgr : UInt32 → Option TcpFlowData
  packetQueue : List NanoPacket
  consumed : Nat
  packetParseErrorCount : Nat
  dev : Option PcapLiveDevice

namespace PacketHandler

def opened (durable : Contents) : PacketHandler where
  db := .opened durable
  connMgr _ := none
  packetQueue := []
  consumed := 0
  packetParseErrorCount := 0
  dev := none

def setFlow (handler : PacketHandler) (key : UInt32) (flow : TcpFlowData) : PacketHandler :=
  { handler with connMgr := Function.update handler.connMgr key (some flow) }

@[simp] theorem setFlow_self (handler : PacketHandler) (key : UInt32) (flow : TcpFlowData) :
    (handler.setFlow key flow).connMgr key = some flow :=
  Function.update_self ..

theorem setFlow_of_ne {key other : UInt32} (different : other ≠ key) (handler : PacketHandler)
    (flow : TcpFlowData) : (handler.setFlow key flow).connMgr other = handler.connMgr other :=
  Function.update_of_ne different ..

/-- What a call of `handle_tcp` for a packet of a flow works on. -/
def view (handler : PacketHandler) (flow : TcpFlowData) : Handler where
  db := handler.db
  flow := flow
  consumed := handler.consumed
  packetParseErrorCount := handler.packetParseErrorCount
  dev := handler.dev

/-- Take over what a call of `handle_tcp` leaves. -/
def update (handler : PacketHandler) (key : UInt32) (after : Handler) : PacketHandler :=
  { handler with
    db := after.db
    connMgr := Function.update handler.connMgr key (some after.flow)
    consumed := after.consumed
    packetParseErrorCount := after.packetParseErrorCount
    dev := after.dev }

/-! ## Callbacks -/

variable (env : Environment)

def callDb (put : Put Unit) (handler : PacketHandler) : PacketHandler :=
  { handler with db := (stateOf (put.run env ⟨handler.db, .initial⟩)).db }

/-- `tcpReassemblyConnectionStartCallback`. A flow starts out as `reset` leaves
it, so a known flow and a new one end up the same. An exception leaves the
callback before the flow is looked at. -/
def connectionStart (connection : ConnectionData) (handler : PacketHandler) : PacketHandler :=
  match (putConnection (connection.packet 0 []) "open connection").run env
      ⟨handler.db, .initial⟩ with
  | .ok _ world => { handler with db := world.db }.setFlow connection.flowKey .initial
  | .error _ world => { handler with db := world.db }

/-- `tcpReassemblyConnectionEndCallback` -/
def connectionEnd (connection : ConnectionData) (handler : PacketHandler) : PacketHandler :=
  handler.callDb env (putConnection (connection.packet 0 []) "close connection")

/-- `tcpReassemblyMsgReadyCallback` -/
def messageReady (connection : ConnectionData) (side : Int) (data : List UInt8)
    (handler : PacketHandler) : PacketHandler :=
  if data = [] then handler
  else
    let known :=
      match handler.connMgr connection.flowKey with
      | some _ => handler
      | none => handler.setFlow connection.flowKey .initial
    if hasMissingData data then known
    else { known with packetQueue := known.packetQueue ++ [connection.packet side data] }

end PacketHandler

/-! ## Runs -/

inductive Event where
  | connectionStart (connection : ConnectionData)
  | messageReady (connection : ConnectionData) (side : Int) (data : List UInt8)
  | connectionEnd (connection : ConnectionData)
  /-- The packet at the front of the queue is handled. -/
  | handleNext
  | flush
  | destroyCaptureData
  /-- The process ends, and another one opens what was made durable last. -/
  | restart
deriving DecidableEq

inductive PacketHandler.Handled (env : Environment) (info : NanoPacket)
    (before : PacketHandler) : PacketHandler → Prop where
  | mk {flow : TcpFlowData} {after : Handler} :
      before.connMgr info.flowKey = some flow → Handles env info (before.view flow) after →
      Handled env info before (before.update info.flowKey after)

/-- The events and what they do. A process can end at any time, so that any content
made durable so far may be the last one. -/
inductive Step (env : Environment) : PacketHandler → Event → PacketHandler → Prop where
  | connectionStart (before : PacketHandler) (connection : ConnectionData) :
      Step env before (.connectionStart connection) (before.connectionStart env connection)
  | messageReady (before : PacketHandler) (connection : ConnectionData) (side : Int)
      (data : List UInt8) :
      Step env before (.messageReady connection side data)
        (before.messageReady connection side data)
  | connectionEnd (before : PacketHandler) (connection : ConnectionData) :
      Step env before (.connectionEnd connection) (before.connectionEnd env connection)
  | handleNext {before after : PacketHandler} {info : NanoPacket} {rest : List NanoPacket} :
      before.packetQueue = info :: rest →
      { before with packetQueue := rest }.Handled env info after →
      Step env before .handleNext after
  | flush (before : PacketHandler) : Step env before .flush (before.callDb env flush)
  | destroyCaptureData (before : PacketHandler) :
      Step env before .destroyCaptureData (before.callDb env destroyCaptureData)
  | restart {before : PacketHandler} {durable : Contents} : durable ∈ before.db.committed →
      Step env before .restart (.opened durable)

inductive Run (env : Environment) : PacketHandler → List Event → PacketHandler → Prop where
  | nil (handler : PacketHandler) : Run env handler [] handler
  | cons {before middle after : PacketHandler} {event : Event} {events : List Event} :
      Step env before event middle → Run env middle events after →
      Run env before (event :: events) after

/-! ## Execution -/

namespace PacketHandler

variable (env : Environment) (fuel : Nat)

/-- `none` when there is nothing to handle, or the fuel runs out. -/
def handleNext (handler : PacketHandler) : Option PacketHandler :=
  match handler.packetQueue with
  | [] => none
  | info :: rest =>
      (handler.connMgr info.flowKey).bind fun flow =>
        (handleTcp env fuel info (handler.view flow)).map
          ({ handler with packetQueue := rest }.update info.flowKey)

def perform (handler : PacketHandler) : Event → Option PacketHandler
  | .connectionStart connection => some (handler.connectionStart env connection)
  | .messageReady connection side data => some (handler.messageReady connection side data)
  | .connectionEnd connection => some (handler.connectionEnd env connection)
  | .handleNext => handler.handleNext env fuel
  | .flush => some (handler.callDb env flush)
  | .destroyCaptureData => some (handler.callDb env destroyCaptureData)
  | .restart => handler.db.committed.head?.map .opened

def performAll : PacketHandler → List Event → Option PacketHandler
  | handler, [] => some handler
  | handler, event :: events =>
      (handler.perform env fuel event).bind fun next => next.performAll events

end PacketHandler

theorem Step.of_handleNext {env : Environment} {fuel : Nat} {before after : PacketHandler}
    (performs : before.handleNext env fuel = some after) : Step env before .handleNext after := by
  unfold PacketHandler.handleNext at performs
  split at performs
  · cases performs
  · rename_i info rest queue
    obtain ⟨flow, known, performs⟩ := Option.bind_eq_some_iff.mp performs
    obtain ⟨handlerAfter, handles, rfl⟩ := Option.map_eq_some_iff.mp performs
    have handled : { before with packetQueue := rest }.Handled env info _ :=
      .mk known ⟨fuel, handles⟩
    exact .handleNext queue handled

theorem Step.of_perform {env : Environment} {fuel : Nat} {before after : PacketHandler}
    {event : Event} (performs : before.perform env fuel event = some after) :
    Step env before event after := by
  cases event with
  | connectionStart connection =>
      exact Option.some.inj performs ▸ .connectionStart before connection
  | messageReady connection side data =>
      exact Option.some.inj performs ▸ .messageReady before connection side data
  | connectionEnd connection => exact Option.some.inj performs ▸ .connectionEnd before connection
  | handleNext => exact .of_handleNext performs
  | flush => exact Option.some.inj performs ▸ .flush before
  | destroyCaptureData => exact Option.some.inj performs ▸ .destroyCaptureData before
  | restart =>
      obtain ⟨durable, last, rfl⟩ := Option.map_eq_some_iff.mp performs
      exact .restart (List.mem_of_head? last)

theorem Run.of_performAll {env : Environment} {fuel : Nat} {before after : PacketHandler}
    {events : List Event} (performs : before.performAll env fuel events = some after) :
    Run env before events after := by
  induction events generalizing before with
  | nil => exact Option.some.inj performs ▸ .nil before
  | cons event events induction =>
      obtain ⟨middle, first, rest⟩ := Option.bind_eq_some_iff.mp performs
      exact .cons (.of_perform first) (induction rest)

namespace Run

variable {env : Environment} {before middle after : PacketHandler}

theorem append {first second : List Event} (start : Run env before first middle)
    (rest : Run env middle second after) : Run env before (first ++ second) after := by
  induction start with
  | nil handler => exact rest
  | cons step _ induction => exact .cons step (induction rest)

theorem keeps {kept : PacketHandler → Prop} {allowed : Event → Prop}
    (each : ∀ {before event after}, allowed event → Step env before event after →
      kept before → kept after) {events : List Event} (run : Run env before events after)
    (all : ∀ event ∈ events, allowed event) (start : kept before) : kept after := by
  induction run with
  | nil handler => exact start
  | cons step _ induction =>
      exact induction (fun event member => all event (by simp [member]))
        (each (all _ (by simp)) step start)

end Run

end Nanocap
