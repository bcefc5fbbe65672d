import Nanocap.Foundation.CircularBuffer
import Nanocap.Protocol.Types

/-! # Packets, flows and configuration

`shared.hpp`, the flow record of `packet_handler.hpp` and the capture section of
`config.hpp`. -/

namespace Nanocap

/-- A delivered segment and the connection data copied with it. The flow it
belongs to is kept apart, as `TcpFlowData`. -/
structure NanoPacket where
  srcIp : String
  dstIp : String
  srcPort : UInt16
  dstPort : UInt16
  timestamp : Int
  timestampUsec : Int
  ipVersion : UInt8
  data : List UInt8
  side : Int
  flowKey : UInt32
deriving DecidableEq

structure TcpFlowData where
  requestingSide : UInt8
  step : Nat
  requestFlags : UInt8
  currentMsgType : EnumMsgtype
  packetId : Nat
  messageId : Nat
  responseCount : Nat
  invalidResponseCount : Nat
  accumulatedData : CircularBuffer UInt8 4096
deriving DecidableEq

namespace TcpFlowData

/-- `reset` overwrites every field, so the flow it is called on does not matter. -/
def reset (messageType : EnumMsgtype) : TcpFlowData where
  requestingSide := 0
  step := 0
  requestFlags := 0
  currentMsgType := messageType
  packetId := 0
  messageId := 0
  responseCount := 0
  invalidResponseCount := 0
  accumulatedData := .empty

/-- The flow a connection starts with, and `reset()` without an argument. -/
def initial : TcpFlowData := reset .invalid

end TcpFlowData

structure ConfigCapture where
  maxCaptureMegabytes : Int
  blockDetails : Bool
  bootstrapDetails : Bool
  connectionDetails : Bool
deriving DecidableEq

def NanoPacket.sample (data : List UInt8) : NanoPacket where
  srcIp := "::1"
  dstIp := "::2"
  srcPort := 7075
  dstPort := 7075
  timestamp := 0
  timestampUsec := 0
  ipVersion := 6
  data := data
  side := 0
  flowKey := 1

end Nanocap
