import Nanocap.PacketHandler.FlowState
import Nanocap.PacketHandler.Responses

/-! # Responses to frontier_req -/

namespace Nanocap

open Framing (stream Truncated)

structure FrontierEntry.Live extends FrontierEntry where
  live : ¬allZero account.val
deriving DecidableEq

namespace FrontierEntry

def terminator : List UInt8 := List.replicate 64 0

def zero : FrontierEntry := ⟨.zero 32, .zero 32⟩

private theorem zero_wire : zero.wire = terminator := rfl

theorem length_wire (entry : FrontierEntry) : entry.wire.length = 64 :=
  codec.length entry trivial

def row (env : Environment) (messageId id : Nat) (entry : FrontierEntry) : Row :=
  Table.frontierResponse.rowOf (entry.cells env id messageId)

namespace Live

def wire (entry : Live) : List UInt8 := entry.toFrontierEntry.wire

def rows (env : Environment) (messageId id : Nat) (entry : Live) : List Row :=
  [entry.row env messageId id]

end Live

end FrontierEntry

def endOfFrontierReqText (valid : Nat) : String :=
  "end of frontier_req, responses. valid: " ++ toString valid ++ ", invalid: 0"

theorem endOfFrontierReq_of_valid {flow : TcpFlowData} (valid : flow.invalidResponseCount = 0) :
    endOfFrontierReq flow = endOfFrontierReqText flow.responseCount := by
  unfold endOfFrontierReq endOfFrontierReqText
  rw [valid, String.append_assoc]
  generalize "end of frontier_req, responses. valid: " ++ toString flow.responseCount = text
  rfl

section Frontiers

variable {env : Environment} (neverFails : env.NeverFails) (details : env.config.bootstrapDetails)
  {start : World}

/-- A flow that waits for frontiers has stored the ones it has taken. -/
abbrev FrontiersTaken (env : Environment) (start : World) :
    List FrontierEntry.Live → List UInt8 → World → Prop :=
  Taken start 1 (FrontierEntry.Live.rows env start.flow.messageId)

abbrev FrontiersEnded (env : Environment) (start : World) :
    NanoPacket → List FrontierEntry.Live → World → Prop :=
  Ended start 1 (FrontierEntry.Live.rows env start.flow.messageId) endOfFrontierReqText

include neverFails details

theorem FrontiersTaken.take (info : NanoPacket) {done : List FrontierEntry.Live}
    {entry : FrontierEntry.Live} {rest : List UInt8} {world : World}
    (taken : FrontiersTaken env start done (entry.wire ++ rest) world) :
    ∃ next, frontierIteration env info world = .ok .again next ∧
      FrontiersTaken env start (done ++ [entry]) rest next := by
  have put := whenBootstrapDetails_put neverFails details info taken.ready
    (.frontierEntry entry.toFrontierEntry)
  have messageId : world.flow.messageId = start.flow.messageId := by rw [taken.flow]
  have stored := @Taken.step _ env _ _ _ _ _ info entry entry.wire rest
    (.frontierEntry entry.toFrontierEntry) taken (fun bindings => by
      rw [← messageId]
      exact Plan.rows_entry rfl bindings) rfl rfl
  rw [FrontierEntry.Live.wire, FrontierEntry.length_wire] at stored
  refine ⟨_, ?_, stored⟩
  rw [frontierIteration_entry env info taken.buffer]
  refine catchRuntimeError_of_ok ?_
  rw [frontierRest, if_neg entry.live]
  exact EStateM.bind_of_ok put

theorem FrontiersTaken.finish (initial : start.flow.invalidResponseCount = 0)
    (info : NanoPacket) {done : List FrontierEntry.Live} {world : World}
    (taken : FrontiersTaken env start done FrontierEntry.terminator world) :
    ∃ next, frontierIteration env info world = .ok .leave next ∧
      FrontiersEnded env start info done next := by
  have buffer : world.flow.accumulatedData.toList = FrontierEntry.zero.wire ++ [] := by
    rw [taken.buffer, FrontierEntry.zero_wire, List.append_nil]
  have valid : world.flow.invalidResponseCount = 0 := by rw [taken.flow, initial]
  have count : world.flow.responseCount = done.length := by rw [taken.flow]
  obtain ⟨next, ends, ended⟩ := Taken.finish neverFails details info taken
    (count ▸ endOfFrontierReq_of_valid valid)
  refine ⟨next, ?_, ended⟩
  rw [frontierIteration_entry env info buffer]
  exact catchRuntimeError_of_ok (EStateM.bind_of_ok ends)

/-- The responses to a frontier request that the flow of `start` has just handled. -/
def frontierResponses (mode : start.flow.currentMsgType = .frontierReq)
    (initial : start.flow.invalidResponseCount = 0) :
    ResponseStream env FrontierEntry.Live where
  mode := .frontierReq
  wire := FrontierEntry.Live.wire
  terminator := FrontierEntry.terminator
  iteration := frontierIteration env
  Holds := FrontiersTaken env start
  Ended := FrontiersEnded env start
  wire_ne entry empty := by
    have length := congrArg List.length empty
    rw [FrontierEntry.Live.wire, FrontierEntry.length_wire] at length
    cases length
  terminator_ne := by decide
  loop _ := rfl
  drains info :=
    { take := FrontiersTaken.take neverFails details info
      wait := fun {done todo residue world} truncated taken => by
        obtain ⟨missing, some, equal⟩ := truncated
        have positive := List.length_pos_iff.mpr some
        have size : (Framing.front FrontierEntry.Live.wire FrontierEntry.terminator
            todo).length = 64 := by
          cases todo with
          | nil => rfl
          | cons entry todo => exact entry.length_wire
        rw [equal, List.length_append] at size
        exact frontierIteration_short env info (by rw [taken.buffer]; omega)
      finish := FrontiersTaken.finish neverFails details initial info }
  holds_mode taken := by rw [taken.flow, mode]
  accumulates info taken fits := taken.accumulate info fits

/-- However the entries and the terminator are cut into segments, every entry is
stored once and in order, the end is reported once, and the flow is reset; the
segments before the last one store the entries that are complete in them. -/
theorem frontiers_recorded {before : Handler} (ready : before.db.Ready) (packetId messageId : Nat)
    (handled : before.flow =
      { TcpFlowData.reset .frontierReq with packetId := packetId, messageId := messageId })
    (entries : List FrontierEntry.Live) {segments : List NanoPacket}
    (nonempty : ∀ info ∈ segments, info.data ≠ [])
    (cut : received segments = entries.flatMap (·.wire) ++ List.replicate 64 0)
    (fits : AppendsFit env segments before) :
    (∃ last after, segments.getLast? = some last ∧ HandlesAll env segments before after ∧
      after.db.contents.rows = before.db.contents.rows ++
        rowsFrom 1 (fun id entry => [entry.row env messageId id]) before.db.nextId entries ++
        [connectionRow last
          ("end of frontier_req, responses. valid: " ++ toString entries.length ++
            ", invalid: 0") (before.db.nextId + entries.length)] ∧
      after.flow = .initial) ∧
    ∀ first second, segments = first ++ second → second ≠ [] →
      ∃ after, HandlesAll env first before after ∧
        after.db.contents.rows = before.db.contents.rows ++
          rowsFrom 1 (fun id entry => [entry.row env messageId id]) before.db.nextId
            (entries.take ((received first).length / 64)) ∧
        after.flow.currentMsgType = .frontierReq := by
  have requestId : before.flow.messageId = messageId := by rw [handled]
  let responses := @frontierResponses env neverFails details before.toWorld
    (by rw [handled]; rfl) (by rw [handled]; rfl)
  have holds : responses.Holds [] [] before.toWorld :=
    .refl ready (by rw [handled]; rfl) (by rw [handled]; rfl)
  constructor
  · obtain ⟨last, after, isLast, handles, ended⟩ := responses.all nonempty holds cut fits
    refine ⟨last, after, isLast, handles, ?_, ended.flow⟩
    rw [ended.rows, requestId, Nat.one_mul]
    rfl
  · rintro first second rfl some
    obtain ⟨residue, after, handles, taken⟩ := responses.proper nonempty holds cut some fits
    have complete := @Framing.complete_eq_take _ _ FrontierEntry.Live.wire 64 (by decide) entries
      (fun entry _ => entry.length_wire) (received first).length
    refine ⟨after, handles, ?_, responses.holds_mode taken⟩
    rw [taken.rows, requestId]
    exact congrArg (fun entries => _ ++ rowsFrom 1 _ _ entries) complete

end Frontiers

def FrontierEntry.Live.repeating (byte : UInt8) (live : ¬allZero (List.replicate 32 byte)) :
    FrontierEntry.Live where
  account := ⟨List.replicate 32 byte, List.length_replicate⟩
  frontierHash := ⟨List.replicate 32 byte, List.length_replicate⟩
  live := live

/-- Three entries and the terminator, cut within the first and within the third entry. -/
theorem frontiers_recorded_cut :
    let entries := [FrontierEntry.Live.repeating 1 (by decide), .repeating 2 (by decide),
      .repeating 3 (by decide)]
    let bytes := entries.flatMap (·.wire) ++ FrontierEntry.terminator
    let segments := [NanoPacket.sample (bytes.take 50), .sample ((bytes.drop 50).take 100),
      .sample (bytes.drop 150)]
    let before := Handler.waiting { TcpFlowData.reset .frontierReq with messageId := 1 }
    (∃ last after, segments.getLast? = some last ∧ HandlesAll .sample segments before after ∧
      after.db.contents.rows = before.db.contents.rows ++
        rowsFrom 1 (fun id entry => [entry.row .sample 1 id]) before.db.nextId entries ++
        [connectionRow last
          ("end of frontier_req, responses. valid: " ++ toString 3 ++ ", invalid: 0")
          (before.db.nextId + 3)] ∧
      after.flow = .initial) ∧
    ∃ after, HandlesAll .sample (segments.take 2) before after ∧
      after.db.contents.rows = before.db.contents.rows ++
        rowsFrom 1 (fun id entry => [entry.row .sample 1 id]) before.db.nextId
          (entries.take 2) ∧
      after.flow.currentMsgType = .frontierReq := by
  intro entries bytes segments before
  have nonempty : ∀ info ∈ segments, info.data ≠ [] := by decide +kernel
  have short : ∀ info ∈ segments, info.data.length ≤ 3880 := by decide +kernel
  have cut : received segments = entries.flatMap (·.wire) ++ List.replicate 64 0 := by
    decide +kernel
  have fits : AppendsFit .sample segments before :=
    .of_waiting Environment.sample_neverFails (Db.opened_ready _) rfl rfl short
  obtain ⟨whole, parts⟩ := frontiers_recorded Environment.sample_neverFails rfl
    (Db.opened_ready _) 0 1 rfl entries nonempty cut fits
  have complete : (received (segments.take 2)).length / 64 = 2 := by decide +kernel
  have part := parts (segments.take 2) (segments.drop 2) rfl (List.cons_ne_nil _ _)
  rw [complete] at part
  exact ⟨whole, part⟩

end Nanocap
