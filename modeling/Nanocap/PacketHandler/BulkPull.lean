import Nanocap.Database.Columns
import Nanocap.PacketHandler.FlowState
import Nanocap.PacketHandler.Responses

/-! # Bulk transfers

Entries of bulk_pull responses and of bulk_push exchanges are blocks behind their
type byte, closed by the byte of `not_a_block`. -/

namespace Nanocap

open Framing (stream Truncated)

def bulkTerminator : List UInt8 := [1]

theorem Block.type_ne (block : Block) : block.type ≠ .notABlock := by
  cases block <;> simp [Block.type]

def Block.entryRows (env : Environment) (table : Table) (request : Cell) (packetId id : Nat)
    (block : Block) : List Row :=
  [block.table.rowOf (block.cells env id packetId),
   table.rowOf (referenceCells request (id + 1) id block.table.name)]

def endOfBulkText (name : String) (valid : Nat) : String :=
  "end of " ++ name ++ ". valid entries: " ++ toString valid ++ ", invalid: 0"

private theorem endOfBulk_of_valid (name : String) {flow : TcpFlowData}
    (valid : flow.invalidResponseCount = 0) :
    endOfBulk name flow = endOfBulkText name flow.responseCount := by
  unfold endOfBulk endOfBulkText
  rw [valid, String.append_assoc]
  generalize "end of " ++ name ++ ". valid entries: " ++ toString flow.responseCount = text
  rfl

private theorem Plan.bulkEntry_known {env : Environment} (details : env.config.blockDetails)
    (info : NanoPacket) (table : Table) (request : Cell) (event : String) (block : Block)
    (flow : TcpFlowData) (nextId : Nat) :
    Plan.bulkEntry env info table request event (.known block) flow nextId =
      ⟨none, 2,
        [⟨block.table, block.cells env nextId flow.packetId⟩,
         ⟨table, referenceCells request (nextId + 1) nextId block.table.name⟩]⟩ := by
  simp [Plan.bulkEntry, storable, details]

section Bulk

variable {env : Environment} (neverFails : env.NeverFails) (details : env.config.bootstrapDetails)
  {start : World} {Entry : Type} {name : String} {build : UInt8 → BlockSelector → Entry}
  {request : Entry → Request} {rows : Nat → Block → List Row}

def StoresEntries (env : Environment) (start : World) (request : UInt8 → BlockSelector → Request)
    (rows : Nat → Block → List Row) : Prop :=
  ∀ (info : NanoPacket) (nextId : Nat) (flow : TcpFlowData) (block : Block),
    flow.packetId = start.flow.packetId → flow.messageId = start.flow.messageId →
    let plan := (request block.type.toUInt8 (.known block)).plan env info nextId flow
    plan.ids = 2 ∧ (∀ bindings, plan.rows bindings = rows nextId block) ∧
      (request block.type.toUInt8 (.known block)).flowAfter env nextId flow = flow

include neverFails details

private theorem bulk_take (info : NanoPacket)
    (stores : StoresEntries env start (fun type block => request (build type block)) rows)
    {done : List Block} {block : Block} {rest : List UInt8} {world : World}
    (taken : Taken start 2 rows done (block.entryWire ++ rest) world) :
    ∃ next, bulkIteration env info name (readBulkEntry build)
        (fun entry => (request entry).put env info) world = .ok .again next ∧
      Taken start 2 rows (done ++ [block]) rest next := by
  have put := whenBootstrapDetails_put neverFails details info taken.ready
    (request (build block.type.toUInt8 (.known block)))
  obtain ⟨draws, inserts, keeps⟩ := stores info world.db.nextId world.flow block
    (by rw [taken.flow]) (by rw [taken.flow])
  have stored := @Taken.step _ env _ _ _ _ _ info block block.entryWire rest
    (request (build block.type.toUInt8 (.known block))) taken inserts draws keeps
  have read := readBulkEntry_wire build block 0 rest
  rw [Nat.zero_add] at read
  refine ⟨_, ?_, stored⟩
  rw [bulkIteration_cons env info name build _ taken.buffer,
    if_neg (by rw [Block.ofUInt8_type]; exact block.type_ne)]
  refine catchRuntimeError_of_ok ?_
  exact (EStateM.bind_of_ok (construct_of_ok read)).trans (EStateM.bind_of_ok put)

private theorem bulk_finish (initial : start.flow.invalidResponseCount = 0) (info : NanoPacket)
    (put : Entry → Put Unit) {done : List Block} {world : World}
    (taken : Taken start 2 rows done bulkTerminator world) :
    ∃ next, bulkIteration env info name (readBulkEntry build) put world = .ok .leave next ∧
      Ended start 2 rows (endOfBulkText name) info done next := by
  have valid : world.flow.invalidResponseCount = 0 := by rw [taken.flow, initial]
  have count : world.flow.responseCount = done.length := by rw [taken.flow]
  obtain ⟨next, ends, ended⟩ := taken.finish neverFails details info
    (count ▸ endOfBulk_of_valid name valid)
  refine ⟨next, ?_, ended⟩
  have last : EnumBlocktype.ofUInt8 1 = .notABlock := rfl
  rw [bulkIteration_cons env info name build put taken.buffer, if_pos last]
  exact EStateM.bind_of_ok ends

omit neverFails details in
/-- A truncated entry is left alone: its reader throws before anything is stored. -/
private theorem bulk_wait (info : NanoPacket) (put : Entry → Put Unit) {todo : List Block}
    {residue : List UInt8} {world : World}
    (truncated : Truncated Block.entryWire bulkTerminator todo residue)
    (buffer : world.flow.accumulatedData.toList = residue) :
    bulkIteration env info name (readBulkEntry build) put world = .ok .leave world := by
  obtain ⟨missing, some, equal⟩ := truncated
  cases residue with
  | nil => exact bulkIteration_empty env info name build put buffer
  | cons first rest =>
      cases todo with
      | nil =>
          have nothing := (List.cons.inj equal).2
          exact absurd (List.append_eq_nil_iff.mp nothing.symm).2 some
      | cons block todo =>
          obtain ⟨stopped, raises⟩ := readBulkEntry_truncated build equal some 0
          obtain ⟨rfl, -⟩ := List.cons.inj equal
          rw [bulkIteration_cons env info name build put buffer,
            if_neg (by rw [Block.ofUInt8_type]; exact block.type_ne)]
          exact catchRuntimeError_of_error
            (EStateM.bind_of_error (construct_of_error raises))

/-- The entries of a bulk transfer that the flow of `start` is about to receive. -/
def bulkResponses (mode : EnumMsgtype) (name : String) (build : UInt8 → BlockSelector → Entry)
    (request : Entry → Request) (rows : Nat → Block → List Row)
    (waits : start.flow.currentMsgType = mode)
    (initial : start.flow.invalidResponseCount = 0)
    (loop : ∀ info, drainLoop env info mode = some (bulkIteration env info name
      (readBulkEntry build) fun entry => (request entry).put env info))
    (stores : StoresEntries env start (fun type block => request (build type block)) rows) :
    ResponseStream env Block where
  mode := mode
  wire := Block.entryWire
  terminator := bulkTerminator
  iteration info := bulkIteration env info name (readBulkEntry build)
    fun entry => (request entry).put env info
  Holds := Taken start 2 rows
  Ended := Ended start 2 rows (endOfBulkText name)
  wire_ne _ := List.cons_ne_nil _ _
  terminator_ne := List.cons_ne_nil _ _
  loop := loop
  drains info :=
    { take := bulk_take neverFails details info stores
      wait := fun truncated taken => bulk_wait info _ truncated taken.buffer
      finish := bulk_finish neverFails details initial info _ }
  holds_mode taken := by rw [taken.flow, waits]
  accumulates info taken fits := taken.accumulate info fits

end Bulk

/-! ## Responses to bulk_pull -/

section BulkPull

variable {env : Environment} (neverFails : env.NeverFails) (details : env.config.bootstrapDetails)
  (blockDetails : env.config.blockDetails)

def Block.pullRows (env : Environment) (packetId messageId id : Nat) (block : Block) : List Row :=
  block.entryRows env .bulkPullResponse (.bulkPullRequestId, .nat messageId) packetId id

include blockDetails in
private theorem bulkPull_stores (start : World) :
    StoresEntries env start (fun type block => .bulkPullEntry ⟨type, block⟩)
      (Block.pullRows env start.flow.packetId start.flow.messageId) := by
  intro info nextId flow block packetId messageId
  have plan : (Request.bulkPullEntry ⟨block.type.toUInt8, .known block⟩).plan env info nextId
      flow = _ := Plan.bulkEntry_known blockDetails info _ _ _ block flow nextId
  refine ⟨by rw [plan], fun bindings => ?_, ?_⟩
  · rw [plan, ← packetId, ← messageId]
    exact insertedRows_of_covers _ fun insertion member => by
      rcases List.mem_cons.mp member with rfl | member
      · exact block.cells_covers env nextId flow.packetId
      · rw [List.mem_singleton.mp member]
        rfl
  · simp [Request.flowAfter, storable, blockDetails]

include neverFails details blockDetails

/-- However the entries and the terminator are cut into segments, the block of
every entry and the response that points to it are stored once and in order, the
end is reported once, and the flow is reset; the segments before the last one store
the entries that are complete in them. -/
theorem bulkPull_recorded {before : Handler} (ready : before.db.Ready) (packetId messageId : Nat)
    (handled : before.flow =
      { TcpFlowData.reset .bulkPull with packetId := packetId, messageId := messageId })
    (entries : List Block) {segments : List NanoPacket}
    (nonempty : ∀ info ∈ segments, info.data ≠ [])
    (cut : received segments = entries.flatMap Block.entryWire ++ [1])
    (fits : AppendsFit env segments before) :
    (∃ last after, segments.getLast? = some last ∧ HandlesAll env segments before after ∧
      after.db.contents.rows = before.db.contents.rows ++
        rowsFrom 2 (Block.pullRows env packetId messageId) before.db.nextId entries ++
        [connectionRow last
          ("end of bulk_pull. valid entries: " ++ toString entries.length ++ ", invalid: 0")
          (before.db.nextId + 2 * entries.length)] ∧
      after.flow = .initial) ∧
    ∀ first second, segments = first ++ second → second ≠ [] →
      ∃ after, HandlesAll env first before after ∧
        after.db.contents.rows = before.db.contents.rows ++
          rowsFrom 2 (Block.pullRows env packetId messageId) before.db.nextId
            (Framing.complete Block.entryWire entries (received first).length) ∧
        after.flow.currentMsgType = .bulkPull := by
  have packet : before.flow.packetId = packetId := by rw [handled]
  have message : before.flow.messageId = messageId := by rw [handled]
  let responses := @bulkResponses env neverFails details before.toWorld BulkPullEntry .bulkPull
    "bulk_pull" BulkPullEntry.mk Request.bulkPullEntry
    (Block.pullRows env before.flow.packetId before.flow.messageId) (by rw [handled]; rfl)
    (by rw [handled]; rfl) (fun _ => rfl) (bulkPull_stores blockDetails before.toWorld)
  have holds : responses.Holds [] [] before.toWorld :=
    .refl ready (by rw [handled]; rfl) (by rw [handled]; rfl)
  constructor
  · obtain ⟨last, after, isLast, handles, ended⟩ := responses.all nonempty holds cut fits
    refine ⟨last, after, isLast, handles, ?_, ended.flow⟩
    rw [ended.rows, packet, message]
    rfl
  · rintro first second rfl some
    obtain ⟨residue, after, handles, taken⟩ := responses.proper nonempty holds cut some fits
    refine ⟨after, handles, ?_, responses.holds_mode taken⟩
    rw [taken.rows, packet, message]
    rfl

end BulkPull

/-- Three entries of different types and the terminator, cut within the first and within
the third entry. -/
theorem bulkPull_recorded_cut :
    let entries : List Block := [.change ⟨.zero 32, .zero 32, .zero 64, 1⟩,
      .send ⟨.zero 32, .zero 32, .zero 16, .zero 64, 2⟩,
      .state ⟨.zero 32, .zero 32, .zero 32, .zero 16, .zero 32, .zero 64, 3⟩]
    let bytes := entries.flatMap Block.entryWire ++ [1]
    let segments := [NanoPacket.sample (bytes.take 100), .sample ((bytes.drop 100).take 200),
      .sample (bytes.drop 300)]
    let before := Handler.waiting
      { TcpFlowData.reset .bulkPull with packetId := 1, messageId := 2 }
    (∃ last after, segments.getLast? = some last ∧ HandlesAll .sample segments before after ∧
      after.db.contents.rows = before.db.contents.rows ++
        rowsFrom 2 (Block.pullRows .sample 1 2) before.db.nextId entries ++
        [connectionRow last
          ("end of bulk_pull. valid entries: " ++ toString 3 ++ ", invalid: 0")
          (before.db.nextId + 6)] ∧
      after.flow = .initial) ∧
    ∃ after, HandlesAll .sample (segments.take 2) before after ∧
      after.db.contents.rows = before.db.contents.rows ++
        rowsFrom 2 (Block.pullRows .sample 1 2) before.db.nextId (entries.take 2) ∧
      after.flow.currentMsgType = .bulkPull := by
  intro entries bytes segments before
  have nonempty : ∀ info ∈ segments, info.data ≠ [] := by decide +kernel
  have short : ∀ info ∈ segments, info.data.length ≤ 3880 := by decide +kernel
  have cut : received segments = entries.flatMap Block.entryWire ++ [1] := by decide +kernel
  have fits : AppendsFit .sample segments before :=
    .of_waiting Environment.sample_neverFails (Db.opened_ready _) rfl rfl short
  obtain ⟨whole, parts⟩ := bulkPull_recorded Environment.sample_neverFails rfl rfl
    (Db.opened_ready _) 1 2 rfl entries nonempty cut fits
  have complete : Framing.complete Block.entryWire entries
      (received (segments.take 2)).length = entries.take 2 := by decide +kernel
  have part := parts (segments.take 2) (segments.drop 2) rfl (List.cons_ne_nil _ _)
  rw [complete] at part
  exact ⟨whole, part⟩

end Nanocap
