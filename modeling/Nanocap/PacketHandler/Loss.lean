import Nanocap.PacketHandler.FrontierRows
import Nanocap.PacketHandler.Queueing
import Nanocap.PacketHandler.Stretches
import Nanocap.Util.Decoding

/-! # Packet loss in a frontier response

What is recorded of a response of which the reassembler reports parts as missing. -/

namespace Nanocap

/-! ## Deliveries on one connection -/

def Event.delivered : Event → Option (List UInt8)
  | .messageReady _ _ data => some data
  | _ => none

/-- The events are deliveries on the connection of the key, in any order with the
handling of the segments. Some of the texts may have been delivered before; what was
queued of them waits. -/
structure Delivers (key : UInt32) (texts : List (List UInt8)) (waiting : List NanoPacket)
    (events : List Event) : Prop where
  waits : ∀ info ∈ waiting, info.flowKey = key
  each : ∀ event ∈ events, event = .handleNext ∨ ∃ connection : ConnectionData, ∃ side data,
    connection.flowKey = key ∧ event = .messageReady connection side data
  inOrder : ∃ earlier, waiting.map (·.data) = earlier.filter isQueued ∧
    earlier ++ events.filterMap Event.delivered <+: texts

private theorem Event.enqueued_messageReady (connection : ConnectionData) (side : Int)
    (data : List UInt8) :
    (Event.messageReady connection side data).enqueued.map (·.data) =
      [data].filter isQueued := by
  change (if data = [] ∨ hasMissingData data then [] else [connection.packet side data]).map _ = _
  split
  · rename_i dropped
    rw [List.filter_cons_of_neg]
    · rfl
    · rcases dropped with rfl | lossy
      · simp [isQueued]
      · simp [isQueued, lossy]
  · rename_i queued
    rw [List.filter_cons_of_pos]
    · rfl
    · rw [not_or] at queued
      simpa [isQueued] using queued

private theorem PacketHandler.messageReady_of_known {handler : PacketHandler}
    {connection : ConnectionData} {flow : TcpFlowData}
    (known : handler.connMgr connection.flowKey = some flow) (side : Int) (data : List UInt8) :
    handler.messageReady connection side data = { handler with
      packetQueue := handler.packetQueue ++
        (Event.messageReady connection side data).enqueued } := by
  unfold messageReady Event.enqueued
  by_cases empty : data = []
  · simp [empty]
  · rw [if_neg empty, known]
    by_cases missing : hasMissingData data <;> simp [empty, missing]

theorem Run.handlesAll {env : Environment} {key : UInt32} {before after : PacketHandler}
    {events : List Event} (run : Run env before events after)
    (waits : ∀ info ∈ before.packetQueue, info.flowKey = key)
    (each : ∀ event ∈ events, event = .handleNext ∨ ∃ connection : ConnectionData, ∃ side data,
      connection.flowKey = key ∧ event = .messageReady connection side data)
    {flow : TcpFlowData} (known : before.connMgr key = some flow) :
    ∃ handled handlerAfter, HandlesAll env handled (before.view flow) handlerAfter ∧
      after.db = handlerAfter.db ∧ after.connMgr key = some handlerAfter.flow ∧
      before.packetQueue.map (·.data) ++ (events.filterMap Event.delivered).filter isQueued =
        handled.map (·.data) ++ after.packetQueue.map (·.data) := by
  induction run generalizing flow with
  | nil handler => exact ⟨[], _, .nil _, rfl, known, by simp⟩
  | @cons before middle after event events step run induction =>
      have eachLater := fun other member => each other (List.mem_cons_of_mem event member)
      rcases each event List.mem_cons_self with rfl | ⟨connection, side, data, same, rfl⟩
      · cases step with
        | @handleNext _ info rest queue handledNow =>
        cases handledNow with
        | @mk own handlerAfter present handles =>
        have mine : info.flowKey = key := waits info (queue ▸ List.mem_cons_self)
        rw [mine] at present
        obtain rfl : own = flow := Option.some.inj (present.symm.trans known)
        have updated : ({ before with packetQueue := rest }.update info.flowKey
            handlerAfter).connMgr key = some handlerAfter.flow := by
          rw [← mine]
          exact Function.update_self ..
        obtain ⟨handled, last, handledAll, db, flowAfter, split⟩ := induction
          (fun other member => waits other (queue ▸ List.mem_cons_of_mem info member)) eachLater
          updated
        refine ⟨info :: handled, last, .cons handles handledAll, db, flowAfter, ?_⟩
        rw [queue, List.map_cons, List.cons_append, List.map_cons, List.cons_append]
        exact congrArg (info.data :: ·) split
      · cases step
        rw [← same] at known
        rw [PacketHandler.messageReady_of_known known] at induction
        have waitsLater : ∀ info ∈ before.packetQueue ++
            (Event.messageReady connection side data).enqueued, info.flowKey = key := by
          intro info waiting
          rcases List.mem_append.mp waiting with before | now
          · exact waits info before
          · exact (congrArg NanoPacket.flowKey (Event.of_mem_enqueued now)).trans same
        obtain ⟨handled, last, handledAll, db, flowAfter, split⟩ :=
          induction waitsLater eachLater (same ▸ known)
        refine ⟨handled, last, handledAll, db, flowAfter, ?_⟩
        rw [List.map_append, Event.enqueued_messageReady, List.append_assoc,
          ← List.filter_append] at split
        exact split

theorem HandlesAll.run {env : Environment} {key : UInt32} {first second : List NanoPacket}
    {flow : TcpFlowData} {before : PacketHandler} {handlerAfter : Handler}
    (handled : HandlesAll env first (before.view flow) handlerAfter)
    (waits : ∀ info ∈ first, info.flowKey = key) (known : before.connMgr key = some flow) :
    ∃ after, Run env { before with packetQueue := first ++ second }
      (List.replicate first.length .handleNext) after ∧ after.db = handlerAfter.db ∧
      after.connMgr key = some handlerAfter.flow ∧ after.packetQueue = second := by
  induction first generalizing flow before with
  | nil =>
      cases handled
      exact ⟨_, .nil _, rfl, known, rfl⟩
  | cons info first induction =>
      obtain ⟨middle, handles, rest⟩ := HandlesAll.cons_iff.mp handled
      obtain rfl := waits info List.mem_cons_self
      have updated : (before.update info.flowKey middle).connMgr info.flowKey =
          some middle.flow := Function.update_self ..
      obtain ⟨after, run, same⟩ := induction (by exact rest)
        (fun other member => waits other (List.mem_cons_of_mem _ member)) updated
      have step : Step env { before with packetQueue := info :: first ++ second } .handleNext
          ({ before with packetQueue := first ++ second }.update info.flowKey middle) :=
        .handleNext rfl (.mk known handles)
      exact ⟨after, .cons step run, same⟩

/-! ## What is recorded -/

namespace FrontierEntry

def record (response : List UInt8) (index : Nat) : List UInt8 :=
  (response.drop (64 * index)).take 64

theorem row_injective {env : Environment} {messageId left right : Nat}
    {first second : FrontierEntry}
    (same : first.row env messageId left = second.row env messageId right) : first = second := by
  have cells := congrArg Row.cells same
  rw [row, row, Table.rowOf, Table.rowOf] at cells
  have own := List.append_inj_left' cells rfl
  simp only [FrontierEntry.cells, List.cons.injEq, Prod.mk.injEq, true_and, and_true] at own
  obtain ⟨-, account, hash⟩ := own
  obtain ⟨firstAccount, firstHash⟩ := first
  obtain ⟨secondAccount, secondHash⟩ := second
  obtain rfl := pubToAccount_injective (Value.text.inj account)
  obtain rfl : firstHash = secondHash := Subtype.ext (toHex_injective (Value.text.inj hash))
  rfl

def response (entries : List Live) : List UInt8 := entries.flatMap (·.wire) ++ terminator

end FrontierEntry

/-- The texts delivered for a response. The stretches are given by the positions of
their bytes. -/
def deliveredTexts (response : List UInt8) (cut : List (Stretch Nat)) : List (List UInt8) :=
  cut.map fun stretch => (stretch.map (response.getD · 0)).text

def queuedPositions (response : List UInt8) (cut : List (Stretch Nat)) : List (List Nat) :=
  (cut.filter fun stretch => isQueued (stretch.map (response.getD · 0)).text).map Stretch.data

/-- The positions of the bytes that leave the buffer as one entry each. -/
def entryPositions (response : List UInt8) (cut : List (Stretch Nat)) : List (List Nat) :=
  (Chunks.run 4096 64 [] (queuedPositions response cut)).1

private theorem filter_deliveredTexts (response : List UInt8) (cut : List (Stretch Nat)) :
    (deliveredTexts response cut).filter isQueued =
      (queuedPositions response cut).map (List.map (response.getD · 0)) := by
  rw [deliveredTexts, queuedPositions, List.filter_map, List.map_map]
  apply List.map_congr_left
  intro stretch member
  exact Stretch.text_of_isQueued (List.mem_filter.mp member).2

def TcpFlowData.awaitingFrontiers (packetId messageId : Nat) : TcpFlowData :=
  { reset .frontierReq with packetId := packetId, messageId := messageId }

/-- However the deliveries and the handling of the segments are interleaved, every row
recorded for the request is that of 64 bytes of the response at a multiple of 64. -/
def LossHarmless (env : Environment) (before : PacketHandler) (key : UInt32) (messageId : Nat)
    (response : List UInt8) (cut : List (Stretch Nat)) : Prop :=
  ∀ (waiting : List NanoPacket) (events : List Event) (after : PacketHandler),
    Delivers key (deliveredTexts response cut) waiting events →
    Run env { before with packetQueue := waiting } events after →
    ∀ row ∈ responsesTo messageId
        (after.db.contents.rows.drop before.db.contents.rows.length),
      ∃ (index id : Nat) (entry : FrontierEntry),
        entry.wire = FrontierEntry.record response index ∧ row = entry.row env messageId id

private theorem mem_recordedChunks {first second : List (List UInt8)} (front : first <+: second)
    {chunk : List UInt8} (member : chunk ∈ recordedChunks (Chunks.run 4096 64 [] first).1) :
    chunk ∈ recordedChunks (Chunks.run 4096 64 [] second).1 := by
  obtain ⟨rest, rfl⟩ := front
  rw [Chunks.run_append]
  by_cases live : ∀ chunk ∈ (Chunks.run 4096 64 [] first).1, FrontierEntry.isLive chunk = true
  · rw [recordedChunks_append_of_live live]
    exact List.mem_append_left _ (List.takeWhile_subset _ member)
  · rw [recordedChunks_append_of_dead (by simpa using live)]
    exact member

private theorem mem_rowsFrom {env : Environment} {messageId id : Nat}
    {entries : List FrontierEntry.Live} {row : Row} :
    row ∈ rowsFrom 1 (FrontierEntry.Live.rows env messageId) id entries →
      ∃ entry ∈ entries, ∃ id, row = entry.row env messageId id := by
  induction entries generalizing id with
  | nil => exact fun member => absurd member List.not_mem_nil
  | cons entry entries induction =>
      intro member
      rcases List.mem_append.mp member with first | later
      · exact ⟨entry, List.mem_cons_self, id, List.mem_singleton.mp first⟩
      · obtain ⟨other, inside, id, equal⟩ := induction later
        exact ⟨other, List.mem_cons_of_mem _ inside, id, equal⟩

private theorem exists_mem_rowsFrom {env : Environment} {messageId id : Nat}
    {entries : List FrontierEntry.Live} {entry : FrontierEntry.Live} (member : entry ∈ entries) :
    ∃ id', entry.row env messageId id' ∈
      rowsFrom 1 (FrontierEntry.Live.rows env messageId) id entries := by
  induction entries generalizing id with
  | nil => cases member
  | cons first entries induction =>
      rcases List.mem_cons.mp member with rfl | later
      · exact ⟨id, List.mem_append_left _ (List.mem_singleton.mpr rfl)⟩
      · obtain ⟨other, inside⟩ := @induction (id + 1) later
        exact ⟨other, List.mem_append_right _ inside⟩

section Loss

variable {env : Environment} (neverFails : env.NeverFails) {before : PacketHandler}
  (ready : before.db.Ready) {key : UInt32} {packetId messageId : Nat}
  (known : before.connMgr key = some (.awaitingFrontiers packetId messageId))
  (drawn : messageId < before.db.nextId)

include known in
theorem Delivers.handledAll {texts : List (List UInt8)} {waiting : List NanoPacket}
    {events : List Event} {after : PacketHandler} (delivers : Delivers key texts waiting events)
    (run : Run env { before with packetQueue := waiting } events after) :
    ∃ handled handlerAfter, HandlesAll env handled
        (before.view (.awaitingFrontiers packetId messageId)) handlerAfter ∧
      after.db = handlerAfter.db ∧ (∀ info ∈ handled, info.data ≠ []) ∧
      handled.map (·.data) <+: texts.filter isQueued := by
  obtain ⟨handled, handlerAfter, handles, db, -, split⟩ := run.handlesAll delivers.waits
    delivers.each known
  obtain ⟨earlier, waits, inOrder⟩ := delivers.inOrder
  have front : handled.map (·.data) <+: texts.filter isQueued := by
    refine .trans ?_ (inOrder.filter isQueued)
    rw [List.filter_append, ← waits]
    exact ⟨_, split.symm⟩
  refine ⟨handled, handlerAfter, handles, db, fun info member => ?_, front⟩
  have queued := (List.mem_filter.mp (front.subset (List.mem_map_of_mem member))).2
  rw [isQueued, Bool.and_eq_true, decide_eq_true_eq] at queued
  exact queued.1

include neverFails ready known drawn

/-- Nothing invented is recorded exactly when the chunks that are recorded are records
of the response. -/
theorem lossHarmless_iff (response : List UInt8) (cut : List (Stretch Nat)) :
    LossHarmless env before key messageId response cut ↔
      (env.config.bootstrapDetails = true →
        ∀ chunk ∈ recordedChunks
            ((entryPositions response cut).map (List.map (response.getD · 0))),
          ∃ index, chunk = FrontierEntry.record response index) := by
  let start : World := ⟨before.db, .awaitingFrontiers packetId messageId⟩
  have chunks : (Chunks.run 4096 64 [] ((deliveredTexts response cut).filter isQueued)).1 =
      (entryPositions response cut).map (List.map (response.getD · 0)) := by
    rw [filter_deliveredTexts]
    exact congrArg Prod.fst (Chunks.run_map (response.getD · 0) [] (queuedPositions response cut))
  have taken : FrontiersTaken env start [] [] start := .refl ready rfl rfl
  constructor
  · intro harmless details chunk recorded
    let connection : ConnectionData := { ConnectionData.sample with flowKey := key }
    let waiting := ((deliveredTexts response cut).filter isQueued).map (connection.packet 0)
    have bytes : waiting.map (·.data) = (deliveredTexts response cut).filter isQueued := by
      rw [List.map_map]
      exact List.map_id _
    have waits : ∀ info ∈ waiting, info.flowKey = key := by
      intro info member
      obtain ⟨data, -, rfl⟩ := List.mem_map.mp member
      rfl
    have nonempty : ∀ info ∈ waiting, info.data ≠ [] := by
      intro info member
      have queued := (List.mem_filter.mp (bytes ▸ List.mem_map_of_mem member :
        info.data ∈ (deliveredTexts response cut).filter isQueued)).2
      rw [isQueued, Bool.and_eq_true, decide_eq_true_eq] at queued
      exact queued.1
    -- all the segments wait, and are handled one after the other
    obtain ⟨first, second, handlerAfter, split, handles, same, -⟩ := @FrontiersTaken.handlesAll env
      start neverFails details rfl rfl waiting nonempty [] [] (before.view _) taken
    have inFirst : ∀ info ∈ first, info ∈ waiting := fun info member =>
      split ▸ List.mem_append_left _ member
    obtain ⟨after, run, db, -⟩ := @HandlesAll.run env key first second _ before handlerAfter handles
      (fun info member => waits info (inFirst info member)) known
    have delivers : Delivers key (deliveredTexts response cut) (first ++ second)
        (List.replicate first.length .handleNext) := by
      refine ⟨fun info member => waits info (split ▸ member), fun event member =>
        .inl (List.eq_of_mem_replicate member), deliveredTexts response cut, ?_, ?_⟩
      · rw [← split, bytes]
      · have nothing : (List.replicate first.length Event.handleNext).filterMap
            Event.delivered = [] := List.filterMap_replicate_of_none rfl
        exact ⟨[], by rw [nothing, List.append_nil, List.append_nil]⟩
    have done := @FrontiersRecorded.segments env messageId start neverFails details rfl rfl rfl
      drawn first (fun info member => nonempty info (inFirst info member)) [] (before.view _)
      handlerAfter (.waiting rfl taken) handles
    obtain ⟨entries, wires, rows⟩ := @FrontiersRecorded.recorded env messageId start _ _ rfl done
    have inside : chunk ∈ entries.map FrontierEntry.Live.wire := by
      rw [wires, List.nil_append, ← same, bytes, chunks]
      exact recorded
    obtain ⟨entry, member, rfl⟩ := List.mem_map.mp inside
    obtain ⟨id, stored⟩ := @exists_mem_rowsFrom env messageId before.db.nextId entries entry member
    rw [World.recorded] at rows
    obtain ⟨index, other, true, wire, equal⟩ := harmless _ _ after delivers run _ (by
      rw [db]
      exact rows ▸ stored)
    rw [← FrontierEntry.row_injective equal] at wire
    exact ⟨index, wire⟩
  · intro records waiting events after delivers run row member
    obtain ⟨handled, handlerAfter, handles, db, nonempty, front⟩ := delivers.handledAll known run
    by_cases details : env.config.bootstrapDetails = true
    · have done := @FrontiersRecorded.segments env messageId start neverFails details rfl rfl rfl
        drawn handled nonempty [] (before.view _) handlerAfter (.waiting rfl taken) handles
      obtain ⟨entries, wires, rows⟩ := @FrontiersRecorded.recorded env messageId start _ _ rfl done
      rw [db] at member
      rw [World.recorded] at rows
      rw [rows] at member
      obtain ⟨entry, inside, id, rfl⟩ := mem_rowsFrom member
      have chunk : entry.wire ∈ recordedChunks (Chunks.run 4096 64 [] (handled.map (·.data))).1 :=
        wires ▸ List.mem_map_of_mem inside
      obtain ⟨index, equal⟩ := records details entry.wire (chunks ▸ mem_recordedChunks front chunk)
      exact ⟨index, id, entry.toFrontierEntry, equal, rfl⟩
    · have unconcerned : start.Unconcerned env messageId := ⟨drawn, fun on => absurd on details⟩
      obtain ⟨more, rows, none⟩ := handles.unconcerned neverFails ready unconcerned
      have added : after.db.contents.rows.drop before.db.contents.rows.length = more := by
        rw [db, rows]
        exact List.drop_left
      rw [added, none] at member
      cases member

end Loss

end Nanocap
