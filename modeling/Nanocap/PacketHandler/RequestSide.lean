import Mathlib.Data.List.Flatten
import Nanocap.PacketHandler.Misalignment

/-! # Traffic of the requesting side

Both directions of a connection share a flow, so that what the requesting side sends
during a frontier response is read as part of it. -/

namespace Nanocap

/-! ## Traffic -/

abbrev SidedSegment := Int × List UInt8

def Event.sided : Event → Option SidedSegment
  | .messageReady _ side data => some (side, data)
  | _ => none

def queuedTexts (traffic : List SidedSegment) : List (List UInt8) :=
  (traffic.map Prod.snd).filter isQueued

/-- The segments as if the requesting side had sent nothing. -/
def answers (requesting : Int) (traffic : List SidedSegment) : List SidedSegment :=
  traffic.filter fun segment => segment.1 ≠ requesting

/-- The events deliver the traffic on the connection of the key, in any order with the
handling of the segments. Some of it may have been delivered before; what was queued
of that waits. -/
structure Carries (key : UInt32) (traffic : List SidedSegment) (waiting : List NanoPacket)
    (events : List Event) : Prop where
  waits : ∀ info ∈ waiting, info.flowKey = key
  each : ∀ event ∈ events, event = .handleNext ∨ ∃ connection : ConnectionData, ∃ side data,
    connection.flowKey = key ∧ event = .messageReady connection side data
  inOrder : ∃ earlier : List SidedSegment,
    waiting.map (fun info => (info.side, info.data)) =
        earlier.filter (fun segment => isQueued segment.2) ∧
      earlier ++ events.filterMap Event.sided = traffic

private theorem filterMap_delivered (events : List Event) :
    events.filterMap Event.delivered = (events.filterMap Event.sided).map Prod.snd := by
  rw [List.map_filterMap]
  apply List.filterMap_congr
  intro event member
  cases event <;> rfl

private theorem Carries.queuedTexts_eq {key : UInt32} {traffic : List SidedSegment}
    {waiting : List NanoPacket} {events : List Event}
    (carries : Carries key traffic waiting events) :
    waiting.map (·.data) ++ (events.filterMap Event.delivered).filter isQueued =
      queuedTexts traffic := by
  obtain ⟨earlier, queued, rfl⟩ := carries.inOrder
  have texts := congrArg (List.map Prod.snd) queued
  rw [List.map_map] at texts
  have first : (earlier.filter fun segment => isQueued segment.2).map Prod.snd =
      (earlier.map Prod.snd).filter isQueued := by
    rw [List.filter_map]
    rfl
  rw [queuedTexts, List.map_append, List.filter_append, filterMap_delivered, ← first, ← texts]
  rfl

def PacketHandler.Settled (handler : PacketHandler) (key : UInt32) (messageId : Nat) : Prop :=
  handler.packetQueue = [] ∨ ∀ flow, handler.connMgr key = some flow →
    flow.currentMsgType = .frontierReq → flow.messageId ≠ messageId

/-- What a request has recorded since the state `before`. -/
def PacketHandler.responses (messageId : Nat) (before after : PacketHandler) : List Row :=
  responsesTo messageId (after.db.contents.rows.drop before.db.contents.rows.length)

/-- However the deliveries and the handling of the segments are interleaved, the rows
recorded for the request are those recorded when the requesting side sends nothing. -/
def RequesterHarmless (env : Environment) (before : PacketHandler) (key : UInt32)
    (messageId : Nat) (requesting : Int) (traffic : List SidedSegment) : Prop :=
  ∀ (waiting : List NanoPacket) (events : List Event) (after : PacketHandler)
    (waitingAlone : List NanoPacket) (eventsAlone : List Event) (alone : PacketHandler),
    Carries key traffic waiting events →
    Run env { before with packetQueue := waiting } events after → after.Settled key messageId →
    Carries key (answers requesting traffic) waitingAlone eventsAlone →
    Run env { before with packetQueue := waitingAlone } eventsAlone alone →
    alone.Settled key messageId →
    PacketHandler.responses messageId before after =
      PacketHandler.responses messageId before alone

/-! ## Rows and chunks -/

namespace FrontierEntry

theorem wire_injective {first second : FrontierEntry} (same : first.wire = second.wire) :
    first = second := by
  obtain ⟨account, hash⟩ := List.append_inj same
    (first.account.length_val.trans second.account.length_val.symm)
  obtain ⟨firstAccount, firstHash⟩ := first
  obtain ⟨secondAccount, secondHash⟩ := second
  obtain rfl := Subtype.ext account
  obtain rfl := Subtype.ext hash
  rfl

theorem Live.wire_injective : Function.Injective Live.wire := by
  rintro ⟨first, live⟩ ⟨second, _⟩ same
  obtain rfl := FrontierEntry.wire_injective same
  rfl

private theorem Live.rowsFrom_injective {env : Environment} {messageId id : Nat}
    {first second : List Live}
    (same : rowsFrom 1 (Live.rows env messageId) id first =
      rowsFrom 1 (Live.rows env messageId) id second) : first = second := by
  induction first generalizing id second with
  | nil =>
      cases second with
      | nil => rfl
      | cons entry second => cases same
  | cons entry first induction =>
      cases second with
      | nil => cases same
      | cons other second =>
          obtain ⟨row, rest⟩ := List.cons.inj same
          obtain ⟨entry, live⟩ := entry
          obtain ⟨other, _⟩ := other
          obtain rfl : entry = other := FrontierEntry.row_injective row
          rw [induction rest]

end FrontierEntry

/-! ## A response that arrives whole -/

namespace FrontierEntry

def throughEnd (entries : List Live) : List UInt8 :=
  entries.flatMap (·.wire) ++ List.replicate 32 0

private theorem isLive_eq_false_iff {chunk : List UInt8} (length : chunk.length = 64)
    (rest : List UInt8) :
    isLive chunk = false ↔ List.replicate 32 0 <+: chunk ++ rest := by
  have front : List.replicate 32 0 <+: chunk ++ rest ↔ List.replicate 32 0 = chunk.take 32 := by
    rw [List.prefix_iff_eq_take, List.length_replicate, List.take_append_of_le_length (by omega)]
  have zeros : (chunk.take 32).length = 32 := List.length_take_of_le (by omega)
  rw [front, isLive, Bool.not_eq_false']
  constructor
  · intro zero
    refine (List.eq_replicate_iff.mpr ⟨zeros, fun byte member => ?_⟩).symm
    exact of_decide_eq_true (List.all_eq_true.mp zero byte member)
  · intro zero
    rw [← zero]
    rfl

/-- The chunks of some bytes record a response exactly when the bytes begin with it,
up to the account that ends it. -/
theorem recordedChunks_fronts_iff (entries : List Live) {bytes : List UInt8}
    (enough : 64 * entries.length + 64 ≤ bytes.length) :
    recordedChunks (Chunks.fronts 64 bytes) = entries.map Live.wire ↔
      throughEnd entries <+: bytes := by
  induction entries generalizing bytes with
  | nil =>
      induction bytes using Chunks.buffer_induction (by decide : 0 < 64) with
      | short bytes less => exact absurd enough (by simpa using less)
      | append chunk rest length _ =>
          rw [(Chunks.fronts_append length (by decide) rest).1]
          refine .trans ?_ (isLive_eq_false_iff length rest)
          rw [recordedChunks, List.map_nil, List.takeWhile_cons]
          cases isLive chunk <;> simp
  | cons entry entries induction =>
      induction bytes using Chunks.buffer_induction (by decide : 0 < 64) with
      | short bytes less =>
          rw [List.length_cons] at enough
          omega
      | append chunk rest length _ =>
          rw [List.length_cons, List.length_append, length] at enough
          have later := @induction rest (by omega)
          have split : throughEnd (entry :: entries) = entry.wire ++ throughEnd entries := by
            rw [throughEnd, List.flatMap_cons, List.append_assoc]
            rfl
          rw [(Chunks.fronts_append length (by decide) rest).1, split]
          by_cases same : chunk = entry.wire
          · have alive : isLive entry.wire = true := by
              rw [Live.wire, isLive_wire]
              simpa using entry.live
            rw [same, recordedChunks, List.takeWhile_cons_of_pos alive, List.map_cons,
              List.prefix_append_right_inj, ← later]
            exact List.cons_inj_right _
          · refine iff_of_false (fun recorded => ?_) (fun front => ?_)
            · rw [recordedChunks, List.takeWhile_cons] at recorded
              split at recorded
              · exact same (List.cons.inj recorded).1
              · cases recorded
            · obtain ⟨more, equal⟩ := front
              rw [List.append_assoc] at equal
              exact same (List.append_inj equal
                ((length_wire entry.toFrontierEntry).trans length.symm)).1.symm

end FrontierEntry

section Requester

variable {env : Environment} (neverFails : env.NeverFails) {before : PacketHandler}
  (ready : before.db.Ready) {key : UInt32} {packetId messageId : Nat}
  (known : before.connMgr key = some (.awaitingFrontiers packetId messageId))
  (drawn : messageId < before.db.nextId)
include neverFails ready known drawn

theorem Carries.recorded {traffic : List SidedSegment} {waiting : List NanoPacket}
    {events : List Event} {after : PacketHandler} (carries : Carries key traffic waiting events)
    (run : Run env { before with packetQueue := waiting } events after)
    (settled : after.Settled key messageId) :
    if env.config.bootstrapDetails then
      ∃ entries : List FrontierEntry.Live, entries.map FrontierEntry.Live.wire =
          recordedChunks (Chunks.run 4096 64 [] (queuedTexts traffic)).1 ∧
        PacketHandler.responses messageId before after =
          rowsFrom 1 (FrontierEntry.Live.rows env messageId) before.db.nextId entries
    else PacketHandler.responses messageId before after = [] := by
  let start : World := ⟨before.db, .awaitingFrontiers packetId messageId⟩
  obtain ⟨handled, handlerAfter, handles, db, flow, split⟩ := run.handlesAll carries.waits
    carries.each known
  rw [carries.queuedTexts_eq] at split
  have nonempty : ∀ info ∈ handled, info.data ≠ [] := by
    intro info member
    have queued := (List.mem_filter.mp (split ▸ List.mem_append_left _
      (List.mem_map_of_mem member) : info.data ∈ queuedTexts traffic)).2
    rw [isQueued, Bool.and_eq_true, decide_eq_true_eq] at queued
    exact queued.1
  have taken : FrontiersTaken env start [] [] start := .refl ready rfl rfl
  split
  · rename_i details
    have done := @FrontiersRecorded.segments env messageId start neverFails details rfl rfl rfl
      drawn handled nonempty [] (before.view _) handlerAfter (.waiting rfl taken) handles
    obtain ⟨entries, wires, rows⟩ := @FrontiersRecorded.recorded env messageId start _ _ rfl done
    rw [List.nil_append] at wires done
    refine ⟨entries, wires.trans ?_, ?_⟩
    · rw [split, Chunks.run_append]
      rcases settled with drained | elsewhere
      · rw [drained, List.map_nil, Chunks.run, List.append_nil]
      · cases done with
        | waiting _ takenAfter =>
            have flowAfter := takenAfter.flow
            refine absurd ?_ (elsewhere _ flow ?_)
            · exact (congrArg TcpFlowData.messageId flowAfter).trans rfl
            · exact (congrArg TcpFlowData.currentMsgType flowAfter).trans rfl
        | finished dead => exact (recordedChunks_append_of_dead dead _).symm
    · rw [PacketHandler.responses, db]
      exact rows
  · rename_i details
    have unconcerned : start.Unconcerned env messageId := ⟨drawn, fun on => absurd on details⟩
    obtain ⟨more, rows, none⟩ := handles.unconcerned neverFails ready unconcerned
    have added : after.db.contents.rows.drop before.db.contents.rows.length = more := by
      rw [db, rows]
      exact List.drop_left
    rw [PacketHandler.responses, added, none]

omit drawn in
theorem exists_carries (details : env.config.bootstrapDetails) (traffic : List SidedSegment) :
    ∃ waiting events after, Carries key traffic waiting events ∧
      Run env { before with packetQueue := waiting } events after ∧
      after.Settled key messageId := by
  let start : World := ⟨before.db, .awaitingFrontiers packetId messageId⟩
  let connection : ConnectionData := { ConnectionData.sample with flowKey := key }
  let queued := traffic.filter fun segment => isQueued segment.2
  let waiting := queued.map fun segment => connection.packet segment.1 segment.2
  have segments : waiting.map (fun info => (info.side, info.data)) = queued := by
    rw [List.map_map]
    exact List.map_id _
  have waits : ∀ info ∈ waiting, info.flowKey = key := by
    intro info member
    obtain ⟨segment, -, rfl⟩ := List.mem_map.mp member
    rfl
  have nonempty : ∀ info ∈ waiting, info.data ≠ [] := by
    intro info member
    obtain ⟨segment, inside, rfl⟩ := List.mem_map.mp member
    have queues := (List.mem_filter.mp inside).2
    rw [isQueued, Bool.and_eq_true, decide_eq_true_eq] at queues
    exact queues.1
  have taken : FrontiersTaken env start [] [] start := .refl ready rfl rfl
  obtain ⟨first, second, handlerAfter, split, handles, -, ends⟩ := @FrontiersTaken.handlesAll env
    start neverFails details rfl rfl waiting nonempty [] [] (before.view _) taken
  obtain ⟨after, run, db, flow, queue⟩ := @HandlesAll.run env key first second _ before
    handlerAfter handles (fun info member => waits info (split ▸ List.mem_append_left _ member))
    known
  refine ⟨waiting, List.replicate first.length .handleNext, after, ⟨waits, fun event member =>
    .inl (List.eq_of_mem_replicate member), traffic, segments, ?_⟩, split ▸ run, ?_⟩
  · rw [List.filterMap_replicate_of_none rfl, List.append_nil]
  · rcases ends with rfl | reset
    · exact .inl queue
    · refine .inr fun found held mode => ?_
      rw [flow, Option.some.injEq] at held
      rw [← held, reset] at mode
      cases mode

/-- The requesting side does no harm exactly when the chunks recorded are those of the
answers. -/
theorem requesterHarmless_iff (requesting : Int) (traffic : List SidedSegment) :
    RequesterHarmless env before key messageId requesting traffic ↔
      (env.config.bootstrapDetails = true →
        recordedChunks (Chunks.run 4096 64 [] (queuedTexts traffic)).1 =
          recordedChunks (Chunks.run 4096 64 [] (queuedTexts (answers requesting traffic))).1) := by
  constructor
  · intro harmless details
    obtain ⟨waiting, events, after, carries, run, settled⟩ :=
      exists_carries neverFails ready known details traffic
    obtain ⟨waitingAlone, eventsAlone, alone, carriesAlone, runAlone, settledAlone⟩ :=
      exists_carries neverFails ready known details (answers requesting traffic)
    have recorded := carries.recorded neverFails ready known drawn run settled
    have recordedAlone := carriesAlone.recorded neverFails ready known drawn runAlone settledAlone
    rw [if_pos details] at recorded recordedAlone
    obtain ⟨entries, wires, rows⟩ := recorded
    obtain ⟨entriesAlone, wiresAlone, rowsAlone⟩ := recordedAlone
    have same := harmless _ _ _ _ _ _ carries run settled carriesAlone runAlone settledAlone
    rw [rows, rowsAlone] at same
    rw [← wires, ← wiresAlone, FrontierEntry.Live.rowsFrom_injective same]
  · intro chunks waiting events after waitingAlone eventsAlone alone carries run settled
      carriesAlone runAlone settledAlone
    have recorded := carries.recorded neverFails ready known drawn run settled
    have recordedAlone := carriesAlone.recorded neverFails ready known drawn runAlone settledAlone
    split at recorded
    · rename_i details
      rw [if_pos details] at recordedAlone
      obtain ⟨entries, wires, rows⟩ := recorded
      obtain ⟨entriesAlone, wiresAlone, rowsAlone⟩ := recordedAlone
      have same := FrontierEntry.Live.wire_injective.list_map
        ((wires.trans (chunks details)).trans wiresAlone.symm)
      rw [rows, rowsAlone, same]
    · rename_i details
      rw [if_neg details] at recordedAlone
      rw [recorded, recordedAlone]

/-- Of a response that arrives whole the same is recorded exactly when all the bytes that
arrive begin with it. -/
private theorem requesterHarmless_iff_prefix {requesting : Int} {traffic : List SidedSegment}
    {entries : List FrontierEntry.Live}
    (whole : (queuedTexts (answers requesting traffic)).flatten = FrontierEntry.response entries)
    (fits : Chunks.Fits 4096 64 [] (queuedTexts traffic))
    (fitsAlone : Chunks.Fits 4096 64 [] (queuedTexts (answers requesting traffic))) :
    RequesterHarmless env before key messageId requesting traffic ↔
      (env.config.bootstrapDetails = true →
        FrontierEntry.throughEnd entries <+: (queuedTexts traffic).flatten) := by
  have texts : (queuedTexts (answers requesting traffic)).Sublist (queuedTexts traffic) :=
    (List.filter_sublist.map Prod.snd).filter isQueued
  have size := FrontierEntry.length_response entries
  have enough : 64 * entries.length + 64 ≤ (queuedTexts traffic).flatten.length := by
    rw [← size, ← whole]
    exact texts.flatten.length_le
  have own : FrontierEntry.throughEnd entries <+: FrontierEntry.response entries :=
    ⟨List.replicate 32 0, List.append_assoc _ _ _⟩
  have alone := (FrontierEntry.recordedChunks_fronts_iff entries (Nat.le_of_eq size.symm)).mpr own
  rw [requesterHarmless_iff neverFails ready known drawn,
    Chunks.run_of_fits (by decide) (by decide) fits,
    Chunks.run_of_fits (by decide) (by decide) fitsAlone, whole, List.nil_append,
    List.nil_append, alone, FrontierEntry.recordedChunks_fronts_iff entries enough]

end Requester

/-- What the requesting side sends does no harm exactly when the chunks of 64 bytes that
leave the buffer, up to the first with an account of zeros, are those of the answers
alone. As long as nothing overflows and the whole response arrives, they are exactly
when the bytes of both sides begin with the response, up to the account that ends it. -/
theorem requester_harmless_iff {env : Environment} (neverFails : env.NeverFails)
    {before : PacketHandler} (ready : before.db.Ready) {key : UInt32} {packetId messageId : Nat}
    (known : before.connMgr key =
      some { TcpFlowData.reset .frontierReq with packetId := packetId, messageId := messageId })
    (drawn : messageId < before.db.nextId) (requesting : Int) (traffic : List SidedSegment) :
    (RequesterHarmless env before key messageId requesting traffic ↔
      (env.config.bootstrapDetails = true →
        recordedChunks (Chunks.run 4096 64 [] (queuedTexts traffic)).1 =
          recordedChunks (Chunks.run 4096 64 [] (queuedTexts (answers requesting traffic))).1)) ∧
    ∀ entries : List FrontierEntry.Live,
      (queuedTexts (answers requesting traffic)).flatten = FrontierEntry.response entries →
      Chunks.Fits 4096 64 [] (queuedTexts traffic) →
      Chunks.Fits 4096 64 [] (queuedTexts (answers requesting traffic)) →
      (RequesterHarmless env before key messageId requesting traffic ↔
        (env.config.bootstrapDetails = true →
          FrontierEntry.throughEnd entries <+: (queuedTexts traffic).flatten)) :=
  ⟨requesterHarmless_iff neverFails ready known drawn requesting traffic,
    fun _ whole fits fitsAlone =>
      requesterHarmless_iff_prefix neverFails ready known drawn whole fits fitsAlone⟩

def FrontierEntry.sampleResponse : List UInt8 := response [.sample]

/-- Three bytes of the requesting side stand in the hash of the end entry. -/
theorem requester_harmless_end :
    RequesterHarmless .sample .awaiting 1 0 0 [(1, FrontierEntry.sampleResponse.take 96),
      (0, [7, 7, 7]), (1, FrontierEntry.sampleResponse.drop 96)] := by
  refine ((requester_harmless_iff Environment.sample_neverFails (Db.opened_ready _)
    (PacketHandler.setFlow_self ..) (by decide) 0 _).2 [.sample] (by decide +kernel) ?_ ?_).mpr
    fun _ => List.isPrefixOf_iff_prefix.mp (by decide +kernel)
  · exact ⟨by decide +kernel, by decide +kernel, by decide +kernel, trivial⟩
  · exact ⟨by decide +kernel, by decide +kernel, trivial⟩

/-- A byte of the requesting side shifts the entry that is recorded. -/
theorem requester_not_harmless :
    ¬∀ (env : Environment) (before : PacketHandler) (key : UInt32) (packetId messageId : Nat)
      (requesting answering : Int) (front : List SidedSegment) (last : List UInt8)
      (entries : List FrontierEntry.Live), env.NeverFails → before.db.Ready →
      before.connMgr key = some
        { TcpFlowData.reset .frontierReq with packetId := packetId, messageId := messageId } →
      messageId < before.db.nextId → answering ≠ requesting →
      (queuedTexts (answers requesting (front ++ [(answering, last)]))).flatten =
        FrontierEntry.response entries →
      RequesterHarmless env before key messageId requesting (front ++ [(answering, last)]) := by
  intro harmless
  have same := (requesterHarmless_iff Environment.sample_neverFails (Db.opened_ready _)
    (PacketHandler.setFlow_self ..) (by decide) 0 _).mp
    (harmless .sample .awaiting 1 0 0 0 1 [(0, [7])] FrontierEntry.sampleResponse [.sample]
      Environment.sample_neverFails (Db.opened_ready _) (PacketHandler.setFlow_self ..)
      (by decide) (by decide) (by decide +kernel)) rfl
  exact absurd same (by decide +kernel)

end Nanocap
