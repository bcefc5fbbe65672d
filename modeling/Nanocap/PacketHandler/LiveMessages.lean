import Mathlib.Data.List.Forall2
import Mathlib.Data.List.SplitLengths
import Nanocap.Database.PacketRows
import Nanocap.PacketHandler.Deliveries
import Nanocap.Protocol.Messages

/-! # Live messages

Outside the bootstrap modes every segment is read as one message from its first
byte. Messages are recorded for all contents exactly when every segment is one
message. -/

namespace Nanocap

/-! ## Segments as messages -/

/-- The header of the message in front of the bytes, if `handle_tcp` handles its
type. -/
def announced (bytes : List UInt8) : Option MessageHeader :=
  match Nano.read (.ofBytes bytes) with
  | .ok nano _ => nano.handling.map fun _ => nano.header
  | .error _ _ => none

/-- The parser throws an exception that is counted as a parse error. -/
def rejected (bytes : List UInt8) : Bool :=
  match Nano.read (.ofBytes bytes) with
  | .error .runtimeError _ => true
  | _ => false

private theorem rejected_of_ne {byte : UInt8} {rest : List UInt8} (noMagic : byte ≠ 0x52) :
    rejected (byte :: rest) = true := by
  have different : (⟨[byte], rfl⟩ : Bytes 1) ≠ headerMagic := fun equal =>
    noMagic (List.cons.inj (congrArg Subtype.val equal)).1
  have magic : KStream.ensureFixedContents headerMagic (.ofBytes (byte :: rest)) =
      .error .runtimeError ⟨1, rest⟩ :=
    (EStateM.bind_of_ok (KStream.readBytes_append ⟨[byte], rfl⟩ 0 rest)).trans
      (by rw [if_neg different]; rfl)
  have raises : Nano.read (.ofBytes (byte :: rest)) = .error .runtimeError ⟨1, rest⟩ :=
    EStateM.bind_of_error (EStateM.bind_of_error magic)
  rw [rejected, raises]

private theorem Nano.Live.handling_isSome {nano : Nano} (live : nano.Live) :
    nano.handling.isSome := by
  obtain ⟨header, body⟩ := nano
  cases live <;> simp_all [Nano.handling]

theorem announced_wire {nano : Nano} (live : nano.Live) :
    announced nano.wire = some nano.header ∧ rejected nano.wire = false := by
  have read := live.reads 0 []
  rw [List.append_nil] at read
  obtain ⟨handling, handled⟩ := Option.isSome_iff_exists.mp live.handling_isSome
  have reads : Nano.read (.ofBytes nano.wire) = .ok nano _ := read
  rw [announced, rejected, reads]
  exact ⟨by simp [handled], rfl⟩

/-! ## Recording -/

section Recording

variable {env : Environment} {info : NanoPacket}

private theorem liveTypes_ne : ∀ live ∈ liveTypes, ∀ mode ∈ bootstrapModes,
    live.toUInt8 ≠ mode.toUInt8 := by decide

def LiveColumns (columns : List Value) : Prop :=
  ∃ messageType ∈ liveTypes, columns.head? = some (.nat messageType.toUInt8.toNat)

theorem Nano.Live.columns {nano : Nano} (live : nano.Live) : LiveColumns nano.header.columns :=
  ⟨nano.header.messageType, Body.Live.messageType live, rfl⟩

theorem LiveColumns.notBootstrap {header : MessageHeader} (live : LiveColumns header.columns) :
    header.messageType ∉ bootstrapModes := by
  obtain ⟨messageType, member, head⟩ := live
  intro bootstrap
  have same := Int.ofNat.inj (Value.integer.inj (Option.some.inj head))
  exact liveTypes_ne messageType member _ bootstrap (UInt8.toNat_inj.mp same).symm

/-- What a segment that is not rejected leaves: the packet row of the message it
announces, and the mode of that message. -/
structure Records (bytes : List UInt8) (before after : Handler) : Prop where
  ready : after.db.Ready
  errors : after.packetParseErrorCount = before.packetParseErrorCount
  rows : ∃ inserted, after.db.contents.rows = before.db.contents.rows ++ inserted ∧
    packetHeaders inserted = (announced bytes).toList.map MessageHeader.columns
  mode : after.flow.currentMsgType ∈ bootstrapModes →
    ∃ header ∈ announced bytes, header.messageType ∈ bootstrapModes

theorem Nano.records {nano : Nano} {stop : KStream} (db : Db)
    (reads : Nano.read (.ofBytes info.data) = .ok nano stop) :
    (∃ inserted, (nano.after env info db).db.contents.rows = db.contents.rows ++ inserted ∧
      packetHeaders inserted = (announced info.data).toList.map MessageHeader.columns) ∧
    ((nano.after env info db).flow.currentMsgType ∈ bootstrapModes →
      ∃ header ∈ announced info.data, header.messageType ∈ bootstrapModes) := by
  rw [announced, reads]
  dsimp only
  unfold Nano.after
  cases handled : nano.handling with
  | none =>
      have message : TcpFlowData.initial.currentMsgType ∉ bootstrapModes := by decide
      exact ⟨⟨[], (List.append_nil _).symm, rfl⟩, fun bootstrap => absurd bootstrap message⟩
  | some handling =>
      obtain ⟨message, mode, -, -⟩ := Nano.handling_request handled
      obtain ⟨flow, events, eventRows, connections⟩ :=
        @Handling.announced_spec env info handling db
      have kept := @Request.flowAfter_rewritten env handling.request
        (handling.announced env info db).db.nextId handling.flow
      let world := handling.announced env info db
      have stored := @Db.store_rows env
        (handling.request.plan env info world.db.nextId world.flow) world.db
      refine ⟨⟨_, stored.trans (by rw [eventRows, List.append_assoc]), ?_⟩,
        fun bootstrap => ⟨nano.header, by simp, ?_⟩⟩
      · rw [packetHeaders_append, packetHeaders_of_ne fun row member => by
          rw [connections row member]
          decide]
        exact handling.request.packetHeaders_plan message _ _ _
      · change (handling.request.flowAfter env _ _).currentMsgType ∈ _ at bootstrap
        rwa [flow, kept.currentMsgType, mode] at bootstrap

variable (neverFails : env.NeverFails)
include neverFails

theorem handles_records {before : Handler} (ready : before.db.Ready)
    (message : before.flow.currentMsgType ∉ bootstrapModes)
    (accepted : rejected info.data = false) :
    ∃ after, Handles env info before after ∧ Records info.data before after := by
  have noLoop : drainLoop env info before.flow.currentMsgType = none :=
    (drainLoop_eq_none_iff env info).mpr message
  refine ⟨_, (handles_iff_message noLoop).mpr rfl, ?_⟩
  cases reads : Nano.read (.ofBytes info.data) with
  | ok nano stop =>
      obtain ⟨rows, mode⟩ := @Nano.records env info nano stop before.db reads
      have handled := handleSegment_of_ok neverFails info ready before.flow reads
      rw [show handleSegment env info before.toWorld = _ from handled]
      exact ⟨Nano.ready_after ready nano, before.checkMaxReached_packetParseErrorCount, rows, mode⟩
  | error exception stop =>
      have nothing : announced info.data = none := by rw [announced, reads]
      rw [handleSegment_of_error reads]
      cases exception with
      | runtimeError =>
          rw [rejected, reads] at accepted
          cases accepted
      | outOfRange =>
          exact ⟨ready, before.checkMaxReached_packetParseErrorCount,
            ⟨[], (List.append_nil _).symm, by rw [nothing]; rfl⟩, fun mode => absurd mode message⟩

/-- As long as no segment is rejected or starts a bootstrap exchange, the packet rows
are those of the messages the segments announce. -/
theorem handlesAll_records {segments : List NanoPacket} {before : Handler}
    (ready : before.db.Ready) (message : before.flow.currentMsgType ∉ bootstrapModes)
    (accepted : ∀ info ∈ segments, rejected info.data = false)
    (live : ∀ header ∈ segments.filterMap (announced ·.data),
      header.messageType ∉ bootstrapModes) :
    ∃ after inserted, HandlesAll env segments before after ∧
      after.db.contents.rows = before.db.contents.rows ++ inserted ∧
      packetHeaders inserted =
        (segments.filterMap (announced ·.data)).map MessageHeader.columns ∧
      after.packetParseErrorCount = before.packetParseErrorCount := by
  induction segments generalizing before with
  | nil => exact ⟨before, [], .nil before, (List.append_nil _).symm, rfl, rfl⟩
  | cons info segments induction =>
      obtain ⟨next, handles, records⟩ :=
        handles_records neverFails ready message (accepted info (by simp))
      obtain ⟨inserted, rows, headers⟩ := records.rows
      have stays : next.flow.currentMsgType ∉ bootstrapModes := fun bootstrap => by
        obtain ⟨header, announces, other⟩ := records.mode bootstrap
        exact live header (List.mem_filterMap.mpr ⟨info, by simp, announces⟩) other
      obtain ⟨after, more, handled, moreRows, moreHeaders, errors⟩ := induction records.ready stays
        (fun other member => accepted other (List.mem_cons_of_mem _ member))
        (fun header member => live header (by
          obtain ⟨other, inside, announces⟩ := List.mem_filterMap.mp member
          exact List.mem_filterMap.mpr ⟨other, List.mem_cons_of_mem _ inside, announces⟩))
      refine ⟨after, inserted ++ more, .cons handles handled, ?_, ?_, errors.trans records.errors⟩
      · rw [moreRows, rows, List.append_assoc]
      · rw [packetHeaders_append, headers, moreHeaders, ← List.map_append]
        cases announces : announced info.data <;> simp [announces]

/-- If only packet rows of live messages are added and no error is counted, no
segment was rejected or has started a bootstrap exchange. -/
private theorem accepted_of_handlesAll {segments : List NanoPacket} {before after : Handler}
    (handled : HandlesAll env segments before after) (ready : before.db.Ready)
    (message : before.flow.currentMsgType ∉ bootstrapModes) {inserted : List Row}
    (rows : after.db.contents.rows = before.db.contents.rows ++ inserted)
    (live : ∀ columns ∈ packetHeaders inserted, LiveColumns columns)
    (errors : after.packetParseErrorCount = before.packetParseErrorCount) :
    (∀ info ∈ segments, rejected info.data = false) ∧
      ∀ header ∈ segments.filterMap (announced ·.data), header.messageType ∉ bootstrapModes := by
  induction handled generalizing inserted with
  | nil handler => simp
  | @cons info segments before middle after handles handled induction =>
      have readyMiddle := (handles.delivery neverFails ready).ready ready
      obtain ⟨⟨more, moreRows⟩, moreErrors⟩ := handled.grows neverFails readyMiddle
      cases reject : rejected info.data with
      | true =>
          -- the error has been counted, and counts never fall
          have noLoop : drainLoop env info before.flow.currentMsgType = none :=
            (drainLoop_eq_none_iff env info).mpr message
          obtain ⟨stop, raises⟩ : ∃ stop,
              Nano.read (.ofBytes info.data) = .error .runtimeError stop := by
            unfold rejected at reject
            split at reject
            · exact ⟨_, by assumption⟩
            · cases reject
          have counted := (handles_iff_message noLoop).mp handles
          rw [handleSegment_of_error raises] at counted
          have raised : middle.packetParseErrorCount = before.packetParseErrorCount + 1 := by
            rw [← counted]
            exact congrArg (· + 1) before.checkMaxReached_packetParseErrorCount
          omega
      | false =>
          obtain ⟨next, others, records⟩ := handles_records neverFails ready message reject
          obtain rfl := others.unique handles
          obtain ⟨first, firstRows, headers⟩ := records.rows
          have split : inserted = first ++ more := by
            rw [firstRows, List.append_assoc] at moreRows
            exact List.append_cancel_left (rows.symm.trans moreRows.symm)
          subst split
          rw [packetHeaders_append, headers] at live
          have own : ∀ header ∈ announced info.data, header.messageType ∉ bootstrapModes :=
            fun header announces => (live header.columns (by
              rw [Option.mem_def.mp announces]
              simp)).notBootstrap
          have stays : next.flow.currentMsgType ∉ bootstrapModes := fun bootstrap => by
            obtain ⟨header, announces, other⟩ := records.mode bootstrap
            exact own header announces other
          obtain ⟨accepted, later⟩ := induction records.ready stays moreRows.symm
            (fun columns member => live columns (List.mem_append_right _ member))
            (errors.trans records.errors.symm)
          refine ⟨fun other member => ?_, fun header member => ?_⟩
          · rcases List.mem_cons.mp member with rfl | member
            · exact reject
            · exact accepted other member
          · obtain ⟨other, inside, announces⟩ := List.mem_filterMap.mp member
            rcases List.mem_cons.mp inside with rfl | inside
            · exact own header announces
            · exact later header (List.mem_filterMap.mpr ⟨other, inside, announces⟩)

end Recording

/-! ## Cuts -/

/-- One packet row for every message, in order and with the fields of its header,
and no parse error. -/
def LiveRecorded (env : Environment) (before : Handler) (segments : List NanoPacket)
    (messages : List Nano) : Prop :=
  ∃ after inserted, HandlesAll env segments before after ∧
    after.db.contents.rows = before.db.contents.rows ++ inserted ∧
    packetHeaders inserted = messages.map (·.header.columns) ∧
    after.packetParseErrorCount = before.packetParseErrorCount

/-- Every segment can be read as a message from its first byte, and the messages
that are read have the headers of the messages sent. -/
def Readable (segments : List NanoPacket) (messages : List Nano) : Prop :=
  (∀ info ∈ segments, rejected info.data = false) ∧
    (segments.filterMap (announced ·.data)).map MessageHeader.columns =
      messages.map (·.header.columns)

theorem Readable.of_messages {segments : List NanoPacket} {messages : List Nano}
    (live : ∀ nano ∈ messages, nano.Live)
    (same : segments.map NanoPacket.data = messages.map Nano.wire) :
    Readable segments messages := by
  constructor
  · intro info member
    have inside : info.data ∈ messages.map Nano.wire := same ▸ List.mem_map_of_mem member
    obtain ⟨nano, sent, wire⟩ := List.mem_map.mp inside
    rw [← wire]
    exact (announced_wire (live nano sent)).2
  · have announces : segments.filterMap (announced ·.data) =
        (segments.map NanoPacket.data).filterMap announced := by
      rw [List.filterMap_map]
      rfl
    rw [announces, same, List.filterMap_map]
    have headers : messages.filterMap (announced ∘ Nano.wire) =
        messages.filterMap (Option.some ∘ Nano.header) :=
      List.filterMap_congr fun nano member => (announced_wire (live nano member)).1
    rw [headers, List.filterMap_eq_map, List.map_map]
    rfl

theorem liveColumns_of_live {messages : List Nano} (live : ∀ nano ∈ messages, nano.Live) :
    ∀ columns ∈ messages.map (·.header.columns), LiveColumns columns := by
  intro columns member
  obtain ⟨nano, sent, rfl⟩ := List.mem_map.mp member
  exact (live nano sent).columns

theorem Readable.cons {info : NanoPacket} {segments : List NanoPacket} {messages : List Nano}
    (accepted : rejected info.data = false) (nothing : announced info.data = none)
    (readable : Readable segments messages) : Readable (info :: segments) messages :=
  ⟨List.forall_mem_cons.mpr ⟨accepted, readable.1⟩, by
    have skipped : (info :: segments).filterMap (announced ·.data) =
        segments.filterMap (announced ·.data) := List.filterMap_cons_none nothing
    rw [skipped]
    exact readable.2⟩

theorem Readable.notBootstrap {segments : List NanoPacket} {messages : List Nano}
    (live : ∀ nano ∈ messages, nano.Live) (readable : Readable segments messages) :
    ∀ header ∈ segments.filterMap (announced ·.data), header.messageType ∉ bootstrapModes :=
  fun header member => (liveColumns_of_live live header.columns
    (readable.2 ▸ List.mem_map_of_mem member)).notBootstrap

section Cuts

variable {env : Environment} (neverFails : env.NeverFails) {before : Handler}
  (ready : before.db.Ready) (message : before.flow.currentMsgType ∉ bootstrapModes)
include neverFails ready message

theorem liveRecorded_iff_readable {segments : List NanoPacket} {messages : List Nano}
    (live : ∀ nano ∈ messages, nano.Live) :
    LiveRecorded env before segments messages ↔ Readable segments messages := by
  constructor
  · rintro ⟨after, inserted, handled, rows, headers, errors⟩
    obtain ⟨accepted, notBootstrap⟩ := accepted_of_handlesAll neverFails handled ready message rows
      (headers ▸ liveColumns_of_live live) errors
    obtain ⟨other, more, others, moreRows, announces, -⟩ :=
      handlesAll_records neverFails ready message accepted notBootstrap
    obtain rfl := others.unique handled
    obtain rfl := List.append_cancel_left (rows.symm.trans moreRows)
    exact ⟨accepted, announces.symm.trans headers⟩
  · intro readable
    obtain ⟨after, inserted, handled, rows, announces, errors⟩ :=
      handlesAll_records neverFails ready message readable.1 (readable.notBootstrap live)
    exact ⟨after, inserted, handled, rows, announces.trans readable.2, errors⟩

omit neverFails ready message in
/-- A cut that records messages of which only the first byte is a magic byte is
the cut into the messages. -/
private theorem Readable.eq_of_blank {segments : List NanoPacket} {messages blanks : List Nano}
    (blank : List.Forall₂ Nano.Blank messages blanks)
    (nonempty : ∀ info ∈ segments, info.data ≠ [])
    (cut : received segments = blanks.flatMap Nano.wire) (readable : Readable segments blanks) :
    segments.map NanoPacket.data = blanks.map Nano.wire := by
  obtain ⟨accepted, headers⟩ := readable
  have marked : ∀ other ∈ blanks, Framing.Marked 0x52 other.wire := by
    clear cut headers
    induction blank with
    | nil => simp
    | cons isBlank _ induction =>
        intro other member
        rcases List.mem_cons.mp member with rfl | member
        · exact isBlank.marked
        · exact induction other member
  refine @Framing.eq_of_marked _ 0x52 _ _ ?_ ?_ ?_ ?_
  · intro piece member
    obtain ⟨other, sent, rfl⟩ := List.mem_map.mp member
    exact marked other sent
  · intro data member
    obtain ⟨info, inside, rfl⟩ := List.mem_map.mp member
    obtain ⟨byte, rest, equal⟩ := List.exists_cons_of_ne_nil (nonempty info inside)
    refine ⟨rest, ?_⟩
    have reads := accepted info inside
    rw [equal] at reads ⊢
    by_cases magic : byte = 0x52
    · rw [magic]
    · rw [rejected_of_ne magic] at reads
      cases reads
  · rw [← List.flatMap_def, ← List.flatMap_def]
    exact cut
  · have lengths := congrArg List.length headers
    have fewer := List.length_filterMap_le (announced ·.data) segments
    simp only [List.length_map] at lengths ⊢
    omega

omit neverFails ready message in
private theorem exists_blanks {messages : List Nano} (live : ∀ nano ∈ messages, nano.Live) :
    ∃ blanks, List.Forall₂ Nano.Blank messages blanks := by
  induction messages with
  | nil => exact ⟨[], .nil⟩
  | cons nano messages induction =>
      obtain ⟨blank, isBlank⟩ := (live nano (by simp)).exists_blank
      obtain ⟨blanks, are⟩ := induction fun other member => live other (by simp [member])
      exact ⟨blank :: blanks, .cons isBlank are⟩

omit neverFails ready message in
theorem lengths_of_sameForm {messages others : List Nano}
    (same : List.Forall₂ Nano.SameForm messages others) :
    others.map (·.wire.length) = messages.map (·.wire.length) ∧
      ∀ other ∈ others, other.Live := by
  induction same with
  | nil => exact ⟨rfl, by simp⟩
  | cons form _ induction =>
      refine ⟨by rw [List.map_cons, List.map_cons, form.length, induction.1], ?_⟩
      intro other member
      rcases List.mem_cons.mp member with rfl | member
      · exact form.live
      · exact induction.2 other member

/-- A cut records all messages of given types and lengths exactly when its segments
are one message each. -/
private theorem liveRecorded_forall_iff {messages : List Nano} (live : ∀ nano ∈ messages, nano.Live)
    {lengths : List Nat} (positive : ∀ length ∈ lengths, 0 < length)
    (total : lengths.sum = (messages.flatMap Nano.wire).length) :
    (∀ others, List.Forall₂ Nano.SameForm messages others → ∀ segments : List NanoPacket,
      segments.map (·.data.length) = lengths → received segments = others.flatMap Nano.wire →
      LiveRecorded env before segments others) ↔
    lengths = messages.map (·.wire.length) := by
  constructor
  · intro recorded
    obtain ⟨blanks, blank⟩ := exists_blanks live
    have same := blank.imp fun _ _ isBlank => isBlank.toSameForm
    obtain ⟨wireLengths, blankLive⟩ := lengths_of_sameForm same
    have size : lengths.sum = (blanks.flatMap Nano.wire).length := by
      rw [total, List.length_flatMap, List.length_flatMap, wireLengths]
    -- the blank messages, cut into segments of these lengths
    let pieces := lengths.splitLengths (blanks.flatMap Nano.wire)
    let segments := pieces.map NanoPacket.sample
    have data : segments.map NanoPacket.data = pieces := by
      rw [List.map_map]
      exact List.map_id _
    have dataLengths : segments.map (·.data.length) = lengths := by
      have pieceLengths : pieces.map List.length = lengths :=
        List.map_splitLengths_length _ _ (Nat.le_of_eq size)
      rwa [← data, List.map_map] at pieceLengths
    have cut : received segments = blanks.flatMap Nano.wire := by
      rw [received, List.flatMap_def, data]
      exact List.flatten_splitLengths _ _ (Nat.le_of_eq size.symm)
    have nonempty : ∀ info ∈ segments, info.data ≠ [] := by
      intro info member empty
      have length := positive info.data.length (dataLengths ▸
        @List.mem_map_of_mem _ _ _ _ (fun info : NanoPacket => info.data.length) member)
      rw [empty] at length
      exact absurd length (by decide)
    have readable := (liveRecorded_iff_readable neverFails ready message blankLive).mp
      (recorded blanks same segments dataLengths cut)
    have equal := congrArg (List.map List.length) (readable.eq_of_blank blank nonempty cut)
    have lengthsEqual : segments.map (·.data.length) = blanks.map (·.wire.length) := by
      simpa only [List.map_map, Function.comp_def] using equal
    exact (dataLengths.symm.trans lengthsEqual).trans wireLengths
  · rintro rfl others same segments dataLengths cut
    obtain ⟨wireLengths, othersLive⟩ := lengths_of_sameForm same
    refine (liveRecorded_iff_readable neverFails ready message othersLive).mpr
      (.of_messages othersLive (List.eq_iff_flatten_eq.mpr ⟨?_, ?_⟩))
    · rw [← List.flatMap_def, ← List.flatMap_def]
      exact cut
    · rw [List.map_map, List.map_map]
      exact dataLengths.trans wireLengths.symm

/-- Given messages and segments are recorded exactly when the segments are readable
as the messages, and a way of cutting records all messages of given types and
lengths exactly when every segment is one message. -/
theorem live_recorded_iff :
    (∀ (messages : List Nano) (segments : List NanoPacket), (∀ nano ∈ messages, nano.Live) →
      (∀ info ∈ segments, info.data ≠ []) → received segments = messages.flatMap Nano.wire →
      (LiveRecorded env before segments messages ↔ Readable segments messages)) ∧
    ∀ (messages : List Nano) (lengths : List Nat), (∀ nano ∈ messages, nano.Live) →
      (∀ length ∈ lengths, 0 < length) → lengths.sum = (messages.flatMap Nano.wire).length →
      ((∀ others, List.Forall₂ Nano.SameForm messages others → ∀ segments : List NanoPacket,
        segments.map (·.data.length) = lengths → received segments = others.flatMap Nano.wire →
        LiveRecorded env before segments others) ↔
      lengths = messages.map (·.wire.length)) :=
  ⟨fun _ _ live _ _ => liveRecorded_iff_readable neverFails ready message live,
    fun _ _ live positive total =>
      liveRecorded_forall_iff neverFails ready message live positive total⟩

end Cuts

def Nano.sample : Nano := ⟨.sample .telemetryReq 0, .telemetryReq⟩

theorem Nano.sample_live : Nano.sample.Live := .telemetryReq rfl

/-- Two messages in two segments. -/
theorem live_recorded_two :
    LiveRecorded .sample .sample [.sample Nano.sample.wire, .sample Nano.sample.wire]
      [.sample, .sample] :=
  ((live_recorded_iff Environment.sample_neverFails (Db.opened_ready _) (by decide)).1
    [.sample, .sample] _ (by simp [Nano.sample_live]) (by simp [NanoPacket.sample]; decide) rfl).mpr
    (.of_messages (by simp [Nano.sample_live]) rfl)

/-- Two messages in one segment. -/
theorem live_not_recorded_two :
    ¬∀ (env : Environment) (before : Handler) (messages : List Nano) (segments : List NanoPacket),
      env.NeverFails → before.db.Ready → before.flow.currentMsgType ∉ bootstrapModes →
      (∀ nano ∈ messages, nano.Live) → (∀ info ∈ segments, info.data ≠ []) →
      received segments = messages.flatMap Nano.wire →
      LiveRecorded env before segments messages := by
  intro recorded
  have live : ∀ nano ∈ [Nano.sample, .sample], nano.Live := by simp [Nano.sample_live]
  have readable := (liveRecorded_iff_readable Environment.sample_neverFails (Db.opened_ready _)
    (by decide) live).mp (recorded .sample .sample [.sample, .sample]
      [.sample (Nano.sample.wire ++ Nano.sample.wire)] Environment.sample_neverFails
      (Db.opened_ready _) (by decide) live (by simp [NanoPacket.sample]; decide) rfl)
  have count := congrArg List.length readable.2
  have fewer := List.length_filterMap_le (announced ·.data)
    [NanoPacket.sample (Nano.sample.wire ++ Nano.sample.wire)]
  simp only [List.length_map, List.length_cons, List.length_nil] at count fewer
  omega

end Nanocap
