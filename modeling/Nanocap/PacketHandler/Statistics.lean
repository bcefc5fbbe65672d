import Mathlib.Data.List.TakeWhile
import Nanocap.PacketHandler.BulkPull

/-! # End-of-stream statistics

The event that ends a bulk transfer reports how many entries were read and how many of
them `put` found nothing to store of. -/

namespace Nanocap

open Loop (Control)

/-! ## Streams of entries -/

/-- The buffer starts with `not_a_block`. -/
def AtEnd (buffer : List UInt8) : Prop :=
  ∃ first rest, buffer = first :: rest ∧ EnumBlocktype.ofUInt8 first = .notABlock

section Streams

variable {Entry : Type} (reader : Reader Entry)

inductive ReadsEntries : List UInt8 → List Entry → List UInt8 → Prop where
  | nil (buffer : List UInt8) : ReadsEntries buffer [] buffer
  | cons {buffer rest : List UInt8} {entry : Entry} {stop : KStream} {entries : List Entry} :
      buffer ≠ [] → ¬AtEnd buffer → reader (.ofBytes buffer) = .ok entry stop →
      ReadsEntries (buffer.drop stop.position) entries rest →
      ReadsEntries buffer (entry :: entries) rest

/-- The pieces of a stream are appended to a buffer one after the other. The entries are
read from it until the last piece brings a `not_a_block` behind an entry. -/
inductive ReadsStream : List UInt8 → List (List UInt8) → List Entry → Prop where
  | ends {buffer piece rest : List UInt8} {entries : List Entry} :
      ReadsEntries reader (buffer ++ piece) entries rest → AtEnd rest →
      ReadsStream buffer [piece] entries
  | waits {buffer piece rest : List UInt8} {pieces : List (List UInt8)}
      {entries more : List Entry} :
      ReadsEntries reader (buffer ++ piece) entries rest → ¬AtEnd rest →
      (rest = [] ∨ Unreadable reader rest) → ReadsStream rest pieces more →
      ReadsStream buffer (piece :: pieces) (entries ++ more)

end Streams

/-! ## Counting -/

def BlockSelector.isKnown : BlockSelector → Bool
  | known _ => true
  | ignored _ _ => false

/-- There is a block that `put_block` stores. -/
def BlockSelector.isStored (env : Environment) (selector : BlockSelector) : Bool :=
  (storable env (some selector)).isSome

theorem BlockSelector.isStored_eq (env : Environment) (selector : BlockSelector) :
    selector.isStored env = (env.config.blockDetails && selector.isKnown) := by
  unfold isStored
  cases selector with
  | known block => cases details : env.config.blockDetails <;> simp [storable, isKnown, details]
  | ignored _ _ => simp [storable, isKnown]

def bulkReport (name : String) (valid invalid : Nat) : String :=
  "end of " ++ name ++ ". valid entries: " ++ toString valid ++ ", invalid: " ++
    toString invalid

private theorem endOfBulk_eq (name : String) (flow : TcpFlowData) :
    endOfBulk name flow = bulkReport name flow.responseCount flow.invalidResponseCount := rfl

section Counting

variable {Entry : Type} (env : Environment) (start : World) (selector : Entry → BlockSelector)
  (request : Entry → Request) (responds : Row → Bool)

/-- The request of an entry inserts one row that responds, or counts the entry as
invalid. -/
structure CountsEntries : Prop where
  rows (info : NanoPacket) (nextId : Nat) (flow : TcpFlowData) (entry : Entry)
    (bindings : Bindings) : flow.packetId = start.flow.packetId →
      flow.messageId = start.flow.messageId →
      (((request entry).plan env info nextId flow).rows bindings).countP responds =
        if (selector entry).isStored env then 1 else 0
  flow (nextId : Nat) (flow : TcpFlowData) (entry : Entry) :
    (request entry).flowAfter env nextId flow =
      if (selector entry).isStored env then flow
      else { flow with invalidResponseCount := flow.invalidResponseCount + 1 }

/-- The flow has taken the entries, and the buffer is left. -/
structure Counted (done : List Entry) (buffer : List UInt8) (world : World) : Prop where
  ready : world.db.Ready
  rows : ∃ added, world.db.contents.rows = start.db.contents.rows ++ added ∧
    added.countP responds = done.countP fun entry => (selector entry).isStored env
  buffer : world.flow.accumulatedData.toList = buffer
  flow : world.flow = { start.flow with
    responseCount := done.length
    invalidResponseCount := done.countP fun entry => !(selector entry).isStored env
    accumulatedData := world.flow.accumulatedData }

structure Counted.Reported (name : String) (last : NanoPacket) (done : List Entry)
    (world : World) : Prop where
  rows : ∃ added id, world.db.contents.rows = start.db.contents.rows ++ added ++
      [connectionRow last (bulkReport name done.length
        (done.countP fun entry => !(selector entry).isStored env)) id] ∧
    added.countP responds = done.countP fun entry => (selector entry).isStored env
  flow : world.flow = .initial

end Counting

namespace Counted

variable {env : Environment} {start : World} {Entry : Type} {selector : Entry → BlockSelector}
  {request : Entry → Request} {responds : Row → Bool} {name : String}
  {build : UInt8 → BlockSelector → Entry} {done : List Entry} {buffer : List UInt8}
  {world : World}

theorem refl (ready : start.db.Ready) (valid : start.flow.responseCount = 0)
    (invalid : start.flow.invalidResponseCount = 0)
    (empty : start.flow.accumulatedData = .empty) :
    Counted env start selector responds [] [] start where
  ready := ready
  rows := ⟨[], (List.append_nil _).symm, rfl⟩
  buffer := congrArg CircularBuffer.toList empty
  flow := by
    have same : start.flow = { start.flow with
      responseCount := start.flow.responseCount
      invalidResponseCount := start.flow.invalidResponseCount } := rfl
    rw [valid, invalid] at same
    exact same

theorem accumulate (info : NanoPacket)
    (counted : Counted env start selector responds done buffer world)
    (fits : world.flow.accumulatedData.size + info.data.length ≤ 4096) :
    Counted env start selector responds done (buffer ++ info.data)
      (Nanocap.accumulate info world) where
  ready := counted.ready
  rows := counted.rows
  buffer := by
    rw [← counted.buffer]
    exact CircularBuffer.toList_append_of_fits _ _ fits
  flow := congrArg (fun flow : TcpFlowData =>
    { flow with accumulatedData := (Nanocap.accumulate info world).flow.accumulatedData })
    counted.flow

section Iterations

variable (name build)
variable (neverFails : env.NeverFails) (details : env.config.bootstrapDetails)
include neverFails details

theorem take (counts : CountsEntries env start selector request responds) (info : NanoPacket)
    {entry : Entry} {stop : KStream} (some : buffer ≠ []) (goesOn : ¬AtEnd buffer)
    (reads : readBulkEntry build (.ofBytes buffer) = .ok entry stop)
    (counted : Counted env start selector responds done buffer world) :
    ∃ next, bulkIteration env info name (readBulkEntry build)
        (fun entry => (request entry).put env info) world = .ok .again next ∧
      Counted env start selector responds (done ++ [entry]) (buffer.drop stop.position) next := by
  have put := whenBootstrapDetails_put neverFails details info counted.ready (request entry)
  obtain ⟨first, more, rfl⟩ := List.exists_cons_of_ne_nil some
  have notEnd : ¬EnumBlocktype.ofUInt8 first = .notABlock := fun ends =>
    goesOn ⟨first, more, rfl, ends⟩
  have flowAfter := counts.flow world.db.nextId world.flow entry
  refine ⟨Taken.consumed stop.position ((request entry).after env info world), ?_, ?_, ?_, ?_, ?_⟩
  · rw [bulkIteration_cons env info name build _ counted.buffer, if_neg notEnd]
    refine catchRuntimeError_of_ok ?_
    exact (EStateM.bind_of_ok (construct_of_ok reads)).trans (EStateM.bind_of_ok put)
  · exact Request.ready_after counted.ready (request entry)
  · obtain ⟨added, rows, stored⟩ := counted.rows
    have now := counts.rows info world.db.nextId world.flow entry world.db.bindings
      (by rw [counted.flow]) (by rw [counted.flow])
    refine ⟨added ++ ((request entry).plan env info world.db.nextId world.flow).rows
      world.db.bindings, ?_, ?_⟩
    · rw [Taken.consumed, Request.after, Db.store_rows, rows, List.append_assoc]
    · rw [List.countP_append, List.countP_append, now, stored, List.countP_singleton]
  · rw [Taken.consumed, Request.after, CircularBuffer.toList_eraseFront, flowAfter]
    split <;> exact congrArg _ counted.buffer
  · rw [Taken.consumed, Request.after, flowAfter, List.length_append, List.countP_append,
      List.countP_singleton]
    dsimp only
    cases (selector entry).isStored env <;> rw [counted.flow] <;> rfl

/-- `not_a_block` reports the counts. -/
theorem finish (info : NanoPacket) (put : Entry → Put Unit) (ends : AtEnd buffer)
    (counted : Counted env start selector responds done buffer world) :
    ∃ next, bulkIteration env info name (readBulkEntry build) put world = .ok .leave next ∧
      Reported env start selector responds name info done next := by
  obtain ⟨first, rest, rfl, last⟩ := ends
  obtain ⟨added, rows, stored⟩ := counted.rows
  let event := endOfBulk name world.flow
  have put := whenBootstrapDetails_put neverFails details info counted.ready (.connection event)
  refine ⟨⟨((Request.connection event).after env info world).db, .initial⟩, ?_, ⟨added,
    world.db.nextId, ?_, stored⟩, rfl⟩
  · rw [bulkIteration_cons env info name build _ counted.buffer, if_pos last]
    exact EStateM.bind_of_ok (EStateM.bind_of_ok put)
  · have text : event = bulkReport name done.length
        (done.countP fun entry => !(selector entry).isStored env) := by
      rw [show event = endOfBulk name world.flow from rfl, endOfBulk_eq, counted.flow]
    rw [← text, Request.after, Db.store_rows, rows_connection, rows]

omit neverFails details in
theorem wait (info : NanoPacket) (put : Entry → Put Unit) (goesOn : ¬AtEnd buffer)
    (stuck : buffer = [] ∨ Unreadable (readBulkEntry build) buffer)
    (counted : Counted env start selector responds done buffer world) :
    ∃ result, Loop.Returns (bulkIteration env info name (readBulkEntry build) put) world result ∧
      stateOf result = world := by
  cases buffer with
  | nil => exact ⟨_, .of_leave (bulkIteration_empty env info name build put counted.buffer), rfl⟩
  | cons first rest =>
      have notEnd : ¬EnumBlocktype.ofUInt8 first = .notABlock := fun ends =>
        goesOn ⟨first, rest, rfl, ends⟩
      obtain ⟨exception, stop, raises⟩ := stuck.resolve_left (List.cons_ne_nil _ _)
      have body : (do
          let parsed ← construct (readBulkEntry build) (.ofBytes (first :: rest))
          bulkRest env put parsed.1 parsed.2) world = .error exception world :=
        EStateM.bind_of_error (construct_of_error raises)
      have iteration := bulkIteration_cons env info name build put counted.buffer
      rw [if_neg notEnd, catchRuntimeError, body] at iteration
      cases exception with
      | runtimeError => exact ⟨_, .of_leave iteration, rfl⟩
      | outOfRange => exact ⟨_, .of_error iteration, rfl⟩

theorem returns (counts : CountsEntries env start selector request responds) (info : NanoPacket)
    {entries : List Entry} {rest : List UInt8}
    (reads : ReadsEntries (readBulkEntry build) buffer entries rest)
    (counted : Counted env start selector responds done buffer world) :
    ∃ middle, Counted env start selector responds (done ++ entries) rest middle ∧
      ∀ result, Loop.Returns (bulkIteration env info name (readBulkEntry build)
          (fun entry => (request entry).put env info)) middle result →
        Loop.Returns (bulkIteration env info name (readBulkEntry build)
          (fun entry => (request entry).put env info)) world result := by
  induction reads generalizing done world with
  | nil buffer =>
      rw [List.append_nil]
      exact ⟨world, counted, fun _ returned => returned⟩
  | cons some goesOn read _ induction =>
      obtain ⟨next, again, countedNext⟩ := counted.take name build neverFails details counts info
        some goesOn read
      obtain ⟨middle, countedMiddle, returns⟩ := induction countedNext
      rw [List.append_cons]
      exact ⟨middle, countedMiddle, fun result returned =>
        (Loop.returns_again_iff again result).mpr (returns result returned)⟩

end Iterations

/-! ## Segments -/

section Segments

variable (neverFails : env.NeverFails) (details : env.config.bootstrapDetails)
  (counts : CountsEntries env start selector request responds) {mode : EnumMsgtype}
  (waits : start.flow.currentMsgType = mode)
  (loop : ∀ info, drainLoop env info mode = some (bulkIteration env info name
    (readBulkEntry build) fun entry => (request entry).put env info))
include waits loop

theorem handles_iff {info : NanoPacket} (some : info.data ≠ []) {before after : Handler}
    (counted : Counted env start selector responds done buffer before.toWorld) :
    Handles env info before after ↔ ∃ result,
      Loop.Returns (bulkIteration env info name (readBulkEntry build)
        fun entry => (request entry).put env info) (Nanocap.accumulate info before.toWorld)
        result ∧ before.checkMaxReached.settle result = after := by
  refine handles_iff_drain ?_ some
  rw [counted.flow]
  exact waits ▸ loop info

include neverFails details counts

theorem ends {info : NanoPacket} (some : info.data ≠ []) {before : Handler}
    (counted : Counted env start selector responds done buffer before.toWorld)
    (fits : before.flow.accumulatedData.size + info.data.length ≤ 4096)
    {entries : List Entry} {rest : List UInt8}
    (reads : ReadsEntries (readBulkEntry build) (buffer ++ info.data) entries rest)
    (last : AtEnd rest) :
    ∃ after, Handles env info before after ∧
      Reported env start selector responds name info (done ++ entries) after.toWorld := by
  obtain ⟨middle, countedMiddle, returns⟩ := (counted.accumulate info fits).returns name build
    neverFails details counts info reads
  obtain ⟨next, leaves, reported⟩ := countedMiddle.finish name build neverFails details info
    (fun entry => (request entry).put env info) last
  exact ⟨_, (counted.handles_iff waits loop some).mpr
    ⟨_, returns _ (.of_leave leaves), rfl⟩, reported⟩

/-- Any other segment leaves the beginning of an entry. -/
theorem continues {info : NanoPacket} (some : info.data ≠ []) {before : Handler}
    (counted : Counted env start selector responds done buffer before.toWorld)
    (fits : before.flow.accumulatedData.size + info.data.length ≤ 4096)
    {entries : List Entry} {rest : List UInt8}
    (reads : ReadsEntries (readBulkEntry build) (buffer ++ info.data) entries rest)
    (goesOn : ¬AtEnd rest) (stuck : rest = [] ∨ Unreadable (readBulkEntry build) rest) :
    ∃ after, Handles env info before after ∧
      Counted env start selector responds (done ++ entries) rest after.toWorld := by
  obtain ⟨middle, countedMiddle, returns⟩ := (counted.accumulate info fits).returns name build
    neverFails details counts info reads
  obtain ⟨result, returned, same⟩ := countedMiddle.wait name build info
    (fun entry => (request entry).put env info) goesOn stuck
  refine ⟨_, (counted.handles_iff waits loop some).mpr
    ⟨_, returns _ returned, rfl⟩, ?_⟩
  rw [Handler.settle_toWorld, same]
  exact countedMiddle

/-- The stream as a whole is reported once, behind the rows of its entries. -/
theorem stream {pieces : List (List UInt8)} {entries : List Entry}
    (reads : ReadsStream (readBulkEntry build) buffer pieces entries)
    {segments : List NanoPacket} (cut : segments.map (·.data) = pieces)
    (nonempty : ∀ info ∈ segments, info.data ≠ []) {before : Handler}
    (counted : Counted env start selector responds done buffer before.toWorld)
    (fits : AppendsFit env segments before) :
    ∃ last after, segments.getLast? = some last ∧ HandlesAll env segments before after ∧
      Reported env start selector responds name last (done ++ entries) after.toWorld := by
  induction reads generalizing done segments before with
  | ends readsEntries atEnd =>
      obtain ⟨info, rfl, rfl⟩ := List.map_eq_singleton_iff.mp cut
      obtain ⟨after, handles, reported⟩ := counted.ends neverFails details counts waits loop
        (nonempty info List.mem_cons_self) fits.1 readsEntries atEnd
      exact ⟨info, after, rfl, .single handles, reported⟩
  | waits readsEntries goesOn stuck readsRest induction =>
      obtain ⟨info, segments, rfl, rfl, cutRest⟩ := List.map_eq_cons_iff.mp cut
      obtain ⟨middle, handles, countedMiddle⟩ := counted.continues neverFails details counts waits
        loop (nonempty info List.mem_cons_self) fits.1 readsEntries goesOn stuck
      obtain ⟨last, after, isLast, handlesRest, reported⟩ := induction cutRest
        (fun other member => nonempty other (List.mem_cons_of_mem info member)) countedMiddle
        (fits.2 middle handles)
      refine ⟨last, after, ?_, .cons handles handlesRest, ?_⟩
      · cases segments with
        | nil => cases isLast
        | cons other segments => exact isLast
      · rwa [← List.append_assoc]

end Segments

end Counted

/-! ## Reports -/

theorem comma_notMem_digits (count : Nat) : ',' ∉ (toString count).toList := by
  intro member
  rw [show (toString count).toList = Nat.toDigits 10 count from Nat.toList_repr] at member
  have digit := Nat.isDigit_of_mem_toDigits (by decide) (by decide) member
  exact absurd digit (by decide)

theorem toList_toString_injective {count other : Nat}
    (same : (toString count).toList = (toString other).toList) : count = other := by
  have digits : Nat.toDigits 10 count = Nat.toDigits 10 other :=
    Nat.toList_repr.symm.trans (same.trans Nat.toList_repr)
  have numbers := congrArg (Nat.ofDigitChars 10 · 0) digits
  simpa only [Nat.ofDigitChars_ten_toDigits] using numbers

private theorem bulkReport_injective {name : String} {valid invalid valid' invalid' : Nat}
    (same : bulkReport name valid invalid = bulkReport name valid' invalid') :
    valid = valid' ∧ invalid = invalid' := by
  have characters := congrArg String.toList same
  simp only [bulkReport, String.toList_append, List.append_assoc] at characters
  have counts := List.append_cancel_left (List.append_cancel_left
    (List.append_cancel_left characters))
  have noComma : ',' ∉ " invalid: ".toList ++ (toString invalid).toList := by
    rw [List.mem_append, not_or]
    exact ⟨by decide, comma_notMem_digits invalid⟩
  obtain ⟨valids, -, invalids⟩ := (List.append_cons_inj_of_notMem (comma_notMem_digits valid)
    noComma).mp counts
  exact ⟨toList_toString_injective valids,
    toList_toString_injective (List.append_cancel_left invalids)⟩

private theorem connectionRow_event {info other : NanoPacket} {event event' : String} {id id' : Nat}
    (same : connectionRow info event id = connectionRow other event' id') : event = event' :=
  Value.text.inj (congrArg (Row.get · .event) same)

/-! ## Entries and rows -/

def responds (table : Table) (request : Cell) (row : Row) : Bool :=
  row.table = table ∧ row.get request.1 = request.2

section Entries

variable {env : Environment} {table : Table} {request : Cell}

theorem Plan.countP_bulkEntry (notBlock : ∀ block : Block, block.table ≠ table)
    (notConnection : Table.connection ≠ table)
    (refers : ∀ (bindings : Bindings) id blockContentId name, responds table request
      (Insertion.row ⟨table, referenceCells request id blockContentId name⟩ bindings) = true)
    (info : NanoPacket) (event : String) (selector : BlockSelector) (flow : TcpFlowData)
    (nextId : Nat) (bindings : Bindings) :
    ((Plan.bulkEntry env info table request event selector flow nextId).rows bindings).countP
      (responds table request) = if selector.isStored env then 1 else 0 := by
  have other : ∀ row : Row, row.table ≠ table → responds table request row = false :=
    fun row different => decide_eq_false fun both => different both.1
  unfold Plan.bulkEntry BlockSelector.isStored
  cases storable env (some selector) with
  | some block =>
      dsimp only [Plan.rows, insertedRows]
      rw [List.countP_cons_of_neg, List.countP_cons_of_pos (refers _ _ _ _)]
      · rfl
      · rw [other _ (notBlock block)]
        exact Bool.false_ne_true
  | none =>
      dsimp only
      split
      · dsimp only [Plan.rows, insertedRows]
        rw [List.countP_cons_of_neg]
        · rfl
        · rw [other _ notConnection]
          exact Bool.false_ne_true
      · rfl

theorem bulkPull_counts (start : World) :
    CountsEntries env start BulkPullEntry.block Request.bulkPullEntry
      (responds .bulkPullResponse (.bulkPullRequestId, .nat start.flow.messageId)) where
  rows info nextId flow entry bindings _ messageId := by
    rw [← messageId]
    refine Plan.countP_bulkEntry (fun block => by cases block <;> exact Table.noConfusion)
      Table.noConfusion (fun bindings id contentId name => ?_) info _ _ flow nextId bindings
    exact decide_eq_true ⟨rfl, rfl⟩
  flow nextId flow entry := rfl

private theorem bulkPush_counts (start : World) :
    CountsEntries env start BulkPushEntry.block Request.bulkPushEntry
      (responds .bulkPushEntry (.packetId, .nat start.flow.packetId)) where
  rows info nextId flow entry bindings packetId _ := by
    rw [← packetId]
    refine Plan.countP_bulkEntry (fun block => by cases block <;> exact Table.noConfusion)
      Table.noConfusion (fun bindings id contentId name => ?_) info _ _ flow nextId bindings
    exact decide_eq_true ⟨rfl, rfl⟩
  flow nextId flow entry := rfl

end Entries

/-! ## Exact statistics -/

section Exact

variable {Entry : Type} (env : Environment) (name : String) (selector : Entry → BlockSelector)
  (table : Table) (request : Cell)

/-- Behind the rows of the entries one event reports how many of them have a known type
and how many have not. With `block_details` the first number is that of the rows that
belong to the request. -/
def StatisticsExact (segments : List NanoPacket) (entries : List Entry)
    (before : Handler) : Prop :=
  ∃ last after added id, segments.getLast? = some last ∧
    (∀ other, HandlesAll env segments before other ↔ other = after) ∧
    after.db.contents.rows = before.db.contents.rows ++ added ++
      [connectionRow last (bulkReport name
        (entries.countP fun entry => (selector entry).isKnown)
        (entries.countP fun entry => !(selector entry).isKnown)) id] ∧
    (env.config.blockDetails = true →
      added.countP (responds table request) =
        entries.countP fun entry => (selector entry).isKnown)

/-- What is counted as valid and as invalid, and stored, is what it should be. -/
private theorem counts_exact_iff (entries : List Entry) :
    (entries.length = (entries.countP fun entry => (selector entry).isKnown) ∧
      (entries.countP fun entry => !(selector entry).isStored env) =
        entries.countP fun entry => !(selector entry).isKnown) ↔
      (∀ entry ∈ entries, (selector entry).isKnown = true) ∧
        (env.config.blockDetails = false → entries = []) := by
  have known : entries.length = (entries.countP fun entry => (selector entry).isKnown) ↔
      ∀ entry ∈ entries, (selector entry).isKnown = true :=
    eq_comm.trans List.countP_eq_length
  rw [known]
  refine and_congr_right fun all => ?_
  have none : (entries.countP fun entry => !(selector entry).isKnown) = 0 :=
    List.countP_eq_zero.mpr fun entry member => by simp [all entry member]
  have stored : (entries.countP fun entry => !(selector entry).isStored env) =
      entries.countP fun _ => !env.config.blockDetails :=
    List.countP_congr fun entry member => by
      rw [BlockSelector.isStored_eq, all entry member, Bool.and_true]
  rw [none, stored]
  cases env.config.blockDetails <;> simp

end Exact

section Iff

variable {env : Environment} (neverFails : env.NeverFails)
  (details : env.config.bootstrapDetails) {Entry : Type} {name : String}
  {build : UInt8 → BlockSelector → Entry} {selector : Entry → BlockSelector}
  {request : Entry → Request} {table : Table} {cell : Cell} {mode : EnumMsgtype}
  {before : Handler} (ready : before.db.Ready)
  (counts : CountsEntries env before.toWorld selector request (responds table cell))
  (waits : before.flow.currentMsgType = mode) (noneValid : before.flow.responseCount = 0)
  (noneInvalid : before.flow.invalidResponseCount = 0)
  (empty : before.flow.accumulatedData = .empty)
  (loop : ∀ info, drainLoop env info mode = some (bulkIteration env info name
    (readBulkEntry build) fun entry => (request entry).put env info))
include neverFails details ready counts waits noneValid noneInvalid empty loop

theorem statisticsExact_iff {segments : List NanoPacket}
    (nonempty : ∀ info ∈ segments, info.data ≠ []) (fits : AppendsFit env segments before)
    {entries : List Entry}
    (reads : ReadsStream (readBulkEntry build) [] (segments.map (·.data)) entries) :
    StatisticsExact env name selector table cell segments entries before ↔
      (∀ entry ∈ entries, (selector entry).isKnown = true) ∧
        (env.config.blockDetails = false → entries = []) := by
  have counted : Counted env before.toWorld selector (responds table cell) [] []
      before.toWorld := .refl ready noneValid noneInvalid empty
  obtain ⟨last, after, isLast, handles, ⟨added, id, rows, stored⟩, -⟩ :=
    counted.stream neverFails details counts waits loop reads rfl nonempty fits
  rw [List.nil_append] at rows stored
  refine .trans ?_ (counts_exact_iff env selector entries)
  constructor
  · rintro ⟨last', after', added', id', -, only, rows', -⟩
    obtain rfl := (only after).mp handles
    rw [rows] at rows'
    have events := (List.append_inj' rows' rfl).2
    exact bulkReport_injective (connectionRow_event (List.cons.inj events).1)
  · rintro ⟨valid, invalid⟩
    refine ⟨last, after, added, id, isLast, fun other => ⟨fun handled => handled.unique handles,
      fun same => same ▸ handles⟩, by rw [rows, valid, invalid], fun blockDetails => ?_⟩
    rw [stored]
    refine List.countP_congr fun entry _ => ?_
    rw [BlockSelector.isStored_eq, blockDetails, Bool.true_and]

end Iff

section Transfers

variable {env : Environment} (neverFails : env.NeverFails)
  (details : env.config.bootstrapDetails) {before : Handler} (ready : before.db.Ready)
  {packetId : Nat} {segments : List NanoPacket}
  (nonempty : ∀ info ∈ segments, info.data ≠ []) (fits : AppendsFit env segments before)
include neverFails details ready nonempty fits

theorem bulkPull_statisticsExact_iff {messageId : Nat}
    (handled : before.flow =
      { TcpFlowData.reset .bulkPull with packetId := packetId, messageId := messageId })
    {entries : List BulkPullEntry}
    (reads : ReadsStream BulkPullEntry.read [] (segments.map (·.data)) entries) :
    StatisticsExact env "bulk_pull" BulkPullEntry.block .bulkPullResponse
        (.bulkPullRequestId, .nat messageId) segments entries before ↔
      (∀ entry ∈ entries, entry.block.isKnown = true) ∧
        (env.config.blockDetails = false → entries = []) := by
  have counts := @bulkPull_counts env before.toWorld
  rw [show before.toWorld.flow.messageId = messageId by rw [handled]] at counts
  exact @statisticsExact_iff env neverFails details _ "bulk_pull" BulkPullEntry.mk
    BulkPullEntry.block Request.bulkPullEntry _ _ .bulkPull before ready counts
    (by rw [handled]; rfl) (by rw [handled]; rfl) (by rw [handled]; rfl) (by rw [handled]; rfl)
    (fun _ => rfl) segments nonempty fits entries reads

private theorem bulkPush_statisticsExact_iff
    (handled : before.flow = { TcpFlowData.reset .bulkPush with packetId := packetId })
    {entries : List BulkPushEntry}
    (reads : ReadsStream BulkPushEntry.read [] (segments.map (·.data)) entries) :
    StatisticsExact env "bulk_push" BulkPushEntry.block .bulkPushEntry
        (.packetId, .nat packetId) segments entries before ↔
      (∀ entry ∈ entries, entry.block.isKnown = true) ∧
        (env.config.blockDetails = false → entries = []) := by
  have counts := @bulkPush_counts env before.toWorld
  rw [show before.toWorld.flow.packetId = packetId by rw [handled]] at counts
  exact @statisticsExact_iff env neverFails details _ "bulk_push" BulkPushEntry.mk
    BulkPushEntry.block Request.bulkPushEntry _ _ .bulkPush before ready counts
    (by rw [handled]; rfl) (by rw [handled]; rfl) (by rw [handled]; rfl) (by rw [handled]; rfl)
    (fun _ => rfl) segments nonempty fits entries reads

end Transfers

/-- The statistics of a bulk transfer are exact if and only if no entry of an unknown type
was read, and without `block_details` no entry at all. -/
theorem statistics_exact_iff {env : Environment} (neverFails : env.NeverFails)
    (details : env.config.bootstrapDetails) {before : Handler} (ready : before.db.Ready)
    (packetId messageId : Nat) {segments : List NanoPacket}
    (nonempty : ∀ info ∈ segments, info.data ≠ []) (fits : AppendsFit env segments before) :
    (before.flow =
        { TcpFlowData.reset .bulkPull with packetId := packetId, messageId := messageId } →
      ∀ entries, ReadsStream BulkPullEntry.read [] (segments.map (·.data)) entries →
        (StatisticsExact env "bulk_pull" BulkPullEntry.block .bulkPullResponse
            (.bulkPullRequestId, .nat messageId) segments entries before ↔
          (∀ entry ∈ entries, entry.block.isKnown = true) ∧
            (env.config.blockDetails = false → entries = []))) ∧
    (before.flow = { TcpFlowData.reset .bulkPush with packetId := packetId } →
      ∀ entries, ReadsStream BulkPushEntry.read [] (segments.map (·.data)) entries →
        (StatisticsExact env "bulk_push" BulkPushEntry.block .bulkPushEntry
            (.packetId, .nat packetId) segments entries before ↔
          (∀ entry ∈ entries, entry.block.isKnown = true) ∧
            (env.config.blockDetails = false → entries = []))) :=
  ⟨fun handled _ reads =>
      bulkPull_statisticsExact_iff neverFails details ready nonempty fits handled reads,
    fun handled _ reads =>
      bulkPush_statisticsExact_iff neverFails details ready nonempty fits handled reads⟩

theorem AtEnd.first {first : UInt8} {rest : List UInt8} (ends : AtEnd (first :: rest)) :
    EnumBlocktype.ofUInt8 first = .notABlock := by
  obtain ⟨other, more, bytes, last⟩ := ends
  obtain ⟨rfl, -⟩ := List.cons.inj bytes
  exact last

theorem not_atEnd_nil : ¬AtEnd [] := by
  rintro ⟨first, rest, bytes, -⟩
  cases bytes

/-- One block and `not_a_block` in one segment. -/
theorem statistics_exact_one :
    let block : Block := .receive ⟨.zero 32, .zero 32, .zero 64, 1⟩
    let entry : BulkPullEntry := ⟨block.type.toUInt8, .known block⟩
    StatisticsExact .sample "bulk_pull" BulkPullEntry.block .bulkPullResponse
      (.bulkPullRequestId, .nat 2) [NanoPacket.sample (block.entryWire ++ [1])] [entry]
      (Handler.waiting { TcpFlowData.reset .bulkPull with packetId := 1, messageId := 2 }) := by
  intro block entry
  let segment := NanoPacket.sample (block.entryWire ++ [1])
  have nonempty : ∀ info ∈ [segment], info.data ≠ [] := by
    intro info member
    rw [List.mem_singleton.mp member]
    exact List.cons_ne_nil _ _
  have size : segment.data.length ≤ 4096 := by decide +kernel
  have read := readBulkEntry_wire BulkPullEntry.mk block 0 [1]
  rw [Nat.zero_add] at read
  have last : ReadsEntries BulkPullEntry.read
      ((block.entryWire ++ [1]).drop block.entryWire.length) [] [1] := by
    rw [List.drop_left]
    exact .nil _
  have reads : ReadsStream BulkPullEntry.read [] ([segment].map (·.data)) [entry] := by
    refine .ends (.cons (List.cons_ne_nil _ _) (fun ends => ?_) read last) ⟨1, [], rfl, rfl⟩
    exact absurd (AtEnd.first (by exact ends)) (by decide)
  exact ((statistics_exact_iff Environment.sample_neverFails rfl (Db.opened_ready _) 1 2 nonempty
    (.single rfl size)).1 rfl [entry] reads).mpr
    ⟨fun other member => by rw [List.mem_singleton.mp member]; rfl, fun off => nomatch off⟩

/-- An entry of the unknown type 7 is reported as valid and as invalid. -/
theorem statistics_not_exact :
    ¬∀ (env : Environment) (before : Handler) (packetId messageId : Nat)
      (segments : List NanoPacket) (entries : List BulkPullEntry), env.NeverFails →
      env.config.bootstrapDetails = true → before.db.Ready →
      before.flow =
        { TcpFlowData.reset .bulkPull with packetId := packetId, messageId := messageId } →
      (∀ info ∈ segments, info.data ≠ []) → AppendsFit env segments before →
      ReadsStream BulkPullEntry.read [] (segments.map (·.data)) entries →
      StatisticsExact env "bulk_pull" BulkPullEntry.block .bulkPullResponse
        (.bulkPullRequestId, .nat messageId) segments entries before := by
  intro always
  let before := Handler.waiting
    { TcpFlowData.reset .bulkPull with packetId := 1, messageId := 2 }
  let segments := [NanoPacket.sample [7], NanoPacket.sample [1]]
  let entry : BulkPullEntry := ⟨7, .ignored 7 none⟩
  have nonempty : ∀ info ∈ segments, info.data ≠ [] := by
    simp [segments, NanoPacket.sample]
  have first : ReadsEntries BulkPullEntry.read ([] ++ [7]) [entry] [] := by
    refine .cons (List.cons_ne_nil _ _) (fun ends => ?_) rfl (.nil _)
    exact absurd (AtEnd.first (by exact ends)) (by decide)
  have reads : ReadsStream BulkPullEntry.read [] (segments.map (·.data)) [entry] :=
    .waits first not_atEnd_nil (.inl rfl) (.ends (.nil _) ⟨1, [], rfl, rfl⟩)
  have counted : Counted .sample before.toWorld BulkPullEntry.block
      (responds .bulkPullResponse (.bulkPullRequestId, .nat 2)) [] [] before.toWorld :=
    .refl (Db.opened_ready _) rfl rfl rfl
  obtain ⟨middle, handles, countedMiddle⟩ := @Counted.continues .sample before.toWorld _ _
    Request.bulkPullEntry _ "bulk_pull" BulkPullEntry.mk _ _ Environment.sample_neverFails rfl
    (bulkPull_counts _) .bulkPull rfl (fun _ => rfl) (NanoPacket.sample [7])
    (List.cons_ne_nil _ _) before counted (by decide) _ _ first not_atEnd_nil (.inl rfl)
  have fits : AppendsFit .sample segments before := by
    refine ⟨by decide, fun next handlesNext => ⟨?_, fun _ _ => trivial⟩⟩
    obtain rfl := handlesNext.unique handles
    rw [CircularBuffer.size, countedMiddle.buffer]
    decide
  obtain ⟨known, -⟩ := (bulkPull_statisticsExact_iff Environment.sample_neverFails rfl
    (Db.opened_ready _) nonempty fits rfl reads).mp
    (always .sample before 1 2 segments [entry] Environment.sample_neverFails rfl
      (Db.opened_ready _) rfl nonempty fits reads)
  exact Bool.false_ne_true (known entry List.mem_cons_self)

end Nanocap
