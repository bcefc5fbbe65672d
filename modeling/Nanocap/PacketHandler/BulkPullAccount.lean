import Nanocap.PacketHandler.FlowState
import Nanocap.PacketHandler.Responses

/-! # Responses to bulk_pull_account

A record and then pending entries, in a layout the request flags select. The flow
waits as it should until the first entry is complete; what happens then is that
the stream ends, whatever the entry is, or that the loop does not. -/

namespace Nanocap

open BulkPullAccountEntry (part)

/-- A pending entry in the layout of the request flags whose transmitted hash and
source are not all zero. -/
structure PendingEntry (flags : UInt8) extends BulkPullAccountEntry where
  layout : toBulkPullAccountEntry.Layout flags
  hashLive : ∀ bytes, hash = some bytes → ¬allZero bytes.val
  sourceLive : ∀ bytes, source = some bytes → ¬allZero bytes.val

namespace BulkPullAccountEntry

def terminator (flags : UInt8) : List UInt8 := List.replicate (size flags) 0

/-- The columns of an entry; a part that is not transmitted is `NULL`. -/
def columns (entry : BulkPullAccountEntry) : Value × Value × Value :=
  (entry.hash.elim .null fun hash => .hex hash.val,
   entry.amount.elim .null fun amount => .text (balanceToDec amount),
   entry.source.elim .null fun source => .hex source.val)

theorem not_pending_zeros {bytes : List UInt8} {count : Nat} (enough : 32 ≤ count) :
    ¬Pending (List.replicate count 0 ++ bytes) := by
  rintro ⟨-, live, -⟩
  have front : (List.replicate count (0 : UInt8) ++ bytes).take 32 = List.replicate 32 0 := by
    rw [List.take_append_of_le_length (by simpa using enough), List.take_replicate,
      Nat.min_eq_left enough]
  rw [front] at live
  exact absurd live (by decide)

end BulkPullAccountEntry

theorem PendingEntry.pending {flags : UInt8} (all : flags = pendingHashAmountAndAddress)
    (entry : PendingEntry flags) (rest : List UInt8) : Pending (entry.wire ++ rest) := by
  subst all
  have layout := entry.layout
  rw [pending_wire layout]
  have different : pendingHashAmountAndAddress ≠ pendingAddressOnly := by decide
  obtain ⟨hash, hashSome⟩ := Option.isSome_iff_exists.mp (layout.1.mpr different)
  obtain ⟨source, sourceSome⟩ := Option.isSome_iff_exists.mp (layout.2.2.mpr (.inr rfl))
  rw [hashSome, sourceSome]
  exact ⟨Bool.eq_false_iff.mpr (entry.hashLive hash hashSome),
    Bool.eq_false_iff.mpr (entry.sourceLive source sourceSome)⟩

/-! ## Waiting for the first entry -/

/-- `world` is `base` with the bytes that wait in the buffer. -/
structure Waits (base : World) (bytes : List UInt8) (world : World) : Prop where
  db : world.db = base.db
  flow : world.flow = { base.flow with accumulatedData := world.flow.accumulatedData }
  buffer : world.flow.accumulatedData.toList = bytes

theorem Waits.accumulate {base world : World} {bytes : List UInt8} (info : NanoPacket)
    (waits : Waits base bytes world)
    (fits : world.flow.accumulatedData.size + info.data.length ≤ 4096) :
    Waits base (bytes ++ info.data) (accumulate info world) where
  db := waits.db
  flow := congrArg (fun flow : TcpFlowData =>
    { flow with accumulatedData := (Nanocap.accumulate info world).flow.accumulatedData })
    waits.flow
  buffer := by
    rw [← waits.buffer]
    exact CircularBuffer.toList_append_of_fits _ _ fits

def World.withRecord (env : Environment) (start : World) (record : FrontierBalanceEntry) :
    World where
  db := start.db.store env
    (.entry .bulkPullAccountResponse (record.cells start.db.nextId start.flow.messageId))
  flow := { start.flow with step := start.flow.step + 1 }

/-- The flow that has received `bytes` since `start`, no complete entry among
them. -/
inductive Receives (env : Environment) (start : World) (record : FrontierBalanceEntry) :
    List UInt8 → World → Prop where
  | front {bytes : List UInt8} {world : World} : bytes.length < 48 →
      Waits start bytes world → Receives env start record bytes world
  | behind {bytes : List UInt8} {world : World} :
      Waits (start.withRecord env record) bytes world →
      Receives env start record (record.wire ++ bytes) world

section Account

variable {env : Environment} (neverFails : env.NeverFails) (details : env.config.bootstrapDetails)
  (info : NanoPacket) {start world : World} {record : FrontierBalanceEntry}

theorem accountEntry_short {stream : KStream}
    (short : stream.rest.length < BulkPullAccountEntry.size world.flow.requestFlags) :
    accountEntry env info stream world = .error .runtimeError world := by
  obtain ⟨stopped, raises⟩ :=
    (BulkPullAccountEntry.codec world.flow.requestFlags).throws stream short
  exact accountEntry_of_error env info raises

private theorem accountEntry_last {stream : KStream}
    (enough : BulkPullAccountEntry.size world.flow.requestFlags ≤ stream.rest.length)
    (last : ¬(world.flow.requestFlags = pendingHashAmountAndAddress ∧ Pending stream.rest)) :
    accountEntry env info stream world =
      endResponse env info (endOfBulk "bulk_pull_account") world := by
  rcases read_not_pending last with ⟨stop, raises⟩ | ⟨entry, stop, reads, zero⟩
  · rcases (BulkPullAccountEntry.codec world.flow.requestFlags).cases stream with
      ⟨short, -⟩ | ⟨entry, rest, -, -, reads⟩
    · exact absurd enough (Nat.not_le_of_lt short)
    · rw [raises] at reads
      cases reads
  · rw [accountEntry_of_ok env info reads, accountEntryRest, if_pos zero]

theorem World.withRecord_ready (ready : start.db.Ready) :
    (start.withRecord env record).db.Ready := ready.store env _

def FrontierBalanceEntry.row (messageId id : Nat) (record : FrontierBalanceEntry) : Row :=
  Table.bulkPullAccountResponse.rowOf (record.cells id messageId)

private theorem World.withRecord_rows :
    (start.withRecord env record).db.contents.rows =
      start.db.contents.rows ++ [record.row start.flow.messageId start.db.nextId] := by
  rw [World.withRecord, Db.store_rows]
  exact congrArg (start.db.contents.rows ++ ·) (Plan.rows_entry rfl _)

structure Ends (env : Environment) (start : World) (record : FrontierBalanceEntry)
    (info : NanoPacket) (after : World) : Prop where
  rows : ∃ event id, after.db.contents.rows = start.db.contents.rows ++
    [record.row start.flow.messageId start.db.nextId, connectionRow info event id]
  flow : after.flow = .initial

theorem Ends.returns {state after : World}
    (again : accountIteration env info state = .ok .again after)
    (ends : Ends env start record info after) :
    Loop.Returns (accountIteration env info) state (.ok () after) :=
  (Loop.returns_again_iff again _).mpr
    (.of_leave (accountIteration_empty env info (by rw [ends.flow]; rfl)))

include neverFails details

/-- In front of the record: its row is stored and its bytes are given up, and the
entry behind it is looked for in the memory the erasure has shifted. -/
theorem accountIteration_record {rest : List UInt8} (ready : start.db.Ready)
    (step : start.flow.step = 0) (waits : Waits start (record.wire ++ rest) world) :
    ∃ next, Waits (start.withRecord env record) rest next ∧
      accountIteration env info world = catchRuntimeError (do
        accountEntry env info (memoryBehindHeader (record.wire ++ rest))
        return .again) (pure .leave) next := by
  have put := @whenBootstrapDetails_put env world neverFails details info
    (by rw [waits.db]; exact ready) (.frontierBalanceEntry record)
  have zero : world.flow.step = 0 := by rw [waits.flow, step]
  refine ⟨{ ((Request.frontierBalanceEntry record).after env info world) with
    flow := consumeHeader world.flow }, ⟨?_, ?_, ?_⟩, ?_⟩
  · have messageId : world.flow.messageId = start.flow.messageId := by rw [waits.flow]
    change world.db.store env (.entry _ (record.cells world.db.nextId world.flow.messageId)) = _
    rw [messageId, waits.db]
    rfl
  · change consumeHeader world.flow = _
    rw [consumeHeader, waits.flow]
    rfl
  · change world.flow.accumulatedData.toList.drop 48 = rest
    rw [waits.buffer, List.drop_left' (FrontierBalanceEntry.codec.length record trivial)]
  · rw [accountIteration_step_zero env info zero waits.buffer]
    exact catchRuntimeError_congr (EStateM.bind_of_ok put)

theorem accountEntry_ends {stream : KStream} {bytes : List UInt8} (ready : start.db.Ready)
    (waits : Waits (start.withRecord env record) bytes world)
    (enough : BulkPullAccountEntry.size start.flow.requestFlags ≤ stream.rest.length)
    (last : ¬(start.flow.requestFlags = pendingHashAmountAndAddress ∧ Pending stream.rest)) :
    ∃ after, accountEntry env info stream world = .ok () after ∧
      Ends env start record info after := by
  have flags : world.flow.requestFlags = start.flow.requestFlags := by rw [waits.flow]; rfl
  have ready : world.db.Ready := by rw [waits.db]; exact World.withRecord_ready ready
  let event := endOfBulk "bulk_pull_account" world.flow
  have put := whenBootstrapDetails_put neverFails details info ready (.connection event)
  refine ⟨⟨((Request.connection event).after env info world).db, .initial⟩, ?_,
    ⟨event, world.db.nextId, ?_⟩, rfl⟩
  · rw [accountEntry_last info (by rwa [flags]) (by rwa [flags])]
    exact EStateM.bind_of_ok put
  · rw [Request.after, Db.store_rows, rows_connection, waits.db, World.withRecord_rows,
      List.append_assoc]
    rfl

/-! ## One segment -/

section Segment

variable (ready : start.db.Ready) (step : start.flow.step = 0) {bytes rest : List UInt8}
include ready step

theorem Receives.advance {later tail : List UInt8}
    (receives : Receives env start record bytes world) (some : info.data ≠ [])
    (fits : world.flow.accumulatedData.size + info.data.length ≤ 4096)
    (stream : bytes ++ info.data ++ later = record.wire ++ tail)
    (short : (bytes ++ info.data).length <
      48 + BulkPullAccountEntry.size start.flow.requestFlags) :
    ∃ after, Loop.Returns (accountIteration env info) (accumulate info world) (.ok () after) ∧
      Receives env start record (bytes ++ info.data) after := by
  have recordLength := FrontierBalanceEntry.codec.length record trivial
  cases receives with
  | front _ waits =>
      have appended := waits.accumulate info fits
      have zero : (accumulate info world).flow.step = 0 := by rw [appended.flow, step]
      by_cases front : (bytes ++ info.data).length < 48
      · refine ⟨_, .of_leave (accountIteration_short env info zero ?_ ?_), .front front appended⟩
        · rw [appended.buffer]
          exact List.append_ne_nil_of_right_ne_nil _ some
        · rwa [appended.buffer]
      · obtain ⟨rest, equal⟩ : record.wire <+: bytes ++ info.data :=
          List.prefix_of_prefix_length_le ⟨tail, rfl⟩ ⟨later, stream⟩ (by omega)
        rw [← equal] at appended short ⊢
        obtain ⟨next, waiting, iteration⟩ :=
          accountIteration_record neverFails details info ready step appended
        have flags : next.flow.requestFlags = start.flow.requestFlags := by
          rw [waiting.flow]
          rfl
        have raises := @accountEntry_short env info next (memoryBehindHeader (record.wire ++ rest))
          (by
            have positive := BulkPullAccountEntry.size_pos start.flow.requestFlags
            rw [length_memoryBehindHeader, flags]
            omega)
        exact ⟨next, .of_leave (iteration.trans
          (catchRuntimeError_of_error (EStateM.bind_of_error raises))), .behind waiting⟩
  | @behind bytes _ waits =>
      have appended := waits.accumulate info fits
      have one : (accumulate info world).flow.step = 1 := by
        rw [appended.flow, World.withRecord, step]
      have flags : (accumulate info world).flow.requestFlags = start.flow.requestFlags := by
        rw [appended.flow]
        rfl
      rw [List.append_assoc, List.length_append, recordLength] at short
      have raises := @accountEntry_short env info (accumulate info world)
        (.ofBytes (accumulate info world).flow.accumulatedData.toList) (by
          rw [appended.buffer, flags]
          change (bytes ++ info.data).length < _
          omega)
      have iteration := accountIteration_step_one env info one (by
        rw [appended.buffer]
        exact List.append_ne_nil_of_right_ne_nil _ some)
      rw [List.append_assoc]
      exact ⟨_, .of_leave (iteration.trans
        (catchRuntimeError_of_error (EStateM.bind_of_error raises))), .behind appended⟩

theorem returns_behind (enough : BulkPullAccountEntry.size start.flow.requestFlags ≤ rest.length)
    (waits : Waits (start.withRecord env record) rest world)
    (last : ¬(start.flow.requestFlags = pendingHashAmountAndAddress ∧ Pending rest)) :
    ∃ after, Loop.Returns (accountIteration env info) world (.ok () after) ∧
      Ends env start record info after := by
  have one : world.flow.step = 1 := by rw [waits.flow, World.withRecord, step]
  have some : world.flow.accumulatedData.toList ≠ [] := by
    rw [waits.buffer]
    rintro rfl
    exact absurd (BulkPullAccountEntry.size_pos _) (Nat.not_lt.mpr enough)
  obtain ⟨after, entry, ends⟩ := @accountEntry_ends env neverFails details info start world record
    (.ofBytes rest) rest ready waits enough last
  refine ⟨after, ends.returns info ?_, ends⟩
  rw [accountIteration_step_one env info one some, waits.buffer]
  exact catchRuntimeError_of_ok (EStateM.bind_of_ok entry)

/-- In front of the record, when the memory behind it does not hold a pending
entry. -/
theorem returns_front (enough : BulkPullAccountEntry.size start.flow.requestFlags ≤ rest.length)
    (waits : Waits start (record.wire ++ rest) world)
    (last : ¬(start.flow.requestFlags = pendingHashAmountAndAddress ∧
      Pending (memoryBehindHeader (record.wire ++ rest)).rest)) :
    ∃ after, Loop.Returns (accountIteration env info) world (.ok () after) ∧
      Ends env start record info after := by
  have recordLength := FrontierBalanceEntry.codec.length record trivial
  obtain ⟨next, waiting, iteration⟩ :=
    accountIteration_record neverFails details info ready step waits
  obtain ⟨after, entry, ends⟩ := accountEntry_ends neverFails details info ready waiting
    (by
      rw [length_memoryBehindHeader, List.length_append]
      omega) last
  exact ⟨after, ends.returns info (iteration.trans
    (catchRuntimeError_of_ok (EStateM.bind_of_ok entry))), ends⟩

/-- The segment that completes the first entry, when the entry is pending: if the
loop ends at all, it ends the stream. -/
private theorem Receives.ends_of_returns (receives : Receives env start record bytes world)
    (fits : world.flow.accumulatedData.size + info.data.length ≤ 4096)
    (equal : bytes ++ info.data = record.wire ++ rest)
    (enough : BulkPullAccountEntry.size start.flow.requestFlags ≤ rest.length)
    (pending : start.flow.requestFlags = pendingHashAmountAndAddress → Pending rest)
    {result : EStateM.Result Exception World Unit}
    (returns : Loop.Returns (accountIteration env info) (accumulate info world) result) :
    ∃ after, result = .ok () after ∧ Ends env start record info after := by
  cases receives with
  | front _ waits =>
      have appended := waits.accumulate info fits
      rw [equal] at appended
      by_cases spins : start.flow.requestFlags = pendingHashAmountAndAddress ∧
          Pending (memoryBehindHeader (record.wire ++ rest)).rest
      · have behind : (record.wire ++ rest).drop 48 = rest :=
          List.drop_left' (FrontierBalanceEntry.codec.length record trivial)
        have readyNow : (accumulate info world).db.Ready := by rw [appended.db]; exact ready
        have stuck : SpinsBehindHeader env (accumulate info world) :=
          ⟨by rw [appended.flow, step], by rw [appended.flow, spins.1],
            by rw [appended.buffer, behind]; exact pending spins.1,
            by rw [appended.buffer]; exact spins.2,
            fun _ => ⟨⟨readyNow.reset _, fun _ _ => neverFails _⟩,
              ⟨readyNow.reset _, fun _ _ => neverFails _⟩⟩⟩
        obtain ⟨next, again, later⟩ := stuck.again env info
        exact absurd ((Loop.returns_again_iff again result).mp returns)
          (later.not_returns env info result)
      · obtain ⟨after, finished, ends⟩ :=
          returns_front neverFails details info ready step enough appended spins
        exact ⟨after, returns.unique finished, ends⟩
  | behind waits =>
      have appended := waits.accumulate info fits
      rw [List.append_assoc] at equal
      rw [List.append_cancel_left equal] at appended
      by_cases spins : start.flow.requestFlags = pendingHashAmountAndAddress
      · have readyNow : (accumulate info world).db.Ready := by
          rw [appended.db]
          exact World.withRecord_ready ready
        have stuck : Spins env (accumulate info world) :=
          ⟨by rw [appended.flow, World.withRecord, step], by rw [appended.flow]; exact spins,
            by rw [appended.buffer]; exact pending spins,
            fun _ => ⟨readyNow.reset _, fun _ _ => neverFails _⟩⟩
        exact absurd returns (stuck.not_returns env info result)
      · obtain ⟨after, finished, ends⟩ :=
          returns_behind neverFails details info ready step enough appended fun last =>
            spins last.1
        exact ⟨after, returns.unique finished, ends⟩

private theorem Receives.ends_of_terminator (receives : Receives env start record bytes world)
    (fits : world.flow.accumulatedData.size + info.data.length ≤ 4096)
    (equal : bytes ++ info.data =
      record.wire ++ BulkPullAccountEntry.terminator start.flow.requestFlags) :
    ∃ after, Loop.Returns (accountIteration env info) (accumulate info world) (.ok () after) ∧
      Ends env start record info after := by
  have enough : BulkPullAccountEntry.size start.flow.requestFlags ≤
      (BulkPullAccountEntry.terminator start.flow.requestFlags).length :=
    Nat.le_of_eq List.length_replicate.symm
  cases receives with
  | front _ waits =>
      have appended := waits.accumulate info fits
      rw [equal] at appended
      refine returns_front neverFails details info ready step enough appended ?_
      rintro ⟨all, pending⟩
      have different : pendingHashAmountAndAddress ≠ pendingAddressOnly := by decide
      -- the erasure moves the zeros to the front, and 32 of them are left behind byte 48
      have memory : (memoryBehindHeader (record.wire ++
          BulkPullAccountEntry.terminator start.flow.requestFlags)).rest =
            List.replicate 32 0 ++ (record.wire ++ List.replicate 80 0).drop 80 := by
        have length := FrontierBalanceEntry.codec.length record trivial
        have size : BulkPullAccountEntry.size start.flow.requestFlags = 80 := by
          rw [all, BulkPullAccountEntry.size, if_neg different, if_pos rfl]
        rw [BulkPullAccountEntry.terminator, size, memoryBehindHeader,
          CircularBuffer.memoryAfterErase, List.drop_left' length, List.length_append, length,
          List.length_replicate, List.drop_append_of_le_length (by simp), List.drop_replicate]
      rw [memory] at pending
      exact BulkPullAccountEntry.not_pending_zeros (Nat.le_refl 32) pending
  | behind waits =>
      have appended := waits.accumulate info fits
      rw [List.append_assoc] at equal
      rw [List.append_cancel_left equal] at appended
      refine returns_behind neverFails details info ready step enough appended ?_
      rintro ⟨all, pending⟩
      have zeros := @BulkPullAccountEntry.not_pending_zeros []
        (BulkPullAccountEntry.size start.flow.requestFlags) (by
          rw [all]
          decide)
      rw [List.append_nil] at zeros
      exact zeros pending

end Segment

/-! ## Segments in a row -/

omit neverFails details in
theorem Receives.mode {bytes : List UInt8} (receives : Receives env start record bytes world) :
    world.flow.currentMsgType = start.flow.currentMsgType := by
  cases receives with
  | front _ waits => rw [waits.flow]
  | behind waits =>
      rw [waits.flow]
      rfl

theorem Receives.run {segments : List NanoPacket} {bytes later tail : List UInt8}
    {before : Handler} (ready : start.db.Ready) (step : start.flow.step = 0)
    (mode : start.flow.currentMsgType = .bulkPullAccount)
    (receives : Receives env start record bytes before.toWorld)
    (nonempty : ∀ info ∈ segments, info.data ≠ []) (fits : AppendsFit env segments before)
    (stream : bytes ++ received segments ++ later = record.wire ++ tail)
    (short : (bytes ++ received segments).length <
      48 + BulkPullAccountEntry.size start.flow.requestFlags) :
    ∃ after, HandlesAll env segments before after ∧
      Receives env start record (bytes ++ received segments) after.toWorld := by
  induction segments generalizing bytes before with
  | nil => exact ⟨before, .nil before, by simpa [received] using receives⟩
  | cons info segments induction =>
      have split : bytes ++ received (info :: segments) =
          bytes ++ info.data ++ received segments := by
        simp [received]
      have some := nonempty info (by simp)
      rw [split] at stream short ⊢
      obtain ⟨world, returns, middle⟩ := receives.advance neverFails details info ready step some
        fits.1 (by rw [List.append_assoc] at stream; exact stream) (by
          rw [List.length_append] at short
          omega)
      have handles : Handles env info before (before.checkMaxReached.settle (.ok () world)) :=
        (handles_iff_drain ((congrArg _ (receives.mode.trans mode)).trans rfl) some).mpr
          ⟨_, returns, rfl⟩
      obtain ⟨after, handled, received⟩ := @induction _ (before.checkMaxReached.settle
        (.ok () world)) middle (fun other member => nonempty other (by simp [member]))
        (fits.2 _ handles) stream short
      exact ⟨after, .cons handles handled, received⟩

end Account

/-- The segment that brings the number of received bytes to `count`. -/
private theorem exists_completing {count : Nat} {segments : List NanoPacket} (positive : 0 < count)
    (enough : count ≤ (received segments).length) :
    ∃ first info second, segments = first ++ info :: second ∧
      (received first).length < count ∧ count ≤ (received first ++ info.data).length := by
  induction segments generalizing count with
  | nil => exact absurd enough (Nat.not_le.mpr positive)
  | cons info segments induction =>
      by_cases now : count ≤ info.data.length
      · exact ⟨[], info, segments, rfl, positive, now⟩
      · have bytes : (received (info :: segments)).length =
            info.data.length + (received segments).length := by
          simp [received]
        obtain ⟨first, completing, second, rfl, short, long⟩ :=
          @induction (count - info.data.length) (by omega) (by omega)
        refine ⟨info :: first, completing, second, rfl, ?_, ?_⟩
        · simp only [received, List.flatMap_cons, List.length_append] at short ⊢
          omega
        · simp only [received, List.flatMap_cons, List.length_append] at long ⊢
          omega

/-! ## Complete recording -/

/-- The responses are recorded completely: one row for the record, one for each
entry with the values it transmits, and the flow is reset by the last segment and
not before. -/
structure AccountRecorded (env : Environment) (before : Handler) (segments : List NanoPacket)
    (messageId : Nat) (record : FrontierBalanceEntry)
    (entries : List BulkPullAccountEntry) : Prop where
  recorded : ∃ after inserted, HandlesAll env segments before after ∧
    after.db.contents.rows = before.db.contents.rows ++ inserted ∧
    (inserted.filter fun row => row.table = .bulkPullAccountResponse).map (fun row =>
      (row.get .bulkPullAccountRequestId, row.get .frontierHash, row.get .balance)) =
        [(.nat messageId, .hex record.frontierHash.val, .text (balanceToDec record.balance))] ∧
    (inserted.filter fun row => row.table = .bulkPullAccountResponseEntry).map (fun row =>
      (row.get .hash, row.get .amount, row.get .source)) =
        entries.map BulkPullAccountEntry.columns ∧
    after.flow = .initial
  waits : ∀ first second, segments = first ++ second → second ≠ [] →
    ∃ after, HandlesAll env first before after ∧ after.flow ≠ .initial

section Recorded

variable {env : Environment} (neverFails : env.NeverFails) (details : env.config.bootstrapDetails)
  {before : Handler} (ready : before.db.Ready) {flags : UInt8} {packetId messageId : Nat}
  (handled : before.flow = { TcpFlowData.reset .bulkPullAccount with
    requestFlags := flags, packetId := packetId, messageId := messageId })
  {record : FrontierBalanceEntry} {segments : List NanoPacket}
  (nonempty : ∀ info ∈ segments, info.data ≠ []) (fits : AppendsFit env segments before)

private theorem Receives.ne_initial {start world : World} {bytes : List UInt8}
    (receives : Receives env start record bytes world)
    (mode : start.flow.currentMsgType = .bulkPullAccount) : world.flow ≠ .initial := by
  intro reset
  have current := receives.mode.trans mode
  rw [reset] at current
  cases current

include neverFails details ready handled nonempty fits

theorem account_receives {first second : List NanoPacket} {tail : List UInt8}
    (parts : segments = first ++ second) (cut : received segments = record.wire ++ tail)
    (short : (received first).length < 48 + BulkPullAccountEntry.size flags) :
    ∃ middle, HandlesAll env first before middle ∧
      Receives env before.toWorld record (received first) middle.toWorld := by
  subst parts
  have empty : Waits before.toWorld [] before.toWorld :=
    ⟨rfl, rfl, by rw [handled]; rfl⟩
  have requestFlags : before.flow.requestFlags = flags := by rw [handled]
  rw [received_append] at cut
  obtain ⟨middle, handles, receives⟩ := @Receives.run env neverFails details before.toWorld record
    first [] (received second) tail before ready (by rw [handled]; rfl) (by rw [handled]; rfl)
    (.front (by decide) empty) (fun info member => nonempty info (by simp [member]))
    fits.append.1 cut (by rw [requestFlags]; exact short)
  exact ⟨middle, handles, receives⟩

/-- With no entry the stream is recorded however it is cut. -/
private theorem account_recorded
    (cut : received segments = record.wire ++ BulkPullAccountEntry.terminator flags) :
    AccountRecorded env before segments messageId record [] := by
  have mode : before.flow.currentMsgType = .bulkPullAccount := by rw [handled]; rfl
  have message : before.flow.messageId = messageId := by rw [handled]
  have requestFlags : before.flow.requestFlags = flags := by rw [handled]
  have total : (received segments).length = 48 + BulkPullAccountEntry.size flags := by
    rw [cut, List.length_append, FrontierBalanceEntry.codec.length record trivial,
      BulkPullAccountEntry.terminator, List.length_replicate]
  have proper : ∀ first second, segments = first ++ second → second ≠ [] →
      ∃ middle, HandlesAll env first before middle ∧
        Receives env before.toWorld record (received first) middle.toWorld := by
    intro first second parts some
    refine account_receives neverFails details ready handled nonempty fits parts cut ?_
    have more := List.length_pos_iff.mpr
      (received_ne some fun info member => nonempty info (by simp [parts, member]))
    rw [parts, received_append, List.length_append] at total
    omega
  refine ⟨?_, fun first second parts some => ?_⟩
  · obtain rfl | ⟨first, last, rfl⟩ := List.eq_nil_or_concat' segments
    · rw [received_nil, List.length_nil] at total
      omega
    · obtain ⟨middle, handles, receives⟩ := proper first [last] rfl (by simp)
      rw [received_append, received_cons, received_nil, List.append_nil] at cut
      obtain ⟨world, returns, ends⟩ := @Receives.ends_of_terminator env neverFails details last
        before.toWorld middle.toWorld record ready (by rw [handled]; rfl) (received first) receives
        (fits.append.2 middle handles).1 (by rw [requestFlags]; exact cut)
      have finished : Handles env last middle (middle.checkMaxReached.settle (.ok () world)) :=
        (handles_iff_drain ((congrArg _ (receives.mode.trans mode)).trans rfl)
          (nonempty last (by simp))).mpr ⟨_, returns, rfl⟩
      obtain ⟨event, id, rows⟩ := ends.rows
      refine ⟨_, _, handles.append (.single finished), rows, ?_, rfl, ends.flow⟩
      rw [message]
      rfl
  · obtain ⟨middle, handles, receives⟩ := proper first second parts some
    exact ⟨middle, handles, receives.ne_initial mode⟩

/-- With an entry it is recorded in no cut. -/
theorem account_not_recorded (entry : PendingEntry flags) (entries : List (PendingEntry flags))
    (cut : received segments = record.wire ++
      ((entry :: entries).flatMap (·.wire) ++ BulkPullAccountEntry.terminator flags)) :
    ¬AccountRecorded env before segments messageId record
      ((entry :: entries).map (·.toBulkPullAccountEntry)) := by
  rintro ⟨⟨after, inserted, handledAll, rows, -, values, -⟩, waits⟩
  have mode : before.flow.currentMsgType = .bulkPullAccount := by rw [handled]; rfl
  have requestFlags : before.flow.requestFlags = flags := by rw [handled]
  have recordLength := FrontierBalanceEntry.codec.length record trivial
  have entryLength := (BulkPullAccountEntry.codec flags).length _ entry.layout
  -- the segment that completes the first entry
  obtain ⟨first, info, second, parts, short, long⟩ :=
    @exists_completing (48 + BulkPullAccountEntry.size flags) segments (by omega) (by
      rw [cut, List.flatMap_cons]
      simp only [List.length_append]
      omega)
  obtain ⟨middle, handles, receives⟩ :=
    account_receives neverFails details ready handled nonempty fits parts cut short
  subst parts
  obtain ⟨other, firstHandled, restHandled⟩ := handledAll.of_append
  obtain rfl := firstHandled.unique handles
  obtain ⟨next, completes, secondHandled⟩ := HandlesAll.cons_iff.mp restHandled
  obtain ⟨result, returns, rfl⟩ :=
    (handles_iff_drain ((congrArg _ (receives.mode.trans mode)).trans rfl)
      (nonempty info (by simp))).mp completes
  have stream : received first ++ info.data ++ received second =
      record.wire ++ (entry.wire ++ (entries.flatMap (·.wire) ++
        BulkPullAccountEntry.terminator flags)) := by
    rw [received_append, received_cons, List.flatMap_cons, List.append_assoc] at cut
    rw [List.append_assoc, cut]
  obtain ⟨rest, equal⟩ : record.wire <+: received first ++ info.data :=
    List.prefix_of_prefix_length_le ⟨_, rfl⟩ ⟨_, stream⟩ (by omega)
  have restLength := congrArg List.length equal
  rw [List.length_append] at restLength
  obtain ⟨more, rfl⟩ : entry.wire <+: rest := by
    rw [← equal, List.append_assoc] at stream
    exact List.prefix_of_prefix_length_le ⟨_, rfl⟩
      ⟨_, List.append_cancel_left stream⟩ (by omega)
  obtain ⟨world, rfl, ends⟩ := @Receives.ends_of_returns env neverFails details info
    before.toWorld other.toWorld record ready (by rw [handled]; rfl) (received first)
    (entry.wire ++ more) receives (fits.append.2 other handles).1 equal.symm
    (by rw [requestFlags]; omega) (fun all => entry.pending (requestFlags.symm.trans all) more)
    result returns
  by_cases some : second = []
  · -- the entry came with the last segment, and has not been stored
    subst some
    cases secondHandled
    obtain ⟨event, id, added⟩ := ends.rows
    rw [List.append_cancel_left (rows.symm.trans added)] at values
    exact List.cons_ne_nil _ _ values.symm
  · -- segments are left, but the flow has been reset
    obtain ⟨early, earlyHandled, notReset⟩ := waits (first ++ [info]) second (by simp) some
    obtain rfl := earlyHandled.unique (handles.append (.single completes))
    exact notReset ends.flow

/-- Under any request flags the responses are recorded completely exactly when
there is no entry between the record and the terminator. -/
theorem account_recorded_iff (entries : List (PendingEntry flags))
    (cut : received segments = record.wire ++
      (entries.flatMap (·.wire) ++ BulkPullAccountEntry.terminator flags)) :
    AccountRecorded env before segments messageId record
      (entries.map (·.toBulkPullAccountEntry)) ↔ entries = [] := by
  constructor
  · intro recorded
    cases entries with
    | nil => rfl
    | cons entry entries =>
        exact absurd recorded (account_not_recorded neverFails details ready handled nonempty fits
          entry entries cut)
  · rintro rfl
    exact account_recorded neverFails details ready handled nonempty fits cut

end Recorded

def Handler.awaitsAccount (flags : UInt8) : Handler :=
  .waiting { TcpFlowData.reset .bulkPullAccount with
    requestFlags := flags, packetId := 1, messageId := 2 }

/-- Under flags for all parts, a record and the terminator are cut within the record and
within the terminator. -/
theorem account_recorded_iff_none :
    let flags := pendingHashAmountAndAddress
    let record : FrontierBalanceEntry := ⟨⟨List.replicate 32 7, by decide⟩, .zero 16⟩
    let bytes := record.wire ++ BulkPullAccountEntry.terminator flags
    let segments := [NanoPacket.sample (bytes.take 20), .sample ((bytes.drop 20).take 60),
      .sample (bytes.drop 80)]
    AccountRecorded .sample (.awaitsAccount flags) segments 2 record [] := by
  intro flags record bytes segments
  have nonempty : ∀ info ∈ segments, info.data ≠ [] := by decide +kernel
  have short : ∀ info ∈ segments, info.data.length ≤ 3880 := by decide +kernel
  have cut : received segments = record.wire ++ BulkPullAccountEntry.terminator flags := by
    decide +kernel
  have fits : AppendsFit .sample segments (.awaitsAccount flags) :=
    .of_waiting Environment.sample_neverFails (Db.opened_ready _) rfl rfl short
  exact (account_recorded_iff Environment.sample_neverFails rfl (Db.opened_ready _) rfl nonempty
    fits [] cut).mpr rfl

/-- A request for hashes and amounts, a record and one entry, whose source is not
transmitted and so counts as all zero. -/
theorem account_not_recorded_one :
    ¬∀ (env : Environment) (before : Handler) (flags : UInt8) (packetId messageId : Nat)
      (record : FrontierBalanceEntry) (entries : List (PendingEntry flags))
      (segments : List NanoPacket), env.NeverFails → env.config.bootstrapDetails →
      before.db.Ready →
      before.flow = { TcpFlowData.reset .bulkPullAccount with
        requestFlags := flags, packetId := packetId, messageId := messageId } →
      flags ∈ [pendingHashAndAmount, pendingAddressOnly, pendingHashAmountAndAddress] →
      (∀ info ∈ segments, info.data ≠ []) → AppendsFit env segments before →
      received segments = record.wire ++
        (entries.flatMap (·.wire) ++ BulkPullAccountEntry.terminator flags) →
      AccountRecorded env before segments messageId record
        (entries.map (·.toBulkPullAccountEntry)) := by
  intro recorded
  let record : FrontierBalanceEntry := ⟨.zero 32, .zero 16⟩
  let hash : Bytes 32 := ⟨List.replicate 32 1, by decide⟩
  have live : ∀ bytes, some hash = some bytes → ¬allZero bytes.val := by
    rintro _ ⟨⟩
    decide
  let entry : PendingEntry pendingHashAndAmount :=
    { hash := some hash
      amount := some (.zero 16)
      source := none
      layout := ⟨by decide, by decide, by decide⟩
      hashLive := live
      sourceLive := by simp }
  let data := record.wire ++ (entry.wire ++ BulkPullAccountEntry.terminator pendingHashAndAmount)
  have size : data.length ≤ 4096 := by
    have entryLength : entry.wire.length = 48 :=
      (BulkPullAccountEntry.codec pendingHashAndAmount).length _ entry.layout
    rw [List.length_append, List.length_append, FrontierBalanceEntry.codec.length record trivial,
      entryLength]
    decide
  have nonempty : ∀ info ∈ [NanoPacket.sample data], info.data ≠ [] := by
    intro info member
    rw [List.mem_singleton.mp member]
    exact List.append_ne_nil_of_right_ne_nil _
      (List.append_ne_nil_of_right_ne_nil _ (by decide))
  have cut : received [NanoPacket.sample data] = record.wire ++
      ([entry].flatMap (·.wire) ++ BulkPullAccountEntry.terminator pendingHashAndAmount) := by
    rw [received_cons, received_nil, List.append_nil, List.flatMap_singleton]
    rfl
  have fits : AppendsFit .sample [NanoPacket.sample data] (.awaitsAccount pendingHashAndAmount) :=
    .single rfl size
  exact account_not_recorded Environment.sample_neverFails rfl (Db.opened_ready _) rfl nonempty
    fits entry [] cut
    (recorded .sample (.awaitsAccount pendingHashAndAmount) pendingHashAndAmount 1 2 record
      [entry] [NanoPacket.sample data] Environment.sample_neverFails rfl (Db.opened_ready _) rfl
      (by simp) nonempty fits cut)

end Nanocap
