import Nanocap.PacketHandler.BulkPull
import Nanocap.PacketHandler.Deliveries

/-! # Bulk_push exchanges

The parser of the message reads the entries that come with the header and the
database forgets them, so that an exchange is never recorded completely. The rows
of an exchange are counted against the bytes they cost: nine for the packet row,
the length of the entry for an entry, and one for the byte that ends it. -/

namespace Nanocap

/-! ## The cost of rows -/

def Table.entryLength : Table → Nat
  | blockSend => 153
  | blockReceive => 137
  | blockOpen => 169
  | blockChange => 137
  | blockState => 217
  | _ => 0

/-- The length of an entry, by the `content_table` of its row. -/
def contentLength (value : Value) : Nat :=
  ((Table.all.find? fun table => value = .text table.name).map Table.entryLength).getD 0

theorem contentLength_block (block : Block) :
    contentLength (.text block.table.name) = block.entryWire.length := by
  rw [Block.entryWire, List.length_cons]
  cases block with
  | send block => exact (congrArg (· + 1) (BlockSend.codec.length block trivial)).symm
  | receive block => exact (congrArg (· + 1) (BlockReceive.codec.length block trivial)).symm
  | opening block => exact (congrArg (· + 1) (BlockOpen.codec.length block trivial)).symm
  | change block => exact (congrArg (· + 1) (BlockChange.codec.length block trivial)).symm
  | state block => exact (congrArg (· + 1) (BlockState.codec.length block trivial)).symm

def Row.IsPush (row : Row) : Prop :=
  row.table = .packet ∧ row.get .hdrMsgType = .nat EnumMsgtype.bulkPush.toUInt8.toNat

instance (row : Row) : Decidable row.IsPush := inferInstanceAs (Decidable (_ ∧ _))

/-- The bytes it takes to have a row stored. -/
def Row.cost (row : Row) : Nat :=
  if row.table = .bulkPushEntry then contentLength (row.get .contentTable)
  else if row.IsPush then 9
  else 0

def costs (rows : List Row) : Nat := (rows.map Row.cost).sum

theorem costs_append (first second : List Row) :
    costs (first ++ second) = costs first + costs second := by
  simp [costs]

private theorem Row.cost_of_entry {row : Row} (entry : row.table = .bulkPushEntry) :
    row.cost = contentLength (row.get .contentTable) :=
  if_pos entry

theorem Row.cost_of_table {row : Row} (other : row.table ≠ .packet)
    (noEntry : row.table ≠ .bulkPushEntry) : row.cost = 0 := by
  rw [Row.cost, if_neg noEntry, if_neg fun push => other push.1]

theorem costs_eq_zero_iff {rows : List Row} : costs rows = 0 ↔ ∀ row ∈ rows, row.cost = 0 := by
  simp [costs, List.sum_eq_zero_iff_forall_eq_nat]

private theorem not_push_of_costs {rows : List Row} (free : costs rows = 0) {row : Row}
    (member : row ∈ rows) : ¬row.IsPush := by
  intro push
  have entry : row.table ≠ .bulkPushEntry := by
    rw [push.1]
    decide
  have cost : row.cost = 9 := by rw [Row.cost, if_neg entry, if_pos push]
  rw [costs_eq_zero_iff.mp free row member] at cost
  cases cost

/-! ## Rows against bytes -/

def ended (inserted : List Row) : Nat := if ∃ row ∈ inserted, row.IsPush then 1 else 0

theorem ended_append {inserted added : List Row} (free : costs added = 0) :
    ended (inserted ++ added) = ended inserted := by
  unfold ended
  congr 1
  simp only [List.mem_append, or_and_right, exists_or, eq_iff_iff, or_iff_left_iff_imp]
  rintro ⟨row, member, push⟩
  exact absurd push (not_push_of_costs free member)

/-- The bytes that wait in an exchange that is open, or the byte that has ended
one. -/
def outstanding (inserted : List Row) (flow : TcpFlowData) : Nat :=
  if flow.currentMsgType = .bulkPush then flow.accumulatedData.size else ended inserted

/-- The rows inserted since `start` cost no more than the bytes delivered. -/
def Budget (start : List Row) (delivered : Nat) (world : World) : Prop :=
  ∃ inserted, world.db.contents.rows = start ++ inserted ∧
    (world.flow.currentMsgType = .bulkPush → ∃ row ∈ inserted, row.IsPush) ∧
    costs inserted + outstanding inserted world.flow ≤ delivered

section Budget

variable {env : Environment} {info : NanoPacket} {start : List Row} {delivered : Nat}
  {world next : World}

theorem Budget.accumulate (budget : Budget start delivered world) (info : NanoPacket) :
    Budget start (delivered + info.data.length) (accumulate info world) := by
  obtain ⟨inserted, rows, opened, spent⟩ := budget
  refine ⟨inserted, rows, opened, ?_⟩
  have larger := CircularBuffer.size_append_le world.flow.accumulatedData info.data
  unfold outstanding at spent ⊢
  change costs inserted + (if world.flow.currentMsgType = .bulkPush then
    (world.flow.accumulatedData.append info.data).size else _) ≤ _
  split
  · rename_i push
    rw [if_pos push] at spent
    omega
  · rename_i noPush
    rw [if_neg noPush] at spent
    omega

private theorem ended_le_outstanding {inserted : List Row} {flow : TcpFlowData}
    (some : 0 < flow.accumulatedData.size) : ended inserted ≤ outstanding inserted flow := by
  unfold outstanding
  split
  · unfold ended
    split <;> omega
  · exact Nat.le_refl _

theorem insertedRows_free {insertions : List Insertion}
    (free : ∀ insertion ∈ insertions,
      insertion.table ≠ .packet ∧ insertion.table ≠ .bulkPushEntry) (bindings : Bindings) :
    costs (insertedRows bindings insertions) = 0 := by
  refine costs_eq_zero_iff.mpr fun row member => ?_
  obtain ⟨insertion, inside, before, rfl⟩ := exists_of_mem_insertedRows member
  exact Row.cost_of_table (free insertion inside).1 (free insertion inside).2

/-- A row of an entry other than bulk_push costs nothing, and the row of a
bulk_push entry no more than the entry. -/
private theorem Request.costs_le_pushLength {request : Request} {mode : EnumMsgtype}
    (entry : request.mode = some mode) (nextId : Nat) (flow : TcpFlowData)
    (bindings : Bindings) :
    costs ((request.plan env info nextId flow).rows bindings) ≤ request.pushLength := by
  have free : ∀ plan : Plan, (∀ insertion ∈ plan.insertions,
      insertion.table ≠ .packet ∧ insertion.table ≠ .bulkPushEntry) →
      costs (plan.rows bindings) ≤ 0 := fun plan other =>
    Nat.le_of_eq (insertedRows_free other _)
  cases request <;> cases entry
  case frontierEntry entry =>
    exact free (.entry .frontierResponse _) (by simp [Plan.entry])
  case frontierBalanceEntry entry =>
    exact free (.entry .bulkPullAccountResponse _) (by simp [Plan.entry])
  case bulkPullAccountEntry entry =>
    exact free (.entry .bulkPullAccountResponseEntry _) (by simp [Plan.entry])
  case bulkPullEntry entry =>
    refine free _ fun insertion member => ?_
    rcases Plan.mem_bulkEntry member with table | ⟨block, -, rfl | rfl⟩
    · rw [table]
      exact ⟨by decide, by decide⟩
    · exact block.table_belongs.ne
    · exact ⟨Table.noConfusion, Table.noConfusion⟩
  case bulkPushEntry entry =>
    obtain ⟨blockType, selector⟩ := entry
    simp only [Request.plan, Plan.bulkEntry]
    cases stored : storable env (some selector) with
    | none =>
        refine Nat.le_trans (free _ fun insertion member => ?_) (Nat.zero_le _)
        dsimp only at member
        split at member
        · rw [List.mem_singleton.mp member]
          exact ⟨Table.noConfusion, Table.noConfusion⟩
        · cases member
    | some block =>
        obtain rfl := storable_eq_some stored
        have reference : ∀ before, Row.cost (Insertion.row ⟨.bulkPushEntry,
            referenceCells (.packetId, .nat flow.packetId) (nextId + 1) nextId block.table.name⟩
              before) = block.entryWire.length := by
          intro before
          refine (Row.cost_of_entry rfl).trans ?_
          rw [Insertion.get_row (by simp [Table.parameters]) rfl, contentLength_block]
        have stores : ∀ before, Row.cost (Insertion.row
            ⟨block.table, block.cells env nextId flow.packetId⟩ before) = 0 := fun before =>
          Row.cost_of_table block.table_belongs.ne.1 block.table_belongs.ne.2
        change Row.cost _ + (Row.cost _ + 0) ≤ _
        rw [reference, stores, Nat.zero_add]
        exact Nat.le_refl _

private theorem Request.pushLength_of_mode {request : Request} {mode : EnumMsgtype}
    (entry : request.mode = some mode) (other : mode ≠ .bulkPush) : request.pushLength = 0 := by
  cases request <;> cases entry <;> first
    | rfl
    | exact absurd rfl other

theorem Request.afterDetails_rows (request : Request) (world : World) :
    ∃ rows, (request.afterDetails env info world).db.contents.rows =
        world.db.contents.rows ++ rows ∧
      (rows = [] ∨ ∃ bindings,
        rows = (request.plan env info world.db.nextId world.flow).rows bindings) := by
  unfold Request.afterDetails
  split
  · exact ⟨_, Db.store_rows, .inr ⟨_, rfl⟩⟩
  · exact ⟨[], (List.append_nil _).symm, .inl rfl⟩

theorem Budget.effect (budget : Budget start delivered world)
    (effect : Effect env info world next) : Budget start delivered next := by
  obtain ⟨inserted, rows, opened, spent⟩ := budget
  cases effect with
  | ended event some =>
      obtain ⟨added, addedRows, cases⟩ :=
        @Request.afterDetails_rows env info (.connection event) world
      have free : costs added = 0 := by
        rcases cases with rfl | ⟨bindings, rfl⟩
        · rfl
        · exact insertedRows_free (by
            simp [Request.plan, Plan.entry]) _
      refine ⟨inserted ++ added, ?_, ?_, ?_⟩
      · rw [reported, addedRows, rows, List.append_assoc]
      · rintro ⟨⟩
      · have byte := @ended_le_outstanding inserted _ some
        change costs (inserted ++ added) + ended (inserted ++ added) ≤ delivered
        rw [costs_append, ended_append free, free]
        omega
  | taken request count responseCount step entry least most =>
      obtain ⟨added, addedRows, cases⟩ := @Request.afterDetails_rows env info request world
      have cost : costs added ≤ request.pushLength := by
        rcases cases with rfl | ⟨bindings, rfl⟩
        · exact Nat.zero_le _
        · exact request.costs_le_pushLength entry _ _ _
      have kept := @Request.afterDetails_flow env info _ _ entry world
      have mode : (request.afterDetails env info world).flow.currentMsgType =
        world.flow.currentMsgType := by rw [kept]
      have buffer : (request.afterDetails env info world).flow.accumulatedData =
        world.flow.accumulatedData := by rw [kept]
      refine ⟨inserted ++ added, ?_, ?_, ?_⟩
      · rw [entryTaken, addedRows, rows, List.append_assoc]
      · intro push
        obtain ⟨row, member, isPush⟩ := opened (mode.symm.trans push)
        exact ⟨row, List.mem_append_left _ member, isPush⟩
      · unfold outstanding at spent ⊢
        change _ + (if (request.afterDetails env info world).flow.currentMsgType = .bulkPush then
          ((request.afterDetails env info world).flow.accumulatedData.eraseFront count).size
          else _) ≤ delivered
        rw [mode, buffer, CircularBuffer.size_eraseFront, costs_append]
        split
        · rename_i push
          rw [if_pos push] at spent
          omega
        · rename_i noPush
          rw [if_neg noPush] at spent
          have free : costs added = 0 := by
            have other := request.pushLength_of_mode entry noPush
            omega
          rw [ended_append free]
          omega

theorem Budget.effects (budget : Budget start delivered world)
    (effects : Effects env info world next) : Budget start delivered next := by
  induction effects with
  | refl => exact budget
  | tail _ effect induction => exact induction.effect effect

end Budget

/-! ## Messages -/

section Messages

variable {env : Environment} {info : NanoPacket} {start : List Row} {delivered : Nat}
  {world : World}

private theorem Request.costs_message {request : Request} {header : MessageHeader}
    (message : request.header = some header) (nextId : Nat) (flow : TcpFlowData)
    (bindings : Bindings) (other : header.messageType.toUInt8 ≠ EnumMsgtype.bulkPush.toUInt8) :
    costs ((request.plan env info nextId flow).rows bindings) = 0 := by
  refine costs_eq_zero_iff.mpr fun row member => ?_
  obtain ⟨insertion, inside, before, rfl⟩ := exists_of_mem_insertedRows member
  cases request.messageInsertions message nextId flow inside with
  | part belongs _ => exact Row.cost_of_table belongs.ne.1 belongs.ne.2
  | packet content kind =>
      refine (if_neg Table.noConfusion).trans (if_neg fun push => other ?_)
      have messageType := push.2.symm.trans (packet_get (by decide) (by decide)
        (contentCells_unbound kind (by decide)) rfl before)
      exact UInt8.toNat_inj.mp (Int.ofNat.inj (Value.integer.inj messageType)).symm

private theorem Handling.announced_free (handling : Handling) (db : Db) :
    (handling.announced env info db).flow = handling.flow ∧
      ∃ added, (handling.announced env info db).db.contents.rows = db.contents.rows ++ added ∧
        costs added = 0 := by
  obtain ⟨flow, added, rows, events⟩ := @Handling.announced_spec env info handling db
  refine ⟨flow, added, rows, costs_eq_zero_iff.mpr fun row member => ?_⟩
  have event := events row member
  exact Row.cost_of_table (by rw [event]; decide) (by rw [event]; decide)

theorem Budget.message {nano : Nano} {stop : KStream} (budget : Budget start delivered world)
    (message : world.flow.currentMsgType ≠ .bulkPush)
    (reads : Nano.read (.ofBytes info.data) = .ok nano stop) :
    Budget start (delivered + info.data.length) (nano.after env info world.db) := by
  obtain ⟨inserted, rows, -, spent⟩ := budget
  rw [outstanding, if_neg message] at spent
  unfold Nano.after
  cases handled : nano.handling with
  | none =>
      refine ⟨inserted, rows, nofun, ?_⟩
      change costs inserted + ended inserted ≤ _
      omega
  | some handling =>
      obtain ⟨header, mode, empty, kinds⟩ := Nano.handling_request handled
      obtain ⟨flow, announced, announcedRows, announcedFree⟩ :=
        @Handling.announced_free env info handling world.db
      have stored := @Db.store_rows env (handling.request.plan env info
        (handling.announced env info world.db).db.nextId handling.flow)
        (handling.announced env info world.db).db
      generalize insertedNow : Plan.rows _ _ = added at stored
      have kept := @Request.flowAfter_rewritten env handling.request
        (handling.announced env info world.db).db.nextId handling.flow
      have allRows : (handling.after env info world.db).db.contents.rows =
          start ++ (inserted ++ announced ++ added) := by
        rw [Handling.after, Request.after, flow, stored, announcedRows, rows]
        simp only [List.append_assoc]
      have modeAfter : (handling.after env info world.db).flow.currentMsgType =
          nano.header.messageType := by
        rw [Handling.after, Request.after, flow, kept.currentMsgType, mode]
      have emptyAfter : (handling.after env info world.db).flow.accumulatedData = .empty := by
        rw [Handling.after, Request.after, flow, kept.accumulatedData, empty]
      rcases kinds with ⟨request, push⟩ | ⟨noPush, other⟩
      · -- the packet row costs nine bytes and opens the exchange
        obtain ⟨row, single, isPush⟩ : ∃ row, added = [row] ∧ row.IsPush := by
          rw [request] at insertedNow
          refine ⟨_, insertedNow.symm, rfl, ?_⟩
          have messageType := @packet_get [] nano.header info
            (handling.announced env info world.db).db.nextId .hdrMsgType _ (by decide) (by decide)
            rfl rfl
          rw [List.append_nil, push] at messageType
          exact messageType _
        subst single
        have long := Nano.read_bulkPush reads push
        have cost : costs [row] = 9 := by
          have entry : row.table ≠ .bulkPushEntry := by rw [isPush.1]; decide
          rw [costs, List.map_singleton, List.sum_singleton, Row.cost, if_neg entry, if_pos isPush]
        refine ⟨_, allRows, fun _ => ⟨row, by simp, isPush⟩, ?_⟩
        rw [outstanding, if_pos (modeAfter.trans push), emptyAfter, costs_append, costs_append,
          announcedFree, cost, CircularBuffer.size_empty]
        omega
      · have free : costs added = 0 :=
          insertedNow ▸ handling.request.costs_message header _ _ _ other
        refine ⟨_, allRows, fun push => absurd (modeAfter.symm.trans push) noPush, ?_⟩
        rw [outstanding, if_neg (modeAfter ▸ noPush), ended_append free,
          ended_append announcedFree, costs_append, costs_append, announcedFree, free]
        omega

end Messages

/-! ## Segments -/

section Segments

variable {env : Environment} {info : NanoPacket} {start : List Row} {delivered : Nat}

theorem Budget.delivery {before after : World} (budget : Budget start delivered before)
    (delivery : Delivery env info before after) :
    Budget start (delivered + info.data.length) after := by
  cases delivery with
  | drained loop effects => exact (budget.accumulate info).effects effects
  | stored message reads =>
      refine budget.message (fun push => ?_) reads
      rw [push] at message
      cases message
  | rejected =>
      obtain ⟨inserted, rows, opened, spent⟩ := budget
      exact ⟨inserted, rows, opened, Nat.le_add_right_of_le spent⟩

/-- However the segments are handled, their bytes pay for the rows. -/
theorem Budget.run (neverFails : env.NeverFails) {segments : List NanoPacket}
    {before after : Handler} (handled : HandlesAll env segments before after)
    (ready : before.db.Ready) (budget : Budget start delivered before.toWorld) :
    Budget start (delivered + (received segments).length) after.toWorld := by
  induction handled generalizing delivered with
  | nil handler => exact budget
  | cons handles _ induction =>
      have delivery := handles.delivery neverFails ready
      have paid := induction (delivery.ready ready) (budget.delivery delivery)
      rwa [received_cons, List.length_append, ← Nat.add_assoc]

end Segments

/-! ## Exchanges -/

structure PushedEntry where
  id : Nat
  blockId : Nat
  block : Block

namespace PushedEntry

variable (env : Environment) (packetId : Nat) (entry : PushedEntry)

def blockRow : Row := entry.block.table.rowOf (entry.block.cells env entry.blockId packetId)

def row : Row :=
  Table.bulkPushEntry.rowOf
    (referenceCells (.packetId, .nat packetId) entry.id entry.blockId entry.block.table.name)

end PushedEntry

/-- The exchange has been recorded: one packet row of type bulk_push, for every
entry the row of its block and the row that points to it, and the flow is reset. -/
def PushRecorded (env : Environment) (before : Handler) (segments : List NanoPacket)
    (entries : List Block) : Prop :=
  ∃ after inserted packetId, ∃ pushed : List PushedEntry, HandlesAll env segments before after ∧
    after.db.contents.rows = before.db.contents.rows ++ inserted ∧
    (inserted.filter (Row.IsPush ·)).map (·.get .id) = [.nat packetId] ∧
    pushed.map PushedEntry.block = entries ∧
    inserted.filter (·.table ∈ Table.blocks) = pushed.map (PushedEntry.blockRow env packetId) ∧
    inserted.filter (·.table = .bulkPushEntry) = pushed.map (PushedEntry.row packetId) ∧
    after.flow = .initial

private theorem costs_eq (rows : List Row) :
    costs rows = 9 * (rows.filter (Row.IsPush ·)).length +
      ((rows.filter (·.table = .bulkPushEntry)).map
        fun row => contentLength (row.get .contentTable)).sum := by
  induction rows with
  | nil => rfl
  | cons row rows induction =>
      change row.cost + costs rows = _
      rw [induction, Row.cost]
      by_cases entry : row.table = .bulkPushEntry
      · have noPush : ¬row.IsPush := fun push => Table.noConfusion (entry.symm.trans push.1)
        simp [entry, noPush]
        omega
      · by_cases push : row.IsPush
        · simp [entry, push]
          omega
        · simp [entry, push]

theorem PushRecorded.cost {env : Environment} {before : Handler} {segments : List NanoPacket}
    {entries : List Block} (recorded : PushRecorded env before segments entries) :
    ∃ after inserted, HandlesAll env segments before after ∧
      after.db.contents.rows = before.db.contents.rows ++ inserted ∧
      costs inserted + outstanding inserted after.flow =
        9 + (entries.flatMap Block.entryWire).length + 1 := by
  obtain ⟨after, inserted, packetId, pushed, handled, rows, packet, rfl, -, entryRows, reset⟩ :=
    recorded
  refine ⟨after, inserted, handled, rows, ?_⟩
  have single : (inserted.filter (Row.IsPush ·)).length = 1 := by
    simpa using congrArg List.length packet
  have opened : ∃ row ∈ inserted, row.IsPush := by
    obtain ⟨row, only⟩ := List.length_eq_one_iff.mp single
    have member : row ∈ inserted.filter (Row.IsPush ·) := by simp [only]
    exact ⟨row, by simpa using List.mem_filter.mp member⟩
  have lengths : (fun row => contentLength (row.get .contentTable)) ∘ PushedEntry.row packetId =
      fun entry => entry.block.entryWire.length :=
    funext fun entry => contentLength_block entry.block
  have reported : outstanding inserted after.flow = 1 := by
    rw [reset]
    exact if_pos opened
  rw [costs_eq, single, entryRows, List.map_map, lengths, reported, List.length_flatMap,
    List.map_map]
  rfl

section Recorded

variable {env : Environment} (neverFails : env.NeverFails) {before : Handler}
  (ready : before.db.Ready) (message : before.flow.currentMsgType ∉ bootstrapModes)
  {segments : List NanoPacket}
include neverFails ready message

/-- The segments of a recorded exchange would be two bytes longer than its header
and its entries. -/
theorem PushRecorded.le_received {entries : List Block}
    (recorded : PushRecorded env before segments entries) :
    9 + (entries.flatMap Block.entryWire).length + 1 ≤ (received segments).length := by
  obtain ⟨after, inserted, handled, rows, cost⟩ := recorded.cost
  have start : Budget before.db.contents.rows 0 before.toWorld := by
    have noPush : before.flow.currentMsgType ≠ .bulkPush := fun push =>
      message (push ▸ by decide)
    refine ⟨[], (List.append_nil _).symm, fun push => absurd push noPush, ?_⟩
    rw [outstanding, if_neg noPush]
    decide
  obtain ⟨paid, paidRows, -, spent⟩ := start.run neverFails handled ready
  obtain rfl := List.append_cancel_left (rows.symm.trans paidRows)
  rwa [cost, Nat.zero_add] at spent

/-- No exchange is recorded, whatever its entries are and however it is cut. -/
theorem bulkPush_not_recorded (header : MessageHeader) (entries : List Block)
    (cut : received segments = header.wire ++ (entries.flatMap Block.entryWire ++ bulkTerminator)) :
    ¬PushRecorded env before segments entries := by
  intro recorded
  have length := recorded.le_received neverFails ready message
  rw [cut, List.length_append, List.length_append, header.length_wire] at length
  simp only [bulkTerminator, List.length_singleton] at length
  omega

end Recorded

/-- Two entries of different types, of which the first begins in the segment of the
header. -/
theorem bulkPush_not_recorded_cut :
    let header := MessageHeader.sample .bulkPush 0
    let entries : List Block := [.receive ⟨.zero 32, .zero 32, .zero 64, 1⟩,
      .opening ⟨.zero 32, .zero 32, .zero 32, .zero 64, 2⟩]
    let bytes := header.wire ++ (entries.flatMap Block.entryWire ++ bulkTerminator)
    ¬PushRecorded .sample .sample
      [.sample (bytes.take 100), .sample ((bytes.drop 100).take 100), .sample (bytes.drop 200)]
      entries := by
  intro header entries bytes
  exact bulkPush_not_recorded Environment.sample_neverFails (Db.opened_ready _) (by decide) header
    entries (by decide +kernel)

/-- The header of a bulk_push alone, and the end of the exchange in the next segment. -/
theorem bulkPush_recorded_false :
    ¬∀ (env : Environment) (before : Handler) (header : MessageHeader) (entries : List Block)
      (first : NanoPacket) (segments : List NanoPacket), env.NeverFails →
      env.config.bootstrapDetails → env.config.blockDetails → before.db.Ready →
      before.flow.currentMsgType ∉ bootstrapModes → header.messageType = .bulkPush →
      header.wire <+: first.data → (∀ info ∈ first :: segments, info.data ≠ []) →
      AppendsFit env (first :: segments) before →
      received (first :: segments) =
        header.wire ++ (entries.flatMap Block.entryWire ++ bulkTerminator) →
      PushRecorded env before (first :: segments) entries := by
  intro recorded
  let header := MessageHeader.sample .bulkPush 0
  have fits : AppendsFit .sample [.sample header.wire, .sample bulkTerminator] .sample := by
    refine ⟨by decide, fun next handles => ⟨?_, fun _ _ => trivial⟩⟩
    have size := (handles_iff_message rfl).mp handles
    rw [← size]
    decide
  have nonempty : ∀ info ∈ [NanoPacket.sample header.wire, .sample bulkTerminator],
      info.data ≠ [] := by
    intro info member
    rcases List.mem_cons.mp member with rfl | member
    · exact List.cons_ne_nil _ _
    · rw [List.mem_singleton.mp member]
      exact List.cons_ne_nil _ _
  have ten : 10 ≤ 9 := (recorded .sample .sample header [] (.sample header.wire)
    [.sample bulkTerminator] Environment.sample_neverFails rfl rfl (Db.opened_ready _) (by decide)
    rfl (List.prefix_refl _) nonempty fits rfl).le_received Environment.sample_neverFails
      (Db.opened_ready _) (by decide)
  exact absurd ten (by decide)

end Nanocap
