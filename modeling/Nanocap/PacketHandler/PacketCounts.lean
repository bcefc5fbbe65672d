import Nanocap.Database.History
import Nanocap.Database.PacketRows
import Nanocap.PacketHandler.Runs

/-! # Packets counted per type

`count_per_type` counts a packet before its row is inserted, is read back from
the rows when a process starts, and is cleared with them. -/

namespace Nanocap

/-! ## Counting rows -/

def packetCount (rows : List Row) (messageType : Nat) : Nat :=
  (rows.filter fun row =>
    row.table = .packet ∧ row.get .hdrMsgType = .nat messageType).length

private theorem packetCount_append (first second : List Row) (messageType : Nat) :
    packetCount (first ++ second) messageType =
      packetCount first messageType + packetCount second messageType := by
  simp [packetCount]

theorem packetCount_eq_countP (rows : List Row) (messageType : Nat) :
    packetCount rows messageType =
      (packetHeaders rows).countP fun columns => columns.head? = some (.nat messageType) := by
  rw [packetCount, packetHeaders, List.countP_map, List.countP_filter,
    ← List.countP_eq_length_filter]
  congr 1
  funext row
  simp [headerColumns, Bool.and_comm]

def TypesFit (rows : List Row) : Prop :=
  ∀ row ∈ rows, row.table = .packet → ∃ index < 32, row.get .hdrMsgType = .nat index

theorem TypesFit.of_headers {rows : List Row}
    (fit : ∀ columns ∈ packetHeaders rows, ∃ index < 32, columns.head? = some (.nat index)) :
    TypesFit rows := by
  intro row member packet
  have columns : headerColumns.map row.get ∈ packetHeaders rows :=
    List.mem_map_of_mem (List.mem_filter.mpr ⟨member, by simpa using packet⟩)
  obtain ⟨index, small, head⟩ := fit _ columns
  exact ⟨index, small, Option.some.inj head⟩

theorem TypesFit.append {first second : List Row} (left : TypesFit first)
    (right : TypesFit second) : TypesFit (first ++ second) := by
  intro row member
  rcases List.mem_append.mp member with member | member
  · exact left row member
  · exact right row member

/-! ## Plans -/

def Plan.messageType (plan : Plan) : Option EnumMsgtype := plan.heading.map Heading.messageType

/-- A message type `handle_tcp` stores is an index of the array. -/
private theorem Nano.handling_index {nano : Nano} {handling : Handling}
    (handled : nano.handling = some handling) : nano.header.messageType.toUInt8.toNat < 32 := by
  obtain ⟨⟨_, _, _, _, messageType, _⟩, body⟩ := nano
  cases messageType <;> cases body <;> cases handled <;> simp [EnumMsgtype.toUInt8]

private theorem Request.heading_message {env : Environment} {info : NanoPacket} {request : Request}
    {header : MessageHeader} (message : request.header = some header) (nextId : Nat)
    (flow : TcpFlowData) :
    (request.plan env info nextId flow).messageType = some header.messageType := by
  cases request <;> cases message <;> rfl

private theorem Request.heading_none {env : Environment} {info : NanoPacket} {request : Request}
    (noMessage : request.header = none) (nextId : Nat) (flow : TcpFlowData) :
    (request.plan env info nextId flow).messageType = none := by
  cases request <;> cases noMessage <;> try rfl
  all_goals
    simp only [Request.plan, Plan.bulkEntry]
    split
    · rfl
    · split <;> rfl

namespace Db

private theorem countPerType_insertAll (db : Db) (insertions : List Insertion) :
    (db.insertAll insertions).countPerType = db.countPerType := by
  induction insertions generalizing db with
  | nil => rfl
  | cons insertion insertions induction => exact induction _

private theorem countPerType_commitAt (env : Environment) (nextId : Nat) (db : Db) :
    (commitAt env nextId db).countPerType = db.countPerType := by
  unfold commitAt
  split <;> rfl

private theorem countPerType_store {env : Environment} {plan : Plan} {db : Db} :
    (db.store env plan).countPerType =
      match plan.messageType with
      | some messageType => Function.update db.countPerType messageType.toUInt8.toNat
          (db.countPerType messageType.toUInt8.toNat + 1)
      | none => db.countPerType := by
  change ((db.start env plan).insertAll plan.insertions).countPerType = _
  rw [countPerType_insertAll]
  unfold start Plan.messageType
  cases plan.heading with
  | none => rfl
  | some heading =>
      have committed := countPerType_commitAt env (db.nextId + heading.drawn) db
      change Function.update (commitAt env (db.nextId + heading.drawn) db).countPerType _
        ((commitAt env (db.nextId + heading.drawn) db).countPerType _ + 1) = _
      rw [committed]
      rfl

end Db

/-! ## Runs -/

/-- The counters agree with the rows, and the types in the rows and in everything
made durable are indices. -/
structure Db.Counted (db : Db) : Prop where
  counts : ∀ messageType, db.countPerType messageType = packetCount db.contents.rows messageType
  fit : TypesFit db.contents.rows
  committed : ∀ snapshot ∈ db.committed, TypesFit snapshot.rows

theorem Db.Counted.store {env : Environment} {plan : Plan} {db : Db} (counted : db.Counted)
    (ready : db.Ready) (fit : TypesFit (plan.rows db.bindings))
    (one : ∀ index, packetCount (plan.rows db.bindings) index =
      if plan.messageType.map (fun messageType => messageType.toUInt8.toNat) = some index
      then 1 else 0) : (db.store env plan).Counted where
  counts index := by
    rw [Db.countPerType_store, Db.store_rows, packetCount_append, one, ← counted.counts index]
    cases plan.messageType with
    | none => rfl
    | some messageType =>
        by_cases same : index = messageType.toUInt8.toNat
        · subst same
          simp
        · simp [Function.update_of_ne same, Ne.symm same]
  fit := by
    rw [Db.store_rows]
    exact counted.fit.append fit
  committed snapshot member := by
    rw [Db.store_committed ready] at member
    split at member
    · rcases List.mem_cons.mp member with rfl | earlier
      · exact counted.fit
      · exact counted.committed snapshot earlier
    · exact counted.committed snapshot member

theorem Db.Counted.opened {durable : Contents} (fit : TypesFit durable.rows) :
    (Db.opened durable).Counted where
  counts _ := rfl
  fit := fit
  committed snapshot member := by
    rcases List.mem_cons.mp member with rfl | member
    · exact fit
    · obtain rfl := List.mem_singleton.mp member
      exact fit

private theorem Request.packetHeaders_none {env : Environment} {info : NanoPacket}
    {request : Request} (noMessage : request.header = none) (nextId : Nat) (flow : TcpFlowData)
    (bindings : Bindings) :
    packetHeaders ((request.plan env info nextId flow).rows bindings) = [] := by
  refine packetHeaders_of_ne fun row member => ?_
  obtain ⟨insertion, inside, before, rfl⟩ := exists_of_mem_insertedRows member
  change insertion.table ≠ .packet
  have bulk : ∀ {table : Table} {cell : Cell} {event : String} {selector : BlockSelector},
      table ≠ .packet →
      insertion ∈ (Plan.bulkEntry env info table cell event selector flow nextId).insertions →
      insertion.table ≠ .packet := by
    intro table cell event selector notPacket member
    rcases Plan.mem_bulkEntry member with isEvent | ⟨block, -, rfl | rfl⟩
    · rw [isEvent]
      exact Table.noConfusion
    · exact block.table_ne_packet
    · exact notPacket
  cases request <;> cases noMessage
  case bulkPullEntry => exact bulk Table.noConfusion inside
  case bulkPushEntry => exact bulk Table.noConfusion inside
  all_goals
    rw [List.mem_singleton.mp inside]
    exact Table.noConfusion

theorem Request.Arises.index {request : Request} (arises : request.Arises)
    {header : MessageHeader} (message : request.header = some header) :
    header.messageType.toUInt8.toNat < 32 := by
  cases arises with
  | connection event => cases message
  | entry mode => cases request <;> cases mode <;> cases message
  | message handled =>
      rw [(Nano.handling_request handled).1] at message
      rw [← Option.some.inj message]
      exact Nano.handling_index handled

theorem Db.Counted.storeRequest {env : Environment} (request : Request) (info : NanoPacket)
    (flow : TcpFlowData) (db : Db) (arises : request.Arises) (ready : db.Ready)
    (counted : db.Counted) :
    (db.store env (request.plan env info db.nextId flow)).Counted := by
  cases message : request.header with
  | some header =>
      have headers := @Request.packetHeaders_plan env info header request message db.nextId flow
        db.bindings
      refine counted.store ready (.of_headers fun columns member => ?_) fun index => ?_
      · rw [headers] at member
        rw [List.mem_singleton.mp member]
        exact ⟨_, arises.index message, rfl⟩
      · rw [packetCount_eq_countP, headers, request.heading_message message]
        simp [MessageHeader.columns, Value.nat_inj]
  | none =>
      have headers := @Request.packetHeaders_none env info request message db.nextId flow
        db.bindings
      refine counted.store ready (.of_headers fun columns member => ?_) fun index => ?_
      · rw [headers] at member
        cases member
      · rw [packetCount_eq_countP, headers, request.heading_none message]
        rfl

theorem Db.Counted.flushed {db : Db} (counted : db.Counted) : db.flushed.Counted where
  counts := counted.counts
  fit := counted.fit
  committed snapshot member := by
    rcases List.mem_cons.mp member with rfl | earlier
    · exact counted.fit
    · exact counted.committed snapshot earlier

theorem Db.Counted.destroyed {db : Db} (counted : db.Counted) : db.destroyed.Counted where
  counts index := by
    rw [Db.destroyed_contents]
    rfl
  fit := by
    rw [Db.destroyed_contents]
    exact fun row member => nomatch member
  committed snapshot member := by
    rcases Db.destroyed_committed db member with earlier | within
    · exact counted.committed snapshot earlier
    · exact fun row inside => counted.fit row (within inside)

/-- The states a database is in between two calls, in any number of processes. A
process may end at any time, so that any content made durable so far may be what
the next one opens. -/
inductive Db.Reachable (env : Environment) (durable : Contents) : Db → Prop where
  | start : Reachable env durable (.opened durable)
  | put {db : Db} (call : Call) : Reachable env durable db → call.request.Arises →
      Reachable env durable (call.perform env db).db
  | flush {db : Db} : Reachable env durable db →
      Reachable env durable (stateOf (flush.run env ⟨db, .initial⟩)).db
  | destroyCaptureData {db : Db} : Reachable env durable db →
      Reachable env durable (stateOf (destroyCaptureData.run env ⟨db, .initial⟩)).db
  | restart {db : Db} {left : Contents} : Reachable env durable db → left ∈ db.committed →
      Reachable env durable (.opened left)

theorem Db.Reachable.counted {env : Environment} (neverFails : env.NeverFails)
    {durable : Contents} (start : TypesFit durable.rows) {db : Db}
    (reachable : Db.Reachable env durable db) : db.Ready ∧ db.Counted := by
  induction reachable with
  | start => exact ⟨Db.opened_ready durable, .opened start⟩
  | put call _ arises induction =>
      obtain ⟨ready, counted⟩ := induction
      refine ⟨call.ready_perform neverFails ready, ?_⟩
      rw [call.perform_eq neverFails ready]
      exact Db.Counted.storeRequest call.request call.info call.flow _ arises ready counted
  | flush _ induction =>
      obtain ⟨ready, counted⟩ := induction
      rw [Put.run_flush neverFails (by exact ready.inTransaction)]
      exact ⟨ready.flushed, counted.flushed⟩
  | destroyCaptureData _ induction =>
      obtain ⟨ready, counted⟩ := induction
      rw [Put.run_destroyCaptureData neverFails (by exact ready.inTransaction)]
      exact ⟨ready.destroyed, counted.destroyed⟩
  | restart _ left induction => exact ⟨Db.opened_ready _, .opened (induction.2.committed _ left)⟩

/-- Between two calls the counters agree with the rows, and every index that comes
from the rows or from a message is below 32. -/
theorem counts_agree {env : Environment} (neverFails : env.NeverFails) {durable : Contents}
    (start : TypesFit durable.rows) {db : Db} (reachable : Db.Reachable env durable db) :
    (∀ messageType < 32, db.countPerType messageType = packetCount db.contents.rows messageType) ∧
      TypesFit db.contents.rows ∧ (∀ snapshot ∈ db.committed, TypesFit snapshot.rows) ∧
      ∀ request header, Request.Arises request → request.header = some header →
        header.messageType.toUInt8.toNat < 32 := by
  obtain ⟨-, counted⟩ := reachable.counted neverFails start
  exact ⟨fun messageType _ => counted.counts messageType, counted.fit, counted.committed,
    fun _ _ arises message => arises.index message⟩

/-- What was stored first is destroyed; a keepalive and a telemetry_req are committed, and
the next process stores another telemetry_req. -/
theorem counts_agree_restarted :
    ∃ db, Db.Reachable .sample .empty db ∧ db.countPerType 2 = 1 ∧ db.countPerType 12 = 2 ∧
      db.contents.rows.length = 4 ∧ ∀ messageType < 32,
        db.countPerType messageType = packetCount db.contents.rows messageType := by
  let telemetry : Call := ⟨.telemetryReq ⟨0, 0, 0, 0, .telemetryReq, 0⟩, .sample [], .initial⟩
  let keepalive : Call :=
    ⟨.keepalive ⟨0, 0, 0, 0, .keepalive, 0⟩ ⟨some [⟨.zero 16, 7075⟩]⟩, .sample [], .initial⟩
  let destroyed := (stateOf (destroyCaptureData.run .sample
    ⟨(telemetry.perform .sample (.opened .empty)).db, .initial⟩)).db
  let stored := (telemetry.perform .sample (keepalive.perform .sample destroyed).db).db
  let flushed := (stateOf (flush.run .sample ⟨stored, .initial⟩)).db
  have arises : telemetry.request.Arises :=
    @Request.Arises.message ⟨⟨0, 0, 0, 0, .telemetryReq, 0⟩, .telemetryReq⟩ _ rfl
  have arises' : keepalive.request.Arises :=
    @Request.Arises.message ⟨⟨0, 0, 0, 0, .keepalive, 0⟩, .keepalive ⟨some [⟨.zero 16, 7075⟩]⟩⟩ _
      rfl
  have reachable : Db.Reachable .sample .empty flushed :=
    .flush (.put _ (.put _ (.destroyCaptureData (.put _ .start arises)) arises') arises)
  have computed : flushed.committed.head?.map (fun left =>
      let db := (telemetry.perform .sample (.opened left)).db
      (db.countPerType 2, db.countPerType 12, db.contents.rows.length)) = some (1, 2, 4) := by
    decide +kernel
  obtain ⟨left, last, outcome⟩ := Option.map_eq_some_iff.mp computed
  simp only [Prod.mk.injEq] at outcome
  obtain ⟨keepalives, telemetries, rows⟩ := outcome
  have restarted := reachable.restart (List.mem_of_head? last)
  have again := restarted.put telemetry arises
  have empty : TypesFit Contents.empty.rows := fun _ member => absurd member List.not_mem_nil
  exact ⟨_, again, keepalives, telemetries, rows,
    (counts_agree Environment.sample_neverFails empty again).1⟩

end Nanocap
