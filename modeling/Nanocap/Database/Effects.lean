import Nanocap.Database.Put

/-! # What the member functions do to a working database

A database is `Ready` between two calls when no statement has failed: every
statement is reset and the primary transaction is open. -/

namespace Nanocap

open Put

/-! ## Rows -/

/-- The row of a statement whose bindings are exactly `cells`. -/
def Table.rowOf (table : Table) (cells : List Cell) : Row := ⟨table, cells ++ table.stamps⟩

theorem overwrite_append (bindings : Parameter → Value) (first second : List Cell) :
    overwrite bindings (first ++ second) = overwrite (overwrite bindings first) second := by
  simp [overwrite]

theorem overwrite_of_notMem (bindings : Parameter → Value) {cells : List Cell}
    {parameter : Parameter} (unbound : parameter ∉ cells.map Prod.fst) :
    overwrite bindings cells parameter = bindings parameter := by
  induction cells generalizing bindings with
  | nil => rfl
  | cons cell cells induction =>
      simp only [List.map_cons, List.mem_cons, not_or] at unbound
      change overwrite (Function.update bindings cell.1 cell.2) cells parameter = _
      rw [induction _ unbound.2, Function.update_of_ne unbound.1]

private theorem overwrite_of_mem (bindings : Parameter → Value) {cells : List Cell}
    (nodup : (cells.map Prod.fst).Nodup) {cell : Cell} (member : cell ∈ cells) :
    overwrite bindings cells cell.1 = cell.2 := by
  induction cells generalizing bindings with
  | nil => cases member
  | cons head cells induction =>
      rw [List.map_cons, List.nodup_cons] at nodup
      change overwrite (Function.update bindings head.1 head.2) cells cell.1 = _
      rcases List.mem_cons.mp member with equal | member
      · subst equal
        rw [overwrite_of_notMem _ nodup.1, Function.update_self]
      · exact induction _ nodup.2 member

private theorem Table.parameters_nodup (table : Table) : table.parameters.Nodup := by
  cases table <;> decide

/-- Binding every parameter makes the inserted row independent of what was bound
before. -/
theorem Table.row_overwrite (table : Table) (bindings : Parameter → Value)
    {cells : List Cell} (covers : cells.map Prod.fst = table.parameters) :
    table.row (overwrite bindings cells) = table.rowOf cells := by
  have nodup : (cells.map Prod.fst).Nodup := covers ▸ table.parameters_nodup
  have bound : (cells.map Prod.fst).map
      (fun parameter => (parameter, overwrite bindings cells parameter)) = cells := by
    rw [List.map_map]
    refine (List.map_congr_left fun cell member => ?_).trans (List.map_id cells)
    exact Prod.ext rfl (overwrite_of_mem bindings nodup member)
  rw [Table.row, Table.rowOf, ← covers, bound]

/-! ## Working databases -/

structure Db.Ready (db : Db) : Prop where
  reset : ∀ table, (db.statements table).phase = .ready
  inTransaction : db.inTransaction = true

namespace Db

/-- Hand out `count` ids. -/
def dispense (db : Db) (count : Nat) : Db := { db with nextId := db.nextId + count }

def bindAll (db : Db) (table : Table) (cells : List Cell) : Db :=
  let statement := db.statements table
  db.setStatement table { statement with bindings := overwrite statement.bindings cells }

def insertRow (db : Db) (table : Table) (cells : List Cell) : Db :=
  ((db.bindAll table cells).insert table).setPhase table .ready

section Projections

variable (db : Db) (table other : Table) (cells : List Cell) (phase : Phase) (count : Nat)

@[simp] theorem dispense_contents : (db.dispense count).contents = db.contents := rfl
@[simp] theorem dispense_committed : (db.dispense count).committed = db.committed := rfl
@[simp] theorem dispense_statements : (db.dispense count).statements = db.statements := rfl
@[simp] theorem dispense_nextId : (db.dispense count).nextId = db.nextId + count := rfl
@[simp] theorem dispense_inTransaction :
    (db.dispense count).inTransaction = db.inTransaction := rfl

@[simp] theorem bindAll_contents : (db.bindAll table cells).contents = db.contents := rfl
@[simp] theorem bindAll_committed : (db.bindAll table cells).committed = db.committed := rfl
@[simp] theorem bindAll_nextId : (db.bindAll table cells).nextId = db.nextId := rfl
@[simp] theorem bindAll_inTransaction :
    (db.bindAll table cells).inTransaction = db.inTransaction := rfl

@[simp] theorem bindAll_statements_self :
    (db.bindAll table cells).statements table =
      ⟨overwrite (db.statements table).bindings cells, (db.statements table).phase⟩ := by
  simp [bindAll, setStatement]

@[simp] theorem bindAll_phase :
    ((db.bindAll table cells).statements other).phase = (db.statements other).phase := by
  by_cases equal : other = table
  · subst equal
    simp
  · simp [bindAll, setStatement, Function.update_of_ne equal]

private theorem bindAll_statements_of_ne {table other : Table} (different : other ≠ table) :
    (db.bindAll table cells).statements other = db.statements other := by
  simp [bindAll, setStatement, Function.update_of_ne different]

theorem bindAll_append (first second : List Cell) :
    (db.bindAll table first).bindAll table second = db.bindAll table (first ++ second) := by
  simp [bindAll, setStatement, overwrite_append]

@[simp] theorem setPhase_contents : (db.setPhase table phase).contents = db.contents := rfl
@[simp] theorem setPhase_committed : (db.setPhase table phase).committed = db.committed := rfl
@[simp] theorem setPhase_nextId : (db.setPhase table phase).nextId = db.nextId := rfl
@[simp] theorem setPhase_inTransaction :
    (db.setPhase table phase).inTransaction = db.inTransaction := rfl

@[simp] theorem setPhase_phase_self :
    ((db.setPhase table phase).statements table).phase = phase := by
  simp [setPhase, setStatement]

@[simp] theorem setPhase_bindings :
    ((db.setPhase table phase).statements other).bindings =
      (db.statements other).bindings := by
  by_cases equal : other = table
  · subst equal
    simp [setPhase, setStatement]
  · simp [setPhase, setStatement, Function.update_of_ne equal]

theorem setPhase_statements_of_ne {table other : Table} (different : other ≠ table) :
    (db.setPhase table phase).statements other = db.statements other := by
  simp [setPhase, setStatement, Function.update_of_ne different]

@[simp] theorem insert_rows :
    (db.insert table).contents.rows =
      db.contents.rows ++ [table.row (db.statements table).bindings] := rfl

@[simp] theorem insert_runs : (db.insert table).contents.runs = db.contents.runs := rfl

@[simp] theorem insert_sequence :
    (db.insert table).contents.sequence = db.contents.sequence := rfl

@[simp] theorem insert_nextId : (db.insert table).nextId = db.nextId := rfl

@[simp] theorem insert_inTransaction :
    (db.insert table).inTransaction = db.inTransaction := rfl

@[simp] theorem insert_statements :
    (db.insert table).statements = (db.setPhase table .done).statements := rfl

theorem insert_committed (open_ : db.inTransaction = true) :
    (db.insert table).committed = db.committed := by
  simp [insert, write, autocommit, setPhase, setStatement, open_]

@[simp] theorem insertRow_nextId : (db.insertRow table cells).nextId = db.nextId := by
  simp [insertRow]

@[simp] theorem insertRow_inTransaction :
    (db.insertRow table cells).inTransaction = db.inTransaction := by
  simp [insertRow]

@[simp] theorem insertRow_runs :
    (db.insertRow table cells).contents.runs = db.contents.runs := by
  simp [insertRow]

@[simp] theorem insertRow_sequence :
    (db.insertRow table cells).contents.sequence = db.contents.sequence := by
  simp [insertRow]

@[simp] theorem insertRow_executed : (db.insertRow table cells).executed = db.executed + 1 := rfl

@[simp] theorem insertRow_phase_self :
    ((db.insertRow table cells).statements table).phase = .ready := by
  simp [insertRow]

theorem insertRow_bindings_self :
    ((db.insertRow table cells).statements table).bindings =
      overwrite (db.statements table).bindings cells := by
  simp [insertRow]

theorem insertRow_statements_of_ne {table other : Table} (different : other ≠ table) :
    (db.insertRow table cells).statements other = db.statements other := by
  rw [insertRow, setPhase_statements_of_ne _ _ different, insert_statements,
    setPhase_statements_of_ne _ _ different, bindAll_statements_of_ne _ _ different]

theorem insertRow_committed (open_ : db.inTransaction = true) :
    (db.insertRow table cells).committed = db.committed := by
  simp [insertRow, insert_committed, open_]

theorem insertRow_rows :
    (db.insertRow table cells).contents.rows =
      db.contents.rows ++ [table.row (overwrite (db.statements table).bindings cells)] := by
  simp [insertRow]

theorem insertRow_rows_of_covers {table : Table} {cells : List Cell}
    (covers : cells.map Prod.fst = table.parameters) :
    (db.insertRow table cells).contents.rows =
      db.contents.rows ++ [table.rowOf cells] := by
  rw [insertRow_rows, table.row_overwrite _ covers]

end Projections

theorem opened_ready (durable : Contents) : (opened durable).Ready := ⟨fun _ => rfl, rfl⟩

theorem Ready.dispense {db : Db} (ready : db.Ready) (count : Nat) :
    (db.dispense count).Ready := ⟨ready.reset, ready.inTransaction⟩

theorem Ready.insertRow {db : Db} (ready : db.Ready) (table : Table) (cells : List Cell) :
    (db.insertRow table cells).Ready where
  reset other := by
    by_cases equal : other = table
    · subst equal
      simp
    · rw [insertRow_statements_of_ne _ _ equal]
      exact ready.reset other
  inTransaction := by simp [ready.inTransaction]

end Db

/-! ## Running operations -/

section Run

variable (env : Environment)

theorem Put.run_pure {α : Type} (result : α) (world : World) :
    (pure result : Put α).run env world = .ok result world := rfl

theorem Put.run_bind {α β : Type} (first : Put α) (rest : α → Put β) (world : World) :
    (first >>= rest).run env world =
      match first.run env world with
      | .ok result after => (rest result).run env after
      | .error exception after => .error exception after := by
  unfold Put.run
  rw [Program.run_bind, EStateM.bind_apply]
  cases Program.run (Op.answer env) first world <;> rfl

theorem Put.run_perform (op : Op) (world : World) :
    (Op.perform op).run env world = Op.answer env op world := by
  have run : (Op.perform op).run env = Op.answer env op >>= pure := rfl
  rw [run, bind_pure]

theorem Put.run_bind_of_ok {α β : Type} {first : Put α} {rest : α → Put β}
    {before after : World} {result : α}
    (returns : first.run env before = .ok result after) :
    (first >>= rest).run env before = (rest result).run env after := by
  rw [Put.run_bind, returns]

@[simp] theorem Put.run_fetchAdd (world : World) :
    fetchAdd.run env world =
      .ok world.db.nextId { world with db := world.db.dispense 1 } := rfl

@[simp] theorem Put.run_lock (world : World) : lock.run env world = .ok () world := rfl

@[simp] theorem Put.run_unlock (world : World) : unlock.run env world = .ok () world := rfl

@[simp] theorem Put.run_readFlow (world : World) :
    readFlow.run env world = .ok world.flow world := rfl

@[simp] theorem Put.run_setPacketId (id : Nat) (world : World) :
    (Op.perform (.setPacketId id)).run env world =
      .ok () { world with flow.packetId := id } := rfl

@[simp] theorem Put.run_setMessageId (id : Nat) (world : World) :
    (Op.perform (.setMessageId id)).run env world =
      .ok () { world with flow.messageId := id } := rfl

@[simp] theorem Put.run_addInvalidResponse (world : World) :
    (Op.perform .addInvalidResponse).run env world =
      .ok (world.flow.invalidResponseCount + 1)
        { world with
          flow.invalidResponseCount := world.flow.invalidResponseCount + 1 } := rfl

@[simp] theorem Put.run_reset (table : Table) (world : World) :
    (reset table).run env world =
      .ok () { world with db := world.db.setPhase table .ready } := rfl

theorem Put.run_bindAll {table : Table} (cells : List Cell) {world : World}
    (ready : (world.db.statements table).phase = .ready) :
    (bindAll table cells).run env world =
      .ok () { world with db := world.db.bindAll table cells } := by
  induction cells generalizing world with
  | nil =>
      rw [bindAll, Put.run_pure]
      simp [Db.bindAll, Db.setStatement, overwrite]
  | cons cell cells induction =>
      obtain ⟨parameter, value⟩ := cell
      have first : (Op.perform (.bind table parameter value)).run env world =
          .ok () { world with db := world.db.bindAll table [(parameter, value)] } := by
        rw [Put.run_perform]
        simp [Op.answer, ready, Db.bind, Db.bindAll, overwrite]
      rw [bindAll, Put.run_bind_of_ok env first, induction (by simpa using ready),
        Db.bindAll_append]
      rfl

/-- The next execution of the statement of `table` goes through. -/
structure Db.Accepts (db : Db) (env : Environment) (table : Table) : Prop where
  ready : (db.statements table).phase = .ready
  succeeds : env.fails db.executed = false

variable {env}

theorem Put.run_exec_of_accepts {table : Table} {world : World}
    (accepts : world.db.Accepts env table) :
    (exec table).run env world = .ok () { world with db := world.db.insert table } := by
  rw [exec, Put.run_perform]
  simp [Op.answer, execution, accepts.ready, accepts.succeeds]

theorem Put.run_insert_of_accepts {table : Table} (cells : List Cell) {world : World}
    (accepts : world.db.Accepts env table) :
    (insert table cells).run env world =
      .ok () { world with db := world.db.insertRow table cells } := by
  have bound : (world.db.bindAll table cells).Accepts env table :=
    ⟨by simpa using accepts.ready, accepts.succeeds⟩
  have executed := @Put.run_exec_of_accepts env table
    { world with db := world.db.bindAll table cells } bound
  rw [insert, Put.run_bind_of_ok env (Put.run_bindAll env cells accepts.ready),
    Put.run_bind_of_ok env executed, Put.run_reset]
  rfl

/-- A statement that is not reset, or that SQLite refuses, throws. -/
theorem Put.run_insert_of_not_accepts {table : Table} {cells : List Cell} (some : cells ≠ [])
    {world : World} (refuses : ¬world.db.Accepts env table) :
    ∃ after, (insert table cells).run env world = .error .runtimeError after := by
  by_cases ready : (world.db.statements table).phase = .ready
  · have fails : env.fails world.db.executed = true := by
      cases answer : env.fails world.db.executed with
      | true => rfl
      | false => exact absurd ⟨ready, answer⟩ refuses
    have raises : (exec table).run env { world with db := world.db.bindAll table cells } =
        .error .runtimeError { world with
          db := ((world.db.bindAll table cells).refuse env).setPhase table .failed } := by
      have refused : env.fails (world.db.bindAll table cells).executed = true := fails
      rw [exec, Put.run_perform]
      simp [Op.answer, execution, ready, refused]
    exact ⟨_, by
      rw [insert, Put.run_bind_of_ok env (Put.run_bindAll env cells ready), Put.run_bind, raises]⟩
  · obtain ⟨⟨parameter, value⟩, cells, rfl⟩ := List.exists_cons_of_ne_nil some
    have raises : (Op.perform (.bind table parameter value)).run env world =
        .error .runtimeError world := by
      rw [Put.run_perform]
      simp [Op.answer, ready]
    exact ⟨world, by rw [insert, bindAll, bind_assoc, Put.run_bind, raises]⟩

variable (neverFails : env.NeverFails)
include neverFails

theorem Put.run_exec {table : Table} {world : World}
    (ready : (world.db.statements table).phase = .ready) :
    (exec table).run env world = .ok () { world with db := world.db.insert table } :=
  run_exec_of_accepts ⟨ready, neverFails _⟩

theorem Put.run_insert {table : Table} (cells : List Cell) {world : World}
    (ready : (world.db.statements table).phase = .ready) :
    (insert table cells).run env world =
      .ok () { world with db := world.db.insertRow table cells } :=
  run_insert_of_accepts cells ⟨ready, neverFails _⟩

end Run

/-! ## Entries of responses -/

/-- What the puts of a response entry share. -/
def Put.entry (table : Table) (cells : Nat → TcpFlowData → List Cell) : Put Unit := do
  lock
  let id ← fetchAdd
  let flow ← readFlow
  insert table (cells id flow)
  unlock

theorem putFrontierBalanceEntry_eq (entry : FrontierBalanceEntry) :
    putFrontierBalanceEntry entry = Put.entry .bulkPullAccountResponse
      fun id flow => entry.cells id flow.messageId := rfl

theorem putBulkPullAccountEntry_eq (entry : BulkPullAccountEntry) :
    putBulkPullAccountEntry entry = Put.entry .bulkPullAccountResponseEntry
      fun id flow => entry.cells flow.requestFlags id flow.messageId := rfl

section Entries

variable {env : Environment} {table : Table} (cells : Nat → TcpFlowData → List Cell)
  {world : World}

theorem Put.run_entry_of_accepts (accepts : world.db.Accepts env table) :
    (Put.entry table cells).run env world =
      .ok () { world with
        db := (world.db.dispense 1).insertRow table (cells world.db.nextId world.flow) } := by
  rw [Put.entry, Put.run_bind_of_ok env (run_lock env world),
    Put.run_bind_of_ok env (run_fetchAdd env world),
    Put.run_bind_of_ok env (run_readFlow env _),
    Put.run_bind_of_ok env
      (run_insert_of_accepts _ (by exact ⟨accepts.ready, accepts.succeeds⟩)),
    run_unlock]

theorem Put.run_entry_of_not_accepts (refuses : ¬world.db.Accepts env table)
    (some : ∀ id flow, cells id flow ≠ []) :
    ∃ after, (Put.entry table cells).run env world = .error .runtimeError after := by
  obtain ⟨after, raises⟩ := @Put.run_insert_of_not_accepts env table
    (cells world.db.nextId world.flow) (some _ _) { world with db := world.db.dispense 1 }
    fun accepts => refuses ⟨accepts.ready, accepts.succeeds⟩
  exact ⟨after, by
    rw [Put.entry, Put.run_bind_of_ok env (run_lock env world),
      Put.run_bind_of_ok env (run_fetchAdd env world),
      Put.run_bind_of_ok env (run_readFlow env _), Put.run_bind, raises]⟩

end Entries

/-! ## What the database code leaves alone -/

/-- `after` differs from `before` only in the fields the database code writes. -/
def TcpFlowData.Rewritten (before after : TcpFlowData) : Prop :=
  after = { before with
    packetId := after.packetId
    messageId := after.messageId
    invalidResponseCount := after.invalidResponseCount }

namespace TcpFlowData.Rewritten

variable {before after : TcpFlowData} (rewritten : before.Rewritten after)
include rewritten

theorem accumulatedData : after.accumulatedData = before.accumulatedData :=
  (congrArg TcpFlowData.accumulatedData rewritten :)

theorem step : after.step = before.step := (congrArg TcpFlowData.step rewritten :)

theorem requestFlags : after.requestFlags = before.requestFlags :=
  (congrArg TcpFlowData.requestFlags rewritten :)

theorem currentMsgType : after.currentMsgType = before.currentMsgType :=
  (congrArg TcpFlowData.currentMsgType rewritten :)

end TcpFlowData.Rewritten

private theorem Op.answer_rewritten (env : Environment) (before : TcpFlowData) (op : Op)
    (world : World) (kept : before.Rewritten world.flow) :
    before.Rewritten (stateOf (Op.answer env op world)).flow := by
  have execution_kept : ∀ {α : Type} (accepted : EStateM.Result Exception World α) (refused : Db),
      before.Rewritten (stateOf accepted).flow →
      before.Rewritten (stateOf (execution env world accepted refused)).flow := by
    intro α accepted refused acceptedKept
    unfold execution
    split
    · exact kept
    · exact acceptedKept
  cases op with
  | bind table parameter value =>
      simp only [Op.answer]
      split <;> exact kept
  | exec table =>
      simp only [Op.answer]
      split
      · exact kept
      · exact execution_kept _ _ kept
  | commit =>
      simp only [Op.answer]
      split
      · exact execution_kept _ _ kept
      · exact kept
  | beginTransaction => exact execution_kept _ _ kept
  | pageSize => exact execution_kept _ _ kept
  | pageCount => exact execution_kept _ _ kept
  | deleteFrom table => exact execution_kept _ _ kept
  | deleteRuns => exact execution_kept _ _ kept
  | insertRun => exact execution_kept _ _ kept
  | setPacketId id =>
      obtain ⟨db, flow⟩ := world
      unfold TcpFlowData.Rewritten at kept ⊢
      simp only at kept
      rw [kept]
      rfl
  | setMessageId id =>
      obtain ⟨db, flow⟩ := world
      unfold TcpFlowData.Rewritten at kept ⊢
      simp only at kept
      rw [kept]
      rfl
  | addInvalidResponse =>
      obtain ⟨db, flow⟩ := world
      unfold TcpFlowData.Rewritten at kept ⊢
      simp only at kept
      rw [kept]
      rfl
  | _ => exact kept

theorem Put.run_rewritten {α : Type} (env : Environment) (put : Put α) (world : World) :
    world.flow.Rewritten (stateOf (put.run env world)).flow :=
  Program.Every.run_keeps (fun state : World => world.flow.Rewritten state.flow)
    (fun op _ state kept => Op.answer_rewritten env world.flow op state kept) put.every_true rfl

end Nanocap
