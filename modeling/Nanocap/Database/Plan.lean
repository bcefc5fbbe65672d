import Nanocap.Database.Effects

/-! # Plans

A plan says what a completed member function leaves in the database: the
insertions in their order, the ids it draws, and whether it stores a packet row
and so runs the periodic commit first. -/

namespace Nanocap

/-- One execution of an `INSERT` and the cells bound for it. -/
structure Insertion where
  table : Table
  cells : List Cell
deriving DecidableEq

/-- What `bind_header_fields` does. `drawn` counts the ids drawn before it looks
at the id counter. -/
structure Heading where
  messageType : EnumMsgtype
  drawn : Nat
deriving DecidableEq

structure Plan where
  heading : Option Heading
  ids : Nat
  insertions : List Insertion
deriving DecidableEq

/-! ## Rows of a plan -/

abbrev Bindings := Table → Parameter → Value

def Insertion.rebind (insertion : Insertion) (bindings : Bindings) : Bindings :=
  Function.update bindings insertion.table
    (overwrite (bindings insertion.table) insertion.cells)

def Insertion.row (insertion : Insertion) (bindings : Bindings) : Row :=
  insertion.table.row (overwrite (bindings insertion.table) insertion.cells)

def insertedRows : Bindings → List Insertion → List Row
  | _, [] => []
  | bindings, insertion :: insertions =>
      insertion.row bindings :: insertedRows (insertion.rebind bindings) insertions

def Heading.clear (heading : Option Heading) (bindings : Bindings) : Bindings :=
  if heading.isSome then Function.update bindings .packet fun _ => .null else bindings

namespace Plan

def rows (plan : Plan) (bindings : Bindings) : List Row :=
  insertedRows (Heading.clear plan.heading bindings) plan.insertions

def rebind (plan : Plan) (bindings : Bindings) : Bindings :=
  plan.insertions.foldl (fun current insertion => insertion.rebind current)
    (Heading.clear plan.heading bindings)

def commits (plan : Plan) (nextId : Nat) : Bool :=
  match plan.heading with
  | some heading => (nextId + heading.drawn) % 10000 == 0
  | none => false

end Plan

private theorem Table.row_congr {table : Table} {left right : Parameter → Value}
    (equal : ∀ parameter ∈ table.parameters, left parameter = right parameter) :
    table.row left = table.row right := by
  rw [Table.row, Table.row]
  congr 2
  exact List.map_congr_left fun parameter member => by rw [equal parameter member]

theorem overwrite_congr (cells : List Cell) {left right : Parameter → Value}
    {parameter : Parameter}
    (equal : parameter ∉ cells.map Prod.fst → left parameter = right parameter) :
    overwrite left cells parameter = overwrite right cells parameter := by
  induction cells generalizing left right with
  | nil => exact equal (by simp)
  | cons cell cells induction =>
      refine induction fun unbound => ?_
      beta_reduce
      by_cases same : parameter = cell.1
      · rw [same, Function.update_self, Function.update_self]
      · rw [Function.update_of_ne same, Function.update_of_ne same]
        exact equal (by simpa [same] using unbound)

/-- An insertion whose cells bind every parameter of its statement. -/
def Insertion.Complete (insertion : Insertion) : Prop :=
  ∀ parameter ∈ insertion.table.parameters, parameter ∈ insertion.cells.map Prod.fst

instance (insertion : Insertion) : Decidable insertion.Complete :=
  inferInstanceAs (Decidable (∀ parameter ∈ _, _))

theorem Insertion.Complete.of_covers {insertion : Insertion}
    (covers : insertion.cells.map Prod.fst = insertion.table.parameters) :
    insertion.Complete := fun _ member => covers ▸ member

theorem Insertion.Complete.row_eq {insertion : Insertion} (complete : insertion.Complete)
    (left right : Bindings) : insertion.row left = insertion.row right :=
  Table.row_congr fun parameter member =>
    overwrite_congr _ fun unbound => absurd (complete parameter member) unbound

theorem Insertion.row_of_covers {insertion : Insertion}
    (covers : insertion.cells.map Prod.fst = insertion.table.parameters)
    (bindings : Bindings) :
    insertion.row bindings = insertion.table.rowOf insertion.cells :=
  insertion.table.row_overwrite _ covers

theorem insertedRows_of_covers {insertions : List Insertion} (bindings : Bindings)
    (covers : ∀ insertion ∈ insertions,
      insertion.cells.map Prod.fst = insertion.table.parameters) :
    insertedRows bindings insertions =
      insertions.map fun insertion => insertion.table.rowOf insertion.cells := by
  induction insertions generalizing bindings with
  | nil => rfl
  | cons insertion insertions induction =>
      rw [insertedRows, List.map_cons, Insertion.row_of_covers (covers _ (by simp)),
        induction _ fun other member => covers other (by simp [member])]

theorem insertedRows_append (bindings : Bindings) (first second : List Insertion) :
    insertedRows bindings (first ++ second) =
      insertedRows bindings first ++
        insertedRows (first.foldl (fun current insertion => insertion.rebind current) bindings)
          second := by
  induction first generalizing bindings with
  | nil => rfl
  | cons insertion first induction =>
      rw [List.cons_append, insertedRows, insertedRows, induction]
      rfl

theorem insertedRows_tables (bindings : Bindings) (insertions : List Insertion) :
    (insertedRows bindings insertions).map Row.table = insertions.map Insertion.table := by
  induction insertions generalizing bindings with
  | nil => rfl
  | cons insertion insertions induction =>
      rw [insertedRows, List.map_cons, induction]
      rfl

theorem rebind_of_notMem (bindings : Bindings) {insertions : List Insertion} {table : Table}
    (absent : table ∉ insertions.map Insertion.table) :
    insertions.foldl (fun current insertion => insertion.rebind current) bindings table =
      bindings table := by
  induction insertions generalizing bindings with
  | nil => rfl
  | cons insertion insertions induction =>
      simp only [List.map_cons, List.mem_cons, not_or] at absent
      rw [List.foldl_cons, induction _ absent.2, Insertion.rebind,
        Function.update_of_ne absent.1]

/-! ## Storing a plan -/

namespace Db

def bindings (db : Db) : Bindings := fun table => (db.statements table).bindings

/-- The periodic commit, which looks at the counter `nextId`. -/
def commitAt (env : Environment) (nextId : Nat) (db : Db) : Db :=
  if nextId % 10000 = 0 then
    { db with
      committed := db.contents :: db.committed
      maxReached := db.maxReached || decide
        (env.pageSize * env.pageCount db.contents >
          env.config.maxCaptureMegabytes * 1024 * 1024)
      executed := db.executed + 4 }
  else db

def countType (messageType : EnumMsgtype) (db : Db) : Db :=
  let index := messageType.toUInt8.toNat
  { db with
    countPerType := Function.update db.countPerType index (db.countPerType index + 1) }

def start (env : Environment) (plan : Plan) (db : Db) : Db :=
  match plan.heading with
  | some heading =>
      ((commitAt env (db.nextId + heading.drawn) db).clearBindings .packet).countType
        heading.messageType
  | none => db

def insertAll (db : Db) (insertions : List Insertion) : Db :=
  insertions.foldl (fun current insertion => current.insertRow insertion.table insertion.cells) db

def store (env : Environment) (plan : Plan) (db : Db) : Db :=
  ((db.start env plan).insertAll plan.insertions).dispense plan.ids

section Projections

variable (env : Environment) (nextId : Nat) (messageType : EnumMsgtype) (db : Db)
  (table : Table)

@[simp] theorem commitAt_contents : (commitAt env nextId db).contents = db.contents := by
  unfold commitAt
  split <;> rfl

@[simp] theorem commitAt_nextId : (commitAt env nextId db).nextId = db.nextId := by
  unfold commitAt
  split <;> rfl

@[simp] theorem commitAt_statements : (commitAt env nextId db).statements = db.statements := by
  unfold commitAt
  split <;> rfl

@[simp] theorem commitAt_inTransaction :
    (commitAt env nextId db).inTransaction = db.inTransaction := by
  unfold commitAt
  split <;> rfl

private theorem commitAt_committed :
    (commitAt env nextId db).committed =
      if nextId % 10000 = 0 then db.contents :: db.committed else db.committed := by
  unfold commitAt
  split <;> rfl

theorem commitAt_dispense (count : Nat) :
    commitAt env nextId (db.dispense count) = (commitAt env nextId db).dispense count := by
  unfold commitAt
  split <;> rfl

@[simp] theorem countType_contents : (db.countType messageType).contents = db.contents := rfl
@[simp] theorem countType_committed :
    (db.countType messageType).committed = db.committed := rfl
@[simp] theorem countType_nextId : (db.countType messageType).nextId = db.nextId := rfl
@[simp] theorem countType_statements :
    (db.countType messageType).statements = db.statements := rfl
@[simp] theorem countType_inTransaction :
    (db.countType messageType).inTransaction = db.inTransaction := rfl

@[simp] theorem clearBindings_contents : (db.clearBindings table).contents = db.contents := rfl
@[simp] theorem clearBindings_committed :
    (db.clearBindings table).committed = db.committed := rfl
@[simp] theorem clearBindings_nextId : (db.clearBindings table).nextId = db.nextId := rfl
@[simp] theorem clearBindings_inTransaction :
    (db.clearBindings table).inTransaction = db.inTransaction := rfl

@[simp] theorem clearBindings_phase (other : Table) :
    ((db.clearBindings table).statements other).phase = (db.statements other).phase := by
  by_cases equal : other = table
  · subst equal
    simp [clearBindings, setStatement]
  · simp [clearBindings, setStatement, Function.update_of_ne equal]

private theorem bindings_clearBindings :
    (db.clearBindings table).bindings =
      Function.update db.bindings table fun _ => .null := by
  funext other
  by_cases equal : other = table
  · subst equal
    simp [bindings, clearBindings, setStatement]
  · simp [bindings, clearBindings, setStatement, Function.update_of_ne equal]

theorem bindings_insertRow (cells : List Cell) :
    (db.insertRow table cells).bindings = Insertion.rebind ⟨table, cells⟩ db.bindings := by
  funext other
  by_cases equal : other = table
  · subst equal
    simp [bindings, insertRow_bindings_self, Insertion.rebind]
  · simp [bindings, insertRow_statements_of_ne _ _ equal, Insertion.rebind,
      Function.update_of_ne equal]

@[simp] theorem bindings_commitAt : (commitAt env nextId db).bindings = db.bindings := by
  funext table
  simp [bindings]

@[simp] theorem bindings_dispense (count : Nat) :
    (db.dispense count).bindings = db.bindings := rfl

end Projections

/-! ### The start of a plan -/

section Start

variable (env : Environment) (plan : Plan) (db : Db)

@[simp] theorem start_contents : (db.start env plan).contents = db.contents := by
  unfold start
  split <;> simp

@[simp] theorem start_nextId : (db.start env plan).nextId = db.nextId := by
  unfold start
  split <;> simp

@[simp] theorem start_inTransaction :
    (db.start env plan).inTransaction = db.inTransaction := by
  unfold start
  split <;> simp

@[simp] theorem start_phase (table : Table) :
    ((db.start env plan).statements table).phase = (db.statements table).phase := by
  unfold start
  split <;> simp

private theorem start_committed :
    (db.start env plan).committed =
      if plan.commits db.nextId then db.contents :: db.committed else db.committed := by
  unfold start Plan.commits
  split <;> simp [commitAt_committed]

theorem bindings_start :
    (db.start env plan).bindings = Heading.clear plan.heading db.bindings := by
  unfold start Heading.clear
  cases plan.heading with
  | none => rfl
  | some heading =>
      have cleared :=
        bindings_clearBindings (commitAt env (db.nextId + heading.drawn) db) .packet
      rw [bindings_commitAt] at cleared
      exact cleared

theorem Ready.start {db : Db} (ready : db.Ready) (env : Environment) (plan : Plan) :
    (db.start env plan).Ready :=
  ⟨fun table => by simpa using ready.reset table, by simpa using ready.inTransaction⟩

end Start

/-! ### The insertions of a plan -/

section InsertAll

variable {db : Db} (ready : db.Ready) (insertions : List Insertion)

theorem insertAll_append (db : Db) (first second : List Insertion) :
    db.insertAll (first ++ second) = (db.insertAll first).insertAll second :=
  List.foldl_append

private theorem insertAll_rows (db : Db) :
    (db.insertAll insertions).contents =
      { db.contents with
        rows := db.contents.rows ++ insertedRows db.bindings insertions } := by
  induction insertions generalizing db with
  | nil => simp [insertAll, insertedRows]
  | cons insertion insertions induction =>
      change ((db.insertRow insertion.table insertion.cells).insertAll insertions).contents = _
      rw [induction, insertRow_rows, bindings_insertRow, insertedRows, List.append_assoc]
      rfl

theorem insertAll_nextId (db : Db) : (db.insertAll insertions).nextId = db.nextId := by
  induction insertions generalizing db with
  | nil => rfl
  | cons insertion insertions induction => exact (induction _).trans (insertRow_nextId ..)

private theorem bindings_insertAll (db : Db) :
    (db.insertAll insertions).bindings =
      insertions.foldl (fun current insertion => insertion.rebind current) db.bindings := by
  induction insertions generalizing db with
  | nil => rfl
  | cons insertion insertions induction =>
      rw [List.foldl_cons, ← bindings_insertRow]
      exact induction _

include ready

private theorem insertAll_committed : (db.insertAll insertions).committed = db.committed := by
  induction insertions generalizing db with
  | nil => rfl
  | cons insertion insertions induction =>
      exact (induction (ready.insertRow ..)).trans (insertRow_committed _ _ _ ready.inTransaction)

theorem Ready.insertAll : (db.insertAll insertions).Ready := by
  induction insertions generalizing db with
  | nil => exact ready
  | cons insertion insertions induction => exact induction (ready.insertRow ..)

end InsertAll

/-! ### The plan as a whole -/

section Store

variable {env : Environment} {plan : Plan} {db : Db}

private theorem store_contents :
    (db.store env plan).contents =
      { db.contents with rows := db.contents.rows ++ plan.rows db.bindings } := by
  change ((db.start env plan).insertAll plan.insertions).contents = _
  rw [insertAll_rows, start_contents, bindings_start]
  rfl

theorem store_rows :
    (db.store env plan).contents.rows = db.contents.rows ++ plan.rows db.bindings := by
  rw [store_contents]

@[simp] theorem store_nextId : (db.store env plan).nextId = db.nextId + plan.ids := by
  change ((db.start env plan).insertAll plan.insertions).nextId + plan.ids = _
  rw [insertAll_nextId, start_nextId]

/-- A plan commits before it inserts, or not at all. -/
theorem store_committed (ready : db.Ready) :
    (db.store env plan).committed =
      if plan.commits db.nextId then db.contents :: db.committed else db.committed := by
  change ((db.start env plan).insertAll plan.insertions).committed = _
  rw [insertAll_committed (ready.start env plan), start_committed]

theorem bindings_store : (db.store env plan).bindings = plan.rebind db.bindings := by
  change ((db.start env plan).insertAll plan.insertions).bindings = _
  rw [bindings_insertAll, bindings_start]
  rfl

theorem Ready.store (ready : db.Ready) (env : Environment) (plan : Plan) :
    (db.store env plan).Ready :=
  ((ready.start env plan).insertAll plan.insertions).dispense plan.ids

end Store

end Db

end Nanocap
