import Nanocap.Database.Refinement

/-! # Destroying the captured data

What `flush` and `destroy_capture_data` make of a working database. -/

namespace Nanocap

open Put

namespace Db

/-- A write that is committed at once. -/
def persist (db : Db) (contents : Contents) : Db :=
  { db with contents, committed := contents :: db.committed, executed := db.executed + 3 }

def emptied (db : Db) : List Table → Db
  | [] => db
  | table :: tables =>
      (db.persist { db.contents with
        rows := db.contents.rows.filter fun row => row.table ≠ table }).emptied tables

def flushed (db : Db) : Db :=
  { db with committed := db.contents :: db.committed, executed := db.executed + 2 }

def enteredRun (db : Db) : Db :=
  let key := db.contents.sequence + 1
  db.persist { db.contents with runs := db.contents.runs ++ [key], sequence := key }

def destroyed (db : Db) : Db :=
  { ((db.persist { db.contents with runs := [] }).emptied Table.all).enteredRun with
    countPerType := fun _ => 0 }

/-! ## What is left -/

private theorem emptied_statements (db : Db) (tables : List Table) :
    (db.emptied tables).statements = db.statements := by
  induction tables generalizing db with
  | nil => rfl
  | cons table tables induction => exact induction _

theorem emptied_inTransaction (db : Db) (tables : List Table) :
    (db.emptied tables).inTransaction = db.inTransaction := by
  induction tables generalizing db with
  | nil => rfl
  | cons table tables induction => exact induction _

private theorem emptied_nextId (db : Db) (tables : List Table) :
    (db.emptied tables).nextId = db.nextId := by
  induction tables generalizing db with
  | nil => rfl
  | cons table tables induction => exact induction _

theorem emptied_contents (db : Db) (tables : List Table) :
    (db.emptied tables).contents =
      { db.contents with rows := db.contents.rows.filter fun row => row.table ∉ tables } := by
  induction tables generalizing db with
  | nil => simp [emptied]
  | cons table tables induction =>
      rw [emptied, induction]
      simp [persist, List.filter_filter, Bool.and_comm]

private theorem Table.mem_all (table : Table) : table ∈ Table.all := by
  cases table <;> simp [Table.all]

/-- Nothing is left but the new run. -/
theorem destroyed_contents (db : Db) :
    db.destroyed.contents = ⟨[], [db.contents.sequence + 1], db.contents.sequence + 1⟩ := by
  have none : (db.contents.rows.filter fun row => row.table ∉ Table.all) = [] := by
    simp [Table.mem_all]
  simp only [destroyed, enteredRun, persist, emptied_contents, none, List.nil_append]

theorem destroyed_nextId (db : Db) : db.destroyed.nextId = db.nextId := by
  simp only [destroyed, enteredRun, persist, emptied_nextId]

theorem destroyed_statements (db : Db) : db.destroyed.statements = db.statements := by
  simp only [destroyed, enteredRun, persist, emptied_statements]

private theorem destroyed_inTransaction (db : Db) :
    db.destroyed.inTransaction = db.inTransaction := by
  simp only [destroyed, enteredRun, persist, emptied_inTransaction]

theorem Ready.flushed {db : Db} (ready : db.Ready) : db.flushed.Ready :=
  ⟨ready.reset, ready.inTransaction⟩

theorem Ready.destroyed {db : Db} (ready : db.Ready) : db.destroyed.Ready where
  reset table := by rw [destroyed_statements, ready.reset]
  inTransaction := (destroyed_inTransaction db).trans ready.inTransaction

private theorem emptied_committed (db : Db) (tables : List Table) {snapshot : Contents}
    (member : snapshot ∈ (db.emptied tables).committed) :
    snapshot ∈ db.committed ∨ snapshot.rows ⊆ db.contents.rows := by
  induction tables generalizing db with
  | nil => exact .inl member
  | cons table tables induction =>
      have fewer : (db.contents.rows.filter fun row => row.table ≠ table) ⊆ db.contents.rows :=
        List.filter_subset_self _
      rcases induction _ member with earlier | within
      · rcases List.mem_cons.mp earlier with rfl | earlier
        · exact .inr fewer
        · exact .inl earlier
      · exact .inr (List.Subset.trans within fewer)

theorem destroyed_committed (db : Db) {snapshot : Contents}
    (member : snapshot ∈ db.destroyed.committed) :
    snapshot ∈ db.committed ∨ snapshot.rows ⊆ db.contents.rows := by
  simp only [destroyed, enteredRun, persist, List.mem_cons] at member
  rcases member with rfl | member
  · rw [emptied_contents]
    exact .inr (List.filter_subset_self _)
  · rcases emptied_committed _ _ member with earlier | within
    · rcases List.mem_cons.mp earlier with rfl | earlier
      · exact .inr (List.Subset.refl _)
      · exact .inl earlier
    · exact .inr within

end Db

/-! ## Runs of the member functions -/

section Run

variable {env : Environment} (neverFails : env.NeverFails) {world : World}
  (open_ : world.db.inTransaction = true)
include neverFails open_

theorem Put.run_flush :
    flush.run env world = .ok () { world with db := world.db.flushed } := by
  rw [flush, Put.run_bind_of_ok env (run_lock env world),
    Put.run_bind_of_ok env (run_flushInternal neverFails open_), run_unlock]
  rfl

theorem Put.run_persist {write : Put Unit} {contents : Contents}
    (writes : write.run env world = .ok () { world with db := world.db.write contents }) :
    (do write; flushInternal).run env world =
      .ok () { world with db := world.db.persist contents } := by
  have open' : (world.db.write contents).inTransaction = true := open_
  rw [Put.run_bind_of_ok env writes, run_flushInternal neverFails (by exact open')]
  simp [Db.write, Db.autocommit, Db.persist, open_]

private theorem Put.run_deleteTables (tables : List Table) :
    (deleteTables tables).run env world =
      .ok () { world with db := world.db.emptied tables } := by
  induction tables generalizing world with
  | nil => rfl
  | cons table tables induction =>
      have writes : (Op.perform (.deleteFrom table)).run env world =
          .ok () { world with db := world.db.write { world.db.contents with
            rows := world.db.contents.rows.filter fun row => row.table ≠ table } } := by
        rw [Put.run_perform]
        simp only [Op.answer, execution_of_neverFails neverFails]
      have parts : deleteTables (table :: tables) =
          (do (do Op.perform (.deleteFrom table); flushInternal); deleteTables tables) := by
        simp only [deleteTables, bind_assoc]
      rw [parts, Put.run_bind_of_ok env (run_persist neverFails open_ writes),
        induction (by exact open_)]
      rfl

theorem Put.run_destroyCaptureData :
    destroyCaptureData.run env world = .ok () { world with db := world.db.destroyed } := by
  have parts : destroyCaptureData = (do
      lock
      (do Op.perform .deleteRuns; flushInternal)
      deleteTables Table.all
      (do Op.perform .insertRun; flushInternal)
      Op.perform .clearCounts
      unlock) := by
    simp only [destroyCaptureData, bind_assoc]
  have deletes : (Op.perform .deleteRuns).run env world =
      .ok () { world with db := world.db.write { world.db.contents with runs := [] } } := by
    rw [Put.run_perform]
    simp only [Op.answer, execution_of_neverFails neverFails]
  rw [parts, Put.run_bind_of_ok env (run_lock env world),
    Put.run_bind_of_ok env (run_persist neverFails open_ deletes),
    Put.run_bind_of_ok env (run_deleteTables neverFails (by exact open_) _)]
  unfold Db.destroyed
  have open' := (Db.emptied_inTransaction
    (world.db.persist { world.db.contents with runs := [] }) Table.all).trans open_
  generalize (world.db.persist { world.db.contents with runs := [] }).emptied Table.all =
    emptied at open' ⊢
  have inserts : (Op.perform .insertRun).run env { world with db := emptied } =
      .ok () { world with db := emptied.write { emptied.contents with
        runs := emptied.contents.runs ++ [emptied.contents.sequence + 1]
        sequence := emptied.contents.sequence + 1 } } := by
    rw [Put.run_perform]
    simp only [Op.answer, execution_of_neverFails neverFails]
  rw [Put.run_bind_of_ok env (run_persist neverFails (by exact open') inserts)]
  rfl

end Run

end Nanocap
