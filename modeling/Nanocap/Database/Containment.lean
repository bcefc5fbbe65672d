import Mathlib.Data.Nat.Find
import Nanocap.Database.Alike
import Nanocap.Database.Attempts
import Nanocap.PacketHandler.PacketCounts

/-! # Contained failures

A failure is contained when the calls after it do what they do without it. A call that
throws in the periodic check leaves nothing behind in the database. -/

namespace Nanocap

open Put

/-! ## Calls that throw in the check -/

section Prelude

variable {surroundings : Environment} {world : World} {α : Type}

theorem Put.run_fetchAdd_bind (rest : Nat → Put α) :
    (fetchAdd >>= rest).run surroundings world =
      (rest world.db.nextId).run surroundings { world with db := world.db.dispense 1 } := rfl

private theorem Put.run_lock_bind (rest : Unit → Put α) :
    (lock >>= rest).run surroundings world = (rest ()).run surroundings world := rfl

end Prelude

theorem Plan.bulkEntry_heading {env : Environment} {info : NanoPacket} {table : Table}
    {request : Cell} {event : String} {block : BlockSelector} {flow : TcpFlowData} {nextId : Nat} :
    (Plan.bulkEntry env info table request event block flow nextId).heading = none := by
  unfold Plan.bulkEntry
  split
  · rfl
  · split <;> rfl

/-- A message comes to the periodic check before it changes anything but the id counter
and the flow. -/
private theorem Request.put_check {env : Environment} {info : NanoPacket} {request : Request}
    {nextId : Nat} {flow : TcpFlowData} {heading : Heading}
    (message : (request.plan env info nextId flow).heading = some heading)
    (surroundings : Environment) (world : World) :
    ∃ rest : Unit → Put Unit, ∃ after, (request.put env info).run surroundings world =
      (periodicCommit env >>= rest).run surroundings
        ⟨world.db.dispense heading.drawn, after⟩ := by
  cases request
  case bulkPullEntry => exact absurd (Plan.bulkEntry_heading.symm.trans message) (by simp)
  case bulkPushEntry => exact absurd (Plan.bulkEntry_heading.symm.trans message) (by simp)
  case connection | frontierEntry | frontierBalanceEntry | bulkPullAccountEntry => cases message
  case bulkPullAccount =>
    cases message
    simp only [Request.put, putBulkPullAccount, putHeader, bindHeaderFields, bind_assoc,
      run_fetchAdd_bind]
    exact ⟨_, _, rfl⟩
  case frontierReq | bulkPull | bulkPush =>
    all_goals
      cases message
      simp only [Request.put, putFrontierReq, putBulkPull, putBulkPush, putHeader,
        bindHeaderFields, bind_assoc, run_fetchAdd_bind]
      exact ⟨_, _, rfl⟩
  all_goals
    cases message
    simp only [Request.put, putTelemetryReq, putTelemetryAck, putKeepalive, putConfirmAck,
      putConfirmReq, putPublish, putWithBlock, putNodeIdHandshake, putHeader, bindHeaderFields,
      bind_assoc, run_fetchAdd_bind, run_lock_bind]
    exact ⟨_, _, rfl⟩

/-- On a working database a harmless attempt does all it should, or throws and leaves
the database as it was. -/
theorem Attempt.Harmless.outcome {env : Environment} {attempt : Attempt} {db : Db}
    (harmless : attempt.Harmless env db) (ready : db.Ready) :
    attempt.Undisturbed env db ∨
      attempt.Throws env db ∧ db.Untouched (attempt.perform env db) := by
  by_cases refusal : ∃ execution < (attempt.plan env db).executions db.nextId,
      attempt.refuses (db.executed + execution) = true
  · obtain ⟨own, refused⟩ := Nat.find_spec refusal
    have first : ∀ earlier < Nat.find refusal,
        attempt.refuses (db.executed + earlier) = false := by
      intro earlier less
      have accepted := Nat.find_min refusal less
      exact Bool.eq_false_iff.mpr fun refuses => accepted ⟨Nat.lt_trans less own, refuses⟩
    obtain ⟨commits, place, keeps⟩ := harmless _ own refused first
    refine .inr ?_
    cases message : (attempt.plan env db).heading with
    | none =>
        rw [Plan.commits, message] at commits
        cases commits
    | some heading =>
        rw [Plan.commits, message] at commits
        obtain ⟨rest, flow, run⟩ := Request.put_check message (env.refusing attempt.refuses)
          ⟨db, attempt.flow⟩
        obtain ⟨after, throws, untouched⟩ := @periodicCommit_refused env attempt.refuses
          ⟨db.dispense heading.drawn, flow⟩ ready.inTransaction (beq_iff_eq.mp commits)
          _ refused first place keeps
        have result : attempt.result env db = .error .runtimeError after := by
          rw [result, run, Put.run_bind, throws]
        refine ⟨⟨_, _, result⟩, ?_⟩
        rw [perform, result]
        exact ⟨untouched.contents, untouched.statements, untouched.inTransaction,
          untouched.countPerType, Nat.le_trans (Nat.le_add_right _ _) untouched.nextId,
          untouched.committed⟩
  · refine .inl fun execution own => ?_
    exact Bool.eq_false_iff.mpr fun refuses => refusal ⟨execution, own, refuses⟩

/-! ## Rows of one call in two runs -/

theorem connectionInsertion_complete (info : NanoPacket) (event : String) (id : Nat) :
    (connectionInsertion info event id).Complete := .of_covers rfl

theorem Request.connection_complete {env : Environment} {info : NanoPacket} {request : Request}
    {nextId : Nat} {flow : TcpFlowData} {insertion : Insertion}
    (member : insertion ∈ (request.plan env info nextId flow).insertions)
    (event : insertion.table = .connection) : insertion.Complete := by
  have message : ∀ {header}, request.header = some header → insertion.Complete := by
    intro header message
    cases Request.messageInsertions message nextId flow member with
    | packet content kind => cases event
    | part belongs bound =>
        rw [event] at belongs
        exact belongs.elim
  have bulk : ∀ {table : Table} {cell : Cell} {text : String} {selector : BlockSelector},
      table ≠ .connection →
      insertion ∈ (Plan.bulkEntry env info table cell text selector flow nextId).insertions →
      insertion.Complete := by
    intro table cell text selector different inside
    unfold Plan.bulkEntry at inside
    split at inside
    · rename_i block _
      rcases List.mem_cons.mp inside with rfl | second
      · exact absurd event (by cases block <;> exact Table.noConfusion)
      · rw [List.mem_singleton.mp second] at event
        exact absurd event different
    · split at inside
      · rw [List.mem_singleton.mp inside]
        exact connectionInsertion_complete info text (nextId + 1)
      · cases inside
  cases request
  case connection text =>
    rw [List.mem_singleton.mp member]
    exact connectionInsertion_complete info text nextId
  case bulkPullEntry => exact bulk Table.noConfusion member
  case bulkPushEntry => exact bulk Table.noConfusion member
  case frontierEntry | frontierBalanceEntry | bulkPullAccountEntry =>
    all_goals
      rw [List.mem_singleton.mp member] at event
      cases event
  all_goals exact message rfl

/-- As `Insertion.Alike.row`, for an insertion that binds every column. -/
private theorem Insertion.Alike.row_of_complete {same : IdMatch} {insertion insertion' : Insertion}
    (alike : Insertion.Alike same insertion insertion') (complete : insertion.Complete)
    (left right : Bindings) : Row.Alike same (insertion.row left) (insertion'.row right) := by
  have columns : insertion'.cells.map Prod.fst = insertion.cells.map Prod.fst := by
    have cells := alike.2
    generalize insertion.cells = cells, insertion'.cells = cells' at cells
    induction cells with
    | nil => rfl
    | cons alike _ induction => rw [List.map_cons, List.map_cons, alike.1, induction]
  have complete' : insertion'.Complete := by
    intro parameter member
    rw [columns]
    exact complete parameter (alike.1 ▸ member)
  let empty : Bindings := fun _ _ => .null
  rw [complete.row_eq left empty, complete'.row_eq right empty, Insertion.row, Insertion.row,
    ← alike.1]
  exact Table.row_alike _ (overwrite_alike (fun parameter => Value.alike_null parameter) alike.2)

/-- As `insertedRows_alike`, with the events. -/
theorem insertedRows_all_alike {same : IdMatch} {left right : Bindings}
    {insertions insertions' : List Insertion} (bindings : Bindings.Alike same left right)
    (alike : List.Forall₂ (Insertion.Alike same) insertions insertions')
    (events : ∀ insertion ∈ insertions, insertion.table = .connection → insertion.Complete) :
    List.Forall₂ (Row.Alike same) (insertedRows left insertions)
      (insertedRows right insertions') := by
  induction alike generalizing left right with
  | nil => exact .nil
  | @cons insertion insertion' _ _ alike _ induction =>
      refine .cons ?_ (induction (alike.rebind bindings) fun other member =>
        events other (List.mem_cons_of_mem _ member))
      by_cases event : insertion.table = .connection
      · exact alike.row_of_complete (events insertion List.mem_cons_self event) left right
      · exact alike.row bindings event

/-- The same call in another run, where the ids of its flow may be others. -/
structure Attempt.SamePut (same : IdMatch) (attempt other : Attempt) : Prop where
  request : other.request = attempt.request
  info : other.info = attempt.info
  flow : TcpFlowData.Alike same attempt.flow other.flow

/-! ## Two databases -/

section Databases

variable {env : Environment} {same : IdMatch} {left right : Db}

theorem Db.Untouched.bindings {before after : Db} (untouched : before.Untouched after) :
    after.bindings = before.bindings := by
  funext table
  exact congrArg (fun statements : Table → Statement => (statements table).bindings)
    untouched.statements

theorem Db.Alike.untouchedLeft {oldLeft oldRight : List Row} {after : Db}
    (alike : Db.Alike oldLeft oldRight same left right) (untouched : left.Untouched after) :
    Db.Alike oldLeft oldRight same after right where
  readyLeft := untouched.ready alike.readyLeft
  readyRight := alike.readyRight
  oneToOne := alike.oneToOne
  bounded := alike.bounded.mono untouched.nextId (Nat.le_refl _)
  bindings := by
    rw [untouched.bindings]
    exact alike.bindings
  rows := by
    rw [untouched.contents]
    exact alike.rows

theorem Db.Alike.untouchedRight {oldLeft oldRight : List Row} {after : Db}
    (alike : Db.Alike oldLeft oldRight same left right) (untouched : right.Untouched after) :
    Db.Alike oldLeft oldRight same left after where
  readyLeft := alike.readyLeft
  readyRight := untouched.ready alike.readyRight
  oneToOne := alike.oneToOne
  bounded := alike.bounded.mono (Nat.le_refl _) untouched.nextId
  bindings := by
    rw [untouched.bindings]
    exact alike.bindings
  rows := by
    rw [untouched.contents]
    exact alike.rows

theorem Db.Counted.untouched {before after : Db} (counted : before.Counted)
    (untouched : before.Untouched after) : after.Counted where
  counts messageType := by
    rw [untouched.countPerType, untouched.contents]
    exact counted.counts messageType
  fit := by
    rw [untouched.contents]
    exact counted.fit
  committed snapshot member := by
    rcases untouched.committed snapshot member with earlier | rfl
    · exact counted.committed snapshot earlier
    · exact counted.fit

theorem Db.Alike.flushed {oldLeft oldRight : List Row}
    (alike : Db.Alike oldLeft oldRight same left right) :
    Db.Alike oldLeft oldRight same left.flushed right.flushed :=
  ⟨alike.readyLeft.flushed, alike.readyRight.flushed, alike.oneToOne, alike.bounded,
    alike.bindings, alike.rows⟩

theorem Db.Alike.destroyed {oldLeft oldRight : List Row}
    (alike : Db.Alike oldLeft oldRight same left right) :
    Db.Alike [] [] same left.destroyed right.destroyed where
  readyLeft := alike.readyLeft.destroyed
  readyRight := alike.readyRight.destroyed
  oneToOne := alike.oneToOne
  bounded := by
    rw [Db.destroyed_nextId, Db.destroyed_nextId]
    exact alike.bounded
  bindings table other parameter := by
    have bindings := alike.bindings table other parameter
    unfold Db.bindings at bindings ⊢
    rw [Db.destroyed_statements, Db.destroyed_statements]
    exact bindings
  rows := ⟨[], [], by rw [Db.destroyed_contents]; rfl, by rw [Db.destroyed_contents]; rfl, .nil⟩

theorem Attempt.SamePut.plan_alike {attempt other : Attempt} (put : attempt.SamePut same other) :
    Plan.Alike (same.extend left.nextId right.nextId (attempt.plan env left).ids)
      (attempt.plan env left) (other.plan env right) := by
  rw [Attempt.plan, Attempt.plan, put.request, put.info]
  exact Request.plan_alike (put.flow.mono (same.le_extend _ _ _)) attempt.request
    fun drawn below => same.extend_drawn _ _ below

/-- A call of which no statement fails inserts the same rows into both databases. -/
theorem Attempt.SamePut.inserted_alike {oldLeft oldRight : List Row} {attempt other : Attempt}
    (put : attempt.SamePut same other) (alike : Db.Alike oldLeft oldRight same left right)
    (undisturbed : attempt.Undisturbed env left) (undisturbed' : other.Undisturbed env right) :
    ∃ more : IdMatch, same ≤ more ∧ more.OneToOne ∧
      List.Forall₂ (Row.Alike more) (attempt.inserted env left) (other.inserted env right) := by
  have plans : Plan.Alike _ _ _ := @plan_alike env same left right _ _ put
  have grows := same.le_extend left.nextId right.nextId (attempt.plan env left).ids
  refine ⟨_, grows, alike.oneToOne.extend alike.bounded _, ?_⟩
  rw [undisturbed.inserted_eq alike.readyLeft, undisturbed'.inserted_eq alike.readyRight,
    Plan.rows, Plan.rows, ← plans.heading]
  exact insertedRows_all_alike (Heading.clear_alike _ (alike.bindings.mono grows))
    plans.insertions fun insertion member => Request.connection_complete member

end Databases

end Nanocap
