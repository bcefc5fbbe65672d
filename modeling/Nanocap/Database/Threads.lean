import Mathlib.Data.List.Sublists
import Nanocap.Database.Ids

/-! # Threads and processes

Three threads call the member functions of one `nanocap::db`, one operation at a
time and in any order; only the holder of `db_mutex` gets past `lock`. One process
follows the other on the same database file. -/

namespace Nanocap

/-! ## Processes -/

/-- The capture thread, the processing thread, and the thread of the web server or
of `main`. -/
inductive ThreadName where
  | capture
  | processing
  | web
deriving DecidableEq

/-- What a thread has left of its call, and the flow the call is given. -/
structure Thread where
  program : Put Unit
  flow : TcpFlowData

/-- `firstId` is what the id counter started with. -/
structure Process where
  db : Db
  firstId : Nat
  holder : Option ThreadName
  threads : ThreadName → Thread

namespace Process

def opened (durable : Contents) : Process where
  db := .opened durable
  firstId := (Db.opened durable).nextId
  holder := none
  threads _ := ⟨.done (), .initial⟩

def setThread (process : Process) (name : ThreadName) (thread : Thread) : Process :=
  { process with threads := Function.update process.threads name thread }

@[simp] theorem setThread_db (process : Process) (name : ThreadName) (thread : Thread) :
    (process.setThread name thread).db = process.db := rfl

end Process

def released (name : ThreadName) (holder : Option ThreadName) : Option ThreadName :=
  if holder = some name then none else holder

def Op.holderAfter (name : ThreadName) (holder : Option ThreadName) : Op → Option ThreadName
  | lock => some name
  | unlock => released name holder
  | _ => holder

def Op.inserted (db : Db) : Op → List Row
  | exec table => [table.row (db.statements table).bindings]
  | _ => []

variable (env : Environment)

/-- One step of a process, with the row it inserts. -/
inductive Process.Step (before : Process) : List Row → Process → Prop where
  | call (name : ThreadName) {put : Put Unit} (flow : TcpFlowData) :
      (before.threads name).program = .done () → MemberFunction env put →
      Step before [] (before.setThread name ⟨put, flow⟩)
  | performed {name : ThreadName} {op : Op} {next : op.Response → Put Unit}
      {response : op.Response} {after : World} :
      (before.threads name).program = .perform op next →
      (op = .lock → before.holder = none) →
      op.answer env ⟨before.db, (before.threads name).flow⟩ = .ok response after →
      Step before (op.inserted before.db)
        ({ before with
          db := after.db
          holder := op.holderAfter name before.holder }.setThread name
            ⟨next response, after.flow⟩)
  /-- An exception ends the call; `lock_guard` releases the lock. -/
  | raised {name : ThreadName} {op : Op} {next : op.Response → Put Unit}
      {exception : Exception} {after : World} :
      (before.threads name).program = .perform op next →
      op.answer env ⟨before.db, (before.threads name).flow⟩ = .error exception after →
      Step before []
        ({ before with
          db := after.db
          holder := released name before.holder }.setThread name ⟨.done (), after.flow⟩)

/-- The rows inserted into a database file so far, by this process and those before
it. Each process has drawn fewer than a billion ids. A process ends at any point,
and the next one finds what was committed last. -/
inductive Life : List Row → Process → Prop where
  | start : Life [] (.opened .empty)
  | step {rows inserted : List Row} {before after : Process} : Life rows before →
      before.Step env inserted after → after.db.nextId < after.firstId + 1000000000 →
      Life (rows ++ inserted) after
  | restart {rows : List Row} {before : Process} {left : Contents} : Life rows before →
      before.db.committed.head? = some left → Life rows (.opened left)

variable {env}

/-! ## Keys of the runs table -/

/-- The runs table holds no key `sqlite_sequence` has not counted, the rows are
among those inserted, and the ids of this process come after the key of its run. -/
structure Contents.Dispensed (rows : List Row) (firstId : Nat) (contents : Contents) : Prop where
  keys : ∀ key ∈ contents.runs, key ≤ contents.sequence
  first : firstId ≤ 1000000000 * contents.sequence
  rows : List.Sublist contents.rows rows

/-- This holds of the contents and of what was committed last. -/
structure Db.Dispensed (rows : List Row) (firstId : Nat) (db : Db) : Prop where
  contents : db.contents.Dispensed rows firstId
  committed : ∀ left, db.committed.head? = some left → left.Dispensed rows firstId

section Dispensed

variable {rows : List Row} {firstId : Nat} {db : Db}

theorem Contents.Dispensed.append {contents : Contents}
    (dispensed : contents.Dispensed rows firstId)
    (added : List Row) : contents.Dispensed (rows ++ added) firstId :=
  ⟨dispensed.keys, dispensed.first, dispensed.rows.trans (List.sublist_append_left _ _)⟩

theorem Db.Dispensed.append (dispensed : db.Dispensed rows firstId) (added : List Row) :
    db.Dispensed (rows ++ added) firstId :=
  ⟨dispensed.contents.append added, fun left last => (dispensed.committed left last).append added⟩

theorem Db.Dispensed.congr {other : Db} (dispensed : db.Dispensed rows firstId)
    (contents : other.contents = db.contents) (committed : other.committed = db.committed) :
    other.Dispensed rows firstId :=
  ⟨contents ▸ dispensed.contents, committed ▸ dispensed.committed⟩

theorem Db.Dispensed.write (dispensed : db.Dispensed rows firstId) {contents : Contents}
    (fits : contents.Dispensed rows firstId) : (db.write contents).Dispensed rows firstId := by
  refine ⟨fits, fun left last => ?_⟩
  simp only [Db.write, Db.autocommit] at last
  split at last
  · exact dispensed.committed left last
  · cases last
    exact fits

theorem accepted_of_execution {α : Type} {world after : World} {response : α}
    {accepted : EStateM.Result Exception World α} {refused : Db}
    (returns : execution env world accepted refused = .ok response after) :
    accepted = .ok response after := by
  unfold execution at returns
  split at returns
  · cases returns
  · exact returns

theorem refused_of_execution {α : Type} {world middle after : World} {response : α}
    {exception : Exception} {refused : Db}
    (raises : execution env world (.ok response middle) refused = .error exception after) :
    after = { world with db := refused } := by
  unfold execution at raises
  split at raises
  · cases raises
    rfl
  · cases raises

private theorem Op.dispensed_of_ok {op : Op} {world after : World} {response : op.Response}
    (dispensed : world.db.Dispensed rows firstId)
    (returns : op.answer env world = .ok response after) :
    after.db.Dispensed (rows ++ op.inserted world.db) firstId := by
  have contents := dispensed.contents
  cases op with
  | bind table parameter value =>
      simp only [answer] at returns
      split at returns
      · cases returns
        exact (dispensed.append []).congr rfl rfl
      · cases returns
  | exec table =>
      simp only [answer] at returns
      split at returns
      · cases returns
      · cases accepted_of_execution returns
        have appended := dispensed.append (inserted world.db (.exec table))
        have fits := List.Sublist.append contents.rows
          (List.Sublist.refl (inserted world.db (.exec table)))
        have executed : (world.db.setPhase table .done).Dispensed _ firstId :=
          appended.congr rfl rfl
        exact executed.write
          ⟨contents.keys, contents.first, fits⟩
  | commit =>
      simp only [answer] at returns
      split at returns
      · cases accepted_of_execution returns
        refine ⟨contents.append [], fun left last => ?_⟩
        cases last
        exact contents.append []
      · cases returns
  | beginTransaction | pageSize | pageCount =>
      cases accepted_of_execution returns
      exact (dispensed.append []).congr rfl rfl
  | deleteFrom table =>
      cases accepted_of_execution returns
      exact (dispensed.append []).write
        ⟨contents.keys, contents.first, (List.filter_sublist).trans (contents.append []).rows⟩
  | deleteRuns =>
      cases accepted_of_execution returns
      exact (dispensed.append []).write
        ⟨by simp, contents.first, (contents.append []).rows⟩
  | insertRun =>
      cases accepted_of_execution returns
      refine (dispensed.append []).write ⟨?_, ?_, (contents.append []).rows⟩
      · intro key member
        rcases List.mem_append.mp member with old | new
        · exact (contents.keys key old).trans (Nat.le_succ _)
        · exact (List.mem_singleton.mp new).le
      · exact contents.first.trans (Nat.mul_le_mul_left _ (Nat.le_succ _))
  | fetchAdd | nextId | lock | unlock | clearBindings | reset | setMaxReached | countType
  | readFlow | setPacketId | setMessageId | addInvalidResponse | clearCounts =>
      cases returns
      exact (dispensed.append []).congr rfl rfl

end Dispensed

/-- What a refused operation leaves alone. It may undo the open transaction. -/
structure Db.Refused (before after : Db) : Prop where
  contents : after.contents = before.contents ∨
    after.inTransaction ≠ before.inTransaction ∧ before.committed.head? = some after.contents
  committed : after.committed = before.committed
  nextId : after.nextId = before.nextId
  bindings : ∀ table, (after.statements table).bindings = (before.statements table).bindings

private theorem Db.refused_refuse (env : Environment) (db : Db) : db.Refused (db.refuse env) := by
  rcases db.refuse_cases env with same | ⟨transaction, undone⟩
  · rw [same]
    exact ⟨.inl rfl, rfl, rfl, fun _ => rfl⟩
  · rw [undone]
    refine ⟨?_, rfl, rfl, fun _ => rfl⟩
    cases last : db.committed with
    | nil => exact .inl rfl
    | cons snapshot _ => exact .inr ⟨by simp [transaction], rfl⟩

theorem Op.refused_of_error {op : Op} {world after : World} {exception : Exception}
    (raises : op.answer env world = .error exception after) : world.db.Refused after.db := by
  have unchanged : world.db.Refused world.db := ⟨.inl rfl, rfl, rfl, fun _ => rfl⟩
  have refused : world.db.Refused (world.db.refuse env) := world.db.refused_refuse env
  cases op with
  | bind table parameter value =>
      simp only [answer] at raises
      split at raises
      · cases raises
      · cases raises
        exact unchanged
  | exec table =>
      simp only [answer] at raises
      split at raises
      · cases raises
        exact unchanged
      · rw [refused_of_execution raises]
        exact ⟨refused.contents, refused.committed, refused.nextId, fun other =>
          (Db.setPhase_bindings ..).trans (refused.bindings other)⟩
  | commit =>
      simp only [answer] at raises
      split at raises
      · rw [refused_of_execution raises]
        exact refused
      · cases raises
        exact unchanged
  | beginTransaction | pageSize | pageCount | deleteFrom | deleteRuns | insertRun =>
      rw [refused_of_execution raises]
      exact refused
  | fetchAdd | nextId | lock | unlock | clearBindings | reset | setMaxReached | countType
  | readFlow | setPacketId | setMessageId | addInvalidResponse | clearCounts => cases raises

private theorem Db.Dispensed.of_refused {rows : List Row} {firstId : Nat} {before after : Db}
    (dispensed : before.Dispensed rows firstId) (refused : before.Refused after) :
    after.Dispensed rows firstId := by
  refine ⟨?_, refused.committed ▸ dispensed.committed⟩
  rcases refused.contents with same | ⟨-, last⟩
  · exact same ▸ dispensed.contents
  · exact dispensed.committed _ last

/-! ## Ownership -/

def insertedIds (rows : List Row) : List Value := rows.map fun row => row.get .id

/-- What a thread has drawn and bound fits the database. -/
structure IdState.Fits (rows : List Row) (process : Process) (name : ThreadName)
    (state : IdState) : Prop where
  locked : state.locked = true → process.holder = some name
  drawn : ∀ id ∈ state.owned, id < process.db.nextId
  unused : ∀ id ∈ state.owned, Value.nat id ∉ insertedIds rows
  ready : state.locked = true → ∀ table id, state.ready table = some id →
    (process.db.statements table).bindings .id = .nat id

/-- The threads keep to the discipline, no id is owned twice, and every row was
inserted under an id of its own, drawn before. -/
structure Process.Orderly (rows : List Row) (process : Process)
    (states : ThreadName → IdState) : Prop where
  obeys : ∀ name, (process.threads name).program.Obeys idRule (states name) fun _ _ => True
  fits : ∀ name, (states name).Fits rows process name
  apart : ∀ name other, name ≠ other → ∀ id ∈ (states name).owned, id ∉ (states other).owned
  distinct : (insertedIds rows).Nodup
  drawn : ∀ id ∈ insertedIds rows, ∃ number < process.db.nextId, id = .nat number

private theorem Table.row_get_id (table : Table) (bindings : Parameter → Value) :
    (table.row bindings).get .id = bindings .id := by
  cases table <;> simp [Row.get, Table.row, Table.parameters]

theorem Db.bind_bindings (db : Db) (table other : Table) (parameter column : Parameter)
    (value : Value) : ((db.bind table parameter value).statements other).bindings column =
      if other = table ∧ column = parameter then value
      else (db.statements other).bindings column := by
  by_cases same : other = table
  · subst same
    simp [bind, setStatement, Function.update_apply]
  · simp [bind, setStatement, same]

private theorem Db.clearBindings_statements (db : Db) (table : Table) :
    (db.clearBindings table).statements = Function.update db.statements table
      { db.statements table with bindings := fun _ => .null } := rfl

/-- What an operation may do to the ids and to what the statements are bound to. -/
structure Process.Moves (name : ThreadName) (state next : IdState) (before after : Process)
    (inserted : List Row) : Prop where
  nextId : before.db.nextId ≤ after.db.nextId
  owned : ∀ id ∈ next.owned, id ∈ state.owned ∨ id = before.db.nextId ∧ id < after.db.nextId
  mine : next.locked = true → after.holder = some name ∧ ∀ table id,
    next.ready table = some id → (after.db.statements table).bindings .id = .nat id
  theirs : ∀ other ≠ name, before.holder = some other → after.holder = some other ∧
    ∀ table, (after.db.statements table).bindings .id =
      (before.db.statements table).bindings .id
  inserts : ∀ row ∈ inserted, ∃ id ∈ state.owned, id ∉ next.owned ∧ row.get .id = .nat id
  single : inserted.length ≤ 1

section Orderly

variable {rows : List Row} {before after : Process} {states : ThreadName → IdState}

private theorem Process.Orderly.nextId_unused (orderly : before.Orderly rows states) :
    Value.nat before.db.nextId ∉ insertedIds rows := by
  intro member
  obtain ⟨number, below, equal⟩ := orderly.drawn _ member
  exact below.ne' (Value.nat_inj.mp equal)

theorem Process.Orderly.moved (orderly : before.Orderly rows states) {name : ThreadName}
    {next : IdState} {inserted : List Row}
    (moves : Moves name (states name) next before after inserted)
    (others : ∀ other ≠ name, after.threads other = before.threads other)
    (obeys : (after.threads name).program.Obeys idRule next fun _ _ => True) :
    after.Orderly (rows ++ inserted) (Function.update states name next) := by
  have fits := orderly.fits
  have ids : insertedIds (rows ++ inserted) = insertedIds rows ++ insertedIds inserted :=
    List.map_append
  have insertedOwned : ∀ id, Value.nat id ∈ insertedIds inserted →
      id ∈ (states name).owned ∧ id ∉ next.owned := by
    intro id member
    obtain ⟨row, inserted, equal⟩ := List.mem_map.mp member
    obtain ⟨own, owned, used, bound⟩ := moves.inserts row inserted
    rw [Value.nat_inj.mp (equal.symm.trans bound)]
    exact ⟨owned, used⟩
  refine ⟨fun other => ?_, fun other => ?_, fun first second different => ?_, ?_, ?_⟩
  · by_cases same : other = name
    · subst same
      rw [Function.update_self]
      exact obeys
    · rw [Function.update_of_ne same, others other same]
      exact orderly.obeys other
  · by_cases same : other = name
    · subst same
      rw [Function.update_self]
      refine ⟨fun locked => (moves.mine locked).1, fun id owned => ?_, fun id owned => ?_,
        fun locked => (moves.mine locked).2⟩
      · rcases moves.owned id owned with old | new
        · exact ((fits other).drawn id old).trans_le moves.nextId
        · exact new.2
      · rw [ids, List.mem_append, not_or]
        refine ⟨?_, fun member => (insertedOwned id member).2 owned⟩
        rcases moves.owned id owned with old | new
        · exact (fits other).unused id old
        · exact new.1 ▸ orderly.nextId_unused
    · rw [Function.update_of_ne same]
      refine ⟨fun locked => (moves.theirs other same ((fits other).locked locked)).1,
        fun id owned => ((fits other).drawn id owned).trans_le moves.nextId,
        fun id owned => ?_, fun locked table id ready => ?_⟩
      · rw [ids, List.mem_append, not_or]
        refine ⟨(fits other).unused id owned, fun member => ?_⟩
        exact orderly.apart other name same id owned (insertedOwned id member).1
      · rw [(moves.theirs other same ((fits other).locked locked)).2]
        exact (fits other).ready locked table id ready
  · have fresh : ∀ other ≠ name, ∀ id ∈ next.owned, id ∉ (states other).owned := by
      intro other apart id owned theirs
      rcases moves.owned id owned with old | new
      · exact orderly.apart name other apart.symm id old theirs
      · exact ((fits other).drawn id theirs).ne new.1
    by_cases mine : first = name
    · subst mine
      rw [Function.update_self, Function.update_of_ne different.symm]
      exact fresh second different.symm
    · rw [Function.update_of_ne mine]
      by_cases mine' : second = name
      · subst mine'
        rw [Function.update_self]
        exact fun id theirs owned => fresh first mine id owned theirs
      · rw [Function.update_of_ne mine']
        exact orderly.apart first second different
  · rw [ids]
    refine orderly.distinct.append ?_ fun id old new => ?_
    · exact List.nodup_iff_count_le_one.mpr fun id =>
        List.count_le_length.trans (by simpa [insertedIds] using moves.single)
    · obtain ⟨row, inserted, equal⟩ := List.mem_map.mp new
      obtain ⟨own, owned, -, bound⟩ := moves.inserts row inserted
      exact (fits name).unused own owned ((equal.symm.trans bound) ▸ old)
  · intro id member
    rw [ids] at member
    rcases List.mem_append.mp member with old | new
    · obtain ⟨number, below, equal⟩ := orderly.drawn id old
      exact ⟨number, below.trans_le moves.nextId, equal⟩
    · obtain ⟨row, inserted, equal⟩ := List.mem_map.mp new
      obtain ⟨own, owned, -, bound⟩ := moves.inserts row inserted
      exact ⟨own, ((fits name).drawn own owned).trans_le moves.nextId, equal.symm.trans bound⟩

theorem Process.Moves.unchanged {name : ThreadName} {state : IdState}
    (fits : state.Fits rows before name) (holder : after.holder = before.holder)
    (nextId : after.db.nextId = before.db.nextId)
    (bindings : ∀ table, (after.db.statements table).bindings .id =
      (before.db.statements table).bindings .id) : Moves name state state before after [] where
  nextId := nextId.ge
  owned _ owned := .inl owned
  mine locked := ⟨holder.trans (fits.locked locked), fun table id ready =>
    (bindings table).trans (fits.ready locked table id ready)⟩
  theirs _ _ holds := ⟨holder.trans holds, bindings⟩
  inserts := by simp
  single := Nat.zero_le 1

theorem Process.Moves.holding {name : ThreadName} {state next : IdState} {inserted : List Row}
    (held : before.holder = some name) (holder : after.holder = before.holder)
    (nextId : after.db.nextId = before.db.nextId) (owned : ∀ id ∈ next.owned, id ∈ state.owned)
    (ready : ∀ table id, next.ready table = some id →
      (after.db.statements table).bindings .id = .nat id)
    (inserts : ∀ row ∈ inserted, ∃ id ∈ state.owned, id ∉ next.owned ∧ row.get .id = .nat id)
    (single : inserted.length ≤ 1) : Moves name state next before after inserted where
  nextId := nextId.ge
  owned id member := .inl (owned id member)
  mine _ := ⟨holder.trans held, ready⟩
  theirs _ different holds := absurd (Option.some.inj (holds.symm.trans held)) different
  inserts := inserts
  single := single

private theorem Process.Moves.draw {name : ThreadName} {state : IdState}
    (fits : state.Fits rows before name) (holder : after.holder = before.holder)
    (drawn : after.db = { before.db with nextId := before.db.nextId + 1 }) :
    Moves name state (state.draw before.db.nextId) before after [] where
  nextId := by rw [drawn]; exact Nat.le_succ _
  owned id owned := by
    rcases Set.mem_insert_iff.mp owned with rfl | old
    · exact .inr ⟨rfl, by rw [drawn]; exact Nat.lt_succ_self _⟩
    · exact .inl old
  mine locked := by
    rw [holder, drawn]
    exact ⟨fits.locked locked, fits.ready locked⟩
  theirs _ _ holds := ⟨holder.trans holds, fun _ => by rw [drawn]⟩
  inserts := by simp
  single := Nat.zero_le 1

private theorem Process.Moves.acquire {name : ThreadName} {state : IdState}
    (free : before.holder = none) (holder : after.holder = some name)
    (same : after.db = before.db) : Moves name state state.acquire before after [] where
  nextId := by rw [same]
  owned _ owned := .inl owned
  mine _ := ⟨holder, by simp [IdState.acquire]⟩
  theirs _ _ holds := by
    rw [free] at holds
    cases holds
  inserts := by simp
  single := Nat.zero_le 1

private theorem Process.Moves.release {name : ThreadName} {state : IdState}
    (holder : after.holder = released name before.holder) (same : after.db = before.db) :
    Moves name state state.release before after [] where
  nextId := by rw [same]
  owned _ owned := .inl owned
  mine := by simp [IdState.release]
  theirs _ different holds := by
    have notMine : before.holder ≠ some name := fun mine =>
      different (Option.some.inj (holds.symm.trans mine))
    rw [holder, same]
    exact ⟨(if_neg notMine).trans holds, fun _ => rfl⟩
  inserts := by simp
  single := Nat.zero_le 1

private theorem Process.Moves.bind {name : ThreadName} {state : IdState} {table : Table} {id : Nat}
    (fits : state.Fits rows before name) (locked : state.locked = true)
    (holder : after.holder = before.holder)
    (bound : after.db = before.db.bind table .id (.nat id)) :
    Moves name state (state.bind table id) before after [] := by
  refine .holding (fits.locked locked) holder (by rw [bound]; rfl) (fun _ owned => owned) ?_
    (by simp) (Nat.zero_le 1)
  intro other number ready
  rw [bound, Db.bind_bindings]
  by_cases same : other = table
  · subst same
    rw [IdState.ready_bind_self] at ready
    rw [if_pos ⟨rfl, rfl⟩, Option.some.inj ready]
  · rw [IdState.ready_bind_of_ne same] at ready
    rw [if_neg fun both => same both.1]
    exact fits.ready locked other number ready

private theorem Process.Moves.clear {name : ThreadName} {state : IdState} {table : Table}
    (fits : state.Fits rows before name) (locked : state.locked = true)
    (holder : after.holder = before.holder) (cleared : after.db = before.db.clearBindings table) :
    Moves name state { state with ready := Function.update state.ready table none } before after
      [] := by
  refine .holding (fits.locked locked) holder (by rw [cleared]; rfl) (fun _ owned => owned) ?_
    (by simp) (Nat.zero_le 1)
  intro other id ready
  rw [cleared, Db.clearBindings_statements]
  by_cases same : other = table
  · subst same
    simp at ready
  · simp only [Function.update_of_ne same] at ready ⊢
    exact fits.ready locked other id ready

private theorem Process.Moves.insert {name : ThreadName} {state : IdState} {table : Table}
    {id : Nat} (fits : state.Fits rows before name) (locked : state.locked = true)
    (owned : id ∈ state.owned) (ready : state.ready table = some id)
    (holder : after.holder = before.holder) (nextId : after.db.nextId = before.db.nextId)
    (bindings : ∀ other, (after.db.statements other).bindings =
      (before.db.statements other).bindings) :
    Moves name state (state.use id) before after
      [table.row (before.db.statements table).bindings] := by
  refine .holding (fits.locked locked) holder nextId (fun _ owned => owned.1) ?_ ?_ (Nat.le_refl 1)
  · intro other number ready
    rw [bindings]
    exact fits.ready locked other number ready
  · intro row member
    refine ⟨id, owned, fun used => used.2 rfl, ?_⟩
    rw [List.mem_singleton.mp member, Table.row_get_id]
    exact fits.ready locked table id ready

theorem Op.moves {op : Op} {name : ThreadName} {state : IdState} {flow : TcpFlowData}
    {response : op.Response} {world : World} {thread : Thread}
    {rest : op.Response → IdState → Prop} (fits : state.Fits rows before name)
    (rule : idRule op state rest) (free : op = .lock → before.holder = none)
    (returns : op.answer env ⟨before.db, flow⟩ = .ok response world) :
    ∃ next, rest response next ∧ Process.Moves name state next before
      ({ before with db := world.db, holder := op.holderAfter name before.holder }.setThread
        name thread) (op.inserted before.db) := by
  cases op with
  | fetchAdd =>
      cases returns
      have fresh : before.db.nextId ∉ state.owned := fun owned => (fits.drawn _ owned).false
      exact ⟨_, rule _ fresh, .draw fits rfl rfl⟩
  | lock =>
      cases returns
      exact ⟨_, rule, .acquire (free rfl) rfl rfl⟩
  | unlock =>
      cases returns
      exact ⟨_, rule, .release rfl rfl⟩
  | bind table parameter value =>
      simp only [answer] at returns
      split at returns
      · cases returns
        by_cases isId : parameter = .id
        · subst isId
          simp only [idRule, if_true] at rule
          obtain ⟨locked, id, owned, rfl, rest⟩ := rule
          exact ⟨_, rest, .bind fits locked rfl rfl⟩
        · simp only [idRule, if_neg isId] at rule
          refine ⟨_, rule, .unchanged fits rfl rfl fun other => ?_⟩
          rw [Process.setThread_db, Db.bind_bindings, if_neg fun both => isId both.2.symm]
      · cases returns
  | clearBindings table =>
      cases returns
      exact ⟨_, rule.2, .clear fits rule.1 rfl rfl⟩
  | exec table =>
      simp only [answer] at returns
      split at returns
      · cases returns
      · cases accepted_of_execution returns
        obtain ⟨locked, id, owned, ready, rest⟩ := rule
        refine ⟨_, rest, .insert fits locked owned ready rfl rfl fun other => ?_⟩
        rw [Process.setThread_db, Db.insert_statements, Db.setPhase_bindings]
  | nextId | setMaxReached | countType | readFlow | setPacketId | setMessageId
  | addInvalidResponse | clearCounts =>
      cases returns
      exact ⟨_, rule _, .unchanged fits rfl rfl fun _ => rfl⟩
  | reset table =>
      cases returns
      refine ⟨_, rule _, .unchanged fits rfl rfl fun other => ?_⟩
      rw [Process.setThread_db, Db.setPhase_bindings]
  | beginTransaction | pageSize | pageCount | deleteFrom | deleteRuns | insertRun =>
      cases accepted_of_execution returns
      exact ⟨_, rule _, .unchanged fits rfl rfl fun _ => rfl⟩
  | commit =>
      simp only [answer] at returns
      split at returns
      · cases accepted_of_execution returns
        exact ⟨_, rule _, .unchanged fits rfl rfl fun _ => rfl⟩
      · cases returns

theorem Process.Step.orderly {inserted : List Row} (step : before.Step env inserted after)
    (orderly : before.Orderly rows states) :
    ∃ states, after.Orderly (rows ++ inserted) states := by
  -- a thread between two calls owns nothing
  have idle : ∀ {name : ThreadName} {after : Process},
      after.db.nextId = before.db.nextId →
      (∀ table, (after.db.statements table).bindings .id =
        (before.db.statements table).bindings .id) →
      (∀ other ≠ name, before.holder = some other → after.holder = some other) →
      Moves name (states name) .idle before after [] := by
    intro name after nextId bindings holder
    exact ⟨nextId.ge, by simp [IdState.idle], by simp [IdState.idle],
      fun other different holds => ⟨holder other different holds, bindings⟩, by simp,
      Nat.zero_le 1⟩
  have others : ∀ {name : ThreadName} (process : Process) (thread : Thread),
      process.threads = before.threads → ∀ other ≠ name,
        (process.setThread name thread).threads other = before.threads other := by
    intro name process thread same other different
    rw [← same]
    exact Function.update_of_ne different ..
  have threadOf : ∀ {name : ThreadName} (process : Process) (thread : Thread),
      (process.setThread name thread).threads name = thread :=
    fun _ _ => Function.update_self ..
  cases step with
  | call name flow free member =>
      refine ⟨_, orderly.moved (idle rfl (fun _ => rfl) fun _ _ holds => holds)
        (others before _ rfl) ?_⟩
      rw [threadOf]
      exact member.usesIds _
  | @performed name op next response world running free returns =>
      have obeys := orderly.obeys name
      rw [running] at obeys
      obtain ⟨state, obeys, moves⟩ := Op.moves (orderly.fits name)
        ((Program.obeys_perform ..).mp obeys) free returns
      refine ⟨_, orderly.moved moves (others _ _ rfl) ?_⟩
      rw [threadOf]
      exact obeys
  | @raised name op next exception world running raises =>
      have refused := Op.refused_of_error raises
      refine ⟨_, orderly.moved (idle refused.nextId ?_ ?_) (others _ _ rfl) ?_⟩
      · exact fun table => congrFun (refused.bindings table) .id
      · intro other different holds
        have notMine : before.holder ≠ some name := fun mine =>
          different (Option.some.inj (holds.symm.trans mine))
        exact (if_neg notMine).trans holds
      · rw [threadOf]
        exact (Program.obeys_done ..).mpr trivial

end Orderly

/-! ## Lives of a database file -/

theorem Process.Step.dispensed {rows inserted : List Row} {firstId : Nat}
    {before after : Process} (step : before.Step env inserted after)
    (dispensed : before.db.Dispensed rows firstId) :
    after.db.Dispensed (rows ++ inserted) firstId := by
  cases step with
  | call name flow free member => exact dispensed.append []
  | performed running free returns => exact Op.dispensed_of_ok dispensed returns
  | raised running raises =>
      have refused := Op.refused_of_error raises
      exact (dispensed.append []).of_refused refused

theorem Process.Step.firstId {inserted : List Row} {before after : Process}
    (step : before.Step env inserted after) : after.firstId = before.firstId := by
  cases step <;> rfl

private theorem foldl_max_le {keys : List Nat} {start last : Nat} (below : ∀ key ∈ keys, key ≤ last)
    (first : start ≤ last) : keys.foldl max start ≤ last := by
  induction keys generalizing start with
  | nil => exact first
  | cons key keys induction =>
      simp only [List.mem_cons, forall_eq_or_imp] at below
      exact induction below.2 (max_le first below.1)

section Opened

variable {rows : List Row} {firstId : Nat} {durable : Contents}
  (dispensed : durable.Dispensed rows firstId)
include dispensed

theorem Db.opened_nextId_eq :
    (Db.opened durable).nextId = 1000000000 * (durable.sequence + 1) := by
  have runs := foldl_max_le dispensed.keys (Nat.zero_le _)
  have last : (durable.runs ++ [durable.sequence + 1]).foldl max 0 = durable.sequence + 1 := by
    rw [List.foldl_append]
    exact max_eq_right (runs.trans (Nat.le_succ _))
  exact congrArg (1000000000 * ·) last

theorem Db.opened_dispensed :
    (Db.opened durable).Dispensed rows (Db.opened durable).nextId := by
  have contents : (Db.opened durable).contents.Dispensed rows (Db.opened durable).nextId := by
    refine ⟨fun key member => ?_, (Db.opened_nextId_eq dispensed).le, dispensed.rows⟩
    rcases List.mem_append.mp member with old | new
    · exact (dispensed.keys key old).trans (Nat.le_succ _)
    · exact (List.mem_singleton.mp new).le
  refine ⟨contents, fun left last => ?_⟩
  cases last
  exact contents

end Opened

theorem Process.opened_orderly {rows : List Row} {durable : Contents}
    (distinct : (insertedIds rows).Nodup)
    (drawn : ∀ id ∈ insertedIds rows, ∃ number < (Db.opened durable).nextId, id = .nat number) :
    (opened durable).Orderly rows fun _ => .idle := by
  refine ⟨fun name => (Program.obeys_done ..).mpr trivial, fun name => ?_, ?_, distinct, drawn⟩
  · exact ⟨by simp [IdState.idle], by simp [IdState.idle], by simp [IdState.idle],
      by simp [IdState.idle]⟩
  · simp [IdState.idle]

structure Process.Sound (rows : List Row) (process : Process) : Prop where
  dispensed : process.db.Dispensed rows process.firstId
  budget : process.db.nextId < process.firstId + 1000000000
  orderly : ∃ states, process.Orderly rows states

theorem Process.opened_budget (durable : Contents) :
    (opened durable).db.nextId < (opened durable).firstId + 1000000000 :=
  Nat.lt_add_of_pos_right (by decide)

theorem Life.sound {rows : List Row} {process : Process} (life : Life env rows process) :
    process.Sound rows := by
  induction life with
  | start =>
      have empty : Contents.empty.Dispensed [] 0 :=
        ⟨by simp [Contents.empty], Nat.zero_le _, .slnil⟩
      exact ⟨Db.opened_dispensed empty, Process.opened_budget _, _,
        Process.opened_orderly (by simp [insertedIds]) (by simp [insertedIds])⟩
  | step life step budget sound =>
      obtain ⟨states, orderly⟩ := sound.orderly
      have dispensed := step.dispensed sound.dispensed
      rw [← step.firstId] at dispensed
      exact ⟨dispensed, budget, step.orderly orderly⟩
  | @restart rows before left life durable sound =>
      obtain ⟨states, orderly⟩ := sound.orderly
      have dispensed := sound.dispensed.committed _ durable
      refine ⟨Db.opened_dispensed dispensed, Process.opened_budget _, _,
        Process.opened_orderly orderly.distinct fun id member => ?_⟩
      obtain ⟨number, below, equal⟩ := orderly.drawn id member
      have next : before.db.nextId < (Db.opened left).nextId := by
        rw [Db.opened_nextId_eq dispensed]
        have budget := sound.budget
        have first := dispensed.first
        omega
      exact ⟨number, below.trans next, equal⟩

/-- No two rows are ever inserted under the same id, so that an insertion finds its
id unused among the rows the file holds. -/
theorem ids_distinct {rows : List Row} {process : Process} (life : Life env rows process) :
    (insertedIds rows).Nodup ∧
      ∀ inserted after, process.Step env inserted after →
        after.db.nextId < after.firstId + 1000000000 →
        ∀ row ∈ inserted, row.get .id ∉ insertedIds process.db.contents.rows := by
  obtain ⟨states, orderly⟩ := life.sound.orderly
  refine ⟨orderly.distinct, fun inserted after step budget row member held => ?_⟩
  obtain ⟨_, orderly⟩ := (life.step step budget).sound.orderly
  have distinct := orderly.distinct
  rw [insertedIds, List.map_append, List.nodup_append] at distinct
  have earlier : row.get .id ∈ insertedIds rows :=
    (life.sound.dispensed.contents.rows.map _).subset held
  exact distinct.2.2 _ earlier _ (List.mem_map_of_mem member) rfl

/-! ## Execution -/

def Op.locks : Op → Bool
  | lock => true
  | _ => false

namespace Process

inductive Move where
  | put (name : ThreadName) (request : Request) (info : NanoPacket)
  | flush (name : ThreadName)
  /-- The thread performs its next operation, if there is one it need not wait for. -/
  | next (name : ThreadName)
  | restart

def startCall (name : ThreadName) (put : Put Unit) (process : Process) :
    Option (List Row × Process) :=
  match (process.threads name).program with
  | .done _ => some ([], process.setThread name ⟨put, .initial⟩)
  | .perform _ _ => none

variable (env : Environment)

def nextOp (name : ThreadName) (process : Process) : List Row × Process :=
  match (process.threads name).program with
  | .done _ => ([], process)
  | .perform op next =>
      if op.locks ∧ process.holder ≠ none then ([], process)
      else
        match op.answer env ⟨process.db, (process.threads name).flow⟩ with
        | .ok response after =>
            (op.inserted process.db,
              { process with
                db := after.db
                holder := op.holderAfter name process.holder }.setThread name
                  ⟨next response, after.flow⟩)
        | .error _ after =>
            ([],
              { process with
                db := after.db
                holder := released name process.holder }.setThread name ⟨.done (), after.flow⟩)

def perform (process : Process) : Move → Option (List Row × Process)
  | .put name request info => process.startCall name (request.put env info)
  | .flush name => process.startCall name Nanocap.flush
  | .next name => some (process.nextOp env name)
  | .restart => process.db.committed.head?.map fun left => ([], .opened left)

/-- As long as a process draws fewer than a billion ids. -/
def performAll : Process → List Move → Option (List Row × Process)
  | process, [] => some ([], process)
  | process, move :: moves =>
      (process.perform env move).bind fun (rows, next) =>
        if next.db.nextId < next.firstId + 1000000000 then
          (next.performAll moves).map fun (more, after) => (rows ++ more, after)
        else none

end Process

namespace Life

variable {rows inserted : List Row} {before after : Process} (life : Life env rows before)
  (budget : after.db.nextId < after.firstId + 1000000000)
include life

include budget in
theorem startCall {name : ThreadName} {put : Put Unit} (member : MemberFunction env put)
    (starts : before.startCall name put = some (inserted, after)) :
    Life env (rows ++ inserted) after := by
  unfold Process.startCall at starts
  split at starts
  · rename_i idle
    cases starts
    exact life.step (.call name .initial idle member) budget
  · cases starts

include budget in
theorem nextOp (name : ThreadName) (moves : before.nextOp env name = (inserted, after)) :
    Life env (rows ++ inserted) after := by
  have waits : ([], before) = (inserted, after) → Life env (rows ++ inserted) after := by
    rintro ⟨⟩
    rwa [List.append_nil]
  unfold Process.nextOp at moves
  split at moves
  · exact waits moves
  · rename_i op next running
    split at moves
    · exact waits moves
    · rename_i free
      have free : op = .lock → before.holder = none := fun locks =>
        not_not.mp fun held => free ⟨by rw [locks]; rfl, held⟩
      split at moves <;> cases moves <;> rename_i answer
      · exact life.step (.performed running free answer) budget
      · exact life.step (.raised running answer) budget

include budget in
theorem perform {move : Process.Move}
    (performs : before.perform env move = some (inserted, after)) :
    Life env (rows ++ inserted) after := by
  cases move with
  | put name request info => exact life.startCall budget (.put request info) performs
  | flush name => exact life.startCall budget .flush performs
  | next name => exact life.nextOp budget name (Option.some.inj performs)
  | restart =>
      obtain ⟨left, last, same⟩ := Option.map_eq_some_iff.mp performs
      cases same
      rw [List.append_nil]
      exact life.restart last

theorem performAll {moves : List Process.Move}
    (performs : before.performAll env moves = some (inserted, after)) :
    Life env (rows ++ inserted) after := by
  induction moves generalizing rows inserted before with
  | nil =>
      cases performs
      rwa [List.append_nil]
  | cons move moves induction =>
      obtain ⟨⟨first, middle⟩, own, performs⟩ := Option.bind_eq_some_iff.mp performs
      dsimp only at performs
      split at performs
      · rename_i budget
        obtain ⟨⟨more, last⟩, others, same⟩ := Option.map_eq_some_iff.mp performs
        cases same
        rw [← List.append_assoc]
        exact induction (life.perform budget own) others
      · cases performs

end Life

/-- The capture thread stores a connection event while the processing thread stores a
keepalive, the data are flushed, and the process crashes after another event. -/
theorem ids_distinct_restarted :
    ∃ rows process, Life .sample rows process ∧ rows.length = 5 ∧
      process.db.contents.rows.length = 4 ∧ (insertedIds rows).Nodup ∧
      ∀ inserted after, process.Step .sample inserted after →
        after.db.nextId < after.firstId + 1000000000 →
        ∀ row ∈ inserted, row.get .id ∉ insertedIds process.db.contents.rows := by
  let info := NanoPacket.sample []
  let keepalive := Request.keepalive ⟨0, 0, 0, 0, .keepalive, 0⟩
    ⟨some [⟨.zero 16, 7075⟩, ⟨.zero 16, 7076⟩]⟩
  have executed : ((Process.opened .empty).performAll .sample
      ([.put .capture (.connection "open connection") info, .put .processing keepalive info] ++
        (List.replicate 80 [.next .processing, .next .capture]).flatten ++
        [.flush .web] ++ List.replicate 10 (.next .web) ++
        [.put .capture (.connection "close connection") info] ++
        List.replicate 20 (.next .capture) ++ [.restart])).map
      (fun (rows, process) => (rows.length, process.db.contents.rows.length)) = some (5, 4) := by
    decide +kernel
  obtain ⟨⟨rows, process⟩, performs, lengths⟩ := Option.map_eq_some_iff.mp executed
  obtain ⟨inserted, kept⟩ := Prod.mk.inj lengths
  have life : Life .sample rows process := Life.start.performAll performs
  exact ⟨rows, process, life, inserted, kept, ids_distinct life⟩

end Nanocap
