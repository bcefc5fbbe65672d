import Nanocap.Database.Sections
import Nanocap.Database.Threads

/-! # Crashes

Three threads store messages, one operation at a time and in any order. Any operation
may throw but a `BEGIN`, and no refusal undoes the open transaction. Whenever the process
crashes, the file holds everything or nothing of what was inserted under one hold of the
lock. -/

namespace Nanocap

/-! ## Histories -/

/-- One step of a process that captures, with the row it inserts. Two exceptions are left
out: after a refused `BEGIN`, and after a refusal that makes SQLite roll back, statements
commit on their own. -/
inductive Process.CaptureStep (env : Environment) (before : Process) :
    List Row → Process → Prop where
  | call (name : ThreadName) {put : Put Unit} (flow : TcpFlowData) :
      (before.threads name).program = .done () → CaptureFunction env put →
      CaptureStep env before [] (before.setThread name ⟨put, flow⟩)
  | performed {name : ThreadName} {op : Op} {next : op.Response → Put Unit}
      {response : op.Response} {after : World} :
      (before.threads name).program = .perform op next →
      (op = .lock → before.holder = none) →
      op.answer env ⟨before.db, (before.threads name).flow⟩ = .ok response after →
      CaptureStep env before (op.inserted before.db)
        ({ before with
          db := after.db
          holder := op.holderAfter name before.holder }.setThread name
            ⟨next response, after.flow⟩)
  | raised {name : ThreadName} {op : Op} {next : op.Response → Put Unit}
      {exception : Exception} {after : World} :
      (before.threads name).program = .perform op next →
      op ≠ .beginTransaction →
      op.answer env ⟨before.db, (before.threads name).flow⟩ = .error exception after →
      after.db.inTransaction = before.db.inTransaction →
      CaptureStep env before []
        ({ before with
          db := after.db
          holder := released name before.holder }.setThread name ⟨.done (), after.flow⟩)

/-- What a process has inserted since it opened the file: the rows of every hold of the
lock that has ended, and those of the current one. -/
inductive History (env : Environment) (durable : Contents) :
    List (List Row) → List Row → Process → Prop where
  | start : History env durable [] [] (.opened durable)
  | step {sections : List (List Row)} {current inserted : List Row} {before after : Process} :
      History env durable sections current before → before.CaptureStep env inserted after →
      (before.holder = none ∨ after.holder ≠ none) →
      History env durable sections (current ++ inserted) after
  | release {sections : List (List Row)} {current inserted : List Row} {before after : Process} :
      History env durable sections current before → before.CaptureStep env inserted after →
      before.holder ≠ none → after.holder = none →
      History env durable (sections ++ [current ++ inserted]) [] after

/-! ## The invariant -/

def Contents.Holds (durable : Contents) (sections : List (List Row)) (contents : Contents) :
    Prop :=
  ∃ whole, whole <+: sections ∧ contents.rows = durable.rows ++ whole.flatten

/-- The threads keep to the discipline, and a commit finds whole sections only. -/
structure Process.Sectioned (durable : Contents) (sections : List (List Row))
    (current : List Row) (process : Process) (states : ThreadName → SectionState) : Prop where
  obeys : ∀ name, (process.threads name).program.Obeys sectionRule (states name)
    fun _ state => state = .outside
  holder : ∀ name, states name ≠ .outside → process.holder = some name
  rows : process.db.contents.rows = durable.rows ++ sections.flatten ++ current
  written : current ≠ [] → process.holder = none ∨ ∃ name, states name = .written
  between : process.db.inTransaction = false → ∃ name, states name = .between
  committed : ∀ left ∈ process.db.committed, durable.Holds sections left

theorem Contents.Holds.append {durable contents : Contents} {sections : List (List Row)}
    (holds : durable.Holds sections contents) (more : List (List Row)) :
    durable.Holds (sections ++ more) contents := by
  obtain ⟨whole, first, rows⟩ := holds
  exact ⟨whole, first.trans (List.prefix_append _ _), rows⟩

private theorem Db.Refused.contents_of_same {before after : Db} (refused : before.Refused after)
    (same : after.inTransaction = before.inTransaction) : after.contents = before.contents :=
  refused.contents.resolve_right fun undone => undone.1 same

private theorem sectionRule_ne_between {op : Op} {state : SectionState}
    {rest : op.Response → SectionState → Prop} (rule : sectionRule op state rest)
    (notBegin : op ≠ .beginTransaction) : state ≠ .between := by
  cases op with
  | beginTransaction => exact absurd rfl notBegin
  | deleteFrom | deleteRuns | insertRun => exact rule.elim
  | unlock | exec => exact rule.1.ne
  | lock | commit => simp [rule.1]
  | _ => exact rule.1

section Sectioned

variable {env : Environment} {durable : Contents} {sections : List (List Row)}
  {current : List Row} {before : Process} {states : ThreadName → SectionState}
  (sectioned : before.Sectioned durable sections current states) {name : ThreadName}
include sectioned

theorem Process.Sectioned.alone {other : ThreadName} (inside : states name ≠ .outside)
    (inside' : states other ≠ .outside) : other = name :=
  Option.some.inj ((sectioned.holder other inside').symm.trans (sectioned.holder name inside))

theorem Process.Sectioned.inTransaction (opened : (states name).Open) :
    before.db.inTransaction = true := by
  by_contra none
  obtain ⟨other, between⟩ := sectioned.between (Bool.eq_false_iff.mpr none)
  have inside' : states other ≠ .outside := by simp [between]
  obtain rfl := sectioned.alone opened.ne_outside inside'
  exact opened.ne between

theorem Process.Sectioned.current_eq_nil (inside : states name ≠ .outside)
    (fresh : states name ≠ .written) : current = [] := by
  by_contra some
  rcases sectioned.written some with free | ⟨other, written⟩
  · rw [sectioned.holder name inside] at free
    cases free
  · have inside' : states other ≠ .outside := by simp [written]
    obtain rfl := sectioned.alone inside inside'
    exact fresh written

theorem Process.Sectioned.outside (free : before.holder = none) (other : ThreadName) :
    states other = .outside := by
  by_contra inside
  rw [sectioned.holder other inside] at free
  cases free

theorem Process.Sectioned.obeys_update {next : SectionState} {thread : Thread}
    (obeys : thread.program.Obeys sectionRule next fun _ state => state = .outside)
    (other : ThreadName) :
    ((Function.update before.threads name thread other).program).Obeys sectionRule
      (Function.update states name next other) fun _ state => state = .outside := by
  by_cases same : other = name
  · subst same
    rw [Function.update_self, Function.update_self]
    exact obeys
  · rw [Function.update_of_ne same, Function.update_of_ne same]
    exact sectioned.obeys other

theorem Process.Sectioned.holder_update (inside : states name ≠ .outside) (next : SectionState)
    (other : ThreadName) (inside' : Function.update states name next other ≠ .outside) :
    before.holder = some other := by
  by_cases same : other = name
  · subst same
    exact sectioned.holder other inside
  · rw [Function.update_of_ne same] at inside'
    exact sectioned.holder other inside'

theorem Process.Sectioned.unchanged {db : Db} {thread : Thread}
    (obeys : thread.program.Obeys sectionRule (states name) fun _ state => state = .outside)
    (contents : db.contents = before.db.contents) (committed : db.committed = before.db.committed)
    (transaction : db.inTransaction = before.db.inTransaction) :
    ({ before with db }.setThread name thread).Sectioned durable sections (current ++ [])
      (Function.update states name (states name)) := by
  have all := @obeys_update durable sections current before states sectioned name _ thread obeys
  rw [Function.update_eq_self] at all ⊢
  rw [List.append_nil]
  refine ⟨all, sectioned.holder, ?_, sectioned.written, fun none => ?_, fun left member => ?_⟩
  · rw [Process.setThread_db, contents]
    exact sectioned.rows
  · rw [Process.setThread_db, transaction] at none
    exact sectioned.between none
  · rw [Process.setThread_db, committed] at member
    exact sectioned.committed left member

section Operations

variable {thread : Thread}

theorem Process.Sectioned.locked (free : before.holder = none) (empty : current = [])
    (obeys : thread.program.Obeys sectionRule .fresh fun _ state => state = .outside) :
    ({ before with holder := some name }.setThread name thread).Sectioned durable sections
      (current ++ []) (Function.update states name .fresh) := by
  refine ⟨sectioned.obeys_update obeys, fun other inside => ?_, ?_, fun some => ?_,
    fun none => ?_, sectioned.committed⟩
  · by_cases same : other = name
    · rw [same]
      rfl
    · rw [Function.update_of_ne same] at inside
      exact absurd (sectioned.outside free other) inside
  · rw [List.append_nil]
    exact sectioned.rows
  · rw [List.append_nil, empty] at some
    exact absurd rfl some
  · obtain ⟨other, between⟩ := sectioned.between none
    rw [sectioned.outside free] at between
    cases between

theorem Process.Sectioned.unlocked (opened : (states name).Open)
    (obeys : thread.program.Obeys sectionRule .outside fun _ state => state = .outside) :
    ({ before with holder := released name before.holder }.setThread name thread).Sectioned
      durable sections (current ++ []) (Function.update states name .outside) := by
  have held := sectioned.holder name opened.ne_outside
  have free : released name before.holder = none := by rw [held, released, if_pos rfl]
  refine ⟨sectioned.obeys_update obeys, fun other inside => ?_, ?_, fun _ => .inl free,
    fun none => ?_, sectioned.committed⟩
  · by_cases same : other = name
    · rw [same, Function.update_self] at inside
      exact absurd rfl inside
    · rw [Function.update_of_ne same] at inside
      exact absurd (sectioned.alone opened.ne_outside inside) same
  · rw [List.append_nil]
    exact sectioned.rows
  · exact absurd ((sectioned.inTransaction opened).symm.trans none) (by decide)

theorem Process.Sectioned.inserted (table : Table) (opened : (states name).Open)
    (obeys : thread.program.Obeys sectionRule .written fun _ state => state = .outside) :
    ({ before with db := before.db.insert table }.setThread name thread).Sectioned durable
      sections (current ++ (Op.exec table).inserted before.db)
      (Function.update states name .written) := by
  have transaction := sectioned.inTransaction opened
  refine ⟨sectioned.obeys_update obeys, sectioned.holder_update opened.ne_outside _, ?_,
    fun _ => .inr ⟨name, Function.update_self ..⟩, fun none => ?_, fun left member => ?_⟩
  · have rows := sectioned.rows
    rw [← List.append_assoc, ← rows]
    rfl
  · exact absurd (transaction.symm.trans none) (by decide)
  · rw [Process.setThread_db, Db.insert_committed _ _ transaction] at member
    exact sectioned.committed left member

private theorem Process.Sectioned.committing {executed : Nat} (fresh : states name = .fresh)
    (obeys : thread.program.Obeys sectionRule .between fun _ state => state = .outside) :
    ({ before with
      db.inTransaction := false
      db.committed := before.db.contents :: before.db.committed
      db.executed := executed }.setThread name thread).Sectioned durable sections
      (current ++ []) (Function.update states name .between) := by
  have inside : states name ≠ .outside := by simp [fresh]
  obtain rfl := sectioned.current_eq_nil inside (by simp [fresh])
  refine ⟨sectioned.obeys_update obeys, sectioned.holder_update inside _, sectioned.rows,
    fun some => absurd rfl some, fun _ => ⟨name, Function.update_self ..⟩, fun left member => ?_⟩
  rcases List.mem_cons.mp member with rfl | earlier
  · have rows := sectioned.rows
    rw [List.append_nil] at rows
    exact ⟨sections, List.prefix_refl _, rows⟩
  · exact sectioned.committed left earlier

private theorem Process.Sectioned.began {executed : Nat} (between : states name = .between)
    (obeys : thread.program.Obeys sectionRule .fresh fun _ state => state = .outside) :
    ({ before with db.inTransaction := true, db.executed := executed }.setThread name
      thread).Sectioned durable sections (current ++ []) (Function.update states name .fresh) := by
  have inside : states name ≠ .outside := by simp [between]
  refine ⟨sectioned.obeys_update obeys, sectioned.holder_update inside _, ?_, fun some => ?_,
    fun none => Bool.noConfusion none, sectioned.committed⟩
  · rw [List.append_nil]
    exact sectioned.rows
  · rw [List.append_nil] at some
    exact absurd (sectioned.current_eq_nil inside (by simp [between])) some

end Operations

theorem Process.Sectioned.ended {db : Db} {flow : TcpFlowData}
    (inTransaction : states name ≠ .between) (refused : before.db.Refused db)
    (transaction : db.inTransaction = before.db.inTransaction) :
    ({ before with db, holder := released name before.holder }.setThread name
      ⟨.done (), flow⟩).Sectioned durable sections (current ++ [])
      (Function.update states name .outside) := by
  have done : (Program.done () : Put Unit).Obeys sectionRule .outside fun _ state =>
    state = .outside := (Program.obeys_done ..).mpr rfl
  refine ⟨sectioned.obeys_update done, fun other inside => ?_, ?_, fun some => ?_, fun none => ?_,
    fun left member => ?_⟩
  · by_cases same : other = name
    · rw [same, Function.update_self] at inside
      exact absurd rfl inside
    · rw [Function.update_of_ne same] at inside
      have held := sectioned.holder other inside
      have notMine : before.holder ≠ some name := fun mine =>
        same (Option.some.inj (held.symm.trans mine))
      exact (if_neg notMine).trans held
  · rw [List.append_nil, Process.setThread_db, refused.contents_of_same transaction]
    exact sectioned.rows
  · rw [List.append_nil] at some
    rcases sectioned.written some with free | ⟨other, written⟩
    · refine .inl ?_
      change released name before.holder = none
      rw [free]
      exact if_neg (by simp)
    · by_cases same : other = name
      · have inside : states other ≠ .outside := by simp [written]
        exact .inl (if_pos (same ▸ sectioned.holder other inside))
      · exact .inr ⟨other, by rw [Function.update_of_ne same, written]⟩
  · rw [Process.setThread_db, transaction] at none
    obtain ⟨other, between⟩ := sectioned.between none
    have different : other ≠ name := fun same => inTransaction (same ▸ between)
    exact ⟨other, by rw [Function.update_of_ne different, between]⟩
  · rw [Process.setThread_db, refused.committed] at member
    exact sectioned.committed left member

section Steps

variable (empty : before.holder = none → current = [])
include empty

theorem Op.keepsSections {op : Op} {flow : TcpFlowData} {response : op.Response} {world : World}
    {thread : Thread} {rest : op.Response → SectionState → Prop}
    (obeys : ∀ next, rest response next →
      thread.program.Obeys sectionRule next fun _ state => state = .outside)
    (rule : sectionRule op (states name) rest) (free : op = .lock → before.holder = none)
    (returns : op.answer env ⟨before.db, flow⟩ = .ok response world) :
    ∃ next, ({ before with db := world.db, holder := op.holderAfter name before.holder }.setThread
        name thread).Sectioned durable sections (current ++ op.inserted before.db)
        (Function.update states name next) ∧
      (before.holder = none → op.inserted before.db = []) := by
  cases op with
  | lock =>
      cases returns
      have open_ := free rfl
      exact ⟨_, sectioned.locked open_ (empty open_) (obeys _ rule.2), fun _ => rfl⟩
  | unlock =>
      cases returns
      exact ⟨_, sectioned.unlocked rule.1 (obeys _ rule.2), fun _ => rfl⟩
  | exec table =>
      simp only [answer] at returns
      split at returns
      · cases returns
      · cases accepted_of_execution returns
        obtain ⟨opened, next⟩ := rule
        refine ⟨_, sectioned.inserted table opened (obeys _ next), fun unheld => ?_⟩
        rw [sectioned.holder name opened.ne_outside] at unheld
        cases unheld
  | commit =>
      simp only [answer] at returns
      split at returns
      · cases accepted_of_execution returns
        exact ⟨_, sectioned.committing rule.1 (obeys _ rule.2), fun _ => rfl⟩
      · cases returns
  | beginTransaction =>
      cases accepted_of_execution returns
      exact ⟨_, sectioned.began rule.1 (obeys _ rule.2), fun _ => rfl⟩
  | deleteFrom | deleteRuns | insertRun => exact rule.elim
  | fetchAdd | nextId | clearBindings | reset | setMaxReached | countType | readFlow
  | setPacketId | setMessageId | addInvalidResponse | clearCounts =>
      cases returns
      exact ⟨_, sectioned.unchanged (obeys _ (rule.2 _)) rfl rfl rfl, fun _ => rfl⟩
  | bind table parameter value =>
      simp only [answer] at returns
      split at returns
      · cases returns
        exact ⟨_, sectioned.unchanged (obeys _ (rule.2 _)) rfl rfl rfl, fun _ => rfl⟩
      · cases returns
  | pageSize | pageCount =>
      cases accepted_of_execution returns
      exact ⟨_, sectioned.unchanged (obeys _ (rule.2 _)) rfl rfl rfl, fun _ => rfl⟩

theorem Process.CaptureStep.keepsSections {inserted : List Row} {after : Process}
    (step : before.CaptureStep env inserted after) :
    ∃ states, after.Sectioned durable sections (current ++ inserted) states ∧
      (before.holder = none → inserted = []) := by
  cases step with
  | @call name put flow idle captures =>
      have outside := sectioned.obeys name
      rw [idle, Program.obeys_done] at outside
      have whole : put.Obeys sectionRule (states name) fun _ state => state = .outside := by
        rw [outside]
        exact captures.whole
      exact ⟨_, @Sectioned.unchanged _ _ _ _ _ sectioned name before.db ⟨_, flow⟩ whole rfl rfl rfl,
        fun _ => rfl⟩
  | @performed name op next response world running free returns =>
      have obeys := sectioned.obeys name
      rw [running] at obeys
      obtain ⟨state, keeps, nothing⟩ := @Op.keepsSections env _ _ _ _ _ sectioned name empty op _
        response world ⟨next response, world.flow⟩ _ (fun _ holds => by exact holds)
        ((Program.obeys_perform ..).mp obeys) free returns
      exact ⟨_, keeps, nothing⟩
  | @raised name op next exception world running notBegin raises transaction =>
      have obeys := sectioned.obeys name
      rw [running] at obeys
      have inTransaction := sectionRule_ne_between ((Program.obeys_perform ..).mp obeys) notBegin
      exact ⟨_, sectioned.ended inTransaction (Op.refused_of_error raises) transaction,
        fun _ => rfl⟩

end Steps

end Sectioned

/-! ## Runs -/

section Runs

variable {env : Environment} {durable : Contents} {sections : List (List Row)}
  {current : List Row} {process : Process}

private theorem Process.opened_sectioned (durable : Contents) :
    (opened durable).Sectioned durable [] [] fun _ => .outside := by
  refine ⟨fun name => (Program.obeys_done ..).mpr rfl, fun name inside => absurd rfl inside, ?_,
    fun some => absurd rfl some, fun none => Bool.noConfusion none, fun left member => ?_⟩
  · exact (List.append_nil _).symm.trans (List.append_nil _).symm
  · refine ⟨[], List.prefix_refl _, ?_⟩
    rcases List.mem_cons.mp member with rfl | member
    · exact (List.append_nil _).symm
    · rw [List.mem_singleton.mp member]
      exact (List.append_nil _).symm

theorem History.sectioned (history : History env durable sections current process) :
    (∃ states, process.Sectioned durable sections current states) ∧
      (process.holder = none → current = []) := by
  induction history with
  | start => exact ⟨⟨_, Process.opened_sectioned durable⟩, fun _ => rfl⟩
  | @step sections current inserted before after history step held induction =>
      obtain ⟨⟨states, sectioned⟩, empty⟩ := induction
      obtain ⟨next, keeps, nothing⟩ := step.keepsSections sectioned empty
      refine ⟨⟨next, keeps⟩, fun free => ?_⟩
      have before := held.resolve_right fun holds => holds free
      rw [empty before, nothing before]
      rfl
  | @release sections current inserted before after history step held free induction =>
      obtain ⟨⟨states, sectioned⟩, empty⟩ := induction
      obtain ⟨next, keeps, -⟩ := step.keepsSections sectioned empty
      refine ⟨⟨next, keeps.obeys, keeps.holder, ?_, fun some => absurd rfl some, keeps.between,
        fun left member => (keeps.committed left member).append _⟩, fun _ => rfl⟩
      rw [keeps.rows, List.flatten_append, List.append_nil, List.flatten_singleton,
        List.append_assoc]

/-- What a crash leaves is the file as it was opened and the first sections, each of them
whole; what it loses is the sections after them and the current one. -/
theorem crash_keeps_sections_whole (history : History env durable sections current process)
    {left : Contents} (member : left ∈ process.db.committed) :
    ∃ whole lost, sections = whole ++ lost ∧ left.rows = durable.rows ++ whole.flatten ∧
      process.db.contents.rows = left.rows ++ lost.flatten ++ current := by
  obtain ⟨⟨states, sectioned⟩, -⟩ := history.sectioned
  obtain ⟨whole, ⟨lost, rfl⟩, rows⟩ := sectioned.committed left member
  refine ⟨whole, lost, rfl, rows, ?_⟩
  rw [sectioned.rows, rows, List.flatten_append, ← List.append_assoc]

theorem History.turn {before : Process} (history : History env durable sections current before)
    (name : ThreadName) {op : Op} {next : op.Response → Put Unit} {response : op.Response}
    {after : World} (running : (before.threads name).program = .perform op next)
    (free : before.holder = none ∨ op ≠ .lock)
    (held : before.holder = none ∨ op.holderAfter name before.holder ≠ none)
    (returns : op.answer env ⟨before.db, (before.threads name).flow⟩ = .ok response after) :
    History env durable sections (current ++ op.inserted before.db)
      ({ before with
        db := after.db
        holder := op.holderAfter name before.holder }.setThread name ⟨next response, after.flow⟩) :=
  history.step (.performed running (fun locks => free.resolve_right (absurd locks)) returns) held

theorem History.unlocked {before : Process} (history : History env durable sections current before)
    {name : ThreadName} {next : Unit → Put Unit}
    (running : (before.threads name).program = .perform .unlock next)
    (held : before.holder = some name) :
    History env durable (sections ++ [current ++ []]) []
      ({ before with holder := released name before.holder }.setThread name
        ⟨next (), (before.threads name).flow⟩) := by
  refine history.release (.performed running (fun locks => Op.noConfusion locks) rfl) ?_ ?_
  · simp [held]
  · exact if_pos held

end Runs

/-- The capture thread stores a connection event, which a crash loses as a whole. -/
theorem crash_keeps_sections_whole_connection :
    ∃ row process, History .sample .empty [[row]] [] process ∧
      ∃ left ∈ process.db.committed, ∃ whole lost, [[row]] = whole ++ lost ∧
        left.rows = Contents.empty.rows ++ whole.flatten ∧
        process.db.contents.rows = left.rows ++ lost.flatten ++ [] := by
  have started : History .sample .empty [] [] (.opened .empty) := .start
  have called := started.step (.call .capture .initial rfl
    (.put (.connection "open connection") (.sample []))) (.inl rfl)
  have locked := called.turn .capture rfl (.inl rfl) (.inl rfl) rfl
  have drawn := locked.turn .capture rfl (.inr nofun) (.inr nofun) rfl
  have id := drawn.turn .capture rfl (.inr nofun) (.inr nofun) rfl
  have ipv := id.turn .capture rfl (.inr nofun) (.inr nofun) rfl
  have srcip := ipv.turn .capture rfl (.inr nofun) (.inr nofun) rfl
  have srcport := srcip.turn .capture rfl (.inr nofun) (.inr nofun) rfl
  have dstip := srcport.turn .capture rfl (.inr nofun) (.inr nofun) rfl
  have dstport := dstip.turn .capture rfl (.inr nofun) (.inr nofun) rfl
  have flowkey := dstport.turn .capture rfl (.inr nofun) (.inr nofun) rfl
  have event := flowkey.turn .capture rfl (.inr nofun) (.inr nofun) rfl
  have stored := event.turn .capture rfl (.inr nofun) (.inr nofun) rfl
  have reset := stored.turn .capture rfl (.inr nofun) (.inr nofun) rfl
  have unlocked := @History.unlocked _ _ _ _ _ reset .capture _ rfl rfl
  have opened : ∃ left, left ∈ (Process.opened .empty).db.committed := ⟨_, List.mem_cons_self⟩
  obtain ⟨left, member⟩ := opened
  exact ⟨_, _, unlocked, left, member, crash_keeps_sections_whole unlocked member⟩

end Nanocap
