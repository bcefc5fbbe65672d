import Mathlib.Data.Fintype.Card
import Nanocap.Foundation.Transitions

/-! # Scope runners

`ScopeRunner` of `webserver/utility.hpp`. The handlers of the server hold a shared lock
while they run, and its destructor stops the runner first. Any number of threads take
their steps in any order; `compare_exchange_weak` may fail without a reason. -/

namespace Nanocap

/-- Where a thread is in its call of `continue_lock` or `stop`. -/
inductive ScopeState where
  | idle
  /-- In the loop of `continue_lock`. -/
  | continuing (expected : Int)
  /-- With a `SharedLock`. -/
  | locked
  /-- `continue_lock` has returned `nullptr`. -/
  | refused
  /-- In the loop of `stop`. -/
  | stopping
  /-- `stop` has returned. -/
  | stopped
deriving DecidableEq

structure ScopeRunner (Thread : Type) where
  count : Int
  threads : Thread → ScopeState

namespace ScopeRunner

section Steps

variable {Thread : Type} [DecidableEq Thread]

def initial : ScopeRunner Thread := ⟨0, fun _ => .idle⟩

def setThread (runner : ScopeRunner Thread) (name : Thread) (state : ScopeState) :
    ScopeRunner Thread :=
  { runner with threads := Function.update runner.threads name state }

/-- One step of a thread. The failing exchange loads the count. -/
inductive Step (before : ScopeRunner Thread) : Thread → ScopeRunner Thread → Prop where
  | load {name : Thread} : before.threads name = .idle →
      Step before name (before.setThread name (.continuing before.count))
  | exchange {name : Thread} {expected : Int} : before.threads name = .continuing expected →
      0 ≤ expected → before.count = expected →
      Step before name { before.setThread name .locked with count := expected + 1 }
  | fail {name : Thread} {expected : Int} : before.threads name = .continuing expected →
      0 ≤ expected → Step before name (before.setThread name (.continuing before.count))
  | refuse {name : Thread} {expected : Int} : before.threads name = .continuing expected →
      expected < 0 → Step before name (before.setThread name .refused)
  | release {name : Thread} : before.threads name = .locked →
      Step before name { before.setThread name .idle with count := before.count - 1 }
  | leave {name : Thread} : before.threads name = .refused →
      Step before name (before.setThread name .idle)
  | stop {name : Thread} : before.threads name = .idle →
      Step before name (before.setThread name .stopping)
  | stopExchange {name : Thread} : before.threads name = .stopping → before.count = 0 →
      Step before name { before.setThread name .stopped with count := -1 }
  | stopFail {name : Thread} : before.threads name = .stopping → 0 ≤ before.count →
      Step before name before
  | stopOther {name : Thread} : before.threads name = .stopping → before.count < 0 →
      Step before name (before.setThread name .stopped)
  | returns {name : Thread} : before.threads name = .stopped →
      Step before name (before.setThread name .idle)

end Steps

section Locks

variable {Thread : Type} [Fintype Thread]

def locks (runner : ScopeRunner Thread) : Finset Thread :=
  Finset.univ.filter fun name => runner.threads name = .locked

theorem mem_locks {runner : ScopeRunner Thread} {name : Thread} :
    name ∈ runner.locks ↔ runner.threads name = .locked := by
  simp [locks]

theorem locks_eq_empty_iff {runner : ScopeRunner Thread} :
    runner.locks = ∅ ↔ ∀ name, runner.threads name ≠ .locked := by
  simp [Finset.eq_empty_iff_forall_notMem, mem_locks]

variable [DecidableEq Thread]

theorem locks_setThread (runner : ScopeRunner Thread) (name : Thread) (state : ScopeState) :
    (runner.setThread name state).locks =
      if state = .locked then insert name runner.locks else runner.locks.erase name := by
  ext other
  rw [mem_locks, setThread]
  by_cases same : other = name
  · subst same
    by_cases locked : state = .locked <;> simp [locked]
  · by_cases locked : state = .locked <;> simp [locked, same, mem_locks]

theorem locks_of_ne {runner : ScopeRunner Thread} {name : Thread} {state : ScopeState}
    (before : runner.threads name ≠ .locked) (after : state ≠ .locked) :
    (runner.setThread name state).locks = runner.locks := by
  rw [locks_setThread, if_neg after, Finset.erase_eq_of_notMem (mt mem_locks.mp before)]

/-! ## The invariant -/

/-- The count is that of the locks, or -1 when there are none and there will be none.
A thread that has come out of `stop` has seen to that. -/
structure Counted (runner : ScopeRunner Thread) : Prop where
  count : runner.count = runner.locks.card ∨ runner.count = -1 ∧ runner.locks = ∅
  stopped : ∀ name, runner.threads name = .stopped → runner.count = -1

theorem Counted.locks_eq_empty {runner : ScopeRunner Thread} (counted : runner.Counted)
    (closed : runner.count = -1) : runner.locks = ∅ := by
  rcases counted.count with locks | closed
  · omega
  · exact closed.2

theorem Counted.setThread {runner : ScopeRunner Thread} (counted : runner.Counted) {name : Thread}
    {state : ScopeState} (before : runner.threads name ≠ .locked) (after : state ≠ .locked)
    (stopped : state = .stopped → runner.count = -1) : (runner.setThread name state).Counted := by
  have locks := locks_of_ne before after
  refine ⟨?_, fun other isStopped => ?_⟩
  · rw [locks]
    exact counted.count
  · by_cases same : other = name
    · subst same
      exact stopped (by simpa [ScopeRunner.setThread] using isStopped)
    · refine counted.stopped other ?_
      simpa [ScopeRunner.setThread, same] using isStopped

theorem Step.counted {before after : ScopeRunner Thread} {name : Thread}
    (step : Step before name after) (counted : before.Counted) : after.Counted := by
  -- nobody is out of `stop` while the count is not -1
  have others (state : ScopeState) (count : Int) (noStop : state ≠ .stopped)
      (running : before.count ≠ -1) : ∀ other,
      ({ before.setThread name state with count } : ScopeRunner Thread).threads other = .stopped →
        count = -1 := by
    intro other isStopped
    by_cases same : other = name
    · subst same
      exact absurd (by simpa [ScopeRunner.setThread] using isStopped) noStop
    · refine absurd (counted.stopped other ?_) running
      simpa [ScopeRunner.setThread, same] using isStopped
  cases step with
  | load idle => exact counted.setThread (by simp [idle]) (by simp) (by simp)
  | @exchange expected continuing open_ reads =>
      have running : before.count ≠ -1 := by omega
      have locks := counted.count.resolve_right fun closed => running closed.1
      have mine : name ∉ before.locks := by simp [mem_locks, continuing]
      refine ⟨.inl ?_, others .locked _ (by simp) running⟩
      change expected + 1 = ((before.setThread name .locked).locks.card : Int)
      rw [locks_setThread, if_pos rfl, Finset.card_insert_of_notMem mine]
      omega
  | fail continuing open_ => exact counted.setThread (by simp [continuing]) (by simp) (by simp)
  | refuse continuing closed => exact counted.setThread (by simp [continuing]) (by simp) (by simp)
  | release locked =>
      have mine : name ∈ before.locks := mem_locks.mpr locked
      have some := Finset.card_pos.mpr ⟨name, mine⟩
      have locks := counted.count.resolve_right fun closed =>
        Finset.notMem_empty name (closed.2 ▸ mine)
      refine ⟨.inl ?_, others .idle _ (by simp) (by omega)⟩
      change before.count - 1 = ((before.setThread name .idle).locks.card : Int)
      rw [locks_setThread, if_neg (by simp), Finset.card_erase_of_mem mine]
      omega
  | leave refused => exact counted.setThread (by simp [refused]) (by simp) (by simp)
  | stop idle => exact counted.setThread (by simp [idle]) (by simp) (by simp)
  | stopExchange stopping free =>
      have locks := counted.count.resolve_right fun closed => by omega
      have none : before.locks = ∅ := Finset.card_eq_zero.mp (by omega)
      refine ⟨.inr ⟨rfl, ?_⟩, fun _ _ => rfl⟩
      change (before.setThread name .stopped).locks = ∅
      rw [locks_of_ne (by simp [stopping]) (by simp), none]
  | stopFail stopping open_ => exact counted
  | stopOther stopping closed =>
      have locks := counted.count.resolve_left (by omega)
      exact counted.setThread (by simp [stopping]) (by simp) fun _ => locks.1
  | returns stopped => exact counted.setThread (by simp [stopped]) (by simp) (by simp)

/-- Nothing changes the count any more once it is -1. -/
theorem Step.closed {before after : ScopeRunner Thread} {name : Thread}
    (step : Step before name after) (counted : before.Counted) (closed : before.count = -1) :
    after.count = -1 := by
  cases step with
  | exchange continuing open_ reads => omega
  | stopExchange stopping free => rfl
  | release locked =>
      have none := counted.locks_eq_empty closed
      exact absurd (mem_locks.mpr locked) (none ▸ Finset.notMem_empty name)
  | load | fail | refuse | leave | stop | stopFail | stopOther | returns => exact closed

omit [DecidableEq Thread] in
private theorem initial_counted : (initial : ScopeRunner Thread).Counted := by
  have none : (initial : ScopeRunner Thread).locks = ∅ :=
    locks_eq_empty_iff.mpr fun name => by simp [initial]
  refine ⟨.inl ?_, fun name stopped => by simp [initial] at stopped⟩
  rw [none]
  rfl

/-! ## Runs -/

section Runs

variable {names later : List Thread} {runner after : ScopeRunner Thread} {name : Thread}
  (run : Transitions Step initial names runner)
include run

theorem counted : runner.Counted :=
  run.invariant (fun step counted => step.counted counted) initial_counted

/-- A call of `stop` can return when no thread has a lock, and not before. -/
theorem stop_returns_iff (stopping : runner.threads name = .stopping) :
    (∃ after, Step runner name after ∧ after.threads name = .stopped) ↔
      ∀ other, runner.threads other ≠ .locked := by
  have counted := counted run
  rw [← locks_eq_empty_iff]
  constructor
  · rintro ⟨after, step, stopped⟩
    cases step with
    | stopExchange _ free =>
        have locks := counted.count.resolve_right fun closed => by omega
        exact Finset.card_eq_zero.mp (by omega)
    | stopOther _ closed => exact (counted.count.resolve_left (by omega)).2
    | stopFail _ _ => cases stopping.symm.trans stopped
    | load state | leave state | stop state | release state | returns state =>
        cases stopping.symm.trans state
    | exchange state _ _ => cases stopping.symm.trans state
    | fail state _ | refuse state _ => cases stopping.symm.trans state
  · intro none
    have state (count : Int) : ({ runner.setThread name .stopped with count } :
        ScopeRunner Thread).threads name = .stopped := Function.update_self ..
    rcases counted.count with locks | closed
    · refine ⟨_, .stopExchange stopping ?_, state _⟩
      rw [locks, none]
      rfl
    · exact ⟨_, .stopOther stopping (by omega), state _⟩

/-- Once a call of `stop` has returned, no thread ever has a lock. -/
theorem stop_excludes (stopped : runner.threads name = .stopped)
    (rest : Transitions Step runner later after) (other : Thread) :
    after.threads other ≠ .locked := by
  have closed : after.Counted ∧ after.count = -1 :=
    @Transitions.invariant _ _ Step _ _ _ rest
      (fun runner : ScopeRunner Thread => runner.Counted ∧ runner.count = -1)
      (fun step kept => ⟨step.counted kept.1, step.closed kept.1 kept.2⟩)
      ⟨counted run, (counted run).stopped name stopped⟩
  exact locks_eq_empty_iff.mp (closed.1.locks_eq_empty closed.2) other

end Runs

end Locks

/-- A handler takes a lock, and the destructor waits. -/
theorem stop_returns_iff_handler :
    ∃ runner : ScopeRunner Bool, runner.threads false = .locked ∧
      ((∃ after, Step runner true after ∧ after.threads true = .stopped) ↔
        ∀ other, runner.threads other ≠ .locked) := by
  let loaded : ScopeRunner Bool := initial.setThread false (.continuing 0)
  let locked : ScopeRunner Bool := { loaded.setThread false .locked with count := 0 + 1 }
  have loads : Step initial false loaded := .load rfl
  have locks : Step loaded false locked := .exchange rfl (Int.le_refl 0) rfl
  have stops : Step locked true (locked.setThread true .stopping) := .stop rfl
  have run := Transitions.cons loads (.cons locks (.cons stops (.nil _)))
  exact ⟨_, rfl, stop_returns_iff run rfl⟩

/-- The destructor comes first, and a handler is refused. -/
theorem stop_excludes_handler :
    ∃ runner after : ScopeRunner Bool, runner.threads true = .stopped ∧
      after.threads false = .refused ∧ after.threads false ≠ .locked := by
  let stopping : ScopeRunner Bool := initial.setThread true .stopping
  let stopped : ScopeRunner Bool := { stopping.setThread true .stopped with count := -1 }
  let loaded : ScopeRunner Bool := stopped.setThread false (.continuing (-1))
  have stops : Step initial true stopping := .stop rfl
  have closes : Step stopping true stopped := .stopExchange rfl rfl
  have loads : Step stopped false loaded := .load rfl
  have refuses : Step loaded false (loaded.setThread false .refused) :=
    @Step.refuse Bool _ loaded false (-1) rfl (by decide)
  have run := Transitions.cons stops (.cons closes (.nil _))
  have rest := Transitions.cons loads (.cons refuses (.nil _))
  exact ⟨stopped, _, rfl, rfl, @stop_excludes Bool _ _ _ _ _ _ true run rfl rest false⟩

end ScopeRunner

end Nanocap
