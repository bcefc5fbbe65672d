import Mathlib.Data.List.Basic
import Mathlib.Data.List.Induction

/-! # Labelled transitions

Runs of a step relation whose steps carry labels, the rule for invariants, and the
accounts of systems that hand items on in the order they come in. -/

namespace Nanocap

variable {State Label Item : Type}

inductive Transitions (step : State → Label → State → Prop) : State → List Label → State → Prop
  | nil (state : State) : Transitions step state [] state
  | cons {before middle after : State} {label : Label} {labels : List Label} :
      step before label middle → Transitions step middle labels after →
      Transitions step before (label :: labels) after

namespace Transitions

variable {step : State → Label → State → Prop} {before after : State} {labels : List Label}

theorem keeps (run : Transitions step before labels after) {kept : State → Prop}
    {allowed : Label → Prop}
    (each : ∀ {before label after}, allowed label → step before label after → kept before →
      kept after)
    (all : ∀ label ∈ labels, allowed label) (start : kept before) : kept after := by
  induction run with
  | nil state => exact start
  | cons first _ induction =>
      have later := fun label member => all label (List.mem_cons_of_mem _ member)
      exact induction later (each (all _ List.mem_cons_self) first start)

theorem invariant (run : Transitions step before labels after) {kept : State → Prop}
    (each : ∀ {before label after}, step before label after → kept before → kept after)
    (start : kept before) : kept after :=
  @keeps State Label step before after labels run kept (fun _ => True)
    (fun _ first holds => each first holds) (fun _ _ => trivial) start

theorem append {middle : State} {first second : List Label}
    (start : Transitions step before first middle) (rest : Transitions step middle second after) :
    Transitions step before (first ++ second) after := by
  induction start with
  | nil state => exact rest
  | cons one _ induction => exact .cons one (induction rest)

theorem of_foldlM {perform : State → Label → Option State}
    (performs : labels.foldlM perform before = some after) :
    Transitions (fun earlier label later => perform earlier label = some later) before labels
      after := by
  induction labels generalizing before with
  | nil => exact Option.some.inj performs ▸ .nil before
  | cons label labels induction =>
      obtain ⟨middle, first, rest⟩ := Option.bind_eq_some_iff.mp performs
      exact .cons first (induction rest)

/-- Each step of one system is one of another, or leaves it as it is. -/
theorem simulate (run : Transitions step before labels after) {Other OtherLabel : Type}
    {other : Other → OtherLabel → Other → Prop} {project : State → Other}
    {translate : Label → List OtherLabel}
    (each : ∀ {before label after}, step before label after →
      Transitions other (project before) (translate label) (project after)) :
    Transitions other (project before) (labels.flatMap translate) (project after) := by
  induction run with
  | nil state => exact .nil _
  | cons first _ induction => exact (each first).append induction

end Transitions

/-! ## Machines that are functions -/

section Perform

variable {perform : State → Label → State} {shape good : State → Prop}
  {allowed : State → Label → Prop} {start : State}

theorem foldl_keeps (keeps : ∀ state label, shape state → shape (perform state label))
    (starts : shape start) (labels : List Label) : shape (labels.foldl perform start) := by
  induction labels generalizing start with
  | nil => exact starts
  | cons label labels induction => exact induction (keeps start label starts)

/-- Where a step from a good state is good exactly when it is allowed, every state of
a run is good exactly when every step of it is allowed. -/
theorem foldl_good_iff (keeps : ∀ state label, shape state → shape (perform state label))
    (step : ∀ state label, shape state → good state →
      (good (perform state label) ↔ allowed state label))
    (starts : shape start) (startsGood : good start) (labels : List Label) :
    (∀ first, first <+: labels → good (first.foldl perform start)) ↔
      ∀ first label, first ++ [label] <+: labels →
        allowed (first.foldl perform start) label := by
  constructor
  · intro allGood first label reached
    have goodBefore := allGood first ((List.prefix_append _ _).trans reached)
    have goodAfter := allGood (first ++ [label]) reached
    rw [List.foldl_append] at goodAfter
    exact (step _ label (foldl_keeps keeps starts first) goodBefore).mp goodAfter
  · intro allAllowed first reached
    induction first using List.reverseRecOn with
    | nil => exact startsGood
    | append_singleton first label induction =>
        have goodBefore := induction ((List.prefix_append _ _).trans reached)
        rw [List.foldl_append]
        exact (step _ label (foldl_keeps keeps starts first) goodBefore).mpr
          (allAllowed first label reached)

end Perform

/-! ## First in, first out -/

/-- The contents of a state, followed by what a step puts in, are what the step
takes out, followed by the contents it leaves. -/
structure HandsOn (step : State → Label → State → Prop) (valid : State → Prop)
    (contents : State → List Item) (sent received : Label → List Item) : Prop where
  keeps : ∀ {earlier label later}, step earlier label later → valid earlier → valid later
  account : ∀ {earlier label later}, step earlier label later → valid earlier →
    contents earlier ++ sent label = received label ++ contents later

namespace HandsOn

variable {step : State → Label → State → Prop} {valid : State → Prop}
  {contents : State → List Item} {sent received : Label → List Item}
  (handsOn : HandsOn step valid contents sent received)
  {before after : State} {labels : List Label}
  (run : Transitions step before labels after) (start : valid before)
include handsOn run start

theorem valid_after : valid after :=
  run.invariant handsOn.keeps start

/-- Nothing is lost, repeated or overtaken. -/
theorem conservation :
    contents before ++ labels.flatMap sent = labels.flatMap received ++ contents after := by
  induction run with
  | nil state => simp
  | cons first _ induction =>
      have rest := induction (handsOn.keeps first start)
      rw [List.flatMap_cons, List.flatMap_cons, ← List.append_assoc,
        handsOn.account first start, List.append_assoc, rest, List.append_assoc]

theorem received_prefix (empty : contents before = []) :
    labels.flatMap received <+: labels.flatMap sent := by
  have account := handsOn.conservation run start
  rw [empty, List.nil_append] at account
  exact ⟨contents after, account.symm⟩

theorem received_eq_sent_iff (empty : contents before = []) :
    labels.flatMap received = labels.flatMap sent ↔ contents after = [] := by
  have account := handsOn.conservation run start
  rw [empty, List.nil_append] at account
  rw [account, List.self_eq_append_right]

end HandsOn

end Nanocap
