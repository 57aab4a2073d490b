import Mathlib.Logic.Function.Basic

namespace Libgoc.Semantics

/-! # Executions of labelled systems

A concurrent component is a function from a state and a label to the next
state.  A label names one atomic step together with every choice the scheduler
or the environment makes in it, so that all interleavings are the lists of
labels; `none` says that the step is not enabled.  Conditions on a run are
predicates on the state before a step and the label taken there.
-/

/-- A system with its initial states and its partial step function. -/
structure System (State : Type u) (Label : Type v) where
  initial : State → Prop
  step : State → Label → Option State

/-- A step that its guard may disable was enabled and led to the next state. -/
theorem guarded [Decidable enabled]
    (stepped : (if enabled then some next else none) = some after) : enabled ∧ next = after := by
  split at stepped
  · rename_i holds
    exact ⟨holds, Option.some.inj stepped⟩
  · cases stepped

/-- What holds of every component before a step that changes one of them. -/
theorem each_of_change {P : α → Prop} {before after : ι → α} (each : ∀ i, P (before i)) (i : ι)
    (changed : P value) (own : after i = value) (others : ∀ j, j ≠ i → after j = before j) (j : ι) :
    P (after j) := by
  by_cases same : j = i
  · rw [same, own]
    exact changed
  · rw [others j same]
    exact each j

namespace System

variable {State : Type u} {Label : Type v}

/-- Perform the labels in order; `none` as soon as one is not permitted or not
enabled. -/
def runWith (system : System State Label) (allowed : State → Label → Prop)
    [∀ state label, Decidable (allowed state label)] : State → List Label → Option State
  | state, [] => some state
  | state, label :: rest =>
    if allowed state label then
      match system.step state label with
      | none => none
      | some next => system.runWith allowed next rest
    else none

def run (system : System State Label) : State → List Label → Option State :=
  system.runWith fun _ _ => True

/-- States reached from `start` by steps that all meet `allowed`. -/
inductive Reaches (system : System State Label)
    (allowed : State → Label → Prop) (start : State) : State → Prop where
  | refl : Reaches system allowed start start
  | step (earlier : Reaches system allowed start before)
      (permitted : allowed before label)
      (stepped : system.step before label = some after) :
      Reaches system allowed start after

/-- States of the runs whose steps all meet `allowed`. -/
def ReachableWith (system : System State Label)
    (allowed : State → Label → Prop) (state : State) : Prop :=
  ∃ start, system.initial start ∧ system.Reaches allowed start state

/-- States of all runs. -/
def Reachable (system : System State Label) (state : State) : Prop :=
  system.ReachableWith (fun _ _ => True) state

variable {system : System State Label} {allowed : State → Label → Prop}

theorem Reaches.invariant {property : State → Prop} (reached : system.Reaches allowed start state)
    (starts : property start)
    (preserved : ∀ before label after, property before → allowed before label →
      system.step before label = some after → property after) :
    property state := by
  induction reached with
  | refl => exact starts
  | step _ permitted stepped ih => exact preserved _ _ _ ih permitted stepped

/-- What holds initially and is kept by every permitted step holds in every
state of the runs that take only permitted steps. -/
theorem ReachableWith.invariant {property : State → Prop}
    (reachable : system.ReachableWith allowed state)
    (starts : ∀ start, system.initial start → property start)
    (preserved : ∀ before label after, property before → allowed before label →
      system.step before label = some after → property after) :
    property state := by
  obtain ⟨start, initial, reached⟩ := reachable
  exact reached.invariant (starts start initial) preserved

theorem Reachable.invariant {property : State → Prop} (reachable : system.Reachable state)
    (starts : ∀ start, system.initial start → property start)
    (preserved : ∀ before label after, property before →
      system.step before label = some after → property after) :
    property state :=
  ReachableWith.invariant reachable starts
    (fun before label after holds _ stepped => preserved before label after holds stepped)

theorem ReachableWith.weaken (reachable : system.ReachableWith allowed state)
    (implies : ∀ before label, allowed before label → permissive before label) :
    system.ReachableWith permissive state := by
  obtain ⟨start, initial, reached⟩ := reachable
  refine ⟨start, initial, ?_⟩
  induction reached with
  | refl => exact .refl
  | step _ permitted stepped ih => exact .step ih (implies _ _ permitted) stepped

theorem ReachableWith.reachable (reachable : system.ReachableWith allowed state) :
    system.Reachable state :=
  reachable.weaken (fun _ _ _ => trivial)

theorem Reachable.after_step (reachable : system.Reachable before)
    (stepped : system.step before label = some after) : system.Reachable after := by
  obtain ⟨start, initial, reached⟩ := reachable
  exact ⟨start, initial, reached.step trivial stepped⟩

theorem Reaches.of_run [∀ state label, Decidable (allowed state label)]
    (ran : system.runWith allowed before labels = some after)
    (earlier : system.Reaches allowed start before) : system.Reaches allowed start after := by
  induction labels generalizing before with
  | nil => cases ran; exact earlier
  | cons label rest ih =>
    simp only [runWith] at ran
    split at ran
    · rename_i permitted
      split at ran
      · cases ran
      · rename_i next stepped
        exact ih ran (earlier.step permitted stepped)
    · cases ran

/-- A list of labels that can be performed from an initial state exhibits a
reachable state. -/
theorem ReachableWith.of_run (system : System State Label) (allowed : State → Label → Prop)
    [∀ state label, Decidable (allowed state label)] (labels : List Label)
    (initial : system.initial start) (ran : system.runWith allowed start labels = some state) :
    system.ReachableWith allowed state :=
  ⟨start, initial, .of_run ran .refl⟩

theorem Reachable.of_run (system : System State Label) (labels : List Label)
    (initial : system.initial start) (ran : system.run start labels = some state) :
    system.Reachable state :=
  ReachableWith.of_run system _ labels initial ran

end System

end Libgoc.Semantics
