import Mathlib.Data.List.Basic
import Libgoc.Http.Server.Model

namespace Libgoc.Http.Server

/-! # One event of a fiber -/

namespace Phase

@[simp] def running : Phase → Bool
  | .absent | .done => false
  | _ => true

@[simp] def isClosing : Phase → Bool
  | .closing _ => true
  | _ => false

/-- The fiber has been spawned and not counted. -/
@[simp] def uncounted : Phase → Bool
  | .spawned | .starting | .made | .installed | .entering => true
  | _ => false

/-- A listener that has not yet looked at `close_ch`. -/
@[simp] def unchecked : Phase → Bool
  | .spawned | .starting | .made | .installed => true
  | _ => false

/-- A listener whose channel is not in `listener_accept_chs`. -/
@[simp] def uninstalled : Phase → Bool
  | .spawned | .starting | .made => true
  | _ => false

/-- A listener without a channel. -/
@[simp] def early : Phase → Bool
  | .spawned | .starting => true
  | _ => false

/-- Phases before `http_accept_loop` that only a listener has. -/
@[simp] def listener : Phase → Bool
  | .starting | .made | .installed => true
  | _ => false

/-- What the fiber has added to `active_conns`. -/
@[simp] def weight : Phase → Nat
  | .accepting | .accepted | .draining | .leaving | .serving | .closing true => 1
  | .dispatching => 2
  | _ => 0

theorem running_of_weight {phase : Phase} (counted : 0 < phase.weight) : phase.running = true := by
  cases phase <;> simp_all

theorem settled_of_running {phase : Phase} (running : phase.running = true)
    (free : phase.weight = 0) : phase.uncounted = true ∨ phase.isClosing = true := by
  cases phase with
  | closing resumes => simp
  | _ => simp_all

end Phase

@[simp] def Fiber.Running (fiber : Fiber) : Prop := fiber.phase.running = true

@[simp] def Fiber.weight (fiber : Fiber) : Nat := fiber.phase.weight

/-- `goc_close` has been called on the accept channel. -/
@[simp] def Fiber.stopping (fiber : Fiber) : Prop :=
  fiber.acceptCh = some .requested ∨ fiber.acceptCh = some .closing

namespace Effect

/-- What the event adds to the weights of fibers and takes from its own. -/
@[simp] def gained : Effect → Nat
  | .count => 1
  | _ => 0

@[simp] def lost : Effect → Nat
  | .giveBack | .spawn => 1
  | _ => 0

end Effect

/-- What an event of a fiber means for the count and for the shutdown channel. -/
structure Responds (state : State) (id : Nat) (after : Fiber) (effect : Effect) : Prop where
  was : (state.fibers id).Running
  weight : after.weight + effect.lost = (state.fibers id).weight + effect.gained
  ended : after.phase.running = false → (state.fibers id).phase = .starting ∨
    ((state.fibers id).phase = .installed ∧ (state.fibers id).closeCh = true ∧
      state.closing = true ∧ effect = .quiet) ∨
    (effect = .giveBack ∧ state.active ≠ 1) ∨ effect = .closeShutdown
  last : effect = .giveBack → state.active = 1 → after.phase.isClosing = true
  closing : after.phase.isClosing = true → (effect = .giveBack ∧ state.active = 1) ∨
    ((state.fibers id).phase = .spawned ∧ state.workers ≤ id ∧ state.acceptCh = false)
  resumes : after.phase = .closing true → (state.fibers id).weight = 2 ∧ state.active = 1
  closes : effect = .closeShutdown → (state.fibers id).phase.isClosing = true ∧
    ((state.fibers id).phase = .closing true ∨ after.phase.running = false)
  readied : after.ready = (state.fibers id).ready ∨
    ((state.fibers id).phase = .starting ∧ after.ready = some false)
  early : after.phase.early = true → (state.fibers id).phase.early = true ∧
    after.acceptCh = (state.fibers id).acceptCh ∧ after.ready = (state.fibers id).ready
  opened : after.acceptCh.isSome → (state.fibers id).acceptCh.isSome ∨ after.phase = .made
  kept : (state.fibers id).acceptCh.isSome → after.acceptCh.isSome
  fresh : after.phase ≠ .spawned ∧ after.phase ≠ .absent
  listener : after.phase.listener = true →
    (state.fibers id).phase.listener = true ∨ id < state.workers
  stops : after.phase.running = true → (state.fibers id).stopping →
    after.stopping ∨ (state.fibers id).phase = .starting
  installs : after.phase.running = true → (state.fibers id).phase.uninstalled = true →
    id < state.workers → after.phase.uninstalled = true ∨ (effect = .install ∧ state.arrays = true)
  checks : after.phase.running = true → (state.fibers id).phase.unchecked = true →
    id < state.workers → after.phase.unchecked = true ∨
      ((state.fibers id).phase = .installed ∧
        ¬ ((state.fibers id).closeCh = true ∧ state.closing = true))
  makes : (state.fibers id).phase.early = true → id < state.workers →
    after.phase.running = true → after.phase.early = true ∨ after.acceptCh.isSome
  cached : after.phase.listener = true →
    ((state.fibers id).phase.listener = true ∧ after.closeCh = (state.fibers id).closeCh) ∨
      after.closeCh = state.closeCh

theorem respond_responds {id : Nat} (responded : respond state id event = some (after, effect)) :
    Responds state id after effect := by
  unfold respond at responded
  simp only at responded
  split at responded
  · rename_i phase
    split at responded
    · rename_i slot
      cases responded
      constructor <;> simp [phase, slot]
    · rename_i single
      split at responded
      · cases responded
        constructor <;> simp [phase, single, Nat.le_of_not_lt single]
      · rename_i absent
        cases responded
        constructor <;> simp [phase, single, absent, Nat.le_of_not_lt single]
  · rename_i phase
    cases responded
    constructor <;> simp [phase]
  · rename_i phase
    cases responded
    constructor <;> simp [phase]
  · rename_i phase
    split at responded
    · rename_i present
      cases responded
      constructor <;> simp [phase, present]
    · cases responded
  · rename_i phase
    split at responded
    · rename_i seen
      cases responded
      constructor <;> simp_all
    · rename_i unseen
      cases responded
      constructor <;> simp_all
  · rename_i phase
    cases responded
    constructor <;> simp [phase]
  · rename_i phase
    split at responded
    · cases responded
      constructor <;> simp [phase]
    · cases responded
  · rename_i phase
    cases responded
    constructor <;> simp [phase]
  · rename_i phase
    cases responded
    constructor <;> simp [phase]
  · rename_i phase
    cases responded
    by_cases last : state.active = 1 <;> constructor <;> simp [phase, last]
  · rename_i phase
    split at responded
    · cases responded
      constructor <;> simp [phase]
    · cases responded
  · rename_i phase
    split at responded
    · cases responded
      constructor <;> simp [phase]
    · cases responded
  · rename_i phase
    split at responded
    · cases responded
      constructor <;> simp [phase]
    · cases responded
  · rename_i phase
    cases responded
    by_cases last : state.active = 1 <;> constructor <;> simp [phase, last]
  · rename_i phase
    cases responded
    by_cases last : state.active = 1 <;> constructor <;> simp [phase, last]
  · rename_i resumes phase
    cases responded
    cases resumes <;> constructor <;> simp [phase]
  · cases responded

/-- The events that give the count back. -/
theorem respond_gives {id : Nat} (responded : respond state id event = some (after, .giveBack)) :
    event = .leave ∨ event = .dispatch false := by
  cases event with
  | leave => exact .inl rfl
  | dispatch ok =>
    cases ok with
    | false => exact .inr rfl
    | true => cases phase : (state.fibers id).phase <;> simp [respond, phase] at responded
  | begin =>
    cases phase : (state.fibers id).phase <;> simp only [respond, phase, reduceCtorEq] at responded
    split at responded
    · cases responded
    · split at responded <;> cases responded
  | check =>
    cases phase : (state.fibers id).phase <;> simp only [respond, phase, reduceCtorEq] at responded
    split at responded <;> cases responded
  | _ => cases phase : (state.fibers id).phase <;> simp [respond, phase] at responded

/-- The last thing a listener does before `http_accept_loop`. -/
theorem respond_installed {id : Nat} (phase : (state.fibers id).phase = .installed)
    (responded : respond state id event = some (after, effect)) : event = .check := by
  cases event <;> simp [respond, phase] at responded ⊢

end Libgoc.Http.Server
