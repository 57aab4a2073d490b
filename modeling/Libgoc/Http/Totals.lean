import Mathlib.Data.Finset.Card
import Mathlib.Tactic.Common
import Libgoc.Http.ClientSlots

namespace Libgoc.Http.Totals

open Libgoc.Data Libgoc.Semantics Function Slots

/-! # The check of the connection counters -/

abbrev Worker := Nat

inductive Phase where
  | absent
  | outside
  | taken
  | using
  | storing
  | sweeping (worker : Worker)
  | unlinked (worker : Worker)
  | restoring (next : Phase)
deriving Repr, DecidableEq

/-- `loaded` is the local `total` of the check. -/
inductive Check where
  | none
  | entered
  | loaded (total : Int)
deriving Repr, DecidableEq

structure Actor where
  phase : Phase := .absent
  check : Check := .none
deriving Repr, DecidableEq

/-- `idleStacks` lists the workers that own the idle connections. -/
structure State where
  total : Int := 0
  idle : Int := 0
  idleStacks : List Worker := []
  locked : Worker → Bool := fun _ => false
  actors : Nat → Actor := fun _ => {}
  started : Nat := 0
  aborted : Bool := false

inductive Event where
  | acquire
  | take (worker : Worker)
  | uncount
  | keep
  | store (worker : Worker)
  | release
  | restore
  | sweep (worker : Worker)
  | unlink
  | unlock
  | loadTotal
  | loadIdle
deriving Repr, DecidableEq

inductive Label where
  | start
  | act (actor : Nat) (event : Event)
deriving Repr, DecidableEq

def State.set (state : State) (id : Nat) (phase : Phase) (check : Check := .none) : State :=
  { state with actors := update state.actors id { phase, check } }

/-- `http_client_release_slot`, up to its check. -/
def releaseSlot (state : State) (id : Nat) (next : Phase) : State :=
  let state := { state with total := state.total - 1 }
  if state.total < 0 then state.set id (.restoring next) else state.set id next .entered

def assertTotals (total idle : Int) : Bool :=
  0 ≤ total ∧ 0 ≤ idle ∧ total ≤ maxConnections ∧ idle ≤ maxConnections ∧ idle ≤ total

/-- The steps outside of the check. -/
def work (state : State) (id : Nat) (phase : Phase) (event : Event) : Option State :=
  match phase, event with
  | .outside, .acquire =>
    if state.total < maxConnections then
      some ({ state with total := state.total + 1 }.set id .using .entered)
    else none
  | .outside, .take worker =>
    if worker ∈ state.idleStacks ∧ state.locked worker = false then
      some ({ state with idleStacks := state.idleStacks.erase worker }.set id .taken)
    else none
  | .taken, .uncount => some ({ state with idle := state.idle - 1 }.set id .using .entered)
  | .using, .keep => if state.idle < maxConnections then some (state.set id .storing) else none
  | .storing, .store worker =>
    if state.locked worker = false then
      some ({ state with
        idleStacks := worker :: state.idleStacks, idle := state.idle + 1 }.set id .outside .entered)
    else none
  | .using, .release => some (releaseSlot state id .outside)
  | .restoring next, .restore => some ({ state with total := 0 }.set id next .entered)
  | .outside, .sweep worker =>
    if state.locked worker = false then
      some ({ state with locked := update state.locked worker true }.set id (.sweeping worker))
    else none
  | .sweeping worker, .unlink =>
    if worker ∈ state.idleStacks then
      some ({ state with idleStacks := state.idleStacks.erase worker, idle := state.idle - 1 }.set id
        (.unlinked worker) .entered)
    else none
  | .unlinked worker, .release => some (releaseSlot state id (.sweeping worker))
  | .sweeping worker, .unlock =>
    some ({ state with locked := update state.locked worker false }.set id .outside)
  | _, _ => none

def act (state : State) (id : Nat) (event : Event) : Option State :=
  match (state.actors id).check, event with
  | .none, event => work state id (state.actors id).phase event
  | .entered, .loadTotal => some (state.set id (state.actors id).phase (.loaded state.total))
  | .loaded total, .loadIdle =>
    if assertTotals total state.idle then some (state.set id (state.actors id).phase)
    else some { state with aborted := true }
  | _, _ => none

def step (state : State) : Label → Option State
  | .start => some { state.set state.started .outside with started := state.started + 1 }
  | .act id event => if state.aborted then none else act state id event

def system : System State Label where
  initial state := state = {}
  step := step

def Phase.slots : Phase → Nat
  | .taken | .using | .storing | .unlinked _ => 1
  | .absent | .outside | .sweeping _ | .restoring _ => 0

def Phase.uncounted : Phase → Nat
  | .taken => 1
  | _ => 0

def Check.between : Check → Bool
  | .loaded _ => true
  | _ => false

/-- No connection becomes idle while a check stands between its loads. -/
def Undisturbed (state : State) : Label → Prop
  | .act _ (.store _) => ∀ id < state.started, (state.actors id).check.between = false
  | _ => True

instance (state : State) (label : Label) : Decidable (Undisturbed state label) := by
  unfold Undisturbed
  split <;> infer_instance

structure Counted (state : State) : Prop where
  total : state.total = state.idleStacks.length +
    tally (fun actor => actor.phase.slots) state.actors state.started
  idle : state.idle = state.idleStacks.length +
    tally (fun actor => actor.phase.uncounted) state.actors state.started
  most : state.total ≤ maxConnections
  absent : ∀ id, state.started ≤ id → state.actors id = {}
  regular : ∀ id next, (state.actors id).phase ≠ .restoring next
  loaded : ∀ id total, (state.actors id).check = .loaded total →
    0 ≤ total ∧ total ≤ maxConnections ∧ state.idle ≤ total
  running : state.aborted = false

section

variable {state next : State} {id : Nat} {phase : Phase} {check : Check}

theorem Phase.uncounted_le_slots (phase : Phase) : phase.uncounted ≤ phase.slots := by
  cases phase <;> simp [Phase.slots, Phase.uncounted]

theorem tally_set (measure : Phase → Nat) (phase : Phase) (check : Check)
    (within : id < state.started) :
    tally (fun actor => measure actor.phase) (update state.actors id { phase, check })
      state.started + measure (state.actors id).phase =
    tally (fun actor => measure actor.phase) state.actors state.started + measure phase :=
  tally_update within

theorem Counted.bounds (counted : Counted state) : 0 ≤ state.idle ∧ state.idle ≤ state.total := by
  have fewer : tally (fun actor => actor.phase.uncounted) state.actors state.started ≤
      tally (fun actor => actor.phase.slots) state.actors state.started := by
    apply Finset.sum_le_sum
    intro id _
    exact (state.actors id).phase.uncounted_le_slots
  have total := counted.total
  have idle := counted.idle
  omega

theorem Counted.within (counted : Counted state) (known : state.actors id ≠ {}) :
    id < state.started := by
  by_contra beyond
  exact known (counted.absent id (Nat.not_lt.mp beyond))

theorem known_of (present : (state.actors id).phase ≠ .absent ∨ (state.actors id).check ≠ .none) :
    state.actors id ≠ {} := by
  intro blank
  simp [blank] at present

section

variable (counted : Counted state)
include counted

/-- One actor goes on, and the counters follow it. -/
theorem Counted.change (id : Nat) (known : state.actors id ≠ {}) (lower : next.idle ≤ state.idle ∨
      ∀ id < state.started, (state.actors id).check.between = false)
    (actors : next.actors = update state.actors id { phase, check } := by rfl)
    (total : next.total + state.idleStacks.length + (state.actors id).phase.slots =
      state.total + next.idleStacks.length + phase.slots := by
        grind [State.set, Phase.slots])
    (idle : next.idle + state.idleStacks.length + (state.actors id).phase.uncounted =
      state.idle + next.idleStacks.length + phase.uncounted := by
        grind [State.set, Phase.uncounted])
    (own : ∀ total, check = .loaded total →
      0 ≤ total ∧ total ≤ maxConnections ∧ next.idle ≤ total := by simp)
    (regular : ∀ next, phase ≠ .restoring next := by simp [*])
    (most : next.total ≤ maxConnections := by simp [State.set]; omega)
    (started : next.started = state.started := by rfl)
    (aborted : next.aborted = state.aborted := by rfl) : Counted next := by
  have within := counted.within known
  have slots := tally_set Phase.slots phase check within
  have uncounted := tally_set Phase.uncounted phase check within
  have beforeTotal := counted.total
  have beforeIdle := counted.idle
  refine ⟨?_, ?_, most, ?_, ?_, ?_, aborted.trans counted.running⟩
  · rw [actors, started]
    omega
  · rw [actors, started]
    omega
  · intro other beyond
    rw [started] at beyond
    rw [actors, update_of_ne (by omega)]
    exact counted.absent other beyond
  · rw [actors]
    apply each_of_change (P := fun actor : Actor => ∀ next, actor.phase ≠ .restoring next)
      counted.regular id regular (update_self ..)
    intro other apart
    exact update_of_ne apart ..
  · intro other loaded
    rw [actors]
    by_cases same : other = id
    · rw [same, update_self]
      exact own loaded
    · rw [update_of_ne same]
      intro between
      obtain ⟨least, greatest, above⟩ := counted.loaded other loaded between
      refine ⟨least, greatest, ?_⟩
      obtain down | none := lower
      · omega
      · have inside : other < state.started := counted.within (by
          intro blank
          simp [blank] at between)
        simpa [between, Check.between] using none other inside

theorem Counted.releases (holds : (state.actors id).phase.slots = 1)
    (still : (state.actors id).phase.uncounted = 0) (given : phase.slots = 0)
    (gone : phase.uncounted = 0) (regular : ∀ next, phase ≠ .restoring next) :
    Counted (releaseSlot state id phase) := by
  have known : state.actors id ≠ {} := by
    intro blank
    simp [blank, Phase.slots] at holds
  have slots : (state.actors id).phase.slots ≤
      tally (fun actor => actor.phase.slots) state.actors state.started :=
    @le_tally _ (fun actor : Actor => actor.phase.slots) _ _ _ (counted.within known)
  have most := counted.most
  have total := counted.total
  unfold releaseSlot
  rw [if_neg (by dsimp only; omega)]
  refine counted.change id known (.inl le_rfl) rfl ?_ ?_
  · simp only [State.set, holds, given]
    omega
  · simp only [State.set, still, gone]

theorem Counted.work (undisturbed : Undisturbed state (.act id event))
    (worked : work state id (state.actors id).phase event = some next) : Counted next := by
  have most := counted.most
  have down : state.idle - 1 ≤ state.idle := by omega
  unfold Totals.work at worked
  split at worked
  next phase =>
    obtain ⟨room, rfl⟩ := guarded worked
    exact counted.change id (known_of (by simp [phase])) (.inl le_rfl)
  next phase =>
    obtain ⟨⟨member, _⟩, rfl⟩ := guarded worked
    have length := List.length_erase_add_one member
    exact counted.change id (known_of (by simp [phase])) (.inl le_rfl)
  next phase =>
    cases worked
    exact counted.change id (known_of (by simp [phase])) (.inl down)
  next phase =>
    obtain ⟨room, rfl⟩ := guarded worked
    exact counted.change id (known_of (by simp [phase])) (.inl le_rfl)
  next phase =>
    obtain ⟨free, rfl⟩ := guarded worked
    exact counted.change id (known_of (by simp [phase])) (.inr undisturbed)
  next phase =>
    cases worked
    apply counted.releases <;> simp [phase, Phase.slots, Phase.uncounted]
  next phase => exact absurd phase (counted.regular id _)
  next phase =>
    obtain ⟨free, rfl⟩ := guarded worked
    exact counted.change id (known_of (by simp [phase])) (.inl le_rfl)
  next phase =>
    obtain ⟨member, rfl⟩ := guarded worked
    have length := List.length_erase_add_one member
    exact counted.change id (known_of (by simp [phase])) (.inl down)
  next phase =>
    cases worked
    apply counted.releases <;> simp [phase, Phase.slots, Phase.uncounted]
  next phase =>
    cases worked
    exact counted.change id (known_of (by simp [phase])) (.inl le_rfl)
  next => cases worked

theorem Counted.act (undisturbed : Undisturbed state (.act id event))
    (acted : act state id event = some next) : Counted next := by
  obtain ⟨least, below⟩ := counted.bounds
  have most := counted.most
  have regular := counted.regular id
  unfold Totals.act at acted
  split at acted
  next => exact counted.work undisturbed acted
  next check =>
    cases acted
    refine counted.change id (known_of (by simp [check])) (.inl le_rfl) rfl rfl rfl ?_
    intro total same
    cases same
    exact ⟨Int.le_trans least below, most, below⟩
  next loaded check =>
    obtain ⟨positive, greatest, above⟩ := counted.loaded id loaded check
    have fits : assertTotals loaded state.idle = true := by
      simp only [assertTotals, decide_eq_true_eq]
      omega
    rw [if_pos fits] at acted
    cases acted
    exact counted.change id (known_of (by simp [check])) (.inl le_rfl) rfl rfl
  next => cases acted

theorem Counted.start :
    Counted { state.set state.started .outside with started := state.started + 1 } := by
  have beyond : ∀ measure : Phase → Nat, measure .outside = 0 →
      tally (fun actor => measure actor.phase)
        (update state.actors state.started { phase := .outside }) (state.started + 1) =
      tally (fun actor => measure actor.phase) state.actors state.started := by
    intro measure none
    rw [tally_succ, update_self, none, Nat.add_zero]
    exact tally_update_beyond (Nat.le_refl _)
  refine ⟨?_, ?_, counted.most, ?_, ?_, ?_, counted.running⟩
  · exact counted.total.trans (by rw [← beyond _ rfl]; rfl)
  · exact counted.idle.trans (by rw [← beyond _ rfl]; rfl)
  · intro id later
    exact (update_of_ne (Nat.ne_of_gt later) ..).trans (counted.absent id (Nat.le_of_succ_le later))
  · apply each_of_change (P := fun actor : Actor => ∀ next, actor.phase ≠ .restoring next)
      counted.regular state.started _ (update_self ..)
    · intro id apart
      exact update_of_ne apart ..
    · nofun
  · intro id total
    by_cases same : id = state.started <;> simp [State.set, same]
    exact counted.loaded id total

end

theorem counted_initial : Counted {} := by
  constructor <;> simp [tally]

theorem Counted.step (counted : Counted state) {label : Label} (undisturbed : Undisturbed state label)
    (stepped : system.step state label = some next) : Counted next := by
  cases label with
  | start =>
    cases stepped
    exact counted.start
  | act id event =>
    change (if state.aborted then none else _) = _ at stepped
    rw [counted.running] at stepped
    exact counted.act undisturbed stepped

/-- The counters and stacks as the slot protocol has them, with all connections to
one endpoint. -/
def State.slots (state : State) : Slots.State where
  total := state.total.toNat
  idle := state.idle
  idleStacks := state.idleStacks.map fun worker => ⟨⟨0, worker⟩, 0⟩

/-- The operations of the slot protocol in a step outside of the check. -/
def effects : Phase → Event → List Effect
  | .outside, .acquire => [.acquire]
  | .outside, .take worker => [.unlink ⟨0, worker⟩ 0]
  | .taken, .uncount => [.uncountIdle]
  | .using, .keep => [.idleBelow]
  | .storing, .store worker => [.push ⟨⟨0, worker⟩, 0⟩, .countIdle]
  | .using, .release | .unlinked _, .release => [.release]
  | .sweeping worker, .unlink => [.unlink ⟨0, worker⟩ 0, .uncountIdle]
  | _, _ => []

theorem unlink_apply {worker : Worker} (member : worker ∈ state.idleStacks) :
    (Effect.unlink ⟨0, worker⟩ 0).apply state.slots =
      some { state with idleStacks := state.idleStacks.erase worker }.slots := by
  have fits : IdleConn.fits ⟨0, worker⟩ 0 ∘ (fun other => ⟨⟨0, other⟩, 0⟩) = (· == worker) := by
    funext other
    simp [IdleConn.fits, WorkerPool.mk.injEq]
  simp [Effect.apply, State.slots, fits, List.eraseP_map, List.erase_eq_eraseP', member]

theorem release_apply (next : Phase) :
    Effect.apply state.slots .release = some (releaseSlot state id next).slots := by
  have less : state.total.toNat - 1 = (state.total - 1).toNat := by omega
  simp only [releaseSlot, Effect.apply]
  split <;> simp only [State.slots, State.set, less]

theorem Counted.work_projects (counted : Counted state)
    (worked : Totals.work state id (state.actors id).phase event = some next) :
    (effects (state.actors id).phase event).foldlM Effect.apply state.slots = some next.slots := by
  obtain ⟨least, below⟩ := counted.bounds
  unfold Totals.work at worked
  split at worked
  next phase =>
    obtain ⟨room, rfl⟩ := guarded worked
    simp [phase, effects, Effect.apply, State.slots, State.set]
    omega
  next phase =>
    obtain ⟨⟨member, _⟩, rfl⟩ := guarded worked
    simp only [phase, effects, List.foldlM_cons, unlink_apply member]
    rfl
  next phase =>
    cases worked
    simp [phase, effects, Effect.apply, State.slots, State.set]
  next phase =>
    obtain ⟨room, rfl⟩ := guarded worked
    simp [phase, effects, Effect.apply, State.slots, State.set, room]
  next phase =>
    obtain ⟨free, rfl⟩ := guarded worked
    simp [phase, effects, Effect.apply, State.slots, State.set]
  next phase =>
    cases worked
    simpa [phase, effects] using release_apply _
  next phase => exact absurd phase (counted.regular id _)
  next phase =>
    obtain ⟨free, rfl⟩ := guarded worked
    simp [phase, effects, State.slots, State.set]
  next phase =>
    obtain ⟨member, rfl⟩ := guarded worked
    simp only [phase, effects, List.foldlM_cons, unlink_apply member]
    rfl
  next phase =>
    cases worked
    simpa [phase, effects] using release_apply _
  next phase =>
    cases worked
    simp [phase, effects, State.slots, State.set]
  next => cases worked

/-- The loads of the check leave the counters. -/
theorem act_work (acted : act state id event = some next) :
    work state id (state.actors id).phase event = some next ∨ next.slots = state.slots := by
  unfold act at acted
  split at acted
  · exact .inl acted
  · cases acted
    exact .inr rfl
  · split at acted <;> cases acted <;> exact .inr rfl
  · cases acted

/-- Its checks left out, a run is one of the operations of the slot protocol. -/
theorem reachable_projects (reachable : system.ReachableWith Undisturbed state) :
    ∃ trace : List Effect, trace.foldlM Effect.apply {} = some state.slots := by
  suffices holds : Counted state ∧ ∃ trace : List Effect,
      trace.foldlM Effect.apply {} = some state.slots from holds.2
  apply reachable.invariant
  · rintro _ rfl
    exact ⟨counted_initial, [], rfl⟩
  · rintro before label after ⟨counted, trace, projected⟩ undisturbed stepped
    refine ⟨counted.step undisturbed stepped, ?_⟩
    cases label with
    | start =>
      cases stepped
      exact ⟨trace, projected⟩
    | act id event =>
      change (if before.aborted then none else _) = _ at stepped
      rw [counted.running] at stepped
      obtain worked | same := act_work stepped
      · refine ⟨trace ++ effects (before.actors id).phase event, ?_⟩
        rw [List.foldlM_append, projected]
        exact counted.work_projects worked
      · exact ⟨trace, same ▸ projected⟩

/-- The check never aborts in a run in which no connection becomes idle while a
check stands between its loads. -/
theorem assertTotals_holds (reachable : system.ReachableWith Undisturbed state) :
    state.aborted = false := by
  have counted : Counted state := by
    apply reachable.invariant
    · rintro _ rfl
      exact counted_initial
    · exact fun _ _ _ counted => counted.step
  exact counted.running

end

/-- The first request checks at once; another one returns its connection. -/
def checkedRun : List Label :=
  [.start, .start, .act 0 .acquire, .act 0 .loadTotal, .act 0 .loadIdle, .act 1 .acquire,
    .act 1 .loadTotal, .act 1 .loadIdle, .act 1 .keep, .act 1 (.store 0), .act 1 .loadTotal,
    .act 1 .loadIdle, .act 1 (.sweep 0), .act 1 .unlink]

theorem checkedRun_holds : ∃ state, system.runWith Undisturbed {} checkedRun = some state ∧
    state.total = 2 ∧ state.aborted = false :=
  ⟨_, rfl, rfl, assertTotals_holds (.of_run system Undisturbed checkedRun rfl rfl)⟩

/-- The first request has loaded the total; two others take slots and return
their connections before it loads the idle ones. -/
def overtakenRun : List Label :=
  [.start, .start, .start, .act 0 .acquire, .act 0 .loadTotal, .act 1 .acquire, .act 1 .loadTotal,
    .act 1 .loadIdle, .act 2 .acquire, .act 2 .loadTotal, .act 2 .loadIdle, .act 1 .keep,
    .act 1 (.store 0), .act 2 .keep, .act 2 (.store 0), .act 0 .loadIdle]

theorem overtaken_check_aborts : ∃ state, system.Reachable state ∧ state.total = 3 ∧
    state.idle = 2 ∧ state.aborted = true :=
  ⟨_, .of_run system overtakenRun rfl rfl, rfl, rfl, rfl⟩

end Libgoc.Http.Totals
