import Libgoc.Data.Tally
import Libgoc.Http.Server.Fibers

namespace Libgoc.Http.Server

open Libgoc.Data Libgoc.Semantics Function

/-! # Counting the fibers -/

namespace ListenPhase

@[simp] def inProgress : ListenPhase → Bool
  | .idle | .returned => false
  | _ => true

@[simp] def starts : ListenPhase → Bool
  | .spawning _ | .collecting _ _ | .falling _ => true
  | _ => false

/-- Accept loops that are still to be spawned. -/
@[simp] def awaits (workers id : Nat) : ListenPhase → Prop
  | .idle => id ≤ workers
  | .spawning next => next ≤ id ∧ id ≤ workers
  | .returned => False
  | _ => id = workers

end ListenPhase

namespace State

variable (state : State)

@[simp] def Listening : Prop :=
  0 < state.nListeners ∨ state.acceptCh = true

/-- A running fiber that no longer depends on its listener being started. -/
def Bound (id : Nat) : Prop :=
  (state.fibers id).Running ∧ (id < state.workers → (state.fibers id).phase.early = false)

/-- Someone has to close the shutdown channel. -/
def Needed : Prop :=
  (state.listen = .returned ∧ state.Listening ∧ state.shutdown = .opened) ∨
    (state.listen.inProgress = true ∧ ∃ id < state.workers, (state.fibers id).acceptCh.isSome)

def Complete : Prop :=
  state.listen = .returned ∨ (state.listen = .idle ∧ state.close ≠ .idle)

/-- Every accept loop has been spawned and has counted itself. -/
def Settled : Prop :=
  state.listen = .returned ∧ ∀ id < state.size, (state.fibers id).phase.uncounted = false

end State

/-- `active_conns` is what the fibers have added to it. -/
def Counted (state : State) : Prop :=
  state.active = tally Fiber.weight state.fibers state.size

/-- What the two calls say about the server. -/
structure Calls (state : State) : Prop where
  unlistened : state.listen = .idle ∨ state.listen = .opening → state.nListeners = 0
  unopened : state.listen ≠ .forking → state.listen ≠ .returned → state.acceptCh = false
  forks : state.listen = .forking → state.acceptCh = true ∧ state.nListeners = 0
  spawns : ∀ next, state.listen = .spawning next → next ≤ state.workers
  several : state.listen.starts = true → 1 < state.workers ∧ state.arrays = true
  ordered : state.close ≠ .idle → state.listen.inProgress = false ∧ state.closing = true
  waits : state.close = .waiting → state.Listening
  visits : ∀ next, state.close = .visiting next → 0 < state.nListeners
  complete : state.shutdown ≠ .opened → state.Complete
  finished : state.close = .finishing ∨ state.close = .returned → state.shutdown ≠ .opened
  present : state.shutdownCh = false ∨ state.closeCh = false → state.close = .returned
  listeners : 0 < state.nListeners → state.nListeners = state.workers
  arrays : state.arrays = true → 0 < state.nListeners

/-- What holds of one fiber; `installed` says that its channel is in
`listener_accept_chs`.  Every accept loop is told to stop: `goc_http_server_close`
closes the accept channels it finds, and a listener it does not find yet will see
`close_ch` closed. -/
structure Each (state : State) (id : Nat) (fiber : Fiber) (installed : Bool) : Prop where
  beyond : state.size ≤ id →
    fiber.phase = .absent ∧ fiber.acceptCh = none ∧ fiber.ready = none
  awaited : state.listen.awaits state.workers id → fiber.phase = .absent
  unready : id < state.workers → fiber.phase.early = true ∨ fiber.phase = .absent →
    fiber.acceptCh = none ∧ fiber.ready = none
  heard : fiber.ready = some true → fiber.acceptCh.isSome
  hosted : state.workers ≤ id → fiber.phase = .spawned → state.acceptCh = true
  slotted : fiber.phase.listener = true → id < state.workers
  final : fiber.phase ≠ .closing true
  completes : fiber.phase.isClosing = true → state.Complete
  shut : state.shutdown ≠ .opened → ¬ fiber.Running
  vacant : (state.close = .deciding ∧ ¬ state.Listening) ∨ state.close = .unlistened →
    ¬ fiber.Running
  collected : ∀ next, state.listen = .collecting next false → id < next →
    fiber.ready = some true
  cached : fiber.phase.listener = true → fiber.closeCh = true
  vacated : 0 < state.nListeners → id = state.workers → fiber.phase = .absent
  slots : id < state.workers → fiber.Running → fiber.stopping ∨
    (state.arrays = true ∧ (fiber.phase.uninstalled = true ∨ installed = true))
  forked : state.listen = .forking → id = state.workers → fiber.acceptCh.isSome
  opened : id ≤ state.workers → fiber.Running →
    (id < state.workers → fiber.phase.early = false) → fiber.acceptCh.isSome
  fallen : ∀ next, state.listen = .falling next → id < state.workers → id < next →
    fiber.Running → fiber.stopping
  visited : ∀ next, state.close = .visiting next → id < state.workers → id < next →
    fiber.Running → fiber.stopping ∨ fiber.phase.unchecked = true
  waited : state.close = .waiting → id ≤ state.workers → fiber.Running →
    fiber.stopping ∨ (id < state.workers ∧ fiber.phase.unchecked = true)

structure Inv (state : State) : Prop where
  calls : Calls state
  each : ∀ id, Each state id (state.fibers id) (state.installed id)
  counted : Counted state
  alone : ∀ id other, (state.fibers id).phase.isClosing = true → (state.fibers other).Running →
    other = id
  needed : state.Needed → ∃ id, state.Bound id

/-- The two calls come one after the other and find what they need, the last counted
fiber leaves when all accept loops are counted, and an accept loop that finds the
server closing is not the only one that could close the shutdown channel.  After a
failed start every listener that still runs has installed its channel when the
channels are closed. -/
def Orderly (state : State) : Label → Prop
  | .listen _ => state.close = .idle
  | .listenNext =>
    match state.listen with
    | .falling next => (state.fibers next).phase.uninstalled = false
    | _ => True
  | .close => state.listen.inProgress = false ∧
      (state.Listening ∨ ∀ id < state.size, (state.fibers id).phase.running = false)
  | .fiber _ .leave | .fiber _ (.dispatch false) => state.active = 1 → state.Settled
  | .fiber id .check =>
    (state.fibers id).closeCh = true → state.closing = true → 0 < state.active
  | _ => True

instance (state : State) : Decidable state.Listening := by
  unfold State.Listening
  infer_instance

instance (state : State) : Decidable state.Settled := by
  unfold State.Settled
  infer_instance

instance (state : State) (label : Label) : Decidable (Orderly state label) := by
  unfold Orderly
  split <;> first | infer_instance | (split <;> infer_instance)

variable {state after : State} {id : Nat} {fiber : Fiber} {effect : Effect}

theorem Counted.bound (counted : Counted state) (positive : 0 < state.active) :
    ∃ id, state.Bound id := by
  have some : 0 < tally Fiber.weight state.fibers state.size := by
    rw [Counted] at counted
    omega
  obtain ⟨id, _, heavy⟩ := exists_of_tally_pos some
  refine ⟨id, Phase.running_of_weight heavy, fun _ => ?_⟩
  cases phase : (state.fibers id).phase <;> simp_all

theorem inv_initial (workers : Nat) : Inv { workers } := by
  constructor
  · constructor <;> simp
  · intro id
    constructor <;> simp
  · simp [Counted, tally]
  · simp
  · simp [State.Needed]

theorem Inv.known (inv : Inv state) (running : (state.fibers id).Running) : id < state.size := by
  by_contra beyond
  rw [Fiber.Running, ((inv.each id).beyond (Nat.le_of_not_lt beyond)).1] at running
  cases running

/-- The last counted fiber is the only one running. -/
theorem Inv.last (inv : Inv state) (settled : state.Settled) (last : state.active = 1)
    (running : (state.fibers id).Running) (counted : 0 < (state.fibers id).weight)
    (still : (state.fibers other).Running) : other = id := by
  by_contra different
  have pair : (state.fibers id).weight + (state.fibers other).weight ≤
      tally Fiber.weight state.fibers state.size :=
    add_le_tally (inv.known running) (inv.known still) different
  have total : state.active = tally Fiber.weight state.fibers state.size := inv.counted
  have free : (state.fibers other).phase.weight = 0 := by
    simp only [Fiber.weight] at *
    omega
  obtain uncounted | closing := Phase.settled_of_running still free
  · have counted := settled.2 other (inv.known still)
    rw [uncounted] at counted
    cases counted
  · exact different (inv.alone other id closing running).symm

/-- A fiber that runs after its own event. -/
theorem Each.responded (calls : Calls state)
    (each : Each state id (state.fibers id) (state.installed id))
    (responds : Responds state id fiber effect)
    (settles : effect = .giveBack → state.active = 1 → state.Settled)
    (light : state.active = 1 → (state.fibers id).weight ≤ 1) :
    Each state id fiber (state.installed id || decide (effect = .install)) := by
  have was := responds.was
  have unshut : state.shutdown = .opened := by
    by_contra shut
    exact each.shut shut was
  have early : fiber.phase.early = true ∨ fiber.phase = .absent → _ :=
    fun early => responds.early (early.resolve_right responds.fresh.2)
  -- a channel that is being closed stays so
  have stops : fiber.Running → (state.fibers id).stopping → fiber.stopping := by
    intro running stopping
    obtain kept | starting := responds.stops running stopping
    · exact kept
    · have slot := each.slotted (by rw [starting]; rfl)
      have none := (each.unready slot (.inl (by rw [starting]; rfl))).1
      simp [none] at stopping
  have checks : state.close ≠ .idle → fiber.Running → id < state.workers →
      (state.fibers id).phase.unchecked = true → fiber.phase.unchecked = true := by
    intro begun running slot unchecked
    obtain kept | ⟨installed, passes⟩ := responds.checks running unchecked slot
    · exact kept
    · exact absurd ⟨each.cached (by rw [installed]; rfl), (calls.ordered begun).2⟩ passes
  constructor
  · intro beyond
    simp [(each.beyond beyond).1] at was
  · intro awaits
    simp [each.awaited awaits] at was
  · intro slot begins
    obtain ⟨before, acceptCh, ready⟩ := early begins
    rw [acceptCh, ready]
    exact each.unready slot (.inl before)
  · intro ready
    obtain kept | ⟨_, failed⟩ := responds.readied
    · exact responds.kept (each.heard (kept ▸ ready))
    · cases failed.symm.trans ready
  · exact fun _ phase => absurd phase responds.fresh.1
  · intro listener
    obtain before | slot := responds.listener listener
    · exact each.slotted before
    · exact slot
  · intro final
    obtain ⟨two, one⟩ := responds.resumes final
    have less := light one
    omega
  · intro closing
    obtain ⟨given, last⟩ | ⟨phase, single, absent⟩ := responds.closing closing
    · exact .inl (settles given last).1
    · cases (each.hosted single phase).symm.trans absent
  · exact fun shut => absurd unshut shut
  · exact fun vacant => absurd was (each.vacant vacant)
  · intro next collecting before
    have ready := each.collected next collecting before
    obtain kept | ⟨starting, _⟩ := responds.readied
    · rw [kept, ready]
    · have slot := each.slotted (by rw [starting]; rfl)
      have unready := (each.unready slot (.inl (by rw [starting]; rfl))).2
      cases unready.symm.trans ready
  · intro listener
    obtain ⟨before, same⟩ | same := responds.cached listener
    · rw [same]
      exact each.cached before
    · rw [same]
      by_contra absent
      have returned := calls.present (.inr (Bool.of_not_eq_true absent))
      exact calls.finished (.inr returned) unshut
  · intro several single
    simp [each.vacated several single] at was
  · intro slot running
    obtain stopping | ⟨present, uninstalled | installed⟩ := each.slots slot was
    · exact .inl (stops running stopping)
    · obtain still | ⟨install, _⟩ := responds.installs running uninstalled slot
      · exact .inr ⟨present, .inl still⟩
      · exact .inr ⟨present, .inr (by simp [install])⟩
    · exact .inr ⟨present, .inr (by simp [installed])⟩
  · exact fun forking single => responds.kept (each.forked forking single)
  · intro inside running late
    by_cases early : (state.fibers id).phase.early = true ∧ id < state.workers
    · obtain still | made := responds.makes early.1 early.2 running
      · cases still.symm.trans (late early.2)
      · exact made
    · apply responds.kept
      exact each.opened inside was fun slot => by simpa [slot] using early
  · intro next falling slot before running
    exact stops running (each.fallen next falling slot before was)
  · intro next visiting slot before running
    obtain stopping | unchecked := each.visited next visiting slot before was
    · exact .inl (stops running stopping)
    · exact .inr (checks (by simp [visiting]) running slot unchecked)
  · intro waiting inside running
    obtain stopping | ⟨slot, unchecked⟩ := each.waited waiting inside was
    · exact .inl (stops running stopping)
    · exact .inr ⟨slot, checks (by simp [waiting]) running slot unchecked⟩

/-- A connection that is spawned by a running fiber. -/
theorem Each.serving (each : Each state id (state.fibers id) (state.installed id))
    (was : (state.fibers id).Running)
    (unborn : Each state state.size (state.fibers state.size) (state.installed state.size)) :
    Each { state with conns := state.conns + 1 } state.size { phase := .serving } installed := by
  have large : state.workers < state.size := by
    simp only [State.size]
    omega
  have unshut : state.shutdown = .opened := by
    by_contra shut
    exact each.shut shut was
  have occupied := fun vacant => each.vacant vacant was
  constructor <;> simp <;> try omega
  · simp only [State.size]
    omega
  · cases state.listen <;> simp <;> omega
  · simpa [not_or] using occupied
  · intro next collecting
    by_contra less
    have ready := unborn.collected next collecting (Nat.lt_of_not_le less)
    cases ready.symm.trans (unborn.beyond (Nat.le_refl _)).2.2

theorem closeShutdown_shut (shut : state.shutdown ≠ .opened ∨ state.shutdownCh = true) :
    state.closeShutdown.shutdown ≠ .opened := by
  cases present : state.shutdownCh <;> cases shutdown : state.shutdown <;>
    simp_all [State.closeShutdown, CloseGuard.close]

/-- What the event does to the server. -/
theorem Calls.apply (calls : Calls state) (complete : effect = .closeShutdown → state.Complete) :
    Calls (effect.apply (state.setFiber id fiber) id) := by
  cases effect with
  | closeShutdown =>
    exact { calls with
      complete := fun _ => complete rfl
      finished := fun finished =>
        closeShutdown_shut (.inl (calls.finished finished)) }
  | _ => exact { calls with }

/-- What the event means for a fiber, its own or another one. -/
theorem Each.apply (each : Each state index one installed)
    (ended : effect = .closeShutdown → ¬ one.Running) :
    Each (effect.apply (state.setFiber id fiber) id) index one installed := by
  cases effect with
  | closeShutdown => exact { each with shut := fun _ => ended rfl }
  | spawn =>
    refine { each with beyond := fun beyond => each.beyond (Nat.le_trans ?_ beyond) }
    simp only [Effect.apply, State.size, State.setFiber]
    omega
  | _ => exact { each with }

theorem Effect.apply_fibers (state : State) (id : Nat) (fiber : Fiber) (effect : Effect)
    (index : Nat) : (effect.apply (state.setFiber id fiber) id).fibers index =
      if effect = .spawn ∧ index = state.size then { phase := .serving }
      else if index = id then fiber else state.fibers index := by
  cases effect <;>
    simp [Effect.apply, State.setFiber, State.size, State.closeShutdown, update_apply]

theorem Effect.apply_installed (state : State) (id : Nat) (fiber : Fiber) (effect : Effect)
    (index : Nat) : (effect.apply (state.setFiber id fiber) id).installed index =
      (state.installed index || decide (effect = .install ∧ index = id)) := by
  cases effect <;> simp [Effect.apply, State.setFiber, State.closeShutdown, update_apply]
  grind

structure Applied (state after : State) (effect : Effect) : Prop where
  workers : after.workers = state.workers
  size : after.size = state.size + if effect = .spawn then 1 else 0
  listen : after.listen = state.listen
  listening : after.Listening ↔ state.Listening
  active : after.active + (if effect = .giveBack then 1 else 0) = state.active + effect.gained
  unclosed : after.shutdown = .opened →
    state.shutdown = .opened ∧ (effect = .closeShutdown → state.shutdownCh = false)

theorem Effect.apply_applied (state : State) (id : Nat) (fiber : Fiber) (effect : Effect) :
    Applied state (effect.apply (state.setFiber id fiber) id) effect := by
  cases effect with
  | closeShutdown =>
    refine ⟨rfl, rfl, rfl, .rfl, rfl, fun unclosed => ⟨?_, fun _ => ?_⟩⟩
    · by_contra shut
      exact closeShutdown_shut (.inl shut) unclosed
    · by_contra present
      exact closeShutdown_shut (.inr (Bool.of_not_eq_false present)) unclosed
  | _ => constructor <;> simp [Effect.apply, State.setFiber, State.size, Nat.add_assoc]

section Responded

variable (inv : Inv state) (responds : Responds state id fiber effect)
  (applied : Applied state after effect)
  (fibers : ∀ index, after.fibers index =
    if effect = .spawn ∧ index = state.size then { phase := .serving }
    else if index = id then fiber else state.fibers index)

include inv responds fibers

/-- A fiber is the one that had the event, a new connection, or as it was. -/
theorem Inv.fiber_cases (index : Nat) : (index = id ∧ after.fibers index = fiber) ∨
      (effect = .spawn ∧ index = state.size ∧ after.fibers index = { phase := .serving }) ∨
      (index ≠ id ∧ after.fibers index = state.fibers index) := by
  have inside := inv.known responds.was
  rw [fibers]
  by_cases new : effect = .spawn ∧ index = state.size
  · exact .inr (.inl ⟨new.1, new.2, if_pos new⟩)
  · rw [if_neg new]
    by_cases same : index = id
    · exact .inl ⟨same, if_pos same⟩
    · exact .inr (.inr ⟨same, if_neg same⟩)

theorem Inv.own_fiber : after.fibers id = fiber := by
  have inside := inv.known responds.was
  rw [fibers, if_neg (fun new => Nat.ne_of_lt inside new.2), if_pos rfl]

theorem Inv.running_before (running : (after.fibers index).Running) :
    (index = id ∧ fiber.Running) ∨ effect = .spawn ∨
      (index ≠ id ∧ (state.fibers index).Running) := by
  obtain ⟨same, own⟩ | ⟨new, _⟩ | ⟨other, kept⟩ := inv.fiber_cases responds fibers index
  · rw [own] at running
    exact .inl ⟨same, running⟩
  · exact .inr (.inl new)
  · rw [kept] at running
    exact .inr (.inr ⟨other, running⟩)

include applied

theorem Inv.responded_counted : Counted after := by
  have inside := inv.known responds.was
  have moved : tally Fiber.weight (update state.fibers id fiber) state.size +
      (state.fibers id).weight = tally Fiber.weight state.fibers state.size + fiber.weight :=
    tally_update inside
  have weight := responds.weight
  have total : state.active = tally Fiber.weight state.fibers state.size := inv.counted
  have active := applied.active
  have same : tally Fiber.weight after.fibers state.size =
      tally Fiber.weight (update state.fibers id fiber) state.size := by
    apply Finset.sum_congr rfl
    intro index inside
    rw [fibers, if_neg (fun new => Nat.ne_of_lt (Finset.mem_range.mp inside) new.2), update_apply]
  unfold Counted
  by_cases spawned : effect = .spawn
  · have new : (after.fibers state.size).weight = 1 := by
      rw [fibers, if_pos ⟨spawned, rfl⟩]
      rfl
    rw [applied.size, if_pos spawned, tally_succ, same, new]
    subst spawned
    simp only [Effect.gained, Effect.lost, reduceCtorEq, if_false] at weight active
    omega
  · rw [applied.size, if_neg spawned, Nat.add_zero, same]
    have lost : effect.lost = if effect = .giveBack then 1 else 0 := by
      cases effect <;> simp at spawned ⊢
    rw [lost] at weight
    by_cases given : effect = .giveBack
    · rw [if_pos given] at weight active
      omega
    · rw [if_neg given] at weight active
      omega

theorem Inv.needed_before (needed : after.Needed) : fiber.phase = .made ∨ state.Needed := by
  unfold State.Needed at *
  rw [applied.listen, applied.workers, applied.listening] at needed
  obtain ⟨returned, listening, unclosed⟩ | ⟨progress, index, slot, opened⟩ := needed
  · exact .inr (.inl ⟨returned, listening, (applied.unclosed unclosed).1⟩)
  · obtain ⟨same, own⟩ | ⟨_, new, _⟩ | ⟨_, other⟩ := inv.fiber_cases responds fibers index
    · rw [own] at opened
      obtain before | made := responds.opened opened
      · exact .inr (.inr ⟨progress, index, slot, same ▸ before⟩)
      · exact .inl made
    · simp only [State.size] at new
      omega
    · exact .inr (.inr ⟨progress, index, slot, other ▸ opened⟩)

omit fibers in
theorem Inv.closed_not_needed (closes : effect = .closeShutdown) : ¬ after.Needed := by
  intro needed
  have complete := (inv.each id).completes (responds.closes closes).1
  obtain ⟨_, _, unclosed⟩ | ⟨progress, _⟩ := needed
  · obtain ⟨still, absent⟩ := applied.unclosed unclosed
    have returned := inv.calls.present (.inl (absent closes))
    exact inv.calls.finished (.inr returned) still
  · rw [applied.listen] at progress
    obtain returned | ⟨idle, _⟩ := complete
    · simp [returned] at progress
    · simp [idle] at progress

/-- While the shutdown channel has to be closed, a bound fiber remains. -/
theorem Inv.responded_bound
    (checked : (state.fibers id).phase = .installed → (state.fibers id).closeCh = true →
      state.closing = true → 0 < state.active)
    (needed : after.Needed) : ∃ index, after.Bound index := by
  have own := inv.own_fiber responds fibers
  have counted := inv.responded_counted responds applied fibers
  have active := applied.active
  obtain made | before := inv.needed_before responds applied fibers needed
  · refine ⟨id, ?_⟩
    rw [State.Bound, own, made]
    exact ⟨by simp [made], fun _ => rfl⟩
  obtain ⟨index, bound⟩ := inv.needed before
  obtain ⟨same, _⟩ | ⟨_, new, _⟩ | ⟨_, kept⟩ := inv.fiber_cases responds fibers index
  · subst same
    by_cases running : fiber.Running
    · refine ⟨index, ?_⟩
      rw [State.Bound, own, applied.workers]
      refine ⟨running, fun slot => ?_⟩
      by_contra early
      have before := (responds.early (Bool.of_not_eq_false early)).1
      cases before.symm.trans (bound.2 slot)
    · obtain starting | ⟨phase, seen, closing, quiet⟩ | ⟨given, several⟩ | closes :=
        responds.ended (Bool.of_not_eq_true running)
      · have late := bound.2 ((inv.each index).slotted (by rw [starting]; rfl))
        simp [starting] at late
      · rw [quiet] at active
        simp only [reduceCtorEq, if_false, Effect.gained] at active
        have others := checked phase seen closing
        exact counted.bound (by omega)
      · have weight := responds.weight
        have least : (state.fibers index).weight ≤ tally Fiber.weight state.fibers state.size :=
          le_tally (inv.known responds.was)
        have total : state.active = tally Fiber.weight state.fibers state.size := inv.counted
        rw [given] at active weight
        simp only [if_true, Effect.gained, Effect.lost] at active weight
        exact counted.bound (by omega)
      · exact absurd needed (inv.closed_not_needed responds applied closes)
  · exact absurd new (Nat.ne_of_lt (inv.known bound.1))
  · refine ⟨index, ?_⟩
    rw [State.Bound, kept, applied.workers]
    exact bound

end Responded

theorem Inv.responded (inv : Inv state) (responds : Responds state id fiber effect)
    (settles : effect = .giveBack → state.active = 1 → state.Settled)
    (checked : (state.fibers id).phase = .installed → (state.fibers id).closeCh = true →
      state.closing = true → 0 < state.active) :
    Inv (effect.apply (state.setFiber id fiber) id) := by
  have applied := Effect.apply_applied state id fiber effect
  have fibers := Effect.apply_fibers state id fiber effect
  have cases := inv.fiber_cases responds fibers
  have own := inv.each id
  have light : state.active = 1 → (state.fibers id).weight ≤ 1 := by
    intro one
    have least : (state.fibers id).weight ≤ tally Fiber.weight state.fibers state.size :=
      le_tally (inv.known responds.was)
    have total : state.active = tally Fiber.weight state.fibers state.size := inv.counted
    omega
  have ended : effect = .closeShutdown → ¬ fiber.Running := by
    intro closes
    obtain ⟨_, final | ended⟩ := responds.closes closes
    · exact absurd final own.final
    · exact fun runs => by cases ended.symm.trans runs
  constructor
  · exact inv.calls.apply fun closes => own.completes (responds.closes closes).1
  · intro index
    rw [Effect.apply_installed]
    obtain ⟨same, now⟩ | ⟨spawned, new, now⟩ | ⟨different, now⟩ := cases index
    · subst same
      rw [now]
      simpa using (own.responded inv.calls responds settles light).apply ended
    · subst spawned new
      rw [now]
      exact { own.serving responds.was (inv.each state.size) with }
    · rw [now]
      refine (inv.each index).apply ?_ |> fun each => by simpa [different] using each
      intro closes running
      exact different (inv.alone id index (responds.closes closes).1 running)
  · exact inv.responded_counted responds applied fibers
  · intro index other closing running
    -- a fiber that starts to close the shutdown channel has left the count at zero
    obtain ⟨same, now⟩ | ⟨_, _, now⟩ | ⟨different, now⟩ := cases index
    · rw [now] at closing
      obtain ⟨given, last⟩ | ⟨phase, single, absent⟩ := responds.closing closing
      · obtain ⟨also, _⟩ | spawned | ⟨_, still⟩ := inv.running_before responds fibers running
        · exact also.trans same.symm
        · cases given.symm.trans spawned
        · have heavy : 0 < (state.fibers id).weight := by
            have weight := responds.weight
            rw [given] at weight
            simp only [Effect.lost, Effect.gained] at weight
            omega
          exact (inv.last (settles given last) last responds.was heavy still).trans same.symm
      · cases (own.hosted single phase).symm.trans absent
    · rw [now] at closing
      cases closing
    · rw [now] at closing
      exact absurd (inv.alone index id closing responds.was).symm different
  · exact inv.responded_bound responds applied fibers checked

end Libgoc.Http.Server
