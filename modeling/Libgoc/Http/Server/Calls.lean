import Libgoc.Http.Server.Count

namespace Libgoc.Http.Server

open Libgoc.Data Libgoc.Semantics Function

/-! # Listening and closing -/

variable {state after : State} {id : Nat} {fiber : Fiber} {effect : Effect}

structure Channels (fiber after : Fiber) : Prop where
  phase : after.phase = fiber.phase
  closeCh : after.closeCh = fiber.closeCh
  acceptCh : after.acceptCh.isSome = fiber.acceptCh.isSome
  ready : fiber.ready ≠ none → after.ready = fiber.ready
  listened : after.ready ≠ fiber.ready → fiber.acceptCh.isSome
  stopping : fiber.stopping → after.stopping

theorem Fiber.stopping_of_close (opened : fiber.acceptCh.isSome) :
    Fiber.stopping { fiber with acceptCh := fiber.acceptCh.map CloseGuard.close } := by
  obtain ⟨acceptCh, same⟩ := Option.isSome_iff_exists.mp opened
  cases acceptCh <;> simp [same, CloseGuard.close]

theorem Fiber.opened_of_stopping (stopping : fiber.stopping) : fiber.acceptCh.isSome := by
  rcases stopping with same | same <;> simp [same]

theorem Channels.of_close :
    Channels fiber { fiber with acceptCh := fiber.acceptCh.map CloseGuard.close } where
  phase := rfl
  closeCh := rfl
  acceptCh := by simp
  ready _ := rfl
  listened changed := absurd rfl changed
  stopping stopping := Fiber.stopping_of_close (Fiber.opened_of_stopping stopping)

theorem Channels.of_receive
    (receives : fiber.receive event = some received) : Channels fiber received := by
  cases event with
  | listened ok =>
    obtain ⟨new, rfl⟩ := guarded receives
    cases ok with
    | true => constructor <;> simp_all
    | false =>
      refine ⟨rfl, rfl, by simp, fun read => absurd new.2 read, fun _ => new.1, ?_⟩
      exact fun stopping => Fiber.stopping_of_close (Fiber.opened_of_stopping stopping)
  | fails =>
    obtain ⟨-, rfl⟩ := guarded receives
    exact .of_close
  | _ =>
    simp only [Fiber.receive] at receives
    split at receives
    · cases receives
      constructor <;> simp_all
    · cases receives

theorem Channels.each (channels : Channels (state.fibers id) fiber) (index : Nat) :
    Channels (state.fibers index) ((state.setFiber id fiber).fibers index) := by
  simp only [State.setFiber, update_apply]
  split
  · rename_i same
    rw [same]
    exact channels
  · exact ⟨rfl, rfl, rfl, fun _ => rfl, fun changed => absurd rfl changed, fun stops => stops⟩

theorem Each.channels {one : Fiber} (each : Each state id one installed)
    (channels : Channels one fiber) : Each state id fiber installed := by
  have phase := channels.phase
  have runs : fiber.Running → one.Running := by
    rw [Fiber.Running, phase]
    exact fun running => running
  have silent : one.acceptCh = none → fiber.acceptCh = none ∧ fiber.ready = one.ready := by
    intro none
    have same := channels.acceptCh
    rw [none] at same
    refine ⟨Option.not_isSome_iff_eq_none.mp (by simp [same]), ?_⟩
    by_contra changed
    have opened := channels.listened changed
    simp [none] at opened
  constructor
  · intro beyond
    obtain ⟨absent, closed, unready⟩ := each.beyond beyond
    exact ⟨phase.trans absent, (silent closed).1, (silent closed).2.trans unready⟩
  · exact fun awaits => phase.trans (each.awaited awaits)
  · intro slot early
    rw [phase] at early
    obtain ⟨closed, unready⟩ := each.unready slot early
    exact ⟨(silent closed).1, (silent closed).2.trans unready⟩
  · intro ready
    rw [channels.acceptCh]
    by_cases changed : fiber.ready = one.ready
    · exact each.heard (changed ▸ ready)
    · exact channels.listened changed
  · rw [phase]
    exact each.hosted
  · rw [phase]
    exact each.slotted
  · rw [phase]
    exact each.final
  · rw [phase]
    exact each.completes
  · exact fun shut running => each.shut shut (runs running)
  · exact fun vacant running => each.vacant vacant (runs running)
  · intro next collecting before
    have ready := each.collected next collecting before
    rw [channels.ready (by simp [ready]), ready]
  · rw [phase, channels.closeCh]
    exact each.cached
  · exact fun several single => phase.trans (each.vacated several single)
  · intro slot running
    rw [phase]
    exact (each.slots slot (runs running)).imp_left channels.stopping
  · rw [channels.acceptCh]
    exact each.forked
  · rw [phase, channels.acceptCh]
    exact fun inside running => each.opened inside (runs running)
  · exact fun next falling slot before running =>
      channels.stopping (each.fallen next falling slot before (runs running))
  · intro next visiting slot before running
    rw [phase]
    exact (each.visited next visiting slot before (runs running)).imp_left channels.stopping
  · intro waiting inside running
    rw [phase]
    exact (each.waited waiting inside (runs running)).imp_left channels.stopping

theorem Inv.channels (inv : Inv state) (channels : Channels (state.fibers id) fiber) :
    Inv (state.setFiber id fiber) := by
  have each := channels.each
  have phase := fun index => (each index).phase
  constructor
  · exact { inv.calls with }
  · exact fun index => { (inv.each index).channels (each index) with }
  · have total : state.active = tally Fiber.weight state.fibers state.size := inv.counted
    have same : tally Fiber.weight (state.setFiber id fiber).fibers state.size =
        tally Fiber.weight state.fibers state.size :=
      Finset.sum_congr rfl fun index _ => by rw [Fiber.weight, phase, Fiber.weight]
    exact total.trans (by rw [← same]; rfl)
  · simp only [Fiber.Running, phase]
    exact inv.alone
  · intro needed
    simp only [State.Needed, (each _).acceptCh] at needed
    obtain ⟨index, bound⟩ := inv.needed needed
    refine ⟨index, ?_⟩
    simp only [State.Bound, Fiber.Running, phase]
    exact bound

theorem Inv.closeListener (inv : Inv state) (slot : Nat) : Inv (state.closeListener slot) := by
  unfold State.closeListener
  split
  · exact inv.channels .of_close
  · exact inv

/-- The fiber of a visited slot is told, or its channel was not there yet. -/
theorem Inv.visit (inv : Inv state) (inside : slot < state.workers)
    (running : ((state.closeListener slot).fibers slot).Running) :
    ((state.closeListener slot).fibers slot).stopping ∨
      ((state.closeListener slot).fibers slot).phase.uninstalled = true := by
  have each := inv.each slot
  unfold State.closeListener at *
  split at running
  · rename_i found
    rw [if_pos found]
    simp only [State.closeAccept, State.setFiber, update_self] at running ⊢
    by_cases early : (state.fibers slot).phase.early = true
    · exact .inr (by revert early; cases (state.fibers slot).phase <;> simp)
    · refine .inl (Fiber.stopping_of_close ?_)
      exact each.opened (Nat.le_of_lt inside) running fun _ => by simpa using early
  · rename_i missing
    rw [if_neg missing]
    obtain stopping | ⟨present, uninstalled | installed⟩ := each.slots inside running
    · exact .inl stopping
    · exact .inr uninstalled
    · exact absurd (by simp [present, installed]) missing

theorem closeListener_same (slot : Nat) : ∃ fibers, state.closeListener slot = { state with fibers } := by
  unfold State.closeListener
  split
  · exact ⟨_, rfl⟩
  · exact ⟨_, rfl⟩

section

variable (inv : Inv state)
include inv

/-- While `goc_http_server_listen` is running, nothing has been closed. -/
theorem Inv.calm (progress : state.listen.inProgress = true) :
    (∀ id, (state.fibers id).phase.isClosing = false) ∧ state.shutdown = .opened ∧
      state.close = .idle := by
  have open_ : ¬ state.Complete := by
    intro complete
    obtain returned | ⟨idle, _⟩ := complete
    · simp [returned] at progress
    · simp [idle] at progress
  refine ⟨fun id => ?_, ?_, ?_⟩
  · by_contra closing
    exact open_ ((inv.each id).completes (Bool.of_not_eq_false closing))
  · by_contra shut
    exact open_ (inv.calls.complete shut)
  · by_contra begun
    cases progress.symm.trans (inv.calls.ordered begun).1

/-- `goc_http_server_listen` goes on without a new accept loop. -/
theorem Inv.proceeds (progress : state.listen.inProgress = true)
    {listen : ListenPhase} (started : listen.inProgress = true)
    (settled : (∀ next, listen ≠ .spawning next) ∧ listen ≠ .forking ∧ state.listen ≠ .forking)
    (opening : listen = .opening → state.nListeners = 0)
    (several : listen.starts = true → state.listen.starts = true)
    (awaits : ∀ id, listen.awaits state.workers id → state.listen.awaits state.workers id)
    (collected : ∀ id next, listen = .collecting next false → id < next →
      (state.fibers id).ready = some true)
    (fallen : ∀ id next, listen = .falling next → id < state.workers → id < next →
      (state.fibers id).Running → (state.fibers id).stopping) :
    Inv { state with listen } := by
  obtain ⟨calm, unclosed, idle⟩ := inv.calm progress
  have returned : state.listen ≠ .returned := by
    intro returned
    simp [returned] at progress
  have fresh : listen ≠ .idle ∧ listen ≠ .returned := by
    constructor <;> intro same <;> simp [same] at started
  constructor
  · exact { inv.calls with
      unlistened := fun unlistened => opening (unlistened.resolve_left fresh.1)
      unopened := fun _ _ => inv.calls.unopened settled.2.2 returned
      forks := fun forking => absurd forking settled.2.1
      spawns := fun next spawning => absurd spawning (settled.1 next)
      several := fun starts => inv.calls.several (several starts)
      ordered := fun begun => absurd idle begun
      complete := fun shut => absurd unclosed shut }
  · intro id
    have each := inv.each id
    exact { each with
      awaited := fun place => each.awaited (awaits id place)
      completes := fun closing => by cases closing.symm.trans (calm id)
      collected := collected id
      forked := fun forking => absurd forking settled.2.1
      fallen := fallen id }
  · exact inv.counted
  · exact inv.alone
  · intro needed
    obtain ⟨ended, _⟩ | ⟨_, opened⟩ := needed
    · exact absurd ended fresh.2
    · exact inv.needed (.inr ⟨progress, opened⟩)

theorem Inv.returns (needed : state.Listening → ∃ id, state.Bound id) :
    Inv { state with listen := .returned } := by
  constructor
  · exact { inv.calls with
      unlistened := by simp
      unopened := by simp
      forks := by simp
      spawns := by simp
      several := by simp
      ordered := fun begun => ⟨rfl, (inv.calls.ordered begun).2⟩
      complete := fun _ => .inl rfl }
  · exact fun id => { inv.each id with
      awaited := by simp
      completes := fun _ => .inl rfl
      collected := by simp
      forked := by simp
      fallen := by simp }
  · exact inv.counted
  · exact inv.alone
  · intro after
    obtain ⟨_, listening, _⟩ | ⟨progress, _⟩ := after
    · exact needed listening
    · cases progress

/-- `goc_http_server_listen` provides for an accept loop or spawns it. -/
theorem Inv.places (progress : state.listen.inProgress = true)
    (place : state.listen.awaits state.workers id) (inside : id ≤ state.workers)
    (light : fiber.phase = .absent ∨ fiber.phase = .spawned)
    (slot : id < state.workers → fiber.acceptCh = none ∧ fiber.ready = none)
    (heard : fiber.ready = some true → fiber.acceptCh.isSome)
    {listen : ListenPhase} {acceptCh : Bool}
    (next : (state.listen = .spawning id ∧ id < state.workers ∧ listen = .spawning (id + 1) ∧
        acceptCh = state.acceptCh) ∨
      (id = state.workers ∧ state.nListeners = 0 ∧ fiber.acceptCh.isSome ∧ acceptCh = true ∧
        (listen = .forking ∧ fiber.phase = .absent ∨
          listen = .returned ∧ fiber.phase = .spawned))) :
    Inv { state.setFiber id fiber with listen, acceptCh } := by
  obtain ⟨calm, unclosed, idle⟩ := inv.calm progress
  have absent := (inv.each id).awaited place
  have small : id < state.size := by
    simp only [State.size]
    omega
  have still : ∀ index, ((state.setFiber id fiber).fibers index).phase.isClosing = false := by
    intro index
    simp only [State.setFiber, update_apply]
    split
    · obtain phase | phase := light <;> rw [phase] <;> rfl
    · exact calm index
  have several := fun starts => inv.calls.several starts
  constructor
  · obtain ⟨spawning, inside, rfl, rfl⟩ | ⟨single, none, _, rfl, ⟨rfl, _⟩ | ⟨rfl, _⟩⟩ := next
    · exact { inv.calls with
        unlistened := by simp
        unopened := fun _ _ => inv.calls.unopened (by simp [spawning]) (by simp [spawning])
        forks := by simp
        spawns := fun next same => by cases same; exact inside
        several := fun _ => inv.calls.several (by simp [spawning])
        ordered := fun begun => absurd idle begun
        waits := fun waiting => by cases idle.symm.trans waiting
        complete := fun shut => absurd unclosed shut }
    all_goals exact { inv.calls with
      unlistened := by simp
      unopened := by simp
      forks := by simp [none, State.setFiber]
      spawns := by simp
      several := by simp
      ordered := fun begun => absurd idle begun
      waits := fun waiting => by cases idle.symm.trans waiting
      complete := fun shut => absurd unclosed shut }
  · intro index
    have each := inv.each index
    by_cases same : index = id
    · subst same
      simp only [State.setFiber, update_self]
      have several := inv.calls.several
      clear each inv place progress calm still small
      constructor
      · intro beyond
        simp only [State.size] at beyond
        omega
      all_goals grind [Phase.running, Phase.isClosing, Phase.listener, Phase.early,
        Phase.uninstalled, ListenPhase.awaits, ListenPhase.starts, Fiber.Running]
    · simp only [State.setFiber, update_of_ne same]
      exact { each with
        awaited := by
          intro awaits
          apply each.awaited
          obtain ⟨spawning, _, rfl, _⟩ | ⟨single, _, _, _, ⟨rfl, _⟩ | ⟨rfl, _⟩⟩ := next
          · rw [spawning]
            simp only [ListenPhase.awaits] at awaits ⊢
            omega
          · exact absurd (awaits.trans single.symm) same
          · cases awaits
        hosted := by
          intro single spawned
          obtain ⟨_, _, _, rfl⟩ | ⟨_, _, _, rfl, _⟩ := next
          · exact each.hosted single spawned
          · rfl
        completes := fun closing => by cases closing.symm.trans (calm index)
        collected := by grind
        forked := by grind
        fallen := by grind
        vacant := by simp [idle] }
  · have same : tally Fiber.weight (update state.fibers id fiber) state.size =
        tally Fiber.weight state.fibers state.size := by
      apply tally_update_same small
      obtain phase | phase := light <;> simp [phase, absent]
    have total : state.active = tally Fiber.weight state.fibers state.size := inv.counted
    exact total.trans (by rw [← same]; rfl)
  · exact fun index _ closing => by cases closing.symm.trans (still index)
  · intro needed
    obtain ⟨ended, _⟩ | ⟨_, index, slotted, opened⟩ := needed
    · refine ⟨id, ?_⟩
      obtain ⟨_, _, rfl, _⟩ | ⟨single, _, _, _, ⟨rfl, _⟩ | ⟨_, spawned⟩⟩ := next
      · cases ended
      · cases ended
      · simp only [State.Bound, State.setFiber, update_self, Fiber.Running, spawned]
        exact ⟨rfl, fun slot => absurd single (Nat.ne_of_lt slot)⟩
    · simp only [State.setFiber] at slotted opened
      have different : index ≠ id := by
        intro same
        rw [same, update_self, (slot (same ▸ slotted)).1] at opened
        cases opened
      rw [update_of_ne different] at opened
      obtain ⟨bound, running, late⟩ := inv.needed (.inr ⟨progress, index, slotted, opened⟩)
      have apart : bound ≠ id := by
        intro same
        simp [same, absent] at running
      refine ⟨bound, ?_⟩
      simp only [State.Bound, State.setFiber, update_of_ne apart]
      exact ⟨running, late⟩

/-- All listeners have been told to stop after a failed start. -/
theorem Inv.forgets (falling : state.listen = .falling next) (all : state.workers ≤ next) :
    Inv { state with nListeners := 0, arrays := false, listen := .opening } := by
  have progress : state.listen.inProgress = true := by simp [falling]
  obtain ⟨calm, unclosed, idle⟩ := inv.calm progress
  constructor
  · exact { inv.calls with
      unlistened := fun _ => rfl
      unopened := fun _ _ => inv.calls.unopened (by simp [falling]) (by simp [falling])
      forks := by simp
      spawns := by simp
      several := by simp
      ordered := fun begun => absurd idle begun
      waits := by simp [idle]
      visits := by simp [idle]
      complete := fun shut => absurd unclosed shut
      listeners := by simp
      arrays := by simp }
  · intro id
    have each := inv.each id
    exact { each with
      awaited := fun place => each.awaited (by rw [falling]; exact place)
      completes := fun closing => by cases closing.symm.trans (calm id)
      vacant := by simp [idle]
      collected := by simp
      vacated := by simp
      slots := fun slot running =>
        .inl (each.fallen next falling slot (Nat.lt_of_lt_of_le slot all) running)
      forked := by simp
      fallen := by simp }
  · exact inv.counted
  · exact inv.alone
  · intro needed
    obtain ⟨ended, _⟩ | ⟨_, opened⟩ := needed
    · cases ended
    · exact inv.needed (.inr ⟨progress, opened⟩)

theorem Inv.listenNext (orderly : Orderly state .listenNext)
    (stepped : listenNext state = some after) : Inv after := by
  unfold Server.listenNext at stepped
  split at stepped
  · cases stepped
  · cases stepped
  · rename_i next spawning
    split at stepped
    · rename_i inside
      cases stepped
      apply inv.places
      · simp [spawning]
      · simp only [spawning, ListenPhase.awaits]
        omega
      · omega
      · exact .inr rfl
      · exact fun _ => ⟨rfl, rfl⟩
      · simp
      · exact .inl ⟨spawning, inside, rfl, rfl⟩
    · cases stepped
      have bound := inv.calls.spawns next spawning
      apply inv.proceeds <;> simp [spawning, bound]
  · rename_i next failed collecting
    split at stepped
    · split at stepped
      · cases stepped
      · rename_i ok ready
        cases stepped
        apply inv.proceeds <;> simp [collecting]
        intro id good ready_ before
        subst good ready_
        obtain earlier | last := Nat.lt_or_eq_of_le before
        · exact (inv.each id).collected next collecting earlier
        · rw [last, ready]
    · split at stepped
      · cases stepped
        apply inv.proceeds <;> simp [collecting]
      · rename_i good
        cases stepped
        apply inv.returns
        intro _
        have several := (inv.calls.several (by rw [collecting]; rfl)).1
        rw [Bool.of_not_eq_true good] at collecting
        have ready := (inv.each 0).collected next collecting (by omega)
        exact inv.needed (.inr ⟨by rw [collecting]; rfl, 0, by omega, (inv.each 0).heard ready⟩)
  · rename_i next falling
    split at stepped
    · rename_i inside
      cases stepped
      have kept := inv.closeListener next
      have visit := inv.visit inside
      obtain ⟨fibers, same⟩ := @closeListener_same state next
      have phase : ((state.closeListener next).fibers next).phase = (state.fibers next).phase := by
        unfold State.closeListener
        split <;> simp [State.closeAccept, State.setFiber]
      simp only [Orderly, falling] at orderly
      rw [same] at kept visit phase ⊢
      apply kept.proceeds <;> simp [falling]
      intro id slot before running
      obtain earlier | last := Nat.lt_or_eq_of_le before
      · exact (kept.each id).fallen next falling slot earlier running
      · subst last
        obtain stopping | uninstalled := visit running
        · exact stopping
        · cases uninstalled.symm.trans ((congrArg Phase.uninstalled phase).trans orderly)
    · rename_i all
      cases stepped
      exact inv.forgets falling (Nat.le_of_not_lt all)
  · rename_i opening
    cases stepped
    apply inv.places
    · simp [opening]
    · simp [opening]
    · exact Nat.le_refl _
    · exact .inl rfl
    · exact fun slot => absurd slot (Nat.lt_irrefl _)
    · simp
    · exact .inr ⟨rfl, inv.calls.unlistened (.inr opening), rfl, rfl, .inl ⟨rfl, rfl⟩⟩
  · rename_i forking
    cases stepped
    obtain ⟨opened, none⟩ := inv.calls.forks forking
    have each := inv.each state.workers
    apply inv.places
    · simp [forking]
    · simp [forking]
    · exact Nat.le_refl _
    · exact .inr rfl
    · exact fun slot => absurd slot (Nat.lt_irrefl _)
    · exact each.heard
    · exact .inr ⟨rfl, none, each.forked forking rfl, opened, .inr ⟨rfl, rfl⟩⟩

theorem Inv.startListen (idle : state.listen = .idle)
    (first : state.close = .idle) (stepped : startListen state start = some after) :
    Inv after := by
  have none := inv.calls.unlistened (.inl idle)
  have closed := inv.calls.unopened (by simp [idle]) (by simp [idle])
  have fresh : ∀ id ≤ state.workers, (state.fibers id).phase = .absent :=
    fun id inside => (inv.each id).awaited (by rw [idle]; exact inside)
  have incomplete : ¬ state.Complete := by simp [State.Complete, idle, first]
  have unneeded : ¬ ∃ id < state.workers, (state.fibers id).acceptCh.isSome := by
    intro opened
    obtain ⟨id, inside, opened⟩ := opened
    simp [((inv.each id).unready inside (.inr (fresh id (Nat.le_of_lt inside)))).1] at opened
  cases start with
  | invalidAddress =>
    cases stepped
    apply inv.returns
    simp [none, closed]
  | reuseport =>
    obtain ⟨several, rfl⟩ := guarded stepped
    constructor
    · exact { inv.calls with
        unlistened := by simp
        unopened := fun _ _ => closed
        forks := by simp
        spawns := by simp
        several := fun _ => ⟨several, rfl⟩
        ordered := fun begun => absurd first begun
        waits := by simp [first]
        visits := by simp [first]
        complete := fun shut => absurd (inv.calls.complete shut) incomplete
        listeners := fun _ => rfl
        arrays := fun _ => Nat.lt_of_succ_lt several }
    · intro id
      have each := inv.each id
      exact { each with
        awaited := fun place => fresh id place.2
        completes := fun closing => absurd (each.completes closing) incomplete
        vacant := by simp [first]
        collected := by simp
        vacated := fun _ single => fresh id (Nat.le_of_eq single)
        slots := fun slot running => by simp [fresh id (Nat.le_of_lt slot)] at running
        forked := by simp
        fallen := by simp }
    · exact inv.counted
    · exact inv.alone
    · intro needed
      obtain ⟨ended, _⟩ | ⟨_, opened⟩ := needed
      · cases ended
      · exact absurd opened unneeded
  | single =>
    cases stepped
    constructor
    · exact { inv.calls with
        unlistened := fun _ => none
        unopened := fun _ _ => closed
        forks := by simp
        spawns := by simp
        several := by simp
        ordered := fun begun => absurd first begun
        complete := fun shut => absurd (inv.calls.complete shut) incomplete }
    · intro id
      have each := inv.each id
      exact { each with
        awaited := fun place => fresh id (Nat.le_of_eq place)
        completes := fun closing => absurd (each.completes closing) incomplete
        collected := by simp
        forked := by simp
        fallen := by simp }
    · exact inv.counted
    · exact inv.alone
    · intro needed
      obtain ⟨ended, _⟩ | ⟨_, opened⟩ := needed
      · cases ended
      · exact absurd opened unneeded

theorem Inv.closes (ordered : state.listen.inProgress = false)
    (requested : state.closing = true) (begun : close ≠ .idle)
    (present : state.shutdownCh = true ∧ state.closeCh = true)
    (waits : close = .waiting → state.Listening)
    (visits : ∀ next, close = .visiting next → 0 < state.nListeners)
    (finished : close = .finishing ∨ close = .returned → state.shutdown ≠ .opened)
    (vacant : (close = .deciding ∧ ¬ state.Listening) ∨ close = .unlistened →
      ∀ id, ¬ (state.fibers id).Running)
    (visited : ∀ id next, close = .visiting next → id < state.workers → id < next →
      (state.fibers id).Running →
        (state.fibers id).stopping ∨ (state.fibers id).phase.unchecked = true)
    (waited : close = .waiting → ∀ id ≤ state.workers, (state.fibers id).Running →
      (state.fibers id).stopping ∨
        (id < state.workers ∧ (state.fibers id).phase.unchecked = true)) :
    Inv { state with close } := by
  have complete : state.Complete → State.Complete { state with close } := by
    intro complete
    exact complete.imp_right fun idle => ⟨idle.1, begun⟩
  constructor
  · exact { inv.calls with
      ordered := fun _ => ⟨ordered, requested⟩
      waits
      visits
      complete := fun shut => complete (inv.calls.complete shut)
      finished
      present := by simp [present] }
  · intro id
    have each := inv.each id
    exact { each with
      completes := fun closing => complete (each.completes closing)
      vacant := fun free => vacant free id
      visited := visited id
      waited := fun waiting => waited waiting id }
  · exact inv.counted
  · exact inv.alone
  · exact inv.needed

theorem Inv.shuts (complete : state.Complete)
    (still : ∀ id, ¬ (state.fibers id).Running) (shut : shutdown ≠ .opened) :
    Inv { state with shutdown } := by
  constructor
  · exact { inv.calls with
      complete := fun _ => complete
      finished := fun _ => shut }
  · exact fun id => { inv.each id with shut := fun _ => still id }
  · exact inv.counted
  · exact inv.alone
  · intro needed
    obtain ⟨_, _, unclosed⟩ | opened := needed
    · exact absurd unclosed shut
    · exact inv.needed (.inr opened)

theorem Inv.finishes (finishing : state.close = .finishing) (acceptCh : Bool)
    (kept : acceptCh = true → state.acceptCh = true) (installed : Nat → Bool) :
    Inv { state with
      closeCh := false
      shutdownCh := false
      acceptCh
      installed
      close := .returned } := by
  have shut := inv.calls.finished (.inl finishing)
  have still := fun id => (inv.each id).shut shut
  have ordered := inv.calls.ordered (by simp [finishing])
  have complete : state.Complete → state.listen = .returned ∨ state.listen = .idle :=
    fun complete => complete.imp_right And.left
  constructor
  · exact { inv.calls with
      unopened := by
        intro forked returned
        by_contra opened
        have unopened := inv.calls.unopened forked returned
        cases unopened.symm.trans (kept (Bool.of_not_eq_false opened))
      forks := fun forking => by cases ordered.1.symm.trans (congrArg ListenPhase.inProgress forking)
      ordered := fun _ => ordered
      waits := by simp
      visits := by simp
      complete := fun _ => (complete (inv.calls.complete shut)).imp_right fun idle => ⟨idle, by simp⟩
      finished := fun _ => shut
      present := fun _ => rfl }
  · intro id
    have each := inv.each id
    exact { each with
      hosted := fun _ spawned => absurd (congrArg Phase.running spawned) (still id)
      completes := fun closing => (complete (each.completes closing)).imp_right fun idle => ⟨idle, by simp⟩
      vacant := by simp
      slots := fun _ running => absurd running (still id)
      visited := by simp
      waited := by simp }
  · exact inv.counted
  · exact inv.alone
  · intro needed
    obtain ⟨_, _, unclosed⟩ | ⟨progress, _⟩ := needed
    · exact absurd unclosed shut
    · cases ordered.1.symm.trans progress

theorem Inv.closeNext (stepped : closeNext state = some after) : Inv after := by
  have present : state.close ≠ .returned → state.shutdownCh = true ∧ state.closeCh = true := by
    intro unfinished
    constructor
    · by_contra absent
      exact unfinished (inv.calls.present (.inl (Bool.of_not_eq_true absent)))
    · by_contra absent
      exact unfinished (inv.calls.present (.inr (Bool.of_not_eq_true absent)))
  unfold Server.closeNext at stepped
  split at stepped
  · cases stepped
  · cases stepped
  · rename_i deciding
    obtain ⟨ordered, requested⟩ := inv.calls.ordered (by simp [deciding])
    have present := present (by simp [deciding])
    split at stepped
    · rename_i several
      cases stepped
      apply inv.closes ordered requested <;> simp [present, several]
    · rename_i none
      split at stepped
      · rename_i opened
        cases stepped
        have kept : Inv (state.closeAccept state.workers) := inv.channels .of_close
        apply kept.closes ordered requested
        · simp
        · exact present
        · exact fun _ => .inr opened
        · simp
        · simp
        · simp
        · simp
        · intro _ index inside running
          obtain slot | single := Nat.lt_or_eq_of_le inside
          · obtain stopping | ⟨allocated, _⟩ := (kept.each index).slots slot running
            · exact .inl stopping
            · exact absurd (inv.calls.arrays allocated) none
          · subst single
            simp only [State.closeAccept, State.setFiber, update_self] at running ⊢
            refine .inl (Fiber.stopping_of_close ((inv.each _).opened (Nat.le_refl _) running ?_))
            exact fun slot => absurd slot (Nat.lt_irrefl _)
      · rename_i closed
        cases stepped
        have still := fun id => (inv.each id).vacant (.inl ⟨deciding, by simp_all⟩)
        apply inv.closes ordered requested <;> simp [present]
        exact fun id => by simpa using still id
  · rename_i next visiting
    obtain ⟨ordered, requested⟩ := inv.calls.ordered (by simp [visiting])
    have present := present (by simp [visiting])
    have several := inv.calls.visits next visiting
    have all := inv.calls.listeners several
    split at stepped
    · rename_i inside
      cases stepped
      have kept := inv.closeListener next
      have visit := inv.visit (all ▸ inside)
      obtain ⟨fibers, same⟩ := @closeListener_same state next
      rw [same] at kept visit ⊢
      apply kept.closes ordered requested <;> simp [present, several]
      intro index slot before running
      obtain earlier | last := Nat.lt_or_eq_of_le before
      · simpa using (kept.each index).visited next visiting slot earlier running
      · subst last
        obtain stopping | uninstalled := visit running
        · exact .inl (by simpa using stopping)
        · right
          revert uninstalled
          cases (fibers index).phase <;> simp
    · cases stepped
      apply inv.closes ordered requested <;> simp [present]
      · exact .inl several
      · intro index inside running
        obtain slot | single := Nat.lt_or_eq_of_le inside
        · obtain stopping | unchecked := (inv.each index).visited next visiting slot (by omega) running
          · exact .inl (by simpa using stopping)
          · exact .inr ⟨slot, by simpa using unchecked⟩
        · simp [(inv.each index).vacated several single] at running
  · rename_i unlistened
    obtain ⟨ordered, requested⟩ := inv.calls.ordered (by simp [unlistened])
    have present := present (by simp [unlistened])
    have complete : state.Complete := by
      cases listen : state.listen with
      | idle => exact .inr ⟨listen, by simp [unlistened]⟩
      | returned => exact .inl listen
      | _ => simp [listen] at ordered
    have closed := @closeShutdown_shut state (.inr present.1)
    cases stepped
    have shut := inv.shuts complete (fun id => (inv.each id).vacant (.inr unlistened)) closed
    apply shut.closes ordered requested <;> simp [present]
    exact closed
  · rename_i waiting
    obtain ⟨ordered, requested⟩ := inv.calls.ordered (by simp [waiting])
    obtain ⟨closed, rfl⟩ := guarded stepped
    apply inv.closes ordered requested <;> simp [present, waiting, closed]
  · rename_i finishing
    cases stepped
    exact inv.finishes finishing _ (fun both => (Bool.and_eq_true_iff.mp both).1) _

theorem Inv.stepped (orderly : Orderly state label)
    (stepped : step state label = some after) : Inv after := by
  cases label with
  | listen start =>
    simp only [step] at stepped
    split at stepped
    · rename_i idle
      exact inv.startListen idle orderly stepped
    · cases stepped
  | listenNext => exact inv.listenNext orderly stepped
  | openFails =>
    obtain ⟨opening, rfl⟩ := guarded stepped
    apply inv.returns
    have none := inv.calls.unlistened (.inr opening)
    have closed := inv.calls.unopened (by simp [opening]) (by simp [opening])
    simp [none, closed]
  | close =>
    obtain ⟨idle, rfl⟩ := guarded stepped
    obtain ⟨ordered, listening⟩ := orderly
    have kept : Inv { state with closing := true } :=
      { inv with
        calls := { inv.calls with ordered := fun begun => ⟨(inv.calls.ordered begun).1, rfl⟩ }
        each := fun id => { inv.each id with } }
    have unfinished : ¬ (state.shutdownCh = false ∨ state.closeCh = false) :=
      fun absent => by cases idle.symm.trans (inv.calls.present absent)
    apply kept.closes ordered rfl <;> simp
    · simpa [not_or] using unfinished
    · intro none closed id
      obtain listening | still := listening
      · exact absurd listening (by simp [State.Listening, none, closed])
      · obtain inside | beyond := Nat.lt_or_ge id state.size
        · simpa using still id inside
        · simpa using congrArg Phase.running ((inv.each id).beyond beyond).1
  | closeNext => exact inv.closeNext stepped
  | fiber id event =>
    simp only [step] at stepped
    split at stepped
    · cases stepped
    · rename_i fiber effect responded
      cases stepped
      apply inv.responded (respond_responds responded)
      · intro given
        subst given
        obtain rfl | rfl := respond_gives responded
        · exact orderly
        · exact orderly
      · intro installed
        cases respond_installed installed responded
        exact orderly
  | channel id event =>
    simp only [step] at stepped
    split at stepped
    · cases stepped
    · rename_i fiber received
      cases stepped
      exact inv.channels (.of_receive received)
  | shutdownCloses =>
    obtain ⟨requested, rfl⟩ := guarded stepped
    have shut : state.shutdown ≠ .opened := by simp [requested]
    exact inv.shuts (inv.calls.complete shut) (fun id => (inv.each id).shut shut) (by simp)

end

end Libgoc.Http.Server
