import Libgoc.Pool.Turns

namespace Libgoc.Pool

open Libgoc.Data Libgoc.Semantics Function

/-! # Scheduling over whole runs -/

def Stage.held : Stage → Option FiberId
  | .picked fiber => some fiber
  | _ => none

/-- A fiber that has left by `goc_yield` is only resumed when no worker is engaged
with it any more. -/
def Patient (threadCount : Nat) (state : State) (label : Label) : Prop :=
  ∀ worker < threadCount, label = .resume worker → ∀ fiber ∈ (state.workers worker).held,
    (state.fibers fiber).departure = .yield →
      ∀ other < threadCount, (state.workers other).engaged ≠ some fiber

instance (threadCount : Nat) (state : State) (label : Label) :
    Decidable (Patient threadCount state label) :=
  inferInstanceAs (Decidable (∀ worker < threadCount, label = .resume worker →
    ∀ fiber ∈ (state.workers worker).held, (state.fibers fiber).departure = .yield →
      ∀ other < threadCount, (state.workers other).engaged ≠ some fiber))

section

variable {threadCount : Nat} {state next : State} {label : Label} {fiber : FiberId}
  {worker : WorkerId}

theorem initialState_inv : Inv threadCount initialState where
  calm := rfl
  each := by
    intro fiber
    have queues : tally (List.count fiber) initialState.deques threadCount = 0 :=
      tally_zero fun _ => rfl
    have workers : tally (Stage.picks fiber) initialState.workers threadCount = 0 :=
      tally_zero fun _ => rfl
    have none : tokens threadCount initialState fiber = 0 := by
      unfold tokens entries hands
      rw [workers]
      exact congrArg₂ (· + · + 0) queues queues
    have unborn : ¬fiber < initialState.fresh := Nat.not_lt_zero fiber
    refine ⟨.none, by simp, fun _ => iff_of_false (by simp [initialState, Stage.engaged]) (by simp), ?_⟩
    constructor
    · intro _
      exact ⟨rfl, none, rfl, rfl⟩
    · intro stage seat
      cases seat
    · exact fun born => absurd born unborn
    · exact fun born => absurd born unborn
  wants := by simp [initialState]
  counts := rfl

theorem step_inv (inv : Inv threadCount state) (nonempty : 0 < threadCount)
    (patient : Patient threadCount state label)
    (stepped : step threadCount state label = some next) : Inv threadCount next := by
  unfold step at stepped
  split at stepped
  next valid =>
    simp only [List.all_eq_true, decide_eq_true_eq] at valid
    cases label with
    | submitSpawn =>
      cases stepped
      exact poolSubmitSpawn_inv inv
    | dispatchSpawn poster workerIdx =>
      refine poolDispatchSpawn_inv inv nonempty ?_ stepped
      intro worker member
      exact valid worker (by simpa [Label.workers] using member)
    | pick worker source =>
      obtain ⟨fiber, picks⟩ := pick_picks (valid worker (by simp [Label.workers])) stepped
      exact picks.inv (valid worker (by simp [Label.workers])) inv
    | resume worker =>
      have inside := valid worker (by simp [Label.workers])
      refine mcoResume_inv inv inside ?_ stepped
      intro fiber at_ yielded other engaged
      refine patient worker inside rfl fiber ?_ yielded other
        ((inv.sits_of_engaged engaged).within other rfl) engaged
      rw [at_]
      rfl
    | clearParked worker => exact clearParked_inv inv stepped
    | park worker => exact park_inv inv stepped
    | yield worker => exact gocYield_inv inv stepped
    | suspend worker => exact mcoYield_inv inv stepped
    | finish worker => exact mcoMainEnd_inv inv stepped
    | jumpout worker => exact mcoJumpout_inv inv stepped
    | status worker => exact mcoStatus_inv inv stepped
    | loadParked worker => exact loadParked_inv inv stepped
    | storeParked worker => exact storeParked_inv inv stepped
    | destroy worker =>
      exact mcoDestroy_inv inv (valid worker (by simp [Label.workers])) stepped
    | subtractLive worker => exact subtractLive_inv inv stepped
    | claim fiber checked => exact claimFiber_inv inv stepped
    | post index poster toHome =>
      refine waitForFiberSuspended_inv inv nonempty ?_ stepped
      intro worker member
      exact valid worker (by simpa [Label.workers] using member)
  next => cases stepped

theorem inv_of_reachable
    (reachable : (system threadCount).ReachableWith (Patient threadCount) state) :
    0 < threadCount ∧ Inv threadCount state := by
  apply reachable.invariant
  · intro start initial
    obtain ⟨nonempty, rfl⟩ := initial
    exact ⟨nonempty, initialState_inv⟩
  · intro before label after holds patient stepped
    exact ⟨holds.1, step_inv holds.2 holds.1 patient stepped⟩

/-- The only worker holds no entry while it is engaged. -/
theorem patient_of_single : Patient 1 state label := by
  intro worker inside _ fiber held _ other also engaged
  obtain rfl : worker = other := by omega
  cases at_ : state.workers worker with
  | picked guest =>
    rw [at_] at engaged
    cases engaged
  | _ =>
    rw [at_] at held
    cases held

/-- The workers can go on such that the fiber is destroyed and subtracted. -/
def Settles (threadCount : Nat) (state : State) (fiber : FiberId) : Prop :=
  ∃ labels final, (system threadCount).runWith (Patient threadCount) state labels = some final ∧
    (final.fibers fiber).ledger.destroys = 1 ∧ (final.fibers fiber).ledger.subtracted = 1

theorem Settles.after (settles : Settles threadCount next fiber)
    (patient : Patient threadCount state label)
    (stepped : step threadCount state label = some next) : Settles threadCount state fiber := by
  obtain ⟨labels, final, ran, ends⟩ := settles
  refine ⟨label :: labels, final, ?_, ends⟩
  have first : (system threadCount).step state label = some next := stepped
  simp only [System.runWith, if_pos patient, first]
  exact ran

section

variable (inv : Inv threadCount state)
include inv

/-- A step of an engaged worker towards the end. -/
theorem Inv.settles_after (inside : worker < threadCount)
    (done : exec threadCount state label = some next)
    (workers : label.workers = [worker]) (notResume : ∀ other, label ≠ .resume other)
    (settles : Inv threadCount next → Settles threadCount next fiber) :
    Settles threadCount state fiber := by
  have patient : Patient threadCount state label := by
    intro other _ resumes
    exact absurd resumes (notResume other)
  have stepped : step threadCount state label = some next := by
    unfold step
    rw [workers, if_pos (by simpa using inside)]
    exact done
  exact (settles (step_inv inv (Nat.zero_lt_of_lt inside) patient stepped)).after patient stepped

theorem Inv.settles_uncounting
    (at_ : state.workers worker = .uncounting fiber) : Settles threadCount state fiber := by
  have inside := inv.inside at_ rfl
  obtain ⟨co, before, _⟩ := inv.hosts_at at_ rfl
  have good := inv.good_at at_ rfl
  have destroys : (state.fibers fiber).ledger.destroys = 1 :=
    (good.balanced (good.born_of_seat nofun)).destroys.trans (if_pos co)
  have done : exec threadCount state (.subtractLive worker) =
      some ((state.turn worker .idle fiber (state.fibers fiber).subtracted).setLive
        (subT state.liveCount 1)) := by
    simp only [exec, subtractLive, at_]
  refine inv.settles_after inside done rfl nofun fun _ => ⟨[], _, rfl, ?_, ?_⟩
  · simpa [State.turn, State.setLive, State.setStage, State.setFiber, Fiber.subtracted] using destroys
  · simpa [State.turn, State.setLive, State.setStage, State.setFiber, Fiber.subtracted] using before

theorem Inv.settles_checking
    (at_ : state.workers worker = .checking fiber .dead) : Settles threadCount state fiber := by
  have inside := inv.inside at_ rfl
  have done : exec threadCount state (.destroy worker) =
      some (state.turn worker (.uncounting fiber) fiber (state.fibers fiber).destroyed) := by
    simp only [exec, mcoDestroy, at_, if_true]
  exact inv.settles_after inside done rfl nofun fun later =>
    later.settles_uncounting (update_self ..)

theorem Inv.settles_settling
    (at_ : state.workers worker = .settling fiber .dead) : Settles threadCount state fiber := by
  have inside := inv.inside at_ rfl
  have even : (state.fibers fiber).parked % 2 ≠ 1 := by
    obtain ⟨status, _, ⟨co, _⟩ | ⟨_, parked, _⟩⟩ := inv.hosts_at at_ rfl
    · cases co.symm.trans status
    · omega
  have done : exec threadCount state (.loadParked worker) =
      some (state.setStage worker (.checking fiber .dead)) := by
    simp only [exec, loadParked, at_, if_neg even]
  exact inv.settles_after inside done rfl nofun fun later =>
    later.settles_checking (update_self ..)

theorem Inv.settles_returned
    (at_ : state.workers worker = .returned fiber) (co : (state.fibers fiber).co = .dead) :
    Settles threadCount state fiber := by
  have inside := inv.inside at_ rfl
  have done : exec threadCount state (.status worker) =
      some (state.setStage worker (.settling fiber .dead)) := by
    simp only [exec, mcoStatus, at_, co]
  exact inv.settles_after inside done rfl nofun fun later =>
    later.settles_settling (update_self ..)

theorem Inv.settles_ending
    (at_ : state.workers worker = .ending fiber) : Settles threadCount state fiber := by
  have inside := inv.inside at_ rfl
  obtain ⟨co, _⟩ := inv.hosts_at at_ rfl
  have done : exec threadCount state (.jumpout worker) =
      some (state.turn worker (.returned fiber) fiber
        { state.fibers fiber with onStack := false }) := by
    simp only [exec, mcoJumpout, at_]
  refine inv.settles_after inside done rfl nofun fun later =>
    later.settles_returned (update_self ..) ?_
  simpa [State.turn, State.setStage, State.setFiber] using co

end

/-- A fiber whose function has returned, or that is destroyed. -/
def Fiber.Finished (record : Fiber) : Prop :=
  record.co = .dead ∨ record.co = .destroyed

theorem Fiber.Finished.not_running {record : Fiber} (finished : record.Finished) :
    record.co ≠ .running ∧ record.co ≠ .suspended := by
  obtain dead | destroyed := finished
  · simp [dead]
  · simp [destroyed]

theorem Left.dead {record : Fiber} {tokens pendings : Nat} (left : Left record tokens pendings)
    (finished : record.Finished) : record.co = .dead := by
  obtain ⟨_, ⟨co, _⟩ | ⟨co, _⟩⟩ := left
  · exact absurd co finished.not_running.2
  · exact co

/-- A worker that is engaged with a finished fiber brings it to its end. -/
theorem Inv.settles_hosted (inv : Inv threadCount state)
    (engaged : (state.workers worker).engaged = some fiber)
    (finished : (state.fibers fiber).Finished) : Settles threadCount state fiber := by
  have hosts := (inv.sits_of_engaged engaged).good.hosts _ rfl
  cases at_ : state.workers worker with
  | idle | picked guest =>
    rw [at_] at engaged
    cases engaged
  | waking guest | running guest | leaving guest =>
    rw [at_] at hosts
    exact absurd hosts.1 finished.not_running.1
  | yielding guest | bumping guest st parked =>
    rw [at_] at hosts
    exact absurd hosts.1 finished.not_running.2
  | ending guest =>
    rw [at_] at engaged
    cases engaged
    exact inv.settles_ending at_
  | returned guest =>
    rw [at_] at hosts engaged
    cases engaged
    exact inv.settles_returned at_ (Left.dead hosts finished)
  | settling guest st =>
    rw [at_] at hosts engaged
    cases engaged
    obtain rfl : st = .dead := hosts.1.symm.trans (hosts.2.dead finished)
    exact inv.settles_settling at_
  | checking guest st =>
    rw [at_] at hosts engaged
    obtain ⟨rfl, _⟩ := hosts
    cases engaged
    exact inv.settles_checking at_
  | uncounting guest =>
    rw [at_] at engaged
    cases engaged
    exact inv.settles_uncounting at_

theorem Inv.settles (inv : Inv threadCount state) (born : fiber < state.fresh)
    (finished : (state.fibers fiber).Finished) : Settles threadCount state fiber := by
  obtain ⟨host, sits⟩ := inv.each fiber
  cases host with
  | some worker => exact inv.settles_hosted ((sits.engaged worker).mpr rfl) finished
  | none =>
    obtain ⟨co, _⟩ | ⟨co, once, _⟩ := sits.good.rests born rfl
    · exact absurd co finished.not_running.2
    · have destroys := (sits.good.balanced born).destroys
      rw [if_pos co] at destroys
      exact ⟨[], state, rfl, destroys, once⟩

/-- No resume of a coroutine that is not suspended; a suspended fiber has one
entry, on a run queue or in the hands of the worker that has just taken it,
unless it waits on channels; each wake-up gives one resume; a fiber is destroyed
and subtracted from `live_count` once it has finished, and only once. -/
structure Scheduled (threadCount : Nat) (state : State) : Prop where
  calm : state.misresumed = 0
  suspended : ∀ fiber < state.fresh, (state.fibers fiber).co = .suspended →
    (state.fibers fiber).wait = .none →
      entries threadCount state fiber + hands threadCount state fiber = 1
  waiting : ∀ fiber < state.fresh, (state.fibers fiber).wait ≠ .none →
    entries threadCount state fiber + hands threadCount state fiber = 0
  ledger : ∀ fiber < state.fresh, Balanced (state.fibers fiber)
    (tokens threadCount state fiber) (pendings state fiber)
  finished : ∀ fiber < state.fresh, (state.fibers fiber).Finished →
    Settles threadCount state fiber
  once : ∀ fiber < state.fresh, (state.fibers fiber).ledger.subtracted ≤
    (state.fibers fiber).ledger.destroys ∧ (state.fibers fiber).ledger.destroys ≤ 1
  live : Counts state

theorem Balanced.destroyed_once {record : Fiber} {tokens pendings : Nat}
    (balanced : Balanced record tokens pendings) :
    record.ledger.subtracted ≤ record.ledger.destroys ∧ record.ledger.destroys ≤ 1 := by
  have destroys := balanced.destroys
  by_cases co : record.co = .destroyed
  · rw [if_pos co] at destroys
    have once := balanced.once
    omega
  · rw [if_neg co] at destroys
    have counted := balanced.counted co
    omega

theorem Inv.scheduled (inv : Inv threadCount state) : Scheduled threadCount state := by
  have ledger : ∀ fiber < state.fresh, Balanced (state.fibers fiber)
      (tokens threadCount state fiber) (pendings state fiber) := by
    intro fiber born
    obtain ⟨_, sits⟩ := inv.each fiber
    exact sits.good.balanced born
  constructor
  · exact inv.calm
  · intro fiber born co wait
    obtain ⟨_, sits⟩ := inv.each fiber
    exact sits.good.one_token born co wait
  · intro fiber _ waiting
    obtain ⟨_, sits⟩ := inv.each fiber
    obtain ⟨_, ⟨_, _, _, none, _⟩ | ⟨_, _, _, _, _, none, _⟩⟩ := sits.good.waits (.inl waiting)
    · exact none
    · exact none
  · exact ledger
  · exact fun _ born finished => inv.settles born finished
  · exact fun fiber born => (ledger fiber born).destroyed_once
  · exact inv.counts

theorem patient_runs_scheduled
    (reachable : (system threadCount).ReachableWith (Patient threadCount) state) :
    Scheduled threadCount state :=
  (inv_of_reachable reachable).2.scheduled

def handoffRun : List Label :=
  [.submitSpawn, .dispatchSpawn none none, .pick 0 .injector, .resume 0, .park 0,
    .claim 0 true, .suspend 0, .jumpout 0, .status 0, .loadParked 0, .storeParked 0,
    .post 0 none false, .pick 1 .injector, .resume 1, .destroy 0, .clearParked 1, .yield 1,
    .pick 0 .injector, .suspend 1, .jumpout 1, .status 1, .loadParked 1, .resume 0, .finish 0,
    .jumpout 0, .status 0, .loadParked 0, .destroy 0, .subtractLive 0]

theorem handoffRun_scheduled : ∃ state, (system 2).runWith (Patient 2) initialState handoffRun =
    some state ∧ (state.fibers 0).ledger.resumes = 3 ∧ Scheduled 2 state :=
  ⟨_, rfl, rfl, patient_runs_scheduled
    (.of_run (system 2) (Patient 2) handoffRun ⟨by decide, rfl⟩ rfl)⟩

/-- The second worker takes the entry of a fiber that is still running, and its
resume does nothing. -/
def yieldRun : List Label :=
  [.submitSpawn, .dispatchSpawn none none, .pick 0 .injector, .resume 0, .yield 0,
    .pick 1 .injector, .resume 1, .suspend 0, .jumpout 0, .status 0, .loadParked 0, .destroy 0,
    .status 1, .loadParked 1, .destroy 1]

/-- The fiber is suspended and waits for nothing, and no entry is left. -/
theorem yielded_fiber_lost : ∃ state, (system 2).Reachable state ∧ state.misresumed = 1 ∧
    (state.fibers 0).co = .suspended ∧ (state.fibers 0).wait = .none ∧
    entries 2 state 0 + hands 2 state 0 = 0 ∧ state.claims = [] ∧ state.liveCount = 1 :=
  ⟨_, .of_run (system 2) yieldRun ⟨by decide, rfl⟩ rfl, rfl, rfl, rfl, rfl, rfl, rfl⟩

/-- With one worker there is nothing to wait for. -/
theorem single_worker_scheduled (reachable : (system 1).Reachable state) : Scheduled 1 state := by
  have patient : (system 1).ReachableWith (Patient 1) state :=
    reachable.weaken fun _ _ _ => patient_of_single
  exact (inv_of_reachable patient).2.scheduled

theorem yieldRun_scheduled_alone : ∃ state, (system 1).run initialState (yieldRun.take 5) =
    some state ∧ Scheduled 1 state :=
  ⟨_, rfl, single_worker_scheduled (.of_run (system 1) (yieldRun.take 5) ⟨by decide, rfl⟩ rfl)⟩

end

end Libgoc.Pool
