import Mathlib.Logic.Function.Basic
import Libgoc.Channel.Wakeups

namespace Libgoc.Channel

open Libgoc.Data Libgoc.Semantics Relation Function

/-! # The dead waiters of a channel -/

def State.waiters (state : State) (ch : ChanId) : List EntryId :=
  (state.chans ch).takers ++ (state.chans ch).putters

def State.dead (state : State) (target : EntryId) : Bool :=
  (state.entry target).cancelled || (state.entry target).sharesFired && (state.ops target.op).fired

def State.deadWaiters (state : State) (ch : ChanId) : Nat :=
  (state.waiters ch).countP state.dead

def ParksOn (before after : State) (ch : ChanId) : Prop :=
  ∃ target ∈ after.waiters ch,
    (before.ops target.op).stage ≠ .waiting ∧ (after.ops target.op).stage = .waiting

/-- The first waiter that can be claimed, if there is one, has the only arm of
its call. -/
def State.FirstAlone (state : State) (waiters : List EntryId) : Prop :=
  match waiters.find? state.live with
  | some target => (state.ops target.op).order.length ≤ 1
  | none => True

instance (state : State) : DecidablePred state.FirstAlone := fun waiters => by
  unfold State.FirstAlone
  split <;> infer_instance

/-- The partner the arm may find parked leaves no other arm behind. -/
def State.PartnerAlone (state : State) : Arm → Prop
  | .take ch => (state.chans ch).buffer.contents = [] → state.FirstAlone (state.chans ch).putters
  | .put ch _ => state.FirstAlone (state.chans ch).takers
  | .default => True

instance (state : State) : DecidablePred state.PartnerAlone
  | .take _ => inferInstanceAs (Decidable (_ → _))
  | .put _ _ => inferInstanceAs (Decidable (State.FirstAlone _ _))
  | .default => inferInstanceAs (Decidable True)

/-- The calls that wait on the channel have all their arms there. -/
def State.Whole (state : State) (ch : ChanId) : Prop :=
  ∀ target ∈ state.waiters ch, ∀ arm ∈ (state.ops target.op).order,
    ⟨target.op, arm⟩ ∈ state.waiters ch

instance (state : State) (ch : ChanId) : Decidable (state.Whole ch) :=
  inferInstanceAs (Decidable (∀ _ ∈ _, ∀ _ ∈ _, _))

/-- No select that the step claims keeps another arm linked. -/
def NoArmLeft (state : State) (label : Label) : Prop :=
  (∀ spec ∈ label.arms state, state.PartnerAlone spec) ∧
    match label with
    | .closeBody closer => state.Whole (state.closers closer).ch
    | _ => True

instance (state : State) (label : Label) : Decidable (NoArmLeft state label) :=
  match label with
  | .closeBody .. => inferInstanceAs (Decidable ((∀ spec ∈ _, _) ∧ _))
  | .take .. | .put .. | .takeSync .. | .putSync .. | .takeTry .. | .takeCb .. | .putCb .. |
    .drain | .alts .. | .altsTry .. | .altsPark .. | .altsCancel .. | .suspend .. | .post .. |
    .resume .. | .syncResume .. | .close .. | .closeDispatch .. | .closeClaim .. |
    .closeFinish .. | .setOnClose .. | .callHook .. =>
    inferInstanceAs (Decidable ((∀ spec ∈ _, _) ∧ _))

variable {state before middle after : State} {scope : Scope} {op : OpId} {ch : ChanId}
  {target : EntryId}

def Clean (state : State) : Prop :=
  ∀ ch, ∀ target ∈ state.waiters ch, (state.ops target.op).unclaimed

theorem Core.waiter_spec (core : Core state) (member : target ∈ state.waiters ch) :
    state.registered target = some ch := by
  rcases List.mem_append.mp member with taker | putter
  · simp [State.registered, State.spec, ((core.link ch).taker target taker).2, Arm.chan]
  · obtain ⟨val, spec⟩ := ((core.link ch).putter target putter).2
    simp [State.registered, State.spec, spec, Arm.chan]

theorem Core.taker_ne_putter (core : Core state)
    (takes : taker ∈ (state.chans ch).takers) (puts : putter ∈ (state.chans ch).putters) :
    taker ≠ putter := by
  rintro rfl
  obtain ⟨val, spec⟩ := ((core.link ch).putter taker puts).2
  cases spec.symm.trans ((core.link ch).taker taker takes).2

theorem Clean.deadWaiters_eq (clean : Clean state) (core : Core state) (ch : ChanId) :
    state.deadWaiters ch = 0 := by
  apply List.countP_eq_zero.mpr
  intro target member
  have unclaimed := (clean ch target member).2
  have facts := core.call target.op
  simp [State.dead, State.entry, facts.not_cancelled unclaimed, facts.fired, unclaimed]

structure Unchanged (before after : State) : Prop where
  takers : ∀ ch, (after.chans ch).takers = (before.chans ch).takers
  putters : ∀ ch, (after.chans ch).putters = (before.chans ch).putters
  buffer : ∀ ch, (after.chans ch).buffer = (before.chans ch).buffer
  call : ∀ op, (before.ops op).unclaimed → after.ops op = before.ops op

theorem Unchanged.refl (state : State) : Unchanged state state :=
  ⟨fun _ => rfl, fun _ => rfl, fun _ => rfl, fun _ _ => rfl⟩

theorem Unchanged.trans (first : Unchanged before middle) (second : Unchanged middle after) :
    Unchanged before after where
  takers ch := (second.takers ch).trans (first.takers ch)
  putters ch := (second.putters ch).trans (first.putters ch)
  buffer ch := (second.buffer ch).trans (first.buffer ch)
  call op unclaimed := by
    have kept := first.call op unclaimed
    rw [second.call op (kept ▸ unclaimed), kept]

theorem Unchanged.waiters (unchanged : Unchanged before after) (ch : ChanId) :
    after.waiters ch = before.waiters ch := by
  rw [State.waiters, unchanged.takers, unchanged.putters, State.waiters]

theorem Unchanged.clean (unchanged : Unchanged before after) (clean : Clean before) :
    Clean after := by
  intro ch target member
  rw [unchanged.waiters] at member
  have unclaimed := clean ch target member
  rw [unchanged.call _ unclaimed]
  exact unclaimed

theorem update_unclaimed (unclaimed : (before.ops op).unclaimed)
    (moving : ¬(before.ops other).unclaimed) :
    update before.ops other call op = before.ops op := by
  apply update_of_ne
  intro same
  exact moving (same ▸ unclaimed)

theorem eq_of_all_kept {left list : List EntryId} (sublist : left.Sublist list)
    (distinct : list.Nodup) (kept : ∀ target ∈ list, target ∈ left) : left = list := by
  apply sublist.eq_of_length_le
  exact (List.subperm_of_subset distinct kept).length_le

theorem Clean.live (clean : Clean state) (core : Core state) (member : target ∈ state.waiters ch) :
    state.live target = true :=
  (core.live_iff ((core.link ch).waiter_linked member)).mpr (clean ch target member)

theorem Prepares.unchanged (core : Core before) (clean : Clean before)
    (staysOpen : ¬scope.closes) (prepares : Prepares scope before after) :
    Unchanged before after := by
  cases prepares with
  | enter other caller arms order select stage absent =>
    obtain ⟨ops, chans, -⟩ := enter_frame before other { caller, arms, order, select, stage }
    refine ⟨fun ch => by rw [chans], fun ch => by rw [chans], fun ch => by rw [chans], ?_⟩
    intro op unclaimed
    rw [ops]
    exact update_unclaimed unclaimed (by simp [Op.unclaimed, absent])
  | start target rest queue pending =>
    refine ⟨fun _ => rfl, fun _ => rfl, fun _ => rfl, ?_⟩
    intro op unclaimed
    exact update_unclaimed unclaimed (by simp [Op.unclaimed, pending])
  | unlink other takers putters dead takersLeft puttersLeft takersKept puttersKept =>
    have sameTakers : takers = (before.chans other).takers :=
      eq_of_all_kept takersLeft (core.link other).takersNodup fun target member =>
        takersKept target member (clean.live core (List.mem_append_left _ member))
    have samePutters : putters = (before.chans other).putters :=
      eq_of_all_kept puttersLeft (core.link other).puttersNodup fun target member =>
        puttersKept target member (clean.live core (List.mem_append_right _ member))
    refine ⟨?_, ?_, ?_, fun _ _ => rfl⟩
    all_goals
      intro ch
      by_cases same : ch = other
      · subst same
        simp [State.setChan, sameTakers, samePutters]
      · simp [State.setChan, same]
  | closeWaiter closer target closing member live inScope => exact absurd inScope staysOpen

theorem prepared_unchanged (core : Core before) (clean : Clean before)
    (staysOpen : ¬scope.closes) (path : ReflTransGen (Prepares scope) before after) :
    Unchanged before after := by
  have both : Core after ∧ Unchanged before after := by
    induction path with
    | refl => exact ⟨core, .refl before⟩
    | tail _ prepares ih =>
      obtain ⟨reached, unchanged⟩ := ih
      exact ⟨reached.prepared prepares,
        unchanged.trans (prepares.unchanged reached (unchanged.clean clean) staysOpen)⟩
  exact both.2

theorem Routine.keeps_unclaimed (core : Core before) (routine : Routine before after)
    (unclaimed : (before.ops op).unclaimed) : after.ops op = before.ops op := by
  cases routine with
  | stay
  | suspend
  | post => rfl
  | submit other arm ch entry absent =>
    exact update_unclaimed unclaimed (by simp [Op.unclaimed, absent])
  | refuse other result calls inFlight =>
    rw [(settle_frame before other result calls).1]
    refine update_unclaimed unclaimed ?_
    rcases inFlight with stage | ⟨rest, stage⟩ <;> simp [Op.unclaimed, stage]
  | resume self other member busy waiting =>
    obtain ⟨call, ops⟩ := continueCall_ops
      ({ before with runQueue := before.runQueue.erase self }.setFiber self
        { before.fibers self with parked := 0 }) other
    obtain ⟨-, claimed, -⟩ := core.queued_fiber member busy
    rw [ops]
    dsimp only [State.setFiber]
    exact update_unclaimed unclaimed (by simp [Op.unclaimed, claimed])
  | syncResume other waiting caller ready =>
    obtain ⟨call, ops⟩ := continueCall_ops
      (before.setOp other { before.ops other with ready := false }) other
    rw [ops]
    dsimp only [State.setOp]
    rw [update_idem]
    exact update_unclaimed unclaimed (by simp [Op.unclaimed, (core.call other).readied ready])
  | advance other arm rest stage
  | noteWinner other arm rest winner stage
  | cancelArm other arm rest winner stage =>
    exact update_unclaimed unclaimed (by simp [Op.unclaimed, stage])
  | win other arm stage =>
    rw [(finish_frame before other _).1]
    exact update_unclaimed unclaimed (by simp [Op.unclaimed, stage])
  | fire target rest queue waiting =>
    obtain ⟨due, -, -⟩ := core.due_callback queue
    simp only [Op.due, Bool.and_eq_true, beq_iff_eq, waiting, Bool.or_eq_true, reduceCtorEq,
      false_or, true_and] at due
    obtain ⟨calls, settled, -⟩ := fireCallback_settles { before with cbQueue := rest } target
    rw [settled, (settle_frame _ _ _ _).1]
    exact update_unclaimed unclaimed (by simp [Op.unclaimed, due.2])

theorem eq_of_length_le_one {order : List Nat} (short : order.length ≤ 1) (first : left ∈ order)
    (second : right ∈ order) : left = right := by
  match order, short with
  | [only], _ => exact (List.mem_singleton.mp first).trans (List.mem_singleton.mp second).symm

/-- A waiter whose call has no other arm is claimed and unlinked. -/
theorem Clean.handOver (clean : Clean before) (core : Core before) {claimant : OpId}
    (member : target ∈ before.waiters ch) (inFlight : (before.ops claimant).inFlight)
    (alone : (before.ops target.op).order.length ≤ 1)
    (left : ∀ waiter ∈ chan.takers ++ chan.putters,
      waiter ∈ before.waiters ch ∧ waiter ≠ target) :
    Clean (settle ((claimWith waker before target status value).setChan ch chan) claimant result
      calls) := by
  have linked := (core.link ch).waiter_linked member
  have different := core.linked_ne inFlight linked
  intro other waiter parked
  have still : waiter ∈ before.waiters other ∧ waiter ≠ target := by
    simp only [State.waiters, settle_chans, State.setChan, claimWith_chans] at parked
    by_cases same : other = ch
    · subst same
      simp only [update_self] at parked
      exact left waiter parked
    · simp only [update_of_ne same] at parked
      refine ⟨parked, ?_⟩
      rintro rfl
      have spec : before.registered waiter = some other := core.waiter_spec parked
      rw [core.waiter_spec member] at spec
      exact same (Option.some.inj spec).symm
  have unclaimed := clean other waiter still.1
  have waiterLinked := (core.link other).waiter_linked still.1
  have apart : waiter.op ≠ target.op := by
    intro same
    refine still.2 ?_
    obtain ⟨waiterOp, arm⟩ := waiter
    obtain ⟨targetOp, targetArm⟩ := target
    cases same
    exact congrArg _ (eq_of_length_le_one alone waiterLinked.2 linked.2)
  rw [handOver_ops before different, update_of_ne (core.linked_ne inFlight waiterLinked),
    update_of_ne apart]
  exact unclaimed

theorem firstAlone_partner
    (alone : state.FirstAlone (dead ++ target :: rest)) (skipped : state.Dead dead)
    (live : state.live target = true) : (state.ops target.op).order.length ≤ 1 := by
  have found : (dead ++ target :: rest).find? state.live = some target := by
    rw [List.find?_append, List.find?_eq_none.mpr (by simpa [State.Dead] using skipped)]
    simp [live]
  simpa only [State.FirstAlone, found] using alone

theorem Changes.clean (core : Core before) (clean : Clean before)
    (takes : ∀ ch, scope.takes ch → before.PartnerAlone (.take ch))
    (puts : ∀ ch, scope.puts ch → before.FirstAlone (before.chans ch).takers)
    (changes : Changes scope before after) : Clean after := by
  cases changes with
  | routine _ routine =>
    obtain ⟨chans, -⟩ := routine.frame
    exact Unchanged.clean ⟨fun ch => by rw [chans], fun ch => by rw [chans],
      fun ch => by rw [chans], fun op => routine.keeps_unclaimed core⟩ clean
  | control _ controls =>
    intro ch target member
    obtain ⟨guard, hook, chan⟩ := controls.undisturbed.chan ch
    rw [controls.undisturbed.ops]
    apply clean ch target
    rw [State.waiters, chan] at member
    exact member
  | takeBuffer op arm ch msg buffer calls inFlight
  | putBuffer op arm ch val buffer calls inFlight =>
    intro other target member
    have parked : target ∈ before.waiters other := by
      simp only [State.waiters, settle_chans, State.setChan] at member
      by_cases same : other = ch
      · subst same
        simpa [State.waiters] using member
      · simpa [State.waiters, same] using member
    have apart := core.linked_ne inFlight ((core.link other).waiter_linked parked)
    rw [(settle_frame _ _ _ _).1, update_of_ne apart]
    exact clean other target parked
  | takePutter op arm ch waker putter dead rest calls inFlight spec inScope drained list skipped
      live =>
      have alone := takes ch inScope drained
      rw [list] at alone
      have parked : putter ∈ (before.chans ch).putters := by simp [list]
      refine clean.handOver core (List.mem_append_right _ parked) inFlight
        (firstAlone_partner alone skipped live) ?_
      intro waiter member
      rcases List.mem_append.mp member with taker | kept
      · exact ⟨List.mem_append_left _ taker, core.taker_ne_putter taker parked⟩
      · have distinct := (core.link ch).puttersNodup
        rw [list] at distinct
        refine ⟨List.mem_append_right _ (by simp [list, kept]), ?_⟩
        rintro rfl
        exact (List.nodup_cons.mp (List.nodup_append.mp distinct).2.1).1 kept
  | putTaker op arm ch val waker taker dead rest calls inFlight spec inScope opened list skipped
      live =>
      have alone := puts ch inScope
      rw [list] at alone
      have parked : taker ∈ (before.chans ch).takers := by simp [list]
      refine clean.handOver core (List.mem_append_left _ parked) inFlight
        (firstAlone_partner alone skipped live) ?_
      intro waiter member
      rcases List.mem_append.mp member with kept | putter
      · have distinct := (core.link ch).takersNodup
        rw [list] at distinct
        refine ⟨List.mem_append_left _ (by simp [list, kept]), ?_⟩
        rintro rfl
        exact (List.nodup_cons.mp (List.nodup_append.mp distinct).2.1).1 kept
      · exact ⟨List.mem_append_right _ putter, (core.taker_ne_putter parked putter).symm⟩
  | park op entries inFlight blocked prepared fresh =>
    obtain ⟨⟨gen, ops⟩, chans, -⟩ := park_frame before op entries
    intro ch target member
    rw [ops]
    by_cases own : target.op = op
    · rw [own, update_self]
      exact ⟨rfl, by simp [Op.claimed, fresh]⟩
    · rw [update_of_ne own]
      apply clean ch target
      simp only [State.waiters, chans, linkedChan, List.mem_append, mem_filterMap_takerOf,
        List.mem_map, mem_filterMap_putOf] at member
      rcases member with (taker | ⟨new, -⟩) | (putter | ⟨msg, ⟨new, -⟩, rfl⟩)
      · exact List.mem_append_left _ taker
      · exact absurd new own
      · exact List.mem_append_right _ putter
      · exact absurd new own
  | shut closer closing =>
    intro ch target member
    apply clean ch target
    by_cases same : ch = (before.closers closer).ch
    · subst same
      simp [State.waiters, setCloser, State.setChan] at member
    · simpa [State.waiters, setCloser, State.setChan, same] using member

theorem firstAlone_congr (same : ∀ target ∈ waiters, after.ops target.op = before.ops target.op)
    (alone : before.FirstAlone waiters) : after.FirstAlone waiters := by
  induction waiters with
  | nil => trivial
  | cons target rest ih =>
    obtain ⟨first, others⟩ := List.forall_mem_cons.mp same
    have live := live_congr first
    simp only [State.FirstAlone, List.find?_cons, live] at alone ⊢
    cases alive : before.live target with
    | true => simpa only [alive, first] using alone
    | false =>
      simp only [alive] at alone ⊢
      exact ih others alone

theorem Unchanged.partnerAlone (unchanged : Unchanged before after) (clean : Clean before)
    (alone : before.PartnerAlone spec) : after.PartnerAlone spec := by
  have same : ∀ ch, ∀ target ∈ before.waiters ch, after.ops target.op = before.ops target.op :=
    fun ch target member => unchanged.call _ (clean ch target member)
  cases spec with
  | take ch =>
    intro drained
    rw [unchanged.buffer] at drained
    rw [unchanged.putters]
    exact firstAlone_congr (fun target member => same ch target (List.mem_append_right _ member))
      (alone drained)
  | put ch val =>
    rw [State.PartnerAlone, unchanged.takers]
    exact firstAlone_congr (fun target member => same ch target (List.mem_append_left _ member))
      alone
  | default => trivial

/-- The body of a close unlinks all waiters of the channel and touches no other
list. -/
theorem closeBody_waiters (core : Core before)
    (stepped : step before (.closeBody closer) = some after) (member : target ∈ after.waiters ch) :
    ch ≠ (before.closers closer).ch ∧ target ∈ before.waiters ch := by
  obtain ⟨closing, same⟩ :=
    closeBody_eq (show closeBody before closer = some after from stepped)
  have drained : Drained ((Label.closeBody closer).scope before) before _ _ :=
    closeWaiters_drained (show ((Label.closeBody closer).scope before).closes from ⟨closer, rfl⟩)
      core closer closing fun target => List.mem_append.mp
  rw [same] at member
  simp only [State.waiters, setCloser, State.setChan, drained.chans] at member
  by_cases own : ch = (before.closers closer).ch
  · simp [own] at member
  · exact ⟨own, by simpa [State.waiters, own] using member⟩

theorem closeBody_clean (core : Core before) (clean : Clean before)
    (whole : before.Whole (before.closers closer).ch)
    (stepped : step before (.closeBody closer) = some after) : Clean after := by
  intro ch target member
  obtain ⟨different, parked⟩ := closeBody_waiters core stepped member
  cases closeBody_closesCall core rfl stepped target.op with
  | left dead same =>
    rw [same]
    exact clean ch target parked
  | woken arm waiter =>
    -- the call waits on the closed channel, so all its arms do
    have linked := (core.link ch).waiter_linked parked
    have here := core.waiter_spec (whole _ waiter target.arm linked.2)
    have there := core.waiter_spec parked
    exact absurd (Option.some.inj (there.symm.trans here)) different

theorem Clean.step (core : Core before) (clean : Clean before) (permitted : NoArmLeft before label)
    (stepped : Channel.step before label = some after) : Clean after := by
  obtain ⟨partners, closing⟩ := permitted
  by_cases closes : ∃ closer, label = .closeBody closer
  · obtain ⟨closer, rfl⟩ := closes
    exact closeBody_clean core clean closing stepped
  · obtain ⟨middle, path, changes⟩ := step_steps core stepped
    have unchanged := prepared_unchanged core clean closes path
    refine changes.clean (core.along path) (unchanged.clean clean) ?_ ?_
    · intro ch inScope
      exact unchanged.partnerAlone clean (partners _ inScope)
    · intro ch inScope
      obtain ⟨val, inScope⟩ := inScope
      exact unchanged.partnerAlone clean (partners _ inScope)

theorem reachable_clean (reachable : system.ReachableWith NoArmLeft state) : Clean state := by
  let both : State → Prop := fun state => Core state ∧ Clean state
  have holds : both state := by
    refine reachable.invariant ?_ ?_
    · rintro _ ⟨capacity, rfl⟩
      refine ⟨core_initial capacity, ?_⟩
      intro ch target member
      simp [State.waiters, initialState] at member
    · rintro before label after ⟨core, clean⟩ permitted stepped
      exact ⟨(step_steps core stepped).core core, clean.step core permitted stepped⟩
  exact holds.2

/-- In every run in which no claimed select keeps another arm linked, the count
of a channel bounds its dead waiters, and a call that parks leaves fewer of them
than the threshold. -/
theorem dead_waiters_counted (reachable : system.ReachableWith NoArmLeft state) :
    (∀ ch, state.deadWaiters ch ≤ (state.chans ch).deadCount) ∧
      ∀ label after ch, NoArmLeft state label → step state label = some after →
        ParksOn state after ch → after.deadWaiters ch < deadCountThreshold := by
  have core := reachable_core reachable.reachable
  have clean := reachable_clean reachable
  constructor
  · intro ch
    rw [clean.deadWaiters_eq core]
    exact Nat.zero_le _
  · intro label after ch permitted stepped _
    have coreAfter := (step_steps core stepped).core core
    rw [(clean.step core permitted stepped).deadWaiters_eq coreAfter]
    decide

/-- A select with one arm is served while one with two arms stays parked. -/
def servedRun : List Label :=
  [.alts 0 .thread [.take 0, .take 1] [0, 1], .altsTry 0, .altsTry 0, .altsPark 0,
    .alts 1 (.fiber 0) [.take 2] [0], .altsTry 1, .altsPark 1, .put 2 1 2 7, .suspend 0,
    .post 0 4, .resume 0, .altsCancel 1, .altsCancel 1]

theorem servedRun_counted :
    ∃ state after, system.runWith NoArmLeft (initialState fun _ => 0) servedRun = some state ∧
      step state (.take 3 0 0) = some after ∧ state.deadWaiters 1 ≤ (state.chans 1).deadCount ∧
      after.deadWaiters 0 < deadCountThreshold := by
  have reachable : system.ReachableWith NoArmLeft _ :=
    .of_run system NoArmLeft servedRun ⟨fun _ => 0, rfl⟩ rfl
  have counted := dead_waiters_counted reachable
  exact ⟨_, _, rfl, rfl, counted.1 1, counted.2 (.take 3 0 0) _ 0 (by decide) rfl
    ⟨⟨3, 0⟩, by decide, by decide, rfl⟩⟩

/-- A select waits for a value on channel `0` or a signal on channel `1`, gets
the value and cancels the other arm. -/
def signalRound (number : Nat) : List Label :=
  [.alts (2 * number) .thread [.take 0, .take 1] [0, 1], .altsTry (2 * number),
    .altsTry (2 * number), .altsPark (2 * number), .putSync (2 * number + 1) 0 7,
    .syncResume (2 * number), .altsCancel (2 * number), .altsCancel (2 * number),
    .altsCancel (2 * number)]

def signalRun : List Label :=
  (List.range 8).flatMap signalRound

set_option maxRecDepth 4000 in
/-- The cancelled arms of eight selects stay linked and uncounted, and a take
that parks behind them removes none. -/
theorem cancelled_arms_uncounted :
    ∃ state after, system.Reachable state ∧ (state.chans 1).deadCount = 0 ∧
      state.deadWaiters 1 = 8 ∧ step state (.take 16 0 1) = some after ∧
      ParksOn state after 1 ∧ ¬after.deadWaiters 1 < deadCountThreshold :=
  ⟨_, _, .of_run system signalRun ⟨fun _ => 0, rfl⟩ rfl, rfl, rfl, rfl,
    ⟨⟨16, 0⟩, by decide, by decide, rfl⟩, by decide⟩

end Libgoc.Channel
