import Libgoc.Channel.Parking

namespace Libgoc.Channel

open Libgoc.Data

/-! # Submitting, posting and resuming calls -/

variable {state after : State}

theorem Core.control (core : Core state) (controls : Controls scope state after) :
    Core after := by
  have kept := controls.undisturbed
  refine core.relink kept.ops kept.fibers kept.posting kept.runQueue kept.cbQueue fun ch => ?_
  obtain ⟨guard, hook, same⟩ := kept.chan ch
  exact (core.link ch).frame kept.ops (by simp [same]) (by simp [same]) (by simp [same])

theorem Core.shut (core : Core state) (closer : CloserId) (value : Closer) (ch : ChanId)
    (chan : Chan) (takers : chan.takers = []) (putters : chan.putters = [])
    (takersDead : state.Dead (state.chans ch).takers)
    (puttersDead : state.Dead (state.chans ch).putters) :
    Core (setCloser (state.setChan ch chan) closer value) := by
  have unlinked := core.unlink ch chan (by simp [takers]) (by simp [putters])
    (fun target member live => by simp [takersDead target member] at live)
    (fun target member live => by simp [puttersDead target member] at live)
    (fun _ => ⟨takers, putters⟩)
  exact unlinked.relink rfl rfl rfl rfl rfl
    (fun other => (unlinked.link other).frame rfl rfl rfl rfl)

theorem Core.submit (core : Core state) (op : OpId) (arm : Arm) (entry : Entry)
    (absent : (state.ops op).stage = .absent)
    (facts : EntryFacts ⟨op, 0⟩ .callback false (some arm) entry)
    (registered : entry.Registered [arm])
    (unwoken : entry.woken = false) (uncancelled : entry.cancelled = false) :
    Core { state.setOp op
        { caller := .callback, arms := [arm], order := [0], stage := .pending
          entries := fun _ => entry } with
      cbQueue := state.cbQueue ++ [⟨op, 0⟩] } := by
  have callFacts := opFacts_begin op .callback [arm] [0] false .pending entry
    (.inr (.inl rfl)) (fun _ => ⟨rfl, registered⟩) (fun _ => rfl) (fun _ => rfl) (by simp)
    (fun _ index member => by
      rw [List.mem_singleton.mp member]
      exact facts) unwoken uncancelled
  have unposted : ∀ index, state.cbQueue.count ⟨op, index⟩ = 0 := by
    intro index
    rw [core.callbacks]
    simp [Op.due, absent]
  refine core.update op _ rfl callFacts ?_ (.inl absent) (fun _ _ => ⟨rfl, rfl, rfl⟩)
    (by simp) core.wants ?_ ?_
  · intro ch
    refine (core.link ch).update op _ rfl rfl rfl rfl ?_ (by simp [Op.unclaimed])
    rintro (waiting | claimed)
    · simp [absent] at waiting
    · have later := (core.call op).unclaimed claimed
      simp [absent] at later
  · intro target different
    have apart : (⟨op, 0⟩ : EntryId) ≠ target := by rintro rfl; exact different rfl
    simp [apart]
  · intro index
    by_cases first : index = 0
    · subst first; simp [unposted, Op.due]
    · have apart : (⟨op, 0⟩ : EntryId) ≠ ⟨op, index⟩ := by
        intro same
        cases same
        exact first rfl
      simp [first, unposted, apart]

theorem Core.suspend (core : Core state) (odd : (state.fibers self).parked % 2 = 1) :
    Core (state.setFiber self
      { state.fibers self with parked := (state.fibers self).parked + 1 }) := by
  have busy : ∀ other, ((state.setFiber self { state.fibers self with
      parked := (state.fibers self).parked + 1 }).fibers other).busy =
      (state.fibers other).busy := by
    intro other
    by_cases same : other = self
    · subst same; simp [State.setFiber]
    · simp [State.setFiber, same]
  exact {
    call := core.call
    link := fun ch => (core.link ch).frame rfl rfl rfl rfl
    fiber := by
      intro other
      by_cases same : other = self
      · subst same
        cases core.fiber other with
        | idle _ parked | running _ _ _ _ parked => simp [parked] at odd
        | queued _ _ _ _ _ parked => simp [parked] at odd
        | parked op busyWith caller stage parked posted queued =>
          have three : (state.fibers other).parked = 3 := by omega
          exact .parked op ((busy other).trans busyWith) caller stage
            (.inr (by simp [State.setFiber, three])) posted queued
        | claimed op busyWith caller stage claimed parked posted queued =>
          have three : (state.fibers other).parked = 3 := by omega
          exact .claimed op ((busy other).trans busyWith) caller stage claimed
            (.inr (by simp [State.setFiber, three])) posted queued
      · exact (core.fiber other).frame (by simp [State.setFiber, same]) (fun _ _ => rfl) rfl rfl
    owner := fun op other caller holds => (busy other).trans (core.owner op other caller holds)
    wants := core.wants
    callbacks := core.callbacks }

theorem Core.posted_fiber (core : Core state) (member : (self, want) ∈ state.posting) :
    ∃ op, (state.fibers self).busy = some op ∧ (state.ops op).caller = .fiber self ∧
      (state.ops op).stage = .waiting ∧ (state.ops op).claimed = true ∧
      ((state.fibers self).parked = 3 ∨ (state.fibers self).parked = 4) ∧
      state.posted self = 1 ∧ state.queued self = 0 := by
  have positive : 0 < state.posted self :=
    List.count_pos_iff.mpr (List.mem_map.mpr ⟨_, member, rfl⟩)
  cases core.fiber self with
  | idle _ _ posted
  | running _ _ _ _ _ posted
  | parked _ _ _ _ _ posted
  | queued _ _ _ _ _ _ posted => omega
  | claimed op busy caller stage claimed parked posted queued =>
    exact ⟨op, busy, caller, stage, claimed, parked, posted, queued⟩

theorem posted_erase (member : (self, want) ∈ state.posting) (other : FiberId) :
    state.posted other = ((state.posting.erase (self, want)).map Prod.fst).count other +
      if self = other then 1 else 0 := by
  have order := (List.perm_cons_erase member).map Prod.fst
  rw [State.posted, order.count_eq, List.map_cons, List.count_cons]
  simp

theorem Core.post (core : Core state) (member : (self, want) ∈ state.posting)
    (suspended : (state.fibers self).parked = want) :
    Core { state with
      posting := state.posting.erase (self, want), runQueue := state.runQueue ++ [self] } := by
  have four : (state.fibers self).parked = 4 := suspended.trans (core.wants _ member)
  obtain ⟨op, busy, caller, stage, claimed, -, posted, queued⟩ := core.posted_fiber member
  exact {
    call := core.call
    link := fun ch => (core.link ch).frame rfl rfl rfl rfl
    fiber := by
      intro other
      have counted := posted_erase member other
      by_cases same : self = other
      · subst same
        refine .queued op busy caller stage claimed four ?_ ?_
        · simp only [if_true] at counted
          change ((state.posting.erase (self, want)).map Prod.fst).count self = 0
          omega
        · change (state.runQueue ++ [self]).count self = 1
          simpa [State.queued] using queued
      · refine (core.fiber other).frame rfl (fun _ _ => rfl) ?_ ?_
        · simp only [same, if_false] at counted
          exact counted.symm
        · change (state.runQueue ++ [self]).count other = state.runQueue.count other
          simp [same]
    owner := core.owner
    wants := fun post left => core.wants post (List.mem_of_mem_erase left)
    callbacks := core.callbacks }

theorem Core.queued_fiber (core : Core state) (member : self ∈ state.runQueue)
    (busy : (state.fibers self).busy = some op) :
    (state.ops op).caller = .fiber self ∧ (state.ops op).claimed = true ∧
      state.posted self = 0 ∧ state.queued self = 1 := by
  have positive : 0 < state.queued self := List.count_pos_iff.mpr member
  cases core.fiber self with
  | idle _ _ _ queued
  | running _ _ _ _ _ _ queued
  | parked _ _ _ _ _ _ queued
  | claimed _ _ _ _ _ _ _ queued => omega
  | queued other same caller stage claimed parked posted queued =>
    cases same.symm.trans busy
    exact ⟨caller, claimed, posted, queued⟩

theorem OpFacts.plain_result (facts : OpFacts op call) (started : call.stage ≠ .absent)
    (select : call.select = false) (claimed : call.claimed = true) :
    ∀ arm, (call.entries arm).woken = true →
      (entryResult call 0).arm = some arm ∧ (entryResult call 0).ok = (call.entries arm).ok ∧
      (entryResult call 0).msg = (call.entries arm).received := by
  obtain ⟨arm, woken⟩ := facts.claimed_iff.mp claimed
  have zero : arm = 0 := by simpa [facts.single started select] using facts.woken arm woken
  subst zero
  exact facts.entryResult_agrees woken

/-- The links of a call that leaves its wait. -/
theorem LinkFacts.awaken (facts : LinkFacts state ch) (op : OpId) (call : Op)
    (ops : after.ops = Function.update state.ops op call) (chans : after.chans = state.chans)
    (arms : call.arms = (state.ops op).arms) (order : call.order = (state.ops op).order)
    (claimed : call.claimed = true) : LinkFacts after ch :=
  facts.update op call ops (by rw [chans]) (by rw [chans]) (by rw [chans])
    (fun _ => ⟨arms, order, .inr claimed⟩) (fun unclaimed => by simp [unclaimed.2] at claimed)

theorem continueCall_select (select : (state.ops op).select = true) :
    continueCall state op = state.setOp op
      { state.ops op with stage := .resumed (state.ops op).order none } :=
  if_pos select

theorem continueCall_plain (select : (state.ops op).select = false) :
    continueCall state op = finish state op (entryResult (state.ops op) 0) :=
  if_neg (by simp [select])

theorem Core.resume (core : Core state) (member : self ∈ state.runQueue)
    (busy : (state.fibers self).busy = some op) (waiting : (state.ops op).stage = .waiting) :
    Core (continueCall ({ state with runQueue := state.runQueue.erase self }.setFiber self
        { state.fibers self with parked := 0 }) op) := by
  obtain ⟨caller, claimed, posted, queued⟩ := core.queued_fiber member busy
  have facts := core.call op
  have others : ∀ other, other ≠ self →
      (state.runQueue.erase self).count other = state.runQueue.count other :=
    fun other different => List.count_erase_of_ne different
  have mine : (state.runQueue.erase self).count self = 0 := by
    rw [List.count_erase_self]
    change state.runQueue.count self = 1 at queued
    omega
  have unposted : ∀ arm, state.cbQueue.count ⟨op, arm⟩ = 0 := by
    intro arm
    rw [core.callbacks]
    simp [Op.due, caller]
  cases select : (state.ops op).select with
  | true =>
    rw [continueCall_select (by exact select)]
    refine core.update op _ rfl (facts.resume waiting select claimed)
      (fun ch => (core.link ch).awaken op _ rfl rfl rfl rfl claimed) (.inr rfl) ?_ ?_
      core.wants (fun _ _ => rfl) (fun arm => (unposted arm).trans (by simp [Op.due]))
    · intro other different
      have apart : other ≠ self := by rintro rfl; exact different caller
      exact ⟨by simp [State.setFiber, State.setOp, apart], rfl, others other apart⟩
    · intro other same
      cases caller.symm.trans same
      refine ⟨.inr busy, .running op ?_ ?_ ?_ ?_ posted mine, fun _ => ?_⟩
      · simpa [State.setFiber, State.setOp] using busy
      · simpa [State.setFiber, State.setOp] using caller
      · simp [State.setFiber, State.setOp, Stage.active]
      · simp [State.setFiber, State.setOp]
      · simpa [State.setFiber, State.setOp] using busy
  | false =>
    rw [continueCall_plain (by exact select), finish_fiber (by exact caller)]
    refine core.update op _ rfl
      (facts.finish _ (by simp [waiting]) (facts.plain_result (by simp [waiting]) select claimed))
      (fun ch => (core.link ch).awaken op _ rfl rfl rfl rfl claimed) (.inr rfl) ?_ ?_
      core.wants (fun _ _ => rfl) (fun arm => (unposted arm).trans (by simp [Op.due]))
    · intro other different
      have apart : other ≠ self := by rintro rfl; exact different caller
      exact ⟨by simp [State.setFiber, State.setOp, apart], rfl, others other apart⟩
    · intro other same
      cases caller.symm.trans same
      refine ⟨.inr busy, .idle ?_ ?_ posted mine, ?_⟩
      · simp [State.setFiber]
      · simp [State.setFiber]
      · simp [Op.holds, Stage.active]

theorem Core.syncResume (core : Core state) (waiting : (state.ops op).stage = .waiting)
    (caller : (state.ops op).caller = .thread) (ready : (state.ops op).ready = true) :
    Core (continueCall (state.setOp op { state.ops op with ready := false }) op) := by
  have facts := core.call op
  have claimed := facts.readied ready
  have unposted : ∀ arm, state.cbQueue.count ⟨op, arm⟩ = 0 := by
    intro arm
    rw [core.callbacks]
    simp [Op.due, caller]
  have moved : ∀ (call : Op) (final : State), OpFacts op call → call.caller = .thread →
      call.arms = (state.ops op).arms → call.order = (state.ops op).order →
      call.claimed = true → final.chans = state.chans → final.fibers = state.fibers →
      final.posting = state.posting → final.runQueue = state.runQueue →
      final.cbQueue = state.cbQueue → final.ops = Function.update state.ops op call →
      Core final := by
    intro call final callFacts mine arms order callClaimed chans fibers posting runQueue cbQueue ops
    refine core.update op call ops callFacts
      (fun ch => (core.link ch).awaken op call ops chans arms order callClaimed)
      (.inr (caller.trans mine.symm)) (fun self _ => ?_) (by simp [mine])
      (by rw [posting]; exact core.wants) (fun _ _ => by rw [cbQueue])
      (fun arm => by rw [cbQueue, unposted]; simp [Op.due, mine])
    exact ⟨by rw [fibers], by rw [State.posted, posting]; rfl, by rw [State.queued, runQueue]; rfl⟩
  cases select : (state.ops op).select with
  | true =>
    refine moved { state.ops op with
        ready := false, stage := .resumed (state.ops op).order none } _
      ((facts.resume waiting select claimed).unready (by simp)) caller rfl rfl claimed
      ?_ ?_ ?_ ?_ ?_ ?_
    all_goals simp [continueCall, State.setOp, select]
  | false =>
    refine moved { state.ops op with
        ready := false, stage := .done
        result := some (entryResult { state.ops op with ready := false } 0) } _
      ((facts.finish _ (by simp [waiting])
        (facts.plain_result (by simp [waiting]) select claimed)).unready (by simp))
      caller rfl rfl claimed ?_ ?_ ?_ ?_ ?_ ?_
    all_goals simp [continueCall, finish, State.setOp, select, caller]

theorem finish_entry (state : State) (op : OpId) (result : Result) (target : EntryId) :
    (finish state op result).entry target = state.entry target := by
  have same : ∀ after : State, after.ops = Function.update state.ops op
      { state.ops op with stage := .done, result := some result } →
      after.entry target = state.entry target := by
    intro after ops
    by_cases equal : target.op = op
    · simp [State.entry, ops, equal]
    · simp [State.entry, ops, equal]
  by_cases fibers : ∃ self, (state.ops op).caller = .fiber self
  · obtain ⟨self, caller⟩ := fibers
    rw [finish_fiber caller]
    exact same _ rfl
  · rw [finish_other (fun self caller => fibers ⟨self, caller⟩)]
    exact same _ rfl

theorem invoke_finish (state : State) (op : OpId) (result : Result) (target : EntryId)
    (ch : Option ChanId) (msg : Option Msg) (status : Status) :
    invoke (finish state op result) target ch msg status =
      settle state op result (if (state.entry target).hasCb then
        [{ entry := target, ch, msg, ok := status }] else []) := by
  simp only [invoke, finish_entry]
  split
  · rw [settle, finish_invocations]
  · rw [settle_nil]

theorem Core.fire (core : Core state) (queue : state.cbQueue = target :: rest)
    (waiting : (state.ops target.op).stage = .waiting) :
    Core (fireCallback { state with cbQueue := rest } target) := by
  obtain ⟨due, first, unposted⟩ := core.due_callback queue
  have facts := core.call target.op
  simp only [Op.due, Bool.and_eq_true, beq_iff_eq, waiting, Bool.or_eq_true, reduceCtorEq,
    false_or, true_and] at due
  obtain ⟨caller, claimed⟩ := due
  have order := facts.single (by simp [waiting]) (facts.plain caller)
  have entry := facts.entries (.inl waiting) target.arm (by simp [order, first])
  have direction := entry.direction caller
  have agrees : ∀ arm, ((state.ops target.op).entries arm).woken = true →
      some target.arm = some arm ∧
      (state.entry target).ok = ((state.ops target.op).entries arm).ok ∧
      (if (state.entry target).isPut then none else (state.entry target).cbResult) =
        ((state.ops target.op).entries arm).received := by
    intro arm woken
    have zero : arm = 0 := by simpa [order] using facts.woken arm woken
    rw [zero, ← first]
    refine ⟨rfl, rfl, ?_⟩
    cases put : (state.entry target).isPut with
    | true => simp [Entry.received, direction, show ((state.ops target.op).entries
        target.arm).isPut = true from put]
    | false => simp [Entry.received, direction, State.entry, show ((state.ops target.op).entries
        target.arm).isPut = false from put]
  rw [fireCallback, invoke_finish, Channel.settle,
    finish_other (by intro self; simp [show (state.ops target.op).caller = .callback from caller])]
  refine core.update target.op _ rfl (facts.finish _ (by simp [waiting]) agrees)
    (fun ch => (core.link ch).awaken target.op _ rfl rfl rfl rfl claimed) (.inr rfl)
    (fun _ _ => ⟨rfl, rfl, rfl⟩) ?_ core.wants ?_
    (fun arm => (unposted arm).trans (by simp [Op.due]))
  · intro self same
    cases caller.symm.trans same
  · intro other different
    have apart : target ≠ other := by rintro rfl; exact different rfl
    rw [queue, List.count_cons_of_ne apart]
    rfl

theorem Core.linked_ne (core : Core state) (inFlight : (state.ops op).inFlight)
    (linked : state.Linked target) : target.op ≠ op := by
  rintro rfl
  have unclaimed := (core.call target.op).running_unclaimed inFlight
  rcases linked.1 with waiting | claimed
  · rcases inFlight with stage | ⟨rest, stage⟩ <;> simp [stage] at waiting
  · simp [unclaimed] at claimed

theorem Op.inFlight_active (inFlight : Op.inFlight call) : call.stage.active = true := by
  rcases inFlight with stage | ⟨rest, stage⟩ <;> simp [stage, Stage.active]

/-- A call in flight has nothing claimed that its result would have to match. -/
theorem Core.settle_inFlight (core : Core state) (op : OpId) (result : Result)
    (calls : List Invocation) (inFlight : (state.ops op).inFlight) :
    Core (Channel.settle state op result calls) :=
  core.settle op result calls (Op.inFlight_active inFlight) (fun arm woken => by
    simp [(core.call op).not_woken ((core.call op).running_unclaimed inFlight) arm] at woken)

/-- A waiter is claimed and unlinked together with the dead ones before it, and
the call that claimed it returns. -/
theorem Core.handOver (core : Core state) (op : OpId) (ch : ChanId) (waker : Waker)
    (target : EntryId) (value : Option Msg) (chan : Chan) (result : Result)
    (calls : List Invocation) (inFlight : (state.ops op).inFlight)
    (linked : state.Linked target) (live : state.live target = true)
    (suspended : ∀ self, waker = .spinning → (state.entry target).kind = .fiber self →
      (state.fibers self).parked = 4)
    (takersLeft : chan.takers.Sublist (state.chans ch).takers)
    (puttersLeft : chan.putters.Sublist (state.chans ch).putters)
    (takersKept : ∀ waiter ∈ (state.chans ch).takers, state.live waiter = true →
      waiter ≠ target → waiter ∈ chan.takers)
    (puttersKept : ∀ waiter ∈ (state.chans ch).putters, state.live waiter = true →
      waiter ≠ target → waiter ∈ chan.putters)
    (opened : chan.closed = false) :
    Core (Channel.settle ((claimWith waker state target .ok value).setChan ch chan) op result
      calls) := by
  obtain ⟨chans, ops, -⟩ := claimWith_frame waker state target .ok value
  have different := core.linked_ne inFlight linked
  have claimed := core.claim linked live waker .ok value suspended
  have unlinked := claimed.unlink ch chan (by rwa [chans]) (by rwa [chans])
    (fun waiter member alive => by
      obtain ⟨before, apart⟩ := live_claimWith alive
      exact takersKept waiter (chans ▸ member) before apart)
    (fun waiter member alive => by
      obtain ⟨before, apart⟩ := live_claimWith alive
      exact puttersKept waiter (chans ▸ member) before apart)
    (by simp [opened])
  refine unlinked.settle_inFlight op result calls ?_
  change (((claimWith waker state target .ok value).ops) op).inFlight
  rw [ops, Function.update_of_ne different.symm]
  exact inFlight

theorem Core.prepared (core : Core state) (prepares : Prepares scope state after) : Core after := by
  cases prepares with
  | enter op caller arms order select stage absent idle started single distinct notCallback _ =>
    exact core.enter op caller arms order select stage absent idle started single distinct
      notCallback
  | start target rest queue pending => exact core.start queue pending
  | unlink ch takers putters dead takersLeft puttersLeft takersKept puttersKept =>
    refine core.unlink ch _ takersLeft puttersLeft takersKept puttersKept ?_
    intro closed
    obtain ⟨noTakers, noPutters⟩ := (core.link ch).closed closed
    rw [noTakers] at takersLeft
    rw [noPutters] at puttersLeft
    exact ⟨List.sublist_nil.mp takersLeft, List.sublist_nil.mp puttersLeft⟩
  | closeWaiter closer target closing member live =>
    have linked : state.Linked target := by
      rcases member with taker | putter
      · exact ((core.link _).taker target taker).1
      · exact ((core.link _).putter target putter).1
    exact core.claim linked live .claiming .closed _ (by simp)

theorem Core.routine (core : Core state) (routine : Routine state after) : Core after := by
  cases routine with
  | stay => exact core
  | submit op arm ch entry absent spec fresh registered =>
    obtain ⟨kind, unwoken, uncancelled, unshared, empty, closed⟩ := fresh
    refine core.submit op arm entry absent ⟨?_, unshared, kind, by simp, ?_, ?_⟩ ?_ unwoken
      uncancelled
    · rcases spec with ⟨rfl, slot, -⟩ | ⟨val, rfl, value, -, -⟩
      · exact .inl ⟨ch, rfl, slot⟩
      · exact .inr ⟨ch, val, rfl, value⟩
    · rcases spec with ⟨-, slot, direction⟩ | ⟨val, -, -, slot, direction⟩ <;>
        simp [slot, direction]
    · exact fun _ => ⟨empty, closed⟩
    · refine ⟨ch, registered, ?_⟩
      rcases spec with ⟨rfl, -, direction⟩ | ⟨val, rfl, -, -, direction⟩
      · exact .inl ⟨rfl, direction⟩
      · exact .inr ⟨val, rfl, direction⟩
  | advance op arm rest stage =>
    exact core.setOp op _ ((core.call op).advance stage rest) rfl (by simp [stage, Stage.active])
      rfl rfl rfl rfl
  | refuse op result calls inFlight refused invoked =>
    exact core.settle_inFlight op result calls inFlight
  | suspend self odd => exact core.suspend odd
  | post self want member suspended => exact core.post member suspended
  | resume self op member busy waiting => exact core.resume member busy waiting
  | syncResume op waiting caller ready => exact core.syncResume waiting caller ready
  | noteWinner op arm rest winner stage woken =>
    exact core.setOp op _ ((core.call op).noteWinner stage woken) rfl
      (by simp [stage, Stage.active]) rfl rfl rfl rfl
  | cancelArm op arm rest winner stage unwoken =>
    refine core.setOp op _ ((core.call op).cancelArm stage unwoken) rfl
      (by simp [stage, Stage.active]) rfl rfl rfl ?_
    simp only [Op.claimed]
    congr 1
    funext other
    by_cases same : other = arm
    · subst same; simp
    · simp [same]
  | win op arm stage woken =>
    rw [← settle_nil]
    exact core.settle op _ [] (by simp [stage, Stage.active])
      ((core.call op).entryResult_agrees woken)
  | fire target rest queue waiting => exact core.fire queue waiting

theorem Core.changed (core : Core state) (changes : Changes scope state after) : Core after := by
  cases changes with
  | routine _ routine => exact core.routine routine
  | control _ controls => exact core.control controls
  | takeBuffer op arm ch msg buffer calls inFlight spec inScope popped invoked
  | putBuffer op arm ch val buffer calls inFlight spec inScope opened order pushed invoked =>
    refine Core.settle_inFlight (core.setChan ch _ ?_ ?_ ?_) op _ calls inFlight <;> rfl
  | takePutter op arm ch waker putter dead rest calls inFlight spec inScope drained list skipped
      live suspended invoked =>
      have linked := ((core.link ch).putter putter (by simp [list])).1
      have opened : (state.chans ch).closed = false := by
        by_contra closed
        have empty := ((core.link ch).closed (by simpa using closed)).2
        simp [list] at empty
      refine core.handOver op ch waker putter none _ _ calls inFlight linked live suspended
        (.refl _) ?_ (fun waiter member _ _ => member) ?_ opened
      · rw [list]
        exact (List.sublist_cons_self putter rest).trans (List.sublist_append_right dead _)
      · intro waiter member alive different
        rw [list] at member
        rcases List.mem_append.mp member with before | later
        · simp [skipped waiter before] at alive
        · exact (List.mem_cons.mp later).resolve_left different
  | putTaker op arm ch val waker taker dead rest calls inFlight spec inScope opened list skipped
      live suspended invoked =>
      have linked := ((core.link ch).taker taker (by simp [list])).1
      refine core.handOver op ch waker taker _ _ _ calls inFlight linked live suspended
        ?_ (.refl _) ?_ (fun waiter member _ _ => member) opened
      · rw [list]
        exact (List.sublist_cons_self taker rest).trans (List.sublist_append_right dead _)
      · intro waiter member alive different
        rw [list] at member
        rcases List.mem_append.mp member with before | later
        · simp [skipped waiter before] at alive
        · exact (List.mem_cons.mp later).resolve_left different
  | park op entries inFlight blocked prepared fresh =>
    exact core.park op entries inFlight blocked prepared fresh
  | shut closer closing takersDead puttersDead =>
    exact core.shut closer _ _ _ rfl rfl takersDead puttersDead

end Libgoc.Channel
