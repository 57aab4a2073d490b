import Libgoc.Channel.Frames

namespace Libgoc.Channel

open Libgoc.Data Relation

/-! # What the arms of a call report -/

def Op.outcome (call : Op) (arm : Nat) : Option (Status × Option Msg) :=
  if (call.entries arm).woken then some ((call.entries arm).ok, (call.entries arm).received)
  else
    match call.result with
    | none => none
    | some result => if result.arm = some arm then some (result.ok, result.msg) else none

def State.outcome (state : State) (arm : EntryId) : Option (Status × Option Msg) :=
  (state.ops arm.op).outcome arm.arm

def State.spec (state : State) (arm : EntryId) : Option Arm :=
  (state.ops arm.op).arms[arm.arm]?

def Arm.chan : Arm → Option ChanId
  | .take ch | .put ch _ => some ch
  | .default => none

def State.registered (state : State) (arm : EntryId) : Option ChanId :=
  (state.spec arm).bind Arm.chan

/-- The arm keeps its outcome, or its outcome is decided without success; arms
whose outcome is open may be those of a new call. -/
def Op.Keeps (before after : Op) (arm : Nat) : Prop :=
  (after.outcome arm = before.outcome arm ∨
    before.outcome arm = none ∧ ∀ value, after.outcome arm ≠ some (.ok, value)) ∧
  (after.arms = before.arms ∨ before.outcome arm = none ∧ after.outcome arm = none)

variable {op : OpId} {call after : Op} {arm : Nat}

theorem Op.Keeps.refl (call : Op) (arm : Nat) : call.Keeps call arm :=
  ⟨.inl rfl, .inl rfl⟩

theorem Op.Keeps.of_eq (outcome : after.outcome arm = call.outcome arm)
    (arms : after.arms = call.arms) : call.Keeps after arm :=
  ⟨.inl outcome, .inl arms⟩

theorem OpFacts.outcome_open (facts : OpFacts op call) (unclaimed : call.claimed = false)
    (running : call.stage ≠ .done) (arm : Nat) : call.outcome arm = none := by
  have unwoken := facts.not_woken unclaimed arm
  cases returned : call.result with
  | none => simp [Op.outcome, unwoken, returned]
  | some result => exact absurd (facts.result result returned).1 running

theorem OpFacts.outcome_absent (facts : OpFacts op call) (absent : call.stage = .absent)
    (arm : Nat) : call.outcome arm = none := by
  refine facts.outcome_open ?_ (by simp [absent]) arm
  by_contra claimed
  simpa [absent] using facts.unclaimed (by simpa using claimed)

theorem OpFacts.outcome_inFlight (facts : OpFacts op call) (inFlight : call.inFlight)
    (arm : Nat) : call.outcome arm = none := by
  refine facts.outcome_open (facts.running_unclaimed inFlight) ?_ arm
  rcases inFlight with stage | ⟨rest, stage⟩ <;> simp [stage]

theorem outcome_unwoken (unwoken : (call.entries arm).woken = false)
    (unreturned : call.result = none) : call.outcome arm = none := by
  simp [Op.outcome, unwoken, unreturned]

/-- The outcome depends on the claim of the entry and on the result only. -/
theorem outcome_congr (woken : (after.entries arm).woken = (call.entries arm).woken)
    (reported : (call.entries arm).woken = true → (after.entries arm).ok = (call.entries arm).ok ∧
      (after.entries arm).received = (call.entries arm).received)
    (result : after.result = call.result) : after.outcome arm = call.outcome arm := by
  cases claimed : (call.entries arm).woken with
  | true =>
    obtain ⟨ok, received⟩ := reported claimed
    simp [Op.outcome, woken, claimed, ok, received]
  | false => simp [Op.outcome, woken, claimed, result]

theorem outcome_claim (arm : Nat) (status : Status) (value : Option Msg) :
    (call.claim arm status value).outcome arm =
      some (status, ((call.claim arm status value).entries arm).received) := by
  simp [Op.outcome, Op.claim]

theorem outcome_claim_other (different : other ≠ arm) (status : Status) (value : Option Msg) :
    (call.claim arm status value).outcome other = call.outcome other := by
  simp [Op.outcome, Op.claim, different]

/-- The result of a call without a claimed entry is the outcome of its arm. -/
theorem OpFacts.outcome_settle (facts : OpFacts op call) (inFlight : call.inFlight)
    (result : Result) (arm : Nat) :
    ({ call with stage := .done, result := some result } : Op).outcome arm =
      if result.arm = some arm then some (result.ok, result.msg) else none := by
  have unwoken := facts.not_woken (facts.running_unclaimed inFlight) arm
  simp [Op.outcome, unwoken]

/-- The result of a claimed call repeats what its claimed entry has reported. -/
theorem OpFacts.outcome_return (facts : OpFacts op call) (claimed : call.claimed = true)
    (running : call.stage ≠ .done) (result : Result)
    (agrees : ∀ arm, (call.entries arm).woken = true → result.arm = some arm) (arm : Nat) :
    ({ call with stage := .done, result := some result } : Op).outcome arm =
      call.outcome arm := by
  have unreturned : call.result = none := by
    cases returned : call.result with
    | none => rfl
    | some earlier => exact absurd (facts.result earlier returned).1 running
  obtain ⟨winner, won⟩ := facts.claimed_iff.mp claimed
  cases woken : (call.entries arm).woken with
  | true => simp [Op.outcome, woken]
  | false =>
    have different : result.arm ≠ some arm := by
      rw [agrees winner won]
      rintro ⟨⟩
      simp [won] at woken
    simp [Op.outcome, woken, unreturned, different]

/-- At most one arm of a call has an outcome. -/
theorem OpFacts.outcome_unique (facts : OpFacts op call) (left : call.outcome first ≠ none)
    (right : call.outcome second ≠ none) : first = second := by
  have decided : ∀ arm, call.outcome arm ≠ none → (call.entries arm).woken = true ∨
      ∃ result, call.result = some result ∧ result.arm = some arm := by
    intro arm known
    cases woken : (call.entries arm).woken with
    | true => exact .inl rfl
    | false =>
      cases returned : call.result with
      | none => exact absurd (outcome_unwoken woken returned) known
      | some result =>
        refine .inr ⟨result, rfl, ?_⟩
        by_contra different
        exact known (by simp [Op.outcome, woken, returned, different])
  rcases decided first left with firstWoken | ⟨result, returned, firstArm⟩
  · rcases decided second right with secondWoken | ⟨result, returned, secondArm⟩
    · exact facts.unique first second firstWoken secondWoken
    · have agrees := ((facts.result result returned).2 first firstWoken).1
      exact Option.some.inj (agrees.symm.trans secondArm)
  · rcases decided second right with secondWoken | ⟨other, same, secondArm⟩
    · have agrees := ((facts.result result returned).2 second secondWoken).1
      exact Option.some.inj (firstArm.symm.trans agrees)
    · cases returned.symm.trans same
      exact Option.some.inj (firstArm.symm.trans secondArm)

def State.Keeps (before after : State) (arm : EntryId) : Prop :=
  (before.ops arm.op).Keeps (after.ops arm.op) arm.arm

def State.Unmoved (before after : State) (ch : ChanId) : Prop :=
  (after.chans ch).buffer.contents = (before.chans ch).buffer.contents ∧
    (after.chans ch).deliveries = (before.chans ch).deliveries

/-- The steps of the system as moves of values. -/
inductive Moves (before after : State) : Prop where
  | quiet (kept : ∀ arm, before.Keeps after arm) (unmoved : ∀ ch, before.Unmoved after ch)
  | deposit (put : EntryId) (ch : ChanId) (val : Val)
      (spec : before.spec put = some (.put ch val)) (specKept : after.spec put = before.spec put)
      (undecided : before.outcome put = none) (accepted : after.outcome put = some (.ok, none))
      (kept : ∀ arm, arm ≠ put → before.Keeps after arm)
      (unmoved : ∀ other, other ≠ ch → before.Unmoved after other)
      (contents : (after.chans ch).buffer.contents =
        (before.chans ch).buffer.contents ++ [{ source := put, val }])
      (deliveries : (after.chans ch).deliveries = (before.chans ch).deliveries)
  | withdraw (take : EntryId) (ch : ChanId) (msg : Msg)
      (spec : before.spec take = some (.take ch))
      (specKept : after.spec take = before.spec take)
      (undecided : before.outcome take = none)
      (received : after.outcome take = some (.ok, some msg))
      (kept : ∀ arm, arm ≠ take → before.Keeps after arm)
      (unmoved : ∀ other, other ≠ ch → before.Unmoved after other)
      (contents : (before.chans ch).buffer.contents =
        msg :: (after.chans ch).buffer.contents)
      (deliveries : (after.chans ch).deliveries =
        (before.chans ch).deliveries ++ [{ msg, receiver := take }])
  | transfer (put take : EntryId) (ch : ChanId) (val : Val)
      (putSpec : before.spec put = some (.put ch val))
      (takeSpec : before.spec take = some (.take ch))
      (putSpecKept : after.spec put = before.spec put)
      (takeSpecKept : after.spec take = before.spec take)
      (putUndecided : before.outcome put = none) (takeUndecided : before.outcome take = none)
      (accepted : ∃ value, after.outcome put = some (.ok, value))
      (received : after.outcome take = some (.ok, some { source := put, val }))
      (kept : ∀ arm, arm ≠ put → arm ≠ take → before.Keeps after arm)
      (unmoved : ∀ other, other ≠ ch → before.Unmoved after other)
      (contents : (after.chans ch).buffer.contents = (before.chans ch).buffer.contents)
      (deliveries : (after.chans ch).deliveries =
        (before.chans ch).deliveries ++ [{ msg := { source := put, val }, receiver := take }])

variable {before next : State} {scope : Scope}

theorem keeps_update (ops : next.ops = Function.update before.ops op call)
    (own : ∀ arm, (before.ops op).Keeps call arm) (arm : EntryId) : before.Keeps next arm := by
  unfold State.Keeps
  by_cases same : arm.op = op
  · rw [same, ops, Function.update_self]
    exact own arm.arm
  · rw [ops, Function.update_of_ne same]
    exact .refl _ _

theorem keeps_same (ops : next.ops = before.ops) (arm : EntryId) : before.Keeps next arm := by
  unfold State.Keeps
  rw [ops]
  exact .refl _ _

theorem unmoved_chans (chans : next.chans = before.chans) (ch : ChanId) :
    before.Unmoved next ch := by
  unfold State.Unmoved
  rw [chans]
  exact ⟨rfl, rfl⟩

theorem Prepares.moves (core : Core before) (prepares : Prepares scope before next) :
    Moves before next := by
  cases prepares with
  | enter op caller arms order select stage absent =>
    obtain ⟨ops, chans, -⟩ := enter_frame before op { caller, arms, order, select, stage }
    refine .quiet (keeps_update ops fun arm => ?_) (unmoved_chans chans)
    have undecided := (core.call op).outcome_absent absent arm
    exact ⟨.inl undecided.symm, .inr ⟨undecided, rfl⟩⟩
  | start target rest queue pending =>
    refine .quiet (keeps_update rfl fun arm => .of_eq ?_ rfl) (unmoved_chans rfl)
    by_cases same : arm = target.arm
    · subst same
      exact outcome_congr (by simp) (by simp [Entry.received]) rfl
    · exact outcome_congr (by simp [same]) (by simp [same]) rfl
  | unlink ch takers putters dead =>
    refine .quiet (keeps_same rfl) fun other => ?_
    by_cases same : other = ch
    · subst same
      simp [State.Unmoved, State.setChan]
    · simp [State.Unmoved, State.setChan, same]
  | closeWaiter closer target closing member live =>
    have linked : before.Linked target := by
      rcases member with taker | putter
      · exact ((core.link _).taker target taker).1
      · exact ((core.link _).putter target putter).1
    have unclaimed := (core.live_iff linked).mp live
    obtain ⟨chans, ops, -⟩ := claimWith_frame .claiming before target .closed
      (closedValue (before.entry target))
    refine .quiet (keeps_update ops fun arm => ?_) (unmoved_chans chans)
    refine ⟨?_, .inl rfl⟩
    by_cases same : arm = target.arm
    · subst same
      refine .inr ⟨(core.call _).outcome_open unclaimed.2 (by simp [unclaimed.1]) _, ?_⟩
      simp [outcome_claim]
    · exact .inl (outcome_claim_other same _ _)

theorem OpFacts.keeps_settle (facts : OpFacts op call) (inFlight : call.inFlight)
    (result : Result) (arm : Nat) (unsuccessful : result.arm = some arm → result.ok ≠ .ok) :
    call.Keeps { call with stage := .done, result := some result } arm := by
  refine ⟨.inr ⟨facts.outcome_inFlight inFlight arm, fun value => ?_⟩, .inl rfl⟩
  rw [facts.outcome_settle inFlight]
  split
  · rename_i same
    simp [unsuccessful same]
  · simp

theorem outcome_settled (facts : OpFacts op (middle.ops op)) (inFlight : (middle.ops op).inFlight)
    (reported : result.arm = some arm) :
    (settle middle op result calls).outcome ⟨op, arm⟩ = some (result.ok, result.msg) := by
  obtain ⟨ops, -⟩ := settle_frame middle op result calls
  simp only [State.outcome, ops, Function.update_self]
  rw [facts.outcome_settle inFlight, if_pos reported]

theorem spec_settled (middle : State) (op : OpId) (result : Result) (calls : List Invocation)
    (arm : EntryId) : (settle middle op result calls).spec arm = middle.spec arm := by
  obtain ⟨ops, -⟩ := settle_frame middle op result calls
  by_cases same : arm.op = op
  · simp [State.spec, ops, same]
  · simp [State.spec, ops, same]

theorem keeps_settled (facts : OpFacts op (before.ops op)) (inFlight : (before.ops op).inFlight)
    (reported : result.arm = some arm) (other : EntryId) (different : other ≠ ⟨op, arm⟩) :
    before.Keeps (settle (before.setChan ch chan) op result calls) other := by
  obtain ⟨own, -⟩ := settle_frame (before.setChan ch chan) op result calls
  unfold State.Keeps
  rw [own]
  by_cases same : other.op = op
  · rw [same, Function.update_self]
    refine facts.keeps_settle inFlight result other.arm fun contrary => ?_
    obtain ⟨otherOp, otherArm⟩ := other
    cases same
    cases reported.symm.trans contrary
    exact absurd rfl different
  · rw [Function.update_of_ne same]
    exact .refl _ _

structure HandedOver (before next : State) (target own : EntryId) (value : Option Msg)
    (result : Result) : Prop where
  kept : ∀ arm, arm ≠ target → arm ≠ own → before.Keeps next arm
  spec : ∀ arm, next.spec arm = before.spec arm
  targetUndecided : before.outcome target = none
  ownUndecided : before.outcome own = none
  targetOutcome : next.outcome target = some (.ok,
    (((before.ops target.op).claim target.arm .ok value).entries target.arm).received)
  ownOutcome : next.outcome own = some (result.ok, result.msg)

theorem Core.handedOver (core : Core before) (waker : Waker)
    (value : Option Msg) (ch : ChanId) (chan : Chan) (result : Result) (calls : List Invocation)
    (inFlight : (before.ops op).inFlight) (linked : before.Linked target)
    (live : before.live target = true) (reported : result.arm = some arm) :
    HandedOver before
      (Channel.settle ((claimWith waker before target .ok value).setChan ch chan) op result calls)
      target ⟨op, arm⟩ value result := by
  have unclaimed := (core.live_iff linked).mp live
  have different := core.linked_ne inFlight linked
  have facts := core.call op
  have claimedFacts := core.call target.op
  have ops := handOver_ops before different waker .ok value ch chan result calls
  refine ⟨?_, ?_, ?_, ?_, ?_, ?_⟩
  · intro other notTarget notOwn
    unfold State.Keeps
    rw [ops]
    by_cases same : other.op = op
    · rw [same, Function.update_self]
      refine facts.keeps_settle inFlight result other.arm fun contrary => ?_
      obtain ⟨otherOp, otherArm⟩ := other
      cases same
      cases reported.symm.trans contrary
      exact absurd rfl notOwn
    · rw [Function.update_of_ne same]
      by_cases sameTarget : other.op = target.op
      · rw [sameTarget, Function.update_self]
        refine .of_eq (outcome_claim_other ?_ _ _) rfl
        intro sameArm
        obtain ⟨otherOp, otherArm⟩ := other
        obtain ⟨targetOp, targetArm⟩ := target
        cases sameTarget
        cases sameArm
        exact notTarget rfl
      · rw [Function.update_of_ne sameTarget]
        exact .refl _ _
  · intro other
    by_cases same : other.op = op
    · simp [State.spec, ops, same]
    · by_cases sameTarget : other.op = target.op
      · simp [State.spec, ops, different, sameTarget, Op.claim]
      · simp [State.spec, ops, same, sameTarget]
  · exact claimedFacts.outcome_open unclaimed.2 (by simp [unclaimed.1]) target.arm
  · exact facts.outcome_inFlight inFlight arm
  · simp only [State.outcome, ops, Function.update_of_ne different, Function.update_self]
    exact outcome_claim _ _ _
  · simp only [State.outcome, ops, Function.update_self]
    rw [facts.outcome_settle inFlight, if_pos reported]

theorem Core.received_claim (core : Core before)
    (linked : before.Linked target) (spec : before.spec target = some (.take ch))
    (status : Status) (value : Option Msg) :
    (((before.ops target.op).claim target.arm status value).entries target.arm).received =
      value := by
  have entry := (core.call target.op).entries
    (linked.1.elim .inl (fun claimed => .inr (.inl claimed))) target.arm linked.2
  have slot : ((before.ops target.op).entries target.arm).resultSlot = true := by
    rcases entry.spec with ⟨_, -, slot⟩ | ⟨_, _, contrary, -⟩
    · exact slot
    · cases spec.symm.trans contrary
  simp [Op.claim, Entry.received, slot]

section Transfer

variable {waker : Waker} {chan : Chan} {calls : List Invocation} {ch : ChanId} {val : Val}

theorem Core.takePutter_moves (core : Core before)
    (inFlight : (before.ops op).inFlight) (spec : before.spec ⟨op, arm⟩ = some (.take ch))
    (linked : before.Linked putter) (putSpec : before.spec putter = some (.put ch val))
    (live : before.live putter = true)
    (contents : chan.buffer.contents = (before.chans ch).buffer.contents)
    (deliveries : chan.deliveries = (before.chans ch).deliveries ++
      [{ msg := (before.entry putter).putVal, receiver := ⟨op, arm⟩ }]) :
    Moves before (Channel.settle ((claimWith waker before putter .ok none).setChan ch chan) op
      ((Attempt.taken (before.entry putter).putVal).result ch arm) calls) := by
  rw [core.putVal_eq linked putSpec] at deliveries ⊢
  have handed := core.handedOver waker none ch chan
    ((Attempt.taken { source := putter, val }).result ch arm) calls inFlight linked live rfl
  refine .transfer putter ⟨op, arm⟩ ch val putSpec spec (handed.spec _) (handed.spec _)
    handed.targetUndecided handed.ownUndecided ⟨_, handed.targetOutcome⟩ handed.ownOutcome
    handed.kept ?_ ?_ ?_
  · intro other different
    simp [State.Unmoved, State.setChan, different]
  · simp [State.setChan, contents]
  · simp [State.setChan, deliveries]

theorem Core.putTaker_moves (core : Core before)
    (inFlight : (before.ops op).inFlight) (spec : before.spec ⟨op, arm⟩ = some (.put ch val))
    (linked : before.Linked taker) (takeSpec : before.spec taker = some (.take ch))
    (live : before.live taker = true)
    (contents : chan.buffer.contents = (before.chans ch).buffer.contents)
    (deliveries : chan.deliveries = (before.chans ch).deliveries ++
      [{ msg := { source := ⟨op, arm⟩, val }, receiver := taker }]) :
    Moves before (Channel.settle
      ((claimWith waker before taker .ok (some { source := ⟨op, arm⟩, val })).setChan ch chan) op
      (Attempt.accepted.result ch arm) calls) := by
  have handed := core.handedOver waker (some { source := ⟨op, arm⟩, val }) ch chan
    (Attempt.accepted.result ch arm) calls inFlight linked live rfl
  have received := handed.targetOutcome
  rw [core.received_claim linked takeSpec] at received
  refine .transfer ⟨op, arm⟩ taker ch val spec takeSpec (handed.spec _) (handed.spec _)
    handed.ownUndecided handed.targetUndecided ⟨_, handed.ownOutcome⟩ received
    (fun other notOwn notTarget => handed.kept other notTarget notOwn) ?_ ?_ ?_
  · intro other different
    simp [State.Unmoved, State.setChan, different]
  · simp [State.setChan, contents]
  · simp [State.setChan, deliveries]

end Transfer

theorem Core.continueCall_keeps (core : Core before) (op : OpId) (ready : Bool)
    (waiting : (before.ops op).stage = .waiting) (claimed : (before.ops op).claimed = true)
    (ops : middle.ops = Function.update before.ops op { before.ops op with ready })
    (arm : EntryId) : before.Keeps (continueCall middle op) arm := by
  have facts := core.call op
  have call : middle.ops op = { before.ops op with ready } := by simp [ops]
  cases select : (before.ops op).select with
  | true =>
    have own : (continueCall middle op).ops = Function.update before.ops op
        { before.ops op with ready, stage := .resumed (before.ops op).order none } := by
      rw [continueCall_select (by simp [call, select])]
      simp [State.setOp, ops]
    exact keeps_update own (fun _ => .of_eq rfl rfl) arm
  | false =>
    rw [continueCall_plain (by simp [call, select])]
    rw [show entryResult (middle.ops op) 0 = entryResult (before.ops op) 0 by rw [call]; rfl]
    obtain ⟨own, -⟩ := finish_frame middle op (entryResult (before.ops op) 0)
    rw [call, ops, Function.update_idem] at own
    refine keeps_update own (fun arm => .of_eq ?_ rfl) arm
    exact facts.outcome_return claimed (by simp [waiting]) (entryResult (before.ops op) 0)
      (fun other woken => (facts.plain_result (by simp [waiting]) select claimed other woken).1)
      arm

theorem Routine.moves (core : Core before) (routine : Routine before next) : Moves before next := by
  cases routine with
  | stay | suspend self odd | post self want member suspended =>
    exact .quiet (keeps_same rfl) (unmoved_chans rfl)
  | submit op arm ch entry absent spec fresh registered =>
    refine .quiet (keeps_update rfl fun arm => ?_) (unmoved_chans rfl)
    have undecided := (core.call op).outcome_absent absent arm
    have unwoken : entry.woken = false := fresh.2.1
    refine ⟨.inl ?_, .inr ⟨undecided, outcome_unwoken unwoken rfl⟩⟩
    rw [undecided]
    exact outcome_unwoken unwoken rfl
  | advance op arm rest stage | noteWinner op arm rest winner stage woken =>
    exact .quiet (keeps_update rfl fun arm => .of_eq rfl rfl) (unmoved_chans rfl)
  | refuse op result calls inFlight refused invoked =>
    obtain ⟨ops, chans, -⟩ := settle_frame before op result calls
    refine .quiet (keeps_update ops fun arm => ?_) (unmoved_chans chans)
    refine (core.call op).keeps_settle inFlight result arm fun reported => ?_
    cases refused <;> simp_all [Attempt.result]
  | resume self op member busy waiting =>
    obtain ⟨-, claimed, -⟩ := core.queued_fiber member busy
    obtain ⟨chans, -⟩ := continueCall_frame
      ({ before with runQueue := before.runQueue.erase self }.setFiber self
        { before.fibers self with parked := 0 }) op
    exact .quiet (core.continueCall_keeps op _ waiting claimed (Function.update_eq_self _ _).symm)
      (unmoved_chans chans)
  | syncResume op waiting caller ready =>
    have claimed := (core.call op).readied ready
    obtain ⟨chans, -⟩ := continueCall_frame
      (before.setOp op { before.ops op with ready := false }) op
    exact .quiet (core.continueCall_keeps op _ waiting claimed rfl) (unmoved_chans chans)
  | cancelArm op arm rest winner stage unwoken =>
    refine .quiet (keeps_update rfl fun other => .of_eq ?_ rfl) (unmoved_chans rfl)
    by_cases same : other = arm
    · subst same
      exact outcome_congr (by simp) (by simp [Entry.received]) rfl
    · exact outcome_congr (by simp [same]) (by simp [same]) rfl
  | win op arm stage woken =>
    have facts := core.call op
    obtain ⟨ops, chans, -⟩ := finish_frame before op (entryResult (before.ops op) arm)
    refine .quiet (keeps_update ops fun other => .of_eq ?_ rfl) (unmoved_chans chans)
    exact facts.outcome_return (facts.claimed_iff.mpr ⟨arm, woken⟩) (by simp [stage]) _
      (fun other otherWoken => (facts.entryResult_agrees woken other otherWoken).1) other
  | fire target rest queue waiting =>
    obtain ⟨due, first, -⟩ := core.due_callback queue
    have facts := core.call target.op
    simp only [Op.due, Bool.and_eq_true, beq_iff_eq, waiting, Bool.or_eq_true, reduceCtorEq,
      false_or, true_and] at due
    obtain ⟨caller, claimed⟩ := due
    have order := facts.single (by simp [waiting]) (facts.plain caller)
    obtain ⟨calls, settled, -⟩ := fireCallback_settles { before with cbQueue := rest } target
    rw [settled]
    obtain ⟨ops, -⟩ := settle_frame { before with cbQueue := rest } target.op _ calls
    refine .quiet (keeps_update ops fun arm => .of_eq ?_ rfl) (unmoved_chans (by simp))
    refine facts.outcome_return claimed (by simp [waiting]) _ (fun other woken => ?_) arm
    have zero : other = 0 := by simpa [order] using facts.woken other woken
    rw [zero, first]

theorem Changes.moves (core : Core before) (changes : Changes scope before next) :
    Moves before next := by
  cases changes with
  | routine _ routine => exact routine.moves core
  | control _ controls =>
    have kept := controls.undisturbed
    refine .quiet (keeps_same kept.ops) fun ch => ?_
    obtain ⟨guard, hook, same⟩ := kept.chan ch
    simp [State.Unmoved, same]
  | takeBuffer op arm ch msg buffer calls inFlight spec inScope popped invoked =>
    have facts := core.call op
    refine .withdraw ⟨op, arm⟩ ch msg spec (spec_settled _ _ _ _ _)
      (facts.outcome_inFlight inFlight arm) (outcome_settled facts inFlight rfl)
      (keeps_settled facts inFlight rfl) ?_ ?_ ?_
    · intro other different
      simp [State.Unmoved, State.setChan, different]
    · simpa [State.setChan] using (RingBuffer.contents_pop popped).1
    · simp [State.setChan]
  | takePutter op arm ch waker putter dead rest calls inFlight spec inScope drained list skipped
      live suspended invoked =>
      obtain ⟨linked, val, putSpec⟩ := (core.link ch).putter putter (by simp [list])
      exact core.takePutter_moves inFlight spec linked putSpec live rfl rfl
  | putBuffer op arm ch val buffer calls inFlight spec inScope opened order pushed invoked =>
    have facts := core.call op
    refine .deposit ⟨op, arm⟩ ch val spec (spec_settled _ _ _ _ _)
      (facts.outcome_inFlight inFlight arm) (outcome_settled facts inFlight rfl)
      (keeps_settled facts inFlight rfl) ?_ ?_ ?_
    · intro other different
      simp [State.Unmoved, State.setChan, different]
    · simpa [State.setChan] using (RingBuffer.contents_push pushed).1
    · simp [State.setChan]
  | putTaker op arm ch val waker taker dead rest calls inFlight spec inScope opened list skipped
      live suspended invoked =>
      obtain ⟨linked, takeSpec⟩ := (core.link ch).taker taker (by simp [list])
      exact core.putTaker_moves inFlight spec linked takeSpec live rfl rfl
  | park op entries inFlight blocked prepared fresh =>
    obtain ⟨⟨gen, ops⟩, chans, -⟩ := park_frame before op entries
    refine .quiet (keeps_update ops fun arm => .of_eq ?_ rfl) fun ch => ?_
    · rw [(core.call op).outcome_inFlight inFlight]
      refine outcome_unwoken (fresh gen arm).1 ?_
      cases returned : (before.ops op).result with
      | none => rfl
      | some result =>
        have done := ((core.call op).result result returned).1
        rcases inFlight with stage | ⟨rest, stage⟩ <;> simp [stage] at done
    · simp [State.Unmoved, chans, linkedChan]
  | shut closer closing takersDead puttersDead =>
    refine .quiet (keeps_same rfl) fun other => ?_
    by_cases same : other = (before.closers closer).ch
    · simp [State.Unmoved, setCloser, State.setChan, same]
    · simp [State.Unmoved, setCloser, State.setChan, same]

end Libgoc.Channel
