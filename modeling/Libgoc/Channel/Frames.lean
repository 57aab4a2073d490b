import Libgoc.Channel.Inversion

namespace Libgoc.Channel

open Libgoc.Data Function

/-! # What the changes leave alone -/

variable {state after : State} {op : OpId}

theorem finish_frame (state : State) (op : OpId) (result : Result) :
    (finish state op result).ops = update state.ops op
      { state.ops op with stage := .done, result := some result } ∧
    (finish state op result).chans = state.chans ∧
    (finish state op result).cbQueue = state.cbQueue ∧
    (finish state op result).closers = state.closers ∧
    (finish state op result).hooks = state.hooks ∧
    (finish state op result).invocations = state.invocations := by
  simp only [finish]
  split <;> exact ⟨rfl, rfl, rfl, rfl, rfl, rfl⟩

theorem settle_frame (state : State) (op : OpId) (result : Result) (calls : List Invocation) :
    (settle state op result calls).ops = update state.ops op
      { state.ops op with stage := .done, result := some result } ∧
    (settle state op result calls).chans = state.chans ∧
    (settle state op result calls).cbQueue = state.cbQueue ∧
    (settle state op result calls).closers = state.closers ∧
    (settle state op result calls).hooks = state.hooks := by
  obtain ⟨ops, chans, queue, closers, hooks, -⟩ := finish_frame state op result
  exact ⟨ops, chans, queue, closers, hooks⟩

@[simp] theorem settle_stage (state : State) (op : OpId) (result : Result)
    (calls : List Invocation) : ((settle state op result calls).ops op).stage = .done := by
  simp [(settle_frame state op result calls).1]

@[simp] theorem settle_chans (state : State) (op : OpId) (result : Result)
    (calls : List Invocation) : (settle state op result calls).chans = state.chans :=
  (settle_frame state op result calls).2.1

@[simp] theorem claimWith_chans (waker : Waker) (state : State) (target : EntryId)
    (status : Status) (value : Option Msg) :
    (claimWith waker state target status value).chans = state.chans :=
  (claimWith_frame waker state target status value).1

theorem enter_frame (state : State) (op : OpId) (call : Op) :
    (enter state op call).ops = update state.ops op call ∧
    (enter state op call).chans = state.chans ∧
    (enter state op call).closers = state.closers ∧
    (enter state op call).hooks = state.hooks ∧
    (enter state op call).invocations = state.invocations := by
  simp only [enter]
  split <;> exact ⟨rfl, rfl, rfl, rfl, rfl⟩

theorem park_frame (state : State) (op : OpId) (entries : Nat → Nat → Entry) :
    (∃ gen, (park state op entries).ops = update state.ops op
      { state.ops op with stage := .waiting, entries := entries gen }) ∧
    (park state op entries).chans = (fun ch =>
      linkedChan op (state.ops op).arms ch (state.ops op).order (state.chans ch)) ∧
    (park state op entries).closers = state.closers ∧
    (park state op entries).hooks = state.hooks ∧
    (park state op entries).invocations = state.invocations := by
  by_cases fibers : ∃ self, (state.ops op).caller = .fiber self
  · obtain ⟨self, caller⟩ := fibers
    rw [park_fiber caller]
    exact ⟨⟨_, rfl⟩, rfl, rfl, rfl, rfl⟩
  · rw [park_other (fun self caller => fibers ⟨self, caller⟩)]
    exact ⟨⟨_, rfl⟩, rfl, rfl, rfl, rfl⟩

theorem continueCall_frame (state : State) (op : OpId) :
    (continueCall state op).chans = state.chans ∧
    (continueCall state op).closers = state.closers ∧
    (continueCall state op).hooks = state.hooks ∧
    (continueCall state op).invocations = state.invocations := by
  simp only [continueCall]
  split
  · exact ⟨rfl, rfl, rfl, rfl⟩
  · obtain ⟨-, chans, -, closers, hooks, invocations⟩ :=
      finish_frame state op (entryResult (state.ops op) 0)
    exact ⟨chans, closers, hooks, invocations⟩

theorem continueCall_ops (state : State) (op : OpId) :
    ∃ call, (continueCall state op).ops = update state.ops op call := by
  simp only [continueCall]
  split
  · exact ⟨_, rfl⟩
  · exact ⟨_, (finish_frame state op _).1⟩

theorem fireCallback_settles (state : State) (target : EntryId) :
    ∃ calls, fireCallback state target = settle state target.op
      { ch := (state.entry target).ch, arm := some target.arm
        msg := if (state.entry target).isPut then none else (state.entry target).cbResult
        ok := (state.entry target).ok } calls ∧
      (calls = [] ∨ ∃ msg, calls = [{ entry := target, ch := (state.entry target).ch, msg
                                      ok := (state.entry target).ok }]) := by
  refine ⟨_, invoke_finish _ _ _ _ _ _ _, ?_⟩
  split
  · exact .inr ⟨_, rfl⟩
  · exact .inl rfl

theorem handOver_ops (before : State) (different : target.op ≠ op)
    (waker : Waker) (status : Status) (value : Option Msg) (ch : ChanId) (chan : Chan)
    (result : Result) (calls : List Invocation) :
    (settle ((claimWith waker before target status value).setChan ch chan) op result calls).ops =
      update (update before.ops target.op
        ((before.ops target.op).claim target.arm status value)) op
        { before.ops op with stage := .done, result := some result } := by
  obtain ⟨-, claimed, -⟩ := claimWith_frame waker before target status value
  obtain ⟨ops, -⟩ := settle_frame ((claimWith waker before target status value).setChan ch chan)
    op result calls
  have own : ((claimWith waker before target status value).setChan ch chan).ops op =
      before.ops op := by
    change (claimWith waker before target status value).ops op = _
    rw [claimed, update_of_ne different.symm]
  rw [own] at ops
  change _ = update (claimWith waker before target status value).ops op _ at ops
  rw [ops, claimed]

theorem Core.putVal_eq (core : Core before)
    (linked : before.Linked target) (spec : (before.ops target.op).arms[target.arm]? = some (.put ch val)) :
    (before.entry target).putVal = { source := target, val } := by
  have entry := (core.call target.op).entries
    (linked.1.elim .inl (fun claimed => .inr (.inl claimed))) target.arm linked.2
  rcases entry.spec with ⟨_, contrary, -⟩ | ⟨_, other, found, value⟩
  · cases spec.symm.trans contrary
  · cases spec.symm.trans found
    exact value

def Stage.committed : Stage → Bool
  | .waiting | .resumed _ _ | .done | .aborted => true
  | .absent | .running | .scanning _ | .pending => false

theorem inFlight_uncommitted {call : Op} (inFlight : call.inFlight) :
    call.stage.committed = false := by
  rcases inFlight with stage | ⟨rest, stage⟩ <;> simp [stage, Stage.committed]

theorem OpFacts.uncommitted_unclaimed (facts : OpFacts op call)
    (uncommitted : call.stage.committed = false) : call.claimed = false := by
  by_contra claimed
  rcases facts.unclaimed (by simpa using claimed) with stage | stage | ⟨rest, winner, stage⟩ <;>
    simp [stage, Stage.committed] at uncommitted

/-- A routine change is about one call: one that has not parked, or one that
has been claimed. -/
inductive CallStep (before after : State) : Prop where
  | same (ops : after.ops = before.ops)
  | unparked (op : OpId) (call : Op) (ops : after.ops = update before.ops op call)
      (uncommitted : (before.ops op).stage.committed = false)
      (select : call.select = true → (before.ops op).select = true)
      (unparked : call.stage ≠ .waiting)
  | claimed (op : OpId) (call : Op) (ops : after.ops = update before.ops op call)
      (claimed : call.claimed = true) (order : call.order = (before.ops op).order)
      (committed : call.stage.committed = true)
      (select : call.select = true → (before.ops op).select = true)
      (unparked : call.stage ≠ .waiting) (unfinished : (before.ops op).stage ≠ .done)

theorem continueCall_step (op : OpId) (ready : Bool)
    (waiting : (before.ops op).stage = .waiting) (claimed : (before.ops op).claimed = true)
    (ops : middle.ops = update before.ops op { before.ops op with ready }) :
    CallStep before (continueCall middle op) := by
  have call : middle.ops op = { before.ops op with ready } := by simp [ops]
  cases select : (before.ops op).select with
  | true =>
    refine .claimed op { before.ops op with ready, stage := .resumed (before.ops op).order none }
      ?_ claimed rfl rfl (fun kept => kept) (by simp) (by simp [waiting])
    rw [continueCall_select (by simp [call, select])]
    simp [State.setOp, ops]
  | false =>
    obtain ⟨own, -⟩ := finish_frame middle op (entryResult (middle.ops op) 0)
    refine .claimed op { before.ops op with
      ready, stage := .done, result := some (entryResult (middle.ops op) 0) } ?_ claimed rfl rfl
      (fun kept => kept) (by simp) (by simp [waiting])
    rw [continueCall_plain (by simp [call, select]), own, call, ops, update_idem]

theorem Routine.callStep (core : Core before)
    (routine : Routine before after) : CallStep before after := by
  cases routine with
  | stay => exact .same rfl
  | submit op arm ch entry absent =>
    exact .unparked op _ rfl (by simp [absent, Stage.committed]) (by simp) (by simp)
  | advance op arm rest stage =>
    exact .unparked op _ rfl (by simp [stage, Stage.committed]) (fun kept => kept) (by simp)
  | refuse op result calls inFlight =>
    exact .unparked op _ (settle_frame before op result calls).1 (inFlight_uncommitted inFlight)
      (fun kept => kept) (by simp)
  | suspend self odd => exact .same rfl
  | post self want member suspended => exact .same rfl
  | resume self op member busy waiting =>
    obtain ⟨-, claimed, -⟩ := core.queued_fiber member busy
    exact continueCall_step op _ waiting claimed (update_eq_self _ _).symm
  | syncResume op waiting caller ready =>
    exact continueCall_step op _ waiting ((core.call op).readied ready) rfl
  | noteWinner op arm rest winner stage woken =>
    exact .claimed op _ rfl ((core.call op).resumed _ _ stage).2.1 rfl rfl (fun kept => kept)
      (by simp) (by simp [stage])
  | cancelArm op arm rest winner stage unwoken =>
    refine .claimed op _ rfl ?_ rfl rfl (fun kept => kept) (by simp) (by simp [stage])
    exact ((core.call op).cancelArm stage unwoken).resumed _ _ rfl |>.2.1
  | win op arm stage woken =>
    exact .claimed op _ (finish_frame before op _).1
      ((core.call op).claimed_iff.mpr ⟨arm, woken⟩) rfl rfl (fun kept => kept) (by simp)
      (by simp [stage])
  | fire target rest queue waiting =>
    obtain ⟨due, -, -⟩ := core.due_callback queue
    simp only [Op.due, Bool.and_eq_true, beq_iff_eq, waiting, Bool.or_eq_true, reduceCtorEq,
      false_or, true_and] at due
    obtain ⟨calls, settled, -⟩ := fireCallback_settles { before with cbQueue := rest } target
    rw [settled]
    exact .claimed target.op _ (settle_frame _ _ _ _).1 due.2 rfl rfl (fun kept => kept)
      (by simp) (by simp [waiting])

theorem Routine.frame (routine : Routine before after) :
    after.chans = before.chans ∧ after.closers = before.closers ∧ after.hooks = before.hooks := by
  cases routine with
  | refuse op result calls =>
    obtain ⟨-, chans, -, closers, hooks⟩ := settle_frame before op result calls
    exact ⟨chans, closers, hooks⟩
  | resume self op =>
    obtain ⟨chans, closers, hooks, -⟩ := continueCall_frame
      ({ before with runQueue := before.runQueue.erase self }.setFiber self
        { before.fibers self with parked := 0 }) op
    exact ⟨chans, closers, hooks⟩
  | syncResume op =>
    obtain ⟨chans, closers, hooks, -⟩ := continueCall_frame
      (before.setOp op { before.ops op with ready := false }) op
    exact ⟨chans, closers, hooks⟩
  | win op arm =>
    obtain ⟨-, chans, -, closers, hooks, -⟩ :=
      finish_frame before op (entryResult (before.ops op) arm)
    exact ⟨chans, closers, hooks⟩
  | fire target rest =>
    obtain ⟨calls, settled, -⟩ := fireCallback_settles { before with cbQueue := rest } target
    rw [settled]
    obtain ⟨-, chans, -, closers, hooks⟩ := settle_frame { before with cbQueue := rest }
      target.op _ calls
    exact ⟨chans, closers, hooks⟩
  | stay
  | submit
  | advance
  | suspend
  | post
  | noteWinner
  | cancelArm => exact ⟨rfl, rfl, rfl⟩

theorem forall_update (property : Op → Prop)
    (all : ∀ op, property (ops op)) (own : property call) (op : OpId) :
    ∀ other, property (update ops op call other) :=
  (Function.forall_update_iff ops fun _ => property).mpr ⟨own, fun other _ => all other⟩

theorem forall_handOver (property : Op → Prop)
    (different : target.op ≠ op) (all : ∀ op, property (before.ops op))
    (claimed : property ((before.ops target.op).claim target.arm status value))
    (settled : property { before.ops op with stage := .done, result := some result })
    (other : OpId) :
    property ((settle ((claimWith waker before target status value).setChan ch chan) op result
      calls).ops other) := by
  rw [handOver_ops before different]
  exact forall_update property (forall_update property all claimed target.op) settled op other

section Returned

variable {before : State} {scope : Scope} (core : Core before)
  (returned : (before.ops op).stage = .done)
include returned

theorem update_returned (running : (before.ops other).stage ≠ .done) :
    update before.ops other call op = before.ops op := by
  refine update_of_ne ?_ _ _
  rintro rfl
  exact running returned

include core

theorem claim_returned (linked : before.Linked target)
    (live : before.live target = true) (call : Op) :
    update before.ops target.op call op = before.ops op :=
  update_returned returned (by simp [((core.live_iff linked).mp live).1])

theorem handOver_returned (linked : before.Linked target)
    (live : before.live target = true) (inFlight : (before.ops other).inFlight) (waker : Waker)
    (status : Status) (value : Option Msg) (ch : ChanId) (chan : Chan) (result : Result)
    (calls : List Invocation) :
    (settle ((claimWith waker before target status value).setChan ch chan) other result
      calls).ops op = before.ops op := by
  rw [handOver_ops before (core.linked_ne inFlight linked)]
  have different : op ≠ other := by
    rintro rfl
    rcases inFlight with stage | ⟨rest, stage⟩ <;> simp [stage] at returned
  rw [update_of_ne different]
  exact claim_returned core returned linked live _

theorem Prepares.keeps_returned (prepares : Prepares scope before after) :
    after.ops op = before.ops op := by
  cases prepares with
  | enter other caller arms order select stage absent =>
    rw [(enter_frame before other { caller, arms, order, select, stage }).1]
    exact update_returned returned (by simp [absent])
  | start target rest queue pending => exact update_returned returned (by simp [pending])
  | unlink => rfl
  | closeWaiter closer target closing member live =>
    have linked : before.Linked target := member.elim
      (fun taker => ((core.link _).taker target taker).1)
      (fun putter => ((core.link _).putter target putter).1)
    rw [(claimWith_frame .claiming before target .closed _).2.1]
    exact claim_returned core returned linked live _

theorem Changes.keeps_returned (changes : Changes scope before after) :
    after.ops op = before.ops op := by
  have settled : ∀ other, (before.ops other).inFlight → (before.ops other).stage ≠ .done := by
    rintro other (stage | ⟨rest, stage⟩) <;> simp [stage]
  cases changes with
  | routine _ routine =>
    cases routine.callStep core with
    | same ops => rw [ops]
    | unparked other call ops uncommitted =>
      rw [ops]
      refine update_returned returned fun contrary => ?_
      simp [contrary, Stage.committed] at uncommitted
    | claimed other call ops _ _ _ _ _ unfinished =>
      rw [ops]
      exact update_returned returned unfinished
  | control _ controls => rw [controls.undisturbed.ops]
  | takeBuffer other arm ch msg buffer calls inFlight
  | putBuffer other arm ch val buffer calls inFlight =>
    rw [(settle_frame _ _ _ _).1]
    exact update_returned returned (settled other inFlight)
  | takePutter other arm ch waker putter dead rest calls inFlight spec inScope drained list
      skipped live =>
      have linked := ((core.link ch).putter putter (by simp [list])).1
      exact handOver_returned core returned linked live inFlight _ _ _ _ _ _ _
  | putTaker other arm ch val waker taker dead rest calls inFlight spec inScope opened list
      skipped live =>
      have linked := ((core.link ch).taker taker (by simp [list])).1
      exact handOver_returned core returned linked live inFlight _ _ _ _ _ _ _
  | park other entries inFlight =>
    obtain ⟨⟨gen, ops⟩, -⟩ := park_frame before other entries
    rw [ops]
    exact update_returned returned (settled other inFlight)
  | shut => rfl

end Returned

end Libgoc.Channel
