import Libgoc.Channel.Changes

namespace Libgoc.Channel

open Libgoc.Data

/-! # Every change keeps the invariant -/

variable {state after : State}

theorem Core.setChan (core : Core state) (ch : ChanId) (value : Chan)
    (takers : value.takers = (state.chans ch).takers)
    (putters : value.putters = (state.chans ch).putters)
    (closed : value.closed = (state.chans ch).closed) : Core (state.setChan ch value) := by
  refine core.relink rfl rfl rfl rfl rfl fun other => (core.link other).frame rfl ?_ ?_ ?_
  all_goals
    by_cases same : other = ch
    · subst same; simpa [State.setChan]
    · simp [State.setChan, same]

theorem Core.unlink (core : Core state) (ch : ChanId) (value : Chan)
    (takersLeft : value.takers.Sublist (state.chans ch).takers)
    (puttersLeft : value.putters.Sublist (state.chans ch).putters)
    (takersKept : ∀ target ∈ (state.chans ch).takers, state.live target = true →
      target ∈ value.takers)
    (puttersKept : ∀ target ∈ (state.chans ch).putters, state.live target = true →
      target ∈ value.putters)
    (closed : value.closed = true → value.takers = [] ∧ value.putters = []) :
    Core (state.setChan ch value) := by
  refine core.relink rfl rfl rfl rfl rfl fun other => ?_
  have facts := core.link other
  by_cases same : other = ch
  · subst same
    have chan : (state.setChan other value).chans other = value := by simp [State.setChan]
    constructor
    · rw [chan]
      exact fun target member => facts.taker target (takersLeft.subset member)
    · rw [chan]
      exact fun target member => facts.putter target (puttersLeft.subset member)
    · rw [chan]; exact takersLeft.nodup facts.takersNodup
    · rw [chan]; exact puttersLeft.nodup facts.puttersNodup
    · rw [chan]
      intro target unclaimed member arm
      have linked : state.Linked target := ⟨.inl unclaimed.1, member⟩
      exact takersKept target (facts.takerLinked target unclaimed member arm)
        ((core.live_iff linked).mpr unclaimed)
    · rw [chan]
      intro target val unclaimed member arm
      have linked : state.Linked target := ⟨.inl unclaimed.1, member⟩
      exact puttersKept target (facts.putterLinked target val unclaimed member arm)
        ((core.live_iff linked).mpr unclaimed)
    · rw [chan]; exact closed
  · exact facts.frame rfl (by simp [State.setChan, same]) (by simp [State.setChan, same])
      (by simp [State.setChan, same])

theorem Core.running_fiber (core : Core state) (caller : (state.ops op).caller = .fiber self)
    (active : (state.ops op).stage.active = true) :
    (state.fibers self).busy = some op ∧ (state.fibers self).parked = 0 ∧
      state.posted self = 0 ∧ state.queued self = 0 := by
  have busy := core.owner op self caller (by simp [Op.holds, active])
  refine ⟨busy, ?_⟩
  cases core.fiber self with
  | idle idle => simp [idle] at busy
  | running _ _ _ _ parked posted queued => exact ⟨parked, posted, queued⟩
  | parked other same _ stage =>
    cases same.symm.trans busy
    simp [stage.1, Stage.active] at active
  | claimed other same _ stage | queued other same _ stage =>
    cases same.symm.trans busy
    simp [stage, Stage.active] at active

theorem Core.setOp (core : Core state) (op : OpId) (call : Op)
    (facts : OpFacts op call) (caller : (state.ops op).caller = call.caller)
    (active : (state.ops op).stage.active = true) (still : call.stage.active = true)
    (arms : call.arms = (state.ops op).arms) (order : call.order = (state.ops op).order)
    (claimed : call.claimed = (state.ops op).claimed) : Core (state.setOp op call) := by
  have notDue : (state.ops op).due = false ∧ call.due = false := by
    constructor
    · cases stage : (state.ops op).stage <;> simp_all [Op.due, Stage.active]
    · cases stage : call.stage <;> simp_all [Op.due, Stage.active]
  have awake : (state.ops op).stage ≠ .waiting ∧ call.stage ≠ .waiting := by
    constructor
    · intro stage; simp [stage, Stage.active] at active
    · intro stage; simp [stage, Stage.active] at still
  refine core.update op call rfl facts ?_ (.inr caller) (fun _ _ => ⟨rfl, rfl, rfl⟩) ?_
    core.wants (fun _ _ => rfl) ?_
  · intro ch
    refine (core.link ch).update op call rfl rfl rfl rfl ?_ ?_
    · rintro (waiting | parked)
      · exact absurd waiting awake.1
      · exact ⟨arms, order, .inr (claimed ▸ parked)⟩
    · exact fun unclaimed => absurd unclaimed.1 awake.2
  · intro self mine
    obtain ⟨busy, parked, posted, queued⟩ := core.running_fiber (caller.trans mine) active
    exact ⟨.inr busy, .running op busy (by simpa [State.setOp] using mine)
      (by simpa [State.setOp] using still) parked posted queued, fun _ => busy⟩
  · intro arm
    have before := core.callbacks ⟨op, arm⟩
    simpa [notDue, State.setOp] using before

theorem finish_fiber (caller : (state.ops op).caller = .fiber self) (result : Result) :
    finish state op result = (state.setOp op
      { state.ops op with stage := .done, result := some result }).setFiber self
        { state.fibers self with busy := none } := by
  simp only [finish]
  split
  · rename_i other same
    cases same.symm.trans caller
    rfl
  · rename_i contrary
    exact absurd caller (contrary self)

theorem finish_other (caller : ∀ self, (state.ops op).caller ≠ .fiber self) (result : Result) :
    finish state op result = state.setOp op
      { state.ops op with stage := .done, result := some result } := by
  simp only [finish]

theorem Core.settle (core : Core state) (op : OpId) (result : Result)
    (calls : List Invocation) (active : (state.ops op).stage.active = true)
    (agrees : ∀ arm, ((state.ops op).entries arm).woken = true → result.arm = some arm ∧
      result.ok = ((state.ops op).entries arm).ok ∧
      result.msg = ((state.ops op).entries arm).received) :
    Core (settle state op result calls) := by
  have started : (state.ops op).stage ≠ .absent ∧ (state.ops op).stage ≠ .waiting := by
    constructor <;> intro stage <;> simp [stage, Stage.active] at active
  have facts := (core.call op).finish result started.1 agrees
  have unposted : ∀ arm, state.cbQueue.count ⟨op, arm⟩ = 0 := by
    intro arm
    rw [core.callbacks]
    cases stage : (state.ops op).stage <;> simp_all [Op.due, Stage.active]
  have link : ∀ after : State, after.chans = state.chans → after.ops = Function.update state.ops op
        { state.ops op with stage := .done, result := some result } →
      ∀ ch, LinkFacts after ch := by
    intro after chans ops ch
    refine (core.link ch).update op _ ops (by rw [chans]) (by rw [chans]) (by rw [chans]) ?_ ?_
    · rintro (waiting | claimed)
      · exact absurd waiting started.2
      · exact ⟨rfl, rfl, .inr claimed⟩
    · exact fun unclaimed => by simp [Op.unclaimed] at unclaimed
  by_cases fibers : ∃ self, (state.ops op).caller = .fiber self
  · obtain ⟨self, caller⟩ := fibers
    obtain ⟨busy, parked, posted, queued⟩ := core.running_fiber caller active
    rw [Channel.settle, finish_fiber caller]
    refine core.update op _ rfl facts (link _ rfl rfl) (.inr rfl) ?_ ?_ core.wants
      (fun _ _ => rfl) (fun arm => (unposted arm).trans (by simp [Op.due]))
    · intro other different
      have apart : other ≠ self := by rintro rfl; exact different caller
      exact ⟨by simp [State.setFiber, State.setOp, apart], rfl, rfl⟩
    · intro other same
      cases caller.symm.trans same
      refine ⟨.inr busy, .idle ?_ ?_ posted queued, ?_⟩
      · simp [State.setFiber]
      · simpa [State.setFiber, State.setOp] using parked
      · simp [Op.holds, Stage.active]
  · rw [Channel.settle, finish_other (fun self caller => fibers ⟨self, caller⟩)]
    exact core.update op _ rfl facts (link _ rfl rfl) (.inr rfl) (fun _ _ => ⟨rfl, rfl, rfl⟩)
      (fun self same => absurd ⟨self, same⟩ fibers) core.wants (fun _ _ => rfl)
      (fun arm => (unposted arm).trans (by simp [Op.due]))

theorem Core.enter (core : Core state) (op : OpId) (caller : Caller) (arms : List Arm)
    (order : List Nat) (select : Bool) (stage : Stage) (absent : (state.ops op).stage = .absent)
    (idle : ∀ self, caller = .fiber self → (state.fibers self).busy = none)
    (started : stage = .running ∨ select = true ∧ stage = .scanning order)
    (single : select = false → order = [0]) (distinct : order.Nodup)
    (notCallback : caller ≠ .callback) :
    Core (enter state op { caller, arms, order, select, stage }) := by
  have active : stage.active = true := by
    rcases started with rfl | ⟨-, rfl⟩ <;> rfl
  have facts : OpFacts op { caller, arms, order, select, stage } :=
    opFacts_begin op caller arms order select stage {}
      (started.elim .inl (fun scanning => .inr (.inr scanning)))
      (fun pending => by simp [pending] at started) single
      (fun contrary => absurd contrary notCallback) distinct
      (fun contrary => absurd contrary notCallback) rfl rfl
  have unparked : (state.ops op).stage ≠ .waiting ∧ (state.ops op).claimed = false := by
    refine ⟨by simp [absent], ?_⟩
    by_contra claimed
    have later := (core.call op).unclaimed (by simpa using claimed)
    simp [absent] at later
  have link : ∀ after : State, after.chans = state.chans →
      after.ops = Function.update state.ops op { caller, arms, order, select, stage } →
      ∀ ch, LinkFacts after ch := by
    intro after chans ops ch
    refine (core.link ch).update op _ ops (by rw [chans]) (by rw [chans]) (by rw [chans]) ?_ ?_
    · rintro (waiting | claimed)
      · exact absurd waiting unparked.1
      · simp [unparked.2] at claimed
    · rintro ⟨waiting, -⟩
      simp only at waiting
      simp [waiting, Stage.active] at active
  have unposted : ∀ arm, state.cbQueue.count ⟨op, arm⟩ = 0 := by
    intro arm
    rw [core.callbacks]
    simp [Op.due, absent]
  have notDue : ({ caller, arms, order, select, stage } : Op).due = false := by
    simp [Op.due, notCallback]
  cases caller with
  | fiber self =>
    have facts' := core.fiber self
    have busy := idle self rfl
    obtain ⟨parked, posted, queued⟩ : (state.fibers self).parked = 0 ∧
        state.posted self = 0 ∧ state.queued self = 0 := by
      cases facts' with
      | idle _ parked posted queued => exact ⟨parked, posted, queued⟩
      | running _ contrary | parked _ contrary | claimed _ contrary | queued _ contrary =>
        simp [busy] at contrary
    refine core.update op _ rfl facts (link _ rfl rfl) (.inl absent) ?_ ?_ core.wants
      (fun _ _ => rfl) (fun arm => (unposted arm).trans (by simp [notDue]))
    · intro other different
      have apart : other ≠ self := by rintro rfl; exact different rfl
      exact ⟨by simp [Channel.enter, State.setFiber, State.setOp, apart], rfl, rfl⟩
    · rintro other ⟨⟩
      refine ⟨.inl busy, .running op ?_ ?_ ?_ ?_ posted queued, fun _ => ?_⟩
      · simp [Channel.enter, State.setFiber]
      · simp [Channel.enter, State.setFiber, State.setOp]
      · simpa [Channel.enter, State.setFiber, State.setOp] using active
      · simpa [Channel.enter, State.setFiber, State.setOp] using parked
      · simp [Channel.enter, State.setFiber]
  | thread =>
    exact core.update op _ rfl facts (link _ rfl rfl) (.inl absent)
      (fun _ _ => ⟨rfl, rfl, rfl⟩) (by simp) core.wants (fun _ _ => rfl)
      (fun arm => (unposted arm).trans (by simp [notDue]))
  | callback => exact absurd rfl notCallback

/-- The head of the loop thread's queue is the only entry of its call there. -/
theorem Core.due_callback (core : Core state) (queue : state.cbQueue = target :: rest) :
    (state.ops target.op).due = true ∧ target.arm = 0 ∧
      ∀ arm, rest.count ⟨target.op, arm⟩ = 0 := by
  have due : target.arm = 0 ∧ (state.ops target.op).due = true := by
    have counted := core.callbacks target
    rw [queue, List.count_cons_self] at counted
    by_contra contrary
    rw [if_neg contrary] at counted
    omega
  refine ⟨due.2, due.1, fun arm => ?_⟩
  have counted := core.callbacks ⟨target.op, arm⟩
  rw [queue] at counted
  obtain ⟨op, index⟩ := target
  cases due.1
  by_cases first : arm = 0
  · subst first
    rw [List.count_cons_self] at counted
    simpa [due.2] using counted
  · rw [List.count_cons_of_ne (by simpa [eq_comm] using first)] at counted
    simpa [first] using counted

theorem Core.start (core : Core state) (queue : state.cbQueue = target :: rest)
    (pending : (state.ops target.op).stage = .pending) :
    Core (startPending { state with cbQueue := rest } target) := by
  obtain ⟨due, -, unposted⟩ := core.due_callback queue
  have callback : (state.ops target.op).caller = .callback := by
    simp only [Op.due, Bool.and_eq_true, beq_iff_eq] at due
    exact due.1
  refine core.update target.op _ rfl ((core.call target.op).startPending pending target.arm) ?_
    (.inr rfl) (fun _ _ => ⟨rfl, rfl, rfl⟩) ?_ core.wants ?_
    (fun arm => (unposted arm).trans (by simp [Op.due]))
  · intro ch
    refine (core.link ch).update target.op _ rfl rfl rfl rfl ?_ (by simp [Op.unclaimed])
    rintro (waiting | claimed)
    · simp [pending] at waiting
    · have later := (core.call target.op).unclaimed claimed
      simp [pending] at later
  · intro self same
    cases callback.symm.trans same
  · intro other different
    have apart : target ≠ other := by rintro rfl; exact different rfl
    rw [queue, List.count_cons_of_ne apart]
    rfl

end Libgoc.Channel
