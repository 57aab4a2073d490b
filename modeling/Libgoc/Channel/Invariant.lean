import Mathlib.Data.List.Count
import Libgoc.Channel.Calls

namespace Libgoc.Channel

/-! # The invariant of the waiter protocol -/

def State.Linked (state : State) (target : EntryId) : Prop :=
  ((state.ops target.op).stage = .waiting ∨ (state.ops target.op).claimed = true) ∧
    target.arm ∈ (state.ops target.op).order

def Op.unclaimed (call : Op) : Prop :=
  call.stage = .waiting ∧ call.claimed = false

structure LinkFacts (state : State) (ch : ChanId) : Prop where
  taker : ∀ target ∈ (state.chans ch).takers, state.Linked target ∧
    (state.ops target.op).arms[target.arm]? = some (.take ch)
  putter : ∀ target ∈ (state.chans ch).putters, state.Linked target ∧
    ∃ val, (state.ops target.op).arms[target.arm]? = some (.put ch val)
  takersNodup : (state.chans ch).takers.Nodup
  puttersNodup : (state.chans ch).putters.Nodup
  takerLinked : ∀ target, (state.ops target.op).unclaimed →
    target.arm ∈ (state.ops target.op).order →
    (state.ops target.op).arms[target.arm]? = some (.take ch) →
    target ∈ (state.chans ch).takers
  putterLinked : ∀ target val, (state.ops target.op).unclaimed →
    target.arm ∈ (state.ops target.op).order →
    (state.ops target.op).arms[target.arm]? = some (.put ch val) →
    target ∈ (state.chans ch).putters
  closed : (state.chans ch).closed = true →
    (state.chans ch).takers = [] ∧ (state.chans ch).putters = []

def State.posted (state : State) (self : FiberId) : Nat :=
  (state.posting.map Prod.fst).count self

def State.queued (state : State) (self : FiberId) : Nat :=
  state.runQueue.count self

/-- Where a fiber stands in the park handshake. -/
inductive FiberFacts (state : State) (self : FiberId) : Prop where
  | idle (busy : (state.fibers self).busy = none) (parked : (state.fibers self).parked = 0)
      (posted : state.posted self = 0) (queued : state.queued self = 0)
  | running (op : OpId) (busy : (state.fibers self).busy = some op)
      (caller : (state.ops op).caller = .fiber self)
      (stage : (state.ops op).stage.active = true)
      (parked : (state.fibers self).parked = 0)
      (posted : state.posted self = 0) (queued : state.queued self = 0)
  | parked (op : OpId) (busy : (state.fibers self).busy = some op)
      (caller : (state.ops op).caller = .fiber self)
      (stage : (state.ops op).unclaimed)
      (parked : (state.fibers self).parked = 3 ∨ (state.fibers self).parked = 4)
      (posted : state.posted self = 0) (queued : state.queued self = 0)
  | claimed (op : OpId) (busy : (state.fibers self).busy = some op)
      (caller : (state.ops op).caller = .fiber self)
      (stage : (state.ops op).stage = .waiting) (claimed : (state.ops op).claimed = true)
      (parked : (state.fibers self).parked = 3 ∨ (state.fibers self).parked = 4)
      (posted : state.posted self = 1) (queued : state.queued self = 0)
  | queued (op : OpId) (busy : (state.fibers self).busy = some op)
      (caller : (state.ops op).caller = .fiber self)
      (stage : (state.ops op).stage = .waiting) (claimed : (state.ops op).claimed = true)
      (parked : (state.fibers self).parked = 4)
      (posted : state.posted self = 0) (queued : state.queued self = 1)

def Op.due (call : Op) : Bool :=
  call.caller == .callback && (call.stage == .pending || (call.stage == .waiting && call.claimed))

def Op.holds (call : Op) : Bool :=
  call.stage.active || call.stage == .waiting

structure Core (state : State) : Prop where
  call : ∀ op, OpFacts op (state.ops op)
  link : ∀ ch, LinkFacts state ch
  fiber : ∀ self, FiberFacts state self
  owner : ∀ op self, (state.ops op).caller = .fiber self → (state.ops op).holds = true →
    (state.fibers self).busy = some op
  wants : ∀ post ∈ state.posting, post.2 = 4
  callbacks : ∀ target, state.cbQueue.count target =
    if target.arm = 0 ∧ (state.ops target.op).due = true then 1 else 0

theorem core_initial (capacity : ChanId → Nat) : Core (initialState capacity) where
  call op := opFacts_absent op
  link ch := by
    constructor <;> simp [initialState, Op.unclaimed]
  fiber self := .idle rfl rfl rfl rfl
  owner := by simp [initialState, Op.holds, Stage.active]
  wants := by simp [initialState]
  callbacks := by simp [initialState, Op.due]

variable {state after : State}

theorem FiberFacts.busy_op (facts : FiberFacts state self)
    (busy : (state.fibers self).busy = some op) :
    (state.ops op).caller = .fiber self ∧ (state.ops op).holds = true := by
  cases facts with
  | idle idle => simp [idle] at busy
  | running other same caller stage
  | claimed other same caller stage | queued other same caller stage =>
    cases same.symm.trans busy
    exact ⟨caller, by simp [Op.holds, stage]⟩
  | parked other same caller stage =>
    cases same.symm.trans busy
    exact ⟨caller, by simp [Op.holds, stage.1]⟩

/-- A fiber does not notice what does not touch it, its call or its posts. -/
theorem FiberFacts.frame (facts : FiberFacts state self)
    (fiber : after.fibers self = state.fibers self)
    (calls : ∀ op, (state.fibers self).busy = some op → after.ops op = state.ops op)
    (posts : after.posted self = state.posted self)
    (queue : after.queued self = state.queued self) : FiberFacts after self := by
  cases facts with
  | idle busy parked posted queued =>
    exact .idle (fiber ▸ busy) (fiber ▸ parked) (posts ▸ posted) (queue ▸ queued)
  | running op busy caller stage parked posted queued =>
    have same := calls op busy
    exact .running op (fiber ▸ busy) (same ▸ caller) (same ▸ stage) (fiber ▸ parked)
      (posts ▸ posted) (queue ▸ queued)
  | parked op busy caller stage parked posted queued =>
    have same := calls op busy
    exact .parked op (fiber ▸ busy) (same ▸ caller) (same ▸ stage) (fiber ▸ parked)
      (posts ▸ posted) (queue ▸ queued)
  | claimed op busy caller stage claimed parked posted queued =>
    have same := calls op busy
    exact .claimed op (fiber ▸ busy) (same ▸ caller) (same ▸ stage) (same ▸ claimed)
      (fiber ▸ parked) (posts ▸ posted) (queue ▸ queued)
  | queued op busy caller stage claimed parked posted queued =>
    have same := calls op busy
    exact .queued op (fiber ▸ busy) (same ▸ caller) (same ▸ stage) (same ▸ claimed)
      (fiber ▸ parked) (posts ▸ posted) (queue ▸ queued)

/-- One call moves on, with its fiber and its posts; every other call and every
other fiber stays as it is. -/
theorem Core.update (core : Core state) (op : OpId) (call : Op)
    (ops : after.ops = Function.update state.ops op call) (facts : OpFacts op call)
    (link : ∀ ch, LinkFacts after ch)
    (caller : (state.ops op).stage = .absent ∨ (state.ops op).caller = call.caller)
    (others : ∀ self, call.caller ≠ .fiber self → after.fibers self = state.fibers self ∧
      after.posted self = state.posted self ∧ after.queued self = state.queued self)
    (own : ∀ self, call.caller = .fiber self →
      ((state.fibers self).busy = none ∨ (state.fibers self).busy = some op) ∧
      FiberFacts after self ∧ (call.holds = true → (after.fibers self).busy = some op))
    (wants : ∀ post ∈ after.posting, post.2 = 4) (queue : ∀ target, target.op ≠ op →
      after.cbQueue.count target = state.cbQueue.count target)
    (due : ∀ arm, after.cbQueue.count ⟨op, arm⟩ =
      if arm = 0 ∧ call.due = true then 1 else 0) : Core after := by
  have same : after.ops op = call := by simp [ops]
  have other : ∀ {target}, target ≠ op → after.ops target = state.ops target := by
    intro target different
    simp [ops, different]
  exact {
    call := by
      intro target
      by_cases equal : target = op
      · subst equal; rw [same]; exact facts
      · rw [other equal]; exact core.call target
    link
    fiber := by
      intro self
      by_cases mine : call.caller = .fiber self
      · exact (own self mine).2.1
      · obtain ⟨fiber, posts, queued⟩ := others self mine
        refine (core.fiber self).frame fiber (fun target busy => other ?_) posts queued
        rintro rfl
        obtain ⟨owner, holds⟩ := (core.fiber self).busy_op busy
        rcases caller with absent | kept
        · simp [Op.holds, absent, Stage.active] at holds
        · exact mine (kept ▸ owner)
    owner := by
      intro target self owner holds
      by_cases equal : target = op
      · subst equal
        rw [same] at owner holds
        exact (own self owner).2.2 holds
      · rw [other equal] at owner holds
        have busy := core.owner target self owner holds
        by_cases mine : call.caller = .fiber self
        · rcases (own self mine).1 with idle | taken
          · simp [idle] at busy
          · exact absurd (Option.some.inj (busy.symm.trans taken)) equal
        · rw [(others self mine).1]; exact busy
    wants
    callbacks := by
      intro target
      by_cases equal : target.op = op
      · obtain ⟨targetOp, arm⟩ := target
        cases equal
        simp only [same]
        exact due arm
      · rw [queue target equal, other equal]
        exact core.callbacks target }

/-- A change of one call keeps the lists right when a parked call stays parked
on the same arms and no call becomes claimable. -/
theorem LinkFacts.update (facts : LinkFacts state ch) (op : OpId) (call : Op)
    (ops : after.ops = Function.update state.ops op call)
    (takers : (after.chans ch).takers = (state.chans ch).takers)
    (putters : (after.chans ch).putters = (state.chans ch).putters)
    (closed : (after.chans ch).closed = (state.chans ch).closed)
    (kept : (state.ops op).stage = .waiting ∨ (state.ops op).claimed = true →
      call.arms = (state.ops op).arms ∧ call.order = (state.ops op).order ∧
        (call.stage = .waiting ∨ call.claimed = true))
    (fresh : call.unclaimed → (state.ops op).unclaimed) : LinkFacts after ch := by
  have linked : ∀ target, state.Linked target → after.Linked target ∧
      (after.ops target.op).arms = (state.ops target.op).arms := by
    rintro ⟨targetOp, arm⟩ ⟨parked, member⟩
    by_cases same : targetOp = op
    · subst same
      obtain ⟨arms, order, still⟩ := kept parked
      refine ⟨⟨?_, ?_⟩, ?_⟩
      · simpa [ops] using still
      · simpa [ops, order] using member
      · simpa [ops] using arms
    · refine ⟨⟨?_, ?_⟩, ?_⟩
      · simpa [ops, same] using parked
      · simpa [ops, same] using member
      · simp [ops, same]
  have claimable : ∀ target, (after.ops target).unclaimed → (state.ops target).unclaimed ∧
      (after.ops target).arms = (state.ops target).arms ∧
      (after.ops target).order = (state.ops target).order := by
    intro target unclaimed
    by_cases same : target = op
    · subst same
      have before : (state.ops target).unclaimed := fresh (by simpa [ops] using unclaimed)
      obtain ⟨arms, order, -⟩ := kept (.inl before.1)
      exact ⟨before, by simpa [ops] using arms, by simpa [ops] using order⟩
    · simpa [ops, same] using unclaimed
  exact {
    taker := by
      intro target member
      rw [takers] at member
      obtain ⟨parked, arm⟩ := facts.taker target member
      obtain ⟨still, arms⟩ := linked target parked
      exact ⟨still, arms ▸ arm⟩
    putter := by
      intro target member
      rw [putters] at member
      obtain ⟨parked, val, arm⟩ := facts.putter target member
      obtain ⟨still, arms⟩ := linked target parked
      exact ⟨still, val, arms ▸ arm⟩
    takersNodup := takers ▸ facts.takersNodup
    puttersNodup := putters ▸ facts.puttersNodup
    takerLinked := by
      intro target unclaimed member arm
      obtain ⟨before, arms, order⟩ := claimable target.op unclaimed
      rw [takers]
      exact facts.takerLinked target before (order ▸ member) (arms ▸ arm)
    putterLinked := by
      intro target val unclaimed member arm
      obtain ⟨before, arms, order⟩ := claimable target.op unclaimed
      rw [putters]
      exact facts.putterLinked target val before (order ▸ member) (arms ▸ arm)
    closed := by
      rw [takers, putters, closed]
      exact facts.closed }

theorem LinkFacts.frame (facts : LinkFacts state ch) (ops : after.ops = state.ops)
    (takers : (after.chans ch).takers = (state.chans ch).takers)
    (putters : (after.chans ch).putters = (state.chans ch).putters)
    (closed : (after.chans ch).closed = (state.chans ch).closed) : LinkFacts after ch where
  taker := by rw [takers]; simpa only [State.Linked, ops] using facts.taker
  putter := by rw [putters]; simpa only [State.Linked, ops] using facts.putter
  takersNodup := takers ▸ facts.takersNodup
  puttersNodup := putters ▸ facts.puttersNodup
  takerLinked := by rw [takers, ops]; exact facts.takerLinked
  putterLinked := by rw [putters, ops]; exact facts.putterLinked
  closed := by rw [takers, putters, closed]; exact facts.closed

/-- Changes outside of the calls and the posts only have to keep the lists. -/
theorem Core.relink (core : Core state) (ops : after.ops = state.ops)
    (fibers : after.fibers = state.fibers) (posting : after.posting = state.posting)
    (runQueue : after.runQueue = state.runQueue) (cbQueue : after.cbQueue = state.cbQueue)
    (link : ∀ ch, LinkFacts after ch) : Core after where
  call := ops ▸ core.call
  link
  fiber self := (core.fiber self).frame (by rw [fibers]) (fun _ _ => by rw [ops])
    (by rw [State.posted, posting]; rfl) (by rw [State.queued, runQueue]; rfl)
  owner := by rw [ops, fibers]; exact core.owner
  wants := posting ▸ core.wants
  callbacks := by rw [ops, cbQueue]; exact core.callbacks

/-- The waiters of a linked call are all alive or all dead. -/
theorem Core.live_iff (core : Core state) (linked : state.Linked target) :
    state.live target = true ↔ (state.ops target.op).unclaimed := by
  have facts := core.call target.op
  obtain ⟨parked, member⟩ := linked
  have entry := facts.entries (parked.elim .inl (fun claimed => .inr (.inl claimed)))
    target.arm member
  cases claimed : (state.ops target.op).claimed with
  | false =>
    have waiting : (state.ops target.op).stage = .waiting := by
      rcases parked with waiting | contrary
      · exact waiting
      · simp [claimed] at contrary
    simp [State.live, State.entry, facts.not_woken claimed, facts.not_cancelled claimed,
      facts.fired, claimed, Op.unclaimed, waiting]
  | true =>
    have dead : state.live target = false := by
      cases select : (state.ops target.op).select with
      | true => simp [State.live, State.entry, entry.shares, facts.fired, select, claimed]
      | false =>
        obtain ⟨arm, woken⟩ := facts.claimed_iff.mp claimed
        have started : (state.ops target.op).stage ≠ .absent := by
          rcases facts.unclaimed claimed with stage | stage | ⟨rest, winner, stage⟩ <;>
            simp [stage]
        have order := facts.single started select
        have armZero : arm = 0 := by simpa [order] using facts.woken arm woken
        have targetZero : target.arm = 0 := by simpa [order] using member
        simp [State.live, State.entry, targetZero, armZero ▸ woken]
    simp [dead, Op.unclaimed, claimed]

end Libgoc.Channel
