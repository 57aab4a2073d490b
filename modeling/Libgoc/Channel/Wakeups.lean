import Libgoc.Channel.Ledger

namespace Libgoc.Channel

open Libgoc.Data Libgoc.Semantics Relation Function

/-! # Waking the waiters of a closed channel -/

variable {before after state : State} {op : OpId} {ch : ChanId}

def State.wakeups (state : State) (op : OpId) : Nat :=
  if (state.ops op).stage = .waiting then
    match (state.ops op).caller with
    | .fiber self => state.posted self + state.queued self
    | .thread => if (state.ops op).ready then 1 else 0
    | .callback => state.cbQueue.count ⟨op, 0⟩
  else 0

/-- A waiting call is on its way back exactly if it has been claimed, and then
once. -/
theorem Core.wakeups_eq (core : Core state) (op : OpId) : state.wakeups op =
      if (state.ops op).stage = .waiting ∧ (state.ops op).claimed = true then 1 else 0 := by
  by_cases waiting : (state.ops op).stage = .waiting
  · simp only [State.wakeups, waiting, if_true, true_and]
    have facts := core.call op
    cases caller : (state.ops op).caller with
    | fiber self =>
      have busy := core.owner op self caller (by simp [Op.holds, waiting])
      cases core.fiber self with
      | idle idle => cases idle.symm.trans busy
      | running other same _ active =>
        cases same.symm.trans busy
        simp [waiting, Stage.active] at active
      | parked other same _ unclaimed _ posted queued =>
        cases same.symm.trans busy
        simp [posted, queued, unclaimed.2]
      | claimed other same _ _ claimed _ posted queued
      | queued other same _ _ claimed _ posted queued =>
        cases same.symm.trans busy
        simp [posted, queued, claimed]
    | thread =>
      cases claimed : (state.ops op).claimed with
      | true => simp [facts.ready caller waiting claimed]
      | false =>
        have idle : (state.ops op).ready = false := by
          by_contra ready
          simp [facts.readied (by simpa using ready)] at claimed
        simp [idle]
    | callback =>
      have count := core.callbacks ⟨op, 0⟩
      simpa [Op.due, caller, waiting] using count
  · simp [State.wakeups, waiting]

def State.firstLive (state : State) (targets : List EntryId) (op : OpId) : Option EntryId :=
  targets.find? fun target => target.op = op && state.live target

theorem live_congr (same : after.ops target.op = before.ops target.op) :
    after.live target = before.live target := by
  simp only [State.live, State.entry, same]

theorem firstLive_congr (same : after.ops op = before.ops op) :
    after.firstLive targets op = before.firstLive targets op := by
  induction targets with
  | nil => rfl
  | cons target rest ih =>
    simp only [State.firstLive] at ih
    simp only [State.firstLive, List.find?_cons, ih]
    by_cases own : target.op = op
    · subst own
      simp [live_congr same]
    · simp [own]

theorem firstLive_none (core : Core state)
    (claimed : (state.ops op).claimed = true) (linked : ∀ target ∈ targets, state.Linked target) :
    state.firstLive targets op = none := by
  apply List.find?_eq_none.mpr
  intro target member found
  simp only [Bool.and_eq_true, decide_eq_true_eq] at found
  obtain ⟨own, live⟩ := found
  have unclaimed := ((core.live_iff (linked target member)).mp live).2
  simp [own, claimed] at unclaimed

section

variable (core : Core state) (linked : state.Linked target)
include core linked

theorem Core.closedValue_none (live : state.live target = true) :
    closedValue (state.entry target) = none := by
  have unclaimed := (core.live_iff linked).mp live
  have facts := core.call target.op
  have entry := facts.entries (.inl unclaimed.1) target.arm linked.2
  have empty := (entry.fresh (facts.not_woken unclaimed.2 target.arm)).1
  simp [closedValue, State.entry, empty]

theorem closeWaiter_core :
    Core (closeWaiter state target) := by
  cases live : state.live target with
  | true =>
    rw [closeWaiter_live core linked live]
    exact core.claim linked live .claiming .closed _ (by simp)
  | false =>
    rw [closeWaiter_dead core linked live]
    exact core

theorem closeWaiter_ops : (closeWaiter state target).ops = if state.live target = true then
      update state.ops target.op ((state.ops target.op).claim target.arm .closed none)
    else state.ops := by
  cases live : state.live target with
  | true =>
    rw [closeWaiter_live core linked live, core.closedValue_none linked live]
    exact (claimWith_frame .claiming state target .closed none).2.1
  | false =>
    rw [closeWaiter_dead core linked live]
    rfl

theorem closeWaiter_linked (parked : state.Linked other) :
    (closeWaiter state target).Linked other := by
  simp only [State.Linked, closeWaiter_ops core linked]
  split
  · rename_i live
    by_cases same : other.op = target.op
    · have unclaimed := (core.live_iff linked).mp live
      rw [same, update_self]
      rw [State.Linked, same] at parked
      exact ⟨.inl unclaimed.1, parked.2⟩
    · rw [update_of_ne same]
      exact parked
  · exact parked

end

/-- The loop claims every call with a live waiter once, through its first one,
and leaves the other calls alone. -/
theorem closeWaiters_ops (core : Core state)
    (linked : ∀ target ∈ targets, state.Linked target) (op : OpId) :
    (targets.foldl closeWaiter state).ops op = match state.firstLive targets op with
      | some target => (state.ops op).claim target.arm .closed none
      | none => state.ops op := by
  induction targets generalizing state with
  | nil => rfl
  | cons target rest ih =>
    obtain ⟨first, others⟩ := List.forall_mem_cons.mp linked
    have coreNext := closeWaiter_core core first
    have linkedNext : ∀ other ∈ rest, (closeWaiter state target).Linked other :=
      fun other member => closeWaiter_linked core first (others other member)
    have ops := closeWaiter_ops core first
    rw [List.foldl_cons, ih coreNext linkedNext]
    by_cases own : target.op = op
    · subst own
      cases live : state.live target with
      | true =>
        simp only [live, if_true] at ops
        have claimed : ((closeWaiter state target).ops target.op).claimed = true := by
          rw [ops, update_self]
          exact claimed_claim first.2 _ _
        rw [firstLive_none coreNext claimed linkedNext, ops, update_self]
        simp [State.firstLive, live]
      | false =>
        simp only [live, Bool.false_eq_true, if_false] at ops
        rw [firstLive_congr (congrFun ops target.op), ops]
        simp [State.firstLive, live]
    · have same : (closeWaiter state target).ops op = state.ops op := by
        rw [ops]
        split
        · exact update_of_ne (Ne.symm own) _ _
        · rfl
      rw [firstLive_congr same, same]
      simp [State.firstLive, own]

/-- What the body of a close does to a call: one that waits on the channel and
can be claimed is claimed through one waiter and posted once, and every other
call is left alone. -/
inductive ClosesCall (before after : State) (ch : ChanId) (op : OpId) : Prop where
  | woken (arm : Nat)
      (waiter : ⟨op, arm⟩ ∈ (before.chans ch).takers ++ (before.chans ch).putters)
      (live : before.live ⟨op, arm⟩ = true)
      (claimed : after.ops op = (before.ops op).claim arm .closed none)
      (unposted : before.wakeups op = 0) (posted : after.wakeups op = 1)
      (report : after.outcome ⟨op, arm⟩ = some (.closed, none))
  | left (dead : ∀ target ∈ (before.chans ch).takers ++ (before.chans ch).putters,
        target.op = op → before.live target = false)
      (same : after.ops op = before.ops op) (posted : after.wakeups op = before.wakeups op)

theorem LinkFacts.waiter_linked (facts : LinkFacts state ch)
    (member : target ∈ (state.chans ch).takers ++ (state.chans ch).putters) :
    state.Linked target := by
  rcases List.mem_append.mp member with taker | putter
  · exact (facts.taker target taker).1
  · exact (facts.putter target putter).1

theorem closeBody_closesCall (core : Core state) (own : (state.closers closer).ch = ch)
    (stepped : step state (.closeBody closer) = some after) (op : OpId) :
    ClosesCall state after ch op := by
  obtain ⟨closing, same⟩ := closeBody_eq (show closeBody state closer = some after from stepped)
  rw [own] at same
  have coreAfter := (step_steps core stepped).core core
  have linked : ∀ target ∈ (state.chans ch).takers ++ (state.chans ch).putters,
      state.Linked target := fun target => (core.link ch).waiter_linked
  have ops := closeWaiters_ops core linked op
  have sameOps : after.ops op = (((state.chans ch).takers ++
      (state.chans ch).putters).foldl closeWaiter state).ops op := by
    rw [same]
    rfl
  rw [← sameOps] at ops
  cases found : state.firstLive ((state.chans ch).takers ++ (state.chans ch).putters) op with
  | none =>
    simp only [found] at ops
    apply ClosesCall.left
    · intro target member own
      have skipped := List.find?_eq_none.mp found target member
      simpa [own] using skipped
    · exact ops
    · rw [coreAfter.wakeups_eq, core.wakeups_eq, ops]
  | some target =>
    simp only [found] at ops
    have member := List.mem_of_find?_eq_some found
    have chosen := List.find?_some found
    simp only [Bool.and_eq_true, decide_eq_true_eq] at chosen
    obtain ⟨sameOp, live⟩ := chosen
    obtain ⟨targetOp, arm⟩ := target
    cases sameOp
    have unclaimed := (core.live_iff (linked _ member)).mp live
    apply ClosesCall.woken arm member live ops
    · simp [core.wakeups_eq, unclaimed.2]
    · rw [coreAfter.wakeups_eq, ops]
      simp [unclaimed.1, claimed_claim (linked _ member).2]
    · rw [State.outcome, ops, outcome_claim]
      simp only [Op.claim, update_self, Entry.received]
      cases ((state.ops targetOp).entries arm).resultSlot <;> simp

end Libgoc.Channel
