import Libgoc.Channel.Frames

namespace Libgoc.Channel

open Libgoc.Data

/-! # When puts take effect and waiters die -/

/-- The puts that took effect belong to calls that have parked or returned. -/
def Committed (state : State) : Prop :=
  ∀ ch, ∀ msg ∈ (state.chans ch).effects, (state.ops msg.source.op).stage.committed = true

variable {before after : State} {scope : Scope} {op : OpId} {call : Op}

theorem Committed.extend (committed : Committed before)
    (kept : ∀ op, (before.ops op).stage.committed = true →
      (after.ops op).stage.committed = true)
    (effects : ∀ ch, ∀ msg ∈ (after.chans ch).effects, msg ∈ (before.chans ch).effects ∨
      (after.ops msg.source.op).stage.committed = true) : Committed after := by
  intro ch msg member
  rcases effects ch msg member with earlier | now
  · exact kept _ (committed ch msg earlier)
  · exact now

theorem committed_update {ops : OpId → Op}
    (kept : (ops op).stage.committed = true → call.stage.committed = true) (other : OpId)
    (committed : (ops other).stage.committed = true) :
    (Function.update ops op call other).stage.committed = true := by
  by_cases same : other = op
  · subst same
    rw [Function.update_self]
    exact kept committed
  · rwa [Function.update_of_ne same]

theorem Committed.update (committed : Committed before)
    (ops : after.ops = Function.update before.ops op call)
    (kept : (before.ops op).stage.committed = true → call.stage.committed = true)
    (effects : ∀ ch, (after.chans ch).effects = (before.chans ch).effects) : Committed after :=
  committed.extend (fun other earlier => by rw [ops]; exact committed_update kept other earlier)
    (fun ch _ member => .inl (effects ch ▸ member))

theorem Committed.same (committed : Committed before) (ops : after.ops = before.ops)
    (effects : ∀ ch, (after.chans ch).effects = (before.chans ch).effects) : Committed after :=
  committed.extend (fun _ committed => by rwa [ops]) (fun ch _ member => .inl (effects ch ▸ member))

theorem Committed.prepared (committed : Committed before)
    (prepares : Prepares scope before after) : Committed after := by
  cases prepares with
  | enter op caller arms order select stage absent =>
    obtain ⟨ops, chans, -⟩ := enter_frame before op { caller, arms, order, select, stage }
    exact committed.update ops (by simp [absent, Stage.committed]) (fun ch => by rw [chans])
  | start target rest queue pending =>
    exact committed.update rfl (by simp [pending, Stage.committed]) (fun _ => rfl)
  | unlink ch takers putters dead =>
    refine committed.same rfl fun other => ?_
    by_cases same : other = ch
    · subst same
      simp [State.setChan]
    · simp [State.setChan, same]
  | closeWaiter closer target closing member live =>
    obtain ⟨chans, ops, -⟩ := claimWith_frame .claiming before target .closed
      (closedValue (before.entry target))
    exact committed.update ops (fun kept => kept) (fun ch => by rw [chans])

theorem Committed.changed (committed : Committed before) (core : Core before)
    (changes : Changes scope before after) : Committed after := by
  cases changes with
  | routine _ routine =>
    obtain ⟨chans, -⟩ := routine.frame
    cases routine.callStep core with
    | same ops => exact committed.same ops fun ch => by rw [chans]
    | unparked op call ops uncommitted =>
      exact committed.update ops (by simp [uncommitted]) fun ch => by rw [chans]
    | claimed op call ops _ _ now _ _ _ =>
      exact committed.update ops (fun _ => now) fun ch => by rw [chans]
  | control _ controls =>
    have kept := controls.undisturbed
    refine committed.same kept.ops fun ch => ?_
    obtain ⟨guard, hook, same⟩ := kept.chan ch
    rw [same]
  | takeBuffer op arm ch msg buffer calls inFlight =>
    refine committed.update (settle_frame _ _ _ _).1 (fun _ => rfl) fun other => ?_
    by_cases same : other = ch
    · subst same
      simp [State.setChan]
    · simp [State.setChan, same]
  | takePutter op arm ch waker putter dead rest calls inFlight spec inScope drained list =>
    have different := core.linked_ne inFlight ((core.link ch).putter putter (by simp [list])).1
    refine committed.extend ?_ fun other msg member => .inl ?_
    · intro other earlier
      rw [handOver_ops before different]
      refine committed_update (fun _ => rfl) other (committed_update ?_ other earlier)
      exact fun kept => kept
    · by_cases same : other = ch
      · subst same
        simpa [State.setChan] using member
      · simpa [State.setChan, same] using member
  | putBuffer op arm ch val buffer calls inFlight =>
    refine committed.extend ?_ fun other msg member => ?_
    · intro other earlier
      rw [(settle_frame _ _ _ _).1]
      exact committed_update (fun _ => rfl) other earlier
    · by_cases same : other = ch
      · subst same
        simp only [settle_chans, State.setChan, Function.update_self, List.mem_append,
          List.mem_singleton] at member
        rcases member with earlier | rfl
        · exact .inl earlier
        · refine .inr ?_
          rw [(settle_frame _ _ _ _).1]
          simp [Stage.committed]
      · exact .inl (by simpa [State.setChan, same] using member)
  | putTaker op arm ch val waker taker dead rest calls inFlight spec inScope opened list =>
    have different := core.linked_ne inFlight ((core.link ch).taker taker (by simp [list])).1
    refine committed.extend ?_ fun other msg member => ?_
    · intro other earlier
      rw [handOver_ops before different]
      refine committed_update (fun _ => rfl) other (committed_update ?_ other earlier)
      exact fun kept => kept
    · by_cases same : other = ch
      · subst same
        simp only [settle_chans, State.setChan, Function.update_self, List.mem_append,
          List.mem_singleton] at member
        rcases member with earlier | rfl
        · exact .inl earlier
        · refine .inr ?_
          rw [handOver_ops before different]
          simp [Stage.committed]
      · exact .inl (by simpa [State.setChan, same] using member)
  | park op entries inFlight blocked prepared fresh =>
    obtain ⟨⟨gen, ops⟩, chans, -⟩ := park_frame before op entries
    refine committed.extend ?_ fun ch msg member => ?_
    · intro other earlier
      rw [ops]
      exact committed_update (fun _ => rfl) other earlier
    · simp only [chans, linkedChan, List.mem_append] at member
      refine member.imp_right fun new => ?_
      have source := (mem_filterMap_putOf.mp new).1
      simp [ops, source, Stage.committed]
  | shut closer closing takersDead puttersDead =>
    refine committed.same rfl fun other => ?_
    by_cases same : other = (before.closers closer).ch
    · simp [setCloser, State.setChan, same]
    · simp [setCloser, State.setChan, same]

/-- No waiter on a list comes back to life. -/
def Wanes (before after : State) : Prop :=
  ∀ target, before.Linked target → after.live target = true → before.live target = true

theorem live_of_op (target : EntryId) (same : after.ops target.op = before.ops target.op) :
    after.live target = before.live target := by
  simp only [State.live, State.entry, same]

theorem Core.uncommitted_unlinked (core : Core before)
    (linked : before.Linked target) (uncommitted : (before.ops op).stage.committed = false) :
    target.op ≠ op := by
  rintro rfl
  have unclaimed := (core.call target.op).uncommitted_unclaimed uncommitted
  rcases linked.1 with waiting | claimed
  · simp [waiting, Stage.committed] at uncommitted
  · simp [unclaimed] at claimed

theorem Core.live_unparked (core : Core before)
    (ops : after.ops = Function.update before.ops op call)
    (uncommitted : (before.ops op).stage.committed = false)
    (linked : before.Linked target) : after.live target = before.live target := by
  have different := core.uncommitted_unlinked linked uncommitted
  exact live_of_op target (by rw [ops, Function.update_of_ne different])

theorem CallStep.wanes (step : CallStep before after) (core : Core before)
    (coreAfter : Core after) : Wanes before after := by
  intro target linked live
  cases step with
  | same ops => exact (live_of_op target (by rw [ops])).symm.trans live
  | unparked op call ops uncommitted => rwa [core.live_unparked ops uncommitted linked] at live
  | claimed op call ops claimed order _ _ _ _ =>
    by_cases same : target.op = op
    · have own : after.ops target.op = call := by rw [ops, same, Function.update_self]
      have still : after.Linked target := by
        refine ⟨.inr (own ▸ claimed), ?_⟩
        rw [own, order, ← same]
        exact linked.2
      have contrary := ((coreAfter.live_iff still).mp live).2
      simp [own, claimed] at contrary
    · exact (live_of_op target (by rw [ops, Function.update_of_ne same])).symm.trans live

theorem Core.wanes_handOver (core : Core before) (inFlight : (before.ops op).inFlight) :
    Wanes before (Channel.settle ((claimWith waker before target .ok value).setChan ch chan) op
      result calls) := by
  intro waiter linked live
  have different := core.linked_ne inFlight linked
  have claimed : (claimWith waker before target .ok value).live waiter = true := by
    refine (live_of_op waiter ?_).symm.trans live
    rw [(settle_frame _ _ _ _).1, Function.update_of_ne different]
    rfl
  exact (live_claimWith claimed).1

theorem Prepares.wanes (prepares : Prepares scope before after) (core : Core before) :
    Wanes before after := by
  intro target linked live
  cases prepares with
  | enter op caller arms order select stage absent =>
    obtain ⟨ops, -⟩ := enter_frame before op { caller, arms, order, select, stage }
    rwa [core.live_unparked ops (by simp [absent, Stage.committed]) linked] at live
  | start source rest queue pending =>
    rwa [core.live_unparked rfl (by simp [pending, Stage.committed]) linked] at live
  | unlink => exact live
  | closeWaiter => exact (live_claimWith live).1

end Libgoc.Channel
