import Libgoc.Channel.Answers
import Libgoc.Channel.Handlers
import Libgoc.Channel.Refinement
import Libgoc.Channel.Wakeups

namespace Libgoc.Channel

open Libgoc.Data Libgoc.Semantics Relation

/-! # Closing a channel -/

variable {before after start state : State} {scope : Scope} {op : OpId} {arm : Nat} {ch : ChanId}
  {spec : Arm} {label : Label}

/-- A closed channel accepts nothing and hands out its values in order. -/
structure Drains (before after : Chan) : Prop where
  closed : after.closed = true
  effects : after.effects = before.effects
  order : after.deliveries.map Delivery.msg ++ after.buffer.contents =
    before.deliveries.map Delivery.msg ++ before.buffer.contents

theorem Drains.trans (first : Drains left middle)
    (second : Drains middle right) : Drains left right :=
  ⟨second.closed, second.effects.trans first.effects, second.order.trans first.order⟩

theorem drains_setChan (closed : (state.chans ch).closed = true)
    (own : ch = other → Drains (state.chans ch) chan) :
    Drains (state.chans ch) ((state.setChan other chan).chans ch) := by
  by_cases same : ch = other
  · have drained := own same
    subst same
    rw [setChan_self]
    exact drained
  · simp only [State.setChan, Function.update_of_ne same]
    exact ⟨closed, rfl, rfl⟩

theorem Prepares.values (prepares : Prepares scope before after) (ch : ChanId) :
    (after.chans ch).buffer = (before.chans ch).buffer ∧
      (after.chans ch).effects = (before.chans ch).effects ∧
      (after.chans ch).deliveries = (before.chans ch).deliveries ∧
      (after.chans ch).closed = (before.chans ch).closed := by
  cases prepares with
  | enter op caller arms order select stage =>
    rw [(enter_frame before op { caller, arms, order, select, stage }).2.1]
    exact ⟨rfl, rfl, rfl, rfl⟩
  | start => exact ⟨rfl, rfl, rfl, rfl⟩
  | unlink other takers putters dead =>
    by_cases same : ch = other
    · subst same
      rw [setChan_self]
      exact ⟨rfl, rfl, rfl, rfl⟩
    · simp [State.setChan, same]
  | closeWaiter => simp

theorem Changes.drains (changes : Changes scope before after) (core : Core before)
    (closed : (before.chans ch).closed = true) :
    Drains (before.chans ch) (after.chans ch) := by
  obtain ⟨noTakers, noPutters⟩ := (core.link ch).closed closed
  cases changes with
  | routine _ routine =>
    rw [routine.frame.1]
    exact ⟨closed, rfl, rfl⟩
  | control _ controls =>
    obtain ⟨guard, hook, same⟩ := controls.undisturbed.chan ch
    rw [same]
    exact ⟨closed, rfl, rfl⟩
  | takeBuffer op arm other msg buffer calls inFlight spec inScope popped =>
    rw [settle_chans]
    apply drains_setChan closed
    intro same
    subst same
    exact ⟨closed, rfl, by simp [(RingBuffer.contents_pop popped).1]⟩
  | putBuffer op arm other val buffer calls inFlight spec inScope opened =>
    rw [settle_chans]
    apply drains_setChan closed
    intro same
    subst same
    cases opened.symm.trans closed
  | takePutter op arm other waker putter dead rest calls inFlight spec inScope drained list =>
    rw [settle_chans]
    simp only [State.setChan, claimWith_chans]
    apply drains_setChan closed
    intro same
    subst same
    simp [noPutters] at list
  | putTaker op arm other val waker taker dead rest calls inFlight spec inScope opened =>
    rw [settle_chans]
    simp only [State.setChan, claimWith_chans]
    apply drains_setChan closed
    intro same
    subst same
    cases opened.symm.trans closed
  | park op entries inFlight blocked =>
    rw [(park_frame before op entries).2.1]
    have none : before.newPutters op ch = [] := by
      by_contra some
      obtain ⟨val, stuck⟩ := blocked.putters_stuck some
      cases stuck.2.2.symm.trans closed
    rw [State.newPutters, List.map_eq_nil_iff] at none
    exact ⟨closed, by simp [linkedChan, none], rfl⟩
  | shut closer claimed =>
    apply drains_setChan closed
    intro same
    subst same
    exact ⟨rfl, rfl, rfl⟩

theorem Prepares.drains (prepares : Prepares scope before after)
    (closed : (before.chans ch).closed = true) : Drains (before.chans ch) (after.chans ch) := by
  obtain ⟨buffer, effects, deliveries, same⟩ := prepares.values ch
  exact ⟨same.trans closed, effects, by rw [buffer, deliveries]⟩

theorem drains_prepared (path : ReflTransGen (Prepares scope) start before)
    (closed : (start.chans ch).closed = true) :
    Drains (start.chans ch) (before.chans ch) ∧
      (before.chans ch).buffer = (start.chans ch).buffer := by
  induction path with
  | refl => exact ⟨⟨closed, rfl, rfl⟩, rfl⟩
  | tail _ prepares ih =>
    exact ⟨ih.1.trans (prepares.drains ih.1.closed), (prepares.values ch).1.trans ih.2⟩

theorem Core.drains_step (core : Core state) (closed : (state.chans ch).closed = true)
    (stepped : step state label = some after) : Drains (state.chans ch) (after.chans ch) := by
  obtain ⟨middle, path, changes⟩ := step_steps core stepped
  have prepared := (drains_prepared path closed).1
  exact prepared.trans (changes.drains (core.along path) prepared.closed)

theorem Core.drains_run (core : Core start)
    (closed : (start.chans ch).closed = true) (reached : system.Reaches allowed start state) :
    Drains (start.chans ch) (state.chans ch) := by
  have kept : Core state ∧ Drains (start.chans ch) (state.chans ch) := by
    apply reached.invariant ⟨core, ⟨closed, rfl, rfl⟩⟩
    intro before label after holds _ stepped
    exact ⟨(step_steps holds.1 stepped).core holds.1,
      holds.2.trans (holds.1.drains_step holds.2.closed stepped)⟩
  exact kept.2

/-- Whatever a call that has not parked gets from a closed channel is its
answer. -/
theorem Core.closed_results (core : Core state) (closed : (state.chans ch).closed = true)
    (stepped : step state label = some after) (uncommitted : (state.ops op).stage.committed = false)
    (returned : (after.ops op).result = some result) (own : result.arm = some arm)
    (found : after.spec ⟨op, arm⟩ = some spec) (on : spec.chan = some ch) :
    result = ((state.chans ch).answer spec).result ch arm := by
  obtain ⟨middle, path, changes⟩ := step_steps core stepped
  obtain ⟨drained, buffer⟩ := drains_prepared path closed
  have coreMiddle := core.along path
  have stillUncommitted : (middle.ops op).stage.committed = false := by
    clear changes drained buffer coreMiddle
    induction path with
    | refl => exact uncommitted
    | tail _ prepares ih => exact prepares.uncommitted ih
  obtain ⟨answered, arms⟩ := changes.answered coreMiddle stillUncommitted returned
  rw [State.spec, arms] at found
  have answer : (middle.chans ch).answer spec = (state.chans ch).answer spec := by
    cases spec <;> simp [Chan.answer, buffer]
  rw [← answer]
  exact answered.closed (coreMiddle.link ch) drained.closed found on own

theorem Core.extends_run (core : Core start)
    (reached : system.Reaches allowed start state) : start.Extends state := by
  have kept : Core state ∧ start.Extends state := by
    apply reached.invariant ⟨core, fun _ _ decided => ⟨decided, rfl⟩⟩
    intro before label after holds _ stepped
    have steps := step_steps holds.1 stepped
    exact ⟨steps.core holds.1, holds.2.trans (steps.extends holds.1)⟩
  exact kept.2

/-- What holds of the close of a channel in a state and in whatever follows. -/
structure CloseContract (state : State) (ch : ChanId) : Prop where
  once : (state.chans ch).closeRuns = if (state.chans ch).closed then 1 else 0
  /-- The body wakes every waiter that can be claimed, and its report stays. -/
  wakes : ∀ closer after, (state.closers closer).ch = ch →
    step state (.closeBody closer) = some after →
      (∀ op, ClosesCall state after ch op) ∧
        ∀ later, system.Reaches (fun _ _ => True) after later → after.Extends later
  unlinked : (state.chans ch).closed = true →
    (state.chans ch).takers = [] ∧ (state.chans ch).putters = []
  hookOnce : ∀ hook, (state.hooks hook).runs ≤ 1
  /-- A handler that is not replaced before the channel is closed has run once
  as soon as the channel is closed and nobody is about to call it. -/
  hookRuns : ∀ hook after later, step state (.setOnClose hook ch false) = some after →
    system.Reaches (NotReplaced ch) after later → (later.chans ch).closed = true →
      later.QuietHook ch hook → (later.hooks hook).runs = 1
  /-- Whoever is about to call a handler can do so. -/
  hookCalled : (∀ closer, (state.closers closer).stage = .unlocked ∨
      (∃ hook, (state.closers closer).stage = .calling hook) →
        (step state (.closeFinish closer)).isSome = true) ∧
    ∀ hook, (state.hooks hook).stage = .calling → (step state (.callHook hook)).isSome = true
  /-- A call that reaches a closed channel returns at once. -/
  answered : (state.chans ch).closed = true → ∀ label op arm spec,
    Asks state label op arm spec → spec.chan = some ch → ∃ after, step state label = some after ∧
      after.Returned op (((state.chans ch).answer spec).result ch arm)
  /-- No call that has not parked gets anything else from it. -/
  results : (state.chans ch).closed = true → ∀ label after op arm spec (result : Result),
    step state label = some after → (state.ops op).stage.committed = false →
      (after.ops op).result = some result → result.arm = some arm →
        after.spec ⟨op, arm⟩ = some spec → spec.chan = some ch →
          result = ((state.chans ch).answer spec).result ch arm
  drains : (state.chans ch).closed = true → ∀ later,
    system.Reaches (fun _ _ => True) state later → Drains (state.chans ch) (later.chans ch)

theorem CloseFacts.runs_eq (facts : CloseFacts state) (ch : ChanId) :
    (state.chans ch).closeRuns = if (state.chans ch).closed then 1 else 0 := by
  cases facts.phase ch with
  | opened _ closed runs | claimed _ _ _ closed runs | unlocked _ _ _ closed runs
  | calling _ _ _ _ closed runs | finished _ closed runs => simp [closed, runs]

theorem close_takes_effect_once (reachable : system.Reachable state) (ch : ChanId) :
    CloseContract state ch := by
  have core := reachable_core reachable
  have facts := reachable_closeFacts reachable
  constructor
  case once => exact facts.runs_eq ch
  case wakes =>
    intro closer after own stepped
    have coreAfter := (step_steps core stepped).core core
    exact ⟨closeBody_closesCall core own stepped, fun later => coreAfter.extends_run⟩
  case unlinked => exact (core.link ch).closed
  case hookOnce => exact facts.once
  case hookRuns =>
    intro hook after later stepped reached closed quiet
    have next : system.Reachable after :=
      reachable.after_step
        (show system.step state (.setOnClose hook ch false) = some after from stepped)
    obtain ⟨due, factsLater⟩ :=
      (hookDue_set stepped).along (reachable_core next) (reachable_closeFacts next) reached
    exact due.runs_once factsLater closed quiet
  case hookCalled =>
    exact ⟨fun closer => closeFinish_enabled, fun hook => callHook_enabled⟩
  case answered =>
    intro closed label op arm spec asks on
    exact asks.answered core closed on
  case results =>
    intro closed label after op arm spec result stepped uncommitted returned own found on
    exact core.closed_results closed stepped uncommitted returned own found on
  case drains =>
    intro closed later reached
    exact core.drains_run closed reached

/-- A value is left in channel 0 and a fiber waits on channel 1 when both are
closed; the handler of channel 1 is set before and another one after. -/
def closingRun : List Label :=
  [.putSync 0 0 5, .take 1 0 1, .suspend 0, .setOnClose 0 1 false,
    .close 0 0 true, .close 1 1 true, .close 2 1 true, .closeClaim 0, .closeClaim 1,
    .closeBody 0, .closeFinish 0, .closeBody 1, .closeFinish 1, .closeFinish 1, .setOnClose 1 1 false,
    .callHook 1, .takeSync 2 0, .takeSync 3 0]

theorem closingRun_takes_effect_once :
    ∃ state, system.run (initialState fun ch => 1 - ch) closingRun = some state ∧
      (state.chans 1).closeRuns = 1 ∧ state.wakeups 1 = 1 ∧ (state.hooks 0).runs = 1 ∧
      (state.hooks 1).runs = 1 ∧
      (state.chans 0).deliveries.map (fun delivery => delivery.msg.val) = [5] ∧
      ∀ ch, CloseContract state ch :=
  ⟨_, rfl, rfl, rfl, rfl, rfl, rfl,
    close_takes_effect_once (.of_run system closingRun ⟨fun ch => 1 - ch, rfl⟩ rfl)⟩

end Libgoc.Channel
