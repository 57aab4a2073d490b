import Libgoc.Channel.Effects
import Libgoc.Channel.Outcomes

namespace Libgoc.Channel

open Libgoc.Data Libgoc.Semantics Relation

/-! # Calls of user callbacks -/

variable {before after middle state : State} {scope : Scope} {op : OpId}

inductive Calls (before after : State) : Prop where
  | silent (same : after.invocations = before.invocations)
  | direct (call : Invocation) (running : (before.ops call.entry.op).stage ≠ .done)
      (returned : (after.ops call.entry.op).stage = .done)
      (named : ∃ ch, call.ch = some ch ∧ after.registered call.entry = some ch)
      (calls : after.invocations = before.invocations ++ [call])
  | parked (call : Invocation) (waiting : (before.ops call.entry.op).stage = .waiting)
      (callback : (before.ops call.entry.op).caller = .callback)
      (returned : (after.ops call.entry.op).stage = .done)
      (calls : after.invocations = before.invocations ++ [call])

theorem settle_calls (invoked : Invoked op result calls) (inFlight : (before.ops op).inFlight)
    (own : middle.ops op = before.ops op) (same : middle.invocations = before.invocations)
    (named : ∀ arm, result.arm = some arm →
      ∃ ch, result.ch = some ch ∧ before.registered ⟨op, arm⟩ = some ch) :
    Calls before (settle middle op result calls) := by
  rcases invoked with rfl | ⟨arm, msg, found, rfl⟩
  · refine .silent ?_
    rw [settle, same, List.append_nil]
  · have ops := (settle_frame middle op result
      [{ entry := ⟨op, arm⟩, ch := result.ch, msg, ok := result.ok }]).1
    refine .direct { entry := ⟨op, arm⟩, ch := result.ch, msg, ok := result.ok } ?_ ?_ ?_ ?_
    · rcases inFlight with stage | ⟨rest, stage⟩ <;> simp [stage]
    · exact settle_stage _ _ _ _
    · obtain ⟨ch, same, registered⟩ := named arm found
      refine ⟨ch, same, ?_⟩
      simpa [State.registered, State.spec, ops, own] using registered
    · rw [settle, same]

theorem attempt_named (found : (before.ops op).arms[arm]? = some spec) (on : spec.chan = some ch)
    (attempt : Attempt) (index : Nat) (same : (attempt.result ch arm).arm = some index) :
    ∃ other, (attempt.result ch arm).ch = some other ∧
      before.registered ⟨op, index⟩ = some other := by
  have index : arm = index := by cases attempt <;> simpa [Attempt.result] using same
  subst index
  refine ⟨ch, by cases attempt <;> rfl, ?_⟩
  simp [State.registered, State.spec, found, on]

theorem refused_named (refused : Refused before op result) (arm : Nat)
    (same : result.arm = some arm) :
    ∃ ch, result.ch = some ch ∧ before.registered ⟨op, arm⟩ = some ch := by
  cases refused with
  | default => cases same
  | empty _ ch spec | closedTake _ ch spec | closedPut _ ch val spec =>
    exact attempt_named spec rfl _ _ same

theorem Routine.calls (routine : Routine before after) (core : Core before) :
    Calls before after := by
  cases routine with
  | refuse op result calls inFlight refused invoked =>
    exact settle_calls invoked inFlight rfl rfl (refused_named refused)
  | resume self op | syncResume op =>
    refine .silent ?_
    exact (continueCall_frame _ op).2.2.2
  | win op arm =>
    refine .silent ?_
    exact finish_invocations before op _
  | fire target rest queue waiting =>
    obtain ⟨due, -, -⟩ := core.due_callback queue
    simp only [Op.due, Bool.and_eq_true, beq_iff_eq] at due
    obtain ⟨calls, settled, invoked⟩ :=
      fireCallback_settles { before with cbQueue := rest } target
    rw [settled]
    rcases invoked with rfl | ⟨msg, rfl⟩
    · refine .silent ?_
      rw [settle, List.append_nil]
    · exact .parked _ waiting due.1 (settle_stage _ _ _ _) rfl
  | stay
  | submit
  | advance
  | suspend
  | post
  | noteWinner
  | cancelArm => exact .silent rfl

theorem Changes.calls (changes : Changes scope before after) (core : Core before) :
    Calls before after := by
  cases changes with
  | routine _ routine => exact routine.calls core
  | control _ controls => exact .silent controls.undisturbed.invocations
  | takeBuffer op arm ch msg buffer calls inFlight spec inScope popped invoked
  | putBuffer op arm ch val buffer calls inFlight spec inScope opened order pushed invoked =>
    exact settle_calls invoked inFlight rfl rfl (attempt_named spec rfl _)
  | takePutter op arm ch waker putter dead rest calls inFlight spec inScope drained list skipped
      live suspended invoked =>
      obtain ⟨-, ops, -, -, -, invocations⟩ := claimWith_frame waker before putter .ok none
      have linked := ((core.link ch).putter putter (by simp [list])).1
      refine settle_calls invoked inFlight ?_ invocations (attempt_named spec rfl _)
      simp [State.setChan, ops, (core.linked_ne inFlight linked).symm]
  | putTaker op arm ch val waker taker dead rest calls inFlight spec inScope opened list skipped
      live suspended invoked =>
      obtain ⟨-, ops, -, -, -, invocations⟩ :=
        claimWith_frame waker before taker .ok (some { source := ⟨op, arm⟩, val })
      have linked := ((core.link ch).taker taker (by simp [list])).1
      refine settle_calls invoked inFlight ?_ invocations (attempt_named spec rfl _)
      simp [State.setChan, ops, (core.linked_ne inFlight linked).symm]
  | park op entries => exact .silent (park_frame before op entries).2.2.2.2
  | shut => exact .silent rfl

theorem Prepares.silent (prepares : Prepares scope before after) :
    after.invocations = before.invocations := by
  cases prepares with
  | enter op caller arms order select stage =>
    exact (enter_frame before op { caller, arms, order, select, stage }).2.2.2.2
  | start | unlink => rfl
  | closeWaiter closer target => exact (claimWith_frame .claiming before target _ _).2.2.2.2.2

structure InvokedOnce (state : State) : Prop where
  distinct : (state.invocations.map fun call => call.entry.op).Nodup
  returned : ∀ call ∈ state.invocations, (state.ops call.entry.op).stage = .done

section

variable (once : InvokedOnce before)
  (kept : ∀ op, (before.ops op).stage = .done → after.ops op = before.ops op)
include once kept

theorem InvokedOnce.extend (running : (before.ops call.entry.op).stage ≠ .done)
    (returned : (after.ops call.entry.op).stage = .done)
    (calls : after.invocations = before.invocations ++ [call]) : InvokedOnce after where
  distinct := by
    rw [calls, List.map_append]
    refine once.distinct.append (by simp) fun op earlier now => running ?_
    obtain ⟨other, member, rfl⟩ := List.mem_map.mp earlier
    have same : other.entry.op = call.entry.op := by simpa using now
    exact same ▸ once.returned other member
  returned other member := by
    rw [calls, List.mem_append, List.mem_singleton] at member
    rcases member with earlier | rfl
    · rw [kept _ (once.returned other earlier)]
      exact once.returned other earlier
    · exact returned

theorem InvokedOnce.same (calls : after.invocations = before.invocations) : InvokedOnce after where
  distinct := calls ▸ once.distinct
  returned call member := by
    rw [calls] at member
    rw [kept _ (once.returned call member)]
    exact once.returned call member

end

theorem reachable_invokedOnce
    (reachable : system.ReachableWith allowed state) : InvokedOnce state := by
  refine channel_invariant reachable ?_ ?_ ?_
  · exact fun capacity => ⟨List.nodup_nil, by simp [initialState]⟩
  · intro start label before after _ core once prepares
    exact once.same (fun op returned => prepares.keeps_returned core returned) prepares.silent
  · intro start label before after _ _ _ core once changes
    have kept := fun op (returned : (before.ops op).stage = .done) =>
      changes.keeps_returned core returned
    cases changes.calls core with
    | silent same => exact once.same kept same
    | direct call running returned _ calls => exact once.extend kept running returned calls
    | parked call waiting _ returned calls =>
      exact once.extend kept (by simp [waiting]) returned calls

/-- Preparations that close nothing keep the waiters that can be claimed. -/
structure Serves (before after : State) (ch : ChanId) : Prop where
  buffer : (after.chans ch).buffer = (before.chans ch).buffer
  closed : (after.chans ch).closed = (before.chans ch).closed
  takers : after.Dead (after.chans ch).takers → before.Dead (before.chans ch).takers
  putters : after.Dead (after.chans ch).putters → before.Dead (before.chans ch).putters

theorem Core.serves_same (core : Core before) (chans : after.chans = before.chans)
    (kept : ∀ target, before.Linked target → after.live target = before.live target)
    (ch : ChanId) : Serves before after ch where
  buffer := by rw [chans]
  closed := by rw [chans]
  takers dead target member := by
    rw [← kept target ((core.link ch).taker target member).1]
    exact dead target (by rwa [chans])
  putters dead target member := by
    rw [← kept target ((core.link ch).putter target member).1]
    exact dead target (by rwa [chans])

theorem Prepares.serves (prepares : Prepares scope before after) (core : Core before)
    (opened : ¬scope.closes) (ch : ChanId) : Serves before after ch := by
  cases prepares with
  | enter op caller arms order select stage absent =>
    obtain ⟨ops, chans, -⟩ := enter_frame before op { caller, arms, order, select, stage }
    exact core.serves_same chans
      (fun _ => core.live_unparked ops (by simp [absent, Stage.committed])) ch
  | start target rest queue pending =>
    refine core.serves_same ?_ (fun waiter linked => ?_) ch
    · rfl
    · exact core.live_unparked rfl (by simp [pending, Stage.committed]) linked
  | unlink other takers putters dead takersLeft puttersLeft takersKept puttersKept =>
    by_cases same : ch = other
    · subst same
      refine ⟨by simp [State.setChan], by simp [State.setChan], ?_, ?_⟩
      all_goals
        intro dead target member
        by_contra live
        rw [setChan_self] at dead
      · exact live (dead target (takersKept target member (by simpa using live)))
      · exact live (dead target (puttersKept target member (by simpa using live)))
    · have chan : (before.setChan other { before.chans other with
          takers, putters, deadCount := dead }).chans ch = before.chans ch := by
        simp [State.setChan, same]
      refine ⟨by rw [chan], by rw [chan], ?_, ?_⟩ <;> rw [chan] <;> exact fun dead => dead
  | closeWaiter closer target closing member live inScope => exact absurd inScope opened

theorem Serves.stuck (serves : ∀ ch, Serves before after ch)
    (stuck : after.Stuck spec) : before.Stuck spec := by
  cases spec with
  | take ch =>
    obtain ⟨drained, dead, opened⟩ := stuck
    exact ⟨(serves ch).buffer ▸ drained, (serves ch).putters dead, (serves ch).closed ▸ opened⟩
  | put ch val =>
    obtain ⟨full, dead, opened⟩ := stuck
    exact ⟨(serves ch).buffer ▸ full, (serves ch).takers dead, (serves ch).closed ▸ opened⟩
  | default => trivial

theorem Core.stuck_along (core : Core before) (opened : ¬scope.closes)
    (path : ReflTransGen (Prepares scope) before middle) (stuck : middle.Stuck spec) :
    before.Stuck spec := by
  induction path with
  | refl => exact stuck
  | tail earlier prepares ih =>
    exact ih (Serves.stuck (prepares.serves (core.along earlier) opened) stuck)

/-- The operation that the loop thread takes up does not have to wait. -/
def ResolvesAtOnce (state : State) : Label → Prop
  | .drain => ∀ spec ∈ Label.drain.arms state, ¬state.Stuck spec
  | _ => True

instance (state : State) (label : Label) : Decidable (ResolvesAtOnce state label) :=
  match label with
  | .drain => inferInstanceAs (Decidable (∀ spec ∈ _, _))
  | .take .. | .put .. | .takeSync .. | .putSync .. | .takeTry .. | .takeCb .. | .putCb .. |
    .alts .. | .altsTry .. | .altsPark .. | .altsCancel .. | .suspend .. | .post .. | .resume .. |
    .syncResume .. | .close .. | .closeDispatch .. | .closeClaim .. | .closeBody .. |
    .closeFinish .. | .setOnClose .. | .callHook .. => inferInstanceAs (Decidable True)

def Op.awaiting (call : Op) : Prop :=
  call.caller = .callback ∧ call.stage = .waiting

/-- No operation has parked, and every callback got its channel. -/
structure InvokedOnChannel (state : State) : Prop where
  resolved : ∀ op, ¬(state.ops op).awaiting
  named : ∀ call ∈ state.invocations, (state.ops call.entry.op).stage = .done ∧
    ∃ ch, call.ch = some ch ∧ state.registered call.entry = some ch

theorem Prepares.resolved (prepares : Prepares scope before after)
    (resolved : ∀ op, ¬(before.ops op).awaiting) (op : OpId) : ¬(after.ops op).awaiting := by
  cases prepares with
  | enter other caller arms order select stage absent idle started single distinct notCallback =>
    rw [(enter_frame before other { caller, arms, order, select, stage }).1]
    exact forall_update (¬·.awaiting) resolved (fun awaiting => notCallback awaiting.1) other op
  | start target rest queue pending =>
    exact forall_update (¬·.awaiting) resolved (by simp [Op.awaiting]) target.op op
  | unlink => exact resolved op
  | closeWaiter closer target =>
    rw [(claimWith_frame .claiming before target .closed _).2.1]
    refine forall_update (¬·.awaiting) resolved ?_ target.op op
    exact resolved target.op

theorem Changes.resolved (changes : Changes scope before after) (core : Core before)
    (resolved : ∀ op, ¬(before.ops op).awaiting)
    (served : ∀ op, (before.ops op).caller = .callback → (before.ops op).inFlight →
      Blocked before op → ∃ spec ∈ (before.ops op).arms, ¬scope.pending spec)
    (op : OpId) : ¬(after.ops op).awaiting := by
  have settled : ∀ (call : Op) result,
      ¬({ call with stage := .done, result := some result } : Op).awaiting := by
    simp [Op.awaiting]
  cases changes with
  | routine _ routine =>
    cases routine.callStep core with
    | same ops => rw [ops]; exact resolved op
    | unparked other call ops _ _ unparked | claimed other call ops _ _ _ _ unparked _ =>
      rw [ops]
      exact forall_update (¬·.awaiting) resolved (fun awaiting => unparked awaiting.2) other op
  | control _ controls => rw [controls.undisturbed.ops]; exact resolved op
  | takeBuffer other | putBuffer other =>
    rw [(settle_frame _ _ _ _).1]
    exact forall_update (¬·.awaiting) resolved (settled _ _) other op
  | takePutter other arm ch waker putter dead rest calls inFlight spec inScope drained list =>
    have linked := ((core.link ch).putter putter (by simp [list])).1
    refine forall_handOver (¬·.awaiting) (core.linked_ne inFlight linked) resolved ?_
      (settled _ _) op
    exact resolved putter.op
  | putTaker other arm ch val waker taker dead rest calls inFlight spec inScope opened list =>
    have linked := ((core.link ch).taker taker (by simp [list])).1
    refine forall_handOver (¬·.awaiting) (core.linked_ne inFlight linked) resolved ?_
      (settled _ _) op
    exact resolved taker.op
  | park other entries inFlight blocked prepared fresh inScope =>
    obtain ⟨⟨gen, ops⟩, -⟩ := park_frame before other entries
    rw [ops]
    refine forall_update (¬·.awaiting) resolved (fun awaiting => ?_) other op
    obtain ⟨spec, member, notPending⟩ := served other awaiting.1 inFlight blocked
    exact notPending (inScope awaiting.1 spec member)
  | shut => exact resolved op

theorem InvokedOnChannel.named_kept (invoked : InvokedOnChannel before)
    (kept : ∀ op, (before.ops op).stage = .done → after.ops op = before.ops op)
    (call : Invocation) (member : call ∈ before.invocations) :
    (after.ops call.entry.op).stage = .done ∧
      ∃ ch, call.ch = some ch ∧ after.registered call.entry = some ch := by
  obtain ⟨returned, named⟩ := invoked.named call member
  simp only [State.registered, State.spec] at named ⊢
  rw [kept _ returned]
  exact ⟨returned, named⟩

theorem reachable_invokedOnChannel (reachable : system.ReachableWith ResolvesAtOnce state) :
    InvokedOnChannel state := by
  refine channel_invariant reachable ?_ ?_ ?_
  · exact fun capacity => ⟨by simp [initialState, Op.awaiting], by simp [initialState]⟩
  · intro start label before after _ core invoked prepares
    refine ⟨prepares.resolved invoked.resolved, fun call member => ?_⟩
    rw [prepares.silent] at member
    exact invoked.named_kept (fun op returned => prepares.keeps_returned core returned) call member
  · intro start label before after permitted coreStart path core invoked changes
    have kept := fun op (returned : (before.ops op).stage = .done) =>
      changes.keeps_returned core returned
    refine ⟨changes.resolved core invoked.resolved ?_, fun call member => ?_⟩
    · intro op callback inFlight blocked
      have facts := core.call op
      have order := facts.single (by rcases inFlight with stage | ⟨rest, stage⟩ <;> simp [stage])
        (facts.plain callback)
      have entry := facts.entries (.inr (.inr callback)) 0 (by simp [order])
      have found : ∃ spec, (before.ops op).arms[0]? = some spec := by
        rcases entry.spec with ⟨ch, found, -⟩ | ⟨ch, val, found, -⟩ <;> exact ⟨_, found⟩
      obtain ⟨spec, found⟩ := found
      refine ⟨spec, List.mem_of_getElem? found, ?_⟩
      rintro ⟨rfl, member⟩
      have stuck := blocked 0 (by simp [order]) spec found
      have opened : ¬(Label.drain.scope start).closes := by simp [Label.scope]
      exact permitted spec member (coreStart.stuck_along opened path stuck)
    · cases changes.calls core with
      | silent same =>
        rw [same] at member
        exact invoked.named_kept kept call member
      | direct called running returned named calls =>
        rw [calls, List.mem_append, List.mem_singleton] at member
        rcases member with earlier | rfl
        · exact invoked.named_kept kept call earlier
        · exact ⟨returned, named⟩
      | parked called waiting callback =>
        exact absurd ⟨callback, waiting⟩ (invoked.resolved called.entry.op)

theorem callback_called_once_with_its_channel
    (reachable : system.ReachableWith ResolvesAtOnce state) :
    (state.invocations.map fun call => call.entry.op).Nodup ∧
      ∀ call ∈ state.invocations, ∃ ch, call.ch = some ch ∧ state.registered call.entry = some ch :=
  ⟨(reachable_invokedOnce reachable).distinct,
    fun call member => ((reachable_invokedOnChannel reachable).named call member).2⟩

def resolvedRun : List Label :=
  [.putCb 0 3 5 true, .takeCb 1 3, .drain, .drain]

theorem resolvedRun_callbacks_called :
    ∃ state, system.runWith ResolvesAtOnce (initialState fun _ => 1) resolvedRun = some state ∧
      state.invocations.length = 2 ∧
      ∀ call ∈ state.invocations, ∃ ch, call.ch = some ch ∧ state.registered call.entry = some ch :=
  ⟨_, rfl, rfl, (callback_called_once_with_its_channel
    (.of_run system ResolvesAtOnce resolvedRun ⟨fun _ => 1, rfl⟩ rfl)).2⟩

def parkedCallbackRun : List Label :=
  [.takeCb 0 3, .drain, .putSync 1 3 5, .drain]

/-- The callback of a take that had to park gets no channel. -/
theorem parked_callback_called_without_channel :
    ∃ state, system.Reachable state ∧ state.registered ⟨0, 0⟩ = some 3 ∧ state.invocations =
        [{ entry := ⟨0, 0⟩, ch := none, msg := some { source := ⟨1, 0⟩, val := 5 }, ok := .ok }] :=
  ⟨_, .of_run system parkedCallbackRun ⟨fun _ => 1, rfl⟩ rfl, rfl, rfl⟩

end Libgoc.Channel
