import Libgoc.Channel.Steps

namespace Libgoc.Channel

open Libgoc.Data Libgoc.Semantics Relation

/-! # What the steps of the system can do -/

variable {state after : State} {scope : Scope} {op : OpId} {ch : ChanId}

theorem altsCancel_steps (core : Core state) (ran : altsCancel state op = some after) :
    Steps scope state after := by
  have facts := core.call op
  simp only [altsCancel] at ran
  split at ran
  · rename_i arm rest winner stage
    split at ran
    · rename_i woken
      cases ran
      exact Routine.steps (.noteWinner op arm rest winner stage woken)
    · rename_i unwoken
      cases ran
      exact Routine.steps (.cancelArm op arm rest winner stage (by simpa using unwoken))
  · rename_i arm stage
    cases ran
    obtain ⟨winner, same, woken⟩ := facts.winner_found stage
    cases same
    exact Routine.steps (.win op arm stage woken)
  · rename_i stage
    obtain ⟨winner, contrary, -⟩ := facts.winner_found stage
    cases contrary
  · cases ran

theorem suspend_steps (ran : suspend state self = some after) : Steps scope state after := by
  obtain ⟨odd, rfl⟩ := guarded ran
  exact Routine.steps (.suspend self odd)

/-- A claimed fiber is never found in a later park. -/
theorem postFiber_steps (core : Core state) (ran : postFiber state self want = some after) :
    Steps scope state after := by
  simp only [postFiber] at ran
  split at ran
  · rename_i member
    obtain ⟨-, -, -, -, -, parked, -, -⟩ := core.posted_fiber member
    have four : want = 4 := core.wants _ member
    split at ran
    · rename_i suspended
      cases ran
      exact Routine.steps (.post self want member suspended)
    · split at ran
      · rename_i stale
        omega
      · cases ran
  · cases ran

theorem resume_steps (ran : resume state self = some after) : Steps scope state after := by
  simp only [resume] at ran
  split at ran
  · rename_i member
    split at ran
    · cases ran
    · rename_i op busy
      obtain ⟨waiting, rfl⟩ := guarded ran
      exact Routine.steps (.resume self op member busy waiting)
  · cases ran

theorem syncResume_steps (ran : syncResume state op = some after) : Steps scope state after := by
  obtain ⟨ready, rfl⟩ := guarded ran
  exact Routine.steps (.syncResume op ready.1 ready.2.1 ready.2.2)

theorem gocClose_steps (ran : gocClose state closer ch onLoop = some after) :
    Steps scope state after := by
  simp only [gocClose] at ran
  split at ran
  · rename_i absent
    split at ran
    · rename_i opened
      cases ran
      refine Controls.steps (.request closer ch _ absent opened ?_)
      cases onLoop
      · exact .inr rfl
      · exact .inl rfl
    · cases ran
      exact Controls.steps (.ignore closer ch absent)
  · cases ran

theorem onCloseDispatch_steps (ran : onCloseDispatch state closer = some after) :
    Steps scope state after := by
  obtain ⟨dispatched, rfl⟩ := guarded ran
  refine Controls.steps (.move closer _ (.inl dispatched) ?_)
  split
  · exact .inr (.inr rfl)
  · exact .inl rfl

theorem closeClaim_steps (ran : closeClaim state closer = some after) :
    Steps scope state after := by
  simp only [closeClaim] at ran
  split at ran
  · rename_i stage guard
    cases ran
    exact Controls.steps (.claim closer (.inl stage) (by simp [guard]))
  · rename_i stage guard
    cases ran
    exact Controls.steps (.move closer _ (.inr (.inl stage)) (.inr (.inl rfl)))
  · rename_i stage guard
    cases ran
    exact Controls.steps (.claim closer (.inr stage) (by simp [guard]))
  · rename_i stage _ _
    cases ran
    exact Controls.steps (.move closer _ (.inr (.inl stage)) (.inr (.inr rfl)))
  · rename_i stage guard
    cases ran
    exact Controls.steps (.move closer _ (.inr (.inr stage)) (.inr (.inr rfl)))
  · cases ran

theorem closeFinish_steps (ran : closeFinish state closer = some after) :
    Steps scope state after := by
  simp only [closeFinish] at ran
  split at ran
  · rename_i unlocked
    cases ran
    exact Controls.steps (.read closer unlocked)
  · rename_i hook calling
    cases ran
    exact Controls.steps (.call closer hook calling)
  · cases ran

theorem chanSetOnClose_steps (inScope : scope.installs ch)
    (ran : chanSetOnClose state hook ch null = some after) : Steps scope state after := by
  simp only [chanSetOnClose] at ran
  split at ran
  · rename_i absent
    split at ran
    · rename_i closed
      cases ran
      exact Controls.steps (.late hook ch null absent closed)
    · rename_i opened
      cases ran
      exact Controls.steps (.install hook ch null absent (by simpa using opened) inScope)
  · cases ran

theorem callHook_steps (ran : callHook state hook = some after) : Steps scope state after := by
  obtain ⟨calling, rfl⟩ := guarded ran
  exact Controls.steps (.callLate hook calling)

/-- The loop over the waiters does not look at the channels. -/
theorem closeWaiter_setChan (state : State) (ch : ChanId) (chan : Chan) (target : EntryId) :
    closeWaiter (state.setChan ch chan) target = (closeWaiter state target).setChan ch chan := by
  have claim : tryClaimWake (state.setChan ch chan) target =
      ((tryClaimWake state target).1.setChan ch chan, (tryClaimWake state target).2) := by
    cases fired : ((state.ops target.op).entries target.arm).sharesFired &&
        (state.ops target.op).fired <;>
      cases woken : ((state.ops target.op).entries target.arm).woken <;>
      simp [tryClaimWake, State.setChan, State.setOp, fired, woken]
  have entry : (state.setChan ch chan).entry target = state.entry target := rfl
  simp only [closeWaiter, claim, entry]
  split
  · rfl
  · rcases tryClaimWake state target with ⟨next, won⟩
    cases won
    · rfl
    · have entry : (next.setChan ch chan).entry target = next.entry target := rfl
      simp only [entry]
      cases (next.entry target).kind with
      | fiber self => rfl
      | sync => rfl
      | callback =>
        have calls : ∀ value, ((next.setChan ch chan).setEntry target value).ops =
            (next.setEntry target value).ops := fun _ => rfl
        simp only [calls]
        split <;> rfl

theorem closeWaiters_setChan (state : State) (ch : ChanId) (chan : Chan) (targets : List EntryId) :
    targets.foldl closeWaiter (state.setChan ch chan) =
      (targets.foldl closeWaiter state).setChan ch chan := by
  induction targets generalizing state with
  | nil => rfl
  | cons target rest ih => rw [List.foldl_cons, List.foldl_cons, closeWaiter_setChan, ih]

theorem closeWaiter_dead (core : Core state) (linked : state.Linked target)
    (dead : state.live target = false) : closeWaiter state target = state := by
  simp only [closeWaiter]
  split
  · rfl
  · rename_i kept
    rw [tryClaimWake_dead core linked dead (by simpa using kept)]

theorem closeWaiter_live (core : Core state) (linked : state.Linked target)
    (live : state.live target = true) :
    closeWaiter state target =
      claimWith .claiming state target .closed (closedValue (state.entry target)) := by
  have unclaimed := (core.live_iff linked).mp live
  have facts := core.call target.op
  have entry := facts.entries (.inl unclaimed.1) target.arm linked.2
  have kept : (state.entry target).cancelled = false := by
    simp only [State.live, Bool.and_eq_true, Bool.not_eq_true'] at live
    exact live.1.1
  simp only [closeWaiter, kept, tryClaimWake_live live]
  simp only [State.entry] at kept
  cases kind : (state.entry target).kind with
  | fiber self =>
    simp only [State.entry] at kind
    simp [claimWith, kind, kept, State.setEntry, State.setOp, State.entry, Op.claim, closedValue,
      Entry.want]
  | sync =>
    simp only [State.entry] at kind
    simp [claimWith, kind, kept, State.setEntry, State.setOp, State.entry, Op.claim, closedValue,
      syncPost]
  | callback =>
    simp only [State.entry] at kind
    have caller : (state.ops target.op).caller = .callback :=
      Caller.kind_injective (entry.kind.symm.trans kind)
    have alone : ((state.ops target.op).entries target.arm).sharesFired = false := by
      rw [entry.shares, facts.plain caller]
    simp [claimWith, kind, kept, State.setEntry, State.setOp, State.entry, Op.claim, closedValue,
      postCallback, alone]

/-- The loop over the waiters of a closing channel claims all that can be. -/
structure Drained (scope : Scope) (state after : State) (targets : List EntryId) : Prop where
  path : ReflTransGen (Prepares scope) state after
  chans : after.chans = state.chans
  closers : after.closers = state.closers
  live : ∀ target, after.live target = true → state.live target = true ∧ target ∉ targets

theorem Drained.trans
    (left : Drained scope state middle first) (right : Drained scope middle after second) :
    Drained scope state after (first ++ second) where
  path := left.path.trans right.path
  chans := right.chans.trans left.chans
  closers := right.closers.trans left.closers
  live target alive := by
    obtain ⟨before, notSecond⟩ := right.live target alive
    obtain ⟨start, notFirst⟩ := left.live target before
    exact ⟨start, by simp [notFirst, notSecond]⟩

section

variable (inScope : scope.closes) (core : Core state) (closer : CloserId)
  (closing : (state.closers closer).stage = .claimed)
include inScope core closer closing

theorem closeWaiter_drained (member : target ∈ (state.chans (state.closers closer).ch).takers ∨
      target ∈ (state.chans (state.closers closer).ch).putters) :
    Drained scope state (closeWaiter state target) [target] := by
  have linked : state.Linked target := by
    rcases member with taker | putter
    · exact ((core.link _).taker target taker).1
    · exact ((core.link _).putter target putter).1
  cases live : state.live target with
  | true =>
    rw [closeWaiter_live core linked live]
    obtain ⟨chans, -, -, closers, -, -⟩ := claimWith_frame .claiming state target .closed
      (closedValue (state.entry target))
    refine ⟨.single (.closeWaiter closer target closing member live inScope), chans, closers, ?_⟩
    intro waiter alive
    obtain ⟨before, different⟩ := live_claimWith alive
    exact ⟨before, by simpa using different⟩
  | false =>
    rw [closeWaiter_dead core linked live]
    refine ⟨.refl, rfl, rfl, fun waiter alive => ⟨alive, ?_⟩⟩
    rintro member
    cases List.mem_singleton.mp member
    simp [live] at alive

theorem closeWaiters_drained
    (members : ∀ target ∈ targets, target ∈ (state.chans (state.closers closer).ch).takers ∨
      target ∈ (state.chans (state.closers closer).ch).putters) :
    Drained scope state (targets.foldl closeWaiter state) targets := by
  induction targets generalizing state with
  | nil => exact ⟨.refl, rfl, rfl, fun _ alive => ⟨alive, by simp⟩⟩
  | cons target rest ih =>
    obtain ⟨member, others⟩ := List.forall_mem_cons.mp members
    have first := closeWaiter_drained inScope core closer closing member
    have later := ih (core.along first.path) (by rwa [first.closers])
      (by rwa [first.closers, first.chans])
    exact first.trans later

end

theorem setChan_self (state : State) (ch : ChanId) (chan : Chan) :
    (state.setChan ch chan).chans ch = chan := by
  simp [State.setChan]

theorem setChan_setChan (state : State) (ch : ChanId) (first second : Chan) :
    (state.setChan ch first).setChan ch second = state.setChan ch second := by
  simp [State.setChan]

/-- The cleanup at the end of close makes no difference to the lists. -/
theorem cleared_eq (state : State) (ch : ChanId) (found : Bool) :
    (if found then compactDeadEntries state ch else state).setChan ch
        { (if found then compactDeadEntries state ch else state).chans ch with
          takers := [], putters := [], deadCount := 0 } =
      state.setChan ch { state.chans ch with takers := [], putters := [], deadCount := 0 } := by
  cases found
  · rfl
  · simp only [if_true, compactDeadEntries, setChan_setChan, setChan_self]

/-- The body claims the waiters in the order of the lists and then clears
both. -/
theorem closeBody_eq (ran : closeBody state closer = some after) :
    (state.closers closer).stage = .claimed ∧
      after = setCloser ((((state.chans (state.closers closer).ch).takers ++
            (state.chans (state.closers closer).ch).putters).foldl closeWaiter state).setChan
          (state.closers closer).ch
          { state.chans (state.closers closer).ch with
            closed := true, takers := [], putters := [], deadCount := 0
            closeRuns := (state.chans (state.closers closer).ch).closeRuns + 1 }) closer
        { ch := (state.closers closer).ch, stage := .unlocked } := by
  simp only [closeBody] at ran
  split at ran
  · rename_i closing
    rw [cleared_eq, setChan_self, ← List.foldl_append, closeWaiters_setChan, setChan_setChan,
      setChan_self] at ran
    exact ⟨closing, (Option.some.inj ran).symm⟩
  · cases ran

theorem closeBody_steps (inScope : scope.closes) (core : Core state)
    (ran : closeBody state closer = some after) : Steps scope state after := by
  obtain ⟨closing, same⟩ := closeBody_eq ran
  have drained := closeWaiters_drained inScope core closer closing
    (fun target : EntryId => List.mem_append.mp)
  refine ⟨_, drained.path, ?_⟩
  have shut : Changes scope (((state.chans (state.closers closer).ch).takers ++
      (state.chans (state.closers closer).ch).putters).foldl closeWaiter state) _ :=
    .shut closer (by rw [drained.closers]; exact closing) ?_ ?_
  · rw [drained.closers, drained.chans] at shut
    rw [same]
    exact shut
  all_goals
    rw [drained.closers, drained.chans]
    intro target member
    by_contra alive
    have gone := (drained.live target (by simpa using alive)).2
    simp [member] at gone

theorem step_steps (core : Core state) (stepped : step state label = some after) :
    Steps (label.scope state) state after := by
  cases label with
  | take op self ch => exact gocTake_steps core (by simp [Label.scope, Label.arms]) stepped
  | put op self ch val => exact gocPut_steps core ⟨val, by simp [Label.arms]⟩ stepped
  | takeSync op ch => exact gocTakeSync_steps core (by simp [Label.scope, Label.arms]) stepped
  | putSync op ch val => exact gocPutSync_steps core ⟨val, by simp [Label.arms]⟩ stepped
  | takeTry op ch => exact gocTakeTry_steps core (by simp [Label.scope, Label.arms]) stepped
  | takeCb op ch => exact gocTakeCb_steps stepped
  | putCb op ch val hasCb => exact gocPutCb_steps stepped
  | drain =>
    refine drainCbQueue_steps core ?_ ?_ stepped
    · intro target rest queue pending ch arms
      simp [Label.scope, Label.arms, queue, pending, arms]
    · intro target rest queue pending ch val arms
      simp [Label.scope, Label.arms, queue, pending, arms]
  | alts op caller arms order =>
    exact altsBegin_steps ⟨op, caller, arms, order, rfl⟩ stepped
  | altsTry op =>
    refine altsTryImmediate_steps core ?_ ?_ stepped
    · intro arm rest ch stage spec
      simp [Label.scope, Label.arms, stage, spec]
    · intro arm rest ch val stage spec
      have member : Arm.put ch val ∈ (Label.altsTry op).arms state := by
        simp [Label.arms, stage, spec]
      exact ⟨⟨val, member⟩, op, val, rfl, member⟩
  | altsPark op =>
    refine altsPark_steps core ?_ ?_ stepped
    · intro stage ch member
      simpa [Label.scope, Label.arms, stage] using member
    · intro stage ch val member
      exact ⟨val, by simpa [Label.arms, stage] using member⟩
  | altsCancel op => exact altsCancel_steps core stepped
  | suspend self => exact suspend_steps stepped
  | post self want => exact postFiber_steps core stepped
  | resume self => exact resume_steps stepped
  | syncResume op => exact syncResume_steps stepped
  | close closer ch onLoop => exact gocClose_steps stepped
  | closeDispatch closer => exact onCloseDispatch_steps stepped
  | closeClaim closer => exact closeClaim_steps stepped
  | closeBody closer => exact closeBody_steps ⟨closer, rfl⟩ core stepped
  | closeFinish closer => exact closeFinish_steps stepped
  | setOnClose hook ch null => exact chanSetOnClose_steps ⟨hook, null, rfl⟩ stepped
  | callHook hook => exact callHook_steps stepped

theorem reachable_core (reachable : system.Reachable state) : Core state := by
  refine reachable.invariant ?_ ?_
  · rintro _ ⟨capacity, rfl⟩
    exact core_initial capacity
  · intro before label after core stepped
    exact (step_steps core stepped).core core

/-- An invariant of the channels may use the waiter protocol, and is proved for
preparations and changes one at a time. -/
theorem channel_invariant {property : State → Prop} (reachable : system.ReachableWith allowed state)
    (initially : ∀ capacity, property (initialState capacity))
    (prepared : ∀ start label before after, allowed start label → Core before →
      property before → Prepares (label.scope start) before after → property after)
    (changed : ∀ start label before after, allowed start label → Core start →
      ReflTransGen (Prepares (label.scope start)) start before → Core before → property before →
      Changes (label.scope start) before after → property after) : property state := by
  let both : State → Prop := fun state => Core state ∧ property state
  have holds : both state := by
    refine reachable.invariant ?_ ?_
    · rintro _ ⟨capacity, rfl⟩
      exact ⟨core_initial capacity, initially capacity⟩
    · rintro before label after ⟨core, holds⟩ permitted stepped
      obtain ⟨middle, path, changes⟩ := step_steps core stepped
      have moved : both middle := by
        clear changes
        induction path with
        | refl => exact ⟨core, holds⟩
        | tail _ prepares ih =>
          exact ⟨ih.1.prepared prepares, prepared _ _ _ _ permitted ih.1 ih.2 prepares⟩
      exact ⟨moved.1.changed changes,
        changed before label middle after permitted core path moved.1 moved.2 changes⟩
  exact holds.2

end Libgoc.Channel
