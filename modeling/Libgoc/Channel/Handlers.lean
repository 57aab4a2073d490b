import Libgoc.Channel.Closing

namespace Libgoc.Channel

open Libgoc.Data Libgoc.Semantics Relation

/-! # Every handler runs once -/

variable {before after start state : State} {scope : Scope} {ch : ChanId} {hook : HookId}

/-- No handler of the channel is set or cleared before the channel is closed. -/
def NotReplaced (ch : ChanId) (state : State) (label : Label) : Prop :=
  ∀ hook null, label = .setOnClose hook ch null → (state.chans ch).closed = true

/-- A handler that has not been replaced. -/
inductive HookDue (state : State) (ch : ChanId) (hook : HookId) : Prop where
  | installed (installed : (state.chans ch).onClose = some hook)
  | calling (stage : (state.hooks hook).stage = .calling)
  | called (stage : (state.hooks hook).stage = .done) (runs : (state.hooks hook).runs = 1)

theorem HookDue.frame (due : HookDue before ch hook)
    (onClose : (after.chans ch).onClose = (before.chans ch).onClose)
    (hooks : after.hooks hook = before.hooks hook) : HookDue after ch hook := by
  cases due with
  | installed installed => exact .installed (onClose.trans installed)
  | calling stage => exact .calling (hooks ▸ stage)
  | called stage runs => exact .called (hooks ▸ stage) (hooks ▸ runs)

/-- The setters that start change other handlers than one that is due. -/
theorem HookDue.started (due : HookDue before ch hook) (facts : CloseFacts before) :
    (before.hooks hook).stage ≠ .absent := by
  cases due with
  | installed installed => simp [(facts.listed ch hook installed).2]
  | calling stage | called stage => simp [stage]

theorem setHook_other (state : State) (value : Hook) (different : hook ≠ other) :
    (setHook state other value).hooks hook = state.hooks hook := by
  simp [setHook, different]

theorem setChan_onClose (state : State)
    (kept : chan.onClose = (state.chans other).onClose) (ch : ChanId) :
    ((state.setChan other chan).chans ch).onClose = (state.chans ch).onClose := by
  by_cases same : ch = other
  · subst same
    rw [setChan_self, kept]
  · simp [State.setChan, same]

section

variable (due : HookDue before ch hook) (facts : CloseFacts before)
  (kept : scope.installs ch → (before.chans ch).closed = true)
include due facts kept

theorem HookDue.control (controls : Controls scope before after) : HookDue after ch hook := by
  have fresh : ∀ other, (before.hooks other).stage = .absent → hook ≠ other := by
    intro other absent same
    subst same
    exact due.started facts absent
  cases controls with
  | request closer other | claim closer =>
    apply due.frame
    · apply setChan_onClose before
      rfl
    · rfl
  | ignore | move | read => exact due.frame rfl rfl
  | call closer called stage =>
    by_cases same : hook = called
    · subst same
      have installed := ((facts.phase _).of_calling rfl stage).2.2.1
      have listed := facts.listed _ hook installed
      cases due with
      | installed here => exact .installed here
      | calling stage | called stage => cases listed.2.symm.trans stage
    · exact due.frame rfl (setHook_other before _ same)
  | install other place null absent opened inScope =>
    have elsewhere : ch ≠ place := by
      intro same
      subst same
      cases (kept inScope).symm.trans opened
    apply due.frame
    · simp [setHook, State.setChan, elsewhere]
    · exact setHook_other _ _ (fresh other absent)
  | late other place null absent =>
    exact due.frame rfl (setHook_other before _ (fresh other absent))
  | callLate other calling =>
    by_cases same : hook = other
    · subst same
      exact .called (by simp [setHook]) (by simp [setHook, facts.unrun hook (.inr calling)])
    · exact due.frame rfl (setHook_other before _ same)

theorem HookDue.changed (changes : Changes scope before after) : HookDue after ch hook := by
  cases changes.closing with
  | frame closers hooks chans => exact due.frame (chans ch).onClose (by rw [hooks])
  | control controls => exact due.control facts kept controls
  | shut closer chan claimed guard closed onClose runs shut =>
    subst shut
    exact due.frame (setChan_onClose before onClose ch) rfl

end

/-- The closing part of the state at the start of a step and after its
preparations. -/
theorem closing_along (path : ReflTransGen (Prepares scope) start before) :
    before.closers = start.closers ∧ before.hooks = start.hooks ∧
      ∀ ch, SameClosing (before.chans ch) (start.chans ch) := by
  induction path with
  | refl => exact ⟨rfl, rfl, fun ch => .refl _⟩
  | tail earlier prepares ih =>
    obtain ⟨closers, hooks, chans⟩ := prepares.closing
    obtain ⟨startClosers, startHooks, startChans⟩ := ih
    exact ⟨closers.trans startClosers, hooks.trans startHooks,
      fun ch => (chans ch).trans (startChans ch)⟩

theorem HookDue.stepped (due : HookDue state ch hook) (core : Core state)
    (facts : CloseFacts state) (kept : NotReplaced ch state label)
    (stepped : step state label = some after) : HookDue after ch hook ∧ CloseFacts after := by
  obtain ⟨middle, path, changes⟩ := step_steps core stepped
  obtain ⟨closers, hooks, chans⟩ := closing_along path
  have factsMiddle := facts.frame closers hooks chans
  have dueMiddle := due.frame (chans ch).onClose (by rw [hooks])
  refine ⟨dueMiddle.changed factsMiddle ?_ changes, factsMiddle.changed changes⟩
  intro installs
  obtain ⟨other, null, same⟩ := installs
  rw [(chans ch).closed]
  exact kept other null same

theorem HookDue.along (due : HookDue start ch hook) (core : Core start) (facts : CloseFacts start)
    (reached : system.Reaches (NotReplaced ch) start state) :
    HookDue state ch hook ∧ CloseFacts state := by
  have kept : Core state ∧ HookDue state ch hook ∧ CloseFacts state := by
    apply reached.invariant ⟨core, due, facts⟩
    intro before label after holds kept stepped
    obtain ⟨core, due, facts⟩ := holds
    exact ⟨(step_steps core stepped).core core, due.stepped core facts kept stepped⟩
  exact kept.2

/-- No call of the handler is outstanding. -/
def State.QuietHook (state : State) (ch : ChanId) (hook : HookId) : Prop :=
  (state.hooks hook).stage ≠ .calling ∧ ∀ closer, (state.closers closer).ch = ch →
    (state.closers closer).stage ≠ .unlocked ∧ (state.closers closer).stage ≠ .calling hook

theorem HookDue.runs_once (due : HookDue state ch hook) (facts : CloseFacts state)
    (closed : (state.chans ch).closed = true) (quiet : state.QuietHook ch hook) :
    (state.hooks hook).runs = 1 := by
  cases due with
  | installed installed =>
    cases facts.phase ch with
    | opened _ opened | claimed _ _ _ opened => cases opened.symm.trans closed
    | unlocked closer own =>
      have busy := (quiet.2 closer (by rw [own])).1
      rw [own] at busy
      exact absurd rfl busy
    | calling closer other own _ _ _ _ listed =>
      cases installed.symm.trans listed
      have busy := (quiet.2 closer (by rw [own])).2
      rw [own] at busy
      exact absurd rfl busy
    | finished _ _ _ _ handled => exact handled hook installed
  | calling stage => exact absurd stage quiet.1
  | called stage runs => exact runs

/-- A handler that has just been set is due. -/
theorem hookDue_set (stepped : step state (.setOnClose hook ch false) = some after) :
    HookDue after ch hook := by
  change chanSetOnClose state hook ch false = some after at stepped
  simp only [chanSetOnClose] at stepped
  split at stepped
  · split at stepped
    · cases stepped
      exact .calling (by simp [setHook])
    · cases stepped
      exact .installed (by simp [setHook, State.setChan])
  · cases stepped

theorem closeFinish_enabled (busy : (state.closers closer).stage = .unlocked ∨
      ∃ hook, (state.closers closer).stage = .calling hook) :
    (step state (.closeFinish closer)).isSome = true := by
  change (closeFinish state closer).isSome = true
  rcases busy with stage | ⟨hook, stage⟩ <;> simp [closeFinish, stage]

theorem callHook_enabled (calling : (state.hooks hook).stage = .calling) :
    (step state (.callHook hook)).isSome = true := by
  change (callHook state hook).isSome = true
  simp [callHook, calling]

end Libgoc.Channel
