import Libgoc.Channel.Frames

namespace Libgoc.Channel

open Libgoc.Data Libgoc.Semantics Relation Function

/-! # Closers and handlers -/

def Closer.owns (closer : Closer) (ch : ChanId) : Prop :=
  closer.ch = ch ∧ (closer.stage = .claimed ∨ closer.stage = .unlocked ∨
    ∃ hook, closer.stage = .calling hook)

variable {before after state : State} {scope : Scope} {ch : ChanId}

/-- The handler of the channel has been called this often. -/
def State.handled (state : State) (ch : ChanId) (runs : Nat) : Prop :=
  ∀ hook, (state.chans ch).onClose = some hook → (state.hooks hook).runs = runs

/-- Where the close of a channel stands. -/
inductive ClosePhase (state : State) (ch : ChanId) : Prop where
  | opened (guard : (state.chans ch).closeGuard ≠ .closing)
      (closed : (state.chans ch).closed = false) (runs : (state.chans ch).closeRuns = 0)
      (free : ∀ closer, ¬(state.closers closer).owns ch) (handled : state.handled ch 0)
  | claimed (closer : CloserId) (own : state.closers closer = { ch, stage := .claimed })
      (guard : (state.chans ch).closeGuard = .closing)
      (closed : (state.chans ch).closed = false) (runs : (state.chans ch).closeRuns = 0)
      (alone : ∀ other, (state.closers other).owns ch → other = closer)
      (handled : state.handled ch 0)
  | unlocked (closer : CloserId) (own : state.closers closer = { ch, stage := .unlocked })
      (guard : (state.chans ch).closeGuard = .closing)
      (closed : (state.chans ch).closed = true) (runs : (state.chans ch).closeRuns = 1)
      (alone : ∀ other, (state.closers other).owns ch → other = closer)
      (handled : state.handled ch 0)
  | calling (closer : CloserId) (hook : HookId)
      (own : state.closers closer = { ch, stage := .calling hook })
      (guard : (state.chans ch).closeGuard = .closing)
      (closed : (state.chans ch).closed = true) (runs : (state.chans ch).closeRuns = 1)
      (alone : ∀ other, (state.closers other).owns ch → other = closer)
      (installed : (state.chans ch).onClose = some hook) (handled : state.handled ch 0)
  | finished (guard : (state.chans ch).closeGuard = .closing)
      (closed : (state.chans ch).closed = true) (runs : (state.chans ch).closeRuns = 1)
      (free : ∀ closer, ¬(state.closers closer).owns ch) (handled : state.handled ch 1)

structure CloseFacts (state : State) : Prop where
  phase : ∀ ch, ClosePhase state ch
  listed : ∀ ch hook, (state.chans ch).onClose = some hook →
    (state.hooks hook).ch = ch ∧ (state.hooks hook).stage = .installed
  unrun : ∀ hook, (state.hooks hook).stage = .absent ∨ (state.hooks hook).stage = .calling →
    (state.hooks hook).runs = 0
  once : ∀ hook, (state.hooks hook).runs ≤ 1

theorem closeFacts_initial (capacity : ChanId → Nat) : CloseFacts (initialState capacity) where
  phase ch := .opened (by simp [initialState]) rfl rfl (by simp [initialState, Closer.owns])
    (by simp [State.handled, initialState])
  listed := by simp [initialState]
  unrun := by simp [initialState]
  once := by simp [initialState]

/-- The part of a channel that belongs to its close. -/
structure SameClosing (left right : Chan) : Prop where
  guard : left.closeGuard = right.closeGuard
  closed : left.closed = right.closed
  onClose : left.onClose = right.onClose
  runs : left.closeRuns = right.closeRuns

theorem SameClosing.refl (chan : Chan) : SameClosing chan chan :=
  ⟨rfl, rfl, rfl, rfl⟩

theorem SameClosing.trans (first : SameClosing left middle)
    (second : SameClosing middle right) : SameClosing left right :=
  ⟨first.guard.trans second.guard, first.closed.trans second.closed,
    first.onClose.trans second.onClose, first.runs.trans second.runs⟩

theorem ClosePhase.transport (phase : ClosePhase before ch)
    (chan : SameClosing (after.chans ch) (before.chans ch))
    (closers : ∀ closer, (before.closers closer).owns ch ∨ (after.closers closer).owns ch →
      after.closers closer = before.closers closer)
    (hooks : ∀ hook, (before.chans ch).onClose = some hook →
      (after.hooks hook).runs = (before.hooks hook).runs) : ClosePhase after ch := by
  have owners : ∀ closer, (after.closers closer).owns ch → (before.closers closer).owns ch := by
    intro closer owner
    rw [← closers closer (.inr owner)]
    exact owner
  have same : ∀ closer stage, before.closers closer = { ch, stage } →
      (before.closers closer).owns ch → after.closers closer = { ch, stage } := by
    intro closer stage own owner
    rw [closers closer (.inl owner), own]
  have handled : ∀ runs, before.handled ch runs → after.handled ch runs := by
    intro runs handled hook installed
    rw [chan.onClose] at installed
    rw [hooks hook installed]
    exact handled hook installed
  cases phase with
  | opened guard closed runs free counted =>
    exact .opened (chan.guard ▸ guard) (chan.closed ▸ closed) (chan.runs ▸ runs)
      (fun closer owner => free closer (owners closer owner)) (handled 0 counted)
  | claimed closer own guard closed runs alone counted =>
    exact .claimed closer (same closer _ own (by simp [own, Closer.owns])) (chan.guard ▸ guard)
      (chan.closed ▸ closed) (chan.runs ▸ runs)
      (fun other owner => alone other (owners other owner)) (handled 0 counted)
  | unlocked closer own guard closed runs alone counted =>
    exact .unlocked closer (same closer _ own (by simp [own, Closer.owns])) (chan.guard ▸ guard)
      (chan.closed ▸ closed) (chan.runs ▸ runs)
      (fun other owner => alone other (owners other owner)) (handled 0 counted)
  | calling closer hook own guard closed runs alone installed counted =>
    exact .calling closer hook (same closer _ own (by simp [own, Closer.owns]))
      (chan.guard ▸ guard) (chan.closed ▸ closed) (chan.runs ▸ runs)
      (fun other owner => alone other (owners other owner)) (chan.onClose ▸ installed)
      (handled 0 counted)
  | finished guard closed runs free counted =>
    exact .finished (chan.guard ▸ guard) (chan.closed ▸ closed) (chan.runs ▸ runs)
      (fun closer owner => free closer (owners closer owner)) (handled 1 counted)

theorem CloseFacts.frame (facts : CloseFacts before) (closers : after.closers = before.closers)
    (hooks : after.hooks = before.hooks)
    (chans : ∀ ch, SameClosing (after.chans ch) (before.chans ch)) : CloseFacts after where
  phase ch := (facts.phase ch).transport (chans ch) (fun _ _ => by rw [closers])
    (fun _ _ => by rw [hooks])
  listed ch hook installed := by
    rw [(chans ch).onClose] at installed
    rw [hooks]
    exact facts.listed ch hook installed
  unrun := hooks ▸ facts.unrun
  once := hooks ▸ facts.once

theorem sameClosing_setChan (state : State)
    (same : SameClosing chan (state.chans ch)) (other : ChanId) :
    SameClosing ((state.setChan ch chan).chans other) (state.chans other) := by
  by_cases equal : other = ch
  · subst equal
    rw [setChan_self]
    exact same
  · simp only [State.setChan, update_of_ne equal]
    exact .refl _

theorem Prepares.closing (prepares : Prepares scope before after) :
    after.closers = before.closers ∧ after.hooks = before.hooks ∧
      ∀ ch, SameClosing (after.chans ch) (before.chans ch) := by
  cases prepares with
  | enter op caller arms order select stage =>
    obtain ⟨-, chans, closers, hooks, -⟩ :=
      enter_frame before op { caller, arms, order, select, stage }
    exact ⟨closers, hooks, fun ch => chans ▸ .refl _⟩
  | start => exact ⟨rfl, rfl, fun ch => .refl _⟩
  | unlink other takers putters dead =>
    exact ⟨rfl, rfl, sameClosing_setChan before ⟨rfl, rfl, rfl, rfl⟩⟩
  | closeWaiter closer target =>
    obtain ⟨chans, -, -, closers, hooks, -⟩ := claimWith_frame .claiming before target .closed
      (closedValue (before.entry target))
    exact ⟨closers, hooks, fun ch => chans ▸ .refl _⟩

theorem closers_update (closers : after.closers = update before.closers closer value)
    (was : ¬(before.closers closer).owns ch) (now : ¬value.owns ch) (other : CloserId)
    (owner : (before.closers other).owns ch ∨ (after.closers other).owns ch) :
    after.closers other = before.closers other := by
  by_cases same : other = closer
  · subst same
    rw [closers, update_self] at owner
    exact absurd owner (not_or.mpr ⟨was, now⟩)
  · rw [closers, update_of_ne same]

theorem not_owns_of_stage {closer : Closer} (claimed : closer.stage ≠ .claimed)
    (unlocked : closer.stage ≠ .unlocked) (calling : ∀ hook, closer.stage ≠ .calling hook) :
    ¬closer.owns ch := by
  rintro ⟨-, stage | stage | ⟨hook, stage⟩⟩
  · exact claimed stage
  · exact unlocked stage
  · exact calling hook stage

theorem not_owns_of_ch {closer : Closer} (different : closer.ch ≠ ch) : ¬closer.owns ch :=
  fun owner => different owner.1

theorem ClosePhase.of_owner (phase : ClosePhase state ch) (owner : (state.closers closer).owns ch) :
    (state.chans ch).closeGuard = .closing ∧
      (∀ other, (state.closers other).owns ch → other = closer) := by
  cases phase with
  | opened _ _ _ free | finished _ _ _ free => exact absurd owner (free closer)
  | claimed _ _ guard _ _ alone | unlocked _ _ guard _ _ alone
  | calling _ _ _ guard _ _ alone =>
    exact ⟨guard, fun other owns => (alone other owns).trans (alone closer owner).symm⟩

section

variable (phase : ClosePhase state ch) (own : (state.closers closer).ch = ch)
include phase own

theorem ClosePhase.of_claimed (stage : (state.closers closer).stage = .claimed) :
    (state.chans ch).closed = false ∧ (state.chans ch).closeRuns = 0 ∧ state.handled ch 0 := by
  have owner : (state.closers closer).owns ch := ⟨own, .inl stage⟩
  cases phase with
  | opened _ _ _ free | finished _ _ _ free => exact absurd owner (free closer)
  | claimed _ _ _ closed runs _ handled => exact ⟨closed, runs, handled⟩
  | unlocked other same _ _ _ alone | calling other _ same _ _ _ alone =>
    simp [alone closer owner, same] at stage

theorem ClosePhase.of_unlocked (stage : (state.closers closer).stage = .unlocked) :
    (state.chans ch).closed = true ∧ (state.chans ch).closeRuns = 1 ∧ state.handled ch 0 := by
  have owner : (state.closers closer).owns ch := ⟨own, .inr (.inl stage)⟩
  cases phase with
  | opened _ _ _ free | finished _ _ _ free => exact absurd owner (free closer)
  | unlocked _ _ _ closed runs _ handled => exact ⟨closed, runs, handled⟩
  | claimed other same _ _ _ alone | calling other _ same _ _ _ alone =>
    simp [alone closer owner, same] at stage

theorem ClosePhase.of_calling (stage : (state.closers closer).stage = .calling hook) :
    (state.chans ch).closed = true ∧ (state.chans ch).closeRuns = 1 ∧
      (state.chans ch).onClose = some hook ∧ (state.hooks hook).runs = 0 := by
  have owner : (state.closers closer).owns ch := ⟨own, .inr (.inr ⟨hook, stage⟩)⟩
  cases phase with
  | opened _ _ _ free | finished _ _ _ free => exact absurd owner (free closer)
  | claimed other same _ _ _ alone | unlocked other same _ _ _ alone =>
    simp [alone closer owner, same] at stage
  | calling other called same _ closed runs alone installed handled =>
    rw [alone closer owner, same] at stage
    cases stage
    exact ⟨closed, runs, installed, handled hook installed⟩

end

/-- A closer that is not past the guard moves on without getting past it. -/
theorem CloseFacts.pass (facts : CloseFacts before)
    (was : ∀ ch, ¬(before.closers closer).owns ch) (now : ∀ ch, ¬value.owns ch) :
    CloseFacts (setCloser before closer value) where
  phase ch := by
    apply (facts.phase ch).transport
    · exact .refl _
    · exact closers_update rfl (was ch) (now ch)
    · exact fun _ _ => rfl
  listed := facts.listed
  unrun := facts.unrun
  once := facts.once

/-- A closer moves on, with its channel and at most the handler of its channel. -/
theorem CloseFacts.advance (facts : CloseFacts before)
    (closers : after.closers = update before.closers closer { ch, stage })
    (was : ∀ other, other ≠ ch → ¬(before.closers closer).owns other) (own : ClosePhase after ch)
    (others : ∀ other, other ≠ ch → SameClosing (after.chans other) (before.chans other))
    (onClose : (after.chans ch).onClose = (before.chans ch).onClose)
    (hooks : ∀ hook, (after.hooks hook).ch = (before.hooks hook).ch ∧
      (after.hooks hook).stage = (before.hooks hook).stage)
    (runs : ∀ hook, (after.hooks hook).runs = (before.hooks hook).runs ∨
      (before.chans ch).onClose = some hook ∧ (after.hooks hook).runs = 1) :
    CloseFacts after where
  phase other := by
    by_cases same : other = ch
    · subst same
      exact own
    · apply (facts.phase other).transport (others other same)
      · exact closers_update closers (was other same) (not_owns_of_ch (Ne.symm same))
      · intro hook installed
        rcases runs hook with kept | ⟨called, -⟩
        · exact kept
        · have here := (facts.listed ch hook called).1
          have there := (facts.listed other hook installed).1
          exact absurd (there.symm.trans here) same
  listed other hook installed := by
    have earlier : (before.chans other).onClose = some hook := by
      by_cases same : other = ch
      · subst same
        rwa [onClose] at installed
      · rwa [(others other same).onClose] at installed
    rw [(hooks hook).1, (hooks hook).2]
    exact facts.listed other hook earlier
  unrun hook stage := by
    rw [(hooks hook).2] at stage
    rcases runs hook with kept | ⟨called, -⟩
    · rw [kept]
      exact facts.unrun hook stage
    · simp [(facts.listed ch hook called).2] at stage
  once hook := by
    rcases runs hook with kept | ⟨-, one⟩
    · rw [kept]
      exact facts.once hook
    · omega

theorem setChan_other (state : State) (chan : Chan) (different : other ≠ ch) :
    SameClosing ((state.setChan ch chan).chans other) (state.chans other) := by
  simp only [State.setChan, update_of_ne different]
  exact .refl _

/-- The closers that own the channel after one of them has moved on. -/
theorem owns_update {value : Closer}
    (alone : ∀ other, (closers other).owns ch → other = closer) (other : CloserId)
    (owner : (update closers closer value other).owns ch) : other = closer := by
  by_contra different
  rw [update_of_ne different] at owner
  exact different (alone other owner)

theorem free_update {value : Closer}
    (alone : ∀ other, (closers other).owns ch → other = closer) (now : ¬value.owns ch)
    (other : CloserId) : ¬(update closers closer value other).owns ch := by
  intro owner
  have same := owns_update alone other owner
  subst same
  rw [update_self] at owner
  exact now owner

section Closers

variable {closer : CloserId} (facts : CloseFacts before)
include facts

theorem CloseFacts.request {stage : CloserStage} (absent : (before.closers closer).stage = .absent)
    (opened : (before.chans ch).closeGuard = .opened)
    (next : stage = .internal ∨ stage = .dispatched) :
    CloseFacts (setCloser (before.setChan ch { before.chans ch with closeGuard := .requested })
      closer { ch, stage }) := by
  have passive : ∀ other, ¬(before.closers closer).owns other := fun other =>
    not_owns_of_stage (by simp [absent]) (by simp [absent]) (by simp [absent])
  have now : ¬({ ch, stage } : Closer).owns ch := by
    rcases next with rfl | rfl <;> simp [Closer.owns]
  apply facts.advance
  · rfl
  · exact fun other _ => passive other
  · cases facts.phase ch with
    | opened guard closed runs free handled =>
      apply ClosePhase.opened
      · simp [setCloser, State.setChan]
      · simpa [setCloser, State.setChan] using closed
      · simpa [setCloser, State.setChan] using runs
      · exact free_update (fun other owner => absurd owner (free other)) now
      · simpa [State.handled, setCloser, State.setChan] using handled
    | claimed _ _ guard | unlocked _ _ guard | calling _ _ _ guard | finished guard =>
      cases guard.symm.trans opened
  · exact fun other different => setChan_other before _ different
  · simp [setCloser, State.setChan]
  · exact fun _ => ⟨rfl, rfl⟩
  · exact fun _ => .inl rfl

section

variable (own : (before.closers closer).ch = ch)
include own

theorem CloseFacts.claim (free : (before.chans ch).closeGuard ≠ .closing) :
    CloseFacts (setCloser (before.setChan ch { before.chans ch with closeGuard := .closing })
      closer { ch, stage := .claimed }) := by
  apply facts.advance
  · rfl
  · exact fun other different => not_owns_of_ch (own ▸ Ne.symm different)
  · cases facts.phase ch with
    | opened guard closed runs free handled =>
      apply ClosePhase.claimed closer
      · simp [setCloser]
      · simp [setCloser, State.setChan]
      · simpa [setCloser, State.setChan] using closed
      · simpa [setCloser, State.setChan] using runs
      · exact owns_update fun other owner => absurd owner (free other)
      · simpa [State.handled, setCloser, State.setChan] using handled
    | claimed _ _ guard | unlocked _ _ guard | calling _ _ _ guard | finished guard =>
      exact absurd guard free
  · exact fun other different => setChan_other before _ different
  · simp [setCloser, State.setChan]
  · exact fun _ => ⟨rfl, rfl⟩
  · exact fun _ => .inl rfl

theorem CloseFacts.shut (stage : (before.closers closer).stage = .claimed)
    (guard : chan.closeGuard = (before.chans ch).closeGuard) (closed : chan.closed = true)
    (onClose : chan.onClose = (before.chans ch).onClose)
    (runs : chan.closeRuns = (before.chans ch).closeRuns + 1) :
    CloseFacts (setCloser (before.setChan ch chan) closer { ch, stage := .unlocked }) := by
  have owner : (before.closers closer).owns ch := ⟨own, .inl stage⟩
  obtain ⟨closing, alone⟩ := (facts.phase ch).of_owner owner
  obtain ⟨-, none, handled⟩ := (facts.phase ch).of_claimed own stage
  apply facts.advance
  · rfl
  · exact fun other different => not_owns_of_ch (own ▸ Ne.symm different)
  · apply ClosePhase.unlocked closer
    · simp [setCloser]
    · simp [setCloser, State.setChan, guard, closing]
    · simp [setCloser, State.setChan, closed]
    · simp [setCloser, State.setChan, runs, none]
    · exact owns_update alone
    · simpa [State.handled, setCloser, State.setChan, onClose] using handled
  · exact fun other different => setChan_other before _ different
  · simp [setCloser, State.setChan, onClose]
  · exact fun _ => ⟨rfl, rfl⟩
  · exact fun _ => .inl rfl

theorem CloseFacts.read (stage : (before.closers closer).stage = .unlocked) :
    CloseFacts (setCloser before closer { ch, stage := match (before.chans ch).onClose with
      | some hook => .calling hook
      | none => .done }) := by
  have owner : (before.closers closer).owns ch := ⟨own, .inr (.inl stage)⟩
  obtain ⟨closing, alone⟩ := (facts.phase ch).of_owner owner
  obtain ⟨closed, runs, handled⟩ := (facts.phase ch).of_unlocked own stage
  apply facts.advance
  · rfl
  · exact fun other different => not_owns_of_ch (own ▸ Ne.symm different)
  · cases installed : (before.chans ch).onClose with
    | none =>
      apply ClosePhase.finished
      · exact closing
      · exact closed
      · exact runs
      · exact free_update alone (by simp [Closer.owns])
      · simp [State.handled, setCloser, installed]
    | some hook =>
      exact .calling closer hook (by simp [setCloser]) closing closed runs (owns_update alone)
        installed handled
  · exact fun other _ => .refl _
  · rfl
  · exact fun _ => ⟨rfl, rfl⟩
  · exact fun _ => .inl rfl

theorem CloseFacts.call (stage : (before.closers closer).stage = .calling hook) :
    CloseFacts (setCloser (setHook before hook
      { before.hooks hook with runs := (before.hooks hook).runs + 1 }) closer
      { ch, stage := .done }) := by
  have owner : (before.closers closer).owns ch := ⟨own, .inr (.inr ⟨hook, stage⟩)⟩
  obtain ⟨closing, alone⟩ := (facts.phase ch).of_owner owner
  obtain ⟨closed, runs, installed, unrun⟩ := (facts.phase ch).of_calling own stage
  apply facts.advance
  · rfl
  · exact fun other different => not_owns_of_ch (own ▸ Ne.symm different)
  · apply ClosePhase.finished
    · exact closing
    · exact closed
    · exact runs
    · exact free_update alone (by simp [Closer.owns])
    · intro other found
      cases installed.symm.trans found
      simp [setCloser, setHook, unrun]
  · exact fun other _ => .refl _
  · rfl
  · intro other
    by_cases same : other = hook
    · subst same
      simp [setCloser, setHook]
    · simp [setCloser, setHook, same]
  · intro other
    by_cases same : other = hook
    · subst same
      exact .inr ⟨installed, by simp [setCloser, setHook, unrun]⟩
    · exact .inl (by simp [setCloser, setHook, same])

end

end Closers

section Handlers

variable {hook : HookId} (facts : CloseFacts before)
include facts

theorem CloseFacts.setHook (unlisted : (before.hooks hook).stage ≠ .installed)
    (unrun : value.stage = .absent ∨ value.stage = .calling → value.runs = 0)
    (once : value.runs ≤ 1) : CloseFacts (setHook before hook value) where
  phase ch := by
    apply (facts.phase ch).transport
    · exact .refl _
    · exact fun _ _ => rfl
    · intro other installed
      have different : other ≠ hook := by
        rintro rfl
        exact unlisted (facts.listed ch other installed).2
      simp [Channel.setHook, different]
  listed ch other installed := by
    have listed := facts.listed ch other installed
    have different : other ≠ hook := by
      rintro rfl
      exact unlisted listed.2
    simpa [Channel.setHook, different] using listed
  unrun other stage := by
    by_cases same : other = hook
    · subst same
      simp only [Channel.setHook, update_self] at stage ⊢
      exact unrun stage
    · simp only [Channel.setHook, update_of_ne same] at stage ⊢
      exact facts.unrun other stage
  once other := by
    by_cases same : other = hook
    · subst same
      simpa [Channel.setHook] using once
    · simpa [Channel.setHook, same] using facts.once other

theorem CloseFacts.install {null : Bool} (absent : (before.hooks hook).stage = .absent)
    (opened : (before.chans ch).closed = false) :
    CloseFacts (Channel.setHook (before.setChan ch { before.chans ch with
      onClose := if null then none else some hook }) hook
      { ch, stage := if null then .done else .installed }) := by
  have unlisted : ∀ other installed, (before.chans other).onClose = some installed →
      installed ≠ hook := by
    rintro other _ installed rfl
    cases absent.symm.trans (facts.listed other _ installed).2
  have handled : (Channel.setHook (before.setChan ch { before.chans ch with
      onClose := if null then none else some hook }) hook
      { ch, stage := if null then .done else .installed }).handled ch 0 := by
    intro installed found
    cases null with
    | true => simp [Channel.setHook, State.setChan] at found
    | false =>
      simp only [Channel.setHook, State.setChan, update_self] at found
      cases found
      simp [Channel.setHook]
  constructor
  · intro other
    by_cases same : other = ch
    · subst same
      cases facts.phase other with
      | opened guard closed runs free =>
        exact .opened (by simpa [Channel.setHook, State.setChan] using guard)
          (by simpa [Channel.setHook, State.setChan] using closed)
          (by simpa [Channel.setHook, State.setChan] using runs) free handled
      | claimed closer own guard closed runs alone =>
        exact .claimed closer own (by simpa [Channel.setHook, State.setChan] using guard)
          (by simpa [Channel.setHook, State.setChan] using closed)
          (by simpa [Channel.setHook, State.setChan] using runs) alone handled
      | unlocked _ _ _ closed | calling _ _ _ _ closed | finished _ closed =>
        cases closed.symm.trans opened
    · apply (facts.phase other).transport
      · exact setChan_other before _ same
      · exact fun _ _ => rfl
      · intro installed found
        simp [Channel.setHook, State.setChan, unlisted other installed found]
  · intro other installed found
    by_cases same : other = ch
    · subst same
      cases null with
      | true => simp [Channel.setHook, State.setChan] at found
      | false =>
        simp only [Channel.setHook, State.setChan, update_self] at found
        cases found
        simp [Channel.setHook]
    · have earlier : (before.chans other).onClose = some installed := by
        simpa [Channel.setHook, State.setChan, same] using found
      have listed := facts.listed other installed earlier
      simpa [Channel.setHook, State.setChan, unlisted other installed earlier] using listed
  · intro other stage
    by_cases same : other = hook
    · subst same
      simp [Channel.setHook]
    · simp only [Channel.setHook, State.setChan, update_of_ne same] at stage ⊢
      exact facts.unrun other stage
  · intro other
    by_cases same : other = hook
    · subst same
      simp [Channel.setHook]
    · simpa [Channel.setHook, State.setChan, same] using facts.once other

end Handlers

theorem CloseFacts.control (facts : CloseFacts before) (controls : Controls scope before after) :
    CloseFacts after := by
  cases controls with
  | request closer ch stage absent opened next => exact facts.request absent opened next
  | ignore closer ch absent =>
    apply facts.pass <;> intro other
    · exact not_owns_of_stage (by simp [absent]) (by simp [absent]) (by simp [absent])
    · exact not_owns_of_stage (by simp) (by simp) (by simp)
  | move closer stage was next =>
    apply facts.pass <;> intro other
    · rcases was with stage | stage | stage <;>
        exact not_owns_of_stage (by simp [stage]) (by simp [stage]) (by simp [stage])
    · rcases next with rfl | rfl | rfl <;>
        exact not_owns_of_stage (by simp) (by simp) (by simp)
  | claim closer stage free => exact facts.claim rfl free
  | read closer unlocked => exact facts.read rfl unlocked
  | call closer hook calling => exact facts.call rfl calling
  | install hook ch null absent opened => exact facts.install absent opened
  | late hook ch null absent closed =>
    exact facts.setHook (by simp [absent]) (fun _ => rfl) (by simp)
  | callLate hook calling =>
    exact facts.setHook (by simp [calling]) (by simp) (by simp [facts.unrun hook (.inr calling)])

/-- What a change is for the close of channels. -/
inductive ClosingStep (scope : Scope) (before after : State) : Prop where
  | frame (closers : after.closers = before.closers) (hooks : after.hooks = before.hooks)
      (chans : ∀ ch, SameClosing (after.chans ch) (before.chans ch))
  | control (controls : Controls scope before after)
  | shut (closer : CloserId) (chan : Chan) (claimed : (before.closers closer).stage = .claimed)
      (guard : chan.closeGuard = (before.chans (before.closers closer).ch).closeGuard)
      (closed : chan.closed = true)
      (onClose : chan.onClose = (before.chans (before.closers closer).ch).onClose)
      (runs : chan.closeRuns = (before.chans (before.closers closer).ch).closeRuns + 1)
      (shut : after = setCloser (before.setChan (before.closers closer).ch chan) closer
        { ch := (before.closers closer).ch, stage := .unlocked })

theorem settle_closing {middle : State} (op : OpId) (result : Result)
    (calls : List Invocation) (closers : middle.closers = before.closers)
    (hooks : middle.hooks = before.hooks) (chans : middle.chans = before.chans)
    (same : SameClosing chan (before.chans ch)) :
    ClosingStep scope before (settle (middle.setChan ch chan) op result calls) := by
  obtain ⟨-, kept, -, settledClosers, settledHooks⟩ :=
    settle_frame (middle.setChan ch chan) op result calls
  apply ClosingStep.frame (settledClosers.trans closers) (settledHooks.trans hooks)
  intro other
  rw [kept, ← chans]
  exact sameClosing_setChan middle (chans ▸ same) other

theorem Changes.closing (changes : Changes scope before after) :
    ClosingStep scope before after := by
  cases changes with
  | routine _ routine =>
    obtain ⟨chans, closers, hooks⟩ := routine.frame
    exact .frame closers hooks fun ch => chans ▸ .refl _
  | control _ controls => exact .control controls
  | takeBuffer op arm ch msg buffer calls | putBuffer op arm ch val buffer calls =>
    exact settle_closing op _ calls rfl rfl rfl ⟨rfl, rfl, rfl, rfl⟩
  | takePutter op arm ch waker putter dead rest calls =>
    obtain ⟨chans, -, -, closers, hooks, -⟩ := claimWith_frame waker before putter .ok none
    exact settle_closing op _ calls closers hooks chans ⟨rfl, rfl, rfl, rfl⟩
  | putTaker op arm ch val waker taker dead rest calls =>
    obtain ⟨chans, -, -, closers, hooks, -⟩ :=
      claimWith_frame waker before taker .ok (some { source := ⟨op, arm⟩, val })
    exact settle_closing op _ calls closers hooks chans ⟨rfl, rfl, rfl, rfl⟩
  | park op entries =>
    obtain ⟨-, chans, closers, hooks, -⟩ := park_frame before op entries
    exact .frame closers hooks fun ch => by rw [chans]; exact ⟨rfl, rfl, rfl, rfl⟩
  | shut closer closing =>
    apply ClosingStep.shut closer _ closing ?_ ?_ ?_ ?_ rfl <;> rfl

theorem CloseFacts.changed (facts : CloseFacts before) (changes : Changes scope before after) :
    CloseFacts after := by
  cases changes.closing with
  | frame closers hooks chans => exact facts.frame closers hooks chans
  | control controls => exact facts.control controls
  | shut closer chan claimed guard closed onClose runs shut =>
    subst shut
    exact facts.shut rfl claimed guard closed onClose runs

theorem reachable_closeFacts
    (reachable : system.ReachableWith allowed state) : CloseFacts state := by
  apply channel_invariant reachable closeFacts_initial
  · intro start label before after _ _ facts prepares
    obtain ⟨closers, hooks, chans⟩ := prepares.closing
    exact facts.frame closers hooks chans
  · intro start label before after _ _ _ _ facts changes
    exact facts.changed changes

end Libgoc.Channel
