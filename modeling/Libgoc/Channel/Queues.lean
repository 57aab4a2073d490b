import Libgoc.Channel.Refinement

namespace Libgoc.Channel

open Libgoc.Data Libgoc.Semantics Relation

/-! # Runs as runs of bounded queues -/

variable {before after state : State} {scope : Scope} {op : OpId} {call : Op}

/-- No call is a select. -/
def Plain (state : State) : Prop :=
  ∀ op, (state.ops op).select = false

theorem Plain.update (plain : Plain before) (ops : after.ops = Function.update before.ops op call)
    (kept : call.select = true → (before.ops op).select = true) : Plain after := by
  intro other
  rw [ops]
  refine forall_update (·.select = false) plain ?_ op other
  by_contra select
  simp [plain op] at kept
  exact select kept

theorem Plain.prepared (plain : Plain before) (prepares : Prepares scope before after)
    (noSelect : ¬scope.selects) : Plain after := by
  cases prepares with
  | enter op caller arms order select stage absent idle started single distinct notCallback
      inScope =>
      obtain ⟨ops, -⟩ := enter_frame before op { caller, arms, order, select, stage }
      exact plain.update ops fun select => absurd (inScope select) noSelect
  | start target rest queue pending => exact plain.update rfl (fun kept => kept)
  | unlink => exact plain
  | closeWaiter closer target =>
    obtain ⟨-, ops, -⟩ := claimWith_frame .claiming before target .closed
      (closedValue (before.entry target))
    exact plain.update ops (fun kept => kept)

theorem Plain.changed (plain : Plain before) (core : Core before)
    (changes : Changes scope before after) : Plain after := by
  cases changes with
  | routine _ routine =>
    cases routine.callStep core with
    | same ops => exact fun op => by rw [ops]; exact plain op
    | unparked op call ops _ kept _ | claimed op call ops _ _ _ kept _ _ =>
      exact plain.update ops kept
  | control _ controls => exact fun op => by rw [controls.undisturbed.ops]; exact plain op
  | takeBuffer op | putBuffer op =>
    exact plain.update (settle_frame _ _ _ _).1 (fun kept => kept)
  | takePutter op arm ch waker putter dead rest calls inFlight spec inScope drained list =>
    have linked := ((core.link ch).putter putter (by simp [list])).1
    exact forall_handOver (·.select = false) (core.linked_ne inFlight linked) plain
      (plain putter.op) (plain op)
  | putTaker op arm ch val waker taker dead rest calls inFlight spec inScope opened list =>
    have linked := ((core.link ch).taker taker (by simp [list])).1
    exact forall_handOver (·.select = false) (core.linked_ne inFlight linked) plain
      (plain taker.op) (plain op)
  | park op entries =>
    obtain ⟨⟨gen, ops⟩, -⟩ := park_frame before op entries
    exact plain.update ops (fun kept => kept)
  | shut => exact plain

theorem view_initial (capacity : ChanId → Nat) (ch : ChanId) :
    (initialState capacity).view ch = .empty (capacity ch) := by
  simp [State.view, initialState, Handoff.empty]
  rfl

theorem Core.view_along {start : State} (core : Core start)
    (path : ReflTransGen (Prepares scope) start before) (ch : ChanId) :
    (start.view ch).Fewer (before.view ch) := by
  induction path with
  | refl => exact .refl _
  | tail earlier prepares ih => exact ih.trans (prepares.view (core.along earlier) ch).fewer

/-- What a label taken in `start` and the calls of a run allow as a step of the
queue of a channel. -/
structure Admits (allowed : State → Label → Prop) (start : State) (label : Label)
    (ch : ChanId) (queue : Handoff EntryId EntryId) (action : Handoff.Action) : Prop where
  permitted : allowed start label
  fewer : (start.view ch).Fewer queue
  take : action = .take → .take ch ∈ label.arms start
  store : ∀ early, action = .store early → ∃ val, .put ch val ∈ label.arms start
  early : action = .store true → ∃ op val, label = .altsTry op ∧ .put ch val ∈ label.arms start
  plain : (∀ state label, allowed state label → ¬(label.scope state).selects) →
    action ≠ .wait false

/-- A property of bounded queues that their admitted steps keep is an invariant
of every channel. -/
theorem queue_invariant {property : Handoff EntryId EntryId → Prop}
    (reachable : system.ReachableWith allowed state) (initially : ∀ size, property (.empty size))
    (leaves : ∀ queue next : Handoff EntryId EntryId, property queue →
      queue.Step .leave next → property next)
    (steps : ∀ start label ch queue action next, Admits allowed start label ch queue action →
      property queue → queue.Step action next → property next) (ch : ChanId) :
    property (state.view ch) := by
  let NoSelect := ∀ state label, allowed state label → ¬(label.scope state).selects
  let holds : State → Prop := fun state => Committed state ∧
    (NoSelect → Plain state) ∧ ∀ ch, property (state.view ch)
  have invariant : holds state := by
    refine channel_invariant reachable ?_ ?_ ?_
    · exact fun capacity => ⟨by simp [Committed, initialState], fun _ _ => rfl,
        fun ch => view_initial capacity ch ▸ initially _⟩
    · rintro start label before after permitted core ⟨committed, plain, queues⟩ prepares
      exact ⟨committed.prepared prepares,
        fun noSelect => (plain noSelect).prepared prepares (noSelect _ _ permitted),
        fun ch => leaves _ _ (queues ch) (prepares.view core ch)⟩
    · rintro start label before after permitted coreStart path core
        ⟨committed, plain, queues⟩ changes
      refine ⟨committed.changed core changes,
        fun noSelect => (plain noSelect).changed core changes, fun ch => ?_⟩
      obtain ⟨action, step, permits⟩ := changes.view core committed ch
      refine steps start label ch _ action _ ?_ (queues ch) step
      refine ⟨permitted, coreStart.view_along path ch, permits.take, permits.store,
        permits.early, fun noSelect waits => ?_⟩
      obtain ⟨op, select⟩ := permits.select waits
      simp [plain noSelect op] at select
  exact invariant.2.2 ch

end Libgoc.Channel
