import Libgoc.Channel.Outcomes

namespace Libgoc.Channel

open Libgoc.Data Libgoc.Semantics

/-! # No value is lost, duplicated or invented -/

def State.Accepted (state : State) (put : EntryId) : Prop :=
  ∃ value, state.outcome put = some (.ok, value)

/-- The arm takes from the channel and has reported `GOC_OK` with this value. -/
def State.Received (state : State) (take : EntryId) (ch : ChanId) (msg : Msg) : Prop :=
  state.spec take = some (.take ch) ∧ state.outcome take = some (.ok, some msg)

def Chan.moved (chan : Chan) : List Msg :=
  chan.buffer.contents ++ chan.deliveries.map Delivery.msg

structure Ledger (state : State) : Prop where
  accepted : ∀ put ch val, state.spec put = some (.put ch val) → state.Accepted put →
    { source := put, val } ∈ (state.chans ch).moved
  source : ∀ ch, ∀ msg ∈ (state.chans ch).moved,
    state.spec msg.source = some (.put ch msg.val) ∧ state.Accepted msg.source
  received : ∀ take ch msg, state.Received take ch msg →
    { msg, receiver := take } ∈ (state.chans ch).deliveries
  receiver : ∀ ch, ∀ delivery ∈ (state.chans ch).deliveries,
    state.Received delivery.receiver ch delivery.msg
  distinct : ∀ ch, (state.chans ch).moved.Nodup

theorem ledger_initial (capacity : ChanId → Nat) : Ledger (initialState capacity) := by
  constructor <;>
    simp [initialState, Chan.moved, State.Accepted, State.Received, State.outcome, Op.outcome,
      State.spec]

variable {before after : State}

def State.Extends (before after : State) : Prop :=
  ∀ arm report, before.outcome arm = some report →
    after.outcome arm = some report ∧ after.spec arm = before.spec arm

theorem State.Keeps.decided (kept : before.Keeps after arm)
    (decided : before.outcome arm = some report) :
    after.outcome arm = some report ∧ after.spec arm = before.spec arm := by
  obtain ⟨same | ⟨undecided, -⟩, arms | ⟨undecided, -⟩⟩ := kept
  · exact ⟨same.trans decided, by simp only [State.spec, arms]⟩
  all_goals
    cases undecided.symm.trans decided

theorem State.Keeps.succeeded (kept : before.Keeps after arm)
    (succeeded : after.outcome arm = some (.ok, value)) :
    before.outcome arm = some (.ok, value) ∧ after.spec arm = before.spec arm := by
  have same : before.outcome arm = some (.ok, value) := by
    rcases kept.1 with same | ⟨-, failed⟩
    · exact same.symm.trans succeeded
    · exact absurd succeeded (failed value)
  exact ⟨same, (kept.decided same).2⟩

theorem Moves.extends (moves : Moves before after) : before.Extends after := by
  intro arm report decided
  cases moves with
  | quiet kept => exact (kept arm).decided decided
  | deposit put ch val spec specKept undecided accepted kept
  | withdraw take ch msg spec specKept undecided received kept =>
    refine (kept arm ?_).decided decided
    rintro rfl
    cases undecided.symm.trans decided
  | transfer put take ch val _ _ _ _ putUndecided takeUndecided _ _ kept =>
    refine (kept arm ?_ ?_).decided decided
    · rintro rfl
      cases putUndecided.symm.trans decided
    · rintro rfl
      cases takeUndecided.symm.trans decided

theorem Ledger.extend (ledger : Ledger before) (stays : before.Extends after)
    (accepts : ∀ put value, after.outcome put = some (.ok, value) →
      (before.outcome put = some (.ok, value) ∧ after.spec put = before.spec put) ∨
      (∀ ch val, after.spec put = some (.put ch val) →
        { source := put, val } ∈ (after.chans ch).moved) ∧
      ∀ ch msg, after.Received put ch msg → { msg, receiver := put } ∈ (after.chans ch).deliveries)
    (moved : ∀ ch msg, msg ∈ (before.chans ch).moved → msg ∈ (after.chans ch).moved)
    (stored : ∀ ch msg, msg ∈ (after.chans ch).moved → msg ∈ (before.chans ch).moved ∨
      after.spec msg.source = some (.put ch msg.val) ∧ after.Accepted msg.source)
    (kept : ∀ ch, ∀ delivery ∈ (before.chans ch).deliveries,
      delivery ∈ (after.chans ch).deliveries)
    (delivered : ∀ ch, ∀ delivery ∈ (after.chans ch).deliveries,
      delivery ∈ (before.chans ch).deliveries ∨ after.Received delivery.receiver ch delivery.msg)
    (distinct : ∀ ch, (after.chans ch).moved.Nodup) : Ledger after where
  accepted put ch val spec accepted := by
    obtain ⟨value, reported⟩ := accepted
    rcases accepts put value reported with ⟨earlier, same⟩ | ⟨listed, -⟩
    · exact moved ch _ (ledger.accepted put ch val (same ▸ spec) ⟨value, earlier⟩)
    · exact listed ch val spec
  source ch msg member := by
    rcases stored ch msg member with earlier | fresh
    · obtain ⟨spec, value, accepted⟩ := ledger.source ch msg earlier
      obtain ⟨still, same⟩ := stays _ _ accepted
      exact ⟨same.trans spec, value, still⟩
    · exact fresh
  received take ch msg received := by
    rcases accepts take _ received.2 with ⟨earlier, same⟩ | ⟨-, listed⟩
    · exact kept ch _ (ledger.received take ch msg ⟨same.symm.trans received.1, earlier⟩)
    · exact listed ch msg received
  receiver ch delivery member := by
    rcases delivered ch delivery member with earlier | fresh
    · obtain ⟨spec, reported⟩ := ledger.receiver ch delivery earlier
      obtain ⟨still, same⟩ := stays _ _ reported
      exact ⟨same.trans spec, still⟩
    · exact fresh
  distinct

theorem State.Unmoved.moved (unmoved : before.Unmoved after ch) :
    (after.chans ch).moved = (before.chans ch).moved := by
  rw [Chan.moved, unmoved.1, unmoved.2, Chan.moved]

/-- A put that has not reported yet has nothing in the ledger. -/
theorem Ledger.undecided_unlisted (ledger : Ledger before) (undecided : before.outcome put = none)
    (ch : ChanId) (val : Val) : { source := put, val } ∉ (before.chans ch).moved := by
  intro member
  obtain ⟨-, value, accepted⟩ := ledger.source ch _ member
  cases undecided.symm.trans accepted

section

variable (ledger : Ledger before) (stays : before.Extends after)
include ledger stays

theorem Ledger.quiet
    (kept : ∀ arm, before.Keeps after arm) (unmoved : ∀ ch, before.Unmoved after ch) :
    Ledger after :=
  ledger.extend stays (fun put _ reported => .inl ((kept put).succeeded reported))
    (fun ch _ member => (unmoved ch).moved ▸ member)
    (fun ch _ member => .inl ((unmoved ch).moved ▸ member))
    (fun ch _ member => (unmoved ch).2 ▸ member)
    (fun ch _ member => .inl ((unmoved ch).2 ▸ member))
    (fun ch => (unmoved ch).moved ▸ ledger.distinct ch)

/-- A put reports success and its value enters the ledger, with a delivery if
it goes to a taker at once. -/
theorem Ledger.admit (put : EntryId) (ch : ChanId) (val : Val) (fresh : List Delivery)
    (spec : before.spec put = some (.put ch val)) (specKept : after.spec put = before.spec put)
    (undecided : before.outcome put = none) (accepted : after.Accepted put)
    (received : ∀ delivery ∈ fresh, after.Received delivery.receiver ch delivery.msg)
    (kept : ∀ arm, arm ≠ put → (∀ delivery ∈ fresh, arm ≠ delivery.receiver) →
      before.Keeps after arm)
    (unmoved : ∀ other, other ≠ ch → before.Unmoved after other)
    (listed : (after.chans ch).moved.Perm ({ source := put, val } :: (before.chans ch).moved))
    (deliveries : (after.chans ch).deliveries = (before.chans ch).deliveries ++ fresh) :
    Ledger after := by
  have afterSpec := specKept.trans spec
  refine ledger.extend stays ?_ ?_ ?_ ?_ ?_ ?_
  · intro arm value reported
    by_cases own : arm = put
    · subst own
      refine .inr ⟨?_, ?_⟩
      · intro other otherVal found
        cases afterSpec.symm.trans found
        exact listed.symm.subset (List.mem_cons_self ..)
      · rintro other msg ⟨contrary, -⟩
        cases afterSpec.symm.trans contrary
    · by_cases taker : ∃ delivery ∈ fresh, arm = delivery.receiver
      · obtain ⟨delivery, member, rfl⟩ := taker
        obtain ⟨takeSpec, takeReport⟩ := received delivery member
        refine .inr ⟨?_, ?_⟩
        · intro other otherVal contrary
          cases takeSpec.symm.trans contrary
        · rintro other msg ⟨found, report⟩
          cases takeSpec.symm.trans found
          cases takeReport.symm.trans report
          rw [deliveries]
          exact List.mem_append_right _ member
      · refine .inl ((kept arm own ?_).succeeded reported)
        rintro delivery member rfl
        exact taker ⟨delivery, member, rfl⟩
  · intro other msg member
    by_cases same : other = ch
    · subst same
      exact listed.symm.subset (List.mem_cons_of_mem _ member)
    · rwa [(unmoved other same).moved]
  · intro other msg member
    by_cases same : other = ch
    · subst same
      rcases List.mem_cons.mp (listed.subset member) with rfl | earlier
      · exact .inr ⟨afterSpec, accepted⟩
      · exact .inl earlier
    · exact .inl ((unmoved other same).moved ▸ member)
  · intro other delivery member
    by_cases same : other = ch
    · subst same
      rw [deliveries]
      exact List.mem_append_left _ member
    · rwa [(unmoved other same).2]
  · intro other delivery member
    by_cases same : other = ch
    · subst same
      rw [deliveries] at member
      rcases List.mem_append.mp member with earlier | new
      · exact .inl earlier
      · exact .inr (received delivery new)
    · exact .inl ((unmoved other same).2 ▸ member)
  · intro other
    by_cases same : other = ch
    · subst same
      rw [listed.nodup_iff, List.nodup_cons]
      exact ⟨ledger.undecided_unlisted undecided other val, ledger.distinct other⟩
    · rw [(unmoved other same).moved]
      exact ledger.distinct other

/-- A take reports the value it got from the buffer. -/
theorem Ledger.withdraw (take : EntryId)
    (ch : ChanId) (msg : Msg) (received : after.Received take ch msg)
    (kept : ∀ arm, arm ≠ take → before.Keeps after arm)
    (unmoved : ∀ other, other ≠ ch → before.Unmoved after other)
    (listed : (after.chans ch).moved.Perm (before.chans ch).moved)
    (deliveries : (after.chans ch).deliveries =
      (before.chans ch).deliveries ++ [{ msg, receiver := take }]) : Ledger after := by
  refine ledger.extend stays ?_ ?_ ?_ ?_ ?_ ?_
  · intro arm value reported
    by_cases own : arm = take
    · subst own
      refine .inr ⟨?_, ?_⟩
      · intro other val contrary
        cases received.1.symm.trans contrary
      · rintro other value ⟨found, report⟩
        cases received.1.symm.trans found
        cases received.2.symm.trans report
        simp [deliveries]
    · exact .inl ((kept arm own).succeeded reported)
  · intro other value member
    by_cases same : other = ch
    · subst same
      exact listed.symm.subset member
    · rwa [(unmoved other same).moved]
  · intro other value member
    by_cases same : other = ch
    · subst same
      exact .inl (listed.subset member)
    · exact .inl ((unmoved other same).moved ▸ member)
  · intro other delivery member
    by_cases same : other = ch
    · subst same
      rw [deliveries]
      exact List.mem_append_left _ member
    · rwa [(unmoved other same).2]
  · intro other delivery member
    by_cases same : other = ch
    · subst same
      rw [deliveries] at member
      rcases List.mem_append.mp member with earlier | new
      · exact .inl earlier
      · cases List.mem_singleton.mp new
        exact .inr received
    · exact .inl ((unmoved other same).2 ▸ member)
  · intro other
    by_cases same : other = ch
    · subst same
      exact listed.nodup_iff.mpr (ledger.distinct other)
    · rw [(unmoved other same).moved]
      exact ledger.distinct other

end

theorem Ledger.moves (ledger : Ledger before) (moves : Moves before after) : Ledger after := by
  have stays := moves.extends
  cases moves with
  | quiet kept unmoved => exact ledger.quiet stays kept unmoved
  | deposit put ch val spec specKept undecided accepted kept unmoved contents deliveries =>
    refine ledger.admit stays put ch val [] spec specKept undecided ⟨_, accepted⟩ (by simp)
      (fun arm different _ => kept arm different) unmoved ?_ (by simp [deliveries])
    rw [Chan.moved, contents, deliveries, List.append_assoc]
    exact List.perm_middle
  | withdraw take ch msg spec specKept undecided received kept unmoved contents deliveries =>
    refine ledger.withdraw stays take ch msg ⟨specKept.trans spec, received⟩ kept unmoved ?_
      deliveries
    rw [Chan.moved, Chan.moved, contents, deliveries, List.map_append, ← List.append_assoc]
    exact List.perm_append_comm
  | transfer put take ch val putSpec takeSpec putSpecKept takeSpecKept putUndecided takeUndecided
      accepted received kept unmoved contents deliveries =>
      refine ledger.admit stays put ch val [{ msg := { source := put, val }, receiver := take }]
        putSpec putSpecKept putUndecided accepted ?_ ?_ unmoved ?_ deliveries
      · intro delivery member
        cases List.mem_singleton.mp member
        exact ⟨takeSpecKept.trans takeSpec, received⟩
      · intro arm notPut notTake
        exact kept arm notPut (notTake _ (List.mem_singleton.mpr rfl))
      · rw [Chan.moved, Chan.moved, contents, deliveries, List.map_append, ← List.append_assoc]
        exact List.perm_append_comm

theorem reachable_ledger (reachable : system.Reachable state) : Ledger state :=
  channel_invariant reachable ledger_initial
    (fun _ _ _ _ _ core ledger prepares => ledger.moves (prepares.moves core))
    (fun _ _ _ _ _ _ _ core ledger changes => ledger.moves (changes.moves core))

theorem State.Extends.trans (left : before.Extends middle)
    (right : middle.Extends after) : before.Extends after := by
  intro arm report decided
  obtain ⟨still, spec⟩ := left arm report decided
  obtain ⟨kept, same⟩ := right arm report still
  exact ⟨kept, same.trans spec⟩

theorem Steps.extends (core : Core before) (steps : Steps scope before after) :
    before.Extends after := by
  obtain ⟨middle, path, changes⟩ := steps
  have prepared : Core middle ∧ before.Extends middle := by
    clear changes
    induction path with
    | refl => exact ⟨core, fun _ _ decided => ⟨decided, rfl⟩⟩
    | tail _ prepares ih =>
      exact ⟨ih.1.prepared prepares, ih.2.trans (prepares.moves ih.1).extends⟩
  exact prepared.2.trans (changes.moves prepared.1).extends

/-- The put reported `GOC_CLOSED`, or it is an arm that its select did not
choose: another arm has an outcome, the call returned through another arm, or
phase 7 has cancelled the entry. -/
def State.Rejected (state : State) (put : EntryId) : Prop :=
  (∃ value, state.outcome put = some (.closed, value)) ∨
    (∃ other, other ≠ put.arm ∧ state.outcome ⟨put.op, other⟩ ≠ none) ∨
    (∃ result, (state.ops put.op).result = some result ∧ result.arm ≠ some put.arm) ∨
    (state.entry put).cancelled = true

theorem Core.rejected_unaccepted (core : Core state)
    (rejected : state.Rejected put) : ¬state.Accepted put := by
  have facts := core.call put.op
  rintro ⟨value, accepted⟩
  have known : (state.ops put.op).outcome put.arm ≠ none := by
    rw [show (state.ops put.op).outcome put.arm = _ from accepted]
    simp
  rcases rejected with ⟨other, closed⟩ | ⟨other, different, decided⟩ | ⟨result, returned, elsewhere⟩ |
    cancelled
  · cases closed.symm.trans accepted
  · exact different (facts.outcome_unique decided known)
  · cases woken : ((state.ops put.op).entries put.arm).woken with
    | true => exact elsewhere ((facts.result result returned).2 put.arm woken).1
    | false => exact known (by simp [Op.outcome, woken, returned, elsewhere])
  · obtain ⟨-, claimed, unwoken⟩ := facts.cancelled put.arm cancelled
    obtain ⟨winner, woken⟩ := facts.claimed_iff.mp claimed
    have decided : (state.ops put.op).outcome winner ≠ none := by simp [Op.outcome, woken]
    simp [facts.outcome_unique decided known, unwoken] at woken

theorem Ledger.source_received (ledger : Ledger state) (received : state.Received take ch msg) :
    state.spec msg.source = some (.put ch msg.val) ∧ state.Accepted msg.source :=
  ledger.source ch msg (List.mem_append_right _
    (List.mem_map.mpr ⟨_, ledger.received take ch msg received, rfl⟩))

theorem Ledger.receiver_unique (ledger : Ledger state)
    (left : state.Received take ch msg) (right : state.Received other otherCh msg) :
    other = take ∧ otherCh = ch := by
  cases (ledger.source_received left).1.symm.trans (ledger.source_received right).1
  have distinct := (List.nodup_append.mp (ledger.distinct ch)).2.1
  have same := List.inj_on_of_nodup_map distinct (ledger.received _ _ _ right)
    (ledger.received _ _ _ left) rfl
  exact ⟨congrArg Delivery.receiver same, rfl⟩

theorem Ledger.buffered_unreceived (ledger : Ledger state)
    (buffered : msg ∈ (state.chans ch).buffer.contents) : ¬state.Received take ch msg := by
  intro received
  have apart := (List.nodup_append.mp (ledger.distinct ch)).2.2
  exact apart msg buffered msg (List.mem_map.mpr ⟨_, ledger.received take ch msg received, rfl⟩) rfl

theorem accepted_value_delivered_once (reachable : system.Reachable state) :
    (∀ put ch val, state.spec put = some (.put ch val) → state.Accepted put →
      ({ source := put, val } ∈ (state.chans ch).buffer.contents ∧
        ∀ take, ¬state.Received take ch { source := put, val }) ∨
      ({ source := put, val } ∉ (state.chans ch).buffer.contents ∧
        ∃! take, state.Received take ch { source := put, val })) ∧
    (∀ ch, (state.chans ch).buffer.contents.Nodup) ∧
    (∀ take ch msg, state.Received take ch msg →
      state.spec msg.source = some (.put ch msg.val) ∧ state.Accepted msg.source ∧
      ∀ other otherCh, state.Received other otherCh msg → other = take ∧ otherCh = ch) ∧
    (∀ put ch val, state.spec put = some (.put ch val) → state.Rejected put →
      { source := put, val } ∉ (state.chans ch).buffer.contents ∧
      ∀ take otherCh, ¬state.Received take otherCh { source := put, val }) ∧
    (∀ label after, step state label = some after → state.Extends after) := by
  have core := reachable_core reachable
  have ledger := reachable_ledger reachable
  refine ⟨?_, ?_, ?_, ?_, ?_⟩
  · intro put ch val spec accepted
    rcases List.mem_append.mp (ledger.accepted put ch val spec accepted) with buffered | taken
    · exact .inl ⟨buffered, fun take => ledger.buffered_unreceived buffered⟩
    · obtain ⟨⟨msg, take⟩, member, rfl⟩ := List.mem_map.mp taken
      have received := ledger.receiver ch _ member
      refine .inr ⟨fun buffered => ledger.buffered_unreceived buffered received, take, received, ?_⟩
      exact fun other otherReceived => (ledger.receiver_unique received otherReceived).1
  · exact fun ch => (List.nodup_append.mp (ledger.distinct ch)).1
  · intro take ch msg received
    obtain ⟨spec, accepted⟩ := ledger.source_received received
    exact ⟨spec, accepted, fun other otherCh => ledger.receiver_unique received⟩
  · intro put ch val spec rejected
    have unaccepted := core.rejected_unaccepted rejected
    refine ⟨fun buffered => ?_, fun take otherCh received => ?_⟩
    · exact unaccepted (ledger.source ch _ (List.mem_append_left _ buffered)).2
    · exact unaccepted (ledger.source_received received).2
  · exact fun label after stepped => (step_steps core stepped).extends core

/-- A parked fiber gets the first value, the second is buffered, and a put to a
closed channel is refused. -/
def handOffRun : List Label :=
  [.take 0 0 0, .suspend 0, .putSync 1 0 7, .putSync 2 0 8, .close 0 0 true, .closeClaim 0,
    .closeBody 0, .putSync 3 0 9]

theorem handOffRun_delivered_once :
    ∃ state, system.run (initialState fun _ => 1) handOffRun = some state ∧
      state.outcome ⟨1, 0⟩ = some (.ok, none) ∧ state.outcome ⟨3, 0⟩ = some (.closed, none) ∧
      (({ source := ⟨1, 0⟩, val := 7 } ∈ (state.chans 0).buffer.contents ∧
        ∀ take, ¬state.Received take 0 { source := ⟨1, 0⟩, val := 7 }) ∨
      ({ source := ⟨1, 0⟩, val := 7 } ∉ (state.chans 0).buffer.contents ∧
        ∃! take, state.Received take 0 { source := ⟨1, 0⟩, val := 7 })) :=
  ⟨_, rfl, by decide, by decide,
    (accepted_value_delivered_once (.of_run system handOffRun ⟨fun _ => 1, rfl⟩ rfl)).1 ⟨1, 0⟩ 0 7
      (by decide) ⟨none, by decide⟩⟩

end Libgoc.Channel
