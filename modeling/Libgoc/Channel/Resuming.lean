import Libgoc.Channel.Ledger

namespace Libgoc.Channel

/-! # How parked calls resume -/

/-- No wake-up of a parked call is lost or made twice: a claimed call is notified once,
and one that is not claimed is linked once for each arm. -/
theorem waiter_notified_once (reachable : system.Reachable state)
    (waiting : (state.ops op).stage = .waiting) :
    (∀ self, (state.ops op).caller = .fiber self →
      state.posted self + state.queued self = if (state.ops op).claimed then 1 else 0) ∧
    ((state.ops op).caller = .thread →
      ((state.ops op).ready = true ↔ (state.ops op).claimed = true)) ∧
    ((state.ops op).caller = .callback →
      state.cbQueue.count ⟨op, 0⟩ = if (state.ops op).claimed then 1 else 0) ∧
    ((state.ops op).claimed = false → ∀ arm ∈ (state.ops op).order, ∀ ch,
      ((state.ops op).arms[arm]? = some (.take ch) → (state.chans ch).takers.count ⟨op, arm⟩ = 1) ∧
      ∀ val, (state.ops op).arms[arm]? = some (.put ch val) →
        (state.chans ch).putters.count ⟨op, arm⟩ = 1) := by
  have core := reachable_core reachable
  have facts := core.call op
  refine ⟨?_, ?_, ?_, ?_⟩
  · intro self caller
    have busy := core.owner op self caller (by simp [Op.holds, waiting])
    cases core.fiber self with
    | idle free => cases free.symm.trans busy
    | running other same _ stage =>
      cases same.symm.trans busy
      simp [waiting, Stage.active] at stage
    | parked other same _ stage _ posted queued =>
      cases same.symm.trans busy
      simp [posted, queued, stage.2]
    | claimed other same _ _ claimed _ posted queued
    | queued other same _ _ claimed _ posted queued =>
      cases same.symm.trans busy
      simp [posted, queued, claimed]
  · exact fun caller => ⟨facts.readied, facts.ready caller waiting⟩
  · intro caller
    simp [core.callbacks, Op.due, caller, waiting]
  · intro unclaimed arm listed ch
    have link := core.link ch
    have free : (state.ops op).unclaimed := ⟨waiting, unclaimed⟩
    constructor
    · intro spec
      exact List.count_eq_one_of_mem link.takersNodup (link.takerLinked ⟨op, arm⟩ free listed spec)
    · intro val spec
      exact List.count_eq_one_of_mem link.puttersNodup
        (link.putterLinked ⟨op, arm⟩ val free listed spec)

/-- A select parks on two channels and is served by the second. -/
def servedSelectRun : List Label :=
  [.alts 0 .thread [.take 0, .take 1] [0, 1], .altsTry 0, .altsTry 0, .altsPark 0,
    .putSync 1 1 7]

theorem servedSelectRun_notified_once :
    ∃ state, system.run (initialState fun _ => 0) servedSelectRun = some state ∧
      ((state.ops 0).ready = true ↔ (state.ops 0).claimed = true) :=
  ⟨_, rfl, (waiter_notified_once
    (.of_run system servedSelectRun ⟨fun _ => 0, rfl⟩ rfl) rfl).2.1 rfl⟩

/-- At most one entry of a select is claimed.  A select that resumes finds it and returns
its channel, value and status, and no other arm has put or taken a value anywhere. -/
theorem select_has_one_winner (reachable : system.Reachable state) (op : OpId) :
    (state.ops op).stage ≠ .aborted ∧
      (∀ winner, (state.ops op).stage = .resumed [] winner →
        ∃ arm after, ((state.ops op).entries arm).woken = true ∧
          step state (.altsCancel op) = some after ∧
          (after.ops op).result = some (entryResult (state.ops op) arm)) ∧
      ∀ arm, ((state.ops op).entries arm).woken = true →
        (∀ result, (state.ops op).result = some result → result.arm = some arm ∧
          result.ok = ((state.ops op).entries arm).ok ∧
          result.msg = ((state.ops op).entries arm).received) ∧
        ∀ other ≠ arm, ((state.ops op).entries other).woken = false ∧
          ∀ ch, (∀ msg ∈ (state.chans ch).moved, msg.source ≠ ⟨op, other⟩) ∧
            ∀ delivery ∈ (state.chans ch).deliveries, delivery.receiver ≠ ⟨op, other⟩ := by
  have facts := (reachable_core reachable).call op
  have ledger := reachable_ledger reachable
  refine ⟨facts.notAborted, ?_, ?_⟩
  · intro winner resumed
    obtain ⟨_, claimed, found, _⟩ := facts.resumed [] winner resumed
    obtain ⟨arm, woken⟩ := facts.claimed_iff.mp claimed
    obtain missing | rfl := found arm woken
    · cases missing
    · refine ⟨arm, finish state op (entryResult (state.ops op) arm), woken, ?_, ?_⟩
      · simp only [step, altsCancel, resumed]
      · simp [(finish_frame state op _).1]
  · intro arm woken
    have decided : (state.ops op).outcome arm ≠ none := by simp [Op.outcome, woken]
    refine ⟨fun result returned => (facts.result result returned).2 arm woken, ?_⟩
    intro other different
    have undecided : ∀ report, state.outcome ⟨op, other⟩ ≠ some report := by
      intro report reported
      exact different (facts.outcome_unique (ne_of_eq_of_ne reported (by simp)) decided)
    refine ⟨?_, fun ch => ⟨?_, ?_⟩⟩
    · by_contra also
      exact different (facts.unique other arm (by simpa using also) woken)
    · intro msg moved source
      obtain ⟨_, value, accepted⟩ := ledger.source ch msg moved
      exact undecided _ (source ▸ accepted)
    · intro delivery delivered receiver
      exact undecided _ (receiver ▸ (ledger.receiver ch delivery delivered).2)

theorem servedSelectRun_one_winner :
    ∃ state, system.run (initialState fun _ => 0) servedSelectRun = some state ∧
      ((state.ops 0).entries 1).woken = true ∧ ((state.ops 0).entries 0).woken = false :=
  ⟨_, rfl, rfl, (((select_has_one_winner
    (.of_run system servedSelectRun ⟨fun _ => 0, rfl⟩ rfl) 0).2.2 1 rfl).2 0 (by decide)).1⟩

end Libgoc.Channel
