import Libgoc.Alts.Order
import Libgoc.Channel.Operations
import Libgoc.Semantics.LockOrder

namespace Libgoc.Alts

open Libgoc.Semantics LockOrder Function

/-! # Locks of concurrent selects (`src/alts.c`) -/

abbrev CallId := Nat

inductive AltsFn where
  | alts
  | altsSync
deriving Repr, DecidableEq

def AltsFn.funcName : AltsFn → String
  | .alts => "goc_alts"
  | .altsSync => "goc_alts_sync"

/-- Where a call is.  A select in phase 2 is `scanning` at arm `indices[si]` or
`trying` it with its channel locked; in phase 4 it is `acquiring` the lock `i`;
`releasing` has `j` locks left, and then the call parks or returns. -/
inductive Stage where
  | absent
  | scanning (ops : List AltOp) (array : IndexArray) (si : Nat)
  | trying (ops : List AltOp) (array : IndexArray) (si : Nat) (ch : ChanId)
  | acquiring (sortedChans : List ChanId) (i : Nat)
  | releasing (sortedChans : List ChanId) (j : Nat) (parks : Bool)
  | parked
  | entering (ch : ChanId)
  | inside (ch : ChanId)
  | returned
deriving Repr, DecidableEq

def Stage.held : Stage → List ChanId
  | .trying _ _ _ ch => [ch]
  | .acquiring sortedChans i => sortedChans.take i
  | .releasing sortedChans j _ => sortedChans.take j
  | .inside ch => [ch]
  | _ => []

def scannedChannel (ops : List AltOp) (array : IndexArray) (si : Nat) : Option ChanId :=
  match array.indices[si]? with
  | none => none
  | some i =>
    match ops[i]? with
    | none => none
    | some op => op.ch

def Stage.wants : Stage → Option ChanId
  | .scanning ops array si => scannedChannel ops array si
  | .acquiring sortedChans i => sortedChans[i]?
  | .entering ch => some ch
  | _ => none

/-- `locks` has the call that holds the lock of a channel, `seed` is
`g_alts_rand_seed`. -/
structure State where
  seed : UInt32
  locks : ChanId → Option CallId
  calls : CallId → Stage

variable (state : State)

def State.setStage (call : CallId) (stage : Stage) : State :=
  { state with calls := update state.calls call stage }

def State.lock (call : CallId) (ch : ChanId) (stage : Stage) : Option State :=
  if state.locks ch = none then
    some { state.setStage call stage with
      locks := update state.locks ch (some call) }
  else none

def State.unlock (call : CallId) (ch : ChanId) (stage : Stage) : State :=
  { state.setStage call stage with locks := update state.locks ch none }

/-- Phase 1; a call with two default arms aborts the program. -/
def altsBegin (call : CallId) (fn : AltsFn) (ops : List AltOp) : Option State :=
  match state.calls call, altsBuildIndexArray fn.funcName state.seed ops with
  | .absent, .ok (array, seed) =>
    some { state.setStage call (.scanning ops array 0) with seed }
  | _, _ => none

def lockNext (call : CallId) : Option State :=
  match state.calls call with
  | .scanning ops array si =>
    match scannedChannel ops array si with
    | some ch => state.lock call ch (.trying ops array si ch)
    | none => none
  | .acquiring sortedChans i =>
    match sortedChans[i]? with
    | some ch => state.lock call ch (.acquiring sortedChans (i + 1))
    | none => none
  | .entering ch => state.lock call ch (.inside ch)
  | _ => none

/-- Phase 2 at one arm. -/
def tryImmediate (call : CallId) (ready : Bool) : Option State :=
  match state.calls call with
  | .trying ops array si ch =>
    some (state.unlock call ch (if ready then .returned else .scanning ops array (si + 1)))
  | _ => none

/-- Phase 3, after a scan of all arms: the default arm, or the locks to take. -/
def prepare (call : CallId) : Option State :=
  match state.calls call with
  | .scanning ops array si =>
    if si = array.indices.length then
      match array.defaultIdx, altsDedupSortChannels ops ops.length with
      | some _, _ => some (state.setStage call .returned)
      | none, some (scratch, unique) =>
        some (state.setStage call (.acquiring (scratch.take unique) 0))
      | none, none => none
    else none
  | _ => none

/-- Phase 5 with all locks held. -/
def rescan (call : CallId) (ready : Bool) : Option State :=
  match state.calls call with
  | .acquiring sortedChans i =>
    if i = sortedChans.length then
      some (state.setStage call (.releasing sortedChans i !ready))
    else none
  | _ => none

def releaseNext (call : CallId) : Option State :=
  match state.calls call with
  | .releasing sortedChans (j + 1) parks =>
    match sortedChans[j]? with
    | some ch => some (state.unlock call ch (.releasing sortedChans j parks))
    | none => none
  | .releasing _ 0 parks => some (state.setStage call (if parks then .parked else .returned))
  | .inside ch => some (state.unlock call ch .returned)
  | _ => none

inductive Label where
  | alts (call : CallId) (fn : AltsFn) (ops : List AltOp)
  | single (call : CallId) (ch : ChanId)
  | lockNext (call : CallId)
  | tryImmediate (call : CallId) (ready : Bool)
  | prepare (call : CallId)
  | rescan (call : CallId) (ready : Bool)
  | releaseNext (call : CallId)
  | resume (call : CallId)
deriving Repr, DecidableEq

def step : Label → Option State
  | .alts call fn ops => altsBegin state call fn ops
  | .single call ch =>
    if state.calls call = .absent then some (state.setStage call (.entering ch)) else none
  | .lockNext call => lockNext state call
  | .tryImmediate call ready => tryImmediate state call ready
  | .prepare call => prepare state call
  | .rescan call ready => rescan state call ready
  | .releaseNext call => releaseNext state call
  | .resume call =>
    if state.calls call = .parked then some (state.setStage call .returned) else none

def start (seed : UInt32) : State where
  seed := seed
  locks := fun _ => none
  calls := fun _ => .absent

def system : System State Label where
  initial state := ∃ seed, state = start seed
  step := step

section

variable {state} {after : State} {label : Label}

def Stage.Ordered : Stage → Prop
  | .acquiring sortedChans _ => sortedChans.Pairwise (· < ·)
  | _ => True

/-- What a step does to the locks: a call goes on to a stage, maybe with one lock
more or one less. -/
inductive Moves (state : State) (call : CallId) (stage : Stage) : State → Prop where
  | stay {seed : UInt32} (keeps : ∀ ch ∈ (state.calls call).held, ch ∈ stage.held) :
      Moves state call stage { state.setStage call stage with seed }
  | take {ch : ChanId} (keeps : ∀ other ∈ (state.calls call).held, other ∈ stage.held)
      (gains : ch ∈ stage.held) :
      Moves state call stage { state.setStage call stage with
        locks := update state.locks ch (some call) }
  | release {ch : ChanId}
      (keeps : ∀ other ∈ (state.calls call).held, other ≠ ch → other ∈ stage.held) :
      Moves state call stage (state.unlock call ch stage)

theorem altsBegin_moves (ran : altsBegin state call fn ops = some after) :
    ∃ stage, Moves state call stage after ∧ stage.Ordered := by
  unfold altsBegin at ran
  split at ran
  case h_1 array seed absent _ =>
    cases ran
    exact ⟨_, .stay (by simp [absent, Stage.held]), trivial⟩
  case h_2 => cases ran

theorem lock_moves (ran : state.lock call ch stage = some after)
    (keeps : ∀ other ∈ (state.calls call).held, other ∈ stage.held) (gains : ch ∈ stage.held) :
    Moves state call stage after := by
  obtain ⟨-, rfl⟩ := guarded ran
  exact .take keeps gains

theorem mem_take_succ {sortedChans : List ChanId}
    (atIndex : sortedChans[i]? = some ch) (other : ChanId) :
    other ∈ sortedChans.take (i + 1) ↔ other ∈ sortedChans.take i ∨ other = ch := by
  rw [List.take_add_one, atIndex]
  simp

theorem lockNext_moves (ordered : (state.calls call).Ordered)
    (ran : lockNext state call = some after) :
    ∃ stage, Moves state call stage after ∧ stage.Ordered := by
  unfold lockNext at ran
  split at ran
  case h_1 ops array si scanning =>
    split at ran
    · exact ⟨_, lock_moves ran (by simp [scanning, Stage.held]) (by simp [Stage.held]), trivial⟩
    · cases ran
  case h_2 sortedChans i acquiring =>
    split at ran
    case h_1 ch atIndex =>
      rw [acquiring] at ordered
      refine ⟨_, lock_moves ran ?_ ?_, ordered⟩
      · intro other held
        rw [acquiring] at held
        exact (mem_take_succ atIndex other).mpr (.inl held)
      · exact (mem_take_succ atIndex ch).mpr (.inr rfl)
    case h_2 => cases ran
  case h_3 ch entering =>
    exact ⟨_, lock_moves ran (by simp [entering, Stage.held]) (by simp [Stage.held]), trivial⟩
  case h_4 => cases ran

theorem tryImmediate_moves (ran : tryImmediate state call ready = some after) :
    ∃ stage, Moves state call stage after ∧ stage.Ordered := by
  unfold tryImmediate at ran
  split at ran
  case h_1 ops array si ch trying =>
    cases ran
    refine ⟨_, .release ?_, by cases ready <;> trivial⟩
    intro other held apart
    rw [trying] at held
    exact absurd (List.mem_singleton.mp held) apart
  case h_2 => cases ran

theorem prepare_moves (ran : prepare state call = some after) :
    ∃ stage, Moves state call stage after ∧ stage.Ordered := by
  unfold prepare at ran
  split at ran
  case h_1 ops array si scanning =>
    have nothing : ∀ stage : Stage, ∀ ch ∈ (state.calls call).held, ch ∈ stage.held := by
      simp [scanning, Stage.held]
    split at ran
    · split at ran
      case h_1 =>
        cases ran
        exact ⟨_, .stay (nothing _), trivial⟩
      case h_2 scratch unique _ deduped =>
        cases ran
        obtain ⟨_, _, same, strict, _⟩ := altsDedupSortChannels_spec ops
        cases deduped.symm.trans same
        exact ⟨_, .stay (nothing _), strict⟩
      case h_3 => cases ran
    · cases ran
  case h_2 => cases ran

theorem rescan_moves (ran : rescan state call ready = some after) :
    ∃ stage, Moves state call stage after ∧ stage.Ordered := by
  unfold rescan at ran
  split at ran
  case h_1 sortedChans i acquiring =>
    obtain ⟨-, rfl⟩ := guarded ran
    exact ⟨_, .stay (by simp [acquiring, Stage.held]), trivial⟩
  case h_2 => cases ran

theorem releaseNext_moves (ran : releaseNext state call = some after) :
    ∃ stage, Moves state call stage after ∧ stage.Ordered := by
  unfold releaseNext at ran
  split at ran
  case h_1 sortedChans j parks releasing =>
    split at ran
    case h_1 ch atIndex =>
      cases ran
      refine ⟨_, .release ?_, trivial⟩
      intro other held apart
      rw [releasing] at held
      exact ((mem_take_succ atIndex other).mp held).resolve_right apart
    case h_2 => cases ran
  case h_2 sortedChans parks releasing =>
    cases ran
    exact ⟨_, .stay (by simp [releasing, Stage.held]), by cases parks <;> trivial⟩
  case h_3 ch inside =>
    cases ran
    refine ⟨_, .release ?_, trivial⟩
    intro other held apart
    rw [inside] at held
    exact absurd (List.mem_singleton.mp held) apart
  case h_4 => cases ran

theorem step_moves (ordered : ∀ call, (state.calls call).Ordered)
    (stepped : step state label = some after) :
    ∃ call stage, Moves state call stage after ∧ stage.Ordered := by
  cases label with
  | alts call fn ops => exact ⟨call, altsBegin_moves stepped⟩
  | single call ch =>
    obtain ⟨absent, rfl⟩ := guarded stepped
    exact ⟨call, _, .stay (by simp [absent, Stage.held]), trivial⟩
  | lockNext call => exact ⟨call, lockNext_moves (ordered call) stepped⟩
  | tryImmediate call ready => exact ⟨call, tryImmediate_moves stepped⟩
  | prepare call => exact ⟨call, prepare_moves stepped⟩
  | rescan call ready => exact ⟨call, rescan_moves stepped⟩
  | releaseNext call => exact ⟨call, releaseNext_moves stepped⟩
  | resume call =>
    obtain ⟨parked, rfl⟩ := guarded stepped
    exact ⟨call, _, .stay (by simp [parked, Stage.held]), trivial⟩

structure Sound (state : State) : Prop where
  covered : Covered Stage.held state.locks state.calls
  ordered : ∀ call, (state.calls call).Ordered

theorem Sound.moves (sound : Sound state) (moves : Moves state call stage after)
    (ordered : stage.Ordered) : Sound after := by
  have stages : ∀ other, (update state.calls call stage other).Ordered := by
    intro other
    by_cases same : other = call
    · rw [same, update_self]
      exact ordered
    · rw [update_of_ne same]
      exact sound.ordered other
  cases moves with
  | stay keeps => exact ⟨sound.covered.stay keeps, stages⟩
  | take keeps gains => exact ⟨sound.covered.take keeps gains, stages⟩
  | release keeps => exact ⟨sound.covered.release keeps, stages⟩

theorem sound_of_reachable (reachable : system.Reachable state) : Sound state := by
  apply reachable.invariant
  · intro initial starts
    obtain ⟨seed, rfl⟩ := starts
    constructor
    · intro ch call taken
      cases taken
    · intro call
      trivial
  · intro before label after sound stepped
    obtain ⟨call, stage, moves, ordered⟩ := step_moves sound.ordered stepped
    exact sound.moves moves ordered

/-- In an ascending array the locks taken so far are below the next one. -/
theorem Stage.Ordered.ascends (ordered : stage.Ordered) :
    Ascends Stage.held Stage.wants stage := by
  intro ch held wanted next
  cases stage with
  | acquiring sortedChans i =>
    have atIndex : sortedChans[i]? = some wanted := next
    obtain ⟨inside, rfl⟩ := List.getElem?_eq_some_iff.mp atIndex
    obtain ⟨j, before, rfl⟩ := List.mem_take_iff_getElem.mp held
    exact List.pairwise_iff_getElem.mp ordered j i _ inside (by omega)
  | scanning => cases held
  | entering => cases held
  | absent => cases next
  | trying => cases next
  | releasing => cases next
  | parked => cases next
  | inside => cases next
  | returned => cases next

/-- A call waits for one that holds the lock it takes next. -/
def Waits (state : State) : CallId → CallId → Prop :=
  WaitsFor state.locks fun call => (state.calls call).wants

end

/-- The index array is a shuffle of the arms other than default arms, the lock array
has their channels in ascending order, and so calls never wait in a cycle. -/
theorem select_deadlock_free : (∀ funcName seed ops,
      (defaults ops ≤ 1 → ∃ array next, altsBuildIndexArray funcName seed ops = .ok (array, next) ∧
        array.indices.Perm (positions ops)) ∧
      (1 < defaults ops → ∃ message, altsBuildIndexArray funcName seed ops = .error message)) ∧
    (∀ ops, ∃ scratch unique, altsDedupSortChannels ops ops.length = some (scratch, unique) ∧
      (scratch.take unique).Pairwise (· < ·) ∧ ∀ ch, ch ∈ scratch.take unique ↔ Names ops ch) ∧
    ∀ state, system.Reachable state → ∀ call, ¬ Relation.TransGen (Waits state) call call := by
  refine ⟨?_, altsDedupSortChannels_spec, ?_⟩
  · intro funcName seed ops
    exact ⟨altsBuildIndexArray_perm funcName seed, altsBuildIndexArray_aborts funcName seed⟩
  · intro state reachable call
    have sound := sound_of_reachable reachable
    exact no_cycle sound.covered (fun party => (sound.ordered party).ascends) call

/-- Two selects that name the same two channels in opposite orders. -/
def crossedRun : List Label :=
  [.alts 0 .alts [⟨some 1, .take⟩, ⟨some 2, .take⟩],
    .alts 1 .altsSync [⟨some 2, .put⟩, ⟨some 1, .put⟩],
    .lockNext 0, .tryImmediate 0 false, .lockNext 0, .tryImmediate 0 false, .prepare 0,
    .lockNext 1, .tryImmediate 1 false, .lockNext 1, .tryImmediate 1 false, .prepare 1,
    .lockNext 0]

theorem crossedRun_deadlock_free : ∃ state, system.Reachable state ∧ Waits state 1 0 ∧
      ¬ Relation.TransGen (Waits state) 0 0 := by
  have reachable : system.Reachable _ := .of_run system crossedRun ⟨1, rfl⟩ rfl
  exact ⟨_, reachable, ⟨1, rfl, rfl⟩, select_deadlock_free.2.2 _ reachable 0⟩

def ofArm : Channel.Arm → AltOp
  | .take ch => ⟨some ch, .take⟩
  | .put ch _ => ⟨some ch, .put⟩
  | .default => ⟨none, .default⟩

theorem ofArm_default : (ofArm arm).opKind = .default ↔ arm = .default := by
  cases arm <;> simp [ofArm]

theorem defaults_ofArm (arms : List Channel.Arm) :
    defaults (arms.map ofArm) = arms.count .default := by
  rw [defaults, List.countP_map, List.count]
  apply List.countP_congr
  intro arm _
  simp [ofArm_default]

theorem positions_ofArm (arms : List Channel.Arm) : positions (arms.map ofArm) =
      (List.range arms.length).filter fun arm => arms[arm]? != some .default := by
  rw [positions, List.length_map]
  apply List.filter_congr
  intro i _
  rw [Bool.eq_iff_iff, bne_iff_ne, bne_iff_ne, ne_eq, ne_eq, not_iff_not, List.getElem?_map]
  cases arms[i]? with
  | none => simp
  | some arm => simp [ofArm_default]

/-- The shuffled array is an order in which a select of the channel model scans. -/
theorem altsBuildIndexArray_admitted (funcName : String) (seed : UInt32)
    (built : Channel.altsBuildIndexArray arms = some indices) :
    ∃ array next, altsBuildIndexArray funcName seed (arms.map ofArm) = .ok (array, next) ∧
      array.indices.Perm indices := by
  obtain ⟨few, rfl⟩ := guarded built
  rw [← positions_ofArm]
  exact altsBuildIndexArray_perm funcName seed (defaults_ofArm arms ▸ few)

end Libgoc.Alts
