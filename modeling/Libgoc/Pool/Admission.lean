import Mathlib.Data.List.Count
import Libgoc.Data.Tally
import Libgoc.Semantics.Execution

namespace Libgoc.Pool.Admission

open Libgoc.Data Libgoc.Semantics Function

/-! # Admission of spawns -/

abbrev SpawnId := Nat

inductive Thread where
  | worker (index : Nat)
  | external (index : Nat)
deriving Repr, DecidableEq

/-- `goc_spawn_req`; `none` stands for `SIZE_MAX`. -/
structure SpawnReq where
  spawn : SpawnId
  homeWorkerIdx : Option Nat := none
deriving Repr, DecidableEq

inductive Place where
  | absent
  | deferred
  | admitted (thread : Thread)
  | posted
  | finished
deriving Repr, DecidableEq

/-- `hands` holds the requests that a thread has admitted and has still to
dispatch.  History: `accepted` counts the spawns, `place` follows each of them,
`deferred` marks those that had to wait, `posts` lists the dispatches. -/
structure State where
  maxLiveFibers : Nat
  liveCount : Nat := 0
  residentCount : Nat := 0
  pendingSpawns : List SpawnReq := []
  hands : Thread → List SpawnReq := fun _ => []
  accepted : Nat := 0
  place : SpawnId → Place := fun _ => .absent
  deferred : SpawnId → Bool := fun _ => false
  posts : List SpawnReq := []
  drained : Bool := false

def poolSpawnCapReached (maxLiveFibers residentCount : Nat) : Bool :=
  maxLiveFibers != 0 && decide (maxLiveFibers ≤ residentCount)

/-- The loop of `pool_collect_admitted_spawns_locked`: the admitted requests,
the new resident count and the requests that stay. -/
def poolCollectAdmittedSpawns (maxLiveFibers : Nat) :
    Nat → List SpawnReq → List SpawnReq × Nat × List SpawnReq
  | residentCount, [] => ([], residentCount, [])
  | residentCount, req :: rest =>
    if poolSpawnCapReached maxLiveFibers residentCount then ([], residentCount, req :: rest)
    else
      let (admitted, resident, pending) :=
        poolCollectAdmittedSpawns maxLiveFibers (residentCount + 1) rest
      (req :: admitted, resident, pending)

section

variable (state : State)

/-- The fast path: the caller goes on to create and post the fiber. -/
def State.acceptFast (thread : Thread) (req : SpawnReq) : State :=
  { state with
    liveCount := state.liveCount + 1
    residentCount := state.residentCount + 1
    hands := update state.hands thread [req]
    accepted := state.accepted + 1
    place := update state.place req.spawn (.admitted thread) }

/-- `pool_enqueue_spawn_locked` for a request that is accepted. -/
def State.acceptDeferred (req : SpawnReq) : State :=
  { state with
    liveCount := state.liveCount + 1
    pendingSpawns := state.pendingSpawns ++ [req]
    accepted := state.accepted + 1
    place := update state.place req.spawn .deferred
    deferred := update state.deferred req.spawn true }

/-- The thread leaves the mutex with the requests it could admit. -/
def State.collect (thread : Thread) : State :=
  let (admitted, resident, pending) :=
    poolCollectAdmittedSpawns state.maxLiveFibers state.residentCount state.pendingSpawns
  { state with
    residentCount := resident
    pendingSpawns := pending
    hands := update state.hands thread admitted
    place := admitted.foldl
      (fun place req => update place req.spawn (.admitted thread)) state.place }

/-- Spawns from a fiber of the pool are never deferred. -/
def Thread.bypassesThrottle : Thread → Bool
  | .worker _ => true
  | .external _ => false

/-- `pool_submit_spawn`, and `pool_submit_spawn_to_worker` with a home worker. -/
def poolSubmitSpawn (thread : Thread) (homeWorkerIdx : Option Nat) : Option State :=
  if state.hands thread = [] then
    let req : SpawnReq := { spawn := state.accepted, homeWorkerIdx }
    if thread.bypassesThrottle || (state.pendingSpawns.isEmpty &&
        !poolSpawnCapReached state.maxLiveFibers state.residentCount) then
      some (state.acceptFast thread req)
    else some ((state.acceptDeferred req).collect thread)
  else none

/-- `goc_fiber_entry_create` and the post to the home worker or a run queue. -/
def State.post (thread : Thread) (req : SpawnReq) (rest : List SpawnReq) : State :=
  { state with
    hands := update state.hands thread rest
    place := update state.place req.spawn .posted
    posts := state.posts ++ [req] }

/-- One round of `pool_dispatch_spawn_list`, or the end of the fast path. -/
def poolDispatchSpawn (thread : Thread) : Option State :=
  match state.hands thread with
  | [] => none
  | req :: rest => some (state.post thread req rest)

def State.uncount (spawn : SpawnId) : State :=
  { state with
    liveCount := state.liveCount - 1
    residentCount :=
      if 0 < state.residentCount then state.residentCount - 1 else state.residentCount
    place := update state.place spawn .finished }

/-- A worker of the pool finds its fiber dead. -/
def fiberDead (worker : Nat) (spawn : SpawnId) : Option State :=
  if state.hands (.worker worker) = [] ∧ state.place spawn = .posted then
    some ((state.uncount spawn).collect (.worker worker))
  else none

/-- `goc_pool_destroy` leaves its drain wait. -/
def drainComplete : Option State :=
  if state.liveCount = 0 then some { state with drained := true } else none

end

inductive Label where
  | submit (thread : Thread) (homeWorkerIdx : Option Nat)
  | dispatch (thread : Thread)
  | fiberDead (worker : Nat) (spawn : SpawnId)
  | drained
deriving Repr, DecidableEq

def step (state : State) : Label → Option State
  | .submit thread homeWorkerIdx => poolSubmitSpawn state thread homeWorkerIdx
  | .dispatch thread => poolDispatchSpawn state thread
  | .fiberDead worker spawn => fiberDead state worker spawn
  | .drained => drainComplete state

def system : System State Label where
  initial state := ∃ maxLiveFibers, state = { maxLiveFibers }
  step := step

/-- Waiting spawns are the sign of a reached cap. -/
def Throttled (state : State) : Prop :=
  state.pendingSpawns ≠ [] → state.maxLiveFibers ≠ 0 ∧ state.maxLiveFibers ≤ state.residentCount

/-- A worker admits the first waiting request. -/
def State.admitNext (state : State) (thread : Thread) (req : SpawnReq)
    (rest : List SpawnReq) : State :=
  { state with
    residentCount := state.residentCount + 1
    pendingSpawns := rest
    hands := update state.hands thread [req]
    place := update state.place req.spawn (.admitted thread) }

/-- The steps that a state with a reached cap can take. -/
inductive Changes (state : State) : Label → State → Prop where
  | accept (thread : Thread) (homeWorkerIdx : Option Nat) (idle : state.hands thread = [])
      (free : state.pendingSpawns ≠ [] → thread.bypassesThrottle = true) :
      Changes state (.submit thread homeWorkerIdx)
        (state.acceptFast thread { spawn := state.accepted, homeWorkerIdx })
  | defer (thread : Thread) (homeWorkerIdx : Option Nat) (capped : state.maxLiveFibers ≠ 0)
      (reached : state.maxLiveFibers ≤ state.residentCount) :
      Changes state (.submit thread homeWorkerIdx)
        (state.acceptDeferred { spawn := state.accepted, homeWorkerIdx })
  | dispatch (thread : Thread) (req : SpawnReq) (rest : List SpawnReq)
      (held : state.hands thread = req :: rest) :
      Changes state (.dispatch thread) (state.post thread req rest)
  | finish (worker : Nat) (spawn : SpawnId) (running : state.place spawn = .posted)
      (still : state.pendingSpawns ≠ [] → state.maxLiveFibers < state.residentCount) :
      Changes state (.fiberDead worker spawn) (state.uncount spawn)
  | replace (worker : Nat) (spawn : SpawnId) (req : SpawnReq) (rest : List SpawnReq)
      (idle : state.hands (.worker worker) = []) (running : state.place spawn = .posted)
      (waiting : state.pendingSpawns = req :: rest) (capped : state.maxLiveFibers ≠ 0)
      (exact : state.residentCount = state.maxLiveFibers) :
      Changes state (.fiberDead worker spawn)
        ((state.uncount spawn).admitNext (.worker worker) req rest)
  | drained (done : state.liveCount = 0) : Changes state .drained { state with drained := true }

theorem poolSpawnCapReached_iff (maxLiveFibers residentCount : Nat) :
    poolSpawnCapReached maxLiveFibers residentCount = true ↔
      maxLiveFibers ≠ 0 ∧ maxLiveFibers ≤ residentCount := by
  simp [poolSpawnCapReached]

/-- Nothing is admitted while the cap is reached or nobody waits. -/
theorem State.collect_none (state : State) (idle : state.hands thread = [])
    (none : state.pendingSpawns ≠ [] →
      poolSpawnCapReached state.maxLiveFibers state.residentCount = true) :
    state.collect thread = state := by
  have admits : poolCollectAdmittedSpawns state.maxLiveFibers state.residentCount
      state.pendingSpawns = ([], state.residentCount, state.pendingSpawns) := by
    cases waiting : state.pendingSpawns with
    | nil => rfl
    | cons req rest =>
      rw [poolCollectAdmittedSpawns, if_pos (none (by simp [waiting]))]
  have hands : update state.hands thread [] = state.hands := by
    rw [← idle, update_eq_self]
  simp only [State.collect, admits, hands, List.foldl_nil]

/-- A cap that has just been left is reached again with one request. -/
theorem State.collect_one (state : State) (thread : Thread)
    (waiting : state.pendingSpawns = req :: rest)
    (exact : state.residentCount + 1 = state.maxLiveFibers) :
    state.collect thread = state.admitNext thread req rest := by
  have left : poolSpawnCapReached state.maxLiveFibers state.residentCount = false := by
    rw [Bool.eq_false_iff, Ne, poolSpawnCapReached_iff]
    omega
  have again : poolSpawnCapReached state.maxLiveFibers (state.residentCount + 1) = true := by
    rw [poolSpawnCapReached_iff]
    omega
  have admits : poolCollectAdmittedSpawns state.maxLiveFibers state.residentCount
      state.pendingSpawns = ([req], state.residentCount + 1, rest) := by
    rw [waiting, poolCollectAdmittedSpawns, if_neg (by simp [left])]
    cases rest with
    | nil => rfl
    | cons => rw [poolCollectAdmittedSpawns, if_pos again]
  simp only [State.collect, admits, State.admitNext, List.foldl_cons, List.foldl_nil]

theorem step_changes (throttled : Throttled state)
    (resident : ∀ spawn, state.place spawn = .posted → 0 < state.residentCount)
    (stepped : step state label = some after) : Changes state label after := by
  cases label with
  | submit thread homeWorkerIdx =>
    simp only [step, poolSubmitSpawn] at stepped
    split at stepped
    · rename_i idle
      split at stepped
      · rename_i fast
        cases stepped
        refine .accept thread homeWorkerIdx idle fun waiting => ?_
        simpa [waiting] using fast
      · rename_i slow
        simp only [Bool.or_eq_true, Bool.and_eq_true, List.isEmpty_iff, Bool.not_eq_true',
          not_or, not_and, Bool.not_eq_false] at slow
        have reached : state.maxLiveFibers ≠ 0 ∧ state.maxLiveFibers ≤ state.residentCount := by
          by_cases none : state.pendingSpawns = []
          · exact (poolSpawnCapReached_iff _ _).mp (slow.2 none)
          · exact throttled none
        rw [State.collect_none] at stepped
        · cases stepped
          exact .defer thread homeWorkerIdx reached.1 reached.2
        · exact idle
        · intro _
          exact (poolSpawnCapReached_iff _ _).mpr reached
    · cases stepped
  | dispatch thread =>
    simp only [step, poolDispatchSpawn] at stepped
    split at stepped
    · cases stepped
    · rename_i req rest held
      cases stepped
      exact .dispatch thread req rest held
  | fiberDead worker spawn =>
    obtain ⟨enabled, rfl⟩ := guarded stepped
    obtain ⟨idle, running⟩ := enabled
    have positive := resident spawn running
    have fewer : (state.uncount spawn).residentCount + 1 = state.residentCount := by
      simp only [State.uncount, if_pos positive]
      omega
    by_cases still : state.pendingSpawns = [] ∨ state.maxLiveFibers < state.residentCount
    · rw [State.collect_none]
      · refine .finish worker spawn running fun waiting => ?_
        exact still.resolve_left waiting
      · exact idle
      · intro waiting
        have capped := throttled waiting
        have above := still.resolve_left waiting
        have same : (state.uncount spawn).maxLiveFibers = state.maxLiveFibers := rfl
        rw [poolSpawnCapReached_iff]
        omega
    · simp only [not_or] at still
      obtain ⟨waiting, notAbove⟩ := still
      have capped := throttled waiting
      obtain ⟨req, rest, pending⟩ := List.exists_cons_of_ne_nil waiting
      rw [State.collect_one (state.uncount spawn) (.worker worker) pending]
      · exact .replace worker spawn req rest idle running pending capped.1 (by omega)
      · have same : (state.uncount spawn).maxLiveFibers = state.maxLiveFibers := rfl
        omega
  | drained =>
    obtain ⟨done, rfl⟩ := guarded stepped
    exact .drained done

def Place.live : Place → Nat
  | .absent | .finished => 0
  | .deferred | .admitted _ | .posted => 1

def Place.resident : Place → Nat
  | .admitted _ | .posted => 1
  | _ => 0

def Place.waits : Place → Nat
  | .deferred => 1
  | _ => 0

def Place.dispatched : Place → Bool
  | .posted | .finished => true
  | _ => false

def occurrences (reqs : List SpawnReq) (spawn : SpawnId) : Nat :=
  (reqs.map SpawnReq.spawn).count spawn

@[simp] theorem occurrences_cons (req : SpawnReq) (reqs : List SpawnReq) (spawn : SpawnId) :
    occurrences (req :: reqs) spawn =
      occurrences reqs spawn + if req.spawn = spawn then 1 else 0 := by
  simp [occurrences, List.count_cons]

@[simp] theorem occurrences_append (first second : List SpawnReq) (spawn : SpawnId) :
    occurrences (first ++ second) spawn = occurrences first spawn + occurrences second spawn := by
  simp [occurrences]

theorem occurrences_pos (member : req ∈ reqs) :
    0 < occurrences reqs req.spawn :=
  List.count_pos_iff.mpr (List.mem_map_of_mem member)

/-- The requests name, once each, the spawns at places of one kind. -/
def Names (reqs : List SpawnReq) (place : SpawnId → Place) (kind : Place → Bool) : Prop :=
  ∀ spawn, occurrences reqs spawn = (kind (place spawn)).toNat

section

variable {reqs next : List SpawnReq} {place : SpawnId → Place} {kind : Place → Bool}
  {spawn : SpawnId} {target : Place}

theorem Names.kind_of_mem (names : Names reqs place kind) (member : req ∈ reqs) :
    kind (place req.spawn) = true := by
  have positive := occurrences_pos member
  rw [names req.spawn] at positive
  cases holds : kind (place req.spawn) with
  | true => rfl
  | false => simp [holds] at positive

theorem Names.move (names : Names reqs place kind)
    (others : ∀ other, other ≠ spawn → occurrences next other = occurrences reqs other)
    (own : occurrences next spawn = (kind target).toNat) :
    Names next (update place spawn target) kind := by
  intro other
  by_cases same : other = spawn
  · rw [same, own, update_self]
  · rw [update_of_ne same, others other same]
    exact names other

theorem Names.stay (names : Names reqs place kind) (alike : kind target = kind (place spawn)) :
    Names reqs (update place spawn target) kind :=
  names.move (fun _ _ => rfl) (by rw [names spawn, alike])

theorem Names.leave (names : Names (req :: next) place kind) (gone : kind target = false) :
    Names next (update place req.spawn target) kind := by
  apply names.move
  · intro other different
    rw [occurrences_cons, if_neg (Ne.symm different), Nat.add_zero]
  · have once := names req.spawn
    rw [names.kind_of_mem List.mem_cons_self, occurrences_cons, if_pos rfl] at once
    rw [gone]
    exact Nat.succ.inj once

theorem Names.arrive (req : SpawnReq) (names : Names reqs place kind)
    (absent : kind (place req.spawn) = false) (here : kind target = true) :
    Names (reqs ++ [req]) (update place req.spawn target) kind := by
  apply names.move
  · intro other different
    rw [occurrences_append, occurrences_cons, if_neg (Ne.symm different)]
    rfl
  · rw [occurrences_append, occurrences_cons, if_pos rfl, names req.spawn, absent, here]
    rfl

end

def Place.isDeferred (place : Place) : Bool :=
  place == .deferred

def Place.heldBy (thread : Thread) (place : Place) : Bool :=
  place == .admitted thread

/-- The lists name each spawn where it is and nowhere else, and the counters
count them. -/
structure Located (state : State) : Prop where
  pending : Names state.pendingSpawns state.place Place.isDeferred
  hand : ∀ thread, Names (state.hands thread) state.place (Place.heldBy thread)
  posted : Names state.posts state.place Place.dispatched
  absent : ∀ spawn, state.place spawn = .absent ↔ state.accepted ≤ spawn
  live : state.liveCount = tally Place.live state.place state.accepted
  resident : state.residentCount = tally Place.resident state.place state.accepted
  waiting : state.pendingSpawns.length = tally Place.waits state.place state.accepted

theorem located_initial (maxLiveFibers : Nat) : Located { maxLiveFibers } where
  pending _ := rfl
  hand _ _ := rfl
  posted _ := rfl
  absent := by simp
  live := rfl
  resident := rfl
  waiting := rfl

variable {state after : State} {label : Label}

section

variable (located : Located state)
include located

theorem Located.pending_place
    (member : req ∈ state.pendingSpawns) : state.place req.spawn = .deferred :=
  eq_of_beq (located.pending.kind_of_mem member)

theorem Located.hand_place
    (member : req ∈ state.hands thread) : state.place req.spawn = .admitted thread :=
  eq_of_beq ((located.hand thread).kind_of_mem member)

theorem Located.accepted_of_place {spawn : SpawnId} {place : Place}
    (there : state.place spawn = place) (known : place ≠ .absent) : spawn < state.accepted := by
  by_contra beyond
  exact known (there.symm.trans ((located.absent spawn).mpr (Nat.le_of_not_lt beyond)))

theorem Located.resident_pos {spawn : SpawnId}
    (running : state.place spawn = .posted) : 0 < state.residentCount := by
  have within := located.accepted_of_place running (by decide)
  have counted : (state.place spawn).resident ≤
      tally Place.resident state.place state.accepted := le_tally within
  rw [running, ← located.resident] at counted
  exact counted

theorem Located.tally_move (measure : Place → Nat) (place : Place)
    (known : state.place spawn ≠ .absent) :
    tally measure (update state.place spawn place) state.accepted +
      measure (state.place spawn) = tally measure state.place state.accepted + measure place :=
  tally_update (located.accepted_of_place rfl known)

end

theorem tally_accept (measure : Place → Nat) (state : State) (place : Place) :
    tally measure (update state.place state.accepted place) (state.accepted + 1) =
      tally measure state.place state.accepted + measure place := by
  rw [tally_succ, update_self, tally_update_beyond (Nat.le_refl _)]

theorem Located.absent_move (located : Located state) {spawn : SpawnId} {place : Place}
    (known : state.place spawn ≠ .absent) (present : place ≠ .absent) (other : SpawnId) :
    update state.place spawn place other = .absent ↔ state.accepted ≤ other := by
  by_cases same : other = spawn
  · subst same
    simp only [update_self, present, false_iff]
    exact Nat.not_le.mpr (located.accepted_of_place rfl known)
  · rw [update_of_ne same]
    exact located.absent other

theorem Located.absent_accept (located : Located state) {place : Place} (present : place ≠ .absent)
    (other : SpawnId) :
    update state.place state.accepted place other = .absent ↔
      state.accepted + 1 ≤ other := by
  by_cases same : other = state.accepted
  · subst same
    simp only [update_self, present, false_iff]
    exact Nat.not_succ_le_self _
  · rw [update_of_ne same, located.absent other]
    exact ⟨fun le => Nat.lt_of_le_of_ne le (Ne.symm same), Nat.le_of_succ_le⟩

theorem Located.hand_move (located : Located state)
    (own : Names reqs (update state.place spawn target) (Place.heldBy thread))
    (others : ∀ other, other ≠ thread →
      Place.heldBy other target = Place.heldBy other (state.place spawn)) (other : Thread) :
    Names (update state.hands thread reqs other)
      (update state.place spawn target) (Place.heldBy other) := by
  by_cases same : other = thread
  · subst same
    rwa [update_self]
  · rw [update_of_ne same]
    exact (located.hand other).stay (others other same)

theorem heldBy_other (different : other ≠ thread) :
    Place.heldBy other (.admitted thread) = false := by
  simpa [Place.heldBy] using Ne.symm different

theorem heldBy_self (thread : Thread) : Place.heldBy thread (.admitted thread) = true := by
  simp [Place.heldBy]

section

variable (located : Located state)
include located

theorem Located.hand_take
    (idle : state.hands thread = []) (free : ∀ other, Place.heldBy other (state.place req.spawn) = false)
    (other : Thread) :
    Names (update state.hands thread [req] other)
      (update state.place req.spawn (.admitted thread)) (Place.heldBy other) := by
  apply located.hand_move
  · have none := located.hand thread
    rw [idle] at none
    exact none.arrive req (free thread) (heldBy_self thread)
  · intro other different
    rw [heldBy_other different, free other]

theorem Located.accept (thread : Thread) (homeWorkerIdx : Option Nat)
    (idle : state.hands thread = []) :
    Located (state.acceptFast thread { spawn := state.accepted, homeWorkerIdx }) := by
  have absent := (located.absent state.accepted).mpr (Nat.le_refl _)
  exact {
    pending := located.pending.stay (by rw [absent]; rfl)
    hand := located.hand_take idle (fun _ => by rw [absent]; rfl)
    posted := located.posted.stay (by rw [absent]; rfl)
    absent := located.absent_accept (by simp)
    live := (congrArg Nat.succ located.live).trans
      (tally_accept Place.live state (.admitted thread)).symm
    resident := (congrArg Nat.succ located.resident).trans
      (tally_accept Place.resident state (.admitted thread)).symm
    waiting := located.waiting.trans (tally_accept Place.waits state (.admitted thread)).symm }

theorem Located.defer (homeWorkerIdx : Option Nat) :
    Located (state.acceptDeferred { spawn := state.accepted, homeWorkerIdx }) := by
  have absent := (located.absent state.accepted).mpr (Nat.le_refl _)
  exact {
    pending := located.pending.arrive { spawn := state.accepted, homeWorkerIdx }
      (by rw [absent]; rfl) rfl
    hand := fun thread => (located.hand thread).stay (by rw [absent]; rfl)
    posted := located.posted.stay (by rw [absent]; rfl)
    absent := located.absent_accept (by decide)
    live := (congrArg Nat.succ located.live).trans (tally_accept Place.live state .deferred).symm
    resident := located.resident.trans (tally_accept Place.resident state .deferred).symm
    waiting := List.length_append.trans
      ((congrArg (· + 1) located.waiting).trans (tally_accept Place.waits state .deferred).symm) }

theorem Located.dispatch (held : state.hands thread = req :: rest) :
    Located (state.post thread req rest) := by
  have place := located.hand_place (held ▸ List.mem_cons_self)
  have known : state.place req.spawn ≠ .absent := by simp [place]
  have move := fun measure => located.tally_move measure .posted known
  simp only [place] at move
  exact {
    pending := located.pending.stay (by rw [place]; rfl)
    hand := by
      apply located.hand_move
      · have own := located.hand thread
        rw [held] at own
        exact own.leave rfl
      · intro other different
        rw [place, heldBy_other different]
        rfl
    posted := located.posted.arrive req (by rw [place]; rfl) rfl
    absent := located.absent_move known (by decide)
    live := located.live.trans (Nat.add_right_cancel (move Place.live)).symm
    resident := located.resident.trans (Nat.add_right_cancel (move Place.resident)).symm
    waiting := located.waiting.trans (Nat.add_right_cancel (move Place.waits)).symm }

theorem Located.finish (running : state.place spawn = .posted) : Located (state.uncount spawn) := by
  have known : state.place spawn ≠ .absent := by simp [running]
  have positive := located.resident_pos running
  have move := fun measure => located.tally_move measure .finished known
  simp only [running] at move
  exact {
    pending := located.pending.stay (by rw [running]; rfl)
    hand := fun thread => (located.hand thread).stay (by rw [running]; rfl)
    posted := located.posted.stay (by rw [running]; rfl)
    absent := located.absent_move known (by decide)
    live := by
      have moved := move Place.live
      simp only [Place.live, Nat.add_zero] at moved
      rw [State.uncount, located.live]
      exact Nat.sub_eq_of_eq_add moved.symm
    resident := by
      have moved := move Place.resident
      simp only [Place.resident, Nat.add_zero] at moved
      simp only [State.uncount, if_pos positive]
      rw [located.resident]
      exact Nat.sub_eq_of_eq_add moved.symm
    waiting := located.waiting.trans (Nat.add_right_cancel (move Place.waits)).symm }

theorem Located.admitNext (idle : state.hands thread = [])
    (pending : state.pendingSpawns = req :: rest) : Located (state.admitNext thread req rest) := by
  have place := located.pending_place (pending ▸ List.mem_cons_self)
  have known : state.place req.spawn ≠ .absent := by simp [place]
  have move := fun measure =>
    located.tally_move measure (.admitted thread) known
  simp only [place] at move
  exact {
    pending := by
      have own := located.pending
      rw [pending] at own
      exact own.leave rfl
    hand := located.hand_take idle (fun _ => by rw [place]; rfl)
    posted := located.posted.stay (by rw [place]; rfl)
    absent := located.absent_move known (by simp)
    live := located.live.trans (Nat.add_right_cancel (move Place.live)).symm
    resident := (congrArg Nat.succ located.resident).trans (move Place.resident).symm
    waiting := by
      have moved := move Place.waits
      have length := located.waiting
      rw [pending] at length
      exact Nat.succ.inj (length.trans moved.symm) }

end

structure Core (state : State) : Prop extends Located state where
  throttled : Throttled state

theorem Core.changed (core : Core state) (changes : Changes state label after) : Core after := by
  cases changes with
  | accept thread homeWorkerIdx idle =>
    refine ⟨core.toLocated.accept thread homeWorkerIdx idle, fun waiting => ?_⟩
    obtain ⟨capped, reached⟩ := core.throttled waiting
    exact ⟨capped, Nat.le_succ_of_le reached⟩
  | defer thread homeWorkerIdx capped reached =>
    exact ⟨core.toLocated.defer homeWorkerIdx, fun _ => ⟨capped, reached⟩⟩
  | dispatch thread req rest held => exact ⟨core.toLocated.dispatch held, core.throttled⟩
  | finish worker spawn running still =>
    refine ⟨core.toLocated.finish running, fun waiting => ?_⟩
    have above := still waiting
    refine ⟨(core.throttled waiting).1, ?_⟩
    simp only [State.uncount, if_pos (core.resident_pos running)]
    omega
  | replace worker spawn req rest idle running waiting capped exact =>
    refine ⟨(core.toLocated.finish running).admitNext idle waiting, fun _ => ⟨capped, ?_⟩⟩
    simp only [State.admitNext, State.uncount, if_pos (core.resident_pos running)]
    omega
  | drained => exact ⟨{ core with }, core.throttled⟩

theorem Core.stepped (core : Core state) (stepped : step state label = some after) :
    Changes state label after :=
  step_changes core.throttled (fun _ running => core.resident_pos running) stepped

theorem core_reachable (reachable : system.Reachable state) : Core state := by
  apply reachable.invariant
  · intro start initial
    obtain ⟨maxLiveFibers, rfl⟩ := initial
    exact ⟨located_initial maxLiveFibers, fun waiting => absurd rfl waiting⟩
  · intro before label after core stepped
    exact core.changed (core.stepped stepped)

/-- Waiting spawns stand in the order of their submission, behind all deferred
ones that wait no longer. -/
structure Queued (state : State) : Prop where
  sorted : (state.pendingSpawns.map SpawnReq.spawn).Pairwise (· < ·)
  marked : ∀ req ∈ state.pendingSpawns, state.deferred req.spawn = true
  front : ∀ spawn, state.deferred spawn = true → state.place spawn ≠ .deferred →
    ∀ req ∈ state.pendingSpawns, spawn < req.spawn
  known : ∀ spawn, state.deferred spawn = true → spawn < state.accepted

/-- A spawn that did not wait before another one moved does not wait. -/
theorem away_of_update {place : SpawnId → Place} {moved spawn : SpawnId} {target : Place}
    (before : place moved ≠ .deferred)
    (away : update place moved target spawn ≠ .deferred) : place spawn ≠ .deferred := by
  by_cases same : spawn = moved
  · rwa [same]
  · rwa [update_of_ne same] at away

theorem Queued.changed (queued : Queued state) (core : Core state)
    (changes : Changes state label after) : Queued after := by
  have earlier : ∀ req ∈ state.pendingSpawns, req.spawn < state.accepted := fun req member =>
    core.accepted_of_place (core.pending_place member) (by decide)
  cases changes with
  | accept thread homeWorkerIdx idle =>
    have absent := (core.absent state.accepted).mpr (Nat.le_refl _)
    refine ⟨queued.sorted, queued.marked, fun spawn marked away => ?_, fun spawn marked => ?_⟩
    · exact queued.front spawn marked (away_of_update (by simp [absent]) away)
    · exact Nat.lt_succ_of_lt (queued.known spawn marked)
  | defer thread homeWorkerIdx =>
    refine ⟨?_, ?_, ?_, ?_⟩
    · simp only [State.acceptDeferred, List.map_append, List.map_cons, List.map_nil,
        List.pairwise_append, List.mem_singleton]
      refine ⟨queued.sorted, List.pairwise_singleton _ _, ?_⟩
      intro spawn member last same
      obtain ⟨req, inside, rfl⟩ := List.mem_map.mp member
      exact same ▸ earlier req inside
    · intro req member
      rcases List.mem_append.mp member with old | new
      · simp only [State.acceptDeferred,
          update_of_ne (Nat.ne_of_lt (earlier req old))]
        exact queued.marked req old
      · rw [List.mem_singleton.mp new]
        exact update_self _ _ _
    · intro spawn marked away req member
      by_cases same : spawn = state.accepted
      · exact absurd (by simp [State.acceptDeferred, same]) away
      · simp only [State.acceptDeferred, update_of_ne same] at marked away
        rcases List.mem_append.mp member with old | new
        · exact queued.front spawn marked away req old
        · rw [List.mem_singleton.mp new]
          exact queued.known spawn marked
    · intro spawn marked
      by_cases same : spawn = state.accepted
      · rw [same]
        exact Nat.lt_succ_self _
      · simp only [State.acceptDeferred, update_of_ne same] at marked
        exact Nat.lt_succ_of_lt (queued.known spawn marked)
  | dispatch thread req rest held =>
    have place := core.hand_place (held ▸ List.mem_cons_self)
    refine ⟨queued.sorted, queued.marked, fun spawn marked away => ?_, queued.known⟩
    exact queued.front spawn marked (away_of_update (by simp [place]) away)
  | finish worker spawn running =>
    refine ⟨queued.sorted, queued.marked, fun other marked away => ?_, queued.known⟩
    exact queued.front other marked (away_of_update (by simp [running]) away)
  | replace worker spawn req rest idle running waiting =>
    have sorted := queued.sorted
    rw [waiting, List.map_cons, List.pairwise_cons] at sorted
    have inside : ∀ other ∈ rest, other ∈ state.pendingSpawns := fun other member => by
      simp [waiting, member]
    refine ⟨sorted.2, fun other member => queued.marked other (inside other member),
      fun other marked away next member => ?_, queued.known⟩
    by_cases same : other = req.spawn
    · exact same ▸ sorted.1 _ (List.mem_map_of_mem member)
    · simp only [State.admitNext, State.uncount, update_of_ne same] at away
      exact queued.front other marked (away_of_update (by simp [running]) away) next
        (inside next member)
  | drained => exact { queued with }

/-- A worker whose fiber ends while spawns wait finds every deferred spawn
waiting or dispatched. -/
def Orderly (state : State) : Label → Prop
  | .fiberDead _ _ => state.pendingSpawns = [] ∨ ∀ spawn < state.accepted,
      state.deferred spawn = true → spawn ∈ state.pendingSpawns.map SpawnReq.spawn ∨
        spawn ∈ state.posts.map SpawnReq.spawn
  | _ => True

instance (state : State) (label : Label) : Decidable (Orderly state label) := by
  cases label <;> unfold Orderly <;> infer_instance

def State.deferredPosts (state : State) : List SpawnId :=
  (state.posts.map SpawnReq.spawn).filter state.deferred

/-- The spawn is on its way from the list of waiting spawns to a worker. -/
def State.Moving (state : State) (spawn : SpawnId) : Prop :=
  (∃ thread, state.place spawn = .admitted thread) ∧ state.deferred spawn = true

/-- The deferred spawns are dispatched in order, and at most one is moving. -/
structure Sequenced (state : State) : Prop where
  sorted : state.deferredPosts.Pairwise (· < ·)
  last : ∀ spawn, state.Moving spawn → ∀ other ∈ state.deferredPosts, other < spawn
  single : ∀ first second, state.Moving first → state.Moving second → first = second

/-- Nothing is dispatched and no spawn starts to move. -/
theorem Sequenced.fewer (sequenced : Sequenced state)
    (posts : after.deferredPosts = state.deferredPosts)
    (moving : ∀ spawn, after.Moving spawn → state.Moving spawn) : Sequenced after where
  sorted := posts ▸ sequenced.sorted
  last spawn moves := posts ▸ sequenced.last spawn (moving spawn moves)
  single first second moves also :=
    sequenced.single first second (moving first moves) (moving second also)

theorem Core.posted_place (core : Core state) (member : spawn ∈ state.posts.map SpawnReq.spawn) :
    (state.place spawn).dispatched = true := by
  obtain ⟨req, inside, rfl⟩ := List.mem_map.mp member
  exact core.posted.kind_of_mem inside

theorem mem_deferredPosts : spawn ∈ state.deferredPosts ↔
    spawn ∈ state.posts.map SpawnReq.spawn ∧ state.deferred spawn = true :=
  List.mem_filter

theorem Sequenced.changed (sequenced : Sequenced state) (core : Core state)
    (queued : Queued state) (orderly : Orderly state label)
    (changes : Changes state label after) : Sequenced after := by
  cases changes with
  | accept thread homeWorkerIdx idle =>
    refine sequenced.fewer rfl fun spawn moves => ?_
    obtain ⟨⟨holder, place⟩, marked⟩ := moves
    have different := Nat.ne_of_lt (queued.known spawn marked)
    simp only [State.acceptFast, update_of_ne different] at place
    exact ⟨⟨holder, place⟩, marked⟩
  | defer thread homeWorkerIdx =>
    have unmarked : ∀ spawn ∈ state.posts.map SpawnReq.spawn, spawn ≠ state.accepted := by
      intro spawn member same
      have place := core.posted_place member
      rw [same, (core.absent _).mpr (Nat.le_refl _)] at place
      cases place
    apply sequenced.fewer
    · apply List.filter_congr
      intro spawn member
      exact update_of_ne (unmarked spawn member) _ _
    · intro spawn moves
      obtain ⟨⟨holder, place⟩, marked⟩ := moves
      by_cases same : spawn = state.accepted
      · simp [State.acceptDeferred, same] at place
      · simp only [State.acceptDeferred, update_of_ne same] at place marked
        exact ⟨⟨holder, place⟩, marked⟩
  | dispatch thread req rest held =>
    have place := core.hand_place (held ▸ List.mem_cons_self)
    have fewer : ∀ spawn, (state.post thread req rest).Moving spawn →
        spawn ≠ req.spawn ∧ state.Moving spawn := by
      intro spawn moves
      obtain ⟨⟨holder, admitted⟩, marked⟩ := moves
      have different : spawn ≠ req.spawn := by
        intro same
        simp [State.post, same] at admitted
      simp only [State.post, update_of_ne different] at admitted
      exact ⟨different, ⟨holder, admitted⟩, marked⟩
    cases marked : state.deferred req.spawn with
    | false =>
      apply sequenced.fewer
      · simp [State.deferredPosts, State.post, marked]
      · exact fun spawn moves => (fewer spawn moves).2
    | true =>
      have moving : state.Moving req.spawn := ⟨⟨thread, place⟩, marked⟩
      have none : ∀ spawn, ¬ (state.post thread req rest).Moving spawn := by
        intro spawn moves
        obtain ⟨different, also⟩ := fewer spawn moves
        exact different (sequenced.single spawn req.spawn also moving)
      refine ⟨?_, fun spawn moves => absurd moves (none spawn),
        fun first _ moves _ => absurd moves (none first)⟩
      have posts : (state.post thread req rest).deferredPosts =
          state.deferredPosts ++ [req.spawn] := by
        simp [State.deferredPosts, State.post, marked]
      rw [posts, List.pairwise_append]
      refine ⟨sequenced.sorted, List.pairwise_singleton _ _, ?_⟩
      intro other member last same
      rw [List.mem_singleton.mp same]
      exact sequenced.last req.spawn moving other member
  | finish worker spawn running =>
    refine sequenced.fewer rfl fun other moves => ?_
    obtain ⟨⟨holder, place⟩, marked⟩ := moves
    have different : other ≠ spawn := by
      intro same
      simp [State.uncount, same] at place
    simp only [State.uncount, update_of_ne different] at place
    exact ⟨⟨holder, place⟩, marked⟩
  | replace worker spawn req rest idle running waiting =>
    have settled : ∀ other, ¬ state.Moving other := by
      intro other moves
      obtain ⟨⟨holder, place⟩, marked⟩ := moves
      rcases orderly with none | all
      · simp [waiting] at none
      · rcases all other (queued.known other marked) marked with wait | posted
        · obtain ⟨next, member, same⟩ := List.mem_map.mp wait
          have deferred := core.pending_place member
          rw [same, place] at deferred
          cases deferred
        · have dispatched := core.posted_place posted
          rw [place] at dispatched
          cases dispatched
    have only : ∀ other, ((state.uncount spawn).admitNext (.worker worker) req rest).Moving other →
        other = req.spawn := by
      intro other moves
      by_contra different
      obtain ⟨⟨holder, place⟩, marked⟩ := moves
      simp only [State.admitNext, State.uncount, update_of_ne different] at place
      by_cases same : other = spawn
      · simp [same] at place
      · rw [update_of_ne same] at place
        exact settled other ⟨⟨holder, place⟩, marked⟩
    refine ⟨sequenced.sorted, fun other moves posted member => ?_, fun first second moves also => ?_⟩
    · rw [only other moves]
      obtain ⟨inside, marked⟩ := mem_deferredPosts.mp member
      refine queued.front posted marked ?_ req (by simp [waiting])
      intro deferred
      have dispatched := core.posted_place inside
      rw [deferred] at dispatched
      cases dispatched
    · rw [only first moves, only second also]
  | drained => exact sequenced.fewer rfl fun _ moves => moves

/-- Live spawns are the resident and the waiting ones. -/
theorem Located.counted (located : Located state) :
    state.liveCount = state.residentCount + state.pendingSpawns.length := by
  rw [located.live, located.resident, located.waiting]
  unfold tally
  rw [← Finset.sum_add_distrib]
  apply Finset.sum_congr rfl
  intro spawn _
  cases state.place spawn <;> rfl

/-- Nothing is live when all counters are down. -/
theorem Located.finished (located : Located state) (none : state.liveCount = 0)
    (accepted : spawn < state.accepted) : state.place spawn = .finished := by
  have counted : (state.place spawn).live ≤ tally Place.live state.place state.accepted :=
    le_tally accepted
  rw [← located.live, none] at counted
  have known : state.place spawn ≠ .absent := fun absent =>
    absurd ((located.absent spawn).mp absent) (Nat.not_le.mpr accepted)
  cases place : state.place spawn with
  | finished => rfl
  | absent => exact absurd place known
  | deferred | admitted | posted => simp [place, Place.live] at counted

/-- What holds of the spawns of a pool in every state. -/
structure Accounted (state : State) : Prop where
  counted : state.liveCount = state.residentCount + state.pendingSpawns.length
  throttled : state.pendingSpawns ≠ [] →
    state.maxLiveFibers ≠ 0 ∧ state.maxLiveFibers ≤ state.residentCount
  /-- An accepted spawn waits, is about to be dispatched by one thread, or has
  been dispatched once, and only one of these. -/
  once : ∀ spawn < state.accepted,
    (occurrences state.pendingSpawns spawn = 1 ∧ (∀ thread, occurrences (state.hands thread) spawn = 0) ∧
      occurrences state.posts spawn = 0) ∨
    (occurrences state.pendingSpawns spawn = 0 ∧
      (∃ thread, occurrences (state.hands thread) spawn = 1 ∧
        ∀ other, other ≠ thread → occurrences (state.hands other) spawn = 0) ∧
      occurrences state.posts spawn = 0) ∨
    (occurrences state.pendingSpawns spawn = 0 ∧ (∀ thread, occurrences (state.hands thread) spawn = 0) ∧
      occurrences state.posts spawn = 1)
  /-- No accepted spawn is left behind once the dispatched ones have ended. -/
  complete : (∀ thread, state.hands thread = []) →
    (∀ spawn, state.place spawn ≠ .posted) → ∀ spawn < state.accepted, occurrences state.posts spawn = 1
  drained : ∀ next, step state .drained = some next → ∀ spawn < state.accepted,
    state.place spawn = .finished ∧ occurrences state.posts spawn = 1

theorem Core.accounted (core : Core state) : Accounted state where
  counted := core.toLocated.counted
  throttled := core.throttled
  once := by
    intro spawn accepted
    have pending := core.pending spawn
    have hand := fun thread => core.hand thread spawn
    have posted := core.posted spawn
    cases place : state.place spawn with
    | absent => exact absurd ((core.absent spawn).mp place) (Nat.not_le.mpr accepted)
    | deferred =>
      simp only [place] at pending hand posted
      exact .inl ⟨pending, hand, posted⟩
    | admitted thread =>
      simp only [place] at pending hand posted
      refine .inr (.inl ⟨pending, ⟨thread, ?_, fun other different => ?_⟩, posted⟩)
      · rw [hand thread, heldBy_self]
        rfl
      · rw [hand other, heldBy_other different]
        rfl
    | posted | finished =>
      simp only [place] at pending hand posted
      exact .inr (.inr ⟨pending, hand, posted⟩)
  complete := by
    intro idle ended spawn accepted
    have none : state.residentCount = 0 := by
      rw [core.resident]
      unfold tally
      apply Finset.sum_eq_zero
      intro other _
      cases place : state.place other with
      | admitted thread =>
        have held := core.hand thread other
        rw [idle thread, place, heldBy_self] at held
        cases held
      | posted => exact absurd place (ended other)
      | absent | deferred | finished => rfl
    have waiting : state.pendingSpawns = [] := by
      by_contra some
      obtain ⟨capped, reached⟩ := core.throttled some
      omega
    have live := core.toLocated.counted
    rw [none, waiting] at live
    rw [core.posted spawn, core.toLocated.finished live accepted]
    rfl
  drained := by
    intro next stepped spawn accepted
    cases core.stepped stepped with
    | drained none =>
      have finished := core.toLocated.finished none accepted
      refine ⟨finished, ?_⟩
      rw [core.posted spawn, finished]
      rfl

/-- The counters and the places of spawns agree in every run; the deferred
spawns are dispatched in the order of their submission in every orderly one. -/
theorem spawns_accounted (state : State) : (system.Reachable state → Accounted state) ∧
      (system.ReachableWith Orderly state → state.deferredPosts.Pairwise (· < ·)) := by
  constructor
  · intro reachable
    exact (core_reachable reachable).accounted
  · intro reachable
    have all : Core state ∧ Queued state ∧ Sequenced state := by
      apply reachable.invariant
      · intro start initial
        obtain ⟨maxLiveFibers, rfl⟩ := initial
        refine ⟨⟨located_initial maxLiveFibers, fun waiting => absurd rfl waiting⟩, ?_, ?_⟩
        · constructor <;> simp
        · constructor <;> simp [State.deferredPosts, State.Moving]
      · intro before label after holds orderly stepped
        obtain ⟨core, queued, sequenced⟩ := holds
        have changes := core.stepped stepped
        exact ⟨core.changed changes, queued.changed core changes,
          sequenced.changed core queued orderly changes⟩
    exact all.2.2.sorted

/-- Two fibers run under a cap of two, and two more spawns wait. -/
def fullPool : List Label :=
  [.submit (.external 0) none, .dispatch (.external 0), .submit (.external 0) none,
    .dispatch (.external 0), .submit (.external 0) none, .submit (.external 0) (some 1)]

/-- Both fibers end, and each worker dispatches what it has admitted at once. -/
def promptRun : List Label :=
  fullPool ++ [.fiberDead 0 0, .dispatch (.worker 0), .fiberDead 1 1, .dispatch (.worker 1)]

/-- The second worker is faster than the first. -/
def overtakingRun : List Label :=
  fullPool ++ [.fiberDead 0 0, .fiberDead 1 1, .dispatch (.worker 1), .dispatch (.worker 0)]

theorem promptRun_accounted : ∃ state, system.runWith Orderly { maxLiveFibers := 2 } promptRun =
    some state ∧ Accounted state ∧ state.deferredPosts.Pairwise (· < ·) :=
  have reachable := .of_run system Orderly promptRun ⟨2, rfl⟩ rfl
  ⟨_, rfl, (spawns_accounted _).1 reachable.reachable, (spawns_accounted _).2 reachable⟩

theorem deferred_spawn_overtaken : ∃ state, system.run { maxLiveFibers := 2 } overtakingRun =
    some state ∧ system.Reachable state ∧ state.deferredPosts = [3, 2] :=
  ⟨_, rfl, .of_run system overtakingRun ⟨2, rfl⟩ rfl, rfl⟩

end Libgoc.Pool.Admission
