import Libgoc.GocDict.Refinement

namespace Libgoc.GocDict

open Libgoc.Data Libgoc.Semantics Function

/-! # Runs on dictionaries -/

structure Spec {κ τ : Type} (text : κ → τ) (ν : Type) where
  maps : DictId → Option (OrderedMap text ν)
  fresh : DictId

namespace Spec

variable {κ τ ν : Type} [DecidableEq τ] {text : κ → τ}

def initial : Spec text ν where
  maps := fun _ => none
  fresh := 0

def put (spec : Spec text ν) (d : DictId) (map : OrderedMap text ν) : Spec text ν :=
  { spec with maps := update spec.maps d (some map) }

def create (spec : Spec text ν) (map : OrderedMap text ν) : Spec text ν :=
  { spec.put spec.fresh map with fresh := spec.fresh + 1 }

def exec (spec : Spec text ν) : Label κ ν → Option (Spec text ν × Answer κ ν)
  | .make _ => some (spec.create .empty, .dict spec.fresh)
  | .copy d => (spec.maps d).map fun map => (spec.create map, .dict spec.fresh)
  | .set d key val => (spec.maps d).map fun map => (spec.put d (map.set key val), .nothing)
  | .pop d key notFound => (spec.maps d).map fun map =>
    (spec.put d (map.erase key), .value ((map.get? key).getD notFound))
  | .get d key notFound => (spec.maps d).map fun map =>
    (spec, .value ((map.get? key).getD notFound))
  | .contains d key => (spec.maps d).map fun map => (spec, .flag (map.get? key).isSome)
  | .len d => (spec.maps d).map fun map => (spec, .number map.entries.length)
  | .entries d => (spec.maps d).map fun map => (spec, .entries map.entries)
  | .keys d => (spec.maps d).map fun map => (spec, .keys (map.entries.map Prod.fst))
  | .vals d => (spec.maps d).map fun map => (spec, .vals (map.entries.map Prod.snd))

def run (spec : Spec text ν) : List (Label κ ν) → Option (Spec text ν × List (Answer κ ν))
  | [] => some (spec, [])
  | label :: rest =>
    (spec.exec label).bind fun done =>
      (run done.1 rest).map fun later => (later.1, done.2 :: later.2)

end Spec

section

variable {κ τ ν : Type} [DecidableEq κ] [DecidableEq τ] [Inhabited ν] {text : κ → τ}
  {hash : τ → Nat} {state after : State κ ν} {spec : Spec text ν} {label : Label κ ν}

def answers (text : κ → τ) (hash : τ → Nat) : State κ ν → List (Label κ ν) → List (Answer κ ν)
  | _, [] => []
  | state, label :: rest =>
    match exec text hash state label with
    | some (.ok (after, answer)) => answer :: answers text hash after rest
    | _ => []

/-- Capacities whose tables can be allocated. -/
def Allocates (state : State κ ν) : Label κ ν → Prop
  | .make initialCap => initialCap ≤ 2 ^ 60
  | .set d _ _ => ∀ dict ∈ state.dicts d, Growable dict
  | _ => True

instance (state : State κ ν) : (label : Label κ ν) → Decidable (Allocates state label)
  | .make _ => inferInstanceAs (Decidable (_ ≤ _))
  | .set _ _ _ => inferInstanceAs (Decidable (∀ dict ∈ _, Growable dict))
  | .copy _ | .pop _ _ _ | .get _ _ _ | .contains _ _ | .len _ | .entries _ | .keys _ | .vals _ =>
    isTrue trivial

/-- Every dictionary represents its map. -/
structure Simulates (hash : τ → Nat) (state : State κ ν) (spec : Spec text ν) : Prop where
  dicts : ∀ d dict, state.dicts d = some dict →
    ∃ map, spec.maps d = some map ∧ Represents hash dict map
  fresh : state.fresh = spec.fresh

omit [DecidableEq κ] [DecidableEq τ] [Inhabited ν] in
theorem Simulates.put (simulates : Simulates hash state spec) (d : DictId)
    (represents : Represents hash dict map) :
    Simulates hash (state.put d dict) (spec.put d map) := by
  refine ⟨?_, simulates.fresh⟩
  intro other found present
  by_cases same : other = d
  · subst same
    simp only [State.put, update_self, Option.some.injEq] at present
    subst present
    exact ⟨map, by simp [Spec.put], represents⟩
  · simp only [State.put, update_of_ne same] at present
    obtain ⟨earlier, kept, represented⟩ := simulates.dicts other found present
    exact ⟨earlier, by simp [Spec.put, same, kept], represented⟩

omit [DecidableEq κ] [DecidableEq τ] [Inhabited ν] in
theorem Simulates.create (simulates : Simulates hash state spec)
    (represents : Represents hash dict map) :
    Simulates hash (state.create dict) (spec.create map) := by
  have same := simulates.fresh
  refine ⟨?_, ?_⟩
  · intro d found present
    have added := simulates.put state.fresh represents
    rw [Spec.create, ← same]
    exact added.dicts d found present
  · simp [State.create, Spec.create, same]

omit [DecidableEq κ] [DecidableEq τ] [Inhabited ν] in
theorem Simulates.found {β : Type} {next : Dict κ ν → β} {outcome : β}
    (simulates : Simulates hash state spec)
    (executed : (state.dicts d).map next = some outcome) : ∃ dict map, state.dicts d = some dict ∧
      spec.maps d = some map ∧ Represents hash dict map ∧ next dict = outcome := by
  obtain ⟨dict, found, ran⟩ := Option.map_eq_some_iff.mp executed
  obtain ⟨map, present, represents⟩ := simulates.dicts d dict found
  exact ⟨dict, map, found, present, represents, ran⟩

/-- A call succeeds with the answer of the map, and the states stay related. -/
theorem exec_simulates (simulates : Simulates hash state spec) (allocates : Allocates state label)
    (executed : exec text hash state label = some outcome) :
    ∃ after answer spec', outcome = .ok (after, answer) ∧
      spec.exec label = some (spec', answer) ∧ Simulates hash after spec' := by
  have sameFresh := simulates.fresh
  cases label with
  | make initialCap =>
    simp only [exec] at executed
    split at executed
    · cases executed
      obtain ⟨made, making, represents⟩ := @gocDictMake_represents κ τ ν text hash _
        _ allocates
      rw [making]
      refine ⟨_, _, _, rfl, ?_, simulates.create represents⟩
      rw [Spec.exec, sameFresh]
    · cases executed
  | copy d =>
    obtain ⟨dict, map, found, present, represents, rfl⟩ := simulates.found executed
    rw [gocDictCopy_represents represents]
    refine ⟨_, _, _, rfl, ?_, simulates.create represents⟩
    rw [Spec.exec, present, sameFresh]
    rfl
  | set d key val =>
    obtain ⟨dict, map, found, present, represents, rfl⟩ := simulates.found executed
    obtain ⟨changed, setting, represented⟩ :=
      gocDictSet_represents represents (allocates dict found) key val
    rw [setting]
    refine ⟨_, _, _, rfl, ?_, simulates.put d represented⟩
    rw [Spec.exec, present]
    rfl
  | pop d key notFound =>
    obtain ⟨dict, map, found, present, represents, rfl⟩ := simulates.found executed
    obtain ⟨changed, popping, represented⟩ := gocDictPop_represents represents key notFound
    rw [popping]
    refine ⟨_, _, _, rfl, ?_, simulates.put d represented⟩
    rw [Spec.exec, present]
    rfl
  | get d key notFound =>
    obtain ⟨dict, map, found, present, represents, rfl⟩ := simulates.found executed
    rw [gocDictGet_eq represents]
    refine ⟨_, _, _, rfl, ?_, simulates⟩
    rw [Spec.exec, present]
    rfl
  | contains d key =>
    obtain ⟨dict, map, found, present, represents, rfl⟩ := simulates.found executed
    rw [gocDictContains_eq represents]
    refine ⟨_, _, _, rfl, ?_, simulates⟩
    rw [Spec.exec, present]
    rfl
  | len d =>
    obtain ⟨dict, map, found, present, represents, rfl⟩ := simulates.found executed
    refine ⟨_, _, _, rfl, ?_, simulates⟩
    rw [Spec.exec, present, represents.len]
    rfl
  | entries d =>
    obtain ⟨dict, map, found, present, represents, rfl⟩ := simulates.found executed
    rw [gocDictEntries_eq represents]
    refine ⟨_, _, _, rfl, ?_, simulates⟩
    rw [Spec.exec, present]
    rfl
  | keys d =>
    obtain ⟨dict, map, found, present, represents, rfl⟩ := simulates.found executed
    rw [gocDictKeys_eq represents]
    refine ⟨_, _, _, rfl, ?_, simulates⟩
    rw [Spec.exec, present]
    rfl
  | vals d =>
    obtain ⟨dict, map, found, present, represents, rfl⟩ := simulates.found executed
    rw [gocDictVals_eq represents]
    refine ⟨_, _, _, rfl, ?_, simulates⟩
    rw [Spec.exec, present]
    rfl

theorem run_simulates (simulates : Simulates hash state spec)
    (ran : (system text hash).runWith Allocates state labels = some after) :
    ∃ spec', spec.run labels = some (spec', answers text hash state labels) ∧
      Simulates hash after spec' := by
  induction labels generalizing state spec with
  | nil =>
    cases ran
    exact ⟨spec, rfl, simulates⟩
  | cons label rest ih =>
    simp only [System.runWith] at ran
    split at ran
    case isFalse => cases ran
    case isTrue allocates =>
      split at ran
      case h_1 => cases ran
      case h_2 next stepped =>
        simp only [system, step] at stepped
        split at stepped
        case h_2 => cases stepped
        case h_1 reached answer executed =>
          cases stepped
          obtain ⟨_, _, spec', succeeded, specified, related⟩ :=
            exec_simulates simulates allocates executed
          cases succeeded
          obtain ⟨last, followed, simulated⟩ := ih related ran
          refine ⟨last, ?_, simulated⟩
          simp [Spec.run, specified, followed, answers, executed]

omit [DecidableEq κ] [DecidableEq τ] [Inhabited ν] in
theorem initialState_simulates :
    Simulates hash (initialState : State κ ν) (Spec.initial : Spec text ν) :=
  ⟨fun d dict present => (by cases present), rfl⟩

/-- The answers so far are those of the maps, and the next call returns with
the answer of the map it is made on. -/
theorem dict_is_ordered_map (labels : List (Label κ ν))
    (ran : (system text hash).runWith Allocates initialState labels = some state) :
    ∃ spec : Spec text ν,
      Spec.initial.run labels = some (spec, answers text hash initialState labels) ∧
      ∀ label outcome, Allocates state label → exec text hash state label = some outcome →
        ∃ after answer spec', outcome = .ok (after, answer) ∧
          spec.exec label = some (spec', answer) := by
  obtain ⟨spec, followed, simulates⟩ := run_simulates initialState_simulates ran
  refine ⟨spec, followed, ?_⟩
  intro label outcome allocates executed
  obtain ⟨after, answer, spec', succeeded, specified, -⟩ :=
    exec_simulates simulates allocates executed
  exact ⟨after, answer, spec', succeeded, specified⟩

end

def sampleText (key : Nat) : List UInt8 :=
  [97 + (key % 3).toUInt8]

def sampleRun : List (Label Nat Nat) :=
  [.make 0, .set 0 0 10, .set 0 1 11, .set 0 3 12, .pop 0 1 0, .set 0 4 13, .copy 0, .entries 1]

theorem sampleRun_is_ordered_map : ∃ state : State Nat Nat,
    (system sampleText fnv1a).runWith Allocates initialState sampleRun = some state ∧
    ∃ spec : Spec sampleText Nat,
      Spec.initial.run sampleRun = some (spec, answers sampleText fnv1a initialState sampleRun) ∧
      ∀ label outcome, Allocates state label → exec sampleText fnv1a state label = some outcome →
        ∃ after answer spec', outcome = .ok (after, answer) ∧
          spec.exec label = some (spec', answer) :=
  ⟨_, rfl, dict_is_ordered_map sampleRun rfl⟩

/-- A dictionary for `2 ^ 61` pointers, a number of bytes that wraps to zero. -/
def hugeDict : Dict Nat Nat where
  table := gocDictAlloc (2 ^ 61)
  tableCap := 2 ^ 61
  occupied := 0
  keys := []
  len := 0

theorem set_leaves_table : (system sampleText fnv1a).Reachable (initialState.create hugeDict) ∧
    hugeDict.tableCap < 2 ^ 62 ∧
    exec sampleText fnv1a (initialState.create hugeDict) (.set 0 0 10) =
      some (.error .outOfBounds) := by
  refine ⟨.of_run _ [.make (2 ^ 61)] rfl rfl, by decide, ?_⟩
  have probed : gocDictProbe sampleText fnv1a hugeDict 0 = .error .outOfBounds := by
    have turns : hugeDict.tableCap = 2 ^ 61 - 1 + 1 := rfl
    rw [gocDictProbe, turns, probeFrom, if_neg (by decide)]
  have quiet : crowded hugeDict = false := by decide
  have failed : gocDictSet sampleText fnv1a hugeDict 0 10 = .error .outOfBounds := by
    simp only [gocDictSet, quiet, Bool.false_eq_true, if_false, bind, Except.bind, gocDictInsert,
      probed]
  simp [exec, State.create, State.put, initialState, failed, Except.map]

end Libgoc.GocDict
