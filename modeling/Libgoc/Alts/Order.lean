import Libgoc.Data.InPlace
import Mathlib.Data.Nat.Basic

namespace Libgoc.Alts

open Libgoc.Data

/-! # The order of arms and of locks in a select (`src/alts.c`) -/

abbrev ChanId := Nat

inductive AltKind where
  | take
  | put
  | default
deriving Repr, DecidableEq

/-- `goc_alt_op_t`; `ch` is `none` for `NULL`. -/
structure AltOp where
  ch : Option ChanId
  opKind : AltKind
deriving Repr, DecidableEq

def altsLcgRand (state : UInt32) : UInt32 × UInt32 :=
  let next := state * 1103515245 + 12345
  (next, (next >>> 16) &&& 0x7fffffff)

def drawIndex (state : UInt32) : UInt32 × Nat :=
  ((altsLcgRand state).1, (altsLcgRand state).2.toNat)

/-- The shuffled indices, and `g_alts_rand_seed` after the call. -/
def altsShuffle (seed : UInt32) (indices : List Nat) : List Nat × UInt32 :=
  if indices.length < 2 then (indices, seed)
  else (InPlace.shuffleFrom drawIndex (indices.length - 1) seed indices, seed + 1)

structure IndexArray where
  indices : List Nat := []
  defaultIdx : Option Nat := none
  nDefault : Nat := 0
deriving Repr, DecidableEq

/-- The loop of `alts_build_index_array` from arm `i` on; the error is the text of
the abort. -/
def collectArms (funcName : String) : Nat → List AltOp → IndexArray → Except String IndexArray
  | _, [], array => .ok array
  | i, op :: ops, array =>
    if op.opKind = .default then
      let nDefault := array.nDefault + 1
      if nDefault > 1 then
        .error ("libgoc: " ++ funcName ++ ": more than one default arm provided (got " ++
          toString nDefault ++ ")\n")
      else collectArms funcName (i + 1) ops { array with nDefault, defaultIdx := some i }
    else collectArms funcName (i + 1) ops { array with indices := array.indices ++ [i] }

/-- The array with its indices shuffled, and the next seed. -/
def altsBuildIndexArray (funcName : String) (seed : UInt32) (ops : List AltOp) :
    Except String (IndexArray × UInt32) :=
  match collectArms funcName 0 ops {} with
  | .error message => .error message
  | .ok array =>
    let shuffled := altsShuffle seed array.indices
    .ok ({ array with indices := shuffled.1 }, shuffled.2)

/-- The channels of the arms behind those in `scratch`; `none` is a failed assertion
that the scratch array has room. -/
def collectChannels (scratchN : Nat) : List AltOp → List ChanId → Option (List ChanId)
  | [], scratch => some scratch
  | op :: ops, scratch =>
    if op.opKind = .default then collectChannels scratchN ops scratch
    else
      match op.ch with
      | none => collectChannels scratchN ops scratch
      | some ch =>
        if scratch.length < scratchN then collectChannels scratchN ops (scratch ++ [ch])
        else none

/-- The scratch array and the number of its cells in use. -/
def altsDedupSortChannels (ops : List AltOp) (scratchN : Nat) : Option (List ChanId × Nat) :=
  match collectChannels scratchN ops [] with
  | none => none
  | some scratch =>
    let sorted := InPlace.sortFrom (scratch.length - 1) 1 scratch
    if scratch.length = 0 then some (sorted, 0)
    else some (InPlace.dedupFrom (scratch.length - 1) 1 1 sorted)

/-- The positions of the arms other than default arms. -/
def positions (ops : List AltOp) : List Nat :=
  (List.range ops.length).filter fun i => (ops[i]?.map AltOp.opKind) != some .default

def defaults (ops : List AltOp) : Nat :=
  ops.countP fun op => op.opKind = .default

theorem positions_append (done : List AltOp) (op : AltOp) : positions (done ++ [op]) =
      positions done ++ if op.opKind = .default then [] else [done.length] := by
  have earlier : (List.range done.length).filter
      (fun i => ((done ++ [op])[i]?.map AltOp.opKind) != some .default) = positions done := by
    apply List.filter_congr
    intro i member
    rw [List.getElem?_append_left (List.mem_range.mp member)]
  unfold positions
  rw [List.length_append, List.length_singleton, List.range_succ, List.filter_append, earlier]
  by_cases fallback : op.opKind = .default
  · simp [positions, fallback]
  · simp [positions, fallback]

theorem defaults_append (done : List AltOp) (op : AltOp) :
    defaults (done ++ [op]) = defaults done + if op.opKind = .default then 1 else 0 := by
  by_cases fallback : op.opKind = .default <;> simp [defaults, fallback]

theorem defaults_mono (done ops : List AltOp) : defaults done ≤ defaults (done ++ ops) := by
  simp [defaults]

/-- `done` are the arms that the loop has passed. -/
theorem collectArms_spec (funcName : String) (ops : List AltOp) {done : List AltOp}
    {array : IndexArray} (indices : array.indices = positions done)
    (counted : array.nDefault = defaults done) (few : defaults done ≤ 1) :
    (defaults (done ++ ops) ≤ 1 → ∃ result, collectArms funcName done.length ops array = .ok result ∧
      result.indices = positions (done ++ ops)) ∧
    (1 < defaults (done ++ ops) → ∃ message,
      collectArms funcName done.length ops array = .error message) := by
  induction ops generalizing done array with
  | nil =>
    rw [List.append_nil]
    exact ⟨fun _ => ⟨array, rfl, indices⟩, fun many => absurd few (by omega)⟩
  | cons op ops ih =>
    have split : done ++ op :: ops = done ++ [op] ++ ops := by simp
    have longer : done.length + 1 = (done ++ [op]).length := by simp
    have passed := positions_append done op
    have total := defaults_append done op
    have atMost := defaults_mono (done ++ [op]) ops
    rw [split, collectArms]
    by_cases fallback : op.opKind = .default
    · rw [if_pos fallback] at passed total ⊢
      by_cases second : array.nDefault + 1 > 1
      · simp only [second, ↓reduceIte]
        exact ⟨fun one => by omega, fun _ => ⟨_, rfl⟩⟩
      · simp only [second, ↓reduceIte]
        rw [longer]
        apply ih
        · simpa [passed] using indices
        · dsimp only
          omega
        · omega
    · rw [if_neg fallback] at passed total ⊢
      rw [longer]
      apply ih
      · simp [passed, indices]
      · dsimp only
        omega
      · omega

theorem altsShuffle_perm (seed : UInt32) (indices : List Nat) :
    (altsShuffle seed indices).1.Perm indices := by
  unfold altsShuffle
  split
  · exact .refl _
  · exact InPlace.shuffleFrom_perm _ _ _ _

theorem altsBuildIndexArray_perm (funcName : String) (seed : UInt32) {ops : List AltOp}
    (few : defaults ops ≤ 1) :
    ∃ array next, altsBuildIndexArray funcName seed ops = .ok (array, next) ∧
      array.indices.Perm (positions ops) := by
  obtain ⟨result, collected, indices⟩ := (@collectArms_spec funcName ops [] {} rfl rfl
    (Nat.zero_le _)).1 few
  refine ⟨{ result with indices := (altsShuffle seed result.indices).1 },
    (altsShuffle seed result.indices).2, ?_, ?_⟩
  · simp only [altsBuildIndexArray]
    rw [List.length_nil] at collected
    rw [collected]
  · rw [List.nil_append] at indices
    exact indices ▸ altsShuffle_perm seed result.indices

theorem altsBuildIndexArray_aborts (funcName : String) (seed : UInt32) {ops : List AltOp}
    (many : 1 < defaults ops) :
    ∃ message, altsBuildIndexArray funcName seed ops = .error message := by
  obtain ⟨message, collected⟩ := (@collectArms_spec funcName ops [] {} rfl rfl
    (Nat.zero_le _)).2 many
  rw [List.length_nil] at collected
  exact ⟨message, by simp only [altsBuildIndexArray, collected]⟩

def Names (ops : List AltOp) (ch : ChanId) : Prop :=
  ∃ op ∈ ops, op.opKind ≠ .default ∧ op.ch = some ch

theorem names_cons :
    Names (op :: ops) ch ↔ (op.opKind ≠ .default ∧ op.ch = some ch) ∨ Names ops ch := by
  simp [Names]

theorem collectChannels_spec (ops : List AltOp) {scratchN : Nat} {scratch : List ChanId}
    (room : scratch.length + ops.length ≤ scratchN) :
    ∃ collected, collectChannels scratchN ops scratch = some collected ∧
      ∀ ch, ch ∈ collected ↔ ch ∈ scratch ∨ Names ops ch := by
  induction ops generalizing scratch with
  | nil => exact ⟨scratch, rfl, by simp [Names]⟩
  | cons op ops ih =>
    rw [List.length_cons] at room
    unfold collectChannels
    by_cases fallback : op.opKind = .default
    · obtain ⟨collected, ran, members⟩ := @ih scratch (by omega)
      refine ⟨collected, by simpa [fallback] using ran, ?_⟩
      simpa [names_cons, fallback] using members
    · cases named : op.ch with
      | none =>
        obtain ⟨collected, ran, members⟩ := @ih scratch (by omega)
        refine ⟨collected, by simpa [fallback] using ran, ?_⟩
        simpa [names_cons, fallback, named] using members
      | some first =>
        obtain ⟨collected, ran, members⟩ := @ih (scratch ++ [first]) (by simp; omega)
        have fits : scratch.length < scratchN := by omega
        refine ⟨collected, by simpa [fallback, fits] using ran, ?_⟩
        intro ch
        rw [members, names_cons, named, List.mem_append, List.mem_singleton, Option.some.injEq]
        tauto

theorem altsDedupSortChannels_spec (ops : List AltOp) :
    ∃ scratch unique, altsDedupSortChannels ops ops.length = some (scratch, unique) ∧
      (scratch.take unique).Pairwise (· < ·) ∧
      ∀ ch, ch ∈ scratch.take unique ↔ Names ops ch := by
  obtain ⟨collected, ran, members⟩ := @collectChannels_spec ops ops.length [] (by simp)
  cases collected with
  | nil =>
    refine ⟨[], 0, by simp [altsDedupSortChannels, ran, InPlace.sortFrom], by simp, ?_⟩
    simpa using members
  | cons first rest =>
    obtain ⟨permuted, ordered⟩ := @InPlace.sortFrom_sorts _ _ [first] rest (by simp)
    have length := permuted.length_eq
    cases sorted : InPlace.sortFrom rest.length 1 (first :: rest) with
    | nil => simp [sorted] at length
    | cons least others =>
      have same : others.length = rest.length := by simpa [sorted] using length
      have ascending : (least :: others).Pairwise (· ≤ ·) := by simpa [sorted] using ordered
      obtain ⟨cells, unique, deduped, strict, kept⟩ :=
        @InPlace.dedupFrom_spec _ _ others [] [] least (by simp) ascending
      refine ⟨cells, unique, ?_, strict, ?_⟩
      · simpa [altsDedupSortChannels, ran, sorted, same] using deduped
      · intro ch
        have among : ch ∈ least :: others ↔ ch ∈ first :: rest := by
          simpa [sorted] using @List.Perm.mem_iff _ ch _ _ permuted
        rw [kept, ← List.mem_append]
        simpa using among.trans (by simpa using members ch)

end Libgoc.Alts
