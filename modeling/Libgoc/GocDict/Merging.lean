import Libgoc.GocDict.Refinement

namespace Libgoc.GocDict

open Libgoc.Data

/-! # Dictionaries built by insertion -/

section

variable {κ τ ν : Type} [DecidableEq τ] [Inhabited ν] (text : κ → τ) (hash : τ → Nat)

/-- The loop of `goc_dict_from_entries`, `goc_dict_zip_c` and `_goc_dict_of_impl`. -/
def setAll (d : Dict κ ν) : List (κ × ν) → Except Fault (Dict κ ν)
  | [] => .ok d
  | (key, val) :: rest => do
      let d ← gocDictSet text hash d key val
      setAll d rest

def gocDictFromEntries (entries : List (κ × ν)) : Except Fault (Dict κ ν) := do
  let result ← gocDictMake entries.length
  setAll text hash result entries

/-- The loops of `_goc_dict_merge_many`.  The inner one goes over a source as
`goc_dict_entries` does and sets what it finds. -/
def mergeInto (merged : Dict κ ν) : List (Dict κ ν) → Except Fault (Dict κ ν)
  | [] => .ok merged
  | source :: rest => do
      let entries ← gocDictEntries text hash source
      let merged ← setAll text hash merged entries
      mergeInto merged rest

def gocDictMergeMany : List (Dict κ ν) → Except Fault (Dict κ ν)
  | [] => gocDictMake 0
  | first :: rest => do
      let merged ← gocDictCopy first
      mergeInto text hash merged rest

end

variable {κ τ ν : Type} {text : κ → τ} {hash : τ → Nat} {dict : Dict κ ν} {map : OrderedMap text ν}

theorem Represents.len_le (represents : Represents hash dict map) : dict.len ≤ dict.occupied := by
  rw [← represents.live, ← represents.used]
  apply Finset.card_le_card
  intro index
  grind [Used, live_iff]

variable [DecidableEq τ]

def insertAll (map : OrderedMap text ν) (entries : List (κ × ν)) : OrderedMap text ν :=
  entries.foldl (fun map entry => map.set entry.1 entry.2) map

theorem insertAll_append :
    insertAll map (entries ++ rest) = insertAll (insertAll map entries) rest :=
  List.foldl_append

theorem insertAll_entries
    (distinct : ((map.entries ++ entries).map fun entry => text entry.1).Nodup) :
    (insertAll map entries).entries = map.entries ++ entries := by
  induction entries generalizing map with
  | nil => simp [insertAll]
  | cons entry rest ih =>
    have absent : ∀ old ∈ map.entries, text old.1 ≠ text entry.1 := by
      rw [List.map_append, List.nodup_append] at distinct
      exact fun old member => distinct.2.2 _ (List.mem_map_of_mem member) _ (by simp)
    have added : (map.set entry.1 entry.2).entries = map.entries ++ [entry] := by
      rw [OrderedMap.set, dif_pos absent]
      rfl
    have later := @ih (map.set entry.1 entry.2) (by simpa [added] using distinct)
    rwa [added, List.append_assoc] at later

theorem insertAll_empty (map : OrderedMap text ν) : insertAll .empty map.entries = map := by
  have same : (insertAll .empty map.entries).entries = map.entries := insertAll_entries map.distinct
  exact OrderedMap.mk.injEq _ _ _ _ ▸ same

theorem insert_occupied (inserted : gocDictInsert text hash dict key val = .ok after) :
    after.occupied ≤ dict.occupied + 1 := by
  simp only [gocDictInsert, bind, Except.bind] at inserted
  split at inserted
  · cases inserted
  · split at inserted <;> cases inserted <;> simp

variable [Inhabited ν]

theorem made_unused (making : gocDictMake cap = .ok dict) : dict.occupied = 0 := by
  simp only [gocDictMake, bind, Except.bind] at making
  split at making <;> cases making
  rfl

/-- A table of so few used slots can grow. -/
theorem Represents.set (represents : Represents hash dict map)
    (bound : dict.occupied ≤ 2 ^ 58) (key : κ) (val : ν) :
    ∃ after, gocDictSet text hash dict key val = .ok after ∧
      Represents hash after (map.set key val) ∧ after.occupied ≤ dict.occupied + 1 := by
  have growable : Growable dict := by
    intro full
    rw [crowded_iff represents] at full
    omega
  obtain ⟨after, setting, represented⟩ := gocDictSet_represents represents growable key val
  refine ⟨after, setting, represented, ?_⟩
  simp only [gocDictSet, bind, Except.bind] at setting
  split at setting
  · cases setting
  · rename_i grown growing
    have inserted := insert_occupied setting
    have kept : grown.occupied ≤ dict.occupied := by
      split at growing
      · simp only [gocDictRehash, bind, Except.bind] at growing
        split at growing
        · cases growing
        · cases growing
          exact represents.len_le
      · cases growing
        exact le_rfl
    omega

theorem setAll_represents (entries : List (κ × ν)) (represents : Represents hash dict map)
    (bound : dict.occupied + entries.length ≤ 2 ^ 58) :
    ∃ after, setAll text hash dict entries = .ok after ∧
      Represents hash after (insertAll map entries) ∧
      after.occupied ≤ dict.occupied + entries.length := by
  induction entries generalizing dict map with
  | nil => exact ⟨dict, rfl, represents, Nat.le_refl _⟩
  | cons entry rest ih =>
    simp only [List.length_cons] at bound ⊢
    obtain ⟨next, setting, represented, grown⟩ := represents.set (by omega) entry.1 entry.2
    obtain ⟨after, ran, kept, larger⟩ := ih represented (by omega)
    exact ⟨after, by simp [setAll, setting, bind, Except.bind, ran], kept, by omega⟩

theorem fromEntries_represents (entries : List (κ × ν)) (bound : entries.length ≤ 2 ^ 58) :
    ∃ made, gocDictFromEntries text hash entries = .ok made ∧
      Represents hash made (insertAll (.empty : OrderedMap text ν) entries) ∧
      made.occupied ≤ entries.length := by
  obtain ⟨fresh, making, empty⟩ :=
    @gocDictMake_represents κ τ ν text hash _ entries.length (by omega)
  have unused := made_unused making
  obtain ⟨made, setting, represented, few⟩ := setAll_represents entries empty (by omega)
  refine ⟨made, ?_, represented, by omega⟩
  simp only [gocDictFromEntries, making, bind, Except.bind, setting]

/-- Of the entries with one key the first gives the place and the last the value. -/
theorem fromEntries_inserts_in_order (entries : List (κ × ν)) (bound : entries.length ≤ 2 ^ 58) :
    ∃ made, gocDictFromEntries text hash entries = .ok made ∧
      Represents hash made (insertAll (.empty : OrderedMap text ν) entries) := by
  obtain ⟨made, making, represents, -⟩ :=
    @fromEntries_represents κ τ ν text hash _ _ entries bound
  exact ⟨made, making, represents⟩

theorem fromEntries_repeated : ∃ made, gocDictFromEntries id id [(1, 5), (2, 6), (1, 7)] = .ok made ∧
    Represents id made (insertAll (.empty : OrderedMap id Nat) [(1, 5), (2, 6), (1, 7)]) :=
  fromEntries_inserts_in_order _ (by decide)

theorem mergeInto_represents {sources : List (Dict κ ν)} {maps : List (OrderedMap text ν)}
    (stands : List.Forall₂ (Represents hash) sources maps) (represents : Represents hash dict map)
    (bound : dict.occupied + (sources.map Dict.len).sum ≤ 2 ^ 58) :
    ∃ after, mergeInto text hash dict sources = .ok after ∧
      Represents hash after (insertAll map (maps.flatMap OrderedMap.entries)) := by
  induction stands generalizing dict map with
  | nil => exact ⟨dict, rfl, represents⟩
  | @cons source origin sources maps stand _ ih =>
    simp only [List.map_cons, List.sum_cons, stand.len] at bound
    obtain ⟨next, setting, represented, grown⟩ := setAll_represents origin.entries represents (by omega)
    obtain ⟨after, ran, kept⟩ := ih represented (by omega)
    refine ⟨after, ?_, by rwa [List.flatMap_cons, insertAll_append]⟩
    simp only [mergeInto, gocDictEntries_eq stand, bind, Except.bind, setting, ran]

/-- A merge inserts the entries of all dictionaries in their order. -/
theorem merge_inserts_in_order (dicts : List (Dict κ ν)) (maps : List (OrderedMap text ν))
    (stands : List.Forall₂ (Represents hash) dicts maps)
    (bound : (dicts.map Dict.occupied).sum + (dicts.map Dict.len).sum ≤ 2 ^ 58) :
    ∃ merged, gocDictMergeMany text hash dicts = .ok merged ∧
      Represents hash merged
        (insertAll (.empty : OrderedMap text ν) (maps.flatMap OrderedMap.entries)) := by
  cases stands with
  | nil => exact gocDictMake_represents (by omega)
  | cons stand stands =>
    simp only [List.map_cons, List.sum_cons] at bound
    rw [List.flatMap_cons, insertAll_append, insertAll_empty]
    simp only [gocDictMergeMany, gocDictCopy_represents stand, bind, Except.bind]
    exact mergeInto_represents stands stand (by omega)

/-- The key that both dictionaries have keeps its place and gets the later value. -/
theorem merge_of_overlapping : ∃ first second merged : Dict Nat Nat,
    gocDictFromEntries id id [(1, 5), (2, 6)] = .ok first ∧
    gocDictFromEntries id id [(2, 7), (3, 8)] = .ok second ∧
    gocDictMergeMany id id [first, second] = .ok merged ∧
    ∃ map : OrderedMap id Nat, Represents id merged map ∧
      map.entries = [(1, 5), (2, 7), (3, 8)] := by
  obtain ⟨first, making, left, few⟩ :=
    @fromEntries_represents Nat Nat Nat id id _ _ [(1, 5), (2, 6)] (by decide)
  obtain ⟨second, making', right, few'⟩ :=
    @fromEntries_represents Nat Nat Nat id id _ _ [(2, 7), (3, 8)] (by decide)
  have bound : ([first, second].map Dict.occupied).sum + ([first, second].map Dict.len).sum ≤
      2 ^ 58 := by
    have short := left.len_le
    have short' := right.len_le
    simp only [List.length_cons, List.length_nil] at few few'
    simp only [List.map_cons, List.map_nil, List.sum_cons, List.sum_nil]
    omega
  obtain ⟨merged, merging, represents⟩ :=
    merge_inserts_in_order [first, second] _ (.cons left (.cons right .nil)) bound
  exact ⟨first, second, merged, making, making', merging, _, represents, rfl⟩

end Libgoc.GocDict
