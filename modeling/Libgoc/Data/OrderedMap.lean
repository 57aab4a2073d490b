import Mathlib.Data.List.Nodup

namespace Libgoc.Data

/-! # Insertion-ordered maps -/

/-- Keys count as equal when they have one text. -/
structure OrderedMap {κ τ : Type} (text : κ → τ) (ν : Type) where
  entries : List (κ × ν)
  distinct : (entries.map fun entry => text entry.1).Nodup

namespace OrderedMap

variable {κ τ ν : Type} {text : κ → τ} {key : κ} {val : ν}

def empty : OrderedMap text ν :=
  ⟨[], List.nodup_nil⟩

theorem key_eq (map : OrderedMap text ν) (leftIn : left ∈ map.entries)
    (rightIn : right ∈ map.entries) (same : text left.1 = text right.1) : left = right :=
  List.inj_on_of_nodup_map map.distinct leftIn rightIn same

theorem keys_nodup (map : OrderedMap text ν) : (map.entries.map Prod.fst).Nodup := by
  have distinct : ((map.entries.map Prod.fst).map text).Nodup := by
    rw [List.map_map]
    exact map.distinct
  exact distinct.of_map

variable [DecidableEq τ]

def get? (map : OrderedMap text ν) (key : κ) : Option ν :=
  (map.entries.find? fun entry => text entry.1 = text key).map Prod.snd

def replace (map : OrderedMap text ν) (key : κ) (val : ν) : OrderedMap text ν where
  entries := map.entries.map fun entry =>
    if text entry.1 = text key then (entry.1, val) else entry
  distinct := by
    have same : (map.entries.map fun entry =>
        if text entry.1 = text key then (entry.1, val) else entry).map (fun entry => text entry.1) =
        map.entries.map fun entry => text entry.1 := by
      rw [List.map_map]
      apply List.map_congr_left
      intro entry _
      simp only [Function.comp_apply]
      split <;> rfl
    rw [same]
    exact map.distinct

def append (map : OrderedMap text ν) (key : κ) (val : ν)
    (absent : ∀ entry, entry ∈ map.entries → text entry.1 ≠ text key) : OrderedMap text ν where
  entries := map.entries ++ [(key, val)]
  distinct := by
    rw [List.map_append, List.nodup_append]
    refine ⟨map.distinct, List.nodup_singleton _, ?_⟩
    intro first firstIn second secondIn
    obtain ⟨entry, member, rfl⟩ := List.mem_map.mp firstIn
    rw [List.map_singleton, List.mem_singleton] at secondIn
    rw [secondIn]
    exact absent entry member

/-- A key that is present keeps its place, a new one goes to the end. -/
def set (map : OrderedMap text ν) (key : κ) (val : ν) : OrderedMap text ν :=
  if absent : ∀ entry, entry ∈ map.entries → text entry.1 ≠ text key then
    map.append key val absent
  else map.replace key val

def erase (map : OrderedMap text ν) (key : κ) : OrderedMap text ν where
  entries := map.entries.filter fun entry => text entry.1 ≠ text key
  distinct := map.distinct.sublist (List.filter_sublist.map _)

theorem get?_of_mem (map : OrderedMap text ν) (member : entry ∈ map.entries)
    (same : text entry.1 = text key) : map.get? key = some entry.2 := by
  rw [get?]
  cases found : map.entries.find? fun entry => text entry.1 = text key with
  | none =>
    have := List.find?_eq_none.mp found entry member
    simp [same] at this
  | some other =>
    have matching : text other.1 = text key := by simpa using List.find?_some found
    have identical := map.key_eq (List.mem_of_find?_eq_some found) member (matching.trans same.symm)
    rw [identical]
    rfl

theorem get?_of_absent (map : OrderedMap text ν)
    (absent : ∀ entry, entry ∈ map.entries → text entry.1 ≠ text key) : map.get? key = none := by
  rw [get?, List.find?_eq_none.mpr]
  · rfl
  · intro entry member
    simpa using absent entry member

theorem mem_replace (map : OrderedMap text ν) (member : entry ∈ map.entries)
    (same : text entry.1 = text key) :
    (other, value) ∈ (map.replace key val).entries ↔
      (entry.1 = other ∧ val = value) ∨
        ((other, value) ∈ map.entries ∧ text other ≠ text entry.1) := by
  rw [replace, List.mem_map]
  constructor
  · rintro ⟨before, beforeIn, shape⟩
    split at shape
    · rename_i matching
      have identical := map.key_eq beforeIn member (matching.trans same.symm)
      subst identical
      cases shape
      exact .inl ⟨rfl, rfl⟩
    · rename_i different
      subst shape
      exact .inr ⟨beforeIn, fun equal => different (equal.trans same)⟩
  · rintro (⟨rfl, rfl⟩ | ⟨beforeIn, different⟩)
    · exact ⟨entry, member, if_pos same⟩
    · exact ⟨(other, value), beforeIn, if_neg fun equal => different (equal.trans same.symm)⟩

theorem replace_keys (map : OrderedMap text ν) (key : κ) (val : ν) :
    (map.replace key val).entries.map Prod.fst = map.entries.map Prod.fst := by
  rw [replace, List.map_map]
  apply List.map_congr_left
  intro entry _
  simp only [Function.comp_apply]
  split <;> rfl

theorem mem_erase (map : OrderedMap text ν) :
    entry ∈ (map.erase key).entries ↔ entry ∈ map.entries ∧ text entry.1 ≠ text key := by
  simp [erase]

/-- Erasing a key removes its pointer from the list of keys. -/
theorem erase_keys [DecidableEq κ] (map : OrderedMap text ν)
    (member : entry ∈ map.entries) (same : text entry.1 = text key) :
    (map.erase key).entries.map Prod.fst = (map.entries.map Prod.fst).erase entry.1 := by
  rw [map.keys_nodup.erase_eq_filter, List.filter_map, erase]
  congr 1
  apply List.filter_congr
  intro other otherIn
  by_cases matching : text other.1 = text key
  · have identical := map.key_eq otherIn member (matching.trans same.symm)
    simp [identical, same]
  · have different : other.1 ≠ entry.1 := by
      intro equal
      rw [equal] at matching
      exact matching same
    simp [matching, different]

end OrderedMap

end Libgoc.Data
