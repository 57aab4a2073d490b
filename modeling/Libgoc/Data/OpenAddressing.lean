import Mathlib.Data.Finset.Card
import Mathlib.Data.Finset.Range
import Mathlib.Data.Nat.ModEq
import Mathlib.Data.Nat.Find
import Mathlib.Logic.Function.Basic

namespace Libgoc.Data

open Function

/-! # Linear probing -/

def place (size start steps : Nat) : Nat :=
  (start + steps) % size

variable {σ : Type u} {slots other : Nat → σ} {size start index : Nat}

theorem place_lt (nonempty : 0 < size) (steps : Nat) : place size start steps < size :=
  Nat.mod_lt _ nonempty

theorem place_zero (within : start < size) : place size start 0 = start :=
  Nat.mod_eq_of_lt within

theorem place_next (steps : Nat) :
    (place size start steps + 1) % size = place size start (steps + 1) := by
  rw [place, place, Nat.mod_add_mod, Nat.add_assoc]

theorem exists_place (within : index < size) (origin : start < size) :
    ∃ steps, steps < size ∧ place size start steps = index := by
  by_cases ahead : start ≤ index
  · refine ⟨index - start, by omega, ?_⟩
    rw [place, Nat.add_sub_cancel' ahead, Nat.mod_eq_of_lt within]
  · refine ⟨index + size - start, by omega, ?_⟩
    rw [place, show start + (index + size - start) = index + size by omega, Nat.add_mod_right,
      Nat.mod_eq_of_lt within]

/-- No slot on the way from `start` to `index` is free. -/
def Probes (free : σ → Prop) (slots : Nat → σ) (size start index : Nat) : Prop :=
  ∃ steps, steps < size ∧ place size start steps = index ∧
    ∀ earlier, earlier < steps → ¬ free (slots (place size start earlier))

theorem Probes.mono (probes : Probes free slots size start index)
    (kept : ∀ place, free (other place) → free (slots place)) :
    Probes free other size start index := by
  obtain ⟨steps, within, reached, taken⟩ := probes
  exact ⟨steps, within, reached, fun earlier before isFree =>
    taken earlier before (kept _ isFree)⟩

variable (slots) in
/-- The first place where a walk can stop. -/
theorem exists_first_stop (stop : σ → Prop) (within : index < size) (origin : start < size)
    (stops : stop (slots index)) :
    ∃ steps, steps < size ∧ stop (slots (place size start steps)) ∧
      ∀ earlier, earlier < steps → ¬ stop (slots (place size start earlier)) := by
  classical
  obtain ⟨distance, bound, reached⟩ := exists_place within origin
  have found : ∃ steps, stop (slots (place size start steps)) := ⟨distance, by rwa [reached]⟩
  refine ⟨Nat.find found, ?_, Nat.find_spec found, fun earlier before => Nat.find_min found before⟩
  exact Nat.lt_of_le_of_lt (Nat.find_min' found (by rwa [reached])) bound

section

variable {kind : σ → Prop} [DecidablePred kind] {value : σ}

def occupancy (kind : σ → Prop) [DecidablePred kind] (slots : Nat → σ) (size : Nat) : Nat :=
  ((Finset.range size).filter fun index => kind (slots index)).card

theorem occupancy_le : occupancy kind slots size ≤ size := by
  apply Nat.le_trans (Finset.card_filter_le _ _)
  rw [Finset.card_range]

theorem exists_outside (room : occupancy kind slots size < size) :
    ∃ index, index < size ∧ ¬ kind (slots index) := by
  by_contra full
  push Not at full
  have all : (Finset.range size).filter (fun index => kind (slots index)) = Finset.range size :=
    Finset.filter_true_of_mem fun index member => full index (Finset.mem_range.mp member)
  rw [occupancy, all, Finset.card_range] at room
  exact Nat.lt_irrefl _ room

theorem occupancy_empty (none : ∀ index, ¬ kind (slots index)) : occupancy kind slots size = 0 := by
  rw [occupancy, Finset.card_eq_zero]
  exact Finset.filter_false_of_mem fun index _ => none index

theorem occupancy_update_same (same : kind value ↔ kind (slots index)) :
    occupancy kind (update slots index value) size = occupancy kind slots size := by
  rw [occupancy, occupancy]
  congr 1
  apply Finset.filter_congr
  intro place _
  by_cases here : place = index
  · subst here
    rw [update_self]
    exact same
  · rw [update_of_ne here]

theorem occupancy_update_add (within : index < size) (before : ¬ kind (slots index))
    (after : kind value) :
    occupancy kind (update slots index value) size = occupancy kind slots size + 1 := by
  have grown : (Finset.range size).filter (fun place => kind (update slots index value place)) =
      insert index ((Finset.range size).filter fun place => kind (slots place)) := by
    ext place
    by_cases here : place = index
    · subst here
      simp [within, after]
    · simp [here]
  have absent : index ∉ (Finset.range size).filter fun place => kind (slots place) := by
    simp [before]
  rw [occupancy, grown, Finset.card_insert_of_notMem absent, occupancy]

theorem occupancy_update_remove (within : index < size) (before : kind (slots index))
    (after : ¬ kind value) :
    occupancy kind (update slots index value) size + 1 = occupancy kind slots size := by
  have restored :
      occupancy kind (update (update slots index value) index (slots index)) size =
        occupancy kind (update slots index value) size + 1 :=
    occupancy_update_add within (by simpa using after) before
  rw [update_idem, update_eq_self] at restored
  exact restored.symm

end

end Libgoc.Data
