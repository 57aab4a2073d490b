import Mathlib.Algebra.BigOperators.Intervals
import Mathlib.Algebra.Order.BigOperators.Group.Finset
import Mathlib.Logic.Function.Basic

namespace Libgoc.Data

open Function

/-! # Tallies -/

variable {σ : Type u} {measure : σ → Nat} {slots : Nat → σ} {size index : Nat} {value : σ}

def tally (measure : σ → Nat) (slots : Nat → σ) (size : Nat) : Nat :=
  ∑ index ∈ Finset.range size, measure (slots index)

theorem tally_update (within : index < size) :
    tally measure (update slots index value) size + measure (slots index) =
      tally measure slots size + measure value := by
  have member : index ∈ Finset.range size := Finset.mem_range.mpr within
  have others : ∑ place ∈ (Finset.range size).erase index,
      measure (update slots index value place) =
        ∑ place ∈ (Finset.range size).erase index, measure (slots place) := by
    apply Finset.sum_congr rfl
    intro place inside
    rw [update_of_ne (Finset.ne_of_mem_erase inside)]
  have before := Finset.sum_erase_add (Finset.range size) (fun place => measure (slots place)) member
  have after := Finset.sum_erase_add (Finset.range size)
    (fun place => measure (update slots index value place)) member
  simp only [update_self, others] at after
  unfold tally
  omega

theorem tally_update_same (within : index < size) (same : measure value = measure (slots index)) :
    tally measure (update slots index value) size = tally measure slots size := by
  have moved : tally measure (update slots index value) size + measure (slots index) =
      tally measure slots size + measure value := tally_update within
  omega

theorem tally_update_beyond (beyond : size ≤ index) :
    tally measure (update slots index value) size = tally measure slots size := by
  apply Finset.sum_congr rfl
  intro place inside
  rw [update_of_ne (Nat.ne_of_lt (Nat.lt_of_lt_of_le (Finset.mem_range.mp inside) beyond))]

theorem tally_succ : tally measure slots (size + 1) = tally measure slots size + measure (slots size) :=
  Finset.sum_range_succ _ size

theorem tally_zero (none : ∀ index, measure (slots index) = 0) : tally measure slots size = 0 :=
  Finset.sum_eq_zero fun index _ => none index

theorem le_tally (within : index < size) : measure (slots index) ≤ tally measure slots size :=
  Finset.single_le_sum (f := fun place => measure (slots place)) (fun _ _ => Nat.zero_le _)
    (Finset.mem_range.mpr within)

theorem add_le_tally (within : index < size) (inside : other < size) (different : other ≠ index) :
    measure (slots index) + measure (slots other) ≤ tally measure slots size := by
  have member : index ∈ Finset.range size := Finset.mem_range.mpr within
  have rest : measure (slots other) ≤
      ∑ place ∈ (Finset.range size).erase index, measure (slots place) :=
    Finset.single_le_sum (f := fun place => measure (slots place)) (fun _ _ => Nat.zero_le _)
      (Finset.mem_erase.mpr ⟨different, Finset.mem_range.mpr inside⟩)
  have split := Finset.sum_erase_add (Finset.range size) (fun place => measure (slots place)) member
  unfold tally
  omega

theorem exists_of_tally_pos (positive : 0 < tally measure slots size) :
    ∃ index < size, 0 < measure (slots index) := by
  obtain ⟨index, member, counted⟩ := Finset.exists_ne_zero_of_sum_ne_zero (Nat.ne_of_gt positive)
  exact ⟨index, Finset.mem_range.mp member, Nat.pos_of_ne_zero counted⟩

end Libgoc.Data
