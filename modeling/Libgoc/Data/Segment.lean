import Mathlib.Data.List.Basic
import Mathlib.Data.Nat.ModEq
import Mathlib.Logic.Function.Basic

namespace Libgoc.Data

/-! # Segments of an indexed store -/

variable {α : Type u} {values other : Nat → α} {low high size : Nat}

def segment (values : Nat → α) (low high : Nat) : List α :=
  (List.range' low (high - low)).map values

theorem segment_congr (same : ∀ index, low ≤ index → index < high → other index = values index) :
    segment other low high = segment values low high := by
  apply List.map_congr_left
  intro index member
  obtain ⟨offset, bound, position⟩ := List.mem_range'.mp member
  apply same <;> omega

theorem segment_empty (empty : high ≤ low) : segment values low high = [] := by
  simp [segment, Nat.sub_eq_zero_of_le empty]

theorem segment_first (nonempty : low < high) :
    segment values low high = values low :: segment values (low + 1) high := by
  obtain ⟨count, length⟩ : ∃ count, high - low = count + 1 := ⟨high - low - 1, by omega⟩
  have rest : high - (low + 1) = count := by omega
  simp [segment, length, rest, List.range'_succ]

theorem segment_last (ordered : low ≤ high) :
    segment values low (high + 1) = segment values low high ++ [values high] := by
  have length : high + 1 - low = high - low + 1 := by omega
  have last : low + (high - low) = high := by omega
  simp [segment, length, List.range'_concat, last]

@[simp]
theorem segment_length : (segment values low high).length = high - low := by
  simp [segment]

theorem segment_getElem? (bound : low + index < high) :
    (segment values low high)[index]? = some (values (low + index)) := by
  have within : index < high - low := by omega
  simp [segment, within]

theorem segment_append (lower : low ≤ middle) (upper : middle ≤ high) :
    segment values low middle ++ segment values middle high = segment values low high := by
  induction high, upper using Nat.le_induction with
  | base => simp [segment_empty]
  | succ high bound ih =>
    rw [segment_last bound, segment_last (by omega), ← ih, List.append_assoc]

theorem segment_shift
    (same : ∀ offset, offset < count → other (start + offset) = values (low + offset)) :
    segment other start (start + count) = segment values low (low + count) := by
  induction count with
  | zero => rw [segment_empty (by omega), segment_empty (by omega)]
  | succ count ih =>
    rw [← Nat.add_assoc, ← Nat.add_assoc, segment_last (by omega), segment_last (by omega),
      ih fun offset bound => same offset (by omega), same count (by omega)]

theorem segment_update (bound : low + index < high) :
    segment (Function.update values (low + index) value) low high =
      (segment values low high).set index value := by
  apply List.ext_getElem?
  intro position
  by_cases within : low + position < high
  · rw [segment_getElem? within, List.getElem?_set, segment_getElem? within, segment_length]
    by_cases same : index = position
    · subst same
      have inside : index < high - low := by omega
      simp [inside]
    · simp [same, Function.update_of_ne (show low + position ≠ low + index by omega)]
  · have outside : (segment values low high).length ≤ position := by
      rw [segment_length]
      omega
    rw [List.getElem?_eq_none (by rw [segment_length]; omega),
      List.getElem?_eq_none (by rw [List.length_set]; exact outside)]

/-- Indices closer than the size are in different places. -/
theorem ring_place_ne (order : left < right) (near : right < left + size) :
    left % size ≠ right % size := by
  intro same
  have distance : (left + 0) % size = (left + (right - left)) % size := by
    rw [Nat.add_zero, Nat.add_sub_of_le (Nat.le_of_lt order)]
    exact same
  have cancelled : Nat.ModEq size 0 (right - left) := Nat.ModEq.add_left_cancel' left distance
  have := cancelled.eq_of_lt_of_lt (by omega) (by omega)
  omega

end Libgoc.Data
