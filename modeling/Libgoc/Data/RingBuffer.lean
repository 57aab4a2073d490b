import Mathlib.Data.List.Basic
import Mathlib.Data.Nat.ModEq
import Mathlib.Tactic.Common

namespace Libgoc.Data

open Function

/-! # Bounded ring buffers -/

structure RingBuffer (α : Type u) where
  size : Nat
  slots : Nat → Option α
  head : Nat
  count : Nat
  bounded : count ≤ size
  headBound : 0 < size → head < size
  occupied : ∀ offset < count, (slots ((head + offset) % size)).isSome

namespace RingBuffer

variable {α : Type u}

def empty (size : Nat) : RingBuffer α where
  size
  slots := fun _ => none
  head := 0
  count := 0
  bounded := Nat.zero_le _
  headBound := id
  occupied := by simp

def contents (buffer : RingBuffer α) : List α :=
  (List.range buffer.count).filterMap
    (fun offset => buffer.slots ((buffer.head + offset) % buffer.size))

/-- Different offsets below the size name different slots. -/
theorem slot_injective {head size left right : Nat} (leftBound : left < size)
    (rightBound : right < size) (same : (head + left) % size = (head + right) % size) :
    left = right := by
  have cancelled : Nat.ModEq size left right := Nat.ModEq.add_left_cancel' head same
  exact cancelled.eq_of_lt_of_lt leftBound rightBound

def push (buffer : RingBuffer α) (value : α) : Option (RingBuffer α) :=
  if room : buffer.count < buffer.size then
    some { buffer with
      slots := update buffer.slots
        ((buffer.head + buffer.count) % buffer.size) (some value)
      count := buffer.count + 1
      bounded := room
      occupied := by
        intro offset bound
        by_cases last : offset = buffer.count
        · simp [last]
        · have earlier : offset < buffer.count := by omega
          rw [update_of_ne]
          · exact buffer.occupied offset earlier
          · exact fun same => last (slot_injective (by omega) room same) }
  else none

theorem pop_bounded (buffer : RingBuffer α) : buffer.count - 1 ≤ buffer.size :=
  Nat.le_trans (Nat.sub_le ..) buffer.bounded

theorem pop_headBound (buffer : RingBuffer α) : 0 < buffer.size →
    (buffer.head + 1) % buffer.size < buffer.size :=
  Nat.mod_lt _

theorem pop_occupied (buffer : RingBuffer α) : ∀ offset < buffer.count - 1,
    (buffer.slots (((buffer.head + 1) % buffer.size + offset) % buffer.size)).isSome := by
  intro offset bound
  rw [Nat.mod_add_mod, Nat.add_assoc, Nat.add_comm 1]
  exact buffer.occupied (offset + 1) (by omega)

def pop (buffer : RingBuffer α) : Option (α × RingBuffer α) :=
  if 0 < buffer.count then
    match buffer.slots buffer.head with
    | none => none
    | some value =>
      some (value, { buffer with
        head := (buffer.head + 1) % buffer.size
        count := buffer.count - 1
        bounded := buffer.pop_bounded
        headBound := buffer.pop_headBound
        occupied := buffer.pop_occupied })
  else none

@[simp] theorem contents_empty (size : Nat) : (empty size : RingBuffer α).contents = [] := rfl

theorem length_contents (buffer : RingBuffer α) : buffer.contents.length = buffer.count := by
  have full : ∀ count, (∀ offset < count,
      (buffer.slots ((buffer.head + offset) % buffer.size)).isSome) →
      ((List.range count).filterMap
        (fun offset => buffer.slots ((buffer.head + offset) % buffer.size))).length = count := by
    intro count occupied
    induction count with
    | zero => rfl
    | succ count ih =>
      obtain ⟨value, stored⟩ := Option.isSome_iff_exists.mp (occupied count (by omega))
      rw [List.range_succ, List.filterMap_append, List.length_append,
        ih (fun offset bound => occupied offset (by omega))]
      simp [stored]
  exact full buffer.count buffer.occupied

theorem push_eq_none {buffer : RingBuffer α} (full : buffer.push value = none) :
    buffer.contents.length = buffer.size := by
  have bounded := buffer.bounded
  rw [length_contents]
  simp only [push] at full
  split at full
  · contradiction
  · omega

theorem contents_push {buffer after : RingBuffer α} (stored : buffer.push value = some after) :
    after.contents = buffer.contents ++ [value] ∧ after.size = buffer.size := by
  simp only [push] at stored
  split at stored
  · rename_i room
    cases stored
    refine ⟨?_, rfl⟩
    simp only [contents, List.range_succ, List.filterMap_append]
    congr 1
    · apply List.filterMap_congr
      intro offset member
      have bound := List.mem_range.mp member
      rw [update_of_ne]
      intro same
      have := slot_injective (by omega) room same
      omega
    · simp
  · contradiction

theorem pop_eq_none {buffer : RingBuffer α} (drained : buffer.pop = none) :
    buffer.contents = [] := by
  apply List.eq_nil_of_length_eq_zero
  rw [length_contents]
  simp only [pop] at drained
  split at drained
  · rename_i stored
    have bounded := buffer.bounded
    have present := buffer.occupied 0 stored
    rw [Nat.add_zero, Nat.mod_eq_of_lt (buffer.headBound (by omega))] at present
    split at drained
    · rename_i absent
      simp [absent] at present
    · contradiction
  · omega

theorem contents_pop {buffer after : RingBuffer α} (taken : buffer.pop = some (value, after)) :
    buffer.contents = value :: after.contents ∧ after.size = buffer.size := by
  simp only [pop] at taken
  split at taken
  · rename_i stored
    have bounded := buffer.bounded
    split at taken
    · contradiction
    · rename_i oldest present
      cases taken
      refine ⟨?_, rfl⟩
      obtain ⟨rest, counted⟩ : ∃ rest, buffer.count = rest + 1 := ⟨buffer.count - 1, by omega⟩
      simp only [contents, counted, List.range_succ_eq_map, List.filterMap_cons, Nat.add_zero,
        Nat.mod_eq_of_lt (buffer.headBound (by omega)), present, List.filterMap_map,
        Nat.add_sub_cancel]
      congr 1
      apply List.filterMap_congr
      intro offset _
      simp only [comp, Nat.mod_add_mod, Nat.add_assoc, Nat.add_comm 1]
  · contradiction

end RingBuffer

end Libgoc.Data
