import Mathlib.Algebra.Order.Ring.Nat
import Mathlib.Data.List.Induction
import Mathlib.Tactic.Common

namespace Libgoc.Data.InPlace

/-! # Loops that rearrange an array in place -/

def swapAt (cells : List α) (i j : Nat) : List α :=
  match cells[i]?, cells[j]? with
  | some first, some second => (cells.set i second).set j first
  | _, _ => cells

/-- The shuffle of Fisher and Yates from cell `i` down, with a generator of numbers. -/
def shuffleFrom (draw : σ → σ × Nat) : Nat → σ → List α → List α
  | 0, _, cells => cells
  | i + 1, seed, cells =>
    shuffleFrom draw i (draw seed).1 (swapAt cells (i + 1) ((draw seed).2 % (i + 2)))

section

variable [LinearOrder α]

/-- Move the cells below `j` that are above `key` up by one, and put `key` into
the cell that gets free. -/
def insertAt (key : α) : Nat → List α → List α
  | 0, cells => cells.set 0 key
  | j + 1, cells =>
    match cells[j]? with
    | none => cells
    | some previous =>
      if previous > key then insertAt key j (cells.set (j + 1) previous)
      else cells.set (j + 1) key

/-- Insertion sort of `left` cells from cell `i` on. -/
def sortFrom : Nat → Nat → List α → List α
  | 0, _, cells => cells
  | left + 1, i, cells =>
    match cells[i]? with
    | none => cells
    | some key => sortFrom left (i + 1) (insertAt key i cells)

/-- Keep one of equal neighbours among `left` cells from cell `i` on, in the first
`unique` cells. -/
def dedupFrom : Nat → Nat → Nat → List α → List α × Nat
  | 0, _, unique, cells => (cells, unique)
  | left + 1, i, unique, cells =>
    match cells[i]?, cells[unique - 1]? with
    | some here, some last =>
      if here ≠ last then dedupFrom left (i + 1) (unique + 1) (cells.set unique here)
      else dedupFrom left (i + 1) unique cells
    | _, _ => (cells, unique)

end

theorem swapAt_perm (cells : List α) (i j : Nat) : (swapAt cells i j).Perm cells := by
  unfold swapAt
  split
  case h_1 first second atFirst atSecond =>
    obtain ⟨inside, rfl⟩ := List.getElem?_eq_some_iff.mp atFirst
    obtain ⟨inside', rfl⟩ := List.getElem?_eq_some_iff.mp atSecond
    exact List.set_set_perm inside inside'
  case h_2 => exact .refl _

theorem shuffleFrom_perm (draw : σ → σ × Nat) (i : Nat) (seed : σ) (cells : List α) :
    (shuffleFrom draw i seed cells).Perm cells := by
  induction i generalizing seed cells with
  | zero => exact .refl _
  | succ i ih => exact (ih _ _).trans (swapAt_perm _ _ _)

theorem cell_after (front rest : List α) (here : α) :
    (front ++ here :: rest)[front.length]? = some here := by
  simp

/-- Writing the cell that is read behind the kept ones leaves the cells after it. -/
theorem set_after (front passed rest : List α) (here : α) :
    ∃ between, between.length = passed.length ∧
      (front ++ passed ++ here :: rest).set front.length here =
        front ++ [here] ++ between ++ rest := by
  cases passed with
  | nil => exact ⟨[], rfl, by simp⟩
  | cons first passed => exact ⟨passed ++ [here], by simp, by simp⟩

section

variable [LinearOrder α] {front : List α}

/-- The cells below the hole are split where `key` goes in. -/
theorem insertAt_spec (key hole : α) (front back : List α) : ∃ low high, front = low ++ high ∧
      insertAt key front.length (front ++ hole :: back) = low ++ key :: high ++ back ∧
      (∀ above ∈ high, key < above) ∧ ∀ last ∈ low.getLast?, last ≤ key := by
  induction front using List.reverseRecOn generalizing hole back with
  | nil => exact ⟨[], [], rfl, rfl, by simp, by simp⟩
  | append_singleton front last ih =>
    by_cases larger : last > key
    · obtain ⟨low, high, split, inserted, above, below⟩ := ih last (last :: back)
      have moved : insertAt key (front ++ [last]).length (front ++ [last] ++ hole :: back) =
          insertAt key front.length (front ++ last :: last :: back) := by
        simp [insertAt, larger]
      refine ⟨low, high ++ [last], by simp [split], ?_, ?_, below⟩
      · rw [moved, inserted]
        simp
      · intro one member
        obtain earlier | same := List.mem_append.mp member
        · exact above one earlier
        · rw [List.mem_singleton.mp same]
          exact larger
    · refine ⟨front ++ [last], [], by simp, ?_, by simp, ?_⟩
      · simp [insertAt, larger]
      · intro one atEnd
        simp only [List.getLast?_append, List.getLast?_singleton, Option.some_or,
          Option.mem_def, Option.some.injEq] at atEnd
        exact atEnd ▸ not_lt.mp larger

theorem le_of_getLast_le {low : List α} (ascending : low.Pairwise (· ≤ ·))
    (below : ∀ last ∈ low.getLast?, last ≤ key) : ∀ one ∈ low, one ≤ key := by
  induction low using List.reverseRecOn with
  | nil => simp
  | append_singleton low last =>
    have atLast : last ≤ key := below last (by simp)
    intro one member
    obtain earlier | same := List.mem_append.mp member
    · exact le_trans ((List.pairwise_append.mp ascending).2.2 one earlier last (by simp)) atLast
    · rw [List.mem_singleton.mp same]
      exact atLast

/-- Insertion makes the ascending part one longer. -/
theorem insertAt_sorts (key : α) (back : List α) (ascending : front.Pairwise (· ≤ ·)) :
    ∃ sorted, insertAt key front.length (front ++ key :: back) = sorted ++ back ∧
      sorted.Perm (front ++ [key]) ∧ sorted.Pairwise (· ≤ ·) := by
  obtain ⟨low, high, rfl, inserted, above, below⟩ := insertAt_spec key key front back
  obtain ⟨lows, highs, ordered⟩ := List.pairwise_append.mp ascending
  refine ⟨low ++ key :: high, inserted, ?_, ?_⟩
  · rw [List.append_assoc]
    exact (List.perm_append_singleton key high).symm.append_left low
  · apply List.pairwise_append.mpr
    refine ⟨lows, List.pairwise_cons.mpr ⟨fun one member => le_of_lt (above one member), highs⟩, ?_⟩
    intro one lower other upper
    obtain same | member := List.mem_cons.mp upper
    · exact same ▸ le_of_getLast_le lows below one lower
    · exact ordered one lower other member

theorem sortFrom_sorts (rest : List α) (ascending : front.Pairwise (· ≤ ·)) :
    (sortFrom rest.length front.length (front ++ rest)).Perm (front ++ rest) ∧
      (sortFrom rest.length front.length (front ++ rest)).Pairwise (· ≤ ·) := by
  induction rest generalizing front with
  | nil => simpa [sortFrom] using ascending
  | cons key rest ih =>
    obtain ⟨sorted, inserted, permuted, ordered⟩ := insertAt_sorts key rest ascending
    have longer : front.length + 1 = sorted.length := by simp [permuted.length_eq]
    have step : sortFrom (key :: rest).length front.length (front ++ key :: rest) =
        sortFrom rest.length sorted.length (sorted ++ rest) := by
      rw [List.length_cons, sortFrom, ← longer]
      simp [inserted]
    obtain ⟨kept, ascends⟩ := ih ordered
    rw [step]
    refine ⟨kept.trans ?_, ascends⟩
    simpa using permuted.append_right rest

/-- `kept ++ [last]` are the first cells, `passed` the ones between them and the
cells still to be read. -/
theorem dedupFrom_spec (rest : List α) {kept passed : List α} {last : α}
    (strict : (kept ++ [last]).Pairwise (· < ·)) (ordered : (last :: rest).Pairwise (· ≤ ·)) :
    ∃ cells unique, dedupFrom rest.length (kept ++ [last] ++ passed).length
        (kept ++ [last]).length (kept ++ [last] ++ passed ++ rest) = (cells, unique) ∧
      (cells.take unique).Pairwise (· < ·) ∧
      ∀ one, one ∈ cells.take unique ↔ one ∈ kept ++ [last] ∨ one ∈ rest := by
  induction rest generalizing kept passed last with
  | nil =>
    refine ⟨kept ++ [last] ++ passed, (kept ++ [last]).length, by simp [dedupFrom], ?_, ?_⟩
    · rw [List.take_left]
      exact strict
    · rw [List.take_left]
      simp
  | cons here rest ih =>
    obtain ⟨least, later⟩ := List.pairwise_cons.mp ordered
    have atLast : (kept ++ [last] ++ passed ++ here :: rest)[(kept ++ [last]).length - 1]? =
        some last := by simp
    by_cases same : here = last
    · obtain ⟨cells, unique, ran, ascends, members⟩ :=
        @ih kept (passed ++ [here]) last strict (same ▸ later)
      refine ⟨cells, unique, ?_, ascends, ?_⟩
      · rw [List.length_cons, dedupFrom, cell_after, atLast]
        simpa [same, Nat.add_assoc] using ran
      · intro one
        rw [members, List.mem_cons, same, List.mem_append, List.mem_singleton]
        tauto
    · have larger : last < here := lt_of_le_of_ne (least here (by simp)) (Ne.symm same)
      have grown : (kept ++ [last] ++ [here]).Pairwise (· < ·) := by
        apply List.pairwise_append.mpr
        refine ⟨strict, List.pairwise_singleton _ _, ?_⟩
        intro one member other atEnd
        rw [List.mem_singleton.mp atEnd]
        obtain earlier | same := List.mem_append.mp member
        · exact lt_trans ((List.pairwise_append.mp strict).2.2 one earlier last (by simp)) larger
        · exact List.mem_singleton.mp same ▸ larger
      obtain ⟨between, length, written⟩ := set_after (kept ++ [last]) passed rest here
      obtain ⟨cells, unique, ran, ascends, members⟩ :=
        @ih (kept ++ [last]) between here grown later
      refine ⟨cells, unique, ?_, ascends, ?_⟩
      · rw [List.length_cons, dedupFrom, cell_after, atLast]
        simp only [ne_eq, same, not_false_eq_true, ↓reduceIte, written]
        simpa [length, Nat.add_assoc, Nat.add_comm 1] using ran
      · intro one
        rw [members, List.mem_append, List.mem_singleton, List.mem_cons]
        tauto

end

end Libgoc.Data.InPlace
