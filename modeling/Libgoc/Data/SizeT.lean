import Mathlib.Algebra.Group.Nat.Defs
import Mathlib.Tactic.Common

namespace Libgoc.Data

/-! # Machine sizes -/

def sizeT (value : Nat) : Nat :=
  value % 2 ^ 64

def subT (left right : Nat) : Nat :=
  if right ≤ left then left - right else 2 ^ 64 - (right - left)

theorem sizeT_of_lt (bound : value < 2 ^ 64) : sizeT value = value :=
  Nat.mod_eq_of_lt bound

theorem subT_of_le (ordered : right ≤ left) : subT left right = left - right :=
  if_pos ordered

theorem sizeT_succ : sizeT (sizeT value + 1) = sizeT (value + 1) := by
  unfold sizeT
  omega

theorem subT_one : subT (sizeT (value + 1)) 1 = sizeT value := by
  unfold subT sizeT
  split <;> omega

end Libgoc.Data
