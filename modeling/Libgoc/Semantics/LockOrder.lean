import Mathlib.Logic.Function.Basic
import Mathlib.Logic.Relation
import Mathlib.Order.Defs.PartialOrder

namespace Libgoc.Semantics.LockOrder

open Function

/-! # Taking locks in order -/

variable {Lock : Type u} {Party : Type v} {Stage : Type w}

def WaitsFor (locks : Lock → Option Party) (wants : Party → Option Lock)
    (waiter holder : Party) : Prop :=
  ∃ lock, wants waiter = some lock ∧ locks lock = some holder

/-- Each lock that is taken is among those of its holder's stage. -/
def Covered (held : Stage → List Lock) (locks : Lock → Option Party) (stages : Party → Stage) :
    Prop :=
  ∀ lock party, locks lock = some party → lock ∈ held (stages party)

/-- A party takes a lock only if it comes after all that it holds. -/
def Ascends [LT Lock] (held : Stage → List Lock) (wants : Stage → Option Lock) (stage : Stage) :
    Prop :=
  ∀ lock ∈ held stage, ∀ wanted ∈ wants stage, lock < wanted

section

variable {held : Stage → List Lock} {locks : Lock → Option Party} {stages : Party → Stage}
  {stage : Stage} {party : Party} {lock : Lock}

theorem Covered.stay [DecidableEq Party] (covered : Covered held locks stages)
    (keeps : ∀ other ∈ held (stages party), other ∈ held stage) :
    Covered held locks (update stages party stage) := by
  intro other holder taken
  by_cases same : holder = party
  · subst same
    rw [update_self]
    exact keeps other (covered other _ taken)
  · rw [update_of_ne same]
    exact covered other holder taken

theorem Covered.take [DecidableEq Lock] [DecidableEq Party] (covered : Covered held locks stages)
    (keeps : ∀ other ∈ held (stages party), other ∈ held stage) (gains : lock ∈ held stage) :
    Covered held (update locks lock (some party)) (update stages party stage) := by
  intro other holder taken
  by_cases same : other = lock
  · subst same
    rw [update_self] at taken
    cases taken
    rw [update_self]
    exact gains
  · rw [update_of_ne same] at taken
    exact covered.stay keeps other holder taken

theorem Covered.release [DecidableEq Lock] [DecidableEq Party] (covered : Covered held locks stages)
    (keeps : ∀ other ∈ held (stages party), other ≠ lock → other ∈ held stage) :
    Covered held (update locks lock none) (update stages party stage) := by
  intro other holder taken
  by_cases free : other = lock
  · simp [free, update_self] at taken
  · rw [update_of_ne free] at taken
    by_cases same : holder = party
    · subst same
      rw [update_self]
      exact keeps other (covered other _ taken) free
    · rw [update_of_ne same]
      exact covered other holder taken

end

variable [Preorder Lock] {held : Stage → List Lock} {wants : Stage → Option Lock}
  {locks : Lock → Option Party} {stages : Party → Stage}

/-- Along a chain of waiting parties the locks ascend. -/
theorem chain_ascends (covered : Covered held locks stages)
    (ascends : ∀ party, Ascends held wants (stages party))
    (chain : Relation.TransGen (WaitsFor locks fun party => wants (stages party)) first last) :
    ∃ wanted taken, wants (stages first) = some wanted ∧ locks taken = some last ∧
      wanted ≤ taken := by
  induction chain with
  | single waits =>
    obtain ⟨lock, wanted, taken⟩ := waits
    exact ⟨lock, lock, wanted, taken, le_refl _⟩
  | tail _ waits ih =>
    obtain ⟨wanted, between, wants, holds, below⟩ := ih
    obtain ⟨lock, next, taken⟩ := waits
    have above := ascends _ between (covered _ _ holds) lock next
    exact ⟨wanted, lock, wants, taken, le_trans below (le_of_lt above)⟩

/-- No party waits, through any number of others, for itself. -/
theorem no_cycle (covered : Covered held locks stages)
    (ascends : ∀ party, Ascends held wants (stages party)) (party : Party) :
    ¬ Relation.TransGen (WaitsFor locks fun party => wants (stages party)) party party := by
  intro cycle
  obtain ⟨wanted, taken, wants, holds, below⟩ := chain_ascends covered ascends cycle
  have above := ascends party taken (covered _ _ holds) wanted wants
  exact lt_irrefl taken (lt_of_lt_of_le above below)

end Libgoc.Semantics.LockOrder
