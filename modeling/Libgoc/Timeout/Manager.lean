import Libgoc.Data.HeapOperations
import Libgoc.Semantics.Execution
import Libgoc.Timeout.Deadline

namespace Libgoc.Timeout

open Libgoc.Semantics Libgoc.Data

/-! # The timer manager (`src/loop.c`) -/

instance uint64LinearOrder : LinearOrder UInt64 where
  le_refl := UInt64.le_refl
  le_trans _ _ _ := UInt64.le_trans
  le_antisymm _ _ := UInt64.le_antisymm
  le_total := UInt64.le_total
  lt_iff_le_not_ge a b := by
    rw [UInt64.lt_iff_toNat_lt, UInt64.le_iff_toNat_le, UInt64.le_iff_toNat_le]
    omega
  toDecidableLE := inferInstance
  toDecidableLT := inferInstance
  toDecidableEq := inferInstance

abbrev Ctx := Nat

/-- `g_timer_heap` with the times in nanoseconds at which to fire, and `heap_idx`
of each context. -/
abbrev TimerHeap := IndexedHeap UInt64 Ctx

def timerHeapSiftUp (heap : TimerHeap) (i : Nat) : TimerHeap :=
  heap.siftUp i

def timerHeapSiftDown (heap : TimerHeap) (i : Nat) : TimerHeap :=
  heap.siftDown i

def gocTimerManagerInsert (heap : TimerHeap) (ctx : Ctx) (deadlineNs : UInt64) : TimerHeap :=
  timerHeapSiftUp (heap.extend ctx deadlineNs) heap.entries.length

/-- The last entry takes the place of the one that goes, and finds its own from there. -/
def gocTimerManagerRemove (heap : TimerHeap) (ctx : Ctx) : TimerHeap :=
  match heap.index ctx with
  | none => heap
  | some i =>
    if heap.entries.length ≤ i then heap
    else if i = heap.entries.length - 1 then heap.shrink ctx
    else
      match heap.entries.getLast? with
      | none => heap
      | some moved =>
        let raised := timerHeapSiftUp ((heap.shrink ctx).place i moved) i
        match raised.index moved.2 with
        | some j => timerHeapSiftDown raised j
        | none => raised

theorem gocTimerManagerInsert_eq (heap : TimerHeap) (ctx : Ctx) (deadlineNs : UInt64) :
    gocTimerManagerInsert heap ctx deadlineNs = heap.insert ctx deadlineNs := rfl

theorem gocTimerManagerRemove_eq (heap : TimerHeap) (ctx : Ctx) :
    gocTimerManagerRemove heap ctx = heap.remove ctx := by
  unfold gocTimerManagerRemove IndexedHeap.remove
  cases heap.index ctx with
  | none => rfl
  | some i => cases heap.entries.getLast? <;> rfl

/-- What `on_timer_mgr_fire` takes out of the heap, and the heap that it leaves. -/
def onTimerMgrFire (heap : TimerHeap) (nowNs : UInt64) : List (UInt64 × Ctx) × TimerHeap :=
  heap.popUntil nowNs

inductive Label where
  | insert (ctx : Ctx) (deadlineNs : UInt64)
  | remove (ctx : Ctx)
  | fire (nowNs : UInt64)

/-- A context is inserted by its own start task, so it is not in the heap then. -/
def step (heap : TimerHeap) : Label → Option TimerHeap
  | .insert ctx deadlineNs =>
    if heap.index ctx = none then some (gocTimerManagerInsert heap ctx deadlineNs) else none
  | .remove ctx => some (gocTimerManagerRemove heap ctx)
  | .fire nowNs => some (onTimerMgrFire heap nowNs).2

def system : System TimerHeap Label where
  initial heap := heap = .empty
  step := step

section

variable {heap next : TimerHeap} {label : Label}

theorem empty_valid : (IndexedHeap.empty : TimerHeap).Valid := by
  constructor
  · intro child _ a b _ atChild
    cases atChild
  · intro ctx i
    simp [IndexedHeap.empty]

theorem step_valid (valid : heap.Valid) (stepped : step heap label = some next) : next.Valid := by
  cases label with
  | insert ctx deadlineNs =>
    simp only [step] at stepped
    split at stepped
    next absent =>
      cases stepped
      exact (IndexedHeap.insert_spec valid deadlineNs absent).1
    next => cases stepped
  | remove ctx =>
    cases stepped
    rw [gocTimerManagerRemove_eq]
    exact (IndexedHeap.remove_spec valid ctx).1
  | fire nowNs =>
    cases stepped
    exact (IndexedHeap.popFrom_spec nowNs _ valid le_rfl).1

theorem valid_of_reachable (reachable : system.Reachable heap) : heap.Valid := by
  apply reachable.invariant
  · intro heap initial
    obtain rfl : heap = .empty := initial
    exact empty_valid
  · intro heap label next valid stepped
    exact step_valid valid stepped

/-- The deadlines are in the order of a heap and every context has the index of its
entry or none; inserting adds the given entry alone, removing takes out the given
context alone, and firing takes out the contexts whose time has come, in the order
of their times. -/
structure Ordered (heap : TimerHeap) : Prop where
  sorted : ∀ i parent entry, 0 < i → heap.entries[(i - 1) / 2]? = some parent →
    heap.entries[i]? = some entry → parent.1 ≤ entry.1
  indexed : ∀ ctx i,
    heap.index ctx = some i ↔ ∃ deadlineNs, heap.entries[i]? = some (deadlineNs, ctx)
  absent : ∀ ctx, heap.index ctx = none ↔ ∀ entry ∈ heap.entries, entry.2 ≠ ctx
  inserts : ∀ ctx deadlineNs, heap.index ctx = none →
    ∀ entry, entry ∈ (gocTimerManagerInsert heap ctx deadlineNs).entries ↔
      entry ∈ heap.entries ∨ entry = (deadlineNs, ctx)
  removes : ∀ ctx entry, entry ∈ (gocTimerManagerRemove heap ctx).entries ↔
    entry ∈ heap.entries ∧ entry.2 ≠ ctx
  fires : ∀ nowNs,
    (∀ entry, entry ∈ (onTimerMgrFire heap nowNs).1 ↔ entry ∈ heap.entries ∧ entry.1 ≤ nowNs) ∧
    (onTimerMgrFire heap nowNs).1.Pairwise (fun first second => first.1 ≤ second.1) ∧
    ((onTimerMgrFire heap nowNs).1.map Prod.snd).Nodup ∧
    ∀ entry, entry ∈ (onTimerMgrFire heap nowNs).2.entries ↔
      entry ∈ heap.entries ∧ nowNs < entry.1

theorem timers_ordered (reachable : system.Reachable heap) : Ordered heap := by
  have valid := valid_of_reachable reachable
  constructor
  · intro i parent entry positive atParent there
    exact valid.ordered i positive _ _ (IndexedHeap.keyAt_some atParent)
      (IndexedHeap.keyAt_some there)
  · exact valid.indexed
  · intro ctx
    constructor
    · intro absent entry member
      exact valid.absent absent member
    · intro apart
      cases position : heap.index ctx with
      | none => rfl
      | some i =>
        obtain ⟨deadlineNs, there⟩ := (valid.indexed ctx i).mp position
        exact absurd rfl (apart _ (List.mem_of_getElem? there))
  · intro ctx deadlineNs absent
    exact (IndexedHeap.insert_spec valid deadlineNs absent).2
  · intro ctx
    rw [gocTimerManagerRemove_eq]
    exact (IndexedHeap.remove_spec valid ctx).2
  · intro nowNs
    obtain ⟨_, remaining, expired, sorted, distinct⟩ :=
      IndexedHeap.popFrom_spec nowNs heap.entries.length valid le_rfl
    exact ⟨expired, sorted, distinct, remaining⟩

end

def timerRun : List Label :=
  [.insert 0 30, .insert 1 10, .insert 2 20, .insert 3 40, .remove 2, .fire 15]

theorem timerRun_ordered : ∃ heap, system.run .empty timerRun = some heap ∧
    heap.entries = [(30, 0), (40, 3)] ∧ Ordered heap :=
  ⟨_, rfl, rfl, timers_ordered (.of_run system timerRun rfl rfl)⟩

end Libgoc.Timeout
