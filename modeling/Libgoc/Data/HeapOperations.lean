import Libgoc.Data.IndexedHeap
import Mathlib.Data.List.Nodup
import Mathlib.Tactic.Push

namespace Libgoc.Data.IndexedHeap

/-! # Operations on heaps -/

section

variable {κ ι : Type} [LinearOrder κ] {heap : IndexedHeap κ ι}

theorem above_of_le (there : heap.entries[upper]? = some entry)
    (le : ∀ below, heap.entries[lower]? = some below → entry.1 ≤ below.1) :
    Above heap.keyAt upper lower := by
  intro a b atUpper atLower
  rw [keyAt_some there] at atUpper
  cases atUpper
  obtain ⟨below, found, rfl⟩ := Option.map_eq_some_iff.mp atLower
  exact le below found

theorem smaller_cases (child : Nat) (there : heap.entries[smallest]? = some entry) :
    (heap.smaller child smallest = child ∧
        ∃ below, heap.entries[child]? = some below ∧ below.1 < entry.1) ∨
      heap.smaller child smallest = smallest ∧
        ∀ below, heap.entries[child]? = some below → entry.1 ≤ below.1 := by
  unfold smaller
  cases found : heap.entries[child]? with
  | none => simp
  | some below =>
    rw [there]
    dsimp only
    split
    next less => exact .inl ⟨rfl, below, rfl, less⟩
    next notLess =>
      refine .inr ⟨rfl, ?_⟩
      intro other same
      cases same
      exact not_lt.mp notLess

structure Lighter (heap : IndexedHeap κ ι) (i child : Nat) : Prop where
  positive : 0 < child
  under : (child - 1) / 2 = i
  less : ∃ entry below, heap.entries[i]? = some entry ∧ heap.entries[child]? = some below ∧
    below.1 < entry.1
  least : ∀ other, 0 < other → (other - 1) / 2 = i → Above heap.keyAt child other

/-- The least of an entry and its children is the entry, which is then not above
them, or a lighter child. -/
theorem smallest_cases (bound : i < heap.entries.length) :
    let smallest := heap.smaller (2 * i + 2) (heap.smaller (2 * i + 1) i)
    (smallest = i ∧ ∀ child, 0 < child → (child - 1) / 2 = i → Above heap.keyAt i child) ∨
      smallest ≠ i ∧ Lighter heap i smallest := by
  have atHere : heap.entries[i]? = some _ := List.getElem?_eq_getElem bound
  have children : ∀ child, 0 < child → (child - 1) / 2 = i → child = 2 * i + 1 ∨ child = 2 * i + 2 := by
    intro child positive under
    omega
  dsimp only
  obtain ⟨leftChosen, left, atLeft, leftLess⟩ | ⟨stays, leftMore⟩ :=
      smaller_cases (2 * i + 1) atHere
  · rw [leftChosen]
    right
    obtain ⟨rightChosen, right, atRight, rightLess⟩ | ⟨stays, rightMore⟩ :=
      smaller_cases (2 * i + 2) atLeft
    · rw [rightChosen]
      refine ⟨by omega, by omega, by omega, ⟨_, right, atHere, atRight, lt_trans rightLess leftLess⟩, ?_⟩
      intro other positive under
      apply above_of_le atRight
      intro below found
      obtain rfl | rfl := children other positive under
      · rw [atLeft] at found
        cases found
        exact le_of_lt rightLess
      · rw [atRight] at found
        cases found
        exact le_rfl
    · rw [stays]
      refine ⟨by omega, by omega, by omega, ⟨_, left, atHere, atLeft, leftLess⟩, ?_⟩
      intro other positive under
      apply above_of_le atLeft
      intro below found
      obtain rfl | rfl := children other positive under
      · rw [atLeft] at found
        cases found
        exact le_rfl
      · exact rightMore below found
  · rw [stays]
    obtain ⟨rightChosen, right, atRight, rightLess⟩ | ⟨stays, rightMore⟩ :=
      smaller_cases (2 * i + 2) atHere
    · rw [rightChosen]
      refine .inr ⟨by omega, by omega, by omega, ⟨_, right, atHere, atRight, rightLess⟩, ?_⟩
      intro other positive under
      apply above_of_le atRight
      intro below found
      obtain rfl | rfl := children other positive under
      · exact le_of_lt (lt_of_lt_of_le rightLess (leftMore below found))
      · rw [atRight] at found
        cases found
        exact le_rfl
    · rw [stays]
      refine .inl ⟨rfl, ?_⟩
      intro child positive under
      apply above_of_le atHere
      intro below found
      obtain rfl | rfl := children child positive under
      · exact leftMore below found
      · exact rightMore below found
end

section

variable {κ ι : Type} [LinearOrder κ] [DecidableEq ι]

theorem siftUpFrom_spec (fuel : Nat) (heap : IndexedHeap κ ι) (i : Nat) (enough : i ≤ fuel)
    (bound : i < heap.entries.length) :
    Rearranged heap (siftUpFrom fuel heap i) ∧
      (MayRise heap.keyAt i → HeapOrder (siftUpFrom fuel heap i).keyAt) := by
  induction fuel generalizing heap i with
  | zero =>
    refine ⟨.refl, fun rise => rise.heapOrder fun positive => ?_⟩
    omega
  | succ fuel ih =>
    unfold siftUpFrom
    split
    next root =>
      refine ⟨.refl, fun rise => rise.heapOrder fun positive => ?_⟩
      omega
    next notRoot =>
      have atParent : heap.entries[(i - 1) / 2]? = some _ :=
        List.getElem?_eq_getElem (show (i - 1) / 2 < heap.entries.length by omega)
      have atHere : heap.entries[i]? = some _ := List.getElem?_eq_getElem bound
      rw [atParent, atHere]
      dsimp only
      split
      next ordered =>
        refine ⟨.refl, fun rise => rise.heapOrder fun _ => ?_⟩
        intro upper lower atUpper atLower
        rw [keyAt_some atParent] at atUpper
        rw [keyAt_some atHere] at atLower
        cases atUpper
        cases atLower
        exact ordered
      next above =>
        have apart : (i - 1) / 2 ≠ i := by omega
        have swapped := swap_rearranged atParent atHere apart
        obtain ⟨rearranged, sorted⟩ :=
          ih (heap.swap ((i - 1) / 2) i) ((i - 1) / 2) (by omega) (by rw [swapped.length]; omega)
        refine ⟨swapped.trans rearranged, fun rise => sorted ?_⟩
        exact rise.step (by omega) (keyAt_some atParent) (keyAt_some atHere) (not_le.mp above)
          (swap_keys atParent atHere apart)

theorem siftUp_rearranged {heap : IndexedHeap κ ι} (bound : i < heap.entries.length) :
    Rearranged heap (heap.siftUp i) :=
  (siftUpFrom_spec i heap i le_rfl bound).1

theorem siftUp_heapOrder {heap : IndexedHeap κ ι} (bound : i < heap.entries.length)
    (rise : MayRise heap.keyAt i) : HeapOrder (heap.siftUp i).keyAt :=
  (siftUpFrom_spec i heap i le_rfl bound).2 rise

theorem siftDownFrom_spec (fuel : Nat) (heap : IndexedHeap κ ι) (i : Nat)
    (enough : heap.entries.length ≤ fuel + i) (bound : i < heap.entries.length) :
    Rearranged heap (siftDownFrom fuel heap i) ∧
      (MaySink heap.keyAt i → HeapOrder (siftDownFrom fuel heap i).keyAt) := by
  induction fuel generalizing heap i with
  | zero => omega
  | succ fuel ih =>
    have choice := smallest_cases bound
    unfold siftDownFrom
    dsimp only at choice ⊢
    generalize heap.smaller (2 * i + 2) (heap.smaller (2 * i + 1) i) = smallest at choice ⊢
    obtain ⟨same, ordered⟩ | ⟨apart, lighter⟩ := choice
    · rw [if_pos same]
      exact ⟨.refl, fun sink => sink.heapOrder ordered⟩
    · rw [if_neg apart]
      obtain ⟨entry, below, atHere, atChild, less⟩ := lighter.less
      have under := lighter.under
      have positive := lighter.positive
      have swapped := swap_rearranged atHere atChild (Ne.symm apart)
      have childBound := getElem?_lt atChild
      obtain ⟨rearranged, sorted⟩ := ih (heap.swap i smallest) smallest
        (by rw [swapped.length]; omega) (by rw [swapped.length]; exact childBound)
      refine ⟨swapped.trans rearranged, fun sink => sorted ?_⟩
      exact sink.step positive under (keyAt_some atHere) (keyAt_some atChild) less lighter.least
        (swap_keys atHere atChild (Ne.symm apart))

theorem siftDown_rearranged {heap : IndexedHeap κ ι} (bound : i < heap.entries.length) :
    Rearranged heap (heap.siftDown i) :=
  (siftDownFrom_spec _ heap i (Nat.le_add_right _ _) bound).1

theorem siftDown_heapOrder {heap : IndexedHeap κ ι} (bound : i < heap.entries.length)
    (sink : MaySink heap.keyAt i) : HeapOrder (heap.siftDown i).keyAt :=
  (siftDownFrom_spec _ heap i (Nat.le_add_right _ _) bound).2 sink

end

section

variable {κ ι : Type} [LinearOrder κ]

/-- The keys are in order and the items know their places. -/
structure Valid (heap : IndexedHeap κ ι) : Prop where
  ordered : HeapOrder heap.keyAt
  indexed : heap.Indexed

variable {heap : IndexedHeap κ ι}

/-- In order, an entry may sink: it stays where it is. -/
theorem HeapOrder.maySink {key : κ} (ordered : HeapOrder keys)
    (there : keys i = some key) : MaySink keys i where
  elsewhere child positive _ := ordered child positive
  bridged positive child first under := by
    apply (ordered i positive).trans there
    rw [← under]
    exact ordered child first

/-- The least key is at the root. -/
theorem HeapOrder.root_le (ordered : HeapOrder heap.keyAt)
    (atRoot : heap.entries[0]? = some root) {i : Nat} (there : heap.entries[i]? = some entry) :
    root.1 ≤ entry.1 := by
  induction i using Nat.strongRecOn generalizing entry with
  | _ i ih =>
    by_cases first : i = 0
    · subst first
      rw [atRoot] at there
      cases there
      exact le_rfl
    · have bound := getElem?_lt there
      have atParent : heap.entries[(i - 1) / 2]? = some _ :=
        List.getElem?_eq_getElem (show (i - 1) / 2 < heap.entries.length by omega)
      have below := ih ((i - 1) / 2) (by omega) atParent
      exact le_trans below (ordered i (by omega) _ _ (keyAt_some atParent) (keyAt_some there))

theorem Valid.absent (valid : heap.Valid) (absent : heap.index item = none)
    (member : entry ∈ heap.entries) : entry.2 ≠ item := by
  rintro rfl
  obtain ⟨i, there⟩ := List.mem_iff_getElem?.mp member
  simp [(valid.indexed entry.2 i).mpr ⟨entry.1, there⟩] at absent

theorem Valid.distinct (valid : heap.Valid) : (heap.entries.map Prod.snd).Nodup := by
  rw [List.Nodup, List.pairwise_map, List.pairwise_iff_getElem]
  intro i j iBound jBound before same
  have again := valid.indexed.unique (List.getElem?_eq_getElem iBound)
    (List.getElem?_eq_getElem jBound) same
  omega

theorem Valid.present (valid : heap.Valid) :
    heap.index item ≠ none ↔ ∃ entry ∈ heap.entries, entry.2 = item := by
  constructor
  · intro there
    obtain ⟨i, position⟩ := Option.ne_none_iff_exists'.mp there
    obtain ⟨key, found⟩ := (valid.indexed item i).mp position
    exact ⟨_, List.mem_of_getElem? found, rfl⟩
  · rintro ⟨entry, member, rfl⟩ absent
    exact valid.absent absent member rfl

/-- Where a heap has lost the entries of one item alone, that item alone is no
longer present. -/
theorem present_of_members {heap' : IndexedHeap κ ι} (valid : heap.Valid) (valid' : heap'.Valid)
    (members : ∀ entry, entry ∈ heap'.entries ↔ entry ∈ heap.entries ∧ entry.2 ≠ item)
    (other : ι) : heap'.index other ≠ none ↔ heap.index other ≠ none ∧ other ≠ item := by
  rw [valid'.present, valid.present]
  simp only [members]
  constructor
  · rintro ⟨entry, ⟨member, apart⟩, rfl⟩
    exact ⟨⟨entry, member, rfl⟩, apart⟩
  · rintro ⟨⟨entry, member, rfl⟩, apart⟩
    exact ⟨entry, ⟨member, apart⟩, rfl⟩

variable [DecidableEq ι]

theorem extend_mayRise (ordered : HeapOrder heap.keyAt) :
    MayRise (heap.extend item key).keyAt heap.entries.length := by
  have beyond : ∀ i, heap.entries.length < i → (heap.extend item key).keyAt i = none := by
    intro i past
    simp [keyAt, extend_beyond past]
  have within : ∀ i < heap.entries.length, (heap.extend item key).keyAt i = heap.keyAt i := by
    intro i bound
    simp [keyAt, extend_within bound]
  constructor
  · intro child positive other a b atParent atChild
    by_cases past : heap.entries.length < child
    · simp [beyond child past] at atChild
    · rw [within child (by omega)] at atChild
      rw [within _ (by omega)] at atParent
      exact ordered child positive a b atParent atChild
  · intro _ child positive under a b _ atChild
    simp [beyond child (by omega)] at atChild

theorem insert_spec (valid : heap.Valid) {item : ι} (key : κ) (absent : heap.index item = none) :
    (heap.insert item key).Valid ∧
      ∀ entry, entry ∈ (heap.insert item key).entries ↔
        entry ∈ heap.entries ∨ entry = (key, item) := by
  have bound : heap.entries.length < (heap.extend item key).entries.length := by
    simp [extend]
  have rearranged := siftUp_rearranged bound
  refine ⟨⟨?_, ?_⟩, ?_⟩
  · exact siftUp_heapOrder bound (extend_mayRise valid.ordered)
  · exact rearranged.indexed (extend_indexed valid.indexed absent)
  · intro entry
    refine (rearranged.members entry).trans ?_
    simp [extend]

theorem insert_present (valid : heap.Valid) (absent : heap.index item = none) (other : ι) :
    (heap.insert item key).index other ≠ none ↔ heap.index other ≠ none ∨ other = item := by
  obtain ⟨inserted, members⟩ := insert_spec valid key absent
  rw [inserted.present, valid.present]
  simp only [members]
  constructor
  · rintro ⟨entry, member | rfl, rfl⟩
    · exact .inl ⟨entry, member, rfl⟩
    · exact .inr rfl
  · rintro (⟨entry, member, rfl⟩ | rfl)
    · exact ⟨entry, .inl member, rfl⟩
    · exact ⟨_, .inr rfl, rfl⟩

theorem shrink_heapOrder (ordered : HeapOrder heap.keyAt) :
    HeapOrder (heap.shrink item).keyAt := by
  intro child positive a b atParent atChild
  have bound : child + 1 < heap.entries.length := by
    by_contra past
    simp [keyAt, shrink_beyond (not_lt.mp past)] at atChild
  unfold keyAt at atParent atChild
  rw [shrink_within (by omega)] at atParent
  rw [shrink_within bound] at atChild
  exact ordered child positive a b atParent atChild

theorem shrink_spec (valid : heap.Valid)
    (last : heap.entries[heap.entries.length - 1]? = some out) :
    (heap.shrink out.2).Valid ∧
      ∀ entry, entry ∈ (heap.shrink out.2).entries ↔ entry ∈ heap.entries ∧ entry.2 ≠ out.2 := by
  refine ⟨⟨shrink_heapOrder valid.ordered, shrink_indexed valid.indexed last⟩, ?_⟩
  intro entry
  rw [List.mem_iff_getElem?, List.mem_iff_getElem?]
  constructor
  · rintro ⟨j, found⟩
    by_cases within : j + 1 < heap.entries.length
    · rw [shrink_within within] at found
      refine ⟨⟨j, found⟩, fun same => ?_⟩
      have again := valid.indexed.unique found last same
      omega
    · rw [shrink_beyond (by omega)] at found
      cases found
  · rintro ⟨⟨j, found⟩, other⟩
    have bound := getElem?_lt found
    refine ⟨j, (shrink_within ?_).trans found⟩
    by_contra past
    have atLast : j = heap.entries.length - 1 := by omega
    rw [atLast, last] at found
    cases found
    exact other rfl

section

variable {i : Nat} {out moved : κ × ι} (refills : Refill heap i out moved)

include refills

/-- Away from the place that is filled the keys are as before. -/
theorem Refill.above (ordered : HeapOrder heap.keyAt) (positive : 0 < child)
    (notHere : child ≠ i) (notUnder : (child - 1) / 2 ≠ i) :
    Above (heap.refill i out moved).keyAt ((child - 1) / 2) child := by
  intro a b atParent atChild
  have bound : child + 1 < heap.entries.length := by
    by_contra past
    simp [keyAt, refills.beyond (not_lt.mp past)] at atChild
  unfold keyAt at atParent atChild
  rw [refill_others notUnder (by omega)] at atParent
  rw [refill_others notHere bound] at atChild
  exact ordered child positive a b atParent atChild

theorem Refill.bridged (ordered : HeapOrder heap.keyAt) :
    Bridged (heap.refill i out moved).keyAt i := by
  intro positive child first under a b atParent atChild
  have bound : child + 1 < heap.entries.length := by
    by_contra past
    simp [keyAt, refills.beyond (not_lt.mp past)] at atChild
  unfold keyAt at atParent atChild
  rw [refill_others (by omega) (by omega)] at atParent
  rw [refill_others (by omega) bound] at atChild
  have through := ordered child first
  rw [under] at through
  exact (ordered i positive).trans (keyAt_some refills.there) through a b atParent atChild

/-- The entry that fills the place may sink where it is not below its parent. -/
theorem Refill.maySink (ordered : HeapOrder heap.keyAt)
    (stays : 0 < i → Above (heap.refill i out moved).keyAt ((i - 1) / 2) i) :
    MaySink (heap.refill i out moved).keyAt i where
  elsewhere child positive notUnder := by
    by_cases here : child = i
    · subst here
      exact stays positive
    · exact refills.above ordered positive here notUnder
  bridged := refills.bridged ordered

/-- The entry that fills the place may rise where it is below its parent. -/
theorem Refill.mayRise (ordered : HeapOrder heap.keyAt) (positive : 0 < i) {above : κ}
    (atParent : (heap.refill i out moved).keyAt ((i - 1) / 2) = some above)
    (less : moved.1 < above) : MayRise (heap.refill i out moved).keyAt i where
  elsewhere child first notHere := by
    by_cases under : (child - 1) / 2 = i
    · intro a b atUpper atLower
      rw [under, keyAt_some refills.here] at atUpper
      cases atUpper
      exact le_trans (le_of_lt less) (refills.bridged ordered positive child first under above b
        atParent atLower)
    · exact refills.above ordered first notHere under
  bridged := refills.bridged ordered

end

/-- An entry that is not below its parent does not rise. -/
theorem siftUp_stays (bound : i < heap.entries.length)
    (stays : 0 < i → Above heap.keyAt ((i - 1) / 2) i) : heap.siftUp i = heap := by
  cases i with
  | zero => rfl
  | succ i =>
    have atParent : heap.entries[(i + 1 - 1) / 2]? = some _ :=
      List.getElem?_eq_getElem (show (i + 1 - 1) / 2 < heap.entries.length by omega)
    have atHere : heap.entries[i + 1]? = some _ := List.getElem?_eq_getElem bound
    have ordered := stays (Nat.succ_pos i) _ _ (keyAt_some atParent) (keyAt_some atHere)
    unfold siftUp siftUpFrom
    rw [if_neg (Nat.succ_ne_zero i), atParent, atHere]
    exact if_pos ordered

/-- After the place of an entry has been filled, rising and sinking restore the order. -/
theorem Refill.restored {i : Nat} (refills : Refill heap i out moved) (valid : heap.Valid) :
    ∃ j, ((heap.refill i out moved).siftUp i).index moved.2 = some j ∧
      Rearranged (heap.refill i out moved) (((heap.refill i out moved).siftUp i).siftDown j) ∧
      HeapOrder (((heap.refill i out moved).siftUp i).siftDown j).keyAt := by
  have raised := siftUp_rearranged refills.bound
  have indexed := raised.indexed (refills.indexed valid.indexed)
  have member : moved ∈ ((heap.refill i out moved).siftUp i).entries :=
    (raised.members moved).mpr (List.mem_of_getElem? refills.here)
  obtain ⟨j, found⟩ := List.mem_iff_getElem?.mp member
  have lower := siftDown_rearranged (getElem?_lt found)
  refine ⟨j, (indexed moved.2 j).mpr ⟨moved.1, found⟩, raised.trans lower, ?_⟩
  apply siftDown_heapOrder (getElem?_lt found)
  by_cases stays : 0 < i → Above (heap.refill i out moved).keyAt ((i - 1) / 2) i
  · rw [siftUp_stays refills.bound stays] at found ⊢
    have same := (refills.indexed valid.indexed).unique refills.here found rfl
    rw [← same]
    exact refills.maySink valid.ordered stays
  · have sorted : HeapOrder ((heap.refill i out moved).siftUp i).keyAt := by
      apply siftUp_heapOrder refills.bound
      push Not at stays
      obtain ⟨positive, notAbove⟩ := stays
      unfold Above at notAbove
      push Not at notAbove
      obtain ⟨a, b, atParent, atHere, less⟩ := notAbove
      rw [keyAt_some refills.here] at atHere
      cases atHere
      exact refills.mayRise valid.ordered positive atParent less
    exact sorted.maySink (keyAt_some found)

theorem remove_spec (valid : heap.Valid) (item : ι) : (heap.remove item).Valid ∧
      ∀ entry, entry ∈ (heap.remove item).entries ↔ entry ∈ heap.entries ∧ entry.2 ≠ item := by
  unfold remove
  cases position : heap.index item with
  | none =>
    refine ⟨valid, fun entry => ⟨fun member => ⟨member, valid.absent position member⟩, And.left⟩⟩
  | some i =>
    obtain ⟨key, there⟩ := (valid.indexed item i).mp position
    have bound := getElem?_lt there
    dsimp only
    rw [if_neg (Nat.not_le.mpr bound)]
    split
    next atLast =>
      rw [atLast] at there
      exact shrink_spec valid there
    next notLast =>
      cases last : heap.entries.getLast? with
      | none =>
        rw [List.getLast?_eq_none_iff] at last
        simp [last] at bound
      | some moved =>
        have refills : Refill heap i (key, item) moved :=
          ⟨there, getLast?_place last, by omega⟩
        obtain ⟨j, index, rearranged, ordered⟩ := refills.restored valid
        have indexed := rearranged.indexed (refills.indexed valid.indexed)
        dsimp only
        unfold refill at index rearranged ordered indexed
        rw [index]
        refine ⟨⟨ordered, indexed⟩, ?_⟩
        intro entry
        exact (rearranged.members entry).trans (refills.members valid.indexed entry)

theorem popRoot_spec (valid : heap.Valid) {root : κ × ι} (atRoot : heap.entries[0]? = some root) :
    (heap.popRoot root).Valid ∧
      (∀ entry, entry ∈ (heap.popRoot root).entries ↔ entry ∈ heap.entries ∧ entry.2 ≠ root.2) ∧
      (heap.popRoot root).entries.length + 1 = heap.entries.length := by
  unfold popRoot
  have bound := getElem?_lt atRoot
  cases last : heap.entries.getLast? with
  | none =>
    rw [List.getLast?_eq_none_iff] at last
    simp [last] at bound
  | some moved =>
    dsimp only
    split
    next more =>
      have refills : Refill heap 0 root moved := ⟨atRoot, getLast?_place last, more⟩
      have rearranged := siftDown_rearranged refills.bound
      have ordered := siftDown_heapOrder refills.bound
        (refills.maySink valid.ordered fun positive => absurd positive (Nat.lt_irrefl 0))
      refine ⟨⟨ordered, rearranged.indexed (refills.indexed valid.indexed)⟩, ?_, ?_⟩
      · intro entry
        exact (rearranged.members entry).trans (refills.members valid.indexed entry)
      · have length := rearranged.length
        unfold refill at length
        rw [length, place_length, shrink_length]
        omega
    next only =>
      have single : heap.entries.length - 1 = 0 := by omega
      have atLast : heap.entries[heap.entries.length - 1]? = some root := by
        rw [single]
        exact atRoot
      obtain ⟨shrunk, members⟩ := shrink_spec valid atLast
      refine ⟨shrunk, members, ?_⟩
      rw [shrink_length]
      omega

/-- What is taken out up to a bound: the entries with a key that is not above it,
in the order of their keys. -/
theorem popFrom_spec (bound : κ) (fuel : Nat) (valid : heap.Valid)
    (enough : heap.entries.length ≤ fuel) :
    (popFrom bound fuel heap).2.Valid ∧
      (∀ entry, entry ∈ (popFrom bound fuel heap).2.entries ↔
        entry ∈ heap.entries ∧ bound < entry.1) ∧
      (∀ entry, entry ∈ (popFrom bound fuel heap).1 ↔ entry ∈ heap.entries ∧ entry.1 ≤ bound) ∧
      (popFrom bound fuel heap).1.Pairwise (fun first second => first.1 ≤ second.1) ∧
      ((popFrom bound fuel heap).1.map Prod.snd).Nodup := by
  induction fuel generalizing heap with
  | zero =>
    have empty : heap.entries = [] := List.eq_nil_of_length_eq_zero (by omega)
    refine ⟨valid, ?_, ?_, .nil, .nil⟩ <;> simp [popFrom, empty]
  | succ fuel ih =>
    unfold popFrom
    cases atRoot : heap.entries[0]? with
    | none =>
      have empty : heap.entries = [] := by
        rw [← List.head?_eq_getElem?] at atRoot
        exact List.head?_eq_none_iff.mp atRoot
      refine ⟨valid, ?_, ?_, .nil, .nil⟩ <;> simp [empty]
    | some root =>
      have least : ∀ entry ∈ heap.entries, root.1 ≤ entry.1 := by
        intro entry member
        obtain ⟨i, there⟩ := List.mem_iff_getElem?.mp member
        exact valid.ordered.root_le atRoot there
      dsimp only
      split
      next due =>
        obtain ⟨popped, members, length⟩ := popRoot_spec valid atRoot
        obtain ⟨rest, remaining, expired, sorted, distinct⟩ := ih popped (by omega)
        have rootMember := List.mem_of_getElem? atRoot
        have isRoot : ∀ entry ∈ heap.entries, entry.2 = root.2 → entry = root := by
          intro entry member same
          obtain ⟨i, there⟩ := List.mem_iff_getElem?.mp member
          obtain rfl := valid.indexed.unique there atRoot same
          exact Option.some.inj (there.symm.trans atRoot)
        refine ⟨rest, ?_, ?_, ?_, ?_⟩
        · intro entry
          rw [remaining, members]
          constructor
          · rintro ⟨⟨member, _⟩, later⟩
            exact ⟨member, later⟩
          · rintro ⟨member, later⟩
            refine ⟨⟨member, fun same => ?_⟩, later⟩
            rw [isRoot entry member same] at later
            exact not_lt.mpr due later
        · intro entry
          rw [List.mem_cons, expired, members]
          constructor
          · rintro (rfl | ⟨⟨member, _⟩, early⟩)
            · exact ⟨rootMember, due⟩
            · exact ⟨member, early⟩
          · rintro ⟨member, early⟩
            by_cases same : entry.2 = root.2
            · exact .inl (isRoot entry member same)
            · exact .inr ⟨⟨member, same⟩, early⟩
        · refine List.pairwise_cons.mpr ⟨?_, sorted⟩
          intro entry member
          exact least entry ((members entry).mp ((expired entry).mp member).1).1
        · refine List.nodup_cons.mpr ⟨?_, distinct⟩
          intro again
          obtain ⟨entry, member, same⟩ := List.mem_map.mp again
          exact ((members entry).mp ((expired entry).mp member).1).2 same
      next later =>
        refine ⟨valid, ?_, ?_, .nil, .nil⟩
        · intro entry
          refine ⟨fun member => ⟨member, ?_⟩, And.left⟩
          exact lt_of_lt_of_le (not_le.mp later) (least entry member)
        · intro entry
          simp only [List.not_mem_nil, false_iff, not_and]
          intro member due
          exact later (le_trans (least entry member) due)

end

end Libgoc.Data.IndexedHeap
