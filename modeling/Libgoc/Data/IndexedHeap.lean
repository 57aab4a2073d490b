import Mathlib.Logic.Function.Basic
import Mathlib.Order.Lattice
import Mathlib.Tactic.Common

namespace Libgoc.Data

open Function

/-! # Heaps whose items know their place -/

/-- The entries in the order of the array, each a key and an item, and the index
of each item that is present. -/
structure IndexedHeap (κ ι : Type) where
  entries : List (κ × ι)
  index : ι → Option Nat

namespace IndexedHeap

section

variable {κ ι : Type} [LinearOrder κ] [DecidableEq ι]

def empty : IndexedHeap κ ι where
  entries := []
  index _ := none

/-- Write an entry at a place and the place into its item. -/
def place (heap : IndexedHeap κ ι) (i : Nat) (entry : κ × ι) : IndexedHeap κ ι where
  entries := heap.entries.set i entry
  index := update heap.index entry.2 (some i)

def swap (heap : IndexedHeap κ ι) (a b : Nat) : IndexedHeap κ ι :=
  match heap.entries[a]?, heap.entries[b]? with
  | some first, some second => (heap.place a second).place b first
  | _, _ => heap

/-- Let the entry at `i` rise, in at most `fuel` steps. -/
def siftUpFrom : Nat → IndexedHeap κ ι → Nat → IndexedHeap κ ι
  | 0, heap, _ => heap
  | fuel + 1, heap, i =>
    if i = 0 then heap
    else
      match heap.entries[(i - 1) / 2]?, heap.entries[i]? with
      | some above, some entry =>
        if above.1 ≤ entry.1 then heap
        else siftUpFrom fuel (heap.swap ((i - 1) / 2) i) ((i - 1) / 2)
      | _, _ => heap

def siftUp (heap : IndexedHeap κ ι) (i : Nat) : IndexedHeap κ ι :=
  siftUpFrom i heap i

/-- `child` where it is in the heap with a smaller key than `smallest`. -/
def smaller (heap : IndexedHeap κ ι) (child smallest : Nat) : Nat :=
  match heap.entries[child]?, heap.entries[smallest]? with
  | some below, some entry => if below.1 < entry.1 then child else smallest
  | _, _ => smallest

/-- Let the entry at `i` sink, in at most `fuel` steps. -/
def siftDownFrom : Nat → IndexedHeap κ ι → Nat → IndexedHeap κ ι
  | 0, heap, _ => heap
  | fuel + 1, heap, i =>
    let smallest := heap.smaller (2 * i + 2) (heap.smaller (2 * i + 1) i)
    if smallest = i then heap else siftDownFrom fuel (heap.swap i smallest) smallest

def siftDown (heap : IndexedHeap κ ι) (i : Nat) : IndexedHeap κ ι :=
  siftDownFrom heap.entries.length heap i

def extend (heap : IndexedHeap κ ι) (item : ι) (key : κ) : IndexedHeap κ ι where
  entries := heap.entries ++ [(key, item)]
  index := update heap.index item (some heap.entries.length)

def insert (heap : IndexedHeap κ ι) (item : ι) (key : κ) : IndexedHeap κ ι :=
  (heap.extend item key).siftUp heap.entries.length

def shrink (heap : IndexedHeap κ ι) (item : ι) : IndexedHeap κ ι where
  entries := heap.entries.dropLast
  index := update heap.index item none

/-- The last entry fills the place of the item that is taken out; it rises or sinks. -/
def remove (heap : IndexedHeap κ ι) (item : ι) : IndexedHeap κ ι :=
  match heap.index item with
  | none => heap
  | some i =>
    if heap.entries.length ≤ i then heap
    else if i = heap.entries.length - 1 then heap.shrink item
    else
      match heap.entries.getLast? with
      | none => heap
      | some moved =>
        let raised := ((heap.shrink item).place i moved).siftUp i
        match raised.index moved.2 with
        | some j => raised.siftDown j
        | none => raised

/-- Take out the entry at the root; the last entry fills its place and sinks. -/
def popRoot (heap : IndexedHeap κ ι) (root : κ × ι) : IndexedHeap κ ι :=
  match heap.entries.getLast? with
  | some moved =>
    if 0 < heap.entries.length - 1 then ((heap.shrink root.2).place 0 moved).siftDown 0
    else heap.shrink root.2
  | none => heap

/-- Take out the root as long as its key is not above the bound, in at most
`fuel` turns. -/
def popFrom (bound : κ) : Nat → IndexedHeap κ ι → List (κ × ι) × IndexedHeap κ ι
  | 0, heap => ([], heap)
  | fuel + 1, heap =>
    match heap.entries[0]? with
    | none => ([], heap)
    | some root =>
      if root.1 ≤ bound then
        let popped := popFrom bound fuel (heap.popRoot root)
        (root :: popped.1, popped.2)
      else ([], heap)

def popUntil (heap : IndexedHeap κ ι) (bound : κ) : List (κ × ι) × IndexedHeap κ ι :=
  popFrom bound heap.entries.length heap

/-- Every item has the index of the entry that holds it, and no other. -/
def Indexed (heap : IndexedHeap κ ι) : Prop :=
  ∀ item i, heap.index item = some i ↔ ∃ key, heap.entries[i]? = some (key, item)

/-- What stands at two places has changed places. -/
structure Swapped {β : Type} (before after : Nat → Option β) (a b : Nat) : Prop where
  first : after a = before b
  second : after b = before a
  others : ∀ i, i ≠ a → i ≠ b → after i = before i

def keyAt (heap : IndexedHeap κ ι) (i : Nat) : Option κ :=
  heap.entries[i]?.map Prod.fst

end

section

variable {κ : Type} [LinearOrder κ]

def Above (keys : Nat → Option κ) (upper lower : Nat) : Prop :=
  ∀ a b, keys upper = some a → keys lower = some b → a ≤ b

def HeapOrder (keys : Nat → Option κ) : Prop :=
  ∀ child, 0 < child → Above keys ((child - 1) / 2) child

/-- The parent of an index is not above the children of the index. -/
def Bridged (keys : Nat → Option κ) (i : Nat) : Prop :=
  0 < i → ∀ child, 0 < child → (child - 1) / 2 = i → Above keys ((i - 1) / 2) child

/-- In order but for the key at an index, which may be too small. -/
structure MayRise (keys : Nat → Option κ) (i : Nat) : Prop where
  elsewhere : ∀ child, 0 < child → child ≠ i → Above keys ((child - 1) / 2) child
  bridged : Bridged keys i

/-- In order but for the key at an index, which may be too great. -/
structure MaySink (keys : Nat → Option κ) (i : Nat) : Prop where
  elsewhere : ∀ child, 0 < child → (child - 1) / 2 ≠ i → Above keys ((child - 1) / 2) child
  bridged : Bridged keys i

variable {keys : Nat → Option κ} {i : Nat}

theorem MayRise.heapOrder (rise : MayRise keys i) (stops : 0 < i → Above keys ((i - 1) / 2) i) :
    HeapOrder keys := by
  intro child positive
  by_cases same : child = i
  · subst same
    exact stops positive
  · exact rise.elsewhere child positive same

theorem MaySink.heapOrder (sink : MaySink keys i)
    (stops : ∀ child, 0 < child → (child - 1) / 2 = i → Above keys i child) : HeapOrder keys := by
  intro child positive
  by_cases same : (child - 1) / 2 = i
  · rw [same]
    exact stops child positive same
  · exact sink.elsewhere child positive same

theorem Above.trans {upper middle lower : Nat} (first : Above keys upper middle)
    (there : keys middle = some key) (second : Above keys middle lower) :
    Above keys upper lower := by
  intro a b atUpper atLower
  exact le_trans (first a key atUpper there) (second key b there atLower)

/-- A key that is smaller than that of its parent changes places with it. -/
theorem MayRise.step (rise : MayRise keys i) (positive : 0 < i)
    (above : keys ((i - 1) / 2) = some a) (here : keys i = some b) (smaller : b < a)
    (swapped : Swapped keys keys' ((i - 1) / 2) i) :
    MayRise keys' ((i - 1) / 2) := by
  have atParent := swapped.first.trans here
  have atHere := swapped.second.trans above
  have below : ∀ child, 0 < child → (child - 1) / 2 = (i - 1) / 2 → child ≠ i →
      ∀ c, keys child = some c → a ≤ c := by
    intro child first sibling other c there
    have ordered := rise.elsewhere child first other
    rw [sibling] at ordered
    exact ordered a c above there
  constructor
  · intro child first other upper lower atUpper atLower
    by_cases same : child = i
    · subst same
      rw [atParent] at atUpper
      rw [atHere] at atLower
      cases atUpper
      cases atLower
      exact le_of_lt smaller
    · rw [swapped.others child other same] at atLower
      by_cases under : (child - 1) / 2 = i
      · rw [under, atHere] at atUpper
        cases atUpper
        exact rise.bridged positive child first under a lower above atLower
      · by_cases sibling : (child - 1) / 2 = (i - 1) / 2
        · rw [sibling, atParent] at atUpper
          cases atUpper
          exact le_trans (le_of_lt smaller) (below child first sibling same lower atLower)
        · rw [swapped.others _ sibling under] at atUpper
          exact rise.elsewhere child first same upper lower atUpper atLower
  · intro parentPositive child first under upper lower atUpper atLower
    have ordered := rise.elsewhere ((i - 1) / 2) parentPositive (by omega)
    rw [swapped.others _ (by omega) (by omega)] at atUpper
    have high := ordered upper a atUpper above
    by_cases same : child = i
    · subst same
      rw [atHere] at atLower
      cases atLower
      exact high
    · rw [swapped.others child (by omega) same] at atLower
      exact le_trans high (below child first under same lower atLower)

/-- A key that is greater than that of a child changes places with the smaller
child. -/
theorem MaySink.step (sink : MaySink keys i) (positive : 0 < s) (child : (s - 1) / 2 = i)
    (here : keys i = some a) (below : keys s = some b) (smaller : b < a)
    (least : ∀ other, 0 < other → (other - 1) / 2 = i → Above keys s other)
    (swapped : Swapped keys keys' i s) : MaySink keys' s := by
  have atHere := swapped.first.trans below
  have atChild := swapped.second.trans here
  constructor
  · intro other first apart upper lower atUpper atLower
    by_cases same : other = s
    · subst same
      rw [child, atHere] at atUpper
      rw [atChild] at atLower
      cases atUpper
      cases atLower
      exact le_of_lt smaller
    · by_cases top : other = i
      · subst top
        rw [atHere] at atLower
        cases atLower
        rw [swapped.others _ (by omega) (by omega)] at atUpper
        exact sink.bridged first s positive child upper b atUpper below
      · rw [swapped.others other top same] at atLower
        by_cases sibling : (other - 1) / 2 = i
        · rw [sibling, atHere] at atUpper
          cases atUpper
          exact least other first sibling b lower below atLower
        · rw [swapped.others _ sibling apart] at atUpper
          exact sink.elsewhere other first sibling upper lower atUpper atLower
  · intro _ other first under upper lower atUpper atLower
    rw [child, atHere] at atUpper
    cases atUpper
    rw [swapped.others other (by omega) (by omega)] at atLower
    have ordered := sink.elsewhere other first (by omega)
    rw [under] at ordered
    exact ordered b lower below atLower

end

section

variable {κ ι : Type} {heap : IndexedHeap κ ι}

/-- What a rearrangement of the entries keeps. -/
structure Rearranged (heap heap' : IndexedHeap κ ι) : Prop where
  length : heap'.entries.length = heap.entries.length
  members : ∀ entry, entry ∈ heap'.entries ↔ entry ∈ heap.entries
  indexed : heap.Indexed → heap'.Indexed

theorem Rearranged.refl : Rearranged heap heap :=
  ⟨rfl, fun _ => Iff.rfl, id⟩

theorem Rearranged.trans {middle last : IndexedHeap κ ι} (first : Rearranged heap middle)
    (second : Rearranged middle last) : Rearranged heap last where
  length := second.length.trans first.length
  members entry := (second.members entry).trans (first.members entry)
  indexed indexed := second.indexed (first.indexed indexed)

theorem getElem?_lt {i : Nat} (there : heap.entries[i]? = some entry) :
    i < heap.entries.length :=
  (List.getElem?_eq_some_iff.mp there).1

theorem keyAt_some (there : heap.entries[i]? = some entry) :
    heap.keyAt i = some entry.1 := by
  simp [keyAt, there]

theorem Swapped.symm {β : Type} {before after : Nat → Option β}
    (swapped : Swapped before after a b) : Swapped after before a b where
  first := swapped.second.symm
  second := swapped.first.symm
  others i notFirst notSecond := (swapped.others i notFirst notSecond).symm

theorem Swapped.found {β : Type} {before after : Nat → Option β}
    (swapped : Swapped before after a b) {value : β} (found : ∃ i, before i = some value) :
    ∃ i, after i = some value := by
  obtain ⟨i, there⟩ := found
  by_cases first : i = a
  · subst first
    exact ⟨b, swapped.second.trans there⟩
  · by_cases second : i = b
    · subst second
      exact ⟨a, swapped.first.trans there⟩
    · exact ⟨i, (swapped.others i first second).trans there⟩

theorem Indexed.unique (indexed : heap.Indexed) {a b : Nat}
    (atFirst : heap.entries[a]? = some first) (atSecond : heap.entries[b]? = some second)
    (same : first.2 = second.2) : a = b := by
  have left := (indexed first.2 a).mpr ⟨first.1, atFirst⟩
  have right := (indexed second.2 b).mpr ⟨second.1, atSecond⟩
  rw [same, right] at left
  exact (Option.some.inj left).symm

/-- An entry and the last one, which is another. -/
structure Refill (heap : IndexedHeap κ ι) (i : Nat) (out moved : κ × ι) : Prop where
  there : heap.entries[i]? = some out
  last : heap.entries[heap.entries.length - 1]? = some moved
  before : i < heap.entries.length - 1

theorem Refill.names {i : Nat} (refills : Refill heap i out moved)
    (indexed : heap.Indexed) : out.2 ≠ moved.2 := by
  intro same
  have position := refills.before
  have again := indexed.unique refills.there refills.last same
  omega

theorem getLast?_place (last : heap.entries.getLast? = some moved) :
    heap.entries[heap.entries.length - 1]? = some moved := by
  rw [← List.getLast?_eq_getElem?]
  exact last

variable [DecidableEq ι]

theorem place_self (bound : i < heap.entries.length) :
    (heap.place i entry).entries[i]? = some entry :=
  List.getElem?_set_self bound

theorem place_other (apart : j ≠ i) :
    (heap.place i entry).entries[j]? = heap.entries[j]? :=
  List.getElem?_set_ne apart.symm

theorem place_length {i : Nat} :
    (heap.place i entry).entries.length = heap.entries.length :=
  List.length_set

theorem extend_within (bound : i < heap.entries.length) :
    (heap.extend item key).entries[i]? = heap.entries[i]? :=
  List.getElem?_append_left bound

theorem extend_last :
    (heap.extend item key).entries[heap.entries.length]? = some (key, item) :=
  List.getElem?_concat_length

theorem extend_beyond (past : heap.entries.length < i) :
    (heap.extend item key).entries[i]? = none := by
  apply List.getElem?_eq_none
  rw [extend, List.length_append, List.length_singleton]
  exact past

theorem extend_indexed (indexed : heap.Indexed)
    (absent : heap.index item = none) : (heap.extend item key).Indexed := by
  intro other i
  have before := indexed other i
  have index : (heap.extend item key).index other =
      if other = item then some heap.entries.length else heap.index other :=
    update_apply ..
  rw [index]
  obtain within | rfl | past := Nat.lt_trichotomy i heap.entries.length
  · rw [extend_within within]
    grind
  · rw [extend_last]
    have empty : heap.entries[heap.entries.length]? = none := List.getElem?_eq_none le_rfl
    by_cases same : other = item
    · subst same
      simp
    · grind
  · rw [extend_beyond past]
    have empty : heap.entries[i]? = none := List.getElem?_eq_none (le_of_lt past)
    grind

theorem shrink_within (bound : i + 1 < heap.entries.length) :
    (heap.shrink item).entries[i]? = heap.entries[i]? := by
  rw [shrink, List.dropLast_eq_take, List.getElem?_take_of_lt (by omega)]

theorem shrink_beyond (past : heap.entries.length ≤ i + 1) :
    (heap.shrink item).entries[i]? = none := by
  apply List.getElem?_eq_none
  rw [shrink, List.length_dropLast]
  omega

theorem shrink_length : (heap.shrink item).entries.length = heap.entries.length - 1 :=
  List.length_dropLast

theorem shrink_indexed (indexed : heap.Indexed)
    (last : heap.entries[heap.entries.length - 1]? = some out) : (heap.shrink out.2).Indexed := by
  intro other j
  have index : (heap.shrink out.2).index other = if other = out.2 then none else heap.index other :=
    update_apply ..
  have before := indexed other j
  have outIndex := (indexed out.2 (heap.entries.length - 1)).mpr ⟨out.1, last⟩
  rw [index]
  by_cases within : j + 1 < heap.entries.length
  · rw [shrink_within within]
    grind
  · rw [shrink_beyond (by omega)]
    by_cases atLast : j = heap.entries.length - 1
    · grind
    · have empty : heap.entries[j]? = none := List.getElem?_eq_none (by omega)
      grind

/-- The heap in which the last entry has taken the place of another. -/
def refill (heap : IndexedHeap κ ι) (i : Nat) (out moved : κ × ι) : IndexedHeap κ ι :=
  (heap.shrink out.2).place i moved

theorem refill_others {i j : Nat} (apart : j ≠ i) (within : j + 1 < heap.entries.length) :
    (heap.refill i out moved).entries[j]? = heap.entries[j]? :=
  (place_other apart).trans (shrink_within within)

section

variable {i : Nat} {out moved : κ × ι} (refills : Refill heap i out moved)

include refills

theorem Refill.here : (heap.refill i out moved).entries[i]? = some moved := by
  apply place_self
  rw [shrink_length]
  exact refills.before

theorem Refill.beyond {j : Nat} (past : heap.entries.length ≤ j + 1) :
    (heap.refill i out moved).entries[j]? = none := by
  have before := refills.before
  exact (place_other (by omega)).trans (shrink_beyond past)

theorem Refill.bound : i < (heap.refill i out moved).entries.length :=
  getElem?_lt refills.here

theorem Refill.indexed (indexed : heap.Indexed) : (heap.refill i out moved).Indexed := by
  intro other j
  have index : (heap.refill i out moved).index other =
      if other = moved.2 then some i else if other = out.2 then none else heap.index other := by
    simp only [refill, place, shrink, update_apply]
  have before := indexed other j
  have position := refills.before
  have names := refills.names indexed
  have there := refills.there
  have last := refills.last
  have outIndex := (indexed out.2 i).mpr ⟨out.1, refills.there⟩
  have lastIndex := (indexed moved.2 (heap.entries.length - 1)).mpr ⟨moved.1, refills.last⟩
  rw [index]
  by_cases here : j = i
  · subst here
    rw [refills.here]
    by_cases same : other = moved.2
    · subst same
      rw [if_pos rfl]
      exact ⟨fun _ => ⟨moved.1, rfl⟩, fun _ => rfl⟩
    · grind
  · by_cases within : j + 1 < heap.entries.length
    · rw [refill_others here within]
      grind
    · rw [refills.beyond (by omega)]
      by_cases atLast : j = heap.entries.length - 1
      · grind
      · have empty : heap.entries[j]? = none := List.getElem?_eq_none (by omega)
        grind

theorem Refill.members (indexed : heap.Indexed) (entry : κ × ι) :
    entry ∈ (heap.refill i out moved).entries ↔ entry ∈ heap.entries ∧ entry.2 ≠ out.2 := by
  have position := refills.before
  rw [List.mem_iff_getElem?, List.mem_iff_getElem?]
  constructor
  · rintro ⟨j, found⟩
    by_cases here : j = i
    · subst here
      rw [refills.here] at found
      cases found
      exact ⟨⟨_, refills.last⟩, (refills.names indexed).symm⟩
    · by_cases within : j + 1 < heap.entries.length
      · rw [refill_others here within] at found
        exact ⟨⟨j, found⟩, fun same => here (indexed.unique found refills.there same)⟩
      · rw [refills.beyond (by omega)] at found
        cases found
  · rintro ⟨⟨j, found⟩, other⟩
    have bound := getElem?_lt found
    by_cases atLast : j = heap.entries.length - 1
    · subst atLast
      rw [refills.last] at found
      cases found
      exact ⟨i, refills.here⟩
    · refine ⟨j, (refill_others ?_ (by omega)).trans found⟩
      rintro rfl
      rw [refills.there] at found
      cases found
      exact other rfl

end

variable {a b : Nat} {first second : κ × ι} (atFirst : heap.entries[a]? = some first)
  (atSecond : heap.entries[b]? = some second)

include atFirst atSecond

theorem swap_some : heap.swap a b = (heap.place a second).place b first := by
  unfold swap
  rw [atFirst, atSecond]

theorem swap_swapped (apart : a ≠ b) :
    Swapped (fun i => heap.entries[i]?) (fun i => (heap.swap a b).entries[i]?) a b := by
  rw [swap_some atFirst atSecond]
  constructor
  · exact (place_other apart).trans ((place_self (getElem?_lt atFirst)).trans atSecond.symm)
  · apply (place_self _).trans atFirst.symm
    rw [place_length]
    exact getElem?_lt atSecond
  · intro i notFirst notSecond
    exact (place_other notSecond).trans (place_other notFirst)

theorem swap_keys (apart : a ≠ b) : Swapped heap.keyAt (heap.swap a b).keyAt a b := by
  have swapped := swap_swapped atFirst atSecond apart
  constructor
  · exact congrArg (Option.map Prod.fst) swapped.first
  · exact congrArg (Option.map Prod.fst) swapped.second
  · intro i notFirst notSecond
    exact congrArg (Option.map Prod.fst) (swapped.others i notFirst notSecond)

theorem swap_index {item : ι} : (heap.swap a b).index item =
    if item = first.2 then some b else if item = second.2 then some a else heap.index item := by
  rw [swap_some atFirst atSecond]
  simp only [place, update_apply]

theorem swap_indexed (apart : a ≠ b) (indexed : heap.Indexed) : (heap.swap a b).Indexed := by
  have swapped := swap_swapped atFirst atSecond apart
  have names : first.2 ≠ second.2 := fun same => apart (indexed.unique atFirst atSecond same)
  have firstIndex := (indexed first.2 a).mpr ⟨first.1, atFirst⟩
  have secondIndex := (indexed second.2 b).mpr ⟨second.1, atSecond⟩
  intro item i
  have before := indexed item i
  rw [swap_index atFirst atSecond]
  -- the entry at `i` was at the place that has changed with `i`
  by_cases atA : i = a
  · have now : (heap.swap a b).entries[i]? = some second := by
      rw [atA]
      exact swapped.first.trans atSecond
    grind
  · by_cases atB : i = b
    · have now : (heap.swap a b).entries[i]? = some first := by
        rw [atB]
        exact swapped.second.trans atFirst
      grind
    · have now : (heap.swap a b).entries[i]? = heap.entries[i]? := swapped.others i atA atB
      grind

theorem swap_rearranged (apart : a ≠ b) : Rearranged heap (heap.swap a b) := by
  have swapped := swap_swapped atFirst atSecond apart
  constructor
  · rw [swap_some atFirst atSecond, place_length, place_length]
  · intro entry
    rw [List.mem_iff_getElem?, List.mem_iff_getElem?]
    exact ⟨swapped.symm.found, swapped.found⟩
  · exact swap_indexed atFirst atSecond apart

end

end IndexedHeap

end Libgoc.Data
