import Libgoc.GocDict.Probing

namespace Libgoc.GocDict

open Libgoc.Data Function

/-! # Tables -/

variable {κ τ ν : Type} {text : κ → τ} {hash : τ → Nat}
  {table : Table κ ν} {cap slot : Nat} {key : κ} {val : ν}

/-- Every live key can be reached from its hash, and no two have one text. -/
structure Indexed (text : κ → τ) (hash : τ → Nat) (table : Table κ ν) (cap : Nat) : Prop where
  power : ∃ n, cap = 2 ^ n
  sized : table.size = cap
  findable : ∀ index key, index < cap → table.keys index = .live key →
    Findable table cap (gocDictHash text hash key cap) index
  distinct : ∀ left right first second, left < cap → right < cap →
    table.keys left = .live first → table.keys right = .live second →
    text first = text second → left = right

def Holds (table : Table κ ν) (cap : Nat) (key : κ) (val : ν) : Prop :=
  ∃ index, index < cap ∧ table.keys index = .live key ∧ table.vals index = val

def Used (slot : Slot κ) : Prop :=
  slot ≠ .empty

instance : DecidablePred (Used (κ := κ)) := fun slot =>
  match slot with
  | .empty => isFalse fun used => used rfl
  | .tombstone => isTrue (by simp [Used])
  | .live _ => isTrue (by simp [Used])

def Live (slot : Slot κ) : Prop :=
  slot.isLive = true

instance : DecidablePred (Live (κ := κ)) := fun slot =>
  inferInstanceAs (Decidable (slot.isLive = true))

theorem live_iff {slot : Slot κ} : Live slot ↔ ∃ key, slot = .live key := by
  cases slot <;> simp [Live, Slot.isLive]

theorem exists_empty (room : occupancy Used table.keys cap < cap) :
    ∃ index, index < cap ∧ table.keys index = .empty := by
  obtain ⟨index, within, unused⟩ := exists_outside room
  exact ⟨index, within, not_not.mp unused⟩

theorem Indexed.same_slot (indexed : Indexed text hash table cap)
    (leftWithin : left < cap) (rightWithin : right < cap)
    (leftLive : table.keys left = .live first) (rightLive : table.keys right = .live second)
    (same : text first = text second) : left = right ∧ first = second := by
  have position := indexed.distinct left right first second leftWithin rightWithin leftLive
    rightLive same
  subst position
  rw [leftLive] at rightLive
  cases rightLive
  exact ⟨rfl, rfl⟩

theorem Indexed.overwrite (indexed : Indexed text hash table cap)
    (live : table.keys slot = .live key) (val : ν) :
    Indexed text hash (table.put slot (.live key) val) cap := by
  have same : (table.put slot (.live key) val).keys = table.keys := by
    rw [Table.put, ← live, update_eq_self]
  refine ⟨indexed.power, indexed.sized, ?_, ?_⟩
  · simp only [Findable, same]
    exact indexed.findable
  · rw [same]
    exact indexed.distinct

theorem Findable.put (filled : content ≠ .empty) (findable : Findable table cap start index) :
    Findable (table.put slot content val) cap start index := by
  apply findable.mono
  intro position empty
  by_cases here : position = slot
  · subst here
    simp only [Table.put, update_self] at empty
    exact absurd empty filled
  · simpa only [Table.put, update_of_ne here] using empty

theorem Indexed.bury (indexed : Indexed text hash table cap) :
    Indexed text hash (table.put slot .tombstone val) cap := by
  have earlier : ∀ index key, (table.put slot .tombstone val).keys index = .live key →
      table.keys index = .live key := by
    intro index key live
    by_cases here : index = slot
    · subst here
      simp [Table.put] at live
    · simpa only [Table.put, update_of_ne here] using live
  refine ⟨indexed.power, indexed.sized, ?_, ?_⟩
  · intro index key within live
    exact (indexed.findable index key within (earlier index key live)).put (by simp)
  · intro left right first second leftWithin rightWithin leftLive rightLive same
    exact indexed.distinct left right first second leftWithin rightWithin
      (earlier left first leftLive) (earlier right second rightLive) same

theorem Indexed.fill (indexed : Indexed text hash table cap)
    (findable : Findable table cap (gocDictHash text hash key cap) slot)
    (absent : ∀ index current, index < cap → table.keys index = .live current →
      text current ≠ text key) (val : ν) :
    Indexed text hash (table.put slot (.live key) val) cap := by
  have cases_ : ∀ index current, (table.put slot (.live key) val).keys index = .live current →
      (index = slot ∧ current = key) ∨ (index ≠ slot ∧ table.keys index = .live current) := by
    intro index current live
    by_cases here : index = slot
    · subst here
      simp only [Table.put, update_self, Slot.live.injEq] at live
      exact .inl ⟨rfl, live.symm⟩
    · simp only [Table.put, update_of_ne here] at live
      exact .inr ⟨here, live⟩
  refine ⟨indexed.power, indexed.sized, ?_, ?_⟩
  · intro index current within live
    obtain ⟨rfl, rfl⟩ | ⟨-, before⟩ := cases_ index current live
    · exact findable.put (by simp)
    · exact (indexed.findable index current within before).put (by simp)
  · intro left right first second leftWithin rightWithin leftLive rightLive same
    obtain ⟨rfl, rfl⟩ | ⟨-, leftBefore⟩ := cases_ left first leftLive
    · obtain ⟨rfl, -⟩ | ⟨-, rightBefore⟩ := cases_ right second rightLive
      · rfl
      · exact absurd same.symm (absent right second rightWithin rightBefore)
    · obtain ⟨rfl, rfl⟩ | ⟨-, rightBefore⟩ := cases_ right second rightLive
      · exact absurd same (absent left first leftWithin leftBefore)
      · exact indexed.distinct left right first second leftWithin rightWithin leftBefore
          rightBefore same

theorem holds_put (within : slot < cap) :
    Holds (table.put slot content val) cap other value ↔ (content = .live other ∧ val = value) ∨
        ∃ index, index ≠ slot ∧ index < cap ∧ table.keys index = .live other ∧
          table.vals index = value := by
  constructor
  · rintro ⟨index, bound, live, found⟩
    by_cases here : index = slot
    · subst here
      simp only [Table.put, update_self] at live found
      exact .inl ⟨live, found⟩
    · simp only [Table.put, update_of_ne here] at live found
      exact .inr ⟨index, here, bound, live, found⟩
  · rintro (⟨rfl, rfl⟩ | ⟨index, here, bound, live, found⟩)
    · exact ⟨slot, within, by simp [Table.put], by simp [Table.put]⟩
    · exact ⟨index, bound, by simpa [Table.put, here] using live,
        by simpa [Table.put, here] using found⟩

/-- A slot that was not live only adds an entry. -/
theorem holds_fill (within : slot < cap) (vacant : ¬ Live (table.keys slot)) {other : κ}
    : Holds (table.put slot (.live key) val) cap other value ↔
      (key = other ∧ val = value) ∨ Holds table cap other value := by
  rw [holds_put within, Slot.live.injEq]
  apply or_congr_right
  constructor
  · rintro ⟨index, -, bound, live, found⟩
    exact ⟨index, bound, live, found⟩
  · rintro ⟨index, bound, live, found⟩
    refine ⟨index, ?_, bound, live, found⟩
    rintro rfl
    exact vacant (live_iff.mpr ⟨other, live⟩)

/-- A slot that was live gives up its entry. -/
theorem holds_replace (indexed : Indexed text hash table cap)
    (within : slot < cap) (live : table.keys slot = .live key) :
    Holds (table.put slot content val) cap other value ↔ (content = .live other ∧ val = value) ∨
        (Holds table cap other value ∧ text other ≠ text key) := by
  rw [holds_put within]
  apply or_congr_right
  constructor
  · rintro ⟨index, different, bound, alive, found⟩
    refine ⟨⟨index, bound, alive, found⟩, ?_⟩
    intro same
    exact different (indexed.same_slot bound within alive live same).1
  · rintro ⟨⟨index, bound, alive, found⟩, different⟩
    refine ⟨index, ?_, bound, alive, found⟩
    rintro rfl
    rw [alive] at live
    cases live
    exact different rfl

section

variable {old : Table κ ν} {newCap : Nat}

/-- A new table with the live entries of the first `count` slots of `old`. -/
structure Loaded (text : κ → τ) (hash : τ → Nat) (old : Table κ ν) (newCap count : Nat)
    (table : Table κ ν) : Prop where
  indexed : Indexed text hash table newCap
  entries : ∀ key val, Holds table newCap key val ↔
    ∃ index, index < count ∧ old.keys index = .live key ∧ old.vals index = val
  used : occupancy Used table.keys newCap = occupancy Live old.keys count
  live : occupancy Live table.keys newCap = occupancy Live old.keys count

theorem occupancy_succ (kind : Slot κ → Prop) [DecidablePred kind] (slots : Nat → Slot κ)
    (count : Nat) : occupancy kind slots (count + 1) =
      occupancy kind slots count + if kind (slots count) then 1 else 0 := by
  rw [occupancy, Finset.range_add_one, Finset.filter_insert, occupancy]
  split
  · rw [Finset.card_insert_of_notMem (by simp)]
  · rfl

theorem Loaded.skip (loaded : Loaded text hash old newCap cap table)
    (dead : ¬ Live (old.keys cap)) : Loaded text hash old newCap (cap + 1) table := by
  refine ⟨loaded.indexed, ?_, ?_, ?_⟩
  · intro key val
    rw [loaded.entries]
    constructor
    · rintro ⟨index, bound, rest⟩
      exact ⟨index, by omega, rest⟩
    · rintro ⟨index, bound, live, found⟩
      refine ⟨index, ?_, live, found⟩
      have different : index ≠ cap := by
        rintro rfl
        exact dead (live_iff.mpr ⟨key, live⟩)
      omega
  · rw [loaded.used, occupancy_succ, if_neg dead, Nat.add_zero]
  · rw [loaded.live, occupancy_succ, if_neg dead, Nat.add_zero]

theorem Loaded.move {count dst : Nat} (source : Indexed text hash old cap)
    (loaded : Loaded text hash old newCap count table) (within : count < cap)
    (live : old.keys count = .live key) (inside : dst < newCap) (free : table.keys dst = .empty)
    (findable : Findable table newCap (gocDictHash text hash key newCap) dst) :
    Loaded text hash old newCap (count + 1) (table.put dst (.live key) (old.vals count)) := by
  have alive : Live (old.keys count) := live_iff.mpr ⟨key, live⟩
  have vacant : ¬ Live (table.keys dst) := by
    rw [free]
    simp [Live, Slot.isLive]
  refine ⟨?_, ?_, ?_, ?_⟩
  · apply loaded.indexed.fill findable
    intro index current bound present same
    obtain ⟨earlier, before, originally, -⟩ :=
      (loaded.entries current (table.vals index)).mp ⟨index, bound, present, rfl⟩
    have position := (source.same_slot (by omega) within originally live same).1
    omega
  · intro other value
    rw [holds_fill inside vacant, loaded.entries]
    constructor
    · rintro (⟨rfl, rfl⟩ | ⟨index, bound, rest⟩)
      · exact ⟨count, by omega, live, rfl⟩
      · exact ⟨index, by omega, rest⟩
    · rintro ⟨index, bound, present, found⟩
      obtain before | rfl := Nat.lt_succ_iff_lt_or_eq.mp bound
      · exact .inr ⟨index, before, present, found⟩
      · rw [live] at present
        cases present
        exact .inl ⟨rfl, found⟩
  · rw [Table.put, occupancy_update_add inside (by simp [Used, free]) (by simp [Used]),
      loaded.used, occupancy_succ, if_pos alive]
  · rw [Table.put, occupancy_update_add inside vacant (by simp [Live, Slot.isLive]),
      loaded.live, occupancy_succ, if_pos alive]

theorem reinsert_loaded (source : Indexed text hash old cap) (larger : cap < newCap) :
    ∀ remaining count table, count + remaining = cap → Loaded text hash old newCap count table →
      ∃ result, reinsert text hash old newCap remaining count table = .ok result ∧
        Loaded text hash old newCap cap result := by
  intro remaining
  induction remaining with
  | zero =>
    intro count table total loaded
    cases total
    exact ⟨table, rfl, loaded⟩
  | succ remaining ih =>
    intro count table total loaded
    have inside : count < old.size := by
      rw [source.sized]
      omega
    simp only [reinsert, if_pos inside]
    cases found : old.keys count with
    | empty => exact ih (count + 1) table (by omega) (loaded.skip (by simp [found, Live, Slot.isLive]))
    | tombstone =>
      exact ih (count + 1) table (by omega) (loaded.skip (by simp [found, Live, Slot.isLive]))
    | live key =>
      have room : occupancy Used table.keys newCap < newCap := by
        rw [loaded.used]
        have bound : occupancy Live old.keys count ≤ count := occupancy_le
        omega
      obtain ⟨dst, within, located, free, findable⟩ := findFree_result loaded.indexed.power
        loaded.indexed.sized (gocDictHash_lt text hash loaded.indexed.power key) (exists_empty room)
      simp only [located, bind, Except.bind]
      exact ih (count + 1) _ (by omega) (loaded.move source (by omega) found within free findable)

variable [Inhabited ν]

variable (text hash old) in
theorem gocDictAlloc_loaded (power : ∃ n, newCap = 2 ^ n) (small : newCap < 2 ^ 61) :
    Loaded text hash old newCap 0 (gocDictAlloc newCap) := by
  have size : (gocDictAlloc newCap : Table κ ν).size = newCap := by
    simp only [gocDictAlloc, sizeT]
    omega
  refine ⟨⟨power, size, ?_, ?_⟩, ?_, ?_, ?_⟩
  · intro index key _ live
    cases live
  · intro left right first second _ _ live
    cases live
  · intro key val
    constructor
    · rintro ⟨index, -, live, -⟩
      cases live
    · rintro ⟨index, bound, -⟩
      omega
  · rw [occupancy_empty (by simp [gocDictAlloc, Used])]
    rfl
  · rw [occupancy_empty (by simp [gocDictAlloc, Live, Slot.isLive])]
    rfl

variable (newCap) in
/-- The table a rehash builds has the same live entries and no tombstones. -/
theorem reinsert_all (source : Indexed text hash old cap) (larger : cap < newCap)
    (power : ∃ n, newCap = 2 ^ n) (small : newCap < 2 ^ 61) :
    ∃ result, reinsert text hash old newCap cap 0 (gocDictAlloc newCap) = .ok result ∧
      Indexed text hash result newCap ∧
      (∀ key val, Holds result newCap key val ↔ Holds old cap key val) ∧
      occupancy Used result.keys newCap = occupancy Live old.keys cap ∧
      occupancy Live result.keys newCap = occupancy Live old.keys cap := by
  obtain ⟨result, built, loaded⟩ := reinsert_loaded source larger cap 0 _ (Nat.zero_add _)
    (gocDictAlloc_loaded text hash old power small)
  exact ⟨result, built, loaded.indexed, loaded.entries, loaded.used, loaded.live⟩

end

end Libgoc.GocDict
