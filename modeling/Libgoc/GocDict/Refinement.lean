import Libgoc.Data.OrderedMap
import Libgoc.GocDict.Table

namespace Libgoc.GocDict

open Libgoc.Data

/-! # Dictionaries as insertion-ordered maps -/

variable {κ τ ν : Type} [DecidableEq τ] {text : κ → τ} {hash : τ → Nat}
  {dict : Dict κ ν} {map : OrderedMap text ν} {key : κ} {val : ν}

/-- The table holds the entries of the map, the array of keys their order, and
one slot is always free. -/
structure Represents (hash : τ → Nat) (dict : Dict κ ν) (map : OrderedMap text ν) : Prop where
  indexed : Indexed text hash dict.table dict.tableCap
  large : 8 ≤ dict.tableCap
  small : dict.tableCap < 2 ^ 61
  entries : ∀ key val, Holds dict.table dict.tableCap key val ↔ (key, val) ∈ map.entries
  order : dict.keys.filterMap id = map.entries.map Prod.fst
  len : dict.len = map.entries.length
  live : occupancy Live dict.table.keys dict.tableCap = dict.len
  used : occupancy Used dict.table.keys dict.tableCap = dict.occupied
  room : dict.occupied < dict.tableCap

section

variable (represents : Represents hash dict map)
include represents

theorem Represents.probe (key : κ) :
    ∃ slot, slot < dict.tableCap ∧ gocDictProbe text hash dict key = .ok slot ∧
      ((∃ current, dict.table.keys slot = .live current ∧ text current = text key ∧
          (current, dict.table.vals slot) ∈ map.entries) ∨
        (¬ Live (dict.table.keys slot) ∧
          Findable dict.table dict.tableCap (gocDictHash text hash key dict.tableCap) slot ∧
          ∀ entry, entry ∈ map.entries → text entry.1 ≠ text key)) := by
  have indexed := represents.indexed
  have empty : ∃ index, index < dict.tableCap ∧ dict.table.keys index = .empty := by
    apply exists_empty
    rw [represents.used]
    exact represents.room
  obtain ⟨slot, within, probed, outcome⟩ := probe_result text key indexed.power
    indexed.sized (gocDictHash_lt text hash indexed.power key) empty
  refine ⟨slot, within, probed, ?_⟩
  obtain ⟨current, live, same⟩ | ⟨dead, findable, unreached⟩ := outcome
  · exact .inl ⟨current, live, same, (represents.entries _ _).mp ⟨slot, within, live, rfl⟩⟩
  · refine .inr ⟨by simp [Live, dead], findable, ?_⟩
    intro entry member same
    obtain ⟨index, bound, live, -⟩ := (represents.entries entry.1 entry.2).mpr member
    apply unreached index entry.1 live same
    have found := indexed.findable index entry.1 bound live
    simpa only [gocDictHash, same] using found

theorem Represents.get? (key : κ) :
    ∃ slot, gocDictProbe text hash dict key = .ok slot ∧
      map.get? key = if (dict.table.keys slot).isLive then some (dict.table.vals slot)
        else none := by
  obtain ⟨slot, -, probed, ⟨current, live, same, member⟩ | ⟨dead, -, absent⟩⟩ :=
    represents.probe key
  · refine ⟨slot, probed, ?_⟩
    rw [map.get?_of_mem member same, live]
    rfl
  · refine ⟨slot, probed, ?_⟩
    rw [map.get?_of_absent absent]
    exact (if_neg dead).symm

theorem gocDictContains_eq (key : κ) :
    gocDictContains text hash dict key = .ok (map.get? key).isSome := by
  obtain ⟨slot, probed, found⟩ := represents.get? key
  simp only [gocDictContains, probed, bind, Except.bind, found, pure, Except.pure]
  split <;> simp_all

theorem gocDictGet_eq (key : κ) (notFound : ν) :
    gocDictGet text hash dict key notFound = .ok ((map.get? key).getD notFound) := by
  obtain ⟨slot, probed, found⟩ := represents.get? key
  simp only [gocDictGet, probed, bind, Except.bind, found, pure, Except.pure]
  split <;> rfl

theorem Represents.probe_entry (member : entry ∈ map.entries) :
    ∃ slot, gocDictProbe text hash dict entry.1 = .ok slot ∧
      (dict.table.keys slot).isLive = true ∧ dict.table.vals slot = entry.2 := by
  obtain ⟨slot, -, probed, ⟨current, live, same, found⟩ | ⟨-, -, absent⟩⟩ :=
    represents.probe entry.1
  · have identical := map.key_eq found member same
    exact ⟨slot, probed, by rw [live]; rfl, congrArg Prod.snd identical⟩
  · exact absurd rfl (absent entry member)

theorem visitKeys_eq (item : κ → ν → β)
    {entries : List (κ × ν)} (order : stored.filterMap id = entries.map Prod.fst)
    (subset : ∀ entry, entry ∈ entries → entry ∈ map.entries) :
    visitKeys text hash dict item stored = .ok (entries.map fun entry => item entry.1 entry.2) := by
  induction stored generalizing entries with
  | nil =>
    have none : entries = [] := by simpa using order.symm
    rw [none]
    rfl
  | cons first rest ih =>
    cases first with
    | none => exact ih (by simpa using order) subset
    | some key =>
      cases entries with
      | nil => simp at order
      | cons entry entries =>
        simp only [List.filterMap_cons, id_eq, List.map_cons, List.cons.injEq] at order
        obtain ⟨slot, probed, live, value⟩ :=
          represents.probe_entry (subset entry (by simp))
        have others := ih order.2 fun entry member => subset entry (by simp [member])
        simp only [visitKeys, order.1, probed, bind, Except.bind, others, live, value,
          if_true, List.map_cons, pure, Except.pure]

theorem gocDictEntries_eq :
    gocDictEntries text hash dict = .ok map.entries := by
  rw [gocDictEntries, visitKeys_eq represents _ represents.order fun _ member => member]
  simp

theorem gocDictKeys_eq :
    gocDictKeys text hash dict = .ok (map.entries.map Prod.fst) :=
  visitKeys_eq represents _ represents.order fun _ member => member

theorem gocDictVals_eq :
    gocDictVals text hash dict = .ok (map.entries.map Prod.snd) :=
  visitKeys_eq represents _ represents.order fun _ member => member

theorem Represents.overwrite
    (within : slot < dict.tableCap) (live : dict.table.keys slot = .live current)
    (same : text current = text key) :
    Represents hash { dict with table := dict.table.put slot (.live current) val }
      (map.replace key val) := by
  have member := (represents.entries _ _).mp ⟨slot, within, live, rfl⟩
  have keys : (dict.table.put slot (.live current) val).keys = dict.table.keys := by
    rw [Table.put, ← live, Function.update_eq_self]
  refine ⟨represents.indexed.overwrite live val, represents.large, represents.small, ?_, ?_, ?_, ?_,
    ?_, represents.room⟩
  · intro other value
    rw [holds_replace represents.indexed within live, map.mem_replace member same,
      represents.entries, Slot.live.injEq]
  · rw [map.replace_keys]
    exact represents.order
  · rw [← List.length_map (f := Prod.fst), map.replace_keys, List.length_map]
    exact represents.len
  · simp only [keys]
    exact represents.live
  · simp only [keys]
    exact represents.used

omit [DecidableEq τ] in
theorem Represents.fill (within : slot < dict.tableCap) (dead : ¬ Live (dict.table.keys slot))
    (findable : Findable dict.table dict.tableCap (gocDictHash text hash key dict.tableCap) slot)
    (absent : ∀ entry, entry ∈ map.entries → text entry.1 ≠ text key)
    (used : occupancy Used (dict.table.put slot (.live key) val).keys dict.tableCap = occupied)
    (room : occupied < dict.tableCap) :
    Represents hash
      { dict with
        table := dict.table.put slot (.live key) val
        keys := dict.keys ++ [some key]
        len := dict.len + 1
        occupied := occupied } (map.append key val absent) := by
  refine ⟨?_, represents.large, represents.small, ?_, ?_, ?_, ?_, used, room⟩
  · apply represents.indexed.fill findable
    intro index current bound live
    exact absent _ ((represents.entries _ _).mp ⟨index, bound, live, rfl⟩)
  · intro other value
    rw [holds_fill within dead, represents.entries, OrderedMap.append, List.mem_append,
      List.mem_singleton, Prod.mk.injEq, or_comm]
    simp only [eq_comm]
  · rw [List.filterMap_append, represents.order]
    simp [OrderedMap.append]
  · simp [OrderedMap.append, represents.len]
  · simp only [Table.put]
    rw [occupancy_update_add within dead (by simp [Live, Slot.isLive]), represents.live]

theorem gocDictInsert_represents (spare : dict.occupied + 1 < dict.tableCap) (key : κ) (val : ν) :
    ∃ after, gocDictInsert text hash dict key val = .ok after ∧
      Represents hash after (map.set key val) := by
  obtain ⟨slot, within, probed, ⟨current, live, same, member⟩ | ⟨dead, findable, absent⟩⟩ :=
    represents.probe key
  · have present : ¬ ∀ entry, entry ∈ map.entries → text entry.1 ≠ text key :=
      fun absent => absent _ member same
    simp only [gocDictInsert, probed, bind, Except.bind, live, OrderedMap.set, dif_neg present]
    exact ⟨_, rfl, represents.overwrite within live same⟩
  · simp only [gocDictInsert, probed, bind, Except.bind, OrderedMap.set, dif_pos absent]
    cases found : dict.table.keys slot with
    | live current => exact absurd (live_iff.mpr ⟨current, found⟩) dead
    | empty =>
      refine ⟨_, rfl, represents.fill within dead findable absent ?_ spare⟩
      simp only [Table.put]
      rw [occupancy_update_add within (by simp [Used, found]) (by simp [Used]), represents.used]
    | tombstone =>
      refine ⟨_, rfl, represents.fill within dead findable absent ?_ represents.room⟩
      simp only [Table.put]
      rw [occupancy_update_same (by simp [Used, found]), represents.used]

omit [DecidableEq τ] in
theorem crowded_iff :
    crowded dict = true ↔ dict.tableCap * 3 < dict.occupied * 4 := by
  have small := represents.small
  have room := represents.room
  rw [crowded, decide_eq_true_iff, sizeT_of_lt (by omega), sizeT_of_lt (by omega)]

variable [Inhabited ν]

omit [DecidableEq τ] in
theorem gocDictRehash_represents (small : dict.tableCap < 2 ^ 60) :
    ∃ after, gocDictRehash text hash dict (dict.tableCap * 2) = .ok after ∧
      Represents hash after map ∧ after.occupied + 1 < after.tableCap := by
  have large := represents.large
  have power : ∃ n, dict.tableCap * 2 = 2 ^ n := by
    obtain ⟨n, same⟩ := represents.indexed.power
    exact ⟨n + 1, by rw [same, Nat.pow_succ]⟩
  obtain ⟨table, built, indexed, entries, used, live⟩ := reinsert_all
    (dict.tableCap * 2) represents.indexed (by omega) power (by omega)
  have bound : dict.len ≤ dict.tableCap := by
    rw [← represents.live]
    exact occupancy_le
  simp only [gocDictRehash, built, bind, Except.bind, pure, Except.pure]
  refine ⟨_, rfl, ⟨indexed, ?_, ?_, ?_, represents.order, represents.len, ?_, ?_, ?_⟩, ?_⟩
  · simp only
    omega
  · simp only
    omega
  · intro key val
    rw [entries, represents.entries]
  · rw [live, represents.live]
  · rw [used, represents.live]
  · simp only
    omega
  · simp only
    omega

/-- Growing the table needs a capacity that can be doubled. -/
def Growable (dict : Dict κ ν) : Prop :=
  crowded dict = true → dict.tableCap < 2 ^ 60

instance (dict : Dict κ ν) : Decidable (Growable dict) :=
  inferInstanceAs (Decidable (_ → _))

theorem gocDictSet_represents (growable : Growable dict) (key : κ) (val : ν) :
    ∃ after, gocDictSet text hash dict key val = .ok after ∧
      Represents hash after (map.set key val) := by
  have large := represents.large
  have small := represents.small
  by_cases full : crowded dict = true
  · obtain ⟨grown, rehashed, again, spare⟩ :=
      gocDictRehash_represents represents (growable full)
    obtain ⟨after, inserted, represented⟩ := gocDictInsert_represents again spare key val
    refine ⟨after, ?_, represented⟩
    have doubled : sizeT (dict.tableCap * 2) = dict.tableCap * 2 := sizeT_of_lt (by omega)
    simp only [gocDictSet, if_pos full, doubled, rehashed, bind, Except.bind, inserted]
  · have spare : dict.occupied + 1 < dict.tableCap := by
      rw [crowded_iff represents] at full
      omega
    obtain ⟨after, inserted, represented⟩ := gocDictInsert_represents represents spare key val
    refine ⟨after, ?_, represented⟩
    simp only [gocDictSet, if_neg full, bind, Except.bind, inserted]

end

variable [Inhabited ν] [DecidableEq κ]

omit [DecidableEq τ] [Inhabited ν] in
theorem eraseKey_keys (current : κ) (stored : List (Option κ)) :
    (eraseKey current stored).filterMap id = (stored.filterMap id).erase current := by
  induction stored with
  | nil => rfl
  | cons first rest ih =>
    cases first with
    | none => simpa [eraseKey] using ih
    | some key =>
      by_cases same : key = current
      · subst same
        simp [eraseKey]
      · simpa [eraseKey, same] using ih

theorem gocDictPop_represents (represents : Represents hash dict map) (key : κ) (notFound : ν) :
    ∃ after, gocDictPop text hash dict key notFound = .ok (after, (map.get? key).getD notFound) ∧
      Represents hash after (map.erase key) := by
  obtain ⟨slot, within, probed, ⟨current, live, same, member⟩ | ⟨dead, -, absent⟩⟩ :=
    represents.probe key
  · simp only [gocDictPop, probed, bind, Except.bind, live, map.get?_of_mem member same, pure,
      Except.pure, Option.getD_some]
    refine ⟨_, rfl, represents.indexed.bury, represents.large, represents.small, ?_, ?_, ?_, ?_, ?_,
      represents.room⟩
    · intro other value
      rw [holds_replace represents.indexed within live, represents.entries, map.mem_erase, same]
      simp
    · rw [eraseKey_keys, represents.order, map.erase_keys member same]
    · have shorter := congrArg List.length (map.erase_keys member same)
      rw [List.length_map, List.length_erase_of_mem (List.mem_map_of_mem member),
        List.length_map] at shorter
      simp only [shorter, represents.len]
    · have dead : ¬ Live (Slot.tombstone : Slot κ) := by simp [Live, Slot.isLive]
      have removed := occupancy_update_remove within (live_iff.mpr ⟨current, live⟩) dead
      rw [represents.live] at removed
      simp only [Table.put]
      omega
    · simp only [Table.put]
      rw [occupancy_update_same (by simp [Used, live]), represents.used]
  · refine ⟨dict, ?_, ?_⟩
    · simp only [gocDictPop, probed, bind, Except.bind, map.get?_of_absent absent, pure,
        Except.pure, Option.getD_none]
      cases found : dict.table.keys slot with
      | live current => exact absurd (live_iff.mpr ⟨current, found⟩) dead
      | empty => rfl
      | tombstone => rfl
    · have unchanged : map.erase key = map := by
        have all : (map.erase key).entries = map.entries :=
          List.filter_eq_self.mpr fun entry member => by simpa using absent entry member
        cases map
        simpa only [OrderedMap.erase, OrderedMap.mk.injEq] using all
      rw [unchanged]
      exact represents

omit [DecidableEq τ] [Inhabited ν] [DecidableEq κ] in
/-- Capacities are doubled up to the first that is large enough. -/
theorem roundCapFrom_eq (bound : requested ≤ 2 ^ 60) :
    ∀ fuel n, 3 ≤ n → n ≤ 60 → 60 < n + fuel →
      ∃ m, roundCapFrom requested fuel (2 ^ n) = .ok (2 ^ m) ∧ n ≤ m ∧ m ≤ 60 ∧
        requested ≤ 2 ^ m ∧ (m = n ∨ 2 ^ (m - 1) < requested) := by
  intro fuel
  induction fuel with
  | zero =>
    intro n lower upper enough
    omega
  | succ fuel ih =>
    intro n lower upper enough
    simp only [roundCapFrom]
    by_cases less : 2 ^ n < requested
    · have below : n < 60 := by
        by_contra above
        have top : n = 60 := by omega
        rw [top] at less
        omega
      have doubled : sizeT (2 ^ n * 2) = 2 ^ (n + 1) := by
        rw [sizeT_of_lt (by omega), Nat.pow_succ]
      obtain ⟨m, rounded, after, limit, covers, least⟩ :=
        ih (n + 1) (by omega) (by omega) (by omega)
      refine ⟨m, ?_, by omega, limit, covers, .inr ?_⟩
      · rw [if_pos less, doubled, rounded]
      · obtain rfl | least := least
        · simpa using less
        · exact least
    · rw [if_neg less]
      exact ⟨n, rfl, Nat.le_refl _, upper, by omega, .inl rfl⟩

omit [DecidableEq τ] [Inhabited ν] [DecidableEq κ] in
theorem gocDictRoundCap_eq (bound : requested ≤ 2 ^ 60) :
    ∃ m, gocDictRoundCap requested = .ok (2 ^ m) ∧ 3 ≤ m ∧ m ≤ 60 ∧ requested ≤ 2 ^ m ∧
      (m = 3 ∨ 2 ^ (m - 1) < requested) :=
  roundCapFrom_eq bound 62 3 (Nat.le_refl _) (by omega) (by omega)

omit [DecidableEq τ] [DecidableEq κ] in
theorem gocDictMake_represents (bound : initialCap ≤ 2 ^ 60) :
    ∃ made : Dict κ ν, gocDictMake initialCap = .ok made ∧
      Represents hash made (OrderedMap.empty : OrderedMap text ν) := by
  obtain ⟨m, rounded, lower, upper, -⟩ := gocDictRoundCap_eq bound
  have large : 2 ^ 3 ≤ 2 ^ m := Nat.pow_le_pow_right (by omega) lower
  have small : 2 ^ m ≤ 2 ^ 60 := Nat.pow_le_pow_right (by omega) upper
  have loaded := gocDictAlloc_loaded text hash (gocDictAlloc 0 : Table κ ν) ⟨m, rfl⟩
    (Nat.lt_of_le_of_lt small (by decide))
  simp only [gocDictMake, rounded, bind, Except.bind, pure, Except.pure]
  refine ⟨_, rfl, loaded.indexed, large, Nat.lt_of_le_of_lt small (by decide), ?_, rfl, rfl, ?_, ?_,
    Nat.two_pow_pos m⟩
  · intro key val
    rw [loaded.entries]
    simp [OrderedMap.empty]
  · rw [loaded.live]
    rfl
  · rw [loaded.used]
    rfl

omit [DecidableEq τ] [DecidableEq κ] in
theorem gocDictCopy_represents (represents : Represents hash dict map) :
    gocDictCopy dict = .ok dict := by
  obtain ⟨n, power⟩ := represents.indexed.power
  have large := represents.large
  have small := represents.small
  have lower : 3 ≤ n := by
    rw [power] at large
    exact (Nat.pow_le_pow_iff_right (a := 2) (by omega)).mp large
  have upper : n < 61 := by
    rw [power] at small
    exact (Nat.pow_lt_pow_iff_right (a := 2) (by omega)).mp small
  have bound : dict.tableCap ≤ 2 ^ 60 := by
    rw [power]
    exact Nat.pow_le_pow_right (by omega) (by omega)
  obtain ⟨m, rounded, -, -, covers, least⟩ := gocDictRoundCap_eq bound
  have same : m = n := by
    rw [power, Nat.pow_le_pow_iff_right (by omega)] at covers
    obtain rfl | least := least
    · omega
    · rw [power, Nat.pow_lt_pow_iff_right (by omega)] at least
      omega
  have size : sizeT (dict.tableCap * 8) / 8 = dict.tableCap := by
    simp only [sizeT]
    omega
  have allocated : (gocDictAlloc dict.tableCap : Table κ ν).size = dict.table.size := by
    rw [represents.indexed.sized]
    exact size
  have fits : sizeT (dict.tableCap * 8) / 8 ≤ dict.table.size := by
    rw [size, represents.indexed.sized]
  rw [same, ← power] at rounded
  simp only [gocDictCopy, rounded, bind, Except.bind, allocated, fits, and_self, if_true, pure,
    Except.pure]

end Libgoc.GocDict
