import Libgoc.Data.OpenAddressing
import Libgoc.GocDict.Model

namespace Libgoc.GocDict

open Libgoc.Data

/-! # Probing -/

variable {κ τ ν : Type} [DecidableEq τ]
  {text : κ → τ} {hash : τ → Nat} {table : Table κ ν} {cap start : Nat} {key : κ}

section

variable (power : ∃ n, cap = 2 ^ n)
include power

theorem land_eq_mod (value : Nat) :
    Nat.land value (cap - 1) = value % cap := by
  obtain ⟨n, rfl⟩ := power
  exact Nat.and_two_pow_sub_one_eq_mod value n

omit [DecidableEq τ] in
variable (text hash) in
theorem gocDictHash_lt (key : κ) :
    gocDictHash text hash key cap < cap := by
  rw [gocDictHash, land_eq_mod power]
  obtain ⟨n, rfl⟩ := power
  exact Nat.mod_lt _ (Nat.two_pow_pos n)

theorem nextIndex_place (steps : Nat) :
    nextIndex cap (place cap start steps) = place cap start (steps + 1) := by
  rw [nextIndex, land_eq_mod power, place_next]

/-- The slots at which a probe for `key` returns. -/
def Stops (text : κ → τ) (key : κ) (slot : Slot κ) : Prop :=
  slot = .empty ∨ ∃ current, slot = .live current ∧ text current = text key

/-- The slot a probe returns when it has come to a free one. -/
def Vacant (table : Table κ ν) (cap start first last slot : Nat) : Prop :=
  ∃ steps, first ≤ steps ∧ steps ≤ last ∧ place cap start steps = slot ∧
    (table.keys slot).isLive = false

theorem probeFrom_stops (sized : table.size = cap)
    (stops : Stops text key (table.keys (place cap start last))) :
    ∀ fuel first tombstone, first ≤ last → last < first + fuel →
      (∀ steps, first ≤ steps → steps < last →
        ¬ Stops text key (table.keys (place cap start steps))) →
      ∃ slot, probeFrom text table cap key fuel (place cap start first) tombstone = .ok slot ∧
        ((table.keys (place cap start last) = .empty ∧
            (tombstone = some slot ∨ Vacant table cap start first last slot)) ∨
          ∃ current, table.keys (place cap start last) = .live current ∧
            text current = text key ∧ slot = place cap start last) := by
  have nonempty : 0 < cap := by
    obtain ⟨n, rfl⟩ := power
    exact Nat.two_pow_pos n
  intro fuel
  induction fuel with
  | zero =>
    intro first tombstone before enough
    omega
  | succ fuel ih =>
    intro first tombstone before enough earlier
    have inside : place cap start first < table.size := by
      rw [sized]
      exact place_lt nonempty first
    simp only [probeFrom, if_pos inside]
    by_cases done : first = last
    · subst done
      obtain empty | ⟨current, live, same⟩ := stops
      · simp only [empty]
        refine ⟨_, rfl, .inl ⟨trivial, ?_⟩⟩
        cases tombstone with
        | none => exact .inr ⟨first, Nat.le_refl _, Nat.le_refl _, rfl, by simp [empty, Slot.isLive]⟩
        | some slot => exact .inl rfl
      · simp only [live, same, if_true]
        exact ⟨_, rfl, .inr ⟨current, rfl, same, rfl⟩⟩
    · have passes := earlier first (Nat.le_refl _) (by omega)
      have later : ∀ steps, first + 1 ≤ steps → steps < last →
          ¬ Stops text key (table.keys (place cap start steps)) :=
        fun steps after => earlier steps (by omega)
      cases found : table.keys (place cap start first) with
      | empty => exact absurd (.inl found) passes
      | tombstone =>
        simp only [nextIndex_place power]
        obtain ⟨slot, probed, outcome⟩ :=
          ih (first + 1) (tombstone.or (some (place cap start first))) (by omega) (by omega) later
        refine ⟨slot, probed, outcome.imp ?_ id⟩
        rintro ⟨empty, remembered | ⟨steps, after, upto, reached, vacant⟩⟩
        · refine ⟨empty, ?_⟩
          cases tombstone with
          | none =>
            cases remembered
            exact .inr ⟨first, Nat.le_refl _, by omega, rfl, by simp [found, Slot.isLive]⟩
          | some slot => exact .inl remembered
        · exact ⟨empty, .inr ⟨steps, by omega, upto, reached, vacant⟩⟩
      | live current =>
        have different : text current ≠ text key :=
          fun same => passes (.inr ⟨current, found, same⟩)
        simp only [if_neg different, nextIndex_place power]
        obtain ⟨slot, probed, outcome⟩ := ih (first + 1) tombstone (by omega) (by omega) later
        refine ⟨slot, probed, outcome.imp ?_ id⟩
        rintro ⟨empty, remembered | ⟨steps, after, upto, reached, vacant⟩⟩
        · exact ⟨empty, .inl remembered⟩
        · exact ⟨empty, .inr ⟨steps, by omega, upto, reached, vacant⟩⟩

/-- The places from which the key of `slot` can be found again. -/
abbrev Findable (table : Table κ ν) (cap start slot : Nat) : Prop :=
  Probes (· = .empty) table.keys cap start slot

variable (text key) in
/-- A probe in a table that is not full. -/
theorem probe_result (sized : table.size = cap)
    (origin : start < cap) (room : ∃ index, index < cap ∧ table.keys index = .empty) :
    ∃ slot, slot < cap ∧ probeFrom text table cap key cap start none = .ok slot ∧
      ((∃ current, table.keys slot = .live current ∧ text current = text key) ∨
        ((table.keys slot).isLive = false ∧ Findable table cap start slot ∧
          ∀ index current, table.keys index = .live current → text current = text key →
            ¬ Findable table cap start index)) := by
  obtain ⟨index, within, empty⟩ := room
  obtain ⟨last, bound, stops, earlier⟩ :=
    exists_first_stop table.keys (Stops text key) within origin (.inl empty)
  obtain ⟨slot, probed, outcome⟩ := probeFrom_stops power sized stops cap 0 none (Nat.zero_le _)
    (by omega) (fun steps _ => earlier steps)
  rw [place_zero origin] at probed
  have nonempty : 0 < cap := by omega
  obtain ⟨free, vacant⟩ | ⟨current, live, same, rfl⟩ := outcome
  · obtain ⟨steps, -, upto, rfl, dead⟩ := vacant.resolve_left (by simp)
    refine ⟨_, place_lt nonempty steps, probed, .inr ⟨dead, ?_, ?_⟩⟩
    · refine ⟨steps, by omega, rfl, ?_⟩
      intro before sooner isEmpty
      exact earlier before (by omega) (.inl isEmpty)
    · rintro other current live same ⟨distance, -, rfl, taken⟩
      obtain near | far := Nat.lt_or_ge distance last
      · exact earlier distance near (.inr ⟨current, live, same⟩)
      · obtain rfl | beyond := Nat.eq_or_lt_of_le far
        · simp [free] at live
        · exact taken last beyond free
  · exact ⟨_, place_lt nonempty last, probed, .inl ⟨current, live, same⟩⟩

theorem findFree_stops (sized : table.size = cap)
    (stops : table.keys (place cap start last) = .empty) :
    ∀ fuel first, first ≤ last → last < first + fuel → (∀ steps, first ≤ steps → steps < last →
        table.keys (place cap start steps) ≠ .empty) →
      findFree table cap fuel (place cap start first) = .ok (place cap start last) := by
  have nonempty : 0 < cap := by
    obtain ⟨n, rfl⟩ := power
    exact Nat.two_pow_pos n
  intro fuel
  induction fuel with
  | zero =>
    intro first before enough
    omega
  | succ fuel ih =>
    intro first before enough earlier
    have inside : place cap start first < table.size := by
      rw [sized]
      exact place_lt nonempty first
    simp only [findFree, if_pos inside]
    by_cases done : first = last
    · subst done
      simp only [stops]
    · have passes := earlier first (Nat.le_refl _) (by omega)
      have rest := ih (first + 1) (by omega) (by omega) fun steps after => earlier steps (by omega)
      cases found : table.keys (place cap start first) with
      | empty => exact absurd found passes
      | tombstone | live current => simp only [nextIndex_place power, rest]

theorem findFree_result (sized : table.size = cap)
    (origin : start < cap) (room : ∃ index, index < cap ∧ table.keys index = .empty) :
    ∃ slot, slot < cap ∧ findFree table cap cap start = .ok slot ∧ table.keys slot = .empty ∧
      Findable table cap start slot := by
  obtain ⟨index, within, empty⟩ := room
  obtain ⟨last, bound, stops, earlier⟩ :=
    exists_first_stop table.keys (· = .empty) within origin empty
  have found := findFree_stops power sized stops cap 0 (Nat.zero_le _) (by omega)
    (fun steps _ => earlier steps)
  rw [place_zero origin] at found
  exact ⟨_, place_lt (by omega) last, found, stops, last, bound, rfl, earlier⟩

end

end Libgoc.GocDict
