import Libgoc.Wsdq.Invariant

namespace Libgoc.Wsdq

open Libgoc.Data Libgoc.Semantics Function

/-! # Every step keeps the invariant -/

variable {before after state : State} {item : Item} {b t oldB newCap cap : Nat} {buf newBuf : BufId}

theorem copySlots_other {old new : Slots} {i count place : Nat}
    (outside : ∀ index, i ≤ index → index < i + count → index % newCap ≠ place) :
    copySlots old cap newCap i count new place = new place := by
  induction count generalizing i new with
  | zero => rfl
  | succ count ih =>
    rw [copySlots, ih (fun index lower upper => outside index (by omega) (by omega)),
      update_of_ne (Ne.symm (outside i (by omega) (by omega)))]

theorem copySlots_slot {old new : Slots} {i count index : Nat} (enough : count ≤ newCap)
    (lower : i ≤ index) (upper : index < i + count) :
    copySlots old cap newCap i count new (index % newCap) = old (index % cap) := by
  induction count generalizing i new with
  | zero => omega
  | succ count ih =>
    rw [copySlots]
    by_cases first : index = i
    · subst first
      rw [copySlots_other, update_self]
      intro other above below
      exact (ring_place_ne (by omega) (by omega)).symm
    · exact ih (by omega) (by omega) (by omega)

section

variable (sound : Sound state)
include sound

theorem push_sound (stepped : wsdqPushBottom state entry = some after) : Sound after := by
  simp only [wsdqPushBottom] at stepped
  split at stepped
  · rename_i idle
    cases stepped
    exact sound.advance idle rfl
  · cases stepped

theorem pop_sound (stepped : wsdqPopBottom state = some after) :
    Sound after := by
  simp only [wsdqPopBottom] at stepped
  split at stepped
  · rename_i idle
    cases stepped
    exact sound.advance idle (by simp [State.OwnerAt, State.lowered])
      (by simp only [OwnerPc.back]) (by simp only [OwnerPc.limit, OwnerPc.back])
  · cases stepped

theorem pushBuf_sound (pc : state.owner = .pushBuf item b t)
    (stepped : ownerStep state = some after) : Sound after := by
  have facts := sound.owner
  have ordered := sound.top_le_back
  simp only [State.back, pc, State.OwnerAt, OwnerPc.back] at facts ordered
  obtain ⟨rfl, loaded, size⟩ := facts
  have start : ¬state.bottom < t := by omega
  simp only [ownerStep, pc, Option.some.injEq, if_neg start, ge_iff_le, Nat.not_lt.mp start,
    if_true] at stepped
  subst stepped
  split
  · have full : state.bottom = t + state.capacity := by omega
    exact sound.advance pc ⟨rfl, loaded, full, rfl, rfl⟩
  · have space : state.bottom < state.top + state.capacity := by omega
    exact sound.advance pc ⟨rfl, ⟨rfl, rfl⟩, space⟩

theorem grow_sound (pc : state.owner = .grow item b t buf cap)
    (small : cap * 2 < sizeRange) (stepped : ownerStep state = some after) : Sound after := by
  have facts := sound.owner
  have room := sound.room
  simp only [pc, State.OwnerAt] at facts
  obtain ⟨rfl, loaded, size, rfl, rfl⟩ := facts
  simp only [ownerStep, pc, Option.some.injEq, Nat.mod_eq_of_lt small] at stepped
  have separate : state.buf ≠ state.fresh := Nat.ne_of_lt sound.allocated
  have space : state.bottom < state.top + state.capacity * 2 := by omega
  have slots : ∀ index, after.slot index = state.slot index := by
    intro index
    subst stepped
    simp only [State.slot, update_of_ne separate]
  have copied : ∀ index, state.top ≤ index → index < state.bottom →
      after.heap state.fresh (index % (state.capacity * 2)) = after.slot index := by
    intro index lower upper
    rw [slots]
    subst stepped
    simp only [update_self]
    exact copySlots_slot (by omega) (Nat.le_trans loaded lower) (by omega)
  subst stepped
  apply sound.advanced
  · constructor
    case top | buf | capacity | thieves => rfl
    case fresh => exact Nat.le_succ _
    case slot => exact fun _ => slots _
    case owner => exact ⟨rfl, rfl, Nat.lt_succ_self _, separate.symm, space, copied⟩
    case ownerLock => simpa [pc, OwnerPc.locked] using sound.ownerLock
    case thiefLock => exact fun _ => Iff.rfl
  · simp [State.back, pc, OwnerPc.back]
  · simp [State.limit, pc, OwnerPc.limit, OwnerPc.back]

theorem growLock_sound (pc : state.owner = .growLock item b buf newBuf newCap)
    (stepped : ownerStep state = some after) : Sound after := by
  have facts := sound.owner
  simp only [pc, State.OwnerAt] at facts
  simp only [ownerStep, pc] at stepped
  split at stepped
  · rename_i free
    cases stepped
    apply sound.advanced
    · constructor
      case top | buf | capacity | thieves => rfl
      case fresh => exact Nat.le_refl _
      case slot => exact fun _ => rfl
      case owner => exact facts
      case ownerLock => simp [OwnerPc.locked]
      case thiefLock => simp [free]
    · simp [State.back, pc, OwnerPc.back]
    · simp [State.limit, pc, OwnerPc.limit, OwnerPc.back]
  · cases stepped

theorem Sound.thieves_idle (locked : state.owner.locked = true)
    (thief : ThiefId) : state.thieves thief = .idle := by
  by_contra active
  have taken := (sound.thiefLock thief).mpr active
  simp [sound.ownerLock.mpr locked] at taken

theorem growSwap_sound (pc : state.owner = .growSwap item b buf newBuf newCap)
    (stepped : ownerStep state = some after) : Sound after := by
  have facts := sound.owner
  have ordered := sound.ordered
  have bounded := sound.bounded
  have idle := sound.thieves_idle (by rw [pc]; rfl)
  simp only [pc, State.OwnerAt] at facts
  obtain ⟨rfl, rfl, allocated, separate, space, copied⟩ := facts
  simp only [State.limit, State.back, pc, OwnerPc.limit, OwnerPc.back] at ordered bounded
  simp only [ownerStep, pc, Option.some.injEq] at stepped
  subst stepped
  constructor
  case ordered => exact ordered
  case bounded => exact bounded
  case fits => exact Nat.le_of_lt space
  case room => dsimp only; omega
  case allocated => exact allocated
  case owner => exact ⟨rfl, ⟨rfl, rfl⟩, separate.symm, space⟩
  case thief => intro thief; dsimp only; rw [idle thief]; trivial
  case ownerLock => simpa [pc, OwnerPc.locked] using sound.ownerLock
  case thiefLock => exact sound.thiefLock

theorem growUnlock_sound (pc : state.owner = .growUnlock item b buf newBuf newCap)
    (stepped : ownerStep state = some after) : Sound after := by
  have facts := sound.owner
  have locked := sound.ownerLock.mpr (by rw [pc]; rfl)
  simp only [pc, State.OwnerAt] at facts
  simp only [ownerStep, pc, Option.some.injEq] at stepped
  subst stepped
  apply sound.advanced
  · constructor
    case top | buf | capacity | thieves => rfl
    case fresh => exact Nat.le_refl _
    case slot => exact fun _ => rfl
    case owner => exact facts
    case ownerLock => simp [OwnerPc.locked]
    case thiefLock => simp [locked]
  · simp [State.back, pc, OwnerPc.back]
  · simp [State.limit, pc, OwnerPc.limit, OwnerPc.back]

theorem growFree_sound (pc : state.owner = .growFree item b buf newBuf newCap)
    (stepped : ownerStep state = some after) : Sound after := by
  have facts := sound.owner
  simp only [pc, State.OwnerAt] at facts
  obtain ⟨rfl, ⟨rfl, rfl⟩, separate, size⟩ := facts
  simp only [ownerStep, pc, Option.some.injEq] at stepped
  subst stepped
  apply sound.advanced
  · constructor
    case top | buf | capacity | thieves => rfl
    case fresh => exact Nat.le_refl _
    case slot => simp [State.slot, update_of_ne separate.symm]
    case owner => exact ⟨rfl, ⟨rfl, rfl⟩, size⟩
    case ownerLock => simpa [pc, OwnerPc.locked] using sound.ownerLock
    case thiefLock => exact fun _ => Iff.rfl
  · simp [State.back, pc, OwnerPc.back]
  · simp [State.limit, pc, OwnerPc.limit, OwnerPc.back]

theorem pushSlot_sound (pc : state.owner = .pushSlot item b buf cap)
    (stepped : ownerStep state = some after) : Sound after := by
  have facts := sound.owner
  simp only [pc, State.OwnerAt] at facts
  obtain ⟨rfl, ⟨rfl, rfl⟩, size⟩ := facts
  simp only [ownerStep, pc, Option.some.injEq] at stepped
  subst stepped
  apply sound.advanced
  · constructor
    case top | buf | capacity | thieves => rfl
    case fresh => exact Nat.le_refl _
    case slot =>
      intro below
      simp only [State.limit, pc, OwnerPc.limit, OwnerPc.back] at below
      simp only [State.slot, update_self]
      exact update_of_ne (ring_place_ne below size) _ _
    case owner => exact ⟨rfl, size, by simp [State.slot]⟩
    case ownerLock => simpa [pc, OwnerPc.locked] using sound.ownerLock
    case thiefLock => exact fun _ => Iff.rfl
  · simp [State.back, pc, OwnerPc.back]
  · simp [State.limit, pc, OwnerPc.limit, OwnerPc.back]

theorem pushBottom_sound (pc : state.owner = .pushBottom item b)
    (small : b + 1 < sizeRange) (stepped : ownerStep state = some after) : Sound after := by
  have facts := sound.owner
  have ordered := sound.ordered
  simp only [pc, State.OwnerAt] at facts
  obtain ⟨rfl, size, stored⟩ := facts
  simp only [State.limit, pc, OwnerPc.limit, OwnerPc.back] at ordered
  simp only [ownerStep, pc, Option.some.injEq, Nat.mod_eq_of_lt small] at stepped
  subst stepped
  apply sound.owned
  · exact sound.frame pc trivial
  · exact Nat.le_succ_of_le ordered
  · exact small
  · exact size
  · exact fun _ => Nat.lt_succ_of_le ordered

theorem popTop_sound (pc : state.owner = .popTop oldB buf cap)
    (stepped : ownerStep state = some after) : Sound after := by
  have facts := sound.owner
  have ordered := sound.ordered
  have bounded := sound.bounded
  have fits := sound.fits
  simp only [pc, State.OwnerAt] at facts
  obtain ⟨lowered, rfl, rfl⟩ := facts
  simp only [State.limit, State.back, pc, OwnerPc.limit, OwnerPc.back] at ordered bounded fits
  simp only [ownerStep, pc, Option.some.injEq] at stepped
  subst stepped
  split
  · rename_i empty
    have same : oldB = state.top := Nat.le_antisymm empty ordered
    subst same
    simp only [Nat.lt_irrefl, if_false]
    exact sound.advance pc ⟨lowered, rfl⟩
  · rename_i nonempty
    have limit : state.top ≤ OwnerPc.limit state.bottom
        (.popSlot oldB state.top state.buf state.capacity) ∧
        (state.top < oldB → state.top < OwnerPc.limit state.bottom
          (.popSlot oldB state.top state.buf state.capacity)) := by
      simp only [OwnerPc.limit]
      split <;> omega
    apply sound.owned
    · exact sound.frame pc ⟨lowered, ⟨rfl, rfl⟩, by omega, Nat.le_refl _⟩
    · exact limit.1
    · exact bounded
    · exact fits
    · intro _
      exact limit.2 (by omega)

end

/-- What `atomic_fetch_sub` left in `bottom`, unless there was nothing to pop. -/
theorem State.lowered.eq (lowered : state.lowered (oldB + 1)) (bounded : oldB + 1 < sizeRange) :
    state.bottom = oldB := by
  rw [lowered, Nat.add_assoc, Nat.add_sub_cancel' (by omega), Nat.add_mod_right,
    Nat.mod_eq_of_lt (by omega)]

theorem popSlot_sound (sound : Sound state) (pc : state.owner = .popSlot oldB t buf cap)
    (stepped : ownerStep state = some after) : Sound after := by
  have facts := sound.owner
  have ordered := sound.ordered
  have bounded := sound.bounded
  have fits := sound.fits
  simp only [pc, State.OwnerAt] at facts
  obtain ⟨lowered, ⟨rfl, rfl⟩, below, loaded⟩ := facts
  simp only [State.limit, State.back, pc, OwnerPc.limit, OwnerPc.back] at ordered bounded fits
  obtain ⟨newB, rfl⟩ : ∃ newB, oldB = newB + 1 := ⟨oldB - 1, by omega⟩
  have bottom := lowered.eq bounded
  simp only [ownerStep, pc, Nat.add_sub_cancel] at stepped
  split at stepped
  · rename_i more
    cases stepped
    rw [if_pos (by omega)] at ordered
    apply sound.owned
    · exact sound.frame pc trivial
    · change state.top ≤ state.bottom
      omega
    · change state.bottom < sizeRange
      omega
    · change state.bottom ≤ state.top + state.capacity
      omega
    · intro inside
      simp only [State.limit, pc, OwnerPc.limit, if_pos (Nat.succ_lt_succ more)] at inside
      change state.top < state.bottom
      omega
  · rename_i last
    cases stepped
    have same : newB = t := by omega
    subst same
    exact sound.advance pc ⟨lowered, loaded, fun _ => rfl⟩ rfl (by simp [OwnerPc.limit, OwnerPc.back])

/-- A thief that has loaded an index below `top` cannot succeed. -/
theorem State.ThiefAt.passed (facts : before.ThiefAt pc)
    (top : before.top < after.top) (buf : after.buf = before.buf)
    (capacity : after.capacity = before.capacity) : after.ThiefAt pc := by
  cases pc with
  | idle | loadTop | unlock => trivial
  | loadBottom t => exact Nat.le_trans facts (Nat.le_of_lt top)
  | loadBuf t | cas t entry =>
    have loaded := facts.1
    exact ⟨by omega, by omega⟩
  | readSlot t loaded cap =>
    obtain ⟨below, -, current⟩ := facts
    exact ⟨by omega, by omega, by rw [buf]; exact current.1, by rw [capacity]; exact current.2⟩

theorem popCas_sound (sound : Sound state)
    (pc : state.owner = .popCas entry t) (stepped : ownerStep state = some after) :
    Sound after := by
  have facts := sound.owner
  have ordered := sound.ordered
  have bounded := sound.bounded
  have fits := sound.fits
  simp only [State.limit, State.back, pc, State.OwnerAt, OwnerPc.limit, OwnerPc.back]
    at facts ordered bounded fits
  obtain ⟨lowered, loaded, -⟩ := facts
  simp only [ownerStep, pc, Nat.mod_eq_of_lt bounded] at stepped
  split at stepped
  · rename_i won
    cases stepped
    constructor
    case ordered => exact Nat.le_refl _
    case bounded => exact bounded
    case fits => exact Nat.le_add_right _ _
    case room => exact sound.room
    case allocated => exact sound.allocated
    case owner => exact ⟨lowered, rfl⟩
    case thief =>
      intro thief
      apply (sound.thief thief).passed
      · dsimp only
        omega
      · rfl
      · rfl
    case ownerLock => simpa [pc, OwnerPc.locked] using sound.ownerLock
    case thiefLock => exact sound.thiefLock
  · rename_i lost
    cases stepped
    have top : state.top = t + 1 := by omega
    exact sound.advance pc ⟨lowered, top⟩

theorem ownerStep_sound (sound : Sound state) (small : state.owner.overflows = false)
    (stepped : ownerStep state = some after) : Sound after := by
  have facts := sound.owner
  have fits := sound.fits
  have bounded := sound.bounded
  cases pc : state.owner with
  | idle => simp [ownerStep, pc] at stepped
  | pushTop item b =>
    simp only [State.back, pc, OwnerPc.back, State.OwnerAt] at facts fits
    simp only [ownerStep, pc, Option.some.injEq] at stepped
    subst stepped
    exact sound.advance pc ⟨facts, Nat.le_refl _, facts ▸ fits⟩
  | pushBuf => exact pushBuf_sound sound pc stepped
  | grow => exact grow_sound sound pc (by simpa [pc, OwnerPc.overflows] using small) stepped
  | growLock => exact growLock_sound sound pc stepped
  | growSwap => exact growSwap_sound sound pc stepped
  | growUnlock => exact growUnlock_sound sound pc stepped
  | growFree => exact growFree_sound sound pc stepped
  | pushSlot => exact pushSlot_sound sound pc stepped
  | pushBottom =>
    exact pushBottom_sound sound pc (by simpa [pc, OwnerPc.overflows] using small) stepped
  | popBuf oldB =>
    simp only [pc, State.OwnerAt] at facts
    simp only [ownerStep, pc, Option.some.injEq] at stepped
    subst stepped
    exact sound.advance pc ⟨facts, rfl, rfl⟩
  | popTop => exact popTop_sound sound pc stepped
  | popRestore restoreB =>
    simp only [ownerStep, pc, Option.some.injEq] at stepped
    subst stepped
    exact sound.advance pc trivial
  | popSlot => exact popSlot_sound sound pc stepped
  | popCas => exact popCas_sound sound pc stepped
  | popLost t | popWon entry t =>
    simp only [State.back, pc, OwnerPc.back] at bounded
    simp only [ownerStep, pc, Option.some.injEq, Nat.mod_eq_of_lt bounded] at stepped
    subst stepped
    exact sound.advance pc trivial

/-- The facts of the owner stay true when a thief moves `top`. -/
theorem Sound.owner_passed (sound : Sound state) (inside : state.top < state.limit) :
    State.OwnerAt { state with top := state.top + 1 } state.owner := by
  have facts := sound.owner
  cases pc : state.owner with
  | idle => trivial
  | pushTop | popBuf | popTop => rw [pc] at facts; exact facts
  | pushBuf | grow =>
    rw [pc] at facts
    obtain ⟨start, loaded, rest⟩ := facts
    exact ⟨start, Nat.le_succ_of_le loaded, rest⟩
  | growLock | growSwap =>
    rw [pc] at facts
    obtain ⟨start, current, allocated, separate, space, copied⟩ := facts
    refine ⟨start, current, allocated, separate, ?_, ?_⟩
    · dsimp only
      omega
    · intro index lower upper
      exact copied index (Nat.le_of_succ_le lower) upper
  | growUnlock | growFree =>
    rw [pc] at facts
    obtain ⟨start, current, separate, space⟩ := facts
    exact ⟨start, current, separate, by dsimp only; omega⟩
  | pushSlot =>
    rw [pc] at facts
    obtain ⟨start, current, space⟩ := facts
    exact ⟨start, current, by dsimp only; omega⟩
  | pushBottom =>
    rw [pc] at facts
    obtain ⟨start, space, stored⟩ := facts
    exact ⟨start, by dsimp only; omega, stored⟩
  | popSlot =>
    rw [pc] at facts
    obtain ⟨lowered, current, below, loaded⟩ := facts
    exact ⟨lowered, current, below, Nat.le_succ_of_le loaded⟩
  | popCas =>
    rw [pc] at facts
    obtain ⟨lowered, loaded, -⟩ := facts
    exact ⟨lowered, Nat.le_succ_of_le loaded, by dsimp only; omega⟩
  | popRestore | popLost | popWon =>
    -- the deque is empty
    rw [pc] at facts
    simp only [State.limit, pc, OwnerPc.limit, OwnerPc.back] at inside
    have top := facts.2
    omega

theorem State.OwnerAt.moved {returned : List Item} (facts : state.OwnerAt pc) :
    State.OwnerAt { setThief state thief next with stealLock := lock, returned } pc := by
  cases pc <;> exact facts

theorem Sound.thiefMoved (sound : Sound state) (thief : ThiefId) (facts : state.ThiefAt pc)
    (ownerLock : lock = some .owner ↔ state.owner.locked = true)
    (own : lock = some (.thief thief) ↔ pc ≠ .idle) (others : ∀ other, other ≠ thief →
      (lock = some (.thief other) ↔ state.stealLock = some (.thief other))) :
    Sound { setThief state thief pc with stealLock := lock, returned } where
  ordered := sound.ordered
  bounded := sound.bounded
  fits := sound.fits
  room := sound.room
  allocated := sound.allocated
  owner := sound.owner.moved
  thief other := by
    by_cases same : other = thief
    · subst same
      simp only [setThief, update_self]
      exact facts
    · simp only [setThief, update_of_ne same]
      exact sound.thief other
  ownerLock := ownerLock
  thiefLock other := by
    by_cases same : other = thief
    · subst same
      simp only [setThief, update_self]
      exact own
    · simp only [setThief, update_of_ne same]
      exact (others other same).trans (sound.thiefLock other)

theorem steal_sound (sound : Sound state)
    (stepped : wsdqStealTop state thief = some after) : Sound after := by
  simp only [wsdqStealTop] at stepped
  split at stepped
  · rename_i idle free
    cases stepped
    apply sound.thiefMoved thief
    · trivial
    · simpa [free] using sound.ownerLock
    · simp
    · intro other different
      simp [free, Ne.symm different]
  · cases stepped

theorem Sound.thiefAdvance {thief : ThiefId} (sound : Sound state)
    (active : state.thieves thief ≠ .idle) (facts : state.ThiefAt pc) (stays : pc ≠ .idle) :
    Sound (setThief state thief pc) := by
  apply sound.thiefMoved thief facts sound.ownerLock
  · simp [stays, (sound.thiefLock thief).mpr active]
  · exact fun _ _ => Iff.rfl

theorem Sound.stolen {thief : ThiefId} {result : Option Item} (sound : Sound state)
    (active : state.thieves thief ≠ .idle) (own : state.top = t) (below : t < state.limit) :
    Sound { setThief state thief (.unlock result) with top := (t + 1) % sizeRange } := by
  subst own
  have back := state.owner.limit_le_back state.bottom
  have bounded := sound.bounded
  have fits := sound.fits
  have small : state.top + 1 < sizeRange := by
    simp only [State.limit, State.back] at below bounded
    omega
  have moved : Sound (setThief state thief (.unlock result)) :=
    sound.thiefAdvance active trivial (by simp)
  rw [Nat.mod_eq_of_lt small]
  constructor
  case ordered => exact below
  case bounded => exact bounded
  case fits => exact Nat.le_trans fits (Nat.add_le_add_right (Nat.le_succ _) _)
  case room => exact sound.room
  case allocated => exact sound.allocated
  case owner => exact moved.owner_passed below
  case thief =>
    intro other
    apply (moved.thief other).passed
    · exact Nat.lt_succ_self _
    · rfl
    · rfl
  case ownerLock => exact moved.ownerLock
  case thiefLock => exact moved.thiefLock

/-- What a thief sees of `bottom` when no pop has taken it below zero. -/
theorem Sound.bottom_le_limit (sound : Sound state) (undisturbed : state.wrapped = false) :
    state.bottom ≤ state.limit := by
  have facts := sound.owner
  have bounded := sound.bounded
  have popped : ∀ {back}, state.lowered back → back < sizeRange → state.owner.popping = true →
      state.bottom ≤ back := by
    intro back lowered bounded popping
    cases back with
    | zero =>
      rw [State.lowered, Nat.zero_add, Nat.mod_eq_of_lt (by omega)] at lowered
      simp [State.wrapped, popping, lowered] at undisturbed
    | succ newB => exact (lowered.eq bounded).symm ▸ Nat.le_succ newB
  simp only [State.limit]
  cases pc : state.owner with
  | popBuf back =>
    simp only [State.back, pc, State.OwnerAt, OwnerPc.back] at facts bounded
    exact popped facts bounded (by simp [pc, OwnerPc.popping])
  | popTop back | popRestore back =>
    simp only [State.back, pc, State.OwnerAt, OwnerPc.back] at facts bounded
    exact popped facts.1 bounded (by simp [pc, OwnerPc.popping])
  | popSlot oldB t =>
    simp only [State.back, pc, State.OwnerAt, OwnerPc.back] at facts bounded
    obtain ⟨lowered, -, below, -⟩ := facts
    obtain ⟨newB, rfl⟩ : ∃ newB, oldB = newB + 1 := ⟨oldB - 1, by omega⟩
    simp only [OwnerPc.limit, lowered.eq bounded]
    split <;> omega
  | popCas entry t | popLost t | popWon entry t =>
    simp only [State.back, pc, State.OwnerAt, OwnerPc.back] at facts bounded
    simp only [OwnerPc.limit, OwnerPc.back, facts.1.eq bounded]
    omega
  | _ => simp [OwnerPc.limit, OwnerPc.back]

theorem thiefStep_sound (sound : Sound state) {thief : ThiefId}
    (undisturbed : (state.thieves thief).loadsBottom = true → state.wrapped = false)
    (stepped : thiefStep state thief = some after) : Sound after := by
  have facts := sound.thief thief
  cases pc : state.thieves thief with
  | idle => simp [thiefStep, pc] at stepped
  | loadTop =>
    simp only [thiefStep, pc, Option.some.injEq] at stepped
    subst stepped
    exact sound.thiefAdvance (by simp [pc]) (Nat.le_refl _) (by simp)
  | loadBottom t =>
    simp only [thiefStep, pc, Option.some.injEq] at stepped
    subst stepped
    split
    · exact sound.thiefAdvance (by simp [pc]) trivial (by simp)
    · rename_i nonempty
      have limit := sound.bottom_le_limit (undisturbed (by simp [pc, ThiefPc.loadsBottom]))
      rw [pc] at facts
      exact sound.thiefAdvance (by simp [pc]) ⟨facts, fun _ => by omega⟩ (by simp)
  | loadBuf t =>
    simp only [thiefStep, pc, Option.some.injEq] at stepped
    subst stepped
    rw [pc] at facts
    exact sound.thiefAdvance (by simp [pc]) ⟨facts.1, facts.2, rfl, rfl⟩ (by simp)
  | readSlot t buf cap =>
    simp only [thiefStep, pc, Option.some.injEq] at stepped
    subst stepped
    rw [pc] at facts
    obtain ⟨loaded, below, rfl, rfl⟩ := facts
    exact sound.thiefAdvance (by simp [pc]) ⟨loaded, fun own => ⟨below own, rfl⟩⟩ (by simp)
  | cas t entry =>
    simp only [thiefStep, pc] at stepped
    split at stepped
    · rename_i won
      cases stepped
      rw [pc] at facts
      obtain ⟨below, -⟩ := facts.2 won
      exact sound.stolen (by simp [pc]) won below
    · cases stepped
      exact sound.thiefAdvance (by simp [pc]) trivial (by simp)
  | unlock result =>
    have locked := (sound.thiefLock thief).mpr (by simp [pc])
    simp only [thiefStep, pc, Option.some.injEq] at stepped
    subst stepped
    apply sound.thiefMoved thief
    · trivial
    · simpa [locked] using sound.ownerLock
    · simp
    · intro other different
      simp [locked, Ne.symm different]

end Libgoc.Wsdq
