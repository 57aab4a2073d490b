import Libgoc.Wsdq.Model

namespace Libgoc.Wsdq

open Libgoc.Data Libgoc.Semantics

/-! # The invariant of the deque -/

variable {before after state : State}

/-- The indices below the limit can be stolen.  A pop that found more than one
entry takes the last one without an exchange, so thieves stay below it. -/
def OwnerPc.limit (bottom : Nat) : OwnerPc → Nat
  | .popSlot oldB t _ _ => if t + 1 < oldB then oldB - 1 else oldB
  | pc => pc.back bottom

def State.limit (state : State) : Nat :=
  state.owner.limit state.bottom

/-- The buffer that the owner works on is the current one. -/
def State.current (state : State) (buf : BufId) (cap : Nat) : Prop :=
  buf = state.buf ∧ cap = state.capacity

def State.copied (state : State) (b : Nat) (buf newBuf : BufId) (newCap : Nat) : Prop :=
  buf = state.buf ∧ newBuf < state.fresh ∧ newBuf ≠ buf ∧ b < state.top + newCap ∧
    ∀ index, state.top ≤ index → index < b → state.heap newBuf (index % newCap) = state.slot index

def State.lowered (state : State) (back : Nat) : Prop :=
  state.bottom = (back + (sizeRange - 1)) % sizeRange

def State.OwnerAt (state : State) : OwnerPc → Prop
  | .idle => True
  | .pushTop _ b => b = state.bottom
  | .pushBuf _ b t => b = state.bottom ∧ t ≤ state.top ∧ b ≤ t + state.capacity
  | .grow _ b t buf cap => b = state.bottom ∧ t ≤ state.top ∧ b = t + cap ∧ state.current buf cap
  | .growLock _ b buf newBuf newCap | .growSwap _ b buf newBuf newCap =>
    b = state.bottom ∧ state.copied b buf newBuf newCap
  | .growUnlock _ b buf newBuf newCap | .growFree _ b buf newBuf newCap =>
    b = state.bottom ∧ state.current newBuf newCap ∧ buf ≠ newBuf ∧ b < state.top + newCap
  | .pushSlot _ b buf cap => b = state.bottom ∧ state.current buf cap ∧ b < state.top + cap
  | .pushBottom item b =>
    b = state.bottom ∧ b < state.top + state.capacity ∧ state.slot b = some item
  | .popBuf oldB => state.lowered oldB
  | .popTop oldB buf cap => state.lowered oldB ∧ state.current buf cap
  | .popRestore restoreB => state.lowered restoreB ∧ state.top = restoreB
  | .popSlot oldB t buf cap =>
    state.lowered oldB ∧ state.current buf cap ∧ t < oldB ∧ t ≤ state.top
  | .popCas entry t =>
    state.lowered (t + 1) ∧ t ≤ state.top ∧ (state.top = t → entry = state.slot t)
  | .popLost t | .popWon _ t => state.lowered (t + 1) ∧ state.top = t + 1

def State.ThiefAt (state : State) : ThiefPc → Prop
  | .idle | .loadTop | .unlock _ => True
  | .loadBottom t => t ≤ state.top
  | .loadBuf t => t ≤ state.top ∧ (state.top = t → t < state.limit)
  | .readSlot t buf cap =>
    t ≤ state.top ∧ (state.top = t → t < state.limit) ∧ state.current buf cap
  | .cas t entry =>
    t ≤ state.top ∧ (state.top = t → t < state.limit ∧ entry = state.slot t)

def OwnerPc.locked : OwnerPc → Bool
  | .growSwap .. | .growUnlock .. => true
  | _ => false

structure Sound (state : State) : Prop where
  ordered : state.top ≤ state.limit
  bounded : state.back < sizeRange
  fits : state.back ≤ state.top + state.capacity
  room : 0 < state.capacity
  allocated : state.buf < state.fresh
  owner : state.OwnerAt state.owner
  thief : ∀ thief, state.ThiefAt (state.thieves thief)
  ownerLock : state.stealLock = some .owner ↔ state.owner.locked = true
  thiefLock : ∀ thief, state.stealLock = some (.thief thief) ↔ state.thieves thief ≠ .idle

theorem OwnerPc.limit_le_back (pc : OwnerPc) (bottom : Nat) : pc.limit bottom ≤ pc.back bottom := by
  cases pc with
  | popSlot oldB t buf cap =>
    simp only [OwnerPc.limit, OwnerPc.back]
    split <;> omega
  | _ => exact Nat.le_refl _

theorem Sound.top_le_back (sound : Sound state) : state.top ≤ state.back :=
  Nat.le_trans sound.ordered (state.owner.limit_le_back state.bottom)

/-- A pop has taken `bottom` below zero. -/
def State.wrapped (state : State) : Bool :=
  state.owner.popping && state.bottom == sizeRange - 1

def ThiefPc.loadsBottom : ThiefPc → Bool
  | .loadBottom _ => true
  | _ => false

/-- The next step of the owner leaves the range of a `size_t`. -/
def OwnerPc.overflows : OwnerPc → Bool
  | .pushBottom _ b => sizeRange ≤ b + 1
  | .grow _ _ _ _ cap => sizeRange ≤ cap * 2
  | _ => false

/-- No thief loads `bottom` while a pop has taken it below zero, and `bottom`
and the capacity stay in the range of a `size_t`. -/
def Undisturbed (state : State) : Label → Prop
  | .thief thief => (state.thieves thief).loadsBottom = true → state.wrapped = false
  | .owner => state.owner.overflows = false
  | .push _ | .pop | .steal _ => True

instance (state : State) : (label : Label) → Decidable (Undisturbed state label)
  | .thief thief =>
    inferInstanceAs (Decidable ((state.thieves thief).loadsBottom = true → state.wrapped = false))
  | .owner => inferInstanceAs (Decidable (state.owner.overflows = false))
  | .push _ | .pop | .steal _ => .isTrue trivial

/-- The facts of a thief stay true in a step of the owner. -/
theorem State.ThiefAt.kept (at' : before.ThiefAt pc) (top : after.top = before.top)
    (limit : before.top < before.limit → before.top < after.limit)
    (slot : before.top < before.limit → after.slot before.top = before.slot before.top)
    (buf : after.buf = before.buf) (capacity : after.capacity = before.capacity) :
    after.ThiefAt pc := by
  cases pc with
  | idle | loadTop | unlock => trivial
  | loadBottom t => exact Nat.le_trans at' (Nat.le_of_eq top.symm)
  | loadBuf t =>
    refine ⟨top ▸ at'.1, fun own => ?_⟩
    have same : before.top = t := top.symm.trans own
    subst same
    exact limit (at'.2 rfl)
  | readSlot t loaded cap =>
    refine ⟨top ▸ at'.1, fun own => ?_, buf ▸ at'.2.2.1, capacity ▸ at'.2.2.2⟩
    have same : before.top = t := top.symm.trans own
    subst same
    exact limit (at'.2.1 rfl)
  | cas t entry =>
    refine ⟨top ▸ at'.1, fun own => ?_⟩
    have same : before.top = t := top.symm.trans own
    subst same
    obtain ⟨below, loaded⟩ := at'.2 rfl
    exact ⟨limit below, loaded.trans (slot below).symm⟩

/-- A step of the owner that leaves `top` and the current buffer in place. -/
structure OwnerFrame (before after : State) : Prop where
  top : after.top = before.top
  buf : after.buf = before.buf
  capacity : after.capacity = before.capacity
  fresh : before.fresh ≤ after.fresh
  thieves : after.thieves = before.thieves
  slot : before.top < before.limit → after.slot before.top = before.slot before.top
  owner : after.OwnerAt after.owner
  ownerLock : after.stealLock = some .owner ↔ after.owner.locked = true
  thiefLock : ∀ thief,
    after.stealLock = some (.thief thief) ↔ before.stealLock = some (.thief thief)

theorem Sound.owned (sound : Sound before) (frame : OwnerFrame before after)
    (ordered : before.top ≤ after.limit) (bounded : after.back < sizeRange)
    (fits : after.back ≤ before.top + before.capacity)
    (limit : before.top < before.limit → before.top < after.limit) : Sound after where
  ordered := frame.top ▸ ordered
  bounded := bounded
  fits := by rw [frame.top, frame.capacity]; exact fits
  room := frame.capacity ▸ sound.room
  allocated := frame.buf ▸ Nat.lt_of_lt_of_le sound.allocated frame.fresh
  owner := frame.owner
  thief thief := by
    rw [frame.thieves]
    exact (sound.thief thief).kept frame.top limit frame.slot frame.buf frame.capacity
  ownerLock := frame.ownerLock
  thiefLock thief := by rw [frame.thiefLock, frame.thieves, sound.thiefLock]

/-- The owner moves on without moving an end of the deque. -/
theorem Sound.advanced (sound : Sound before) (frame : OwnerFrame before after)
    (back : after.back = before.back) (limit : after.limit = before.limit) : Sound after := by
  apply sound.owned frame
  · rw [limit]; exact sound.ordered
  · rw [back]; exact sound.bounded
  · rw [back]; exact sound.fits
  · rw [limit]; exact id

section

variable (sound : Sound state) (now : state.owner = old)
  (owner : State.OwnerAt { state with bottom, owner := pc, pushed, returned } pc)
include sound now owner

/-- A step that touches neither the buffers nor the lock. -/
theorem Sound.frame (locked : pc.locked = old.locked := by rfl) :
    OwnerFrame state { state with bottom, owner := pc, pushed, returned } where
  top := rfl
  buf := rfl
  capacity := rfl
  fresh := Nat.le_refl _
  thieves := rfl
  slot _ := rfl
  owner := owner
  ownerLock := by rw [locked, ← now]; exact sound.ownerLock
  thiefLock _ := Iff.rfl

theorem Sound.advance (back : pc.back bottom = old.back state.bottom := by rfl)
    (limit : pc.limit bottom = old.limit state.bottom := by rfl)
    (locked : pc.locked = old.locked := by rfl) :
    Sound { state with bottom, owner := pc, pushed, returned } := by
  subst now
  exact sound.advanced (sound.frame rfl owner locked) back limit

end

end Libgoc.Wsdq
