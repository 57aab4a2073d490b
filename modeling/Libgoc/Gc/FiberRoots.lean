import Mathlib.Data.Finset.Card
import Mathlib.Tactic.Common
import Libgoc.Semantics.Execution

namespace Libgoc.Gc.FiberRoots

open Libgoc.Semantics Function

/-! # The stacks of fibers as roots -/

abbrev FiberId := Nat

def chunkSize : Nat := 1024
def chunkWords : Nat := 16
def maxChunks : Nat := 256

/-- What the collector reads of a slot. -/
@[ext] structure Root where
  entry : Nat
  stackBase : Nat
  stackTop : Nat
deriving Repr, DecidableEq

structure Slot where
  root : Root := ⟨0, 0, 0⟩
  scanFrom : Nat := 0
deriving Repr, DecidableEq

/-- The parts of `goc_fiber_root_register` and `goc_fiber_root_unregister` between
their accesses; `fields` of the slot have been written. -/
inductive Phase where
  | absent
  | scanning (chunks word : Nat)
  | growing (chunk : Nat)
  | published (chunk : Nat)
  | writing (slot fields : Nat)
  | unlocking (slot : Nat)
  | registered (slot : Nat)
  | unregistering (slot : Nat)
  | gone
  | aborted
deriving Repr, DecidableEq

/-- The bit of a slot is bit `slot % 64` of word `slot / 64`. -/
structure State where
  numChunks : Nat := 0
  chunks : Nat → Bool := fun _ => false
  slots : Nat → Nat → Slot := fun _ _ => {}
  bitmap : Nat → Bool := fun _ => false
  mutex : Option FiberId := none
  phases : FiberId → Phase := fun _ => .absent
  roots : FiberId → Root := fun _ => ⟨0, 0, 0⟩
  fresh : FiberId := 0

section

variable (state : State) (fiber : FiberId)

def State.setPhase (phase : Phase) : State :=
  { state with phases := update state.phases fiber phase }

def State.written (slot : Nat) (write : Slot → Slot) : State :=
  let chunk := slot / chunkSize
  let offset := slot % chunkSize
  { state with
    slots := update state.slots chunk
      (update (state.slots chunk) offset (write (state.slots chunk offset))) }

/-- A store to a slot; the chunk of the slot may be a null pointer. -/
def State.writeSlot (slot : Nat) (write : Slot → Slot) (phase : Phase) : State :=
  if state.chunks (slot / chunkSize) then (state.written slot write).setPhase fiber phase
  else state.setPhase fiber .aborted

/-- `__builtin_ctzll(~bword)` of a word that is not `UINT64_MAX`. -/
def firstClear (word : Nat) : Option Nat :=
  (List.range 64).find? fun bit => !state.bitmap (word * 64 + bit)

/-- The stores to a slot in their order; `sp` is the first value of `scan_from`. -/
def writeField (root : Root) (sp : Nat) : Nat → Slot → Slot
  | 0, slot => { slot with root.entry := root.entry }
  | 1, slot => { slot with root.stackBase := root.stackBase }
  | 2, slot => { slot with root.stackTop := root.stackTop }
  | _, slot => { slot with scanFrom := sp }

/-- The mutex is taken and `fiber_root_num_chunks` is read, which only changes while
the mutex is held. -/
def register (root : Root) : Option State :=
  if state.mutex = none then
    some { state.setPhase state.fresh (.scanning state.numChunks 0) with
      mutex := some state.fresh
      roots := update state.roots state.fresh root
      fresh := state.fresh + 1 }
  else none

def registerNext (sp : Nat) : Option State :=
  match state.phases fiber with
  | .scanning chunks word =>
    if word < chunks * chunkWords then
      match firstClear state word with
      | some bit => some (state.setPhase fiber (.writing (word * 64 + bit) 0))
      | none => some (state.setPhase fiber (.scanning chunks (word + 1)))
    else some (state.setPhase fiber (.growing chunks))
  | .growing chunk =>
    if chunk < maxChunks then
      some { state.setPhase fiber (.published chunk) with
        chunks := update state.chunks chunk true
        slots := update state.slots chunk fun _ => {} }
    else some (state.setPhase fiber .aborted)
  | .published chunk =>
    some { state.setPhase fiber (.writing (chunk * chunkSize) 0) with
      numChunks := state.numChunks + 1 }
  | .writing slot fields =>
    if fields < 4 then
      some (state.writeSlot fiber slot (writeField (state.roots fiber) sp fields)
        (.writing slot (fields + 1)))
    else
      some { state.setPhase fiber (.unlocking slot) with bitmap := update state.bitmap slot true }
  | .unlocking slot => some { state.setPhase fiber (.registered slot) with mutex := none }
  | _ => none

def updateSp (sp : Nat) : Option State :=
  match state.phases fiber with
  | .registered slot =>
    some (state.writeSlot fiber slot (fun old => { old with scanFrom := sp }) (.registered slot))
  | _ => none

def unregister : Option State :=
  match state.phases fiber with
  | .registered slot => some (state.setPhase fiber (.unregistering slot))
  | _ => none

def clear : Option State :=
  match state.phases fiber with
  | .unregistering slot =>
    some { state.setPhase fiber .gone with bitmap := update state.bitmap slot false }
  | _ => none

/-- A slot of a chunk, unless the chunk is a null pointer. -/
def State.slotAt (chunk offset : Nat) : Option Slot :=
  if state.chunks chunk then some (state.slots chunk offset) else none

/-- The slots that a scan visits, with what it reads there. -/
def pushFiberRoots : List (Nat × Option Slot) :=
  (List.range state.numChunks).flatMap fun c =>
    (List.range chunkWords).flatMap fun w =>
      ((List.range 64).filter fun bit => state.bitmap ((c * chunkWords + w) * 64 + bit)).map
        fun bit => (c * chunkSize + (w * 64 + bit), state.slotAt c (w * 64 + bit))

end

inductive Label where
  | register (root : Root)
  | registerNext (fiber : FiberId) (sp : Nat)
  | updateSp (fiber : FiberId) (sp : Nat)
  | unregister (fiber : FiberId)
  | clear (fiber : FiberId)
deriving Repr, DecidableEq

def step (state : State) : Label → Option State
  | .register root => register state root
  | .registerNext fiber sp => registerNext state fiber sp
  | .updateSp fiber sp => updateSp state fiber sp
  | .unregister fiber => unregister state fiber
  | .clear fiber => clear state fiber

def system : System State Label where
  initial state := state = {}
  step := step

/-- The slot that is given to the fiber, and whether its bit is set. -/
@[simp] def Phase.place : Phase → Option (Nat × Bool)
  | .writing slot _ => some (slot, false)
  | .unlocking slot | .registered slot | .unregistering slot => some (slot, true)
  | _ => none

def State.live (state : State) : Nat :=
  ((Finset.range state.fresh).filter fun fiber => (state.phases fiber).place.isSome = true).card

/-- A registration begins with fewer live fibers than there may be slots. -/
def Fits (state : State) : Label → Prop
  | .register _ => state.live < maxChunks * chunkSize
  | _ => True

instance (state : State) (label : Label) : Decidable (Fits state label) :=
  match label with
  | .register _ => inferInstanceAs (Decidable (state.live < maxChunks * chunkSize))
  | .registerNext .. | .updateSp .. | .unregister _ | .clear _ => inferInstanceAs (Decidable True)

def State.read (state : State) (slot : Nat) : Root :=
  (state.slots (slot / chunkSize) (slot % chunkSize)).root

/-- The slot is in a chunk that is there. -/
def Has (state : State) (slot : Nat) (bit : Bool) : Prop :=
  slot < state.numChunks * chunkSize ∧ state.bitmap slot = bit

def Root.Agrees (root given : Root) (fields : Nat) : Prop :=
  (0 < fields → root.entry = given.entry) ∧ (1 < fields → root.stackBase = given.stackBase) ∧
    (2 < fields → root.stackTop = given.stackTop)

/-- A slot that is clear from the current word on stays so while the mutex is held. -/
def Fine (state : State) (fiber : FiberId) : Phase → Prop
  | .absent | .gone => True
  | .scanning chunks word => state.mutex = some fiber ∧ chunks = state.numChunks ∧
      ∃ slot, word * 64 ≤ slot ∧ slot < maxChunks * chunkSize ∧ state.bitmap slot = false
  | .growing chunk => state.mutex = some fiber ∧ chunk = state.numChunks ∧ chunk < maxChunks
  | .published chunk =>
    state.mutex = some fiber ∧ chunk = state.numChunks ∧ state.chunks chunk = true
  | .writing slot fields => state.mutex = some fiber ∧ Has state slot false ∧
      (state.read slot).Agrees (state.roots fiber) fields
  | .unlocking slot =>
    state.mutex = some fiber ∧ Has state slot true ∧ state.read slot = state.roots fiber
  | .registered slot | .unregistering slot =>
    Has state slot true ∧ state.read slot = state.roots fiber
  | .aborted => False

structure Inv (state : State) : Prop where
  fine : ∀ fiber, Fine state fiber (state.phases fiber)
  published : ∀ chunk < state.numChunks, state.chunks chunk = true
  unique : ∀ fiber other slot, (state.phases fiber).place = some (slot, true) →
    (state.phases other).place = some (slot, true) → fiber = other
  owned : ∀ slot, state.bitmap slot = true →
    ∃ fiber, (state.phases fiber).place = some (slot, true)
  beyond : ∀ fiber, state.fresh ≤ fiber → state.phases fiber = .absent

variable {state after : State} {fiber other : FiberId} {before phase : Phase}

theorem Inv.has {slot : Nat} {bit : Bool} (inv : Inv state)
    (given : (state.phases fiber).place = some (slot, bit)) :
    Has state slot bit ∧ (bit = true → state.read slot = state.roots fiber) ∧
      (bit = false → state.mutex = some fiber) := by
  have fine := inv.fine fiber
  cases phase : state.phases fiber <;> simp_all [Fine]

theorem Has.chunk_lt {slot : Nat} {bit : Bool} (has : Has state slot bit) :
    slot / chunkSize < state.numChunks :=
  Nat.div_lt_of_lt_mul (by rw [Nat.mul_comm]; exact has.1)

/-- One fiber goes on. -/
theorem Inv.turn (inv : Inv state) (phases : after.phases = update state.phases fiber phase)
    (inside : fiber < after.fresh) (fresh : state.fresh ≤ after.fresh)
    (published : ∀ chunk < after.numChunks, after.chunks chunk = true)
    (own : Fine after fiber phase)
    (others : ∀ other, other ≠ fiber → Fine state other (state.phases other) →
      Fine after other (state.phases other))
    (place : ∀ slot, phase.place = some (slot, true) →
      (state.phases fiber).place = some (slot, true) ∨ state.bitmap slot = false)
    (owned : ∀ slot, after.bitmap slot = true → phase.place = some (slot, true) ∨
      state.bitmap slot = true ∧ (state.phases fiber).place ≠ some (slot, true)) :
    Inv after := by
  have now : after.phases fiber = phase := by rw [phases, update_self]
  have kept : ∀ other, other ≠ fiber → after.phases other = state.phases other := by
    intro other different
    rw [phases, update_of_ne different]
  constructor
  · intro other
    by_cases same : other = fiber
    · rw [same, now]
      exact own
    · rw [kept other same]
      exact others other same (inv.fine other)
  · exact published
  · intro left right slot
    have unique := inv.unique left right slot
    have bits := fun other given => (@Inv.has state other slot true inv given).1.2
    grind
  · intro slot set
    obtain here | ⟨before, apart⟩ := owned slot set
    · exact ⟨fiber, by rw [now]; exact here⟩
    · obtain ⟨owner, given⟩ := inv.owned slot before
      refine ⟨owner, ?_⟩
      rw [kept owner]
      · exact given
      · intro same
        rw [same] at given
        exact apart given
  · intro other outside
    rw [kept other (Nat.ne_of_gt (Nat.lt_of_lt_of_le inside outside))]
    exact inv.beyond other (Nat.le_trans fresh outside)

theorem Inv.known (inv : Inv state) (at_ : state.phases fiber = phase)
    (here : phase ≠ .absent) : fiber < state.fresh := by
  by_contra outside
  exact here (at_.symm.trans (inv.beyond fiber (Nat.le_of_not_lt outside)))

theorem Inv.carry (inv : Inv state) (at_ : state.phases fiber = before) (here : before ≠ .absent)
    (phases : after.phases = update state.phases fiber phase) (fresh : after.fresh = state.fresh)
    (bitmap : after.bitmap = state.bitmap)
    (place : ∀ slot, phase.place = some (slot, true) ↔ before.place = some (slot, true))
    (published : ∀ chunk < after.numChunks, after.chunks chunk = true)
    (own : Fine after fiber phase)
    (others : ∀ other, other ≠ fiber → Fine state other (state.phases other) →
      Fine after other (state.phases other)) : Inv after := by
  refine inv.turn phases (fresh ▸ inv.known at_ here) (Nat.le_of_eq fresh.symm) published own
    others ?_ ?_
  · intro slot given
    rw [at_]
    exact .inl ((place slot).mp given)
  · intro slot set
    rw [at_, ← bitmap]
    by_cases given : before.place = some (slot, true)
    · exact .inl ((place slot).mpr given)
    · exact .inr ⟨set, given⟩

theorem Inv.moves (inv : Inv state) (at_ : state.phases fiber = before) (here : before ≠ .absent)
    (place : ∀ slot, phase.place = some (slot, true) ↔ before.place = some (slot, true))
    (own : Fine state fiber phase) : Inv (state.setPhase fiber phase) :=
  inv.carry at_ here rfl rfl rfl place inv.published own fun _ _ fine => fine

/-- While the thread of another fiber has the mutex, only slots that are shown matter. -/
theorem Fine.frame (fine : Fine state other phase) (free : state.mutex ≠ some other)
    (roots : after.roots other = state.roots other)
    (kept : ∀ slot, Has state slot true → Has after slot true ∧ after.read slot = state.read slot) :
    Fine after other phase := by
  cases phase with
  | registered slot | unregistering slot =>
    obtain ⟨has, read⟩ := fine
    obtain ⟨still, same⟩ := kept slot has
    exact ⟨still, by rw [same, read, roots]⟩
  | absent | gone => trivial
  | aborted => exact fine
  | _ => exact absurd fine.1 free

/-- Bits of other fibers may be cleared. -/
theorem Fine.congr (fine : Fine state other phase) (mutex : after.mutex = state.mutex)
    (numChunks : after.numChunks = state.numChunks) (chunks : after.chunks = state.chunks)
    (read : ∀ slot, after.read slot = state.read slot) (roots : after.roots = state.roots)
    (clears : ∀ slot, state.bitmap slot = false → after.bitmap slot = false)
    (keeps : ∀ slot, phase.place = some (slot, true) → after.bitmap slot = state.bitmap slot) :
    Fine after other phase := by
  cases phase with
  | scanning chunks word =>
    obtain ⟨held, same, slot, low, high, clear⟩ := fine
    exact ⟨mutex.trans held, same.trans numChunks.symm, slot, low, high, clears slot clear⟩
  | _ => grind [Fine, Has, Phase.place]

theorem read_written {write : Slot → Slot} : (state.written slot write).read place =
    if place = slot then (write (state.slots (slot / chunkSize) (slot % chunkSize))).root
    else state.read place := by
  simp only [State.written, State.read]
  by_cases same : place = slot
  · simp [same]
  · rw [if_neg same]
    by_cases chunk : place / chunkSize = slot / chunkSize
    · have offset : place % chunkSize ≠ slot % chunkSize := by
        intro offset
        apply same
        rw [← Nat.div_add_mod place chunkSize, ← Nat.div_add_mod slot chunkSize, chunk, offset]
      rw [chunk, update_self, update_of_ne offset]
    · rw [update_of_ne chunk]

theorem agrees_writeField (agrees : slot.root.Agrees root fields) :
    (writeField root sp fields slot).root.Agrees root (fields + 1) := by
  unfold Root.Agrees at *
  unfold writeField
  split <;> grind

theorem room_of_live (inv : Inv state) (fits : state.live < maxChunks * chunkSize) :
    ∃ slot < maxChunks * chunkSize, state.bitmap slot = false := by
  by_contra full
  have owned : ∀ slot, ∃ fiber, slot < maxChunks * chunkSize →
      (state.phases fiber).place = some (slot, true) := by
    intro slot
    by_cases inside : slot < maxChunks * chunkSize
    · have set : state.bitmap slot = true := by
        by_contra clear
        exact full ⟨slot, inside, Bool.of_not_eq_true clear⟩
      obtain ⟨fiber, given⟩ := inv.owned slot set
      exact ⟨fiber, fun _ => given⟩
    · exact ⟨0, fun outside => absurd outside inside⟩
  choose owner given using owned
  have many : (Finset.range (maxChunks * chunkSize)).card ≤ state.live := by
    apply Finset.card_le_card_of_injOn owner
    · intro slot inside
      have here := given slot (by simpa using inside)
      refine Finset.mem_coe.mpr (Finset.mem_filter.mpr ⟨Finset.mem_range.mpr ?_, by rw [here]; rfl⟩)
      exact inv.known rfl fun absent => by simp [absent] at here
    · intro left first right second same
      have here := given left (by simpa using first)
      rw [same, given right (by simpa using second)] at here
      simpa using here.symm
  rw [Finset.card_range] at many
  omega

theorem register_inv (inv : Inv state) (fits : state.live < maxChunks * chunkSize)
    (stepped : register state root = some after) : Inv after := by
  obtain ⟨free, rfl⟩ := guarded stepped
  obtain ⟨slot, high, clear⟩ := room_of_live inv fits
  refine inv.turn rfl (Nat.lt_succ_self _) (Nat.le_succ _) inv.published
    ⟨rfl, rfl, slot, by omega, high, clear⟩ ?_ (by simp) ?_
  · intro other different fine
    exact fine.frame (by simp [free]) (update_of_ne different ..) fun slot has => ⟨has, rfl⟩
  · intro slot set
    exact .inr ⟨set, by simp [inv.beyond state.fresh (Nat.le_refl _)]⟩

theorem registerNext_inv (inv : Inv state) (stepped : registerNext state fiber sp = some after) :
    Inv after := by
  have own := inv.fine fiber
  unfold registerNext at stepped
  split at stepped
  next chunks word at_ =>
    rw [at_] at own
    obtain ⟨mutex, rfl, slot, low, high, clear⟩ := own
    split at stepped
    next inside =>
      split at stepped
      next bit found =>
        cases stepped
        have small := List.mem_range.mp (List.mem_of_find?_eq_some found)
        have clear := List.find?_some found
        refine inv.moves at_ nofun (by simp) ⟨mutex, ⟨?_, by simpa using clear⟩, ?_⟩
        · simp only [chunkWords, chunkSize] at *
          omega
        · simp [Root.Agrees]
      next none =>
        cases stepped
        refine inv.moves at_ nofun (by simp) ⟨mutex, rfl, slot, ?_, high, clear⟩
        by_contra inside
        have set := List.find?_eq_none.mp none (slot - word * 64) (List.mem_range.mpr (by omega))
        rw [Nat.add_sub_cancel' low] at set
        simp [clear] at set
    next all =>
      cases stepped
      refine inv.moves at_ nofun (by simp) ⟨mutex, rfl, ?_⟩
      simp only [chunkWords, chunkSize] at *
      omega
  next chunk at_ =>
    rw [at_] at own
    obtain ⟨mutex, rfl, small⟩ := own
    rw [if_pos small] at stepped
    cases stepped
    refine inv.carry at_ nofun rfl rfl rfl (by simp) ?_ ⟨mutex, rfl, update_self ..⟩ ?_
    · intro chunk inside
      exact (update_of_ne (Nat.ne_of_lt inside) ..).trans (inv.published chunk inside)
    · intro other different fine
      refine fine.frame (by simp [mutex, Ne.symm different]) rfl fun slot has => ⟨has, ?_⟩
      simp [State.read, Nat.ne_of_lt has.chunk_lt]
  next chunk at_ =>
    cases stepped
    rw [at_] at own
    obtain ⟨mutex, rfl, there⟩ := own
    refine inv.carry at_ nofun rfl rfl rfl (by simp) ?_
      ⟨mutex, ⟨?_, ?_⟩, by simp [Root.Agrees]⟩ ?_
    · intro chunk inside
      obtain before | same := Nat.lt_succ_iff_lt_or_eq.mp inside
      · exact inv.published chunk before
      · rw [same]
        exact there
    · exact Nat.mul_lt_mul_of_pos_right (Nat.lt_succ_self _) (by decide)
    · by_contra set
      obtain ⟨owner, given⟩ := inv.owned _ (Bool.of_not_eq_false set)
      exact absurd (inv.has given).1.1 (Nat.lt_irrefl _)
    · intro other different fine
      refine fine.frame (by simp [mutex, Ne.symm different]) rfl fun slot has =>
        ⟨⟨Nat.lt_of_lt_of_le has.1 ?_, has.2⟩, rfl⟩
      exact Nat.mul_le_mul_right _ (Nat.le_succ _)
  next slot fields at_ =>
    have inside := inv.known at_ nofun
    rw [at_] at own
    obtain ⟨mutex, has, agrees⟩ := own
    -- no slot that is shown is the one that is being filled
    have apart : ∀ place, Has state place true → place ≠ slot := by
      intro place shown same
      rw [same] at shown
      cases shown.2.symm.trans has.2
    split at stepped
    next =>
      cases stepped
      unfold State.writeSlot
      rw [if_pos (inv.published _ has.chunk_lt)]
      refine inv.carry at_ nofun rfl rfl rfl (by simp) inv.published ⟨mutex, has, ?_⟩ ?_
      · exact (read_written.trans (if_pos rfl)).symm ▸ agrees_writeField agrees
      · intro other different fine
        refine fine.frame (by simp [mutex, Ne.symm different]) rfl fun place shown => ⟨shown, ?_⟩
        exact read_written.trans (if_neg (apart place shown))
    next all =>
      cases stepped
      have read : state.read slot = state.roots fiber :=
        Root.ext (agrees.1 (by omega)) (agrees.2.1 (by omega)) (agrees.2.2 (by omega))
      refine inv.turn rfl inside (Nat.le_refl _) inv.published
        ⟨mutex, ⟨has.1, update_self ..⟩, read⟩ ?_ ?_ ?_
      · intro other different fine
        refine fine.frame (by simp [mutex, Ne.symm different]) rfl fun place shown =>
          ⟨⟨shown.1, ?_⟩, rfl⟩
        exact (update_of_ne (apart place shown) ..).trans shown.2
      · intro place given
        cases given
        exact .inr has.2
      · intro place set
        by_cases same : place = slot
        · exact .inl (by rw [same]; rfl)
        · exact .inr ⟨by simpa [same] using set, by simp [at_]⟩
  next slot at_ =>
    cases stepped
    rw [at_] at own
    obtain ⟨mutex, has, read⟩ := own
    refine inv.carry at_ nofun rfl rfl rfl (by simp) inv.published ⟨has, read⟩ ?_
    intro other different fine
    exact fine.frame (by simp [mutex, Ne.symm different]) rfl fun place shown => ⟨shown, rfl⟩
  next => cases stepped

theorem updateSp_inv (inv : Inv state) (stepped : updateSp state fiber sp = some after) :
    Inv after := by
  unfold updateSp at stepped
  split at stepped
  next slot at_ =>
    cases stepped
    have own := inv.fine fiber
    rw [at_] at own
    have same : ∀ place, (state.written slot fun old => { old with scanFrom := sp }).read place =
        state.read place := by
      intro place
      rw [read_written]
      split
      next same =>
        rw [same]
        rfl
      next => rfl
    unfold State.writeSlot
    rw [if_pos (inv.published _ own.1.chunk_lt)]
    refine inv.carry at_ nofun rfl rfl rfl (by simp) inv.published
      ⟨own.1, (same slot).trans own.2⟩ ?_
    intro other _ fine
    exact fine.congr rfl rfl rfl same rfl (fun _ clear => clear) (fun _ _ => rfl)
  next => cases stepped

theorem clear_inv (inv : Inv state) (stepped : clear state fiber = some after) : Inv after := by
  unfold clear at stepped
  split at stepped
  next slot at_ =>
    cases stepped
    have mine : (state.phases fiber).place = some (slot, true) := by rw [at_]; rfl
    refine inv.turn rfl (inv.known at_ nofun) (Nat.le_refl _) inv.published trivial ?_ (by simp) ?_
    · intro other different fine
      refine fine.congr rfl rfl rfl (fun _ => rfl) rfl ?_ ?_
      · intro place clear
        simp [update_apply, clear]
      · intro place given
        refine update_of_ne ?_ ..
        intro same
        rw [same] at given
        exact different (inv.unique other fiber slot given mine)
    · intro place set
      by_cases same : place = slot
      · simp [same] at set
      · exact .inr ⟨by simpa [same] using set, by rw [mine]; simpa using Ne.symm same⟩
  next => cases stepped

theorem inv_of_reachable (reachable : system.ReachableWith Fits state) : Inv state := by
  apply reachable.invariant
  · intro start initial
    cases initial
    exact ⟨fun _ => trivial, by simp, by simp, by simp, fun _ _ => rfl⟩
  · intro before label after inv fits stepped
    cases label with
    | register root => exact register_inv inv fits stepped
    | registerNext fiber sp => exact registerNext_inv inv stepped
    | updateSp fiber sp => exact updateSp_inv inv stepped
    | unregister fiber =>
      simp only [system, step, unregister] at stepped
      split at stepped
      next slot at_ =>
        cases stepped
        have own := inv.fine fiber
        rw [at_] at own
        exact inv.moves at_ nofun (by simp) own
      next => cases stepped
    | clear fiber => exact clear_inv inv stepped

theorem mem_pushFiberRoots {read : Option Slot} : (slot, read) ∈ pushFiberRoots state ↔
    slot < state.numChunks * chunkSize ∧ state.bitmap slot = true ∧
      read = state.slotAt (slot / chunkSize) (slot % chunkSize) := by
  simp only [pushFiberRoots, List.mem_flatMap, List.mem_range, List.mem_map, List.mem_filter,
    Prod.mk.injEq, chunkSize, chunkWords]
  constructor
  · intro found
    obtain ⟨c, inside, w, word, bit, ⟨small, set⟩, rfl, rfl⟩ := found
    have chunk : (c * 1024 + (w * 64 + bit)) / 1024 = c := by omega
    have offset : (c * 1024 + (w * 64 + bit)) % 1024 = w * 64 + bit := by omega
    have place : (c * 16 + w) * 64 + bit = c * 1024 + (w * 64 + bit) := by omega
    rw [chunk, offset, ← place]
    exact ⟨by omega, set, rfl⟩
  · intro shown
    obtain ⟨inside, set, rfl⟩ := shown
    have offset : slot % 1024 / 64 * 64 + slot % 1024 % 64 = slot % 1024 := by omega
    have place : (slot / 1024 * 16 + slot % 1024 / 64) * 64 + slot % 1024 % 64 = slot := by omega
    exact ⟨slot / 1024, by omega, slot % 1024 / 64, by omega, slot % 1024 % 64,
      ⟨by omega, by rw [place]; exact set⟩, by omega, by rw [offset]⟩

theorem Inv.scanned (inv : Inv state) (given : (state.phases fiber).place = some (slot, true)) :
    ∃ read, (slot, some read) ∈ pushFiberRoots state ∧ read.root = state.roots fiber := by
  obtain ⟨has, read, _⟩ := inv.has given
  refine ⟨state.slots (slot / chunkSize) (slot % chunkSize), mem_pushFiberRoots.mpr ?_, read rfl⟩
  exact ⟨has.1, has.2, (if_pos (inv.published _ has.chunk_lt)).symm⟩

/-- A slot has one owner, whether its bit is set or not. -/
theorem Inv.owner_unique (inv : Inv state) (left : (state.phases fiber).place = some (slot, bit))
    (right : (state.phases other).place = some (slot, mark)) : fiber = other := by
  have here := inv.has left
  have there := inv.has right
  obtain rfl : bit = mark := here.1.2.symm.trans there.1.2
  cases bit with
  | true => exact inv.unique fiber other slot left right
  | false => exact Option.some.inj ((here.2.2 rfl).symm.trans (there.2.2 rfl))

/-- No slot is given to two fibers at once; a scan reads, for each fiber that is
registered, its entry and its stack, and for each slot it visits those of the owner of
the slot; and a registration finds a slot. -/
theorem fiber_roots_scanned (reachable : system.ReachableWith Fits state) :
    (∀ fiber other slot bit mark, (state.phases fiber).place = some (slot, bit) →
      (state.phases other).place = some (slot, mark) → fiber = other) ∧
    (∀ fiber slot, state.phases fiber = .registered slot →
      ∃ read, (slot, some read) ∈ pushFiberRoots state ∧ read.root = state.roots fiber) ∧
    (∀ slot read, (slot, read) ∈ pushFiberRoots state →
      ∃ fiber bit, (state.phases fiber).place = some (slot, bit) ∧
        read.map Slot.root = some (state.roots fiber)) ∧
    ∀ fiber, state.phases fiber ≠ .aborted := by
  have inv := inv_of_reachable reachable
  refine ⟨fun _ _ _ _ _ left right => inv.owner_unique left right, ?_, ?_, ?_⟩
  · intro fiber slot at_
    exact inv.scanned (by rw [at_]; rfl)
  · intro slot read visited
    obtain ⟨inside, set, rfl⟩ := mem_pushFiberRoots.mp visited
    obtain ⟨fiber, given⟩ := inv.owned slot set
    obtain ⟨read, found, same⟩ := inv.scanned given
    refine ⟨fiber, true, given, ?_⟩
    rw [← (mem_pushFiberRoots.mp found).2.2]
    exact congrArg some same
  · intro fiber at_
    have fine := inv.fine fiber
    rw [at_] at fine
    exact fine

/-- A fiber is registered and unregistered, and the next one takes its slot. -/
def reuseRun : List Label :=
  .register ⟨1, 2, 3⟩ :: List.replicate 9 (.registerNext 0 0) ++
    [.unregister 0, .clear 0, .register ⟨7, 8, 9⟩] ++ List.replicate 7 (.registerNext 1 0)

theorem reuseRun_scanned : ∃ state, system.runWith Fits {} reuseRun = some state ∧
    state.phases 1 = .registered 0 ∧
    ∃ read, (0, some read) ∈ pushFiberRoots state ∧ read.root = state.roots 1 :=
  ⟨_, rfl, rfl, (fiber_roots_scanned (.of_run system Fits reuseRun rfl rfl)).2.1 1 0 rfl⟩

end Libgoc.Gc.FiberRoots
