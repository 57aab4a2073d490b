import Libgoc.GocArray.Model

namespace Libgoc.GocArray

open Libgoc.Data Libgoc.Semantics Function

/-! # Arrays as double-ended lists -/

/-- An operation on a double-ended list: the list after it and the value it
returns, or `none` where the operation is not defined. -/
def Op.apply (items : List α) : Op α → Option (List α × Option α)
  | .get i => items[i]?.map fun val => (items, some val)
  | .set i val => if i < items.length then some (items.set i val, none) else none
  | .push val => some (items ++ [val], none)
  | .pop => items.getLast?.map fun val => (items.dropLast, some val)
  | .pushHead val => some (val :: items, none)
  | .popHead => items.head?.map fun val => (items.tail, some val)

section

variable {α : Type u} {state after : State α} {header : Header} {arr : ArrId}
  {written : Option BufId}

/-- A header whose live elements are inside its capacity, and its capacity
inside a store that exists. -/
structure Header.Fits (header : Header) (state : State α) : Prop where
  live : header.head + header.len ≤ header.cap
  sized : header.cap ≤ (state.buffers header.data).size
  exists_ : header.data < state.freshBuf

structure Sound (state : State α) : Prop where
  arrays : ∀ arr header, state.arrays arr = some header → header.Fits state ∧ arr < state.freshArr
  bounded : ∀ buf, (state.buffers buf).size < 2 ^ 61

/-- Stores that existed keep their size, and all but `written` their slots. -/
structure Frame (written : Option BufId) (state after : State α) : Prop where
  grows : state.freshBuf ≤ after.freshBuf
  sizes : ∀ buf, buf < state.freshBuf → (after.buffers buf).size = (state.buffers buf).size
  others : ∀ buf, buf < state.freshBuf → written ≠ some buf →
    after.buffers buf = state.buffers buf
  bounded : ∀ buf, (after.buffers buf).size < 2 ^ 61

theorem Frame.fits (frame : Frame written state after) (fits : header.Fits state) :
    header.Fits after where
  live := fits.live
  sized := by
    rw [frame.sizes header.data fits.exists_]
    exact fits.sized
  exists_ := Nat.lt_of_lt_of_le fits.exists_ frame.grows

theorem Frame.contents (frame : Frame written state after) (fits : header.Fits state)
    (untouched : written ≠ some header.data) : after.contents header = state.contents header := by
  rw [State.contents, State.contents, frame.others header.data fits.exists_ untouched]

theorem Sound.header_lt (sound : Sound state) (found : state.arrays arr = some header) :
    header.cap < 2 ^ 61 :=
  Nat.lt_of_le_of_lt (sound.arrays arr header found).1.sized (sound.bounded header.data)

theorem sizeT_bytes (bound : n < 2 ^ 61) : sizeT (n * 8) / 8 = n := by
  simp only [sizeT]
  omega

/-- Copying the live elements of an array into another store. -/
theorem copyLive_eq
    (bounded : ∀ buf, (state.buffers buf).size < 2 ^ 61)
    (room : offset + header.len ≤ (state.buffers dest).size)
    (filled : header.head + header.len ≤ (state.buffers header.data).size) :
    copyLive state dest offset header = .ok { state with
      buffers := update state.buffers dest ⟨(state.buffers dest).size, fun index =>
        if offset ≤ index ∧ index < offset + header.len
        then (state.buffers header.data).slots (header.head + (index - offset))
        else (state.buffers dest).slots index⟩ } := by
  have capacity := bounded dest
  by_cases empty : 0 < header.len
  · have whole : sizeT (header.len * 8) / 8 = header.len := sizeT_bytes (by omega)
    simp only [copyLive, if_pos empty, memcpy, whole, if_pos (And.intro room filled)]
  · have none : header.len = 0 := by omega
    have never : ∀ index, ¬ (offset ≤ index ∧ index < offset) := by omega
    simp [copyLive, none, never]

theorem store_frame (bounded : ∀ buf, (state.buffers buf).size < 2 ^ 61)
    (stored : store state data index val = .ok after) : Frame (some data) state after := by
  simp only [store] at stored
  split at stored
  · cases stored
    have sizes : ∀ buf, (update state.buffers data
        ⟨(state.buffers data).size, update (state.buffers data).slots index val⟩ buf).size =
          (state.buffers buf).size := by
      intro buf
      by_cases same : buf = data
      · subst same
        simp
      · simp [same]
    constructor
    · exact Nat.le_refl _
    · exact fun buf _ => sizes buf
    · intro buf _ different
      exact update_of_ne (fun same => different (congrArg some same.symm)) _ _
    · intro buf
      rw [sizes buf]
      exact bounded buf
  · cases stored

variable [Inhabited α]

theorem gocNewN_frame (sound : Sound state) (n : Nat) : Frame none state (gocNewN state n).1 where
  grows := Nat.le_succ _
  sizes := fun buf old => by simp [gocNewN, Nat.ne_of_lt old]
  others := fun buf old _ => by simp [gocNewN, Nat.ne_of_lt old]
  bounded := fun buf => by
    by_cases fresh : buf = state.freshBuf
    · subst fresh
      simp only [gocNewN, update_self, sizeT]
      omega
    · simpa [gocNewN, fresh] using sound.bounded buf

/-- A store of `size` slots with the elements of an array from `place` on. -/
def relocated (state : State α) (header : Header) (size place : Nat) : State α :=
  { state with
    buffers := update state.buffers state.freshBuf ⟨size, fun index =>
      if place ≤ index ∧ index < place + header.len
      then (state.buffers header.data).slots (header.head + (index - place)) else default⟩
    freshBuf := state.freshBuf + 1 }

variable (header) in
theorem relocated_frame (sound : Sound state) (bound : size < 2 ^ 61)
    (place : Nat) : Frame none state (relocated state header size place) where
  grows := Nat.le_succ _
  sizes := fun buf old => by simp [relocated, Nat.ne_of_lt old]
  others := fun buf old _ => by simp [relocated, Nat.ne_of_lt old]
  bounded := fun buf => by
    by_cases fresh : buf = state.freshBuf
    · subst fresh
      simpa [relocated] using bound
    · simpa [relocated, fresh] using sound.bounded buf

theorem relocated_contents (header : Header) (size place cap : Nat) :
    (relocated state header size place).contents
      { header with data := state.freshBuf, head := place, cap := cap } =
      state.contents header := by
  apply segment_shift
  intro offset bound
  simp [relocated, bound]

theorem relocate (size place : Nat) (sound : Sound state) (fits : header.Fits state)
    (bound : size < 2 ^ 61) (room : place + header.len ≤ size) :
    copyLive (gocNewN state size).1 state.freshBuf place header =
      .ok (relocated state header size place) := by
  have old : header.data ≠ state.freshBuf := Nat.ne_of_lt fits.exists_
  rw [copyLive_eq (gocNewN_frame sound size).bounded]
  · simp [gocNewN, relocated, sizeT_bytes bound, old]
  · simpa [gocNewN, sizeT_bytes bound] using room
  · have source : (gocNewN state size).1.buffers header.data = state.buffers header.data := by
      simp [gocNewN, old]
    rw [source]
    exact Nat.le_trans fits.live fits.sized

theorem arrayGrow_eq (sound : Sound state) (fits : header.Fits state)
    (room : header.cap < 2 ^ 60) (growForHead : Bool) :
    ∃ size place, arrayGrow state header growForHead = .ok (relocated state header size place,
        { header with data := state.freshBuf, head := place, cap := size }) ∧
      size < 2 ^ 61 ∧ place + header.len ≤ size ∧
      (growForHead = false → place + header.len < size) ∧
      (growForHead = true → ¬ (header.cap < 8 ∧ header.len = 7) → 0 < place) := by
  have live := fits.live
  have capacity : (if header.cap < arrayInitCap then arrayInitCap else sizeT (header.cap * 2)) =
      if header.cap < 8 then 8 else header.cap * 2 := by
    rw [sizeT_of_lt (by omega)]
    rfl
  -- The new capacity leaves at least one slot, and at least eight after a doubling.
  obtain ⟨size, sized, bound, larger, doubled⟩ : ∃ size,
      size = (if header.cap < 8 then 8 else header.cap * 2) ∧ size < 2 ^ 61 ∧
      header.len < size ∧ (8 ≤ header.cap → header.len + 8 ≤ size) := by
    refine ⟨_, rfl, ?_, ?_, ?_⟩ <;> split <;> omega
  have slack : subT size header.len = size - header.len := subT_of_le (by omega)
  have product : sizeT ((size - header.len) * 3) = (size - header.len) * 3 :=
    sizeT_of_lt (by omega)
  refine ⟨size, if growForHead then (size - header.len) * 3 / 4 else (size - header.len) / 4,
    ?_, bound, ?_, ?_, ?_⟩
  · simp only [arrayGrow, capacity, ← sized, slack, product]
    have moved := relocate size (if growForHead then (size - header.len) * 3 / 4
      else (size - header.len) / 4) sound fits bound (by split <;> omega)
    simp only [gocNewN] at moved ⊢
    rw [moved]
    rfl
  · split <;> omega
  · rintro rfl
    simp only [Bool.false_eq_true, if_false]
    omega
  · rintro rfl
    simp only [if_true]
    split at sized <;> omega

def Performs (state : State α) (arr : ArrId) (written : Option BufId) (items : List α)
    (after : State α) : Prop :=
  ∃ header : Header, after.arrays = update state.arrays arr (some header) ∧
    after.freshArr = state.freshArr ∧ header.Fits after ∧ after.contents header = items ∧
    Frame written state after

/-- An operation that first moved the array to a new store. -/
theorem Performs.of_relocated {size place : Nat} {items : List α} (sound : Sound state)
    (bound : size < 2 ^ 61)
    (performed : Performs (relocated state header size place) arr (some state.freshBuf) items
      after) : Performs state arr written items after := by
  obtain ⟨moved, arrays, fresh, fits, contents, frame⟩ := performed
  have earlier := relocated_frame header sound bound place
  refine ⟨moved, arrays, fresh, fits, contents, ?_⟩
  constructor
  · exact Nat.le_trans earlier.grows frame.grows
  · intro buf old
    rw [frame.sizes buf (Nat.lt_of_lt_of_le old earlier.grows), earlier.sizes buf old]
  · intro buf old _
    have unwritten : some state.freshBuf ≠ some buf := by
      intro same
      cases same
      exact Nat.lt_irrefl _ old
    rw [frame.others buf (Nat.lt_of_lt_of_le old earlier.grows) unwritten,
      earlier.others buf old (by simp)]
  · exact frame.bounded

omit [Inhabited α] in
variable (arr) in
theorem store_performs (index : Nat) (val : α)
    (bounded : ∀ buf, (state.buffers buf).size < 2 ^ 61)
    (fits : header.Fits state) (within : index < header.cap) (live : head + len ≤ header.cap)
    (contents : segment (update (state.buffers header.data).slots index val)
      head (head + len) = items) :
    ∃ after, store state header.data index val = .ok after ∧
      Performs state arr (some header.data) items
        (setHeader after arr { header with head := head, len := len }) := by
  have inside : index < (state.buffers header.data).size :=
    Nat.lt_of_lt_of_le within fits.sized
  cases stored : store state header.data index val with
  | error fault => simp [store, inside] at stored
  | ok after =>
    have frame := store_frame bounded stored
    have kept := frame.fits fits
    simp only [store, inside, if_true, Except.ok.injEq] at stored
    refine ⟨after, rfl, { header with head := head, len := len }, ?_, ?_,
      ⟨live, kept.sized, kept.exists_⟩, ?_, ⟨frame.grows, frame.sizes, frame.others,
      frame.bounded⟩⟩
    · rw [← stored]
      rfl
    · rw [← stored]
      rfl
    · rw [← contents, ← stored]
      simp [State.contents, setHeader]

omit [Inhabited α] in
variable (arr) in
theorem append_performs (val : α) (bounded : ∀ buf, (state.buffers buf).size < 2 ^ 61)
    (fits : header.Fits state) (space : header.head + header.len < header.cap) :
    ∃ after, store state header.data (sizeT (header.head + header.len)) val = .ok after ∧
      Performs state arr (some header.data) (state.contents header ++ [val])
        (setHeader after arr { header with len := sizeT (header.len + 1) }) := by
  have capacity := bounded header.data
  have sized := fits.sized
  rw [sizeT_of_lt (by omega), sizeT_of_lt (by omega)]
  apply store_performs arr _ _ bounded fits space space
  rw [← Nat.add_assoc, segment_last (by omega), update_self, State.contents]
  congr 1
  apply segment_congr
  intro index _ below
  exact update_of_ne (by omega) _ _

omit [Inhabited α] in
variable (arr) in
theorem prepend_performs (val : α) (bounded : ∀ buf, (state.buffers buf).size < 2 ^ 61)
    (fits : header.Fits state) (space : 0 < header.head) :
    ∃ after, store state header.data (subT header.head 1) val = .ok after ∧
      Performs state arr (some header.data) (val :: state.contents header) (setHeader after arr
          { header with head := subT header.head 1, len := sizeT (header.len + 1) }) := by
  have capacity := bounded header.data
  have sized := fits.sized
  have live := fits.live
  rw [subT_of_le (by omega), sizeT_of_lt (by omega)]
  apply store_performs arr _ _ bounded fits (by omega) (by omega)
  have start : header.head - 1 + 1 = header.head := by omega
  have stop : header.head - 1 + (header.len + 1) = header.head + header.len := by omega
  rw [segment_first (by omega), update_self, State.contents, start, stop]
  congr 1
  apply segment_congr
  intro index above _
  exact update_of_ne (by omega) _ _

/-- Growing doubles the capacity in `size_t`. -/
def growable (header : Header) : Bool :=
  header.cap < 2 ^ 60

/-- The room that a call needs: a requested capacity that can be allocated, a
concatenation that fits in the smallest array, and for an insertion at the head
of a full seven-element array a spare slot. -/
def roomy (state : State α) : Label α → Bool
  | .make initialCap => initialCap < 2 ^ 61
  | .concat a b =>
    match state.arrays a, state.arrays b with
    | some first, some second => first.len + second.len < 7
    | _, _ => true
  | .op arr (.push _) =>
    (state.arrays arr).all fun header =>
      header.head + header.len < header.cap || growable header
  | .op arr (.pushHead _) =>
    (state.arrays arr).all fun header =>
      header.head ≠ 0 || growable header && !(header.cap < 8 && header.len == 7)
  | _ => true

theorem relocated_fits {size place : Nat} (inside : place + header.len ≤ size) :
    Header.Fits { header with data := state.freshBuf, head := place, cap := size }
      (relocated state header size place) where
  live := inside
  sized := by simp [relocated]
  exists_ := Nat.lt_succ_self _

theorem gocArrayPush_performs (sound : Sound state)
    (found : state.arrays arr = some header) (room : roomy state (.op arr (.push val)) = true) :
    ∃ after, gocArrayPush state arr header val = .ok after ∧
      Performs state arr (some header.data) (state.contents header ++ [val]) after := by
  have fits := (sound.arrays arr header found).1
  have live := fits.live
  have small := sound.header_lt found
  have position : sizeT (header.head + header.len) = header.head + header.len :=
    sizeT_of_lt (by omega)
  simp only [roomy, found, Option.all_some, growable, Bool.or_eq_true, decide_eq_true_eq] at room
  by_cases space : header.head + header.len < header.cap
  · obtain ⟨after, stored, performed⟩ := append_performs arr val
      sound.bounded fits space
    refine ⟨_, ?_, performed⟩
    rw [gocArrayPush, if_neg (by omega)]
    simp only [bind, Except.bind, stored, pure, Except.pure]
  · obtain ⟨size, place, grown, bound, inside, spare, -⟩ :=
      arrayGrow_eq sound fits (by omega) false
    obtain ⟨after, stored, performed⟩ := append_performs arr val
      (relocated_frame header sound bound place).bounded
      (relocated_fits inside) (spare rfl)
    rw [relocated_contents] at performed
    refine ⟨_, ?_, performed.of_relocated sound bound⟩
    rw [gocArrayPush, if_pos (by omega)]
    simp only [bind, Except.bind, grown, stored, pure, Except.pure]

theorem gocArrayPushHead_performs (sound : Sound state) (found : state.arrays arr = some header)
    (room : roomy state (.op arr (.pushHead val)) = true) :
    ∃ after, gocArrayPushHead state arr header val = .ok after ∧
      Performs state arr (some header.data) (val :: state.contents header) after := by
  have fits := (sound.arrays arr header found).1
  simp only [roomy, found, Option.all_some, growable, Bool.or_eq_true, decide_eq_true_eq,
    Bool.and_eq_true, Bool.not_eq_true', Bool.and_eq_false_iff, decide_eq_false_iff_not,
    beq_eq_false_iff_ne] at room
  by_cases space : header.head = 0
  · obtain ⟨size, place, grown, bound, inside, -, spare⟩ :=
      arrayGrow_eq sound fits (by omega) true
    obtain ⟨after, stored, performed⟩ := prepend_performs arr val
      (relocated_frame header sound bound place).bounded
      (relocated_fits inside) (spare rfl (by omega))
    rw [relocated_contents] at performed
    refine ⟨_, ?_, performed.of_relocated sound bound⟩
    rw [gocArrayPushHead, if_pos space]
    simp only [bind, Except.bind, grown, stored, pure, Except.pure]
  · obtain ⟨after, stored, performed⟩ := prepend_performs arr val
      sound.bounded fits (by omega)
    refine ⟨_, ?_, performed⟩
    rw [gocArrayPushHead, if_neg space]
    simp only [bind, Except.bind, stored, pure, Except.pure]

omit [Inhabited α] in
/-- A header with the same store and capacity whose elements stay inside. -/
theorem setHeader_performs (sound : Sound state)
    (fits : header.Fits state) (live : head + len ≤ header.cap)
    (contents : segment (state.buffers header.data).slots head (head + len) = items) :
    Performs state arr none items (setHeader state arr { header with head := head, len := len }) :=
  ⟨_, rfl, rfl, ⟨live, fits.sized, fits.exists_⟩, contents,
    ⟨Nat.le_refl _, fun _ _ => rfl, fun _ _ _ => rfl, sound.bounded⟩⟩

omit [Inhabited α] in
theorem setHeader_self (found : state.arrays arr = some header) :
    setHeader state arr header = state := by
  rw [setHeader, ← found, update_eq_self]

omit [Inhabited α] in
theorem store_arrays
    (stored : store state data index val = .ok after) : after.arrays = state.arrays := by
  simp only [store] at stored
  split at stored
  · cases stored
    rfl
  · cases stored

omit [Inhabited α] in
theorem load_eq (index : Nat) (fits : header.Fits state) (within : index < header.cap) :
    load state header.data index = .ok ((state.buffers header.data).slots index) :=
  if_pos (Nat.lt_of_lt_of_le within fits.sized)

omit [Inhabited α] in
theorem Performs.unchanged (sound : Sound state) (found : state.arrays arr = some header) :
    Performs state arr none (state.contents header) state :=
  ⟨header, by rw [← found, update_eq_self], rfl, (sound.arrays arr header found).1, rfl,
    ⟨Nat.le_refl _, fun _ _ => rfl, fun _ _ _ => rfl, sound.bounded⟩⟩

omit [Inhabited α] in
@[simp]
theorem contents_length (state : State α) (header : Header) :
    (state.contents header).length = header.len := by
  simp [State.contents]

def Op.writes (header : Header) : Op α → Option BufId
  | .set _ _ | .push _ | .pushHead _ => some header.data
  | .get _ | .pop | .popHead => none

/-- A call does what the operation does on the double-ended list, and aborts
where that is not defined. -/
def Refines (state : State α) (arr : ArrId) (header : Header) (op : Op α) : Prop :=
  (op.apply (state.contents header) = none ∧ execOp state arr header op = .error .abort) ∨
    ∃ items result after, op.apply (state.contents header) = some (items, result) ∧
      execOp state arr header op = .ok (after, result) ∧
      Performs state arr (op.writes header) items after

section

variable (sound : Sound state) (found : state.arrays arr = some header)
include sound found

theorem get_refines (i : Nat) :
    Refines state arr header (.get i) := by
  have fits := (sound.arrays arr header found).1
  have live := fits.live
  have small := sound.header_lt found
  by_cases bound : i < header.len
  · right
    have position : sizeT (header.head + i) = header.head + i := sizeT_of_lt (by omega)
    have loaded := load_eq (header.head + i) fits (by omega)
    refine ⟨state.contents header, some ((state.buffers header.data).slots (header.head + i)),
      state, ?_, ?_, .unchanged sound found⟩
    · rw [Op.apply, State.contents, segment_getElem? (by omega)]
      rfl
    · simp only [execOp, gocArrayGet, if_neg (Nat.not_le.mpr bound), position, loaded, bind,
        Except.bind, pure, Except.pure]
  · left
    constructor
    · simp [Op.apply, Nat.not_lt.mp bound]
    · simp only [execOp, gocArrayGet, if_pos (Nat.not_lt.mp bound), bind, Except.bind]

theorem set_refines (i : Nat) (val : α) : Refines state arr header (.set i val) := by
  have fits := (sound.arrays arr header found).1
  have live := fits.live
  have small := sound.header_lt found
  by_cases bound : i < header.len
  · right
    have position : sizeT (header.head + i) = header.head + i := sizeT_of_lt (by omega)
    obtain ⟨after, stored, performed⟩ := store_performs arr (header.head + i) val
      sound.bounded fits (by omega) live (segment_update (by omega))
    rw [setHeader_self (by rw [store_arrays stored, found])] at performed
    refine ⟨(state.contents header).set i val, none, after, ?_, ?_, performed⟩
    · simp [Op.apply, bound]
    · simp only [execOp, gocArraySet, if_neg (Nat.not_le.mpr bound), position, stored, bind,
        Except.bind, pure, Except.pure]
  · left
    constructor
    · simp [Op.apply, bound]
    · simp only [execOp, gocArraySet, if_pos (Nat.not_lt.mp bound), bind, Except.bind]

theorem pop_refines :
    Refines state arr header .pop := by
  have fits := (sound.arrays arr header found).1
  have live := fits.live
  have small := sound.header_lt found
  by_cases empty : header.len = 0
  · left
    constructor
    · simp [Op.apply, ← List.length_eq_zero_iff, empty]
    · simp only [execOp, gocArrayPop, if_pos empty, bind, Except.bind]
  · right
    have position : sizeT (header.head + (header.len - 1)) = header.head + (header.len - 1) :=
      sizeT_of_lt (by omega)
    have loaded := load_eq (header.head + (header.len - 1)) fits (by omega)
    have last : state.contents header =
        segment (state.buffers header.data).slots header.head (header.head + (header.len - 1)) ++
          [(state.buffers header.data).slots (header.head + (header.len - 1))] := by
      rw [← segment_last (by omega), State.contents]
      congr 1
      omega
    refine ⟨segment (state.buffers header.data).slots header.head (header.head + (header.len - 1)),
      some ((state.buffers header.data).slots (header.head + (header.len - 1))), _, ?_, ?_,
      setHeader_performs sound fits (by omega) rfl⟩
    · simp [last, Op.apply]
    · simp only [execOp, gocArrayPop, if_neg empty, position, loaded, bind, Except.bind, pure,
        Except.pure]

theorem popHead_refines :
    Refines state arr header .popHead := by
  have fits := (sound.arrays arr header found).1
  have live := fits.live
  have small := sound.header_lt found
  by_cases empty : header.len = 0
  · left
    constructor
    · simp [Op.apply, ← List.length_eq_zero_iff, empty]
    · simp only [execOp, gocArrayPopHead, if_pos empty, bind, Except.bind]
  · right
    have position : sizeT (header.head + 1) = header.head + 1 := sizeT_of_lt (by omega)
    have loaded := load_eq header.head fits (by omega)
    have first : state.contents header = (state.buffers header.data).slots header.head ::
        segment (state.buffers header.data).slots (header.head + 1)
          (header.head + 1 + (header.len - 1)) := by
      rw [State.contents, segment_first (by omega)]
      congr 2
      omega
    refine ⟨segment (state.buffers header.data).slots (header.head + 1)
        (header.head + 1 + (header.len - 1)),
      some ((state.buffers header.data).slots header.head), _, ?_, ?_,
      setHeader_performs sound fits (by omega) rfl⟩
    · simp [first, Op.apply]
    · simp only [execOp, gocArrayPopHead, if_neg empty, position, loaded, bind, Except.bind,
        pure, Except.pure]

theorem execOp_refines
    (op : Op α) (room : roomy state (.op arr op) = true) : Refines state arr header op := by
  cases op with
  | get i => exact get_refines sound found i
  | set i val => exact set_refines sound found i val
  | push val =>
    obtain ⟨after, pushed, performed⟩ := gocArrayPush_performs sound found room
    refine .inr ⟨_, none, after, rfl, ?_, performed⟩
    simp only [execOp, pushed, bind, Except.bind, pure, Except.pure]
  | pop => exact pop_refines sound found
  | pushHead val =>
    obtain ⟨after, pushed, performed⟩ := gocArrayPushHead_performs sound found room
    refine .inr ⟨_, none, after, rfl, ?_, performed⟩
    simp only [execOp, pushed, bind, Except.bind, pure, Except.pure]
  | popHead => exact popHead_refines sound found

end

/-- A new array holds `items`, and no store that existed was changed. -/
def Creates (state : State α) (items : List α) (after : State α) : Prop :=
  ∃ header : Header, after.arrays = update state.arrays state.freshArr (some header) ∧
    after.freshArr = state.freshArr + 1 ∧ header.Fits after ∧ after.contents header = items ∧
    Frame none state after

omit [Inhabited α] in
theorem newHeader_creates (frame : Frame none state made)
    (arrays : made.arrays = state.arrays) (fresh : made.freshArr = state.freshArr)
    (fits : header.Fits made) (contents : made.contents header = items) :
    Creates state items (newHeader made header).1 := by
  refine ⟨header, ?_, ?_, ⟨fits.live, fits.sized, fits.exists_⟩, contents,
    ⟨frame.grows, frame.sizes, frame.others, frame.bounded⟩⟩
  · simp only [newHeader, arrays, fresh]
  · simp only [newHeader, fresh]

theorem gocArrayMake_creates (sound : Sound state) (bound : initialCap < 2 ^ 61) :
    Creates state [] (gocArrayMake state initialCap).1 := by
  obtain ⟨cap, capacity, small⟩ : ∃ cap,
      cap = (if initialCap < arrayInitCap then arrayInitCap else initialCap) ∧
      cap < 2 ^ 61 := by
    refine ⟨_, rfl, ?_⟩
    unfold arrayInitCap
    split <;> omega
  simp only [gocArrayMake, ← capacity]
  apply newHeader_creates (gocNewN_frame sound cap) rfl rfl
  · refine ⟨Nat.div_le_self _ _, ?_, Nat.lt_succ_self _⟩
    simp [gocNewN, sizeT_bytes small]
  · exact segment_empty (Nat.le_refl _)

theorem placeItems_frame (sound : Sound state) (bound : items.length * 8 < 2 ^ 64) :
    Frame none state (placeItems state items).1 where
  grows := Nat.le_succ _
  sizes := fun buf old => by simp [placeItems, Nat.ne_of_lt old]
  others := fun buf old _ => by simp [placeItems, Nat.ne_of_lt old]
  bounded := fun buf => by
    by_cases fresh : buf = state.freshBuf
    · subst fresh
      simp only [placeItems, update_self]
      omega
    · simpa [placeItems, fresh] using sound.bounded buf

theorem gocArrayFrom_creates (sound : Sound state)
    (bound : items.length * 8 < 2 ^ 64) :
    Creates state items
      (gocArrayFrom (placeItems state items).1 state.freshBuf items.length).1 := by
  apply newHeader_creates (placeItems_frame sound bound) rfl rfl
  · exact ⟨by simp, by simp [placeItems], Nat.lt_succ_self _⟩
  · apply List.ext_getElem?
    intro index
    by_cases within : index < items.length
    · rw [State.contents, segment_getElem? (by simpa using within)]
      simp [placeItems, within]
    · rw [List.getElem?_eq_none (by simpa using within),
        List.getElem?_eq_none (by simpa using within)]

theorem gocArrayCopy_creates (sound : Sound state) (found : state.arrays arr = some header) :
    ∃ made, gocArrayCopy state header = .ok made ∧
      Creates state (state.contents header) made.1 := by
  have fits := (sound.arrays arr header found).1
  have live := fits.live
  have small := sound.header_lt found
  by_cases empty : header.len = 0
  · refine ⟨gocArrayMake state 0, ?_, ?_⟩
    · simp [gocArrayCopy, empty, pure, Except.pure]
    · have nothing : state.contents header = [] := segment_empty (by omega)
      rw [nothing]
      exact gocArrayMake_creates sound (by omega)
  · have copied := relocate header.len 0 sound fits (by omega) (by omega)
    rw [copyLive, if_pos (by omega)] at copied
    refine ⟨gocArrayFrom (relocated state header header.len 0) state.freshBuf header.len, ?_, ?_⟩
    · simp only [gocArrayCopy, if_neg empty]
      simp only [gocNewN] at copied ⊢
      simp only [copied, bind, Except.bind, pure, Except.pure]
    · apply newHeader_creates (relocated_frame header sound (by omega) 0) rfl rfl
      · exact relocated_fits (by omega)
      · exact relocated_contents header header.len 0 header.len

omit [Inhabited α] in
theorem gocArraySlice_creates (sound : Sound state) (found : state.arrays arr = some header)
    (ordered : start ≤ stop) (within : stop ≤ header.len) :
    ∃ made, gocArraySlice state header start stop = .ok made ∧
      Creates state (((state.contents header).take stop).drop start) made.1 := by
  have fits := (sound.arrays arr header found).1
  have live := fits.live
  have small := sound.header_lt found
  have position : sizeT (header.head + start) = header.head + start := sizeT_of_lt (by omega)
  have valid : ¬ (start > stop ∨ stop > header.len) := by omega
  simp only [gocArraySlice, if_neg valid, position]
  refine ⟨_, rfl, ?_⟩
  apply newHeader_creates ⟨Nat.le_refl _, fun _ _ => rfl, fun _ _ _ => rfl, sound.bounded⟩ rfl rfl
  · refine ⟨?_, fits.sized, fits.exists_⟩
    simp only
    omega
  · apply List.ext_getElem?
    intro index
    by_cases inside : start + index < stop
    · rw [State.contents, segment_getElem? (by simp only; omega), List.getElem?_drop,
        List.getElem?_take_of_lt inside, State.contents, segment_getElem? (by omega),
        Nat.add_assoc]
    · rw [List.getElem?_eq_none (by simp; omega), List.getElem?_eq_none (by simp; omega)]

structure Copied (state after : State α) (dest : BufId) (offset : Nat) (header : Header) :
    Prop where
  arrays : after.arrays = state.arrays
  freshArr : after.freshArr = state.freshArr
  freshBuf : after.freshBuf = state.freshBuf
  others : ∀ buf, buf ≠ dest → after.buffers buf = state.buffers buf
  size : (after.buffers dest).size = (state.buffers dest).size
  placed : segment (after.buffers dest).slots offset (offset + header.len) = state.contents header
  outside : ∀ index, index < offset → (after.buffers dest).slots index =
    (state.buffers dest).slots index

omit [Inhabited α] in
theorem copyLive_copied (state : State α) (dest : BufId) (offset : Nat) (header : Header)
    (bounded : ∀ buf, (state.buffers buf).size < 2 ^ 61)
    (room : offset + header.len ≤ (state.buffers dest).size)
    (filled : header.head + header.len ≤ (state.buffers header.data).size) :
    ∃ after, copyLive state dest offset header = .ok after ∧
      Copied state after dest offset header := by
  rw [copyLive_eq bounded room filled]
  refine ⟨_, rfl, rfl, rfl, rfl, ?_, ?_, ?_, ?_⟩
  · intro buf different
    exact update_of_ne different _ _
  · simp
  · apply segment_shift
    intro index bound
    simp [bound]
  · intro index before
    simp [Nat.not_le.mpr before]

omit [Inhabited α] in
theorem Copied.bounded (copied : Copied state after dest offset header)
    (bounded : ∀ buf, (state.buffers buf).size < 2 ^ 61) (buf : BufId) :
    (after.buffers buf).size < 2 ^ 61 := by
  by_cases same : buf = dest
  · subst same
    rw [copied.size]
    exact bounded buf
  · rw [copied.others buf same]
    exact bounded buf

/-- The elements of both arrays fit behind the head room of the new array only
if there are fewer than seven of them. -/
theorem gocArrayConcat_creates (sound : Sound state)
    (left : state.arrays arr = some first) (right : state.arrays other = some second)
    (few : first.len + second.len < 7) :
    ∃ made, gocArrayConcat state first second = .ok made ∧
      Creates state (state.contents first ++ state.contents second) made.1 := by
  have firstFits := (sound.arrays arr first left).1
  have secondFits := (sound.arrays other second right).1
  have firstOld : first.data ≠ state.freshBuf := Nat.ne_of_lt firstFits.exists_
  have secondOld : second.data ≠ state.freshBuf := Nat.ne_of_lt secondFits.exists_
  have total : sizeT (first.len + second.len) = first.len + second.len := sizeT_of_lt (by omega)
  obtain ⟨made, making⟩ : ∃ made, made = (gocArrayMake state (first.len + second.len)).1 :=
    ⟨_, rfl⟩
  have small : first.len + second.len < arrayInitCap := by
    unfold arrayInitCap
    omega
  have shape : gocArrayMake state (first.len + second.len) =
      newHeader (gocNewN state 8).1 { data := state.freshBuf, head := 2, len := 0, cap := 8 } := by
    rw [gocArrayMake, if_pos small]
    rfl
  rw [shape] at making
  have frame := gocNewN_frame sound 8
  have kept : ∀ buf, buf ≠ state.freshBuf → made.buffers buf = state.buffers buf := by
    intro buf old
    simp [making, newHeader, gocNewN, old]
  have size : (made.buffers state.freshBuf).size = 8 := by
    simp [making, newHeader, gocNewN, sizeT]
  have bounded : ∀ buf, (made.buffers buf).size < 2 ^ 61 := by
    rw [making]
    exact frame.bounded
  obtain ⟨middle, copying, copied⟩ := copyLive_copied made state.freshBuf 2 first bounded (by omega)
    (by rw [kept first.data firstOld]; exact Nat.le_trans firstFits.live firstFits.sized)
  obtain ⟨after, appending, appended⟩ := copyLive_copied middle state.freshBuf
    (2 + first.len) second (copied.bounded bounded)
    (by rw [copied.size]; omega)
    (by
      rw [copied.others second.data secondOld, kept second.data secondOld]
      exact Nat.le_trans secondFits.live secondFits.sized)
  have present : made.arrays state.freshArr =
      some { data := state.freshBuf, head := 2, len := 0, cap := 8 } := by
    simp [making, newHeader, gocNewN]
  refine ⟨(setHeader after state.freshArr
    { data := state.freshBuf, head := 2, len := first.len + second.len, cap := 8 },
      state.freshArr), ?_, ?_⟩
  · have created : newHeader (gocNewN state 8).1
        { data := state.freshBuf, head := 2, len := 0, cap := 8 } = (made, state.freshArr) := by
      rw [making]
      rfl
    simp only [gocArrayConcat, total, shape, created, present, copying, appending, bind,
      Except.bind, pure, Except.pure]
  · refine ⟨{ data := state.freshBuf, head := 2, len := first.len + second.len, cap := 8 },
      ?_, ?_, ⟨?_, ?_, ?_⟩, ?_, ?_⟩
    · simp [setHeader, appended.arrays, copied.arrays, making, newHeader, gocNewN]
    · simp [setHeader, appended.freshArr, copied.freshArr, making, newHeader, gocNewN]
    · simp only
      omega
    · simp [setHeader, appended.size, copied.size, size]
    · simp [setHeader, appended.freshBuf, copied.freshBuf, making, newHeader, gocNewN]
    · have front : segment (after.buffers state.freshBuf).slots 2 (2 + first.len) =
          state.contents first := by
        rw [segment_congr fun index _ below => appended.outside index below, copied.placed,
          State.contents, kept first.data firstOld, State.contents]
      have back : segment (after.buffers state.freshBuf).slots (2 + first.len)
          (2 + first.len + second.len) = state.contents second := by
        rw [appended.placed, State.contents, copied.others second.data secondOld,
          kept second.data secondOld, State.contents]
      rw [← front, ← back, segment_append (by omega) (by omega), State.contents, Nat.add_assoc]
      rfl
    · have unchanged : ∀ buf, buf ≠ state.freshBuf → after.buffers buf = state.buffers buf := by
        intro buf old
        rw [appended.others buf old, copied.others buf old, kept buf old]
      constructor
      · simp [setHeader, appended.freshBuf, copied.freshBuf, making, newHeader, gocNewN]
      · exact fun buf old => congrArg Buffer.size (unchanged buf (Nat.ne_of_lt old))
      · exact fun buf old _ => unchanged buf (Nat.ne_of_lt old)
      · exact appended.bounded (copied.bounded bounded)

/-- The new array has this capacity. -/
def Allots (state : State α) (made : State α × ArrId) (cap : Nat) : Prop :=
  made.2 = state.freshArr ∧ ∃ header, made.1.arrays state.freshArr = some header ∧ header.cap = cap

omit [Inhabited α] in
theorem newHeader_allots (fresh : made.freshArr = state.freshArr) :
    Allots state (newHeader made header) header.cap := by
  refine ⟨fresh, header, ?_, rfl⟩
  rw [← fresh]
  exact update_self ..

omit [Inhabited α] in
theorem memcpy_freshArr (copied : memcpy state dest offset source start n = .ok after) :
    after.freshArr = state.freshArr := by
  simp only [memcpy] at copied
  split at copied
  · cases copied
    rfl
  · cases copied

theorem ok_of_bind {next : β → Except Fault γ} (bound : first >>= next = .ok result) :
    ∃ value, first = .ok value ∧ next value = .ok result := by
  cases first with
  | error fault => cases bound
  | ok value => exact ⟨value, rfl, bound⟩

theorem gocArrayCopy_allots (copied : gocArrayCopy state header = .ok made) :
    Allots state made (if header.len = 0 then arrayInitCap else header.len) := by
  unfold gocArrayCopy at copied
  split at copied
  next empty =>
    cases copied
    rw [if_pos empty]
    exact newHeader_allots rfl
  next nonempty =>
    rw [if_neg nonempty]
    obtain ⟨after, copying, result⟩ := ok_of_bind copied
    cases result
    have fresh := memcpy_freshArr copying
    exact newHeader_allots fresh

theorem gocArrayConcat_allots {made : State α × ArrId}
    (joined : gocArrayConcat state first second = .ok made)
    (few : sizeT (first.len + second.len) < arrayInitCap) : Allots state made arrayInitCap := by
  have present : (gocArrayMake state (sizeT (first.len + second.len))).1.arrays state.freshArr =
      some ⟨state.freshBuf, arrayInitCap / 4, 0, arrayInitCap⟩ := by
    simp [gocArrayMake, newHeader, gocNewN, few]
  have fresh : (gocArrayMake state (sizeT (first.len + second.len))).2 = state.freshArr := rfl
  unfold gocArrayConcat at joined
  simp only [fresh, present] at joined
  obtain ⟨middle, _, joined⟩ := ok_of_bind joined
  obtain ⟨last, _, joined⟩ := ok_of_bind joined
  cases joined
  exact ⟨rfl, _, update_self .., rfl⟩

end

end Libgoc.GocArray
