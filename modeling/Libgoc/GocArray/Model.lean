import Libgoc.Data.Segment
import Libgoc.Data.SizeT
import Libgoc.Semantics.Execution

namespace Libgoc.GocArray

open Libgoc.Data Libgoc.Semantics Function

/-! # Dynamic arrays (`src/goc_array.c`) -/

abbrev BufId := Nat
abbrev ArrId := Nat

inductive Fault where
  | abort
  | outOfBounds
deriving Repr, DecidableEq

structure Buffer (α : Type u) where
  size : Nat
  slots : Nat → α

structure Header where
  data : BufId
  head : Nat
  len : Nat
  cap : Nat
deriving Repr, DecidableEq

structure State (α : Type u) where
  buffers : BufId → Buffer α
  freshBuf : BufId
  arrays : ArrId → Option Header
  freshArr : ArrId

section

variable {α : Type u} [Inhabited α]

def initialState : State α where
  buffers := fun _ => { size := 0, slots := fun _ => default }
  freshBuf := 0
  arrays := fun _ => none
  freshArr := 0

/-- `goc_new_n(void*, n)`: the number of bytes is computed in `size_t`, and the
memory is zeroed. -/
def gocNewN (state : State α) (n : Nat) : State α × BufId :=
  ({ state with
      buffers := update state.buffers state.freshBuf
        { size := sizeT (n * 8) / 8, slots := fun _ => default }
      freshBuf := state.freshBuf + 1 }, state.freshBuf)

def newHeader (state : State α) (header : Header) : State α × ArrId :=
  ({ state with
      arrays := update state.arrays state.freshArr (some header)
      freshArr := state.freshArr + 1 }, state.freshArr)

def load (state : State α) (data : BufId) (index : Nat) : Except Fault α :=
  if index < (state.buffers data).size then .ok ((state.buffers data).slots index)
  else .error .outOfBounds

def store (state : State α) (data : BufId) (index : Nat) (val : α) : Except Fault (State α) :=
  let buffer := state.buffers data
  let slots := update buffer.slots index val
  if index < buffer.size then
    .ok { state with buffers := update state.buffers data ⟨buffer.size, slots⟩ }
  else .error .outOfBounds

/-- `memcpy` of `n * sizeof(void*)` bytes between different stores. -/
def memcpy (state : State α) (dest : BufId) (offset : Nat) (source : BufId) (start n : Nat) :
    Except Fault (State α) :=
  let count := sizeT (n * 8) / 8
  let buffer := state.buffers dest
  let other := state.buffers source
  let slots := fun index =>
    if offset ≤ index ∧ index < offset + count then other.slots (start + (index - offset))
    else buffer.slots index
  if offset + count ≤ buffer.size ∧ start + count ≤ other.size then
    .ok { state with buffers := update state.buffers dest ⟨buffer.size, slots⟩ }
  else .error .outOfBounds

/-- The guarded `memcpy` of all live elements of an array. -/
def copyLive (state : State α) (dest : BufId) (offset : Nat) (header : Header) :
    Except Fault (State α) :=
  if 0 < header.len then memcpy state dest offset header.data header.head header.len
  else .ok state

def setHeader (state : State α) (arr : ArrId) (header : Header) : State α :=
  { state with arrays := update state.arrays arr (some header) }

def arrayInitCap : Nat := 8

def arrayGrow (state : State α) (header : Header) (growForHead : Bool) :
    Except Fault (State α × Header) := do
  let newCap := if header.cap < arrayInitCap then arrayInitCap else sizeT (header.cap * 2)
  let (state, newData) := gocNewN state newCap
  let slack := subT newCap header.len
  let newHead := if growForHead then sizeT (slack * 3) / 4 else slack / 4
  let state ← copyLive state newData newHead header
  pure (state, { header with data := newData, head := newHead, cap := newCap })

def gocArrayMake (state : State α) (initialCap : Nat) : State α × ArrId :=
  let cap := if initialCap < arrayInitCap then arrayInitCap else initialCap
  let (state, data) := gocNewN state cap
  newHeader state { data, head := cap / 4, len := 0, cap }

/-- `goc_array_from` on a store that the caller provides. -/
def gocArrayFrom (state : State α) (items : BufId) (n : Nat) : State α × ArrId :=
  newHeader state { data := items, head := 0, len := n, cap := n }

def gocArrayCopy (state : State α) (header : Header) : Except Fault (State α × ArrId) := do
  if header.len = 0 then pure (gocArrayMake state 0)
  else
    let (state, buf) := gocNewN state header.len
    let state ← memcpy state buf 0 header.data header.head header.len
    pure (gocArrayFrom state buf header.len)

def gocArrayConcat (state : State α) (a b : Header) : Except Fault (State α × ArrId) := do
  let total := sizeT (a.len + b.len)
  let (state, out) := gocArrayMake state total
  match state.arrays out with
  | none => .error .abort
  | some header =>
    let state ← copyLive state header.data header.head a
    let state ← copyLive state header.data (header.head + a.len) b
    pure (setHeader state out { header with len := total }, out)

def gocArraySlice (state : State α) (header : Header) (start stop : Nat) :
    Except Fault (State α × ArrId) :=
  if start > stop ∨ stop > header.len then .error .abort
  else .ok (newHeader state
    { data := header.data, head := sizeT (header.head + start), len := stop - start
      cap := header.cap })

def gocArrayGet (state : State α) (header : Header) (i : Nat) : Except Fault α :=
  if i ≥ header.len then .error .abort
  else load state header.data (sizeT (header.head + i))

def gocArraySet (state : State α) (header : Header) (i : Nat) (val : α) : Except Fault (State α) :=
  if i ≥ header.len then .error .abort
  else store state header.data (sizeT (header.head + i)) val

def gocArrayPush (state : State α) (arr : ArrId) (header : Header) (val : α) :
    Except Fault (State α) := do
  let (state, header) ←
    (if sizeT (header.head + header.len) ≥ header.cap then arrayGrow state header false
    else .ok (state, header))
  let state ← store state header.data (sizeT (header.head + header.len)) val
  pure (setHeader state arr { header with len := sizeT (header.len + 1) })

def gocArrayPop (state : State α) (arr : ArrId) (header : Header) : Except Fault (State α × α) := do
  if header.len = 0 then .error .abort
  else
    let header := { header with len := header.len - 1 }
    let val ← load state header.data (sizeT (header.head + header.len))
    pure (setHeader state arr header, val)

def gocArrayPushHead (state : State α) (arr : ArrId) (header : Header) (val : α) :
    Except Fault (State α) := do
  let (state, header) ←
    (if header.head = 0 then arrayGrow state header true else .ok (state, header))
  let header := { header with head := subT header.head 1 }
  let state ← store state header.data header.head val
  pure (setHeader state arr { header with len := sizeT (header.len + 1) })

def gocArrayPopHead (state : State α) (arr : ArrId) (header : Header) :
    Except Fault (State α × α) := do
  if header.len = 0 then .error .abort
  else
    let val ← load state header.data header.head
    pure (setHeader state arr
      { header with head := sizeT (header.head + 1), len := header.len - 1 }, val)

end

inductive Op (α : Type u) where
  | get (i : Nat)
  | set (i : Nat) (val : α)
  | push (val : α)
  | pop
  | pushHead (val : α)
  | popHead
deriving Repr, DecidableEq

inductive Label (α : Type u) where
  | make (initialCap : Nat)
  | from (items : List α)
  | copy (arr : ArrId)
  | concat (a b : ArrId)
  | slice (arr : ArrId) (start stop : Nat)
  | op (arr : ArrId) (op : Op α)
deriving Repr, DecidableEq

section

variable {α : Type u} [Inhabited α]

def execOp (state : State α) (arr : ArrId) (header : Header) :
    Op α → Except Fault (State α × Option α)
  | .get i => do
      let val ← gocArrayGet state header i
      pure (state, some val)
  | .set i val => do
      let state ← gocArraySet state header i val
      pure (state, none)
  | .push val => do
      let state ← gocArrayPush state arr header val
      pure (state, none)
  | .pop => do
      let (state, val) ← gocArrayPop state arr header
      pure (state, some val)
  | .pushHead val => do
      let state ← gocArrayPushHead state arr header val
      pure (state, none)
  | .popHead => do
      let (state, val) ← gocArrayPopHead state arr header
      pure (state, some val)

/-- The store of a C array with these items. -/
def placeItems (state : State α) (items : List α) : State α × BufId :=
  ({ state with
      buffers := update state.buffers state.freshBuf
        { size := items.length, slots := fun index => items.getD index default }
      freshBuf := state.freshBuf + 1 }, state.freshBuf)

def exec (state : State α) : Label α → Option (Except Fault (State α × Option α))
  | .make initialCap =>
    if initialCap < 2 ^ 64 then
      some (.ok ((gocArrayMake state initialCap).1, none))
    else none
  | .from items =>
    if items.length * 8 < 2 ^ 64 then
      let (state, buf) := placeItems state items
      some (.ok ((gocArrayFrom state buf items.length).1, none))
    else none
  | .copy arr => (state.arrays arr).map fun header =>
    (gocArrayCopy state header).map fun made => (made.1, none)
  | .concat a b => (state.arrays a).bind fun first => (state.arrays b).map fun second =>
    (gocArrayConcat state first second).map fun made => (made.1, none)
  | .slice arr start stop => (state.arrays arr).map fun header =>
    (gocArraySlice state header start stop).map fun made => (made.1, none)
  | .op arr op => (state.arrays arr).map fun header => execOp state arr header op

def step (state : State α) (label : Label α) : Option (State α) :=
  match exec state label with
  | some (.ok (after, _)) => some after
  | _ => none

def system : System (State α) (Label α) where
  initial state := state = initialState
  step := step

def State.contents (state : State α) (header : Header) : List α :=
  segment (state.buffers header.data).slots header.head (header.head + header.len)

end

end Libgoc.GocArray
