import Libgoc.Semantics.Execution
import Libgoc.Data.Segment

namespace Libgoc.Wsdq

open Libgoc.Data Libgoc.Semantics Function

/-! # The work-stealing deque -/

abbrev ThiefId := Nat
abbrev BufId := Nat

def sizeRange : Nat := 2 ^ 64

structure Item where
  push : Nat
  entry : Nat
deriving Repr, DecidableEq

/-- The memory of a buffer; `none` is what `GC_malloc_uncollectable` leaves. -/
abbrev Slots := Nat → Option Item

inductive OwnerPc where
  | idle
  | pushTop (item : Item) (b : Nat)
  | pushBuf (item : Item) (b t : Nat)
  | grow (item : Item) (b t : Nat) (buf : BufId) (cap : Nat)
  | growLock (item : Item) (b : Nat) (buf newBuf : BufId) (newCap : Nat)
  | growSwap (item : Item) (b : Nat) (buf newBuf : BufId) (newCap : Nat)
  | growUnlock (item : Item) (b : Nat) (buf newBuf : BufId) (newCap : Nat)
  | growFree (item : Item) (b : Nat) (buf newBuf : BufId) (newCap : Nat)
  | pushSlot (item : Item) (b : Nat) (buf : BufId) (cap : Nat)
  | pushBottom (item : Item) (b : Nat)
  | popBuf (oldB : Nat)
  | popTop (oldB : Nat) (buf : BufId) (cap : Nat)
  | popRestore (restoreB : Nat)
  | popSlot (oldB t : Nat) (buf : BufId) (cap : Nat)
  | popCas (entry : Option Item) (t : Nat)
  | popLost (t : Nat)
  | popWon (entry : Option Item) (t : Nat)
deriving Repr, DecidableEq

/-- What a thief does next; it holds `steal_lock` unless it is idle. -/
inductive ThiefPc where
  | idle
  | loadTop
  | loadBottom (t : Nat)
  | loadBuf (t : Nat)
  | readSlot (t : Nat) (buf : BufId) (cap : Nat)
  | cas (t : Nat) (entry : Option Item)
  | unlock (result : Option Item)
deriving Repr, DecidableEq

inductive Thread where
  | owner
  | thief (thief : ThiefId)
deriving Repr, DecidableEq

/-- The deque and its threads.  `pushed` and `returned` list what the calls were
given and what they returned. -/
structure State where
  top : Nat
  bottom : Nat
  buf : BufId
  capacity : Nat
  heap : BufId → Slots
  fresh : BufId
  stealLock : Option Thread
  owner : OwnerPc
  thieves : ThiefId → ThiefPc
  pushed : List Item
  returned : List Item

def wsdqInit (cap : Nat) : Option State :=
  if 0 < cap ∧ cap &&& (cap - 1) = 0 ∧ cap < sizeRange then
    some {
      top := 0
      bottom := 0
      buf := 0
      capacity := cap
      heap := fun _ _ => none
      fresh := 1
      stealLock := none
      owner := .idle
      thieves := fun _ => .idle
      pushed := []
      returned := [] }
  else none

/-- The loop that copies the slots from `i` on into the new buffer. -/
def copySlots (old : Slots) (cap newCap : Nat) : Nat → Nat → Slots → Slots
  | _, 0, new => new
  | i, count + 1, new =>
    copySlots old cap newCap (i + 1) count (update new (i % newCap) (old (i % cap)))

/-- The owner calls `wsdq_push_bottom` and loads `bottom`. -/
def wsdqPushBottom (state : State) (entry : Nat) : Option State :=
  let item : Item := { push := state.pushed.length, entry }
  match state.owner with
  | .idle => some { state with
      owner := .pushTop item state.bottom, pushed := state.pushed ++ [item] }
  | _ => none

def wsdqPopBottom (state : State) : Option State :=
  match state.owner with
  | .idle => some { state with
      owner := .popBuf state.bottom
      bottom := (state.bottom + (sizeRange - 1)) % sizeRange }
  | _ => none

def ownerStep (state : State) : Option State :=
  match state.owner with
  | .idle => none
  | .pushTop item b => some { state with owner := .pushBuf item b state.top }
  | .pushBuf item b t =>
    let b := if b < t then t else b
    let size := if b ≥ t then b - t else 0
    some { state with
      owner :=
        if size ≥ state.capacity then .grow item b t state.buf state.capacity
        else .pushSlot item b state.buf state.capacity }
  | .grow item b t buf cap =>
    let newCap := cap * 2 % sizeRange
    let copied := copySlots (state.heap buf) cap newCap t (b - t) fun _ => none
    some { state with
      heap := update state.heap state.fresh copied
      fresh := state.fresh + 1
      owner := .growLock item b buf state.fresh newCap }
  | .growLock item b buf newBuf newCap =>
    match state.stealLock with
    | none => some { state with
        stealLock := some .owner, owner := .growSwap item b buf newBuf newCap }
    | some _ => none
  | .growSwap item b buf newBuf newCap => some { state with
      buf := newBuf, capacity := newCap, owner := .growUnlock item b buf newBuf newCap }
  | .growUnlock item b buf newBuf newCap => some { state with
      stealLock := none, owner := .growFree item b buf newBuf newCap }
  | .growFree item b buf newBuf newCap => some { state with
      heap := update state.heap buf fun _ => none
      owner := .pushSlot item b newBuf newCap }
  | .pushSlot item b buf cap => some { state with
      heap := update state.heap buf
        (update (state.heap buf) (b % cap) (some item))
      owner := .pushBottom item b }
  | .pushBottom _ b => some { state with bottom := (b + 1) % sizeRange, owner := .idle }
  | .popBuf oldB => some { state with owner := .popTop oldB state.buf state.capacity }
  | .popTop oldB buf cap =>
    let t := state.top
    some { state with
      owner :=
        if oldB ≤ t then .popRestore (if oldB < t then t else oldB)
        else .popSlot oldB t buf cap }
  | .popRestore restoreB => some { state with bottom := restoreB, owner := .idle }
  | .popSlot oldB t buf cap =>
    let newB := oldB - 1
    let entry := state.heap buf (newB % cap)
    if newB > t then
      some { state with owner := .idle, returned := state.returned ++ entry.toList }
    else some { state with owner := .popCas entry t }
  | .popCas entry t =>
    if state.top = t then
      some { state with top := (t + 1) % sizeRange, owner := .popWon entry t }
    else some { state with owner := .popLost t }
  | .popLost t => some { state with bottom := (t + 1) % sizeRange, owner := .idle }
  | .popWon entry t => some { state with
      bottom := (t + 1) % sizeRange
      owner := .idle
      returned := state.returned ++ entry.toList }

def setThief (state : State) (thief : ThiefId) (pc : ThiefPc) : State :=
  { state with thieves := update state.thieves thief pc }

def wsdqStealTop (state : State) (thief : ThiefId) : Option State :=
  match state.thieves thief, state.stealLock with
  | .idle, none => some { setThief state thief .loadTop with stealLock := some (.thief thief) }
  | _, _ => none

def thiefStep (state : State) (thief : ThiefId) : Option State :=
  match state.thieves thief with
  | .idle => none
  | .loadTop => some (setThief state thief (.loadBottom state.top))
  | .loadBottom t => some (setThief state thief
      (if t ≥ state.bottom then .unlock none else .loadBuf t))
  | .loadBuf t => some (setThief state thief (.readSlot t state.buf state.capacity))
  | .readSlot t buf cap => some (setThief state thief (.cas t (state.heap buf (t % cap))))
  | .cas t entry =>
    if state.top = t then
      some { setThief state thief (.unlock entry) with top := (t + 1) % sizeRange }
    else some (setThief state thief (.unlock none))
  | .unlock result => some { setThief state thief .idle with
      stealLock := none, returned := state.returned ++ result.toList }

inductive Label where
  | push (entry : Nat)
  | pop
  | owner
  | steal (thief : ThiefId)
  | thief (thief : ThiefId)
deriving Repr, DecidableEq

def step (state : State) : Label → Option State
  | .push entry => wsdqPushBottom state entry
  | .pop => wsdqPopBottom state
  | .owner => ownerStep state
  | .steal thief => wsdqStealTop state thief
  | .thief thief => thiefStep state thief

def system : System State Label where
  initial state := ∃ cap, wsdqInit cap = some state
  step := step

/-- The owner has decremented `bottom` and not yet settled it. -/
def OwnerPc.popping : OwnerPc → Bool
  | .popBuf _ | .popTop .. | .popRestore _ | .popSlot .. | .popCas .. | .popLost _
  | .popWon .. => true
  | _ => false

def OwnerPc.growing : OwnerPc → Bool
  | .grow .. | .growLock .. | .growSwap .. | .growUnlock .. | .growFree .. => true
  | _ => false

/-- The end of the deque, in a pop the value that `bottom` had. -/
def OwnerPc.back (bottom : Nat) : OwnerPc → Nat
  | .popBuf oldB | .popTop oldB _ _ | .popSlot oldB _ _ _ => oldB
  | .popRestore restoreB => restoreB
  | .popCas _ t | .popLost t | .popWon _ t => t + 1
  | _ => bottom

def State.back (state : State) : Nat :=
  state.owner.back state.bottom

def State.slot (state : State) (index : Nat) : Option Item :=
  state.heap state.buf (index % state.capacity)

def State.contents (state : State) : List (Option Item) :=
  segment state.slot state.top state.back

/-- The item that the owner is pushing or about to return. -/
def OwnerPc.held : OwnerPc → List Item
  | .pushTop item _ | .pushBuf item _ _ | .grow item _ _ _ _ | .growLock item _ _ _ _
  | .growSwap item _ _ _ _ | .growUnlock item _ _ _ _ | .growFree item _ _ _ _
  | .pushSlot item _ _ _ | .pushBottom item _ => [item]
  | .popWon entry _ => entry.toList
  | _ => []

def ThiefPc.held : ThiefPc → List Item
  | .unlock result => result.toList
  | _ => []

/-- The item that the thief with the lock is about to return. -/
def State.stolen (state : State) : List Item :=
  match state.stealLock with
  | some (.thief thief) => (state.thieves thief).held
  | _ => []

def State.held (state : State) : List Item :=
  state.owner.held ++ state.stolen

end Libgoc.Wsdq
