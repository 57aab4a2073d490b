import Libgoc.Data.SizeT
import Libgoc.Semantics.Execution

namespace Libgoc.GocDict

open Libgoc.Data Libgoc.Semantics Function

/-! # Ordered dictionaries (`src/goc_dict.c`) -/

abbrev DictId := Nat

inductive Slot (κ : Type) where
  | empty
  | tombstone
  | live (key : κ)
deriving Repr, DecidableEq

def Slot.isLive : Slot κ → Bool
  | .live _ => true
  | _ => false

/-- A read outside the allocated tables, or a loop that never ends. -/
inductive Fault where
  | outOfBounds
  | diverges
deriving Repr, DecidableEq

structure Table (κ ν : Type) where
  keys : Nat → Slot κ
  vals : Nat → ν
  size : Nat

structure Dict (κ ν : Type) where
  table : Table κ ν
  tableCap : Nat
  occupied : Nat
  keys : List (Option κ)
  len : Nat

def fnv1a (bytes : List UInt8) : Nat :=
  bytes.foldl (fun hash byte =>
    (Nat.xor hash byte.toNat * 1099511628211) % 2 ^ 64) 1469598103934665603

section

variable {κ τ ν β : Type} [DecidableEq κ] [DecidableEq τ] [Inhabited ν]
  (text : κ → τ) (hash : τ → Nat)

def gocDictHash (key : κ) (cap : Nat) : Nat :=
  Nat.land (hash (text key)) (cap - 1)

def nextIndex (cap idx : Nat) : Nat :=
  Nat.land (idx + 1) (cap - 1)

def gocDictMinCap : Nat := 8

/-- The loop of `_goc_dict_round_cap`; it has passed every power of two after
61 turns. -/
def roundCapFrom (requestedCap : Nat) : Nat → Nat → Except Fault Nat
  | 0, _ => .error .diverges
  | fuel + 1, cap =>
    if cap < requestedCap then roundCapFrom requestedCap fuel (sizeT (cap * 2)) else .ok cap

def gocDictRoundCap (requestedCap : Nat) : Except Fault Nat :=
  roundCapFrom requestedCap 62 gocDictMinCap

def gocDictAlloc (cap : Nat) : Table κ ν where
  keys := fun _ => .empty
  vals := fun _ => default
  size := sizeT (cap * 8) / 8

/-- The loop of `_goc_dict_probe`.  After `cap` turns every slot has been seen,
so that a probe that has not returned by then never does. -/
def probeFrom (table : Table κ ν) (cap : Nat) (key : κ) : Nat → Nat → Option Nat → Except Fault Nat
  | 0, _, _ => .error .diverges
  | fuel + 1, idx, firstTombstone =>
    if idx < table.size then
      match table.keys idx with
      | .empty => .ok (firstTombstone.getD idx)
      | .tombstone =>
        probeFrom table cap key fuel (nextIndex cap idx) (firstTombstone.or (some idx))
      | .live current =>
        if text current = text key then .ok idx
        else probeFrom table cap key fuel (nextIndex cap idx) firstTombstone
    else .error .outOfBounds

def gocDictProbe (d : Dict κ ν) (key : κ) : Except Fault Nat :=
  probeFrom text d.table d.tableCap key d.tableCap (gocDictHash text hash key d.tableCap) none

/-- The inner loop of `_goc_dict_rehash`. -/
def findFree (table : Table κ ν) (cap : Nat) : Nat → Nat → Except Fault Nat
  | 0, _ => .error .diverges
  | fuel + 1, dst =>
    if dst < table.size then
      match table.keys dst with
      | .empty => .ok dst
      | _ => findFree table cap fuel (nextIndex cap dst)
    else .error .outOfBounds

def Table.put (table : Table κ ν) (slot : Nat) (key : Slot κ) (val : ν) : Table κ ν :=
  { table with
    keys := update table.keys slot key
    vals := update table.vals slot val }

/-- The outer loop of `_goc_dict_rehash`, over `count` slots from `i` on. -/
def reinsert (old : Table κ ν) (newCap : Nat) : Nat → Nat → Table κ ν → Except Fault (Table κ ν)
  | 0, _, table => .ok table
  | count + 1, i, table =>
    if i < old.size then
      match old.keys i with
      | .live key => do
          let dst ← findFree table newCap newCap (gocDictHash text hash key newCap)
          reinsert old newCap count (i + 1) (table.put dst (.live key) (old.vals i))
      | _ => reinsert old newCap count (i + 1) table
    else .error .outOfBounds

def gocDictRehash (d : Dict κ ν) (newCap : Nat) : Except Fault (Dict κ ν) := do
  let table ← reinsert text hash d.table newCap d.tableCap 0 (gocDictAlloc newCap)
  pure { d with table, tableCap := newCap, occupied := d.len }

def gocDictMake (initialCap : Nat) : Except Fault (Dict κ ν) := do
  let cap ← gocDictRoundCap initialCap
  pure { table := gocDictAlloc cap, tableCap := cap, occupied := 0, keys := [], len := 0 }

def gocDictContains (d : Dict κ ν) (key : κ) : Except Fault Bool := do
  let slot ← gocDictProbe text hash d key
  pure (d.table.keys slot).isLive

def gocDictGet (d : Dict κ ν) (key : κ) (notFound : ν) : Except Fault ν := do
  let slot ← gocDictProbe text hash d key
  pure (if (d.table.keys slot).isLive then d.table.vals slot else notFound)

/-- The part of `goc_dict_set` after the table was grown. -/
def gocDictInsert (d : Dict κ ν) (key : κ) (val : ν) : Except Fault (Dict κ ν) := do
  let slot ← gocDictProbe text hash d key
  match d.table.keys slot with
  | .live current => pure { d with table := d.table.put slot (.live current) val }
  | .tombstone => pure { d with
      table := d.table.put slot (.live key) val
      keys := d.keys ++ [some key]
      len := d.len + 1 }
  | .empty => pure { d with
      table := d.table.put slot (.live key) val
      keys := d.keys ++ [some key]
      len := d.len + 1
      occupied := d.occupied + 1 }

def crowded (d : Dict κ ν) : Bool :=
  sizeT (d.occupied * 4) > sizeT (d.tableCap * 3)

def gocDictSet (d : Dict κ ν) (key : κ) (val : ν) : Except Fault (Dict κ ν) := do
  let d ← (if crowded d then gocDictRehash text hash d (sizeT (d.tableCap * 2)) else .ok d)
  gocDictInsert text hash d key val

/-- The loop of `goc_dict_pop` that overwrites the first occurrence of a key
pointer with `NULL`. -/
def eraseKey (current : κ) : List (Option κ) → List (Option κ)
  | [] => []
  | stored :: rest =>
    if stored = some current then none :: rest else stored :: eraseKey current rest

def gocDictPop (d : Dict κ ν) (key : κ) (notFound : ν) : Except Fault (Dict κ ν × ν) := do
  let slot ← gocDictProbe text hash d key
  match d.table.keys slot with
  | .live current =>
    let popped := { d with
      table := d.table.put slot .tombstone default
      keys := eraseKey current d.keys
      len := d.len - 1 }
    pure (popped, d.table.vals slot)
  | _ => pure (d, notFound)

def gocDictCopy (d : Dict κ ν) : Except Fault (Dict κ ν) := do
  let cap ← gocDictRoundCap d.tableCap
  let copied : Table κ ν := gocDictAlloc cap
  -- Both tables are copied with one `memcpy` of `table_cap` entries.
  if sizeT (d.tableCap * 8) / 8 ≤ copied.size ∧ sizeT (d.tableCap * 8) / 8 ≤ d.table.size then
    pure { table := { d.table with size := copied.size }, tableCap := cap
           occupied := d.occupied, keys := d.keys, len := d.len }
  else .error .outOfBounds

/-- The loop shared by `goc_dict_entries`, `goc_dict_keys` and `goc_dict_vals`:
what `item` makes of every live key and its value. -/
def visitKeys (d : Dict κ ν) (item : κ → ν → β) : List (Option κ) → Except Fault (List β)
  | [] => .ok []
  | none :: rest => visitKeys d item rest
  | some key :: rest => do
      let slot ← gocDictProbe text hash d key
      let others ← visitKeys d item rest
      pure (if (d.table.keys slot).isLive then item key (d.table.vals slot) :: others else others)

def gocDictEntries (d : Dict κ ν) : Except Fault (List (κ × ν)) :=
  visitKeys text hash d (fun key val => (key, val)) d.keys

def gocDictKeys (d : Dict κ ν) : Except Fault (List κ) :=
  visitKeys text hash d (fun key _ => key) d.keys

def gocDictVals (d : Dict κ ν) : Except Fault (List ν) :=
  visitKeys text hash d (fun _ val => val) d.keys

end

inductive Label (κ ν : Type) where
  | make (initialCap : Nat)
  | copy (d : DictId)
  | set (d : DictId) (key : κ) (val : ν)
  | pop (d : DictId) (key : κ) (notFound : ν)
  | get (d : DictId) (key : κ) (notFound : ν)
  | contains (d : DictId) (key : κ)
  | len (d : DictId)
  | entries (d : DictId)
  | keys (d : DictId)
  | vals (d : DictId)
deriving Repr, DecidableEq

inductive Answer (κ ν : Type) where
  | nothing
  | dict (d : DictId)
  | value (val : ν)
  | flag (present : Bool)
  | number (len : Nat)
  | entries (items : List (κ × ν))
  | keys (items : List κ)
  | vals (items : List ν)
deriving Repr, DecidableEq

structure State (κ ν : Type) where
  dicts : DictId → Option (Dict κ ν)
  fresh : DictId

section

variable {κ τ ν : Type} [DecidableEq κ] [DecidableEq τ] [Inhabited ν]
  (text : κ → τ) (hash : τ → Nat)

def initialState : State κ ν where
  dicts := fun _ => none
  fresh := 0

def State.put (state : State κ ν) (d : DictId) (dict : Dict κ ν) : State κ ν :=
  { state with dicts := update state.dicts d (some dict) }

def State.create (state : State κ ν) (dict : Dict κ ν) : State κ ν :=
  { state.put state.fresh dict with fresh := state.fresh + 1 }

def exec (state : State κ ν) : Label κ ν → Option (Except Fault (State κ ν × Answer κ ν))
  | .make initialCap =>
    if initialCap < 2 ^ 64 then
      some ((gocDictMake initialCap).map fun made => (state.create made, .dict state.fresh))
    else none
  | .copy d => (state.dicts d).map fun dict =>
    (gocDictCopy dict).map fun made => (state.create made, .dict state.fresh)
  | .set d key val => (state.dicts d).map fun dict =>
    (gocDictSet text hash dict key val).map fun after => (state.put d after, .nothing)
  | .pop d key notFound => (state.dicts d).map fun dict =>
    (gocDictPop text hash dict key notFound).map fun done =>
      (state.put d done.1, .value done.2)
  | .get d key notFound => (state.dicts d).map fun dict =>
    (gocDictGet text hash dict key notFound).map fun val => (state, .value val)
  | .contains d key => (state.dicts d).map fun dict =>
    (gocDictContains text hash dict key).map fun present => (state, .flag present)
  | .len d => (state.dicts d).map fun dict => .ok (state, .number dict.len)
  | .entries d => (state.dicts d).map fun dict =>
    (gocDictEntries text hash dict).map fun items => (state, .entries items)
  | .keys d => (state.dicts d).map fun dict =>
    (gocDictKeys text hash dict).map fun items => (state, .keys items)
  | .vals d => (state.dicts d).map fun dict =>
    (gocDictVals text hash dict).map fun items => (state, .vals items)

def step (state : State κ ν) (label : Label κ ν) : Option (State κ ν) :=
  match exec text hash state label with
  | some (.ok (after, _)) => some after
  | _ => none

def system : System (State κ ν) (Label κ ν) where
  initial state := state = initialState
  step := step text hash

end

end Libgoc.GocDict
