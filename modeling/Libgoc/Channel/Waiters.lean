import Libgoc.Channel.State

namespace Libgoc.Channel

open Libgoc.Data

/-! # Claiming waiters (`wake`, `wake_claim`, `channel_internal.h`) -/

def tryClaimWake (state : State) (target : EntryId) : State × Bool :=
  let op := state.ops target.op
  let entry := op.entries target.arm
  if entry.sharesFired && op.fired then (state, false)
  else
    let op := { op with fired := op.fired || entry.sharesFired }
    if entry.woken then (state.setOp target.op op, false)
    else
      (state.setOp target.op { op with
        entries := Function.update op.entries target.arm { entry with woken := true } }, true)

def Entry.want (entry : Entry) : Nat :=
  2 * entry.parkedGen + 2

def countDead (state : State) (ch : ChanId) : State :=
  state.setChan ch { state.chans ch with deadCount := (state.chans ch).deadCount + 1 }

/-- The writes through a claimed entry: its result slot and `ok`. -/
def storeResult (state : State) (target : EntryId) (value : Option Msg) : State :=
  let entry := state.entry target
  state.setEntry target { entry with
    cbResult := if entry.resultSlot then value else entry.cbResult
    ok := .ok }

def postCallback (state : State) (target : EntryId) (value : Option Msg) : State :=
  { state.setEntry target { state.entry target with cbResult := value } with
    cbQueue := state.cbQueue ++ [target] }

def syncPost (state : State) (op : OpId) : State :=
  state.setOp op { state.ops op with ready := true }

def wake (state : State) (ch : ChanId) (target : EntryId) (value : Option Msg) :
    Option (State × Bool) :=
  if (state.entry target).cancelled then some (countDead state ch, false)
  else
    match tryClaimWake state target with
    | (state, false) => some (countDead state ch, false)
    | (state, true) =>
      let state := storeResult state target value
      let entry := state.entry target
      match entry.kind with
      | .fiber self =>
        let parked := (state.fibers self).parked
        if parked = entry.want then
          some ({ state with runQueue := state.runQueue ++ [self] }, true)
        else if parked = 0 ∨ entry.want < parked then some (state, false)
        else none
      | .callback => some (postCallback state target value, true)
      | .sync => some (syncPost state target.op, true)

/-- `wake_claim`; the spin and the post of a claimed fiber are left to
`posting`. -/
def wakeClaim (state : State) (ch : ChanId) (target : EntryId) (value : Option Msg) :
    Option (State × Bool) :=
  let entry := state.entry target
  let stale := match entry.kind with
    | .fiber self =>
      let parked := (state.fibers self).parked
      decide (parked = 0) || decide (entry.want < parked)
    | _ => false
  if entry.cancelled || stale then some (countDead state ch, false)
  else
    match tryClaimWake state target with
    | (state, false) => some (countDead state ch, false)
    | (state, true) =>
      let state := storeResult state target value
      match entry.kind with
      | .fiber self =>
        some ({ state with posting := state.posting ++ [(self, entry.want)] }, true)
      | .callback => some (postCallback state target value, true)
      | .sync => some (syncPost state target.op, true)

/-- The two ways to wake a waiter. -/
inductive Waker where
  | spinning
  | claiming
deriving Repr, DecidableEq

def Waker.run : Waker → State → ChanId → EntryId → Option Msg → Option (State × Bool)
  | .spinning => wake
  | .claiming => wakeClaim

/-- The loop over a waiter list shared by the hand-over functions: cancelled
entries and those that cannot be claimed are unlinked on the way.  The result
has the rest of the list and the claimed entry. -/
def walk (waker : Waker) (ch : ChanId) (value : Option Msg) :
    State → List EntryId → Option (State × List EntryId × Option EntryId)
  | state, [] => some (state, [], none)
  | state, target :: rest =>
    if (state.entry target).cancelled then walk waker ch value state rest
    else
      match waker.run state ch target value with
      | none => none
      | some (state, true) => some (state, rest, some target)
      | some (state, false) => walk waker ch value state rest

/-- `chan_put_to_taker` when spinning, `chan_put_to_taker_claim` when claiming. -/
def chanPutToTaker (waker : Waker) (state : State) (ch : ChanId) (msg : Msg) :
    Option (State × Bool) :=
  match walk waker ch (some msg) state (state.chans ch).takers with
  | none => none
  | some (state, rest, none) =>
    some (state.setChan ch { state.chans ch with takers := rest }, false)
  | some (state, rest, some receiver) =>
    some (state.setChan ch { state.chans ch with
      takers := rest
      effects := (state.chans ch).effects ++ [msg]
      deliveries := (state.chans ch).deliveries ++ [{ msg, receiver }] }, true)

/-- `chan_take_from_putter` when spinning, `chan_take_from_putter_claim` when
claiming. -/
def chanTakeFromPutter (waker : Waker) (state : State) (ch : ChanId) (receiver : EntryId) :
    Option (State × Option Msg) :=
  match walk waker ch none state (state.chans ch).putters with
  | none => none
  | some (state, rest, none) =>
    some (state.setChan ch { state.chans ch with putters := rest }, none)
  | some (state, rest, some putter) =>
    let msg := (state.entry putter).putVal
    some (state.setChan ch { state.chans ch with
      putters := rest
      deliveries := (state.chans ch).deliveries ++ [{ msg, receiver }] }, some msg)

def chanPutToBuffer (state : State) (ch : ChanId) (msg : Msg) : Option State :=
  match (state.chans ch).buffer.push msg with
  | none => none
  | some buffer =>
    some (state.setChan ch { state.chans ch with
      buffer
      effects := (state.chans ch).effects ++ [msg] })

def chanTakeFromBuffer (state : State) (ch : ChanId) (receiver : EntryId) : Option (State × Msg) :=
  match (state.chans ch).buffer.pop with
  | none => none
  | some (msg, buffer) =>
    some (state.setChan ch { state.chans ch with
      buffer
      deliveries := (state.chans ch).deliveries ++ [{ msg, receiver }] }, msg)

def compactDeadEntries (state : State) (ch : ChanId) : State :=
  let keep := fun entry => !(state.entry entry).cancelled
  state.setChan ch { state.chans ch with
    takers := (state.chans ch).takers.filter keep
    putters := (state.chans ch).putters.filter keep
    deadCount := 0 }

def deadCountThreshold : Nat := 8

/-- The amortized cleanup at the start of a take or put. -/
def compactIfDue (state : State) (ch : ChanId) : State :=
  if deadCountThreshold ≤ (state.chans ch).deadCount then compactDeadEntries state ch else state

end Libgoc.Channel
