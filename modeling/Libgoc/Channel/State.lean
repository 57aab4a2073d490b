import Libgoc.Data.Handoff
import Libgoc.Data.RingBuffer
import Libgoc.Semantics.Execution

namespace Libgoc.Channel

open Libgoc.Data Function

/-! # The state of channels and of the calls on them

Every API call is an `Op` with its own identity; what it parks on a channel is
one `goc_entry` per arm, named by the call and the index of the arm.  A plain
take or put is a call with one arm.  The fields marked as history are read by
no operation.
-/

abbrev ChanId := Nat
abbrev OpId := Nat
abbrev FiberId := Nat
abbrev CloserId := Nat
abbrev HookId := Nat

/-- A `void *` passed through a channel. -/
abbrev Val := Nat

structure EntryId where
  op : OpId
  arm : Nat
deriving Repr, DecidableEq

/-- A value in a buffer or in a result slot; the arm that put it is history. -/
structure Msg where
  source : EntryId := ⟨0, 0⟩
  val : Val := 0
deriving Repr, DecidableEq

inductive Status where
  | empty
  | closed
  | ok
deriving Repr, DecidableEq

/-- `kind`, with the coroutine of a fiber entry. -/
inductive EntryKind where
  | fiber (coro : FiberId)
  | callback
  | sync
deriving Repr, DecidableEq

/-- `goc_entry`.  `sharesFired` says that `fired` points to the flag of the
select call, `resultSlot` that `result_slot` is set; `cbResult` is what the
slot holds. -/
structure Entry where
  kind : EntryKind := .sync
  cancelled : Bool := false
  woken : Bool := false
  sharesFired : Bool := false
  resultSlot : Bool := false
  cbResult : Option Msg := none
  ok : Status := .closed
  putVal : Msg := {}
  ch : Option ChanId := none
  isPut : Bool := false
  hasCb : Bool := false
  parkedGen : Nat := 0
deriving Repr, DecidableEq

inductive Arm where
  | take (ch : ChanId)
  | put (ch : ChanId) (val : Val)
  | default
deriving Repr, DecidableEq

inductive Caller where
  | fiber (self : FiberId)
  | thread
  | callback
deriving Repr, DecidableEq

/-- Where a call stands.  `scanning` is phase 2 of a select with the arms it
has still to try, `resumed` its phase 7 with the winner found so far. -/
inductive Stage where
  | absent
  | running
  | scanning (remaining : List Nat)
  | pending
  | waiting
  | resumed (remaining : List Nat) (winner : Option Nat)
  | done
  | aborted
deriving Repr, DecidableEq

/-- What a call returns or passes to its callback; the arm is history. -/
structure Result where
  ch : Option ChanId
  arm : Option Nat
  msg : Option Msg
  ok : Status
deriving Repr, DecidableEq

structure Op where
  caller : Caller := .thread
  arms : List Arm := []
  order : List Nat := []
  select : Bool := false
  stage : Stage := .absent
  entries : Nat → Entry := fun _ => {}
  fired : Bool := false
  ready : Bool := false
  result : Option Result := none

structure Delivery where
  msg : Msg
  receiver : EntryId
deriving Repr, DecidableEq

/-- `goc_chan`.  History: `effects` lists the puts in the order in which they
took effect, `deliveries` the values taken, `closeRuns` counts close bodies. -/
structure Chan where
  buffer : RingBuffer Msg := .empty 0
  takers : List EntryId := []
  putters : List EntryId := []
  closed : Bool := false
  deadCount : Nat := 0
  closeGuard : CloseGuard := .opened
  onClose : Option HookId := none
  effects : List Msg := []
  deliveries : List Delivery := []
  closeRuns : Nat := 0

structure Fiber where
  parked : Nat := 0
  busy : Option OpId := none
deriving Repr, DecidableEq

inductive CloserStage where
  | absent
  | dispatched
  | internal
  | retry
  | claimed
  | unlocked
  | calling (hook : HookId)
  | done
deriving Repr, DecidableEq

structure Closer where
  ch : ChanId := 0
  stage : CloserStage := .absent
deriving Repr, DecidableEq

inductive HookStage where
  | absent
  | installed
  | calling
  | done
deriving Repr, DecidableEq

structure Hook where
  ch : ChanId := 0
  stage : HookStage := .absent
  runs : Nat := 0
deriving Repr, DecidableEq

structure Invocation where
  entry : EntryId
  ch : Option ChanId
  msg : Option Msg
  ok : Status
deriving Repr, DecidableEq

/-- `posting` holds the claimed fibers a waker has still to wait for and to
post, with the `parked` value it waits for; `cbQueue` is the queue of the loop
thread. -/
structure State where
  chans : ChanId → Chan := fun _ => {}
  ops : OpId → Op := fun _ => {}
  fibers : FiberId → Fiber := fun _ => {}
  posting : List (FiberId × Nat) := []
  runQueue : List FiberId := []
  cbQueue : List EntryId := []
  closers : CloserId → Closer := fun _ => {}
  hooks : HookId → Hook := fun _ => {}
  invocations : List Invocation := []

namespace State

def setChan (state : State) (ch : ChanId) (value : Chan) : State :=
  { state with chans := update state.chans ch value }

def setOp (state : State) (op : OpId) (value : Op) : State :=
  { state with ops := update state.ops op value }

def setFiber (state : State) (fiber : FiberId) (value : Fiber) : State :=
  { state with fibers := update state.fibers fiber value }

def entry (state : State) (entry : EntryId) : Entry :=
  (state.ops entry.op).entries entry.arm

def setEntry (state : State) (entry : EntryId) (value : Entry) : State :=
  state.setOp entry.op { state.ops entry.op with
    entries := update (state.ops entry.op).entries entry.arm value }

/-- A waiter that can still be claimed: not cancelled, not claimed, and its
select not fired. -/
def live (state : State) (entry : EntryId) : Bool :=
  !(state.entry entry).cancelled && !(state.entry entry).woken &&
    !((state.entry entry).sharesFired && (state.ops entry.op).fired)

end State

def initialState (capacity : ChanId → Nat) : State where
  chans ch := { buffer := .empty (capacity ch) }

end Libgoc.Channel
