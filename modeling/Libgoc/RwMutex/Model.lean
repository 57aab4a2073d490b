import Mathlib.Data.List.Nodup
import Libgoc.Semantics.Execution

namespace Libgoc.RwMutex

open Libgoc.Semantics

/-! # Read-write mutexes (`src/mutex.c`) -/

abbrev RequestId := Nat

/-- A queued `goc_mutex_waiter`; its gate and context are those of `request`. -/
structure Waiter where
  request : RequestId
  isWriter : Bool
deriving Repr, DecidableEq

structure Mutex where
  activeReaders : Nat := 0
  writerActive : Bool := false
  waitingWriters : Nat := 0
  queue : List Waiter := []
deriving Repr, DecidableEq

/-- Where the thread that called `mutex_lock_request` stands. -/
inductive RequestPhase where
  | absent
  | prepared
  | unlocked (grantNow : Bool)
  | sending
  | returned
deriving Repr, DecidableEq

/-- The release context of one request together with the state of its gate:
`closeRequested` is a won `close_guard` exchange, `gateClosed` is `closed`. -/
structure Request where
  phase : RequestPhase := .absent
  isWriter : Bool := false
  acquired : Bool := false
  handled : Bool := false
  closeRequested : Bool := false
  gateClosed : Bool := false
deriving Repr, DecidableEq

/-- The loop thread inside the close of a gate. -/
inductive LoopStage where
  | idle
  | handlerEntered (request : RequestId)
  | handlerClaimed (request : RequestId)
  | releasing (request : RequestId)
  | cancelling (request : RequestId)
  | granting (remaining : List RequestId)
deriving Repr, DecidableEq

/-- The history fields record the order of the lock sections (`arrivals`), of
the decisions to grant (`grants`), the finished releases and the grant values
accepted by a gate (`delivered`). -/
structure State where
  mutex : Mutex := {}
  requests : RequestId → Request := fun _ => {}
  loop : LoopStage := .idle
  arrivals : List RequestId := []
  grants : List RequestId := []
  released : List RequestId := []
  delivered : List RequestId := []

def State.setRequest (state : State) (request : RequestId) (value : Request) : State :=
  { state with requests := Function.update state.requests request value }

/-- The stores of `acquired` made for the dequeued waiters. -/
def acquireAll (requests : RequestId → Request) (granted : List RequestId) :
    RequestId → Request := fun request =>
  if request ∈ granted then { requests request with acquired := true } else requests request

/-- `mutex_send_grant`: the put is refused once the gate is closed. -/
def mutexSendGrant (state : State) (request : RequestId) : State :=
  if (state.requests request).gateClosed then state
  else { state with delivered := state.delivered ++ [request] }

/-- The reader batch of `mutex_release`: dequeue up to the first writer. -/
def grantReaders (mutex : Mutex) : List Waiter → Mutex × List RequestId
  | [] => ({ mutex with queue := [] }, [])
  | waiter :: rest =>
    if waiter.isWriter then ({ mutex with queue := waiter :: rest }, [])
    else
      let (after, granted) :=
        grantReaders { mutex with activeReaders := mutex.activeReaders + 1 } rest
      (after, waiter.request :: granted)

/-- The first half of `mutex_release`: the caller stops holding the lock. -/
def dropHolder (mutex : Mutex) (isWriter : Bool) : Mutex :=
  if isWriter then { mutex with writerActive := false }
  else if 0 < mutex.activeReaders then
    { mutex with activeReaders := mutex.activeReaders - 1 }
  else mutex

/-- The second half of `mutex_release`: a free lock goes to the head of the
queue, to one writer or to a batch of readers. -/
def grantNext (mutex : Mutex) : Mutex × List RequestId :=
  if !mutex.writerActive && mutex.activeReaders == 0 then
    match mutex.queue with
    | [] => (mutex, [])
    | waiter :: rest =>
      if waiter.isWriter then
        ({ mutex with
            queue := rest
            waitingWriters := mutex.waitingWriters - 1
            writerActive := true }, [waiter.request])
      else grantReaders mutex (waiter :: rest)
  else (mutex, [])

/-- The section of `mutex_release`, with the requests it grants in order. -/
def mutexRelease (mutex : Mutex) (isWriter : Bool) : Mutex × List RequestId :=
  grantNext (dropHolder mutex isWriter)

/-- The section of `mutex_cancel_waiter`: unlink the first waiter of the
request and correct the writer count. -/
def mutexCancelWaiter (mutex : Mutex) (target : RequestId) : Mutex :=
  match mutex.queue.find? (fun waiter => waiter.request == target) with
  | none => mutex
  | some waiter =>
    { mutex with
      queue := mutex.queue.eraseP (fun waiter => waiter.request == target)
      waitingWriters :=
        if waiter.isWriter && decide (0 < mutex.waitingWriters) then
          mutex.waitingWriters - 1
        else mutex.waitingWriters }

/-- The section of `mutex_lock_request`; the flag is `grant_now`. -/
def mutexLockRequest (mutex : Mutex) (waiter : Waiter) : Mutex × Bool :=
  if waiter.isWriter then
    if !mutex.writerActive && mutex.activeReaders == 0 && mutex.queue.isEmpty then
      ({ mutex with writerActive := true }, true)
    else
      ({ mutex with
          queue := mutex.queue ++ [waiter]
          waitingWriters := mutex.waitingWriters + 1 }, false)
  else
    if !mutex.writerActive && mutex.waitingWriters == 0 && mutex.queue.isEmpty then
      ({ mutex with activeReaders := mutex.activeReaders + 1 }, true)
    else ({ mutex with queue := mutex.queue ++ [waiter] }, false)

inductive Label where
  | request (request : RequestId) (isWriter : Bool)
  | lockSection (request : RequestId)
  | checkHandled (request : RequestId)
  | sendGrant (request : RequestId)
  | close (request : RequestId)
  | runClose (request : RequestId)
  | handler
deriving Repr, DecidableEq

/-- `mutex_on_lock_channel_closed`, then the sends that follow the section of
`mutex_release`; each atomic access and each section is one step. -/
def handlerStep (state : State) : Option State :=
  match state.loop with
  | .idle => none
  | .handlerEntered request =>
    if (state.requests request).handled then some { state with loop := .idle }
    else
      some { state.setRequest request { state.requests request with handled := true } with
        loop := .handlerClaimed request }
  | .handlerClaimed request =>
    if (state.requests request).acquired then
      some { state with loop := .releasing request }
    else some { state with loop := .cancelling request }
  | .releasing request =>
    let (mutex, granted) := mutexRelease state.mutex (state.requests request).isWriter
    some { state with
      mutex
      requests := acquireAll state.requests granted
      loop := .granting granted
      grants := state.grants ++ granted
      released := state.released ++ [request] }
  | .cancelling request =>
    some { state with mutex := mutexCancelWaiter state.mutex request, loop := .idle }
  | .granting [] => some { state with loop := .idle }
  | .granting (request :: rest) =>
    some { mutexSendGrant state request with loop := .granting rest }

def step (state : State) : Label → Option State
  | .request request isWriter =>
    if (state.requests request).phase = .absent then
      some (state.setRequest request { phase := .prepared, isWriter })
    else none
  | .lockSection request =>
    let entry := state.requests request
    if entry.phase = .prepared then
      let (mutex, grantNow) :=
        mutexLockRequest state.mutex { request, isWriter := entry.isWriter }
      some { state.setRequest request
          { entry with phase := .unlocked grantNow, acquired := grantNow } with
        mutex
        arrivals := state.arrivals ++ [request]
        grants := if grantNow then state.grants ++ [request] else state.grants }
    else none
  | .checkHandled request =>
    let entry := state.requests request
    match entry.phase with
    | .unlocked grantNow =>
      some (state.setRequest request { entry with
        phase := if grantNow && !entry.handled then .sending else .returned })
    | _ => none
  | .sendGrant request =>
    let entry := state.requests request
    if entry.phase = .sending then
      some ((mutexSendGrant state request).setRequest request { entry with phase := .returned })
    else none
  | .close request =>
    let entry := state.requests request
    if entry.phase = .returned then
      some (state.setRequest request { entry with closeRequested := true })
    else none
  | .runClose request =>
    let entry := state.requests request
    if state.loop = .idle ∧ entry.closeRequested ∧ ¬ entry.gateClosed then
      some { state.setRequest request { entry with gateClosed := true } with
        loop := .handlerEntered request }
    else none
  | .handler => handlerStep state

def system : System State Label where
  initial state := state = {}
  step := step

end Libgoc.RwMutex
