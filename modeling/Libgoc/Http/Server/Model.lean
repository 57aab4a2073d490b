import Mathlib.Logic.Function.Basic
import Mathlib.Tactic.Common
import Libgoc.Data.Handoff
import Libgoc.Semantics.Execution

namespace Libgoc.Http.Server

open Libgoc.Data Libgoc.Semantics

/-! # Shutting down the server

`goc_http_server_listen` starts one accept loop for each worker, or a single one;
accept loops start the fibers of connections.  `active_conns` counts the fibers:
an accept loop counts itself when it enters `http_accept_loop`, a connection is
counted by its accept loop before its fiber is spawned.  Who brings the count to
zero closes the shutdown channel that `goc_http_server_close` waits for.

A step is one operation on the server or one event of an accept channel.  A server
is listened on and closed at most once, possibly at the same time.
-/

/-- The parts of `reuseport_accept_loop_fiber`, `http_accept_loop` and
`handle_conn_fiber` between their operations on the server.  A fiber that found
itself to be the last one is `closing`; it `resumes` the accept loop if it only
failed to dispatch a connection. -/
inductive Phase where
  | absent
  | spawned
  | starting
  | made
  | installed
  | entering
  | accepting
  | accepted
  | dispatching
  | draining
  | leaving
  | serving
  | closing (resumes : Bool)
  | done
deriving Repr, DecidableEq

/-- `closeCh` says that the fiber read a non-null `srv->close_ch`; `ready` is the
sign of the result on its ready channel. -/
structure Fiber where
  phase : Phase := .absent
  acceptCh : Option CloseGuard := none
  pending : Nat := 0
  closeCh : Bool := false
  ready : Option Bool := none
deriving Repr, DecidableEq

inductive Event where
  | begin
  | startFails
  | make
  | install
  | check
  | count
  | take
  | dispatch (ok : Bool)
  | takeFails
  | leave
  | closeShutdown
deriving Repr, DecidableEq

inductive ChanEvent where
  | listened (ok : Bool)
  | fails
  | arrives
  | drops
  | closes
deriving Repr, DecidableEq

inductive ListenPhase where
  | idle
  | spawning (next : Nat)
  | collecting (next : Nat) (failed : Bool)
  | falling (next : Nat)
  | opening
  | forking
  | returned
deriving Repr, DecidableEq

inductive ClosePhase where
  | idle
  | deciding
  | visiting (next : Nat)
  | unlistened
  | waiting
  | finishing
  | returned
deriving Repr, DecidableEq

/-- `goc_http_server`, its fibers and the two calls.  The fibers below `workers` are
those of the listener slots, the next one is the single accept loop, and then come
the connections.  `closeCh`, `shutdownCh`, `acceptCh` and `arrays` say which pointers
are not null, `closing` that `close_ch` is no longer open. -/
structure State where
  workers : Nat
  active : Int := 0
  closeCh : Bool := true
  closing : Bool := false
  shutdownCh : Bool := true
  shutdown : CloseGuard := .opened
  nListeners : Nat := 0
  arrays : Bool := false
  installed : Nat → Bool := fun _ => false
  acceptCh : Bool := false
  fibers : Nat → Fiber := fun _ => {}
  conns : Nat := 0
  listen : ListenPhase := .idle
  close : ClosePhase := .idle

namespace State

variable (state : State)

def size : Nat :=
  state.workers + 1 + state.conns

def setFiber (id : Nat) (fiber : Fiber) : State :=
  { state with fibers := Function.update state.fibers id fiber }

def closeShutdown : State :=
  { state with shutdown := if state.shutdownCh then state.shutdown.close else state.shutdown }

def closeAccept (id : Nat) : State :=
  state.setFiber id
    { state.fibers id with acceptCh := (state.fibers id).acceptCh.map CloseGuard.close }

def closeListener (slot : Nat) : State :=
  if state.arrays && state.installed slot then state.closeAccept slot else state

end State

inductive Effect where
  | quiet
  | install
  | count
  | giveBack
  | spawn
  | closeShutdown
deriving Repr, DecidableEq

/-- The next operation of a fiber.  To install a channel in arrays that
`goc_http_server_listen` has already dropped is a write through a null pointer. -/
def respond (state : State) (id : Nat) (event : Event) : Option (Fiber × Effect) :=
  let fiber := state.fibers id
  match fiber.phase, event with
  | .spawned, .begin =>
    if id < state.workers then
      some ({ fiber with phase := .starting, closeCh := state.closeCh }, .quiet)
    else if state.acceptCh then some ({ fiber with phase := .entering }, .quiet)
    else some ({ fiber with phase := .closing false }, .quiet)
  | .starting, .startFails => some ({ fiber with phase := .done, ready := some false }, .quiet)
  | .starting, .make =>
    some ({ fiber with phase := .made, acceptCh := some .opened }, .quiet)
  | .made, .install =>
    if state.arrays then some ({ fiber with phase := .installed }, .install) else none
  | .installed, .check =>
    if fiber.closeCh && state.closing then
      some ({ fiber with phase := .done, acceptCh := fiber.acceptCh.map CloseGuard.close }, .quiet)
    else some ({ fiber with phase := .entering }, .quiet)
  | .entering, .count => some ({ fiber with phase := .accepting }, .count)
  | .accepting, .take =>
    if 0 < fiber.pending then
      some ({ fiber with phase := .accepted, pending := fiber.pending - 1 }, .quiet)
    else none
  | .accepted, .count => some ({ fiber with phase := .dispatching }, .count)
  | .dispatching, .dispatch true => some ({ fiber with phase := .accepting }, .spawn)
  | .dispatching, .dispatch false =>
    some ({ fiber with phase := if state.active = 1 then .closing true else .accepting }, .giveBack)
  | .accepting, .takeFails =>
    if fiber.acceptCh = some .closing ∧ fiber.pending = 0 then
      some ({ fiber with phase := .draining }, .quiet)
    else none
  | .draining, .take =>
    if 0 < fiber.pending then some ({ fiber with pending := fiber.pending - 1 }, .quiet)
    else none
  | .draining, .takeFails =>
    if fiber.acceptCh = some .closing ∧ fiber.pending = 0 then
      some ({ fiber with phase := .leaving }, .quiet)
    else none
  | .leaving, .leave | .serving, .leave =>
    some ({ fiber with phase := if state.active = 1 then .closing false else .done }, .giveBack)
  | .closing resumes, .closeShutdown =>
    some ({ fiber with phase := if resumes then .accepting else .done }, .closeShutdown)
  | _, _ => none

def Effect.apply (state : State) (id : Nat) : Effect → State
  | .quiet => state
  | .install => { state with installed := Function.update state.installed id true }
  | .count => { state with active := state.active + 1 }
  | .giveBack => { state with active := state.active - 1 }
  | .spawn =>
    { state.setFiber state.size { phase := .serving } with conns := state.conns + 1 }
  | .closeShutdown => state.closeShutdown

def Fiber.receive (fiber : Fiber) : ChanEvent → Option Fiber
  | .listened ok =>
    if fiber.acceptCh.isSome ∧ fiber.ready = none then
      some { fiber with
        ready := some ok
        acceptCh := if ok then fiber.acceptCh else fiber.acceptCh.map CloseGuard.close }
    else none
  | .fails =>
    if fiber.ready = some true then
      some { fiber with acceptCh := fiber.acceptCh.map CloseGuard.close }
    else none
  | .arrives =>
    if fiber.ready = some true ∧ fiber.acceptCh ≠ some .closing then
      some { fiber with pending := fiber.pending + 1 }
    else none
  | .drops => if 0 < fiber.pending then some { fiber with pending := fiber.pending - 1 } else none
  | .closes =>
    if fiber.acceptCh = some .requested then some { fiber with acceptCh := some .closing }
    else none

inductive Start where
  | invalidAddress
  | reuseport
  | single
deriving Repr, DecidableEq

def startListen (state : State) : Start → Option State
  | .invalidAddress => some { state with listen := .returned }
  | .reuseport =>
    if 1 < state.workers then
      some { state with
        nListeners := state.workers
        arrays := true
        installed := fun _ => false
        listen := .spawning 0 }
    else none
  | .single => some { state with listen := .opening }

def listenNext (state : State) : Option State :=
  match state.listen with
  | .idle | .returned => none
  | .spawning next =>
    if next < state.workers then
      some { state.setFiber next { phase := .spawned } with listen := .spawning (next + 1) }
    else some { state with listen := .collecting 0 false }
  | .collecting next failed =>
    if next < state.workers then
      match (state.fibers next).ready with
      | none => none
      | some ok => some { state with listen := .collecting (next + 1) (failed || !ok) }
    else if failed then some { state with listen := .falling 0 }
    else some { state with listen := .returned }
  | .falling next =>
    if next < state.workers then
      some { state.closeListener next with listen := .falling (next + 1) }
    else some { state with nListeners := 0, arrays := false, listen := .opening }
  | .opening =>
    some { state.setFiber state.workers { acceptCh := some .opened } with
      acceptCh := true
      listen := .forking }
  | .forking =>
    some { state.setFiber state.workers { state.fibers state.workers with phase := .spawned } with
      listen := .returned }

def closeNext (state : State) : Option State :=
  match state.close with
  | .idle | .returned => none
  | .deciding =>
    if 0 < state.nListeners then some { state with close := .visiting 0 }
    else if state.acceptCh then
      some { state.closeAccept state.workers with close := .waiting }
    else some { state with close := .unlistened }
  | .visiting next =>
    if next < state.nListeners then
      some { state.closeListener next with close := .visiting (next + 1) }
    else some { state with close := .waiting }
  | .unlistened => some { state.closeShutdown with close := .finishing }
  | .waiting =>
    if state.shutdown = .closing then some { state with close := .finishing } else none
  | .finishing =>
    some { state with
      closeCh := false
      shutdownCh := false
      acceptCh := state.acceptCh && decide (0 < state.nListeners)
      installed := if 0 < state.nListeners then fun _ => false else state.installed
      close := .returned }

inductive Label where
  | listen (start : Start)
  | listenNext
  | openFails
  | close
  | closeNext
  | fiber (id : Nat) (event : Event)
  | channel (id : Nat) (event : ChanEvent)
  | shutdownCloses
deriving Repr, DecidableEq

def step (state : State) : Label → Option State
  | .listen start => if state.listen = .idle then startListen state start else none
  | .listenNext => listenNext state
  | .openFails =>
    if state.listen = .opening then some { state with listen := .returned } else none
  | .close =>
    if state.close = .idle then some { state with closing := true, close := .deciding }
    else none
  | .closeNext => closeNext state
  | .fiber id event =>
    match respond state id event with
    | none => none
    | some (fiber, effect) => some (effect.apply (state.setFiber id fiber) id)
  | .channel id event =>
    match (state.fibers id).receive event with
    | none => none
    | some fiber => some (state.setFiber id fiber)
  | .shutdownCloses =>
    if state.shutdown = .requested then some { state with shutdown := .closing } else none

def system : System State Label where
  initial state := ∃ workers, state = { workers }
  step := step

end Libgoc.Http.Server
