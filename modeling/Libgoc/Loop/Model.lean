import Mathlib.Algebra.GroupWithZero.Nat
import Mathlib.Logic.Function.Basic
import Mathlib.Tactic.Common
import Libgoc.Data.LinkedQueue
import Libgoc.Semantics.Execution

namespace Libgoc.Loop

open Libgoc.Data Libgoc.Semantics

/-! # The callback queue of the loop thread (`src/loop.c`)

Any thread posts entries to a queue that the loop thread drains, at most
`GOC_CB_DRAIN_BUDGET` of them at a time.  A step is one access to a shared variable;
a section under `g_loop_submit_lock` that has no access to the queue is one step.
The callback of an entry runs after the entry is counted as popped; what it posts is
posted by one of the threads.
-/

/-- The address of an `mpsc_node`. -/
abbrev Node := Fin (2 ^ 64)

theorem node_nonzero : 2 ^ 64 ≠ 0 := by decide

scoped instance node_neZero : NeZero (2 ^ 64) := ⟨node_nonzero⟩

abbrev ThreadId := Nat

structure Posted where
  thread : ThreadId
  entry : Nat
deriving Repr, DecidableEq

inductive LoopState where
  | stopped
  | running
  | shuttingDown
deriving Repr, DecidableEq

/-- The functions that post under `g_loop_submit_lock`. -/
inductive Submission where
  | postOnLoop
  | postOnLoopChecked
  | submitCallbackIfRunning
deriving Repr, DecidableEq

/-- The caller learns whether the entry is accepted. -/
def Submission.reports : Submission → Bool
  | .postOnLoop => false
  | .postOnLoopChecked => true
  | .submitCallbackIfRunning => true

/-- A call of `post_callback`, under the lock of a submission or not.  The place of its
entry among all that are posted is history. -/
structure Post where
  submission : Option Submission
  place : Nat
deriving Repr, DecidableEq

/-- What a thread does next.  From `linking` to `counting` it is in `cb_queue_push`,
from `waking` to `sending` in `wakeup_send_if_needed`. -/
inductive Thread where
  | idle
  | locking (submission : Submission) (entry : Nat)
  | checking (submission : Submission) (entry : Nat)
  | linking (post : Post) (prev node : Node)
  | counting (post : Post)
  | waking (post : Post)
  | raising (post : Post)
  | sending (post : Post)
  | unlocking (submission : Submission) (accepted : Option Nat)
deriving Repr, DecidableEq

def Post.done (post : Post) : Thread :=
  match post.submission with
  | none => .idle
  | some submission => .unlocking submission (some post.place)

inductive Handler where
  | onWakeup
  | onShutdownSignal
deriving Repr, DecidableEq

/-- Where the loop thread is: `polling` in `uv_run`, or in a callback that `uv_run`
makes, or, from `returned` on, after it. -/
inductive LoopPc where
  | polling
  | entering
  | signalled
  | draining (handler : Handler) (budget : Nat)
  | popped (handler : Handler) (budget : Nat)
  | drained (handler : Handler)
  | waking (handler : Handler)
  | sending (handler : Handler)
  | returned
  | clearing
  | closingWakeup
  | closingShutdown
  | exited
deriving Repr, DecidableEq

inductive Closer where
  | absent
  | signalling
  | joining
deriving Repr, DecidableEq

/-- `async` and `shutdownAsync` say that libuv is to call the callback of the handle,
`wakeup` that `g_wakeup` is not `NULL`.  History: `pushed` and `popped` list the
entries in the order of the exchanges and of the pops, `accepted` has the places of
those that were reported as accepted, `signalRan` says that `on_shutdown_signal` has
returned. -/
structure State where
  queue : LinkedQueue Node Posted
  depth : Nat := 0
  pending : Bool := false
  async : Bool := false
  shutdownAsync : Bool := false
  wakeup : Bool := true
  wakeupClosing : Bool := false
  shutdownClosing : Bool := false
  loopState : LoopState := .running
  submitLock : Option ThreadId := none
  threads : ThreadId → Thread := fun _ => .idle
  loop : LoopPc := .polling
  closer : Closer := .absent
  pushed : List Posted := []
  popped : List Posted := []
  accepted : List Nat := []
  signalRan : Bool := false

def cbDrainBudget : Nat := 512

variable (state : State)

def State.setThread (thread : ThreadId) (next : Thread) : State :=
  { state with threads := Function.update state.threads thread next }

def State.push (thread : ThreadId) (submission : Option Submission) (node : Node)
    (entry : Nat) : Option State :=
  if state.queue.live node = false then
    some { state.setThread thread
        (.linking ⟨submission, state.pushed.length⟩ state.queue.head node) with
      queue := state.queue.exchange node ⟨thread, entry⟩
      pushed := state.pushed ++ [⟨thread, entry⟩] }
  else none

def postCallback (thread : ThreadId) (node : Node) (entry : Nat) : Option State :=
  if state.threads thread = .idle then state.push thread none node entry else none

def submit (thread : ThreadId) (submission : Submission) (entry : Nat) : Option State :=
  if state.threads thread = .idle then
    some (state.setThread thread (.locking submission entry))
  else none

def threadStep (thread : ThreadId) (node : Node) : Option State :=
  match state.threads thread with
  | .idle => none
  | .locking submission entry =>
    if state.submitLock = none then
      some { state.setThread thread (.checking submission entry) with submitLock := some thread }
    else none
  | .checking submission entry =>
    if state.loopState = .running then state.push thread (some submission) node entry
    else some (state.setThread thread (.unlocking submission none))
  | .linking post prev node =>
    some { state.setThread thread (.counting post) with queue := state.queue.link prev node }
  | .counting post =>
    -- `prev_depth == 0`
    some { state.setThread thread (if state.depth = 0 then .waking post else post.done) with
      depth := (state.depth + 1) % 2 ^ 64 }
  | .waking post =>
    some (state.setThread thread
      (if state.wakeup = true ∧ state.wakeupClosing = false then .raising post else post.done))
  | .raising post =>
    some { state.setThread thread (if state.pending then post.done else .sending post) with
      pending := true }
  | .sending post =>
    some { state.setThread thread post.done with
      async := state.async || !state.wakeupClosing }
  | .unlocking submission accepted =>
    some { state.setThread thread .idle with
      submitLock := none
      accepted := state.accepted ++ if submission.reports then accepted.toList else [] }

def onWakeup : Option State :=
  if state.loop = .polling ∧ state.async = true then
    some { state with loop := .entering, async := false }
  else none

def onShutdownSignal : Option State :=
  if state.loop = .polling ∧ state.shutdownAsync = true then
    some { state with loop := .signalled, shutdownAsync := false }
  else none

def uvRunReturns : Option State :=
  if state.loop = .polling then some { state with loop := .returned } else none

/-- The end of a callback.  `on_shutdown_signal` goes on to stop the timers and the
loop. -/
def State.callbackReturns (handler : Handler) : State :=
  { state with loop := .polling, signalRan := state.signalRan || handler = .onShutdownSignal }

def loopStep : Option State :=
  match state.loop with
  | .polling => none
  | .entering =>
    some { state with loop := .draining .onWakeup cbDrainBudget, pending := false }
  | .signalled =>
    if state.submitLock = none then
      some { state with
        loop := .draining .onShutdownSignal cbDrainBudget, loopState := .shuttingDown }
    else none
  | .draining handler 0 => some { state with loop := .drained handler }
  | .draining handler (budget + 1) =>
    match state.queue.pop with
    | none => some { state with loop := .drained handler }
    | some (queue, entry) =>
      some { state with
        queue, loop := .popped handler budget, popped := state.popped ++ entry.toList }
  | .popped handler budget =>
    some { state with
      loop := .draining handler budget
      depth := (state.depth + (2 ^ 64 - 1)) % 2 ^ 64 }
  | .drained handler =>
    if state.depth > 0 then some { state with loop := .waking handler }
    else some (state.callbackReturns handler)
  | .waking handler =>
    if state.wakeup = true ∧ state.wakeupClosing = false then
      if state.pending then some (state.callbackReturns handler)
      else some { state with loop := .sending handler, pending := true }
    else some (state.callbackReturns handler)
  | .sending handler => some { state.callbackReturns handler with async := true }
  | .returned =>
    some { state with
      loop := if state.loopState = .shuttingDown then .clearing else .polling }
  | .clearing => some { state with loop := .closingWakeup, wakeup := false }
  | .closingWakeup =>
    some { state with loop := .closingShutdown, wakeupClosing := true, async := false }
  | .closingShutdown =>
    some { state with loop := .exited, shutdownClosing := true, shutdownAsync := false }
  | .exited => none

def loopShutdown : Option State :=
  if state.closer = .absent ∧ state.submitLock = none then
    some { state with
      closer := .signalling
      loopState := if state.loopState = .running then .shuttingDown else state.loopState }
  else none

def loopShutdownSignals : Option State :=
  if state.closer = .signalling then
    if state.shutdownClosing then
      some { state with
        closer := .joining
        async := state.async || (state.wakeup && !state.wakeupClosing) }
    else some { state with closer := .joining, shutdownAsync := true }
  else none

inductive Label where
  | post (thread : ThreadId) (node : Node) (entry : Nat)
  | submit (thread : ThreadId) (submission : Submission) (entry : Nat)
  | thread (thread : ThreadId) (node : Node)
  | wakeup
  | shutdownSignal
  | uvRunReturns
  | loop
  | shutdown
  | signal
deriving Repr, DecidableEq

def step : Label → Option State
  | .post thread node entry => postCallback state thread node entry
  | .submit thread submission entry => submit state thread submission entry
  | .thread thread node => threadStep state thread node
  | .wakeup => onWakeup state
  | .shutdownSignal => onShutdownSignal state
  | .uvRunReturns => uvRunReturns state
  | .loop => loopStep state
  | .shutdown => loopShutdown state
  | .signal => loopShutdownSignals state

def start (sentinel : Node) : State where
  queue := .start sentinel

def system : System State Label where
  initial state := ∃ sentinel, state = start sentinel
  step := step

end Libgoc.Loop
