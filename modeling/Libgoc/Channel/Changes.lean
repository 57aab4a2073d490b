import Libgoc.Channel.Claiming

namespace Libgoc.Channel

open Libgoc.Data

/-! # What a step can do -/

/-- The channels a label may take from, put to, or put to before it has looked
for a parked taker, the arm of the pending operation it takes up, whether it
starts a select or closes a channel, and the channels whose handler it sets. -/
structure Scope where
  takes : ChanId → Prop
  puts : ChanId → Prop
  early : ChanId → Prop
  pending : Arm → Prop
  selects : Prop
  closes : Prop
  installs : ChanId → Prop

def State.Dead (state : State) (waiters : List EntryId) : Prop :=
  ∀ target ∈ waiters, state.live target = false

instance (state : State) (waiters : List EntryId) : Decidable (state.Dead waiters) :=
  inferInstanceAs (Decidable (∀ target ∈ waiters, state.live target = false))

def Op.inFlight (call : Op) : Prop :=
  call.stage = .running ∨ ∃ rest, call.stage = .scanning rest

/-- The call returns; a callback operation calls its callback. -/
def settle (state : State) (op : OpId) (result : Result) (calls : List Invocation) : State :=
  { finish state op result with invocations := state.invocations ++ calls }

theorem finish_invocations (state : State) (op : OpId) (result : Result) :
    (finish state op result).invocations = state.invocations := by
  simp only [finish]
  split <;> rfl

theorem settle_nil (state : State) (op : OpId) (result : Result) :
    settle state op result [] = finish state op result := by
  rw [settle, List.append_nil, ← finish_invocations state op result]

def Invoked (op : OpId) (result : Result) (calls : List Invocation) : Prop :=
  calls = [] ∨ ∃ arm msg, result.arm = some arm ∧
    calls = [{ entry := ⟨op, arm⟩, ch := result.ch, msg, ok := result.ok }]

/-- The arm finds no value, no room and no partner, and its channel is open. -/
def State.Stuck (state : State) : Arm → Prop
  | .take ch => (state.chans ch).buffer.contents = [] ∧
      state.Dead (state.chans ch).putters ∧ (state.chans ch).closed = false
  | .put ch _ => (state.chans ch).buffer.contents.length = (state.chans ch).buffer.size ∧
      state.Dead (state.chans ch).takers ∧ (state.chans ch).closed = false
  | .default => True

instance (state : State) : DecidablePred state.Stuck
  | .take _ | .put _ _ => inferInstanceAs (Decidable (_ ∧ _ ∧ _))
  | .default => inferInstanceAs (Decidable True)

/-- The state in which `park` finds a call: none of its arms can go ahead. -/
def Blocked (state : State) (op : OpId) : Prop :=
  ∀ arm ∈ (state.ops op).order, ∀ spec, (state.ops op).arms[arm]? = some spec → state.Stuck spec

inductive Refused (state : State) (op : OpId) : Result → Prop where
  | default (member : Arm.default ∈ (state.ops op).arms) :
      Refused state op { ch := none, arm := none, msg := none, ok := .ok }
  | empty (arm : Nat) (ch : ChanId) (spec : (state.ops op).arms[arm]? = some (.take ch))
      (stuck : state.Stuck (.take ch)) : Refused state op (Attempt.blocked.result ch arm)
  | closedTake (arm : Nat) (ch : ChanId)
      (spec : (state.ops op).arms[arm]? = some (.take ch))
      (closed : (state.chans ch).closed = true)
      (drained : (state.chans ch).buffer.contents = []) :
      Refused state op (Attempt.closed.result ch arm)
  | closedPut (arm : Nat) (ch : ChanId) (val : Val)
      (spec : (state.ops op).arms[arm]? = some (.put ch val))
      (closed : (state.chans ch).closed = true) :
      Refused state op (Attempt.closed.result ch arm)

/-- The call's view of its entry after a close. -/
def closedValue (entry : Entry) : Option Msg :=
  if entry.kind = .callback then none else entry.cbResult

/-- Preparations of a step. -/
inductive Prepares (scope : Scope) (state : State) : State → Prop where
  | enter (op : OpId) (caller : Caller) (arms : List Arm) (order : List Nat) (select : Bool)
      (stage : Stage) (absent : (state.ops op).stage = .absent)
      (idle : ∀ self, caller = .fiber self → (state.fibers self).busy = none)
      (started : stage = .running ∨ select = true ∧ stage = .scanning order)
      (single : select = false → order = [0]) (distinct : order.Nodup)
      (notCallback : caller ≠ .callback) (inScope : select = true → scope.selects) :
      Prepares scope state (enter state op { caller, arms, order, select, stage })
  | start (target : EntryId) (rest : List EntryId)
      (queue : state.cbQueue = target :: rest)
      (pending : (state.ops target.op).stage = .pending) :
      Prepares scope state (startPending { state with cbQueue := rest } target)
  | unlink (ch : ChanId) (takers putters : List EntryId) (dead : Nat)
      (takersLeft : takers.Sublist (state.chans ch).takers)
      (puttersLeft : putters.Sublist (state.chans ch).putters)
      (takersKept : ∀ target ∈ (state.chans ch).takers, state.live target = true →
        target ∈ takers)
      (puttersKept : ∀ target ∈ (state.chans ch).putters, state.live target = true →
        target ∈ putters) :
      Prepares scope state (state.setChan ch { state.chans ch with
        takers, putters, deadCount := dead })
  | closeWaiter (closer : CloserId) (target : EntryId)
      (closing : (state.closers closer).stage = .claimed)
      (member : target ∈ (state.chans (state.closers closer).ch).takers ∨
        target ∈ (state.chans (state.closers closer).ch).putters)
      (live : state.live target = true) (inScope : scope.closes) :
      Prepares scope state (claimWith .claiming state target .closed
        (closedValue (state.entry target)))

/-- The steps of closers and handlers that touch no waiter. -/
inductive Controls (scope : Scope) (state : State) : State → Prop where
  | request (closer : CloserId) (ch : ChanId) (stage : CloserStage)
      (absent : (state.closers closer).stage = .absent)
      (opened : (state.chans ch).closeGuard = .opened)
      (next : stage = .internal ∨ stage = .dispatched) :
      Controls scope state (setCloser
        (state.setChan ch { state.chans ch with closeGuard := .requested }) closer { ch, stage })
  | ignore (closer : CloserId) (ch : ChanId) (absent : (state.closers closer).stage = .absent) :
      Controls scope state (setCloser state closer { ch, stage := .done })
  | move (closer : CloserId) (stage : CloserStage)
      (before : (state.closers closer).stage = .dispatched ∨
        (state.closers closer).stage = .internal ∨ (state.closers closer).stage = .retry)
      (next : stage = .internal ∨ stage = .retry ∨ stage = .done) :
      Controls scope state (setCloser state closer { ch := (state.closers closer).ch, stage })
  | claim (closer : CloserId)
      (before : (state.closers closer).stage = .internal ∨
        (state.closers closer).stage = .retry)
      (free : (state.chans (state.closers closer).ch).closeGuard ≠ .closing) :
      Controls scope state (setCloser (state.setChan (state.closers closer).ch
          { state.chans (state.closers closer).ch with closeGuard := .closing }) closer
        { ch := (state.closers closer).ch, stage := .claimed })
  | read (closer : CloserId) (unlocked : (state.closers closer).stage = .unlocked) :
      Controls scope state (setCloser state closer
        { ch := (state.closers closer).ch
          stage := match (state.chans (state.closers closer).ch).onClose with
            | some hook => .calling hook
            | none => .done })
  | call (closer : CloserId) (hook : HookId)
      (calling : (state.closers closer).stage = .calling hook) :
      Controls scope state (setCloser (setHook state hook
          { state.hooks hook with runs := (state.hooks hook).runs + 1 }) closer
        { ch := (state.closers closer).ch, stage := .done })
  | install (hook : HookId) (ch : ChanId) (null : Bool)
      (absent : (state.hooks hook).stage = .absent) (opened : (state.chans ch).closed = false)
      (inScope : scope.installs ch) :
      Controls scope state (setHook (state.setChan ch { state.chans ch with
          onClose := if null then none else some hook }) hook
        { ch, stage := if null then .done else .installed })
  | late (hook : HookId) (ch : ChanId) (null : Bool)
      (absent : (state.hooks hook).stage = .absent) (closed : (state.chans ch).closed = true) :
      Controls scope state (setHook state hook { ch, stage := if null then .done else .calling })
  | callLate (hook : HookId) (calling : (state.hooks hook).stage = .calling) :
      Controls scope state (setHook state hook
        { state.hooks hook with stage := .done, runs := (state.hooks hook).runs + 1 })

structure Undisturbed (state after : State) : Prop where
  ops : after.ops = state.ops
  fibers : after.fibers = state.fibers
  posting : after.posting = state.posting
  runQueue : after.runQueue = state.runQueue
  cbQueue : after.cbQueue = state.cbQueue
  invocations : after.invocations = state.invocations
  chan : ∀ ch, ∃ guard hook, after.chans ch =
    { state.chans ch with closeGuard := guard, onClose := hook }

theorem undisturbed_chan (state : State) (ch : ChanId) (guard : CloseGuard)
    (hook : Option HookId) (other : ChanId) :
    ∃ newGuard newHook, (state.setChan ch
        { state.chans ch with closeGuard := guard, onClose := hook }).chans other =
      { state.chans other with closeGuard := newGuard, onClose := newHook } := by
  by_cases same : other = ch
  · subst same
    exact ⟨guard, hook, by simp [State.setChan]⟩
  · exact ⟨_, _, by simp [State.setChan, same]; rfl⟩

theorem Controls.undisturbed (controls : Controls scope state after) :
    Undisturbed state after := by
  have same : ∀ ch, ∃ guard hook, state.chans ch =
      { state.chans ch with closeGuard := guard, onClose := hook } :=
    fun ch => ⟨_, _, rfl⟩
  cases controls with
  | request closer ch | install hook ch null =>
    exact ⟨rfl, rfl, rfl, rfl, rfl, rfl, undisturbed_chan state ch _ _⟩
  | claim closer => exact ⟨rfl, rfl, rfl, rfl, rfl, rfl, undisturbed_chan state _ _ _⟩
  | ignore
  | move
  | read
  | call
  | late
  | callLate => exact ⟨rfl, rfl, rfl, rfl, rfl, rfl, same⟩

/-- Changes in which no value moves and no call parks. -/
inductive Routine (state : State) : State → Prop where
  | stay : Routine state state
  | submit (op : OpId) (arm : Arm) (ch : ChanId) (entry : Entry)
      (absent : (state.ops op).stage = .absent)
      (spec : (arm = .take ch ∧ entry.resultSlot = true ∧ entry.isPut = false) ∨
        ∃ val, arm = .put ch val ∧ entry.putVal = { source := ⟨op, 0⟩, val } ∧
          entry.resultSlot = false ∧ entry.isPut = true)
      (fresh : entry.kind = .callback ∧ entry.woken = false ∧ entry.cancelled = false ∧
        entry.sharesFired = false ∧ entry.cbResult = none ∧ entry.ok = .closed)
      (registered : entry.ch = some ch) :
      Routine state { state.setOp op
          { caller := .callback, arms := [arm], order := [0], stage := .pending
            entries := fun _ => entry } with
        cbQueue := state.cbQueue ++ [⟨op, 0⟩] }
  | advance (op : OpId) (arm : Nat) (rest : List Nat)
      (stage : (state.ops op).stage = .scanning (arm :: rest)) :
      Routine state (state.setOp op { state.ops op with stage := .scanning rest })
  | refuse (op : OpId) (result : Result) (calls : List Invocation)
      (inFlight : (state.ops op).inFlight) (refused : Refused state op result)
      (invoked : Invoked op result calls) :
      Routine state (settle state op result calls)
  | suspend (self : FiberId) (odd : (state.fibers self).parked % 2 = 1) :
      Routine state (state.setFiber self
        { state.fibers self with parked := (state.fibers self).parked + 1 })
  | post (self : FiberId) (want : Nat) (member : (self, want) ∈ state.posting)
      (suspended : (state.fibers self).parked = want) :
      Routine state { state with
        posting := state.posting.erase (self, want), runQueue := state.runQueue ++ [self] }
  | resume (self : FiberId) (op : OpId) (member : self ∈ state.runQueue)
      (busy : (state.fibers self).busy = some op)
      (waiting : (state.ops op).stage = .waiting) :
      Routine state (continueCall
        ({ state with runQueue := state.runQueue.erase self }.setFiber self
          { state.fibers self with parked := 0 }) op)
  | syncResume (op : OpId) (waiting : (state.ops op).stage = .waiting)
      (caller : (state.ops op).caller = .thread) (ready : (state.ops op).ready = true) :
      Routine state (continueCall
        (state.setOp op { state.ops op with ready := false }) op)
  | noteWinner (op : OpId) (arm : Nat) (rest : List Nat) (winner : Option Nat)
      (stage : (state.ops op).stage = .resumed (arm :: rest) winner)
      (woken : ((state.ops op).entries arm).woken = true) :
      Routine state (state.setOp op
        { state.ops op with stage := .resumed rest (some arm) })
  | cancelArm (op : OpId) (arm : Nat) (rest : List Nat) (winner : Option Nat)
      (stage : (state.ops op).stage = .resumed (arm :: rest) winner)
      (unwoken : ((state.ops op).entries arm).woken = false) :
      Routine state (state.setOp op { state.ops op with
        stage := .resumed rest winner
        entries := Function.update (state.ops op).entries arm
          { (state.ops op).entries arm with cancelled := true } })
  | win (op : OpId) (arm : Nat) (stage : (state.ops op).stage = .resumed [] (some arm))
      (woken : ((state.ops op).entries arm).woken = true) :
      Routine state (finish state op (entryResult (state.ops op) arm))
  | fire (target : EntryId) (rest : List EntryId) (queue : state.cbQueue = target :: rest)
      (waiting : (state.ops target.op).stage = .waiting) :
      Routine state (fireCallback { state with cbQueue := rest } target)

/-- The change a step makes after its preparations. -/
inductive Changes (scope : Scope) (state : State) : State → Prop where
  | routine (final : State) (routine : Routine state final) : Changes scope state final
  | control (final : State) (controls : Controls scope state final) : Changes scope state final
  | takeBuffer (op : OpId) (arm : Nat) (ch : ChanId) (msg : Msg) (buffer : RingBuffer Msg)
      (calls : List Invocation) (inFlight : (state.ops op).inFlight)
      (spec : (state.ops op).arms[arm]? = some (.take ch)) (inScope : scope.takes ch)
      (popped : (state.chans ch).buffer.pop = some (msg, buffer))
      (invoked : Invoked op ((Attempt.taken msg).result ch arm) calls) :
      Changes scope state (settle (state.setChan ch { state.chans ch with
          buffer
          deliveries := (state.chans ch).deliveries ++ [{ msg, receiver := ⟨op, arm⟩ }] }) op
        ((Attempt.taken msg).result ch arm) calls)
  | takePutter (op : OpId) (arm : Nat) (ch : ChanId) (waker : Waker) (putter : EntryId)
      (dead rest : List EntryId) (calls : List Invocation)
      (inFlight : (state.ops op).inFlight)
      (spec : (state.ops op).arms[arm]? = some (.take ch)) (inScope : scope.takes ch)
      (drained : (state.chans ch).buffer.contents = [])
      (list : (state.chans ch).putters = dead ++ putter :: rest)
      (skipped : state.Dead dead) (live : state.live putter = true)
      (suspended : ∀ self, waker = .spinning → (state.entry putter).kind = .fiber self →
        (state.fibers self).parked = 4)
      (invoked : Invoked op ((Attempt.taken (state.entry putter).putVal).result ch arm) calls) :
      Changes scope state (settle ((claimWith waker state putter .ok none).setChan ch
        { state.chans ch with
          putters := rest
          deliveries := (state.chans ch).deliveries ++
            [{ msg := (state.entry putter).putVal, receiver := ⟨op, arm⟩ }] }) op
        ((Attempt.taken (state.entry putter).putVal).result ch arm) calls)
  | putBuffer (op : OpId) (arm : Nat) (ch : ChanId) (val : Val) (buffer : RingBuffer Msg)
      (calls : List Invocation) (inFlight : (state.ops op).inFlight)
      (spec : (state.ops op).arms[arm]? = some (.put ch val)) (inScope : scope.puts ch)
      (opened : (state.chans ch).closed = false)
      (order : scope.early ch ∨ state.Dead (state.chans ch).takers)
      (pushed : (state.chans ch).buffer.push { source := ⟨op, arm⟩, val } = some buffer)
      (invoked : Invoked op (Attempt.accepted.result ch arm) calls) :
      Changes scope state (settle (state.setChan ch { state.chans ch with
          buffer
          effects := (state.chans ch).effects ++ [{ source := ⟨op, arm⟩, val }] }) op
        (Attempt.accepted.result ch arm) calls)
  | putTaker (op : OpId) (arm : Nat) (ch : ChanId) (val : Val) (waker : Waker)
      (taker : EntryId) (dead rest : List EntryId) (calls : List Invocation)
      (inFlight : (state.ops op).inFlight)
      (spec : (state.ops op).arms[arm]? = some (.put ch val)) (inScope : scope.puts ch)
      (opened : (state.chans ch).closed = false)
      (list : (state.chans ch).takers = dead ++ taker :: rest)
      (skipped : state.Dead dead) (live : state.live taker = true)
      (suspended : ∀ self, waker = .spinning → (state.entry taker).kind = .fiber self →
        (state.fibers self).parked = 4)
      (invoked : Invoked op (Attempt.accepted.result ch arm) calls) :
      Changes scope state (settle
        ((claimWith waker state taker .ok (some { source := ⟨op, arm⟩, val })).setChan ch
          { state.chans ch with
            takers := rest
            effects := (state.chans ch).effects ++ [{ source := ⟨op, arm⟩, val }]
            deliveries := (state.chans ch).deliveries ++
              [{ msg := { source := ⟨op, arm⟩, val }, receiver := taker }] }) op
        (Attempt.accepted.result ch arm) calls)
  | park (op : OpId) (entries : Nat → Nat → Entry) (inFlight : (state.ops op).inFlight)
      (blocked : Blocked state op)
      (prepared : ∀ gen, (∀ self, (state.ops op).caller = .fiber self → gen = 1) →
        Op.Prepared op { state.ops op with stage := .waiting, entries := entries gen })
      (fresh : ∀ gen arm, (entries gen arm).woken = false ∧
        (entries gen arm).cancelled = false)
      (inScope : (state.ops op).caller = .callback → ∀ spec ∈ (state.ops op).arms,
        scope.pending spec) :
      Changes scope state (park state op entries)
  | shut (closer : CloserId) (closing : (state.closers closer).stage = .claimed)
      (takersDead : state.Dead (state.chans (state.closers closer).ch).takers)
      (puttersDead : state.Dead (state.chans (state.closers closer).ch).putters) :
      Changes scope state (setCloser
        (state.setChan (state.closers closer).ch
          { state.chans (state.closers closer).ch with
            closed := true, takers := [], putters := [], deadCount := 0
            closeRuns := (state.chans (state.closers closer).ch).closeRuns + 1 }) closer
        { ch := (state.closers closer).ch, stage := .unlocked })

end Libgoc.Channel
