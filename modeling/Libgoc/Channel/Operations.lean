import Libgoc.Channel.Waiters

namespace Libgoc.Channel

open Libgoc.Data Libgoc.Semantics Function

/-! # The operations on channels -/

inductive Attempt where
  | taken (msg : Msg)
  | accepted
  | closed
  | blocked
deriving Repr, DecidableEq

/-- The fast paths of a take: buffer, parked putter, closed. -/
def takeNow (waker : Waker) (state : State) (ch : ChanId) (receiver : EntryId) :
    Option (State × Attempt) :=
  match chanTakeFromBuffer state ch receiver with
  | some (state, msg) => some (state, .taken msg)
  | none =>
    match chanTakeFromPutter waker state ch receiver with
    | none => none
    | some (state, some msg) => some (state, .taken msg)
    | some (state, none) =>
      some (state, if (state.chans ch).closed then .closed else .blocked)

/-- The fast paths of a put: closed, parked taker, buffer. -/
def putNow (waker : Waker) (state : State) (ch : ChanId) (msg : Msg) : Option (State × Attempt) :=
  if (state.chans ch).closed then some (state, .closed)
  else
    match chanPutToTaker waker state ch msg with
    | none => none
    | some (state, true) => some (state, .accepted)
    | some (state, false) =>
      match chanPutToBuffer state ch msg with
      | some state => some (state, .accepted)
      | none => some (state, .blocked)

def Attempt.result (ch : ChanId) (arm : Nat) : Attempt → Result
  | .taken msg => { ch := some ch, arm := some arm, msg := some msg, ok := .ok }
  | .accepted => { ch := some ch, arm := some arm, msg := none, ok := .ok }
  | .closed => { ch := some ch, arm := some arm, msg := none, ok := .closed }
  | .blocked => { ch := some ch, arm := some arm, msg := none, ok := .empty }

def enter (state : State) (op : OpId) (call : Op) : State :=
  let state := state.setOp op call
  match call.caller with
  | .fiber self => state.setFiber self { state.fibers self with busy := some op }
  | _ => state

def finish (state : State) (op : OpId) (result : Result) : State :=
  let call := state.ops op
  let state := state.setOp op { call with stage := .done, result := some result }
  match call.caller with
  | .fiber self => state.setFiber self { state.fibers self with busy := none }
  | _ => state

def enqueue (op : OpId) (arms : List Arm) (state : State) (arm : Nat) : State :=
  match arms[arm]? with
  | some (.take ch) =>
    state.setChan ch { state.chans ch with
      takers := (state.chans ch).takers ++ [⟨op, arm⟩] }
  | some (.put ch val) =>
    state.setChan ch { state.chans ch with
      putters := (state.chans ch).putters ++ [⟨op, arm⟩]
      effects := (state.chans ch).effects ++ [{ source := ⟨op, arm⟩, val }] }
  | _ => state

/-- Link the entries of a call and wait; a fiber first starts its park
handshake. -/
def park (state : State) (op : OpId) (entries : Nat → Nat → Entry) : State :=
  let call := state.ops op
  let linked := fun (state : State) => call.order.foldl (enqueue op call.arms) state
  match call.caller with
  | .fiber self =>
    let gen := (state.fibers self).parked / 2 + 1
    let state := state.setFiber self { state.fibers self with parked := 2 * gen + 1 }
    linked (state.setOp op { call with stage := .waiting, entries := entries gen })
  | _ => linked (state.setOp op { call with stage := .waiting, entries := entries 0 })

def gocTake (state : State) (op : OpId) (self : FiberId) (ch : ChanId) : Option State :=
  if (state.ops op).stage = .absent ∧ (state.fibers self).busy = none then
    let state := enter state op
      { caller := .fiber self, arms := [.take ch], order := [0], stage := .running }
    match takeNow .claiming (compactIfDue state ch) ch ⟨op, 0⟩ with
    | none => none
    | some (state, .blocked) =>
      some (park state op fun gen _ =>
        { kind := .fiber self, resultSlot := true, parkedGen := gen })
    | some (state, attempt) => some (finish state op (attempt.result ch 0))
  else none

def gocPut (state : State) (op : OpId) (self : FiberId) (ch : ChanId) (val : Val) : Option State :=
  if (state.ops op).stage = .absent ∧ (state.fibers self).busy = none then
    let msg : Msg := { source := ⟨op, 0⟩, val }
    let state := enter state op
      { caller := .fiber self, arms := [.put ch val], order := [0], stage := .running }
    match putNow .claiming (compactIfDue state ch) ch msg with
    | none => none
    | some (state, .blocked) =>
      some (park state op fun gen _ =>
        { kind := .fiber self, putVal := msg, parkedGen := gen })
    | some (state, attempt) => some (finish state op (attempt.result ch 0))
  else none

def gocTakeSync (state : State) (op : OpId) (ch : ChanId) : Option State :=
  if (state.ops op).stage = .absent then
    let state := enter state op { arms := [.take ch], order := [0], stage := .running }
    match takeNow .spinning state ch ⟨op, 0⟩ with
    | none => none
    | some (state, .blocked) =>
      some (park state op fun _ _ => { kind := .sync, resultSlot := true })
    | some (state, attempt) => some (finish state op (attempt.result ch 0))
  else none

def gocPutSync (state : State) (op : OpId) (ch : ChanId) (val : Val) : Option State :=
  if (state.ops op).stage = .absent then
    let msg : Msg := { source := ⟨op, 0⟩, val }
    let state := enter state op { arms := [.put ch val], order := [0], stage := .running }
    match putNow .spinning state ch msg with
    | none => none
    | some (state, .blocked) =>
      some (park state op fun _ _ => { kind := .sync, putVal := msg })
    | some (state, attempt) => some (finish state op (attempt.result ch 0))
  else none

def gocTakeTry (state : State) (op : OpId) (ch : ChanId) : Option State :=
  if (state.ops op).stage = .absent then
    let state := enter state op { arms := [.take ch], order := [0], stage := .running }
    match takeNow .spinning state ch ⟨op, 0⟩ with
    | none => none
    | some (state, attempt) => some (finish state op (attempt.result ch 0))
  else none

def gocTakeCb (state : State) (op : OpId) (ch : ChanId) : Option State :=
  if (state.ops op).stage = .absent then
    let entry : Entry :=
      { kind := .callback, ch := some ch, hasCb := true, resultSlot := true }
    some (postCallback (enter state op
      { caller := .callback, arms := [.take ch], order := [0], stage := .pending
        entries := fun _ => entry }) ⟨op, 0⟩ none)
  else none

/-- `goc_put_cb`; the callback may be `NULL`. -/
def gocPutCb (state : State) (op : OpId) (ch : ChanId) (val : Val) (hasCb : Bool) : Option State :=
  if (state.ops op).stage = .absent then
    let entry : Entry :=
      { kind := .callback, ch := some ch, isPut := true, hasCb
        putVal := { source := ⟨op, 0⟩, val } }
    some (postCallback (enter state op
      { caller := .callback, arms := [.put ch val], order := [0], stage := .pending
        entries := fun _ => entry }) ⟨op, 0⟩ none)
  else none

def invoke (state : State) (target : EntryId) (ch : Option ChanId) (msg : Option Msg)
    (status : Status) : State :=
  if (state.entry target).hasCb then
    { state with
      invocations := state.invocations ++ [{ entry := target, ch, msg, ok := status }] }
  else state

/-- The loop thread starts a pending operation and clears the channel of its
entry. -/
def startPending (state : State) (target : EntryId) : State :=
  let call := state.ops target.op
  state.setOp target.op { call with
    stage := .running
    entries := update call.entries target.arm
      { call.entries target.arm with ch := none } }

def loopProcessPendingPut (state : State) (target : EntryId) (ch : ChanId) : Option State :=
  let msg := (state.entry target).putVal
  let state := startPending state target
  match putNow .claiming (compactIfDue state ch) ch msg with
  | none => none
  | some (state, .blocked) => some (park state target.op fun _ => (state.ops target.op).entries)
  | some (state, attempt) =>
    let result := attempt.result ch target.arm
    some (invoke (finish state target.op result) target (some ch) (some msg) result.ok)

def loopProcessPendingTake (state : State) (target : EntryId) (ch : ChanId) : Option State :=
  let state := startPending state target
  match takeNow .claiming (compactIfDue state ch) ch target with
  | none => none
  | some (state, .blocked) => some (park state target.op fun _ => (state.ops target.op).entries)
  | some (state, attempt) =>
    let result := attempt.result ch target.arm
    some (invoke (finish state target.op result) target (some ch) result.msg result.ok)

/-- The completion of a claimed entry by `drain_cb_queue`. -/
def fireCallback (state : State) (target : EntryId) : State :=
  let entry := state.entry target
  let result : Result :=
    { ch := entry.ch, arm := some target.arm
      msg := if entry.isPut then none else entry.cbResult, ok := entry.ok }
  invoke (finish state target.op result) target entry.ch
    (if entry.isPut then some entry.putVal else entry.cbResult) entry.ok

/-- One round of `drain_cb_queue`. -/
def drainCbQueue (state : State) : Option State :=
  match state.cbQueue with
  | [] => none
  | target :: rest =>
    let state := { state with cbQueue := rest }
    let entry := state.entry target
    if entry.kind ≠ .callback then some state
    else
      match entry.ch, entry.woken with
      | some ch, false =>
        if entry.isPut then loopProcessPendingPut state target ch
        else loopProcessPendingTake state target ch
      | _, _ => some (fireCallback state target)

/-- The arms `alts_build_index_array` collects before the shuffle; `none` is
the abort on a second default arm. -/
def altsBuildIndexArray (arms : List Arm) : Option (List Nat) :=
  if arms.count .default ≤ 1 then
    some ((List.range arms.length).filter fun arm => arms[arm]? != some .default)
  else none

/-- The call and phase 1 of `goc_alts` and `goc_alts_sync`: `order` is the
shuffled index array. -/
def altsBegin (state : State) (op : OpId) (caller : Caller) (arms : List Arm)
    (order : List Nat) : Option State :=
  let idle := match caller with
    | .fiber self => decide ((state.fibers self).busy = none)
    | .thread => true
    | .callback => false
  match altsBuildIndexArray arms with
  | none => none
  | some indices =>
    if (state.ops op).stage = .absent ∧ idle = true ∧ order.Perm indices then
      some (enter state op { caller, arms, order, select := true, stage := .scanning order })
    else none

/-- A take arm, alike in both scans. -/
def altsTake (state : State) (ch : ChanId) (receiver : EntryId) : Option (State × Attempt) :=
  match chanTakeFromBuffer state ch receiver with
  | some (state, msg) => some (state, .taken msg)
  | none =>
    match chanTakeFromPutter .spinning state ch receiver with
    | none => none
    | some (state, some msg) => some (state, .taken msg)
    | some (state, none) =>
      some (state, if (state.chans ch).closed && (state.chans ch).buffer.count == 0 then .closed
        else .blocked)

/-- A put arm of `alts_try_immediate`: the buffer comes before a parked taker. -/
def altsTryPut (state : State) (ch : ChanId) (msg : Msg) : Option (State × Attempt) :=
  if (state.chans ch).closed then some (state, .closed)
  else
    match chanPutToBuffer state ch msg with
    | some state => some (state, .accepted)
    | none =>
      match chanPutToTaker .spinning state ch msg with
      | none => none
      | some (state, true) => some (state, .accepted)
      | some (state, false) => some (state, .blocked)

/-- One arm of a scan, with the way the scan puts. -/
def altsScanArm (put : State → ChanId → Msg → Option (State × Attempt)) (state : State)
    (op : OpId) (arm : Nat) : Option (State × Option Result) :=
  let settle := fun (ch : ChanId) (outcome : Option (State × Attempt)) =>
    match outcome with
    | none => none
    | some (state, .blocked) => some (state, none)
    | some (state, attempt) => some (state, some (attempt.result ch arm))
  match (state.ops op).arms[arm]? with
  | some (.take ch) => settle ch (altsTake state ch ⟨op, arm⟩)
  | some (.put ch val) => settle ch (put state ch { source := ⟨op, arm⟩, val })
  | _ => none

/-- The next arm of `alts_try_immediate`. -/
def altsTryImmediate (state : State) (op : OpId) : Option State :=
  match (state.ops op).stage with
  | .scanning (arm :: rest) =>
    match altsScanArm altsTryPut state op arm with
    | none => none
    | some (state, some result) => some (finish state op result)
    | some (state, none) =>
      some (state.setOp op { state.ops op with stage := .scanning rest })
  | _ => none

/-- Phase 5: scan the arms again under all locks. -/
def altsRescan (state : State) (op : OpId) : List Nat → Option (State × Option Result)
  | [] => some (state, none)
  | arm :: rest =>
    match altsScanArm (putNow .spinning) state op arm with
    | none => none
    | some (state, some result) => some (state, some result)
    | some (state, none) => altsRescan state op rest

/-- The entry phase 3 prepares for an arm.  The put arms of `goc_alts` have no
result slot, those of `goc_alts_sync` have one that is not used. -/
def altsEntry (kind : EntryKind) (op : OpId) (gen arm : Nat) : Arm → Entry
  | .take _ => { kind, sharesFired := true, resultSlot := true, parkedGen := gen }
  | .put _ val =>
    { kind, sharesFired := true, resultSlot := kind == .sync
      putVal := { source := ⟨op, arm⟩, val }, parkedGen := gen }
  | .default => {}

/-- After phase 2: the default arm, or phases 3 to 6. -/
def altsPark (state : State) (op : OpId) : Option State :=
  let call := state.ops op
  if call.stage = .scanning [] then
    if Arm.default ∈ call.arms then
      some (finish state op { ch := none, arm := none, msg := none, ok := .ok })
    else
      match altsRescan state op call.order with
      | none => none
      | some (state, some result) => some (finish state op result)
      | some (state, none) =>
        let kind := match call.caller with
          | .fiber self => EntryKind.fiber self
          | _ => EntryKind.sync
        some (park state op fun gen arm =>
          match call.arms[arm]? with
          | some spec => altsEntry kind op gen arm spec
          | none => {})
  else none

def entryResult (call : Op) (arm : Nat) : Result :=
  let entry := call.entries arm
  { ch := match call.arms[arm]? with
      | some (.take ch) | some (.put ch _) => some ch
      | _ => none
    arm := some arm
    msg := if entry.resultSlot then entry.cbResult else none
    ok := entry.ok }

def continueCall (state : State) (op : OpId) : State :=
  let call := state.ops op
  if call.select then state.setOp op { call with stage := .resumed call.order none }
  else finish state op (entryResult call 0)

/-- Phase 7: look at one arm, or return with the winner. -/
def altsCancel (state : State) (op : OpId) : Option State :=
  let call := state.ops op
  match call.stage with
  | .resumed (arm :: rest) winner =>
    let entry := call.entries arm
    if entry.woken then
      some (state.setOp op { call with stage := .resumed rest (some arm) })
    else
      some (state.setOp op { call with
        stage := .resumed rest winner
        entries := update call.entries arm { entry with cancelled := true } })
  | .resumed [] (some arm) => some (finish state op (entryResult call arm))
  | .resumed [] none => some (state.setOp op { call with stage := .aborted })
  | _ => none

/-- The worker that ran the fiber finds it suspended and bumps `parked`. -/
def suspend (state : State) (self : FiberId) : Option State :=
  let fiber := state.fibers self
  if fiber.parked % 2 = 1 then some (state.setFiber self { fiber with parked := fiber.parked + 1 })
  else none

/-- A waker leaves `wait_for_fiber_suspended` and posts the fiber, or skips a
stale one. -/
def postFiber (state : State) (self : FiberId) (want : Nat) : Option State :=
  if (self, want) ∈ state.posting then
    let parked := (state.fibers self).parked
    let posting := state.posting.erase (self, want)
    if parked = want then some { state with posting, runQueue := state.runQueue ++ [self] }
    else if parked = 0 ∨ want < parked then some { state with posting }
    else none
  else none

/-- A worker resumes the fiber, which leaves its `mco_yield`. -/
def resume (state : State) (self : FiberId) : Option State :=
  if self ∈ state.runQueue then
    match (state.fibers self).busy with
    | none => none
    | some op =>
      if (state.ops op).stage = .waiting then
        some (continueCall ({ state with runQueue := state.runQueue.erase self }.setFiber self
          { state.fibers self with parked := 0 }) op)
      else none
  else none

def syncResume (state : State) (op : OpId) : Option State :=
  let call := state.ops op
  if call.stage = .waiting ∧ call.caller = .thread ∧ call.ready = true then
    some (continueCall (state.setOp op { call with ready := false }) op)
  else none

def setCloser (state : State) (closer : CloserId) (value : Closer) : State :=
  { state with closers := update state.closers closer value }

def setHook (state : State) (hook : HookId) (value : Hook) : State :=
  { state with hooks := update state.hooks hook value }

def gocClose (state : State) (closer : CloserId) (ch : ChanId) (onLoop : Bool) : Option State :=
  if (state.closers closer).stage = .absent then
    if (state.chans ch).closeGuard = .opened then
      some (setCloser (state.setChan ch { state.chans ch with closeGuard := .requested }) closer
        { ch, stage := if onLoop then .internal else .dispatched })
    else some (setCloser state closer { ch, stage := .done })
  else none

def onCloseDispatch (state : State) (closer : CloserId) : Option State :=
  let ch := (state.closers closer).ch
  if (state.closers closer).stage = .dispatched then
    some (setCloser state closer { ch, stage :=
      if (state.chans ch).closeGuard = .closing then .done else .internal })
  else none

def closeClaim (state : State) (closer : CloserId) : Option State :=
  let ch := (state.closers closer).ch
  let claimed := setCloser (state.setChan ch { state.chans ch with closeGuard := .closing }) closer
    { ch, stage := .claimed }
  match (state.closers closer).stage, (state.chans ch).closeGuard with
  | .internal, .requested => some claimed
  | .internal, .opened => some (setCloser state closer { ch, stage := .retry })
  | .retry, .opened => some claimed
  | .internal, _ | .retry, _ => some (setCloser state closer { ch, stage := .done })
  | _, _ => none

def closeWaiter (state : State) (target : EntryId) : State :=
  if (state.entry target).cancelled then state
  else
    match tryClaimWake state target with
    | (state, false) => state
    | (state, true) =>
      let entry := state.entry target
      let state := state.setEntry target { entry with ok := .closed }
      match entry.kind with
      | .fiber self => { state with posting := state.posting ++ [(self, entry.want)] }
      | .callback =>
        if entry.sharesFired && (state.ops target.op).fired then state
        else postCallback state target none
      | .sync => syncPost state target.op

def closeBody (state : State) (closer : CloserId) : Option State :=
  let ch := (state.closers closer).ch
  if (state.closers closer).stage = .claimed then
    let state := state.setChan ch { state.chans ch with
      closed := true, closeRuns := (state.chans ch).closeRuns + 1 }
    let cancelledFound := ((state.chans ch).takers ++ (state.chans ch).putters).any
      fun entry => (state.entry entry).cancelled
    let state := (state.chans ch).putters.foldl closeWaiter
      ((state.chans ch).takers.foldl closeWaiter state)
    let state := if cancelledFound then compactDeadEntries state ch else state
    some (setCloser (state.setChan ch { state.chans ch with
      takers := [], putters := [], deadCount := 0 }) closer { ch, stage := .unlocked })
  else none

/-- After unlocking, `goc_close_internal` reads the handler and calls it. -/
def closeFinish (state : State) (closer : CloserId) : Option State :=
  let ch := (state.closers closer).ch
  match (state.closers closer).stage with
  | .unlocked =>
    some (setCloser state closer { ch, stage :=
      match (state.chans ch).onClose with
      | some hook => .calling hook
      | none => .done })
  | .calling hook =>
    some (setCloser (setHook state hook
      { state.hooks hook with runs := (state.hooks hook).runs + 1 }) closer
      { ch, stage := .done })
  | _ => none

/-- The section of `chan_set_on_close`; a `NULL` handler only clears. -/
def chanSetOnClose (state : State) (hook : HookId) (ch : ChanId) (null : Bool) : Option State :=
  if (state.hooks hook).stage = .absent then
    if (state.chans ch).closed then
      some (setHook state hook { ch, stage := if null then .done else .calling })
    else
      some (setHook (state.setChan ch { state.chans ch with
        onClose := if null then none else some hook }) hook
        { ch, stage := if null then .done else .installed })
  else none

def callHook (state : State) (hook : HookId) : Option State :=
  let value := state.hooks hook
  if value.stage = .calling then
    some (setHook state hook { value with stage := .done, runs := value.runs + 1 })
  else none

inductive Label where
  | take (op : OpId) (self : FiberId) (ch : ChanId)
  | put (op : OpId) (self : FiberId) (ch : ChanId) (val : Val)
  | takeSync (op : OpId) (ch : ChanId)
  | putSync (op : OpId) (ch : ChanId) (val : Val)
  | takeTry (op : OpId) (ch : ChanId)
  | takeCb (op : OpId) (ch : ChanId)
  | putCb (op : OpId) (ch : ChanId) (val : Val) (hasCb : Bool)
  | drain
  | alts (op : OpId) (caller : Caller) (arms : List Arm) (order : List Nat)
  | altsTry (op : OpId)
  | altsPark (op : OpId)
  | altsCancel (op : OpId)
  | suspend (self : FiberId)
  | post (self : FiberId) (want : Nat)
  | resume (self : FiberId)
  | syncResume (op : OpId)
  | close (closer : CloserId) (ch : ChanId) (onLoop : Bool)
  | closeDispatch (closer : CloserId)
  | closeClaim (closer : CloserId)
  | closeBody (closer : CloserId)
  | closeFinish (closer : CloserId)
  | setOnClose (hook : HookId) (ch : ChanId) (null : Bool)
  | callHook (hook : HookId)
deriving Repr, DecidableEq

def step (state : State) : Label → Option State
  | .take op self ch => gocTake state op self ch
  | .put op self ch val => gocPut state op self ch val
  | .takeSync op ch => gocTakeSync state op ch
  | .putSync op ch val => gocPutSync state op ch val
  | .takeTry op ch => gocTakeTry state op ch
  | .takeCb op ch => gocTakeCb state op ch
  | .putCb op ch val hasCb => gocPutCb state op ch val hasCb
  | .drain => drainCbQueue state
  | .alts op caller arms order => altsBegin state op caller arms order
  | .altsTry op => altsTryImmediate state op
  | .altsPark op => altsPark state op
  | .altsCancel op => altsCancel state op
  | .suspend self => suspend state self
  | .post self want => postFiber state self want
  | .resume self => resume state self
  | .syncResume op => syncResume state op
  | .close closer ch onLoop => gocClose state closer ch onLoop
  | .closeDispatch closer => onCloseDispatch state closer
  | .closeClaim closer => closeClaim state closer
  | .closeBody closer => closeBody state closer
  | .closeFinish closer => closeFinish state closer
  | .setOnClose hook ch null => chanSetOnClose state hook ch null
  | .callHook hook => callHook state hook

/-- Any number of channels, fibers, threads and the loop thread. -/
def system : System State Label where
  initial state := ∃ capacity, state = initialState capacity
  step := step

end Libgoc.Channel
