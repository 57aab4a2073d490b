import Libgoc.Data.SizeT
import Libgoc.Semantics.Execution

namespace Libgoc.Pool

open Libgoc.Data Libgoc.Semantics Function

/-! # Fibers and pool workers

The workers of one pool take fibers from the run queues and resume them; a fiber
parks on channels, yields or ends; wakers claim a parked fiber and post it.  A
step is one access to shared memory: to a run queue, to the state of a coroutine
or to `parked`.  Channels only appear as the place where a fiber waits, and a
run queue is a list.
-/

abbrev WorkerId := Nat
abbrev FiberId := Nat

/-- `mco_state`, and a coroutine that `mco_destroy` has freed. -/
inductive CoState where
  | suspended
  | running
  | dead
  | destroyed
deriving Repr, DecidableEq

/-- The entries of a fiber on the lists of channels: none, not claimed, claimed by
a waker, or unlinked without a claim. -/
inductive Wait where
  | none
  | parked
  | claimed
  | dropped
deriving Repr, DecidableEq

/-- How a fiber last gave up its worker. -/
inductive Departure where
  | start
  | park
  | yield
deriving Repr, DecidableEq

structure Ledger where
  posts : Nat := 0
  resumes : Nat := 0
  yields : Nat := 0
  parks : Nat := 0
  claims : Nat := 0
  wakes : Nat := 0
  destroys : Nat := 0
  subtracted : Nat := 0
deriving Repr, DecidableEq

structure Fiber where
  co : CoState := .suspended
  onStack : Bool := false
  parked : Nat := 0
  parkedGen : Nat := 0
  wait : Wait := .none
  departure : Departure := .start
  homeWorkerIdx : Nat := 0
  ledger : Ledger := {}
deriving Repr, DecidableEq

section

variable (record : Fiber)

def Fiber.posted : Fiber :=
  { record with ledger := { record.ledger with posts := record.ledger.posts + 1 } }

def Fiber.resumed : Fiber :=
  { record with
    co := .running
    onStack := true
    ledger := { record.ledger with resumes := record.ledger.resumes + 1 } }

def Fiber.publishes : Fiber :=
  let gen := record.parked / 2 + 1
  { record with
    parked := 2 * gen + 1
    parkedGen := gen
    wait := .parked
    departure := .park
    ledger := { record.ledger with parks := record.ledger.parks + 1 } }

def Fiber.yields : Fiber :=
  { record with
    departure := .yield
    ledger := { record.ledger with yields := record.ledger.yields + 1 } }

def Fiber.destroyed : Fiber :=
  { record with
    co := .destroyed
    ledger := { record.ledger with destroys := record.ledger.destroys + 1 } }

def Fiber.subtracted : Fiber :=
  { record with ledger := { record.ledger with subtracted := record.ledger.subtracted + 1 } }

def Fiber.claimed : Fiber :=
  { record with
    wait := .claimed
    ledger := { record.ledger with claims := record.ledger.claims + 1 } }

def Fiber.woken : Fiber :=
  { record with
    wait := .none
    ledger := { record.ledger with wakes := record.ledger.wakes + 1 } }

end

/-- What a worker does next in `pool_worker_fn`, or the fiber that runs on it. -/
inductive Stage where
  | idle
  | picked (fiber : FiberId)
  | waking (fiber : FiberId)
  | running (fiber : FiberId)
  | leaving (fiber : FiberId)
  | yielding (fiber : FiberId)
  | ending (fiber : FiberId)
  | returned (fiber : FiberId)
  | settling (fiber : FiberId) (st : CoState)
  | bumping (fiber : FiberId) (st : CoState) (parked : Nat)
  | checking (fiber : FiberId) (st : CoState)
  | uncounting (fiber : FiberId)
deriving Repr, DecidableEq

structure Claim where
  fiber : FiberId
  want : Nat
deriving Repr, DecidableEq

/-- `misresumed` counts the calls of `mco_resume` on a coroutine that is not
suspended or whose stack is still in use. -/
structure State where
  workers : WorkerId → Stage
  fibers : FiberId → Fiber
  fresh : FiberId
  deques : WorkerId → List FiberId
  injectors : WorkerId → List FiberId
  nextPushIdx : Nat
  claims : List Claim
  pending : Nat
  liveCount : Nat
  misresumed : Nat

def initialState : State where
  workers := fun _ => .idle
  fibers := fun _ => {}
  fresh := 0
  deques := fun _ => []
  injectors := fun _ => []
  nextPushIdx := 0
  claims := []
  pending := 0
  liveCount := 0
  misresumed := 0

section

variable (threadCount : Nat) (state : State)

def State.setStage (worker : WorkerId) (stage : Stage) : State :=
  { state with workers := update state.workers worker stage }

def State.setFiber (fiber : FiberId) (record : Fiber) : State :=
  { state with fibers := update state.fibers fiber record }

/-- The worker goes on to another stage, and the record of a fiber changes. -/
def State.turn (worker : WorkerId) (stage : Stage) (fiber : FiberId) (record : Fiber) : State :=
  (state.setFiber fiber record).setStage worker stage

def State.setLive (liveCount : Nat) : State :=
  { state with liveCount }

def State.noteMisresumed (count : Nat) : State :=
  { state with misresumed := state.misresumed + count }

def State.setDeque (worker : WorkerId) (items : List FiberId) : State :=
  { state with deques := update state.deques worker items }

def State.setInjector (worker : WorkerId) (items : List FiberId) : State :=
  { state with injectors := update state.injectors worker items }

def State.setClaims (claims : List Claim) : State :=
  { state with claims }

def wsdqPushBottom (worker : WorkerId) (fiber : FiberId) : State :=
  (state.setFiber fiber (state.fibers fiber).posted).setDeque worker
    (state.deques worker ++ [fiber])

def injectorPush (worker : WorkerId) (fiber : FiberId) : State :=
  (state.setFiber fiber (state.fibers fiber).posted).setInjector worker
    (state.injectors worker ++ [fiber])

/-- `poster` is the worker of the pool whose thread makes the call, if any. -/
def postToRunQueue (poster : Option WorkerId) (fiber : FiberId) : State :=
  match poster with
  | some worker => wsdqPushBottom state worker fiber
  | none =>
    let idx := state.nextPushIdx % threadCount
    injectorPush { state with nextPushIdx := state.nextPushIdx + 1 } idx fiber

/-- `none` stands for the abort on a worker that does not exist. -/
def postToSpecificWorker (poster : Option WorkerId) (workerIdx : WorkerId) (fiber : FiberId) :
    Option State :=
  if threadCount ≤ workerIdx then none
  else if poster = some workerIdx then some (wsdqPushBottom state workerIdx fiber)
  else some (injectorPush state workerIdx fiber)

def poolSubmitSpawn : State :=
  { state with liveCount := sizeT (state.liveCount + 1), pending := state.pending + 1 }

def State.enroll : State :=
  { state with fresh := state.fresh + 1, pending := state.pending - 1 }

/-- `goc_fiber_entry_create` for an accepted request, and its first post; only a
request for one worker sets `home_worker_idx`. -/
def poolDispatchSpawn (poster workerIdx : Option WorkerId) : Option State :=
  if state.pending = 0 then none
  else
    let fiber := state.fresh
    let created := (state.setFiber fiber { homeWorkerIdx := workerIdx.getD 0 }).enroll
    match workerIdx with
    | some idx => postToSpecificWorker threadCount created poster idx fiber
    | none => some (postToRunQueue threadCount created poster fiber)

/-- The slow paths of `goc_take`, `goc_put` and `goc_alts` publish the entries of
the fiber. -/
def park (worker : WorkerId) : Option State :=
  match state.workers worker with
  | .running fiber =>
    some (state.turn worker (.leaving fiber) fiber (state.fibers fiber).publishes)
  | _ => none

/-- After `mco_yield` has returned on a slow path. -/
def clearParked (worker : WorkerId) : Option State :=
  match state.workers worker with
  | .waking fiber =>
    some (state.turn worker (.running fiber) fiber { state.fibers fiber with parked := 0 })
  | _ => none

/-- The worker that `goc_yield` posts to. -/
def yieldTarget (worker homeWorkerIdx : WorkerId) : WorkerId :=
  if 1 < threadCount then (worker + 1) % threadCount else homeWorkerIdx

def gocYield (worker : WorkerId) : Option State :=
  match state.workers worker with
  | .running fiber =>
    let record := state.fibers fiber
    postToSpecificWorker threadCount (state.turn worker (.leaving fiber) fiber record.yields)
      (some worker) (yieldTarget threadCount worker record.homeWorkerIdx) fiber
  | _ => none

/-- What a fiber does when it goes on. -/
def continueStage (departure : Departure) (fiber : FiberId) : Stage :=
  match departure with
  | .park => .waking fiber
  | .start | .yield => .running fiber

/-- The check and the write of `mco_yield`; a coroutine that is not running goes
on. -/
def mcoYield (worker : WorkerId) : Option State :=
  match state.workers worker with
  | .leaving fiber =>
    let record := state.fibers fiber
    if record.co = .running then
      some (state.turn worker (.yielding fiber) fiber { record with co := .suspended })
    else some (state.setStage worker (continueStage record.departure fiber))
  | _ => none

def mcoMainEnd (worker : WorkerId) : Option State :=
  match state.workers worker with
  | .running fiber =>
    some (state.turn worker (.ending fiber) fiber { state.fibers fiber with co := .dead })
  | _ => none

/-- The context switch back to the worker. -/
def mcoJumpout (worker : WorkerId) : Option State :=
  match state.workers worker with
  | .yielding fiber | .ending fiber =>
    some (state.turn worker (.returned fiber) fiber { state.fibers fiber with onStack := false })
  | _ => none

inductive Source where
  | own
  | injector
  | steal (victim : WorkerId)
deriving Repr, DecidableEq

def wsdqPopBottom (worker : WorkerId) : Option State :=
  match (state.deques worker).getLast? with
  | some fiber =>
    some ((state.setDeque worker (state.deques worker).dropLast).setStage worker (.picked fiber))
  | none => none

def injectorPop (worker : WorkerId) : Option State :=
  match state.injectors worker with
  | fiber :: rest => some ((state.setInjector worker rest).setStage worker (.picked fiber))
  | [] => none

def wsdqStealTop (worker victim : WorkerId) : Option State :=
  match state.deques victim with
  | fiber :: rest => some ((state.setDeque victim rest).setStage worker (.picked fiber))
  | [] => none

def pick (worker : WorkerId) (source : Source) : Option State :=
  match state.workers worker, source with
  | .idle, .own => wsdqPopBottom state worker
  | .idle, .injector => injectorPop state worker
  | .idle, .steal victim =>
    if victim < threadCount ∧ victim ≠ worker then wsdqStealTop state worker victim else none
  | _, _ => none

/-- The result of `mco_resume` is not looked at. -/
def mcoResume (worker : WorkerId) : Option State :=
  match state.workers worker with
  | .picked fiber =>
    let record := state.fibers fiber
    if record.co = .suspended then
      some ((state.turn worker (continueStage record.departure fiber) fiber
        record.resumed).noteMisresumed record.onStack.toNat)
    else some ((state.setStage worker (.returned fiber)).noteMisresumed 1)
  | _ => none

def mcoStatus (worker : WorkerId) : Option State :=
  match state.workers worker with
  | .returned fiber => some (state.setStage worker (.settling fiber (state.fibers fiber).co))
  | _ => none

def loadParked (worker : WorkerId) : Option State :=
  match state.workers worker with
  | .settling fiber st =>
    let parked := (state.fibers fiber).parked
    some (state.setStage worker
      (if parked % 2 = 1 then .bumping fiber st parked else .checking fiber st))
  | _ => none

/-- The store that tells wakers that the fiber is suspended. -/
def storeParked (worker : WorkerId) : Option State :=
  match state.workers worker with
  | .bumping fiber st parked =>
    some (state.turn worker (.checking fiber st) fiber
      { state.fibers fiber with parked := parked + 1 })
  | _ => none

/-- A coroutine that is dead is destroyed; otherwise the worker looks for the next
entry. -/
def mcoDestroy (worker : WorkerId) : Option State :=
  match state.workers worker with
  | .checking fiber st =>
    if st = .dead then
      some (state.turn worker (.uncounting fiber) fiber (state.fibers fiber).destroyed)
    else some (state.setStage worker .idle)
  | _ => none

def subtractLive (worker : WorkerId) : Option State :=
  match state.workers worker with
  | .uncounting fiber =>
    some ((state.turn worker .idle fiber (state.fibers fiber).subtracted).setLive
      (subT state.liveCount 1))
  | _ => none

/-- A waker or a closer wins `try_claim_wake` for an entry of the fiber;
`wake_claim` looks at `parked` first. -/
def claimFiber (fiber : FiberId) (checked : Bool) : Option State :=
  let record := state.fibers fiber
  if record.wait = .parked then
    let want := 2 * record.parkedGen + 2
    if checked = true ∧ (record.parked = 0 ∨ want < record.parked) then
      some (state.setFiber fiber { record with wait := .dropped })
    else
      some ((state.setFiber fiber record.claimed).setClaims (state.claims ++ [⟨fiber, want⟩]))
  else none

/-- `goc_take` and `goc_put` post to a run queue; `wake` and `goc_close_internal`
prefer the home worker. -/
def postWoken (poster : Option WorkerId) (toHome : Bool) (fiber : FiberId) : Option State :=
  let homeWorkerIdx := (state.fibers fiber).homeWorkerIdx
  if toHome = true ∧ homeWorkerIdx < threadCount then
    postToSpecificWorker threadCount state poster homeWorkerIdx fiber
  else some (postToRunQueue threadCount state poster fiber)

/-- `wait_for_fiber_suspended` and the post after it; `none` while it spins. -/
def waitForFiberSuspended (index : Nat) (poster : Option WorkerId) (toHome : Bool) : Option State :=
  match state.claims[index]? with
  | some ⟨fiber, want⟩ =>
    let record := state.fibers fiber
    let done := state.setClaims (state.claims.eraseIdx index)
    if record.parked = want then
      postWoken threadCount (done.setFiber fiber record.woken) poster toHome fiber
    else if record.parked = 0 ∨ want < record.parked then some done
    else none
  | none => none

end

inductive Label where
  | submitSpawn
  | dispatchSpawn (poster workerIdx : Option WorkerId)
  | pick (worker : WorkerId) (source : Source)
  | resume (worker : WorkerId)
  | clearParked (worker : WorkerId)
  | park (worker : WorkerId)
  | yield (worker : WorkerId)
  | suspend (worker : WorkerId)
  | finish (worker : WorkerId)
  | jumpout (worker : WorkerId)
  | status (worker : WorkerId)
  | loadParked (worker : WorkerId)
  | storeParked (worker : WorkerId)
  | destroy (worker : WorkerId)
  | subtractLive (worker : WorkerId)
  | claim (fiber : FiberId) (checked : Bool)
  | post (index : Nat) (poster : Option WorkerId) (toHome : Bool)
deriving Repr, DecidableEq

def Label.workers : Label → List WorkerId
  | .submitSpawn | .claim _ _ => []
  | .dispatchSpawn poster _ | .post _ poster _ => poster.toList
  | .pick worker _ | .resume worker | .clearParked worker | .park worker | .yield worker
  | .suspend worker | .finish worker | .jumpout worker | .status worker | .loadParked worker
  | .storeParked worker | .destroy worker | .subtractLive worker => [worker]

def exec (threadCount : Nat) (state : State) : Label → Option State
  | .submitSpawn => some (poolSubmitSpawn state)
  | .dispatchSpawn poster workerIdx => poolDispatchSpawn threadCount state poster workerIdx
  | .pick worker source => pick threadCount state worker source
  | .resume worker => mcoResume state worker
  | .clearParked worker => clearParked state worker
  | .park worker => park state worker
  | .yield worker => gocYield threadCount state worker
  | .suspend worker => mcoYield state worker
  | .finish worker => mcoMainEnd state worker
  | .jumpout worker => mcoJumpout state worker
  | .status worker => mcoStatus state worker
  | .loadParked worker => loadParked state worker
  | .storeParked worker => storeParked state worker
  | .destroy worker => mcoDestroy state worker
  | .subtractLive worker => subtractLive state worker
  | .claim fiber checked => claimFiber state fiber checked
  | .post index poster toHome => waitForFiberSuspended threadCount state index poster toHome

def step (threadCount : Nat) (state : State) (label : Label) : Option State :=
  if label.workers.all fun worker => worker < threadCount then exec threadCount state label
  else none

def system (threadCount : Nat) : System State Label where
  initial state := 0 < threadCount ∧ state = initialState
  step := step threadCount

end Libgoc.Pool
