import Mathlib.Data.List.Basic
import Libgoc.Data.Tally
import Libgoc.Semantics.Execution

namespace Libgoc.Http.Slots

open Libgoc.Data Libgoc.Semantics Function

/-! # The connection slots of the client -/

abbrev RequestId := Nat
abbrev PoolId := Nat

abbrev Endpoint := Nat

structure WorkerPool where
  pool : PoolId
  worker : Nat
deriving Repr, DecidableEq

structure IdleConn where
  owner : WorkerPool
  endpoint : Endpoint
deriving Repr, DecidableEq

inductive Next where
  | retry
  | fail
  | finish
deriving Repr, DecidableEq

/-- The parts of `http_client_fiber` between its operations on the counters and
stacks. -/
inductive Phase where
  | absent
  | start
  | taking
  | acquiring
  | acquired
  | connecting
  | writing
  | reading
  | keeping
  | storing
  | returning
  | dropping (next : Next)
  | failing
  | done
deriving Repr, DecidableEq

/-- What a request did with slots so far. -/
structure Ledger where
  acquired : Nat := 0
  taken : Nat := 0
  released : Nat := 0
  returned : Nat := 0
deriving Repr, DecidableEq

/-- The variables of `http_client_fiber`; `hasConn` says that `req_conn` is set. -/
structure Request where
  phase : Phase := .absent
  pool : PoolId := 0
  endpoint : Endpoint := 0
  keepAlive : Bool := false
  hasConn : Bool := false
  slotAcquired : Bool := false
  usingIdle : Bool := false
  keepaliveRetry : Bool := false
  connectRetry : Bool := false
  ledger : Ledger := {}
deriving Repr, DecidableEq

inductive ConnectError where
  | unresolved
  | timeout
  | addressInUse
  | other
deriving Repr, DecidableEq

inductive Event where
  | cancelled
  | takeIdle (owner : WorkerPool)
  | uncount
  | noIdle
  | acquire
  | giveUp
  | makeConn (made : Bool)
  | connected
  | connectFails (error : ConnectError)
  | written (ok : Bool)
  | noResponse
  | response (canKeep : Bool)
  | room
  | full
  | push (owner : WorkerPool)
  | count
  | release
  | finish
deriving Repr, DecidableEq

inductive Effect where
  | quiet
  | acquire
  | release
  | unlink (owner : WorkerPool) (endpoint : Endpoint)
  | uncountIdle
  | idleBelow
  | idleFull
  | push (conn : IdleConn)
  | countIdle
deriving Repr, DecidableEq

namespace Request

variable (request : Request)

/-- The slot of a stale idle connection is given up before another attempt. -/
def retry : Request :=
  { request with
    phase := .dropping .retry
    hasConn := false
    slotAcquired := false
    usingIdle := false
    keepaliveRetry := true }

def stale : Bool :=
  request.usingIdle && !request.keepaliveRetry

def takes : Request :=
  { request with
    phase := .taking
    hasConn := true
    ledger := { request.ledger with taken := request.ledger.taken + 1 } }

def acquires : Request :=
  { request with
    phase := .acquired
    slotAcquired := true
    ledger := { request.ledger with acquired := request.ledger.acquired + 1 } }

def releases (phase : Phase) : Request :=
  { request with
    phase
    ledger := { request.ledger with released := request.ledger.released + 1 } }

def returns : Request :=
  { request with
    phase := .returning
    hasConn := false
    ledger := { request.ledger with returned := request.ledger.returned + 1 } }

/-- After a failed connect; only errors of `goc_io_tcp_connect` are retried. -/
def connectFailed : ConnectError → Request
  | .unresolved => { request with phase := .failing }
  | .timeout =>
    if request.stale then request.retry else { request with phase := .failing }
  | .addressInUse =>
    if request.stale then request.retry
    else if request.connectRetry then { request with phase := .failing }
    else { request with phase := .start, connectRetry := true }
  | .other =>
    if request.stale then request.retry else { request with phase := .failing }

/-- Without a response the connection is closed. -/
def missingResponse : Request :=
  if request.stale then request.retry
  else if request.usingIdle then
    { request with phase := .dropping .fail, hasConn := false, slotAcquired := false }
  else { request with phase := .failing }

end Request

def Next.phase : Next → Phase
  | .retry => .start
  | .fail => .failing
  | .finish => .done

/-- One event of `http_client_fiber`. -/
def Request.respond (request : Request) (event : Event) : Option (Request × Effect) :=
  match request.phase, event with
  | .start, .cancelled | .connecting, .cancelled | .writing, .cancelled
  | .acquiring, .giveUp => some ({ request with phase := .failing }, .quiet)
  | .start, .takeIdle owner =>
    if request.keepAlive ∧ owner.pool = request.pool then
      some (request.takes, .unlink owner request.endpoint)
    else none
  | .start, .noIdle => some ({ request with phase := .acquiring }, .quiet)
  | .taking, .uncount =>
    some ({ request with phase := .writing, slotAcquired := true, usingIdle := true }, .uncountIdle)
  | .acquiring, .acquire => some (request.acquires, .acquire)
  | .acquired, .makeConn made =>
    if request.hasConn || made then
      some ({ request with phase := .connecting, hasConn := true }, .quiet)
    else some (request.releases .failing, .release)
  | .connecting, .connected => some ({ request with phase := .writing }, .quiet)
  | .connecting, .connectFails error => some (request.connectFailed error, .quiet)
  | .writing, .written ok =>
    some (if ok then { request with phase := .reading }
      else if request.stale then request.retry
      else { request with phase := .failing }, .quiet)
  | .reading, .noResponse => some (request.missingResponse, .quiet)
  | .reading, .response canKeep =>
    some (if request.keepAlive && canKeep then { request with phase := .keeping }
      else { request with phase := .dropping .finish }, .quiet)
  | .keeping, .room => some ({ request with phase := .storing }, .idleBelow)
  | .keeping, .full => some ({ request with phase := .dropping .finish }, .idleFull)
  | .storing, .push owner =>
    if owner.pool = request.pool then
      some (request.returns, .push { owner, endpoint := request.endpoint })
    else none
  | .returning, .count => some ({ request with phase := .done }, .countIdle)
  | .dropping next, .release => some (request.releases next.phase, .release)
  | .failing, .release =>
    if request.slotAcquired then some (request.releases .done, .release) else none
  | .failing, .finish =>
    if request.slotAcquired then none else some ({ request with phase := .done }, .quiet)
  | _, _ => none

/-- `sweeping` counts the connections that sweeps have unlinked, `swept` those they
have subtracted from the idle ones and have still to release. -/
structure State where
  total : Nat := 0
  idle : Int := 0
  idleStacks : List IdleConn := []
  requests : RequestId → Request := fun _ => {}
  started : Nat := 0
  sweeping : Nat := 0
  swept : Nat := 0
  destroyed : PoolId → Bool := fun _ => false

def maxConnections : Nat := 64

def IdleConn.fits (owner : WorkerPool) (endpoint : Endpoint) (conn : IdleConn) : Bool :=
  conn.owner == owner && conn.endpoint == endpoint

/-- The operations on counters and stacks; the stack of a destroyed pool is freed
memory. -/
def Effect.apply (state : State) : Effect → Option State
  | .quiet => some state
  | .acquire =>
    if state.total < maxConnections then some { state with total := state.total + 1 } else none
  | .release => some { state with total := state.total - 1 }
  | .unlink owner endpoint =>
    if !state.destroyed owner.pool && state.idleStacks.any (IdleConn.fits owner endpoint) then
      some { state with idleStacks := state.idleStacks.eraseP (IdleConn.fits owner endpoint) }
    else none
  | .uncountIdle => some { state with idle := state.idle - 1 }
  | .idleBelow => if state.idle < maxConnections then some state else none
  | .idleFull => if state.idle < maxConnections then none else some state
  | .push conn =>
    if state.destroyed conn.owner.pool then none
    else some { state with idleStacks := conn :: state.idleStacks }
  | .countIdle => some { state with idle := state.idle + 1 }

def State.setRequest (state : State) (id : RequestId) (request : Request) : State :=
  { state with requests := update state.requests id request }

inductive Label where
  | begin (pool : PoolId) (endpoint : Endpoint) (keepAlive : Bool)
  | request (id : RequestId) (event : Event)
  | sweepUnlink (index : Nat)
  | sweepUncount
  | sweepRelease
  | destroyPool (pool : PoolId)
deriving Repr, DecidableEq

def State.begin (state : State) (pool : PoolId) (endpoint : Endpoint) (keepAlive : Bool) :
    State :=
  { state.setRequest state.started { phase := .start, pool, endpoint, keepAlive } with
    started := state.started + 1 }

def step (state : State) : Label → Option State
  | .begin pool endpoint keepAlive => some (state.begin pool endpoint keepAlive)
  | .request id event =>
    match (state.requests id).respond event with
    | none => none
    | some (request, effect) => effect.apply (state.setRequest id request)
  | .sweepUnlink index =>
    if index < state.idleStacks.length then
      some { state with idleStacks := state.idleStacks.eraseIdx index, sweeping := state.sweeping + 1 }
    else none
  | .sweepUncount =>
    if 0 < state.sweeping then
      some { state with
        idle := state.idle - 1, sweeping := state.sweeping - 1, swept := state.swept + 1 }
    else none
  | .sweepRelease =>
    if 0 < state.swept then
      some { state with total := state.total - 1, swept := state.swept - 1 }
    else none
  | .destroyPool pool =>
    -- `http_client_cleanup_worker_pool` closes and frees, but does not count
    some { state with
      idleStacks := state.idleStacks.filter fun conn => conn.owner.pool != pool
      destroyed := update state.destroyed pool true }

def system : System State Label where
  initial state := state = {}
  step := step

namespace Request

def slots (request : Request) : Nat :=
  match request.phase with
  | .absent | .start | .acquiring | .returning | .done => 0
  | .taking | .acquired | .connecting | .writing | .reading | .keeping | .storing
  | .dropping _ => 1
  | .failing => request.slotAcquired.toNat

/-- The connection is off its stack and still counted as idle. -/
def unlinked (request : Request) : Nat :=
  if request.phase = .taking then 1 else 0

/-- The connection is on a stack and not yet counted as idle. -/
def uncounted (request : Request) : Nat :=
  if request.phase = .returning then 1 else 0

/-- `keepalive_slot_acquired` is set exactly while the request holds a slot that
`deliver_error` has to release. -/
def Sound (request : Request) : Prop :=
  match request.phase with
  | .start | .acquiring | .dropping .retry | .dropping .fail => request.slotAcquired = false
  | .acquired | .connecting | .writing | .reading | .keeping | .storing =>
    request.slotAcquired = true
  | _ => True

/-- What was acquired or taken has been released or returned, or is held. -/
def Settled (request : Request) : Prop :=
  request.ledger.acquired + request.ledger.taken =
    request.ledger.released + request.ledger.returned + request.slots

end Request

/-- The two events after which a request loses count: a retry after an address
error keeps the slot, and a connection that cannot be allocated releases it twice. -/
def Event.Benign (request : Request) : Event → Prop
  | .connectFails .addressInUse =>
    request.phase = .connecting → request.stale = true ∨ request.connectRetry = true
  | .makeConn made => made = true ∨ request.hasConn = true
  | _ => True

instance (request : Request) (event : Event) : Decidable (event.Benign request) := by
  cases event with
  | connectFails error => cases error <;> unfold Event.Benign <;> infer_instance
  | _ => unfold Event.Benign; infer_instance

namespace Effect

@[simp] def gained : Effect → Nat
  | .acquire | .unlink _ _ => 1
  | _ => 0

@[simp] def lost : Effect → Nat
  | .release | .push _ => 1
  | _ => 0

@[simp] def unlinks : Effect → Nat
  | .unlink _ _ => 1
  | _ => 0

@[simp] def uncounts : Effect → Nat
  | .uncountIdle => 1
  | _ => 0

@[simp] def pushes : Effect → Nat
  | .push _ => 1
  | _ => 0

@[simp] def counts : Effect → Nat
  | .countIdle => 1
  | _ => 0

end Effect

/-- An event changes what a request holds by what it does to the counters and
stacks. -/
structure Balanced (request after : Request) (effect : Effect) : Prop where
  sound : after.Sound
  slots : after.slots + effect.lost = request.slots + effect.gained
  unlinked : after.unlinked + effect.uncounts = request.unlinked + effect.unlinks
  uncounted : after.uncounted + effect.counts = request.uncounted + effect.pushes
  settled : request.Settled → after.Settled

/-- The request moves on without an operation on a slot. -/
theorem Balanced.quiet (sound : after.Sound)
    (neutral : effect = .quiet ∨ effect = .idleBelow ∨ effect = .idleFull)
    (slots : after.slots = request.slots)
    (unlinked : request.phase ≠ .taking ∧ after.phase ≠ .taking)
    (uncounted : request.phase ≠ .returning ∧ after.phase ≠ .returning)
    (ledger : after.ledger = request.ledger) : Balanced request after effect := by
  rcases neutral with rfl | rfl | rfl <;>
  exact {
    sound
    slots := slots
    unlinked := by simp [Request.unlinked, unlinked, Effect.uncounts, Effect.unlinks]
    uncounted := by simp [Request.uncounted, uncounted, Effect.counts, Effect.pushes]
    settled := by simp [Request.Settled, ledger, slots] }

theorem Request.fail_balanced
    (phase : request.phase ∈ [.start, .acquiring, .connecting, .writing, .reading])
    (sound : request.Sound) : Balanced request { request with phase := .failing } .quiet := by
  simp only [List.mem_cons, List.not_mem_nil, or_false] at phase
  rcases phase with phase | phase | phase | phase | phase <;>
  · simp only [Request.Sound, phase] at sound
    apply Balanced.quiet <;> simp [Request.Sound, Request.slots, phase, sound]

theorem Request.retry_balanced (phase : request.phase ∈ [.connecting, .writing, .reading]) :
    Balanced request request.retry .quiet := by
  simp only [List.mem_cons, List.not_mem_nil, or_false] at phase
  rcases phase with phase | phase | phase <;>
    apply Balanced.quiet <;> simp [Request.Sound, Request.slots, Request.retry, phase]

theorem Request.release_balanced {phase : Phase}
    (sound : (request.releases phase).Sound) (held : request.slots = 1)
    (free : (request.releases phase).slots = 0)
    (unlinked : request.phase ≠ .taking ∧ phase ≠ .taking)
    (uncounted : request.phase ≠ .returning ∧ phase ≠ .returning) :
    Balanced request (request.releases phase) .release where
  sound := sound
  slots := by rw [held, free]; rfl
  unlinked := by
    simp [Request.unlinked, Request.releases, unlinked, Effect.uncounts, Effect.unlinks]
  uncounted := by
    simp [Request.uncounted, Request.releases, uncounted, Effect.counts, Effect.pushes]
  settled := by
    simp only [Request.Settled, held, free]
    simp only [Request.releases]
    omega

theorem Request.connectFailed_balanced (phase : request.phase = .connecting) (sound : request.Sound)
    (benign : (Event.connectFails error).Benign request) :
    Balanced request (request.connectFailed error) .quiet := by
  have fails := request.fail_balanced (by simp [phase]) sound
  have retries := request.retry_balanced (by simp [phase])
  cases error with
  | unresolved => exact fails
  | timeout | other =>
    simp only [Request.connectFailed]
    split
    · exact retries
    · exact fails
  | addressInUse =>
    simp only [Request.connectFailed]
    split
    · exact retries
    · rename_i fresh
      have again := (benign phase).resolve_left fresh
      rw [if_pos again]
      exact fails

theorem Request.missingResponse_balanced (phase : request.phase = .reading)
    (sound : request.Sound) : Balanced request request.missingResponse .quiet := by
  unfold Request.missingResponse
  split
  · exact request.retry_balanced (by simp [phase])
  · split
    · apply Balanced.quiet <;> simp [Request.Sound, Request.slots, phase]
    · exact request.fail_balanced (by simp [phase]) sound

theorem Request.respond_balanced (sound : request.Sound) (benign : event.Benign request)
    (responded : request.respond event = some (after, effect)) :
    Balanced request after effect := by
  unfold Request.respond at responded
  split at responded
  -- cancelled or out of patience
  iterate 4
    rename_i phase
    cases responded
    exact request.fail_balanced (by simp [phase]) sound
  · rename_i owner phase
    split at responded
    · cases responded
      constructor
      · simp [Request.Sound, Request.takes]
      · simp [Request.slots, Request.takes, phase, Effect.lost, Effect.gained]
      · simp [Request.unlinked, Request.takes, phase, Effect.uncounts, Effect.unlinks]
      · simp [Request.uncounted, Request.takes, phase, Effect.counts, Effect.pushes]
      · simp only [Request.Settled, Request.slots, Request.takes, phase]
        omega
    · cases responded
  -- no idle connection
  · rename_i phase
    cases responded
    simp only [Request.Sound, phase] at sound
    apply Balanced.quiet <;> simp [Request.Sound, Request.slots, phase, sound]
  -- the idle connection is no longer counted
  · rename_i phase
    cases responded
    constructor <;> simp [Request.Sound, Request.slots, Request.unlinked, Request.uncounted,
      Request.Settled, phase, Effect.lost, Effect.gained, Effect.uncounts, Effect.unlinks,
      Effect.counts, Effect.pushes]
  -- a slot
  · rename_i phase
    cases responded
    constructor
    · simp [Request.Sound, Request.acquires]
    · simp [Request.slots, Request.acquires, phase, Effect.lost, Effect.gained]
    · simp [Request.unlinked, Request.acquires, phase, Effect.uncounts, Effect.unlinks]
    · simp [Request.uncounted, Request.acquires, phase, Effect.counts, Effect.pushes]
    · simp only [Request.Settled, Request.slots, Request.acquires, phase]
      omega
  -- the connection for the slot
  · rename_i made phase
    have made : (request.hasConn || made) = true := by
      rcases benign with yes | yes <;> simp [yes]
    rw [if_pos made] at responded
    cases responded
    simp only [Request.Sound, phase] at sound
    apply Balanced.quiet <;> simp [Request.Sound, Request.slots, phase, sound]
  · rename_i phase
    cases responded
    simp only [Request.Sound, phase] at sound
    apply Balanced.quiet <;> simp [Request.Sound, Request.slots, phase, sound]
  · rename_i error phase
    cases responded
    exact request.connectFailed_balanced phase sound benign
  · rename_i ok phase
    cases responded
    split
    · simp only [Request.Sound, phase] at sound
      apply Balanced.quiet <;> simp [Request.Sound, Request.slots, phase, sound]
    · split
      · exact request.retry_balanced (by simp [phase])
      · exact request.fail_balanced (by simp [phase]) sound
  · rename_i phase
    cases responded
    exact request.missingResponse_balanced phase sound
  · rename_i canKeep phase
    cases responded
    simp only [Request.Sound, phase] at sound
    split <;> apply Balanced.quiet <;> simp [Request.Sound, Request.slots, phase, sound]
  · rename_i phase
    cases responded
    simp only [Request.Sound, phase] at sound
    apply Balanced.quiet <;> simp [Request.Sound, Request.slots, phase, sound]
  · rename_i phase
    cases responded
    apply Balanced.quiet <;> simp [Request.Sound, Request.slots, phase]
  -- the connection goes to a stack
  · rename_i owner phase
    split at responded
    · cases responded
      constructor
      · simp [Request.Sound, Request.returns]
      · simp [Request.slots, Request.returns, phase, Effect.lost, Effect.gained]
      · simp [Request.unlinked, Request.returns, phase, Effect.uncounts, Effect.unlinks]
      · simp [Request.uncounted, Request.returns, phase, Effect.counts, Effect.pushes]
      · simp only [Request.Settled, Request.slots, Request.returns, phase]
        omega
    · cases responded
  · rename_i phase
    cases responded
    constructor <;> simp [Request.Sound, Request.slots, Request.unlinked, Request.uncounted,
      Request.Settled, phase, Effect.lost, Effect.gained, Effect.uncounts, Effect.unlinks,
      Effect.counts, Effect.pushes]
  -- the slot is given back
  · rename_i next phase
    cases responded
    cases next with
    | retry | fail =>
      simp only [Request.Sound, phase] at sound
      apply Request.release_balanced <;>
        simp [Request.Sound, Request.slots, Request.releases, Next.phase, phase, sound]
    | finish =>
      apply Request.release_balanced <;>
        simp [Request.Sound, Request.slots, Request.releases, Next.phase, phase]
  · rename_i phase
    split at responded
    · rename_i held
      cases responded
      apply Request.release_balanced <;>
        simp [Request.Sound, Request.slots, Request.releases, phase, held]
    · cases responded
  · rename_i phase
    split at responded
    · cases responded
    · rename_i free
      cases responded
      apply Balanced.quiet <;> simp [Request.Sound, Request.slots, phase, free]
  · cases responded

/-- The counters count the slots of requests, stacks and sweeps. -/
structure Accounts (state : State) : Prop where
  sound : ∀ id, (state.requests id).Sound
  settled : ∀ id, (state.requests id).Settled
  absent : ∀ id, state.started ≤ id → state.requests id = {}
  total : state.total = tally Request.slots state.requests state.started +
    state.idleStacks.length + state.sweeping + state.swept
  idle : state.idle + tally Request.uncounted state.requests state.started =
    state.idleStacks.length + tally Request.unlinked state.requests state.started + state.sweeping

/-- The events of requests are benign, and a pool is destroyed when none of its
connections is idle. -/
def Careful (state : State) : Label → Prop
  | .request id event => event.Benign (state.requests id)
  | .destroyPool pool => ∀ conn ∈ state.idleStacks, conn.owner.pool ≠ pool
  | _ => True

instance (state : State) (label : Label) : Decidable (Careful state label) := by
  cases label <;> unfold Careful <;> infer_instance

variable {state after : State}

theorem accounts_initial : Accounts {} where
  sound _ := trivial
  settled _ := rfl
  absent _ _ := rfl
  total := rfl
  idle := rfl

/-- What an operation does to the counters and the stacks. -/
structure Applied (state after : State) (effect : Effect) : Prop where
  requests : after.requests = state.requests
  started : after.started = state.started
  sweeping : after.sweeping = state.sweeping
  swept : after.swept = state.swept
  total : effect.lost ≤ state.total + effect.pushes →
    after.total + effect.lost + effect.unlinks = state.total + effect.gained + effect.pushes
  idle : after.idle + effect.uncounts = state.idle + effect.counts
  stacked : after.idleStacks.length + effect.unlinks = state.idleStacks.length + effect.pushes

theorem Effect.apply_applied (applied : effect.apply state = some after) :
    Applied state after effect := by
  cases effect with
  | quiet | uncountIdle | countIdle =>
    cases applied
    constructor <;> simp
  | release =>
    cases applied
    refine ⟨rfl, rfl, rfl, rfl, fun held => ?_, by simp, by simp⟩
    exact Nat.sub_add_cancel held
  | acquire | idleBelow | idleFull | push =>
    simp only [Effect.apply] at applied
    split at applied
    all_goals
      cases applied <;>
      constructor <;> simp
  | unlink owner endpoint =>
    obtain ⟨found, rfl⟩ := guarded applied
    simp only [Bool.and_eq_true, List.any_eq_true] at found
    obtain ⟨conn, member, fits⟩ := found.2
    refine ⟨rfl, rfl, rfl, rfl, by simp, by simp, ?_⟩
    exact List.length_eraseP_add_one member fits

theorem Accounts.responded (accounts : Accounts state) {id : RequestId}
    (benign : event.Benign (state.requests id))
    (responded : (state.requests id).respond event = some (request, effect))
    (applied : effect.apply (state.setRequest id request) = some after) : Accounts after := by
  have balanced := Request.respond_balanced (accounts.sound id) benign responded
  have applied := Effect.apply_applied applied
  have known : id < state.started := by
    by_contra beyond
    rw [accounts.absent id (Nat.le_of_not_lt beyond)] at responded
    cases responded
  have move : ∀ measure : Request → Nat,
      tally measure (update state.requests id request) state.started +
        measure (state.requests id) =
      tally measure state.requests state.started + measure request :=
    fun measure => tally_update known
  have requests : after.requests = update state.requests id request := applied.requests
  have started : after.started = state.started := applied.started
  have other : ∀ {index}, index ≠ id → after.requests index = state.requests index := by
    intro index different
    rw [requests, update_of_ne different]
  have own : after.requests id = request := by rw [requests, update_self]
  exact {
    sound := by
      intro index
      by_cases same : index = id
      · rw [same, own]
        exact balanced.sound
      · rw [other same]
        exact accounts.sound index
    settled := by
      intro index
      by_cases same : index = id
      · rw [same, own]
        exact balanced.settled (accounts.settled id)
      · rw [other same]
        exact accounts.settled index
    absent := by
      intro index beyond
      rw [started] at beyond
      rw [other (Nat.ne_of_gt (Nat.lt_of_lt_of_le known beyond))]
      exact accounts.absent index beyond
    total := by
      have held : effect.lost ≤ state.total + effect.pushes := by
        have counted : (state.requests id).slots ≤
            tally Request.slots state.requests state.started := le_tally known
        have slots := balanced.slots
        have total := accounts.total
        have either : effect.gained = 0 ∨ effect.lost = 0 := by cases effect <;> simp
        omega
      have total := applied.total held
      have stacked := applied.stacked
      have moved := move Request.slots
      have slots := balanced.slots
      have before := accounts.total
      rw [requests, started, applied.sweeping, applied.swept]
      simp only [State.setRequest] at total stacked ⊢
      omega
    idle := by
      have idle := applied.idle
      have stacked := applied.stacked
      have unlinked := move Request.unlinked
      have uncounted := move Request.uncounted
      have before := accounts.idle
      have balancedUnlinked := balanced.unlinked
      have balancedUncounted := balanced.uncounted
      rw [requests, started, applied.sweeping]
      simp only [State.setRequest] at idle stacked ⊢
      omega }

theorem Accounts.begun (accounts : Accounts state) (pool : PoolId) (endpoint : Endpoint)
    (keepAlive : Bool) : Accounts (state.begin pool endpoint keepAlive) := by
  have fresh : ∀ measure : Request → Nat,
      measure { phase := .start, pool, endpoint, keepAlive } = 0 →
      tally measure (state.begin pool endpoint keepAlive).requests (state.started + 1) =
        tally measure state.requests state.started := by
    intro measure none
    simp only [State.begin, State.setRequest, tally_succ, update_self, none, Nat.add_zero]
    exact tally_update_beyond (Nat.le_refl _)
  have own : ∀ index, (state.begin pool endpoint keepAlive).requests index =
      if index = state.started then { phase := .start, pool, endpoint, keepAlive }
      else state.requests index := by
    intro index
    simp only [State.begin, State.setRequest, update_apply]
  exact {
    sound := by
      intro index
      rw [own]
      split
      · rfl
      · exact accounts.sound index
    settled := by
      intro index
      rw [own]
      split
      · rfl
      · exact accounts.settled index
    absent := by
      intro index beyond
      rw [own, if_neg (Nat.ne_of_gt beyond)]
      exact accounts.absent index (Nat.le_of_succ_le beyond)
    total := by
      have slots := fresh Request.slots rfl
      have before := accounts.total
      simp only [State.begin] at slots ⊢
      rw [slots]
      exact before
    idle := by
      have unlinked := fresh Request.unlinked rfl
      have uncounted := fresh Request.uncounted rfl
      have before := accounts.idle
      simp only [State.begin] at unlinked uncounted ⊢
      rw [unlinked, uncounted]
      exact before }

theorem Accounts.stepped (accounts : Accounts state)
    (careful : Careful state label) (stepped : step state label = some after) :
    Accounts after := by
  cases label with
  | begin pool endpoint keepAlive =>
    cases stepped
    exact accounts.begun pool endpoint keepAlive
  | request id event =>
    simp only [step] at stepped
    split at stepped
    · cases stepped
    · rename_i request effect responded
      exact accounts.responded careful responded stepped
  | sweepUnlink index =>
    simp only [step] at stepped
    split at stepped
    · rename_i inside
      cases stepped
      have fewer := List.length_eraseIdx_add_one inside
      have total := accounts.total
      have idle := accounts.idle
      refine ⟨accounts.sound, accounts.settled, accounts.absent, ?_, ?_⟩
      · simp only
        omega
      · simp only
        omega
    · cases stepped
  | sweepUncount =>
    simp only [step] at stepped
    split at stepped
    · cases stepped
      have total := accounts.total
      have idle := accounts.idle
      refine ⟨accounts.sound, accounts.settled, accounts.absent, ?_, ?_⟩
      · simp only
        omega
      · simp only
        omega
    · cases stepped
  | sweepRelease =>
    simp only [step] at stepped
    split at stepped
    · cases stepped
      have total := accounts.total
      refine ⟨accounts.sound, accounts.settled, accounts.absent, ?_, accounts.idle⟩
      simp only
      omega
    · cases stepped
  | destroyPool pool =>
    cases stepped
    have all : state.idleStacks.filter (fun conn => conn.owner.pool != pool) =
        state.idleStacks := by
      apply List.filter_eq_self.mpr
      intro conn member
      simpa using careful conn member
    refine ⟨accounts.sound, accounts.settled, accounts.absent, ?_, ?_⟩
    · simp only [all]
      exact accounts.total
    · simp only [all]
      exact accounts.idle

/-- In every careful run the counters are right and every request settles its
account; between requests and sweeps all connections are idle ones. -/
theorem slots_accounted (state : State) (reachable : system.ReachableWith Careful state) :
    state.total = tally Request.slots state.requests state.started +
        state.idleStacks.length + state.sweeping + state.swept ∧
      state.idle + tally Request.uncounted state.requests state.started =
        state.idleStacks.length + tally Request.unlinked state.requests state.started +
          state.sweeping ∧
      (∀ id, (state.requests id).Settled) ∧
      ((∀ id < state.started, (state.requests id).phase = .done) → state.sweeping = 0 →
        state.swept = 0 → state.total = state.idle ∧ state.idle = state.idleStacks.length) := by
  have accounts : Accounts state := by
    apply reachable.invariant
    · intro start initial
      cases initial
      exact accounts_initial
    · intro before label after accounts careful stepped
      exact accounts.stepped careful stepped
  refine ⟨accounts.total, accounts.idle, accounts.settled, ?_⟩
  intro finished sweeping swept
  have none : ∀ measure : Request → Nat, (∀ request : Request, request.phase = .done →
      measure request = 0) → tally measure state.requests state.started = 0 := by
    intro measure free
    apply Finset.sum_eq_zero
    intro id within
    exact free _ (finished id (Finset.mem_range.mp within))
  have total := accounts.total
  have idle := accounts.idle
  rw [none Request.slots (fun request done => by simp [Request.slots, done])] at total
  rw [none Request.uncounted (fun request done => by simp [Request.uncounted, done]),
    none Request.unlinked (fun request done => by simp [Request.unlinked, done])] at idle
  omega

/-- One request leaves its connection idle, a second one uses it up. -/
def handedOnRun : List Label :=
  [.begin 0 7 true, .request 0 .noIdle, .request 0 .acquire, .request 0 (.makeConn true),
    .request 0 .connected, .request 0 (.written true), .request 0 (.response true),
    .request 0 .room, .request 0 (.push ⟨0, 1⟩), .request 0 .count, .begin 0 7 true,
    .request 1 (.takeIdle ⟨0, 1⟩), .request 1 .uncount, .request 1 (.written true),
    .request 1 (.response false), .request 1 .release]

theorem handedOnRun_accounted : ∃ state, system.runWith Careful {} handedOnRun = some state ∧
    state.total = state.idle ∧ state.idle = state.idleStacks.length := by
  refine ⟨_, rfl, ?_⟩
  exact (slots_accounted _ (.of_run system Careful handedOnRun rfl rfl)).2.2.2 (by decide) rfl rfl

/-- The connect fails because of the local address and succeeds on the second
attempt. -/
def addressRetryRun : List Label :=
  [.begin 0 7 false, .request 0 .noIdle, .request 0 .acquire, .request 0 (.makeConn true),
    .request 0 (.connectFails .addressInUse), .request 0 .noIdle, .request 0 .acquire,
    .request 0 (.makeConn true), .request 0 .connected, .request 0 (.written true),
    .request 0 (.response true), .request 0 .release]

theorem address_retry_leaks_slot : ∃ state, system.run {} addressRetryRun = some state ∧
    system.Reachable state ∧ (∀ id < state.started, (state.requests id).phase = .done) ∧
    state.total = 1 ∧ state.idle = 0 ∧ state.idleStacks = [] := by
  refine ⟨_, rfl, .of_run system addressRetryRun rfl rfl, ?_, ?_, ?_, ?_⟩
  · decide
  · rfl
  · rfl
  · rfl

end Libgoc.Http.Slots
