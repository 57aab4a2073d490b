import Libgoc.Io.Port
import Libgoc.Semantics.Execution

namespace Libgoc.Io.ServerStream

/-! # Server streams and their accept channel -/

open Semantics

inductive Data where
  | null
  | wrapper
  | ctx
deriving DecidableEq, Repr

/-- The states of a wrapper; `GOC_H_QUEUED` is passed through within the call that
requests the close. -/
inductive HandleState where
  | opened
  | closing
  | closed
deriving DecidableEq, Repr

/-- What a connection callback meets: an error status, a client handle that cannot
be initialised, a failed `uv_accept`, or a connection. -/
inductive Arrival where
  | failed
  | initFails
  | acceptFails
  | accepted
deriving DecidableEq, Repr

/-- `wrapperState` and `registered` are of the wrapper of the server handle,
`uvClosing` and `closeRan` say that `uv_close` was called and that its callback has
run.  `teardown` is set while the loop thread of the handle drops the buffered
connections before it closes the accept channel, with whether it then clears
`data`.  `cleanups` counts the queued `on_server_stream_close_cleanup` tasks.
`clients` are the handles of the connections, which the accept channel carries by
their places. -/
structure State where
  isTcp : Bool
  onLoop : Bool
  data : Data
  registered : Bool
  wrapperState : HandleState
  uvClosing : Bool
  closeRan : Bool
  dispatched : Bool
  listening : Bool
  teardown : Option Bool
  cleanups : Nat
  clients : List HandleState
  accept : Port Nat Nat

/-- A server stream on a handle that was initialised and is not closing. -/
def gocIoServerMake (isTcp onLoop : Bool) (backlog : Int) : State where
  isTcp
  onLoop
  data := .wrapper
  registered := true
  wrapperState := .opened
  uvClosing := false
  closeRan := false
  dispatched := false
  listening := false
  teardown := none
  cleanups := 0
  clients := []
  accept := .gocChanMake (if backlog > 0 then backlog.toNat else 16)

def gocIoTcpServerMake (onLoop : Bool) (backlog : Int) : State :=
  gocIoServerMake true onLoop backlog

def gocIoPipeServerMake (onLoop : Bool) (backlog : Int) : State :=
  gocIoServerMake false onLoop backlog

def gocIoHandleRequestClose (clients : List HandleState) (client : Nat) : List HandleState :=
  clients.modify client fun
    | .opened => .closing
    | state => state

/-- Requests the close of a connection that was dropped, if there is one. -/
def drop (clients : List HandleState) : Option Nat → List HandleState
  | some client => gocIoHandleRequestClose clients client
  | none => clients

/-- `uv_listen` refuses a handle that is closing. -/
def onServerMakeDispatch (state : State) (rc : Int) : Option State :=
  if state.dispatched then none
  else if rc < 0 then
    some { state with dispatched := true, data := .ctx, teardown := some true }
  else if state.uvClosing then none
  else some { state with dispatched := true, data := .ctx, listening := true }

def onServerConnection (state : State) (arrival : Arrival) : Option State :=
  if state.listening = false ∨ state.uvClosing then none
  else match state.data with
    | .wrapper => none
    | .null => some state
    | .ctx =>
      match arrival with
      | .failed => some { state with teardown := some true }
      | .initFails =>
        if state.isTcp then some { state with teardown := some true }
        else some { state with accept := state.accept.gocClose state.onLoop, data := .null }
      | .acceptFails => some { state with clients := state.clients ++ [.closing] }
      | .accepted =>
        if state.accept.gocChanIsOpen then
          some { state with
            clients := state.clients ++ [.opened]
            accept := state.accept.gocPutCb state.clients.length }
        else some { state with clients := state.clients ++ [.closing] }

/-- One turn of `drop_buffered_accept_connections`, or the close of the accept
channel after the last one. -/
def teardownNext (state : State) : Option State :=
  match state.teardown with
  | none => none
  | some clears =>
    match state.accept.chanTakeFromBuffer with
    | some (client, accept) =>
      -- A connection whose wrapper is gone from the registry aborts the process.
      if state.clients[client]? = some .closed then none
      else some { state with accept, clients := gocIoHandleRequestClose state.clients client }
    | none =>
      some { state with
        accept := state.accept.gocClose state.onLoop
        data := if clears then .null else state.data
        teardown := none }

def gocIoHandleClose (state : State) : State :=
  match state.wrapperState with
  | .opened => { state with wrapperState := .closing }
  | _ => state

/-- The task queued by the close of the handle, up to `uv_close`. -/
def onHandleCloseDispatch (state : State) : Option State :=
  if state.wrapperState ≠ .closing ∨ state.uvClosing then none
  else
    let data :=
      match state.data with
      | .ctx => .ctx
      | _ => if state.registered then .wrapper else .null
    some { state with data, uvClosing := true }

def registryFind (state : State) : Data :=
  if state.registered then .wrapper else .null

def isGocIoHandleWrapper (state : State) (data : Data) : Bool :=
  data = .wrapper && state.registered

/-- What the close callback takes `handle->data` for: data that is no registered
wrapper is replaced by the wrapper that the registry has for the handle. -/
def closeData (state : State) : Data :=
  if isGocIoHandleWrapper state state.data then state.data
  else if registryFind state ≠ .null then registryFind state
  else state.data

def onGocIoHandleClose (state : State) : Option State :=
  if state.uvClosing = false ∨ state.closeRan then none
  else
    match closeData state with
    | .null => some { state with data := registryFind state, closeRan := true }
    | .ctx =>
      some { state with
        data := registryFind state, closeRan := true, cleanups := state.cleanups + 1 }
    | .wrapper =>
      if state.registered then
        some { state with
          data := .null, closeRan := true, wrapperState := .closed, registered := false }
      else some { state with data := registryFind state, closeRan := true }

def onServerStreamCloseCleanup (state : State) : Option State :=
  match state.cleanups with
  | 0 => none
  | cleanups + 1 =>
    if state.accept.gocChanIsOpen then some { state with cleanups, teardown := some false }
    else some { state with cleanups }

/-- `releases` is a taker that closes the connection it got, `hangsUp` the close
callback of a connection and `shuts` a close of the accept channel by the user. -/
inductive Label where
  | dispatches (rc : Int)
  | connects (arrival : Arrival)
  | tearsDown
  | closes
  | closeDispatches
  | closeCallback
  | cleansUp
  | hangsUp (client : Nat)
  | releases (client : Nat)
  | drains
  | takes (taker : Nat) (parks : Bool)
  | leaves (taker : Nat)
  | shuts (onLoopThread : Bool)
deriving DecidableEq, Repr

/-- The callbacks of the loop thread of the handle wait for a running one. -/
def whenFree (state : State) (next : Option State) : Option State :=
  if state.teardown = none then next else none

/-- The callback queue waits only if the handle lives on its thread. -/
def whenLoopFree (state : State) (next : Option State) : Option State :=
  if state.onLoop then whenFree state next else next

def step (state : State) : Label → Option State
  | .dispatches rc => whenFree state (onServerMakeDispatch state rc)
  | .connects arrival => whenFree state (onServerConnection state arrival)
  | .tearsDown => teardownNext state
  | .closes => some (gocIoHandleClose state)
  | .closeDispatches => whenFree state (onHandleCloseDispatch state)
  | .closeCallback => whenFree state (onGocIoHandleClose state)
  | .cleansUp => whenFree state (onServerStreamCloseCleanup state)
  | .hangsUp client =>
    whenFree state (if state.clients[client]? = some .closing then
      some { state with clients := state.clients.set client .closed } else none)
  | .releases client =>
    if client ∈ state.accept.delivered then
      some { state with clients := gocIoHandleRequestClose state.clients client }
    else none
  | .drains =>
    whenLoopFree state do
      let (accept, outcome) ← state.accept.drainCbQueue
      -- `on_accepted_tcp_dropped` and `on_accepted_pipe_dropped`
      some { state with accept, clients := drop state.clients (Port.givenBack outcome) }
  | .takes taker parks => some { state with accept := state.accept.gocTake taker parks }
  | .leaves taker => some { state with accept := state.accept.leave taker }
  | .shuts onLoopThread =>
    let next := some { state with accept := state.accept.gocClose onLoopThread }
    if onLoopThread then whenLoopFree state next else next

def system : System State Label where
  initial state := ∃ onLoop backlog,
    state = gocIoTcpServerMake onLoop backlog ∨ state = gocIoPipeServerMake onLoop backlog
  step

/-- The close callback has run, and so has everything that was queued. -/
def Settled (state : State) : Prop :=
  state.closeRan = true ∧ state.dispatched = true ∧ state.cleanups = 0 ∧ state.teardown = none ∧
    state.accept.callbacks = [] ∧ ∀ client ∈ state.clients, client ≠ .closing

instance (state : State) : Decidable (Settled state) :=
  inferInstanceAs (Decidable (_ ∧ _))

/-- The close callback of the handle runs before the server has started to listen,
or finds the accept channel closed with no connection left in it. -/
def Retired (state : State) : Label → Prop
  | .closeCallback =>
    state.dispatched = false ∨ state.accept.queue.closed = true ∧ state.accept.queue.stored = []
  | _ => True

instance (state : State) (label : Label) : Decidable (Retired state label) := by
  cases label <;> unfold Retired <;> infer_instance

/-- Every connection is on its way to a taker or its close was requested.  Once the
close callback has run, no connection was ever accepted and the failed listen
closes the channel, or the channel is spent. -/
structure Core (state : State) : Prop where
  sound : state.accept.Sound
  held : ∀ client < state.clients.length,
    state.accept.Holds client ∨ state.clients[client]? ≠ some .opened
  dispatched : state.listening = true → state.dispatched = true
  quiet : state.listening = false → state.clients = []
  uvClosing : state.closeRan = true → state.uvClosing = true
  retired : state.closeRan = true →
    state.accept.Spent ∨ state.listening = false ∧
      (state.dispatched = true → state.teardown ≠ none ∨ state.accept.closeGuard ≠ .opened)

variable {state after : State} {clients : List HandleState} {client other : Nat}

theorem gocIoServerMake_core (isTcp onLoop : Bool) (backlog : Int) :
    Core (gocIoServerMake isTcp onLoop backlog) where
  sound := Port.gocChanMake_sound _
  held := by simp [gocIoServerMake]
  dispatched := by simp [gocIoServerMake]
  quiet := by simp [gocIoServerMake]
  uvClosing := by simp [gocIoServerMake]
  retired := by simp [gocIoServerMake]

theorem gocIoHandleRequestClose_opened
    (opened : (gocIoHandleRequestClose clients client)[other]? = some .opened) :
    other ≠ client ∧ clients[other]? = some .opened := by
  unfold gocIoHandleRequestClose at opened
  rw [List.getElem?_modify] at opened
  by_cases same : client = other
  · cases found : clients[other]? with
    | none => simp [found] at opened
    | some handle => cases handle <;> simp [same, found] at opened
  · exact ⟨Ne.symm same, by simpa [same] using opened⟩

@[simp] theorem length_gocIoHandleRequestClose :
    (gocIoHandleRequestClose clients client).length = clients.length := by
  simp [gocIoHandleRequestClose]

@[simp] theorem length_drop (lost : Option Nat) : (drop clients lost).length = clients.length := by
  cases lost <;> simp [drop]

theorem drop_opened (opened : (drop clients lost)[other]? = some .opened) :
    lost ≠ some other ∧ clients[other]? = some .opened := by
  cases lost with
  | none => exact ⟨by simp, opened⟩
  | some client =>
    obtain ⟨different, before⟩ := gocIoHandleRequestClose_opened opened
    exact ⟨by simpa using Ne.symm different, before⟩

section

variable (core : Core state)
include core

theorem Core.advances (advances : state.accept.Advances accept lost) :
    Core { state with accept, clients := drop state.clients lost } :=
  { core with
    sound := advances.sound
    held := by
      intro client bound
      simp only [length_drop] at bound
      by_cases opened : (drop state.clients lost)[client]? = some .opened
      · obtain ⟨kept, before⟩ := drop_opened opened
        rcases core.held client bound with holds | closing
        · exact .inl ((advances.holds client holds).resolve_right kept)
        · exact absurd before closing
      · exact .inr opened
    quiet := by
      intro silent
      apply List.eq_nil_of_length_eq_zero
      rw [length_drop, core.quiet silent]
      rfl
    retired := by
      intro ran
      rcases core.retired ran with spent | ⟨silent, ends⟩
      · exact .inl (advances.spent spent)
      · exact .inr ⟨silent, fun started => (ends started).imp_right advances.asked⟩ }

theorem Core.closes (length : clients.length = state.clients.length)
    (leaves : ∀ client : Nat, clients[client]? = some .opened → state.clients[client]? = some .opened) :
    Core { state with clients } :=
  { core with
    held := by
      intro client bound
      rw [length] at bound
      exact (core.held client bound).imp_right fun closing opened => closing (leaves client opened)
    quiet := by
      intro silent
      apply List.eq_nil_of_length_eq_zero
      rw [length, core.quiet silent]
      rfl }

theorem Core.dispatches (stepped : onServerMakeDispatch state rc = some after) : Core after := by
  unfold onServerMakeDispatch at stepped
  split at stepped
  · cases stepped
  · rename_i fresh
    split at stepped
    · cases stepped
      exact { core with
        dispatched := fun _ => rfl
        retired := fun ran => (core.retired ran).imp_right fun late =>
          ⟨late.1, fun _ => .inl (by simp)⟩ }
    · split at stepped
      · cases stepped
      · rename_i active
        cases stepped
        have unclosed : state.closeRan = false := by
          have := core.uvClosing
          simp_all
        have unheard : state.listening = false := by
          have := core.dispatched
          simp_all
        exact { core with
          dispatched := fun _ => rfl
          quiet := by simp
          retired := by simp [unclosed] }

theorem Core.connects (stepped : onServerConnection state arrival = some after) : Core after := by
  unfold onServerConnection at stepped
  split at stepped
  · cases stepped
  · rename_i active
    have listening : state.listening = true := by simp_all
    have unclosed : state.closeRan = false := by
      have := core.uvClosing
      simp_all
    -- A connection whose close is requested at once is not on the channel.
    have refused : Core { state with clients := state.clients ++ [.closing] } :=
      { core with
        held := by
          intro client bound
          simp only [List.length_append, List.length_singleton] at bound
          rcases Nat.lt_succ_iff_lt_or_eq.mp bound with earlier | last
          · rw [List.getElem?_append_left earlier]
            exact core.held client earlier
          · right
            simp [last]
        quiet := by simp [listening] }
    split at stepped
    · cases stepped
    · cases stepped
      exact core
    · split at stepped
      · cases stepped
        exact { core with retired := by simp [unclosed] }
      · split at stepped
        · cases stepped
          exact { core with retired := by simp [unclosed] }
        · cases stepped
          exact { core.advances (core.sound.advances_gocClose state.onLoop) with }
      · cases stepped
        exact refused
      · split at stepped
        · cases stepped
          exact { core with
            sound := core.sound.gocPutCb _
            held := by
              intro client bound
              simp only [List.length_append, List.length_singleton] at bound
              rcases Nat.lt_succ_iff_lt_or_eq.mp bound with earlier | last
              · rw [List.getElem?_append_left earlier]
                exact (core.held client earlier).imp_left (·.gocPutCb _)
              · rw [last]
                exact .inl (Port.gocPutCb_holds _)
            quiet := by simp [listening]
            retired := by simp [unclosed] }
        · cases stepped
          exact refused

theorem Core.tearsDown (stepped : teardownNext state = some after) :
    Core after := by
  unfold teardownNext at stepped
  split at stepped
  · cases stepped
  · rename_i clears busy
    split at stepped
    · rename_i client accept took
      split at stepped
      · cases stepped
      · cases stepped
        exact core.advances (core.sound.advances_chanTakeFromBuffer took)
    · cases stepped
      have closed := core.advances (core.sound.advances_gocClose state.onLoop)
      exact { closed with
        retired := fun ran => (closed.retired ran).imp_right fun late =>
          ⟨late.1, fun _ => .inr (Port.gocClose_closeGuard _ _)⟩ }

theorem Core.closeCallback (retired : Retired state .closeCallback)
    (stepped : onGocIoHandleClose state = some after) : Core after := by
  unfold onGocIoHandleClose at stepped
  split at stepped
  · cases stepped
  · rename_i active
    have uvClosing : state.uvClosing = true := by simp_all
    have ends : state.accept.Spent ∨ state.listening = false ∧
        (state.dispatched = true → state.teardown ≠ none ∨ state.accept.closeGuard ≠ .opened) := by
      rcases retired with fresh | spent
      · right
        have := core.dispatched
        simp_all
      · exact .inl spent
    split at stepped
    · cases stepped
      exact { core with uvClosing := fun _ => uvClosing, retired := fun _ => ends }
    · cases stepped
      exact { core with uvClosing := fun _ => uvClosing, retired := fun _ => ends }
    · split at stepped <;>
      · cases stepped
        exact { core with uvClosing := fun _ => uvClosing, retired := fun _ => ends }

theorem Core.cleansUp (stepped : onServerStreamCloseCleanup state = some after) : Core after := by
  unfold onServerStreamCloseCleanup at stepped
  split at stepped
  · cases stepped
  · split at stepped
    · cases stepped
      exact { core with
        retired := fun ran => (core.retired ran).imp_right fun late =>
          ⟨late.1, fun _ => .inl (by simp)⟩ }
    · cases stepped
      exact { core with }

end

theorem whenFree_some (stepped : whenFree state next = some after) :
    next = some after := by
  unfold whenFree at stepped
  split at stepped
  · exact stepped
  · cases stepped

theorem whenLoopFree_some (stepped : whenLoopFree state next = some after) :
    next = some after := by
  unfold whenLoopFree at stepped
  split at stepped
  · exact whenFree_some stepped
  · exact stepped

theorem Core.stepped (core : Core state) (retired : Retired state label)
    (stepped : step state label = some after) : Core after := by
  cases label with
  | dispatches rc => exact core.dispatches (whenFree_some stepped)
  | connects arrival => exact core.connects (whenFree_some stepped)
  | tearsDown => exact core.tearsDown stepped
  | closes =>
    cases stepped
    unfold gocIoHandleClose
    split
    · exact { core with }
    · exact core
  | closeDispatches =>
    have dispatched := whenFree_some stepped
    unfold onHandleCloseDispatch at dispatched
    split at dispatched
    · cases dispatched
    · cases dispatched
      exact { core with uvClosing := fun _ => rfl }
  | closeCallback => exact core.closeCallback retired (whenFree_some stepped)
  | cleansUp => exact core.cleansUp (whenFree_some stepped)
  | hangsUp client =>
    have closed := whenFree_some stepped
    split at closed
    · cases closed
      apply core.closes
      · simp
      · intro other opened
        rw [List.getElem?_set] at opened
        grind
    · cases closed
  | releases client =>
    simp only [step] at stepped
    split at stepped
    · cases stepped
      exact core.closes length_gocIoHandleRequestClose
        fun other opened => (gocIoHandleRequestClose_opened opened).2
    · cases stepped
  | drains =>
    have drained := whenLoopFree_some stepped
    simp only [Option.bind_eq_bind, Option.bind_eq_some_iff, Option.some.injEq,
      Prod.exists] at drained
    obtain ⟨accept, outcome, drained, same⟩ := drained
    rw [← same]
    exact core.advances (core.sound.advances_drainCbQueue drained)
  | takes taker parks =>
    cases stepped
    exact core.advances (core.sound.advances_took (Port.gocTake_took _ taker parks))
  | leaves taker =>
    cases stepped
    exact core.advances (core.sound.advances_leave taker)
  | shuts onLoopThread =>
    have next : Core { state with accept := state.accept.gocClose onLoopThread } :=
      core.advances (core.sound.advances_gocClose onLoopThread)
    have shut : some { state with accept := state.accept.gocClose onLoopThread } = some after := by
      simp only [step] at stepped
      split at stepped
      · exact whenLoopFree_some stepped
      · exact stepped
    cases shut
    exact next

/-- In every run in which the accept channel is closed and empty when the close
callback of the handle runs, or the server has not started to listen, everything
queued ends with the channel closed and every connection delivered or closed. -/
theorem connections_settled (reachable : system.ReachableWith Retired state)
    (settled : Settled state) :
    state.accept.queue.closed = true ∧ ∀ client < state.clients.length,
        client ∈ state.accept.delivered ∨ state.clients[client]? = some .closed := by
  have core : Core state := by
    apply reachable.invariant
    · intro start initial
      obtain ⟨onLoop, backlog, tcp | pipe⟩ := initial
      · rw [tcp]
        exact gocIoServerMake_core true onLoop backlog
      · rw [pipe]
        exact gocIoServerMake_core false onLoop backlog
    · exact fun before label after core retired stepped => core.stepped retired stepped
  obtain ⟨closeRan, dispatched, cleaned, free, drained, hungUp⟩ := settled
  have closed : state.accept.queue.closed = true := by
    rcases core.retired closeRan with spent | ⟨silent, ends⟩
    · exact spent.1
    · have asked := (ends dispatched).resolve_left (by simp [free])
      rw [core.sound.closed]
      have awaited := core.sound.awaited
      cases guard : state.accept.closeGuard <;> simp_all
  refine ⟨closed, fun client bound => ?_⟩
  have spent : state.accept.queue.stored = [] := by
    rcases core.retired closeRan with spent | ⟨silent, -⟩
    · exact spent.2
    · simp [core.quiet silent] at bound
  rcases core.held client bound with holds | closing
  · left
    simpa [Port.Holds, spent, drained, core.sound.cleared closed] using holds
  · right
    rw [List.getElem?_eq_getElem bound] at closing ⊢
    have unfinished := hungUp _ (List.getElem_mem bound)
    cases handle : state.clients[client] <;> simp_all

/-- A connection is taken, the owner closes the accept channel, a second connection
is turned away and the handle is closed. -/
def orderlyRun : List Label :=
  [.dispatches 0, .connects .accepted, .drains, .takes 0 true, .shuts false, .connects .accepted,
    .drains, .closes, .closeDispatches, .closeCallback, .hangsUp 1]

theorem orderlyRun_settled :
    ∃ state, system.runWith Retired (gocIoTcpServerMake false 4) orderlyRun = some state ∧
      state.accept.queue.closed = true ∧ ∀ client < state.clients.length,
          client ∈ state.accept.delivered ∨ state.clients[client]? = some .closed :=
  ⟨_, rfl, connections_settled
    (.of_run system Retired orderlyRun ⟨false, 4, .inl rfl⟩ rfl) (by decide)⟩

/-- The wrapper stays registered until the close callback has run. -/
structure Registered (state : State) : Prop where
  registered : state.closeRan = false → state.registered = true
  cleanups : state.cleanups = 0

theorem closeData_registered (registered : state.registered = true) :
    closeData state = .wrapper := by
  cases pointer : state.data <;> simp [closeData, isGocIoHandleWrapper, registryFind, registered, pointer]

theorem Registered.stepped (wrapped : Registered state)
    (stepped : step state label = some after) : Registered after := by
  obtain ⟨registered, cleanups⟩ := wrapped
  cases label with
  | dispatches rc =>
    have dispatched := whenFree_some stepped
    unfold onServerMakeDispatch at dispatched
    constructor <;> grind
  | connects arrival =>
    have connected := whenFree_some stepped
    unfold onServerConnection at connected
    constructor <;> grind
  | tearsDown =>
    simp only [step, teardownNext] at stepped
    constructor <;> grind
  | closes =>
    cases stepped
    unfold gocIoHandleClose
    constructor <;> grind
  | closeDispatches =>
    have dispatched := whenFree_some stepped
    unfold onHandleCloseDispatch at dispatched
    constructor <;> grind
  | closeCallback =>
    have ran := whenFree_some stepped
    unfold onGocIoHandleClose at ran
    constructor <;> grind [closeData_registered]
  | cleansUp =>
    have cleaned := whenFree_some stepped
    simp [onServerStreamCloseCleanup, cleanups] at cleaned
  | hangsUp client =>
    have closed := whenFree_some stepped
    constructor <;> grind
  | releases client =>
    simp only [step] at stepped
    constructor <;> grind
  | drains =>
    have drained := whenLoopFree_some stepped
    simp only [Option.bind_eq_bind, Option.bind_eq_some_iff, Option.some.injEq,
      Prod.exists] at drained
    obtain ⟨accept, outcome, -, same⟩ := drained
    rw [← same]
    exact ⟨registered, cleanups⟩
  | takes | leaves =>
    cases stepped
    exact ⟨registered, cleanups⟩
  | shuts onLoopThread =>
    simp only [step] at stepped
    constructor <;> grind [whenLoopFree_some]

/-- In no run does the close callback of the handle take `handle->data` for the
context of the server. -/
theorem cleanup_never_queued (reachable : system.Reachable state) : state.cleanups = 0 := by
  have wrapped : Registered state := by
    apply reachable.invariant
    · intro start initial
      obtain ⟨onLoop, backlog, tcp | pipe⟩ := initial
      · rw [tcp]
        exact ⟨fun _ => rfl, rfl⟩
      · rw [pipe]
        exact ⟨fun _ => rfl, rfl⟩
    · exact fun before label after wrapped stepped => wrapped.stepped stepped
  exact wrapped.cleanups

theorem orderlyRun_not_cleaned :
    ∃ state, system.run (gocIoTcpServerMake false 4) orderlyRun = some state ∧ state.cleanups = 0 :=
  ⟨_, rfl, cleanup_never_queued (.of_run system orderlyRun ⟨false, 4, .inl rfl⟩ rfl)⟩

/-- A connection is buffered when the handle is closed. -/
def bufferedRun : List Label :=
  [.dispatches 0, .connects .accepted, .drains, .closes, .closeDispatches, .closeCallback]

theorem handle_close_leaves_channel_open :
    ∃ state, system.Reachable state ∧ Settled state ∧ state.accept.queue.closed = false ∧
      state.accept.delivered = [] ∧ state.clients = [.opened] :=
  ⟨_, .of_run system bufferedRun ⟨false, 4, .inl rfl⟩ rfl, by decide, rfl, rfl, rfl⟩

end Libgoc.Io.ServerStream
