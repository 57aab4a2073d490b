import Libgoc.Data.Tally
import Libgoc.Pool.Model

namespace Libgoc.Pool

open Libgoc.Data Libgoc.Semantics

/-! # Where a fiber is -/

section

variable (threadCount : Nat) (state : State) (fiber : FiberId)

def entries : Nat :=
  tally (List.count fiber) state.deques threadCount +
    tally (List.count fiber) state.injectors threadCount

def Stage.picks (stage : Stage) : Nat :=
  if stage = .picked fiber then 1 else 0

def hands : Nat :=
  tally (Stage.picks fiber) state.workers threadCount

def tokens : Nat :=
  entries threadCount state fiber + hands threadCount state fiber

def pendings : Nat :=
  state.claims.countP fun claim => claim.fiber = fiber

end

/-- The fiber that a worker has resumed and has not let go of. -/
def Stage.engaged : Stage → Option FiberId
  | .idle | .picked _ => none
  | .waking fiber | .running fiber | .leaving fiber | .yielding fiber | .ending fiber
  | .returned fiber | .settling fiber _ | .bumping fiber _ _ | .uncounting fiber => some fiber
  | .checking fiber st => if st = .dead then some fiber else none

/-- No token, no waiting. -/
def Alone (record : Fiber) (tokens pendings : Nat) : Prop :=
  record.wait = .none ∧ tokens = 0 ∧ pendings = 0

/-- One token. -/
def Posted (record : Fiber) (tokens pendings : Nat) : Prop :=
  record.wait = .none ∧ tokens = 1 ∧ pendings = 0 ∧ (record.departure ≠ .park → record.parked = 0)

/-- On the lists of channels, or claimed by one waker. -/
def Waits (record : Fiber) (tokens pendings parked : Nat) : Prop :=
  record.departure = .park ∧ record.parked = parked ∧ tokens = 0 ∧
    (record.wait = .parked ∧ pendings = 0 ∨ record.wait = .claimed ∧ pendings = 1)

/-- The fiber has given up its worker, but nobody has been told. -/
def Leaves (record : Fiber) (tokens pendings : Nat) : Prop :=
  Waits record tokens pendings (2 * record.parkedGen + 1) ∨
    record.departure = .yield ∧ Posted record tokens pendings

def Left (record : Fiber) (tokens pendings : Nat) : Prop :=
  record.onStack = false ∧ (record.co = .suspended ∧ Leaves record tokens pendings ∨
      record.co = .dead ∧ record.parked = 0 ∧ Alone record tokens pendings)

/-- A fiber, by what the worker that is engaged with it does. -/
def Hosts (record : Fiber) (tokens pendings : Nat) : Stage → Prop
  | .idle | .picked _ => False
  | .waking _ => record.co = .running ∧ Alone record tokens pendings
  | .running _ => record.co = .running ∧ record.parked = 0 ∧ Alone record tokens pendings
  | .leaving _ => record.co = .running ∧ Leaves record tokens pendings
  | .yielding _ => record.co = .suspended ∧ Leaves record tokens pendings
  | .ending _ => record.co = .dead ∧ record.parked = 0 ∧ Alone record tokens pendings
  | .returned _ => Left record tokens pendings
  | .settling _ st => record.co = st ∧ Left record tokens pendings
  | .bumping _ st parked => record.co = .suspended ∧ st = .suspended ∧ record.onStack = false ∧
      parked = 2 * record.parkedGen + 1 ∧ Waits record tokens pendings parked
  | .checking _ st => st = .dead ∧ record.co = .dead ∧ Alone record tokens pendings
  | .uncounting _ => record.co = .destroyed ∧ record.ledger.subtracted = 0 ∧
      Alone record tokens pendings

/-- A fiber that no worker is engaged with. -/
def Rests (record : Fiber) (tokens pendings : Nat) : Prop :=
  record.co = .suspended ∧ record.onStack = false ∧ (Posted record tokens pendings ∨
        Waits record tokens pendings (2 * record.parkedGen + 2)) ∨
    record.co = .destroyed ∧ record.ledger.subtracted = 1 ∧ Alone record tokens pendings

/-- Each post is for a spawn, a yield or a wake-up and gives one resume; each
wake-up is for one claim and each claim for one park. -/
structure Balanced (record : Fiber) (tokens pendings : Nat) : Prop where
  posts : record.ledger.posts = 1 + record.ledger.yields + record.ledger.wakes
  resumes : record.ledger.posts = record.ledger.resumes + tokens
  claims : record.ledger.claims = record.ledger.wakes + pendings
  parks : record.ledger.parks = record.ledger.claims + if record.wait = .parked then 1 else 0
  destroys : record.ledger.destroys = if record.co = .destroyed then 1 else 0
  counted : record.co ≠ .destroyed → record.ledger.subtracted = 0
  once : record.ledger.subtracted ≤ 1

def Fiber.counted (record : Fiber) : Nat :=
  if record.ledger.subtracted = 0 then 1 else 0

/-- `live_count` is the number of accepted requests and fibers. -/
def Counts (state : State) : Prop :=
  state.liveCount = sizeT (state.pending + tally Fiber.counted state.fibers state.fresh)

/-- What there is of a fiber; `seat` is the stage of the worker that is engaged with
it. -/
structure View where
  born : Prop
  record : Fiber
  tokens : Nat
  pendings : Nat
  seat : Option Stage

structure View.Good (view : View) : Prop where
  unborn : ¬view.born →
    view.record = {} ∧ view.tokens = 0 ∧ view.pendings = 0 ∧ view.seat = none
  hosts : ∀ stage, view.seat = some stage → Hosts view.record view.tokens view.pendings stage
  rests : view.born → view.seat = none → Rests view.record view.tokens view.pendings
  balanced : view.born → Balanced view.record view.tokens view.pendings

def Stage.seat (stage : Stage) : Option Stage :=
  stage.engaged.map fun _ => stage

/-- What a step does to the fiber it is about. -/
inductive Turn (fiber : FiberId) (view : View) : View → Prop where
  | spawned (unborn : ¬view.born) :
    Turn fiber view { view with
      born := True
      record := Fiber.posted { homeWorkerIdx := home }
      tokens := view.tokens + 1 }
  | resumed (free : view.seat = none) (token : view.tokens = rest + 1) :
    Turn fiber view { view with
      record := view.record.resumed
      tokens := rest
      seat := some (continueStage view.record.departure fiber) }
  | cleared (at_ : view.seat = some (.waking fiber)) :
    Turn fiber view { view with
      record := { view.record with parked := 0 }
      seat := some (.running fiber) }
  | published (at_ : view.seat = some (.running fiber)) :
    Turn fiber view { view with
      record := view.record.publishes
      seat := some (.leaving fiber) }
  | yielded (at_ : view.seat = some (.running fiber)) :
    Turn fiber view { view with
      record := view.record.yields.posted
      tokens := view.tokens + 1
      seat := some (.leaving fiber) }
  | suspended (at_ : view.seat = some (.leaving fiber)) :
    Turn fiber view { view with
      record := { view.record with co := .suspended }
      seat := some (.yielding fiber) }
  | finished (at_ : view.seat = some (.running fiber)) :
    Turn fiber view { view with
      record := { view.record with co := .dead }
      seat := some (.ending fiber) }
  | jumped (at_ : view.seat = some (.yielding fiber) ∨ view.seat = some (.ending fiber)) :
    Turn fiber view { view with
      record := { view.record with onStack := false }
      seat := some (.returned fiber) }
  | looked (at_ : view.seat = some (.returned fiber)) :
    Turn fiber view { view with seat := some (.settling fiber view.record.co) }
  | odd (at_ : view.seat = some (.settling fiber st)) (parked : view.record.parked % 2 = 1) :
    Turn fiber view { view with seat := some (.bumping fiber st view.record.parked) }
  | even (at_ : view.seat = some (.settling fiber st)) (parked : ¬view.record.parked % 2 = 1) :
    Turn fiber view { view with seat := (Stage.checking fiber st).seat }
  | stored (at_ : view.seat = some (.bumping fiber st parked)) :
    Turn fiber view { view with
      record := { view.record with parked := parked + 1 }
      seat := (Stage.checking fiber st).seat }
  | destroyed (at_ : view.seat = some (.checking fiber .dead)) :
    Turn fiber view { view with
      record := view.record.destroyed
      seat := some (.uncounting fiber) }
  | uncounted (at_ : view.seat = some (.uncounting fiber)) :
    Turn fiber view { view with
      record := view.record.subtracted
      seat := none }
  | claimed (wait : view.record.wait = .parked) :
    Turn fiber view { view with
      record := view.record.claimed
      pendings := view.pendings + 1 }
  | woken (told : view.record.parked = 2 * view.record.parkedGen + 2)
      (claim : view.pendings = rest + 1) :
    Turn fiber view { view with
      record := view.record.woken.posted
      tokens := view.tokens + 1
      pendings := rest }

variable {view after : View} {fiber : FiberId} {record : Fiber} {tokens pendings parked : Nat}
  {stage : Stage}

attribute [local grind] Alone Posted Waits Leaves Left Hosts Rests Fiber.posted Fiber.resumed
  Fiber.publishes Fiber.yields Fiber.destroyed Fiber.subtracted Fiber.claimed Fiber.woken
  continueStage Stage.engaged Stage.seat

/-- While a worker is engaged with a fiber, its wakers have not been told, and only
`goc_yield` has posted it. -/
theorem Hosts.waits_or (hosts : Hosts record tokens pendings stage) :
    Waits record tokens pendings (2 * record.parkedGen + 1) ∨
      record.wait = .none ∧ pendings = 0 ∧ (0 < tokens → record.departure = .yield) ∧
        (record.co = .suspended → tokens = 1) := by
  cases stage <;> grind

theorem Rests.waits_or (rests : Rests record tokens pendings) :
    record.co = .suspended ∧ record.onStack = false ∧
        Waits record tokens pendings (2 * record.parkedGen + 2) ∨
      record.wait = .none ∧ pendings = 0 ∧ (record.co = .suspended → tokens = 1) := by
  grind

/-- A fiber that waits exists, and `parked` is one of the two values of its
generation. -/
theorem View.Good.waits (good : view.Good)
    (waiting : view.record.wait ≠ .none ∨ 0 < view.pendings) :
    view.born ∧ (view.seat ≠ none ∧
          Waits view.record view.tokens view.pendings (2 * view.record.parkedGen + 1) ∨
        view.seat = none ∧ view.record.co = .suspended ∧ view.record.onStack = false ∧
          Waits view.record view.tokens view.pendings (2 * view.record.parkedGen + 2)) := by
  have born : view.born := by
    by_contra unborn
    obtain ⟨blank, _, none, _⟩ := good.unborn unborn
    rw [blank, none] at waiting
    simp at waiting
  refine ⟨born, ?_⟩
  cases seat : view.seat with
  | none =>
    have rests := (good.rests born seat).waits_or
    grind
  | some stage =>
    have hosts := (good.hosts stage seat).waits_or
    grind

theorem View.Good.born_of_seat (good : view.Good) (seat : view.seat ≠ none) : view.born := by
  by_contra unborn
  exact seat (good.unborn unborn).2.2.2

/-- A suspended fiber that does not wait has been posted. -/
theorem View.Good.one_token (good : view.Good) (born : view.born)
    (co : view.record.co = .suspended) (wait : view.record.wait = .none) : view.tokens = 1 := by
  cases seat : view.seat with
  | none =>
    have rests := (good.rests born seat).waits_or
    grind
  | some stage =>
    have hosts := (good.hosts stage seat).waits_or
    grind

theorem Hosts.claimed (hosts : Hosts record tokens pendings stage) (wait : record.wait = .parked) :
    Hosts record.claimed tokens (pendings + 1) stage := by
  cases stage <;> grind

theorem Rests.claimed (rests : Rests record tokens pendings) (wait : record.wait = .parked) :
    Rests record.claimed tokens (pendings + 1) := by
  grind

theorem Balanced.turn (good : view.Good) (turn : Turn fiber view after) (born : after.born) :
    Balanced after.record after.tokens after.pendings := by
  cases turn with
  | spawned unborn =>
    obtain ⟨_, none, noPending, _⟩ := good.unborn unborn
    constructor <;> grind
  | woken told claim =>
    obtain ⟨posts, resumes, claims, parks, destroys, counted, once⟩ := good.balanced born
    have waits := good.waits (.inr (by omega))
    constructor <;> grind
  | _ =>
    obtain ⟨posts, resumes, claims, parks, destroys, counted, once⟩ := good.balanced born
    have ⟨_, hosts, rests, _⟩ := good
    constructor <;> grind

theorem View.Good.turn (good : view.Good) (turn : Turn fiber view after) : after.Good := by
  have ⟨unborn, hosts, rests, balanced⟩ := good
  have ledger := Balanced.turn good turn
  cases turn with
  | claimed wait =>
    constructor
    · grind
    · intro stage seat
      exact (hosts stage seat).claimed wait
    · intro born seat
      exact (rests born seat).claimed wait
    · exact ledger
  | woken told claim =>
    have waits := good.waits (.inr (by omega))
    constructor
    · grind
    · grind
    · grind
    · exact ledger
  | resumed free token =>
    constructor
    · grind
    · cases departure : view.record.departure <;> grind
    · grind
    · exact ledger
  | destroyed at_ =>
    have born : view.born := by grind
    have counted := (balanced born).counted
    constructor
    · grind
    · grind
    · grind
    · exact ledger
  | _ =>
    constructor
    · grind
    · grind
    · grind
    · exact ledger

/-- A park is the only step that starts a generation. -/
theorem Turn.gen (good : view.Good) (turn : Turn fiber view after) :
    after.record.parkedGen = view.record.parkedGen ∨ view.pendings = 0 := by
  cases turn with
  | spawned unborn => exact .inr (good.unborn unborn).2.2.1
  | published at_ =>
    obtain ⟨_, _, _, _, none⟩ := good.hosts _ at_
    exact .inr none
  | _ => exact .inl rfl

end Libgoc.Pool
