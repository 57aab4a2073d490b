import Libgoc.RwMutex.Accounting

namespace Libgoc.RwMutex

open Libgoc.Semantics

def State.waiter (state : State) (request : RequestId) : Waiter :=
  { request, isWriter := (state.requests request).isWriter }

/-- The requests that are granted and whose release section has not run. -/
def State.held (state : State) : List RequestId :=
  state.grants.filter (fun request => !decide (request ∈ state.released))

def State.holders (state : State) : List Waiter :=
  state.held.map state.waiter

def State.waiting (state : State) : List RequestId :=
  state.mutex.queue.map Waiter.request

/-- A request whose thread is about to send its own grant. -/
def RequestPhase.Granting : RequestPhase → Prop
  | .unlocked true | .sending => True
  | _ => False

def RequestPhase.Arrived : RequestPhase → Prop
  | .absent | .prepared => False
  | _ => True

/-- What the loop thread is doing with the gate of one request. -/
inductive Role where
  | none
  | entered
  | claimed
  | releasing
  | cancelling
  | pending
deriving DecidableEq

def LoopStage.role (request : RequestId) : LoopStage → Role
  | .idle => .none
  | .handlerEntered other => if other = request then .entered else .none
  | .handlerClaimed other => if other = request then .claimed else .none
  | .releasing other => if other = request then .releasing else .none
  | .cancelling other => if other = request then .cancelling else .none
  | .granting remaining => if request ∈ remaining then .pending else .none

/-- What concerns one request. -/
structure View where
  entry : Request
  arrived : Prop
  granted : Prop
  waiting : Prop
  released : Prop
  delivered : Prop
  role : Role

def State.view (state : State) (request : RequestId) : View where
  entry := state.requests request
  arrived := request ∈ state.arrivals
  granted := request ∈ state.grants
  waiting := request ∈ state.waiting
  released := request ∈ state.released
  delivered := request ∈ state.delivered
  role := state.loop.role request

structure View.Good (view : View) : Prop where
  arrived : view.arrived ↔ view.entry.phase.Arrived
  known : view.granted ∨ view.waiting → view.arrived
  apart : view.waiting → ¬ view.granted
  acquired : view.entry.acquired = true ↔ view.granted
  released : view.released → view.entry.gateClosed = true
  handled : view.entry.handled = true → view.entry.gateClosed = true
  closed : view.entry.gateClosed = true → view.entry.phase = .returned
  requested : view.entry.closeRequested = true → view.entry.phase = .returned
  withdrawn : view.waiting → view.entry.gateClosed = true →
    view.role = .entered ∨ view.role = .claimed ∨ view.role = .cancelling
  granting : view.entry.phase.Granting → view.granted ∧ ¬ view.delivered
  sent : view.delivered → view.granted
  gate : view.role ≠ .none →
    (view.entry.gateClosed = true ↔ view.role ≠ .pending) ∧ ¬ view.released
  entered : view.role = .entered → view.entry.handled = false
  releasing : view.role = .releasing → view.granted
  cancelling : view.role = .cancelling → ¬ view.granted
  pending : view.role = .pending →
    view.granted ∧ ¬ view.delivered ∧ ¬ view.entry.phase.Granting

/-- What a step does to the request it is about. -/
inductive Turn (view : View) : View → Prop where
  | prepare (isWriter : Bool) (absent : view.entry.phase = .absent) :
    Turn view { view with entry := { phase := .prepared, isWriter } }
  | arrive (grantNow : Bool) (prepared : view.entry.phase = .prepared) : Turn view { view with
      entry := { view.entry with phase := .unlocked grantNow, acquired := grantNow }
      arrived := True, granted := grantNow = true, waiting := grantNow = false }
  | check (unlocked : view.entry.phase = .unlocked grantNow) : Turn view { view with
      entry := { view.entry with
        phase := if grantNow && !view.entry.handled then .sending else .returned } }
  | send (sending : view.entry.phase = .sending) : Turn view { view with
      entry := { view.entry with phase := .returned }, delivered := True }
  | close (returned : view.entry.phase = .returned) :
    Turn view { view with entry := { view.entry with closeRequested := true } }
  | runClose (idle : view.role = .none) (requested : view.entry.closeRequested = true)
      (opened : view.entry.gateClosed ≠ true) : Turn view { view with
      entry := { view.entry with gateClosed := true }, role := .entered }
  | claim (entered : view.role = .entered) : Turn view { view with
      entry := { view.entry with handled := true }, role := .claimed }
  | release (claimed : view.role = .claimed) (acquired : view.entry.acquired = true) :
    Turn view { view with role := .releasing }
  | cancel (claimed : view.role = .claimed) (unacquired : view.entry.acquired = false) :
    Turn view { view with role := .cancelling }
  | released (releasing : view.role = .releasing) :
    Turn view { view with released := True, role := .none }
  | grant (waiting : view.waiting) (idle : view.role = .none) : Turn view { view with
      entry := { view.entry with acquired := true }
      granted := True, waiting := False, role := .pending }
  | cancelled (cancelling : view.role = .cancelling) :
    Turn view { view with waiting := False, role := .none }
  | deliver (pending : view.role = .pending) :
    Turn view { view with delivered := True, role := .none }

theorem View.Good.turn {view after : View} (good : view.Good) (turn : Turn view after) :
    after.Good := by
  obtain ⟨arrived, known, apart, acquired, released, handled, closed, requested, withdrawn, granting,
    sent, gate, entered, releasing, cancelling, pending⟩ := good
  cases turn <;> constructor <;> first
    | assumption
    | simp_all [RequestPhase.Arrived, RequestPhase.Granting] <;> grind

theorem View.Good.opened {view : View} (good : view.Good) (earlier : view.entry.phase ≠ .returned) :
    view.entry.gateClosed = false := by
  by_contra closed
  exact earlier (good.closed (by simpa using closed))

structure Invariant (state : State) : Prop where
  good : ∀ request, (state.view request).Good
  lock : Represents state.mutex state.holders
  order : (state.grants ++ state.waiting).Sublist state.arrivals
  distinct : state.arrivals.Nodup
  queued : ∀ waiter ∈ state.mutex.queue, waiter = state.waiter waiter.request
  sent : state.delivered.Nodup
  pending : ∀ remaining, state.loop = .granting remaining → remaining.Nodup

theorem invariant_initial : Invariant {} where
  good := by
    intro request
    constructor <;>
      simp [State.view, State.waiting, LoopStage.role, RequestPhase.Arrived, RequestPhase.Granting]
  lock := represents_empty
  order := .slnil
  distinct := .nil
  queued := by simp
  sent := .nil
  pending := by simp

variable {state next : State}

theorem Invariant.grants_nodup (invariant : Invariant state) : state.grants.Nodup :=
  (List.nodup_append.mp (invariant.order.nodup invariant.distinct)).1

theorem Invariant.waiting_nodup (invariant : Invariant state) : state.waiting.Nodup :=
  (List.nodup_append.mp (invariant.order.nodup invariant.distinct)).2.1

/-- Holders depend on the requests only through the kind of the granted ones. -/
theorem holders_congr (before after : State) (grants : after.grants = before.grants)
    (released : after.released = before.released) (kind : ∀ request ∈ before.grants,
      (after.requests request).isWriter = (before.requests request).isWriter) :
    after.holders = before.holders := by
  simp only [State.holders, State.held, grants, released]
  apply List.map_congr_left
  intro request member
  simp [State.waiter, kind request (List.mem_filter.mp member).1]

/-- A step that changes one request, the stage of the loop and the deliveries. -/
theorem Invariant.change {after : View} (invariant : Invariant state) (request : RequestId)
    (changed : after.Good) (sent : next.delivered.Nodup)
    (pending : ∀ remaining, next.loop = .granting remaining → remaining.Nodup)
    (own : next.view request = after := by
      simp [State.view, State.setRequest, State.waiting, LoopStage.role, *])
    (others : ∀ other, other ≠ request → next.view other = state.view other := by
      intro other apart
      simp [State.view, State.setRequest, State.waiting, LoopStage.role, Ne.symm apart, *])
    (kind : request ∈ state.arrivals →
      (next.requests request).isWriter = (state.requests request).isWriter := by
      simp [State.setRequest, *])
    (mutex : next.mutex = state.mutex := by rfl)
    (arrivals : next.arrivals = state.arrivals := by rfl)
    (grants : next.grants = state.grants := by rfl)
    (released : next.released = state.released := by rfl) : Invariant next := by
  have kinds : ∀ other ∈ state.arrivals,
      (next.requests other).isWriter = (state.requests other).isWriter := by
    intro other known
    by_cases same : other = request
    · exact same ▸ kind (same ▸ known)
    · exact congrArg (fun view => view.entry.isWriter) (others other same)
  have waiting : next.waiting = state.waiting := by rw [State.waiting, State.waiting, mutex]
  refine ⟨each_of_change (P := View.Good) invariant.good request changed own others, ?_, ?_, ?_, ?_,
    sent, pending⟩
  · rw [mutex, holders_congr state next grants released fun other granted =>
      kinds other (invariant.order.subset (List.mem_append_left _ granted))]
    exact invariant.lock
  · rw [grants, waiting, arrivals]
    exact invariant.order
  · rw [arrivals]
    exact invariant.distinct
  · intro waiter member
    rw [mutex] at member
    rw [State.waiter, kinds _ (invariant.order.subset
      (List.mem_append_right _ (List.mem_map_of_mem member)))]
    exact invariant.queued waiter member

theorem waiter_injective (state : State) : Function.Injective state.waiter :=
  fun _ _ same => congrArg Waiter.request same

theorem holders_erase (invariant : Invariant state) (request : RequestId) :
    state.holders.erase (state.waiter request) =
      (state.grants.filter (fun other => !decide (other ∈ state.released ++ [request]))).map
        state.waiter := by
  have distinct : state.held.Nodup := invariant.grants_nodup.filter _
  rw [State.holders, ← List.map_erase (waiter_injective state),
    distinct.erase_eq_filter, State.held, List.filter_filter]
  congr 2
  funext other
  by_cases same : other = request <;> simp [same]

theorem Invariant.arrive (invariant : Invariant state)
    (prepared : (state.requests request).phase = .prepared)
    (mutex : Mutex) (grantNow : Bool)
    (queue : mutex.queue =
      if grantNow then state.mutex.queue else state.mutex.queue ++ [state.waiter request])
    (lock : Represents mutex
      (if grantNow then state.holders ++ [state.waiter request] else state.holders))
    (past : grantNow = true → state.mutex.queue = []) :
    Invariant { state.setRequest request { state.requests request with
        phase := .unlocked grantNow, acquired := grantNow } with
      mutex
      arrivals := state.arrivals ++ [request]
      grants := if grantNow then state.grants ++ [request] else state.grants } := by
  have good := invariant.good request
  have unknown : request ∉ state.arrivals :=
    good.arrived.not.mpr (by simp [State.view, prepared, RequestPhase.Arrived])
  have ungranted : request ∉ state.grants := fun granted => unknown (good.known (.inl granted))
  have unqueued : request ∉ state.waiting := fun waiting => unknown (good.known (.inr waiting))
  have unreleased : request ∉ state.released := by
    intro released
    have returned := good.closed (good.released released)
    simp [State.view, prepared] at returned
  have waiters : (state.setRequest request { state.requests request with
      phase := .unlocked grantNow, acquired := grantNow }).waiter = state.waiter := by
    funext other
    by_cases same : other = request <;> simp [State.waiter, State.setRequest, same]
  have order := invariant.order
  have distinct := invariant.distinct
  refine ⟨each_of_change (P := View.Good) invariant.good request
    (good.turn (.arrive grantNow prepared)) ?_ ?_, ?_, ?_, ?_, ?_, invariant.sent, invariant.pending⟩
  · rw [State.waiting] at unqueued
    cases grantNow <;> simp [State.view, State.waiting, State.setRequest, queue, ungranted, unqueued,
      State.waiter]
  · intro other apart
    cases grantNow <;>
      simp [State.view, State.waiting, State.setRequest, queue, apart, State.waiter]
  · rw [State.holders]
    change Represents mutex (List.map (state.setRequest request _).waiter _)
    rw [waiters]
    cases grantNow <;> simp [State.holders, State.held, State.setRequest, unreleased] at lock ⊢ <;>
      exact lock
  · rw [State.waiting] at order
    cases grantNow with
    | true =>
      rw [past rfl, List.map_nil, List.append_nil] at order
      simpa [State.waiting, queue, past] using order.append (.refl [request])
    | false => simpa [State.waiting, queue, State.waiter] using order.append (.refl [request])
  · simpa [List.nodup_append] using ⟨distinct, fun _ known same => unknown (same ▸ known)⟩
  · intro waiter member
    change waiter = (state.setRequest request _).waiter waiter.request
    rw [waiters]
    cases grantNow with
    | true => exact invariant.queued waiter (by simpa [queue] using member)
    | false =>
      simp only [queue, Bool.false_eq_true, if_false, List.mem_append, List.mem_singleton] at member
      obtain before | last := member
      · exact invariant.queued waiter before
      · rw [last]
        rfl

theorem step_lockSection (invariant : Invariant state)
    (prepared : (state.requests request).phase = .prepared)
    (stepped : step state (.lockSection request) = some after) : Invariant after := by
  simp only [step, prepared, if_true, Option.some.injEq] at stepped
  subst after
  have section_ := mutexLockRequest_represents (state.waiter request) invariant.lock
  refine invariant.arrive prepared (mutexLockRequest state.mutex (state.waiter request)).1
    (mutexLockRequest state.mutex (state.waiter request)).2 ?_ ?_ ?_
  all_goals
    rcases section_ with ⟨granted, empty, queue, lock⟩ | ⟨queued, queue, lock⟩
    · simp [*]
    · simp [*]

theorem acquireAll_eq (requests : RequestId → Request) (granted : List RequestId)
    (request : RequestId) :
    acquireAll requests granted request = { requests request with
      acquired := (requests request).acquired || decide (request ∈ granted) } := by
  by_cases member : request ∈ granted <;> simp [acquireAll, member]

section

variable (invariant : Invariant state) (stage : state.loop = .releasing request)
include invariant stage

theorem Invariant.releasing_held : state.waiter request ∈ state.holders := by
  have role : (state.view request).role = .releasing := by simp [State.view, stage, LoopStage.role]
  have good := invariant.good request
  have unreleased : request ∉ state.released := (good.gate (by simp [role])).2
  exact List.mem_map_of_mem (List.mem_filter.mpr ⟨good.releasing role, by simpa using unreleased⟩)

theorem Invariant.releasing_opened :
    ∀ other ∈ state.waiting, request ≠ other ∧ (state.requests other).gateClosed = false := by
  intro other waiting
  have role : (state.view other).role = if request = other then .releasing else .none := by
    simp [State.view, stage, LoopStage.role]
  have good := invariant.good other
  have apart : request ≠ other := fun same =>
    good.apart waiting (good.releasing (role.trans (if_pos same)))
  refine ⟨apart, ?_⟩
  by_contra closed
  have withdrawn := good.withdrawn waiting (Bool.of_not_eq_false closed)
  simp [role, apart] at withdrawn

/-- The section of `mutex_release`, with the batch it grants. -/
theorem step_releasing (stepped : handlerStep state = some after) : Invariant after := by
  have good := invariant.good request
  have held := invariant.releasing_held stage
  obtain ⟨batch, queue, requests, lock⟩ := mutexRelease_represents invariant.lock held
  simp only [handlerStep, stage, Option.some.injEq] at stepped
  subst after
  change Invariant { state with
    mutex := (mutexRelease state.mutex (state.waiter request).isWriter).1
    requests := acquireAll state.requests
      (mutexRelease state.mutex (state.waiter request).isWriter).2
    loop := .granting (mutexRelease state.mutex (state.waiter request).isWriter).2
    grants := state.grants ++ (mutexRelease state.mutex (state.waiter request).isWriter).2
    released := state.released ++ [request] }
  rw [requests]
  generalize (mutexRelease state.mutex (state.waiter request).isWriter).1 = mutex at *
  have waiting : state.waiting = batch.map Waiter.request ++ mutex.queue.map Waiter.request := by
    rw [State.waiting, queue, List.map_append]
  have order := invariant.order
  have distinct := invariant.waiting_nodup
  rw [waiting] at order distinct
  obtain ⟨alone, _, disjoint⟩ := List.nodup_append.mp distinct
  have batched : ∀ other ∈ batch.map Waiter.request, other ∈ state.waiting := by
    intro other member
    rw [waiting]
    exact List.mem_append_left _ member
  have opened := fun other member => invariant.releasing_opened stage other (batched other member)
  have role : (state.view request).role = .releasing := by simp [State.view, stage, LoopStage.role]
  have kept : batch.map (state.waiter ∘ Waiter.request) = batch :=
    (List.map_congr_left fun waiter member =>
      (invariant.queued waiter (queue ▸ List.mem_append_left _ member)).symm).trans (List.map_id _)
  have waiters : State.waiter { state with
      requests := acquireAll state.requests (batch.map Waiter.request) } = state.waiter := by
    funext other
    simp [State.waiter, acquireAll_eq]
  refine ⟨?_, ?_, by simpa [State.waiting] using order, invariant.distinct, ?_, invariant.sent, ?_⟩
  · intro other
    by_cases member : other ∈ batch.map Waiter.request
    · have apart := (opened other member).1
      have gone : other ∉ mutex.queue.map Waiter.request := fun later =>
        disjoint other member other later rfl
      have granted := (invariant.good other).turn (.grant (batched other member)
        (by simp [State.view, stage, LoopStage.role, apart]))
      convert granted using 1
      simp [State.view, State.waiting, acquireAll_eq, Ne.symm apart, LoopStage.role, member, gone]
    · by_cases same : other = request
      · subst same
        convert good.turn (.released role) using 1
        simp [State.view, State.waiting, acquireAll_eq, LoopStage.role, member, queue]
      · convert invariant.good other using 1
        simp [State.view, State.waiting, acquireAll_eq, LoopStage.role, member, same, queue, stage,
          Ne.symm same]
  · have all : (batch.map Waiter.request).filter
        (fun other => !decide (other ∈ state.released ++ [request])) =
        batch.map Waiter.request := by
      apply List.filter_eq_self.mpr
      intro other member
      obtain ⟨apart, opened⟩ := opened other member
      have unreleased : other ∉ state.released := by
        intro released
        exact absurd ((invariant.good other).released released) (by simp [State.view, opened])
      simp [unreleased, Ne.symm apart]
    rw [State.holders]
    change Represents mutex (List.map (State.waiter { state with
      requests := acquireAll state.requests (batch.map Waiter.request) }) _)
    rw [waiters, State.held, List.filter_append, List.map_append, all, ← holders_erase invariant,
      List.map_map, kept]
    exact lock
  · intro waiter member
    change waiter = State.waiter { state with
      requests := acquireAll state.requests (batch.map Waiter.request) } waiter.request
    rw [waiters]
    exact invariant.queued waiter (queue ▸ List.mem_append_right _ member)
  · intro remaining same
    cases same
    exact alone

end

/-- Requests queue at most once, so unlinking the first waiter unlinks all. -/
theorem eraseP_request_not_mem (target : RequestId) {queue : List Waiter}
    (distinct : (queue.map Waiter.request).Nodup) :
    target ∉ (queue.eraseP (fun waiter => waiter.request == target)).map Waiter.request := by
  induction queue with
  | nil => simp
  | cons waiter rest ih =>
    obtain ⟨fresh, restDistinct⟩ := List.nodup_cons.mp distinct
    by_cases same : waiter.request = target
    · rw [List.eraseP_cons_of_pos (by simpa using same)]
      exact same ▸ fresh
    · rw [List.eraseP_cons_of_neg (by simpa using same), List.map_cons, List.mem_cons]
      rintro (head | later)
      · exact same head.symm
      · exact ih restDistinct later

theorem step_cancelling (invariant : Invariant state) (stage : state.loop = .cancelling request) :
    Invariant { state with
      mutex := mutexCancelWaiter state.mutex request, loop := .idle } := by
  obtain ⟨queue, lock⟩ := mutexCancelWaiter_represents request invariant.lock
  have shorter : (mutexCancelWaiter state.mutex request).queue.Sublist state.mutex.queue := by
    rw [queue]
    exact List.eraseP_sublist
  have gone : request ∉ (mutexCancelWaiter state.mutex request).queue.map Waiter.request := by
    rw [queue]
    exact eraseP_request_not_mem request invariant.waiting_nodup
  have role : (state.view request).role = .cancelling := by simp [State.view, stage, LoopStage.role]
  refine { invariant with
    good := each_of_change (P := View.Good) invariant.good request
      ((invariant.good request).turn (.cancelled role)) ?_ ?_
    lock
    order := (List.Sublist.append_left (shorter.map _) _).trans invariant.order
    queued := fun waiter member => invariant.queued waiter (shorter.subset member)
    pending := nofun }
  · simpa [State.view, State.waiting, LoopStage.role] using gone
  · intro other apart
    have same : other ∈ (mutexCancelWaiter state.mutex request).queue.map Waiter.request ↔
        other ∈ state.waiting := by
      rw [queue, State.waiting, List.mem_map, List.mem_map]
      constructor
      · rintro ⟨waiter, member, same⟩
        exact ⟨waiter, List.mem_of_mem_eraseP member, same⟩
      · rintro ⟨waiter, member, same⟩
        exact ⟨waiter, (List.mem_eraseP_of_neg (by simpa [same] using apart)).mpr member, same⟩
    simp [State.view, LoopStage.role, stage, Ne.symm apart]
    simpa [State.waiting] using same

theorem nodup_delivered (invariant : Invariant state) (unsent : request ∉ state.delivered) :
    (state.delivered ++ [request]).Nodup := by
  simpa [List.nodup_append] using ⟨invariant.sent, fun _ sent same => unsent (same ▸ sent)⟩

theorem handlerStep_invariant (invariant : Invariant state)
    (stepped : handlerStep state = some after) : Invariant after := by
  cases stage : state.loop with
  | idle => simp [handlerStep, stage] at stepped
  | handlerEntered request =>
    have role : (state.view request).role = .entered := by simp [State.view, stage, LoopStage.role]
    have good := invariant.good request
    have unhandled : (state.requests request).handled = false := good.entered role
    simp only [handlerStep, stage, unhandled, Bool.false_eq_true, if_false,
      Option.some.injEq] at stepped
    subst after
    exact invariant.change request (good.turn (.claim role)) invariant.sent nofun
  | handlerClaimed request =>
    have role : (state.view request).role = .claimed := by simp [State.view, stage, LoopStage.role]
    have good := invariant.good request
    cases acquired : (state.requests request).acquired with
    | true =>
      simp only [handlerStep, stage, acquired, if_true, Option.some.injEq] at stepped
      subst after
      exact invariant.change request (good.turn (.release role acquired)) invariant.sent nofun
    | false =>
      simp only [handlerStep, stage, acquired, Bool.false_eq_true, if_false,
        Option.some.injEq] at stepped
      subst after
      exact invariant.change request (good.turn (.cancel role acquired)) invariant.sent nofun
  | releasing request => exact step_releasing invariant stage stepped
  | cancelling request =>
    simp only [handlerStep, stage, Option.some.injEq] at stepped
    subst after
    exact step_cancelling invariant stage
  | granting remaining =>
    have distinct := invariant.pending remaining stage
    cases remaining with
    | nil =>
      simp only [handlerStep, stage, Option.some.injEq] at stepped
      subst after
      refine { invariant with good := ?_, pending := nofun }
      intro request
      convert invariant.good request using 1
      simp [State.view, LoopStage.role, State.waiting, stage]
    | cons request rest =>
      have role : (state.view request).role = .pending := by simp [State.view, stage, LoopStage.role]
      have good := invariant.good request
      have opened : (state.requests request).gateClosed = false := by
        have gate := (good.gate (by simp [role])).1
        rw [role] at gate
        simpa [State.view] using gate
      obtain ⟨later, distinct⟩ := List.nodup_cons.mp distinct
      simp only [handlerStep, stage, mutexSendGrant, opened, Bool.false_eq_true, if_false,
        Option.some.injEq] at stepped
      subst after
      apply invariant.change request (good.turn (.deliver role))
        (nodup_delivered invariant (good.pending role).2.1)
      intro remaining same
      cases same
      exact distinct

theorem step_invariant (invariant : Invariant state)
    (stepped : step state label = some after) : Invariant after := by
  cases label with
  | request request isWriter =>
    obtain ⟨absent, rfl⟩ := guarded stepped
    have good := invariant.good request
    have unknown : request ∉ state.arrivals :=
      good.arrived.not.mpr (by simp [State.view, absent, RequestPhase.Arrived])
    exact invariant.change request (good.turn (.prepare isWriter absent)) invariant.sent
      invariant.pending
  | lockSection request =>
    by_cases prepared : (state.requests request).phase = .prepared
    · exact step_lockSection invariant prepared stepped
    · simp [step, prepared] at stepped
  | checkHandled request =>
    simp only [step] at stepped
    split at stepped
    · rename_i grantNow phase
      cases stepped
      exact invariant.change request ((invariant.good request).turn (.check phase)) invariant.sent
        invariant.pending
    · contradiction
  | sendGrant request =>
    obtain ⟨sending, rfl⟩ := guarded stepped
    have good := invariant.good request
    have opened : (state.requests request).gateClosed = false :=
      good.opened (by simp [State.view, sending])
    have unsent := (good.granting (by simp [State.view, sending, RequestPhase.Granting])).2
    simp only [mutexSendGrant, opened, Bool.false_eq_true, if_false]
    exact invariant.change request (good.turn (.send sending)) (nodup_delivered invariant unsent)
      invariant.pending
  | close request =>
    obtain ⟨returned, rfl⟩ := guarded stepped
    exact invariant.change request ((invariant.good request).turn (.close returned)) invariant.sent
      invariant.pending
  | runClose request =>
    obtain ⟨⟨idle, requested, opened⟩, rfl⟩ := guarded stepped
    have role : (state.view request).role = .none := by simp [State.view, idle, LoopStage.role]
    exact invariant.change request ((invariant.good request).turn (.runClose role requested opened))
      invariant.sent nofun
  | handler => exact handlerStep_invariant invariant stepped

theorem reachable_invariant (reachable : system.Reachable state) : Invariant state :=
  reachable.invariant (fun _ initial => initial ▸ invariant_initial)
    (fun _ _ _ invariant stepped => step_invariant invariant stepped)

@[simp] theorem mutexSendGrant_grants (state : State) (request : RequestId) :
    (mutexSendGrant state request).grants = state.grants := by
  unfold mutexSendGrant
  split <;> rfl

/-- Decisions to grant are only appended, and only for requests with an open gate. -/
theorem step_grants (invariant : Invariant state) (stepped : step state label = some after) :
    ∃ granted, after.grants = state.grants ++ granted ∧
      ∀ request ∈ granted, (state.requests request).gateClosed = false := by
  have standing : after.grants = state.grants → ∃ granted, after.grants = state.grants ++ granted ∧
        ∀ request ∈ granted, (state.requests request).gateClosed = false :=
    fun same => ⟨[], by simp [same]⟩
  cases label with
  | lockSection request =>
    by_cases prepared : (state.requests request).phase = .prepared
    · have opened := (invariant.good request).opened (by simp [State.view, prepared])
      simp only [step, prepared, if_true, Option.some.injEq] at stepped
      subst after
      split
      · exact ⟨[request], rfl, by simpa [State.view] using opened⟩
      · exact ⟨[], by simp⟩
    · simp [step, prepared] at stepped
  | handler =>
    cases stage : state.loop with
    | releasing request =>
      have opened := invariant.releasing_opened stage
      have held := invariant.releasing_held stage
      obtain ⟨batch, queue, requests, -⟩ := mutexRelease_represents invariant.lock held
      simp only [step, handlerStep, stage, Option.some.injEq] at stepped
      subst after
      refine ⟨_, rfl, fun other member => (opened other ?_).2⟩
      have batched : other ∈ batch.map Waiter.request := requests ▸ member
      rw [State.waiting, queue, List.map_append]
      exact List.mem_append_left _ batched
    | idle => simp [step, handlerStep, stage] at stepped
    | handlerEntered request | handlerClaimed request =>
      refine standing ?_
      simp only [step, handlerStep, stage] at stepped
      split at stepped <;> cases stepped <;> rfl
    | cancelling request =>
      simp only [step, handlerStep, stage, Option.some.injEq] at stepped
      exact standing (stepped ▸ rfl)
    | granting remaining =>
      refine standing ?_
      cases remaining <;>
        (simp only [step, handlerStep, stage, Option.some.injEq] at stepped; subst after; simp)
  | _ =>
    refine standing ?_
    simp only [step] at stepped
    split at stepped
    all_goals cases stepped
    all_goals simp [State.setRequest]

/-- In every run a held write lock is the only held lock, the counters of the
mutex count the held locks and the queued writers, no request is granted twice
or after its gate closed, and the granted requests, followed by the waiting
ones, stand in the order of their requests. -/
theorem lock_granted_exclusively_in_order (reachable : system.Reachable state) :
    (∀ writer ∈ state.held, (state.requests writer).isWriter = true →
      state.held = [writer]) ∧
    state.mutex.activeReaders + state.mutex.writerActive.toNat = state.held.length ∧
    state.mutex.waitingWriters = state.mutex.queue.countP Waiter.isWriter ∧
    state.grants.Nodup ∧ state.delivered.Nodup ∧
    (∀ label after, system.step state label = some after →
      ∃ granted, after.grants = state.grants ++ granted ∧
        ∀ request ∈ granted, (state.requests request).gateClosed = false) ∧
    state.arrivals.Nodup ∧ (state.grants ++ state.waiting).Sublist state.arrivals := by
  have invariant := reachable_invariant reachable
  refine ⟨?_, ?_, invariant.lock.waiting, invariant.grants_nodup, invariant.sent,
    fun _ _ stepped => step_grants invariant stepped, invariant.distinct, invariant.order⟩
  · intro writer held isWriter
    have alone := invariant.lock.exclusive (state.waiter writer) (List.mem_map_of_mem held) isWriter
    exact (waiter_injective state).list_map (by simpa [State.holders] using alone)
  · simpa [State.holders] using invariant.lock.total

/-- A writer holds the lock while a reader and a second writer queue up. -/
def contendedRun : List Label :=
  [.request 0 true, .lockSection 0, .request 1 false, .lockSection 1, .request 2 true,
    .lockSection 2]

theorem contendedRun_granted_exclusively_in_order :
    ∃ state, system.run {} contendedRun = some state ∧ state.held = [0] ∧ state.waiting = [1, 2] ∧
      state.mutex.activeReaders + state.mutex.writerActive.toNat = state.held.length :=
  ⟨_, rfl, by decide, by decide,
    (lock_granted_exclusively_in_order (.of_run system contendedRun rfl rfl)).2.1⟩

end Libgoc.RwMutex
