import Libgoc.RwMutex.Safety

namespace Libgoc.RwMutex

open Libgoc.Semantics

/-! # Who blocks the head of the queue -/

variable {mutex : Mutex} {holders : List Waiter} {state after : State}

/-- The head of the queue waits for the holders of the lock. -/
structure HeadBlocked (mutex : Mutex) : Prop where
  reader : ∀ waiter rest, mutex.queue = waiter :: rest → waiter.isWriter = false →
    mutex.writerActive = true
  held : mutex.queue ≠ [] → mutex.writerActive = true ∨ 0 < mutex.activeReaders

theorem mutexLockRequest_headBlocked (waiter : Waiter) (represents : Represents mutex holders)
    (blocked : HeadBlocked mutex) : HeadBlocked (mutexLockRequest mutex waiter).1 := by
  have waiting := represents.waiting
  unfold mutexLockRequest
  cases queued : mutex.queue with
  | nil =>
    rw [queued, List.countP_nil] at waiting
    cases writer : waiter.isWriter with
    | true =>
      by_cases free : mutex.writerActive = false ∧ mutex.activeReaders = 0
      · simp only [free, if_true, Bool.not_false, beq_self_eq_true, List.isEmpty_nil,
          Bool.and_self]
        constructor <;> simp
      · have busy : mutex.writerActive = true ∨ 0 < mutex.activeReaders := by
          cases active : mutex.writerActive with
          | true => exact .inl rfl
          | false => exact .inr (Nat.pos_of_ne_zero fun none => free ⟨active, none⟩)
        have later : ¬((!mutex.writerActive && mutex.activeReaders == 0 &&
            ([] : List Waiter).isEmpty) = true) := by
          simpa using fun active none => free ⟨active, none⟩
        simp only [if_true, if_neg later]
        constructor
        · intro head rest front reader
          simp only [List.nil_append, List.cons.injEq] at front
          simp [← front.1, writer] at reader
        · exact fun _ => busy
    | false =>
      cases active : mutex.writerActive with
      | false =>
        simp only [waiting, Bool.false_eq_true, if_false, Bool.not_false, beq_self_eq_true,
          List.isEmpty_nil, Bool.and_self, if_true]
        constructor <;> simp
      | true =>
        exact ⟨fun _ _ _ _ => rfl, fun _ => .inl rfl⟩
  | cons head rest =>
    -- the head of the queue stays where it is
    have reader := blocked.reader head rest queued
    have held := blocked.held (by simp [queued])
    simp only [List.isEmpty_cons, Bool.and_false, Bool.false_eq_true, if_false]
    split
    · refine ⟨?_, fun _ => held⟩
      intro front others same
      simp only [List.cons_append, List.cons.injEq] at same
      exact same.1 ▸ reader
    · refine ⟨?_, fun _ => held⟩
      intro front others same
      simp only [List.cons_append, List.cons.injEq] at same
      exact same.1 ▸ reader

/-- A free lock goes to the head of the queue. -/
theorem grantNext_headBlocked
    (blocked : mutex.writerActive = true ∨ 0 < mutex.activeReaders → HeadBlocked mutex) :
    HeadBlocked (grantNext mutex).1 := by
  unfold grantNext
  split
  · cases queued : mutex.queue with
    | nil => constructor <;> simp [queued]
    | cons waiter rest =>
      cases writer : waiter.isWriter with
      | true =>
        simp only [writer, if_true]
        exact ⟨fun _ _ _ _ => rfl, fun _ => .inl rfl⟩
      | false =>
        simp only [writer, Bool.false_eq_true, if_false, grantReaders_eq]
        constructor
        · intro head others front reader
          have first := List.head?_dropWhile_not (fun waiter : Waiter => !waiter.isWriter)
            (waiter :: rest)
          rw [show List.dropWhile _ (waiter :: rest) = head :: others from front] at first
          simp [reader] at first
        · simp only [List.takeWhile_cons, writer, Bool.not_false, if_true, List.length_cons]
          omega
  · rename_i busy
    apply blocked
    cases active : mutex.writerActive with
    | true => exact .inl rfl
    | false =>
      simp only [active, Bool.not_false, Bool.true_and, beq_iff_eq] at busy
      omega

theorem mutexRelease_headBlocked (represents : Represents mutex holders)
    (member : waiter ∈ holders) (blocked : HeadBlocked mutex) :
    HeadBlocked (mutexRelease mutex waiter.isWriter).1 := by
  have dropped := dropHolder_represents represents member
  apply grantNext_headBlocked
  intro busy
  cases writer : waiter.isWriter with
  | true =>
    -- the writer was the only holder
    have alone := represents.exclusive waiter member writer
    have total := dropped.total
    rw [alone, List.erase_cons_head, List.length_nil] at total
    rcases busy with active | readers
    · simp [active] at total
    · omega
  | false =>
    rw [writer] at busy
    have queue := dropHolder_queue mutex false
    have stays : (dropHolder mutex false).writerActive = mutex.writerActive := by
      simp only [dropHolder, Bool.false_eq_true, if_false]
      split <;> rfl
    refine ⟨?_, fun _ => busy⟩
    intro head rest front reader
    rw [queue] at front
    rw [stays]
    exact blocked.reader head rest front reader

/-- Withdrawing the request would leave a reader behind readers. -/
def strandsReader (mutex : Mutex) (target : RequestId) : Bool :=
  match mutex.queue with
  | writer :: reader :: _ =>
    writer.request == target && writer.isWriter && !reader.isWriter && !mutex.writerActive
  | _ => false

theorem mutexCancelWaiter_headBlocked
    (represents : Represents mutex holders) (kept : strandsReader mutex target = false)
    (blocked : HeadBlocked mutex) : HeadBlocked (mutexCancelWaiter mutex target) := by
  have queue := (mutexCancelWaiter_represents target represents).1
  have counters : (mutexCancelWaiter mutex target).writerActive = mutex.writerActive ∧
      (mutexCancelWaiter mutex target).activeReaders = mutex.activeReaders := by
    unfold mutexCancelWaiter
    split <;> exact ⟨rfl, rfl⟩
  constructor
  · intro head rest front reader
    rw [queue] at front
    rw [counters.1]
    cases queued : mutex.queue with
    | nil =>
      simp [queued] at front
    | cons first others =>
      rw [queued] at front
      by_cases own : first.request = target
      · rw [List.eraseP_cons_of_pos (by simpa using own)] at front
        subst front
        cases writer : first.isWriter with
        | true =>
          simpa [strandsReader, queued, own, writer, reader] using kept
        | false => exact blocked.reader first _ queued writer
      · rw [List.eraseP_cons_of_neg (by simpa using own), List.cons.injEq] at front
        exact blocked.reader first others queued (front.1 ▸ reader)
  · intro nonempty
    rw [counters.1, counters.2]
    apply blocked.held
    intro empty
    rw [queue, empty] at nonempty
    exact nonempty rfl

/-- The request that the step unlinks from the queue. -/
def withdraws (state : State) (label : Label) : Option RequestId :=
  match label, state.loop with
  | .handler, .cancelling request => some request
  | _, _ => none

/-- No withdrawn request leaves a reader behind readers. -/
def KeepsReaders (state : State) (label : Label) : Prop :=
  (withdraws state label).any (strandsReader state.mutex) = false

instance (state : State) (label : Label) : Decidable (KeepsReaders state label) :=
  inferInstanceAs (Decidable (_ = _))

@[simp] theorem mutexSendGrant_mutex (state : State) (request : RequestId) :
    (mutexSendGrant state request).mutex = state.mutex := by
  unfold mutexSendGrant
  split <;> rfl

theorem handlerStep_headBlocked (invariant : Invariant state)
    (kept : KeepsReaders state .handler) (blocked : HeadBlocked state.mutex)
    (stepped : handlerStep state = some after) : HeadBlocked after.mutex := by
  cases stage : state.loop with
  | idle => simp [handlerStep, stage] at stepped
  | handlerEntered request | handlerClaimed request =>
    simp only [handlerStep, stage] at stepped
    split at stepped <;> cases stepped <;> exact blocked
  | releasing request =>
    have held := invariant.releasing_held stage
    simp only [handlerStep, stage, Option.some.injEq] at stepped
    subst after
    exact mutexRelease_headBlocked invariant.lock held blocked
  | cancelling request =>
    simp only [handlerStep, stage, Option.some.injEq] at stepped
    subst after
    apply mutexCancelWaiter_headBlocked invariant.lock _ blocked
    simpa [KeepsReaders, withdraws, stage] using kept
  | granting remaining =>
    cases remaining <;>
      (simp only [handlerStep, stage, Option.some.injEq] at stepped; subst after; simpa using blocked)

theorem step_headBlocked (invariant : Invariant state)
    (kept : KeepsReaders state label) (blocked : HeadBlocked state.mutex)
    (stepped : step state label = some after) : HeadBlocked after.mutex := by
  cases label with
  | handler => exact handlerStep_headBlocked invariant kept blocked stepped
  | lockSection request =>
    obtain ⟨-, rfl⟩ := guarded stepped
    exact mutexLockRequest_headBlocked _ invariant.lock blocked
  | sendGrant request =>
    obtain ⟨-, rfl⟩ := guarded stepped
    simpa [State.setRequest] using blocked
  | request | checkHandled | close | runClose =>
    simp only [step] at stepped
    split at stepped
    all_goals cases stepped
    all_goals exact blocked

theorem reachable_headBlocked (reachable : system.ReachableWith KeepsReaders state) :
    Invariant state ∧ HeadBlocked state.mutex := by
  apply reachable.invariant
  · intro start initial
    subst initial
    exact ⟨invariant_initial, by constructor <;> simp⟩
  · intro before label after holds kept stepped
    exact ⟨step_invariant holds.1 stepped, step_headBlocked holds.1 kept holds.2 stepped⟩

/-- A reader at the head of the queue waits for a writer that holds the lock,
and nobody waits for a free lock. -/
theorem queue_head_blocked_by_holder (reachable : system.ReachableWith KeepsReaders state) :
    (∀ reader ∈ state.mutex.queue.head?, reader.isWriter = false →
      ∃ writer ∈ state.held, (state.requests writer).isWriter = true) ∧
    (state.mutex.queue ≠ [] → state.held ≠ []) := by
  obtain ⟨invariant, blocked⟩ := reachable_headBlocked reachable
  have total := invariant.lock.total
  rw [State.holders, List.length_map] at total
  constructor
  · intro reader head isReader
    obtain ⟨rest, queued⟩ := List.head?_eq_some_iff.mp head
    have active := blocked.reader reader rest queued isReader
    have count := invariant.lock.writers
    rw [active, Bool.toNat_true] at count
    obtain ⟨holder, member, isWriter⟩ := List.countP_pos_iff.mp
      (show 0 < state.holders.countP Waiter.isWriter by omega)
    obtain ⟨writer, held, same⟩ := List.mem_map.mp member
    subst same
    exact ⟨writer, held, isWriter⟩
  · intro nonempty none
    rw [none, List.length_nil] at total
    rcases blocked.held nonempty with active | readers
    · simp [active] at total
    · omega

/-- A reader holds the lock, a writer waits and a reader waits behind it; the
waiting reader gives up. -/
def withdrawnRun : List Label :=
  [.request 0 false, .lockSection 0, .request 1 true, .lockSection 1, .request 2 false,
    .lockSection 2, .checkHandled 2, .close 2, .runClose 2, .handler, .handler, .handler]

theorem withdrawnRun_head_blocked :
    ∃ state, system.runWith KeepsReaders {} withdrawnRun = some state ∧
      state.waiting = [1] ∧ (state.mutex.queue ≠ [] → state.held ≠ []) :=
  ⟨_, rfl, by decide, (queue_head_blocked_by_holder
    (.of_run system KeepsReaders withdrawnRun rfl rfl)).2⟩

/-- The writer gives up instead. -/
def strandedRun : List Label :=
  [.request 0 false, .lockSection 0, .request 1 true, .lockSection 1, .request 2 false,
    .lockSection 2, .checkHandled 1, .close 1, .runClose 1, .handler, .handler, .handler]

/-- The reader stays in the queue although only a reader holds the lock. -/
theorem cancel_strands_reader : ∃ state, system.Reachable state ∧ state.loop = .idle ∧
      state.mutex.queue = [{ request := 2, isWriter := false }] ∧ state.held = [0] ∧
      (state.requests 0).isWriter = false ∧ state.mutex.writerActive = false :=
  ⟨_, .of_run system strandedRun rfl rfl, rfl, rfl, by decide, rfl, rfl⟩

end Libgoc.RwMutex
