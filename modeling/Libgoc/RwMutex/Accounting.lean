import Mathlib.Data.List.Count
import Libgoc.RwMutex.Model

namespace Libgoc.RwMutex

/-! # The lock a mutex stands for -/

/-- The counters agree with the holders and with the wait queue, and a writer
holds the lock alone. -/
structure Represents (mutex : Mutex) (holders : List Waiter) : Prop where
  readers : mutex.activeReaders = holders.countP (fun waiter => !waiter.isWriter)
  writers : mutex.writerActive.toNat = holders.countP Waiter.isWriter
  waiting : mutex.waitingWriters = mutex.queue.countP Waiter.isWriter
  exclusive : ∀ waiter ∈ holders, waiter.isWriter → holders = [waiter]

theorem represents_empty : Represents {} [] :=
  ⟨rfl, rfl, rfl, by simp⟩

variable {mutex : Mutex} {holders : List Waiter}

/-- Readers and writers are all holders, so the counters count the holders. -/
theorem Represents.total (represents : Represents mutex holders) :
    mutex.activeReaders + mutex.writerActive.toNat = holders.length := by
  rw [represents.readers, represents.writers,
    List.length_eq_countP_add_countP Waiter.isWriter (l := holders), Nat.add_comm]
  congr 1
  apply List.countP_congr
  intro waiter _
  simp

theorem Represents.no_writer (represents : Represents mutex holders)
    (inactive : mutex.writerActive = false) : ∀ waiter ∈ holders, waiter.isWriter = false := by
  have none : holders.countP Waiter.isWriter = 0 := by
    rw [← represents.writers, inactive]
    rfl
  intro waiter member
  simpa using List.countP_eq_zero.mp none waiter member

theorem Represents.free (represents : Represents mutex holders)
    (inactive : mutex.writerActive = false) (noReaders : mutex.activeReaders = 0) :
    holders = [] := by
  apply List.eq_nil_of_length_eq_zero
  rw [← represents.total, inactive, noReaders]
  rfl

/-- A lock request is granted at once only past an empty queue; otherwise it
goes to the end of the queue. -/
theorem mutexLockRequest_represents (waiter : Waiter) (represents : Represents mutex holders) :
    (mutexLockRequest mutex waiter).2 = true ∧ mutex.queue = [] ∧
        (mutexLockRequest mutex waiter).1.queue = [] ∧
        Represents (mutexLockRequest mutex waiter).1 (holders ++ [waiter]) ∨
      (mutexLockRequest mutex waiter).2 = false ∧
        (mutexLockRequest mutex waiter).1.queue = mutex.queue ++ [waiter] ∧
        Represents (mutexLockRequest mutex waiter).1 holders := by
  unfold mutexLockRequest
  cases writer : waiter.isWriter with
  | true =>
    simp only [if_true]
    split
    · rename_i free
      simp only [Bool.and_eq_true, Bool.not_eq_true', beq_iff_eq, List.isEmpty_iff] at free
      obtain ⟨⟨inactive, noReaders⟩, empty⟩ := free
      have noHolders := represents.free inactive noReaders
      subst noHolders
      refine .inl ⟨rfl, empty, empty, ?_⟩
      exact ⟨by simpa [writer] using noReaders, by simp [writer], represents.waiting, by simp⟩
    · refine .inr ⟨rfl, rfl, ?_⟩
      exact ⟨represents.readers, represents.writers,
        by simp [represents.waiting, writer], represents.exclusive⟩
  | false =>
    simp only [Bool.false_eq_true, if_false]
    split
    · rename_i free
      simp only [Bool.and_eq_true, Bool.not_eq_true', beq_iff_eq, List.isEmpty_iff] at free
      obtain ⟨⟨inactive, _⟩, empty⟩ := free
      refine .inl ⟨rfl, empty, empty, ?_⟩
      refine ⟨by simp [represents.readers, writer], ?_, represents.waiting, ?_⟩
      · simp [represents.writers, writer]
      · intro other member isWriter
        rcases List.mem_append.mp member with held | new
        · simp [represents.no_writer inactive other held] at isWriter
        · simp only [List.mem_singleton] at new
          subst other
          simp [writer] at isWriter
    · refine .inr ⟨rfl, rfl, ?_⟩
      exact ⟨represents.readers, represents.writers,
        by simp [represents.waiting, writer], represents.exclusive⟩

/-- The reader batch is the longest prefix of readers of the queue. -/
theorem grantReaders_eq (mutex : Mutex) (queue : List Waiter) : grantReaders mutex queue =
      ({ mutex with
          activeReaders := mutex.activeReaders +
            (queue.takeWhile (fun waiter => !waiter.isWriter)).length
          queue := queue.dropWhile (fun waiter => !waiter.isWriter) },
        (queue.takeWhile (fun waiter => !waiter.isWriter)).map Waiter.request) := by
  induction queue generalizing mutex with
  | nil => rfl
  | cons waiter rest ih =>
    cases writer : waiter.isWriter with
    | true => simp [grantReaders, writer]
    | false => simp [grantReaders, writer, ih, Nat.add_assoc, Nat.add_comm 1]

theorem dropHolder_queue (mutex : Mutex) (isWriter : Bool) :
    (dropHolder mutex isWriter).queue = mutex.queue := by
  unfold dropHolder
  split
  · rfl
  · split <;> rfl

theorem dropHolder_represents (represents : Represents mutex holders) (held : waiter ∈ holders) :
    Represents (dropHolder mutex waiter.isWriter) (holders.erase waiter) := by
  cases writer : waiter.isWriter with
  | true =>
    have alone := represents.exclusive waiter held writer
    subst alone
    refine ⟨?_, ?_, represents.waiting, by simp⟩
    · simpa [dropHolder, writer] using represents.readers
    · simp [dropHolder]
  | false =>
    have counted := List.countP_erase (fun waiter : Waiter => !waiter.isWriter) holders waiter
    have someReader : 0 < holders.countP (fun waiter => !waiter.isWriter) :=
      List.countP_pos_iff.mpr ⟨waiter, held, by simp [writer]⟩
    have positive : 0 < mutex.activeReaders := by rw [represents.readers]; exact someReader
    have noWriter : ∀ other ∈ holders, other.isWriter = false := by
      intro other member
      by_contra isWriter
      have alone := represents.exclusive other member (by simpa using isWriter)
      rw [alone, List.mem_singleton] at held
      subst other
      exact isWriter writer
    simp only [dropHolder, Bool.false_eq_true, if_false, if_pos positive]
    refine ⟨?_, ?_, represents.waiting, ?_⟩
    · simp [counted, held, writer, represents.readers]
    · have before : holders.countP Waiter.isWriter = 0 :=
        List.countP_eq_zero.mpr (fun other member => by simp [noWriter other member])
      have after : (holders.erase waiter).countP Waiter.isWriter = 0 :=
        List.countP_eq_zero.mpr
          (fun other member => by simp [noWriter other (List.mem_of_mem_erase member)])
      rw [represents.writers, before, after]
    · intro other member isWriter
      simp [noWriter other (List.mem_of_mem_erase member)] at isWriter

/-- The reader batch leaves the counters of the remaining queue alone: only
readers are dequeued. -/
theorem grantReaders_represents (represents : Represents mutex [])
    (inactive : mutex.writerActive = false) (noReaders : mutex.activeReaders = 0)
    (queued : mutex.queue = queue) :
    ∃ granted, queue = granted ++ (grantReaders mutex queue).1.queue ∧
      (grantReaders mutex queue).2 = granted.map Waiter.request ∧
      Represents (grantReaders mutex queue).1 granted := by
  rw [grantReaders_eq]
  let granted := queue.takeWhile (fun waiter => !waiter.isWriter)
  have split : granted ++ queue.dropWhile (fun waiter => !waiter.isWriter) = queue :=
    List.takeWhile_append_dropWhile
  have readers : ∀ waiter ∈ granted, (!waiter.isWriter) = true :=
    List.all_eq_true.mp List.all_takeWhile
  have noWriters : granted.countP Waiter.isWriter = 0 :=
    List.countP_eq_zero.mpr (fun waiter member => by simpa using readers waiter member)
  refine ⟨granted, split.symm, rfl, ?_, ?_, ?_, ?_⟩
  · simpa [noReaders] using (List.countP_eq_length.mpr readers).symm
  · rw [inactive, noWriters]
    rfl
  · have counted := congrArg (List.countP Waiter.isWriter) split
    rw [List.countP_append, noWriters, Nat.zero_add] at counted
    rw [represents.waiting, queued]
    exact counted.symm
  · intro waiter member writer
    exact absurd writer (by simpa using readers waiter member)

/-- A free lock is granted to a prefix of the queue; a held lock is not. -/
theorem grantNext_represents (represents : Represents mutex holders) :
    ∃ granted, mutex.queue = granted ++ (grantNext mutex).1.queue ∧
      (grantNext mutex).2 = granted.map Waiter.request ∧
      Represents (grantNext mutex).1 (holders ++ granted) := by
  unfold grantNext
  split
  · rename_i free
    simp only [Bool.and_eq_true, Bool.not_eq_true', beq_iff_eq] at free
    have noHolders := represents.free free.1 free.2
    subst noHolders
    cases queued : mutex.queue with
    | nil => exact ⟨[], by simp [queued], rfl, represents⟩
    | cons waiter rest =>
      have waiting := represents.waiting
      rw [queued] at waiting
      cases writer : waiter.isWriter with
      | true =>
        refine ⟨[waiter], by simp [writer], by simp [writer], ?_⟩
        simp only [writer, if_true, List.nil_append]
        exact ⟨by simp [free.2, writer], by simp [writer], by simp [waiting, writer], by simp⟩
      | false =>
        obtain ⟨granted, split, requests, after⟩ :=
          grantReaders_represents represents free.1 free.2 queued
        simp only [writer, Bool.false_eq_true, if_false]
        exact ⟨granted, split, requests, after⟩
  · exact ⟨[], by simp, rfl, by simpa using represents⟩

/-- Releasing a holder removes it and grants a prefix of the queue. -/
theorem mutexRelease_represents (represents : Represents mutex holders) (held : waiter ∈ holders) :
    ∃ granted, mutex.queue = granted ++ (mutexRelease mutex waiter.isWriter).1.queue ∧
      (mutexRelease mutex waiter.isWriter).2 = granted.map Waiter.request ∧
      Represents (mutexRelease mutex waiter.isWriter).1 (holders.erase waiter ++ granted) := by
  obtain ⟨granted, queue, requests, after⟩ :=
    grantNext_represents (dropHolder_represents represents held)
  rw [dropHolder_queue] at queue
  exact ⟨granted, queue, requests, after⟩

/-- Withdrawing a waiting request removes its first waiter from the queue. -/
theorem mutexCancelWaiter_represents (target : RequestId) (represents : Represents mutex holders) :
    (mutexCancelWaiter mutex target).queue =
        mutex.queue.eraseP (fun waiter => waiter.request == target) ∧
      Represents (mutexCancelWaiter mutex target) holders := by
  unfold mutexCancelWaiter
  cases found : mutex.queue.find? (fun waiter => waiter.request == target) with
  | none =>
    have absent := List.find?_eq_none.mp found
    refine ⟨(List.eraseP_of_forall_not ?_).symm, represents⟩
    exact absent
  | some waiter =>
    refine ⟨rfl, represents.readers, represents.writers, ?_, represents.exclusive⟩
    obtain ⟨matched, before, after, queue, others⟩ := List.find?_eq_some_iff_append.mp found
    have erased : mutex.queue.eraseP (fun waiter => waiter.request == target) =
        before ++ after := by
      rw [queue, List.eraseP_append_right _ (fun other member => by simpa using others other member)]
      simp [matched]
    rw [erased, represents.waiting, queue]
    cases writer : waiter.isWriter <;> simp [writer]

end Libgoc.RwMutex
