import Mathlib.Data.List.Nodup

namespace Libgoc.Data

/-! # Bounded queues on which both sides may wait -/

/-- The guard of a channel that lets one close through: who asks first moves it on
from `opened`, and the close itself is done later. -/
inductive CloseGuard where
  | opened
  | requested
  | closing
deriving Repr, DecidableEq

def CloseGuard.close : CloseGuard → CloseGuard
  | .opened => .requested
  | guard => guard

structure Handoff (Put : Type u) (Take : Type v) where
  size : Nat
  stored : List Put
  takers : List Take
  putters : List Put
  closed : Bool
  effects : List Put
  taken : List Put

namespace Handoff

/-- `store` is early if the put has not looked for a waiting taker, `wait` is
single if at most one side of the queue gets new parties. -/
inductive Action where
  | leave
  | take
  | store (early : Bool)
  | give
  | fetch
  | wait (single : Bool)
deriving DecidableEq

variable {Put : Type u} {Take : Type v}

inductive Step (queue : Handoff Put Take) : Action → Handoff Put Take → Prop where
  | leave (takers : List Take) (putters : List Put) (closed : Bool)
      (takersLeft : takers.Sublist queue.takers) (puttersLeft : putters.Sublist queue.putters)
      (stillClosed : queue.closed = true → closed = true) :
      Step queue .leave { queue with takers, putters, closed }
  | take (put : Put) (rest : List Put) (present : queue.stored = put :: rest) :
      Step queue .take { queue with stored := rest, taken := queue.taken ++ [put] }
  | store (early : Bool) (put : Put) (opened : queue.closed = false)
      (room : queue.stored.length < queue.size) (patient : early = false → queue.takers = [])
      (fresh : put ∉ queue.effects) :
      Step queue (.store early) { queue with
        stored := queue.stored ++ [put], effects := queue.effects ++ [put] }
  | give (put : Put) (taker : Take) (rest takers : List Take) (putters : List Put)
      (opened : queue.closed = false) (waiting : queue.takers = taker :: rest)
      (takersLeft : takers.Sublist rest) (puttersLeft : putters.Sublist queue.putters)
      (fresh : put ∉ queue.effects) :
      Step queue .give { queue with
        takers, putters, effects := queue.effects ++ [put], taken := queue.taken ++ [put] }
  | fetch (put : Put) (rest : List Put) (takers : List Take) (putters : List Put)
      (drained : queue.stored = []) (waiting : queue.putters = put :: rest)
      (takersLeft : takers.Sublist queue.takers) (puttersLeft : putters.Sublist rest) :
      Step queue .fetch { queue with takers, putters, taken := queue.taken ++ [put] }
  | wait (single : Bool) (takers : List Take) (putters : List Put)
      (opened : takers ≠ [] ∨ putters ≠ [] → queue.closed = false)
      (oneSide : single = true → takers = [] ∨ putters = [])
      (takersStuck : takers ≠ [] → queue.stored = [] ∧ queue.putters = [])
      (puttersStuck : putters ≠ [] → queue.stored.length = queue.size ∧ queue.takers = [])
      (distinct : putters.Nodup) (fresh : ∀ put ∈ putters, put ∉ queue.effects) :
      Step queue (.wait single) { queue with
        takers := queue.takers ++ takers, putters := queue.putters ++ putters
        effects := queue.effects ++ putters }

variable {queue next : Handoff Put Take} {action : Action}

def empty (size : Nat) : Handoff Put Take where
  size
  stored := []
  takers := []
  putters := []
  closed := false
  effects := []
  taken := []

/-- The parties that wait in the second queue wait in the first, and the stored
values are the same. -/
structure Fewer (queue next : Handoff Put Take) : Prop where
  size : next.size = queue.size
  stored : next.stored = queue.stored
  takers : next.takers.Sublist queue.takers
  putters : next.putters.Sublist queue.putters

theorem Fewer.refl (queue : Handoff Put Take) : Fewer queue queue :=
  ⟨rfl, rfl, .refl _, .refl _⟩

theorem Fewer.trans (left : Fewer queue middle) (right : Fewer middle next) : Fewer queue next :=
  ⟨right.size.trans left.size, right.stored.trans left.stored, right.takers.trans left.takers,
    right.putters.trans left.putters⟩

theorem Step.fewer (step : Step queue .leave next) : Fewer queue next := by
  cases step with
  | leave takers putters closed takersLeft puttersLeft =>
    exact ⟨rfl, rfl, takersLeft, puttersLeft⟩

theorem nil_of_sublist (sublist : left.Sublist right) (empty : right = []) : left = [] := by
  subst empty
  exact List.sublist_nil.mp sublist

/-- No taker waits while something is stored. -/
def Idle (queue : Handoff Put Take) : Prop :=
  queue.takers ≠ [] → queue.stored = []

/-- Takers do not wait for stored values unless a put is stored early. -/
theorem Step.idle (step : Step queue action next) (idle : queue.Idle)
    (patient : action = .store true → queue.takers = [] ∨ queue.stored.length = queue.size) :
    next.Idle := by
  cases step with
  | leave takers putters closed takersLeft =>
    exact fun waiting => idle fun none => waiting (nil_of_sublist takersLeft none)
  | take put rest present =>
    intro waiting
    cases present.symm.trans (idle waiting)
  | store early put opened room alone =>
    intro waiting
    cases early with
    | false => exact absurd (alone rfl) waiting
    | true =>
      rcases patient rfl with none | full
      · exact absurd none waiting
      · omega
  | give put taker rest takers putters opened waiting => exact fun _ => idle (by simp [waiting])
  | fetch put rest takers putters drained => exact fun _ => drained
  | wait single takers putters opened oneSide takersStuck =>
    intro waiting
    by_cases none : takers = []
    · exact idle (by simpa [none] using waiting)
    · exact (takersStuck none).1

/-- Putters wait only while the queue is full. -/
def Packed (queue : Handoff Put Take) : Prop :=
  queue.putters ≠ [] → queue.stored.length = queue.size

/-- Putters do not wait beside free space unless a stored value is taken past
them. -/
theorem Step.packed (step : Step queue action next) (packed : queue.Packed)
    (last : action = .take → queue.stored ≠ [] → queue.putters = []) : next.Packed := by
  cases step with
  | leave takers putters closed takersLeft puttersLeft =>
    exact fun waiting => packed fun none => waiting (nil_of_sublist puttersLeft none)
  | take put rest present => exact fun waiting => absurd (last rfl (by simp [present])) waiting
  | store early put opened room =>
    intro waiting
    have full := packed waiting
    omega
  | give put taker rest takers putters opened waiting takersLeft puttersLeft =>
    exact fun some => packed fun none => some (nil_of_sublist puttersLeft none)
  | fetch put rest takers putters drained waiting => exact fun _ => packed (by simp [waiting])
  | wait single takers putters opened oneSide takersStuck puttersStuck =>
    intro waiting
    by_cases none : putters = []
    · exact packed (by simpa [none] using waiting)
    · exact (puttersStuck none).1

/-- The queue is the rest of the puts that took effect, in their order, and no
taker waits beside a put. -/
structure Ordered (queue : Handoff Put Take) : Prop where
  order : (queue.taken ++ queue.stored ++ queue.putters).Sublist queue.effects
  alone : queue.takers ≠ [] → queue.stored = [] ∧ queue.putters = []

/-- Puts are taken in the order of their effects unless one is stored past a
waiting putter. -/
theorem Step.ordered (step : Step queue action next) (ordered : queue.Ordered)
    (patient : action ≠ .store true) (single : action ≠ .wait false)
    (last : action = .store false → queue.stored.length < queue.size → queue.putters = []) :
    next.Ordered := by
  obtain ⟨order, alone⟩ := ordered
  cases step with
  | leave takers putters closed takersLeft puttersLeft =>
    refine ⟨(List.Sublist.append (.refl _) puttersLeft).trans order, fun waiting => ?_⟩
    obtain ⟨drained, none⟩ := alone fun none => waiting (nil_of_sublist takersLeft none)
    exact ⟨drained, nil_of_sublist puttersLeft none⟩
  | take put rest present =>
    rw [present] at order
    refine ⟨by simpa using order, fun waiting => ?_⟩
    cases present.symm.trans (alone waiting).1
  | store early put opened room takerless =>
    cases early with
    | true => exact absurd rfl patient
    | false =>
      have none := last rfl room
      refine ⟨?_, fun waiting => absurd (takerless rfl) waiting⟩
      rw [none, List.append_nil] at order ⊢
      simpa using order.append (.refl [put])
  | give put taker rest takers putters opened waiting takersLeft puttersLeft =>
    obtain ⟨drained, none⟩ := alone (by simp [waiting])
    have left := nil_of_sublist puttersLeft none
    refine ⟨?_, fun _ => ⟨drained, left⟩⟩
    simp only [drained, none, List.append_nil] at order
    simpa [drained, left] using order.append (.refl [put])
  | fetch put rest takers putters drained waiting takersLeft puttersLeft =>
    refine ⟨?_, fun some => ?_⟩
    · rw [drained, waiting, List.append_nil] at order
      refine List.Sublist.trans ?_ order
      simp only [drained, List.append_nil, List.append_assoc, List.singleton_append]
      exact (List.Sublist.refl _).append (puttersLeft.cons_cons put)
    · have none := (alone fun none => some (nil_of_sublist takersLeft none)).2
      cases waiting.symm.trans none
  | wait one takers putters opened oneSide takersStuck puttersStuck =>
    cases one with
    | false => exact absurd rfl single
    | true =>
      refine ⟨?_, fun waiting => ?_⟩
      · rw [← List.append_assoc]
        exact order.append (.refl putters)
      · by_cases none : takers = []
        · have before : queue.takers ≠ [] := by simpa [none] using waiting
          have noPutters : putters = [] := by
            by_contra some
            exact before (puttersStuck some).2
          simpa [noPutters] using alone before
        · have noPutters := (oneSide rfl).resolve_left none
          simpa [noPutters] using takersStuck none

theorem Step.effects_nodup (step : Step queue action next) (distinct : queue.effects.Nodup) :
    next.effects.Nodup := by
  have append : ∀ put, put ∉ queue.effects → (queue.effects ++ [put]).Nodup := by
    intro put fresh
    refine distinct.append (by simp) ?_
    simpa using fresh
  cases step with
  | leave => exact distinct
  | take => exact distinct
  | store early put opened room patient fresh => exact append put fresh
  | give put taker rest takers putters opened waiting takersLeft puttersLeft fresh =>
    exact append put fresh
  | fetch => exact distinct
  | wait single takers putters opened oneSide takersStuck puttersStuck nodup fresh =>
    exact distinct.append nodup fun put member new => fresh put new member

theorem sublist_eq_filter [DecidableEq α] {part whole : List α} (sublist : part.Sublist whole)
    (distinct : whole.Nodup) : part = whole.filter (· ∈ part) := by
  induction sublist with
  | slnil => rfl
  | cons item rest ih =>
    rename_i part whole
    obtain ⟨absent, distinct⟩ := List.nodup_cons.mp distinct
    have missing : item ∉ part := fun member => absent (rest.subset member)
    rw [List.filter_cons_of_neg (by simpa using missing)]
    exact ih distinct
  | cons_cons item rest ih =>
    rename_i part whole
    obtain ⟨absent, distinct⟩ := List.nodup_cons.mp distinct
    rw [List.filter_cons_of_pos (by simp)]
    congr 1
    refine (ih distinct).trans (List.filter_congr fun other member => ?_)
    have different : other ≠ item := by
      rintro rfl
      exact absent member
    simp [different]

/-- A part of a list without repetitions keeps its order. -/
theorem pair_sublist [DecidableEq α] {part whole : List α}
    (sublist : part.Sublist whole) (distinct : whole.Nodup)
    (order : [first, second].Sublist whole) (firstIn : first ∈ part) (secondIn : second ∈ part) :
    [first, second].Sublist part := by
  rw [sublist_eq_filter sublist distinct]
  have kept := order.filter (fun item => decide (item ∈ part))
  simpa [firstIn, secondIn] using kept

end Handoff

end Libgoc.Data
