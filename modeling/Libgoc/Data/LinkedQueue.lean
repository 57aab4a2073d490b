import Mathlib.Data.Fintype.Card
import Mathlib.Logic.Function.Basic
import Mathlib.Logic.Relation

namespace Libgoc.Data

open Function

/-! # Linked queues with many producers and one consumer -/

structure LinkedQueue (ν : Type u) (ε : Type v) where
  next : ν → Option ν
  entry : ν → Option ε
  live : ν → Bool
  head : ν
  tail : ν

namespace LinkedQueue

section

variable [DecidableEq ν]

def start (sentinel : ν) : LinkedQueue ν ε where
  next := fun _ => none
  entry := fun _ => none
  live := fun node => node = sentinel
  head := sentinel
  tail := sentinel

def exchange (queue : LinkedQueue ν ε) (node : ν) (entry : ε) : LinkedQueue ν ε :=
  { queue with
    next := update queue.next node none
    entry := update queue.entry node (some entry)
    live := update queue.live node true
    head := node }

def link (queue : LinkedQueue ν ε) (prev node : ν) : LinkedQueue ν ε :=
  { queue with next := update queue.next prev (some node) }

def pop (queue : LinkedQueue ν ε) : Option (LinkedQueue ν ε × Option ε) :=
  match queue.next queue.tail with
  | none => none
  | some next =>
    some ({ queue with tail := next, live := update queue.live queue.tail false },
      queue.entry next)

end

def reaches (queue : LinkedQueue ν ε) : Nat → ν → Bool
  | 0, _ => true
  | count + 1, node =>
    match queue.next node with
    | none => false
    | some next => queue.reaches count next

def Linked (queue : LinkedQueue ν ε) : ν → Prop :=
  Relation.TransGen (fun node next => queue.next node = some next) queue.tail

theorem reaches_mono {queue after : LinkedQueue ν ε} {inside : ν → Prop}
    (kept : ∀ node next, inside node → queue.next node = some next →
      after.next node = some next ∧ inside next)
    (count : Nat) {node : ν} (isInside : inside node) (linked : queue.reaches count node = true) :
    after.reaches count node = true := by
  induction count generalizing node with
  | zero => rfl
  | succ count ih =>
    cases following : queue.next node with
    | none => simp [reaches, following] at linked
    | some next =>
      obtain ⟨same, isNext⟩ := kept node next isInside following
      rw [reaches, following] at linked
      rw [reaches, same]
      exact ih isNext linked

/-- After a pop one link less is to go. -/
theorem pop_reaches [DecidableEq ν] {queue after : LinkedQueue ν ε} {entry : Option ε}
    {count : Nat} (popped : queue.pop = some (after, entry))
    (linked : queue.reaches (count + 1) queue.tail = true) :
    after.reaches count after.tail = true := by
  unfold LinkedQueue.pop at popped
  split at popped
  · cases popped
  case h_2 next following =>
    cases popped
    rw [reaches, following] at linked
    have rest : queue.reaches count next = true := linked
    apply @reaches_mono _ _ queue _ (fun _ => True) _ count _ trivial rest
    intro _ _ _ same
    exact ⟨same, trivial⟩

theorem pop_of_reaches [DecidableEq ν] {queue : LinkedQueue ν ε}
    (linked : queue.reaches (count + 1) queue.tail = true) : queue.pop ≠ none := by
  intro stuck
  unfold LinkedQueue.pop at stuck
  split at stuck
  case h_1 unlinked => simp [reaches, unlinked] at linked
  case h_2 => cases stuck

/-- The nodes from the tail to the head, their contents, and the edges not linked
yet. -/
structure Chained (queue : LinkedQueue ν ε) (gap : ν → ν → Prop) (chain : List ν)
    (contents : List ε) : Prop where
  first : chain[0]? = some queue.tail
  last : chain[contents.length]? = some queue.head
  filled : chain.tail.map queue.entry = contents.map some
  nodup : chain.Nodup
  live : ∀ node, queue.live node = true ↔ node ∈ chain
  ends : queue.next queue.head = none
  edge : ∀ i node next, chain[i]? = some node → chain[i + 1]? = some next →
    (queue.next node = some next ∧ ¬ gap node next) ∨ (queue.next node = none ∧ gap node next)
  gaps : ∀ node next, gap node next → ∃ i, chain[i]? = some node ∧ chain[i + 1]? = some next

namespace Chained

variable {queue after : LinkedQueue ν ε} {gap : ν → ν → Prop} {chain : List ν}
  {contents : List ε} {node prev : ν} {i j : Nat}

section

variable (chained : Chained queue gap chain contents)
include chained

theorem length :
    chain.length = contents.length + 1 := by
  have bound := (List.getElem?_eq_some_iff.mp chained.first).1
  have same := congrArg List.length chained.filled
  simp only [List.length_map, List.length_tail] at same
  omega

theorem congr
    (same : ∀ node next, gap node next ↔ gap' node next) : Chained queue gap' chain contents where
  first := chained.first
  last := chained.last
  filled := chained.filled
  nodup := chained.nodup
  live := chained.live
  ends := chained.ends
  edge := by
    intro i node next atNode atNext
    rw [← same]
    exact chained.edge i node next atNode atNext
  gaps := by
    intro node next isGap
    exact chained.gaps node next ((same node next).mpr isGap)

/-- Each node is at one place of the chain. -/
theorem index_unique (atFirst : chain[i]? = some node) (atSecond : chain[j]? = some node) : i = j :=
  (List.getElem?_inj (List.getElem?_eq_some_iff.mp atFirst).1 chained.nodup).mp
    (atFirst.trans atSecond.symm)

/-- Both ends of a gap are allocated. -/
theorem gap_live (isGap : gap prev node) :
    queue.live prev = true ∧ queue.live node = true := by
  obtain ⟨i, atPrev, atNode⟩ := chained.gaps prev node isGap
  exact ⟨(chained.live prev).mpr (List.mem_of_getElem? atPrev),
    (chained.live node).mpr (List.mem_of_getElem? atNode)⟩

theorem gap_next (isGap : gap prev node) :
    queue.next prev = none := by
  obtain ⟨i, atPrev, atNode⟩ := chained.gaps prev node isGap
  obtain linked | unlinked := chained.edge i prev node atPrev atNode
  · exact absurd isGap linked.2
  · exact unlinked.1

/-- Links stay inside of the chain. -/
theorem next_mem (member : node ∈ chain)
    (following : queue.next node = some prev) : prev ∈ chain := by
  obtain ⟨i, inside, rfl⟩ := List.mem_iff_getElem.mp member
  have atNode := List.getElem?_eq_getElem inside
  by_cases atEnd : i = contents.length
  · have atHead := chained.last
    rw [← atEnd, atNode] at atHead
    simp [Option.some.inj atHead, chained.ends] at following
  · have within : i + 1 < chain.length := by
      have length := chained.length
      omega
    obtain linked | unlinked := chained.edge i _ _ atNode (List.getElem?_eq_getElem within)
    · rw [following] at linked
      rw [Option.some.inj linked.1]
      exact List.getElem_mem within
    · rw [following] at unlinked
      cases unlinked.1

end

theorem length_le_card [Fintype ν] (chained : Chained queue gap chain contents) :
    contents.length + 1 ≤ Fintype.card ν :=
  chained.length ▸ chained.nodup.length_le_card

theorem nonempty_of_linked (chained : Chained queue gap chain contents)
    (linked : queue.Linked node) : contents ≠ [] := by
  intro empty
  have atHead := chained.last
  rw [empty, List.length_nil, chained.first] at atHead
  obtain ⟨next, isNext, _⟩ := Relation.TransGen.head'_iff.mp linked
  simp [Option.some.inj atHead, chained.ends] at isNext

theorem pop_eq_none [DecidableEq ν] (chained : Chained queue gap chain contents)
    (stuck : queue.pop = none) : contents = [] ∨ ∃ next, gap queue.tail next := by
  cases contents with
  | nil => exact .inl rfl
  | cons entry rest =>
    have inside : 1 < chain.length := by
      rw [chained.length]
      simp
    have unlinked : queue.next queue.tail = none := by
      unfold pop at stuck
      split at stuck
      · assumption
      · cases stuck
    obtain linked | isGap := chained.edge 0 _ _ chained.first (List.getElem?_eq_getElem inside)
    · rw [unlinked] at linked
      cases linked.1
    · exact .inr ⟨_, isGap.2⟩

variable [DecidableEq ν]

theorem start_chained (sentinel : ν) :
    Chained (start sentinel : LinkedQueue ν ε) (fun _ _ => False) [sentinel] [] where
  first := rfl
  last := rfl
  filled := rfl
  nodup := List.nodup_singleton sentinel
  live := by simp [start]
  ends := rfl
  edge := by
    intro i node next _ atNext
    simp at atNext
  gaps := by
    intro _ _ isGap
    exact isGap.elim

section

variable (chained : Chained queue gap chain contents)
include chained

theorem exchange (fresh : queue.live node = false) (entry : ε) :
    Chained (queue.exchange node entry)
      (fun prev next => gap prev next ∨ (prev = queue.head ∧ next = node))
      (chain ++ [node]) (contents ++ [entry]) := by
  have apart : node ∉ chain := by
    intro member
    simp [(chained.live node).mpr member] at fresh
  have other : ∀ {i : Nat} {one : ν}, chain[i]? = some one → one ≠ node := by
    intro i one found same
    exact apart (same ▸ List.mem_of_getElem? found)
  have length := chained.length
  have positive : 0 < chain.length := by omega
  have atHead : chain[contents.length]? = some queue.head := chained.last
  have atEnd : (chain ++ [node])[contents.length + 1]? = some node := by
    rw [← length]
    simp
  constructor
  · rw [List.getElem?_append_left positive]
    exact chained.first
  · rw [List.length_append, List.length_singleton]
    exact atEnd
  · have kept : chain.tail.map (update queue.entry node (some entry)) =
        contents.map some := by
      rw [← chained.filled]
      apply List.map_congr_left
      intro one member
      rw [update_of_ne]
      intro same
      exact apart (same ▸ List.mem_of_mem_tail member)
    have split : (chain ++ [node]).tail = chain.tail ++ [node] :=
      List.tail_append_of_ne_nil (List.ne_nil_of_length_pos positive)
    simp only [LinkedQueue.exchange, split, List.map_append, kept, List.map_cons, List.map_nil,
      update_self]
  · exact List.nodup_append.mpr ⟨chained.nodup, List.nodup_singleton node, by
      intro one member two same
      rw [List.mem_singleton.mp same]
      intro equal
      exact apart (equal ▸ member)⟩
  · intro one
    simp only [LinkedQueue.exchange, List.mem_append, List.mem_singleton]
    by_cases same : one = node
    · simp [same]
    · simp [same, chained.live]
  · simp [LinkedQueue.exchange]
  · intro i one two atOne atTwo
    have bound := (List.getElem?_eq_some_iff.mp atTwo).1
    rw [List.length_append, List.length_singleton] at bound
    rw [List.getElem?_append_left (by omega)] at atOne
    simp only [LinkedQueue.exchange]
    rw [update_of_ne (other atOne)]
    by_cases within : i + 1 < chain.length
    · rw [List.getElem?_append_left within] at atTwo
      have apartTwo := other atTwo
      simpa [apartTwo] using chained.edge i one two atOne atTwo
    · have atLast : i = contents.length := by omega
      subst atLast
      cases Option.some.inj (atTwo.symm.trans atEnd)
      cases Option.some.inj (atOne.symm.trans atHead)
      exact .inr ⟨chained.ends, .inr ⟨rfl, rfl⟩⟩
  · intro one two isGap
    obtain old | ⟨rfl, rfl⟩ := isGap
    · obtain ⟨i, atOne, atTwo⟩ := chained.gaps one two old
      have bound := (List.getElem?_eq_some_iff.mp atTwo).1
      exact ⟨i, by rw [List.getElem?_append_left (by omega)]; exact atOne,
        by rw [List.getElem?_append_left bound]; exact atTwo⟩
    · exact ⟨contents.length, by rw [List.getElem?_append_left (by omega)]; exact atHead, atEnd⟩

theorem link (isGap : gap prev node) :
    Chained (queue.link prev node) (fun one next => gap one next ∧ one ≠ prev) chain contents := by
  obtain ⟨i, atPrev, atNode⟩ := chained.gaps prev node isGap
  have notHead : queue.head ≠ prev := by
    intro same
    have place : i = contents.length := chained.index_unique atPrev (same ▸ chained.last)
    have bound := (List.getElem?_eq_some_iff.mp atNode).1
    have length := chained.length
    omega
  constructor
  · exact chained.first
  · exact chained.last
  · exact chained.filled
  · exact chained.nodup
  · exact chained.live
  · simp only [LinkedQueue.link]
    rw [update_of_ne notHead]
    exact chained.ends
  · intro j one two atOne atTwo
    simp only [LinkedQueue.link]
    by_cases same : one = prev
    · subst same
      cases chained.index_unique atOne atPrev
      cases Option.some.inj (atTwo.symm.trans atNode)
      simp
    · rw [update_of_ne same]
      simpa [same] using chained.edge j one two atOne atTwo
  · intro one two open'
    exact chained.gaps one two open'.1

theorem exchange_reaches (fresh : queue.live node = false) (entry : ε) {count : Nat}
    (linked : queue.reaches count queue.tail = true) :
    (queue.exchange node entry).reaches count queue.tail = true := by
  have tail : queue.tail ∈ chain := List.mem_of_getElem? chained.first
  apply @reaches_mono _ _ _ _ (fun one => one ∈ chain) _ count _ tail linked
  intro one next member following
  refine ⟨?_, chained.next_mem member following⟩
  have apart : one ≠ node := by
    intro same
    simp [← same, (chained.live one).mpr member] at fresh
  simp only [LinkedQueue.exchange]
  rw [update_of_ne apart]
  exact following

theorem link_reaches (isGap : gap prev node)
    {count : Nat} (linked : queue.reaches count queue.tail = true) :
    (queue.link prev node).reaches count queue.tail = true := by
  apply @reaches_mono _ _ _ _ (fun _ => True) _ count _ trivial linked
  intro one next _ following
  refine ⟨?_, trivial⟩
  have apart : one ≠ prev := by
    intro same
    simp [same, chained.gap_next isGap] at following
  simp only [LinkedQueue.link]
  rw [update_of_ne apart]
  exact following

/-- What the consumer pops is the first of the contents. -/
theorem pop {entry : Option ε} (popped : queue.pop = some (after, entry)) :
    ∃ first chain' contents', contents = first :: contents' ∧ entry = some first ∧
      Chained after gap chain' contents' := by
  unfold LinkedQueue.pop at popped
  split at popped
  · cases popped
  case h_2 second linked =>
    cases popped
    obtain ⟨one, rest, rfl⟩ : ∃ one rest, chain = one :: rest := by
      cases chain with
      | nil => cases chained.first
      | cons one rest => exact ⟨one, rest, rfl⟩
    have atTail : one = queue.tail := Option.some.inj chained.first
    subst atTail
    have apart : queue.tail ∉ rest := (List.nodup_cons.mp chained.nodup).1
    cases contents with
    | nil =>
      have atHead := chained.last
      rw [List.length_nil] at atHead
      have same : queue.tail = queue.head := Option.some.inj atHead
      have ends := chained.ends
      simp [← same, linked] at ends
    | cons first others =>
      obtain ⟨two, rest, rfl⟩ : ∃ two rest', rest = two :: rest' := by
        cases rest with
        | nil => cases chained.filled
        | cons two rest' => exact ⟨two, rest', rfl⟩
      obtain ⟨isNext, closed⟩ | ⟨unlinked, _⟩ := chained.edge 0 _ _ rfl rfl
      · rw [linked] at isNext
        cases isNext
        have filled := chained.filled
        simp only [List.tail_cons, List.map_cons, List.cons.injEq] at filled
        refine ⟨first, second :: rest, others, rfl, filled.1, ?_⟩
        constructor
        · rfl
        · simpa using chained.last
        · exact filled.2
        · exact (List.nodup_cons.mp chained.nodup).2
        · intro node
          by_cases same : node = queue.tail
          · rw [same]
            simp only [update_self]
            simpa using apart
          · dsimp only
            rw [update_of_ne same, chained.live]
            simp [same]
        · exact chained.ends
        · intro i node next atNode atNext
          exact chained.edge (i + 1) node next atNode atNext
        · intro node next isGap
          obtain ⟨i, atNode, atNext⟩ := chained.gaps node next isGap
          cases i with
          | zero =>
            cases atNode
            cases atNext
            exact absurd isGap closed
          | succ i => exact ⟨i, atNode, atNext⟩
      · simp [linked] at unlinked

end

end Chained

end LinkedQueue

end Libgoc.Data
