import Mathlib.Data.Finset.Card
import Mathlib.Data.List.Nodup
import Mathlib.Logic.Relation

namespace Libgoc.Data.BreadthFirst

open Relation

/-! # Breadth-first traversal -/

variable {α : Type} {children : α → List α} {keep : α → Bool}

/-- What has been visited, what of it is kept, and the next layer. -/
structure Front (α : Type) where
  visited : List α
  found : List α
  next : List α

def visit [DecidableEq α] (children : α → List α) (keep : α → Bool) (front : Front α) (node : α) : Front α :=
  if node ∈ front.visited then front
  else
    let visited := front.visited ++ [node]
    { visited
      found := if keep node then front.found ++ [node] else front.found
      next := front.next ++ (children node).filter fun child => child ∉ visited }

def visitLayer [DecidableEq α] (children : α → List α) (keep : α → Bool) (front : Front α)
    (layer : List α) : Front α :=
  layer.foldl (visit children keep) front

/-- Go through the layers from `layer` on; `none` when more than `fuel` of them
are not empty. -/
def traverse [DecidableEq α] (children : α → List α) (keep : α → Bool) :
    Nat → List α → List α → List α → Option (List α)
  | _, [], _, found => some found
  | 0, _ :: _, _, _ => none
  | fuel + 1, node :: rest, visited, found =>
    let front := visitLayer children keep ⟨visited, found, []⟩ (node :: rest)
    traverse children keep fuel front.next front.visited front.found

def Edge (children : α → List α) (node child : α) : Prop :=
  child ∈ children node

/-- The traversal from `start` has `pending` nodes left to look at. -/
structure Sound (children : α → List α) (start : α) (visited pending : List α) : Prop where
  nodup : visited.Nodup
  reached : ∀ node, node ∈ visited ∨ node ∈ pending → ReflTransGen (Edge children) start node
  start : start ∈ visited ∨ start ∈ pending
  closed : ∀ node ∈ visited, ∀ child ∈ children node, child ∈ visited ∨ child ∈ pending

theorem Sound.skip {start node : α}
    (sound : Sound children start visited (node :: rest)) (old : node ∈ visited) :
    Sound children start visited rest := by
  have kept : ∀ {other}, other ∈ visited ∨ other ∈ node :: rest → other ∈ visited ∨ other ∈ rest := by
    intro other known
    simp only [List.mem_cons] at known
    obtain known | rfl | later := known
    · exact .inl known
    · exact .inl old
    · exact .inr later
  constructor
  · exact sound.nodup
  · intro other known
    apply sound.reached
    exact known.imp_right (List.mem_cons_of_mem _)
  · exact kept sound.start
  · intro other member child edge
    exact kept (sound.closed other member child edge)

/-- With nothing left to look at, what has been visited is what can be reached. -/
theorem Sound.complete {start : α} (sound : Sound children start visited []) :
    (visited.filter keep).Nodup ∧ ∀ node, node ∈ visited.filter keep ↔
      ReflTransGen (Edge children) start node ∧ keep node = true := by
  have begun : start ∈ visited := by simpa using sound.start
  have all : ∀ {node}, ReflTransGen (Edge children) start node → node ∈ visited := by
    intro node reached
    induction reached with
    | refl => exact begun
    | tail _ edge ih => simpa using sound.closed _ ih _ edge
  constructor
  · exact sound.nodup.filter keep
  · intro node
    rw [List.mem_filter]
    constructor
    · intro member
      exact ⟨sound.reached node (.inl member.1), member.2⟩
    · intro reached
      exact ⟨all reached.1, reached.2⟩

variable [DecidableEq α]

theorem Sound.take {start node : α}
    (sound : Sound children start visited (node :: rest)) (fresh : node ∉ visited) :
    Sound children start (visited ++ [node])
      (rest ++ (children node).filter fun child => child ∉ visited ++ [node]) := by
  have kept : ∀ {other}, other ∈ visited ∨ other ∈ node :: rest → other ∈ visited ++ [node] ∨
        other ∈ rest ++ (children node).filter fun child => child ∉ visited ++ [node] := by
    intro other known
    simp only [List.mem_cons] at known
    simp only [List.mem_append, List.mem_singleton]
    obtain known | rfl | later := known
    · exact .inl (.inl known)
    · exact .inl (.inr rfl)
    · exact .inr (.inl later)
  have here : ReflTransGen (Edge children) start node := sound.reached node (.inr List.mem_cons_self)
  constructor
  · exact List.nodup_append.mpr ⟨sound.nodup, List.nodup_singleton node, by
      intro a old b single
      rw [List.mem_singleton.mp single]
      intro same
      exact fresh (same ▸ old)⟩
  · intro other known
    simp only [List.mem_append, List.mem_singleton, List.mem_filter] at known
    obtain (old | rfl) | later | ⟨child, -⟩ := known
    · exact sound.reached other (.inl old)
    · exact here
    · exact sound.reached other (.inr (List.mem_cons_of_mem _ later))
    · exact here.tail child
  · exact kept sound.start
  · intro other member child edge
    obtain old | single := List.mem_append.mp member
    · exact kept (sound.closed other old child edge)
    · obtain rfl := List.mem_singleton.mp single
      by_cases known : child ∈ visited ++ [other]
      · exact .inl known
      · exact .inr (List.mem_append_right _ (List.mem_filter.mpr ⟨edge, by simpa using known⟩))

/-- A layer is gone through with the next one growing behind it. -/
theorem Sound.visitLayer {start : α}
    (sound : Sound children start front.visited (layer ++ front.next)) :
    Sound children start (visitLayer children keep front layer).visited
      (visitLayer children keep front layer).next := by
  induction layer generalizing front with
  | nil => exact sound
  | cons node rest ih =>
    apply ih
    unfold visit
    split
    next old => exact sound.skip old
    next fresh =>
      rw [List.cons_append] at sound
      have taken := sound.take fresh
      rwa [List.append_assoc] at taken

theorem visitLayer_found (kept : front.found = front.visited.filter keep) (layer : List α) :
    (visitLayer children keep front layer).found =
      (visitLayer children keep front layer).visited.filter keep := by
  induction layer generalizing front with
  | nil => exact kept
  | cons node rest ih =>
    apply ih
    unfold visit
    split
    next => exact kept
    next => cases keep? : keep node <;> simp [kept, keep?]

/-- When the traversal ends it has found the nodes that can be reached, each
once. -/
theorem Sound.traverse {start : α}
    (sound : Sound children start visited layer) (kept : found = visited.filter keep)
    (ended : traverse children keep fuel layer visited found = some result) :
    result.Nodup ∧
      ∀ node, node ∈ result ↔ ReflTransGen (Edge children) start node ∧ keep node = true := by
  induction fuel generalizing layer visited found with
  | zero =>
    cases layer with
    | cons => cases ended
    | nil =>
      obtain rfl := Option.some.inj ended
      rw [kept]
      exact sound.complete
  | succ fuel ih =>
    cases layer with
    | nil =>
      obtain rfl := Option.some.inj ended
      rw [kept]
      exact sound.complete
    | cons node rest =>
      apply ih _ (visitLayer_found kept _) ended
      apply Sound.visitLayer
      simpa using sound

theorem visitLayer_progress (front : Front α) (layer : List α) :
    visitLayer children keep front layer = front ∨
      front.visited.length < (visitLayer children keep front layer).visited.length := by
  induction layer generalizing front with
  | nil => exact .inl rfl
  | cons node rest ih =>
    simp only [visitLayer, List.foldl_cons]
    by_cases old : node ∈ front.visited
    · rw [visit, if_pos old]
      exact ih front
    · have longer : front.visited.length < (visit children keep front node).visited.length := by
        simp [visit, old]
      obtain same | more := ih (visit children keep front node)
      · rw [visitLayer] at same
        rw [same]
        exact .inr longer
      · exact .inr (longer.trans more)

/-- A layer in which nothing new is visited is the last, so among finitely many
nodes the traversal ends. -/
theorem Sound.traverse_ends {start : α} {nodes : Finset α}
    (sound : Sound children start visited layer)
    (inside : ∀ node, ReflTransGen (Edge children) start node → node ∈ nodes)
    (enough : nodes.card < fuel + visited.length) :
    ∃ result, BreadthFirst.traverse children keep fuel layer visited found = some result := by
  induction fuel generalizing layer visited found with
  | zero =>
    have bound : visited.length ≤ nodes.card := by
      rw [← List.toFinset_card_of_nodup sound.nodup]
      apply Finset.card_le_card
      intro node member
      exact inside node (sound.reached node (.inl (List.mem_toFinset.mp member)))
    omega
  | succ fuel ih =>
    cases layer with
    | nil => exact ⟨found, rfl⟩
    | cons node rest =>
      rw [BreadthFirst.traverse]
      have next : Sound children start
          (BreadthFirst.visitLayer children keep ⟨visited, found, []⟩ (node :: rest)).visited
          (BreadthFirst.visitLayer children keep ⟨visited, found, []⟩ (node :: rest)).next := by
        apply Sound.visitLayer
        simpa using sound
      have progress : BreadthFirst.visitLayer children keep ⟨visited, found, []⟩ (node :: rest) =
          ⟨visited, found, []⟩ ∨ _ := visitLayer_progress ⟨visited, found, []⟩ (node :: rest)
      obtain same | more := progress
      · rw [same]
        cases fuel <;> exact ⟨found, rfl⟩
      · apply ih next
        simp only at more
        omega

end Libgoc.Data.BreadthFirst
