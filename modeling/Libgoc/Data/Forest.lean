import Mathlib.Data.Finset.Card
import Mathlib.Data.Fintype.EquivFin
import Mathlib.Order.WellFounded
import Mathlib.Logic.Relation

namespace Libgoc.Data.Forest

open Relation Function

/-! # Parent pointers -/

variable {α : Type} {parent : α → Option α}

def Below (parent : α → Option α) (child node : α) : Prop :=
  parent child = some node

def Acyclic (parent : α → Option α) : Prop :=
  ∀ node, ¬ TransGen (Below parent) node node

def after (parent : α → Option α) : Nat → Option α → Option α
  | 0, current => current
  | _ + 1, none => none
  | count + 1, some node => after parent count (parent node)

theorem after_none (count : Nat) : after parent count none = none := by
  cases count <;> rfl

theorem after_succ (count : Nat) (current : Option α) :
    after parent (count + 1) current = (after parent count current).bind parent := by
  induction count generalizing current with
  | zero => cases current <;> rfl
  | succ count ih =>
    cases current with
    | none => rfl
    | some node => exact ih (parent node)

/-- An edge from a node that is not above its new parent closes no cycle. -/
theorem Acyclic.insert [DecidableEq α] (acyclic : Acyclic parent)
    (apart : ¬ ReflTransGen (Below parent) node child) :
    Acyclic (update parent child (some node)) := by
  have edge : ∀ {a b}, Below (update parent child (some node)) a b →
      Below parent a b ∨ a = child ∧ b = node := by
    intro a b below
    by_cases same : a = child
    · subst same
      rw [Below, update_self] at below
      exact .inr ⟨rfl, (Option.some.inj below).symm⟩
    · rw [Below, update_of_ne same] at below
      exact .inl below
  -- a path goes through the new edge at most once
  have path : ∀ {a b}, TransGen (Below (update parent child (some node))) a b →
      TransGen (Below parent) a b ∨
        ReflTransGen (Below parent) a child ∧ ReflTransGen (Below parent) node b := by
    intro a b reaches
    induction reaches with
    | single first =>
      obtain old | ⟨rfl, rfl⟩ := edge first
      · exact .inl (.single old)
      · exact .inr ⟨.refl, .refl⟩
    | tail _ last ih =>
      obtain old | ⟨rfl, rfl⟩ := edge last
      · obtain ih | ⟨start, rest⟩ := ih
        · exact .inl (ih.tail old)
        · exact .inr ⟨start, rest.tail old⟩
      · obtain ih | ⟨_, rest⟩ := ih
        · exact .inr ⟨ih.to_reflTransGen, .refl⟩
        · exact absurd rest apart
  intro start cycle
  obtain old | ⟨up, down⟩ := path cycle
  · exact acyclic start old
  · exact apart (down.trans up)

theorem acyclic_of_rank (rank : α → Nat)
    (smaller : ∀ child node, parent child = some node → rank node < rank child) :
    Acyclic parent := by
  have descends : ∀ {a b}, TransGen (Below parent) a b → rank b < rank a := by
    intro a b reaches
    induction reaches with
    | single below => exact smaller _ _ below
    | tail _ below ih => exact (smaller _ _ below).trans ih
  intro node cycle
  exact Nat.lt_irrefl _ (descends cycle)

theorem Acyclic.antisymm (acyclic : Acyclic parent)
    (up : ReflTransGen (Below parent) a b) (down : ReflTransGen (Below parent) b a) : a = b := by
  obtain rfl | reaches := reflTransGen_iff_eq_or_transGen.mp up
  · rfl
  · exact absurd (reaches.trans_left down) (acyclic a)

/-- A walk that ends passes finitely many nodes. -/
theorem acc_of_after (ends : after parent count (some node) = none) :
    Acc (fun above child => parent child = some above) node := by
  induction count generalizing node with
  | zero => cases ends
  | succ count ih =>
    constructor
    intro above below
    rw [after, below] at ends
    exact ih ends

theorem acc_of_below (up : ReflTransGen (Below parent) start node)
    (ends : Acc (fun above child => parent child = some above) node) :
    Acc (fun above child => parent child = some above) start := by
  induction up using ReflTransGen.head_induction_on with
  | refl => exact ends
  | head below _ ih =>
    constructor
    intro above same
    obtain rfl := Option.some.inj (below.symm.trans same)
    exact ih

/-- A walk that ends comes to no node twice. -/
theorem acyclic_of_acc (ends : Acc (fun above child => parent child = some above) start)
    (up : ReflTransGen (Below parent) start node) : ¬ TransGen (Below parent) node node := by
  induction ends generalizing node with
  | intro start _ ih =>
    obtain rfl | ⟨above, below, rest⟩ := ReflTransGen.cases_head up
    · intro cycle
      obtain ⟨above, below, rest⟩ := TransGen.head'_iff.mp cycle
      exact ih above below rest cycle
    · exact ih above below rest

theorem reaches_after (walked : after parent (count + 1) (some start) = some node) :
    TransGen (Below parent) start node := by
  induction count generalizing node with
  | zero => exact .single walked
  | succ count ih =>
    rw [after_succ] at walked
    obtain ⟨middle, reached, last⟩ := Option.bind_eq_some_iff.mp walked
    exact (ih reached).tail last

theorem after_add (first second : Nat) (current : Option α) :
    after parent (first + second) current = after parent second (after parent first current) := by
  induction first generalizing current with
  | zero => rw [Nat.zero_add]; rfl
  | succ first ih =>
    cases current with
    | none =>
      rw [Nat.succ_add, after_none, after_none, after_none]
    | some node =>
      rw [Nat.succ_add]
      exact ih (parent node)

theorem after_isSome (shorter : less ≤ count)
    (walked : (after parent count current).isSome) : (after parent less current).isSome := by
  obtain ⟨rest, rfl⟩ := Nat.exists_eq_add_of_le shorter
  rw [after_add] at walked
  cases reached : after parent less current with
  | none => rw [reached, after_none] at walked; cases walked
  | some node => rfl

theorem after_mem {nodes : Finset α} (closed : ∀ child ∈ nodes, ∀ node, parent child = some node →
    node ∈ nodes) (member : start ∈ nodes)
    (walked : after parent count (some start) = some node) : node ∈ nodes := by
  induction count generalizing node with
  | zero =>
    obtain rfl : start = node := Option.some.inj walked
    exact member
  | succ count ih =>
    rw [after_succ] at walked
    obtain ⟨middle, reached, last⟩ := Option.bind_eq_some_iff.mp walked
    exact closed middle (ih reached) node last

/-- A walk that comes to no node twice ends within the number of nodes. -/
theorem after_eq_none {nodes : Finset α}
    (closed : ∀ child ∈ nodes, ∀ node, parent child = some node → node ∈ nodes)
    (member : start ∈ nodes)
    (acyclic : ∀ node, ReflTransGen (Below parent) start node → ¬ TransGen (Below parent) node node) :
    after parent nodes.card (some start) = none := by
  by_contra unfinished
  have visited : ∀ count ≤ nodes.card, (after parent count (some start)).isSome := fun count bound =>
    after_isSome bound (Option.isSome_iff_ne_none.mpr unfinished)
  -- more stops than nodes: one is visited twice
  have inside : ∀ count ∈ Finset.range (nodes.card + 1),
      (after parent count (some start)).getD start ∈ nodes := by
    intro count bound
    obtain ⟨node, walked⟩ := Option.isSome_iff_exists.mp
      (visited count (Nat.lt_succ_iff.mp (Finset.mem_range.mp bound)))
    rw [walked]
    exact after_mem closed member walked
  obtain ⟨first, firstBound, second, secondBound, different, same⟩ :=
    Finset.exists_ne_map_eq_of_card_lt_of_maps_to
      (by rw [Finset.card_range]; exact Nat.lt_succ_self _) inside
  have repeats : ∀ {less more : Nat}, less < more → more ≤ nodes.card →
      (after parent less (some start)).getD start = (after parent more (some start)).getD start →
      False := by
    intro less more order bound equal
    obtain ⟨node, left⟩ := Option.isSome_iff_exists.mp (visited less (by omega))
    obtain ⟨other, right⟩ := Option.isSome_iff_exists.mp (visited more bound)
    rw [left, right] at equal
    obtain rfl : node = other := equal
    obtain ⟨gap, rfl⟩ := Nat.exists_eq_add_of_lt order
    rw [Nat.add_assoc, after_add, left] at right
    refine acyclic node ?_ (reaches_after right)
    cases less with
    | zero =>
      obtain rfl : start = node := Option.some.inj left
      exact .refl
    | succ less => exact (reaches_after left).to_reflTransGen
  have firstLe := Nat.lt_succ_iff.mp (Finset.mem_range.mp firstBound)
  have secondLe := Nat.lt_succ_iff.mp (Finset.mem_range.mp secondBound)
  obtain less | more := Nat.lt_or_gt_of_ne different
  · exact repeats less secondLe same
  · exact repeats more firstLe same.symm

/-- A walk in a forest ends within the number of nodes. -/
theorem Acyclic.after_eq_none (acyclic : Acyclic parent) {nodes : Finset α}
    (closed : ∀ child ∈ nodes, ∀ node, parent child = some node → node ∈ nodes)
    (member : start ∈ nodes) : after parent nodes.card (some start) = none :=
  Forest.after_eq_none closed member fun node _ => acyclic node

/-- Steps among finitely many nodes end where no node leads back to itself. -/
theorem acc_of_finite {inside : α → Prop} [Finite {node // inside node}]
    (closed : ∀ node, inside node → ∀ next, step node next → inside next)
    (acyclic : ∀ node, inside node → ¬ TransGen step node node) (member : inside start) :
    Acc (fun next node => step node next) start := by
  have trans : IsTrans {node // inside node} fun next node => TransGen step node.1 next.1 :=
    ⟨fun _ _ _ second first => first.trans second⟩
  have irrefl : Std.Irrefl fun next node : {node // inside node} => TransGen step node.1 next.1 :=
    ⟨fun node cycle => acyclic node.1 node.2 cycle⟩
  have ends := Finite.wellFounded_of_trans_of_irrefl
    fun next node : {node // inside node} => TransGen step node.1 next.1
  have each : ∀ node : {node // inside node}, Acc (fun next node => step node next) node.1 := by
    intro node
    induction node using ends.induction with
    | _ node ih =>
      constructor
      intro next stepped
      exact ih ⟨next, closed node.1 node.2 next stepped⟩ (.single stepped)
  exact each ⟨start, member⟩

end Libgoc.Data.Forest
