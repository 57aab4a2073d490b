import Libgoc.Data.Forest
import Libgoc.Schema.Store

namespace Libgoc.Schema

open Libgoc.Semantics Libgoc.Data.Forest Relation Function

/-! # The schema hierarchy -/

def Store.parent (store : Store) (schema : SchemaId) : Option SchemaId :=
  (store.node schema).parent

structure Made (store next : Store) (kind : Kind) (super : Option SchemaId) : Prop where
  size : next.size = store.size + 1
  new : next.node store.size = { kind, parent := super }
  old : ∀ schema, schema ≠ store.size → next.node schema = store.node schema

/-- The base kinds that a constructor makes, with their parents. -/
def Fits (kind : Kind) (super : Option SchemaId) : Prop :=
  match kind with
  | .base _ => False
  | .arr _ => super = some schemaArr
  | .obj _ _ => super = some schemaDict
  | _ => True

inductive Change (store : Store) : Label → Store → Prop where
  | made (kind : Kind) (super : Option SchemaId) (fits : Fits kind super)
      (bounded : ∀ parent, super = some parent → parent < singletons.size ∨ parent < store.size)
      (effect : Made store next kind super) : Change store label next
  | resolved (ref : SchemaId) (target : Option SchemaId)
      (unset : (store.node ref).kind = .ref none) :
      Change store label (store.resolve ref target)
  | kept (size : next.size = store.size)
      (kinds : ∀ schema, (next.node schema).kind = (store.node schema).kind)
      (parents : next.parent = store.parent) : Change store label next
  | linked (child parent : SchemaId) (childBound : child < store.size)
      (parentBound : parent < store.size) :
      Change store (.derive (some child) (some parent)) (store.link child parent)

/-- The parent of the kinds that a constructor fixes besides. -/
def Rooted (kind : Kind) (super : Option SchemaId) : Prop :=
  match kind with
  | .tuple _ _ => super = some schemaArr
  | _ => True

/-- The schemas that a schema of some kind points to besides its parent. -/
def Kind.pointers : Kind → List (Option SchemaId)
  | .arr elem | .arrLen elem _ _ | .arrUnique elem => [elem]
  | .arrContains elem contains _ _ => [elem, contains]
  | .tuple items additionalItems => additionalItems :: items
  | .obj fields opts => fields.map Field.schema ++ opts.pointers
  | .ifThenElse cond thenSchema elseSchema => [cond, thenSchema, elseSchema]
  | .anyOf schemas | .oneOf schemas | .allOf schemas => schemas
  | .not schema => [schema]
  | .ref target => target.toList.map some
  | _ => []

def Store.Holds (store : Store) (pointer : Option SchemaId) : Prop :=
  ∀ schema, pointer = some schema → schema < store.size

inductive Effect (store : Store) : Label → Store → Prop where
  | constructed (kind : Kind) (super : Option SchemaId) (fits : Fits kind super)
      (rooted : Rooted kind super)
      (bounded : ∀ parent, super = some parent → parent < singletons.size ∨ parent < store.size)
      (inside : ∀ pointer ∈ kind.pointers, store.Holds pointer)
      (made : (construct store kind super).map Prod.fst = some next) : Effect store label next
  | resolved (ref : SchemaId) (target : Option SchemaId)
      (unset : (store.node ref).kind = .ref none) (inside : store.Holds target) :
      Effect store label (store.resolve ref target)
  | adorned (schema : SchemaId) (name : Text) (fn : Option Nat) :
      Effect store (.methodSet schema name fn) (gocSchemaMethodSet store schema name fn)
  | linked (child parent : SchemaId) (orphan : store.parent child = none)
      (childBound : child < store.size) (parentBound : parent < store.size) :
      Effect store (.derive (some child) (some parent)) (store.link child parent)
  | idle : Effect store label store

section

variable {lib : CLib} {store next : Store} {label : Label}

theorem construct_made (constructed : (construct store kind super).map Prod.fst = some next) :
    Made store next kind super := by
  cases super with
  | none =>
    simp only [construct, gocSchemaMake, gocSchemaDerive, Option.map_some, Option.some.injEq]
      at constructed
    subst constructed
    exact ⟨rfl, update_self .., fun schema other => update_of_ne other ..⟩
  | some parent =>
    simp only [construct, gocSchemaMake, gocSchemaDerive, update_self, Option.isSome_none,
      Bool.false_eq_true, if_false, Option.map_some, Option.some.injEq] at constructed
    subst constructed
    refine ⟨rfl, ?_, ?_⟩
    · simp [Store.link]
    · intro schema other
      simp [Store.link, other]

def withChild (children : SchemaId → List SchemaId) (child : SchemaId) :
    Option SchemaId → SchemaId → List SchemaId
  | none => children
  | some parent => update children parent (children parent ++ [child])

theorem construct_children (constructed : (construct store kind super).map Prod.fst = some next) :
    next.children = withChild store.children store.size super := by
  cases super with
  | none =>
    simp only [construct, gocSchemaMake, gocSchemaDerive, Option.map_some, Option.some.injEq]
      at constructed
    rw [← constructed]
    rfl
  | some parent =>
    simp only [construct, gocSchemaMake, gocSchemaDerive, update_self, Option.isSome_none,
      Bool.false_eq_true, if_false, Option.map_some, Option.some.injEq] at constructed
    rw [← constructed]
    rfl

theorem holds_of_valid (valid : label.pointers.all fun pointer => pointer.all (· < store.size))
    (member : pointer ∈ label.pointers) : store.Holds pointer := by
  intro schema same
  have bound := List.all_eq_true.mp valid pointer member
  rw [same] at bound
  simpa using bound

theorem effect_of_construct
    (constructed : (construct store kind super).map Prod.fst = some next) (fits : Fits kind super)
    (rooted : Rooted kind super)
    (bounded : ∀ parent, super = some parent → parent < singletons.size ∨ parent < store.size)
    (given : kind.pointers ⊆ label.pointers)
    (valid : label.pointers.all fun pointer => pointer.all (· < store.size)) :
    Effect store label next :=
  .constructed kind super fits rooted bounded (fun _ member => holds_of_valid valid (given member))
    constructed

/-- The parent of a schema of a fixed type is a singleton. -/
theorem singleton_bounded (bound : parent < singletons.size) :
    ∀ other, some parent = some other → other < singletons.size ∨ other < store.size := by
  intro other same
  rw [← Option.some.inj same]
  exact .inl bound

theorem pointer_bounded (member : super ∈ label.pointers)
    (valid : label.pointers.all fun pointer => pointer.all (· < store.size)) :
    ∀ parent, super = some parent → parent < singletons.size ∨ parent < store.size := by
  intro parent same
  exact .inr (holds_of_valid valid member parent same)

theorem step_effect (stepped : step lib store label = some next) : Effect store label next := by
  unfold step at stepped
  split at stepped
  next valid =>
    cases label with
    | derive child parent =>
      match child, parent with
      | none, _ | some _, none =>
        obtain rfl : store = next := by simpa [exec, gocSchemaDerive] using stepped
        exact .idle
      | some child, some parent =>
        simp only [exec, gocSchemaDerive] at stepped
        split at stepped
        next => cases stepped
        next orphan =>
          obtain rfl := Option.some.inj stepped
          simp only [Label.pointers, List.all_cons, Option.all_some, List.all_nil,
            Bool.and_true, Bool.and_eq_true, decide_eq_true_eq] at valid
          exact .linked child parent (by simpa [Store.parent] using orphan) valid.1 valid.2
    | refSet ref target =>
      simp only [exec, Option.some.injEq, gocSchemaRefSet] at stepped
      subst stepped
      split
      next unset => exact .resolved ref target unset (holds_of_valid valid (by simp [Label.pointers]))
      next => exact .idle
    | methodSet schema name fn =>
      simp only [exec, Option.some.injEq] at stepped
      subst stepped
      exact .adorned schema name fn
    | refMakeOf super =>
      refine effect_of_construct stepped trivial trivial ?_ (by simp [Kind.pointers, Label.pointers])
        valid
      cases super with
      | none => exact singleton_bounded (by decide)
      | some super => exact pointer_bounded (by simp [Label.pointers]) valid
    | ifThenElse super | not super | predicate super | anyOf super | oneOf super | allOf super =>
      refine effect_of_construct stepped trivial trivial (pointer_bounded ?_ valid) ?_ valid <;>
        simp [Kind.pointers, Label.pointers]
    | intRange min max | realRange min max | strLen min max | arrLen elem min max =>
      simp only [exec, gocSchemaIntRange, gocSchemaRealRange, gocSchemaStrLen, gocSchemaArrLen]
        at stepped
      split at stepped
      · cases stepped
      · exact effect_of_construct stepped trivial trivial (singleton_bounded (by decide)) (fun _ => id) valid
    | realMultiple factor | strPattern pattern =>
      simp only [exec, gocSchemaRealMultiple, gocSchemaStrPattern] at stepped
      split at stepped
      · exact effect_of_construct stepped trivial trivial (singleton_bounded (by decide)) (fun _ => id) valid
      · cases stepped
    | strFormat format =>
      simp only [exec, gocSchemaStrFormat] at stepped
      split at stepped
      · split at stepped
        · exact effect_of_construct stepped trivial trivial (singleton_bounded (by decide)) (fun _ => id) valid
        · cases stepped
      · exact effect_of_construct stepped trivial trivial (singleton_bounded (by decide)) (fun _ => id) valid
    | dict fields opts =>
      simp only [exec, gocSchemaDict] at stepped
      split at stepped
      · exact effect_of_construct stepped rfl trivial (singleton_bounded (by decide)) (fun _ => id) valid
      · cases stepped
    | tuple items additionalItems =>
      exact effect_of_construct stepped trivial rfl (singleton_bounded (by decide)) (fun _ => id) valid
    | arr elem => exact effect_of_construct stepped rfl trivial (singleton_bounded (by decide)) (fun _ => id) valid
    | _ => exact effect_of_construct stepped trivial trivial (singleton_bounded (by decide)) (fun _ => id) valid
  next => cases stepped

theorem methodSet_kind (store : Store) (schema : SchemaId) (name : Text) (fn : Option Nat)
    (other : SchemaId) :
    ((gocSchemaMethodSet store schema name fn).node other).kind = (store.node other).kind := by
  by_cases same : other = schema
  · subst same
    simp [gocSchemaMethodSet]
  · simp [gocSchemaMethodSet, same]

theorem methodSet_parent (store : Store) (schema : SchemaId) (name : Text) (fn : Option Nat) :
    (gocSchemaMethodSet store schema name fn).parent = store.parent := by
  funext other
  by_cases same : other = schema
  · subst same
    simp [gocSchemaMethodSet, Store.parent]
  · simp [gocSchemaMethodSet, Store.parent, same]

theorem step_change (stepped : step lib store label = some next) : Change store label next := by
  cases step_effect stepped with
  | constructed kind super fits _ bounded _ made => exact .made kind super fits bounded (construct_made made)
  | resolved ref target unset _ => exact .resolved ref target unset
  | adorned schema name fn =>
    exact .kept rfl (methodSet_kind store schema name fn) (methodSet_parent store schema name fn)
  | linked child parent _ childBound parentBound => exact .linked child parent childBound parentBound
  | idle => exact .kept rfl (fun _ => rfl) rfl

theorem isAFrom_true (walked : isAFrom store target fuel current = some true) :
    ∃ schema, current = some schema ∧ ReflTransGen (Below store.parent) schema target := by
  induction fuel generalizing current with
  | zero => cases current <;> cases walked
  | succ fuel ih =>
    cases current with
    | none => cases walked
    | some schema =>
      refine ⟨schema, rfl, ?_⟩
      rw [isAFrom] at walked
      split at walked
      next same =>
        subst same
        exact .refl
      next =>
        obtain ⟨above, below, reaches⟩ := ih walked
        exact .head below reaches

theorem isAFrom_false (walked : isAFrom store target fuel (some schema) = some false) :
    ¬ ReflTransGen (Below store.parent) schema target := by
  induction fuel generalizing schema with
  | zero => cases walked
  | succ fuel ih =>
    intro reaches
    rw [isAFrom] at walked
    split at walked
    next => cases walked
    next different =>
      obtain rfl | ⟨above, below, rest⟩ := ReflTransGen.cases_head reaches
      · exact different rfl
      · have below : (store.node schema).parent = some above := below
        rw [below] at walked
        exact ih walked rest

theorem isAFrom_none (cutOff : isAFrom store target fuel current = none) :
    after store.parent fuel current ≠ none := by
  induction fuel generalizing current with
  | zero => cases current <;> simp_all [isAFrom, after]
  | succ fuel ih =>
    cases current with
    | none => cases cutOff
    | some schema =>
      rw [isAFrom] at cutOff
      split at cutOff
      next => cases cutOff
      next => exact ih cutOff

theorem collectAncestors_none (cutOff : collectAncestors store fuel current = none) :
    after store.parent fuel current ≠ none := by
  induction fuel generalizing current with
  | zero => cases current <;> simp_all [collectAncestors, after]
  | succ fuel ih =>
    cases current with
    | none => cases cutOff
    | some schema => exact ih (Option.map_eq_none_iff.mp cutOff)

theorem methodFrom_none (cutOff : methodFrom store name fuel current = none) :
    after store.parent fuel current ≠ none := by
  induction fuel generalizing current with
  | zero => cases current <;> simp_all [methodFrom, after]
  | succ fuel ih =>
    cases current with
    | none => cases cutOff
    | some schema =>
      rw [methodFrom] at cutOff
      split at cutOff
      next => cases cutOff
      next => exact ih cutOff

structure Hierarchical (store : Store) : Prop where
  acyclic : Acyclic store.parent
  bounded : ∀ child parent, store.parent child = some parent →
    child < store.size ∧ parent < store.size
  complete : singletons.size ≤ store.size

section

variable (hierarchical : Hierarchical store)
include hierarchical

theorem Hierarchical.after_size
    (bound : schema < store.size) : after store.parent store.size (some schema) = none := by
  have ends := hierarchical.acyclic.after_eq_none
    (fun child _ node below => Finset.mem_range.mpr (hierarchical.bounded child node below).2)
    (Finset.mem_range.mpr bound)
  rwa [Finset.card_range] at ends

theorem Hierarchical.after_parent (bound : schema < store.size) :
    after store.parent store.size (store.parent schema) = none := by
  have ends := hierarchical.after_size bound
  have next : after store.parent (store.size + 1) (some schema) = none := by
    rw [after_succ, ends]
    rfl
  exact next

/-- `goc_schema_is_a` decides the reflexive and transitive closure of the parent
relation. -/
theorem Hierarchical.isA (bound : child < store.size) (parent : SchemaId) :
    ∃ answer, gocSchemaIsA store (some child) (some parent) = some answer ∧
      (answer = true ↔ ReflTransGen (Below store.parent) child parent) := by
  simp only [gocSchemaIsA, isAWithin]
  by_cases same : child = parent
  · subst same
    exact ⟨true, if_pos rfl, by simp [ReflTransGen.refl]⟩
  rw [if_neg same]
  cases walked : isAFrom store parent store.size (store.node child).parent with
  | none => exact absurd (hierarchical.after_parent bound) (isAFrom_none walked)
  | some answer =>
    refine ⟨answer, rfl, ?_⟩
    cases answer with
    | true =>
      obtain ⟨above, below, reaches⟩ := isAFrom_true walked
      exact ⟨fun _ => .head below reaches, fun _ => rfl⟩
    | false =>
      simp only [Bool.false_eq_true, false_iff]
      intro reaches
      obtain rfl | ⟨above, below, rest⟩ := ReflTransGen.cases_head reaches
      · exact same rfl
      · have below : (store.node child).parent = some above := below
        rw [below] at walked
        exact isAFrom_false walked rest

theorem Hierarchical.isA_iff (bound : child < store.size) (parent : SchemaId) :
    gocSchemaIsA store (some child) (some parent) = some true ↔
      ReflTransGen (Below store.parent) child parent := by
  obtain ⟨answer, walked, decides⟩ := hierarchical.isA bound parent
  rw [walked, Option.some.injEq]
  exact decides

end

theorem link_parent (store : Store) (child parent : SchemaId) :
    (store.link child parent).parent = update store.parent child (some parent) := by
  funext schema
  by_cases same : schema = child
  · subst same
    simp [Store.link, Store.parent]
  · simp [Store.link, Store.parent, same]

theorem resolve_parent (store : Store) (ref : SchemaId) (target : Option SchemaId) :
    (store.resolve ref target).parent = store.parent := by
  funext schema
  by_cases same : schema = ref
  · subst same
    simp [Store.resolve, Store.parent]
  · simp [Store.resolve, Store.parent, same]

theorem parent_of_links {edges : List (SchemaId × SchemaId)}
    (below : (edges.foldl (fun store edge => store.link edge.1 edge.2) store).parent child =
      some parent) : (child, parent) ∈ edges ∨ store.parent child = some parent := by
  induction edges generalizing store with
  | nil => exact .inr below
  | cons edge rest ih =>
    obtain member | below := ih below
    · exact .inl (List.mem_cons_of_mem _ member)
    · rw [link_parent] at below
      by_cases same : child = edge.1
      · subst same
        rw [update_self, Option.some.injEq] at below
        subst below
        exact .inl List.mem_cons_self
      · rw [update_of_ne same] at below
        exact .inr below

theorem links_size (edges : List (SchemaId × SchemaId)) :
    (edges.foldl (fun store edge => store.link edge.1 edge.2) store).size = store.size := by
  induction edges generalizing store with
  | nil => rfl
  | cons edge rest ih => exact ih

/-- The distance of a singleton from `any`. -/
def singletonDepth : SchemaId → Nat
  | 1 | 7 | 10 | 11 | 12 => 1
  | 3 | 4 | 9 => 2
  | 5 | 6 | 8 => 3
  | 2 => 4
  | _ => 0

theorem initial_parent {child parent : SchemaId}
    (below : initialStore.parent child = some parent) : (child, parent) ∈ builtinEdges := by
  obtain member | below := parent_of_links below
  · exact member
  · cases below

theorem initial_hierarchical : Hierarchical initialStore where
  acyclic := by
    apply acyclic_of_rank singletonDepth
    intro child parent below
    have deeper : ∀ edge ∈ builtinEdges, singletonDepth edge.2 < singletonDepth edge.1 := by decide
    exact deeper _ (initial_parent below)
  bounded child parent below := by
    have inside : ∀ edge ∈ builtinEdges, edge.1 < singletons.size ∧ edge.2 < singletons.size := by
      decide
    rw [initialStore, links_size]
    exact inside _ (initial_parent below)
  complete := by rw [initialStore, links_size]

/-- The condition on `goc_schema_derive`: the new parent is not the child and
not a schema below it. -/
def Separates (store : Store) : Label → Prop
  | .derive (some child) (some parent) =>
    gocSchemaIsA store (some parent) (some child) = some false
  | _ => True

instance (store : Store) (label : Label) : Decidable (Separates store label) := by
  unfold Separates
  split <;> infer_instance

theorem Made.parent (made : Made store next kind super) :
    next.parent = update store.parent store.size super := by
  funext schema
  by_cases same : schema = store.size
  · subst same
    simp [Store.parent, made.new]
  · simp [Store.parent, made.old schema same, same]

section

variable (hierarchical : Hierarchical store)
include hierarchical

theorem Hierarchical.unused :
    store.parent store.size = none := by
  by_contra some
  obtain ⟨parent, below⟩ := Option.ne_none_iff_exists'.mp some
  exact Nat.lt_irrefl _ (hierarchical.bounded _ _ below).1

theorem Hierarchical.made (made : Made store next kind super)
    (inside : ∀ parent, super = some parent → parent < store.size) : Hierarchical next := by
  have parents := made.parent
  constructor
  · rw [parents]
    cases super with
    | none =>
      rw [← hierarchical.unused, update_eq_self]
      exact hierarchical.acyclic
    | some parent =>
      apply hierarchical.acyclic.insert
      intro reaches
      -- nothing leads to a schema that did not exist
      obtain same | ⟨last, _, below⟩ := ReflTransGen.cases_tail reaches
      · exact Nat.ne_of_gt (inside parent rfl) same
      · exact Nat.lt_irrefl _ (hierarchical.bounded _ _ below).2
  · intro child parent below
    rw [made.size]
    rw [parents] at below
    by_cases same : child = store.size
    · subst same
      rw [update_self] at below
      exact ⟨Nat.lt_succ_self _, Nat.lt_succ_of_lt (inside parent below)⟩
    · rw [update_of_ne same] at below
      obtain ⟨childBound, parentBound⟩ := hierarchical.bounded child parent below
      exact ⟨Nat.lt_succ_of_lt childBound, Nat.lt_succ_of_lt parentBound⟩
  · rw [made.size]
    exact Nat.le_succ_of_le hierarchical.complete

theorem Hierarchical.linked (childBound : child < store.size) (parentBound : parent < store.size)
    (apart : gocSchemaIsA store (some parent) (some child) = some false) :
    Hierarchical (store.link child parent) := by
  have parents := link_parent store child parent
  constructor
  · rw [parents]
    apply hierarchical.acyclic.insert
    rw [← hierarchical.isA_iff parentBound, apart]
    simp
  · intro other above below
    rw [parents] at below
    by_cases same : other = child
    · subst same
      rw [update_self] at below
      obtain rfl := Option.some.inj below
      exact ⟨childBound, parentBound⟩
    · rw [update_of_ne same] at below
      exact hierarchical.bounded other above below
  · exact hierarchical.complete

theorem Hierarchical.transfer (size : next.size = store.size)
    (parents : next.parent = store.parent) : Hierarchical next where
  acyclic := by rw [parents]; exact hierarchical.acyclic
  bounded := by rw [parents, size]; exact hierarchical.bounded
  complete := by rw [size]; exact hierarchical.complete

theorem Hierarchical.step (separates : Separates store label)
    (stepped : step lib store label = some next) : Hierarchical next := by
  cases step_change stepped with
  | made kind super _ bounded effect =>
    apply hierarchical.made effect
    intro parent same
    obtain small | inside := bounded parent same
    · exact Nat.lt_of_lt_of_le small hierarchical.complete
    · exact inside
  | resolved ref target unset =>
    exact hierarchical.transfer rfl (resolve_parent store ref target)
  | kept size _ parents => exact hierarchical.transfer size parents
  | linked child parent childBound parentBound =>
    exact hierarchical.linked childBound parentBound separates

end

theorem Hierarchical.of_reachable (reachable : (system lib).ReachableWith Separates store) :
    Hierarchical store := by
  apply reachable.invariant
  · intro start initial
    cases initial
    exact initial_hierarchical
  · intro before label next hierarchical separates stepped
    exact hierarchical.step separates stepped

/-- The hierarchy is an order, and what walks along it ends. -/
structure Ordered (store : Store) : Prop where
  acyclic : Acyclic store.parent
  isA_ends : ∀ child parent, child < store.size →
    ∃ answer, gocSchemaIsA store (some child) (some parent) = some answer
  isA_refl : ∀ schema < store.size, gocSchemaIsA store (some schema) (some schema) = some true
  isA_antisymm : ∀ a b, a < store.size → b < store.size →
    gocSchemaIsA store (some a) (some b) = some true →
    gocSchemaIsA store (some b) (some a) = some true → a = b
  isA_trans : ∀ a b c, a < store.size → b < store.size →
    gocSchemaIsA store (some a) (some b) = some true →
    gocSchemaIsA store (some b) (some c) = some true →
    gocSchemaIsA store (some a) (some c) = some true
  ancestors_end : ∀ schema < store.size,
    ∃ ancestors, gocSchemaAncestors store (some schema) = some ancestors
  methodGet_ends : ∀ schema name, schema < store.size →
    ∃ method, gocSchemaMethodGet store (some schema) (some name) = some method
  /-- The calls of the validation of a schema for its parent, the parent of that
  one and so on end. -/
  parents_end : ∀ schema < store.size,
    Acc (fun above child => store.parent child = some above) schema

/-- No schema is above itself where no call derives a schema from itself or from
one below it. -/
theorem hierarchy_ordered (reachable : (system lib).ReachableWith Separates store) :
    Ordered store := by
  have hierarchical := Hierarchical.of_reachable reachable
  constructor
  · exact hierarchical.acyclic
  · intro child parent bound
    obtain ⟨answer, walked, -⟩ := hierarchical.isA bound parent
    exact ⟨answer, walked⟩
  · intro schema bound
    rw [hierarchical.isA_iff bound]
  · intro a b aBound bBound up down
    rw [hierarchical.isA_iff aBound] at up
    rw [hierarchical.isA_iff bBound] at down
    exact hierarchical.acyclic.antisymm up down
  · intro a b c aBound bBound first second
    rw [hierarchical.isA_iff aBound] at first ⊢
    rw [hierarchical.isA_iff bBound] at second
    exact first.trans second
  · intro schema bound
    apply Option.ne_none_iff_exists'.mp
    intro cutOff
    exact collectAncestors_none cutOff (hierarchical.after_parent bound)
  · intro schema name bound
    apply Option.ne_none_iff_exists'.mp
    intro cutOff
    exact methodFrom_none cutOff (hierarchical.after_size bound)
  · intro schema bound
    exact acc_of_after (hierarchical.after_size bound)

end

/-- A library in which every pattern compiles and every test on reals fails. -/
def plainLib : CLib where
  regcomp _ := true
  regexec _ _ := false
  regexBytes _ := []
  toLongDouble _ bits := bits
  leL _ _ := false
  ltL _ _ := false
  addL x _ := x
  subL x _ := x
  mulL x _ := x
  fmodl x _ := x
  fabsl x := x
  zeroL := 0
  tolerance := 0
  formatL _ := []
  eqDouble _ _ := false
  isnan _ := false
  formatDouble _ := []
  complexBytes _ _ := []

/-- A constrained schema, and a predicate that is derived from it later. -/
def derivingRun : List Label :=
  [.intMin 0, .predicate none (fun _ => true) none, .derive (some 14) (some 13)]

theorem derivingRun_ordered : ∃ store,
    (system plainLib).runWith Separates initialStore derivingRun = some store ∧ Ordered store :=
  ⟨_, rfl, hierarchy_ordered (.of_run (system plainLib) Separates derivingRun rfl rfl)⟩

/-- The root has no parent, so it can be derived from itself. -/
theorem derive_root_loops : ∃ store,
    (system plainLib).run initialStore [.derive (some schemaAny) (some schemaAny)] = some store ∧
    ¬ Acyclic store.parent ∧
    ∀ fuel, isAWithin store fuel (some schemaInt) (some schemaStr) = none := by
  refine ⟨_, rfl, ?_, ?_⟩
  · intro acyclic
    exact acyclic schemaAny (.single rfl)
  · have loops : ∀ fuel, isAFrom (initialStore.link schemaAny schemaAny) schemaStr fuel
        (some schemaAny) = none := by
      intro fuel
      induction fuel with
      | zero => rfl
      | succ fuel ih => exact ih
    intro fuel
    match fuel with
    | 0 | 1 => rfl
    | fuel + 2 => exact loops (fuel + 1)

end Libgoc.Schema
