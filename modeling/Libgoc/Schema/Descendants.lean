import Libgoc.Data.BreadthFirst
import Libgoc.Schema.Hierarchy

namespace Libgoc.Schema

open Libgoc.Semantics Libgoc.Data Forest Relation Function

/-! # Ancestors and descendants -/

/-- `goc_schema_collect_descendants`; `result` holds the visited schemas but for
the first. -/
def collectDescendants (store : Store) (schema : SchemaId) : Option (List SchemaId) :=
  BreadthFirst.traverse store.children (fun node => node ≠ schema) (store.size + 1) [schema] [] []

def gocSchemaDescendants (store : Store) : Option SchemaId → Option (List SchemaId)
  | none => some []
  | some schema => collectDescendants store schema

/-- The children listed for a schema are those that point to it. -/
structure Listed (store : Store) : Prop where
  bounded : ∀ child parent, store.parent child = some parent →
    child < store.size ∧ parent < store.size
  complete : singletons.size ≤ store.size
  children : ∀ parent child, child ∈ store.children parent ↔ store.parent child = some parent

section

variable {lib : CLib} {store next : Store} {label : Label}

theorem Listed.unused (listed : Listed store) : store.parent store.size = none := by
  by_contra some
  obtain ⟨parent, below⟩ := Option.ne_none_iff_exists'.mp some
  exact Nat.lt_irrefl _ (listed.bounded _ _ below).1

/-- A schema without a parent is listed under the parent that it gets. -/
theorem Listed.withChild (listed : Listed store) (orphan : store.parent child = none)
    (super : Option SchemaId) (parent other : SchemaId) :
    other ∈ withChild store.children child super parent ↔
      update store.parent child super other = some parent := by
  have old := listed.children parent other
  by_cases same : other = child
  · subst same
    rw [update_self]
    rw [orphan] at old
    cases super with
    | none => exact old
    | some super =>
      by_cases above : parent = super
      · subst above
        simp [Schema.withChild]
      · rw [Schema.withChild, update_of_ne above, old]
        simp [Ne.symm above]
  · rw [update_of_ne same, ← old]
    cases super with
    | none => rfl
    | some super =>
      by_cases above : parent = super
      · subst above
        simp [Schema.withChild, same]
      · rw [Schema.withChild, update_of_ne above]

theorem links_children (edges : List (SchemaId × SchemaId)) (parent child : SchemaId) :
    child ∈ (edges.foldl (fun store edge => store.link edge.1 edge.2) store).children parent ↔
      (child, parent) ∈ edges ∨ child ∈ store.children parent := by
  induction edges generalizing store with
  | nil => simp
  | cons edge rest ih =>
    rw [List.foldl_cons, ih, List.mem_cons]
    by_cases above : parent = edge.2
    · subst above
      simp only [Store.link, update_self, List.mem_append, List.mem_singleton,
        Prod.eq_iff_fst_eq_snd_eq, and_true]
      tauto
    · simp only [Store.link, update_of_ne above, Prod.eq_iff_fst_eq_snd_eq, above,
        and_false, false_or]

theorem initial_listed : Listed initialStore where
  bounded := initial_hierarchical.bounded
  complete := initial_hierarchical.complete
  children parent child := by
    rw [initialStore, links_children]
    constructor
    · intro member
      have points : ∀ edge ∈ builtinEdges, initialStore.parent edge.1 = some edge.2 := by decide
      obtain edge | none := member
      · exact points _ edge
      · cases none
    · intro below
      exact .inl (initial_parent below)

theorem Listed.step (listed : Listed store) (stepped : step lib store label = some next) :
    Listed next := by
  cases step_effect stepped with
  | constructed kind super _ _ bounded _ made =>
    have effect := construct_made made
    have inside : ∀ parent, super = some parent → parent < store.size := by
      intro parent same
      obtain small | inside := bounded parent same
      · exact Nat.lt_of_lt_of_le small listed.complete
      · exact inside
    constructor
    · intro child parent below
      rw [effect.parent] at below
      rw [effect.size]
      by_cases same : child = store.size
      · subst same
        rw [update_self] at below
        exact ⟨Nat.lt_succ_self _, Nat.lt_succ_of_lt (inside parent below)⟩
      · rw [update_of_ne same] at below
        obtain ⟨childBound, parentBound⟩ := listed.bounded child parent below
        exact ⟨Nat.lt_succ_of_lt childBound, Nat.lt_succ_of_lt parentBound⟩
    · rw [effect.size]
      exact Nat.le_succ_of_le listed.complete
    · intro parent child
      rw [construct_children made, effect.parent]
      exact listed.withChild listed.unused super parent child
  | resolved ref target _ _ =>
    constructor
    · rw [resolve_parent]
      exact listed.bounded
    · exact listed.complete
    · rw [resolve_parent]
      exact listed.children
  | adorned schema name fn =>
    constructor
    · rw [methodSet_parent]
      exact listed.bounded
    · exact listed.complete
    · rw [methodSet_parent]
      exact listed.children
  | linked child parent orphan childBound parentBound =>
    constructor
    · intro other above below
      rw [link_parent] at below
      by_cases same : other = child
      · subst same
        rw [update_self] at below
        obtain rfl := Option.some.inj below
        exact ⟨childBound, parentBound⟩
      · rw [update_of_ne same] at below
        exact listed.bounded other above below
    · exact listed.complete
    · intro above other
      rw [link_parent]
      exact listed.withChild orphan (some parent) above other
  | idle => exact listed

theorem Listed.of_reachable (reachable : (system lib).Reachable store) : Listed store := by
  apply reachable.invariant
  · intro start initial
    cases initial
    exact initial_listed
  · intro before label next listed stepped
    exact listed.step stepped

theorem Listed.hierarchical (listed : Listed store) (acyclic : Acyclic store.parent) :
    Hierarchical store :=
  ⟨acyclic, listed.bounded, listed.complete⟩

theorem collectAncestors_spec (acyclic : Acyclic store.parent)
    (collected : collectAncestors store fuel current = some found) :
    found.Nodup ∧ ∀ node, node ∈ found ↔
      ∃ schema, current = some schema ∧ ReflTransGen (Below store.parent) schema node := by
  induction fuel generalizing current found with
  | zero =>
    cases current with
    | none =>
      obtain rfl := Option.some.inj collected
      simp
    | some schema => cases collected
  | succ fuel ih =>
    cases current with
    | none =>
      obtain rfl := Option.some.inj collected
      simp
    | some schema =>
      obtain ⟨rest, walked, rfl⟩ := Option.map_eq_some_iff.mp collected
      obtain ⟨nodup, above⟩ := ih walked
      have strictly : ∀ node, node ∈ rest ↔ TransGen (Below store.parent) schema node := by
        intro node
        rw [above, TransGen.head'_iff]
        rfl
      constructor
      · rw [List.nodup_cons]
        refine ⟨?_, nodup⟩
        intro repeated
        exact acyclic schema ((strictly schema).mp repeated)
      · intro node
        simp only [List.mem_cons, strictly, Option.some.injEq, exists_eq_left']
        rw [reflTransGen_iff_eq_or_transGen]

theorem Listed.edge_iff (listed : Listed store) :
    BreadthFirst.Edge store.children parent child ↔ Below store.parent child parent :=
  listed.children parent child

/-- Along the lists of children one comes to the schemas below. -/
theorem Listed.reaches_iff (listed : Listed store) :
    ReflTransGen (BreadthFirst.Edge store.children) top node ↔
      ReflTransGen (Below store.parent) node top := by
  have flipped : BreadthFirst.Edge store.children = Function.swap (Below store.parent) := by
    funext parent child
    exact propext listed.edge_iff
  rw [flipped, reflTransGen_swap]

theorem Listed.descendants (listed : Listed store) (bound : top < store.size) :
    ∃ found, gocSchemaDescendants store (some top) = some found ∧ found.Nodup ∧
      ∀ node, node ∈ found ↔ ReflTransGen (Below store.parent) node top ∧ node ≠ top := by
  have sound : BreadthFirst.Sound store.children top [] [top] := by
    constructor
    · exact List.nodup_nil
    · intro node known
      obtain rfl : node = top := by simpa using known
      exact .refl
    · simp
    · intro node member
      cases member
  have inside : ∀ node, ReflTransGen (BreadthFirst.Edge store.children) top node →
      node ∈ Finset.range store.size := by
    intro node reached
    rw [Finset.mem_range]
    induction reached with
    | refl => exact bound
    | tail _ edge _ => exact (listed.bounded _ _ (listed.edge_iff.mp edge)).1
  have ends : ∃ found, collectDescendants store top = some found :=
    sound.traverse_ends inside (by simp)
  obtain ⟨found, ended⟩ := ends
  obtain ⟨nodup, reached⟩ := sound.traverse rfl ended
  refine ⟨found, ended, nodup, ?_⟩
  intro node
  rw [reached, listed.reaches_iff]
  simp

/-- Where the hierarchy has no cycle, the ancestors, the descendants and the
test for a subtype agree, and neither search lists a schema twice. -/
theorem kinship_agrees (reachable : (system lib).Reachable store) (acyclic : Acyclic store.parent)
    (x y : SchemaId) (xBound : x < store.size) (yBound : y < store.size) :
    ∃ ancestors descendants isA, gocSchemaAncestors store (some x) = some ancestors ∧
      gocSchemaDescendants store (some y) = some descendants ∧
      gocSchemaIsA store (some x) (some y) = some isA ∧
      (y ∈ ancestors ↔ x ∈ descendants) ∧ (x ∈ descendants ↔ isA = true ∧ x ≠ y) ∧
      ancestors.Nodup ∧ descendants.Nodup := by
  have listed := Listed.of_reachable reachable
  have hierarchical := listed.hierarchical acyclic
  obtain ⟨descendants, searched, nodup, below⟩ := listed.descendants yBound
  obtain ⟨isA, walked, decides⟩ := hierarchical.isA xBound y
  cases collected : gocSchemaAncestors store (some x) with
  | none => exact absurd (hierarchical.after_parent xBound) (collectAncestors_none collected)
  | some ancestors =>
    obtain ⟨distinct, above⟩ := collectAncestors_spec acyclic collected
    refine ⟨ancestors, descendants, isA, rfl, searched, walked, ?_, ?_, distinct, nodup⟩
    · rw [above, below]
      have strictly : (∃ parent, store.parent x = some parent ∧
          ReflTransGen (Below store.parent) parent y) ↔ TransGen (Below store.parent) x y := by
        rw [TransGen.head'_iff]
        rfl
      refine strictly.trans ?_
      constructor
      · intro up
        refine ⟨up.to_reflTransGen, ?_⟩
        rintro rfl
        exact acyclic x up
      · intro up
        obtain same | up := reflTransGen_iff_eq_or_transGen.mp up.1
        · exact absurd same.symm up.2
        · exact up
    · rw [below, decides]

end

theorem derivingRun_kinship : ∃ store,
    (system plainLib).run initialStore derivingRun = some store ∧ Acyclic store.parent ∧
    ∃ ancestors descendants isA, gocSchemaAncestors store (some 14) = some ancestors ∧
      gocSchemaDescendants store (some schemaNumber) = some descendants ∧
      gocSchemaIsA store (some 14) (some schemaNumber) = some isA ∧
      (schemaNumber ∈ ancestors ↔ 14 ∈ descendants) ∧
      (14 ∈ descendants ↔ isA = true ∧ 14 ≠ schemaNumber) ∧
      ancestors.Nodup ∧ descendants.Nodup :=
  have acyclic := (Hierarchical.of_reachable
    (.of_run (system plainLib) Separates derivingRun rfl rfl)).acyclic
  ⟨_, rfl, acyclic, kinship_agrees (.of_run (system plainLib) derivingRun rfl rfl) acyclic 14
    schemaNumber (by decide) (by decide)⟩

/-- The schemas below the integers, the made ones layer by layer after `byte`. -/
example : ((system plainLib).run initialStore derivingRun).bind
    (fun store => gocSchemaDescendants store (some schemaInt)) = some [schemaByte, 13, 14] := by
  decide

end Libgoc.Schema
