import Mathlib.Data.Finset.Range
import Mathlib.Data.Fintype.EquivFin
import Mathlib.Tactic.Common
import Libgoc.Schema.Descendants
import Libgoc.Schema.Subtype
import Libgoc.Schema.Traversal

namespace Libgoc.Schema

open Libgoc.Semantics Libgoc.Data Forest General Relation

/-! # The end of validation -/

inductive Refers (store : Store) (schema : SchemaId) : SchemaId → Prop where
  | parent (below : store.parent schema = some part) : Refers store schema part
  | part (member : some part ∈ (store.node schema).kind.pointers) : Refers store schema part

/-- No cycle of the schemas that `schema` leads to keeps the value. -/
def CyclesGuarded (store : Store) (schema : SchemaId) : Prop :=
  ∀ part, ReflTransGen (Refers store) schema part → ¬ TransGen (Unguarded store) part part

/-- What all calls keep of the singletons and of the pointers between schemas. -/
structure Founded (store : Store) : Prop where
  listed : Listed store
  kinds : ∀ schema < singletons.size, (store.node schema).kind = singletonKind schema
  parents : ∀ schema < singletons.size, schema ≠ schemaAny →
    store.parent schema = initialStore.parent schema
  bases : ∀ schema base, schema < store.size → (store.node schema).kind = .base base →
    schema < singletons.size
  inside : ∀ schema < store.size, ∀ pointer ∈ (store.node schema).kind.pointers,
    store.Holds pointer

section

variable {lib : CLib} {store next : Store} {label : Label}

theorem initial_founded : Founded initialStore where
  listed := initial_listed
  kinds schema _ := links_kind builtinEdges schema
  parents _ _ _ := rfl
  bases schema _ bound _ := by
    rwa [initialStore, links_size] at bound
  inside schema bound pointer member := by
    rw [initialStore, links_size] at bound
    have kind : (initialStore.node schema).kind = singletonKind schema := links_kind builtinEdges schema
    have small : ∀ schema < singletons.size, ∀ pointer ∈ (singletonKind schema).pointers,
        pointer.all (· < singletons.size) := by decide
    intro part same
    rw [kind] at member
    have bounded := small schema bound pointer member
    rw [same] at bounded
    simpa [initialStore, links_size] using bounded

theorem Founded.step (founded : Founded store) (stepped : step lib store label = some next) :
    Founded next := by
  have listed := founded.listed.step stepped
  cases step_effect stepped with
  | constructed kind super fits _ _ inside made =>
    have effect := construct_made made
    have kept : ∀ schema < singletons.size, next.node schema = store.node schema := by
      intro schema small
      exact effect.old schema (Nat.ne_of_lt (Nat.lt_of_lt_of_le small founded.listed.complete))
    have grown : ∀ {pointer}, store.Holds pointer → next.Holds pointer := by
      intro pointer holds schema same
      rw [effect.size]
      exact Nat.lt_succ_of_lt (holds schema same)
    constructor
    · exact listed
    · intro schema small
      rw [kept schema small]
      exact founded.kinds schema small
    · intro schema small other
      rw [Store.parent, kept schema small]
      exact founded.parents schema small other
    · intro schema base bound ofKind
      by_cases same : schema = store.size
      · subst same
        rw [effect.new] at ofKind
        obtain rfl : kind = .base base := ofKind
        exact fits.elim
      · rw [effect.old schema same] at ofKind
        rw [effect.size] at bound
        exact founded.bases schema base (Nat.lt_of_le_of_ne (Nat.le_of_lt_succ bound) same) ofKind
    · intro schema bound pointer member
      apply grown
      by_cases same : schema = store.size
      · subst same
        rw [effect.new] at member
        exact inside pointer member
      · rw [effect.old schema same] at member
        rw [effect.size] at bound
        exact founded.inside schema (Nat.lt_of_le_of_ne (Nat.le_of_lt_succ bound) same) pointer member
  | resolved ref target unset inside =>
    have kept : ∀ schema, schema ≠ ref → (store.resolve ref target).node schema = store.node schema :=
      fun schema other => Function.update_of_ne other ..
    have kinded : ((store.resolve ref target).node ref).kind = .ref target := by
      simp [Store.resolve]
    constructor
    · exact listed
    · intro schema small
      have other : schema ≠ ref := by
        rintro rfl
        rw [founded.kinds schema small] at unset
        exact singletonKind_ne_ref schema none unset
      rw [kept schema other]
      exact founded.kinds schema small
    · rw [resolve_parent]
      exact founded.parents
    · intro schema base bound ofKind
      by_cases same : schema = ref
      · subst same
        simp [kinded] at ofKind
      · rw [kept schema same] at ofKind
        exact founded.bases schema base bound ofKind
    · intro schema bound pointer member
      by_cases same : schema = ref
      · subst same
        rw [kinded] at member
        obtain ⟨part, chosen, rfl⟩ := List.mem_map.mp member
        rw [Option.mem_toList] at chosen
        exact chosen ▸ inside
      · rw [kept schema same] at member
        exact founded.inside schema bound pointer member
  | adorned schema name fn =>
    constructor
    · exact listed
    · intro other small
      rw [methodSet_kind]
      exact founded.kinds other small
    · rw [methodSet_parent]
      exact founded.parents
    · intro other base bound ofKind
      rw [methodSet_kind] at ofKind
      exact founded.bases other base bound ofKind
    · intro other bound pointer member
      rw [methodSet_kind] at member
      exact founded.inside other bound pointer member
  | linked child parent orphan _ _ =>
    have kind : ∀ schema, ((store.link child parent).node schema).kind = (store.node schema).kind :=
      links_kind [(child, parent)]
    constructor
    · exact listed
    · intro schema small
      rw [kind]
      exact founded.kinds schema small
    · intro schema small other
      have raised : ∀ schema < singletons.size, schema ≠ schemaAny →
          initialStore.parent schema ≠ none := by decide
      have different : schema ≠ child := by
        rintro rfl
        rw [founded.parents schema small other] at orphan
        exact raised schema small other orphan
      rw [link_parent, Function.update_of_ne different]
      exact founded.parents schema small other
    · intro schema base bound ofKind
      rw [kind] at ofKind
      exact founded.bases schema base bound ofKind
    · intro schema bound pointer member
      rw [kind] at member
      exact founded.inside schema bound pointer member
  | idle => exact founded

theorem Founded.of_reachable (reachable : (system lib).Reachable store) : Founded store := by
  apply reachable.invariant
  · intro start initial
    cases initial
    exact initial_founded
  · intro before label next founded stepped
    exact founded.step stepped

theorem probed_subset (kind : Kind) : kind.probed ⊆ kind.pointers := by
  cases kind <;> simp [Kind.probed, Kind.pointers]

theorem passed_subset {kind : Kind} (member : some part ∈ kind.passed) :
    some part ∈ kind.pointers := by
  cases kind with
  | obj fields opts =>
    simp only [Kind.passed] at member
    simp only [Kind.pointers, DictOpts.pointers, List.mem_append, List.mem_cons]
    exact .inr (.inr member)
  | ifThenElse cond thenSchema elseSchema =>
    simp only [Kind.passed, List.map_append, List.mem_append, List.mem_map, Option.mem_toList,
      Option.some.injEq, exists_eq_right] at member
    simp only [Kind.pointers, List.mem_cons]
    obtain chosen | chosen := member
    · exact .inr (.inl chosen.symm)
    · exact .inr (.inr (.inl chosen.symm))
  | allOf schemas => exact member
  | ref target => exact member
  | _ => cases member

theorem Unguarded.refers {schema part : SchemaId} (unguarded : Unguarded store schema part) :
    Refers store schema part := by
  cases unguarded with
  | parent below => exact .parent below
  | probed member => exact .part (probed_subset _ member)
  | passed member => exact .part (passed_subset member)

theorem Meets.refers {call inner : Call} (meets : Meets store call inner)
    (asked : inner.schema = some part) :
    ∃ schema, call.schema = some schema ∧ Refers store schema part := by
  cases meets with
  | null _ missing => cases missing.symm.trans asked
  | direct named same unguarded =>
    cases same.symm.trans asked
    exact ⟨_, named, unguarded.refers⟩
  | down named member => exact ⟨_, named, .part (asked ▸ member)⟩

theorem acc_null {call : Call} (missing : call.schema = none) :
    Acc (Examines (validateImpl lib store)) call := by
  constructor
  intro inner examines
  unfold Examines validateImpl at examines
  rw [missing] at examines
  cases examines

/-- The calls of a validation end where references that keep the value end: each
call goes on along such a reference, or goes down in the value. -/
theorem examines_acc {schema : SchemaId} (ends : ∀ part, ReflTransGen (Refers store) schema part →
      Acc (fun inner outer => Unguarded store outer inner) part) (val : Val) (path : Text)
    (probe : Bool) : Acc (Examines (validateImpl lib store)) ⟨some schema, val, path, probe⟩ := by
  induction size : sizeOf val using Nat.strongRecOn generalizing schema val path probe with
  | _ n descend =>
    have along := ends schema .refl
    induction along generalizing path probe with
    | intro schema _ ih =>
      constructor
      rintro ⟨asked, innerVal, innerPath, mode⟩ examines
      cases asked with
      | none => exact acc_null rfl
      | some part =>
        have meets := validateImpl_within.asks examines
        obtain ⟨_, named, refers⟩ := meets.refers rfl
        cases named
        have later (other : SchemaId) (reached : ReflTransGen (Refers store) part other) :=
          ends other (.head refers reached)
        cases meets with
        | null _ missing => cases missing
        | direct named asked unguarded same =>
          cases named
          cases asked
          cases same
          exact ih part unguarded later innerPath mode
        | down _ _ smaller => exact descend _ (size ▸ smaller) later innerVal innerPath mode rfl

section

variable (founded : Founded store) (bound : schema < store.size)
include founded bound

theorem Founded.refers_bound (refers : Refers store schema part) : part < store.size := by
  cases refers with
  | parent below => exact (founded.listed.bounded schema part below).2
  | part member => exact founded.inside schema bound _ member part rfl

theorem Founded.reach_bound (reached : ReflTransGen (Refers store) schema part) :
    part < store.size := by
  induction reached with
  | refl => exact bound
  | tail _ refers ih => exact founded.refers_bound ih refers

/-- References that keep the value end at every schema that is led to. -/
theorem Founded.acc
    (guarded : CyclesGuarded store schema) (reached : ReflTransGen (Refers store) schema part) :
    Acc (fun inner outer => Unguarded store outer inner) part := by
  have finite : Finite {part // ReflTransGen (Refers store) schema part} := by
    apply Finite.of_injective
      fun part => (⟨part.1, founded.reach_bound bound part.2⟩ : Fin store.size)
    intro first second same
    exact Subtype.ext (congrArg Fin.val same)
  apply acc_of_finite _ guarded reached
  intro node inside next unguarded
  exact inside.tail unguarded.refers

end

theorem Founded.below_any (founded : Founded store)
    (small : schema < singletons.size) : ReflTransGen (Below store.parent) schema schemaAny := by
  have up : ∀ schema < singletons.size, schema ≠ schemaAny →
      ∃ parent < singletons.size, initialStore.parent schema = some parent ∧
        singletonDepth parent < singletonDepth schema := by decide
  induction depth : singletonDepth schema using Nat.strongRecOn generalizing schema with
  | _ n ih =>
    by_cases top : schema = schemaAny
    · rw [top]
    · obtain ⟨parent, inside, below, less⟩ := up schema small top
      rw [← founded.parents schema small top] at below
      exact .head below (ih _ (depth ▸ less) inside rfl)

theorem refers_of_below (above : ReflTransGen (Below store.parent) schema part) :
    ReflTransGen (Refers store) schema part := by
  induction above with
  | refl => exact .refl
  | tail _ below ih => exact ih.tail (.parent below)

/-- The walk from the schema of a tag goes through the root, from where on the
schema that is checked leads to the same schemas. -/
theorem Founded.walk_ends (founded : Founded store)
    (small : schema < singletons.size) (tagSmall : tag < singletons.size)
    (guarded : CyclesGuarded store schema) :
    after store.parent store.size (store.parent tag) = none := by
  have inStore : ∀ {other}, other < singletons.size → other < store.size :=
    fun small => Nat.lt_of_lt_of_le small founded.listed.complete
  have atRoot : Acc (fun above child => store.parent child = some above) schemaAny := by
    have root := refers_of_below (founded.below_any small)
    exact Subrelation.accessible (fun below => .parent below)
      (founded.acc (inStore small) guarded root)
  have atTag := acc_of_below (founded.below_any tagSmall) atRoot
  have ends : after store.parent (Finset.range store.size).card (some tag) = none := by
    apply after_eq_none
    · intro child _ node below
      exact Finset.mem_range.mpr (founded.listed.bounded child node below).2
    · exact Finset.mem_range.mpr (inStore tagSmall)
    · intro node up
      exact acyclic_of_acc atTag up
  have next : after store.parent (store.size + 1) (some tag) = none := by
    rw [after_succ, ← Finset.card_range store.size, ends]
    rfl
  exact next

theorem Founded.satisfies_ends (founded : Founded store)
    (bound : schema < store.size) (ofKind : (store.node schema).kind = .base base)
    (guarded : CyclesGuarded store schema) (val : Val) :
    valueSatisfiesBase store schema base val ≠ none := by
  have small := founded.bases schema base bound ofKind
  have numeric : ∀ tag, schemaForTag val = some tag →
      gocSchemaIsA store (some tag) (some schema) ≠ none := by
    intro tag tagged
    have ends := founded.walk_ends small (schemaForTag_small tagged) guarded
    simp only [gocSchemaIsA, isAWithin]
    split
    · simp
    · intro cutOff
      exact isAFrom_none cutOff ends
  cases tagged : schemaForTag val with
  | none => cases base <;> simp [valueSatisfiesBase, tagged]
  | some tag => cases base <;> simp [valueSatisfiesBase, tagged, numeric tag tagged]

/-- Where all cycles of references pass the position of an element, an item or a
field, the calls of validation do not nest forever on any value, and validation
comes to an end. -/
theorem validation_ends (reachable : (system lib).Reachable store) (schema : SchemaId)
    (bound : schema < store.size) (guarded : CyclesGuarded store schema) (val : Val) :
    Acc (Examines (validateImpl lib store)) (rootCall schema val) ∧
    ∃ fuel, (∃ found, gocSchemaValidate lib store fuel (some schema) val = .done found) ∨
      ∃ fault, gocSchemaValidate lib store fuel (some schema) val = .failed fault ∧
        fault ≠ .hangs := by
  have founded := Founded.of_reachable reachable
  have ends : Acc (Examines (validateImpl lib store)) (rootCall schema val) :=
    examines_acc (fun part reached => founded.acc bound guarded reached) val [] false
  refine ⟨ends, ?_⟩
  obtain ⟨fuel, outcome, ran, finished⟩ := evaluate_ends ends
  refine ⟨fuel, ?_⟩
  match outcome with
  | .running => exact absurd rfl finished
  | .done found => exact .inl ⟨found, ran⟩
  | .failed fault =>
    let Below (call : Call) : Prop :=
      ∀ part, call.schema = some part → ReflTransGen (Refers store) schema part
    have within (call : Call) (reached : Below call) :
        Within Below (· ≠ .hangs) (validateImpl lib store call) := by
      refine validateImpl_within.mono ?_ ?_
      · intro inner meets part named
        obtain ⟨outer, above, refers⟩ := meets.refers named
        exact (reached outer above).tail refers
      · rintro fault walks rfl
        obtain ⟨part, base, named, ofKind, walk⟩ := walks rfl
        have below := reached part named
        have later : CyclesGuarded store part := fun other rest => guarded other (below.trans rest)
        exact founded.satisfies_ends (founded.reach_bound bound below) ofKind later call.val walk
    have start : Below (rootCall schema val) := by
      rintro _ ⟨⟩
      exact .refl
    have halts := evaluate_failed within start ran
    exact .inr ⟨fault, ran, halts⟩

/-- Cycles are guarded where a rank falls along all references that keep the value. -/
theorem Founded.guarded_of_rank (founded : Founded store)
    (bound : schema < store.size) (rank : SchemaId → Nat) (falls : ∀ outer < store.size,
      ∀ part ∈ store.parent outer :: (store.node outer).kind.probed ++ (store.node outer).kind.passed,
        ∀ inner ∈ part, rank inner < rank outer) :
    CyclesGuarded store schema := by
  intro start reached cycle
  have inside := founded.reach_bound bound reached
  have lower : ∀ {last}, TransGen (Unguarded store) start last →
      last < store.size ∧ rank last < rank start := by
    have edge : ∀ {outer inner}, outer < store.size → Unguarded store outer inner →
        inner < store.size ∧ rank inner < rank outer := by
      intro outer inner outerBound unguarded
      refine ⟨founded.refers_bound outerBound unguarded.refers, ?_⟩
      apply falls outer outerBound (some inner) _ inner rfl
      cases unguarded with
      | parent below => simp [below]
      | probed member => simp [member]
      | passed member => simp [member]
    intro last path
    induction path with
    | single unguarded => exact edge inside unguarded
    | tail _ unguarded ih =>
      obtain ⟨lastBound, lower⟩ := edge ih.1 unguarded
      exact ⟨lastBound, lower.trans ih.2⟩
  exact Nat.lt_irrefl _ (lower cycle).2

end

/-- Arrays whose elements are such arrays again. -/
def nestingRun : List Label :=
  [.refMake, .arr (some 13), .refSet 13 (some 14)]

theorem nestingRun_ends : ∃ store,
    (system plainLib).run initialStore nestingRun = some store ∧ CyclesGuarded store 14 ∧
    ∀ val, Acc (Examines (validateImpl plainLib store)) (rootCall 14 val) ∧
      ∃ fuel, (∃ found, gocSchemaValidate plainLib store fuel (some 14) val = .done found) ∨
        ∃ fault, gocSchemaValidate plainLib store fuel (some 14) val = .failed fault ∧
          fault ≠ .hangs :=
  have reachable := .of_run (system plainLib) nestingRun rfl rfl
  have bound := by decide
  have guarded := (Founded.of_reachable reachable).guarded_of_rank bound
    (fun schema => if schema = 13 then 5 else if schema = 14 then 4 else singletonDepth schema)
    (by decide)
  ⟨_, rfl, guarded, validation_ends reachable 14 bound guarded⟩

end Libgoc.Schema
