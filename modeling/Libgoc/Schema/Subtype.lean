import Libgoc.Schema.Hierarchy
import Libgoc.Schema.Rules

namespace Libgoc.Schema

open Libgoc.Semantics Libgoc.Data.Forest General Relation

/-! # Subtypes -/

def Label.isDerive : Label → Bool
  | .derive _ _ => true
  | _ => false

/-- Only constructors, references and methods are used. -/
def WithoutDerive (_ : Store) (label : Label) : Prop :=
  label.isDerive = false

instance (store : Store) (label : Label) : Decidable (WithoutDerive store label) :=
  inferInstanceAs (Decidable (label.isDerive = false))

/-- What constructors keep of the singletons, and the kinds of their schemas. -/
structure Constructed (store : Store) : Prop where
  hierarchical : Hierarchical store
  kinds : ∀ schema < singletons.size, (store.node schema).kind = singletonKind schema
  parents : ∀ schema < singletons.size, store.parent schema = initialStore.parent schema
  fits : ∀ schema, singletons.size ≤ schema → schema < store.size →
    Fits (store.node schema).kind (store.parent schema)

section

variable {lib : CLib} {store next : Store} {label : Label}

theorem links_kind (edges : List (SchemaId × SchemaId)) (schema : SchemaId) :
    ((edges.foldl (fun store edge => store.link edge.1 edge.2) store).node schema).kind =
      (store.node schema).kind := by
  induction edges generalizing store with
  | nil => rfl
  | cons edge rest ih =>
    rw [List.foldl_cons, ih]
    by_cases same : schema = edge.1
    · subst same
      simp [Store.link]
    · simp [Store.link, same]

theorem initial_constructed : Constructed initialStore where
  hierarchical := initial_hierarchical
  kinds schema _ := links_kind builtinEdges schema
  parents _ _ := rfl
  fits schema large small := by
    rw [initialStore, links_size] at small
    exact absurd large (Nat.not_le_of_lt small)

theorem Constructed.made (constructed : Constructed store)
    (fits : Fits kind super) (effect : Made store next kind super)
    (hierarchical : Hierarchical next) : Constructed next := by
  have complete := constructed.hierarchical.complete
  have kept : ∀ schema < singletons.size, next.node schema = store.node schema := by
    intro schema small
    exact effect.old schema (Nat.ne_of_lt (Nat.lt_of_lt_of_le small complete))
  constructor
  · exact hierarchical
  · intro schema small
    rw [kept schema small]
    exact constructed.kinds schema small
  · intro schema small
    rw [Store.parent, kept schema small]
    exact constructed.parents schema small
  · intro schema large bound
    rw [effect.size] at bound
    by_cases same : schema = store.size
    · subst same
      rw [Store.parent, effect.new]
      exact fits
    · rw [Store.parent, effect.old schema same]
      exact constructed.fits schema large (Nat.lt_of_le_of_ne (Nat.le_of_lt_succ bound) same)

theorem singletonKind_ne_ref (schema : SchemaId) (target : Option SchemaId) :
    singletonKind schema ≠ .ref target := by
  unfold singletonKind
  split <;> exact Kind.noConfusion

theorem Constructed.resolved (constructed : Constructed store)
    (target : Option SchemaId) (unset : (store.node ref).kind = .ref none)
    (hierarchical : Hierarchical (store.resolve ref target)) :
    Constructed (store.resolve ref target) := by
  have notSingle : ∀ schema < singletons.size, schema ≠ ref := by
    rintro schema small rfl
    rw [constructed.kinds schema small] at unset
    exact singletonKind_ne_ref schema none unset
  have kept : ∀ schema, schema ≠ ref → (store.resolve ref target).node schema = store.node schema :=
    fun schema other => Function.update_of_ne other ..
  constructor
  · exact hierarchical
  · intro schema small
    rw [kept schema (notSingle schema small)]
    exact constructed.kinds schema small
  · intro schema small
    rw [resolve_parent]
    exact constructed.parents schema small
  · intro schema large bound
    rw [resolve_parent]
    by_cases same : schema = ref
    · subst same
      simp [Store.resolve, Fits]
    · rw [kept schema same]
      exact constructed.fits schema large bound

theorem Constructed.step (constructed : Constructed store) (permitted : WithoutDerive store label)
    (stepped : step lib store label = some next) : Constructed next := by
  have separates : Separates store label := by
    cases label with
    | derive child parent => cases permitted
    | _ => trivial
  have hierarchical := constructed.hierarchical.step separates stepped
  cases step_change stepped with
  | made kind super fits _ effect => exact constructed.made fits effect hierarchical
  | resolved ref target unset =>
    exact constructed.resolved target unset hierarchical
  | kept size kinds parents =>
    constructor
    · exact hierarchical
    · intro schema small
      rw [kinds]
      exact constructed.kinds schema small
    · intro schema small
      rw [parents]
      exact constructed.parents schema small
    · intro schema large bound
      rw [kinds, parents]
      exact constructed.fits schema large (size ▸ bound)
  | linked child parent => cases permitted

theorem Constructed.of_reachable (reachable : (system lib).ReachableWith WithoutDerive store) :
    Constructed store := by
  apply reachable.invariant
  · intro start initial
    cases initial
    exact initial_constructed
  · intro before label next constructed permitted stepped
    exact constructed.step permitted stepped

theorem Constructed.bound (constructed : Constructed store)
    (small : schema < singletons.size) : schema < store.size :=
  Nat.lt_of_lt_of_le small constructed.hierarchical.complete

theorem isValid_of_base (base : isBaseKind (store.node schema).kind = true) :
    IsValid lib store schema val ↔ KindAccepts lib store schema val := by
  rw [isValid_iff]
  apply and_iff_right
  intro parent checked
  simp [Node.checkedParent, base] at checked

theorem isValid_base (ofKind : (store.node schema).kind = .base base) :
    IsValid lib store schema val ↔ valueSatisfiesBase store schema base val = some true := by
  rw [isValid_of_base (by rw [ofKind]; rfl), kindAccepts_base ofKind]

theorem Constructed.any_accepts (constructed : Constructed store) (val : Val) (path : Text) :
    Returns (validateImpl lib store) ⟨some schemaAny, val, path, false⟩ none := by
  have ofKind : (store.node schemaAny).kind = .base .any := constructed.kinds schemaAny (by decide)
  rw [returns_iff, validateImpl_checks rfl, gives_firstError_none]
  simp [checks, Node.checkedParent, ofKind, isBaseKind, kindChecks, gives_own_none, checkBase,
    valueSatisfiesBase]

theorem Constructed.arr_accepts (constructed : Constructed store) (array : isGocArray val = true)
    (short : ∀ i < (elements val).length, gocSprintf (indexPath [] i) ≠ none) :
    IsValid lib store schemaArr val := by
  have ofKind := constructed.kinds schemaArr (by decide)
  rw [isValid_of_base (by rw [ofKind]; rfl), kindAccepts_arr ofKind]
  refine ⟨array, fun i part found => ⟨short i ?_, constructed.any_accepts part _⟩⟩
  exact (List.getElem?_eq_some_iff.mp found).1

theorem Constructed.dict_accepts (constructed : Constructed store)
    (dict : isGocDict val = true) : IsValid lib store schemaDict val := by
  have ofKind : (store.node schemaDict).kind = .obj [] {} := constructed.kinds schemaDict (by decide)
  rw [isValid_of_base (by rw [ofKind]; rfl), KindAccepts, ofKind]
  simp [kindChecks, objectChecks, dict, keyChecks, gives_own_none, checkProperties]

/-- The bases whose test goes by the tag of a box. -/
def Base.isNumeric : Base → Bool
  | .any | .null | .str | .bool => false
  | _ => true

theorem isValid_numeric
    (ofKind : (store.node schema).kind = .base base) (numeric : base.isNumeric = true) :
    IsValid lib store schema val ↔ ∃ tag, schemaForTag val = some tag ∧
        gocSchemaIsA store (some tag) (some schema) = some true := by
  rw [isValid_base ofKind]
  cases base <;> try cases numeric
  all_goals
    simp only [valueSatisfiesBase]
    cases schemaForTag val <;> simp

theorem schemaForTag_small (tagged : schemaForTag val = some tag) :
    tag < singletons.size := by
  cases val with
  | boxed addr box => cases box <;> cases tagged <;> decide
  | _ => cases tagged

section

variable (constructed : Constructed store)
include constructed

/-- The test of a number implies that of every schema above in the tower. -/
theorem Constructed.numeric_parent (ofKind : (store.node parent).kind = .base base)
    (numeric : base.isNumeric = true) (below : store.parent child = some parent)
    (tagged : schemaForTag val = some tag)
    (tower : gocSchemaIsA store (some tag) (some child) = some true) :
    IsValid lib store parent val := by
  have bound := constructed.bound (schemaForTag_small tagged)
  rw [isValid_numeric ofKind numeric]
  refine ⟨tag, tagged, ?_⟩
  rw [constructed.hierarchical.isA_iff bound] at tower ⊢
  exact tower.tail below

/-- A boolean has the tag at the foot of the tower. -/
theorem Constructed.bool_tagged (valid : IsValid lib store schemaBool val) :
    schemaForTag val = some schemaBool ∧
      gocSchemaIsA store (some schemaBool) (some schemaBool) = some true := by
  have satisfied := (isValid_base (constructed.kinds schemaBool (by decide))).mp valid
  constructor
  · cases val with
    | boxed addr box => cases box <;> first | rfl | cases satisfied
    | _ => cases satisfied
  · exact (constructed.hierarchical.isA_iff (constructed.bound (by decide)) _).mpr .refl

theorem Constructed.singleton_parent
    (small : child < singletons.size) (below : store.parent child = some parent)
    (valid : IsValid lib store child val) : IsValid lib store parent val := by
  -- one step up the tower between two numeric types
  have tower : ∀ {lower upper : Base}, (store.node child).kind = .base lower →
      (store.node parent).kind = .base upper → lower.isNumeric = true → upper.isNumeric = true →
      IsValid lib store parent val := by
    intro lower upper ofChild ofParent lowerNumeric upperNumeric
    obtain ⟨tag, tagged, isA⟩ := (isValid_numeric ofChild lowerNumeric).mp valid
    exact constructed.numeric_parent ofParent upperNumeric below tagged isA
  have kinds := constructed.kinds
  have edge := initial_parent (constructed.parents child small ▸ below)
  simp only [builtinEdges, List.mem_cons, Prod.mk.injEq, List.not_mem_nil, or_false] at edge
  obtain ⟨-, rfl⟩ | ⟨-, rfl⟩ | ⟨-, rfl⟩ | ⟨-, rfl⟩ | ⟨-, rfl⟩ | rest := edge
  all_goals try exact constructed.any_accepts val []
  obtain ⟨rfl, rfl⟩ | ⟨rfl, rfl⟩ | ⟨rfl, rfl⟩ | ⟨rfl, rfl⟩ | ⟨rfl, rfl⟩ | ⟨rfl, rfl⟩ | ⟨rfl, rfl⟩ :=
    rest
  case inr.inr.inr.inr.inr.inr =>
    obtain ⟨tagged, isA⟩ := constructed.bool_tagged valid
    exact constructed.numeric_parent (kinds schemaUbyte (by decide)) rfl below tagged isA
  all_goals exact tower (kinds _ (by decide)) (kinds _ (by decide)) rfl rfl

theorem Constructed.parent_accepts
    (bound : child < store.size) (below : store.parent child = some parent)
    (valid : IsValid lib store child val) : IsValid lib store parent val := by
  by_cases small : child < singletons.size
  · exact constructed.singleton_parent small below valid
  have fits := constructed.fits child (Nat.le_of_not_lt small) bound
  cases base : isBaseKind (store.node child).kind with
  | false =>
    apply (isValid_iff.mp valid).1
    rw [Node.checkedParent, base]
    exact below
  | true =>
    have accepts := (isValid_of_base base).mp valid
    rw [below] at fits
    cases ofKind : (store.node child).kind <;> rw [ofKind] at base fits <;> try cases base
    case base.refl => exact fits.elim
    case arr.refl =>
      obtain rfl := Option.some.inj fits
      obtain ⟨array, elems⟩ := (kindAccepts_arr ofKind).mp accepts
      refine constructed.arr_accepts array fun i bound => ?_
      exact (elems i _ (List.getElem?_eq_getElem bound)).1
    case obj.refl =>
      obtain rfl := Option.some.inj fits
      have dict := (returns_none_iff.mp valid).1
      rw [judges_iff, runs_none_iff, checks, List.forall_mem_append, ofKind] at dict
      exact constructed.dict_accepts (object_finds.mp dict.2).1.dict

end

/-- A value that is valid for a schema is valid for every schema above it. -/
theorem subtype_sound (reachable : (system lib).ReachableWith WithoutDerive store)
    (sub super : SchemaId) (val : Val) (bound : sub < store.size)
    (isA : gocSchemaIsA store (some sub) (some super) = some true)
    (valid : IsValid lib store sub val) : IsValid lib store super val := by
  have constructed := Constructed.of_reachable reachable
  have above := (constructed.hierarchical.isA_iff bound super).mp isA
  clear isA
  induction above using ReflTransGen.head_induction_on with
  | refl => exact valid
  | head below _ ih =>
    apply ih
    · exact (constructed.hierarchical.bounded _ _ below).2
    · exact constructed.parent_accepts bound below valid

end

/-- A bounded integer, and a predicate on it. -/
def subtypeRun : List Label :=
  [.intMin 0, .predicate (some 13) isBoxed none]

theorem subtypeRun_sound : ∃ store,
    (system plainLib).runWith WithoutDerive initialStore subtypeRun = some store ∧
    gocSchemaIsA store (some 14) (some schemaNumber) = some true ∧
    IsValid plainLib store 14 (.boxed 0 (.byte 7)) ∧
    IsValid plainLib store schemaNumber (.boxed 0 (.byte 7)) :=
  ⟨_, rfl, rfl, ⟨4, rfl⟩,
    subtype_sound (.of_run (system plainLib) WithoutDerive subtypeRun rfl rfl) 14 schemaNumber
      (.boxed 0 (.byte 7)) (by decide) rfl ⟨4, rfl⟩⟩

end Libgoc.Schema
