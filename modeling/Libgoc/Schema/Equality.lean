import Libgoc.Schema.Rules
import Libgoc.Schema.Hierarchy

namespace Libgoc.Schema

open Libgoc.Semantics General

/-! # Equality of values -/

/-- Values that are in memory at one time: two of them at one address are one
value, and the keys of a dictionary are distinct. -/
structure Region where
  holds : Val → Prop
  null : holds .null
  str : ∀ text, holds (.str text)
  element : ∀ val, holds val → ∀ part ∈ elements val, holds part
  entry : ∀ val, holds val → ∀ entry ∈ dictEntries val, holds entry.2
  one : ∀ a b, holds a → holds b → sameAddress a b = true → a = b
  keys : ∀ val, holds val → ((dictEntries val).map Prod.fst).Nodup

def Box.signed : Box → Option Int
  | .byte value | .int _ value => some value
  | _ => none

def Box.unsigned : Box → Option Nat
  | .ubyte value | .uint _ value => some value
  | _ => none

/-- Structural equality. -/
inductive Same : Val → Val → Prop
  | null : Same .null .null
  | bool {a b : Nat} {value : Bool} : Same (.boxed a (.bool value)) (.boxed b (.bool value))
  | signed {a b : Nat} {box other : Box} {value : Int} : box.signed = some value →
      other.signed = some value → Same (.boxed a box) (.boxed b other)
  | unsigned {a b : Nat} {box other : Box} {value : Nat} : box.unsigned = some value →
      other.unsigned = some value → Same (.boxed a box) (.boxed b other)
  | str {text : Text} : Same (.str text) (.str text)
  | arr {a b : Nat} {rep other : ArrRep} {xs ys : List Val} : xs.length = ys.length →
      (∀ (i : Nat) x y, xs[i]? = some x → ys[i]? = some y → Same x y) →
      Same (.arr a rep xs) (.arr b other ys)
  | dict {a b : Nat} {xs ys : List (Text × Val)} :
      (∀ key, dictContains xs key = dictContains ys key) →
      (∀ key, dictContains xs key = true → Same (dictGet xs key) (dictGet ys key)) →
      Same (.dict a xs) (.dict b ys)

/-- The value is no box with a floating-point number. -/
def Discrete : Val → Prop
  | .boxed _ (.real _ _) | .boxed _ (.complex _ _) => False
  | _ => True

namespace Region

variable {region : Region} {addr : Nat} {entries : List (Text × Val)}

section

variable (held : region.holds (.dict addr entries))
include held

theorem distinct : (entries.map Prod.fst).Nodup :=
  region.keys _ held

theorem dictGet_held (key : Text) :
    region.holds (dictGet entries key) := by
  unfold dictGet
  cases search : entries.find? fun entry => entry.1 = key with
  | none => exact region.null
  | some found => exact region.entry _ held found (List.mem_of_find?_eq_some search)

theorem dictGet_eq {entry : Text × Val}
    (member : entry ∈ entries) : dictGet entries entry.1 = entry.2 := by
  obtain ⟨found, present, same, get⟩ := dictGet_of_mem member
  rw [get, List.inj_on_of_nodup_map (distinct held) present member same]

theorem exists_entry {key : Text} (present : dictContains entries key = true) :
    ∃ entry ∈ entries, entry.1 = key ∧ dictGet entries key = entry.2 := by
  obtain ⟨entry, member, rfl⟩ := List.mem_map.mp (dictContains_iff.mp present)
  exact ⟨entry, member, rfl, dictGet_eq held member⟩

end

end Region

/-- Structural equality is reflexive where no number is a floating-point one. -/
theorem Same.refl (region : Region) (discrete : ∀ val, region.holds val → Discrete val) (val : Val)
    (held : region.holds val) : Same val val := by
  induction val using Val.induct with
  | null => exact .null
  | boxed addr box =>
    have plain := discrete _ held
    cases box with
    | bool value => exact .bool
    | byte value => exact .signed rfl rfl
    | int size value => exact .signed rfl rfl
    | ubyte value => exact .unsigned rfl rfl
    | uint size value => exact .unsigned rfl rfl
    | real size bits => exact plain.elim
    | complex size bits => exact plain.elim
  | str text => exact .str
  | arr addr rep elems ih =>
    apply Same.arr rfl
    intro i x y left right
    obtain rfl := Option.some.inj (left.symm.trans right)
    have member := List.mem_of_getElem? left
    exact ih x member (region.element _ held x member)
  | dict addr entries ih =>
    apply Same.dict fun _ => rfl
    intro key present
    obtain ⟨entry, member, rfl, value⟩ := Region.exists_entry held present
    rw [value]
    exact ih entry member (region.entry _ held entry member)

theorem Same.symm (same : Same a b) : Same b a := by
  induction same with
  | null => exact .null
  | bool => exact .bool
  | signed left right => exact .signed right left
  | unsigned left right => exact .unsigned right left
  | str => exact .str
  | arr lengths _ ih => exact .arr lengths.symm fun i x y left right => ih i y x right left
  | dict keys _ ih =>
    apply Same.dict fun key => (keys key).symm
    intro key present
    exact ih key ((keys key).trans present)

theorem Same.trans (left : Same a b) (right : Same b c) : Same a c := by
  induction left generalizing c with
  | null => exact right
  | bool =>
    cases right with
    | bool => exact .bool
    | signed first => cases first
    | unsigned first => cases first
  | @signed _ _ box other value first second =>
    cases right with
    | bool => cases second
    | signed third fourth =>
      obtain rfl := Option.some.inj (second.symm.trans third)
      exact .signed first fourth
    | unsigned third => cases other <;> simp_all [Box.signed, Box.unsigned]
  | @unsigned _ _ box other value first second =>
    cases right with
    | bool => cases second
    | signed third => cases other <;> simp_all [Box.signed, Box.unsigned]
    | unsigned third fourth =>
      obtain rfl := Option.some.inj (second.symm.trans third)
      exact .unsigned first fourth
  | str => exact right
  | @arr _ _ _ _ xs ys lengths _ ih =>
    cases right with
    | @arr _ _ _ _ _ zs others parts =>
      apply Same.arr (lengths.trans others)
      intro i x z first last
      have bound : i < ys.length := lengths ▸ (List.getElem?_eq_some_iff.mp first).1
      have middle : ys[i]? = some ys[i] := List.getElem?_eq_getElem bound
      exact ih i x ys[i] first middle (parts i ys[i] z middle last)
  | dict keys _ ih =>
    cases right with
    | dict others parts =>
      apply Same.dict fun key => (keys key).trans (others key)
      intro key present
      exact ih key present (parts key ((keys key).symm.trans present))

theorem Same.null_right (same : Same a .null) : a = .null := by
  cases same
  rfl

section

variable {lib : CLib}

theorem elemsEqual_iff : elemsEqual lib xs ys = true ↔
      ∀ (i : Nat) x y, xs[i]? = some x → ys[i]? = some y → valsEqual lib x y = true := by
  induction xs generalizing ys with
  | nil => simp [elemsEqual]
  | cons x xs ih =>
    cases ys with
    | nil => simp [elemsEqual]
    | cons y ys =>
      rw [elemsEqual, Bool.and_eq_true, ih]
      constructor
      · intro each i a b left right
        obtain ⟨first, rest⟩ := each
        cases i with
        | zero =>
          obtain rfl := Option.some.inj left
          obtain rfl := Option.some.inj right
          exact first
        | succ i => exact rest i a b left right
      · intro each
        exact ⟨each 0 x y rfl rfl, fun i a b left right => each (i + 1) a b left right⟩

theorem entriesEqual_iff : entriesEqual lib xs ys = true ↔
      ∀ entry ∈ xs, valsEqual lib entry.2 (dictGet ys entry.1) = true := by
  induction xs with
  | nil => simp [entriesEqual]
  | cons entry xs ih => simp [entriesEqual, ih]

theorem findEqual_eq_none :
    findEqual lib a j rest = none ↔ ∀ b ∈ rest, valsEqual lib a b = false := by
  induction rest generalizing j with
  | nil => simp [findEqual]
  | cons b rest ih =>
    cases equal : valsEqual lib a b <;> simp [findEqual, equal, ih]

theorem findDuplicate_eq_none :
    findDuplicate lib i elems = none ↔ elems.Pairwise fun a b => valsEqual lib a b = false := by
  induction elems generalizing i with
  | nil => simp [findDuplicate]
  | cons a rest ih =>
    rw [List.pairwise_cons, ← ih (i := i + 1), ← findEqual_eq_none (j := i + 1), findDuplicate]
    cases findEqual lib a (i + 1) rest <;> simp

theorem kindAccepts_arrUnique {schema : SchemaId}
    (ofKind : (store.node schema).kind = .arrUnique elem) :
    KindAccepts lib store schema val ↔ isGocArray val = true ∧
      (∀ i part, (elements val)[i]? = some part →
        AcceptedAt lib store elem part (indexPath [] i)) ∧
      (elements val).Pairwise fun a b => valsEqual lib a b = false := by
  rw [KindAccepts, ofKind]
  simp only [kindChecks]
  rw [forall_onArray (by simp [gives_own_none])]
  simp only [List.forall_mem_append, elems_accept, List.forall_mem_singleton, checkUnique,
    gives_own_none, Except.ok.injEq, Option.map_eq_none_iff, findDuplicate_eq_none]

end

/-- Every array of the region is taken for one. -/
def Region.Recognised (region : Region) : Prop :=
  ∀ addr rep elems, region.holds (.arr addr rep elems) → rep.recognised elems.length = true

/-- No two dictionaries of one size differ only in that a key of the first, mapped
to `NULL`, is missing from the second. -/
def Region.NullsApart (region : Region) : Prop :=
  ∀ a b xs ys, region.holds (.dict a xs) → region.holds (.dict b ys) → xs.length = ys.length →
    (∀ key, dictContains xs key = true → dictContains ys key = true →
      Same (dictGet xs key) (dictGet ys key)) →
    (∀ key, dictContains xs key = true → dictContains ys key = false → dictGet xs key = .null) →
    ∀ key, dictContains xs key = true → dictContains ys key = true

section

variable {lib : CLib} {region : Region}

/-- No `NULL` in a dictionary at all. -/
theorem nullsApart_of_no_null
    (present : ∀ val, region.holds val → ∀ entry ∈ dictEntries val, entry.2 ≠ .null) :
    region.NullsApart := by
  intro a b xs ys left right _ _ nulls key inFirst
  by_contra missing
  have null := nulls key inFirst (by simpa using missing)
  obtain ⟨entry, member, rfl, value⟩ := Region.exists_entry left inFirst
  exact present _ left entry member (value.symm.trans null)

theorem boxesEqual_iff (left : Discrete (.boxed a box)) :
    boxesEqual lib box other = true ↔ Same (.boxed a box) (.boxed b other) := by
  constructor
  · intro equal
    cases box <;> cases other <;> simp only [boxesEqual, decide_eq_true_eq, Bool.false_eq_true] at equal
    case bool.bool =>
      subst equal
      exact .bool
    all_goals first
      | exact left.elim
      | (subst equal; exact .signed rfl rfl)
      | (subst equal; exact .unsigned rfl rfl)
  · intro same
    cases same with
    | bool => simp [boxesEqual]
    | signed first second => cases box <;> cases other <;> simp_all [Box.signed, boxesEqual]
    | unsigned first second => cases box <;> cases other <;> simp_all [Box.unsigned, boxesEqual]

/-- With distinct keys, as many keys and all of the first in the second, the
dictionaries have the same keys. -/
theorem same_keys (left : (xs.map Prod.fst).Nodup) (lengths : xs.length = ys.length)
    (subset : ∀ key, dictContains xs key = true → dictContains ys key = true) (key : Text) :
    dictContains xs key = dictContains ys key := by
  have inside : xs.map Prod.fst ⊆ ys.map Prod.fst := fun key member =>
    dictContains_iff.mp (subset key (dictContains_iff.mpr member))
  have perm : (xs.map Prod.fst).Perm (ys.map Prod.fst) :=
    (left.subperm inside).perm_of_length_le (by simp [lengths])
  rw [Bool.eq_iff_iff, dictContains_iff, dictContains_iff]
  exact perm.mem_iff

theorem same_length (left : (xs.map Prod.fst).Nodup)
    (right : (ys.map Prod.fst).Nodup) (keys : ∀ key, dictContains xs key = dictContains ys key) :
    xs.length = ys.length := by
  have perm : (xs.map Prod.fst).Perm (ys.map Prod.fst) := by
    apply (List.perm_ext_iff_of_nodup left right).mpr
    intro key
    rw [← dictContains_iff, ← dictContains_iff, keys key]
  simpa using perm.length_eq

theorem entriesEqual_same {a b : Nat} (apart : region.NullsApart)
    (left : region.holds (.dict a xs)) (right : region.holds (.dict b ys))
    (parts : ∀ entry ∈ xs, valsEqual lib entry.2 (dictGet ys entry.1) = true ↔
      Same entry.2 (dictGet ys entry.1)) :
    (xs.length = ys.length ∧ entriesEqual lib xs ys = true) ↔ Same (.dict a xs) (.dict b ys) := by
  have keys := Region.distinct left
  rw [entriesEqual_iff]
  constructor
  · intro equal
    obtain ⟨lengths, each⟩ := equal
    have values : ∀ key, dictContains xs key = true → Same (dictGet xs key) (dictGet ys key) := by
      intro key present
      obtain ⟨entry, member, rfl, value⟩ := Region.exists_entry left present
      rw [value]
      exact (parts entry member).mp (each entry member)
    have subset := apart a b xs ys left right lengths (fun key present _ => values key present)
      fun key present missing => by
        have value := values key present
        rw [dictGet_absent missing] at value
        exact value.null_right
    exact .dict (same_keys keys lengths subset) values
  · intro same
    cases same with
    | dict sameKeys values =>
      constructor
      · exact same_length keys (Region.distinct right) sameKeys
      · intro entry member
        apply (parts entry member).mpr
        have value := values entry.1 (dictContains_of_mem member)
        rwa [Region.dictGet_eq left member] at value

section

variable (discrete : ∀ val, region.holds val → Discrete val)
include discrete

theorem same_of_sameAddress
    (left : region.holds a) (right : region.holds b) (address : sameAddress a b = true) :
    Same a b := by
  obtain rfl := region.one a b left right address
  exact Same.refl region discrete a left

/-- Values at one address aside, the comparison is settled by its other tests. -/
theorem sameAddress_or (left : region.holds a) (right : region.holds b)
    (rest : test = true ↔ Same a b) : (sameAddress a b || test) = true ↔ Same a b := by
  rw [Bool.or_eq_true, rest]
  constructor
  · intro either
    obtain address | same := either
    · exact same_of_sameAddress discrete left right address
    · exact same
  · exact .inr

theorem valsEqual_iff_same (recognised : region.Recognised) (apart : region.NullsApart)
    (left : region.holds a) (right : region.holds b) : valsEqual lib a b = true ↔ Same a b := by
  induction a using Val.induct generalizing b with
  | null =>
    rw [valsEqual]
    cases b with
    | null => exact ⟨fun _ => Same.null, fun _ => rfl⟩
    | _ => constructor <;> intro equal <;> cases equal
  | boxed addr box =>
    cases b with
    | boxed addr' other =>
      rw [valsEqual]
      exact sameAddress_or discrete left right (boxesEqual_iff (discrete _ left))
    | _ => constructor <;> intro equal <;> cases equal
  | str text =>
    rw [valsEqual]
    cases b with
    | str text' =>
      rw [Bool.and_eq_true, decide_eq_true_eq]
      constructor
      · intro equal
        obtain rfl : text' = text := equal.2
        exact .str
      · intro same
        cases same
        exact ⟨rfl, rfl⟩
    | arr addr rep elems =>
      have array : isGocArray (.arr addr rep elems) = true := recognised _ _ _ right
      constructor
      · intro equal
        simp [isString, array] at equal
      · intro same
        cases same
    | _ =>
      constructor
      · intro equal
        simp [isString, isBoxed, isGocDict] at equal
      · intro same
        cases same
  | arr addr rep elems ih =>
    rw [valsEqual]
    apply sameAddress_or discrete left right
    rw [if_pos (recognised _ _ _ left)]
    cases b with
    | arr addr' other elems' =>
      have array : isGocArray (.arr addr' other elems') = true := recognised _ _ _ right
      have part : ∀ (i : Nat) x y, elems[i]? = some x → elems'[i]? = some y →
          (valsEqual lib x y = true ↔ Same x y) := by
        intro i x y first second
        have member := List.mem_of_getElem? first
        exact ih x member (region.element _ left x member)
          (region.element _ right y (List.mem_of_getElem? second))
      simp only [array, Bool.true_and, Bool.and_eq_true, decide_eq_true_eq, elemsEqual_iff]
      constructor
      · intro equal
        obtain ⟨lengths, each⟩ := equal
        exact .arr lengths fun i x y first second =>
          (part i x y first second).mp (each i x y first second)
      · intro same
        cases same with
        | arr lengths each =>
          exact ⟨lengths, fun i x y first second =>
            (part i x y first second).mpr (each i x y first second)⟩
    | _ => constructor <;> intro equal <;> cases equal
  | dict addr entries ih =>
    rw [valsEqual]
    apply sameAddress_or discrete left right
    cases b with
    | dict addr' others =>
      simp only [isGocDict, Bool.true_and, Bool.and_eq_true, decide_eq_true_eq]
      apply entriesEqual_same apart left right
      intro entry member
      exact ih entry member (region.entry _ left entry member) (Region.dictGet_held right entry.1)
    | _ => constructor <;> intro equal <;> cases equal

end

section

variable
  (structural : ∀ a b, region.holds a → region.holds b → (valsEqual lib a b = true ↔ Same a b))
include structural

/-- An array that is not recognised is taken for the string in its header. -/
theorem recognised_of_structural : region.Recognised := by
  intro addr rep elems held
  cases array : rep.recognised elems.length with
  | true => rfl
  | false =>
    have equal : valsEqual lib (.str rep.raw) (.arr addr rep elems) = true := by
      simp [valsEqual, isString, isBoxed, isGocArray, isGocDict, stringBytes, array]
    cases (structural _ _ (region.str rep.raw) held).mp equal

/-- A key that is mapped to `NULL` is taken for a missing one. -/
theorem nullsApart_of_structural : region.NullsApart := by
  intro a b xs ys left right lengths common nulls key present
  have equal : valsEqual lib (.dict a xs) (.dict b ys) = true := by
    simp only [valsEqual, isGocDict, dictEntries, lengths, Bool.true_and, decide_true,
      Bool.or_eq_true, entriesEqual_iff]
    right
    intro entry member
    have inFirst := dictContains_of_mem member
    have value : dictGet xs entry.1 = entry.2 := Region.dictGet_eq left member
    have heldValue := Region.dictGet_held left entry.1
    cases inSecond : dictContains ys entry.1 with
    | true =>
      rw [← value]
      apply (structural _ _ heldValue (Region.dictGet_held right entry.1)).mpr
      exact common entry.1 inFirst inSecond
    | false =>
      rw [← value, nulls entry.1 inFirst inSecond, dictGet_absent inSecond]
      rfl
  cases (structural _ _ left right).mp equal with
  | dict sameKeys _ => rw [← sameKeys key, present]

end

/-- Where the comparison is symmetric, no element is equal to another one. -/
theorem pairwise_iff_of_symm {elems : List Val}
    (symm : ∀ a ∈ elems, ∀ b ∈ elems, valsEqual lib a b = true → valsEqual lib b a = true) :
    (elems.Pairwise fun a b => valsEqual lib a b = false) ↔
      ∀ (i j : Nat) a b, i ≠ j → elems[i]? = some a → elems[j]? = some b →
        valsEqual lib a b = false := by
  rw [List.pairwise_iff_getElem]
  constructor
  · intro each i j a b different first second
    obtain ⟨boundI, rfl⟩ := List.getElem?_eq_some_iff.mp first
    obtain ⟨boundJ, rfl⟩ := List.getElem?_eq_some_iff.mp second
    obtain before | after := Nat.lt_or_gt_of_ne different
    · exact each i j boundI boundJ before
    · have other := each j i boundJ boundI after
      by_contra equal
      simp [symm _ (List.getElem_mem boundI) _ (List.getElem_mem boundJ) (by simpa using equal)] at other
  · intro each i j boundI boundJ before
    exact each i j _ _ (Nat.ne_of_lt before) (List.getElem?_eq_getElem boundI)
      (List.getElem?_eq_getElem boundJ)

/-- What is expected of the comparison of values and of the schema for arrays
without duplicates. -/
structure Structural (lib : CLib) (store : Store) (region : Region) : Prop where
  same : ∀ a b, region.holds a → region.holds b → (valsEqual lib a b = true ↔ Same a b)
  refl : ∀ a, region.holds a → valsEqual lib a a = true
  symm : ∀ a b, region.holds a → region.holds b → valsEqual lib a b = true →
    valsEqual lib b a = true
  trans : ∀ a b c, region.holds a → region.holds b → region.holds c → valsEqual lib a b = true →
    valsEqual lib b c = true → valsEqual lib a c = true
  unique : ∀ schema elem val, (store.node schema).kind = .arrUnique elem → region.holds val →
    (IsValid lib store schema val ↔
      ParentAccepts lib store schema val ∧ isGocArray val = true ∧
        (∀ i part, (elements val)[i]? = some part →
          AcceptedAt lib store elem part (indexPath [] i)) ∧
        ∀ (i j : Nat) a b, i ≠ j → (elements val)[i]? = some a → (elements val)[j]? = some b →
          valsEqual lib a b = false)

end

/-- The comparison is structural equality exactly where every array is recognised
and no `NULL` in a dictionary stands for a missing key. -/
theorem equality_structural_iff (lib : CLib) (store : Store) (region : Region)
    (discrete : ∀ val, region.holds val → Discrete val) :
    (Structural lib store region ↔ region.Recognised ∧ region.NullsApart) ∧
      ((∀ val, region.holds val → ∀ entry ∈ dictEntries val, entry.2 ≠ .null) →
        region.NullsApart) := by
  refine ⟨⟨fun structural => ?_, fun sound => ?_⟩, nullsApart_of_no_null⟩
  · exact ⟨recognised_of_structural structural.same, nullsApart_of_structural structural.same⟩
  · obtain ⟨recognised, apart⟩ := sound
    have same : ∀ a b, region.holds a → region.holds b → (valsEqual lib a b = true ↔ Same a b) :=
      fun a b left right => valsEqual_iff_same discrete recognised apart left right
    have symm : ∀ a b, region.holds a → region.holds b → valsEqual lib a b = true →
        valsEqual lib b a = true := by
      intro a b left right equal
      exact (same b a right left).mpr ((same a b left right).mp equal).symm
    constructor
    · exact same
    · intro a held
      exact (same a a held held).mpr (Same.refl region discrete a held)
    · exact symm
    · intro a b c first second third left right
      apply (same a c first third).mpr
      exact ((same a b first second).mp left).trans ((same b c second third).mp right)
    · intro schema elem val ofKind held
      have parts := region.element val held
      rw [isValid_iff, kindAccepts_arrUnique ofKind, pairwise_iff_of_symm]
      intro a inA b inB
      exact symm a b (parts a inA) (parts b inB)

def sevenBox : Val :=
  .boxed 1 (.int .int 7)

def sevenArr : Val :=
  .arr 2 ⟨8, 2, true, []⟩ [sevenBox, .str (lit "seven")]

def sevenDict : Val :=
  .dict 3 [(lit "list", sevenArr), (lit "none", .null)]

/-- A dictionary with a `NULL` and an array, and what they hold. -/
def sevenRegion : Region where
  holds val := val = .null ∨ (∃ text, val = .str text) ∨ val = sevenBox ∨ val = sevenArr ∨
    val = sevenDict
  null := .inl rfl
  str text := .inr (.inl ⟨text, rfl⟩)
  element val held part member := by
    obtain rfl | ⟨text, rfl⟩ | rfl | rfl | rfl := held <;>
      simp_all [elements, sevenBox, sevenArr, sevenDict]
    obtain rfl | rfl := member <;> simp
  entry val held entry member := by
    obtain rfl | ⟨text, rfl⟩ | rfl | rfl | rfl := held <;>
      simp_all [dictEntries, sevenBox, sevenArr, sevenDict]
    obtain rfl | rfl := member <;> simp
  one a b left right address := by
    obtain rfl | ⟨text, rfl⟩ | rfl | rfl | rfl := left <;>
      obtain rfl | ⟨text', rfl⟩ | rfl | rfl | rfl := right <;>
      simp_all [sameAddress, sevenBox, sevenArr, sevenDict]
  keys val held := by
    obtain rfl | ⟨text, rfl⟩ | rfl | rfl | rfl := held
    · exact .nil
    · exact .nil
    · exact .nil
    · exact .nil
    · decide +kernel

theorem sevenRegion_structural : sevenRegion.holds sevenDict ∧
    Structural plainLib initialStore sevenRegion := by
  refine ⟨.inr (.inr (.inr (.inr rfl))), (equality_structural_iff _ _ _ ?_).1.mpr ⟨?_, ?_⟩⟩
  · intro val held
    obtain rfl | ⟨text, rfl⟩ | rfl | rfl | rfl := held <;> trivial
  · intro addr rep elems held
    obtain same | ⟨text, same⟩ | same | same | same := held <;> cases same
    rfl
  · intro a b xs ys left right _ _ _ key present
    obtain same | ⟨text, same⟩ | same | same | same := left <;> cases same
    obtain same | ⟨text, same⟩ | same | same | same := right <;> cases same
    exact present

/-- A dictionary whose only key is mapped to `NULL` equals any other one with one
key, but not the other way round; an array of the two is refused in one order. -/
theorem null_equals_missing :
    let left := Val.dict 1 [(lit "a", .null)]
    let right := Val.dict 2 [(lit "b", .str (lit "x"))]
    valsEqual plainLib left right = true ∧ valsEqual plainLib right left = false ∧
      ¬ Same left right ∧ findDuplicate plainLib 0 [left, right] = some (0, 1) ∧
      findDuplicate plainLib 0 [right, left] = none := by
  refine ⟨by decide +kernel, by decide +kernel, ?_, by decide +kernel, by decide +kernel⟩
  intro same
  cases same with
  | dict keys _ =>
    have differ := keys (lit "a")
    revert differ
    decide +kernel

end Libgoc.Schema
