import Libgoc.Schema.Equality
import Libgoc.Schema.Mirror
import Libgoc.Schema.Subtype
import Libgoc.GocArray.Refinement

namespace Libgoc.Schema

open Libgoc.Semantics General

/-! # Contents and representation -/

/-- The same boxes and strings, in arrays and dictionaries of the same shape. -/
inductive SameContents : Val → Val → Prop
  | null : SameContents .null .null
  | boxed {addr : Nat} {box : Box} : SameContents (.boxed addr box) (.boxed addr box)
  | str {text : Text} : SameContents (.str text) (.str text)
  | arr {a b : Nat} {rep other : ArrRep} {xs ys : List Val} : xs.length = ys.length →
      (∀ (i : Nat) x y, xs[i]? = some x → ys[i]? = some y → SameContents x y) →
      SameContents (.arr a rep xs) (.arr b other ys)
  | dict {a b : Nat} {xs ys : List (Text × Val)} : xs.map Prod.fst = ys.map Prod.fst →
      (∀ (i : Nat) x y, xs[i]? = some x → ys[i]? = some y → SameContents x.2 y.2) →
      SameContents (.dict a xs) (.dict b ys)

theorem SameContents.refl (val : Val) : SameContents val val := by
  induction val using Val.induct with
  | null => exact .null
  | boxed addr box => exact .boxed
  | str text => exact .str
  | arr addr rep elems ih =>
    apply SameContents.arr rfl
    intro i x y left right
    obtain rfl := Option.some.inj (left.symm.trans right)
    exact ih x (List.mem_of_getElem? left)
  | dict addr entries ih =>
    apply SameContents.dict rfl
    intro i x y left right
    obtain rfl := Option.some.inj (left.symm.trans right)
    exact ih x (List.mem_of_getElem? left)

theorem SameContents.symm {a b : Val} (same : SameContents a b) : SameContents b a := by
  induction same with
  | null => exact .null
  | boxed => exact .boxed
  | str => exact .str
  | arr lengths _ ih => exact .arr lengths.symm fun i x y left right => ih i y x right left
  | dict keys _ ih => exact .dict keys.symm fun i x y left right => ih i y x right left

theorem key_eq_of_getElem? {xs ys : List (Text × Val)} (keys : xs.map Prod.fst = ys.map Prod.fst)
    {i : Nat} {x y : Text × Val} (left : xs[i]? = some x) (right : ys[i]? = some y) :
    x.1 = y.1 := by
  have same := congrArg (·[i]?) keys
  simpa [left, right] using same

/-- Arrays of the region with the same contents are both recognised, or taken for
the same string. -/
def Region.Uniform (region : Region) : Prop :=
  ∀ a b rep other xs ys, region.holds (.arr a rep xs) → region.holds (.arr b other ys) →
    SameContents (.arr a rep xs) (.arr b other ys) →
    rep.recognised xs.length = other.recognised ys.length ∧
      (rep.recognised xs.length = false → rep.raw = other.raw)

theorem uniform_of_recognised {region : Region} (recognised : region.Recognised) :
    region.Uniform := by
  intro a b rep other xs ys left right _
  have first := recognised _ _ _ left
  exact ⟨first.trans (recognised _ _ _ right).symm, fun unrecognised => by simp_all⟩

def Region.Like (region : Region) (a b : Val) : Prop :=
  region.holds a ∧ region.holds b ∧ SameContents a b

section

variable {region : Region} {lib : CLib}

theorem forall₂_of_getElem? {α β : Type} {related : α → β → Prop} {xs : List α} {ys : List β}
    (lengths : xs.length = ys.length)
    (each : ∀ (i : Nat) x y, xs[i]? = some x → ys[i]? = some y → related x y) :
    List.Forall₂ related xs ys := by
  apply List.forall₂_iff_get.mpr
  refine ⟨lengths, fun i left right => ?_⟩
  exact each i _ _ (List.getElem?_eq_getElem left) (List.getElem?_eq_getElem right)

theorem like_alike (uniform : region.Uniform) {a b : Val} (like : region.Like a b) :
    Alike region.Like a b := by
  obtain ⟨left, right, same⟩ := like
  cases same with
  | null | boxed | str =>
    exact {
      boxed := .inl rfl
      null := rfl
      string := rfl
      bytes := fun _ => rfl
      array := rfl
      elements := fun array => by cases array
      dict := rfl
      entries := .nil }
  | arr lengths each =>
    obtain ⟨recognised, raw⟩ := uniform _ _ _ _ _ _ left right (.arr lengths each)
    have string : ∀ addr rep (elems : List Val),
        isString (.arr addr rep elems) = !rep.recognised elems.length := by
      intro addr rep elems
      simp [isString, isBoxed, isGocArray, isGocDict]
    constructor
    · exact .inr ⟨rfl, rfl⟩
    · rfl
    · rw [string, string, recognised]
    · intro isStr
      rw [string] at isStr
      exact raw (by simpa using isStr)
    · exact recognised
    · intro _
      apply forall₂_of_getElem? lengths
      intro i x y first second
      exact ⟨region.element _ left x (List.mem_of_getElem? first),
        region.element _ right y (List.mem_of_getElem? second), each i x y first second⟩
    · rfl
    · exact .nil
  | @dict _ _ xs ys keys each =>
    have lengths : xs.length = ys.length := by simpa using congrArg List.length keys
    constructor
    · exact .inr ⟨rfl, rfl⟩
    · rfl
    · rfl
    · intro isStr
      cases isStr
    · rfl
    · intro array
      cases array
    · rfl
    · apply forall₂_of_getElem? lengths
      intro i x y first second
      exact ⟨key_eq_of_getElem? keys first second,
        region.entry _ left x (List.mem_of_getElem? first),
        region.entry _ right y (List.mem_of_getElem? second), each i x y first second⟩

theorem valsEqual_refl (val : Val) : valsEqual lib val val = true := by
  cases val with
  | str text => simp [valsEqual, isString, isBoxed, isGocArray, isGocDict, stringBytes]
  | _ => simp [valsEqual, sameAddress]

/-- The address aside, equal arrays are equal element by element, or as strings. -/
theorem valsEqual_arr {addr : Nat} {rep : ArrRep} {xs : List Val} {c : Val}
    (left : region.holds (.arr addr rep xs)) (right : region.holds c)
    (equal : valsEqual lib (.arr addr rep xs) c = true) :
    if rep.recognised xs.length then
      isGocArray c = true ∧ xs.length = (elements c).length ∧ elemsEqual lib xs (elements c) = true
    else isString c = true ∧ stringBytes c = rep.raw := by
  rw [valsEqual, Bool.or_eq_true] at equal
  obtain address | test := equal
  · obtain rfl := region.one _ _ left right address
    split
    next recognised =>
      refine ⟨recognised, rfl, elemsEqual_iff.mpr fun i x y first second => ?_⟩
      obtain rfl := Option.some.inj (first.symm.trans second)
      exact valsEqual_refl x
    next other => exact ⟨by simp [isString, isBoxed, isGocArray, isGocDict, other], rfl⟩
  · split at test
    next recognised =>
      simp only [Bool.and_eq_true, decide_eq_true_eq] at test
      rw [if_pos recognised]
      exact ⟨test.1.1, test.1.2, test.2⟩
    next other =>
      simp only [Bool.and_eq_true, decide_eq_true_eq] at test
      rw [if_neg other]
      exact test

theorem valsEqual_dict {addr : Nat} {xs : List (Text × Val)} {c : Val}
    (left : region.holds (.dict addr xs)) (right : region.holds c)
    (equal : valsEqual lib (.dict addr xs) c = true) :
    isGocDict c = true ∧ xs.length = (dictEntries c).length ∧
      entriesEqual lib xs (dictEntries c) = true := by
  rw [valsEqual, Bool.or_eq_true] at equal
  obtain address | test := equal
  · obtain rfl := region.one _ _ left right address
    refine ⟨rfl, rfl, entriesEqual_iff.mpr fun entry member => ?_⟩
    show valsEqual lib entry.2 (dictGet xs entry.1) = true
    rw [Region.dictGet_eq left member]
    exact valsEqual_refl entry.2
  · simp only [Bool.and_eq_true, decide_eq_true_eq] at test
    exact ⟨test.1.1, test.1.2, test.2⟩

/-- Equal values stay equal when both are exchanged for values with the same
contents. -/
theorem valsEqual_like (uniform : region.Uniform) {a b c d : Val} (left : region.Like a b)
    (right : region.Like c d) (equal : valsEqual lib a c = true) : valsEqual lib b d = true := by
  obtain ⟨heldA, heldB, same⟩ := left
  have alike := like_alike uniform right
  obtain ⟨heldC, heldD, other⟩ := right
  induction same generalizing c d with
  | null =>
    cases other with
    | null => rfl
    | _ => cases equal
  | boxed =>
    cases other with
    | boxed => exact equal
    | _ => cases equal
  | str =>
    rw [valsEqual, Bool.and_eq_true, decide_eq_true_eq] at equal ⊢
    exact ⟨alike.string ▸ equal.1, alike.bytes equal.1 ▸ equal.2⟩
  | @arr _ _ rep rep' xs ys lengths each ih =>
    obtain ⟨recognised, raw⟩ := uniform _ _ _ _ _ _ heldA heldB (.arr lengths each)
    have test := valsEqual_arr heldA heldC equal
    rw [valsEqual, Bool.or_eq_true]
    right
    rw [← recognised]
    split at test
    next array =>
      obtain ⟨isArray, sizes, elems⟩ := test
      have related := alike.elements isArray
      rw [if_pos array, ← alike.array, isArray, Bool.true_and, Bool.and_eq_true,
        decide_eq_true_eq]
      refine ⟨by rw [← lengths, sizes, related.length_eq], elemsEqual_iff.mpr ?_⟩
      intro i y w second fourth
      have boundY := (List.getElem?_eq_some_iff.mp second).1
      have boundX : i < xs.length := lengths ▸ boundY
      have boundZ : i < (elements c).length := sizes ▸ boundX
      have first : xs[i]? = some xs[i] := List.getElem?_eq_getElem boundX
      have third : (elements c)[i]? = some (elements c)[i] := List.getElem?_eq_getElem boundZ
      obtain ⟨boundW, rfl⟩ := List.getElem?_eq_some_iff.mp fourth
      have like : region.Like (elements c)[i] (elements d)[i] := related.get boundZ boundW
      exact ih i xs[i] y first second (elemsEqual_iff.mp elems i _ _ first third)
        (region.element _ heldA _ (List.getElem_mem boundX))
        (region.element _ heldB y (List.mem_of_getElem? second))
        (like_alike uniform like) like.1 like.2.1 like.2.2
    next string =>
      rw [if_neg string, Bool.and_eq_true, decide_eq_true_eq, ← alike.string,
        ← alike.bytes test.1, ← raw (by simpa using string)]
      exact test
  | @dict _ _ xs ys keys _ ih =>
    have lengths : xs.length = ys.length := by simpa using congrArg List.length keys
    obtain ⟨isDict, sizes, entries⟩ := valsEqual_dict heldA heldC equal
    have related := alike.entries
    rw [valsEqual, Bool.or_eq_true]
    right
    rw [← alike.dict, isDict, Bool.true_and, Bool.and_eq_true, decide_eq_true_eq]
    refine ⟨by rw [← lengths, sizes, related.length_eq], entriesEqual_iff.mpr ?_⟩
    intro entry member
    obtain ⟨i, second⟩ := List.mem_iff_getElem?.mp member
    have boundX : i < xs.length := lengths ▸ (List.getElem?_eq_some_iff.mp second).1
    have first : xs[i]? = some xs[i] := List.getElem?_eq_getElem boundX
    have key := key_eq_of_getElem? keys first second
    have present : xs[i] ∈ xs := List.getElem_mem boundX
    have like : region.Like (dictGet (dictEntries c) entry.1) (dictGet (dictEntries d) entry.1) :=
      dictGet_like related ⟨region.null, region.null, .null⟩ entry.1
    have value := entriesEqual_iff.mp entries xs[i] present
    rw [key] at value
    exact ih i xs[i] entry first second value (region.entry _ heldA _ present)
      (region.entry _ heldB entry member) (like_alike uniform like) like.1 like.2.1 like.2.2

/-- The predicates of a store go by the contents of a value. -/
def ByContents (store : Store) : Prop :=
  ∀ schema fn name, (store.node schema).kind = .scalar (.predicate fn name) →
    ∀ a b, SameContents a b → fn a = fn b

theorem like_interchangeable (uniform : region.Uniform) {store : Store}
    (predicates : ByContents store) : Interchangeable lib store region.Like where
  null := ⟨region.null, region.null, .null⟩
  str text := ⟨region.str text, region.str text, .str⟩
  alike _ _ like := like_alike uniform like
  equal a b c d left right := by
    rw [Bool.eq_iff_iff]
    constructor
    · exact valsEqual_like uniform left right
    · exact valsEqual_like uniform ⟨left.2.1, left.1, left.2.2.symm⟩
        ⟨right.2.1, right.1, right.2.2.symm⟩
  predicate schema fn name ofKind a b like := predicates schema fn name ofKind a b like.2.2

/-- Validation comes to the same verdict on two values, or to none on both. -/
def Agrees (lib : CLib) (store : Store) (schema : SchemaId) (a b : Val) : Prop :=
  ∀ found, Returns (validateImpl lib store) (rootCall schema a) found →
    ∃ other, Returns (validateImpl lib store) (rootCall schema b) other ∧ SameVerdict found other

theorem Agrees.isValid {store : Store} {schema : SchemaId} {a b : Val}
    (agrees : Agrees lib store schema a b) (valid : IsValid lib store schema a) :
    IsValid lib store schema b := by
  obtain ⟨found, returned, verdict⟩ := agrees none valid
  cases found with
  | none => exact returned
  | some err => cases verdict

theorem like_agrees (uniform : region.Uniform) {store : Store} (predicates : ByContents store)
    {schema : SchemaId} {a b : Val} (like : region.Like a b) : Agrees lib store schema a b := by
  intro found returned
  exact ⟨found, returns_like (like_interchangeable uniform predicates) returned like, rfl⟩

theorem initial_kind (schema : SchemaId) : (initialStore.node schema).kind = singletonKind schema :=
  links_kind builtinEdges schema

theorem singletonKind_not_predicate {schema : SchemaId} {fn : Val → Bool} {name : Option Text} :
    singletonKind schema ≠ .scalar (.predicate fn name) := by
  unfold singletonKind
  split <;> exact nofun

theorem initial_byContents : ByContents initialStore := by
  intro schema fn name ofKind
  rw [initial_kind] at ofKind
  exact absurd ofKind singletonKind_not_predicate

/-- The schema of all arrays refuses an array that is not recognised. -/
theorem schemaArr_refuses {addr : Nat} {rep : ArrRep} {elems : List Val}
    (other : rep.recognised elems.length = false) : ∃ err, Returns (validateImpl lib initialStore)
      (rootCall schemaArr (.arr addr rep elems)) (some err) := by
  have name : typeName (.arr addr rep elems) = lit "str" := by
    simp [typeName, isGocArray, isGocDict, isBoxedBool, isBoxedByte, isBoxedUbyte, isBoxedUint,
      isBoxedInt, isBoxedComplex, isBoxedReal, isString, isBoxed, other]
  have short : gocSprintf (expectedGot (lit "array") (lit "str")) ≠ none := by decide +kernel
  have list : checks lib initialStore schemaArr (.arr addr rep elems) =
      [.test (some (expectedGot (lit "array") (lit "str")))] := by
    simp [checks, Node.checkedParent, initial_kind, singletonKind, schemaArr, isBaseKind, kindChecks,
      onArray, isGocArray, other, name]
  refine ⟨.error [] (expectedGot (lit "array") (lit "str")), returns_iff.mpr ?_⟩
  rw [validateImpl_checks rfl, rootCall, list, firstError_singleton]
  exact gives_printed.mpr ⟨short, .ret⟩

theorem schemaArr_accepts {val : Val} {reply : Option Err} (array : isGocArray val = true)
    (returned : Returns (validateImpl lib initialStore) (rootCall schemaArr val) reply) :
    reply = none := by
  obtain ⟨found, judges, rfl⟩ := returns_judged returned
  have accepts : Accepts lib initialStore (some schemaArr) val := by
    rw [accepts_iff, initial_kind]
    refine ⟨nofun, (forall_onArray (by simp)).mpr ⟨array, ?_⟩⟩
    simp only [elemChecks, List.forall_mem_map, finds_part_none]
    intro item _
    exact (returns_none_iff.mp (initial_constructed.any_accepts item.1 [])).1
  rw [judges.unique accepts]
  rfl

/-- The schema for one string tells what a value reads as. -/
theorem strConst_accepts_iff {store : Store} {text : Text} {val : Val}
    (made : Made initialStore store (.scalar (.strConst text)) (some schemaStr)) :
    IsValid lib store initialStore.size val ↔ isString val = true ∧ stringBytes val = text := by
  have string : (store.node schemaStr).kind = .base .str := by
    rw [made.old schemaStr (by decide), initial_kind]
    rfl
  have parent : ParentAccepts lib store initialStore.size val ↔ isString val = true := by
    simp only [ParentAccepts, Node.checkedParent, made.new, isBaseKind, Bool.false_eq_true,
      if_false, Option.some.injEq, forall_eq']
    rw [isValid_base string]
    simp [valueSatisfiesBase]
  rw [isValid_iff, parent, KindAccepts, made.new]
  apply and_congr_right
  intro isStr
  simp only [kindChecks, List.forall_mem_singleton, gives_own_none, checkScalar, expecting, isStr,
    if_true, require]
  by_cases reads : stringBytes val = text <;> simp [reads]

theorem strConst_byContents {store : Store} {text : Text}
    (made : Made initialStore store (.scalar (.strConst text)) (some schemaStr)) :
    ByContents store := by
  intro schema fn name ofKind
  by_cases new : schema = initialStore.size
  · simp [new, made.new] at ofKind
  · rw [made.old schema new] at ofKind
    exact initial_byContents schema fn name ofKind

/-- Verdicts that go by contents force arrays with the same contents to be
classified alike. -/
theorem uniform_of_agrees (agree : ∀ store, (system lib).Reachable store → ByContents store →
      ∀ schema a b, region.Like a b → Agrees lib store schema a b) : region.Uniform := by
  intro a b rep other xs ys left right same
  have like : region.Like (.arr a rep xs) (.arr b other ys) := ⟨left, right, same⟩
  have back : region.Like (.arr b other ys) (.arr a rep xs) := ⟨right, left, same.symm⟩
  have initial : (system lib).Reachable initialStore := ⟨initialStore, rfl, .refl⟩
  have refused {a b : Nat} {rep other : ArrRep} {xs ys : List Val}
      (like : region.Like (.arr a rep xs) (.arr b other ys))
      (unknown : rep.recognised xs.length = false) : other.recognised ys.length = false := by
    obtain ⟨err, returned⟩ := schemaArr_refuses unknown
    obtain ⟨reply, again, verdict⟩ := agree _ initial initial_byContents schemaArr _ _ like _ returned
    by_contra array
    rw [schemaArr_accepts (by simpa [isGocArray] using array) again] at verdict
    cases verdict
  have arrays : rep.recognised xs.length = false ↔ other.recognised ys.length = false :=
    ⟨refused like, refused back⟩
  refine ⟨Bool.eq_iff_iff.mpr (by simpa using not_congr arrays), fun unrecognised => ?_⟩
  obtain ⟨store, stepped⟩ : ∃ store, (system lib).step initialStore (.strConst rep.raw) =
      some store := ⟨_, rfl⟩
  have constructed : (construct initialStore (.scalar (.strConst rep.raw)) (some schemaStr)).map
      Prod.fst = some store := stepped
  have made := construct_made constructed
  have reachable : (system lib).Reachable store :=
    ⟨initialStore, rfl, .step .refl trivial stepped⟩
  have agrees := agree store reachable (strConst_byContents made) initialStore.size _ _ like
  have valid : IsValid lib store initialStore.size (.arr a rep xs) := by
    rw [strConst_accepts_iff made]
    exact ⟨by simp [isString, isBoxed, isGocArray, isGocDict, unrecognised], rfl⟩
  exact ((strConst_accepts_iff made).mp (agrees.isValid valid)).2.symm

end

open GocArray (Header ArrId Creates Allots gocArrayCopy gocArrayFrom gocArraySlice gocArrayConcat
  gocArrayMake placeItems)

/-- Memory is zeroed. -/
instance : Inhabited Val := ⟨.null⟩

/-- An array that was made by the constructors, as a value. -/
def arrVal (state : GocArray.State Val) (addr : Nat) (raw : Text) (header : Header) : Val :=
  .arr addr ⟨header.cap, header.head, true, raw⟩ (state.contents header)

/-- The call makes an array with these items, which is recognised under the
condition. -/
def Yields (result : Except GocArray.Fault (GocArray.State Val × ArrId)) (items : List Val)
    (condition : Prop) : Prop :=
  ∃ after arr header, result = .ok (after, arr) ∧ after.arrays arr = some header ∧
    after.contents header = items ∧
    ∀ addr raw, isGocArray (arrVal after addr raw header) = true ↔ condition

section

variable {state after : GocArray.State Val} {header : Header} {arr : ArrId}

/-- In memory that is laid out soundly, the classifier goes by the capacity. -/
theorem arrVal_recognised_iff (fits : header.Fits state)
    (bounded : ∀ buf, (state.buffers buf).size < 2 ^ 61) {addr : Nat} {raw : Text} :
    isGocArray (arrVal state addr raw header) = true ↔ 8 ≤ header.cap := by
  have live := fits.live
  have small := Nat.lt_of_le_of_lt fits.sized (bounded header.data)
  have length : (state.contents header).length = header.len := by
    simp [GocArray.State.contents]
  have whole : Data.sizeT (header.head + header.len) = header.head + header.len :=
    Data.sizeT_of_lt (by omega)
  simp only [isGocArray, arrVal, ArrRep.recognised, length, whole, Bool.true_and, Bool.and_eq_true,
    decide_eq_true_eq]
  omega

/-- The capacity of the new array decides. -/
theorem yields_of_creates {made : GocArray.State Val × ArrId} {items : List Val} {cap : Nat}
    {condition : Prop} (creates : Creates state items made.1) (allots : Allots state made cap)
    (decides : 8 ≤ cap ↔ condition) : Yields (.ok made) items condition := by
  obtain ⟨after, arr⟩ := made
  obtain ⟨new, arrays, _, fits, contents, frame⟩ := creates
  obtain ⟨named, header, found, capacity⟩ := allots
  obtain rfl : new = header := by
    rw [arrays, Function.update_self] at found
    exact Option.some.inj found
  subst named
  refine ⟨after, state.freshArr, new, rfl, found, contents, fun addr raw => ?_⟩
  rw [arrVal_recognised_iff fits frame.bounded, capacity, decides]

/-- How the constructors' results are classified. -/
structure Classified (state : GocArray.State Val) : Prop where
  copy : ∀ arr header, state.arrays arr = some header →
    Yields (gocArrayCopy state header) (state.contents header) (header.len = 0 ∨ 8 ≤ header.len)
  items : ∀ items : List Val, items.length * 8 < 2 ^ 64 →
    Yields (.ok (gocArrayFrom (placeItems state items).1 (placeItems state items).2 items.length))
      items (8 ≤ items.length)
  slice : ∀ arr header start stop, state.arrays arr = some header → start ≤ stop →
    stop ≤ header.len → Yields (gocArraySlice state header start stop)
      (((state.contents header).take stop).drop start) (8 ≤ header.cap)
  concat : ∀ a b first second, state.arrays a = some first → state.arrays b = some second →
    first.len + second.len < 7 →
    Yields (gocArrayConcat state first second) (state.contents first ++ state.contents second) True

theorem classified_of_sound (sound : GocArray.Sound state) : Classified state where
  copy arr header found := by
    obtain ⟨made, copied, creates⟩ := GocArray.gocArrayCopy_creates sound found
    rw [copied]
    apply yields_of_creates creates (GocArray.gocArrayCopy_allots copied)
    unfold GocArray.arrayInitCap
    split <;> omega
  items items bound := by
    apply yields_of_creates (GocArray.gocArrayFrom_creates sound bound)
    · exact GocArray.newHeader_allots rfl
    · rfl
  slice arr header start stop found ordered within := by
    obtain ⟨made, sliced, creates⟩ := GocArray.gocArraySlice_creates sound found ordered within
    rw [sliced]
    apply yields_of_creates creates _ Iff.rfl
    rw [gocArraySlice, if_neg (by omega)] at sliced
    cases sliced
    exact GocArray.newHeader_allots rfl
  concat a b first second left right few := by
    obtain ⟨made, joined, creates⟩ := GocArray.gocArrayConcat_creates sound left right few
    rw [joined]
    apply yields_of_creates creates (GocArray.gocArrayConcat_allots joined _)
    · exact iff_of_true (Nat.le_refl _) trivial
    · rw [Data.sizeT_of_lt (by omega), GocArray.arrayInitCap]
      omega

end

/-- Whether a value passes depends on its contents alone exactly where arrays with
the same contents are classified alike; copies, slices and other new arrays are
recognised or not by their capacity. -/
theorem validation_by_contents_iff (lib : CLib) (region : Region) :
    ((∀ store, (system lib).Reachable store → ByContents store →
      ∀ schema a b, region.Like a b → Agrees lib store schema a b) ↔ region.Uniform) ∧
    (region.Recognised → region.Uniform) ∧
    ∀ state, GocArray.Sound state → Classified state := by
  refine ⟨⟨uniform_of_agrees, fun uniform store _ predicates schema a b like => ?_⟩,
    uniform_of_recognised, fun state => classified_of_sound⟩
  exact like_agrees uniform predicates like

/-- An array with one string, and its copy. -/
def copyRun : List (GocArray.Label Val) :=
  [.make 0, .op 0 (.push (.str (lit "x"))), .copy 0]

/-- The copy is taken for a string, so it is not an array any more. -/
theorem copy_refused : ∃ state first second,
    GocArray.system.run GocArray.initialState copyRun = some state ∧
    state.arrays 0 = some first ∧ state.arrays 1 = some second ∧
    state.contents first = state.contents second ∧
    ∀ raw raw', SameContents (arrVal state 1 raw first) (arrVal state 2 raw' second) ∧
      IsValid plainLib initialStore schemaArr (arrVal state 1 raw first) ∧
      ¬ IsValid plainLib initialStore schemaArr (arrVal state 2 raw' second) := by
  refine ⟨_, _, _, rfl, rfl, rfl, rfl, fun raw raw' => ⟨?_, ?_, ?_⟩⟩
  · apply SameContents.arr rfl
    intro i x y left right
    obtain rfl := Option.some.inj (left.symm.trans right)
    exact SameContents.refl x
  · refine initial_constructed.arr_accepts rfl fun i bound => ?_
    obtain rfl : i = 0 := Nat.lt_one_iff.mp bound
    decide +kernel
  · intro valid
    rw [isValid_iff, kindAccepts_arr (initial_kind schemaArr)] at valid
    exact absurd valid.2.1 nofun

end Libgoc.Schema
