import Libgoc.Schema.Meaning

namespace Libgoc.Schema

open Libgoc.Semantics General

/-! # Values that validation does not tell apart -/

/-- The tests on one value, and on its parts, have the same results. -/
structure Alike (like : Val → Val → Prop) (a b : Val) : Prop where
  boxed : a = b ∨ isBoxed a = false ∧ isBoxed b = false
  null : isNull a = isNull b
  string : isString a = isString b
  bytes : isString a = true → stringBytes a = stringBytes b
  array : isGocArray a = isGocArray b
  elements : isGocArray a = true → List.Forall₂ like (elements a) (elements b)
  dict : isGocDict a = isGocDict b
  entries : List.Forall₂ (fun entry other => entry.1 = other.1 ∧ like entry.2 other.2)
    (dictEntries a) (dictEntries b)

/-- A relation between values that validation against the schemas of a store
respects. -/
structure Interchangeable (lib : CLib) (store : Store) (like : Val → Val → Prop) : Prop where
  null : like .null .null
  str : ∀ text, like (.str text) (.str text)
  alike : ∀ a b, like a b → Alike like a b
  equal : ∀ a b c d, like a b → like c d → valsEqual lib a c = valsEqual lib b d
  predicate : ∀ schema fn name, (store.node schema).kind = .scalar (.predicate fn name) →
    ∀ a b, like a b → fn a = fn b

/-- Checks that differ in values that are alike. -/
inductive Check.Like (like : Val → Val → Prop) : Check → Check → Prop where
  | own : Like like (.own place result) (.own place result)
  | part (same : like a b) : Like like (.part place schema a) (.part place schema b)
  | name : Like like (.name names key) (.name names key)
  | count (same : List.Forall₂ (fun part other => part.1 = other.1 ∧ like part.2 other.2) parts
      others) : Like like (.count parts message) (.count others message)
  | branch {cond : Option SchemaId} (same : like a b) :
      Like like (.branch cond thenSchema elseSchema a) (.branch cond thenSchema elseSchema b)

section

variable {lib : CLib} {store : Store} {like : Val → Val → Prop} {call other : Call}
  {answers answers' : Call → Option Err → Prop}

section

variable {a : Val} (unboxed : isBoxed a = false)
include unboxed

theorem schemaForTag_of_not_boxed :
    schemaForTag a = none := by
  cases a with
  | boxed addr box => cases unboxed
  | _ => rfl

theorem isBoxedBool_of_not_boxed :
    isBoxedBool a = false := by
  cases a with
  | boxed addr box => cases unboxed
  | _ => rfl

theorem isBoxedInt_of_not_boxed : isBoxedInt a = false := by
  cases a with
  | boxed addr box => cases unboxed
  | _ => rfl

theorem isBoxedReal_of_not_boxed :
    isBoxedReal a = false := by
  cases a with
  | boxed addr box => cases unboxed
  | _ => rfl

theorem typeName_of_not_boxed :
    typeName a = if isNull a then lit "null" else if isGocArray a then lit "array"
      else if isGocDict a then lit "object" else if isString a then lit "str"
      else lit "unknown" := by
  cases a with
  | boxed addr box => cases unboxed
  | _ => rfl

end

theorem Alike.typeName {a b : Val} (alike : Alike like a b) : typeName a = typeName b := by
  obtain rfl | ⟨left, right⟩ := alike.boxed
  · rfl
  · rw [typeName_of_not_boxed left, typeName_of_not_boxed right, alike.null, alike.array, alike.dict,
      alike.string]

theorem checkBase_congr {schema : SchemaId} {base : Base} {a b : Val} (alike : Alike like a b) :
    checkBase store schema base a = checkBase store schema base b := by
  obtain rfl | ⟨left, right⟩ := alike.boxed
  · rfl
  · cases base <;>
      simp only [checkBase, valueSatisfiesBase, alike.null, alike.string, alike.typeName,
        isBoxedBool_of_not_boxed left, isBoxedBool_of_not_boxed right,
        schemaForTag_of_not_boxed left, schemaForTag_of_not_boxed right]

/-- Where neither value is a box, only strings and predicates can pass. -/
theorem checkScalar_congr {check : Scalar} {a b : Val} (alike : Alike like a b)
    (predicate : ∀ fn name, check = .predicate fn name → fn a = fn b) :
    checkScalar lib check a = checkScalar lib check b := by
  obtain rfl | ⟨left, right⟩ := alike.boxed
  · rfl
  cases check with
  | predicate fn name => simp only [checkScalar, predicate fn name rfl]
  | strFormat regex =>
    cases regex <;> cases string : isString a <;>
      simp [checkScalar, expecting, ← alike.string, string, ← alike.bytes, alike.typeName]
  | strConst | strMinLen | strMaxLen | strLen | strPattern | strEnum =>
    cases string : isString a <;>
      simp [checkScalar, expecting, ← alike.string, string, ← alike.bytes, alike.typeName]
  | _ =>
    simp only [checkScalar, expecting, isBoxedBool_of_not_boxed left,
      isBoxedBool_of_not_boxed right, isBoxedInt_of_not_boxed left,
      isBoxedInt_of_not_boxed right, isBoxedReal_of_not_boxed left,
      isBoxedReal_of_not_boxed right, alike.typeName]
    rfl

theorem forall₂_zipIdx {xs ys : List Val} (related : List.Forall₂ like xs ys) (start : Nat) :
    List.Forall₂ (fun item item' => like item.1 item'.1 ∧ item.2 = item'.2) (xs.zipIdx start)
      (ys.zipIdx start) := by
  induction related generalizing start with
  | nil => exact .nil
  | cons first _ ih => exact .cons ⟨first, rfl⟩ (ih (start + 1))

theorem forall₂_getElem? {xs ys : List Val} (related : List.Forall₂ like xs ys) (i : Nat) :
    (xs[i]? = none ∧ ys[i]? = none) ∨ ∃ x y, xs[i]? = some x ∧ ys[i]? = some y ∧ like x y := by
  induction related generalizing i with
  | nil => exact .inl ⟨rfl, rfl⟩
  | cons first _ ih =>
    cases i with
    | zero => exact .inr ⟨_, _, rfl, rfl, first⟩
    | succ i => simpa using ih i

theorem findEqual_congr (interchangeable : Interchangeable lib store like) {a b : Val}
    {xs ys : List Val} {j : Nat} (same : like a b) (related : List.Forall₂ like xs ys) :
    findEqual lib a j xs = findEqual lib b j ys := by
  induction related generalizing j with
  | nil => rfl
  | cons first _ ih =>
    simp only [findEqual, interchangeable.equal _ _ _ _ same first, ih]

theorem findDuplicate_congr (interchangeable : Interchangeable lib store like) {xs ys : List Val}
    {i : Nat} (related : List.Forall₂ like xs ys) :
    findDuplicate lib i xs = findDuplicate lib i ys := by
  induction related generalizing i with
  | nil => rfl
  | cons first rest ih =>
    simp only [findDuplicate, findEqual_congr interchangeable first rest, ih]

section

variable {entries entries' : List (Text × Val)}
  (related : List.Forall₂ (fun entry other => entry.1 = other.1 ∧ like entry.2 other.2) entries
    entries')
include related

theorem keys_congr : entries.map Prod.fst = entries'.map Prod.fst := by
  induction related with
  | nil => rfl
  | cons first _ ih => simp [first.1, ih]

theorem dictGet_like (null : like .null .null) (key : Text) :
    like (dictGet entries key) (dictGet entries' key) := by
  unfold dictGet
  induction related with
  | nil => exact null
  | @cons entry other _ _ first _ ih =>
    simp only [List.find?_cons, first.1]
    cases decide (other.1 = key) with
    | true => exact first.2
    | false => exact ih

theorem dictContains_congr (key : Text) : dictContains entries key = dictContains entries' key := by
  unfold dictContains
  induction related with
  | nil => rfl
  | cons first _ ih => simp only [List.any_cons, first.1, ih]

end

theorem map_like {ι : Type} {list : List ι} {first second : ι → Check}
    (each : ∀ item, (first item).Like like (second item)) :
    List.Forall₂ (Check.Like like) (list.map first) (list.map second) := by
  rw [List.forall₂_map_left_iff, List.forall₂_map_right_iff]
  exact List.forall₂_same.mpr fun item _ => each item

theorem flatMap_like {ι : Type} {list : List ι} {first second : ι → List Check}
    (each : ∀ item, List.Forall₂ (Check.Like like) (first item) (second item)) :
    List.Forall₂ (Check.Like like) (list.flatMap first) (list.flatMap second) := by
  induction list with
  | nil => exact .nil
  | cons item list ih => exact List.rel_append (each item) ih

theorem onArray_like {a b : Val} {list list' : List Val → List Check} (alike : Alike like a b)
    (rest : List.Forall₂ like (elements a) (elements b) →
      List.Forall₂ (Check.Like like) (list (elements a)) (list' (elements b))) :
    List.Forall₂ (Check.Like like) (onArray a list) (onArray b list') := by
  unfold onArray
  rw [← alike.array, alike.typeName]
  split
  next array => exact rest (alike.elements array)
  next => exact .cons .own .nil

theorem elems_like {elem : Option SchemaId} {start : Nat} {xs ys : List Val}
    (related : List.Forall₂ like xs ys) :
    List.Forall₂ (Check.Like like) (elemChecks elem start xs) (elemChecks elem start ys) := by
  unfold elemChecks
  rw [List.forall₂_map_left_iff, List.forall₂_map_right_iff]
  apply (forall₂_zipIdx related start).imp
  rintro ⟨x, i⟩ ⟨y, j⟩ ⟨same, rfl⟩
  exact .part same

theorem object_like {fields : List Field} {opts : DictOpts} {a b : Val}
    (interchangeable : Interchangeable lib store like) (same : like a b) :
    List.Forall₂ (Check.Like like) (objectChecks lib a fields opts)
      (objectChecks lib b fields opts) := by
  have alike := interchangeable.alike _ _ same
  have keys := keys_congr alike.entries
  have contains := dictContains_congr alike.entries
  have value (key : Text) := dictGet_like alike.entries interchangeable.null key
  unfold objectChecks
  rw [← alike.dict, alike.typeName]
  split
  · simp only [keys]
    refine List.rel_append (List.rel_append (List.rel_append (List.rel_append (List.rel_append
      (.cons .own .nil) ?_) ?_) ?_) ?_) ?_
    · apply flatMap_like
      intro key
      apply List.rel_append
      · exact map_like fun _ => .name
      · apply map_like
        intro prop
        match prop with
        | none => exact .own
        | some ⟨none, _⟩ => exact .own
        | some ⟨some regex, schema⟩ =>
          rw [patternCheck, patternCheck]
          split
          · exact .part (value key)
          · exact .own
    · apply map_like
      intro field
      have null := (interchangeable.alike _ _ (value field.key)).null
      have same := value field.key
      unfold fieldCheck
      generalize dictGet (dictEntries a) field.key = x at same null ⊢
      generalize dictGet (dictEntries b) field.key = y at same null ⊢
      cases x <;> cases y <;>
        first | exact .part same | (cases field.optional <;> exact .own) | cases null
    · split
      · apply map_like
        intro key
        unfold strictCheck
        split <;> exact .own
      · exact .nil
    · apply flatMap_like
      intro dep
      unfold depRequiredChecks
      rw [contains]
      split
      · apply map_like
        intro key
        rw [checkRequired, contains]
        exact .own
      · exact .nil
    · apply map_like
      intro dep
      unfold depSchemaCheck
      rw [contains]
      split
      · exact .part same
      · exact .own
  · exact .cons .own .nil

theorem kind_like {schema : SchemaId} {kind : Kind} {a b : Val}
    (interchangeable : Interchangeable lib store like) (same : like a b)
    (ofKind : (store.node schema).kind = kind) :
    List.Forall₂ (Check.Like like) (kindChecks lib store schema a kind)
      (kindChecks lib store schema b kind) := by
  have alike := interchangeable.alike _ _ same
  have counts (parts : List (Option SchemaId)) (message : Nat → Option Text) :
      (Check.count (parts.map (·, a)) message).Like like (.count (parts.map (·, b)) message) := by
    apply Check.Like.count
    rw [List.forall₂_map_left_iff, List.forall₂_map_right_iff]
    exact List.forall₂_same.mpr fun _ _ => ⟨rfl, same⟩
  cases kind with
  | base base =>
    simp only [kindChecks, checkBase_congr alike]
    exact .cons .own .nil
  | scalar check =>
    rw [kindChecks, kindChecks, checkScalar_congr alike]
    · exact .cons .own .nil
    · rintro fn name rfl
      exact interchangeable.predicate schema fn name ofKind _ _ same
  | arr elem => exact onArray_like alike elems_like
  | arrLen elem min max =>
    simp only [kindChecks]
    refine onArray_like alike fun related => ?_
    rw [related.length_eq]
    exact .cons .own (elems_like related)
  | arrUnique elem =>
    simp only [kindChecks, checkUnique]
    refine onArray_like alike fun related => List.rel_append (elems_like related) ?_
    rw [findDuplicate_congr interchangeable related]
    exact .cons .own .nil
  | arrContains elem contains minContains maxContains =>
    simp only [kindChecks]
    refine onArray_like alike fun related => List.rel_append (elems_like related) ?_
    refine .cons (.count ?_) .nil
    rw [List.forall₂_map_left_iff, List.forall₂_map_right_iff]
    exact related.imp fun _ _ same => ⟨rfl, same⟩
  | tuple items additionalItems =>
    simp only [kindChecks]
    refine onArray_like alike fun related => List.rel_append ?_ ?_
    · apply map_like
      intro item
      unfold itemCheck
      obtain ⟨left, right⟩ | ⟨x, y, left, right, same⟩ := forall₂_getElem? related item.2
      · rw [left, right, related.length_eq]
        exact .own
      · rw [left, right]
        exact .part same
    · unfold additionalChecks
      rw [related.length_eq]
      split
      · cases additionalItems with
        | none => exact .cons .own .nil
        | some extra => exact elems_like (List.forall₂_drop _ related)
      · exact .nil
  | obj fields opts => exact object_like interchangeable same
  | ifThenElse cond thenSchema elseSchema => exact .cons (.branch same) .nil
  | anyOf schemas | oneOf schemas => exact .cons (counts schemas _) .nil
  | allOf schemas => exact map_like fun _ => .part same
  | not part => exact .cons (counts [part] _) .nil
  | ref target =>
    cases target with
    | none => exact .cons .own .nil
    | some target => exact .cons (.part same) .nil

section

variable (answered : ∀ schema a b path probe reply, like a b → answers ⟨schema, a, path, probe⟩ reply →
  answers' ⟨schema, b, path, probe⟩ reply)
include answered

theorem probe_like {schema : Option SchemaId} {a b : Val} {pass : Bool} (same : like a b)
    (gives : Gives answers (gocSchemaProbe schema a) pass) :
    Gives answers' (gocSchemaProbe schema b) pass := by
  cases schema with
  | none =>
    cases gives
    exact .ret
  | some schema =>
    obtain ⟨reply, asked, rest⟩ := gives_bind.mp gives
    cases rest
    have again := answered _ _ _ _ _ _ same (gives_call.mp asked)
    exact gives_bind.mpr ⟨reply, gives_call.mpr again, .ret⟩

theorem probes_like {parts others : List (Option SchemaId × Val)} {count : Nat}
    (related : List.Forall₂ (fun part other => part.1 = other.1 ∧ like part.2 other.2) parts others)
    (gives : Gives answers (countMatches (fun part => gocSchemaProbe part.1 part.2) parts) count) :
    Gives answers' (countMatches (fun part => gocSchemaProbe part.1 part.2) others) count := by
  induction related generalizing count with
  | nil =>
    cases gives
    exact .ret
  | cons first _ ih =>
    obtain ⟨pass, probed, rest⟩ := gives_bind.mp gives
    obtain ⟨count, counted, rest⟩ := gives_bind.mp rest
    cases rest
    simp only [first.1] at probed
    exact gives_bind.mpr ⟨pass, probe_like answered first.2 probed,
      gives_bind.mpr ⟨count, ih counted, .ret⟩⟩

theorem Check.Like.gives {check check' : Check} (str : ∀ text, like (.str text) (.str text))
    (path : call.path = other.path) (probe : call.probe = other.probe)
    (related : check.Like like check') (gives : Gives answers (check.enact call) reply) :
    Gives answers' (check'.enact other) reply := by
  cases related with
  | @own place result =>
    obtain ⟨short, rest⟩ := gives_descend.mp gives
    rw [path] at short rest
    refine gives_descend.mpr ⟨short, ?_⟩
    cases result with
    | error fault => cases rest
    | ok message => exact gives_settle.mpr (by simpa only [probe] using gives_settle.mp rest)
  | part same =>
    obtain ⟨short, rest⟩ := gives_descend.mp gives
    rw [path] at short rest
    rw [probe] at rest
    exact gives_descend.mpr ⟨short, gives_call.mpr (answered _ _ _ _ _ _ same (gives_call.mp rest))⟩
  | @name names key =>
    obtain ⟨found, asked, rest⟩ := gives_bind.mp gives
    rw [path, probe] at asked
    refine gives_bind.mpr ⟨found,
      gives_call.mpr (answered _ _ _ _ _ _ (str key) (gives_call.mp asked)), ?_⟩
    match found with
    | none =>
      cases rest
      exact .ret
    | some .sentinel => cases rest
    | some (.error _ message) =>
      obtain ⟨short, rest⟩ := gives_printed.mp rest
      cases rest
      rw [path, probe]
      exact gives_printed.mpr ⟨short, .ret⟩
  | count same =>
    obtain ⟨count, counted, rest⟩ := gives_bind.mp gives
    refine gives_bind.mpr ⟨count, probes_like answered same counted, gives_settle.mpr ?_⟩
    simpa only [path, probe] using gives_settle.mp rest
  | @branch _ _ thenSchema elseSchema _ same =>
    obtain ⟨pass, probed, rest⟩ := gives_bind.mp gives
    refine gives_bind.mpr ⟨pass, probe_like answered same probed, ?_⟩
    cases chosen : (if pass then thenSchema else elseSchema) with
    | none =>
      rw [chosen] at rest
      cases rest
      exact .ret
    | some schema =>
      rw [chosen] at rest
      have again := gives_call.mp rest
      rw [path, probe] at again
      exact gives_call.mpr (answered _ _ _ _ _ _ same again)

theorem firstError_like {list list' : List Check} (str : ∀ text, like (.str text) (.str text))
    (path : call.path = other.path) (probe : call.probe = other.probe)
    (related : List.Forall₂ (Check.Like like) list list')
    (gives : Gives answers (firstError (Check.enact call) list) reply) :
    Gives answers' (firstError (Check.enact other) list') reply := by
  induction related with
  | nil =>
    cases gives
    exact .ret
  | cons first _ ih =>
    obtain ⟨found, gave, rest⟩ := gives_bind.mp gives
    refine gives_bind.mpr ⟨found, first.gives answered str path probe gave, ?_⟩
    cases found with
    | none => exact ih rest
    | some err =>
      cases rest
      exact .ret

end

/-- Validation comes to the same result on values that are alike. -/
theorem returns_like (interchangeable : Interchangeable lib store like)
    (returned : Returns (validateImpl lib store) call reply) (same : like call.val val) :
    Returns (validateImpl lib store) { call with val := val } reply := by
  revert val
  apply returned.induct
  intro call reply gives val same
  rw [returns_iff]
  cases named : call.schema with
  | none =>
    unfold validateImpl at gives
    simp [named] at gives
  | some schema =>
    rw [validateImpl_checks named] at gives
    rw [validateImpl_checks rfl]
    refine firstError_like ?_ interchangeable.str rfl rfl ?_ gives
    · intro schema a b path probe reply same known
      exact known.2 same
    · apply List.rel_append
      · exact map_like fun _ => .part same
      · exact kind_like interchangeable same rfl

end

end Libgoc.Schema
