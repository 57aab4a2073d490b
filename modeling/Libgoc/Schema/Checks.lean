import Libgoc.Schema.Validate

namespace Libgoc.Schema

open Libgoc.Semantics General

/-! # The checks of a schema

A schema stands for a list of checks on a value, which are made one after the
other until one fails.  The validator makes the checks of the parent and then
those of the kind in this order.
-/

/-- One check; `place` is the path from the value of the schema to that of the check. -/
inductive Check where
  /-- A test of the value itself, or a fault in place of one. -/
  | own (place : Text) (result : Except Fault (Option Text))
  /-- A value has to be valid for a part of the schema. -/
  | part (place : Text) (schema : Option SchemaId) (val : Val)
  /-- A key has to be a valid name. -/
  | name (names : SchemaId) (key : Text)
  /-- The number of the parts that are valid decides. -/
  | count (parts : List (Option SchemaId × Val)) (message : Nat → Option Text)
  | branch (cond thenSchema elseSchema : Option SchemaId) (val : Val)

/-- A test of the value itself. -/
abbrev Check.test (found : Option Text) : Check :=
  .own [] (.ok found)

def onArray (val : Val) (next : List Val → List Check) : List Check :=
  if isGocArray val then next (elements val)
  else [.test (some (expectedGot (lit "array") (typeName val)))]

def elemChecks (elem : Option SchemaId) (start : Nat) (elems : List Val) : List Check :=
  (elems.zipIdx start).map fun item => .part (indexPath [] item.2) elem item.1

def itemCheck (elems : List Val) (item : Option SchemaId × Nat) : Check :=
  match elems[item.2]? with
  | some elem => .part (indexPath [] item.2) item.1 elem
  | none => .own (indexPath [] item.2) (.error (indexOutOfBounds item.2 elems.length))

def additionalChecks (additionalItems : Option SchemaId) (itemCount : Nat) (elems : List Val) :
    List Check :=
  if itemCount < elems.length then
    match additionalItems with
    | none => [.test (some (lit "unexpected element at index " ++ decimal itemCount))]
    | some extra => elemChecks (some extra) itemCount (elems.drop itemCount)
  else []

def patternCheck (lib : CLib) (entries : List (Text × Val)) (key : Text) :
    Option PatternProp → Check
  | none => .own [] (.error (missingRegex (lit "<null>")))
  | some ⟨none, _⟩ => .own [] (.error (missingRegex (lit "(null)")))
  | some ⟨some regex, schema⟩ =>
    if lib.regexec regex key then .part (keyPath [] key) schema (dictGet entries key)
    else .test none

def keyChecks (lib : CLib) (entries : List (Text × Val)) (opts : DictOpts) (key : Text) :
    List Check :=
  opts.propertyNames.toList.map (.name · key) ++ opts.patternProps.map (patternCheck lib entries key)

def fieldCheck (entries : List (Text × Val)) (field : Field) : Check :=
  match dictGet entries field.key with
  | .null =>
    if field.optional then .test none
    else .own (keyPath [] field.key) (.ok (some (lit "missing required field")))
  | value => .part (keyPath [] field.key) field.schema value

def strictCheck (fields : List Field) (key : Text) : Check :=
  if fields.any fun field => field.key = key then .test none
  else .own (keyPath [] key) (.ok (some (lit "unexpected key '" ++ key ++ lit "'")))

def depRequiredChecks (entries : List (Text × Val)) (dep : DepReq) : List Check :=
  if dictContains entries dep.key then
    dep.required.map fun required => .test (checkRequired entries dep.key required)
  else []

def depSchemaCheck (val : Val) (dep : DepSchema) : Check :=
  if dictContains (dictEntries val) dep.key then .part [] dep.schema val else .test none

def objectChecks (lib : CLib) (val : Val) (fields : List Field) (opts : DictOpts) : List Check :=
  if isGocDict val then
    let entries := dictEntries val
    let keys := entries.map Prod.fst
    [.test (checkProperties opts keys.length)] ++
    keys.flatMap (keyChecks lib entries opts) ++ fields.map (fieldCheck entries) ++
    (if opts.strict then keys.map (strictCheck fields) else []) ++
    opts.depRequired.flatMap (depRequiredChecks entries) ++ opts.depSchemas.map (depSchemaCheck val)
  else [.test (some (expectedGot (lit "object") (typeName val)))]

def kindChecks (lib : CLib) (store : Store) (schema : SchemaId) (val : Val) : Kind → List Check
  | .base base => [.own [] (checkBase store schema base val)]
  | .scalar check => [.own [] (checkScalar lib check val)]
  | .arr elem => onArray val (elemChecks elem 0)
  | .arrLen elem min max =>
    onArray val fun elems => .test (checkLength min max elems.length) :: elemChecks elem 0 elems
  | .arrUnique elem =>
    onArray val fun elems => elemChecks elem 0 elems ++ [.test (checkUnique lib elems)]
  | .arrContains elem contains minContains maxContains =>
    onArray val fun elems => elemChecks elem 0 elems ++
      [.count (elems.map (contains, ·)) (checkContains minContains maxContains)]
  | .tuple items additionalItems =>
    onArray val fun elems =>
      items.zipIdx.map (itemCheck elems) ++ additionalChecks additionalItems items.length elems
  | .obj fields opts => objectChecks lib val fields opts
  | .ifThenElse cond thenSchema elseSchema => [.branch cond thenSchema elseSchema val]
  | .anyOf schemas => [.count (schemas.map (·, val)) (checkAnyOf schemas.length)]
  | .oneOf schemas => [.count (schemas.map (·, val)) (checkOneOf schemas.length)]
  | .allOf schemas => schemas.map (.part [] · val)
  | .not schema =>
    [.count [(schema, val)] fun matched =>
      if 0 < matched then some (lit "value must not be valid against schema") else none]
  | .ref none => [.test (some (lit "unresolved schema ref"))]
  | .ref (some target) => [.part [] (some target) val]

def checks (lib : CLib) (store : Store) (schema : SchemaId) (val : Val) : List Check :=
  (store.node schema).checkedParent.toList.map (fun parent => .part [] (some parent) val) ++
    kindChecks lib store schema val (store.node schema).kind

/-- The path of a check, which is formatted where it is not that of the call. -/
def descend {β : Type} (call : Call) (place : Text) (next : Text → Validation β) : Validation β :=
  if place = [] then next call.path else printed (call.path ++ place) next

/-- What the validator does for a check. -/
def Check.enact (call : Call) : Check → Validation (Option Err)
  | .own place result => descend call place fun path => settle { call with path := path } result
  | .part place schema val => descend call place fun path => General.call ⟨schema, val, path, call.probe⟩
  | .name names key =>
    General.call ⟨some names, .str key, call.path, call.probe⟩ >>= rejectName call key
  | .count parts message =>
    countMatches (fun part => gocSchemaProbe part.1 part.2) parts >>= fun count =>
      settle call (.ok (message count))
  | .branch cond thenSchema elseSchema val =>
    gocSchemaProbe cond val >>= fun passed =>
      validateBranch { call with val := val } (if passed then thenSchema else elseSchema)

section

variable {lib : CLib} {store : Store} {call : Call} {rest : Validation (Option Err)} {text : Text}

theorem printed_short {β : Type} {next : Text → Validation β} (short : text.length ≤ 2147483647) :
    printed text next = next text := by
  rw [printed, gocSprintf, if_pos short]

theorem refuse_eq (short : text.length ≤ 2147483647) : refuse call text = reject call text :=
  (printed_short short).symm

theorem indexPath_ne {i : Nat} : indexPath [] i ≠ [] := by
  have dot : lit ".[" ≠ [] := by decide +kernel
  simp [indexPath, dot]

theorem keyPath_ne {key : Text} : keyPath [] key ≠ [] := by
  have dot : lit "." ≠ [] := by decide +kernel
  simp [keyPath, dot]

theorem enact_own_below {place : Text} (below : place ≠ []) {message : Text} :
    (Check.own place (.ok (some message))).enact call =
      printed (call.path ++ place) fun path => reject { call with path := path } message :=
  if_neg below

theorem enact_part_below {place : Text} (below : place ≠ []) {schema : Option SchemaId} {val : Val} :
    (Check.part place schema val).enact call =
      printed (call.path ++ place) fun path => General.call ⟨schema, val, path, call.probe⟩ :=
  if_neg below

theorem onArray_enacts {next : List Val → Validation (Option Err)} {list : List Val → List Check}
    (same : next (elements call.val) = firstError (Check.enact call) (list (elements call.val))) :
    validateArray call next = firstError (Check.enact call) (onArray call.val list) := by
  unfold validateArray onArray
  split
  · exact same
  · exact firstError_singleton.symm

theorem elems_enact {elem : Option SchemaId} {start : Nat} {elems : List Val} :
    validateElems call elem start elems =
      firstError (Check.enact call) (elemChecks elem start elems) := by
  simp only [validateElems, elemChecks, firstError_map, enact_part_below indexPath_ne]
  rfl

theorem pattern_enacts {key : Text} {prop : Option PatternProp} : checkPattern lib call key prop =
    (patternCheck lib (dictEntries call.val) key prop).enact call := by
  match prop with
  | none => rfl
  | some ⟨none, _⟩ => rfl
  | some ⟨some regex, schema⟩ =>
    simp only [checkPattern, patternCheck]
    split
    · rw [enact_part_below keyPath_ne]
      rfl
    · rfl

theorem key_enacts {opts : DictOpts} {key : Text} : checkKey lib call opts key =
    firstError (Check.enact call) (keyChecks lib (dictEntries call.val) opts key) := by
  have names : checkName call opts key =
      firstError (fun names => (Check.name names key).enact call) opts.propertyNames.toList := by
    unfold checkName
    cases opts.propertyNames with
    | none => rfl
    | some names => simp [Check.enact]
  simp only [checkKey, keyChecks, firstError_append, firstError_map, names, ← pattern_enacts]

theorem field_enacts {field : Field} :
    checkField call field = (fieldCheck (dictEntries call.val) field).enact call := by
  have fixed : (lit "missing required field").length ≤ 2147483647 := by decide +kernel
  unfold checkField fieldCheck
  cases dictGet (dictEntries call.val) field.key with
  | null =>
    cases field.optional with
    | true => rfl
    | false =>
      simp only [Bool.false_eq_true, if_false, enact_own_below keyPath_ne, refuse_eq fixed]
      rfl
  | _ =>
    rw [enact_part_below keyPath_ne]
    rfl

theorem strict_enacts {fields : List Field} {key : Text} :
    checkStrict call fields key = (strictCheck fields key).enact call := by
  unfold checkStrict strictCheck
  split
  · rfl
  · rw [enact_own_below keyPath_ne]
    rfl

theorem depRequired_enacts {dep : DepReq} : checkDepRequired call dep =
    firstError (Check.enact call) (depRequiredChecks (dictEntries call.val) dep) := by
  unfold checkDepRequired depRequiredChecks
  split
  · rw [firstError_map]
    rfl
  · rfl

theorem depSchema_enacts {dep : DepSchema} :
    checkDepSchema call dep = (depSchemaCheck call.val dep).enact call := by
  unfold checkDepSchema depSchemaCheck
  split <;> rfl

theorem object_enacts {fields : List Field} {opts : DictOpts} : validateObject lib call fields opts =
    firstError (Check.enact call) (objectChecks lib call.val fields opts) := by
  unfold validateObject objectChecks
  split
  · have strict : (if opts.strict then
        firstError (checkStrict call fields) ((dictEntries call.val).map Prod.fst) else .ret none) =
        firstError (Check.enact call) (if opts.strict then
          ((dictEntries call.val).map Prod.fst).map (strictCheck fields) else []) := by
      split
      · simp [strict_enacts]
      · rfl
    have keys : checkKey lib call opts = _ := funext fun _ => key_enacts
    have declared : checkField call = _ := funext fun _ => field_enacts
    have required : checkDepRequired call = _ := funext fun _ => depRequired_enacts
    have schemas : checkDepSchema call = _ := funext fun _ => depSchema_enacts
    simp only [firstError_append, firstError_singleton, firstError_flatMap, andThen_assoc, strict,
      keys, declared, required, schemas]
    simp only [firstError_map]
    rfl
  · exact firstError_singleton.symm

theorem kind_enacts {schema : SchemaId} {kind : Kind} : validateKind lib store schema call kind =
    firstError (Check.enact call) (kindChecks lib store schema call.val kind) := by
  have probes {schemas : List (Option SchemaId)} {message : Nat → Option Text} :
      (Check.count (schemas.map (·, call.val)) message).enact call =
        countMatches (fun schema => gocSchemaProbe schema call.val) schemas >>= fun count =>
          settle call (.ok (message count)) := by
    rw [Check.enact, countMatches_map]
  cases kind with
  | base base | scalar check | ifThenElse cond thenSchema elseSchema =>
    exact firstError_singleton.symm
  | arr elem => exact onArray_enacts elems_enact
  | arrLen elem min max =>
    simp only [validateKind, kindChecks]
    apply onArray_enacts
    rw [firstError, ← elems_enact]
    rfl
  | arrUnique elem =>
    simp only [validateKind, kindChecks]
    apply onArray_enacts
    rw [firstError_append, firstError_singleton, ← elems_enact]
    rfl
  | arrContains elem contains minContains maxContains =>
    simp only [validateKind, kindChecks]
    apply onArray_enacts
    rw [firstError_append, firstError_singleton, ← elems_enact, Check.enact, countMatches_map]
  | tuple items additionalItems =>
    simp only [validateKind, kindChecks]
    apply onArray_enacts
    rw [firstError_append, firstError_map]
    have item : validateItem call (elements call.val) = fun item =>
        (itemCheck (elements call.val) item).enact call := by
      funext item
      unfold validateItem itemCheck
      cases (elements call.val)[item.2]? with
      | some elem =>
        rw [enact_part_below indexPath_ne]
        rfl
      | none => exact (if_neg indexPath_ne).symm
    rw [validateTuple, item]
    congr 1
    unfold validateAdditional additionalChecks
    split
    · cases additionalItems with
      | none => exact firstError_singleton.symm
      | some extra => exact elems_enact
    · rfl
  | obj fields opts => exact object_enacts
  | anyOf schemas | oneOf schemas =>
    rw [kindChecks, firstError_singleton, probes]
    rfl
  | allOf schemas =>
    rw [kindChecks, firstError_map]
    rfl
  | not schema =>
    have fixed : (lit "value must not be valid against schema").length ≤ 2147483647 := by
      decide +kernel
    rw [kindChecks, firstError_singleton, Check.enact, countMatches, bind_bind]
    show validateNot call schema = _
    rw [validateNot]
    congr 1
    funext passed
    rw [refuse_eq fixed]
    cases passed <;> rfl
  | ref target =>
    cases target with
    | none =>
      rw [kindChecks, firstError_singleton]
      exact refuse_eq (by decide +kernel)
    | some target => exact firstError_singleton.symm

/-- The validator makes the checks of the schema one after the other. -/
theorem validateImpl_checks {schema : SchemaId} (named : call.schema = some schema) :
    validateImpl lib store call =
      firstError (Check.enact call) (checks lib store schema call.val) := by
  rw [validateImpl_some named, checks, firstError_append, ← kind_enacts]
  congr 1
  cases (store.node schema).checkedParent with
  | none => rfl
  | some parent => exact firstError_singleton.symm

end

end Libgoc.Schema
