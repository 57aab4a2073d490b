import Libgoc.Schema.Store
import Libgoc.Semantics.General

namespace Libgoc.Schema

open Libgoc.Semantics

/-! # Validation (`goc_schema_validate_impl`) -/

structure Call where
  schema : Option SchemaId
  val : Val
  path : Text
  probe : Bool

/-- `goc_schema_error`, or the sentinel `kProbeError`. -/
inductive Err where
  | sentinel
  | error (path message : Text)
deriving Repr, DecidableEq

inductive Fault where
  | assertion
  | abort (message : Text)
  /-- A read through the sentinel. -/
  | badAddress
  /-- A walk along parents that never ends. -/
  | hangs
deriving Repr, DecidableEq

abbrev Validation (β : Type) := General Call (Option Err) Fault β

def gocSchemaErrorNew (path message : Text) (probe : Bool) : Err :=
  if probe then .sentinel else .error path message

/-- A text that is formatted with `goc_sprintf`. -/
def printed {β : Type} (text : Text) (next : Text → Validation β) : Validation β :=
  match gocSprintf text with
  | some text => next text
  | none => .fail (.abort (lit "goc_sprintf: vsnprintf failed (len=-1)"))

/-- An error with a fixed message. -/
def refuse (call : Call) (message : Text) : Validation (Option Err) :=
  .ret (some (gocSchemaErrorNew call.path message call.probe))

def reject (call : Call) (message : Text) : Validation (Option Err) :=
  printed message (refuse call)

def gocSchemaProbe (schema : Option SchemaId) (val : Val) : Validation Bool :=
  match schema with
  | none => .ret false
  | some schema =>
    General.call ⟨some schema, val, [], true⟩ >>= fun found => .ret found.isNone

def isBaseKind : Kind → Bool
  | .base _ | .arr _ | .obj _ _ => true
  | _ => false

def schemaForTag : Val → Option SchemaId
  | .boxed _ (.bool _) => some schemaBool
  | .boxed _ (.byte _) => some schemaByte
  | .boxed _ (.ubyte _) => some schemaUbyte
  | .boxed _ (.int _ _) => some schemaInt
  | .boxed _ (.uint _ _) => some schemaUint
  | .boxed _ (.real _ _) => some schemaReal
  | .boxed _ (.complex _ _) => some schemaComplex
  | _ => none

/-- `none` if the walk of `goc_schema_is_a` does not end. -/
def valueSatisfiesBase (store : Store) (schema : SchemaId) : Base → Val → Option Bool
  | .any, _ => some true
  | .null, val => some (isNull val)
  | .str, val => some (isString val)
  | .bool, val => some (isBoxedBool val)
  | _, val =>
    match schemaForTag val with
    | some tag => gocSchemaIsA store (some tag) (some schema)
    | none => some false

def baseName : Base → Text
  | .any => lit "any"
  | .null => lit "null"
  | .bool => lit "bool"
  | .int => lit "int"
  | .uint => lit "uint"
  | .byte => lit "byte"
  | .ubyte => lit "ubyte"
  | .number => lit "number"
  | .real => lit "real"
  | .complex => lit "complex"
  | .str => lit "str"

def expectedGot (expected got : Text) : Text :=
  lit "expected " ++ expected ++ lit ", got " ++ got

def checkBase (store : Store) (schema : SchemaId) (base : Base) (val : Val) :
    Except Fault (Option Text) :=
  match valueSatisfiesBase store schema base val with
  | none => .error .hangs
  | some true => .ok none
  | some false => .ok (some (expectedGot (baseName base) (typeName val)))

def indexOutOfBounds (i len : Nat) : Fault :=
  .abort (lit "goc_array_get: index " ++ decimal i ++ lit " out of bounds (len=" ++ decimal len ++
    lit ")")

def require (passed : Bool) (message : Text) : Except Fault (Option Text) :=
  if passed then .ok none else .ok (some message)

/-- The first test of a scalar kind, on the type of the value. -/
def expecting (type : Text) (hasType : Val → Bool) (val : Val)
    (next : Except Fault (Option Text)) : Except Fault (Option Text) :=
  if hasType val then next else .ok (some (expectedGot type (typeName val)))

def boolText (value : Bool) : Text :=
  if value then lit "true" else lit "false"

def unboxBool : Val → Bool
  | .boxed _ (.bool value) => value
  | _ => false

/-- The loop over an enumeration; the message of the error names its first
element. -/
def checkEnum {α β : Type} [DecidableEq β] (vals : List α) (read : α → β) (text : β → Text)
    (got : β) : Except Fault (Option Text) :=
  if vals.any fun candidate => read candidate = got then .ok none
  else
    match vals with
    | [] => .error (indexOutOfBounds 0 0)
    | first :: _ =>
      .ok (some (expectedGot (lit "const value " ++ text (read first)) (text got)))

def checkIntMin (min got : Int) : Except Fault (Option Text) :=
  require (min ≤ got) (expectedGot (lit "minimum " ++ signedDecimal min) (signedDecimal got))

def checkIntMax (max got : Int) : Except Fault (Option Text) :=
  require (got ≤ max) (expectedGot (lit "maximum " ++ signedDecimal max) (signedDecimal got))

def minimumReal (lib : CLib) (min got : Nat) : Text :=
  expectedGot (lit "minimum " ++ lib.formatL min) (lib.formatL got)

def maximumReal (lib : CLib) (max got : Nat) : Text :=
  expectedGot (lit "maximum " ++ lib.formatL max) (lib.formatL got)

def isMultiple (lib : CLib) (factor got : Nat) : Bool :=
  let remainder := lib.fmodl got factor
  let remainder := if lib.ltL remainder lib.zeroL then lib.addL remainder factor else remainder
  let eps := lib.mulL lib.tolerance (lib.fabsl factor)
  lib.leL remainder eps || lib.leL (lib.fabsl (lib.subL remainder factor)) eps

def minimumLength (min len : Nat) : Text :=
  expectedGot (lit "minimum " ++ decimal min) (decimal len)

def checkScalar (lib : CLib) (check : Scalar) (val : Val) : Except Fault (Option Text) :=
  match check with
  | .boolConst value =>
    expecting (lit "bool") isBoxedBool val <|
      let got := unboxBool val
      require (got = value) (expectedGot (lit "const value " ++ boolText value) (boolText got))
  | .intConst value =>
    expecting (lit "int") isBoxedInt val <|
      let got := boxedSignedValue val
      require (got = value)
        (expectedGot (lit "const value " ++ signedDecimal value) (signedDecimal got))
  | .realConst value =>
    expecting (lit "real") isBoxedReal val <|
      let got := unboxDouble val
      require (lib.eqDouble got value)
        (expectedGot (lit "const value " ++ lib.formatDouble value) (lib.formatDouble got))
  | .strConst value =>
    expecting (lit "str") isString val <|
      let got := stringBytes val
      require (got = value) (expectedGot (lit "const value " ++ value) got)
  | .intMin min =>
    expecting (lit "int") isBoxedInt val (checkIntMin min (boxedSignedValue val))
  | .intMax max =>
    expecting (lit "int") isBoxedInt val (checkIntMax max (boxedSignedValue val))
  | .intRange min max =>
    expecting (lit "int") isBoxedInt val <|
      let got := boxedSignedValue val
      if got < min then checkIntMin min got else checkIntMax max got
  | .intEnum vals =>
    expecting (lit "int") isBoxedInt val
      (checkEnum vals boxedSignedValue signedDecimal (boxedSignedValue val))
  | .realMin min =>
    expecting (lit "real") isBoxedReal val <|
      let got := boxedRealValue lib val
      require (lib.leL min got) (minimumReal lib min got)
  | .realMax max =>
    expecting (lit "real") isBoxedReal val <|
      let got := boxedRealValue lib val
      require (lib.leL got max) (maximumReal lib max got)
  | .realRange min max =>
    expecting (lit "real") isBoxedReal val <|
      let got := boxedRealValue lib val
      require (lib.leL min got && lib.leL got max)
        (if lib.ltL got min then minimumReal lib min got else maximumReal lib max got)
  | .realExMin min =>
    expecting (lit "real") isBoxedReal val <|
      let got := boxedRealValue lib val
      require (lib.ltL min got) (minimumReal lib min got)
  | .realExMax max =>
    expecting (lit "real") isBoxedReal val <|
      let got := boxedRealValue lib val
      require (lib.ltL got max) (maximumReal lib max got)
  | .realMultiple factor =>
    expecting (lit "real") isBoxedReal val <|
      let got := boxedRealValue lib val
      require (isMultiple lib factor got)
        (expectedGot (lit "multiple of " ++ lib.formatL factor) (lib.formatL got))
  | .strMinLen min =>
    expecting (lit "str") isString val <|
      let len := (stringBytes val).length
      require (min ≤ len) (minimumLength min len)
  | .strMaxLen max =>
    expecting (lit "str") isString val <|
      let len := (stringBytes val).length
      require (len ≤ max) (expectedGot (lit "maximum " ++ decimal max) (decimal len))
  | .strLen min max =>
    -- a string that is too long is reported against the minimum as well
    expecting (lit "str") isString val <|
      let len := (stringBytes val).length
      require (min ≤ len && len ≤ max) (minimumLength min len)
  | .strPattern regex =>
    -- `str_pattern` and `str_regex` share one word of a union
    expecting (lit "str") isString val <|
      let got := stringBytes val
      require (lib.regexec regex got) (expectedGot (lit "pattern " ++ lib.regexBytes regex) got)
  | .strEnum vals =>
    expecting (lit "str") isString val (checkEnum vals id id (stringBytes val))
  | .strFormat none => expecting (lit "str") isString val (.ok none)
  | .strFormat (some regex) =>
    expecting (lit "str") isString val <|
      let got := stringBytes val
      require (lib.regexec regex got) (expectedGot (lit "format " ++ lib.regexBytes regex) got)
  | .predicate fn name =>
    require (fn val) (lit "value failed " ++ name.getD (lit "predicate"))

def settle (call : Call) : Except Fault (Option Text) → Validation (Option Err)
  | .error fault => .fail fault
  | .ok none => .ret none
  | .ok (some message) => reject call message

/-- `goc_schema_validate_array`, then `next` with the elements. -/
def validateArray (call : Call) (next : List Val → Validation (Option Err)) :
    Validation (Option Err) :=
  if isGocArray call.val then next (elements call.val)
  else reject call (expectedGot (lit "array") (typeName call.val))

def indexPath (path : Text) (i : Nat) : Text :=
  path ++ (lit ".[" ++ decimal i ++ lit "]")

def validateElems (call : Call) (elem : Option SchemaId) (start : Nat) (elems : List Val) :
    Validation (Option Err) :=
  General.firstError (fun (item : Val × Nat) =>
    printed (indexPath call.path item.2) fun subPath =>
      General.call ⟨elem, item.1, subPath, call.probe⟩) (elems.zipIdx start)

def findEqual (lib : CLib) (a : Val) (j : Nat) : List Val → Option Nat
  | [] => none
  | b :: rest => if valsEqual lib a b then some j else findEqual lib a (j + 1) rest

def findDuplicate (lib : CLib) (i : Nat) : List Val → Option (Nat × Nat)
  | [] => none
  | a :: rest =>
    match findEqual lib a (i + 1) rest with
    | some j => some (i, j)
    | none => findDuplicate lib (i + 1) rest

def checkLength (min max len : Nat) : Option Text :=
  if len < min ∨ max < len then
    some (lit "expected " ++ decimal min ++ lit "-" ++ decimal max ++ lit " elements, got " ++
      decimal len)
  else none

def checkUnique (lib : CLib) (elems : List Val) : Option Text :=
  (findDuplicate lib 0 elems).map fun (i, j) =>
    lit "duplicate elements at index " ++ decimal i ++ lit " and " ++ decimal j

def checkContains (minContains maxContains matchCount : Nat) : Option Text :=
  if matchCount < minContains then
    some (lit "expected at least " ++ decimal minContains ++
      lit " elements matching contains schema")
  else if maxContains ≠ 0 ∧ maxContains < matchCount then
    some (lit "expected at most " ++ decimal maxContains ++
      lit " elements matching contains schema")
  else none

/-- One item of a tuple; past the end of the array the read of the element aborts. -/
def validateItem (call : Call) (elems : List Val) (item : Option SchemaId × Nat) :
    Validation (Option Err) :=
  printed (indexPath call.path item.2) fun subPath =>
    match elems[item.2]? with
    | some elem => General.call ⟨item.1, elem, subPath, call.probe⟩
    | none => .fail (indexOutOfBounds item.2 elems.length)

def validateAdditional (call : Call) (additionalItems : Option SchemaId) (itemCount : Nat)
    (elems : List Val) : Validation (Option Err) :=
  if itemCount < elems.length then
    match additionalItems with
    | none => reject call (lit "unexpected element at index " ++ decimal itemCount)
    | some extra => validateElems call (some extra) itemCount (elems.drop itemCount)
  else .ret none

def validateTuple (call : Call) (items : List (Option SchemaId)) (additionalItems : Option SchemaId)
    (elems : List Val) : Validation (Option Err) :=
  General.andThen (General.firstError (validateItem call elems) items.zipIdx)
    (validateAdditional call additionalItems items.length elems)

def keyPath (path key : Text) : Text :=
  path ++ (lit "." ++ key)

def checkProperties (opts : DictOpts) (count : Nat) : Option Text :=
  if (opts.minProperties ≠ 0 ∧ count < opts.minProperties) ∨
      (opts.maxProperties ≠ 0 ∧ opts.maxProperties < count) then
    some (lit "expected " ++ decimal opts.minProperties ++ lit "-" ++
      decimal opts.maxProperties ++ lit " properties, got " ++ decimal count)
  else none

def nameMessage (key message : Text) : Text :=
  lit "key '" ++ key ++ lit "': " ++ message

/-- The message of the error for a key is read to build the new one, in probe mode
through the sentinel. -/
def rejectName (call : Call) (key : Text) : Option Err → Validation (Option Err)
  | none => .ret none
  | some .sentinel => .fail .badAddress
  | some (.error _ message) => reject call (nameMessage key message)

def checkName (call : Call) (opts : DictOpts) (key : Text) : Validation (Option Err) :=
  match opts.propertyNames with
  | none => .ret none
  | some names =>
    General.call ⟨some names, .str key, call.path, call.probe⟩ >>= rejectName call key

def missingRegex (pattern : Text) : Fault :=
  .abort (lit "goc_schema_pattern_props: missing compiled regex for '" ++ pattern ++ lit "'")

def checkPattern (lib : CLib) (call : Call) (key : Text) :
    Option PatternProp → Validation (Option Err)
  | none => .fail (missingRegex (lit "<null>"))
  | some ⟨none, _⟩ => .fail (missingRegex (lit "(null)"))
  | some ⟨some regex, schema⟩ =>
    if lib.regexec regex key then
      printed (keyPath call.path key) fun subPath =>
        General.call ⟨schema, dictGet (dictEntries call.val) key, subPath, call.probe⟩
    else .ret none

def checkKey (lib : CLib) (call : Call) (opts : DictOpts) (key : Text) : Validation (Option Err) :=
  General.andThen (checkName call opts key)
    (General.firstError (checkPattern lib call key) opts.patternProps)

/-- A field whose value is `NULL` counts as missing. -/
def checkField (call : Call) (field : Field) : Validation (Option Err) :=
  match dictGet (dictEntries call.val) field.key with
  | .null =>
    if field.optional then .ret none
    else
      printed (keyPath call.path field.key) fun subPath =>
        refuse { call with path := subPath } (lit "missing required field")
  | value =>
    printed (keyPath call.path field.key) fun subPath =>
      General.call ⟨field.schema, value, subPath, call.probe⟩

def checkStrict (call : Call) (fields : List Field) (key : Text) : Validation (Option Err) :=
  if fields.any fun field => field.key = key then .ret none
  else
    printed (keyPath call.path key) fun subPath =>
      reject { call with path := subPath } (lit "unexpected key '" ++ key ++ lit "'")

def checkRequired (entries : List (Text × Val)) (key required : Text) : Option Text :=
  if dictContains entries required then none
  else
    some (lit "field '" ++ required ++ lit "' required when '" ++ key ++ lit "' is present")

def checkDepRequired (call : Call) (dep : DepReq) : Validation (Option Err) :=
  if dictContains (dictEntries call.val) dep.key then
    General.firstError (fun required =>
      settle call (.ok (checkRequired (dictEntries call.val) dep.key required))) dep.required
  else .ret none

def checkDepSchema (call : Call) (dep : DepSchema) : Validation (Option Err) :=
  if dictContains (dictEntries call.val) dep.key then
    General.call { call with schema := dep.schema }
  else .ret none

def validateObject (lib : CLib) (call : Call) (fields : List Field) (opts : DictOpts) :
    Validation (Option Err) :=
  if isGocDict call.val then
    let keys := (dictEntries call.val).map Prod.fst
    General.andThen (settle call (.ok (checkProperties opts keys.length))) <|
    General.andThen (General.firstError (checkKey lib call opts) keys) <|
    General.andThen (General.firstError (checkField call) fields) <|
    General.andThen
      (if opts.strict then General.firstError (checkStrict call fields) keys else .ret none) <|
    General.andThen (General.firstError (checkDepRequired call) opts.depRequired) <|
    General.firstError (checkDepSchema call) opts.depSchemas
  else reject call (expectedGot (lit "object") (typeName call.val))

def validateBranch (call : Call) : Option SchemaId → Validation (Option Err)
  | none => .ret none
  | some schema => General.call { call with schema := some schema }

def validateIf (call : Call) (cond thenSchema elseSchema : Option SchemaId) :
    Validation (Option Err) :=
  gocSchemaProbe cond call.val >>= fun passed =>
    validateBranch call (if passed then thenSchema else elseSchema)

def checkAnyOf (schemaCount matched : Nat) : Option Text :=
  if 0 < matched then none
  else some (lit "value matched none of " ++ decimal schemaCount ++ lit " schemas")

def checkOneOf (schemaCount matched : Nat) : Option Text :=
  if matched = 1 then none
  else
    some (lit "value matched " ++ decimal matched ++ lit " of " ++ decimal schemaCount ++
      lit " schemas, expected exactly 1")

/-- The number of the schemas that the value is valid for decides. -/
def validateCount (call : Call) (schemas : List (Option SchemaId)) (check : Nat → Option Text) :
    Validation (Option Err) :=
  General.countMatches (fun schema => gocSchemaProbe schema call.val) schemas >>= fun matched =>
    settle call (.ok (check matched))

def validateNot (call : Call) (schema : Option SchemaId) : Validation (Option Err) :=
  gocSchemaProbe schema call.val >>= fun passed =>
    if passed then refuse call (lit "value must not be valid against schema") else .ret none

def validateRef (call : Call) : Option SchemaId → Validation (Option Err)
  | none => refuse call (lit "unresolved schema ref")
  | some target => General.call { call with schema := some target }

def validateKind (lib : CLib) (store : Store) (schema : SchemaId) (call : Call) :
    Kind → Validation (Option Err)
  | .base base => settle call (checkBase store schema base call.val)
  | .scalar check => settle call (checkScalar lib check call.val)
  | .arr elem => validateArray call (validateElems call elem 0)
  | .arrLen elem min max =>
    validateArray call fun elems =>
      General.andThen (settle call (.ok (checkLength min max elems.length)))
        (validateElems call elem 0 elems)
  | .arrUnique elem =>
    validateArray call fun elems =>
      General.andThen (validateElems call elem 0 elems) (settle call (.ok (checkUnique lib elems)))
  | .arrContains elem contains minContains maxContains =>
    validateArray call fun elems =>
      General.andThen (validateElems call elem 0 elems) <|
      General.countMatches (gocSchemaProbe contains) elems >>= fun matchCount =>
        settle call (.ok (checkContains minContains maxContains matchCount))
  | .tuple items additionalItems => validateArray call (validateTuple call items additionalItems)
  | .obj fields opts => validateObject lib call fields opts
  | .ifThenElse cond thenSchema elseSchema => validateIf call cond thenSchema elseSchema
  | .anyOf schemas => validateCount call schemas (checkAnyOf schemas.length)
  | .oneOf schemas => validateCount call schemas (checkOneOf schemas.length)
  | .allOf schemas =>
    General.firstError (fun schema => General.call { call with schema := schema }) schemas
  | .not schema => validateNot call schema
  | .ref target => validateRef call target

def Node.checkedParent (node : Node) : Option SchemaId :=
  if isBaseKind node.kind then none else node.parent

def validateParent (call : Call) : Option SchemaId → Validation (Option Err)
  | none => .ret none
  | some parent => General.call { call with schema := some parent }

def validateImpl (lib : CLib) (store : Store) (call : Call) : Validation (Option Err) :=
  match call.schema with
  | none => .fail .assertion
  | some schema =>
    General.andThen (validateParent call (store.node schema).checkedParent)
      (validateKind lib store schema call (store.node schema).kind)

theorem validateImpl_some (named : call.schema = some schema) :
    validateImpl lib store call =
      General.andThen (validateParent call (store.node schema).checkedParent)
        (validateKind lib store schema call (store.node schema).kind) := by
  unfold validateImpl
  rw [named]

/-- `goc_schema_validate` with calls nested at most `fuel` deep. -/
def gocSchemaValidate (lib : CLib) (store : Store) (fuel : Nat) (schema : Option SchemaId)
    (val : Val) : Outcome Fault (Option Err) :=
  match schema with
  | none => .failed (.abort (lit "goc_schema_validate: NULL schema"))
  | some schema => General.evaluate (validateImpl lib store) fuel ⟨some schema, val, [], false⟩

def rootCall (schema : SchemaId) (val : Val) : Call :=
  ⟨some schema, val, [], false⟩

def IsValid (lib : CLib) (store : Store) (schema : SchemaId) (val : Val) : Prop :=
  General.Returns (validateImpl lib store) ⟨some schema, val, [], false⟩ none

end Libgoc.Schema
