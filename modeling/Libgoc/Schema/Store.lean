import Libgoc.Schema.Value
import Libgoc.Semantics.Execution

namespace Libgoc.Schema

open Libgoc.Semantics Function

/-! # Schemas (`src/goc_schema.c`) -/

abbrev SchemaId := Nat

/-- The kinds of the singletons for the base types, but for arrays and
dictionaries. -/
inductive Base where
  | any
  | null
  | bool
  | int
  | uint
  | byte
  | ubyte
  | number
  | real
  | complex
  | str
deriving Repr, DecidableEq

inductive Scalar where
  | boolConst (value : Bool)
  | intConst (value : Int)
  | realConst (bits : Nat)
  | strConst (value : Text)
  | intMin (min : Int)
  | intMax (max : Int)
  | intRange (min max : Int)
  | intEnum (vals : List Val)
  | realMin (min : Nat)
  | realMax (max : Nat)
  | realRange (min max : Nat)
  | realExMin (min : Nat)
  | realExMax (max : Nat)
  | realMultiple (factor : Nat)
  | strMinLen (min : Nat)
  | strMaxLen (max : Nat)
  | strLen (min max : Nat)
  | strPattern (regex : Text)
  | strEnum (vals : List Text)
  | strFormat (regex : Option Text)
  | predicate (fn : Val → Bool) (name : Option Text)

structure Field where
  key : Text
  schema : Option SchemaId
  optional : Bool

/-- An entry of `pattern_props`; its regular expression is compiled when there
is a pattern. -/
structure PatternProp where
  pattern : Option Text
  schema : Option SchemaId

structure DepReq where
  key : Text
  required : List Text

structure DepSchema where
  key : Text
  schema : Option SchemaId

/-- `goc_schema_dict_opts_t`; an array that is `NULL` is empty. -/
structure DictOpts where
  strict : Bool := false
  minProperties : Nat := 0
  maxProperties : Nat := 0
  propertyNames : Option SchemaId := none
  patternProps : List (Option PatternProp) := []
  depRequired : List DepReq := []
  depSchemas : List DepSchema := []

inductive Kind where
  | base (base : Base)
  | scalar (check : Scalar)
  | arr (elem : Option SchemaId)
  | arrLen (elem : Option SchemaId) (min max : Nat)
  | arrUnique (elem : Option SchemaId)
  | arrContains (elem contains : Option SchemaId) (minContains maxContains : Nat)
  | tuple (items : List (Option SchemaId)) (additionalItems : Option SchemaId)
  | obj (fields : List Field) (opts : DictOpts)
  | ifThenElse (cond thenSchema elseSchema : Option SchemaId)
  | anyOf (schemas : List (Option SchemaId))
  | oneOf (schemas : List (Option SchemaId))
  | allOf (schemas : List (Option SchemaId))
  | not (schema : Option SchemaId)
  | ref (target : Option SchemaId)

structure Node where
  kind : Kind
  parent : Option SchemaId := none
  methods : List (Text × Option Nat) := []

/-- The schemas that exist, and the children that `schema_hierarchy` lists. -/
structure Store where
  node : SchemaId → Node
  children : SchemaId → List SchemaId
  size : Nat

abbrev schemaAny : SchemaId := 0
abbrev schemaNull : SchemaId := 1
abbrev schemaBool : SchemaId := 2
abbrev schemaInt : SchemaId := 3
abbrev schemaUint : SchemaId := 4
abbrev schemaByte : SchemaId := 5
abbrev schemaUbyte : SchemaId := 6
abbrev schemaNumber : SchemaId := 7
abbrev schemaReal : SchemaId := 8
abbrev schemaComplex : SchemaId := 9
abbrev schemaStr : SchemaId := 10
abbrev schemaArr : SchemaId := 11
abbrev schemaDict : SchemaId := 12

def singletonKind : SchemaId → Kind
  | 1 => .base .null
  | 2 => .base .bool
  | 3 => .base .int
  | 4 => .base .uint
  | 5 => .base .byte
  | 6 => .base .ubyte
  | 7 => .base .number
  | 8 => .base .real
  | 9 => .base .complex
  | 10 => .base .str
  | 11 => .arr (some schemaAny)
  | 12 => .obj [] {}
  | _ => .base .any

/-- The singletons before their edges are registered. -/
def singletons : Store where
  node := fun id => { kind := singletonKind id }
  children := fun _ => []
  size := 13

def Store.link (store : Store) (child parent : SchemaId) : Store :=
  { store with
    node := update store.node child { store.node child with parent := some parent }
    children := update store.children parent (store.children parent ++ [child]) }

/-- `none` stands for the abort on a second parent. -/
def gocSchemaDerive (store : Store) : Option SchemaId → Option SchemaId → Option Store
  | some child, some parent =>
    if (store.node child).parent.isSome then none else some (store.link child parent)
  | _, _ => some store

/-- The calls of `goc_schema_register_builtin_edges`. -/
def builtinEdges : List (SchemaId × SchemaId) :=
  [(schemaNull, schemaAny), (schemaStr, schemaAny), (schemaArr, schemaAny),
    (schemaDict, schemaAny), (schemaNumber, schemaAny), (schemaComplex, schemaNumber),
    (schemaReal, schemaComplex), (schemaInt, schemaNumber), (schemaUint, schemaNumber),
    (schemaByte, schemaInt), (schemaUbyte, schemaUint), (schemaBool, schemaUbyte)]

def initialStore : Store :=
  builtinEdges.foldl (fun store edge => store.link edge.1 edge.2) singletons

/-- The loop of `goc_schema_is_a`; `none` when the walk is cut off. -/
def isAFrom (store : Store) (target : SchemaId) : Nat → Option SchemaId → Option Bool
  | _, none => some false
  | 0, some _ => none
  | fuel + 1, some cur =>
    if cur = target then some true else isAFrom store target fuel (store.node cur).parent

def isAWithin (store : Store) (fuel : Nat) : Option SchemaId → Option SchemaId → Option Bool
  | some child, some parent =>
    if child = parent then some true
    else isAFrom store parent fuel (store.node child).parent
  | _, _ => some false

/-- A walk that has passed more schemas than there are never ends, which `none`
stands for. -/
def gocSchemaIsA (store : Store) (child parent : Option SchemaId) : Option Bool :=
  isAWithin store store.size child parent

def collectAncestors (store : Store) : Nat → Option SchemaId → Option (List SchemaId)
  | _, none => some []
  | 0, some _ => none
  | fuel + 1, some parent =>
    (collectAncestors store fuel (store.node parent).parent).map (parent :: ·)

def gocSchemaAncestors (store : Store) : Option SchemaId → Option (List SchemaId)
  | none => some []
  | some schema => collectAncestors store store.size (store.node schema).parent

/-- The entry that `goc_dict_get` finds in the methods of a schema. -/
def findMethod (methods : List (Text × Option Nat)) (name : Text) : Option Nat :=
  (methods.find? fun entry => entry.1 = name).bind Prod.snd

def methodFrom (store : Store) (name : Text) : Nat → Option SchemaId → Option (Option Nat)
  | _, none => some none
  | 0, some _ => none
  | fuel + 1, some cur =>
    match findMethod (store.node cur).methods name with
    | some fn => some (some fn)
    | none => methodFrom store name fuel (store.node cur).parent

def gocSchemaMethodGet (store : Store) : Option SchemaId → Option Text → Option (Option Nat)
  | some schema, some name => methodFrom store name store.size (some schema)
  | _, _ => some none

def gocSchemaMethodSet (store : Store) (schema : SchemaId) (name : Text) (fn : Option Nat) :
    Store :=
  let node := store.node schema
  let methods :=
    if node.methods.any fun entry => entry.1 = name then
      node.methods.map fun entry => if entry.1 = name then (entry.1, fn) else entry
    else node.methods ++ [(name, fn)]
  { store with node := update store.node schema { node with methods } }

def gocSchemaMake (store : Store) (kind : Kind) : Store × SchemaId :=
  ({ store with
      node := update store.node store.size { kind }
      size := store.size + 1 }, store.size)

/-- Make a schema of one kind and derive it from `super`. -/
def construct (store : Store) (kind : Kind) (super : Option SchemaId) : Option (Store × SchemaId) :=
  let (store, s) := gocSchemaMake store kind
  (gocSchemaDerive store (some s) super).map fun store => (store, s)

/-- The write of `goc_schema_ref_set`. -/
def Store.resolve (store : Store) (ref : SchemaId) (target : Option SchemaId) : Store :=
  { store with
    node := update store.node ref { store.node ref with kind := .ref target } }

section

variable (lib : CLib) (store : Store)

def gocSchemaBoolConst (val : Bool) := construct store (.scalar (.boolConst val)) (some schemaBool)

def gocSchemaIntConst (val : Int) := construct store (.scalar (.intConst val)) (some schemaInt)

def gocSchemaRealConst (val : Nat) := construct store (.scalar (.realConst val)) (some schemaReal)

def gocSchemaStrConst (val : Text) := construct store (.scalar (.strConst val)) (some schemaStr)

def gocSchemaIntMin (min : Int) := construct store (.scalar (.intMin min)) (some schemaInt)

def gocSchemaIntMax (max : Int) := construct store (.scalar (.intMax max)) (some schemaInt)

def gocSchemaIntRange (min max : Int) :=
  if min > max then none else construct store (.scalar (.intRange min max)) (some schemaInt)

def gocSchemaIntEnum (vals : List Val) :=
  construct store (.scalar (.intEnum vals)) (some schemaInt)

def gocSchemaRealMin (min : Nat) := construct store (.scalar (.realMin min)) (some schemaReal)

def gocSchemaRealMax (max : Nat) := construct store (.scalar (.realMax max)) (some schemaReal)

def gocSchemaRealRange (min max : Nat) :=
  if lib.ltL max min then none
  else construct store (.scalar (.realRange min max)) (some schemaReal)

def gocSchemaRealExMin (min : Nat) := construct store (.scalar (.realExMin min)) (some schemaReal)

def gocSchemaRealExMax (max : Nat) := construct store (.scalar (.realExMax max)) (some schemaReal)

def gocSchemaRealMultiple (factor : Nat) :=
  if lib.ltL lib.zeroL factor then
    construct store (.scalar (.realMultiple factor)) (some schemaReal)
  else none

def gocSchemaStrMinLen (min : Nat) := construct store (.scalar (.strMinLen min)) (some schemaStr)

def gocSchemaStrMaxLen (max : Nat) := construct store (.scalar (.strMaxLen max)) (some schemaStr)

def gocSchemaStrLen (min max : Nat) :=
  if min > max then none else construct store (.scalar (.strLen min max)) (some schemaStr)

def gocSchemaStrPattern (pattern : Text) :=
  if lib.regcomp pattern then construct store (.scalar (.strPattern pattern)) (some schemaStr)
  else none

def gocSchemaStrEnum (vals : List Text) :=
  construct store (.scalar (.strEnum vals)) (some schemaStr)

/-- The pattern of a format that is checked. -/
def gocSchemaFormatPattern (format : Text) : Option Text :=
  if format = lit "date-time" then
    some (lit "^[0-9]\x7b4\x7d-[0-9]\x7b2\x7d-[0-9]\x7b2\x7dT[0-9]\x7b2\x7d:[0-9]\x7b" ++
      lit "2\x7d:[0-9]\x7b2\x7d(\\.[0-9]+)?(Z|[+-][0-9]\x7b2\x7d:[0-9]\x7b2\x7d)$")
  else if format = lit "date" then
    some (lit "^[0-9]\x7b4\x7d-[0-9]\x7b2\x7d-[0-9]\x7b2\x7d$")
  else if format = lit "time" then
    some (lit "^[0-9]\x7b2\x7d:[0-9]\x7b2\x7d:[0-9]\x7b2\x7d(\\." ++
      lit "[0-9]+)?(Z|[+-][0-9]\x7b2\x7d:[0-9]\x7b2\x7d)?$")
  else if format = lit "duration" then
    some (lit "^P([0-9]+Y)?([0-9]+M)?([0-9]+D)?(T([0-9]+H)?([0-9]+M)?([0-9]+(\\.[0-9]+)?S)?)?$")
  else if format = lit "email" then
    some (lit "^[^@[:space:]]+@[^@[:space:]]+\\.[^@[:space:]]+$")
  else if format = lit "uri" then
    some (lit "^[a-zA-Z][a-zA-Z0-9+.-]*:[^[:space:]]+$")
  else if format = lit "uuid" then
    some (lit "^[0-9a-fA-F]\x7b8\x7d-[0-9a-fA-F]\x7b4\x7d-[0-9a-fA-F" ++
      lit "]\x7b4\x7d-[0-9a-fA-F]\x7b4\x7d-[0-9a-fA-F]\x7b12\x7d$")
  else if format = lit "ipv4" then
    some (lit "^([0-9]\x7b1,3\x7d\\.)\x7b3\x7d[0-9]\x7b1,3\x7d$")
  else if format = lit "ipv6" then
    some (lit "^([0-9a-fA-F]\x7b1,4\x7d:)\x7b7\x7d[0-9a-fA-F]\x7b1,4\x7d$")
  else none

def gocSchemaStrFormat (format : Text) :=
  match gocSchemaFormatPattern format with
  | some pattern =>
    if lib.regcomp pattern then
      construct store (.scalar (.strFormat (some pattern))) (some schemaStr)
    else none
  | none => construct store (.scalar (.strFormat none)) (some schemaStr)

def gocSchemaArr (elem : Option SchemaId) := construct store (.arr elem) (some schemaArr)

def gocSchemaArrLen (elem : Option SchemaId) (min max : Nat) :=
  if min > max then none else construct store (.arrLen elem min max) (some schemaArr)

def gocSchemaArrUnique (elem : Option SchemaId) :=
  construct store (.arrUnique elem) (some schemaArr)

def gocSchemaArrContains (elem contains : Option SchemaId) (minContains maxContains : Nat) :=
  construct store (.arrContains elem contains minContains maxContains) (some schemaArr)

def gocSchemaTuple (items : List (Option SchemaId)) (additionalItems : Option SchemaId) :=
  construct store (.tuple items additionalItems) (some schemaArr)

/-- The test of `goc_schema_compile_pattern_props`. -/
def compilePatternProps (patternProps : List (Option PatternProp)) : Bool :=
  patternProps.all fun prop => (prop.bind PatternProp.pattern).all lib.regcomp

def gocSchemaDict (fields : List Field) (opts : DictOpts) :=
  if compilePatternProps lib opts.patternProps then
    construct store (.obj fields opts) (some schemaDict)
  else none

def gocSchemaIf (super cond thenSchema elseSchema : Option SchemaId) :=
  construct store (.ifThenElse cond thenSchema elseSchema) super

def gocSchemaNot (super schema : Option SchemaId) := construct store (.not schema) super

def gocSchemaPredicate (super : Option SchemaId) (fn : Val → Bool) (name : Option Text) :=
  construct store (.scalar (.predicate fn name)) super

def gocSchemaAnyOf (super : Option SchemaId) (schemas : List (Option SchemaId)) :=
  construct store (.anyOf schemas) super

def gocSchemaOneOf (super : Option SchemaId) (schemas : List (Option SchemaId)) :=
  construct store (.oneOf schemas) super

def gocSchemaAllOf (super : Option SchemaId) (schemas : List (Option SchemaId)) :=
  construct store (.allOf schemas) super

def gocSchemaRefMakeOf (super : Option SchemaId) :=
  construct store (.ref none) (some (super.getD schemaAny))

def gocSchemaRefMake := gocSchemaRefMakeOf store (some schemaAny)

/-- A reference that is resolved keeps its target. -/
def gocSchemaRefSet (ref : SchemaId) (schema : Option SchemaId) : Store :=
  match (store.node ref).kind with
  | .ref none => store.resolve ref schema
  | _ => store

end

inductive Label where
  | boolConst (val : Bool)
  | intConst (val : Int)
  | realConst (val : Nat)
  | strConst (val : Text)
  | intMin (min : Int)
  | intMax (max : Int)
  | intRange (min max : Int)
  | intEnum (vals : List Val)
  | realMin (min : Nat)
  | realMax (max : Nat)
  | realRange (min max : Nat)
  | realExMin (min : Nat)
  | realExMax (max : Nat)
  | realMultiple (factor : Nat)
  | strMinLen (min : Nat)
  | strMaxLen (max : Nat)
  | strLen (min max : Nat)
  | strPattern (pattern : Text)
  | strEnum (vals : List Text)
  | strFormat (format : Text)
  | arr (elem : Option SchemaId)
  | arrLen (elem : Option SchemaId) (min max : Nat)
  | arrUnique (elem : Option SchemaId)
  | arrContains (elem contains : Option SchemaId) (minContains maxContains : Nat)
  | tuple (items : List (Option SchemaId)) (additionalItems : Option SchemaId)
  | dict (fields : List Field) (opts : DictOpts)
  | ifThenElse (super cond thenSchema elseSchema : Option SchemaId)
  | not (super schema : Option SchemaId)
  | predicate (super : Option SchemaId) (fn : Val → Bool) (name : Option Text)
  | anyOf (super : Option SchemaId) (schemas : List (Option SchemaId))
  | oneOf (super : Option SchemaId) (schemas : List (Option SchemaId))
  | allOf (super : Option SchemaId) (schemas : List (Option SchemaId))
  | refMakeOf (super : Option SchemaId)
  | refMake
  | refSet (ref : SchemaId) (schema : Option SchemaId)
  | methodSet (schema : SchemaId) (name : Text) (fn : Option Nat)
  | derive (child parent : Option SchemaId)

def DictOpts.pointers (opts : DictOpts) : List (Option SchemaId) :=
  opts.propertyNames :: opts.patternProps.map (fun prop => prop.bind PatternProp.schema) ++
    opts.depSchemas.map DepSchema.schema

def Label.pointers : Label → List (Option SchemaId)
  | .arr elem | .arrLen elem _ _ | .arrUnique elem => [elem]
  | .arrContains elem contains _ _ => [elem, contains]
  | .tuple items additionalItems => additionalItems :: items
  | .dict fields opts => fields.map Field.schema ++ opts.pointers
  | .ifThenElse super cond thenSchema elseSchema => [super, cond, thenSchema, elseSchema]
  | .not super schema => [super, schema]
  | .predicate super _ _ | .refMakeOf super => [super]
  | .anyOf super schemas | .oneOf super schemas | .allOf super schemas => super :: schemas
  | .refSet ref schema => [some ref, schema]
  | .methodSet schema _ _ => [some schema]
  | .derive child parent => [child, parent]
  | _ => []

def exec (lib : CLib) (store : Store) : Label → Option Store
  | .boolConst val => (gocSchemaBoolConst store val).map Prod.fst
  | .intConst val => (gocSchemaIntConst store val).map Prod.fst
  | .realConst val => (gocSchemaRealConst store val).map Prod.fst
  | .strConst val => (gocSchemaStrConst store val).map Prod.fst
  | .intMin min => (gocSchemaIntMin store min).map Prod.fst
  | .intMax max => (gocSchemaIntMax store max).map Prod.fst
  | .intRange min max => (gocSchemaIntRange store min max).map Prod.fst
  | .intEnum vals => (gocSchemaIntEnum store vals).map Prod.fst
  | .realMin min => (gocSchemaRealMin store min).map Prod.fst
  | .realMax max => (gocSchemaRealMax store max).map Prod.fst
  | .realRange min max => (gocSchemaRealRange lib store min max).map Prod.fst
  | .realExMin min => (gocSchemaRealExMin store min).map Prod.fst
  | .realExMax max => (gocSchemaRealExMax store max).map Prod.fst
  | .realMultiple factor => (gocSchemaRealMultiple lib store factor).map Prod.fst
  | .strMinLen min => (gocSchemaStrMinLen store min).map Prod.fst
  | .strMaxLen max => (gocSchemaStrMaxLen store max).map Prod.fst
  | .strLen min max => (gocSchemaStrLen store min max).map Prod.fst
  | .strPattern pattern => (gocSchemaStrPattern lib store pattern).map Prod.fst
  | .strEnum vals => (gocSchemaStrEnum store vals).map Prod.fst
  | .strFormat format => (gocSchemaStrFormat lib store format).map Prod.fst
  | .arr elem => (gocSchemaArr store elem).map Prod.fst
  | .arrLen elem min max => (gocSchemaArrLen store elem min max).map Prod.fst
  | .arrUnique elem => (gocSchemaArrUnique store elem).map Prod.fst
  | .arrContains elem contains minContains maxContains =>
    (gocSchemaArrContains store elem contains minContains maxContains).map Prod.fst
  | .tuple items additionalItems => (gocSchemaTuple store items additionalItems).map Prod.fst
  | .dict fields opts => (gocSchemaDict lib store fields opts).map Prod.fst
  | .ifThenElse super cond thenSchema elseSchema =>
    (gocSchemaIf store super cond thenSchema elseSchema).map Prod.fst
  | .not super schema => (gocSchemaNot store super schema).map Prod.fst
  | .predicate super fn name => (gocSchemaPredicate store super fn name).map Prod.fst
  | .anyOf super schemas => (gocSchemaAnyOf store super schemas).map Prod.fst
  | .oneOf super schemas => (gocSchemaOneOf store super schemas).map Prod.fst
  | .allOf super schemas => (gocSchemaAllOf store super schemas).map Prod.fst
  | .refMakeOf super => (gocSchemaRefMakeOf store super).map Prod.fst
  | .refMake => (gocSchemaRefMake store).map Prod.fst
  | .refSet ref schema => some (gocSchemaRefSet store ref schema)
  | .methodSet schema name fn => some (gocSchemaMethodSet store schema name fn)
  | .derive child parent => gocSchemaDerive store child parent

def step (lib : CLib) (store : Store) (label : Label) : Option Store :=
  if label.pointers.all fun pointer => pointer.all (· < store.size) then exec lib store label
  else none

def system (lib : CLib) : System Store Label where
  initial store := store = initialStore
  step := step lib

end Libgoc.Schema
