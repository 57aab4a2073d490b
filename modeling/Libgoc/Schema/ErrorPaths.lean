import Libgoc.Schema.Paths
import Libgoc.Schema.Traversal

namespace Libgoc.Schema

open Libgoc.Semantics General

/-! # Error paths -/

/-- The call that an error comes from: every call down to it returns the error of
the next, and none of the calls it makes returns this error to it. -/
inductive Origin (lib : CLib) (store : Store) (err : Err) : Call → Call → Prop where
  | own (returned : Returns (validateImpl lib store) outer (some err))
      (last : ∀ inner, Examines (validateImpl lib store) inner outer → Relays store outer inner →
        ¬ Returns (validateImpl lib store) inner (some err)) :
      Origin lib store err outer outer
  | relayed {outer inner origin : Call}
      (returned : Returns (validateImpl lib store) outer (some err))
      (made : Examines (validateImpl lib store) inner outer) (relays : Relays store outer inner)
      (rest : Origin lib store err inner origin) : Origin lib store err outer origin

/-- The keys of all dictionaries in a value can stand in a path. -/
def KeysExpressible (root : Val) : Prop :=
  ∀ addr entries, Relation.ReflTransGen HoldsVal root (.dict addr entries) →
    ∀ entry ∈ entries, Expressible entry.1

/-- The lengths of all arrays in a value are of type `size_t`. -/
def LengthsFit (root : Val) : Prop :=
  ∀ addr rep elems, Relation.ReflTransGen HoldsVal root (.arr addr rep elems) →
    elems.length < 2 ^ 64

/-- The path of a call leads to its value. -/
def Placed (root : Val) (call : Call) : Prop :=
  ∃ steps, call.path = pathText steps ∧ Leads root steps call.val

/-- What the lookup of the path of an error gives, by the check that failed: the
value of the call, the value under an unexpected key, or no value for a missing
field. -/
inductive Located (store : Store) (root notFound : Val) (path message : Text) (call : Call) :
    Prop where
  | value (here : path = call.path) (found : gocDictGetIn root path notFound = some call.val)
  | unexpected (named : call.schema = some schema)
      (ofKind : (store.node schema).kind = .obj fields opts) (strict : opts.strict = true)
      (member : entry ∈ dictEntries call.val) (undeclared : ∀ field ∈ fields, field.key ≠ entry.1)
      (told : message = lit "unexpected key '" ++ entry.1 ++ lit "'")
      (here : path = keyPath call.path entry.1)
      (found : gocDictGetIn root path notFound = some (dictGet (dictEntries call.val) entry.1))
  | missing (named : call.schema = some schema) (ofKind : (store.node schema).kind = .obj fields opts)
      (declared : field ∈ fields) (required : field.optional = false)
      (null : dictGet (dictEntries call.val) field.key = .null)
      (told : message = lit "missing required field") (here : path = keyPath call.path field.key)
      (found : Expressible field.key → gocDictGetIn root path notFound = some notFound ∨
        gocDictGetIn root path notFound = some .null)

section

variable {lib : CLib} {store : Store} {call : Call}

variable {root : Val}

theorem Placed.element (placed : Placed root call) (fit : LengthsFit root) {i : Nat} {part : Val}
    (found : (elements call.val)[i]? = some part) (schema : Option SchemaId) :
    Placed root ⟨schema, part, indexPath call.path i, call.probe⟩ := by
  obtain ⟨steps, here, leads⟩ := placed
  cases value : call.val with
  | arr addr rep elems =>
    rw [value] at leads found
    have length := fit addr rep elems leads.inside
    have bound : i < elems.length := (List.getElem?_eq_some_iff.mp found).1
    refine ⟨steps ++ [.index i], ?_, leads.trans (.index found (by omega) .here)⟩
    have opening : lit ".[" = [46, 91] := by decide +kernel
    have closing : lit "]" = [93] := by decide +kernel
    simp [indexPath, here, opening, closing, pathText, Step.text]
  | _ =>
    rw [value] at found
    cases found

theorem keyPath_pathText {steps : List Step} {key : Text} :
    keyPath (pathText steps) key = pathText steps ++ 46 :: key := by
  have dot : lit "." = [46] := by decide +kernel
  simp [keyPath, dot]

theorem Placed.entry (placed : Placed root call) (expressible : KeysExpressible root) {key : Text}
    (present : dictContains (dictEntries call.val) key = true) (schema : Option SchemaId) :
    Placed root ⟨schema, dictGet (dictEntries call.val) key, keyPath call.path key, call.probe⟩ := by
  obtain ⟨steps, here, leads⟩ := placed
  cases value : call.val with
  | dict addr entries =>
    rw [value] at leads present
    simp only [dictEntries] at present ⊢
    cases search : entries.find? fun entry => entry.1 = key with
    | none =>
      obtain ⟨entry, member, same⟩ := List.any_eq_true.mp present
      exact absurd same (List.find?_eq_none.mp search entry member)
    | some entry =>
      have named : entry.1 = key := by simpa using List.find?_some search
      have fits := expressible addr entries leads.inside entry (List.mem_of_find?_eq_some search)
      rw [named] at fits
      refine ⟨steps ++ [.key key], ?_, ?_⟩
      · rw [here, keyPath_pathText, pathText_append]
        simp [pathText, Step.text]
      · unfold dictGet
        rw [search]
        exact leads.trans (.key search fits .here)
  | _ =>
    rw [value] at present
    cases present

theorem Placed.relays (placed : Placed root call) (expressible : KeysExpressible root)
    (fit : LengthsFit root) {inner : Call} (relays : Relays store call inner) :
    Placed root inner := by
  cases relays with
  | parent => exact placed
  | passed => exact placed
  | element _ _ _ found | item _ _ _ _ found | additional _ _ _ _ found =>
    exact placed.element fit found _
  | pattern _ _ _ member => exact placed.entry expressible (dictContains_of_mem member) _
  | @field _ _ _ field _ _ _ present =>
    apply placed.entry expressible
    by_contra absent
    rw [dictGet_absent (by simpa using absent)] at present
    cases present

theorem exists_origin {err : Err} (returned : Returns (validateImpl lib store) call (some err)) :
    ∃ origin, Origin lib store err call origin := by
  have ends := returned.acc
  induction ends with
  | intro call _ ih =>
    by_cases deeper : ∃ inner, Examines (validateImpl lib store) inner call ∧
        Relays store call inner ∧ Returns (validateImpl lib store) inner (some err)
    · obtain ⟨inner, made, relays, again⟩ := deeper
      obtain ⟨origin, rest⟩ := ih inner made again
      exact ⟨origin, .relayed returned made relays rest⟩
    · refine ⟨call, .own returned ?_⟩
      intro inner made relays again
      exact deeper ⟨inner, made, relays, again⟩

theorem Origin.reports {err : Err} {origin : Call} (came : Origin lib store err call origin) :
    Reports store origin err := by
  induction came with
  | own returned last =>
    obtain own | ⟨inner, relays, made, again⟩ := error_accounted returned
    · exact own
    · exact absurd again (last inner made relays)
  | relayed _ _ _ _ ih => exact ih

theorem Origin.placed {err : Err} {origin : Call} (came : Origin lib store err call origin)
    (placed : Placed root call) (expressible : KeysExpressible root) (fit : LengthsFit root) :
    Placed root origin := by
  induction came with
  | own => exact placed
  | relayed _ _ relays _ ih => exact ih (placed.relays expressible fit relays)

theorem gocSchemaErrorNew_error {probe : Bool} {path message place text : Text}
    (made : gocSchemaErrorNew place text probe = .error path message) :
    path = place ∧ message = text := by
  unfold gocSchemaErrorNew at made
  split at made
  · cases made
  · cases made
    exact ⟨rfl, rfl⟩

theorem Placed.found {notFound : Val} (placed : Placed root call) (fresh : Fresh root notFound)
    (short : call.path.length ≤ 2147483647) :
    gocDictGetIn root call.path notFound = some call.val := by
  obtain ⟨steps, here, leads⟩ := placed
  rw [here] at short ⊢
  exact gocDictGetIn_leads leads fresh short

theorem Placed.absent {notFound : Val} (placed : Placed root call) (fresh : Fresh root notFound)
    {key : Text} (expressible : Expressible key) (dict : isGocDict call.val = true)
    (null : dictGet (dictEntries call.val) key = .null)
    (short : (keyPath call.path key).length ≤ 2147483647) :
    gocDictGetIn root (keyPath call.path key) notFound = some notFound ∨
      gocDictGetIn root (keyPath call.path key) notFound = some .null := by
  obtain ⟨steps, here, leads⟩ := placed
  rw [here, keyPath_pathText] at short ⊢
  cases value : call.val with
  | dict addr entries =>
    rw [value] at leads null
    exact gocDictGetIn_missing leads fresh expressible null short
  | _ =>
    rw [value] at dict
    cases dict

theorem Reports.located {origin : Call} {path message : Text} {notFound : Val}
    (reports : Reports store origin (.error path message)) (placed : Placed root origin)
    (expressible : KeysExpressible root) (fresh : Fresh root notFound)
    (short : path.length ≤ 2147483647) : Located store root notFound path message origin := by
  generalize reported : Err.error path message = err at reports
  cases reports with
  | value =>
    obtain ⟨rfl, rfl⟩ := gocSchemaErrorNew_error reported.symm
    exact .value rfl (placed.found fresh short)
  | missing named ofKind declared required dict null =>
    obtain ⟨rfl, rfl⟩ := gocSchemaErrorNew_error reported.symm
    refine .missing named ofKind declared required null rfl rfl ?_
    intro fits
    exact placed.absent fresh fits dict null short
  | @unexpected _ _ _ entry named ofKind strict member undeclared =>
    obtain ⟨rfl, rfl⟩ := gocSchemaErrorNew_error reported.symm
    have inner := placed.entry expressible (dictContains_of_mem member) none
    exact .unexpected named ofKind strict member undeclared rfl rfl (inner.found fresh short)

/-- The path of an error is looked up with the value on which the check that
failed was made. -/
theorem error_located (schema : SchemaId) (addr : Nat) (entries : List (Text × Val))
    (expressible : KeysExpressible (.dict addr entries)) (fit : LengthsFit (.dict addr entries))
    (notFound : Val) (fresh : Fresh (.dict addr entries) notFound) (fuel : Nat)
    (path message : Text) (printed : gocSprintf path = some path)
    (reported : gocSchemaValidate lib store fuel (some schema) (.dict addr entries) =
      .done (some (.error path message))) :
    (∃ origin, Origin lib store (.error path message) (rootCall schema (.dict addr entries)) origin) ∧
    ∀ origin, Origin lib store (.error path message) (rootCall schema (.dict addr entries)) origin →
      Located store (.dict addr entries) notFound path message origin := by
  have short : path.length ≤ 2147483647 := by
    unfold gocSprintf at printed
    split at printed
    · assumption
    · cases printed
  refine ⟨exists_origin ⟨fuel, reported⟩, ?_⟩
  intro origin came
  have atRoot : Placed (.dict addr entries) (rootCall schema (.dict addr entries)) :=
    ⟨[], rfl, .here⟩
  exact came.reports.located (came.placed atRoot expressible fit) expressible fresh short

end

theorem inside_dict {addr : Nat} {entries : List (Text × Val)} {part : Val}
    (inside : Relation.ReflTransGen HoldsVal (.dict addr entries) part) :
    part = .dict addr entries ∨ ∃ entry ∈ entries, Relation.ReflTransGen HoldsVal entry.2 part := by
  obtain rfl | ⟨next, holds, inside⟩ := Relation.ReflTransGen.cases_head inside
  · exact .inl rfl
  · cases holds with
    | entry member => exact .inr ⟨_, member, inside⟩

theorem inside_boxed {addr : Nat} {box : Box} {part : Val}
    (inside : Relation.ReflTransGen HoldsVal (.boxed addr box) part) : part = .boxed addr box := by
  obtain rfl | ⟨next, holds, _⟩ := Relation.ReflTransGen.cases_head inside
  · rfl
  · cases holds

def innerDict : Val := .dict 1 [(lit "b", .boxed 2 (.int .int 5))]

def outerDict : Val := .dict 0 [(lit "a", innerDict)]

theorem inside_outerDict {part : Val} (inside : Relation.ReflTransGen HoldsVal outerDict part) :
    part = outerDict ∨ part = innerDict ∨ part = .boxed 2 (.int .int 5) := by
  obtain same | ⟨entry, member, inside⟩ := inside_dict inside
  · exact .inl same
  · obtain rfl := List.mem_singleton.mp member
    obtain same | ⟨entry, member, inside⟩ := inside_dict inside
    · exact .inr (.inl same)
    · obtain rfl := List.mem_singleton.mp member
      exact .inr (.inr (inside_boxed inside))

theorem expressible_letter {key : Text} (letter : key = lit "a" ∨ key = lit "b") :
    Expressible key := by
  obtain rfl | rfl := letter <;>
    exact ⟨by decide +kernel, by decide +kernel, by decide +kernel⟩

theorem outerDict_expressible : KeysExpressible outerDict := by
  intro addr entries inside entry member
  apply expressible_letter
  obtain same | same | same := inside_outerDict inside <;> cases same
  · obtain rfl := List.mem_singleton.mp member
    exact .inl rfl
  · obtain rfl := List.mem_singleton.mp member
    exact .inr rfl

theorem outerDict_fit : LengthsFit outerDict := by
  intro addr rep elems inside
  obtain same | same | same := inside_outerDict inside <;> cases same

theorem outerDict_fresh : Fresh outerDict .null := by
  intro part inside _
  obtain rfl | rfl | rfl := inside_outerDict inside.to_reflTransGen <;> rfl

/-- A field whose key has a dot in it, and a dictionary in a dictionary. -/
def pathsRun : List Label :=
  [.dict [⟨lit "a.b", some schemaInt, false⟩] {}, .dict [⟨lit "b", some schemaStr, false⟩] {},
    .dict [⟨lit "a", some 14, false⟩] {}]

def pathsStore : Store :=
  ((system plainLib).run initialStore pathsRun).get rfl

theorem pathsStore_located : gocSchemaValidate plainLib pathsStore 5 (some 15) outerDict =
      .done (some (.error (lit ".a.b") (lit "expected str, got int"))) ∧
    (∃ origin, Origin plainLib pathsStore (.error (lit ".a.b") (lit "expected str, got int"))
      (rootCall 15 outerDict) origin) ∧
    ∀ origin, Origin plainLib pathsStore (.error (lit ".a.b") (lit "expected str, got int"))
        (rootCall 15 outerDict) origin →
      Located pathsStore outerDict .null (lit ".a.b") (lit "expected str, got int") origin :=
  have reported : gocSchemaValidate plainLib pathsStore 5 (some 15) outerDict =
      .done (some (.error (lit ".a.b") (lit "expected str, got int"))) := by
    decide +kernel
  ⟨reported, error_located 15 0 [(lit "a", innerDict)] outerDict_expressible outerDict_fit .null
    outerDict_fresh 5 (lit ".a.b") (lit "expected str, got int") (by decide +kernel) reported⟩

theorem getIn_outerDict :
    gocDictGetIn outerDict (lit ".a.b") .null = some (.boxed 2 (.int .int 5)) := by
  have path : lit ".a.b" = pathText [.key (lit "a"), .key (lit "b")] := by decide +kernel
  have leads : Leads outerDict [.key (lit "a"), .key (lit "b")] (.boxed 2 (.int .int 5)) :=
    .key (List.find?_cons_of_pos (decide_eq_true rfl)) (expressible_letter (.inl rfl)) <|
      .key (List.find?_cons_of_pos (decide_eq_true rfl)) (expressible_letter (.inr rfl)) .here
  rw [path]
  exact gocDictGetIn_leads leads outerDict_fresh (by decide +kernel)

/-- A pointer to a dictionary on the way ends the lookup. -/
theorem getIn_outerDict_innerDict :
    gocDictGetIn outerDict (lit ".a.b") innerDict = some innerDict := by
  have path : lit ".a.b" = 46 :: (lit "a" ++ lit ".b") := by decide +kernel
  have turn : getInTurn innerDict 46 (lit "a" ++ lit ".b") outerDict = _ :=
    getInTurn_key (expressible_letter (.inl rfl)) (by decide +kernel) (.inr (by decide +kernel))
  rw [gocDictGetIn, path, List.length_cons, getInFrom, turn]
  simp [innerDict, sameAddress]

/-- The path of a missing field can be that of another value, and the lookup can
end before the value of an error. -/
theorem path_misread :
    (system plainLib).Reachable pathsStore ∧ KeysExpressible outerDict ∧ LengthsFit outerDict ∧
    gocSchemaValidate plainLib pathsStore 5 (some 13) outerDict =
      .done (some (.error (lit ".a.b") (lit "missing required field"))) ∧
    gocDictGetIn outerDict (lit ".a.b") .null = some (.boxed 2 (.int .int 5)) ∧
    gocSchemaValidate plainLib pathsStore 5 (some 15) outerDict =
      .done (some (.error (lit ".a.b") (lit "expected str, got int"))) ∧
    gocDictGetIn outerDict (lit ".a.b") innerDict = some innerDict :=
  ⟨.of_run (system plainLib) pathsRun rfl rfl, outerDict_expressible, outerDict_fit,
    by decide +kernel, getIn_outerDict, by decide +kernel, getIn_outerDict_innerDict⟩

end Libgoc.Schema
