import Libgoc.Schema.Hierarchy
import Libgoc.Schema.Rules

namespace Libgoc.Schema

open Libgoc.Semantics General

/-! # The rules for dictionaries -/

def FieldFits (lib : CLib) (store : Store) (entries : List (Text × Val)) (field : Field) : Prop :=
  (dictContains entries field.key = true →
      Accepts lib store field.schema (dictGet entries field.key)) ∧
    (dictContains entries field.key = false → field.optional = true)

/-- The declarative rules for the values of a dictionary schema. -/
structure ObjectRules (lib : CLib) (store : Store) (fields : List Field) (opts : DictOpts)
    (val : Val) : Prop where
  keys : KeysFit lib store fields opts val
  fields : ∀ field ∈ fields, FieldFits lib store (dictEntries val) field

/-- The key of a field is in the dictionary and mapped to null. -/
def SetToNull (val : Val) (field : Field) : Prop :=
  dictContains (dictEntries val) field.key = true ∧
    isNull (dictGet (dictEntries val) field.key) = true

section

variable {lib : CLib} {store : Store}

theorem fieldPasses_iff (other : ¬ SetToNull val field) :
    FieldPasses lib store (dictEntries val) field ↔ FieldFits lib store (dictEntries val) field := by
  unfold FieldPasses FieldFits
  cases present : dictContains (dictEntries val) field.key with
  | false => simp [dictGet_absent present, isNull]
  | true =>
    have value : isNull (dictGet (dictEntries val) field.key) = false := by
      by_contra null
      exact other ⟨present, by simpa using null⟩
    simp [value]

theorem fieldPasses_null (null : SetToNull val field) :
    FieldPasses lib store (dictEntries val) field ↔ field.optional = true := by
  unfold FieldPasses
  simp [null.2]

theorem fieldFits_null (null : SetToNull val field) :
    FieldFits lib store (dictEntries val) field ↔ Accepts lib store field.schema .null := by
  have value : dictGet (dictEntries val) field.key = .null := by
    have same := null.2
    cases read : dictGet (dictEntries val) field.key with
    | null => rfl
    | _ => rw [read] at same; cases same
  unfold FieldFits
  simp [null.1, value]

/-- The rules hold but for the declared fields that are set to null. -/
structure OtherRules (lib : CLib) (store : Store) (fields : List Field) (opts : DictOpts)
    (val : Val) : Prop where
  keys : KeysFit lib store fields opts val
  fields : ∀ field ∈ fields, ¬ SetToNull val field → FieldFits lib store (dictEntries val) field

theorem forall_fields_iff (val : Val) {fields : List Field} {property : Field → Prop} :
    (∀ field ∈ fields, property field) ↔
      (∀ field ∈ fields, ¬ SetToNull val field → property field) ∧
        ∀ field ∈ fields, SetToNull val field → property field := by
  constructor
  · intro all
    exact ⟨fun field member _ => all field member, fun field member _ => all field member⟩
  · rintro ⟨others, nulls⟩ field member
    by_cases null : SetToNull val field
    · exact nulls field member null
    · exact others field member null

theorem accepts_obj {schema : SchemaId} (ofKind : (store.node schema).kind = .obj fields opts)
    (val : Val) :
    Accepts lib store (some schema) val ↔ OtherRules lib store fields opts val ∧
      ∀ field ∈ fields, SetToNull val field → field.optional = true := by
  have parent : ∀ above, (store.node schema).checkedParent = some above →
      Accepts lib store (some above) val := by
    intro above checked
    simp [Node.checkedParent, ofKind, isBaseKind] at checked
  rw [accepts_iff, ofKind, kindChecks, object_finds, forall_fields_iff val]
  constructor
  · rintro ⟨_, keys, others, nulls⟩
    refine ⟨⟨keys, fun field member other => ?_⟩, fun field member null => ?_⟩
    · exact (fieldPasses_iff other).mp (others field member other)
    · exact (fieldPasses_null null).mp (nulls field member null)
  · rintro ⟨rules, nulls⟩
    refine ⟨parent, rules.keys, fun field member other => ?_, fun field member null => ?_⟩
    · exact (fieldPasses_iff other).mpr (rules.fields field member other)
    · exact (fieldPasses_null null).mpr (nulls field member null)

theorem objectRules_iff {fields : List Field} :
    ObjectRules lib store fields opts val ↔ OtherRules lib store fields opts val ∧
      ∀ field ∈ fields, SetToNull val field → Accepts lib store field.schema .null := by
  constructor
  · intro rules
    refine ⟨⟨rules.keys, fun field member _ => rules.fields field member⟩, ?_⟩
    intro field member null
    exact (fieldFits_null null).mp (rules.fields field member)
  · rintro ⟨rules, nulls⟩
    refine ⟨rules.keys, (forall_fields_iff val).mpr ⟨rules.fields, ?_⟩⟩
    intro field member null
    exact (fieldFits_null null).mpr (nulls field member null)

/-- A dictionary schema accepts exactly the values that meet the rules if and
only if another rule fails, or nothing breaks and the fields that are set to null
are all optional just when their schemas all accept null; with no such field it is
enough that nothing breaks on a value that meets the rules. -/
theorem object_accepts_iff {schema : SchemaId} {fields : List Field} {opts : DictOpts}
    (ofKind : (store.node schema).kind = .obj fields opts) (val : Val) :
    ((IsValid lib store schema val ↔ ObjectRules lib store fields opts val) ↔
      (OtherRules lib store fields opts val →
        ((Untroubled lib store (rootCall schema val) ∧
            ∀ field ∈ fields, SetToNull val field → field.optional = true) ↔
          ∀ field ∈ fields, SetToNull val field → Accepts lib store field.schema .null))) ∧
    ((∀ field ∈ fields, ¬ SetToNull val field) →
      (ObjectRules lib store fields opts val → Untroubled lib store (rootCall schema val)) →
      (IsValid lib store schema val ↔ ObjectRules lib store fields opts val)) := by
  have valid : IsValid lib store schema val ↔ OtherRules lib store fields opts val ∧
      Untroubled lib store (rootCall schema val) ∧
        ∀ field ∈ fields, SetToNull val field → field.optional = true := by
    refine returns_none_iff.trans ?_
    rw [and_comm (a := Untroubled lib store (rootCall schema val)), ← and_assoc,
      ← accepts_obj ofKind val]
    rfl
  refine ⟨by rw [valid, objectRules_iff, and_congr_right_iff], fun noNull survives => ?_⟩
  have none {property : Field → Prop} : ∀ field ∈ fields, SetToNull val field → property field :=
    fun field member null => absurd null (noNull field member)
  rw [valid]
  constructor
  · rintro ⟨rules, -⟩
    exact objectRules_iff.mpr ⟨rules, none⟩
  · intro rules
    exact ⟨(objectRules_iff.mp rules).1, survives rules, none⟩

end

/-- A regular expression without special characters is found where it occurs. -/
def literalLib : CLib :=
  { plainLib with regexec := fun regex text => decide (regex <:+: text) }

def serverFields : List Field :=
  [⟨lit "host", some schemaStr, false⟩, ⟨lit "port", some 13, false⟩,
    ⟨lit "cert", some schemaStr, true⟩, ⟨lit "note", some schemaAny, true⟩]

def serverOpts : DictOpts where
  strict := true
  minProperties := 2
  maxProperties := 4
  propertyNames := some 14
  patternProps := [some ⟨some (lit "or"), some schemaInt⟩]
  depRequired := [⟨lit "port", [lit "host"]⟩]
  depSchemas := [⟨lit "host", some schemaDict⟩]

def serverRun : List Label :=
  [.intMin 0, .strMaxLen 8, .dict serverFields serverOpts]

def serverStore : Store :=
  ((system literalLib).run initialStore serverRun).get rfl

def serverDict : Val :=
  .dict 0 [(lit "host", .str (lit "localhost")), (lit "port", .boxed 1 (.int .int 8080)),
    (lit "note", .null)]

theorem serverDict_accepted :
    (system literalLib).run initialStore serverRun = some serverStore ∧
    ObjectRules literalLib serverStore serverFields serverOpts serverDict ∧
    (IsValid literalLib serverStore 15 serverDict ↔
      ObjectRules literalLib serverStore serverFields serverOpts serverDict) := by
  have valid : IsValid literalLib serverStore 15 serverDict := ⟨3, by decide +kernel⟩
  have null : IsValid literalLib serverStore schemaAny .null := ⟨1, by decide +kernel⟩
  have nulls : ∀ field ∈ serverFields, SetToNull serverDict field →
      field.optional = true ∧ field.schema = some schemaAny := by
    unfold SetToNull
    decide +kernel
  have agrees : IsValid literalLib serverStore 15 serverDict ↔
      ObjectRules literalLib serverStore serverFields serverOpts serverDict := by
    apply (object_accepts_iff rfl serverDict).1.mpr
    intro _
    apply iff_of_true
    · exact ⟨untroubled_of_returns valid, fun field member set => (nulls field member set).1⟩
    · intro field member set
      rw [(nulls field member set).2]
      exact (returns_none_iff.mp null).1
  exact ⟨rfl, agrees.mp valid, agrees⟩

def nullField : Field := ⟨lit "a", some schemaNull, false⟩

/-- A dictionary with one required field, which is to be null. -/
def nullStore : Store :=
  ((gocSchemaDict plainLib initialStore [nullField] {}).get rfl).1

def nullDict : Val := .dict 0 [(lit "a", .null)]

theorem nullDict_rules : ObjectRules plainLib nullStore [nullField] {} nullDict := by
  constructor
  · constructor
    · rfl
    · exact ⟨fun bounded => absurd rfl bounded, fun bounded => absurd rfl bounded⟩
    · intro entry _ names named
      cases named
    · intro entry _ prop declared
      cases declared
    · intro strict
      cases strict
    · intro dep declared
      cases declared
    · intro dep declared
      cases declared
  · intro field declared
    obtain rfl := List.mem_singleton.mp declared
    have present : dictContains (dictEntries nullDict) nullField.key = true := by decide +kernel
    have null : IsValid plainLib nullStore schemaNull
        (dictGet (dictEntries nullDict) nullField.key) := ⟨1, by decide +kernel⟩
    refine ⟨fun _ => (returns_none_iff.mp null).1, fun absent => ?_⟩
    simp [present] at absent

/-- A required field that is null counts as missing. -/
theorem null_field_refused :
    (system plainLib).run initialStore [.dict [nullField] {}] = some nullStore ∧
    ObjectRules plainLib nullStore [nullField] {} nullDict ∧
    gocSchemaValidate plainLib nullStore 2 (some 13) nullDict =
      .done (some (.error (lit ".a") (lit "missing required field"))) :=
  ⟨rfl, nullDict_rules, by decide +kernel⟩

end Libgoc.Schema
