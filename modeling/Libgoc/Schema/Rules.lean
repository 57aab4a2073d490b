import Mathlib.Data.List.Monad
import Mathlib.Tactic.Common
import Libgoc.Schema.Meaning

namespace Libgoc.Schema

open Libgoc.Semantics General

/-! # What validation accepts -/

/-- A part of a schema accepts a value; a part that is `NULL` accepts none. -/
def ValidFor (lib : CLib) (store : Store) : Option SchemaId → Val → Prop
  | none, _ => False
  | some schema, val => IsValid lib store schema val

/-- By the rules a value is not refused. -/
def Accepts (lib : CLib) (store : Store) (schema : Option SchemaId) (val : Val) : Prop :=
  Judges lib store schema val none

/-- A value below the root is accepted at its path. -/
def AcceptedAt (lib : CLib) (store : Store) (schema : Option SchemaId) (val : Val) (path : Text) :
    Prop :=
  gocSprintf path ≠ none ∧ Returns (validateImpl lib store) ⟨schema, val, path, false⟩ none

def ParentAccepts (lib : CLib) (store : Store) (schema : SchemaId) (val : Val) : Prop :=
  ∀ parent, (store.node schema).checkedParent = some parent → IsValid lib store parent val

/-- The checks of the kind of a schema accept a value at a path. -/
def KindAccepts (lib : CLib) (store : Store) (schema : SchemaId) (val : Val) : Prop :=
  ∀ check ∈ kindChecks lib store schema val (store.node schema).kind,
    Gives (Returns (validateImpl lib store)) (check.enact (rootCall schema val)) none

section

variable {lib : CLib} {store : Store} {schema : SchemaId}

theorem isValid_iff : IsValid lib store schema val ↔
    ParentAccepts lib store schema val ∧ KindAccepts lib store schema val := by
  unfold IsValid
  rw [returns_iff, validateImpl_checks rfl, gives_firstError_none, checks, List.forall_mem_append]
  apply and_congr_left
  intro _
  simp only [List.forall_mem_map, Option.mem_toList, ParentAccepts]
  apply forall₂_congr
  intro parent _
  exact gives_call

theorem gives_own_none {call : Call} {result : Except Fault (Option Text)} :
    Gives answers ((Check.own [] result).enact call) none ↔ result = .ok none := by
  match result with
  | .error fault => simp [Check.enact, descend, settle]
  | .ok message => cases message <;> simp [Check.enact, descend, gives_settle]

theorem kindAccepts_base (ofKind : (store.node schema).kind = .base base) :
    KindAccepts lib store schema val ↔ valueSatisfiesBase store schema base val = some true := by
  simp only [KindAccepts, ofKind, kindChecks, List.forall_mem_singleton, gives_own_none, checkBase]
  obtain _ | _ | _ := valueSatisfiesBase store schema base val <;> simp

theorem forall_onArray {property : Check → Prop} {list : List Val → List Check}
    (refused : ∀ message, ¬ property (.test (some message))) :
    (∀ check ∈ onArray val list, property check) ↔
      isGocArray val = true ∧ ∀ check ∈ list (elements val), property check := by
  unfold onArray
  split <;> simp_all

theorem elems_accept {elem : Option SchemaId} {elems : List Val} :
    (∀ check ∈ elemChecks elem 0 elems, Gives (Returns (validateImpl lib store))
      (check.enact (rootCall schema val)) none) ↔
      ∀ i part, elems[i]? = some part → AcceptedAt lib store elem part (indexPath [] i) := by
  simp only [elemChecks, List.forall_mem_map, Prod.forall, List.mk_mem_zipIdx_iff_getElem?]
  constructor
  · intro each i part found
    obtain ⟨short, rest⟩ := gives_descend.mp (each part i found)
    exact ⟨short indexPath_ne, gives_call.mp rest⟩
  · intro each part i found
    obtain ⟨short, returned⟩ := each i part found
    exact gives_descend.mpr ⟨fun _ => short, gives_call.mpr returned⟩

theorem kindAccepts_arr (ofKind : (store.node schema).kind = .arr elem) :
    KindAccepts lib store schema val ↔ isGocArray val = true ∧
      ∀ i part, (elements val)[i]? = some part →
        AcceptedAt lib store elem part (indexPath [] i) := by
  rw [KindAccepts, ofKind, kindChecks, forall_onArray (by simp [gives_own_none]), elems_accept]

@[simp]
theorem finds_own_none {judged : Judgement} {result : Except Fault (Option Text)} :
    (Check.own place result).Finds judged none ↔ result = .ok none := by
  constructor
  · intro finds
    generalize found : (none : Option Finding) = none' at finds
    cases finds with
    | own => rw [Option.map_eq_none_iff.mp found.symm]
  · rintro rfl
    exact .own

@[simp]
theorem finds_part_none {judged : Judgement} :
    (Check.part place part val).Finds judged none ↔ judged part val none := by
  constructor
  · intro finds
    generalize found : (none : Option Finding) = none' at finds
    cases finds with
    | part judges =>
      obtain rfl := Option.map_eq_none_iff.mp found.symm
      exact judges
  · exact .part

@[simp]
theorem finds_name_none {judged : Judgement} :
    (Check.name names key).Finds judged none ↔ judged (some names) (.str key) none := by
  constructor
  · intro finds
    generalize found : (none : Option Finding) = none' at finds
    cases finds with
    | name judges =>
      obtain rfl := Option.map_eq_none_iff.mp found.symm
      exact judges
  · exact .name

theorem runs_none_iff {judged : Judgement} {list : List Check} :
    Runs judged list none ↔ ∀ check ∈ list, check.Finds judged none := by
  constructor
  · intro runs
    generalize found : (none : Option Finding) = none' at runs
    induction runs with
    | nil => nofun
    | pass first _ ih =>
      subst found
      exact List.forall_mem_cons.mpr ⟨first, ih rfl⟩
    | stop => cases found
  · intro each
    induction list with
    | nil => exact .nil
    | cons check list ih =>
      exact .pass (each check (by simp)) (ih fun other member => each other (by simp [member]))

theorem accepts_iff : Accepts lib store (some schema) val ↔
    (∀ parent, (store.node schema).checkedParent = some parent →
      Accepts lib store (some parent) val) ∧
    ∀ check ∈ kindChecks lib store schema val (store.node schema).kind,
      check.Finds (Judges lib store) none := by
  rw [Accepts, judges_iff, runs_none_iff, checks, List.forall_mem_append]
  simp [Accepts]

/-- The bounds on the number of keys; zero stands for no bound. -/
def CountFits (opts : DictOpts) (count : Nat) : Prop :=
  (opts.minProperties ≠ 0 → opts.minProperties ≤ count) ∧
    (opts.maxProperties ≠ 0 → count ≤ opts.maxProperties)

def NameFits (lib : CLib) (store : Store) (opts : DictOpts) (key : Text) : Prop :=
  ∀ names, opts.propertyNames = some names → Accepts lib store (some names) (.str key)

/-- The value under a key that matches a pattern is valid for its schema. -/
def PatternFits (lib : CLib) (store : Store) (entries : List (Text × Val)) (key : Text)
    (prop : Option PatternProp) : Prop :=
  ∃ regex schema, prop = some ⟨some regex, schema⟩ ∧
    (lib.regexec regex key = true → Accepts lib store schema (dictGet entries key))

/-- The test of a field: a value that is `NULL` is a missing one. -/
def FieldPasses (lib : CLib) (store : Store) (entries : List (Text × Val)) (field : Field) : Prop :=
  if isNull (dictGet entries field.key) then field.optional = true
  else Accepts lib store field.schema (dictGet entries field.key)

def DepRequiredFits (entries : List (Text × Val)) (dep : DepReq) : Prop :=
  dictContains entries dep.key = true → ∀ key ∈ dep.required, dictContains entries key = true

def DepSchemaFits (lib : CLib) (store : Store) (val : Val) (dep : DepSchema) : Prop :=
  dictContains (dictEntries val) dep.key = true → Accepts lib store dep.schema val

/-- The rules for a dictionary that do not concern its declared fields. -/
structure KeysFit (lib : CLib) (store : Store) (fields : List Field) (opts : DictOpts) (val : Val) :
    Prop where
  dict : isGocDict val = true
  count : CountFits opts (dictEntries val).length
  names : ∀ entry ∈ dictEntries val, NameFits lib store opts entry.1
  patterns : ∀ entry ∈ dictEntries val, ∀ prop ∈ opts.patternProps,
    PatternFits lib store (dictEntries val) entry.1 prop
  strict : opts.strict = true →
    ∀ entry ∈ dictEntries val, ∃ field ∈ fields, field.key = entry.1
  depRequired : ∀ dep ∈ opts.depRequired, DepRequiredFits (dictEntries val) dep
  depSchemas : ∀ dep ∈ opts.depSchemas, DepSchemaFits lib store val dep

theorem checkProperties_none {count : Nat} :
    checkProperties opts count = none ↔ CountFits opts count := by
  unfold checkProperties CountFits
  split
  · simp only [reduceCtorEq, false_iff]
    omega
  · simp only [true_iff]
    omega

theorem pattern_finds {entries : List (Text × Val)} :
    (patternCheck lib entries key prop).Finds (Judges lib store) none ↔
      PatternFits lib store entries key prop := by
  unfold PatternFits
  match prop with
  | none => simp [patternCheck]
  | some ⟨none, schema⟩ => simp [patternCheck]
  | some ⟨some regex, schema⟩ =>
    rw [patternCheck]
    split <;> simp_all [Accepts]

theorem field_finds {entries : List (Text × Val)} {field : Field} :
    (fieldCheck entries field).Finds (Judges lib store) none ↔
      FieldPasses lib store entries field := by
  unfold fieldCheck FieldPasses
  cases dictGet entries field.key with
  | null => cases field.optional <;> simp [isNull]
  | _ => simp [isNull, Accepts]

theorem object_finds {fields : List Field} {opts : DictOpts} {val : Val} :
    (∀ check ∈ objectChecks lib val fields opts, check.Finds (Judges lib store) none) ↔
      KeysFit lib store fields opts val ∧
        ∀ field ∈ fields, FieldPasses lib store (dictEntries val) field := by
  unfold objectChecks
  split
  next dict =>
    have strict : (∀ check ∈ if opts.strict then
          ((dictEntries val).map Prod.fst).map (strictCheck fields) else [],
        check.Finds (Judges lib store) none) ↔ (opts.strict = true →
          ∀ entry ∈ dictEntries val, ∃ field ∈ fields, field.key = entry.1) := by
      have each (key : Text) : (strictCheck fields key).Finds (Judges lib store) none ↔
          ∃ field ∈ fields, field.key = key := by
        unfold strictCheck
        split <;> simp_all
      split
      next on => simp only [on, true_implies, List.forall_mem_map, each]
      next off => simp [off]
    have required : (∀ dep ∈ opts.depRequired, ∀ check ∈ depRequiredChecks (dictEntries val) dep,
        check.Finds (Judges lib store) none) ↔
        ∀ dep ∈ opts.depRequired, DepRequiredFits (dictEntries val) dep := by
      apply forall₂_congr
      intro dep _
      unfold depRequiredChecks DepRequiredFits checkRequired
      split <;> simp_all
    have schemas : (∀ dep ∈ opts.depSchemas,
        (depSchemaCheck val dep).Finds (Judges lib store) none) ↔
        ∀ dep ∈ opts.depSchemas, DepSchemaFits lib store val dep := by
      apply forall₂_congr
      intro dep _
      unfold depSchemaCheck DepSchemaFits
      split <;> simp_all [Accepts]
    simp only [List.forall_mem_append, List.forall_mem_singleton, List.forall_mem_flatMap,
      List.forall_mem_map, finds_own_none, Except.ok.injEq, checkProperties_none, keyChecks,
      pattern_finds, field_finds, strict, required, schemas, finds_name_none, List.length_map]
    constructor
    · rintro ⟨⟨⟨⟨⟨count, keys⟩, passed⟩, strict⟩, depRequired⟩, depSchemas⟩
      refine ⟨⟨dict, count, ?_, fun entry member => (keys entry member).2, strict, depRequired,
        depSchemas⟩, passed⟩
      intro entry member names named
      exact (keys entry member).1 names (Option.mem_toList.mpr named)
    · rintro ⟨fits, passed⟩
      refine ⟨⟨⟨⟨⟨fits.count, fun entry member => ⟨fun names named => ?_,
        fits.patterns entry member⟩⟩, passed⟩, fits.strict⟩, fits.depRequired⟩, fits.depSchemas⟩
      exact fits.names entry member names (Option.mem_toList.mp named)
  next other =>
    simp only [List.forall_mem_singleton, finds_own_none, Except.ok.injEq, reduceCtorEq, false_iff]
    rintro ⟨keys, -⟩
    exact other keys.dict

end

end Libgoc.Schema
