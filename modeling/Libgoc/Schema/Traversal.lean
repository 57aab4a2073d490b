import Libgoc.Schema.Hierarchy
import Libgoc.Schema.Meaning

namespace Libgoc.Schema

open Libgoc.Semantics General

/-! # The parts of a validation -/

def Kind.elem : Kind → Option (Option SchemaId)
  | .arr elem | .arrLen elem _ _ | .arrUnique elem | .arrContains elem _ _ _ => some elem
  | _ => none

/-- The parts that are probed on the value itself. -/
def Kind.probed : Kind → List (Option SchemaId)
  | .ifThenElse cond _ _ => [cond]
  | .anyOf schemas | .oneOf schemas => schemas
  | .not schema => [schema]
  | _ => []

/-- The parts whose errors on the value itself are passed on. -/
def Kind.passed : Kind → List (Option SchemaId)
  | .obj _ opts => opts.depSchemas.map DepSchema.schema
  | .ifThenElse _ thenSchema elseSchema =>
    (thenSchema.toList ++ elseSchema.toList).map some
  | .allOf schemas => schemas
  | .ref target => target.toList.map some
  | _ => []

/-- The references at which the value stays the same: to the parent, to the
branches of a composition, to the target of a reference and to the schemas for
dependencies. -/
inductive Unguarded (store : Store) (schema : SchemaId) : SchemaId → Prop where
  | parent (below : store.parent schema = some part) : Unguarded store schema part
  | probed (member : some part ∈ (store.node schema).kind.probed) : Unguarded store schema part
  | passed (member : some part ∈ (store.node schema).kind.passed) : Unguarded store schema part

/-- The calls that a validation can make: a call keeps the value, or goes down in
it. -/
inductive Meets (store : Store) (call inner : Call) : Prop where
  | null (named : call.schema = some schema) (missing : inner.schema = none)
  | direct (named : call.schema = some schema) (asked : inner.schema = some part)
      (unguarded : Unguarded store schema part) (same : inner.val = call.val)
  | down (named : call.schema = some schema)
      (member : inner.schema ∈ (store.node schema).kind.pointers)
      (smaller : sizeOf inner.val < sizeOf call.val)

/-- The calls whose errors a call returns as they are. -/
inductive Relays (store : Store) (call : Call) : Call → Prop where
  | parent (named : call.schema = some schema)
      (checked : (store.node schema).checkedParent = some parent) :
      Relays store call { call with schema := some parent }
  | passed (named : call.schema = some schema) (member : part ∈ (store.node schema).kind.passed) :
      Relays store call { call with schema := part }
  | element (named : call.schema = some schema) (ofKind : (store.node schema).kind.elem = some elem)
      (array : isGocArray call.val = true) (found : (elements call.val)[i]? = some part) :
      Relays store call ⟨elem, part, indexPath call.path i, call.probe⟩
  | item (named : call.schema = some schema)
      (ofKind : (store.node schema).kind = .tuple items additionalItems)
      (array : isGocArray call.val = true) (ofItem : items[i]? = some item)
      (found : (elements call.val)[i]? = some part) :
      Relays store call ⟨item, part, indexPath call.path i, call.probe⟩
  | additional (named : call.schema = some schema)
      (ofKind : (store.node schema).kind = .tuple items (some extra))
      (array : isGocArray call.val = true) (after : items.length ≤ i)
      (found : (elements call.val)[i]? = some part) :
      Relays store call ⟨some extra, part, indexPath call.path i, call.probe⟩
  | pattern (named : call.schema = some schema) (ofKind : (store.node schema).kind = .obj fields opts)
      (declared : some ⟨some regex, part⟩ ∈ opts.patternProps)
      (member : entry ∈ dictEntries call.val) :
      Relays store call ⟨part, dictGet (dictEntries call.val) entry.1, keyPath call.path entry.1,
        call.probe⟩
  | field (named : call.schema = some schema) (ofKind : (store.node schema).kind = .obj fields opts)
      (declared : field ∈ fields) (present : isNull (dictGet (dictEntries call.val) field.key) = false) :
      Relays store call ⟨field.schema, dictGet (dictEntries call.val) field.key,
        keyPath call.path field.key, call.probe⟩

/-- An error that a call reports of its own, by the value and the path it is about. -/
inductive Reports (store : Store) (call : Call) : Err → Prop where
  | value : Reports store call (gocSchemaErrorNew call.path message call.probe)
  | missing (named : call.schema = some schema) (ofKind : (store.node schema).kind = .obj fields opts)
      (declared : field ∈ fields) (required : field.optional = false)
      (dict : isGocDict call.val = true) (null : dictGet (dictEntries call.val) field.key = .null) :
      Reports store call (gocSchemaErrorNew (keyPath call.path field.key)
        (lit "missing required field") call.probe)
  | unexpected (named : call.schema = some schema)
      (ofKind : (store.node schema).kind = .obj fields opts) (strict : opts.strict = true)
      (member : entry ∈ dictEntries call.val) (undeclared : ∀ field ∈ fields, field.key ≠ entry.1) :
      Reports store call (gocSchemaErrorNew (keyPath call.path entry.1)
        (lit "unexpected key '" ++ entry.1 ++ lit "'") call.probe)

/-- What the checks of a call make and report. -/
inductive Check.Belongs (store : Store) (call : Call) : Check → Prop where
  | fault (walks : fault = .hangs → ∃ schema base, call.schema = some schema ∧
      (store.node schema).kind = .base base ∧ valueSatisfiesBase store schema base call.val = none) :
      Belongs store call (.own place (.error fault))
  | pass : Belongs store call (.own place (.ok none))
  | own (reports : Reports store call (gocSchemaErrorNew (call.path ++ place) message call.probe)) :
      Belongs store call (.own place (.ok (some message)))
  | part (relays : Relays store call ⟨schema, val, call.path ++ place, call.probe⟩) :
      Belongs store call (.part place schema val)
  | name (meets : Meets store call ⟨some names, .str key, call.path, call.probe⟩) :
      Belongs store call (.name names key)
  | count (meets : ∀ schema val, (some schema, val) ∈ parts →
      Meets store call ⟨some schema, val, [], true⟩) : Belongs store call (.count parts message)
  | branch {cond : Option SchemaId}
      (meets : ∀ schema, cond = some schema → Meets store call ⟨some schema, val, [], true⟩)
      (relays : ∀ schema, thenSchema = some schema ∨ elseSchema = some schema →
        Relays store call ⟨some schema, val, call.path, call.probe⟩) :
      Belongs store call (.branch cond thenSchema elseSchema val)

section

variable {lib : CLib} {store : Store} {call : Call} {answers : Call → Option Err → Prop}
  {check : Check}

theorem elem_pointers {kind : Kind} (ofKind : kind.elem = some elem) : elem ∈ kind.pointers := by
  cases kind <;> simp_all [Kind.elem, Kind.pointers]

theorem Relays.meets {inner : Call} (relays : Relays store call inner) : Meets store call inner := by
  cases relays with
  | parent named checked =>
    unfold Node.checkedParent at checked
    split at checked
    · cases checked
    · exact .direct named rfl (.parent checked) rfl
  | @passed _ part named member =>
    cases part with
    | none => exact .null named rfl
    | some part => exact .direct named rfl (.passed member) rfl
  | element named ofKind _ found =>
    exact .down named (elem_pointers ofKind) (element_smaller (List.mem_of_getElem? found))
  | item named ofKind _ ofItem found =>
    refine .down named ?_ (element_smaller (List.mem_of_getElem? found))
    rw [ofKind]
    exact List.mem_cons_of_mem _ (List.mem_of_getElem? ofItem)
  | additional named ofKind _ _ found =>
    exact .down named (by simp [ofKind, Kind.pointers])
      (element_smaller (List.mem_of_getElem? found))
  | pattern named ofKind declared member =>
    obtain ⟨found, inside, _, read⟩ := dictGet_of_mem member
    refine .down named ?_ ?_
    · simp only [ofKind, Kind.pointers, DictOpts.pointers, List.mem_append, List.mem_cons,
        List.mem_map]
      exact .inr (.inl (.inr ⟨_, declared, rfl⟩))
    · rw [read]
      exact Nat.lt_trans sizeOf_value_lt (entry_smaller inside)
  | field named ofKind declared present =>
    obtain ⟨found, inside, _, read⟩ := dictGet_of_present present
    refine .down named ?_ ?_
    · rw [ofKind]
      exact List.mem_append_left _ (List.mem_map_of_mem declared)
    · rw [read]
      exact Nat.lt_trans sizeOf_value_lt (entry_smaller inside)

section

variable {β : Type} {asked : Call → Prop} {fails : Fault → Prop}
  (aborts : ∀ message, fails (.abort message))
include aborts

theorem within_printed {text : Text} {next : Text → Validation β}
    (within : Within asked fails (next text)) : Within asked fails (printed text next) := by
  unfold printed gocSprintf
  by_cases short : text.length ≤ 2147483647
  · simpa only [if_pos short] using within
  · simpa only [if_neg short] using .fail (aborts _)

theorem within_descend {place : Text} {next : Text → Validation β}
    (within : Within asked fails (next (call.path ++ place))) :
    Within asked fails (descend call place next) := by
  unfold descend
  split
  · simp_all
  · exact within_printed aborts within

theorem within_settle {message : Option Text} :
    Within asked fails (settle call (.ok message)) := by
  cases message with
  | none => exact .ret
  | some text => exact within_printed aborts .ret

end

theorem within_probe {asked : Call → Prop} {fails : Fault → Prop} {schema : Option SchemaId}
    {val : Val} (here : ∀ part, schema = some part → asked ⟨some part, val, [], true⟩) :
    Within asked fails (gocSchemaProbe schema val) := by
  cases schema with
  | none => exact .ret
  | some part => exact (Within.call (here part rfl)).bind fun _ => .ret

/-- A walk that does not end is one for a base type. -/
def Walks (store : Store) (call : Call) (fault : Fault) : Prop :=
  fault = .hangs → ∃ schema base, call.schema = some schema ∧
    (store.node schema).kind = .base base ∧ valueSatisfiesBase store schema base call.val = none

theorem Check.Belongs.within (belongs : check.Belongs store call) :
    Within (Meets store call) (Walks store call) (check.enact call) := by
  have aborts (message : Text) : Walks store call (.abort message) := nofun
  cases belongs with
  | fault walks => exact within_descend aborts (.fail walks)
  | pass => exact within_descend aborts .ret
  | own => exact within_descend aborts (within_settle aborts)
  | part relays => exact within_descend aborts (.call relays.meets)
  | name meets =>
    refine (Within.call meets).bind fun found => ?_
    match found with
    | none => exact .ret
    | some .sentinel => exact .fail nofun
    | some (.error _ message) => exact within_printed aborts .ret
  | count meets =>
    refine (Within.countMatches fun part member => within_probe fun schema same => ?_).bind
      fun _ => within_settle aborts
    exact meets schema part.2 (same ▸ member)
  | @branch _ thenSchema elseSchema _ meets relays =>
    refine (within_probe meets).bind fun passed => ?_
    cases chosen : (if passed then thenSchema else elseSchema) with
    | none => exact .ret
    | some schema => exact .call (relays schema (by cases passed <;> simp_all)).meets

/-- Each error that a check gives is reported by the call, or comes from a call
that it makes. -/
theorem Check.Belongs.accounted {err : Err} (belongs : check.Belongs store call)
    (gives : Gives answers (check.enact call) (some err)) :
    Reports store call err ∨ ∃ inner, Relays store call inner ∧ answers inner (some err) := by
  cases belongs with
  | fault | pass =>
    cases (gives_descend.mp gives).2
  | own reports =>
    have same := (gives_settle.mp (gives_descend.mp gives).2).2
    cases same
    exact .inl reports
  | part relays => exact .inr ⟨_, relays, gives_call.mp (gives_descend.mp gives).2⟩
  | name meets =>
    obtain ⟨found, -, rest⟩ := gives_bind.mp gives
    match found with
    | none => cases rest
    | some .sentinel => cases rest
    | some (.error _ message) =>
      cases (gives_printed.mp rest).2
      exact .inl .value
  | count meets =>
    obtain ⟨count, -, rest⟩ := gives_bind.mp gives
    obtain ⟨-, same⟩ := gives_settle.mp rest
    obtain ⟨text, -, rfl⟩ := Option.map_eq_some_iff.mp same.symm
    exact .inl .value
  | @branch _ thenSchema elseSchema _ meets relays =>
    obtain ⟨passed, -, rest⟩ := gives_bind.mp gives
    cases chosen : (if passed then thenSchema else elseSchema) with
    | none =>
      rw [chosen] at rest
      cases rest
    | some schema =>
      rw [chosen] at rest
      exact .inr ⟨_, relays schema (by cases passed <;> simp_all), gives_call.mp rest⟩

theorem test_belongs {message : Option Text} : (Check.test message).Belongs store call := by
  cases message with
  | none => exact .pass
  | some text => exact .own (by simpa using .value)

theorem part_belongs {part : Option SchemaId} (relays : Relays store call { call with schema := part }) :
    (Check.part [] part call.val).Belongs store call :=
  .part (by simpa using relays)

theorem onArray_belongs {list : List Val → List Check}
    (belong : isGocArray call.val = true → ∀ check ∈ list (elements call.val),
      check.Belongs store call) :
    ∀ check ∈ onArray call.val list, check.Belongs store call := by
  unfold onArray
  split
  next array => exact belong array
  next => simpa using test_belongs

theorem elems_belong {elem : Option SchemaId} {start : Nat} {elems : List Val}
    (relays : ∀ i part, elems[i]? = some part →
      Relays store call ⟨elem, part, indexPath call.path (start + i), call.probe⟩) :
    ∀ check ∈ elemChecks elem start elems, check.Belongs store call := by
  intro check member
  obtain ⟨⟨part, i⟩, inside, rfl⟩ := List.mem_map.mp member
  obtain ⟨after, found⟩ := List.mk_mem_zipIdx_iff_le_and_getElem?_sub.mp inside
  have relayed := relays (i - start) part found
  rw [Nat.add_sub_of_le after] at relayed
  exact .part relayed

theorem checkScalar_halts {scalar : Scalar} {val : Val} : checkScalar lib scalar val ≠ .error .hangs := by
  have halts {passed : Bool} {message : Text} : require passed message ≠ .error .hangs := by
    cases passed <;> simp [require]
  have expects {type : Text} {hasType : Val → Bool} {next : Except Fault (Option Text)}
      (rest : next ≠ .error .hangs) : expecting type hasType val next ≠ .error .hangs := by
    unfold expecting
    split
    · exact rest
    · simp
  have enum {α β : Type} [DecidableEq β] {vals : List α} {read : α → β} {text : β → Text} {got : β} :
      checkEnum vals read text got ≠ .error .hangs := by
    unfold checkEnum
    split
    · simp
    · cases vals <;> simp [indexOutOfBounds]
  cases scalar with
  | intEnum | strEnum => exact expects enum
  | strFormat regex =>
    cases regex with
    | none => exact expects (by simp)
    | some regex => exact expects halts
  | intRange =>
    apply expects
    simp only
    split <;> exact halts
  | predicate => exact halts
  | _ => exact expects halts

section

variable {schema : SchemaId} {fields : List Field} {opts : DictOpts} (named : call.schema = some schema)
include named

theorem key_belongs {entry : Text × Val} (ofKind : (store.node schema).kind = .obj fields opts)
    (member : entry ∈ dictEntries call.val) :
    ∀ check ∈ keyChecks lib (dictEntries call.val) opts entry.1, check.Belongs store call := by
  intro check made
  obtain made | made := List.mem_append.mp made
  · obtain ⟨names, namesOf, rfl⟩ := List.mem_map.mp made
    refine .name (.down named ?_ (Nat.lt_of_le_of_lt ?_ (entry_smaller member)))
    · simp [ofKind, Kind.pointers, DictOpts.pointers, Option.mem_toList.mp namesOf]
    · obtain ⟨key, value⟩ := entry
      simp only [Val.str.sizeOf_spec, Prod.mk.sizeOf_spec]
      omega
  · obtain ⟨prop, declared, rfl⟩ := List.mem_map.mp made
    obtain _ | ⟨_ | regex, part⟩ := prop
    · exact .fault (by rintro ⟨⟩)
    · exact .fault (by rintro ⟨⟩)
    · rw [patternCheck]
      split
      · exact .part (.pattern named ofKind declared member)
      · exact .pass

theorem field_belongs {field : Field} (ofKind : (store.node schema).kind = .obj fields opts)
    (declared : field ∈ fields) (dict : isGocDict call.val = true) :
    (fieldCheck (dictEntries call.val) field).Belongs store call := by
  unfold fieldCheck
  split
  next null =>
    split
    · exact .pass
    next required => exact .own (.missing named ofKind declared (by simpa using required) dict null)
  next value present =>
    refine .part (.field named ofKind declared ?_)
    cases read : dictGet (dictEntries call.val) field.key with
    | null => exact absurd read present
    | _ => rfl

theorem object_belongs (ofKind : (store.node schema).kind = .obj fields opts) :
    ∀ check ∈ objectChecks lib call.val fields opts, check.Belongs store call := by
  unfold objectChecks
  split
  next dict =>
    simp only [List.forall_mem_append, List.forall_mem_flatMap, List.forall_mem_map,
      List.forall_mem_singleton]
    refine ⟨⟨⟨⟨⟨test_belongs, ?_⟩, ?_⟩, ?_⟩, ?_⟩, ?_⟩
    · exact fun entry member => key_belongs named ofKind member
    · exact fun field declared => field_belongs named ofKind declared dict
    · split
      next strict =>
        simp only [List.forall_mem_map]
        intro entry member
        unfold strictCheck
        split
        · exact .pass
        next undeclared =>
          exact .own (.unexpected named ofKind strict member (by simpa using undeclared))
      next => nofun
    · intro dep _
      unfold depRequiredChecks
      split
      · simpa using fun _ _ => test_belongs
      · nofun
    · intro dep declared
      unfold depSchemaCheck
      split
      · refine part_belongs (.passed named ?_)
        rw [ofKind]
        exact List.mem_map_of_mem declared
      · exact .pass
  next => simpa using test_belongs

theorem kind_belongs {kind : Kind} (ofKind : (store.node schema).kind = kind) :
    ∀ check ∈ kindChecks lib store schema call.val kind, check.Belongs store call := by
  have probes (parts : List (Option SchemaId)) {message : Nat → Option Text}
      (probed : ∀ part ∈ parts, part ∈ kind.probed) :
      (Check.count (parts.map (·, call.val)) message).Belongs store call := by
    refine .count fun part val member => ?_
    obtain ⟨_, inside, same⟩ := List.mem_map.mp member
    cases same
    exact .direct named rfl (.probed (ofKind ▸ probed _ inside)) rfl
  have passes {part : Option SchemaId} (member : part ∈ kind.passed) :
      Relays store call { call with schema := part } := by
    rw [← ofKind] at member
    exact .passed named member
  have elems {elem : Option SchemaId} (same : kind.elem = some elem)
      (array : isGocArray call.val = true) :
      ∀ check ∈ elemChecks elem 0 (elements call.val), check.Belongs store call := by
    rw [← ofKind] at same
    apply elems_belong
    intro i part found
    rw [Nat.zero_add]
    exact .element named same array found
  cases kind with
  | base base =>
    simp only [kindChecks, List.forall_mem_singleton, checkBase]
    split
    next walk => exact .fault fun _ => ⟨schema, base, named, ofKind, walk⟩
    · exact .pass
    · exact test_belongs
  | scalar scalar =>
    simp only [kindChecks, List.forall_mem_singleton]
    cases result : checkScalar lib scalar call.val with
    | error fault => exact .fault fun hangs => absurd (hangs ▸ result) checkScalar_halts
    | ok message => exact test_belongs
  | arr elem => exact onArray_belongs (elems rfl)
  | arrLen elem min max =>
    simp only [kindChecks]
    exact onArray_belongs fun array => List.forall_mem_cons.mpr ⟨test_belongs, elems rfl array⟩
  | arrUnique elem =>
    simp only [kindChecks]
    refine onArray_belongs fun array => List.forall_mem_append.mpr ⟨elems rfl array, ?_⟩
    exact List.forall_mem_singleton.mpr test_belongs
  | arrContains elem contains minContains maxContains =>
    simp only [kindChecks]
    refine onArray_belongs fun array => List.forall_mem_append.mpr ⟨elems rfl array, ?_⟩
    refine List.forall_mem_singleton.mpr (.count fun part val member => ?_)
    obtain ⟨_, inside, same⟩ := List.mem_map.mp member
    cases same
    exact .down named (by simp [ofKind, Kind.pointers]) (element_smaller inside)
  | tuple items additionalItems =>
    simp only [kindChecks]
    refine onArray_belongs fun array => List.forall_mem_append.mpr ⟨?_, ?_⟩
    · simp only [List.forall_mem_map]
      intro item member
      unfold itemCheck
      split
      next part read =>
        have ofItem : items[item.2]? = some item.1 := List.mem_zipIdx_iff_getElem?.mp member
        exact .part (.item named ofKind array ofItem read)
      next => exact .fault (by rintro ⟨⟩)
    · unfold additionalChecks
      split
      · cases additionalItems with
        | none => simpa using test_belongs
        | some extra =>
          apply elems_belong
          intro i part found
          rw [List.getElem?_drop] at found
          exact .additional named ofKind array (Nat.le_add_right _ _) found
      · simp
  | obj fields opts => exact object_belongs named ofKind
  | ifThenElse cond thenSchema elseSchema =>
    refine List.forall_mem_singleton.mpr (.branch (fun part same => ?_) fun part chosen => ?_)
    · exact .direct named rfl (.probed (by simp [ofKind, Kind.probed, same])) rfl
    · exact passes (by simpa [Kind.passed, eq_comm] using chosen)
  | anyOf schemas | oneOf schemas =>
    exact List.forall_mem_singleton.mpr (probes schemas fun _ => id)
  | allOf schemas => exact List.forall_mem_map.mpr fun part member => part_belongs (passes member)
  | not part => exact List.forall_mem_singleton.mpr (probes [part] fun _ => id)
  | ref target =>
    cases target with
    | none => exact List.forall_mem_singleton.mpr test_belongs
    | some target =>
      exact List.forall_mem_singleton.mpr (part_belongs (passes (by simp [Kind.passed])))

theorem checks_belong : ∀ check ∈ checks lib store schema call.val, check.Belongs store call := by
  refine List.forall_mem_append.mpr ⟨?_, kind_belongs named rfl⟩
  intro check member
  obtain ⟨parent, checked, rfl⟩ := List.mem_map.mp member
  exact part_belongs (.parent named (Option.mem_toList.mp checked))

end

theorem validateImpl_within :
    Within (Meets store call) (Walks store call) (validateImpl lib store call) := by
  cases named : call.schema with
  | none =>
    unfold validateImpl
    rw [named]
    exact .fail nofun
  | some schema =>
    rw [validateImpl_checks named]
    exact .firstError fun check member => (checks_belong named check member).within

theorem error_accounted {err : Err} (returned : Returns (validateImpl lib store) call (some err)) :
    Reports store call err ∨ ∃ inner, Relays store call inner ∧
      Examines (validateImpl lib store) inner call ∧
        Returns (validateImpl lib store) inner (some err) := by
  have gives := (returns_iff.mp returned).asked
  cases named : call.schema with
  | none =>
    unfold validateImpl at gives
    simp [named] at gives
  | some schema =>
    nth_rewrite 2 [validateImpl_checks named] at gives
    obtain ⟨check, member, gives⟩ := gives_firstError_some gives
    obtain own | ⟨inner, relays, again, asks⟩ := (checks_belong named check member).accounted gives
    · exact .inl own
    · exact .inr ⟨inner, relays, asks, again⟩

end

end Libgoc.Schema
