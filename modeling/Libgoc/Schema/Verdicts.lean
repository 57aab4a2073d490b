import Libgoc.Schema.Hierarchy
import Libgoc.Schema.Rules

namespace Libgoc.Schema

open Libgoc.Semantics General

/-! # When validation comes to a verdict -/

section

variable {lib : CLib} {store : Store} {call : Call}

/-- Validation returns exactly where none of the checks that it comes to by the
rules breaks and its calls do not nest forever. -/
theorem validate_returns_iff (schema : SchemaId) (val : Val) :
    (∃ fuel found, gocSchemaValidate lib store fuel (some schema) val = .done found) ↔
      Untroubled lib store (rootCall schema val) := by
  rw [← returns_iff_untroubled, exists_comm]
  rfl

/-- What a probe survives, full validation survives: the one more text is the
message for a refused key, which the probe reads through the sentinel. -/
theorem Untroubled.full (untroubled : Untroubled lib store call) :
    Untroubled lib store { call with probe := false } := by
  induction untroubled with
  | @intro call unbroken inner ih =>
    constructor
    · intro breaks
      apply unbroken
      cases breaks with
      | noSchema missing => exact .noSchema missing
      | check named reached breaks =>
        refine .check named reached ?_
        cases breaks with
        | fault => exact .fault
        | message long => exact .message long
        | ownPlace below long => exact .ownPlace below long
        | partPlace below long => exact .partPlace below long
        | sentinel _ probe => cases probe
        | name refused long => exact .name refused long
        | count each refused long => exact .count each refused long
    · intro asked makes
      cases makes with
      | check named reached calls =>
        cases calls with
        | part => exact ih _ (.check named reached .part)
        | name => exact ih _ (.check named reached .name)
        | probe member => exact inner _ (.check named reached (.probe member))
        | condition => exact inner _ (.check named reached .condition)
        | taken condition chosen => exact ih _ (.check named reached (.taken condition chosen))

theorem ValidFor.accepts {schema : Option SchemaId} (valid : ValidFor lib store schema val) :
    Accepts lib store schema val := by
  cases schema with
  | none => exact valid.elim
  | some schema => exact (returns_none_iff.mp valid).1

theorem Untroubled.accepts_iff {schema : Option SchemaId} {probe : Bool}
    (untroubled : Untroubled lib store ⟨schema, val, [], probe⟩) :
    Accepts lib store schema val ↔ ValidFor lib store schema val := by
  refine ⟨fun accepts => ?_, ValidFor.accepts⟩
  cases schema with
  | none => cases accepts
  | some schema => exact returns_none_iff.mpr ⟨accepts, untroubled.full⟩

theorem Untroubled.makes (untroubled : Untroubled lib store call)
    (named : call.schema = some schema) (reached : Reached lib store schema call.val check)
    (calls : check.Calls (Judges lib store) call asked) : Untroubled lib store asked := by
  cases untroubled with
  | intro _ inner => exact inner _ (.check named reached calls)

theorem Untroubled.finds {check : Check} (untroubled : Untroubled lib store call)
    (named : call.schema = some schema) (reached : Reached lib store schema call.val check) :
    ∃ found, check.Finds (Judges lib store) found := by
  obtain ⟨reply, returned⟩ := returns_of_untroubled untroubled
  have gives := returns_iff.mp returned
  obtain ⟨before, after, split, passed⟩ := reached
  rw [validateImpl_checks named, split] at gives
  obtain ⟨result, gave⟩ :=
    reached_gives (fun _ _ => returns_judged) gives passed
  obtain ⟨found, finds, -⟩ := Check.Finds.of_gives (fun _ _ => returns_judged) gave
  exact ⟨found, finds⟩

/-- A branch that is `NULL` accepts every value. -/
def BranchAccepts (lib : CLib) (store : Store) (branch : Option SchemaId) (val : Val) : Prop :=
  ∀ schema, branch = some schema → IsValid lib store schema val

open Classical in
noncomputable def matchCount (lib : CLib) (store : Store) (schemas : List (Option SchemaId))
    (val : Val) : Nat :=
  schemas.countP fun schema => decide (ValidFor lib store schema val)

/-- The Boolean combination that a composition stands for. -/
def combination (lib : CLib) (store : Store) (val : Val) : Kind → Option Prop
  | .anyOf schemas => some (∃ schema ∈ schemas, ValidFor lib store schema val)
  | .oneOf schemas => some (matchCount lib store schemas val = 1)
  | .allOf schemas => some (∀ schema ∈ schemas, ValidFor lib store schema val)
  | .not schema => some (¬ ValidFor lib store schema val)
  | .ifThenElse cond thenSchema elseSchema =>
    some ((ValidFor lib store cond val → BranchAccepts lib store thenSchema val) ∧
      (¬ ValidFor lib store cond val → BranchAccepts lib store elseSchema val))
  | _ => none

theorem Passed.accepts_iff {pass : Bool} (passed : Passed (Judges lib store) schema val pass) :
    pass = true ↔ Accepts lib store schema val := by
  cases passed with
  | null =>
    constructor
    · nofun
    · rintro ⟨⟩
  | @part _ _ found inner =>
    cases found with
    | none => exact iff_of_true rfl inner
    | some finding =>
      constructor
      · nofun
      · intro accepts
        cases inner.unique accepts

theorem count_eq_matchCount {schemas : List (Option SchemaId)} {passed : List Bool}
    (each : List.Forall₂ (fun part => Passed (Judges lib store) part.1 part.2)
      (schemas.map (·, val)) passed)
    (valid : ∀ schema ∈ schemas, Accepts lib store schema val ↔ ValidFor lib store schema val) :
    passed.count true = matchCount lib store schemas val := by
  unfold matchCount
  induction schemas generalizing passed with
  | nil =>
    cases each
    rfl
  | cons schema schemas ih =>
    cases each with
    | @cons _ pass _ _ first rest =>
      have verdict := first.accepts_iff.trans (valid schema (by simp))
      rw [List.count_cons, List.countP_cons, ih rest fun other member => valid other (by simp [member])]
      cases pass <;> simp_all

section

variable {schema : SchemaId} {val : Val} (untroubled : Untroubled lib store (rootCall schema val))
include untroubled

/-- A count of the parts decides by how many of them are valid. -/
theorem count_finds (schemas : List (Option SchemaId)) {message : Nat → Option Text}
    (reached : Reached lib store schema val (.count (schemas.map (·, val)) message)) :
    (Check.count (schemas.map (·, val)) message).Finds (Judges lib store) none ↔
      message (matchCount lib store schemas val) = none := by
  have valid : ∀ part ∈ schemas, Accepts lib store part val ↔ ValidFor lib store part val := by
    intro part member
    cases part with
    | none => exact ⟨nofun, False.elim⟩
    | some part =>
      exact (untroubled.makes rfl reached (.probe (List.mem_map_of_mem member))).accepts_iff
  obtain ⟨found, finds⟩ := untroubled.finds rfl reached
  cases finds with
  | count each =>
    have finds : (Check.count _ message).Finds _ _ := .count each
    rw [count_eq_matchCount each valid] at finds
    constructor
    · intro accepts
      exact Option.map_eq_none_iff.mp (finds.decides accepts)
    · intro accepts
      rwa [accepts] at finds

theorem kind_combines (parent : ∀ above, (store.node schema).checkedParent = some above →
      Accepts lib store (some above) val)
    (combined : combination lib store val (store.node schema).kind = some rule) :
    (∀ check ∈ kindChecks lib store schema val (store.node schema).kind,
      check.Finds (Judges lib store) none) ↔ rule := by
  have reach (before after : List Check) {check : Check}
      (split : kindChecks lib store schema val (store.node schema).kind = before ++ check :: after)
      (passed : ∀ earlier ∈ before, earlier.Finds (Judges lib store) none) :
      Reached lib store schema val check := by
    refine ⟨(store.node schema).checkedParent.toList.map (fun above => .part [] (some above) val) ++
      before, after,
      by rw [checks, split, List.append_assoc], List.forall_mem_append.mpr ⟨?_, passed⟩⟩
    simpa [Accepts] using parent
  cases ofKind : (store.node schema).kind with
  | anyOf schemas =>
    rw [ofKind] at combined reach
    cases combined
    have reached := reach [] [] rfl (by simp)
    rw [kindChecks, List.forall_mem_singleton, count_finds untroubled schemas reached]
    have some : 0 < matchCount lib store schemas val ↔
        ∃ schema ∈ schemas, ValidFor lib store schema val := by
      simp [matchCount, List.countP_pos_iff]
    rw [← some]
    by_cases matched : 0 < matchCount lib store schemas val <;> simp [checkAnyOf, matched]
  | oneOf schemas =>
    rw [ofKind] at combined reach
    cases combined
    have reached := reach [] [] rfl (by simp)
    rw [kindChecks, List.forall_mem_singleton, count_finds untroubled schemas reached]
    simp [checkOneOf]
  | allOf schemas =>
    rw [ofKind] at combined reach
    cases combined
    simp only [kindChecks, List.forall_mem_map, finds_part_none]
    refine ⟨fun each part member => ?_, fun each part member => (each part member).accepts⟩
    obtain ⟨before, after, split⟩ := List.append_of_mem member
    have reached : Reached lib store schema val (.part [] part val) := by
      refine reach (before.map (.part [] · val)) (after.map (.part [] · val))
        (by simp [kindChecks, split]) ?_
      simp only [List.forall_mem_map, finds_part_none]
      exact fun other inside => each other (by simp [split, inside])
    exact (untroubled.makes rfl reached .part).accepts_iff.mp (each part member)
  | not part =>
    rw [ofKind] at combined reach
    cases combined
    have reached := reach [] [] rfl (by simp)
    rw [kindChecks, List.forall_mem_singleton]
    refine (count_finds untroubled [part] reached).trans ?_
    simp [matchCount]
  | ifThenElse cond thenSchema elseSchema =>
    rw [ofKind] at combined reach
    cases combined
    rw [kindChecks, List.forall_mem_singleton]
    have reached := reach [] [] rfl (by simp)
    obtain ⟨found, finds⟩ := untroubled.finds rfl reached
    have valid {pass : Bool} (condition : Passed (Judges lib store) cond val pass) :
        pass = true ↔ ValidFor lib store cond val := by
      refine condition.accepts_iff.trans ?_
      cases cond with
      | none => exact ⟨by rintro ⟨⟩, False.elim⟩
      | some cond => exact (untroubled.makes rfl reached .condition).accepts_iff
    have chooses {pass : Bool} (condition : Passed (Judges lib store) cond val pass) :
        ((ValidFor lib store cond val → BranchAccepts lib store thenSchema val) ∧
          (¬ ValidFor lib store cond val → BranchAccepts lib store elseSchema val)) ↔
        BranchAccepts lib store (if pass then thenSchema else elseSchema) val := by
      rw [← valid condition]
      cases pass <;> simp
    cases finds with
    | skipped condition chosen =>
      rw [chooses condition, chosen]
      exact iff_of_true (.skipped condition chosen) (by rintro _ ⟨⟩)
    | @taken _ _ _ _ branch _ _ condition chosen inner =>
      rw [chooses condition, chosen]
      have accepts := (untroubled.makes rfl reached (.taken condition chosen)).accepts_iff
      constructor
      · intro again
        obtain rfl := (Check.Finds.taken condition chosen inner).decides again
        rintro _ ⟨⟩
        exact accepts.mp inner
      · intro valid
        have judges := accepts.mpr (valid branch rfl)
        exact .taken condition chosen judges
  | _ =>
    rw [ofKind] at combined
    cases combined

theorem combines (combined : combination lib store val (store.node schema).kind = some rule) :
    IsValid lib store schema val ↔ ParentAccepts lib store schema val ∧ rule := by
  have parents : (∀ above, (store.node schema).checkedParent = some above →
      Accepts lib store (some above) val) ↔ ParentAccepts lib store schema val := by
    apply forall₂_congr
    intro above checked
    have reached : Reached lib store schema val (.part [] (some above) val) :=
      ⟨[], kindChecks lib store schema val (store.node schema).kind, by simp [checks, checked], nofun⟩
    exact (untroubled.makes rfl reached .part).accepts_iff
  rw [← parents]
  have valid : IsValid lib store schema val ↔ Accepts lib store (some schema) val :=
    untroubled.accepts_iff.symm
  refine valid.trans (accepts_iff.trans ?_)
  exact and_congr_right fun parent => kind_combines untroubled parent combined

end

/-- The probe of a schema returns without fault and accepts exactly what full
validation accepts if and only if no check that it comes to breaks and the calls
end; a composition then accepts what the Boolean combination of its parts says. -/
theorem probe_agrees_iff (schema : SchemaId) (val : Val) :
    ((∃ fuel found, evaluate (validateImpl lib store) fuel ⟨some schema, val, [], true⟩ =
        .done found ∧ (found = none ↔ IsValid lib store schema val)) ↔
      Untroubled lib store ⟨some schema, val, [], true⟩) ∧
    (Untroubled lib store ⟨some schema, val, [], true⟩ →
      ∀ rule, combination lib store val (store.node schema).kind = some rule →
        (IsValid lib store schema val ↔ ParentAccepts lib store schema val ∧ rule)) := by
  refine ⟨⟨?_, fun untroubled => ?_⟩, fun untroubled rule combined => ?_⟩
  · rintro ⟨fuel, found, ran, -⟩
    exact untroubled_of_returns ⟨fuel, ran⟩
  · obtain ⟨found, fuel, ran⟩ := returns_of_untroubled untroubled
    obtain ⟨verdict, judges, same⟩ := returns_judged ⟨fuel, ran⟩
    refine ⟨fuel, found, ran, ?_⟩
    rw [same, Option.map_eq_none_iff]
    have valid : IsValid lib store schema val ↔ Accepts lib store (some schema) val :=
      untroubled.accepts_iff.symm
    rw [valid]
    constructor
    · rintro rfl
      exact judges
    · exact judges.unique
  · exact combines untroubled.full combined

end

/-- The header of a small array. -/
def smallRep : ArrRep where
  cap := 8
  head := 0
  onHeap := true
  raw := []

def smallInt : Val := .boxed 1 (.int .int 5)

/-- The store with one schema for the integers that are not negative. -/
def naturalStore : Store :=
  ((gocSchemaIntMin initialStore 0).get rfl).1

def faultyRun : List Label :=
  [.tuple [some schemaInt] none, .intEnum [], .arrContains none (some schemaInt) 0 0]

theorem validate_aborts : ∃ store, (system plainLib).run initialStore faultyRun = some store ∧
    gocSchemaValidate plainLib store 3 (some 13) (.arr 0 smallRep []) =
      .failed (indexOutOfBounds 0 0) ∧
    gocSchemaValidate plainLib store 3 (some 14) smallInt = .failed (indexOutOfBounds 0 0) ∧
    gocSchemaValidate plainLib store 3 (some 15) (.arr 0 smallRep [smallInt]) =
      .failed .assertion :=
  ⟨_, rfl, by decide +kernel, by decide +kernel, by decide +kernel⟩

/-- The integers that are not negative, or the strings. -/
def choiceStore : Store :=
  ((gocSchemaAnyOf naturalStore none [some 13, some schemaStr]).get rfl).1

theorem choice_agrees :
    (∃ fuel found, evaluate (validateImpl plainLib choiceStore) fuel ⟨some 14, smallInt, [], true⟩ =
      .done found ∧ (found = none ↔ IsValid plainLib choiceStore 14 smallInt)) ∧
    (IsValid plainLib choiceStore 14 smallInt ↔
      ParentAccepts plainLib choiceStore 14 smallInt ∧
        ∃ schema ∈ [some 13, some schemaStr], ValidFor plainLib choiceStore schema smallInt) :=
  have returned : Returns (validateImpl plainLib choiceStore) ⟨some 14, smallInt, [], true⟩ none :=
    ⟨4, by decide +kernel⟩
  have untroubled := untroubled_of_returns returned
  ⟨(probe_agrees_iff 14 smallInt).1.mpr untroubled,
    (probe_agrees_iff 14 smallInt).2 untroubled _ rfl⟩

def namesRun : List Label :=
  [.strMaxLen 1, .dict [] { propertyNames := some 13 }, .anyOf none [some 14]]

def longKey : Val := .dict 0 [(lit "ab", .null)]

/-- Full validation reports the key; the probe reads through the sentinel. -/
theorem probe_faults : ∃ store, (system plainLib).run initialStore namesRun = some store ∧
    gocSchemaValidate plainLib store 3 (some 14) longKey =
      .done (some (.error [] (lit "key 'ab': expected maximum 1, got 2"))) ∧
    evaluate (validateImpl plainLib store) 3 ⟨some 14, longKey, [], true⟩ = .failed .badAddress ∧
    gocSchemaValidate plainLib store 4 (some 15) longKey = .failed .badAddress :=
  ⟨_, rfl, by decide +kernel, by decide +kernel, by decide +kernel⟩

end Libgoc.Schema
