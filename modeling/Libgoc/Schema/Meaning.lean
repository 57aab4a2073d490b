import Mathlib.Tactic.Common
import Libgoc.Schema.Checks

namespace Libgoc.Schema

open Libgoc.Semantics General

/-! # What a schema says of a value

The verdict of a schema is given by rules over its checks, with no path, no mode
and no run.  A validation that returns reports this verdict, and it returns
exactly where none of the checks that it comes to breaks.
-/

/-- Where below a value, and why, it is refused. -/
structure Finding where
  place : Text
  message : Text

/-- The error of a call for what is found. -/
def Finding.report (call : Call) (finding : Finding) : Err :=
  gocSchemaErrorNew (call.path ++ finding.place) finding.message call.probe

/-- What the parts of a schema say. -/
abbrev Judgement := Option SchemaId → Val → Option Finding → Prop

/-- The result of a probe; a part that is `NULL` accepts no value. -/
inductive Passed (judged : Judgement) : Option SchemaId → Val → Bool → Prop where
  | null : Passed judged none val false
  | part (inner : judged (some schema) val found) : Passed judged (some schema) val found.isNone

inductive Check.Finds (judged : Judgement) : Check → Option Finding → Prop where
  | own : Finds judged (.own place (.ok message)) (message.map (⟨place, ·⟩))
  | part (inner : judged schema val found) :
      Finds judged (.part place schema val)
        (found.map fun finding => ⟨place ++ finding.place, finding.message⟩)
  | name (inner : judged (some names) (.str key) found) :
      Finds judged (.name names key)
        (found.map fun finding => ⟨[], nameMessage key finding.message⟩)
  | count (each : List.Forall₂ (fun part => Passed judged part.1 part.2) parts passed) :
      Finds judged (.count parts message) ((message (passed.count true)).map (⟨[], ·⟩))
  | skipped {cond : Option SchemaId} (condition : Passed judged cond val passed)
      (chosen : (if passed then thenSchema else elseSchema) = none) :
      Finds judged (.branch cond thenSchema elseSchema val) none
  | taken {cond : Option SchemaId} (condition : Passed judged cond val passed)
      (chosen : (if passed then thenSchema else elseSchema) = some schema)
      (inner : judged (some schema) val found) :
      Finds judged (.branch cond thenSchema elseSchema val) found

/-- The checks are made up to the first that fails. -/
inductive Runs (judged : Judgement) : List Check → Option Finding → Prop where
  | nil : Runs judged [] none
  | pass (first : check.Finds judged none) (rest : Runs judged list found) :
      Runs judged (check :: list) found
  | stop (first : check.Finds judged (some finding)) : Runs judged (check :: list) (some finding)

inductive Judges (lib : CLib) (store : Store) : Judgement where
  | intro (known : ∀ schema val found, judged schema val found → Judges lib store schema val found)
      (runs : Runs judged (checks lib store schema val) found) :
      Judges lib store (some schema) val found

/-- A check is made when those before it have passed. -/
def Reached (lib : CLib) (store : Store) (schema : SchemaId) (val : Val) (check : Check) : Prop :=
  ∃ before after, checks lib store schema val = before ++ check :: after ∧
    ∀ earlier ∈ before, earlier.Finds (Judges lib store) none

/-- The calls for a check; a condition decides between the branches. -/
inductive Check.Calls (judged : Judgement) (call : Call) : Check → Call → Prop where
  | part : Calls judged call (.part place schema val) ⟨schema, val, call.path ++ place, call.probe⟩
  | name : Calls judged call (.name names key) ⟨some names, .str key, call.path, call.probe⟩
  | probe (member : (some schema, val) ∈ parts) :
      Calls judged call (.count parts message) ⟨some schema, val, [], true⟩
  | condition {cond : SchemaId} : Calls judged call (.branch (some cond) thenSchema elseSchema val)
      ⟨some cond, val, [], true⟩
  | taken {cond : Option SchemaId} (condition : Passed judged cond val passed)
      (chosen : (if passed then thenSchema else elseSchema) = some schema) :
      Calls judged call (.branch cond thenSchema elseSchema val)
        ⟨some schema, val, call.path, call.probe⟩

/-- The checks at which the process is lost. -/
inductive Check.Breaks (judged : Judgement) (call : Call) : Check → Prop where
  /-- A walk along parents that does not end, an empty enumeration, an item past the
  end of the array, or an entry of `pattern_props` without a pattern. -/
  | fault : Breaks judged call (.own place (.error fault))
  /-- A message or a path is longer than `goc_sprintf` can write. -/
  | message (long : gocSprintf message = none) : Breaks judged call (.own place (.ok (some message)))
  | ownPlace (below : place ≠ []) (long : gocSprintf (call.path ++ place) = none) :
      Breaks judged call (.own place result)
  | partPlace (below : place ≠ []) (long : gocSprintf (call.path ++ place) = none) :
      Breaks judged call (.part place schema val)
  /-- The message for a refused key is read through the sentinel. -/
  | sentinel (refused : judged (some names) (.str key) (some finding)) (probe : call.probe = true) :
      Breaks judged call (.name names key)
  | name (refused : judged (some names) (.str key) (some finding))
      (long : gocSprintf (nameMessage key finding.message) = none) :
      Breaks judged call (.name names key)
  | count (each : List.Forall₂ (fun part => Passed judged part.1 part.2) parts passed)
      (refused : message (passed.count true) = some text) (long : gocSprintf text = none) :
      Breaks judged call (.count parts message)

inductive Breaks (lib : CLib) (store : Store) (call : Call) : Prop where
  /-- A part of a schema is `NULL`, which the assertion refuses. -/
  | noSchema (missing : call.schema = none)
  | check (named : call.schema = some schema) (reached : Reached lib store schema call.val check)
      (breaks : check.Breaks (Judges lib store) call)

inductive Makes (lib : CLib) (store : Store) (call : Call) : Call → Prop where
  | check {inner : Call} (named : call.schema = some schema)
      (reached : Reached lib store schema call.val check)
      (calls : check.Calls (Judges lib store) call inner) : Makes lib store call inner

/-- No check that a call comes to breaks, and the calls do not nest forever. -/
inductive Untroubled (lib : CLib) (store : Store) : Call → Prop where
  | intro {call : Call} (unbroken : ¬ Breaks lib store call)
      (inner : ∀ inner, Makes lib store call inner → Untroubled lib store inner) :
      Untroubled lib store call

section

variable {lib : CLib} {store : Store} {judged more : Judgement} {check : Check} {list : List Check}
  {pass : Bool}

section

variable (weaker : ∀ schema val found, judged schema val found → more schema val found)
include weaker

theorem Passed.mono (passed : Passed judged schema val pass) : Passed more schema val pass := by
  cases passed with
  | null => exact .null
  | part inner => exact .part (weaker _ _ _ inner)

theorem Check.Finds.mono (finds : check.Finds judged found) : check.Finds more found := by
  cases finds with
  | own => exact .own
  | part inner => exact .part (weaker _ _ _ inner)
  | name inner => exact .name (weaker _ _ _ inner)
  | count each => exact .count (each.imp fun _ _ => Passed.mono weaker)
  | skipped condition chosen => exact .skipped (condition.mono weaker) chosen
  | taken condition chosen inner =>
    exact .taken (condition.mono weaker) chosen (weaker _ _ _ inner)

theorem Runs.mono (runs : Runs judged list found) : Runs more list found := by
  induction runs with
  | nil => exact .nil
  | pass first _ ih => exact .pass (first.mono weaker) ih
  | stop first => exact .stop (first.mono weaker)

end

theorem judges_iff : Judges lib store (some schema) val found ↔
    Runs (Judges lib store) (checks lib store schema val) found := by
  constructor
  · rintro ⟨known, runs⟩
    exact runs.mono known
  · exact .intro fun _ _ _ => id

section

variable (same : ∀ schema val found other, judged schema val found → more schema val other →
  found = other)
include same

theorem Passed.unique (first : Passed judged schema val pass) (second : Passed more schema val other) :
    pass = other := by
  cases first with
  | null =>
    cases second
    rfl
  | part inner =>
    cases second with
    | part again => rw [same _ _ _ _ inner again]

theorem counts_unique {parts : List (Option SchemaId × Val)} {passed others : List Bool}
    (first : List.Forall₂ (fun part => Passed judged part.1 part.2) parts passed)
    (second : List.Forall₂ (fun part => Passed more part.1 part.2) parts others) :
    passed = others := by
  induction first generalizing others with
  | nil =>
    cases second
    rfl
  | cons head _ ih =>
    cases second with
    | cons again rest => rw [head.unique same again, ih rest]

theorem Check.Finds.unique (first : check.Finds judged found) (second : check.Finds more other) :
    found = other := by
  cases first with
  | own =>
    cases second
    rfl
  | part inner =>
    cases second with
    | part again => rw [same _ _ _ _ inner again]
  | name inner =>
    cases second with
    | name again => rw [same _ _ _ _ inner again]
  | count each =>
    cases second with
    | count again => rw [counts_unique same each again]
  | skipped condition chosen =>
    cases second with
    | skipped => rfl
    | taken again taken =>
      rw [condition.unique same again, taken] at chosen
      cases chosen
  | taken condition chosen inner =>
    cases second with
    | skipped again skipped =>
      rw [condition.unique same again, skipped] at chosen
      cases chosen
    | taken again taken innerAgain =>
      rw [condition.unique same again, taken] at chosen
      cases chosen
      exact same _ _ _ _ inner innerAgain

theorem Runs.unique (first : Runs judged list found) (second : Runs more list other) :
    found = other := by
  induction first with
  | nil =>
    cases second
    rfl
  | pass passed _ ih =>
    cases second with
    | pass _ rest => exact ih rest
    | stop stopped => cases passed.unique same stopped
  | stop stopped =>
    cases second with
    | pass passed _ => cases stopped.unique same passed
    | stop again => exact stopped.unique same again

end

theorem Judges.unique (first : Judges lib store schema val found)
    (second : Judges lib store schema val other) : found = other := by
  induction first generalizing other with
  | intro _ runs ih =>
    exact runs.unique (fun schema val found _ inner => ih schema val found inner)
      (judges_iff.mp second)

theorem Check.Finds.decides (first : check.Finds (Judges lib store) found)
    (second : check.Finds (Judges lib store) other) : found = other :=
  first.unique (fun _ _ _ _ inner again => inner.unique again) second

variable {call : Call} {answers : Call → Option Err → Prop}

theorem gives_printed {β : Type} {text : Text} {next : Text → Validation β} {value : β} :
    Gives answers (printed text next) value ↔
      gocSprintf text ≠ none ∧ Gives answers (next text) value := by
  unfold printed gocSprintf
  by_cases short : text.length ≤ 2147483647 <;> simp [short]

theorem gives_descend {β : Type} {place : Text} {next : Text → Validation β} {value : β} :
    Gives answers (descend call place next) value ↔
      (place ≠ [] → gocSprintf (call.path ++ place) ≠ none) ∧
        Gives answers (next (call.path ++ place)) value := by
  unfold descend
  split <;> simp_all [gives_printed]

theorem gives_settle {message : Option Text} {found : Option Err} :
    Gives answers (settle call (.ok message)) found ↔
      (∀ text, message = some text → gocSprintf text ≠ none) ∧
        found = message.map (gocSchemaErrorNew call.path · call.probe) := by
  cases message with
  | none => simp [settle, eq_comm]
  | some text => simp [settle, reject, gives_printed, refuse, eq_comm]

section

variable {names : SchemaId} {key : Text} {finding : Finding}

theorem rejectName_probe (probe : call.probe = true) :
    rejectName call key ((some finding).map
      (Finding.report ⟨some names, .str key, call.path, call.probe⟩)) = .fail .badAddress := by
  simp [Finding.report, gocSchemaErrorNew, probe, rejectName]

theorem rejectName_full (probe : call.probe = false) :
    rejectName call key ((some finding).map
      (Finding.report ⟨some names, .str key, call.path, call.probe⟩)) =
        reject call (nameMessage key finding.message) := by
  simp [Finding.report, gocSchemaErrorNew, probe, rejectName]

end

theorem probes_answered {parts : List (Option SchemaId × Val)} {count : Nat} {schema : SchemaId}
    {val : Val}
    (gives : Gives answers (countMatches (fun part => gocSchemaProbe part.1 part.2) parts) count)
    (member : (some schema, val) ∈ parts) : ∃ reply, answers ⟨some schema, val, [], true⟩ reply := by
  induction parts generalizing count with
  | nil => cases member
  | cons part parts ih =>
    obtain ⟨pass, probed, rest⟩ := gives_bind.mp gives
    obtain ⟨count, counted, -⟩ := gives_bind.mp rest
    obtain rfl | member := List.mem_cons.mp member
    · obtain ⟨reply, asked, -⟩ := gives_bind.mp probed
      exact ⟨reply, gives_call.mp asked⟩
    · exact ih counted member

theorem probe_gives (schema : Option SchemaId) (val : Val) (answered : ∀ part, schema = some part →
    ∃ reply, answers ⟨some part, val, [], true⟩ reply) :
    ∃ pass, Gives answers (gocSchemaProbe schema val) pass := by
  cases schema with
  | none => exact ⟨false, .ret⟩
  | some part =>
    obtain ⟨reply, asked⟩ := answered part rfl
    exact ⟨_, gives_bind.mpr ⟨reply, gives_call.mpr asked, .ret⟩⟩

theorem probes_give {parts : List (Option SchemaId × Val)} (answered : ∀ schema val,
    (some schema, val) ∈ parts → ∃ reply, answers ⟨some schema, val, [], true⟩ reply) :
    ∃ count, Gives answers (countMatches (fun part => gocSchemaProbe part.1 part.2) parts) count := by
  induction parts with
  | nil => exact ⟨0, .ret⟩
  | cons part parts ih =>
    obtain ⟨schema, val⟩ := part
    obtain ⟨pass, probed⟩ := probe_gives schema val fun part same =>
      answered part val (by simp [same])
    obtain ⟨count, counted⟩ := ih fun schema val member => answered schema val (by simp [member])
    exact ⟨_, gives_bind.mpr ⟨pass, probed, gives_bind.mpr ⟨count, counted, .ret⟩⟩⟩

section

variable (known : ∀ asked reply, answers asked reply →
  ∃ found, Judges lib store asked.schema asked.val found ∧ reply = found.map (Finding.report asked))
include known

theorem probe_passed (gives : Gives answers (gocSchemaProbe schema val) pass) :
    Passed (Judges lib store) schema val pass := by
  cases schema with
  | none =>
    obtain rfl : false = pass := by simpa [gocSchemaProbe] using gives
    exact .null
  | some schema =>
    obtain ⟨reply, asked, rest⟩ := gives_bind.mp gives
    obtain ⟨found, inner, rfl⟩ := known _ _ (gives_call.mp asked)
    obtain rfl : found.isNone = pass := by simpa using rest
    exact .part inner

theorem probes_passed {parts : List (Option SchemaId × Val)} {count : Nat}
    (gives : Gives answers (countMatches (fun part => gocSchemaProbe part.1 part.2) parts) count) :
    ∃ passed, List.Forall₂ (fun part => Passed (Judges lib store) part.1 part.2) parts passed ∧
      passed.count true = count := by
  obtain ⟨passed, each, counted⟩ := gives_countMatches.mp gives
  exact ⟨passed, each.imp fun _ _ => probe_passed known, counted⟩

theorem Check.Finds.of_gives (gives : Gives answers (check.enact call) reply) :
    ∃ found, check.Finds (Judges lib store) found ∧ reply = found.map (Finding.report call) := by
  cases check with
  | own place result =>
    obtain ⟨-, rest⟩ := gives_descend.mp gives
    cases result with
    | error fault => cases rest
    | ok message =>
      obtain ⟨-, rfl⟩ := gives_settle.mp rest
      refine ⟨_, .own, ?_⟩
      cases message <;> rfl
  | part place schema val =>
    obtain ⟨-, rest⟩ := gives_descend.mp gives
    obtain ⟨found, inner, rfl⟩ := known _ _ (gives_call.mp rest)
    refine ⟨_, .part inner, ?_⟩
    cases found with
    | none => rfl
    | some finding => simp [Finding.report, List.append_assoc]
  | name names key =>
    obtain ⟨reply, asked, rest⟩ := gives_bind.mp gives
    obtain ⟨found, inner, rfl⟩ := known _ _ (gives_call.mp asked)
    refine ⟨_, .name inner, ?_⟩
    cases found with
    | none => simpa [rejectName, eq_comm] using rest
    | some finding =>
      cases probe : call.probe with
      | true =>
        rw [rejectName_probe probe] at rest
        cases rest
      | false =>
        rw [rejectName_full probe] at rest
        rw [← gives_ret.mp (gives_printed.mp rest).2]
        simp [Finding.report]
  | count parts message =>
    obtain ⟨count, counted, rest⟩ := gives_bind.mp gives
    obtain ⟨passed, each, rfl⟩ := probes_passed known counted
    obtain ⟨-, rfl⟩ := gives_settle.mp rest
    refine ⟨_, .count each, ?_⟩
    cases message (passed.count true) with
    | none => rfl
    | some text => simp [Finding.report]
  | branch cond thenSchema elseSchema val =>
    obtain ⟨pass, probed, rest⟩ := gives_bind.mp gives
    have condition := probe_passed known probed
    cases chosen : (if pass then thenSchema else elseSchema) with
    | none =>
      rw [chosen] at rest
      exact ⟨none, .skipped condition chosen, (gives_ret.mp rest).symm⟩
    | some schema =>
      rw [chosen] at rest
      obtain ⟨found, inner, rfl⟩ := known _ _ (gives_call.mp rest)
      exact ⟨found, .taken condition chosen inner, rfl⟩

theorem Runs.of_gives
    (gives : Gives answers (firstError (Check.enact call) list) reply) :
    ∃ found, Runs (Judges lib store) list found ∧ reply = found.map (Finding.report call) := by
  induction list with
  | nil => exact ⟨none, .nil, (gives_ret.mp gives).symm⟩
  | cons check list ih =>
    rw [firstError, andThen] at gives
    obtain ⟨first, gave, rest⟩ := gives_bind.mp gives
    obtain ⟨found, finds, rfl⟩ := Check.Finds.of_gives known gave
    cases found with
    | none =>
      obtain ⟨found, runs, same⟩ := ih rest
      exact ⟨found, .pass finds runs, same⟩
    | some finding => exact ⟨some finding, .stop finds, (gives_ret.mp rest).symm⟩

/-- A check that gives a result has its calls answered and does not break. -/
theorem Check.settled (gives : Gives answers (check.enact call) reply) :
    (∀ inner, check.Calls (Judges lib store) call inner → ∃ reply, answers inner reply) ∧
      ¬ check.Breaks (Judges lib store) call := by
  cases check with
  | own place result =>
    obtain ⟨short, rest⟩ := gives_descend.mp gives
    refine ⟨nofun, fun breaks => ?_⟩
    cases breaks with
    | fault => cases rest
    | message long => exact (gives_settle.mp rest).1 _ rfl long
    | ownPlace below long => exact short below long
  | part place schema val =>
    obtain ⟨short, rest⟩ := gives_descend.mp gives
    refine ⟨fun inner calls => ?_, fun breaks => ?_⟩
    · cases calls
      exact ⟨_, gives_call.mp rest⟩
    · cases breaks with
      | partPlace below long => exact short below long
  | name names key =>
    obtain ⟨reply, asked, rest⟩ := gives_bind.mp gives
    have answered := gives_call.mp asked
    obtain ⟨found, inner, rfl⟩ := known _ _ answered
    refine ⟨fun inner calls => ?_, fun breaks => ?_⟩
    · cases calls
      exact ⟨_, answered⟩
    · cases breaks with
      | sentinel refused probe =>
        rw [inner.unique refused, rejectName_probe probe] at rest
        cases rest
      | name refused long =>
        rw [inner.unique refused] at rest
        cases probe : call.probe with
        | true =>
          rw [rejectName_probe probe] at rest
          cases rest
        | false =>
          rw [rejectName_full probe] at rest
          exact (gives_printed.mp rest).1 long
  | count parts message =>
    obtain ⟨count, counted, rest⟩ := gives_bind.mp gives
    refine ⟨fun inner calls => ?_, fun breaks => ?_⟩
    · cases calls with
      | probe member =>
        exact probes_answered counted member
    · cases breaks with
      | count each refused long =>
        obtain ⟨passed, again, rfl⟩ := probes_passed known counted
        rw [counts_unique (fun _ _ _ _ first second => first.unique second) each again] at refused
        exact (gives_settle.mp rest).1 _ refused long
  | branch cond thenSchema elseSchema val =>
    obtain ⟨pass, probed, rest⟩ := gives_bind.mp gives
    refine ⟨fun inner calls => ?_, nofun⟩
    cases calls with
    | condition =>
      obtain ⟨reply, asked, -⟩ := gives_bind.mp probed
      exact ⟨reply, gives_call.mp asked⟩
    | taken condition chosen =>
      have passed := probe_passed known probed
      rw [passed.unique (fun _ _ _ _ first second => first.unique second) condition, chosen] at rest
      exact ⟨_, gives_call.mp rest⟩

/-- A check whose calls are answered and that does not break gives a result. -/
theorem Check.gives
    (answered : ∀ inner, check.Calls (Judges lib store) call inner → ∃ reply, answers inner reply)
    (unbroken : ¬ check.Breaks (Judges lib store) call) :
    ∃ reply, Gives answers (check.enact call) reply := by
  cases check with
  | own place result =>
    cases result with
    | error fault => exact absurd .fault unbroken
    | ok message =>
      refine ⟨_, gives_descend.mpr ⟨fun below long => unbroken (.ownPlace below long),
        gives_settle.mpr ⟨fun text refused long => ?_, rfl⟩⟩⟩
      subst refused
      exact unbroken (.message long)
  | part place schema val =>
    obtain ⟨reply, asked⟩ := answered _ .part
    exact ⟨reply, gives_descend.mpr ⟨fun below long => unbroken (.partPlace below long),
      gives_call.mpr asked⟩⟩
  | name names key =>
    obtain ⟨reply, asked⟩ := answered _ .name
    obtain ⟨found, inner, rfl⟩ := known _ _ asked
    suffices rest : ∃ result, Gives answers (rejectName call key (found.map (Finding.report _)))
        result by
      obtain ⟨result, rest⟩ := rest
      exact ⟨result, gives_bind.mpr ⟨_, gives_call.mpr asked, rest⟩⟩
    cases found with
    | none => exact ⟨none, .ret⟩
    | some finding =>
      obtain probe | probe := Bool.eq_false_or_eq_true call.probe
      · exact absurd (.sentinel inner probe) unbroken
      · rw [rejectName_full probe]
        exact ⟨_, gives_printed.mpr ⟨fun long => unbroken (.name inner long), .ret⟩⟩
  | count parts message =>
    obtain ⟨count, counted⟩ := probes_give fun schema val member => answered _ (.probe member)
    obtain ⟨passed, each, rfl⟩ := probes_passed known counted
    exact ⟨_, gives_bind.mpr ⟨_, counted, gives_settle.mpr
      ⟨fun text refused long => unbroken (.count each refused long), rfl⟩⟩⟩
  | branch cond thenSchema elseSchema val =>
    obtain ⟨pass, probed⟩ := probe_gives cond val fun part same => by
      subst same
      exact answered _ .condition
    have condition := probe_passed known probed
    suffices rest : ∃ result, Gives answers (validateBranch { call with val := val }
        (if pass then thenSchema else elseSchema)) result by
      obtain ⟨result, rest⟩ := rest
      exact ⟨result, gives_bind.mpr ⟨pass, probed, rest⟩⟩
    cases chosen : (if pass then thenSchema else elseSchema) with
    | none => exact ⟨none, .ret⟩
    | some schema =>
      obtain ⟨reply, asked⟩ := answered _ (.taken condition chosen)
      exact ⟨reply, gives_call.mpr asked⟩

/-- In a run that gives a result every check that is reached gives one. -/
theorem reached_gives {before after : List Check}
    (gives : Gives answers (firstError (Check.enact call) (before ++ check :: after)) reply)
    (passed : ∀ earlier ∈ before, earlier.Finds (Judges lib store) none) :
    ∃ result, Gives answers (check.enact call) result := by
  induction before with
  | nil =>
    obtain ⟨result, first, -⟩ := gives_bind.mp gives
    exact ⟨result, first⟩
  | cons head before ih =>
    obtain ⟨result, first, rest⟩ := gives_bind.mp gives
    obtain ⟨found, finds, rfl⟩ := Check.Finds.of_gives known first
    obtain rfl := (passed head (by simp)).decides finds
    exact ih rest fun earlier member => passed earlier (by simp [member])

end

/-- A validation that returns reports the verdict of the rules. -/
theorem returns_judged (returned : Returns (validateImpl lib store) call reply) :
    ∃ found, Judges lib store call.schema call.val found ∧ reply = found.map (Finding.report call) := by
  apply returned.induct
  intro call reply gives
  cases named : call.schema with
  | none =>
    unfold validateImpl at gives
    rw [named] at gives
    cases gives
  | some schema =>
    rw [validateImpl_checks named] at gives
    obtain ⟨found, runs, same⟩ := Runs.of_gives (fun _ _ answered => answered.2) gives
    exact ⟨found, judges_iff.mpr runs, same⟩

theorem untroubled_of_returns (returned : Returns (validateImpl lib store) call reply) :
    Untroubled lib store call := by
  apply returned.induct
  intro call reply gives
  have known (asked : Call) (reply : Option Err)
      (answered : Returns (validateImpl lib store) asked reply ∧ Untroubled lib store asked) :=
    returns_judged answered.1
  have settled {schema : SchemaId} {check : Check} (named : call.schema = some schema)
      (reached : Reached lib store schema call.val check) :
      (∀ inner, check.Calls (Judges lib store) call inner → ∃ reply,
        Returns (validateImpl lib store) inner reply ∧ Untroubled lib store inner) ∧
          ¬ check.Breaks (Judges lib store) call := by
    obtain ⟨before, after, split, passed⟩ := reached
    rw [validateImpl_checks named, split] at gives
    obtain ⟨result, gave⟩ := reached_gives known gives passed
    exact Check.settled known gave
  constructor
  · intro breaks
    cases breaks with
    | noSchema missing =>
      unfold validateImpl at gives
      rw [missing] at gives
      cases gives
    | check named reached breaks => exact (settled named reached).2 breaks
  · intro inner makes
    cases makes with
    | check named reached calls =>
      obtain ⟨_, answered⟩ := (settled named reached).1 inner calls
      exact answered.2

theorem returns_of_untroubled (untroubled : Untroubled lib store call) :
    ∃ reply, Returns (validateImpl lib store) call reply := by
  induction untroubled with
  | @intro call unbroken _ ih =>
    cases named : call.schema with
    | none => exact absurd (.noSchema named) unbroken
    | some schema =>
      suffices rest : ∀ before after, checks lib store schema call.val = before ++ after →
          (∀ earlier ∈ before, earlier.Finds (Judges lib store) none) →
          ∃ reply, Gives (Returns (validateImpl lib store)) (firstError (Check.enact call) after)
            reply by
        obtain ⟨reply, gives⟩ := rest [] (checks lib store schema call.val) rfl nofun
        rw [← validateImpl_checks named] at gives
        exact ⟨reply, returns_iff.mpr gives⟩
      intro before after split passed
      induction after generalizing before with
      | nil => exact ⟨none, .ret⟩
      | cons check after next =>
        have reached : Reached lib store schema call.val check := ⟨before, after, split, passed⟩
        obtain ⟨reply, gives⟩ := Check.gives (fun _ _ => returns_judged)
          (fun inner calls => ih inner (.check named reached calls))
          fun breaks => unbroken (.check named reached breaks)
        obtain ⟨found, finds, rfl⟩ := Check.Finds.of_gives (fun _ _ => returns_judged) gives
        cases found with
        | some finding => exact ⟨_, gives_bind.mpr ⟨_, gives, .ret⟩⟩
        | none =>
          obtain ⟨reply, others⟩ := next (before ++ [check]) (by simpa using split) <| by
            intro earlier member
            obtain member | rfl := by simpa using member
            · exact passed earlier member
            · exact finds
          exact ⟨reply, gives_bind.mpr ⟨none, gives, others⟩⟩

/-- A validation returns exactly where nothing that it comes to breaks. -/
theorem returns_iff_untroubled :
    (∃ reply, Returns (validateImpl lib store) call reply) ↔ Untroubled lib store call :=
  ⟨fun ⟨_, returned⟩ => untroubled_of_returns returned, returns_of_untroubled⟩

/-- A value is accepted exactly where the rules accept it and nothing breaks. -/
theorem returns_none_iff : Returns (validateImpl lib store) call none ↔
    Judges lib store call.schema call.val none ∧ Untroubled lib store call := by
  constructor
  · intro returned
    obtain ⟨found, judges, same⟩ := returns_judged returned
    obtain rfl : found = none := by simpa using same.symm
    exact ⟨judges, untroubled_of_returns returned⟩
  · rintro ⟨judges, untroubled⟩
    obtain ⟨reply, returned⟩ := returns_of_untroubled untroubled
    obtain ⟨found, again, rfl⟩ := returns_judged returned
    obtain rfl := again.unique judges
    exact returned

end

end Libgoc.Schema
