import Mathlib.Data.List.Forall2
import Mathlib.Logic.Relation

namespace Libgoc.Semantics

/-! # General recursion

The body of a recursive procedure is a finite tree of the calls it makes: at
each call it goes on with the answer, and it ends with a value or a fault.  The
procedure is run with a bound on the depth of its calls.  Facts about all runs
follow from facts about the one body: what it can ask, how it ends, and how the
bodies of two related calls are related.
-/

/-- A computation that asks questions, and ends with a value or a fault. -/
inductive General (Q A F β : Type) where
  | ret (value : β)
  | fail (fault : F)
  | ask (question : Q) (next : A → General Q A F β)

/-- The result of a bounded run. -/
inductive Outcome (F β : Type) where
  | done (value : β)
  | failed (fault : F)
  | running
deriving Repr, DecidableEq

namespace General

variable {Q A F β γ : Type}

protected def bind : General Q A F β → (β → General Q A F γ) → General Q A F γ
  | .ret value, next => next value
  | .fail fault, _ => .fail fault
  | .ask question rest, next => .ask question fun answer => (rest answer).bind next

instance : Monad (General Q A F) where
  pure := .ret
  bind := General.bind

def call (question : Q) : General Q A F A :=
  .ask question .ret

def run (answer : Q → Outcome F A) : General Q A F β → Outcome F β
  | .ret value => .done value
  | .fail fault => .failed fault
  | .ask question next =>
    match answer question with
    | .done reply => (next reply).run answer
    | .failed fault => .failed fault
    | .running => .running

/-- Run a procedure with calls nested at most `fuel` deep. -/
def evaluate (body : Q → General Q A F A) : Nat → Q → Outcome F A
  | 0, _ => .running
  | fuel + 1, question => (body question).run (evaluate body fuel)

def Returns (body : Q → General Q A F A) (question : Q) (answer : A) : Prop :=
  ∃ fuel, evaluate body fuel question = .done answer

/-- The value of a computation whose questions are answered by `answers`. -/
inductive Gives (answers : Q → A → Prop) : General Q A F β → β → Prop where
  | ret : Gives answers (.ret value) value
  | ask (answered : answers question answer) (rest : Gives answers (next answer) value) :
      Gives answers (.ask question next) value

/-- The questions that come up when the earlier ones are answered. -/
inductive Asks (answers : Q → A → Prop) : General Q A F β → Q → Prop where
  | here : Asks answers (.ask question next) question
  | later (answered : answers question answer) (rest : Asks answers (next answer) other) :
      Asks answers (.ask question next) other

/-- What a computation can ask at all, and how it can fail. -/
inductive Within (asked : Q → Prop) (fails : F → Prop) : General Q A F β → Prop where
  | ret : Within asked fails (.ret value)
  | fail (failing : fails fault) : Within asked fails (.fail fault)
  | ask (here : asked question) (rest : ∀ answer, Within asked fails (next answer)) :
      Within asked fails (.ask question next)

variable {body : Q → General Q A F A} {answers : Q → A → Prop}

theorem run_mono (more : ∀ question, small question ≠ .running → large question = small question)
    {computation : General Q A F β} (ran : computation.run small = outcome)
    (finished : outcome ≠ .running) : computation.run large = outcome := by
  induction computation with
  | ret value => exact ran
  | fail fault => exact ran
  | ask question next ih =>
    simp only [run] at ran ⊢
    cases answered : small question with
    | done reply =>
      rw [more question (by simp [answered]), answered]
      rw [answered] at ran
      exact ih reply ran
    | failed fault =>
      rw [more question (by simp [answered]), answered]
      rw [answered] at ran
      exact ran
    | running =>
      rw [answered] at ran
      exact absurd ran.symm finished

theorem evaluate_succ (finished : evaluate body fuel question ≠ .running) :
    evaluate body (fuel + 1) question = evaluate body fuel question := by
  induction fuel generalizing question with
  | zero => exact absurd rfl finished
  | succ fuel ih => exact run_mono (fun _ => ih) rfl finished

theorem evaluate_mono (enough : fuel ≤ more) (finished : evaluate body fuel question ≠ .running) :
    evaluate body more question = evaluate body fuel question := by
  induction enough with
  | refl => rfl
  | step _ ih => rw [evaluate_succ (by rw [ih]; exact finished), ih]

theorem Returns.unique (left : Returns body question first)
    (right : Returns body question second) : first = second := by
  obtain ⟨fuel, leftRun⟩ := left
  obtain ⟨other, rightRun⟩ := right
  have leftMax := evaluate_mono (Nat.le_max_left fuel other) (by rw [leftRun]; simp)
  have rightMax := evaluate_mono (Nat.le_max_right fuel other) (by rw [rightRun]; simp)
  rw [leftMax, leftRun] at rightMax
  rw [rightRun] at rightMax
  cases rightMax
  rfl

@[simp]
theorem gives_ret :
    Gives answers (.ret value : General Q A F β) result ↔ value = result := by
  constructor
  · rintro ⟨⟩
    rfl
  · rintro rfl
    exact .ret

@[simp]
theorem gives_fail :
    ¬ Gives answers (.fail fault : General Q A F β) result := by
  rintro ⟨⟩

@[simp]
theorem gives_call :
    Gives answers (call question : General Q A F A) answer ↔ answers question answer := by
  constructor
  · rintro (_ | ⟨answered, ⟨⟩⟩)
    exact answered
  · intro answered
    exact .ask answered .ret

theorem gives_bind :
    Gives answers (computation >>= next) result ↔
      ∃ value, Gives answers computation value ∧ Gives answers (next value) result := by
  constructor
  · intro gives
    induction computation with
    | ret value => exact ⟨value, .ret, gives⟩
    | fail fault => exact absurd gives gives_fail
    | ask question rest ih =>
      cases gives with
      | ask answered gives =>
        obtain ⟨value, first, second⟩ := ih _ gives
        exact ⟨value, .ask answered first, second⟩
  · rintro ⟨value, first, second⟩
    induction first with
    | ret => exact second
    | ask answered _ ih => exact .ask answered (ih second)

theorem returns_iff :
    Returns body question answer ↔ Gives (Returns body) (body question) answer := by
  constructor
  · rintro ⟨fuel, ran⟩
    cases fuel with
    | zero => cases ran
    | succ fuel =>
      simp only [evaluate] at ran
      generalize body question = computation at ran
      induction computation with
      | ret value =>
        cases ran
        exact .ret
      | fail fault => cases ran
      | ask asked next ih =>
        simp only [run] at ran
        cases answered : evaluate body fuel asked with
        | done reply =>
          rw [answered] at ran
          exact .ask ⟨fuel, answered⟩ (ih reply ran)
        | failed fault =>
          simp [answered] at ran
        | running =>
          simp [answered] at ran
  · intro gives
    suffices enough : ∃ fuel, (body question).run (evaluate body fuel) = .done answer by
      obtain ⟨fuel, ran⟩ := enough
      exact ⟨fuel + 1, ran⟩
    generalize body question = computation at gives
    induction gives with
    | ret => exact ⟨0, rfl⟩
    | ask answered _ ih =>
      obtain ⟨fuel, ran⟩ := ih
      obtain ⟨other, replied⟩ := answered
      refine ⟨max fuel other, ?_⟩
      have larger := evaluate_mono (Nat.le_max_right fuel other) (by rw [replied]; simp)
      simp only [run, larger, replied]
      apply run_mono _ ran (by simp)
      intro other finished
      exact evaluate_mono (Nat.le_max_left _ _) finished

theorem Gives.mono {more : Q → A → Prop} (gives : Gives answers computation value)
    (weaker : ∀ question answer, answers question answer → more question answer) :
    Gives more computation value := by
  induction gives with
  | ret => exact .ret
  | ask answered _ ih => exact .ask (weaker _ _ answered) ih

/-- The answers that a computation goes by are those to its questions. -/
theorem Gives.asked (gives : Gives answers computation value) :
    Gives (fun question answer => answers question answer ∧ Asks answers computation question)
      computation value := by
  induction gives with
  | ret => exact .ret
  | ask answered _ ih =>
    refine .ask ⟨answered, .here⟩ (ih.mono ?_)
    rintro question answer ⟨given, asks⟩
    exact ⟨given, .later answered asks⟩

/-- The calls made in the course of a call. -/
def Examines (body : Q → General Q A F A) (asked question : Q) : Prop :=
  Asks (Returns body) (body question) asked

theorem asked_within (ran : computation.run (evaluate body fuel) = .done value)
    (asks : Asks (Returns body) computation question) :
    ∃ answer, evaluate body fuel question = .done answer := by
  induction asks with
  | @here question next =>
    simp only [run] at ran
    cases answered : evaluate body fuel question with
    | done reply => exact ⟨reply, rfl⟩
    | failed fault =>
      simp [answered] at ran
    | running =>
      simp [answered] at ran
  | @later question answer next other answered _ ih =>
    simp only [run] at ran
    cases replied : evaluate body fuel question with
    | done reply =>
      rw [replied] at ran
      rw [Returns.unique answered ⟨fuel, replied⟩] at ih
      exact ih ran
    | failed fault =>
      simp [replied] at ran
    | running =>
      simp [replied] at ran

/-- The calls made in the course of a call that returns do not nest forever. -/
theorem Returns.acc (returned : Returns body question answer) : Acc (Examines body) question := by
  obtain ⟨fuel, ran⟩ := returned
  induction fuel generalizing question answer with
  | zero => cases ran
  | succ fuel ih =>
    constructor
    intro asked asks
    obtain ⟨reply, replied⟩ := asked_within ran asks
    exact ih replied

/-- What holds of the answers of all calls when each body keeps it. -/
theorem Returns.induct {spec : Q → A → Prop} (keeps : ∀ question answer,
      Gives (fun asked reply => Returns body asked reply ∧ spec asked reply) (body question) answer →
        spec question answer)
    (returned : Returns body question answer) : spec question answer := by
  induction returned.acc generalizing answer with
  | intro question _ ih =>
    apply keeps
    refine (returns_iff.mp returned).asked.mono ?_
    rintro asked reply ⟨again, asks⟩
    exact ⟨again, ih asked asks again⟩

theorem evaluate_le (enough : fuel ≤ more)
    (finished : outcome ≠ .running) (ran : evaluate body fuel question = outcome) :
    evaluate body more question = outcome := by
  rw [evaluate_mono enough (by rw [ran]; exact finished), ran]

/-- A computation whose calls come to an end comes to an end. -/
theorem run_ends (asked : ∀ question, Asks (Returns body) computation question →
      ∃ fuel outcome, evaluate body fuel question = outcome ∧ outcome ≠ .running) :
    ∃ fuel outcome, computation.run (evaluate body fuel) = outcome ∧ outcome ≠ .running := by
  induction computation with
  | ret value => exact ⟨0, .done value, rfl, by simp⟩
  | fail fault => exact ⟨0, .failed fault, rfl, by simp⟩
  | ask question next ih =>
    obtain ⟨fuel, outcome, ran, finished⟩ := asked question .here
    match outcome with
    | .running => exact absurd rfl finished
    | .failed fault => exact ⟨fuel, .failed fault, by simp only [run, ran], by simp⟩
    | .done reply =>
      obtain ⟨more, result, rest, ended⟩ :=
        ih reply fun other asks => asked other (.later ⟨fuel, ran⟩ asks)
      refine ⟨max fuel more, result, ?_, ended⟩
      simp only [run, evaluate_le (Nat.le_max_left fuel more) finished ran]
      apply run_mono _ rest ended
      intro other done
      exact evaluate_mono (Nat.le_max_right fuel more) done

/-- A call whose calls do not nest forever returns or faults. -/
theorem evaluate_ends (accessible : Acc (Examines body) question) :
    ∃ fuel outcome, evaluate body fuel question = outcome ∧ outcome ≠ .running := by
  induction accessible with
  | intro question _ ih =>
    obtain ⟨fuel, outcome, ran, finished⟩ := run_ends ih
    exact ⟨fuel + 1, outcome, ran, finished⟩

section

variable {asked wider : Q → Prop} {fails weaker : F → Prop} {computation : General Q A F β}

theorem Within.mono (within : Within asked fails computation)
    (questions : ∀ question, asked question → wider question)
    (faults : ∀ fault, fails fault → weaker fault) : Within wider weaker computation := by
  induction within with
  | ret => exact .ret
  | fail failing => exact .fail (faults _ failing)
  | ask here _ ih => exact .ask (questions _ here) ih

theorem Within.call {question : Q} (here : asked question) :
    Within asked fails (General.call question : General Q A F A) :=
  .ask here fun _ => .ret

theorem Within.bind (within : Within asked fails computation)
    (rest : ∀ value, Within asked fails (next value)) : Within asked fails (computation >>= next) := by
  induction within with
  | ret => exact rest _
  | fail failing => exact .fail failing
  | ask here _ ih => exact .ask here ih

theorem Within.asks (within : Within asked fails computation)
    (asks : Asks answers computation question) : asked question := by
  induction asks with
  | here =>
    cases within with
    | ask here => exact here
  | later _ _ ih =>
    cases within with
    | ask _ rest => exact ih (rest _)

theorem Within.failed (within : Within asked fails computation)
    (inner : ∀ question, asked question → answer question = .failed fault → fails fault)
    (ran : computation.run answer = .failed fault) : fails fault := by
  induction within with
  | ret => cases ran
  | fail failing =>
    cases ran
    exact failing
  | @ask question _ here _ ih =>
    simp only [run] at ran
    cases answered : answer question with
    | done reply =>
      rw [answered] at ran
      exact ih reply ran
    | failed found =>
      rw [answered] at ran
      cases ran
      exact inner question here answered
    | running => simp [answered] at ran

theorem evaluate_failed (within : ∀ question, asked question → Within asked fails (body question))
    (start : asked question) (ran : evaluate body fuel question = .failed fault) : fails fault := by
  induction fuel generalizing question with
  | zero => cases ran
  | succ fuel ih => exact (within question start).failed (fun _ => ih) ran

end

variable {ι ε : Type}

def andThen (first rest : General Q A F (Option ε)) : General Q A F (Option ε) :=
  first >>= fun found =>
    match found with
    | some error => .ret (some error)
    | none => rest

def firstError (visit : ι → General Q A F (Option ε)) : List ι → General Q A F (Option ε)
  | [] => .ret none
  | item :: rest => andThen (visit item) (firstError visit rest)

def countMatches (test : ι → General Q A F Bool) : List ι → General Q A F Nat
  | [] => .ret 0
  | item :: rest => test item >>= fun passed =>
    countMatches test rest >>= fun count => .ret (if passed then count + 1 else count)

section

variable {first rest : General Q A F (Option ε)} {visit : ι → General Q A F (Option ε)}
  {test : ι → General Q A F Bool} {items : List ι} {question : Q}

theorem bind_bind {δ : Type} {computation : General Q A F β} {next : β → General Q A F γ}
    {last : γ → General Q A F δ} :
    computation >>= next >>= last = computation >>= fun value => next value >>= last := by
  induction computation with
  | ret value => rfl
  | fail fault => rfl
  | ask question rest ih => exact congrArg (General.ask question) (funext ih)

theorem andThen_none : andThen first (.ret none) = first := by
  induction first with
  | ret value => cases value <;> rfl
  | fail fault => rfl
  | ask question rest ih => exact congrArg (General.ask question) (funext ih)

theorem andThen_assoc {last : General Q A F (Option ε)} :
    andThen (andThen first rest) last = andThen first (andThen rest last) := by
  unfold andThen
  rw [bind_bind]
  congr 1
  funext found
  cases found <;> rfl

@[simp]
theorem firstError_singleton {item : ι} : firstError visit [item] = visit item :=
  andThen_none

@[simp]
theorem firstError_append {others : List ι} :
    firstError visit (items ++ others) = andThen (firstError visit items) (firstError visit others) := by
  induction items with
  | nil => rfl
  | cons item items ih => simp only [List.cons_append, firstError, ih, andThen_assoc]

@[simp]
theorem firstError_map {κ : Type} {item : κ → ι} {list : List κ} :
    firstError visit (list.map item) = firstError (fun other => visit (item other)) list := by
  induction list with
  | nil => rfl
  | cons first list ih => simp only [List.map_cons, firstError, ih]

@[simp]
theorem firstError_flatMap {κ : Type} {all : κ → List ι} {list : List κ} :
    firstError visit (list.flatMap all) = firstError (fun other => firstError visit (all other)) list := by
  induction list with
  | nil => rfl
  | cons first list ih => rw [List.flatMap_cons, firstError_append, firstError, ih]

theorem countMatches_map {κ : Type} {item : κ → ι} {list : List κ} :
    countMatches test (list.map item) = countMatches (fun other => test (item other)) list := by
  induction list with
  | nil => rfl
  | cons first list ih => simp only [List.map_cons, countMatches, ih]

@[simp]
theorem gives_andThen_none :
    Gives answers (andThen first rest) none ↔ Gives answers first none ∧ Gives answers rest none := by
  rw [andThen, gives_bind]
  constructor
  · rintro ⟨found, gives, others⟩
    cases found with
    | none => exact ⟨gives, others⟩
    | some error => simp at others
  · rintro ⟨gives, others⟩
    exact ⟨none, gives, others⟩

@[simp]
theorem gives_andThen_some : Gives answers (andThen first rest) (some error) ↔
      Gives answers first (some error) ∨
        Gives answers first none ∧ Gives answers rest (some error) := by
  rw [andThen, gives_bind]
  constructor
  · rintro ⟨found, gives, others⟩
    cases found with
    | none => exact .inr ⟨gives, others⟩
    | some found =>
      obtain rfl : found = error := by simpa using others
      exact .inl gives
  · rintro (gives | ⟨gives, others⟩)
    · exact ⟨some error, gives, .ret⟩
    · exact ⟨none, gives, others⟩

@[simp]
theorem gives_firstError_none : Gives answers (firstError visit items) none ↔
      ∀ item ∈ items, Gives answers (visit item) none := by
  induction items with
  | nil => simp [firstError]
  | cons item rest ih => simp [firstError, ih]

theorem gives_firstError_some (gives : Gives answers (firstError visit items) (some error)) :
    ∃ item ∈ items, Gives answers (visit item) (some error) := by
  induction items with
  | nil => simp [firstError] at gives
  | cons item rest ih =>
    rw [firstError, gives_andThen_some] at gives
    obtain gives | ⟨-, gives⟩ := gives
    · exact ⟨item, by simp, gives⟩
    · obtain ⟨found, member, gives⟩ := ih gives
      exact ⟨found, by simp [member], gives⟩

theorem gives_countMatches : Gives answers (countMatches test items) count ↔
      ∃ passed : List Bool,
        List.Forall₂ (fun item pass => Gives answers (test item) pass) items passed ∧
          passed.count true = count := by
  induction items generalizing count with
  | nil => simp [countMatches]
  | cons item rest ih =>
    simp only [countMatches, gives_bind, ih, gives_ret]
    constructor
    · rintro ⟨pass, gives, _, ⟨passed, all, rfl⟩, rfl⟩
      refine ⟨pass :: passed, .cons gives all, ?_⟩
      cases pass <;> simp
    · rintro ⟨_, _ | ⟨gives, all⟩, counted⟩
      rename_i pass passed
      refine ⟨pass, gives, _, ⟨passed, all, rfl⟩, ?_⟩
      rw [← counted]
      cases pass <;> simp

theorem Within.firstError {asked : Q → Prop} {fails : F → Prop}
    (each : ∀ item ∈ items, Within asked fails (visit item)) :
    Within asked fails (General.firstError visit items) := by
  induction items with
  | nil => exact .ret
  | cons item rest ih =>
    apply (each item (by simp)).bind
    intro found
    cases found with
    | none => exact ih fun other member => each other (by simp [member])
    | some error => exact .ret

theorem Within.countMatches {asked : Q → Prop} {fails : F → Prop}
    (each : ∀ item ∈ items, Within asked fails (test item)) :
    Within asked fails (General.countMatches test items) := by
  induction items with
  | nil => exact .ret
  | cons item rest ih =>
    apply (each item (by simp)).bind
    intro _
    exact (ih fun other member => each other (by simp [member])).bind fun _ => .ret

end

def SameVerdict {ε' : Type} (found : Option ε) (found' : Option ε') : Prop :=
  found.isSome = found'.isSome

end General

end Libgoc.Semantics
