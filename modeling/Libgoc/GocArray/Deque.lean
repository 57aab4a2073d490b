import Libgoc.GocArray.Refinement

namespace Libgoc.GocArray

open Libgoc.Data Libgoc.Semantics Function

/-! # Runs on arrays -/

def Op.run (items : List α) : List (Op α) → Option (List α × List (Option α))
  | [] => some (items, [])
  | op :: rest =>
    (op.apply items).bind fun made =>
      (Op.run made.1 rest).map fun done => (done.1, made.2 :: done.2)

def Label.on (arr : ArrId) : Label α → Option (Op α)
  | .op target performed => if target = arr then some performed else none
  | _ => none

section

variable {α : Type u} [Inhabited α] {state after : State α} {header : Header} {arr : ArrId}
  {label : Label α}

/-- What a constructor puts in the new array. -/
def Label.creates (state : State α) : Label α → Option (List α)
  | .make _ => some []
  | .from items => some items
  | .copy arr => (state.arrays arr).map state.contents
  | .concat a b => (state.arrays a).bind fun first => (state.arrays b).map fun second =>
    state.contents first ++ state.contents second
  | .slice arr start stop => (state.arrays arr).bind fun header =>
    if start ≤ stop ∧ stop ≤ header.len
    then some (((state.contents header).take stop).drop start) else none
  | .op _ _ => none

def returned (arr : ArrId) : State α → List (Label α) → List (Option α)
  | _, [] => []
  | state, label :: rest =>
    match exec state label with
    | some (.ok (after, result)) =>
      if (label.on arr).isSome then result :: returned arr after rest
      else returned arr after rest
    | _ => []

/-- A step on another array that writes to the store of `arr`. -/
def disturbs (state : State α) (arr : ArrId) : Label α → Bool
  | .op target op =>
    target ≠ arr && match state.arrays target, state.arrays arr with
      | some other, some header => op.writes other == some header.data
      | _, _ => false
  | _ => false

/-- A constructor makes an array with the elements it says, or aborts. -/
theorem exec_constructor (sound : Sound state) (room : roomy state label = true)
    (constructor_ : ∀ arr op, label ≠ .op arr op) (executed : exec state label = some outcome) :
    (label.creates state = none ∧ outcome = .error .abort) ∨
      ∃ items after, label.creates state = some items ∧ outcome = .ok (after, none) ∧
        Creates state items after := by
  cases label with
  | make initialCap =>
    simp only [roomy, decide_eq_true_eq] at room
    obtain ⟨-, rfl⟩ := guarded executed
    exact .inr ⟨_, _, rfl, rfl, gocArrayMake_creates sound room⟩
  | «from» items =>
    obtain ⟨bound, rfl⟩ := guarded executed
    exact .inr ⟨_, _, rfl, rfl, gocArrayFrom_creates sound bound⟩
  | copy arr =>
    obtain ⟨header, found, rfl⟩ := Option.map_eq_some_iff.mp executed
    obtain ⟨made, copied, creates⟩ := gocArrayCopy_creates sound found
    refine .inr ⟨_, made.1, ?_, ?_, creates⟩
    · simp [Label.creates, found]
    · rw [copied]
      rfl
  | concat a b =>
    obtain ⟨first, left, rest⟩ := Option.bind_eq_some_iff.mp executed
    obtain ⟨second, right, rfl⟩ := Option.map_eq_some_iff.mp rest
    simp only [roomy, left, right, decide_eq_true_eq] at room
    obtain ⟨made, joined, creates⟩ := gocArrayConcat_creates sound left right room
    refine .inr ⟨_, made.1, ?_, ?_, creates⟩
    · simp [Label.creates, left, right]
    · rw [joined]
      rfl
  | slice arr start stop =>
    obtain ⟨header, found, rfl⟩ := Option.map_eq_some_iff.mp executed
    by_cases valid : start ≤ stop ∧ stop ≤ header.len
    · obtain ⟨made, sliced, creates⟩ := gocArraySlice_creates sound found valid.1 valid.2
      refine .inr ⟨_, made.1, ?_, ?_, creates⟩
      · simp [Label.creates, found, valid]
      · rw [sliced]
        rfl
    · left
      constructor
      · simp [Label.creates, found, valid]
      · rw [gocArraySlice, if_pos (by omega)]
        rfl
  | op arr op => exact absurd rfl (constructor_ arr op)

theorem exec_op (found : state.arrays arr = some header) (op : Op α) :
    exec state (.op arr op) = some (execOp state arr header op) := by
  simp [exec, found]

theorem step_cases (sound : Sound state) (room : roomy state label = true)
    (stepped : step state label = some after) :
    (∃ items, (∀ arr, label.on arr = none) ∧ Creates state items after ∧
      exec state label = some (.ok (after, none))) ∨
    ∃ arr header op items result, label = .op arr op ∧ state.arrays arr = some header ∧
      op.apply (state.contents header) = some (items, result) ∧
      exec state label = some (.ok (after, result)) ∧
      Performs state arr (op.writes header) items after := by
  simp only [step] at stepped
  split at stepped
  · rename_i next result executed
    cases stepped
    by_cases isOp : ∃ arr op, label = .op arr op
    · obtain ⟨arr, op, rfl⟩ := isOp
      obtain ⟨header, found, executedOp⟩ := Option.map_eq_some_iff.mp executed
      obtain ⟨-, failed⟩ | ⟨items, value, reached, applied, performed, performs⟩ :=
        execOp_refines sound found op room
      · simp [failed] at executedOp
      · rw [performed] at executedOp
        cases executedOp
        exact .inr ⟨arr, header, op, items, result, rfl, found, applied, executed, performs⟩
    · have constructor_ : ∀ arr op, label ≠ .op arr op :=
        fun arr op same => isOp ⟨arr, op, same⟩
      obtain ⟨-, failed⟩ | ⟨items, made, -, succeeded, creates⟩ :=
        exec_constructor sound room constructor_ executed
      · cases failed
      · cases succeeded
        refine .inl ⟨items, ?_, creates, executed⟩
        intro arr
        cases label with
        | op target op => exact absurd rfl (constructor_ target op)
        | _ => rfl
  · cases stepped

omit [Inhabited α] in
theorem Frame.sound (frame : Frame written state after) (sound : Sound state)
    (arrays : after.arrays = update state.arrays target (some updated))
    (fits : updated.Fits after) (known : target < after.freshArr)
    (grows : state.freshArr ≤ after.freshArr) : Sound after := by
  refine ⟨?_, frame.bounded⟩
  intro arr header found
  rw [arrays] at found
  by_cases same : arr = target
  · subst same
    rw [update_self] at found
    cases found
    exact ⟨fits, known⟩
  · rw [update_of_ne same] at found
    obtain ⟨earlier, old⟩ := sound.arrays arr header found
    exact ⟨frame.fits earlier, Nat.lt_of_lt_of_le old grows⟩

theorem Sound.step (sound : Sound state) (room : roomy state label = true)
    (stepped : GocArray.step state label = some after) : Sound after := by
  obtain ⟨items, -, ⟨header, arrays, fresh, fits, -, frame⟩, -⟩ |
    ⟨arr, header, op, items, result, rfl, found, -, -, ⟨updated, arrays, fresh, fits, -, frame⟩⟩ :=
    step_cases sound room stepped
  · apply frame.sound sound arrays fits
    · rw [fresh]
      exact Nat.lt_succ_self _
    · rw [fresh]
      exact Nat.le_succ _
  · apply frame.sound sound arrays fits
    · rw [fresh]
      exact (sound.arrays arr header found).2
    · exact Nat.le_of_eq fresh.symm

theorem initialState_sound : Sound (initialState : State α) where
  arrays := fun arr header found => by cases found
  bounded := fun buf => by simp [initialState]

def Roomy (state : State α) (label : Label α) : Prop :=
  roomy state label = true

instance (state : State α) (label : Label α) : Decidable (Roomy state label) :=
  inferInstanceAs (Decidable (_ = true))

def Undisturbed (arr : ArrId) (state : State α) (label : Label α) : Prop :=
  Roomy state label ∧ disturbs state arr label = false

instance (arr : ArrId) (state : State α) (label : Label α) :
    Decidable (Undisturbed arr state label) :=
  inferInstanceAs (Decidable (_ ∧ _))

theorem sound_of_reachable (reachable : system.ReachableWith Roomy state) : Sound state := by
  apply reachable.invariant
  · intro start initial
    cases initial
    exact initialState_sound
  · intro before label after sound room stepped
    exact sound.step room stepped

/-- A step on something else leaves an array as it is. -/
theorem step_elsewhere (sound : Sound state) (room : Undisturbed arr state label)
    (found : state.arrays arr = some header) (elsewhere : label.on arr = none)
    (stepped : step state label = some after) :
    after.arrays arr = some header ∧ after.contents header = state.contents header := by
  obtain ⟨fits, old⟩ := sound.arrays arr header found
  obtain ⟨items, -, ⟨_, arrays, -, -, -, frame⟩, -⟩ |
    ⟨target, other, op, items, result, rfl, present, -, -, ⟨_, arrays, -, -, -, frame⟩⟩ :=
    step_cases sound room.1 stepped
  · rw [arrays, update_of_ne (Nat.ne_of_lt old)]
    exact ⟨found, frame.contents fits (by simp)⟩
  · have different : target ≠ arr := by
      intro same
      simp [Label.on, same] at elsewhere
    have apart := room.2
    simp only [disturbs, present, found, Bool.and_eq_false_iff, decide_eq_false_iff_not,
      not_not, beq_eq_false_iff_ne] at apart
    rw [arrays, update_of_ne different.symm]
    exact ⟨found, frame.contents fits (apart.resolve_left different)⟩

theorem step_here (sound : Sound state) (room : Roomy state (.op arr op))
    (found : state.arrays arr = some header) (stepped : step state (.op arr op) = some after) :
    ∃ updated result, after.arrays arr = some updated ∧
      op.apply (state.contents header) = some (after.contents updated, result) ∧
      exec state (.op arr op) = some (.ok (after, result)) := by
  obtain ⟨items, none_, -, -⟩ | ⟨target, other, _, items, result, same, present, applied, executed,
      ⟨updated, arrays, -, -, contents, -⟩⟩ := step_cases sound room stepped
  · have := none_ arr
    simp [Label.on] at this
  · cases same
    rw [found] at present
    cases present
    refine ⟨updated, result, ?_, ?_, executed⟩
    · rw [arrays, update_self]
    · rw [applied, contents]

theorem run_follows_deque (sound : Sound state) (found : state.arrays arr = some header)
    (ran : system.runWith (Undisturbed arr) state labels = some after) :
    ∃ updated, after.arrays arr = some updated ∧
      Op.run (state.contents header) (labels.filterMap (Label.on arr)) =
        some (after.contents updated, returned arr state labels) := by
  induction labels generalizing state header with
  | nil =>
    cases ran
    exact ⟨header, found, rfl⟩
  | cons label rest ih =>
    simp only [System.runWith] at ran
    split at ran
    case isFalse => cases ran
    case isTrue room =>
      split at ran
      case h_1 => cases ran
      case h_2 next stepped =>
        have nextSound := sound.step room.1 stepped
        cases performed : label.on arr with
        | none =>
          obtain ⟨present, contents⟩ := step_elsewhere sound room found performed stepped
          obtain ⟨updated, last, followed⟩ := ih nextSound present ran
          refine ⟨updated, last, ?_⟩
          rw [List.filterMap_cons_none performed, ← contents, followed]
          have executed : ∃ result, exec state label = some (.ok (next, result)) := by
            obtain ⟨_, -, -, executed⟩ | ⟨_, _, _, _, _, -, -, -, executed, -⟩ :=
              step_cases sound room.1 stepped
            · exact ⟨_, executed⟩
            · exact ⟨_, executed⟩
          obtain ⟨result, executed⟩ := executed
          simp [returned, executed, performed]
        | some op =>
          have same : label = .op arr op := by
            cases label with
            | op target other =>
              obtain ⟨same, rfl⟩ := guarded performed
              rw [same]
            | _ => cases performed
          subst same
          obtain ⟨changed, result, present, applied, executed⟩ :=
            step_here sound room.1 found stepped
          obtain ⟨updated, last, followed⟩ := ih nextSound present ran
          refine ⟨updated, last, ?_⟩
          rw [List.filterMap_cons_some performed]
          simp [Op.run, applied, followed, returned, executed, performed]

/-- What arrays guarantee in a state: every header is inside its store, no call
leaves it, constructors and operations have the effect they have on
double-ended lists, and so has every sequence of them. -/
structure DequeContract (state : State α) : Prop where
  within : ∀ arr header, state.arrays arr = some header →
    header.head + header.len ≤ header.cap ∧ header.cap ≤ (state.buffers header.data).size
  inBounds : ∀ label, Roomy state label → exec state label ≠ some (.error .outOfBounds)
  creates : ∀ label items, Roomy state label → label.creates state = some items →
    exec state label ≠ none → ∃ after header, exec state label = some (.ok (after, none)) ∧
      after.arrays state.freshArr = some header ∧ after.contents header = items
  operates : ∀ arr header op, state.arrays arr = some header → Roomy state (.op arr op) →
    (op.apply (state.contents header) = none ∧
      exec state (.op arr op) = some (.error .abort)) ∨
    ∃ after updated result, exec state (.op arr op) = some (.ok (after, result)) ∧
      after.arrays arr = some updated ∧
      op.apply (state.contents header) = some (after.contents updated, result)
  follows : ∀ arr header labels after, state.arrays arr = some header →
    system.runWith (Undisturbed arr) state labels = some after →
    ∃ updated, after.arrays arr = some updated ∧
      Op.run (state.contents header) (labels.filterMap (Label.on arr)) =
        some (after.contents updated, returned arr state labels)

theorem Sound.operates (sound : Sound state) (found : state.arrays arr = some header) (op : Op α)
    (room : Roomy state (.op arr op)) :
    (op.apply (state.contents header) = none ∧
      exec state (.op arr op) = some (.error .abort)) ∨
    ∃ after updated result, exec state (.op arr op) = some (.ok (after, result)) ∧
      after.arrays arr = some updated ∧
      op.apply (state.contents header) = some (after.contents updated, result) := by
  rw [exec_op found]
  obtain ⟨undefined, failed⟩ | ⟨items, result, after, applied, performed, performs⟩ :=
    execOp_refines sound found op room
  · exact .inl ⟨undefined, congrArg some failed⟩
  · obtain ⟨updated, arrays, -, -, contents, -⟩ := performs
    refine .inr ⟨after, updated, result, congrArg some performed, ?_, ?_⟩
    · rw [arrays, update_self]
    · rw [applied, contents]

theorem Sound.inBounds (sound : Sound state) (room : Roomy state label) :
    exec state label ≠ some (.error .outOfBounds) := by
  intro executed
  by_cases isOp : ∃ arr op, label = .op arr op
  · obtain ⟨arr, op, rfl⟩ := isOp
    obtain ⟨header, found, -⟩ := Option.map_eq_some_iff.mp executed
    obtain ⟨-, failed⟩ | ⟨after, updated, result, performed, -⟩ := sound.operates found op room
    · simp [failed] at executed
    · simp [performed] at executed
  · obtain ⟨-, failed⟩ | ⟨items, after, -, succeeded, -⟩ :=
      exec_constructor sound room (fun arr op same => isOp ⟨arr, op, same⟩) executed
    · cases failed
    · cases succeeded

theorem arrays_are_deques (reachable : system.ReachableWith Roomy state) : DequeContract state := by
  have sound := sound_of_reachable reachable
  constructor
  · intro arr header found
    have fits := (sound.arrays arr header found).1
    exact ⟨fits.live, fits.sized⟩
  · intro label room
    exact sound.inBounds room
  · intro label items room created defined
    obtain ⟨outcome, executed⟩ := Option.ne_none_iff_exists'.mp defined
    have constructor_ : ∀ arr op, label ≠ .op arr op := by
      rintro arr op rfl
      cases created
    obtain ⟨missing, -⟩ | ⟨_, after, same, rfl, header, arrays, -, -, contents, -⟩ :=
      exec_constructor sound room constructor_ executed
    · simp [missing] at created
    · rw [same] at created
      cases created
      refine ⟨after, header, executed, ?_, contents⟩
      rw [arrays, update_self]
  · intro arr header op found room
    exact sound.operates found op room
  · intro arr header labels after found ran
    exact run_follows_deque sound found ran

end

def grownRun : List (Label Nat) :=
  [.make 0, .op 0 (.push 1), .op 0 (.pushHead 0), .from [5, 6], .op 1 (.push 7), .concat 0 1,
    .slice 2 1 4, .op 3 .popHead]

theorem grownRun_is_deque : ∃ state : State Nat,
    system.runWith Roomy initialState grownRun = some state ∧ DequeContract state :=
  ⟨_, rfl, arrays_are_deques (.of_run system Roomy grownRun rfl rfl)⟩

/-- Seven elements from a C array: both a concatenation and an insertion at the
head write outside the new store. -/
theorem concat_leaves_store : ∃ state : State Nat, system.Reachable state ∧
    exec state (.concat 0 0) = some (.error .outOfBounds) ∧
    exec state (.op 0 (.pushHead 9)) = some (.error .outOfBounds) :=
  ⟨_, .of_run system [.from [0, 1, 2, 3, 4, 5, 6]] rfl rfl, rfl, rfl⟩

end Libgoc.GocArray
