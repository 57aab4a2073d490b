import Libgoc.Channel.Attempts

namespace Libgoc.Channel

open Libgoc.Data Libgoc.Semantics Relation

/-! # Every step is a number of preparations and one change -/

/-- The arms a label may act on: those of the call it starts, of the pending
operation the loop thread takes up, or of the select it continues. -/
def Label.arms (state : State) : Label → List Arm
  | .take _ _ ch | .takeSync _ ch | .takeTry _ ch => [.take ch]
  | .put _ _ ch val | .putSync _ ch val => [.put ch val]
  | .drain =>
    match state.cbQueue with
    | [] => []
    | target :: _ =>
      if (state.ops target.op).stage = .pending then (state.ops target.op).arms else []
  | .altsTry op =>
    match (state.ops op).stage with
    | .scanning (arm :: _) => (state.ops op).arms[arm]?.toList
    | _ => []
  | .altsPark op =>
    if (state.ops op).stage = .scanning [] then (state.ops op).arms else []
  | _ => []

def Label.scope (state : State) (label : Label) : Scope where
  takes ch := .take ch ∈ label.arms state
  puts ch := ∃ val, .put ch val ∈ label.arms state
  early ch := ∃ op val, label = .altsTry op ∧ .put ch val ∈ label.arms state
  pending spec := label = .drain ∧ spec ∈ label.arms state
  selects := ∃ op caller arms order, label = .alts op caller arms order
  closes := ∃ closer, label = .closeBody closer
  installs ch := ∃ hook null, label = .setOnClose hook ch null

def Steps (scope : Scope) (state after : State) : Prop :=
  ∃ middle, ReflTransGen (Prepares scope) state middle ∧ Changes scope middle after

variable {state start final after : State} {scope : Scope} {op : OpId} {arm : Nat} {ch : ChanId}
  {spec : Arm}

theorem Steps.core (steps : Steps scope state after) (core : Core state) : Core after := by
  obtain ⟨middle, path, changes⟩ := steps
  exact (core.along path).changed changes

theorem Routine.steps (routine : Routine state after) : Steps scope state after :=
  ⟨state, .refl, .routine after routine⟩

theorem Controls.steps (controls : Controls scope state after) : Steps scope state after :=
  ⟨state, .refl, .control after controls⟩

theorem Attempted.steps (attempted : Attempted scope op arm ch spec start final attempt)
    (path : ReflTransGen (Prepares scope) state start) (ended : attempt ≠ .blocked)
    (calls : List Invocation) (invoked : Invoked op (attempt.result ch arm) calls) :
    Steps scope state (settle final op (attempt.result ch arm) calls) := by
  cases attempted with
  | settled middle _ _ tidies _ changes =>
    exact ⟨middle, path.trans tidies.path, changes calls invoked⟩
  | blocked => exact absurd rfl ended

theorem Attempted.tidied (attempted : Attempted scope op arm ch spec start final .blocked) :
    Tidies scope start final ∧ final.Stuck spec := by
  cases attempted with
  | settled _ _ _ _ ended => exact absurd rfl ended
  | blocked _ tidies stuck => exact ⟨tidies, stuck⟩

theorem Attempted.finishes (attempted : Attempted scope op arm ch spec start final attempt)
    (path : ReflTransGen (Prepares scope) state start) (ended : attempt ≠ .blocked) :
    Steps scope state (finish final op (attempt.result ch arm)) := by
  rw [← settle_nil]
  exact attempted.steps path ended [] (.inl rfl)

theorem Attempted.parks (attempted : Attempted scope op 0 ch spec start final .blocked)
    (path : ReflTransGen (Prepares scope) state start) (inFlight : (start.ops op).inFlight)
    (arms : (start.ops op).arms = [spec]) (order : (start.ops op).order = [0])
    (entries : Nat → Nat → Entry)
    (prepared : ∀ gen, (∀ self, (start.ops op).caller = .fiber self → gen = 1) →
      EntryFacts ⟨op, 0⟩ (start.ops op).caller (start.ops op).select (some spec) (entries gen 0))
    (fresh : ∀ gen arm, (entries gen arm).woken = false ∧ (entries gen arm).cancelled = false)
    (inScope : (start.ops op).caller = .callback → scope.pending spec) :
    Steps scope state (park final op entries) := by
  obtain ⟨tidies, stuck⟩ := attempted.tidied
  refine ⟨final, path.trans tidies.path, ?_⟩
  rw [← tidies.ops] at inFlight arms order prepared inScope
  refine .park op entries inFlight ?_ ?_ fresh (by simpa [arms] using inScope)
  · intro index member kind found
    rw [order, List.mem_singleton] at member
    rw [arms, member] at found
    cases found
    exact stuck
  · intro gen one index member
    simp only [order, List.mem_singleton] at member
    subst member
    simpa [arms] using prepared gen one

theorem plain_steps (spec : Arm) (entries : Nat → Nat → Entry)
    (ran : (match outcome with
      | none => none
      | some (next, .blocked) => some (park next op entries)
      | some (next, attempt) => some (finish next op (attempt.result ch 0))) = some after)
    (path : ReflTransGen (Prepares scope) state start)
    (tried : ∀ final attempt, outcome = some (final, attempt) →
      Attempted scope op 0 ch spec start final attempt)
    (inFlight : (start.ops op).inFlight) (arms : (start.ops op).arms = [spec])
    (order : (start.ops op).order = [0])
    (prepared : ∀ gen, (∀ self, (start.ops op).caller = .fiber self → gen = 1) →
      EntryFacts ⟨op, 0⟩ (start.ops op).caller (start.ops op).select (some spec) (entries gen 0))
    (fresh : ∀ gen arm, (entries gen arm).woken = false ∧ (entries gen arm).cancelled = false)
    (notCallback : (start.ops op).caller ≠ .callback) : Steps scope state after := by
  split at ran
  · cases ran
  · cases ran
    exact (tried _ _ rfl).parks path inFlight arms order entries prepared fresh
      (fun callback => absurd callback notCallback)
  · rename_i ended
    cases ran
    exact (tried _ _ rfl).finishes path ended

abbrev plainCall (caller : Caller) (spec : Arm) : Op :=
  { caller, arms := [spec], order := [0], stage := .running }

theorem enter_op (state : State) (op : OpId) (call : Op) : (enter state op call).ops op = call := by
  simp only [enter]
  split <;> simp [State.setOp, State.setFiber]

section PlainCall

variable (core : Core state) (absent : (state.ops op).stage = .absent) (caller : Caller)
  (idle : ∀ self, caller = .fiber self → (state.fibers self).busy = none)
  (notCallback : caller ≠ .callback)
include core absent idle notCallback

theorem plainCall_tried (spec : Arm)
    (tidies : Tidies scope (enter state op (plainCall caller spec)) start) :
    ReflTransGen (Prepares scope) state start ∧ Core start ∧ start.ops op = plainCall caller spec := by
  have entered : Prepares scope state (enter state op (plainCall caller spec)) :=
    .enter op caller [spec] [0] false .running absent idle (.inl rfl) (fun _ => rfl) (by simp)
      notCallback (by simp)
  exact ⟨.trans (.single entered) tidies.path, tidies.core (core.prepared entered),
    by rw [tidies.ops, enter_op]⟩

theorem takeCall_steps
    (tidies : Tidies scope (enter state op (plainCall caller (.take ch))) start)
    (inScope : scope.takes ch) (entry : Nat → Nat → Entry)
    (prepared : ∀ gen, (∀ self, caller = .fiber self → gen = 1) →
      EntryFacts ⟨op, 0⟩ caller false (some (.take ch)) (entry gen 0))
    (fresh : ∀ gen arm, (entry gen arm).woken = false ∧ (entry gen arm).cancelled = false)
    (ran : (match takeNow waker start ch ⟨op, 0⟩ with
      | none => none
      | some (next, .blocked) => some (park next op entry)
      | some (next, attempt) => some (finish next op (attempt.result ch 0))) = some after) :
    Steps scope state after := by
  obtain ⟨path, started, call⟩ := plainCall_tried core absent caller idle notCallback _ tidies
  have inFlight : (start.ops op).inFlight := by simp [call, Op.inFlight]
  refine plain_steps (.take ch) entry ran path (fun final attempt tried => ?_) inFlight
    (by rw [call]) (by rw [call]) (by simpa only [call] using prepared) fresh
    (by rw [call]; exact notCallback)
  exact takeNow_attempted started inFlight (by simp [call]) inScope tried

theorem putCall_steps
    (tidies : Tidies scope (enter state op (plainCall caller (.put ch val))) start)
    (inScope : scope.puts ch) (entry : Nat → Nat → Entry)
    (prepared : ∀ gen, (∀ self, caller = .fiber self → gen = 1) →
      EntryFacts ⟨op, 0⟩ caller false (some (.put ch val)) (entry gen 0))
    (fresh : ∀ gen arm, (entry gen arm).woken = false ∧ (entry gen arm).cancelled = false)
    (ran : (match putNow waker start ch { source := ⟨op, 0⟩, val } with
      | none => none
      | some (next, .blocked) => some (park next op entry)
      | some (next, attempt) => some (finish next op (attempt.result ch 0))) = some after) :
    Steps scope state after := by
  obtain ⟨path, started, call⟩ := plainCall_tried core absent caller idle notCallback _ tidies
  have inFlight : (start.ops op).inFlight := by simp [call, Op.inFlight]
  refine plain_steps (.put ch val) entry ran path (fun final attempt tried => ?_) inFlight
    (by rw [call]) (by rw [call]) (by simpa only [call] using prepared) fresh
    (by rw [call]; exact notCallback)
  exact putNow_attempted started inFlight (by simp [call]) inScope tried

end PlainCall

theorem gocTake_steps (core : Core state) (inScope : scope.takes ch)
    (ran : gocTake state op self ch = some after) : Steps scope state after := by
  simp only [gocTake] at ran
  split at ran
  · rename_i ready
    refine takeCall_steps core ready.1 (.fiber self) (by rintro _ ⟨⟩; exact ready.2)
      (by simp) (tidies_compactIfDue scope _ ch) inScope _ ?_ (fun _ _ => ⟨rfl, rfl⟩) ran
    intro gen one
    exact ⟨.inl ⟨ch, rfl, rfl⟩, rfl, rfl, fun _ _ => one self rfl, by simp, fun _ => ⟨rfl, rfl⟩⟩
  · cases ran

theorem gocPut_steps (core : Core state) (inScope : scope.puts ch)
    (ran : gocPut state op self ch val = some after) : Steps scope state after := by
  simp only [gocPut] at ran
  split at ran
  · rename_i ready
    refine putCall_steps core ready.1 (.fiber self) (by rintro _ ⟨⟩; exact ready.2)
      (by simp) (tidies_compactIfDue scope _ ch) inScope _ ?_ (fun _ _ => ⟨rfl, rfl⟩) ran
    intro gen one
    exact ⟨.inr ⟨ch, val, rfl, rfl⟩, rfl, rfl, fun _ _ => one self rfl, by simp,
      fun _ => ⟨rfl, rfl⟩⟩
  · cases ran

theorem gocTakeSync_steps (core : Core state) (inScope : scope.takes ch)
    (ran : gocTakeSync state op ch = some after) : Steps scope state after := by
  simp only [gocTakeSync] at ran
  split at ran
  · rename_i absent
    refine takeCall_steps core absent .thread (by simp) (by simp) (.refl scope _) inScope _
      ?_ (fun _ _ => ⟨rfl, rfl⟩) ran
    intro gen _
    exact ⟨.inl ⟨ch, rfl, rfl⟩, rfl, rfl, by simp, by simp, fun _ => ⟨rfl, rfl⟩⟩
  · cases ran

theorem gocPutSync_steps (core : Core state) (inScope : scope.puts ch)
    (ran : gocPutSync state op ch val = some after) : Steps scope state after := by
  simp only [gocPutSync] at ran
  split at ran
  · rename_i absent
    refine putCall_steps core absent .thread (by simp) (by simp) (.refl scope _) inScope _
      ?_ (fun _ _ => ⟨rfl, rfl⟩) ran
    intro gen _
    exact ⟨.inr ⟨ch, val, rfl, rfl⟩, rfl, rfl, by simp, by simp, fun _ => ⟨rfl, rfl⟩⟩
  · cases ran

theorem gocTakeTry_steps (core : Core state) (inScope : scope.takes ch)
    (ran : gocTakeTry state op ch = some after) : Steps scope state after := by
  simp only [gocTakeTry] at ran
  split at ran
  · rename_i absent
    obtain ⟨path, started, call⟩ := plainCall_tried core absent .thread (by simp) (by simp)
      (.take ch) (.refl scope _)
    split at ran
    · cases ran
    · rename_i final attempt tried
      cases ran
      have attempted := takeNow_attempted started (by simp [call, Op.inFlight]) (by simp [call])
        inScope tried
      by_cases blocked : attempt = .blocked
      · subst blocked
        obtain ⟨tidies, stuck⟩ := attempted.tidied
        refine ⟨final, path.trans tidies.path, ?_⟩
        rw [← settle_nil]
        exact .routine _ (.refuse op _ [] (by simp [tidies.ops, call, Op.inFlight])
          (.empty 0 ch (by simp [tidies.ops, call]) stuck) (.inl rfl))
      · exact attempted.finishes path blocked
  · cases ran

theorem postCallback_submitted (state : State) (op : OpId) (arm : Arm) (entry : Entry)
    (empty : entry.cbResult = none) :
    postCallback (enter state op
        { caller := .callback, arms := [arm], order := [0], stage := .pending
          entries := fun _ => entry }) ⟨op, 0⟩ none =
      { state.setOp op
          { caller := .callback, arms := [arm], order := [0], stage := .pending
            entries := fun _ => entry } with
        cbQueue := state.cbQueue ++ [⟨op, 0⟩] } := by
  have same : ({ entry with cbResult := none } : Entry) = entry := by rw [← empty]
  simp [postCallback, enter, State.setEntry, State.setOp, State.entry, same]

theorem gocTakeCb_steps (ran : gocTakeCb state op ch = some after) : Steps scope state after := by
  obtain ⟨absent, rfl⟩ := guarded ran
  rw [postCallback_submitted _ _ _ _ rfl]
  exact Routine.steps (.submit op (.take ch) ch _ absent (.inl ⟨rfl, rfl, rfl⟩)
    ⟨rfl, rfl, rfl, rfl, rfl, rfl⟩ rfl)

theorem gocPutCb_steps (ran : gocPutCb state op ch val hasCb = some after) :
    Steps scope state after := by
  obtain ⟨absent, rfl⟩ := guarded ran
  rw [postCallback_submitted _ _ _ _ rfl]
  exact Routine.steps (.submit op (.put ch val) ch _ absent (.inr ⟨val, rfl, rfl, rfl, rfl⟩)
    ⟨rfl, rfl, rfl, rfl, rfl, rfl⟩ rfl)

theorem pending_steps (spec : Arm) {outcome : Option (State × Attempt)}
    (value : Attempt → Option Msg)
    (ran : (match outcome with
      | none => none
      | some (next, .blocked) =>
        some (park next target.op fun _ => (next.ops target.op).entries)
      | some (next, attempt) =>
        some (invoke (finish next target.op (attempt.result ch target.arm)) target (some ch)
          (value attempt) (attempt.result ch target.arm).ok)) = some after)
    (first : target.arm = 0) (path : ReflTransGen (Prepares scope) state start) (core : Core start)
    (running : (start.ops target.op).stage = .running)
    (caller : (start.ops target.op).caller = .callback)
    (arms : (start.ops target.op).arms = [spec]) (inScope : scope.pending spec)
    (tried : ∀ final attempt, outcome = some (final, attempt) →
      Attempted scope target.op 0 ch spec start final attempt) :
    Steps scope state after := by
  have facts := core.call target.op
  have order := facts.single (by simp [running]) (facts.plain caller)
  have unclaimed := facts.running_unclaimed (.inl running)
  cases outcome with
  | none => cases ran
  | some pair =>
    obtain ⟨next, attempt⟩ := pair
    have attempted := tried next attempt rfl
    by_cases blocked : attempt = .blocked
    · subst blocked
      cases ran
      have kept := attempted.tidied.1.ops
      refine attempted.parks path (.inl running) arms order _ ?_ ?_ (fun _ => inScope)
      · intro gen _
        have entry := facts.entries (.inr (.inr caller)) 0 (by simp [order])
        rw [kept]
        simpa [arms] using entry
      · intro gen arm
        rw [kept]
        exact ⟨facts.not_woken unclaimed arm, facts.not_cancelled unclaimed arm⟩
    · have returned : invoke (finish next target.op (attempt.result ch target.arm)) target
          (some ch) (value attempt) (attempt.result ch target.arm).ok = after := by
        cases attempt <;> first | exact absurd rfl blocked | exact Option.some.inj ran
      obtain ⟨targetOp, arm⟩ := target
      simp only at first
      subst first
      rw [invoke_finish] at returned
      subst returned
      refine attempted.steps path blocked _ ?_
      split
      · exact .inr ⟨0, value attempt, by cases attempt <;> rfl, by cases attempt <;> rfl⟩
      · exact .inl rfl

theorem startPending_tried {rest : List EntryId} (core : Core state)
    (queue : state.cbQueue = target :: rest) (pending : (state.ops target.op).stage = .pending)
    (tidies : Tidies scope (startPending { state with cbQueue := rest } target) start) :
    ReflTransGen (Prepares scope) state start ∧ Core start ∧
      (start.ops target.op).stage = .running ∧
      (start.ops target.op).caller = (state.ops target.op).caller ∧
      (start.ops target.op).arms = (state.ops target.op).arms := by
  have started : Prepares scope state (startPending { state with cbQueue := rest } target) :=
    .start target rest queue pending
  refine ⟨.trans (.single started) tidies.path, tidies.core (core.prepared started), ?_⟩
  simp [tidies.ops, startPending, State.setOp]

section Pending

variable {target : EntryId} {rest : List EntryId} (core : Core state)
  (queue : state.cbQueue = target :: rest) (pending : (state.ops target.op).stage = .pending)
include core queue pending

theorem loopProcessPendingTake_steps (arms : (state.ops target.op).arms = [.take ch])
    (inScope : scope.takes ch ∧ scope.pending (.take ch))
    (ran : loopProcessPendingTake { state with cbQueue := rest } target ch = some after) :
    Steps scope state after := by
  obtain ⟨-, first, -⟩ := core.due_callback queue
  obtain ⟨path, started, running, caller, sameArms⟩ :=
    startPending_tried core queue pending (tidies_compactIfDue scope _ ch)
  rw [arms] at sameArms
  rw [((core.call target.op).pending pending).1] at caller
  refine pending_steps (.take ch) (fun attempt => (attempt.result ch target.arm).msg) ran first
    path started running caller sameArms inScope.2 (fun final attempt tried => ?_)
  obtain ⟨op, arm⟩ := target
  cases first
  exact takeNow_attempted started (.inl running) (by simp [sameArms]) inScope.1 tried

theorem loopProcessPendingPut_steps (arms : (state.ops target.op).arms = [.put ch val])
    (inScope : scope.puts ch ∧ scope.pending (.put ch val))
    (ran : loopProcessPendingPut { state with cbQueue := rest } target ch = some after) :
    Steps scope state after := by
  obtain ⟨-, first, -⟩ := core.due_callback queue
  obtain ⟨path, started, running, caller, sameArms⟩ :=
    startPending_tried core queue pending (tidies_compactIfDue scope _ ch)
  have facts := core.call target.op
  have callback := (facts.pending pending).1
  have order := facts.single (by simp [pending]) (facts.plain callback)
  rw [arms] at sameArms
  rw [callback] at caller
  obtain ⟨op, arm⟩ := target
  cases first
  have putVal : (state.entry ⟨op, 0⟩).putVal = { source := ⟨op, 0⟩, val } := by
    have spec := (facts.entries (.inr (.inr callback)) 0 (by simp [order])).spec
    simpa [State.entry, arms] using spec
  refine pending_steps (.put ch val) (fun _ => some (state.entry ⟨op, 0⟩).putVal) ran rfl path
    started running caller sameArms inScope.2 (fun final attempt tried => ?_)
  change putNow .claiming _ ch (state.entry ⟨op, 0⟩).putVal = _ at tried
  rw [putVal] at tried
  exact putNow_attempted started (.inl running) (by simp [sameArms]) inScope.1 tried

end Pending

theorem drainCbQueue_steps (core : Core state)
    (takes : ∀ target rest, state.cbQueue = target :: rest →
      (state.ops target.op).stage = .pending → ∀ ch, (state.ops target.op).arms = [.take ch] →
      scope.takes ch ∧ scope.pending (.take ch))
    (puts : ∀ target rest, state.cbQueue = target :: rest →
      (state.ops target.op).stage = .pending →
      ∀ ch val, (state.ops target.op).arms = [.put ch val] →
      scope.puts ch ∧ scope.pending (.put ch val))
    (ran : drainCbQueue state = some after) : Steps scope state after := by
  cases queue : state.cbQueue with
  | nil => simp [drainCbQueue, queue] at ran
  | cons target rest =>
    obtain ⟨due, first, -⟩ := core.due_callback queue
    have facts := core.call target.op
    simp only [Op.due, Bool.and_eq_true, Bool.or_eq_true, beq_iff_eq] at due
    obtain ⟨caller, pending | ⟨waiting, claimed⟩⟩ := due
    · have order := facts.single (by simp [pending]) (facts.plain caller)
      have entry := facts.entries (.inr (.inr caller)) 0 (by simp [order])
      have kind : (state.entry target).kind = .callback := by
        simpa [State.entry, first, caller, Caller.kind] using entry.kind
      have unclaimed : (state.ops target.op).claimed = false := by
        by_contra claimed
        simpa [pending] using facts.unclaimed (by simpa using claimed)
      have woken : (state.entry target).woken = false := facts.not_woken unclaimed target.arm
      obtain ⟨ch, named, shape⟩ := (facts.pending pending).2
      have named : (state.entry target).ch = some ch := by simpa [State.entry, first] using named
      have entrySame : ({ state with cbQueue := rest } : State).entry target =
          state.entry target := rfl
      simp only [drainCbQueue, queue, entrySame, kind, ne_eq, not_true_eq_false, if_false,
        named, woken] at ran
      rcases shape with ⟨arms, direction⟩ | ⟨val, arms, direction⟩
      · have isPut : (state.entry target).isPut = false := by
          simpa [State.entry, first] using direction
        simp only [isPut, Bool.false_eq_true, if_false] at ran
        exact loopProcessPendingTake_steps core queue pending arms
          (takes target rest queue pending ch arms) ran
      · have isPut : (state.entry target).isPut = true := by
          simpa [State.entry, first] using direction
        simp only [isPut, if_true] at ran
        exact loopProcessPendingPut_steps core queue pending arms
          (puts target rest queue pending ch val arms) ran
    · have order := facts.single (by simp [waiting]) (facts.plain caller)
      have entry := facts.entries (.inr (.inr caller)) 0 (by simp [order])
      have kind : (state.entry target).kind = .callback := by
        simpa [State.entry, first, caller, Caller.kind] using entry.kind
      have woken : (state.entry target).woken = true := by
        obtain ⟨arm, woken⟩ := facts.claimed_iff.mp claimed
        have zero : arm = 0 := by simpa [order] using facts.woken arm woken
        simpa [State.entry, first, zero] using woken
      have entrySame : ({ state with cbQueue := rest } : State).entry target =
          state.entry target := rfl
      simp only [drainCbQueue, queue, entrySame, kind, ne_eq, not_true_eq_false, if_false,
        woken] at ran
      have fired : some (fireCallback { state with cbQueue := rest } target) = some after := by
        cases named : (state.entry target).ch <;> simpa only [named] using ran
      cases fired
      exact Routine.steps (.fire target rest queue waiting)

theorem altsBegin_steps (inScope : scope.selects)
    (ran : altsBegin state op caller arms order = some after) : Steps scope state after := by
  cases built : altsBuildIndexArray arms with
  | none => simp [altsBegin, built] at ran
  | some indices =>
    simp only [altsBegin, built, Option.ite_none_right_eq_some, Option.some.injEq] at ran
    obtain ⟨⟨absent, idle, shuffled⟩, rfl⟩ := ran
    have distinct : order.Nodup := by
      obtain ⟨-, rfl⟩ := guarded built
      exact shuffled.nodup_iff.mpr (List.nodup_range.filter _)
    refine ⟨_, .single (.enter op caller arms order true (.scanning order) absent ?_
      (.inr ⟨rfl, rfl⟩) (by simp) distinct ?_ fun _ => inScope), .routine _ .stay⟩
    · rintro self rfl
      simpa using idle
    · rintro rfl
      simp at idle

theorem altsScanArm_attempted (core : Core state) (inFlight : (state.ops op).inFlight)
    (takes : ∀ ch, (state.ops op).arms[arm]? = some (.take ch) → scope.takes ch)
    (puts : ∀ ch val final attempt, (state.ops op).arms[arm]? = some (.put ch val) →
      put state ch { source := ⟨op, arm⟩, val } = some (final, attempt) →
      Attempted scope op arm ch (.put ch val) state final attempt)
    (ran : altsScanArm put state op arm = some (final, outcome)) :
    ∃ ch spec attempt, (state.ops op).arms[arm]? = some spec ∧
      (spec = .take ch ∨ ∃ val, spec = .put ch val) ∧
      Attempted scope op arm ch spec state final attempt ∧
      outcome = if attempt = .blocked then none else some (attempt.result ch arm) := by
  cases found : (state.ops op).arms[arm]? with
  | none => simp [altsScanArm, found] at ran
  | some spec =>
    have decoded : ∀ ch (tried : Option (State × Attempt)), (match tried with
          | none => none
          | some (state, .blocked) => some (state, none)
          | some (state, attempt) => some (state, some (attempt.result ch arm))) =
          some (final, outcome) →
        ∃ attempt, tried = some (final, attempt) ∧
          outcome = if attempt = .blocked then none else some (attempt.result ch arm) := by
      intro ch tried same
      cases tried with
      | none => cases same
      | some pair =>
        obtain ⟨next, attempt⟩ := pair
        cases attempt <;> cases same <;> exact ⟨_, rfl, rfl⟩
    cases spec with
    | take ch =>
      simp only [altsScanArm, found] at ran
      obtain ⟨attempt, tried, same⟩ := decoded ch _ ran
      exact ⟨ch, _, attempt, rfl, .inl rfl,
        altsTake_attempted core inFlight found (takes ch found) tried, same⟩
    | put ch val =>
      simp only [altsScanArm, found] at ran
      obtain ⟨attempt, tried, same⟩ := decoded ch _ ran
      exact ⟨ch, _, attempt, rfl, .inr ⟨val, rfl⟩, puts ch val final attempt found tried, same⟩
    | default => simp [altsScanArm, found] at ran

theorem altsTryImmediate_steps (core : Core state)
    (takes : ∀ arm rest ch, (state.ops op).stage = .scanning (arm :: rest) →
      (state.ops op).arms[arm]? = some (.take ch) → scope.takes ch)
    (puts : ∀ arm rest ch val, (state.ops op).stage = .scanning (arm :: rest) →
      (state.ops op).arms[arm]? = some (.put ch val) → scope.puts ch ∧ scope.early ch)
    (ran : altsTryImmediate state op = some after) : Steps scope state after := by
  simp only [altsTryImmediate] at ran
  split at ran
  · rename_i arm rest stage
    have inFlight : (state.ops op).inFlight := .inr ⟨_, stage⟩
    have scanned : ∀ final outcome, altsScanArm altsTryPut state op arm = some (final, outcome) →
        _ := fun final outcome => altsScanArm_attempted core inFlight
      (fun ch found => takes arm rest ch stage found)
      (fun ch val final attempt found => altsTryPut_attempted core inFlight found
        (puts arm rest ch val stage found).1 (puts arm rest ch val stage found).2)
    split at ran
    · cases ran
    · rename_i final result tried
      cases ran
      obtain ⟨ch, spec, attempt, -, -, attempted, outcome⟩ := scanned _ _ tried
      split at outcome
      · cases outcome
      · rename_i ended
        cases outcome
        exact attempted.finishes .refl ended
    · rename_i final tried
      cases ran
      obtain ⟨ch, spec, attempt, -, -, attempted, outcome⟩ := scanned _ _ tried
      split at outcome
      · rename_i blocked
        subst blocked
        obtain ⟨tidies, -⟩ := attempted.tidied
        exact ⟨final, tidies.path, .routine _
          (.advance op arm rest (by rw [tidies.ops]; exact stage))⟩
      · cases outcome
  · cases ran

theorem Tidies.stuck (tidies : Tidies scope start final) (stuck : start.Stuck spec) :
    final.Stuck spec := by
  cases spec with
  | take ch =>
    obtain ⟨drained, dead, opened⟩ := stuck
    exact ⟨by rwa [tidies.buffer], tidies.dead dead (tidies.putters ch), by rwa [tidies.closed]⟩
  | put ch val =>
    obtain ⟨full, dead, opened⟩ := stuck
    exact ⟨by rwa [tidies.buffer], tidies.dead dead (tidies.takers ch), by rwa [tidies.closed]⟩
  | default => trivial

/-- Phase 5 lets one arm go ahead, or finds every arm stuck. -/
theorem altsRescan_spec (core : Core state) (inFlight : (state.ops op).inFlight)
    (takes : ∀ ch, .take ch ∈ (state.ops op).arms → scope.takes ch)
    (puts : ∀ ch val, .put ch val ∈ (state.ops op).arms → scope.puts ch)
    (ran : altsRescan state op arms = some (final, outcome)) :
    (∃ result, outcome = some result ∧ Steps scope state (finish final op result)) ∨
    outcome = none ∧ Tidies scope state final ∧ ∀ arm ∈ arms, ∃ spec,
      (state.ops op).arms[arm]? = some spec ∧ spec ≠ .default ∧ final.Stuck spec := by
  induction arms generalizing state with
  | nil =>
    cases ran
    exact .inr ⟨rfl, .refl scope _, by simp⟩
  | cons arm rest ih =>
    simp only [altsRescan] at ran
    split at ran
    · cases ran
    all_goals
      rename_i tried
      obtain ⟨ch, spec, attempt, found, kind, attempted, same⟩ :=
        altsScanArm_attempted core inFlight (fun ch found => takes ch (List.mem_of_getElem? found))
          (fun ch val final attempt found => putNow_attempted core inFlight found
            (puts ch val (List.mem_of_getElem? found))) tried
      split at same
    · cases same
    · rename_i ended
      cases same
      cases ran
      exact .inl ⟨_, rfl, attempted.finishes .refl ended⟩
    · rename_i blocked
      subst blocked
      obtain ⟨tidies, stuck⟩ := attempted.tidied
      have later := ih (tidies.core core) (by rwa [tidies.ops]) (by rwa [tidies.ops])
        (by rwa [tidies.ops]) ran
      rcases later with ⟨result, returned, middle, path, changes⟩ | ⟨none, more, others⟩
      · exact .inl ⟨result, returned, middle, tidies.path.trans path, changes⟩
      · refine .inr ⟨none, tidies.trans more, List.forall_mem_cons.mpr ⟨?_, ?_⟩⟩
        · refine ⟨spec, found, ?_, more.stuck stuck⟩
          rcases kind with rfl | ⟨val, rfl⟩ <;> simp
        · rwa [tidies.ops] at others
    · cases same

theorem altsEntry_facts (notCallback : caller ≠ .callback) (same : kind = caller.kind)
    (one : ∀ self, caller = .fiber self → gen = 1) (notDefault : spec ≠ .default) :
    EntryFacts ⟨op, arm⟩ caller true (some spec) (altsEntry kind op gen arm spec) := by
  cases spec with
  | take ch =>
    exact ⟨.inl ⟨ch, rfl, rfl⟩, rfl, same, one, fun contrary => absurd contrary notCallback,
      fun _ => ⟨rfl, rfl⟩⟩
  | put ch val =>
    exact ⟨.inr ⟨ch, val, rfl, rfl⟩, rfl, same, one, fun contrary => absurd contrary notCallback,
      fun _ => ⟨rfl, rfl⟩⟩
  | default => exact absurd rfl notDefault

theorem altsPark_steps (core : Core state)
    (takes : (state.ops op).stage = .scanning [] → ∀ ch, .take ch ∈ (state.ops op).arms →
      scope.takes ch)
    (puts : (state.ops op).stage = .scanning [] → ∀ ch val, .put ch val ∈ (state.ops op).arms →
      scope.puts ch)
    (ran : altsPark state op = some after) : Steps scope state after := by
  have facts := core.call op
  simp only [altsPark] at ran
  split at ran
  · rename_i stage
    have inFlight : (state.ops op).inFlight := .inr ⟨_, stage⟩
    have select := facts.scanning _ stage
    split at ran
    · rename_i member
      cases ran
      rw [← settle_nil]
      exact Routine.steps (.refuse op _ [] inFlight (.default member) (.inl rfl))
    · split at ran
      · cases ran
      · rename_i final result tried
        cases ran
        rcases altsRescan_spec core inFlight (takes stage) (puts stage) tried with
          ⟨_, ⟨⟩, steps⟩ | ⟨none, -⟩
        · exact steps
        · cases none
      · rename_i final tried
        cases ran
        rcases altsRescan_spec core inFlight (takes stage) (puts stage) tried with
          ⟨_, returned, -⟩ | ⟨-, tidies, stuck⟩
        · cases returned
        · have notCallback : (state.ops op).caller ≠ .callback := by
            intro caller
            simp [facts.plain caller] at select
          refine ⟨final, tidies.path, .park op _ (by rwa [tidies.ops]) ?_ ?_ ?_
            (by rw [tidies.ops]; exact fun callback => absurd callback notCallback)⟩
          · intro arm member spec found
            rw [tidies.ops] at member found
            obtain ⟨other, same, -, stuckArm⟩ := stuck arm member
            cases found.symm.trans same
            exact stuckArm
          · intro gen one arm member
            rw [tidies.ops] at member one ⊢
            obtain ⟨spec, found, notDefault, -⟩ := stuck arm member
            simp only [found, select]
            refine altsEntry_facts notCallback ?_ one notDefault
            cases caller : (state.ops op).caller with
            | callback => exact absurd caller notCallback
            | fiber _ => rfl
            | thread => rfl
          · intro gen arm
            split
            · rename_i spec found
              cases spec <;> exact ⟨rfl, rfl⟩
            · exact ⟨rfl, rfl⟩
  · cases ran

end Libgoc.Channel
