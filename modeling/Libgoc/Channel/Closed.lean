import Libgoc.Channel.Outcomes

namespace Libgoc.Channel

open Libgoc.Data Libgoc.Semantics Relation

/-! # Closed channels -/

variable {before after start state : State} {scope : Scope} {op : OpId} {arm : Nat} {ch : ChanId}
  {spec : Arm}

/-- What a closed channel answers to an arm. -/
def Chan.answer (chan : Chan) : Arm → Attempt
  | .take _ =>
    match chan.buffer.contents with
    | [] => .closed
    | msg :: _ => .taken msg
  | .put _ _ => .closed
  | .default => .blocked

theorem putNow_closed (closed : (state.chans ch).closed = true) (msg : Msg) :
    putNow waker state ch msg = some (state, .closed) := by
  simp [putNow, closed]

theorem altsTryPut_closed (closed : (state.chans ch).closed = true) (msg : Msg) :
    altsTryPut state ch msg = some (state, .closed) := by
  simp [altsTryPut, closed]

theorem chanTakeFromPutter_none (empty : (state.chans ch).putters = [])
    (receiver : EntryId) : chanTakeFromPutter waker state ch receiver =
      some (state.setChan ch { state.chans ch with putters := [] }, none) := by
  simp [chanTakeFromPutter, empty, walk]

section

variable (closed : (state.chans ch).closed = true) (empty : (state.chans ch).putters = [])
  (receiver : EntryId)
include closed empty receiver

theorem takeNow_closed :
    ∃ after, takeNow waker state ch receiver =
      some (after, (state.chans ch).answer (.take ch)) ∧ after.ops = state.ops := by
  cases popped : (state.chans ch).buffer.pop with
  | none =>
    have drained := RingBuffer.pop_eq_none popped
    simp only [takeNow, chanTakeFromBuffer, popped, chanTakeFromPutter_none empty]
    refine ⟨_, congrArg some (Prod.ext rfl ?_), ?_⟩
    · simp [State.setChan, closed, Chan.answer, drained]
    · rfl
  | some pair =>
    obtain ⟨msg, buffer⟩ := pair
    have contents := (RingBuffer.contents_pop popped).1
    simp only [takeNow, chanTakeFromBuffer, popped]
    refine ⟨_, congrArg some (Prod.ext rfl ?_), ?_⟩
    · simp [Chan.answer, contents]
    · rfl

theorem altsTake_closed :
    ∃ after, altsTake state ch receiver =
      some (after, (state.chans ch).answer (.take ch)) ∧ after.ops = state.ops := by
  cases popped : (state.chans ch).buffer.pop with
  | none =>
    have drained := RingBuffer.pop_eq_none popped
    have count : (state.chans ch).buffer.count = 0 := by
      rw [← RingBuffer.length_contents, drained]
      rfl
    simp only [altsTake, chanTakeFromBuffer, popped, chanTakeFromPutter_none empty]
    refine ⟨_, congrArg some (Prod.ext rfl ?_), ?_⟩
    · simp [State.setChan, closed, count, Chan.answer, drained]
    · rfl
  | some pair =>
    obtain ⟨msg, buffer⟩ := pair
    have contents := (RingBuffer.contents_pop popped).1
    simp only [altsTake, chanTakeFromBuffer, popped]
    refine ⟨_, congrArg some (Prod.ext rfl ?_), ?_⟩
    · simp [Chan.answer, contents]
    · rfl

end

inductive Asks (state : State) : Label → OpId → Nat → Arm → Prop where
  | take (op : OpId) (self : FiberId) (ch : ChanId) (absent : (state.ops op).stage = .absent)
      (idle : (state.fibers self).busy = none) : Asks state (.take op self ch) op 0 (.take ch)
  | put (op : OpId) (self : FiberId) (ch : ChanId) (val : Val)
      (absent : (state.ops op).stage = .absent) (idle : (state.fibers self).busy = none) :
      Asks state (.put op self ch val) op 0 (.put ch val)
  | takeSync (op : OpId) (ch : ChanId) (absent : (state.ops op).stage = .absent) :
      Asks state (.takeSync op ch) op 0 (.take ch)
  | putSync (op : OpId) (ch : ChanId) (val : Val) (absent : (state.ops op).stage = .absent) :
      Asks state (.putSync op ch val) op 0 (.put ch val)
  | takeTry (op : OpId) (ch : ChanId) (absent : (state.ops op).stage = .absent) :
      Asks state (.takeTry op ch) op 0 (.take ch)
  | drain (op : OpId) (rest : List EntryId) (spec : Arm)
      (queue : state.cbQueue = ⟨op, 0⟩ :: rest) (pending : (state.ops op).stage = .pending)
      (arms : (state.ops op).arms = [spec]) : Asks state .drain op 0 spec
  | altsTry (op : OpId) (arm : Nat) (rest : List Nat) (spec : Arm)
      (stage : (state.ops op).stage = .scanning (arm :: rest))
      (found : (state.ops op).arms[arm]? = some spec) : Asks state (.altsTry op) op arm spec

def State.Returned (state : State) (op : OpId) (result : Result) : Prop :=
  (state.ops op).stage = .done ∧ (state.ops op).result = some result

theorem finish_returned (state : State) (op : OpId) (result : Result) :
    (finish state op result).Returned op result := by
  simp [State.Returned, (finish_frame state op result).1]

theorem invoke_returned
    (returned : middle.Returned op result) (target : EntryId) (name : Option ChanId)
    (msg : Option Msg) (status : Status) :
    (invoke middle target name msg status).Returned op result := by
  simp only [invoke]
  split
  · exact returned
  · exact returned

theorem compactIfDue_closed (closed : (state.chans ch).closed = true)
    (empty : (state.chans ch).putters = []) :
    ((compactIfDue state ch).chans ch).closed = true ∧
      ((compactIfDue state ch).chans ch).putters = [] ∧
      ((compactIfDue state ch).chans ch).answer = (state.chans ch).answer := by
  simp only [compactIfDue]
  split
  · refine ⟨?_, ?_, ?_⟩
    · simpa [compactDeadEntries, State.setChan] using closed
    · simp [compactDeadEntries, State.setChan, empty]
    · funext spec
      cases spec <;> simp [Chan.answer, compactDeadEntries, State.setChan]
  · exact ⟨closed, empty, rfl⟩

theorem answer_ended (chan : Chan) (on : spec.chan = some ch) : chan.answer spec ≠ .blocked := by
  cases spec with
  | take other =>
    simp only [Chan.answer]
    split <;> simp
  | put => simp [Chan.answer]
  | default => simp [Arm.chan] at on

theorem plain_returns {attempt : Attempt} (ended : attempt ≠ .blocked)
    (entries : Nat → Nat → Entry) :
    (match some (middle, attempt) with
      | none => none
      | some (next, .blocked) => some (park next op entries)
      | some (next, attempt) => some (finish next op (attempt.result ch 0))) =
      some (finish middle op (attempt.result ch 0)) := by
  cases attempt with
  | blocked => exact absurd rfl ended
  | taken | accepted | closed => rfl

theorem gocPutSync_answered (closed : (state.chans ch).closed = true)
    (absent : (state.ops op).stage = .absent) :
    ∃ after, gocPutSync state op ch val = some after ∧
      after.Returned op (((state.chans ch).answer (.put ch val)).result ch 0) := by
  have chans := (enter_frame state op (plainCall .thread (.put ch val))).2.1
  rw [← chans] at closed
  simp only [gocPutSync, absent, if_true]
  rw [putNow_closed closed]
  exact ⟨_, rfl, finish_returned _ _ _⟩

section Asks

variable (core : Core state) (closed : (state.chans ch).closed = true)
include core closed

section

variable (absent : (state.ops op).stage = .absent)
include absent

theorem gocTake_answered (idle : (state.fibers self).busy = none) :
    ∃ after, gocTake state op self ch = some after ∧
      after.Returned op (((state.chans ch).answer (.take ch)).result ch 0) := by
  have empty := ((core.link ch).closed closed).2
  have chans := (enter_frame state op (plainCall (.fiber self) (.take ch))).2.1
  rw [← chans] at closed empty
  obtain ⟨shut, none, same⟩ := compactIfDue_closed closed empty
  obtain ⟨middle, tried, -⟩ := takeNow_closed shut none ⟨op, 0⟩
  rw [same, chans] at tried
  simp only [gocTake, absent, idle, and_self, if_true]
  rw [tried]
  exact ⟨_, plain_returns (answer_ended _ rfl) _, finish_returned _ _ _⟩

theorem gocPut_answered (idle : (state.fibers self).busy = none) :
    ∃ after, gocPut state op self ch val = some after ∧
      after.Returned op (((state.chans ch).answer (.put ch val)).result ch 0) := by
  have empty := ((core.link ch).closed closed).2
  have chans := (enter_frame state op (plainCall (.fiber self) (.put ch val))).2.1
  rw [← chans] at closed empty
  obtain ⟨shut, -⟩ := compactIfDue_closed closed empty
  simp only [gocPut, absent, idle, and_self, if_true]
  rw [putNow_closed shut]
  exact ⟨_, rfl, finish_returned _ _ _⟩

theorem gocTakeSync_answered :
    ∃ after, gocTakeSync state op ch = some after ∧
      after.Returned op (((state.chans ch).answer (.take ch)).result ch 0) := by
  have empty := ((core.link ch).closed closed).2
  have chans := (enter_frame state op (plainCall .thread (.take ch))).2.1
  rw [← chans] at closed empty
  obtain ⟨middle, tried, -⟩ := takeNow_closed closed empty ⟨op, 0⟩
  rw [chans] at tried
  simp only [gocTakeSync, absent, if_true]
  rw [tried]
  exact ⟨_, plain_returns (answer_ended _ rfl) _, finish_returned _ _ _⟩

theorem gocTakeTry_answered :
    ∃ after, gocTakeTry state op ch = some after ∧
      after.Returned op (((state.chans ch).answer (.take ch)).result ch 0) := by
  have empty := ((core.link ch).closed closed).2
  have chans := (enter_frame state op (plainCall .thread (.take ch))).2.1
  rw [← chans] at closed empty
  obtain ⟨middle, tried, -⟩ := takeNow_closed closed empty ⟨op, 0⟩
  rw [chans] at tried
  simp only [gocTakeTry, absent, if_true]
  rw [tried]
  exact ⟨_, rfl, finish_returned _ _ _⟩

end

theorem altsTry_answered (on : spec.chan = some ch)
    (stage : (state.ops op).stage = .scanning (arm :: rest))
    (found : (state.ops op).arms[arm]? = some spec) :
    ∃ after, altsTryImmediate state op = some after ∧
      after.Returned op (((state.chans ch).answer spec).result ch arm) := by
  have empty := ((core.link ch).closed closed).2
  cases spec with
  | take other =>
    cases on
    obtain ⟨middle, tried, -⟩ := altsTake_closed closed empty ⟨op, arm⟩
    have ended := answer_ended (state.chans ch) (show (Arm.take ch).chan = some ch from rfl)
    simp only [altsTryImmediate, stage, altsScanArm, found, tried]
    cases attempt : (state.chans ch).answer (.take ch) with
    | blocked => exact absurd attempt ended
    | taken | accepted | closed => exact ⟨_, rfl, finish_returned _ _ _⟩
  | put other val =>
    cases on
    simp only [altsTryImmediate, stage, altsScanArm, found, altsTryPut_closed closed]
    exact ⟨_, rfl, finish_returned _ _ _⟩
  | default => simp [Arm.chan] at on

theorem startPending_closed (target : EntryId) (rest : List EntryId) :
    ((compactIfDue (startPending { state with cbQueue := rest } target) ch).chans ch).closed =
        true ∧
      ((compactIfDue (startPending { state with cbQueue := rest } target) ch).chans ch).putters =
        [] ∧
      ((compactIfDue (startPending { state with cbQueue := rest } target) ch).chans ch).answer =
        (state.chans ch).answer :=
  compactIfDue_closed closed ((core.link ch).closed closed).2

theorem drain_answered (on : spec.chan = some ch)
    (queue : state.cbQueue = ⟨op, 0⟩ :: rest) (pending : (state.ops op).stage = .pending)
    (arms : (state.ops op).arms = [spec]) :
    ∃ after, drainCbQueue state = some after ∧
      after.Returned op (((state.chans ch).answer spec).result ch 0) := by
  have facts := core.call op
  obtain ⟨callback, other, named, shape⟩ := facts.pending pending
  have order := facts.single (by simp [pending]) (facts.plain callback)
  have entry := facts.entries (.inr (.inr callback)) 0 (by simp [order])
  have kind : ((state.ops op).entries 0).kind = .callback := by
    simpa [callback, Caller.kind] using entry.kind
  have unclaimed : (state.ops op).claimed = false := by
    by_contra claimed
    simpa [pending] using facts.unclaimed (by simpa using claimed)
  have unwoken := facts.not_woken unclaimed 0
  obtain ⟨shut, none, same⟩ := startPending_closed core closed ⟨op, 0⟩ rest
  rcases shape with ⟨known, direction⟩ | ⟨val, known, direction⟩
  · cases arms.symm.trans known
    cases on
    obtain ⟨middle, tried, -⟩ := takeNow_closed shut none ⟨op, 0⟩
    rw [same] at tried
    have ended := answer_ended (state.chans ch) (show (Arm.take ch).chan = some ch from rfl)
    simp only [drainCbQueue, queue, State.entry, kind, named, unwoken, direction, ne_eq,
      not_true_eq_false, if_false, Bool.false_eq_true, loopProcessPendingTake]
    rw [tried]
    cases attempt : (state.chans ch).answer (.take ch) with
    | blocked => exact absurd attempt ended
    | taken | accepted | closed =>
      exact ⟨_, rfl, invoke_returned (finish_returned _ _ _) _ _ _ _⟩
  · cases arms.symm.trans known
    cases on
    simp only [drainCbQueue, queue, State.entry, kind, named, unwoken, direction, ne_eq,
      not_true_eq_false, if_false, if_true, loopProcessPendingPut]
    rw [putNow_closed shut]
    exact ⟨_, rfl, invoke_returned (finish_returned _ _ _) _ _ _ _⟩

/-- Whoever asks a closed channel gets its answer at once. -/
theorem Asks.answered (asks : Asks state label op arm spec) (on : spec.chan = some ch) :
    ∃ after, step state label = some after ∧
      after.Returned op (((state.chans ch).answer spec).result ch arm) := by
  cases asks with
  | take _ self _ absent idle =>
    cases on
    exact gocTake_answered core closed absent idle
  | put _ self _ val absent idle =>
    cases on
    exact gocPut_answered core closed absent idle
  | takeSync _ _ absent =>
    cases on
    exact gocTakeSync_answered core closed absent
  | putSync _ _ val absent =>
    cases on
    exact gocPutSync_answered closed absent
  | takeTry _ _ absent =>
    cases on
    exact gocTakeTry_answered core closed absent
  | drain _ rest _ queue pending arms => exact drain_answered core closed on queue pending arms
  | altsTry _ _ rest _ stage found => exact altsTry_answered core closed on stage found

end Asks

end Libgoc.Channel
