import Libgoc.Channel.Closed

namespace Libgoc.Channel

open Libgoc.Data Libgoc.Semantics Relation

/-! # The results of calls that do not park -/

variable {before after state : State} {scope : Scope} {op : OpId} {arm : Nat} {ch : ChanId}
  {spec : Arm}

/-- The results a step can give to a call that has not parked. -/
inductive Answered (state : State) (op : OpId) : Result → Prop where
  | refused (result : Result) (refused : Refused state op result) : Answered state op result
  | taken (arm : Nat) (ch : ChanId) (msg : Msg) (rest : List Msg)
      (spec : (state.ops op).arms[arm]? = some (.take ch))
      (contents : (state.chans ch).buffer.contents = msg :: rest) :
      Answered state op ((Attempt.taken msg).result ch arm)
  | fetched (arm : Nat) (ch : ChanId) (putter : EntryId)
      (spec : (state.ops op).arms[arm]? = some (.take ch))
      (parked : putter ∈ (state.chans ch).putters) :
      Answered state op ((Attempt.taken (state.entry putter).putVal).result ch arm)
  | accepted (arm : Nat) (ch : ChanId) (val : Val)
      (spec : (state.ops op).arms[arm]? = some (.put ch val))
      (opened : (state.chans ch).closed = false) :
      Answered state op (Attempt.accepted.result ch arm)

theorem Answered.closed (answered : Answered state op result)
    (link : LinkFacts state ch) (closed : (state.chans ch).closed = true)
    (found : (state.ops op).arms[arm]? = some spec) (on : spec.chan = some ch)
    (own : result.arm = some arm) :
    result = ((state.chans ch).answer spec).result ch arm := by
  have same : ∀ {index : Nat} {other : Arm} {place : ChanId} (attempt : Attempt),
      (state.ops op).arms[index]? = some other → other.chan = some place →
      (attempt.result place index).arm = some arm → index = arm ∧ other = spec ∧ place = ch := by
    intro index other place attempt known there own
    have index : index = arm := by cases attempt <;> simpa [Attempt.result] using own
    subst index
    cases known.symm.trans found
    cases there.symm.trans on
    exact ⟨rfl, rfl, rfl⟩
  cases answered with
  | refused result refused =>
    cases refused with
    | default => cases own
    | empty index place known stuck =>
      obtain ⟨rfl, rfl, rfl⟩ := same _ known rfl own
      cases stuck.2.2.symm.trans closed
    | closedTake index place known shut drained =>
      obtain ⟨rfl, rfl, rfl⟩ := same _ known rfl own
      simp [Chan.answer, drained]
    | closedPut index place val known =>
      obtain ⟨rfl, rfl, rfl⟩ := same _ known rfl own
      rfl
  | taken index place msg rest known contents =>
    obtain ⟨rfl, rfl, rfl⟩ := same _ known rfl own
    simp [Chan.answer, contents]
  | fetched index place putter known parked =>
    obtain ⟨rfl, rfl, rfl⟩ := same _ known rfl own
    simp [(link.closed closed).2] at parked
  | accepted index place val known opened =>
    obtain ⟨rfl, rfl, rfl⟩ := same _ known rfl own
    cases opened.symm.trans closed

theorem claim_result (state : State) (waker : Waker) (target : EntryId) (status : Status)
    (value : Option Msg) (op : OpId) :
    ((claimWith waker state target status value).ops op).result = (state.ops op).result ∧
      ((claimWith waker state target status value).ops op).arms = (state.ops op).arms := by
  rw [(claimWith_frame waker state target status value).2.1]
  by_cases same : op = target.op
  · subst same
    simp [Op.claim]
  · rw [Function.update_of_ne same]
    exact ⟨rfl, rfl⟩

section Answered

variable {result : Result} (core : Core before)
  (uncommitted : (before.ops op).stage.committed = false)
  (returned : (after.ops op).result = some result)
include core uncommitted returned

/-- The call did not have its result before. -/
theorem result_of_same (same : after.ops op = before.ops op) : False := by
  rw [same] at returned
  have done := ((core.call op).result result returned).1
  simp [done, Stage.committed] at uncommitted

theorem result_of_other (ops : after.ops = Function.update before.ops other call)
    (committed : (before.ops other).stage.committed = true) : False := by
  apply result_of_same core uncommitted returned
  rw [ops, Function.update_of_ne]
  intro same
  subst same
  simp [committed] at uncommitted

/-- A result that is new belongs to the call that returns. -/
theorem result_of_settle (settled : after = settle middle other found calls)
    (kept : (middle.ops op).result = (before.ops op).result ∧
      (middle.ops op).arms = (before.ops op).arms) :
    other = op ∧ found = result ∧ (after.ops op).arms = (before.ops op).arms := by
  have ops := (settle_frame middle other found calls).1
  rw [settled, ops] at returned ⊢
  by_cases same : op = other
  · subst same
    rw [Function.update_self] at returned ⊢
    exact ⟨rfl, Option.some.inj returned, kept.2⟩
  · rw [Function.update_of_ne same, kept.1] at returned
    have done := ((core.call op).result result returned).1
    simp [done, Stage.committed] at uncommitted

theorem Routine.answered (routine : Routine before after) :
    Answered before op result ∧ (after.ops op).arms = (before.ops op).arms := by
  cases routine with
  | stay | suspend | post => exact (result_of_same core uncommitted returned rfl).elim
  | submit other arm ch entry absent =>
    exfalso
    by_cases same : op = other
    · subst same
      simp [State.setOp] at returned
    · exact result_of_same core uncommitted returned (by simp [State.setOp, same])
  | advance other arm rest stage =>
    exfalso
    by_cases same : op = other
    · subst same
      simp only [State.setOp, Function.update_self] at returned
      have done := ((core.call op).result result returned).1
      simp [done, Stage.committed] at uncommitted
    · exact result_of_same core uncommitted returned (by simp [State.setOp, same])
  | refuse other found calls inFlight refused =>
    obtain ⟨rfl, rfl, arms⟩ := result_of_settle core uncommitted returned rfl ⟨rfl, rfl⟩
    exact ⟨.refused _ refused, arms⟩
  | resume self other member busy waiting =>
    obtain ⟨call, ops⟩ := continueCall_ops
      ({ before with runQueue := before.runQueue.erase self }.setFiber self
        { before.fibers self with parked := 0 }) other
    exact (result_of_other core uncommitted returned ops (by simp [waiting, Stage.committed])).elim
  | syncResume other waiting =>
    obtain ⟨call, ops⟩ := continueCall_ops
      (before.setOp other { before.ops other with ready := false }) other
    simp only [State.setOp, Function.update_idem] at ops
    exact (result_of_other core uncommitted returned ops (by simp [waiting, Stage.committed])).elim
  | noteWinner other arm rest winner stage | cancelArm other arm rest winner stage =>
    exact (result_of_other core uncommitted returned rfl (by simp [stage, Stage.committed])).elim
  | win other arm stage =>
    exact (result_of_other core uncommitted returned (finish_frame before other _).1
      (by simp [stage, Stage.committed])).elim
  | fire target rest queue waiting =>
    obtain ⟨calls, settled, -⟩ := fireCallback_settles { before with cbQueue := rest } target
    rw [settled] at returned
    exact (result_of_other core uncommitted returned (settle_frame _ _ _ _).1
      (by simp [waiting, Stage.committed])).elim

theorem Changes.answered (changes : Changes scope before after) :
    Answered before op result ∧ (after.ops op).arms = (before.ops op).arms := by
  cases changes with
  | routine _ routine => exact routine.answered core uncommitted returned
  | control _ controls =>
    exact (result_of_same core uncommitted returned (congrFun controls.undisturbed.ops op)).elim
  | takeBuffer other arm ch msg buffer calls inFlight spec inScope popped =>
    obtain ⟨rfl, rfl, arms⟩ := result_of_settle core uncommitted returned rfl ⟨rfl, rfl⟩
    exact ⟨.taken arm ch msg _ spec (RingBuffer.contents_pop popped).1, arms⟩
  | putBuffer other arm ch val buffer calls inFlight spec inScope opened =>
    obtain ⟨rfl, rfl, arms⟩ := result_of_settle core uncommitted returned rfl ⟨rfl, rfl⟩
    exact ⟨.accepted arm ch val spec opened, arms⟩
  | takePutter other arm ch waker putter dead rest calls inFlight spec inScope drained list =>
    have kept := claim_result before waker putter .ok none op
    obtain ⟨rfl, rfl, arms⟩ := result_of_settle core uncommitted returned rfl kept
    exact ⟨.fetched arm ch putter spec (by simp [list]), arms⟩
  | putTaker other arm ch val waker taker dead rest calls inFlight spec inScope opened =>
    have kept := claim_result before waker taker .ok (some { source := ⟨other, arm⟩, val }) op
    obtain ⟨rfl, rfl, arms⟩ := result_of_settle core uncommitted returned rfl kept
    exact ⟨.accepted arm ch val spec opened, arms⟩
  | park other entries inFlight =>
    exfalso
    obtain ⟨⟨gen, ops⟩, -⟩ := park_frame before other entries
    rw [ops] at returned
    by_cases same : op = other
    · subst same
      rw [Function.update_self] at returned
      have done := ((core.call op).result result returned).1
      simp [done, Stage.committed] at uncommitted
    · rw [Function.update_of_ne same] at returned
      have done := ((core.call op).result result returned).1
      simp [done, Stage.committed] at uncommitted
  | shut => exact (result_of_same core uncommitted returned rfl).elim

end Answered

theorem Prepares.uncommitted (prepares : Prepares scope before after)
    (uncommitted : (before.ops op).stage.committed = false) :
    (after.ops op).stage.committed = false := by
  have update : ∀ (other : OpId) (call : Op), (other = op → call.stage.committed = false) →
      (Function.update before.ops other call op).stage.committed = false := by
    intro other call own
    by_cases same : op = other
    · subst same
      rw [Function.update_self]
      exact own rfl
    · rw [Function.update_of_ne same]
      exact uncommitted
  cases prepares with
  | enter other caller arms order select stage absent idle started =>
    rw [(enter_frame before other { caller, arms, order, select, stage }).1]
    apply update other
    rcases started with rfl | ⟨-, rfl⟩ <;> exact fun _ => rfl
  | start target rest queue pending => exact update target.op _ (fun _ => rfl)
  | unlink => exact uncommitted
  | closeWaiter closer target =>
    rw [(claimWith_frame .claiming before target .closed _).2.1]
    apply update target.op
    intro same
    subst same
    exact uncommitted

end Libgoc.Channel
