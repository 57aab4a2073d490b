import Mathlib.Logic.Relation
import Libgoc.Channel.Scheduling

namespace Libgoc.Channel

open Libgoc.Data Relation

/-! # The fast paths of takes and puts -/

variable {state after : State} {scope : Scope}

/-- Only dead waiters have been unlinked. -/
structure Tidies (scope : Scope) (state after : State) : Prop where
  path : ReflTransGen (Prepares scope) state after
  ops : after.ops = state.ops
  fibers : after.fibers = state.fibers
  invocations : after.invocations = state.invocations
  buffer : ∀ ch, (after.chans ch).buffer = (state.chans ch).buffer
  closed : ∀ ch, (after.chans ch).closed = (state.chans ch).closed
  takers : ∀ ch, (after.chans ch).takers.Sublist (state.chans ch).takers
  putters : ∀ ch, (after.chans ch).putters.Sublist (state.chans ch).putters

theorem Tidies.refl (scope : Scope) (state : State) : Tidies scope state state :=
  ⟨.refl, rfl, rfl, rfl, fun _ => rfl, fun _ => rfl, fun _ => .refl _, fun _ => .refl _⟩

theorem Tidies.trans (first : Tidies scope state middle)
    (second : Tidies scope middle after) : Tidies scope state after where
  path := first.path.trans second.path
  ops := second.ops.trans first.ops
  fibers := second.fibers.trans first.fibers
  invocations := second.invocations.trans first.invocations
  buffer ch := (second.buffer ch).trans (first.buffer ch)
  closed ch := (second.closed ch).trans (first.closed ch)
  takers ch := (second.takers ch).trans (first.takers ch)
  putters ch := (second.putters ch).trans (first.putters ch)

theorem Tidies.live (tidies : Tidies scope state after) (target : EntryId) :
    after.live target = state.live target := by
  simp only [State.live, State.entry, tidies.ops]

theorem Tidies.dead (tidies : Tidies scope state after) (dead : state.Dead waiters)
    (left : remaining.Sublist waiters) : after.Dead remaining := by
  intro target member
  rw [tidies.live]
  exact dead target (left.subset member)

theorem Core.along (core : Core state) (path : ReflTransGen (Prepares scope) state after) :
    Core after := by
  induction path with
  | refl => exact core
  | tail _ prepares ih => exact ih.prepared prepares

theorem Tidies.core (tidies : Tidies scope state after) (core : Core state) : Core after :=
  core.along tidies.path

/-- The lists of one channel lose dead waiters. -/
theorem tidies_unlink (ch : ChanId) (takers putters : List EntryId) (dead : Nat)
    (takersLeft : takers.Sublist (state.chans ch).takers)
    (puttersLeft : putters.Sublist (state.chans ch).putters)
    (takersKept : ∀ target ∈ (state.chans ch).takers, state.live target = true →
      target ∈ takers)
    (puttersKept : ∀ target ∈ (state.chans ch).putters, state.live target = true →
      target ∈ putters) :
    Tidies scope state (state.setChan ch { state.chans ch with
      takers, putters, deadCount := dead }) := by
  have chan : ∀ other, other ≠ ch → (state.setChan ch { state.chans ch with
      takers, putters, deadCount := dead }).chans other = state.chans other := by
    intro other different
    simp [State.setChan, different]
  have own : (state.setChan ch { state.chans ch with
      takers, putters, deadCount := dead }).chans ch =
      { state.chans ch with takers, putters, deadCount := dead } := by
    simp [State.setChan]
  refine ⟨.single (.unlink ch takers putters dead takersLeft puttersLeft takersKept puttersKept),
    rfl, rfl, rfl, ?_, ?_, ?_, ?_⟩
  all_goals
    intro other
    by_cases same : other = ch
    · subst same
      simp [own, takersLeft, puttersLeft]
    · rw [chan other same]

def counted (state : State) (ch : ChanId) (dead : Nat) : State :=
  state.setChan ch { state.chans ch with deadCount := dead }

theorem tidies_counted (state : State) (ch : ChanId) (dead : Nat) :
    Tidies scope state (counted state ch dead) :=
  tidies_unlink ch _ _ dead (.refl _) (.refl _) (fun _ member _ => member)
    (fun _ member _ => member)

theorem tidies_compactIfDue (scope : Scope) (state : State) (ch : ChanId) :
    Tidies scope state (compactIfDue state ch) := by
  unfold compactIfDue
  split
  · refine tidies_unlink ch _ _ 0 List.filter_sublist List.filter_sublist ?_ ?_
    all_goals
      intro target member live
      refine List.mem_filter.mpr ⟨member, ?_⟩
      simp only [State.live, Bool.and_eq_true] at live
      exact live.1.1
  · exact .refl scope state

theorem counted_self (state : State) (ch : ChanId) :
    counted state ch (state.chans ch).deadCount = state := by
  simp [counted, State.setChan]

theorem counted_counted (state : State) (ch : ChanId) (first second : Nat) :
    counted (counted state ch first) ch second = counted state ch second := by
  simp [counted, State.setChan]

/-- What the loop over a waiter list finds. -/
inductive Walked (waker : Waker) (ch : ChanId) (value : Option Msg) (state : State)
    (list : List EntryId) : State → List EntryId → Option EntryId → Prop where
  | exhausted (dead : Nat) (allDead : state.Dead list) :
      Walked waker ch value state list (counted state ch dead) [] none
  | claimed (dead : Nat) (skipped : List EntryId) (target : EntryId) (rest : List EntryId)
      (shape : list = skipped ++ target :: rest) (skippedDead : state.Dead skipped)
      (live : state.live target = true)
      (suspended : ∀ self, waker = .spinning → (state.entry target).kind = .fiber self →
        (state.fibers self).parked = 4) :
      Walked waker ch value state list
        (claimWith waker (counted state ch dead) target .ok value) rest (some target)

theorem Walked.skip (headDead : state.live target = false)
    (walked : Walked waker ch value (counted state ch dead) tail after rest found) :
    Walked waker ch value state (target :: tail) after rest found := by
  cases walked with
  | exhausted count allDead =>
    rw [counted_counted]
    exact .exhausted count (List.forall_mem_cons.mpr ⟨headDead, allDead⟩)
  | claimed count skipped winner rest shape skippedDead live suspended =>
    rw [counted_counted]
    exact .claimed count (target :: skipped) winner rest (by rw [shape]; rfl)
      (List.forall_mem_cons.mpr ⟨headDead, skippedDead⟩) live suspended

theorem walk_spec (core : Core state) (linked : ∀ target ∈ list, state.Linked target)
    (ran : walk waker ch value state list = some (after, rest, found)) :
    Walked waker ch value state list after rest found := by
  induction list generalizing state with
  | nil =>
    simp only [walk, Option.some.injEq, Prod.mk.injEq] at ran
    obtain ⟨rfl, rfl, rfl⟩ := ran
    have walked : Walked waker ch value state [] (counted state ch _) [] none :=
      .exhausted (state.chans ch).deadCount (by simp [State.Dead])
    rwa [counted_self] at walked
  | cons target tail ih =>
    obtain ⟨linkedHead, linkedTail⟩ := List.forall_mem_cons.mp linked
    simp only [walk] at ran
    split at ran
    · rename_i cancelled
      have dead : state.live target = false := by simp [State.live, cancelled]
      have walked := ih core linkedTail ran
      rw [← counted_self state ch] at walked
      exact walked.skip dead
    · rename_i kept
      cases live : state.live target with
      | false =>
        rw [run_dead core linkedHead live (by simpa using kept)] at ran
        have kept : Core (countDead state ch) := core.setChan ch _ rfl rfl rfl
        have walked := ih kept linkedTail ran
        exact walked.skip live
      | true =>
        cases outcome : waker.run state ch target value with
        | none => simp [outcome] at ran
        | some pair =>
          obtain ⟨next, woke⟩ := pair
          obtain ⟨rfl, rfl, suspended⟩ := run_live core linkedHead live waker ch value outcome
          simp only [outcome, Option.some.injEq, Prod.mk.injEq] at ran
          obtain ⟨rfl, rfl, rfl⟩ := ran
          have walked : Walked waker ch value state (target :: tail)
              (claimWith waker (counted state ch _) target .ok value) tail (some target) :=
            .claimed (state.chans ch).deadCount [] target tail rfl (by simp [State.Dead]) live
              suspended
          rwa [counted_self] at walked

theorem claimWith_putVal (waker : Waker) (state : State) (target : EntryId) (status : Status)
    (value : Option Msg) :
    ((claimWith waker state target status value).entry target).putVal =
      (state.entry target).putVal := by
  obtain ⟨-, ops, -⟩ := claimWith_frame waker state target status value
  simp [State.entry, ops, Op.claim]

/-- What the hand-over to a parked taker leaves behind. -/
inductive PutToTaker (scope : Scope) (waker : Waker) (ch : ChanId) (msg : Msg) (state : State) :
    State → Bool → Prop where
  | none (final : State) (tidies : Tidies scope state final)
      (empty : (final.chans ch).takers = []) : PutToTaker scope waker ch msg state final false
  | claimed (middle : State) (tidies : Tidies scope state middle) (taker : EntryId)
      (skipped rest : List EntryId)
      (list : (middle.chans ch).takers = skipped ++ taker :: rest)
      (skippedDead : middle.Dead skipped) (live : middle.live taker = true)
      (suspended : ∀ self, waker = .spinning → (middle.entry taker).kind = .fiber self →
        (middle.fibers self).parked = 4) :
      PutToTaker scope waker ch msg state
        ((claimWith waker middle taker .ok (some msg)).setChan ch
          { middle.chans ch with
            takers := rest
            effects := (middle.chans ch).effects ++ [msg]
            deliveries := (middle.chans ch).deliveries ++ [{ msg, receiver := taker }] }) true

theorem chanPutToTaker_spec (scope : Scope) (core : Core state)
    (ran : chanPutToTaker waker state ch msg = some (after, handed)) :
    PutToTaker scope waker ch msg state after handed := by
  cases walked : walk waker ch (some msg) state (state.chans ch).takers with
  | none => simp [chanPutToTaker, walked] at ran
  | some outcome =>
    obtain ⟨middle, left, receiver⟩ := outcome
    have found := walk_spec core
      (fun target member => ((core.link ch).taker target member).1) walked
    cases found with
    | exhausted dead allDead =>
      simp only [chanPutToTaker, walked, Option.some.injEq, Prod.mk.injEq] at ran
      obtain ⟨rfl, rfl⟩ := ran
      refine .none _ ?_ (by simp [State.setChan])
      have unlinked : Tidies scope state _ := tidies_unlink ch [] (state.chans ch).putters dead
        (List.nil_sublist _) (.refl _)
        (fun target member live => by simp [allDead target member] at live)
        (fun _ member _ => member)
      simpa [counted, State.setChan] using unlinked
    | claimed dead skipped taker rest list skippedDead live suspended =>
      simp only [chanPutToTaker, walked, Option.some.injEq, Prod.mk.injEq] at ran
      obtain ⟨rfl, rfl⟩ := ran
      rw [(claimWith_frame waker (counted state ch dead) taker .ok (some msg)).1]
      exact .claimed (counted state ch dead) (tidies_counted state ch dead) taker skipped left
        (by simpa [counted, State.setChan] using list) skippedDead live suspended

/-- What a take from a parked putter leaves behind. -/
inductive TakeFromPutter (scope : Scope) (waker : Waker) (ch : ChanId) (receiver : EntryId) (state : State) :
    State → Option Msg → Prop where
  | none (final : State) (tidies : Tidies scope state final)
      (empty : (final.chans ch).putters = []) :
      TakeFromPutter scope waker ch receiver state final Option.none
  | claimed (middle : State) (tidies : Tidies scope state middle) (putter : EntryId)
      (skipped rest : List EntryId)
      (list : (middle.chans ch).putters = skipped ++ putter :: rest)
      (skippedDead : middle.Dead skipped) (live : middle.live putter = true)
      (suspended : ∀ self, waker = .spinning → (middle.entry putter).kind = .fiber self →
        (middle.fibers self).parked = 4) :
      TakeFromPutter scope waker ch receiver state
        ((claimWith waker middle putter .ok Option.none).setChan ch
          { middle.chans ch with
            putters := rest
            deliveries := (middle.chans ch).deliveries ++
              [{ msg := (middle.entry putter).putVal, receiver }] })
        (some (middle.entry putter).putVal)

theorem chanTakeFromPutter_spec (scope : Scope) (core : Core state)
    (ran : chanTakeFromPutter waker state ch receiver = some (after, found)) :
    TakeFromPutter scope waker ch receiver state after found := by
  cases walked : walk waker ch none state (state.chans ch).putters with
  | none => simp [chanTakeFromPutter, walked] at ran
  | some outcome =>
    obtain ⟨middle, left, putter⟩ := outcome
    have shape := walk_spec core
      (fun target member => ((core.link ch).putter target member).1) walked
    cases shape with
    | exhausted dead allDead =>
      simp only [chanTakeFromPutter, walked, Option.some.injEq, Prod.mk.injEq] at ran
      obtain ⟨rfl, rfl⟩ := ran
      refine .none _ ?_ (by simp [State.setChan])
      have unlinked : Tidies scope state _ := tidies_unlink ch (state.chans ch).takers [] dead
        (.refl _) (List.nil_sublist _) (fun _ member _ => member)
        (fun target member live => by simp [allDead target member] at live)
      simpa [counted, State.setChan] using unlinked
    | claimed dead skipped putter rest list skippedDead live suspended =>
      simp only [chanTakeFromPutter, walked, Option.some.injEq, Prod.mk.injEq,
        claimWith_putVal] at ran
      obtain ⟨rfl, rfl⟩ := ran
      rw [(claimWith_frame waker (counted state ch dead) putter .ok none).1]
      exact .claimed (counted state ch dead) (tidies_counted state ch dead) putter skipped left
        (by simpa [counted, State.setChan] using list) skippedDead live suspended

variable {op : OpId} {arm : Nat} {ch : ChanId}

/-- What a fast path for one arm leaves behind: a change that lets the call
return, or a channel on which the arm is stuck. -/
inductive Attempted (scope : Scope) (op : OpId) (arm : Nat) (ch : ChanId) (spec : Arm)
    (state : State) : State → Attempt → Prop where
  | settled (middle final : State) (attempt : Attempt) (tidies : Tidies scope state middle)
      (ended : attempt ≠ .blocked)
      (changes : ∀ calls, Invoked op (attempt.result ch arm) calls →
        Changes scope middle (settle final op (attempt.result ch arm) calls)) :
      Attempted scope op arm ch spec state final attempt
  | blocked (final : State) (tidies : Tidies scope state final) (stuck : final.Stuck spec) :
      Attempted scope op arm ch spec state final .blocked

theorem takeBuffer_attempted (inFlight : (state.ops op).inFlight)
    (spec : (state.ops op).arms[arm]? = some (.take ch)) (inScope : scope.takes ch)
    (taken : chanTakeFromBuffer state ch ⟨op, arm⟩ = some (after, msg)) :
    Attempted scope op arm ch (.take ch) state after (.taken msg) := by
  cases popped : (state.chans ch).buffer.pop with
  | none => simp [chanTakeFromBuffer, popped] at taken
  | some pair =>
    obtain ⟨value, buffer⟩ := pair
    simp only [chanTakeFromBuffer, popped, Option.some.injEq, Prod.mk.injEq] at taken
    obtain ⟨rfl, rfl⟩ := taken
    exact .settled state _ _ (.refl scope state) (by simp)
      (fun calls invoked => .takeBuffer op arm ch value buffer calls inFlight spec inScope
        popped invoked)

theorem chanTakeFromBuffer_none (missed : chanTakeFromBuffer state ch receiver = none) :
    (state.chans ch).buffer.contents = [] := by
  cases popped : (state.chans ch).buffer.pop with
  | none => exact RingBuffer.pop_eq_none popped
  | some pair => simp [chanTakeFromBuffer, popped] at missed

section

variable (core : Core state) (inFlight : (state.ops op).inFlight)
  (spec : (state.ops op).arms[arm]? = some (.take ch))
include core inFlight spec

theorem takePutter_attempted (inScope : scope.takes ch)
    (drained : (state.chans ch).buffer.contents = [])
    (ran : chanTakeFromPutter waker state ch ⟨op, arm⟩ = some (after, some msg)) :
    Attempted scope op arm ch (.take ch) state after (.taken msg) := by
  cases chanTakeFromPutter_spec scope core ran with
  | claimed middle tidies putter skipped rest list skippedDead live suspended =>
    refine .settled middle _ _ tidies (by simp) (fun calls invoked => ?_)
    exact .takePutter op arm ch waker putter skipped rest calls (by rwa [tidies.ops])
      (by rwa [tidies.ops]) inScope (by rwa [tidies.buffer]) list skippedDead live suspended
      invoked

theorem takeMissed_attempted (drained : (state.chans ch).buffer.contents = [])
    (ran : chanTakeFromPutter waker state ch ⟨op, arm⟩ = some (after, none)) :
    Attempted scope op arm ch (.take ch) state after
      (if (after.chans ch).closed then .closed else .blocked) := by
  cases chanTakeFromPutter_spec scope core ran with
  | none _ tidies empty =>
    have emptied : (after.chans ch).buffer.contents = [] := by rwa [tidies.buffer]
    cases closed : (after.chans ch).closed with
    | true =>
      refine .settled after _ _ tidies (by simp) (fun calls invoked => ?_)
      exact .routine _ (.refuse op _ calls (by rwa [tidies.ops])
        (.closedTake arm ch (by rwa [tidies.ops]) closed emptied) invoked)
    | false =>
      exact .blocked _ tidies ⟨emptied, by simp [empty, State.Dead], closed⟩

theorem takeNow_attempted (inScope : scope.takes ch)
    (ran : takeNow waker state ch ⟨op, arm⟩ = some (after, attempt)) :
    Attempted scope op arm ch (.take ch) state after attempt := by
  simp only [takeNow] at ran
  split at ran
  · rename_i next msg taken
    cases ran
    exact takeBuffer_attempted inFlight spec inScope taken
  · rename_i missed
    have drained := chanTakeFromBuffer_none missed
    split at ran
    · cases ran
    · rename_i next msg taken
      cases ran
      exact takePutter_attempted core inFlight spec inScope drained taken
    · rename_i next alone
      cases ran
      exact takeMissed_attempted core inFlight spec drained alone

theorem altsTake_attempted (inScope : scope.takes ch)
    (ran : altsTake state ch ⟨op, arm⟩ = some (after, attempt)) :
    Attempted scope op arm ch (.take ch) state after attempt := by
  simp only [altsTake] at ran
  split at ran
  · rename_i next msg taken
    cases ran
    exact takeBuffer_attempted inFlight spec inScope taken
  · rename_i missed
    have drained := chanTakeFromBuffer_none missed
    split at ran
    · cases ran
    · rename_i next msg taken
      cases ran
      exact takePutter_attempted core inFlight spec inScope drained taken
    · rename_i next alone
      have counter : (next.chans ch).buffer.count = 0 := by
        cases chanTakeFromPutter_spec scope core alone with
        | none _ tidies empty => rw [tidies.buffer, ← RingBuffer.length_contents, drained]; rfl
      simp only [counter, BEq.rfl, Bool.and_true] at ran
      cases ran
      exact takeMissed_attempted core inFlight spec drained alone

end

theorem putClosed_attempted (inFlight : (state.ops op).inFlight)
    (spec : (state.ops op).arms[arm]? = some (.put ch val))
    (closed : (state.chans ch).closed = true) :
    Attempted scope op arm ch (.put ch val) state state .closed :=
  .settled state _ _ (.refl scope state) (by simp) (fun calls invoked => .routine _
      (.refuse op _ calls inFlight (.closedPut arm ch val spec closed) invoked))

theorem chanPutToBuffer_none (missed : chanPutToBuffer state ch msg = none) :
    (state.chans ch).buffer.contents.length = (state.chans ch).buffer.size := by
  cases pushed : (state.chans ch).buffer.push msg with
  | none => exact RingBuffer.push_eq_none pushed
  | some buffer => simp [chanPutToBuffer, pushed] at missed

theorem putBuffer_attempted (tidies : Tidies scope state middle)
    (inFlight : (state.ops op).inFlight)
    (spec : (state.ops op).arms[arm]? = some (.put ch val)) (inScope : scope.puts ch)
    (opened : (state.chans ch).closed = false)
    (order : scope.early ch ∨ middle.Dead (middle.chans ch).takers)
    (stored : chanPutToBuffer middle ch { source := ⟨op, arm⟩, val } = some after) :
    Attempted scope op arm ch (.put ch val) state after .accepted := by
  cases pushed : (middle.chans ch).buffer.push { source := ⟨op, arm⟩, val } with
  | none => simp [chanPutToBuffer, pushed] at stored
  | some buffer =>
    simp only [chanPutToBuffer, pushed, Option.some.injEq] at stored
    subst stored
    refine .settled middle _ _ tidies (by simp) (fun calls invoked => ?_)
    exact .putBuffer op arm ch val buffer calls (by rwa [tidies.ops]) (by rwa [tidies.ops])
      inScope (by rwa [tidies.closed]) order pushed invoked

section

variable (core : Core state) (inFlight : (state.ops op).inFlight)
  (spec : (state.ops op).arms[arm]? = some (.put ch val)) (inScope : scope.puts ch)
include core inFlight spec inScope

theorem putTaker_attempted (opened : (state.chans ch).closed = false)
    (ran : chanPutToTaker waker state ch { source := ⟨op, arm⟩, val } = some (after, true)) :
    Attempted scope op arm ch (.put ch val) state after .accepted := by
  cases chanPutToTaker_spec scope core ran with
  | claimed middle tidies taker skipped rest list skippedDead live suspended =>
    refine .settled middle _ _ tidies (by simp) (fun calls invoked => ?_)
    exact .putTaker op arm ch val waker taker skipped rest calls (by rwa [tidies.ops])
      (by rwa [tidies.ops]) inScope (by rwa [tidies.closed]) list skippedDead live suspended
      invoked

theorem putNow_attempted
    (ran : putNow waker state ch { source := ⟨op, arm⟩, val } = some (after, attempt)) :
    Attempted scope op arm ch (.put ch val) state after attempt := by
  simp only [putNow] at ran
  split at ran
  · rename_i closed
    cases ran
    exact putClosed_attempted inFlight spec closed
  · rename_i notClosed
    have opened : (state.chans ch).closed = false := by simpa using notClosed
    split at ran
    · cases ran
    · rename_i next handed
      cases ran
      exact putTaker_attempted core inFlight spec inScope opened handed
    · rename_i next alone
      cases chanPutToTaker_spec scope core alone with
      | none _ tidies empty =>
        have noTakers : next.Dead (next.chans ch).takers := by simp [empty, State.Dead]
        split at ran
        · rename_i stored
          cases ran
          exact putBuffer_attempted tidies inFlight spec inScope opened (.inr noTakers) stored
        · rename_i missed
          cases ran
          exact .blocked _ tidies ⟨chanPutToBuffer_none missed, noTakers, by rwa [tidies.closed]⟩

theorem altsTryPut_attempted (early : scope.early ch)
    (ran : altsTryPut state ch { source := ⟨op, arm⟩, val } = some (after, attempt)) :
    Attempted scope op arm ch (.put ch val) state after attempt := by
  simp only [altsTryPut] at ran
  split at ran
  · rename_i closed
    cases ran
    exact putClosed_attempted inFlight spec closed
  · rename_i notClosed
    have opened : (state.chans ch).closed = false := by simpa using notClosed
    split at ran
    · rename_i stored
      cases ran
      exact putBuffer_attempted (.refl scope state) inFlight spec inScope opened (.inl early) stored
    · rename_i missed
      split at ran
      · cases ran
      · rename_i next handed
        cases ran
        exact putTaker_attempted core inFlight spec inScope opened handed
      · rename_i next alone
        cases ran
        cases chanPutToTaker_spec scope core alone with
        | none _ tidies empty =>
          refine .blocked _ tidies ⟨?_, by simp [empty, State.Dead], by rwa [tidies.closed]⟩
          rw [tidies.buffer]
          exact chanPutToBuffer_none missed

end

end Libgoc.Channel
