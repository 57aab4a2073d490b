import Libgoc.Data.Handoff
import Libgoc.Channel.Effects

namespace Libgoc.Channel

open Libgoc.Data Libgoc.Semantics Relation

/-! # A channel is a bounded queue -/

def State.view (state : State) (ch : ChanId) : Handoff EntryId EntryId where
  size := (state.chans ch).buffer.size
  stored := (state.chans ch).buffer.contents.map Msg.source
  takers := (state.chans ch).takers.filter state.live
  putters := (state.chans ch).putters.filter state.live
  closed := (state.chans ch).closed
  effects := (state.chans ch).effects.map Msg.source
  taken := (state.chans ch).deliveries.map fun delivery => delivery.msg.source

theorem dead_iff {state : State} :
    state.Dead waiters ↔ waiters.filter state.live = [] := by
  simp [State.Dead, List.filter_eq_nil_iff]

variable {before after : State} {scope : Scope} {op : OpId} {call : Op}

theorem filter_sublist_filter {left right : List α}
    (sublist : left.Sublist right) (implies : ∀ item ∈ right, first item = true →
      second item = true) : (left.filter first).Sublist (right.filter second) := by
  have same : right.filter first = (right.filter second).filter first := by
    rw [List.filter_filter]
    refine List.filter_congr fun item member => ?_
    cases holds : first item with
    | false => simp
    | true => simp [implies item member holds]
  exact (sublist.filter first).trans (same ▸ List.filter_sublist)

variable {ch : ChanId}

theorem Core.view_fewer (core : Core before) (wanes : Wanes before after)
    {left right : List EntryId} (takers : left.Sublist (before.chans ch).takers)
    (putters : right.Sublist (before.chans ch).putters) :
    (left.filter after.live).Sublist (before.view ch).takers ∧
      (right.filter after.live).Sublist (before.view ch).putters :=
  ⟨filter_sublist_filter takers fun target member =>
      wanes target ((core.link ch).taker target member).1,
    filter_sublist_filter putters fun target member =>
      wanes target ((core.link ch).putter target member).1⟩

theorem Core.view_leave (core : Core before) (wanes : Wanes before after)
    (buffer : (after.chans ch).buffer = (before.chans ch).buffer)
    (takers : (after.chans ch).takers.Sublist (before.chans ch).takers)
    (putters : (after.chans ch).putters.Sublist (before.chans ch).putters)
    (closed : (before.chans ch).closed = true → (after.chans ch).closed = true)
    (effects : (after.chans ch).effects = (before.chans ch).effects)
    (deliveries : (after.chans ch).deliveries = (before.chans ch).deliveries) :
    (before.view ch).Step .leave (after.view ch) := by
  obtain ⟨fewerTakers, fewerPutters⟩ := core.view_fewer wanes takers putters
  have step := Handoff.Step.leave _ _ (after.chans ch).closed fewerTakers fewerPutters closed
  simpa only [State.view, buffer, effects, deliveries] using step

theorem Core.view_same (core : Core before) (wanes : Wanes before after)
    (chan : after.chans ch = before.chans ch) : (before.view ch).Step .leave (after.view ch) :=
  core.view_leave wanes (by rw [chan]) (by rw [chan]) (by rw [chan]) (by simp [chan])
    (by rw [chan]) (by rw [chan])

theorem Prepares.view (prepares : Prepares scope before after) (core : Core before) (ch : ChanId) :
    (before.view ch).Step .leave (after.view ch) := by
  have wanes := prepares.wanes core
  cases prepares with
  | enter op caller arms order select stage absent =>
    obtain ⟨-, chans, -⟩ := enter_frame before op { caller, arms, order, select, stage }
    exact core.view_same wanes (by rw [chans])
  | start source rest queue pending => exact core.view_same wanes rfl
  | unlink other takers putters dead takersLeft puttersLeft =>
    by_cases same : ch = other
    · subst same
      refine core.view_leave wanes ?_ ?_ ?_ ?_ ?_ ?_ <;> simp [State.setChan, *]
    · exact core.view_same wanes (by simp [State.setChan, same])
  | closeWaiter => exact core.view_same wanes (by simp)

/-- What the scope of a step and the calls in it allow. -/
structure Permits (scope : Scope) (before : State) (ch : ChanId) (action : Handoff.Action) :
    Prop where
  take : action = .take → scope.takes ch
  store : ∀ early, action = .store early → scope.puts ch
  early : action = .store true → scope.early ch
  select : action = .wait false → ∃ op, (before.ops op).select = true

theorem permits_leave : Permits scope before ch .leave := by
  constructor <;> simp

theorem permits_give : Permits scope before ch .give := by
  constructor <;> simp

theorem permits_fetch : Permits scope before ch .fetch := by
  constructor <;> simp

/-- While a call that has not parked moves on, the waiters of the channels
stay. -/
theorem Core.view_kept (core : Core before) (ops : after.ops = Function.update before.ops op call)
    (uncommitted : (before.ops op).stage.committed = false)
    (takers : (after.chans ch).takers = (before.chans ch).takers)
    (putters : (after.chans ch).putters = (before.chans ch).putters)
    (closed : (after.chans ch).closed = (before.chans ch).closed)
    (size : (after.chans ch).buffer.size = (before.chans ch).buffer.size) :
    after.view ch = { before.view ch with
      stored := (after.chans ch).buffer.contents.map Msg.source
      effects := (after.chans ch).effects.map Msg.source
      taken := (after.chans ch).deliveries.map fun delivery => delivery.msg.source } := by
  have sameTakers : (before.chans ch).takers.filter after.live =
      (before.chans ch).takers.filter before.live :=
    List.filter_congr fun target member =>
      core.live_unparked ops uncommitted ((core.link ch).taker target member).1
  have samePutters : (before.chans ch).putters.filter after.live =
      (before.chans ch).putters.filter before.live :=
    List.filter_congr fun target member =>
      core.live_unparked ops uncommitted ((core.link ch).putter target member).1
  simp only [State.view, takers, putters, closed, size, sameTakers, samePutters]

section Channel

variable {other : ChanId} {chan : Chan} {result : Result} {calls : List Invocation}

theorem Core.view_buffer (core : Core before) (action : Handoff.Action)
    (inFlight : (before.ops op).inFlight)
    (takers : chan.takers = (before.chans other).takers)
    (putters : chan.putters = (before.chans other).putters)
    (closed : chan.closed = (before.chans other).closed)
    (size : chan.buffer.size = (before.chans other).buffer.size)
    (step : (before.view other).Step action { before.view other with
      stored := chan.buffer.contents.map Msg.source
      effects := chan.effects.map Msg.source
      taken := chan.deliveries.map fun delivery => delivery.msg.source })
    (permits : Permits scope before other action) (ch : ChanId) :
    ∃ action, (before.view ch).Step action
      ((Channel.settle (before.setChan other chan) op result calls).view ch) ∧
      Permits scope before ch action := by
  obtain ⟨ops, chans, -⟩ := settle_frame (before.setChan other chan) op result calls
  have uncommitted := inFlight_uncommitted inFlight
  by_cases same : ch = other
  · subst same
    refine ⟨action, ?_, permits⟩
    have own : (Channel.settle (before.setChan ch chan) op result calls).chans ch = chan := by
      rw [chans, setChan_self]
    rw [← own] at takers putters closed size step
    rw [core.view_kept ops uncommitted takers putters closed size]
    exact step
  · refine ⟨.leave, core.view_same (fun target linked live => ?_) ?_, permits_leave⟩
    · exact (core.live_unparked ops uncommitted linked).symm.trans live
    · simp [State.setChan, same]

theorem Core.view_handOver (core : Core before) (action : Handoff.Action)
    (inFlight : (before.ops op).inFlight)
    (closed : chan.closed = (before.chans other).closed)
    (buffer : chan.buffer = (before.chans other).buffer)
    (step : ∀ live : EntryId → Bool, (∀ waiter, before.Linked waiter → live waiter = true →
        before.live waiter = true) →
      (before.view other).Step action { before.view other with
        takers := chan.takers.filter live
        putters := chan.putters.filter live
        effects := chan.effects.map Msg.source
        taken := chan.deliveries.map fun delivery => delivery.msg.source })
    (permits : Permits scope before other action) (ch : ChanId) :
    ∃ action, (before.view ch).Step action
      ((Channel.settle ((claimWith waker before target .ok value).setChan other chan) op result
        calls).view ch) ∧ Permits scope before ch action := by
  have wanes : Wanes before (Channel.settle
      ((claimWith waker before target .ok value).setChan other chan) op result calls) :=
    core.wanes_handOver inFlight
  by_cases same : ch = other
  · subst same
    refine ⟨action, ?_, permits⟩
    simpa only [State.view, settle_chans, setChan_self, buffer, closed] using step _ wanes
  · exact ⟨.leave, core.view_same wanes (by simp [State.setChan, same]), permits_leave⟩

end Channel

theorem filter_found (skipped : ∀ waiter ∈ dead, live waiter = false) (found : live target = true) :
    (dead ++ target :: rest).filter live = target :: rest.filter live := by
  have none : dead.filter live = [] := by
    simpa [List.filter_eq_nil_iff] using skipped
  simp [none, found]

theorem Committed.fresh (committed : Committed before) (inFlight : (before.ops op).inFlight)
    (arm : Nat) (ch : ChanId) : (⟨op, arm⟩ : EntryId) ∉ (before.view ch).effects := by
  intro member
  obtain ⟨msg, found, same⟩ := List.mem_map.mp member
  have source := committed ch msg found
  simp [same, inFlight_uncommitted inFlight] at source

theorem filter_linked {old new : List EntryId} (kept : ∀ target ∈ old, first target = second target)
    (alive : ∀ target ∈ new, first target = true) :
    (old ++ new).filter first = old.filter second ++ new := by
  rw [List.filter_append, List.filter_congr kept, List.filter_eq_self.mpr alive]

/-- The takers and putters a call adds to a channel when it parks. -/
def State.newTakers (state : State) (op : OpId) (ch : ChanId) : List EntryId :=
  (state.ops op).order.filterMap (takerOf op (state.ops op).arms ch)

def State.newPutters (state : State) (op : OpId) (ch : ChanId) : List EntryId :=
  ((state.ops op).order.filterMap (putOf op (state.ops op).arms ch)).map Msg.source

theorem Blocked.takers_stuck (blocked : Blocked before op) (some : before.newTakers op ch ≠ []) :
    before.Stuck (.take ch) := by
  obtain ⟨target, member⟩ := List.exists_mem_of_ne_nil _ some
  obtain ⟨-, arm, spec⟩ := mem_filterMap_takerOf.mp member
  exact blocked _ arm _ spec

theorem Blocked.putters_stuck (blocked : Blocked before op)
    (some : before.newPutters op ch ≠ []) : ∃ val, before.Stuck (.put ch val) := by
  obtain ⟨target, member⟩ := List.exists_mem_of_ne_nil _ some
  obtain ⟨msg, found, -⟩ := List.mem_map.mp member
  obtain ⟨-, arm, spec⟩ := mem_filterMap_putOf.mp found
  exact ⟨msg.val, blocked _ arm _ spec⟩

theorem newWaiters_single (order : (before.ops op).order = [0]) (ch : ChanId) :
    before.newTakers op ch = [] ∨ before.newPutters op ch = [] := by
  simp only [State.newTakers, State.newPutters, order, List.filterMap_cons, List.filterMap_nil]
  cases spec : (before.ops op).arms[0]? with
  | none => simp [takerOf, spec]
  | some arm => cases arm <;> simp [takerOf, putOf, spec]

/-- The entries a call links are alive; the waiters of other calls stay as they
are. -/
theorem Core.view_parked (core : Core before) (op : OpId) (entries : Nat → Nat → Entry)
    (inFlight : (before.ops op).inFlight)
    (fresh : ∀ gen arm, (entries gen arm).woken = false ∧ (entries gen arm).cancelled = false)
    (coreAfter : Core (Channel.park before op entries)) (ch : ChanId) :
    (Channel.park before op entries).view ch = { before.view ch with
      takers := (before.view ch).takers ++ before.newTakers op ch
      putters := (before.view ch).putters ++ before.newPutters op ch
      effects := (before.view ch).effects ++ before.newPutters op ch } := by
  obtain ⟨⟨gen, ops⟩, chans, -⟩ := park_frame before op entries
  have uncommitted := inFlight_uncommitted inFlight
  have chan : (Channel.park before op entries).chans ch = linkedChan op (before.ops op).arms ch
      (before.ops op).order (before.chans ch) := by rw [chans]
  have unclaimed : ((Channel.park before op entries).ops op).unclaimed := by
    simp [ops, Op.unclaimed, Op.claimed, fresh]
  have takers : ((before.chans ch).takers ++ before.newTakers op ch).filter
      (Channel.park before op entries).live =
      (before.chans ch).takers.filter before.live ++ before.newTakers op ch := by
    refine filter_linked (fun target member => ?_) (fun target member => ?_)
    · exact core.live_unparked ops uncommitted ((core.link ch).taker target member).1
    · have linked := ((coreAfter.link ch).taker target
        (by rw [chan]; exact List.mem_append_right _ member)).1
      exact (coreAfter.live_iff linked).mpr ((mem_filterMap_takerOf.mp member).1 ▸ unclaimed)
  have putters : ((before.chans ch).putters ++ before.newPutters op ch).filter
      (Channel.park before op entries).live =
      (before.chans ch).putters.filter before.live ++ before.newPutters op ch := by
    refine filter_linked (fun target member => ?_) (fun target member => ?_)
    · exact core.live_unparked ops uncommitted ((core.link ch).putter target member).1
    · have linked := ((coreAfter.link ch).putter target
        (by rw [chan]; exact List.mem_append_right _ member)).1
      obtain ⟨msg, found, rfl⟩ := List.mem_map.mp member
      exact (coreAfter.live_iff linked).mpr ((mem_filterMap_putOf.mp found).1 ▸ unclaimed)
  simp only [State.newTakers, State.newPutters] at takers putters
  simp only [State.view, chan, linkedChan, takers, putters, State.newTakers, State.newPutters,
    List.map_append]

theorem Core.view_park (core : Core before) (committed : Committed before) (op : OpId)
    (entries : Nat → Nat → Entry) (inFlight : (before.ops op).inFlight)
    (blocked : Blocked before op)
    (fresh : ∀ gen arm, (entries gen arm).woken = false ∧ (entries gen arm).cancelled = false)
    (coreAfter : Core (Channel.park before op entries)) (ch : ChanId) :
    ∃ action, (before.view ch).Step action ((Channel.park before op entries).view ch) ∧
      Permits scope before ch action := by
  have facts := core.call op
  refine ⟨.wait (!(before.ops op).select), ?_, ⟨by simp, by simp, by simp, ?_⟩⟩
  · rw [core.view_parked op entries inFlight fresh coreAfter ch]
    refine .wait _ _ _ ?_ ?_ ?_ ?_ (nodup_filterMap_putOf facts.distinct) ?_
    · rintro (someTaker | somePutter)
      · exact (blocked.takers_stuck someTaker).2.2
      · obtain ⟨val, stuck⟩ := blocked.putters_stuck somePutter
        exact stuck.2.2
    · intro single
      have started : (before.ops op).stage ≠ .absent := by
        rcases inFlight with stage | ⟨rest, stage⟩ <;> simp [stage]
      exact newWaiters_single (facts.single started (by simpa using single)) ch
    · intro some
      obtain ⟨drained, dead, -⟩ := blocked.takers_stuck some
      exact ⟨by simp [State.view, drained], dead_iff.mp dead⟩
    · intro some
      obtain ⟨val, full, dead, -⟩ := blocked.putters_stuck some
      exact ⟨by simpa [State.view] using full, dead_iff.mp dead⟩
    · intro put member
      obtain ⟨msg, found, rfl⟩ := List.mem_map.mp member
      have source := (mem_filterMap_putOf.mp found).1
      have unlisted := committed.fresh inFlight msg.source.arm ch
      rwa [← source] at unlisted
  · intro single
    exact ⟨op, by simpa using single⟩

theorem Changes.view (changes : Changes scope before after) (core : Core before)
    (committed : Committed before) (ch : ChanId) :
    ∃ action, (before.view ch).Step action (after.view ch) ∧ Permits scope before ch action := by
  have coreAfter := core.changed changes
  cases changes with
  | routine _ routine =>
    obtain ⟨chans, -⟩ := routine.frame
    exact ⟨.leave, core.view_same ((routine.callStep core).wanes core coreAfter) (by rw [chans]),
      permits_leave⟩
  | control _ controls =>
    have kept := controls.undisturbed
    obtain ⟨guard, hook, same⟩ := kept.chan ch
    refine ⟨.leave, core.view_leave (CallStep.same kept.ops |>.wanes core coreAfter) ?_ ?_ ?_ ?_ ?_ ?_,
      permits_leave⟩ <;> simp [same]
  | takeBuffer op arm other msg buffer calls inFlight spec inScope popped invoked =>
    obtain ⟨contents, size⟩ := RingBuffer.contents_pop popped
    have step : (before.view other).Step .take _ :=
      .take msg.source (buffer.contents.map Msg.source) (by simp [State.view, contents])
    refine core.view_buffer .take inFlight ?_ ?_ ?_ ?_ ?_ ?_ ch
    · rfl
    · rfl
    · rfl
    · exact size
    · simpa [State.view] using step
    · exact ⟨fun _ => inScope, by simp, by simp, by simp⟩
  | putBuffer op arm other val buffer calls inFlight spec inScope opened order pushed invoked =>
    obtain ⟨contents, size⟩ := RingBuffer.contents_push pushed
    have room : (before.view other).stored.length < (before.view other).size := by
      have bounded := buffer.bounded
      rw [← RingBuffer.length_contents, contents, size, List.length_append] at bounded
      rw [State.view, List.length_map]
      exact bounded
    have stores : ∀ early, (early = false → (before.view other).takers = []) →
        (before.view other).Step (.store early) _ := fun early patient =>
      .store early ⟨op, arm⟩ opened room patient (committed.fresh inFlight arm other)
    rcases order with early | dead
    · refine core.view_buffer (.store true) inFlight ?_ ?_ ?_ ?_ ?_ ?_ ch
      · rfl
      · rfl
      · rfl
      · exact size
      · simpa [State.view, contents] using stores true (by simp)
      · exact ⟨by simp, fun _ _ => inScope, fun _ => early, by simp⟩
    · refine core.view_buffer (.store false) inFlight ?_ ?_ ?_ ?_ ?_ ?_ ch
      · rfl
      · rfl
      · rfl
      · exact size
      · simpa [State.view, contents] using stores false (fun _ => dead_iff.mp dead)
      · exact ⟨by simp, fun _ _ => inScope, by simp, by simp⟩
  | takePutter op arm other waker putter dead rest calls inFlight spec inScope drained list
      skipped live suspended invoked =>
      have linked := (core.link other).putter
      obtain ⟨parked, val, putSpec⟩ := linked putter (by simp [list])
      have value := core.putVal_eq parked putSpec
      refine core.view_handOver .fetch inFlight ?_ ?_ ?_ permits_fetch ch
      · rfl
      · rfl
      · intro alive wanes
        have step : (before.view other).Step .fetch _ :=
          .fetch putter (rest.filter before.live) ((before.chans other).takers.filter alive)
            (rest.filter alive) (by simp [State.view, drained])
            (by simp only [State.view, list]; exact filter_found skipped live)
            (filter_sublist_filter (.refl _) fun waiter member =>
              wanes waiter ((core.link other).taker waiter member).1)
            (filter_sublist_filter (.refl _) fun waiter member =>
              wanes waiter (linked waiter (by simp [list, member])).1)
        simpa [State.view, value] using step
  | putTaker op arm other val waker taker dead rest calls inFlight spec inScope opened list skipped
      live suspended invoked =>
      have linked := (core.link other).taker
      refine core.view_handOver .give inFlight ?_ ?_ ?_ permits_give ch
      · rfl
      · rfl
      · intro alive wanes
        have step : (before.view other).Step .give _ :=
          .give ⟨op, arm⟩ taker (rest.filter before.live) (rest.filter alive)
            ((before.chans other).putters.filter alive) opened
            (by simp only [State.view, list]; exact filter_found skipped live)
            (filter_sublist_filter (.refl _) fun waiter member =>
              wanes waiter (linked waiter (by simp [list, member])).1)
            (filter_sublist_filter (.refl _) fun waiter member =>
              wanes waiter ((core.link other).putter waiter member).1)
            (committed.fresh inFlight arm other)
        simpa [State.view] using step
  | park op entries inFlight blocked prepared fresh =>
    exact core.view_park committed op entries inFlight blocked fresh coreAfter ch
  | shut closer closing takersDead puttersDead =>
    by_cases same : ch = (before.closers closer).ch
    · refine ⟨.leave, core.view_leave (fun _ _ live => live) ?_ ?_ ?_ ?_ ?_ ?_, permits_leave⟩ <;>
        simp [setCloser, State.setChan, same]
    · exact ⟨.leave, core.view_same (fun _ _ live => live)
        (by simp [setCloser, State.setChan, same]), permits_leave⟩

end Libgoc.Channel
