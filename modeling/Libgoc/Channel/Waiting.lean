import Mathlib.Data.List.Monad
import Mathlib.Logic.Function.Basic
import Libgoc.Channel.Queues

namespace Libgoc.Channel

open Libgoc.Data Libgoc.Semantics

/-! # Who waits while a channel could serve them -/

variable {state : State}

/-- A put arm finds no taker it could serve, or no room. -/
def State.TakerlessOrFull (state : State) : Arm → Prop
  | .put ch _ => state.Dead (state.chans ch).takers ∨
      (state.chans ch).buffer.contents.length = (state.chans ch).buffer.size
  | _ => True

instance (state : State) : DecidablePred state.TakerlessOrFull
  | .put _ _ => inferInstanceAs (Decidable (_ ∨ _))
  | .take _ | .default => inferInstanceAs (Decidable True)

/-- The first scan of a select stores no value past a taker. -/
def TakersFirst (state : State) : Label → Prop
  | .altsTry op => ∀ spec ∈ (Label.altsTry op).arms state, state.TakerlessOrFull spec
  | _ => True

instance (state : State) (label : Label) : Decidable (TakersFirst state label) :=
  match label with
  | .altsTry .. => inferInstanceAs (Decidable (∀ spec ∈ _, _))
  | .take .. | .put .. | .takeSync .. | .putSync .. | .takeTry .. | .takeCb .. | .putCb .. |
    .drain | .alts .. | .altsPark .. | .altsCancel .. | .suspend .. | .post .. | .resume .. |
    .syncResume .. | .close .. | .closeDispatch .. | .closeClaim .. | .closeBody .. |
    .closeFinish .. | .setOnClose .. | .callHook .. => inferInstanceAs (Decidable True)

theorem live_taker_buffer_empty (reachable : system.ReachableWith TakersFirst state)
    (ch : ChanId) (taker : EntryId) (parked : taker ∈ (state.chans ch).takers)
    (live : state.live taker = true) : (state.chans ch).buffer.contents = [] := by
  have idle : (state.view ch).Idle := by
    refine queue_invariant reachable (fun size waiting => absurd rfl waiting)
      (fun queue next idle step => step.idle idle (by simp)) ?_ ch
    intro start label ch queue action next admits idle step
    refine step.idle idle fun stored => ?_
    obtain ⟨op, val, rfl, member⟩ := admits.early stored
    rcases admits.permitted _ member with dead | full
    · exact .inl (Handoff.nil_of_sublist admits.fewer.takers (dead_iff.mp dead))
    · refine .inr ?_
      rw [admits.fewer.stored, admits.fewer.size]
      simpa [State.view] using full
  have stored := idle (List.ne_nil_of_mem (List.mem_filter.mpr ⟨parked, live⟩))
  simpa [State.view] using stored

def servedLastRun : List Label :=
  [.takeSync 0 0, .putSync 1 1 5, .alts 2 .thread [.put 1 6] [0], .altsTry 2]

theorem servedLastRun_taker_buffer_empty :
    ∃ state, system.runWith TakersFirst (initialState fun _ => 1) servedLastRun = some state ∧
      ⟨0, 0⟩ ∈ (state.chans 0).takers ∧ state.live ⟨0, 0⟩ = true ∧
      (state.chans 0).buffer.contents = [] :=
  ⟨_, rfl, by decide, rfl,
    live_taker_buffer_empty (.of_run system TakersFirst servedLastRun ⟨fun _ => 1, rfl⟩ rfl) 0
      ⟨0, 0⟩ (by decide) rfl⟩

def storedPastTakerRun : List Label :=
  [.take 0 0 0, .suspend 0, .alts 1 .thread [.put 0 7] [0], .altsTry 1]

/-- A select stores a value and leaves the taker that could receive it parked. -/
theorem select_stores_past_live_taker :
    ∃ state, system.Reachable state ∧ ⟨0, 0⟩ ∈ (state.chans 0).takers ∧
      state.live ⟨0, 0⟩ = true ∧ (state.ops 1).stage = .done ∧
      (state.chans 0).buffer.contents = [{ source := ⟨1, 0⟩, val := 7 }] :=
  ⟨_, .of_run system storedPastTakerRun ⟨fun _ => 1, rfl⟩ rfl, by decide, rfl, rfl, rfl⟩

/-- A take arm finds no value in the buffer, or no putter parked behind it. -/
def State.PutterlessOrDrained (state : State) : Arm → Prop
  | .take ch => (state.chans ch).buffer.contents = [] ∨ state.Dead (state.chans ch).putters
  | _ => True

instance (state : State) : DecidablePred state.PutterlessOrDrained
  | .take _ => inferInstanceAs (Decidable (_ ∨ _))
  | .put _ _ | .default => inferInstanceAs (Decidable True)

/-- No take frees a slot of a buffer on which a putter waits. -/
def PuttersServed (state : State) (label : Label) : Prop :=
  ∀ spec ∈ label.arms state, state.PutterlessOrDrained spec

instance (state : State) (label : Label) : Decidable (PuttersServed state label) :=
  inferInstanceAs (Decidable (∀ spec ∈ label.arms state, state.PutterlessOrDrained spec))

theorem live_putter_buffer_full (reachable : system.ReachableWith PuttersServed state)
    (ch : ChanId) (putter : EntryId) (parked : putter ∈ (state.chans ch).putters)
    (live : state.live putter = true) :
    (state.chans ch).buffer.contents.length = (state.chans ch).buffer.size := by
  have packed : (state.view ch).Packed := by
    refine queue_invariant reachable (fun size waiting => absurd rfl waiting)
      (fun queue next packed step => step.packed packed (by simp)) ?_ ch
    intro start label ch queue action next admits packed step
    refine step.packed packed fun taken stored => ?_
    rcases admits.permitted _ (admits.take taken) with drained | dead
    · rw [admits.fewer.stored] at stored
      exact absurd (by simp [State.view, drained]) stored
    · exact Handoff.nil_of_sublist admits.fewer.putters (dead_iff.mp dead)
  have full := packed (List.ne_nil_of_mem (List.mem_filter.mpr ⟨parked, live⟩))
  simpa [State.view] using full

def refilledRun : List Label :=
  [.putSync 0 0 1, .takeSync 1 0, .putSync 2 0 2, .putSync 3 0 3]

theorem refilledRun_putter_buffer_full :
    ∃ state, system.runWith PuttersServed (initialState fun _ => 1) refilledRun = some state ∧
      ⟨3, 0⟩ ∈ (state.chans 0).putters ∧ state.live ⟨3, 0⟩ = true ∧
      (state.chans 0).buffer.contents.length = (state.chans 0).buffer.size :=
  ⟨_, rfl, by decide, rfl,
    live_putter_buffer_full (.of_run system PuttersServed refilledRun ⟨fun _ => 1, rfl⟩ rfl) 0
      ⟨3, 0⟩ (by decide) rfl⟩

def freedSlotRun : List Label :=
  [.putSync 0 0 1, .putSync 1 0 2, .takeSync 2 0]

/-- A take frees a slot and leaves the putter that waits for it parked. -/
theorem take_leaves_live_putter_beside_room :
    ∃ state, system.Reachable state ∧ ⟨1, 0⟩ ∈ (state.chans 0).putters ∧
      state.live ⟨1, 0⟩ = true ∧ (state.chans 0).closed = false ∧
      (state.chans 0).buffer.contents.length < (state.chans 0).buffer.size :=
  ⟨_, .of_run system freedSlotRun ⟨fun _ => 1, rfl⟩ rfl, by decide, rfl, rfl, by decide⟩

/-- A put arm finds no room in the buffer, or no putter parked before it. -/
def State.PutterlessOrFull (state : State) : Arm → Prop
  | .put ch _ => (state.chans ch).buffer.contents.length = (state.chans ch).buffer.size ∨
      state.Dead (state.chans ch).putters
  | _ => True

instance (state : State) : DecidablePred state.PutterlessOrFull
  | .put _ _ => inferInstanceAs (Decidable (_ ∨ _))
  | .take _ | .default => inferInstanceAs (Decidable True)

/-- Takes and puts without select, in which no put is stored past a parked
putter. -/
def PutsInTurn (state : State) : Label → Prop
  | .alts _ _ _ _ | .altsTry _ | .altsPark _ | .altsCancel _ => False
  | label => ∀ spec ∈ label.arms state, state.PutterlessOrFull spec

instance (state : State) (label : Label) : Decidable (PutsInTurn state label) :=
  match label with
  | .alts .. | .altsTry .. | .altsPark .. | .altsCancel .. => inferInstanceAs (Decidable False)
  | .take .. | .put .. | .takeSync .. | .putSync .. | .takeTry .. | .takeCb .. | .putCb .. |
    .drain | .suspend .. | .post .. | .resume .. | .syncResume .. | .close .. |
    .closeDispatch .. | .closeClaim .. | .closeBody .. | .closeFinish .. | .setOnClose .. |
    .callHook .. => inferInstanceAs (Decidable (∀ spec ∈ _, _))

theorem PutsInTurn.plain (inTurn : PutsInTurn state label) :
    ¬(label.scope state).selects ∧ (∀ op, label ≠ .altsTry op) ∧
      ∀ spec ∈ label.arms state, state.PutterlessOrFull spec := by
  cases label <;> simp_all [PutsInTurn, Label.scope]

def Chan.puts (chan : Chan) : List EntryId :=
  chan.effects.map Msg.source

def Chan.taken (chan : Chan) : List EntryId :=
  chan.deliveries.map fun delivery => delivery.msg.source

theorem puts_nodup (reachable : system.ReachableWith PutsInTurn state) (ch : ChanId) :
    (state.chans ch).puts.Nodup :=
  @queue_invariant _ _ (fun queue => queue.effects.Nodup) reachable (fun _ => List.nodup_nil)
    (fun _ _ distinct step => step.effects_nodup distinct)
    (fun _ _ _ _ _ _ _ distinct step => step.effects_nodup distinct) ch

theorem taken_sublist_puts (reachable : system.ReachableWith PutsInTurn state) (ch : ChanId) :
    (state.chans ch).taken.Sublist (state.chans ch).puts := by
  have ordered : (state.view ch).Ordered := by
    refine queue_invariant reachable (fun size => ⟨.slnil, fun waiting => absurd rfl waiting⟩)
      (fun queue next ordered step => step.ordered ordered (by simp) (by simp) (by simp)) ?_ ch
    intro start label ch queue action next admits ordered step
    obtain ⟨-, notTry, turn⟩ := admits.permitted.plain
    refine step.ordered ordered ?_ (admits.plain fun _ _ inTurn => inTurn.plain.1) ?_
    · intro early
      obtain ⟨op, -, tries, -⟩ := admits.early early
      exact notTry op tries
    · intro stored room
      obtain ⟨val, member⟩ := admits.store _ stored
      rcases turn _ member with full | dead
      · rw [admits.fewer.stored, admits.fewer.size] at room
        simp [State.view, full] at room
      · exact Handoff.nil_of_sublist admits.fewer.putters (dead_iff.mp dead)
  refine List.Sublist.trans ?_ ordered.order
  rw [List.append_assoc]
  exact List.sublist_append_left _ _

theorem values_taken_in_order (reachable : system.ReachableWith PutsInTurn state) (ch : ChanId)
    (first second : EntryId) (order : [first, second].Sublist (state.chans ch).puts)
    (firstTaken : first ∈ (state.chans ch).taken) (secondTaken : second ∈ (state.chans ch).taken) :
    (state.chans ch).taken.Nodup ∧ [first, second].Sublist (state.chans ch).taken := by
  have distinct := puts_nodup reachable ch
  have part := taken_sublist_puts reachable ch
  exact ⟨distinct.sublist part, Handoff.pair_sublist part distinct order firstTaken secondTaken⟩

def inTurnRun : List Label :=
  [.putSync 0 0 1, .putSync 1 0 2, .takeSync 2 0, .takeSync 3 0]

theorem inTurnRun_values_in_order :
    ∃ state, system.runWith PutsInTurn (initialState fun _ => 1) inTurnRun = some state ∧
      [⟨0, 0⟩, ⟨1, 0⟩].Sublist (state.chans 0).puts ∧
      [⟨0, 0⟩, ⟨1, 0⟩].Sublist (state.chans 0).taken :=
  ⟨_, rfl, by decide,
    (values_taken_in_order (.of_run system PutsInTurn inTurnRun ⟨fun _ => 1, rfl⟩ rfl) 0
      ⟨0, 0⟩ ⟨1, 0⟩ (by decide) (by decide) (by decide)).2⟩

def overtakingRun : List Label :=
  [.putSync 0 0 1, .putSync 1 0 2, .takeSync 2 0, .putSync 3 0 3, .takeSync 4 0, .takeSync 5 0]

/-- A put that finds the slot a take has freed overtakes the putter parked
before it. -/
theorem put_overtakes_parked_putter :
    ∃ state, system.Reachable state ∧ [⟨1, 0⟩, ⟨3, 0⟩].Sublist (state.chans 0).puts ∧
      (state.chans 0).taken = [⟨0, 0⟩, ⟨3, 0⟩, ⟨1, 0⟩] :=
  ⟨_, .of_run system overtakingRun ⟨fun _ => 1, rfl⟩ rfl, by decide, by decide⟩

end Libgoc.Channel
