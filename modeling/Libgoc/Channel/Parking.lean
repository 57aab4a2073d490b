import Mathlib.Data.List.Nodup
import Libgoc.Channel.Preservation

namespace Libgoc.Channel

/-! # Parking a call -/

variable {state after : State} {op : OpId} {arms : List Arm} {ch : ChanId} {order : List Nat}

/-- The entry an arm links as a taker of the channel. -/
def takerOf (op : OpId) (arms : List Arm) (ch : ChanId) (arm : Nat) : Option EntryId :=
  if arms[arm]? = some (.take ch) then some ⟨op, arm⟩ else none

/-- The value an arm parks as a putter of the channel, with its entry as source. -/
def putOf (op : OpId) (arms : List Arm) (ch : ChanId) (arm : Nat) : Option Msg :=
  match arms[arm]? with
  | some (.put other val) => if other = ch then some { source := ⟨op, arm⟩, val } else none
  | _ => none

/-- A channel after a call has linked its entries. -/
def linkedChan (op : OpId) (arms : List Arm) (ch : ChanId) (order : List Nat) (chan : Chan) :
    Chan :=
  { chan with
    takers := chan.takers ++ order.filterMap (takerOf op arms ch)
    putters := chan.putters ++ (order.filterMap (putOf op arms ch)).map Msg.source
    effects := chan.effects ++ order.filterMap (putOf op arms ch) }

theorem linkedChan_append (op : OpId) (arms : List Arm) (ch : ChanId)
    (left right : List Nat) (chan : Chan) :
    linkedChan op arms ch (left ++ right) chan =
      linkedChan op arms ch right (linkedChan op arms ch left chan) := by
  simp [linkedChan]

theorem enqueue_eq (op : OpId) (arms : List Arm) (state : State) (arm : Nat) :
    enqueue op arms state arm =
      { state with chans := fun ch => linkedChan op arms ch [arm] (state.chans ch) } := by
  unfold enqueue
  cases spec : arms[arm]? with
  | none => simp [linkedChan, takerOf, putOf, spec]
  | some kind =>
    cases kind with
    | take other | put other val =>
      simp only [State.setChan, State.mk.injEq, and_self, and_true]
      funext ch
      by_cases same : other = ch
      · subst same; simp [linkedChan, takerOf, putOf, spec]
      · simp [linkedChan, takerOf, putOf, spec, same, Ne.symm same]
    | default => simp [linkedChan, takerOf, putOf, spec]

theorem enqueueAll_eq (op : OpId) (arms : List Arm) (order : List Nat) (state : State) :
    order.foldl (enqueue op arms) state =
      { state with chans := fun ch => linkedChan op arms ch order (state.chans ch) } := by
  induction order generalizing state with
  | nil => simp [linkedChan]
  | cons arm rest ih =>
    rw [List.foldl_cons, ih, enqueue_eq]
    simp only [← linkedChan_append, List.singleton_append]

theorem mem_filterMap_takerOf : target ∈ order.filterMap (takerOf op arms ch) ↔
      target.op = op ∧ target.arm ∈ order ∧ arms[target.arm]? = some (.take ch) := by
  simp only [List.mem_filterMap, takerOf, Option.ite_none_right_eq_some, Option.some.injEq]
  constructor
  · rintro ⟨arm, member, spec, rfl⟩
    exact ⟨rfl, member, spec⟩
  · rintro ⟨rfl, member, spec⟩
    exact ⟨target.arm, member, spec, rfl⟩

theorem mem_filterMap_putOf : msg ∈ order.filterMap (putOf op arms ch) ↔
      msg.source.op = op ∧ msg.source.arm ∈ order ∧
        arms[msg.source.arm]? = some (.put ch msg.val) := by
  simp only [List.mem_filterMap, putOf]
  constructor
  · rintro ⟨arm, member, found⟩
    split at found
    · rename_i other val spec
      split at found
      · rename_i same
        cases found
        exact ⟨rfl, member, same ▸ spec⟩
      · contradiction
    · contradiction
  · rintro ⟨rfl, member, spec⟩
    exact ⟨msg.source.arm, member, by simp [spec]⟩

theorem nodup_filterMap_takerOf (distinct : order.Nodup) :
    (order.filterMap (takerOf op arms ch)).Nodup := by
  refine List.Nodup.filterMap ?_ distinct
  intro left right target leftFound rightFound
  simp only [takerOf, Option.mem_def, Option.ite_none_right_eq_some, Option.some.injEq]
    at leftFound rightFound
  have same := leftFound.2.trans rightFound.2.symm
  exact congrArg EntryId.arm same

theorem nodup_filterMap_putOf (distinct : order.Nodup) :
    ((order.filterMap (putOf op arms ch)).map Msg.source).Nodup := by
  rw [List.map_filterMap]
  refine List.Nodup.filterMap ?_ distinct
  intro left right target leftFound rightFound
  have arm : ∀ arm, target ∈ Option.map Msg.source (putOf op arms ch arm) → target.arm = arm := by
    intro arm found
    simp only [Option.mem_def, Option.map_eq_some_iff] at found
    obtain ⟨msg, found, rfl⟩ := found
    simp only [putOf] at found
    split at found
    · split at found
      · cases found; rfl
      · contradiction
    · contradiction
  exact (arm left leftFound).symm.trans (arm right rightFound)

/-- The lists of a channel after a call has parked on it. -/
theorem LinkFacts.park (core : Core state) (op : OpId) (call : Op) (ch : ChanId)
    (ops : after.ops = Function.update state.ops op call)
    (chan : after.chans ch = linkedChan op call.arms ch call.order (state.chans ch))
    (running : (state.ops op).stage ≠ .waiting ∧ (state.ops op).claimed = false)
    (waiting : call.stage = .waiting) (distinct : call.order.Nodup)
    (takes : ∀ arm ∈ call.order, call.arms[arm]? = some (.take ch) →
      (state.chans ch).closed = false)
    (puts : ∀ arm ∈ call.order, ∀ val, call.arms[arm]? = some (.put ch val) →
      (state.chans ch).closed = false) : LinkFacts after ch := by
  have facts := core.link ch
  have other : ∀ target, state.Linked target → target.op ≠ op ∧
      after.ops target.op = state.ops target.op := by
    rintro target ⟨parked, -⟩
    have different : target.op ≠ op := by
      intro same
      rw [same] at parked
      rcases parked with contrary | contrary
      · exact running.1 contrary
      · simp [running.2] at contrary
    exact ⟨different, by simp [ops, different]⟩
  have own : after.ops op = call := by simp [ops]
  have takersOther : ∀ target ∈ (state.chans ch).takers, target.op ≠ op := fun target member =>
    (other target (facts.taker target member).1).1
  have puttersOther : ∀ target ∈ (state.chans ch).putters, target.op ≠ op :=
    fun target member => (other target (facts.putter target member).1).1
  exact {
    taker := by
      intro target member
      rw [chan] at member
      rcases List.mem_append.mp member with old | new
      · obtain ⟨linked, spec⟩ := facts.taker target old
        have same := (other target linked).2
        simp only [State.Linked, same]
        exact ⟨linked, spec⟩
      · obtain ⟨rfl, inOrder, spec⟩ := mem_filterMap_takerOf.mp new
        simp only [State.Linked, own]
        exact ⟨⟨.inl waiting, inOrder⟩, spec⟩
    putter := by
      intro target member
      rw [chan] at member
      rcases List.mem_append.mp member with old | new
      · obtain ⟨linked, spec⟩ := facts.putter target old
        have same := (other target linked).2
        simp only [State.Linked, same]
        exact ⟨linked, spec⟩
      · obtain ⟨msg, found, rfl⟩ := List.mem_map.mp new
        obtain ⟨rfl, inOrder, spec⟩ := mem_filterMap_putOf.mp found
        simp only [State.Linked, own]
        exact ⟨⟨.inl waiting, inOrder⟩, msg.val, spec⟩
    takersNodup := by
      rw [chan]
      refine List.nodup_append.mpr ⟨facts.takersNodup, nodup_filterMap_takerOf distinct, ?_⟩
      rintro target old _ new rfl
      exact takersOther target old (mem_filterMap_takerOf.mp new).1
    puttersNodup := by
      rw [chan]
      refine List.nodup_append.mpr ⟨facts.puttersNodup, nodup_filterMap_putOf distinct, ?_⟩
      rintro target old _ new rfl
      obtain ⟨msg, found, rfl⟩ := List.mem_map.mp new
      exact puttersOther _ old (mem_filterMap_putOf.mp found).1
    takerLinked := by
      intro target unclaimed member spec
      rw [chan]
      by_cases same : target.op = op
      · rw [same, own] at member spec
        exact List.mem_append_right _ (mem_filterMap_takerOf.mpr ⟨same, member, spec⟩)
      · have kept : after.ops target.op = state.ops target.op := by simp [ops, same]
        rw [kept] at unclaimed member spec
        exact List.mem_append_left _ (facts.takerLinked target unclaimed member spec)
    putterLinked := by
      intro target val unclaimed member spec
      rw [chan]
      by_cases same : target.op = op
      · rw [same, own] at member spec
        refine List.mem_append_right _ (List.mem_map.mpr ⟨{ source := target, val }, ?_, rfl⟩)
        exact mem_filterMap_putOf.mpr ⟨same, member, spec⟩
      · have kept : after.ops target.op = state.ops target.op := by simp [ops, same]
        rw [kept] at unclaimed member spec
        exact List.mem_append_left _ (facts.putterLinked target val unclaimed member spec)
    closed := by
      rw [chan]
      intro closed
      have closed' : (state.chans ch).closed = true := closed
      obtain ⟨takers, putters⟩ := facts.closed closed'
      have noTakers : call.order.filterMap (takerOf op call.arms ch) = [] := by
        rw [List.eq_nil_iff_forall_not_mem]
        intro target member
        obtain ⟨-, inOrder, spec⟩ := mem_filterMap_takerOf.mp member
        simp [takes _ inOrder spec] at closed'
      have noPutters : call.order.filterMap (putOf op call.arms ch) = [] := by
        rw [List.eq_nil_iff_forall_not_mem]
        intro target member
        obtain ⟨-, inOrder, spec⟩ := mem_filterMap_putOf.mp member
        simp [puts _ inOrder _ spec] at closed'
      simp [linkedChan, takers, putters, noTakers, noPutters] }

theorem park_fiber (caller : (state.ops op).caller = .fiber self) (entries : Nat → Nat → Entry) :
    park state op entries =
      { (state.setFiber self { state.fibers self with
            parked := 2 * ((state.fibers self).parked / 2 + 1) + 1 }).setOp op
          { state.ops op with
            stage := .waiting, entries := entries ((state.fibers self).parked / 2 + 1) } with
        chans := fun ch => linkedChan op (state.ops op).arms ch (state.ops op).order
          (state.chans ch) } := by
  simp only [park, enqueueAll_eq]
  split
  · rename_i other same
    cases same.symm.trans caller
    rfl
  · rename_i contrary
    exact absurd caller (contrary self)

theorem park_other (caller : ∀ self, (state.ops op).caller ≠ .fiber self)
    (entries : Nat → Nat → Entry) :
    park state op entries =
      { state.setOp op { state.ops op with stage := .waiting, entries := entries 0 } with
        chans := fun ch => linkedChan op (state.ops op).arms ch (state.ops op).order
          (state.chans ch) } := by
  simp only [park, enqueueAll_eq]
  rfl

theorem Core.park (core : Core state) (op : OpId) (entries : Nat → Nat → Entry)
    (inFlight : (state.ops op).inFlight) (blocked : Blocked state op)
    (prepared : ∀ gen, (∀ self, (state.ops op).caller = .fiber self → gen = 1) →
      Op.Prepared op { state.ops op with stage := .waiting, entries := entries gen })
    (fresh : ∀ gen arm, (entries gen arm).woken = false ∧
      (entries gen arm).cancelled = false) : Core (park state op entries) := by
  have facts := core.call op
  have active : (state.ops op).stage.active = true := by
    rcases inFlight with stage | ⟨rest, stage⟩ <;> simp [stage, Stage.active]
  have unclaimed := facts.running_unclaimed inFlight
  have awake : (state.ops op).stage ≠ .waiting := by
    intro stage
    simp [stage, Stage.active] at active
  have parkedFacts : ∀ gen, (∀ self, (state.ops op).caller = .fiber self → gen = 1) →
      OpFacts op { state.ops op with stage := .waiting, entries := entries gen } :=
    fun gen one => facts.park (entries gen) inFlight (prepared gen one)
      (fun arm => (fresh gen arm).1) (fun arm => (fresh gen arm).2)
  have unclaimed' : ∀ gen, Op.claimed
      { state.ops op with stage := .waiting, entries := entries gen } = false := by
    intro gen
    simp [Op.claimed, fresh]
  have unposted : ∀ arm, state.cbQueue.count ⟨op, arm⟩ = 0 := by
    intro arm
    rw [core.callbacks]
    cases stage : (state.ops op).stage <;> simp_all [Op.due, Stage.active]
  have notDue : ∀ gen, Op.due
      { state.ops op with stage := .waiting, entries := entries gen } = false := by
    intro gen
    simp [Op.due, unclaimed' gen]
  have link : ∀ (after : State) gen, after.ops = Function.update state.ops op
        { state.ops op with stage := .waiting, entries := entries gen } →
      (∀ ch, after.chans ch = linkedChan op (state.ops op).arms ch (state.ops op).order
        (state.chans ch)) → ∀ ch, LinkFacts after ch := by
    intro after gen ops chans ch
    exact LinkFacts.park core op _ ch ops (chans ch) ⟨awake, unclaimed⟩ rfl facts.distinct
      (fun arm member spec => (blocked arm member _ spec).2.2)
      (fun arm member val spec => (blocked arm member _ spec).2.2)
  by_cases fibers : ∃ self, (state.ops op).caller = .fiber self
  · obtain ⟨self, caller⟩ := fibers
    obtain ⟨busy, parked, posted, queued⟩ := core.running_fiber caller active
    rw [park_fiber caller, parked]
    refine core.update op _ rfl (parkedFacts 1 fun _ _ => rfl) (link _ 1 rfl fun _ => rfl)
      (.inr rfl) ?_ ?_ core.wants (fun _ _ => rfl)
      (fun arm => (unposted arm).trans (by simp [notDue]))
    · intro other different
      have apart : other ≠ self := by rintro rfl; exact different caller
      exact ⟨by simp [State.setFiber, State.setOp, apart], rfl, rfl⟩
    · intro other same
      cases caller.symm.trans same
      refine ⟨.inr busy, .parked op ?_ ?_ ?_ ?_ posted queued, fun _ => ?_⟩
      · simpa [State.setFiber, State.setOp] using busy
      · simpa [State.setOp] using caller
      · simp [State.setOp, Op.unclaimed, unclaimed' 1]
      · simp [State.setFiber, State.setOp]
      · simpa [State.setFiber, State.setOp] using busy
  · rw [park_other (fun self caller => fibers ⟨self, caller⟩)]
    exact core.update op _ rfl
      (parkedFacts 0 fun self caller => absurd ⟨self, caller⟩ fibers) (link _ 0 rfl fun _ => rfl)
      (.inr rfl) (fun _ _ => ⟨rfl, rfl, rfl⟩)
      (fun self same => absurd ⟨self, same⟩ fibers) core.wants (fun _ _ => rfl)
      (fun arm => (unposted arm).trans (by simp [notDue]))

end Libgoc.Channel
