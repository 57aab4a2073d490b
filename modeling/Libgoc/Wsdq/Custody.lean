import Libgoc.Wsdq.Safety
import Mathlib.Data.List.Count
import Mathlib.Data.List.Nodup

namespace Libgoc.Wsdq

open Libgoc.Data Libgoc.Semantics Function

/-! # Where every pushed item is -/

variable {before after state : State} {item : Item} {b t oldB newCap cap : Nat}
  {buf newBuf : BufId} {thief : ThiefId}

/-- What a step does to the deque and to the items that calls hold or have
returned. -/
inductive Effect (before after : State) : Prop where
  | stays (contents : after.contents = before.contents) (held : after.held = before.held)
      (returned : after.returned = before.returned) (pushed : after.pushed = before.pushed)
  | calls (entry : Nat) (contents : after.contents = before.contents)
      (held : after.held = [{ push := before.pushed.length, entry }] ++ before.held)
      (returned : after.returned = before.returned)
      (pushed : after.pushed = before.pushed ++ [{ push := before.pushed.length, entry }])
  | pushes (item : Item) (contents : after.contents = before.contents ++ [some item])
      (held : before.held = [item] ++ after.held)
      (returned : after.returned = before.returned) (pushed : after.pushed = before.pushed)
  | pops (entry : Option Item) (contents : before.contents = after.contents ++ [entry])
      (held : after.held = before.held)
      (returned : after.returned = before.returned ++ entry.toList)
      (pushed : after.pushed = before.pushed)
  | claims (entry : Option Item) (contents : before.contents = [entry] ++ after.contents)
      (held : after.held.Perm (entry.toList ++ before.held))
      (returned : after.returned = before.returned) (pushed : after.pushed = before.pushed)
  | returns (entry : Option Item) (contents : after.contents = before.contents)
      (held : before.held.Perm (entry.toList ++ after.held))
      (returned : after.returned = before.returned ++ entry.toList)
      (pushed : after.pushed = before.pushed)

theorem Effect.advance (now : state.owner = old)
    (back : pc.back bottom = old.back state.bottom := by rfl)
    (held : pc.held = old.held := by rfl) :
    Effect state { state with bottom, owner := pc } := by
  apply Effect.stays
  · simp only [State.contents, State.back, back, now]
    rfl
  · simp only [State.held, held, now]
    rfl
  · rfl
  · rfl

theorem push_effect (stepped : wsdqPushBottom state entry = some after) :
    Effect state after := by
  simp only [wsdqPushBottom] at stepped
  split at stepped
  · rename_i idle
    cases stepped
    apply Effect.calls entry
    · simp only [State.contents, State.back, idle, OwnerPc.back]
      rfl
    · simp only [State.held, idle, OwnerPc.held]
      rfl
    · rfl
    · rfl
  · cases stepped

theorem pop_effect (stepped : wsdqPopBottom state = some after) : Effect state after := by
  simp only [wsdqPopBottom] at stepped
  split at stepped
  · rename_i idle
    cases stepped
    exact Effect.advance idle (by simp only [OwnerPc.back])
  · cases stepped

theorem contents_congr (top : after.top = before.top) (back : after.back = before.back)
    (slot : ∀ index, before.top ≤ index → index < before.back →
      after.slot index = before.slot index) : after.contents = before.contents := by
  rw [State.contents, State.contents, top, back]
  exact segment_congr slot

section

variable (sound : Sound state)
include sound

/-- A step of a growth changes neither the deque nor what the calls hold. -/
theorem growing_stays (growing : state.owner.growing = true)
    (stepped : ownerStep state = some after) :
    after.contents = state.contents ∧ after.held = state.held ∧
      after.returned = state.returned ∧ after.pushed = state.pushed := by
  have facts := sound.owner
  cases pc : state.owner with
  | grow item b t buf cap =>
    simp only [pc, State.OwnerAt] at facts
    obtain ⟨-, -, -, rfl, rfl⟩ := facts
    simp only [ownerStep, pc, Option.some.injEq] at stepped
    subst stepped
    refine ⟨contents_congr rfl ?_ ?_, ?_, rfl, rfl⟩
    · simp only [State.back, pc, OwnerPc.back]
    · intro index _ _
      simp only [State.slot, update_of_ne (Nat.ne_of_lt sound.allocated)]
    · simp only [State.held, State.stolen, pc, OwnerPc.held]
  | growLock item b buf newBuf newCap =>
    simp only [ownerStep, pc] at stepped
    split at stepped
    · rename_i free
      cases stepped
      refine ⟨contents_congr rfl ?_ fun _ _ _ => rfl, ?_, rfl, rfl⟩
      · simp only [State.back, pc, OwnerPc.back]
      · simp only [State.held, State.stolen, pc, free, OwnerPc.held]
    · cases stepped
  | growSwap item b buf newBuf newCap =>
    simp only [pc, State.OwnerAt] at facts
    obtain ⟨rfl, rfl, -, -, -, copied⟩ := facts
    simp only [ownerStep, pc, Option.some.injEq] at stepped
    subst stepped
    refine ⟨contents_congr rfl ?_ ?_, ?_, rfl, rfl⟩
    · simp only [State.back, pc, OwnerPc.back]
    · intro index lower upper
      simp only [State.back, pc, OwnerPc.back] at upper
      exact copied index lower upper
    · simp only [State.held, State.stolen, pc, OwnerPc.held]
  | growUnlock item b buf newBuf newCap =>
    have locked := sound.ownerLock.mpr (by rw [pc]; rfl)
    simp only [ownerStep, pc, Option.some.injEq] at stepped
    subst stepped
    refine ⟨contents_congr rfl ?_ fun _ _ _ => rfl, ?_, rfl, rfl⟩
    · simp only [State.back, pc, OwnerPc.back]
    · simp only [State.held, State.stolen, pc, locked, OwnerPc.held]
  | growFree item b buf newBuf newCap =>
    simp only [pc, State.OwnerAt] at facts
    obtain ⟨-, ⟨rfl, rfl⟩, separate, -⟩ := facts
    simp only [ownerStep, pc, Option.some.injEq] at stepped
    subst stepped
    refine ⟨contents_congr rfl ?_ ?_, ?_, rfl, rfl⟩
    · simp only [State.back, pc, OwnerPc.back]
    · intro index _ _
      simp only [State.slot, update_of_ne separate.symm]
    · simp only [State.held, State.stolen, pc, OwnerPc.held]
  | _ => simp [pc, OwnerPc.growing] at growing

theorem pushSlot_effect (pc : state.owner = .pushSlot item b buf cap)
    (stepped : ownerStep state = some after) : Effect state after := by
  have facts := sound.owner
  simp only [pc, State.OwnerAt] at facts
  obtain ⟨rfl, ⟨rfl, rfl⟩, space⟩ := facts
  simp only [ownerStep, pc, Option.some.injEq] at stepped
  subst stepped
  apply Effect.stays
  · apply contents_congr
    · rfl
    · simp only [State.back, pc, OwnerPc.back]
    · intro index lower upper
      simp only [State.back, pc, OwnerPc.back] at upper
      simp only [State.slot, update_self]
      exact update_of_ne (ring_place_ne upper (by omega)) _ _
  · simp only [State.held, State.stolen, pc, OwnerPc.held]
  · rfl
  · rfl

theorem pushBottom_effect (pc : state.owner = .pushBottom item b)
    (small : b + 1 < sizeRange) (stepped : ownerStep state = some after) : Effect state after := by
  have facts := sound.owner
  have ordered := sound.top_le_back
  simp only [State.back, pc, State.OwnerAt, OwnerPc.back] at facts ordered
  obtain ⟨rfl, -, stored⟩ := facts
  simp only [ownerStep, pc, Option.some.injEq, Nat.mod_eq_of_lt small] at stepped
  subst stepped
  apply Effect.pushes item
  · simp only [State.contents, State.back, pc, OwnerPc.back, ← stored]
    exact segment_last ordered
  · simp only [State.held, State.stolen, pc, OwnerPc.held]
    rfl
  · rfl
  · rfl

theorem popSlot_effect (pc : state.owner = .popSlot oldB t buf cap)
    (stepped : ownerStep state = some after) : Effect state after := by
  have facts := sound.owner
  have bounded := sound.bounded
  have ordered := sound.ordered
  simp only [State.limit, State.back, pc, State.OwnerAt, OwnerPc.limit, OwnerPc.back]
    at facts bounded ordered
  obtain ⟨lowered, ⟨rfl, rfl⟩, below, loaded⟩ := facts
  obtain ⟨newB, rfl⟩ : ∃ newB, oldB = newB + 1 := ⟨oldB - 1, by omega⟩
  have bottom := lowered.eq bounded
  simp only [ownerStep, pc, Nat.add_sub_cancel] at stepped
  split at stepped
  · rename_i more
    cases stepped
    rw [if_pos (Nat.succ_lt_succ more)] at ordered
    apply Effect.pops (state.slot newB)
    · simp only [State.contents, State.back, pc, OwnerPc.back, bottom]
      exact segment_last ordered
    · simp only [State.held, State.stolen, pc, OwnerPc.held]
    · rfl
    · rfl
  · rename_i last
    cases stepped
    have same : newB = t := by omega
    subst same
    exact Effect.advance pc

theorem popCas_effect
    (pc : state.owner = .popCas entry t) (stepped : ownerStep state = some after) :
    Effect state after := by
  have facts := sound.owner
  have bounded := sound.bounded
  simp only [State.back, pc, State.OwnerAt, OwnerPc.back] at facts bounded
  obtain ⟨-, -, loaded⟩ := facts
  simp only [ownerStep, pc, Nat.mod_eq_of_lt bounded] at stepped
  split at stepped
  · rename_i won
    cases stepped
    apply Effect.claims entry
    · simp only [State.contents, State.back, pc, OwnerPc.back, won]
      rw [segment_first (Nat.lt_succ_self t), loaded won]
      rfl
    · simp only [State.held, State.stolen, pc, OwnerPc.held]
      exact List.Perm.refl _
    · rfl
    · rfl
  · cases stepped
    exact Effect.advance pc

theorem ownerStep_effect (small : state.owner.overflows = false)
    (stepped : ownerStep state = some after) : Effect state after := by
  have bounded := sound.bounded
  have ordered := sound.top_le_back
  cases pc : state.owner with
  | idle => simp [ownerStep, pc] at stepped
  | grow | growLock | growSwap | growUnlock | growFree =>
    obtain ⟨contents, held, returned, pushed⟩ :=
      growing_stays sound (by rw [pc]; rfl) stepped
    exact .stays contents held returned pushed
  | pushTop | popBuf | popRestore =>
    simp only [ownerStep, pc, Option.some.injEq] at stepped
    subst stepped
    exact Effect.advance pc
  | pushBuf item b t =>
    simp only [ownerStep, pc, Option.some.injEq] at stepped
    subst stepped
    exact Effect.advance pc (by split_ifs <;> rfl) (by split_ifs <;> rfl)
  | popTop oldB buf cap =>
    simp only [State.back, pc, OwnerPc.back] at ordered
    simp only [ownerStep, pc, Option.some.injEq] at stepped
    subst stepped
    have back : OwnerPc.back state.bottom (if oldB ≤ state.top then
        .popRestore (if oldB < state.top then state.top else oldB)
        else .popSlot oldB state.top buf cap) = oldB := by
      split_ifs
      all_goals simp only [OwnerPc.back]
      omega
    exact Effect.advance pc back (by split <;> rfl)
  | pushSlot => exact pushSlot_effect sound pc stepped
  | pushBottom =>
    exact pushBottom_effect sound pc (by simpa [pc, OwnerPc.overflows] using small) stepped
  | popSlot => exact popSlot_effect sound pc stepped
  | popCas => exact popCas_effect sound pc stepped
  | popLost t =>
    simp only [State.back, pc, OwnerPc.back] at bounded
    simp only [ownerStep, pc, Option.some.injEq, Nat.mod_eq_of_lt bounded] at stepped
    subst stepped
    exact Effect.advance pc
  | popWon entry t =>
    simp only [State.back, pc, OwnerPc.back] at bounded
    simp only [ownerStep, pc, Option.some.injEq, Nat.mod_eq_of_lt bounded] at stepped
    subst stepped
    apply Effect.returns entry
    · simp only [State.contents, State.back, pc, OwnerPc.back]
      rfl
    · simp only [State.held, State.stolen, pc, OwnerPc.held]
      exact List.Perm.refl _
    · rfl
    · rfl

theorem Sound.stolen_eq (active : state.thieves thief ≠ .idle) :
    state.stolen = (state.thieves thief).held := by
  rw [State.stolen, (sound.thiefLock thief).mpr active]

theorem Effect.thief_advance
    (active : state.thieves thief ≠ .idle) (held : pc.held = (state.thieves thief).held) :
    Effect state (setThief state thief pc) := by
  apply Effect.stays
  · rfl
  · rw [State.held, State.held, sound.stolen_eq active]
    simp [State.stolen, setThief, (sound.thiefLock thief).mpr active, held]
  · rfl
  · rfl

end

theorem steal_effect (stepped : wsdqStealTop state thief = some after) : Effect state after := by
  simp only [wsdqStealTop] at stepped
  split at stepped
  · rename_i idle free
    cases stepped
    apply Effect.stays
    · rfl
    · simp [State.held, State.stolen, free, setThief, ThiefPc.held]
    · rfl
    · rfl
  · cases stepped

theorem thiefStep_effect (sound : Sound state) (stepped : thiefStep state thief = some after) :
    Effect state after := by
  have facts := sound.thief thief
  cases pc : state.thieves thief with
  | idle => simp [thiefStep, pc] at stepped
  | loadTop | loadBuf | readSlot =>
    simp only [thiefStep, pc, Option.some.injEq] at stepped
    subst stepped
    exact Effect.thief_advance sound (by simp [pc]) (by rw [pc]; rfl)
  | loadBottom t =>
    simp only [thiefStep, pc, Option.some.injEq] at stepped
    subst stepped
    exact Effect.thief_advance sound (by simp [pc]) (by rw [pc]; split <;> rfl)
  | cas t entry =>
    have held := sound.stolen_eq (show state.thieves thief ≠ .idle by simp [pc])
    have locked := (sound.thiefLock thief).mpr (by simp [pc])
    simp only [thiefStep, pc] at stepped
    split at stepped
    · rename_i won
      cases stepped
      rw [pc] at facts held
      obtain ⟨below, loaded⟩ := facts.2 won
      have inside : t < state.back :=
        Nat.lt_of_lt_of_le below (state.owner.limit_le_back state.bottom)
      have small : t + 1 < sizeRange := Nat.lt_of_le_of_lt inside sound.bounded
      rw [Nat.mod_eq_of_lt small]
      apply Effect.claims entry
      · rw [State.contents, won, segment_first inside, loaded]
        rfl
      · simp only [State.held, held, ThiefPc.held, List.append_nil]
        simp only [State.stolen, setThief, locked, update_self, ThiefPc.held]
        exact List.perm_append_comm
      · rfl
      · rfl
    · cases stepped
      exact Effect.thief_advance sound (by simp [pc]) (by rw [pc]; rfl)
  | unlock result =>
    have held := sound.stolen_eq (show state.thieves thief ≠ .idle by simp [pc])
    simp only [thiefStep, pc, Option.some.injEq] at stepped
    subst stepped
    apply Effect.returns result
    · rfl
    · rw [State.held, held, pc, State.held]
      simp only [ThiefPc.held, State.stolen, List.append_nil]
      exact List.perm_append_comm
    · rfl
    · rfl

section

variable (sound : Sound state) (permitted : Undisturbed state label)
  (stepped : step state label = some after)
include sound permitted stepped

theorem step_sound : Sound after := by
  cases label with
  | push => exact push_sound sound stepped
  | pop => exact pop_sound sound stepped
  | owner => exact ownerStep_sound sound permitted stepped
  | steal => exact steal_sound sound stepped
  | thief => exact thiefStep_sound sound permitted stepped

theorem step_effect : Effect state after := by
  cases label with
  | push => exact push_effect stepped
  | pop => exact pop_effect stepped
  | owner => exact ownerStep_effect sound permitted stepped
  | steal => exact steal_effect stepped
  | thief => exact thiefStep_effect sound stepped

end

/-- Every push is accounted for once. -/
structure Accounted (state : State) : Prop where
  numbered : state.pushed.map Item.push = List.range state.pushed.length
  occupied : none ∉ state.contents
  places : ∀ item, state.returned.count item + state.held.count item +
    state.contents.count (some item) = state.pushed.count item

theorem count_some (stored item : Item) : [some stored].count (some item) = [stored].count item :=
  List.count_map_of_injective [stored] some (Option.some_injective _) item

theorem Accounted.step (accounted : Accounted before) (effect : Effect before after) :
    Accounted after := by
  obtain ⟨numbered, occupied, places⟩ := accounted
  cases effect with
  | stays contents held returned pushed =>
    exact ⟨by rw [pushed]; exact numbered, by rw [contents]; exact occupied,
      by rw [contents, held, returned, pushed]; exact places⟩
  | calls entry contents held returned pushed =>
    refine ⟨?_, by rw [contents]; exact occupied, ?_⟩
    · simp [pushed, numbered, List.range_succ]
    · intro item
      have balance := places item
      rw [contents, held, returned, pushed, List.count_append, List.count_append]
      omega
  | pushes stored contents held returned pushed =>
    refine ⟨by rw [pushed]; exact numbered, by simpa [contents] using occupied, ?_⟩
    intro item
    have balance := places item
    rw [held, List.count_append] at balance
    rw [contents, returned, pushed, List.count_append, count_some]
    omega
  | pops entry contents held returned pushed =>
    rw [contents, List.mem_append, List.mem_singleton, not_or] at occupied
    cases entry with
    | none => exact absurd rfl occupied.2
    | some popped =>
      refine ⟨by rw [pushed]; exact numbered, occupied.1, fun item => ?_⟩
      have balance := places item
      rw [contents, List.count_append, count_some] at balance
      rw [held, returned, pushed, List.count_append, Option.toList_some]
      omega
  | claims entry contents held returned pushed =>
    rw [contents, List.mem_append, List.mem_singleton, not_or] at occupied
    cases entry with
    | none => exact absurd rfl occupied.1
    | some claimed =>
      refine ⟨by rw [pushed]; exact numbered, occupied.2, fun item => ?_⟩
      have balance := places item
      rw [contents, List.count_append, count_some] at balance
      rw [held.count_eq, returned, pushed, List.count_append, Option.toList_some]
      omega
  | returns entry contents held returned pushed =>
    refine ⟨by rw [pushed]; exact numbered, by rw [contents]; exact occupied, fun item => ?_⟩
    have balance := places item
    rw [held.count_eq, List.count_append] at balance
    rw [contents, returned, pushed, List.count_append]
    omega

theorem initial_sound (initial : wsdqInit cap = some state) :
    Sound state ∧ Accounted state := by
  obtain ⟨valid, rfl⟩ := guarded initial
  constructor
  · constructor
    case ordered | bounded | fits => simp [State.limit, State.back, OwnerPc.limit, OwnerPc.back, sizeRange]
    case room => exact valid.1
    case allocated => exact Nat.zero_lt_one
    case owner => trivial
    case thief => exact fun _ => trivial
    case ownerLock => simp [OwnerPc.locked]
    case thiefLock => simp
  · constructor
    case numbered => rfl
    case occupied => simp [State.contents, State.back, OwnerPc.back, Data.segment]
    case places =>
      simp [State.contents, State.back, OwnerPc.back, Data.segment, State.held, State.stolen,
        OwnerPc.held]

theorem reachable_accounted (reachable : system.ReachableWith Undisturbed state) :
    Sound state ∧ Accounted state := by
  apply reachable.invariant
  · intro start initial
    obtain ⟨cap, made⟩ := initial
    exact initial_sound made
  · intro before label after holds permitted stepped
    exact ⟨step_sound holds.1 permitted stepped,
      holds.2.step (step_effect holds.1 permitted stepped)⟩

def State.quiet (state : State) : Prop :=
  state.owner = .idle ∧ ∀ thief, state.thieves thief = .idle

/-- Without a call in progress the deque is what lies between `top` and
`bottom`. -/
theorem State.quiet.settled (quiet : state.quiet) :
    state.held = [] ∧ state.contents = segment state.slot state.top state.bottom := by
  obtain ⟨idle, thieves⟩ := quiet
  constructor
  · simp only [State.held, State.stolen, idle, OwnerPc.held, List.nil_append]
    split
    · rw [thieves]
      rfl
    · rfl
  · simp only [State.contents, State.back, idle, OwnerPc.back]

theorem pushed_entry_in_one_place (reachable : system.ReachableWith Undisturbed state) :
    (∀ item, state.returned.count item + state.held.count item +
      state.contents.count (some item) = if item ∈ state.pushed then 1 else 0) ∧
    none ∉ state.contents ∧
    (state.quiet →
      state.held = [] ∧ state.contents = segment state.slot state.top state.bottom) ∧
    ∀ after, state.owner.growing = true → step state .owner = some after →
      after.contents = state.contents := by
  obtain ⟨sound, accounted⟩ := reachable_accounted reachable
  have distinct : state.pushed.Nodup := by
    apply List.Nodup.of_map Item.push
    rw [accounted.numbered]
    exact List.nodup_range
  refine ⟨fun item => ?_, accounted.occupied, State.quiet.settled, ?_⟩
  · rw [accounted.places item]
    split
    · rename_i member
      exact List.count_eq_one_of_mem distinct member
    · rename_i absent
      exact List.count_eq_zero_of_not_mem absent
  · intro after growing stepped
    exact (growing_stays sound growing stepped).1

/-- The buffer of one slot grows in the second push; then a thief and the owner
take one entry each. -/
def grownRun : List Label :=
  .push 5 :: List.replicate 4 .owner ++ .push 6 :: List.replicate 9 .owner ++
    .steal 0 :: List.replicate 6 (.thief 0) ++ .pop :: List.replicate 5 .owner

theorem grownRun_entry_in_one_place : ∃ start state, wsdqInit 1 = some start ∧
      system.runWith Undisturbed start grownRun = some state ∧ state.capacity = 2 ∧
      state.returned = [{ push := 0, entry := 5 }, { push := 1, entry := 6 }] ∧
      ∀ item, state.returned.count item + state.held.count item +
        state.contents.count (some item) = if item ∈ state.pushed then 1 else 0 := by
  have ran : ((wsdqInit 1).bind fun start => (system.runWith Undisturbed start grownRun).map
      fun state => (state.capacity, state.returned)) =
        some (2, [{ push := 0, entry := 5 }, { push := 1, entry := 6 }]) := by
    decide +kernel
  obtain ⟨start, made, rest⟩ := Option.bind_eq_some_iff.mp ran
  obtain ⟨state, stepped, values⟩ := Option.map_eq_some_iff.mp rest
  obtain ⟨capacity, returned⟩ := Prod.mk.inj values
  exact ⟨start, state, made, stepped, capacity, returned, (pushed_entry_in_one_place
    (.of_run system Undisturbed grownRun ⟨1, made⟩ stepped)).1⟩

/-- The thief loads `bottom` while a pop of the fresh deque has it below zero,
and moves `top` after the owner has pushed. -/
def wrappedRun : List Label :=
  [.steal 0, .thief 0, .pop, .thief 0, .thief 0, .thief 0, .owner, .owner, .owner,
    .push 7, .owner, .owner, .owner, .owner, .thief 0, .thief 0]

theorem steal_drops_pushed_entry : ∃ state, system.Reachable state ∧ state.quiet ∧
      state.pushed = [{ push := 0, entry := 7 }] ∧ state.returned = [] ∧ state.contents = [] :=
  ⟨_, .of_run system wrappedRun ⟨1, rfl⟩ rfl, ⟨rfl, fun thief => by cases thief <;> rfl⟩,
    rfl, rfl, rfl⟩

end Libgoc.Wsdq
