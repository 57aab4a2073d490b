import Libgoc.Channel.Invariant

namespace Libgoc.Channel

/-! # Claiming a waiter -/

def claimWith (waker : Waker) (state : State) (target : EntryId) (status : Status)
    (value : Option Msg) : State :=
  let entry := state.entry target
  let claimed := state.setOp target.op ((state.ops target.op).claim target.arm status value)
  match entry.kind, waker with
  | .fiber self, .spinning => { claimed with runQueue := state.runQueue ++ [self] }
  | .fiber self, .claiming =>
    { claimed with posting := state.posting ++ [(self, entry.want)] }
  | .callback, _ => { claimed with cbQueue := state.cbQueue ++ [target] }
  | .sync, _ => claimed

variable {state after : State} {target : EntryId}

theorem claimWith_frame (waker : Waker) (state : State) (target : EntryId) (status : Status)
    (value : Option Msg) :
    (claimWith waker state target status value).chans = state.chans ∧
    (claimWith waker state target status value).ops = Function.update state.ops target.op
      ((state.ops target.op).claim target.arm status value) ∧
    (claimWith waker state target status value).fibers = state.fibers ∧
    (claimWith waker state target status value).closers = state.closers ∧
    (claimWith waker state target status value).hooks = state.hooks ∧
    (claimWith waker state target status value).invocations = state.invocations := by
  cases kind : (state.entry target).kind <;> cases waker <;> simp [claimWith, kind, State.setOp]

theorem live_claimWith (live : (claimWith waker state target status value).live waiter = true) :
    state.live waiter = true ∧ waiter ≠ target := by
  obtain ⟨-, ops, -⟩ := claimWith_frame waker state target status value
  obtain ⟨op, arm⟩ := waiter
  by_cases sameOp : op = target.op
  · subst sameOp
    by_cases sameArm : arm = target.arm
    · subst sameArm
      simp [State.live, State.entry, ops, Op.claim] at live
    · have different : (⟨target.op, arm⟩ : EntryId) ≠ target := by
        intro same
        exact sameArm (congrArg EntryId.arm same)
      refine ⟨?_, different⟩
      simp only [State.live, State.entry, ops, Op.claim, Function.update_self,
        Function.update_of_ne sameArm] at live ⊢
      simp only [Bool.and_eq_true, Bool.not_eq_true', Bool.and_eq_false_iff,
        Bool.or_eq_false_iff] at live ⊢
      exact ⟨live.1, live.2.imp id And.left⟩
  · have different : (⟨op, arm⟩ : EntryId) ≠ target := by
      intro same
      exact sameOp (congrArg EntryId.op same)
    refine ⟨?_, different⟩
    simpa [State.live, State.entry, ops, sameOp] using live

theorem tryClaimWake_live (live : state.live target = true) : tryClaimWake state target =
      (state.setOp target.op { state.ops target.op with
        fired := (state.ops target.op).fired || (state.entry target).sharesFired
        entries := Function.update (state.ops target.op).entries target.arm
          { state.entry target with woken := true } }, true) := by
  simp only [State.live, State.entry, Bool.and_eq_true, Bool.not_eq_true'] at live
  simp [tryClaimWake, State.entry, live.1.2, live.2]

section

variable (core : Core state) (linked : state.Linked target) (dead : state.live target = false)
  (kept : (state.entry target).cancelled = false)
include core linked dead kept

theorem tryClaimWake_dead :
    tryClaimWake state target = (state, false) := by
  have facts := core.call target.op
  simp only [State.live, State.entry] at dead kept
  cases blocked : (state.entry target).sharesFired && (state.ops target.op).fired with
  | true =>
    simp only [State.entry] at blocked
    simp [tryClaimWake, blocked]
  | false =>
    simp only [State.entry] at blocked
    have woken : ((state.ops target.op).entries target.arm).woken = true := by
      simpa [kept, blocked] using dead
    have unshared : ((state.ops target.op).entries target.arm).sharesFired = false := by
      by_contra shared
      have shares := (facts.entries (.inr (.inl (facts.claimed_iff.mpr ⟨_, woken⟩)))
        target.arm linked.2).shares
      simp only [Bool.not_eq_false] at shared
      rw [shared] at shares
      simp [shared, facts.fired, ← shares, facts.claimed_iff.mpr ⟨_, woken⟩] at blocked
    simp [tryClaimWake, unshared, woken, State.setOp]

theorem run_dead (waker : Waker) (ch : ChanId) (value : Option Msg) :
    waker.run state ch target value = some (countDead state ch, false) := by
  have refused := tryClaimWake_dead core linked dead kept
  cases waker with
  | spinning => simp [Waker.run, wake, kept, refused]
  | claiming =>
    simp only [Waker.run, wakeClaim, kept, refused]
    split <;> split <;> rfl

end

theorem Core.parked_of_live (core : Core state) (linked : state.Linked target)
    (live : state.live target = true) (kind : (state.entry target).kind = .fiber self) :
    (state.ops target.op).caller = .fiber self ∧
      (state.fibers self).busy = some target.op ∧
      ((state.fibers self).parked = 3 ∨ (state.fibers self).parked = 4) ∧
      state.posted self = 0 ∧ state.queued self = 0 ∧ (state.entry target).want = 4 := by
  have unclaimed := (core.live_iff linked).mp live
  have facts := core.call target.op
  have entry := facts.entries (.inl unclaimed.1) target.arm linked.2
  have caller : (state.ops target.op).caller = .fiber self :=
    Caller.kind_injective (entry.kind.symm.trans kind)
  have busy := core.owner target.op self caller (by simp [Op.holds, unclaimed.1])
  have want : (state.entry target).want = 4 := by
    simp [Entry.want, State.entry, entry.gen self caller]
  refine ⟨caller, busy, ?_⟩
  have fiber := core.fiber self
  cases fiber with
  | idle idle => simp [idle] at busy
  | running op same _ stage =>
    cases same.symm.trans busy
    simp [unclaimed.1, Stage.active] at stage
  | parked op same _ stage parked posted queued =>
    exact ⟨parked, posted, queued, want⟩
  | claimed op same _ _ claimed | queued op same _ _ claimed =>
    cases same.symm.trans busy
    simp [unclaimed.2] at claimed

/-- A live waiter after `try_claim_wake` and the writes through its entry. -/
def stored (state : State) (target : EntryId) (value : Option Msg) : State :=
  state.setOp target.op { state.ops target.op with
    fired := (state.ops target.op).fired || (state.entry target).sharesFired
    entries := Function.update (state.ops target.op).entries target.arm
      { state.entry target with
        woken := true
        cbResult := if (state.entry target).resultSlot then value
          else (state.entry target).cbResult
        ok := .ok } }

theorem stored_kind (state : State) (target : EntryId) (value : Option Msg) :
    ((stored state target value).entry target).kind = (state.entry target).kind := by
  simp [stored, State.entry, State.setOp]

theorem stored_want (state : State) (target : EntryId) (value : Option Msg) :
    ((stored state target value).entry target).want = (state.entry target).want := by
  simp [stored, State.entry, State.setOp, Entry.want]

theorem storeResult_claimed (live : state.live target = true) (value : Option Msg) :
    storeResult (tryClaimWake state target).1 target value = stored state target value := by
  rw [tryClaimWake_live live]
  simp [storeResult, stored, State.setEntry, State.setOp, State.entry]
  rfl

theorem stored_fiber (kind : (state.entry target).kind = .fiber self) (value : Option Msg) :
    stored state target value =
      state.setOp target.op ((state.ops target.op).claim target.arm .ok value) := by
  simp only [State.entry] at kind
  cases slot : ((state.ops target.op).entries target.arm).resultSlot <;>
    simp [stored, Op.claim, State.entry, kind, slot]

theorem stored_callback (kind : (state.entry target).kind = .callback) (value : Option Msg) :
    postCallback (stored state target value) target value =
      claimWith waker state target .ok value := by
  simp only [State.entry] at kind
  simp [postCallback, stored, claimWith, Op.claim, State.entry, State.setEntry, State.setOp, kind]

theorem stored_sync (kind : (state.entry target).kind = .sync) (value : Option Msg) :
    syncPost (stored state target value) target.op = claimWith waker state target .ok value := by
  simp only [State.entry] at kind
  cases slot : ((state.ops target.op).entries target.arm).resultSlot <;>
    simp [syncPost, stored, claimWith, Op.claim, State.entry, State.setOp, kind, slot]

theorem run_live (core : Core state) (linked : state.Linked target)
    (live : state.live target = true) (waker : Waker) (ch : ChanId) (value : Option Msg)
    (ran : waker.run state ch target value = some (after, woke)) :
    woke = true ∧ after = claimWith waker state target .ok value ∧
      ∀ self, waker = .spinning → (state.entry target).kind = .fiber self →
        (state.fibers self).parked = 4 := by
  have kept : (state.entry target).cancelled = false := by
    simp only [State.live, Bool.and_eq_true, Bool.not_eq_true'] at live
    exact live.1.1
  have won : tryClaimWake state target = ((tryClaimWake state target).1, true) := by
    rw [tryClaimWake_live live]
  cases waker with
  | spinning =>
    simp only [Waker.run, wake, kept, Bool.false_eq_true, if_false] at ran
    rw [won] at ran
    simp only [storeResult_claimed live, stored_kind, stored_want] at ran
    cases kind : (state.entry target).kind with
    | fiber self =>
      obtain ⟨-, -, parked, -, -, want⟩ := core.parked_of_live linked live kind
      simp only [kind, want, stored_fiber kind] at ran
      rcases parked with three | four
      · simp [State.setOp, three] at ran
      · simp only [State.setOp, four, if_true, Option.some.injEq, Prod.mk.injEq] at ran
        refine ⟨ran.2.symm, ?_, fun other _ same => by cases same; exact four⟩
        rw [← ran.1]
        simp [claimWith, kind, State.setOp]
    | callback =>
      simp only [kind, Option.some.injEq, Prod.mk.injEq] at ran
      exact ⟨ran.2.symm, ran.1 ▸ stored_callback kind value, by simp⟩
    | sync =>
      simp only [kind, Option.some.injEq, Prod.mk.injEq] at ran
      exact ⟨ran.2.symm, ran.1 ▸ stored_sync kind value, by simp⟩
  | claiming =>
    cases kind : (state.entry target).kind with
    | fiber self =>
      obtain ⟨-, -, parked, -, -, want⟩ := core.parked_of_live linked live kind
      have fresh : (decide ((state.fibers self).parked = 0) ||
          decide ((state.entry target).want < (state.fibers self).parked)) = false := by
        rcases parked with three | four <;> simp [*]
      simp only [Waker.run, wakeClaim, kind, kept, fresh, Bool.or_false, Bool.false_eq_true,
        if_false] at ran
      rw [won] at ran
      simp only [storeResult_claimed live, Option.some.injEq, Prod.mk.injEq] at ran
      refine ⟨ran.2.symm, ?_, by simp⟩
      rw [← ran.1, stored_fiber kind]
      simp [claimWith, kind, State.setOp]
    | callback =>
      simp only [Waker.run, wakeClaim, kind, kept, Bool.or_false, Bool.false_eq_true,
        if_false] at ran
      rw [won] at ran
      simp only [storeResult_claimed live, Option.some.injEq, Prod.mk.injEq] at ran
      exact ⟨ran.2.symm, ran.1 ▸ stored_callback kind value, by simp⟩
    | sync =>
      simp only [Waker.run, wakeClaim, kind, kept, Bool.or_false, Bool.false_eq_true,
        if_false] at ran
      rw [won] at ran
      simp only [storeResult_claimed live, Option.some.injEq, Prod.mk.injEq] at ran
      exact ⟨ran.2.symm, ran.1 ▸ stored_sync kind value, by simp⟩

theorem OpFacts.callback_arm (facts : OpFacts op call) (started : call.stage ≠ .absent)
    (caller : call.caller = .callback) (member : arm ∈ call.order) : arm = 0 := by
  simpa [facts.single started (facts.plain caller)] using member

theorem Core.claim (core : Core state) (linked : state.Linked target)
    (live : state.live target = true) (waker : Waker) (status : Status) (value : Option Msg)
    (suspended : ∀ self, waker = .spinning → (state.entry target).kind = .fiber self →
      (state.fibers self).parked = 4) :
    Core (claimWith waker state target status value) := by
  have unclaimed := (core.live_iff linked).mp live
  have facts := core.call target.op
  have entry := facts.entries (.inl unclaimed.1) target.arm linked.2
  have claimed := claimed_claim linked.2 status value
  have newFacts := facts.claim unclaimed.1 unclaimed.2 linked.2 status value
  have link : ∀ after : State, after.chans = state.chans →
      after.ops = Function.update state.ops target.op
        ((state.ops target.op).claim target.arm status value) →
      ∀ ch, LinkFacts after ch := by
    intro after chans ops ch
    exact (core.link ch).update target.op _ ops (by rw [chans]) (by rw [chans]) (by rw [chans])
      (fun _ => ⟨rfl, rfl, .inr claimed⟩) (fun contrary => by simp [Op.unclaimed, claimed] at contrary)
  have unposted : ∀ arm, state.cbQueue.count ⟨target.op, arm⟩ = 0 := by
    intro arm
    rw [core.callbacks]
    simp [Op.due, unclaimed.1, unclaimed.2]
  cases kind : (state.entry target).kind with
  | fiber self =>
    obtain ⟨caller, busy, parked, posted, queued, want⟩ :=
      core.parked_of_live linked live kind
    have notDue : ((state.ops target.op).claim target.arm status value).due = false := by
      simp [Op.due, caller]
    cases waker with
    | spinning =>
      simp only [claimWith, kind]
      refine core.update target.op _ rfl newFacts (link _ rfl rfl) (.inr rfl) ?_ ?_
        core.wants (fun _ _ => rfl) (fun arm => by simp [notDue, unposted, State.setOp])
      · intro other different
        have apart : self ≠ other := by rintro rfl; exact different caller
        simp [State.setOp, State.posted, State.queued, apart]
      · intro other same
        cases caller.symm.trans same
        refine ⟨.inr busy, .queued target.op busy ?_ ?_ ?_ (suspended self rfl kind) posted ?_,
          fun _ => busy⟩
        · simpa [State.setOp] using caller
        · simpa [State.setOp] using unclaimed.1
        · simpa [State.setOp] using claimed
        · simpa [State.queued, State.setOp] using queued
    | claiming =>
      simp only [claimWith, kind]
      refine core.update target.op _ rfl newFacts (link _ rfl rfl) (.inr rfl) ?_ ?_
        ?_ (fun _ _ => rfl) (fun arm => by simp [notDue, unposted, State.setOp])
      · intro other different
        have apart : self ≠ other := by rintro rfl; exact different caller
        simp [State.setOp, State.posted, State.queued, apart]
      · intro other same
        cases caller.symm.trans same
        refine ⟨.inr busy, .claimed target.op busy ?_ ?_ ?_ parked ?_ queued, fun _ => busy⟩
        · simpa [State.setOp] using caller
        · simpa [State.setOp] using unclaimed.1
        · simpa [State.setOp] using claimed
        · simpa [State.posted, State.setOp] using posted
      · intro post member
        rcases List.mem_append.mp member with before | last
        · exact core.wants post before
        · rw [List.mem_singleton.mp last]; exact want
  | callback =>
    have caller : (state.ops target.op).caller = .callback :=
      Caller.kind_injective (entry.kind.symm.trans kind)
    have zero := facts.callback_arm (by simp [unclaimed.1]) caller linked.2
    have due : ((state.ops target.op).claim target.arm status value).due = true := by
      simp [Op.due, claimed, caller, unclaimed.1]
    simp only [claimWith, kind]
    refine core.update target.op _ rfl newFacts (link _ rfl rfl) (.inr rfl)
      (fun _ _ => ⟨rfl, rfl, rfl⟩) ?_ core.wants ?_ ?_
    · intro self same
      cases caller.symm.trans same
    · intro other different
      have apart : target ≠ other := by rintro rfl; exact different rfl
      simp [apart]
    · intro arm
      obtain ⟨targetOp, targetArm⟩ := target
      cases zero
      by_cases first : arm = 0
      · subst first; simp [due, unposted]
      · have apart : (⟨targetOp, 0⟩ : EntryId) ≠ ⟨targetOp, arm⟩ := by
          intro same
          cases same
          exact first rfl
        simp [first, unposted, apart]
  | sync =>
    have caller : (state.ops target.op).caller = .thread :=
      Caller.kind_injective (entry.kind.symm.trans kind)
    have notDue : ((state.ops target.op).claim target.arm status value).due = false := by
      simp [Op.due, caller]
    simp only [claimWith, kind]
    refine core.update target.op _ rfl newFacts (link _ rfl rfl) (.inr rfl)
      (fun _ _ => ⟨rfl, rfl, rfl⟩) ?_ core.wants (fun _ _ => rfl)
      (fun arm => by simp [notDue, unposted, State.setOp])
    intro self same
    cases caller.symm.trans same

end Libgoc.Channel
