import Libgoc.Channel.Operations

namespace Libgoc.Channel

open Function

/-! # The life of one call -/

def Op.claimed (call : Op) : Bool :=
  call.order.any fun arm => (call.entries arm).woken

def Stage.active : Stage → Bool
  | .running | .scanning _ | .resumed _ _ => true
  | _ => false

def Caller.kind : Caller → EntryKind
  | .fiber self => .fiber self
  | .thread => .sync
  | .callback => .callback

theorem Caller.kind_injective {left right : Caller} (same : left.kind = right.kind) :
    left = right := by
  cases left <;> cases right <;> simp_all [Caller.kind]

def Entry.received (entry : Entry) : Option Msg :=
  if entry.resultSlot then entry.cbResult else none

/-- What holds of the entry a call of this kind prepares for an arm. -/
structure EntryFacts (source : EntryId) (caller : Caller) (select : Bool) (spec : Option Arm)
    (entry : Entry) : Prop where
  spec : (∃ ch, spec = some (.take ch) ∧ entry.resultSlot = true) ∨
    ∃ ch val, spec = some (.put ch val) ∧ entry.putVal = { source, val }
  shares : entry.sharesFired = select
  kind : entry.kind = caller.kind
  gen : ∀ self, caller = .fiber self → entry.parkedGen = 1
  direction : caller = .callback → entry.resultSlot = !entry.isPut
  fresh : entry.woken = false → entry.cbResult = none ∧ entry.ok = .closed

def Op.Prepared (op : OpId) (call : Op) : Prop :=
  ∀ arm ∈ call.order,
    EntryFacts ⟨op, arm⟩ call.caller call.select call.arms[arm]? (call.entries arm)

/-- The entry of a pending operation still names its channel. -/
def Entry.Registered (arms : List Arm) (entry : Entry) : Prop :=
  ∃ ch, entry.ch = some ch ∧
    (arms = [.take ch] ∧ entry.isPut = false ∨ ∃ val, arms = [.put ch val] ∧ entry.isPut = true)

structure OpFacts (op : OpId) (call : Op) : Prop where
  single : call.stage ≠ .absent → call.select = false → call.order = [0]
  plain : call.caller = .callback → call.select = false
  distinct : call.order.Nodup
  woken : ∀ arm, (call.entries arm).woken = true → arm ∈ call.order
  unique : ∀ left right, (call.entries left).woken = true →
    (call.entries right).woken = true → left = right
  fired : call.fired = (call.select && call.claimed)
  cancelled : ∀ arm, (call.entries arm).cancelled = true →
    call.select = true ∧ call.claimed = true ∧ (call.entries arm).woken = false
  unclaimed : call.claimed = true →
    call.stage = .waiting ∨ call.stage = .done ∨ ∃ rest winner, call.stage = .resumed rest winner
  readied : call.ready = true → call.claimed = true
  ready : call.caller = .thread → call.stage = .waiting → call.claimed = true →
    call.ready = true
  entries : call.stage = .waiting ∨ call.claimed = true ∨ call.caller = .callback →
    call.Prepared op
  resumed : ∀ rest winner, call.stage = .resumed rest winner →
    call.select = true ∧ call.claimed = true ∧
    (∀ arm, (call.entries arm).woken = true → arm ∈ rest ∨ winner = some arm) ∧
    ∀ arm, winner = some arm → (call.entries arm).woken = true
  result : ∀ result, call.result = some result → call.stage = .done ∧
    ∀ arm, (call.entries arm).woken = true → result.arm = some arm ∧
      result.ok = (call.entries arm).ok ∧ result.msg = (call.entries arm).received
  done : call.stage = .done → call.result.isSome = true
  notAborted : call.stage ≠ .aborted
  scanning : ∀ rest, call.stage = .scanning rest → call.select = true
  pending : call.stage = .pending → call.caller = .callback ∧
    (call.entries 0).Registered call.arms

theorem opFacts_absent (op : OpId) : OpFacts op {} := by
  constructor <;> simp [Op.claimed]

variable {op : OpId} {call : Op}

theorem OpFacts.claimed_iff (facts : OpFacts op call) :
    call.claimed = true ↔ ∃ arm, (call.entries arm).woken = true := by
  simp only [Op.claimed, List.any_eq_true]
  constructor
  · rintro ⟨arm, -, woken⟩
    exact ⟨arm, woken⟩
  · rintro ⟨arm, woken⟩
    exact ⟨arm, facts.woken arm woken, woken⟩

theorem OpFacts.not_woken (facts : OpFacts op call) (unclaimed : call.claimed = false)
    (arm : Nat) : (call.entries arm).woken = false := by
  by_contra woken
  simp [facts.claimed_iff.mpr ⟨arm, by simpa using woken⟩] at unclaimed

theorem OpFacts.not_cancelled (facts : OpFacts op call) (unclaimed : call.claimed = false)
    (arm : Nat) : (call.entries arm).cancelled = false := by
  by_contra cancelled
  simp [(facts.cancelled arm (by simpa using cancelled)).2.1] at unclaimed

/-- A call that runs and has not parked has no claimed entry. -/
theorem OpFacts.running_unclaimed (facts : OpFacts op call)
    (running : call.stage = .running ∨ ∃ rest, call.stage = .scanning rest) :
    call.claimed = false := by
  by_contra claimed
  have later := facts.unclaimed (by simpa using claimed)
  rcases running with stage | ⟨rest, stage⟩ <;> simp [stage] at later

theorem opFacts_begin (op : OpId) (caller : Caller) (arms : List Arm) (order : List Nat)
    (select : Bool) (stage : Stage) (entry : Entry)
    (started : stage = .running ∨ stage = .pending ∨ select = true ∧ stage = .scanning order)
    (registered : stage = .pending → caller = .callback ∧ entry.Registered arms)
    (single : select = false → order = [0]) (plain : caller = .callback → select = false)
    (distinct : order.Nodup) (prepared : caller = .callback → ∀ arm ∈ order,
      EntryFacts ⟨op, arm⟩ caller select arms[arm]? entry)
    (unwoken : entry.woken = false) (uncancelled : entry.cancelled = false) :
    OpFacts op { caller, arms, order, select, stage, entries := fun _ => entry } := by
  have unclaimed :
      ({ caller, arms, order, select, stage, entries := fun _ => entry } : Op).claimed = false := by
    simp [Op.claimed, unwoken]
  have moving : stage ≠ .waiting ∧ stage ≠ .done ∧ stage ≠ .aborted ∧
      ∀ rest winner, stage ≠ .resumed rest winner := by
    rcases started with rfl | rfl | ⟨-, rfl⟩ <;> simp
  exact {
    single := fun _ => single
    plain
    distinct
    woken := by simp [unwoken]
    unique := by simp [unwoken]
    fired := by simp [unclaimed]
    cancelled := by simp [uncancelled]
    unclaimed := by simp [unclaimed]
    readied := by simp
    ready := by simp [moving.1]
    entries := by
      rintro (waiting | claimed | callback)
      · exact absurd waiting moving.1
      · simp [unclaimed] at claimed
      · exact prepared callback
    resumed := by simp [moving.2.2.2]
    result := by simp
    done := by simp [moving.2.1]
    notAborted := moving.2.2.1
    scanning := by
      rcases started with rfl | rfl | ⟨select, rfl⟩ <;> simp_all
    pending := registered }

/-- The arm is claimed: `try_claim_wake` and the writes that follow it. -/
def Op.claim (call : Op) (arm : Nat) (status : Status) (value : Option Msg) : Op :=
  let entry := call.entries arm
  { call with
    fired := call.fired || entry.sharesFired
    ready := call.ready || decide (entry.kind = .sync)
    entries := update call.entries arm { entry with
      woken := true
      ok := status
      cbResult := if entry.resultSlot || decide (entry.kind = .callback) then value
        else entry.cbResult } }

@[simp] theorem claim_caller (arm : Nat) (status : Status) (value : Option Msg) :
    (call.claim arm status value).caller = call.caller := rfl

@[simp] theorem claim_stage (arm : Nat) (status : Status) (value : Option Msg) :
    (call.claim arm status value).stage = call.stage := rfl

theorem claimed_claim (member : arm ∈ call.order) (status : Status) (value : Option Msg) :
    (call.claim arm status value).claimed = true := by
  simp only [Op.claimed, Op.claim, List.any_eq_true]
  exact ⟨arm, member, by simp⟩

section

variable (facts : OpFacts op call)
include facts

theorem OpFacts.claim (waiting : call.stage = .waiting)
    (unclaimed : call.claimed = false) (member : arm ∈ call.order) (status : Status)
    (value : Option Msg) : OpFacts op (call.claim arm status value) := by
  have claimed := claimed_claim member status value
  have prepared := facts.entries (.inl waiting)
  have onlyArm : ∀ other, ((call.claim arm status value).entries other).woken = true →
      other = arm := by
    intro other woken
    by_contra different
    simp [Op.claim, different, facts.not_woken unclaimed other] at woken
  have noCancel : ∀ other, ((call.claim arm status value).entries other).cancelled = false := by
    intro other
    by_cases same : other = arm
    · subst same; simp [Op.claim, facts.not_cancelled unclaimed]
    · simp [Op.claim, same, facts.not_cancelled unclaimed]
  exact {
    single := facts.single
    plain := facts.plain
    distinct := facts.distinct
    woken := fun other woken => onlyArm other woken ▸ member
    unique := fun left right leftWoken rightWoken =>
      (onlyArm left leftWoken).trans (onlyArm right rightWoken).symm
    fired := by
      rw [claimed]
      simp [Op.claim, facts.fired, unclaimed, (prepared arm member).shares]
    cancelled := by simp [noCancel]
    unclaimed := fun _ => .inl waiting
    readied := fun _ => claimed
    ready := by
      intro caller _ _
      have kind := (prepared arm member).kind
      rw [show call.caller = .thread from caller] at kind
      simp [Op.claim, kind, Caller.kind]
    entries := by
      intro _ other otherMember
      obtain ⟨spec, shares, kind, gen, direction, fresh⟩ := prepared other otherMember
      by_cases same : other = arm
      · subst same
        simp only [Op.claim, update_self]
        exact ⟨spec, shares, kind, gen, direction, by simp⟩
      · simp only [Op.claim, update_of_ne same]
        exact ⟨spec, shares, kind, gen, direction, fresh⟩
    resumed := by simp [Op.claim, waiting]
    result := by
      intro result returned
      have := (facts.result result returned).1
      simp [waiting] at this
    done := by simp [Op.claim, waiting]
    notAborted := by simp [Op.claim, waiting]
    scanning := by simp [Op.claim, waiting]
    pending := by simp [Op.claim, waiting] }

theorem OpFacts.finish (result : Result) (started : call.stage ≠ .absent)
    (agrees : ∀ arm, (call.entries arm).woken = true → result.arm = some arm ∧
      result.ok = (call.entries arm).ok ∧ result.msg = (call.entries arm).received) :
    OpFacts op { call with stage := .done, result := some result } :=
  { facts with
    single := fun _ => facts.single started
    unclaimed := fun _ => .inr (.inl rfl)
    ready := by simp
    entries := by
      rintro (waiting | later)
      · simp at waiting
      · exact facts.entries (.inr later)
    resumed := by simp
    result := by
      rintro _ ⟨⟩
      exact ⟨rfl, agrees⟩
    done := by simp
    notAborted := by simp
    scanning := by simp
    pending := by simp }

theorem OpFacts.park (entries : Nat → Entry)
    (running : call.stage = .running ∨ ∃ rest, call.stage = .scanning rest)
    (prepared : Op.Prepared op { call with stage := .waiting, entries })
    (unwoken : ∀ arm, (entries arm).woken = false)
    (uncancelled : ∀ arm, (entries arm).cancelled = false) :
    OpFacts op { call with stage := .waiting, entries } := by
  have before := facts.running_unclaimed running
  have unclaimed : ({ call with stage := .waiting, entries } : Op).claimed = false := by
    simp [Op.claimed, unwoken]
  have started : call.stage ≠ .absent ∧ call.stage ≠ .done := by
    rcases running with stage | ⟨rest, stage⟩ <;> simp [stage]
  exact {
    single := fun _ => facts.single started.1
    plain := facts.plain
    distinct := facts.distinct
    woken := by simp [unwoken]
    unique := by simp [unwoken]
    fired := by
      rw [unclaimed]
      simp [facts.fired, before]
    cancelled := by simp [uncancelled]
    unclaimed := by simp [unclaimed]
    readied := by
      intro ready
      simp [facts.readied ready] at before
    ready := by simp [unclaimed]
    entries := fun _ => prepared
    resumed := by simp
    result := fun result returned => absurd (facts.result result returned).1 started.2
    done := by simp
    notAborted := by simp
    scanning := by simp
    pending := by simp }

theorem OpFacts.advance (scanning : call.stage = .scanning remaining)
    (rest : List Nat) : OpFacts op { call with stage := .scanning rest } := by
  have unclaimed := facts.running_unclaimed (.inr ⟨remaining, scanning⟩)
  exact { facts with
    single := fun _ => facts.single (by simp [scanning])
    unclaimed := by
      intro claimed
      rw [show call.claimed = true from claimed] at unclaimed
      contradiction
    ready := by simp
    entries := by
      rintro (waiting | later)
      · simp at waiting
      · exact facts.entries (.inr later)
    resumed := by simp
    result := by
      intro result returned
      have finished := (facts.result result returned).1
      simp [scanning] at finished
    done := by simp
    notAborted := by simp
    scanning := fun _ _ => facts.scanning _ scanning
    pending := by simp }

theorem OpFacts.startPending (pending : call.stage = .pending) (arm : Nat) : OpFacts op { call with
      stage := .running
      entries := update call.entries arm { call.entries arm with ch := none } } := by
  have before : call.claimed = false := by
    by_contra claimed
    have later := facts.unclaimed (by simpa using claimed)
    simp [pending] at later
  have unwoken : ∀ other, (update call.entries arm
      { call.entries arm with ch := none } other).woken = false := by
    intro other
    by_cases same : other = arm
    · subst same; simpa using facts.not_woken before other
    · simpa [same] using facts.not_woken before other
  have uncancelled : ∀ other, (update call.entries arm
      { call.entries arm with ch := none } other).cancelled = false := by
    intro other
    by_cases same : other = arm
    · subst same; simpa using facts.not_cancelled before other
    · simpa [same] using facts.not_cancelled before other
  have unclaimed : Op.claimed { call with
      stage := .running
      entries := update call.entries arm { call.entries arm with ch := none } } =
      false := by
    simp [Op.claimed, unwoken]
  exact {
    single := fun _ => facts.single (by simp [pending])
    plain := facts.plain
    distinct := facts.distinct
    woken := by simp [unwoken]
    unique := by simp [unwoken]
    fired := by
      rw [unclaimed]
      simp [facts.fired, before]
    cancelled := by simp [uncancelled]
    unclaimed := by simp [unclaimed]
    readied := by
      intro ready
      simp [facts.readied ready] at before
    ready := by simp
    entries := by
      rintro (waiting | claimed | callback)
      · simp at waiting
      · simp [unclaimed] at claimed
      · intro other member
        obtain ⟨spec, shares, kind, gen, direction, fresh⟩ :=
          facts.entries (.inr (.inr callback)) other member
        by_cases same : other = arm
        · subst same
          simp only [update_self]
          exact ⟨spec, shares, kind, gen, direction, fresh⟩
        · simp only [update_of_ne same]
          exact ⟨spec, shares, kind, gen, direction, fresh⟩
    resumed := by simp
    result := by
      intro result returned
      have finished := (facts.result result returned).1
      simp [pending] at finished
    done := by simp
    notAborted := by simp
    scanning := by simp
    pending := by simp }

theorem OpFacts.resume (waiting : call.stage = .waiting)
    (select : call.select = true) (claimed : call.claimed = true) :
    OpFacts op { call with stage := .resumed call.order none } :=
  { facts with
    single := fun _ => facts.single (by simp [waiting])
    unclaimed := fun _ => .inr (.inr ⟨_, _, rfl⟩)
    ready := by simp
    entries := fun _ => facts.entries (.inl waiting)
    resumed := by
      rintro _ _ ⟨⟩
      exact ⟨select, claimed, fun arm woken => .inl (facts.woken arm woken), by simp⟩
    result := by
      intro result returned
      have finished := (facts.result result returned).1
      simp [waiting] at finished
    done := by simp
    notAborted := by simp
    scanning := by simp
    pending := by simp }

theorem OpFacts.unready (awake : call.stage ≠ .waiting) :
    OpFacts op { call with ready := false } :=
  { facts with
    readied := by simp
    ready := by simp [awake] }

theorem OpFacts.noteWinner (resumed : call.stage = .resumed (arm :: rest) winner)
    (woken : (call.entries arm).woken = true) :
    OpFacts op { call with stage := .resumed rest (some arm) } := by
  obtain ⟨select, claimed, found, -⟩ := facts.resumed _ _ resumed
  exact { facts with
    single := fun _ => facts.single (by simp [resumed])
    unclaimed := fun _ => .inr (.inr ⟨_, _, rfl⟩)
    ready := by simp
    entries := fun _ => facts.entries (.inr (.inl claimed))
    resumed := by
      rintro _ _ ⟨⟩
      refine ⟨select, claimed, fun other otherWoken => .inr ?_, ?_⟩
      · rw [facts.unique other arm otherWoken woken]
      · rintro _ ⟨⟩
        exact woken
    result := by
      intro result returned
      have finished := (facts.result result returned).1
      simp [resumed] at finished
    done := by simp
    notAborted := by simp
    scanning := by simp
    pending := by simp }

theorem OpFacts.cancelArm (resumed : call.stage = .resumed (arm :: rest) winner)
    (unwoken : (call.entries arm).woken = false) :
    OpFacts op { call with
      stage := .resumed rest winner
      entries := update call.entries arm
        { call.entries arm with cancelled := true } } := by
  obtain ⟨select, claimed, found, won⟩ := facts.resumed _ _ resumed
  have sameWoken : ∀ other, (update call.entries arm
      { call.entries arm with cancelled := true } other).woken = (call.entries other).woken := by
    intro other
    by_cases same : other = arm
    · subst same; simp
    · simp [same]
  have sameClaimed : Op.claimed { call with
      stage := .resumed rest winner
      entries := update call.entries arm
        { call.entries arm with cancelled := true } } = call.claimed := by
    simp [Op.claimed, sameWoken]
  exact {
    single := fun _ => facts.single (by simp [resumed])
    plain := facts.plain
    distinct := facts.distinct
    woken := by simpa [sameWoken] using facts.woken
    unique := by simpa [sameWoken] using facts.unique
    fired := by rw [sameClaimed]; exact facts.fired
    cancelled := by
      intro other marked
      refine ⟨select, sameClaimed.trans claimed, (sameWoken other).trans ?_⟩
      by_cases same : other = arm
      · rw [same, unwoken]
      · exact (facts.cancelled other (by simpa [same] using marked)).2.2
    unclaimed := fun _ => .inr (.inr ⟨_, _, rfl⟩)
    readied := fun _ => sameClaimed.trans claimed
    ready := by simp
    entries := by
      intro _ other member
      obtain ⟨spec, shares, kind, gen, direction, fresh⟩ :=
        facts.entries (.inr (.inl claimed)) other member
      by_cases same : other = arm
      · subst same
        simp only [update_self]
        exact ⟨spec, shares, kind, gen, direction, fresh⟩
      · simp only [update_of_ne same]
        exact ⟨spec, shares, kind, gen, direction, fresh⟩
    resumed := by
      rintro _ _ ⟨⟩
      refine ⟨select, sameClaimed.trans claimed, ?_, by simpa [sameWoken] using won⟩
      intro other otherWoken
      rw [sameWoken] at otherWoken
      rcases found other otherWoken with member | same
      · rcases List.mem_cons.mp member with rfl | later
        · simp [unwoken] at otherWoken
        · exact .inl later
      · exact .inr same
    result := by
      intro result returned
      have finished := (facts.result result returned).1
      simp [resumed] at finished
    done := by simp
    notAborted := by simp
    scanning := by simp
    pending := by simp }

/-- When phase 7 has looked at every arm, it has found the claimed one. -/
theorem OpFacts.winner_found (resumed : call.stage = .resumed [] winner) :
    ∃ arm, winner = some arm ∧ (call.entries arm).woken = true := by
  obtain ⟨-, claimed, found, won⟩ := facts.resumed _ _ resumed
  obtain ⟨arm, woken⟩ := facts.claimed_iff.mp claimed
  rcases found arm woken with member | same
  · cases member
  · exact ⟨arm, same, woken⟩

theorem OpFacts.entryResult_agrees (woken : (call.entries arm).woken = true) :
    ∀ other, (call.entries other).woken = true → (entryResult call arm).arm = some other ∧
      (entryResult call arm).ok = (call.entries other).ok ∧
      (entryResult call arm).msg = (call.entries other).received := by
  intro other otherWoken
  rw [facts.unique other arm otherWoken woken]
  exact ⟨rfl, rfl, rfl⟩

end

end Libgoc.Channel
