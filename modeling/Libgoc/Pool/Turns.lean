import Libgoc.Pool.Invariant

namespace Libgoc.Pool

open Libgoc.Data Libgoc.Semantics Function

/-! # Steps and fibers -/

section

variable (threadCount : Nat) (state : State) (fiber : FiberId)

def view (seat : Option Stage) : View where
  born := fiber < state.fresh
  record := state.fibers fiber
  tokens := tokens threadCount state fiber
  pendings := pendings state fiber
  seat := seat

/-- `host` is the only worker that is engaged with the fiber. -/
structure Sits (host : Option WorkerId) : Prop where
  within : ∀ worker ∈ host, worker < threadCount
  engaged : ∀ worker, (state.workers worker).engaged = some fiber ↔ host = some worker
  good : (view threadCount state fiber (host.map state.workers)).Good

structure Inv : Prop where
  calm : state.misresumed = 0
  each : ∀ fiber, ∃ host, Sits threadCount state fiber host
  wants : ∀ claim ∈ state.claims, claim.want = 2 * (state.fibers claim.fiber).parkedGen + 2
  counts : Counts state

end

section

variable {threadCount : Nat} {state next : State} {fiber other : FiberId} {worker : WorkerId}
  {stage after : Stage} {record : Fiber} {host : Option WorkerId}

theorem Sits.frame (sits : Sits threadCount state fiber host)
    (same : view threadCount next fiber none = view threadCount state fiber none)
    (workers : ∀ worker, next.workers worker = state.workers worker ∨
      (state.workers worker).engaged ≠ some fiber ∧ (next.workers worker).engaged ≠ some fiber) :
    Sits threadCount next fiber host := by
  have kept : host.map next.workers = host.map state.workers := by
    cases host with
    | none => rfl
    | some worker =>
      obtain kept | ⟨free, _⟩ := workers worker
      · exact congrArg some kept
      · exact absurd ((sits.engaged worker).mpr rfl) free
  constructor
  · exact sits.within
  · intro worker
    rw [← sits.engaged worker]
    obtain kept | ⟨before, now⟩ := workers worker
    · rw [kept]
    · exact iff_of_false now before
  · have whole : view threadCount next fiber (host.map next.workers) =
        { view threadCount next fiber none with seat := host.map next.workers } := rfl
    rw [whole, same, kept]
    exact sits.good

/-- One fiber takes a turn, and the others stay as they are. -/
theorem Inv.turn {before : Option WorkerId} (inv : Inv threadCount state)
    (sits : Sits threadCount state fiber before)
    (turn : Turn fiber (view threadCount state fiber (before.map state.workers))
      (view threadCount next fiber (host.map next.workers)))
    (within : ∀ worker ∈ host, worker < threadCount)
    (engaged : ∀ worker, (next.workers worker).engaged = some fiber ↔ host = some worker)
    (workers : ∀ worker, next.workers worker = state.workers worker ∨ ∀ other, other ≠ fiber →
      (state.workers worker).engaged ≠ some other ∧ (next.workers worker).engaged ≠ some other)
    (others : ∀ other, other ≠ fiber →
      view threadCount next other none = view threadCount state other none)
    (claims : ∀ claim ∈ next.claims, claim ∈ state.claims ∨
      claim = ⟨fiber, 2 * (next.fibers fiber).parkedGen + 2⟩)
    (misresumed : next.misresumed = state.misresumed) (counts : Counts next) :
    Inv threadCount next := by
  constructor
  · exact misresumed.trans inv.calm
  · intro other
    by_cases same : other = fiber
    · rw [same]
      exact ⟨host, within, engaged, sits.good.turn turn⟩
    · obtain ⟨place, sits⟩ := inv.each other
      refine ⟨place, sits.frame (others other same) ?_⟩
      intro worker
      obtain kept | free := workers worker
      · exact .inl kept
      · exact .inr (free other same)
  · intro claim member
    obtain old | new := claims claim member
    · have wanted := inv.wants claim old
      by_cases same : claim.fiber = fiber
      · obtain kept | none := turn.gen sits.good
        · have gen : (next.fibers fiber).parkedGen = (state.fibers fiber).parkedGen := kept
          rw [same, gen, ← same]
          exact wanted
        · have counted : 0 < pendings state fiber :=
            List.countP_pos_iff.mpr ⟨claim, old, by simpa using same⟩
          exact absurd none (Nat.ne_of_gt counted)
      · have kept : next.fibers claim.fiber = state.fibers claim.fiber :=
          congrArg View.record (others claim.fiber same)
        rw [kept]
        exact wanted
    · rw [new]
  · exact counts

/-- The fiber and a worker that no other fiber has to do with. -/
theorem Inv.exchange (inv : Inv threadCount state) (sits : Sits threadCount state fiber host)
    (inside : worker < threadCount)
    (mine : host = some worker ∨ host = none ∧ (state.workers worker).engaged = none)
    (workers : next.workers = update state.workers worker after)
    (leads : after.engaged = some fiber ∨ after.engaged = none)
    (turn : Turn fiber (view threadCount state fiber (host.map state.workers))
      (view threadCount next fiber after.seat))
    (others : ∀ other, other ≠ fiber →
      view threadCount next other none = view threadCount state other none)
    (claims : next.claims = state.claims) (misresumed : next.misresumed = state.misresumed)
    (counts : Counts next) : Inv threadCount next := by
  have now : next.workers worker = after := by rw [workers, update_self]
  have kept : ∀ other, other ≠ worker → next.workers other = state.workers other := by
    intro other different
    rw [workers, update_of_ne different]
  have before : ∀ other, (state.workers worker).engaged = some other → other = fiber := by
    intro other engaged
    obtain rfl | ⟨_, none⟩ := mine
    · exact Option.some.inj (engaged.symm.trans ((sits.engaged worker).mpr rfl))
    · cases engaged.symm.trans none
  have free : ∀ other, other ≠ worker → (next.workers other).engaged ≠ some fiber := by
    intro other different engaged
    rw [kept other different, sits.engaged other] at engaged
    obtain rfl | ⟨rfl, _⟩ := mine
    · exact different (Option.some.inj engaged).symm
    · cases engaged
  have place : after.seat = (after.engaged.map fun _ => worker).map next.workers := by
    simp [Stage.seat, now, Function.comp_def]
  rw [place] at turn
  apply inv.turn sits turn
  · intro other member
    obtain ⟨_, _, rfl⟩ := Option.map_eq_some_iff.mp member
    exact inside
  · intro other
    by_cases same : other = worker
    · subst same
      rw [now]
      obtain leads | leads := leads
      · simp [leads]
      · simp [leads]
    · refine iff_of_false (free other same) ?_
      intro member
      obtain ⟨_, _, rfl⟩ := Option.map_eq_some_iff.mp member
      exact same rfl
  · intro other
    by_cases same : other = worker
    · subst same
      right
      intro guest different
      refine ⟨fun engaged => different (before guest engaged), ?_⟩
      rw [now]
      obtain leads | leads := leads
      · rw [leads]
        exact fun same => different (Option.some.inj same).symm
      · rw [leads]
        exact nofun
    · exact .inl (kept other same)
  · exact others
  · intro claim member
    rw [claims] at member
    exact .inl member
  · exact misresumed
  · exact counts

theorem Inv.pass (inv : Inv threadCount state)
    (before : (state.workers worker).engaged = none) (now : after.engaged = none)
    (workers : next.workers = update state.workers worker after)
    (same : ∀ fiber, view threadCount next fiber none = view threadCount state fiber none)
    (claims : next.claims = state.claims) (misresumed : next.misresumed = state.misresumed)
    (counts : Counts next) : Inv threadCount next := by
  constructor
  · exact misresumed.trans inv.calm
  · intro fiber
    obtain ⟨host, sits⟩ := inv.each fiber
    refine ⟨host, sits.frame (same fiber) ?_⟩
    intro other
    by_cases same : other = worker
    · subst same
      rw [workers, update_self, before, now]
      exact .inr ⟨nofun, nofun⟩
    · exact .inl (by rw [workers, update_of_ne same])
  · intro claim member
    have kept : next.fibers claim.fiber = state.fibers claim.fiber :=
      congrArg View.record (same claim.fiber)
    rw [kept]
    exact inv.wants claim (claims ▸ member)
  · exact counts

variable (other) in
theorem hands_update (within : worker < threadCount)
    (workers : next.workers = update state.workers worker stage) :
    hands threadCount next other + (state.workers worker).picks other =
      hands threadCount state other + stage.picks other := by
  unfold hands
  rw [workers]
  exact tally_update within

theorem picks_of_engaged (engaged : stage.engaged = some fiber) : stage.picks other = 0 := by
  apply if_neg
  intro same
  rw [same] at engaged
  cases engaged

/-- The record of a fiber changes, and what it adds to `live_count` does not. -/
theorem Counts.update (counts : Counts state)
    (fibers : next.fibers = Function.update state.fibers fiber record)
    (same : record.ledger.subtracted = (state.fibers fiber).ledger.subtracted)
    (fresh : next.fresh = state.fresh) (pending : next.pending = state.pending)
    (liveCount : next.liveCount = state.liveCount) : Counts next := by
  unfold Counts at counts ⊢
  rw [liveCount, pending, fresh, fibers, counts]
  congr 2
  by_cases born : fiber < state.fresh
  · rw [tally_update_same born]
    simp [Fiber.counted, same]
  · rw [tally_update_beyond (Nat.le_of_not_lt born)]

theorem Counts.subtract (counts : Counts state) (born : fiber < state.fresh)
    (before : (state.fibers fiber).ledger.subtracted = 0) (after : record.ledger.subtracted ≠ 0)
    (fibers : next.fibers = Function.update state.fibers fiber record)
    (fresh : next.fresh = state.fresh) (pending : next.pending = state.pending)
    (liveCount : next.liveCount = subT state.liveCount 1) : Counts next := by
  have moved : tally Fiber.counted (Function.update state.fibers fiber record) state.fresh +
      (state.fibers fiber).counted = tally Fiber.counted state.fibers state.fresh +
        record.counted := tally_update born
  have one : (state.fibers fiber).counted = 1 := if_pos before
  have none : record.counted = 0 := if_neg after
  have less : tally Fiber.counted state.fibers state.fresh =
      tally Fiber.counted (Function.update state.fibers fiber record) state.fresh + 1 := by omega
  unfold Counts at counts ⊢
  rw [liveCount, pending, fresh, fibers, counts, less, ← Nat.add_assoc, subT_one]

theorem Inv.sits_of_engaged (inv : Inv threadCount state)
    (engaged : (state.workers worker).engaged = some fiber) :
    Sits threadCount state fiber (some worker) := by
  obtain ⟨host, sits⟩ := inv.each fiber
  rw [sits.engaged worker] at engaged
  exact engaged ▸ sits

section

variable (inv : Inv threadCount state) (at_ : state.workers worker = stage)
  (engaged : stage.engaged = some fiber)
include inv at_ engaged

theorem Inv.good_at : (view threadCount state fiber (some stage)).Good := by
  rw [← at_] at engaged ⊢
  exact (inv.sits_of_engaged engaged).good

theorem Inv.hosts_at :
    Hosts (state.fibers fiber) (tokens threadCount state fiber) (pendings state fiber) stage :=
  (inv.good_at at_ engaged).hosts stage rfl

theorem Inv.inside : worker < threadCount := by
  rw [← at_] at engaged
  exact (inv.sits_of_engaged engaged).within worker rfl

end

theorem view_turn (fiber : FiberId) (record : Fiber) (seat : Option Stage)
    (inside : worker < threadCount) (moved : rest + (state.workers worker).picks other =
      tokens threadCount state other + after.picks other) :
    view threadCount (state.turn worker after fiber record) other seat =
      { view threadCount state other seat with
        record := if other = fiber then record else state.fibers other
        tokens := rest } := by
  have hands := @hands_update threadCount state (state.turn worker after fiber record) other
    worker after inside rfl
  have now : tokens threadCount (state.turn worker after fiber record) other = rest := by
    have kept : entries threadCount (state.turn worker after fiber record) other =
        entries threadCount state other := rfl
    unfold tokens at moved ⊢
    omega
  unfold view
  rw [now]
  simp [State.turn, State.setStage, State.setFiber, pendings, update_apply]

theorem picks_same (engaged : stage.engaged = some fiber) (empty : after.picks other = 0) :
    tokens threadCount state other + stage.picks other =
      tokens threadCount state other + after.picks other := by
  rw [picks_of_engaged engaged, empty]

section

variable (inv : Inv threadCount state) (at_ : state.workers worker = stage)
  (engaged : stage.engaged = some fiber) (leads : after.engaged = some fiber ∨ after.engaged = none)
  (empty : ∀ other, after.picks other = 0)
  (turn : Turn fiber (view threadCount state fiber (some stage))
    { view threadCount state fiber after.seat with record := record })
include inv at_ engaged leads empty turn

theorem Inv.advance (counts : Counts ((state.turn worker after fiber record).setLive liveCount)) :
    Inv threadCount ((state.turn worker after fiber record).setLive liveCount) := by
  rw [← at_] at engaged turn
  have sits := inv.sits_of_engaged engaged
  have inside := sits.within worker rfl
  refine inv.exchange sits inside (.inl rfl) rfl leads ?_ ?_ rfl rfl counts
  · have now := view_turn fiber record after.seat inside (picks_same engaged (empty fiber))
    rw [if_pos rfl] at now
    exact now ▸ turn
  · intro other different
    have kept := view_turn fiber record none inside (picks_same engaged (empty other))
    rw [if_neg different] at kept
    exact kept

theorem Inv.carry (counted : record.ledger.subtracted = (state.fibers fiber).ledger.subtracted) :
    Inv threadCount (state.turn worker after fiber record) := by
  show Inv threadCount ((state.turn worker after fiber record).setLive state.liveCount)
  exact inv.advance at_ engaged leads empty turn (inv.counts.update rfl counted rfl rfl rfl)

end

theorem turn_self :
    state.turn worker stage fiber (state.fibers fiber) = state.setStage worker stage := by
  simp [State.turn, State.setFiber]

section

variable (inv : Inv threadCount state)
include inv

theorem clearParked_inv
    (stepped : clearParked state worker = some next) : Inv threadCount next := by
  unfold clearParked at stepped
  split at stepped
  next fiber at_ =>
    cases stepped
    exact inv.carry at_ rfl (.inl rfl) (fun _ => rfl) (.cleared rfl) rfl
  next => cases stepped

theorem park_inv (stepped : park state worker = some next) :
    Inv threadCount next := by
  unfold park at stepped
  split at stepped
  next fiber at_ =>
    cases stepped
    exact inv.carry at_ rfl (.inl rfl) (fun _ => rfl) (.published rfl) rfl
  next => cases stepped

theorem mcoYield_inv (stepped : mcoYield state worker = some next) :
    Inv threadCount next := by
  unfold mcoYield at stepped
  split at stepped
  next fiber at_ =>
    obtain ⟨co, _⟩ := inv.hosts_at at_ rfl
    rw [if_pos co] at stepped
    cases stepped
    exact inv.carry at_ rfl (.inl rfl) (fun _ => rfl) (.suspended rfl) rfl
  next => cases stepped

theorem mcoMainEnd_inv (stepped : mcoMainEnd state worker = some next) : Inv threadCount next := by
  unfold mcoMainEnd at stepped
  split at stepped
  next fiber at_ =>
    cases stepped
    exact inv.carry at_ rfl (.inl rfl) (fun _ => rfl) (.finished rfl) rfl
  next => cases stepped

theorem mcoJumpout_inv (stepped : mcoJumpout state worker = some next) : Inv threadCount next := by
  unfold mcoJumpout at stepped
  split at stepped
  next fiber at_ =>
    cases stepped
    exact inv.carry at_ rfl (.inl rfl) (fun _ => rfl) (.jumped (.inl rfl)) rfl
  next fiber at_ =>
    cases stepped
    exact inv.carry at_ rfl (.inl rfl) (fun _ => rfl) (.jumped (.inr rfl)) rfl
  next => cases stepped

theorem mcoStatus_inv (stepped : mcoStatus state worker = some next) :
    Inv threadCount next := by
  unfold mcoStatus at stepped
  split at stepped
  next fiber at_ =>
    cases stepped
    rw [← turn_self]
    exact inv.carry at_ rfl (.inl rfl) (fun _ => rfl) (.looked rfl) rfl
  next => cases stepped

end

theorem checking_leads : (Stage.checking fiber st).engaged = some fiber ∨
    (Stage.checking fiber st).engaged = none := by
  by_cases dead : st = .dead
  · exact .inl (if_pos dead)
  · exact .inr (if_neg dead)

theorem loadParked_inv (inv : Inv threadCount state)
    (stepped : loadParked state worker = some next) : Inv threadCount next := by
  unfold loadParked at stepped
  split at stepped
  next fiber st at_ =>
    cases stepped
    rw [← turn_self]
    split
    next odd => exact inv.carry at_ rfl (.inl rfl) (fun _ => rfl) (.odd rfl odd) rfl
    next even => exact inv.carry at_ rfl checking_leads (fun _ => rfl) (.even rfl even) rfl
  next => cases stepped

theorem storeParked_inv (inv : Inv threadCount state)
    (stepped : storeParked state worker = some next) : Inv threadCount next := by
  unfold storeParked at stepped
  split at stepped
  next fiber st parked at_ =>
    cases stepped
    exact inv.carry at_ rfl checking_leads (fun _ => rfl) (.stored rfl) rfl
  next => cases stepped

theorem mcoDestroy_inv (inv : Inv threadCount state) (inside : worker < threadCount)
    (stepped : mcoDestroy state worker = some next) : Inv threadCount next := by
  unfold mcoDestroy at stepped
  split at stepped
  next fiber st at_ =>
    split at stepped
    next dead =>
      cases stepped
      obtain rfl := dead
      exact inv.carry at_ rfl (.inl rfl) (fun _ => rfl) (.destroyed rfl) rfl
    next alive =>
      cases stepped
      refine inv.pass (by rw [at_]; exact if_neg alive) rfl rfl ?_ rfl rfl inv.counts
      intro other
      have moved := @hands_update threadCount state (state.setStage worker .idle) other worker
        .idle inside rfl
      rw [at_] at moved
      exact congrArg (fun hands => { view threadCount state other none with
        tokens := entries threadCount state other + hands }) moved
  next => cases stepped

theorem subtractLive_inv (inv : Inv threadCount state)
    (stepped : subtractLive state worker = some next) : Inv threadCount next := by
  unfold subtractLive at stepped
  split at stepped
  next fiber at_ =>
    cases stepped
    obtain ⟨_, before, _⟩ := inv.hosts_at at_ rfl
    have good := inv.good_at at_ rfl
    exact inv.advance at_ rfl (.inr rfl) (fun _ => rfl) (.uncounted rfl)
      (inv.counts.subtract (good.born_of_seat nofun) before (Nat.succ_ne_zero _) rfl rfl rfl rfl)
  next => cases stepped

/-- A fiber is put on one run queue. -/
structure Pushes (threadCount : Nat) (fiber : FiberId) (state next : State) : Prop where
  form : ∃ deques injectors nextPushIdx, next = { state with
    fibers := update state.fibers fiber (state.fibers fiber).posted
    deques := deques
    injectors := injectors
    nextPushIdx := nextPushIdx }
  tokens : ∀ other, tokens threadCount next other =
    tokens threadCount state other + if other = fiber then 1 else 0

theorem count_append_single :
    (items ++ [fiber]).count other = items.count other + if other = fiber then 1 else 0 := by
  by_cases same : other = fiber
  · subst same
    simp
  · simp [List.count_append, same, Ne.symm same]

theorem tally_push {queues : WorkerId → List FiberId} (within : worker < threadCount) :
    tally (List.count other) (update queues worker (queues worker ++ [fiber])) threadCount =
      tally (List.count other) queues threadCount + if other = fiber then 1 else 0 := by
  have moved : tally (List.count other)
        (update queues worker (queues worker ++ [fiber])) threadCount +
      (queues worker).count other = tally (List.count other) queues threadCount +
        (queues worker ++ [fiber]).count other := tally_update within
  rw [count_append_single] at moved
  omega

theorem wsdqPushBottom_pushes (within : worker < threadCount) :
    Pushes threadCount fiber state (wsdqPushBottom state worker fiber) := by
  refine ⟨⟨_, _, _, rfl⟩, ?_⟩
  intro other
  have moved := @tally_push threadCount fiber other worker state.deques within
  simp only [tokens, entries, hands, wsdqPushBottom, State.setDeque, State.setFiber, moved]
  omega

theorem injectorPush_pushes (within : worker < threadCount) :
    Pushes threadCount fiber state (injectorPush state worker fiber) := by
  refine ⟨⟨_, _, _, rfl⟩, ?_⟩
  intro other
  have moved := @tally_push threadCount fiber other worker state.injectors within
  simp only [tokens, entries, hands, injectorPush, State.setInjector, State.setFiber, moved]
  omega

theorem postToRunQueue_pushes (nonempty : 0 < threadCount)
    (within : ∀ worker ∈ poster, worker < threadCount) :
    Pushes threadCount fiber state (postToRunQueue threadCount state poster fiber) := by
  cases poster with
  | some worker => exact wsdqPushBottom_pushes (within worker rfl)
  | none =>
    have pushes := @injectorPush_pushes threadCount
      { state with nextPushIdx := state.nextPushIdx + 1 } fiber _
      (Nat.mod_lt state.nextPushIdx nonempty)
    exact ⟨⟨_, _, _, rfl⟩, pushes.tokens⟩

theorem postToSpecificWorker_pushes
    (posted : postToSpecificWorker threadCount state poster workerIdx fiber = some next) :
    Pushes threadCount fiber state next := by
  unfold postToSpecificWorker at posted
  split at posted
  · cases posted
  next within =>
    split at posted
    · cases posted
      exact wsdqPushBottom_pushes (Nat.lt_of_not_le within)
    · cases posted
      exact injectorPush_pushes (Nat.lt_of_not_le within)

theorem postWoken_pushes (nonempty : 0 < threadCount)
    (within : ∀ worker ∈ poster, worker < threadCount)
    (posted : postWoken threadCount state poster toHome fiber = some next) :
    Pushes threadCount fiber state next := by
  unfold postWoken at posted
  simp only at posted
  split at posted
  · exact postToSpecificWorker_pushes posted
  · cases posted
    exact postToRunQueue_pushes nonempty within

theorem Pushes.view (pushes : Pushes threadCount fiber state next) (seat : Option Stage) :
    view threadCount next fiber seat = { view threadCount state fiber seat with
      record := (view threadCount state fiber seat).record.posted
      tokens := (view threadCount state fiber seat).tokens + 1 } := by
  obtain ⟨⟨_, _, _, form⟩, moved⟩ := pushes
  unfold Pool.view
  rw [moved, if_pos rfl, form]
  simp [pendings]

theorem Pushes.view_other (pushes : Pushes threadCount fiber state next)
    (different : other ≠ fiber) :
    Pool.view threadCount next other none = Pool.view threadCount state other none := by
  obtain ⟨⟨_, _, _, form⟩, moved⟩ := pushes
  unfold Pool.view
  rw [moved, if_neg different, form]
  simp [pendings, different]

theorem Pushes.counts (pushes : Pushes threadCount fiber state next) (counts : Counts state) :
    Counts next := by
  obtain ⟨⟨_, _, _, rfl⟩, _⟩ := pushes
  exact counts.update rfl rfl rfl rfl rfl

/-- The fiber posts itself and is not yet suspended. -/
theorem gocYield_inv (inv : Inv threadCount state)
    (stepped : gocYield threadCount state worker = some next) : Inv threadCount next := by
  unfold gocYield at stepped
  split at stepped
  next fiber at_ =>
    have engaged : (state.workers worker).engaged = some fiber := by rw [at_]; rfl
    have sits := inv.sits_of_engaged engaged
    have inside := sits.within worker rfl
    have pushes := postToSpecificWorker_pushes stepped
    have left := fun other seat => @view_turn threadCount state other worker (.leaving fiber) _ fiber
      (state.fibers fiber).yields seat inside (picks_same engaged rfl)
    have counts : Counts next := pushes.counts (inv.counts.update rfl rfl rfl rfl rfl)
    have workers : next.workers = update state.workers worker (.leaving fiber) := by
      obtain ⟨_, _, _, rfl⟩ := pushes.form
      rfl
    refine inv.exchange sits inside (.inl rfl) workers (.inl rfl) ?_ ?_ ?_ ?_ counts
    · rw [pushes.view, left, if_pos rfl, Option.map_some, at_]
      exact .yielded rfl
    · intro other different
      rw [pushes.view_other different, left, if_neg different]
      rfl
    · obtain ⟨_, _, _, rfl⟩ := pushes.form
      rfl
    · obtain ⟨_, _, _, rfl⟩ := pushes.form
      rfl
  next => cases stepped

/-- An idle worker takes one entry off a run queue. -/
structure Picks (threadCount : Nat) (worker : WorkerId) (fiber : FiberId) (state next : State) :
    Prop where
  idle : state.workers worker = .idle
  form : ∃ deques injectors, next = { state with
    workers := update state.workers worker (.picked fiber)
    deques := deques
    injectors := injectors }
  entries : ∀ other, entries threadCount next other + (if other = fiber then 1 else 0) =
    entries threadCount state other

theorem tally_take {queues : WorkerId → List FiberId} (within : worker < threadCount)
    (counts : (queues worker).count other = items.count other + if other = fiber then 1 else 0) :
    tally (List.count other) (update queues worker items) threadCount +
      (if other = fiber then 1 else 0) = tally (List.count other) queues threadCount := by
  have moved : tally (List.count other) (update queues worker items) threadCount +
      (queues worker).count other =
        tally (List.count other) queues threadCount + items.count other := tally_update within
  omega

theorem count_cons_single :
    (fiber :: rest).count other = rest.count other + if other = fiber then 1 else 0 := by
  by_cases same : other = fiber
  · subst same
    simp
  · simp [same, Ne.symm same]

theorem setDeque_picks (idle : state.workers worker = .idle) (valid : victim < threadCount)
    (counts : ∀ other, (state.deques victim).count other =
      items.count other + if other = fiber then 1 else 0) :
    Picks threadCount worker fiber state
      ((state.setDeque victim items).setStage worker (.picked fiber)) := by
  refine ⟨idle, ⟨_, _, rfl⟩, ?_⟩
  intro other
  have moved := @tally_take threadCount fiber other victim items state.deques valid (counts other)
  simp only [entries, State.setDeque, State.setStage]
  omega

theorem setInjector_picks (idle : state.workers worker = .idle) (within : worker < threadCount)
    (counts : ∀ other, (state.injectors worker).count other =
      items.count other + if other = fiber then 1 else 0) :
    Picks threadCount worker fiber state
      ((state.setInjector worker items).setStage worker (.picked fiber)) := by
  refine ⟨idle, ⟨_, _, rfl⟩, ?_⟩
  intro other
  have moved := @tally_take threadCount fiber other worker items state.injectors within
    (counts other)
  simp only [entries, State.setInjector, State.setStage]
  omega

theorem pick_picks (within : worker < threadCount)
    (stepped : pick threadCount state worker source = some next) :
    ∃ fiber, Picks threadCount worker fiber state next := by
  unfold pick at stepped
  split at stepped
  next idle =>
    unfold wsdqPopBottom at stepped
    split at stepped
    next fiber last =>
      cases stepped
      refine ⟨fiber, setDeque_picks idle within fun other => ?_⟩
      rw [← count_append_single, List.dropLast_append_getLast? fiber last]
    next => cases stepped
  next idle =>
    unfold injectorPop at stepped
    split at stepped
    next fiber rest found =>
      cases stepped
      refine ⟨fiber, setInjector_picks idle within fun other => ?_⟩
      rw [found, count_cons_single]
    next => cases stepped
  next idle =>
    split at stepped
    next valid =>
      unfold wsdqStealTop at stepped
      split at stepped
      next fiber rest found =>
        cases stepped
        refine ⟨fiber, setDeque_picks idle valid.1 fun other => ?_⟩
        rw [found, count_cons_single]
      next => cases stepped
    next => cases stepped
  next => cases stepped

theorem picked_picks : (Stage.picked fiber).picks other = if other = fiber then 1 else 0 := by
  simp [Stage.picks, eq_comm]

theorem Picks.tokens (picks : Picks threadCount worker fiber state next)
    (inside : worker < threadCount) :
    tokens threadCount next other = tokens threadCount state other := by
  obtain ⟨idle, ⟨_, _, rfl⟩, taken⟩ := picks
  have moved := @hands_update threadCount state
    { state with workers := update state.workers worker (.picked fiber) } other worker _ inside rfl
  rw [idle, picked_picks] at moved
  have used := taken other
  have none : Stage.idle.picks other = 0 := rfl
  simp only [Pool.tokens, hands] at moved ⊢
  omega

theorem Picks.inv (picks : Picks threadCount worker fiber state next)
    (inside : worker < threadCount) (inv : Inv threadCount state) : Inv threadCount next := by
  have same : ∀ other, Pool.tokens threadCount next other = Pool.tokens threadCount state other :=
    fun other => picks.tokens inside
  obtain ⟨idle, ⟨_, _, rfl⟩, _⟩ := picks
  refine inv.pass (by rw [idle]; rfl) rfl rfl ?_ rfl rfl inv.counts
  intro other
  unfold view
  rw [same]
  rfl

/-- A fiber that an entry is held of, and no worker is engaged with, is resumed; only
`goc_yield` posts a fiber that a worker is engaged with. -/
theorem mcoResume_inv (inv : Inv threadCount state) (inside : worker < threadCount)
    (patient : ∀ fiber, state.workers worker = .picked fiber →
      (state.fibers fiber).departure = .yield →
        ∀ other, (state.workers other).engaged ≠ some fiber)
    (stepped : mcoResume state worker = some next) : Inv threadCount next := by
  unfold mcoResume at stepped
  split at stepped
  next fiber at_ =>
    have held : (state.workers worker).picks fiber ≤ hands threadCount state fiber :=
      le_tally inside
    rw [at_, picked_picks, if_pos rfl] at held
    have token : 0 < tokens threadCount state fiber := Nat.le_add_left_of_le held
    obtain ⟨host, sits⟩ := inv.each fiber
    obtain rfl : host = none := by
      cases host with
      | none => rfl
      | some other =>
        have engaged := (sits.engaged other).mpr rfl
        obtain ⟨_, _, none, _⟩ | ⟨_, _, yielded, _⟩ := (sits.good.hosts _ rfl).waits_or
        · exact absurd none (Nat.ne_of_gt token)
        · exact absurd engaged (patient fiber at_ (yielded token) other)
    have born : fiber < state.fresh := by
      by_contra unborn
      exact absurd (sits.good.unborn unborn).2.1 (Nat.ne_of_gt token)
    obtain ⟨co, stack⟩ : (state.fibers fiber).co = .suspended ∧
        (state.fibers fiber).onStack = false := by
      obtain ⟨co, stack, _⟩ | ⟨_, _, _, none, _⟩ := sits.good.rests born rfl
      · exact ⟨co, stack⟩
      · exact absurd none (Nat.ne_of_gt token)
    simp only [co, stack, if_true, Option.some.injEq] at stepped
    have engaged : (continueStage (state.fibers fiber).departure fiber).engaged = some fiber := by
      cases (state.fibers fiber).departure <;> rfl
    obtain ⟨rest, one⟩ : ∃ rest, tokens threadCount state fiber = rest + 1 :=
      Nat.exists_eq_succ_of_ne_zero (Nat.ne_of_gt token)
    cases stepped
    refine inv.exchange sits inside (.inr ⟨rfl, by rw [at_]; rfl⟩) rfl (.inl engaged) ?_ ?_ rfl rfl
      (inv.counts.update rfl rfl rfl rfl rfl)
    · have now := @view_turn threadCount state fiber worker
        (continueStage (state.fibers fiber).departure fiber) rest fiber
        (state.fibers fiber).resumed (some (continueStage (state.fibers fiber).departure fiber))
        inside (by rw [at_, picked_picks, if_pos rfl, picks_of_engaged engaged, one])
      rw [if_pos rfl] at now
      rw [Stage.seat, engaged]
      exact now ▸ .resumed rfl one
    · intro other different
      have kept := @view_turn threadCount state other worker
        (continueStage (state.fibers fiber).departure fiber) _ fiber
        (state.fibers fiber).resumed none inside
        (by rw [at_, picked_picks, if_neg different, picks_of_engaged engaged])
      rw [if_neg different] at kept
      exact kept
  next => cases stepped

/-- A step of a thread that is no worker. -/
theorem Inv.touch (inv : Inv threadCount state) (sits : Sits threadCount state fiber host)
    (workers : next.workers = state.workers)
    (turn : Turn fiber (view threadCount state fiber (host.map state.workers))
      (view threadCount next fiber (host.map state.workers)))
    (others : ∀ other, other ≠ fiber →
      view threadCount next other none = view threadCount state other none)
    (claims : ∀ claim ∈ next.claims, claim ∈ state.claims ∨
      claim = ⟨fiber, 2 * (next.fibers fiber).parkedGen + 2⟩)
    (misresumed : next.misresumed = state.misresumed) (counts : Counts next) :
    Inv threadCount next := by
  rw [← workers] at turn
  refine inv.turn sits (workers ▸ turn) sits.within ?_ ?_ others claims misresumed counts
  · rw [workers]
    exact sits.engaged
  · intro worker
    exact .inl (congrFun workers worker)

/-- The first look at `parked` never drops an entry. -/
theorem claimFiber_inv (inv : Inv threadCount state)
    (stepped : claimFiber state fiber checked = some next) : Inv threadCount next := by
  unfold claimFiber at stepped
  simp only at stepped
  split at stepped
  next wait =>
    obtain ⟨host, sits⟩ := inv.each fiber
    have current : ¬((state.fibers fiber).parked = 0 ∨
        2 * (state.fibers fiber).parkedGen + 2 < (state.fibers fiber).parked) := by
      have waiting : (state.fibers fiber).wait ≠ .none := by rw [wait]; exact nofun
      obtain ⟨_, ⟨_, _, value, _⟩ | ⟨_, _, _, _, value, _⟩⟩ := sits.good.waits (.inl waiting)
      · simp only [view] at value
        omega
      · simp only [view] at value
        omega
    rw [if_neg fun both => current both.2] at stepped
    cases stepped
    refine inv.touch sits rfl ?_ ?_ ?_ rfl (inv.counts.update rfl rfl rfl rfl rfl)
    · have turn := @Turn.claimed fiber (view threadCount state fiber (host.map state.workers)) wait
      convert turn using 1
      simp [view, State.setFiber, State.setClaims, pendings, tokens, entries, hands]
    · intro other different
      simp [view, State.setFiber, State.setClaims, pendings, tokens, entries, hands, different,
        Ne.symm different]
    · intro claim member
      obtain old | new := List.mem_append.mp member
      · exact .inl old
      · right
        simpa [State.setFiber, State.setClaims, Fiber.claimed] using new
  next => cases stepped

variable (fiber) in
theorem pendings_eraseIdx (found : state.claims[index]? = some claim) :
    (state.claims.eraseIdx index).countP (fun other => other.fiber = fiber) +
      (if claim.fiber = fiber then 1 else 0) = pendings state fiber := by
  obtain ⟨bound, rfl⟩ := List.getElem?_eq_some_iff.mp found
  have same := (List.getElem_cons_eraseIdx_perm bound).countP_eq fun other => other.fiber = fiber
  rw [List.countP_cons] at same
  unfold pendings
  simpa using same

/-- A waker posts a fiber whose worker has told it, and never gives up. -/
theorem waitForFiberSuspended_inv (inv : Inv threadCount state) (nonempty : 0 < threadCount)
    (inside : ∀ worker ∈ poster, worker < threadCount)
    (stepped : waitForFiberSuspended threadCount state index poster toHome = some next) :
    Inv threadCount next := by
  unfold waitForFiberSuspended at stepped
  split at stepped
  next fiber want found =>
    simp only at stepped
    have wanted : want = 2 * (state.fibers fiber).parkedGen + 2 :=
      inv.wants _ (List.mem_of_getElem? found)
    have pending := pendings_eraseIdx fiber found
    rw [if_pos rfl] at pending
    obtain ⟨host, sits⟩ := inv.each fiber
    have values : (state.fibers fiber).parked = 2 * (state.fibers fiber).parkedGen + 1 ∨
        (state.fibers fiber).parked = 2 * (state.fibers fiber).parkedGen + 2 := by
      have waiting : 0 < pendings state fiber := by omega
      obtain ⟨_, ⟨_, _, value, _⟩ | ⟨_, _, _, _, value, _⟩⟩ := sits.good.waits (.inr waiting)
      · exact .inl value
      · exact .inr value
    split at stepped
    next told =>
      have pushes := postWoken_pushes nonempty inside stepped
      have form := pushes.form
      have counts : Counts next := pushes.counts (inv.counts.update rfl rfl rfl rfl rfl)
      refine inv.touch sits ?_ ?_ ?_ ?_ ?_ counts
      · obtain ⟨_, _, _, rfl⟩ := form
        rfl
      · have turn := @Turn.woken fiber (view threadCount state fiber (host.map state.workers)) _
          (told.trans wanted) pending.symm
        rw [pushes.view]
        convert turn using 1
        simp [view, State.setFiber, State.setClaims, pendings, tokens, entries, hands]
      · intro other different
        have kept := pendings_eraseIdx other found
        rw [if_neg (Ne.symm different), Nat.add_zero] at kept
        rw [pushes.view_other different]
        unfold pendings at kept
        simp [view, State.setFiber, State.setClaims, pendings, tokens, entries, hands, different,
          kept]
      · obtain ⟨_, _, _, rfl⟩ := form
        intro claim member
        exact .inl (List.mem_of_mem_eraseIdx member)
      · obtain ⟨_, _, _, rfl⟩ := form
        rfl
    next early =>
      split at stepped
      next stale => omega
      next => cases stepped
  next => cases stepped

theorem poolSubmitSpawn_inv (inv : Inv threadCount state) :
    Inv threadCount (poolSubmitSpawn state) := by
  have counts := inv.counts
  refine ⟨inv.calm, ?_, inv.wants, ?_⟩
  · intro fiber
    obtain ⟨host, sits⟩ := inv.each fiber
    exact ⟨host, sits.frame rfl fun _ => .inl rfl⟩
  · unfold Counts at counts ⊢
    show sizeT (state.liveCount + 1) =
      sizeT (state.pending + 1 + tally Fiber.counted state.fibers state.fresh)
    rw [counts, sizeT_succ]
    congr 1
    omega

theorem Counts.enroll (counts : Counts state) (waiting : state.pending ≠ 0) :
    Counts (state.setFiber state.fresh { homeWorkerIdx := home }).enroll := by
  have one : Fiber.counted { homeWorkerIdx := home } = 1 := rfl
  unfold Counts at counts ⊢
  simp only [State.enroll, State.setFiber]
  rw [counts, tally_succ, update_self, one, tally_update_beyond (Nat.le_refl _)]
  congr 1
  omega

/-- The next fiber, with its first entry. -/
theorem dispatch_inv (inv : Inv threadCount state) (waiting : state.pending ≠ 0)
    (pushes : Pushes threadCount state.fresh
      (state.setFiber state.fresh { homeWorkerIdx := home }).enroll next) :
    Inv threadCount next := by
  obtain ⟨host, sits⟩ := inv.each state.fresh
  have form := pushes.form
  refine inv.touch sits ?_ ?_ ?_ ?_ ?_ (pushes.counts (inv.counts.enroll waiting))
  · obtain ⟨_, _, _, rfl⟩ := form
    rfl
  · have turn := @Turn.spawned state.fresh
      (view threadCount state state.fresh (host.map state.workers)) home (Nat.lt_irrefl _)
    rw [pushes.view]
    convert turn using 1
    simp [view, State.setFiber, State.enroll, pendings, tokens, entries, hands]
  · intro other different
    rw [pushes.view_other different]
    simp [view, State.setFiber, State.enroll, pendings, tokens, entries, hands, different,
      Nat.lt_iff_le_and_ne]
  · obtain ⟨_, _, _, rfl⟩ := form
    intro claim member
    exact .inl member
  · obtain ⟨_, _, _, rfl⟩ := form
    rfl

theorem poolDispatchSpawn_inv (inv : Inv threadCount state) (nonempty : 0 < threadCount)
    (inside : ∀ worker ∈ poster, worker < threadCount)
    (stepped : poolDispatchSpawn threadCount state poster workerIdx = some next) :
    Inv threadCount next := by
  unfold poolDispatchSpawn at stepped
  split at stepped
  · cases stepped
  next waiting =>
    cases workerIdx with
    | some idx => exact dispatch_inv inv waiting (postToSpecificWorker_pushes stepped)
    | none =>
      cases stepped
      exact dispatch_inv inv waiting (postToRunQueue_pushes nonempty inside)

end

end Libgoc.Pool
