import Libgoc.Data.Handoff
import Libgoc.Timeout.Manager

namespace Libgoc.Timeout

open Libgoc.Semantics Libgoc.Data Function

/-! # The life of a timeout (`src/timeout.c`) -/

inductive StartState where
  | notStarted
  | started
  | closed
deriving Repr, DecidableEq

/-- The fields of `goc_timeout_timer_ctx` but for `heap_idx`, the guard of its
channel, and the request. -/
structure TimerCtx where
  startState : StartState
  cancelRequested : Bool
  closeGuard : CloseGuard
  req : TimeoutReq
deriving Repr, DecidableEq

inductive Task where
  | start (ctx : Ctx)
  | closeDispatch (ctx : Ctx)
  | cancel (ctx : Ctx)
deriving Repr, DecidableEq

def Task.ctx : Task → Ctx
  | .start ctx | .closeDispatch ctx | .cancel ctx => ctx

inductive StartPoint where
  | checked
  | marked
  | rechecked
deriving Repr, DecidableEq

structure Starting where
  ctx : Ctx
  nowNs : UInt64
  point : StartPoint
deriving Repr, DecidableEq

structure Loop where
  heap : TimerHeap
  made : Nat
  ctx : Ctx → TimerCtx
  tasks : List Task
  starting : Option Starting
  accepting : Bool
  expirations : Ctx → Nat
  cancelRan : Ctx → Bool

/-- `post_on_loop` drops the task when the loop is shutting down. -/
def postOnLoop (loop : Loop) (task : Task) : Loop :=
  if loop.accepting then { loop with tasks := loop.tasks ++ [task] } else loop

def Loop.setStartState (loop : Loop) (ctx : Ctx) (state : StartState) : Loop :=
  { loop with ctx := update loop.ctx ctx { loop.ctx ctx with startState := state } }

def Loop.setCloseGuard (loop : Loop) (ctx : Ctx) (guard : CloseGuard) : Loop :=
  { loop with ctx := update loop.ctx ctx { loop.ctx ctx with closeGuard := guard } }

def Loop.setCancelRequested (loop : Loop) (ctx : Ctx) : Loop :=
  { loop with ctx := update loop.ctx ctx { loop.ctx ctx with cancelRequested := true } }

def onTimeoutChannelClosed (loop : Loop) (ctx : Ctx) : Loop :=
  postOnLoop (loop.setCancelRequested ctx) (.cancel ctx)

/-- `goc_close_internal`: the first caller runs the handler. -/
def gocCloseInternal (loop : Loop) (ctx : Ctx) : Loop :=
  if (loop.ctx ctx).closeGuard = .closing then loop
  else onTimeoutChannelClosed (loop.setCloseGuard ctx .closing) ctx

def gocCloseOnLoop (loop : Loop) (ctx : Ctx) : Loop :=
  if (loop.ctx ctx).closeGuard = .opened then
    gocCloseInternal (loop.setCloseGuard ctx .requested) ctx
  else loop

/-- `goc_close` on another thread; the process aborts when the task is rejected. -/
def gocCloseElsewhere (loop : Loop) (ctx : Ctx) : Option Loop :=
  if (loop.ctx ctx).closeGuard = .opened then
    if loop.accepting then
      some (postOnLoop (loop.setCloseGuard ctx .requested) (.closeDispatch ctx))
    else none
  else some loop

def Loop.addCtx (loop : Loop) (req : TimeoutReq) : Loop :=
  { loop with
    made := loop.made + 1
    ctx := update loop.ctx loop.made ⟨.notStarted, false, .opened, req⟩ }

/-- `goc_timeout` makes a context and posts its start task. -/
def makeTimeout (loop : Loop) (ms nowNs : UInt64) : Loop :=
  postOnLoop (loop.addCtx (gocTimeout ms nowNs)) (.start loop.made)

/-- `on_start_timer` up to the first test of `cancel_requested`. -/
def onStartTimer (loop : Loop) (ctx : Ctx) (nowNs : UInt64) : Loop :=
  if (loop.ctx ctx).cancelRequested then loop
  else { loop with starting := some ⟨ctx, nowNs, .checked⟩ }

/-- The next part of `on_start_timer`: the new state, the second test, the insertion. -/
def continueStart (loop : Loop) (starting : Starting) : Loop :=
  match starting.point with
  | .checked =>
    { loop.setStartState starting.ctx .started with
      starting := some { starting with point := .marked } }
  | .marked =>
    if (loop.ctx starting.ctx).cancelRequested then
      { loop.setStartState starting.ctx .closed with starting := none }
    else { loop with starting := some { starting with point := .rechecked } }
  | .rechecked =>
    { loop with
      heap := gocTimerManagerInsert loop.heap starting.ctx
        (fireAtNs (loop.ctx starting.ctx).req starting.nowNs)
      starting := none }

def onCancelTimer (loop : Loop) (ctx : Ctx) : Loop :=
  let loop := { loop with cancelRan := update loop.cancelRan ctx true }
  if (loop.ctx ctx).startState ≠ .started then loop
  else
    let loop := loop.setStartState ctx .closed
    { loop with heap := gocTimerManagerRemove loop.heap ctx }

def gocTimeoutCtxExpire (loop : Loop) (ctx : Ctx) : Loop :=
  gocCloseOnLoop
    { loop with expirations := update loop.expirations ctx (loop.expirations ctx + 1) } ctx

/-- One turn of the loop of `on_timer_mgr_fire`. -/
def expireRoot (loop : Loop) (root : UInt64 × Ctx) : Loop :=
  let loop := { loop with heap := loop.heap.popRoot root }
  gocTimeoutCtxExpire (loop.setStartState root.2 .closed) root.2

def fireFrom (nowNs : UInt64) : Nat → Loop → Loop
  | 0, loop => loop
  | fuel + 1, loop =>
    match loop.heap.entries[0]? with
    | none => loop
    | some root =>
      if expires root.1 nowNs then fireFrom nowNs fuel (expireRoot loop root) else loop

/-- `on_timer_mgr_fire`; a turn takes an entry out of the heap. -/
def fireTimers (loop : Loop) (nowNs : UInt64) : Loop :=
  fireFrom nowNs loop.heap.entries.length loop

/-- One turn of the loop of `goc_timer_manager_shutdown`. -/
def closeEntry (loop : Loop) (entry : UInt64 × Ctx) : Loop :=
  let loop := loop.setStartState entry.2 .closed
  let heap := { loop.heap with index := update loop.heap.index entry.2 none }
  gocCloseOnLoop { loop with heap := heap } entry.2

def gocTimerManagerShutdown (loop : Loop) : Loop :=
  let loop := loop.heap.entries.foldl closeEntry loop
  { loop with heap := { loop.heap with entries := [] } }

namespace Lifecycle

inductive Label where
  | timeout (ms nowNs : UInt64)
  | closeElsewhere (ctx : Ctx)
  | closeOnLoop (ctx : Ctx)
  | dispatchClose (ctx : Ctx)
  | start (ctx : Ctx) (nowNs : UInt64)
  | continueStart
  | cancel (ctx : Ctx)
  | fire (nowNs : UInt64)
  | stopAccepting
  | shutDown

/-- A posted task is taken when the loop thread is not in a start task. -/
def takeTask (loop : Loop) (task : Task) : Option Loop :=
  if loop.starting = none ∧ task ∈ loop.tasks then
    some { loop with tasks := loop.tasks.erase task }
  else none

/-- The dispatched close runs on the loop thread; here it may run in between the
parts of a start task too. -/
def step (loop : Loop) : Label → Option Loop
  | .timeout ms nowNs => some (makeTimeout loop ms nowNs)
  | .closeElsewhere ctx => if ctx < loop.made then gocCloseElsewhere loop ctx else none
  | .closeOnLoop ctx =>
    if ctx < loop.made ∧ loop.starting = none then some (gocCloseOnLoop loop ctx) else none
  | .dispatchClose ctx =>
    if .closeDispatch ctx ∈ loop.tasks then
      some (gocCloseInternal { loop with tasks := loop.tasks.erase (.closeDispatch ctx) } ctx)
    else none
  | .start ctx nowNs => (takeTask loop (.start ctx)).map (onStartTimer · ctx nowNs)
  | .continueStart => loop.starting.map (continueStart loop)
  | .cancel ctx => (takeTask loop (.cancel ctx)).map (onCancelTimer · ctx)
  | .fire nowNs => if loop.starting = none then some (fireTimers loop nowNs) else none
  | .stopAccepting => some { loop with accepting := false }
  | .shutDown => if loop.starting = none then some (gocTimerManagerShutdown loop) else none

def initialLoop : Loop where
  heap := .empty
  made := 0
  ctx _ := ⟨.notStarted, false, .opened, ⟨0, 0⟩⟩
  tasks := []
  starting := none
  accepting := true
  expirations _ := 0
  cancelRan _ := false

def system : System Loop Label where
  initial loop := loop = initialLoop
  step := step

/-- The start task that is under way is not that of the context. -/
def Idle (loop : Loop) (ctx : Ctx) : Prop :=
  ∀ starting, loop.starting = some starting → starting.ctx ≠ ctx

/-- What concerns one context. -/
structure View where
  made : Prop
  state : StartState
  requested : Bool
  there : Prop
  busy : Option StartPoint
  starts : Nat
  dispatched : Prop
  cancels : Prop
  ran : Bool
  expirations : Nat

def busy (loop : Loop) (ctx : Ctx) : Option StartPoint :=
  (loop.starting.filter (·.ctx = ctx)).map Starting.point

def view (loop : Loop) (ctx : Ctx) : View where
  made := ctx < loop.made
  state := (loop.ctx ctx).startState
  requested := (loop.ctx ctx).cancelRequested
  there := loop.heap.index ctx ≠ none
  busy := busy loop ctx
  starts := loop.tasks.count (.start ctx)
  dispatched := .closeDispatch ctx ∈ loop.tasks
  cancels := .cancel ctx ∈ loop.tasks
  ran := loop.cancelRan ctx
  expirations := loop.expirations ctx

def View.blank : View :=
  ⟨False, .notStarted, false, False, none, 0, False, False, false, 0⟩

/-- What closing the channel leaves as it is. -/
def View.unclosed (view : View) : View :=
  { view with requested := false, dispatched := False, cancels := False }

/-- The state of the context, its tasks and its index in the heap agree. -/
structure View.Good (view : View) : Prop where
  fresh : ¬ view.made → view = .blank
  there : view.there ↔ view.state = .started ∧ view.busy = none
  point : ∀ point, view.busy = some point →
    view.state = if point = .checked then .notStarted else .started
  single : view.starts ≤ 1
  waiting : 0 < view.starts → view.state = .notStarted ∧ view.busy = none
  expired : view.expirations ≤ 1 ∧ (view.expirations = 1 → view.state = .closed)
  told : view.cancels ∨ view.ran = true → view.requested = true
  cancelled : view.ran = true → view.state ≠ .started ∧ view.busy = none

/-- What a step does to the context it is about. -/
inductive Turn (view : View) : View → Prop where
  | make (unmade : ¬ view.made) (posted : starts ≤ 1) :
    Turn view { View.blank with made := True, starts }
  | close (made : view.made) (same : after.unclosed = view.unclosed)
      (kept : view.requested = true → after.requested = true)
      (told : after.cancels → view.cancels ∨ after.requested = true) : Turn view after
  | skip : Turn view { view with starts := view.starts - 1 }
  | start (waits : 0 < view.starts) (quiet : view.requested = false) :
    Turn view { view with busy := some .checked, starts := view.starts - 1 }
  | mark (checked : view.busy = some .checked) :
    Turn view { view with state := .started, busy := some .marked }
  | giveUp (marked : view.busy = some .marked) :
    Turn view { view with state := .closed, busy := none }
  | recheck (marked : view.busy = some .marked) : Turn view { view with busy := some .rechecked }
  | insert (rechecked : view.busy = some .rechecked) :
    Turn view { view with busy := none, there := True }
  | cancel (told : view.requested = true) (idle : view.busy = none)
      (left : view.state ≠ .started) : Turn view { view with ran := true }
  | leave (there : view.there) : Turn view { view with state := .closed, there := False }
  | expire (there : view.there) : Turn view { view with
      state := .closed, there := False, expirations := view.expirations + 1 }

theorem View.Good.turn {view after : View} (good : view.Good) (turn : Turn view after) :
    after.Good := by
  obtain ⟨fresh, there, point, single, waiting, expired, told, cancelled⟩ := good
  cases turn <;> constructor <;> first
    | assumption
    | simp_all [View.blank, View.unclosed] <;> grind

structure Sound (loop : Loop) : Prop where
  valid : loop.heap.Valid
  good : ∀ ctx, (view loop ctx).Good

section

variable {loop next : Loop} {ctx other : Ctx}

theorem initialLoop_sound : Sound initialLoop where
  valid := empty_valid
  good ctx := by
    have blank : view initialLoop ctx = .blank := by
      simp [view, busy, initialLoop, View.blank, IndexedHeap.empty]
    rw [blank]
    constructor <;> simp [View.blank]

theorem busy_none_iff : busy loop ctx = none ↔ Idle loop ctx := by
  unfold busy Idle
  cases loop.starting <;> simp

theorem busy_of_none (idle : loop.starting = none) : busy loop ctx = none := by
  simp [busy, idle]

theorem View.Good.touched {view : View} (good : view.Good) (touched : view ≠ .blank) :
    view.made := by
  by_contra unmade
  exact touched (good.fresh unmade)

theorem Sound.made (sound : Sound loop) (member : task ∈ loop.tasks) : task.ctx < loop.made := by
  apply (sound.good task.ctx).touched
  intro blank
  have starts := congrArg View.starts blank
  have dispatched := congrArg View.dispatched blank
  have cancels := congrArg View.cancels blank
  cases task <;> simp_all [view, View.blank, Task.ctx, List.count_eq_zero]

theorem made_of_there (good : (view loop ctx).Good) (there : loop.heap.index ctx ≠ none) :
    ctx < loop.made := by
  apply good.touched
  intro blank
  have there' := congrArg View.there blank
  simp_all [view, View.blank]

structure Closes (ctx : Ctx) (loop next : Loop) : Prop where
  heap : next.heap = loop.heap
  starting : next.starting = loop.starting
  others : ∀ other, other ≠ ctx → view next other = view loop other
  same : (view next ctx).unclosed = (view loop ctx).unclosed
  kept : (view loop ctx).requested = true → (view next ctx).requested = true
  told : (view next ctx).cancels →
    (view loop ctx).cancels ∨ (view next ctx).requested = true

theorem Closes.refl : Closes ctx loop loop :=
  ⟨rfl, rfl, fun _ _ => rfl, rfl, id, .inl⟩

theorem Closes.good (closes : Closes ctx loop next) (made : ctx < loop.made)
    (good : ∀ ctx, (view loop ctx).Good) : ∀ ctx, (view next ctx).Good := by
  have turn := Turn.close made closes.same closes.kept closes.told
  exact each_of_change (P := View.Good) good ctx ((good ctx).turn turn) rfl closes.others

theorem Sound.closes (sound : Sound loop) (made : ctx < loop.made)
    (closes : Closes ctx loop next) : Sound next where
  valid := closes.heap ▸ sound.valid
  good := closes.good made sound.good

theorem gocCloseInternal_closes : Closes ctx loop (gocCloseInternal loop ctx) := by
  unfold gocCloseInternal onTimeoutChannelClosed postOnLoop
  split
  · exact .refl
  · split
    all_goals
      refine ⟨rfl, rfl, fun other apart => ?_, ?_, fun _ => ?_, fun _ => .inr ?_⟩ <;>
        simp +contextual [view, busy, View.unclosed, Loop.setCloseGuard, Loop.setCancelRequested, *]

theorem gocCloseOnLoop_closes : Closes ctx loop (gocCloseOnLoop loop ctx) := by
  unfold gocCloseOnLoop
  split
  · have closes : Closes ctx (loop.setCloseGuard ctx .requested) _ := gocCloseInternal_closes
    have same : ∀ other, view (loop.setCloseGuard ctx .requested) other = view loop other := by
      intro other
      by_cases apart : other = ctx <;> simp [view, busy, Loop.setCloseGuard, apart]
    obtain ⟨heap, starting, others, own, kept, told⟩ := closes
    simp only [same] at others own kept told
    exact ⟨heap, starting, others, own, kept, told⟩
  · exact .refl

theorem gocCloseElsewhere_closes (closed : gocCloseElsewhere loop ctx = some next) :
    Closes ctx loop next := by
  unfold gocCloseElsewhere postOnLoop at closed
  split at closed
  · split at closed
    · cases closed
      split <;> constructor <;>
        simp +contextual [view, busy, View.unclosed, Loop.setCloseGuard]
    · cases closed
  · cases closed
    exact .refl

theorem Sound.timeout (sound : Sound loop) (ms nowNs : UInt64) :
    Sound (makeTimeout loop ms nowNs) := by
  have unmade : ¬ (view loop loop.made).made := Nat.lt_irrefl _
  have blank := (sound.good _).fresh unmade
  have bound : (if loop.accepting then 1 else 0) ≤ 1 := by split <;> simp
  refine ⟨?_, each_of_change (P := View.Good) sound.good loop.made
    ((sound.good _).turn (.make unmade bound)) ?_ ?_⟩
  · unfold makeTimeout postOnLoop
    split <;> exact sound.valid
  · simp only [View.blank, view, View.mk.injEq] at blank ⊢
    unfold makeTimeout postOnLoop
    split <;> simp_all [Loop.addCtx, busy]
  · intro other apart
    have bound : other < loop.made + 1 ↔ other < loop.made :=
      Nat.lt_succ_iff_lt_or_eq.trans (or_iff_left apart)
    unfold makeTimeout postOnLoop
    split <;> simp [view, busy, Loop.addCtx, apart, bound, Ne.symm apart]

theorem erase_closes :
    Closes ctx loop { loop with tasks := loop.tasks.erase (.closeDispatch ctx) } := by
  constructor <;>
    simp +contextual [view, busy, View.unclosed, List.count_erase_of_ne, List.mem_erase_of_ne]

theorem Sound.start (sound : Sound loop) (taken : takeTask loop (.start ctx) = some next) :
    Sound (onStartTimer next ctx nowNs) := by
  obtain ⟨⟨idle, member⟩, rfl⟩ := guarded taken
  have waits : 0 < (view loop ctx).starts := List.count_pos_iff.mpr member
  unfold onStartTimer
  split
  next told =>
    refine ⟨sound.valid,
      each_of_change (P := View.Good) sound.good ctx ((sound.good ctx).turn .skip) ?_ ?_⟩
    · simp [view, busy, List.mem_erase_of_ne]
    · intro other apart
      simp [view, busy, List.mem_erase_of_ne, List.count_erase_of_ne, apart]
  next quiet =>
    have turn := Turn.start waits (Bool.of_not_eq_true quiet)
    refine ⟨sound.valid,
      each_of_change (P := View.Good) sound.good ctx ((sound.good ctx).turn turn) ?_ ?_⟩
    · simp [view, busy, List.mem_erase_of_ne]
    · intro other apart
      simp [view, busy, List.mem_erase_of_ne, List.count_erase_of_ne, apart, Ne.symm apart, idle]

theorem Sound.continueStart (sound : Sound loop) (running : loop.starting = some starting) :
    Sound (continueStart loop starting) := by
  have own : (view loop starting.ctx).busy = some starting.point := by simp [view, busy, running]
  have good := sound.good starting.ctx
  unfold Timeout.continueStart
  split
  next checked =>
    have turn := Turn.mark (own.trans (congrArg some checked))
    refine ⟨sound.valid,
      each_of_change (P := View.Good) sound.good starting.ctx (good.turn turn) ?_ ?_⟩
    · simp [view, busy, Loop.setStartState]
    · intro other apart
      simp [view, busy, Loop.setStartState, apart, Ne.symm apart, running, Option.filter_some]
  next marked =>
    split
    next =>
      have turn := Turn.giveUp (own.trans (congrArg some marked))
      refine ⟨sound.valid,
        each_of_change (P := View.Good) sound.good starting.ctx (good.turn turn) ?_ ?_⟩
      · simp [view, busy, Loop.setStartState]
      · intro other apart
        simp [view, busy, Loop.setStartState, apart, Ne.symm apart, running]
    next =>
      have turn := Turn.recheck (own.trans (congrArg some marked))
      refine ⟨sound.valid,
        each_of_change (P := View.Good) sound.good starting.ctx (good.turn turn) ?_ ?_⟩
      · simp [view, busy]
      · intro other apart
        simp [view, busy, Ne.symm apart, running, Option.filter_some]
  next rechecked =>
    have absent : loop.heap.index starting.ctx = none := by
      by_contra there
      cases own.symm.trans (good.there.mp there).2
    have turn := Turn.insert (own.trans (congrArg some rechecked))
    refine ⟨(IndexedHeap.insert_spec sound.valid _ absent).1,
      each_of_change (P := View.Good) sound.good starting.ctx (good.turn turn) ?_ ?_⟩
    · simp [view, busy, gocTimerManagerInsert_eq, IndexedHeap.insert_present sound.valid absent]
    · intro other apart
      simp [view, busy, Ne.symm apart, running, gocTimerManagerInsert_eq,
        IndexedHeap.insert_present sound.valid absent, apart]

theorem Sound.cancel (sound : Sound loop) (taken : takeTask loop (.cancel ctx) = some next) :
    Sound (onCancelTimer next ctx) := by
  obtain ⟨⟨idle, member⟩, rfl⟩ := guarded taken
  have good := sound.good ctx
  have told : (view loop ctx).requested = true := good.told (.inl member)
  have drop : View.Good { view loop ctx with
      cancels := .cancel ctx ∈ loop.tasks.erase (.cancel ctx) } :=
    good.turn (.close (sound.made member) rfl id fun kept => .inl (List.mem_of_mem_erase kept))
  unfold onCancelTimer
  dsimp only
  split
  next left =>
    have changed := drop.turn (.cancel told (busy_of_none idle) left)
    refine ⟨sound.valid, each_of_change (P := View.Good) sound.good ctx changed ?_ ?_⟩
    · simp [view, busy, List.mem_erase_of_ne]
    · intro other apart
      simp [view, busy, List.mem_erase_of_ne, apart]
  next started =>
    obtain ⟨valid, members⟩ := IndexedHeap.remove_spec sound.valid ctx
    rw [← gocTimerManagerRemove_eq] at valid members
    have present := IndexedHeap.present_of_members sound.valid valid members
    have there := good.there.mpr ⟨not_not.mp started, busy_of_none idle⟩
    have changed := (drop.turn (.leave there)).turn (.cancel told (busy_of_none idle) nofun)
    refine ⟨valid, each_of_change (P := View.Good) sound.good ctx changed ?_ ?_⟩
    · simp [view, busy, List.mem_erase_of_ne, Loop.setStartState, present]
    · intro other apart
      simp [view, busy, List.mem_erase_of_ne, Loop.setStartState, present, apart]

theorem Sound.expireRoot (sound : Sound loop) (idle : loop.starting = none)
    (atRoot : loop.heap.entries[0]? = some root) :
    Sound (expireRoot loop root) ∧ (Timeout.expireRoot loop root).starting = none := by
  obtain ⟨valid, members, _⟩ := IndexedHeap.popRoot_spec sound.valid atRoot
  have present := IndexedHeap.present_of_members sound.valid valid members
  have there : (view loop root.2).there :=
    sound.valid.present.mpr ⟨root, List.mem_of_getElem? atRoot, rfl⟩
  have made := made_of_there (sound.good root.2) there
  have closes : Closes root.2 _ (Timeout.expireRoot loop root) := gocCloseOnLoop_closes
  refine ⟨⟨closes.heap ▸ valid, closes.good made ?_⟩, closes.starting.trans idle⟩
  apply each_of_change (P := View.Good) sound.good root.2 ((sound.good _).turn (.expire there))
  · simp [view, busy, Loop.setStartState, present]
  · intro other apart
    simp [view, busy, Loop.setStartState, apart, present]

theorem Sound.fireFrom (nowNs : UInt64) (fuel : Nat) (sound : Sound loop)
    (idle : loop.starting = none) : Sound (fireFrom nowNs fuel loop) := by
  induction fuel generalizing loop with
  | zero => exact sound
  | succ fuel ih =>
    unfold Timeout.fireFrom
    split
    next => exact sound
    next root atRoot =>
      split
      next =>
        obtain ⟨expired, still⟩ := sound.expireRoot idle atRoot
        exact ih expired still
      next => exact sound

theorem closeEntry_good (good : ∀ ctx, (view loop ctx).Good)
    (there : loop.heap.index entry.2 ≠ none) :
    (∀ ctx, (view (closeEntry loop entry) ctx).Good) ∧
      (closeEntry loop entry).heap =
        { loop.heap with index := update loop.heap.index entry.2 none } := by
  have closes : Closes entry.2 _ (closeEntry loop entry) := gocCloseOnLoop_closes
  have made := made_of_there (good entry.2) there
  refine ⟨closes.good made ?_, closes.heap⟩
  apply each_of_change (P := View.Good) good entry.2 ((good _).turn (.leave there))
  · simp [view, busy, Loop.setStartState]
  · intro other apart
    simp [view, busy, Loop.setStartState, apart]

/-- The loop of the shutdown goes through distinct contexts that are all present. -/
theorem closeEntries_good (good : ∀ ctx, (view loop ctx).Good)
    (entries : List (UInt64 × Ctx)) (distinct : (entries.map Prod.snd).Nodup)
    (there : ∀ entry ∈ entries, loop.heap.index entry.2 ≠ none) :
    (∀ ctx, (view (entries.foldl closeEntry loop) ctx).Good) ∧
      ∀ ctx, (entries.foldl closeEntry loop).heap.index ctx ≠ none ↔
        loop.heap.index ctx ≠ none ∧ ctx ∉ entries.map Prod.snd := by
  induction entries generalizing loop with
  | nil => simp [good]
  | cons entry rest ih =>
    obtain ⟨outside, distinct⟩ := List.nodup_cons.mp distinct
    obtain ⟨closed, heap⟩ := closeEntry_good good (there entry List.mem_cons_self)
    have present : ∀ ctx, (closeEntry loop entry).heap.index ctx ≠ none ↔
        loop.heap.index ctx ≠ none ∧ ctx ≠ entry.2 := by
      intro ctx
      rw [heap]
      by_cases same : ctx = entry.2 <;> simp [same]
    obtain ⟨all, left⟩ := ih closed distinct (by
      intro other member
      refine (present other.2).mpr ⟨there other (List.mem_cons_of_mem _ member), ?_⟩
      intro same
      exact outside (same ▸ List.mem_map_of_mem member))
    refine ⟨all, ?_⟩
    intro ctx
    rw [List.foldl_cons, left, present, List.map_cons, List.mem_cons, not_or, and_assoc]

theorem Sound.shutDown (sound : Sound loop) : Sound (gocTimerManagerShutdown loop) := by
  obtain ⟨good, left⟩ := closeEntries_good sound.good loop.heap.entries
    sound.valid.distinct fun entry member => sound.valid.present.mpr ⟨entry, member, rfl⟩
  have absent : ∀ ctx, (loop.heap.entries.foldl closeEntry loop).heap.index ctx = none := by
    intro ctx
    by_contra there
    obtain ⟨present, outside⟩ := (left ctx).mp there
    obtain ⟨entry, member, rfl⟩ := sound.valid.present.mp present
    exact outside (List.mem_map_of_mem member)
  refine ⟨⟨?_, ?_⟩, good⟩
  · intro child _ a b _ atChild
    cases atChild
  · intro ctx i
    simp [gocTimerManagerShutdown, absent]

theorem Sound.step (sound : Sound loop) (stepped : step loop label = some next) :
    Sound next := by
  cases label with
  | timeout ms nowNs =>
    cases stepped
    exact sound.timeout ms nowNs
  | closeElsewhere ctx =>
    simp only [Lifecycle.step] at stepped
    split at stepped
    next made => exact sound.closes made (gocCloseElsewhere_closes stepped)
    next => cases stepped
  | closeOnLoop ctx =>
    obtain ⟨⟨made, _⟩, rfl⟩ := guarded stepped
    exact sound.closes made gocCloseOnLoop_closes
  | dispatchClose ctx =>
    obtain ⟨member, rfl⟩ := guarded stepped
    have made := sound.made member
    exact (sound.closes made erase_closes).closes made gocCloseInternal_closes
  | start ctx nowNs =>
    obtain ⟨taken, task, rfl⟩ := Option.map_eq_some_iff.mp stepped
    exact sound.start task
  | continueStart =>
    obtain ⟨starting, running, rfl⟩ := Option.map_eq_some_iff.mp stepped
    exact sound.continueStart running
  | cancel ctx =>
    obtain ⟨taken, task, rfl⟩ := Option.map_eq_some_iff.mp stepped
    exact sound.cancel task
  | fire nowNs =>
    obtain ⟨idle, rfl⟩ := guarded stepped
    exact sound.fireFrom nowNs _ idle
  | stopAccepting =>
    cases stepped
    exact ⟨sound.valid, sound.good⟩
  | shutDown =>
    obtain ⟨_, rfl⟩ := guarded stepped
    exact sound.shutDown

theorem sound_of_reachable (reachable : system.Reachable loop) : Sound loop := by
  apply reachable.invariant
  · intro start initial
    obtain rfl : start = initialLoop := initial
    exact initialLoop_sound
  · intro before label after sound stepped
    exact sound.step stepped

/-- In all runs a timeout expires at most once; outside of its start task it is in
the heap exactly when its state is `1`, and it is not in the heap after its
cancel task has run or it has expired. -/
theorem timeout_agrees (reachable : system.Reachable loop) (ctx : Ctx) : loop.expirations ctx ≤ 1 ∧
    (Idle loop ctx →
      ((∃ entry ∈ loop.heap.entries, entry.2 = ctx) ↔ (loop.ctx ctx).startState = .started)) ∧
    (loop.cancelRan ctx = true ∨ 0 < loop.expirations ctx →
      ∀ entry ∈ loop.heap.entries, entry.2 ≠ ctx) := by
  obtain ⟨valid, good⟩ := sound_of_reachable reachable
  obtain ⟨atMost, closed⟩ := (good ctx).expired
  have present : (∃ entry ∈ loop.heap.entries, entry.2 = ctx) ↔
      (loop.ctx ctx).startState = .started ∧ busy loop ctx = none := by
    rw [← valid.present]
    exact (good ctx).there
  refine ⟨atMost, ?_, ?_⟩
  · intro idle
    exact present.trans (and_iff_left (busy_none_iff.mpr idle))
  · intro ended entry member same
    obtain ⟨state, _⟩ := present.mp ⟨entry, member, same⟩
    obtain ran | expired := ended
    · exact ((good ctx).cancelled ran).1 state
    · cases state.symm.trans (closed (Nat.le_antisymm atMost expired))

end

/-- Two timeouts: the first expires, the second is closed before. -/
def timeoutRun : List Label :=
  [.timeout 1 0, .start 0 500, .continueStart, .continueStart, .continueStart, .timeout 5 600,
    .start 1 700, .continueStart, .closeElsewhere 1, .continueStart, .continueStart, .dispatchClose 1,
    .fire 2000000, .cancel 1, .closeElsewhere 0]

theorem timeoutRun_agrees : ∃ loop, system.run initialLoop timeoutRun = some loop ∧
    loop.expirations 0 = 1 ∧ loop.cancelRan 1 = true ∧
    ∀ ctx, loop.expirations ctx ≤ 1 ∧ (Idle loop ctx →
        ((∃ entry ∈ loop.heap.entries, entry.2 = ctx) ↔ (loop.ctx ctx).startState = .started)) ∧
      (loop.cancelRan ctx = true ∨ 0 < loop.expirations ctx →
        ∀ entry ∈ loop.heap.entries, entry.2 ≠ ctx) :=
  ⟨_, rfl, rfl, rfl, timeout_agrees (.of_run system timeoutRun rfl rfl)⟩

end Lifecycle

end Libgoc.Timeout
