import Libgoc.Data.Handoff

namespace Libgoc.Io

/-! # Channels fed from the callback queue

A port is a channel as the library itself uses it: its puts come from callbacks,
and it has one queue of takers.  Its operations move the bounded queue by the
steps by which every channel moves it (`Channel.Changes.view`).
-/

open Data

/-- What waits in the callback queue for one channel: a put that was not tried
yet, the completion of a put that had to wait, or a close from another thread. -/
inductive Callback (Item : Type u) where
  | put (item : Item)
  | fire (item : Item) (ok : Bool)
  | close
deriving DecidableEq, Repr

/-- `delivered` are the items that takers got, `told` the takers that were told
that the channel is closed. -/
structure Port (Item : Type u) (Taker : Type v) where
  queue : Handoff Item Taker
  closeGuard : CloseGuard
  callbacks : List (Callback Item)
  delivered : List Item
  told : List Taker

namespace Port

variable {Item : Type u} {Taker : Type v}

def gocChanMake (bufSize : Nat) : Port Item Taker where
  queue := .empty bufSize
  closeGuard := .opened
  callbacks := []
  delivered := []
  told := []

def gocChanIsOpen (port : Port Item Taker) : Bool :=
  port.closeGuard = .opened

def gocPutCb (port : Port Item Taker) (item : Item) : Port Item Taker :=
  { port with callbacks := port.callbacks ++ [.put item] }

def gocCloseInternal (port : Port Item Taker) : Port Item Taker :=
  if port.closeGuard = .closing then port
  else { port with
    closeGuard := .closing
    queue := { port.queue with takers := [], putters := [], closed := true }
    callbacks := port.callbacks ++ port.queue.putters.map (.fire · false)
    told := port.told ++ port.queue.takers }

def gocClose (port : Port Item Taker) (onLoopThread : Bool) : Port Item Taker :=
  if port.closeGuard ≠ .opened then port
  else if onLoopThread then gocCloseInternal { port with closeGuard := .requested }
  else { port with closeGuard := .requested, callbacks := port.callbacks ++ [.close] }

/-- Try a put; `none` says that it waits. -/
def loopProcessPendingPut (port : Port Item Taker) (item : Item) : Port Item Taker × Option Bool :=
  if port.queue.closed then (port, some false)
  else match port.queue.takers with
    | _ :: takers =>
      ({ port with
          queue := { port.queue with
            takers, effects := port.queue.effects ++ [item], taken := port.queue.taken ++ [item] }
          delivered := port.delivered ++ [item] }, some true)
    | [] =>
      if port.queue.stored.length < port.queue.size then
        ({ port with queue := { port.queue with
            stored := port.queue.stored ++ [item]
            effects := port.queue.effects ++ [item] } }, some true)
      else
        ({ port with queue := { port.queue with
            putters := port.queue.putters ++ [item]
            effects := port.queue.effects ++ [item] } }, none)

/-- Perform the first callback of the queue.  The second component is the put
whose own callback is due, with its status. -/
def drainCbQueue (port : Port Item Taker) : Option (Port Item Taker × Option (Item × Bool)) :=
  match port.callbacks with
  | [] => none
  | .put item :: rest =>
    let tried := loopProcessPendingPut { port with callbacks := rest } item
    some (tried.1, tried.2.map (item, ·))
  | .fire item ok :: rest => some ({ port with callbacks := rest }, some (item, ok))
  | .close :: rest => some (gocCloseInternal { port with callbacks := rest }, none)

/-- A take of any kind; one that does not park returns empty-handed. -/
def gocTake (port : Port Item Taker) (taker : Taker) (parks : Bool) : Port Item Taker :=
  match port.queue.stored with
  | item :: rest =>
    { port with
      queue := { port.queue with stored := rest, taken := port.queue.taken ++ [item] }
      delivered := port.delivered ++ [item] }
  | [] =>
    match port.queue.putters with
    | item :: rest =>
      { port with
        queue := { port.queue with putters := rest, taken := port.queue.taken ++ [item] }
        callbacks := port.callbacks ++ [.fire item true]
        delivered := port.delivered ++ [item] }
    | [] =>
      if port.queue.closed then { port with told := port.told ++ [taker] }
      else if parks then
        { port with queue := { port.queue with takers := port.queue.takers ++ [taker] } }
      else port

/-- A waiting taker was cancelled: another arm of its select won. -/
def leave [DecidableEq Taker] (port : Port Item Taker) (taker : Taker) : Port Item Taker :=
  { port with queue := { port.queue with takers := port.queue.takers.erase taker } }

/-- The library itself takes out what is stored; no taker gets it. -/
def chanTakeFromBuffer (port : Port Item Taker) : Option (Item × Port Item Taker) :=
  match port.queue.stored with
  | [] => none
  | item :: rest =>
    some (item, { port with
      queue := { port.queue with stored := rest, taken := port.queue.taken ++ [item] } })

/-- The puts of the callback queue that were not tried yet, in order. -/
def untried (port : Port Item Taker) : List Item :=
  port.callbacks.filterMap fun
    | .put item => some item
    | _ => none

variable {port next : Port Item Taker} {item : Item} {taker : Taker} {outcome : Option (Item × Bool)}

theorem mem_untried : item ∈ port.untried ↔ .put item ∈ port.callbacks := by
  simp only [untried, List.mem_filterMap]
  constructor
  · intro found
    obtain ⟨callback, member, same⟩ := found
    cases callback <;> simp_all
  · exact fun member => ⟨_, member, rfl⟩

inductive Tried (port : Port Item Taker) (item : Item) : Port Item Taker → Option Bool → Prop where
  | refused (closed : port.queue.closed = true) : Tried port item port (some false)
  | given (taker : Taker) (takers : List Taker) (opened : port.queue.closed = false)
      (waiting : port.queue.takers = taker :: takers) :
      Tried port item { port with
        queue := { port.queue with
          takers, effects := port.queue.effects ++ [item], taken := port.queue.taken ++ [item] }
        delivered := port.delivered ++ [item] } (some true)
  | stored (opened : port.queue.closed = false) (alone : port.queue.takers = [])
      (room : port.queue.stored.length < port.queue.size) :
      Tried port item { port with queue := { port.queue with
        stored := port.queue.stored ++ [item]
        effects := port.queue.effects ++ [item] } } (some true)
  | parked (opened : port.queue.closed = false) (alone : port.queue.takers = [])
      (full : ¬ port.queue.stored.length < port.queue.size) :
      Tried port item { port with queue := { port.queue with
        putters := port.queue.putters ++ [item]
        effects := port.queue.effects ++ [item] } } none

theorem loopProcessPendingPut_tried (port : Port Item Taker) (item : Item) :
    Tried port item (port.loopProcessPendingPut item).1 (port.loopProcessPendingPut item).2 := by
  unfold loopProcessPendingPut
  split
  · rename_i closed
    exact .refused closed
  · rename_i opened
    have opened : port.queue.closed = false := by simpa using opened
    split
    · rename_i taker takers waiting
      exact .given taker takers opened waiting
    · rename_i alone
      split
      · rename_i room
        exact .stored opened alone room
      · rename_i full
        exact .parked opened alone full

inductive Drained (port : Port Item Taker) : Port Item Taker → Option (Item × Bool) → Prop where
  | put (item : Item) (rest : List (Callback Item)) (after : Port Item Taker) (ok : Option Bool)
      (first : port.callbacks = .put item :: rest)
      (tried : Tried { port with callbacks := rest } item after ok) :
      Drained port after (ok.map (item, ·))
  | fire (item : Item) (ok : Bool) (rest : List (Callback Item))
      (first : port.callbacks = .fire item ok :: rest) :
      Drained port { port with callbacks := rest } (some (item, ok))
  | close (rest : List (Callback Item)) (first : port.callbacks = .close :: rest) :
      Drained port (gocCloseInternal { port with callbacks := rest }) none

theorem drainCbQueue_drained (drained : port.drainCbQueue = some (next, outcome)) :
    Drained port next outcome := by
  unfold drainCbQueue at drained
  split at drained
  · cases drained
  · rename_i item rest first
    simp only [Option.some.injEq, Prod.mk.injEq] at drained
    obtain ⟨nextSame, outcomeSame⟩ := drained
    rw [← nextSame, ← outcomeSame]
    exact .put item rest _ _ first (loopProcessPendingPut_tried _ item)
  · rename_i item ok rest first
    cases drained
    exact .fire item ok rest first
  · rename_i rest first
    cases drained
    exact .close rest first

inductive Took (port : Port Item Taker) (taker : Taker) : Port Item Taker → Prop where
  | buffered (item : Item) (rest : List Item) (present : port.queue.stored = item :: rest) :
      Took port taker { port with
        queue := { port.queue with stored := rest, taken := port.queue.taken ++ [item] }
        delivered := port.delivered ++ [item] }
  | fetched (item : Item) (rest : List Item) (drained : port.queue.stored = [])
      (waiting : port.queue.putters = item :: rest) :
      Took port taker { port with
        queue := { port.queue with putters := rest, taken := port.queue.taken ++ [item] }
        callbacks := port.callbacks ++ [.fire item true]
        delivered := port.delivered ++ [item] }
  | told (drained : port.queue.stored = []) (closed : port.queue.closed = true) :
      Took port taker { port with told := port.told ++ [taker] }
  | parked (drained : port.queue.stored = []) (noPutters : port.queue.putters = [])
      (opened : port.queue.closed = false) :
      Took port taker { port with queue := { port.queue with takers := port.queue.takers ++ [taker] } }
  | nothing : Took port taker port

theorem gocTake_took (port : Port Item Taker) (taker : Taker) (parks : Bool) :
    Took port taker (port.gocTake taker parks) := by
  unfold gocTake
  split
  · rename_i item rest present
    exact .buffered item rest present
  · rename_i drained
    split
    · rename_i item rest waiting
      exact .fetched item rest drained waiting
    · rename_i noPutters
      split
      · rename_i closed
        exact .told drained closed
      · rename_i opened
        split
        · exact .parked drained noPutters (by simpa using opened)
        · exact .nothing

/-- The channel is closed once its close has started, and then nobody waits; a
close that was only requested is still in the callback queue. -/
structure Sound (port : Port Item Taker) : Prop where
  closed : port.queue.closed = true ↔ port.closeGuard = .closing
  awaited : port.closeGuard = .requested → .close ∈ port.callbacks
  asked : .close ∈ port.callbacks → port.closeGuard ≠ .opened
  cleared : port.queue.closed = true → port.queue.takers = [] ∧ port.queue.putters = []
  unfailed : port.queue.closed = false → ∀ item, .fire item false ∉ port.callbacks
  untold : port.queue.closed = false → port.told = []

theorem gocChanMake_sound (bufSize : Nat) : (gocChanMake bufSize : Port Item Taker).Sound := by
  constructor <;> simp [gocChanMake, Handoff.empty]

theorem Sound.gocPutCb (sound : port.Sound) (item : Item) : (port.gocPutCb item).Sound := by
  obtain ⟨closed, awaited, asked, cleared, unfailed, untold⟩ := sound
  exact ⟨closed, fun requested => List.mem_append_left _ (awaited requested),
    fun queued => asked (by simpa [Port.gocPutCb] using queued), cleared,
    fun opened other => by simpa [Port.gocPutCb] using unfailed opened other, untold⟩

theorem Sound.gocCloseInternal (closed : port.queue.closed = true ↔ port.closeGuard = .closing)
    (cleared : port.queue.closed = true → port.queue.takers = [] ∧ port.queue.putters = []) :
    port.gocCloseInternal.Sound := by
  by_cases closing : port.closeGuard = .closing
  · have shut := closed.mpr closing
    constructor <;> simp [Port.gocCloseInternal, closing, shut, cleared shut]
  · constructor <;> simp [Port.gocCloseInternal, closing]

theorem Sound.gocClose (sound : port.Sound) (onLoopThread : Bool) :
    (port.gocClose onLoopThread).Sound := by
  unfold Port.gocClose
  split
  · exact sound
  · rename_i opened
    have unclosed : port.queue.closed = false := by
      have := sound.closed
      simp_all
    split
    · apply Sound.gocCloseInternal <;> simp [unclosed]
    · constructor <;> simp [unclosed, sound.unfailed unclosed, sound.untold unclosed]

theorem Sound.took (sound : port.Sound) (took : Took port taker next) : next.Sound := by
  obtain ⟨closed, awaited, asked, cleared, unfailed, untold⟩ := sound
  cases took with
  | buffered | nothing => exact ⟨closed, awaited, asked, cleared, unfailed, untold⟩
  | fetched item rest drained waiting =>
    refine ⟨closed, fun requested => List.mem_append_left _ (awaited requested),
      fun queued => asked (by simpa using queued), fun shut => ?_,
      fun opened other => by simpa using unfailed opened other, untold⟩
    have := cleared shut
    simp_all
  | told drained shut => exact ⟨closed, awaited, asked, cleared, unfailed, fun opened => by simp_all⟩
  | parked drained noPutters opened =>
    exact ⟨closed, awaited, asked, fun shut => by simp_all, unfailed, untold⟩

theorem Sound.leave [DecidableEq Taker] (sound : port.Sound) (taker : Taker) :
    (port.leave taker).Sound := by
  obtain ⟨closed, awaited, asked, cleared, unfailed, untold⟩ := sound
  refine ⟨closed, awaited, asked, fun shut => ?_, unfailed, untold⟩
  simp [Port.leave, cleared shut]

theorem Sound.chanTakeFromBuffer (sound : port.Sound)
    (took : port.chanTakeFromBuffer = some (item, next)) : next.Sound := by
  unfold Port.chanTakeFromBuffer at took
  split at took
  · cases took
  · cases took
    exact { sound with }

theorem Sound.drainCbQueue (sound : port.Sound)
    (drained : port.drainCbQueue = some (next, outcome)) : next.Sound := by
  obtain ⟨closed, awaited, asked, cleared, unfailed, untold⟩ := sound
  cases drainCbQueue_drained drained with
  | put item rest after ok first tried =>
    have later : port.closeGuard = .requested → Callback.close ∈ rest := by simp_all
    have before : Callback.close ∈ rest → port.closeGuard ≠ .opened := by simp_all
    have kept : port.queue.closed = false → ∀ other, Callback.fire other false ∉ rest := by
      simp_all
    cases tried with
    | refused => exact ⟨closed, later, before, cleared, kept, untold⟩
    | given taker takers opened | stored opened | parked opened =>
      exact ⟨closed, later, before, fun shut => by simp_all, kept, untold⟩
  | fire item ok rest first => exact ⟨closed, by simp_all, by simp_all, cleared, by simp_all, untold⟩
  | close rest first => exact .gocCloseInternal closed cleared

/-- Until a close is asked for, no put fails. -/
theorem Sound.drains_opened (sound : port.Sound) (opened : port.closeGuard = .opened)
    (drained : port.drainCbQueue = some (next, outcome)) :
    next.closeGuard = .opened ∧ ∀ item, outcome ≠ some (item, false) := by
  obtain ⟨closed, awaited, asked, cleared, unfailed, untold⟩ := sound
  have unclosed : port.queue.closed = false := by
    rw [opened] at closed
    simpa using closed
  cases drainCbQueue_drained drained with
  | put item rest after ok first tried =>
    cases tried with
    | refused shut => simp [unclosed] at shut
    | given | stored | parked => exact ⟨opened, by simp⟩
  | fire item ok rest first =>
    have succeeded := unfailed unclosed item
    refine ⟨opened, fun other same => ?_⟩
    simp_all
  | close rest first => exact absurd opened (asked (by simp [first]))

/-- The item was delivered, or it is stored, waits to be stored, has not been
tried, or is about to be given back to the callback of its put. -/
def Holds (port : Port Item Taker) (item : Item) : Prop :=
  item ∈ port.delivered ∨ item ∈ port.queue.stored ∨ item ∈ port.queue.putters ∨
    .put item ∈ port.callbacks ∨ .fire item false ∈ port.callbacks

theorem Holds.gocPutCb (holds : port.Holds item) (other : Item) :
    (port.gocPutCb other).Holds item := by
  simp only [Holds, Port.gocPutCb, List.mem_append] at holds ⊢
  tauto

theorem gocPutCb_holds (item : Item) : (port.gocPutCb item).Holds item := by
  simp [Holds, Port.gocPutCb]

theorem Holds.gocCloseInternal (holds : port.Holds item) : port.gocCloseInternal.Holds item := by
  unfold Port.gocCloseInternal
  split
  · exact holds
  · simp only [Holds, List.mem_append, List.mem_map] at holds ⊢
    grind

theorem Holds.gocClose (holds : port.Holds item) (onLoopThread : Bool) :
    (port.gocClose onLoopThread).Holds item := by
  unfold Port.gocClose
  split
  · exact holds
  · split
    · exact Holds.gocCloseInternal holds
    · simp only [Holds, List.mem_append] at holds ⊢
      tauto

theorem Holds.took (holds : port.Holds item) (took : Took port taker next) : next.Holds item := by
  cases took with
  | buffered | fetched =>
    simp only [Holds, List.mem_append] at holds ⊢
    grind
  | told | parked | nothing => exact holds

theorem Holds.leave [DecidableEq Taker] (holds : port.Holds item) (taker : Taker) :
    (port.leave taker).Holds item :=
  holds

theorem Holds.chanTakeFromBuffer (holds : port.Holds item)
    (took : port.chanTakeFromBuffer = some (first, next)) : item = first ∨ next.Holds item := by
  unfold Port.chanTakeFromBuffer at took
  split at took
  · cases took
  · rename_i rest stored
    cases took
    simp only [Holds, stored, List.mem_cons] at holds ⊢
    tauto

theorem Holds.drainCbQueue (holds : port.Holds item)
    (drained : port.drainCbQueue = some (next, outcome)) :
    next.Holds item ∨ outcome = some (item, false) := by
  cases drainCbQueue_drained drained with
  | put first rest after ok queued tried =>
    simp only [Holds, queued, List.mem_cons] at holds
    cases tried <;> (simp only [Holds, List.mem_append]; grind)
  | fire first ok rest queued =>
    simp only [Holds, queued, List.mem_cons] at holds ⊢
    grind
  | close rest queued =>
    left
    apply Holds.gocCloseInternal
    simp only [Holds, queued, List.mem_cons] at holds ⊢
    grind

def Spent (port : Port Item Taker) : Prop :=
  port.queue.closed = true ∧ port.queue.stored = []

/-- What every operation keeps: `lost` is the item that is given back or dropped,
if there is one. -/
structure Advances (port next : Port Item Taker) (lost : Option Item) : Prop where
  sound : next.Sound
  holds : ∀ item, port.Holds item → next.Holds item ∨ lost = some item
  asked : port.closeGuard ≠ .opened → next.closeGuard ≠ .opened
  spent : port.Spent → next.Spent

theorem gocCloseInternal_closeGuard (port : Port Item Taker) :
    port.gocCloseInternal.closeGuard = .closing := by
  unfold gocCloseInternal
  split
  · assumption
  · rfl

theorem gocClose_closeGuard (port : Port Item Taker) (onLoopThread : Bool) :
    (port.gocClose onLoopThread).closeGuard ≠ .opened := by
  unfold gocClose
  split
  · assumption
  · split
    · simp [gocCloseInternal_closeGuard]
    · simp

theorem Spent.gocCloseInternal (spent : port.Spent) : port.gocCloseInternal.Spent := by
  unfold Port.gocCloseInternal
  split
  · exact spent
  · exact ⟨rfl, spent.2⟩

theorem Sound.advances_gocClose (sound : port.Sound) (onLoopThread : Bool) :
    Advances port (port.gocClose onLoopThread) none where
  sound := sound.gocClose onLoopThread
  holds := fun _ holds => .inl (holds.gocClose onLoopThread)
  asked := fun _ => port.gocClose_closeGuard onLoopThread
  spent := by
    intro spent
    unfold Port.gocClose
    split
    · exact spent
    · split
      · exact Spent.gocCloseInternal spent
      · exact spent

theorem Sound.advances_took (sound : port.Sound) (took : Took port taker next) :
    Advances port next none where
  sound := sound.took took
  holds := fun _ holds => .inl (holds.took took)
  asked := by cases took <;> exact id
  spent := by
    intro spent
    cases took with
    | buffered item rest present => simp [spent.2] at present
    | fetched | told | parked | nothing => exact spent

theorem Sound.advances_leave [DecidableEq Taker] (sound : port.Sound) (taker : Taker) :
    Advances port (port.leave taker) none where
  sound := sound.leave taker
  holds := fun _ holds => .inl (holds.leave taker)
  asked := id
  spent := id

theorem Sound.advances_chanTakeFromBuffer (sound : port.Sound)
    (took : port.chanTakeFromBuffer = some (item, next)) : Advances port next (some item) where
  sound := sound.chanTakeFromBuffer took
  holds := by
    intro other holds
    rcases holds.chanTakeFromBuffer took with same | kept
    · exact .inr (congrArg some same.symm)
    · exact .inl kept
  asked := by
    unfold Port.chanTakeFromBuffer at took
    split at took <;> cases took
    exact id
  spent := by
    intro spent
    simp [Port.chanTakeFromBuffer, spent.2] at took

def givenBack : Option (Item × Bool) → Option Item
  | some (item, false) => some item
  | _ => none

theorem Sound.advances_drainCbQueue (sound : port.Sound)
    (drained : port.drainCbQueue = some (next, outcome)) :
    Advances port next (givenBack outcome) where
  sound := sound.drainCbQueue drained
  holds := by
    intro item holds
    rcases holds.drainCbQueue drained with kept | failed
    · exact .inl kept
    · exact .inr (by rw [failed]; rfl)
  asked := by
    intro asked
    cases drainCbQueue_drained drained with
    | put item rest after ok first tried => cases tried <;> exact asked
    | fire => exact asked
    | close => simp [gocCloseInternal_closeGuard]
  spent := by
    intro spent
    cases drainCbQueue_drained drained with
    | put item rest after ok first tried =>
      cases tried with
      | refused => exact spent
      | given taker takers opened | stored opened | parked opened => simp [spent.1] at opened
    | fire => exact spent
    | close => exact Spent.gocCloseInternal spent

def putIsNext (port : Port Item Taker) : Bool :=
  match port.callbacks with
  | .put _ :: _ => true
  | _ => false

/-- The next put is not stored past one that waits. -/
def InTurn (port : Port Item Taker) : Prop :=
  port.putIsNext = true → port.queue.closed = false → port.queue.takers = [] →
    port.queue.stored.length < port.queue.size → port.queue.putters = []

instance [DecidableEq Item] [DecidableEq Taker] (port : Port Item Taker) :
    Decidable port.InTurn :=
  inferInstanceAs (Decidable (_ → _))

/-- The actions by which operations move the queue under a channel. -/
def Plain (action : Handoff.Action) : Prop :=
  action ≠ .store true ∧ action ≠ .wait false

structure Fifo (port : Port Item Taker) : Prop where
  ordered : port.queue.Ordered
  bounded : port.queue.stored.length ≤ port.queue.size
  distinct : (port.queue.effects ++ port.untried).Nodup
  delivered : port.delivered = port.queue.taken

theorem gocChanMake_fifo (bufSize : Nat) : (gocChanMake bufSize : Port Item Taker).Fifo := by
  constructor
  · constructor <;> simp [gocChanMake, Handoff.empty]
  · simp [gocChanMake, Handoff.empty]
  · simp [gocChanMake, Handoff.empty, untried]
  · rfl

/-- A take is a step of the bounded queue that every channel is. -/
theorem Took.step (took : Took port taker next) :
    ∃ action, port.queue.Step action next.queue ∧ Plain action ∧ action ≠ .store false := by
  have unchanged : port.queue.Step .leave port.queue := .leave _ _ _ (.refl _) (.refl _) id
  cases took with
  | buffered item rest stored => exact ⟨_, .take item rest stored, by simp [Plain], by simp⟩
  | fetched item rest drained waiting =>
    exact ⟨_, .fetch item rest _ rest drained waiting (.refl _) (.refl _), by simp [Plain], by simp⟩
  | told | nothing => exact ⟨_, unchanged, by simp [Plain], by simp⟩
  | parked drained noPutters opened =>
    have step : port.queue.Step (.wait true) _ := .wait true [taker] [] (fun _ => opened)
      (by simp) (fun _ => ⟨drained, noPutters⟩) (by simp) (by simp) (by simp)
    exact ⟨.wait true, by simpa using step, by simp [Plain], by simp⟩

/-- So is a callback. -/
theorem drainCbQueue_step (bounded : port.queue.stored.length ≤ port.queue.size)
    (distinct : (port.queue.effects ++ port.untried).Nodup) (inTurn : port.InTurn)
    (drained : port.drainCbQueue = some (next, outcome)) :
    ∃ action, port.queue.Step action next.queue ∧ Plain action ∧
      (action = .store false → port.queue.stored.length < port.queue.size →
        port.queue.putters = []) := by
  have unchanged : port.queue.Step .leave port.queue := .leave _ _ _ (.refl _) (.refl _) id
  cases drainCbQueue_drained drained with
  | put item rest after ok first tried =>
    have fresh : item ∉ port.queue.effects := by
      intro member
      exact List.disjoint_of_nodup_append distinct member (mem_untried.mpr (by simp [first]))
    cases tried with
    | refused => exact ⟨_, unchanged, by simp [Plain], by simp⟩
    | given taker takers opened waiting =>
      exact ⟨_, .give item taker takers takers _ opened waiting (.refl _) (.refl _) fresh,
        by simp [Plain], by simp⟩
    | stored opened alone room =>
      exact ⟨_, .store false item opened room (fun _ => alone) fresh, by simp [Plain],
        fun _ => inTurn (by simp [putIsNext, first]) opened alone⟩
    | parked opened alone full =>
      have exact : port.queue.stored.length = port.queue.size := by
        simp only at full
        omega
      have step : port.queue.Step (.wait true) _ := .wait true [] [item] (fun _ => opened)
        (by simp) (by simp) (fun _ => ⟨exact, alone⟩) (by simp) (by simpa using fresh)
      exact ⟨.wait true, by simpa using step, by simp [Plain], by simp⟩
  | fire => exact ⟨_, unchanged, by simp [Plain], by simp⟩
  | close rest first =>
    refine ⟨.leave, ?_, by simp [Plain], by simp⟩
    unfold gocCloseInternal
    split
    · exact unchanged
    · exact .leave [] [] true (List.nil_sublist _) (List.nil_sublist _) fun _ => rfl

/-- Trying puts one after the other keeps the order in which they were made. -/
theorem drainCbQueue_submitted (opened : port.queue.closed = false)
    (drained : port.drainCbQueue = some (next, outcome)) :
    next.queue.effects ++ next.untried = port.queue.effects ++ port.untried := by
  cases drainCbQueue_drained drained with
  | put item rest after ok first tried =>
    cases tried with
    | refused closed => simp [opened] at closed
    | given | stored | parked => simp [untried, first]
  | fire item ok rest first => simp [untried, first]
  | close rest first =>
    unfold gocCloseInternal
    split <;> simp [untried, first, List.filterMap_map]

theorem Fifo.drainCbQueue (fifo : port.Fifo) (opened : port.queue.closed = false)
    (inTurn : port.InTurn) (drained : port.drainCbQueue = some (next, outcome)) : next.Fifo := by
  obtain ⟨ordered, bounded, distinct, delivered⟩ := fifo
  obtain ⟨action, step, plain, last⟩ := drainCbQueue_step bounded distinct inTurn drained
  refine ⟨step.ordered ordered plain.1 plain.2 last, ?_, ?_, ?_⟩
  · cases drainCbQueue_drained drained with
    | put item rest after ok first tried =>
      cases tried with
      | stored opened alone room =>
        simp only [List.length_append, List.length_singleton]
        exact room
      | refused | given | parked => exact bounded
    | fire => exact bounded
    | close => unfold gocCloseInternal; split <;> exact bounded
  · rw [drainCbQueue_submitted opened drained]
    exact distinct
  · cases drainCbQueue_drained drained with
    | put item rest after ok first tried => cases tried <;> simp [delivered]
    | fire => exact delivered
    | close => unfold gocCloseInternal; split <;> exact delivered

theorem Took.frame (took : Took port taker next) :
    next.queue.effects = port.queue.effects ∧ next.untried = port.untried ∧
      next.closeGuard = port.closeGuard := by
  cases took with
  | buffered | told | parked | nothing => exact ⟨rfl, rfl, rfl⟩
  | fetched => simp [untried]

theorem Fifo.took (fifo : port.Fifo) (took : Took port taker next) : next.Fifo := by
  obtain ⟨ordered, bounded, distinct, delivered⟩ := fifo
  obtain ⟨action, step, plain, other⟩ := took.step
  obtain ⟨sameEffects, sameUntried, -⟩ := took.frame
  refine ⟨step.ordered ordered plain.1 plain.2 fun same => absurd same other, ?_, ?_, ?_⟩
  · cases took with
    | buffered item rest present =>
      simp only [present, List.length_cons] at bounded
      exact Nat.le_of_succ_le bounded
    | fetched | told | parked | nothing => exact bounded
  · rw [sameEffects, sameUntried]
    exact distinct
  · cases took with
    | buffered | fetched => simp [delivered]
    | told | parked | nothing => exact delivered

@[simp] theorem untried_gocPutCb (port : Port Item Taker) (item : Item) :
    (port.gocPutCb item).untried = port.untried ++ [item] := by
  simp [untried, gocPutCb]

theorem Fifo.gocPutCb (fifo : port.Fifo) (fresh : item ∉ port.queue.effects ++ port.untried) :
    (port.gocPutCb item).Fifo := by
  obtain ⟨ordered, bounded, distinct, delivered⟩ := fifo
  refine ⟨ordered, bounded, ?_, delivered⟩
  rw [untried_gocPutCb, ← List.append_assoc]
  refine distinct.append (List.nodup_singleton item) fun other member last => ?_
  rw [List.mem_singleton.mp last] at member
  exact fresh member

theorem Fifo.leave [DecidableEq Taker] (fifo : port.Fifo) (taker : Taker) :
    (port.leave taker).Fifo := by
  obtain ⟨ordered, bounded, distinct, delivered⟩ := fifo
  refine ⟨?_, bounded, distinct, delivered⟩
  have step : port.queue.Step .leave (port.leave taker).queue :=
    .leave _ _ _ List.erase_sublist (.refl _) id
  exact step.ordered ordered (by simp) (by simp) (by simp)

/-- While the channel is open and its puts come in turn, what was taken, is
stored and waits are the puts that took effect, in their order. -/
theorem Fifo.whole [DecidableEq Item] (fifo : port.Fifo) (sound : port.Sound)
    (opened : port.queue.closed = false) (held : ∀ item ∈ port.queue.effects, port.Holds item) :
    port.delivered ++ port.queue.stored ++ port.queue.putters = port.queue.effects := by
  have distinct := (List.nodup_append.mp fifo.distinct).1
  rw [fifo.delivered, Handoff.sublist_eq_filter fifo.ordered.order distinct, List.filter_eq_self]
  intro item member
  have untried : .put item ∉ port.callbacks := by
    intro queued
    exact List.disjoint_of_nodup_append fifo.distinct member (mem_untried.mpr queued)
  have unfailed := sound.unfailed opened item
  have held := held item member
  simp only [Holds, fifo.delivered, untried, unfailed, or_false] at held
  simpa using held

end Port

end Libgoc.Io
