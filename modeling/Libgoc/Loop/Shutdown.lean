import Mathlib.Tactic.Common
import Libgoc.Loop.Queue

namespace Libgoc.Loop

open Libgoc.Data Libgoc.Semantics Function

/-! # The queue at shutdown -/

def Thread.post : Thread → Option Post
  | .linking post _ _ | .counting post | .waking post | .raising post | .sending post => some post
  | _ => none

def Thread.locked : Thread → Bool
  | .checking _ _ | .unlocking _ _ => true
  | .linking post _ _ | .counting post | .waking post | .raising post | .sending post =>
    post.submission.isSome
  | _ => false

/-- The place of the entry that the thread is going to report as accepted. -/
def Thread.promised : Thread → Option Nat
  | .unlocking _ accepted => accepted
  | .linking post _ _ | .counting post | .waking post | .raising post | .sending post =>
    if post.submission.isSome then some post.place else none
  | _ => none

def LoopPc.inShutdown : LoopPc → Bool
  | .draining .onShutdownSignal _ | .popped .onShutdownSignal _ => true
  | .drained .onShutdownSignal | .waking .onShutdownSignal | .sending .onShutdownSignal => true
  | _ => false

def LoopPc.left : LoopPc → Bool
  | .clearing | .closingWakeup | .closingShutdown | .exited => true
  | _ => false

/-- What the source leaves open: `on_shutdown_signal` finds no more entries than it
drains, all of them linked, and the loop thread leaves its loop only after it. -/
def OrderlyShutdown (state : State) (label : Label) : Prop :=
  label = .loop → (state.loop = .signalled →
      state.pushed.length ≤ state.popped.length + cbDrainBudget ∧
        state.queue.reaches (state.pushed.length - state.popped.length) state.queue.tail = true) ∧
    (state.loop = .returned → state.loopState = .shuttingDown → state.signalRan = true)

instance (state : State) (label : Label) : Decidable (OrderlyShutdown state label) :=
  inferInstanceAs (Decidable (_ → _))

/-- The entries that are accepted have places below a limit that the drain gets to. -/
def Draining (state : State) (budget : Nat) : Prop :=
  ∃ limit, (∀ place ∈ state.accepted, place < limit) ∧ limit ≤ state.popped.length + budget ∧
    state.queue.reaches (limit - state.popped.length) state.queue.tail = true

structure Kept (state : State) : Prop where
  placed : ∀ place ∈ state.accepted, place < state.pushed.length
  promised : ∀ thread place, (state.threads thread).promised = some place →
    place < state.pushed.length
  locked : ∀ thread, (state.threads thread).locked = true → state.submitLock = some thread
  refused : state.loopState ≠ .running → ∀ thread, (state.threads thread).promised = none
  begun : state.loop.inShutdown = true ∨ state.signalRan = true → state.loopState = .shuttingDown
  draining : ∀ budget, state.loop = .draining .onShutdownSignal budget ∨
    state.loop = .popped .onShutdownSignal budget → Draining state budget
  drained : state.signalRan = true ∨ state.loop = .drained .onShutdownSignal ∨
      state.loop = .waking .onShutdownSignal ∨ state.loop = .sending .onShutdownSignal →
    ∀ place ∈ state.accepted, place < state.popped.length
  ended : state.loop.left = true → state.signalRan = true

section

variable {state after : State} {label : Label} {thread : ThreadId} {next : Thread}

theorem locked_of_promised {stage : Thread} (some : stage.promised ≠ none) :
    stage.locked = true := by
  cases stage <;> simp_all [Thread.promised, Thread.locked, Option.isSome_iff_ne_none]

theorem Kept.unpromised (kept : Kept state) (free : state.submitLock = none) (thread : ThreadId) :
    (state.threads thread).promised = none := by
  by_contra some
  have owner := kept.locked thread (locked_of_promised some)
  rw [free] at owner
  cases owner

/-- A step of a thread: the loop thread stays where it is and loses no linked entry. -/
structure Elsewhere (state after : State) : Prop where
  accepted : after.accepted = state.accepted := by rfl
  popped : after.popped = state.popped := by rfl
  loopState : after.loopState = state.loopState := by rfl
  loop : after.loop = state.loop := by rfl
  signalRan : after.signalRan = state.signalRan := by rfl
  reaches : ∀ count, state.queue.reaches count state.queue.tail = true →
    after.queue.reaches count after.queue.tail = true := by exact fun _ linked => linked

theorem Kept.move (kept : Kept state) (same : Elsewhere state after)
    (threads : after.threads = update state.threads thread next)
    (places : ∀ place, next.promised = some place →
      place < after.pushed.length ∧ state.loopState = .running)
    (holds : ∀ other, (after.threads other).locked = true → after.submitLock = some other)
    (pushed : state.pushed.length ≤ after.pushed.length) : Kept after where
  placed place member := by
    rw [same.accepted] at member
    exact Nat.lt_of_lt_of_le (kept.placed place member) pushed
  promised other place promise := by
    rw [threads] at promise
    by_cases own : other = thread
    · rw [own, update_self] at promise
      exact (places place promise).1
    · rw [update_of_ne own] at promise
      exact Nat.lt_of_lt_of_le (kept.promised other place promise) pushed
  locked := holds
  refused stopped other := by
    rw [same.loopState] at stopped
    rw [threads]
    by_cases own : other = thread
    · rw [own, update_self]
      cases promise : next.promised with
      | none => rfl
      | some place => exact absurd (places place promise).2 stopped
    · rw [update_of_ne own]
      exact kept.refused stopped other
  begun := by
    rw [same.loop, same.signalRan, same.loopState]
    exact kept.begun
  draining budget := by
    rw [same.loop]
    intro here
    obtain ⟨limit, below, within, linked⟩ := kept.draining budget here
    exact ⟨limit, same.accepted ▸ below, same.popped ▸ within, same.popped ▸ same.reaches _ linked⟩
  drained := by
    rw [same.loop, same.signalRan, same.accepted, same.popped]
    exact kept.drained
  ended := by
    rw [same.loop, same.signalRan]
    exact kept.ended

theorem Kept.holds (kept : Kept state) (threads : after.threads = update state.threads thread next)
    (locked : next.locked = true → (state.threads thread).locked = true)
    (submitLock : after.submitLock = state.submitLock) (other : ThreadId)
    (isLocked : (after.threads other).locked = true) : after.submitLock = some other := by
  rw [submitLock]
  rw [threads] at isLocked
  apply kept.locked other
  by_cases same : other = thread
  · rw [same, update_self] at isLocked
    rw [same]
    exact locked isLocked
  · rw [update_of_ne same] at isLocked
    exact isLocked

theorem Kept.promise (kept : Kept state) {place : Nat}
    (promise : (state.threads thread).promised = some place) :
    place < state.pushed.length ∧ state.loopState = .running := by
  refine ⟨kept.promised thread place promise, ?_⟩
  by_contra stopped
  rw [kept.refused stopped thread] at promise
  cases promise

theorem Kept.goes (kept : Kept state) (same : Elsewhere state after)
    (threads : after.threads = update state.threads thread next)
    (submitLock : after.submitLock = state.submitLock) (pushed : after.pushed = state.pushed)
    (locked : next.locked = true → (state.threads thread).locked = true)
    (promised : ∀ place, next.promised = some place →
      (state.threads thread).promised = some place) : Kept after := by
  apply kept.move same threads _ (kept.holds threads locked submitLock) (by rw [pushed])
  intro place promise
  rw [pushed]
  exact kept.promise (promised place promise)

def Post.Next (post : Post) (stage : Thread) : Prop :=
  stage.post = some post ∨ stage = post.done

theorem Post.Next.locked {post : Post} (isNext : post.Next stage) :
    stage.locked = post.submission.isSome := by
  obtain here | rfl := isNext
  · cases stage <;> simp_all [Thread.post, Thread.locked]
  · unfold Post.done
    split <;> simp_all [Thread.locked]

theorem Post.Next.promised {post : Post} (isNext : post.Next stage) :
    stage.promised = if post.submission.isSome then some post.place else none := by
  obtain here | rfl := isNext
  · cases stage <;> simp_all [Thread.post, Thread.promised]
  · unfold Post.done
    split <;> simp_all [Thread.promised]

theorem Kept.posts {post : Post} (kept : Kept state) (same : Elsewhere state after)
    (here : (state.threads thread).post = some post) (isNext : post.Next next)
    (threads : after.threads = update state.threads thread next)
    (submitLock : after.submitLock = state.submitLock) (pushed : after.pushed = state.pushed) :
    Kept after := by
  have before : post.Next (state.threads thread) := .inl here
  apply kept.goes same threads submitLock pushed
  · rw [isNext.locked, before.locked]
    exact id
  · intro place
    rw [isNext.promised, before.promised]
    exact id

section

variable (kept : Kept state)
include kept

theorem Kept.push (reachable : system.Reachable state)
    (locked : submission.isSome = true → (state.threads thread).locked = true)
    (running : submission.isSome = true → state.loopState = .running)
    (ran : state.push thread submission node entry = some after) : Kept after := by
  obtain ⟨chain, contents, uncounted, queued⟩ := exists_queued reachable
  obtain ⟨fresh, rfl⟩ := guarded ran
  refine kept.move { reaches := fun _ => queued.chained.exchange_reaches fresh _ } rfl ?_
    (kept.holds rfl locked rfl) (by simp)
  intro place promise
  obtain ⟨isSome, rfl⟩ := guarded promise
  exact ⟨by simp, running isSome⟩

theorem Kept.unlock (here : state.threads thread = .unlocking submission accepted) :
    Kept { state.setThread thread .idle with
      submitLock := none
      accepted := state.accepted ++ if submission.reports then accepted.toList else [] } := by
  have owned : state.submitLock = some thread := kept.locked thread (by rw [here]; rfl)
  have holds : ∀ other, (update state.threads thread .idle other).locked = true →
      (none : Option ThreadId) = some other := by
    intro other isLocked
    by_cases same : other = thread
    · rw [same, update_self] at isLocked
      cases isLocked
    · rw [update_of_ne same] at isLocked
      exact absurd (Option.some.inj ((kept.locked other isLocked).symm.trans owned)) same
  cases added : (if submission.reports then accepted.toList else []) with
  | nil =>
    rw [List.append_nil]
    exact kept.move {} rfl nofun holds (Nat.le_refl _)
  | cons place rest =>
    have member : accepted = some place ∧ rest = [] := by
      split at added
      · cases accepted with
        | none => cases added
        | some one =>
          cases added
          exact ⟨rfl, rfl⟩
      · cases added
    obtain ⟨inside, running⟩ := kept.promise (show (state.threads thread).promised = some place by
      rw [here]
      exact member.1)
    -- Nothing is accepted any more once the drain of the signal has begun.
    have early : ¬ (state.loop.inShutdown = true ∨ state.signalRan = true) := by
      intro late
      rw [kept.begun late] at running
      cases running
    rw [member.2]
    constructor
    · intro one among
      obtain old | new := List.mem_append.mp among
      · exact kept.placed one old
      · rw [List.mem_singleton.mp new]
        exact inside
    · intro other one promise
      by_cases same : other = thread
      · dsimp only [State.setThread] at promise
        rw [same, update_self] at promise
        cases promise
      · dsimp only [State.setThread] at promise
        rw [update_of_ne same] at promise
        exact kept.promised other one promise
    · exact holds
    · intro stopped
      exact absurd running stopped
    · intro late
      exact absurd late early
    · intro budget draining
      refine absurd (.inl ?_) early
      obtain here | here := draining <;> exact here ▸ rfl
    · intro drained
      refine absurd ?_ early
      obtain ran | here | here | here := drained
      · exact .inr ran
      · exact .inl (here ▸ rfl)
      · exact .inl (here ▸ rfl)
      · exact .inl (here ▸ rfl)
    · exact kept.ended

theorem Kept.threadMoves (reachable : system.Reachable state)
    (ran : threadStep state thread node = some after) : Kept after := by
  unfold threadStep at ran
  split at ran
  case h_1 => cases ran
  case h_2 submission entry here =>
    obtain ⟨free, rfl⟩ := guarded ran
    refine kept.move {} rfl nofun ?_ (Nat.le_refl _)
    intro other isLocked
    by_cases same : other = thread
    · rw [same]
    · dsimp only [State.setThread] at isLocked
      rw [update_of_ne same] at isLocked
      have owner := kept.locked other isLocked
      rw [free] at owner
      cases owner
  case h_3 submission entry here =>
    split at ran
    case isTrue running =>
      exact kept.push reachable (fun _ => by rw [here]; rfl) (fun _ => running) ran
    case isFalse =>
      cases ran
      exact kept.goes {} rfl rfl rfl (fun _ => by rw [here]; rfl) nofun
  case h_4 post prev node here =>
    cases ran
    obtain ⟨chain, contents, uncounted, queued⟩ := exists_queued reachable
    exact kept.posts { reaches := fun _ => queued.chained.link_reaches ⟨thread, post, here⟩ }
      (by rw [here]; rfl) (.inl rfl) rfl rfl rfl
  case h_5 post here | h_6 post here =>
    cases ran
    refine kept.posts {} (by rw [here]; rfl) ?_ rfl rfl rfl
    split
    · exact .inl rfl
    · exact .inr rfl
  case h_7 post here =>
    cases ran
    refine kept.posts {} (by rw [here]; rfl) ?_ rfl rfl rfl
    split
    · exact .inr rfl
    · exact .inl rfl
  case h_8 post here =>
    cases ran
    exact kept.posts {} (by rw [here]; rfl) (.inr rfl) rfl rfl rfl
  case h_9 submission accepted here =>
    cases ran
    exact kept.unlock here

/-- A step of the loop thread: the other threads stay where they are. -/
structure Alone (state after : State) : Prop where
  threads : after.threads = state.threads := by rfl
  submitLock : after.submitLock = state.submitLock := by rfl
  accepted : after.accepted = state.accepted := by rfl
  pushed : after.pushed = state.pushed := by rfl
  loopState : after.loopState = state.loopState := by rfl

/-- What the threads rely on is not the loop thread's. -/
theorem Kept.alone (same : Alone state after)
    (begun : after.loop.inShutdown = true ∨ after.signalRan = true →
      state.loopState = .shuttingDown)
    (draining : ∀ budget, after.loop = .draining .onShutdownSignal budget ∨
      after.loop = .popped .onShutdownSignal budget → Draining after budget)
    (drained : after.signalRan = true ∨ after.loop = .drained .onShutdownSignal ∨
        after.loop = .waking .onShutdownSignal ∨ after.loop = .sending .onShutdownSignal →
      ∀ place ∈ state.accepted, place < after.popped.length)
    (ended : after.loop.left = true → after.signalRan = true) : Kept after where
  placed := by
    rw [same.accepted, same.pushed]
    exact kept.placed
  promised := by
    rw [same.threads, same.pushed]
    exact kept.promised
  locked := by
    rw [same.threads, same.submitLock]
    exact kept.locked
  refused := by
    rw [same.threads, same.loopState]
    exact kept.refused
  begun := same.loopState ▸ begun
  draining
  drained := same.accepted ▸ drained
  ended

theorem Kept.outside (same : Alone state after) (popped : state.popped.length ≤ after.popped.length)
    (outside : after.loop.inShutdown = false) (signalRan : after.signalRan = state.signalRan)
    (ended : after.loop.left = true → state.signalRan = true) : Kept after := by
  apply kept.alone same
  · intro late
    rw [outside, signalRan] at late
    exact kept.begun (.inr (late.resolve_left (by simp)))
  · intro budget here
    obtain here | here := here <;> rw [here] at outside <;> cases outside
  · intro late place member
    rw [signalRan] at late
    obtain ran | here | here | here := late
    · exact Nat.lt_of_lt_of_le (kept.drained (.inl ran) place member) popped
    all_goals
      rw [here] at outside
      cases outside
  · rw [signalRan]
    exact ended

theorem Kept.passes (same : Alone state after)
    (popped : after.popped = state.popped) (signalRan : after.signalRan = state.signalRan)
    (outside : after.loop.inShutdown = false) (stays : after.loop.left = false) : Kept after :=
  kept.outside same (by rw [popped]) outside signalRan (by simp [stays])

theorem Kept.goesOn (same : Alone state after)
    (popped : after.popped = state.popped) (signalRan : after.signalRan = state.signalRan)
    (inside : handler = .onShutdownSignal → state.loop.inShutdown = true ∧
      ∀ place ∈ state.accepted, place < state.popped.length)
    (place : after.loop = .drained handler ∨ after.loop = .waking handler ∨
      after.loop = .sending handler) : Kept after := by
  have stays : after.loop.left = false := by
    obtain here | here | here := place <;> rw [here] <;> rfl
  cases handler with
  | onWakeup =>
    refine kept.passes same popped signalRan ?_ stays
    obtain here | here | here := place <;> rw [here] <;> rfl
  | onShutdownSignal =>
    obtain ⟨within, done⟩ := inside rfl
    apply kept.alone same
    · exact fun _ => kept.begun (.inl within)
    · obtain here | here | here := place <;> simp [here]
    · exact fun _ => popped ▸ done
    · simp [stays]

end

theorem Draining.done (draining : Draining state budget)
    (ended : budget = 0 ∨ state.queue.pop = none) :
    ∀ place ∈ state.accepted, place < state.popped.length := by
  obtain ⟨limit, below, within, linked⟩ := draining
  have reached : limit ≤ state.popped.length := by
    obtain spent | stuck := ended
    · omega
    · by_contra beyond
      obtain ⟨count, more⟩ : ∃ count, limit - state.popped.length = count + 1 :=
        ⟨limit - state.popped.length - 1, by omega⟩
      rw [more] at linked
      exact LinkedQueue.pop_of_reaches linked stuck
  intro place member
  exact Nat.lt_of_lt_of_le (below place member) reached

theorem Draining.pop (draining : Draining state (budget + 1))
    (popping : state.queue.pop = some (after.queue, some entry))
    (popped : after.popped = state.popped ++ [entry]) (accepted : after.accepted = state.accepted) :
    Draining after budget := by
  obtain ⟨limit, below, within, linked⟩ := draining
  refine ⟨limit, accepted ▸ below, ?_, ?_⟩
  · rw [popped, List.length_append, List.length_singleton]
    omega
  · rw [popped, List.length_append, List.length_singleton]
    cases more : limit - state.popped.length with
    | zero =>
      have none : limit - (state.popped.length + 1) = 0 := by omega
      rw [none]
      rfl
    | succ count =>
      have fewer : limit - (state.popped.length + 1) = count := by omega
      rw [more] at linked
      rw [fewer]
      exact LinkedQueue.pop_reaches popping linked

section

variable (kept : Kept state)
include kept

theorem Kept.signalled (free : state.submitLock = none)
    (few : state.pushed.length ≤ state.popped.length + cbDrainBudget)
    (linked : state.queue.reaches (state.pushed.length - state.popped.length) state.queue.tail = true) :
    Kept { state with
      loop := .draining .onShutdownSignal cbDrainBudget, loopState := .shuttingDown } where
  placed := kept.placed
  promised := kept.promised
  locked := kept.locked
  refused _ := kept.unpromised free
  begun _ := rfl
  draining budget here := by
    obtain same | same := here
    · cases same
      exact ⟨state.pushed.length, kept.placed, few, linked⟩
    · cases same
  drained late := by
    obtain ran | here | here | here := late
    · exact kept.drained (.inl ran)
    · cases here
    · cases here
    · cases here
  ended isLeft := by
    cases isLeft

theorem Kept.callbackReturns (here : state.loop = .drained handler ∨ state.loop = .waking handler ∨
      state.loop = .sending handler) : Kept (state.callbackReturns handler) := by
  cases handler with
  | onWakeup => exact kept.passes {} rfl (by simp [State.callbackReturns]) rfl rfl
  | onShutdownSignal =>
    have inside : state.loop.inShutdown = true := by
      obtain same | same | same := here <;> rw [same] <;> rfl
    apply kept.alone {}
    · exact fun _ => kept.begun (.inl inside)
    · simp [State.callbackReturns]
    · exact fun _ => kept.drained (.inr here)
    · nofun

theorem Kept.drains (reachable : system.Reachable state)
    (here : state.loop = .draining .onShutdownSignal (budget + 1))
    (popping : state.queue.pop = some (queue, entry)) :
    Kept { state with
      queue, loop := .popped .onShutdownSignal budget
      popped := state.popped ++ entry.toList } := by
  have draining := kept.draining (budget + 1) (.inl here)
  obtain ⟨chain, contents, uncounted, queued⟩ := exists_queued reachable
  obtain ⟨first, _, _, _, rfl, _⟩ := queued.chained.pop popping
  apply kept.alone {}
  · exact fun _ => kept.begun (.inl (by rw [here]; rfl))
  · intro left same
    obtain same | same := same
    · cases same
    · cases same
      exact draining.pop popping rfl rfl
  · intro late place member
    obtain isRan | same | same | same := late
    · have before := kept.drained (.inl isRan) place member
      simp only [Option.toList_some, List.length_append, List.length_singleton]
      omega
    all_goals cases same
  · nofun

theorem Kept.counts (here : state.loop = .popped .onShutdownSignal budget) (depth : Nat) :
    Kept { state with loop := .draining .onShutdownSignal budget, depth } := by
  apply kept.alone {}
  · exact fun _ => kept.begun (.inl (by rw [here]; rfl))
  · intro left same
    obtain same | same := same
    · cases same
      obtain ⟨limit, below, within, linked⟩ := kept.draining budget (.inr here)
      exact ⟨limit, below, within, linked⟩
    · cases same
  · intro late
    obtain isRan | same | same | same := late
    · exact kept.drained (.inl isRan)
    all_goals cases same
  · nofun

theorem Kept.loopMoves (reachable : system.Reachable state)
    (permitted : OrderlyShutdown state .loop) (ran : loopStep state = some after) :
    Kept after := by
  obtain ⟨orderly, leaving⟩ := permitted rfl
  unfold loopStep at ran
  split at ran
  case h_1 => cases ran
  case h_2 here =>
    cases ran
    exact kept.passes {} rfl rfl rfl rfl
  case h_3 here =>
    obtain ⟨free, rfl⟩ := guarded ran
    exact kept.signalled free (orderly here).1 (orderly here).2
  case h_4 handler here =>
    cases ran
    refine kept.goesOn {} rfl rfl ?_ (.inl rfl)
    rintro rfl
    exact ⟨by rw [here]; rfl, (kept.draining 0 (.inl here)).done (.inl rfl)⟩
  case h_5 handler budget here =>
    split at ran
    case h_1 stuck =>
      cases ran
      refine kept.goesOn {} rfl rfl ?_ (.inl rfl)
      rintro rfl
      exact ⟨by rw [here]; rfl, (kept.draining (budget + 1) (.inl here)).done (.inr stuck)⟩
    case h_2 queue entry popping =>
      cases ran
      cases handler with
      | onWakeup => exact kept.outside {} (by simp) rfl rfl nofun
      | onShutdownSignal => exact kept.drains reachable here popping
  case h_6 handler budget here =>
    cases ran
    cases handler with
    | onWakeup => exact kept.passes {} rfl rfl rfl rfl
    | onShutdownSignal => exact kept.counts here _
  case h_7 handler here =>
    split at ran
    · cases ran
      refine kept.goesOn {} rfl rfl ?_ (.inr (.inl rfl))
      rintro rfl
      exact ⟨by rw [here]; rfl, kept.drained (.inr (.inl here))⟩
    · cases ran
      exact kept.callbackReturns (.inl here)
  case h_8 handler here =>
    split at ran
    · split at ran
      · cases ran
        exact kept.callbackReturns (.inr (.inl here))
      · cases ran
        refine kept.goesOn {} rfl rfl ?_ (.inr (.inr rfl))
        rintro rfl
        exact ⟨by rw [here]; rfl, kept.drained (.inr (.inr (.inl here)))⟩
    · cases ran
      exact kept.callbackReturns (.inr (.inl here))
  case h_9 handler here =>
    cases ran
    have returned := kept.callbackReturns (.inr (.inr here))
    exact ⟨returned.placed, returned.promised, returned.locked, returned.refused, returned.begun,
      returned.draining, returned.drained, returned.ended⟩
  case h_10 here =>
    cases ran
    by_cases shuttingDown : state.loopState = .shuttingDown
    · rw [if_pos shuttingDown]
      exact kept.outside {} (Nat.le_refl _) rfl rfl (fun _ => leaving here shuttingDown)
    · rw [if_neg shuttingDown]
      exact kept.passes {} rfl rfl rfl rfl
  case h_11 here | h_12 here | h_13 here =>
    cases ran
    exact kept.outside {} (Nat.le_refl _) rfl rfl (fun _ => kept.ended (by rw [here]; rfl))
  case h_14 => cases ran

/-- `loop_shutdown` changes the state when no thread holds the lock. -/
theorem Kept.shutdown (free : state.submitLock = none) :
    Kept { state with
      closer := .signalling
      loopState := if state.loopState = .running then .shuttingDown else state.loopState } := by
  refine ⟨kept.placed, kept.promised, kept.locked, ?_, ?_, kept.draining, kept.drained, kept.ended⟩
  · intro _
    exact kept.unpromised free
  · intro late
    have shuttingDown := kept.begun late
    dsimp only
    rw [if_neg (by simp [shuttingDown])]
    exact shuttingDown

theorem Kept.step (reachable : system.Reachable state)
    (permitted : OrderlyShutdown state label) (stepped : step state label = some after) :
    Kept after := by
  cases label with
  | post thread node entry =>
    simp only [Loop.step, postCallback] at stepped
    split at stepped
    · exact kept.push reachable (by simp) (by simp) stepped
    · cases stepped
  | submit thread submission entry =>
    obtain ⟨-, rfl⟩ := guarded stepped
    exact kept.goes {} rfl rfl rfl (fun locked => by cases locked) fun _ promise => by cases promise
  | thread thread node => exact kept.threadMoves reachable stepped
  | wakeup | shutdownSignal | uvRunReturns =>
    obtain ⟨-, rfl⟩ := guarded stepped
    exact kept.passes {} rfl rfl rfl rfl
  | loop => exact kept.loopMoves reachable permitted stepped
  | shutdown =>
    obtain ⟨free, rfl⟩ := guarded stepped
    exact kept.shutdown free.2
  | signal =>
    simp only [Loop.step, loopShutdownSignals] at stepped
    split at stepped
    · split at stepped <;> cases stepped <;>
        exact ⟨kept.placed, kept.promised, kept.locked, kept.refused, kept.begun, kept.draining,
          kept.drained, kept.ended⟩
    · cases stepped

end

theorem kept_of_reachable (reachable : system.ReachableWith OrderlyShutdown state) :
    Kept state ∧ system.Reachable state := by
  apply reachable.invariant
  · intro initial starts
    obtain ⟨sentinel, rfl⟩ := starts
    refine ⟨?_, ⟨_, ⟨sentinel, rfl⟩, .refl⟩⟩
    constructor <;> simp [start, Thread.promised, Thread.locked, LoopPc.inShutdown, LoopPc.left]
  · intro before label after holds permitted stepped
    exact ⟨holds.1.step holds.2 permitted stepped, holds.2.after_step stepped⟩

end

/-- When the loop thread has exited after an orderly shutdown, each entry that was
accepted is popped. -/
theorem accepted_processed {state : State}
    (reachable : system.ReachableWith OrderlyShutdown state) (exited : state.loop = .exited) :
    ∀ place ∈ state.accepted, ∃ posted, state.pushed[place]? = some posted ∧
      state.popped[place]? = some posted := by
  obtain ⟨kept, reached⟩ := kept_of_reachable reachable
  obtain ⟨chain, contents, uncounted, queued⟩ := exists_queued reached
  intro place member
  have ran : state.signalRan = true := kept.ended (by rw [exited]; rfl)
  have inside := kept.drained (.inl ran) place member
  refine ⟨state.popped[place], ?_, List.getElem?_eq_getElem inside⟩
  rw [queued.order, List.getElem?_append_left inside]
  exact List.getElem?_eq_getElem inside

/-- A thread submits an entry, in as many steps. -/
def submitting (steps : Nat) (node : Node) (entry : Nat) : List Label :=
  .submit 0 .postOnLoopChecked entry :: List.replicate steps (.thread 0 node)

def orderlyRun : List Label :=
  submitting 8 1 10 ++ submitting 5 2 20 ++ [.shutdown, .signal, .shutdownSignal] ++
    List.replicate 7 .loop ++ [.uvRunReturns] ++ List.replicate 4 .loop

theorem orderlyRun_processed : ∃ state : State, state.loop = .exited ∧ state.accepted = [0, 1] ∧
      ∀ place ∈ state.accepted, ∃ posted, state.pushed[place]? = some posted ∧
        state.popped[place]? = some posted := by
  have reachable : system.ReachableWith OrderlyShutdown _ :=
    .of_run system OrderlyShutdown orderlyRun ⟨0, rfl⟩ rfl
  exact ⟨_, rfl, rfl, accepted_processed reachable rfl⟩

/-- The second entry is accepted after `uv_run` has returned; the loop thread then
reads the state that `loop_shutdown` has set and leaves. -/
def overlookedRun : List Label :=
  submitting 8 1 10 ++ [.wakeup] ++ List.replicate 5 .loop ++ [.uvRunReturns] ++
    submitting 8 2 20 ++ [.shutdown] ++ List.replicate 4 .loop

theorem accepted_overlooked :
    ∃ state, system.Reachable state ∧ state.loop = .exited ∧ state.accepted = [0, 1] ∧
      state.pushed = [⟨0, 10⟩, ⟨0, 20⟩] ∧ state.popped = [⟨0, 10⟩] :=
  ⟨_, .of_run system overlookedRun ⟨0, rfl⟩ rfl, rfl, rfl, rfl, rfl⟩

end Libgoc.Loop
