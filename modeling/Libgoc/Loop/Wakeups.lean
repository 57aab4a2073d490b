import Mathlib.Data.Fintype.Card
import Mathlib.Tactic.Common
import Libgoc.Loop.Queue

namespace Libgoc.Loop

open Libgoc.Data Libgoc.Semantics Function

/-! # No wake-up of the loop thread is lost -/

def LoopPc.inWakeup : LoopPc → Bool
  | .entering => true
  | .draining .onWakeup _ => true
  | .popped .onWakeup _ => true
  | .drained .onWakeup => true
  | .waking .onWakeup => true
  | .sending .onWakeup => true
  | _ => false

def Thread.inWakeup : Thread → Bool
  | .waking _ | .raising _ | .sending _ => true
  | _ => false

def Thread.posting : Thread → Bool
  | .linking _ _ _ | .counting _ | .waking _ | .raising _ | .sending _ => true
  | _ => false

def NoShutdown (_ : State) (label : Label) : Prop :=
  label ≠ .shutdown

instance (state : State) (label : Label) : Decidable (NoShutdown state label) :=
  inferInstanceAs (Decidable (_ ≠ _))

/-- What `loop_shutdown` and the end of the loop would change. -/
structure Calm (state : State) : Prop where
  running : state.loopState = .running
  unsignalled : state.shutdownAsync = false
  present : state.wakeup = true
  opened : state.wakeupClosing = false
  absent : state.closer = .absent
  normal : state.loop = .polling ∨ state.loop = .returned ∨ state.loop.inWakeup = true

/-- The signal is sent and not yet answered, or somebody is about to send it. -/
inductive Underway (state : State) : Prop where
  | sent (async : state.async = true)
  | entering (loop : state.loop = .entering)
  | resending (loop : state.loop = .sending .onWakeup)
  | sending (thread : ThreadId) (post : Post) (here : state.threads thread = .sending post)

def Raised (state : State) : Prop :=
  state.pending = true → Underway state

def Alert (state : State) : Prop :=
  state.async = true ∨ state.loop.inWakeup = true ∨ ∃ thread, (state.threads thread).inWakeup = true

/-- The state is alert when more entries are counted than popped. -/
def Vigilant (state : State) : Prop :=
  ∀ uncounted : List ThreadId, uncounted.Nodup →
    (∀ thread, thread ∈ uncounted ↔ (state.threads thread).uncounted = true) →
    state.popped.length + uncounted.length < state.pushed.length + state.loop.ahead → Alert state

section

variable {state after : State} {label : Label} {chain : List Node} {contents : List Posted}
  {uncounted : List ThreadId} {thread : ThreadId} {next : Thread}

theorem Raised.move (raised : Raised state)
    (threads : after.threads = update state.threads thread next)
    (silent : ∀ post, state.threads thread ≠ .sending post) (async : after.async = state.async)
    (loop : after.loop = state.loop) (pending : after.pending = state.pending) : Raised after := by
  intro isPending
  rw [pending] at isPending
  cases raised isPending with
  | sent sent => exact .sent (async ▸ sent)
  | entering entering => exact .entering (loop ▸ entering)
  | resending resending => exact .resending (loop ▸ resending)
  | sending other post here =>
    have apart : other ≠ thread := by
      intro same
      exact silent post (same ▸ here)
    exact .sending other post (by rw [threads, update_of_ne apart]; exact here)

theorem Underway.alert (underway : Underway state) : Alert state := by
  cases underway with
  | sent sent => exact .inl sent
  | entering entering => exact .inr (.inl (by rw [entering]; rfl))
  | resending resending => exact .inr (.inl (by rw [resending]; rfl))
  | sending thread post here => exact .inr (.inr ⟨thread, by rw [here]; rfl⟩)

theorem Alert.move (alert : Alert state)
    (threads : after.threads = update state.threads thread next)
    (outside : (state.threads thread).inWakeup = false) (async : after.async = state.async)
    (loop : after.loop = state.loop) : Alert after := by
  obtain sent | busy | ⟨other, waking⟩ := alert
  · exact .inl (async ▸ sent)
  · exact .inr (.inl (loop ▸ busy))
  · have apart : other ≠ thread := by
      intro same
      simp [same, outside] at waking
    exact .inr (.inr ⟨other, by rw [threads, update_of_ne apart]; exact waking⟩)

theorem Alert.of_thread (threads : after.threads = update state.threads thread next)
    (waking : next.inWakeup = true) : Alert after := by
  refine .inr (.inr ⟨thread, ?_⟩)
  rw [threads, update_self]
  exact waking

/-- The same entries are counted before and after a step. -/
theorem Vigilant.transfer (vigilant : Vigilant state)
    (same : ∀ thread, (after.threads thread).uncounted = (state.threads thread).uncounted)
    (pushed : after.pushed = state.pushed) (popped : after.popped = state.popped)
    (ahead : after.loop.ahead = state.loop.ahead) (keeps : Alert state → Alert after) :
    Vigilant after := by
  intro uncounted distinct members short
  apply keeps
  apply vigilant uncounted distinct
  · intro thread
    rw [members, same]
  · rw [← pushed, ← popped, ← ahead]
    exact short

theorem uncounted_update (threads : after.threads = update state.threads thread next)
    (same : next.uncounted = (state.threads thread).uncounted) (other : ThreadId) :
    (after.threads other).uncounted = (state.threads other).uncounted := by
  rw [threads]
  by_cases here : other = thread
  · rw [here, update_self]
    exact same
  · rw [update_of_ne here]

theorem Vigilant.push (vigilant : Vigilant state)
    (outside : (state.threads thread).uncounted = false)
    (threads : after.threads = update state.threads thread next)
    (inside : next.uncounted = true) (pushed : after.pushed = state.pushed ++ [entry])
    (popped : after.popped = state.popped) (loop : after.loop = state.loop)
    (keeps : Alert state → Alert after) : Vigilant after := by
  intro uncounted distinct members short
  have member : thread ∈ uncounted := by
    rw [members, threads, update_self]
    exact inside
  have length := List.length_erase_of_mem member
  have positive := List.length_pos_of_mem member
  apply keeps
  apply vigilant (uncounted.erase thread) (distinct.erase _)
  · intro other
    by_cases same : other = thread
    · rw [same, outside]
      simp [distinct.not_mem_erase]
    · rw [List.mem_erase_of_ne same, members, threads, update_of_ne same]
  · rw [pushed, popped, loop, List.length_append, List.length_singleton] at short
    omega

/-- The thread whose count makes an entry visible finds the depth zero. -/
theorem Vigilant.count (vigilant : Vigilant state) (queued : Queued state chain contents uncounted)
    (here : state.threads thread = .counting post)
    (threads : after.threads = update state.threads thread
      (if state.depth = 0 then .waking post else post.done))
    (pushed : after.pushed = state.pushed) (popped : after.popped = state.popped)
    (async : after.async = state.async) (loop : after.loop = state.loop) : Vigilant after := by
  intro counting distinct members short
  have outside : (if state.depth = 0 then .waking post else post.done : Thread).uncounted = false := by
    split
    · rfl
    · exact post.done_uncounted
  have absent : thread ∉ counting := by
    rw [members, threads, update_self, outside]
    simp
  have listed : ∀ other, other ∈ thread :: counting ↔ (state.threads other).uncounted = true := by
    intro other
    by_cases same : other = thread
    · simp [same, here, Thread.uncounted]
    · rw [List.mem_cons, members, threads, update_of_ne same]
      simp [same]
  have grown : (thread :: counting).Nodup := List.nodup_cons.mpr ⟨absent, distinct⟩
  rw [pushed, popped, loop] at short
  by_cases earlier : state.popped.length + (thread :: counting).length <
      state.pushed.length + state.loop.ahead
  · exact (vigilant _ grown listed earlier).move threads (by rw [here]; rfl) async loop
  · have length : uncounted.length = (thread :: counting).length := by
      apply List.Perm.length_eq
      apply (List.perm_ext_iff_of_nodup queued.distinct grown).mpr
      intro other
      rw [queued.members, listed]
    have counted := queued.counted
    have bounded := queued.bounded
    rw [List.length_cons] at earlier length
    have empty : state.depth = 0 := by omega
    rw [if_pos empty] at threads
    exact .of_thread threads rfl

structure Watched (state : State) : Prop where
  calm : Calm state
  raised : Raised state
  vigilant : Vigilant state

section

variable (calm : Calm state) (loopState : after.loopState = state.loopState)
  (shutdownAsync : after.shutdownAsync = state.shutdownAsync) (wakeup : after.wakeup = state.wakeup)
  (wakeupClosing : after.wakeupClosing = state.wakeupClosing) (closer : after.closer = state.closer)
include calm loopState shutdownAsync wakeup wakeupClosing closer

theorem Calm.inside
    (normal : after.loop = .polling ∨ after.loop = .returned ∨ after.loop.inWakeup = true) :
    Calm after where
  running := loopState ▸ calm.running
  unsignalled := shutdownAsync ▸ calm.unsignalled
  present := wakeup ▸ calm.present
  opened := wakeupClosing ▸ calm.opened
  absent := closer ▸ calm.absent
  normal := normal

theorem Calm.move (loop : after.loop = state.loop) : Calm after :=
  calm.inside loopState shutdownAsync wakeup wakeupClosing closer (loop ▸ calm.normal)

end

theorem Watched.move (watched : Watched state) (calm : Calm after)
    (threads : after.threads = update state.threads thread next)
    (same : next.uncounted = (state.threads thread).uncounted)
    (outside : (state.threads thread).inWakeup = false) (async : after.async = state.async)
    (loop : after.loop = state.loop) (pending : after.pending = state.pending)
    (pushed : after.pushed = state.pushed) (popped : after.popped = state.popped) :
    Watched after := by
  refine ⟨calm, watched.raised.move threads ?_ async loop pending, ?_⟩
  · intro post sending
    rw [sending] at outside
    cases outside
  · apply watched.vigilant.transfer (uncounted_update threads same) pushed popped (by rw [loop])
    intro alert
    exact alert.move threads outside async loop

theorem Watched.push (watched : Watched state) (outside : (state.threads thread).posting = false)
    (ran : state.push thread submission node entry = some after) : Watched after := by
  have notCounting : (state.threads thread).uncounted = false := by
    cases here : state.threads thread <;> rw [here] at outside <;> first | rfl | cases outside
  have notWaking : (state.threads thread).inWakeup = false := by
    cases here : state.threads thread <;> rw [here] at outside <;> first | rfl | cases outside
  obtain ⟨-, rfl⟩ := guarded ran
  refine ⟨watched.calm.move rfl rfl rfl rfl rfl rfl, watched.raised.move rfl ?_ rfl rfl rfl, ?_⟩
  · intro post sending
    rw [sending] at notWaking
    cases notWaking
  · exact watched.vigilant.push notCounting rfl rfl rfl rfl rfl
      (fun alert => alert.move rfl notWaking rfl rfl)

theorem Watched.threadMoves (watched : Watched state)
    (queued : Queued state chain contents uncounted)
    (ran : threadStep state thread node = some after) : Watched after := by
  unfold threadStep at ran
  split at ran
  case h_1 => cases ran
  case h_2 submission entry here =>
    obtain ⟨-, rfl⟩ := guarded ran
    exact watched.move (watched.calm.move rfl rfl rfl rfl rfl rfl) rfl (by rw [here]; rfl)
      (by rw [here]; rfl) rfl rfl rfl rfl rfl
  case h_3 submission entry here =>
    split at ran
    · exact watched.push (by rw [here]; rfl) ran
    · cases ran
      exact watched.move (watched.calm.move rfl rfl rfl rfl rfl rfl) rfl (by rw [here]; rfl)
        (by rw [here]; rfl) rfl rfl rfl rfl rfl
  case h_4 post prev node here | h_9 submission accepted here =>
    cases ran
    exact watched.move (watched.calm.move rfl rfl rfl rfl rfl rfl) rfl (by rw [here]; rfl)
      (by rw [here]; rfl) rfl rfl rfl rfl rfl
  case h_5 post here =>
    cases ran
    refine ⟨watched.calm.move rfl rfl rfl rfl rfl rfl, watched.raised.move rfl ?_ rfl rfl rfl,
      watched.vigilant.count queued here rfl rfl rfl rfl rfl⟩
    intro post' sending
    simp [here] at sending
  case h_6 post here =>
    cases ran
    rw [if_pos ⟨watched.calm.present, watched.calm.opened⟩]
    refine ⟨watched.calm.move rfl rfl rfl rfl rfl rfl, watched.raised.move rfl ?_ rfl rfl rfl, ?_⟩
    · intro post' sending
      simp [here] at sending
    · exact watched.vigilant.transfer (uncounted_update rfl (by rw [here]; rfl)) rfl rfl rfl
        (fun _ => .of_thread rfl rfl)
  case h_7 post here =>
    cases ran
    have calm := watched.calm
    by_cases isPending : state.pending = true
    · rw [if_pos isPending]
      -- Another thread or the loop thread has the signal in hand.
      have raised : Raised { state.setThread thread post.done with pending := true } := by
        refine watched.raised.move rfl ?_ rfl rfl isPending.symm
        intro post' sending
        simp [here] at sending
      refine ⟨calm.move rfl rfl rfl rfl rfl rfl, raised, ?_⟩
      refine watched.vigilant.transfer (uncounted_update rfl ?_) rfl rfl rfl
        (fun _ => (raised rfl).alert)
      rw [here, post.done_uncounted]
      rfl
    · rw [if_neg isPending]
      refine ⟨calm.move rfl rfl rfl rfl rfl rfl, ?_, ?_⟩
      · intro _
        exact .sending thread post (update_self _ _ _)
      · exact watched.vigilant.transfer (uncounted_update rfl (by rw [here]; rfl)) rfl rfl rfl
          (fun _ => .of_thread rfl rfl)
  case h_8 post here =>
    cases ran
    have sent : (state.async || !state.wakeupClosing) = true := by
      simp [watched.calm.opened]
    refine ⟨watched.calm.move rfl rfl rfl rfl rfl rfl, fun _ => .sent sent, ?_⟩
    refine watched.vigilant.transfer (uncounted_update rfl ?_) rfl rfl rfl (fun _ => .inl sent)
    rw [here, post.done_uncounted]
    rfl

/-- The callback that the loop thread is in. -/
def LoopPc.handler : LoopPc → Option Handler
  | .draining handler _ | .popped handler _ | .drained handler => some handler
  | .waking handler | .sending handler => some handler
  | _ => none

theorem Calm.handler (calm : Calm state) {handler : Handler}
    (here : state.loop.handler = some handler) : handler = .onWakeup := by
  cases handler with
  | onWakeup => rfl
  | onShutdownSignal =>
    obtain polling | returned | inside := calm.normal
    · rw [polling] at here
      cases here
    · rw [returned] at here
      cases here
    · cases loop : state.loop <;> rw [loop] at here inside <;> cases here <;> cases inside

theorem Raised.loop (raised : Raised state) (entered : state.loop ≠ .entering)
    (resent : state.loop ≠ .sending .onWakeup) (threads : after.threads = state.threads)
    (async : after.async = state.async) (pending : after.pending = state.pending) :
    Raised after := by
  intro isPending
  rw [pending] at isPending
  cases raised isPending with
  | sent sent => exact .sent (async ▸ sent)
  | entering entering => exact absurd entering entered
  | resending resending => exact absurd resending resent
  | sending other post here => exact .sending other post (threads ▸ here)

theorem Alert.loop (alert : Alert state) (outside : state.loop.inWakeup = false)
    (threads : after.threads = state.threads) (async : after.async = state.async) : Alert after := by
  obtain sent | inside | waking := alert
  · exact .inl (async ▸ sent)
  · simp [outside] at inside
  · exact .inr (.inr (threads ▸ waking))

theorem Watched.inside (calm : Calm after) (raised : Raised after)
    (inside : after.loop.inWakeup = true) : Watched after :=
  ⟨calm, raised, fun _ _ _ _ => .inr (.inl inside)⟩

/-- Depth zero says that all counted entries are popped. -/
theorem Queued.not_short (queued : Queued state chain contents uncounted)
    (empty : state.depth = 0) (behind : state.loop.ahead = 0) :
    ¬ state.popped.length + uncounted.length < state.pushed.length + state.loop.ahead := by
  intro short
  have counted := queued.counted
  have card := queued.chained.length_le_card
  have order := congrArg List.length queued.order
  rw [Fintype.card_fin] at card
  rw [List.length_append] at order
  omega

theorem Queued.length_eq (queued : Queued state chain contents uncounted)
    {others : List ThreadId} (distinct : others.Nodup)
    (members : ∀ thread, thread ∈ others ↔ (state.threads thread).uncounted = true) :
    others.length = uncounted.length := by
  apply List.Perm.length_eq
  apply (List.perm_ext_iff_of_nodup distinct queued.distinct).mpr
  intro other
  rw [queued.members, members]

theorem Watched.loopMoves (watched : Watched state)
    (queued : Queued state chain contents uncounted) (ran : loopStep state = some after) :
    Watched after := by
  obtain ⟨calm, raised, vigilant⟩ := watched
  have normal := calm.normal
  unfold loopStep at ran
  split at ran
  case h_1 => cases ran
  case h_2 here =>
    cases ran
    refine .inside (calm.inside rfl rfl rfl rfl rfl (.inr (.inr rfl))) ?_ rfl
    intro isPending
    cases isPending
  case h_3 here | h_11 here | h_12 here | h_13 here => simp [here, LoopPc.inWakeup] at normal
  case h_4 handler here | h_6 handler budget here =>
    cases ran
    cases calm.handler (by rw [here]; rfl)
    exact .inside (calm.inside rfl rfl rfl rfl rfl (.inr (.inr rfl)))
      (raised.loop (by simp [here]) (by simp [here]) rfl rfl rfl) rfl
  case h_5 handler budget here =>
    cases calm.handler (by rw [here]; rfl)
    split at ran <;> cases ran <;>
      exact .inside (calm.inside rfl rfl rfl rfl rfl (.inr (.inr rfl)))
        (raised.loop (by simp [here]) (by simp [here]) rfl rfl rfl) rfl
  case h_7 handler here =>
    cases calm.handler (by rw [here]; rfl)
    split at ran
    case isTrue =>
      cases ran
      exact .inside (calm.inside rfl rfl rfl rfl rfl (.inr (.inr rfl)))
        (raised.loop (by simp [here]) (by simp [here]) rfl rfl rfl) rfl
    case isFalse zero =>
      cases ran
      refine ⟨calm.inside rfl rfl rfl rfl rfl (.inl rfl),
        raised.loop (by simp [here]) (by simp [here]) rfl rfl rfl, ?_⟩
      intro others distinct members short
      have behind : state.loop.ahead = 0 := by
        rw [here]
        rfl
      have none := queued.not_short (by omega) behind
      rw [queued.length_eq distinct members] at short
      rw [behind] at none
      exact absurd short none
  case h_8 handler here =>
    cases calm.handler (by rw [here]; rfl)
    rw [if_pos ⟨calm.present, calm.opened⟩] at ran
    split at ran
    case isTrue isPending =>
      cases ran
      have raised' : Raised (state.callbackReturns .onWakeup) :=
        raised.loop (by simp [here]) (by simp [here]) rfl rfl rfl
      exact ⟨calm.inside rfl rfl rfl rfl rfl (.inl rfl), raised',
        fun _ _ _ _ => (raised' isPending).alert⟩
    case isFalse =>
      cases ran
      exact .inside (calm.inside rfl rfl rfl rfl rfl (.inr (.inr rfl)))
        (fun _ => .resending rfl) rfl
  case h_9 handler here =>
    cases ran
    exact ⟨calm.inside rfl rfl rfl rfl rfl (.inl rfl), fun _ => .sent rfl, fun _ _ _ _ => .inl rfl⟩
  case h_10 here =>
    cases ran
    have running : state.loopState ≠ .shuttingDown := by simp [calm.running]
    rw [if_neg running]
    refine ⟨calm.inside rfl rfl rfl rfl rfl (.inl rfl),
      raised.loop (by simp [here]) (by simp [here]) rfl rfl rfl, ?_⟩
    exact vigilant.transfer (fun _ => rfl) rfl rfl (by rw [here]; rfl)
      (fun alert => alert.loop (by rw [here]; rfl) rfl rfl)
  case h_14 => cases ran

theorem Watched.step (watched : Watched state) (queued : Queued state chain contents uncounted)
    (permitted : NoShutdown state label) (stepped : step state label = some after) :
    Watched after := by
  cases label with
  | post thread node entry =>
    simp only [Loop.step, postCallback] at stepped
    split at stepped
    case isTrue here => exact watched.push (by rw [here]; rfl) stepped
    case isFalse => cases stepped
  | submit thread submission entry =>
    obtain ⟨here, rfl⟩ := guarded stepped
    exact watched.move (watched.calm.move rfl rfl rfl rfl rfl rfl) rfl (by rw [here]; rfl)
      (by rw [here]; rfl) rfl rfl rfl rfl rfl
  | thread thread node => exact watched.threadMoves queued stepped
  | wakeup =>
    obtain ⟨-, rfl⟩ := guarded stepped
    exact .inside (watched.calm.inside rfl rfl rfl rfl rfl (.inr (.inr rfl)))
      (fun _ => .entering rfl) rfl
  | shutdownSignal =>
    simp only [Loop.step, onShutdownSignal] at stepped
    simp [watched.calm.unsignalled] at stepped
  | uvRunReturns =>
    obtain ⟨here, rfl⟩ := guarded stepped
    refine ⟨watched.calm.inside rfl rfl rfl rfl rfl (.inr (.inl rfl)),
      watched.raised.loop (by simp [here]) (by simp [here]) rfl rfl rfl, ?_⟩
    exact watched.vigilant.transfer (fun _ => rfl) rfl rfl (by rw [here]; rfl)
      (fun alert => alert.loop (by rw [here]; rfl) rfl rfl)
  | loop => exact watched.loopMoves queued stepped
  | shutdown => exact absurd rfl permitted
  | signal =>
    simp only [Loop.step, loopShutdownSignals] at stepped
    simp [watched.calm.absent] at stepped

theorem watched_of_reachable (reachable : system.ReachableWith NoShutdown state) :
    Watched state ∧ system.Reachable state := by
  apply reachable.invariant
  · intro initial starts
    obtain ⟨sentinel, rfl⟩ := starts
    refine ⟨⟨⟨rfl, rfl, rfl, rfl, rfl, .inl rfl⟩, ?_, ?_⟩, ⟨_, ⟨sentinel, rfl⟩, .refl⟩⟩
    · intro isPending
      cases isPending
    · intro others _ _ short
      simp [start, LoopPc.ahead] at short
  · intro before label after holds permitted stepped
    obtain ⟨watched, reached⟩ := holds
    obtain ⟨chain, contents, uncounted, queued⟩ := exists_queued reached
    exact ⟨watched.step queued permitted stepped, reached.after_step stepped⟩

def LoopOnly (_ : State) (label : Label) : Prop :=
  label = .wakeup ∨ label = .loop

def Quiet (state : State) : Prop :=
  ∀ thread, (state.threads thread).posting = false

def State.left (state : State) : Nat :=
  state.pushed.length - state.popped.length

/-- How far the loop thread is from rest with an empty queue, -/
def LoopPc.restRank : LoopPc → Nat
  | .returned => 1
  | .drained _ => 2
  | .draining _ _ => 3
  | .entering => 4
  | .popped _ _ => 5
  | .sending _ => 15
  | .waking _ => 16
  | _ => 0

/-- and from its next pop otherwise. -/
def LoopPc.popRank : LoopPc → Nat
  | .draining _ budget => if budget = 0 then 8 else 2
  | .entering => 3
  | .polling => 4
  | .returned => 5
  | .sending _ => 5
  | .waking _ => 6
  | .drained _ => 7
  | .popped _ _ => 9
  | _ => 0

def LoopPc.rank (left : Nat) (async : Bool) (loop : LoopPc) : Nat :=
  if left = 0 then loop.restRank + (if async then 10 else 0) else loop.popRank

def State.distance (state : State) : Nat :=
  40 * state.left + state.loop.rank state.left state.async

/-- A step of the loop thread towards rest. -/
def Nears (state : State) : Prop :=
  ∃ label after, LoopOnly state label ∧ step state label = some after ∧
    after.distance < state.distance ∧ after.pushed = state.pushed ∧
    after.threads = state.threads

theorem Quiet.all_counted (quiet : Quiet state) (queued : Queued state chain contents uncounted) :
    uncounted = [] := by
  apply List.eq_nil_iff_forall_not_mem.mpr
  intro thread member
  have inside := (queued.members thread).mp member
  have outside := quiet thread
  cases here : state.threads thread <;> simp [here, Thread.uncounted, Thread.posting] at inside outside

theorem Queued.left_eq (queued : Queued state chain contents uncounted) :
    state.left = contents.length := by
  unfold State.left
  rw [queued.order, List.length_append]
  omega

/-- The depth of a quiet queue is the number of entries left. -/
theorem Quiet.depth_eq (quiet : Quiet state) (queued : Queued state chain contents uncounted)
    (behind : state.loop.ahead = 0) : state.depth = state.left := by
  have counted := queued.counted
  have bounded := queued.bounded
  have card := queued.chained.length_le_card
  have left := queued.left_eq
  have order := congrArg List.length queued.order
  rw [Fintype.card_fin] at card
  rw [quiet.all_counted queued, behind, List.length_nil] at counted
  rw [List.length_append] at order
  omega

theorem Quiet.pop_some (quiet : Quiet state) (queued : Queued state chain contents uncounted)
    (some : state.left ≠ 0) : ∃ queue entry, state.queue.pop = .some (queue, .some entry) := by
  cases popping : state.queue.pop with
  | none =>
    obtain empty | ⟨node, thread, post, here⟩ := queued.chained.pop_eq_none popping
    · rw [queued.left_eq, empty] at some
      exact absurd rfl some
    · have outside := quiet thread
      rw [here] at outside
      cases outside
  | some result =>
    obtain ⟨queue, entry⟩ := result
    obtain ⟨first, _, _, _, rfl, _⟩ := queued.chained.pop popping
    exact ⟨queue, first, rfl⟩

theorem rank_lt {before later : LoopPc}
    (rest : later.restRank < before.restRank) (pop : later.popRank < before.popRank) :
    later.rank left async < before.rank left async := by
  unfold LoopPc.rank
  split <;> omega

theorem rank_le (left : Nat) (async : Bool) (loop : LoopPc) : loop.rank left async ≤ 26 := by
  unfold LoopPc.rank
  split
  · cases loop <;> simp only [LoopPc.restRank] <;> split <;> omega
  · cases loop <;> simp only [LoopPc.popRank] <;> first | omega | (split <;> omega)

theorem loopStep_popped
    (loop : state.loop = .popped handler budget) :
    loopStep state = some { state with
      loop := .draining handler budget
      depth := (state.depth + (2 ^ 64 - 1)) % 2 ^ 64 } := by
  unfold loopStep
  split <;> simp_all only [reduceCtorEq, LoopPc.popped.injEq]

theorem Nears.loop (ran : loopStep state = some after) (popped : after.popped = state.popped)
    (closer : after.loop.rank state.left after.async < state.loop.rank state.left state.async)
    (pushed : after.pushed = state.pushed) (threads : after.threads = state.threads) :
    Nears state := by
  refine ⟨.loop, after, .inr rfl, ran, ?_, pushed, threads⟩
  have left : after.left = state.left := by
    unfold State.left
    rw [pushed, popped]
  unfold State.distance
  rw [left]
  omega

theorem Quiet.nears_draining (quiet : Quiet state) (queued : Queued state chain contents uncounted)
    (loop : state.loop = .draining handler budget) : Nears state := by
  cases budget with
  | zero =>
    refine .loop (show loopStep state = some { state with loop := .drained handler } from ?_)
      rfl ?_ rfl rfl
    · simp only [loopStep, loop]
    · rw [loop]
      exact rank_lt (by simp [LoopPc.restRank]) (by simp [LoopPc.popRank])
  | succ budget =>
    by_cases empty : state.left = 0
    · have nothing : state.queue.pop = none := by
        cases popping : state.queue.pop with
        | none => rfl
        | some result =>
          obtain ⟨first, _, _, same, _⟩ := queued.chained.pop popping
          simp [queued.left_eq, same] at empty
      refine .loop (show loopStep state = some { state with loop := .drained handler } from ?_)
        rfl ?_ rfl rfl
      · simp only [loopStep, loop, nothing]
      · rw [loop]
        simp [LoopPc.rank, empty, LoopPc.restRank]
    · obtain ⟨queue, entry, popping⟩ := quiet.pop_some queued empty
      refine ⟨.loop, { state with
        queue, loop := .popped handler budget, popped := state.popped ++ [entry] }, .inr rfl, ?_,
        ?_, rfl, rfl⟩
      · simp only [step, loopStep, loop, popping, Option.toList_some]
      · have fewer : (state.pushed.length - (state.popped ++ [entry]).length) + 1 = state.left := by
          unfold State.left at empty ⊢
          rw [List.length_append, List.length_singleton]
          omega
        have bound := rank_le (state.pushed.length - (state.popped ++ [entry]).length) state.async
          (.popped handler budget)
        simp only [State.distance, State.left] at fewer ⊢
        omega

/-- Each step that does not pop goes down in rank. -/
theorem Watched.nears (watched : Watched state) (queued : Queued state chain contents uncounted)
    (quiet : Quiet state) (restless : ¬ (state.loop = .polling ∧ state.async = false)) :
    Nears state := by
  obtain ⟨calm, raised, vigilant⟩ := watched
  obtain polling | returned | inside := calm.normal
  · have sent : state.async = true := by
      cases async : state.async with
      | true => rfl
      | false => exact absurd ⟨polling, async⟩ restless
    refine ⟨.wakeup, { state with loop := .entering, async := false }, .inl rfl, ?_, ?_, rfl, rfl⟩
    · simp [Loop.step, onWakeup, polling, sent]
    · have lower : LoopPc.entering.rank state.left false < LoopPc.polling.rank state.left true := by
        simp only [LoopPc.rank, LoopPc.restRank, LoopPc.popRank, ↓reduceIte]
        split <;> simp
      unfold State.distance
      rw [polling, sent]
      exact Nat.add_lt_add_left lower _
  · refine .loop (show loopStep state = some { state with loop := .polling } from ?_) rfl ?_ rfl rfl
    · simp [loopStep, returned, calm.running]
    · rw [returned]
      exact rank_lt (by simp [LoopPc.restRank]) (by simp [LoopPc.popRank])
  · cases loop : state.loop with
    | entering =>
      refine .loop (show loopStep state = some { state with
          loop := .draining .onWakeup cbDrainBudget, pending := false } from ?_) rfl ?_ rfl rfl
      · simp only [loopStep, loop]
      · rw [loop]
        exact rank_lt (by simp [LoopPc.restRank]) (by simp [LoopPc.popRank, cbDrainBudget])
    | draining handler budget => exact quiet.nears_draining queued loop
    | popped handler budget =>
      refine .loop (loopStep_popped loop) rfl ?_ rfl rfl
      rw [loop]
      apply rank_lt
      · simp [LoopPc.restRank]
      · simp only [LoopPc.popRank]
        split <;> omega
    | drained handler =>
      have depth := quiet.depth_eq queued (by rw [loop]; rfl)
      by_cases empty : state.left = 0
      · refine .loop (show loopStep state = some (state.callbackReturns handler) from ?_)
          rfl ?_ rfl rfl
        · simp [loopStep, loop, depth, empty]
        · rw [loop]
          exact rank_lt (by simp [LoopPc.restRank, State.callbackReturns])
            (by simp [LoopPc.popRank, State.callbackReturns])
      · refine .loop (show loopStep state = some { state with loop := .waking handler } from ?_)
          rfl ?_ rfl rfl
        · simp [loopStep, loop, depth]
          omega
        · rw [loop]
          simp [LoopPc.rank, LoopPc.popRank, empty]
    | waking handler =>
      by_cases isPending : state.pending = true
      · refine .loop (show loopStep state = some (state.callbackReturns handler) from ?_)
          rfl ?_ rfl rfl
        · simp [loopStep, loop, calm.present, calm.opened, isPending]
        · rw [loop]
          exact rank_lt (by simp [LoopPc.restRank, State.callbackReturns])
            (by simp [LoopPc.popRank, State.callbackReturns])
      · refine .loop (show loopStep state = some { state with
            loop := .sending handler, pending := true } from ?_) rfl ?_ rfl rfl
        · simp [loopStep, loop, calm.present, calm.opened, isPending]
        · rw [loop]
          exact rank_lt (by simp [LoopPc.restRank]) (by simp [LoopPc.popRank])
    | sending handler =>
      refine .loop (show loopStep state = some { state.callbackReturns handler with
          async := true } from ?_) rfl ?_ rfl rfl
      · simp only [loopStep, loop]
      · simp only [LoopPc.rank, loop, LoopPc.restRank, LoopPc.popRank, State.callbackReturns]
        split
        · simp only [↓reduceIte]
          omega
        · omega
    | polling | signalled | returned | clearing | closingWakeup | closingShutdown | exited =>
      simp [loop, LoopPc.inWakeup] at inside

theorem Watched.alert_of_quiet (watched : Watched state)
    (queued : Queued state chain contents uncounted) (quiet : Quiet state)
    (filled : contents ≠ []) : state.async = true ∨ state.loop.inWakeup = true := by
  have short : state.popped.length + uncounted.length < state.pushed.length + state.loop.ahead := by
    have order := congrArg List.length queued.order
    have positive := List.length_pos_of_ne_nil filled
    rw [List.length_append] at order
    rw [quiet.all_counted queued, List.length_nil]
    omega
  obtain sent | inside | ⟨thread, waking⟩ :=
    watched.vigilant uncounted queued.distinct queued.members short
  · exact .inl sent
  · exact .inr inside
  · have outside := quiet thread
    cases here : state.threads thread <;>
      simp [here, Thread.inWakeup, Thread.posting] at waking outside

theorem Watched.drains {start : State} (distance : Nat) (measured : state.distance = distance)
    (watched : Watched state) (reachable : system.Reachable state) (quiet : Quiet state)
    (reached : system.Reaches LoopOnly start state) :
    ∃ after, system.Reaches LoopOnly start after ∧ after.popped = state.pushed := by
  induction distance using Nat.strong_induction_on generalizing state with
  | _ distance ih =>
    obtain ⟨chain, contents, uncounted, queued⟩ := exists_queued reachable
    by_cases rest : state.loop = .polling ∧ state.async = false
    · refine ⟨state, reached, ?_⟩
      have empty : contents = [] := by
        by_contra filled
        obtain sent | inside := watched.alert_of_quiet queued quiet filled
        · simp [rest.2] at sent
        · rw [rest.1] at inside
          cases inside
      rw [queued.order, empty, List.append_nil]
    · obtain ⟨label, after, only, stepped, closer, pushed, threads⟩ :=
        watched.nears queued quiet rest
      have permitted : NoShutdown state label := by
        obtain rfl | rfl := only <;> simp [NoShutdown]
      obtain ⟨final, reaches, popped⟩ := ih after.distance (measured ▸ closer) rfl
        (watched.step queued permitted stepped) (reachable.after_step stepped)
        (by unfold Quiet; rw [threads]; exact quiet) (reached.step only stepped)
      exact ⟨final, reaches, popped.trans pushed⟩

/-- A wake-up is pending or a drain is in progress as long as a linked entry is in the
queue and no thread is posting; entries are popped once, in the order in which their
thread posted them, and the loop thread gets to all of them. -/
theorem callbacks_delivered (reachable : system.ReachableWith NoShutdown state) :
    (∀ node, state.queue.Linked node → Quiet state →
      state.async = true ∨ state.loop.inWakeup = true) ∧
    state.popped <+: state.pushed ∧
    (∀ thread, (state.popped.filter fun posted => posted.thread = thread) <+:
      state.pushed.filter fun posted => posted.thread = thread) ∧
    (Quiet state → ∃ after, system.Reaches LoopOnly state after ∧ after.popped = state.pushed) := by
  obtain ⟨watched, reached⟩ := watched_of_reachable reachable
  obtain ⟨chain, contents, uncounted, queued⟩ := exists_queued reached
  have first : state.popped <+: state.pushed := ⟨contents, queued.order.symm⟩
  refine ⟨?_, first, fun thread => first.filter _, ?_⟩
  · intro node linked quiet
    exact watched.alert_of_quiet queued quiet (queued.chained.nonempty_of_linked linked)
  · intro quiet
    exact watched.drains _ rfl reached quiet .refl

end

def postingRun : List Label :=
  [.post 0 1 10, .post 1 2 20, .thread 1 0, .thread 1 0, .thread 0 0, .thread 0 0,
    .thread 1 0, .thread 1 0, .thread 1 0]

theorem postingRun_delivered : ∃ state, system.ReachableWith NoShutdown state ∧ state.async = true ∧
      state.pushed = [⟨0, 10⟩, ⟨1, 20⟩] ∧ state.popped <+: state.pushed := by
  have reachable : system.ReachableWith NoShutdown _ :=
    .of_run system NoShutdown postingRun ⟨0, rfl⟩ rfl
  exact ⟨_, reachable, rfl, rfl, (callbacks_delivered reachable).2.1⟩

end Libgoc.Loop
