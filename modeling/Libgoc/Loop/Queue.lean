import Libgoc.Loop.Model

namespace Libgoc.Loop

open Libgoc.Data Libgoc.Semantics Function

/-! # What is in the queue -/

/-- The thread has exchanged the head and not yet counted its entry. -/
def Thread.uncounted : Thread → Bool
  | .linking _ _ _ | .counting _ => true
  | _ => false

/-- The loop thread has popped an entry that it has not yet counted. -/
def LoopPc.ahead : LoopPc → Nat
  | .popped _ _ => 1
  | _ => 0

def Gap (state : State) (prev node : Node) : Prop :=
  ∃ thread post, state.threads thread = .linking post prev node

structure Queued (state : State) (chain : List Node) (contents : List Posted)
    (uncounted : List ThreadId) : Prop where
  chained : state.queue.Chained (Gap state) chain contents
  order : state.pushed = state.popped ++ contents
  owner : ∀ thread other post post' prev node node',
    state.threads thread = .linking post prev node →
      state.threads other = .linking post' prev node' → thread = other
  distinct : uncounted.Nodup
  members : ∀ thread, thread ∈ uncounted ↔ (state.threads thread).uncounted = true
  counted : (state.depth + state.popped.length + uncounted.length) % 2 ^ 64 =
    (state.pushed.length + state.loop.ahead) % 2 ^ 64
  bounded : state.depth < 2 ^ 64

inductive QueueStep (state after : State) : Prop where
  | push {submission : Option Submission} (thread : ThreadId) (node : Node) (entry : Nat)
      (fresh : state.queue.live node = false) (outside : (state.threads thread).uncounted = false)
      (queue : after.queue = state.queue.exchange node ⟨thread, entry⟩)
      (pushed : after.pushed = state.pushed ++ [⟨thread, entry⟩])
      (threads : after.threads = update state.threads thread
        (.linking ⟨submission, state.pushed.length⟩ state.queue.head node))
      (popped : after.popped = state.popped) (depth : after.depth = state.depth)
      (loop : after.loop = state.loop)
  | link (thread : ThreadId) (post : Post) (prev node : Node)
      (here : state.threads thread = .linking post prev node)
      (queue : after.queue = state.queue.link prev node)
      (threads : after.threads = update state.threads thread (.counting post))
      (pushed : after.pushed = state.pushed) (popped : after.popped = state.popped)
      (depth : after.depth = state.depth) (loop : after.loop = state.loop)
  | count (thread : ThreadId) (post : Post) (next : Thread)
      (here : state.threads thread = .counting post) (outside : next.uncounted = false)
      (threads : after.threads = update state.threads thread next)
      (depth : after.depth = (state.depth + 1) % 2 ^ 64)
      (queue : after.queue = state.queue) (pushed : after.pushed = state.pushed)
      (popped : after.popped = state.popped) (loop : after.loop = state.loop)
  | move (thread : ThreadId) (next : Thread)
      (outside : (state.threads thread).uncounted = false) (outside' : next.uncounted = false)
      (threads : after.threads = update state.threads thread next)
      (queue : after.queue = state.queue) (pushed : after.pushed = state.pushed)
      (popped : after.popped = state.popped) (depth : after.depth = state.depth)
      (loop : after.loop = state.loop)
  | pop (entry : Option Posted) (popping : state.queue.pop = some (after.queue, entry))
      (popped : after.popped = state.popped ++ entry.toList)
      (behind : state.loop.ahead = 0) (ahead : after.loop.ahead = 1)
      (threads : after.threads = state.threads) (pushed : after.pushed = state.pushed)
      (depth : after.depth = state.depth)
  | uncount (ahead : state.loop.ahead = 1) (behind : after.loop.ahead = 0)
      (depth : after.depth = (state.depth + (2 ^ 64 - 1)) % 2 ^ 64)
      (queue : after.queue = state.queue) (threads : after.threads = state.threads)
      (pushed : after.pushed = state.pushed) (popped : after.popped = state.popped)
  | stay (loop : after.loop.ahead = state.loop.ahead)
      (queue : after.queue = state.queue) (threads : after.threads = state.threads)
      (pushed : after.pushed = state.pushed) (popped : after.popped = state.popped)
      (depth : after.depth = state.depth)

section

variable {state after : State} {label : Label} {chain : List Node} {contents : List Posted}
  {uncounted : List ThreadId}

theorem Post.done_uncounted (post : Post) : post.done.uncounted = false := by
  unfold Post.done
  split <;> rfl

theorem push_queueStep (outside : (state.threads thread).uncounted = false)
    (ran : state.push thread submission node entry = some after) : QueueStep state after := by
  obtain ⟨fresh, rfl⟩ := guarded ran
  exact .push thread node entry fresh outside rfl rfl rfl rfl rfl rfl

theorem threadStep_queueStep
    (ran : threadStep state thread node = some after) : QueueStep state after := by
  unfold threadStep at ran
  split at ran
  case h_1 => cases ran
  case h_2 submission entry here =>
    obtain ⟨-, rfl⟩ := guarded ran
    exact .move thread _ (by rw [here]; rfl) rfl rfl rfl rfl rfl rfl rfl
  case h_3 submission entry here =>
    split at ran
    · exact push_queueStep (by rw [here]; rfl) ran
    · cases ran
      exact .move thread _ (by rw [here]; rfl) rfl rfl rfl rfl rfl rfl rfl
  case h_4 post prev node here =>
    cases ran
    exact .link thread post prev node here rfl rfl rfl rfl rfl rfl
  case h_5 post here =>
    cases ran
    refine .count thread post _ here ?_ rfl rfl rfl rfl rfl rfl
    split
    · rfl
    · exact post.done_uncounted
  case h_6 post here =>
    cases ran
    refine .move thread _ (by rw [here]; rfl) ?_ rfl rfl rfl rfl rfl rfl
    split
    · rfl
    · exact post.done_uncounted
  case h_7 post here =>
    cases ran
    refine .move thread _ (by rw [here]; rfl) ?_ rfl rfl rfl rfl rfl rfl
    split
    · exact post.done_uncounted
    · rfl
  case h_8 post here =>
    cases ran
    exact .move thread _ (by rw [here]; rfl) post.done_uncounted rfl rfl rfl rfl rfl rfl
  case h_9 submission accepted here =>
    cases ran
    exact .move thread _ (by rw [here]; rfl) rfl rfl rfl rfl rfl rfl rfl

theorem loopStep_queueStep (ran : loopStep state = some after) : QueueStep state after := by
  unfold loopStep at ran
  split at ran
  case h_1 => cases ran
  case h_2 here | h_4 handler here | h_9 handler here | h_11 here | h_12 here | h_13 here =>
    cases ran
    exact .stay (by rw [here]; rfl) rfl rfl rfl rfl rfl
  case h_3 here =>
    obtain ⟨-, rfl⟩ := guarded ran
    exact .stay (by rw [here]; rfl) rfl rfl rfl rfl rfl
  case h_5 handler budget here =>
    split at ran
    case h_1 =>
      cases ran
      exact .stay (by rw [here]; rfl) rfl rfl rfl rfl rfl
    case h_2 queue entry popping =>
      cases ran
      exact .pop entry popping rfl (by rw [here]; rfl) rfl rfl rfl rfl
  case h_6 handler budget here =>
    cases ran
    exact .uncount (by rw [here]; rfl) rfl rfl rfl rfl rfl rfl
  case h_7 handler here =>
    split at ran <;> cases ran <;> exact .stay (by rw [here]; rfl) rfl rfl rfl rfl rfl
  case h_8 handler here =>
    split at ran
    · split at ran <;> cases ran <;> exact .stay (by rw [here]; rfl) rfl rfl rfl rfl rfl
    · cases ran
      exact .stay (by rw [here]; rfl) rfl rfl rfl rfl rfl
  case h_10 here =>
    cases ran
    refine .stay ?_ rfl rfl rfl rfl rfl
    rw [here]
    dsimp only
    split <;> rfl
  case h_14 => cases ran

theorem step_queueStep (stepped : step state label = some after) : QueueStep state after := by
  cases label with
  | post thread node entry =>
    simp only [step, postCallback] at stepped
    split at stepped
    case isTrue here => exact push_queueStep (by rw [here]; rfl) stepped
    case isFalse => cases stepped
  | submit thread submission entry =>
    obtain ⟨here, rfl⟩ := guarded stepped
    exact .move thread _ (by rw [here]; rfl) rfl rfl rfl rfl rfl rfl rfl
  | thread thread node => exact threadStep_queueStep stepped
  | wakeup | shutdownSignal =>
    obtain ⟨here, rfl⟩ := guarded stepped
    exact .stay (by rw [here.1]; rfl) rfl rfl rfl rfl rfl
  | uvRunReturns =>
    obtain ⟨here, rfl⟩ := guarded stepped
    exact .stay (by rw [here]; rfl) rfl rfl rfl rfl rfl
  | loop => exact loopStep_queueStep stepped
  | shutdown =>
    obtain ⟨-, rfl⟩ := guarded stepped
    exact .stay rfl rfl rfl rfl rfl rfl
  | signal =>
    simp only [step, loopShutdownSignals] at stepped
    split at stepped
    · split at stepped <;> cases stepped <;> exact .stay rfl rfl rfl rfl rfl rfl
    · cases stepped

/-- A thread that goes from one stage to another, neither of them linking, leaves the
gaps. -/
theorem gap_update (threads : after.threads = update state.threads thread next)
    (before : ∀ post prev node, state.threads thread ≠ .linking post prev node)
    (later : ∀ post prev node, next ≠ .linking post prev node) (prev node : Node) :
    Gap state prev node ↔ Gap after prev node := by
  unfold Gap
  rw [threads]
  constructor
  · intro isGap
    obtain ⟨other, post, here⟩ := isGap
    have apart : other ≠ thread := by
      intro same
      exact before _ _ _ (same ▸ here)
    exact ⟨other, post, by rw [update_of_ne apart]; exact here⟩
  · intro isGap
    obtain ⟨other, post, here⟩ := isGap
    by_cases same : other = thread
    · rw [same, update_self] at here
      exact absurd here (later _ _ _)
    · rw [update_of_ne same] at here
      exact ⟨other, post, here⟩

theorem not_linking {thread : Thread} (outside : thread.uncounted = false) (post : Post)
    (prev node : Node) : thread ≠ .linking post prev node := by
  intro same
  rw [same] at outside
  cases outside

/-- The threads of `uncounted` after one of them goes on. -/
theorem members_update {counting : List ThreadId}
    (threads : after.threads = update state.threads thread next)
    (members : ∀ other, other ∈ uncounted ↔ (state.threads other).uncounted = true)
    (others : ∀ other, other ≠ thread → (other ∈ counting ↔ other ∈ uncounted))
    (here : thread ∈ counting ↔ next.uncounted = true) (other : ThreadId) :
    other ∈ counting ↔ (after.threads other).uncounted = true := by
  rw [threads]
  by_cases same : other = thread
  · rw [same, update_self]
    exact here
  · rw [update_of_ne same, others other same]
    exact members other

theorem owner_update (queued : Queued state chain contents uncounted)
    (threads : after.threads = update state.threads thread next)
    (single : ∀ other post prev node post' node', other ≠ thread →
      next = .linking post prev node → state.threads other ≠ .linking post' prev node') :
    ∀ one other post post' prev node node', after.threads one = .linking post prev node →
      after.threads other = .linking post' prev node' → one = other := by
  intro one other post post' prev node node' here there
  rw [threads] at here there
  by_cases atOne : one = thread
  · by_cases atOther : other = thread
    · rw [atOne, atOther]
    · rw [atOne, update_self] at here
      rw [update_of_ne atOther] at there
      exact absurd there (single other post prev node post' node' atOther here)
  · rw [update_of_ne atOne] at here
    by_cases atOther : other = thread
    · rw [atOther, update_self] at there
      exact absurd here (single one post' prev node' post node atOne there)
    · rw [update_of_ne atOther] at there
      exact queued.owner one other post post' prev node node' here there

/-- Nobody links behind the head. -/
theorem Queued.head_free (queued : Queued state chain contents uncounted) (node : Node) :
    ¬ Gap state state.queue.head node := by
  intro isGap
  obtain ⟨i, atHead, atNode⟩ := queued.chained.gaps _ _ isGap
  have place := queued.chained.index_unique atHead queued.chained.last
  have bound := (List.getElem?_eq_some_iff.mp atNode).1
  have length := queued.chained.length
  omega

theorem Queued.push {node : Node}
    (queued : Queued state chain contents uncounted) (fresh : state.queue.live node = false)
    (outside : (state.threads thread).uncounted = false)
    (queue : after.queue = state.queue.exchange node ⟨thread, entry⟩)
    (pushed : after.pushed = state.pushed ++ [⟨thread, entry⟩]) (threads : after.threads =
      update state.threads thread (.linking post state.queue.head node))
    (popped : after.popped = state.popped) (depth : after.depth = state.depth)
    (loop : after.loop = state.loop) :
    Queued after (chain ++ [node]) (contents ++ [⟨thread, entry⟩]) (thread :: uncounted) := by
  have absent : thread ∉ uncounted := by
    rw [queued.members, outside]
    simp
  constructor
  · rw [queue]
    apply (queued.chained.exchange fresh _).congr
    intro prev next
    unfold Gap
    rw [threads]
    constructor
    · intro isGap
      obtain ⟨other, post', here⟩ | ⟨rfl, rfl⟩ := isGap
      · have apart : other ≠ thread := by
          intro same
          exact not_linking outside _ _ _ (same ▸ here)
        exact ⟨other, post', by rw [update_of_ne apart]; exact here⟩
      · exact ⟨thread, post, update_self _ _ _⟩
    · intro isGap
      obtain ⟨other, post', here⟩ := isGap
      by_cases same : other = thread
      · rw [same, update_self] at here
        cases here
        exact .inr ⟨rfl, rfl⟩
      · rw [update_of_ne same] at here
        exact .inl ⟨other, post', here⟩
  · rw [pushed, popped, queued.order, List.append_assoc]
  · apply owner_update queued threads
    intro other post prev next post' node' _ linking there
    cases linking
    exact queued.head_free node' ⟨other, post', there⟩
  · exact List.nodup_cons.mpr ⟨absent, queued.distinct⟩
  · apply members_update threads queued.members
    · intro other apart
      simp [apart]
    · simp [Thread.uncounted]
  · have counted := queued.counted
    rw [pushed, popped, depth, loop]
    simp only [List.length_append, List.length_cons, List.length_nil]
    omega
  · exact depth ▸ queued.bounded

theorem Queued.link {prev node : Node} (queued : Queued state chain contents uncounted)
    (here : state.threads thread = .linking post prev node)
    (queue : after.queue = state.queue.link prev node)
    (threads : after.threads = update state.threads thread (.counting post))
    (pushed : after.pushed = state.pushed) (popped : after.popped = state.popped)
    (depth : after.depth = state.depth) (loop : after.loop = state.loop) :
    Queued after chain contents uncounted := by
  constructor
  · rw [queue]
    apply (queued.chained.link ⟨thread, post, here⟩).congr
    intro one next
    unfold Gap
    rw [threads]
    constructor
    · intro isGap
      obtain ⟨⟨other, post', there⟩, apart⟩ := isGap
      have different : other ≠ thread := by
        intro same
        rw [same, here] at there
        cases there
        exact apart rfl
      exact ⟨other, post', by rw [update_of_ne different]; exact there⟩
    · intro isGap
      obtain ⟨other, post', there⟩ := isGap
      by_cases same : other = thread
      · simp [same, update_self] at there
      · rw [update_of_ne same] at there
        refine ⟨⟨other, post', there⟩, ?_⟩
        intro equal
        exact same (queued.owner other thread post' post prev next node (equal ▸ there) here)
  · rw [pushed, popped]
    exact queued.order
  · apply owner_update queued threads
    intro other post prev node post' node' _ linking
    cases linking
  · exact queued.distinct
  · apply members_update threads queued.members
    · intro other _
      rfl
    · rw [queued.members, here]
      simp [Thread.uncounted]
  · rw [pushed, popped, depth, loop]
    exact queued.counted
  · exact depth ▸ queued.bounded

theorem Queued.goes {counting : List ThreadId} (queued : Queued state chain contents uncounted)
    (before : ∀ post prev node, state.threads thread ≠ .linking post prev node)
    (outside : next.uncounted = false) (threads : after.threads = update state.threads thread next)
    (queue : after.queue = state.queue) (pushed : after.pushed = state.pushed)
    (popped : after.popped = state.popped) (loop : after.loop = state.loop)
    (distinct : counting.Nodup)
    (others : ∀ other, other ≠ thread → (other ∈ counting ↔ other ∈ uncounted))
    (absent : thread ∉ counting) (depth : (after.depth + counting.length) % 2 ^ 64 =
      (state.depth + uncounted.length) % 2 ^ 64)
    (bounded : after.depth < 2 ^ 64) :
    Queued after chain contents counting := by
  constructor
  · rw [queue]
    exact queued.chained.congr (gap_update threads before (not_linking outside))
  · rw [pushed, popped]
    exact queued.order
  · apply owner_update queued threads
    intro other post prev node post' node' _ linking
    exact absurd linking (not_linking outside _ _ _)
  · exact distinct
  · apply members_update threads queued.members others
    rw [outside]
    simp [absent]
  · have counted := queued.counted
    rw [pushed, popped, loop]
    omega
  · exact bounded

/-- Threads, queue and depth stay, up to what the loop thread pops and counts. -/
theorem Queued.kept (queued : Queued state chain contents uncounted)
    (chained : after.queue.Chained (Gap state) chain' contents')
    (order : after.pushed = after.popped ++ contents') (threads : after.threads = state.threads)
    (counted : (after.depth + after.popped.length + uncounted.length) % 2 ^ 64 =
      (after.pushed.length + after.loop.ahead) % 2 ^ 64)
    (bounded : after.depth < 2 ^ 64) :
    Queued after chain' contents' uncounted := by
  have same : Gap state = Gap after := by
    unfold Gap
    rw [threads]
  constructor
  · exact same ▸ chained
  · exact order
  · rw [threads]
    exact queued.owner
  · exact queued.distinct
  · rw [threads]
    exact queued.members
  · exact counted
  · exact bounded

theorem Queued.step (queued : Queued state chain contents uncounted)
    (stepped : QueueStep state after) :
    ∃ chain contents uncounted, Queued after chain contents uncounted := by
  cases stepped with
  | push thread node entry fresh outside queue pushed threads popped depth loop =>
    exact ⟨_, _, _, queued.push fresh outside queue pushed threads popped depth loop⟩
  | link thread post prev node here queue threads pushed popped depth loop =>
    exact ⟨_, _, _, queued.link here queue threads pushed popped depth loop⟩
  | count thread post next here outside threads depth queue pushed popped loop =>
    have member : thread ∈ uncounted := by
      rw [queued.members, here]
      rfl
    have length := List.length_erase_of_mem member
    have positive := List.length_pos_of_mem member
    refine ⟨chain, contents, uncounted.erase thread, queued.goes ?_ outside threads queue pushed
      popped loop (queued.distinct.erase _) ?_ ?_ ?_ ?_⟩
    · intro post prev node linking
      simp [here] at linking
    · intro other apart
      exact List.mem_erase_of_ne apart
    · exact queued.distinct.not_mem_erase
    · omega
    · omega
  | move thread next outside outside' threads queue pushed popped depth loop =>
    refine ⟨chain, contents, uncounted, queued.goes (not_linking outside) outside' threads queue
      pushed popped loop queued.distinct (fun _ _ => Iff.rfl) ?_ (by rw [depth])
      (depth ▸ queued.bounded)⟩
    rw [queued.members, outside]
    simp
  | pop entry popping popped behind ahead threads pushed depth =>
    obtain ⟨first, chain', contents', rfl, rfl, chained⟩ := queued.chained.pop popping
    have order := queued.order
    have counted := queued.counted
    refine ⟨chain', contents', uncounted, queued.kept chained ?_ threads ?_ (depth ▸ queued.bounded)⟩
    · rw [pushed, popped, order]
      simp
    · rw [pushed, popped, depth, ahead]
      rw [behind] at counted
      simp only [Option.toList_some, List.length_append, List.length_singleton]
      omega
  | uncount ahead behind depth queue threads pushed popped =>
    have counted := queued.counted
    refine ⟨chain, contents, uncounted, queued.kept (queue ▸ queued.chained) ?_ threads ?_ ?_⟩
    · rw [pushed, popped]
      exact queued.order
    · rw [pushed, popped, behind]
      omega
    · omega
  | stay loop queue threads pushed popped depth =>
    refine ⟨chain, contents, uncounted, queued.kept (queue ▸ queued.chained) ?_ threads ?_
      (depth ▸ queued.bounded)⟩
    · rw [pushed, popped]
      exact queued.order
    · rw [pushed, popped, depth, loop]
      exact queued.counted

theorem start_queued (sentinel : Node) : Queued (start sentinel) [sentinel] [] [] := by
  constructor
  · apply (LinkedQueue.Chained.start_chained sentinel).congr
    intro prev node
    simp [Gap, start]
  · rfl
  · intro thread other post post' prev node node' linking
    cases linking
  · exact List.nodup_nil
  · simp [start, Thread.uncounted]
  · rfl
  · simp [start]

theorem exists_queued (reachable : system.Reachable state) :
    ∃ chain contents uncounted, Queued state chain contents uncounted := by
  apply reachable.invariant
  · intro initial starts
    obtain ⟨sentinel, rfl⟩ := starts
    exact ⟨_, _, _, start_queued sentinel⟩
  · intro before label after holds stepped
    obtain ⟨chain, contents, uncounted, queued⟩ := holds
    exact queued.step (step_queueStep stepped)

/-- A thread that links writes to a node that is allocated. -/
theorem linking_live (reachable : system.Reachable state)
    (here : state.threads thread = .linking post prev node) :
    state.queue.live prev = true ∧ state.queue.live node = true := by
  obtain ⟨chain, contents, uncounted, queued⟩ := exists_queued reachable
  exact queued.chained.gap_live ⟨thread, post, here⟩

theorem linking_second : ∃ state, system.run (start 0) [.post 0 1 10, .post 1 2 20] = some state ∧
    state.queue.live 1 = true ∧ state.queue.live 2 = true :=
  ⟨_, rfl, linking_live (.of_run system [.post 0 1 10, .post 1 2 20] ⟨0, rfl⟩ rfl)
    (rfl : State.threads _ 1 = .linking _ 1 2)⟩

end

end Libgoc.Loop
