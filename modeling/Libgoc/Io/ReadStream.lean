import Mathlib.Algebra.Group.Nat.Defs
import Mathlib.Tactic.Common
import Libgoc.Io.Port
import Libgoc.Semantics.Execution

namespace Libgoc.Io.ReadStream

/-! # Streams of the chunks of a file -/

open Semantics

structure Chunk where
  status : Int
  data : List UInt8
deriving DecidableEq, Repr

inductive Phase where
  | opening
  | reading
  | finished
deriving DecidableEq, Repr

/-- `sent` are the chunks in the order of their puts; the channel carries their
places.  `position` is the offset of the next read and `eof` says that an end of
file was read. -/
structure State where
  file : List UInt8
  chunkSize : Nat
  position : Nat
  phase : Phase
  sent : List Chunk
  port : Port Nat Nat
  eof : Bool

/-- The length passed with a read: a cast of the chunk size to `unsigned int`. -/
def State.request (state : State) : Nat :=
  state.chunkSize % 2 ^ 32

def State.put (state : State) (chunk : Chunk) : State :=
  { state with
    sent := state.sent ++ [chunk]
    port := state.port.gocPutCb state.sent.length }

/-- The put of an error ends the stream: `goc_close_cb` is its callback. -/
def State.fail (state : State) (result : Int) : State :=
  { state.put ⟨result, []⟩ with phase := .finished }

def gocIoFsReadStreamMake (file : List UInt8) (chunkSize : Nat) (rc : Int) : State :=
  let state : State :=
    { file
      chunkSize := if chunkSize = 0 then 65536 else chunkSize
      position := 0
      phase := .opening
      sent := []
      port := .gocChanMake 16
      eof := false }
  if rc < 0 then state.fail rc else state

/-- The completion of the open or of a read.  A read returns the next bytes of
the file, at most as many as were requested, and nothing only at the end of the
file or where nothing was requested. -/
def onReadStreamStep (state : State) (result : Int) : Option State :=
  match state.phase with
  | .opening => some (if result < 0 then state.fail result else { state with phase := .reading })
  | .reading =>
    if result < 0 then some (state.fail result)
    else if result = 0 then
      if state.position = state.file.length ∨ state.request = 0 then
        some { state with
          phase := .finished
          port := state.port.gocClose true
          eof := true }
      else none
    else
      if result.toNat ≤ state.request ∧ state.position + result.toNat ≤ state.file.length then
        some { state.put ⟨0, (state.file.drop state.position).take result.toNat⟩ with
          position := state.position + result.toNat }
      else none
  | .finished => none

/-- The callback of a put: only an error has one, which closes the channel. -/
def putCallback (state : State) : Option (Nat × Bool) → State
  | some (index, _) =>
    match state.sent[index]? with
    | some chunk =>
      if chunk.status < 0 then { state with port := state.port.gocClose true } else state
    | none => state
  | none => state

inductive Label where
  | completes (result : Int)
  | drains
  | takes (taker : Nat) (parks : Bool)
  | leaves (taker : Nat)
deriving DecidableEq, Repr

def step (state : State) : Label → Option State
  | .completes result => onReadStreamStep state result
  | .drains => do
      let (port, outcome) ← state.port.drainCbQueue
      some (putCallback { state with port } outcome)
  | .takes taker parks => some { state with port := state.port.gocTake taker parks }
  | .leaves taker => some { state with port := state.port.leave taker }

/-- The streams of all files and chunk sizes, opened with any result. -/
def system : System State Label where
  initial state := ∃ file chunkSize rc, state = gocIoFsReadStreamMake file chunkSize rc
  step

def payload : Option Chunk → List UInt8
  | some chunk => if chunk.status = 0 then chunk.data else []
  | none => []

def State.received (state : State) : List UInt8 :=
  state.port.delivered.flatMap fun index => payload state.sent[index]?

/-- The consumer keeps up: no chunk is stored past one that waits for room, and at
the end of the file every chunk is stored or taken. -/
def Attended (state : State) : Label → Prop
  | .completes result =>
    state.phase = .reading → result = 0 →
      state.request ≠ 0 ∧ state.port.untried = [] ∧ state.port.queue.putters = []
  | .drains => state.port.InTurn
  | .takes _ _ | .leaves _ => True

instance (state : State) (label : Label) : Decidable (Attended state label) := by
  cases label <;> unfold Attended <;> infer_instance

structure Flowing (state : State) : Prop where
  sound : state.port.Sound
  opened : state.port.closeGuard = .opened
  fifo : state.port.Fifo
  submitted : state.port.queue.effects ++ state.port.untried = List.range state.sent.length
  held : ∀ index < state.sent.length, state.port.Holds index
  good : ∀ chunk ∈ state.sent, chunk.status = 0
  bytes : state.sent.flatMap (·.data) = state.file.take state.position

/-- The stream after the end of the file: what is stored is what has not been
received. -/
structure Ended (state : State) : Prop where
  closed : state.port.queue.closed = true
  closing : state.port.closeGuard = .closing
  noPutters : state.port.queue.putters = []
  untried : state.port.untried = []
  remaining : state.port.delivered ++ state.port.queue.stored = List.range state.sent.length
  told : state.port.told ≠ [] → state.port.queue.stored = []
  good : ∀ chunk ∈ state.sent, chunk.status = 0
  bytes : state.sent.flatMap (·.data) = state.file

inductive Course (state : State) : Prop where
  | flowing (unfinished : state.phase ≠ .finished) (eof : state.eof = false) (flow : Flowing state)
  | ended (finished : state.phase = .finished) (ended : Ended state)
  | failed (finished : state.phase = .finished) (eof : state.eof = false)

variable {state after : State}

theorem putCallback_good (good : ∀ chunk ∈ state.sent, chunk.status = 0)
    (outcome : Option (Nat × Bool)) : putCallback state outcome = state := by
  unfold putCallback
  split
  · split
    · rename_i chunk found
      have status := good chunk (List.mem_of_getElem? found)
      simp [status]
    · rfl
  · rfl

theorem putCallback_frame (state : State) (outcome : Option (Nat × Bool)) :
    (putCallback state outcome).phase = state.phase ∧
      (putCallback state outcome).eof = state.eof := by
  unfold putCallback
  split
  · split
    · split <;> exact ⟨rfl, rfl⟩
    · exact ⟨rfl, rfl⟩
  · exact ⟨rfl, rfl⟩

theorem gocIoFsReadStreamMake_course (file : List UInt8) (chunkSize : Nat) (rc : Int) :
    Course (gocIoFsReadStreamMake file chunkSize rc) := by
  by_cases failed : rc < 0
  · simp only [gocIoFsReadStreamMake, failed, if_true]
    exact .failed rfl rfl
  · simp only [gocIoFsReadStreamMake, failed, if_false]
    apply Course.flowing
    · simp
    · rfl
    · exact
        { sound := Port.gocChanMake_sound 16
          opened := rfl
          fifo := Port.gocChanMake_fifo 16
          submitted := rfl
          held := by simp
          good := by simp
          bytes := by simp }

section

variable (flow : Flowing state)
include flow

theorem Flowing.unclosed : state.port.queue.closed = false := by
  have closed := flow.sound.closed
  rw [flow.opened] at closed
  simpa using closed

theorem Flowing.put (data : List UInt8)
    (next : state.file.take (state.position + data.length) = state.file.take state.position ++ data) :
    Flowing { state.put ⟨0, data⟩ with position := state.position + data.length } where
  sound := flow.sound.gocPutCb _
  opened := flow.opened
  fifo := flow.fifo.gocPutCb (by simp [flow.submitted])
  submitted := by
    have submitted := flow.submitted
    simp only [State.put, Port.untried_gocPutCb, List.length_append, List.length_singleton,
      List.range_succ]
    rw [← submitted, List.append_assoc]
    rfl
  held := by
    intro index bound
    simp only [State.put, List.length_append, List.length_singleton] at bound ⊢
    rcases Nat.lt_succ_iff_lt_or_eq.mp bound with earlier | last
    · exact (flow.held index earlier).gocPutCb _
    · rw [last]
      exact Port.gocPutCb_holds _
  good := by
    intro chunk member
    rcases List.mem_append.mp member with earlier | last
    · exact flow.good chunk earlier
    · simp only [List.mem_singleton] at last
      rw [last]
  bytes := by
    have bytes := flow.bytes
    simp only [State.put, List.flatMap_append, bytes, next]
    simp

/-- At the end of the file every chunk is stored or has been received. -/
theorem Flowing.ends (complete : state.position = state.file.length)
    (untried : state.port.untried = []) (noPutters : state.port.queue.putters = []) :
    Ended { state with phase := .finished, port := state.port.gocClose true, eof := true } := by
  have whole := flow.fifo.whole flow.sound flow.unclosed fun item member => by
    apply flow.held
    rw [← List.mem_range, ← flow.submitted]
    exact List.mem_append_left _ member
  have submitted := flow.submitted
  rw [untried, List.append_nil] at submitted
  rw [noPutters, List.append_nil, submitted] at whole
  have closes : state.port.gocClose true = { state.port with
      closeGuard := .closing
      queue := { state.port.queue with takers := [], putters := [], closed := true }
      told := state.port.queue.takers } := by
    simp [Port.gocClose, Port.gocCloseInternal, flow.opened, noPutters,
      flow.sound.untold flow.unclosed]
  rw [closes]
  exact
    { closed := rfl
      closing := rfl
      noPutters := rfl
      untried := untried
      remaining := whole
      told := fun waiting => (flow.fifo.ordered.alone waiting).1
      good := flow.good
      bytes := by simp [flow.bytes, complete] }

theorem Flowing.completes (eof : state.eof = false) (attended : Attended state (.completes result))
    (stepped : onReadStreamStep state result = some after) : Course after := by
  unfold onReadStreamStep at stepped
  split at stepped
  · rename_i opening
    cases stepped
    split
    · exact .failed rfl eof
    · exact .flowing (by simp) eof { flow with }
  · rename_i reading
    split at stepped
    · cases stepped
      exact .failed rfl eof
    · split at stepped
      · rename_i nothing
        obtain ⟨requested, untried, noPutters⟩ := attended reading nothing
        obtain ⟨complete, rfl⟩ := guarded stepped
        exact .ended rfl (flow.ends (complete.resolve_right requested) untried noPutters)
      · rename_i positive nonzero
        obtain ⟨bounds, rfl⟩ := guarded stepped
        have size : ((state.file.drop state.position).take result.toNat).length = result.toNat := by
          simp only [List.length_take, List.length_drop]
          omega
        have next := flow.put ((state.file.drop state.position).take result.toNat) (by
          rw [size, List.take_add])
        rw [size] at next
        refine .flowing ?_ eof next
        simp [State.put, reading]
  · cases stepped

theorem Flowing.drains (inTurn : state.port.InTurn)
    (drained : state.port.drainCbQueue = some (port, outcome)) :
    Flowing { state with port } := by
  obtain ⟨opened, succeeds⟩ := flow.sound.drains_opened flow.opened drained
  exact
    { flow with
      sound := flow.sound.drainCbQueue drained
      opened := opened
      fifo := flow.fifo.drainCbQueue flow.unclosed inTurn drained
      submitted := (Port.drainCbQueue_submitted flow.unclosed drained).trans flow.submitted
      held := fun index bound =>
        ((flow.held index bound).drainCbQueue drained).resolve_right (succeeds index) }

theorem Flowing.takes (took : Port.Took state.port taker port) : Flowing { state with port } := by
  obtain ⟨sameEffects, sameUntried, sameGuard⟩ := took.frame
  exact
    { flow with
      sound := flow.sound.took took
      opened := sameGuard.trans flow.opened
      fifo := flow.fifo.took took
      submitted := by simpa only [sameEffects, sameUntried] using flow.submitted
      held := fun index bound => (flow.held index bound).took took }

theorem Flowing.leaves (taker : Nat) :
    Flowing { state with port := state.port.leave taker } :=
  { flow with
    sound := flow.sound.leave taker
    fifo := flow.fifo.leave taker
    held := fun index bound => (flow.held index bound).leave taker }

end

theorem Ended.drains (ended : Ended state)
    (drained : state.port.drainCbQueue = some (port, outcome)) : Ended { state with port } := by
  have untried := ended.untried
  cases Port.drainCbQueue_drained drained with
  | put item rest after ok first => simp [Port.untried, first] at untried
  | fire item ok rest first =>
    exact { ended with untried := by simpa [Port.untried, first] using untried }
  | close rest first =>
    have again : Port.gocCloseInternal { state.port with callbacks := rest } =
        { state.port with callbacks := rest } := by
      simp [Port.gocCloseInternal, ended.closing]
    rw [again]
    exact { ended with untried := by simpa [Port.untried, first] using untried }

theorem Ended.takes (ended : Ended state)
    (took : Port.Took state.port taker port) : Ended { state with port } := by
  have remaining := ended.remaining
  cases took with
  | buffered item rest present =>
    refine { ended with remaining := ?_, told := fun told => ?_ }
    · simpa [present] using remaining
    · have none := ended.told told
      simp [present] at none
  | fetched item rest drained waiting => simp [ended.noPutters] at waiting
  | told drained => exact { ended with told := fun _ => drained }
  | parked drained noPutters opened => simp [ended.closed] at opened
  | nothing => exact ended

/-- Every step keeps the course of the stream while the consumer keeps up. -/
theorem Course.stepped (course : Course state) (attended : Attended state label)
    (stepped : step state label = some after) : Course after := by
  cases label with
  | completes result =>
    cases course with
    | flowing unfinished eof flow => exact flow.completes eof attended stepped
    | ended finished | failed finished => simp [step, onReadStreamStep, finished] at stepped
  | drains =>
    simp only [step, Option.bind_eq_bind, Option.bind_eq_some_iff, Option.some.injEq,
      Prod.exists] at stepped
    obtain ⟨port, outcome, drained, same⟩ := stepped
    rw [← same]
    cases course with
    | flowing unfinished eof flow =>
      have next := flow.drains attended drained
      rw [putCallback_good next.good]
      exact .flowing unfinished eof next
    | ended finished ended =>
      have next := ended.drains drained
      rw [putCallback_good next.good]
      exact .ended finished next
    | failed finished eof =>
      obtain ⟨samePhase, sameEof⟩ := putCallback_frame { state with port } outcome
      exact .failed (samePhase.trans finished) (sameEof.trans eof)
  | takes taker parks =>
    cases stepped
    have took := Port.gocTake_took state.port taker parks
    cases course with
    | flowing unfinished eof flow => exact .flowing unfinished eof (flow.takes took)
    | ended finished ended => exact .ended finished (ended.takes took)
    | failed finished eof => exact .failed finished eof
  | leaves taker =>
    cases stepped
    cases course with
    | flowing unfinished eof flow => exact .flowing unfinished eof (flow.leaves taker)
    | ended finished ended => exact .ended finished { ended with }
    | failed finished eof => exact .failed finished eof

theorem payload_all (chunks : List Chunk) (good : ∀ chunk ∈ chunks, chunk.status = 0) :
    (List.range chunks.length).flatMap (fun index => payload chunks[index]?) =
      chunks.flatMap (·.data) := by
  have listed : (List.range chunks.length).map (chunks[·]?) = chunks.map some := by
    apply List.ext_getElem <;> simp
  have same : chunks.flatMap (·.data) = (chunks.map some).flatMap payload := by
    rw [List.flatMap_map]
    apply List.flatMap_congr
    intro chunk member
    simp [payload, good chunk member]
  rw [same, ← listed, List.flatMap_map]

/-- In every run in which the consumer keeps up, a stream that has read the end of
its file is closed, and once nothing is stored, as when a taker is told so, the
whole file has been received. -/
theorem whole_file_received (reachable : system.ReachableWith Attended state)
    (eof : state.eof = true) :
    state.port.queue.closed = true ∧
      (state.port.told ≠ [] ∨ state.port.queue.stored = [] → state.received = state.file) := by
  have course : Course state := by
    apply reachable.invariant
    · intro start initial
      obtain ⟨file, chunkSize, rc, same⟩ := initial
      rw [same]
      exact gocIoFsReadStreamMake_course file chunkSize rc
    · exact fun before label after course attended stepped => course.stepped attended stepped
  cases course with
  | flowing unfinished flowing => simp [eof] at flowing
  | failed finished failed => simp [eof] at failed
  | ended finished ended =>
    refine ⟨ended.closed, fun observed => ?_⟩
    have drained : state.port.queue.stored = [] := observed.elim ended.told id
    have remaining := ended.remaining
    rw [drained, List.append_nil] at remaining
    rw [State.received, remaining, payload_all state.sent ended.good, ended.bytes]

def keptUpRun : List Label :=
  [.completes 3, .takes 0 true, .completes 2, .drains, .completes 1, .drains, .completes 0,
    .takes 1 true, .takes 2 true]

theorem keptUpRun_received :
    ∃ state, system.runWith Attended (gocIoFsReadStreamMake [7, 8, 9] 2 0) keptUpRun = some state ∧
      state.port.told = [2] ∧ state.received = [7, 8, 9] :=
  ⟨_, rfl, rfl, (whole_file_received
    (.of_run system Attended keptUpRun ⟨[7, 8, 9], 2, 0, rfl⟩ rfl) rfl).2 (.inl (by decide))⟩

/-- Seventeen chunks are read before the first take: the last one waits beside the
full buffer when the end of the file closes the channel. -/
def slowConsumerRun : List Label :=
  [.completes 3] ++ (List.replicate 17 [.completes 1, .drains]).flatten ++ [.completes 0, .drains] ++
    List.replicate 17 (.takes 0 true)

theorem slow_consumer_misses_last_chunk :
    ∃ state, system.Reachable state ∧ state.eof = true ∧ state.port.told = [0] ∧
      state.received = List.replicate 16 7 ∧ state.file = List.replicate 17 7 :=
  ⟨_, .of_run system slowConsumerRun ⟨List.replicate 17 7, 1, 0, rfl⟩ rfl, rfl, rfl, rfl, rfl⟩

end Libgoc.Io.ReadStream
