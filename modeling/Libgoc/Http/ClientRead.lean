import Libgoc.Http.ClientSlots
import Libgoc.Http.ResponseHead

namespace Libgoc.Http

open Libgoc.Data

/-! # Reading a response and keeping the connection -/

/-- `goc_io_read_t`; end of file and errors have a negative `nread`. -/
inductive ReadResult where
  | data (bytes : Bytes)
  | failed (nread : Int)
deriving Repr, DecidableEq

/-- A result that `on_read_cb` puts on the read channel, and whether `realloc` succeeds
if it is called for it. -/
structure Delivery where
  result : ReadResult
  grows : Bool := true
deriving Repr, DecidableEq

/-- `resp_buf`, `resp_cap` and what has been parsed of it. -/
structure Received where
  buf : Bytes := []
  cap : Nat := 0
  head : Option Head := none
deriving Repr, DecidableEq

/-- `while (nc < needed) nc *= 2;` -/
def doubleUntil (needed : Nat) : Nat → Nat → Nat
  | 0, cap => cap
  | fuel + 1, cap => if cap < needed then doubleUntil needed fuel (cap * 2) else cap

/-- The capacity after a chunk of the given length, unless `realloc` fails. -/
def ensureCap (cap length chunk : Nat) (grows : Bool) : Option Nat :=
  let needed := length + chunk + 1
  if needed > cap then
    if grows then some (doubleUntil needed needed (if cap = 0 then 4096 else cap * 2)) else none
  else some cap

/-- The chunk is in the buffer, and the head has been looked for. -/
def Received.store (received : Received) (bytes : Bytes) (cap : Nat) : Received :=
  let buf := received.buf ++ bytes
  { buf, cap, head := received.head.or (parseResponseHeadBuf buf) }

/-- All of the announced body is there. -/
def Received.complete (received : Received) : Bool :=
  match received.head with
  | some head =>
    0 ≤ head.contentLength && head.contentLength ≤ (received.buf.length - head.bodyStart : Nat)
  | none => false

/-- The read loop of `http_client_fiber`; `none` while it waits for the peer.  `cancel`
is the number of results that are taken before `cancel_requested` is seen.  Results
that are left over are drained. -/
def readLoop (received : Received) (cancel : Option Nat) : List Delivery → Option Received
  | [] => if cancel = none then none else some received
  | delivery :: rest =>
    if cancel = some 0 then some received
    else
      match delivery.result with
      | .failed _ => some received
      | .data bytes =>
        match ensureCap received.cap received.buf.length bytes.length delivery.grows with
        | none => some received
        | some cap =>
          let received := received.store bytes cap
          if received.complete then some received
          else readLoop received (cancel.map (· - 1)) rest

/-- A request whose connection is written to and read from.  `deliveries` are what comes
from the socket until reading is stopped; the end of file that `on_read_stop_dispatch`
then puts on the channel by itself is not among them. -/
structure Exchange where
  keepAlive : Bool
  deliveries : List Delivery
  cancel : Option Nat
  idleConnections : Nat
deriving Repr, DecidableEq

namespace Exchange

variable (exchange : Exchange)

def received : Option Received :=
  readLoop {} exchange.cancel exchange.deliveries

def canKeep (keepAlive : Bool) (head : Head) : Bool :=
  keepAlive && 0 ≤ head.contentLength && !responseHasConnectionClose head.response

/-- `http_client_return_connection_local` puts the connection on an idle stack. -/
def putOnIdleStack : Bool :=
  match exchange.received.bind Received.head with
  | some head => canKeep exchange.keepAlive head && exchange.idleConnections < Slots.maxConnections
  | none => false

def ReadCompletely : Prop :=
  ∃ received, exchange.received = some received ∧ received.complete = true

/-- The peer has closed the connection, or it has failed. -/
def ClosedByPeer : Prop :=
  ∃ delivery ∈ exchange.deliveries, ∃ nread, delivery.result = .failed nread

/-- The timeout of the request closes the socket; `a->tcp` still names it after
the connection has been put on an idle stack. -/
def ClosedByCancel : Prop :=
  exchange.cancel ≠ none

/-- A connection on an idle stack can serve another request. -/
def ReusedSafely : Prop :=
  exchange.putOnIdleStack = true →
    exchange.ReadCompletely ∧ ¬ exchange.ClosedByPeer ∧ ¬ exchange.ClosedByCancel

end Exchange

/-- The data before the first end of file, error, cancel or failed `realloc`;
`length` bytes are already stored. -/
def arrivingData (cap length : Nat) (cancel : Option Nat) : List Delivery → Bytes
  | [] => []
  | delivery :: rest =>
    if cancel = some 0 then []
    else
      match delivery.result with
      | .failed _ => []
      | .data bytes =>
        match ensureCap cap length bytes.length delivery.grows with
        | none => []
        | some cap =>
          bytes ++ arrivingData cap (length + bytes.length) (cancel.map (· - 1)) rest

/-- `realloc` succeeds wherever it is called for the first data. -/
def Stored (cap length : Nat) : List Delivery → Prop
  | [] => True
  | delivery :: rest =>
    match delivery.result with
    | .failed _ => True
    | .data bytes =>
      match ensureCap cap length bytes.length delivery.grows with
      | none => False
      | some cap => Stored cap (length + bytes.length) rest

/-- The buffer has been parsed after every chunk. -/
def Received.Parsed (received : Received) : Prop :=
  match received.head with
  | some head => ∃ current, parseResponseHeadBuf received.buf = some current ∧ head.Same current
  | none => parseResponseHeadBuf received.buf = none

theorem Received.store_parsed {received : Received} (parsed : received.Parsed) (bytes : Bytes)
    (cap : Nat) : (received.store bytes cap).Parsed := by
  unfold Received.Parsed at parsed ⊢
  cases known : received.head with
  | some head =>
    rw [known] at parsed
    obtain ⟨current, found, same⟩ := parsed
    obtain ⟨longer, again, also⟩ := parseResponseHeadBuf_append bytes found
    simp only [Received.store, known, Option.some_or]
    exact ⟨longer, again, same.trans also⟩
  | none =>
    simp only [Received.store, known, Option.none_or]
    split
    · rename_i head now
      exact ⟨head, now, .refl head⟩
    · rename_i none
      exact none

theorem initial_parsed : ({} : Received).Parsed :=
  rfl

/-- The loop keeps an initial part of what arrives, and all of it unless the
response is complete. -/
theorem readLoop_received {received final : Received} {cancel : Option Nat}
    {deliveries : List Delivery} (parsed : received.Parsed)
    (left : readLoop received cancel deliveries = some final) :
    final.Parsed ∧ ∃ rest,
      received.buf ++ arrivingData received.cap received.buf.length cancel deliveries =
        final.buf ++ rest ∧ (final.complete = true ∨ rest = []) := by
  induction deliveries generalizing received cancel with
  | nil =>
    rw [readLoop] at left
    split at left <;> cases left
    exact ⟨parsed, [], rfl, .inr rfl⟩
  | cons delivery rest ih =>
    rw [readLoop] at left
    rw [arrivingData]
    split at left
    next now =>
      cases left
      rw [if_pos now]
      exact ⟨parsed, [], rfl, .inr rfl⟩
    next later =>
      rw [if_neg later]
      cases result : delivery.result with
      | failed nread =>
        simp only [result, Option.some.injEq] at left
        subst left
        exact ⟨parsed, [], rfl, .inr rfl⟩
      | data bytes =>
        simp only [result] at left ⊢
        cases room : ensureCap received.cap received.buf.length bytes.length delivery.grows with
        | none =>
          simp only [room, Option.some.injEq] at left ⊢
          subst left
          exact ⟨parsed, [], rfl, .inr rfl⟩
        | some cap =>
          have stored := received.store_parsed parsed bytes cap
          have buf : (received.store bytes cap).buf = received.buf ++ bytes := rfl
          simp only [room] at left ⊢
          split at left
          next complete =>
            cases left
            refine ⟨stored, arrivingData cap (received.buf.length + bytes.length)
              (cancel.map (· - 1)) rest, ?_, .inl complete⟩
            rw [buf, List.append_assoc]
          next =>
            have later := ih stored left
            rwa [buf, List.length_append, List.append_assoc] at later

/-- The loop ends where something ends it, and otherwise only with all of the body. -/
theorem readLoop_ends {received : Received} {cancel : Option Nat} {deliveries : List Delivery} :
    (cancel ≠ none ∨ (∃ delivery ∈ deliveries, ∃ nread, delivery.result = .failed nread) ∨
      ¬ Stored received.cap received.buf.length deliveries →
        ∃ final, readLoop received cancel deliveries = some final) ∧
    (cancel = none → (∀ delivery ∈ deliveries, ∀ nread, delivery.result ≠ .failed nread) →
      Stored received.cap received.buf.length deliveries →
        ∀ final, readLoop received cancel deliveries = some final → final.complete = true) := by
  induction deliveries generalizing received cancel with
  | nil => simp +contextual [readLoop, Stored]
  | cons delivery rest ih =>
    cases result : delivery.result with
    | failed nread =>
      refine ⟨fun _ => ?_, fun _ plain => absurd result (plain delivery (by simp) nread)⟩
      rw [readLoop, result]
      split <;> exact ⟨received, rfl⟩
    | data bytes =>
      rw [readLoop, Stored, result]
      by_cases now : cancel = some 0
      · simp [now]
      cases room : ensureCap received.cap received.buf.length bytes.length delivery.grows with
      | none => simp [now, room]
      | some cap =>
        obtain ⟨ends, completes⟩ := @ih (received.store bytes cap) (cancel.map (· - 1))
        have length : (received.store bytes cap).buf.length = received.buf.length + bytes.length :=
          List.length_append
        rw [length] at ends completes
        simp only [if_neg now, room]
        by_cases complete : (received.store bytes cap).complete = true
        · rw [if_pos complete]
          refine ⟨fun _ => ⟨_, rfl⟩, fun _ _ _ final left => ?_⟩
          cases left
          exact complete
        · rw [if_neg complete]
          constructor
          · rintro (cancelled | ⟨found, member, failed⟩ | short)
            · exact ends (.inl (by simpa using cancelled))
            · obtain rfl | inside := List.mem_cons.mp member
              · obtain ⟨nread, failed⟩ := failed
                cases result.symm.trans failed
              · exact ends (.inr (.inl ⟨found, inside, failed⟩))
            · exact ends (.inr (.inr short))
          · intro none plain stored
            exact completes (by simp [none]) (fun found member => plain found (by simp [member])) stored

namespace Exchange

variable (exchange : Exchange)

def arrived : Bytes :=
  arrivingData 0 0 exchange.cancel exchange.deliveries

/-- A head that lets the connection be kept. -/
def Keepable (bytes : Bytes) : Prop :=
  ∃ head, parseResponseHeadBuf bytes = some head ∧ canKeep exchange.keepAlive head = true ∧
    exchange.idleConnections < Slots.maxConnections

def HoldsBody (bytes : Bytes) : Prop :=
  ∃ head, parseResponseHeadBuf bytes = some head ∧ 0 ≤ head.contentLength ∧
    head.contentLength ≤ (bytes.length - head.bodyStart : Nat)

/-- The request is cancelled, an end of file or an error comes from the socket, or
memory runs out before the body is there. -/
def Disturbed : Prop :=
  exchange.cancel ≠ none ∨
    (∃ delivery ∈ exchange.deliveries, ∃ nread, delivery.result = .failed nread) ∨
    ¬ Stored 0 0 exchange.deliveries ∧ ¬ HoldsBody exchange.arrived

section

variable {exchange : Exchange} {received : Received}

theorem canKeep_same {first second : Head} {keepAlive : Bool} (same : first.Same second) :
    canKeep keepAlive first = canKeep keepAlive second := by
  simp only [canKeep, responseHasConnectionClose, same.headers, same.contentLength]

/-- The head that decides is the one in the bytes that arrive. -/
theorem head_arrived (left : exchange.received = some received) :
    (∃ head current, received.head = some head ∧
      parseResponseHeadBuf exchange.arrived = some current ∧ head.Same current) ∨
    (received.head = none ∧ parseResponseHeadBuf exchange.arrived = none) := by
  obtain ⟨parsed, rest, arrived, ended⟩ := readLoop_received initial_parsed left
  change exchange.arrived = _ at arrived
  unfold Received.Parsed at parsed
  cases known : received.head with
  | some head =>
    rw [known] at parsed
    obtain ⟨current, found, same⟩ := parsed
    obtain ⟨longer, again, also⟩ := parseResponseHeadBuf_append rest found
    exact .inl ⟨head, longer, rfl, arrived ▸ again, same.trans also⟩
  | none =>
    rw [known] at parsed
    have incomplete : received.complete ≠ true := by simp [Received.complete, known]
    rw [ended.resolve_left incomplete, List.append_nil] at arrived
    exact .inr ⟨rfl, arrived ▸ parsed⟩

theorem putOnIdleStack_iff (left : exchange.received = some received) :
    exchange.putOnIdleStack = true ↔ exchange.Keepable exchange.arrived := by
  rcases head_arrived left with ⟨head, current, known, parsed, same⟩ | ⟨known, parsed⟩
  · simp [putOnIdleStack, Keepable, left, known, parsed, canKeep_same same]
  · simp [putOnIdleStack, Keepable, left, known, parsed]

theorem complete_iff (left : exchange.received = some received) :
    received.complete = true ↔ HoldsBody exchange.arrived := by
  rcases head_arrived left with ⟨head, current, known, parsed, same⟩ | ⟨known, parsed⟩
  · obtain ⟨-, rest, arrived, ended⟩ := readLoop_received initial_parsed left
    change exchange.arrived = _ at arrived
    have length := congrArg List.length arrived
    rw [List.length_append] at length
    simp only [HoldsBody, Received.complete, known, parsed, Option.some.injEq, exists_eq_left',
      same.bodyStart, same.contentLength, Bool.and_eq_true, decide_eq_true_eq] at ended ⊢
    constructor
    · intro complete
      omega
    · intro holds
      rcases ended with complete | none
      · exact complete
      · rw [none, List.length_nil] at length
        omega
  · simp [HoldsBody, Received.complete, known, parsed]

theorem Disturbed.ends (disturbed : exchange.Disturbed) :
    ∃ received, exchange.received = some received := by
  apply readLoop_ends.1
  obtain cancelled | failed | ⟨short, -⟩ := disturbed
  · exact .inl cancelled
  · exact .inr (.inl failed)
  · exact .inr (.inr short)

end

/-- A connection is put on an idle stack safely unless the exchange is disturbed behind
a head that lets the connection be kept. -/
theorem reusedSafely_iff :
    exchange.ReusedSafely ↔ ¬ (exchange.Keepable exchange.arrived ∧ exchange.Disturbed) := by
  constructor
  · rintro safely ⟨keepable, disturbed⟩
    obtain ⟨received, left⟩ := disturbed.ends
    obtain ⟨⟨_, same, complete⟩, unclosed, uncancelled⟩ := safely ((putOnIdleStack_iff left).mpr keepable)
    obtain rfl := Option.some.inj (left.symm.trans same)
    obtain cancelled | failed | ⟨-, without⟩ := disturbed
    · exact uncancelled cancelled
    · exact unclosed failed
    · exact without ((complete_iff left).mp complete)
  · intro undisturbed put
    cases left : exchange.received with
    | none => simp [putOnIdleStack, left] at put
    | some received =>
      have keepable := (putOnIdleStack_iff left).mp put
      have calm : ¬ exchange.Disturbed := fun disturbed => undisturbed ⟨keepable, disturbed⟩
      simp only [Disturbed, not_or] at calm
      obtain ⟨uncancelled, plain, stored⟩ := calm
      refine ⟨⟨received, left, ?_⟩, plain, uncancelled⟩
      by_cases short : Stored 0 0 exchange.deliveries
      · apply readLoop_ends.2 (not_not.mp uncancelled) _ short received left
        intro delivery member nread failed
        exact plain ⟨delivery, member, nread, failed⟩
      · exact (complete_iff left).mpr (not_not.mp fun without => stored ⟨short, without⟩)

/-- The peer announces ten bytes, sends three and closes the connection. -/
def truncated : Exchange where
  keepAlive := true
  deliveries := [ { result := .data (ascii "HTTP/1.1 200 OK\r\nContent-Length: 10\r\n\r\nabc") },
    { result := .failed (-4095) }]
  cancel := none
  idleConnections := 0

theorem truncated_put_on_idle_stack :
    truncated.putOnIdleStack = true ∧ ¬ truncated.ReadCompletely ∧ truncated.ClosedByPeer := by
  refine ⟨by decide +kernel, ?_, ?_⟩
  · rintro ⟨received, left, complete⟩
    have incomplete : truncated.received.any Received.complete = false := by decide +kernel
    simp [left, complete] at incomplete
  · exact ⟨{ result := .failed (-4095) }, by simp [truncated], -4095, rfl⟩

/-- The same head with the body behind it. -/
example : ({ truncated with deliveries :=
    [ { result := .data (ascii "HTTP/1.1 200 OK\r\nContent-Length: 3\r\n\r\nabc") }] } :
      Exchange).putOnIdleStack = true := by
  decide +kernel

end Exchange

end Libgoc.Http
