import Libgoc.Http.ClientRead
import Libgoc.Http.RequestHead

namespace Libgoc.Http.ServerRead

open Libgoc.Data

/-! # Reading the requests of a connection -/

/-- What `realloc` does if it is called. -/
inductive Realloc where
  | inPlace
  | moved
  | failed
deriving Repr, DecidableEq

/-- A result on the read channel.  Empty reads are not delivered. -/
structure Chunk where
  bytes : Bytes
  realloc : Realloc
  nonempty : bytes ≠ []
deriving Repr, DecidableEq

/-- `block` tells the blocks apart that `realloc` has returned. -/
structure Buffer where
  block : Nat
  bytes : Bytes
  cap : Nat
deriving Repr, DecidableEq

def maxReqSize : Nat := 8 * 1024 * 1024
def maxHdrs : Nat := 64

def growCap (cap needed : Nat) : Nat :=
  if needed > cap then doubleUntil needed needed cap else cap

/-- Append a chunk, unless the request is too large or memory runs out. -/
def Buffer.push (buffer : Buffer) (chunk : Chunk) : Option Buffer :=
  let needed := buffer.bytes.length + chunk.bytes.length
  let next := { buffer with bytes := buffer.bytes ++ chunk.bytes, cap := growCap buffer.cap needed }
  if needed > maxReqSize then none
  else if needed > buffer.cap then
    match chunk.realloc with
    | .inPlace => some next
    | .moved => some { next with block := buffer.block + 1 }
    | .failed => none
  else some next

/-- The loop over the head; `none` if the connection is closed or nothing more
arrives. -/
def readHead (parser : RequestParser) (buffer : Buffer) :
    List Chunk → Option (Buffer × Layout × List Chunk)
  | [] => none
  | chunk :: rest =>
    match buffer.push chunk with
    | none => none
    | some buffer =>
      match parser.phrParseRequest maxHdrs buffer.bytes with
      | .incomplete => readHead parser buffer rest
      | .malformed => none
      | .parsed layout => some (buffer, layout, rest)

def readBody (bodyEnd : Nat) (buffer : Buffer) (chunks : List Chunk) : Option Buffer :=
  if buffer.bytes.length < bodyEnd then
    match chunks with
    | [] => none
    | chunk :: rest =>
      match buffer.push chunk with
      | none => none
      | some buffer => readBody bodyEnd buffer rest
  else some buffer

structure Request where
  method : Bytes
  path : Bytes
  query : Bytes
  headers : List Header
  body : Bytes
deriving Repr, DecidableEq

def bodyOf (buf : Bytes) (offset : Nat) (contentLength : Int) : Bytes :=
  let available := if 0 < contentLength ∧ offset < buf.length then buf.length - offset else 0
  let length := if 0 < contentLength then min available contentLength.toNat else available
  (buf.drop offset).take length

/-- One turn of the request loop: the buffer, the request and whether the connection
is kept.  Nothing is known of what is copied from a block that `realloc` has freed,
which is also `none`. -/
def readRequest (parser : RequestParser) (buffer : Buffer) (session : List Chunk) :
    Option (Buffer × Request × Bool) :=
  match readHead parser { buffer with bytes := [] } session with
  | none => none
  | some (buffer, layout, rest) =>
    let headers := (layout.fields buffer.bytes).headers
    let contentLength := contentLength headers
    match readBody (layout.consumed + contentLength.toNat) buffer rest with
    | none => none
    | some grown =>
      if grown.block = buffer.block then
        let fields := layout.fields grown.bytes
        some (grown,
          { method := fields.method
            path := (splitTarget fields.target).1
            query := (splitTarget fields.target).2
            headers := fields.headers
            body := bodyOf grown.bytes layout.consumed contentLength },
          requestWantsKeepalive headers layout.minorVersion)
      else none

structure Route where
  method : Bytes
  pattern : Bytes
deriving Repr, DecidableEq

def routeMatch (method path : Bytes) (route : Route) : Bool :=
  let length := route.pattern.length
  if route.method ≠ ascii "*" ∧ route.method ≠ method then false
  else if route.pattern = ascii "/*" then true
  else if route.pattern.getLast? = some 42 then
    path.take (length - 1) = route.pattern.take (length - 1)
  else if path = route.pattern then true
  else path.take length = route.pattern ∧ (path[length]? = some 47 ∨ path.length = length)

/-- Some route takes the request; the others are answered with 404. -/
def routed (routes : List Route) (request : Request) : Bool :=
  routes.any (routeMatch request.method request.path)

/-- A function of the application that may refuse a request, which is then answered
with 500. -/
abbrev Middleware := Request → Bool

def handed (routes : List Route) (middleware : List Middleware) (request : Request) : Bool :=
  routed routes request && middleware.all fun mw => mw request

/-- The requests that `handle_conn_fiber` hands to the routes.  A session are the chunks
that arrive in one turn of the loop; a turn in which none arrive is the last one. -/
def handleConn (parser : RequestParser) (routes : List Route) (middleware : List Middleware)
    (buffer : Buffer) : List (List Chunk) → List Request
  | [] => []
  | session :: sessions =>
    match readRequest parser buffer session with
    | none => []
    | some (buffer, request, keepAlive) =>
      (if handed routes middleware request then [request] else []) ++
        if keepAlive then handleConn parser routes middleware buffer sessions else []

def newBuffer : Buffer where
  block := 0
  bytes := []
  cap := 4096

structure Sent where
  head : Bytes
  fields : Fields
  path : Bytes
  query : Bytes
  body : Bytes
deriving Repr, DecidableEq

def Sent.bytes (sent : Sent) : Bytes :=
  sent.head ++ sent.body

def Sent.request (sent : Sent) : Request where
  method := sent.fields.method
  path := sent.path
  query := sent.query
  headers := sent.fields.headers
  body := sent.body

/-- A well-formed request with a `Content-Length` body within the limits. -/
structure Sent.WellFormed (parser : RequestParser) (sent : Sent) : Prop where
  head : parser.IsHead sent.head sent.fields
  target : IsTarget sent.fields.target sent.path sent.query
  length : Announces sent.fields.headers sent.body.length
  fewHeaders : sent.fields.headers.length ≤ maxHdrs
  small : sent.bytes.length ≤ maxReqSize

/-- Well-formed requests, all but the last of which keep the connection. -/
def KeepAliveStream (parser : RequestParser) : List Sent → Prop
  | [] => True
  | sent :: rest =>
    sent.WellFormed parser ∧
      (rest ≠ [] → requestWantsKeepalive sent.fields.headers sent.fields.minorVersion = true) ∧
      KeepAliveStream parser rest

def chunkBytes (session : List Chunk) : Bytes :=
  session.flatMap (·.bytes)

/-- `realloc` succeeds, and after the head it does not move the buffer. -/
def Steady (head cap received : Nat) : List Chunk → Prop
  | [] => True
  | chunk :: rest =>
    let needed := received + chunk.bytes.length
    (cap < needed → chunk.realloc ≠ .failed ∧ (head ≤ received → chunk.realloc = .inPlace)) ∧
      Steady head (growCap cap needed) needed rest

instance Steady.decide (head cap received : Nat) :
    (chunks : List Chunk) → Decidable (Steady head cap received chunks)
  | [] => .isTrue trivial
  | chunk :: rest =>
    have := Steady.decide head (growCap cap (received + chunk.bytes.length))
      (received + chunk.bytes.length) rest
    inferInstanceAs (Decidable (_ ∧ _))

def capAfter (cap received : Nat) : List Chunk → Nat
  | [] => cap
  | chunk :: rest =>
    capAfter (growCap cap (received + chunk.bytes.length)) (received + chunk.bytes.length) rest

/-- Every session delivers the bytes of one request, with a length that can be read, and
the buffer stays where it is while a body is read; nothing arrives after the last one. -/
def Undisturbed (cap : Nat) : List Sent → List (List Chunk) → Prop
  | [], sessions => ∀ session ∈ sessions, session = []
  | sent :: rest, session :: sessions =>
    chunkBytes session = sent.bytes ∧ ShortLength sent.fields.headers sent.body.length ∧
      Steady sent.head.length cap 0 session ∧
      Undisturbed (capAfter cap 0 session) rest sessions
  | _ :: _, [] => False

instance Undisturbed.decide (cap : Nat) :
    (stream : List Sent) → (sessions : List (List Chunk)) →
      Decidable (Undisturbed cap stream sessions)
  | [], sessions => inferInstanceAs (Decidable (∀ session ∈ sessions, session = []))
  | _ :: rest, session :: sessions =>
    have := Undisturbed.decide (capAfter cap 0 session) rest sessions
    inferInstanceAs (Decidable (_ ∧ _))
  | _ :: _, [] => .isFalse id

variable {parser : RequestParser} {buffer : Buffer} {chunk : Chunk} {chunks session : List Chunk}
  {head body : Bytes} {fields : Fields} {sent : Sent}

theorem push_steady (small : buffer.bytes.length + chunk.bytes.length ≤ maxReqSize)
    (steady : Steady length buffer.cap buffer.bytes.length (chunk :: chunks)) :
    ∃ next, buffer.push chunk = some next ∧ next.bytes = buffer.bytes ++ chunk.bytes ∧
      next.cap = growCap buffer.cap (buffer.bytes.length + chunk.bytes.length) ∧
      (length ≤ buffer.bytes.length → next.block = buffer.block) ∧
      Steady length next.cap next.bytes.length chunks := by
  obtain ⟨room, steady⟩ := steady
  have fits : ¬ buffer.bytes.length + chunk.bytes.length > maxReqSize := by omega
  unfold Buffer.push
  rw [if_neg fits]
  split
  · rename_i more
    obtain ⟨succeeds, stays⟩ := room more
    split
    · exact ⟨_, rfl, rfl, rfl, fun _ => rfl, by simpa using steady⟩
    · rename_i moved
      refine ⟨_, rfl, rfl, rfl, fun late => ?_, by simpa using steady⟩
      simp [stays late] at moved
    · rename_i failed
      exact absurd failed succeeds
  · exact ⟨_, rfl, rfl, rfl, fun _ => rfl, by simpa using steady⟩

theorem readHead_finds (isHead : parser.IsHead head fields)
    (few : fields.headers.length ≤ maxHdrs) (small : (head ++ body).length ≤ maxReqSize)
    (stream : buffer.bytes ++ chunkBytes chunks = head ++ body)
    (before : buffer.bytes.length < head.length)
    (steady : Steady head.length buffer.cap buffer.bytes.length chunks) :
    ∃ next layout rest, readHead parser buffer chunks = some (next, layout, rest) ∧
      layout.consumed = head.length ∧ layout.Inside ∧ layout.fields head = fields ∧
      next.bytes ++ chunkBytes rest = head ++ body ∧ head.length ≤ next.bytes.length ∧
      Steady head.length next.cap next.bytes.length rest ∧
      capAfter next.cap next.bytes.length rest =
        capAfter buffer.cap buffer.bytes.length chunks := by
  induction chunks generalizing buffer with
  | nil =>
    have length := congrArg List.length stream
    simp only [chunkBytes, List.flatMap_nil, List.append_nil, List.length_append] at length
    omega
  | cons chunk rest ih =>
    have split : buffer.bytes ++ chunk.bytes ++ chunkBytes rest = head ++ body := by
      simpa [chunkBytes] using stream
    have length := congrArg List.length split
    simp only [List.length_append] at length small
    obtain ⟨next, pushed, bytes, cap, -, later⟩ := push_steady (by omega) steady
    rw [← bytes] at split
    have caps : capAfter next.cap next.bytes.length rest =
        capAfter buffer.cap buffer.bytes.length (chunk :: rest) := by
      simp [capAfter, cap, bytes]
    have headPart : head <+: head ++ body := List.prefix_append head body
    have bufferPart : next.bytes <+: head ++ body := ⟨_, split⟩
    simp only [readHead, pushed]
    by_cases complete : head.length ≤ next.bytes.length
    · obtain ⟨more, same⟩ := List.prefix_of_prefix_length_le headPart bufferPart complete
      obtain ⟨layout, parsed, consumed, inside, read⟩ := parser.parse_head isHead few more
      rw [same] at parsed
      rw [parsed]
      exact ⟨next, layout, rest, rfl, consumed, inside, read, split, complete, later, caps⟩
    · have part : next.bytes <+: head :=
        List.prefix_of_prefix_length_le bufferPart headPart (by omega)
      rw [parser.parse_part isHead few part (by omega)]
      obtain ⟨final, layout, left, found, facts⟩ := ih split (by omega) later
      rw [caps] at facts
      exact ⟨final, layout, left, found, facts⟩

/-- The rest of the session completes the body and stays in its block. -/
theorem readBody_completes (small : (head ++ body).length ≤ maxReqSize)
    (stream : buffer.bytes ++ chunkBytes chunks = head ++ body)
    (after : head.length ≤ buffer.bytes.length)
    (steady : Steady head.length buffer.cap buffer.bytes.length chunks) :
    readBody (head.length + body.length) buffer chunks = some
      { block := buffer.block
        bytes := head ++ body
        cap := capAfter buffer.cap buffer.bytes.length chunks } := by
  induction chunks generalizing buffer with
  | nil =>
    have whole : buffer.bytes = head ++ body := by simpa [chunkBytes] using stream
    have complete : ¬ buffer.bytes.length < head.length + body.length := by
      rw [whole, List.length_append]
      omega
    rw [readBody, if_neg complete, ← whole]
    rfl
  | cons chunk rest ih =>
    have split : buffer.bytes ++ chunk.bytes ++ chunkBytes rest = head ++ body := by
      simpa [chunkBytes] using stream
    have length := congrArg List.length split
    have positive := List.length_pos_of_ne_nil chunk.nonempty
    simp only [List.length_append] at length small
    have unfinished : buffer.bytes.length < head.length + body.length := by omega
    obtain ⟨next, pushed, bytes, cap, block, later⟩ := push_steady (by omega) steady
    rw [← bytes] at split
    have longer : head.length ≤ next.bytes.length := by
      rw [bytes, List.length_append]
      omega
    rw [readBody, if_pos unfinished]
    simp only [pushed]
    rw [ih split longer later, block after]
    simp [capAfter, cap, bytes]

theorem bodyOf_whole (head body : Bytes) : bodyOf (head ++ body) head.length body.length = body := by
  unfold bodyOf
  rw [List.drop_left]
  cases body with
  | nil => simp
  | cons byte rest =>
    apply List.take_of_length_le
    simp

theorem readRequest_sent (wellFormed : sent.WellFormed parser)
    (short : ShortLength sent.fields.headers sent.body.length)
    (stream : chunkBytes session = sent.bytes)
    (steady : Steady sent.head.length buffer.cap 0 session) :
    ∃ next, next.cap = capAfter buffer.cap 0 session ∧
      readRequest parser buffer session = some (next, sent.request,
        requestWantsKeepalive sent.fields.headers sent.fields.minorVersion) := by
  obtain ⟨isHead, target, announced, few, small⟩ := wellFormed
  have nonempty := List.length_pos_of_ne_nil (parser.head_nonempty isHead)
  have started : ({ buffer with bytes := [] } : Buffer).bytes ++ chunkBytes session =
      sent.head ++ sent.body := stream
  obtain ⟨next, layout, rest, found, consumed, inside, read, split, after, later, caps⟩ :=
    readHead_finds isHead few small started nonempty steady
  obtain ⟨more, same⟩ := List.prefix_of_prefix_length_le (List.prefix_append sent.head sent.body)
    ⟨_, split⟩ after
  have early : layout.fields next.bytes = sent.fields := by
    rw [← same, layout.fields_append inside consumed, read]
  have late : layout.fields (sent.head ++ sent.body) = sent.fields := by
    rw [layout.fields_append inside consumed, read]
  have short : contentLength sent.fields.headers = sent.body.length := by
    apply contentLength_announced announced short
    have bound : sent.bytes.length ≤ 8 * 1024 * 1024 := small
    simp only [Sent.bytes, List.length_append] at bound
    omega
  have minor : layout.minorVersion = sent.fields.minorVersion := by
    rw [← read]
    rfl
  have completed := readBody_completes small split after later
  refine ⟨⟨next.block, sent.head ++ sent.body, _⟩, caps, ?_⟩
  simp only [readRequest, found, early, short, consumed, Int.toNat_natCast, completed, if_true,
    late, splitTarget_isTarget target, bodyOf_whole, minor]
  rfl

/-- On a stream of well-formed requests, each of which arrives in a session of its
own and whose bodies are read without a move of the buffer, exactly the requests of
the stream are handed to the routes. -/
theorem handleConn_requests (parser : RequestParser) (routes : List Route)
    (middleware : List Middleware) (stream : List Sent) (sessions : List (List Chunk))
    (wellFormed : KeepAliveStream parser stream)
    (undisturbed : Undisturbed newBuffer.cap stream sessions) :
    handleConn parser routes middleware newBuffer sessions =
      (stream.map Sent.request).filter (handed routes middleware) := by
  generalize newBuffer = buffer at undisturbed ⊢
  induction stream generalizing sessions buffer with
  | nil =>
    cases sessions with
    | nil => rfl
    | cons session sessions =>
      obtain rfl : session = [] := undisturbed session (by simp)
      rfl
  | cons sent rest ih =>
    cases sessions with
    | nil => exact undisturbed.elim
    | cons session sessions =>
      obtain ⟨first, keeps, later⟩ := wellFormed
      obtain ⟨bytes, short, steady, undisturbed⟩ := undisturbed
      obtain ⟨next, cap, read⟩ := readRequest_sent first short bytes steady
      rw [← cap] at undisturbed
      have tail := ih sessions later next undisturbed
      have rest : (if requestWantsKeepalive sent.fields.headers sent.fields.minorVersion then
          handleConn parser routes middleware next sessions else []) =
            (rest.map Sent.request).filter (handed routes middleware) := by
        split
        · exact tail
        · rename_i closes
          have last : rest = [] := by
            by_contra more
            exact closes (keeps more)
          simp [last]
      simp only [handleConn, read, rest, List.map_cons, List.filter_cons]
      split <;> rfl

def anyRoute : List Route :=
  [⟨ascii "*", ascii "/*"⟩]

def withoutPut : List Middleware :=
  [fun request => request.method ≠ ascii "PUT"]

def postRequest : Sent where
  head := ascii "POST /p?q HTTP/1.1" ++ [13, 10] ++ ascii "Content-Length: 5" ++ [13, 10, 13, 10]
  fields :=
    { method := ascii "POST"
      target := ascii "/p?q"
      minorVersion := 1
      headers := [⟨ascii "Content-Length", ascii "5"⟩] }
  path := ascii "/p"
  query := ascii "q"
  body := ascii "hello"

def getRequest : Sent where
  head := ascii "GET /g HTTP/1.1" ++ [13, 10, 13, 10]
  fields := { method := ascii "GET", target := ascii "/g", minorVersion := 1, headers := [] }
  path := ascii "/g"
  query := []
  body := []

theorem postRequest_wellFormed : postRequest.WellFormed plainParser where
  head := ⟨by decide +kernel, _, rfl, by decide +kernel, by decide +kernel, by decide +kernel⟩
  target := by decide +kernel
  length := by decide +kernel
  fewHeaders := by decide +kernel
  small := by decide +kernel

theorem getRequest_wellFormed : getRequest.WellFormed plainParser where
  head := ⟨by decide +kernel, _, rfl, by decide +kernel, by decide +kernel, by decide +kernel⟩
  target := by decide +kernel
  length := by decide +kernel
  fewHeaders := by decide +kernel
  small := by decide +kernel

theorem twoRequests_keepAlive : KeepAliveStream plainParser [postRequest, getRequest] :=
  ⟨postRequest_wellFormed, fun _ => by decide +kernel, getRequest_wellFormed, by simp, trivial⟩

/-- The first request arrives in two chunks, the second after it was answered, and
nothing in the turn after that. -/
def separateSessions : List (List Chunk) :=
  [[⟨postRequest.bytes.take 10, .inPlace, by decide +kernel⟩,
      ⟨postRequest.bytes.drop 10, .inPlace, by decide +kernel⟩],
    [⟨getRequest.bytes, .inPlace, by decide +kernel⟩], []]

theorem separateSessions_handed :
    handleConn plainParser anyRoute withoutPut newBuffer separateSessions =
      ([postRequest, getRequest].map Sent.request).filter (handed anyRoute withoutPut) :=
  handleConn_requests plainParser anyRoute withoutPut [postRequest, getRequest] separateSessions
    twoRequests_keepAlive (by decide +kernel)

/-- Both requests arrive in one chunk. -/
def jointSessions : List (List Chunk) :=
  [[⟨postRequest.bytes ++ getRequest.bytes, .inPlace, by decide +kernel⟩], []]

theorem second_request_is_lost : KeepAliveStream plainParser [postRequest, getRequest] ∧
      jointSessions.flatMap chunkBytes = [postRequest, getRequest].flatMap Sent.bytes ∧
      ([postRequest, getRequest].map Sent.request).all (handed anyRoute withoutPut) = true ∧
      handleConn plainParser anyRoute withoutPut newBuffer jointSessions =
        [postRequest.request] :=
  ⟨twoRequests_keepAlive, by decide +kernel, by decide +kernel, by decide +kernel⟩

end Libgoc.Http.ServerRead
