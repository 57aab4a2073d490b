import Libgoc.Data.CString

namespace Libgoc.Http

open Libgoc.Data

/-! # The head of a response -/

structure Header where
  name : Bytes
  value : Bytes
deriving Repr, DecidableEq

structure Response where
  status : Int
  headers : List Header
deriving Repr, DecidableEq

structure Head where
  response : Response
  bodyStart : Nat
  contentLength : Int
deriving Repr, DecidableEq

/-- The number of bytes up to the end of the first blank line. -/
def findHeadEnd : Bytes → Option Nat
  | [] => none
  | byte :: rest =>
    if (byte :: rest).take 4 = [13, 10, 13, 10] then some 4
    else (findHeadEnd rest).map (· + 1)

/-- `sscanf(buf, "HTTP/%d.%d %d", ...)`; the status stays 0 when the text does not
match that far. -/
def scanStatus (buf : Bytes) : Int :=
  let text := cString buf
  if text.take 5 = ascii "HTTP/" then
    match scanLong (text.drop 5) with
    | some (_, 46 :: rest) =>
      match scanLong rest with
      | some (_, rest) =>
        match scanLong rest with
        | some (status, _) => truncateInt status
        | none => 0
      | none => 0
    | _ => 0
  else 0

def linesFrom (line : Bytes) : Bytes → List Bytes
  | [] => []
  | byte :: rest =>
    if byte = 10 then line :: linesFrom [] rest else linesFrom (line ++ [byte]) rest

/-- The header of one line, if it has a colon. -/
def headerOf (line : Bytes) : Option Header :=
  if 58 ∈ line then
    some {
      name := cString (trimRight (line.takeWhile (· != 58)))
      value := cString (trim ((line.dropWhile (· != 58)).drop 1)) }
  else none

/-- The headers of the lines after the status line. -/
def headersOf (head : Bytes) : List Header :=
  ((linesFrom [] head).drop 1).filterMap headerOf

def contentLengthOf (headers : List Header) : Int :=
  headers.foldl (fun found header =>
    if strcasecmp header.name (ascii "content-length") then atol header.value else found) (-1)

/-- What is stored for a head that ends at `bodyStart`. -/
def headAt (buf : Bytes) (bodyStart : Nat) : Head :=
  let headers := headersOf (buf.take bodyStart)
  { response := { status := scanStatus buf, headers }
    bodyStart
    contentLength := contentLengthOf headers }

/-- `parse_response_head_buf`; `none` stands for an incomplete head. -/
def parseResponseHeadBuf (buf : Bytes) : Option Head :=
  (findHeadEnd buf).map (headAt buf)

def responseHasConnectionClose (response : Response) : Bool :=
  response.headers.any fun header =>
    strcasecmp header.name (ascii "connection") && strcasecmp header.value (ascii "close")

variable {buf more : Bytes}

theorem findHeadEnd_bounds (found : findHeadEnd buf = some bodyStart) :
    4 ≤ bodyStart ∧ bodyStart ≤ buf.length := by
  induction buf generalizing bodyStart with
  | nil => cases found
  | cons byte rest ih =>
    rw [findHeadEnd] at found
    split at found
    · rename_i blank
      cases found
      have length := congrArg List.length blank
      simp only [List.length_take, List.length_cons, List.length_nil] at length ⊢
      omega
    · obtain ⟨earlier, inside, rfl⟩ := Option.map_eq_some_iff.mp found
      have bounds := ih inside
      simp only [List.length_cons]
      omega

theorem findHeadEnd_append (more : Bytes) (found : findHeadEnd buf = some bodyStart) :
    findHeadEnd (buf ++ more) = some bodyStart := by
  induction buf generalizing bodyStart with
  | nil => cases found
  | cons byte rest ih =>
    have long : 4 ≤ (byte :: rest).length := by
      obtain ⟨atLeast, atMost⟩ := findHeadEnd_bounds found
      omega
    rw [findHeadEnd] at found
    rw [List.cons_append, findHeadEnd, ← List.cons_append, List.take_append_of_le_length long]
    split at found
    · rename_i blank
      rw [if_pos blank]
      exact found
    · rename_i other
      obtain ⟨earlier, inside, rfl⟩ := Option.map_eq_some_iff.mp found
      rw [if_neg other, ih inside]
      rfl

/-- Two heads that differ in the status at most. -/
structure Head.Same (first second : Head) : Prop where
  headers : first.response.headers = second.response.headers
  bodyStart : first.bodyStart = second.bodyStart
  contentLength : first.contentLength = second.contentLength

theorem Head.Same.refl (head : Head) : head.Same head :=
  ⟨rfl, rfl, rfl⟩

theorem Head.Same.trans {first second third : Head} (same : first.Same second)
    (also : second.Same third) : first.Same third :=
  ⟨same.headers.trans also.headers, same.bodyStart.trans also.bodyStart,
    same.contentLength.trans also.contentLength⟩

/-- Bytes that follow the head can change the status only. -/
theorem parseResponseHeadBuf_append (more : Bytes) (parsed : parseResponseHeadBuf buf = some head) :
    ∃ longer, parseResponseHeadBuf (buf ++ more) = some longer ∧ head.Same longer := by
  obtain ⟨bodyStart, found, rfl⟩ := Option.map_eq_some_iff.mp parsed
  refine ⟨headAt (buf ++ more) bodyStart, ?_, ?_⟩
  · rw [parseResponseHeadBuf, findHeadEnd_append more found]
    rfl
  · have same : (buf ++ more).take bodyStart = buf.take bodyStart :=
      List.take_append_of_le_length (findHeadEnd_bounds found).2
    simp only [headAt, same]
    exact ⟨rfl, rfl, rfl⟩

end Libgoc.Http
