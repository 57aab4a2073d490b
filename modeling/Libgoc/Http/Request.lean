import Libgoc.Data.SizeT
import Libgoc.Http.Framing
import Libgoc.Schema.Paths
import Mathlib.Data.Nat.Digits.Defs

namespace Libgoc.Http.Client

open Libgoc.Data
open Libgoc.Schema (decimal decimal_digits)

/-! # The request that the client sends -/

/-- What follows the first `://`. -/
def afterScheme : Bytes → Option Bytes
  | [] => none
  | byte :: rest =>
    if (byte :: rest).take 3 = [58, 47, 47] then some (rest.drop 2) else afterScheme rest

/-- The loop that keeps the last `:`; `i` is the index of the next byte. -/
def lastColon (i : Nat) (colon : Option Nat) : Bytes → Option Nat
  | [] => colon
  | byte :: rest => lastColon (i + 1) (if byte = 58 then some i else colon) rest

structure Url where
  host : Bytes
  port : Nat
  path : Bytes
deriving Repr, DecidableEq

/-- `(uint16_t)atoi(text)` -/
def portOf (text : Bytes) : Nat :=
  (truncateInt (atol text) % 65536).toNat

def parseUrl (url : Bytes) : Option Url :=
  (afterScheme url).map fun p =>
    let authority := p.takeWhile (· != 47)
    let slash := p.dropWhile (· != 47)
    let path := if slash = [] then [47] else slash
    match lastColon 0 none authority with
    | some colon => { host := authority.take colon, port := portOf (p.drop (colon + 1)), path }
    | none => { host := authority, port := 80, path }

theorem lastColon_none {text : Bytes} {i : Nat} {colon : Option Nat} (plain : 58 ∉ text) :
    lastColon i colon text = colon := by
  induction text generalizing i with
  | nil => rfl
  | cons byte rest ih =>
    rw [List.mem_cons, not_or] at plain
    rw [lastColon, if_neg (Ne.symm plain.1), ih plain.2]

theorem lastColon_split {text : Bytes} {i : Nat} {colon : Option Nat} (before : Bytes)
    (plain : 58 ∉ text) :
    lastColon i colon (before ++ 58 :: text) = some (i + before.length) := by
  induction before generalizing i colon with
  | nil => rw [List.nil_append, lastColon, if_pos rfl, lastColon_none plain]; rfl
  | cons byte rest ih =>
    rw [List.cons_append, lastColon, ih, List.length_cons]
    congr 1
    omega

def portText : Option Bytes → Bytes
  | some digits => 58 :: digits
  | none => []

theorem isDigit_ne (digit : isDigit byte = true) : byte ≠ 47 ∧ byte ≠ 58 := by
  constructor <;> rintro rfl <;> cases digit

theorem portOf_decimal (isDecimal : IsDecimal digits number) (small : number ≤ 65535)
    (stops : ∀ byte ∈ rest.head?, isDigit byte = false) : portOf (digits ++ rest) = number := by
  rw [portOf, atol_decimal rest isDecimal (by omega) stops, truncateInt]
  rw [Int.bmod_eq_of_le_mul_two (by omega) (by omega)]
  omega

/-- A URL is taken apart exactly where a host with a colon, a bracketed IPv6
address, has a port behind it: without one its own last colon is taken for that of
a port. -/
theorem parseUrl_exact_iff (host path : Bytes) (port : Option Bytes) (isHost : 47 ∉ host)
    (isPort : ∀ digits ∈ port,
      IsDecimal digits (digitsValue digits) ∧ digitsValue digits ≤ 65535)
    (isPath : ∀ byte ∈ path.head?, byte = 47) :
    parseUrl (ascii "http://" ++ (host ++ portText port ++ path)) =
      some { host
             port := (port.map digitsValue).getD 80
             path := if path = [] then [47] else path } ↔
    (58 ∈ host → port.isSome = true) := by
  have scheme : ∀ p, afterScheme (ascii "http://" ++ p) = some p := by
    intro p
    have text : ascii "http://" = [104, 116, 116, 112, 58, 47, 47] := by decide +kernel
    simp [text, afterScheme]
  have plain : ∀ byte ∈ host ++ portText port, (byte != 47) = true := by
    intro byte member
    simp only [bne_iff_ne]
    rintro rfl
    obtain inHost | inPort := List.mem_append.mp member
    · exact isHost inHost
    · cases port with
      | none => cases inPort
      | some digits =>
        obtain other | inDigits := List.mem_cons.mp inPort
        · cases other
        · exact (isDigit_ne ((isPort digits rfl).1.2.1 47 inDigits)).1 rfl
  have ended : path.takeWhile (· != 47) = [] ∧ path.dropWhile (· != 47) = path := by
    cases path with
    | nil => exact ⟨rfl, rfl⟩
    | cons byte rest =>
      obtain rfl := isPath byte rfl
      exact ⟨rfl, rfl⟩
  have authority : (host ++ portText port ++ path).takeWhile (· != 47) = host ++ portText port := by
    rw [List.takeWhile_append_of_pos plain, ended.1, List.append_nil]
  have slash : (host ++ portText port ++ path).dropWhile (· != 47) = path := by
    rw [List.dropWhile_append_of_pos plain, ended.2]
  rw [parseUrl, scheme, Option.map_some, Option.some.injEq]
  simp only [authority, slash]
  cases port with
  | some digits =>
    obtain ⟨isDecimal, small⟩ := isPort digits rfl
    have colonless : 58 ∉ digits := fun member => (isDigit_ne (isDecimal.2.1 58 member)).2 rfl
    have stops : ∀ byte ∈ path.head?, isDigit byte = false := by
      intro byte first
      obtain rfl := isPath byte first
      rfl
    have number := portOf_decimal isDecimal small stops
    simp [portText, lastColon_split host colonless, number]
  | none =>
    simp only [portText, List.append_nil, Option.isSome_none, Bool.false_eq_true, imp_false]
    by_cases colon : 58 ∈ host
    · obtain ⟨after, before, reversed, plain⟩ :=
        List.eq_append_cons_of_mem (List.mem_reverse.mpr colon)
      have split : host = before.reverse ++ 58 :: after.reverse := by
        rw [← List.reverse_reverse host, reversed]
        simp
      rw [split, lastColon_split _ (by simpa using plain)]
      simp
    · simp [lastColon_none colon, colon]

theorem parseUrl_bracketed_with_port :
    parseUrl (ascii "http://" ++ (ascii "[::1]" ++ portText (some (ascii "8080")) ++ ascii "/x")) =
      some { host := ascii "[::1]", port := 8080, path := ascii "/x" } := by
  have number : digitsValue (ascii "8080") = 8080 := by decide +kernel
  have exact := (parseUrl_exact_iff (ascii "[::1]") (ascii "/x") (some (ascii "8080"))
    (by decide +kernel) (by decide +kernel) (by decide +kernel)).mpr fun _ => rfl
  rw [exact, Option.map_some, number]
  rfl

theorem parseUrl_bracketed_cut :
    parseUrl (ascii "http://" ++ (ascii "[::1]" ++ portText none ++ ascii "/x")) =
      some { host := ascii "[:", port := 1, path := ascii "/x" } := by
  decide +kernel

structure Request where
  method : Bytes
  host : Bytes
  pq : Bytes
  ct : Option Bytes
  body : Bytes
  keepAlive : Bool
  extraHdrs : List (Option Header)
deriving Repr, DecidableEq

/-- Neither the name nor the value has a CR or LF. -/
def accepts (h : Header) : Bool :=
  !(h.name.contains 13 || h.name.contains 10 || h.value.contains 13 || h.value.contains 10)

namespace Request

variable (request : Request)

def accepted : List Header :=
  request.extraHdrs.filterMap fun h => h.filter accepts

def size : Nat :=
  request.method.length + request.pq.length + request.host.length + 256 +
    (match request.ct with
      | some ct => ct.length + 40
      | none => 0) +
    request.body.length +
    (request.extraHdrs.map fun
      | some h => h.name.length + h.value.length + 4
      | none => 0).sum

def cap : Nat :=
  sizeT request.size

def firstLines : List Bytes :=
  [request.method ++ ascii " " ++ request.pq ++ ascii " HTTP/1.1",
    ascii "Host: " ++ request.host,
    ascii "Connection: " ++ ascii (if request.keepAlive then "keep-alive" else "close")]

def contentLines : List Bytes :=
  match request.ct with
  | some ct =>
    if 0 < request.body.length then
      [ascii "Content-Type: " ++ ct, ascii "Content-Length: " ++ decimal request.body.length]
    else []
  | none => []

def lines : List Bytes :=
  request.firstLines ++ request.contentLines ++ request.accepted.map headerLine

/-- What is formatted by one call of `snprintf` each. -/
def texts : List Bytes :=
  [ended request.firstLines] ++
    (if request.contentLines = [] then [] else [ended request.contentLines]) ++
    request.accepted.map (fun h => ended [headerLine h]) ++ [[13, 10]]

end Request

/-- `snprintf` behind what is in the buffer.  It fails on a text that is longer than
an `int` can say; of a text that does not fit a part is missing, but counted. -/
def append (cap : Nat) (buf text : Bytes) : Option Bytes :=
  if text.length ≤ 2147483647 ∧ buf.length + text.length < cap then some (buf ++ text) else none

/-- `none` where the bytes that are counted are not those that were written. -/
def buildRequest (request : Request) : Option Bytes :=
  (request.texts.foldlM (append request.cap) []).bind fun buf =>
    if buf.length + request.body.length ≤ request.cap then some (buf ++ request.body) else none

/-- The request of the fiber, unless the URL is refused. -/
def gocHttpRequest (method url : Bytes) (contentType : Option Bytes) (body : Bytes)
    (keepAlive : Bool) (headers : List (Option Header)) : Option Request :=
  (parseUrl url).map fun target =>
    { method, host := target.host, pq := target.path, ct := contentType, body, keepAlive
      extraHdrs := headers }

theorem append_all_iff : texts.foldlM (append cap) buf = some out ↔
    (∀ text ∈ texts, text.length ≤ 2147483647) ∧ (texts ≠ [] → out.length < cap) ∧
      out = buf ++ texts.flatten := by
  induction texts generalizing buf with
  | nil => simp [eq_comm]
  | cons text rest ih =>
    rw [List.foldlM_cons, append]
    split
    · rename_i fits
      simp only [Option.bind_eq_bind, Option.bind_some, ih]
      simp only [List.forall_mem_cons, fits.1, true_and, List.flatten_cons, List.append_assoc]
      apply and_congr_right
      intro short
      constructor
      · rintro ⟨bounded, same⟩
        refine ⟨fun _ => ?_, same⟩
        by_cases empty : rest = []
        · simpa [same, empty] using fits.2
        · exact bounded empty
      · rintro ⟨bounded, same⟩
        exact ⟨fun _ => bounded nofun, same⟩
    · rename_i unfit
      simp only [Option.bind_eq_bind, Option.bind_none, reduceCtorEq, false_iff]
      rintro ⟨short, bounded, same⟩
      have limit := bounded nofun
      rw [same] at limit
      simp only [List.flatten_cons, List.length_append] at limit
      exact unfit ⟨short text (by simp), by omega⟩

theorem ended_append : ended (left ++ right) = ended left ++ ended right := by
  simp [ended]

theorem texts_flatten (request : Request) :
    request.texts.flatten = ended request.lines ++ [13, 10] := by
  have content : (if request.contentLines = [] then [] else [ended request.contentLines]).flatten =
      ended request.contentLines := by
    split
    · rename_i empty
      rw [empty]
      rfl
    · simp
  have extra : (request.accepted.map fun h => ended [headerLine h]).flatten =
      ended (request.accepted.map headerLine) := by
    simp [ended, Function.comp_def]
  simp only [Request.texts, Request.lines, List.flatten_append, content, extra, ended_append]
  simp

/-- `snprintf` can return the length of every text, and the head and the body fit the
size, as far as `size_t` counts it. -/
structure Request.Written (request : Request) : Prop where
  short : ∀ text ∈ request.texts, text.length ≤ 2147483647
  head : (ended request.lines).length + 2 < request.cap
  body : (ended request.lines).length + 2 + request.body.length ≤ request.cap

theorem buildRequest_iff {request : Request} : buildRequest request = some bytes ↔
    request.Written ∧ bytes = ended request.lines ++ [13, 10] ++ request.body := by
  rw [buildRequest, Option.bind_eq_some_iff]
  have filled : request.texts ≠ [] := by simp [Request.texts]
  constructor
  · rintro ⟨buf, formatted, copied⟩
    obtain ⟨short, bounded, same⟩ := append_all_iff.mp formatted
    rw [texts_flatten, List.nil_append] at same
    have room := bounded filled
    split at copied
    · rename_i fits
      cases copied
      rw [same] at room fits ⊢
      exact ⟨⟨short, by simpa using room, by simpa using fits⟩, rfl⟩
    · cases copied
  · rintro ⟨written, same⟩
    refine ⟨ended request.lines ++ [13, 10], append_all_iff.mpr ⟨written.short, fun _ => ?_, ?_⟩, ?_⟩
    · simpa using written.head
    · rw [texts_flatten, List.nil_append]
    · rw [if_pos (by simpa using written.body), same]

theorem lines_filled (request : Request) : ∀ line ∈ request.lines, line ≠ [] := by
  have filled : ∀ literal : String, ascii literal ≠ [] → ∀ text, ascii literal ++ text ≠ [] := by
    intro literal filled text
    simp [filled]
  intro line member
  simp only [Request.lines, Request.firstLines, List.mem_append, List.mem_cons, List.not_mem_nil,
    or_false, List.mem_map] at member
  obtain ((rfl | rfl | rfl) | content) | ⟨header, -, rfl⟩ := member
  · have ends : ascii " HTTP/1.1" ≠ [] := by decide +kernel
    simp [ends]
  · exact filled _ (by decide +kernel) _
  · exact filled _ (by decide +kernel) _
  · rw [Request.contentLines] at content
    split at content
    · split at content
      · simp only [List.mem_cons, List.not_mem_nil, or_false] at content
        obtain rfl | rfl := content
        · exact filled _ (by decide +kernel) _
        · exact filled _ (by decide +kernel) _
      · cases content
    · cases content
  · have colon : ascii ": " ≠ [] := by decide +kernel
    simp [headerLine, colon]

/-- The texts of a request have no line end in them. -/
def Request.Unbroken (request : Request) : Prop :=
  10 ∉ request.method ∧ 10 ∉ request.host ∧ 10 ∉ request.pq ∧
    (request.body ≠ [] → ∀ ct ∈ request.ct, 10 ∉ ct)

instance (request : Request) : Decidable request.Unbroken :=
  inferInstanceAs (Decidable (_ ∧ _))

theorem accepted_plain {request : Request} (member : header ∈ request.accepted) :
    10 ∉ header.name ∧ 10 ∉ header.value := by
  obtain ⟨h, -, kept⟩ := List.mem_filterMap.mp member
  have passes : accepts header = true := (Option.filter_eq_some_iff.mp kept).2
  simp only [accepts, Bool.not_eq_true', Bool.or_eq_false_iff, List.contains_eq_mem,
    decide_eq_false_iff_not] at passes
  exact ⟨passes.1.1.2, passes.2⟩

theorem unbroken_iff {request : Request} :
    request.Unbroken ↔ ∀ line ∈ request.lines, 10 ∉ line := by
  have first : (∀ line ∈ request.firstLines, 10 ∉ line) ↔
      10 ∉ request.method ∧ 10 ∉ request.pq ∧ 10 ∉ request.host := by
    have version : 10 ∉ ascii " HTTP/1.1" := by decide +kernel
    have space : 10 ∉ ascii " " := by decide +kernel
    have host : 10 ∉ ascii "Host: " := by decide +kernel
    have connection : 10 ∉ ascii "Connection: " := by decide +kernel
    have choice : 10 ∉ ascii (if request.keepAlive then "keep-alive" else "close") := by
      cases request.keepAlive <;> decide +kernel
    simp [Request.firstLines, version, space, host, connection, choice, and_assoc]
  have content : (∀ line ∈ request.contentLines, 10 ∉ line) ↔
      (request.body ≠ [] → ∀ ct ∈ request.ct, 10 ∉ ct) := by
    have type : 10 ∉ ascii "Content-Type: " := by decide +kernel
    have length : 10 ∉ ascii "Content-Length: " := by decide +kernel
    have number : 10 ∉ decimal request.body.length := by
      intro member
      exact absurd ((decimal_digits _).1 10 member) (by decide)
    cases ct : request.ct <;> cases body : request.body <;>
      simp_all [Request.contentLines]
  have extra : ∀ line ∈ request.accepted.map headerLine, 10 ∉ line := by
    intro line member
    obtain ⟨header, accepted, rfl⟩ := List.mem_map.mp member
    obtain ⟨name, value⟩ := accepted_plain accepted
    have colon : 10 ∉ ascii ": " := by decide +kernel
    simp [headerLine, name, value, colon]
  simp only [Request.Unbroken, Request.lines, List.forall_mem_append, first, content]
  constructor
  · rintro ⟨method, host, path, type⟩
    exact ⟨⟨⟨method, path, host⟩, type⟩, extra⟩
  · rintro ⟨⟨⟨method, path, host⟩, type⟩, _⟩
    exact ⟨method, host, path, type⟩

/-- A request is sent whose head has the lines that `build_request` is to write, and the
body behind it, exactly where no line end is in the method, in the host and the path
of the URL, and in a content type that is sent, and the lengths are not too large;
extra headers cannot add a line. -/
theorem sent_lines_iff (method url : Bytes) (contentType : Option Bytes) (body : Bytes)
    (keepAlive : Bool) (headers : List (Option Header)) (request : Request)
    (made : gocHttpRequest method url contentType body keepAlive headers = some request) :
    (∃ bytes, buildRequest request = some bytes ∧
      readHead [] bytes = some (request.lines, body)) ↔
    request.Unbroken ∧ request.Written := by
  obtain ⟨target, -, rfl⟩ := Option.map_eq_some_iff.mp made
  rw [unbroken_iff]
  constructor
  · rintro ⟨bytes, sent, read⟩
    exact ⟨readHead_lines (by simp) read, (buildRequest_iff.mp sent).1⟩
  · rintro ⟨plain, written⟩
    refine ⟨_, buildRequest_iff.mpr ⟨written, rfl⟩, ?_⟩
    exact readHead_ended (fun line member => ⟨plain line member, lines_filled _ line member⟩) body

/-- A second header with a line end in its value. -/
def forged : Request where
  method := ascii "GET"
  host := ascii "a"
  pq := ascii "/b"
  ct := none
  body := []
  keepAlive := false
  extraHdrs := [some ⟨ascii "X", ascii "1"⟩, some ⟨ascii "Y", ascii "2\r\nZ: 3"⟩]

theorem forged_lines : ∃ bytes, buildRequest forged = some bytes ∧
    readHead [] bytes = some (forged.lines, []) :=
  (sent_lines_iff (ascii "GET") (ascii "http://a/b") none [] false forged.extraHdrs forged
    (by decide +kernel)).mpr ⟨by decide +kernel, by decide +kernel, by decide +kernel,
      by decide +kernel⟩

theorem path_adds_line : ∃ request bytes,
    gocHttpRequest (ascii "GET") (ascii "http://a/ HTTP/1.1\r\nX: 1") none [] false [] =
      some request ∧
    buildRequest request = some bytes ∧ readHead [] bytes =
      some ([ascii "GET / HTTP/1.1", ascii "X: 1 HTTP/1.1", ascii "Host: a",
        ascii "Connection: close"], []) :=
  ⟨⟨ascii "GET", ascii "a", ascii "/ HTTP/1.1\r\nX: 1", none, [], false, []⟩,
    ascii "GET / HTTP/1.1\r\nX: 1 HTTP/1.1\r\nHost: a\r\nConnection: close\r\n\r\n",
    by decide +kernel, by decide +kernel, by decide +kernel⟩

namespace Request

variable (request : Request)

def firstFields : List Header :=
  [⟨ascii "Host", request.host⟩,
    ⟨ascii "Connection", ascii (if request.keepAlive then "keep-alive" else "close")⟩]

def lengthField : Header :=
  ⟨ascii "Content-Length", decimal request.body.length⟩

/-- What is to be received: the type of the content if one is given, the length of a
body that is not empty, and all extra headers. -/
def message : Message where
  method := request.method
  target := request.pq
  fields := request.firstFields ++ (request.ct.toList.map (⟨ascii "Content-Type", ·⟩) ++
    if request.body = [] then [] else [request.lengthField]) ++ request.extraHdrs.filterMap id
  body := request.body
  rest := []

/-- The parts have the form that a request line and a field have, and no extra header
is a coding of the body. -/
structure Expressible : Prop where
  method : IsToken request.method
  path : IsWord request.pq
  host : IsValue request.host
  type : ∀ ct ∈ request.ct, IsValue ct
  extra : ∀ h, some h ∈ request.extraHdrs →
    IsToken h.name ∧ IsValue h.value ∧ isTransferEncoding h = false

/-- Lengths that `snprintf` can return and `size_t` can hold. -/
def Fits : Prop :=
  (∀ text ∈ request.texts, text.length ≤ 2147483647) ∧ request.size < 2 ^ 64

end Request

variable {request : Request}

def Request.sentFields (request : Request) : List Header :=
  request.firstFields ++ (if request.body = [] then []
    else request.ct.toList.flatMap fun ct => [⟨ascii "Content-Type", ct⟩, request.lengthField]) ++
    request.accepted

theorem headerLine_literal {name : Bytes} (literal : String) (split : ascii literal = name ++ ascii ": ")
    (value : Bytes) : ascii literal ++ value = headerLine ⟨name, value⟩ := by
  rw [split, headerLine]

theorem Request.lines_eq (request : Request) :
    request.lines = (request.method ++ ascii " " ++ request.pq ++ ascii " HTTP/1.1") ::
      request.sentFields.map headerLine := by
  have host := @headerLine_literal (ascii "Host") "Host: " (by decide +kernel)
  have connection := @headerLine_literal (ascii "Connection") "Connection: " (by decide +kernel)
  have type := @headerLine_literal (ascii "Content-Type") "Content-Type: " (by decide +kernel)
  have length := @headerLine_literal (ascii "Content-Length") "Content-Length: " (by decide +kernel)
  have content : request.contentLines = (if request.body = [] then []
      else request.ct.toList.flatMap fun ct =>
        [⟨ascii "Content-Type", ct⟩, request.lengthField]).map headerLine := by
    rw [Request.contentLines]
    cases request.ct <;> cases body : request.body <;>
      simp [type, length, Request.lengthField, body]
  rw [Request.lines, Request.firstLines, content, host, connection, Request.sentFields]
  simp [Request.firstFields]

theorem decimal_wellFormed (number : Nat) :
    Header.WellFormed ⟨ascii "Content-Length", decimal number⟩ := by
  obtain ⟨digits, filled, -⟩ := decimal_digits number
  have unblank : ∀ byte ∈ decimal number, isBlank byte = false ∧ isFieldByte byte = true := by
    intro byte member
    have digit := digits byte member
    simp only [isDigit, Bool.and_eq_true, decide_eq_true_eq, UInt8.le_iff_toNat_le] at digit
    have low : 48 ≤ byte.toNat := digit.1
    have high : byte.toNat ≤ 57 := digit.2
    have other : ∀ code : UInt8, code.toNat < 48 ∨ 57 < code.toNat → byte ≠ code := by
      rintro code far rfl
      omega
    simp [isBlank, isFieldByte, UInt8.le_iff_toNat_le, other 32 (by decide), other 9 (by decide),
      other 127 (by decide)]
    exact Nat.le_trans (by decide) low
  have name : IsToken (ascii "Content-Length") := by decide +kernel
  refine ⟨name, ?_, fun byte member => (unblank byte member).2⟩
  have start : (decimal number).dropWhile isBlank = decimal number := by
    rw [List.dropWhile_eq_self_iff]
    intro nonempty
    simp [(unblank _ (List.getElem_mem nonempty)).1]
  rw [unblanked, start, List.rdropWhile_eq_self_iff]
  intro nonempty
  simp [(unblank _ (List.getLast_mem nonempty)).1]

theorem message_wellFormed (received : receive bytes = some request.message) :
    IsToken request.method ∧ IsWord request.pq ∧
      ∀ header ∈ request.message.fields, header.WellFormed := by
  obtain ⟨line, lines, rest, -, first, others, -⟩ := receive_some received
  obtain ⟨token, word⟩ := requestLine_wellFormed first
  exact ⟨token, word, fields_wellFormed others⟩

theorem wellFormed_accepts (good : header.WellFormed) : accepts header = true := by
  simp [accepts, token_plain good.name (show isTchar 13 = false by decide),
    token_plain good.name (show isTchar 10 = false by decide),
    value_plain good.value (show isFieldByte 13 = false by decide),
    value_plain good.value (show isFieldByte 10 = false by decide)]

theorem accepted_all (good : ∀ header ∈ request.message.fields, header.WellFormed) :
    request.accepted = request.extraHdrs.filterMap id := by
  apply List.filterMap_congr
  intro h member
  cases h with
  | none => rfl
  | some h =>
    apply Option.filter_some_pos
    apply wellFormed_accepts
    apply good
    simp only [Request.message, List.mem_append, List.mem_filterMap]
    exact .inr ⟨some h, member, rfl⟩

theorem sent_wellFormed (good : ∀ header ∈ request.message.fields, header.WellFormed) :
    ∀ header ∈ request.sentFields, header.WellFormed := by
  intro header member
  rw [Request.sentFields, accepted_all good, List.mem_append, List.mem_append] at member
  obtain (first | content) | extra := member
  · exact good header (by simp [Request.message, first])
  · split at content
    · cases content
    · obtain ⟨ct, given, inside⟩ := List.mem_flatMap.mp content
      simp only [List.mem_cons, List.not_mem_nil, or_false] at inside
      obtain rfl | rfl := inside
      · exact good _ (by simp [Request.message, Option.mem_toList.mp given])
      · exact decimal_wellFormed _
  · exact good header (List.mem_append_right _ extra)

/-- What is received of a request whose parts are well formed. -/
theorem receive_sent (token : IsToken request.method) (word : IsWord request.pq)
    (good : ∀ header ∈ request.message.fields, header.WellFormed) :
    receive (ended request.lines ++ [13, 10] ++ request.body) =
      (framed request.sentFields request.body).map fun (body, rest) =>
        { method := request.method, target := request.pq, fields := request.sentFields, body
          rest } := by
  have sent := sent_wellFormed good
  have plain : ∀ line ∈ request.lines, 10 ∉ line := by
    rw [← unbroken_iff]
    refine ⟨token_plain token (by decide), ?_, word_plain word (by decide), fun _ ct given => ?_⟩
    · have host := good ⟨ascii "Host", request.host⟩ (by simp [Request.message, Request.firstFields])
      exact value_plain host.value (by decide)
    · have type := good ⟨ascii "Content-Type", ct⟩ (by simp [Request.message, Option.mem_def.mp given])
      exact value_plain type.value (by decide)
  have read := readHead_ended (fun line member =>
    ⟨plain line member, lines_filled request line member⟩) request.body
  rw [receive, read, request.lines_eq]
  simp only [requestLine_eq token word, fields_headerLines sent, Option.bind_eq_bind,
    Option.bind_some]
  cases framed request.sentFields request.body <;> rfl

@[simp] theorem ended_nil : ended [] = [] :=
  rfl

theorem ended_cons_length : (ended (line :: lines)).length = line.length + 2 + (ended lines).length := by
  simp [ended]
  omega

theorem extra_length (list : List (Option Header)) :
    (ended ((list.filterMap id).map headerLine)).length = (list.map fun
      | some h => h.name.length + h.value.length + 4
      | none => 0).sum := by
  have colon : (ascii ": ").length = 2 := by decide +kernel
  induction list with
  | nil => rfl
  | cons first rest ih =>
    cases first with
    | none => simpa using ih
    | some h =>
      have same : (some h :: rest).filterMap id = h :: rest.filterMap id := rfl
      simp only [same, List.map_cons, List.sum_cons, ended_cons_length, ih, headerLine,
        List.length_append, colon]
      omega

theorem decimal_length (bound : number < 2 ^ 64) : (decimal number).length ≤ 20 := by
  rw [decimal, List.length_map]
  exact Nat.toDigits_length 10 number 20 (by decide) (by omega)

/-- The computed size leaves room for the text, and a sum that wraps does not. -/
theorem Request.size_bounds (all : request.accepted = request.extraHdrs.filterMap id)
    (typed : request.ct.isSome ↔ request.body ≠ []) :
    request.size ≤ (ended request.lines).length + request.body.length + 300 ∧
      (request.body.length < 2 ^ 64 →
        (ended request.lines).length + request.body.length + 2 < request.size) := by
  have first : (ended request.firstLines).length ≤
        request.method.length + request.pq.length + request.host.length + 60 ∧
      request.method.length + request.pq.length + request.host.length ≤
        (ended request.firstLines).length := by
    have literals : (ascii " ").length = 1 ∧ (ascii " HTTP/1.1").length = 9 ∧
        (ascii "Host: ").length = 6 ∧ (ascii "Connection: ").length = 12 := by decide +kernel
    have choice : (ascii (if request.keepAlive then "keep-alive" else "close")).length ≤ 10 := by
      cases request.keepAlive <;> decide +kernel
    simp only [Request.firstLines, ended_cons_length, List.length_append, literals]
    simp only [ended_nil, List.length_nil]
    omega
  have content : (match request.ct with
        | some ct => ct.length + 40
        | none => 0) ≤ (ended request.contentLines).length + 40 ∧
      (request.body.length < 2 ^ 64 → (ended request.contentLines).length ≤ (match request.ct with
        | some ct => ct.length + 40
        | none => 0) + 14) := by
    have literals : (ascii "Content-Type: ").length = 14 ∧ (ascii "Content-Length: ").length = 16 := by
      decide +kernel
    rw [Request.contentLines]
    cases type : request.ct with
    | none => exact ⟨Nat.zero_le _, fun _ => Nat.zero_le _⟩
    | some ct =>
      have filled : 0 < request.body.length :=
        List.length_pos_of_ne_nil (typed.mp (by simp [type]))
      simp only [if_pos filled, ended_cons_length, List.length_append, literals]
      refine ⟨by omega, fun bound => ?_⟩
      have digits := decimal_length bound
      simp only [ended_nil, List.length_nil]
      omega
  have extra := extra_length request.extraHdrs
  rw [Request.lines, all, ended_append, ended_append, List.length_append, List.length_append,
    Request.size, extra]
  constructor
  · omega
  · intro bound
    have room := content.2 bound
    omega

theorem lengthField_framed {fields : List Header}
    (uncoded : fields.filter isTransferEncoding = [])
    (single : fields.filter isContentLength =
      if request.body = [] then [] else [request.lengthField]) :
    framed fields request.body = some (request.body, []) := by
  rw [framed, uncoded, single]
  by_cases empty : request.body = []
  · simp [empty]
  · obtain ⟨digits, nonempty, value⟩ := decimal_digits request.body.length
    simp only [if_neg empty, Request.lengthField, value]
    rw [if_pos ⟨nonempty, by simpa using digits, Nat.le_refl _⟩, List.take_length, List.drop_length]

/-- Under the condition on type and body the request is sent with all its fields. -/
theorem sentFields_eq_iff (all : request.accepted = request.extraHdrs.filterMap id) :
    request.sentFields = request.message.fields ↔ (request.ct.isSome ↔ request.body ≠ []) := by
  rw [Request.sentFields, Request.message, all, List.append_left_inj, List.append_right_inj]
  cases request.ct <;> cases request.body <;> simp

/-- Of the fields only the length and the extra headers can have another name. -/
theorem filter_fields (literal : String)
    (known : ∀ name ∈ ["Host", "Connection", "Content-Type"],
      sameIgnoringCase (ascii name) literal = false)
    (extra : ∀ h, some h ∈ request.extraHdrs → sameIgnoringCase h.name literal = false) :
    request.message.fields.filter (fun h => sameIgnoringCase h.name literal) =
      (if request.body = [] then [] else [request.lengthField]).filter
        fun h => sameIgnoringCase h.name literal := by
  simp only [List.forall_mem_cons, List.not_mem_nil, false_implies, implies_true, and_true] at known
  have types : (request.ct.toList.map (Header.mk (ascii "Content-Type"))).filter
      (fun h => sameIgnoringCase h.name literal) = [] := by
    cases request.ct <;> simp [known]
  simpa [Request.message, Request.firstFields, List.filter_append, known, types] using extra

/-- A request is received as it was given exactly where a content type is given with a
body and only then, its parts can be said in HTTP, and its texts are not too long. -/
theorem request_framed_iff (request : Request)
    (unannounced : ∀ h, some h ∈ request.extraHdrs → isContentLength h = false) :
    (∃ bytes, buildRequest request = some bytes ∧ bytes.length ≤ request.cap ∧
      receive bytes = some request.message) ↔
    (request.ct.isSome ↔ request.body ≠ []) ∧ request.Expressible ∧ request.Fits := by
  constructor
  · rintro ⟨bytes, built, inside, received⟩
    obtain ⟨written, rfl⟩ := buildRequest_iff.mp built
    obtain ⟨token, word, good⟩ := message_wellFormed received
    have all := accepted_all good
    rw [receive_sent token word good, Option.map_eq_some_iff] at received
    obtain ⟨⟨body, rest⟩, divided, same⟩ := received
    have fields : request.sentFields = request.message.fields := congrArg Message.fields same
    obtain rfl : body = request.body := congrArg Message.body same
    obtain rfl : rest = [] := congrArg Message.rest same
    have typed := (sentFields_eq_iff all).mp fields
    have uncoded := uncoded_of_framed divided
    rw [fields, List.filter_eq_nil_iff] at uncoded
    refine ⟨typed, ⟨token, word, ?_, ?_, ?_⟩, written.short, ?_⟩
    · exact (good ⟨ascii "Host", request.host⟩ (by simp [Request.message, Request.firstFields])).value
    · intro ct given
      exact (good ⟨ascii "Content-Type", ct⟩ (by simp [Request.message, Option.mem_def.mp given])).value
    · intro h member
      have carried : h ∈ request.message.fields := by
        simp only [Request.message, List.mem_append, List.mem_filterMap]
        exact .inr ⟨some h, member, rfl⟩
      exact ⟨(good h carried).name, (good h carried).value, by simpa using uncoded h carried⟩
    · have bound := (request.size_bounds all typed).1
      have room := written.body
      rw [Request.cap, sizeT] at room
      omega
  · rintro ⟨typed, expressible, short, bounded⟩
    have good : ∀ header ∈ request.message.fields, header.WellFormed := by
      intro header member
      simp only [Request.message, Request.firstFields, List.mem_append, List.mem_cons,
        List.not_mem_nil, or_false, List.mem_map, List.mem_filterMap, id] at member
      obtain ((rfl | rfl) | (⟨ct, given, rfl⟩ | content)) | ⟨_, given, rfl⟩ := member
      · exact ⟨show IsToken (ascii "Host") by decide +kernel, expressible.host⟩
      · cases request.keepAlive <;> exact ⟨by decide +kernel, by decide +kernel⟩
      · exact ⟨show IsToken (ascii "Content-Type") by decide +kernel,
          expressible.type ct (Option.mem_toList.mp given)⟩
      · split at content
        · cases content
        · obtain rfl := List.mem_singleton.mp content
          exact decimal_wellFormed _
      · exact ⟨(expressible.extra header given).1, (expressible.extra header given).2.1⟩
    have all := accepted_all good
    have small : request.body.length < 2 ^ 64 := by
      rw [Request.size] at bounded
      omega
    have room := (request.size_bounds all typed).2 small
    have whole : request.cap = request.size := sizeT_of_lt bounded
    have written : request.Written := ⟨short, by omega, by omega⟩
    refine ⟨_, buildRequest_iff.mpr ⟨written, rfl⟩, ?_, ?_⟩
    · have fits := written.body
      simp only [List.length_append, List.length_cons, List.length_nil]
      omega
    · rw [receive_sent expressible.method expressible.path good, (sentFields_eq_iff all).mpr typed,
        lengthField_framed]
      · rfl
      · refine (filter_fields "transfer-encoding" (by decide +kernel)
          fun h member => (expressible.extra h member).2.2).trans ?_
        split <;> rfl
      · refine (filter_fields "content-length" (by decide +kernel) unannounced).trans ?_
        split <;> rfl

/-- A request with a body of three bytes. -/
def posted : Request where
  method := ascii "POST"
  host := ascii "a"
  pq := ascii "/b"
  ct := some (ascii "text/plain")
  body := ascii "abc"
  keepAlive := true
  extraHdrs := [some ⟨ascii "X", ascii "1"⟩]

theorem posted_framed : ∃ bytes, buildRequest posted = some bytes ∧ bytes.length ≤ posted.cap ∧
    receive bytes = some posted.message :=
  (request_framed_iff posted (by simp [posted]; decide +kernel)).mpr
    ⟨by decide +kernel,
      { method := by decide +kernel
        path := by decide +kernel
        host := by decide +kernel
        type := by decide +kernel
        extra := by simp [posted]; decide +kernel },
      by decide +kernel, by decide +kernel⟩

theorem untyped_body_unframed :
    ({ posted with ct := none } : Request).body = ascii "abc" ∧
    ∃ bytes message, buildRequest { posted with ct := none } = some bytes ∧
      receive bytes = some message ∧ message.body = [] ∧ message.rest = ascii "abc" :=
  ⟨rfl, ascii "POST /b HTTP/1.1\r\nHost: a\r\nConnection: keep-alive\r\nX: 1\r\n\r\nabc",
    { method := ascii "POST", target := ascii "/b"
      fields := [⟨ascii "Host", ascii "a"⟩, ⟨ascii "Connection", ascii "keep-alive"⟩,
        ⟨ascii "X", ascii "1"⟩]
      body := [], rest := ascii "abc" },
    by decide +kernel, by decide +kernel, rfl, rfl⟩

end Libgoc.Http.Client
