import Libgoc.Http.RequestHead

namespace Libgoc.Http

open Libgoc.Data

/-! # Requests under HTTP/1.1 framing -/

def withoutCr (line : Bytes) : Bytes :=
  if line.getLast? = some 13 then line.dropLast else line

/-- The next line, ended by LF or CR and LF, and what follows it; `line` is the part
already read. -/
def readLine (line : Bytes) : Bytes → Option (Bytes × Bytes)
  | [] => none
  | byte :: rest => if byte = 10 then some (withoutCr line, rest) else readLine (line ++ [byte]) rest

/-- The lines of a head up to its blank line, and what follows it. -/
def readHead (line : Bytes) : Bytes → Option (List Bytes × Bytes)
  | [] => none
  | byte :: rest =>
    if byte = 10 then
      if withoutCr line = [] then some ([], rest)
      else (readHead [] rest).map fun (lines, body) => (withoutCr line :: lines, body)
    else readHead (line ++ [byte]) rest

def isAlpha (byte : UInt8) : Bool :=
  (65 ≤ byte && byte ≤ 90) || (97 ≤ byte && byte ≤ 122)

def isTchar (byte : UInt8) : Bool :=
  isAlpha byte || isDigit byte ||
    [33, 35, 36, 37, 38, 39, 42, 43, 45, 46, 94, 95, 96, 124, 126].contains byte

def isVisible (byte : UInt8) : Bool :=
  33 ≤ byte && byte ≤ 126

def isBlank (byte : UInt8) : Bool :=
  byte == 32 || byte == 9

/-- The bytes of a field value: no control characters but the tab. -/
def isFieldByte (byte : UInt8) : Bool :=
  byte == 9 || (32 ≤ byte && byte != 127)

def unblanked (text : Bytes) : Bytes :=
  (text.dropWhile isBlank).rdropWhile isBlank

def IsToken (text : Bytes) : Prop :=
  text ≠ [] ∧ ∀ byte ∈ text, isTchar byte = true

def IsWord (text : Bytes) : Prop :=
  text ≠ [] ∧ ∀ byte ∈ text, isVisible byte = true

def IsValue (text : Bytes) : Prop :=
  unblanked text = text ∧ ∀ byte ∈ text, isFieldByte byte = true

instance (text : Bytes) : Decidable (IsToken text) :=
  inferInstanceAs (Decidable (_ ∧ _))

instance (text : Bytes) : Decidable (IsWord text) :=
  inferInstanceAs (Decidable (_ ∧ _))

instance (text : Bytes) : Decidable (IsValue text) :=
  inferInstanceAs (Decidable (_ ∧ _))

def upTo (mark : UInt8) (text : Bytes) : Bytes :=
  text.takeWhile (· != mark)

def behind (mark : UInt8) (text : Bytes) : Bytes :=
  (text.dropWhile (· != mark)).drop 1

/-- The method and the target. -/
def requestLine (line : Bytes) : Option (Bytes × Bytes) :=
  let method := upTo 32 line
  let target := upTo 32 (behind 32 line)
  if IsToken method ∧ IsWord target ∧ behind 32 (behind 32 line) = ascii "HTTP/1.1" then
    some (method, target)
  else none

def fieldOf (line : Bytes) : Option Header :=
  let name := upTo 58 line
  let value := unblanked (behind 58 line)
  if 58 ∈ line ∧ IsToken name ∧ IsValue value then some ⟨name, value⟩ else none

def hexValue (byte : UInt8) : Option Nat :=
  if isDigit byte then some (byte.toNat - 48)
  else if 65 ≤ byte && byte ≤ 70 then some (byte.toNat - 55)
  else if 97 ≤ byte && byte ≤ 102 then some (byte.toNat - 87)
  else none

/-- The number before the extensions of a chunk. -/
def chunkSize (line : Bytes) : Option Nat :=
  let digits := (upTo 59 line).rdropWhile isBlank
  if digits = [] then none
  else digits.foldlM (fun size byte => (hexValue byte).map (size * 16 + ·)) 0

/-- The content of at most `fuel` chunks, and what follows the trailer. -/
def dechunk : Nat → Bytes → Option (Bytes × Bytes)
  | 0, _ => none
  | fuel + 1, bytes => do
    let (line, rest) ← readLine [] bytes
    let size ← chunkSize line
    if size = 0 then (readHead [] rest).map fun (_, rest) => ([], rest)
    else
      let (blank, more) ← readLine [] (rest.drop size)
      if blank = [] then (dechunk fuel more).map fun (body, last) => (rest.take size ++ body, last)
      else none

def isTransferEncoding (header : Header) : Bool :=
  sameIgnoringCase header.name "transfer-encoding"

/-- The body that the fields announce, and what follows it.  A coding takes the place
of a length, and only chunks can be decoded. -/
def framed (fields : List Header) (rest : Bytes) : Option (Bytes × Bytes) :=
  match fields.filter isTransferEncoding, fields.filter isContentLength with
  | [], [] => some ([], rest)
  | [], [length] =>
    if length.value ≠ [] ∧ length.value.all isDigit ∧ digitsValue length.value ≤ rest.length then
      some (rest.take (digitsValue length.value), rest.drop (digitsValue length.value))
    else none
  | [coding], [] =>
    if sameIgnoringCase coding.value "chunked" then dechunk rest.length rest else none
  | _, _ => none

structure Message where
  method : Bytes
  target : Bytes
  fields : List Header
  body : Bytes
  rest : Bytes
deriving Repr, DecidableEq

def receive (bytes : Bytes) : Option Message :=
  match readHead [] bytes with
  | some (line :: lines, rest) => do
    let (method, target) ← requestLine line
    let fields ← lines.mapM fieldOf
    let (body, rest) ← framed fields rest
    some { method, target, fields, body, rest }
  | _ => none

def headerLine (h : Header) : Bytes :=
  h.name ++ ascii ": " ++ h.value

/-- The lines with their ends. -/
def ended (lines : List Bytes) : Bytes :=
  (lines.map (· ++ [13, 10])).flatten

section

variable {line text bytes rest body : Bytes} {lines : List Bytes}

theorem readHead_line (plain : 10 ∉ text) (rest : Bytes) :
    readHead line (text ++ 13 :: 10 :: rest) =
      if line ++ text = [] then some ([], rest)
      else (readHead [] rest).map fun (lines, body) => ((line ++ text) :: lines, body) := by
  induction text generalizing line with
  | nil => simp [readHead, withoutCr]
  | cons byte others ih =>
    rw [List.mem_cons, not_or] at plain
    rw [List.cons_append, readHead, if_neg (Ne.symm plain.1), ih plain.2]
    simp

theorem readHead_ended (plain : ∀ line ∈ lines, 10 ∉ line ∧ line ≠ []) (body : Bytes) :
    readHead [] (ended lines ++ [13, 10] ++ body) = some (lines, body) := by
  induction lines with
  | nil => rfl
  | cons line rest ih =>
    obtain ⟨own, others⟩ := List.forall_mem_cons.mp plain
    have split : ended (line :: rest) ++ [13, 10] ++ body =
        line ++ 13 :: 10 :: (ended rest ++ [13, 10] ++ body) := by
      simp [ended]
    rw [split, readHead_line own.1, List.nil_append, if_neg own.2, ih others]
    rfl

theorem readHead_lines (started : 10 ∉ line) (found : readHead line bytes = some (lines, body)) :
    ∀ line ∈ lines, 10 ∉ line := by
  induction bytes generalizing line lines body with
  | nil => cases found
  | cons byte rest ih =>
    rw [readHead] at found
    split at found
    · split at found
      · cases found
        nofun
      · obtain ⟨⟨others, _⟩, inside, same⟩ := Option.map_eq_some_iff.mp found
        cases same
        rw [List.forall_mem_cons]
        refine ⟨?_, ih (by simp) inside⟩
        rw [withoutCr]
        split
        · exact fun member => started (List.dropLast_subset line member)
        · exact started
    · rename_i other
      exact ih (by simpa [started] using Ne.symm other) found

theorem readLine_shorter (found : readLine line bytes = some (text, rest)) :
    rest.length < bytes.length := by
  induction bytes generalizing line with
  | nil => cases found
  | cons byte others ih =>
    rw [readLine] at found
    split at found
    · cases found
      simp
    · exact Nat.lt_succ_of_lt (ih found)

theorem readHead_shorter (found : readHead line bytes = some (lines, body)) :
    body.length < bytes.length := by
  induction bytes generalizing line lines with
  | nil => cases found
  | cons byte others ih =>
    rw [readHead] at found
    split at found
    · split at found
      · cases found
        simp
      · obtain ⟨⟨_, _⟩, inside, same⟩ := Option.map_eq_some_iff.mp found
        cases same
        exact Nat.lt_succ_of_lt (ih inside)
    · exact Nat.lt_succ_of_lt (ih found)

/-- Chunks are longer than their content. -/
theorem dechunk_shorter {fuel : Nat} (found : dechunk fuel bytes = some (body, rest)) :
    body.length + rest.length < bytes.length := by
  induction fuel generalizing bytes body with
  | zero => cases found
  | succ fuel ih =>
    simp only [dechunk, Option.bind_eq_bind, Option.bind_eq_some_iff, Prod.exists] at found
    obtain ⟨line, after, first, size, -, found⟩ := found
    have shorter := readLine_shorter first
    split at found
    · obtain ⟨⟨_, _⟩, trailer, same⟩ := Option.map_eq_some_iff.mp found
      cases same
      have last := readHead_shorter trailer
      simp only [List.length_nil]
      omega
    · simp only [Option.bind_eq_some_iff, Prod.exists] at found
      obtain ⟨blank, more, second, found⟩ := found
      split at found
      · obtain ⟨⟨content, last⟩, others, same⟩ := Option.map_eq_some_iff.mp found
        obtain ⟨rfl, rfl⟩ := Prod.mk.inj same
        have tail : content.length + last.length < more.length := ih others
        have ending := readLine_shorter second
        rw [List.length_drop] at ending
        simp only [List.length_append, List.length_take]
        omega
      · cases found

theorem upTo_mark {mark : UInt8} (plain : mark ∉ text) :
    upTo mark (text ++ mark :: rest) = text ∧ behind mark (text ++ mark :: rest) = rest := by
  have apart : ∀ byte ∈ text, (byte != mark) = true := by
    intro byte member
    rw [bne_iff_ne]
    rintro rfl
    exact plain member
  rw [upTo, behind, List.takeWhile_append_of_pos apart, List.dropWhile_append_of_pos apart]
  simp

structure Header.WellFormed (header : Header) : Prop where
  name : IsToken header.name
  value : IsValue header.value

theorem token_plain {byte : UInt8} (token : IsToken text) (other : isTchar byte = false) :
    byte ∉ text := by
  intro member
  rw [token.2 byte member] at other
  cases other

theorem word_plain {byte : UInt8} (target : IsWord text) (other : isVisible byte = false) :
    byte ∉ text := by
  intro member
  rw [target.2 byte member] at other
  cases other

theorem value_plain {byte : UInt8} (value : IsValue text) (other : isFieldByte byte = false) :
    byte ∉ text := by
  intro member
  rw [value.2 byte member] at other
  cases other

theorem fieldOf_wellFormed {header : Header} (found : fieldOf line = some header) :
    header.WellFormed := by
  rw [fieldOf] at found
  split at found
  · rename_i good
    cases found
    exact ⟨good.2.1, good.2.2⟩
  · cases found

theorem fieldOf_headerLine {header : Header} (good : header.WellFormed) :
    fieldOf (headerLine header) = some header := by
  have colon : headerLine header = header.name ++ 58 :: (32 :: header.value) := by
    have literal : ascii ": " = [58, 32] := by decide +kernel
    simp [headerLine, literal]
  have plain : 58 ∉ header.name := token_plain good.name (by decide)
  have value : unblanked (32 :: header.value) = header.value := good.value.1
  rw [fieldOf, colon, (upTo_mark plain).1, (upTo_mark plain).2, value,
    if_pos ⟨by simp, good.name, good.value⟩]

theorem fields_wellFormed {fields : List Header} (found : lines.mapM fieldOf = some fields) :
    ∀ header ∈ fields, header.WellFormed := by
  induction lines generalizing fields with
  | nil =>
    cases found
    nofun
  | cons line others ih =>
    simp only [List.mapM_cons, Option.bind_eq_bind, Option.bind_eq_some_iff] at found
    obtain ⟨header, first, rest, later, same⟩ := found
    cases same
    rw [List.forall_mem_cons]
    exact ⟨fieldOf_wellFormed first, ih later⟩

theorem fields_headerLines {fields : List Header} (good : ∀ header ∈ fields, header.WellFormed) :
    (fields.map headerLine).mapM fieldOf = some fields := by
  induction fields with
  | nil => rfl
  | cons header others ih =>
    obtain ⟨own, later⟩ := List.forall_mem_cons.mp good
    rw [List.map_cons, List.mapM_cons, fieldOf_headerLine own, ih later]
    rfl

theorem requestLine_wellFormed {method target : Bytes}
    (found : requestLine line = some (method, target)) : IsToken method ∧ IsWord target := by
  rw [requestLine] at found
  split at found
  · rename_i good
    cases found
    exact ⟨good.1, good.2.1⟩
  · cases found

theorem requestLine_eq {method target : Bytes} (token : IsToken method) (visible : IsWord target) :
    requestLine (method ++ ascii " " ++ target ++ ascii " HTTP/1.1") = some (method, target) := by
  have spaces : method ++ ascii " " ++ target ++ ascii " HTTP/1.1" =
      method ++ 32 :: (target ++ 32 :: ascii "HTTP/1.1") := by
    have space : ascii " " = [32] := by decide +kernel
    have version : ascii " HTTP/1.1" = 32 :: ascii "HTTP/1.1" := by decide +kernel
    simp [space, version]
  have first : 32 ∉ method := token_plain token (by decide)
  have second : 32 ∉ target := word_plain visible (by decide)
  rw [requestLine, spaces, (upTo_mark first).1, (upTo_mark first).2, (upTo_mark second).1,
    (upTo_mark second).2, if_pos ⟨token, visible, rfl⟩]

theorem receive_some {message : Message} (received : receive bytes = some message) :
    ∃ line lines rest, readHead [] bytes = some (line :: lines, rest) ∧
      requestLine line = some (message.method, message.target) ∧
      lines.mapM fieldOf = some message.fields ∧
      framed message.fields rest = some (message.body, message.rest) := by
  rw [receive] at received
  split at received
  next line lines rest head =>
    simp only [Option.bind_eq_bind, Option.bind_eq_some_iff, Prod.exists] at received
    obtain ⟨method, target, first, fields, others, body, last, content, same⟩ := received
    cases same
    exact ⟨line, lines, rest, head, first, others, content⟩
  next => cases received

/-- A body that is all that follows the head is not in chunks. -/
theorem uncoded_of_framed {fields : List Header} (found : framed fields body = some (body, [])) :
    fields.filter isTransferEncoding = [] := by
  rw [framed] at found
  split at found
  next none _ => exact none
  next none _ => exact none
  next =>
    split at found
    · have shorter := dechunk_shorter found
      simp at shorter
    · cases found
  next => cases found

end

end Libgoc.Http
