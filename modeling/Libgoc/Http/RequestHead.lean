import Libgoc.Http.ResponseHead

namespace Libgoc.Http

open Libgoc.Data

/-! # The head of a request -/

structure Slice where
  offset : Nat
  length : Nat
deriving Repr, DecidableEq

def Slice.read (slice : Slice) (buf : Bytes) : Bytes :=
  (buf.drop slice.offset).take slice.length

structure Fields where
  method : Bytes
  target : Bytes
  minorVersion : Int
  headers : List Header
deriving Repr, DecidableEq

/-- The results of `phr_parse_request` for a complete head. -/
structure Layout where
  method : Slice
  path : Slice
  minorVersion : Int
  headers : List (Slice × Slice)
  consumed : Nat
deriving Repr, DecidableEq

def Layout.fields (layout : Layout) (buf : Bytes) : Fields where
  method := layout.method.read buf
  target := layout.path.read buf
  minorVersion := layout.minorVersion
  headers := layout.headers.map fun header => ⟨header.1.read buf, header.2.read buf⟩

def Layout.Inside (layout : Layout) : Prop :=
  layout.method.offset + layout.method.length ≤ layout.consumed ∧
    layout.path.offset + layout.path.length ≤ layout.consumed ∧
    ∀ header ∈ layout.headers, header.1.offset + header.1.length ≤ layout.consumed ∧
      header.2.offset + header.2.length ≤ layout.consumed

instance (layout : Layout) : Decidable layout.Inside :=
  inferInstanceAs (Decidable (_ ∧ _))

/-- `incomplete` is the result -2, `malformed` is -1. -/
inductive Verdict where
  | incomplete
  | malformed
  | parsed (layout : Layout)
deriving Repr, DecidableEq

/-- A correct request parser for a notion of request heads: it waits for the end of
a head and then finds its fields in place, whatever follows. -/
structure RequestParser where
  phrParseRequest : (maxHeaders : Nat) → Bytes → Verdict
  IsHead : Bytes → Fields → Prop
  head_nonempty : ∀ {head : Bytes} {fields : Fields}, IsHead head fields → head ≠ []
  parse_part : ∀ {maxHeaders : Nat} {head part : Bytes} {fields : Fields}, IsHead head fields →
    fields.headers.length ≤ maxHeaders → part <+: head → part.length < head.length →
      phrParseRequest maxHeaders part = .incomplete
  parse_head : ∀ {maxHeaders : Nat} {head : Bytes} {fields : Fields}, IsHead head fields →
    fields.headers.length ≤ maxHeaders → ∀ more : Bytes, ∃ layout,
      phrParseRequest maxHeaders (head ++ more) = .parsed layout ∧
        layout.consumed = head.length ∧ layout.Inside ∧ layout.fields head = fields

/-- `strncasecmp` with the lengths compared before. -/
def sameIgnoringCase (bytes : Bytes) (literal : String) : Bool :=
  bytes.map toLower = ascii literal

def isContentLength (header : Header) : Bool :=
  sameIgnoringCase header.name "content-length"

/-- The value of the first `Content-Length` header, of which 31 bytes are read. -/
def contentLength (headers : List Header) : Int :=
  match headers.find? isContentLength with
  | some header => atol (header.value.take 31)
  | none => 0

def requestWantsKeepalive (headers : List Header) (minorVersion : Int) : Bool :=
  match headers with
  | [] => 1 ≤ minorVersion
  | header :: rest =>
    if sameIgnoringCase header.name "connection" then
      if sameIgnoringCase header.value "close" then false
      else if sameIgnoringCase header.value "keep-alive" then true
      else requestWantsKeepalive rest minorVersion
    else requestWantsKeepalive rest minorVersion

/-- The path and the query of a request target, split at the first question mark. -/
def splitTarget (target : Bytes) : Bytes × Bytes :=
  match target.findIdx? (· == 63) with
  | some mark => (target.take mark, target.drop (mark + 1))
  | none => (target, [])

theorem Slice.read_append {slice : Slice}
    (inside : slice.offset + slice.length ≤ buf.length) (more : Bytes) :
    slice.read (buf ++ more) = slice.read buf := by
  unfold Slice.read
  rw [List.drop_append_of_le_length (by omega), List.take_append_of_le_length]
  rw [List.length_drop]
  omega

theorem Layout.fields_append {layout : Layout} (inside : layout.Inside)
    (consumed : layout.consumed = buf.length) (more : Bytes) :
    layout.fields (buf ++ more) = layout.fields buf := by
  obtain ⟨method, path, headers⟩ := inside
  rw [consumed] at method path headers
  unfold Layout.fields
  rw [Slice.read_append method, Slice.read_append path]
  congr 1
  apply List.map_congr_left
  intro header member
  obtain ⟨name, value⟩ := headers header member
  rw [Slice.read_append name, Slice.read_append value]

/-- The decimal digits of a number. -/
def IsDecimal (value : Bytes) (number : Nat) : Prop :=
  value ≠ [] ∧ (∀ byte ∈ value, isDigit byte = true) ∧ digitsValue value = number

instance (value : Bytes) (number : Nat) : Decidable (IsDecimal value number) :=
  inferInstanceAs (Decidable (_ ∧ _))

theorem isDigit_plain (digit : isDigit byte = true) :
    isSpace byte = false ∧ byte ≠ 45 ∧ byte ≠ 43 ∧ byte ≠ 0 := by
  simp only [isDigit, Bool.and_eq_true, decide_eq_true_eq, UInt8.le_iff_toNat_le] at digit
  have low : 48 ≤ byte.toNat := digit.1
  have high : byte.toNat ≤ 57 := digit.2
  have other : ∀ code : UInt8, code.toNat < 48 → byte ≠ code := by
    intro code small same
    rw [same] at low
    omega
  refine ⟨?_, other 45 (by decide), other 43 (by decide), other 0 (by decide)⟩
  simp only [isSpace, Bool.or_eq_false_iff, beq_eq_false_iff_ne, Bool.and_eq_false_iff,
    decide_eq_false_iff_not, UInt8.le_iff_toNat_le]
  refine ⟨other 32 (by decide), .inr ?_⟩
  have bound : (13 : UInt8).toNat = 13 := rfl
  omega

theorem scanLong_digits (nonempty : value ≠ []) (digits : ∀ byte ∈ value, isDigit byte = true)
    (stops : ∀ byte ∈ rest.head?, isDigit byte = false) :
    scanLong (value ++ rest) = some (clampLong (digitsValue value), rest) := by
  obtain ⟨first, others, rfl⟩ := List.exists_cons_of_ne_nil nonempty
  obtain ⟨noSpace, noMinus, noPlus, -⟩ := isDigit_plain (digits first (by simp))
  have ended : rest.takeWhile isDigit = [] ∧ rest.dropWhile isDigit = rest := by
    cases rest with
    | nil => exact ⟨rfl, rfl⟩
    | cons byte more =>
      have stop := stops byte rfl
      exact ⟨List.takeWhile_cons_of_neg (by simp [stop]), List.dropWhile_cons_of_neg (by simp [stop])⟩
  have all : (first :: others ++ rest).takeWhile isDigit = first :: others := by
    rw [List.takeWhile_append_of_pos digits, ended.1, List.append_nil]
  have none : (first :: others ++ rest).dropWhile isDigit = rest := by
    rw [List.dropWhile_append_of_pos digits, ended.2]
  have trimmed : (first :: others ++ rest).dropWhile isSpace = first :: others ++ rest :=
    List.dropWhile_cons_of_neg (by simp [noSpace])
  have signless : splitSign (first :: others ++ rest) = (false, first :: others ++ rest) :=
    splitSign_unsigned noMinus noPlus
  unfold scanLong
  simp only [trimmed, signless, all, none]
  rfl

theorem atol_decimal (rest : Bytes) (decimal : IsDecimal value number) (small : number < 2 ^ 63)
    (stops : ∀ byte ∈ rest.head?, isDigit byte = false) : atol (value ++ rest) = number := by
  obtain ⟨nonempty, digits, same⟩ := decimal
  have text : cString (value ++ rest) = value ++ cString rest := by
    unfold cString
    rw [List.takeWhile_append_of_pos]
    intro byte member
    simpa using (isDigit_plain (digits byte member)).2.2.2
  have stop : ∀ byte ∈ (cString rest).head?, isDigit byte = false := by
    intro byte first
    unfold cString at first
    cases rest with
    | nil => cases first
    | cons head more =>
      rw [List.takeWhile_cons] at first
      split at first
      · exact stops byte first
      · cases first
  rw [atol, text, scanLong_digits nonempty digits stop, same]
  simp only [clampLong]
  omega

/-- The headers announce a body of the given length: every `Content-Length` is its
decimal number, and only an empty body has none. -/
def Announces (headers : List Header) (length : Nat) : Prop :=
  (∀ header ∈ headers, isContentLength header = true → IsDecimal header.value length) ∧
    (headers.all (!isContentLength ·) = true → length = 0)

instance (headers : List Header) (length : Nat) : Decidable (Announces headers length) :=
  inferInstanceAs (Decidable (_ ∧ _))

/-- The first length that is announced has at most 31 digits, or it is zero. -/
def ShortLength (headers : List Header) (length : Nat) : Prop :=
  ∀ header ∈ headers.find? isContentLength, header.value.length ≤ 31 ∨ length = 0

instance (headers : List Header) (length : Nat) : Decidable (ShortLength headers length) :=
  inferInstanceAs (Decidable (∀ header ∈ headers.find? isContentLength, _))

theorem digitsValue_append_le (first rest : Bytes) :
    digitsValue first ≤ digitsValue (first ++ rest) := by
  unfold digitsValue
  rw [List.foldl_append]
  generalize first.foldl _ 0 = value
  induction rest generalizing value with
  | nil => exact Nat.le_refl _
  | cons digit rest ih =>
    rw [List.foldl_cons]
    exact Nat.le_trans (by omega) (ih _)

/-- A number of zeros is read as zero however much of it is read. -/
theorem IsDecimal.take {value : Bytes} {number : Nat} (decimal : IsDecimal value number)
    (short : value.length ≤ 31 ∨ number = 0) : IsDecimal (value.take 31) number := by
  obtain whole | rfl := short
  · rwa [List.take_of_length_le whole]
  · obtain ⟨nonempty, digits, same⟩ := decimal
    refine ⟨by simpa using nonempty, fun byte member => digits byte (List.mem_of_mem_take member), ?_⟩
    have fewer := digitsValue_append_le (value.take 31) (value.drop 31)
    rw [List.take_append_drop, same] at fewer
    exact Nat.le_zero.mp fewer

theorem contentLength_announced
    (announced : Announces headers length) (short : ShortLength headers length)
    (small : length < 2 ^ 63) : contentLength headers = length := by
  unfold contentLength
  split
  · rename_i header found
    have member := List.mem_of_find?_eq_some found
    have named := List.find?_some found
    have read := (announced.1 header member named).take (short header found)
    simpa using atol_decimal [] read small nofun
  · rename_i missing
    have none : headers.all (!isContentLength ·) = true := by
      simpa using missing
    rw [announced.2 none]
    rfl

/-- The target consists of a path and, after the first question mark, a query. -/
def IsTarget (target path query : Bytes) : Prop :=
  63 ∉ path ∧ (target = path ∧ query = [] ∨ target = path ++ 63 :: query)

instance (target path query : Bytes) : Decidable (IsTarget target path query) :=
  inferInstanceAs (Decidable (_ ∧ _))

theorem splitTarget_isTarget (isTarget : IsTarget target path query) :
    splitTarget target = (path, query) := by
  obtain ⟨plain, split⟩ := isTarget
  have unmarked : path.findIdx? (· == 63) = none := by
    rw [List.findIdx?_eq_none_iff]
    intro byte member
    simp only [beq_eq_false_iff_ne]
    intro mark
    rw [mark] at member
    exact plain member
  rcases split with ⟨same, empty⟩ | same
  · rw [same, empty, splitTarget, unmarked]
  · have mark : target.findIdx? (· == 63) = some path.length := by
      rw [same, List.findIdx?_append, unmarked]
      simp [List.findIdx?_cons]
    rw [splitTarget, mark]
    simp [same]

/-- The headers from the given place on, up to the blank line. -/
def layoutHeaders (fuel offset : Nat) (buf : Bytes) : Option (List (Slice × Slice)) :=
  match fuel with
  | 0 => none
  | fuel + 1 =>
    if buf = [13, 10] then some []
    else
      let name := buf.takeWhile (· != 58)
      let value := (buf.drop (name.length + 2)).takeWhile (· != 13)
      let next := name.length + 2 + value.length + 2
      if (buf.drop name.length).take 2 = [58, 32] then
        (layoutHeaders fuel (offset + next) (buf.drop next)).map
          ((⟨offset, name.length⟩, ⟨offset + name.length + 2, value.length⟩) :: ·)
      else none

/-- The layout of a head that ends with its blank line. -/
def layoutHead (head : Bytes) : Option Layout :=
  let method := head.takeWhile (· != 32)
  let path := (head.drop (method.length + 1)).takeWhile (· != 32)
  let version := method.length + 1 + path.length + 1
  let rest := head.drop (version + 10)
  match (head.drop version).take 10 with
  | [72, 84, 84, 80, 47, 49, 46, minor, 13, 10] =>
    (layoutHeaders head.length (version + 10) rest).map fun headers =>
      { method := ⟨0, method.length⟩
        path := ⟨method.length + 1, path.length⟩
        minorVersion := minor.toNat - 48
        headers
        consumed := head.length }
  | _ => none

def parseHead (maxHeaders : Nat) (buf : Bytes) : Verdict :=
  match findHeadEnd buf with
  | none => .incomplete
  | some length =>
    match layoutHead (buf.take length) with
    | some layout => if layout.headers.length ≤ maxHeaders then .parsed layout else .malformed
    | none => .malformed

/-- A head ends with its first blank line. -/
def IsPlainHead (head : Bytes) (fields : Fields) : Prop :=
  findHeadEnd head = some head.length ∧
    ∃ layout, layoutHead head = some layout ∧ layout.consumed = head.length ∧ layout.Inside ∧
      layout.fields head = fields

def plainParser : RequestParser where
  phrParseRequest := parseHead
  IsHead := IsPlainHead
  head_nonempty := by
    intro head fields isHead empty
    have bounds := findHeadEnd_bounds isHead.1
    simp [empty] at bounds
  parse_part := by
    intro maxHeaders head part fields isHead _ begins shorter
    have incomplete : findHeadEnd part = none := by
      obtain ⟨more, same⟩ := begins
      cases found : findHeadEnd part with
      | none => rfl
      | some length =>
        have again := findHeadEnd_append more found
        rw [same, isHead.1] at again
        have bounds := findHeadEnd_bounds found
        simp only [Option.some.injEq] at again
        omega
    simp [parseHead, incomplete]
  parse_head := by
    intro maxHeaders head fields isHead limit more
    obtain ⟨ends, layout, parsed, consumed, inside, same⟩ := isHead
    refine ⟨layout, ?_, consumed, inside, same⟩
    have few : layout.headers.length ≤ maxHeaders := by
      rw [← same] at limit
      simpa [Layout.fields] using limit
    simp [parseHead, findHeadEnd_append more ends, parsed, few]

end Libgoc.Http
