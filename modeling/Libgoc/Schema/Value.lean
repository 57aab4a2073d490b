import Libgoc.Data.SizeT

namespace Libgoc.Schema

open Libgoc.Data

/-! # Values (`src/goc_schema.c`) -/

abbrev Text := List UInt8

def lit (literal : String) : Text :=
  literal.toUTF8.toList

def decimal (n : Nat) : Text :=
  (Nat.toDigits 10 n).map fun digit => digit.toNat.toUInt8

def signedDecimal (i : Int) : Text :=
  if i < 0 then lit "-" ++ decimal i.natAbs else decimal i.natAbs

/-- `goc_sprintf` aborts when the text is longer than an `int` can say. -/
def gocSprintf (text : Text) : Option Text :=
  if text.length ≤ 2147483647 then some text else none

inductive IntSize where
  | short
  | int
  | long
deriving Repr, DecidableEq

inductive RealSize where
  | float
  | double
  | longDouble
deriving Repr, DecidableEq

/-- The payload of `goc_box` under its type tag; floating-point payloads are
bit patterns. -/
inductive Box where
  | bool (value : Bool)
  | byte (value : Int)
  | ubyte (value : Nat)
  | int (size : IntSize) (value : Int)
  | uint (size : IntSize) (value : Nat)
  | real (size : RealSize) (bits : Nat)
  | complex (size : RealSize) (bits : Nat)
deriving Repr, DecidableEq

/-- How an array was built: the fields of its header, whether its store is on
the collected heap, and the bytes of the header read as a string. -/
structure ArrRep where
  cap : Nat
  head : Nat
  onHeap : Bool
  raw : Text
deriving Repr, DecidableEq

inductive Val where
  | null
  | boxed (addr : Nat) (box : Box)
  | str (text : Text)
  | arr (addr : Nat) (rep : ArrRep) (elems : List Val)
  | dict (addr : Nat) (entries : List (Text × Val))

/-- The test of `goc_schema_is_goc_array` on the fields of an array. -/
def ArrRep.recognised (rep : ArrRep) (len : Nat) : Bool :=
  rep.onHeap && 8 ≤ rep.cap && rep.head ≤ rep.cap && len ≤ rep.cap && sizeT (rep.head + len) ≤ rep.cap

def isNull : Val → Bool
  | .null => true
  | _ => false

def isBoxed : Val → Bool
  | .boxed _ _ => true
  | _ => false

def isGocArray : Val → Bool
  | .arr _ rep elems => rep.recognised elems.length
  | _ => false

def isGocDict : Val → Bool
  | .dict _ _ => true
  | _ => false

/-- Every pointer that is not taken for anything else is a string. -/
def isString : Val → Bool
  | .null => false
  | val => !isBoxed val && !(isGocArray val || isGocDict val)

def isBoxedBool : Val → Bool
  | .boxed _ (.bool _) => true
  | _ => false

def isBoxedByte : Val → Bool
  | .boxed _ (.byte _) => true
  | _ => false

def isBoxedUbyte : Val → Bool
  | .boxed _ (.ubyte _) => true
  | _ => false

def isBoxedInt : Val → Bool
  | .boxed _ (.byte _) | .boxed _ (.int _ _) => true
  | _ => false

def isBoxedUint : Val → Bool
  | .boxed _ (.uint _ _) => true
  | _ => false

def isBoxedReal : Val → Bool
  | .boxed _ (.real _ _) => true
  | _ => false

def isBoxedComplex : Val → Bool
  | .boxed _ (.complex _ _) => true
  | _ => false

def typeName (val : Val) : Text :=
  match val with
  | .null => lit "null"
  | _ =>
    if isGocArray val then lit "array"
    else if isGocDict val then lit "object"
    else if isBoxedBool val then lit "bool"
    else if isBoxedByte val then lit "byte"
    else if isBoxedUbyte val then lit "ubyte"
    else if isBoxedUint val then lit "uint"
    else if isBoxedInt val then lit "int"
    else if isBoxedComplex val then lit "complex"
    else if isBoxedReal val then lit "real"
    else if isString val then lit "str"
    else lit "unknown"

def toSigned (half bits : Nat) : Int :=
  if bits < half then bits else (bits : Int) - 2 * half

def IntSize.half : IntSize → Nat
  | .short => 32768
  | .int => 2147483648
  | .long => 2 ^ 63

/-- `goc_schema_boxed_signed_value` goes by the size of the payload alone. -/
def boxedSignedValue : Val → Int
  | .boxed _ (.byte value) | .boxed _ (.int _ value) => value
  | .boxed _ (.bool value) => value.toNat
  | .boxed _ (.ubyte value) => toSigned 128 value
  | .boxed _ (.uint size value) => toSigned size.half value
  | .boxed _ (.real .float bits) => toSigned IntSize.int.half bits
  | .boxed _ (.real .double bits) | .boxed _ (.complex .float bits) =>
    toSigned IntSize.long.half bits
  | _ => 0

/-- The bytes read through a pointer that is taken for a string. -/
def stringBytes : Val → Text
  | .str text => text
  | .arr _ rep _ => rep.raw
  | _ => []

def elements : Val → List Val
  | .arr _ _ elems => elems
  | _ => []

def dictEntries : Val → List (Text × Val)
  | .dict _ entries => entries
  | _ => []

def dictGet (entries : List (Text × Val)) (key : Text) : Val :=
  match entries.find? fun entry => entry.1 = key with
  | some entry => entry.2
  | none => .null

def dictContains (entries : List (Text × Val)) (key : Text) : Bool :=
  entries.any fun entry => entry.1 = key

theorem dictContains_iff :
    dictContains entries key = true ↔ key ∈ entries.map Prod.fst := by
  simp [dictContains]

theorem dictContains_of_mem (member : entry ∈ entries) : dictContains entries entry.1 = true :=
  dictContains_iff.mpr (List.mem_map_of_mem member)

def sameAddress : Val → Val → Bool
  | .null, .null => true
  | .boxed a _, .boxed b _ => a = b
  | .arr a _ _, .arr b _ _ => a = b
  | .dict a _, .dict b _ => a = b
  | _, _ => false

theorem element_smaller (member : part ∈ elements val) :
    sizeOf part < sizeOf val := by
  cases val with
  | arr addr rep elems =>
    have smaller := List.sizeOf_lt_of_mem member
    simp only [elements, Val.arr.sizeOf_spec] at smaller ⊢
    omega
  | _ => cases member

theorem entry_smaller (member : entry ∈ dictEntries val) :
    sizeOf entry < sizeOf val := by
  cases val with
  | dict addr entries =>
    have smaller := List.sizeOf_lt_of_mem member
    simp only [dictEntries, Val.dict.sizeOf_spec] at smaller ⊢
    omega
  | _ => cases member

/-- A key is looked up in the dictionary that has it. -/
theorem dictGet_of_mem (member : entry ∈ entries) :
    ∃ found ∈ entries, found.1 = entry.1 ∧ dictGet entries entry.1 = found.2 := by
  unfold dictGet
  cases search : entries.find? fun other => other.1 = entry.1 with
  | none =>
    have absent := List.find?_eq_none.mp search entry member
    simp at absent
  | some found =>
    exact ⟨found, List.mem_of_find?_eq_some search, by simpa using List.find?_some search, rfl⟩

theorem dictGet_of_present (present : isNull (dictGet entries key) = false) :
    ∃ found ∈ entries, found.1 = key ∧ dictGet entries key = found.2 := by
  unfold dictGet at present ⊢
  cases search : entries.find? fun other => other.1 = key with
  | none =>
    rw [search] at present
    cases present
  | some found =>
    exact ⟨found, List.mem_of_find?_eq_some search, by simpa using List.find?_some search, rfl⟩

theorem sizeOf_value_lt {entry : Text × Val} : sizeOf entry.2 < sizeOf entry := by
  obtain ⟨key, value⟩ := entry
  simp only [Prod.mk.sizeOf_spec]
  omega

theorem dictGet_absent
    (absent : dictContains entries key = false) : dictGet entries key = .null := by
  unfold dictGet
  cases search : entries.find? fun entry => entry.1 = key with
  | none => rfl
  | some found =>
    have same := List.find?_some search
    have present : dictContains entries key = true :=
      List.any_eq_true.mpr ⟨found, List.mem_of_find?_eq_some search, same⟩
    simp [absent] at present

/-- Induction over a value and its parts. -/
theorem Val.induct {property : Val → Prop} (null : property .null)
    (boxed : ∀ addr box, property (.boxed addr box)) (str : ∀ text, property (.str text))
    (arr : ∀ addr rep elems, (∀ part ∈ elems, property part) → property (.arr addr rep elems))
    (dict : ∀ addr entries, (∀ entry ∈ entries, property entry.2) → property (.dict addr entries))
    (val : Val) : property val := by
  induction size : sizeOf val using Nat.strongRecOn generalizing val with
  | _ n ih =>
    cases val with
    | null => exact null
    | boxed addr box => exact boxed addr box
    | str text => exact str text
    | arr addr rep elems =>
      apply arr
      intro part member
      have smaller : sizeOf part < sizeOf (Val.arr addr rep elems) := element_smaller member
      exact ih (sizeOf part) (size ▸ smaller) part rfl
    | dict addr entries =>
      apply dict
      intro entry member
      have smaller : sizeOf entry < sizeOf (Val.dict addr entries) := entry_smaller member
      exact ih (sizeOf entry.2) (size ▸ Nat.lt_trans sizeOf_value_lt smaller) entry.2 rfl

/-- What the component uses of the C library: regular expressions, given by
their pattern, and arithmetic on `long double` and `double` bit patterns. -/
structure CLib where
  regcomp : Text → Bool
  regexec : Text → Text → Bool
  regexBytes : Text → Text
  toLongDouble : RealSize → Nat → Nat
  leL : Nat → Nat → Bool
  ltL : Nat → Nat → Bool
  addL : Nat → Nat → Nat
  subL : Nat → Nat → Nat
  mulL : Nat → Nat → Nat
  fmodl : Nat → Nat → Nat
  fabsl : Nat → Nat
  zeroL : Nat
  tolerance : Nat
  formatL : Nat → Text
  eqDouble : Nat → Nat → Bool
  isnan : Nat → Bool
  formatDouble : Nat → Text
  complexBytes : RealSize → Nat → List UInt8

/-- `goc_unbox(double, val)` reads eight bytes whatever the box holds. -/
def unboxDouble : Val → Nat
  | .boxed _ (.real _ bits) => bits % 2 ^ 64
  | _ => 0

def boxedRealValue (lib : CLib) : Val → Nat
  | .boxed _ (.real size bits) => lib.toLongDouble size bits
  | _ => lib.zeroL

/-- The tests of `goc_schema_vals_equal` on two boxes. -/
def boxesEqual (lib : CLib) : Box → Box → Bool
  | .byte x, .byte y | .byte x, .int _ y | .int _ x, .byte y | .int _ x, .int _ y => x = y
  | .ubyte x, .ubyte y | .ubyte x, .uint _ y | .uint _ x, .ubyte y | .uint _ x, .uint _ y => x = y
  | .real _ x, .real _ y =>
    let da := x % 2 ^ 64
    let db := y % 2 ^ 64
    !(lib.isnan da || lib.isnan db) && da = db
  | .complex size x, .complex other y => lib.complexBytes size x = lib.complexBytes other y
  | .bool x, .bool y => x = y
  | _, _ => false

mutual

/-- `goc_schema_vals_equal`; its tests are exclusive, so they stand under the
kind of the first value. -/
def valsEqual (lib : CLib) : Val → Val → Bool
  | .null, b => sameAddress .null b
  | .boxed addr box, b =>
    sameAddress (.boxed addr box) b || match b with
      | .boxed _ other => boxesEqual lib box other
      | _ => false
  | .str text, b => isString b && stringBytes b = text
  | .arr addr rep elems, b =>
    sameAddress (.arr addr rep elems) b || if rep.recognised elems.length then
        isGocArray b && elems.length = (elements b).length && elemsEqual lib elems (elements b)
      else isString b && stringBytes b = rep.raw
  | .dict addr entries, b =>
    sameAddress (.dict addr entries) b || isGocDict b && entries.length = (dictEntries b).length &&
        entriesEqual lib entries (dictEntries b)

def elemsEqual (lib : CLib) : List Val → List Val → Bool
  | a :: rest, b :: others => valsEqual lib a b && elemsEqual lib rest others
  | _, _ => true

def entriesEqual (lib : CLib) : List (Text × Val) → List (Text × Val) → Bool
  | [], _ => true
  | entry :: rest, others =>
    valsEqual lib entry.2 (dictGet others entry.1) && entriesEqual lib rest others

end

end Libgoc.Schema
