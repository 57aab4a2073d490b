import Mathlib.Algebra.Group.Int.Defs
import Mathlib.Algebra.Group.Nat.Defs
import Mathlib.Data.List.DropRight
import Mathlib.Tactic.Common

namespace Libgoc.Data

/-! # Byte strings of C -/

abbrev Bytes := List UInt8

def ascii (literal : String) : Bytes :=
  literal.toList.map fun char => UInt8.ofNat char.toNat

def cString (bytes : Bytes) : Bytes :=
  bytes.takeWhile (· != 0)

def isSpace (byte : UInt8) : Bool :=
  byte == 32 || (9 ≤ byte && byte ≤ 13)

def isDigit (byte : UInt8) : Bool :=
  48 ≤ byte && byte ≤ 57

def toLower (byte : UInt8) : UInt8 :=
  if 65 ≤ byte && byte ≤ 90 then byte + 32 else byte

/-- `strcasecmp(left, right) == 0` -/
def strcasecmp (left right : Bytes) : Bool :=
  (cString left).map toLower == (cString right).map toLower

def trimRight (bytes : Bytes) : Bytes :=
  bytes.rdropWhile isSpace

def trim (bytes : Bytes) : Bytes :=
  trimRight (bytes.dropWhile isSpace)

def digitsValue (digits : Bytes) : Nat :=
  digits.foldl (fun value digit => value * 10 + (digit.toNat - 48)) 0

/-- `long` holds the value, or the bound that is nearest to it. -/
def clampLong (value : Int) : Int :=
  max (-2 ^ 63) (min value (2 ^ 63 - 1))

/-- Whether a minus sign stands first, and what follows the sign. -/
def splitSign : Bytes → Bool × Bytes
  | 45 :: rest => (true, rest)
  | 43 :: rest => (false, rest)
  | rest => (false, rest)

/-- Spaces, a sign and at least one digit, as `strtol` and `%ld` read them: the
value and what follows. -/
def scanLong (bytes : Bytes) : Option (Int × Bytes) :=
  let (negative, rest) := splitSign (bytes.dropWhile isSpace)
  let digits := rest.takeWhile isDigit
  if digits = [] then none
  else
    let value : Int := digitsValue digits
    some (clampLong (if negative then -value else value), rest.dropWhile isDigit)

/-- Spaces, a sign and at least one digit, as `strtoul` reads them: the value and
what follows.  A number that `unsigned long` does not hold is its greatest value. -/
def scanUlong (bytes : Bytes) : Option (Nat × Bytes) :=
  let (negative, rest) := splitSign (bytes.dropWhile isSpace)
  let digits := rest.takeWhile isDigit
  if digits = [] then none
  else
    let value := digitsValue digits
    let result :=
      if 2 ^ 64 ≤ value then 2 ^ 64 - 1
      else if negative then (2 ^ 64 - value) % 2 ^ 64
      else value
    some (result, rest.dropWhile isDigit)

def atol (bytes : Bytes) : Int :=
  match scanLong (cString bytes) with
  | some (value, _) => value
  | none => 0

theorem splitSign_unsigned (minus : first ≠ 45) (plus : first ≠ 43) :
    splitSign (first :: rest) = (false, first :: rest) := by
  unfold splitSign
  split
  next same => exact absurd (List.cons.inj same).1 minus
  next same => exact absurd (List.cons.inj same).1 plus
  next => rfl

/-- A `long` stored in an `int`. -/
def truncateInt (value : Int) : Int :=
  Int.bmod value (2 ^ 32)

end Libgoc.Data
