import Mathlib.Algebra.Field.Rat
import Flow123d.Library.Numerals

/-!
# Numbers in strings

Numbers are read from strings with `atoi` or with an input stream that has to end there.
-/

set_option autoImplicit false

namespace Flow123d

def isSpace (char : Char) : Bool :=
  char = ' ' || char = '\t' || char = '\n' || char = '\r' || char.toNat = 11 || char.toNat = 12

/-- Without the leading spaces: whether there is a minus sign, and what follows the sign. -/
def skipSign (chars : List Char) : Bool × List Char :=
  match chars.dropWhile isSpace with
  | '-' :: rest => (true, rest)
  | '+' :: rest => (false, rest)
  | rest => (false, rest)

def digitsToNat (digits : List Char) : ℕ :=
  digits.foldl (fun value digit => 10 * value + (digit.toNat - '0'.toNat)) 0

/-- The number of the digits as an index: a `long` that is cut to 32 bits. -/
def atoi (digits : String) : ℕ := min (digitsToNat digits.toList) (2 ^ 63 - 1) % 2 ^ 32

/-- A stream gives the whole string as an `int`. -/
def streamInt (str : String) : Option ℤ :=
  let (negative, digits) := skipSign str.toList
  let value : ℤ := if negative then -(digitsToNat digits : ℤ) else digitsToNat digits
  if digits ≠ [] ∧ digits.all Char.isDigit ∧ -2 ^ 31 ≤ value ∧ value < 2 ^ 31 then some value
  else none

/-- The exponent of a number, if that is the whole rest. -/
def streamExponent : List Char → Option ℤ
  | [] => some 0
  | char :: rest =>
      if char = 'e' ∨ char = 'E' then
        let (negative, digits) :=
          match rest with
          | '-' :: rest => (true, rest)
          | '+' :: rest => (false, rest)
          | rest => (false, rest)
        if digits ≠ [] ∧ digits.all Char.isDigit then
          some (if negative then -(digitsToNat digits : ℤ) else digitsToNat digits)
        else none
      else none

/-- A stream gives the whole string as a `double`. -/
def streamDouble (str : String) : Option ℚ :=
  let (negative, chars) := skipSign str.toList
  let whole := chars.takeWhile Char.isDigit
  let afterWhole := chars.dropWhile Char.isDigit
  let (fraction, afterFraction) :=
    match afterWhole with
    | '.' :: rest => (rest.takeWhile Char.isDigit, rest.dropWhile Char.isDigit)
    | rest => ([], rest)
  if whole ++ fraction = [] then none
  else
    (streamExponent afterFraction).map fun exponent =>
      let value : ℚ :=
        digitsToNat (whole ++ fraction) * 10 ^ (exponent - (fraction.length : ℤ))
      if negative then -value else value

end Flow123d
