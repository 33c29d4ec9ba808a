import Rendezvous.Number.Binary64

/-!
# Numerals

The parts of a written number: digits before a point, digits after it, and an exponent. Formats
differ in the signs, underscores and empty parts they admit, so splitting admits everything and
each format tests the parts itself. The value does not depend on underscores.

## Main definitions

* `Numeral` and `Numeral.split`: the parts of an unsigned number.
* `Numeral.toBinary64`: the nearest floating-point number.
* `Numeral.natOfDigits`: digits in any base up to sixteen.
-/

namespace Rendezvous

/-- The parts of an unsigned number. -/
structure Numeral where
  whole : List Char
  /-- What follows the point, if there is one. -/
  fraction : Option (List Char) := none
  /-- What follows the letter `e`, if there is one. -/
  exponent : Option (List Char) := none
  deriving DecidableEq, Repr

namespace Numeral

/-- Splits a list before and after the first element that passes a test. -/
def cut {α : Type} (p : α → Bool) (l : List α) : List α × Option (List α) :=
  (l.takeWhile (!p ·), (l.dropWhile (!p ·)).tail?)

/-- The parts of an unsigned number. -/
def split (cs : List Char) : Numeral :=
  let (mantissa, exponent) := cut (fun c => c == 'e' || c == 'E') cs
  let (whole, fraction) := cut (· == '.') mantissa
  { whole, fraction, exponent }

/-- Takes the sign off the front; true for a minus. -/
def takeSign : List Char → Option Bool × List Char
  | '-' :: rest => (some true, rest)
  | '+' :: rest => (some false, rest)
  | cs => (none, cs)

/-- The value of a digit in a base up to sixteen. -/
def digitValue (c : Char) : Nat :=
  if c.isDigit then c.toNat - '0'.toNat else c.toLower.toNat - 'a'.toNat + 10

/-- The number that digits write in a base; underscores do not count. -/
def natOfDigits (base : Nat) (cs : List Char) : Nat :=
  (cs.filter (· != '_')).foldl (fun n c => n * base + digitValue c) 0

/-- The number of digits; underscores do not count. -/
def digitCount (cs : List Char) : Nat :=
  (cs.filter (· != '_')).length

/-- An integer from its sign and its size. -/
def signed (negative : Bool) (n : Nat) : Int :=
  if negative then -(n : Int) else n

/-- The exponent as an integer; zero if there is none. -/
def power (n : Numeral) : Int :=
  match n.exponent with
  | none => 0
  | some cs =>
    let (sign, digits) := takeSign cs
    signed (sign == some true) (natOfDigits 10 digits)

/-- The floating-point number nearest to a numeral with the given sign. -/
def toBinary64 (negative : Bool) (n : Numeral) : Binary64 :=
  let fraction := n.fraction.getD []
  Binary64.ofDecimal negative (natOfDigits 10 (n.whole ++ fraction))
    (n.power - digitCount fraction)

example : (split "1_0.50e-1".toList).toBinary64 false = Binary64.ofDecimal false 1050 (-3) := by
  decide

end Numeral

end Rendezvous
