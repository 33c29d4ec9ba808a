import Rendezvous.Number.Shortest

/-!
# Decimals with a fixed number of digits

A finite floating-point number rounded to a given number of places, or to a given number of digits
in scientific notation. Rounding is exact: to the nearest decimal, and a tie goes to the even digit.

## Main definitions

* `Binary64.fixed`: a number of places after the point.
* `Binary64.exponential`: a number of places in scientific notation.
* `Binary64.general`: a number of digits, in whichever of the two notations suits the exponent.
-/

namespace Rendezvous.Binary64

/-- A natural number with a point before its last digits. -/
def withPoint (places n : Nat) : List Char :=
  let digits := (toString n).toList
  let digits := List.replicate (places + 1 - digits.length) '0' ++ digits
  if places = 0 then digits
  else digits.take (digits.length - places) ++ '.' :: digits.drop (digits.length - places)

/-- The quotient with a number of places after the point. -/
def fixed (num den places : Nat) : List Char :=
  withPoint places (roundQuotient (num * Nat.pow 10 places) den)

/-- The digits of a quotient in scientific notation as one number, and the exponent. -/
def exponentialParts (num den places : Nat) : Nat × Int :=
  if num = 0 then (0, 0)
  else
    let top := decimalExponent num den
    let (n, d) := onGrid num den (top - places)
    let digits := roundQuotient n d
    if digits = Nat.pow 10 (places + 1) then (Nat.pow 10 places, top + 1) else (digits, top)

/-- An exponent with its sign and at least two digits. -/
def exponentText (e : Int) : List Char :=
  let size := (toString e.natAbs).toList
  'e' :: (if e < 0 then '-' else '+') :: (List.replicate (2 - size.length) '0' ++ size)

/-- The quotient in scientific notation with a number of places after the point. -/
def exponential (num den places : Nat) : List Char :=
  let (digits, e) := exponentialParts num den places
  withPoint places digits ++ exponentText e

/-- Drops the zeros at the end of the places, and the point if no place is left. -/
def stripPlaces (cs : List Char) : List Char :=
  if cs.contains '.' then
    let kept := (cs.reverse.dropWhile (· == '0')).reverse
    if kept.getLast? = some '.' then kept.dropLast else kept
  else cs

/-- The quotient with a number of digits, positionally if its exponent is from -4 to below that
number. Zeros at the end are dropped unless `keepZeros` holds. -/
def general (keepZeros : Bool) (num den digits : Nat) : List Char :=
  let places := max digits 1 - 1
  let (n, e) := exponentialParts num den places
  let strip (cs : List Char) := if keepZeros then cs else stripPlaces cs
  if -4 ≤ e ∧ e ≤ places then strip (fixed num den (places - e).toNat)
  else strip (withPoint places n) ++ exponentText e

/-- Digits with a point, which goes before the exponent if there is none yet. -/
def keepPoint (cs : List Char) : List Char :=
  if cs.contains '.' then cs
  else cs.takeWhile (· != 'e') ++ '.' :: cs.dropWhile (· != 'e')

example : fixed 5 2 0 = ['2'] ∧ fixed 1 8 2 = "0.12".toList ∧
    exponential 12345 1 2 = "1.23e+04".toList ∧ general false 100000 1 6 = "100000".toList := by
  decide +kernel

end Rendezvous.Binary64
