/-!
# Floating-point numbers of 64 bits

A finite number is `± significand · 2 ^ exponent`. Reading a decimal rounds to the nearest number,
and a tie goes to the even significand.

## Main definitions

* `Binary64`: the numbers, with infinities and one that is not a number.
* `Binary64.ofRatio`, `Binary64.ofDecimal`, `Binary64.ofInt`: the nearest number.
* `Binary64.toInt?`: the integer a number equals, if it equals one.
* `Binary64.overflowBound`: the least natural number that rounds to no finite number.
-/

namespace Rendezvous

/-- A floating-point number of 64 bits. -/
inductive Binary64 where
  /-- The number `± significand · 2 ^ exponent`. -/
  | finite (negative : Bool) (significand : Nat) (exponent : Int)
  | infinite (negative : Bool)
  | nan
  deriving DecidableEq, Repr

namespace Binary64

/-- The exponent of the least positive number. -/
def minExponent : Int := -1074

/-- The exponent of the greatest finite number. -/
def maxExponent : Int := 971

/-- Zero. -/
def zero (negative : Bool) : Binary64 := .finite negative 0 minExponent

instance : Inhabited Binary64 := ⟨zero false⟩

/-- The nearest natural number to a quotient; a tie goes to the even one. -/
def roundQuotient (num den : Nat) : Nat :=
  let whole := num / den
  let twice := 2 * (num % den)
  if twice < den then whole
  else if den < twice then whole + 1
  else whole + whole % 2

/-- The quotient divided by `2 ^ e`, rounded. -/
def scaled (num den : Nat) (e : Int) : Nat :=
  if 0 ≤ e then roundQuotient num (den * Nat.pow 2 e.toNat)
  else roundQuotient (num * Nat.pow 2 (-e).toNat) den

/-- Whether the quotient is below `2 ^ (52 + e)`. -/
def belowNormal (num den : Nat) (e : Int) : Bool :=
  if 0 ≤ e then num < den * Nat.pow 2 e.toNat * Nat.pow 2 52
  else num * Nat.pow 2 (-e).toNat < den * Nat.pow 2 52

/-- The exponent at which the quotient has a significand of 53 bits, or the least exponent. -/
def exponentFor (num den : Nat) : Int :=
  let guess : Int := (num.log2 : Int) - den.log2 - 52
  max minExponent (if belowNormal num den guess then guess - 1 else guess)

/-- The number nearest to `± num / den`. -/
def ofRatio (negative : Bool) (num den : Nat) : Binary64 :=
  if num = 0 then zero negative
  else
    let e := exponentFor num den
    let m := scaled num den e
    let (m, e) := if m = Nat.pow 2 53 then (Nat.pow 2 52, e + 1) else (m, e)
    if maxExponent < e then .infinite negative else .finite negative m e

/-- The number nearest to `± digits · 10 ^ power`. Powers far outside the range need no
arithmetic: their answer is infinite or zero whatever the digits are. -/
def ofDecimal (negative : Bool) (digits : Nat) (power : Int) : Binary64 :=
  if digits = 0 then zero negative
  else if 400 < power then .infinite negative
  else if power + digits.log2 / 3 + 1 < -400 then zero negative
  else if 0 ≤ power then ofRatio negative (digits * Nat.pow 10 power.toNat) 1
  else ofRatio negative digits (Nat.pow 10 (-power).toNat)

/-- The number nearest to an integer. -/
def ofInt (n : Int) : Binary64 :=
  ofRatio (n < 0) n.natAbs 1

/-- The least natural number that rounds beyond every finite number. -/
def overflowBound : Nat := Nat.pow 2 1024 - Nat.pow 2 970

/-- Whether a number is finite. -/
def isFinite : Binary64 → Bool
  | .finite .. => true
  | _ => false

/-- The integer a number equals, if it equals one. -/
def toInt? : Binary64 → Option Int
  | .finite negative m e =>
    if 0 ≤ e then
      let n : Nat := m * Nat.pow 2 e.toNat
      some (if negative then -n else n)
    else if m % Nat.pow 2 (-e).toNat = 0 then
      let n : Nat := m / Nat.pow 2 (-e).toNat
      some (if negative then -n else n)
    else none
  | _ => none

/-- Whether a number is zero. -/
def isZero : Binary64 → Bool
  | .finite _ m _ => m == 0
  | _ => false

/-- Numeric equality: zeros are equal whatever their sign, and one that is not a number equals
nothing. -/
def equals : Binary64 → Binary64 → Bool
  | .finite s m e, .finite s' m' e' => (m == 0 && m' == 0) || (s == s' && m == m' && e == e')
  | .infinite s, .infinite s' => s == s'
  | _, _ => false

example : ofDecimal false 15 (-1) = .finite false (3 * 2 ^ 51) (-52) := by decide
example : toInt? (ofInt (2 ^ 53)) = some (2 ^ 53) := by decide
example : ofInt overflowBound = .infinite false ∧ (ofInt (overflowBound - 1)).isFinite := by
  decide +kernel

end Binary64

end Rendezvous
