import Rendezvous.Number.Numeral
import Rendezvous.Value

/-!
# The values of plain scalars

A plain scalar may write null, a truth value, a number in one of several bases, or a
floating-point number; otherwise it is text. Underscores in numbers do not count.

## Main definitions

* `Yaml.integer?` and `Yaml.float?`: the numbers.
* `Yaml.plainValue`: the value of a plain scalar.
-/

namespace Rendezvous.Yaml

/-- Whether a list is not empty and all its members pass a test. -/
def someAll (p : Char → Bool) (cs : List Char) : Bool :=
  !cs.isEmpty && cs.all p

/-- The number that digits write in a base, if they are digits and underscores of that base and
not underscores alone. -/
def inBase? (base : Nat) (isDigit : Char → Bool) (cs : List Char) : Option Nat :=
  if cs.all (fun c => isDigit c || c == '_') && cs.any isDigit then
    some (Numeral.natOfDigits base cs)
  else none

/-- The integer that a plain scalar writes. -/
def integer? (cs : List Char) : Option Int :=
  let (sign, digits) := Numeral.takeSign cs
  let size : Option Nat := match digits with
    | '0' :: 'b' :: rest => inBase? 2 (fun c => c == '0' || c == '1') rest
    | '0' :: 'o' :: rest => inBase? 8 (fun c => '0' ≤ c && c ≤ '7') rest
    | '0' :: 'x' :: rest =>
      inBase? 16 (fun c => c.isDigit || ('a' ≤ c && c ≤ 'f') || ('A' ≤ c && c ≤ 'F')) rest
    | c :: _ => if c = '_' ∧ sign = none then none else inBase? 10 Char.isDigit digits
    | [] => none
  size.map (Numeral.signed (sign == some true))

/-- Whether an exponent is digits, with a sign or, where that is admitted, without. -/
def isExponent (unsigned : Bool) (cs : List Char) : Bool :=
  let (sign, digits) := Numeral.takeSign cs
  (sign.isSome || unsigned) && someAll Char.isDigit digits

/-- Whether the parts of a number are those of a floating-point number: digits, then a point or an
exponent or both; without digits before the point, some after it, and a sign in the exponent. -/
def isFloat (n : Numeral) : Bool :=
  let digits (cs : List Char) := cs.all fun c => c.isDigit || c == '_'
  match n.whole, n.fraction, n.exponent with
  | [], some fraction, exponent =>
    !fraction.isEmpty && digits fraction && fraction.any Char.isDigit &&
      exponent.all (isExponent false)
  | c :: rest, some fraction, exponent =>
    c.isDigit && digits rest && digits fraction && exponent.all (isExponent true)
  | c :: rest, none, some exponent => c.isDigit && digits rest && isExponent true exponent
  | _, none, _ => false

/-- The floating-point number that a plain scalar writes. -/
def float? (cs : List Char) : Option Binary64 :=
  let (sign, rest) := Numeral.takeSign cs
  let negative := sign == some true
  let word := String.ofList rest
  if word = ".inf" ∨ word = ".Inf" ∨ word = ".INF" then some (.infinite negative)
  else if sign = none ∧ (word = ".nan" ∨ word = ".NaN" ∨ word = ".NAN") then some .nan
  else
    let n := Numeral.split rest
    if isFloat n then some (n.toBinary64 negative) else none

/-- The words for null. -/
def nullWords : List String := ["", "~", "null", "Null", "NULL"]

/-- The words for true. -/
def trueWords : List String := ["true", "True", "TRUE"]

/-- The words for false. -/
def falseWords : List String := ["false", "False", "FALSE"]

/-- The value of a plain scalar. -/
def plainValue (cs : List Char) : Document :=
  let word := String.ofList cs
  if nullWords.contains word then .null
  else if trueWords.contains word then .bool true
  else if falseWords.contains word then .bool false
  else match float? cs, integer? cs with
    | some x, _ => .float x
    | none, some n => .int n
    | none, none => .text word

example : integer? "-1_000".toList = some (-1000) ∧ integer? "0x1F".toList = some 31 ∧
    integer? "010".toList = some 10 ∧ integer? "1a".toList = none := by decide
example : float? "1e3".toList = some (Binary64.ofInt 1000) ∧ float? ".5e3".toList = none ∧
    float? "1.".toList = some (Binary64.ofInt 1) ∧ float? "10".toList = none := by decide

end Rendezvous.Yaml
