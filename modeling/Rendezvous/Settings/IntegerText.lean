import Rendezvous.Text.Blank

/-!
# Integers written as text

An integer may stand between blanks, have a sign, have single underscores between its digits, and
end in a point and zeros. Only ASCII digits count, and a text of more than 4300 characters is not
read at all.

## Main definitions

* `IntegerText.digits?`: the number that digits with underscores write.
* `IntegerText.parse?`: the integer a text writes.
-/

namespace Rendezvous.IntegerText

/-- The greatest length of a text that is read. -/
def maxLength : Nat := 4300

/-- The value of a digit. -/
def digitValue (c : Char) : Nat := c.toNat - '0'.toNat

/-- Continues a number with the digits that follow one of its digits. -/
def moreDigits (n : Nat) : List Char → Option Nat
  | [] => some n
  | '_' :: c :: rest =>
    if c.isDigit then moreDigits (n * 10 + digitValue c) rest else none
  | c :: rest => if c.isDigit then moreDigits (n * 10 + digitValue c) rest else none

/-- The number that digits with single underscores between them write. -/
def digits? : List Char → Option Nat
  | [] => none
  | c :: rest => if c.isDigit then moreDigits (digitValue c) rest else none

/-- Whether a text is empty, or a point and at least one zero. -/
def isZeroFraction : List Char → Bool
  | [] => true
  | '.' :: rest => !rest.isEmpty && rest.all (· == '0')
  | _ => false

/-- The integer that a text without blanks around it writes. -/
def parse? (cs : List Char) : Option Int :=
  let (negative, cs) := match cs with
    | '-' :: rest => (true, rest)
    | '+' :: rest => (false, rest)
    | _ => (false, cs)
  if isZeroFraction (cs.dropWhile (· != '.')) then
    (digits? (cs.takeWhile (· != '.'))).map fun n => if negative then -(n : Int) else n
  else none

example : parse? "1_000".toList = some 1000 ∧ parse? "+9".toList = some 9 ∧
    parse? "-5.00".toList = some (-5) := by decide
example : parse? "5.".toList = none ∧ parse? "1__0".toList = none ∧ parse? "_1".toList = none ∧
    parse? "".toList = none ∧ parse? "--1".toList = none := by decide

end Rendezvous.IntegerText
