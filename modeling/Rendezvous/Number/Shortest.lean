import Rendezvous.Number.Binary64

/-!
# Shortest decimals

The text of a floating-point number is the decimal with the fewest digits that reads back as the
number, and among those the one nearest to it. On the grid of multiples of a power of ten only the
two neighbours of the number matter: if a point of the grid reads back, so does one of them.

## Main definitions

* `Binary64.shortest`: digits and power of ten.
* `Binary64.Layout`: the decisions of a format, such as where positional notation ends.
* `Binary64.render`: the text of a number in a layout.
-/

namespace Rendezvous.Binary64

/-- Whether `10 ^ power ≤ num / den`. -/
def reaches (num den : Nat) (power : Int) : Bool :=
  if 0 ≤ power then den * Nat.pow 10 power.toNat ≤ num else den ≤ num * Nat.pow 10 (-power).toNat

/-- The greatest power of ten, among `start` and the next `steps` ones, that the quotient
reaches. -/
def climb (num den : Nat) : (steps : Nat) → (start : Int) → Int
  | 0, p => p
  | steps + 1, p => if reaches num den (p + 1) then climb num den steps (p + 1) else p

/-- The greatest power of ten that does not exceed the quotient. -/
def decimalExponent (num den : Nat) : Int :=
  let bits : Int := (num.log2 : Int) - den.log2
  climb num den 4 (bits * 30103 / 100000 - 2)

/-- The quotient as a fraction of `10 ^ power`. -/
def onGrid (num den : Nat) (power : Int) : Nat × Nat :=
  if 0 ≤ power then (num, den * Nat.pow 10 power.toNat) else (num * Nat.pow 10 (-power).toNat, den)

/-- Of the two neighbours of the quotient on a grid, the one that reads back as the number; of two
the nearer, and the even one of two that are equally near. -/
def neighbour? (x : Binary64) (num den : Nat) (power : Int) : Option Nat :=
  let (n, d) := onGrid num den power
  let low := n / d
  let back (k : Nat) : Bool := ofDecimal false k power == x
  match back low, back (low + 1) with
  | true, true => some (roundQuotient n d)
  | true, false => some low
  | false, true => some (low + 1)
  | false, false => none

/-- The first grid on which a neighbour reads back, from `digits` digits on. -/
def searchGrid (x : Binary64) (num den : Nat) (top : Int) : (tries digits : Nat) → Nat × Int
  | 0, digits => let p := top - digits; ((neighbour? x num den p).getD 0, p)
  | tries + 1, digits =>
    let p := top + 1 - digits
    match neighbour? x num den p with
    | some k => (k, p)
    | none => searchGrid x num den top tries (digits + 1)

/-- Moves the zeros at the end of the digits into the power. -/
def stripZeros : (fuel digits : Nat) → (power : Int) → Nat × Int
  | 0, d, p => (d, p)
  | fuel + 1, d, p => if d ≠ 0 ∧ d % 10 = 0 then stripZeros fuel (d / 10) (p + 1) else (d, p)

/-- The fewest digits, with their power of ten, that read back as `m · 2 ^ e`. -/
def shortest (m : Nat) (e : Int) : Nat × Int :=
  let (num, den) := if 0 ≤ e then (m * Nat.pow 2 e.toNat, 1) else (m, Nat.pow 2 (-e).toNat)
  let (d, p) := searchGrid (.finite false m e) num den (decimalExponent num den) 17 1
  stripZeros 400 d p

/-- The decisions of a format for floating-point numbers. -/
structure Layout where
  /-- The least decimal exponent that is written positionally. -/
  leastPositional : Int
  /-- The first decimal exponent from above that is not. -/
  leastScientific : Int
  infinity : String
  notANumber : String

/-- A record shows the exponents from -4 to 15 positionally. -/
def recordLayout : Layout := ⟨-4, 16, "inf", "nan"⟩

/-- A data document differs from a record in the names of its special numbers. -/
def documentLayout : Layout := ⟨-4, 16, "Infinity", "NaN"⟩

/-- Digits with a point after `before` of them; a whole number keeps one zero after its point. -/
def positional (digits : List Char) (before : Int) : List Char :=
  if before ≤ 0 then '0' :: '.' :: List.replicate (-before).toNat '0' ++ digits
  else
    let whole := digits.take before.toNat
    let rest := digits.drop before.toNat
    whole ++ List.replicate (before.toNat - digits.length) '0' ++ '.' ::
      (if rest.isEmpty then ['0'] else rest)

/-- Digits in scientific notation; the exponent has a sign and at least two digits. -/
def scientific (digits : List Char) (exponent : Int) : List Char :=
  let mantissa := match digits with
    | [] => []
    | [d] => [d]
    | d :: rest => d :: '.' :: rest
  let size := (toString exponent.natAbs).toList
  mantissa ++ 'e' :: (if exponent < 0 then '-' else '+') ::
    (List.replicate (2 - size.length) '0' ++ size)

/-- The text of a number. -/
def render (layout : Layout) : Binary64 → String
  | .nan => layout.notANumber
  | .infinite negative => (if negative then "-" else "") ++ layout.infinity
  | .finite negative m e =>
    let sign := if negative then "-" else ""
    if m = 0 then sign ++ "0.0"
    else
      let (d, p) := shortest m e
      let digits := (toString d).toList
      let exponent := p + digits.length - 1
      sign ++ String.ofList
        (if layout.leastPositional ≤ exponent ∧ exponent < layout.leastScientific then
          positional digits (exponent + 1)
        else scientific digits exponent)

end Rendezvous.Binary64
