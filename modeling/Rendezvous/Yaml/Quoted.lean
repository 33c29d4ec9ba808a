import Rendezvous.Number.Numeral
import Rendezvous.Yaml.Cursor
import Rendezvous.Yaml.Token

/-!
# Quoted scalars

Between single quotes, two quotes stand for one and everything else for itself; between double
quotes a backslash begins an escape. In both, a line end with the blanks around it is read as one
blank, and each empty line after it as a line feed.

## Main definitions

* `Yaml.readQuoted`: the scalar whose opening quote was just passed.
-/

namespace Rendezvous.Yaml

/-- The character that a letter after a backslash stands for. -/
def simpleEscape? (c : Char) : Option Char :=
  match c with
  | '0' => some (Char.ofNat 0)
  | 'a' => some (Char.ofNat 0x07)
  | 'b' => some (Char.ofNat 0x08)
  | 't' => some '\t'
  | '\t' => some '\t'
  | 'n' => some '\n'
  | 'v' => some (Char.ofNat 0x0b)
  | 'f' => some (Char.ofNat 0x0c)
  | 'r' => some '\r'
  | 'e' => some (Char.ofNat 0x1b)
  | ' ' => some ' '
  | '"' => some '"'
  | '/' => some '/'
  | '\\' => some '\\'
  | 'N' => some (Char.ofNat 0x85)
  | '_' => some (Char.ofNat 0xa0)
  | 'L' => some (Char.ofNat 0x2028)
  | 'P' => some (Char.ofNat 0x2029)
  | _ => none

/-- The number of hexadecimal digits that follow a letter after a backslash. -/
def codeLength? (c : Char) : Option Nat :=
  match c with
  | 'x' => some 2
  | 'u' => some 4
  | 'U' => some 8
  | _ => none

/-- Whether a character is a hexadecimal digit. -/
def isHexDigit (c : Char) : Bool :=
  c.isDigit || ('a' ≤ c && c ≤ 'f') || ('A' ≤ c && c ≤ 'F')

/-- The character that an escape with a code point of the given length stands for. -/
def codeEscape (length : Nat) (rest : List Char) : Except Fault Char :=
  let digits := rest.take length
  if digits.length = length ∧ digits.all isHexDigit then
    .ok (Char.ofNat (Numeral.natOfDigits 16 digits))
  else .error (.shortEscape length (rest.dropWhile isHexDigit).head?)

/-- Passes the empty lines after a line end and counts them. -/
def emptyLines : (fuel : Nat) → Cursor → Except Fault (Nat × Cursor)
  | 0, x => .ok (0, x)
  | fuel + 1, x =>
    if isSeparator x.rest then .error .separatorInQuote
    else
      let y := x.skipWhile fun c => c == ' ' || c == '\t'
      match y.rest with
      | '\n' :: _ => (emptyLines fuel y.next).map fun (n, z) => (n + 1, z)
      | _ => .ok (0, y)

/-- What a line end followed by empty lines is read as. -/
def fold (emptyLines : Nat) : List Char :=
  if emptyLines = 0 then [' '] else List.replicate emptyLines '\n'

/-- The rest of a quoted scalar; what was read is kept in reverse. -/
def quotedRest (double : Bool) :
    (fuel : Nat) → Cursor → (read : List Char) → Except Fault (List Char × Cursor)
  | 0, _, _ => .error .openQuote
  | fuel + 1, x, read =>
    match x.rest with
    | [] => .error .openQuote
    | c :: rest =>
      if c = '\'' ∧ !double then
        match rest with
        | '\'' :: _ => quotedRest double fuel (x.skip 2) ('\'' :: read)
        | _ => .ok (read.reverse, x.next)
      else if c = '"' ∧ double then .ok (read.reverse, x.next)
      else if c = '\\' ∧ double then
        match rest with
        | [] => .error (.unknownEscape none)
        | '\n' :: _ => do
          let (n, y) ← emptyLines fuel (x.skip 2)
          quotedRest double fuel y (List.replicate n '\n' ++ read)
        | e :: more =>
          match simpleEscape? e, codeLength? e with
          | some d, _ => quotedRest double fuel (x.skip 2) (d :: read)
          | none, some n => do
            let d ← codeEscape n more
            quotedRest double fuel (x.skip (2 + n)) (d :: read)
          | none, none => .error (.unknownEscape (some e))
      else if c = ' ' ∨ c = '\t' ∨ c = '\n' then
        let blanks := x.rest.takeWhile fun c => c == ' ' || c == '\t'
        let y := x.skip blanks.length
        match y.rest with
        | '\n' :: _ => do
          let (n, z) ← emptyLines fuel y.next
          quotedRest double fuel z (fold n ++ read)
        | _ => quotedRest double fuel y (blanks.reverse ++ read)
      else quotedRest double fuel x.next (c :: read)

/-- The scalar whose opening quote was just passed. -/
def readQuoted (double : Bool) (x : Cursor) : Except Fault (List Char × Cursor) :=
  quotedRest double (x.rest.length + 1) x []

end Rendezvous.Yaml
