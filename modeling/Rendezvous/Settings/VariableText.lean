import Rendezvous.Number.Numeral
import Rendezvous.Value

/-!
# Values in the text of variables

A variable of the environment holds text, but a setting may be a number, a truth value, a list or
a table. The text of a variable is read as such a value if it is exactly one, with blanks around
it and perhaps a comment after it; otherwise it stands for itself.

Dynaconf also lets a text name a converter in front of the value, such as `@int`, `@bool` or
`@json`. These are left out: here a text that begins with `@` stands for itself.

## Main definitions

* `VariableText.number?`: the numbers.
* `VariableText.readItem`: a value at the front of a text.
* `VariableText.read`: the value of a whole text.
-/

namespace Rendezvous.VariableText

/-- Whether digits stand alone or between single underscores. -/
def grouped (isDigit : Char → Bool) : List Char → Bool
  | [] => false
  | [c] => isDigit c
  | c :: '_' :: rest => isDigit c && grouped isDigit rest
  | c :: rest => isDigit c && grouped isDigit rest

/-- Whether digits are those of a whole number: no zero in front of others. -/
def isWhole (cs : List Char) : Bool :=
  grouped Char.isDigit cs && (cs == ['0'] || cs.head? != some '0')

/-- The number in a base that digits write, if they do. -/
def inBase? (base : Nat) (isDigit : Char → Bool) (cs : List Char) : Option Document :=
  if grouped isDigit cs then some (.int (Numeral.natOfDigits base cs)) else none

/-- The number that a word writes. -/
def number? (cs : List Char) : Option Document :=
  match cs with
  | '0' :: 'x' :: rest => inBase? 16
      (fun c => c.isDigit || ('a' ≤ c && c ≤ 'f') || ('A' ≤ c && c ≤ 'F')) rest
  | '0' :: 'o' :: rest => inBase? 8 (fun c => '0' ≤ c && c ≤ '7') rest
  | '0' :: 'b' :: rest => inBase? 2 (fun c => c == '0' || c == '1') rest
  | _ =>
    let (sign, rest) := Numeral.takeSign cs
    let negative := sign == some true
    if rest = ['i', 'n', 'f'] then some (.float (.infinite negative))
    else if rest = ['n', 'a', 'n'] then some (.float .nan)
    else
      let n := Numeral.split rest
      let exponentIsGrouped := n.exponent.all fun e =>
        grouped Char.isDigit (Numeral.takeSign e).2
      if !isWhole n.whole || !exponentIsGrouped || !n.fraction.all (grouped Char.isDigit) then none
      else if n.fraction.isNone && n.exponent.isNone then
        some (.int (Numeral.signed negative (Numeral.natOfDigits 10 n.whole)))
      else some (.float (n.toBinary64 negative))

/-- The character that a letter after a backslash stands for. -/
def simpleEscape? (c : Char) : Option Char :=
  match c with
  | 'b' => some (Char.ofNat 0x08)
  | 't' => some '\t'
  | 'n' => some '\n'
  | 'f' => some (Char.ofNat 0x0c)
  | 'r' => some '\r'
  | '"' => some '"'
  | '\\' => some '\\'
  | _ => none

/-- The character of an escape by code point. -/
def codeEscape? (length : Nat) (cs : List Char) : Option Char :=
  let digits := cs.take length
  let isHex (c : Char) : Bool := c.isDigit || ('a' ≤ c && c ≤ 'f') || ('A' ≤ c && c ≤ 'F')
  let code := Numeral.natOfDigits 16 digits
  if digits.length = length ∧ digits.all isHex ∧ code.isValidChar then some (Char.ofNat code)
  else none

/-- Whether a character may stand between quotes as it is. -/
def isQuotable (c : Char) : Bool :=
  c == '\t' || (0x20 ≤ c.toNat && c.toNat != 0x7f)

/-- The rest of a text in double quotes; what was read is kept in reverse. -/
def doubleQuoted? : (fuel : Nat) → List Char → (read : List Char) → Option (String × List Char)
  | 0, _, _ => none
  | fuel + 1, cs, read =>
    match cs with
    | '"' :: rest => some (String.ofList read.reverse, rest)
    | '\\' :: 'u' :: rest => do
      let c ← codeEscape? 4 rest
      doubleQuoted? fuel (rest.drop 4) (c :: read)
    | '\\' :: 'U' :: rest => do
      let c ← codeEscape? 8 rest
      doubleQuoted? fuel (rest.drop 8) (c :: read)
    | '\\' :: c :: rest => do
      let e ← simpleEscape? c
      doubleQuoted? fuel rest (e :: read)
    | c :: rest => if isQuotable c then doubleQuoted? fuel rest (c :: read) else none
    | [] => none

/-- The rest of a text in single quotes, in which every character stands for itself. -/
def singleQuoted? (cs : List Char) : Option (String × List Char) :=
  match cs.dropWhile (· != '\'') with
  | _ :: rest =>
    let text := cs.takeWhile (· != '\'')
    if text.all isQuotable then some (String.ofList text, rest) else none
  | [] => none

/-- Whether a character separates words. -/
def endsWord (c : Char) : Bool :=
  [' ', '\t', '\n', ',', '[', ']', '\x7b', '\x7d', '#', '=', '"', '\''].contains c

/-- Passes blanks. -/
def skipBlanks (cs : List Char) : List Char :=
  cs.dropWhile fun c => c == ' ' || c == '\t'

/-- Passes blanks, line ends and comments. -/
def skipLines : (fuel : Nat) → List Char → List Char
  | 0, cs => cs
  | fuel + 1, cs =>
    match cs with
    | '#' :: rest => skipLines fuel (rest.dropWhile (· != '\n'))
    | c :: rest => if c = ' ' ∨ c = '\t' ∨ c = '\n' then skipLines fuel rest else cs
    | [] => []

/-- The name of a field of a table. -/
def fieldName? (cs : List Char) : Option (String × List Char) :=
  match cs with
  | '"' :: rest => doubleQuoted? (rest.length + 1) rest []
  | '\'' :: rest => singleQuoted? rest
  | _ =>
    let isBare (c : Char) : Bool := c.isAlphanum || c == '_' || c == '-'
    let name := cs.takeWhile isBare
    if name.isEmpty then none else some (String.ofList name, cs.dropWhile isBare)

mutual

/-- A value at the front of a text. -/
def readItem : (fuel : Nat) → List Char → Option (Document × List Char)
  | 0, _ => none
  | fuel + 1, cs =>
    match cs with
    | '"' :: rest =>
      (doubleQuoted? (rest.length + 1) rest []).map fun (s, rest) => (.text s, rest)
    | '\'' :: rest => (singleQuoted? rest).map fun (s, rest) => (.text s, rest)
    | '[' :: rest => readList fuel rest []
    | '\x7b' :: rest =>
      match skipBlanks rest with
      | '\x7d' :: rest => some (.object [], rest)
      | rest => readTable fuel rest []
    | _ =>
      let word := cs.takeWhile (!endsWord ·)
      let rest := cs.dropWhile (!endsWord ·)
      if word = ['t', 'r', 'u', 'e'] then some (.bool true, rest)
      else if word = ['f', 'a', 'l', 's', 'e'] then some (.bool false, rest)
      else (number? word).map fun v => (v, rest)

/-- The items of a list up to its closing bracket. -/
def readList : (fuel : Nat) → List Char → (items : List Document) →
    Option (Document × List Char)
  | 0, _, _ => none
  | fuel + 1, cs, items =>
    let skip (cs : List Char) := skipLines (cs.length + 1) cs
    match skip cs with
    | ']' :: rest => some (.list items, rest)
    | cs => do
      let (v, rest) ← readItem fuel cs
      match skip rest with
      | ',' :: rest => readList fuel rest (items ++ [v])
      | ']' :: rest => some (.list (items ++ [v]), rest)
      | _ => none

/-- The fields of a table up to its closing brace. -/
def readTable : (fuel : Nat) → List Char → (fields : List (String × Document)) →
    Option (Document × List Char)
  | 0, _, _ => none
  | fuel + 1, cs, fields => do
    let (name, rest) ← fieldName? (skipBlanks cs)
    if (fields.lookup name).isSome then none
    match skipBlanks rest with
    | '=' :: rest =>
      let (v, rest) ← readItem fuel (skipBlanks rest)
      match skipBlanks rest with
      | ',' :: rest => readTable fuel rest (fields ++ [(name, v)])
      | '\x7d' :: rest => some (.object (fields ++ [(name, v)]), rest)
      | _ => none
    | _ => none

end

/-- The words for the truth values that are read whatever the case of their first letter. -/
def lowerTruth (cs : List Char) : List Char :=
  let word := String.ofList (skipBlanks (skipBlanks cs).reverse).reverse
  if word = "True" ∨ word = "False" then cs.map Char.toLower else cs

/-- The value of the text of a variable. -/
def read (s : String) : Document :=
  let cs := lowerTruth s.toList
  match readItem (cs.length + 1) (skipBlanks cs) with
  | some (v, rest) => if (skipLines (rest.length + 1) rest).isEmpty then v else .text s
  | none => .text s

end Rendezvous.VariableText
