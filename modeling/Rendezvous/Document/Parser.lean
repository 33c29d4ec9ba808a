import Rendezvous.Value

/-!
# Reading a document

The reader accepts one document with blanks around its parts. A number with a fraction or an
exponent is a floating-point number, any other an integer. Each function returns what it read and
the rest of the text.

## Main definitions

* `Document.parse?`: the document a text holds.
-/

namespace Rendezvous.Document

/-- The blanks of a document. -/
def isGap (c : Char) : Bool :=
  c == ' ' || c == '\t' || c == '\n' || c == '\r'

/-- Drops the blanks at the front. -/
def skip (cs : List Char) : List Char :=
  cs.dropWhile isGap

/-- The number that hexadecimal digits write. -/
def hexValue? (cs : List Char) : Option Nat :=
  cs.foldl (fun acc c => do
    let n ← acc
    let d ←
      if '0' ≤ c ∧ c ≤ '9' then some (c.toNat - '0'.toNat)
      else if 'a' ≤ c ∧ c ≤ 'f' then some (c.toNat - 'a'.toNat + 10)
      else if 'A' ≤ c ∧ c ≤ 'F' then some (c.toNat - 'A'.toNat + 10)
      else none
    pure (n * 16 + d)) (some 0)

/-- The character that a letter after a backslash stands for. -/
def simpleEscape? (c : Char) : Option Char :=
  match c with
  | '"' => some '"'
  | '\\' => some '\\'
  | '/' => some '/'
  | 'b' => some (Char.ofNat 0x08)
  | 'f' => some (Char.ofNat 0x0c)
  | 'n' => some '\n'
  | 'r' => some '\r'
  | 't' => some '\t'
  | _ => none

/-- A unit of sixteen bits at the front. -/
def unit? : List Char → Option (Nat × List Char)
  | a :: b :: c :: d :: rest => (hexValue? [a, b, c, d]).map (·, rest)
  | _ => none

/-- The rest of a text after its opening quote. A pair of surrogate units is one character, and a
lone one is replaced. -/
def parseText : (fuel : Nat) → List Char → (read : List Char) → Option (String × List Char)
  | 0, _, _ => none
  | fuel + 1, cs, read =>
    match cs with
    | '"' :: rest => some (String.ofList read.reverse, rest)
    | '\\' :: 'u' :: rest => do
      let (high, rest) ← unit? rest
      if 0xd800 ≤ high ∧ high < 0xdc00 then
        match rest with
        | '\\' :: 'u' :: more =>
          let (low, more) ← unit? more
          if 0xdc00 ≤ low ∧ low < 0xe000 then
            parseText fuel more
              (Char.ofNat (0x10000 + (high - 0xd800) * 0x400 + (low - 0xdc00)) :: read)
          else parseText fuel rest (Char.ofNat 0xfffd :: read)
        | _ => parseText fuel rest (Char.ofNat 0xfffd :: read)
      else if 0xdc00 ≤ high ∧ high < 0xe000 then parseText fuel rest (Char.ofNat 0xfffd :: read)
      else parseText fuel rest (Char.ofNat high :: read)
    | '\\' :: c :: rest => do
      let e ← simpleEscape? c
      parseText fuel rest (e :: read)
    | c :: rest => parseText fuel rest (c :: read)
    | [] => none

/-- The number that decimal digits write. -/
def decimalValue (cs : List Char) : Nat :=
  cs.foldl (fun n c => n * 10 + (c.toNat - '0'.toNat)) 0

/-- A number at the front. -/
def parseNumber (cs : List Char) : Option (Document × List Char) :=
  let (negative, cs) := match cs with
    | '-' :: rest => (true, rest)
    | _ => (false, cs)
  let whole := cs.takeWhile Char.isDigit
  let cs := cs.dropWhile Char.isDigit
  if whole.isEmpty then none
  else
    let (fraction, cs) := match cs with
      | '.' :: rest => (rest.takeWhile Char.isDigit, rest.dropWhile Char.isDigit)
      | _ => ([], cs)
    let (exponent, cs) : Option Int × List Char := match cs with
      | e :: rest =>
        if e = 'e' ∨ e = 'E' then
          let (sign, rest) : Int × List Char := match rest with
            | '-' :: more => (-1, more)
            | '+' :: more => (1, more)
            | _ => (1, rest)
          (some (sign * decimalValue (rest.takeWhile Char.isDigit)), rest.dropWhile Char.isDigit)
        else (none, cs)
      | [] => (none, cs)
    if fraction.isEmpty && exponent.isNone then
      let n : Nat := decimalValue whole
      some (.int (if negative then -n else n), cs)
    else
      some (.float (Binary64.ofDecimal negative (decimalValue (whole ++ fraction))
        (exponent.getD 0 - fraction.length)), cs)

mutual

/-- A document at the front, after its blanks. -/
def parseValue : (fuel : Nat) → List Char → Option (Document × List Char)
  | 0, _ => none
  | fuel + 1, cs =>
    match skip cs with
    | 'n' :: 'u' :: 'l' :: 'l' :: rest => some (.null, rest)
    | 't' :: 'r' :: 'u' :: 'e' :: rest => some (.bool true, rest)
    | 'f' :: 'a' :: 'l' :: 's' :: 'e' :: rest => some (.bool false, rest)
    | '"' :: rest => (parseText (rest.length + 1) rest []).map fun (s, rest) => (.text s, rest)
    | '[' :: rest =>
      match skip rest with
      | ']' :: rest => some (.list [], rest)
      | _ => (parseItems fuel rest []).map fun (items, rest) => (.list items, rest)
    | '\x7b' :: rest =>
      match skip rest with
      | '\x7d' :: rest => some (.object [], rest)
      | _ => (parseFields fuel rest []).map fun (fields, rest) => (.object fields, rest)
    | cs => parseNumber cs

/-- The items of a list up to its closing bracket. -/
def parseItems : (fuel : Nat) → List Char → (read : List Document) →
    Option (List Document × List Char)
  | 0, _, _ => none
  | fuel + 1, cs, read => do
    let (v, rest) ← parseValue fuel cs
    match skip rest with
    | ',' :: rest => parseItems fuel rest (v :: read)
    | ']' :: rest => some ((v :: read).reverse, rest)
    | _ => none

/-- The fields of an object up to its closing brace. -/
def parseFields : (fuel : Nat) → List Char → (read : List (String × Document)) →
    Option (List (String × Document) × List Char)
  | 0, _, _ => none
  | fuel + 1, cs, read =>
    match skip cs with
    | '"' :: rest => do
      let (name, rest) ← parseText (rest.length + 1) rest []
      match skip rest with
      | ':' :: rest =>
        let (v, rest) ← parseValue fuel rest
        match skip rest with
        | ',' :: rest => parseFields fuel rest ((name, v) :: read)
        | '\x7d' :: rest => some (((name, v) :: read).reverse, rest)
        | _ => none
      | _ => none
    | _ => none

end

/-- The document that a text holds. -/
def parse? (s : String) : Option Document :=
  let cs := s.toList
  match parseValue (cs.length + 1) cs with
  | some (v, rest) => if (skip rest).isEmpty then some v else none
  | none => none

end Rendezvous.Document
