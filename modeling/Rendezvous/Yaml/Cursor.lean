/-!
# Positions in a settings file

The rest of the text, with the line and the column where it begins and the number of characters
before it. Lines end in a line feed; `Cursor.ofText` turns the other line ends into it.

## Main definitions

* `Yaml.Cursor`, with `Cursor.ofText`, `Cursor.next` and `Cursor.skip`.
* `Yaml.isGap` and `Yaml.isSeparator`: what ends a scalar or an indicator, and what ends a document.
-/

namespace Rendezvous.Yaml

/-- A position in a text. -/
structure Cursor where
  rest : List Char
  offset : Nat := 0
  line : Nat := 0
  column : Nat := 0
  deriving Repr, Inhabited

/-- Turns every line end into a line feed. -/
def unifyLines : List Char → List Char
  | [] => []
  | '\r' :: '\n' :: rest => '\n' :: unifyLines rest
  | c :: rest => (if c = '\r' ∨ c.toNat = 0x85 then '\n' else c) :: unifyLines rest

namespace Cursor

/-- The beginning of a text; a byte order mark is no part of it. -/
def ofText (s : String) : Cursor :=
  let cs := unifyLines s.toList
  { rest := match cs with
      | c :: rest => if c.toNat = 0xfeff then rest else cs
      | [] => [] }

/-- One character further. -/
def next (x : Cursor) : Cursor :=
  match x.rest with
  | [] => x
  | '\n' :: rest => { rest, offset := x.offset + 1, line := x.line + 1, column := 0 }
  | _ :: rest => { x with rest, offset := x.offset + 1, column := x.column + 1 }

/-- Some characters further. -/
def skip (x : Cursor) : Nat → Cursor
  | 0 => x
  | n + 1 => x.next.skip n

/-- Past the characters that pass a test. -/
def skipWhile (x : Cursor) (p : Char → Bool) : Cursor :=
  x.skip (x.rest.takeWhile p).length

/-- The next character. -/
def peek? (x : Cursor) : Option Char :=
  x.rest.head?

end Cursor

/-- Whether a place in a text is its end, a blank or the end of a line. -/
def isGap : Option Char → Bool
  | none => true
  | some c => c == ' ' || c == '\t' || c == '\n'

/-- Whether a line that begins like this separates documents. -/
def isSeparator : List Char → Bool
  | '-' :: '-' :: '-' :: rest => isGap rest.head?
  | '.' :: '.' :: '.' :: rest => isGap rest.head?
  | _ => false

end Rendezvous.Yaml
