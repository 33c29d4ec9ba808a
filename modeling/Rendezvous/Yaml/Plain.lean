import Rendezvous.Yaml.Cursor

/-!
# Plain scalars

A scalar without quotes ends before a colon that a gap follows and before a comment; inside
brackets it ends before a comma or a bracket, too. It may go on in the next line if that line is
indented deeper than the block around it. A line end inside it is read as one blank, and each
empty line after that as a line feed.

## Main definitions

* `Yaml.beginsPlain`: whether a plain scalar begins here.
* `Yaml.readPlain`: the scalar that begins here.
-/

namespace Rendezvous.Yaml

/-- The characters that begin no plain scalar, whatever follows. -/
def indicators : List Char :=
  ['-', '?', ':', ',', '[', ']', '\x7b', '\x7d', '#', '&', '*', '!', '|', '>', '\'', '"', '%', '@',
    '\x60', ' ', '\t', '\n']

/-- Whether a plain scalar begins with these characters. A dash may begin one if no gap follows;
so may a colon or a question mark outside brackets, and a colon before a line end inside them. -/
def beginsPlain (inBrackets : Bool) (cs : List Char) : Bool :=
  match cs with
  | [] => false
  | c :: rest =>
    !indicators.contains c || (c == '-' && !isGap rest.head?) ||
      (c == ':' && inBrackets && rest.head? != some ' ' && rest.head? != some '\t') ||
      (!inBrackets && (c == '?' || c == ':') && !isGap rest.head?)

/-- Whether a plain scalar ends before this character. -/
def endsPlain (inBrackets : Bool) (c : Char) (following : Option Char) : Bool :=
  isGap (some c) || (c == ':' && isGap following) ||
    (inBrackets && (c == ',' || c == '[' || c == ']' || c == '\x7b' || c == '\x7d'))

/-- The length of the piece of a plain scalar that stands here. -/
def plainLength (inBrackets : Bool) : List Char → Nat
  | [] => 0
  | c :: rest => if endsPlain inBrackets c rest.head? then 0 else plainLength inBrackets rest + 1

/-- Passes the blanks and empty lines after a line end and counts the empty lines; nothing if a
separator of documents comes first. -/
def blankLines : (fuel : Nat) → Cursor → Option Nat × Cursor
  | 0, x => (some 0, x)
  | fuel + 1, x =>
    if x.column = 0 ∧ isSeparator x.rest then (none, x)
    else match x.rest with
      | ' ' :: _ => blankLines fuel x.next
      | '\n' :: _ =>
        let (n, y) := blankLines fuel x.next
        (n.map (· + 1), y)
      | _ => (some 0, x)

/-- The gap after a piece of a plain scalar: what it is read as, where it ends, and whether it
ends a line. -/
def plainGap (x : Cursor) : List Char × Cursor × Bool :=
  let blanks := x.rest.takeWhile (· == ' ')
  let y := x.skip blanks.length
  match y.rest with
  | '\n' :: _ =>
    match blankLines y.rest.length y.next with
    | (some 0, z) => ([' '], z, true)
    | (some n, z) => (List.replicate n '\n', z, true)
    | (none, z) => ([], z, true)
  | _ => (blanks, y, false)

/-- The pieces of a plain scalar from here on. The last result tells whether a line ended after
the last piece. -/
def plainPieces (inBrackets : Bool) (indent : Nat) :
    (fuel : Nat) → Cursor → (gap : List Char) → (read : List Char) → (lineEnded : Bool) →
      List Char × Cursor × Bool
  | 0, x, _, read, ended => (read, x, ended)
  | fuel + 1, x, gap, read, ended =>
    let n := if x.peek? = some '#' then 0 else plainLength inBrackets x.rest
    if n = 0 then (read, x, ended)
    else
      let read := read ++ gap ++ x.rest.take n
      let (gap, y, ended) := plainGap (x.skip n)
      if gap.isEmpty ∨ (!inBrackets ∧ y.column < indent) then (read, y, ended)
      else plainPieces inBrackets indent fuel y gap read ended

/-- The plain scalar that begins here, where it ends, and whether a line ended after it. -/
def readPlain (inBrackets : Bool) (indent : Nat) (x : Cursor) : List Char × Cursor × Bool :=
  plainPieces inBrackets indent (x.rest.length + 1) x [] [] false

end Rendezvous.Yaml
