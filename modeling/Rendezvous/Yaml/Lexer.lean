import Rendezvous.Yaml.Plain
import Rendezvous.Yaml.Quoted

/-!
# From text to tokens

Outside brackets, the column of a line decides which blocks it belongs to: a deeper column opens a
block, a lesser one closes every block that is deeper. A scalar or bracket that begins where a key
may stand is a candidate; the colon that follows it on the same line, at most 1024 characters
later, makes it a key, and the key's tokens go in front of it.

## Main definitions

* `Yaml.Lexer`: how far the text was read, the open blocks and brackets, and the tokens so far.
* `Yaml.Lexer.step`: reads one token.
* `Yaml.Lexer.settled`: the tokens that no later colon can change.
* `Yaml.tokens`: the tokens of a text, and the fault that ends them if there is one.
-/

namespace Rendezvous.Yaml

/-- What may turn out to be a key. -/
structure Candidate where
  /-- The number of tokens before it. -/
  index : Nat
  offset : Nat
  line : Nat
  column : Nat
  /-- Whether it must be a key, because it begins a line of a block. -/
  required : Bool
  deriving Repr

/-- The brackets that hold items. -/
inductive Bracket where
  | sequence
  | mapping
  deriving DecidableEq, Repr

/-- The state of splitting a text. -/
structure Lexer where
  cursor : Cursor
  /-- The columns of the open blocks, innermost first. -/
  blocks : List Nat := []
  /-- The open brackets, innermost first, each with the candidate outside it. -/
  brackets : List (Bracket × Option Candidate) := []
  /-- The candidate inside the innermost bracket. -/
  candidate : Option Candidate := none
  /-- Whether a key may begin here. -/
  keyAllowed : Bool := true
  tokens : Array Token := #[]
  deriving Repr, Inhabited

namespace Lexer

/-- Whether the text stands inside brackets. -/
def inBrackets (x : Lexer) : Bool :=
  !x.brackets.isEmpty

/-- Adds a token. -/
def emit (x : Lexer) (t : Token) : Lexer :=
  { x with tokens := x.tokens.push t }

/-- Puts a token in front of others. -/
def insert (x : Lexer) (index : Nat) (t : Token) : Lexer :=
  { x with tokens := x.tokens.extract 0 index ++ #[t] ++ x.tokens.extract index }

/-- Adds a token of the given length that stands here. -/
def take (x : Lexer) (length : Nat) (t : Token) : Lexer :=
  { x.emit t with cursor := x.cursor.skip length }

/-- Passes blanks, comments and line ends. -/
def skipGaps : (fuel : Nat) → Lexer → Lexer
  | 0, x => x
  | fuel + 1, x =>
    let blank := x.cursor.skipWhile (· == ' ')
    let here := if blank.peek? = some '#' then blank.skipWhile (· != '\n') else blank
    if here.peek? = some '\n' then
      skipGaps fuel { x with cursor := here.next, keyAllowed := x.keyAllowed || !x.inBrackets }
    else { x with cursor := here }

/-- Closes the blocks whose columns pass a test; brackets keep blocks open. -/
def closeBlocks (x : Lexer) (deeper : Nat → Bool) : Lexer :=
  if x.inBrackets then x
  else
    { x with
      blocks := x.blocks.dropWhile deeper
      tokens := x.tokens ++ ((x.blocks.takeWhile deeper).map fun _ => Token.blockEnd).toArray }

/-- Opens a block at a column, unless the innermost block stands there. -/
def openBlock (x : Lexer) (column : Nat) (index : Nat) (start : Token) : Lexer :=
  let deeper := match x.blocks with
    | [] => true
    | outer :: _ => outer < column
  if deeper then { x.insert index start with blocks := column :: x.blocks } else x

/-- Gives up a candidate, unless it must be a key. -/
def dismiss : Option Candidate → Except Fault (Option Candidate)
  | some k => if k.required then .error .missingColon else .ok none
  | none => .ok none

/-- Gives up the innermost candidate. -/
def dismissCandidate (x : Lexer) : Except Fault Lexer := do
  let candidate ← dismiss x.candidate
  return { x with candidate }

/-- The greatest distance between the beginning of a key and its colon. -/
def maxKeyLength : Nat := 1024

/-- Gives up a candidate that is too far back. -/
def dismissIfStale (x : Cursor) : Option Candidate → Except Fault (Option Candidate)
  | some k =>
    if k.line ≠ x.line ∨ maxKeyLength < x.offset - k.offset then dismiss (some k)
    else .ok (some k)
  | none => .ok none

/-- Gives up all candidates that are too far back. -/
def dismissStale (x : Lexer) : Except Fault Lexer := do
  let candidate ← dismissIfStale x.cursor x.candidate
  let brackets ← x.brackets.mapM fun (b, k) => do
    let k ← dismissIfStale x.cursor k
    return (b, k)
  return { x with candidate, brackets }

/-- Notes that what begins here may be a key, if a key may stand here. -/
def noteCandidate (x : Lexer) : Except Fault Lexer := do
  if !x.keyAllowed then return x
  let x ← x.dismissCandidate
  return { x with candidate := some {
    index := x.tokens.size
    offset := x.cursor.offset
    line := x.cursor.line
    column := x.cursor.column
    required := !x.inBrackets && x.blocks.head? == some x.cursor.column } }

/-- The end of the text. -/
def readEnd (x : Lexer) : Except Fault Lexer := do
  let x ← (x.closeBlocks fun _ => true).dismissCandidate
  return x.emit .streamEnd

/-- A separator of documents. -/
def readSeparator (x : Lexer) (t : Token) : Except Fault Lexer := do
  let x ← (x.closeBlocks fun _ => true).dismissCandidate
  return { x.take 3 t with keyAllowed := false }

/-- An opening bracket. -/
def readOpening (x : Lexer) (b : Bracket) (t : Token) : Except Fault Lexer := do
  let x ← x.noteCandidate
  return { x.take 1 t with
    brackets := (b, x.candidate) :: x.brackets
    candidate := none
    keyAllowed := true }

/-- A closing bracket, of whatever kind. -/
def readClosing (x : Lexer) (t : Token) : Except Fault Lexer := do
  let x ← x.dismissCandidate
  return { x.take 1 t with
    brackets := x.brackets.tail
    candidate := x.brackets.head?.bind (·.2)
    keyAllowed := false }

/-- A comma. -/
def readComma (x : Lexer) : Except Fault Lexer := do
  let x ← x.dismissCandidate
  return { x.take 1 .comma with keyAllowed := true }

/-- The dash before an item. -/
def readEntry (x : Lexer) : Except Fault Lexer := do
  if !x.inBrackets && !x.keyAllowed then throw .misplacedEntry
  let x := if x.inBrackets then x
    else x.openBlock x.cursor.column x.tokens.size .blockSequenceStart
  let x ← x.dismissCandidate
  return { x.take 1 .entry with keyAllowed := true }

/-- The question mark before a key. -/
def readKey (x : Lexer) : Except Fault Lexer := do
  if !x.inBrackets && !x.keyAllowed then throw .misplacedKey
  let x := if x.inBrackets then x
    else x.openBlock x.cursor.column x.tokens.size .blockMappingStart
  let x ← x.dismissCandidate
  return { x.take 1 .key with keyAllowed := !x.inBrackets }

/-- The colon before a value. -/
def readValue (x : Lexer) : Except Fault Lexer :=
  match x.candidate with
  | some k =>
    let x := { x.insert k.index .key with candidate := none, keyAllowed := false }
    let x := if x.inBrackets then x else x.openBlock k.column k.index .blockMappingStart
    .ok (x.take 1 .value)
  | none => do
    if !x.inBrackets && !x.keyAllowed then throw .misplacedValue
    let x := if x.inBrackets then x
      else x.openBlock x.cursor.column x.tokens.size .blockMappingStart
    return { x.take 1 .value with keyAllowed := !x.inBrackets }

/-- Whether a colon that stands here begins a value. -/
def beginsValue (x : Lexer) (rest : List Char) : Bool :=
  isGap rest.head? || match x.brackets with
    | (.mapping, _) :: _ => x.tokens.back? != some .value
    | _ => false

/-- A scalar in quotes. -/
def readQuotedScalar (x : Lexer) (double : Bool) : Except Fault Lexer := do
  let x ← x.noteCandidate
  let (text, cursor) ← readQuoted double x.cursor.next
  return { x.emit (.scalar text false) with cursor, keyAllowed := false }

/-- A scalar without quotes. -/
def readPlainScalar (x : Lexer) : Except Fault Lexer := do
  let x ← x.noteCandidate
  let indent := match x.blocks with
    | [] => 0
    | column :: _ => column + 1
  let (text, cursor, lineEnded) := readPlain x.inBrackets indent x.cursor
  return { x.emit (.scalar text true) with cursor, keyAllowed := lineEnded }

/-- Reads the token that stands here. -/
def readToken (x : Lexer) : Except Fault Lexer :=
  match x.cursor.rest with
  | [] => x.readEnd
  | c :: rest =>
    if x.cursor.column = 0 ∧ isSeparator (c :: rest) then
      x.readSeparator (if c = '-' then .documentStart else .documentEnd)
    else if c = '[' then x.readOpening .sequence .sequenceOpen
    else if c = '\x7b' then x.readOpening .mapping .mappingOpen
    else if c = ']' then x.readClosing .sequenceClose
    else if c = '\x7d' then x.readClosing .mappingClose
    else if c = ',' then x.readComma
    else if c = '-' ∧ isGap rest.head? then x.readEntry
    else if c = '?' ∧ (x.inBrackets ∨ isGap rest.head?) then x.readKey
    else if c = ':' ∧ x.beginsValue rest then x.readValue
    else if c = '\'' then x.readQuotedScalar false
    else if c = '"' then x.readQuotedScalar true
    else if beginsPlain x.inBrackets (c :: rest) then x.readPlainScalar
    else .error (.strayCharacter c)

/-- Reads the next token, with the ends of the blocks before it. -/
def step (x : Lexer) : Except Fault Lexer := do
  let x := x.skipGaps (x.cursor.rest.length + 1)
  let x ← x.dismissStale
  (x.closeBlocks (x.cursor.column < ·)).readToken

/-- The tokens that stay as they are whatever follows: those before the first candidate. -/
def settled (x : Lexer) : Array Token :=
  let candidates := x.candidate.toList ++ x.brackets.filterMap (·.2)
  x.tokens.extract 0 (candidates.foldl (fun n k => min n k.index) x.tokens.size)

/-- Reads tokens up to the end of the text or the first fault. -/
def run : (fuel : Nat) → Lexer → Array Token × Option Fault
  | 0, x => (x.tokens, none)
  | fuel + 1, x =>
    if x.tokens.back? = some .streamEnd then (x.tokens, none)
    else match x.step with
      | .ok y => run fuel y
      | .error f => (x.settled, some f)

end Lexer

/-- The tokens of a text, and the fault that ends them if there is one. -/
def tokens (s : String) : List Token × Option Fault :=
  let cursor := Cursor.ofText s
  let (ts, fault) := Lexer.run (cursor.rest.length + 2) { cursor }
  (ts.toList, fault)

end Rendezvous.Yaml
