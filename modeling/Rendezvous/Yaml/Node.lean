import Rendezvous.Yaml.Lexer
import Rendezvous.Yaml.Scalar

/-!
# From tokens to documents

The tokens of a file are put together to a tree of scalars, sequences and mappings. Where a value
or a key is left out, null stands for it. The tree becomes a document: its keys are texts and no
mapping has the same key twice.

Where the tokens end in a fault, that fault is met only by a reader that needs one token more; a
fault in the tokens before it comes first.

## Main definitions

* `Yaml.Node`: the trees.
* `Yaml.Node.read`: the tree at the front of the tokens.
* `Yaml.document`: the document of a file.
-/

namespace Rendezvous.Yaml

/-- A tree of scalars, sequences and mappings. -/
inductive Node where
  | scalar (text : List Char) (plain : Bool)
  | sequence (items : List Node)
  | mapping (fields : List (Node × Node))
  deriving Inhabited, Repr

namespace Node

/-- What stands for a value or key that is left out. -/
def absent : Node := .scalar [] true

/-- The first token; where there is none, the fault that ended the tokens. -/
def first (stop : Fault) : List Token → Except Fault Token
  | t :: _ => .ok t
  | [] => .error stop

mutual

/-- The tree at the front of the tokens. Blocks begin only where `block` holds, and a sequence
whose dashes are not indented only where `dashes` holds. -/
def read (stop : Fault) : (fuel : Nat) → (block dashes : Bool) → List Token →
    Except Fault (Node × List Token)
  | 0, _, _, _ => .error stop
  | fuel + 1, block, dashes, ts =>
    match ts with
    | [] => .error stop
    | .scalar text plain :: rest => .ok (.scalar text plain, rest)
    | .sequenceOpen :: rest => readSequence stop fuel true rest []
    | .mappingOpen :: rest => readMapping stop fuel true rest []
    | .blockSequenceStart :: rest =>
      if block then readBlockSequence stop fuel rest []
      else .error (.expectedNode .blockSequenceStart)
    | .blockMappingStart :: rest =>
      if block then readBlockMapping stop fuel rest []
      else .error (.expectedNode .blockMappingStart)
    | .entry :: rest =>
      if dashes then readDashes stop fuel (.entry :: rest) []
      else .error (.expectedNode .entry)
    | t :: _ => .error (.expectedNode t)

/-- The tree at the front of the tokens, or an absent one if a token of the given kinds comes
first. -/
def readUnless (stop : Fault) : (fuel : Nat) → (ends : List Token) → (block dashes : Bool) →
    List Token → Except Fault (Node × List Token)
  | 0, _, _, _, _ => .error stop
  | fuel + 1, ends, block, dashes, ts => do
    let t ← first stop ts
    if ends.contains t then return (absent, ts)
    read stop fuel block dashes ts

/-- The items of a block sequence up to the end of the block. -/
def readBlockSequence (stop : Fault) : (fuel : Nat) → List Token → (items : List Node) →
    Except Fault (Node × List Token)
  | 0, _, _ => .error stop
  | fuel + 1, ts, items =>
    match ts with
    | [] => .error stop
    | .entry :: rest => do
      let (v, rest) ← readUnless stop fuel [.entry, .blockEnd] true false rest
      readBlockSequence stop fuel rest (items ++ [v])
    | .blockEnd :: rest => .ok (.sequence items, rest)
    | t :: _ => .error (.expectedBlockEnd t)

/-- The items of a sequence whose dashes stand in the column of the key above it. -/
def readDashes (stop : Fault) : (fuel : Nat) → List Token → (items : List Node) →
    Except Fault (Node × List Token)
  | 0, _, _ => .error stop
  | fuel + 1, ts, items =>
    match ts with
    | [] => .error stop
    | .entry :: rest => do
      let (v, rest) ← readUnless stop fuel [.entry, .key, .value, .blockEnd] true false rest
      readDashes stop fuel rest (items ++ [v])
    | _ => .ok (.sequence items, ts)

/-- The fields of a block mapping up to the end of the block. -/
def readBlockMapping (stop : Fault) : (fuel : Nat) → List Token → (fields : List (Node × Node)) →
    Except Fault (Node × List Token)
  | 0, _, _ => .error stop
  | fuel + 1, ts, fields =>
    match ts with
    | [] => .error stop
    | .key :: rest => do
      let (k, rest) ← readUnless stop fuel [.key, .value, .blockEnd] true true rest
      let (v, rest) ← readValue stop fuel [.key, .value, .blockEnd] true rest
      readBlockMapping stop fuel rest (fields ++ [(k, v)])
    | .value :: _ => do
      let (v, rest) ← readValue stop fuel [.key, .value, .blockEnd] true ts
      readBlockMapping stop fuel rest (fields ++ [(absent, v)])
    | .blockEnd :: rest => .ok (.mapping fields, rest)
    | t :: _ => .error (.expectedBlockEnd t)

/-- The value of a field, absent if there is no colon. -/
def readValue (stop : Fault) : (fuel : Nat) → (ends : List Token) → (block : Bool) → List Token →
    Except Fault (Node × List Token)
  | 0, _, _, _ => .error stop
  | fuel + 1, ends, block, ts =>
    match ts with
    | [] => .error stop
    | .value :: rest => readUnless stop fuel ends block block rest
    | _ => .ok (absent, ts)

/-- The items between square brackets; a field among them is a mapping of its own. -/
def readSequence (stop : Fault) : (fuel : Nat) → (atStart : Bool) → List Token →
    (items : List Node) → Except Fault (Node × List Token)
  | 0, _, _, _ => .error stop
  | fuel + 1, atStart, ts, items => do
    let t ← first stop ts
    if t = .sequenceClose then return (.sequence items, ts.tail)
    if !atStart && t != .comma then throw (.expectedInSequence t)
    let ts := if atStart then ts else ts.tail
    match ← first stop ts with
    | .sequenceClose => return (.sequence items, ts.tail)
    | .key => do
      let ends := [Token.value, .comma, .sequenceClose]
      let (k, rest) ← readUnless stop fuel ends false false ts.tail
      let (v, rest) ← readValue stop fuel [.comma, .sequenceClose] false rest
      readSequence stop fuel false rest (items ++ [.mapping [(k, v)]])
    | _ => do
      let (v, rest) ← read stop fuel false false ts
      readSequence stop fuel false rest (items ++ [v])

/-- The fields between braces; one without a colon has a null value. -/
def readMapping (stop : Fault) : (fuel : Nat) → (atStart : Bool) → List Token →
    (fields : List (Node × Node)) → Except Fault (Node × List Token)
  | 0, _, _, _ => .error stop
  | fuel + 1, atStart, ts, fields => do
    let t ← first stop ts
    if t = .mappingClose then return (.mapping fields, ts.tail)
    if !atStart && t != .comma then throw (.expectedInMapping t)
    let ts := if atStart then ts else ts.tail
    match ← first stop ts with
    | .mappingClose => return (.mapping fields, ts.tail)
    | .key => do
      let ends := [Token.value, .comma, .mappingClose]
      let (k, rest) ← readUnless stop fuel ends false false ts.tail
      let (v, rest) ← readValue stop fuel [.comma, .mappingClose] false rest
      readMapping stop fuel false rest (fields ++ [(k, v)])
    | .value => do
      let (v, rest) ← readValue stop fuel [.comma, .mappingClose] false ts
      readMapping stop fuel false rest (fields ++ [(absent, v)])
    | _ => do
      let (k, rest) ← read stop fuel false false ts
      readMapping stop fuel false rest (fields ++ [(k, absent)])

end

/-- The tree of the only document in the tokens; null if there is none. -/
def ofTokens (ts : List Token) (stop : Fault) : Except Fault Node := do
  let fuel := 3 * ts.length + 3
  let content (ts : List Token) := read stop fuel true false ts
  let (n, rest) ← match ← first stop ts with
    | .streamEnd => return absent
    | .documentStart =>
      readUnless stop fuel [.documentStart, .documentEnd, .streamEnd] true false ts.tail
    | _ => content ts
  let rest ← match ← first stop rest with
    | .documentEnd => pure rest.tail
    | _ => pure rest
  match ← first stop rest with
  | .streamEnd => return n
  | _ => throw .secondDocument

/-- The text of a key that is a scalar. -/
def keyText : Document → String
  | .text s => s
  | v => v.literal fun x => nomatch x

/-- Adds a field whose key must be new. -/
def addField (fields : List (String × Document)) (name : String) (v : Document) :
    Except Fault (List (String × Document)) :=
  if (fields.lookup name).isSome then .error .repeatedKey else .ok (fields ++ [(name, v)])

mutual

/-- The document of a tree. -/
def toDocument : Node → Except Fault Document
  | .scalar text plain => .ok (if plain then plainValue text else .text (String.ofList text))
  | .sequence items => (toItems items).map .list
  | .mapping fields => (toFields fields []).map .object

/-- The documents of the items of a sequence. -/
def toItems : List Node → Except Fault (List Document)
  | [] => .ok []
  | n :: rest => do
    let v ← toDocument n
    let others ← toItems rest
    return v :: others

/-- The fields of a mapping. -/
def toFields : List (Node × Node) → (before : List (String × Document)) →
    Except Fault (List (String × Document))
  | [], before => .ok before
  | (k, n) :: rest, before => do
    let name ← match k with
      | .scalar text plain =>
        .ok (if plain then keyText (plainValue text) else String.ofList text)
      | _ => .error .unusableKey
    let v ← toDocument n
    toFields rest (← addField before name v)

end

end Node

/-- The document of a file. -/
def document (s : String) : Except Fault Document := do
  let (ts, fault) := tokens s
  let n ← Node.ofTokens ts (fault.getD (.expectedDocument .streamEnd))
  n.toDocument

end Rendezvous.Yaml
