import Rendezvous.Value

/-!
# The text of a document

Documents are written on one line, with a comma and a blank between items and a colon and a blank
after a name. Only the printable ASCII characters stand as they are; the others become units of
sixteen bits in hexadecimal, two of them where the code point needs it.

## Main definitions

* `Document.quote`: the literal of a text.
* `Document.render`: the text of a document.
-/

namespace Rendezvous.Document

/-- A unit of sixteen bits. -/
def unit (code : Nat) : List Char :=
  '\\' :: 'u' :: Text.hexDigits 4 code

/-- One character of a literal. -/
def quoteChar (c : Char) : List Char :=
  if c = '"' then ['\\', '"']
  else if c = '\\' then ['\\', '\\']
  else if c = '\n' then ['\\', 'n']
  else if c = '\r' then ['\\', 'r']
  else if c = '\t' then ['\\', 't']
  else if c.toNat = 0x08 then ['\\', 'b']
  else if c.toNat = 0x0c then ['\\', 'f']
  else if 0x20 ≤ c.toNat ∧ c.toNat < 0x7f then [c]
  else if c.toNat < 0x10000 then unit c.toNat
  else
    let above := c.toNat - 0x10000
    unit (0xd800 + above / 0x400) ++ unit (0xdc00 + above % 0x400)

/-- The literal of a text. -/
def quote (s : String) : String :=
  String.ofList ('"' :: s.toList.flatMap quoteChar ++ ['"'])

mutual

/-- The text of a document. -/
def render : Document → String
  | .null => "null"
  | .bool b => if b then "true" else "false"
  | .int n => toString n
  | .float x => x.render Binary64.documentLayout
  | .text s => quote s
  | .list items => "[" ++ String.intercalate ", " (renderItems items) ++ "]"
  | .object fields => "\x7b" ++ String.intercalate ", " (renderFields fields) ++ "\x7d"
  | .atom x => nomatch x

/-- The texts of the items of a list. -/
def renderItems : List Document → List String
  | [] => []
  | v :: rest => render v :: renderItems rest

/-- The texts of the fields of an object. -/
def renderFields : List (String × Document) → List String
  | [] => []
  | (name, v) :: rest => (quote name ++ ": " ++ render v) :: renderFields rest

end

example : render (.object [("a", .list [.int 1, .null]), ("é", .text "\n")]) =
    "\x7b\"a\": [1, null], \"\\u00e9\": \"\\n\"\x7d" := by decide

end Rendezvous.Document
