import Rendezvous.Text.Quoted

/-!
# Tokens and faults of settings files

A settings file is read in two steps. The first splits it into tokens and turns indentation into
tokens that begin and end a block; the second builds the document from them. Each step has its own
faults, and readers of the file are told which step failed.

## Main definitions

* `Yaml.Token`, with `Token.name`.
* `Yaml.Fault`, with `Fault.step` and `Fault.message`.
-/

namespace Rendezvous.Yaml

/-- A token of a settings file. -/
inductive Token where
  | documentStart
  | documentEnd
  | streamEnd
  | blockSequenceStart
  | blockMappingStart
  | blockEnd
  | sequenceOpen
  | sequenceClose
  | mappingOpen
  | mappingClose
  /-- The dash before an item of a block sequence. -/
  | entry
  | comma
  | key
  | value
  /-- A scalar; a plain one stands without quotes. -/
  | scalar (text : List Char) (plain : Bool)
  deriving DecidableEq, Repr, Inhabited

/-- How messages call a token. -/
def Token.name : Token → String
  | .documentStart => "<document start>"
  | .documentEnd => "<document end>"
  | .streamEnd => "<stream end>"
  | .blockSequenceStart => "<block sequence start>"
  | .blockMappingStart => "<block mapping start>"
  | .blockEnd => "<block end>"
  | .sequenceOpen => "["
  | .sequenceClose => "]"
  | .mappingOpen => "\x7b"
  | .mappingClose => "\x7d"
  | .entry => "-"
  | .comma => ","
  | .key => "?"
  | .value => ":"
  | .scalar .. => "<scalar>"

/-- The step of reading that finds a fault. -/
inductive Step where
  /-- Splitting the text into tokens. -/
  | tokens
  /-- Putting the tokens together. -/
  | structural
  /-- Joining the documents of a file. -/
  | composition
  /-- Making values of what was put together. -/
  | construction
  deriving DecidableEq, Repr

/-- Why a settings file cannot be read. -/
inductive Fault where
  /-- A character that begins no token. -/
  | strayCharacter (c : Char)
  /-- The text ends inside quotes. -/
  | openQuote
  /-- A line inside quotes separates documents. -/
  | separatorInQuote
  | unknownEscape (c : Option Char)
  /-- An escape by code point with too few digits. -/
  | shortEscape (digits : Nat) (c : Option Char)
  /-- A line that must be a key has no colon. -/
  | missingColon
  | misplacedValue
  | misplacedKey
  | misplacedEntry
  | expectedNode (found : Token)
  | expectedBlockEnd (found : Token)
  | expectedInSequence (found : Token)
  | expectedInMapping (found : Token)
  | expectedDocument (found : Token)
  | secondDocument
  | repeatedKey
  | unusableKey
  deriving DecidableEq, Repr, Inhabited

namespace Fault

/-- The step that finds a fault. -/
def step : Fault → Step
  | .strayCharacter _ | .openQuote | .separatorInQuote | .unknownEscape _ | .shortEscape ..
  | .missingColon | .misplacedValue | .misplacedKey | .misplacedEntry => .tokens
  | .expectedNode _ | .expectedBlockEnd _ | .expectedInSequence _ | .expectedInMapping _
  | .expectedDocument _ => .structural
  | .secondDocument => .composition
  | .repeatedKey | .unusableKey => .construction

/-- A character in a message; the end of the text counts as the null character. -/
def shown (c : Option Char) : String :=
  Text.quoted (String.singleton (c.getD (Char.ofNat 0)))

/-- The sentence that explains a fault. -/
def message : Fault → String
  | .strayCharacter c => "found character " ++ shown (some c) ++ " that cannot start any token"
  | .openQuote => "found unexpected end of stream"
  | .separatorInQuote => "found unexpected document separator"
  | .unknownEscape c => "found unknown escape character " ++ shown c
  | .shortEscape digits c =>
    "expected escape sequence of " ++ toString digits ++ " hexdecimal numbers, but found " ++
      shown c
  | .missingColon => "could not find expected ':'"
  | .misplacedValue => "mapping values are not allowed here"
  | .misplacedKey => "mapping keys are not allowed here"
  | .misplacedEntry => "sequence entries are not allowed here"
  | .expectedNode t => "expected the node content, but found " ++ Text.quoted t.name
  | .expectedBlockEnd t => "expected <block end>, but found " ++ Text.quoted t.name
  | .expectedInSequence t => "expected ',' or ']', but got " ++ Text.quoted t.name
  | .expectedInMapping t => "expected ',' or '\x7d', but got " ++ Text.quoted t.name
  | .expectedDocument t => "expected '<document start>', but found " ++ Text.quoted t.name
  | .secondDocument => "but found another document"
  | .repeatedKey => "found duplicate key"
  | .unusableKey => "found unhashable key"

end Fault

end Rendezvous.Yaml
