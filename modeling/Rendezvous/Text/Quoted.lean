import Rendezvous.Text.Printable

/-!
# Quoted literals

A text in quotes, as a record shows it: in single quotes, or in double quotes if it holds a single
quote and no double one. The backslash and the chosen quote are escaped, and so is every
unprintable character, in hexadecimal and as short as its code point allows.

## Main definitions

* `Text.hexDigits`: a number in hexadecimal, padded to a width.
* `Text.quoted`: the literal of a text.
-/

namespace Rendezvous.Text

/-- The last `width` hexadecimal digits of a number. -/
def hexDigits : (width : Nat) → Nat → List Char
  | 0, _ => []
  | width + 1, n => hexDigits width (n / 16) ++ [Nat.digitChar (n % 16)]

/-- The quote that surrounds a text. -/
def quoteFor (cs : List Char) : Char :=
  if cs.contains '\'' && !cs.contains '"' then '"' else '\''

/-- An unprintable character by its code point. -/
def escapeCode (code : Nat) : List Char :=
  if code < 0x100 then '\\' :: 'x' :: hexDigits 2 code
  else if code < 0x10000 then '\\' :: 'u' :: hexDigits 4 code
  else '\\' :: 'U' :: hexDigits 8 code

/-- One character of a literal in the given quotes. -/
def escapeChar (quote c : Char) : List Char :=
  if c = quote ∨ c = '\\' then ['\\', c]
  else if c = '\n' then ['\\', 'n']
  else if c = '\r' then ['\\', 'r']
  else if c = '\t' then ['\\', 't']
  else if isPrintable c then [c]
  else escapeCode c.toNat

/-- The literal of a text, quotes included. -/
def quoted (s : String) : String :=
  let cs := s.toList
  let quote := quoteFor cs
  String.ofList (quote :: cs.flatMap (escapeChar quote) ++ [quote])

example : quoted "a b" = "'a b'" ∧ quoted "it's" = "\"it's\"" := by decide
example : quoted "\n" = "'\\n'" ∧ quoted "\x7f" = "'\\x7f'" := by decide

end Rendezvous.Text
