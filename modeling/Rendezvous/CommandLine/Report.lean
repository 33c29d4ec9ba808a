import Rendezvous.CommandLine.Command
import Rendezvous.Document.Printer

/-!
# Reports of simulations

A simulation is reported as a document on one line, or line by line on the console. The console
shows a payload as it is, with these exceptions: control characters without a width are left out,
tabs are filled up with blanks, a backslash goes missing before an opening bracket that begins no
tag, and a single backslash at the end is doubled.

## Main definitions

* `Simulation.Summary.document`: the report as a document.
* `Console.literal`: a payload as the console shows it.
* `Simulation.Summary.lines`: the report line by line.
-/

namespace Rendezvous

namespace Console

/-- The characters that may follow the opening bracket of a tag. -/
def startsTag (c : Char) : Bool :=
  ('a' ≤ c && c ≤ 'z') || c == '#' || c == '/' || c == '@'

/-- Whether a text that follows an opening bracket goes on as a tag. -/
def isTag : List Char → Bool
  | c :: rest =>
    startsTag c && (rest.dropWhile fun c => c != '[' && c != ']').head? == some ']'
  | [] => false

/-- Drops the backslash before every opening bracket that begins no tag. -/
def dropEscapes : List Char → List Char
  | '\\' :: '[' :: rest =>
    if isTag rest then '\\' :: '[' :: dropEscapes rest else '[' :: dropEscapes rest
  | c :: rest => c :: dropEscapes rest
  | [] => []

/-- Doubles a backslash that is the only one at the end. -/
def closeEscape (cs : List Char) : List Char :=
  match cs.reverse.takeWhile (· == '\\') with
  | [_] => cs ++ ['\\']
  | _ => cs

/-- The characters that the console leaves out. -/
def isLeftOut (c : Char) : Bool :=
  [7, 8, 11, 12, 13].contains c.toNat

/-- A text as the console shows it. -/
def literal (s : String) : String :=
  String.ofList ((closeEscape (dropEscapes s.toList)).filter (!isLeftOut ·))

/-- The distance between the columns to which tabs lead. -/
def tabWidth : Nat := 8

/-- Fills up tabs with blanks in a text that begins at a column. -/
def fillTabs : (column : Nat) → List Char → List Char
  | _, [] => []
  | column, c :: rest =>
    if c = '\t' then
      let width := tabWidth - column % tabWidth
      List.replicate width ' ' ++ fillTabs (column + width) rest
    else c :: fillTabs (if c = '\n' then 0 else column + 1) rest

example : literal "a\\" = "a\\\\" ∧ literal "\\\\" = "\\\\" ∧
    literal "\\[x]\\[1]" = "\\[x][1]" := by decide

end Console

namespace Simulation.Summary

/-- The elapsed time as a number of milliseconds. -/
def elapsed (s : Summary) : Document :=
  .float (Binary64.ofInt s.elapsedMs)

/-- The report of a simulation as a document. -/
def document (s : Summary) : Document :=
  .object [
    ("outcome", .text s.outcome.name),
    ("payload", (s.payload.map Value.text).getD .null),
    ("producer_accepted", (s.producerAccepted.map Value.bool).getD .null),
    ("timed_out", .bool s.timedOut),
    ("timeout_ms", .int s.timeoutMs),
    ("elapsed_ms", s.elapsed)]

/-- The sign for a kind of outcome. -/
def sign : OutcomeKind → String
  | .value => "✓"
  | .error => "✗"
  | .timeout => "⏱"
  | .none => "-"

/-- A truth value as reports show it. -/
def truth (b : Bool) : String :=
  if b then "True" else "False"

/-- The report of a simulation line by line. -/
def lines (s : Summary) : List String :=
  let payload (text : String) : String := "  payload: " ++ Console.literal text
  let filled (line : String) : String := String.ofList (Console.fillTabs 0 line.toList)
  [sign s.outcome ++ " Outcome: " ++ s.outcome.name] ++
    (s.payload.map fun text => filled (payload text)).toList ++
    ["  producer accepted: " ++ (s.producerAccepted.map truth).getD "n/a",
      "  timed out: " ++ truth s.timedOut ++ " (timeout " ++ toString s.timeoutMs ++ "ms)",
      "  elapsed: " ++ Document.render s.elapsed ++ "ms"]

/-- The report of a simulation in a form. -/
def report (s : Summary) : CommandLine.ReportForm → List String
  | .console => s.lines
  | .json => [Document.render s.document]

end Simulation.Summary

end Rendezvous
