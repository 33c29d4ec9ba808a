import Rendezvous.Directory
import Rendezvous.Document.Printer
import Rendezvous.Failure
import Rendezvous.Log.Severity

/-!
# Log records

A record is a list of named values in order: what its logger carries, what the call adds, the event,
what the surroundings carry, and what every record has. A later value of a name takes the place of
the earlier one, but the surroundings yield to names that are present.

A record is written as a document on one line, or for people: time, severity and event in columns,
and the other values by name in alphabetical order.

## Main definitions

* `Log.Record` and `Log.Record.make`.
* `Log.Record.document` and `Log.Record.line`: the two ways to write a record.
-/

namespace Rendezvous.Log

/-- The named values of a record. -/
abbrev Fields := Directory String Document

/-- A log record. -/
structure Record where
  severity : Severity
  fields : Fields
  /-- The failure that is being handled. -/
  failure : Option Failure := none

namespace Record

/-- What stands for the time of a record. -/
def timeMark : String := "<time>"

/-- Makes a record. -/
def make (severity : Severity) (event : String) (carried added surroundings : Fields)
    (thread : String) (failure : Option Failure) : Record :=
  let fields := ((carried.putAll added.entries).put "event" (.text event)).addAll
    surroundings.entries
  { severity, failure
    fields := ((fields.put "level" (.text severity.name)).put "timestamp" (.text timeMark)).put
      "thread_name" (.text thread) }

/-- The last line of the report of a failure. -/
def failureLine (f : Failure) : String :=
  let report := if f.message.isEmpty then f.kind else f.kind ++ ": " ++ f.message
  String.ofList (report.toList.reverse.takeWhile (· != '\n')).reverse

/-- A record as the fields of a document. -/
def document (r : Record) : List (String × Document) :=
  match r.failure with
  | some f => (r.fields.put "exception" (.text (failureLine f))).entries
  | none => r.fields.entries

/-- How a record shows a value. -/
def literal (v : Document) : String :=
  v.literal fun x => nomatch x

/-- The characters that call for quotes around a text. -/
def quotedCharacters : List Char := [' ', '\t', '=', '\r', '\n', '"', '\'']

/-- A value on a line for people: text as it is where that is clear, anything else as a literal. -/
def shown : Document → String
  | .text s => if s.toList.any quotedCharacters.contains then Text.quoted s else s
  | v => literal v

/-- A value in a column of its own: text as it is. -/
def plain : Document → String
  | .text s => s
  | v => literal v

/-- Text filled up with blanks to a width. -/
def column (width : Nat) (s : String) : String :=
  s ++ String.ofList (List.replicate (width - s.length) ' ')

/-- The names whose values have columns of their own or are not shown on a line. -/
def columnNames : List String :=
  ["timestamp", "level", "event", "logger", "logger_name", "stack", "exception"]

/-- A record for people. -/
def line (r : Record) : String :=
  let value (name : String) : List String := (r.fields.find? name).toList.map plain
  let rest := r.fields.entries.filter fun f => !columnNames.contains f.1
  let named := (rest.mergeSort fun f g => decide (f.1 ≤ g.1)).map fun f => f.1 ++ "=" ++ shown f.2
  String.intercalate " " (value "timestamp" ++
    (value "level").map (fun s => "[" ++ column 9 s ++ "]") ++
    (value "event").map (column 30) ++
    (value "logger" ++ value "logger_name").map (fun s => "[" ++ s ++ "]") ++ named)

end Record

end Rendezvous.Log
