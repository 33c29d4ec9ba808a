import Rendezvous.Cell
import Rendezvous.Log.Record
import Rendezvous.Log.Template
import Rendezvous.Notice

/-!
# Output of log records

An output has a threshold and carries values of the surroundings for the records that are still to
come. A logger of the library fills in its template before the threshold is asked, so that a bad
template is noticed whatever the threshold; a logger of other code asks the threshold first, and a
bad template loses the record only. What happens on a thread of its own begins without
surroundings and leaves none.

## Main definitions

* `Log.Output` and `Log.Output.configure?`.
* `Log.Entry` and `Log.Output.accept`: what is logged and what becomes of it.
* `Log.Record.ofNotice`: the record of a notice.
-/

namespace Rendezvous.Log

/-- An output of log records. -/
structure Output where
  threshold : Nat := initialThreshold
  /-- Whether records are written as documents. -/
  asDocuments : Bool := false
  surroundings : Fields := {}

namespace Output

/-- Sets up an output with the threshold of a name. -/
def configure? (asDocuments : Bool) (name : String) : Except String Output :=
  (threshold? name).map fun threshold => { threshold, asDocuments }

/-- Whether records of a severity pass. -/
def passes (o : Output) (s : Severity) : Bool :=
  o.threshold ≤ s.number

end Output

/-- The kind of user code that failed, and the cell it ran for. -/
structure Concern where
  hook : String
  /-- The timeout of the cell. -/
  timeoutMs : Option Int := none

/-- The named values of a concern. -/
def Concern.fields (c : Concern) : Except Failure (List (String × Document)) :=
  (Cell.create "DeferredResult" c.timeoutMs Payload.pending none).map fun cell =>
    [("hook", .text c.hook), ("cell", .text cell.describe)]

/-- Something to log. -/
inductive Entry where
  /-- Values of the surroundings, for later records. -/
  | surroundings (fields : List (String × Document))
  /-- A record of other code. -/
  | foreign (severity : Severity) (template : String) (args : List Document)
  /-- A record of the library. -/
  | native (severity : Severity) (template : String) (args : List Document)
      (carried added : List (String × Document)) (concern : Option Concern)
      (failure : Option Failure)

namespace Output

/-- The record that an entry gives on a thread, if it gives one that passes. -/
def record? (o : Output) (thread : String) (surroundings : Fields) :
    Entry → Except Failure (Option Record)
  | .surroundings _ => .ok none
  | .foreign severity template args =>
    .ok (if o.passes severity then
      match Template.fill template args with
      | .ok event => some (Record.make severity event {} {} surroundings thread none)
      | .error _ => none
    else none)
  | .native severity template args carried added concern failure => do
    let concerned ← match concern with
      | some c => c.fields
      | none => .ok []
    let event ← Template.fill template args
    let record := Record.make severity event (Directory.putAll {} (carried ++ concerned))
      (Directory.putAll {} added) surroundings thread failure
    return if o.passes severity then some record else none

/-- What an entry comes to on the main thread or one of its own: the output afterwards, and the
record, if one passes. -/
def accept (o : Output) (own : Option String) (e : Entry) :
    Output × Except Failure (Option Record) :=
  match own, e with
  | none, .surroundings fields =>
    ({ o with surroundings := o.surroundings.putAll fields }, .ok none)
  | none, e => (o, o.record? "MainThread" o.surroundings e)
  | some name, e => (o, o.record? name {} e)

end Output

/-- The record of a notice; the end of a request without a coordinator has none. -/
def Record.ofNotice? (thread : String) (n : Notice) : Option Record :=
  n.event?.map fun event =>
    Record.make (if n.isWarning then .warning else .debug) event {}
      (Directory.putAll {} n.fields) {} thread n.failure?

/-- A record as an output writes it. -/
def Output.written (o : Output) (r : Record) : String :=
  if o.asDocuments then Document.render (.object r.document) else r.line

/-- What an output writes about the notices of threads. -/
def Output.writtenNotices (o : Output) (ns : List (String × Notice)) : List String :=
  (ns.filterMap fun (thread, n) =>
    (Record.ofNotice? thread n).filter fun r => o.passes r.severity).map o.written

end Rendezvous.Log
