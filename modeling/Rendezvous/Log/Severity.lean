import Rendezvous.Settings.Basic
import Rendezvous.Text.Casing

/-!
# Severity of log records

Every record has a severity, and an output lets the records pass whose severity reaches its
threshold. A threshold is asked for by name, in whatever case; it has more names than the settings
admit.

## Main definitions

* `Log.Severity`, with its number and its name.
* `Log.threshold?`: the threshold of a name.
-/

namespace Rendezvous.Log

/-- The severity of a record. -/
inductive Severity where
  | debug
  | info
  | warning
  | error
  | critical
  deriving DecidableEq, Repr, Inhabited

namespace Severity

/-- The number by which severities are compared. -/
def number : Severity → Nat
  | .debug => 10
  | .info => 20
  | .warning => 30
  | .error => 40
  | .critical => 50

/-- The name that records show. -/
def name : Severity → String
  | .debug => "debug"
  | .info => "info"
  | .warning => "warning"
  | .error => "error"
  | .critical => "critical"

end Severity

/-- The names of thresholds. -/
def thresholds : List (String × Nat) :=
  [("DEBUG", 10), ("INFO", 20), ("WARNING", 30), ("WARN", 30), ("ERROR", 40), ("CRITICAL", 50),
    ("FATAL", 50), ("NOTSET", 0)]

/-- The threshold that a name asks for, or the name in upper case if there is none. -/
def threshold? (name : String) : Except String Nat :=
  let name := Text.upperCase name
  match thresholds.lookup name with
  | some n => .ok n
  | none => .error name

/-- The sentence about a threshold that does not exist. -/
def unknownThreshold (name : String) : String :=
  "module 'logging' has no attribute '" ++ name ++ "'"

/-- The threshold of a level of the settings. -/
def thresholdOf : Level → Nat
  | .debug => 10
  | .info => 20
  | .warning => 30
  | .error => 40

theorem threshold?_name (l : Level) : threshold? l.name = .ok (thresholdOf l) := by
  cases l <;> rfl

/-- The threshold of an output that nobody set up. -/
def initialThreshold : Nat := 30

end Rendezvous.Log
