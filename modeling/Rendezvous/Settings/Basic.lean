/-!
# Settings

The settings of the machinery around cells: the coordinator's default timeout and the names of its
timer threads, and the output of log records. A default timeout of zero means no timer.

## Main definitions

* `Level`: the levels that settings can name.
* `CoordinatorSettings`, `LoggingSettings` and `Settings`, with their defaults.
-/

namespace Rendezvous

/-- The levels that settings can name. -/
inductive Level where
  | debug
  | info
  | warning
  | error
  deriving DecidableEq, Repr, Inhabited

namespace Level

/-- All levels, least severe first. -/
def all : List Level := [.debug, .info, .warning, .error]

/-- The name of a level. -/
def name : Level → String
  | .debug => "DEBUG"
  | .info => "INFO"
  | .warning => "WARNING"
  | .error => "ERROR"

/-- The level of a name. -/
def ofName? (s : String) : Option Level :=
  all.find? (·.name == s)

theorem ofName?_name (l : Level) : ofName? l.name = some l := by
  cases l <;> decide

end Level

/-- The settings of a coordinator. -/
structure CoordinatorSettings where
  /-- The timeout of requests on cells without one; zero means no timer. -/
  defaultTimeoutMs : Nat := 30000
  /-- The beginning of the names of timer threads. -/
  timerPrefix : String := "deferred-timeout"
  deriving DecidableEq, Repr, Inhabited

/-- The settings of log output. -/
structure LoggingSettings where
  level : Level := .info
  jsonOutput : Bool := false
  deriving DecidableEq, Repr, Inhabited

/-- All settings. -/
structure Settings where
  coordinator : CoordinatorSettings := {}
  logging : LoggingSettings := {}
  deriving DecidableEq, Repr, Inhabited

end Rendezvous
