import Rendezvous.Settings.Loading

/-!
# Panels

What the program shows when it cannot go on: a title, a sentence, details and a hint.

## Main definitions

* `Panel` and `Panel.lines`.
* `Panel.ofObstacle?`: the panel about settings that cannot be loaded.
* `Panel.idle`: the panel about a simulation that would never end.
-/

namespace Rendezvous.CommandLine

/-- A message with a title, details and a hint. -/
structure Panel where
  title : String
  sentence : String
  details : List String := []
  hint : Option String := none
  deriving DecidableEq, Repr

namespace Panel

/-- The lines of a panel. -/
def lines (p : Panel) : List String :=
  p.title :: p.sentence :: p.details.map ("• " ++ ·) ++ (p.hint.map ("Hint: " ++ ·)).toList

/-- A fault in settings as a detail. -/
def detail (f : Settings.Fault) : String :=
  String.intercalate "." f.path ++ ": " ++ f.reason.message

/-- The panel about settings that cannot be loaded from a path. Obstacles that are no fault of
those who wrote the settings have none. -/
def ofObstacle? (path : String) : Settings.Obstacle → Option Panel
  | .malformed fault =>
    match fault.step with
    | .tokens | .structural => some
      { title := "YAML Syntax Error"
        sentence := "Failed to parse " ++ Path.name path
        details := [fault.message]
        hint := some
          "Check for unclosed brackets, incorrect indentation, or invalid characters." }
    | .composition | .construction => none
  | .missingFile _ => some
    { title := "File Not Found"
      sentence := "Settings file does not exist: " ++ path
      hint := some "Check the path and ensure the file exists." }
  | .invalid faults => some
    { title := "Configuration Validation Failed"
      sentence := "Invalid settings in " ++ Path.name path
      details := faults.map detail
      hint := some "Check field names, types, and required values." }
  | .unsetVariable name => some
    { title := "Configuration Error", sentence := Reference.missingMessage name }
  | .notAMapping _ => none

/-- The panel about a simulation that would never end. -/
def idle : Panel :=
  { title := "Nothing Would Resolve"
    sentence := "No timeout and no producer: the request would never complete."
    hint := some "Pass --producer-delay-ms or a non-zero --timeout-ms." }

end Panel

end Rendezvous.CommandLine
