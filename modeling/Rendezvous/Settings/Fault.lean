/-!
# Faults in settings

A fault names the place in the settings where a value was refused and the reason. Each reason has
a short code for programs and a sentence for people.

## Main definitions

* `Settings.Section`: the two sections.
* `Settings.Reason`, with `Reason.code` and `Reason.message`.
* `Settings.Fault`: a reason at a place.
-/

namespace Rendezvous.Settings

/-- The sections of the settings. -/
inductive Section where
  | coordinator
  | logging
  deriving DecidableEq, Repr

/-- The name under which a document holds a section. -/
def Section.key : Section → String
  | .coordinator => "coordinator"
  | .logging => "logging"

/-- The name of the schema of a section. -/
def Section.schema : Section → String
  | .coordinator => "CoordinatorSettings"
  | .logging => "LoggingSettings"

/-- Why a value was refused. -/
inductive Reason where
  /-- A text that is no integer. -/
  | unreadableInteger
  /-- A text or number too long to be read as an integer. -/
  | oversizedInteger
  /-- A value of a kind that is never an integer. -/
  | notAnInteger
  | fractionalInteger
  | notFinite
  /-- An integer below its least value, zero. -/
  | negative
  | notText
  | emptyText
  /-- A value of a kind that is never a truth value. -/
  | notTruth
  /-- A text or number that stands for neither truth value. -/
  | unreadableTruth
  | unknownLevel
  /-- A section that is no object. -/
  | notASection (s : Section)
  /-- A field that the section does not have. -/
  | unknownField
  /-- A field of settings that are complete. -/
  | readOnly
  deriving DecidableEq, Repr

/-- The code of a reason. -/
def Reason.code : Reason → String
  | .unreadableInteger => "int_parsing"
  | .oversizedInteger => "int_parsing_size"
  | .notAnInteger => "int_type"
  | .fractionalInteger => "int_from_float"
  | .notFinite => "finite_number"
  | .negative => "greater_than_equal"
  | .notText => "string_type"
  | .emptyText => "string_too_short"
  | .notTruth => "bool_type"
  | .unreadableTruth => "bool_parsing"
  | .unknownLevel => "literal_error"
  | .notASection _ => "model_type"
  | .unknownField => "extra_forbidden"
  | .readOnly => "frozen_instance"

/-- The sentence that explains a reason. -/
def Reason.message : Reason → String
  | .unreadableInteger => "Input should be a valid integer, unable to parse string as an integer"
  | .oversizedInteger => "Unable to parse input string as an integer, exceeded maximum size"
  | .notAnInteger => "Input should be a valid integer"
  | .fractionalInteger => "Input should be a valid integer, got a number with a fractional part"
  | .notFinite => "Input should be a finite number"
  | .negative => "Input should be greater than or equal to 0"
  | .notText => "Input should be a valid string"
  | .emptyText => "String should have at least 1 character"
  | .notTruth => "Input should be a valid boolean"
  | .unreadableTruth => "Input should be a valid boolean, unable to interpret input"
  | .unknownLevel => "Input should be 'DEBUG', 'INFO', 'WARNING' or 'ERROR'"
  | .notASection s => "Input should be a valid dictionary or instance of " ++ s.schema
  | .unknownField => "Extra inputs are not permitted"
  | .readOnly => "Instance is frozen"

/-- A refused value: the path to it and the reason. -/
structure Fault where
  path : List String
  reason : Reason
  deriving DecidableEq, Repr

/-- The fault seen from outside the section that holds it. -/
def Fault.within (s : Section) (f : Fault) : Fault :=
  { f with path := s.key :: f.path }

end Rendezvous.Settings
