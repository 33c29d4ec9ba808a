import Rendezvous.CommandLine.Grammar
import Rendezvous.Settings.Schema
import Rendezvous.Simulation

/-!
# Commands

What the arguments of the program ask for. Options of the program itself come first, then the name
of a command and the arguments of that command. A command is read only after the options of the
program have taken effect, so that its misuse is noticed later than the misuse of the program.

## Main definitions

* `GlobalOptions` and `Intent.read`: the options of the program, and which command is meant.
* `Command` and `CommandName.read`: the commands with their options.
-/

namespace Rendezvous.CommandLine

/-! ### The program -/

/-- The options of the program. -/
structure GlobalOptions where
  verbose : Bool := false
  jsonLogs : Bool := false
  /-- Whether environment files are left aside. -/
  skipEnvironmentFile : Bool := false
  environmentFile : Option String := none
  deriving DecidableEq, Repr

/-- The names of the commands. -/
inductive CommandName where
  | validate
  | simulate
  deriving DecidableEq, Repr

namespace CommandName

/-- All commands. -/
def all : List CommandName := [.validate, .simulate]

/-- The name of a command as it is written. -/
def text : CommandName → String
  | .validate => "validate"
  | .simulate => "simulate"

/-- The command of a name. -/
def ofText? (s : String) : Option CommandName :=
  all.find? (·.text == s)

theorem ofText?_text (c : CommandName) : ofText? c.text = some c := by
  cases c <;> decide

end CommandName

namespace Parameter

/-- The option that asks for help. -/
def help : Parameter := { long := "--help", takesValue := false }

def version : Parameter := { long := "--version", short := some 'V', takesValue := false }

def skipEnvironmentFile : Parameter := { long := "--no-dotenv", takesValue := false }

def environmentFile : Parameter := { long := "--env-file" }

def verbose : Parameter := { long := "--verbose", short := some 'v', takesValue := false }

def jsonLogs : Parameter := { long := "--json-logs", takesValue := false }

/-- The options of the program. -/
def ofProgram : List Parameter :=
  [version, skipEnvironmentFile, environmentFile, verbose, jsonLogs, help]

end Parameter

open Occurrence

/-- What the program is asked to do. -/
inductive Intent where
  | version
  | help
  | command (options : GlobalOptions) (name : CommandName) (args : List String)
  deriving DecidableEq, Repr

namespace Intent

/-- The intent of an option that leaves no room for anything else. -/
def ofOptions? (found : List Occurrence) : Option Intent :=
  (firstOf? found [.version, .help]).map fun p => if p = .version then .version else .help

/-- The options of the program among those that were found. -/
def globalOptions (found : List Occurrence) : GlobalOptions :=
  { verbose := isGiven found .verbose
    jsonLogs := isGiven found .jsonLogs
    skipEnvironmentFile := isGiven found .skipEnvironmentFile
    environmentFile := value? found .environmentFile }

/-- Reads what the program is asked to do. Where a command should be, an argument that is none is
taken for options once more. -/
def read (args : List String) : Except UsageError Intent := do
  let (found, operands) ← Parameter.scan Parameter.ofProgram false args
  match ofOptions? found, operands with
  | some r, _ => return r
  | none, [] => throw .missingCommand
  | none, word :: rest =>
    match CommandName.ofText? word with
    | some name => return .command (globalOptions found) name rest
    | none =>
      let (found, _) ← Parameter.scan Parameter.ofProgram false operands
      match ofOptions? found with
      | some r => return r
      | none => throw (.unknownCommand word (Text.closest word (CommandName.all.map (·.text))))

example : (read ["-v", "simulate", "-d", "5"]).toOption =
    some (.command { verbose := true } .simulate ["-d", "5"]) := by decide +kernel

end Intent

/-! ### The commands -/

/-- The forms in which a simulation is reported. -/
inductive ReportForm where
  | console
  | json
  deriving DecidableEq, Repr

namespace ReportForm

/-- All forms. -/
def all : List ReportForm := [.console, .json]

/-- The name of a form. -/
def text : ReportForm → String
  | .console => "console"
  | .json => "json"

/-- The form of a name. -/
def ofText? (s : String) : Option ReportForm :=
  all.find? (·.text == s)

end ReportForm

/-- A command with its options. -/
inductive Command where
  | help
  | validate (settings : String)
  /-- A simulation with the settings of a file, or with the default ones. -/
  | simulate (simulation : Simulation) (settings : Option String) (form : ReportForm)
  deriving DecidableEq, Repr

namespace Parameter

def settings : Parameter := { long := "--settings", short := some 's' }

def timeout : Parameter := { long := "--timeout-ms", short := some 't' }

def delay : Parameter := { long := "--producer-delay-ms", short := some 'd' }

def value : Parameter := { long := "--value" }

def fallback : Parameter := { long := "--fallback" }

def fail : Parameter := { long := "--fail", takesValue := false }

def form : Parameter := { long := "--format", short := some 'f' }

/-- The options of a command. -/
def ofCommand : CommandName → List Parameter
  | .validate => [settings, help]
  | .simulate => [timeout, delay, value, fallback, fail, settings, form, help]

end Parameter

namespace Command

/-- Reads a number of milliseconds. -/
def milliseconds (s : String) : Except String Nat :=
  (Settings.readTimeout (.text s)).mapError (·.message)

/-- Reads the form of a report. -/
def form (s : String) : Except String ReportForm :=
  match ReportForm.ofText? s with
  | some f => .ok f
  | none => .error ("Value error, " ++ Text.quoted s ++ " is not one of " ++
      String.intercalate ", " (ReportForm.all.map fun f => Text.quoted f.text) ++ ".")

/-- The reason why the value of an option is refused, if it is. -/
def refusal? (p : Parameter) (v : String) : Option String :=
  let reason {α : Type} : Except String α → Option String
    | .error r => some r
    | .ok _ => none
  if p = .timeout ∨ p = .delay then reason (milliseconds v)
  else if p = .form then reason (form v)
  else none

/-- The first option whose value is refused, in the order in which options were given. -/
def refused? (found : List Occurrence) : Option UsageError :=
  found.findSome? fun o =>
    ((value? found o.parameter).bind (refusal? o.parameter)).map (.invalidValue o.parameter)

/-- The command with the options that were found, if nothing it needs is missing. -/
def ofOptions (name : CommandName) (found : List Occurrence) : Except UsageError Command :=
  match name with
  | .validate =>
    match value? found .settings with
    | some path => .ok (.validate path)
    | none => .error (.missingOption .settings)
  | .simulate =>
    let number (p : Parameter) : Option Nat := (value? found p).bind (milliseconds · |>.toOption)
    let simulation : Simulation :=
      { timeoutMs := number .timeout
        delayMs := number .delay
        value := (value? found .value).getD "done"
        fallback := value? found .fallback
        fails := isGiven found .fail }
    .ok (.simulate simulation (value? found .settings)
      (((value? found .form).bind (form · |>.toOption)).getD .console))

/-- Reads the arguments of a command. Refused values are reported before missing options, and
those before operands, of which no command takes any. -/
def read (name : CommandName) (args : List String) : Except UsageError Command := do
  let (found, operands) ← Parameter.scan (Parameter.ofCommand name) true args
  if isGiven found .help then return .help
  if let some e := refused? found then throw e
  let command ← ofOptions name found
  if operands.isEmpty then return command else throw (.extraOperands operands)

example : (read .validate ["--settings=a.yaml"]).toOption = some (.validate "a.yaml") := by
  decide +kernel
example : (read .simulate ["-t5", "--fail"]).toOption =
    some (.simulate { timeoutMs := some 5, fails := true } none .console) := by decide +kernel

end Command

end Rendezvous.CommandLine
