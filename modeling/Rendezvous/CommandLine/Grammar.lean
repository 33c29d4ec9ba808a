import Rendezvous.Text.Closeness
import Rendezvous.Text.Quoted

/-!
# Options and operands

The arguments of a command are options, with or without a value, and operands. A long option may
hold its value after an equals sign; short options may stand together in one argument, the last of
them with its value attached. Otherwise the value of an option is the argument after it, whatever
that looks like. Two dashes alone end the options.

## Main definitions

* `Parameter`: an option that a command knows.
* `UsageError` and `UsageError.message`: the ways to misuse a command.
* `Parameter.scan`: the options and operands among arguments.
* `Occurrence.value?` and `Occurrence.isGiven`: what the options say; of several values the last
  one counts.

## Main results

* `Parameter.scan_operands`: without options, all arguments are operands.
-/

namespace Rendezvous.CommandLine

/-- An option that a command knows. -/
structure Parameter where
  /-- The long name with its dashes. -/
  long : String
  /-- The letter of the short name. -/
  short : Option Char := none
  takesValue : Bool := true
  deriving DecidableEq, Repr

/-- The names of an option, as messages show them. -/
def Parameter.label (p : Parameter) : String :=
  String.intercalate " / " ((p.long :: (p.short.map fun c => String.ofList ['-', c]).toList).map
    Text.quoted)

/-- The ways to misuse a command. -/
inductive UsageError where
  /-- An option that the command does not know, and the names that are close to it. -/
  | unknownOption (name : String) (close : List String)
  /-- An option without the value it takes. -/
  | missingValue (name : String)
  /-- An option with a value that it does not take. -/
  | unexpectedValue (name : String)
  | invalidValue (p : Parameter) (reason : String)
  | missingOption (p : Parameter)
  | extraOperands (operands : List String)
  /-- A command that does not exist, and the names that are close to it. -/
  | unknownCommand (name : String) (close : List String)
  | missingCommand
  deriving DecidableEq, Repr

namespace UsageError

/-- The names that are offered in place of an unknown option. -/
def proposal : List String → String
  | [] => ""
  | [name] => " Did you mean " ++ name ++ "?"
  | names => " (Possible options: " ++ String.intercalate ", " (names.mergeSort (· ≤ ·)) ++ ")"

/-- The sentence that explains a misuse. -/
def message : UsageError → String
  | .unknownOption name close => "No such option: " ++ name ++ proposal close
  | .missingValue name => "Option " ++ Text.quoted name ++ " requires an argument."
  | .unexpectedValue name => "Option " ++ Text.quoted name ++ " does not take a value."
  | .invalidValue p reason => "Invalid value for " ++ p.label ++ ": " ++ reason
  | .missingOption p => "Missing option " ++ p.label ++ "."
  | .extraOperands operands =>
    "Got unexpected extra argument" ++ (if operands.length = 1 then "" else "s") ++ " (" ++
      String.intercalate " " operands ++ ")"
  | .unknownCommand name close =>
    "No such command " ++ Text.quoted name ++
      (if close.isEmpty then "."
      else ". Did you mean " ++ String.intercalate ", " (close.map Text.quoted) ++ "?")
  | .missingCommand => "Missing command."

end UsageError

/-- An option that was found, with its value if it takes one. -/
structure Occurrence where
  parameter : Parameter
  value : Option String := none
  deriving DecidableEq, Repr

/-- What one argument with options comes to. -/
structure Reading where
  found : List Occurrence
  /-- Whether the argument after it is the value of its last option. -/
  usesNext : Bool := false
  deriving DecidableEq, Repr

namespace Parameter

/-- An option with a value: an attached one, or else the next argument. -/
def withValue (p : Parameter) (name : String) (attached next : Option String) :
    Except UsageError Reading :=
  match attached, next with
  | some v, _ => .ok { found := [⟨p, some v⟩] }
  | none, some v => .ok { found := [⟨p, some v⟩], usesNext := true }
  | none, none => .error (.missingValue name)

/-- The short options whose letters stand together in an argument. -/
def readShort (known : List Parameter) (next : Option String) :
    List Char → Except UsageError Reading
  | [] => .ok { found := [] }
  | c :: cs =>
    let name := String.ofList ['-', c]
    match known.find? (·.short == some c) with
    | none => .error (.unknownOption name [])
    | some p =>
      if p.takesValue then
        p.withValue name (if cs.isEmpty then none else some (String.ofList cs)) next
      else do
        let r ← readShort known next cs
        return { r with found := ⟨p, none⟩ :: r.found }

/-- The options of an argument that begins with a dash. -/
def read (known : List Parameter) (arg : String) (next : Option String) :
    Except UsageError Reading :=
  let cs := arg.toList
  let name := String.ofList (cs.takeWhile (· != '='))
  let attached := match cs.dropWhile (· != '=') with
    | _ :: v => some (String.ofList v)
    | [] => none
  match known.find? (·.long == name) with
  | some p =>
    if p.takesValue then p.withValue name attached next
    else if attached.isSome then .error (.unexpectedValue name)
    else .ok { found := [⟨p, none⟩] }
  | none =>
    if cs.take 2 = ['-', '-'] then
      .error (.unknownOption name (Text.closest name (known.map (·.long))))
    else readShort known next (cs.drop 1)

/-- Whether an argument holds options: a dash and something after it. -/
def isOption (arg : String) : Bool :=
  match arg.toList with
  | '-' :: _ :: _ => true
  | _ => false

/-- The options and the operands among arguments. Unless options and operands may be mixed, the
first operand ends the options. -/
def scan (known : List Parameter) (mixed : Bool) :
    List String → Except UsageError (List Occurrence × List String)
  | [] => .ok ([], [])
  | arg :: rest =>
    if arg = "--" then .ok ([], rest)
    else if isOption arg then do
      let r ← read known arg rest.head?
      let (found, operands) ← scan known mixed (rest.drop (if r.usesNext then 1 else 0))
      return (r.found ++ found, operands)
    else if mixed then do
      let (found, operands) ← scan known mixed rest
      return (found, arg :: operands)
    else .ok ([], arg :: rest)
termination_by args => args.length
decreasing_by
  · simp only [List.length_drop, List.length_cons]; omega
  · simp

/-- Without options, all arguments are operands. -/
theorem scan_operands (known : List Parameter) (mixed : Bool) {args : List String}
    (h : ∀ a ∈ args, isOption a = false) : scan known mixed args = .ok ([], args) := by
  induction args with
  | nil => simp [scan]
  | cons a rest ih =>
    have ha := h a (by simp)
    have hne : a ≠ "--" := by
      rintro rfl
      exact absurd ha (by decide)
    cases mixed with
    | false => simp [scan, hne, ha]
    | true =>
      have := ih fun b hb => h b (by simp [hb])
      simp [scan, hne, ha, this, bind, Except.bind, pure, Except.pure]

end Parameter

namespace Occurrence

/-- Whether an option was given. -/
def isGiven (found : List Occurrence) (p : Parameter) : Bool :=
  found.any (·.parameter == p)

/-- The value of an option; the last one counts. -/
def value? (found : List Occurrence) (p : Parameter) : Option String :=
  (found.reverse.find? (·.parameter == p)).bind (·.value)

/-- The first of the options in question that was given. -/
def firstOf? (found : List Occurrence) (ps : List Parameter) : Option Parameter :=
  (found.find? fun o => ps.contains o.parameter).map (·.parameter)

end Occurrence

end Rendezvous.CommandLine
