import Rendezvous.CommandLine.Panel
import Rendezvous.CommandLine.Report
import Rendezvous.EnvironmentFile
import Rendezvous.Log.Output

/-!
# Runs of the program

A run takes the arguments, the environment and the files it may read, and gives what it writes and
how it ends. Log records and reports go to the output, complaints to the errors.

## Main definitions

* `Transcript` and `Ending`: the result of a run.
* `Setting`: what a run may look at.
* `run`: the run.
* `paths`: the files that a run may look at.
-/

namespace Rendezvous.CommandLine

/-- How a run ends. -/
inductive Ending where
  | exit (code : Nat)
  /-- A failure that the program has no words for. -/
  | failed (kind message : String)
  deriving DecidableEq, Repr

/-- What a run has written, and how its log output is set up. -/
structure Transcript where
  output : List String := []
  errors : List String := []
  log : Log.Output := {}
  ending : Ending := .exit 0

/-- What a run may look at. -/
structure Setting where
  folder : Folder
  environment : Environment

namespace Transcript

/-- Writes to the output. -/
def say (t : Transcript) (lines : List String) : Transcript :=
  { t with output := t.output ++ lines }

/-- Writes to the errors. -/
def warn (t : Transcript) (lines : List String) : Transcript :=
  { t with errors := t.errors ++ lines }

/-- Ends a run with a code. -/
def exit (t : Transcript) (code : Nat) : Transcript :=
  { t with ending := .exit code }

/-- Ends a run because of a misuse; nothing but the misuse is reported. -/
def misuse (t : Transcript) (e : UsageError) : Transcript :=
  ({ t with errors := [e.message] }).exit 2

/-- Ends a run with a panel. -/
def stop (t : Transcript) (p : Panel) : Transcript :=
  (t.warn p.lines).exit 1

/-- Ends a run with a failure. -/
def fail (t : Transcript) (kind message : String) : Transcript :=
  { t with ending := .failed kind message }

end Transcript

/-- The name and the version of the program. -/
def versionLine : String := "deferred-result version 0.1.0"

/-- How the program is called. -/
def usageLine : String := "Usage: deferred-result [OPTIONS] COMMAND [ARGS]..."

/-! ### Settings -/

/-- Goes on with the settings of a file, or ends the run if they cannot be loaded. -/
def withSettings (s : Setting) (t : Transcript) (path : String)
    (proceed : String → Settings → Transcript) : Transcript :=
  match Path.expandHome? s.environment path with
  | none => t.fail "RuntimeError" "Could not determine home directory."
  | some path =>
    match Settings.load s.folder s.environment path with
    | .ok settings => proceed path settings
    | .error o =>
      match Panel.ofObstacle? path o with
      | some p => t.stop p
      | none => t.fail o.kind o.message

/-- The threshold of log output on the command line. -/
def GlobalOptions.threshold (o : GlobalOptions) (otherwise : Nat) : Nat :=
  if o.verbose then Log.Severity.debug.number else otherwise

/-- The log output that the options of the program ask for. -/
def GlobalOptions.log (o : GlobalOptions) : Log.Output :=
  { threshold := o.threshold Log.Severity.warning.number, asDocuments := o.jsonLogs }

/-- The log output that settings ask for; the options of the program outrank them. -/
def GlobalOptions.logWith (o : GlobalOptions) (s : LoggingSettings) : Log.Output :=
  { threshold := o.threshold (Log.thresholdOf s.level)
    asDocuments := o.jsonLogs || s.jsonOutput }

/-! ### Commands -/

/-- Reports that settings are valid. -/
def validate (t : Transcript) (path : String) (s : Settings) : Transcript :=
  t.say ["✓ Settings valid: " ++ Path.name path,
    "  coordinator.default_timeout_ms: " ++ toString s.coordinator.defaultTimeoutMs,
    "  logging.level: " ++ s.logging.level.name]

/-- Runs a simulation and reports it. A simulation that would never end is not begun. -/
def simulate (t : Transcript) (s : Simulation) (form : ReportForm) : Transcript :=
  if s.isIdle then t.stop Panel.idle
  else
    let trace := s.run
    let t := t.say (t.log.writtenNotices trace.notices)
    match trace.ending with
    | .ok summary => t.say (summary.report form)
    | .error f => t.fail f.kind f.message

/-- Executes a command. -/
def execute (s : Setting) (o : GlobalOptions) (t : Transcript) : Command → Transcript
  | .help => t.say [usageLine]
  | .validate path => withSettings s t path (validate t)
  | .simulate simulation none form => simulate t simulation form
  | .simulate simulation (some path) form =>
    withSettings s t path fun _ settings =>
      simulate { t with log := o.logWith settings.logging }
        { simulation with settings := settings.coordinator } form

/-! ### The environment file -/

/-- Adds the variables of the environment file, if one is asked for. Nothing comes of a file that
is not there but the end of the run. -/
def addEnvironmentFile (s : Setting) (o : GlobalOptions) (t : Transcript) :
    Except Transcript (Setting × Transcript) :=
  match o.environmentFile with
  | none => .ok (s, t)
  | some path =>
    if o.skipEnvironmentFile then
      .ok (s, t.warn ["Warning: --env-file ignored because --no-dotenv is set."])
    else match s.folder.find? path with
      | none => .error ((t.warn ["Error: .env file not found: " ++ Path.normalize path]).exit 1)
      | some .folder => .ok (s, t)
      | some (.text text) =>
        .ok ({ s with environment :=
          EnvironmentFile.extend s.environment (EnvironmentFile.statements text) }, t)

/-- Runs the program. -/
def run (s : Setting) (args : List String) : Transcript :=
  if args.isEmpty then (({} : Transcript).warn [usageLine]).exit 2
  else match Intent.read args with
    | .error e => ({} : Transcript).misuse e
    | .ok .version => ({} : Transcript).say [versionLine]
    | .ok .help => ({} : Transcript).say [usageLine]
    | .ok (.command o name args) =>
      match addEnvironmentFile s o { log := o.log } with
      | .error t => t
      | .ok (s, t) =>
        match Command.read name args with
        | .error e => t.misuse e
        | .ok command => execute s o t command

/-- The paths of the files that a run with these arguments may look at. -/
def paths (environment : Environment) (args : List String) : List String :=
  match Intent.read args with
  | .ok (.command o name args) =>
    let settings := match Command.read name args with
      | .ok (.validate path) => some path
      | .ok (.simulate _ path _) => path
      | _ => none
    o.environmentFile.toList ++ (settings.bind (Path.expandHome? environment)).toList
  | _ => []

end Rendezvous.CommandLine
