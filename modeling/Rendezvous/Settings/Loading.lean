import Rendezvous.Path
import Rendezvous.Settings.Overlay
import Rendezvous.Settings.Schema
import Rendezvous.Yaml.Node

/-!
# Loading settings

The settings of a file are read in four steps: the file becomes a document, the variables of the
environment are laid over it, references in its texts are replaced, and the schema judges the
result. The first step that fails ends the loading.

## Main definitions

* `Settings.Obstacle`: why loading fails.
* `Settings.ofDocument`: the last three steps.
* `Settings.load`: all of them.
-/

namespace Rendezvous.Settings

/-- Why settings cannot be loaded. -/
inductive Obstacle where
  /-- No file is there. -/
  | missingFile (path : String)
  /-- The file cannot be read as a document. -/
  | malformed (fault : Yaml.Fault)
  /-- The document of the file is no mapping. -/
  | notAMapping (found : Document)
  /-- A text refers to a variable that is not set and gives no default. -/
  | unsetVariable (name : String)
  | invalid (faults : List Fault)
  deriving Inhabited

/-- The names of the root that belong to the loading itself and are no settings. -/
def reservedNames : List String := ["load_dotenv", "environments", "settings_files"]

/-- The ending of further such names. -/
def reservedEnding : String := "_for_dynaconf"

/-- Whether a name of the root is no setting. -/
def isReserved (name : String) : Bool :=
  reservedNames.contains name || reservedEnding.toList.isSuffixOf name.toList

/-- The settings that the fields of a file and an environment give. -/
def ofDocument (env : Environment) (fields : List (String × Document)) :
    Except Obstacle Settings := do
  let root := Overlay.addVariables (Overlay.ofFile fields) env
  let given := (Overlay.fields root).filter fun f => !isReserved f.1
  let expanded ← (Reference.expandFields env given).mapError .unsetVariable
  (ofFields expanded).mapError .invalid

/-- The endings of the files that are read. -/
def fileEndings : List String := [".yaml", ".yml"]

/-- The fields at the root of a document; documents that say nothing have none. -/
def rootFields (d : Document) : Except Obstacle (List (String × Document)) :=
  if d.isFalse then .ok []
  else match d with
    | .object fields => .ok fields
    | d => .error (.notAMapping d)

/-- The settings of the file at a path. -/
def load (folder : Folder) (env : Environment) (path : String) : Except Obstacle Settings := do
  let path := Path.normalize path
  let fields ← match folder.find? path with
    | none => throw (.missingFile path)
    | some .folder => pure []
    | some (.text s) =>
      if Path.endsIn path fileEndings then
        let d ← (Yaml.document s).mapError .malformed
        rootFields d
      else pure []
  ofDocument env fields

namespace Obstacle

/-- The kind of a value, as the complaint about a document that is no mapping names it. -/
def shapeName : Document → String
  | .null => "NoneType"
  | .bool _ => "bool"
  | .int _ => "int"
  | .float _ => "float"
  | .text _ => "str"
  | .list _ => "list"
  | .object _ => "dict"
  | .atom x => nomatch x

/-- The sentence that explains an obstacle. -/
def message : Obstacle → String
  | .missingFile path => "Config file not found: " ++ path
  | .malformed fault => fault.message
  | .notAMapping d => "'" ++ shapeName d ++ "' object has no attribute 'items'"
  | .unsetVariable name => Reference.missingMessage name
  | .invalid faults => String.intercalate "\n" (faults.map fun f => f.reason.message)

/-- The kind of an obstacle. -/
def kind : Obstacle → String
  | .missingFile _ => "FileNotFoundError"
  | .malformed fault => match fault.step with
    | .tokens => "ScannerError"
    | .structural => "ParserError"
    | .composition => "ComposerError"
    | .construction => match fault with
      | .repeatedKey => "DuplicateKeyError"
      | _ => "ConstructorError"
  | .notAMapping _ => "AttributeError"
  | .unsetVariable _ => "ValueError"
  | .invalid _ => "ValidationError"

end Obstacle

end Rendezvous.Settings
