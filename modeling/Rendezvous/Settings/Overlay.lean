import Rendezvous.Directory
import Rendezvous.Reference
import Rendezvous.Settings.VariableText
import Rendezvous.Text.Casing
import Rendezvous.Text.Split

/-!
# Variables over files

Settings come from a file, and variables of the environment are laid over them. The name of a
variable begins with a prefix; after it, two underscores lead from a section to a field of it. The
names of sections are compared in upper case. A field is looked for whatever the case of its
letters: if the file has it, the file's spelling stays, and if not, the variable's spelling is
taken.

## Main definitions

* `Overlay.merge`: lays fields over fields.
* `Overlay.assign`: lays a value over the field that a name leads to.
* `Overlay.ofFile` and `Overlay.addVariables`: the root of the settings.
-/

namespace Rendezvous.Overlay

/-- What the name of a variable that holds a setting begins with. -/
def variablePrefix : String := "DEFERRED_"

/-- The name under which fields hold what is looked for whatever its case. -/
def spelling (fields : List (String × Document)) (name : String) : String :=
  if (fields.lookup name).isSome then name
  else match fields.find? fun f => Text.lowerCaseAscii f.1 == Text.lowerCaseAscii name with
    | some f => f.1
    | none => name

mutual

/-- Lays a value over another. Objects are joined; anything else is replaced. -/
def merge : (new old : Document) → Document
  | .object new, .object old => .object (mergeFields new old)
  | new, _ => new

/-- Lays fields over others. They come first, in the spelling of the fields that they replace. -/
def mergeFields : (new old : List (String × Document)) → List (String × Document)
  | [], old => old
  | (name, v) :: rest, old =>
    let name := spelling old name
    let v := match old.lookup name with
      | some w => merge v w
      | none => v
    (name, v) :: mergeFields rest (old.filter (·.1 != name))

end

/-- The names on the way to a field. -/
def steps (name : String) : List String :=
  (Text.splitOn "__" name).flatMap (Text.splitOn ".")

/-- A value at the end of a way. -/
def nest (v : Document) : List String → Document
  | [] => v
  | name :: rest => .object [(name, nest v rest)]

/-- The root of the settings: sections in upper case. -/
abbrev Root := Directory String Document

/-- Lays a value over the field that a name leads to. -/
def assign (root : Root) (name : String) (v : Document) : Root :=
  match steps name with
  | [] => root
  | key :: rest =>
    let key := Text.upperCase key
    let v := nest v rest
    root.put key (match root.find? key with
      | some old => merge v old
      | none => v)

/-- The name of a field of the root, its first step in upper case. -/
def rootName (name : String) : String :=
  match Text.splitOn "__" name with
  | [] => name
  | first :: rest => String.intercalate "__" (Text.upperCase first :: rest)

/-- The root that a file gives; of several fields with one name, the last counts. -/
def ofFile (fields : List (String × Document)) : Root :=
  let named : Root := fields.foldl (fun d f => d.put (rootName f.1) f.2) {}
  named.entries.foldl (fun root f => assign root f.1 f.2) {}

/-- Lays the variables of an environment over a root, one after the other. -/
def addVariables (root : Root) (env : Environment) : Root :=
  env.foldl (fun root (name, text) =>
    if variablePrefix.toList.isPrefixOf name.toList then
      assign root (String.ofList (name.toList.drop variablePrefix.length)) (VariableText.read text)
    else root) root

/-- The root as fields of a document. -/
def fields (root : Root) : List (String × Document) :=
  root.entries.map fun f => (Text.lowerCaseAscii f.1, f.2)

end Rendezvous.Overlay
