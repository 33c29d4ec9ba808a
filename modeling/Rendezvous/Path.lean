import Rendezvous.Reference
import Rendezvous.Text.Split

/-!
# Paths of files

A path is a sequence of names; empty names and names that mean "here" do not count. The files of a
folder are found by path, from the folder itself or from the root of all folders.

## Main definitions

* `Path.parts`, `Path.normalize` and `Path.name`: the names of a path, its shortest text, and the
  last name.
* `Path.expandHome?`: the path in which the home folder is written out.
* `Folder` and `Folder.find?`: the files of a folder.
-/

namespace Rendezvous

namespace Path

/-- The names of a path. -/
def parts (path : String) : List String :=
  (Text.splitOn "/" path).filter fun p => p != "" && p != "."

/-- What a path that begins at the root of all folders begins with. -/
def root (path : String) : String :=
  match path.toList.takeWhile (· == '/') with
  | [] => ""
  | ['/', '/'] => "//"
  | _ => "/"

/-- The shortest text of a path. -/
def normalize (path : String) : String :=
  let text := root path ++ String.intercalate "/" (parts path)
  if text.isEmpty then "." else text

/-- The last name of a path. -/
def name (path : String) : String :=
  (parts path).getLast?.getD ""

/-- Whether a path ends in one of the given endings. -/
def endsIn (path : String) (endings : List String) : Bool :=
  endings.any fun e => e.toList.isSuffixOf path.toList

/-- A path whose first name is a tilde begins at the home folder, if the environment names one. The
home folders of other users, whose names follow the tilde, are not known. -/
def expandHome? (env : Environment) (path : String) : Option String :=
  match root path, parts path with
  | "", first :: rest =>
    if first = "~" then
      match env.lookup "HOME" with
      | some home => some (normalize (home ++ "/" ++ String.intercalate "/" rest))
      | none => some (normalize path)
    else if first.toList.head? = some '~' then none
    else some (normalize path)
  | _, _ => some (normalize path)

example : normalize "./a//b/" = "a/b" ∧ normalize "" = "." ∧ normalize "///x" = "/x" := by
  decide +kernel

end Path

/-- A folder with the texts of its files. -/
structure Folder where
  /-- The path of the folder itself. -/
  path : String
  /-- The files by path from the folder. -/
  texts : List (String × String)

namespace Folder

/-- What a path leads to. -/
inductive Entry where
  | text (s : String)
  | folder
  deriving DecidableEq, Repr

/-- Follows the names that mean the folder above. -/
def resolve : List String → (passed : List String) → List String
  | [], passed => passed.reverse
  | ".." :: rest, passed => resolve rest passed.tail
  | p :: rest, passed => resolve rest (p :: passed)

/-- The names of a path from the folder; none if the path leads elsewhere. -/
def within? (f : Folder) (path : String) : Option (List String) :=
  let here := Path.parts f.path
  let names := Path.parts path
  if here.isPrefixOf names && Path.root path == Path.root f.path then
    some (resolve (names.drop here.length) [])
  else if Path.root path == "" then some (resolve names [])
  else none

/-- What a path leads to, if it leads to anything. -/
def find? (f : Folder) (path : String) : Option Entry := do
  let names ← f.within? path
  match f.texts.find? fun t => Path.parts t.1 == names with
  | some (_, s) => some (.text s)
  | none =>
    if f.texts.any (fun t => names.isPrefixOf (Path.parts t.1)) || names.isEmpty then some .folder
    else none

end Folder

end Rendezvous
