import Rendezvous.Directory
import Rendezvous.Reference
import Rendezvous.Text.Blank

/-!
# Environment files

An environment file names variables and gives them values, one statement to a line:

* a name, an equals sign and a value, perhaps after the word `export`;
* a name alone, which sets nothing;
* a comment.

A value stands in single quotes, in double quotes or in none. Between quotes it may run over
several lines; without quotes it ends where a blank and a number sign begin a comment, and blanks
around it do not count. A line that is none of this is left out. Values may refer to variables: to
those of the environment, and to those of the file that were named before.

## Main definitions

* `EnvironmentFile.Statement` and `EnvironmentFile.statements`: the statements of a file.
* `EnvironmentFile.substitute`: a value with its references replaced.
* `EnvironmentFile.additions`: the variables that a file adds to an environment.

## Main results

* `EnvironmentFile.lookup_extend`: what an environment says is not changed by a file.
-/

namespace Rendezvous.EnvironmentFile

/-- A statement of a file. -/
inductive Statement where
  /-- A comment, or blank lines at the end. -/
  | nothing
  /-- A name and its value; a name without a value sets nothing. -/
  | binding (name : List Char) (value : Option (List Char))
  /-- A line that is no statement. -/
  | unreadable
  deriving DecidableEq, Repr

/-! ### Reading -/

/-- Line ends in one form. -/
def unifyLines : List Char → List Char
  | '\r' :: '\n' :: rest => '\n' :: unifyLines rest
  | '\r' :: rest => '\n' :: unifyLines rest
  | c :: rest => c :: unifyLines rest
  | [] => []

/-- Whether a character is a blank within a line. -/
def isInner (c : Char) : Bool :=
  Text.isBlank c && c != '\n'

/-- Passes the blanks within a line. -/
def skipInner (cs : List Char) : List Char :=
  cs.dropWhile isInner

/-- Passes the rest of a line and its end. -/
def skipLine (cs : List Char) : List Char :=
  (cs.dropWhile (· != '\n')).drop 1

/-- Passes the word `export` if blanks follow it. -/
def skipExport : List Char → List Char
  | 'e' :: 'x' :: 'p' :: 'o' :: 'r' :: 't' :: c :: rest =>
    if isInner c then skipInner rest else 'e' :: 'x' :: 'p' :: 'o' :: 'r' :: 't' :: c :: rest
  | cs => cs

/-- Passes a comment. -/
def skipComment (cs : List Char) : List Char :=
  match skipInner cs with
  | '#' :: rest => rest.dropWhile (· != '\n')
  | _ => cs

/-- What stands before the closing quote, and what follows it. A quote after a backslash closes
only if no other one does. -/
def untilQuote (quote : Char) : List Char → Option (List Char × List Char)
  | [] => none
  | '\\' :: c :: rest =>
    if c = quote then
      match untilQuote quote rest with
      | some (inside, after) => some ('\\' :: quote :: inside, after)
      | none => some (['\\'], rest)
    else (untilQuote quote (c :: rest)).map fun (inside, after) => ('\\' :: inside, after)
  | c :: rest =>
    if c = quote then some ([], rest)
    else (untilQuote quote rest).map fun (inside, after) => (c :: inside, after)

/-- Replaces the escapes that are known; a backslash before anything else stands for itself. -/
def unescape (known : Char → Option Char) : List Char → List Char
  | '\\' :: c :: rest =>
    match known c with
    | some e => e :: unescape known rest
    | none => '\\' :: unescape known (c :: rest)
  | c :: rest => c :: unescape known rest
  | [] => []

/-- The escapes between single quotes. -/
def singleEscape? (c : Char) : Option Char :=
  if c = '\\' ∨ c = '\'' then some c else none

/-- The escapes between double quotes. -/
def doubleEscape? (c : Char) : Option Char :=
  match c with
  | '\\' | '\'' | '"' => some c
  | 'a' => some (Char.ofNat 7)
  | 'b' => some (Char.ofNat 8)
  | 'f' => some (Char.ofNat 12)
  | 'n' => some '\n'
  | 'r' => some '\r'
  | 't' => some '\t'
  | 'v' => some (Char.ofNat 11)
  | _ => none

/-- The part of a line before a number sign that follows a blank. -/
def beforeComment : (afterBlank : Bool) → List Char → List Char
  | _, [] => []
  | afterBlank, c :: rest =>
    if afterBlank && c == '#' then [] else c :: beforeComment (Text.isBlank c) rest

/-- A value without quotes, from the rest of its line. -/
def bareValue (line : List Char) : List Char :=
  ((beforeComment false line).reverse.dropWhile Text.isBlank).reverse

/-- A value and what follows it. -/
def value? (cs : List Char) : Option (List Char × List Char) :=
  match cs with
  | '\'' :: rest => (untilQuote '\'' rest).map fun (v, after) => (unescape singleEscape? v, after)
  | '"' :: rest => (untilQuote '"' rest).map fun (v, after) => (unescape doubleEscape? v, after)
  | _ => some (bareValue (cs.takeWhile (· != '\n')), cs.dropWhile (· != '\n'))

/-- Whether a character may occur in a name without quotes. -/
def isNameCharacter (c : Char) : Bool :=
  c != '=' && c != '#' && !Text.isBlank c

/-- A name and what follows it. -/
def name? (cs : List Char) : Option (List Char × List Char) :=
  let (name, after) := match cs with
    | '\'' :: rest => (rest.takeWhile (· != '\''), (rest.dropWhile (· != '\'')).drop 1)
    | _ => (cs.takeWhile isNameCharacter, cs.dropWhile isNameCharacter)
  let closed := cs.head? != some '\'' || (cs.drop 1).contains '\''
  if name.isEmpty || !closed then none else some (name, after)

/-- Ends a statement, which must reach the end of its line. -/
def finish (s : Statement) (cs : List Char) : Statement × List Char :=
  let cs := skipComment cs
  match skipInner cs with
  | [] => (s, [])
  | c :: rest => if c = '\n' then (s, rest) else (.unreadable, skipLine cs)

/-- The statement at the front of a text, and the rest of the text. -/
def statement (cs : List Char) : Statement × List Char :=
  let cs := skipExport (cs.dropWhile Text.isBlank)
  match cs with
  | [] => (.nothing, [])
  | '#' :: _ => finish .nothing cs
  | _ =>
    match name? cs with
    | none => (.unreadable, skipLine cs)
    | some (name, after) =>
      match skipInner after with
      | '=' :: after =>
        let after := skipInner after
        match value? after with
        | none => (.unreadable, skipLine after)
        | some (value, after) => finish (.binding name (some value)) after
      | after => finish (.binding name none) after

/-- The statements of a text, as long as each takes at least one character. -/
def statementsFrom (cs : List Char) : List Statement :=
  if (statement cs).2.length < cs.length then
    (statement cs).1 :: statementsFrom (statement cs).2
  else []
termination_by cs.length

/-- The statements of a file. -/
def statements (text : String) : List Statement :=
  statementsFrom (unifyLines text.toList)

/-! ### Values -/

/-- A reference at the front of a value, and the rest of the value. Its name may be anything that
holds neither a colon nor a closing brace. -/
def reference? : List Char → Option (Reference × List Char)
  | '$' :: '\x7b' :: rest =>
    let isName (c : Char) : Bool := c != '\x7d' && c != ':'
    Reference.parseEnd? (rest.takeWhile isName) (rest.dropWhile isName)
  | _ => none

theorem length_lt_of_reference? {cs rest : List Char} {r : Reference}
    (h : reference? cs = some (r, rest)) : rest.length < cs.length := by
  unfold reference? at h
  split at h
  · have := congrArg List.length (Reference.eq_written_of_parseEnd? h)
    simp only [List.cons_append, List.takeWhile_append_dropWhile, Reference.written,
      List.length_append, List.length_cons] at this ⊢
    omega
  · simp at h

/-- A value in which references are replaced. A variable without a value gives way to the default
of the reference, or to nothing. -/
def substitute (valueOf : String → Option String) (cs : List Char) : List Char :=
  match _h : reference? cs with
  | some (r, rest) =>
    (match valueOf (String.ofList r.name) with
      | some v => v.toList
      | none => r.fallback.getD []) ++ substitute valueOf rest
  | none =>
    match cs with
    | [] => []
    | c :: rest => c :: substitute valueOf rest
termination_by cs.length
decreasing_by
  · exact length_lt_of_reference? _h
  · simp

/-- The names of a file with their values, in order. The last statement about a name counts, and
one without a value leaves it empty for references and unset otherwise. -/
def bindings (env : Environment) (ss : List Statement) :
    Directory String (Option String) :=
  ss.foldl (fun named s => match s with
    | .binding name value =>
      let valueOf (n : String) : Option String :=
        (env.lookup n).or ((named.find? n).map (·.getD ""))
      named.put (String.ofList name) (value.map fun v => String.ofList (substitute valueOf v))
    | _ => named) {}

/-- The variables that a file adds to an environment. -/
def additions (env : Environment) (ss : List Statement) : Environment :=
  (bindings env ss).entries.filterMap fun e => match env.lookup e.1, e.2 with
    | none, some v => some (e.1, v)
    | _, _ => none

/-- An environment with the variables of a file. -/
def extend (env : Environment) (ss : List Statement) : Environment :=
  env ++ additions env ss

/-- What an environment says is not changed by a file. -/
theorem lookup_extend {env : Environment} {name value : String} (ss : List Statement)
    (h : env.lookup name = some value) : (extend env ss).lookup name = some value := by
  simp [extend, List.lookup_append, h]

example : additions [("A", "0")] (statements "A=1\nexport B='x y' # z\n\n=bad\nD\n") =
    [("B", "x y")] := by decide +kernel
example : additions [("A", "0")] (statements "B=$\x7bA\x7d # z\nC=\"$\x7bB\x7d-$\x7bZ:-d\x7d\"") =
    [("B", "0"), ("C", "0-d")] := by decide +kernel

end Rendezvous.EnvironmentFile
