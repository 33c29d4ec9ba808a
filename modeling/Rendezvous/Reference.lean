import Rendezvous.Value

/-!
# References to the environment

A text may refer to variables of the environment: `$` and a name in braces, optionally with `:-`
and a default before the closing brace. A text is scanned once from left to right. Where a
reference begins it is taken whole; every other character stands for itself, and so does whatever
looks like a reference but is none. What is substituted is not scanned again.

## Main definitions

* `Reference` and `Reference.parse?`: a reference at the front of a text.
* `Reference.Piece` and `Reference.pieces`: the parts of a text.
* `Environment`, `Reference.resolve` and `Reference.expand`: substitution in a text.
* `Reference.expandDocument`: substitution in all texts of a document, but not in its names.

## Main results

* `Reference.flatten_pieces`: the parts of a text make up the text.
-/

namespace Rendezvous

/-- The variables of an environment. -/
abbrev Environment := List (String × String)

/-- A reference to a variable. -/
structure Reference where
  name : List Char
  /-- What stands in for the variable if it is not set. -/
  fallback : Option (List Char) := none
  deriving DecidableEq, Repr

namespace Reference

/-- The letters that a name may begin with. -/
def isNameStart (c : Char) : Bool :=
  c.isAlpha || c == '_'

/-- The characters that a name may go on with. -/
def isNameRest (c : Char) : Bool :=
  c.isAlphanum || c == '_'

/-- A reference as it is written. -/
def written (r : Reference) : List Char :=
  '$' :: '\x7b' :: r.name ++ (match r.fallback with
    | some d => ':' :: '-' :: d
    | none => []) ++ ['\x7d']

/-- The end of a reference after its name: nothing or a default, and the closing brace. -/
def parseEnd? (name : List Char) : List Char → Option (Reference × List Char)
  | '\x7d' :: rest => some (⟨name, none⟩, rest)
  | ':' :: '-' :: rest =>
    match rest.dropWhile (· != '\x7d') with
    | _ :: after => some (⟨name, some (rest.takeWhile (· != '\x7d'))⟩, after)
    | [] => none
  | _ => none

/-- The reference at the front of a text, and the rest of the text. -/
def parse? : List Char → Option (Reference × List Char)
  | '$' :: '\x7b' :: c :: rest =>
    if isNameStart c then
      parseEnd? (c :: rest.takeWhile isNameRest) (rest.dropWhile isNameRest)
    else none
  | _ => none

theorem eq_written_of_parseEnd? {name cs rest : List Char} {r : Reference}
    (h : parseEnd? name cs = some (r, rest)) :
    '$' :: '\x7b' :: name ++ cs = r.written ++ rest := by
  unfold parseEnd? at h
  split at h
  · simp only [Option.some.injEq, Prod.mk.injEq] at h
    obtain ⟨rfl, rfl⟩ := h
    simp [written]
  · rename_i tail
    split at h
    · rename_i c after hd
      simp only [Option.some.injEq, Prod.mk.injEq] at h
      obtain ⟨rfl, rfl⟩ := h
      have hc : c = '\x7d' := by
        have hne : tail.dropWhile (· != '\x7d') ≠ [] := by simp [hd]
        simpa [hd] using List.head_dropWhile_not (· != '\x7d') hne
      subst hc
      have ht : tail.takeWhile (· != '\x7d') ++ '\x7d' :: after = tail := by
        rw [← hd, List.takeWhile_append_dropWhile]
      have : written ⟨name, some (tail.takeWhile (· != '\x7d'))⟩ ++ after =
          '$' :: '\x7b' :: name ++ ':' :: '-' ::
            (tail.takeWhile (· != '\x7d') ++ '\x7d' :: after) := by
        simp [written]
      rw [this, ht]
    · simp at h
  · simp at h

/-- A reference and what follows it make up the text that was read. -/
theorem eq_written_of_parse? {cs rest : List Char} {r : Reference}
    (h : parse? cs = some (r, rest)) : cs = r.written ++ rest := by
  unfold parse? at h
  split at h
  · rename_i c tail
    split at h
    · have := eq_written_of_parseEnd? h
      simpa [List.takeWhile_append_dropWhile] using this
    · simp at h
  · simp at h

theorem length_lt_of_parse? {cs rest : List Char} {r : Reference}
    (h : parse? cs = some (r, rest)) : rest.length < cs.length := by
  rw [eq_written_of_parse? h]
  simp only [written, List.length_append, List.length_cons]
  omega

/-! ### The parts of a text -/

/-- A part of a text. -/
inductive Piece where
  /-- A character that stands for itself. -/
  | literal (c : Char)
  | reference (r : Reference)
  deriving DecidableEq, Repr

/-- A part as it is written. -/
def Piece.written : Piece → List Char
  | .literal c => [c]
  | .reference r => r.written

/-- The parts of a text, found from left to right. -/
def pieces (cs : List Char) : List Piece :=
  match _h : parse? cs with
  | some (r, rest) => .reference r :: pieces rest
  | none =>
    match cs with
    | [] => []
    | c :: rest => .literal c :: pieces rest
termination_by cs.length
decreasing_by
  · exact length_lt_of_parse? _h
  · simp

/-- The parts of a text make up the text. -/
theorem flatten_pieces (cs : List Char) : ((pieces cs).map Piece.written).flatten = cs := by
  fun_induction pieces cs with
  | case1 cs r rest h ih => simp [Piece.written, ih, ← eq_written_of_parse? h]
  | case2 => rfl
  | case3 c rest _ ih => simp [Piece.written, ih]

/-! ### Substitution -/

/-- What a part stands for, or the name of a variable that is not set and has no default. -/
def resolve (env : Environment) : Piece → Except String (List Char)
  | .literal c => .ok [c]
  | .reference r =>
    match env.lookup (String.ofList r.name), r.fallback with
    | some v, _ => .ok v.toList
    | none, some d => .ok d
    | none, none => .error (String.ofList r.name)

/-- Substitutes part by part; the first part without a value ends it. -/
def expandPieces (env : Environment) : List Piece → Except String (List Char)
  | [] => .ok []
  | p :: rest => do
    let front ← resolve env p
    let back ← expandPieces env rest
    return front ++ back

/-- Substitutes all references of a text. -/
def expand (env : Environment) (s : String) : Except String String :=
  (expandPieces env (pieces s.toList)).map String.ofList

mutual

/-- Substitutes in all texts of a document. -/
def expandDocument (env : Environment) : Document → Except String Document
  | .text s => (expand env s).map .text
  | .list items => (expandItems env items).map .list
  | .object fields => (expandFields env fields).map .object
  | v => .ok v

/-- Substitutes in all texts of the items of a list. -/
def expandItems (env : Environment) : List Document → Except String (List Document)
  | [] => .ok []
  | v :: rest => do
    let v ← expandDocument env v
    let rest ← expandItems env rest
    return v :: rest

/-- Substitutes in all texts of the fields of an object; their names stay. -/
def expandFields (env : Environment) :
    List (String × Document) → Except String (List (String × Document))
  | [] => .ok []
  | (name, v) :: rest => do
    let v ← expandDocument env v
    let rest ← expandFields env rest
    return (name, v) :: rest

end

/-- The sentence about a variable that is not set. -/
def missingMessage (name : String) : String :=
  "Required environment variable '" ++ name ++ "' is not set"

end Reference

end Rendezvous
