import Rendezvous.Number.Shortest
import Rendezvous.Text.Quoted

/-!
# Values

The data that requests carry and documents hold: scalars, lists, and objects whose fields keep
their order. The type has one parameter for atoms of a kind that plain data lacks, so that
documents and payloads are the same type at different parameters.

## Main definitions

* `Value`: data with atoms of type `χ`; `Document` is data without any.
* `Value.isFalse`: the values that count as "no" where an answer is tested.
* `Value.same`: equality of data, in which numbers are compared by amount and objects by field.
* `Value.literal`: the text by which a record shows a value.
-/

namespace Rendezvous

/-- Data with atoms of type `χ`. -/
inductive Value (χ : Type) where
  | null
  | bool (b : Bool)
  | int (n : Int)
  | float (x : Binary64)
  | text (s : String)
  | list (items : List (Value χ))
  | object (fields : List (String × Value χ))
  | atom (x : χ)
  deriving Inhabited

/-- Plain data. -/
abbrev Document : Type := Value Empty

namespace Value

variable {χ : Type}

/-- The values that count as "no": null, false, zero, and everything empty. -/
def isFalse : Value χ → Bool
  | .null => true
  | .bool b => !b
  | .int n => n == 0
  | .float x => x.isZero
  | .text s => s.isEmpty
  | .list items => items.isEmpty
  | .object fields => fields.isEmpty
  | .atom _ => false

/-- The field of an object, if the value is an object that has it. -/
def field? (v : Value χ) (name : String) : Option (Value χ) :=
  match v with
  | .object fields => fields.lookup name
  | _ => none

/-- The integer that a truth value stands for. -/
def ofTruth (b : Bool) : Int :=
  if b then 1 else 0

/-- Equality of an integer with a value, by amount. -/
def sameInt (n : Int) : Value χ → Bool
  | .bool b => n == ofTruth b
  | .int m => n == m
  | .float x => x.toInt? == some n
  | _ => false

mutual

/-- Equality of data. Numbers and truth values are compared by amount, objects field by field
whatever the order, and atoms by the given test. -/
def same (atoms : χ → χ → Bool) : Value χ → Value χ → Bool
  | .null, w => match w with
    | .null => true
    | _ => false
  | .bool b, w => sameInt (ofTruth b) w
  | .int n, w => sameInt n w
  | .float x, w => match w with
    | .float y => x.equals y
    | .int n => x.toInt? == some n
    | .bool b => x.toInt? == some (ofTruth b)
    | _ => false
  | .text s, w => match w with
    | .text t => s == t
    | _ => false
  | .list items, w => match w with
    | .list others => sameItems atoms items others
    | _ => false
  | .object fields, w => match w with
    | .object others => fields.length == others.length && sameFields atoms fields others
    | _ => false
  | .atom x, w => match w with
    | .atom y => atoms x y
    | _ => false

/-- Equality of lists, item by item. -/
def sameItems (atoms : χ → χ → Bool) : List (Value χ) → List (Value χ) → Bool
  | [], [] => true
  | v :: rest, w :: others => same atoms v w && sameItems atoms rest others
  | _, _ => false

/-- Whether every field has an equal one under its name. -/
def sameFields (atoms : χ → χ → Bool) : List (String × Value χ) → List (String × Value χ) → Bool
  | [], _ => true
  | (name, v) :: rest, others =>
    (match others.lookup name with
      | some w => same atoms v w
      | none => false) && sameFields atoms rest others

end

mutual

/-- The text by which a record shows a value: text in quotes, lists in brackets, objects in
braces. -/
def literal (atoms : χ → String) : Value χ → String
  | .null => "None"
  | .bool b => if b then "True" else "False"
  | .int n => toString n
  | .float x => x.render Binary64.recordLayout
  | .text s => Text.quoted s
  | .list items => "[" ++ String.intercalate ", " (literals atoms items) ++ "]"
  | .object fields => "\x7b" ++ String.intercalate ", " (fieldLiterals atoms fields) ++ "\x7d"
  | .atom x => atoms x

/-- The texts of the items of a list. -/
def literals (atoms : χ → String) : List (Value χ) → List String
  | [] => []
  | v :: rest => literal atoms v :: literals atoms rest

/-- The texts of the fields of an object. -/
def fieldLiterals (atoms : χ → String) : List (String × Value χ) → List String
  | [] => []
  | (name, v) :: rest => (Text.quoted name ++ ": " ++ literal atoms v) :: fieldLiterals atoms rest

end

mutual

/-- Applies a function to every atom. -/
def mapAtoms {ψ : Type} (f : χ → Value ψ) : Value χ → Value ψ
  | .null => .null
  | .bool b => .bool b
  | .int n => .int n
  | .float x => .float x
  | .text s => .text s
  | .list items => .list (mapItems f items)
  | .object fields => .object (mapFields f fields)
  | .atom x => f x

/-- Applies a function to every atom of the items. -/
def mapItems {ψ : Type} (f : χ → Value ψ) : List (Value χ) → List (Value ψ)
  | [] => []
  | v :: rest => mapAtoms f v :: mapItems f rest

/-- Applies a function to every atom of the fields. -/
def mapFields {ψ : Type} (f : χ → Value ψ) : List (String × Value χ) → List (String × Value ψ)
  | [] => []
  | (name, v) :: rest => (name, mapAtoms f v) :: mapFields f rest

end

end Value

end Rendezvous
