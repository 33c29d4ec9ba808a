import Rendezvous.Failure
import Rendezvous.Number.Places
import Rendezvous.Value

/-!
# Message templates

The text of a record may be a template: a percent sign begins a directive, and each directive takes
the next argument, or the argument of a name in parentheses. A directive can set flags, a least
width and a precision, and ends in a letter that says how the argument is shown. Two percent signs
stand for one.

## Main definitions

* `Template.Directive` and `Template.Directive.render`: one directive applied to its argument.
* `Template.Supply`: the arguments that are left.
* `Template.fill`: a template with its arguments.
-/

namespace Rendezvous.Template

/-- A failure of the wrong kind of argument. -/
def wrongType (message : String) : Failure := .ordinary "TypeError" message

/-- A failure of a template that cannot be read. -/
def badTemplate (message : String) : Failure := .ordinary "ValueError" message

/-- A directive without its argument. -/
structure Directive where
  leftAligned : Bool := false
  plus : Bool := false
  blank : Bool := false
  alternate : Bool := false
  zeroPadded : Bool := false
  width : Nat := 0
  precision : Option Nat := none
  letter : Char := 's'
  deriving Repr

/-- The name of the kind of a value. -/
def kindName : Document → String
  | .null => "NoneType"
  | .bool _ => "bool"
  | .int _ => "int"
  | .float _ => "float"
  | .text _ => "str"
  | .list _ => "list"
  | .object _ => "dict"
  | .atom x => nomatch x

/-- How a record shows a value. -/
def literal (v : Document) : String :=
  v.literal fun x => nomatch x

/-- A value as part of a message. -/
def display : Document → String
  | .text s => s
  | v => literal v

/-- The literal of a value in which only ASCII characters stand as they are. -/
def asciiLiteral (v : Document) : List Char :=
  (literal v).toList.flatMap fun c => if c.toNat < 0x80 then [c] else Text.escapeCode c.toNat

namespace Directive

/-- Fills text up to the width with blanks. -/
def pad (d : Directive) (cs : List Char) : List Char :=
  let fill := List.replicate (d.width - cs.length) ' '
  if d.leftAligned then cs ++ fill else fill ++ cs

/-- Shows text; the precision is its greatest length. -/
def showText (d : Directive) (cs : List Char) : List Char :=
  d.pad (match d.precision with
    | some n => cs.take n
    | none => cs)

/-- Shows a number: its sign, a mark for its base, and its digits. Zeros go between mark and
digits, blanks before the sign. -/
def showNumber (d : Directive) (negative : Bool) (mark digits : List Char) : List Char :=
  let sign := if negative then ['-'] else if d.plus then ['+'] else if d.blank then [' '] else []
  let front := sign ++ mark
  let size := front.length + digits.length
  if d.zeroPadded && !d.leftAligned then
    front ++ List.replicate (d.width - size) '0' ++ digits
  else d.pad (front ++ digits)

/-- Shows an integer in a base. -/
def showInteger (d : Directive) (base : Nat) (mark : List Char) (n : Int) : List Char :=
  let digits := Nat.toDigits base n.natAbs
  let digits := List.replicate (d.precision.getD 0 - digits.length) '0' ++ digits
  d.showNumber (n < 0) (if d.alternate then mark else []) digits

/-- The integer part of a number, where a decimal integer is asked for. -/
def integerPart (d : Directive) : Document → Except Failure Int
  | .int n => .ok n
  | .bool b => .ok (Value.ofTruth b)
  | .float (.finite negative m e) =>
    let size := if 0 ≤ e then m * Nat.pow 2 e.toNat else m / Nat.pow 2 (-e).toNat
    .ok (if negative then -size else size)
  | .float (.infinite _) =>
    .error (.ordinary "OverflowError" "cannot convert float infinity to integer")
  | .float .nan => .error (badTemplate "cannot convert float NaN to integer")
  | v => .error (wrongType ("%" ++ String.singleton d.letter ++
      " format: a real number is required, not " ++ kindName v))

/-- The integer that a value is, where another base is asked for. -/
def wholeNumber (d : Directive) : Document → Except Failure Int
  | .int n => .ok n
  | .bool b => .ok (Value.ofTruth b)
  | v => .error (wrongType ("%" ++ String.singleton d.letter ++
      " format: an integer is required, not " ++ kindName v))

/-- The floating-point number that a value is. -/
def realNumber : Document → Except Failure Binary64
  | .float x => .ok x
  | .bool b => .ok (.ofInt (Value.ofTruth b))
  | .int n =>
    if n.natAbs < Binary64.overflowBound then .ok (.ofInt n)
    else .error (.ordinary "OverflowError" "int too large to convert to float")
  | v => .error (wrongType ("must be real number, not " ++ kindName v))

/-- Shows a floating-point number in the notation of the letter. -/
def showReal (d : Directive) (x : Binary64) : List Char :=
  let upper := d.letter.isUpper
  let cased (cs : List Char) := if upper then cs.map Char.toUpper else cs
  match x with
  | .nan => d.showNumber false [] (cased ['n', 'a', 'n'])
  | .infinite negative => d.showNumber negative [] (cased ['i', 'n', 'f'])
  | .finite negative m e =>
    let (num, den) := if 0 ≤ e then (m * Nat.pow 2 e.toNat, 1) else (m, Nat.pow 2 (-e).toNat)
    let places := d.precision.getD 6
    let digits := match d.letter.toLower with
      | 'e' => Binary64.exponential num den places
      | 'g' => Binary64.general d.alternate num den places
      | _ => Binary64.fixed num den places
    d.showNumber negative [] (cased (if d.alternate then Binary64.keepPoint digits else digits))

/-- The character that a value is. -/
def character : Document → Except Failure (List Char)
  | .text s => if s.length = 1 then .ok s.toList else .error (wrongType "%c requires int or char")
  | .int n =>
    if 0 ≤ n ∧ n < 0x110000 then .ok [Char.ofNat n.toNat]
    else .error (.ordinary "OverflowError" "%c arg not in range(0x110000)")
  | .bool b => .ok [Char.ofNat (Value.ofTruth b).toNat]
  | _ => .error (wrongType "%c requires int or char")

/-- Shows an argument as the letter says; `index` is the place of the letter in the template. -/
def render (d : Directive) (index : Nat) (v : Document) : Except Failure (List Char) :=
  match d.letter with
  | 's' => .ok (d.showText (display v).toList)
  | 'r' => .ok (d.showText (literal v).toList)
  | 'a' => .ok (d.showText (asciiLiteral v))
  | 'c' => (character v).map d.pad
  | 'd' | 'i' | 'u' => (d.integerPart v).map (d.showInteger 10 [])
  | 'x' => (d.wholeNumber v).map (d.showInteger 16 ['0', 'x'])
  | 'X' => (d.wholeNumber v).map fun n =>
      (d.showInteger 16 ['0', 'x'] n).map Char.toUpper
  | 'o' => (d.wholeNumber v).map (d.showInteger 8 ['0', 'o'])
  | 'e' | 'E' | 'f' | 'F' | 'g' | 'G' => (realNumber v).map d.showReal
  | c => .error (badTemplate ("unsupported format character '" ++ String.singleton c ++ "' (0x" ++
      String.ofList (Nat.toDigits 16 c.toNat) ++ ") at index " ++ toString index))

end Directive

/-! ### Arguments -/

/-- The arguments that are left. -/
inductive Supply where
  /-- Arguments that are taken in order. -/
  | items (rest : List Document)
  /-- Arguments that are taken by name. The whole can stand for one argument without a name,
  as long as nothing was taken. -/
  | named (fields : List (String × Document)) (whole : Bool)
  deriving Inhabited

namespace Supply

/-- The arguments of a record: a single object gives them by name. -/
def ofList : List Document → Supply
  | [.object (f :: fields)] => .named (f :: fields) true
  | args => .items args

/-- There is no argument for a directive. -/
def tooFew : Failure := wrongType "not enough arguments for format string"

/-- Takes the next argument. -/
def next : Supply → Except Failure (Document × Supply)
  | .items (v :: rest) => .ok (v, .items rest)
  | .items [] => .error tooFew
  | .named fields true => .ok (.object fields, .named fields false)
  | .named _ false => .error tooFew

/-- Takes the argument of a name. -/
def byName (name : String) : Supply → Except Failure (Document × Supply)
  | .items _ => .error (wrongType "format requires a mapping")
  | .named fields _ => match fields.lookup name with
    | some v => .ok (v, .named fields false)
    | none => .error (.ordinary "KeyError" (Text.quoted name))

/-- Takes the next argument as a width or precision. -/
def nextNumber (s : Supply) : Except Failure (Int × Supply) := do
  match ← s.next with
  | (.int n, s) => return (n, s)
  | (.bool b, s) => return (Value.ofTruth b, s)
  | _ => throw (wrongType "* wants int")

/-- Every argument given in order must have been taken. -/
def finish : Supply → Except Failure Unit
  | .items (_ :: _) => .error (wrongType "not all arguments converted during string formatting")
  | _ => .ok ()

end Supply

/-! ### Directives in a template -/

/-- The template ends inside a directive. -/
def incomplete : Failure := badTemplate "incomplete format"

/-- The name in parentheses, which may nest, and what follows them. -/
def takeName : List Char → (depth : Nat) → (name : List Char) →
    Except Failure (String × List Char)
  | [], _, _ => .error (badTemplate "incomplete format key")
  | ')' :: rest, 0, name => .ok (String.ofList name.reverse, rest)
  | ')' :: rest, depth + 1, name => takeName rest depth (')' :: name)
  | '(' :: rest, depth, name => takeName rest (depth + 1) ('(' :: name)
  | c :: rest, depth, name => takeName rest depth (c :: name)

/-- The flags of a directive and what follows them. -/
def takeFlags : List Char → Directive → Directive × List Char
  | '-' :: rest, d => takeFlags rest { d with leftAligned := true }
  | '+' :: rest, d => takeFlags rest { d with plus := true }
  | ' ' :: rest, d => takeFlags rest { d with blank := true }
  | '#' :: rest, d => takeFlags rest { d with alternate := true }
  | '0' :: rest, d => takeFlags rest { d with zeroPadded := true }
  | cs, d => (d, cs)

/-- The number that decimal digits write. -/
def decimal (cs : List Char) : Nat :=
  cs.foldl (fun n c => n * 10 + (c.toNat - '0'.toNat)) 0

/-- The bound that widths stay below. -/
def widthBound : Nat := Nat.pow 2 63

/-- The bound that precisions stay below. -/
def precisionBound : Nat := Nat.pow 2 31

/-- A width or precision among the arguments is beyond its bound. -/
def tooLarge : Failure := .ordinary "OverflowError" "int too large to convert"

/-- A number from the arguments, which must be within a bound. -/
def boundedNumber (bound : Nat) (s : Supply) : Except Failure (Int × Supply) := do
  let (n, s) ← s.nextNumber
  if -(bound : Int) ≤ n ∧ n < bound then return (n, s) else throw tooLarge

/-- A number in the template, which must be within a bound, and what follows it. -/
def takeNumber (name : String) (bound : Nat) (cs : List Char) : Except Failure (Nat × List Char) :=
  let n := decimal (cs.takeWhile Char.isDigit)
  if n < bound then .ok (n, cs.dropWhile Char.isDigit)
  else .error (badTemplate (name ++ " too big"))

/-- The width of a directive: digits, or a star that takes it from the arguments. -/
def takeWidth (cs : List Char) (d : Directive) (s : Supply) :
    Except Failure (Directive × List Char × Supply) := do
  match cs with
  | '*' :: rest =>
    let (n, s) ← boundedNumber widthBound s
    return ({ d with width := n.natAbs, leftAligned := d.leftAligned || n < 0 }, rest, s)
  | _ =>
    let (n, rest) ← takeNumber "width" widthBound cs
    return ({ d with width := n }, rest, s)

/-- The precision of a directive, after a point. -/
def takePrecision (cs : List Char) (d : Directive) (s : Supply) :
    Except Failure (Directive × List Char × Supply) := do
  match cs with
  | '.' :: '*' :: rest =>
    let (n, s) ← boundedNumber precisionBound s
    return ({ d with precision := some n.toNat }, rest, s)
  | '.' :: rest =>
    let (n, rest) ← takeNumber "precision" precisionBound rest
    return ({ d with precision := some n }, rest, s)
  | _ => return (d, cs, s)

/-- A directive after its percent sign, applied to its argument: what is shown, what follows, and
the arguments that are left. `total` is the length of the template. -/
def applyDirective (total : Nat) (cs : List Char) (s : Supply) :
    Except Failure (List Char × List Char × Supply) := do
  let (named, cs, s) ← match cs with
    | '(' :: rest => do
      let (name, rest) ← takeName rest 0 []
      let (v, s) ← s.byName name
      pure (some v, rest, s)
    | _ => pure (none, cs, s)
  let (d, cs) := takeFlags cs {}
  let (d, cs, s) ← takeWidth cs d s
  let (d, cs, s) ← takePrecision cs d s
  match if cs.head?.any (['h', 'l', 'L'].contains ·) then cs.tail else cs with
  | [] => throw incomplete
  | c :: rest => do
    let (v, s) ← match named with
      | some v => pure (v, s)
      | none => s.next
    let shown ← { d with letter := c }.render (total - rest.length - 1) v
    return (shown, rest, s)

/-- The rest of a template with the arguments that are left. -/
def fillFrom (total : Nat) : (fuel : Nat) → List Char → Supply → Except Failure (List Char)
  | 0, _, _ => .ok []
  | fuel + 1, cs, s =>
    match cs with
    | [] => do
      s.finish
      return []
    | '%' :: '%' :: rest => do
      let tail ← fillFrom total fuel rest s
      return '%' :: tail
    | '%' :: rest => do
      let (shown, rest, s) ← applyDirective total rest s
      let tail ← fillFrom total fuel rest s
      return shown ++ tail
    | c :: rest => do
      let tail ← fillFrom total fuel rest s
      return c :: tail

/-- A template with its arguments. Without arguments it is no template and stays as it is. -/
def fill (template : String) (args : List Document) : Except Failure String :=
  if args.isEmpty then .ok template
  else
    let cs := template.toList
    (fillFrom cs.length (cs.length + 1) cs (.ofList args)).map String.ofList

example : (fill "a %s b %d" [.text "x", .int 5]).toOption = some "a x b 5" := by decide
example : (fill "%05d|%-4s|%+.2f%%" [.int (-42), .text "ab", .int 3]).toOption =
    some "-0042|ab  |+3.00%" := by decide +kernel

end Rendezvous.Template
