import Rendezvous.Settings.Basic
import Rendezvous.Settings.Fault
import Rendezvous.Settings.IntegerText
import Rendezvous.Text.Casing
import Rendezvous.Value

/-!
# The schema of the settings

Settings are read from documents. Every field is read on its own, so that one reading reports all
faults: those of the declared fields in the order of their declaration, then the unknown fields in
the order of the document. The sections refuse unknown fields; the root ignores them.

## Main definitions

* `Settings.readInteger`, `readTimeout`, `readName`, `readTruth`, `readLevel`: the fields.
* `CoordinatorSettings.ofFields`, `LoggingSettings.ofFields`, `Settings.ofFields`.
* `CoordinatorSettings.fields`, `LoggingSettings.fields`, `Settings.fields`: settings as documents.
-/

namespace Rendezvous

namespace Settings

/-- The bound below which a floating-point number is read as an integer. -/
def floatBound : Nat := Nat.pow 2 63

/-- Reads an integer. -/
def readInteger : Document → Except Reason Int
  | .int n => .ok n
  | .bool b => .ok (Value.ofTruth b)
  | .float x =>
    if !x.isFinite then .error .notFinite
    else match x.toInt? with
      | none => .error .fractionalInteger
      | some n => if n.natAbs < floatBound then .ok n else .error .oversizedInteger
  | .text s =>
    let cs := Text.trim s.toList
    if IntegerText.maxLength < cs.length then .error .oversizedInteger
    else match IntegerText.parse? cs with
      | some n => .ok n
      | none => .error .unreadableInteger
  | _ => .error .notAnInteger

/-- Refuses negative integers. -/
def nonNegative (n : Int) : Except Reason Nat :=
  if n < 0 then .error .negative else .ok n.toNat

/-- Reads a timeout. -/
def readTimeout (v : Document) : Except Reason Nat :=
  readInteger v >>= nonNegative

/-- Reads a name, which must not be empty. -/
def readName : Document → Except Reason String
  | .text s => if s.isEmpty then .error .emptyText else .ok s
  | _ => .error .notText

/-- The truth value of an integer, if it is zero or one. -/
def truthOfInteger (n : Int) : Except Reason Bool :=
  if n = 0 then .ok false else if n = 1 then .ok true else .error .unreadableTruth

/-- The texts for "no". -/
def falseWords : List String := ["0", "off", "f", "false", "n", "no"]

/-- The texts for "yes". -/
def trueWords : List String := ["1", "on", "t", "true", "y", "yes"]

/-- Reads a truth value. -/
def readTruth : Document → Except Reason Bool
  | .bool b => .ok b
  | .int n => truthOfInteger n
  | .float x => match x.toInt? with
    | none => .error .notTruth
    | some n => if n.natAbs < floatBound then truthOfInteger n else .error .notTruth
  | .text s =>
    let word := Text.lowerCaseAscii s
    if falseWords.contains word then .ok false
    else if trueWords.contains word then .ok true
    else .error .unreadableTruth
  | _ => .error .notTruth

/-- Reads a level, whatever the case of its letters. -/
def readLevel : Document → Except Reason Level
  | .text s => match Level.ofName? (Text.upperCase s) with
    | some l => .ok l
    | none => .error .unknownLevel
  | _ => .error .unknownLevel

/-- Reads a field, which has a default. -/
def readField {α : Type} (fields : List (String × Document)) (name : String) (default : α)
    (read : Document → Except Reason α) : Except (List Fault) α :=
  match fields.lookup name with
  | none => .ok default
  | some v => (read v).mapError fun r => [⟨[name], r⟩]

/-- The faults of a reading. -/
def faults {α : Type} : Except (List Fault) α → List Fault
  | .ok _ => []
  | .error fs => fs

/-- The faults of fields that are not declared. -/
def unknownFields (declared : List String) (fields : List (String × Document)) : List Fault :=
  (fields.filter fun f => !declared.contains f.1).map fun f => ⟨[f.1], .unknownField⟩

end Settings

open Settings

namespace CoordinatorSettings

/-- Reads the settings of a coordinator. -/
def ofFields (fields : List (String × Document)) : Except (List Fault) CoordinatorSettings :=
  let timeout := readField fields "default_timeout_ms"
    (default : CoordinatorSettings).defaultTimeoutMs readTimeout
  let name := readField fields "timer_thread_prefix" (default : CoordinatorSettings).timerPrefix
    readName
  let unknown := unknownFields ["default_timeout_ms", "timer_thread_prefix"] fields
  match timeout, name, unknown with
  | .ok defaultTimeoutMs, .ok timerPrefix, [] => .ok { defaultTimeoutMs, timerPrefix }
  | _, _, _ => .error (faults timeout ++ faults name ++ unknown)

/-- The settings of a coordinator as fields of a document. -/
def fields (s : CoordinatorSettings) : List (String × Document) :=
  [("default_timeout_ms", .int s.defaultTimeoutMs), ("timer_thread_prefix", .text s.timerPrefix)]

end CoordinatorSettings

namespace LoggingSettings

/-- Reads the settings of log output. -/
def ofFields (fields : List (String × Document)) : Except (List Fault) LoggingSettings :=
  let level := readField fields "level" (default : LoggingSettings).level readLevel
  let json := readField fields "json_output" (default : LoggingSettings).jsonOutput readTruth
  let unknown := unknownFields ["level", "json_output"] fields
  match level, json, unknown with
  | .ok level, .ok jsonOutput, [] => .ok { level, jsonOutput }
  | _, _, _ => .error (faults level ++ faults json ++ unknown)

/-- The settings of log output as fields of a document. -/
def fields (s : LoggingSettings) : List (String × Document) :=
  [("level", .text s.level.name), ("json_output", .bool s.jsonOutput)]

end LoggingSettings

namespace Settings

/-- Reads a section of the root, which may be absent. -/
def readSection {α : Type} [Inhabited α] (root : List (String × Document)) (s : Section)
    (read : List (String × Document) → Except (List Fault) α) : Except (List Fault) α :=
  match root.lookup s.key with
  | none => .ok default
  | some (.object fields) => (read fields).mapError (·.map (Fault.within s))
  | some _ => .error [⟨[s.key], .notASection s⟩]

/-- Reads all settings. -/
def ofFields (root : List (String × Document)) : Except (List Fault) Settings :=
  let coordinator := readSection root .coordinator CoordinatorSettings.ofFields
  let logging := readSection root .logging LoggingSettings.ofFields
  match coordinator, logging with
  | .ok coordinator, .ok logging => .ok { coordinator, logging }
  | _, _ => .error (faults coordinator ++ faults logging)

/-- All settings as fields of a document. -/
def fields (s : Settings) : List (String × Document) :=
  [("coordinator", .object s.coordinator.fields), ("logging", .object s.logging.fields)]

/-- The faults of assigning to fields of settings that are complete. -/
def assignFaults (names : List String) : List Fault :=
  names.map fun name => ⟨[name], .readOnly⟩

end Settings

end Rendezvous
