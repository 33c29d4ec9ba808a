import Rendezvous.Payload

/-!
# Summaries of resolutions

How a resolution is shown to people: the kind of its outcome, and its payload, which for an error
is the error's text. Timeouts that nothing settled are told apart from other errors.

## Main definitions

* `OutcomeKind` and `Resolution.summarize`.
* `Resolution.same`: when two separate slots hold the same.
-/

namespace Rendezvous

/-- The kinds of outcomes that a summary tells apart. -/
inductive OutcomeKind where
  | value
  | error
  | timeout
  | none
  deriving DecidableEq, Repr

/-- The name of a kind of outcome. -/
def OutcomeKind.name : OutcomeKind → String
  | .value => "value"
  | .error => "error"
  | .timeout => "timeout"
  | .none => "none"

namespace Resolution

/-- The kind of an outcome and what is shown of it. -/
def summarize : Option Resolution → OutcomeKind × Payload
  | none => (.none, .null)
  | some (.value p) => (.value, p)
  | some (.error p) =>
    match p with
    | .atom (.failure (.requestTimeout n)) =>
      (.timeout, .text (Failure.requestTimeout n).message)
    | p => (.error, .text p.display)

/-- Tokens of two separate payloads: the marker is one and the same, failures never are. -/
def sameToken : Token → Token → Bool
  | .pending, .pending => true
  | _, _ => false

/-- Whether two separate slots hold the same: neither has a resolution, or both have one of the
same kind with equal payloads. -/
def same : Option Resolution → Option Resolution → Bool
  | none, none => true
  | some (.value p), some (.value q) => Value.same sameToken p q
  | some (.error p), some (.error q) => Value.same sameToken p q
  | _, _ => false

/-- The name of the part of a resolution that holds its payload. -/
def fieldName (r : Resolution) : String :=
  if r.isError then "error" else "value"

/-- A part of a resolution was assigned. -/
def readOnly (r : Resolution) : Failure :=
  .ordinary "FrozenInstanceError" ("cannot assign to field '" ++ r.fieldName ++ "'")

/-- The name, the value and the text of the marker that stands where a resolution is missing. -/
def missing : String × String × String :=
  ("NO_RESULT", "no_result", "NO_RESULT")

end Resolution

end Rendezvous
