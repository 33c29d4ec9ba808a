import Rendezvous.Failure
import Rendezvous.Value

/-!
# Payloads and resolutions

A payload is data in which two kinds of atoms may occur at any depth: the marker of a pending
result, and failures. A resolution is the final state of a cell: a value or an error, with its
payload. The two are kept apart even if their payloads are equal, so that a null value is never
taken for a missing one.

## Main definitions

* `Payload`, with the marker `Payload.pending` and `Payload.ofFailure`.
* `Payload.display`: a payload as part of a message.
* `Resolution`, with `Resolution.payload` and `Resolution.isError`.
* `Resolution.ofFallback?`: what a fallback resolves a cell to.
-/

namespace Rendezvous

/-- What a payload may hold besides plain data. -/
inductive Token where
  /-- The marker of a result that has not arrived. -/
  | pending
  | failure (f : Failure)
  deriving DecidableEq, Repr

/-- Data with failures and the pending marker. -/
abbrev Payload : Type := Value Token

namespace Payload

/-- The marker of a result that has not arrived. -/
def pending : Payload := .atom .pending

/-- A failure as a payload. -/
def ofFailure (f : Failure) : Payload := .atom (.failure f)

/-- The failure that a payload is, if it is one. -/
def failure? : Payload → Option Failure
  | .atom (.failure f) => some f
  | _ => none

/-- Whether a payload is the pending marker. -/
def isPending : Payload → Bool
  | .atom .pending => true
  | _ => false

/-- How a record shows a failure or the marker. -/
def tokenLiteral : Token → String
  | .pending => "NO_RESULT"
  | .failure f => f.kind ++ "(" ++ Text.quoted f.message ++ ")"

/-- How a record shows a payload. -/
def literal (p : Payload) : String :=
  Value.literal tokenLiteral p

/-- A payload as part of a message: text and failures without quotes. -/
def display : Payload → String
  | .text s => s
  | .atom .pending => "Pending.NO_RESULT"
  | .atom (.failure f) => f.message
  | p => literal p

end Payload

/-- The final state of a cell. -/
inductive Resolution where
  | value (payload : Payload)
  | error (payload : Payload)
  deriving Inhabited

namespace Resolution

/-- What a resolution carries. -/
def payload : Resolution → Payload
  | .value p => p
  | .error p => p

/-- Whether a resolution is an error. -/
def isError : Resolution → Bool
  | .value _ => false
  | .error _ => true

/-- The failure that an error carries, if it carries one. -/
def failure? : Resolution → Option Failure
  | .value _ => none
  | .error p => p.failure?

/-- What a fallback resolves a cell to: nothing for the pending marker, an error for a failure, and
a value for anything else. -/
def ofFallback? (p : Payload) : Option Resolution :=
  match p with
  | .atom .pending => none
  | .atom (.failure _) => some (.error p)
  | _ => some (.value p)

theorem ofFallback?_eq_none_iff (p : Payload) : ofFallback? p = none ↔ p = Payload.pending := by
  unfold ofFallback? Payload.pending
  split <;> simp_all

/-- How a record shows a resolution. -/
def literal : Resolution → String
  | .value p => "ValueResult(value=" ++ p.literal ++ ")"
  | .error p => "ErrorResult(error=" ++ p.literal ++ ")"

end Resolution

end Rendezvous
