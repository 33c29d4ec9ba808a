import Rendezvous.Settings.Fault

/-!
# Failures

What an operation or a callback can raise. Ordinary failures are contained where user code is
called; escaping ones mean that the caller itself should stop, and containment lets them pass.

## Main definitions

* `Failure`: the failures, with `Failure.kind`, `Failure.message` and `Failure.isOrdinary`.
-/

namespace Rendezvous

/-- What an operation or a callback raised. -/
inductive Failure where
  /-- A failure that containment stops. -/
  | ordinary (kind message : String)
  /-- A failure that containment lets pass. -/
  | escaping (kind message : String)
  /-- A request timed out and nothing settled it. -/
  | requestTimeout (timeoutMs : Int)
  /-- Settings were refused. -/
  | invalidSettings (faults : List Settings.Fault)
  deriving DecidableEq, Repr

namespace Failure

instance : Inhabited Failure := ⟨.ordinary "" ""⟩

/-- The name of the kind of a failure. -/
def kind : Failure → String
  | .ordinary kind _ => kind
  | .escaping kind _ => kind
  | .requestTimeout _ => "AsyncRequestTimeoutError"
  | .invalidSettings _ => "ValidationError"

/-- The text of a failure. -/
def message : Failure → String
  | .ordinary _ message => message
  | .escaping _ message => message
  | .requestTimeout n =>
    "Async request timed out after " ++ toString n ++ "ms with no result and no fallback value"
  | .invalidSettings faults => String.intercalate "\n" (faults.map fun f => f.reason.message)

/-- Whether containment stops a failure. -/
def isOrdinary : Failure → Bool
  | .escaping .. => false
  | _ => true

/-- The kinds that escape. -/
def escapingKinds : List String :=
  ["BaseException", "KeyboardInterrupt", "SystemExit", "GeneratorExit"]

/-- The failure of a kind that is known by name. -/
def ofKind (kind message : String) : Failure :=
  if escapingKinds.contains kind then .escaping kind message else .ordinary kind message

/-! ### The failures that cells and coordinators raise themselves -/

/-- A cell was given a negative timeout. -/
def negativeTimeout (timeoutMs : Int) : Failure :=
  .ordinary "ValueError" ("timeout_ms must be >= 0, got " ++ toString timeoutMs)

/-- A cell was given both a fixed and a computed fallback. -/
def twoFallbacks : Failure :=
  .ordinary "ValueError" "Pass either timeout_result or timeout_result_factory, not both"

/-- A registration named no handler. -/
def handlerRequired : Failure :=
  .ordinary "TypeError" "A result handler is required"

/-- A request without a dispatch function received its result. -/
def nothingToCall : Failure :=
  .ordinary "TypeError" "'NoneType' object is not callable"

/-- A request was started on an expired cell. -/
def expiredCell (cell : String) : Failure :=
  .ordinary "CoordinatorStateError" ("Cannot start processing for an expired cell: " ++ cell)

/-- A second request was started on a cell. -/
def cellInProcess (cell : String) : Failure :=
  .ordinary "CoordinatorStateError" ("Cell is already being processed: " ++ cell)

/-- A timeout has more milliseconds than a floating-point number can count. -/
def timeoutOverflow : Failure :=
  .ordinary "OverflowError" "int too large to convert to float"

/-- A wait ended before its request did; the limit is shown as it was written. -/
def waitExpired (limit : String) : Failure :=
  .ordinary "TimeoutError" ("Deferred request did not complete within " ++ limit ++ "s")

/-- A wait without a limit has nothing left to wait for. -/
def wouldBlock : Failure :=
  .ordinary "WouldBlock" "wait() without a timeout would never return"

end Failure

end Rendezvous
