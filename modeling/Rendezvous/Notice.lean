import Rendezvous.Failure
import Rendezvous.Value

/-!
# Notices

What cells and coordinators report while they work: the stages of a request, and every failure of
user code that was contained. A notice shows the cell as it was when the notice was written.

## Main definitions

* `Hook`: the four kinds of user code that notices tell apart.
* `Site`: the places where a failure is contained, with `Site.hook` and `Site.message`.
* `Notice`, with `Notice.event` and `Notice.fields`.
-/

namespace Rendezvous

/-- The kinds of user code that notices tell apart. -/
inductive Hook where
  | handler
  | timeout
  | error
  | completion
  deriving DecidableEq, Repr

/-- The name of a kind of user code. -/
def Hook.name : Hook → String
  | .handler => "handler"
  | .timeout => "timeout"
  | .error => "error"
  | .completion => "completion"

/-- The places where a failure of user code is contained. -/
inductive Site where
  | handler
  | timeoutCallback
  | fallback
  | errorCallback
  | completionCallback
  | timeoutInterceptor
  | errorInterceptor
  | completionInterceptor
  deriving DecidableEq, Repr

namespace Site

/-- The kind of user code that runs at a place. -/
def hook : Site → Hook
  | .handler => .handler
  | .timeoutCallback | .fallback | .timeoutInterceptor => .timeout
  | .errorCallback | .errorInterceptor => .error
  | .completionCallback | .completionInterceptor => .completion

/-- The report of a failure at a place. -/
def message : Site → String
  | .handler => "Result handler failed"
  | .timeoutCallback => "Timeout callback failed"
  | .fallback => "Timeout result factory failed"
  | .errorCallback => "Error callback failed"
  | .completionCallback => "Completion callback failed"
  | .timeoutInterceptor => "Interceptor failed during timeout handling"
  | .errorInterceptor => "Interceptor failed during error handling"
  | .completionInterceptor => "Interceptor failed during completion"

end Site

/-- A report of a cell or a coordinator. -/
inductive Notice where
  /-- A request was started. -/
  | started (cell : String) (timeoutMs : Int)
  /-- The timeout of a request fired. -/
  | timedOut (cell : String) (timeoutMs : Int)
  /-- A request was reported to have failed. -/
  | failed (cell error : String)
  /-- A request was abandoned. -/
  | abandoned (cell : String)
  /-- User code failed and the failure was contained. -/
  | contained (site : Site) (cell : String) (error : Option String) (failure : Failure)
  /-- A request that no coordinator started is over. -/
  | finished (name : String)
  deriving DecidableEq, Repr

namespace Notice

/-- The sentence of a notice; the end of a request without a coordinator has none. -/
def event? : Notice → Option String
  | .started .. => some "Deferred request started"
  | .timedOut .. => some "Deferred request timed out"
  | .failed .. => some "Deferred request failed"
  | .abandoned .. => some "Deferred request abandoned"
  | .contained site .. => some site.message
  | .finished _ => none

/-- Whether a notice is a warning. -/
def isWarning : Notice → Bool
  | .contained .. => true
  | _ => false

/-- The named data of a notice. -/
def fields : Notice → List (String × Document)
  | .started cell n => [("cell", .text cell), ("timeout_ms", .int n)]
  | .timedOut cell n => [("cell", .text cell), ("timeout_ms", .int n)]
  | .failed cell error => [("cell", .text cell), ("error", .text error)]
  | .abandoned cell => [("cell", .text cell)]
  | .contained site cell error _ =>
    [("hook", .text site.hook.name), ("cell", .text cell)] ++
      (error.map fun e => ("error", Value.text e)).toList
  | .finished _ => []

/-- The failure that a notice reports. -/
def failure? : Notice → Option Failure
  | .contained _ _ _ f => some f
  | _ => none

end Notice

end Rendezvous
