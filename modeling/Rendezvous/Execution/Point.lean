import Rendezvous.Notice
import Rendezvous.World

/-!
# Program points

Every operation is a path through program points. At a point the operation takes one indivisible
step: an unlocked look at a field, a block under one lock, a call of user code, or an entry in the
log. Between two steps any other thread may take its own.

A point belongs to the object whose code it is in. A frame is the rest of a caller that waits for
the outcome of what it called; it belongs to an object in the same way.

## Main definitions

* `Answer` and `Outcome`: what a call ends with.
* `Role` and `Invocation`: a call of user code.
* `CellPoint`, `RequestPoint`, `CoordinatorPoint` and `Point`.
* `CellFrame`, `RequestFrame` and `Frame`.
* `Lock` and `Point.lock?`: the lock under which a point takes its step.
-/

namespace Rendezvous

/-- What a call returns. -/
inductive Answer where
  | unit
  | flag (b : Bool)
  | count (n : Nat)
  | request (id : RequestId)
  | resolution (r : Option Resolution)
  | payload (p : Payload)
  deriving Inhabited

/-- Whether an answer counts as "no". -/
def Answer.isFalse : Answer → Bool
  | .flag b => !b
  | .count n => n == 0
  | .payload p => p.isFalse
  | .unit => true
  | .resolution r => r.isNone
  | .request _ => false

/-- How a call ended. -/
inductive Outcome where
  | returned (a : Answer)
  | raised (f : Failure)
  deriving Inhabited

/-! ### Calls of user code -/

/-- What user code is called as. -/
inductive Role where
  | handler
  | dispatch
  | onTimeout
  | onError
  | onCompletion
  /-- The computation of a fallback. -/
  | factory
  /-- The three callbacks of a custom interceptor. -/
  | timeout
  | error
  | completion
  deriving DecidableEq, Repr

/-- The name of a role. -/
def Role.name : Role → String
  | .handler => "handler"
  | .dispatch => "dispatch"
  | .onTimeout => "on_timeout"
  | .onError => "on_error"
  | .onCompletion => "on_completion"
  | .factory => "factory"
  | .timeout => "timeout"
  | .error => "error"
  | .completion => "completion"

/-- What user code is given. -/
inductive Argument where
  | resolution (r : Resolution)
  | payload (p : Payload)

/-- A call of user code. -/
structure Invocation where
  callback : CallbackId
  role : Role
  argument : Option Argument := none

/-! ### Points -/

/-- The callbacks that a cell has room for. -/
inductive CallbackSlot where
  | timeout
  | error
  | completion
  deriving DecidableEq, Repr

/-- The questions that a cell answers. -/
inductive Query where
  | hasResult
  | isExpired
  | isSetOrExpired
  | getResult
  | resolution
  deriving DecidableEq, Repr

/-- The points in the code of a cell. -/
inductive CellPoint where
  /-- Registration looks whether the cell has expired, without the lock. -/
  | checkRegister (h : Handler)
  /-- Registration, under the lock. -/
  | register (h : Handler)
  /-- A setter looks for a result, without the lock. -/
  | checkResult (r : Resolution)
  /-- A setter looks whether the cell has expired, without the lock. -/
  | checkExpired (r : Resolution)
  /-- Assignment, under the lock. -/
  | assign (r : Resolution)
  /-- The handler is called; whatever it does, the answer is the given one. -/
  | deliver (h : Handler) (r : Resolution) (a : Answer)
  /-- The timeout hook calls the timeout callback. -/
  | timeoutCallback
  /-- The timeout hook asks for the fallback. -/
  | fallback
  /-- The timeout hook settles the cell with the fallback. -/
  | settle (p : Payload)
  /-- The error hook calls the error callback. -/
  | errorCallback (e : Payload)
  /-- The error hook settles the cell with the error. -/
  | settleError (e : Payload)
  /-- The completion hook ends the life of the cell, under the lock. -/
  | expire
  /-- The completion hook calls the completion callback. -/
  | completionCallback
  /-- A callback is put into its slot, or taken out. -/
  | setCallback (slot : CallbackSlot) (id : Option CallbackId)
  /-- A question is answered, or its first half. -/
  | ask (q : Query)
  /-- The second half of the question whether the cell is set or expired. -/
  | askExpired

/-- The points in the code of a request. -/
inductive RequestPoint where
  /-- The timer is armed, if there is to be one. -/
  | arm
  /-- The request registers itself as the handler of its cell. -/
  | attach
  /-- The resolution arrives and is recorded, under the lock. -/
  | record (r : Resolution)
  /-- Dispatch is called. -/
  | dispatch (r : Resolution)
  /-- The timeout looks whether the request is completed, without the lock. -/
  | checkTimeout
  /-- The request is marked as timed out. -/
  | markTimeout
  /-- The remaining interceptors are told about the timeout. -/
  | timeoutHooks (rest : List Interceptor)
  /-- No interceptor settled the timeout: the cell is resolved with it, if it has no result. -/
  | timeoutDefault
  /-- A failure report looks whether the request is completed, without the lock. -/
  | checkFail (e : Payload)
  /-- The failure is noted. -/
  | noteFail (e : Payload)
  /-- The remaining interceptors are told about the failure. -/
  | errorHooks (e : Payload) (rest : List Interceptor)
  /-- No interceptor settled the failure: the cell is resolved with it, if it has no result. -/
  | errorDefault (e : Payload)
  /-- The request is completed here unless the handler of the cell does it. -/
  | completeUndelivered
  /-- An abandonment looks whether the request is completed, without the lock. -/
  | checkAbandon
  /-- The abandonment is noted. -/
  | noteAbandon
  /-- The request is marked as completed, under the lock. -/
  | complete
  /-- The timer is cancelled. -/
  | cancelTimer
  /-- The remaining interceptors are told about the completion. -/
  | completionHooks (rest : List Interceptor)
  /-- The listener is told. -/
  | tellListener
  /-- Those who wait are released. -/
  | release
  /-- A wait goes on once the request is released. -/
  | await
  /-- A wait collects the resolution. -/
  | collect

/-- The points in the code of a coordinator. -/
inductive CoordinatorPoint where
  /-- A start looks whether the cell has expired. -/
  | checkStart (c : CellId) (dispatch : Option CallbackId) (extra : List Interceptor)
  /-- A start draws a number and makes the request. -/
  | draw (c : CellId) (dispatch : Option CallbackId) (extra : List Interceptor)
  /-- The request joins those in flight, under the lock. -/
  | activate (q : RequestId)
  /-- The start is noted. -/
  | noteStart (q : RequestId)
  /-- The requests in flight are listed, under the lock. -/
  | abandonAll
  /-- The remaining requests of the list are abandoned. -/
  | abandonEach (total : Nat) (rest : List RequestId)
  /-- A request that is over leaves those in flight, under the lock. -/
  | retire (q : RequestId)
  /-- The requests in flight are counted, under the lock. -/
  | countActive

/-- A point in the code of an object. -/
inductive Point where
  | cell (c : CellId) (p : CellPoint)
  | request (q : RequestId) (p : RequestPoint)
  | coordinator (k : CoordinatorId) (p : CoordinatorPoint)

/-! ### Frames -/

/-- The code of a cell that waits for an outcome. -/
inductive CellFrame where
  /-- The handler was called. -/
  | delivered (a : Answer)
  | timeoutCallback
  | fallback
  | errorCallback (e : Payload)
  | completionCallback

/-- The code of a request that waits for an outcome. -/
inductive RequestFrame where
  /-- Dispatch was called; the request completes whatever it did. -/
  | dispatched
  | timeoutHook (rest : List Interceptor)
  | errorHook (e : Payload) (rest : List Interceptor)
  | completionHook (rest : List Interceptor)
  /-- The cell was resolved because nobody else did; the request completes if that did not. -/
  | settled
  /-- The listener was told. -/
  | told

/-- The rest of a caller. -/
inductive Frame where
  | cell (c : CellId) (f : CellFrame)
  | request (q : RequestId) (f : RequestFrame)
  /-- A coordinator that abandons one request after the other. -/
  | abandoning (k : CoordinatorId) (total : Nat) (rest : List RequestId)
  /-- Returns the given answer in place of the one that arrives. -/
  | answer (a : Answer)
  /-- Ends with the given outcome unless a failure arrives. -/
  | outcome (o : Outcome)

/-! ### Locks -/

/-- The locks: every object has one. -/
inductive Lock where
  | cell (c : CellId)
  | request (q : RequestId)
  | coordinator (k : CoordinatorId)
  deriving DecidableEq, Repr

/-- Whether a point takes its step under the lock of its cell. -/
def CellPoint.isLocked : CellPoint → Bool
  | .register _ | .assign _ | .expire => true
  | _ => false

/-- Whether a point takes its step under the lock of its request. -/
def RequestPoint.isLocked : RequestPoint → Bool
  | .record _ | .complete => true
  | _ => false

/-- Whether a point takes its step under the lock of its coordinator. -/
def CoordinatorPoint.isLocked : CoordinatorPoint → Bool
  | .activate _ | .abandonAll | .retire _ | .countActive => true
  | _ => false

/-- The lock under which a point takes its step. -/
def Point.lock? : Point → Option Lock
  | .cell c p => if p.isLocked then some (.cell c) else none
  | .request q p => if p.isLocked then some (.request q) else none
  | .coordinator k p => if p.isLocked then some (.coordinator k) else none

end Rendezvous
