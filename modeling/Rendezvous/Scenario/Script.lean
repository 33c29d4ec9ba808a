import Rendezvous.Execution.Activation
import Rendezvous.Value

/-!
# Scripts

A script drives cells, requests and coordinators by name. Its steps are the operations of the
library, and a few that arrange what happens around them: threads, time, and races. A callback in
a script is a behaviour: the steps it takes, the value it returns, and how often it takes the
steps.

## Main definitions

* `TimeLimit`: a limit as it was written and in milliseconds.
* `Script.Step`, `Script.Behaviour` and `Script.Companion`.
* `Script.Step.weight`: a measure of how much a step can cause.
-/

namespace Rendezvous

/-- A limit of a wait. -/
structure TimeLimit where
  /-- The seconds as they were written. -/
  written : String
  ms : Nat

namespace TimeLimit

/-- A limit of whole seconds. -/
def ofInt (seconds : Int) : TimeLimit := ⟨toString seconds, (seconds * 1000).toNat⟩

/-- A limit with a fraction of a second, rounded to milliseconds. -/
def ofBinary64 (seconds : Binary64) : TimeLimit :=
  ⟨seconds.render Binary64.recordLayout, match seconds with
    | .finite false m e => Binary64.scaled (m * 1000) 1 (-e)
    | _ => 0⟩

end TimeLimit

namespace Script

/-- An object whose lock a race is about. -/
inductive Target where
  | cell (name : String)
  | request (name : String)
  | coordinator (name : String)

/-- The arguments of a new cell. -/
structure CellArguments where
  className : String
  timeoutMs : Option Int
  fixed : Payload

mutual

/-- A step of a script. -/
inductive Step where
  | newCell (name : String) (args : CellArguments) (computed : Option Behaviour)
  | setResult (cell : String) (value : Payload)
  | setError (cell : String) (error : Payload)
  | setHandler (cell : String) (handler : Option Behaviour)
  | setCallback (cell : String) (slot : CallbackSlot) (callback : Option Behaviour)
  /-- The hooks of a cell, told about the cell of the second name. -/
  | handleTimeout (cell about : String)
  | handleError (cell about : String) (error : Payload)
  | afterCompletion (cell about : String)
  | describeHooks (cell about : String)
  | fail (failure : Failure)
  | newCoordinator (name : String) (settings : Option (List (String × Document)))
  | showSettings (coordinator : String)
  | start (coordinator cell name : String) (dispatch : Option Behaviour) (extra : List Companion)
  | newRequest (name cell : String) (dispatch : Option Behaviour) (companions : List Companion)
    (timeoutMs : Int) (timerName : String) (coordinator : Option String)
  | begin (request : String)
  | reportFailure (request : String) (error : Payload)
  | abandon (request : String)
  | wait (request : String) (limit : Option TimeLimit)
  /-- The timer of a request fires although it may have been cancelled. -/
  | lateTimeout (request : String)
  | abandonAll (coordinator : String)
  | advance (ms : Nat)
  | thread (name : String) (steps : List Step)
  /-- While the last step runs, another thread takes the first steps at the moment when the lock
  of the target is about to be taken. -/
  | race (target : Target) (steps : List Step) (main : Step)

/-- What a callback does: it takes its steps in the first `limit` calls, and returns a value. -/
inductive Behaviour where
  | mk (id : CallbackId) (steps : List Step) (returns : Payload) (limit : Nat)

/-- An interceptor of a script. -/
inductive Companion where
  | hooks (cell : String)
  | custom (onTimeout onError onCompletion : Behaviour)

end

instance : Inhabited Step := ⟨.advance 0⟩

instance : Inhabited Behaviour := ⟨.mk "" [] .null 0⟩

instance : Inhabited Companion := ⟨.hooks ""⟩

namespace Behaviour

/-- The name of a callback. -/
def id : Behaviour → CallbackId
  | .mk id _ _ _ => id

/-- The steps of a callback. -/
def steps : Behaviour → List Step
  | .mk _ steps _ _ => steps

/-- What a callback returns. -/
def returns : Behaviour → Payload
  | .mk _ _ returns _ => returns

/-- The number of calls in which a callback takes its steps. -/
def limit : Behaviour → Nat
  | .mk _ _ _ limit => limit

end Behaviour

/-- The name under which a step is reported. -/
def Step.operation : Step → String
  | .newCell .. => "new_cell"
  | .setResult .. => "set_result"
  | .setError .. => "set_error"
  | .setHandler .. => "set_handler"
  | .setCallback _ .timeout _ => "on_timeout"
  | .setCallback _ .error _ => "on_error"
  | .setCallback _ .completion _ => "on_completion"
  | .handleTimeout .. => "hook_timeout"
  | .handleError .. => "hook_error"
  | .afterCompletion .. => "hook_completion"
  | .describeHooks .. => "hooks_cell"
  | .fail .. => "raise"
  | .newCoordinator .. => "new_coord"
  | .showSettings .. => "coord_settings"
  | .start .. => "start"
  | .newRequest .. => "request"
  | .begin .. => "begin"
  | .reportFailure .. => "fail"
  | .abandon .. => "abandon"
  | .wait .. => "wait"
  | .lateTimeout .. => "late_timeout"
  | .abandonAll .. => "abandon_all"
  | .advance .. => "advance"
  | .thread .. => "thread"
  | .race .. => "race"

mutual

/-- A measure of how much a step can cause: the steps in it and the calls that take them. -/
def Step.weight : Step → Nat
  | .newCell _ _ b => 1 + weightOption b
  | .setHandler _ b => 1 + weightOption b
  | .setCallback _ _ b => 1 + weightOption b
  | .start _ _ _ b cs => 1 + weightOption b + weightCompanions cs
  | .newRequest _ _ b cs _ _ _ => 1 + weightOption b + weightCompanions cs
  | .thread _ steps => 1 + weightSteps steps
  | .race _ steps main => 1 + weightSteps steps + main.weight
  | _ => 1

/-- The weight of a callback that may be absent. -/
def weightOption : Option Behaviour → Nat
  | none => 0
  | some b => b.weight

/-- The weight of steps. -/
def weightSteps : List Step → Nat
  | [] => 0
  | s :: rest => s.weight + weightSteps rest

/-- The weight of a callback. -/
def Behaviour.weight : Behaviour → Nat
  | .mk _ steps _ limit => 1 + (weightSteps steps + 1) * (limit + 1)

/-- The weight of interceptors. -/
def weightCompanions : List Companion → Nat
  | [] => 0
  | c :: rest => c.weight + weightCompanions rest

/-- The weight of an interceptor. -/
def Companion.weight : Companion → Nat
  | .hooks _ => 1
  | .custom t e c => t.weight + e.weight + c.weight

end

end Script

end Rendezvous
