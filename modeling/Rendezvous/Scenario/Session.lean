import Rendezvous.Scenario.Script
import Rendezvous.Settings.Schema

/-!
# Sessions

A session is the state in which a script runs: the world, the names that the script gave to its
objects, the callbacks it mentioned, the races that are set, and what has happened so far.

## Main definitions

* `Scenario.Reply` and `Scenario.Report`: what a step ended with.
* `Scenario.Entry`: something that happened.
* `Scenario.Session`, and `Scenario.Run`: computations in a session that may stop.
* `Scenario.Snapshot` and `Session.snapshot`: what can be seen after a step.
-/

namespace Rendezvous.Scenario

open Script

/-- What a step returns. -/
inductive Reply where
  | answer (a : Answer)
  /-- The names of the cell that hooks belong to. -/
  | hooks (names : List String)
  | settings (s : CoordinatorSettings)
  /-- Whether the lock of a race was reached, and what its main step returned. -/
  | race (reached : Bool) (main : Reply)

/-- Why a step did not return. -/
inductive Stop where
  | raised (f : Failure)
  /-- The step names something that was never made. -/
  | missing (name : String)

/-- How a step ended. -/
abbrev Report := Except Stop Reply

/-- Something that happened. -/
inductive Entry where
  /-- User code was called on a thread. -/
  | call (role : Role) (id : CallbackId) (thread : String) (argument : Option Argument)
  | notice (n : Notice)
  /-- A callback or a thread took a step. -/
  | step (operation : String) (report : Report)
  /-- A failure ended a thread. -/
  | threadDied (thread : String) (f : Failure)

/-- A race that waits for a lock to be reached. -/
structure Race where
  steps : List Step
  reached : Bool := false

/-- The state in which a script runs. -/
structure Session where
  world : World := {}
  cells : Directory String CellId := {}
  requests : Directory String RequestId := {}
  coordinators : Directory String CoordinatorId := {}
  /-- The callbacks that were mentioned, each with the role of its first mention. -/
  callbacks : Directory CallbackId (Role × Behaviour) := {}
  /-- How often each callback was called. -/
  calls : Directory CallbackId Nat := {}
  races : Directory Lock Race := {}
  /-- What has happened, latest first. -/
  history : List Entry := []
  deriving Inhabited

/-- A computation in a session that may stop. -/
abbrev Run := ExceptT Stop (StateM Session)

namespace Session

/-- Adds to what has happened. -/
def record (s : Session) (e : Entry) : Session :=
  { s with history := e :: s.history }

/-- Adds notices to what has happened. -/
def recordNotices (s : Session) (ns : List Notice) : Session :=
  { s with history := (ns.map Entry.notice).reverse ++ s.history }

/-- Enters a callback, unless its name is known. -/
def enroll (s : Session) (role : Role) (b : Behaviour) : Session :=
  if s.callbacks.contains b.id then s
  else { s with callbacks := s.callbacks.put b.id (role, b) }

end Session

/-- The entry of a name, which must be there. -/
def lookUp (d : Directory String Nat) (name : String) : Run Nat :=
  match d.find? name with
  | some n => pure n
  | none => throw (.missing name)

/-- The cell of a name. -/
def cellNamed (name : String) : Run CellId := do lookUp (← get).cells name

/-- The request of a name. -/
def requestNamed (name : String) : Run RequestId := do lookUp (← get).requests name

/-- The coordinator of a name. -/
def coordinatorNamed (name : String) : Run CoordinatorId := do lookUp (← get).coordinators name

/-- The lock of a target. -/
def lockOf : Target → Run Lock
  | .cell name => .cell <$> cellNamed name
  | .request name => .request <$> requestNamed name
  | .coordinator name => .coordinator <$> coordinatorNamed name

/-- Enters a callback and gives its name. -/
def enroll (role : Role) (b : Behaviour) : Run CallbackId := do
  modify (·.enroll role b)
  return b.id

/-- Enters a callback that may be absent. -/
def enroll? (role : Role) : Option Behaviour → Run (Option CallbackId)
  | some b => some <$> enroll role b
  | none => pure none

/-- The interceptors that a script describes. -/
def engage : List Companion → Run (List Interceptor)
  | [] => pure []
  | .hooks cell :: rest => do
    let c ← cellNamed cell
    return .hooks c :: (← engage rest)
  | .custom onTimeout onError onCompletion :: rest => do
    let t ← enroll .timeout onTimeout
    let e ← enroll .error onError
    let c ← enroll .completion onCompletion
    return .custom t e c :: (← engage rest)

/-! ### What can be seen -/

/-- What can be seen of a request. -/
structure RequestView where
  /-- The first name of its cell, unless the cell lost its name. -/
  cell : Option String
  request : Request

/-- What can be seen of requests, coordinators and time. -/
structure Traffic where
  coordinators : List (String × Nat)
  requests : List (String × RequestView)
  now : Nat
  /-- The armed timers, first to fire first. -/
  timers : List Timer

/-- What can be seen between two steps. -/
structure Snapshot where
  cells : List (String × Cell)
  /-- Present once there is a coordinator or a request. -/
  traffic : Option Traffic

/-- Puts a timer in front of the first one that is due later. -/
def insertByDue (t : Timer) : List Timer → List Timer
  | [] => [t]
  | u :: rest => if t.due < u.due then t :: u :: rest else u :: insertByDue t rest

/-- The timers in the order in which they fire. -/
def byDue (ts : List Timer) : List Timer :=
  ts.foldl (fun sorted t => insertByDue t sorted) []

/-- What can be seen of a session. -/
def Session.snapshot (s : Session) : Snapshot where
  cells := s.cells.entries.map fun (name, c) => (name, s.world.cell c)
  traffic :=
    if s.coordinators.entries.isEmpty && s.requests.entries.isEmpty then none
    else some {
      coordinators := s.coordinators.entries.map fun (name, k) =>
        (name, (s.world.coordinator k).active.size)
      requests := s.requests.entries.map fun (name, q) =>
        let x := s.world.request q
        (name, ⟨s.cells.keyWhere? (· == x.cell), x⟩)
      now := s.world.now
      timers := byDue s.world.timers }

end Rendezvous.Scenario
