import Rendezvous.Cell
import Rendezvous.Directory
import Rendezvous.Settings.Basic

/-!
# Requests, coordinators and the world they share

A request joins a cell to the function that dispatches its resolution, to the interceptors that
accompany its life, and to a timer. A coordinator starts requests and keeps those in flight by
their cells. The world holds all of them together with the armed timers and the time, which is
counted in milliseconds and moves only when it is told to. What clock counts the intervals of the
timers is left open: one that divides them as floating-point numbers fails at intervals that are too
long, an exact one counts them all.

## Main definitions

* `Request`, `Coordinator`, `Timer` and `World`.
* `Clock` and `Clock.Overflows`: the intervals that a clock cannot count.
* `World.addCell`, `World.addRequest`, `World.addCoordinator`: new objects.
* `World.arm`, `World.cancel`, `World.nextTimer?`, `World.fire`: the timers.
-/

namespace Rendezvous

/-- The number of a timer. -/
abbrev TimerId := Nat

/-- A companion of a request, told about its timeout, its failure and its completion. -/
inductive Interceptor where
  /-- The hooks of a cell. -/
  | hooks (cell : CellId)
  /-- Three callbacks of the user. -/
  | custom (onTimeout onError onCompletion : CallbackId)
  deriving DecidableEq, Repr

/-- Who is told that a request is over. -/
inductive Listener where
  | coordinator (id : CoordinatorId)
  /-- A record under this name is all that happens. -/
  | announcement (name : String)
  deriving DecidableEq, Repr

/-- A request on a cell. -/
structure Request where
  cell : CellId
  /-- The function that receives the resolution. -/
  dispatch : Option CallbackId := none
  interceptors : List Interceptor := []
  /-- The effective timeout; there is no timer unless it is positive. -/
  timeoutMs : Int := 0
  timerName : String := ""
  listener : Listener := .announcement ""
  completed : Bool := false
  timedOut : Bool := false
  /-- What was handed to dispatch. -/
  resolution : Option Resolution := none
  /-- Whether those who wait for the request may go on. -/
  released : Bool := false
  timer : Option TimerId := none

instance : Inhabited Request := ⟨{ cell := 0 }⟩

/-- A starter of requests. -/
structure Coordinator where
  settings : CoordinatorSettings := {}
  /-- The requests in flight by their cells, oldest first. -/
  active : Directory CellId RequestId := {}
  /-- How many request numbers were drawn. -/
  drawn : Nat := 0
  deriving Inhabited

/-- An armed timer. -/
structure Timer where
  id : TimerId
  name : String
  /-- The time at which it fires. -/
  due : Nat
  request : RequestId
  deriving DecidableEq, Repr

/-- How a clock counts the milliseconds of an interval. -/
inductive Clock where
  /-- As a floating-point number, of which there is none from a bound on. -/
  | binary64
  /-- Exactly, however long the interval is. -/
  | exact
  deriving DecidableEq, Repr, Inhabited

/-- Whether an interval is too long for a clock. -/
def Clock.Overflows : Clock → Nat → Prop
  | .binary64, ms => Binary64.overflowBound ≤ ms
  | .exact, _ => False

instance (κ : Clock) (ms : Nat) : Decidable (κ.Overflows ms) :=
  match κ with
  | .binary64 => inferInstanceAs (Decidable (_ ≤ _))
  | .exact => inferInstanceAs (Decidable False)

@[simp] theorem Clock.not_overflows_zero (κ : Clock) : ¬κ.Overflows 0 := by
  cases κ <;> decide +kernel

/-- All objects, the armed timers and the clock. -/
structure World where
  cells : Table Cell := {}
  requests : Table Request := {}
  coordinators : Table Coordinator := {}
  cellCount : Nat := 0
  requestCount : Nat := 0
  coordinatorCount : Nat := 0
  timerCount : Nat := 0
  /-- The armed timers in the order in which they were armed. -/
  timers : List Timer := []
  /-- The time in milliseconds. -/
  now : Nat := 0
  /-- What the intervals of timers are counted by. -/
  clock : Clock := .binary64
  deriving Inhabited

namespace World

/-- A cell by its number. -/
def cell (w : World) (c : CellId) : Cell := w.cells.get c

/-- A request by its number. -/
def request (w : World) (q : RequestId) : Request := w.requests.get q

/-- A coordinator by its number. -/
def coordinator (w : World) (k : CoordinatorId) : Coordinator := w.coordinators.get k

/-- Replaces a cell. -/
def setCell (w : World) (c : CellId) (x : Cell) : World := { w with cells := w.cells.set c x }

/-- Replaces a request. -/
def setRequest (w : World) (q : RequestId) (x : Request) : World :=
  { w with requests := w.requests.set q x }

/-- Replaces a coordinator. -/
def setCoordinator (w : World) (k : CoordinatorId) (x : Coordinator) : World :=
  { w with coordinators := w.coordinators.set k x }

/-- Changes a cell. -/
def modifyCell (w : World) (c : CellId) (f : Cell → Cell) : World := w.setCell c (f (w.cell c))

/-- Changes a request. -/
def modifyRequest (w : World) (q : RequestId) (f : Request → Request) : World :=
  w.setRequest q (f (w.request q))

/-- A new cell and its number. -/
def addCell (w : World) (x : Cell) : World × CellId :=
  ({ w.setCell w.cellCount x with cellCount := w.cellCount + 1 }, w.cellCount)

/-- A new request and its number. -/
def addRequest (w : World) (x : Request) : World × RequestId :=
  ({ w.setRequest w.requestCount x with requestCount := w.requestCount + 1 }, w.requestCount)

/-- A new coordinator and its number. -/
def addCoordinator (w : World) (x : Coordinator) : World × CoordinatorId :=
  ({ w.setCoordinator w.coordinatorCount x with coordinatorCount := w.coordinatorCount + 1 },
    w.coordinatorCount)

/-! ### Timers -/

/-- Arms the timer of a request. -/
def arm (w : World) (q : RequestId) : World :=
  let x := w.request q
  let t : Timer := ⟨w.timerCount, x.timerName, w.now + x.timeoutMs.toNat, q⟩
  { w.setRequest q { x with timer := some t.id } with
    timers := w.timers ++ [t], timerCount := w.timerCount + 1 }

/-- Cancels the timer of a request, if it has one; a timer that fired is not armed any more. -/
def cancel (w : World) (q : RequestId) : World :=
  match (w.request q).timer with
  | none => w
  | some t => { w with timers := w.timers.filter fun x => x.id ≠ t }

/-- The timer that is due first; of two that are due together, the one armed first. -/
def earliest : List Timer → Option Timer
  | [] => none
  | t :: rest =>
    match earliest rest with
    | none => some t
    | some u => some (if t.due ≤ u.due then t else u)

/-- The next timer to fire up to a time limit. -/
def nextTimer? (w : World) (limit : Option Nat) : Option Timer :=
  (earliest w.timers).filter fun t => match limit with
    | none => true
    | some l => t.due ≤ l

/-- Moves the clock forward to a time. -/
def moveTo (w : World) (time : Nat) : World := { w with now := max w.now time }

/-- Disarms a timer that fires now and moves the clock to its due time. -/
def fire (w : World) (t : Timer) : World :=
  { w.moveTo t.due with timers := w.timers.filter fun x => x.id ≠ t.id }

/-! ### What a change shows -/

@[simp] theorem cell_setCell (w : World) (c d : CellId) (x : Cell) :
    (w.setCell c x).cell d = if d = c then x else w.cell d :=
  w.cells.get_set c d x

@[simp] theorem request_setCell (w : World) (c : CellId) (x : Cell) (q : RequestId) :
    (w.setCell c x).request q = w.request q := rfl

@[simp] theorem coordinator_setCell (w : World) (c : CellId) (x : Cell) (k : CoordinatorId) :
    (w.setCell c x).coordinator k = w.coordinator k := rfl

@[simp] theorem request_setRequest (w : World) (q r : RequestId) (x : Request) :
    (w.setRequest q x).request r = if r = q then x else w.request r :=
  w.requests.get_set q r x

@[simp] theorem cell_setRequest (w : World) (q : RequestId) (x : Request) (c : CellId) :
    (w.setRequest q x).cell c = w.cell c := rfl

@[simp] theorem coordinator_setRequest (w : World) (q : RequestId) (x : Request)
    (k : CoordinatorId) : (w.setRequest q x).coordinator k = w.coordinator k := rfl

@[simp] theorem coordinator_setCoordinator (w : World) (k j : CoordinatorId) (x : Coordinator) :
    (w.setCoordinator k x).coordinator j = if j = k then x else w.coordinator j :=
  w.coordinators.get_set k j x

@[simp] theorem cell_setCoordinator (w : World) (k : CoordinatorId) (x : Coordinator)
    (c : CellId) : (w.setCoordinator k x).cell c = w.cell c := rfl

@[simp] theorem request_setCoordinator (w : World) (k : CoordinatorId) (x : Coordinator)
    (q : RequestId) : (w.setCoordinator k x).request q = w.request q := rfl

end World

end Rendezvous
