import Rendezvous.Execution.Activation

/-!
# Threads

A system is a world in which threads have calls in progress. A thread may begin a call when it has
none, or when its innermost call rests in user code: user code is whatever calls a thread begins
before it answers. Any thread may move next, and a move is one step of the library, the beginning
or the end of a call, or the answer of user code. A thread that a call blocks has no move.

User code knows a request once a start returned it or once it was made without a coordinator, and
may fail, abandon or time out only the requests it knows. A timer knows its own request.

Cells and coordinators need not be made: one that nobody has used is as good as one that is not
there yet. Requests are made by moves.

## Main definitions

* `Ongoing`: a call in progress. `Deed` and `Event`: what has happened, and `Event.ofStep`: a view
  of it.
* `System`, with `System.IsIdle` and `System.IsReleased`.
* `Move`, `System.take?` and `System.run`: the moves, and what they lead to.
* `System.Leads`: a system that moves lead to. `System.Reachable`: one that is reached from a new
  world.
-/

namespace Rendezvous

/-- The number of a thread. -/
abbrev ThreadId := Nat

/-- The number of a call. -/
abbrev CallNumber := Nat

/-- The requests that a call names. -/
def Call.requests : Call → List RequestId
  | .begin q | .timeOut q | .fail q _ | .abandon q | .wait q => [q]
  | _ => []

/-- A call in progress. -/
structure Ongoing where
  thread : ThreadId
  number : CallNumber
  activation : Activation

/-- What a call does in a move. -/
inductive Deed where
  | begin (c : Call)
  /-- The step at a point, and the way on from there. -/
  | step (p : Point) (n : Next)
  /-- A frame goes on with the outcome it waited for. -/
  | resume (f : Frame) (o : Outcome) (n : Next)
  /-- The user code in which the call rested has ended. -/
  | answer (i : Invocation) (o : Outcome)
  /-- The call is over. -/
  | finish (o : Outcome)

/-- What a call of a thread did. -/
structure Event where
  thread : ThreadId
  number : CallNumber
  deed : Deed

/-- A view of what happens that shows the steps of calls only. -/
def Event.ofStep {β : Type} (f : Event → Point → Next → Option β) (e : Event) : Option β :=
  match e.deed with
  | .step p n => f e p n
  | _ => none

/-- A world with calls in progress. -/
structure System where
  world : World
  /-- The calls in progress, the latest first. -/
  ongoing : List Ongoing := []
  /-- How many calls have begun. -/
  begun : Nat := 0
  /-- The requests that user code knows. -/
  known : List RequestId := []
  /-- What has happened, in order. -/
  history : List Event := []

/-- One move of a thread, a timer or a maker of requests. -/
inductive Move where
  /-- A thread begins a call. -/
  | begin (t : ThreadId) (c : Call)
  /-- An armed timer fires on a thread of its own. -/
  | fire (t : ThreadId) (x : Timer)
  /-- A request is made without a coordinator. -/
  | make (cell : CellId) (dispatch : Option CallbackId) (interceptors : List Interceptor)
    (timeoutMs : Int) (timerName : String) (listener : Listener)
  /-- The innermost call of a thread takes a step. -/
  | advance (t : ThreadId)
  /-- The user code in which the innermost call of a thread rests returns or raises. -/
  | answer (t : ThreadId) (a : Except Failure Payload)
  /-- The innermost call of a thread is over. -/
  | finish (t : ThreadId)

/-- The outcome of user code. -/
def Outcome.ofUser : Except Failure Payload → Outcome
  | .ok p => .returned (.payload p)
  | .error f => .raised f

/-- The request that an outcome brings. -/
def Outcome.request? : Outcome → Option RequestId
  | .returned (.request q) => some q
  | _ => none

namespace Activation

/-- Whether an activation rests in user code. -/
def isInside (a : Activation) : Bool :=
  match a.control with
  | .inside _ => true
  | _ => false

/-- What an activation does in its next step. -/
def deed? (w : World) (a : Activation) : Option Deed :=
  match a.control, a.frames with
  | .ready p, _ => some (.step p (p.step w).next)
  | .ended o, f :: _ => some (.resume f o (f.resume w o).next)
  | _, _ => none

end Activation

/-- The innermost call of a thread, between the calls that began after it and before it. -/
def innermost? (t : ThreadId) : List Ongoing → Option (List Ongoing × Ongoing × List Ongoing)
  | [] => none
  | x :: rest =>
    if x.thread = t then some ([], x, rest)
    else (innermost? t rest).map fun (newer, y, older) => (x :: newer, y, older)

namespace System

/-- Whether a thread may begin a call. -/
def isFree (s : System) (t : ThreadId) : Bool :=
  match innermost? t s.ongoing with
  | none => true
  | some (_, x, _) => x.activation.isInside

/-- A call begins. -/
def enter (s : System) (t : ThreadId) (c : Call) (w : World) : System :=
  { s with
    world := w
    ongoing := ⟨t, s.begun, c.activation⟩ :: s.ongoing
    begun := s.begun + 1
    history := s.history ++ [⟨t, s.begun, .begin c⟩] }

/-- A call goes on, with the calls that began after it and before it as they are. -/
def proceed (s : System) (newer : List Ongoing) (x : Ongoing) (older : List Ongoing) (w : World)
    (a : Activation) (d : Deed) : System :=
  { s with
    world := w
    ongoing := newer ++ { x with activation := a } :: older
    history := s.history ++ [⟨x.thread, x.number, d⟩] }

/-- A call ends. -/
def leave (s : System) (newer : List Ongoing) (x : Ongoing) (older : List Ongoing)
    (o : Outcome) : System :=
  { s with
    ongoing := newer ++ older
    known := s.known ++ o.request?.toList
    history := s.history ++ [⟨x.thread, x.number, .finish o⟩] }

/-- A request comes into being without a coordinator. -/
def addRequest (s : System) (x : Request) : System :=
  { s with world := (s.world.addRequest x).1, known := s.known ++ [s.world.requestCount] }

/-- What a move leads to, unless it cannot be made. -/
def take? (s : System) : Move → Option System
  | .begin t c =>
    if s.isFree t ∧ ∀ q ∈ c.requests, q ∈ s.known then some (s.enter t c s.world) else none
  | .fire t x =>
    if (innermost? t s.ongoing).isNone ∧ x ∈ s.world.timers then
      some (s.enter t (.timeOut x.request) (s.world.fire x))
    else none
  | .make cell dispatch interceptors timeoutMs timerName listener =>
    some (s.addRequest { cell, dispatch, interceptors, timeoutMs, timerName, listener })
  | .advance t => do
    let (newer, x, older) ← innermost? t s.ongoing
    let (w, a, _) ← x.activation.step? s.world
    let d ← x.activation.deed? s.world
    return s.proceed newer x older w a d
  | .answer t a => do
    let (newer, x, older) ← innermost? t s.ongoing
    match x.activation.control with
    | .inside i =>
      let o := Outcome.ofUser a
      return s.proceed newer x older s.world (x.activation.conclude o) (.answer i o)
    | _ => none
  | .finish t => do
    let (newer, x, older) ← innermost? t s.ongoing
    let o ← x.activation.outcome?
    return s.leave newer x older o

/-- What a sequence of moves leads to. -/
def run (s : System) : List Move → Option System
  | [] => some s
  | m :: ms => (s.take? m).bind fun s => s.run ms

/-- Whether no call is in progress, but for waits. -/
def IsIdle (s : System) : Prop :=
  ∀ x ∈ s.ongoing, ∃ q, x.activation = (Call.wait q).activation

/-- Whether those who wait for a request may go on. -/
def IsReleased (s : System) (q : RequestId) : Prop :=
  (s.world.request q).released = true

/-- A system that a sequence of allowed moves leads to. -/
inductive Leads (allowed : Move → Prop) (s : System) : System → Prop
  | refl : Leads allowed s s
  | move {s' s'' : System} (m : Move) (h : Leads allowed s s') (hm : allowed m)
      (ht : s'.take? m = some s'') : Leads allowed s s''

end System

/-- A cell that nobody has used. -/
structure Cell.IsNew (c : Cell) : Prop where
  result : c.result = none
  expired : c.expired = false
  handler : c.handler = none

/-- A world without requests and timers in which nobody has used a cell or a coordinator. Their
callbacks, timeouts and settings are arbitrary. -/
structure World.IsNew (w : World) : Prop where
  cell (c : CellId) : (w.cell c).IsNew
  active (k : CoordinatorId) : (w.coordinator k).active.entries = []
  requestCount : w.requestCount = 0
  requests : w.requests.written.entries = []
  timers : w.timers = []

theorem World.isNew_default : (default : World).IsNew where
  cell _ := ⟨rfl, rfl, rfl⟩
  active _ := rfl
  requestCount := rfl
  requests := rfl
  timers := rfl

/-- A system that allowed moves lead to from a new world. -/
def System.Reachable (allowed : Move → Prop) (s : System) : Prop :=
  ∃ w : World, w.IsNew ∧ System.Leads allowed { world := w } s

/-- Every move is allowed. -/
def Move.any (_ : Move) : Prop := True

end Rendezvous
