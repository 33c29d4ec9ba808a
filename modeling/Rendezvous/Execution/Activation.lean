import Rendezvous.Execution.Step

/-!
# Activations

An activation is one call of an operation in progress: where it stands and the frames that wait
for outcomes, innermost first. It moves step by step until it reaches user code, a wait that is
held up, or its end. In user code it rests until the user returns or raises; what the user does
meanwhile are activations of their own.

## Main definitions

* `Control` and `Activation`, with `Activation.step?` and `Activation.conclude`.
* `Call`: the operations that user code can call, and `Call.activation`.
* `Activation.settle`: runs an activation until it rests.
-/

namespace Rendezvous

/-- Where an activation stands. -/
inductive Control where
  /-- At a point whose step comes next. -/
  | ready (p : Point)
  /-- In user code. -/
  | inside (i : Invocation)
  /-- With an outcome for the innermost frame. -/
  | ended (o : Outcome)

/-- One call of an operation in progress. -/
structure Activation where
  control : Control
  /-- The frames that wait for outcomes, innermost first. -/
  frames : List Frame := []

namespace Activation

/-- An activation goes on as a step says. -/
def follow (frames : List Frame) : Next → Activation
  | .goto p => ⟨.ready p, frames⟩
  | .call f p => ⟨.ready p, f :: frames⟩
  | .invoke f i => ⟨.inside i, f :: frames⟩
  | .finish o => ⟨.ended o, frames⟩

/-- The next step of an activation, unless it rests. -/
def step? (w : World) (a : Activation) : Option (World × Activation × List Notice) :=
  match a.control with
  | .ready p =>
    if p.isEnabled w then
      let e := p.step w
      some (e.world, follow a.frames e.next, e.notices)
    else none
  | .inside _ => none
  | .ended o =>
    match a.frames with
    | [] => none
    | f :: rest =>
      let e := f.resume w o
      some (e.world, follow rest e.next, e.notices)

/-- The user code in which an activation rests ends with an outcome. -/
def conclude (a : Activation) (o : Outcome) : Activation :=
  ⟨.ended o, a.frames⟩

/-- The lock under which the next step of an activation is taken. -/
def lock? (a : Activation) : Option Lock :=
  match a.control with
  | .ready p => p.lock?
  | _ => none

/-- The outcome of an activation that is over. -/
def outcome? (a : Activation) : Option Outcome :=
  match a.control, a.frames with
  | .ended o, [] => some o
  | _, _ => none

/-- Runs an activation until it rests, collecting what it notes. -/
def settle : (fuel : Nat) → World → Activation → World × Activation × List Notice
  | 0, w, a => (w, a, [])
  | fuel + 1, w, a =>
    match a.step? w with
    | none => (w, a, [])
    | some (w, a, notices) =>
      let (w, a, more) := settle fuel w a
      (w, a, notices ++ more)

end Activation

/-- The operations that user code can call. -/
inductive Call where
  | setResult (c : CellId) (value : Payload)
  | setError (c : CellId) (error : Payload)
  | setHandler (c : CellId) (handler : Option CallbackId)
  | setCallback (c : CellId) (slot : CallbackSlot) (id : Option CallbackId)
  | ask (c : CellId) (q : Query)
  /-- The three hooks of a cell. -/
  | handleTimeout (c : CellId)
  | handleError (c : CellId) (error : Payload)
  | afterCompletion (c : CellId)
  | start (k : CoordinatorId) (c : CellId) (dispatch : Option CallbackId)
    (extra : List Interceptor)
  | abandonAll (k : CoordinatorId)
  | countActive (k : CoordinatorId)
  | begin (q : RequestId)
  /-- The timer of the request has fired. -/
  | timeOut (q : RequestId)
  | fail (q : RequestId) (error : Payload)
  | abandon (q : RequestId)
  | wait (q : RequestId)

/-- Where a call starts. -/
def Call.control : Call → Control
  | .setResult c v => .ready (.cell c (.checkResult (.value v)))
  | .setError c e => .ready (.cell c (.checkResult (.error e)))
  | .setHandler c (some id) => .ready (.cell c (.checkRegister (.callback id)))
  | .setHandler _ none => .ended (.raised .handlerRequired)
  | .setCallback c slot id => .ready (.cell c (.setCallback slot id))
  | .ask c q => .ready (.cell c (.ask q))
  | .handleTimeout c => .ready (.cell c .timeoutCallback)
  | .handleError c e => .ready (.cell c (.errorCallback e))
  | .afterCompletion c => .ready (.cell c .expire)
  | .start k c dispatch extra => .ready (.coordinator k (.checkStart c dispatch extra))
  | .abandonAll k => .ready (.coordinator k .abandonAll)
  | .countActive k => .ready (.coordinator k .countActive)
  | .begin q => .ready (.request q .arm)
  | .timeOut q => .ready (.request q .checkTimeout)
  | .fail q e => .ready (.request q (.checkFail e))
  | .abandon q => .ready (.request q .checkAbandon)
  | .wait q => .ready (.request q .await)

/-- The activation of a call. -/
def Call.activation (c : Call) : Activation := ⟨c.control, []⟩

end Rendezvous
