import Rendezvous.Execution.Solo
import Rendezvous.Summary

/-!
# Simulations

A simulation runs one request through a coordinator. A producer that waits for a delay and then
answers competes with the timeout of the request; the clock moves only from one event to the next.
The timer is armed before the producer begins to wait, so the timeout comes first if both are due
together.

## Main definitions

* `Simulation`, with `Simulation.effectiveTimeoutMs` and `Simulation.isIdle`.
* `Simulation.Summary` and `Simulation.Trace`: how a simulation ends, and what was noted meanwhile.
* `Simulation.run`.
-/

namespace Rendezvous

/-- One request, its timeout and its producer. -/
structure Simulation where
  settings : CoordinatorSettings := {}
  /-- The timeout of the cell, if it has one of its own. -/
  timeoutMs : Option Nat := none
  /-- How long the producer waits; without a delay there is no producer. -/
  delayMs : Option Nat := none
  /-- What the producer answers. -/
  value : String := "done"
  /-- What settles the request if the timeout comes first. -/
  fallback : Option String := none
  /-- Whether the producer answers with an error. -/
  fails : Bool := false
  /-- What the delay and the interval of the timer are counted by. -/
  clock : Clock := .binary64
  deriving DecidableEq, Repr

namespace Simulation

/-- The timeout that counts; zero means that there is none. -/
def effectiveTimeoutMs (s : Simulation) : Nat :=
  s.timeoutMs.getD s.settings.defaultTimeoutMs

/-- Whether neither a timeout nor a producer would ever end the request. -/
def isIdle (s : Simulation) : Bool :=
  s.effectiveTimeoutMs == 0 && s.delayMs.isNone

/-- The cell of the request. -/
def cell (s : Simulation) : Cell :=
  { timeoutMs := s.timeoutMs
    fallback := .fixed (match s.fallback with
      | some text => .text text
      | none => Payload.pending) }

/-- What the producer does with a cell. -/
def answer (s : Simulation) (c : CellId) : Call :=
  if s.fails then .setError c (Payload.ofFailure (.ordinary "RuntimeError" s.value))
  else .setResult c (.text s.value)

/-- The thread of the producer. -/
def producerThread : String := "simulated-producer"

/-- How a simulation ended. -/
structure Summary where
  outcome : OutcomeKind
  payload : Option String
  /-- Whether the cell took the answer of the producer, if there is a producer. -/
  producerAccepted : Option Bool
  timedOut : Bool
  timeoutMs : Int
  /-- The time from the start to the event that completed the request. -/
  elapsedMs : Nat
  deriving DecidableEq, Repr

/-- What was noted on which thread, and the end. -/
structure Trace where
  notices : List (String × Notice) := []
  ending : Except Failure Summary

/-- A simulation in progress. -/
structure Stage where
  world : World := {}
  notices : List (String × Notice) := []
  /-- The time of the event that completed the request. -/
  completedAt : Option Nat := none
  producerAccepted : Option Bool := none

/-- More steps than any single call of a simulation takes. -/
def stepLimit : Nat := 64

namespace Stage

/-- Runs a call on a thread. -/
def call (s : Stage) (thread : String) (c : Call) : Stage × Option Outcome :=
  let run := c.activation.runAlone (fun _ => .returned .unit) stepLimit s.world
  ({ s with world := run.world, notices := s.notices ++ run.notices.map (thread, ·) }, run.outcome?)

/-- Remembers the time at which a request was completed. -/
def observe (q : RequestId) (s : Stage) : Stage :=
  if s.completedAt.isNone && (s.world.request q).released then
    { s with completedAt := some s.world.now }
  else s

/-- Fires the timer if it is due by a time. There is no more than one. -/
def fireTimer (q : RequestId) (limit : Option Nat) (s : Stage) : Stage :=
  match s.world.nextTimer? limit with
  | none => s
  | some t => (({ s with world := s.world.fire t }).call t.name (.timeOut t.request)).1.observe q

/-- The producer answers at a time. -/
def produce (q : RequestId) (time : Nat) (answer : Call) (s : Stage) : Stage :=
  let (s, outcome) := ({ s with world := s.world.moveTo time }).call producerThread answer
  { s.observe q with producerAccepted := match outcome with
      | some (.returned (.flag b)) => some b
      | _ => none }

/-- The summary of a request that was completed. -/
def summarize (q : RequestId) (s : Stage) : Except Failure Summary :=
  match s.completedAt with
  | none => .error .wouldBlock
  | some elapsedMs =>
    let x := s.world.request q
    let (outcome, payload) := Resolution.summarize x.resolution
    .ok { outcome, elapsedMs, timedOut := x.timedOut, timeoutMs := x.timeoutMs
          payload := match payload with
            | .text t => some t
            | _ => none
          producerAccepted := s.producerAccepted }

end Stage

/-- What happens after the start of a request. -/
def proceed (s : Simulation) (q : RequestId) (c : CellId) (stage : Stage) : Stage :=
  match s.delayMs with
  | none => stage.fireTimer q none
  | some d => (stage.fireTimer q (some d)).produce q d (s.answer c)

/-- Runs a simulation. A delay that the clock cannot count is refused before the start. -/
def run (s : Simulation) : Trace :=
  if s.clock.Overflows (s.delayMs.getD 0) then { ending := .error .timeoutOverflow }
  else
    let (world, c) := World.addCell { clock := s.clock } s.cell
    let (world, k) := world.addCoordinator { settings := s.settings }
    let (stage, outcome) := ({ world } : Stage).call "MainThread" (.start k c (some "dispatch") [])
    match outcome with
    | some (.returned (.request q)) =>
      let stage := s.proceed q c stage
      { notices := stage.notices, ending := stage.summarize q }
    | some (.raised f) => { notices := stage.notices, ending := .error f }
    | _ => { notices := stage.notices, ending := .error .wouldBlock }

/-- The answer of the producer comes before the timeout. -/
example : (run { timeoutMs := some 100, delayMs := some 99 }).ending.toOption =
    some ⟨.value, some "done", some true, false, 100, 99⟩ := by decide +kernel

/-- The timeout comes first if both are due together. -/
example :
    (run { timeoutMs := some 100, delayMs := some 100, fallback := some "" }).ending.toOption =
      some ⟨.value, some "", some false, true, 100, 100⟩ := by decide +kernel

end Simulation

end Rendezvous
