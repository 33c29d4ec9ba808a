import Rendezvous.Scenario.Session

/-!
# Playing a script

A script is played on one thread at a time. Another thread that comes in, by a step of the script,
by a timer, or by a race, runs to its end before the first one goes on. Time passes only where the
script waits or advances the clock, timer by timer.

The functions recurse on a bound that `Scenario.play` computes from the weight of the script, large
enough for everything the script can cause: a callback takes its steps a limited number of times,
so the calls that are open at any moment are limited as well.

## Main definitions

* `Scenario.drive`: runs a call of the library, with the user code it calls.
* `Scenario.perform`: takes one step.
* `Scenario.play`: plays a script and shows every step.
-/

namespace Rendezvous.Scenario

open Script

/-- The report that the bound was reached; it is never seen. -/
def exhausted {α : Type} : Run α :=
  throw (.raised (.ordinary "RuntimeError" "the script does not end"))

/-- Runs a computation on another thread. A failure ends that thread only. -/
def onThread (thread : String) (work : Run Unit) : Run Unit := do
  match ← (ExceptT.lift work.run : Run (Except Stop Unit)) with
  | .error (.raised f) => modify (·.record (.threadDied thread f))
  | _ => pure ()

/-- The race that the next step of an activation sets off, marked as such. -/
def takeRace (a : Activation) : Run (Option (List Step)) := do
  let s ← get
  match a.lock? with
  | none => return none
  | some l => match s.races.find? l with
    | some ⟨steps, false⟩ =>
      set { s with races := s.races.put l ⟨steps, true⟩ }
      return some steps
    | _ => return none

/-- Counts a call of a callback and gives its behaviour and the number of the call. -/
def countCall (thread : String) (i : Invocation) : Run (Behaviour × Nat) := do
  let s ← get
  let (role, b) := (s.callbacks.find? i.callback).getD (i.role, .mk i.callback [] .null 0)
  let n := (s.calls.find? i.callback).getD 0 + 1
  set ({ s with calls := s.calls.put i.callback n }.record
    (.call role i.callback thread i.argument))
  return (b, n)

/-- Takes the next timer that is due within a limit and moves the clock to it. -/
def takeTimer (limit : Option Nat) : Run (Option Timer) := do
  let s ← get
  match s.world.nextTimer? limit with
  | none => return none
  | some t =>
    set { s with world := s.world.fire t }
    return some t

mutual

/-- Runs an activation to its end, with the user code it calls and the races it sets off. -/
def drive : (fuel : Nat) → (thread : String) → Activation → Run Answer
  | 0, _, _ => exhausted
  | fuel + 1, thread, a => do
    if let some steps ← takeRace a then
      onThread "racer" (take fuel "racer" steps)
    let s ← get
    match a.step? s.world with
    | some (w, a, notices) =>
      set ({ s with world := w }.recordNotices notices)
      drive fuel thread a
    | none => match a.control with
      | .inside i =>
        let o ← callBack fuel thread i
        drive fuel thread (a.conclude o)
      | .ended (.returned answer) => return answer
      | .ended (.raised f) => throw (.raised f)
      | .ready _ => throw (.raised .wouldBlock)

/-- Calls a callback. -/
def callBack : (fuel : Nat) → (thread : String) → Invocation → Run Outcome
  | 0, _, _ => exhausted
  | fuel + 1, thread, i => do
    let (b, n) ← countCall thread i
    if n ≤ b.limit then
      match ← (ExceptT.lift (take fuel thread b.steps).run : Run (Except Stop Unit)) with
      | .error (.raised f) => return .raised f
      | _ => return .returned (.payload b.returns)
    else return .returned (.payload b.returns)

/-- Takes the steps of a callback or a thread and records each. A step that names something
missing is passed over; a failure ends the rest. -/
def take : (fuel : Nat) → (thread : String) → List Step → Run Unit
  | 0, _, _ => exhausted
  | _ + 1, _, [] => return ()
  | fuel + 1, thread, step :: rest => do
    let report ← (ExceptT.lift (perform fuel thread step).run : Run Report)
    modify (·.record (.step step.operation report))
    match report with
    | .error (.raised f) => throw (.raised f)
    | _ => take fuel thread rest

/-- Fires the timers that are due within a limit, one by one, until none is left or the test
passes. -/
def fireTimers : (fuel : Nat) → (limit : Option Nat) → (until? : Session → Bool) → Run Unit
  | 0, _, _ => exhausted
  | fuel + 1, limit, until? => do
    if until? (← get) then return ()
    if let some t ← takeTimer limit then
      onThread t.name (discard (drive fuel t.name (Call.timeOut t.request).activation))
      fireTimers fuel limit until?

/-- Waits for a request. -/
def waitFor (fuel : Nat) (thread : String) (q : RequestId) (limit : Option TimeLimit) :
    Run Answer :=
  match fuel with
  | 0 => exhausted
  | fuel + 1 => do
    let released (s : Session) : Bool := (s.world.request q).released
    let now := (← get).world.now
    let last := limit.map fun l => (l, now + l.ms)
    fireTimers fuel (last.map (·.2)) released
    if released (← get) then drive fuel thread (Call.wait q).activation
    else match last with
      | some (l, time) =>
        modify fun s => { s with world := s.world.moveTo time }
        throw (.raised (.waitExpired l.written))
      | none => throw (.raised .wouldBlock)

/-- Takes one step. -/
def perform : (fuel : Nat) → (thread : String) → Step → Run Reply
  | 0, _, _ => exhausted
  | fuel + 1, thread, step => do
    let call (c : Call) : Run Reply := .answer <$> drive fuel thread c.activation
    let done : Reply := .answer .unit
    match step with
    | .newCell name args computed =>
      let computed ← enroll? .factory computed
      match Cell.create args.className args.timeoutMs args.fixed computed with
      | .error f => throw (.raised f)
      | .ok cell =>
        modify fun s =>
          let (w, c) := s.world.addCell cell
          { s with world := w, cells := s.cells.put name c }
        return done
    | .setResult cell v => call (.setResult (← cellNamed cell) v)
    | .setError cell e => call (.setError (← cellNamed cell) e)
    | .setHandler cell h =>
      let c ← cellNamed cell
      call (.setHandler c (← enroll? .handler h))
    | .setCallback cell slot b =>
      let c ← cellNamed cell
      let role : Role := match slot with
        | .timeout => .onTimeout
        | .error => .onError
        | .completion => .onCompletion
      call (.setCallback c slot (← enroll? role b))
    | .handleTimeout cell about =>
      let c ← cellNamed cell
      discard (cellNamed about)
      call (.handleTimeout c)
    | .handleError cell about e =>
      let c ← cellNamed cell
      discard (cellNamed about)
      call (.handleError c e)
    | .afterCompletion cell about =>
      let c ← cellNamed cell
      discard (cellNamed about)
      call (.afterCompletion c)
    | .describeHooks cell about =>
      let c ← cellNamed cell
      discard (cellNamed about)
      return .hooks ((← get).cells.keysWhere (· == c))
    | .fail f => throw (.raised f)
    | .newCoordinator name settings =>
      match CoordinatorSettings.ofFields (settings.getD []) with
      | .error faults => throw (.raised (.invalidSettings faults))
      | .ok settings =>
        modify fun s =>
          let (w, k) := s.world.addCoordinator { settings }
          { s with world := w, coordinators := s.coordinators.put name k }
        return done
    | .showSettings coordinator =>
      let k ← coordinatorNamed coordinator
      return .settings ((← get).world.coordinator k).settings
    | .start coordinator cell name dispatch extra =>
      let k ← coordinatorNamed coordinator
      let extra ← engage extra
      let c ← cellNamed cell
      let dispatch ← enroll? .dispatch dispatch
      let answer ← drive fuel thread (Call.start k c dispatch extra).activation
      if let .request q := answer then
        modify fun s => { s with requests := s.requests.put name q }
      return done
    | .newRequest name cell dispatch companions timeoutMs timerName coordinator =>
      let c ← cellNamed cell
      let interceptors ← engage companions
      let dispatch ← enroll? .dispatch dispatch
      let listener ← match coordinator with
        | some k => Listener.coordinator <$> coordinatorNamed k
        | none => pure (.announcement name)
      modify fun s =>
        let (w, q) := s.world.addRequest
          { cell := c, dispatch, interceptors, timeoutMs, timerName, listener }
        { s with world := w, requests := s.requests.put name q }
      return done
    | .begin request => call (.begin (← requestNamed request))
    | .reportFailure request e => call (.fail (← requestNamed request) e)
    | .abandon request => call (.abandon (← requestNamed request))
    | .wait request limit => .answer <$> waitFor fuel thread (← requestNamed request) limit
    | .lateTimeout request =>
      let q ← requestNamed request
      onThread "late-timer" (discard (drive fuel "late-timer" (Call.timeOut q).activation))
      return done
    | .abandonAll coordinator => call (.abandonAll (← coordinatorNamed coordinator))
    | .advance ms =>
      let time := (← get).world.now + ms
      fireTimers fuel (some time) fun _ => false
      modify fun s => { s with world := s.world.moveTo time }
      return done
    | .thread name steps =>
      onThread name (take fuel name steps)
      return done
    | .race target steps main =>
      let lock ← lockOf target
      if (← get).races.contains lock then
        return .race false (← perform fuel thread main)
      else
        modify fun s => { s with races := s.races.put lock { steps } }
        let report ← (ExceptT.lift (perform fuel thread main).run : Run Report)
        let reached := ((← get).races.find? lock).any (·.reached)
        modify fun s => { s with races := s.races.erase lock }
        match report with
        | .ok reply => return .race reached reply
        | .error stop => throw stop

end

/-- What a step of a script shows. -/
structure Scene where
  report : Report
  /-- What happened, in order. -/
  events : List Entry
  after : Snapshot

/-- A bound on the open calls and loops of a script. -/
def boundFor (steps : List Step) : Nat :=
  let weight := weightSteps steps + 1
  1000 + 100 * (weight * weight * weight)

/-- Plays the steps of a script, each from where the one before left the session. -/
def playFrom (fuel : Nat) : Session → List Step → List Scene
  | _, [] => []
  | s, step :: rest =>
    let (report, s) := (perform fuel "MainThread" step).run.run { s with history := [] }
    ⟨report, s.history.reverse, s.snapshot⟩ :: playFrom fuel s rest

/-- Plays a script in an empty session. -/
def play (steps : List Step) : List Scene :=
  playFrom (boundFor steps) {} steps

end Rendezvous.Scenario
