import Rendezvous.CommandLine.Run
import Rendezvous.Proofs.Simulations.Alone

/-!
# Simulations from end to end

A simulation starts one request, with a timer if there is a timeout, and a producer that answers
after a delay if there is one. What comes first settles the request: the answer of the producer if
there is no timeout before it, and otherwise the fallback of the timeout or, without one, the error
of the timeout; the producer that comes too late is rejected. Without a timeout and a producer
nothing would ever settle the request, and the command refuses to begin.

The times are whole numbers of any size. By a clock that counts milliseconds exactly, this is how
every simulation goes. A clock that counts the delay and the interval of the timer by floating-point
numbers fails from `Binary64.overflowBound` on, and nothing in the command contains the failure.

## Main definitions

* `Simulation.IsCountable`: whether the clock of a simulation can count its times.
* `Simulation.Summary.Fits`: what a summary says of a simulation.
* `CommandLine.Simulates`: what the command does with a simulation.

## Main results

* `Simulation.ending_of_answered`, `Simulation.ending_of_timedOut`: the summary of a simulation that
  the producer settles, and of one that the timeout settles.
* `CommandLine.simulates_iff_isCountable`: the command does what it should exactly if the times can
  be counted.
* `CommandLine.simulates_exact`: by an exact clock, the command does what it should with every
  simulation.
-/

namespace Rendezvous

namespace Simulation

/-- Whether the clock of a simulation can count its times. -/
def IsCountable (s : Simulation) : Prop :=
  ¬s.clock.Overflows s.effectiveTimeoutMs ∧ ¬s.clock.Overflows (s.delayMs.getD 0)

instance (s : Simulation) : Decidable s.IsCountable :=
  inferInstanceAs (Decidable (_ ∧ _))

/-! ### The start -/

/-- The answer of user code in a simulation. -/
def respond (_ : Invocation) : Outcome := .returned .unit

/-- The world in which a simulation starts its request. -/
def opened (s : Simulation) : World :=
  ((World.addCell { clock := s.clock } s.cell).1.addCoordinator { settings := s.settings }).1

/-- The request of a simulation, as it is made. -/
def request (s : Simulation) : Request where
  cell := 0
  dispatch := some "dispatch"
  interceptors := [.hooks 0]
  timeoutMs := s.effectiveTimeoutMs
  timerName := s.settings.timerPrefix ++ "-" ++ toString 1
  listener := .coordinator 0

/-- The timer of a simulation with a timeout. -/
def timer (s : Simulation) : Timer := ⟨0, s.request.timerName, s.effectiveTimeoutMs, 0⟩

/-- The cell and the request of a simulation at a time between the start and the first event. -/
def waiting (s : Simulation) (time : Nat) : Scene where
  cell := { s.cell with handler := some (.request 0) }
  request := { s.request with timer := if s.effectiveTimeoutMs = 0 then none else some 0 }
  now := time

variable {s : Simulation}

private theorem isWaiting (s : Simulation) (time : Nat) :
    (s.waiting time).IsWaiting 0 0 where
  onTimeout := rfl
  onCompletion := rfl
  cell := rfl
  interceptors := rfl
  dispatch := ⟨_, rfl⟩
  listener := ⟨_, rfl⟩
  result := rfl
  expired := rfl
  handler := rfl
  completed := rfl
  resolution := rfl

/-- The world in which the start of a simulation comes to the timer. -/
private def activated (s : Simulation) : World :=
  ((Point.coordinator 0 (.activate 0)).step
    ((Point.coordinator 0 (.draw 0 (some "dispatch") [])).step s.opened).world).world

private theorem runs_activated {n : Nat} {w : World} {a : Activation}
    (h : Activation.Runs respond n s.activated
      ⟨.ready (.request 0 .arm), [.answer (.request 0)]⟩ w a) :
    Activation.Runs respond (n + 4) s.opened (Call.start 0 0 (some "dispatch") []).activation w a :=
  .point rfl rfl (.point rfl rfl (.point rfl rfl (.point rfl rfl h)))

private theorem step_arm (s : Simulation) : (Point.request 0 .arm).step s.activated =
    if s.effectiveTimeoutMs = 0 then
      { world := s.activated, next := .goto (.request 0 .attach) }
    else if s.clock.Overflows s.effectiveTimeoutMs then
      { world := s.activated, next := .fail .timeoutOverflow }
    else { world := s.activated.arm 0, next := .goto (.request 0 .attach) } := by
  have hrequest : (s.activated.request 0).timeoutMs = (s.effectiveTimeoutMs : Int) := rfl
  have hclock : s.activated.clock = s.clock := rfl
  simp only [Point.step, RequestPoint.step, hrequest, hclock, Int.toNat_natCast,
    Int.natCast_nonpos_iff]

/-- The request takes the place of the handler, and the start returns it. -/
private theorem runs_attach {w : World} (hc : (w.request 0).cell = 0) (hw : w.cell 0 = s.cell) :
    Activation.Runs respond 4 w ⟨.ready (.request 0 .attach), [.answer (.request 0)]⟩
      (w.setCell 0 { s.cell with handler := some (.request 0) })
      ⟨.ended (.returned (.request 0)), []⟩ := by
  have hattach : (Point.request 0 .attach).step w =
      { world := w, next := .goto (.cell 0 (.checkRegister (.request 0))) } := by
    simp only [Point.step, RequestPoint.step, hc]
  have hlook : (Point.cell 0 (.checkRegister (.request 0))).step w =
      { world := w, next := .goto (.cell 0 (.register (.request 0))) } := by
    simp only [Point.step, CellPoint.step, hw]
    rfl
  have hregister : (w.cell 0).register (.request 0) =
      ({ s.cell with handler := some (.request 0) }, .stored) := by
    rw [hw]
    rfl
  have hstore : (Point.cell 0 (.register (.request 0))).step w =
      { world := w.setCell 0 { s.cell with handler := some (.request 0) }
        next := .ret .unit } := by
    simp only [Point.step, CellPoint.step, hregister]
  exact .point rfl hattach (.point rfl hlook (.point rfl hstore (.resume (.refl _ _))))

/-- A start whose timeout can be counted returns its request, which then waits, with a timer if it
has a timeout. -/
private theorem runs_start (h : ¬s.clock.Overflows s.effectiveTimeoutMs) :
    ∃ w, Activation.Runs respond 9 s.opened (Call.start 0 0 (some "dispatch") []).activation w
        ⟨.ended (.returned (.request 0)), []⟩ ∧ w.Shows 0 0 (s.waiting 0) ∧
      w.timers = if s.effectiveTimeoutMs = 0 then [] else [s.timer] := by
  have harm := step_arm s
  rw [if_neg h] at harm
  split at harm
  · rename_i hE
    refine ⟨_, runs_activated (.point rfl harm (runs_attach rfl rfl)), ⟨?_, ?_, rfl⟩, ?_⟩
    · simp [waiting]
    · simp only [waiting, hE, if_true]
      rfl
    · rw [if_pos hE]
      rfl
  · rename_i hE
    refine ⟨_, runs_activated (.point rfl harm (runs_attach rfl rfl)), ⟨?_, ?_, rfl⟩, ?_⟩
    · simp [waiting]
    · simp only [waiting, hE, if_false]
      rfl
    · have htimers : (s.activated.arm 0).timers =
          [⟨0, s.request.timerName, 0 + s.effectiveTimeoutMs, 0⟩] := rfl
      rw [if_neg hE]
      exact htimers.trans (by rw [Nat.zero_add]; rfl)

/-- A start whose timeout cannot be counted raises at the timer. -/
private theorem runs_start_of_overflows (h : s.clock.Overflows s.effectiveTimeoutMs) :
    ∃ w, Activation.Runs respond 6 s.opened (Call.start 0 0 (some "dispatch") []).activation w
        ⟨.ended (.raised .timeoutOverflow), []⟩ := by
  have hpos : s.effectiveTimeoutMs ≠ 0 := fun hE => s.clock.not_overflows_zero (hE ▸ h)
  have harm := step_arm s
  rw [if_neg hpos, if_pos h] at harm
  exact ⟨_, runs_activated (.point rfl harm (.resume (.refl _ _)))⟩

/-! ### Stages -/

namespace Stage

variable {v v' : Scene} {n : Nat} {c : Call} {o : Outcome}

/-- A call that runs to its end leaves the rest of a stage as it is. -/
private theorem call_of_runs {w : World} (st : Stage) (thread : String)
    (h : Activation.Runs respond n st.world c.activation w ⟨.ended o, []⟩) (hn : n ≤ stepLimit) :
    ∃ notices, st.call thread c = ({ st with world := w, notices }, some o) := by
  obtain ⟨hw, ho⟩ := h.runAlone hn
  let notices := (c.activation.runAlone respond stepLimit st.world).notices
  refine ⟨st.notices ++ notices.map (thread, ·), ?_⟩
  rw [← hw, ← ho]
  rfl

private theorem call_of_plays (st : Stage) (thread : String)
    (h : Activation.Plays respond 0 0 n v c.activation v' ⟨.ended o, []⟩) (hn : n ≤ stepLimit)
    (hst : st.world.Shows 0 0 v) :
    ∃ w notices, st.call thread c = ({ st with world := w, notices }, some o) ∧
      w.Shows 0 0 v' := by
  obtain ⟨w, hr, hw⟩ := h _ hst
  obtain ⟨notices, hcall⟩ := call_of_runs st thread hr hn
  exact ⟨w, notices, hcall, hw⟩

private theorem observe_of_completed {st : Stage} {time : Nat} (h : st.completedAt = some time) :
    st.observe 0 = st := by
  simp [observe, h]

/-- A timer that is not due by a time does not fire. -/
private theorem fireTimer_of_none {st : Stage} {limit : Option Nat}
    (h : st.world.nextTimer? limit = none) : st.fireTimer 0 limit = st := by
  simp [fireTimer, h]

end Stage

/-- A stage at which the request of a simulation has been started. -/
private structure Stage.IsStarted (s : Simulation) (st : Stage) : Prop where
  shows : st.world.Shows 0 0 (s.waiting 0)
  timers : st.world.timers = if s.effectiveTimeoutMs = 0 then [] else [s.timer]
  completedAt : st.completedAt = none
  producerAccepted : st.producerAccepted = none

private theorem run_eq (h : ¬s.clock.Overflows (s.delayMs.getD 0)) :
    s.run =
      match Stage.call { world := s.opened } "MainThread" (.start 0 0 (some "dispatch") []) with
      | (stage, outcome) =>
        match outcome with
        | some (.returned (.request q)) =>
          { notices := (s.proceed q 0 stage).notices, ending := (s.proceed q 0 stage).summarize q }
        | some (.raised f) => { notices := stage.notices, ending := .error f }
        | _ => { notices := stage.notices, ending := .error .wouldBlock } := by
  rw [run, if_neg h]
  rfl

/-- A simulation whose times can be counted starts its request and goes on from there. -/
private theorem exists_isStarted (h : s.IsCountable) :
    ∃ st : Stage, Stage.IsStarted s st ∧ s.run.ending = (s.proceed 0 0 st).summarize 0 := by
  obtain ⟨w, hrun, hshows, htimers⟩ := runs_start h.1
  obtain ⟨notices, hcall⟩ := Stage.call_of_runs { world := s.opened } "MainThread" hrun (by decide)
  refine ⟨{ world := w, notices }, ⟨hshows, htimers, rfl, rfl⟩, ?_⟩
  rw [run_eq h.2, hcall]

/-- A simulation with a time that cannot be counted ends with a failure. -/
private theorem ending_of_not_isCountable (h : ¬s.IsCountable) :
    s.run.ending = .error .timeoutOverflow := by
  by_cases hd : s.clock.Overflows (s.delayMs.getD 0)
  · rw [run, if_pos hd]
  · have hE : s.clock.Overflows s.effectiveTimeoutMs :=
      Decidable.byContradiction fun hE => h ⟨hE, hd⟩
    obtain ⟨w, hrun⟩ := runs_start_of_overflows hE
    obtain ⟨notices, hcall⟩ := Stage.call_of_runs { world := s.opened } "MainThread" hrun
      (by decide)
    rw [run_eq hd, hcall]

/-! ### The timeout and the producer -/

/-- What a timeout resolves the cell of a simulation to. -/
def timeoutResolution (s : Simulation) : Resolution :=
  match s.fallback with
  | some text => .value (.text text)
  | none => .error (Payload.ofFailure (.requestTimeout s.effectiveTimeoutMs))

/-- What the producer of a simulation resolves its cell to. -/
def answerResolution (s : Simulation) : Resolution :=
  if s.fails then .error (Payload.ofFailure (.ordinary "RuntimeError" s.value))
  else .value (.text s.value)

/-- The cell and the request of a simulation after the timeout. -/
private def timedOut (s : Simulation) : Scene :=
  Scene.settled { s.waiting s.effectiveTimeoutMs with
    request := { (s.waiting s.effectiveTimeoutMs).request with timedOut := true } }
    s.timeoutResolution

/-- The cell and the request of a simulation after the answer of the producer at a time. -/
private def answered (s : Simulation) (time : Nat) : Scene :=
  (s.waiting time).settled s.answerResolution

private theorem returned_respond (i : Invocation) : ∃ d, respond i = .returned d := ⟨_, rfl⟩

private theorem activation_answer (s : Simulation) :
    (s.answer 0).activation = ⟨.ready (.cell 0 (.checkResult s.answerResolution)), []⟩ := by
  unfold answer answerResolution
  split <;> rfl

private theorem timeout_waiting (s : Simulation) (time : Nat) :
    ∃ p, s.cell.fallback = .fixed p ∧ (s.waiting time).timeout p = s.timeoutResolution := by
  unfold cell timeoutResolution Scene.timeout
  cases s.fallback <;> exact ⟨_, rfl, rfl⟩

namespace Stage

variable {st : Stage} {v v' : Scene} {n : Nat}

/-- A stage at which a request is over: what it shows, when that was, and what became of the
answer of the producer. -/
private structure IsOver (st : Stage) (v : Scene) (time : Nat) (accepted : Option Bool) : Prop where
  shows : st.world.Shows 0 0 v
  completedAt : st.completedAt = some time
  producerAccepted : st.producerAccepted = accepted

/-- The end of a request is observed at the time at which it happens. -/
private theorem isOver_observe {b : Option Bool} (hst : st.world.Shows 0 0 v)
    (hc : st.completedAt = none) (hb : st.producerAccepted = b)
    (hr : v.request.released = true) : (st.observe 0).IsOver v v.now b := by
  have hobserve : st.observe 0 = { st with completedAt := some v.now } := by
    simp [observe, hc, hst.request, hst.now, hr]
  exact hobserve ▸ ⟨hst, rfl, hb⟩

/-- The timer of a simulation with a timeout is due at the timeout. -/
private theorem IsStarted.nextTimer?_eq (h : IsStarted s st) (limit : Option Nat) :
    st.world.nextTimer? limit =
      if s.effectiveTimeoutMs ≠ 0 ∧ ∀ l ∈ limit, s.effectiveTimeoutMs ≤ l then some s.timer
      else none := by
  rw [World.nextTimer?, h.timers]
  by_cases hE : s.effectiveTimeoutMs = 0
  · simp [hE, World.earliest]
  · cases limit <;> simp [hE, World.earliest, timer, Option.filter]

/-- The timer fires, and the timeout completes the request. -/
private theorem IsStarted.fireTimer (h : IsStarted s st) (hpos : s.effectiveTimeoutMs ≠ 0)
    {limit : Option Nat} (hlimit : ∀ l ∈ limit, s.effectiveTimeoutMs ≤ l) :
    (st.fireTimer 0 limit).IsOver s.timedOut s.effectiveTimeoutMs none := by
  have hnext : st.world.nextTimer? limit = some s.timer := by
    rw [h.nextTimer?_eq, if_pos ⟨hpos, hlimit⟩]
  have hfired : (st.world.fire s.timer).Shows 0 0 (s.waiting s.effectiveTimeoutMs) :=
    ⟨h.shows.cell, h.shows.request,
      (congrArg (max · s.effectiveTimeoutMs) h.shows.now).trans (Nat.zero_max _)⟩
  obtain ⟨p, hp, htimeout⟩ := timeout_waiting s s.effectiveTimeoutMs
  obtain ⟨n, hn, hplays⟩ := Activation.plays_timeOut returned_respond
    (isWaiting s s.effectiveTimeoutMs) hp
  rw [htimeout] at hplays
  obtain ⟨w, notices, hcall, hshows⟩ := call_of_plays
    { st with world := st.world.fire s.timer } s.timer.name hplays
    (Nat.le_trans hn (by decide)) hfired
  have hrequest : s.timer.request = 0 := rfl
  simp only [Stage.fireTimer, hnext, hrequest, hcall]
  exact isOver_observe hshows h.completedAt h.producerAccepted rfl

/-- How a producer's answer goes. -/
private theorem exists_produce (hst : st.world.Shows 0 0 v) {d : Nat} {b : Bool}
    (hplays : Activation.Plays respond 0 0 n { v with now := max v.now d } (s.answer 0).activation
      v' ⟨.ended (.returned (.flag b)), []⟩) (hn : n ≤ stepLimit) :
    ∃ st' : Stage, st'.world.Shows 0 0 v' ∧ st'.completedAt = st.completedAt ∧
      st.produce 0 d (s.answer 0) = { st'.observe 0 with producerAccepted := some b } := by
  obtain ⟨w, notices, hcall, hshows⟩ := call_of_plays
    { st with world := st.world.moveTo d } producerThread hplays hn (hst.moveTo d)
  refine ⟨{ st with world := w, notices }, hshows, rfl, ?_⟩
  simp only [Stage.produce, hcall]

/-- The producer answers in time, and its answer completes the request. -/
private theorem IsStarted.produce (h : IsStarted s st) (d : Nat) :
    (st.produce 0 d (s.answer 0)).IsOver (s.answered d) d (some true) := by
  have hplays := Activation.plays_resolve returned_respond (isWaiting s (max 0 d))
    s.answerResolution []
  rw [← activation_answer] at hplays
  obtain ⟨st', hshows, hcompleted, hproduce⟩ := exists_produce h.shows hplays (by decide)
  have hover := isOver_observe hshows (hcompleted.trans h.completedAt) rfl rfl
  rw [hproduce, answered, ← Nat.zero_max d]
  exact ⟨hover.shows, hover.completedAt, rfl⟩

/-- The cell of a request that timed out takes no answer of the producer. -/
private theorem IsOver.produce {time d : Nat} {b : Option Bool}
    (h : st.IsOver v time b) (hv : v.cell.result.isSome = true) :
    (st.produce 0 d (s.answer 0)).IsOver { v with now := max v.now d } time (some false) := by
  have hplays : Activation.Plays respond 0 0 1 { v with now := max v.now d }
      ⟨.ready (.cell 0 (.checkResult s.answerResolution)), []⟩ { v with now := max v.now d }
      ⟨.ended (.returned (.flag false)), []⟩ := Activation.plays_reject respond 0 _ hv
  rw [← activation_answer] at hplays
  obtain ⟨st', hshows, hcompleted, hproduce⟩ := exists_produce h.shows hplays (by decide)
  rw [hproduce, observe_of_completed (hcompleted.trans h.completedAt)]
  exact ⟨hshows, hcompleted.trans h.completedAt, rfl⟩

/-- A request that is over is summarized as it shows. -/
private theorem IsOver.summarize {time : Nat} {b : Option Bool} {k : OutcomeKind} {text : String}
    (h : st.IsOver v time b) (hv : Resolution.summarize v.request.resolution = (k, .text text)) :
    st.summarize 0 =
      .ok ⟨k, some text, b, v.request.timedOut, v.request.timeoutMs, time⟩ := by
  simp only [Stage.summarize, h.completedAt, h.shows.request, h.producerAccepted, hv]

end Stage

/-! ### Endings -/

/-- What a summary shows of a timeout. -/
def timeoutText (s : Simulation) : String :=
  s.fallback.getD (Failure.requestTimeout s.effectiveTimeoutMs).message

private theorem summarize_answerResolution (s : Simulation) :
    Resolution.summarize s.answerResolution =
      (if s.fails then .error else .value, .text s.value) := by
  unfold answerResolution
  split <;> rfl

private theorem summarize_timeoutResolution (s : Simulation) :
    Resolution.summarize s.timeoutResolution =
      (if s.fallback.isSome then .value else .timeout, .text s.timeoutText) := by
  unfold timeoutResolution timeoutText
  cases s.fallback <;> rfl

/-- A producer that is earlier than the timeout settles the request. -/
theorem ending_of_answered (h : s.IsCountable) {d : Nat} (hd : s.delayMs = some d)
    (hE : s.effectiveTimeoutMs = 0 ∨ d < s.effectiveTimeoutMs) :
    s.run.ending = .ok ⟨if s.fails then .error else .value, some s.value, some true, false,
      s.effectiveTimeoutMs, d⟩ := by
  obtain ⟨st, hst, hending⟩ := exists_isStarted h
  have hnext : st.world.nextTimer? (some d) = none := by
    rw [hst.nextTimer?_eq, if_neg]
    rintro ⟨hpos, hle⟩
    exact hE.elim hpos fun hlt => Nat.not_le.mpr hlt (hle d rfl)
  have hproceed : s.proceed 0 0 st = st.produce 0 d (s.answer 0) := by
    rw [proceed, hd]
    exact congrArg (Stage.produce 0 d (s.answer 0)) (Stage.fireTimer_of_none hnext)
  rw [hending, hproceed]
  exact (hst.produce d).summarize (summarize_answerResolution s)

/-- A timeout that is not later than the producer settles the request. -/
theorem ending_of_timedOut (h : s.IsCountable) (hpos : s.effectiveTimeoutMs ≠ 0)
    (hd : ∀ d ∈ s.delayMs, s.effectiveTimeoutMs ≤ d) :
    s.run.ending = .ok ⟨if s.fallback.isSome then .value else .timeout, some s.timeoutText,
      s.delayMs.map fun _ => false, true, s.effectiveTimeoutMs, s.effectiveTimeoutMs⟩ := by
  obtain ⟨st, hst, hending⟩ := exists_isStarted h
  have hfired := hst.fireTimer hpos hd
  rw [hending, proceed]
  cases hdelay : s.delayMs with
  | none =>
    rw [hdelay] at hfired
    exact hfired.summarize (summarize_timeoutResolution s)
  | some d =>
    rw [hdelay] at hfired
    exact (hfired.produce rfl).summarize (summarize_timeoutResolution s)

/-- What a summary says of a simulation. It is left open what comes first if the timeout and the
answer of the producer come at the same time. -/
structure Summary.Fits (x : Summary) (s : Simulation) : Prop where
  timeoutMs : x.timeoutMs = s.effectiveTimeoutMs
  answered : ∀ d ∈ s.delayMs, (s.effectiveTimeoutMs = 0 ∨ d < s.effectiveTimeoutMs) →
    x.outcome = (if s.fails then .error else .value) ∧ x.payload = some s.value ∧
      x.producerAccepted = some true ∧ x.timedOut = false
  timedOut : 0 < s.effectiveTimeoutMs → (∀ d ∈ s.delayMs, s.effectiveTimeoutMs < d) →
    x.timedOut = true ∧ x.producerAccepted = s.delayMs.map (fun _ => false) ∧
      (∀ text ∈ s.fallback, x.outcome = .value ∧ x.payload = some text) ∧
      (s.fallback = none → x.outcome = .timeout ∧
        x.payload = some (Failure.requestTimeout s.effectiveTimeoutMs).message)

/-- A simulation that would end, and whose times can be counted, comes to a summary that fits. -/
theorem exists_fits (h : s.IsCountable)
    (hidle : ¬(s.effectiveTimeoutMs = 0 ∧ s.delayMs = none)) :
    ∃ x : Summary, s.run.ending = .ok x ∧ x.Fits s := by
  by_cases hd : ∃ d ∈ s.delayMs, s.effectiveTimeoutMs = 0 ∨ d < s.effectiveTimeoutMs
  · obtain ⟨d, hd, hE⟩ := hd
    refine ⟨_, ending_of_answered h hd hE, rfl, fun _ _ _ => ⟨rfl, rfl, rfl, rfl⟩,
      fun hpos hlt => ?_⟩
    have := hlt d hd
    omega
  · have hle : ∀ d ∈ s.delayMs, s.effectiveTimeoutMs ≠ 0 ∧ s.effectiveTimeoutMs ≤ d := by
      intro d hmem
      have hnot := not_or.mp fun hE => hd ⟨d, hmem, hE⟩
      exact ⟨hnot.1, Nat.not_lt.mp hnot.2⟩
    have hpos : s.effectiveTimeoutMs ≠ 0 := by
      cases hdelay : s.delayMs with
      | none => exact fun hE => hidle ⟨hE, hdelay⟩
      | some d => exact (hle d hdelay).1
    refine ⟨_, ending_of_timedOut h hpos fun d hmem => (hle d hmem).2, rfl,
      fun d hmem hE => absurd ⟨d, hmem, hE⟩ hd, fun _ _ => ⟨rfl, rfl, ?_, fun hnone => ?_⟩⟩
    · intro text htext
      simp [timeoutText, Option.mem_def.mp htext]
    · simp [timeoutText, hnone]

end Simulation

namespace CommandLine

variable {t : Transcript} {s : Simulation} {form : ReportForm}

/-- What the command does with a simulation: one that would never end is refused before it begins,
and every other one is run and summarized. -/
structure Simulates (t : Transcript) (s : Simulation) (form : ReportForm) : Prop where
  exit_one_iff : (simulate t s form).ending = .exit 1 ↔
    s.effectiveTimeoutMs = 0 ∧ s.delayMs = none
  refused : s.effectiveTimeoutMs = 0 ∧ s.delayMs = none → simulate t s form = t.stop Panel.idle
  summarized : ¬(s.effectiveTimeoutMs = 0 ∧ s.delayMs = none) →
    (simulate t s form).ending = .exit 0 ∧ ∃ x : Simulation.Summary, x.Fits s ∧
      (simulate t s form).output =
        t.output ++ t.log.writtenNotices s.run.notices ++ x.report form

private theorem isIdle_iff :
    s.isIdle = true ↔ s.effectiveTimeoutMs = 0 ∧ s.delayMs = none := by
  simp [Simulation.isIdle]

/-- A simulation that comes to a summary is reported. -/
theorem simulate_of_ending {x : Simulation.Summary}
    (hidle : ¬(s.effectiveTimeoutMs = 0 ∧ s.delayMs = none)) (hx : s.run.ending = .ok x) :
    simulate t s form = (t.say (t.log.writtenNotices s.run.notices)).say (x.report form) := by
  simp only [simulate, if_neg (mt isIdle_iff.mp hidle), hx]

/-- A simulation with a time that cannot be counted ends with a failure that the program has no
words for. -/
theorem ending_simulate_of_not_isCountable (h : ¬s.IsCountable) :
    (simulate t s form).ending = .failed "OverflowError" "int too large to convert to float" := by
  have hidle : ¬(s.effectiveTimeoutMs = 0 ∧ s.delayMs = none) := by
    rintro ⟨hE, hd⟩
    exact h ⟨by simp [hE], by simp [hd]⟩
  simp only [simulate, if_neg (mt isIdle_iff.mp hidle), Simulation.ending_of_not_isCountable h]
  rfl

/-- A simulation whose times can be counted is refused or summarized as it should be. -/
theorem simulates_of_isCountable (h : t.ending = .exit 0) (hs : s.IsCountable) :
    Simulates t s form := by
  have hsummarized (hidle : ¬(s.effectiveTimeoutMs = 0 ∧ s.delayMs = none)) :
      (simulate t s form).ending = .exit 0 ∧ ∃ x : Simulation.Summary, x.Fits s ∧
        (simulate t s form).output =
          t.output ++ t.log.writtenNotices s.run.notices ++ x.report form := by
    obtain ⟨x, hx, hfits⟩ := Simulation.exists_fits hs hidle
    rw [simulate_of_ending hidle hx]
    exact ⟨h, x, hfits, rfl⟩
  have hrefused (hidle : s.effectiveTimeoutMs = 0 ∧ s.delayMs = none) :
      simulate t s form = t.stop Panel.idle := by
    rw [simulate, if_pos (isIdle_iff.mpr hidle)]
  refine ⟨⟨fun hone => ?_, fun hidle => ?_⟩, hrefused, hsummarized⟩
  · refine Decidable.byContradiction fun hidle => ?_
    rw [(hsummarized hidle).1] at hone
    cases hone
  · rw [hrefused hidle]
    rfl

/-- A simulation with a time that cannot be counted is neither refused nor summarized. -/
theorem not_simulates_of_not_isCountable (hs : ¬s.IsCountable) : ¬Simulates t s form := by
  intro h
  have hending := @ending_simulate_of_not_isCountable t s form hs
  by_cases hidle : s.effectiveTimeoutMs = 0 ∧ s.delayMs = none
  · rw [h.refused hidle] at hending
    cases hending
  · rw [(h.summarized hidle).1] at hending
    cases hending

/-- The command does what it should with a simulation exactly if the clock of the simulation can
count its times; if it cannot, the run ends with a failure. -/
theorem simulates_iff_isCountable (h : t.ending = .exit 0) :
    (Simulates t s form ↔ s.IsCountable) ∧
      (¬s.IsCountable → (simulate t s form).ending =
        .failed "OverflowError" "int too large to convert to float") :=
  ⟨⟨fun hs => Decidable.byContradiction fun hcount => not_simulates_of_not_isCountable hcount hs,
    simulates_of_isCountable h⟩, ending_simulate_of_not_isCountable⟩

/-- Floating-point numbers cannot hold a number of milliseconds with three hundred and nine
zeros. -/
example : ¬Simulates {} { timeoutMs := some (Nat.pow 10 309), delayMs := some 5 } .json :=
  not_simulates_of_not_isCountable (by decide +kernel)

end CommandLine

end Rendezvous
