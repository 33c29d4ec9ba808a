import Rendezvous.Execution.Solo
import Rendezvous.Proofs.Threads.Transition

/-!
# Calls that run alone

A call that nothing disturbs, and whose user code answers at once, runs along its points to its end.
What it does to a cell and to a request on it is found by following it there: a resolution that a
pending cell takes is dispatched, and completes the request.

## Main definitions

* `Activation.Runs`: where an activation comes in a number of steps.
* `Scene` and `World.Shows`: a cell, a request and the time, and the worlds that show them.
* `Scene.IsPlain` and `Scene.IsWaiting`: a request that only the hooks of its cell accompany, and
  one that waits for its cell besides; `Scene.settled`, what becomes of it.
* `Point.Plays` and `Activation.Plays`: what a step, and what a run, does to a scene.

## Main results

* `Activation.Runs.runAlone`: such a run is the one that is computed.
* `Activation.plays_complete` and `Activation.plays_deliver`: how a request is completed, and how it
  takes a resolution.
* `Activation.plays_resolve`, `Activation.plays_reject` and `Activation.plays_timeOut`: a cell takes
  its first resolution, and no other one, and a timeout is one way to it.
-/

namespace Rendezvous

/-- Where an activation comes in a number of steps when nothing disturbs it and user code answers as
given. -/
inductive Activation.Runs (respond : Invocation → Outcome) :
    Nat → World → Activation → World → Activation → Prop
  | refl (w : World) (a : Activation) : Runs respond 0 w a w a
  | step {n : Nat} {w w₁ w' : World} {a a₁ a' : Activation} {notices : List Notice}
      (h : a.step? w = some (w₁, a₁, notices)) (hr : Runs respond n w₁ a₁ w' a') :
    Runs respond (n + 1) w a w' a'
  | answer {n : Nat} {w w' : World} {i : Invocation} {frames : List Frame} {a' : Activation}
      (hr : Runs respond n w ⟨.ended (respond i), frames⟩ w' a') :
    Runs respond (n + 1) w ⟨.inside i, frames⟩ w' a'

namespace Activation

variable {respond : Invocation → Outcome} {n k : Nat} {w w₁ w' w'' : World} {a a' a'' : Activation}
  {p : Point} {frames : List Frame}

theorem Runs.trans (h : Runs respond n w a w' a') (h' : Runs respond k w' a' w'' a'') :
    Runs respond (n + k) w a w'' a'' := by
  induction h with
  | refl => rwa [Nat.zero_add]
  | step h _ ih =>
    rw [Nat.add_right_comm]
    exact .step h (ih h')
  | answer _ ih =>
    rw [Nat.add_right_comm]
    exact .answer (ih h')

/-- An activation goes on from a point as the step there says. -/
theorem Runs.point {next : Next} {notices : List Notice} (hp : p.isEnabled w = true)
    (hs : p.step w = ⟨w₁, next, notices⟩) (hr : Runs respond n w₁ (follow frames next) w' a') :
    Runs respond (n + 1) w ⟨.ready p, frames⟩ w' a' := by
  have hstep : step? w ⟨.ready p, frames⟩ = some (w₁, follow frames next, notices) := by
    simp only [step?, hp, hs, if_true]
  exact .step hstep hr

/-- A frame takes the outcome that it waited for. -/
theorem Runs.resume {f : Frame} {o : Outcome}
    (hr : Runs respond n w (follow frames (f.resume w o).next) w' a') :
    Runs respond (n + 1) w ⟨.ended o, f :: frames⟩ w' a' :=
  .step rfl (by rwa [Frame.resume_world])

/-- A run that comes to its end is the one that is computed. -/
theorem Runs.runAlone {o : Outcome} (h : Runs respond n w a w' ⟨.ended o, []⟩) {fuel : Nat}
    (hn : n ≤ fuel) :
    (a.runAlone respond fuel w).world = w' ∧ (a.runAlone respond fuel w).outcome? = some o := by
  generalize ha : (⟨.ended o, []⟩ : Activation) = a' at h
  induction h generalizing fuel with
  | refl =>
    subst ha
    cases fuel <;> exact ⟨rfl, rfl⟩
  | step h _ ih =>
    obtain ⟨fuel, rfl⟩ := Nat.exists_eq_succ_of_ne_zero (Nat.ne_of_gt (Nat.zero_lt_of_lt hn))
    simp only [Activation.runAlone, h]
    exact ih (Nat.le_of_succ_le_succ hn) ha
  | answer _ ih =>
    obtain ⟨fuel, rfl⟩ := Nat.exists_eq_succ_of_ne_zero (Nat.ne_of_gt (Nat.zero_lt_of_lt hn))
    simp only [Activation.runAlone, Activation.step?]
    exact ih (Nat.le_of_succ_le_succ hn) ha

end Activation

/-! ### Scenes -/

/-- A cell, a request and the time. -/
structure Scene where
  cell : Cell
  request : Request
  now : Nat

/-- Whether a world shows a scene. -/
structure World.Shows (w : World) (c : CellId) (q : RequestId) (v : Scene) : Prop where
  cell : w.cell c = v.cell
  request : w.request q = v.request
  now : w.now = v.now

/-- Whether a cell without callbacks and a request of a coordinator on it are on their own: the
hooks of the cell are all that accompanies the request. -/
structure Scene.IsPlain (v : Scene) (c : CellId) : Prop where
  onTimeout : v.cell.onTimeout = none
  onCompletion : v.cell.onCompletion = none
  cell : v.request.cell = c
  interceptors : v.request.interceptors = [.hooks c]
  dispatch : ∃ id, v.request.dispatch = some id
  listener : ∃ k, v.request.listener = .coordinator k

/-- Whether the request of a scene is on its own and waits for the resolution of its cell. -/
structure Scene.IsWaiting (v : Scene) (c : CellId) (q : RequestId) : Prop extends
    v.IsPlain c where
  result : v.cell.result = none
  expired : v.cell.expired = false
  handler : v.cell.handler = some (.request q)
  completed : v.request.completed = false
  resolution : v.request.resolution = none

/-- A scene after the cell has taken a resolution that the request waited for. -/
def Scene.settled (v : Scene) (r : Resolution) : Scene where
  cell := { v.cell with result := some r, expired := true, handler := none }
  request := { v.request with resolution := some r, completed := true, released := true }
  now := v.now

/-- What the step at a point does to a scene, and how it goes on. -/
def Point.Plays (c : CellId) (q : RequestId) (p : Point) (v : Scene) (n : Next) (v' : Scene) :
    Prop :=
  ∀ w : World, w.Shows c q v → p.isEnabled w = true ∧ (p.step w).next = n ∧
    (p.step w).world.Shows c q v'

/-- Where an activation comes in a scene. -/
def Activation.Plays (respond : Invocation → Outcome) (c : CellId) (q : RequestId) (n : Nat)
    (v : Scene) (a : Activation) (v' : Scene) (a' : Activation) : Prop :=
  ∀ w : World, w.Shows c q v → ∃ w', a.Runs respond n w w' a' ∧ w'.Shows c q v'

section Scenes

variable {respond : Invocation → Outcome} {n k : Nat} {w : World} {c : CellId} {q : RequestId}
  {v v' v'' : Scene} {a a' a'' : Activation} {p : Point} {f : Frame} {frames : List Frame}
  {o : Outcome} {next : Next}

theorem World.Shows.setCell (h : w.Shows c q v) (x : Cell) :
    (w.setCell c x).Shows c q { v with cell := x } where
  cell := by simp
  request := h.request
  now := h.now

theorem World.Shows.setRequest (h : w.Shows c q v) (y : Request) :
    (w.setRequest q y).Shows c q { v with request := y } where
  cell := h.cell
  request := by simp
  now := h.now

theorem World.Shows.moveTo (h : w.Shows c q v) (time : Nat) :
    (w.moveTo time).Shows c q { v with now := max v.now time } :=
  ⟨h.cell, h.request, congrArg (max · time) h.now⟩

namespace Activation.Plays

theorem refl (v : Scene) (a : Activation) : Plays respond c q 0 v a v a :=
  fun w h => ⟨w, .refl w a, h⟩

theorem trans (h : Plays respond c q n v a v' a') (h' : Plays respond c q k v' a' v'' a'') :
    Plays respond c q (n + k) v a v'' a'' := by
  intro w hw
  obtain ⟨w', hr, hw'⟩ := h w hw
  obtain ⟨w'', hr', hw''⟩ := h' w' hw'
  exact ⟨w'', hr.trans hr', hw''⟩

theorem point (hp : p.Plays c q v next v')
    (h : Plays respond c q n v' (.follow frames next) v'' a) :
    Plays respond c q (n + 1) v ⟨.ready p, frames⟩ v'' a := by
  intro w hw
  obtain ⟨henabled, hn, hw'⟩ := hp w hw
  obtain ⟨w'', hr, hw''⟩ := h _ hw'
  exact ⟨w'', .point henabled rfl (hn ▸ hr), hw''⟩

theorem resume (hf : ∀ w : World, w.Shows c q v → (f.resume w o).next = next)
    (h : Plays respond c q n v (.follow frames next) v' a) :
    Plays respond c q (n + 1) v ⟨.ended o, f :: frames⟩ v' a := by
  intro w hw
  obtain ⟨w', hr, hw'⟩ := h w hw
  exact ⟨w', .resume (hf w hw ▸ hr), hw'⟩

theorem answer {i : Invocation} (h : Plays respond c q n v ⟨.ended (respond i), frames⟩ v' a) :
    Plays respond c q (n + 1) v ⟨.inside i, frames⟩ v' a := by
  intro w hw
  obtain ⟨w', hr, hw'⟩ := h w hw
  exact ⟨w', .answer hr, hw'⟩

end Activation.Plays

/-! ### Completion -/

variable {r : Resolution} {b : Answer}

private theorem plays_complete (hc : v.request.completed = false) :
    Point.Plays c q (.request q .complete) v (.goto (.request q .cancelTimer))
      { v with request := { v.request with completed := true } } := by
  intro w h
  simp only [Point.step, RequestPoint.step, h.request, hc]
  refine ⟨rfl, rfl, ?_⟩
  rw [← h.request]
  exact h.setRequest _

private theorem plays_cancelTimer (hi : v.request.interceptors = [.hooks c]) :
    Point.Plays c q (.request q .cancelTimer) v
      (.goto (.request q (.completionHooks [.hooks c]))) v := by
  refine fun w h => ⟨rfl, by simp [Point.step, RequestPoint.step, h.request, hi], ?_⟩
  simp only [Point.step, RequestPoint.step, World.cancel]
  split
  · exact h
  · exact ⟨h.cell, h.request, h.now⟩

private theorem plays_completionHooks (rest : List Interceptor) :
    Point.Plays c q (.request q (.completionHooks (.hooks c :: rest))) v
      (.call (.request q (.completionHook rest)) (.cell c .expire)) v :=
  fun _ h => ⟨rfl, rfl, h⟩

private theorem plays_expire (he : v.cell.expired = false) :
    Point.Plays c q (.cell c .expire) v (.goto (.cell c .completionCallback))
      { v with cell := { v.cell with expired := true, handler := none } } := by
  intro w h
  simp only [Point.step, CellPoint.step, h.cell, Cell.expire, he]
  exact ⟨rfl, rfl, h.setCell _⟩

private theorem plays_completionCallback (hn : v.cell.onCompletion = none) :
    Point.Plays c q (.cell c .completionCallback) v (.ret .unit) v :=
  fun w h => ⟨rfl, by simp [Point.step, CellPoint.step, h.cell, hn], h⟩

private theorem plays_completionHooksEnd :
    Point.Plays c q (.request q (.completionHooks [])) v (.goto (.request q .tellListener)) v :=
  fun _ h => ⟨rfl, rfl, h⟩

private theorem plays_tellListener {j : CoordinatorId} (hj : v.request.listener = .coordinator j) :
    Point.Plays c q (.request q .tellListener) v
      (.call (.request q .told) (.coordinator j (.retire q))) v := by
  refine fun w h => ⟨rfl, by simp [Point.step, RequestPoint.step, h.request, hj], ?_⟩
  simpa only [Point.step, RequestPoint.step, h.request, hj] using h

private theorem plays_retire (j : CoordinatorId) :
    Point.Plays c q (.coordinator j (.retire q)) v (.ret .unit) v := by
  refine fun w h => ⟨rfl, rfl, ?_⟩
  simp only [Point.step, CoordinatorPoint.step]
  split
  · exact ⟨h.cell, h.request, h.now⟩
  · exact h

private theorem plays_release : Point.Plays c q (.request q .release) v (.ret .unit)
    { v with request := { v.request with released := true } } :=
  fun _ h => ⟨rfl, rfl, h.request ▸ h.setRequest _⟩

/-- A request on its own is completed: its cell expires, and those who wait are released. -/
theorem Activation.plays_complete (respond : Invocation → Outcome) (q : RequestId)
    (frames : List Frame) (hv : v.IsPlain c) (hc : v.request.completed = false)
    (he : v.cell.expired = false) :
    Activation.Plays respond c q 11 v ⟨.ready (.request q .complete), frames⟩
      { v with
        cell := { v.cell with expired := true, handler := none }
        request := { v.request with completed := true, released := true } }
      ⟨.ended (.returned .unit), frames⟩ := by
  obtain ⟨j, hj⟩ := hv.listener
  exact .point (Rendezvous.plays_complete hc) (.point (plays_cancelTimer hv.interceptors)
    (.point (plays_completionHooks []) (.point (plays_expire he)
    (.point (plays_completionCallback hv.onCompletion) (.resume (fun _ _ => rfl)
    (.point plays_completionHooksEnd (.point (plays_tellListener hj) (.point (plays_retire j)
    (.resume (fun _ _ => rfl) (.point plays_release (.refl _ _)))))))))))

/-! ### Resolution -/

private theorem plays_deliver (r : Resolution) (b : Answer) :
    Point.Plays c q (.cell c (.deliver (.request q) r b)) v
      (.call (.cell c (.delivered b)) (.request q (.record r))) v :=
  fun _ h => ⟨rfl, rfl, h⟩

private theorem plays_record (hr : v.request.resolution = none) :
    Point.Plays c q (.request q (.record r)) v (.goto (.request q (.dispatch r)))
      { v with request := { v.request with resolution := some r } } := by
  refine fun w h => ⟨rfl, rfl, ?_⟩
  have hor : v.request.resolution.or (some r) = some r := by rw [hr]; rfl
  rw [← hor, ← h.request]
  exact h.setRequest _

private theorem plays_dispatch {id : CallbackId} (hd : v.request.dispatch = some id) :
    Point.Plays c q (.request q (.dispatch r)) v
      (.invoke (.request q .dispatched) ⟨id, .dispatch, some (.resolution r)⟩) v :=
  fun w h => ⟨rfl, by simp [Point.step, RequestPoint.step, h.request, hd], h⟩

private theorem plays_checkResult (hr : v.cell.result = none) :
    Point.Plays c q (.cell c (.checkResult r)) v (.goto (.cell c (.checkExpired r))) v :=
  fun w h => ⟨rfl, by simp [Point.step, CellPoint.step, h.cell, Cell.hasResult, hr], h⟩

private theorem plays_checkExpired (he : v.cell.expired = false) :
    Point.Plays c q (.cell c (.checkExpired r)) v (.goto (.cell c (.assign r))) v :=
  fun w h => ⟨rfl, by simp [Point.step, CellPoint.step, h.cell, he], h⟩

private theorem plays_assign {x : Handler} (hr : v.cell.result = none)
    (he : v.cell.expired = false) (hx : v.cell.handler = some x) :
    Point.Plays c q (.cell c (.assign r)) v (.goto (.cell c (.deliver x r (.flag true))))
      { v with cell := { v.cell with result := some r, handler := none } } := by
  intro w h
  have hassign : (w.cell c).assign r =
      ({ v.cell with result := some r, handler := none }, .accepted (some x)) := by
    simp [Cell.assign, Cell.isSetOrExpired, h.cell, hr, he, hx]
  simp only [Point.step, CellPoint.step, hassign]
  exact ⟨rfl, trivial, h.setCell _⟩

/-- A resolution is dispatched for a request on its own, which is then completed. -/
theorem Activation.plays_deliver (respond : Invocation → Outcome) (q : RequestId) (r : Resolution)
    (b : Answer) (frames : List Frame) (hq : ∀ i, ∃ d, respond i = .returned d) (hv : v.IsPlain c)
    (hc : v.request.completed = false) (he : v.cell.expired = false)
    (hr : v.request.resolution = none) :
    Activation.Plays respond c q 18 v ⟨.ready (.cell c (.deliver (.request q) r b)), frames⟩
      { v with
        cell := { v.cell with expired := true, handler := none }
        request := { v.request with resolution := some r, completed := true, released := true } }
      ⟨.ended (.returned b), frames⟩ := by
  obtain ⟨id, hd⟩ := hv.dispatch
  obtain ⟨d, hrespond⟩ := hq ⟨id, .dispatch, some (.resolution r)⟩
  have hv' : Scene.IsPlain { v with request := { v.request with resolution := some r } } c :=
    ⟨hv.onTimeout, hv.onCompletion, hv.cell, hv.interceptors, hv.dispatch, hv.listener⟩
  have hcomplete := Activation.plays_complete respond q
    (.outcome (.returned d) :: .cell c (.delivered b) :: frames) hv' hc he
  have hafter := hcomplete.trans (.resume (fun _ _ => rfl) (.resume (fun _ _ => rfl) (.refl _ _)))
  exact .point (Rendezvous.plays_deliver r b) (.point (plays_record hr) (.point (plays_dispatch hd)
    (.answer (hrespond ▸ .resume (fun _ _ => rfl) hafter))))

/-- A cell that a request waits for takes a resolution, which completes the request. -/
theorem Activation.plays_resolve (hq : ∀ i, ∃ d, respond i = .returned d) (hv : v.IsWaiting c q)
    (r : Resolution) (frames : List Frame) :
    Activation.Plays respond c q 21 v ⟨.ready (.cell c (.checkResult r)), frames⟩ (v.settled r)
      ⟨.ended (.returned (.flag true)), frames⟩ := by
  have hv' : Scene.IsPlain { v with
      cell := { v.cell with result := some r, handler := none } } c :=
    ⟨hv.onTimeout, hv.onCompletion, hv.cell, hv.interceptors, hv.dispatch, hv.listener⟩
  have hdeliver := Activation.plays_deliver respond q r (.flag true) frames hq hv' hv.completed
    hv.expired hv.resolution
  exact .point (plays_checkResult hv.result) (.point (plays_checkExpired hv.expired)
    (.point (plays_assign hv.result hv.expired hv.handler) hdeliver))

/-- A cell that has a result takes no other one. -/
theorem Activation.plays_reject (respond : Invocation → Outcome) (q : RequestId) (r : Resolution)
    (hr : v.cell.result.isSome = true) :
    Activation.Plays respond c q 1 v ⟨.ready (.cell c (.checkResult r)), frames⟩ v
      ⟨.ended (.returned (.flag false)), frames⟩ := by
  have hstep : Point.Plays c q (.cell c (.checkResult r)) v (.ret (.flag false)) v :=
    fun w h => ⟨rfl, by simp [Point.step, CellPoint.step, h.cell, Cell.hasResult, hr], h⟩
  exact .point hstep (.refl _ _)

/-! ### Timeouts -/

private theorem plays_checkTimeout (hc : v.request.completed = false) :
    Point.Plays c q (.request q .checkTimeout) v (.goto (.request q .markTimeout)) v :=
  fun w h => ⟨rfl, by simp [Point.step, RequestPoint.step, h.request, hc], h⟩

private theorem plays_markTimeout (hi : v.request.interceptors = [.hooks c]) :
    Point.Plays c q (.request q .markTimeout) v (.goto (.request q (.timeoutHooks [.hooks c])))
      { v with request := { v.request with timedOut := true } } := by
  refine fun w h => ⟨rfl, by simp [Point.step, RequestPoint.step, h.request, hi], ?_⟩
  exact h.request ▸ h.setRequest _

private theorem plays_timeoutHooks (rest : List Interceptor) :
    Point.Plays c q (.request q (.timeoutHooks (.hooks c :: rest))) v
      (.call (.request q (.timeoutHook rest)) (.cell c .timeoutCallback)) v :=
  fun _ h => ⟨rfl, rfl, h⟩

private theorem plays_timeoutCallback (hn : v.cell.onTimeout = none) :
    Point.Plays c q (.cell c .timeoutCallback) v (.goto (.cell c .fallback)) v :=
  fun w h => ⟨rfl, by simp [Point.step, CellPoint.step, h.cell, hn], h⟩

private theorem plays_fallback {p : Payload} (hf : v.cell.fallback = .fixed p) :
    Point.Plays c q (.cell c .fallback) v (.goto (.cell c (.settle p))) v :=
  fun w h => ⟨rfl, by simp [Point.step, CellPoint.step, h.cell, hf], h⟩

private theorem plays_settle {p : Payload} (hp : Resolution.ofFallback? p = some r) :
    Point.Plays c q (.cell c (.settle p)) v
      (.call (.answer (.flag false)) (.cell c (.checkResult r))) v :=
  fun w h => ⟨rfl, by simp [Point.step, CellPoint.step, hp], h⟩

private theorem plays_settleNone {p : Payload} (hp : Resolution.ofFallback? p = none) :
    Point.Plays c q (.cell c (.settle p)) v (.ret (.flag true)) v :=
  fun w h => ⟨rfl, by simp [Point.step, CellPoint.step, hp], h⟩

private theorem plays_timeoutHooksEnd :
    Point.Plays c q (.request q (.timeoutHooks [])) v (.goto (.request q .timeoutDefault)) v :=
  fun _ h => ⟨rfl, rfl, h⟩

private theorem plays_timeoutDefault (hc : v.request.cell = c) (hr : v.cell.result = none) :
    Point.Plays c q (.request q .timeoutDefault) v
      (.call (.request q .settled) (.cell c (.checkResult
        (.error (Payload.ofFailure (.requestTimeout v.request.timeoutMs)))))) v :=
  fun w h =>
    ⟨rfl, by simp [Point.step, RequestPoint.step, h.request, hc, h.cell, Cell.hasResult, hr], h⟩

private theorem plays_completeUndelivered (hc : v.request.cell = c)
    (hr : v.cell.result.isSome = true) :
    Point.Plays c q (.request q .completeUndelivered) v (.ret .unit) v :=
  fun w h =>
    ⟨rfl, by simp [Point.step, RequestPoint.step, h.request, hc, h.cell, Cell.hasResult, hr], h⟩

/-- What a timeout resolves a cell with a fixed fallback to. -/
def Scene.timeout (v : Scene) (p : Payload) : Resolution :=
  (Resolution.ofFallback? p).getD
    (.error (Payload.ofFailure (.requestTimeout v.request.timeoutMs)))

/-- The timeout of a request that waits resolves its cell, with the fallback if there is one, and
completes the request. -/
theorem Activation.plays_timeOut (hq : ∀ i, ∃ d, respond i = .returned d) (hv : v.IsWaiting c q)
    {p : Payload} (hf : v.cell.fallback = .fixed p) :
    ∃ n ≤ 32, Activation.Plays respond c q n v (Call.timeOut q).activation
      (Scene.settled { v with request := { v.request with timedOut := true } } (v.timeout p))
      ⟨.ended (.returned .unit), []⟩ := by
  have hv' : Scene.IsWaiting { v with request := { v.request with timedOut := true } } c q :=
    ⟨⟨hv.onTimeout, hv.onCompletion, hv.cell, hv.interceptors, hv.dispatch, hv.listener⟩,
      hv.result, hv.expired, hv.handler, hv.completed, hv.resolution⟩
  have hbefore {k : Nat} {v' : Scene} {a : Activation}
      (h : Activation.Plays respond c q k { v with request := { v.request with timedOut := true } }
        ⟨.ready (.cell c (.settle p)), [.request q (.timeoutHook [])]⟩ v' a) :
      Activation.Plays respond c q (k + 5) v (Call.timeOut q).activation v' a :=
    .point (plays_checkTimeout hv.completed) (.point (plays_markTimeout hv.interceptors)
      (.point (plays_timeoutHooks []) (.point (plays_timeoutCallback hv.onTimeout)
        (.point (plays_fallback hf) h))))
  rw [Scene.timeout]
  cases hp : Resolution.ofFallback? p with
  | some r =>
    have hresolve := (Activation.plays_resolve hq hv' r
      [.answer (.flag false), .request q (.timeoutHook [])]).trans
        (.resume (fun _ _ => rfl) (.resume (fun _ _ => rfl)
          (.point (plays_completeUndelivered hv.cell rfl) (.refl _ _))))
    exact ⟨30, by decide, hbefore (.point (plays_settle hp) hresolve)⟩
  | none =>
    have hresolve := (Activation.plays_resolve hq hv'
      (.error (Payload.ofFailure (.requestTimeout v.request.timeoutMs)))
      [.request q .settled]).trans
        (.resume (fun _ _ => rfl)
          (.point (plays_completeUndelivered hv.cell rfl) (.refl _ _)))
    exact ⟨32, by decide, hbefore (.point (plays_settleNone hp) (.resume (fun _ _ => rfl)
      (.point plays_timeoutHooksEnd (.point (plays_timeoutDefault hv.cell hv.result) hresolve))))⟩

end Scenes

end Rendezvous
