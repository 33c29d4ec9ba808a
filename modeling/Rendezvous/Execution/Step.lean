import Rendezvous.Execution.Point

/-!
# Steps

What happens at each program point, and how a frame goes on with the outcome it waited for.

User code is called in one way only, and its failures are contained in one way only: an ordinary
failure is noted and the code around the call goes on, an escaping one ends that code as well.

## Main definitions

* `Next` and `Effect`: the result of a step.
* `contain`: how the outcome of user code is taken.
* `CellPoint.step`, `RequestPoint.step`, `CoordinatorPoint.step` and `Point.step`.
* `CellFrame.resume`, `RequestFrame.resume` and `Frame.resume`.
-/

namespace Rendezvous

/-- How execution goes on after a step. -/
inductive Next where
  /-- At another point of the same call. -/
  | goto (p : Point)
  /-- At the first point of a callee, with a frame for its outcome. -/
  | call (f : Frame) (p : Point)
  /-- In user code, with a frame for its outcome. -/
  | invoke (f : Frame) (i : Invocation)
  /-- In the caller. -/
  | finish (o : Outcome)

/-- The result of a step: the changed world, the way on, and what was noted. -/
structure Effect where
  world : World
  next : Next
  notices : List Notice := []

namespace Next

/-- Returns an answer. -/
def ret (a : Answer) : Next := .finish (.returned a)

/-- Raises a failure. -/
def fail (f : Failure) : Next := .finish (.raised f)

end Next

/-- Takes the outcome of user code that ran for a cell. An ordinary failure is noted and
execution goes on as `afterFailure` says; an escaping one is passed on. -/
def contain (w : World) (site : Site) (c : CellId) (error : Option String) (o : Outcome)
    (afterReturn : Answer → Next) (afterFailure : Next) : Effect :=
  match o with
  | .returned a => { world := w, next := afterReturn a }
  | .raised f =>
    if f.isOrdinary then
      { world := w, next := afterFailure
        notices := [.contained site (w.cell c).describe error f] }
    else { world := w, next := .fail f }

/-! ### Cells -/

/-- Puts a callback into a slot of a cell. -/
def Cell.setCallback (x : Cell) (slot : CallbackSlot) (id : Option CallbackId) : Cell :=
  match slot with
  | .timeout => { x with onTimeout := id }
  | .error => { x with onError := id }
  | .completion => { x with onCompletion := id }

/-- The answer to a question that takes one look. -/
def Cell.answer (x : Cell) : Query → Answer
  | .hasResult => .flag x.hasResult
  | .isExpired => .flag x.expired
  | .isSetOrExpired => .flag x.isSetOrExpired
  | .getResult => .payload (x.getResult.getD .null)
  | .resolution => .resolution x.result

/-- The step at a point of a cell. -/
def CellPoint.step (w : World) (c : CellId) : CellPoint → Effect
  | .checkRegister h =>
    { world := w
      next := if (w.cell c).expired then .ret .unit else .goto (.cell c (.register h)) }
  | .register h =>
    let (x, what) := (w.cell c).register h
    { world := w.setCell c x
      next := match what with
        | .ignored | .stored => .ret .unit
        | .deliver r => .goto (.cell c (.deliver h r .unit)) }
  | .checkResult r =>
    { world := w
      next := if (w.cell c).hasResult then .ret (.flag false)
        else .goto (.cell c (.checkExpired r)) }
  | .checkExpired r =>
    { world := w
      next := if (w.cell c).expired then .ret (.flag false) else .goto (.cell c (.assign r)) }
  | .assign r =>
    let (x, what) := (w.cell c).assign r
    { world := w.setCell c x
      next := match what with
        | .rejected => .ret (.flag false)
        | .accepted none => .ret (.flag true)
        | .accepted (some h) => .goto (.cell c (.deliver h r (.flag true))) }
  | .deliver h r a =>
    { world := w
      next := match h with
        | .callback id =>
          .invoke (.cell c (.delivered a)) ⟨id, .handler, some (.resolution r)⟩
        | .request q => .call (.cell c (.delivered a)) (.request q (.record r)) }
  | .timeoutCallback =>
    { world := w
      next := match (w.cell c).onTimeout with
        | some id => .invoke (.cell c .timeoutCallback) ⟨id, .onTimeout, none⟩
        | none => .goto (.cell c .fallback) }
  | .fallback =>
    { world := w
      next := match (w.cell c).fallback with
        | .fixed p => .goto (.cell c (.settle p))
        | .computed id => .invoke (.cell c .fallback) ⟨id, .factory, none⟩ }
  | .settle p =>
    { world := w
      next := match Resolution.ofFallback? p with
        | none => .ret (.flag true)
        | some r => .call (.answer (.flag false)) (.cell c (.checkResult r)) }
  | .errorCallback e =>
    { world := w
      next := match (w.cell c).onError with
        | some id => .invoke (.cell c (.errorCallback e)) ⟨id, .onError, some (.payload e)⟩
        | none => .goto (.cell c (.settleError e)) }
  | .settleError e =>
    { world := w, next := .call (.answer (.flag false)) (.cell c (.checkResult (.error e))) }
  | .expire =>
    let (x, first) := (w.cell c).expire
    { world := w.setCell c x
      next := if first then .goto (.cell c .completionCallback) else .ret .unit }
  | .completionCallback =>
    { world := w
      next := match (w.cell c).onCompletion with
        | some id => .invoke (.cell c .completionCallback) ⟨id, .onCompletion, none⟩
        | none => .ret .unit }
  | .setCallback slot id =>
    { world := w.modifyCell c (·.setCallback slot id), next := .ret .unit }
  | .ask .isSetOrExpired =>
    { world := w
      next := if (w.cell c).hasResult then .ret (.flag true) else .goto (.cell c .askExpired) }
  | .ask q => { world := w, next := .ret ((w.cell c).answer q) }
  | .askExpired => { world := w, next := .ret (.flag (w.cell c).expired) }

/-- How the code of a cell goes on with an outcome. -/
def CellFrame.resume (w : World) (c : CellId) (o : Outcome) : CellFrame → Effect
  | .delivered a => contain w .handler c none o (fun _ => .ret a) (.ret a)
  | .timeoutCallback =>
    contain w .timeoutCallback c none o (fun _ => .goto (.cell c .fallback))
      (.goto (.cell c .fallback))
  | .fallback =>
    contain w .fallback c none o
      (fun a => match a with
        | .payload p => .goto (.cell c (.settle p))
        | _ => .ret (.flag true))
      (.ret (.flag true))
  | .errorCallback e =>
    contain w .errorCallback c (some e.display) o (fun _ => .goto (.cell c (.settleError e)))
      (.goto (.cell c (.settleError e)))
  | .completionCallback => contain w .completionCallback c none o (fun _ => .ret .unit) (.ret .unit)

/-! ### Requests -/

/-- The step at a point of a request. -/
def RequestPoint.step (w : World) (q : RequestId) : RequestPoint → Effect
  | .arm =>
    let x := w.request q
    if x.timeoutMs ≤ 0 then { world := w, next := .goto (.request q .attach) }
    else if w.clock.Overflows x.timeoutMs.toNat then
      { world := w, next := .fail .timeoutOverflow }
    else { world := w.arm q, next := .goto (.request q .attach) }
  | .attach =>
    { world := w, next := .goto (.cell (w.request q).cell (.checkRegister (.request q))) }
  | .record r =>
    { world := w.modifyRequest q fun x => { x with resolution := x.resolution.or (some r) }
      next := .goto (.request q (.dispatch r)) }
  | .dispatch r =>
    { world := w
      next := match (w.request q).dispatch with
        | some id => .invoke (.request q .dispatched) ⟨id, .dispatch, some (.resolution r)⟩
        | none => .call (.outcome (.raised .nothingToCall)) (.request q .complete) }
  | .checkTimeout =>
    { world := w
      next := if (w.request q).completed then .ret .unit else .goto (.request q .markTimeout) }
  | .markTimeout =>
    let x := w.request q
    { world := w.setRequest q { x with timedOut := true }
      next := .goto (.request q (.timeoutHooks x.interceptors))
      notices := [.timedOut (w.cell x.cell).describe x.timeoutMs] }
  | .timeoutHooks rest =>
    { world := w
      next := match rest with
        | [] => .goto (.request q .timeoutDefault)
        | .hooks c :: rest => .call (.request q (.timeoutHook rest)) (.cell c .timeoutCallback)
        | .custom id _ _ :: rest =>
          .invoke (.request q (.timeoutHook rest)) ⟨id, .timeout, none⟩ }
  | .timeoutDefault =>
    let x := w.request q
    { world := w
      next := if (w.cell x.cell).hasResult then .goto (.request q .completeUndelivered)
        else .call (.request q .settled) (.cell x.cell
          (.checkResult (.error (Payload.ofFailure (.requestTimeout x.timeoutMs))))) }
  | .checkFail e =>
    { world := w
      next := if (w.request q).completed then .ret .unit else .goto (.request q (.noteFail e)) }
  | .noteFail e =>
    let x := w.request q
    { world := w
      next := .goto (.request q (.errorHooks e x.interceptors))
      notices := [.failed (w.cell x.cell).describe e.display] }
  | .errorHooks e rest =>
    { world := w
      next := match rest with
        | [] => .goto (.request q (.errorDefault e))
        | .hooks c :: rest => .call (.request q (.errorHook e rest)) (.cell c (.errorCallback e))
        | .custom _ id _ :: rest =>
          .invoke (.request q (.errorHook e rest)) ⟨id, .error, some (.payload e)⟩ }
  | .errorDefault e =>
    let c := (w.request q).cell
    { world := w
      next := if (w.cell c).hasResult then .goto (.request q .completeUndelivered)
        else .call (.request q .settled) (.cell c (.checkResult (.error e))) }
  | .completeUndelivered =>
    { world := w
      next := if (w.cell (w.request q).cell).hasResult then .ret .unit
        else .goto (.request q .complete) }
  | .checkAbandon =>
    { world := w
      next := if (w.request q).completed then .ret .unit else .goto (.request q .noteAbandon) }
  | .noteAbandon =>
    { world := w
      next := .goto (.request q .complete)
      notices := [.abandoned (w.cell (w.request q).cell).describe] }
  | .complete =>
    if (w.request q).completed then { world := w, next := .ret .unit }
    else
      { world := w.modifyRequest q fun x => { x with completed := true }
        next := .goto (.request q .cancelTimer) }
  | .cancelTimer =>
    { world := w.cancel q
      next := .goto (.request q (.completionHooks (w.request q).interceptors.reverse)) }
  | .completionHooks rest =>
    { world := w
      next := match rest with
        | [] => .goto (.request q .tellListener)
        | .hooks c :: rest => .call (.request q (.completionHook rest)) (.cell c .expire)
        | .custom _ _ id :: rest =>
          .invoke (.request q (.completionHook rest)) ⟨id, .completion, none⟩ }
  | .tellListener =>
    match (w.request q).listener with
    | .coordinator k =>
      { world := w, next := .call (.request q .told) (.coordinator k (.retire q)) }
    | .announcement name =>
      { world := w, next := .goto (.request q .release), notices := [.finished name] }
  | .release =>
    { world := w.modifyRequest q fun x => { x with released := true }, next := .ret .unit }
  | .await => { world := w, next := .goto (.request q .collect) }
  | .collect => { world := w, next := .ret (.resolution (w.request q).resolution) }

/-- How the code of a request goes on with an outcome. -/
def RequestFrame.resume (w : World) (q : RequestId) (o : Outcome) : RequestFrame → Effect
  | .dispatched => { world := w, next := .call (.outcome o) (.request q .complete) }
  | .timeoutHook rest =>
    contain w .timeoutInterceptor (w.request q).cell none o
      (fun a => .goto (.request q (if a.isFalse then .completeUndelivered else .timeoutHooks rest)))
      (.goto (.request q .completeUndelivered))
  | .errorHook e rest =>
    contain w .errorInterceptor (w.request q).cell none o
      (fun a => .goto (.request q (if a.isFalse then .completeUndelivered else .errorHooks e rest)))
      (.goto (.request q .completeUndelivered))
  | .completionHook rest =>
    contain w .completionInterceptor (w.request q).cell none o
      (fun _ => .goto (.request q (.completionHooks rest)))
      (.goto (.request q (.completionHooks rest)))
  | .settled =>
    { world := w
      next := match o with
        | .returned _ => .goto (.request q .completeUndelivered)
        | .raised f => .fail f }
  | .told =>
    { world := w
      next := match o with
        | .returned _ => .goto (.request q .release)
        | .raised f => .fail f }

/-! ### Coordinators -/

/-- The request that a coordinator makes for a cell with its next number. -/
def Coordinator.newRequest (x : Coordinator) (k : CoordinatorId) (c : CellId) (cell : Cell)
    (dispatch : Option CallbackId) (extra : List Interceptor) : Request :=
  { cell := c
    dispatch
    interceptors := .hooks c :: extra
    timeoutMs := cell.timeoutMs.getD x.settings.defaultTimeoutMs
    timerName := x.settings.timerPrefix ++ "-" ++ toString (x.drawn + 1)
    listener := .coordinator k }

/-- The step at a point of a coordinator. -/
def CoordinatorPoint.step (w : World) (k : CoordinatorId) : CoordinatorPoint → Effect
  | .checkStart c dispatch extra =>
    { world := w
      next := if (w.cell c).expired then .fail (.expiredCell (w.cell c).describe)
        else .goto (.coordinator k (.draw c dispatch extra)) }
  | .draw c dispatch extra =>
    let x := w.coordinator k
    let (w, q) := (w.setCoordinator k { x with drawn := x.drawn + 1 }).addRequest
      (x.newRequest k c (w.cell c) dispatch extra)
    { world := w, next := .goto (.coordinator k (.activate q)) }
  | .activate q =>
    let x := w.coordinator k
    let c := (w.request q).cell
    if x.active.contains c then
      { world := w, next := .fail (.cellInProcess (w.cell c).describe) }
    else
      { world := w.setCoordinator k { x with active := x.active.put c q }
        next := .goto (.coordinator k (.noteStart q)) }
  | .noteStart q =>
    let x := w.request q
    { world := w
      next := .call (.answer (.request q)) (.request q .arm)
      notices := [.started (w.cell x.cell).describe x.timeoutMs] }
  | .abandonAll =>
    let pending := (w.coordinator k).active.values
    { world := w, next := .goto (.coordinator k (.abandonEach pending.length pending)) }
  | .abandonEach total rest =>
    { world := w
      next := match rest with
        | [] => .ret (.count total)
        | q :: rest => .call (.abandoning k total rest) (.request q .checkAbandon) }
  | .retire q =>
    let x := w.coordinator k
    let c := (w.request q).cell
    { world :=
        if x.active.find? c = some q then w.setCoordinator k { x with active := x.active.erase c }
        else w
      next := .ret .unit }
  | .countActive => { world := w, next := .ret (.count (w.coordinator k).active.size) }

/-! ### All objects -/

/-- The step at a point. -/
def Point.step (w : World) : Point → Effect
  | .cell c p => p.step w c
  | .request q p => p.step w q
  | .coordinator k p => p.step w k

/-- Whether the step at a point can be taken; only a wait can be held up. -/
def Point.isEnabled (w : World) : Point → Bool
  | .request q .await => (w.request q).released
  | _ => true

/-- How a frame goes on with an outcome. -/
def Frame.resume (w : World) (o : Outcome) : Frame → Effect
  | .cell c f => f.resume w c o
  | .request q f => f.resume w q o
  | .abandoning k total rest =>
    { world := w
      next := match o with
        | .returned _ => .goto (.coordinator k (.abandonEach total rest))
        | .raised f => .fail f }
  | .answer a =>
    { world := w
      next := match o with
        | .returned _ => .ret a
        | .raised f => .fail f }
  | .outcome before =>
    { world := w
      next := match o with
        | .returned _ => .finish before
        | .raised f => .fail f }

end Rendezvous
