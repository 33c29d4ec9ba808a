import Rendezvous.Execution.Activation

/-!
# Where control goes

The points of a call form a graph. `Point.Way` has one constructor for each edge from a point to
another point or into user code, with what the step has seen, and `Frame.Way` has one for each edge
from a frame. How a decision came about is then a matter of cases on the edges that lead to it.

## Main definitions

* `Next.point?`, `Next.frame?`: the point and the frame with which execution goes on.
* `Outcome.IsPlain`: an outcome that brings no request and no failure that escapes.
* `Frame.carried?`: the outcome with which a frame ends.
* `Call.Enters`: the points at which calls start.
* `Point.Way` and `Frame.Way`: the edges.

## Main results

* `Call.enters_of_control`, `Point.way_step`, `Frame.way_resume`: execution starts at these points
  and follows the edges.
-/

namespace Rendezvous

/-- The point at which execution goes on, if it goes on at a point. -/
def Next.point? : Next → Option Point
  | .goto p => some p
  | .call _ p => some p
  | .invoke .. => none
  | .finish _ => none

/-- The frame with which execution goes on, if it waits for an outcome. -/
def Next.frame? : Next → Option Frame
  | .call f _ => some f
  | .invoke f _ => some f
  | .goto _ => none
  | .finish _ => none

theorem Activation.control_follow {frames : List Frame} {n : Next} {p : Point} :
    (Activation.follow frames n).control = .ready p ↔ n.point? = some p := by
  cases n <;> simp [Activation.follow, Next.point?]

theorem Activation.control_follow_eq_ended {frames : List Frame} {n : Next} {o : Outcome} :
    (Activation.follow frames n).control = .ended o ↔ n = .finish o := by
  cases n <;> simp [Activation.follow]

theorem Activation.mem_frames_follow {frames : List Frame} {n : Next} {f : Frame} :
    f ∈ (Activation.follow frames n).frames ↔ n.frame? = some f ∨ f ∈ frames := by
  cases n <;> simp [Activation.follow, Next.frame?, eq_comm]

/-- Whether an outcome brings no request and no failure that escapes. -/
def Outcome.IsPlain : Outcome → Prop
  | .returned (.request _) => False
  | .returned _ => True
  | .raised f => f.isOrdinary = true

/-- The outcome with which a frame ends in place of the one that it waits for. -/
def Frame.carried? : Frame → Option Outcome
  | .cell _ (.delivered a) => some (.returned a)
  | .answer a => some (.returned a)
  | .outcome o => some o
  | _ => none

/-- The points at which calls start. -/
inductive Call.Enters : Call → Point → Prop
  | setResult (c : CellId) (v : Payload) :
    Enters (.setResult c v) (.cell c (.checkResult (.value v)))
  | setError (c : CellId) (e : Payload) :
    Enters (.setError c e) (.cell c (.checkResult (.error e)))
  | setHandler (c : CellId) (id : CallbackId) :
    Enters (.setHandler c (some id)) (.cell c (.checkRegister (.callback id)))
  | setCallback (c : CellId) (slot : CallbackSlot) (id : Option CallbackId) :
    Enters (.setCallback c slot id) (.cell c (.setCallback slot id))
  | ask (c : CellId) (q : Query) : Enters (.ask c q) (.cell c (.ask q))
  | handleTimeout (c : CellId) : Enters (.handleTimeout c) (.cell c .timeoutCallback)
  | handleError (c : CellId) (e : Payload) :
    Enters (.handleError c e) (.cell c (.errorCallback e))
  | afterCompletion (c : CellId) : Enters (.afterCompletion c) (.cell c .expire)
  | start (k : CoordinatorId) (c : CellId) (d : Option CallbackId) (extra : List Interceptor) :
    Enters (.start k c d extra) (.coordinator k (.checkStart c d extra))
  | abandonAll (k : CoordinatorId) : Enters (.abandonAll k) (.coordinator k .abandonAll)
  | countActive (k : CoordinatorId) : Enters (.countActive k) (.coordinator k .countActive)
  | begin (q : RequestId) : Enters (.begin q) (.request q .arm)
  | timeOut (q : RequestId) : Enters (.timeOut q) (.request q .checkTimeout)
  | fail (q : RequestId) (e : Payload) : Enters (.fail q e) (.request q (.checkFail e))
  | abandon (q : RequestId) : Enters (.abandon q) (.request q .checkAbandon)
  | wait (q : RequestId) : Enters (.wait q) (.request q .await)

theorem Call.enters_of_control {c : Call} {p : Point} (h : c.control = .ready p) : c.Enters p := by
  rcases c with _ | _ | ⟨_, _ | _⟩ | _ | _ | _ | _ | _ | _ | _ | _ | _ | _ | _ | _ | _ <;>
    cases h <;> constructor

/-- A call that is over where it starts is a registration without a handler. -/
theorem Call.eq_of_control {c : Call} {o : Outcome} (h : c.control = .ended o) :
    ∃ cell, c = .setHandler cell none ∧ o = .raised .handlerRequired := by
  rcases c with _ | _ | ⟨cell, _ | _⟩ | _ | _ | _ | _ | _ | _ | _ | _ | _ | _ | _ | _ | _ <;>
    cases h
  exact ⟨cell, rfl, rfl⟩

/-- The edges from a point. Every point may also end its code. -/
inductive Point.Way (w : World) : Point → Next → Prop
  | finish (p : Point) (o : Outcome) (ho : o.IsPlain) : Way w p (.finish o)
  | checkRegister (c : CellId) (h : Handler) (he : (w.cell c).expired = false) :
    Way w (.cell c (.checkRegister h)) (.goto (.cell c (.register h)))
  | register (c : CellId) (h : Handler) (r : Resolution)
      (hr : ((w.cell c).register h).2 = .deliver r) :
    Way w (.cell c (.register h)) (.goto (.cell c (.deliver h r .unit)))
  | checkResult (c : CellId) (r : Resolution) (hr : (w.cell c).hasResult = false) :
    Way w (.cell c (.checkResult r)) (.goto (.cell c (.checkExpired r)))
  | checkExpired (c : CellId) (r : Resolution) (he : (w.cell c).expired = false) :
    Way w (.cell c (.checkExpired r)) (.goto (.cell c (.assign r)))
  | assign (c : CellId) (h : Handler) (r : Resolution)
      (hr : ((w.cell c).assign r).2 = .accepted (some h)) :
    Way w (.cell c (.assign r)) (.goto (.cell c (.deliver h r (.flag true))))
  | deliverCallback (c : CellId) (id : CallbackId) (r : Resolution) (a : Answer) :
    Way w (.cell c (.deliver (.callback id) r a))
      (.invoke (.cell c (.delivered a)) ⟨id, .handler, some (.resolution r)⟩)
  | deliverRequest (c : CellId) (q : RequestId) (r : Resolution) (a : Answer) :
    Way w (.cell c (.deliver (.request q) r a))
      (.call (.cell c (.delivered a)) (.request q (.record r)))
  | timeoutCallback (c : CellId) (id : CallbackId) :
    Way w (.cell c .timeoutCallback) (.invoke (.cell c .timeoutCallback) ⟨id, .onTimeout, none⟩)
  | noTimeoutCallback (c : CellId) : Way w (.cell c .timeoutCallback) (.goto (.cell c .fallback))
  | fixedFallback (c : CellId) (p : Payload) :
    Way w (.cell c .fallback) (.goto (.cell c (.settle p)))
  | computedFallback (c : CellId) (id : CallbackId) :
    Way w (.cell c .fallback) (.invoke (.cell c .fallback) ⟨id, .factory, none⟩)
  | settle (c : CellId) (p : Payload) (r : Resolution) :
    Way w (.cell c (.settle p)) (.call (.answer (.flag false)) (.cell c (.checkResult r)))
  | errorCallback (c : CellId) (e : Payload) (id : CallbackId) :
    Way w (.cell c (.errorCallback e))
      (.invoke (.cell c (.errorCallback e)) ⟨id, .onError, some (.payload e)⟩)
  | noErrorCallback (c : CellId) (e : Payload) :
    Way w (.cell c (.errorCallback e)) (.goto (.cell c (.settleError e)))
  | settleError (c : CellId) (e : Payload) :
    Way w (.cell c (.settleError e))
      (.call (.answer (.flag false)) (.cell c (.checkResult (.error e))))
  | expire (c : CellId) (he : (w.cell c).expired = false) :
    Way w (.cell c .expire) (.goto (.cell c .completionCallback))
  | completionCallback (c : CellId) (id : CallbackId) :
    Way w (.cell c .completionCallback)
      (.invoke (.cell c .completionCallback) ⟨id, .onCompletion, none⟩)
  | ask (c : CellId) : Way w (.cell c (.ask .isSetOrExpired)) (.goto (.cell c .askExpired))
  | arm (q : RequestId) (h : (w.request q).timeoutMs ≤ 0 ∨
      ¬w.clock.Overflows (w.request q).timeoutMs.toNat) :
    Way w (.request q .arm) (.goto (.request q .attach))
  | attach (q : RequestId) (c : CellId) (hc : (w.request q).cell = c) :
    Way w (.request q .attach) (.goto (.cell c (.checkRegister (.request q))))
  | record (q : RequestId) (r : Resolution) :
    Way w (.request q (.record r)) (.goto (.request q (.dispatch r)))
  | dispatch (q : RequestId) (r : Resolution) (id : CallbackId) :
    Way w (.request q (.dispatch r))
      (.invoke (.request q .dispatched) ⟨id, .dispatch, some (.resolution r)⟩)
  | noDispatch (q : RequestId) (r : Resolution) :
    Way w (.request q (.dispatch r))
      (.call (.outcome (.raised .nothingToCall)) (.request q .complete))
  | checkTimeout (q : RequestId) (h : (w.request q).completed = false) :
    Way w (.request q .checkTimeout) (.goto (.request q .markTimeout))
  | markTimeout (q : RequestId) (rest : List Interceptor) (h : (w.request q).interceptors = rest) :
    Way w (.request q .markTimeout) (.goto (.request q (.timeoutHooks rest)))
  | timeoutHooksEnd (q : RequestId) :
    Way w (.request q (.timeoutHooks [])) (.goto (.request q .timeoutDefault))
  | timeoutHooksCell (q : RequestId) (c : CellId) (rest : List Interceptor) :
    Way w (.request q (.timeoutHooks (.hooks c :: rest)))
      (.call (.request q (.timeoutHook rest)) (.cell c .timeoutCallback))
  | timeoutHooksCustom (q : RequestId) (i j k : CallbackId) (rest : List Interceptor) :
    Way w (.request q (.timeoutHooks (.custom i j k :: rest)))
      (.invoke (.request q (.timeoutHook rest)) ⟨i, .timeout, none⟩)
  | timeoutHasResult (q : RequestId) :
    Way w (.request q .timeoutDefault) (.goto (.request q .completeUndelivered))
  | timeoutDefault (q : RequestId) (c : CellId) (r : Resolution) (hc : (w.request q).cell = c) :
    Way w (.request q .timeoutDefault) (.call (.request q .settled) (.cell c (.checkResult r)))
  | checkFail (q : RequestId) (e : Payload) (h : (w.request q).completed = false) :
    Way w (.request q (.checkFail e)) (.goto (.request q (.noteFail e)))
  | noteFail (q : RequestId) (e : Payload) (rest : List Interceptor)
      (h : (w.request q).interceptors = rest) :
    Way w (.request q (.noteFail e)) (.goto (.request q (.errorHooks e rest)))
  | errorHooksEnd (q : RequestId) (e : Payload) :
    Way w (.request q (.errorHooks e [])) (.goto (.request q (.errorDefault e)))
  | errorHooksCell (q : RequestId) (e : Payload) (c : CellId) (rest : List Interceptor) :
    Way w (.request q (.errorHooks e (.hooks c :: rest)))
      (.call (.request q (.errorHook e rest)) (.cell c (.errorCallback e)))
  | errorHooksCustom (q : RequestId) (e : Payload) (i j k : CallbackId)
      (rest : List Interceptor) :
    Way w (.request q (.errorHooks e (.custom i j k :: rest)))
      (.invoke (.request q (.errorHook e rest)) ⟨j, .error, some (.payload e)⟩)
  | errorHasResult (q : RequestId) (e : Payload) :
    Way w (.request q (.errorDefault e)) (.goto (.request q .completeUndelivered))
  | errorDefault (q : RequestId) (e : Payload) (c : CellId) (hc : (w.request q).cell = c) :
    Way w (.request q (.errorDefault e))
      (.call (.request q .settled) (.cell c (.checkResult (.error e))))
  | completeUndelivered (q : RequestId)
      (h : (w.cell (w.request q).cell).hasResult = false) :
    Way w (.request q .completeUndelivered) (.goto (.request q .complete))
  | checkAbandon (q : RequestId) (h : (w.request q).completed = false) :
    Way w (.request q .checkAbandon) (.goto (.request q .noteAbandon))
  | noteAbandon (q : RequestId) : Way w (.request q .noteAbandon) (.goto (.request q .complete))
  | complete (q : RequestId) (h : (w.request q).completed = false) :
    Way w (.request q .complete) (.goto (.request q .cancelTimer))
  | cancelTimer (q : RequestId) (rest : List Interceptor)
      (h : (w.request q).interceptors.reverse = rest) :
    Way w (.request q .cancelTimer) (.goto (.request q (.completionHooks rest)))
  | completionHooksEnd (q : RequestId) :
    Way w (.request q (.completionHooks [])) (.goto (.request q .tellListener))
  | completionHooksCell (q : RequestId) (c : CellId) (rest : List Interceptor) :
    Way w (.request q (.completionHooks (.hooks c :: rest)))
      (.call (.request q (.completionHook rest)) (.cell c .expire))
  | completionHooksCustom (q : RequestId) (i j k : CallbackId) (rest : List Interceptor) :
    Way w (.request q (.completionHooks (.custom i j k :: rest)))
      (.invoke (.request q (.completionHook rest)) ⟨k, .completion, none⟩)
  | tellCoordinator (q : RequestId) (k : CoordinatorId)
      (h : (w.request q).listener = .coordinator k) :
    Way w (.request q .tellListener) (.call (.request q .told) (.coordinator k (.retire q)))
  | tellNobody (q : RequestId) : Way w (.request q .tellListener) (.goto (.request q .release))
  | await (q : RequestId) : Way w (.request q .await) (.goto (.request q .collect))
  | checkStart (k : CoordinatorId) (c : CellId) (d : Option CallbackId)
      (extra : List Interceptor) (he : (w.cell c).expired = false) :
    Way w (.coordinator k (.checkStart c d extra)) (.goto (.coordinator k (.draw c d extra)))
  | draw (k : CoordinatorId) (c : CellId) (d : Option CallbackId) (extra : List Interceptor)
      (q : RequestId) (hq : q = w.requestCount) :
    Way w (.coordinator k (.draw c d extra)) (.goto (.coordinator k (.activate q)))
  | activate (k : CoordinatorId) (q : RequestId)
      (h : (w.coordinator k).active.contains (w.request q).cell = false) :
    Way w (.coordinator k (.activate q)) (.goto (.coordinator k (.noteStart q)))
  | noteStart (k : CoordinatorId) (q : RequestId) :
    Way w (.coordinator k (.noteStart q)) (.call (.answer (.request q)) (.request q .arm))
  | abandonAll (k : CoordinatorId) (rest : List RequestId)
      (h : (w.coordinator k).active.values = rest) :
    Way w (.coordinator k .abandonAll) (.goto (.coordinator k (.abandonEach rest.length rest)))
  | abandonEach (k : CoordinatorId) (n : Nat) (q : RequestId) (rest : List RequestId) :
    Way w (.coordinator k (.abandonEach n (q :: rest)))
      (.call (.abandoning k n rest) (.request q .checkAbandon))

namespace Point

variable (w : World)

private theorem way_cell (c : CellId) (p : CellPoint) : Way w (.cell c p) (p.step w c).next := by
  cases p with
  | checkRegister h =>
    simp only [CellPoint.step]
    split
    · exact .finish _ _ trivial
    · rename_i he
      exact .checkRegister c h (by simpa using he)
  | register h =>
    simp only [CellPoint.step]
    split
    · exact .finish _ _ trivial
    · exact .finish _ _ trivial
    · rename_i r hr
      exact .register c h r hr
  | checkResult r =>
    simp only [CellPoint.step]
    split
    · exact .finish _ _ trivial
    · rename_i hr
      exact .checkResult c r (by simpa using hr)
  | checkExpired r =>
    simp only [CellPoint.step]
    split
    · exact .finish _ _ trivial
    · rename_i he
      exact .checkExpired c r (by simpa using he)
  | assign r =>
    simp only [CellPoint.step]
    split
    · exact .finish _ _ trivial
    · exact .finish _ _ trivial
    · rename_i h hr
      exact .assign c h r hr
  | deliver h r a =>
    cases h with
    | callback id => exact .deliverCallback c id r a
    | request q => exact .deliverRequest c q r a
  | timeoutCallback =>
    simp only [CellPoint.step]
    split
    · exact .timeoutCallback c _
    · exact .noTimeoutCallback c
  | fallback =>
    simp only [CellPoint.step]
    split
    · exact .fixedFallback c _
    · exact .computedFallback c _
  | settle p =>
    simp only [CellPoint.step]
    split
    · exact .finish _ _ trivial
    · exact .settle c p _
  | errorCallback e =>
    simp only [CellPoint.step]
    split
    · exact .errorCallback c e _
    · exact .noErrorCallback c e
  | settleError e => exact .settleError c e
  | expire =>
    simp only [CellPoint.step, Cell.expire]
    split
    · exact .finish _ _ trivial
    · rename_i he
      exact .expire c (by simpa using he)
  | completionCallback =>
    simp only [CellPoint.step]
    split
    · exact .completionCallback c _
    · exact .finish _ _ trivial
  | setCallback slot id => exact .finish _ _ trivial
  | ask q =>
    cases q with
    | isSetOrExpired =>
      simp only [CellPoint.step]
      split
      · exact .finish _ _ trivial
      · exact .ask c
    | _ => exact .finish _ _ trivial
  | askExpired => exact .finish _ _ trivial

private theorem way_request (q : RequestId) (p : RequestPoint) :
    Way w (.request q p) (p.step w q).next := by
  cases p with
  | arm =>
    simp only [RequestPoint.step]
    split
    · rename_i h
      exact .arm q (.inl h)
    · split
      · exact .finish _ _ rfl
      · rename_i h
        exact .arm q (.inr h)
  | attach => exact .attach q _ rfl
  | record r => exact .record q r
  | dispatch r =>
    simp only [RequestPoint.step]
    split
    · exact .dispatch q r _
    · exact .noDispatch q r
  | checkTimeout =>
    simp only [RequestPoint.step]
    split
    · exact .finish _ _ trivial
    · rename_i h
      exact .checkTimeout q (by simpa using h)
  | markTimeout => exact .markTimeout q _ rfl
  | timeoutHooks rest =>
    rcases rest with _ | ⟨⟨c⟩ | ⟨i, j, k⟩, rest⟩
    · exact .timeoutHooksEnd q
    · exact .timeoutHooksCell q c rest
    · exact .timeoutHooksCustom q i j k rest
  | timeoutDefault =>
    simp only [RequestPoint.step]
    split
    · exact .timeoutHasResult q
    · exact .timeoutDefault q _ _ rfl
  | checkFail e =>
    simp only [RequestPoint.step]
    split
    · exact .finish _ _ trivial
    · rename_i h
      exact .checkFail q e (by simpa using h)
  | noteFail e => exact .noteFail q e _ rfl
  | errorHooks e rest =>
    rcases rest with _ | ⟨⟨c⟩ | ⟨i, j, k⟩, rest⟩
    · exact .errorHooksEnd q e
    · exact .errorHooksCell q e c rest
    · exact .errorHooksCustom q e i j k rest
  | errorDefault e =>
    simp only [RequestPoint.step]
    split
    · exact .errorHasResult q e
    · exact .errorDefault q e _ rfl
  | completeUndelivered =>
    simp only [RequestPoint.step]
    split
    · exact .finish _ _ trivial
    · rename_i h
      exact .completeUndelivered q (by simpa using h)
  | checkAbandon =>
    simp only [RequestPoint.step]
    split
    · exact .finish _ _ trivial
    · rename_i h
      exact .checkAbandon q (by simpa using h)
  | noteAbandon => exact .noteAbandon q
  | complete =>
    simp only [RequestPoint.step]
    split
    · exact .finish _ _ trivial
    · rename_i h
      exact .complete q (by simpa using h)
  | cancelTimer => exact .cancelTimer q _ rfl
  | completionHooks rest =>
    rcases rest with _ | ⟨⟨c⟩ | ⟨i, j, k⟩, rest⟩
    · exact .completionHooksEnd q
    · exact .completionHooksCell q c rest
    · exact .completionHooksCustom q i j k rest
  | tellListener =>
    simp only [RequestPoint.step]
    split
    · rename_i k h
      exact .tellCoordinator q k h
    · exact .tellNobody q
  | release => exact .finish _ _ trivial
  | await => exact .await q
  | collect => exact .finish _ _ trivial

private theorem way_coordinator (k : CoordinatorId) (p : CoordinatorPoint) :
    Way w (.coordinator k p) (p.step w k).next := by
  cases p with
  | checkStart c d extra =>
    simp only [CoordinatorPoint.step]
    split
    · exact .finish _ _ rfl
    · rename_i h
      exact .checkStart k c d extra (by simpa using h)
  | draw c d extra => exact .draw k c d extra _ rfl
  | activate q =>
    simp only [CoordinatorPoint.step]
    split
    · exact .finish _ _ rfl
    · rename_i h
      exact .activate k q (by simpa using h)
  | noteStart q => exact .noteStart k q
  | abandonAll => exact .abandonAll k _ rfl
  | abandonEach n rest =>
    cases rest with
    | nil => exact .finish _ _ trivial
    | cons q rest => exact .abandonEach k n q rest
  | retire q => exact .finish _ _ trivial
  | countActive => exact .finish _ _ trivial

/-- A step follows an edge from its point. -/
theorem way_step (p : Point) : Way w p (p.step w).next := by
  cases p with
  | cell c p => exact way_cell w c p
  | request q p => exact way_request w q p
  | coordinator k p => exact way_coordinator w k p

end Point

/-- The edges from a frame with the outcome it waited for. Every frame may also end its code, and
passes a failure on or ends with an outcome of its own. -/
inductive Frame.Way (w : World) : Frame → Outcome → Next → Prop
  | finish (f : Frame) (o o' : Outcome)
      (ho : (∃ e, o = .raised e ∧ o' = o) ∨ o'.IsPlain ∨ f.carried? = some o') :
    Way w f o (.finish o')
  | timeoutCallback (c : CellId) (o : Outcome) :
    Way w (.cell c .timeoutCallback) o (.goto (.cell c .fallback))
  | fallback (c : CellId) (p : Payload) :
    Way w (.cell c .fallback) (.returned (.payload p)) (.goto (.cell c (.settle p)))
  | errorCallback (c : CellId) (e : Payload) (o : Outcome) :
    Way w (.cell c (.errorCallback e)) o (.goto (.cell c (.settleError e)))
  | dispatched (q : RequestId) (o : Outcome) :
    Way w (.request q .dispatched) o (.call (.outcome o) (.request q .complete))
  | timeoutHookBreak (q : RequestId) (rest : List Interceptor) (o : Outcome) :
    Way w (.request q (.timeoutHook rest)) o (.goto (.request q .completeUndelivered))
  | timeoutHook (q : RequestId) (rest : List Interceptor) (o : Outcome) :
    Way w (.request q (.timeoutHook rest)) o (.goto (.request q (.timeoutHooks rest)))
  | errorHookBreak (q : RequestId) (e : Payload) (rest : List Interceptor) (o : Outcome) :
    Way w (.request q (.errorHook e rest)) o (.goto (.request q .completeUndelivered))
  | errorHook (q : RequestId) (e : Payload) (rest : List Interceptor) (o : Outcome) :
    Way w (.request q (.errorHook e rest)) o (.goto (.request q (.errorHooks e rest)))
  | completionHook (q : RequestId) (rest : List Interceptor) (o : Outcome) :
    Way w (.request q (.completionHook rest)) o (.goto (.request q (.completionHooks rest)))
  | settled (q : RequestId) (a : Answer) :
    Way w (.request q .settled) (.returned a) (.goto (.request q .completeUndelivered))
  | told (q : RequestId) (a : Answer) :
    Way w (.request q .told) (.returned a) (.goto (.request q .release))
  | abandoning (k : CoordinatorId) (n : Nat) (rest : List RequestId) (a : Answer) :
    Way w (.abandoning k n rest) (.returned a) (.goto (.coordinator k (.abandonEach n rest)))

namespace Frame

variable (w : World) (o : Outcome)

private theorem way_contain (f : Frame) (site : Site) (c : CellId) (e : Option String)
    (g : Answer → Next) (n : Next) (hg : ∀ a, o = .returned a → Way w f o (g a))
    (hn : Way w f o n) : Way w f o (contain w site c e o g n).next := by
  unfold contain
  split
  · exact hg _ rfl
  · split
    · exact hn
    · exact .finish _ _ _ (.inl ⟨_, rfl, rfl⟩)

private theorem way_cell (c : CellId) (f : CellFrame) :
    Way w (.cell c f) o (f.resume w c o).next := by
  cases f with
  | delivered a =>
    exact way_contain _ _ _ _ _ _ _ _ (fun _ _ => .finish _ _ _ (.inr (.inr rfl)))
      (.finish _ _ _ (.inr (.inr rfl)))
  | timeoutCallback =>
    exact way_contain _ _ _ _ _ _ _ _ (fun _ _ => .timeoutCallback c o) (.timeoutCallback c o)
  | fallback =>
    refine way_contain _ _ _ _ _ _ _ _ (fun a ha => ?_) (.finish _ _ _ (.inr (.inl trivial)))
    subst ha
    cases a with
    | payload p => exact .fallback c p
    | _ => exact .finish _ _ _ (.inr (.inl trivial))
  | errorCallback e =>
    exact way_contain _ _ _ _ _ _ _ _ (fun _ _ => .errorCallback c e o) (.errorCallback c e o)
  | completionCallback =>
    exact way_contain _ _ _ _ _ _ _ _ (fun _ _ => .finish _ _ _ (.inr (.inl trivial)))
      (.finish _ _ _ (.inr (.inl trivial)))

private theorem way_request (q : RequestId) (f : RequestFrame) :
    Way w (.request q f) o (f.resume w q o).next := by
  cases f with
  | dispatched => exact .dispatched q o
  | timeoutHook rest =>
    refine way_contain _ _ _ _ _ _ _ _ (fun a _ => ?_) (.timeoutHookBreak q rest o)
    cases a.isFalse
    · exact .timeoutHook q rest o
    · exact .timeoutHookBreak q rest o
  | errorHook e rest =>
    refine way_contain _ _ _ _ _ _ _ _ (fun a _ => ?_) (.errorHookBreak q e rest o)
    cases a.isFalse
    · exact .errorHook q e rest o
    · exact .errorHookBreak q e rest o
  | completionHook rest =>
    exact way_contain _ _ _ _ _ _ _ _ (fun _ _ => .completionHook q rest o)
      (.completionHook q rest o)
  | settled =>
    cases o with
    | returned a => exact .settled q a
    | raised f => exact .finish _ _ _ (.inl ⟨f, rfl, rfl⟩)
  | told =>
    cases o with
    | returned a => exact .told q a
    | raised f => exact .finish _ _ _ (.inl ⟨f, rfl, rfl⟩)

/-- A frame goes on along one of its edges. -/
theorem way_resume (f : Frame) : Way w f o (f.resume w o).next := by
  cases f with
  | cell c f => exact way_cell w o c f
  | request q f => exact way_request w o q f
  | abandoning k n rest =>
    cases o with
    | returned a => exact .abandoning k n rest a
    | raised f => exact .finish _ _ _ (.inl ⟨f, rfl, rfl⟩)
  | answer a =>
    cases o with
    | returned b => exact .finish _ _ _ (.inr (.inr rfl))
    | raised f => exact .finish _ _ _ (.inl ⟨f, rfl, rfl⟩)
  | outcome o' =>
    cases o with
    | returned b => exact .finish _ _ _ (.inr (.inr rfl))
    | raised f => exact .finish _ _ _ (.inl ⟨f, rfl, rfl⟩)

end Frame

end Rendezvous
