import Rendezvous.Proofs.Cells.Representation

/-!
# Payloads that take the place of others

Two runs that differ in the payloads of their setters only go the same way. What is held in them in
corresponding places is told by a relation `R` on payloads, of which nothing is assumed: two worlds,
points, calls or deeds correspond if they are the same but for the resolutions in them, and these
are both values or both errors with payloads that `R` relates. Since `R` need not be reflexive, a
payload that is put in place of another one, dropped or made up breaks the correspondence.

## Main definitions

* `Resolution.Corresponds`, `Cell.Corresponds`, `World.Corresponds`: for what a world holds.
* `Point.Corresponds`, `Next.Corresponds`, `Call.Corresponds`, `Activation.Corresponds`: for calls.

## Main results

* `Cell.Corresponds.hasResult`, `Cell.Corresponds.isSetOrExpired`, `Cell.Corresponds.describe`:
  what is asked of a cell without its payload.
* `Cell.Corresponds.register`, `Cell.Corresponds.assign`, `Cell.Corresponds.expire` and the lemmas
  of `World.Corresponds`: every change keeps the correspondence.
-/

namespace Rendezvous

variable (R : Payload → Payload → Prop)

/-! ### The correspondence -/

/-- Both are values or both are errors, with related payloads. -/
inductive Resolution.Corresponds : Resolution → Resolution → Prop
  | value {p p' : Payload} (h : R p p') : Corresponds (.value p) (.value p')
  | error {p p' : Payload} (h : R p p') : Corresponds (.error p) (.error p')

/-- The same cell, but for its resolution. -/
structure Cell.Corresponds (x x' : Cell) : Prop where
  result : Option.Rel (Resolution.Corresponds R) x.result x'.result
  rest : x' = { x with result := x'.result }

/-- The same request, but for the resolution that it was handed. -/
structure Request.Corresponds (x x' : Request) : Prop where
  resolution : Option.Rel (Resolution.Corresponds R) x.resolution x'.resolution
  rest : x' = { x with resolution := x'.resolution }

/-- The same coordinators, timers, clock and counts, with corresponding cells and requests. -/
structure World.Corresponds (w w' : World) : Prop where
  cell (c : CellId) : (w.cell c).Corresponds R (w'.cell c)
  request (q : RequestId) : (w.request q).Corresponds R (w'.request q)
  rest : w' = { w with cells := w'.cells, requests := w'.requests }

/-- The resolution that is handed on at a point. -/
def Point.resolution? : Point → Option Resolution
  | .cell _ (.checkResult r) | .cell _ (.checkExpired r) | .cell _ (.assign r)
  | .cell _ (.deliver _ r _) | .request _ (.record r) | .request _ (.dispatch r) => some r
  | _ => none

/-- The same point, but for the resolution that is handed on at it. -/
inductive Point.Corresponds : Point → Point → Prop
  | same (p : Point) (h : p.resolution? = none) : Corresponds p p
  | checkResult (c : CellId) {r r' : Resolution} (h : r.Corresponds R r') :
    Corresponds (.cell c (.checkResult r)) (.cell c (.checkResult r'))
  | checkExpired (c : CellId) {r r' : Resolution} (h : r.Corresponds R r') :
    Corresponds (.cell c (.checkExpired r)) (.cell c (.checkExpired r'))
  | assign (c : CellId) {r r' : Resolution} (h : r.Corresponds R r') :
    Corresponds (.cell c (.assign r)) (.cell c (.assign r'))
  | deliver (c : CellId) (handler : Handler) {r r' : Resolution} (h : r.Corresponds R r')
      (a : Answer) :
    Corresponds (.cell c (.deliver handler r a)) (.cell c (.deliver handler r' a))
  | record (q : RequestId) {r r' : Resolution} (h : r.Corresponds R r') :
    Corresponds (.request q (.record r)) (.request q (.record r'))
  | dispatch (q : RequestId) {r r' : Resolution} (h : r.Corresponds R r') :
    Corresponds (.request q (.dispatch r)) (.request q (.dispatch r'))

/-- What user code is given: corresponding resolutions, or the same reported error. -/
inductive Argument.Corresponds : Argument → Argument → Prop
  | resolution {r r' : Resolution} (h : r.Corresponds R r') :
    Corresponds (.resolution r) (.resolution r')
  | payload (e : Payload) : Corresponds (.payload e) (.payload e)

/-- The same call of user code, with corresponding arguments. -/
structure Invocation.Corresponds (i i' : Invocation) : Prop where
  callback : i'.callback = i.callback
  role : i'.role = i.role
  argument : Option.Rel (Argument.Corresponds R) i.argument i'.argument

/-- The same answer, but for a payload or a resolution in it. A cell without a resolution answers
in both runs that there is no payload. -/
inductive Answer.Corresponds : Answer → Answer → Prop
  | unit : Corresponds .unit .unit
  | flag (b : Bool) : Corresponds (.flag b) (.flag b)
  | count (n : Nat) : Corresponds (.count n) (.count n)
  | request (q : RequestId) : Corresponds (.request q) (.request q)
  | resolution {r r' : Option Resolution} (h : Option.Rel (Resolution.Corresponds R) r r') :
    Corresponds (.resolution r) (.resolution r')
  | payload {p p' : Payload} (h : R p p') : Corresponds (.payload p) (.payload p')
  | noPayload : Corresponds (.payload .null) (.payload .null)

/-- Corresponding answers, or the same failure. -/
inductive Outcome.Corresponds : Outcome → Outcome → Prop
  | returned {a a' : Answer} (h : a.Corresponds R a') : Corresponds (.returned a) (.returned a')
  | raised (f : Failure) : Corresponds (.raised f) (.raised f)

/-- The same way on, to corresponding places and with the same frame. -/
inductive Next.Corresponds : Next → Next → Prop
  | goto {p p' : Point} (h : p.Corresponds R p') : Corresponds (.goto p) (.goto p')
  | call (f : Frame) {p p' : Point} (h : p.Corresponds R p') :
    Corresponds (.call f p) (.call f p')
  | invoke (f : Frame) {i i' : Invocation} (h : i.Corresponds R i') :
    Corresponds (.invoke f i) (.invoke f i')
  | finish {o o' : Outcome} (h : o.Corresponds R o') : Corresponds (.finish o) (.finish o')

/-- The same call, but for the payload that it gives to a cell. -/
inductive Call.Corresponds : Call → Call → Prop
  | same (c : Call) (h : c.assigns? = none) : Corresponds c c
  | setResult (c : CellId) {p p' : Payload} (h : R p p') :
    Corresponds (.setResult c p) (.setResult c p')
  | setError (c : CellId) {p p' : Payload} (h : R p p') :
    Corresponds (.setError c p) (.setError c p')

/-- The same call in progress, standing at corresponding places. Only a call that is over may have
different payloads in its outcome. -/
inductive Activation.Corresponds : Activation → Activation → Prop
  | ready {p p' : Point} (h : p.Corresponds R p') (frames : List Frame) :
    Corresponds ⟨.ready p, frames⟩ ⟨.ready p', frames⟩
  | inside {i i' : Invocation} (h : i.Corresponds R i') (f : Frame) (frames : List Frame) :
    Corresponds ⟨.inside i, f :: frames⟩ ⟨.inside i', f :: frames⟩
  | ended (o : Outcome) (frames : List Frame) (h : frames ≠ []) :
    Corresponds ⟨.ended o, frames⟩ ⟨.ended o, frames⟩
  | finished {o o' : Outcome} (h : o.Corresponds R o') : Corresponds ⟨.ended o, []⟩ ⟨.ended o', []⟩

variable {R} {w w' : World}

theorem Resolution.Corresponds.isError {r r' : Resolution} (h : r.Corresponds R r') :
    r'.isError = r.isError := by
  cases h <;> rfl

theorem Resolution.Corresponds.payload {r r' : Resolution} (h : r.Corresponds R r') :
    R r.payload r'.payload := by
  cases h <;> assumption

/-! ### Cells and requests -/

namespace Cell.Corresponds

variable {x x' : Cell}

theorem result_eq (h : x.Corresponds R x') : (x.result = none ∧ x'.result = none) ∨
    ∃ r r', x.result = some r ∧ x'.result = some r' ∧ r.Corresponds R r' := by
  generalize hr : x.result = r, hr' : x'.result = r'
  have hrel : Option.Rel (Resolution.Corresponds R) r r' := hr ▸ hr' ▸ h.result
  cases hrel with
  | none => exact .inl ⟨rfl, rfl⟩
  | some h => exact .inr ⟨_, _, rfl, rfl, h⟩

theorem expired (h : x.Corresponds R x') : x'.expired = x.expired := by
  rw [h.rest]

theorem handler (h : x.Corresponds R x') : x'.handler = x.handler := by
  rw [h.rest]

theorem hasResult (h : x.Corresponds R x') : x'.hasResult = x.hasResult := by
  rcases h.result_eq with ⟨hr, hr'⟩ | ⟨r, r', hr, hr', -⟩ <;> simp [Cell.hasResult, hr, hr']

theorem isSetOrExpired (h : x.Corresponds R x') : x'.isSetOrExpired = x.isSetOrExpired := by
  rw [Cell.isSetOrExpired, Cell.isSetOrExpired, h.expired]
  exact congrArg (· || x.expired) h.hasResult

/-- Corresponding cells look the same in records. -/
theorem describe (h : x.Corresponds R x') : x'.describe = x.describe := by
  have hstate : x'.stateName = x.stateName := by
    rcases h.result_eq with ⟨hr, hr'⟩ | ⟨r, r', hr, hr', hrel⟩
    · simp [stateName, hr, hr']
    · simp [stateName, hr, hr', hrel.isError]
  rw [Cell.describe, hstate, h.rest]
  rfl

theorem answer (h : x.Corresponds R x') (q : Query) :
    (x.answer q).Corresponds R (x'.answer q) := by
  cases q with
  | hasResult =>
    rw [Cell.answer, Cell.answer, h.hasResult]
    exact .flag _
  | isExpired =>
    rw [Cell.answer, Cell.answer, h.expired]
    exact .flag _
  | isSetOrExpired =>
    rw [Cell.answer, Cell.answer, h.isSetOrExpired]
    exact .flag _
  | getResult =>
    rcases h.result_eq with ⟨hr, hr'⟩ | ⟨r, r', hr, hr', hrel⟩
    · simpa [Cell.answer, getResult, hr, hr'] using .noPayload
    · simpa [Cell.answer, getResult, hr, hr'] using .payload hrel.payload
  | resolution => exact .resolution h.result

theorem register (h : x.Corresponds R x') (g : Handler) :
    (x.register g).1.Corresponds R (x'.register g).1 := by
  cases he : x.expired with
  | true => simpa [Cell.register, he, h.expired] using h
  | false =>
    rcases h.result_eq with ⟨hr, hr'⟩ | ⟨r, r', hr, hr', -⟩
    · have hrest : x' = x := by
        rw [h.rest, hr', ← hr]
      subst hrest
      exact ⟨by simp [hr], rfl⟩
    · simpa [Cell.register, he, h.expired, hr, hr'] using h

theorem assign (h : x.Corresponds R x') {r r' : Resolution} (hr : r.Corresponds R r') :
    (x.assign r).1.Corresponds R (x'.assign r').1 := by
  cases hset : x.isSetOrExpired with
  | true => simpa [Cell.assign, hset, h.isSetOrExpired] using h
  | false =>
    simp only [Cell.assign, hset, h.isSetOrExpired]
    exact ⟨.some hr, by rw [h.rest]; rfl⟩

theorem expire (h : x.Corresponds R x') :
    x.expire.1.Corresponds R x'.expire.1 ∧ x'.expire.2 = x.expire.2 := by
  cases he : x.expired with
  | true => simpa [Cell.expire, he, h.expired] using h
  | false =>
    simp only [Cell.expire, he, h.expired]
    exact ⟨⟨h.result, by rw [h.rest]; rfl⟩, rfl⟩

theorem setCallback (h : x.Corresponds R x') (slot : CallbackSlot) (id : Option CallbackId) :
    (x.setCallback slot id).Corresponds R (x'.setCallback slot id) := by
  obtain ⟨hresult, hrest⟩ := h
  cases x'
  cases hrest
  cases slot <;> exact ⟨hresult, rfl⟩

end Cell.Corresponds

theorem Request.Corresponds.record {x x' : Request} (h : x.Corresponds R x') {r r' : Resolution}
    (hr : r.Corresponds R r') :
    Corresponds R { x with resolution := x.resolution.or (some r) }
      { x' with resolution := x'.resolution.or (some r') } := by
  obtain ⟨hresolution, hrest⟩ := h
  cases x'
  cases hrest
  refine ⟨?_, rfl⟩
  simp only at hresolution ⊢
  generalize x.resolution = before at hresolution ⊢
  cases hresolution with
  | none => exact .some hr
  | some h => exact .some h

/-! ### Worlds -/

namespace World.Corresponds

theorem coordinator (h : w.Corresponds R w') (k : CoordinatorId) :
    w'.coordinator k = w.coordinator k := by
  rw [h.rest]
  rfl

theorem requestCount (h : w.Corresponds R w') : w'.requestCount = w.requestCount := by
  rw [h.rest]

theorem timers (h : w.Corresponds R w') : w'.timers = w.timers := by
  rw [h.rest]

theorem clock (h : w.Corresponds R w') : w'.clock = w.clock := by
  rw [h.rest]

theorem describe (h : w.Corresponds R w') (c : CellId) :
    (w'.cell c).describe = (w.cell c).describe :=
  (h.cell c).describe

theorem request_eq (h : w.Corresponds R w') (q : RequestId) :
    w'.request q = { w.request q with resolution := (w'.request q).resolution } :=
  (h.request q).rest

theorem setCell (h : w.Corresponds R w') (c : CellId) {x x' : Cell} (hx : x.Corresponds R x') :
    (w.setCell c x).Corresponds R (w'.setCell c x') where
  cell d := by
    rw [World.cell_setCell, World.cell_setCell]
    split
    · exact hx
    · exact h.cell d
  request := h.request
  rest := by
    obtain ⟨-, -, hrest⟩ := h
    cases w'
    cases hrest
    rfl

theorem setRequest (h : w.Corresponds R w') (q : RequestId) {x x' : Request}
    (hx : x.Corresponds R x') : (w.setRequest q x).Corresponds R (w'.setRequest q x') where
  cell := h.cell
  request r := by
    rw [World.request_setRequest, World.request_setRequest]
    split
    · exact hx
    · exact h.request r
  rest := by
    obtain ⟨-, -, hrest⟩ := h
    cases w'
    cases hrest
    rfl

theorem setCoordinator (h : w.Corresponds R w') (k : CoordinatorId) (x : Coordinator) :
    (w.setCoordinator k x).Corresponds R (w'.setCoordinator k x) where
  cell := h.cell
  request := h.request
  rest := by
    obtain ⟨-, -, hrest⟩ := h
    cases w'
    cases hrest
    rfl

/-- The same change of what is the same in corresponding requests. -/
theorem modifyRequest (h : w.Corresponds R w') (q : RequestId) (g : Request → Request)
    (hresolution : ∀ x, (g x).resolution = x.resolution)
    (hrest : ∀ x r, g { x with resolution := r } = { g x with resolution := r }) :
    (w.modifyRequest q g).Corresponds R (w'.modifyRequest q g) := by
  refine h.setRequest q ⟨?_, ?_⟩
  · rw [hresolution, hresolution]
    exact (h.request q).resolution
  · rw [hresolution, ← hrest, ← h.request_eq q]

theorem addRequest (h : w.Corresponds R w') {x : Request} (hx : x.resolution = none) :
    (w.addRequest x).1.Corresponds R (w'.addRequest x).1 where
  cell := h.cell
  request q := by
    rw [World.request_addRequest, World.request_addRequest, h.requestCount]
    split
    · exact ⟨by simp [hx], rfl⟩
    · exact h.request q
  rest := by
    obtain ⟨-, -, hrest⟩ := h
    cases w'
    cases hrest
    rfl

theorem arm (h : w.Corresponds R w') (q : RequestId) : (w.arm q).Corresponds R (w'.arm q) where
  cell := h.cell
  request r := by
    have hcount : w'.timerCount = w.timerCount := by rw [h.rest]
    have hmodify := h.modifyRequest q (fun x => { x with timer := some w.timerCount })
      (fun _ => rfl) fun _ _ => rfl
    have harm (v : World) (hv : v.timerCount = w.timerCount) : (v.arm q).request r =
        (v.modifyRequest q fun x => { x with timer := some w.timerCount }).request r := by
      rw [World.request_arm, World.modifyRequest, World.request_setRequest, hv]
    rw [harm w rfl, harm w' hcount]
    exact hmodify.request r
  rest := by
    have hname : (w'.request q).timerName = (w.request q).timerName := by rw [h.request_eq q]
    have htimeout : (w'.request q).timeoutMs = (w.request q).timeoutMs := by rw [h.request_eq q]
    obtain ⟨-, -, hrest⟩ := h
    cases w'
    cases hrest
    simp only [World.arm, hname, htimeout]
    rfl

theorem cancel (h : w.Corresponds R w') (q : RequestId) :
    (w.cancel q).Corresponds R (w'.cancel q) where
  cell c := by simpa using h.cell c
  request r := by simpa using h.request r
  rest := by
    have htimer : (w'.request q).timer = (w.request q).timer := by rw [h.request_eq q]
    obtain ⟨-, -, hrest⟩ := h
    cases w'
    cases hrest
    simp only [World.cancel, htimer]
    split <;> rfl

theorem fire (h : w.Corresponds R w') (x : Timer) : (w.fire x).Corresponds R (w'.fire x) where
  cell := h.cell
  request := h.request
  rest := by
    obtain ⟨-, -, hrest⟩ := h
    cases w'
    cases hrest
    rfl

end World.Corresponds

/-- Worlds without resolutions correspond to themselves. -/
theorem World.IsNew.corresponds (hw : w.IsNew) : w.Corresponds R w where
  cell c := ⟨by simp [(hw.cell c).result], rfl⟩
  request q := ⟨by rw [hw.request_eq q]; exact .none, rfl⟩
  rest := rfl

end Rendezvous
