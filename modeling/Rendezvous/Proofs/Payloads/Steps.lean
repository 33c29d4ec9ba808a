import Rendezvous.Proofs.Payloads.Correspondence

/-!
# Steps that hand payloads on

Corresponding calls take corresponding steps. The library settles cells with payloads that no setter
was given: fallbacks, the errors that are reported to it, and its own timeouts. These are the same
in both runs and have to be related to themselves where they may be on their way to a cell; a world
or a call of which this holds is fair. The other thing that a call has to be is orderly about its
answers. A frame takes the same outcome in both runs, so an answer that carries a payload may arrive
only where a call ends, or come from user code, which answers the same in both.

## Main definitions

* `World.IsFair`, `Point.IsFair`, `Frame.IsFair`, `Activation.IsFair`: what may be held that is the
  same in both runs.
* `Effect.Corresponds`: the results of corresponding steps.

## Main results

* `Point.corresponds_step`: corresponding points of corresponding worlds take corresponding steps,
  and the same is noted.
* `Activation.IsFair.step`, `Activation.IsFair.resume`, `Activation.IsFair.answer`: calls stay fair.
* `Point.isBare_of_finish`, `Frame.isBare_of_finish`: which outcomes carry no payload.
-/

namespace Rendezvous

variable {R : Payload → Payload → Prop} {w w' : World} {p p' : Point} {f : Frame}
  {frames : List Frame} {o : Outcome}

/-! ### What is the same in both runs -/

/-- Whether an answer carries no payload. -/
def Answer.IsBare : Answer → Prop
  | .resolution _ | .payload _ => False
  | _ => True

/-- Whether an outcome carries no payload. -/
def Outcome.IsBare : Outcome → Prop
  | .returned a => a.IsBare
  | .raised _ => True

theorem Answer.corresponds_of_isBare {a : Answer} (h : a.IsBare) : a.Corresponds R a := by
  cases a with
  | resolution | payload => cases h
  | _ => constructor

theorem Outcome.corresponds_of_isBare (h : o.IsBare) : o.Corresponds R o := by
  cases o with
  | returned a => exact .returned (Answer.corresponds_of_isBare h)
  | raised f => exact .raised f

theorem Outcome.Corresponds.eq_of_isBare {o' : Outcome} (h : o.Corresponds R o') (hb : o.IsBare) :
    o' = o := by
  cases h with
  | returned h =>
    cases h with
    | resolution | payload | noPayload => cases hb
    | _ => rfl
  | raised f => rfl

variable (R) in
/-- What a cell may be settled with that no setter was given is related to itself: its fallback, and
the timeout of a request. -/
structure World.IsFair (w : World) : Prop where
  fallback (c : CellId) (p : Payload) (h : (w.cell c).fallback = .fixed p)
    (hp : p ≠ Payload.pending) : R p p
  timeout (q : RequestId) (hq : q < w.requestCount) :
    R (Payload.ofFailure (.requestTimeout (w.request q).timeoutMs))
      (Payload.ofFailure (.requestTimeout (w.request q).timeoutMs))

variable (R) in
/-- What a point may hold above these frames that is the same in both runs: a payload that may yet
settle a cell is related to itself. A question of the user is not asked by other code, and dispatch
is called for the code that delivers only. -/
def Point.IsFair (frames : List Frame) : Point → Prop
  | .cell _ (.settle p) => p ≠ Payload.pending → R p p
  | .cell _ (.errorCallback e) | .cell _ (.settleError e) | .request _ (.checkFail e)
  | .request _ (.noteFail e) | .request _ (.errorHooks e _) | .request _ (.errorDefault e) => R e e
  | .cell _ (.deliver _ _ a) => a.IsBare
  | .cell _ (.ask _) | .request _ .await | .request _ .collect => frames = []
  | .request _ (.record _) | .request _ (.dispatch _) => frames ≠ []
  | _ => True

variable (R) in
/-- The results of corresponding steps: the same is noted. -/
structure Effect.Corresponds (e e' : Effect) : Prop where
  world : e.world.Corresponds R e'.world
  next : e.next.Corresponds R e'.next
  notices : e'.notices = e.notices

namespace Next.Corresponds

theorem same {p : Point} (h : p.resolution? = none) : Corresponds R (.goto p) (.goto p) :=
  .goto (.same p h)

theorem callSame (f : Frame) {p : Point} (h : p.resolution? = none) :
    Corresponds R (.call f p) (.call f p) :=
  .call f (.same p h)

theorem bare (h : o.IsBare) : Corresponds R (.finish o) (.finish o) :=
  .finish (Outcome.corresponds_of_isBare h)

/-- User code is called without an argument, or with an error that was reported. -/
theorem invokeSame (f : Frame) (i : Invocation) (h : ∀ r, i.argument ≠ some (.resolution r)) :
    Corresponds R (.invoke f i) (.invoke f i) := by
  obtain ⟨id, role, _ | ⟨r | e⟩⟩ := i
  · exact .invoke f ⟨rfl, rfl, .none⟩
  · exact absurd rfl (h r)
  · exact .invoke f ⟨rfl, rfl, .some (.payload e)⟩

end Next.Corresponds

/-! ### Steps -/

namespace Point

private theorem corresponds_step_cell (hw : w.Corresponds R w') {c : CellId} {p : CellPoint}
    (h : (Point.cell c p).resolution? = none) (hp : (Point.cell c p).IsFair R frames) :
    (p.step w c).Corresponds R (p.step w' c) := by
  have hc := hw.cell c
  cases p with
  | checkRegister g =>
    simp only [CellPoint.step, hc.expired]
    split
    · exact ⟨hw, .bare trivial, rfl⟩
    · exact ⟨hw, .same rfl, rfl⟩
  | register g =>
    refine ⟨hw.setCell c (hc.register g), ?_, rfl⟩
    rcases hc.result_eq with ⟨hr, hr'⟩ | ⟨r, r', hr, hr', hrel⟩ <;>
      cases he : (w.cell c).expired <;>
      simp only [CellPoint.step, Cell.register, hc.expired, he, hr, hr']
    · exact .bare trivial
    · exact .bare trivial
    · exact .goto (.deliver c g hrel _)
    · exact .bare trivial
  | timeoutCallback =>
    have hcallback : (w'.cell c).onTimeout = (w.cell c).onTimeout := by rw [hc.rest]
    simp only [CellPoint.step, hcallback]
    split
    · exact ⟨hw, .invokeSame _ _ (by simp), rfl⟩
    · exact ⟨hw, .same rfl, rfl⟩
  | fallback =>
    have hfallback : (w'.cell c).fallback = (w.cell c).fallback := by rw [hc.rest]
    simp only [CellPoint.step, hfallback]
    split
    · exact ⟨hw, .same rfl, rfl⟩
    · exact ⟨hw, .invokeSame _ _ (by simp), rfl⟩
  | settle p =>
    refine ⟨hw, ?_, rfl⟩
    simp only [CellPoint.step, Resolution.ofFallback?]
    split
    · exact .bare trivial
    · rename_i r hr
      have hself : R p p := hp fun hpending => by simp [hpending, Payload.pending] at hr
      split at hr <;> cases hr
      · exact .call _ (.checkResult c (.error hself))
      · exact .call _ (.checkResult c (.value hself))
  | errorCallback e =>
    have hcallback : (w'.cell c).onError = (w.cell c).onError := by rw [hc.rest]
    simp only [CellPoint.step, hcallback]
    split
    · exact ⟨hw, .invokeSame _ _ (by simp), rfl⟩
    · exact ⟨hw, .same rfl, rfl⟩
  | settleError e => exact ⟨hw, .call _ (.checkResult c (.error hp)), rfl⟩
  | expire =>
    simp only [CellPoint.step, hc.expire.2]
    refine ⟨hw.setCell c hc.expire.1, ?_, rfl⟩
    split
    · exact .same rfl
    · exact .bare trivial
  | completionCallback =>
    have hcallback : (w'.cell c).onCompletion = (w.cell c).onCompletion := by rw [hc.rest]
    simp only [CellPoint.step, hcallback]
    split
    · exact ⟨hw, .invokeSame _ _ (by simp), rfl⟩
    · exact ⟨hw, .bare trivial, rfl⟩
  | setCallback slot id => exact ⟨hw.setCell c (hc.setCallback slot id), .bare trivial, rfl⟩
  | ask q =>
    cases q with
    | isSetOrExpired =>
      simp only [CellPoint.step, hc.hasResult]
      split
      · exact ⟨hw, .bare trivial, rfl⟩
      · exact ⟨hw, .same rfl, rfl⟩
    | _ => exact ⟨hw, .finish (.returned (hc.answer _)), rfl⟩
  | askExpired =>
    simp only [CellPoint.step, hc.expired]
    exact ⟨hw, .bare trivial, rfl⟩
  | _ => cases h

private theorem corresponds_step_request (hw : w.Corresponds R w') {q : RequestId}
    {p : RequestPoint} (h : (Point.request q p).resolution? = none)
    (hp : (Point.request q p).IsFair R frames) (hfair : w.IsFair R) (hq : q < w.requestCount) :
    (p.step w q).Corresponds R (p.step w' q) := by
  have hcell : (w'.request q).cell = (w.request q).cell := by rw [hw.request_eq q]
  have htimeout : (w'.request q).timeoutMs = (w.request q).timeoutMs := by rw [hw.request_eq q]
  have hinterceptors : (w'.request q).interceptors = (w.request q).interceptors := by
    rw [hw.request_eq q]
  have hcompleted : (w'.request q).completed = (w.request q).completed := by rw [hw.request_eq q]
  have hresult := (hw.cell (w.request q).cell).hasResult
  cases p with
  | arm =>
    simp only [RequestPoint.step, htimeout, hw.clock]
    split
    · exact ⟨hw, .same rfl, rfl⟩
    · split
      · exact ⟨hw, .bare trivial, rfl⟩
      · exact ⟨hw.arm q, .same rfl, rfl⟩
  | attach =>
    simp only [RequestPoint.step, hcell]
    exact ⟨hw, .same rfl, rfl⟩
  | checkTimeout =>
    simp only [RequestPoint.step, hcompleted]
    split
    · exact ⟨hw, .bare trivial, rfl⟩
    · exact ⟨hw, .same rfl, rfl⟩
  | markTimeout =>
    refine ⟨hw.modifyRequest q (fun x => { x with timedOut := true }) (fun _ => rfl)
      (fun _ _ => rfl), ?_, ?_⟩
    · simp only [RequestPoint.step, hinterceptors]
      exact .same rfl
    · simp only [RequestPoint.step, hcell, htimeout, hw.describe]
  | timeoutHooks rest =>
    rcases rest with _ | ⟨⟨c⟩ | ⟨i, j, k⟩, rest⟩
    · exact ⟨hw, .same rfl, rfl⟩
    · exact ⟨hw, .callSame _ rfl, rfl⟩
    · exact ⟨hw, .invokeSame _ _ (by simp), rfl⟩
  | timeoutDefault =>
    simp only [RequestPoint.step, hcell, htimeout, hresult]
    split
    · exact ⟨hw, .same rfl, rfl⟩
    · exact ⟨hw, .call _ (.checkResult _ (.error (hfair.timeout q hq))), rfl⟩
  | checkFail e =>
    simp only [RequestPoint.step, hcompleted]
    split
    · exact ⟨hw, .bare trivial, rfl⟩
    · exact ⟨hw, .same rfl, rfl⟩
  | noteFail e =>
    simp only [RequestPoint.step, hcell, hinterceptors]
    exact ⟨hw, .same rfl, by rw [hw.describe]⟩
  | errorHooks e rest =>
    rcases rest with _ | ⟨⟨c⟩ | ⟨i, j, k⟩, rest⟩
    · exact ⟨hw, .same rfl, rfl⟩
    · exact ⟨hw, .callSame _ rfl, rfl⟩
    · exact ⟨hw, .invokeSame _ _ (by simp), rfl⟩
  | errorDefault e =>
    simp only [RequestPoint.step, hcell, hresult]
    split
    · exact ⟨hw, .same rfl, rfl⟩
    · exact ⟨hw, .call _ (.checkResult _ (.error hp)), rfl⟩
  | completeUndelivered =>
    simp only [RequestPoint.step, hcell, hresult]
    split
    · exact ⟨hw, .bare trivial, rfl⟩
    · exact ⟨hw, .same rfl, rfl⟩
  | checkAbandon =>
    simp only [RequestPoint.step, hcompleted]
    split
    · exact ⟨hw, .bare trivial, rfl⟩
    · exact ⟨hw, .same rfl, rfl⟩
  | noteAbandon =>
    simp only [RequestPoint.step, hcell]
    exact ⟨hw, .same rfl, by rw [hw.describe]⟩
  | complete =>
    simp only [RequestPoint.step, hcompleted]
    split
    · exact ⟨hw, .bare trivial, rfl⟩
    · exact ⟨hw.modifyRequest q (fun x => { x with completed := true }) (fun _ => rfl)
        (fun _ _ => rfl), .same rfl, rfl⟩
  | cancelTimer =>
    simp only [RequestPoint.step, hinterceptors]
    exact ⟨hw.cancel q, .same rfl, rfl⟩
  | completionHooks rest =>
    rcases rest with _ | ⟨⟨c⟩ | ⟨i, j, k⟩, rest⟩
    · exact ⟨hw, .same rfl, rfl⟩
    · exact ⟨hw, .callSame _ rfl, rfl⟩
    · exact ⟨hw, .invokeSame _ _ (by simp), rfl⟩
  | tellListener =>
    have hlistener : (w'.request q).listener = (w.request q).listener := by rw [hw.request_eq q]
    simp only [RequestPoint.step, hlistener]
    split
    · exact ⟨hw, .callSame _ rfl, rfl⟩
    · exact ⟨hw, .same rfl, rfl⟩
  | release =>
    exact ⟨hw.modifyRequest q (fun x => { x with released := true }) (fun _ => rfl)
      (fun _ _ => rfl), .bare trivial, rfl⟩
  | await => exact ⟨hw, .same rfl, rfl⟩
  | collect => exact ⟨hw, .finish (.returned (.resolution (hw.request q).resolution)), rfl⟩
  | _ => cases h

private theorem corresponds_step_coordinator (hw : w.Corresponds R w') (k : CoordinatorId)
    (p : CoordinatorPoint) : (p.step w k).Corresponds R (p.step w' k) := by
  cases p with
  | checkStart c d extra =>
    simp only [CoordinatorPoint.step, (hw.cell c).expired, hw.describe]
    split
    · exact ⟨hw, .bare trivial, rfl⟩
    · exact ⟨hw, .same rfl, rfl⟩
  | draw c d extra =>
    have htimeout : (w'.cell c).timeoutMs = (w.cell c).timeoutMs := by rw [(hw.cell c).rest]
    have hrequest (x : Coordinator) : x.newRequest k c (w'.cell c) d extra =
        x.newRequest k c (w.cell c) d extra := by
      simp only [Coordinator.newRequest, htimeout]
    simp only [CoordinatorPoint.step, hw.coordinator, hrequest]
    refine ⟨(hw.setCoordinator k _).addRequest rfl, ?_, rfl⟩
    simp only [World.addRequest, World.setCoordinator, hw.requestCount]
    exact .same rfl
  | activate q =>
    have hcell : (w'.request q).cell = (w.request q).cell := by rw [hw.request_eq q]
    simp only [CoordinatorPoint.step, hw.coordinator, hcell, hw.describe]
    split
    · exact ⟨hw, .bare trivial, rfl⟩
    · exact ⟨hw.setCoordinator k _, .same rfl, rfl⟩
  | noteStart q =>
    have hcell : (w'.request q).cell = (w.request q).cell := by rw [hw.request_eq q]
    have htimeout : (w'.request q).timeoutMs = (w.request q).timeoutMs := by rw [hw.request_eq q]
    simp only [CoordinatorPoint.step, hcell, htimeout, hw.describe]
    exact ⟨hw, .callSame _ rfl, rfl⟩
  | abandonAll =>
    simp only [CoordinatorPoint.step, hw.coordinator]
    exact ⟨hw, .same rfl, rfl⟩
  | abandonEach n rest =>
    cases rest with
    | nil => exact ⟨hw, .bare trivial, rfl⟩
    | cons q rest => exact ⟨hw, .callSame _ rfl, rfl⟩
  | retire q =>
    have hcell : (w'.request q).cell = (w.request q).cell := by rw [hw.request_eq q]
    simp only [CoordinatorPoint.step, hw.coordinator, hcell]
    refine ⟨?_, .bare trivial, rfl⟩
    split
    · exact hw.setCoordinator k _
    · exact hw
  | countActive =>
    simp only [CoordinatorPoint.step, hw.coordinator]
    exact ⟨hw, .bare trivial, rfl⟩

/-- Corresponding points of corresponding worlds take corresponding steps. -/
theorem corresponds_step (hw : w.Corresponds R w') (hp : p.Corresponds R p')
    (hfair : p.IsFair R frames) (hworld : w.IsFair R)
    (hb : ∀ q ∈ p.requests, q < w.requestCount) : (p.step w).Corresponds R (p'.step w') := by
  cases hp with
  | same p h =>
    cases p with
    | cell c p => exact corresponds_step_cell hw h hfair
    | request q p => exact corresponds_step_request hw h hfair hworld (hb q List.mem_cons_self)
    | coordinator k p => exact corresponds_step_coordinator hw k p
  | checkResult c h =>
    simp only [step, CellPoint.step, (hw.cell c).hasResult]
    split
    · exact ⟨hw, .bare trivial, rfl⟩
    · exact ⟨hw, .goto (.checkExpired c h), rfl⟩
  | checkExpired c h =>
    simp only [step, CellPoint.step, (hw.cell c).expired]
    split
    · exact ⟨hw, .bare trivial, rfl⟩
    · exact ⟨hw, .goto (.assign c h), rfl⟩
  | assign c h =>
    refine ⟨hw.setCell c ((hw.cell c).assign h), ?_, rfl⟩
    simp only [step, CellPoint.step, Cell.assign, (hw.cell c).isSetOrExpired, (hw.cell c).handler]
    cases (w.cell c).isSetOrExpired
    · cases (w.cell c).handler with
      | none => exact .bare trivial
      | some g => exact .goto (.deliver c g h _)
    · exact .bare trivial
  | deliver c g h a =>
    cases g with
    | callback id => exact ⟨hw, .invoke _ ⟨rfl, rfl, .some (.resolution h)⟩, rfl⟩
    | request q => exact ⟨hw, .call _ (.record q h), rfl⟩
  | record q h => exact ⟨hw.setRequest q ((hw.request q).record h), .goto (.dispatch q h), rfl⟩
  | dispatch q h =>
    have hdispatch : (w'.request q).dispatch = (w.request q).dispatch := by rw [hw.request_eq q]
    simp only [step, RequestPoint.step, hdispatch]
    split
    · exact ⟨hw, .invoke _ ⟨rfl, rfl, .some (.resolution h)⟩, rfl⟩
    · exact ⟨hw, .callSame _ rfl, rfl⟩

end Point

/-! ### Calls stay fair -/

/-- Whether a frame passes on what user code answered to dispatch. -/
def Frame.isHandover : Frame → Bool
  | .request _ .dispatched | .outcome _ => true
  | _ => false

/-- The error that a call reports. -/
def Call.error? : Call → Option Payload
  | .handleError _ e | .fail _ e => some e
  | _ => none

variable (R) in
/-- What a frame may hold that is the same in both runs. -/
def Frame.IsFair : Frame → Prop
  | .cell _ (.errorCallback e) | .request _ (.errorHook e _) => R e e
  | .cell _ (.delivered a) | .answer a => a.IsBare
  | _ => True

variable (R) in
/-- What a way on from above these frames may hold that is the same in both runs. What was answered
to dispatch is not the outcome of a call. -/
def Next.IsFair (frames : List Frame) : Next → Prop
  | .goto p => p.IsFair R frames
  | .call f p => p.IsFair R (f :: frames) ∧ f.IsFair R ∧ (f.isHandover = true → frames ≠ [])
  | .invoke f _ => f.IsFair R ∧ (f.isHandover = true → frames ≠ [])
  | .finish _ => True

variable (R) in
/-- What a call in progress may hold that is the same in both runs. -/
structure Activation.IsFair (a : Activation) : Prop where
  point (p : Point) (hp : a.control = .ready p) : p.IsFair R a.frames
  frame (f : Frame) (hf : f ∈ a.frames) : f.IsFair R
  last (f : Frame) (hf : a.frames.getLast? = some f) : f.isHandover = false

namespace Activation

variable {n : Next}

private theorem isFair_push (hframe : ∀ g ∈ frames, g.IsFair R)
    (hlast : ∀ g, frames.getLast? = some g → g.isHandover = false) {c : Control}
    (hc : ∀ p, c = .ready p → p.IsFair R (f :: frames)) (hf : f.IsFair R)
    (hhand : f.isHandover = true → frames ≠ []) : IsFair R ⟨c, f :: frames⟩ where
  point := hc
  frame g hg := by
    rcases List.mem_cons.mp hg with rfl | hg
    · exact hf
    · exact hframe g hg
  last g hg := by
    cases hfs : frames with
    | nil =>
      rw [hfs, List.getLast?_singleton, Option.some.injEq] at hg
      subst hg
      by_contra hne
      exact hhand (by simpa using hne) hfs
    | cons f' rest => exact hlast g (by rw [hfs] at hg ⊢; simpa using hg)

/-- A call that goes on in a fair way over fair frames is fair. -/
theorem isFair_follow (hn : n.IsFair R frames) (hframe : ∀ g ∈ frames, g.IsFair R)
    (hlast : ∀ g, frames.getLast? = some g → g.isHandover = false) :
    (follow frames n).IsFair R := by
  cases n with
  | goto p =>
    refine ⟨fun p' hp' => ?_, hframe, hlast⟩
    cases hp'
    exact hn
  | call f p =>
    refine isFair_push hframe hlast (fun p' hp' => ?_) hn.2.1 hn.2.2
    cases hp'
    exact hn.1
  | invoke f i => exact isFair_push hframe hlast (fun _ h => (nomatch h)) hn.1 hn.2
  | finish o => exact ⟨fun _ h => (nomatch h), hframe, hlast⟩

end Activation

theorem Point.isFair_next (hp : p.IsFair R frames) (hw : w.IsFair R) :
    (p.step w).next.IsFair R frames := by
  by_cases hfallback : ∃ c, p = .cell c .fallback
  · obtain ⟨c, rfl⟩ := hfallback
    simp only [Point.step, CellPoint.step]
    split
    · rename_i p h
      exact hw.fallback c p h
    · exact ⟨trivial, by simp [Frame.isHandover]⟩
  · generalize hn : (p.step w).next = n
    have hway : p.Way w n := hn ▸ p.way_step w
    cases hway
    case fixedFallback => exact absurd ⟨_, rfl⟩ hfallback
    all_goals simp_all [Next.IsFair, Point.IsFair, Frame.IsFair, Frame.isHandover, Answer.IsBare]

namespace Activation.IsFair

/-- A call stays fair in a step. -/
theorem step (h : IsFair R ⟨.ready p, frames⟩) (hw : w.IsFair R) :
    (follow frames (p.step w).next).IsFair R :=
  isFair_follow (Point.isFair_next (h.point p rfl) hw) h.frame h.last

/-- A call stays fair as a frame goes on, if what a computation of a fallback brings is related to
itself. -/
theorem resume (h : IsFair R ⟨.ended o, f :: frames⟩)
    (hfallback : ∀ c p, f = .cell c .fallback → o = .returned (.payload p) →
      p ≠ Payload.pending → R p p) : (follow frames (f.resume w o).next).IsFair R := by
  have hf : f.IsFair R := h.frame f List.mem_cons_self
  have hhand : f.isHandover = true → frames ≠ [] := by
    rintro hf rfl
    simp [h.last f rfl] at hf
  refine isFair_follow ?_ (fun g hg => h.frame g (List.mem_cons_of_mem f hg)) fun g hg =>
    h.last g (by rw [List.getLast?_cons, hg]; rfl)
  generalize hn : (f.resume w o).next = n
  have hway : f.Way w o n := hn ▸ f.way_resume w o
  cases hway
  case fallback c p => exact hfallback c p rfl rfl
  all_goals simp_all [Next.IsFair, Point.IsFair, Frame.IsFair, Frame.isHandover]

theorem answer {i : Invocation} (h : IsFair R ⟨.inside i, frames⟩) : IsFair R ⟨.ended o, frames⟩ :=
  ⟨fun _ h => (nomatch h), h.frame, h.last⟩

end Activation.IsFair

/-- A call is fair when it begins, if the error that it reports is related to itself. -/
theorem Call.isFair_activation {c : Call} (h : ∀ e, c.error? = some e → R e e) :
    c.activation.IsFair R where
  point p hp := by
    cases Call.enters_of_control hp
    case handleError c e => exact h e rfl
    case fail q e => exact h e rfl
    all_goals simp [Point.IsFair, frames_activation]
  frame f hf := by simp [frames_activation] at hf
  last f hf := by simp [frames_activation] at hf

/-! ### Outcomes of calls -/

private theorem isBare_of_contain {site : Site} {c : CellId} {e : Option String}
    {g : Answer → Next} {n : Next} {o' : Outcome}
    (h : (contain w site c e o g n).next = .finish o')
    (hg : ∀ a, g a = .finish o' → o'.IsBare) (hn : n = .finish o' → o'.IsBare) : o'.IsBare := by
  unfold contain at h
  split at h
  · exact hg _ h
  · split at h
    · exact hn h
    · cases h
      trivial

/-- A frame that does not pass on what user code answered ends with a bare outcome. -/
theorem Frame.isBare_of_finish {o' : Outcome} (hf : f.IsFair R) (hhand : f.isHandover = false)
    (h : (f.resume w o).next = .finish o') : o'.IsBare := by
  have hret {a : Answer} (ha : a.IsBare) (h : Next.ret a = .finish o') : o'.IsBare := by
    cases h
    exact ha
  rcases f with ⟨c, f⟩ | ⟨q, f⟩ | ⟨k, n, rest⟩ | a | before
  · cases f with
    | delivered a => exact isBare_of_contain h (fun _ => hret hf) (hret hf)
    | fallback =>
      refine isBare_of_contain h (fun a ha => ?_) (hret trivial)
      cases a with
      | payload p => cases ha
      | _ =>
        cases ha
        trivial
    | completionCallback => exact isBare_of_contain h (fun _ => hret trivial) (hret trivial)
    | _ => exact isBare_of_contain h (fun _ ha => nomatch ha) (nomatch ·)
  · cases f with
    | dispatched => cases hhand
    | timeoutHook | errorHook | completionHook =>
      exact isBare_of_contain h (fun _ ha => nomatch ha) (nomatch ·)
    | settled | told =>
      cases o <;> cases h
      trivial
  · cases o <;> cases h
    trivial
  · cases o with
    | returned b => exact hret hf h
    | raised e =>
      cases h
      trivial
  · cases hhand

/-- A step ends a call with a bare outcome, unless it answers a question of the user. -/
theorem Point.isBare_of_finish (hp : p.IsFair R frames) (hframes : frames ≠ [])
    (h : (p.step w).next = .finish o) : o.IsBare := by
  rcases p with ⟨c, p⟩ | ⟨q, p⟩ | ⟨k, p⟩
  · cases p
    case ask => exact absurd hp hframes
    all_goals
      simp only [Point.step, CellPoint.step] at h
      repeat' split at h
      all_goals cases h <;> trivial
  · cases p
    case collect => exact absurd hp hframes
    all_goals
      simp only [Point.step, RequestPoint.step] at h
      repeat' split at h
      all_goals cases h <;> trivial
  · cases p
    all_goals
      simp only [Point.step, CoordinatorPoint.step] at h
      repeat' split at h
      all_goals cases h <;> trivial

end Rendezvous
