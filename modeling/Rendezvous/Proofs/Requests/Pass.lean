import Rendezvous.Proofs.Requests.LastHook

/-!
# The pass of a completed request

The call that completes a request takes it through a pass: the timer is cancelled, the completion
hooks of the interceptors are called from the last to the first, the listener is told, and those who
wait are released. A request is completed once, so it makes one pass. There is one place where the
pass can stop early: a failure that escapes from a completion hook leaves the call, with the rest of
the pass undone.

## Main definitions

* `Stage`, `Point.stage?`, `Frame.stage?`, `Activation.stages`: how far calls have come on the pass.
* `Milestone`, `Event.milestone?`: what is done on the way.
* `Stage.Goes`: the ways from one stage to the next.
* `Pass`: a course of milestones and the stage that it has come to.
* `System.completionCalls`: the interceptors that were told about the completion of a request.
* `System.IsStopped`: a failure has stopped the pass of a request.

## Main results

* `System.Transition.goes`: every change takes one call along one of these ways, or none.
* `System.Reachable.pass`: the milestones of a request and the stages of calls make up one pass.
* `System.Reachable.completed_iff`, `System.Reachable.isReleased_iff`: how the marks of a request
  follow from its milestones.
* `System.Reachable.milestones_of_stages`: how a pass ends.
-/

namespace Rendezvous

/-- How far a call has come on the pass of a completed request. -/
inductive Stage where
  /-- The timer is to be cancelled. -/
  | begun
  /-- The remaining completion hooks are to be called. -/
  | hooks (rest : List Interceptor)
  /-- The listener is to be told. -/
  | telling
  /-- The coordinator that listens is to take the request out of those in flight. -/
  | retiring
  /-- Those who wait are to be released. -/
  | releasing

/-- What is done on the pass of a request. -/
inductive Milestone where
  | completed
  | called (i : Interceptor)
  /-- A failure left the pass, with the remaining hooks not called. -/
  | stopped (rest : List Interceptor)
  | retired
  | released

/-- The stage of a point. -/
def Point.stage? (q : RequestId) : Point → Option Stage
  | .request r .cancelTimer => if r = q then some .begun else none
  | .request r (.completionHooks rest) => if r = q then some (.hooks rest) else none
  | .request r .tellListener => if r = q then some .telling else none
  | .coordinator _ (.retire r) => if r = q then some .retiring else none
  | .request r .release => if r = q then some .releasing else none
  | _ => none

/-- The stage of a frame that waits for a completion hook. -/
def Frame.stage? (q : RequestId) : Frame → Option Stage
  | .request r (.completionHook rest) => if r = q then some (.hooks rest) else none
  | _ => none

/-- The stage of the place where a call stands. A listener that was told and has returned is a place
on the pass too. -/
def Control.stage? (q : RequestId) (frames : List Frame) : Control → Option Stage
  | .ready p => p.stage? q
  | .ended (.returned _) =>
    match frames with
    | .request r .told :: _ => if r = q then some .releasing else none
    | _ => none
  | _ => none

/-- The stages to which a call has come on the pass of a request. -/
def Activation.stages (q : RequestId) (a : Activation) : List Stage :=
  (a.control.stage? q a.frames).toList ++ a.frames.filterMap (Frame.stage? q)

/-- What an event does on the pass of a request. -/
def Event.milestone? (q : RequestId) (e : Event) : Option Milestone :=
  match e.deed with
  | .step (.request r .complete) (.goto _) => if r = q then some .completed else none
  | .step (.request r (.completionHooks (i :: _))) _ => if r = q then some (.called i) else none
  | .step (.coordinator _ (.retire r)) _ => if r = q then some .retired else none
  | .step (.request r .release) _ => if r = q then some .released else none
  | .resume (.request r (.completionHook rest)) (.raised f) _ =>
    if r = q ∧ f.isOrdinary = false then some (.stopped rest) else none
  | _ => none

namespace System

/-- The stages to which calls have come on the pass of a request. -/
def stages (s : System) (q : RequestId) : List Stage :=
  s.ongoing.flatMap fun x => x.activation.stages q

/-- What was done on the pass of a request. -/
def milestones (s : System) (q : RequestId) : List Milestone :=
  s.history.filterMap (Event.milestone? q)

end System

/-- The ways of a pass: from one stage to the next, with what is done on the way. The first argument
is the request. -/
inductive Stage.Goes (x : Request) : Option Stage → Option Milestone → Option Stage → Prop
  | away : Goes x none none none
  | stay (st : Stage) : Goes x (some st) none (some st)
  | complete (h : x.completed = false) : Goes x none (some .completed) (some .begun)
  | cancel : Goes x (some .begun) none (some (.hooks x.interceptors.reverse))
  | hook (i : Interceptor) (rest : List Interceptor) :
    Goes x (some (.hooks (i :: rest))) (some (.called i)) (some (.hooks rest))
  | stop (rest : List Interceptor) : Goes x (some (.hooks rest)) (some (.stopped rest)) none
  | last : Goes x (some (.hooks [])) none (some .telling)
  | tellCoordinator (k : CoordinatorId) (h : x.listener = .coordinator k) :
    Goes x (some .telling) none (some .retiring)
  | tellNobody (h : ∀ k, x.listener ≠ .coordinator k) :
    Goes x (some .telling) none (some .releasing)
  | retire : Goes x (some .retiring) (some .retired) (some .releasing)
  | release : Goes x (some .releasing) (some .released) none

variable {w w' : World} {q : RequestId} {p : Point} {frames : List Frame}

/-! ### Listeners that are told -/

/-- Whether whatever waits for a listener waits for the step that retires the request, or has its
outcome, and that step is taken for a listener only. -/
structure Activation.TellsOnly (a : Activation) : Prop where
  frame (above : List Frame) (r : RequestId) (below : List Frame) :
    a.frames = above ++ .request r .told :: below → above = [] ∧
      ((∃ k, a.control = .ready (.coordinator k (.retire r))) ∨
        ∃ b, a.control = .ended (.returned b))
  point (k : CoordinatorId) (r : RequestId) : a.control = .ready (.coordinator k (.retire r)) →
    ∃ below, a.frames = .request r .told :: below

private theorem tellsOnly_step (ha : (⟨.ready p, frames⟩ : Activation).TellsOnly) :
    (Activation.follow frames (p.step w).next).TellsOnly := by
  have hway := p.way_step w
  -- Below a listener that is told, nothing but the step that retires the request goes on.
  have hold {above : List Frame} {r : RequestId} {below : List Frame}
      (hf : frames = above ++ .request r .told :: below) :
      above = [] ∧ (p.step w).next = .ret .unit := by
    obtain ⟨habove, ⟨k, hk⟩ | ⟨b, hb⟩⟩ := ha.frame above r below hf
    · cases hk
      exact ⟨habove, rfl⟩
    · cases hb
  generalize (p.step w).next = n at hway hold
  refine ⟨fun above r below hf => ?_, fun k r hp => ?_⟩
  · cases n with
    | goto p' => cases (hold hf).2
    | call f p' =>
      rcases above with _ | ⟨g, above⟩
      · cases hf
        cases hway
        exact ⟨rfl, .inl ⟨_, rfl⟩⟩
      · cases (hold (List.cons.inj hf).2).2
    | invoke f i =>
      rcases above with _ | ⟨g, above⟩
      · cases hf
        cases hway
      · cases (hold (List.cons.inj hf).2).2
    | finish o =>
      obtain ⟨habove, ho⟩ := hold hf
      cases ho
      exact ⟨habove, .inr ⟨.unit, rfl⟩⟩
  · have hp := Activation.control_follow.mp hp
    cases hway <;> cases hp
    exact ⟨_, rfl⟩

private theorem tellsOnly_resume {f : Frame} {o : Outcome}
    (ha : (⟨.ended o, f :: frames⟩ : Activation).TellsOnly) :
    (Activation.follow frames (f.resume w o).next).TellsOnly := by
  have hway := f.way_resume w o
  have hold {above : List Frame} {r : RequestId} {below : List Frame} :
      frames ≠ above ++ .request r .told :: below := fun hf => by
    cases (ha.frame (f :: above) r below (by rw [hf]; rfl)).1
  generalize (f.resume w o).next = n at hway
  refine ⟨fun above r below hf => ?_, fun k r hp => ?_⟩
  · cases n with
    | call g p =>
      rcases above with _ | ⟨g', above⟩
      · cases hf
        cases hway
      · exact absurd (List.cons.inj hf).2 hold
    | invoke g i => cases hway
    | _ => exact absurd hf hold
  · have hp := Activation.control_follow.mp hp
    cases hway <;> cases hp

private theorem Call.tellsOnly (c : Call) : c.activation.TellsOnly := by
  refine ⟨fun above r below hf => ?_, fun k r hp => ?_⟩
  · simp [Call.frames_activation] at hf
  · cases c.enters_of_control hp

namespace System

variable {s s' : System} {m : Move} {allowed : Move → Prop}

theorem Reachable.tellsOnly (hs : Reachable allowed s) :
    ∀ x ∈ s.ongoing, x.activation.TellsOnly := by
  refine hs.induction (I := fun s => ∀ x ∈ s.ongoing, x.activation.TellsOnly)
    (fun _ _ => by simp) fun s m s' hs _ ht ih => ?_
  refine forall_ongoing_of_transition (P := fun _ x => x.activation.TellsOnly) ht ih
    (fun _ _ h => h) (fun t c _ _ => c.tellsOnly) (fun t x _ _ => Call.tellsOnly _)
    (fun t k p frames _ _ ha => tellsOnly_step ha) (fun t k o f frames _ ha => tellsOnly_resume ha)
    fun t k i frames a _ _ ha => ?_
  refine ⟨fun above r below hf => ?_, fun k r hp => by cases hp⟩
  obtain ⟨-, ⟨k, hk⟩ | ⟨b, hb⟩⟩ := ha.frame above r below hf
  · cases hk
  · cases hb

end System

/-! ### From stage to stage -/

/-- Off the pass of a request, only the step that completes it leads there. -/
theorem stage?_of_way {n : Next} (h : p.Way w n) (hp : p.stage? q = none)
    (hc : p ≠ .request q .complete) : (∀ p', n.point? = some p' → p'.stage? q = none) ∧
      ∀ f, n.frame? = some f → f.stage? q = none := by
  cases h <;>
    refine ⟨fun p' hp' => ?_, fun f hf => ?_⟩ <;>
    first | cases hp' | cases hf
  all_goals first | rfl | simp_all [Point.stage?, Frame.stage?]

/-- Off the pass of a request, only the step that completes it does anything on it. -/
private theorem milestone?_step {n : Next} {t : ThreadId} {j : CallNumber}
    (hp : p.stage? q = none) (hc : p ≠ .request q .complete) :
    Event.milestone? q ⟨t, j, .step p n⟩ = none := by
  unfold Event.milestone?
  split <;> simp_all [Point.stage?]

/-- A call that goes on off the pass has come to the stages of its frames only. -/
private theorem stages_follow {n : Next} (hpoint : ∀ p, n.point? = some p → p.stage? q = none)
    (hframe : ∀ f, n.frame? = some f → f.stage? q = none)
    (hfinish : ∀ o, n = .finish o → (Control.ended o).stage? q frames = none) :
    (Activation.follow frames n).stages q = frames.filterMap (Frame.stage? q) := by
  cases n with
  | goto p => simp [Activation.stages, Activation.follow, Control.stage?, hpoint p rfl]
  | call f p =>
    simp [Activation.stages, Activation.follow, Control.stage?, hpoint p rfl, hframe f rfl]
  | invoke f i => simp [Activation.stages, Activation.follow, Control.stage?, hframe f rfl]
  | finish o => simp [Activation.stages, Activation.follow, hfinish o rfl]

/-- Where no listener was told, a call that ended is off the pass. -/
theorem stage?_ended {o : Outcome} (h : ∀ below, frames ≠ .request q .told :: below) :
    (Control.ended o).stage? q frames = none := by
  cases o with
  | raised e => rfl
  | returned a =>
    simp only [Control.stage?]
    split
    · rename_i r below
      rw [if_neg]
      rintro rfl
      exact h below rfl
    · rfl

/-- A call that ends at a point other than the one that retires the request ends off the pass. -/
theorem stage?_ended_of_step (ha : (⟨.ready p, frames⟩ : Activation).TellsOnly)
    (hp : ∀ k, p ≠ .coordinator k (.retire q)) (o : Outcome) :
    (Control.ended o).stage? q frames = none := by
  refine stage?_ended fun below hf => ?_
  obtain ⟨-, ⟨k, hk⟩ | ⟨b, hb⟩⟩ := ha.frame [] q below hf
  · exact hp k (Control.ready.inj hk)
  · cases hb

/-- A call that ends off the pass has come to the stages of its frames only. -/
private theorem stages_of_finish (ha : (⟨.ready p, frames⟩ : Activation).TellsOnly)
    (hp : ∀ k, p ≠ .coordinator k (.retire q)) {o : Outcome} (hn : (p.step w).next = .finish o) :
    (Activation.follow frames (p.step w).next).stages q = frames.filterMap (Frame.stage? q) := by
  rw [hn]
  exact stages_follow (by simp [Next.point?]) (by simp [Next.frame?])
    fun o _ => stage?_ended_of_step ha hp o

/-- The step that completes a request begins the pass, if the request is not completed. -/
private theorem goes_complete
    (ha : (⟨.ready (.request q .complete), frames⟩ : Activation).TellsOnly) (t : ThreadId)
    (j : CallNumber) : ∃ st',
      (Activation.follow frames ((Point.request q .complete).step w).next).stages q =
        st'.toList ++ frames.filterMap (Frame.stage? q) ∧
      Stage.Goes (w.request q) none (Event.milestone? q
        ⟨t, j, .step (.request q .complete) ((Point.request q .complete).step w).next⟩) st' := by
  cases hopen : (w.request q).completed with
  | false =>
    refine ⟨some .begun, ?_, ?_⟩
    · simp [Point.step, RequestPoint.step, hopen, Activation.follow, Activation.stages,
        Control.stage?, Point.stage?]
    · simpa [Point.step, RequestPoint.step, hopen, Event.milestone?] using .complete hopen
  | true =>
    have hn : ((Point.request q .complete).step w).next = .ret .unit := by
      simp [Point.step, RequestPoint.step, hopen]
    refine ⟨none, stages_of_finish ha (by simp) hn, ?_⟩
    simpa [hn, Event.milestone?] using .away

/-- A step on the pass leads to the next stage. -/
private theorem goes_of_stage (ha : (⟨.ready p, frames⟩ : Activation).TellsOnly) {st : Stage}
    (hst : p.stage? q = some st) (t : ThreadId) (j : CallNumber) : ∃ st',
      (Activation.follow frames (p.step w).next).stages q =
        st'.toList ++ frames.filterMap (Frame.stage? q) ∧
      Stage.Goes (w.request q) (some st)
        (Event.milestone? q ⟨t, j, .step p (p.step w).next⟩) st' := by
  unfold Point.stage? at hst
  split at hst
  case h_6 => cases hst
  all_goals
    obtain ⟨hr, hsome⟩ := Option.ite_none_right_eq_some.mp hst
    subst hr
    cases hsome
  case h_1 r =>
    refine ⟨some (.hooks (w.request r).interceptors.reverse), ?_, ?_⟩
    · simp [Point.step, RequestPoint.step, Activation.follow, Activation.stages, Control.stage?,
        Point.stage?]
    · exact .cancel
  case h_2 r rest =>
    rcases rest with _ | ⟨⟨c⟩ | ⟨i, j, k⟩, rest⟩
    · refine ⟨some .telling, ?_, .last⟩
      simp [Point.step, RequestPoint.step, Activation.follow, Activation.stages, Control.stage?,
        Point.stage?]
    · refine ⟨some (.hooks rest), ?_, ?_⟩
      · simp [Point.step, RequestPoint.step, Activation.follow, Activation.stages,
          Control.stage?, Point.stage?, Frame.stage?]
      · simpa [Event.milestone?] using .hook (.hooks c) rest
    · refine ⟨some (.hooks rest), ?_, ?_⟩
      · simp [Point.step, RequestPoint.step, Activation.follow, Activation.stages,
          Control.stage?, Frame.stage?]
      · simpa [Event.milestone?] using .hook (.custom i j k) rest
  case h_3 r =>
    cases hk : (w.request r).listener with
    | coordinator k =>
      refine ⟨some .retiring, ?_, .tellCoordinator k hk⟩
      simp only [Point.step, RequestPoint.step, hk, Activation.follow, Activation.stages,
        Control.stage?, Point.stage?, if_true]
      rw [List.filterMap_cons_none rfl]
    | announcement name =>
      refine ⟨some .releasing, ?_, .tellNobody (by simp [hk])⟩
      simp [Point.step, RequestPoint.step, hk, Activation.follow, Activation.stages,
        Control.stage?, Point.stage?]
  case h_4 k r =>
    obtain ⟨below, rfl⟩ := ha.point k r rfl
    refine ⟨some .releasing, ?_, ?_⟩
    · simp [Point.step, CoordinatorPoint.step, Next.ret, Activation.follow, Activation.stages,
        Control.stage?]
    · simpa [Event.milestone?] using .retire
  case h_5 r =>
    refine ⟨none, stages_of_finish ha (by simp) rfl, ?_⟩
    simpa [Event.milestone?] using .release

/-- A step takes a call along the pass, or has nothing to do with it. -/
private theorem goes_step (ha : (⟨.ready p, frames⟩ : Activation).TellsOnly) (t : ThreadId)
    (j : CallNumber) : ∃ st',
      (Activation.follow frames (p.step w).next).stages q =
        st'.toList ++ frames.filterMap (Frame.stage? q) ∧
      Stage.Goes (w.request q) (p.stage? q)
        (Event.milestone? q ⟨t, j, .step p (p.step w).next⟩) st' := by
  by_cases hc : p = .request q .complete
  · subst hc
    exact goes_complete ha t j
  cases hst : p.stage? q with
  | none =>
    obtain ⟨hpoint, hframe⟩ := stage?_of_way (p.way_step w) hst hc
    refine ⟨none, stages_follow hpoint hframe fun o _ => stage?_ended_of_step ha ?_ o, ?_⟩
    · rintro k rfl
      simp [Point.stage?] at hst
    · rw [milestone?_step hst hc]
      exact .away
  | some st => exact goes_of_stage ha hst t j

/-- Off the pass of a request, no frame leads there, and none does anything on it. -/
theorem stage?_of_frameWay {f : Frame} {o : Outcome} {n : Next} {t : ThreadId}
    {j : CallNumber} (h : f.Way w o n) (hf : f.stage? q = none) (htold : f ≠ .request q .told) :
    (∀ p, n.point? = some p → p.stage? q = none) ∧ (∀ g, n.frame? = some g → g.stage? q = none) ∧
      Event.milestone? q ⟨t, j, .resume f o n⟩ = none := by
  refine ⟨fun p hp => ?_, fun g hg => ?_, ?_⟩
  · cases h <;> cases hp
    all_goals first | rfl | simp_all [Point.stage?, Frame.stage?]
  · cases h <;> cases hg
    rfl
  · unfold Event.milestone?
    split <;> simp_all [Frame.stage?]

/-- A completion hook has ended, and the pass goes on unless a failure that escapes stops it. -/
private theorem goes_completionHook (w : World) (r : RequestId)
    (rest : List Interceptor) (o : Outcome) (t : ThreadId) (j : CallNumber) :
    ((Frame.request r (.completionHook rest)).resume w o).next =
        .goto (.request r (.completionHooks rest)) ∧
      Event.milestone? r ⟨t, j, .resume (.request r (.completionHook rest)) o
        ((Frame.request r (.completionHook rest)).resume w o).next⟩ = none ∨
    (∃ e, ((Frame.request r (.completionHook rest)).resume w o).next = .finish (.raised e)) ∧
      Event.milestone? r ⟨t, j, .resume (.request r (.completionHook rest)) o
        ((Frame.request r (.completionHook rest)).resume w o).next⟩ = some (.stopped rest) := by
  cases o with
  | returned a => exact .inl ⟨rfl, rfl⟩
  | raised e =>
    cases he : e.isOrdinary with
    | true =>
      left
      simp [Frame.resume, RequestFrame.resume, contain, Event.milestone?, he]
    | false =>
      right
      simp [Frame.resume, RequestFrame.resume, contain, Event.milestone?, he, Next.fail]

/-- A frame takes a call along the pass, or has nothing to do with it. -/
private theorem goes_resume {f : Frame} {o : Outcome} (x : Request)
    (ha : (⟨.ended o, f :: frames⟩ : Activation).TellsOnly) (t : ThreadId) (j : CallNumber) :
    ∃ st st', (⟨.ended o, f :: frames⟩ : Activation).stages q =
        st.toList ++ frames.filterMap (Frame.stage? q) ∧
      (Activation.follow frames (f.resume w o).next).stages q =
        st'.toList ++ frames.filterMap (Frame.stage? q) ∧
      Stage.Goes x st (Event.milestone? q ⟨t, j, .resume f o (f.resume w o).next⟩) st' := by
  have hbelow (o' : Outcome) : (Control.ended o').stage? q frames = none :=
    stage?_ended fun below hf => by cases (ha.frame [f] q below (hf ▸ rfl)).1
  by_cases htold : f = .request q .told
  · subst htold
    obtain ⟨-, ⟨k, hk⟩ | ⟨b, hb⟩⟩ := ha.frame [] q frames rfl
    · cases hk
    · cases hb
      refine ⟨some .releasing, some .releasing, ?_, ?_, .stay _⟩
      · simp only [Activation.stages, Control.stage?, if_true]
        rw [List.filterMap_cons_none rfl]
      · simp [Frame.resume, RequestFrame.resume, Activation.follow, Activation.stages,
          Control.stage?, Point.stage?]
  have hcontrol : (Control.ended o).stage? q (f :: frames) = none :=
    stage?_ended fun below hf => htold (List.cons.inj hf).1
  cases hf : f.stage? q with
  | none =>
    obtain ⟨hpoint, hframe, hmilestone⟩ :=
      stage?_of_frameWay (t := t) (j := j) (f.way_resume w o) hf htold
    refine ⟨none, none, ?_, stages_follow hpoint hframe fun o _ => hbelow o, ?_⟩
    · simp [Activation.stages, hcontrol, hf]
    · rw [hmilestone]
      exact .away
  | some st =>
    unfold Frame.stage? at hf
    split at hf
    case h_2 => cases hf
    case h_1 r rest =>
      obtain ⟨hr, hsome⟩ := Option.ite_none_right_eq_some.mp hf
      subst hr
      cases hsome
      have hstages : Activation.stages r ⟨.ended o, .request r (.completionHook rest) :: frames⟩ =
          (some (Stage.hooks rest)).toList ++ frames.filterMap (Frame.stage? r) := by
        simp [Activation.stages, hcontrol, Frame.stage?]
      rcases goes_completionHook w r rest o t j with ⟨hn, hmile⟩ | ⟨⟨e, hn⟩, hmile⟩ <;>
        rw [hmile, hn]
      · refine ⟨some (.hooks rest), some (.hooks rest), hstages, ?_, .stay _⟩
        simp [Activation.follow, Activation.stages, Control.stage?, Point.stage?]
      · refine ⟨some (.hooks rest), none, hstages, ?_, .stop rest⟩
        simp [Activation.follow, Activation.stages, hbelow]

namespace System

variable {s s' : System} {m : Move} {allowed : Move → Prop}

theorem stages_activation (c : Call) : c.activation.stages q = [] := by
  have hc : c.control.stage? q [] = none := by
    cases h : c.control with
    | ready p => cases c.enters_of_control h <;> rfl
    | inside i => rfl
    | ended o => cases o <;> rfl
  simp [Activation.stages, Call.activation, hc]

/-- A change takes one call along one of the ways of a pass. -/
theorem Transition.goes (hs : Reachable allowed s) (ht : Transition s m s') (q : RequestId) :
    ∃ newer older st st' mile, s.stages q = newer ++ (Option.toList st ++ older) ∧
      s'.stages q = newer ++ (Option.toList st' ++ older) ∧
      s'.milestones q = s.milestones q ++ Option.toList mile ∧
      Stage.Goes (s.world.request q) st mile st' := by
  have htells {x : Ongoing} (hx : x ∈ s.ongoing) : x.activation.TellsOnly := hs.tellsOnly x hx
  cases ht with
  | begin | fire =>
    refine ⟨[], s.stages q, none, none, none, by simp, ?_, ?_, .away⟩
    · simp [stages, enter, stages_activation]
    · simp [milestones, enter, Event.milestone?]
  | make => exact ⟨[], s.stages q, none, none, none, by simp, rfl, (List.append_nil _).symm, .away⟩
  | step newer older t k p frames he hn hp =>
    obtain ⟨st', hst', hgoes⟩ := goes_step (w := s.world) (q := q)
      (htells (x := ⟨t, k, ⟨.ready p, frames⟩⟩) (he ▸ by simp)) t k
    refine ⟨newer.flatMap fun x => x.activation.stages q, frames.filterMap (Frame.stage? q) ++
      older.flatMap fun x => x.activation.stages q, _, st', _, ?_, ?_, ?_, hgoes⟩
    · simp [stages, he, Activation.stages, Control.stage?]
    · simp [stages, proceed, hst']
    · rw [milestones, proceed, filterMap_append_cons, List.filterMap_nil, List.append_nil]
      rfl
  | resume newer older t k o f frames he hn =>
    obtain ⟨st, st', hst, hst', hgoes⟩ := goes_resume (w := s.world) (q := q) (s.world.request q)
      (htells (x := ⟨t, k, ⟨.ended o, f :: frames⟩⟩) (he ▸ by simp)) t k
    refine ⟨newer.flatMap fun x => x.activation.stages q, frames.filterMap (Frame.stage? q) ++
      older.flatMap fun x => x.activation.stages q, st, st', _, ?_, ?_, ?_, hgoes⟩
    · simp [stages, he, hst]
    · simp [stages, proceed, hst']
    · rw [milestones, proceed, filterMap_append_cons, List.filterMap_nil, List.append_nil]
      rfl
  | answer newer older t k i frames a he hn =>
    have hx := htells (x := ⟨t, k, ⟨.inside i, frames⟩⟩) (he ▸ by simp)
    have hsame : (⟨.ended (.ofUser a), frames⟩ : Activation).stages q =
        (⟨.inside i, frames⟩ : Activation).stages q := by
      have hended : (Control.ended (.ofUser a)).stage? q frames = none :=
        stage?_ended fun below hf => by
          obtain ⟨-, ⟨k, hk⟩ | ⟨b, hb⟩⟩ := hx.frame [] q below hf
          · cases hk
          · cases hb
      rw [Activation.stages, Activation.stages, hended]
      rfl
    refine ⟨s.stages q, [], none, none, none, by simp, ?_, ?_, .away⟩
    · simp [stages, proceed, he, hsame]
    · simp [milestones, proceed, Event.milestone?]
  | finish newer older t k o he hn =>
    refine ⟨s.stages q, [], none, none, none, by simp, ?_, ?_, .away⟩
    · cases o <;> simp [stages, leave, he, Activation.stages, Control.stage?]
    · simp [milestones, leave, Event.milestone?]

end System

/-! ### One pass -/

/-- What a listener that is told adds to the pass. -/
def Listener.milestones : Listener → List Milestone
  | .coordinator _ => [.retired]
  | .announcement _ => []

/-- What is done on the pass of a request before its listener is told. -/
def Request.hooked (x : Request) : List Milestone :=
  .completed :: x.interceptors.reverse.map .called

/-- The courses of a pass: what was done, and the stage that a call has come to, if any has. -/
inductive Pass (x : Request) : List Milestone → Option Stage → Prop
  | waiting : Pass x [] none
  | begun : Pass x [.completed] (some .begun)
  | hooks (done rest : List Interceptor) (h : done ++ rest = x.interceptors.reverse) :
    Pass x (.completed :: done.map .called) (some (.hooks rest))
  | stopped (done rest : List Interceptor) (h : done ++ rest = x.interceptors.reverse) :
    Pass x (.completed :: done.map .called ++ [.stopped rest]) none
  | telling : Pass x x.hooked (some .telling)
  | retiring (k : CoordinatorId) (h : x.listener = .coordinator k) :
    Pass x x.hooked (some .retiring)
  | releasing : Pass x (x.hooked ++ x.listener.milestones) (some .releasing)
  | released : Pass x (x.hooked ++ x.listener.milestones ++ [.released]) none

theorem Pass.of_fixed {x y : Request} {done : List Milestone} {st : Option Stage}
    (h : Pass x done st) (hxy : y.fixed = x.fixed) : Pass y done st := by
  have hi := Request.interceptors_eq_of_fixed hxy
  have hl := Request.listener_eq_of_fixed hxy
  have hh : y.hooked = x.hooked := by rw [Request.hooked, Request.hooked, hi]
  cases h with
  | waiting => exact .waiting
  | begun => exact .begun
  | hooks done rest h => exact .hooks done rest (h.trans (by rw [hi]))
  | stopped done rest h => exact .stopped done rest (h.trans (by rw [hi]))
  | telling => exact hh ▸ .telling
  | retiring k h => exact hh ▸ .retiring k (hl.trans h)
  | releasing => exact hh ▸ hl ▸ .releasing
  | released => exact hh ▸ hl ▸ .released

/-- Only a request that waits for its pass has nothing done on it. -/
theorem Pass.eq_nil_iff {x : Request} {st : Option Stage} : Pass x [] st ↔ st = none := by
  constructor
  · generalize hd : ([] : List Milestone) = done
    intro h
    cases h <;> first | rfl | simp [Request.hooked] at hd
  · rintro rfl
    exact .waiting

/-- Completion is what is done first on a pass. -/
theorem Pass.eq_nil_or_mem {x : Request} {done : List Milestone} {st : Option Stage}
    (h : Pass x done st) : done = [] ∨ .completed ∈ done := by
  cases h <;> simp [Request.hooked]

/-- A way of the pass leads from one of its courses to another. -/
theorem Pass.go {x : Request} {done : List Milestone} {st st' : Option Stage}
    {mile : Option Milestone} (h : Pass x done st) (hgo : Stage.Goes x st mile st')
    (hopen : x.completed = false → done = []) : Pass x (done ++ mile.toList) st' := by
  cases hgo with
  | away | stay => simpa using h
  | complete hc =>
    rw [hopen hc]
    exact .begun
  | cancel =>
    cases h
    exact .hooks [] _ rfl
  | hook i rest =>
    cases h with
    | hooks done _ h =>
      have hnext : (done ++ [i]) ++ rest = x.interceptors.reverse := by rw [← h]; simp
      simpa using Pass.hooks (done ++ [i]) rest hnext
  | stop rest =>
    cases h with
    | hooks done _ h => exact .stopped done rest h
  | last =>
    cases h with
    | hooks done _ h =>
      have hall : .completed :: done.map .called = x.hooked := by
        rw [Request.hooked, ← h, List.append_nil]
      rw [hall, Option.toList_none, List.append_nil]
      exact .telling
  | tellCoordinator k hk =>
    cases h
    simpa using Pass.retiring k hk
  | tellNobody hk =>
    cases h
    have hnone : x.listener.milestones = [] := by
      cases hl : x.listener with
      | coordinator k => exact absurd hl (hk k)
      | announcement name => rfl
    simpa [hnone] using Pass.releasing (x := x)
  | retire =>
    cases h with
    | retiring k hk =>
      have hone : x.listener.milestones = [.retired] := by rw [hk]; rfl
      simpa [hone] using Pass.releasing (x := x)
  | release =>
    cases h
    exact .released

namespace System

variable {s s' : System} {m : Move} {allowed : Move → Prop}

theorem Transition.mem_milestones (ht : Transition s m s') {mile : Milestone}
    (hm : mile ∈ s'.milestones q) : mile ∈ s.milestones q ∨
      ∃ e, s'.history = s.history ++ [e] ∧ e.milestone? q = some mile := by
  rcases ht.history with hh | ⟨e, hh⟩
  · exact .inl (by rwa [milestones, hh] at hm)
  · rw [milestones, hh, List.filterMap_append] at hm
    exact (List.mem_append.mp hm).imp_right fun hm => ⟨e, hh, by simpa using hm⟩

/-- The step that completes a request marks it. -/
private theorem Transition.completed_of_event (ht : Transition s m s') {e : Event}
    (hh : s'.history = s.history ++ [e]) (he : e.milestone? q = some .completed) :
    (s'.world.request q).completed = true := by
  obtain ⟨t, j, d⟩ := e
  unfold Event.milestone? at he
  split at he <;> simp at he
  rename_i r p hd
  subst he
  obtain ⟨newer, older, frames, -, -, -, -, rfl⟩ :=
    ht.exists_of_step (n := .goto p) (by rw [hh, show d = _ from hd])
  simp only [proceed, Point.step, RequestPoint.step]
  split
  · assumption
  · simp [World.modifyRequest]

/-- The step that releases a request marks it. -/
private theorem Transition.isReleased_of_event (ht : Transition s m s') {e : Event}
    (hh : s'.history = s.history ++ [e]) (he : e.milestone? q = some .released) :
    s'.IsReleased q := by
  obtain ⟨t, j, d⟩ := e
  unfold Event.milestone? at he
  split at he <;> simp at he
  rename_i r n hd
  subst he
  obtain ⟨newer, older, frames, -, -, -, -, rfl⟩ :=
    ht.exists_of_step (n := n) (by rw [hh, show d = _ from hd])
  simp [IsReleased, proceed, Point.step, RequestPoint.step, World.modifyRequest]

private theorem completed_iff_of_transition (hb : s.IsBounded) (ht : Transition s m s')
    (h : (s.world.request q).completed = true ↔ .completed ∈ s.milestones q) :
    (s'.world.request q).completed = true ↔ .completed ∈ s'.milestones q := by
  constructor
  · intro hc
    rcases ht.completed hb hc with hc | ⟨hopen, t, j, frames, -, hh, -⟩
    · rcases ht.history with hh | ⟨e, hh⟩ <;> rw [milestones, hh]
      · exact h.mp hc
      · exact List.filterMap_append ▸ List.mem_append_left _ (h.mp hc)
    · rw [milestones, hh, filterMap_append_cons]
      simp [Event.milestone?, Point.step, RequestPoint.step, hopen]
  · intro hm
    rcases ht.mem_milestones hm with hm | ⟨e, hh, he⟩
    · have hc := h.mpr hm
      exact ht.grows.completed hb.world hc
    · exact ht.completed_of_event hh he

private theorem isReleased_iff_of_transition (hb : s.IsBounded) (ht : Transition s m s')
    (h : s.IsReleased q ↔ .released ∈ s.milestones q) :
    s'.IsReleased q ↔ .released ∈ s'.milestones q := by
  have hlt (hr : s.IsReleased q) : q < s.world.requestCount := Nat.lt_of_not_le fun hle => by
    simp [IsReleased, hb.world.unmade q hle] at hr
  constructor
  · intro hr
    have hold (hr : s.IsReleased q) : .released ∈ s'.milestones q := by
      rcases ht.history with hh | ⟨e, hh⟩ <;> rw [milestones, hh]
      · exact h.mp hr
      · exact List.filterMap_append ▸ List.mem_append_left _ (h.mp hr)
    by_cases hq : q < s.world.requestCount
    · rcases ht.world with ⟨hrequest, -⟩ | ⟨t, j, p, frames, -, -, hw, hh, -⟩
      · exact hold (by rwa [IsReleased, ← hrequest q hq])
      · rw [IsReleased, hw] at hr
        rcases p.request_step_of_lt q hq with h' | ⟨-, h'⟩ | ⟨_, -, h'⟩ | ⟨-, h'⟩ | ⟨-, h'⟩ |
          ⟨rfl, -⟩
        · exact hold (by rwa [h'] at hr)
        · exact hold (by rwa [h'] at hr)
        · exact hold (by rwa [h'] at hr)
        · exact hold (by rwa [h'] at hr)
        · exact hold (by rwa [h'] at hr)
        · rw [milestones, hh, filterMap_append_cons]
          simp [Event.milestone?]
    · rw [IsReleased, ← ht.request_of_le hb (Nat.not_lt.mp hq)] at hr
      cases hr
  · intro hm
    rcases ht.mem_milestones hm with hm | ⟨e, hh, he⟩
    · have hr := h.mpr hm
      exact (ht.grows.request q (hlt hr)).released hr
    · exact ht.isReleased_of_event hh he

/-- A request is completed exactly if that was done on its pass. -/
theorem Reachable.completed_iff (hs : Reachable allowed s) :
    (s.world.request q).completed = true ↔ .completed ∈ s.milestones q := by
  refine hs.induction (I := fun s =>
    (s.world.request q).completed = true ↔ .completed ∈ s.milestones q)
    (fun w hw => by simp [hw.request_eq q, milestones]) fun s m s' hs _ ht ih =>
      completed_iff_of_transition hs.isBounded ht ih

/-- A request is released exactly if that was done on its pass. -/
theorem Reachable.isReleased_iff (hs : Reachable allowed s) :
    s.IsReleased q ↔ .released ∈ s.milestones q := by
  refine hs.induction (I := fun s => s.IsReleased q ↔ .released ∈ s.milestones q)
    (fun w hw => by simp [IsReleased, hw.request_eq q, milestones]) fun s m s' hs _ ht ih =>
      isReleased_iff_of_transition hs.isBounded ht ih

theorem Transition.milestones_subset (ht : Transition s m s') (q : RequestId) :
    s.milestones q ⊆ s'.milestones q :=
  (ht.history_prefix.filterMap _).subset

/-- What was done on the pass of a request, and the stages that calls have come to, make up one
pass: at most one call is on it. -/
theorem Reachable.pass (hs : Reachable allowed s) (q : RequestId) :
    ∃ st, s.stages q = Option.toList st ∧ Pass (s.world.request q) (s.milestones q) st := by
  refine hs.induction (I := fun s => ∃ st, s.stages q = Option.toList st ∧
    Pass (s.world.request q) (s.milestones q) st) (fun w hw => ⟨none, rfl, .waiting⟩)
    fun s m s' hs _ ht ⟨st, hst, hpass⟩ => ?_
  have hopen (hc : (s.world.request q).completed = false) : s.milestones q = [] :=
    hpass.eq_nil_or_mem.resolve_right fun hm => by simp [hs.completed_iff.mpr hm] at hc
  obtain ⟨newer, older, st₁, st', mile, hold, hnew, hmile, hgo⟩ := ht.goes hs q
  rw [hst] at hold
  have hcourse : ∃ st', s'.stages q = Option.toList st' ∧
      Pass (s.world.request q) (s'.milestones q) st' := by
    have hgone (he : st = st₁) (hn : newer = []) (ho : older = []) : ∃ st',
        s'.stages q = Option.toList st' ∧ Pass (s.world.request q) (s'.milestones q) st' :=
      ⟨st', by simp [hnew, hn, ho], hmile ▸ (he ▸ hpass).go hgo hopen⟩
    cases st₁ with
    | some st₁ =>
      have hone : newer ++ st₁ :: older = st.toList := hold.symm
      cases st with
      | none => simp at hone
      | some st =>
        obtain ⟨rfl, ⟨⟩, rfl⟩ | ⟨newer', -, hcons⟩ := List.append_eq_cons_iff.mp hone
        · exact hgone rfl rfl rfl
        · simp at hcons
    | none =>
      cases hgo with
      | away => exact ⟨st, hnew.trans hold.symm, by simpa [hmile] using hpass⟩
      | complete hc =>
        obtain rfl := Pass.eq_nil_iff.mp (hopen hc ▸ hpass)
        obtain ⟨rfl, ho⟩ := List.append_eq_nil_iff.mp hold.symm
        exact hgone rfl rfl ho
  obtain ⟨st', hst', hpass'⟩ := hcourse
  refine ⟨st', hst', ?_⟩
  by_cases hq : q < s.world.requestCount
  · exact hpass'.of_fixed (ht.grows.request q hq).fixed
  · have hnone : s'.milestones q = [] := by
      refine hpass'.eq_nil_or_mem.resolve_right fun hm => ?_
      have hc := (completed_iff_of_transition hs.isBounded ht hs.completed_iff).mpr hm
      rw [← ht.request_of_le hs.isBounded (Nat.not_lt.mp hq)] at hc
      cases hc
    rw [hnone] at hpass' ⊢
    exact Pass.eq_nil_iff.mpr (Pass.eq_nil_iff.mp hpass')

/-! ### How a pass ends -/

/-- The interceptors that were told about the completion of a request, in order. -/
def completionCalls (s : System) (q : RequestId) : List Interceptor :=
  s.history.filterMap (Event.completionHook? q)

/-- Whether a failure that escaped from a completion hook has stopped the pass of a request. -/
def IsStopped (s : System) (q : RequestId) : Prop :=
  ∃ rest, .stopped rest ∈ s.milestones q

end System

/-- The interceptor that a milestone tells about the completion. -/
def Milestone.call? : Milestone → Option Interceptor
  | .called i => some i
  | _ => none

@[simp] theorem Milestone.call?_comp_called : Milestone.call? ∘ Milestone.called = some := rfl

private theorem Event.bind_milestone? (q : RequestId) (e : Event) :
    (e.milestone? q).bind Milestone.call? = e.completionHook? q := by
  obtain ⟨t, j, d⟩ := e
  unfold milestone?
  split <;> rename_i hd
  case h_6 hcalled _ _ =>
    symm
    cases d with
    | step p n =>
      simp only [completionHook?, ofStep, Point.completionHook?]
      split
      · exact (hcalled _ _ _ _ rfl).elim
      · rfl
    | _ => rfl
  all_goals
    obtain rfl : d = _ := hd
    simp only [completionHook?, ofStep, Point.completionHook?]
    split <;> rfl

namespace System

variable {s s' : System} {m : Move} {allowed : Move → Prop}

theorem completionCalls_eq (s : System) (q : RequestId) :
    s.completionCalls q = (s.milestones q).filterMap Milestone.call? := by
  rw [milestones, List.filterMap_filterMap]
  exact congrArg s.history.filterMap (funext fun e => (Event.bind_milestone? q e).symm)

/-- A failure that escapes stops a pass where it arrives from a completion hook. -/
theorem Reachable.exists_of_stopped (hs : Reachable allowed s) {rest : List Interceptor}
    (h : .stopped rest ∈ s.milestones q) : ∃ s₀ t j f frames, Reachable allowed s₀ ∧
      s₀.world.Grows s.world ∧ s₀.history <+: s.history ∧ f.isOrdinary = false ∧
      ⟨t, j, ⟨.ended (.raised f), .request q (.completionHook rest) :: frames⟩⟩ ∈ s₀.ongoing := by
  obtain ⟨⟨t, j, d⟩, he, hmile⟩ := List.mem_filterMap.mp h
  obtain ⟨before, after, hh⟩ := List.append_of_mem he
  obtain ⟨s₀, m, s₁, hs₀, -, ht, hl, rfl, hevent⟩ := hs.exists_transition hh
  unfold Event.milestone? at hmile
  split at hmile <;> try simp at hmile
  rename_i r rest' f n hd
  obtain rfl : d = _ := hd
  obtain ⟨⟨rfl, hf⟩, rfl⟩ := hmile
  cases ht with
  | resume newer older t' k o g frames hongoing =>
    cases List.singleton_inj.mp (List.append_cancel_left hevent)
    exact ⟨s₀, t', k, f, frames, hs₀, hl.grows, hh ▸ List.prefix_append _ _, hf,
      hongoing ▸ by simp⟩
  | make => simp [addRequest] at hevent
  | _ => simp [enter, proceed, leave] at hevent

/-- A completed request that no call takes further has been through its pass, or a failure has
stopped it. -/
theorem Reachable.milestones_of_stages (hs : Reachable allowed s)
    (hc : (s.world.request q).completed = true) (hst : s.stages q = []) :
    (∃ done rest, done ++ rest = (s.world.request q).interceptors.reverse ∧
      s.milestones q = .completed :: done.map .called ++ [.stopped rest]) ∨
    s.milestones q = (s.world.request q).hooked ++ (s.world.request q).listener.milestones ++
      [.released] := by
  obtain ⟨st, he, hpass⟩ := hs.pass q
  have hdone : s.milestones q ≠ [] := fun h => by
    have hm := hs.completed_iff.mp hc
    rw [h] at hm
    cases hm
  generalize s.milestones q = done at hpass hdone
  cases hpass with
  | waiting => exact absurd rfl hdone
  | stopped done rest h => exact .inl ⟨done, rest, h, rfl⟩
  | released => exact .inr rfl
  | _ => simp [hst] at he

/-- A stopped request is taken no further by any call. -/
theorem Reachable.stages_of_isStopped (hs : Reachable allowed s) (h : s.IsStopped q) :
    s.stages q = [] := by
  obtain ⟨st, he, hpass⟩ := hs.pass q
  obtain ⟨rest, hrest⟩ := h
  cases hd : s.world.request q |>.listener <;>
    generalize s.milestones q = done at hpass hrest <;>
    cases hpass <;> simp_all [Request.hooked, Listener.milestones]

end System

end Rendezvous
