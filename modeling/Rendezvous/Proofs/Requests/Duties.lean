import Rendezvous.Proofs.Requests.Pass
import Rendezvous.Proofs.Threads.Courses

/-!
# The duties of completion

What has to be done when a request is completed is a list of duties in a fixed order: the request is
marked, each completion hook is called and comes back before the next is called, the last
interceptor first, the listener is told, and those who wait are released. The call that marks the
request does all of it. What was done is the beginning of the list, and what its call still has to
do is the rest, unless a failure escaped from a hook.

## Main definitions

* `Duty`, `Request.duties`: what is to be done when a request is completed, in order.
* `Deed.duty?`, `System.done`: what was done, and by which call.
* `Activation.todo`: what a call still has to do.
* `System.IsDutiful`: what was done and what is to be done make up the duties of one call.

## Main results

* `Activation.Moves.todo`: a call does what it has to do next, or nothing.
* `System.Reachable.isDutiful`: every request that is completed is completed by one call, in order.
-/

namespace Rendezvous

/-- What is to be done when a request is completed. -/
inductive Duty where
  /-- The request is marked as completed. -/
  | mark
  /-- The completion hook of an interceptor is called. -/
  | call (i : Interceptor)
  /-- The completion hook that was called comes back. -/
  | back
  /-- The listener is told. -/
  | tell
  /-- The coordinator that listens takes the request out of those in flight. -/
  | retire
  /-- Those who wait are released. -/
  | release
  deriving DecidableEq

/-- The duties of the calls of the completion hooks of interceptors. -/
def hookDuties (l : List Interceptor) : List Duty :=
  l.flatMap fun i => [.call i, .back]

/-- What a listener that is told does. -/
def Listener.duties : Listener → List Duty
  | .coordinator _ => [.retire]
  | .announcement _ => []

/-- What is to be done once the hooks are through. -/
def Request.lastDuties (x : Request) : List Duty :=
  .tell :: (x.listener.duties ++ [.release])

/-- What is to be done when a request is completed, in order. -/
def Request.duties (x : Request) : List Duty :=
  .mark :: (hookDuties x.interceptors.reverse ++ x.lastDuties)

/-- What a call does with a deed when it completes a request. -/
def Deed.duty? (q : RequestId) : Deed → Option Duty
  | .step (.request r .complete) (.goto _) => if r = q then some .mark else none
  | .step (.request r (.completionHooks (i :: _))) _ => if r = q then some (.call i) else none
  | .resume (.request r (.completionHook _)) _ (.goto _) => if r = q then some .back else none
  | .step (.request r .tellListener) _ => if r = q then some .tell else none
  | .step (.coordinator _ (.retire r)) _ => if r = q then some .retire else none
  | .step (.request r .release) _ => if r = q then some .release else none
  | _ => none

/-- What a call of a thread has done. -/
structure Done where
  thread : ThreadId
  number : CallNumber
  duty : Duty
  deriving DecidableEq

/-- What an event does when a request is completed. -/
def Event.done? (q : RequestId) (e : Event) : Option Done :=
  (e.deed.duty? q).map (⟨e.thread, e.number, ·⟩)

/-- What is to be done from a stage of the pass on. -/
def Stage.duties (x : Request) : Stage → List Duty
  | .begun => hookDuties x.interceptors.reverse ++ x.lastDuties
  | .hooks rest => hookDuties rest ++ x.lastDuties
  | .telling => x.lastDuties
  | .retiring => [.retire, .release]
  | .releasing => [.release]

/-- What a call that waits for completion hooks has to do when they come back. -/
def hooked (x : Request) (q : RequestId) (frames : List Frame) : List Duty :=
  (frames.filterMap (Frame.stage? q)).flatMap fun st => .back :: st.duties x

/-- What a call still has to do for the completion of a request. -/
def Activation.todo (x : Request) (q : RequestId) (a : Activation) : List Duty :=
  (a.control.stage? q a.frames).toList.flatMap (Stage.duties x) ++ hooked x q a.frames

namespace System

/-- What was done for the completion of a request, in order. -/
def done (s : System) (q : RequestId) : List Done :=
  s.history.filterMap (Event.done? q)

end System

variable {w : World} {q : RequestId} {p : Point} {frames : List Frame} {x : Request}

/-! ### Duty by duty -/

private theorem hooked_cons (f : Frame) : hooked x q (f :: frames) =
    ((f.stage? q).toList.flatMap fun st => .back :: st.duties x) ++ hooked x q frames := by
  cases hf : f.stage? q <;> simp [hooked, hf]

private theorem todo_follow {n : Next} (hpoint : ∀ p, n.point? = some p → p.stage? q = none)
    (hframe : ∀ f, n.frame? = some f → f.stage? q = none)
    (hfinish : ∀ o, n = .finish o → (Control.ended o).stage? q frames = none) :
    (Activation.follow frames n).todo x q = hooked x q frames := by
  cases n with
  | goto p => simp [Activation.todo, Activation.follow, Control.stage?, hpoint p rfl]
  | call f p =>
    simp [Activation.todo, hooked_cons, Activation.follow, Control.stage?, hpoint p rfl,
      hframe f rfl]
  | invoke f i =>
    simp [Activation.todo, hooked_cons, Activation.follow, Control.stage?, hframe f rfl]
  | finish o => simp [Activation.todo, Activation.follow, hfinish o rfl]

/-- How a call goes about the completion of a request: it does what it has to do next, if anything,
or it marks the request and has everything else to do, or a failure stops it. -/
inductive Dutiful (x : Request) (q : RequestId) : Deed → List Duty → List Duty → Prop
  | go (d : Deed) (todo : List Duty) : Dutiful x q d ((d.duty? q).toList ++ todo) todo
  | mark (d : Deed) (todo : List Duty) (hd : d.duty? q = some .mark)
    (h : x.completed = false) : Dutiful x q d todo (x.duties.tail ++ todo)
  | stop (d : Deed) (rest : List Interceptor) (todo : List Duty) (hd : d.duty? q = none)
    (h : ∀ t k, Event.milestone? q ⟨t, k, d⟩ = some (.stopped rest)) :
    Dutiful x q d (.back :: (Stage.hooks rest).duties x ++ todo) todo

theorem Dutiful.of_eq {d : Deed} {before after : List Duty}
    (h : before = (d.duty? q).toList ++ after) : Dutiful x q d before after :=
  h ▸ .go d after

/-- The step that marks a request leaves everything else to do. -/
private theorem dutiful_complete
    (ha : (⟨.ready (.request q .complete), frames⟩ : Activation).TellsOnly) :
    Dutiful (w.request q) q
      (.step (.request q .complete) ((Point.request q .complete).step w).next)
      ((⟨.ready (.request q .complete), frames⟩ : Activation).todo (w.request q) q)
      ((Activation.follow frames ((Point.request q .complete).step w).next).todo
        (w.request q) q) := by
  have hbefore : (⟨.ready (.request q .complete), frames⟩ : Activation).todo (w.request q) q =
      hooked (w.request q) q frames := rfl
  rw [hbefore]
  cases hopen : (w.request q).completed with
  | false =>
    have hn : ((Point.request q .complete).step w).next = .goto (.request q .cancelTimer) := by
      simp [Point.step, RequestPoint.step, hopen]
    have hafter : (Activation.follow frames (.goto (.request q .cancelTimer))).todo
        (w.request q) q = (w.request q).duties.tail ++ hooked (w.request q) q frames := by
      simp [Activation.todo, Activation.follow, Control.stage?, Point.stage?, Stage.duties,
        Request.duties]
    rw [hn, hafter]
    exact .mark _ _ (if_pos rfl) hopen
  | true =>
    have hn : ((Point.request q .complete).step w).next = .ret .unit := by
      simp [Point.step, RequestPoint.step, hopen]
    rw [hn, todo_follow (by simp [Next.ret, Next.point?]) (by simp [Next.ret, Next.frame?])
      fun o _ => stage?_ended_of_step ha (by simp) o]
    exact .go _ _

/-- A step on the pass does what is to be done next. -/
private theorem dutiful_of_stage (ha : (⟨.ready p, frames⟩ : Activation).TellsOnly) {st : Stage}
    (hst : p.stage? q = some st) :
    (⟨.ready p, frames⟩ : Activation).todo (w.request q) q =
      ((Deed.step p (p.step w).next).duty? q).toList ++
        (Activation.follow frames (p.step w).next).todo (w.request q) q := by
  unfold Point.stage? at hst
  split at hst
  case h_6 => cases hst
  all_goals
    obtain ⟨hr, hsome⟩ := Option.ite_none_right_eq_some.mp hst
    subst hr
    cases hsome
  case h_1 r =>
    simp [Point.step, RequestPoint.step, Activation.follow, Activation.todo, Control.stage?,
      Point.stage?, Stage.duties, Deed.duty?]
  case h_2 r rest =>
    rcases rest with _ | ⟨⟨c⟩ | ⟨i, j, k⟩, rest⟩ <;>
      simp [Point.step, RequestPoint.step, Activation.follow, Activation.todo, Control.stage?,
        Point.stage?, Frame.stage?, Stage.duties, Deed.duty?, hookDuties, hooked_cons]
  case h_3 r =>
    cases hk : (w.request r).listener <;>
      simp [Point.step, RequestPoint.step, hk, Activation.follow, Activation.todo, Control.stage?,
        Point.stage?, Frame.stage?, Stage.duties, Deed.duty?, hooked_cons, Request.lastDuties,
        Listener.duties]
  case h_4 k r =>
    obtain ⟨below, rfl⟩ := ha.point k r rfl
    simp [Point.step, CoordinatorPoint.step, Next.ret, Activation.follow, Activation.todo,
      Control.stage?, Point.stage?, Stage.duties, Deed.duty?]
  case h_5 r =>
    rw [todo_follow (by simp [Point.step, RequestPoint.step, Next.ret, Next.point?])
      (by simp [Point.step, RequestPoint.step, Next.ret, Next.frame?])
      fun o _ => stage?_ended_of_step ha (by simp) o]
    simp [Activation.todo, Control.stage?, Point.stage?, Stage.duties, Deed.duty?]

/-- Off the pass of a request, only the step that completes it does anything for its completion. -/
private theorem duty?_step {n : Next} (hp : p.stage? q = none) (hc : p ≠ .request q .complete) :
    (Deed.step p n).duty? q = none := by
  unfold Deed.duty?
  split <;> simp_all [Point.stage?]

private theorem duty?_resume {f : Frame} {o : Outcome} {n : Next} (hf : f.stage? q = none) :
    (Deed.resume f o n).duty? q = none := by
  unfold Deed.duty?
  split <;> simp_all [Frame.stage?]

private theorem dutiful_step (ha : (⟨.ready p, frames⟩ : Activation).TellsOnly) :
    Dutiful (w.request q) q (.step p (p.step w).next)
      ((⟨.ready p, frames⟩ : Activation).todo (w.request q) q)
      ((Activation.follow frames (p.step w).next).todo (w.request q) q) := by
  by_cases hc : p = .request q .complete
  · subst hc
    exact dutiful_complete ha
  cases hst : p.stage? q with
  | some st => exact .of_eq (dutiful_of_stage ha hst)
  | none =>
    obtain ⟨hpoint, hframe⟩ := stage?_of_way (p.way_step w) hst hc
    refine .of_eq ?_
    rw [duty?_step hst hc, todo_follow hpoint hframe fun o _ => stage?_ended_of_step ha ?_ o]
    · simp [Activation.todo, Control.stage?, hst]
    · rintro k rfl
      simp [Point.stage?] at hst

/-- A hook comes back, or a failure that escapes from it stops the call. -/
private theorem dutiful_completionHook (r : RequestId) (rest : List Interceptor) (o : Outcome)
    (hbelow : ∀ o, (Control.ended o).stage? r frames = none) :
    Dutiful (w.request r) r
      (.resume (.request r (.completionHook rest)) o
        ((Frame.request r (.completionHook rest)).resume w o).next)
      (.back :: (Stage.hooks rest).duties (w.request r) ++ hooked (w.request r) r frames)
      ((Activation.follow frames
        ((Frame.request r (.completionHook rest)).resume w o).next).todo (w.request r) r) := by
  have hback (hn : ((Frame.request r (.completionHook rest)).resume w o).next =
      .goto (.request r (.completionHooks rest))) : Dutiful (w.request r) r
      (.resume (.request r (.completionHook rest)) o
        ((Frame.request r (.completionHook rest)).resume w o).next)
      (.back :: (Stage.hooks rest).duties (w.request r) ++ hooked (w.request r) r frames)
      ((Activation.follow frames
        ((Frame.request r (.completionHook rest)).resume w o).next).todo (w.request r) r) := by
    rw [hn]
    refine .of_eq ?_
    simp [Deed.duty?, Activation.follow, Activation.todo, Control.stage?, Point.stage?]
  cases o with
  | returned a => exact hback rfl
  | raised e =>
    cases he : e.isOrdinary with
    | true =>
      refine hback ?_
      simp [Frame.resume, RequestFrame.resume, contain, he]
    | false =>
      have hn : ((Frame.request r (.completionHook rest)).resume w (.raised e)).next =
          .finish (.raised e) := by
        simp [Frame.resume, RequestFrame.resume, contain, he, Next.fail]
      rw [hn, todo_follow (by simp [Next.point?]) (by simp [Next.frame?]) fun o _ => hbelow o]
      exact .stop _ rest _ rfl fun t k => by simp [Event.milestone?, he]

private theorem dutiful_resume {f : Frame} {o : Outcome}
    (ha : (⟨.ended o, f :: frames⟩ : Activation).TellsOnly) :
    Dutiful (w.request q) q (.resume f o (f.resume w o).next)
      ((⟨.ended o, f :: frames⟩ : Activation).todo (w.request q) q)
      ((Activation.follow frames (f.resume w o).next).todo (w.request q) q) := by
  have hbelow (o' : Outcome) : (Control.ended o').stage? q frames = none :=
    stage?_ended fun below hf => by cases (ha.frame [f] q below (hf ▸ rfl)).1
  by_cases htold : f = .request q .told
  · subst htold
    obtain ⟨-, ⟨k, hk⟩ | ⟨b, hb⟩⟩ := ha.frame [] q frames rfl
    · cases hk
    · cases hb
      refine .of_eq ?_
      simp [Frame.resume, RequestFrame.resume, Deed.duty?, Activation.follow, Activation.todo,
        Control.stage?, Point.stage?, hooked_cons, Frame.stage?]
  have hcontrol : (Control.ended o).stage? q (f :: frames) = none :=
    stage?_ended fun below hf => htold (List.cons.inj hf).1
  have hbefore : (⟨.ended o, f :: frames⟩ : Activation).todo (w.request q) q =
      hooked (w.request q) q (f :: frames) := by
    simp [Activation.todo, hcontrol]
  rw [hbefore, hooked_cons]
  cases hf : f.stage? q with
  | none =>
    obtain ⟨hpoint, hframe, -⟩ :=
      stage?_of_frameWay (t := 0) (j := 0) (f.way_resume w o) hf htold
    refine .of_eq ?_
    rw [duty?_resume hf, todo_follow hpoint hframe fun o _ => hbelow o]
    rfl
  | some st =>
    unfold Frame.stage? at hf
    split at hf
    case h_2 => cases hf
    case h_1 r rest =>
      obtain ⟨hr, hsome⟩ := Option.ite_none_right_eq_some.mp hf
      subst hr
      cases hsome
      simpa using dutiful_completionHook r rest o hbelow

/-- A call does what it has to do next for the completion of a request, or nothing; or it marks the
request and has everything else to do, or a failure stops it. -/
theorem Activation.Moves.todo {a : Activation} {d : Deed} {a' : Option Activation}
    (ha : a.TellsOnly) (hm : a.Moves w d a') :
    Dutiful (w.request q) q d (a.todo (w.request q) q)
      ((a'.map (Activation.todo (w.request q) q)).getD []) := by
  cases hm with
  | step p frames => exact dutiful_step ha
  | resume o f frames => exact dutiful_resume ha
  | answer i frames o =>
    refine .of_eq ?_
    have hended : (Control.ended o).stage? q frames = none := stage?_ended fun below hf => by
      obtain ⟨-, ⟨k, hk⟩ | ⟨b, hb⟩⟩ := ha.frame [] q below hf
      · cases hk
      · cases hb
    simp only [Option.map_some, Option.getD_some, Activation.todo, hended]
    rfl
  | finish o =>
    refine .of_eq ?_
    cases o <;> simp [Deed.duty?, Activation.todo, Control.stage?, hooked]

/-! ### What was done and what is to be done -/

theorem Request.duties_of_fixed {y : Request} (h : y.fixed = x.fixed) : y.duties = x.duties := by
  rw [duties, duties, lastDuties, lastDuties, interceptors_eq_of_fixed h, listener_eq_of_fixed h]

theorem Activation.todo_of_fixed {y : Request} (h : y.fixed = x.fixed) (a : Activation) :
    a.todo y q = a.todo x q := by
  have hst : Stage.duties y = Stage.duties x := by
    funext st
    cases st <;> simp [Stage.duties, Request.lastDuties, Request.interceptors_eq_of_fixed h,
      Request.listener_eq_of_fixed h]
  rw [todo, todo, hooked, hooked, hst]

/-- A call that is not on the pass of a request has nothing to do for its completion. -/
theorem Activation.todo_eq_nil {a : Activation} (h : a.stages q = []) : a.todo x q = [] := by
  obtain ⟨hcontrol, hframes⟩ := List.append_eq_nil_iff.mp h
  rw [todo, hooked, hcontrol, hframes]
  rfl

/-- The duty that is done with a milestone. -/
def Milestone.duty? : Milestone → Option Duty
  | .completed => some .mark
  | .called i => some (.call i)
  | .stopped _ => none
  | .retired => some .retire
  | .released => some .release

/-- What is done on the pass of a request is done for its completion. -/
theorem Deed.duty?_eq_some_iff (mile : Milestone) {v : Duty} (hv : mile.duty? = some v) {d : Deed}
    (t : ThreadId) (k : CallNumber) :
    d.duty? q = some v ↔ Event.milestone? q ⟨t, k, d⟩ = some mile := by
  cases mile <;> simp only [Milestone.duty?, Option.some.injEq, reduceCtorEq] at hv <;> subst hv
  all_goals
    constructor
    · intro h
      unfold duty? at h
      split at h <;> simp_all [Event.milestone?]
    · intro h
      unfold Event.milestone? at h
      split at h <;> simp_all [duty?]

namespace System

variable {s s' : System} {m : Move} {allowed : Move → Prop} {t : ThreadId} {k : CallNumber}

/-- Whether a call does all that is done for the completion of a request: what was done and what it
has to do make up the duties, and no other call has anything to do. -/
structure IsDoneBy (s : System) (q : RequestId) (t : ThreadId) (k : CallNumber) : Prop where
  done : s.done q <+: (s.world.request q).duties.map (⟨t, k, ·⟩)
  todo : ∀ x ∈ s.ongoing, x.activation.todo (s.world.request q) q = [] ∨
    x.thread = t ∧ x.number = k ∧
      s.done q ++ (x.activation.todo (s.world.request q) q).map (⟨t, k, ·⟩) =
        (s.world.request q).duties.map (⟨t, k, ·⟩)
  settled : (∀ x ∈ s.ongoing, x.activation.todo (s.world.request q) q = []) →
    s.done q = (s.world.request q).duties.map (⟨t, k, ·⟩) ∨ s.IsStopped q

/-- Whether nothing was done for a request that is not completed, and one call does all for a
request that is. -/
structure IsDutiful (s : System) (q : RequestId) : Prop where
  idle : (s.world.request q).completed = false → s.done q = []
  busy : (s.world.request q).completed = true → ∃ t k, s.IsDoneBy q t k

theorem done_append {e : Event} (hh : s'.history = s.history ++ [e]) (q : RequestId) :
    s'.done q = s.done q ++ (e.done? q).toList := by
  rw [done, hh, filterMap_append_cons, List.filterMap_nil, List.append_nil]
  rfl

/-- The milestones of a request are things done for its completion. -/
theorem mem_milestones_iff (mile : Milestone) {v : Duty} (hv : mile.duty? = some v) :
    mile ∈ s.milestones q ↔ ∃ t k, ⟨t, k, v⟩ ∈ s.done q := by
  constructor
  · intro h
    obtain ⟨⟨t, k, d⟩, he, hm⟩ := List.mem_filterMap.mp h
    refine ⟨t, k, List.mem_filterMap.mpr ⟨_, he, ?_⟩⟩
    rw [Event.done?, (Deed.duty?_eq_some_iff mile hv t k).mpr hm]
    rfl
  · rintro ⟨t, k, h⟩
    obtain ⟨⟨t, k, d⟩, he, hd⟩ := List.mem_filterMap.mp h
    obtain ⟨v, hd, hv'⟩ := Option.map_eq_some_iff.mp hd
    cases hv'
    exact List.mem_filterMap.mpr ⟨_, he, (Deed.duty?_eq_some_iff mile hv t k).mp hd⟩

/-- No call is on the pass of a request that is not completed, or of one that was stopped. -/
private theorem todo_eq_nil_of_stages (h : s.stages q = []) :
    ∀ x ∈ s.ongoing, x.activation.todo (s.world.request q) q = [] :=
  fun x hx => Activation.todo_eq_nil (List.flatMap_eq_nil_iff.mp h x hx)

private theorem Reachable.stages_of_not_completed (hs : Reachable allowed s)
    (hc : (s.world.request q).completed = false) : s.stages q = [] := by
  obtain ⟨st, hst, hpass⟩ := hs.pass q
  have hnone : s.milestones q = [] := hpass.eq_nil_or_mem.resolve_right fun hm => by
    simp [hs.completed_iff.mpr hm] at hc
  rw [hnone] at hpass
  rw [hst, Pass.eq_nil_iff.mp hpass]
  rfl

/-- A call in progress after a move was so before it, or is the one that moved. -/
private theorem mem_of_moved {a' : Option Activation} {newer older : List Ongoing} {x : Ongoing}
    (hongoing : s'.ongoing = newer ++ ((a'.map fun a => ⟨t, k, a⟩).toList ++ older))
    (hx : x ∈ s'.ongoing) : x ∈ newer ++ older ∨ ∃ a, a' = some a ∧ x = ⟨t, k, a⟩ := by
  rw [hongoing, List.mem_append, List.mem_append] at hx
  rcases hx with hx | hx | hx
  · exact .inl (List.mem_append_left _ hx)
  · obtain ⟨a, ha, rfl⟩ := by simpa using hx
    exact .inr ⟨a, ha, rfl⟩
  · exact .inl (List.mem_append_right _ hx)

/-- A call that moved completes a request if what was done and what it has to do make up the duties,
and no other call has anything to do. -/
private theorem isDoneBy_of_moved {a' : Option Activation} {newer older : List Ongoing}
    (hfixed : (s'.world.request q).fixed = (s.world.request q).fixed)
    (hongoing : s'.ongoing = newer ++ ((a'.map fun a => ⟨t, k, a⟩).toList ++ older))
    (hrest : ∀ x ∈ newer ++ older, x.activation.todo (s.world.request q) q = [])
    (hall : s'.done q ++
      ((a'.map (Activation.todo (s.world.request q) q)).getD []).map (⟨t, k, ·⟩) =
        (s.world.request q).duties.map (⟨t, k, ·⟩)) : s'.IsDoneBy q t k := by
  have hduties := Request.duties_of_fixed hfixed
  have hsame := Activation.todo_of_fixed (q := q) hfixed
  refine ⟨?_, fun x hx => ?_, fun hnone => .inl ?_⟩
  · rw [hduties, ← hall]
    exact List.prefix_append _ _
  · rw [hsame, hduties]
    rcases mem_of_moved hongoing hx with hx | ⟨a, rfl, rfl⟩
    · exact .inl (hrest x hx)
    · exact .inr ⟨rfl, rfl, hall⟩
  · rw [hduties, ← hall]
    cases a' with
    | none => simp
    | some a =>
      have hnil := (hsame a).symm.trans (hnone ⟨t, k, a⟩ (by simp [hongoing]))
      simp [hnil]

/-- A call that has the same to do as before leaves it to the call that completes a request. -/
private theorem IsDoneBy.of_todo_eq (h : s.IsDoneBy q t k)
    (hfixed : (s'.world.request q).fixed = (s.world.request q).fixed)
    (hstopped : s.IsStopped q → s'.IsStopped q) {newer older : List Ongoing} {u : ThreadId}
    {j : CallNumber} {a : Activation} {a' : Option Activation}
    (he : s.ongoing = newer ++ ⟨u, j, a⟩ :: older) (hdone : s'.done q = s.done q)
    (hongoing : s'.ongoing = newer ++ ((a'.map fun a => ⟨u, j, a⟩).toList ++ older))
    (htodo : a.todo (s.world.request q) q =
      (a'.map (Activation.todo (s.world.request q) q)).getD []) : s'.IsDoneBy q t k := by
  have hduties := Request.duties_of_fixed hfixed
  have hsame := Activation.todo_of_fixed (q := q) hfixed
  refine ⟨hdone ▸ hduties ▸ h.done, fun x hx => ?_, fun hnone => ?_⟩
  · rw [hsame, hdone, hduties]
    rcases mem_of_moved hongoing hx with hx | ⟨a₁, rfl, rfl⟩
    · exact h.todo x (he ▸ by simpa using (List.mem_append.mp hx).imp_right .inr)
    · have hbefore := h.todo ⟨u, j, a⟩ (he ▸ by simp)
      rw [htodo] at hbefore
      exact hbefore
  · rw [hdone, hduties]
    refine (h.settled fun x hx => ?_).imp_right hstopped
    rw [he, List.mem_append, List.mem_cons] at hx
    rcases hx with hx | rfl | hx
    · exact hsame _ ▸ hnone x (by simp [hongoing, hx])
    · cases a' with
      | none => exact htodo
      | some a₁ =>
        exact htodo.trans ((hsame a₁).symm.trans (hnone ⟨u, j, a₁⟩ (by simp [hongoing])))
    · exact hsame _ ▸ hnone x (by simp [hongoing, hx])

/-- The call that completes a request goes on with what it has to do, and other calls leave it to
that call. -/
private theorem IsDoneBy.go (h : s.IsDoneBy q t k) (hnumbers : s.IsNumbered)
    (hfixed : (s'.world.request q).fixed = (s.world.request q).fixed)
    (hstopped : s.IsStopped q → s'.IsStopped q) {newer older : List Ongoing} {u : ThreadId}
    {j : CallNumber} {a : Activation} {d : Deed} {a' : Option Activation}
    (he : s.ongoing = newer ++ ⟨u, j, a⟩ :: older)
    (hh : s'.history = s.history ++ [⟨u, j, d⟩])
    (hongoing : s'.ongoing = newer ++ ((a'.map fun a => ⟨u, j, a⟩).toList ++ older))
    (htodo : a.todo (s.world.request q) q =
      (d.duty? q).toList ++ (a'.map (Activation.todo (s.world.request q) q)).getD []) :
    s'.IsDoneBy q t k := by
  have hdone : s'.done q = s.done q ++ ((d.duty? q).map (⟨u, j, ·⟩)).toList := done_append hh q
  cases hd : d.duty? q with
  | none =>
    rw [hd, Option.map_none, Option.toList_none, List.append_nil] at hdone
    rw [hd, Option.toList_none, List.nil_append] at htodo
    exact h.of_todo_eq hfixed hstopped he hdone hongoing htodo
  | some v =>
    -- What is a duty is done by the call that completes the request.
    rw [hd] at htodo hdone
    obtain ⟨rfl, rfl, hall⟩ :=
      (h.todo ⟨u, j, a⟩ (he ▸ by simp)).resolve_left (by simp [htodo])
    refine isDoneBy_of_moved hfixed hongoing (fun x hx => ?_) ?_
    · have hnodup := hnumbers.nodup
      rw [he, List.map_append, List.map_cons, List.nodup_middle, List.nodup_cons,
        ← List.map_append] at hnodup
      refine (h.todo x (he ▸ by simpa using (List.mem_append.mp hx).imp_right .inr)).resolve_right
        fun hmine => hnodup.1 (List.mem_map.mpr ⟨x, hx, hmine.2.1⟩)
    · rw [← hall, htodo, hdone]
      simp

/-- What other calls do leaves it to the call that completes a request. -/
private theorem IsDoneBy.keep (h : s.IsDoneBy q t k)
    (hfixed : (s'.world.request q).fixed = (s.world.request q).fixed)
    (hstopped : s.IsStopped q → s'.IsStopped q) (hdone : s'.done q = s.done q)
    (hold : ∀ x ∈ s.ongoing, x ∈ s'.ongoing)
    (hnew : ∀ x ∈ s'.ongoing, x ∈ s.ongoing ∨ x.activation.stages q = []) :
    s'.IsDoneBy q t k := by
  have hduties := Request.duties_of_fixed hfixed
  have hsame := Activation.todo_of_fixed (q := q) hfixed
  refine ⟨hdone ▸ hduties ▸ h.done, fun x hx => ?_, fun hnone => ?_⟩
  · rw [hsame, hdone, hduties]
    exact (hnew x hx).elim (h.todo x) fun hst => .inl (Activation.todo_eq_nil hst)
  · rw [hdone, hduties]
    exact (h.settled fun x hx => hsame _ ▸ hnone x (hold x hx)).imp_right hstopped

/-- A request that is not completed stays so with nothing done, unless a call marks it. -/
private theorem isDutiful_of_not_completed (hs : Reachable allowed s) (hs' : Reachable allowed s')
    (ht : Transition s m s') (h : s.IsDutiful q) (hc : (s.world.request q).completed = false) :
    s'.IsDutiful q := by
  have hnone := todo_eq_nil_of_stages (hs.stages_of_not_completed hc)
  have hnil := h.idle hc
  have hmark (hc' : (s'.world.request q).completed = true) :
      ∃ e, s'.history = s.history ++ [e] ∧ e.deed.duty? q = some .mark := by
    rcases ht.mem_milestones (hs'.completed_iff.mp hc') with hm | ⟨e, hh, he⟩
    · simp [hs.completed_iff.mpr hm] at hc
    · exact ⟨e, hh, (Deed.duty?_eq_some_iff .completed rfl _ _).mpr he⟩
  have hquiet (hno : ∀ e, s'.history = s.history ++ [e] → e.deed.duty? q = none) :
      s'.IsDutiful q := by
    refine ⟨fun _ => ?_, fun hc' => ?_⟩
    · rcases ht.history with hh | ⟨e, hh⟩
      · rwa [done, hh]
      · rw [done_append hh, hnil, Event.done?, hno e hh]
        rfl
    · obtain ⟨e, hh, he⟩ := hmark hc'
      simp [hno e hh] at he
  rcases ht.moves with ⟨hh, -⟩ | ⟨u, c, hh, -⟩ |
    ⟨newer, older, u, j, a, d, a', he, hm, hh, hongoing⟩
  · exact hquiet fun e he => by simp [hh] at he
  · refine hquiet fun e he => ?_
    rw [← List.singleton_inj.mp (List.append_cancel_left (hh.symm.trans he))]
    rfl
  · have hdutiful := hm.todo (q := q) (hs.tellsOnly ⟨u, j, a⟩ (he ▸ by simp))
    rw [hnone ⟨u, j, a⟩ (he ▸ by simp)] at hdutiful
    generalize ha : (a'.map (Activation.todo (s.world.request q) q)).getD [] = after at hdutiful
    generalize hb : [] = before at hdutiful
    cases hdutiful with
    | go =>
      refine hquiet fun e he => ?_
      rw [← List.singleton_inj.mp (List.append_cancel_left (hh.symm.trans he))]
      cases hd : d.duty? q with
      | none => rfl
      | some v => simp [hd] at hb
    | mark _ hd =>
      have hc' : (s'.world.request q).completed = true := by
        refine hs'.completed_iff.mpr ?_
        rw [milestones, hh, filterMap_append_cons,
          (Deed.duty?_eq_some_iff .completed rfl u j).mp hd]
        simp
      have hlt : q < s.world.requestCount := by
        rcases ht.completed hs.isBounded hc' with h | ⟨-, t, k, frames, hx, -⟩
        · simp [hc] at h
        · exact hs.isBounded.of_ready hx rfl q (List.mem_singleton.mpr rfl)
      refine ⟨fun h => absurd hc' (by simp [h]), fun _ => ⟨u, j, ?_⟩⟩
      refine isDoneBy_of_moved (ht.grows.request q hlt).fixed hongoing (fun x hx => ?_) ?_
      · exact hnone x (he ▸ by simpa using (List.mem_append.mp hx).imp_right .inr)
      · rw [ha, ← hb, List.append_nil, done_append hh, hnil, Event.done?, hd]
        rfl
    | stop => cases hb

/-- For a completed request one call goes on with its duties, unless a failure stops it. -/
private theorem isDutiful_of_completed (hs : Reachable allowed s) (hs' : Reachable allowed s')
    (ht : Transition s m s') (h : s.IsDutiful q) (hc : (s.world.request q).completed = true) :
    s'.IsDutiful q := by
  have hgrows := ht.grows.request q (hs.isBounded.world.lt_of_completed hc)
  have hstopped (hstop : s.IsStopped q) : s'.IsStopped q :=
    hstop.imp fun _ hrest => ht.milestones_subset q hrest
  obtain ⟨t, k, hby⟩ := h.busy hc
  refine ⟨fun hc' => absurd (hgrows.completed hc) (by simp [hc']), fun _ => ⟨t, k, ?_⟩⟩
  rcases ht.moves with ⟨hh, hongoing⟩ | ⟨u, c, hh, hongoing⟩ |
    ⟨newer, older, u, j, a, d, a', he, hm, hh, hongoing⟩
  · exact hby.keep hgrows.fixed hstopped (by rw [done, hh]; rfl) (fun x hx => hongoing ▸ hx)
      fun x hx => .inl (hongoing ▸ hx)
  · refine hby.keep hgrows.fixed hstopped ((done_append hh q).trans (List.append_nil _))
      (fun x hx => hongoing ▸ List.mem_cons_of_mem _ hx) fun x hx => ?_
    rw [hongoing, List.mem_cons] at hx
    rcases hx with rfl | hx
    · exact .inr (stages_activation c)
    · exact .inl hx
  · have hdutiful := hm.todo (q := q) (hs.tellsOnly ⟨u, j, a⟩ (he ▸ by simp))
    generalize hb : a.todo (s.world.request q) q = before at hdutiful
    generalize ha : (a'.map (Activation.todo (s.world.request q) q)).getD [] = after at hdutiful
    cases hdutiful with
    | go => exact hby.go hs.isNumbered hgrows.fixed hstopped he hh hongoing (by rw [hb, ha])
    | mark _ hd hopen => simp [hc] at hopen
    | stop rest _ hd hstop =>
      have hstopped' : s'.IsStopped q := by
        refine ⟨rest, ?_⟩
        rw [milestones, hh, filterMap_append_cons, hstop u j]
        simp
      have hdone : s'.done q = s.done q := by
        rw [done_append hh, Event.done?, hd]
        exact List.append_nil _
      have hnone := todo_eq_nil_of_stages (hs'.stages_of_isStopped hstopped')
      refine ⟨?_, fun x hx => .inl (hnone x hx), fun _ => .inr hstopped'⟩
      rw [hdone, Request.duties_of_fixed hgrows.fixed]
      exact hby.done

/-- Nothing is done for a request that is not completed, and one call does all for a request that
is. -/
theorem Reachable.isDutiful (hs : Reachable allowed s) (q : RequestId) : s.IsDutiful q := by
  obtain ⟨w, hw, h⟩ := hs
  induction h with
  | refl => exact ⟨fun _ => rfl, fun hc => by simp [hw.request_eq q] at hc⟩
  | @move s s' m h hm ht ih =>
    have hs : Reachable allowed s := ⟨w, hw, h⟩
    have hs' : Reachable allowed s' := ⟨w, hw, .move m h hm ht⟩
    cases hc : (s.world.request q).completed with
    | false => exact isDutiful_of_not_completed hs hs' (transition_of_take? ht) ih hc
    | true => exact isDutiful_of_completed hs hs' (transition_of_take? ht) ih hc

end System

end Rendezvous
