import Rendezvous.Proofs.Requests.Completion
import Rendezvous.Proofs.Requests.Handlers
import Rendezvous.Proofs.Threads.Nesting

/-!
# The outcome of a released request

Whoever waits for a request goes on once it is released. Its outcome is final from then on exactly
if no resolution is on its way to it and its timeout does not still have to be marked. Both can
happen: a setter that the cell accepted hands the resolution over outside all locks, and an
abandonment may complete and release the request before that; a timeout that has looked at the
request marks it later.

## Main definitions

* `Point.dispatchCall?`: the resolution with which a step invokes dispatch.
* `System.dispatches`, `System.collected`: the resolutions handed to dispatch, and those that waits
  returned.
* `System.IsFinal`: the outcome of a request does not change any more.
* `System.IsQuiet`: nothing is on its way to a request.

## Main results

* `System.Reachable.dispatched_or_dispatching`: what is recorded has been dispatched or is about to
  be.
* `System.Reachable.isFinal_iff`: the outcome of a released request is final exactly if nothing is
  on its way to it.
-/

namespace Rendezvous

/-- Whether a point is on the way of a resolution to a request. -/
def Point.delivers (q : RequestId) : Point → Bool
  | .cell _ (.deliver (.request r) _ _) | .request r (.record _) | .request r (.dispatch _) => r = q
  | _ => false

/-- Whether the timeout of a request is about to be marked at a point. -/
def Point.marks (q : RequestId) : Point → Bool
  | .request r .markTimeout => r = q
  | _ => false

/-- The resolution that is handed to the dispatch of a request at a point. -/
def Point.dispatch? (q : RequestId) : Point → Option Resolution
  | .request r (.dispatch x) => if r = q then some x else none
  | _ => none

/-- The resolution that is handed to the dispatch of a request as a step goes on: user code is
invoked as dispatch with it, or there is none to be invoked and the attempt fails. -/
def Point.dispatchCall? (q : RequestId) : Point → Next → Option Resolution
  | .request r (.dispatch x), n => match n with
    | .invoke _ ⟨_, .dispatch, some (.resolution y)⟩ => if r = q then some y else none
    | .call (.outcome (.raised _)) _ => if r = q then some x else none
    | _ => none
  | _, _ => none

namespace Event

/-- The resolution that is handed to the dispatch of a request in an event. -/
def dispatch? (q : RequestId) : Event → Option Resolution :=
  ofStep fun _ p n => p.dispatchCall? q n

/-- What a wait for a request returns in an event. -/
def collected? (q : RequestId) : Event → Option (Option Resolution) :=
  ofStep fun _ p n => match p, n with
    | .request r .collect, .finish (.returned (.resolution x)) => if r = q then some x else none
    | _, _ => none

end Event

theorem Point.dispatch?_eq_some {q : RequestId} {p : Point} {r : Resolution}
    (hp : p.dispatch? q = some r) : p = .request q (.dispatch r) := by
  unfold dispatch? at hp
  split at hp
  · obtain ⟨rfl, ⟨⟩⟩ := Option.ite_none_right_eq_some.mp hp
    rfl
  · cases hp

/-- A step calls dispatch, or attempts to, with what is to be handed to it at its point. -/
theorem Point.dispatchCall?_next (q : RequestId) (w : World) (p : Point) :
    p.dispatchCall? q (p.step w).next = p.dispatch? q := by
  unfold dispatch?
  split
  · rename_i r x
    cases hd : (w.request r).dispatch <;> simp [dispatchCall?, step, RequestPoint.step, hd]
  · rename_i hp
    unfold dispatchCall?
    split
    · exact (hp _ _ rfl).elim
    · rfl

/-- Dispatch is called, or an attempt is made, at one place only. -/
theorem Point.eq_of_dispatchCall? {q : RequestId} {p : Point} {n : Next} {r : Resolution}
    (h : p.dispatchCall? q n = some r) : ∃ x, p = .request q (.dispatch x) := by
  unfold dispatchCall? at h
  split at h
  · split at h
    · exact (Option.ite_none_right_eq_some.mp h).1 ▸ ⟨_, rfl⟩
    · exact (Option.ite_none_right_eq_some.mp h).1 ▸ ⟨_, rfl⟩
    · cases h
  · cases h

/-- What a step of a call hands to the dispatch of a request. -/
theorem Event.dispatch?_step (q : RequestId) (w : World) (p : Point) (t : ThreadId)
    (k : CallNumber) : Event.dispatch? q ⟨t, k, .step p (p.step w).next⟩ = p.dispatch? q :=
  p.dispatchCall?_next q w

namespace System

/-- The resolutions that were handed to the dispatch of a request. -/
def dispatches (s : System) (q : RequestId) : List Resolution :=
  s.history.filterMap (Event.dispatch? q)

/-- What the waits for a request returned. -/
def collected (s : System) (q : RequestId) : List (Option Resolution) :=
  s.history.filterMap (Event.collected? q)

/-- Whether the outcome of a request is final: whatever happens, it stays, dispatch is not begun
any more, and every wait returns the resolution that was dispatched. -/
structure IsFinal (s : System) (q : RequestId) : Prop where
  resolution (s' : System) : Leads Move.any s s' →
    (s'.world.request q).resolution = (s.world.request q).resolution
  timedOut (s' : System) : Leads Move.any s s' →
    (s'.world.request q).timedOut = (s.world.request q).timedOut
  dispatches (s' : System) : Leads Move.any s s' → s'.dispatches q = s.dispatches q
  collected (s' : System) : Leads Move.any s s' →
    ∃ n, s'.collected q = s.collected q ++ List.replicate n (s.world.request q).resolution
  dispatched (r : Resolution) : (s.world.request q).resolution = some r → r ∈ s.dispatches q

/-- Whether nothing is on its way to a request. -/
structure IsQuiet (s : System) (q : RequestId) : Prop where
  delivers : ∀ x ∈ s.ongoing, ∀ p, x.activation.control = .ready p → p.delivers q = false
  marks : (s.world.request q).timedOut = true ∨
    ∀ x ∈ s.ongoing, ∀ p, x.activation.control = .ready p → p.marks q = false

variable {s s' : System} {m : Move} {allowed : Move → Prop} {q : RequestId}

/-! ### What is recorded is dispatched -/

private theorem Transition.dispatches_subset (ht : Transition s m s') :
    s.dispatches q ⊆ s'.dispatches q := by
  rcases ht.history with h | ⟨e, h⟩
  · rw [dispatches, dispatches, h]
    exact List.Subset.refl _
  · rw [dispatches, dispatches, h, List.filterMap_append]
    exact List.subset_append_left _ _

/-- The resolution of a request was dispatched, or the call that recorded it comes to that next. -/
theorem Reachable.dispatched_or_dispatching (hs : Reachable allowed s) {r : Resolution}
    (hr : (s.world.request q).resolution = some r) :
    r ∈ s.dispatches q ∨
      ∃ x ∈ s.ongoing, x.activation.control = .ready (.request q (.dispatch r)) := by
  refine hs.induction (I := fun s => ∀ q r, (s.world.request q).resolution = some r →
    r ∈ s.dispatches q ∨ ∃ x ∈ s.ongoing, x.activation.control = .ready (.request q (.dispatch r)))
    (fun w hw q r hr => ?_) (fun s m s' hs _ ht h q r hr => ?_) q r hr
  · rw [hw.request_eq q] at hr
    cases hr
  · have hold (hr : (s.world.request q).resolution = some r) : r ∈ s'.dispatches q ∨
        ∃ x ∈ s'.ongoing, x.activation.control = .ready (.request q (.dispatch r)) := by
      rcases h q r hr with hmem | ⟨x, hx, hp⟩
      · exact .inl (ht.dispatches_subset hmem)
      · rcases ht.mem_of_ready hx hp with hx | hh
        · exact .inr ⟨x, hx, hp⟩
        · left
          rw [dispatches, hh]
          simp [Event.dispatch?_step, Point.dispatch?]
    by_cases hlt : q < s.world.requestCount
    · rcases ht.world with ⟨hrequest, -⟩ | ⟨t, k, p, frames, hx, -, hw, -, hgoes⟩
      · exact hold (hrequest q hlt ▸ hr)
      · rw [hw] at hr
        rcases p.request_step_of_lt q hlt with he | ⟨-, he⟩ | ⟨r', rfl, he⟩ | ⟨-, he⟩ | ⟨-, he⟩ |
          ⟨-, he⟩ <;> rw [he] at hr
        · exact hold hr
        · exact hold hr
        · cases hbefore : (s.world.request q).resolution with
          | some r₀ =>
            simp only [hbefore, Option.some_or] at hr
            exact hold (hbefore.trans hr)
          | none =>
            simp only [hbefore, Option.none_or, Option.some.injEq] at hr
            exact .inr ⟨_, hgoes, hr ▸ rfl⟩
        · exact hold hr
        · exact hold hr
        · exact hold hr
    · rw [← ht.request_of_le hs.isBounded (Nat.not_lt.mp hlt)] at hr
      cases hr

/-! ### Quiet requests -/

section Quiet

variable (hs : Reachable allowed s) (hq : s.IsStarted q) (hr : s.IsReleased q)

include hs hq hr

/-- Nothing sets out for a started request once it is released. -/
private theorem delivers_step {p p' : Point} {x : Ongoing} (hx : x ∈ s.ongoing)
    (hp : x.activation.control = .ready p) (h : (p.step s.world).next.point? = some p')
    (hold : p.delivers q = false) : p'.delivers q = false := by
  have howns := hs.owns_of_ready hx hp
  have hexpired := hs.expired_of_isReleased hq hr
  have hway := p.way_step s.world
  generalize (p.step s.world).next = n at hway h
  cases hway <;> cases h <;> try trivial
  case register c h r hreg =>
    cases h with
    | callback id => rfl
    | request q' =>
      refine decide_eq_false fun hsame => ?_
      subst hsame
      have hcell : (s.world.request q').cell = c := howns
      simp [hcell, (Cell.register_snd_eq_deliver.mp hreg).1] at hexpired
  case assign c h r hass =>
    obtain ⟨hopen, hhandler⟩ := Cell.assign_snd_eq_accepted.mp hass
    cases h with
    | callback id => rfl
    | request q' =>
      refine decide_eq_false fun hsame => ?_
      subst hsame
      have hcell : (s.world.request q').cell = c := hs.cell_of_handler hhandler
      simp [Cell.isSetOrExpired, ← hcell, hexpired] at hopen

/-- A released request is not marked as timed out by a timeout that looks at it then. -/
private theorem marks_step {p p' : Point} (h : (p.step s.world).next.point? = some p') :
    p'.marks q = false := by
  have hcompleted := (hs.isClosing_of_isReleased hr).completed
  have hway := p.way_step s.world
  generalize (p.step s.world).next = n at hway h
  cases hway <;> cases h <;> try trivial
  case checkTimeout q' hc =>
    refine decide_eq_false fun hsame => ?_
    subst hsame
    simp [hcompleted] at hc

private theorem isQuiet_of_transition (ht : Transition s m s') (h : s.IsQuiet q) :
    s'.IsQuiet q := by
  have hlt := hs.lt_of_isStarted hq
  have hcall (c : Call) (p : Point) (hp : c.control = .ready p) :
      p.delivers q = false ∧ p.marks q = false := by
    cases c.enters_of_control hp <;> exact ⟨rfl, rfl⟩
  have hframe (f : Frame) (o : Outcome) (p : Point)
      (hp : (f.resume s.world o).next.point? = some p) :
      p.delivers q = false ∧ p.marks q = false := by
    have hway := f.way_resume s.world o
    generalize (f.resume s.world o).next = n at hway hp
    cases hway <;> cases hp <;> exact ⟨rfl, rfl⟩
  refine ⟨?_, ?_⟩
  · refine forall_ready_of_transition (R := fun _ p => p.delivers q = false) ht h.delivers
      (fun _ _ _ _ h => h) (fun t c p _ _ hp => (hcall c p hp).1) (fun _ _ _ _ => rfl)
      (fun t k p frames p' hx hp' hp => delivers_step hs hq hr hx rfl hp' hp)
      (fun t k o f frames p' hx hp' => (hframe f o p' hp').1)
  · rcases h.marks with hmarked | hmarks
    · exact .inl ((ht.grows.request q hlt).timedOut hmarked)
    · right
      refine forall_ready_of_transition (R := fun _ p => p.marks q = false) ht hmarks
        (fun _ _ _ _ h => h) (fun t c p _ _ hp => (hcall c p hp).2) (fun _ _ _ _ => ?_)
        (fun t k p frames p' hx hp' hp => marks_step hs hq hr hp')
        (fun t k o f frames p' hx hp' => (hframe f o p' hp').2)
      rfl

omit hr in
/-- What a quiet request shows stays. -/
private theorem shown_of_transition (ht : Transition s m s') (h : s.IsQuiet q) :
    (s'.world.request q).resolution = (s.world.request q).resolution ∧
    (s'.world.request q).timedOut = (s.world.request q).timedOut ∧
    s'.dispatches q = s.dispatches q ∧
    (s'.collected q = s.collected q ∨
      s'.collected q = s.collected q ++ [(s.world.request q).resolution]) := by
  have hlt := hs.lt_of_isStarted hq
  rcases ht.world with ⟨hrequest, -, -, hview⟩ | ⟨t, k, p, frames, hx, -, hw, hh, -⟩
  · exact ⟨by rw [hrequest q hlt], by rw [hrequest q hlt], hview _, .inl (hview _)⟩
  · have hdelivers : p.delivers q = false := h.delivers _ hx p rfl
    have hfields : (s'.world.request q).resolution = (s.world.request q).resolution ∧
        (s'.world.request q).timedOut = (s.world.request q).timedOut := by
      rw [hw]
      rcases p.request_step_of_lt q hlt with he | ⟨-, he⟩ | ⟨r, rfl, -⟩ | ⟨rfl, he⟩ | ⟨-, he⟩ |
        ⟨-, he⟩
      · exact ⟨by rw [he], by rw [he]⟩
      · exact ⟨by rw [he], by rw [he]⟩
      · simp [Point.delivers] at hdelivers
      · refine ⟨by rw [he], ?_⟩
        rcases h.marks with hmarked | hmarks
        · rw [he, hmarked]
        · simpa [Point.marks] using hmarks _ hx _ rfl
      · exact ⟨by rw [he], by rw [he]⟩
      · exact ⟨by rw [he], by rw [he]⟩
    refine ⟨hfields.1, hfields.2, ?_, ?_⟩
    · have hnone : Event.dispatch? q ⟨t, k, .step p (p.step s.world).next⟩ = none := by
        rw [Event.dispatch?_step]
        unfold Point.dispatch?
        split
        · exact if_neg (by simpa [Point.delivers] using hdelivers)
        · rfl
      rw [dispatches, hh, filterMap_append_cons, hnone]
      exact List.append_nil _
    · have hcollected : Event.collected? q ⟨t, k, .step p (p.step s.world).next⟩ = none ∨
          Event.collected? q ⟨t, k, .step p (p.step s.world).next⟩ =
            some (s.world.request q).resolution := by
        by_cases hp : p = .request q .collect
        · subst hp
          exact .inr (if_pos rfl)
        · left
          simp only [Event.collected?, Event.ofStep]
          split
          · refine if_neg fun hsame => hp ?_
            rw [hsame]
          · rfl
      rw [collected, hh, filterMap_append_cons]
      rcases hcollected with h | h <;> rw [h]
      · exact .inl (List.append_nil _)
      · exact .inr rfl

/-- A quiet request stays quiet, and what it shows stays. -/
private theorem leads_of_isQuiet (h : s.IsQuiet q) (hl : Leads Move.any s s') :
    s'.IsQuiet q ∧ (s'.world.request q).resolution = (s.world.request q).resolution ∧
    (s'.world.request q).timedOut = (s.world.request q).timedOut ∧
    s'.dispatches q = s.dispatches q ∧
    ∃ n, s'.collected q = s.collected q ++ List.replicate n (s.world.request q).resolution := by
  induction hl with
  | refl => exact ⟨h, rfl, rfl, rfl, 0, (List.append_nil _).symm⟩
  | @move s₁ s₂ m hl hm ht ih =>
    obtain ⟨hquiet, hresolution, htimedOut, hdispatches, n, hcollected⟩ := ih
    have hs₁ : Reachable Move.any s₁ := hs.any.leads hl
    have hq₁ := hl.isStarted hq
    have hr₁ : s₁.IsReleased q := (hl.grows.request q (hs.lt_of_isStarted hq)).released hr
    have htr := transition_of_take? ht
    obtain ⟨hr', ht', hd', hc'⟩ := shown_of_transition hs₁ hq₁ htr hquiet
    refine ⟨isQuiet_of_transition hs₁ hq₁ hr₁ htr hquiet, hr'.trans hresolution,
      ht'.trans htimedOut, hd'.trans hdispatches, ?_⟩
    rcases hc' with hc' | hc' <;> rw [hc', hcollected]
    · exact ⟨n, rfl⟩
    · exact ⟨n + 1, by rw [hresolution, List.append_assoc, List.replicate_succ']⟩

end Quiet

/-- What is on its way to a request is dispatched if its thread goes on. -/
private theorem Reachable.exists_dispatch (hs : Reachable Move.any s) {t : ThreadId}
    {k : CallNumber} {p : Point} {frames : List Frame}
    (hx : ⟨t, k, ⟨.ready p, frames⟩⟩ ∈ s.ongoing) (hp : p.delivers q = true) :
    ∃ s' r, Leads Move.any s s' ∧ s'.dispatches q = s.dispatches q ++ [r] := by
  have hdispatch {s : System} (hs : Reachable Move.any s) {r : Resolution} {frames : List Frame}
      (hx : ⟨t, k, ⟨.ready (.request q (.dispatch r)), frames⟩⟩ ∈ s.ongoing) :
      ∃ s', Leads Move.any s s' ∧ s'.dispatches q = s.dispatches q ++ [r] := by
    obtain ⟨s', hl, -, hh, -⟩ := hs.exists_leads hx rfl
    refine ⟨s', hl, ?_⟩
    rw [dispatches, hh, filterMap_append_cons]
    simp [dispatches, Event.dispatch?_step, Point.dispatch?]
  have hrecord {s : System} (hs : Reachable Move.any s) {r : Resolution} {frames : List Frame}
      (hx : ⟨t, k, ⟨.ready (.request q (.record r)), frames⟩⟩ ∈ s.ongoing) :
      ∃ s', Leads Move.any s s' ∧ s'.dispatches q = s.dispatches q ++ [r] := by
    obtain ⟨s₁, hl, -, hh, hx₁⟩ := hs.exists_leads hx rfl
    obtain ⟨s₂, hl₂, hd⟩ := hdispatch (hs.leads hl) hx₁
    refine ⟨s₂, hl.trans hl₂, hd.trans ?_⟩
    rw [dispatches, hh, filterMap_append_cons]
    simp [dispatches, Event.dispatch?_step, Point.dispatch?]
  unfold Point.delivers at hp
  split at hp
  · rename_i c q' r a
    cases of_decide_eq_true hp
    obtain ⟨s₁, hl, -, hh, hx₁⟩ := hs.exists_leads hx rfl
    obtain ⟨s₂, hl₂, hd⟩ := hrecord (hs.leads hl) hx₁
    refine ⟨s₂, r, hl.trans hl₂, hd.trans ?_⟩
    rw [dispatches, hh, filterMap_append_cons]
    simp [dispatches, Event.dispatch?_step, Point.dispatch?]
  · rename_i q' r
    cases of_decide_eq_true hp
    exact (hrecord hs hx).imp fun s' h => ⟨r, h⟩
  · rename_i q' r
    cases of_decide_eq_true hp
    exact (hdispatch hs hx).imp fun s' h => ⟨r, h⟩
  · cases hp

/-- The outcome of a started request that is released is final exactly if nothing is on its way to
it. -/
theorem Reachable.isFinal_iff (hs : Reachable Move.any s) (hq : s.IsStarted q)
    (hr : s.IsReleased q) : s.IsFinal q ↔ s.IsQuiet q := by
  constructor
  · intro hfinal
    refine ⟨fun ⟨t, k, ⟨control, frames⟩⟩ hx p hp => ?_, ?_⟩
    · cases hp
      rw [← Bool.not_eq_true]
      intro hdelivers
      obtain ⟨s', r, hl, hd⟩ := hs.exists_dispatch hx hdelivers
      simp [hfinal.dispatches s' hl] at hd
    · cases htimedOut : (s.world.request q).timedOut with
      | true => exact .inl rfl
      | false =>
        refine .inr fun ⟨t, k, ⟨control, frames⟩⟩ hx p hp => ?_
        cases hp
        rw [← Bool.not_eq_true]
        intro hmarks
        unfold Point.marks at hmarks
        split at hmarks
        · rename_i q'
          cases of_decide_eq_true hmarks
          obtain ⟨s', hl, hw, -, -⟩ := hs.exists_leads hx rfl
          have hmarked := hfinal.timedOut s' hl
          simp [hw, htimedOut, Point.step, RequestPoint.step] at hmarked
        · cases hmarks
  · intro hquiet
    have hstays {s' : System} (hl : Leads Move.any s s') := (leads_of_isQuiet hs hq hr hquiet hl).2
    refine ⟨fun s' hl => (hstays hl).1, fun s' hl => (hstays hl).2.1,
      fun s' hl => (hstays hl).2.2.1, fun s' hl => (hstays hl).2.2.2, fun r hres => ?_⟩
    rcases hs.dispatched_or_dispatching hres with h | ⟨x, hx, hp⟩
    · exact h
    · have hdelivers := hquiet.delivers x hx _ hp
      simp [Point.delivers] at hdelivers

theorem isFinal_answered : ∃ s, run { world := untimed } answered = some s ∧ s.IsFinal 0 := by
  obtain ⟨s, hs⟩ : ∃ s, run { world := untimed } answered = some s := ⟨_, rfl⟩
  have hshown : (run { world := untimed } answered).map
      (fun s => (s.ongoing, (s.world.request 0).released)) = some ([], true) := rfl
  simp only [hs, Option.map_some, Option.some.injEq, Prod.mk.injEq] at hshown
  have hreach : Reachable Move.any s :=
    ⟨untimed, isNew_untimed, leads_of_run (fun _ _ => trivial) hs⟩
  refine ⟨s, hs, (hreach.isFinal_iff (isStarted_of_run_starting hs) hshown.2).mpr ⟨?_, .inr ?_⟩⟩ <;>
    simp [hshown.1]

/-- A cell takes a resolution, and before the request is handed it, the request is abandoned and
released, and a wait for it returns. -/
def abandonedMeanwhile : List Move :=
  starting ++ .begin 1 (.setResult 0 (.text "A")) :: List.replicate 3 (.advance 1) ++
    .begin 2 (.abandon 0) :: List.replicate 13 (.advance 2) ++ .finish 2 ::
    .begin 3 (.wait 0) :: List.replicate 2 (.advance 3) ++ [.finish 3]

theorem not_isFinal_abandonedMeanwhile :
    ∃ s, run { world := untimed } abandonedMeanwhile = some s ∧ s.IsStarted 0 ∧ s.IsReleased 0 ∧
      s.collected 0 = [none] ∧
      (∃ s', Leads Move.any s s' ∧ s'.dispatches 0 = [.value (.text "A")]) ∧ ¬ s.IsFinal 0 := by
  obtain ⟨s, hs⟩ : ∃ s, run { world := untimed } abandonedMeanwhile = some s := ⟨_, rfl⟩
  have hshown : (run { world := untimed } abandonedMeanwhile).map
      (fun s => ((s.world.request 0).released, s.collected 0, s.dispatches 0)) =
        some (true, [none], []) := rfl
  have hlater : ((run { world := untimed } abandonedMeanwhile).bind
      fun s => s.run (List.replicate 3 (.advance 1))).map (fun s => s.dispatches 0) =
        some [.value (.text "A")] := rfl
  simp only [hs, Option.map_some, Option.some.injEq, Prod.mk.injEq] at hshown
  rw [hs, Option.bind_some] at hlater
  obtain ⟨s', hrun, hdispatches⟩ := Option.map_eq_some_iff.mp hlater
  have hl : Leads Move.any s s' := leads_of_run (fun _ _ => trivial) hrun
  refine ⟨s, hs, isStarted_of_run_starting hs, hshown.1, hshown.2.1, ⟨s', hl, hdispatches⟩,
    fun hfinal => ?_⟩
  simpa [hshown.2.2, hdispatches] using hfinal.dispatches s' hl

end System

end Rendezvous
