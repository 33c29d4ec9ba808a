import Rendezvous.Proofs.Threads.Growth

/-!
# Runs with one coordinator

In an orderly run every request is started by one coordinator, the handlers and hooks of cells are
left to it, and user code raises ordinary failures only. No escaping failure arises in such a run,
and every request tells the coordinator about its end and has the hooks of its cell as its first
interceptor.

## Main definitions

* `Move.IsOrderly`: the moves of an orderly run.
* `Activation.IsOrderly`, `Request.IsOrderly`: what calls and requests are like in one.

## Main results

* `System.Reachable.isOrderly_of_mem`, `System.Reachable.request_isOrderly`: they are so in every
  system that is reached.
-/

namespace Rendezvous

/-- Whether a call leaves the handlers and the hooks of cells to a coordinator, and turns to no
other coordinator. -/
def Call.IsOrderly (k : CoordinatorId) : Call → Prop
  | .setHandler .. | .handleTimeout _ | .handleError .. | .afterCompletion _ | .begin _ => False
  | .start j .. | .abandonAll j | .countActive j => j = k
  | _ => True

/-- Whether a move belongs to a run with one coordinator. -/
def Move.IsOrderly (k : CoordinatorId) : Move → Prop
  | .begin _ c => c.IsOrderly k
  | .make .. => False
  | .answer _ (.error f) => f.isOrdinary = true
  | _ => True

/-- Whether an outcome is no escaping failure. -/
def Outcome.IsContainable : Outcome → Prop
  | .returned _ => True
  | .raised f => f.isOrdinary = true

/-- Whether a point leaves the handlers of cells to requests, and the requests to a coordinator. -/
def Point.IsOrderly (k : CoordinatorId) : Point → Prop
  | .cell _ (.checkRegister (.callback _)) | .cell _ (.register (.callback _)) => False
  | .coordinator j _ => j = k
  | _ => True

/-- Whether a frame belongs to a coordinator and does not end with an escaping failure. -/
def Frame.IsOrderly (k : CoordinatorId) : Frame → Prop
  | .abandoning j _ _ => j = k
  | f => ∀ o, f.carried? = some o → o.IsContainable

/-- What a call is like in an orderly run. -/
structure Activation.IsOrderly (k : CoordinatorId) (a : Activation) : Prop where
  point (p : Point) : a.control = .ready p → p.IsOrderly k
  outcome (o : Outcome) : a.control = .ended o → o.IsContainable
  frame : ∀ f ∈ a.frames, f.IsOrderly k

/-- What a request is like in an orderly run. -/
structure Request.IsOrderly (k : CoordinatorId) (x : Request) : Prop where
  listener : x.listener = .coordinator k
  interceptors : ∃ extra, x.interceptors = .hooks x.cell :: extra

theorem Request.IsOrderly.of_fixed {k : CoordinatorId} {x y : Request} (hx : x.IsOrderly k)
    (h : y.fixed = x.fixed) : y.IsOrderly k where
  listener := (Request.listener_eq_of_fixed h).trans hx.listener
  interceptors := by
    rw [Request.interceptors_eq_of_fixed h, Request.cell_eq_of_fixed h]
    exact hx.interceptors

theorem Outcome.IsPlain.isContainable {o : Outcome} (h : o.IsPlain) : o.IsContainable := by
  cases o with
  | returned a => trivial
  | raised f => exact h

theorem Frame.IsOrderly.isContainable {k : CoordinatorId} {f : Frame} {o : Outcome}
    (hf : f.IsOrderly k) (h : f.carried? = some o) : o.IsContainable := by
  unfold IsOrderly at hf
  split at hf
  · cases h
  · exact hf o h

variable {w : World} {k : CoordinatorId} {frames : List Frame}

private theorem Activation.isOrderly_follow {n : Next} (hframes : ∀ f ∈ frames, f.IsOrderly k)
    (hpoint : ∀ p, n.point? = some p → p.IsOrderly k)
    (hframe : ∀ f, n.frame? = some f → f.IsOrderly k)
    (hfinish : ∀ o, n = .finish o → o.IsContainable) :
    (Activation.follow frames n).IsOrderly k where
  point p hp := hpoint p (Activation.control_follow.mp hp)
  outcome o ho := hfinish o (Activation.control_follow_eq_ended.mp ho)
  frame f hf := (Activation.mem_frames_follow.mp hf).elim (hframe f) (hframes f)

private theorem Point.isOrderly_step {p p' : Point} (hp : p.IsOrderly k)
    (hq : ∀ q ∈ p.requests, (w.request q).IsOrderly k) (h : (p.step w).next.point? = some p') :
    p'.IsOrderly k := by
  have hway := p.way_step w
  generalize (p.step w).next = n at hway h
  cases hway <;> cases h <;> try trivial
  case checkRegister c h he =>
    cases h with
    | callback id => exact hp
    | request q => trivial
  case tellCoordinator q j hj =>
    exact Listener.coordinator.inj (hj.symm.trans (hq q (by simp [requests])).listener)

private theorem Frame.isOrderly_step {p : Point} {f : Frame} (hp : p.IsOrderly k)
    (h : (p.step w).next.frame? = some f) : f.IsOrderly k := by
  have hway := p.way_step w
  generalize (p.step w).next = n at hway h
  cases hway <;> cases h
  case abandonEach => exact hp
  case noDispatch => exact fun o ho => Option.some.inj ho ▸ rfl
  all_goals
    intro o ho
    cases ho
    try trivial

private theorem Activation.isOrderly_step {p : Point}
    (ha : (⟨.ready p, frames⟩ : Activation).IsOrderly k)
    (hq : ∀ q ∈ p.requests, (w.request q).IsOrderly k) :
    (Activation.follow frames (p.step w).next).IsOrderly k := by
  have hp := ha.point p rfl
  refine Activation.isOrderly_follow ha.frame (fun p' hp' => Point.isOrderly_step hp hq hp')
    (fun f hf => Frame.isOrderly_step hp hf) (fun o ho => ?_)
  have hway := p.way_step w
  rw [ho] at hway
  cases hway
  exact Outcome.IsPlain.isContainable ‹_›

private theorem Activation.isOrderly_resume {f : Frame} {o : Outcome}
    (ha : (⟨.ended o, f :: frames⟩ : Activation).IsOrderly k) :
    (Activation.follow frames (f.resume w o).next).IsOrderly k := by
  have hf := ha.frame f List.mem_cons_self
  have ho := ha.outcome o rfl
  have hway := f.way_resume w o
  generalize (f.resume w o).next = n at hway
  refine Activation.isOrderly_follow (fun g hg => ha.frame g (List.mem_cons_of_mem _ hg))
    (fun p hp => ?_) (fun g hg => ?_) (fun o' ho' => ?_)
  · cases hway <;> cases hp <;> trivial
  · cases hway <;> cases hg
    exact fun o' ho' => Option.some.inj ho' ▸ ho
  · cases hway <;> cases ho'
    rename_i h
    rcases h with ⟨e, -, rfl⟩ | hplain | hcarried
    · exact ho
    · exact hplain.isContainable
    · exact hf.isContainable hcarried

private theorem Call.isOrderly_activation {c : Call} (hc : c.IsOrderly k) :
    c.activation.IsOrderly k where
  point p hp := by
    cases c.enters_of_control hp <;> trivial
  outcome o ho := by
    obtain ⟨-, -, rfl⟩ := Call.eq_of_control ho
    rfl
  frame f hf := by simp [Call.frames_activation] at hf

namespace System

variable {s s' : System} {m : Move}

/-- What a system is like in an orderly run. -/
private structure IsOrderly (k : CoordinatorId) (s : System) : Prop where
  ongoing : ∀ x ∈ s.ongoing, x.activation.IsOrderly k
  request : ∀ q < s.world.requestCount, (s.world.request q).IsOrderly k

private theorem request_isOrderly_of_transition (ht : Transition s m s') (hm : m.IsOrderly k)
    (hs : s.IsOrderly k) : ∀ q < s'.world.requestCount, (s'.world.request q).IsOrderly k := by
  intro q hq
  by_cases hlt : q < s.world.requestCount
  · exact (hs.request q hlt).of_fixed (ht.grows.request q hlt).fixed
  · cases ht with
    | step newer older t j p frames he hn hp =>
      have hx : ⟨t, j, ⟨.ready p, frames⟩⟩ ∈ s.ongoing := he ▸ by simp
      rcases p.requestCount_step s.world with h | ⟨k', c, d, extra, rfl, h⟩
      · exact absurd (show q < s.world.requestCount from h ▸ hq) hlt
      · have hk : k' = k := (hs.ongoing _ hx).point _ rfl
        have hnew : q = s.world.requestCount := by
          have hle : q < s.world.requestCount + 1 := h ▸ hq
          omega
        rw [hnew, proceed, Point.request_step_draw]
        exact ⟨congrArg Listener.coordinator hk, extra, rfl⟩
    | make => exact hm.elim
    | _ => exact absurd hq hlt

private theorem isOrderly_of_transition (ht : Transition s m s') (hm : m.IsOrderly k)
    (hb : s.IsBounded) (hs : s.IsOrderly k) : s'.IsOrderly k where
  ongoing := by
    refine forall_ongoing_of_transition (P := fun _ x => x.activation.IsOrderly k) ht hs.ongoing
      (fun _ _ h => h) ?_ ?_ ?_ ?_ ?_
    · intro t c hc _
      subst hc
      exact Call.isOrderly_activation hm
    · exact fun t x _ _ => Call.isOrderly_activation trivial
    · exact fun t j p frames hx _ ha => Activation.isOrderly_step ha fun q hq =>
        hs.request q (hb.of_ready hx rfl q hq)
    · exact fun t j o f frames hx ha => Activation.isOrderly_resume ha
    · intro t j i frames a ha hx h
      subst ha
      refine ⟨fun p hp => (by cases hp), fun o ho => ?_, h.frame⟩
      cases ho
      cases a with
      | ok p => trivial
      | error f => exact hm
  request := request_isOrderly_of_transition ht hm hs

private theorem Reachable.isOrderly (hs : Reachable (Move.IsOrderly k) s) : s.IsOrderly k :=
  hs.induction (fun w hw => ⟨by simp, by simp [hw.requestCount]⟩) fun _ _ _ hs hm ht h =>
    isOrderly_of_transition ht hm hs.isBounded h

theorem Reachable.isOrderly_of_mem (hs : Reachable (Move.IsOrderly k) s) {x : Ongoing}
    (hx : x ∈ s.ongoing) : x.activation.IsOrderly k :=
  hs.isOrderly.ongoing x hx

theorem Reachable.request_isOrderly (hs : Reachable (Move.IsOrderly k) s) {q : RequestId}
    (hq : q < s.world.requestCount) : (s.world.request q).IsOrderly k :=
  hs.isOrderly.request q hq

end System

end Rendezvous
