import Rendezvous.Proofs.Threads.Growth

/-!
# Completion

A request is completed under its lock. The call that completed it then goes through the
interceptors, the last one first, before it tells the listener and releases those who wait. The
hooks of a cell end the life of that cell, so whoever is released finds the cell of the request
expired.

## Main definitions

* `World.IsClosing`: a request is completed and certain cells have expired.
* `System.IsStarted`: a coordinator made the request in a start.

## Main results

* `System.Reachable.isClosing_of_isReleased`: a released request is completed, and the cells whose
  hooks accompany it have expired.
* `System.Reachable.interceptors_of_isStarted`: the hooks of the cell of a started request accompany
  it.
-/

namespace Rendezvous

/-- Whether a request is completed and the cells whose hooks accompany it have expired, but for
those that remain. -/
structure World.IsClosing (w : World) (q : RequestId) (rest : List Interceptor) : Prop where
  completed : (w.request q).completed = true
  expired (d : CellId) : .hooks d ∈ (w.request q).interceptors →
    .hooks d ∈ rest ∨ (w.cell d).expired = true
  subset : rest ⊆ (w.request q).interceptors

theorem World.IsClosing.grow {w w' : World} {q : RequestId} {rest : List Interceptor}
    (h : w.IsClosing q rest) (hq : q < w.requestCount) (hw : w.Grows w') :
    w'.IsClosing q rest where
  completed := (hw.request q hq).completed h.completed
  expired d hd := by
    rw [Request.interceptors_eq_of_fixed (hw.request q hq).fixed] at hd
    exact (h.expired d hd).imp_right (hw.expired d)
  subset := (Request.interceptors_eq_of_fixed (hw.request q hq).fixed).symm ▸ h.subset

/-! ### The pass through the interceptors -/

/-- What holds where a call stands within the completion of a request. -/
def Point.Closes (w : World) : Point → Prop
  | .request q .cancelTimer => (w.request q).completed = true
  | .request q (.completionHooks rest) => w.IsClosing q rest
  | .request q .tellListener | .request q .release | .coordinator _ (.retire q) => w.IsClosing q []
  | _ => True

/-- What holds of a frame within the completion of a request. The hooks of a cell that are being
called have either ended the life of the cell or are about to. -/
def Frame.Closes (w : World) (control : Control) : Frame → Prop
  | .request q (.completionHook rest) => (w.request q).completed = true ∧
    rest ⊆ (w.request q).interceptors ∧ ∀ d, .hooks d ∈ (w.request q).interceptors →
      .hooks d ∈ rest ∨ (w.cell d).expired = true ∨ control = .ready (.cell d .expire)
  | .request q .told => w.IsClosing q []
  | _ => True

/-- What holds of a call in progress with regard to completion. -/
structure Activation.Closes (w : World) (a : Activation) : Prop where
  point (p : Point) : a.control = .ready p → p.Closes w
  frame : ∀ f ∈ a.frames, f.Closes w a.control

section Closes

variable {w w' : World} (hw : w.Grows w')

include hw

theorem Point.Closes.grow {p : Point} (hp : p.Closes w)
    (hq : ∀ q ∈ p.requests, q < w.requestCount) : p.Closes w' := by
  unfold Closes at hp ⊢
  split at hp
  · rename_i q
    exact (hw.request q (hq q (by simp [requests]))).completed hp
  · exact hp.grow (hq _ (by simp [requests])) hw
  · exact hp.grow (hq _ (by simp [requests])) hw
  · exact hp.grow (hq _ (by simp [requests])) hw
  · exact hp.grow (hq _ (by simp [requests, CoordinatorPoint.requests])) hw
  · trivial

/-- A frame keeps what holds of it when its callee goes on, unless the life of a cell does not end
as it should. -/
theorem Frame.Closes.grow {f : Frame} {control control' : Control} (hf : f.Closes w control)
    (hq : ∀ q ∈ f.requests, q < w.requestCount)
    (hcontrol : ∀ d, control = .ready (.cell d .expire) →
      (w'.cell d).expired = true ∨ control' = .ready (.cell d .expire)) : f.Closes w' control' := by
  unfold Closes at hf ⊢
  split at hf
  · rename_i q rest
    have hgrows := hw.request q (hq q (by simp [requests]))
    have hsame := Request.interceptors_eq_of_fixed hgrows.fixed
    refine ⟨hgrows.completed hf.1, hsame.symm ▸ hf.2.1, fun d hd => ?_⟩
    rcases hf.2.2 d (hsame ▸ hd) with h | h | h
    · exact .inl h
    · exact .inr (.inl (hw.expired d h))
    · exact .inr (hcontrol d h)
  · exact hf.grow (hq _ (by simp [requests])) hw
  · trivial

end Closes

variable {w : World} {p : Point} {n : Next} {frames : List Frame}

private theorem closes_follow (hframes : ∀ f ∈ frames, ∀ control, f.Closes w control)
    (hpoint : ∀ p, n.point? = some p → p.Closes w)
    (hframe : ∀ f p, n = .call f p → f.Closes w (.ready p))
    (hinvoke : ∀ f i, n = .invoke f i → f.Closes w (.inside i)) :
    (Activation.follow frames n).Closes w := by
  refine ⟨fun p hp => hpoint p (Activation.control_follow.mp hp), ?_⟩
  cases n with
  | goto p => exact fun f hf => hframes f hf _
  | finish o => exact fun f hf => hframes f hf _
  | call f p =>
    intro g hg
    rcases List.mem_cons.mp hg with rfl | hg
    · exact hframe g p rfl
    · exact hframes g hg _
  | invoke f i =>
    intro g hg
    rcases List.mem_cons.mp hg with rfl | hg
    · exact hinvoke g i rfl
    · exact hframes g hg _

private theorem Point.closes_step (hp : p.Closes w) (hq : ∀ q ∈ p.requests, q < w.requestCount)
    {p' : Point} (h : (p.step w).next.point? = some p') : p'.Closes (p.step w).world := by
  have hgrows := p.grows_step w
  have hway := p.way_step w
  generalize (p.step w).next = n at hway h
  cases hway <;> cases h <;> try trivial
  case complete q hc => simp [Closes, Point.step, RequestPoint.step, hc, World.modifyRequest]
  case cancelTimer q rest hrest =>
    subst hrest
    have hsame : ((Point.request q .cancelTimer).step w).world.request q = w.request q :=
      World.request_cancel w q q
    rw [← hsame]
    exact ⟨hp.grow hgrows hq, fun d hd => .inl (List.mem_reverse.mpr hd), by simp⟩
  case tellCoordinator q j hj => exact World.IsClosing.grow hp (hq q (by simp [requests])) hgrows
  case tellNobody q => exact World.IsClosing.grow hp (hq q (by simp [requests])) hgrows

private theorem Activation.closes_step (ha : (⟨.ready p, frames⟩ : Activation).Closes w)
    (hq : ∀ q ∈ (⟨.ready p, frames⟩ : Activation).requests, q < w.requestCount) :
    (Activation.follow frames (p.step w).next).Closes (p.step w).world := by
  have hp := ha.point p rfl
  have hpoint : ∀ q ∈ p.requests, q < w.requestCount := fun q h =>
    hq q (List.mem_append_left _ h)
  have hgrows := p.grows_step w
  refine closes_follow (fun f hf control => ?_)
    (fun p' hp' => Point.closes_step hp hpoint hp') (fun f p' hn => ?_) (fun f i hn => ?_)
  · refine (ha.frame f hf).grow hgrows (fun q h => ?_) fun d hd => .inl ?_
    · exact hq q (List.mem_append_right _ (List.mem_flatMap.mpr ⟨f, hf, h⟩))
    · cases hd
      simp [Point.step, CellPoint.step]
  · have hway := p.way_step w
    rw [hn] at hway
    cases hway <;> try trivial
    case completionHooksCell q c rest =>
      refine ⟨hp.completed, fun i hi => hp.subset (List.mem_cons_of_mem _ hi), fun d hd => ?_⟩
      rcases hp.expired d hd with h | h
      · rcases List.mem_cons.mp h with h | h
        · cases h
          exact .inr (.inr rfl)
        · exact .inl h
      · exact .inr (.inl h)
    case tellCoordinator q k hk =>
      exact World.IsClosing.grow hp (hpoint q (by simp [Point.requests])) hgrows
  · have hway := p.way_step w
    rw [hn] at hway
    cases hway <;> try trivial
    case completionHooksCustom q i j k rest =>
      refine ⟨hp.completed, fun i hi => hp.subset (List.mem_cons_of_mem _ hi), fun d hd => ?_⟩
      rcases hp.expired d hd with h | h
      · exact .inl (by simpa using h)
      · exact .inr (.inl h)

private theorem Activation.closes_resume {f : Frame} {o : Outcome}
    (ha : (⟨.ended o, f :: frames⟩ : Activation).Closes w)
    (hq : ∀ q ∈ (⟨.ended o, f :: frames⟩ : Activation).requests, q < w.requestCount) :
    (Activation.follow frames (f.resume w o).next).Closes w := by
  have hf := ha.frame f List.mem_cons_self
  have hway := f.way_resume w o
  generalize (f.resume w o).next = n at hway
  refine closes_follow (fun g hg control => ?_) (fun p hp => ?_) (fun g p hn => ?_)
    (fun g i hn => ?_)
  · refine (ha.frame g (List.mem_cons_of_mem _ hg)).grow (.refl w) (fun q h => ?_)
      fun d hd => by cases hd
    exact hq q (List.mem_append_right _
      (List.mem_flatMap.mpr ⟨g, List.mem_cons_of_mem _ hg, h⟩))
  · cases hway
    case completionHook q rest =>
      cases hp
      refine ⟨hf.1, fun d hd => (hf.2.2 d hd).imp_right fun h => ?_, hf.2.1⟩
      exact h.resolve_right (by simp)
    case told q a =>
      cases hp
      exact hf
    all_goals
      cases hp
      try trivial
  · cases hway <;> cases hn
    trivial
  · cases hway <;> cases hn

private theorem Activation.closes_answer {i : Invocation} {o : Outcome}
    (ha : (⟨.inside i, frames⟩ : Activation).Closes w)
    (hq : ∀ q ∈ (⟨.inside i, frames⟩ : Activation).requests, q < w.requestCount) :
    (⟨.ended o, frames⟩ : Activation).Closes w := by
  refine ⟨fun p hp => (by cases hp), fun f hf => ?_⟩
  refine (ha.frame f hf).grow (.refl w) (fun q h => ?_) fun d hd => by cases hd
  exact hq q (List.mem_append_right _ (List.mem_flatMap.mpr ⟨f, hf, h⟩))

private theorem Activation.Closes.grow {w' : World} {a : Activation} (ha : a.Closes w)
    (hq : ∀ q ∈ a.requests, q < w.requestCount) (hw : w.Grows w') : a.Closes w' where
  point p hp := (ha.point p hp).grow hw fun q h =>
    hq q (List.mem_append_left _ (by rwa [hp]))
  frame f hf := (ha.frame f hf).grow hw
    (fun q h => hq q (List.mem_append_right _ (List.mem_flatMap.mpr ⟨f, hf, h⟩)))
    fun d hd => .inr hd

private theorem Call.closes (call : Call) : call.activation.Closes w where
  point p hp := by
    cases call.enters_of_control hp <;> trivial
  frame f hf := by simp [Call.frames_activation] at hf

namespace System

variable {s s' : System} {m : Move} {allowed : Move → Prop} {q : RequestId}

theorem Reachable.closes (hs : Reachable allowed s) :
    ∀ x ∈ s.ongoing, x.activation.Closes s.world := by
  refine hs.induction (I := fun s => ∀ x ∈ s.ongoing, x.activation.Closes s.world)
    (fun _ _ => by simp) fun s m s' hs _ ht h => ?_
  have hb := hs.isBounded.ongoing
  exact forall_ongoing_of_transition (P := fun w x => x.activation.Closes w) ht h
    (fun x hx ha => ha.grow (hb x hx) ht.grows)
    (fun t c _ _ => c.closes)
    (fun t x _ _ => Call.closes _)
    (fun t k p frames hx _ ha => Activation.closes_step ha (hb _ hx))
    (fun t k o f frames hx ha => Activation.closes_resume ha (hb _ hx))
    (fun t k i frames a _ hx ha => Activation.closes_answer ha (hb _ hx))

/-- A released request is completed, and the cells whose hooks accompany it have expired. -/
theorem Reachable.isClosing_of_isReleased (hs : Reachable allowed s) (hr : s.IsReleased q) :
    s.world.IsClosing q [] := by
  refine hs.induction (I := fun s => ∀ q, s.IsReleased q → s.world.IsClosing q []) ?_
    (fun s m s' hs _ ht h q hr => ?_) q hr
  · intro w hw q hr
    rw [IsReleased, hw.request_eq q] at hr
    cases hr
  · by_cases hq : q < s.world.requestCount
    · have hgrows := ht.grows
      rcases ht.world with ⟨he, -⟩ | ⟨t, k, p, frames, hx, -, he, -⟩
      · exact (h q (by rwa [IsReleased, ← he q hq])).grow hq hgrows
      · rw [IsReleased, he] at hr
        rcases p.request_step_of_lt q hq with h' | ⟨-, h'⟩ | ⟨_, -, h'⟩ | ⟨-, h'⟩ | ⟨-, h'⟩ |
          ⟨rfl, -⟩
        · exact (h q (by rwa [h'] at hr)).grow hq hgrows
        · exact (h q (by rwa [h'] at hr)).grow hq hgrows
        · exact (h q (by rwa [h'] at hr)).grow hq hgrows
        · exact (h q (by rwa [h'] at hr)).grow hq hgrows
        · exact (h q (by rwa [h'] at hr)).grow hq hgrows
        · have hpoint := (hs.closes _ hx).point _ rfl
          exact World.IsClosing.grow hpoint hq hgrows
    · rw [IsReleased, ← ht.request_of_le hs.isBounded (Nat.not_lt.mp hq)] at hr
      cases hr

/-! ### Requests that a coordinator made -/

end System

/-- Whether a coordinator makes a request in an event. -/
def Event.starts (q : RequestId) (e : Event) : Bool :=
  match e.deed with
  | .step (.coordinator _ (.draw ..)) (.goto (.coordinator _ (.activate r))) => r = q
  | _ => false

namespace System

variable {s s' : System} {m : Move} {allowed : Move → Prop} {q : RequestId}

/-- Whether a coordinator made a request in a start. -/
def IsStarted (s : System) (q : RequestId) : Prop :=
  s.history.any (Event.starts q) = true

/-- A started request has been made, and a coordinator fixed its fields. -/
private theorem Reachable.fixed_of_isStarted (hs : Reachable allowed s) (hq : s.IsStarted q) :
    q < s.world.requestCount ∧ ∃ (x : Coordinator) (k : CoordinatorId) (c : CellId) (cell : Cell)
      (d : Option CallbackId) (extra : List Interceptor),
      (s.world.request q).fixed = (x.newRequest k c cell d extra).fixed := by
  obtain ⟨⟨t, j, deed⟩, he, hstarts⟩ := List.any_eq_true.mp hq
  obtain ⟨before, after, hh⟩ := List.append_of_mem he
  obtain ⟨s₀, m, s₁, -, -, ht, hl, rfl, h₁⟩ := hs.exists_transition hh
  unfold Event.starts at hstarts
  split at hstarts
  case h_2 => cases hstarts
  rename_i k c d extra k' r hd
  cases hd
  cases of_decide_eq_true hstarts
  obtain ⟨newer, older, frames, -, -, -, hn, rfl⟩ := ht.exists_of_step h₁
  cases hn
  have hlt : s₀.world.requestCount < s₀.world.requestCount + 1 := Nat.lt_succ_self _
  refine ⟨Nat.lt_of_lt_of_le hlt hl.grows.requestCount, s₀.world.coordinator k, k, c,
    s₀.world.cell c, d, extra, ?_⟩
  exact ((hl.grows.request _ hlt).fixed).trans
    (congrArg Request.fixed (Point.request_step_draw s₀.world k c d extra))

theorem Reachable.lt_of_isStarted (hs : Reachable allowed s) (hq : s.IsStarted q) :
    q < s.world.requestCount :=
  (hs.fixed_of_isStarted hq).1

theorem Leads.isStarted (hl : Leads allowed s s') (hq : s.IsStarted q) : s'.IsStarted q := by
  obtain ⟨e, he, hstart⟩ := List.any_eq_true.mp hq
  exact List.any_eq_true.mpr ⟨e, hl.history_prefix.subset he, hstart⟩

/-- The hooks of its cell accompany a started request, before all others. -/
theorem Reachable.interceptors_of_isStarted (hs : Reachable allowed s) (hq : s.IsStarted q) :
    ∃ extra, (s.world.request q).interceptors = .hooks (s.world.request q).cell :: extra := by
  obtain ⟨-, x, k, c, cell, d, extra, h⟩ := hs.fixed_of_isStarted hq
  rw [Request.interceptors_eq_of_fixed h, Request.cell_eq_of_fixed h]
  exact ⟨extra, rfl⟩

/-- A started request tells a coordinator about its end. -/
theorem Reachable.listener_of_isStarted (hs : Reachable allowed s) (hq : s.IsStarted q) :
    ∃ k, (s.world.request q).listener = .coordinator k := by
  obtain ⟨-, x, k, c, cell, d, extra, h⟩ := hs.fixed_of_isStarted hq
  exact ⟨k, Request.listener_eq_of_fixed h⟩

/-- The cell of a started request that is released has expired. -/
theorem Reachable.expired_of_isReleased (hs : Reachable allowed s) (hq : s.IsStarted q)
    (hr : s.IsReleased q) : (s.world.cell (s.world.request q).cell).expired = true := by
  obtain ⟨extra, hx⟩ := hs.interceptors_of_isStarted hq
  exact ((hs.isClosing_of_isReleased hr).expired _ (by simp [hx])).resolve_left (by simp)

/-- A new world in which a coordinator gives its requests no timeouts. -/
def untimed : World :=
  (default : World).setCoordinator 0 { settings := { defaultTimeoutMs := 0 } }

theorem isNew_untimed : untimed.IsNew where
  cell _ := ⟨rfl, rfl, rfl⟩
  active k := by
    rw [untimed, World.coordinator_setCoordinator]
    split <;> rfl
  requestCount := rfl
  requests := rfl
  timers := rfl

/-- A thread starts a request. -/
def starting : List Move :=
  .begin 0 (.start 0 0 (some "d") []) :: List.replicate 9 (.advance 0) ++ [.finish 0]

theorem isStarted_of_run_starting {ms : List Move}
    (h : run { world := untimed } (starting ++ ms) = some s) : s.IsStarted 0 := by
  rw [run_append] at h
  obtain ⟨s₀, h₀, h⟩ := Option.bind_eq_some_iff.mp h
  have hstarts : (run { world := untimed } starting).map
      (fun s => s.history.any (Event.starts 0)) = some true := rfl
  rw [h₀] at hstarts
  exact (leads_of_run (fun _ _ => trivial) h : Leads Move.any s₀ s).isStarted
    (Option.some.inj hstarts)

/-- A request is answered, which completes and releases it. -/
def answered : List Move :=
  starting ++ .begin 1 (.setResult 0 (.text "A")) :: List.replicate 6 (.advance 1) ++
    .answer 1 (.ok .null) :: List.replicate 14 (.advance 1) ++ [.finish 1]

end System

end Rendezvous
