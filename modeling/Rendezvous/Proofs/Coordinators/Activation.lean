import Rendezvous.Proofs.Coordinators.Orderly
import Rendezvous.Proofs.Requests.Completion

/-!
# Activation

A start makes a request in one step and activates it in another. Until then no other call, no cell,
no timer and no user code names the request, so it is activated at most once, and whatever anyone
does about it comes later. An activated request is in flight with its coordinator until the cell of
the request has expired.

## Main definitions

* `System.activating`, `System.activations`: the requests that calls are about to activate, and
  those that were activated.
* `System.IsActivated`: a request was activated.

## Main results

* `System.Reachable.nodup_activations`: a request is activated at most once.
* `System.Reachable.isActivated_of_ready`, `System.Reachable.isActivated_of_handler`,
  `System.Reachable.isActivated_of_find?`, `System.Reachable.isActivated_of_known`,
  `System.Reachable.isActivated_of_timer`: whatever names a request that a coordinator made, but for
  the call that activates it, names an activated one.
* `System.Reachable.inFlight_or_expired`: an activated request is in flight, or its cell has
  expired.
-/

namespace Rendezvous

/-- The request that a call is about to activate. -/
def Control.activating? : Control → Option RequestId
  | .ready (.coordinator _ (.activate q)) => some q
  | _ => none

/-- The request that is activated in an event. -/
def Event.activation? : Event → Option RequestId :=
  ofStep fun _ p n => match p, n with
    | .coordinator _ (.activate q), .goto _ => some q
    | _, _ => none

namespace System

/-- The requests that calls are about to activate. -/
def activating (s : System) : List RequestId :=
  s.ongoing.filterMap fun x => x.activation.control.activating?

/-- The requests that were activated. -/
def activations (s : System) : List RequestId :=
  s.history.filterMap Event.activation?

/-- Whether a request was activated. -/
def IsActivated (s : System) (q : RequestId) : Prop :=
  q ∈ s.activations

end System

variable {w : World} {p : Point} {k : CoordinatorId} {frames : List Frame} {t : ThreadId}
  {j : CallNumber} {q : RequestId}

/-! ### Once at most -/

/-- A step comes to the activation of the request that it has just made, or activates the request
that it was about to, or has nothing to do with it. -/
private theorem activating?_step (w : World) (p : Point) (frames : List Frame) (t : ThreadId)
    (j : CallNumber) :
    (∃ k c d extra, p = .coordinator k (.draw c d extra) ∧
      (Activation.follow frames (p.step w).next).control.activating? = some w.requestCount ∧
      Event.activation? ⟨t, j, .step p (p.step w).next⟩ = none) ∨
    (Activation.follow frames (p.step w).next).control.activating? = none ∧
      (Event.activation? ⟨t, j, .step p (p.step w).next⟩ = none ∨
        Event.activation? ⟨t, j, .step p (p.step w).next⟩ = (Control.ready p).activating?) := by
  have hway := p.way_step w
  generalize (p.step w).next = n at hway
  cases hway
  case draw k c d extra q hq => exact .inl ⟨k, c, d, extra, rfl, by rw [hq]; rfl, rfl⟩
  case activate k q h => exact .inr ⟨rfl, .inr rfl⟩
  case finish o ho =>
    refine .inr ⟨rfl, .inl ?_⟩
    simp [Event.activation?, Event.ofStep]
  all_goals exact .inr ⟨rfl, .inl rfl⟩

private theorem activating?_resume {f : Frame} {o : Outcome} :
    (Activation.follow frames (f.resume w o).next).control.activating? = none := by
  have hway := f.way_resume w o
  generalize (f.resume w o).next = n at hway
  cases hway <;> rfl

private theorem Call.activating?_control (c : Call) : c.control.activating? = none := by
  rcases c with _ | _ | ⟨_, _ | _⟩ | _ | _ | _ | _ | _ | _ | _ | _ | _ | _ | _ | _ | _ <;> rfl

namespace System

variable {s s' : System} {m : Move} {allowed : Move → Prop}

private theorem mem_requests_of_activating? {x : Activation}
    (h : x.control.activating? = some q) : q ∈ x.requests := by
  obtain ⟨control, frames⟩ := x
  unfold Control.activating? at h
  split at h
  · rename_i hc
    cases h
    refine List.mem_append_left _ ?_
    rw [show control = _ from hc]
    exact List.mem_singleton.mpr rfl
  · cases h

/-- The requests about to be activated and those activated are all made, and all different. -/
private structure IsTicketed (s : System) : Prop where
  nodup : (s.activating ++ s.activations).Nodup
  lt : ∀ q ∈ s.activations, q < s.world.requestCount

private theorem IsTicketed.congr (hs : s.IsTicketed) (hactivating : s'.activating = s.activating)
    (hactivations : s'.activations = s.activations)
    (hcount : s.world.requestCount ≤ s'.world.requestCount) : s'.IsTicketed where
  nodup := by rw [hactivating, hactivations]; exact hs.nodup
  lt q hq := Nat.lt_of_lt_of_le (hs.lt q (hactivations ▸ hq)) hcount

private theorem isTicketed_step {newer older : List Ongoing} (hb : s.IsBounded)
    (hs : s.IsTicketed) (he : s.ongoing = newer ++ ⟨t, j, ⟨.ready p, frames⟩⟩ :: older) :
    (s.proceed newer ⟨t, j, ⟨.ready p, frames⟩⟩ older (p.step s.world).world
      (.follow frames (p.step s.world).next) (.step p (p.step s.world).next)).IsTicketed := by
  have hle := p.requestCount_le_step s.world
  have hlt : ∀ q ∈ s.activating ++ s.activations, q < s.world.requestCount := by
    intro q hq
    rcases List.mem_append.mp hq with hq | hq
    · obtain ⟨x, hx, hq⟩ := List.mem_filterMap.mp hq
      exact hb.ongoing x hx q (mem_requests_of_activating? hq)
    · exact hs.lt q hq
  have hcount := List.nodup_iff_count.mp hs.nodup
  have hnew (q : RequestId) : s.world.requestCount ≤ q →
      (s.activating ++ s.activations).count q = 0 := fun h =>
    List.count_eq_zero_of_not_mem fun hq => absurd (hlt q hq) (Nat.not_lt.mpr h)
  simp only [activating, activations, he, filterMap_append_cons, List.count_append] at hcount hnew
  refine ⟨List.nodup_iff_count.mpr fun q => ?_, fun q hq => ?_⟩
  · simp only [activating, activations, proceed, filterMap_append_cons, List.count_append,
      List.filterMap_nil, List.count_nil]
    have hq := hcount q
    rcases activating?_step s.world p frames t j with
      ⟨k, c, d, extra, rfl, hg, hh⟩ | ⟨hg, hh | hh⟩
    · -- The request that is drawn now was named nowhere before.
      rw [hg, hh]
      by_cases hqc : q = s.world.requestCount
      · have hzero := hnew q (Nat.le_of_eq hqc.symm)
        simp only [Option.toList_some, Option.toList_none, List.count_nil, hqc,
          List.count_singleton_self] at hzero ⊢
        omega
      · rw [Option.toList_some, List.count_singleton, if_neg (by simpa using Ne.symm hqc)]
        simp only [Option.toList_none, List.count_nil]
        omega
    all_goals
      rw [hg, hh]
      simp only [Option.toList_none, List.count_nil]
      omega
  · rw [activations, proceed, filterMap_append_cons] at hq
    rcases List.mem_append.mp hq with hq | hq
    · exact Nat.lt_of_lt_of_le (hs.lt q hq) hle
    · rcases activating?_step s.world p frames t j with
        ⟨k, c, d, extra, rfl, -, hh⟩ | ⟨-, hh | hh⟩ <;> simp [hh] at hq
      refine Nat.lt_of_lt_of_le ?_ hle
      exact hb.ongoing ⟨t, j, ⟨.ready p, frames⟩⟩ (he ▸ by simp) q (mem_requests_of_activating? hq)

private theorem isTicketed_of_transition (ht : Transition s m s') (hb : s.IsBounded)
    (hs : s.IsTicketed) : s'.IsTicketed := by
  have hle := requestCount_le_of_transition ht
  cases ht with
  | begin | fire =>
    refine hs.congr ?_ ?_ hle
    · simp [activating, enter, Call.activation, Call.activating?_control]
    · simp [activations, enter, Event.activation?, Event.ofStep]
  | make => exact hs.congr rfl rfl hle
  | step newer older t j p frames he hn hp => exact isTicketed_step hb hs he
  | resume newer older t j o f frames he hn =>
    refine hs.congr ?_ ?_ hle
    · simp only [activating, proceed, he, filterMap_append_cons, activating?_resume]
      rfl
    · simp [activations, proceed, Event.activation?, Event.ofStep]
  | answer newer older t j i frames a he hn =>
    refine hs.congr ?_ ?_ hle
    · simp only [activating, proceed, he, filterMap_append_cons]
      rfl
    · simp [activations, proceed, Event.activation?, Event.ofStep]
  | finish newer older t j o he hn =>
    refine hs.congr ?_ ?_ hle
    · simp only [activating, leave, he, List.filterMap_append]
      rfl
    · simp [activations, leave, Event.activation?, Event.ofStep]

private theorem Reachable.isTicketed (hs : Reachable allowed s) : s.IsTicketed :=
  hs.induction (fun _ _ => ⟨List.nodup_nil, by simp [activations]⟩) fun _ _ _ hs _ ht h =>
    isTicketed_of_transition ht hs.isBounded h

/-- A request is activated at most once. -/
theorem Reachable.nodup_activations (hs : Reachable allowed s) : s.activations.Nodup :=
  (List.nodup_append.mp hs.isTicketed.nodup).2.1

theorem Reachable.lt_of_isActivated (hs : Reachable allowed s) (hq : s.IsActivated q) :
    q < s.world.requestCount :=
  hs.isTicketed.lt q hq

/-- A request that a call is about to activate was not activated before. -/
theorem Reachable.not_isActivated (hs : Reachable allowed s) {x : Ongoing} (hx : x ∈ s.ongoing)
    (hq : x.activation.control.activating? = some q) : ¬ s.IsActivated q := fun h =>
  (List.nodup_append.mp hs.isTicketed.nodup).2.2 q
    (List.mem_filterMap.mpr ⟨x, hx, hq⟩) q h rfl

end System

/-! ### What names a request -/

theorem Point.next_activate
    (h : (w.coordinator k).active.contains (w.request q).cell = false) :
    ((Point.coordinator k (.activate q)).step w).next = .goto (.coordinator k (.noteStart q)) := by
  simp [step, CoordinatorPoint.step, h]

/-- A request that a step goes on with is about to be activated, or was activated before or in the
step. -/
private theorem activated_of_way {R : RequestId → Prop} {n : Next} (h : p.Way w n)
    (hpoint : ∀ q ∈ p.requests, (Control.ready p).activating? = some q ∨ R q)
    (hhandler : ∀ c q, (w.cell c).handler = some (.request q) → R q)
    (hactive : ∀ k, ∀ q ∈ (w.coordinator k).active.values, R q)
    (hstep : ∀ k q p', p = .coordinator k (.activate q) → n = .goto p' → R q) :
    ∀ q ∈ n.requests, (∃ k, n = .goto (.coordinator k (.activate q))) ∨ R q := by
  intro q hq
  rcases Point.requests_of_way h q hq with hp | ⟨c, hc⟩ | ⟨k, hk⟩ | ⟨rfl, k, c, d, extra, rfl⟩
  · rcases hpoint q hp with ha | hR
    · unfold Control.activating? at ha
      split at ha
      · rename_i k q' hc
        cases hc
        cases ha
        cases h with
        | finish p o ho => simp [Next.requests, Outcome.requests_of_isPlain ho] at hq
        | activate k q hactive => exact .inr (hstep k q _ rfl rfl)
      · cases ha
    · exact .inr hR
  · exact .inr (hhandler c q hc)
  · exact .inr (hactive k q hk)
  · cases h with
    | finish p o ho => simp [Next.requests, Outcome.requests_of_isPlain ho] at hq
    | draw k c d extra q' hq' => exact .inl ⟨k, by rw [hq']⟩

/-- Where a call goes on with certain requests, its place and its frames name them only. -/
private theorem activated_follow {R : RequestId → Prop} {n : Next}
    (hn : ∀ q ∈ n.requests, (∃ k, n = .goto (.coordinator k (.activate q))) ∨ R q)
    (hframes : ∀ f ∈ frames, ∀ q ∈ f.requests, R q) :
    (∀ q ∈ (Activation.follow frames n).control.requests,
      (Activation.follow frames n).control.activating? = some q ∨ R q) ∧
    ∀ f ∈ (Activation.follow frames n).frames, ∀ q ∈ f.requests, R q := by
  have hother (hne : ∀ p, n ≠ .goto p) : ∀ q ∈ n.requests, R q := by
    intro q hq
    rcases hn q hq with ⟨k, h⟩ | h
    · exact absurd h (hne _)
    · exact h
  cases n with
  | goto p =>
    refine ⟨fun q hq => ?_, hframes⟩
    rcases hn q hq with ⟨k, h⟩ | h
    · cases h
      exact .inl rfl
    · exact .inr h
  | call f p =>
    have hR := hother (by simp)
    refine ⟨fun q hq => .inr (hR q (List.mem_append_right _ hq)), fun g hg q hq => ?_⟩
    rcases List.mem_cons.mp hg with rfl | hg
    · exact hR q (List.mem_append_left _ hq)
    · exact hframes g hg q hq
  | invoke f i =>
    refine ⟨fun q hq => by simp [Activation.follow, Control.requests] at hq, fun g hg q hq => ?_⟩
    rcases List.mem_cons.mp hg with rfl | hg
    · exact hother (by simp) q hq
    · exact hframes g hg q hq
  | finish o => exact ⟨fun q hq => .inr (hother (by simp) q hq), hframes⟩

namespace System

variable {s s' : System} {m : Move} {allowed : Move → Prop}

theorem Leads.isActivated (hl : Leads allowed s s') (hq : s.IsActivated q) : s'.IsActivated q :=
  (hl.history_prefix.filterMap _).subset hq

theorem Transition.isActivated (ht : Transition s m s') (hq : s.IsActivated q) :
    s'.IsActivated q :=
  (ht.history_prefix.filterMap _).subset hq

/-- A request that has been made is started only in the step that makes it. -/
theorem Transition.isStarted_of_lt (ht : Transition s m s') (hq : q < s.world.requestCount)
    (hstart : s'.IsStarted q) : s.IsStarted q := by
  obtain ⟨⟨t, j, deed⟩, he, hstarts⟩ := List.any_eq_true.mp hstart
  rcases ht.history with hh | ⟨e, hh⟩
  · exact List.any_eq_true.mpr ⟨_, hh ▸ he, hstarts⟩
  · rw [hh, List.mem_append, List.mem_singleton] at he
    rcases he with he | rfl
    · exact List.any_eq_true.mpr ⟨_, he, hstarts⟩
    · unfold Event.starts at hstarts
      split at hstarts
      · rename_i hd
        cases hd
        obtain ⟨_, _, _, -, -, -, hn, -⟩ := ht.exists_of_step hh
        cases hn
        exact absurd (of_decide_eq_true hstarts) (Nat.ne_of_gt hq)
      · cases hstarts

theorem Leads.isStarted_of_lt (hl : Leads allowed s s') (hq : q < s.world.requestCount)
    (hstart : s'.IsStarted q) : s.IsStarted q := by
  induction hl with
  | refl => exact hstart
  | move m hl _ ht ih =>
    exact ih ((transition_of_take? ht).isStarted_of_lt
      (Nat.lt_of_lt_of_le hq hl.grows.requestCount) hstart)

/-- Whether a request was activated, if a coordinator made it. -/
private def IsCleared (s : System) (q : RequestId) : Prop :=
  s.IsStarted q → s.IsActivated q

private theorem IsCleared.mono (ht : Transition s m s') (hq : q < s.world.requestCount)
    (h : s.IsCleared q) : s'.IsCleared q :=
  fun hstart => ht.isActivated (h (ht.isStarted_of_lt hq hstart))

/-- What names a started request, but for the call that activates it, names an activated one. -/
private structure NamesActivated (s : System) : Prop where
  control : ∀ x ∈ s.ongoing, ∀ q ∈ x.activation.control.requests,
    x.activation.control.activating? = some q ∨ s.IsCleared q
  frame : ∀ x ∈ s.ongoing, ∀ f ∈ x.activation.frames, ∀ q ∈ f.requests, s.IsCleared q
  handler (c : CellId) (q : RequestId) :
    (s.world.cell c).handler = some (.request q) → s.IsCleared q
  active (k : CoordinatorId) : ∀ q ∈ (s.world.coordinator k).active.values, s.IsCleared q
  timer : ∀ x ∈ s.world.timers, s.IsCleared x.request
  known : ∀ q ∈ s.known, s.IsCleared q

private theorem isCleared_of_activate {n : Next} (hh : s'.history = s.history ++
      [⟨t, j, .step (.coordinator k (.activate q)) n⟩]) (hn : n = .goto p) : s'.IsCleared q := by
  intro _
  rw [IsActivated, activations, hh, hn]
  simp [Event.activation?, Event.ofStep]

private theorem ongoing_namesActivated (ht : Transition s m s') (hb : s.IsBounded)
    (hs : s.NamesActivated) :
    ∀ x ∈ s'.ongoing, (∀ q ∈ x.activation.control.requests,
        x.activation.control.activating? = some q ∨ s'.IsCleared q) ∧
      ∀ f ∈ x.activation.frames, ∀ q ∈ f.requests, s'.IsCleared q := by
  refine forall_ongoing_of_transition (P := fun _ x => (∀ q ∈ x.activation.control.requests,
      x.activation.control.activating? = some q ∨ s'.IsCleared q) ∧
    ∀ f ∈ x.activation.frames, ∀ q ∈ f.requests, s'.IsCleared q) ht ?_ (fun _ _ h => h)
    ?_ ?_ ?_ ?_ ?_
  · intro x hx
    refine ⟨fun q hq => (hs.control x hx q hq).imp_right (.mono ht ?_),
      fun f hf q hq => (hs.frame x hx f hf q hq).mono ht ?_⟩
    · exact hb.ongoing x hx q (List.mem_append_left _ hq)
    · exact hb.ongoing x hx q (List.mem_append_right _ (List.mem_flatMap.mpr ⟨f, hf, hq⟩))
  · intro t c hm hknown
    refine ⟨fun q hq => .inr ?_, by simp [Call.frames_activation]⟩
    have hq : q ∈ s.known := hknown q (c.requests_control ▸ hq)
    exact (hs.known q hq).mono ht (hb.known q hq)
  · intro t x hm hx
    refine ⟨fun q hq => .inr ?_, by simp [Call.frames_activation]⟩
    rw [show q = x.request from List.mem_singleton.mp hq]
    exact (hs.timer x hx).mono ht (hb.world.timer x hx)
  · intro t j p frames hx hh ⟨hcontrol, hframes⟩
    refine activated_follow (activated_of_way (p.way_step s.world) hcontrol
      (fun c q hc => (hs.handler c q hc).mono ht (hb.world.handler c q hc))
      (fun k q hq => (hs.active k q hq).mono ht (hb.world.active k q hq))
      fun k q p' hp hn => ?_) hframes
    subst hp
    exact isCleared_of_activate hh hn
  · intro t j o f frames hx ⟨hcontrol, hframes⟩
    refine activated_follow (fun q hq => .inr ?_) fun g hg => hframes g (List.mem_cons_of_mem _ hg)
    rcases Frame.requests_of_way (f.way_resume s.world o) q hq with hq | hq
    · exact hframes f List.mem_cons_self q hq
    · exact (hcontrol q hq).resolve_left (by simp [Control.activating?])
  · intro t j i frames a hm hx ⟨hcontrol, hframes⟩
    refine ⟨fun q hq => ?_, hframes⟩
    cases a <;> simp [Control.requests, Outcome.ofUser, Outcome.requests, Outcome.request?] at hq

private theorem namesActivated_of_transition (hr : Reachable allowed s) (ht : Transition s m s')
    (hs : s.NamesActivated) : s'.NamesActivated := by
  have hb := hr.isBounded
  have hongoing := ongoing_namesActivated ht hb hs
  have hpoint {t : ThreadId} {j : CallNumber} {p : Point} {frames : List Frame} {q : RequestId}
      (hx : ⟨t, j, ⟨.ready p, frames⟩⟩ ∈ s.ongoing) (hq : q ∈ p.requests)
      (hp : (Control.ready p).activating? ≠ some q) : s'.IsCleared q :=
    ((hs.control ⟨t, j, ⟨.ready p, frames⟩⟩ hx q hq).resolve_left hp).mono ht
      (hb.of_ready hx rfl q hq)
  refine ⟨fun x hx => (hongoing x hx).1, fun x hx => (hongoing x hx).2, fun c q hc => ?_,
    fun i q hq => ?_, fun x hx => ?_, fun q hq => ?_⟩
  · have hold (hc : (s.world.cell c).handler = some (.request q)) : s'.IsCleared q :=
      (hs.handler c q hc).mono ht (hb.world.handler c q hc)
    rcases ht.world with ⟨-, hcell, -⟩ | ⟨t, j, p, frames, hx, -, he, -⟩
    · exact hold (hcell c ▸ hc)
    · rcases Point.handler_step (he ▸ hc) with hc | rfl
      · exact hold hc
      · exact hpoint hx (List.mem_singleton.mpr rfl) (by rintro ⟨⟩)
  · have hold (hq : q ∈ (s.world.coordinator i).active.values) : s'.IsCleared q :=
      (hs.active i q hq).mono ht (hb.world.active i q hq)
    rcases ht.world with ⟨-, -, hcoordinator, -⟩ | ⟨t, j, p, frames, hx, -, he, hh, -⟩
    · exact hold (hcoordinator i ▸ hq)
    · rw [he] at hq
      rcases p.active_step s.world i with ha | ⟨r, rfl, hc, ha⟩ | ⟨r, -, -, ha⟩ <;> rw [ha] at hq
      · exact hold hq
      · rcases Directory.mem_values_of_mem_put hq with hq | rfl
        · exact hold hq
        · exact isCleared_of_activate hh (Point.next_activate hc)
      · exact hold (Directory.mem_values_of_mem_erase hq)
  · have hold (hx : x ∈ s.world.timers) : s'.IsCleared x.request :=
      (hs.timer x hx).mono ht (hb.world.timer x hx)
    cases ht with
    | step newer older t j p frames he hn hp =>
      have hmem : ⟨t, j, ⟨.ready p, frames⟩⟩ ∈ s.ongoing := he ▸ by simp
      rcases Point.timers_step x hx with hx | ⟨q, rfl, rfl⟩
      · exact hold hx
      · exact hpoint hmem (List.mem_singleton.mpr rfl) (by rintro ⟨⟩)
    | fire t y hfree hy => exact hold (List.mem_filter.mp hx).1
    | _ => exact hold hx
  · have hold (hq : q ∈ s.known) : s'.IsCleared q := (hs.known q hq).mono ht (hb.known q hq)
    have ht' := ht
    cases ht with
    | make =>
      rcases List.mem_append.mp hq with hq | hq
      · exact hold hq
      · -- Nobody has started a request that is made without a coordinator.
        intro hstart
        rw [List.mem_singleton.mp hq] at hstart
        exact absurd (hr.lt_of_isStarted hstart) (Nat.lt_irrefl _)
    | finish newer older t j o he hn =>
      rcases List.mem_append.mp hq with hq | hq
      · exact hold hq
      · have hmem : ⟨t, j, ⟨.ended o, []⟩⟩ ∈ s.ongoing := he ▸ by simp
        refine ((hs.control _ hmem q hq).resolve_left (by rintro ⟨⟩)).mono ht' ?_
        exact hb.ongoing _ hmem q (List.mem_append_left _ hq)
    | _ => exact hold hq

private theorem Reachable.namesActivated (hs : Reachable allowed s) : s.NamesActivated := by
  refine hs.induction (I := NamesActivated)
    (fun w hw => ⟨by simp, by simp, fun c q h => ?_, fun i q h => ?_, ?_, by simp⟩)
    fun _ _ _ hs _ ht h => namesActivated_of_transition hs ht h
  · simp [(hw.cell c).handler] at h
  · simp [Directory.values, hw.active i] at h
  · simp [hw.timers]

end System

private theorem eq_activate_of_activation?
    (h : Event.activation? ⟨t, j, .step p (p.step w).next⟩ = some q) :
    ∃ i, p = .coordinator i (.activate q) ∧
      (w.coordinator i).active.contains (w.request q).cell = false := by
  have hway := p.way_step w
  generalize hn : (p.step w).next = n at hway h
  cases hway
  case activate i r hc =>
    cases h
    exact ⟨i, rfl, hc⟩
  case finish => simp [Event.activation?, Event.ofStep] at h
  all_goals cases h

namespace System

variable {s s' : System} {m : Move} {allowed : Move → Prop}

/-- Whatever stands at a point that names a started request is about to activate it, or comes
later. -/
theorem Reachable.isActivated_of_ready (hs : Reachable allowed s) {x : Ongoing}
    (hx : x ∈ s.ongoing) (hp : x.activation.control = .ready p) (hq : q ∈ p.requests)
    (hstart : s.IsStarted q) : (Control.ready p).activating? = some q ∨ s.IsActivated q :=
  hp ▸ (hs.namesActivated.control x hx q (hp ▸ hq)).imp_right fun h => h hstart

theorem Reachable.isActivated_of_handler (hs : Reachable allowed s) {c : CellId}
    (h : (s.world.cell c).handler = some (.request q)) (hstart : s.IsStarted q) :
    s.IsActivated q :=
  hs.namesActivated.handler c q h hstart

theorem Reachable.isActivated_of_find? (hs : Reachable allowed s) {i : CoordinatorId}
    {c : CellId} (h : (s.world.coordinator i).active.find? c = some q) (hstart : s.IsStarted q) :
    s.IsActivated q :=
  hs.namesActivated.active i q (Directory.mem_values_of_find? h) hstart

theorem Reachable.isActivated_of_known (hs : Reachable allowed s) (hq : q ∈ s.known)
    (hstart : s.IsStarted q) : s.IsActivated q :=
  hs.namesActivated.known q hq hstart

theorem Reachable.isActivated_of_timer (hs : Reachable allowed s) {x : Timer}
    (hx : x ∈ s.world.timers) (hstart : s.IsStarted x.request) : s.IsActivated x.request :=
  hs.namesActivated.timer x hx hstart

/-- A started request that is completed was activated. -/
theorem Reachable.isActivated_of_completed (hs : Reachable allowed s) (hstart : s.IsStarted q)
    (hc : (s.world.request q).completed = true) : s.IsActivated q := by
  refine hs.induction (I := fun s => s.IsStarted q → (s.world.request q).completed = true →
    s.IsActivated q) (fun w hw _ hc => ?_) (fun s m s' hs _ ht ih hstart hc => ?_) hstart hc
  · rw [hw.request_eq q] at hc
    cases hc
  · rcases ht.completed hs.isBounded hc with hc | ⟨-, t, j, frames, hx, -⟩
    · have hq := hs.isBounded.world.lt_of_completed hc
      exact ht.isActivated (ih (ht.isStarted_of_lt hq hstart) hc)
    · have hq := hs.isBounded.of_ready hx rfl q (List.mem_singleton.mpr rfl)
      exact ht.isActivated ((hs.isActivated_of_ready hx rfl (List.mem_singleton.mpr rfl)
        (ht.isStarted_of_lt hq hstart)).resolve_left (by rintro ⟨⟩))

/-- In an orderly run every request is started. -/
theorem Reachable.isStarted_of_lt (hs : Reachable (Move.IsOrderly k) s)
    (hq : q < s.world.requestCount) : s.IsStarted q := by
  refine hs.induction (I := fun s => ∀ q < s.world.requestCount, s.IsStarted q)
    (fun w hw q hq => by simp [hw.requestCount] at hq) (fun s m s' _ hm ht ih q hq => ?_) q hq
  have hold (hq : q < s.world.requestCount) : s'.IsStarted q := by
    obtain ⟨e, he, hstarts⟩ := List.any_eq_true.mp (ih q hq)
    rcases ht.history with hh | ⟨e', hh⟩
    · exact List.any_eq_true.mpr ⟨e, hh ▸ he, hstarts⟩
    · exact List.any_eq_true.mpr ⟨e, hh ▸ List.mem_append_left _ he, hstarts⟩
  cases ht with
  | step newer older t j p frames he hn hp =>
    rcases p.requestCount_step s.world with h | ⟨i, c, d, extra, rfl, h⟩
    · exact hold (by rwa [proceed, h] at hq)
    · rcases Nat.lt_succ_iff_lt_or_eq.mp (by rwa [proceed, h] at hq) with hq | rfl
      · exact hold hq
      · refine List.any_eq_true.mpr ⟨_, List.mem_append_right _ List.mem_cons_self, ?_⟩
        exact decide_eq_true rfl
  | make => exact hm.elim
  | _ => exact hold hq

/-- A request is activated by the call that stands at its activation, on a cell without a request in
flight. -/
theorem Transition.activated (ht : Transition s m s') (hq : s'.IsActivated q) :
    s.IsActivated q ∨
    ∃ t j i frames, ⟨t, j, ⟨.ready (.coordinator i (.activate q)), frames⟩⟩ ∈ s.ongoing ∧
      (s.world.coordinator i).active.contains (s.world.request q).cell = false ∧
      s'.world = ((Point.coordinator i (.activate q)).step s.world).world ∧
      ⟨t, j, ⟨.ready (.coordinator i (.noteStart q)), frames⟩⟩ ∈ s'.ongoing := by
  rcases ht.world with ⟨-, -, -, hview⟩ | ⟨t, j, p, frames, hx, -, hw, hh, hgoes⟩
  · have hsame : s'.activations = s.activations := hview _
    exact .inl (by rwa [IsActivated, ← hsame])
  · rw [IsActivated, activations, hh, filterMap_append_cons] at hq
    rcases List.mem_append.mp hq with hq | hq
    · exact .inl hq
    · obtain ⟨i, rfl, hc⟩ := eq_activate_of_activation? (show _ = some q by simpa using hq)
      rw [Point.next_activate hc] at hgoes
      exact .inr ⟨t, j, i, frames, hx, hc, hw, hgoes⟩

/-! ### Requests in flight -/

/-- A request is in flight under its cell. -/
theorem Reachable.cell_of_find? (hs : Reachable allowed s) {i : CoordinatorId} {c : CellId}
    (h : (s.world.coordinator i).active.find? c = some q) : (s.world.request q).cell = c := by
  refine hs.induction (I := fun s => ∀ q, (s.world.coordinator i).active.find? c = some q →
    (s.world.request q).cell = c) (fun w hw q h => ?_) (fun s m s' hs _ ht ih q h => ?_) q h
  · simp [Directory.find?, hw.active i, Directory.search] at h
  · have hold (h : (s.world.coordinator i).active.find? c = some q) :
        (s'.world.request q).cell = c :=
      (Request.cell_eq_of_fixed (ht.grows.request q
        (hs.isBounded.world.active i q (Directory.mem_values_of_find? h))).fixed).trans (ih q h)
    rcases ht.world with ⟨-, -, hcoordinator, -⟩ | ⟨t, j, p, frames, hx, -, hw, -⟩
    · exact hold (hcoordinator i ▸ h)
    · rw [hw] at h
      rcases p.active_step s.world i with ha | ⟨r, rfl, -, ha⟩ | ⟨r, -, -, ha⟩ <;> rw [ha] at h
      · exact hold h
      · rw [Directory.find?_put] at h
        split at h
        · rename_i hc
          cases h
          have hq := hs.isBounded.of_ready hx rfl q (List.mem_singleton.mpr rfl)
          exact (Request.cell_eq_of_fixed (ht.grows.request q hq).fixed).trans hc.symm
        · exact hold h
      · rw [Directory.find?_erase] at h
        split at h
        · cases h
        · exact hold h

/-- Where a request is retired, its cell has expired. -/
theorem Reachable.expired_of_retire (hs : Reachable (Move.IsOrderly k) s) {x : Ongoing}
    (hx : x ∈ s.ongoing) {i : CoordinatorId}
    (hp : x.activation.control = .ready (.coordinator i (.retire q))) :
    (s.world.cell (s.world.request q).cell).expired = true := by
  have hclosing : s.world.IsClosing q [] := (hs.closes x hx).point _ hp
  have hq := hs.isBounded.of_ready hx hp q (List.mem_singleton.mpr rfl)
  obtain ⟨extra, hextra⟩ := (hs.request_isOrderly hq).interceptors
  exact (hclosing.expired _ (by simp [hextra])).resolve_left (by simp)

/-- An activated request is in flight, or its cell has expired. -/
theorem Reachable.inFlight_or_expired (hs : Reachable (Move.IsOrderly k) s)
    (hq : s.IsActivated q) :
    (s.world.coordinator k).active.find? (s.world.request q).cell = some q ∨
      (s.world.cell (s.world.request q).cell).expired = true := by
  refine hs.induction (I := fun s => ∀ q, s.IsActivated q →
    (s.world.coordinator k).active.find? (s.world.request q).cell = some q ∨
      (s.world.cell (s.world.request q).cell).expired = true)
    (fun w hw q hq => by cases hq) (fun s m s' hs _ ht ih q hq => ?_) q hq
  have hcell (hq : q < s.world.requestCount) :
      (s'.world.request q).cell = (s.world.request q).cell :=
    Request.cell_eq_of_fixed (ht.grows.request q hq).fixed
  rcases ht.activated hq with hq | ⟨t, j, i, frames, hx, hc, hw, -⟩
  · rw [hcell (hs.lt_of_isActivated hq)]
    rcases ih q hq with h | h
    · rcases ht.world with ⟨-, -, hcoordinator, -⟩ | ⟨t, j, p, frames, hx, -, hw, -⟩
      · exact .inl (hcoordinator k ▸ h)
      · rw [hw]
        rcases p.active_step s.world k with ha | ⟨r, rfl, hc, ha⟩ | ⟨r, rfl, hr, ha⟩ <;> rw [ha]
        · exact .inl h
        · refine .inl ?_
          rw [Directory.find?_put, if_neg, h]
          intro hsame
          simp [Directory.contains, ← hsame, h] at hc
        · by_cases hsame : (s.world.request q).cell = (s.world.request r).cell
          · -- Only the request in flight is taken out, and its cell has expired by then.
            rw [← hsame, h] at hr
            cases hr
            exact .inr (Point.expired_step _ _ (hs.expired_of_retire hx rfl))
          · exact .inl (by rw [Directory.find?_erase, if_neg hsame, h])
    · exact .inr (ht.grows.expired _ h)
  · left
    obtain rfl : i = k := (hs.isOrderly_of_mem hx).point _ rfl
    have hlt := hs.isBounded.of_ready hx rfl q (List.mem_singleton.mpr rfl)
    rw [hcell hlt, hw]
    simp [Point.step, CoordinatorPoint.step, hc, Directory.find?_put]

end System

end Rendezvous
