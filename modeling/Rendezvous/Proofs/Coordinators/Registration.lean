import Rendezvous.Proofs.Coordinators.Activation

/-!
# Starts that return

A start arms the timer of its request before it registers the request with the cell. A timeout that
the clock cannot count makes it fail there, so a request is registered, and returned, only if its
timeout can be counted.

## Main definitions

* `Request.CanBeTimed`: a clock can count the timeout of a request, if there is one.
* `Activation.IsTimed`: the requests that a call registers or returns can be timed.

## Main results

* `System.Reachable.frames_of_isStart`: a start is nobody's callee.
* `System.Reachable.canBeTimed_of_handler`, `System.Reachable.canBeTimed_of_known`,
  `System.Reachable.canBeTimed_of_timer`: a request that is registered, one that a start returned,
  and one with an armed timer can be timed.
-/

namespace Rendezvous

/-- Whether a clock can count the timeout of a request, if there is one. -/
def Request.CanBeTimed (x : Request) (κ : Clock) : Prop :=
  x.timeoutMs ≤ 0 ∨ ¬κ.Overflows x.timeoutMs.toNat

/-- Neither the timeout of a request nor the clock changes. -/
theorem World.Grows.canBeTimed_iff {w w' : World} (hw : w.Grows w') {q : RequestId}
    (hq : q < w.requestCount) :
    (w'.request q).CanBeTimed w'.clock ↔ (w.request q).CanBeTimed w.clock := by
  rw [Request.CanBeTimed, Request.timeoutMs_eq_of_fixed (hw.request q hq).fixed, hw.clock]
  rfl

/-- Whether a point belongs to a start that has not yet turned to its request. -/
def Point.IsStart : Point → Prop
  | .coordinator _ (.checkStart ..) | .coordinator _ (.draw ..) | .coordinator _ (.activate _)
  | .coordinator _ (.noteStart _) => True
  | _ => False

/-- The requests that are registered from a point on, and those that are returned. -/
def Point.registers : Point → List RequestId
  | .cell _ (.checkRegister h) | .cell _ (.register h) => h.requests
  | .cell _ (.deliver _ _ a) => (Outcome.returned a).requests
  | .request q .attach => [q]
  | _ => []

/-- The requests that a frame returns. -/
def Frame.returns (f : Frame) : List RequestId :=
  (f.carried?.map Outcome.requests).getD []

/-- Whether the requests that a call registers or returns can be timed. Only a start that has come
to its timer, or that fails there, may still have to find out. -/
structure Activation.IsTimed (w : World) (a : Activation) : Prop where
  point (p : Point) : a.control = .ready p → ∀ q ∈ p.registers, (w.request q).CanBeTimed w.clock
  outcome (o : Outcome) : a.control = .ended o → ∀ q ∈ o.requests, (w.request q).CanBeTimed w.clock
  frame : ∀ f ∈ a.frames, ∀ q ∈ f.returns, (w.request q).CanBeTimed w.clock ∨
    a.frames = [.answer (.request q)] ∧
      (a.control = .ready (.request q .arm) ∨ ∃ e, a.control = .ended (.raised e))

variable {w : World} {p : Point} {q : RequestId} {frames : List Frame}

/-! ### Starts -/

private theorem Point.isStart_of_way {n : Next} {p' : Point} (h : p.Way w n) (hp' : p'.IsStart)
    (hn : n.point? = some p') : n = .goto p' ∧ p.IsStart := by
  cases h <;> cases hn <;> first | exact hp'.elim | exact ⟨rfl, trivial⟩

private theorem Frame.not_isStart_of_way {n : Next} {f : Frame} {o : Outcome} (h : f.Way w o n)
    (hn : n.point? = some p) : ¬ p.IsStart := by
  cases h <;> cases hn <;> exact id

namespace System

variable {s s' : System} {m : Move} {allowed : Move → Prop}

/-- A start is nobody's callee. -/
theorem Reachable.frames_of_isStart (hs : Reachable allowed s) {x : Ongoing} (hx : x ∈ s.ongoing)
    (hp : x.activation.control = .ready p) (hstart : p.IsStart) : x.activation.frames = [] := by
  refine hs.induction (I := fun s => ∀ x ∈ s.ongoing, ∀ p, x.activation.control = .ready p →
    p.IsStart → x.activation.frames = []) (fun _ _ => by simp) (fun s m s' _ _ ht ih => ?_)
    x hx p hp hstart
  refine forall_ongoing_of_transition (P := fun _ x => ∀ p, x.activation.control = .ready p →
    p.IsStart → x.activation.frames = []) ht ih (fun _ _ h => h) (fun _ _ _ _ _ _ _ => rfl)
    (fun _ _ _ _ _ _ _ => rfl) ?_ ?_ ?_
  · intro t j p frames hx _ h p' hp' hstart
    obtain ⟨hn, hp⟩ := Point.isStart_of_way (p.way_step s.world) hstart
      (Activation.control_follow.mp hp')
    rw [hn]
    exact h p rfl hp
  · intro t j o f frames hx _ p' hp' hstart
    exact absurd hstart (Frame.not_isStart_of_way (f.way_resume s.world o)
      (Activation.control_follow.mp hp'))
  · intro t j i frames a _ _ _ p hp
    cases hp

end System

/-! ### Timers -/

private theorem Point.registers_of_way {n : Next} {p' : Point} (h : p.Way w n)
    (hn : n.point? = some p') :
    ∀ q ∈ p'.registers, q ∈ p.registers ∨
      p = .request q .arm ∧ (w.request q).CanBeTimed w.clock := by
  intro q hq
  cases h <;> cases hn <;> try cases hq
  case checkRegister c h he => exact .inl hq
  case arm h => exact .inr ⟨rfl, h⟩
  case attach => exact .inl (List.mem_singleton.mpr rfl)
  all_goals contradiction

private theorem Frame.returns_of_way {n : Next} {f : Frame} (h : p.Way w n)
    (hn : n.frame? = some f) : ∀ q ∈ f.returns, q ∈ p.registers ∨
      ∃ k, p = .coordinator k (.noteStart q) ∧
        n = .call (.answer (.request q)) (.request q .arm) := by
  intro q hq
  cases h <;> cases hn
  case deliverCallback => exact .inl hq
  case deliverRequest => exact .inl hq
  case noteStart k r =>
    obtain rfl : q = r := List.mem_singleton.mp hq
    exact .inr ⟨k, rfl, rfl⟩
  all_goals cases hq

section IsTimed

variable {w' : World}

private theorem isTimed_step (ha : (⟨.ready p, frames⟩ : Activation).IsTimed w')
    (hstart : p.IsStart → frames = [])
    (harm : ∀ q, p = .request q .arm → (w.request q).CanBeTimed w.clock →
      (w'.request q).CanBeTimed w'.clock) :
    (Activation.follow frames (p.step w).next).IsTimed w' := by
  have hway := p.way_step w
  refine ⟨fun p' hp' q hq => ?_, fun o ho q hq => ?_, fun f hf q hq => ?_⟩
  · rcases Point.registers_of_way hway (Activation.control_follow.mp hp') q hq with h | ⟨h, h'⟩
    · exact ha.point p rfl q h
    · exact harm q h h'
  · generalize (p.step w).next = n at hway ho
    cases hway <;> cases ho
    rw [Outcome.requests_of_isPlain ‹_›] at hq
    cases hq
  · rcases Activation.mem_frames_follow.mp hf with hf | hf
    · rcases Frame.returns_of_way hway hf q hq with h | ⟨k, rfl, hn⟩
      · exact .inl (ha.point p rfl q h)
      · rw [hn, hstart trivial]
        exact .inr ⟨rfl, .inl rfl⟩
    · rcases ha.frame f hf q hq with h | ⟨hframes, hcontrol | ⟨e, hcontrol⟩⟩
      · exact .inl h
      · -- The start has come to its timer and finds out here.
        cases hcontrol
        simp only [Point.step, RequestPoint.step]
        split
        · rename_i h
          exact .inl (harm q rfl (.inl h))
        · split
          · exact .inr ⟨hframes, .inr ⟨.timeoutOverflow, rfl⟩⟩
          · rename_i h
            exact .inl (harm q rfl (.inr h))
      · cases hcontrol

private theorem isTimed_resume {f : Frame} {o : Outcome}
    (ha : (⟨.ended o, f :: frames⟩ : Activation).IsTimed w') :
    (Activation.follow frames (f.resume w o).next).IsTimed w' := by
  have hway := f.way_resume w o
  refine ⟨fun p hp q hq => ?_, fun o' ho q hq => ?_, fun g hg q hq => ?_⟩
  · have hp := Activation.control_follow.mp hp
    generalize (f.resume w o).next = n at hway hp
    cases hway <;> cases hp <;> cases hq
  · have hn : (f.resume w o).next = .finish o' := by
      cases h : (f.resume w o).next <;> rw [h] at ho <;> cases ho
      rfl
    rw [hn] at hway
    cases hway
    rename_i h
    rcases h with ⟨e, rfl, rfl⟩ | hplain | hcarried
    · cases hq
    · rw [Outcome.requests_of_isPlain hplain] at hq
      cases hq
    · have hreturns : q ∈ f.returns := by rwa [Frame.returns, hcarried]
      rcases ha.frame f List.mem_cons_self q hreturns with h | ⟨hframes, hcontrol | ⟨e, he⟩⟩
      · exact h
      · cases hcontrol
      · -- The frame of a start that failed passes the failure on and returns nothing.
        obtain ⟨rfl, -⟩ := List.cons.inj hframes
        cases he
        cases hn
        cases hq
  · rcases Activation.mem_frames_follow.mp hg with hg | hg
    · generalize (f.resume w o).next = n at hway hg
      cases hway <;> cases hg
      exact .inl (ha.outcome o rfl q hq)
    · rcases ha.frame g (List.mem_cons_of_mem _ hg) q hq with h | ⟨hframes, -⟩
      · exact .inl h
      · rw [(List.cons.inj hframes).2] at hg
        cases hg

private theorem isTimed_answer {i : Invocation} (a : Except Failure Payload)
    (ha : (⟨.inside i, frames⟩ : Activation).IsTimed w') :
    (⟨.ended (.ofUser a), frames⟩ : Activation).IsTimed w' := by
  refine ⟨fun p hp => (by cases hp), fun o ho q hq => ?_, fun f hf q hq => ?_⟩
  · cases ho
    cases a <;> cases hq
  · rcases ha.frame f hf q hq with h | ⟨-, hcontrol | ⟨e, hcontrol⟩⟩
    · exact .inl h
    · cases hcontrol
    · cases hcontrol

end IsTimed

private theorem Call.isTimed (c : Call) : c.activation.IsTimed w where
  point p hp q hq := by
    cases c.enters_of_control hp <;> cases hq
  outcome o ho q hq := by
    obtain ⟨-, -, rfl⟩ := Call.eq_of_control ho
    cases hq
  frame f hf := by simp [Call.frames_activation] at hf

namespace System

variable {s s' : System} {m : Move} {allowed : Move → Prop}

private theorem registers_subset (p : Point) : p.registers ⊆ p.requests := by
  intro q hq
  unfold Point.registers at hq
  split at hq
  · exact hq
  · exact hq
  · exact List.mem_append_right _ hq
  · exact hq
  · cases hq

private theorem returns_subset (f : Frame) : f.returns ⊆ f.requests := by
  intro q hq
  unfold Frame.returns at hq
  cases h : f.carried? with
  | none =>
    rw [h] at hq
    cases hq
  | some o =>
    rw [h] at hq
    exact Frame.requests_of_carried? h ▸ hq

/-- What a call registers or returns can still be timed when the world has grown. -/
private theorem isTimed_grow {w' : World} {a : Activation} (ha : a.IsTimed w)
    (hq : ∀ q ∈ a.requests, q < w.requestCount) (hw : w.Grows w') : a.IsTimed w' := by
  refine ⟨fun p hp q h => ?_, fun o ho q h => ?_, fun f hf q h => ?_⟩
  · refine (hw.canBeTimed_iff (hq q (List.mem_append_left _ ?_))).mpr (ha.point p hp q h)
    rw [hp]
    exact registers_subset p h
  · refine (hw.canBeTimed_iff (hq q (List.mem_append_left _ ?_))).mpr (ha.outcome o ho q h)
    rwa [ho]
  · refine (ha.frame f hf q h).imp_left
      (hw.canBeTimed_iff (hq q (List.mem_append_right _ ?_))).mpr
    exact List.mem_flatMap.mpr ⟨f, hf, returns_subset f h⟩

private theorem Reachable.isTimed (hs : Reachable allowed s) :
    ∀ x ∈ s.ongoing, x.activation.IsTimed s.world := by
  refine hs.induction (I := fun s => ∀ x ∈ s.ongoing, x.activation.IsTimed s.world)
    (fun _ _ => by simp) fun s m s' hs _ ht ih => ?_
  have hb := hs.isBounded
  refine forall_ongoing_of_transition (P := fun _ x => x.activation.IsTimed s'.world) ht
    (fun x hx => isTimed_grow (ih x hx) (hb.ongoing x hx) ht.grows) (fun _ _ h => h)
    (fun t c _ _ => c.isTimed) (fun t x _ _ => Call.isTimed _) ?_ ?_ ?_
  · intro t j p frames hx _ ha
    refine isTimed_step ha (hs.frames_of_isStart hx rfl) fun q hp h => ?_
    have hq := hb.of_ready hx rfl q (hp ▸ List.mem_singleton.mpr rfl)
    exact (ht.grows.canBeTimed_iff hq).mpr h
  · exact fun t j o f frames _ ha => isTimed_resume ha
  · exact fun t j i frames a _ _ ha => isTimed_answer a ha

/-- A request that waits in its cell can be timed. -/
theorem Reachable.canBeTimed_of_handler (hs : Reachable allowed s) {c : CellId}
    (h : (s.world.cell c).handler = some (.request q)) :
    (s.world.request q).CanBeTimed s.world.clock := by
  refine hs.induction (I := fun s => ∀ q, (s.world.cell c).handler = some (.request q) →
    (s.world.request q).CanBeTimed s.world.clock) (fun w hw q h => ?_)
    (fun s m s' hs _ ht ih q h => ?_) q h
  · simp [(hw.cell c).handler] at h
  · have hold (h : (s.world.cell c).handler = some (.request q)) :
        (s'.world.request q).CanBeTimed s'.world.clock :=
      (ht.grows.canBeTimed_iff (hs.isBounded.world.handler c q h)).mpr (ih q h)
    rcases ht.world with ⟨-, hcell, -⟩ | ⟨t, j, p, frames, hx, -, hw, -⟩
    · exact hold (hcell c ▸ h)
    · rcases Point.handler_step (hw ▸ h) with h | rfl
      · exact hold h
      · have hq := hs.isBounded.of_ready hx rfl q (List.mem_singleton.mpr rfl)
        exact (ht.grows.canBeTimed_iff hq).mpr
          ((hs.isTimed _ hx).point _ rfl q (List.mem_singleton.mpr rfl))

/-- A request that a start returned can be timed. -/
theorem Reachable.canBeTimed_of_known (hs : Reachable allowed s) (hq : q ∈ s.known)
    (hstart : s.IsStarted q) : (s.world.request q).CanBeTimed s.world.clock := by
  refine hs.induction (I := fun s => ∀ q ∈ s.known, s.IsStarted q →
    (s.world.request q).CanBeTimed s.world.clock) (fun _ _ => by simp)
    (fun s m s' hs _ ht ih q hq hstart => ?_) q hq hstart
  have hold (hq : q ∈ s.known) : (s'.world.request q).CanBeTimed s'.world.clock :=
    have hlt := hs.isBounded.known q hq
    (ht.grows.canBeTimed_iff hlt).mpr (ih q hq (ht.isStarted_of_lt hlt hstart))
  cases ht with
  | make =>
    rcases List.mem_append.mp hq with hq | hq
    · exact hold hq
    · -- Nobody has started a request that is made without a coordinator.
      rw [List.mem_singleton.mp hq] at hstart
      exact absurd (hs.lt_of_isStarted hstart) (Nat.lt_irrefl _)
  | finish newer older t j o he hn =>
    rcases List.mem_append.mp hq with hq | hq
    · exact hold hq
    · exact (hs.isTimed ⟨t, j, ⟨.ended o, []⟩⟩ (he ▸ by simp)).outcome o rfl q hq
  | _ => exact hold hq

/-- A timer is armed only for a request that can be timed. -/
theorem Reachable.canBeTimed_of_timer (hs : Reachable allowed s) {x : Timer}
    (hx : x ∈ s.world.timers) : (s.world.request x.request).CanBeTimed s.world.clock := by
  refine hs.induction (I := fun s => ∀ x ∈ s.world.timers,
    (s.world.request x.request).CanBeTimed s.world.clock) (fun w hw => by simp [hw.timers])
    (fun s m s' hs _ ht ih x hx => ?_) x hx
  have hold (hx : x ∈ s.world.timers) : (s'.world.request x.request).CanBeTimed s'.world.clock :=
    (ht.grows.canBeTimed_iff (hs.isBounded.world.timer x hx)).mpr (ih x hx)
  have hgrows := ht.grows
  cases ht with
  | step newer older t j p frames he hn hp =>
    rcases Point.timers_step x hx with hx | ⟨q, rfl, rfl⟩
    · exact hold hx
    · have hq := hs.isBounded.of_ready (x := ⟨t, j, ⟨.ready (.request x.request .arm), frames⟩⟩)
        (he ▸ by simp) rfl x.request (List.mem_singleton.mpr rfl)
      simp only [proceed, Point.step, RequestPoint.step] at hx
      split at hx
      · exact hold hx
      · split at hx
        · exact hold hx
        · rename_i hcounted
          exact (hgrows.canBeTimed_iff hq).mpr (.inr hcounted)
  | fire t y hfree hy => exact hold (List.mem_filter.mp hx).1
  | _ => exact hold hx

end System

end Rendezvous
