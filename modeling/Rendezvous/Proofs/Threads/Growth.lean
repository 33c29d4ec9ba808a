import Rendezvous.Proofs.Threads.Bounds

/-!
# What stays

Worlds grow: a cell that has expired or has a resolution keeps it, a request that is completed,
timed out or released stays so, its resolution is never replaced, and what its maker fixed never
changes, nor does the clock. This is said of a step and follows for every run.

## Main definitions

* `Request.fixed`: what the maker of a request fixed.
* `World.Grows`: a world that comes later.
* `System.calls`, `System.HasBegun`: the calls that have begun.

## Main results

* `System.Leads.grows`: worlds grow along a run.
* `System.Transition.completed`: a request is completed by the call that stands at its completion.
* `System.Reachable.exists_of_hasBegun`: what a call may begin on.
-/

namespace Rendezvous

namespace Request

variable {x y : Request}

/-- What the maker of a request fixed. -/
def fixed (x : Request) : Request :=
  { x with
    completed := false, timedOut := false, resolution := none, released := false, timer := none }

theorem cell_eq_of_fixed (h : x.fixed = y.fixed) : x.cell = y.cell :=
  show x.fixed.cell = y.fixed.cell by rw [h]

theorem interceptors_eq_of_fixed (h : x.fixed = y.fixed) : x.interceptors = y.interceptors :=
  show x.fixed.interceptors = y.fixed.interceptors by rw [h]

theorem listener_eq_of_fixed (h : x.fixed = y.fixed) : x.listener = y.listener :=
  show x.fixed.listener = y.fixed.listener by rw [h]

theorem timeoutMs_eq_of_fixed (h : x.fixed = y.fixed) : x.timeoutMs = y.timeoutMs :=
  show x.fixed.timeoutMs = y.fixed.timeoutMs by rw [h]

/-- Whether a request is a later state of another. -/
structure Grows (x y : Request) : Prop where
  fixed : y.fixed = x.fixed
  completed : x.completed = true → y.completed = true
  timedOut : x.timedOut = true → y.timedOut = true
  released : x.released = true → y.released = true
  resolution (r : Resolution) : x.resolution = some r → y.resolution = some r

theorem Grows.refl (x : Request) : x.Grows x := ⟨rfl, id, id, id, fun _ => id⟩

theorem Grows.trans {z : Request} (h : x.Grows y) (h' : y.Grows z) : x.Grows z where
  fixed := h'.fixed.trans h.fixed
  completed hc := h'.completed (h.completed hc)
  timedOut ht := h'.timedOut (h.timedOut ht)
  released hr := h'.released (h.released hr)
  resolution r hr := h'.resolution r (h.resolution r hr)

end Request

/-- Whether a world comes later than another. -/
structure World.Grows (w w' : World) : Prop where
  requestCount : w.requestCount ≤ w'.requestCount
  request (q : RequestId) : q < w.requestCount → (w.request q).Grows (w'.request q)
  expired (c : CellId) : (w.cell c).expired = true → (w'.cell c).expired = true
  result (c : CellId) (r : Resolution) : (w.cell c).result = some r → (w'.cell c).result = some r
  clock : w'.clock = w.clock

namespace World

theorem Grows.refl (w : World) : w.Grows w :=
  ⟨Nat.le_refl _, fun _ _ => .refl _, fun _ => id, fun _ _ => id, rfl⟩

theorem Grows.trans {w w' w'' : World} (h : w.Grows w') (h' : w'.Grows w'') : w.Grows w'' where
  requestCount := Nat.le_trans h.requestCount h'.requestCount
  request q hq := (h.request q hq).trans (h'.request q (Nat.lt_of_lt_of_le hq h.requestCount))
  expired c hc := h'.expired c (h.expired c hc)
  result c r hr := h'.result c r (h.result c r hr)
  clock := h'.clock.trans h.clock

variable {w w' : World}

/-- A cell that is set or has expired stays so. -/
theorem Grows.isSetOrExpired {c : CellId} (h : w.Grows w')
    (hc : (w.cell c).isSetOrExpired = true) : (w'.cell c).isSetOrExpired = true := by
  simp only [Cell.isSetOrExpired, Bool.or_eq_true, Option.isSome_iff_exists] at hc ⊢
  refine hc.imp (fun hset => ?_) (h.expired c)
  obtain ⟨r, hr⟩ := hset
  exact ⟨r, h.result c r hr⟩

/-- A request that is completed stays so. -/
theorem Grows.completed {q : RequestId} (h : w.Grows w') (hw : w.IsBounded)
    (hc : (w.request q).completed = true) : (w'.request q).completed = true :=
  (h.request q (hw.lt_of_completed hc)).completed hc

end World

theorem Point.grows_step (w : World) (p : Point) : w.Grows (p.step w).world where
  requestCount := p.requestCount_le_step w
  request q hq := by
    rcases p.request_step_of_lt q hq with
      h | ⟨-, h⟩ | ⟨r, -, h⟩ | ⟨-, h⟩ | ⟨-, h⟩ | ⟨-, h⟩ <;> rw [h]
    · exact .refl _
    · exact ⟨rfl, id, id, id, fun _ => id⟩
    · exact ⟨rfl, id, id, id, fun r' hr => by rw [hr]; rfl⟩
    · exact ⟨rfl, id, fun _ => rfl, id, fun _ => id⟩
    · exact ⟨rfl, fun _ => rfl, id, id, fun _ => id⟩
    · exact ⟨rfl, id, id, fun _ => rfl, fun _ => id⟩
  expired _ h := expired_step w p h
  result _ _ h := result_step w p h
  clock := clock_step w p

namespace System

variable {s s' : System} {m : Move} {allowed : Move → Prop}

/-- A new request is as its maker left it. -/
theorem Transition.request_of_le (ht : Transition s m s') (hb : s.IsBounded) {q : RequestId}
    (hq : s.world.requestCount ≤ q) : (s'.world.request q).fixed = s'.world.request q := by
  have hold : (s.world.request q).fixed = s.world.request q := by
    rw [hb.world.unmade q hq]
    rfl
  cases ht with
  | step newer older t k p frames hs hn hp =>
    have hx : ⟨t, k, ⟨.ready p, frames⟩⟩ ∈ s.ongoing := hs ▸ by simp
    rcases Point.request_step_of_le (hb.of_ready hx rfl) hq with h | ⟨_, _, _, _, -, -, h⟩ <;>
      rw [proceed, h]
    · exact hold
    · rfl
  | make =>
    rw [addRequest, World.request_addRequest]
    split
    · rfl
    · exact hold
  | _ => exact hold

/-- No move exchanges the clock. -/
theorem Transition.clock (ht : Transition s m s') : s'.world.clock = s.world.clock := by
  cases ht with
  | step newer older t k p frames hs hn hp => exact p.clock_step s.world
  | _ => rfl

theorem Transition.grows (ht : Transition s m s') : s.world.Grows s'.world := by
  rcases ht.world with ⟨hrequest, hcell, -⟩ | ⟨t, k, p, frames, -, -, h, -⟩
  · exact ⟨requestCount_le_of_transition ht, fun q hq => hrequest q hq ▸ .refl _,
      fun c hc => hcell c ▸ hc, fun c r hr => hcell c ▸ hr, ht.clock⟩
  · exact h ▸ p.grows_step s.world

/-- A request is completed by the call that stands at its completion. -/
theorem Transition.completed (ht : Transition s m s') (hb : s.IsBounded) {q : RequestId}
    (hc : (s'.world.request q).completed = true) :
    (s.world.request q).completed = true ∨ (s.world.request q).completed = false ∧
      ∃ t k frames, ⟨t, k, ⟨.ready (.request q .complete), frames⟩⟩ ∈ s.ongoing ∧
        s'.history = s.history ++ [⟨t, k, .step (.request q .complete)
          ((Point.request q .complete).step s.world).next⟩] ∧
        ⟨t, k, .follow frames ((Point.request q .complete).step s.world).next⟩ ∈ s'.ongoing := by
  cases hopen : (s.world.request q).completed with
  | true => exact .inl rfl
  | false =>
  refine .inr ⟨rfl, ?_⟩
  by_cases hq : q < s.world.requestCount
  · rcases ht.world with ⟨hrequest, -⟩ | ⟨t, k, p, frames, hx, -, hw, hh, hgoes⟩
    · simp [hrequest q hq, hopen] at hc
    · rw [hw] at hc
      rcases p.request_step_of_lt q hq with h | ⟨-, h⟩ | ⟨r, -, h⟩ | ⟨-, h⟩ | ⟨rfl, -⟩ | ⟨-, h⟩
      · simp [h, hopen] at hc
      · simp [h, hopen] at hc
      · simp [h, hopen] at hc
      · simp [h, hopen] at hc
      · exact ⟨t, k, frames, hx, hh, hgoes⟩
      · simp [h, hopen] at hc
  · rw [← ht.request_of_le hb (Nat.not_lt.mp hq)] at hc
    cases hc

/-- Worlds grow along a run. -/
theorem Leads.grows (h : Leads allowed s s') : s.world.Grows s'.world := by
  induction h with
  | refl => exact .refl _
  | move m h hm ht ih => exact ih.trans (transition_of_take? ht).grows

/-! ### Calls that have begun -/

end System

/-- The call that begins in an event. -/
def Event.call? (e : Event) : Option Call :=
  match e.deed with
  | .begin c => some c
  | _ => none

theorem Event.call?_eq_some {e : Event} {c : Call} : e.call? = some c ↔ e.deed = .begin c := by
  unfold call?
  split <;> simp_all

namespace System

variable {s s' : System} {allowed : Move → Prop}

/-- The calls that have begun, in order. -/
def calls (s : System) : List Call :=
  s.history.filterMap Event.call?

/-- Whether a call has begun. -/
def HasBegun (s : System) (c : Call) : Prop :=
  c ∈ s.calls

theorem hasBegun_iff {c : Call} : s.HasBegun c ↔ ∃ e ∈ s.history, e.deed = .begin c := by
  simp [HasBegun, calls, List.mem_filterMap, Event.call?_eq_some]

theorem HasBegun.mono {c : Call} (h : s.HasBegun c) (hpre : s.history <+: s'.history) :
    s'.HasBegun c :=
  (hpre.filterMap _).subset h

/-- A call begins on the requests that user code knows, or it is the timeout of a request with an
armed timer. -/
theorem Reachable.exists_of_hasBegun (hs : Reachable allowed s) {c : Call} (h : s.HasBegun c) :
    ∃ s₀, Reachable allowed s₀ ∧ Leads allowed s₀ s ∧
      ((∃ t, allowed (.begin t c) ∧ ∀ q ∈ c.requests, q ∈ s₀.known) ∨
        ∃ x ∈ s₀.world.timers, c = .timeOut x.request) := by
  obtain ⟨⟨t, j, d⟩, he, rfl⟩ := hasBegun_iff.mp h
  obtain ⟨before, after, hh⟩ := List.append_of_mem he
  obtain ⟨s₀, m, s₁, hs₀, hm, htake, hl, rfl, hevent⟩ := hs.exists_take? hh
  refine ⟨s₀, hs₀, (Leads.move m .refl hm htake).trans hl, ?_⟩
  cases transition_of_take? htake with
  | begin t' c' _ hknown =>
    cases List.singleton_inj.mp (List.append_cancel_left hevent)
    exact .inl ⟨t, hm, hknown⟩
  | fire t' x _ hx =>
    cases List.singleton_inj.mp (List.append_cancel_left hevent)
    exact .inr ⟨x, hx, rfl⟩
  | make => simp [addRequest] at hevent
  | _ => simp [proceed, leave] at hevent

/-- A call begins only on requests that have been made. -/
theorem Reachable.lt_of_hasBegun (hs : Reachable allowed s) {c : Call} (h : s.HasBegun c)
    {q : RequestId} (hq : q ∈ c.requests) : q < s.world.requestCount := by
  obtain ⟨s₀, hs₀, hl, ⟨t, -, hknown⟩ | ⟨x, hx, rfl⟩⟩ := hs.exists_of_hasBegun h
  · exact Nat.lt_of_lt_of_le (hs₀.isBounded.known q (hknown q hq)) hl.grows.requestCount
  · rw [List.mem_singleton.mp hq]
    exact Nat.lt_of_lt_of_le (hs₀.isBounded.world.timer x hx) hl.grows.requestCount

end System

end Rendezvous
