import Rendezvous.Proofs.Threads.Flow
import Rendezvous.Proofs.Threads.Transition
import Rendezvous.Proofs.Threads.Writes

/-!
# Requests that have been made

Nothing in a system names a request before it has been made: not a call, not a frame, not the
handler of a cell, not a coordinator, not a timer and not user code. A new request is therefore as
its maker left it, and what is said about a request stays said about the same one.

## Main definitions

* `Point.requests`, `Frame.requests`, `Activation.requests`: the requests that are named.
* `World.IsBounded`, `System.IsBounded`: the named requests have been made.

## Main results

* `System.Reachable.isBounded`: this holds of every system that is reached.
* `Point.request_step_of_lt`: what a step changes about a request that has been made.
-/

namespace Rendezvous

/-! ### The requests that are named -/

/-- The request that a handler is. -/
def Handler.requests : Handler → List RequestId
  | .request q => [q]
  | .callback _ => []

/-- The request that an outcome brings. -/
def Outcome.requests (o : Outcome) : List RequestId := o.request?.toList

/-- The requests that a point of a cell names. -/
def CellPoint.requests : CellPoint → List RequestId
  | .checkRegister h | .register h => h.requests
  | .deliver h _ a => h.requests ++ (Outcome.returned a).requests
  | _ => []

/-- The requests that a point of a coordinator names. -/
def CoordinatorPoint.requests : CoordinatorPoint → List RequestId
  | .activate q | .noteStart q | .retire q => [q]
  | .abandonEach _ rest => rest
  | _ => []

/-- The requests that a point names. -/
def Point.requests : Point → List RequestId
  | .cell _ p => p.requests
  | .request q _ => [q]
  | .coordinator _ p => p.requests

/-- The requests that a frame names. -/
def Frame.requests : Frame → List RequestId
  | .cell _ (.delivered a) => (Outcome.returned a).requests
  | .cell _ _ => []
  | .request q _ => [q]
  | .abandoning _ _ rest => rest
  | .answer a => (Outcome.returned a).requests
  | .outcome o => o.requests

/-- The requests that a way on names. -/
def Next.requests : Next → List RequestId
  | .goto p => p.requests
  | .call f p => f.requests ++ p.requests
  | .invoke f _ => f.requests
  | .finish o => o.requests

/-- The requests that the place of a call names. -/
def Control.requests : Control → List RequestId
  | .ready p => p.requests
  | .inside _ => []
  | .ended o => o.requests

/-- The requests that a call in progress names. -/
def Activation.requests (a : Activation) : List RequestId :=
  a.control.requests ++ a.frames.flatMap Frame.requests

theorem Activation.mem_requests_follow {frames : List Frame} {n : Next} {q : RequestId} :
    q ∈ (follow frames n).requests ↔ q ∈ n.requests ∨ q ∈ frames.flatMap Frame.requests := by
  cases n <;> simp [follow, requests, Control.requests, Next.requests, or_assoc, or_left_comm]

theorem Outcome.requests_of_isPlain {o : Outcome} (h : o.IsPlain) : o.requests = [] := by
  unfold IsPlain at h
  split at h
  · exact h.elim
  · rename_i a ha
    cases a <;> first | rfl | exact (ha _ rfl).elim
  · rfl

theorem Frame.requests_of_carried? {f : Frame} {o : Outcome} (h : f.carried? = some o) :
    f.requests = o.requests := by
  unfold carried? at h
  split at h <;> cases h <;> rfl

theorem Call.requests_control (c : Call) : c.control.requests = c.requests := by
  rcases c with _ | _ | ⟨_, _ | _⟩ | _ | _ | _ | _ | _ | _ | _ | _ | _ | _ | _ | _ | _ <;> rfl

theorem Call.requests_activation (c : Call) : c.activation.requests = c.requests := by
  simp [activation, Activation.requests, requests_control]

/-- A step goes on with requests that its point names, or that it finds in a cell or with a
coordinator, or that it has just made. -/
theorem Point.requests_of_way {w : World} {p : Point} {n : Next} (h : p.Way w n) :
    ∀ q ∈ n.requests, q ∈ p.requests ∨ (∃ c, (w.cell c).handler = some (.request q)) ∨
      (∃ k, q ∈ (w.coordinator k).active.values) ∨
      q = w.requestCount ∧ ∃ k c d extra, p = .coordinator k (.draw c d extra) := by
  intro q hq
  cases h
  case finish o ho => simp [Next.requests, Outcome.requests_of_isPlain ho] at hq
  case assign c h r hr =>
    have hh : (w.cell c).handler = some h := (Cell.assign_snd_eq_accepted.mp hr).2
    cases h with
    | callback id => simp [Next.requests, requests, CellPoint.requests, Handler.requests,
        Outcome.requests, Outcome.request?] at hq
    | request q' =>
      have hq' : q = q' := by simpa [Next.requests, requests, CellPoint.requests, Handler.requests,
        Outcome.requests, Outcome.request?] using hq
      exact .inr (.inl ⟨c, hq' ▸ hh⟩)
  case draw k c d extra q' hq' =>
    have hsame : q = q' := by
      simpa [Next.requests, requests, CoordinatorPoint.requests] using hq
    exact .inr (.inr (.inr ⟨hsame.trans hq', k, c, d, extra, rfl⟩))
  case abandonAll k rest hrest =>
    have hmem : q ∈ rest := by
      simpa [Next.requests, requests, CoordinatorPoint.requests] using hq
    exact .inr (.inr (.inl ⟨k, hrest ▸ hmem⟩))
  case deliverRequest c q' r a =>
    left
    simpa [Next.requests, requests, CellPoint.requests, Frame.requests, Handler.requests,
      or_comm] using hq
  case abandonEach k n q' rest =>
    left
    simpa [Next.requests, requests, CoordinatorPoint.requests, Frame.requests, or_comm] using hq
  all_goals
    left
    simp_all [Next.requests, requests, CellPoint.requests, CoordinatorPoint.requests,
      Frame.requests, Handler.requests, Outcome.requests, Outcome.request?]

/-- A frame goes on with requests that it names or that come with the outcome. -/
theorem Frame.requests_of_way {w : World} {f : Frame} {o : Outcome} {n : Next}
    (h : f.Way w o n) : ∀ q ∈ n.requests, q ∈ f.requests ∨ q ∈ o.requests := by
  intro q hq
  cases h
  case finish o' ho =>
    rcases ho with ⟨e, rfl, rfl⟩ | hplain | hcarried
    · exact .inr hq
    · simp [Next.requests, Outcome.requests_of_isPlain hplain] at hq
    · exact .inl (requests_of_carried? hcarried ▸ hq)
  case dispatched q' => simpa [Next.requests, requests, Point.requests, or_comm] using hq
  all_goals
    left
    simp_all [Next.requests, requests, Point.requests, CellPoint.requests,
      CoordinatorPoint.requests]

/-! ### They have been made -/

/-- Whether the requests that a world names have been made. -/
structure World.IsBounded (w : World) : Prop where
  handler (c : CellId) (q : RequestId) :
    (w.cell c).handler = some (.request q) → q < w.requestCount
  active (k : CoordinatorId) : ∀ q ∈ (w.coordinator k).active.values, q < w.requestCount
  timer : ∀ x ∈ w.timers, x.request < w.requestCount
  unmade (q : RequestId) : w.requestCount ≤ q → w.request q = default

theorem World.IsBounded.requests_of_handler {w : World} (hw : w.IsBounded) {c : CellId}
    {h : Handler} (hh : (w.cell c).handler = some h) : ∀ q ∈ h.requests, q < w.requestCount := by
  intro q hq
  cases h with
  | callback id => cases hq
  | request r => exact List.mem_singleton.mp hq ▸ hw.handler c r hh

/-- Only a request that has been made is completed. -/
theorem World.IsBounded.lt_of_completed {w : World} (hw : w.IsBounded) {q : RequestId}
    (hc : (w.request q).completed = true) : q < w.requestCount :=
  Nat.lt_of_not_le fun hle => by simp [hw.unmade q hle] at hc

/-- In a new world, no request has been made. -/
theorem World.IsNew.request_eq {w : World} (hw : w.IsNew) (q : RequestId) :
    w.request q = default := by
  simp [request, Table.get, Directory.find?, hw.requests, Directory.search]

theorem World.IsNew.isBounded {w : World} (hw : w.IsNew) : w.IsBounded where
  handler c q h := by simp [(hw.cell c).handler] at h
  active k := by simp [Directory.values, hw.active k]
  timer := by simp [hw.timers]
  unmade q _ := hw.request_eq q

namespace Point

variable {w : World} {p : Point}

/-- A handler comes into a cell by a registration. -/
theorem handler_step {c : CellId} {h : Handler}
    (hh : ((p.step w).world.cell c).handler = some h) :
    (w.cell c).handler = some h ∨ p = .cell c (.register h) := by
  rcases p.cell_step w c with he | ⟨h', rfl, he⟩ | ⟨r, -, he⟩ | ⟨-, he⟩ | ⟨slot, _, -, he⟩ <;>
    rw [he] at hh
  · exact .inl hh
  · unfold Cell.register at hh
    split at hh
    · exact .inl hh
    · split at hh
      · cases hh
        exact .inr rfl
      · exact .inl hh
  · unfold Cell.assign at hh
    split at hh
    · exact .inl hh
    · cases hh
  · unfold Cell.expire at hh
    split at hh
    · exact .inl hh
    · cases hh
  · cases slot <;> exact .inl hh

/-- A timer is armed by a request. -/
theorem timers_step : ∀ x ∈ (p.step w).world.timers,
    x ∈ w.timers ∨ ∃ q, p = .request q .arm ∧ x.request = q := by
  generalize hw : (p.step w).world = w'
  have h : Writes w p w' := hw ▸ writes_step w p
  intro x hx
  cases h with
  | arm q =>
    rcases List.mem_append.mp hx with hx | hx
    · exact .inl hx
    · exact .inr ⟨q, rfl, by rw [List.mem_singleton.mp hx]⟩
  | cancelTimer q =>
    left
    unfold World.cancel at hx
    split at hx
    · exact hx
    · exact (List.mem_filter.mp hx).1
  | _ => exact .inl hx

/-- A request joins those in flight when it is activated. -/
theorem values_step {k : CoordinatorId} : ∀ q ∈ ((p.step w).world.coordinator k).active.values,
    q ∈ (w.coordinator k).active.values ∨ p = .coordinator k (.activate q) := by
  intro q hq
  rcases p.active_step w k with he | ⟨q', rfl, -, he⟩ | ⟨q', -, -, he⟩ <;> rw [he] at hq
  · exact .inl hq
  · rcases Directory.mem_values_of_mem_put hq with hq | rfl
    · exact .inl hq
    · exact .inr rfl
  · exact .inl (Directory.mem_values_of_mem_erase hq)

/-- Of the requests that have not been made, a step changes only the one that it makes. -/
theorem request_step_of_le (hp : ∀ q ∈ p.requests, q < w.requestCount) {q : RequestId}
    (hq : w.requestCount ≤ q) :
    (p.step w).world.request q = w.request q ∨
    (∃ k c d extra, p = .coordinator k (.draw c d extra) ∧ q = w.requestCount ∧
      (p.step w).world.request q = (w.coordinator k).newRequest k c (w.cell c) d extra) := by
  have hother (rp : RequestPoint) : p ≠ .request q rp := by
    rintro rfl
    exact absurd (hp q (by simp [requests])) (Nat.not_lt.mpr hq)
  rcases p.request_step w q with h | ⟨h, -⟩ | ⟨_, h, -⟩ | ⟨h, -⟩ | ⟨h, -⟩ | ⟨h, -⟩ | h
  · exact .inl h
  · exact absurd h (hother _)
  · exact absurd h (hother _)
  · exact absurd h (hother _)
  · exact absurd h (hother _)
  · exact absurd h (hother _)
  · exact .inr h

theorem isBounded_step (hw : w.IsBounded) (hp : ∀ q ∈ p.requests, q < w.requestCount) :
    (p.step w).world.IsBounded := by
  have hle := p.requestCount_le_step w
  refine ⟨fun c q h => ?_, fun k q h => ?_, fun x hx => ?_, fun q hq => ?_⟩
  · rcases handler_step h with h | rfl
    · exact Nat.lt_of_lt_of_le (hw.handler c q h) hle
    · exact Nat.lt_of_lt_of_le (hp q (by simp [requests, CellPoint.requests, Handler.requests])) hle
  · rcases values_step q h with h | rfl
    · exact Nat.lt_of_lt_of_le (hw.active k q h) hle
    · exact Nat.lt_of_lt_of_le (hp q (by simp [requests, CoordinatorPoint.requests])) hle
  · rcases timers_step x hx with h | ⟨q, rfl, hq⟩
    · exact Nat.lt_of_lt_of_le (hw.timer x h) hle
    · rw [hq]
      exact Nat.lt_of_lt_of_le (hp q (by simp [requests])) hle
  · rcases request_step_of_le hp (Nat.le_trans hle hq) with h | ⟨k, c, d, extra, rfl, rfl, -⟩
    · exact h.trans (hw.unmade q (Nat.le_trans hle hq))
    · exact absurd hq (Nat.not_le.mpr (Nat.lt_succ_self _))

theorem requests_step_lt (hw : w.IsBounded) (hp : ∀ q ∈ p.requests, q < w.requestCount) :
    ∀ q ∈ (p.step w).next.requests, q < (p.step w).world.requestCount := by
  have hle := p.requestCount_le_step w
  intro q hq
  rcases requests_of_way (p.way_step w) q hq with h | ⟨c, h⟩ | ⟨k, h⟩ | ⟨rfl, k, c, d, extra, rfl⟩
  · exact Nat.lt_of_lt_of_le (hp q h) hle
  · exact Nat.lt_of_lt_of_le (hw.handler c q h) hle
  · exact Nat.lt_of_lt_of_le (hw.active k q h) hle
  · exact Nat.lt_succ_self _

/-- A step changes of a request that has been made only its own fields. -/
theorem request_step_of_lt (q : RequestId) (hq : q < w.requestCount) :
    (p.step w).world.request q = w.request q ∨
    (p = .request q .arm ∧
      (p.step w).world.request q = { w.request q with timer := some w.timerCount }) ∨
    (∃ r, p = .request q (.record r) ∧ (p.step w).world.request q =
      { w.request q with resolution := (w.request q).resolution.or (some r) }) ∨
    (p = .request q .markTimeout ∧
      (p.step w).world.request q = { w.request q with timedOut := true }) ∨
    (p = .request q .complete ∧
      (p.step w).world.request q = { w.request q with completed := true }) ∨
    (p = .request q .release ∧
      (p.step w).world.request q = { w.request q with released := true }) := by
  rcases p.request_step w q with h | h | h | h | h | h | ⟨k, c, d, extra, -, hnew, -⟩
  · exact .inl h
  · exact .inr (.inl h)
  · exact .inr (.inr (.inl h))
  · exact .inr (.inr (.inr (.inl h)))
  · exact .inr (.inr (.inr (.inr (.inl h))))
  · exact .inr (.inr (.inr (.inr (.inr h))))
  · exact absurd hnew (Nat.ne_of_lt hq)

end Point

namespace System

/-- Whether the requests that a system names have been made. -/
structure IsBounded (s : System) : Prop where
  world : s.world.IsBounded
  ongoing : ∀ x ∈ s.ongoing, ∀ q ∈ x.activation.requests, q < s.world.requestCount
  known : ∀ q ∈ s.known, q < s.world.requestCount

variable {s s' : System} {m : Move} {allowed : Move → Prop}

theorem IsBounded.of_ready (h : s.IsBounded) {x : Ongoing} (hx : x ∈ s.ongoing) {p : Point}
    (hp : x.activation.control = .ready p) : ∀ q ∈ p.requests, q < s.world.requestCount :=
  fun q hq => h.ongoing x hx q (List.mem_append_left _ (by rwa [hp]))

theorem requestCount_le_of_transition (ht : Transition s m s') :
    s.world.requestCount ≤ s'.world.requestCount := by
  cases ht with
  | step newer older t k p frames hs hn hp => exact p.requestCount_le_step s.world
  | make => exact Nat.le_succ _
  | _ => exact Nat.le_refl _

private theorem isBounded_of_transition (ht : Transition s m s') (h : s.IsBounded) :
    s'.IsBounded := by
  have hle := requestCount_le_of_transition ht
  have hongoing : ∀ x ∈ s'.ongoing, ∀ q ∈ x.activation.requests, q < s'.world.requestCount := by
    refine forall_ongoing_of_transition (P := fun w x =>
      ∀ q ∈ x.activation.requests, q < w.requestCount) ht h.ongoing ?_ ?_ ?_ ?_ ?_ ?_
    · exact fun x _ hx q hq => Nat.lt_of_lt_of_le (hx q hq) hle
    · intro t c hm hknown q hq
      exact h.known q (hknown q (c.requests_activation ▸ hq))
    · intro t x hm hx q hq
      rw [Call.requests_activation] at hq
      exact List.mem_singleton.mp hq ▸ h.world.timer x hx
    · intro t k p frames hmem hp hx q hq
      rcases Activation.mem_requests_follow.mp hq with hq | hq
      · exact Point.requests_step_lt h.world
          (fun q hq => hx q (List.mem_append_left _ hq)) q hq
      · exact Nat.lt_of_lt_of_le (hx q (List.mem_append_right _ hq)) (p.requestCount_le_step _)
    · intro t k o f frames hmem hx q hq
      have hx (hq : q ∈ o.requests ∨ q ∈ f.requests ∨ q ∈ frames.flatMap Frame.requests) :
          q < s.world.requestCount :=
        hx q (by simpa [Activation.requests, Control.requests] using hq)
      rcases Activation.mem_requests_follow.mp hq with hq | hq
      · rcases Frame.requests_of_way (f.way_resume s.world o) q hq with hq | hq
        · exact hx (.inr (.inl hq))
        · exact hx (.inl hq)
      · exact hx (.inr (.inr hq))
    · intro t k i frames a hm hmem hx q hq
      rcases List.mem_append.mp hq with hq | hq
      · cases a <;> simp [Control.requests, Outcome.ofUser, Outcome.requests,
          Outcome.request?] at hq
      · exact hx q (List.mem_append_right _ hq)
  have hknown : ∀ q ∈ s'.known, q < s'.world.requestCount := by
    cases ht with
    | make =>
      intro q hq
      rcases List.mem_append.mp hq with hq | hq
      · exact Nat.lt_succ_of_lt (h.known q hq)
      · exact List.mem_singleton.mp hq ▸ Nat.lt_succ_self _
    | finish newer older t k o hs hn =>
      intro q hq
      rcases List.mem_append.mp hq with hq | hq
      · exact h.known q hq
      · exact h.ongoing ⟨t, k, ⟨.ended o, []⟩⟩ (hs ▸ by simp) q (List.mem_append_left _ hq)
    | _ => exact fun q hq => Nat.lt_of_lt_of_le (h.known q hq) hle
  have hworld : s'.world.IsBounded := by
    cases ht with
    | step newer older t k p frames hs hn hp =>
      have hx : ⟨t, k, ⟨.ready p, frames⟩⟩ ∈ s.ongoing := hs ▸ by simp
      exact Point.isBounded_step h.world (h.of_ready hx rfl)
    | make =>
      exact ⟨fun c q hc => Nat.lt_succ_of_lt (h.world.handler c q hc),
        fun k q hq => Nat.lt_succ_of_lt (h.world.active k q hq),
        fun x hx => Nat.lt_succ_of_lt (h.world.timer x hx), fun q hq => by
          rw [addRequest, World.request_addRequest, if_neg (Nat.ne_of_gt hq)]
          exact h.world.unmade q (Nat.le_of_succ_le hq)⟩
    | fire t x hfree hx =>
      exact ⟨h.world.handler, h.world.active, fun y hy =>
        h.world.timer y (List.mem_filter.mp hy).1, h.world.unmade⟩
    | _ => exact h.world
  exact ⟨hworld, hongoing, hknown⟩

/-- The requests that a system names have been made. -/
theorem Reachable.isBounded (hs : Reachable allowed s) : s.IsBounded :=
  hs.induction (fun w hw => ⟨hw.isBounded, by simp, by simp⟩) fun _ _ _ _ _ ht h =>
    isBounded_of_transition ht h

end System

end Rendezvous
