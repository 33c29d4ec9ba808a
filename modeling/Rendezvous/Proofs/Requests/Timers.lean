import Rendezvous.Proofs.Independence.Alarms
import Rendezvous.Proofs.Requests.Duties

/-!
# The timer of a completed request

A request arms its timer when its processing begins, whether it is completed by then or not, and
cancels the timer once, when it is completed. If it arms its timer first, the timer is not armed any
more once the request is completed. If the request is completed first, nobody cancels the timer: it
stays armed until it fires.

## Main definitions

* `TimerAct`, `System.timerActs`: what a request does with its timer.
* `System.HasTimer`: a request has an armed timer.
* `System.IsArmedLate`: a request has armed its timer after it was completed.
* `Alarmed`: what a request has done with its timer, and the alarms that this has left.

## Main results

* `System.Reachable.cancels`: a request that is completed cancels its timer, once.
* `System.Reachable.alarmed`: what its acts leave of the timer of a request.
* `System.Reachable.hasTimer_of_completed`: whether a completed request has an armed timer.
-/

namespace Rendezvous

/-- What a request does with its timer. -/
inductive TimerAct where
  /-- Its processing begins, and the timer is armed unless the timeout is not positive. -/
  | arm
  | cancel
  deriving DecidableEq

/-- What a request does with its timer in an event. -/
def Event.timerAct? (q : RequestId) : Event → Option TimerAct :=
  ofStep fun _ p n => match p, n with
    | .request r .arm, .goto _ => if r = q then some .arm else none
    | .request r .cancelTimer, _ => if r = q then some .cancel else none
    | _, _ => none

namespace System

/-- What a request has done with its timer, in order. -/
def timerActs (s : System) (q : RequestId) : List TimerAct :=
  s.history.filterMap (Event.timerAct? q)

/-- Whether a request has an armed timer. -/
def HasTimer (s : System) (q : RequestId) : Prop :=
  ∃ x ∈ s.world.timers, x.request = q

/-- Whether a request has armed its timer when nobody was to cancel it any more. -/
def IsArmedLate (s : System) (q : RequestId) : Prop :=
  s.timerActs q = [.cancel, .arm] ∧ 0 < (s.world.request q).timeoutMs

end System

/-- What a request that has begun at most once has done with its timer, and the alarms that this has
left. An alarm may be missing if the timer may have fired. -/
inductive Alarmed (x : Request) (mayFire : Prop) : List TimerAct → List (Nat × Bool) → Prop
  | idle : Alarmed x mayFire [] []
  | armed (before : List TimerAct) (hb : before = [] ∨ before = [.cancel]) (due : Nat)
      (h : 0 < x.timeoutMs) : Alarmed x mayFire (before ++ [.arm]) [(due, true)]
  | silent (before : List TimerAct) (hb : before = [] ∨ before = [.cancel])
      (h : x.timeoutMs ≤ 0 ∨ mayFire) : Alarmed x mayFire (before ++ [.arm]) []
  | cancelled (before : List TimerAct) (hb : before = [] ∨ before = [.arm]) :
    Alarmed x mayFire (before ++ [.cancel]) []

variable {w w' : World} {q : RequestId} {p : Point} {frames : List Frame} {x y : Request}
  {mayFire : Prop} {acts : List TimerAct} {alarms : List (Nat × Bool)} {t : ThreadId}
  {k : CallNumber} {n : Next}

/-! ### One step -/

theorem Event.timerAct?_eq_arm : timerAct? q ⟨t, k, .step p n⟩ = some .arm ↔
    p = .request q .arm ∧ ∃ p', n = .goto p' := by
  unfold timerAct? ofStep
  dsimp only
  split <;> simp_all

theorem Event.timerAct?_eq_cancel :
    timerAct? q ⟨t, k, .step p n⟩ = some .cancel ↔ p = .request q .cancelTimer := by
  unfold timerAct? ofStep
  dsimp only
  split <;> simp_all

theorem Event.timerAct?_eq_none (harm : p ≠ .request q .arm)
    (hcancel : p ≠ .request q .cancelTimer) : timerAct? q ⟨t, k, .step p n⟩ = none := by
  cases hact : timerAct? q ⟨t, k, .step p n⟩ with
  | none => rfl
  | some act =>
    cases act with
    | arm => exact absurd (timerAct?_eq_arm.mp hact).1 harm
    | cancel => exact absurd (timerAct?_eq_cancel.mp hact) hcancel

/-- A timer of another request that fires leaves the alarms that can be cancelled. -/
theorem World.alarms_fire (hw : w.KeepsTimers) {t : Timer} (ht : t ∈ w.timers)
    (hne : t.request ≠ q) (hown : ∀ a ∈ w.alarms q, a.2 = true) :
    (w.fire t).alarms q = w.alarms q := by
  have hsame : (w.fire t).timers = w.timers.filter fun x => x.id ≠ t.id := rfl
  unfold alarms at hown ⊢
  rw [hsame, List.filter_filter, request_fire]
  congr 1
  refine List.filter_congr fun y hy => ?_
  by_cases hyq : y.request = q
  · have htimer : (w.request q).timer = some y.id := by
      simpa using hown _ (List.mem_map_of_mem (List.mem_filter.mpr ⟨hy, by simpa using hyq⟩))
    have hid : y.id ≠ t.id := fun h => hne (hw.own t ht q (h ▸ htimer))
    simp [hyq, hid]
  · simp [hyq]

/-- A timer that fires takes an alarm away, or leaves the alarms as they are. -/
theorem World.alarms_fire_sublist (t : Timer) :
    ((w.fire t).alarms q).Sublist (w.alarms q) :=
  (List.filter_sublist.filter _).map _

namespace Alarmed

theorem of_fixed (h : Alarmed x mayFire acts alarms) (hxy : y.fixed = x.fixed) :
    Alarmed y mayFire acts alarms := by
  have ht := Request.timeoutMs_eq_of_fixed hxy
  cases h with
  | idle => exact .idle
  | armed before hb due h => exact .armed before hb due (ht ▸ h)
  | silent before hb h => exact .silent before hb (ht ▸ h)
  | cancelled before hb => exact .cancelled before hb

/-- Every alarm can be cancelled. -/
theorem own (h : Alarmed x mayFire acts alarms) : ∀ a ∈ alarms, a.2 = true := by
  cases h <;> simp

/-- A timer that fires. -/
theorem fire {alarms' : List (Nat × Bool)} (h : Alarmed x mayFire acts alarms)
    (hsub : alarms'.Sublist alarms) (hmay : mayFire) : Alarmed x mayFire acts alarms' := by
  cases h with
  | armed before hb due h =>
    rcases List.sublist_singleton.mp hsub with rfl | rfl
    · exact .silent before hb (.inr hmay)
    · exact .armed before hb due h
  | idle => exact List.sublist_nil.mp hsub ▸ .idle
  | silent before hb h => exact List.sublist_nil.mp hsub ▸ .silent before hb h
  | cancelled before hb => exact List.sublist_nil.mp hsub ▸ .cancelled before hb

/-- A request that has not begun has no alarms, and has cancelled its timer at most. -/
theorem not_begun (h : Alarmed x mayFire acts alarms)
    (hone : (acts ++ [TimerAct.arm]).count .arm ≤ 1) :
    (acts = [] ∨ acts = [.cancel]) ∧ alarms = [] := by
  cases h with
  | idle => exact ⟨.inl rfl, rfl⟩
  | cancelled before hb =>
    rcases hb with rfl | rfl
    · exact ⟨.inr rfl, rfl⟩
    · simp at hone
  | _ => simp [List.count_append] at hone

/-- A request that cancels its timer for the first time has no alarms any more. -/
theorem cancel (h : Alarmed x mayFire acts alarms) (hfirst : .cancel ∉ acts) :
    Alarmed x mayFire (acts ++ [.cancel]) (alarms.filter (!·.2)) := by
  cases h with
  | idle => exact .cancelled [] (.inl rfl)
  | armed before hb due h =>
    rcases hb with rfl | rfl
    · exact .cancelled [.arm] (.inr rfl)
    · simp at hfirst
  | silent before hb h =>
    rcases hb with rfl | rfl
    · exact .cancelled [.arm] (.inr rfl)
    · simp at hfirst
  | cancelled => simp at hfirst

/-- The step with which the processing of a request begins. -/
theorem arm (h : Alarmed (w.request q) mayFire acts (w.alarms q)) (hw : w.KeepsTimers)
    (hone : (acts ++ (Event.timerAct? q
      ⟨t, k, .step (.request q .arm) ((Point.request q .arm).step w).next⟩).toList).count
        TimerAct.arm ≤ 1) :
    Alarmed (w.request q) mayFire
      (acts ++ (Event.timerAct? q
        ⟨t, k, .step (.request q .arm) ((Point.request q .arm).step w).next⟩).toList)
      (((Point.request q .arm).step w).world.alarms q) := by
  have hgoto {n : Next} {p : Point} (hn : n = .goto p) :
      Event.timerAct? q ⟨t, k, .step (.request q .arm) n⟩ = some .arm :=
    Event.timerAct?_eq_arm.mpr ⟨rfl, p, hn⟩
  by_cases htimeout : (w.request q).timeoutMs ≤ 0
  · simp only [Point.step, RequestPoint.step, if_pos htimeout, hgoto rfl, Option.toList_some]
      at hone ⊢
    obtain ⟨hb, hnone⟩ := h.not_begun hone
    exact hnone ▸ .silent acts hb (.inl htimeout)
  · simp only [Point.step, RequestPoint.step, if_neg htimeout] at hone ⊢
    split
    · -- The timeout is too long for a timer, and nothing happens.
      simpa [Event.timerAct?, Event.ofStep, Next.fail] using h
    · rename_i hcountable
      simp only [if_neg hcountable, hgoto rfl, Option.toList_some] at hone
      obtain ⟨hb, hnone⟩ := h.not_begun hone
      rw [hgoto rfl, World.alarms_arm hw, if_pos rfl, hnone]
      exact .armed acts hb _ (Int.not_le.mp htimeout)

end Alarmed

namespace System

variable {s s' : System} {m : Move} {allowed : Move → Prop}

theorem timerActs_append {e : Event} (hh : s'.history = s.history ++ [e]) :
    s'.timerActs q = s.timerActs q ++ (e.timerAct? q).toList := by
  rw [timerActs, hh, filterMap_append_cons, List.filterMap_nil, List.append_nil]
  rfl

theorem hasTimer_iff : s.HasTimer q ↔ s.world.alarms q ≠ [] := by
  rw [HasTimer, World.alarms, Ne, List.map_eq_nil_iff, List.filter_eq_nil_iff]
  simp

/-- No call stands at a point of a request that has not been made. -/
private theorem IsBounded.ne_of_ready (hs : s.IsBounded)
    (hx : ⟨t, k, ⟨.ready p, frames⟩⟩ ∈ s.ongoing) (hq : s.world.requestCount ≤ q)
    (rp : RequestPoint) : p ≠ .request q rp := by
  rintro rfl
  exact absurd (hs.of_ready hx rfl q (by simp [Point.requests])) (Nat.not_lt.mpr hq)

/-- A request that has not been made has done nothing with its timer. -/
theorem Reachable.timerActs_eq_nil (hs : Reachable allowed s) (hq : s.world.requestCount ≤ q) :
    s.timerActs q = [] := by
  refine List.filterMap_eq_nil_iff.mpr fun ⟨t, k, d⟩ he => ?_
  cases d with
  | step p n =>
    obtain ⟨s₀, frames, hs₀, hl, hx, -⟩ := hs.exists_of_step he
    have hother := hs₀.isBounded.ne_of_ready hx (Nat.le_trans hl.grows.requestCount hq)
    exact Event.timerAct?_eq_none (hother _) (hother _)
  | _ => rfl

/-! ### The cancellation -/

/-- Only the call that completes a request comes to the cancellation of its timer. -/
private theorem Transition.cancelling (ht : Transition s m s') {y : Ongoing} (hy : y ∈ s'.ongoing)
    (hp : y.activation.control = .ready (.request q .cancelTimer)) :
    y ∈ s.ongoing ∨ (s.world.request q).completed = false := by
  rcases ht.mem_ongoing hy with hy | ⟨c, hc, -⟩ | ⟨a, d, -, hm, -⟩
  · exact .inl hy
  · rw [hc] at hp
    cases c.enters_of_control hp
  · generalize y.activation = b at hm hp
    cases hm with
    | step p frames =>
      have hway := p.way_step s.world
      have hp := Activation.control_follow.mp hp
      generalize (p.step s.world).next = n at hway hp
      cases hway <;> cases hp
      rename_i hopen
      exact .inr hopen
    | resume o f frames =>
      have hway := f.way_resume s.world o
      have hp := Activation.control_follow.mp hp
      generalize (f.resume s.world o).next = n at hway hp
      cases hway <;> cases hp
    | answer => cases hp

/-- A timer is cancelled by a call that stands at the cancellation, and goes on to the hooks. -/
private theorem Transition.exists_of_cancel (ht : Transition s m s')
    (h : .cancel ∈ s'.timerActs q) (hnew : .cancel ∉ s.timerActs q) : ∃ t k frames,
      ⟨t, k, ⟨.ready (.request q .cancelTimer), frames⟩⟩ ∈ s.ongoing ∧
      ⟨t, k, .follow frames (.goto (.request q
        (.completionHooks (s.world.request q).interceptors.reverse)))⟩ ∈ s'.ongoing := by
  rcases ht.history with hh | ⟨⟨t, k, d⟩, hh⟩
  · exact absurd (by rwa [timerActs, hh] at h) hnew
  have hact : Event.timerAct? q ⟨t, k, d⟩ = some .cancel := by
    rw [timerActs_append hh, List.mem_append] at h
    simpa using h.resolve_left hnew
  cases d with
  | step p n =>
    obtain rfl := Event.timerAct?_eq_cancel.mp hact
    obtain ⟨newer, older, frames, hongoing, -, -, rfl, rfl⟩ := ht.exists_of_step hh
    exact ⟨t, k, frames, hongoing ▸ by simp, by simp [proceed, Point.step, RequestPoint.step]⟩
  | _ => cases hact

/-- A request whose timer was cancelled is completed, and no call cancels the timer again. -/
theorem Reachable.of_cancelled (hs : Reachable allowed s) (h : .cancel ∈ s.timerActs q) :
    (s.world.request q).completed = true ∧
      ∀ x ∈ s.ongoing, x.activation.control ≠ .ready (.request q .cancelTimer) := by
  obtain ⟨w, hw, hl⟩ := hs
  induction hl with
  | refl => cases h
  | @move s s' m hl hm htake ih =>
    have hs : Reachable allowed s := ⟨w, hw, hl⟩
    have hs' : Reachable allowed s' := ⟨w, hw, .move m hl hm htake⟩
    have ht := transition_of_take? htake
    by_cases hold : .cancel ∈ s.timerActs q
    · obtain ⟨hc, hcalm⟩ := ih hold
      refine ⟨ht.grows.completed hs.isBounded.world hc, fun y hy hp => ?_⟩
      rcases ht.cancelling hy hp with hy | hopen
      · exact hcalm y hy hp
      · simp [hc] at hopen
    · obtain ⟨t, k, frames, hx, hgoes⟩ := ht.exists_of_cancel h hold
      have hc : (s.world.request q).completed = true := (hs.closes _ hx).point _ rfl
      refine ⟨ht.grows.completed hs.isBounded.world hc, fun y hy hp => ?_⟩
      -- The call that has cancelled the timer is on the pass, and no other call is.
      obtain ⟨st, hst, -⟩ := hs'.pass q
      have hmine : .hooks (s.world.request q).interceptors.reverse ∈ s'.stages q :=
        List.mem_flatMap.mpr ⟨_, hgoes, by
          simp [Activation.follow, Activation.stages, Control.stage?, Point.stage?]⟩
      have hother : .begun ∈ s'.stages q := List.mem_flatMap.mpr ⟨y, hy, by
        simp [Activation.stages, hp, Control.stage?, Point.stage?]⟩
      rw [hst, Option.mem_toList] at hmine hother
      cases Option.some.inj (hmine.symm.trans hother)

/-- A completed request has cancelled its timer, or a call is about to do so. -/
theorem Reachable.cancels (hs : Reachable allowed s) (hc : (s.world.request q).completed = true) :
    (∃ x ∈ s.ongoing, x.activation.control = .ready (.request q .cancelTimer)) ∨
      .cancel ∈ s.timerActs q := by
  refine hs.induction (I := fun s => (s.world.request q).completed = true →
    (∃ x ∈ s.ongoing, x.activation.control = .ready (.request q .cancelTimer)) ∨
      .cancel ∈ s.timerActs q) (fun w hw hc => by simp [hw.request_eq q] at hc)
    (fun s m s' hs _ ht ih hc => ?_) hc
  rcases ht.completed hs.isBounded hc with hc | ⟨hopen, t, k, frames, -, -, hgoes⟩
  · rcases ih hc with ⟨x, hx, hp⟩ | hcancel
    · rcases ht.mem_of_ready hx hp with hx | hh
      · exact .inl ⟨x, hx, hp⟩
      · rw [timerActs_append hh, Event.timerAct?_eq_cancel.mpr rfl]
        exact .inr (by simp)
    · exact .inr ((ht.history_prefix.filterMap _).subset hcancel)
  · refine .inl ⟨_, hgoes, ?_⟩
    simp [Point.step, RequestPoint.step, hopen, Activation.follow]

/-! ### What is left of the timer -/

/-- Whether the timer of a request may fire in a run. -/
def MayFire (allowed : Move → Prop) (q : RequestId) : Prop :=
  ∃ t x, allowed (.fire t x) ∧ x.request = q

/-- A step leaves of the timer of a request what the request does with it. -/
private theorem Reachable.alarmed_step (hs : Reachable allowed s) (hq : q < s.world.requestCount)
    (h : Alarmed (s.world.request q) mayFire (s.timerActs q) (s.world.alarms q))
    (hx : ⟨t, k, ⟨.ready p, frames⟩⟩ ∈ s.ongoing)
    (hone : (s.timerActs q ++
      (Event.timerAct? q ⟨t, k, .step p (p.step s.world).next⟩).toList).count TimerAct.arm ≤ 1) :
    Alarmed (s.world.request q) mayFire
      (s.timerActs q ++ (Event.timerAct? q ⟨t, k, .step p (p.step s.world).next⟩).toList)
      ((p.step s.world).world.alarms q) := by
  by_cases harm : p = .request q .arm
  · subst harm
    exact h.arm hs.keepsTimers hone
  by_cases hcancel : p = .request q .cancelTimer
  · subst hcancel
    have hfirst : .cancel ∉ s.timerActs q := fun hold => (hs.of_cancelled hold).2 _ hx rfl
    have hworld : ((Point.request q .cancelTimer).step s.world).world = s.world.cancel q := rfl
    rw [Event.timerAct?_eq_cancel.mpr rfl, hworld, World.alarms_cancel hs.keepsTimers, if_pos rfl]
    exact h.cancel hfirst
  have hsame : (p.step s.world).world.alarms q = s.world.alarms q :=
    (Point.alarms_step hs.keepsTimers hq).resolve_right (by simp [harm, hcancel])
  rw [hsame, Event.timerAct?_eq_none harm hcancel, Option.toList_none, List.append_nil]
  exact h

/-- A request that comes into being has done nothing with its timer. -/
private theorem Transition.idle (hs : Reachable allowed s) (ht : Transition s m s')
    (hq : s.world.requestCount ≤ q) : s'.timerActs q = [] ∧ s'.world.alarms q = [] := by
  have hold : s.timerActs q = [] := hs.timerActs_eq_nil hq
  have hnone (htimers : ∀ x ∈ s'.world.timers, x.request ≠ q) : s'.world.alarms q = [] := by
    rw [World.alarms, List.map_eq_nil_iff, List.filter_eq_nil_iff]
    simpa using htimers
  have hbefore (x : Timer) (hx : x ∈ s.world.timers) : x.request ≠ q :=
    Nat.ne_of_lt (Nat.lt_of_lt_of_le (hs.isBounded.world.timer x hx) hq)
  cases ht with
  | step newer older t k p frames hongoing hn hp =>
    have hx : ⟨t, k, ⟨.ready p, frames⟩⟩ ∈ s.ongoing := hongoing ▸ by simp
    have hother := hs.isBounded.ne_of_ready hx hq
    refine ⟨?_, hnone fun x hx => ?_⟩
    · rw [timerActs_append rfl, hold, Event.timerAct?_eq_none (hother _) (hother _)]
      rfl
    · rcases p.timers_step x hx with hx | ⟨r, rfl, hr⟩
      · exact hbefore x hx
      · rintro rfl
        exact hother .arm (hr ▸ rfl)
  | fire t x => exact ⟨(timerActs_append rfl).trans (by rw [hold]; rfl),
      hnone fun y hy => hbefore y (List.mem_filter.mp hy).1⟩
  | make => exact ⟨hold, hnone hbefore⟩
  | _ => exact ⟨(timerActs_append rfl).trans (by rw [hold]; rfl), hnone hbefore⟩

/-- What its acts leave of the timer of a request whose processing begins at most once. -/
theorem Reachable.alarmed (hs : Reachable allowed s) (hone : (s.timerActs q).count .arm ≤ 1) :
    Alarmed (s.world.request q) (MayFire allowed q) (s.timerActs q) (s.world.alarms q) := by
  refine hs.induction (I := fun s => (s.timerActs q).count .arm ≤ 1 →
    Alarmed (s.world.request q) (MayFire allowed q) (s.timerActs q) (s.world.alarms q))
    (fun w hw _ => ?_) (fun s m s' hs hm ht ih hone => ?_) hone
  · have hnone : w.alarms q = [] := by simp [World.alarms, hw.timers]
    exact hnone ▸ .idle
  · by_cases hq : q < s.world.requestCount
    · have hfixed := (ht.grows.request q hq).fixed
      have h := ih (Nat.le_trans ((ht.history_prefix.filterMap _).sublist.count_le _) hone)
      -- What is no step of a call is no act either.
      have hquiet {e : Event} (hh : s'.history = s.history ++ [e])
          (he : e.timerAct? q = none) : s'.timerActs q = s.timerActs q := by
        rw [timerActs_append hh, he, Option.toList_none, List.append_nil]
      cases ht with
      | step newer older t k p frames hongoing hn hp =>
        have hx : ⟨t, k, ⟨.ready p, frames⟩⟩ ∈ s.ongoing := hongoing ▸ by simp
        rw [timerActs_append rfl] at hone ⊢
        exact (hs.alarmed_step hq h hx hone).of_fixed hfixed
      | fire t x hfree hx =>
        rw [hquiet rfl rfl]
        by_cases hxq : x.request = q
        · exact h.fire (World.alarms_fire_sublist x) ⟨t, x, hm, hxq⟩
        · exact (World.alarms_fire hs.keepsTimers hx hxq h.own).symm ▸ h
      | make =>
        refine Alarmed.of_fixed ?_ hfixed
        exact ((World.alarms_addRequest hs.keepsTimers _).trans (if_neg (Nat.ne_of_lt hq))).symm ▸ h
      | begin => exact (hquiet rfl rfl).symm ▸ h
      | resume => exact (hquiet rfl rfl).symm ▸ h
      | answer => exact (hquiet rfl rfl).symm ▸ h
      | finish => exact (hquiet rfl rfl).symm ▸ h
    · obtain ⟨hacts, halarms⟩ := ht.idle hs (Nat.not_lt.mp hq)
      rw [hacts, halarms]
      exact .idle

/-- When a completed request has an armed timer, whatever calls, timers and user code do, if its
processing begins at most once and no call is about to cancel the timer. It has one only if it has
armed it after it was completed, when the timer had been cancelled already; otherwise there was no
timer, or it has fired, or it was cancelled. A timer that was armed so late stays armed until it
fires. -/
theorem Reachable.hasTimer_of_completed (hs : Reachable allowed s)
    (hone : (s.timerActs q).count .arm ≤ 1) (hc : (s.world.request q).completed = true)
    (hcalm : ∀ x ∈ s.ongoing, x.activation.control ≠ .ready (.request q .cancelTimer)) :
    (s.HasTimer q → s.IsArmedLate q) ∧
      ((∀ t x, allowed (.fire t x) → x.request ≠ q) → (s.HasTimer q ↔ s.IsArmedLate q)) := by
  have hcancelled : .cancel ∈ s.timerActs q :=
    (hs.cancels hc).resolve_left fun ⟨x, hx, hp⟩ => hcalm x hx hp
  have h := hs.alarmed hone
  rw [hasTimer_iff, IsArmedLate]
  generalize s.timerActs q = acts at h hcancelled
  generalize s.world.alarms q = alarms at h
  cases h with
  | idle => cases hcancelled
  | armed before hb due h =>
    rcases hb with rfl | rfl
    · simp at hcancelled
    · simp [h]
  | silent before hb h =>
    refine ⟨fun hne => absurd rfl hne, fun hquiet => ⟨fun hne => absurd rfl hne, fun hlate => ?_⟩⟩
    rcases h with h | ⟨t, x, hfire, hx⟩
    · exact absurd hlate.2 (Int.not_lt.mpr h)
    · exact absurd hx (hquiet t x hfire)
  | cancelled before hb => rcases hb with rfl | rfl <;> simp

/-- A request with a timeout is made without a coordinator. -/
def making : Move :=
  .make 0 (some "d") [] 10 "t" (.announcement "r")

/-- The request begins, and is abandoned. -/
def begunFirst : List Move :=
  making :: .begin 0 (.begin 0) :: List.replicate 4 (.advance 0) ++ .finish 0 ::
    .begin 0 (.abandon 0) :: List.replicate 7 (.advance 0) ++ [.finish 0]

theorem not_hasTimer_begunFirst : ∃ s, run { world := default } begunFirst = some s ∧
    (s.world.request 0).completed = true ∧ s.timerActs 0 = [.arm, .cancel] ∧ ¬ s.HasTimer 0 := by
  have hshown : (run { world := default } begunFirst).any (fun s =>
      s.ongoing.isEmpty && (s.world.request 0).completed &&
        decide (s.timerActs 0 = [.arm, .cancel])) = true := by decide +kernel
  obtain ⟨s, hs, hb⟩ := Option.any_eq_true _ _ |>.mp hshown
  simp only [Bool.and_eq_true, decide_eq_true_eq, List.isEmpty_iff] at hb
  obtain ⟨⟨hongoing, hc⟩, hacts⟩ := hb
  obtain ⟨hlate, -⟩ := (reachable_of_run World.isNew_default hs).hasTimer_of_completed (q := 0)
    (by simp [hacts]) hc (by simp [hongoing])
  refine ⟨s, hs, hc, hacts, fun h => ?_⟩
  obtain ⟨hacts', -⟩ := hlate h
  simp [hacts] at hacts'

/-- The request is abandoned, and begins after that. -/
def abandonedFirst : List Move :=
  making :: .begin 0 (.abandon 0) :: List.replicate 7 (.advance 0) ++ .finish 0 ::
    .begin 0 (.begin 0) :: List.replicate 4 (.advance 0) ++ [.finish 0]

theorem hasTimer_abandonedFirst : ∃ s, run { world := default } abandonedFirst = some s ∧
    Reachable Move.any s ∧ s.ongoing = [] ∧ (s.timerActs 0).count .arm = 1 ∧
    (s.world.request 0).completed = true ∧ s.HasTimer 0 := by
  have hshown : (run { world := default } abandonedFirst).any (fun s =>
      s.ongoing.isEmpty && (s.world.request 0).completed &&
        decide (s.timerActs 0 = [.cancel, .arm]) &&
        decide (⟨0, "t", 10, 0⟩ ∈ s.world.timers)) = true := by decide +kernel
  obtain ⟨s, hs, hb⟩ := Option.any_eq_true _ _ |>.mp hshown
  simp only [Bool.and_eq_true, decide_eq_true_eq, List.isEmpty_iff] at hb
  obtain ⟨⟨⟨hongoing, hc⟩, hacts⟩, htimer⟩ := hb
  exact ⟨s, hs, reachable_of_run World.isNew_default hs, hongoing, by simp [hacts], hc, _, htimer,
    rfl⟩

end System

end Rendezvous
