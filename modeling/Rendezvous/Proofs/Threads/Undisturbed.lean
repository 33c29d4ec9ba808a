import Rendezvous.Proofs.Threads.Transition

/-!
# Undisturbed calls

A call that a thread begins and goes on with, while no other thread moves and no user code is
called, ends in one way only. The steps that it takes are those of its activation in a world that
nobody else changes.

## Main definitions

* `Activation.Goes`: where the steps of an activation lead.
* `System.Performs`: a call ends with an outcome when nothing disturbs it.

## Main results

* `System.Performs.unique`: an undisturbed call ends in one way only.
* `System.performs_of_goes`, `System.Performs.goes`: it ends as the steps of its activation say.
-/

namespace Rendezvous

/-- Where the steps of an activation lead when nothing else changes the world. -/
inductive Activation.Goes : World → Activation → World → Activation → Prop
  | refl (w : World) (a : Activation) : Goes w a w a
  | head {w w₁ w' : World} {a a₁ a' : Activation} {notices : List Notice}
      (h : a.step? w = some (w₁, a₁, notices)) (hg : Goes w₁ a₁ w' a') : Goes w a w' a'

/-- The moves of a thread that begins a call, goes on with it and ends it. -/
def Call.undisturbed (c : Call) (t : ThreadId) (steps : Nat) : List Move :=
  .begin t c :: List.replicate steps (.advance t) ++ [.finish t]

/-- Whether a call that a thread begins ends with an outcome, and where that leads, when nothing
disturbs it and it calls no user code. -/
def System.Performs (s : System) (t : ThreadId) (c : Call) (o : Outcome) (s' : System) : Prop :=
  ∃ steps, s.run (c.undisturbed t steps) = some s' ∧
    s'.history.getLast? = some ⟨t, s.begun, .finish o⟩

namespace Activation

variable {w w' : World} {a : Activation} {p : Point} {frames : List Frame}

theorem eq_of_outcome? {o : Outcome} (h : a.outcome? = some o) : a = ⟨.ended o, []⟩ := by
  obtain ⟨control, frames⟩ := a
  cases control <;> cases frames <;> cases h
  rfl

/-- An activation goes on from a point as the step there says. -/
theorem Goes.point (hp : p.isEnabled w = true)
    (hg : Goes (p.step w).world (follow frames (p.step w).next) w' a) :
    Goes w ⟨.ready p, frames⟩ w' a := by
  have hstep : step? w ⟨.ready p, frames⟩ =
      some ((p.step w).world, follow frames (p.step w).next, (p.step w).notices) := by
    simp only [step?, hp, if_true]
  exact .head hstep hg

/-- An activation goes on from a point to another one. -/
theorem Goes.goto {p' : Point} (hp : p.isEnabled w = true) (hn : (p.step w).next = .goto p')
    (hg : Goes (p.step w).world ⟨.ready p', frames⟩ w' a) : Goes w ⟨.ready p, frames⟩ w' a :=
  .point hp (hn ▸ hg)

/-- An activation ends its code at a point. -/
theorem Goes.finish {o : Outcome} (hp : p.isEnabled w = true)
    (hn : (p.step w).next = .finish o)
    (hg : Goes (p.step w).world ⟨.ended o, frames⟩ w' a) : Goes w ⟨.ready p, frames⟩ w' a :=
  .point hp (hn ▸ hg)

/-- A frame takes the outcome that it waited for. -/
theorem Goes.resume {f : Frame} {o : Outcome}
    (hg : Goes w (follow frames (f.resume w o).next) w' a) :
    Goes w ⟨.ended o, f :: frames⟩ w' a :=
  .head rfl (by rwa [Frame.resume_world])

/-- An activation that goes on from a point to another one and comes to its end does so from
there. -/
theorem Goes.of_goto {p' : Point} {o : Outcome} (hn : (p.step w).next = .goto p')
    (hg : Goes w ⟨.ready p, frames⟩ w' ⟨.ended o, []⟩) :
    Goes (p.step w).world ⟨.ready p', frames⟩ w' ⟨.ended o, []⟩ := by
  cases hg with
  | head h hg =>
    obtain ⟨-, he⟩ := Option.ite_none_right_eq_some.mp h
    cases he
    rwa [hn] at hg

end Activation

namespace System

variable {s s' s₁ s₂ : System} {t : ThreadId} {c : Call} {o : Outcome}

/-- A call that has come to its end takes no step. -/
theorem take?_advance_eq_none (h : s.take? (.finish t) = some s') :
    s.take? (.advance t) = none := by
  obtain ⟨⟨newer, x, older⟩, hi, h⟩ := Option.bind_eq_some_iff.mp h
  obtain ⟨o, ho, -⟩ := Option.bind_eq_some_iff.mp h
  simp [take?, hi, Activation.eq_of_outcome? ho, Activation.step?]

private theorem eq_of_run_finish {n₁ n₂ : Nat}
    (h₁ : s.run (List.replicate n₁ (.advance t) ++ [.finish t]) = some s₁)
    (h₂ : s.run (List.replicate n₂ (.advance t) ++ [.finish t]) = some s₂) : s₁ = s₂ := by
  have hdisagree {s s₁ s₂ : System} {n : Nat} (h₁ : s.run [.finish t] = some s₁)
      (h₂ : s.run (List.replicate (n + 1) (.advance t) ++ [.finish t]) = some s₂) : False := by
    obtain ⟨u, hu, -⟩ := Option.bind_eq_some_iff.mp h₁
    obtain ⟨v, hv, -⟩ := Option.bind_eq_some_iff.mp h₂
    simp [take?_advance_eq_none hu] at hv
  induction n₁ generalizing s n₂ with
  | zero =>
    cases n₂ with
    | zero => exact Option.some.inj (h₁.symm.trans h₂)
    | succ n₂ => exact (hdisagree h₁ h₂).elim
  | succ n₁ ih =>
    cases n₂ with
    | zero => exact (hdisagree h₂ h₁).elim
    | succ n₂ =>
      obtain ⟨u, hu, h₁⟩ := Option.bind_eq_some_iff.mp h₁
      obtain ⟨v, hv, h₂⟩ := Option.bind_eq_some_iff.mp h₂
      rw [hu] at hv
      cases hv
      exact ih h₁ h₂

/-- An undisturbed call ends in one way only. -/
theorem Performs.unique {o₁ o₂ : Outcome} (h₁ : s.Performs t c o₁ s₁)
    (h₂ : s.Performs t c o₂ s₂) : o₁ = o₂ ∧ s₁ = s₂ := by
  obtain ⟨n₁, hrun₁, hlast₁⟩ := h₁
  obtain ⟨n₂, hrun₂, hlast₂⟩ := h₂
  obtain ⟨u, hu, hrun₁⟩ := Option.bind_eq_some_iff.mp hrun₁
  obtain ⟨v, hv, hrun₂⟩ := Option.bind_eq_some_iff.mp hrun₂
  rw [hu] at hv
  cases hv
  obtain rfl := eq_of_run_finish hrun₁ hrun₂
  rw [hlast₁] at hlast₂
  cases hlast₂
  exact ⟨rfl, rfl⟩

/-- The call that a thread began last, if no other call was begun after it. -/
private theorem innermost?_cons_self (x : Ongoing) (older : List Ongoing) :
    innermost? x.thread (x :: older) = some ([], x, older) := if_pos rfl

/-- A call that was begun last goes on as its activation does. -/
private theorem exists_take?_of_step? {k : CallNumber} {a a₁ : Activation} {w₁ : World}
    {notices : List Notice} {older : List Ongoing} (hs : s.ongoing = ⟨t, k, a⟩ :: older)
    (h : a.step? s.world = some (w₁, a₁, notices)) :
    ∃ d, s.take? (.advance t) = some (s.proceed [] ⟨t, k, a⟩ older w₁ a₁ d) := by
  have hi : innermost? t s.ongoing = some ([], ⟨t, k, a⟩, older) :=
    hs ▸ innermost?_cons_self ⟨t, k, a⟩ older
  obtain ⟨d, hd⟩ : ∃ d, a.deed? s.world = some d := by
    obtain ⟨p | i | o, frames⟩ := a
    · exact ⟨_, rfl⟩
    · cases h
    · cases frames with
      | nil => cases h
      | cons f frames => exact ⟨_, rfl⟩
  exact ⟨d, by simp [take?, hi, h, hd]⟩

private theorem exists_run_of_goes {k : CallNumber} {w w' : World} {a a' : Activation}
    {older : List Ongoing} (hg : a.Goes w w' a') (hw : s.world = w)
    (hs : s.ongoing = ⟨t, k, a⟩ :: older) :
    ∃ n s', s.run (List.replicate n (.advance t)) = some s' ∧ s'.world = w' ∧
      s'.ongoing = ⟨t, k, a'⟩ :: older ∧ s'.known = s.known := by
  induction hg generalizing s with
  | refl w a => exact ⟨0, s, rfl, hw, hs, rfl⟩
  | head h hg ih =>
    subst hw
    obtain ⟨d, ht⟩ := exists_take?_of_step? hs h
    obtain ⟨n, s', hrun, hworld, hongoing, hknown⟩ :=
      ih (s := s.proceed [] ⟨t, k, _⟩ older _ _ d) rfl rfl
    refine ⟨n + 1, s', ?_, hworld, hongoing, hknown⟩
    rw [List.replicate_succ, run, ht]
    exact hrun

/-- An undisturbed call ends as the steps of its activation say, and leaves the other calls as they
are. -/
theorem performs_of_goes (hfree : s.isFree t = true) (hknown : ∀ q ∈ c.requests, q ∈ s.known)
    {w : World} (hg : c.activation.Goes s.world w ⟨.ended o, []⟩) :
    ∃ s', s.Performs t c o s' ∧ s'.world = w ∧ s'.ongoing = s.ongoing ∧
      s'.known = s.known ++ o.request?.toList := by
  obtain ⟨n, u, hrun, hworld, hongoing, hu⟩ :=
    exists_run_of_goes (s := s.enter t c s.world) hg rfl rfl
  have hi : innermost? t u.ongoing = some ([], ⟨t, s.begun, ⟨.ended o, []⟩⟩, s.ongoing) :=
    hongoing ▸ innermost?_cons_self ⟨t, s.begun, ⟨.ended o, []⟩⟩ s.ongoing
  refine ⟨u.leave [] ⟨t, s.begun, ⟨.ended o, []⟩⟩ s.ongoing o, ⟨n, ?_, ?_⟩, hworld, rfl,
    congrArg (· ++ o.request?.toList) hu⟩
  · have hbegin : s.take? (.begin t c) = some (s.enter t c s.world) := if_pos ⟨hfree, hknown⟩
    rw [Call.undisturbed, List.cons_append, run, hbegin, Option.bind_some, run_append, hrun,
      Option.bind_some, run]
    simp [take?, hi, Activation.outcome?, run]
  · simp [leave]

private theorem goes_of_run {k n : Nat} {a : Activation} {older : List Ongoing}
    (hs : s.ongoing = ⟨t, k, a⟩ :: older)
    (hrun : s.run (List.replicate n (.advance t) ++ [.finish t]) = some s')
    (hlast : s'.history.getLast? = some ⟨t, k, .finish o⟩) :
    ∃ w, a.Goes s.world w ⟨.ended o, []⟩ := by
  induction n generalizing s a with
  | zero =>
    have hi : innermost? t s.ongoing = some ([], ⟨t, k, a⟩, older) :=
      hs ▸ innermost?_cons_self ⟨t, k, a⟩ older
    obtain ⟨u, hu, hrun⟩ := Option.bind_eq_some_iff.mp hrun
    cases hrun
    simp only [take?, hi, Option.bind_eq_bind, Option.bind_some, Option.bind_eq_some_iff] at hu
    obtain ⟨o', ho', hu⟩ := hu
    cases hu
    obtain rfl := Activation.eq_of_outcome? ho'
    cases List.getLast?_concat.symm.trans hlast
    exact ⟨s.world, .refl ..⟩
  | succ n ih =>
    have hi : innermost? t s.ongoing = some ([], ⟨t, k, a⟩, older) :=
      hs ▸ innermost?_cons_self ⟨t, k, a⟩ older
    obtain ⟨u, hu, hrun⟩ := Option.bind_eq_some_iff.mp hrun
    simp only [take?, hi, Option.bind_eq_bind, Option.bind_some, Option.bind_eq_some_iff] at hu
    obtain ⟨⟨w₁, a₁, notices⟩, hstep, d, -, hu⟩ := hu
    cases hu
    obtain ⟨w, hg⟩ := ih rfl hrun
    exact ⟨w, .head hstep hg⟩

/-- The steps of the activation of an undisturbed call lead to its end. -/
theorem Performs.goes (h : s.Performs t c o s') :
    ∃ w, c.activation.Goes s.world w ⟨.ended o, []⟩ := by
  obtain ⟨n, hrun, hlast⟩ := h
  obtain ⟨u, hu, hrun⟩ := Option.bind_eq_some_iff.mp hrun
  have hu : (if s.isFree t ∧ ∀ q ∈ c.requests, q ∈ s.known then some (s.enter t c s.world)
    else none) = some u := hu
  obtain ⟨-, ⟨⟩⟩ := Option.ite_none_right_eq_some.mp hu
  exact goes_of_run (s := s.enter t c s.world) rfl hrun hlast

/-- What an undisturbed call leads to is reached by its moves. -/
theorem Performs.leads {allowed : Move → Prop} (h : s.Performs t c o s')
    (hbegin : allowed (.begin t c)) (hadvance : allowed (.advance t))
    (hfinish : allowed (.finish t)) : Leads allowed s s' := by
  obtain ⟨n, hrun, -⟩ := h
  refine leads_of_run (fun m hm => ?_) hrun
  rcases List.mem_cons.mp hm with rfl | hm
  · exact hbegin
  · rcases List.mem_append.mp hm with hm | hm
    · exact List.eq_of_mem_replicate hm ▸ hadvance
    · exact List.mem_singleton.mp hm ▸ hfinish

end System

end Rendezvous
