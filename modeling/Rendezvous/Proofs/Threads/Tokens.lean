import Rendezvous.Proofs.Threads.Bounds

/-!
# Tokens

What happens at most once is counted together with the calls that are about to do it. A call at one
of certain places stands for one token, and so does one of certain steps that was taken. A step
passes the token of its call on; nothing else in a system makes tokens, as long as no call starts at
one of the places and no frame leads there.

## Main definitions

* `System.standing`: how many calls stand at certain places.
* `System.taken`: how often certain steps were taken.

## Main results

* `System.Transition.tokens`: what a change does to the tokens.
-/

namespace Rendezvous

/-- Whether a call stands at one of certain places. -/
def Activation.standsAt (places : Point → Bool) (a : Activation) : Bool :=
  match a.control with
  | .ready p => places p
  | _ => false

/-- Whether a step leads to one of certain places. -/
def Next.leadsTo (places : Point → Bool) (n : Next) : Bool :=
  n.point?.any places

/-- Whether an event is one of certain steps. -/
def Event.isStep (steps : Point → Next → Bool) (e : Event) : Bool :=
  match e.deed with
  | .step p n => steps p n
  | _ => false

namespace System

/-- How many calls stand at certain places. -/
def standing (s : System) (places : Point → Bool) : Nat :=
  s.ongoing.countP fun x => x.activation.standsAt places

/-- How often certain steps were taken. -/
def taken (s : System) (steps : Point → Next → Bool) : Nat :=
  s.history.countP (Event.isStep steps)

end System

variable {places : Point → Bool} {steps : Point → Next → Bool}

theorem Activation.standsAt_follow (frames : List Frame) (n : Next) :
    (follow frames n).standsAt places = n.leadsTo places := by
  cases n <;> rfl

theorem Next.leadsTo_eq_false {n : Next} (h : ∀ p, n.point? = some p → places p = false) :
    n.leadsTo places = false := by
  unfold leadsTo
  cases hp : n.point? with
  | none => rfl
  | some p => exact h p hp

namespace System

variable {s s' : System} {m : Move} {allowed : Move → Prop}

private theorem standing_proceed {newer older : List Ongoing} {x : Ongoing}
    (hs : s.ongoing = newer ++ x :: older) (places : Point → Bool) (w : World) (a : Activation)
    (d : Deed) : ∃ rest, s.standing places = rest + (x.activation.standsAt places).toNat ∧
      (s.proceed newer x older w a d).standing places = rest + (a.standsAt places).toNat := by
  have hcount (l l' : List Ongoing) (y : Ongoing) :
      (l ++ y :: l').countP (fun x => x.activation.standsAt places) =
        l.countP (fun x => x.activation.standsAt places) +
          l'.countP (fun x => x.activation.standsAt places) +
          (y.activation.standsAt places).toNat := by
    rw [List.countP_append, List.countP_cons]
    cases y.activation.standsAt places <;> simp
    omega
  exact ⟨_, by rw [standing, hs, hcount], by rw [standing, proceed, hcount]⟩

private theorem taken_append {e : Event} (hh : s'.history = s.history ++ [e]) :
    s'.taken steps = s.taken steps + (e.isStep steps).toNat := by
  rw [taken, taken, hh, List.countP_append, List.countP_singleton]
  cases e.isStep steps <;> rfl

/-- A step passes the token of its call on, or makes one; other changes make none and leave the
cells as they are. -/
theorem Transition.tokens (ht : Transition s m s') (places : Point → Bool)
    (steps : Point → Next → Bool)
    (hbegin : ∀ t c p, m = .begin t c → c.control = .ready p → places p = false)
    (hfire : ∀ q, places (.request q .checkTimeout) = false)
    (hresume : ∀ w f o p, (Frame.resume w o f).next.point? = some p → places p = false) :
    (s'.standing places + s'.taken steps ≤ s.standing places + s.taken steps ∧
      (∀ c, s'.world.cell c = s.world.cell c)) ∨
    ∃ t k p frames rest, ⟨t, k, ⟨.ready p, frames⟩⟩ ∈ s.ongoing ∧
      s'.world = (p.step s.world).world ∧
      s.standing places + s.taken steps = rest + (places p).toNat ∧
      s'.standing places + s'.taken steps = rest +
        (((p.step s.world).next.leadsTo places).toNat +
          (steps p (p.step s.world).next).toNat) := by
  have hquiet {e : Event} (hh : s'.history = s.history ++ [e]) (he : e.isStep steps = false) :
      s'.taken steps = s.taken steps := by rw [taken_append hh, he]; rfl
  cases ht with
  | begin t c =>
    refine .inl ⟨?_, fun _ => rfl⟩
    rw [hquiet rfl rfl]
    have hc : c.activation.standsAt places = false := by
      unfold Activation.standsAt
      split
      · exact hbegin t c _ rfl ‹_›
      · rfl
    simp [standing, enter, hc]
  | fire t x =>
    refine .inl ⟨?_, fun _ => rfl⟩
    rw [hquiet rfl rfl]
    have hc : (Call.timeOut x.request).activation.standsAt places = false := hfire x.request
    simp [standing, enter, hc]
  | make => exact .inl ⟨Nat.le_refl _, fun _ => rfl⟩
  | step newer older t k p frames he =>
    obtain ⟨rest, hs, hs'⟩ := standing_proceed he places _ _ _
    refine .inr ⟨t, k, p, frames, rest + s.taken steps, he ▸ by simp, rfl, ?_, ?_⟩
    · rw [hs]
      exact Nat.add_right_comm ..
    · rw [hs', taken_append rfl, Activation.standsAt_follow]
      simp only [Event.isStep]
      omega
  | resume newer older t k o f frames he =>
    refine .inl ⟨?_, fun _ => rfl⟩
    obtain ⟨rest, hs, hs'⟩ := standing_proceed he places _ _ _
    have hnone := Next.leadsTo_eq_false (hresume s.world f o)
    rw [hquiet rfl rfl, hs, hs', Activation.standsAt_follow, hnone]
    simp [Activation.standsAt]
  | answer newer older t k i frames a he =>
    refine .inl ⟨?_, fun _ => rfl⟩
    obtain ⟨rest, hs, hs'⟩ := standing_proceed he places _ _ _
    rw [hquiet rfl rfl, hs, hs']
    simp [Activation.standsAt]
  | finish newer older t k o he =>
    refine .inl ⟨?_, fun _ => rfl⟩
    rw [hquiet rfl rfl]
    simp [standing, leave, he, Activation.standsAt]

end System

end Rendezvous
