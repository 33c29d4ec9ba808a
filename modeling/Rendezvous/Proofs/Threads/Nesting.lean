import Rendezvous.Proofs.Threads.Flow
import Rendezvous.Proofs.Threads.Transition

/-!
# Nested calls

A thread works on its innermost call only: every outer call rests in user code. A call that is at
work can therefore take its next step whatever other threads do, and the last thing its thread did
is what brought it to where it stands.

## Main definitions

* `System.IsNested`: outer calls rest in user code.
* `Deed.Leaves`: where a deed leaves the call that did it.
* `System.lastEvent?`: the last thing that a thread did.

## Main results

* `System.Reachable.isNested`: every system that is reached is nested.
* `System.Reachable.take?_advance`, `System.Reachable.take?_finish`: a call at work can take its
  next step, and can end where it has come to its end.
* `System.Reachable.lastEvent?_of_mem`: what a thread did last brought its innermost call to where
  it stands.
* `System.Reachable.exists_step_of_ready`: the step that brought a call to a point.
-/

namespace Rendezvous

/-- Where a deed leaves the call that did it. -/
inductive Deed.Leaves : Deed → Activation → Prop
  | begin (c : Call) : Leaves (.begin c) c.activation
  | step (w : World) (p : Point) (frames : List Frame) :
    Leaves (.step p (p.step w).next) (.follow frames (p.step w).next)
  | resume (w : World) (f : Frame) (o : Outcome) (frames : List Frame) :
    Leaves (.resume f o (f.resume w o).next) (.follow frames (f.resume w o).next)
  | answer (i : Invocation) (o : Outcome) (frames : List Frame) :
    Leaves (.answer i o) ⟨.ended o, frames⟩

/-- What leaves a call at a point. -/
theorem Deed.Leaves.ready {d : Deed} {p : Point} {frames : List Frame}
    (h : d.Leaves ⟨.ready p, frames⟩) :
    (∃ c : Call, d = .begin c ∧ c.control = .ready p) ∨
    (∃ w p', d = .step p' (p'.step w).next ∧ (p'.step w).next.point? = some p) ∨
    (∃ w f o, d = .resume f o (f.resume w o).next ∧ (f.resume w o).next.point? = some p) := by
  generalize ha : (⟨.ready p, frames⟩ : Activation) = a at h
  have hcontrol : a.control = .ready p := ha ▸ rfl
  cases h with
  | begin c => exact .inl ⟨c, rfl, hcontrol⟩
  | step w p' frames' =>
    exact .inr (.inl ⟨w, p', rfl, Activation.control_follow.mp hcontrol⟩)
  | resume w f o frames' =>
    exact .inr (.inr ⟨w, f, o, rfl, Activation.control_follow.mp hcontrol⟩)
  | answer => cases hcontrol

namespace System

/-- Outer calls of a thread rest in user code. -/
def IsNested (s : System) : Prop :=
  s.ongoing.Pairwise fun y x => y.thread = x.thread → x.activation.isInside = true

/-- The last thing that a thread did. -/
def lastEvent? (t : ThreadId) (history : List Event) : Option Event :=
  (history.filter fun e => e.thread = t).getLast?

theorem lastEvent?_append_self (history : List Event) (e : Event) :
    lastEvent? e.thread (history ++ [e]) = some e := by
  simp [lastEvent?]

theorem lastEvent?_append_of_ne {t : ThreadId} {e : Event} (h : e.thread ≠ t)
    (history : List Event) : lastEvent? t (history ++ [e]) = lastEvent? t history := by
  simp [lastEvent?, h]

variable {s s' : System} {m : Move} {allowed : Move → Prop} {newer older : List Ongoing}
  {t : ThreadId} {x x' : Ongoing}

/-! ### Outer calls rest in user code -/

/-- A thread that may begin a call rests in user code. -/
private theorem isInside_of_isFree (hs : s.IsNested) (h : s.isFree t = true) :
    ∀ x ∈ s.ongoing, x.thread = t → x.activation.isInside = true := by
  rw [isFree] at h
  split at h
  · rename_i hi
    exact fun x hx ht => absurd ht (innermost?_eq_none hi x hx)
  · rename_i newer y older hi
    obtain ⟨he, hy, hn⟩ := innermost?_eq_some hi
    rw [IsNested, he, List.pairwise_append] at hs
    intro x hx ht
    rw [he, List.mem_append, List.mem_cons] at hx
    rcases hx with hx | rfl | hx
    · exact absurd ht (hn x hx)
    · exact h
    · exact (List.pairwise_cons.mp hs.2.1).1 x hx (hy.trans ht.symm)

private theorem pairwise_replace
    (hs : (newer ++ x :: older).Pairwise fun y x =>
      y.thread = x.thread → x.activation.isInside = true)
    (hn : ∀ y ∈ newer, y.thread ≠ x.thread) (ht : x'.thread = x.thread) :
    (newer ++ x' :: older).Pairwise fun y x =>
      y.thread = x.thread → x.activation.isInside = true := by
  rw [List.pairwise_append, List.pairwise_cons] at hs ⊢
  obtain ⟨hnewer, ⟨hx, holder⟩, hacross⟩ := hs
  refine ⟨hnewer, ⟨fun y hy h => hx y hy (ht ▸ h), holder⟩, fun y hy z hz h => ?_⟩
  rcases List.mem_cons.mp hz with rfl | hz
  · exact absurd (h.trans ht) (hn y hy)
  · exact hacross y hy z (List.mem_cons_of_mem _ hz) h

private theorem isNested_of_transition (ht : Transition s m s') (hs : s.IsNested) :
    s'.IsNested := by
  cases ht with
  | begin t c hfree hknown =>
    exact List.pairwise_cons.mpr
      ⟨fun x hx h => isInside_of_isFree hs hfree x hx h.symm, hs⟩
  | fire t x hfree hx =>
    exact List.pairwise_cons.mpr ⟨fun y hy h => absurd h.symm (hfree y hy), hs⟩
  | make => exact hs
  | step newer older t k p frames he hn hp =>
    rw [IsNested, he] at hs
    exact pairwise_replace hs hn rfl
  | resume newer older t k o f frames he hn =>
    rw [IsNested, he] at hs
    exact pairwise_replace hs hn rfl
  | answer newer older t k i frames a he hn =>
    rw [IsNested, he] at hs
    exact pairwise_replace hs hn rfl
  | finish newer older t k o he hn =>
    rw [IsNested, he] at hs
    exact hs.sublist ((List.sublist_cons_self _ older).append_left newer)

/-- Outer calls rest in user code. -/
theorem Reachable.isNested (hs : Reachable allowed s) : s.IsNested :=
  hs.induction (fun _ _ => List.Pairwise.nil) fun _ _ _ _ _ ht h => isNested_of_transition ht h

/-- A call at work is the innermost call of its thread. -/
theorem IsNested.thread_ne (hs : s.IsNested) (he : s.ongoing = newer ++ x :: older)
    (hx : x.activation.isInside = false) : ∀ y ∈ newer, y.thread ≠ x.thread := by
  rw [IsNested, he, List.pairwise_append] at hs
  intro y hy ht
  have hin := hs.2.2 y hy x List.mem_cons_self ht
  simp [hx] at hin

/-- A call at work can take its next step. -/
theorem Reachable.take?_advance (hs : Reachable allowed s) {k : CallNumber} {p : Point}
    {frames : List Frame} (hx : ⟨t, k, ⟨.ready p, frames⟩⟩ ∈ s.ongoing)
    (hp : p.isEnabled s.world = true) :
    ∃ newer older, s.ongoing = newer ++ ⟨t, k, ⟨.ready p, frames⟩⟩ :: older ∧
      s.take? (.advance t) = some (s.proceed newer ⟨t, k, ⟨.ready p, frames⟩⟩ older
        (p.step s.world).world (.follow frames (p.step s.world).next)
        (.step p (p.step s.world).next)) := by
  obtain ⟨newer, older, he⟩ := List.append_of_mem hx
  have hn : ∀ y ∈ newer, y.thread ≠ t := hs.isNested.thread_ne he rfl
  have hi : innermost? t s.ongoing = some (newer, ⟨t, k, ⟨.ready p, frames⟩⟩, older) :=
    he ▸ innermost?_append rfl hn
  exact ⟨newer, older, he, by simp [take?, hi, Activation.step?, hp, Activation.deed?]⟩

/-- A call that has come to its end can end. -/
theorem Reachable.take?_finish (hs : Reachable allowed s) {k : CallNumber} {o : Outcome}
    (hx : ⟨t, k, ⟨.ended o, []⟩⟩ ∈ s.ongoing) :
    ∃ newer older, s.ongoing = newer ++ ⟨t, k, ⟨.ended o, []⟩⟩ :: older ∧
      s.take? (.finish t) = some (s.leave newer ⟨t, k, ⟨.ended o, []⟩⟩ older o) := by
  obtain ⟨newer, older, he⟩ := List.append_of_mem hx
  have hn : ∀ y ∈ newer, y.thread ≠ t := hs.isNested.thread_ne he rfl
  have hi : innermost? t s.ongoing = some (newer, ⟨t, k, ⟨.ended o, []⟩⟩, older) :=
    he ▸ innermost?_append rfl hn
  exact ⟨newer, older, he, by simp [take?, hi, Activation.outcome?]⟩

/-- What the next step of a call at work leads to. -/
theorem Reachable.exists_leads (hs : Reachable allowed s) {k : CallNumber} {p : Point}
    {frames : List Frame} (hx : ⟨t, k, ⟨.ready p, frames⟩⟩ ∈ s.ongoing)
    (hp : p.isEnabled s.world = true) :
    ∃ s', Leads Move.any s s' ∧ s'.world = (p.step s.world).world ∧
      s'.history = s.history ++ [⟨t, k, .step p (p.step s.world).next⟩] ∧
      ⟨t, k, .follow frames (p.step s.world).next⟩ ∈ s'.ongoing := by
  obtain ⟨newer, older, -, ht⟩ := hs.take?_advance hx hp
  exact ⟨_, .move _ .refl trivial ht, rfl, rfl, by simp [proceed]⟩

/-! ### The last thing that a thread did -/

/-- What the thread of a call at work did last brought the call to where it stands. -/
private def IsTraced (s : System) : Prop :=
  ∀ x ∈ s.ongoing, x.activation.isInside = false →
    ∃ d, lastEvent? x.thread s.history = some ⟨x.thread, x.number, d⟩ ∧ d.Leaves x.activation

/-- A thread that did something else had no other call at work. -/
private theorem isTraced_of_forall (hs : s.IsTraced) {k : CallNumber} {d : Deed}
    (hh : s'.history = s.history ++ [⟨t, k, d⟩])
    (h : ∀ x ∈ s'.ongoing, x.activation.isInside = false →
      x ∈ s.ongoing ∧ x.thread ≠ t ∨ x.thread = t ∧ x.number = k ∧ d.Leaves x.activation) :
    s'.IsTraced := by
  intro x hx hin
  rcases h x hx hin with ⟨hold, hne⟩ | ⟨rfl, rfl, hleaves⟩
  · obtain ⟨d', hd', hleaves⟩ := hs x hold hin
    exact ⟨d', by rw [hh, lastEvent?_append_of_ne (Ne.symm hne), hd'], hleaves⟩
  · exact ⟨d, hh ▸ lastEvent?_append_self s.history ⟨x.thread, x.number, d⟩, hleaves⟩

/-- Beside the innermost call of a thread, no other call on the thread is at work. -/
private theorem mem_others (hs : s.IsNested) (he : s.ongoing = newer ++ x :: older)
    (hn : ∀ y ∈ newer, y.thread ≠ x.thread) {y : Ongoing} (hy : y ∈ newer ++ older)
    (hin : y.activation.isInside = false) : y ∈ s.ongoing ∧ y.thread ≠ x.thread := by
  rw [IsNested, he, List.pairwise_append, List.pairwise_cons] at hs
  rcases List.mem_append.mp hy with hy | hy
  · exact ⟨he ▸ List.mem_append_left _ hy, hn y hy⟩
  · refine ⟨he ▸ List.mem_append_right _ (List.mem_cons_of_mem _ hy), fun ht => ?_⟩
    simp [hs.2.1.1 y hy ht.symm] at hin

private theorem mem_replace (hs : s.IsNested) (he : s.ongoing = newer ++ x :: older)
    (hn : ∀ y ∈ newer, y.thread ≠ x.thread) {y : Ongoing} (hy : y ∈ newer ++ x' :: older)
    (hin : y.activation.isInside = false) :
    y ∈ s.ongoing ∧ y.thread ≠ x.thread ∨ y = x' := by
  rcases List.mem_append.mp hy with hy | hy
  · exact .inl (mem_others hs he hn (List.mem_append_left _ hy) hin)
  · rcases List.mem_cons.mp hy with rfl | hy
    · exact .inr rfl
    · exact .inl (mem_others hs he hn (List.mem_append_right _ hy) hin)

private theorem isTraced_of_transition (ht : Transition s m s') (hnested : s.IsNested)
    (hs : s.IsTraced) : s'.IsTraced := by
  cases ht with
  | begin t c hfree hknown =>
    refine isTraced_of_forall hs rfl fun x hx hin => ?_
    rcases List.mem_cons.mp hx with rfl | hx
    · exact .inr ⟨rfl, rfl, .begin c⟩
    · refine .inl ⟨hx, fun ht => ?_⟩
      simp [isInside_of_isFree hnested hfree x hx ht] at hin
  | fire t x hfree hx =>
    refine isTraced_of_forall hs rfl fun y hy hin => ?_
    rcases List.mem_cons.mp hy with rfl | hy
    · exact .inr ⟨rfl, rfl, .begin _⟩
    · exact .inl ⟨hy, hfree y hy⟩
  | make => exact hs
  | step newer older t k p frames he hn hp =>
    refine isTraced_of_forall hs rfl fun x hx hin => ?_
    rcases mem_replace hnested he hn hx hin with h | rfl
    · exact .inl h
    · exact .inr ⟨rfl, rfl, .step ..⟩
  | resume newer older t k o f frames he hn =>
    refine isTraced_of_forall hs rfl fun x hx hin => ?_
    rcases mem_replace hnested he hn hx hin with h | rfl
    · exact .inl h
    · exact .inr ⟨rfl, rfl, .resume ..⟩
  | answer newer older t k i frames a he hn =>
    refine isTraced_of_forall hs rfl fun x hx hin => ?_
    rcases mem_replace hnested he hn hx hin with h | rfl
    · exact .inl h
    · exact .inr ⟨rfl, rfl, .answer ..⟩
  | finish newer older t k o he hn =>
    refine isTraced_of_forall hs rfl fun x hx hin => ?_
    exact .inl (mem_others hnested he hn hx hin)

/-- What a thread did last brought its call at work to where it stands. -/
theorem Reachable.lastEvent?_of_mem (hs : Reachable allowed s) (hx : x ∈ s.ongoing)
    (hin : x.activation.isInside = false) :
    ∃ d, lastEvent? x.thread s.history = some ⟨x.thread, x.number, d⟩ ∧
      d.Leaves x.activation := by
  have h : s.IsTraced := hs.induction (fun _ _ _ hx => absurd hx List.not_mem_nil)
    fun _ _ _ hs _ ht h => isTraced_of_transition ht hs.isNested h
  exact h x hx hin

/-- A call at a point where no call starts, and to which no frame leads, came there by a step. -/
theorem Reachable.exists_step_of_ready (hs : Reachable allowed s) {k : CallNumber} {p : Point}
    {frames : List Frame} (hx : ⟨t, k, ⟨.ready p, frames⟩⟩ ∈ s.ongoing)
    (hcall : ∀ c : Call, ¬ c.Enters p)
    (hframe : ∀ w f o n, Frame.Way w f o n → n.point? ≠ some p) :
    ∃ s₀ m s₁ p₀ frames₀, Reachable allowed s₀ ∧ Transition s₀ m s₁ ∧ Leads allowed s₁ s ∧
      ⟨t, k, ⟨.ready p₀, frames₀⟩⟩ ∈ s₀.ongoing ∧ p₀.isEnabled s₀.world = true ∧
      s₁.world = (p₀.step s₀.world).world ∧ (p₀.step s₀.world).next.point? = some p ∧
      ⟨t, k, .step p₀ (p₀.step s₀.world).next⟩ ∈ s.history := by
  obtain ⟨d, hlast, hleaves⟩ := hs.lastEvent?_of_mem hx rfl
  have he : ⟨t, k, d⟩ ∈ s.history := (List.mem_filter.mp (List.mem_of_getLast? hlast)).1
  rcases hleaves.ready with ⟨c, -, hc⟩ | ⟨w, p₀, rfl, hp⟩ | ⟨w, f, o, -, hp⟩
  · exact absurd (c.enters_of_control hc) (hcall c)
  · obtain ⟨before, after, hh⟩ := List.append_of_mem he
    obtain ⟨s₀, m, s₁, hs₀, -, ht, hl, rfl, h₁⟩ := hs.exists_transition hh
    obtain ⟨newer, older, frames₀, hongoing, -, henabled, hn, hs₁⟩ := ht.exists_of_step h₁
    exact ⟨s₀, m, s₁, p₀, frames₀, hs₀, ht, hl, hongoing ▸ by simp, henabled, hs₁ ▸ rfl, hn ▸ hp,
      hn ▸ he⟩
  · exact absurd hp (hframe _ _ _ _ (f.way_resume w o))

end System

end Rendezvous
