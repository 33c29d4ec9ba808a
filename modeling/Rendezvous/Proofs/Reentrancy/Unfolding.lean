import Rendezvous.Proofs.Threads.Growth

/-!
# Calls on a thread of their own

While no other thread moves, a call runs from its beginning to its end like a procedure. It takes
its steps one after the other. Where it rests in user code, the user makes calls, each of which runs
to its end in the same way and may rest in user code again, and then answers.

`Activation.Unfolds` says so as a relation between the world before, what happens and the world
after, which composes where calls do: a callee runs to its end over no frames, and then the frame
that waits for it goes on. What user code may do in it is left to a parameter.

## Main definitions

* `Act`: something that a call does, with what is noted then.
* `Conduct`: the calls that user code may make, and the answers that it may give.
* `Activation.Unfolds`: how a call in progress runs to its end on a thread of its own.
* `System.Alone`: the runs of a system in which one thread moves.

## Main results

* `Activation.Unfolds.split` and `Activation.Unfolds.append`: a call over frames is the call, and
  then the frames.
* `System.Alone.exists_completes`: what a thread does alone, from the beginning of a call to its
  end, is an unfolding of the call.
-/

namespace Rendezvous

/-- Something that a call does, and what is noted as it does it. -/
structure Act where
  deed : Deed
  notices : List Notice := []

/-- What user code may do where a call rests in it. -/
structure Conduct where
  mayCall : World → Call → Prop
  mayAnswer : World → Invocation → Except Failure Payload → Prop

namespace Activation

/-- How a call in progress runs to its end while no other thread moves: from a world, by some acts,
to a world and an outcome. -/
inductive Unfolds (P : Conduct) : World → Activation → List Act → World → Outcome → Prop
  | ended (w : World) (o : Outcome) : Unfolds P w ⟨.ended o, []⟩ [] w o
  | step {w w' : World} {p : Point} {frames : List Frame} {acts : List Act} {o : Outcome}
      (hp : p.isEnabled w = true)
      (h : Unfolds P (p.step w).world (follow frames (p.step w).next) acts w' o) :
    Unfolds P w ⟨.ready p, frames⟩
      (⟨.step p (p.step w).next, (p.step w).notices⟩ :: acts) w' o
  | resume {w w' : World} {f : Frame} {frames : List Frame} {x : Outcome} {acts : List Act}
      {o : Outcome} (h : Unfolds P w (follow frames (f.resume w x).next) acts w' o) :
    Unfolds P w ⟨.ended x, f :: frames⟩
      (⟨.resume f x (f.resume w x).next, (f.resume w x).notices⟩ :: acts) w' o
  | answer {w w' : World} {i : Invocation} {frames : List Frame} {a : Except Failure Payload}
      {acts : List Act} {o : Outcome} (ha : P.mayAnswer w i a)
      (h : Unfolds P w ⟨.ended (.ofUser a), frames⟩ acts w' o) :
    Unfolds P w ⟨.inside i, frames⟩ (⟨.answer i (.ofUser a), []⟩ :: acts) w' o
  | call {w w₁ w' : World} {i : Invocation} {frames : List Frame} {c : Call}
      {inner acts : List Act} {o₁ o : Outcome} (hc : P.mayCall w c)
      (hinner : Unfolds P w c.activation inner w₁ o₁)
      (h : Unfolds P w₁ ⟨.inside i, frames⟩ acts w' o) :
    Unfolds P w ⟨.inside i, frames⟩
      (⟨.begin c, []⟩ :: (inner ++ ⟨.finish o₁, []⟩ :: acts)) w' o

theorem follow_append (fs gs : List Frame) (n : Next) :
    follow (fs ++ gs) n = ⟨(follow fs n).control, (follow fs n).frames ++ gs⟩ := by
  cases n <;> rfl

namespace Unfolds

variable {P Q : Conduct} {w w₁ w' : World} {c : Control} {p : Point} {f : Frame}
  {frames fs gs : List Frame} {acts acts₁ acts₂ : List Act} {i : Invocation} {x o o₁ : Outcome}
  {a : Activation}

/-- User code that may do more may do the same. -/
theorem mono (h : Unfolds P w a acts w' o) (hcall : ∀ w c, P.mayCall w c → Q.mayCall w c)
    (hanswer : ∀ w i a, P.mayAnswer w i a → Q.mayAnswer w i a) : Unfolds Q w a acts w' o := by
  induction h with
  | ended w o => exact .ended w o
  | step hp _ ih => exact .step hp ih
  | resume _ ih => exact .resume ih
  | answer ha _ ih => exact .answer (hanswer _ _ _ ha) ih
  | call hc _ _ ih₁ ih₂ => exact .call (hcall _ _ hc) ih₁ ih₂

theorem grows (h : Unfolds P w a acts w' o) : w.Grows w' := by
  induction h with
  | ended w o => exact .refl w
  | @step w _ p _ _ _ _ _ ih => exact (p.grows_step w).trans ih
  | resume _ ih => exact ih
  | answer _ _ ih => exact ih
  | call _ _ _ ih₁ ih₂ => exact ih₁.trans ih₂

/-! ### Where a call stands -/

theorem of_ready (h : Unfolds P w ⟨.ready p, frames⟩ acts w' o) :
    ∃ rest, acts = ⟨.step p (p.step w).next, (p.step w).notices⟩ :: rest ∧
      Unfolds P (p.step w).world (follow frames (p.step w).next) rest w' o := by
  cases h with
  | step hp h => exact ⟨_, rfl, h⟩

theorem of_ended_cons (h : Unfolds P w ⟨.ended x, f :: frames⟩ acts w' o) :
    ∃ rest, acts = ⟨.resume f x (f.resume w x).next, (f.resume w x).notices⟩ :: rest ∧
      Unfolds P w (follow frames (f.resume w x).next) rest w' o := by
  cases h with
  | resume h => exact ⟨_, rfl, h⟩

theorem of_ended_nil (h : Unfolds P w ⟨.ended x, []⟩ acts w' o) : acts = [] ∧ w' = w ∧ o = x := by
  cases h with
  | ended w o => exact ⟨rfl, rfl, rfl⟩

/-- User code ends with an answer. -/
theorem exists_answer (h : Unfolds P w ⟨.inside i, []⟩ acts w' o) :
    ∃ a, P.mayAnswer w' i a ∧ o = .ofUser a := by
  generalize ha : (⟨.inside i, []⟩ : Activation) = b at h
  induction h with
  | ended | step | resume => cases ha
  | answer hmay h =>
    cases ha
    obtain ⟨-, rfl, rfl⟩ := h.of_ended_nil
    exact ⟨_, hmay, rfl⟩
  | call _ _ _ _ ih => exact ih ha

/-! ### Composition -/

/-- A call over more frames does what it does over its own, and then the others go on. -/
theorem append (h : Unfolds P w ⟨c, fs⟩ acts₁ w₁ o₁)
    (h' : Unfolds P w₁ ⟨.ended o₁, gs⟩ acts₂ w' o) :
    Unfolds P w ⟨c, fs ++ gs⟩ (acts₁ ++ acts₂) w' o := by
  generalize ha : (⟨c, fs⟩ : Activation) = a at h
  induction h generalizing c fs with
  | ended => cases ha; exact h'
  | step hp _ ih =>
    cases ha
    exact .step hp (follow_append .. ▸ ih h' rfl)
  | resume _ ih =>
    cases ha
    exact .resume (follow_append .. ▸ ih h' rfl)
  | answer hmay _ ih =>
    cases ha
    exact .answer hmay (ih h' rfl)
  | call hc hinner _ _ ih =>
    cases ha
    simpa using .call hc hinner (ih h' rfl)

/-- A call over frames does what it does over some of them, and then the others go on. -/
theorem split (h : Unfolds P w ⟨c, fs ++ gs⟩ acts w' o) : ∃ acts₁ w₁ o₁ acts₂,
    acts = acts₁ ++ acts₂ ∧ Unfolds P w ⟨c, fs⟩ acts₁ w₁ o₁ ∧
      Unfolds P w₁ ⟨.ended o₁, gs⟩ acts₂ w' o := by
  generalize ha : (⟨c, fs ++ gs⟩ : Activation) = a at h
  induction h generalizing c fs with
  | ended w o =>
    obtain ⟨rfl, hnil⟩ := Activation.mk.inj ha
    obtain ⟨rfl, rfl⟩ := List.append_eq_nil_iff.mp hnil
    exact ⟨[], w, o, [], rfl, .ended w o, .ended w o⟩
  | step hp _ ih =>
    cases ha
    obtain ⟨acts₁, w₁, o₁, acts₂, rfl, h₁, h₂⟩ := ih (follow_append fs gs _).symm
    exact ⟨_, w₁, o₁, acts₂, rfl, .step hp h₁, h₂⟩
  | @resume w w' f frames x acts o h ih =>
    obtain ⟨rfl, hframes⟩ := Activation.mk.inj ha
    cases fs with
    | nil =>
      rw [List.nil_append] at hframes
      exact ⟨[], w, x, _, rfl, .ended w x, hframes ▸ .resume h⟩
    | cons f' fs =>
      obtain ⟨rfl, rfl⟩ := List.cons.inj hframes
      obtain ⟨acts₁, w₁, o₁, acts₂, rfl, h₁, h₂⟩ := ih (follow_append fs gs _).symm
      exact ⟨_, w₁, o₁, acts₂, rfl, .resume h₁, h₂⟩
  | answer hmay h ih =>
    cases ha
    obtain ⟨acts₁, w₁, o₁, acts₂, rfl, h₁, h₂⟩ := ih rfl
    exact ⟨_, w₁, o₁, acts₂, rfl, .answer hmay h₁, h₂⟩
  | call hc hinner h _ ih =>
    cases ha
    obtain ⟨acts₁, w₁, o₁, acts₂, rfl, h₁, h₂⟩ := ih rfl
    exact ⟨_, w₁, o₁, acts₂, by simp, .call hc hinner h₁, h₂⟩

/-- A call over frames does what it does over none, and then the frames go on. -/
theorem split_frames (h : Unfolds P w ⟨c, frames⟩ acts w' o) : ∃ acts₁ w₁ x acts₂,
    acts = acts₁ ++ acts₂ ∧ Unfolds P w ⟨c, []⟩ acts₁ w₁ x ∧
      Unfolds P w₁ ⟨.ended x, frames⟩ acts₂ w' o := by
  have h : Unfolds P w ⟨c, [] ++ frames⟩ acts w' o := h
  exact h.split

/-- A call over one frame does what it does over none, and then the frame goes on. -/
theorem split_frame (h : Unfolds P w ⟨c, f :: frames⟩ acts w' o) : ∃ acts₁ w₁ x rest,
    acts = acts₁ ++ ⟨.resume f x (f.resume w₁ x).next, (f.resume w₁ x).notices⟩ :: rest ∧
      Unfolds P w ⟨c, []⟩ acts₁ w₁ x ∧
      Unfolds P w₁ (follow frames (f.resume w₁ x).next) rest w' o := by
  obtain ⟨acts₁, w₁, x, acts₂, rfl, h₁, h₂⟩ := h.split_frames
  obtain ⟨rest, rfl, hrest⟩ := h₂.of_ended_cons
  exact ⟨acts₁, w₁, x, rest, rfl, h₁, hrest⟩

/-! ### Steps, by the way on -/

theorem of_goto {g : Point} (h : Unfolds P w ⟨.ready p, frames⟩ acts w' o)
    (hn : (p.step w).next = .goto g) :
    ∃ rest, acts = ⟨.step p (.goto g), (p.step w).notices⟩ :: rest ∧
      Unfolds P (p.step w).world ⟨.ready g, frames⟩ rest w' o := by
  obtain ⟨rest, hacts, hrest⟩ := h.of_ready
  rw [hn] at hacts hrest
  exact ⟨rest, hacts, hrest⟩

theorem of_call {g : Point} (h : Unfolds P w ⟨.ready p, frames⟩ acts w' o)
    (hn : (p.step w).next = .call f g) : ∃ acts₁ w₁ x rest,
    acts = ⟨.step p (.call f g), (p.step w).notices⟩ ::
      (acts₁ ++ ⟨.resume f x (f.resume w₁ x).next, (f.resume w₁ x).notices⟩ :: rest) ∧
    Unfolds P (p.step w).world ⟨.ready g, []⟩ acts₁ w₁ x ∧
    Unfolds P w₁ (follow frames (f.resume w₁ x).next) rest w' o := by
  obtain ⟨rest, hacts, hrest⟩ := h.of_ready
  rw [hn] at hacts hrest
  obtain ⟨acts₁, w₁, x, rest, rfl, h₁, h₂⟩ := hrest.split_frame
  exact ⟨acts₁, w₁, x, rest, hacts, h₁, h₂⟩

theorem of_invoke (h : Unfolds P w ⟨.ready p, frames⟩ acts w' o)
    (hn : (p.step w).next = .invoke f i) : ∃ acts₁ w₁ x rest,
    acts = ⟨.step p (.invoke f i), (p.step w).notices⟩ ::
      (acts₁ ++ ⟨.resume f x (f.resume w₁ x).next, (f.resume w₁ x).notices⟩ :: rest) ∧
    Unfolds P (p.step w).world ⟨.inside i, []⟩ acts₁ w₁ x ∧
    Unfolds P w₁ (follow frames (f.resume w₁ x).next) rest w' o := by
  obtain ⟨rest, hacts, hrest⟩ := h.of_ready
  rw [hn] at hacts hrest
  obtain ⟨acts₁, w₁, x, rest, rfl, h₁, h₂⟩ := hrest.split_frame
  exact ⟨acts₁, w₁, x, rest, hacts, h₁, h₂⟩

theorem of_finish (h : Unfolds P w ⟨.ready p, []⟩ acts w' o) (hn : (p.step w).next = .finish x) :
    acts = [⟨.step p (.finish x), (p.step w).notices⟩] ∧ w' = (p.step w).world ∧ o = x := by
  obtain ⟨rest, hacts, hrest⟩ := h.of_ready
  rw [hn] at hacts hrest
  obtain ⟨rfl, rfl, rfl⟩ := hrest.of_ended_nil
  exact ⟨hacts, rfl, rfl⟩

end Unfolds

end Activation

/-! ### Threads that are alone -/

/-- Whether a move is one of a thread. -/
def Move.isOf (t : ThreadId) : Move → Prop
  | .begin t' _ | .advance t' | .answer t' _ | .finish t' => t' = t
  | .fire .. | .make .. => False

namespace System

/-- Whether a move is one that user code may make. -/
def Permits (P : Conduct) (s : System) : Move → Prop
  | .begin _ c => P.mayCall s.world c
  | .answer t a => ∀ newer x older i, innermost? t s.ongoing = some (newer, x, older) →
    x.activation.control = .inside i → P.mayAnswer s.world i a
  | _ => True

/-- A run in which one thread moves, with user code that does what it may. -/
inductive Alone (P : Conduct) (t : ThreadId) : System → List Move → System → Prop
  | nil (s : System) : Alone P t s [] s
  | cons {s s₁ s' : System} {m : Move} {ms : List Move} (hm : m.isOf t) (hp : s.Permits P m)
      (ht : s.take? m = some s₁) (h : Alone P t s₁ ms s') : Alone P t s (m :: ms) s'

variable {P : Conduct} {t : ThreadId} {s s' s₁ : System} {ms : List Move} {k : CallNumber}
  {a : Activation} {older : List Ongoing}

/-- The end of a call that a thread comes to alone: the call has unfolded, the calls that were in
progress before it are as they were, and its deeds are what has happened. -/
structure Completes (P : Conduct) (s : System) (a : Activation) (older : List Ongoing)
    (acts : List Act) (o : Outcome) (s' : System) : Prop where
  unfolds : a.Unfolds P s.world acts s'.world o
  ongoing : s'.ongoing = older
  history : s'.history.map Event.deed = s.history.map Event.deed ++ acts.map Act.deed ++ [.finish o]

/-- The call that is cut out as the innermost one of its thread is the latest one. -/
private theorem eq_of_cut {newer older' : List Ongoing} {k' : CallNumber} {a' : Activation}
    (hs : s.ongoing = ⟨t, k, a⟩ :: older) (hs' : s.ongoing = newer ++ ⟨t, k', a'⟩ :: older')
    (hn : ∀ y ∈ newer, y.thread ≠ t) : newer = [] ∧ k' = k ∧ a' = a ∧ older' = older := by
  rw [hs] at hs'
  cases newer with
  | nil =>
    cases hs'
    exact ⟨rfl, rfl, rfl, rfl⟩
  | cons y newer =>
    cases hs'
    exact absurd rfl (hn _ List.mem_cons_self)

/-- Either the call is still in progress after a run of its thread alone, or it has come to its end
on the way. -/
private theorem Alone.completes_or (h : Alone P t s ms s') (hs : s.ongoing = ⟨t, k, a⟩ :: older) :
    (∃ newer a', s'.ongoing = newer ++ ⟨t, k, a'⟩ :: older) ∨
    ∃ s₁ ms' acts o, s.Completes P a older acts o s₁ ∧ Alone P t s₁ ms' s' ∧
      ms'.length < ms.length := by
  induction hlength : ms.length using Nat.strongRecOn generalizing s ms k a older with
  | _ n ih =>
  cases h with
  | nil => exact .inl ⟨[], a, hs⟩
  | @cons _ s₁ _ m ms hm hp ht h =>
  subst hlength
  have hless : ms.length < (m :: ms).length := Nat.lt_succ_self _
  -- A move of the call itself, after which it goes on from another place.
  have hgo {a₁ : Activation} (hs₁ : s₁.ongoing = ⟨t, k, a₁⟩ :: older)
      (hback : ∀ s₂ acts o, s₁.Completes P a₁ older acts o s₂ →
        ∃ acts, s.Completes P a older acts o s₂) :
      (∃ newer a', s'.ongoing = newer ++ ⟨t, k, a'⟩ :: older) ∨
      ∃ s₁ ms' acts o, s.Completes P a older acts o s₁ ∧ Alone P t s₁ ms' s' ∧
        ms'.length < (m :: ms).length := by
    rcases ih _ hless h hs₁ rfl with hongoing | ⟨s₂, ms', acts, o, hc, hrest, hlt⟩
    · exact .inl hongoing
    · obtain ⟨acts, hc⟩ := hback s₂ acts o hc
      exact .inr ⟨s₂, ms', acts, o, hc, hrest, Nat.lt_trans hlt hless⟩
  cases transition_of_take? ht with
  | fire | make => cases hm
  | begin _ c hfree hknown =>
    cases hm
    obtain ⟨control, frames⟩ := a
    have hinside : (⟨control, frames⟩ : Activation).isInside = true := by
      simpa [isFree, hs, innermost?] using hfree
    obtain ⟨i, rfl⟩ : ∃ i, control = .inside i := by
      cases control <;> first | exact ⟨_, rfl⟩ | cases hinside
    rcases ih _ hless h rfl rfl with ⟨newer, a', hongoing⟩ | ⟨s₂, ms', inner, o₁, hc, hrest, hlt⟩
    · exact .inl ⟨newer ++ [⟨t, s.begun, a'⟩], ⟨.inside i, frames⟩, by rw [hongoing, hs]; simp⟩
    · have hless₂ : ms'.length < (_ :: ms).length := Nat.lt_trans hlt hless
      rcases ih _ hless₂ hrest (hc.ongoing.trans hs) rfl with
        hongoing | ⟨s₃, ms'', acts, o, hc', hrest', hlt'⟩
      · exact .inl hongoing
      · refine .inr ⟨s₃, ms'', _, o, ⟨.call hp hc.unfolds hc'.unfolds, hc'.ongoing, ?_⟩, hrest',
          Nat.lt_trans hlt' hless₂⟩
        rw [hc'.history, hc.history]
        simp [enter]
  | step newer older' _ k' p frames hs' hn hpoint =>
    cases hm
    obtain ⟨rfl, rfl, rfl, rfl⟩ := eq_of_cut hs hs' hn
    refine hgo rfl fun s₂ acts o hc => ⟨_, .step hpoint hc.unfolds, hc.ongoing, ?_⟩
    rw [hc.history]
    simp [proceed]
  | resume newer older' _ k' x f frames hs' hn =>
    cases hm
    obtain ⟨rfl, rfl, rfl, rfl⟩ := eq_of_cut hs hs' hn
    refine hgo rfl fun s₂ acts o hc => ⟨_, .resume hc.unfolds, hc.ongoing, ?_⟩
    rw [hc.history]
    simp [proceed]
  | answer newer older' _ k' i frames x hs' hn =>
    cases hm
    obtain ⟨rfl, rfl, rfl, rfl⟩ := eq_of_cut hs hs' hn
    have hmay : P.mayAnswer s.world i x := hp _ _ _ i (hs' ▸ innermost?_append rfl hn) rfl
    refine hgo rfl fun s₂ acts o hc => ⟨_, .answer hmay hc.unfolds, hc.ongoing, ?_⟩
    rw [hc.history]
    simp [proceed]
  | finish newer older' _ k' o hs' hn =>
    cases hm
    obtain ⟨rfl, rfl, rfl, rfl⟩ := eq_of_cut hs hs' hn
    exact .inr ⟨s.leave [] ⟨t, k', ⟨.ended o, []⟩⟩ older' o, ms, [], o,
      ⟨.ended _ _, rfl, by simp [leave]⟩, h, hless⟩

/-- If a call is over after a run of its thread alone, then it has unfolded on the way. -/
theorem Alone.exists_completes (h : Alone P t s ms s') (hs : s.ongoing = ⟨t, k, a⟩ :: older)
    (hover : ∀ x ∈ s'.ongoing, x.number ≠ k) : ∃ s₁ ms' acts o,
      s.Completes P a older acts o s₁ ∧ Alone P t s₁ ms' s' := by
  rcases h.completes_or hs with ⟨newer, a', hongoing⟩ | ⟨s₁, ms', acts, o, hc, hrest, -⟩
  · exact absurd rfl (hover ⟨t, k, a'⟩ (hongoing ▸ by simp))
  · exact ⟨s₁, ms', acts, o, hc, hrest⟩

end System

end Rendezvous
