import Mathlib.Data.List.Forall2
import Rendezvous.Proofs.Cells.Looks
import Rendezvous.Proofs.Failures.Reports
import Rendezvous.Proofs.Payloads.Steps

/-!
# Payloads are opaque

Two runs of the same moves that differ in the payloads of their setters only do the same. Every call
goes through the same points, calls the same user code and ends with the same answer, timers and
coordinators are the same, the same is noted, and every resolution is a value or an error in both
runs. Nothing that the library decides depends on a payload; the pending marker, null and failures
are payloads like all others once a setter has them. The payloads themselves differ, and each one
stands exactly where its counterpart does.

That is said for every relation `R` between payloads that holds of the two payloads of every setter,
and of each payload that the library supplies itself with itself. With setters that all have
different payloads in one of the runs, `R` is a renaming, and tells of every payload in a cell, a
request, an argument or an answer which setter it came from.

User code behaves the same in both runs: a move is what a thread does, and the moves are the same.

## Main definitions

* `Move.Corresponds`: the same move, but for the payload of a setter.
* `System.Corresponds`: the same calls in progress, worlds and histories, but for payloads.
* `System.Supplies`: the payloads that resolve cells without being given to a setter.

## Main results

* `System.Transition.exists_corresponding`: a corresponding move can be made and leads to a
  corresponding system.
* `System.exists_corresponding_run`: the same for whole runs.
-/

namespace Rendezvous

variable (R : Payload → Payload → Prop)

/-- The same move, but for the payload that is given to a setter. -/
inductive Move.Corresponds : Move → Move → Prop
  | begin (t : ThreadId) {c c' : Call} (h : c.Corresponds R c') :
    Corresponds (.begin t c) (.begin t c')
  | same (m : Move) (h : ∀ t c, m ≠ .begin t c) : Corresponds m m

/-- The same deed, at corresponding places. Frames take the same outcomes. -/
inductive Deed.Corresponds : Deed → Deed → Prop
  | begin {c c' : Call} (h : c.Corresponds R c') : Corresponds (.begin c) (.begin c')
  | step {p p' : Point} {n n' : Next} (hp : p.Corresponds R p') (hn : n.Corresponds R n') :
    Corresponds (.step p n) (.step p' n')
  | resume (f : Frame) (o : Outcome) (n : Next) : Corresponds (.resume f o n) (.resume f o n)
  | answer {i i' : Invocation} (h : i.Corresponds R i') (o : Outcome) :
    Corresponds (.answer i o) (.answer i' o)
  | finish {o o' : Outcome} (h : o.Corresponds R o') : Corresponds (.finish o) (.finish o')

/-- The same event, with corresponding deeds. -/
structure Event.Corresponds (e e' : Event) : Prop where
  thread : e'.thread = e.thread
  number : e'.number = e.number
  deed : e.deed.Corresponds R e'.deed

/-- The same call in progress, standing at a corresponding place. -/
structure Ongoing.Corresponds (x x' : Ongoing) : Prop where
  thread : x'.thread = x.thread
  number : x'.number = x.number
  activation : x.activation.Corresponds R x'.activation

/-- Systems in which the same has happened and the same goes on, but for payloads. -/
structure System.Corresponds (s s' : System) : Prop where
  world : s.world.Corresponds R s'.world
  ongoing : List.Forall₂ (Ongoing.Corresponds R) s.ongoing s'.ongoing
  begun : s'.begun = s.begun
  known : s'.known = s.known
  history : List.Forall₂ (Event.Corresponds R) s.history s'.history

/-- The payloads that resolve cells without being given to a setter: fallbacks that are given in
advance and those that were computed, timeouts, and reported errors. -/
inductive System.Supplies (s : System) : Payload → Prop
  | fixed (c : CellId) {p : Payload} (h : (s.world.cell c).fallback = .fixed p)
      (hp : p ≠ Payload.pending) : Supplies s p
  | computed {t : ThreadId} {k : CallNumber} {c : CellId} {p : Payload} {n : Next}
      (h : ⟨t, k, .resume (.cell c .fallback) (.returned (.payload p)) n⟩ ∈ s.history)
      (hp : p ≠ Payload.pending) : Supplies s p
  | timeout (q : RequestId) (hq : q < s.world.requestCount) :
    Supplies s (Payload.ofFailure (.requestTimeout (s.world.request q).timeoutMs))
  | error {c : Call} {e : Payload} (he : c.error? = some e) (hc : s.HasBegun c) : Supplies s e

variable {R} {w w' : World} {o : Outcome} {frames : List Frame} {a a' : Activation}

/-! ### Calls -/

theorem Move.corresponds_self {m : Move} (h : ∀ t c, m = .begin t c → c.assigns? = none) :
    m.Corresponds R m := by
  cases m with
  | begin t c => exact .begin t (.same c (h t c rfl))
  | _ => exact .same _ (by simp)

theorem Call.Corresponds.requests {c c' : Call} (h : c.Corresponds R c') :
    c'.requests = c.requests := by
  cases h <;> rfl

theorem Call.Corresponds.activation {c c' : Call} (h : c.Corresponds R c') :
    c.activation.Corresponds R c'.activation := by
  cases h with
  | same c h =>
    cases hc : c.control with
    | ready p =>
      rw [Call.activation, hc]
      refine .ready (.same p ?_) []
      cases Call.enters_of_control hc <;> first | rfl | cases h
    | inside i =>
      rcases c with _ | _ | ⟨_, _ | _⟩ | _ | _ | _ | _ | _ | _ | _ | _ | _ | _ | _ | _ | _ <;>
        cases hc
    | ended o =>
      obtain ⟨c, rfl, rfl⟩ := Call.eq_of_control hc
      exact .finished (.raised _)
  | setResult c h => exact .ready (.checkResult c (.value h)) []
  | setError c h => exact .ready (.checkResult c (.error h)) []

theorem Outcome.Corresponds.request? {o' : Outcome} (h : o.Corresponds R o') :
    o'.request? = o.request? := by
  cases h with
  | returned h => cases h <;> rfl
  | raised f => rfl

theorem Activation.Corresponds.isInside (h : a.Corresponds R a') : a'.isInside = a.isInside := by
  cases h <;> rfl

/-- Calls that go on in corresponding ways over the same frames correspond, if an outcome that
arrives at a frame carries no payload. -/
theorem Next.Corresponds.follow {n n' : Next} (h : n.Corresponds R n')
    (hbare : frames ≠ [] → ∀ o, n = .finish o → o.IsBare) :
    (Activation.follow frames n).Corresponds R (Activation.follow frames n') := by
  cases h with
  | goto h => exact .ready h frames
  | call f h => exact .ready h (f :: frames)
  | invoke f h => exact .inside h f frames
  | @finish o o' h =>
    by_cases hframes : frames = []
    · subst hframes
      exact .finished h
    · obtain rfl := h.eq_of_isBare (hbare hframes o rfl)
      exact .ended o' frames hframes

/-- A call that goes on from a frame goes on in the same way in both runs. -/
theorem Activation.IsFair.corresponds_resume {f : Frame}
    (h : Activation.IsFair R ⟨.ended o, f :: frames⟩) :
    (Activation.follow frames (f.resume w o).next).Corresponds R
      (Activation.follow frames (f.resume w o).next) := by
  generalize hn : (f.resume w o).next = n
  have hway : f.Way w o n := hn ▸ f.way_resume w o
  cases hway with
  | finish _ _ o' _ =>
    by_cases hframes : frames = []
    · subst hframes
      have hbare : o'.IsBare :=
        Frame.isBare_of_finish (h.frame f List.mem_cons_self) (h.last f rfl) hn
      exact .finished (Outcome.corresponds_of_isBare hbare)
    · exact .ended o' frames hframes
  | _ => exact .ready (.same _ rfl) _

/-- Frames note the same in corresponding worlds. -/
theorem World.Corresponds.notices_resume (h : w.Corresponds R w') (f : Frame) (o : Outcome) :
    (f.resume w' o).notices = (f.resume w o).notices := by
  have hcontain (site : Site) (c : CellId) (e : Option String) (g : Answer → Next) (n : Next) :
      (contain w' site c e o g n).notices = (contain w site c e o g n).notices := by
    unfold contain
    split
    · rfl
    · split
      · simp only [h.describe]
      · rfl
  have hcell (q : RequestId) : (w'.request q).cell = (w.request q).cell := by rw [h.request_eq q]
  rcases f with ⟨c, f⟩ | ⟨q, f⟩ | ⟨k, n, rest⟩ | a | before
  · cases f <;> exact hcontain ..
  · cases f with
    | timeoutHook | errorHook | completionHook =>
      simp only [Frame.resume, RequestFrame.resume, hcell]
      exact hcontain ..
    | _ => rfl
  all_goals rfl

theorem World.Corresponds.isEnabled (h : w.Corresponds R w') {p p' : Point}
    (hp : p.Corresponds R p') : p'.isEnabled w' = p.isEnabled w := by
  have hreleased (q : RequestId) : (w'.request q).released = (w.request q).released := by
    rw [h.request_eq q]
  cases hp with
  | same p =>
    unfold Point.isEnabled
    split
    · exact hreleased _
    · rfl
  | _ => rfl

/-! ### Systems -/

namespace System

variable {s s' s₁ : System} {m m' : Move} {allowed : Move → Prop}

/-- The payloads that the library supplies are related to themselves in fair worlds. -/
theorem isFair_world (hsup : ∀ p, s.Supplies p → R p p) : s.world.IsFair R where
  fallback c p h hp := hsup p (.fixed c h hp)
  timeout q hq := hsup _ (.timeout q hq)

theorem Transition.fallback (ht : Transition s m s₁) (c : CellId) :
    (s₁.world.cell c).fallback = (s.world.cell c).fallback := by
  rcases ht.world with ⟨-, hcell, -⟩ | ⟨t, k, p, frames, -, -, hw, -⟩
  · rw [hcell c]
  · rw [hw]
    rcases p.cell_step s.world c with he | ⟨h, -, he⟩ | ⟨r, -, he⟩ | ⟨-, he⟩ | ⟨slot, id, -, he⟩ <;>
      rw [he]
    · unfold Cell.register
      split
      · rfl
      · split <;> rfl
    · unfold Cell.assign
      split <;> rfl
    · unfold Cell.expire
      split <;> rfl
    · cases slot <;> rfl

theorem Leads.fallback (hl : Leads allowed s s₁) (c : CellId) :
    (s₁.world.cell c).fallback = (s.world.cell c).fallback := by
  induction hl with
  | refl => rfl
  | move m _ _ ht ih => exact ((transition_of_take? ht).fallback c).trans ih

/-- What the library has supplied stays supplied. -/
theorem Supplies.mono {p : Payload} (h : s.Supplies p) (hl : Leads allowed s s₁) :
    s₁.Supplies p := by
  cases h with
  | fixed c h hp => exact .fixed c ((hl.fallback c).trans h) hp
  | computed h hp => exact .computed (hl.history_prefix.subset h) hp
  | timeout q hq =>
    have hgrows := hl.grows
    rw [← Request.timeoutMs_eq_of_fixed (hgrows.request q hq).fixed]
    exact .timeout q (Nat.lt_of_lt_of_le hq hgrows.requestCount)
  | error he hc => exact .error he (hc.mono hl.history_prefix)

/-- All calls in progress stay fair. -/
theorem Transition.isFair (ht : Transition s m s₁) (hl : Leads allowed s s₁)
    (hsup : ∀ p, s₁.Supplies p → R p p) (h : ∀ x ∈ s.ongoing, x.activation.IsFair R) :
    ∀ x ∈ s₁.ongoing, x.activation.IsFair R := by
  have hw : s.world.IsFair R := isFair_world fun p hp => hsup p (hp.mono hl)
  have others {newer older : List Ongoing} {y : Ongoing} (hs : s.ongoing = newer ++ y :: older)
      {z : Ongoing} (hz : y.activation.IsFair R → z.activation.IsFair R) :
      ∀ x ∈ newer ++ z :: older, x.activation.IsFair R := by
    simp only [hs, List.mem_append, List.mem_cons] at h ⊢
    rintro x (hx | rfl | hx)
    · exact h x (.inl hx)
    · exact hz (h y (.inr (.inl rfl)))
    · exact h x (.inr (.inr hx))
  cases ht with
  | begin t c hfree hknown =>
    refine List.forall_mem_cons.mpr ⟨Call.isFair_activation fun e he => hsup e (.error he ?_), h⟩
    exact hasBegun_iff.mpr ⟨_, List.mem_append_right _ (List.mem_singleton.mpr rfl), rfl⟩
  | fire t x hfree hx =>
    exact List.forall_mem_cons.mpr ⟨Call.isFair_activation fun e he => (nomatch he), h⟩
  | make => exact h
  | step newer older t k p frames hs hn hp => exact others hs fun hfair => hfair.step hw
  | resume newer older t k o f frames hs hn =>
    refine others hs fun hfair => hfair.resume fun c p hf ho hp => hsup p ?_
    subst hf ho
    exact .computed (List.mem_append_right _ (List.mem_singleton.mpr rfl)) hp
  | answer newer older t k i frames a hs hn => exact others hs fun hfair => hfair.answer
  | finish newer older t k o hs hn =>
    intro x hx
    refine h x ?_
    rw [hs]
    exact (List.sublist_cons_self _ older).append_left newer |>.subset hx

/-! ### Corresponding moves -/

private theorem thread_ne_of_corresponds {t : ThreadId} {xs xs' : List Ongoing}
    (h : List.Forall₂ (Ongoing.Corresponds R) xs xs') (ht : ∀ x ∈ xs, x.thread ≠ t) :
    ∀ x ∈ xs', x.thread ≠ t := by
  induction h with
  | nil => simp
  | cons hx _ ih =>
    rw [List.forall_mem_cons] at ht ⊢
    exact ⟨hx.thread.symm ▸ ht.1, ih ht.2⟩

/-- The calls in progress are cut at the call that moves. -/
private theorem Corresponds.exists_cut (h : s.Corresponds R s') {newer older : List Ongoing}
    {t : ThreadId} {k : CallNumber} (hs : s.ongoing = newer ++ ⟨t, k, a⟩ :: older)
    (hn : ∀ y ∈ newer, y.thread ≠ t) :
    ∃ newer' a' older', s'.ongoing = newer' ++ ⟨t, k, a'⟩ :: older' ∧
      a.Corresponds R a' ∧ (∀ y ∈ newer', y.thread ≠ t) ∧
      List.Forall₂ (Ongoing.Corresponds R) newer newer' ∧
      List.Forall₂ (Ongoing.Corresponds R) older older' := by
  have hongoing := (hs ▸ h.ongoing).flip
  have hnewer := (List.forall₂_take_append _ _ _ hongoing).flip
  obtain ⟨⟨t', k', a'⟩, older', ⟨rfl, rfl, ha⟩, holder, hdrop⟩ :=
    List.forall₂_cons_right_iff.mp (List.forall₂_drop_append _ _ _ hongoing)
  exact ⟨_, a', older', by rw [← hdrop, List.take_append_drop], ha,
    thread_ne_of_corresponds hnewer hn, hnewer, holder.flip⟩

private theorem Corresponds.isFree (h : s.Corresponds R s') {t : ThreadId}
    (hfree : s.isFree t = true) : s'.isFree t = true := by
  rw [System.isFree] at hfree ⊢
  split at hfree
  · rename_i hi
    rw [innermost?_of_forall (thread_ne_of_corresponds h.ongoing (innermost?_eq_none hi))]
  · rename_i newer x older hi
    obtain ⟨hs, rfl, hn⟩ := innermost?_eq_some hi
    obtain ⟨newer', a', older', hs', ha, hn', -, -⟩ := h.exists_cut hs hn
    have hi' : innermost? x.thread (newer' ++ ⟨x.thread, x.number, a'⟩ :: older') =
        some (newer', ⟨x.thread, x.number, a'⟩, older') := innermost?_append rfl hn'
    rw [hs', hi']
    exact ha.isInside.trans hfree

/-- A corresponding move can be made in a corresponding system. It leads to a corresponding system,
and the same is noted. -/
theorem Transition.exists_corresponding (ht : Transition s m s₁) (hb : s.IsBounded)
    (hfair : ∀ x ∈ s.ongoing, x.activation.IsFair R) (hw : s.world.IsFair R)
    (h : s.Corresponds R s') (hm : m.Corresponds R m') :
    ∃ s₁', s'.take? m' = some s₁' ∧ s₁.Corresponds R s₁' ∧ s'.noted m' = s.noted m := by
  have hhistory {e e' : Event} (he : e.Corresponds R e') :
      List.Forall₂ (Event.Corresponds R) (s.history ++ [e]) (s'.history ++ [e']) :=
    List.rel_append h.history (.cons he .nil)
  cases ht with
  | begin t c hfree hknown =>
    cases hm with
    | same _ hsame => exact absurd rfl (hsame t c)
    | @begin _ _ c' hc =>
    have htake : s'.take? (.begin t c') = some (s'.enter t c' s'.world) :=
      if_pos ⟨h.isFree hfree, hc.requests.symm ▸ h.known.symm ▸ hknown⟩
    exact ⟨_, htake, ⟨h.world, .cons ⟨rfl, h.begun, hc.activation⟩ h.ongoing,
      congrArg (· + 1) h.begun, h.known, hhistory ⟨rfl, h.begun, .begin hc⟩⟩, rfl⟩
  | fire t x hfree hx =>
    cases hm
    have hnone := innermost?_of_forall (thread_ne_of_corresponds h.ongoing hfree)
    have htake : s'.take? (.fire t x) =
        some (s'.enter t (.timeOut x.request) (s'.world.fire x)) :=
      if_pos ⟨by rw [hnone]; rfl, h.world.timers.symm ▸ hx⟩
    have hc : (Call.timeOut x.request).Corresponds R (.timeOut x.request) := .same _ rfl
    exact ⟨_, htake, ⟨h.world.fire x, .cons ⟨rfl, h.begun, hc.activation⟩ h.ongoing,
      congrArg (· + 1) h.begun, h.known, hhistory ⟨rfl, h.begun, .begin hc⟩⟩, rfl⟩
  | make cell dispatch interceptors timeoutMs timerName listener =>
    cases hm
    refine ⟨_, rfl, ⟨h.world.addRequest rfl, h.ongoing, h.begun, ?_, h.history⟩, rfl⟩
    rw [addRequest, addRequest, h.known, h.world.requestCount]
  | step newer older t k p frames hs hn hp =>
    cases hm
    obtain ⟨newer', a', older', hs', ha, hn', hnewer, holder⟩ := h.exists_cut hs hn
    have hx : ⟨t, k, ⟨.ready p, frames⟩⟩ ∈ s.ongoing := hs ▸ by simp
    have hpoint : p.IsFair R frames := (hfair _ hx).point p rfl
    cases ha with
    | @ready _ p' hcorresponds _ =>
    obtain ⟨hworld, hnext, hnotices⟩ :=
      Point.corresponds_step h.world hcorresponds hpoint hw (hb.of_ready hx rfl)
    have hi : innermost? t (newer ++ ⟨t, k, ⟨.ready p, frames⟩⟩ :: older) =
        some (newer, ⟨t, k, ⟨.ready p, frames⟩⟩, older) := innermost?_append rfl hn
    have hi' : innermost? t (newer' ++ ⟨t, k, ⟨.ready p', frames⟩⟩ :: older') =
        some (newer', ⟨t, k, ⟨.ready p', frames⟩⟩, older') := innermost?_append rfl hn'
    have hp' : p'.isEnabled s'.world = true := (h.world.isEnabled hcorresponds).trans hp
    have hfollow := hnext.follow fun hframes o ho => Point.isBare_of_finish hpoint hframes ho
    refine ⟨s'.proceed newer' ⟨t, k, ⟨.ready p', frames⟩⟩ older' (p'.step s'.world).world
      (.follow frames (p'.step s'.world).next) (.step p' (p'.step s'.world).next), ?_,
      ⟨hworld, List.rel_append hnewer (.cons ⟨rfl, rfl, hfollow⟩ holder), h.begun, h.known,
        hhistory ⟨rfl, rfl, .step hcorresponds hnext⟩⟩, ?_⟩
    · simp [take?, hs', hi', Activation.step?, hp', Activation.deed?]
    · simp [System.noted, hs, hs', hi, hi', Activation.step?, hp, hp', hnotices]
  | resume newer older t k o f frames hs hn =>
    cases hm
    obtain ⟨newer', a', older', hs', ha, hn', hnewer, holder⟩ := h.exists_cut hs hn
    have hx : ⟨t, k, ⟨.ended o, f :: frames⟩⟩ ∈ s.ongoing := hs ▸ by simp
    cases ha with
    | ended _ _ _ =>
    have hi : innermost? t (newer ++ ⟨t, k, ⟨.ended o, f :: frames⟩⟩ :: older) =
        some (newer, ⟨t, k, ⟨.ended o, f :: frames⟩⟩, older) := innermost?_append rfl hn
    have hi' : innermost? t (newer' ++ ⟨t, k, ⟨.ended o, f :: frames⟩⟩ :: older') =
        some (newer', ⟨t, k, ⟨.ended o, f :: frames⟩⟩, older') := innermost?_append rfl hn'
    have hfollow := (hfair _ hx).corresponds_resume (w := s.world)
    refine ⟨s'.proceed newer' ⟨t, k, ⟨.ended o, f :: frames⟩⟩ older' s'.world
      (.follow frames (f.resume s.world o).next) (.resume f o (f.resume s.world o).next), ?_,
      ⟨h.world, List.rel_append hnewer (.cons ⟨rfl, rfl, hfollow⟩ holder), h.begun, h.known,
        hhistory ⟨rfl, rfl, .resume f o _⟩⟩, ?_⟩
    · simp [take?, hs', hi', Activation.step?, Activation.deed?,
        Frame.next_resume s'.world s.world]
    · simp [System.noted, hs, hs', hi, hi', Activation.step?, h.world.notices_resume]
  | answer newer older t k i frames x hs hn =>
    cases hm
    obtain ⟨newer', a', older', hs', ha, hn', hnewer, holder⟩ := h.exists_cut hs hn
    cases ha with
    | @inside _ i' hi f rest =>
    have hi' : innermost? t (newer' ++ ⟨t, k, ⟨.inside i', f :: rest⟩⟩ :: older') =
        some (newer', ⟨t, k, ⟨.inside i', f :: rest⟩⟩, older') := innermost?_append rfl hn'
    have hended : Activation.Corresponds R ⟨.ended (.ofUser x), f :: rest⟩
        ⟨.ended (.ofUser x), f :: rest⟩ := .ended _ _ (by simp)
    refine ⟨s'.proceed newer' ⟨t, k, ⟨.inside i', f :: rest⟩⟩ older' s'.world
      ⟨.ended (.ofUser x), f :: rest⟩ (.answer i' (.ofUser x)), ?_,
      ⟨h.world, List.rel_append hnewer (.cons ⟨rfl, rfl, hended⟩ holder), h.begun, h.known,
        hhistory ⟨rfl, rfl, .answer hi _⟩⟩, rfl⟩
    simp [take?, hs', hi', Activation.conclude]
  | finish newer older t k o hs hn =>
    cases hm
    obtain ⟨newer', a', older', hs', ha, hn', hnewer, holder⟩ := h.exists_cut hs hn
    cases ha with
    | ended _ _ hframes => exact absurd rfl hframes
    | @finished _ o' ho =>
    have hi' : innermost? t (newer' ++ ⟨t, k, ⟨.ended o', []⟩⟩ :: older') =
        some (newer', ⟨t, k, ⟨.ended o', []⟩⟩, older') := innermost?_append rfl hn'
    refine ⟨s'.leave newer' ⟨t, k, ⟨.ended o', []⟩⟩ older' o', ?_, ⟨h.world,
      List.rel_append hnewer holder, h.begun, ?_, hhistory ⟨rfl, rfl, .finish ho⟩⟩, rfl⟩
    · simp [take?, hs', hi', Activation.outcome?]
    · rw [leave, leave, h.known, ho.request?]

/-! ### Corresponding runs -/

private theorem exists_corresponding_of_run {ms ms' : List Move} (hs : Reachable Move.any s)
    (hfair : ∀ x ∈ s.ongoing, x.activation.IsFair R) (h : s.Corresponds R s')
    (hms : List.Forall₂ (Move.Corresponds R) ms ms') (hrun : s.run ms = some s₁)
    (hsup : ∀ p, s₁.Supplies p → R p p) :
    ∃ s₁', s'.run ms' = some s₁' ∧ s₁.Corresponds R s₁' ∧ s'.reports ms' = s.reports ms := by
  induction hms generalizing s s' with
  | nil =>
    cases hrun
    exact ⟨s', rfl, h, rfl⟩
  | @cons m m' ms ms' hm _ ih =>
    obtain ⟨s₂, htake, hrun⟩ := Option.bind_eq_some_iff.mp hrun
    have ht := transition_of_take? htake
    have hmove : Leads Move.any s s₂ := .move m .refl trivial htake
    have hrest : Leads Move.any s₂ s₁ := leads_of_run (fun _ _ => trivial) hrun
    have hworld : s.world.IsFair R :=
      isFair_world fun p hp => hsup p (hp.mono (hmove.trans hrest))
    obtain ⟨s₂', htake', h₂, hnoted⟩ :=
      ht.exists_corresponding hs.isBounded hfair hworld h hm
    have hfair₂ := ht.isFair hmove (fun p hp => hsup p (hp.mono hrest)) hfair
    obtain ⟨s₁', hrun', h₁, hreports⟩ := ih (hs.leads hmove) hfair₂ h₂ hrun
    refine ⟨s₁', by rw [run, htake']; exact hrun', h₁, ?_⟩
    rw [reports, reports, htake', htake, hnoted]
    exact congrArg _ hreports

/-- Payloads are opaque. Whatever moves are made from a new world, by any number of threads, timers
and user code, the same moves with other payloads for the setters can be made too, and do the same.
All that differs is payloads, and each of them stands where its counterpart does. -/
theorem exists_corresponding_run (hw : w.IsNew) {ms ms' : List Move}
    (hms : List.Forall₂ (Move.Corresponds R) ms ms') (hrun : run { world := w } ms = some s)
    (hsup : ∀ p, s.Supplies p → R p p) :
    ∃ s', run { world := w } ms' = some s' ∧ s.Corresponds R s' ∧
      reports { world := w } ms' = reports { world := w } ms :=
  exists_corresponding_of_run ⟨w, hw, .refl⟩ (by simp) ⟨hw.corresponds, .nil, rfl, rfl, .nil⟩ hms
    hrun hsup

/-- The payload "A" gives way to the pending marker, and all others stay. -/
def Vanishes (p p' : Payload) : Prop :=
  p = .text "A" ∧ p' = Payload.pending ∨ p ≠ .text "A" ∧ p' = p

/-- A request is started, and its cell is resolved with a payload, which is asked for. -/
def resolvedWith (p : Payload) : List Move :=
  (.begin 0 (.start 0 0 (some "d") []) :: List.replicate 9 (.advance 0) ++ [.finish 0]) ++
    .begin 1 (.setResult 0 p) :: (List.replicate 6 (.advance 1) ++ .answer 1 (.ok .null) ::
      List.replicate 14 (.advance 1) ++
      [.finish 1, .begin 1 (.ask 0 .getResult), .advance 1, .finish 1])

/-- The frame that an event resumes. -/
def resumed? (e : Event) : Option Frame :=
  match e.deed with
  | .resume f _ _ => some f
  | _ => none

private theorem corresponds_of_payloads {p p' : Payload} (h : R p p') :
    List.Forall₂ (Move.Corresponds R) (resolvedWith p) (resolvedWith p') := by
  refine List.rel_append (List.forall₂_same.mpr fun m hm => Move.corresponds_self ?_)
    (.cons (.begin 1 (.setResult 0 h)) (List.forall₂_same.mpr fun m hm => Move.corresponds_self ?_))
  all_goals
    rintro t c rfl
    simp only [List.cons_append, List.mem_cons, List.mem_append, List.mem_replicate] at hm
    simp at hm
    simp [hm, Call.assigns?]

/-- A cell that is resolved with the pending marker is resolved, and hands it on. -/
theorem corresponds_resolvedWith : ∃ s s',
    run { world := untimed } (resolvedWith (.text "A")) = some s ∧
    run { world := untimed } (resolvedWith Payload.pending) = some s' ∧ s.Corresponds Vanishes s' ∧
    s.history.getLast? = some ⟨1, 2, .finish (.returned (.payload (.text "A")))⟩ ∧
    s'.history.getLast? = some ⟨1, 2, .finish (.returned (.payload Payload.pending))⟩ := by
  obtain ⟨s, hs⟩ : ∃ s, run { world := untimed } (resolvedWith (.text "A")) = some s := ⟨_, rfl⟩
  have hshown : (run { world := untimed } (resolvedWith (.text "A"))).map (fun s =>
      (s.history.getLast?, s.calls.filterMap Call.error?, s.history.filterMap resumed?)) =
      some (some ⟨1, 2, .finish (.returned (.payload (.text "A")))⟩, [],
        [.answer (.request 0), .request 0 .dispatched, .request 0 (.completionHook []),
          .request 0 .told, .outcome (.returned (.payload .null)),
          .cell 0 (.delivered (.flag true))]) := rfl
  have hshown' : (run { world := untimed } (resolvedWith Payload.pending)).map
      (fun s => s.history.getLast?) =
      some (some ⟨1, 2, .finish (.returned (.payload Payload.pending))⟩) := rfl
  simp only [hs, Option.map_some, Option.some.injEq, Prod.mk.injEq] at hshown
  obtain ⟨hlast, herrors, hresumed⟩ := hshown
  have hsup (p : Payload) (hp : s.Supplies p) : Vanishes p p := by
    refine .inr ⟨?_, rfl⟩
    rintro rfl
    cases hp with
    | fixed c h =>
      have hl : Leads Move.any { world := untimed } s := leads_of_run (fun _ _ => trivial) hs
      rw [hl.fallback c] at h
      cases h
    | computed h =>
      -- No fallback is computed in this run.
      have hmem : .cell _ .fallback ∈ s.history.filterMap resumed? :=
        List.mem_filterMap.mpr ⟨_, h, rfl⟩
      simp [hresumed] at hmem
    | error he hc =>
      have hnone := List.filterMap_eq_nil_iff.mp herrors _ hc
      rw [he] at hnone
      cases hnone
  obtain ⟨s', hs', hcorresponds, -⟩ := exists_corresponding_run isNew_untimed
    (corresponds_of_payloads (.inl ⟨rfl, rfl⟩)) hs hsup
  refine ⟨s, s', hs, hs', hcorresponds, hlast, ?_⟩
  simpa only [hs', Option.map_some, Option.some.injEq] using hshown'

end System

end Rendezvous
