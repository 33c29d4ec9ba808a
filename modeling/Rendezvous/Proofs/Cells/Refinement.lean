import Mathlib.Data.List.Forall2
import Rendezvous.Proofs.Cells.Looks
import Rendezvous.Proofs.Threads.Growth

/-!
# Looking first is atomic

Cells that look before they lock do what atomic cells do, in every run of every number of calls. An
operation takes effect in its last step: in its block, or in the look that finds the cell set or
expired, since both stay so. Only a negative answer to the question whether a cell is set or expired
is different. The first look tells that there is no resolution, and the second one that the cell has
not expired; a resolution may have come in between, so that the answer was right when the first look
was taken and is wrong when it is given. Which of the two looks counts depends on what other calls
do in between, and is known in hindsight only.

The proof therefore does not choose. It shows that atomic cells can reach every state that is still
open: each call that has taken its first look may have answered or not. What happens then rules out
some of these states and never all of them.

## Main definitions

* `Activation.Hindsight`: where a call may stand with atomic cells.
* `System.Admits`, `System.Fits`: the calls that may be in progress, and a system in which they are.

## Main results

* `System.shows_iff_showsAtomic`: the same is seen of runs with looks and of runs without them.
-/

namespace Rendezvous

variable {w w' : World} {p p' : Point} {frames : List Frame}

/-! ### Hindsight -/

/-- Whether a call may stand there with atomic cells while it stands here: it has taken no step of
the operation that it is within, or it has answered in one look that the cell is neither set nor
expired. That is still open as long as the cell has not expired. -/
inductive Activation.Hindsight (w : World) (here : Activation) : Activation → Prop
  | entry : Hindsight w here ⟨here.control.entry, here.frames⟩
  | answered (c : CellId) (hc : here.control = .ready (.cell c .askExpired))
      (he : (w.cell c).expired = false) :
    Hindsight w here ⟨.ended (.returned (.flag false)), here.frames⟩

/-- A call that stands within no operation stands there with atomic cells too. -/
theorem Activation.Hindsight.eq_of_isWhole {here there : Activation} (h : here.Hindsight w there)
    (hwhole : here.IsWhole) : there = here := by
  cases h with
  | entry => rw [show here.control.entry = here.control from hwhole]
  | answered c hc he =>
    rw [IsWhole, hc] at hwhole
    cases hwhole

/-- A step of a call, in hindsight: either the call has not moved with atomic cells, and nothing is
seen, or it has taken the step of its operation now. -/
theorem Activation.Hindsight.step {there : Activation}
    (h : Hindsight (p.step w).world (.follow frames (p.step w).next) there) :
    (∃ c, p.operand? = some c ∧ (p.step w).world = w ∧ (p.step w).next.delivery? = none ∧
      Hindsight w ⟨.ready p, frames⟩ there) ∨
    there = .follow frames (p.entry.atomicStep w).next ∧
      (p.step w).world.Agrees (p.entry.atomicStep w).world ∧
      (p.step w).next.delivery? = (p.entry.atomicStep w).next.delivery? ∧
      (p.operand? = none → (p.step w).next = (p.entry.atomicStep w).next) := by
  have hdecides (hd : p.Decides w) : there = .follow frames (p.entry.atomicStep w).next := by
    rw [hd.next] at h
    exact h.eq_of_isWhole (Control.entry_follow fun p' hp' =>
      Point.entry_of_atomicStep p.entry_entry hp')
  rcases p.decides_or_looks w with hd | ⟨p', hlook⟩ | ⟨c, rfl, he⟩
  · exact .inr ⟨hdecides hd, hd.world, by rw [hd.next], fun _ => hd.next⟩
  · rw [hlook.step] at h ⊢
    have hop := hlook.operand?
    cases h with
    | entry =>
      obtain ⟨c, hc⟩ := Option.isSome_iff_exists.mp hop.2
      refine .inl ⟨c, hop.1 ▸ hc, rfl, Next.delivery?_goto hc, ?_⟩
      have hsame : Control.entry (.ready p') = (Control.ready p).entry :=
        congrArg Control.ready hlook.entry
      simp only [Activation.follow, hsame]
      exact .entry
    | answered c hc he =>
      -- The first look already told that the cell is neither set nor expired.
      cases hc
      cases hlook with
      | ask c hr =>
        have hflag : (w.cell c).isSetOrExpired = false := by
          simp [Cell.isSetOrExpired, show (w.cell c).result.isSome = false from hr, he]
        refine .inr ⟨?_, .refl w, rfl, by simp [Point.operand?]⟩
        simp only [Point.entry, Point.atomicStep, Cell.answer, hflag]
        rfl
  · refine .inl ⟨c, rfl, rfl, rfl, ?_⟩
    rw [h.eq_of_isWhole rfl]
    simp only [Point.step, CellPoint.step, he]
    exact .answered c rfl he

theorem Activation.Hindsight.shrink {here there : Activation} (h : here.Hindsight w' there)
    (hw : w.Grows w') : here.Hindsight w there := by
  cases h with
  | entry => exact .entry
  | answered c hc he =>
    exact .answered c hc (Bool.eq_false_iff.mpr fun h => by simp [hw.expired c h] at he)

theorem Activation.Hindsight.isInside {here there : Activation} (h : here.Hindsight w there) :
    there.isInside = here.isInside := by
  cases h with
  | entry => cases hc : here.control <;> simp [Activation.isInside, Control.entry, hc]
  | answered c hc he => simp [Activation.isInside, hc]

/-- Whether a call may be, with atomic cells, what another one is. -/
structure Ongoing.MayBe (w : World) (there here : Ongoing) : Prop where
  thread : there.thread = here.thread
  number : there.number = here.number
  activation : here.activation.Hindsight w there.activation

theorem Ongoing.MayBe.eq_of_isWhole {here there : Ongoing} (h : there.MayBe w here)
    (hwhole : here.activation.IsWhole) : there = here := by
  obtain ⟨t, k, a⟩ := there
  obtain ⟨rfl, rfl, ha⟩ := h
  rw [show a = here.activation from ha.eq_of_isWhole hwhole]

namespace System

variable {s s' a a' : System} {m : Move} {calls calls' : List Ongoing}

/-- Whether these calls may be in progress with atomic cells. -/
def Admits (s : System) (calls : List Ongoing) : Prop :=
  List.Forall₂ (Ongoing.MayBe s.world) calls s.ongoing

/-- Whether a system is another one but for its calls in progress, which are the given ones. -/
structure Fits (a s : System) (calls : List Ongoing) : Prop where
  ongoing : a.ongoing = calls
  world : s.world.Agrees a.world
  begun : a.begun = s.begun
  known : a.known = s.known

private theorem thread_ne_of_forall₂ {t : ThreadId} {xs : List Ongoing}
    (h : List.Forall₂ (Ongoing.MayBe w) calls xs) (ht : ∀ x ∈ xs, x.thread ≠ t) :
    ∀ y ∈ calls, y.thread ≠ t := by
  induction h with
  | nil => simp
  | cons hyx _ ih =>
    rw [List.forall_mem_cons] at ht ⊢
    exact ⟨hyx.thread ▸ ht.1, ih ht.2⟩

/-- The calls that may be in progress are cut where those in progress are. -/
private theorem exists_cut {newer older : List Ongoing} {x : Ongoing}
    (h : List.Forall₂ (Ongoing.MayBe w) calls (newer ++ x :: older)) :
    ∃ newer' y older', calls = newer' ++ y :: older' ∧
      List.Forall₂ (Ongoing.MayBe w) newer' newer ∧ y.MayBe w x ∧
      List.Forall₂ (Ongoing.MayBe w) older' older := by
  have htake := List.forall₂_take_append _ _ _ h
  obtain ⟨y, older', hy, holder, hdrop⟩ :=
    List.forall₂_cons_right_iff.mp (List.forall₂_drop_append _ _ _ h)
  exact ⟨_, y, older', by rw [← hdrop, List.take_append_drop], htake, hy, holder⟩

private theorem admits_of_cut {newer older newer' older' : List Ongoing} {x y : Ongoing}
    (hs : s.ongoing = newer ++ x :: older)
    (hnewer : List.Forall₂ (Ongoing.MayBe s.world) newer' newer) (hy : y.MayBe s.world x)
    (holder : List.Forall₂ (Ongoing.MayBe s.world) older' older) :
    s.Admits (newer' ++ y :: older') := by
  rw [Admits, hs]
  exact List.rel_append hnewer (.cons hy holder)

private theorem Admits.isFree (h : s.Admits calls) (ha : a.ongoing = calls) {t : ThreadId}
    (hfree : s.isFree t = true) : a.isFree t = true := by
  rw [System.isFree] at hfree ⊢
  split at hfree
  · rename_i hi
    rw [ha, innermost?_of_forall (thread_ne_of_forall₂ h (innermost?_eq_none hi))]
  · rename_i newer x older hi
    obtain ⟨hs, hx, hn⟩ := innermost?_eq_some hi
    rw [Admits, hs] at h
    obtain ⟨newer', y, older', hcalls, hnewer, hy, -⟩ := exists_cut h
    rw [ha, hcalls, innermost?_append (hy.thread.trans hx) (thread_ne_of_forall₂ hnewer hn)]
    exact hy.activation.isInside.trans hfree

/-- A move that does not take the step of an operation is seen as the event that it is. -/
private theorem sight?_eq_of_operand? {e e' : Event} (hs : s'.history = s.history ++ [e])
    (ha : a'.history = a.history ++ [e']) (he : e' = e) (hd : e.deed.operand? = none) :
    a.sight? a' m = s.sight? s' m := by
  rw [sight?_of_history hs, sight?_of_history ha, he, Event.sight?_of_operand? hd,
    Event.sight?_of_operand? hd]

/-- The atomic step of an operation is seen as the step that decides. -/
private theorem sight?_eq_of_entry {t : ThreadId} {k : CallNumber} {n n' : Next}
    (hs : s'.history = s.history ++ [⟨t, k, .step p n⟩])
    (ha : a'.history = a.history ++ [⟨t, k, .step p.entry n'⟩]) (hw : s.world.Agrees a.world)
    (hw' : s'.world.Agrees a'.world) (hdelivery : n.delivery? = n'.delivery?)
    (hnext : p.operand? = none → n' = n) : a.sight? a' m = s.sight? s' m := by
  cases hop : p.operand? with
  | none =>
    obtain ⟨hentry, -⟩ := Point.entry_of_operand? (w := s.world) hop
    exact sight?_eq_of_operand? hs ha (by rw [hnext hop, hentry]) hop
  | some c =>
    rw [sight?_of_history hs, sight?_of_history ha]
    exact Event.sight?_step hop (p.operand?_entry.trans hop) hw hw' hdelivery

/-- A move of a system that is not the step of a call is made by a system with other calls in
progress in the same way, whether cells are atomic or not. -/
private theorem Transition.exists_take? (ht : Transition s m s')
    (hstep : ∀ t k p n, s'.history ≠ s.history ++ [⟨t, k, .step p n⟩])
    (hc : s'.Admits calls') :
    ∃ calls, s.Admits calls ∧ ∀ a : System, a.Fits s calls → ∃ a' : System, a.take? m = some a' ∧
      a.takeAtomic? m = some a' ∧ a.sight? a' m = s.sight? s' m ∧ a'.Fits s' calls' := by
  have hshrink {y x : Ongoing} (h : y.MayBe s'.world x) : y.MayBe s.world x :=
    ⟨h.thread, h.number, h.activation.shrink ht.grows⟩
  cases ht with
  | begin t c hfree hknown =>
    obtain ⟨y, calls, hy, hcalls, rfl⟩ := List.forall₂_cons_right_iff.mp hc
    rw [hy.eq_of_isWhole c.entry_control]
    have hcalls : s.Admits calls := hcalls
    refine ⟨calls, hcalls, fun a ha => ?_⟩
    have htake : a.take? (.begin t c) = some (a.enter t c a.world) :=
      if_pos ⟨Admits.isFree hcalls ha.ongoing hfree, ha.known.symm ▸ hknown⟩
    refine ⟨_, htake, htake, sight?_eq_of_operand? rfl rfl (by rw [ha.begun]) rfl, ?_⟩
    exact ⟨by simp [enter, ha.begun, ha.ongoing], ha.world, congrArg (· + 1) ha.begun, ha.known⟩
  | fire t x hfree hx =>
    obtain ⟨y, calls, hy, hcalls, rfl⟩ := List.forall₂_cons_right_iff.mp hc
    rw [hy.eq_of_isWhole (Call.entry_control (.timeOut x.request))]
    have hcalls : s.Admits calls := hcalls.imp fun _ _ => hshrink
    refine ⟨calls, hcalls, fun a ha => ?_⟩
    have hnone := innermost?_of_forall (thread_ne_of_forall₂ hcalls hfree)
    have htake : a.take? (.fire t x) =
        some (a.enter t (.timeOut x.request) (a.world.fire x)) :=
      if_pos ⟨by rw [ha.ongoing, hnone]; rfl, ha.world.timers ▸ hx⟩
    refine ⟨_, htake, htake, sight?_eq_of_operand? rfl rfl (by rw [ha.begun]) rfl, ?_⟩
    exact ⟨by simp [enter, ha.begun, ha.ongoing], ha.world.fire x, congrArg (· + 1) ha.begun,
      ha.known⟩
  | make cell dispatch interceptors timeoutMs timerName listener =>
    refine ⟨calls', List.Forall₂.imp (fun _ _ => hshrink) hc, fun a ha => ⟨_, rfl, rfl, ?_, ?_⟩⟩
    · simp [sight?, addRequest]
    · exact ⟨ha.ongoing, ha.world.addRequest rfl, ha.begun,
        by rw [addRequest, addRequest, ha.known, ha.world.requestCount]⟩
  | step => exact absurd rfl (hstep _ _ _ _)
  | resume newer older t k o f frames hs hn =>
    obtain ⟨newer', y, older', rfl, hnewer, hy, holder⟩ := exists_cut hc
    rw [hy.eq_of_isWhole (Control.entry_follow fun p hp =>
      Frame.entry_of_way (f.way_resume s.world o) hp)]
    refine ⟨_, admits_of_cut hs hnewer ⟨rfl, rfl, .entry⟩ holder, fun a ha => ?_⟩
    have hi : innermost? t (newer' ++ ⟨t, k, ⟨.ended o, f :: frames⟩⟩ :: older') =
        some (newer', ⟨t, k, ⟨.ended o, f :: frames⟩⟩, older') :=
      innermost?_append rfl (thread_ne_of_forall₂ hnewer hn)
    have htake : a.take? (.advance t) = some (a.proceed newer' ⟨t, k, ⟨.ended o, f :: frames⟩⟩
        older' a.world (.follow frames (f.resume s.world o).next)
        (.resume f o (f.resume s.world o).next)) := by
      simp [take?, ha.ongoing, hi, Activation.step?, Activation.deed?,
        Frame.next_resume a.world s.world]
    refine ⟨_, htake, ?_, sight?_eq_of_operand? rfl rfl rfl rfl, ?_⟩
    · simpa [takeAtomic?, ha.ongoing, hi] using htake
    · exact ⟨rfl, ha.world, ha.begun, ha.known⟩
  | answer newer older t k i frames x hs hn =>
    obtain ⟨newer', y, older', rfl, hnewer, hy, holder⟩ := exists_cut hc
    rw [hy.eq_of_isWhole rfl]
    refine ⟨_, admits_of_cut hs hnewer ⟨rfl, rfl, .entry⟩ holder, fun a ha => ?_⟩
    have hi : innermost? t (newer' ++ ⟨t, k, ⟨.inside i, frames⟩⟩ :: older') =
        some (newer', ⟨t, k, ⟨.inside i, frames⟩⟩, older') :=
      innermost?_append rfl (thread_ne_of_forall₂ hnewer hn)
    have htake : a.take? (.answer t x) = some (a.proceed newer' ⟨t, k, ⟨.inside i, frames⟩⟩
        older' a.world ⟨.ended (.ofUser x), frames⟩ (.answer i (.ofUser x))) := by
      simp [take?, ha.ongoing, hi, Activation.conclude]
    exact ⟨_, htake, htake, sight?_eq_of_operand? rfl rfl rfl rfl,
      rfl, ha.world, ha.begun, ha.known⟩
  | finish newer older t k o hs hn =>
    obtain ⟨newer', older', rfl, hnewer, holder⟩ :
        ∃ newer' older', calls' = newer' ++ older' ∧
          List.Forall₂ (Ongoing.MayBe s.world) newer' newer ∧
          List.Forall₂ (Ongoing.MayBe s.world) older' older :=
      ⟨_, _, (List.take_append_drop _ _).symm, List.forall₂_take_append _ _ _ hc,
        List.forall₂_drop_append _ _ _ hc⟩
    refine ⟨_, admits_of_cut hs hnewer ⟨rfl, rfl, .entry⟩ holder, fun a ha => ?_⟩
    have hi : innermost? t (newer' ++ ⟨t, k, ⟨.ended o, []⟩⟩ :: older') =
        some (newer', ⟨t, k, ⟨.ended o, []⟩⟩, older') :=
      innermost?_append rfl (thread_ne_of_forall₂ hnewer hn)
    have htake : a.take? (.finish t) =
        some (a.leave newer' ⟨t, k, ⟨.ended o, []⟩⟩ older' o) := by
      simp [take?, ha.ongoing, hi, Activation.outcome?]
    exact ⟨_, htake, htake, sight?_eq_of_operand? rfl rfl rfl rfl,
      rfl, ha.world, ha.begun, by rw [leave, leave, ha.known]⟩

private theorem takeAtomic?_advance {newer older : List Ongoing} {t : ThreadId} {k : CallNumber}
    (ha : a.ongoing = newer ++ ⟨t, k, ⟨.ready p, frames⟩⟩ :: older)
    (hn : ∀ y ∈ newer, y.thread ≠ t) (hp : p.isEnabled a.world = true) :
    a.takeAtomic? (.advance t) = some (a.proceed newer ⟨t, k, ⟨.ready p, frames⟩⟩ older
      (p.atomicStep a.world).world (.follow frames (p.atomicStep a.world).next)
      (.step p (p.atomicStep a.world).next)) := by
  have hi : innermost? t (newer ++ ⟨t, k, ⟨.ready p, frames⟩⟩ :: older) =
      some (newer, ⟨t, k, ⟨.ready p, frames⟩⟩, older) := innermost?_append rfl hn
  simp [takeAtomic?, ha, hi, hp]

/-- A change of a system, in hindsight: for all calls that may be in progress afterwards with atomic
cells there are some before, and a system with those makes the same move, or it has no move to make
and nothing is seen. -/
private theorem Transition.hindsight (ht : Transition s m s') (hc : s'.Admits calls') :
    ∃ calls, s.Admits calls ∧ ∀ a : System, a.Fits s calls →
      (s.sight? s' m = none ∧ a.Fits s' calls') ∨
      ∃ a' : System, a.takeAtomic? m = some a' ∧ a.sight? a' m = s.sight? s' m ∧
        a'.Fits s' calls' := by
  have hplain (hstep : ∀ t k p n, s'.history ≠ s.history ++ [⟨t, k, .step p n⟩]) :
      ∃ calls, s.Admits calls ∧ ∀ a : System, a.Fits s calls →
        (s.sight? s' m = none ∧ a.Fits s' calls') ∨
        ∃ a' : System, a.takeAtomic? m = some a' ∧ a.sight? a' m = s.sight? s' m ∧
          a'.Fits s' calls' := by
    obtain ⟨calls, hcalls, h⟩ := ht.exists_take? hstep hc
    exact ⟨calls, hcalls, fun a ha => .inr ((h a ha).imp fun a' ha' => ha'.2)⟩
  have hgrows := ht.grows
  cases ht with
  | step newer older t k p frames hs hn hp =>
    clear hplain
    obtain ⟨newer', y, older', rfl, hnewer, hy, holder⟩ := exists_cut hc
    have hshrink {y x : Ongoing} (h : y.MayBe (p.step s.world).world x) : y.MayBe s.world x :=
      ⟨h.thread, h.number, h.activation.shrink hgrows⟩
    have hcut (z : Ongoing) (hz : z.MayBe s.world ⟨t, k, ⟨.ready p, frames⟩⟩) :
        s.Admits (newer' ++ z :: older') :=
      admits_of_cut hs (hnewer.imp fun _ _ => hshrink) hz (holder.imp fun _ _ => hshrink)
    obtain ⟨t', k', b⟩ := y
    obtain ⟨rfl, rfl, hb⟩ := hy
    rcases hb.step with ⟨c, hop, hw, hdelivery, hb⟩ | ⟨rfl, hw, hdelivery, hnext⟩
    · -- Nothing is seen of a look, and with atomic cells the call stays where it is.
      refine ⟨_, hcut ⟨t', k', b⟩ ⟨rfl, rfl, hb⟩, fun a ha =>
        .inl ⟨?_, ha.ongoing, ?_, ha.begun, ha.known⟩⟩
      · rw [sight?_of_history rfl, proceed, hw]
        exact Event.sight?_quiet hop (.refl _) hdelivery
      · simpa [proceed, hw] using ha.world
    · refine ⟨_, hcut ⟨t', k', ⟨.ready p.entry, frames⟩⟩ ⟨rfl, rfl, .entry⟩, fun a ha => .inr ?_⟩
      obtain ⟨hsame, hworld⟩ := ha.world.atomicStep p.entry
      have hthreads := thread_ne_of_forall₂ (hnewer.imp fun _ _ => hshrink) hn
      refine ⟨_, takeAtomic?_advance ha.ongoing hthreads ?_, ?_, ?_⟩
      · rw [← ha.world.isEnabled, Point.isEnabled_entry, hp]
      · exact sight?_eq_of_entry rfl rfl ha.world (hw.trans hworld) (hsame ▸ hdelivery)
          fun hop => hsame ▸ (hnext hop).symm
      · exact ⟨by simp [proceed, hsame], hw.trans hworld, ha.begun, ha.known⟩
  | _ => exact hplain fun _ _ _ _ h => by simp [enter, proceed, leave, addRequest] at h

/-- Whatever moves show, moves with atomic cells show too, whichever calls may be in progress. -/
private theorem Shows.exists_showsAtomic {w : World} {seen : List Sight}
    (h : Shows take? w seen s) (hc : s.Admits calls) :
    ∃ a, Shows takeAtomic? w seen a ∧ a.Fits s calls := by
  induction h generalizing calls with
  | start =>
    cases hc
    exact ⟨_, .start, rfl, .refl w, rfl, rfl⟩
  | move m h ht ih =>
    obtain ⟨calls, hcalls, hnext⟩ := (transition_of_take? ht).hindsight hc
    obtain ⟨a, ha, hfits⟩ := ih hcalls
    rcases hnext a hfits with ⟨hquiet, hfits'⟩ | ⟨a', ht', hsight, hfits'⟩
    · exact ⟨a, by simpa [hquiet] using ha, hfits'⟩
    · exact ⟨a', ha.move_of_sight ht' hsight, hfits'⟩

/-! ### From atomic cells to looks -/

/-- A move with atomic cells is the atomic step of a call, or a change of another kind. -/
private theorem transition_of_takeAtomic? (h : a.takeAtomic? m = some a') :
    (Transition a m a' ∧ ∀ t k p n, a'.history ≠ a.history ++ [⟨t, k, .step p n⟩]) ∨
    ∃ newer older t k p frames, m = .advance t ∧
      a.ongoing = newer ++ ⟨t, k, ⟨.ready p, frames⟩⟩ :: older ∧ (∀ y ∈ newer, y.thread ≠ t) ∧
      p.isEnabled a.world = true ∧
      a' = a.proceed newer ⟨t, k, ⟨.ready p, frames⟩⟩ older (p.atomicStep a.world).world
        (.follow frames (p.atomicStep a.world).next) (.step p (p.atomicStep a.world).next) := by
  have hother (h : a.take? m = some a')
      (hready : ∀ t newer x older p, m = .advance t →
        innermost? t a.ongoing = some (newer, x, older) → x.activation.control ≠ .ready p) :
      Transition a m a' ∧ ∀ t k p n, a'.history ≠ a.history ++ [⟨t, k, .step p n⟩] := by
    have ht := transition_of_take? h
    refine ⟨ht, fun t k p n hh => ?_⟩
    cases ht with
    | step newer older t k p frames hs hn hp =>
      exact hready t _ _ _ p rfl (hs ▸ innermost?_append rfl hn) rfl
    | _ => simp [enter, proceed, leave, addRequest] at hh
  cases m with
  | advance t =>
    obtain ⟨⟨newer, ⟨t', k, ⟨control, frames⟩⟩, older⟩, hi, hb⟩ := Option.bind_eq_some_iff.mp h
    obtain ⟨ha, rfl, hn⟩ := innermost?_eq_some hi
    cases control with
    | ready p =>
      obtain ⟨hp, ha'⟩ := Option.ite_none_right_eq_some.mp hb
      exact .inr ⟨newer, older, t', k, p, frames, rfl, ha, hn, hp, (Option.some.inj ha').symm⟩
    | _ =>
      refine .inl (hother hb fun t newer x older p hm hi' => ?_)
      cases hm
      rw [hi] at hi'
      cases hi'
      simp
  | _ => exact .inl (hother h fun _ _ _ _ _ hm => by cases hm)

/-- With atomic cells, no call stands within an operation. -/
private theorem ShowsAtomic.isWhole {w : World} {seen : List Sight}
    (h : Shows takeAtomic? w seen a) : ∀ x ∈ a.ongoing, x.activation.IsWhole := by
  induction h with
  | start => simp
  | @move seen a a' m h ht ih =>
    rcases transition_of_takeAtomic? ht with
      ⟨ht, hstep⟩ | ⟨newer, older, t, k, p, frames, rfl, ha, hn, hp, rfl⟩
    · refine forall_ongoing_of_transition (P := fun _ x => x.activation.IsWhole) ht ih
        (fun _ _ h => h) (fun t c _ _ => c.entry_control)
        (fun t x _ _ => Call.entry_control (.timeOut x.request))
        (fun t k p frames _ hh _ => absurd hh (hstep t k p _)) ?_ (fun _ _ _ _ _ _ _ _ => rfl)
      exact fun t k o f frames _ _ => Control.entry_follow fun p hp =>
        Frame.entry_of_way (f.way_resume _ o) hp
    · intro x hx
      rw [ha] at ih
      simp only [proceed, List.mem_append, List.mem_cons] at hx ih
      rcases hx with hx | rfl | hx
      · exact ih x (.inl hx)
      · have hwhole : p.entry = p := Control.ready.inj (ih _ (.inr (.inl rfl)))
        exact Control.entry_follow fun p' hp' => Point.entry_of_atomicStep hwhole hp'
      · exact ih x (.inr (.inr hx))

private theorem take?_advance {newer older : List Ongoing} {t : ThreadId} {k : CallNumber}
    (hs : s.ongoing = newer ++ ⟨t, k, ⟨.ready p, frames⟩⟩ :: older)
    (hn : ∀ y ∈ newer, y.thread ≠ t) (hp : p.isEnabled s.world = true) :
    s.take? (.advance t) = some (s.proceed newer ⟨t, k, ⟨.ready p, frames⟩⟩ older
      (p.step s.world).world (.follow frames (p.step s.world).next)
      (.step p (p.step s.world).next)) := by
  have hi : innermost? t (newer ++ ⟨t, k, ⟨.ready p, frames⟩⟩ :: older) =
      some (newer, ⟨t, k, ⟨.ready p, frames⟩⟩, older) := innermost?_append rfl hn
  simp [take?, hs, hi, Activation.step?, hp, Activation.deed?]

/-- A call can take looks that find nothing, and nothing is seen of them. -/
private theorem Shows.exists_of_looks {w : World} {seen : List Sight} {newer older : List Ongoing}
    {t : ThreadId} {k : CallNumber} (h : Shows take? w seen s)
    (hs : s.ongoing = newer ++ ⟨t, k, ⟨.ready p, frames⟩⟩ :: older)
    (hn : ∀ y ∈ newer, y.thread ≠ t)
    (hlooks : Relation.ReflTransGen (Point.Looks s.world) p p') :
    ∃ s', Shows take? w seen s' ∧
      s'.ongoing = newer ++ ⟨t, k, ⟨.ready p', frames⟩⟩ :: older ∧
      s'.world = s.world ∧ s'.begun = s.begun ∧ s'.known = s.known := by
  induction hlooks with
  | refl => exact ⟨s, h, hs, rfl, rfl, rfl⟩
  | @tail p₁ p₂ _ hlook ih =>
    obtain ⟨s', h', hs', hw, hbegun, hknown⟩ := ih
    have hp : p₁.isEnabled s'.world = true := by cases hlook <;> rfl
    have hstep : p₁.step s'.world = { world := s'.world, next := .goto p₂ } := hw ▸ hlook.step
    have hmove := h'.move _ (take?_advance hs' hn hp)
    obtain ⟨c, hc⟩ := Option.isSome_iff_exists.mp hlook.operand?.2
    rw [sight?_of_history rfl] at hmove
    have hquiet : Event.sight? s'.world s'.world ⟨t, k, .step p₁ (.goto p₂)⟩ = none :=
      Event.sight?_quiet (hlook.operand?.1 ▸ hc) (.refl _) (Next.delivery?_goto hc)
    simp only [hstep, proceed, hquiet, Option.toList_none, List.append_nil] at hmove
    exact ⟨_, hmove, rfl, hw, hbegun, hknown⟩

private theorem eq_of_admits (hwhole : ∀ x ∈ s.ongoing, x.activation.IsWhole)
    (hc : s.Admits calls) : calls = s.ongoing := by
  rw [Admits] at hc
  generalize s.ongoing = xs at hwhole hc
  induction hc with
  | nil => rfl
  | cons hyx _ ih =>
    rw [List.forall_mem_cons] at hwhole
    rw [hyx.eq_of_isWhole hwhole.1, ih hwhole.2]

private theorem admits_self (hwhole : ∀ x ∈ s.ongoing, x.activation.IsWhole) :
    s.Admits s.ongoing := by
  refine List.forall₂_same.mpr fun x hx => ⟨rfl, rfl, ?_⟩
  have h : x.activation.Hindsight s.world ⟨x.activation.control.entry, x.activation.frames⟩ :=
    .entry
  rwa [show x.activation.control.entry = x.activation.control from hwhole x hx] at h

/-- Whatever moves with atomic cells show, moves show too: an operation takes all its looks right
before the step that decides. -/
private theorem ShowsAtomic.exists_shows {w : World} {seen : List Sight}
    (h : Shows takeAtomic? w seen a) : ∃ s, Shows take? w seen s ∧ s.Fits a a.ongoing := by
  induction h with
  | start => exact ⟨_, .start, rfl, .refl w, rfl, rfl⟩
  | @move seen a a' m h ht ih =>
    obtain ⟨s, hs, hfits⟩ := ih
    have hwhole := ShowsAtomic.isWhole h
    have hwhole' := ShowsAtomic.isWhole (h.move m ht)
    rcases transition_of_takeAtomic? ht with
      ⟨ht, hstep⟩ | ⟨newer, older, t, k, p, frames, rfl, ha, hn, hp, rfl⟩
    · obtain ⟨calls, hcalls, hnext⟩ := ht.exists_take? hstep (admits_self hwhole')
      rw [eq_of_admits hwhole hcalls] at hnext
      obtain ⟨s', ht', -, hsight, hfits'⟩ := hnext s hfits
      exact ⟨s', hs.move_of_sight ht' hsight, hfits'⟩
    · have hx : ⟨t, k, ⟨.ready p, frames⟩⟩ ∈ a.ongoing := ha ▸ by simp
      obtain ⟨p', hlooks, rfl, hd⟩ := p.exists_looks s.world (Control.ready.inj (hwhole _ hx))
      obtain ⟨s', hs', hongoing, hw, hbegun, hknown⟩ :=
        hs.exists_of_looks (hfits.ongoing.trans ha) hn hlooks
      rw [← hw] at hd
      have hworld : a.world.Agrees s'.world := hw ▸ hfits.world
      obtain ⟨hnext, hworld'⟩ := hworld.atomicStep p'.entry
      have hp' : p'.isEnabled s'.world = true := by
        rw [← p'.isEnabled_entry, ← hworld.isEnabled, hp]
      have hstep : (p'.step s'.world).next = (p'.entry.atomicStep a.world).next :=
        hd.next.trans hnext.symm
      refine ⟨_, hs'.move_of_sight (take?_advance hongoing hn hp') ?_, ?_,
        hworld'.trans hd.world.symm, hbegun.trans hfits.begun, hknown.trans hfits.known⟩
      · exact (sight?_eq_of_entry rfl rfl hworld.symm (hd.world.trans hworld'.symm)
          (congrArg Next.delivery? hstep) fun _ => hstep.symm).symm
      · rw [proceed, proceed, hstep]

/-- Looking first is atomic. From every world, runs in which the cells look before they lock and
runs in which each operation of a cell is one step show the same: calls begin and end in the same
order and with the same outcomes, and in between they leave the cells in the same way and decide on
the same deliveries. They lead to the same worlds as well. With atomic cells, no call ever stands
within an operation. -/
theorem shows_iff_showsAtomic (w v : World) (seen : List Sight) :
    ((∃ s, Shows take? w seen s ∧ v.Agrees s.world) ↔
      ∃ a, Shows takeAtomic? w seen a ∧ v.Agrees a.world) ∧
    ∀ a, Shows takeAtomic? w seen a → ∀ x ∈ a.ongoing, x.activation.IsWhole := by
  refine ⟨⟨fun ⟨s, hs, hv⟩ => ?_, fun ⟨a, ha, hv⟩ => ?_⟩, fun a => ShowsAtomic.isWhole⟩
  · have hentry : s.Admits (s.ongoing.map fun x =>
        { x with activation := ⟨x.activation.control.entry, x.activation.frames⟩ }) := by
      rw [Admits, List.forall₂_map_left_iff]
      exact List.forall₂_same.mpr fun x _ => ⟨rfl, rfl, .entry⟩
    obtain ⟨a, ha, hfits⟩ := hs.exists_showsAtomic hentry
    exact ⟨a, ha, hv.trans hfits.world⟩
  · obtain ⟨s, hs, hfits⟩ := ShowsAtomic.exists_shows ha
    exact ⟨s, hs, hv.trans hfits.world⟩

private theorem Shows.exists_of_run {w : World} {seen : List Sight} {ms : List Move}
    (h : Shows take? w seen s) (hrun : s.run ms = some s') : ∃ seen', Shows take? w seen' s' := by
  induction ms generalizing s seen with
  | nil =>
    cases hrun
    exact ⟨seen, h⟩
  | cons m ms ih =>
    obtain ⟨s₁, h₁, hrun⟩ := Option.bind_eq_some_iff.mp hrun
    exact ih (.move m h h₁) hrun

/-- A thread asks whether a cell is set or expired, and between its two looks another thread
resolves the cell. -/
def askedMeanwhile : List Move :=
  [.begin 0 (.ask 0 .isSetOrExpired), .advance 0, .begin 1 (.setResult 0 (.text "A")), .advance 1,
    .advance 1, .advance 1, .finish 1, .advance 0, .finish 0]

/-- The answer is negative although the cell has a resolution by then, and an atomic cell gives it
too. -/
theorem showsAtomic_askedMeanwhile :
    ∃ s a seen, run { world := default } askedMeanwhile = some s ∧
      (s.world.cell 0).result = some (.value (.text "A")) ∧
      s.history.getLast? = some ⟨0, 0, .finish (.returned (.flag false))⟩ ∧
      Shows take? default seen s ∧ Shows takeAtomic? default seen a ∧
      s.world.Agrees a.world ∧ ∀ x ∈ a.ongoing, x.activation.IsWhole := by
  obtain ⟨s, hs⟩ : ∃ s, run { world := default } askedMeanwhile = some s := ⟨_, rfl⟩
  have hshown : (run { world := default } askedMeanwhile).map (fun s =>
      ((s.world.cell 0).result, s.history.getLast?)) =
        some (some (.value (.text "A")), some ⟨0, 0, .finish (.returned (.flag false))⟩) := rfl
  simp only [hs, Option.map_some, Option.some.injEq, Prod.mk.injEq] at hshown
  obtain ⟨seen, hseen⟩ := Shows.exists_of_run (.start : Shows take? default [] _) hs
  obtain ⟨hiff, hwhole⟩ := shows_iff_showsAtomic default s.world seen
  obtain ⟨a, ha, hagrees⟩ := hiff.mp ⟨s, hseen, .refl _⟩
  exact ⟨s, a, seen, hs, hshown.1, hshown.2, hseen, ha, hagrees, hwhole a ha⟩

end System

end Rendezvous
