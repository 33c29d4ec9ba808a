import Rendezvous.Proofs.Requests.Finality
import Rendezvous.Proofs.Requests.Pass
import Rendezvous.Proofs.Threads.Courses

/-!
# Refusal

A cell that is set or has expired refuses every resolution, whatever goes on around it. The cell of
a completed request is meant to do so, but a request is completed before its cell expires: the
completion hooks are called from the last interceptor to the first, and the hooks of the cell are
the first. Until then, and for good if a failure stops the pass before it comes to them, the cell
takes a resolution unless it has one.

## Main definitions

* `Refusal`: the courses of a setter that is refused.
* `System.Refuses`: a cell refuses every setter that begins from now on.

## Main results

* `System.Reachable.refuses_of_isSetOrExpired`, `System.Reachable.isSetOrExpired_of_refuses`: a cell
  refuses setters exactly if it is set or has expired.
* `System.Reachable.refuses_iff`: whether the cell of a completed request refuses them.
-/

namespace Rendezvous

/-- Whether a call tries to resolve a cell. -/
def Call.Sets (c : CellId) : Call → Prop
  | .setResult d _ | .setError d _ => d = c
  | _ => False

/-- The courses of a setter that is refused: it looks at the cell, once or twice, and returns that
the cell did not take the resolution. Nothing is delivered. -/
inductive Refusal (c : CellId) (call : Call) : List Deed → Prop
  | set (r : Resolution) : Refusal c call
    [.begin call, .step (.cell c (.checkResult r)) (.ret (.flag false)),
      .finish (.returned (.flag false))]
  | expired (r : Resolution) : Refusal c call
    [.begin call, .step (.cell c (.checkResult r)) (.goto (.cell c (.checkExpired r))),
      .step (.cell c (.checkExpired r)) (.ret (.flag false)), .finish (.returned (.flag false))]

/-- Whether a cell refuses every setter that begins from now on: whatever other calls do, the setter
follows the course of a refusal, and its own moves bring it to the end of that. -/
def System.Refuses (s : System) (c : CellId) : Prop :=
  ∀ s', System.Leads Move.any s s' → ∀ t n call, s.begun ≤ n → call.Sets c →
    ⟨t, n, .begin call⟩ ∈ s'.history → ∃ course, Refusal c call course ∧
      s'.deeds n <+: course ∧
      ∃ ms s'', (∀ m ∈ ms, m = .advance t ∨ m = .finish t) ∧ s'.run ms = some s'' ∧
        s''.deeds n = course

/-- How far a setter has come on the course of a refusal, and where it stands there. -/
inductive Refused (w : World) (c : CellId) (call : Call) : List Deed → Option Activation → Prop
  | begun (r : Resolution) : Refused w c call [.begin call]
    (some ⟨.ready (.cell c (.checkResult r)), []⟩)
  | looked (r : Resolution) (he : (w.cell c).expired = true) : Refused w c call
    [.begin call, .step (.cell c (.checkResult r)) (.goto (.cell c (.checkExpired r)))]
    (some ⟨.ready (.cell c (.checkExpired r)), []⟩)
  | refused (course : List Deed)
      (h : Refusal c call (course ++ [.finish (.returned (.flag false))])) :
    Refused w c call course (some ⟨.ended (.returned (.flag false)), []⟩)
  | finished (course : List Deed) (h : Refusal c call course) : Refused w c call course none

variable {w w' : World} {c : CellId} {call : Call}

theorem Call.Sets.control (h : call.Sets c) :
    ∃ r, call.activation = ⟨.ready (.cell c (.checkResult r)), []⟩ := by
  unfold Call.Sets at h
  split at h
  · subst h
    exact ⟨_, rfl⟩
  · subst h
    exact ⟨_, rfl⟩
  · exact h.elim

/-- A setter that is refused goes on with that. -/
theorem Refused.moves {course : List Deed} {a : Activation} {d : Deed} {a' : Option Activation}
    (h : Refused w c call course (some a)) (hm : a.Moves w d a') (hw : w.Grows w')
    (hc : (w.cell c).isSetOrExpired = true) : Refused w' c call (course ++ [d]) a' := by
  cases h with
  | begun r =>
    cases hm
    cases hr : (w.cell c).hasResult with
    | true =>
      simp only [Point.step, CellPoint.step, hr]
      exact .refused _ (.set r)
    | false =>
      have he : (w.cell c).expired = true := by
        simpa [Cell.isSetOrExpired, show (w.cell c).result.isSome = false from hr] using hc
      simp only [Point.step, CellPoint.step, hr]
      exact .looked r (hw.expired c he)
  | looked r he =>
    cases hm
    simp only [Point.step, CellPoint.step, he]
    exact .refused _ (.expired r)
  | refused course h =>
    cases hm
    exact .finished _ h

theorem Refused.length_lt {course : List Deed} {a : Activation}
    (h : Refused w c call course (some a)) : course.length < 4 := by
  cases h with
  | begun r => simp
  | looked r he => simp
  | refused course h =>
    generalize hall : course ++ [.finish (.returned (.flag false))] = all at h
    have hlength := congrArg List.length hall
    cases h <;> simp at hlength <;> omega

theorem Refused.refusal {course : List Deed} (h : Refused w c call course none) :
    Refusal c call course := by
  cases h
  assumption

theorem Refused.grow {course : List Deed} {a : Option Activation} (h : Refused w c call course a)
    (hw : w.Grows w') : Refused w' c call course a := by
  cases h with
  | begun r => exact .begun r
  | looked r he => exact .looked r (hw.expired c he)
  | refused course h => exact .refused course h
  | finished course h => exact .finished course h

namespace System

variable {s s' : System} {m : Move} {allowed : Move → Prop} {t : ThreadId} {n : CallNumber}

/-! ### Set or expired -/

/-- A call that begins in an event has done nothing else, and stands where it starts. -/
private theorem Transition.deeds_of_begin (ht : Transition s m s') (hs : s.IsNumbered)
    (hb : ⟨t, n, .begin call⟩ ∈ s'.history) (hnew : ⟨t, n, .begin call⟩ ∉ s.history) :
    s'.deeds n = [.begin call] ∧ ⟨t, n, call.activation⟩ ∈ s'.ongoing := by
  obtain ⟨rfl, hh, ho⟩ := ht.of_begin hb hnew
  refine ⟨?_, ho ▸ List.mem_cons_self⟩
  rw [deeds_append hh, if_pos rfl, hs.deeds_begun]
  rfl

/-- Every setter that begins when a cell is set or has expired is refused. -/
private theorem Leads.refused (hs : Reachable allowed s)
    (hc : (s.world.cell c).isSetOrExpired = true) (hl : Leads allowed s s') (hn : s.begun ≤ n)
    (hcall : call.Sets c) (hb : ⟨t, n, .begin call⟩ ∈ s'.history) :
    ∃ a, Refused s'.world c call (s'.deeds n) a ∧
      (∀ b ∈ a, ⟨t, n, b⟩ ∈ s'.ongoing) ∧ (a = none → ∀ y ∈ s'.ongoing, y.number ≠ n) := by
  induction hl with
  | refl => exact absurd (hs.isNumbered.history _ hb) (Nat.not_lt.mpr hn)
  | @move s₁ s₂ m hl hm ht ih =>
    have hs₁ := hs.leads hl
    have htr := transition_of_take? ht
    by_cases hold : ⟨t, n, .begin call⟩ ∈ s₁.history
    · obtain ⟨a, ha, hin, hover⟩ := ih hold
      cases a with
      | some b =>
        rcases htr.shifts hs₁.isNumbered (hin b rfl) with ⟨hx, hd⟩ | ⟨d, a', hmoves, hd, hx, hend⟩
        · exact ⟨some b, hd ▸ ha.grow htr.grows, by simpa using hx, by simp⟩
        · refine ⟨a', ?_, hx, hend⟩
          rw [show s₂.deeds n = s₁.deeds n ++ [d] from hd]
          exact ha.moves hmoves htr.grows (hl.grows.isSetOrExpired hc)
      | none =>
        obtain ⟨hd, hover'⟩ := htr.deeds_of_over (hs₁.isNumbered.history _ hold) (hover rfl)
        exact ⟨none, hd ▸ ha.grow htr.grows, by simp, fun _ => hover'⟩
    · obtain ⟨hd, hx⟩ := htr.deeds_of_begin hs₁.isNumbered hb hold
      obtain ⟨r, hr⟩ := hcall.control
      refine ⟨some call.activation, ?_, by simpa using hx, by simp⟩
      rw [show s₂.deeds n = [.begin call] from hd, hr]
      exact .begun r

/-- A setter that is being refused can go on with that. -/
private theorem Reachable.exists_take?_of_refused (hs : Reachable allowed s)
    (hc : (s.world.cell c).isSetOrExpired = true) {a : Activation}
    (h : Refused s.world c call (s.deeds n) (some a)) (hx : ⟨t, n, a⟩ ∈ s.ongoing) :
    ∃ m s' d a', (m = .advance t ∨ m = .finish t) ∧ s.take? m = some s' ∧
      s'.deeds n = s.deeds n ++ [d] ∧ Refused s'.world c call (s'.deeds n) a' ∧
      ∀ b ∈ a', ⟨t, n, b⟩ ∈ s'.ongoing := by
  have hgoes {m : Move} {s' : System} {d : Deed} {a' : Option Activation}
      (hm : m = .advance t ∨ m = .finish t) (ht : s.take? m = some s')
      (hh : s'.history = s.history ++ [⟨t, n, d⟩]) (hmoves : a.Moves s.world d a')
      (hin : ∀ b ∈ a', ⟨t, n, b⟩ ∈ s'.ongoing) : ∃ m s' d a', (m = .advance t ∨ m = .finish t) ∧
        s.take? m = some s' ∧ s'.deeds n = s.deeds n ++ [d] ∧
        Refused s'.world c call (s'.deeds n) a' ∧ ∀ b ∈ a', ⟨t, n, b⟩ ∈ s'.ongoing := by
    have hd : s'.deeds n = s.deeds n ++ [d] := (deeds_append hh n).trans (if_pos rfl)
    have hgrows := (transition_of_take? ht).grows
    exact ⟨m, s', d, a', hm, ht, hd, hd ▸ h.moves hmoves hgrows hc, hin⟩
  obtain ⟨control, frames⟩ := a
  cases control with
  | ready p =>
    have hp : p.isEnabled s.world = true := by
      generalize s.deeds n = done at h
      cases h <;> rfl
    obtain ⟨newer, older, -, ht⟩ := hs.take?_advance hx hp
    exact hgoes (.inl rfl) ht rfl (.step p frames) (by simp [proceed])
  | inside i =>
    generalize s.deeds n = done at h
    cases h
  | ended o =>
    obtain rfl : frames = [] := by
      generalize s.deeds n = done at h
      cases h
      rfl
    obtain ⟨newer, older, -, ht⟩ := hs.take?_finish hx
    exact hgoes (.inr rfl) ht rfl (.finish o) (by simp)

/-- A setter that is refused comes to the end of that by its own moves. -/
private theorem Reachable.exists_run_of_refused (hs : Reachable Move.any s)
    (hc : (s.world.cell c).isSetOrExpired = true) {a : Option Activation}
    (h : Refused s.world c call (s.deeds n) a) (hin : ∀ b ∈ a, ⟨t, n, b⟩ ∈ s.ongoing) :
    ∃ course, Refusal c call course ∧ s.deeds n <+: course ∧
      ∃ ms s', (∀ m ∈ ms, m = .advance t ∨ m = .finish t) ∧ s.run ms = some s' ∧
        s'.deeds n = course := by
  -- A course has four deeds at most, so the induction is on how many are left.
  obtain ⟨k, hk⟩ : ∃ k, 4 ≤ (s.deeds n).length + k := ⟨4, by omega⟩
  induction k generalizing s a with
  | zero =>
    cases a with
    | some b => exact absurd h.length_lt (Nat.not_lt.mpr hk)
    | none => exact ⟨_, h.refusal, List.prefix_rfl, [], s, by simp, rfl, rfl⟩
  | succ k ih =>
    cases a with
    | none => exact ⟨_, h.refusal, List.prefix_rfl, [], s, by simp, rfl, rfl⟩
    | some b =>
      obtain ⟨m, s', d, a', hm, ht, hd, h', hin'⟩ :=
        hs.exists_take?_of_refused hc h (hin b rfl)
      have hs' : Reachable Move.any s' := hs.leads (.move m .refl trivial ht)
      obtain ⟨course, hcourse, hpre, ms, s'', hms, hrun, hend⟩ := ih hs'
        ((transition_of_take? ht).grows.isSetOrExpired hc) h' hin'
        (by rw [hd, List.length_append, List.length_singleton]; omega)
      refine ⟨course, hcourse, (List.prefix_append _ _).trans (hd ▸ hpre), m :: ms, s'',
        List.forall_mem_cons.mpr ⟨hm, hms⟩, ?_, hend⟩
      rw [run, ht]
      exact hrun

/-- A cell that is set or has expired refuses every setter that begins from now on. -/
theorem Reachable.refuses_of_isSetOrExpired (hs : Reachable Move.any s)
    (hc : (s.world.cell c).isSetOrExpired = true) : s.Refuses c := by
  intro s' hl t n call hn hcall hb
  obtain ⟨a, ha, hin, -⟩ := Leads.refused hs hc hl hn hcall hb
  exact (hs.leads hl).exists_run_of_refused (hl.grows.isSetOrExpired hc) ha hin

/-- A cell that refuses every setter is set or has expired: a setter on a thread of its own finds
out. -/
theorem Reachable.isSetOrExpired_of_refuses (hs : Reachable Move.any s) (h : s.Refuses c) :
    (s.world.cell c).isSetOrExpired = true := by
  rw [← Bool.not_eq_false]
  intro hopen
  have hboth : (s.world.cell c).hasResult = false ∧ (s.world.cell c).expired = false :=
    Cell.isSetOrExpired_eq_false_iff.mp hopen
  obtain ⟨t, ht⟩ := exists_thread s.ongoing
  have hbegin : s.take? (.begin t (.setResult c .null)) =
      some (s.enter t (.setResult c .null) s.world) :=
    if_pos ⟨by rw [isFree, innermost?_of_forall ht], by simp [Call.requests]⟩
  have hl : Leads Move.any s (s.enter t (.setResult c .null) s.world) :=
    .move _ .refl trivial hbegin
  have hx : ⟨t, s.begun, (Call.setResult c .null).activation⟩ ∈
      (s.enter t (.setResult c .null) s.world).ongoing := List.mem_cons_self
  obtain ⟨s₁, hl₁, hw₁, hh₁, hx₁⟩ := (hs.leads hl).exists_leads hx rfl
  have hlook : ((Point.cell c (.checkResult (.value .null))).step s.world).next =
      .goto (.cell c (.checkExpired (.value .null))) := by
    simp [Point.step, CellPoint.step, hboth.1]
  rw [show ((s.enter t (.setResult c .null) s.world).world) = s.world from rfl, hlook] at hx₁ hh₁
  obtain ⟨s₂, hl₂, -, hh₂, -⟩ := (hs.leads (hl.trans hl₁)).exists_leads hx₁ rfl
  have hpass : ((Point.cell c (.checkExpired (.value .null))).step s₁.world).next =
      .goto (.cell c (.assign (.value .null))) := by
    rw [hw₁]
    simp [Point.step, CellPoint.step, hboth.2, enter]
  obtain ⟨course, hcourse, hpre, -⟩ := h s₂ (hl.trans (hl₁.trans hl₂)) t s.begun
    (.setResult c .null) (Nat.le_refl _) rfl (by simp [hh₂, hh₁, enter])
  rw [deeds_append hh₂, if_pos rfl, deeds_append hh₁, if_pos rfl,
    deeds_append (s := s) rfl, if_pos rfl, hs.isNumbered.deeds_begun, hpass] at hpre
  cases hcourse <;> simp [Next.ret] at hpre

/-! ### The cell of a completed request -/

/-- Whether the hooks of a cell have yet to end its life in the pass of a request: they are to be
called, or they come to their block. -/
def IsExpiring (s : System) (q : RequestId) (c : CellId) : Prop :=
  .begun ∈ s.stages q ∨ ∃ rest, .hooks rest ∈ s.stages q ∧
    (.hooks c ∈ rest ∨ ∃ x ∈ s.ongoing, x.activation.control = .ready (.cell c .expire))

/-- Whether a failure has stopped the pass of a request before it came to an interceptor. -/
def IsStoppedBefore (s : System) (q : RequestId) (i : Interceptor) : Prop :=
  ∃ rest, .stopped rest ∈ s.milestones q ∧ i ∈ rest

end System

variable {q : RequestId} {a : Activation}

/-- Where a call has come to on the pass of a request, it has expired the cells whose hooks were
called, or is about to. -/
private theorem expired_of_stage (h : a.Closes w) {st : Stage} (hst : st ∈ a.stages q)
    (hc : .hooks c ∈ (w.request q).interceptors) : st = .begun ∨
      (∃ rest, st = .hooks rest ∧ (.hooks c ∈ rest ∨ a.control = .ready (.cell c .expire))) ∨
      (w.cell c).expired = true := by
  obtain ⟨control, frames⟩ := a
  have hclosed (hclosing : w.IsClosing q []) : (w.cell c).expired = true :=
    (hclosing.expired c hc).resolve_left (by simp)
  rcases List.mem_append.mp hst with hst | hst
  · cases control with
    | ready p =>
      have hpoint := h.point p rfl
      simp only [Control.stage?, Option.mem_toList] at hst
      unfold Point.stage? at hst
      split at hst <;> (try cases hst) <;>
        obtain ⟨rfl, ⟨⟩⟩ := Option.ite_none_right_eq_some.mp hst
      · exact .inl rfl
      · exact .inr ((hpoint.expired c hc).imp_left fun hmem => ⟨_, rfl, .inl hmem⟩)
      · exact .inr (.inr (hclosed hpoint))
      · exact .inr (.inr (hclosed hpoint))
      · exact .inr (.inr (hclosed hpoint))
    | inside i => simp [Control.stage?] at hst
    | ended o =>
      cases o with
      | raised e => simp [Control.stage?] at hst
      | returned b =>
        simp only [Control.stage?, Option.mem_toList] at hst
        split at hst
        · obtain ⟨rfl, -⟩ := Option.ite_none_right_eq_some.mp hst
          exact .inr (.inr (hclosed (h.frame _ List.mem_cons_self)))
        · cases hst
  · obtain ⟨f, hf, hst⟩ := List.mem_filterMap.mp hst
    have hframe := h.frame f hf
    unfold Frame.stage? at hst
    split at hst
    · obtain ⟨rfl, ⟨⟩⟩ := Option.ite_none_right_eq_some.mp hst
      rcases hframe.2.2 c hc with hmem | hexpired | hcontrol
      · exact .inr (.inl ⟨_, rfl, .inl hmem⟩)
      · exact .inr (.inr hexpired)
      · exact .inr (.inl ⟨_, rfl, .inr hcontrol⟩)
    · cases hst

namespace System

variable {s s' : System} {m : Move} {allowed : Move → Prop}

/-- Where a failure has stopped the pass of a request, the cells whose hooks were called have
expired. -/
private theorem Reachable.expired_of_stopped (hs : Reachable allowed s) {rest : List Interceptor}
    (h : .stopped rest ∈ s.milestones q) (hc : .hooks c ∈ (s.world.request q).interceptors) :
    .hooks c ∈ rest ∨ (s.world.cell c).expired = true := by
  obtain ⟨s₀, t, j, f, frames, hs₀, hgrows, -, -, hx⟩ := hs.exists_of_stopped h
  obtain ⟨hcompleted, -, hclosed⟩ := (hs₀.closes _ hx).frame _ List.mem_cons_self
  have hq := hs₀.isBounded.world.lt_of_completed hcompleted
  rw [Request.interceptors_eq_of_fixed (hgrows.request q hq).fixed] at hc
  rcases hclosed c hc with hmem | hexpired | hcontrol
  · exact .inl hmem
  · exact .inr (hgrows.expired c hexpired)
  · cases hcontrol

/-- The cell of a completed request refuses every setter that begins from now on exactly if it is
set or has expired. Otherwise the pass of the request has yet to come to the hooks of the cell, or a
failure has stopped it before them. -/
theorem Reachable.refuses_iff (hs : Reachable Move.any s) (hq : s.IsStarted q)
    (hc : (s.world.request q).completed = true) :
    (s.Refuses (s.world.request q).cell ↔
      (s.world.cell (s.world.request q).cell).isSetOrExpired = true) ∧
    (¬ s.Refuses (s.world.request q).cell → s.IsExpiring q (s.world.request q).cell ∨
      s.IsStoppedBefore q (.hooks (s.world.request q).cell)) := by
  refine ⟨⟨hs.isSetOrExpired_of_refuses, hs.refuses_of_isSetOrExpired⟩, fun hopen => ?_⟩
  have hexpired : (s.world.cell (s.world.request q).cell).expired ≠ true := fun he =>
    hopen (hs.refuses_of_isSetOrExpired (by simp [Cell.isSetOrExpired, he]))
  obtain ⟨extra, hextra⟩ := hs.interceptors_of_isStarted hq
  have hmem : .hooks (s.world.request q).cell ∈ (s.world.request q).interceptors := by simp [hextra]
  obtain ⟨st, hst, hpass⟩ := hs.pass q
  cases st with
  | some st =>
    left
    have hin : st ∈ s.stages q := by simp [hst]
    obtain ⟨x, hx, hstage⟩ := List.mem_flatMap.mp hin
    rcases expired_of_stage (hs.closes x hx) hstage hmem with rfl | ⟨rest, rfl, hahead⟩ | he
    · exact .inl hin
    · exact .inr ⟨rest, hin, hahead.imp_right fun hcontrol => ⟨x, hx, hcontrol⟩⟩
    · exact absurd he hexpired
  | none =>
    right
    rcases hs.milestones_of_stages hc hst with ⟨done, rest, -, hm⟩ | hm
    · have hstopped : .stopped rest ∈ s.milestones q := by simp [hm]
      exact ⟨rest, hstopped, (hs.expired_of_stopped hstopped hmem).resolve_right hexpired⟩
    · exact absurd (hs.expired_of_isReleased hq (hs.isReleased_iff.mpr (by simp [hm]))) hexpired

/-- A request is abandoned. -/
def abandoned : List Move :=
  starting ++ .begin 1 (.abandon 0) :: List.replicate 13 (.advance 1) ++ [.finish 1]

theorem refuses_abandoned : ∃ s, run { world := untimed } abandoned = some s ∧
    Reachable Move.any s ∧ s.IsStarted 0 ∧ (s.world.request 0).completed = true ∧
    s.Refuses (s.world.request 0).cell := by
  obtain ⟨s, hs⟩ : ∃ s, run { world := untimed } abandoned = some s := ⟨_, rfl⟩
  have hshown : (run { world := untimed } abandoned).map (fun s =>
      ((s.world.request 0).completed, (s.world.cell (s.world.request 0).cell).isSetOrExpired)) =
        some (true, true) := rfl
  simp only [hs, Option.map_some, Option.some.injEq, Prod.mk.injEq] at hshown
  have hreach : Reachable Move.any s := reachable_of_run isNew_untimed hs
  have hstart : s.IsStarted 0 := isStarted_of_run_starting hs
  exact ⟨s, hs, hreach, hstart, hshown.1, (hreach.refuses_iff hstart hshown.1).1.mpr hshown.2⟩

/-- A request is abandoned, and the completion hook of an interceptor comes before the one of the
cell. -/
def abandoning : List Move :=
  .begin 0 (.start 0 0 (some "d") [.custom "x" "y" "z"]) :: List.replicate 9 (.advance 0) ++
    .finish 0 :: .begin 0 (.abandon 0) :: List.replicate 5 (.advance 0)

/-- A setter that the hook of an interceptor calls. -/
def settingInside : List Move :=
  .begin 0 (.setResult 0 (.text "A")) :: List.replicate 6 (.advance 0) ++
    .answer 0 (.ok .null) :: List.replicate 4 (.advance 0) ++ [.finish 0]

theorem not_refuses_abandoning : ∃ s, run { world := untimed } abandoning = some s ∧
    Reachable Move.any s ∧ s.IsStarted 0 ∧ (s.world.request 0).completed = true ∧
    (∃ s', s.run settingInside = some s' ∧ s'.dispatches 0 = [.value (.text "A")] ∧
      ⟨0, s.begun, .finish (.returned (.flag true))⟩ ∈ s'.history) ∧
    ¬ s.Refuses (s.world.request 0).cell := by
  obtain ⟨s, hs⟩ : ∃ s, run { world := untimed } abandoning = some s := ⟨_, rfl⟩
  have hshown : (run { world := untimed } abandoning).map (fun s => (s.begun,
      s.history.any (Event.starts 0), (s.world.request 0).completed,
      (s.world.cell (s.world.request 0).cell).isSetOrExpired)) = some (2, true, true, false) := rfl
  have hlater : ((run { world := untimed } abandoning).bind fun s => s.run settingInside).map
      (fun s' => (s'.dispatches 0, s'.history.getLast?)) =
        some ([.value (.text "A")], some ⟨0, 2, .finish (.returned (.flag true))⟩) := rfl
  simp only [hs, Option.map_some, Option.some.injEq, Prod.mk.injEq] at hshown
  rw [hs, Option.bind_some] at hlater
  obtain ⟨s', hrun, hs'⟩ := Option.map_eq_some_iff.mp hlater
  obtain ⟨hdispatches, hlast⟩ := Prod.mk.injEq .. ▸ hs'
  have hreach : Reachable Move.any s := reachable_of_run isNew_untimed hs
  refine ⟨s, hs, hreach, hshown.2.1, hshown.2.2.1, ⟨s', hrun, hdispatches, ?_⟩, fun h => ?_⟩
  · rw [hshown.1]
    exact List.mem_of_getLast? hlast
  · have hclosed := hreach.isSetOrExpired_of_refuses h
    simp [hshown.2.2.2] at hclosed

end System

end Rendezvous
