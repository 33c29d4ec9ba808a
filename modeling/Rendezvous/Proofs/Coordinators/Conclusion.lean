import Rendezvous.Proofs.Coordinators.Activation
import Rendezvous.Proofs.Requests.Pass

/-!
# The conclusion of a request

A request that a coordinator started is concluded when every interceptor was told about its
completion, the coordinator has it no longer in flight, and those who wait for it may go on. The
pass of a completed request concludes it, with one exception: a failure that escapes from a
completion hook stops the pass. The request is marked as completed by then, so no other call takes
it up. It stays in flight, and those who wait for it wait forever.

## Main definitions

* `System.IsInFlight`: a coordinator has a request in flight.
* `System.IsConcluded`: all that completion promises is done.
* `Point.IsOwn`: a coordinator activates and retires requests of its own only.

## Main results

* `System.Reachable.inFlight_or_retired`: an activated request is in flight until it is retired.
* `System.Reachable.not_isInFlight_of_retired`: a started request that was retired does not come
  back.
* `System.Reachable.isConcluded_iff`: which requests are concluded when their pass is over, and that
  the others never are.
-/

namespace Rendezvous

/-- Whether a request that is activated or retired at a point listens to the coordinator there. -/
def Point.IsOwn (w : World) : Point → Prop
  | .coordinator k (.activate q) | .coordinator k (.retire q) =>
    (w.request q).listener = .coordinator k
  | _ => True

namespace System

/-- Whether a coordinator has a request in flight. -/
def IsInFlight (s : System) (q : RequestId) : Prop :=
  ∃ k c, (s.world.coordinator k).active.find? c = some q

/-- Whether all interceptors were told about the completion of a request, from the last to the
first, no coordinator has it in flight, and those who wait for it may go on. -/
structure IsConcluded (s : System) (q : RequestId) : Prop where
  hooks : s.completionCalls q = (s.world.request q).interceptors.reverse
  retired : ¬ s.IsInFlight q
  released : s.IsReleased q

end System

variable {w w' : World} {p : Point} {q : RequestId} {k : CoordinatorId}

/-! ### The coordinator of a request -/

private theorem Point.IsOwn.grow (h : p.IsOwn w) (hw : w.Grows w')
    (hq : ∀ q ∈ p.requests, q < w.requestCount) : p.IsOwn w' := by
  unfold IsOwn at h ⊢
  split at h
  · exact (Request.listener_eq_of_fixed (hw.request _
      (hq _ (by simp [requests, CoordinatorPoint.requests]))).fixed).trans h
  · exact (Request.listener_eq_of_fixed (hw.request _
      (hq _ (by simp [requests, CoordinatorPoint.requests]))).fixed).trans h
  · trivial

private theorem Point.isOwn_step {p' : Point} (h : (p.step w).next.point? = some p')
    (hq : ∀ q ∈ p.requests, q < w.requestCount) : p'.IsOwn (p.step w).world := by
  have hgrows := p.grows_step w
  have hway := p.way_step w
  generalize (p.step w).next = n at hway h
  cases hway <;> cases h <;> try trivial
  case draw k c d extra q hnew =>
    rw [hnew, IsOwn, Point.request_step_draw]
    rfl
  case tellCoordinator q k hk =>
    exact (Request.listener_eq_of_fixed
      (hgrows.request q (hq q (by simp [requests]))).fixed).trans hk

namespace System

variable {s s' : System} {m : Move} {allowed : Move → Prop}

/-- A coordinator activates and retires only requests that it will be told about. -/
theorem Reachable.isOwn_of_ready (hs : Reachable allowed s) :
    ∀ x ∈ s.ongoing, ∀ p, x.activation.control = .ready p → p.IsOwn s.world := by
  refine hs.induction (I := fun s => ∀ x ∈ s.ongoing, ∀ p, x.activation.control = .ready p →
    p.IsOwn s.world) (fun _ _ => by simp) fun s m s' hs _ ht ih => ?_
  refine forall_ready_of_transition ht ih
    (fun x hx p hp h => h.grow ht.grows (hs.isBounded.of_ready hx hp)) ?_ (fun _ _ _ _ => trivial)
    ?_ ?_
  · intro t c p _ _ hp
    cases c.enters_of_control hp <;> trivial
  · exact fun t j p frames p' hx hp' _ => Point.isOwn_step hp' (hs.isBounded.of_ready hx rfl)
  · intro t j o f frames p' _ hp'
    have hway := f.way_resume s.world o
    generalize (f.resume s.world o).next = n at hway hp'
    cases hway <;> cases hp' <;> trivial

/-- A coordinator that has a request in flight is the one that the request tells. -/
theorem Reachable.listener_of_find? (hs : Reachable allowed s) {c : CellId}
    (h : (s.world.coordinator k).active.find? c = some q) :
    (s.world.request q).listener = .coordinator k := by
  refine hs.induction (I := fun s => ∀ q, (s.world.coordinator k).active.find? c = some q →
    (s.world.request q).listener = .coordinator k) (fun w hw q h => ?_)
    (fun s m s' hs _ ht ih q h => ?_) q h
  · simp [Directory.find?, hw.active k, Directory.search] at h
  · have hold (h : (s.world.coordinator k).active.find? c = some q) :
        (s'.world.request q).listener = .coordinator k :=
      (Request.listener_eq_of_fixed (ht.grows.request q
        (hs.isBounded.world.active k q (Directory.mem_values_of_find? h))).fixed).trans (ih q h)
    rcases ht.world with ⟨-, -, hcoordinator, -⟩ | ⟨t, j, p, frames, hx, -, hw, -⟩
    · exact hold (hcoordinator k ▸ h)
    · rw [hw] at h
      rcases p.active_step s.world k with ha | ⟨r, rfl, -, ha⟩ | ⟨r, -, -, ha⟩ <;> rw [ha] at h
      · exact hold h
      · rw [Directory.find?_put] at h
        split at h
        · cases h
          have hq := hs.isBounded.of_ready hx rfl q (List.mem_singleton.mpr rfl)
          have hown : (s.world.request q).listener = .coordinator k := hs.isOwn_of_ready _ hx _ rfl
          exact (Request.listener_eq_of_fixed (ht.grows.request q hq).fixed).trans hown
        · exact hold h
      · rw [Directory.find?_erase] at h
        split at h
        · cases h
        · exact hold h

/-- Whether the coordinator that a request tells has it in flight, under the cell of the request. -/
private def IsHeld (s : System) (q : RequestId) : Prop :=
  ∃ k, (s.world.request q).listener = .coordinator k ∧
    (s.world.coordinator k).active.find? (s.world.request q).cell = some q

private theorem Reachable.isHeld_of_isInFlight (hs : Reachable allowed s) (h : s.IsInFlight q) :
    s.IsHeld q := by
  obtain ⟨k, c, hc⟩ := h
  exact ⟨k, hs.listener_of_find? hc, (hs.cell_of_find? hc).symm ▸ hc⟩

/-! ### In flight, then retired -/

private theorem Transition.isHeld_or_retired (hs : Reachable allowed s) (ht : Transition s m s')
    (h : s.IsHeld q) : s'.IsHeld q ∨ .retired ∈ s'.milestones q := by
  obtain ⟨k, hk, hfind⟩ := h
  have hq := hs.isBounded.world.active k q (Directory.mem_values_of_find? hfind)
  have hfixed := (ht.grows.request q hq).fixed
  have hkeep (ha : (s'.world.coordinator k).active.find? (s.world.request q).cell = some q) :
      s'.IsHeld q :=
    ⟨k, (Request.listener_eq_of_fixed hfixed).trans hk, (Request.cell_eq_of_fixed hfixed) ▸ ha⟩
  rcases ht.world with ⟨-, -, hcoordinator, -⟩ | ⟨t, j, p, frames, hx, -, hw, hh, -⟩
  · exact .inl (hkeep (by rwa [hcoordinator]))
  · rcases p.active_step s.world k with ha | ⟨r, rfl, hfree, ha⟩ | ⟨r, rfl, hr, ha⟩
    · exact .inl (hkeep (by rwa [hw, ha]))
    · refine .inl (hkeep ?_)
      rw [hw, ha, Directory.find?_put, if_neg, hfind]
      intro hsame
      simp [Directory.contains, ← hsame, hfind] at hfree
    · by_cases hsame : (s.world.request q).cell = (s.world.request r).cell
      · obtain rfl : r = q := Option.some.inj ((hsame ▸ hr).symm.trans hfind)
        right
        rw [milestones, hh, filterMap_append_cons]
        simp [Event.milestone?]
      · refine .inl (hkeep ?_)
        rw [hw, ha, Directory.find?_erase, if_neg hsame, hfind]

/-- An activated request is in flight until it is retired. -/
theorem Reachable.inFlight_or_retired (hs : Reachable allowed s) (hq : s.IsActivated q) :
    s.IsInFlight q ∨ .retired ∈ s.milestones q := by
  have hheld : s.IsHeld q ∨ .retired ∈ s.milestones q := by
    refine hs.induction (I := fun s => s.IsActivated q → s.IsHeld q ∨ .retired ∈ s.milestones q)
      (fun w hw hq => by cases hq) (fun s m s' hs _ ht ih hq => ?_) hq
    rcases ht.activated hq with hq | ⟨t, j, i, frames, hx, hfree, hw, -⟩
    · rcases ih hq with h | h
      · exact ht.isHeld_or_retired hs h
      · exact .inr (ht.milestones_subset q h)
    · left
      have hlt := hs.isBounded.of_ready hx rfl q (List.mem_singleton.mpr rfl)
      have hfixed := (ht.grows.request q hlt).fixed
      refine ⟨i, (Request.listener_eq_of_fixed hfixed).trans (hs.isOwn_of_ready _ hx _ rfl), ?_⟩
      rw [Request.cell_eq_of_fixed hfixed, hw]
      simp [Point.step, CoordinatorPoint.step, hfree, Directory.find?_put]
  exact hheld.imp_left fun h => h.imp fun _ hk => ⟨_, hk.2⟩

/-- A request that its coordinator retires is in flight no longer. -/
private theorem not_isHeld_of_retire (hs : Reachable allowed s) (ht : Transition s m s')
    {i : CoordinatorId} {t : ThreadId} {j : CallNumber} {n : Next}
    (hh : s'.history = s.history ++ [⟨t, j, .step (.coordinator i (.retire q)) n⟩]) :
    ¬ s'.IsHeld q := by
  obtain ⟨newer, older, frames, he, -, -, -, rfl⟩ := ht.exists_of_step hh
  have hx : ⟨t, j, ⟨.ready (.coordinator i (.retire q)), frames⟩⟩ ∈ s.ongoing := he ▸ by simp
  have hown : (s.world.request q).listener = .coordinator i := hs.isOwn_of_ready _ hx _ rfl
  rintro ⟨k, hk, hfind⟩
  simp only [proceed, Point.step, CoordinatorPoint.step] at hk hfind
  split at hk
  · rename_i hin
    rw [if_pos hin] at hfind
    rw [World.request_setCoordinator, hown] at hk
    cases hk
    simp [Directory.find?_erase] at hfind
  · rename_i hout
    rw [if_neg hout] at hfind
    rw [hown] at hk
    cases hk
    exact hout hfind

/-- A request that was activated before, and is not in flight, is not afterwards. -/
private theorem not_isHeld_of_transition (hs : Reachable allowed s) (ht : Transition s m s')
    (hq : s.IsActivated q) (h : ¬ s.IsHeld q) : ¬ s'.IsHeld q := by
  rintro ⟨k, hk, hfind⟩
  have hfixed := (ht.grows.request q (hs.lt_of_isActivated hq)).fixed
  rw [Request.listener_eq_of_fixed hfixed] at hk
  rw [Request.cell_eq_of_fixed hfixed] at hfind
  have hold : (s.world.coordinator k).active.find? (s.world.request q).cell ≠ some q :=
    fun hfind => h ⟨k, hk, hfind⟩
  rcases ht.world with ⟨-, -, hcoordinator, -⟩ | ⟨t, j, p, frames, hx, -, hw, -⟩
  · exact hold (hcoordinator k ▸ hfind)
  · rw [hw] at hfind
    rcases p.active_step s.world k with ha | ⟨r, rfl, -, ha⟩ | ⟨r, -, -, ha⟩ <;> rw [ha] at hfind
    · exact hold hfind
    · rw [Directory.find?_put] at hfind
      split at hfind
      · cases hfind
        exact hs.not_isActivated hx rfl hq
      · exact hold hfind
    · rw [Directory.find?_erase] at hfind
      split at hfind
      · cases hfind
      · exact hold hfind

/-- What is done on the pass of a request is done when the request is completed. -/
theorem Reachable.completed_of_mem (hs : Reachable allowed s) {mile : Milestone}
    (h : mile ∈ s.milestones q) : (s.world.request q).completed = true := by
  obtain ⟨st, -, hpass⟩ := hs.pass q
  exact hs.completed_iff.mpr (hpass.eq_nil_or_mem.resolve_left (List.ne_nil_of_mem h))

/-- A started request that was retired does not come back. -/
theorem Reachable.not_isInFlight_of_retired (hs : Reachable allowed s) (hq : s.IsStarted q)
    (hr : .retired ∈ s.milestones q) : ¬ s.IsInFlight q := by
  intro h
  refine hs.induction (I := fun s => s.IsStarted q → .retired ∈ s.milestones q → ¬ s.IsHeld q)
    (fun w hw _ hr => by cases hr) (fun s m s' hs _ ht ih hq hr => ?_) hq hr
    (hs.isHeld_of_isInFlight h)
  rcases ht.mem_milestones hr with hr | ⟨⟨t, j, d⟩, hh, he⟩
  · have hc := hs.completed_of_mem hr
    have hstart := ht.isStarted_of_lt (hs.isBounded.world.lt_of_completed hc) hq
    exact not_isHeld_of_transition hs ht (hs.isActivated_of_completed hstart hc) (ih hstart hr)
  · unfold Event.milestone? at he
    split at he <;> simp at he
    rename_i i r n hd
    obtain rfl : d = _ := hd
    subst he
    exact not_isHeld_of_retire hs ht hh

/-! ### When the pass is over -/

/-- Where a failure has stopped the pass, nothing further is done on it. -/
private theorem Reachable.milestones_of_isStopped (hs : Reachable allowed s)
    (hc : (s.world.request q).completed = true) (h : s.IsStopped q) :
    ∃ (done rest : List Interceptor),
      s.milestones q = .completed :: done.map .called ++ [.stopped rest] := by
  rcases hs.milestones_of_stages hc (hs.stages_of_isStopped h) with ⟨done, rest, -, hm⟩ | hm
  · exact ⟨done, rest, hm⟩
  · obtain ⟨rest, hrest⟩ := h
    rw [hm] at hrest
    cases hl : (s.world.request q).listener <;>
      simp [Request.hooked, Listener.milestones, hl] at hrest

/-- A request whose pass was stopped is in flight and not released. -/
private theorem Reachable.stranded_of_isStopped (hs : Reachable allowed s) (hq : s.IsStarted q)
    (h : s.IsStopped q) : s.IsInFlight q ∧ ¬ s.IsReleased q := by
  obtain ⟨rest, hrest⟩ := h
  have hc := hs.completed_of_mem hrest
  obtain ⟨done, rest', hm⟩ := hs.milestones_of_isStopped hc ⟨rest, hrest⟩
  refine ⟨(hs.inFlight_or_retired (hs.isActivated_of_completed hq hc)).resolve_right ?_, ?_⟩
  · simp [hm]
  · rw [hs.isReleased_iff]
    simp [hm]

/-- Nothing further is done on the pass of a request that was stopped. -/
private theorem Leads.milestones_eq (hs : Reachable allowed s) (hl : Leads allowed s s')
    (h : s.IsStopped q) : s'.milestones q = s.milestones q := by
  obtain ⟨rest, hrest⟩ := h
  have hgrown : s.milestones q <+: s'.milestones q := hl.history_prefix.filterMap _
  obtain ⟨done, rest', hm⟩ := (hs.leads hl).milestones_of_isStopped
    ((hs.leads hl).completed_of_mem (hgrown.subset hrest)) ⟨rest, hgrown.subset hrest⟩
  rw [hm] at hgrown ⊢
  rcases List.prefix_concat_iff.mp hgrown with he | hbefore
  · exact he.symm
  · have hmem := hbefore.subset hrest
    simp at hmem

private theorem Leads.isStopped (hl : Leads allowed s s') (h : s.IsStopped q) : s'.IsStopped q := by
  obtain ⟨rest, hrest⟩ := h
  obtain ⟨e, he, hmile⟩ := List.mem_filterMap.mp hrest
  exact ⟨rest, List.mem_filterMap.mpr ⟨e, hl.history_prefix.subset he, hmile⟩⟩

/-- When the call that completed a started request has ended, or has left the pass with a failure,
the request is concluded exactly if no failure stopped the pass. A stopped request never is: no
further interceptor is told, it stays in flight, and those who wait for it are never released. -/
theorem Reachable.isConcluded_iff (hs : Reachable Move.any s) (hq : s.IsStarted q)
    (hc : (s.world.request q).completed = true) (hover : s.stages q = []) :
    (s.IsConcluded q ↔ ¬ s.IsStopped q) ∧
    (s.IsStopped q → ∀ s', Leads Move.any s s' →
      s'.completionCalls q = s.completionCalls q ∧ s'.IsInFlight q ∧ ¬ s'.IsReleased q) := by
  refine ⟨⟨fun h hstop => (hs.stranded_of_isStopped hq hstop).2 h.released, fun h => ?_⟩,
    fun h s' hl => ⟨?_, (hs.leads hl).stranded_of_isStopped (hl.isStarted hq) (hl.isStopped h)⟩⟩
  · rcases hs.milestones_of_stages hc hover with ⟨done, rest, -, hm⟩ | hm
    · exact absurd ⟨rest, by simp [hm]⟩ h
    · obtain ⟨k, hk⟩ := hs.listener_of_isStarted hq
      refine ⟨?_, hs.not_isInFlight_of_retired hq ?_, hs.isReleased_iff.mpr ?_⟩
      · rw [completionCalls_eq, hm]
        simp [Request.hooked, hk, Listener.milestones, List.filterMap_cons, Milestone.call?]
      · simp [hm, hk, Listener.milestones]
      · simp [hm]
  · rw [completionCalls_eq, completionCalls_eq, Leads.milestones_eq hs hl h]

theorem isConcluded_answered : ∃ s, run { world := untimed } answered = some s ∧
    Reachable Move.any s ∧ s.IsStarted 0 ∧ (s.world.request 0).completed = true ∧
    s.stages 0 = [] ∧ s.IsConcluded 0 := by
  obtain ⟨s, hs⟩ : ∃ s, run { world := untimed } answered = some s := ⟨_, rfl⟩
  have hshown : (run { world := untimed } answered).map (fun s =>
      ((s.world.request 0).completed, s.stages 0, s.milestones 0)) =
        some (true, [], [.completed, .called (.hooks 0), .retired, .released]) := rfl
  simp only [hs, Option.map_some, Option.some.injEq, Prod.mk.injEq] at hshown
  obtain ⟨hc, hover, hm⟩ := hshown
  have hreach : Reachable Move.any s := reachable_of_run isNew_untimed hs
  have hstart : s.IsStarted 0 := isStarted_of_run_starting hs
  refine ⟨s, hs, hreach, hstart, hc, hover, (hreach.isConcluded_iff hstart hc hover).1.mpr ?_⟩
  rintro ⟨rest, hrest⟩
  simp [hm] at hrest

/-- A request is abandoned, and a failure escapes from the completion hook of an interceptor. -/
def interrupted : List Move :=
  .begin 0 (.start 0 0 (some "d") [.custom "x" "y" "z"]) :: List.replicate 9 (.advance 0) ++
    .finish 0 :: .begin 0 (.abandon 0) :: List.replicate 5 (.advance 0) ++
    .answer 0 (.error (.escaping "KeyboardInterrupt" "stop")) :: .advance 0 :: [.finish 0]

theorem not_isConcluded_interrupted : ∃ s, run { world := untimed } interrupted = some s ∧
    Reachable Move.any s ∧ s.IsIdle ∧ s.IsStarted 0 ∧ (s.world.request 0).completed = true ∧
    s.stages 0 = [] ∧ (∃ i ∈ (s.world.request 0).interceptors, i ∉ s.completionCalls 0) ∧
    s.IsInFlight 0 ∧ ¬ s.IsReleased 0 ∧ ¬ s.IsConcluded 0 := by
  obtain ⟨s, hs⟩ : ∃ s, run { world := untimed } interrupted = some s := ⟨_, rfl⟩
  have hshown : (run { world := untimed } interrupted).map (fun s =>
      (s.ongoing, s.history.any (Event.starts 0), (s.world.request 0).completed, s.stages 0,
        (s.world.request 0).interceptors, s.completionCalls 0,
        (s.world.coordinator 0).active.find? 0, (s.world.request 0).released)) =
        some ([], true, true, [], [.hooks 0, .custom "x" "y" "z"], [.custom "x" "y" "z"], some 0,
          false) := rfl
  simp only [hs, Option.map_some, Option.some.injEq, Prod.mk.injEq] at hshown
  obtain ⟨hongoing, hstart, hc, hover, hinterceptors, hcalls, hfind, hreleased⟩ := hshown
  have hwaits : ¬ s.IsReleased 0 := fun h => by simp [IsReleased, hreleased] at h
  refine ⟨s, hs, reachable_of_run isNew_untimed hs,
    by simp [IsIdle, hongoing], hstart, hc, hover, ⟨.hooks 0, ?_, ?_⟩, ⟨0, 0, hfind⟩, hwaits,
    fun h => hwaits h.released⟩
  · simp [hinterceptors]
  · simp [hcalls]

end System

end Rendezvous
