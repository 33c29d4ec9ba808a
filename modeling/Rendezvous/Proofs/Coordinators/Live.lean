import Rendezvous.Proofs.Coordinators.Retirement
import Rendezvous.Proofs.Coordinators.Service

/-!
# Live requests

A request is live while it waits in a cell that can still be resolved. When no call is in progress,
a request that a start returned and that is not completed is live exactly if its cell is not spent.
A cell can be spent before the start registers the request: the start looks whether the cell has
expired, and another request on the cell may be started, completed and retired before this one is
activated. The registration is then ignored, and the request stays in flight on an expired cell.

## Main definitions

* `System.IsLive`: a request waits in a cell that can still be resolved.

## Main results

* `System.Reachable.isServed_of_isPending`: an activated request is served by a call, or waits in
  its cell, or is completed, or its cell has expired, or it cannot be timed.
* `System.Reachable.isLive_iff`: which requests are live when no call is in progress, and that the
  resolution of its cell completes a live one.
-/

namespace Rendezvous

/-- Whether a request waits in a cell that can still be resolved. -/
structure System.IsLive (s : System) (q : RequestId) : Prop where
  result : (s.world.cell (s.world.request q).cell).result = none
  expired : (s.world.cell (s.world.request q).cell).expired = false
  handler : (s.world.cell (s.world.request q).cell).handler = some (.request q)

variable {k : CoordinatorId} {q : RequestId}

namespace System

variable {s s' : System} {m : Move}

/-- Only the request in flight on a cell that has not expired is registered there. -/
private theorem Reachable.registersOnly_of_isActivated (hs : Reachable (Move.IsOrderly k) s)
    (hq : s.IsActivated q) (he : (s.world.cell (s.world.request q).cell).expired = false) :
    s.RegistersOnly (s.world.request q).cell q := by
  intro x hx h hp
  have howns := hs.owns_of_ready hx hp
  have horderly := (hs.isOrderly_of_mem hx).point _ hp
  cases h with
  | callback id => exact horderly.elim
  | request r =>
    have hmem : r ∈ (Point.cell (s.world.request q).cell (.register (.request r))).requests :=
      List.mem_singleton.mpr rfl
    have hr : s.IsActivated r := (hs.isActivated_of_ready hx hp hmem
      (hs.isStarted_of_lt (hs.isBounded.of_ready hx hp r hmem))).resolve_left (by rintro ⟨⟩)
    have hrc : (s.world.request r).cell = (s.world.request q).cell := howns
    have hinFlight := hs.inFlight_or_expired hq
    have hinFlight' := hs.inFlight_or_expired hr
    rw [he] at hinFlight
    rw [hrc, he] at hinFlight'
    have hsame := (hinFlight.resolve_right (by simp)).symm.trans
      (hinFlight'.resolve_right (by simp))
    exact congrArg Handler.request (Option.some.inj hsame.symm)

/-- An activated request is served by a call, or waits in its cell, or is completed, or its cell has
expired, or it cannot be timed. -/
theorem Reachable.isServed_of_isPending (hs : Reachable (Move.IsOrderly k) s)
    (h : s.IsPending q) : s.IsServed q :=
  hs.induction (I := fun s => s.IsPending q → s.IsServed q) (fun _ _ h => by cases h.activated)
    (fun _ _ _ hs _ ht ih h => ht.isServed hs hs.registersOnly_of_isActivated ih h) h

/-! ### From the cell to the completion -/

/-- Whether a request that waited in its cell is completed or still will be, unless its cell expires
without a resolution. -/
private def IsHandled (s : System) (q : RequestId) : Prop :=
  (s.world.request q).completed = true ∨ (∃ x ∈ s.ongoing, x.activation.Delivers q) ∨
    (s.world.cell (s.world.request q).cell).handler = some (.request q) ∨
    (s.world.cell (s.world.request q).cell).expired = true ∧
      (s.world.cell (s.world.request q).cell).result = none

private theorem isHandled_of_transition (hs : Reachable (Move.IsOrderly k) s)
    (ht : Transition s m s') (hq : q < s.world.requestCount) (h : s.IsHandled q) :
    s'.IsHandled q := by
  have hgrows := ht.grows.request q hq
  rw [IsHandled, Request.cell_eq_of_fixed hgrows.fixed]
  rcases h with hc | hx | hh | ⟨he, hr⟩
  · exact .inl (hgrows.completed hc)
  · exact (ht.delivers hx).elim (fun h => .inr (.inl h)) .inl
  · have hstart := hs.isStarted_of_lt (hs.isBounded.world.handler _ q hh)
    have hactivated := hs.isActivated_of_handler hh hstart
    exact .inr (ht.waits hs (hs.registersOnly_of_isActivated hactivated) hh)
  · refine .inr (.inr (.inr ⟨ht.grows.expired _ he, ?_⟩))
    rcases ht.world with ⟨-, hcell, -⟩ | ⟨t, j, p, frames, -, -, hw, -⟩
    · rw [hcell, hr]
    · rw [hw, Point.result_step_of_expired _ _ he, hr]

/-- A request that waited in its cell is completed once the cell has a resolution and no call is in
progress. -/
private theorem Leads.completed_of_result (hs : Reachable (Move.IsOrderly k) s)
    (hh : (s.world.cell (s.world.request q).cell).handler = some (.request q))
    (hl : Leads (Move.IsOrderly k) s s') (hi : s'.IsIdle)
    (hr : (s'.world.cell (s.world.request q).cell).result.isSome = true) :
    (s'.world.request q).completed = true := by
  have hlt := hs.isBounded.world.handler _ q hh
  have hcell := Request.cell_eq_of_fixed (hl.grows.request q hlt).fixed
  have hhandled : s'.IsHandled q := by
    clear hi hr hcell
    induction hl with
    | refl => exact .inr (.inr (.inl hh))
    | move m hl hm ht ih =>
      exact isHandled_of_transition (hs.leads hl) (transition_of_take? ht)
        (Nat.lt_of_lt_of_le hlt hl.grows.requestCount) ih
  rw [IsHandled, hcell] at hhandled
  rcases hhandled with hc | ⟨x, hx, h⟩ | hh | ⟨-, hnone⟩
  · exact hc
  · obtain ⟨r, hwait⟩ := hi x hx
    exact absurd (.delivers _ (hwait ▸ h)) (Call.not_serves_wait r)
  · have hopen := (hs.leads hl).settled (s.world.request q).cell (by simp [hh])
    simp [Cell.isSetOrExpired, hr] at hopen
  · simp [hnone] at hr

/-! ### When no call is in progress -/

/-- An activated request that is not completed is live exactly if its cell is not spent and it can
be timed. -/
private theorem Reachable.isLive_iff_of_isActivated (hs : Reachable (Move.IsOrderly k) s)
    (hi : s.IsIdle) (hq : s.IsActivated q) (hc : (s.world.request q).completed = false) :
    s.IsLive q ↔ ¬ s.world.IsSpent (s.world.request q).cell ∧
      (s.world.request q).CanBeTimed s.world.clock := by
  rw [hs.isSpent_iff hi, Bool.not_eq_true]
  constructor
  · exact fun h => ⟨h.expired, hs.canBeTimed_of_handler h.handler⟩
  · intro ⟨he, ht⟩
    have hh := (hs.isServed_of_isPending ⟨hq, hc, he, ht⟩).waits hi
    have hopen := hs.settled (s.world.request q).cell (by simp [hh])
    simp only [Cell.isSetOrExpired, Bool.or_eq_false_iff, Option.isSome_eq_false_iff,
      Option.isNone_iff_eq_none] at hopen
    exact ⟨hopen.1, he, hh⟩

/-- When no call is in progress, a request that a start returned and that is not completed is live
exactly if its cell is not spent. The request in flight on a cell is not completed, and is live
exactly if the cell is not spent and the timeout of the request can be counted. A live request is
completed once its cell has taken a resolution and no call is in progress. -/
theorem Reachable.isLive_iff (hs : Reachable (Move.IsOrderly k) s) (hi : s.IsIdle) :
    (∀ q ∈ s.known, (s.world.request q).completed = false →
      (s.IsLive q ↔ ¬ s.world.IsSpent (s.world.request q).cell)) ∧
    (∀ c q, (s.world.coordinator k).active.find? c = some q →
      (s.world.request q).cell = c ∧ (s.world.request q).completed = false ∧
        (s.IsLive q ↔ ¬ s.world.IsSpent c ∧ (s.world.request q).CanBeTimed s.world.clock)) ∧
    ∀ q, s.IsLive q → ∀ s', Leads (Move.IsOrderly k) s s' → s'.IsIdle →
      (s'.world.cell (s.world.request q).cell).result.isSome = true →
      (s'.world.request q).completed = true := by
  refine ⟨fun q hq hc => ?_, fun c q h => ?_, fun q hlive s' hl hi' hr => ?_⟩
  · have hstart := hs.isStarted_of_lt (hs.isBounded.known q hq)
    rw [hs.isLive_iff_of_isActivated hi (hs.isActivated_of_known hq hstart) hc]
    exact and_iff_left (hs.canBeTimed_of_known hq hstart)
  · have hcell := hs.cell_of_find? h
    have hc : (s.world.request q).completed = false := Bool.eq_false_iff.mpr fun hc =>
      (hs.retired_of_completed hi hc).1 (hcell ▸ h)
    have hstart := hs.isStarted_of_lt
      (hs.isBounded.world.active k q (Directory.mem_values_of_find? h))
    refine ⟨hcell, hc, ?_⟩
    rw [hs.isLive_iff_of_isActivated hi (hs.isActivated_of_find? h hstart) hc, hcell]
  · exact Leads.completed_of_result hs hlive.handler hl hi' hr

private theorem isOrderly_of_mem_answered : ∀ m ∈ answered, m.IsOrderly 0 := by
  simp [answered, starting, Move.IsOrderly, Call.IsOrderly]

theorem isLive_starting : ∃ s s', run { world := untimed } starting = some s ∧
    Leads (Move.IsOrderly 0) s s' ∧ 0 ∈ s.known ∧
    (s.world.coordinator 0).active.find? 0 = some 0 ∧ (s.world.request 0).CanBeTimed s.world.clock ∧
    s.IsLive 0 ∧ (s'.world.request 0).completed = true := by
  obtain ⟨s, hs⟩ : ∃ s, run { world := untimed } starting = some s := ⟨_, rfl⟩
  obtain ⟨s', hs'⟩ : ∃ s', run { world := untimed } answered = some s' := ⟨_, rfl⟩
  have hshown : (run { world := untimed } starting).map (fun s => (s.ongoing, s.known,
      (s.world.coordinator 0).active.find? 0, (s.world.request 0).completed,
      (s.world.request 0).cell, (s.world.cell 0).expired)) =
        some ([], [0], some 0, false, 0, false) := rfl
  have hshown' : (run { world := untimed } answered).map (fun s => (s.ongoing,
      (s.world.cell 0).result)) = some ([], some (.value (.text "A"))) := rfl
  simp only [hs, Option.map_some, Option.some.injEq, Prod.mk.injEq] at hshown
  simp only [hs', Option.map_some, Option.some.injEq, Prod.mk.injEq] at hshown'
  obtain ⟨hongoing, hknown, hfind, hcompleted, hcell, hexpired⟩ := hshown
  obtain ⟨hongoing', hresult⟩ := hshown'
  have hsplit : answered = starting ++ answered.drop starting.length := rfl
  have hreach : Reachable (Move.IsOrderly 0) s := ⟨untimed, isNew_untimed, leads_of_run
    (fun m hm => isOrderly_of_mem_answered m (hsplit ▸ List.mem_append_left _ hm)) hs⟩
  have hl : Leads (Move.IsOrderly 0) s s' := by
    rw [hsplit, run_append, hs, Option.bind_some] at hs'
    exact leads_of_run
      (fun m hm => isOrderly_of_mem_answered m (hsplit ▸ List.mem_append_right _ hm)) hs'
  have hi : s.IsIdle := by simp [IsIdle, hongoing]
  have hspent : ¬ s.world.IsSpent (s.world.request 0).cell := by
    rw [hreach.isSpent_iff hi, hcell, hexpired]
    exact Bool.false_ne_true
  obtain ⟨hreturned, hinFlight, hlater⟩ := hreach.isLive_iff hi
  have hlive : s.IsLive 0 := (hreturned 0 (by simp [hknown]) hcompleted).mpr hspent
  refine ⟨s, s', hs, hl, by simp [hknown], hfind, ((hinFlight 0 0 hfind).2.2.mp hlive).2, hlive, ?_⟩
  exact hlater 0 hlive s' hl (by simp [IsIdle, hongoing']) (by simp [hcell, hresult])

/-- A start looks at a cell, and before it goes on, another request on the cell is started and
answered. -/
def completedMeanwhile : List Move :=
  .begin 2 (.start 0 0 (some "e") []) :: .advance 2 :: answered ++
    List.replicate 7 (.advance 2) ++ [.finish 2]

private theorem isOrderly_of_mem_completedMeanwhile : ∀ m ∈ completedMeanwhile, m.IsOrderly 0 := by
  simp [completedMeanwhile, answered, starting, Move.IsOrderly, Call.IsOrderly]

theorem not_isLive_completedMeanwhile :
    ∃ s, run { world := untimed } completedMeanwhile = some s ∧
      Reachable (Move.IsOrderly 0) s ∧ s.IsIdle ∧ 1 ∈ s.known ∧
      (s.world.request 1).completed = false ∧
      (s.world.coordinator 0).active.find? 0 = some 1 ∧ ¬ s.IsLive 1 := by
  obtain ⟨s, hs⟩ : ∃ s, run { world := untimed } completedMeanwhile = some s := ⟨_, rfl⟩
  have hshown : (run { world := untimed } completedMeanwhile).map (fun s => (s.ongoing, s.known,
      (s.world.request 1).completed, (s.world.coordinator 0).active.find? 0,
      (s.world.cell (s.world.request 1).cell).expired)) =
        some ([], [0, 1], false, some 1, true) := rfl
  simp only [hs, Option.map_some, Option.some.injEq, Prod.mk.injEq] at hshown
  obtain ⟨hongoing, hknown, hcompleted, hfind, hexpired⟩ := hshown
  refine ⟨s, hs, ⟨untimed, isNew_untimed, leads_of_run isOrderly_of_mem_completedMeanwhile hs⟩,
    by simp [IsIdle, hongoing], by simp [hknown], hcompleted, hfind, fun hlive => ?_⟩
  exact Bool.false_ne_true (hlive.expired.symm.trans hexpired)

end System

end Rendezvous
