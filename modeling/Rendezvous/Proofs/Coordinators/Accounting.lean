import Rendezvous.Proofs.Requests.CompletionOrder
import Rendezvous.Proofs.Threads.Undisturbed

/-!
# The requests in flight

The requests that a coordinator has in flight are those that it registered and has not retired, in
the order of their registration. Registrations are steps of starts, and a request is retired by the
call that completed it, so the requests in flight of a cell are at most one, and the others that
tell the coordinator about their end, because they were made without a start, change nothing there.
Between the completion of a request and its retirement the two accounts differ: a completed request
is still in flight. They agree when no call is in progress, unless a failure that escaped from a
completion hook stranded a request on the way.

## Main definitions

* `System.registrations`, `System.retirements`: the requests that a coordinator registered, and
  those that it was told to retire.
* `System.outstanding`: the registered requests that are not completed.

## Main results

* `System.Reachable.entries_active`: the requests in flight are those registered and not retired.
* `System.Reachable.exists_start_of_registered`: registrations are steps of starts.
* `System.Reachable.active_accounting`: the requests in flight at every moment, and when no call is
  in progress.
-/

namespace Rendezvous

/-- The request that a coordinator registers in an event. -/
def Event.registration? (k : CoordinatorId) : Event → Option RequestId :=
  ofStep fun _ p n => match p, n with
    | .coordinator j (.activate q), .goto _ => if j = k then some q else none
    | _, _ => none

/-- The request that a coordinator is told to retire in an event. -/
def Event.retirement? (k : CoordinatorId) : Event → Option RequestId :=
  ofStep fun _ p _ => match p with
    | .coordinator j (.retire q) => if j = k then some q else none
    | _ => none

namespace System

/-- The requests that a coordinator has registered, in order. -/
def registrations (s : System) (k : CoordinatorId) : List RequestId :=
  s.history.filterMap (Event.registration? k)

/-- The requests that a coordinator was told to retire, in order. -/
def retirements (s : System) (k : CoordinatorId) : List RequestId :=
  s.history.filterMap (Event.retirement? k)

/-- The requests that a coordinator has registered and that are not completed, in order. -/
def outstanding (s : System) (k : CoordinatorId) : List RequestId :=
  (s.registrations k).filter fun q => !(s.world.request q).completed

end System

variable {w : World} {p : Point} {k : CoordinatorId} {q : RequestId} {t : ThreadId}
  {j : CallNumber}

/-! ### What a step does -/

private theorem Event.registration?_eq_some {e : Event} : e.registration? k = some q ↔
    ∃ p, e.deed = .step (.coordinator k (.activate q)) (.goto p) := by
  obtain ⟨t, j, d⟩ := e
  constructor
  · intro h
    unfold registration? ofStep at h
    split at h
    · dsimp only at h
      split at h
      · obtain ⟨rfl, ⟨⟩⟩ := Option.ite_none_right_eq_some.mp h
        exact ⟨_, ‹_›⟩
      · cases h
    · cases h
  · rintro ⟨p, rfl⟩
    exact if_pos rfl

private theorem Event.retirement?_eq_some {e : Event} : e.retirement? k = some q ↔
    ∃ n, e.deed = .step (.coordinator k (.retire q)) n := by
  obtain ⟨t, j, d⟩ := e
  constructor
  · intro h
    unfold retirement? ofStep at h
    split at h
    · dsimp only at h
      split at h
      · obtain ⟨rfl, ⟨⟩⟩ := Option.ite_none_right_eq_some.mp h
        exact ⟨_, ‹_›⟩
      · cases h
    · cases h
  · rintro ⟨n, rfl⟩
    exact if_pos rfl

private theorem Event.views_eq_none {n : Next} (hactivate : ∀ q, p ≠ .coordinator k (.activate q))
    (hretire : ∀ q, p ≠ .coordinator k (.retire q)) :
    registration? k ⟨t, j, .step p n⟩ = none ∧ retirement? k ⟨t, j, .step p n⟩ = none := by
  constructor
  · simp only [registration?, ofStep]
    split
    · rename_i i q _
      have hi : i ≠ k := fun h => hactivate q (by rw [h])
      exact if_neg hi
    · rfl
  · simp only [retirement?, ofStep]
    split
    · rename_i i q
      have hi : i ≠ k := fun h => hretire q (by rw [h])
      exact if_neg hi
    · rfl

/-- To retire a request takes its own entry away, and no other one. -/
private theorem Point.entries_retire (w : World) (k : CoordinatorId) (q : RequestId)
    (hw : (w.coordinator k).active.keys.Nodup) :
    (((Point.coordinator k (.retire q)).step w).world.coordinator k).active.entries =
      (w.coordinator k).active.entries.filter (· ≠ ((w.request q).cell, q)) := by
  simp only [step, CoordinatorPoint.step]
  split
  · rename_i h
    rw [World.coordinator_setCoordinator, if_pos rfl]
    exact Directory.entries_erase hw h
  · rename_i h
    rw [Directory.find?_eq_some_iff hw] at h
    refine (List.filter_eq_self.mpr fun e he => decide_eq_true ?_).symm
    rintro rfl
    exact h he

/-- A step registers a request on a cell that has none in flight, or retires a request, and no
other one leaves, or it leaves the requests in flight as they are. -/
private theorem Point.accounts_step (w : World) (p : Point) (k : CoordinatorId) (t : ThreadId)
    (j : CallNumber) (hw : (w.coordinator k).active.keys.Nodup) :
    (∃ q, p = .coordinator k (.activate q) ∧
      Event.registration? k ⟨t, j, .step p (p.step w).next⟩ = some q ∧
      Event.retirement? k ⟨t, j, .step p (p.step w).next⟩ = none ∧
      ((p.step w).world.coordinator k).active.entries =
        (w.coordinator k).active.entries ++ [((w.request q).cell, q)]) ∨
    (∃ q, p = .coordinator k (.retire q) ∧
      Event.registration? k ⟨t, j, .step p (p.step w).next⟩ = none ∧
      Event.retirement? k ⟨t, j, .step p (p.step w).next⟩ = some q ∧
      ((p.step w).world.coordinator k).active.entries =
        (w.coordinator k).active.entries.filter (· ≠ ((w.request q).cell, q))) ∨
    Event.registration? k ⟨t, j, .step p (p.step w).next⟩ = none ∧
      Event.retirement? k ⟨t, j, .step p (p.step w).next⟩ = none ∧
      ((p.step w).world.coordinator k).active = (w.coordinator k).active := by
  by_cases hactivate : ∃ q, p = .coordinator k (.activate q)
  · obtain ⟨q, rfl⟩ := hactivate
    cases hc : (w.coordinator k).active.contains (w.request q).cell with
    | false =>
      refine .inl ⟨q, rfl, ?_, rfl, ?_⟩
      · rw [Point.next_activate hc]
        simp [Event.registration?, Event.ofStep]
      · simp [step, CoordinatorPoint.step, hc, Directory.entries_put hc]
    | true =>
      refine .inr (.inr ⟨?_, rfl, ?_⟩) <;>
        simp [step, CoordinatorPoint.step, hc, Event.registration?, Event.ofStep, Next.fail]
  · by_cases hretire : ∃ q, p = .coordinator k (.retire q)
    · obtain ⟨q, rfl⟩ := hretire
      exact .inr (.inl ⟨q, rfl, rfl, by simp [Event.retirement?, Event.ofStep],
        entries_retire w k q hw⟩)
    · obtain ⟨hnew, hold⟩ := Event.views_eq_none (t := t) (j := j) (n := (p.step w).next)
        (fun q h => hactivate ⟨q, h⟩) fun q h => hretire ⟨q, h⟩
      refine .inr (.inr ⟨hnew, hold, ?_⟩)
      rcases p.active_step w k with h | ⟨q, h, -⟩ | ⟨q, h, -⟩
      · exact h
      · exact absurd ⟨q, h⟩ hactivate
      · exact absurd ⟨q, h⟩ hretire

namespace System

variable {s s' : System} {m : Move} {allowed : Move → Prop}

/-- No two requests are in flight under the same cell. -/
theorem Reachable.nodup_keys (hs : Reachable allowed s) (k : CoordinatorId) :
    (s.world.coordinator k).active.keys.Nodup := by
  refine hs.induction (I := fun s => (s.world.coordinator k).active.keys.Nodup)
    (fun w hw => by simp [Directory.keys, hw.active k]) fun s m s' _ _ ht ih => ?_
  rcases ht.world with ⟨-, -, hcoordinator, -⟩ | ⟨t, j, p, frames, -, -, hw, -⟩
  · exact hcoordinator k ▸ ih
  · rw [hw]
    rcases p.active_step s.world k with h | ⟨q, -, hc, h⟩ | ⟨q, -, -, h⟩ <;> rw [h]
    · exact ih
    · exact Directory.nodup_keys_put ih hc
    · exact Directory.nodup_keys_erase ih

theorem registrations_append {e : Event} (hh : s'.history = s.history ++ [e]) :
    s'.registrations k = s.registrations k ++ (e.registration? k).toList := by
  rw [registrations, hh, filterMap_append_cons, List.filterMap_nil, List.append_nil]
  rfl

theorem retirements_append {e : Event} (hh : s'.history = s.history ++ [e]) :
    s'.retirements k = s.retirements k ++ (e.retirement? k).toList := by
  rw [retirements, hh, filterMap_append_cons, List.filterMap_nil, List.append_nil]
  rfl

theorem mem_registrations_iff : q ∈ s.registrations k ↔
    ∃ t j p, ⟨t, j, .step (.coordinator k (.activate q)) (.goto p)⟩ ∈ s.history := by
  constructor
  · intro h
    obtain ⟨⟨t, j, d⟩, he, hq⟩ := List.mem_filterMap.mp h
    obtain ⟨p, rfl⟩ := Event.registration?_eq_some.mp hq
    exact ⟨t, j, p, he⟩
  · rintro ⟨t, j, p, he⟩
    exact List.mem_filterMap.mpr ⟨_, he, Event.registration?_eq_some.mpr ⟨p, rfl⟩⟩

theorem mem_retirements_iff : q ∈ s.retirements k ↔
    ∃ t j n, ⟨t, j, .step (.coordinator k (.retire q)) n⟩ ∈ s.history := by
  constructor
  · intro h
    obtain ⟨⟨t, j, d⟩, he, hq⟩ := List.mem_filterMap.mp h
    obtain ⟨n, rfl⟩ := Event.retirement?_eq_some.mp hq
    exact ⟨t, j, n, he⟩
  · rintro ⟨t, j, n, he⟩
    exact List.mem_filterMap.mpr ⟨_, he, Event.retirement?_eq_some.mpr ⟨n, rfl⟩⟩

theorem isActivated_of_registered (hq : q ∈ s.registrations k) : s.IsActivated q := by
  obtain ⟨t, j, p, he⟩ := mem_registrations_iff.mp hq
  exact List.mem_filterMap.mpr ⟨_, he, rfl⟩

/-- A retired request is completed. -/
theorem Reachable.completed_of_retired (hs : Reachable allowed s) (hq : q ∈ s.retirements k) :
    (s.world.request q).completed = true := by
  obtain ⟨t, j, n, he⟩ := mem_retirements_iff.mp hq
  exact hs.completed_of_mem (List.mem_filterMap.mpr ⟨_, he, if_pos rfl⟩)

/-- A request that is about to be registered was not retired before. -/
private theorem Reachable.not_retired_of_ready (hs : Reachable allowed s) {x : Ongoing}
    (hx : x ∈ s.ongoing) (hp : x.activation.control = .ready (.coordinator k (.activate q))) :
    q ∉ s.retirements k := fun hq =>
  hs.not_isActivated hx (hp ▸ rfl)
    (hs.isActivated_of_completed (hs.isStarted_of_ready hx hp) (hs.completed_of_retired hq))

/-- The requests that a coordinator has in flight are those that it has registered and not retired,
each under its cell, in the order of their registration. -/
theorem Reachable.entries_active (hs : Reachable allowed s) (k : CoordinatorId) :
    (s.world.coordinator k).active.entries =
      ((s.registrations k).filter (· ∉ s.retirements k)).map
        fun q => ((s.world.request q).cell, q) := by
  refine hs.induction (I := fun s => (s.world.coordinator k).active.entries =
    ((s.registrations k).filter (· ∉ s.retirements k)).map fun q => ((s.world.request q).cell, q))
    (fun w hw => by simp [hw.active k, registrations]) fun s m s' hs _ ht ih => ?_
  have hcell : ((s.registrations k).filter (· ∉ s.retirements k)).map
      (fun q => ((s'.world.request q).cell, q)) =
        ((s.registrations k).filter (· ∉ s.retirements k)).map
          fun q => ((s.world.request q).cell, q) := by
    refine List.map_congr_left fun q hq => ?_
    have hlt := hs.lt_of_isActivated (isActivated_of_registered (List.mem_filter.mp hq).1)
    rw [Request.cell_eq_of_fixed (ht.grows.request q hlt).fixed]
  rcases ht.world with ⟨-, -, hcoordinator, hview⟩ | ⟨t, j, p, frames, hx, -, hw, hh, -⟩
  · have hnew : s'.registrations k = s.registrations k := hview _
    have hold : s'.retirements k = s.retirements k := hview _
    rw [hcoordinator, hnew, hold, hcell, ih]
  · rw [registrations_append hh, retirements_append hh, hw]
    rcases p.accounts_step s.world k t j (hs.nodup_keys k) with
      ⟨q, rfl, hnew, hold, he⟩ | ⟨q, rfl, hnew, hold, he⟩ | ⟨hnew, hold, he⟩
    · have hlt := hs.isBounded.of_ready hx rfl q (List.mem_singleton.mpr rfl)
      have hq : q ∉ s.retirements k := hs.not_retired_of_ready hx rfl
      rw [hnew, hold, he, ih, ← hcell, ← Request.cell_eq_of_fixed (ht.grows.request q hlt).fixed,
        ← hw]
      simp [hq]
    · have hlt := hs.isBounded.of_ready hx rfl q (List.mem_singleton.mpr rfl)
      rw [hnew, hold, he, ih, ← hcell, ← Request.cell_eq_of_fixed (ht.grows.request q hlt).fixed,
        ← hw, List.filter_map, List.filter_filter, Option.toList_none, List.append_nil]
      refine congrArg (List.map _) (List.filter_congr fun r _ => ?_)
      by_cases hr : r = q <;> simp [hr]
    · rw [hnew, hold, he, ih, ← hcell, ← hw]
      simp

/-- A request is in flight with a coordinator exactly if it is registered there and not retired. -/
theorem Reachable.find?_active_iff (hs : Reachable allowed s) {c : CellId} :
    (s.world.coordinator k).active.find? c = some q ↔
      q ∈ s.registrations k ∧ q ∉ s.retirements k ∧ (s.world.request q).cell = c := by
  rw [Directory.find?_eq_some_iff (hs.nodup_keys k), hs.entries_active k]
  simp [and_assoc, and_comm]

/-- A registered request that is not completed is in flight. -/
theorem Reachable.find?_active_of_outstanding (hs : Reachable allowed s)
    (hq : q ∈ s.outstanding k) :
    (s.world.coordinator k).active.find? (s.world.request q).cell = some q := by
  obtain ⟨hq, hc⟩ := List.mem_filter.mp hq
  refine hs.find?_active_iff.mpr ⟨hq, fun h => ?_, rfl⟩
  simp [hs.completed_of_retired h] at hc

/-- A request leaves those in flight only where it is retired itself, and it is completed then. -/
private theorem Transition.retired_of_not_mem (hs : Reachable allowed s)
    (hs' : Reachable allowed s') (ht : Transition s m s') {e : CellId × RequestId}
    (he : e ∈ (s.world.coordinator k).active.entries)
    (he' : e ∉ (s'.world.coordinator k).active.entries) :
    (s.world.request e.2).completed = true ∧ ∃ t j n,
      s'.history = s.history ++ [⟨t, j, .step (.coordinator k (.retire e.2)) n⟩] := by
  obtain ⟨c, q⟩ := e
  rw [← Directory.find?_eq_some_iff (hs.nodup_keys k), hs.find?_active_iff] at he
  rw [← Directory.find?_eq_some_iff (hs'.nodup_keys k), hs'.find?_active_iff] at he'
  obtain ⟨hq, hopen, hc⟩ := he
  have hlt := hs.lt_of_isActivated (isActivated_of_registered hq)
  have hretired : q ∈ s'.retirements k := Decidable.byContradiction fun h => he'
    ⟨(ht.history_prefix.filterMap _).subset hq, h,
      (Request.cell_eq_of_fixed (ht.grows.request q hlt).fixed).trans hc⟩
  obtain ⟨t, j, n, hevent⟩ := mem_retirements_iff.mp hretired
  have hnew : ⟨t, j, .step (.coordinator k (.retire q)) n⟩ ∉ s.history := fun h =>
    hopen (mem_retirements_iff.mpr ⟨t, j, n, h⟩)
  rcases ht.history with hh | ⟨e, hh⟩
  · exact absurd (hh ▸ hevent) hnew
  · rw [hh, List.mem_append, List.mem_singleton] at hevent
    obtain rfl := hevent.resolve_left hnew
    obtain ⟨newer, older, frames, hongoing, -⟩ := ht.exists_of_step hh
    have hx : ⟨t, j, ⟨.ready (.coordinator k (.retire q)), frames⟩⟩ ∈ s.ongoing :=
      hongoing ▸ by simp
    have hclosing : s.world.IsClosing q [] := (hs.closes _ hx).point _ rfl
    exact ⟨hclosing.completed, t, j, n, hh⟩

/-! ### Registrations are steps of starts -/

end System

/-- The coordinator and the cell of a start that has not registered its request yet. -/
def Point.startOf? (w : World) : Point → Option (CoordinatorId × CellId)
  | .coordinator k (.checkStart c _ _) | .coordinator k (.draw c _ _) => some (k, c)
  | .coordinator k (.activate q) => some (k, (w.request q).cell)
  | _ => none

private theorem Point.startOf?_of_way {n : Next} {p' : Point} (h : p.Way w n)
    (hn : n.point? = some p') {x : CoordinatorId × CellId}
    (hx : p'.startOf? (p.step w).world = some x) : p.startOf? w = some x := by
  cases h <;> cases hn <;> try cases hx
  case checkStart => rfl
  case draw k c d extra q hq =>
    rw [hq, Point.request_step_draw]
    rfl

private theorem Point.startOf?_of_frameWay {f : Frame} {o : Outcome} {n : Next}
    (h : f.Way w o n) (hn : n.point? = some p) : p.startOf? w = none := by
  cases h <;> cases hn <;> rfl

private theorem Point.startOf?_of_grows {w' : World} (hw : w.Grows w')
    (hp : ∀ q ∈ p.requests, q < w.requestCount) : p.startOf? w' = p.startOf? w := by
  unfold startOf?
  split
  · rfl
  · rfl
  · rename_i k q
    have hq := hp q (List.mem_singleton.mpr rfl)
    rw [Request.cell_eq_of_fixed (hw.request q hq).fixed]
  · rfl

namespace System

variable {s s' : System} {m : Move} {allowed : Move → Prop}

/-- A call that is about to register a request on a cell is a start on that cell. -/
private theorem Reachable.begin_of_startOf? (hs : Reachable allowed s) {x : Ongoing}
    (hx : x ∈ s.ongoing) (hp : x.activation.control = .ready p) {c : CellId}
    (hc : p.startOf? s.world = some (k, c)) :
    ∃ d extra, ⟨x.thread, x.number, .begin (.start k c d extra)⟩ ∈ s.history := by
  refine hs.induction (I := fun s => ∀ x ∈ s.ongoing, ∀ p, x.activation.control = .ready p →
    ∀ c, p.startOf? s.world = some (k, c) →
      ∃ d extra, ⟨x.thread, x.number, .begin (.start k c d extra)⟩ ∈ s.history)
    (fun _ _ => by simp) (fun s m s' hs _ ht ih => ?_) x hx p hp c hc
  refine forall_ongoing_of_transition (P := fun w x => ∀ p, x.activation.control = .ready p →
    ∀ c, p.startOf? w = some (k, c) →
      ∃ d extra, ⟨x.thread, x.number, .begin (.start k c d extra)⟩ ∈ s'.history) ht
    (fun x hx p hp c hc => ?_) (fun x hx h p hp c hc => ?_) ?_ ?_ ?_ ?_ ?_
  · obtain ⟨d, extra, h⟩ := ih x hx p hp c hc
    exact ⟨d, extra, ht.history_prefix.subset h⟩
  · exact h p hp c (Point.startOf?_of_grows ht.grows (hs.isBounded.of_ready hx hp) ▸ hc)
  · intro t call hm _ p hp c hc
    subst hm
    cases ht
    cases call.enters_of_control hp <;> cases hc
    exact ⟨_, _, List.mem_append_right _ (List.mem_singleton.mpr rfl)⟩
  · intro t x _ _ p hp c hc
    cases hp
    cases hc
  · intro t j p frames hx _ h p' hp' c hc
    exact h p rfl c (Point.startOf?_of_way (p.way_step s.world)
      (Activation.control_follow.mp hp') hc)
  · intro t j o f frames hx _ p hp c hc
    rw [Point.startOf?_of_frameWay (f.way_resume s.world o) (Activation.control_follow.mp hp)] at hc
    cases hc
  · intro t j i frames a _ _ _ p hp
    cases hp

/-- A registration is a step of a start on the cell of the request. -/
theorem Reachable.exists_start_of_registered (hs : Reachable allowed s)
    (hq : q ∈ s.registrations k) : ∃ n d extra p,
      .begin (.start k (s.world.request q).cell d extra) ∈ s.deeds n ∧
        .step (.coordinator k (.activate q)) (.goto p) ∈ s.deeds n := by
  obtain ⟨t, j, p, he⟩ := mem_registrations_iff.mp hq
  obtain ⟨s₀, frames, hs₀, hl, hx, -⟩ := hs.exists_of_step he
  have hlt := hs₀.isBounded.of_ready hx rfl q (List.mem_singleton.mpr rfl)
  obtain ⟨d, extra, hbegin⟩ := hs₀.begin_of_startOf? hx rfl (c := (s₀.world.request q).cell) rfl
  rw [Request.cell_eq_of_fixed (hl.grows.request q hlt).fixed]
  exact ⟨j, d, extra, p, mem_deeds.mpr ⟨t, hl.history_prefix.subset hbegin⟩, mem_deeds.mpr ⟨t, he⟩⟩

/-! ### The account -/

theorem Reachable.nodup_registrations (hs : Reachable allowed s) (k : CoordinatorId) :
    (s.registrations k).Nodup := by
  refine hs.nodup_activations.sublist (filterMap_sublist_filterMap (fun e q he => ?_) s.history)
  obtain ⟨t, j, d⟩ := e
  obtain ⟨p, rfl⟩ := Event.registration?_eq_some.mp he
  rfl

theorem IsIdle.stages_eq_nil (hi : s.IsIdle) (q : RequestId) : s.stages q = [] := by
  refine List.flatMap_eq_nil_iff.mpr fun x hx => ?_
  obtain ⟨r, hr⟩ := hi x hx
  rw [hr, stages_activation]

/-- When no call is in progress and no failure escaped from a completion hook, exactly the
registered requests that are not completed are in flight. -/
private theorem Reachable.not_retired_iff_of_isIdle (hs : Reachable allowed s) (hi : s.IsIdle)
    (hq : q ∈ s.registrations k) (hfailures : ∀ f, s.HasFailed q f → f.isOrdinary = true) :
    q ∉ s.retirements k ↔ (s.world.request q).completed = false := by
  refine ⟨fun hopen => Bool.eq_false_iff.mpr fun hc => ?_, fun hc h => ?_⟩
  · have hin : s.IsInFlight q := ⟨k, _, hs.find?_active_iff.mpr ⟨hq, hopen, rfl⟩⟩
    obtain ⟨i, hlistener⟩ := hs.listener_of_isStarted (hs.isStarted_of_isInFlight hin)
    rcases hs.milestones_of_stages hc (hi.stages_eq_nil q) with ⟨done, rest, -, hm⟩ | hm
    · obtain ⟨f, hf, hfailed⟩ := hs.hasFailed_of_isStopped (q := q) ⟨rest, by simp [hm]⟩
      simp [hfailures f hfailed] at hf
    · refine hs.not_isInFlight_of_retired (hs.isStarted_of_isInFlight hin) ?_ hin
      simp [hm, hlistener, Listener.milestones]
  · simp [hs.completed_of_retired h] at hc

/-- The requests in flight, whatever calls, timers and user code do. A coordinator has in flight the
requests that it has registered and not retired, each under its cell, in the order of their
registration. A registration is a step of a start on the cell of the request and comes once; a
retired request is completed. So a registered request that is not completed is in flight, and no two
of them have the same cell. A request leaves those in flight only where it is retired itself, when
it is completed. When no call is in progress, exactly the registered requests that are not completed
are in flight, if the user code that is called when they are completed raises ordinary failures
only, and their number is what the coordinator counts. Requests that are made without a start and
tell the coordinator about their end are never in flight. -/
theorem Reachable.active_accounting (hs : Reachable Move.any s) (k : CoordinatorId) :
    ((s.world.coordinator k).active.entries =
      ((s.registrations k).filter (· ∉ s.retirements k)).map
        fun q => ((s.world.request q).cell, q)) ∧
    (s.registrations k).Nodup ∧
    (∀ q ∈ s.registrations k, ∃ n d extra p,
      .begin (.start k (s.world.request q).cell d extra) ∈ s.deeds n ∧
        .step (.coordinator k (.activate q)) (.goto p) ∈ s.deeds n) ∧
    (∀ q ∈ s.retirements k, (s.world.request q).completed = true) ∧
    (∀ q ∈ s.outstanding k, ∀ r ∈ s.outstanding k,
      (s.world.request q).cell = (s.world.request r).cell → q = r) ∧
    (∀ m s', s.take? m = some s' → ∀ e ∈ (s.world.coordinator k).active.entries,
      e ∉ (s'.world.coordinator k).active.entries →
        (s.world.request e.2).completed = true ∧ ∃ t j n,
          s'.history = s.history ++ [⟨t, j, .step (.coordinator k (.retire e.2)) n⟩]) ∧
    (s.IsIdle → (∀ q ∈ s.registrations k, ∀ f, s.HasFailed q f → f.isOrdinary = true) →
      (s.world.coordinator k).active.entries =
        (s.outstanding k).map (fun q => ((s.world.request q).cell, q)) ∧
      ∀ t, s.isFree t = true →
        ∃ s', s.Performs t (.countActive k) (.returned (.count (s.outstanding k).length)) s') := by
  refine ⟨hs.entries_active k, hs.nodup_registrations k,
    fun q hq => hs.exists_start_of_registered hq, fun q hq => hs.completed_of_retired hq,
    fun q hq r hr hc => ?_, fun m s' ht e he he' => ?_, fun hi hfailures => ?_⟩
  · have hfind := hs.find?_active_of_outstanding hq
    rw [hc, hs.find?_active_of_outstanding hr] at hfind
    exact (Option.some.inj hfind).symm
  · have hs' := hs.leads (.move m .refl trivial ht)
    exact (transition_of_take? ht).retired_of_not_mem hs hs' he he'
  · have hentries : (s.world.coordinator k).active.entries =
        (s.outstanding k).map (fun q => ((s.world.request q).cell, q)) := by
      rw [hs.entries_active k, outstanding]
      refine congrArg (List.map _) (List.filter_congr fun q hq => ?_)
      have hiff := hs.not_retired_iff_of_isIdle hi hq (hfailures q hq)
      cases hc : (s.world.request q).completed <;> simp_all
    refine ⟨hentries, fun t hfree => ?_⟩
    have hcount : (s.world.coordinator k).active.size = (s.outstanding k).length := by
      rw [Directory.size, hentries, List.length_map]
    obtain ⟨s', hperforms, -⟩ := performs_of_goes (c := .countActive k) hfree
      (by simp [Call.requests]) (.finish rfl rfl (.refl ..))
    exact ⟨s', hcount ▸ hperforms⟩

/-- A request is started on a cell. Another one is made on the same cell without a start, with the
same coordinator to tell, and is abandoned. A third one is started on another cell and abandoned. -/
def abandonedOthers : List Move :=
  starting ++ .make 0 none [] 0 "" (.coordinator 0) :: .begin 1 (.abandon 1) ::
    List.replicate 9 (.advance 1) ++ .finish 1 :: .begin 0 (.start 0 1 (some "e") []) ::
    List.replicate 9 (.advance 0) ++ .finish 0 :: .begin 1 (.abandon 2) ::
    List.replicate 13 (.advance 1) ++ [.finish 1]

theorem active_abandonedOthers : ∃ s, run { world := untimed } abandonedOthers = some s ∧
    Reachable Move.any s ∧ s.IsIdle ∧ s.registrations 0 = [0, 2] ∧ s.retirements 0 = [1, 2] ∧
    (s.world.coordinator 0).active.entries = [(0, 0)] ∧ (s.world.request 2).completed = true ∧
    ∃ s', s.Performs 0 (.countActive 0) (.returned (.count 1)) s' := by
  obtain ⟨s, hs⟩ : ∃ s, run { world := untimed } abandonedOthers = some s := ⟨_, rfl⟩
  have hshown : (run { world := untimed } abandonedOthers).map (fun s => (s.ongoing,
      s.registrations 0, s.retirements 0, s.outstanding 0, (s.world.request 0).cell, s.failures)) =
        some ([], [0, 2], [1, 2], [0], 0, []) := rfl
  simp only [hs, Option.map_some, Option.some.injEq, Prod.mk.injEq] at hshown
  obtain ⟨hongoing, hregistered, hretired, houtstanding, hcell, hfailures⟩ := hshown
  have hreach : Reachable Move.any s := reachable_of_run isNew_untimed hs
  have hi : s.IsIdle := by simp [IsIdle, hongoing]
  obtain ⟨-, -, -, hcompleted, -, -, hidle⟩ := hreach.active_accounting 0
  obtain ⟨hentries, hcount⟩ := hidle hi fun q _ f h => by
    obtain ⟨i, hf, -⟩ := h
    simp [hfailures] at hf
  rw [houtstanding] at hentries hcount
  refine ⟨s, hs, hreach, hi, hregistered, hretired, ?_, hcompleted 2 (by simp [hretired]), ?_⟩
  · simp [hentries, hcell]
  · exact hcount 0 (by simp [isFree, hongoing, innermost?])

end System

end Rendezvous
