import Rendezvous.Proofs.Coordinators.SecondStart
import Rendezvous.Proofs.Delivery.Failing

/-!
# Starts that fail

A start raises an ordinary failure for one of three reasons: its cell has expired, its coordinator
has a request in flight there, or the clock cannot count its timeout. The first two are found out
before anything but the number of a request is used up. The third is found out when the timer is to
be armed. By then the request has joined those in flight, and it is not taken out again: the
coordinator refuses all further starts on the cell.

Whatever user code raises meanwhile is contained, or it is not ordinary.

## Main definitions

* `World.objection?`: why a start raises an ordinary failure.
* `World.Persists`, `World.Resembles`: nothing has changed but the requests in flight, and not even
  those.

## Main results

* `World.start_raises_iff`: a start raises an ordinary failure exactly for its reason.
* `Activation.Unfolds.resembles_iff`: what a start that failed has changed, and how later starts are
  judged.
-/

namespace Rendezvous

open Activation

variable {P : Conduct} {w w' w'' : World} {k : CoordinatorId} {c : CellId}
  {d : Option CallbackId} {extra : List Interceptor} {q : RequestId} {acts : List Act} {e : Failure}

/-! ### What a failed start may leave -/

/-- Why a start raises an ordinary failure, if it does. -/
def World.objection? (w : World) (k : CoordinatorId) (c : CellId) : Option Failure :=
  if (w.cell c).expired then some (.expiredCell (w.cell c).describe)
  else if (w.coordinator k).active.contains c then some (.cellInProcess (w.cell c).describe)
  else if w.clock.Overflows
      ((w.cell c).timeoutMs.getD (w.coordinator k).settings.defaultTimeoutMs) then
    some .timeoutOverflow
  else none

/-- Whether nothing has changed but the requests in flight. A request may have been made. -/
structure World.Persists (w w' : World) : Prop where
  cell (c : CellId) : w'.cell c = w.cell c
  requestCount : w.requestCount ≤ w'.requestCount
  request (q : RequestId) : q < w.requestCount → w'.request q = w.request q
  settings (k : CoordinatorId) : (w'.coordinator k).settings = (w.coordinator k).settings
  timers : w'.timers = w.timers
  now : w'.now = w.now
  clock : w'.clock = w.clock

/-- Whether nothing has changed. A request may have been made. -/
structure World.Resembles (w w' : World) : Prop extends w.Persists w' where
  active (k : CoordinatorId) : (w'.coordinator k).active = (w.coordinator k).active

namespace World

theorem Persists.trans (h : w.Persists w') (h' : w'.Persists w'') : w.Persists w'' where
  cell c := (h'.cell c).trans (h.cell c)
  requestCount := Nat.le_trans h.requestCount h'.requestCount
  request q hq := (h'.request q (Nat.lt_of_lt_of_le hq h.requestCount)).trans (h.request q hq)
  settings k := (h'.settings k).trans (h.settings k)
  timers := h'.timers.trans h.timers
  now := h'.now.trans h.now
  clock := h'.clock.trans h.clock

theorem Resembles.refl (w : World) : w.Resembles w where
  cell _ := rfl
  requestCount := Nat.le_refl _
  request _ _ := rfl
  settings _ := rfl
  timers := rfl
  now := rfl
  clock := rfl
  active _ := rfl

/-- A start is judged by the cell, the settings, the clock and the requests in flight. -/
theorem Resembles.objection? (h : w.Resembles w') (k : CoordinatorId) (c : CellId) :
    w'.objection? k c = w.objection? k c := by
  simp only [World.objection?, h.cell, h.active, h.settings, h.clock]

/-- To draw a number makes a request and leaves the rest as it is. -/
theorem resembles_draw (w : World) (k : CoordinatorId) (c : CellId) (d : Option CallbackId)
    (extra : List Interceptor) :
    w.Resembles ((Point.coordinator k (.draw c d extra)).step w).world where
  cell _ := rfl
  requestCount := Nat.le_succ _
  request q hq := (request_addRequest ..).trans (if_neg (Nat.ne_of_lt hq))
  settings j := by
    simp only [Point.step, CoordinatorPoint.step, coordinator_addRequest,
      coordinator_setCoordinator]
    split <;> simp [*]
  timers := rfl
  now := rfl
  clock := rfl
  active j := by
    simp only [Point.step, CoordinatorPoint.step, coordinator_addRequest,
      coordinator_setCoordinator]
    split
    · simp [*]
    · rfl

/-- What the activation of a request that is not refused changes. -/
private theorem activate_of_contains
    (h : (w.coordinator k).active.contains (w.request q).cell = false) :
    w.Persists ((Point.coordinator k (.activate q)).step w).world ∧
      ((Point.coordinator k (.activate q)).step w).world.request = w.request ∧
      ∀ j, (((Point.coordinator k (.activate q)).step w).world.coordinator j).active =
        if j = k then (w.coordinator k).active.put (w.request q).cell q
        else (w.coordinator j).active := by
  have hstep : ((Point.coordinator k (.activate q)).step w).world = w.setCoordinator k
      { w.coordinator k with active := (w.coordinator k).active.put (w.request q).cell q } := by
    simp [Point.step, CoordinatorPoint.step, h]
  rw [hstep]
  refine ⟨⟨fun _ => rfl, Nat.le_refl _, fun _ _ => rfl, fun j => ?_, rfl, rfl, rfl⟩, rfl,
    fun j => ?_⟩
  · rw [coordinator_setCoordinator]
    split <;> simp [*]
  · rw [coordinator_setCoordinator]
    split <;> rfl

end World

/-! ### How a start ends -/

/-- A request whose timer is armed raises no ordinary failure any more. -/
private theorem Activation.Unfolds.not_isOrdinary_of_attach
    (h : Unfolds P w ⟨.ready (.request q .attach), []⟩ acts w' (.raised e)) :
    e.isOrdinary = false := by
  obtain ⟨_, -, h⟩ := h.of_goto (g := .cell (w.request q).cell (.checkRegister (.request q))) rfl
  change Unfolds P w _ _ _ _ at h
  generalize (w.request q).cell = c at h
  cases hexpired : (w.cell c).expired with
  | true =>
    obtain ⟨-, -, ho⟩ := h.of_finish (x := .returned .unit) (if_pos hexpired)
    cases ho
  | false =>
    obtain ⟨_, -, h⟩ := h.of_goto (g := .cell c (.register (.request q)))
      (if_neg (by simp [hexpired]))
    change Unfolds P w _ _ _ _ at h
    cases hregister : ((w.cell c).register (.request q)).2 with
    | ignored | stored =>
      obtain ⟨-, -, ho⟩ := h.of_finish (x := .returned .unit)
        (by simp [Point.step, CellPoint.step, hregister, Next.ret])
      cases ho
    | deliver r =>
      obtain ⟨_, -, h⟩ := h.of_goto (g := .cell c (.deliver (.request q) r .unit))
        (by simp [Point.step, CellPoint.step, hregister])
      obtain ⟨_, _, x, _, -, -, h⟩ := h.of_call (f := .cell c (.delivered .unit))
        (g := .request q (.record r)) rfl
      rw [Frame.next_delivered] at h
      obtain ⟨-, -, ho⟩ := h.of_ended_nil
      exact (Outcome.passed_eq_raised_iff.mp ho.symm).2

/-- A point at which a call fails and changes nothing. -/
private theorem exists_passes_of_fail {p : Point} (hp : p.isEnabled w = true)
    (h : p.step w = { world := w, next := .fail e }) (frames : List Frame) :
    ∃ acts, Passes w ⟨.ready p, frames⟩ acts w ⟨.ended (.raised e), frames⟩ := by
  have hn : (p.step w).next = .fail e := by rw [h]
  have hend : Passes (p.step w).world (follow frames (.fail e)) [] w
      ⟨.ended (.raised e), frames⟩ := by
    rw [h]
    exact .refl ..
  exact ⟨_, .step hp hn hend⟩

/-- Where a start comes to before it calls user code: to an ordinary failure, if it has a reason to
fail, or else past its timer. If the reason is a timeout that the clock cannot count, then the
request has joined those in flight. -/
private theorem exists_start_passes (w : World) (k : CoordinatorId) (c : CellId)
    (d : Option CallbackId) (extra : List Interceptor) :
    ∃ acts v a, Passes w (Call.start k c d extra).activation acts v a ∧
      ((∃ e, w.objection? k c = some e ∧ e ≠ .timeoutOverflow ∧ w.Resembles v ∧
          a = ⟨.ended (.raised e), []⟩) ∨
        (w.objection? k c = some .timeoutOverflow ∧ w.Persists v ∧
          (∀ j, (v.coordinator j).active = if j = k then
            (w.coordinator k).active.put c w.requestCount else (w.coordinator j).active) ∧
          a = ⟨.ended (.raised .timeoutOverflow), [.answer (.request w.requestCount)]⟩) ∨
        w.objection? k c = none ∧
          a = ⟨.ready (.request w.requestCount .attach), [.answer (.request w.requestCount)]⟩) := by
  cases hexpired : (w.cell c).expired with
  | true =>
    refine ⟨_, _, _, .step rfl (n := .fail (.expiredCell (w.cell c).describe)) (if_pos hexpired)
      (.refl ..), .inl ⟨_, ?_, ?_, .refl w, rfl⟩⟩
    · simp [World.objection?, hexpired]
    · simp [Failure.expiredCell, Failure.timeoutOverflow]
  | false =>
  have hlook : ((Point.coordinator k (.checkStart c d extra)).step w).next =
      .goto (.coordinator k (.draw c d extra)) := if_neg (by simp [hexpired])
  have hdrawn {acts : List Act} {v : World} {a : Activation}
      (h : Passes ((Point.coordinator k (.draw c d extra)).step w).world
        ⟨.ready (.coordinator k (.activate w.requestCount)), []⟩ acts v a) :
      ∃ acts, Passes w (Call.start k c d extra).activation acts v a :=
    ⟨_, .step rfl hlook (.step rfl (n := .goto (.coordinator k (.activate w.requestCount))) rfl h)⟩
  have hdraw := w.resembles_draw k c d extra
  have hrequest : ((Point.coordinator k (.draw c d extra)).step w).world.request w.requestCount =
      (w.coordinator k).newRequest k c (w.cell c) d extra :=
    (World.request_addRequest ..).trans (if_pos rfl)
  generalize ((Point.coordinator k (.draw c d extra)).step w).world = v at hdrawn hdraw hrequest
  have hcell : (v.request w.requestCount).cell = c := by rw [hrequest]; rfl
  cases hactive : (w.coordinator k).active.contains c with
  | true =>
    have hstep : (Point.coordinator k (.activate w.requestCount)).step v =
        { world := v, next := .fail (.cellInProcess (v.cell c).describe) } := by
      simp [Point.step, CoordinatorPoint.step, hcell, hdraw.active, hactive]
    obtain ⟨_, hfails⟩ := exists_passes_of_fail rfl hstep []
    obtain ⟨acts, h⟩ := hdrawn hfails
    refine ⟨acts, _, _, h, .inl ⟨_, ?_, ?_, hdraw, rfl⟩⟩
    · simp [World.objection?, hexpired, hactive, hdraw.cell]
    · simp [Failure.cellInProcess, Failure.timeoutOverflow]
  | false =>
  have hnew : (v.coordinator k).active.contains (v.request w.requestCount).cell = false := by
    rw [hcell, hdraw.active, hactive]
  obtain ⟨hpersists, hsame, hput⟩ := World.activate_of_contains hnew
  have hactivated {acts : List Act} {u : World} {a : Activation}
      (h : Passes ((Point.coordinator k (.activate w.requestCount)).step v).world
        ⟨.ready (.request w.requestCount .arm), [.answer (.request w.requestCount)]⟩ acts u a) :
      ∃ acts, Passes w (Call.start k c d extra).activation acts u a :=
    hdrawn (.step rfl (Point.next_activate hnew) (.step rfl
      (n := .call (.answer (.request w.requestCount)) (.request w.requestCount .arm)) rfl h))
  rw [hcell] at hput
  generalize ((Point.coordinator k (.activate w.requestCount)).step v).world = u
    at hactivated hpersists hsame hput
  have htimeout : (u.request w.requestCount).timeoutMs =
      (w.cell c).timeoutMs.getD (w.coordinator k).settings.defaultTimeoutMs := by
    rw [hsame, hrequest]
    rfl
  have hclock : u.clock = w.clock := hpersists.clock.trans hdraw.clock
  by_cases hbound : w.clock.Overflows
      ((w.cell c).timeoutMs.getD (w.coordinator k).settings.defaultTimeoutMs)
  · have hpositive :
        (w.cell c).timeoutMs.getD (w.coordinator k).settings.defaultTimeoutMs ≠ 0 :=
      fun hzero => w.clock.not_overflows_zero (hzero ▸ hbound)
    have hstep : (Point.request w.requestCount .arm).step u =
        { world := u, next := .fail .timeoutOverflow } := by
      simp only [Point.step, RequestPoint.step, htimeout, hclock]
      rw [if_neg (by omega), if_pos (by simpa using hbound)]
    obtain ⟨_, hfails⟩ := exists_passes_of_fail rfl hstep [.answer (.request w.requestCount)]
    obtain ⟨acts, h⟩ := hactivated hfails
    refine ⟨acts, _, _, h, .inr (.inl ⟨?_, hdraw.toPersists.trans hpersists, fun j => ?_, rfl⟩)⟩
    · simp [World.objection?, hexpired, hactive, hbound]
    · rw [hput, hdraw.active, hdraw.active]
  · have htimed : (u.request w.requestCount).CanBeTimed u.clock := by
      rw [Request.CanBeTimed, htimeout, hclock]
      exact .inr (by simpa using hbound)
    obtain ⟨acts, h⟩ := hactivated (.step rfl (Point.next_arm htimed) (.refl ..))
    exact ⟨acts, _, _, h, .inr (.inr ⟨by simp [World.objection?, hexpired, hactive, hbound], rfl⟩)⟩

/-- A start that raises an ordinary failure has that reason to fail, and has changed nothing but, if
its timeout is the reason, the requests in flight. -/
private theorem Activation.Unfolds.of_failed_start
    (h : (Call.start k c d extra).activation.Unfolds P w acts w' (.raised e))
    (he : e.isOrdinary = true) : w.objection? k c = some e ∧
      (e ≠ .timeoutOverflow ∧ w.Resembles w' ∨
        e = .timeoutOverflow ∧ w.Persists w' ∧
          ∀ j, (w'.coordinator j).active = if j = k then
            (w.coordinator k).active.put c w.requestCount else (w.coordinator j).active) := by
  obtain ⟨before, v, a, hpasses, hplace⟩ := exists_start_passes w k c d extra
  obtain ⟨rest, -, h⟩ := hpasses.unfolds_iff.mp h
  rcases hplace with ⟨f, hf, hne, hv, rfl⟩ | ⟨hf, hv, hput, rfl⟩ | ⟨-, rfl⟩
  · obtain ⟨-, rfl, ho⟩ := h.of_ended_nil
    cases ho
    exact ⟨hf, .inl ⟨hne, hv⟩⟩
  · obtain ⟨_, -, h⟩ := h.of_ended_cons
    obtain ⟨-, rfl, ho⟩ := Unfolds.of_ended_nil h
    cases ho
    exact ⟨hf, .inr ⟨rfl, hv, hput⟩⟩
  · obtain ⟨_, _, x, _, -, hattach, h⟩ := h.split_frame
    cases x with
    | returned b =>
      obtain ⟨-, -, ho⟩ := Unfolds.of_ended_nil h
      cases ho
    | raised f =>
      obtain ⟨-, -, ho⟩ := Unfolds.of_ended_nil h
      cases ho
      simp [hattach.not_isOrdinary_of_attach] at he

/-- A start raises an ordinary failure exactly if that is its reason to fail. -/
theorem World.start_raises_iff (he : e.isOrdinary = true) :
    (∃ acts w', (Call.start k c d extra).activation.Unfolds P w acts w' (.raised e)) ↔
      w.objection? k c = some e := by
  constructor
  · rintro ⟨acts, w', h⟩
    exact (h.of_failed_start he).1
  · intro h
    obtain ⟨before, v, a, hpasses, hplace⟩ := exists_start_passes w k c d extra
    rw [h] at hplace
    rcases hplace with ⟨f, hf, -, -, rfl⟩ | ⟨hf, -, -, rfl⟩ | ⟨hf, -⟩
    · cases hf
      exact ⟨_, v, hpasses.unfolds_iff.mpr ⟨_, rfl, .ended ..⟩⟩
    · cases hf
      exact ⟨_, v, hpasses.unfolds_iff.mpr ⟨_, rfl, .resume (.ended ..)⟩⟩
    · cases hf

/-! ### How later starts are judged -/

/-- A cell for which a request has joined those in flight is in process. -/
private theorem World.Persists.objection?_of_put (h : w.Persists w')
    (hobjection : w.objection? k c = some .timeoutOverflow)
    (hput : (w'.coordinator k).active = (w.coordinator k).active.put c q) :
    (w.coordinator k).active.contains c = false ∧
      w'.objection? k c = some (.cellInProcess (w.cell c).describe) := by
  have hcontains : (w'.coordinator k).active.contains c = true := by
    rw [hput, Directory.contains, Directory.find?_put, if_pos rfl]
    rfl
  have hlooks : (w.cell c).expired = false ∧ (w.coordinator k).active.contains c = false := by
    unfold World.objection? at hobjection
    split at hobjection
    · simp [Failure.expiredCell, Failure.timeoutOverflow] at hobjection
    · split at hobjection
      · simp [Failure.cellInProcess, Failure.timeoutOverflow] at hobjection
      · simp_all
  exact ⟨hlooks.2, by simp [World.objection?, h.cell, hlooks.1, hcontains]⟩

/-- A start that raises an ordinary failure changes nothing, and later starts are judged as before,
exactly if the failure is not that the clock cannot count the timeout. Whether a start raises such a
failure, and which, is decided by its cell, the settings, the clock and the requests in flight: the
cell has expired, it is in process, or its timeout is too large. In the last case the request stays
among those in flight, so that the coordinator judges the cell to be in process from then on. -/
theorem Activation.Unfolds.resembles_iff
    (h : (Call.start k c d extra).activation.Unfolds P w acts w' (.raised e))
    (he : e.isOrdinary = true) :
    (∀ v j b d extra Q f, f.isOrdinary = true →
      ((∃ acts v', (Call.start j b d extra).activation.Unfolds Q v acts v' (.raised f)) ↔
        v.objection? j b = some f)) ∧
    w.objection? k c = some e ∧
    w.Persists w' ∧
    (w.Resembles w' ↔ e ≠ .timeoutOverflow) ∧
    ((∀ j b, w'.objection? j b = w.objection? j b) ↔ e ≠ .timeoutOverflow) ∧
    (e = .timeoutOverflow →
      (∀ j, (w'.coordinator j).active = if j = k then
        (w.coordinator k).active.put c w.requestCount else (w.coordinator j).active) ∧
      w'.objection? k c = some (.cellInProcess (w.cell c).describe)) := by
  obtain ⟨hobjection, ⟨hne, hresembles⟩ | ⟨rfl, hpersists, hput⟩⟩ := h.of_failed_start he
  · exact ⟨fun v j b d extra Q f => World.start_raises_iff, hobjection, hresembles.toPersists,
      iff_of_true hresembles hne, iff_of_true hresembles.objection? hne, fun h => absurd h hne⟩
  · obtain ⟨hfree, hinProcess⟩ := hpersists.objection?_of_put hobjection
      ((hput k).trans (if_pos rfl))
    refine ⟨fun v j b d extra Q f => World.start_raises_iff, hobjection, hpersists,
      iff_of_false (fun hresembles => ?_) (not_not.mpr rfl),
      iff_of_false (fun hjudged => ?_) (not_not.mpr rfl), fun _ => ⟨hput, hinProcess⟩⟩
    · have hactive := (hput k).symm.trans (hresembles.active k)
      rw [if_pos rfl] at hactive
      have hentries := (Directory.entries_put hfree).symm.trans (congrArg Directory.entries hactive)
      simp at hentries
    · have hsame := hinProcess.symm.trans ((hjudged k c).trans hobjection)
      simp [Failure.cellInProcess, Failure.timeoutOverflow] at hsame

theorem System.resembles_startedAgain : ∃ s acts w', run { world := untimed } starting = some s ∧
    (Call.start 0 0 (some "e") []).activation.Unfolds .free s.world acts w'
      (.raised (.cellInProcess (s.world.cell 0).describe)) ∧ s.world.Resembles w' := by
  obtain ⟨s, hs⟩ : ∃ s, run { world := untimed } starting = some s := ⟨_, rfl⟩
  have hshown : (run { world := untimed } starting).map (fun s =>
      ((s.world.cell 0).expired, (s.world.coordinator 0).active.contains 0)) =
        some (false, true) := rfl
  simp only [hs, Option.map_some, Option.some.injEq, Prod.mk.injEq] at hshown
  obtain ⟨hexpired, hactive⟩ := hshown
  have hobjection : s.world.objection? 0 0 =
      some (.cellInProcess (s.world.cell 0).describe) := by
    simp [World.objection?, hexpired, hactive]
  obtain ⟨acts, w', h⟩ : ∃ acts w', (Call.start 0 0 (some "e") []).activation.Unfolds .free s.world
      acts w' (.raised (.cellInProcess (s.world.cell 0).describe)) :=
    (World.start_raises_iff rfl).mpr hobjection
  obtain ⟨-, -, -, hresembles, -⟩ := h.resembles_iff rfl
  refine ⟨s, acts, w', hs, h, hresembles.mpr ?_⟩
  simp [Failure.cellInProcess, Failure.timeoutOverflow]

/-- A world in which the timeout of a cell is too large for the clock. -/
def oversized : World :=
  (default : World).setCell 0 { timeoutMs := some Binary64.overflowBound }

theorem not_resembles_oversized : ∃ acts w',
    (Call.start 0 0 (some "d") []).activation.Unfolds .free oversized acts w'
      (.raised .timeoutOverflow) ∧ Failure.timeoutOverflow.isOrdinary = true ∧
    (oversized.coordinator 0).active.entries = [] ∧ (w'.coordinator 0).active.entries = [(0, 0)] ∧
    (∀ e, e.isOrdinary = true → (∃ acts w'', (Call.start 0 0 (some "d") []).activation.Unfolds .free
      oversized acts w'' (.raised e)) → e = .timeoutOverflow) ∧
    ∃ acts w'', (Call.start 0 0 (some "d") []).activation.Unfolds .free w' acts w''
      (.raised (.cellInProcess (oversized.cell 0).describe)) := by
  have hobjection : oversized.objection? 0 0 = some .timeoutOverflow := by
    have htimeout : (oversized.cell 0).timeoutMs = some Binary64.overflowBound := rfl
    have hoverflows : oversized.clock.Overflows Binary64.overflowBound := Nat.le_refl _
    rw [World.objection?, if_neg (by decide), if_neg (by decide), htimeout, Option.getD_some,
      if_pos hoverflows]
  obtain ⟨acts, w', h⟩ : ∃ acts w', (Call.start 0 0 (some "d") []).activation.Unfolds .free
      oversized acts w' (.raised .timeoutOverflow) := (World.start_raises_iff rfl).mpr hobjection
  obtain ⟨-, ⟨hne, -⟩ | ⟨-, hpersists, hput⟩⟩ := h.of_failed_start rfl
  · exact absurd rfl hne
  · obtain ⟨-, hinProcess⟩ := hpersists.objection?_of_put hobjection ((hput 0).trans (if_pos rfl))
    refine ⟨acts, w', h, rfl, rfl, ?_, fun e he hraises => ?_,
      (World.start_raises_iff rfl).mpr hinProcess⟩
    · rw [hput, if_pos rfl]
      rfl
    · exact Option.some.inj (((World.start_raises_iff he).mp hraises).symm.trans hobjection)

end Rendezvous
