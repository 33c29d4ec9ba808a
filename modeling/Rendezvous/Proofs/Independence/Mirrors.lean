import Mathlib.Logic.Function.Basic
import Rendezvous.Proofs.Independence.Alarms
import Rendezvous.Proofs.Independence.Renaming
import Rendezvous.Proofs.Reentrancy.Regions

/-!
# Mirrored regions

A region of cells looks the same in two worlds, but for the numbers of its requests: its cells, the
requests on them with their alarms, and what coordinators have in flight for them. The requests that
are still to be made go by numbers that are agreed on in advance. Outside of the region, the worlds
have nothing in common but the time, the clock and the settings.

Code that works in the region and does not ask about others then takes the same step in both. It
goes on in the same way, notes the same, and the worlds still mirror each other.

## Main definitions

* `Call.IsLocal`, `Point.IsLocal`: code that starts requests with one coordinator, and does not ask
  a coordinator about others.
* `Request.core`: a request but for what numbers its timer.
* `World.Mirrors`, `Effect.Mirrors`: worlds in which a region looks the same, and steps that keep
  this up.

## Main results

* `World.Mirrors.step`, `World.Mirrors.resume`: code of the region takes the same step in both.
-/

namespace Rendezvous

/-! ### Local code -/

section Local

variable (k : CoordinatorId)

/-- Whether a call starts requests with no other coordinator, and does not ask a coordinator for all
its requests. -/
def Call.IsLocal : Call → Prop
  | .start j .. => j = k
  | .abandonAll _ | .countActive _ => False
  | _ => True

def Point.IsLocal : Point → Prop
  | .coordinator j (.checkStart ..) | .coordinator j (.draw ..) => j = k
  | .coordinator _ .abandonAll | .coordinator _ .countActive => False
  | _ => True

def Next.IsLocal (n : Next) : Prop :=
  ∀ p, n.point? = some p → p.IsLocal k

variable {k} {w : World} {p : Point} {f : Frame} {o : Outcome}

theorem Call.IsLocal.point {c : Call} (h : c.IsLocal k) (hp : c.Enters p) : p.IsLocal k := by
  cases hp <;> exact h

/-- Local code goes on locally. -/
theorem Point.IsLocal.next (h : p.IsLocal k) : (p.step w).next.IsLocal k := by
  have hway := p.way_step w
  generalize (p.step w).next = n at hway ⊢
  intro g hg
  cases hway <;> cases hg <;> first | exact h | trivial

theorem Frame.isLocal_next : (f.resume w o).next.IsLocal k := by
  have hway := f.way_resume w o
  generalize (f.resume w o).next = n at hway ⊢
  intro g hg
  cases hway <;> cases hg <;> trivial

end Local

/-! ### Requests -/

namespace Request

/-- A request but for the name and the number of its timer. -/
def core (x : Request) : Request :=
  { x with timerName := "", timer := x.timer.map fun _ => 0 }

variable {x y : Request}

theorem exists_of_core (h : x.core = y.core) :
    ∃ name timer, x = { y with timerName := name, timer := timer } := by
  refine ⟨x.timerName, x.timer, ?_⟩
  obtain ⟨⟩ := x
  obtain ⟨⟩ := y
  simp_all [core]

theorem cell_eq_of_core (h : x.core = y.core) : x.cell = y.cell :=
  show x.core.cell = y.core.cell by rw [h]

theorem interceptors_eq_of_core (h : x.core = y.core) : x.interceptors = y.interceptors :=
  show x.core.interceptors = y.core.interceptors by rw [h]

theorem timeoutMs_eq_of_core (h : x.core = y.core) : x.timeoutMs = y.timeoutMs :=
  show x.core.timeoutMs = y.core.timeoutMs by rw [h]

end Request

/-! ### Worlds -/

/-- Whether a region looks the same in two worlds, but for the numbers of its requests. Below the
limit, the numbers of new requests are agreed on. -/
structure World.Mirrors (ρ : RequestId → RequestId) (S : CellId → Prop) (limit : Nat)
    (w w' : World) : Prop where
  injective : Function.Injective ρ
  unmade (q : RequestId) (hq : w.requestCount ≤ q) (hlimit : q < limit) :
    ρ q = w'.requestCount + (q - w.requestCount)
  made (q : RequestId) (hq : q < w.requestCount) (hc : S (w.request q).cell) :
    ρ q < w'.requestCount
  cell (c : CellId) (hc : S c) : w'.cell c = (w.cell c).rename ρ
  request (q : RequestId) (hq : q < w.requestCount) (hc : S (w.request q).cell) :
    (w'.request (ρ q)).core = (w.request q).core
  alarms (q : RequestId) (hq : q < w.requestCount) (hc : S (w.request q).cell) :
    w'.alarms (ρ q) = w.alarms q
  active (k : CoordinatorId) (c : CellId) (hc : S c) :
    (w'.coordinator k).active.find? c = ((w.coordinator k).active.find? c).map ρ
  settings (k : CoordinatorId) : (w'.coordinator k).settings = (w.coordinator k).settings
  now : w'.now = w.now
  clock : w'.clock = w.clock

/-- Whether two steps lead from and to worlds in which a region looks the same, note the same and
go on in the same way. -/
structure Effect.Mirrors (ρ : RequestId → RequestId) (S : CellId → Prop) (limit : Nat)
    (e e' : Effect) : Prop where
  world : e.world.Mirrors ρ S limit e'.world
  next : e'.next = e.next.rename ρ
  notices : e'.notices = e.notices

namespace World.Mirrors

variable {ρ : RequestId → RequestId} {S : CellId → Prop} {limit : Nat} {w w' : World} {c : CellId}
  {q : RequestId} {k : CoordinatorId}

/-! ### Writes -/

theorem setCell (h : w.Mirrors ρ S limit w') (c : CellId) (x : Cell) :
    (w.setCell c x).Mirrors ρ S limit (w'.setCell c (x.rename ρ)) := by
  refine ⟨h.injective, h.unmade, h.made, fun d hd => ?_, h.request, h.alarms, h.active, h.settings,
    h.now, h.clock⟩
  rw [cell_setCell, cell_setCell]
  split
  · rfl
  · exact h.cell d hd

theorem modifyRequest (h : w.Mirrors ρ S limit w') (hq : q < w.requestCount)
    (hc : S (w.request q).cell) (f : Request → Request)
    (hf : ∀ x, (f x).cell = x.cell ∧ (f x).timer = x.timer ∧ (f x).core = f x.core) :
    (w.modifyRequest q f).Mirrors ρ S limit (w'.modifyRequest (ρ q) f) := by
  have hrequest (v : World) (q r : RequestId) : (v.modifyRequest q f).request r =
      if r = q then f (v.request q) else v.request r := request_setRequest ..
  have hcell (r : RequestId) : ((w.modifyRequest q f).request r).cell = (w.request r).cell := by
    rw [hrequest]
    split
    · subst_vars
      exact (hf _).1
    · rfl
  have halarms (v : World) (q r : RequestId) : (v.modifyRequest q f).alarms r = v.alarms r := by
    refine alarms_congr rfl ?_
    rw [hrequest]
    split
    · subst_vars
      exact (hf _).2.1
    · rfl
  refine ⟨h.injective, h.unmade, fun r hr hc => h.made r hr (hcell r ▸ hc), h.cell,
    fun r hr hc' => ?_, fun r hr hc' => ?_, h.active, h.settings, h.now, h.clock⟩
  · rw [hrequest, hrequest]
    by_cases hrq : r = q
    · rw [if_pos hrq, if_pos (congrArg ρ hrq), (hf _).2.2, (hf _).2.2,
        h.request q hq hc]
    · rw [if_neg hrq, if_neg (h.injective.ne hrq)]
      exact h.request r hr (hcell r ▸ hc')
  · rw [halarms, halarms]
    exact h.alarms r hr (hcell r ▸ hc')

theorem arm (h : w.Mirrors ρ S limit w') (hw : w.KeepsTimers) (hw' : w'.KeepsTimers)
    (hq : q < w.requestCount) (hc : S (w.request q).cell) :
    (w.arm q).Mirrors ρ S limit (w'.arm (ρ q)) := by
  have hcell (r : RequestId) : ((w.arm q).request r).cell = (w.request r).cell := by
    rw [request_arm]
    split
    · subst_vars
      rfl
    · rfl
  refine ⟨h.injective, h.unmade, fun r hr hc => h.made r hr (hcell r ▸ hc), h.cell,
    fun r hr hc' => ?_, fun r hr hc' => ?_, h.active, h.settings, h.now, h.clock⟩
  · have hcore := h.request r hr (hcell r ▸ hc')
    rw [request_arm, request_arm]
    by_cases hrq : r = q
    · subst hrq
      obtain ⟨name, timer, hx⟩ := Request.exists_of_core hcore
      rw [if_pos rfl, if_pos rfl, hx]
      rfl
    · rw [if_neg hrq, if_neg (h.injective.ne hrq)]
      exact hcore
  · rw [alarms_arm hw, alarms_arm hw']
    by_cases hrq : r = q
    · rw [if_pos hrq, if_pos (congrArg ρ hrq), h.alarms q hq hc, h.now,
        Request.timeoutMs_eq_of_core (h.request q hq hc)]
    · rw [if_neg hrq, if_neg (h.injective.ne hrq)]
      exact h.alarms r hr (hcell r ▸ hc')

theorem cancel (h : w.Mirrors ρ S limit w') (hw : w.KeepsTimers) (hw' : w'.KeepsTimers)
    (hq : q < w.requestCount) (hc : S (w.request q).cell) :
    (w.cancel q).Mirrors ρ S limit (w'.cancel (ρ q)) := by
  have htime (v : World) (q : RequestId) :
      (v.cancel q).now = v.now ∧ (v.cancel q).clock = v.clock := by
    unfold World.cancel
    split <;> exact ⟨rfl, rfl⟩
  refine ⟨h.injective, by simpa using h.unmade, by simpa using h.made, by simpa using h.cell,
    by simpa using h.request, fun r hr hc' => ?_, by simpa using h.active,
    by simpa using h.settings, by simp [htime, h.now], by simp [htime, h.clock]⟩
  rw [alarms_cancel hw, alarms_cancel hw']
  by_cases hrq : r = q
  · rw [if_pos hrq, if_pos (congrArg ρ hrq), h.alarms q hq hc]
  · rw [if_neg hrq, if_neg (h.injective.ne hrq)]
    exact h.alarms r (by simpa using hr) (by simpa using hc')

theorem setCoordinator (h : w.Mirrors ρ S limit w') {x y : Coordinator}
    (hsettings : y.settings = x.settings)
    (hactive : ∀ c, S c → y.active.find? c = (x.active.find? c).map ρ) :
    (w.setCoordinator k x).Mirrors ρ S limit (w'.setCoordinator k y) := by
  refine ⟨h.injective, h.unmade, h.made, h.cell, h.request, h.alarms, fun j c hc => ?_, fun j => ?_,
    h.now, h.clock⟩ <;> rw [coordinator_setCoordinator, coordinator_setCoordinator]
  · split
    · exact hactive c hc
    · exact h.active j c hc
  · split
    · exact hsettings
    · exact h.settings j

theorem addRequest (h : w.Mirrors ρ S limit w') (hw : w.KeepsTimers) (hw' : w'.KeepsTimers)
    (hlimit : w.requestCount < limit) {x y : Request} (hcore : y.core = x.core) :
    (w.addRequest x).1.Mirrors ρ S limit (w'.addRequest y).1 := by
  have hnew : ρ w.requestCount = w'.requestCount := by
    simpa using h.unmade w.requestCount (Nat.le_refl _) hlimit
  have hmade {r : RequestId} (hr : r < (w.addRequest x).1.requestCount)
      (hne : r ≠ w.requestCount) : r < w.requestCount :=
    Nat.lt_of_le_of_ne (Nat.le_of_lt_succ hr) hne
  have hold {r : RequestId} (hne : r ≠ w.requestCount)
      (hc : S ((w.addRequest x).1.request r).cell) : S (w.request r).cell := by
    rwa [request_addRequest, if_neg hne] at hc
  have hne' {r : RequestId} (hne : r ≠ w.requestCount) : ρ r ≠ w'.requestCount :=
    hnew ▸ h.injective.ne hne
  have hshift {m n r : Nat} (h : m + 1 ≤ r) : n + (r - m) = n + 1 + (r - (m + 1)) := by omega
  refine ⟨h.injective, fun r hr hr' => ?_, fun r hr hc => ?_, h.cell, fun r hr hc => ?_,
    fun r hr hc => ?_, h.active, h.settings, h.now, h.clock⟩
  · exact (h.unmade r (Nat.le_of_succ_le hr) hr').trans (hshift hr)
  · rw [requestCount_addRequest]
    by_cases hne : r = w.requestCount
    · rw [hne, hnew]
      exact Nat.lt_succ_self _
    · exact Nat.lt_succ_of_lt (h.made r (hmade hr hne) (hold hne hc))
  · rw [request_addRequest, request_addRequest]
    by_cases hne : r = w.requestCount
    · rw [if_pos hne, if_pos (hne ▸ hnew), hcore]
    · rw [if_neg hne, if_neg (hne' hne)]
      exact h.request r (hmade hr hne) (hold hne hc)
  · rw [alarms_addRequest hw, alarms_addRequest hw']
    by_cases hne : r = w.requestCount
    · rw [if_pos hne, if_pos (hne ▸ hnew)]
    · rw [if_neg hne, if_neg (hne' hne)]
      exact h.alarms r (hmade hr hne) (hold hne hc)

/-! ### Steps -/

private theorem step_cell (h : w.Mirrors ρ S limit w') (hc : S c) (p : CellPoint) :
    (p.step w c).Mirrors ρ S limit ((p.rename ρ).step w' c) := by
  have hcell := h.cell c hc
  cases p with
  | checkRegister g =>
    refine ⟨h, ?_, rfl⟩
    simp only [CellPoint.rename, CellPoint.step, hcell, Cell.expired_rename]
    split <;> rfl
  | register g =>
    simp only [CellPoint.rename, CellPoint.step, hcell, Cell.register_rename]
    refine ⟨h.setCell c _, ?_, rfl⟩
    split <;> rfl
  | checkResult r =>
    refine ⟨h, ?_, rfl⟩
    simp only [CellPoint.rename, CellPoint.step, hcell, Cell.hasResult_rename]
    split <;> rfl
  | checkExpired r =>
    refine ⟨h, ?_, rfl⟩
    simp only [CellPoint.rename, CellPoint.step, hcell, Cell.expired_rename]
    split <;> rfl
  | assign r =>
    simp only [CellPoint.rename, CellPoint.step, hcell, Cell.assign_rename]
    refine ⟨h.setCell c _, ?_, rfl⟩
    rcases ((w.cell c).assign r).2 with _ | _ | g <;> rfl
  | deliver g r a =>
    refine ⟨h, ?_, rfl⟩
    cases g <;> rfl
  | timeoutCallback =>
    refine ⟨h, ?_, rfl⟩
    simp only [CellPoint.rename, CellPoint.step, hcell, Cell.onTimeout_rename]
    split <;> rfl
  | fallback =>
    refine ⟨h, ?_, rfl⟩
    simp only [CellPoint.rename, CellPoint.step, hcell, Cell.fallback_rename]
    split <;> rfl
  | settle p =>
    refine ⟨h, ?_, rfl⟩
    simp only [CellPoint.rename, CellPoint.step]
    split <;> rfl
  | errorCallback e =>
    refine ⟨h, ?_, rfl⟩
    simp only [CellPoint.rename, CellPoint.step, hcell, Cell.onError_rename]
    split <;> rfl
  | settleError e => exact ⟨h, rfl, rfl⟩
  | expire =>
    simp only [CellPoint.rename, CellPoint.step, hcell, Cell.expire_rename]
    refine ⟨h.setCell c _, ?_, rfl⟩
    split <;> rfl
  | completionCallback =>
    refine ⟨h, ?_, rfl⟩
    simp only [CellPoint.rename, CellPoint.step, hcell, Cell.onCompletion_rename]
    split <;> rfl
  | setCallback slot id =>
    simp only [CellPoint.rename, CellPoint.step, World.modifyCell, hcell, Cell.setCallback_rename]
    exact ⟨h.setCell c _, rfl, rfl⟩
  | ask q =>
    cases q with
    | isSetOrExpired =>
      refine ⟨h, ?_, rfl⟩
      simp only [CellPoint.rename, CellPoint.step, hcell, Cell.hasResult_rename]
      split <;> rfl
    | _ =>
      refine ⟨h, ?_, rfl⟩
      simp only [CellPoint.rename, CellPoint.step, hcell, Cell.answer_rename]
      rfl
  | askExpired =>
    refine ⟨h, ?_, rfl⟩
    simp only [CellPoint.rename, CellPoint.step, hcell, Cell.expired_rename]
    rfl

private theorem step_request (h : w.Mirrors ρ S limit w') (hw : w.KeepsTimers)
    (hw' : w'.KeepsTimers) (hq : w.Owns S q) (p : RequestPoint) :
    (p.step w q).Mirrors ρ S limit (p.step w' (ρ q)) := by
  obtain ⟨name, timer, hx⟩ := Request.exists_of_core (h.request q hq.made hq.cell)
  have hcell := h.cell _ hq.cell
  have hmodify := h.modifyRequest hq.made hq.cell
  cases p with
  | arm =>
    simp only [RequestPoint.step, hx, h.clock]
    split
    · exact ⟨h, rfl, rfl⟩
    · split
      · exact ⟨h, rfl, rfl⟩
      · exact ⟨h.arm hw hw' hq.made hq.cell, rfl, rfl⟩
  | attach => exact ⟨h, by simp only [RequestPoint.step, hx]; rfl, rfl⟩
  | record r =>
    exact ⟨hmodify (fun x => { x with resolution := x.resolution.or (some r) })
      fun _ => ⟨rfl, rfl, rfl⟩, rfl, rfl⟩
  | dispatch r =>
    refine ⟨h, ?_, rfl⟩
    simp only [RequestPoint.step, hx]
    split <;> rfl
  | markTimeout =>
    refine ⟨hmodify (fun x => { x with timedOut := true }) fun _ => ⟨rfl, rfl, rfl⟩, ?_, ?_⟩
    · simp only [RequestPoint.step, hx]
      rfl
    · simp only [RequestPoint.step, hx, hcell, Cell.describe_rename]
  | timeoutHooks rest =>
    refine ⟨h, ?_, rfl⟩
    rcases rest with _ | ⟨_ | _, rest⟩ <;> rfl
  | errorHooks e rest =>
    refine ⟨h, ?_, rfl⟩
    rcases rest with _ | ⟨_ | _, rest⟩ <;> rfl
  | completionHooks rest =>
    refine ⟨h, ?_, rfl⟩
    rcases rest with _ | ⟨_ | _, rest⟩ <;> rfl
  | timeoutDefault =>
    refine ⟨h, ?_, rfl⟩
    simp only [RequestPoint.step, hx, hcell, Cell.hasResult_rename]
    split <;> rfl
  | errorDefault e =>
    refine ⟨h, ?_, rfl⟩
    simp only [RequestPoint.step, hx, hcell, Cell.hasResult_rename]
    split <;> rfl
  | checkTimeout | checkFail | checkAbandon =>
    refine ⟨h, ?_, rfl⟩
    simp only [RequestPoint.step, hx]
    split <;> rfl
  | noteFail e =>
    refine ⟨h, ?_, ?_⟩
    · simp only [RequestPoint.step, hx]
      rfl
    · simp only [RequestPoint.step, hx, hcell, Cell.describe_rename]
  | noteAbandon =>
    exact ⟨h, rfl, by simp only [RequestPoint.step, hx, hcell, Cell.describe_rename]⟩
  | completeUndelivered =>
    refine ⟨h, ?_, rfl⟩
    simp only [RequestPoint.step, hx, hcell, Cell.hasResult_rename]
    split <;> rfl
  | complete =>
    simp only [RequestPoint.step, hx]
    split
    · exact ⟨h, rfl, rfl⟩
    · exact ⟨hmodify (fun x => { x with completed := true }) fun _ => ⟨rfl, rfl, rfl⟩, rfl, rfl⟩
  | cancelTimer =>
    exact ⟨h.cancel hw hw' hq.made hq.cell, by simp only [RequestPoint.step, hx]; rfl, rfl⟩
  | tellListener =>
    simp only [RequestPoint.step, hx]
    split <;> exact ⟨h, rfl, rfl⟩
  | release =>
    exact ⟨hmodify (fun x => { x with released := true }) fun _ => ⟨rfl, rfl, rfl⟩, rfl, rfl⟩
  | await => exact ⟨h, rfl, rfl⟩
  | collect => exact ⟨h, by simp only [RequestPoint.step, hx]; rfl, rfl⟩

private theorem step_coordinator (h : w.Mirrors ρ S limit w') (hw : w.KeepsTimers)
    (hw' : w'.KeepsTimers) (p : CoordinatorPoint) (hp : (Point.coordinator k p).IsIn S w)
    {j : CoordinatorId} (hlocal : (Point.coordinator k p).IsLocal j)
    (hlimit : (p.step w k).world.requestCount ≤ limit) :
    (p.step w k).Mirrors ρ S limit ((p.rename ρ).step w' k) := by
  have hactive (q : RequestId) (hq : w.Owns S q) : (w'.request (ρ q)).cell = (w.request q).cell :=
    Request.cell_eq_of_core (h.request q hq.made hq.cell)
  cases p with
  | checkStart c d extra =>
    refine ⟨h, ?_, rfl⟩
    simp only [CoordinatorPoint.rename, CoordinatorPoint.step, h.cell c hp.1, Cell.expired_rename,
      Cell.describe_rename]
    split <;> rfl
  | draw c d extra =>
    have hnew : ρ w.requestCount = w'.requestCount := by
      simpa using h.unmade w.requestCount (Nat.le_refl _) hlimit
    have hdrawn : (w.setCoordinator k { w.coordinator k with
          drawn := (w.coordinator k).drawn + 1 }).Mirrors ρ S limit (w'.setCoordinator k
        { w'.coordinator k with drawn := (w'.coordinator k).drawn + 1 }) :=
      h.setCoordinator (h.settings k) fun d hd => h.active k d hd
    refine ⟨?_, ?_, rfl⟩
    · refine hdrawn.addRequest (hw.setCoordinator k _) (hw'.setCoordinator k _) hlimit ?_
      simp only [Coordinator.newRequest, Request.core, h.cell c hp.1, h.settings k,
        Cell.timeoutMs_rename]
    · simp only [CoordinatorPoint.rename, CoordinatorPoint.step, Next.rename, Point.rename]
      exact congrArg (fun q => Next.goto (.coordinator k (.activate q))) hnew.symm
  | activate q =>
    have hsome : (w'.coordinator k).active.contains (w.request q).cell =
        (w.coordinator k).active.contains (w.request q).cell := by
      rw [Directory.contains, Directory.contains, h.active k _ hp.cell, Option.isSome_map]
    simp only [CoordinatorPoint.rename, CoordinatorPoint.step, hactive q hp, hsome,
      h.cell _ hp.cell, Cell.describe_rename]
    split
    · exact ⟨h, rfl, rfl⟩
    · refine ⟨h.setCoordinator (h.settings k) fun c hc => ?_, rfl, rfl⟩
      rw [Directory.find?_put, Directory.find?_put]
      split
      · rfl
      · exact h.active k c hc
  | noteStart q =>
    refine ⟨h, rfl, ?_⟩
    simp only [CoordinatorPoint.rename, CoordinatorPoint.step, hactive q hp, h.cell _ hp.cell,
      Cell.describe_rename, Request.timeoutMs_eq_of_core (h.request q hp.made hp.cell)]
  | abandonAll => exact hlocal.elim
  | abandonEach n rest =>
    refine ⟨h, ?_, rfl⟩
    cases rest <;> rfl
  | retire q =>
    have hsame : (w'.coordinator k).active.find? (w.request q).cell = some (ρ q) ↔
        (w.coordinator k).active.find? (w.request q).cell = some q := by
      rw [h.active k _ hp.cell, ← Option.map_some]
      exact (Option.map_injective h.injective).eq_iff
    simp only [CoordinatorPoint.rename, CoordinatorPoint.step, hactive q hp, hsame]
    refine ⟨?_, rfl, rfl⟩
    split
    · refine h.setCoordinator (h.settings k) fun c hc => ?_
      rw [Directory.find?_erase, Directory.find?_erase]
      split
      · rfl
      · exact h.active k c hc
    · exact h
  | countActive => exact hlocal.elim

/-- Local code of a region takes the same step where the region looks the same. -/
theorem step (h : w.Mirrors ρ S limit w') (hw : w.KeepsTimers) (hw' : w'.KeepsTimers) {p : Point}
    (hp : p.IsIn S w) (hlocal : p.IsLocal k) (hlimit : (p.step w).world.requestCount ≤ limit) :
    (p.step w).Mirrors ρ S limit ((p.rename ρ).step w') := by
  cases p with
  | cell c p =>
    have hc : S c := by
      unfold Point.IsIn at hp
      split at hp <;> simp_all
    exact h.step_cell hc p
  | request q p =>
    have hq : w.Owns S q := by
      unfold Point.IsIn at hp
      split at hp <;> simp_all
    exact h.step_request hw hw' hq p
  | coordinator j p => exact h.step_coordinator hw hw' p hp hlocal hlimit

/-- It is held up in neither of them, or in both. -/
theorem isEnabled (h : w.Mirrors ρ S limit w') {p : Point} (hp : p.IsIn S w) :
    (p.rename ρ).isEnabled w' = p.isEnabled w := by
  cases p with
  | request q p =>
    cases p with
    | await =>
      obtain ⟨name, timer, hx⟩ := Request.exists_of_core (h.request q hp.made hp.cell)
      simp only [Point.rename, Point.isEnabled, hx]
    | _ => rfl
  | cell | coordinator => rfl

/-! ### Frames -/

private theorem contain (h : w.Mirrors ρ S limit w') {site : Site} {c c' : CellId}
    {e : Option String} {o : Outcome} {f f' : Answer → Next} {n n' : Next} (hc : S c)
    (hc' : c' = c) (hf : ∀ a, f' (a.rename ρ) = (f a).rename ρ) (hn : n' = n.rename ρ) :
    (Rendezvous.contain w site c e o f n).Mirrors ρ S limit
      (Rendezvous.contain w' site c' e (o.rename ρ) f' n') := by
  subst hc' hn
  cases o with
  | returned a => exact ⟨h, hf a, rfl⟩
  | raised x =>
    simp only [Rendezvous.contain, Outcome.rename, h.cell _ hc, Cell.describe_rename]
    split <;> exact ⟨h, rfl, rfl⟩

/-- Code of a region that waits for an outcome goes on in the same way where the region looks the
same. -/
theorem resume (h : w.Mirrors ρ S limit w') {f : Frame} (hf : f.IsIn S w) (o : Outcome) :
    (f.resume w o).Mirrors ρ S limit ((f.rename ρ).resume w' (o.rename ρ)) := by
  rcases f with ⟨c, f⟩ | ⟨q, f⟩ | ⟨k, n, rest⟩ | a | x
  · cases f with
    | fallback =>
      refine h.contain hf rfl (fun a => ?_) rfl
      cases a <;> rfl
    | _ => exact h.contain hf rfl (fun _ => rfl) rfl
  · have hq : w.Owns S q := by
      unfold Frame.IsIn at hf
      split at hf <;> simp_all
    have hcell := Request.cell_eq_of_core (h.request q hq.made hq.cell)
    cases f with
    | timeoutHook rest | errorHook e rest =>
      refine h.contain hq.cell hcell (fun a => ?_) rfl
      simp only [Answer.isFalse_rename]
      split <;> rfl
    | completionHook rest => exact h.contain hq.cell hcell (fun _ => rfl) rfl
    | dispatched => exact ⟨h, rfl, rfl⟩
    | settled | told => cases o <;> exact ⟨h, rfl, rfl⟩
  all_goals cases o <;> exact ⟨h, rfl, rfl⟩

end World.Mirrors

end Rendezvous
