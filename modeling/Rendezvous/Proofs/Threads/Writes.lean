import Rendezvous.Execution.Step

/-!
# What steps write

A step reads the world where it likes and writes in few places. `Point.Writes` lists the points
that write and what they write; every other point leaves the world as it is. For each kind of
object this gives the points that can change it.

## Main definitions

* `Point.Writes`: the writes of a point.

## Main results

* `Point.writes_step`: a step writes what its point writes.
* `Point.cell_step`, `Point.request_step`, `Point.active_step`: the points that change a cell, a
  request, or the requests in flight.
-/

namespace Rendezvous

namespace World

variable (w : World)

@[simp] theorem cell_arm (q : RequestId) (c : CellId) : (w.arm q).cell c = w.cell c := rfl

@[simp] theorem coordinator_arm (q : RequestId) (k : CoordinatorId) :
    (w.arm q).coordinator k = w.coordinator k := rfl

@[simp] theorem requestCount_arm (q : RequestId) : (w.arm q).requestCount = w.requestCount := rfl

theorem request_arm (q r : RequestId) : (w.arm q).request r =
    if r = q then { w.request q with timer := some w.timerCount } else w.request r :=
  w.requests.get_set q r _

@[simp] theorem cell_cancel (q : RequestId) (c : CellId) : (w.cancel q).cell c = w.cell c := by
  unfold cancel
  split <;> rfl

@[simp] theorem request_cancel (q r : RequestId) : (w.cancel q).request r = w.request r := by
  unfold cancel
  split <;> rfl

@[simp] theorem coordinator_cancel (q : RequestId) (k : CoordinatorId) :
    (w.cancel q).coordinator k = w.coordinator k := by
  unfold cancel
  split <;> rfl

@[simp] theorem requestCount_cancel (q : RequestId) :
    (w.cancel q).requestCount = w.requestCount := by
  unfold cancel
  split <;> rfl

@[simp] theorem cell_addRequest (x : Request) (c : CellId) :
    (w.addRequest x).1.cell c = w.cell c := rfl

@[simp] theorem coordinator_addRequest (x : Request) (k : CoordinatorId) :
    (w.addRequest x).1.coordinator k = w.coordinator k := rfl

@[simp] theorem requestCount_addRequest (x : Request) :
    (w.addRequest x).1.requestCount = w.requestCount + 1 := rfl

theorem request_addRequest (x : Request) (q : RequestId) :
    (w.addRequest x).1.request q = if q = w.requestCount then x else w.request q :=
  w.requests.get_set w.requestCount q x

@[simp] theorem cell_fire (t : Timer) (c : CellId) : (w.fire t).cell c = w.cell c := rfl

@[simp] theorem request_fire (t : Timer) (q : RequestId) :
    (w.fire t).request q = w.request q := rfl

@[simp] theorem coordinator_fire (t : Timer) (k : CoordinatorId) :
    (w.fire t).coordinator k = w.coordinator k := rfl

@[simp] theorem requestCount_fire (t : Timer) :
    (w.fire t).requestCount = w.requestCount := rfl

end World

namespace Point

/-- What the step at a point writes. -/
inductive Writes (w : World) : Point → World → Prop
  | nothing (p : Point) : Writes w p w
  | register (c : CellId) (h : Handler) :
    Writes w (.cell c (.register h)) (w.setCell c ((w.cell c).register h).1)
  | assign (c : CellId) (r : Resolution) :
    Writes w (.cell c (.assign r)) (w.setCell c ((w.cell c).assign r).1)
  | expire (c : CellId) : Writes w (.cell c .expire) (w.setCell c (w.cell c).expire.1)
  | setCallback (c : CellId) (slot : CallbackSlot) (id : Option CallbackId) :
    Writes w (.cell c (.setCallback slot id)) (w.modifyCell c (·.setCallback slot id))
  | arm (q : RequestId) : Writes w (.request q .arm) (w.arm q)
  | record (q : RequestId) (r : Resolution) :
    Writes w (.request q (.record r))
      (w.modifyRequest q fun x => { x with resolution := x.resolution.or (some r) })
  | markTimeout (q : RequestId) :
    Writes w (.request q .markTimeout) (w.setRequest q { w.request q with timedOut := true })
  | complete (q : RequestId) :
    Writes w (.request q .complete) (w.modifyRequest q fun x => { x with completed := true })
  | cancelTimer (q : RequestId) : Writes w (.request q .cancelTimer) (w.cancel q)
  | release (q : RequestId) :
    Writes w (.request q .release) (w.modifyRequest q fun x => { x with released := true })
  | draw (k : CoordinatorId) (c : CellId) (d : Option CallbackId) (extra : List Interceptor) :
    Writes w (.coordinator k (.draw c d extra))
      ((w.setCoordinator k { w.coordinator k with drawn := (w.coordinator k).drawn + 1 }).addRequest
        ((w.coordinator k).newRequest k c (w.cell c) d extra)).1
  | activate (k : CoordinatorId) (q : RequestId)
      (h : (w.coordinator k).active.contains (w.request q).cell = false) :
    Writes w (.coordinator k (.activate q)) (w.setCoordinator k
      { w.coordinator k with active := (w.coordinator k).active.put (w.request q).cell q })
  | retire (k : CoordinatorId) (q : RequestId)
      (h : (w.coordinator k).active.find? (w.request q).cell = some q) :
    Writes w (.coordinator k (.retire q)) (w.setCoordinator k
      { w.coordinator k with active := (w.coordinator k).active.erase (w.request q).cell })

variable (w : World) (p : Point)

private theorem writes_cell (c : CellId) (p : CellPoint) :
    Writes w (.cell c p) (p.step w c).world := by
  cases p with
  | register h => exact .register c h
  | assign r => exact .assign c r
  | expire => exact .expire c
  | setCallback slot id => exact .setCallback c slot id
  | ask q => cases q <;> exact .nothing _
  | _ => exact .nothing _

private theorem writes_request (q : RequestId) (p : RequestPoint) :
    Writes w (.request q p) (p.step w q).world := by
  cases p with
  | arm =>
    simp only [RequestPoint.step]
    split
    · exact .nothing _
    · split
      · exact .nothing _
      · exact .arm q
  | record r => exact .record q r
  | markTimeout => exact .markTimeout q
  | complete =>
    simp only [RequestPoint.step]
    split
    · exact .nothing _
    · exact .complete q
  | cancelTimer => exact .cancelTimer q
  | release => exact .release q
  | tellListener =>
    simp only [RequestPoint.step]
    split <;> exact .nothing _
  | _ => exact .nothing _

private theorem writes_coordinator (k : CoordinatorId) (p : CoordinatorPoint) :
    Writes w (.coordinator k p) (p.step w k).world := by
  cases p with
  | draw c d extra => exact .draw k c d extra
  | activate q =>
    simp only [CoordinatorPoint.step]
    split
    · exact .nothing _
    · rename_i h
      exact .activate k q (by simpa using h)
  | retire q =>
    simp only [CoordinatorPoint.step]
    split
    · rename_i h
      exact .retire k q h
    · exact .nothing _
  | _ => exact .nothing _

/-- A step writes what its point writes. -/
theorem writes_step : Writes w p (p.step w).world := by
  cases p with
  | cell c p => exact writes_cell w c p
  | request q p => exact writes_request w q p
  | coordinator k p => exact writes_coordinator w k p

/-! ### Cells -/

/-- The points that change a cell. -/
theorem cell_step (c : CellId) :
    (p.step w).world.cell c = w.cell c ∨
    (∃ h, p = .cell c (.register h) ∧ (p.step w).world.cell c = ((w.cell c).register h).1) ∨
    (∃ r, p = .cell c (.assign r) ∧ (p.step w).world.cell c = ((w.cell c).assign r).1) ∨
    (p = .cell c .expire ∧ (p.step w).world.cell c = (w.cell c).expire.1) ∨
    (∃ slot id, p = .cell c (.setCallback slot id) ∧
      (p.step w).world.cell c = (w.cell c).setCallback slot id) := by
  generalize hw : (p.step w).world = w'
  have h : Writes w p w' := hw ▸ writes_step w p
  cases h with
  | register d h =>
    by_cases hd : c = d
    · exact .inr (.inl ⟨h, by simp [hd]⟩)
    · exact .inl (by simp [hd])
  | assign d r =>
    by_cases hd : c = d
    · exact .inr (.inr (.inl ⟨r, by simp [hd]⟩))
    · exact .inl (by simp [hd])
  | expire d =>
    by_cases hd : c = d
    · exact .inr (.inr (.inr (.inl (by simp [hd]))))
    · exact .inl (by simp [hd])
  | setCallback d slot id =>
    by_cases hd : c = d
    · exact .inr (.inr (.inr (.inr ⟨slot, id, by simp [hd, World.modifyCell]⟩)))
    · exact .inl (by simp [hd, World.modifyCell])
  | _ => exact .inl (by simp [World.modifyRequest])

/-- Expiry is never undone. -/
theorem expired_step {c : CellId} (h : (w.cell c).expired = true) :
    ((p.step w).world.cell c).expired = true := by
  rcases p.cell_step w c with he | ⟨_, -, he⟩ | ⟨_, -, he⟩ | ⟨-, he⟩ | ⟨slot, _, -, he⟩ <;> rw [he]
  · exact h
  · simpa using h
  · simpa using h
  · simp
  · cases slot <;> exact h

/-- A resolution is never replaced. -/
theorem result_step {c : CellId} {r : Resolution} (h : (w.cell c).result = some r) :
    ((p.step w).world.cell c).result = some r := by
  rcases p.cell_step w c with he | ⟨_, -, he⟩ | ⟨_, -, he⟩ | ⟨-, he⟩ | ⟨slot, _, -, he⟩ <;> rw [he]
  · exact h
  · simpa using h
  · rw [Cell.assign_fst_result, if_pos (by simp [Cell.isSetOrExpired, h]), h]
  · simpa using h
  · cases slot <;> exact h

/-- A cell that has expired takes no resolution. -/
theorem result_step_of_expired {c : CellId} (h : (w.cell c).expired = true) :
    ((p.step w).world.cell c).result = (w.cell c).result := by
  rcases p.cell_step w c with he | ⟨_, -, he⟩ | ⟨_, -, he⟩ | ⟨-, he⟩ | ⟨slot, _, -, he⟩ <;> rw [he]
  · simp
  · simp [Cell.assign_fst_result, Cell.isSetOrExpired, h]
  · simp
  · cases slot <;> rfl

/-! ### Requests -/

/-- The points that change a request. -/
theorem request_step (q : RequestId) :
    (p.step w).world.request q = w.request q ∨
    (p = .request q .arm ∧
      (p.step w).world.request q = { w.request q with timer := some w.timerCount }) ∨
    (∃ r, p = .request q (.record r) ∧ (p.step w).world.request q =
      { w.request q with resolution := (w.request q).resolution.or (some r) }) ∨
    (p = .request q .markTimeout ∧
      (p.step w).world.request q = { w.request q with timedOut := true }) ∨
    (p = .request q .complete ∧
      (p.step w).world.request q = { w.request q with completed := true }) ∨
    (p = .request q .release ∧
      (p.step w).world.request q = { w.request q with released := true }) ∨
    (∃ k c d extra, p = .coordinator k (.draw c d extra) ∧ q = w.requestCount ∧
      (p.step w).world.request q = (w.coordinator k).newRequest k c (w.cell c) d extra) := by
  generalize hw : (p.step w).world = w'
  have h : Writes w p w' := hw ▸ writes_step w p
  cases h with
  | arm r =>
    by_cases hr : q = r
    · exact .inr (.inl (by simp [hr, World.request_arm]))
    · exact .inl (by simp [hr, World.request_arm])
  | record r x =>
    by_cases hr : q = r
    · exact .inr (.inr (.inl ⟨x, by simp [hr, World.modifyRequest]⟩))
    · exact .inl (by simp [hr, World.modifyRequest])
  | markTimeout r =>
    by_cases hr : q = r
    · exact .inr (.inr (.inr (.inl (by simp [hr]))))
    · exact .inl (by simp [hr])
  | complete r =>
    by_cases hr : q = r
    · exact .inr (.inr (.inr (.inr (.inl (by simp [hr, World.modifyRequest])))))
    · exact .inl (by simp [hr, World.modifyRequest])
  | release r =>
    by_cases hr : q = r
    · exact .inr (.inr (.inr (.inr (.inr (.inl (by simp [hr, World.modifyRequest]))))))
    · exact .inl (by simp [hr, World.modifyRequest])
  | draw k c d extra =>
    by_cases hq : q = w.requestCount
    · refine .inr (.inr (.inr (.inr (.inr (.inr ⟨k, c, d, extra, rfl, hq, ?_⟩)))))
      exact (World.request_addRequest ..).trans (if_pos hq)
    · exact .inl ((World.request_addRequest ..).trans (if_neg hq))
  | _ => exact .inl (by simp [World.modifyCell])

/-- A start makes a request with the next number. -/
theorem request_step_draw (k : CoordinatorId) (c : CellId) (d : Option CallbackId)
    (extra : List Interceptor) :
    ((Point.coordinator k (.draw c d extra)).step w).world.request w.requestCount =
      (w.coordinator k).newRequest k c (w.cell c) d extra :=
  (World.request_addRequest ..).trans (if_pos rfl)

/-- The number of requests grows when a start makes one. -/
theorem requestCount_step :
    (p.step w).world.requestCount = w.requestCount ∨
    (∃ k c d extra, p = .coordinator k (.draw c d extra) ∧
      (p.step w).world.requestCount = w.requestCount + 1) := by
  generalize hw : (p.step w).world = w'
  have h : Writes w p w' := hw ▸ writes_step w p
  cases h with
  | draw k c d extra => exact .inr ⟨k, c, d, extra, rfl, rfl⟩
  | cancelTimer q => exact .inl (by simp)
  | _ => exact .inl rfl

theorem requestCount_le_step : w.requestCount ≤ (p.step w).world.requestCount := by
  rcases p.requestCount_step w with h | ⟨_, _, _, _, -, h⟩ <;> omega

/-- No step exchanges the clock. -/
theorem clock_step : (p.step w).world.clock = w.clock := by
  generalize hw : (p.step w).world = w'
  have h : Writes w p w' := hw ▸ writes_step w p
  cases h with
  | cancelTimer q =>
    unfold World.cancel
    split <;> rfl
  | _ => rfl

/-! ### Coordinators -/

/-- The points that change the requests in flight. -/
theorem active_step (k : CoordinatorId) :
    ((p.step w).world.coordinator k).active = (w.coordinator k).active ∨
    (∃ q, p = .coordinator k (.activate q) ∧
      (w.coordinator k).active.contains (w.request q).cell = false ∧
      ((p.step w).world.coordinator k).active =
        (w.coordinator k).active.put (w.request q).cell q) ∨
    (∃ q, p = .coordinator k (.retire q) ∧
      (w.coordinator k).active.find? (w.request q).cell = some q ∧
      ((p.step w).world.coordinator k).active =
        (w.coordinator k).active.erase (w.request q).cell) := by
  generalize hw : (p.step w).world = w'
  have h : Writes w p w' := hw ▸ writes_step w p
  cases h with
  | draw j c d extra =>
    refine .inl ?_
    simp only [World.coordinator_addRequest, World.coordinator_setCoordinator]
    split
    · simp [*]
    · rfl
  | activate j q h =>
    by_cases hj : k = j
    · subst hj
      exact .inr (.inl ⟨q, rfl, h, by simp⟩)
    · exact .inl (by simp [hj])
  | retire j q h =>
    by_cases hj : k = j
    · subst hj
      exact .inr (.inr ⟨q, rfl, h, by simp⟩)
    · exact .inl (by simp [hj])
  | _ => exact .inl (by simp [World.modifyCell, World.modifyRequest])

end Point

end Rendezvous
