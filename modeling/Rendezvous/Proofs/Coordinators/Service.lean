import Rendezvous.Proofs.Coordinators.Registration
import Rendezvous.Proofs.Requests.Handlers

/-!
# The service of a request

A start registers the request that it has activated with the cell of the request, and whoever
resolves the cell hands the resolution over and completes the request. As long as nobody else is
registered with the cell and the cell has not expired, a request that is not completed is in the
hands of such a call, or it waits in its cell.

## Main definitions

* `Activation.Delivers`: a call takes a resolution to a request, and completes it.
* `Activation.Serves`: a call registers a request, or completes it.
* `System.IsPending`: an activated request that can be timed still has to be completed.
* `System.RegistersOnly`: nobody but a request is about to be registered with a cell.

## Main results

* `System.Transition.waits`: how a request that waits in its cell goes on.
* `System.Transition.isServed`: a pending request stays served.
-/

namespace Rendezvous

/-- Whether a point is on the way of a request to its cell. -/
def Point.Attaches (q : RequestId) : Point → Prop
  | .coordinator _ (.noteStart r) | .request r .arm | .request r .attach => r = q
  | .cell _ (.checkRegister h) | .cell _ (.register h) => h = .request q
  | _ => False

/-- Whether a point is on the way of a resolution to a request and through its dispatch. -/
def Point.Delivers (q : RequestId) : Point → Prop
  | .cell _ (.deliver h _ _) => h = .request q
  | .request r (.record _) | .request r (.dispatch _) | .request r .complete => r = q
  | _ => False

/-- Whether a call takes a resolution to a request, and completes it. -/
inductive Activation.Delivers (q : RequestId) : Activation → Prop
  | point (p : Point) (frames : List Frame) (hp : p.Delivers q) : Delivers q ⟨.ready p, frames⟩
  | dispatched (a : Activation) (hf : .request q .dispatched ∈ a.frames) : Delivers q a

/-- Whether a call registers a request, or completes it. -/
inductive Activation.Serves (q : RequestId) : Activation → Prop
  | attaches (p : Point) (frames : List Frame) (hp : p.Attaches q) : Serves q ⟨.ready p, frames⟩
  | delivers (a : Activation) (ha : a.Delivers q) : Serves q a

variable {w : World} {p : Point} {q : RequestId} {frames : List Frame}

/-! ### From the activation to the cell -/

theorem Point.next_arm (h : (w.request q).CanBeTimed w.clock) :
    ((Point.request q .arm).step w).next = .goto (.request q .attach) := by
  simp only [Point.step, RequestPoint.step]
  split
  · rfl
  · rename_i hpositive
    rw [if_neg (h.resolve_left hpositive)]

/-- A call on the way to the cell goes on with that until the request waits there. -/
private theorem attaches_step (hp : p.Attaches q) (ho : p.Owns w)
    (he : ((p.step w).world.cell (w.request q).cell).expired = false)
    (ht : (w.request q).CanBeTimed w.clock) :
    (Activation.follow frames (p.step w).next).Serves q ∨
      ((p.step w).world.cell (w.request q).cell).handler = some (.request q) := by
  unfold Point.Attaches at hp
  split at hp <;> cases hp
  · exact .inl (.attaches _ _ rfl)
  · rw [Point.next_arm ht]
    exact .inl (.attaches _ _ rfl)
  · exact .inl (.attaches _ _ rfl)
  · obtain rfl : (w.request q).cell = _ := ho
    left
    simp only [Point.step, CellPoint.step] at he ⊢
    rw [if_neg (by simpa using he)]
    exact .attaches _ _ rfl
  · obtain rfl : (w.request q).cell = _ := ho
    have he : (w.cell (w.request q).cell).expired = false := by
      simpa [Point.step, CellPoint.step] using he
    cases hr : (w.cell (w.request q).cell).result with
    | none =>
      right
      simp [Point.step, CellPoint.step, Cell.register, he, hr]
    | some r =>
      left
      simp only [Point.step, CellPoint.step, Cell.register_snd_eq_deliver.mpr ⟨he, hr⟩]
      exact .delivers _ (.point _ _ rfl)

/-- A call that takes a resolution to a request goes on with that until the request is completed. -/
private theorem delivers_step (h : (⟨.ready p, frames⟩ : Activation).Delivers q) :
    (Activation.follow frames (p.step w).next).Delivers q ∨
      ((p.step w).world.request q).completed = true := by
  cases h with
  | dispatched a hf => exact .inl (.dispatched _ (Activation.mem_frames_follow.mpr (.inr hf)))
  | point p frames hp =>
    unfold Point.Delivers at hp
    split at hp <;> cases hp
    · exact .inl (.point _ _ rfl)
    · exact .inl (.point _ _ rfl)
    · left
      simp only [Point.step, RequestPoint.step]
      split
      · exact .dispatched _ List.mem_cons_self
      · exact .point _ _ rfl
    · right
      simp only [Point.step, RequestPoint.step]
      split
      · assumption
      · simp [World.modifyRequest]

private theorem delivers_resume {f : Frame} {o : Outcome}
    (h : (⟨.ended o, f :: frames⟩ : Activation).Delivers q) :
    (Activation.follow frames (f.resume w o).next).Delivers q := by
  cases h with
  | dispatched a hf =>
    rcases List.mem_cons.mp hf with rfl | hf
    · exact .point _ _ rfl
    · exact .dispatched _ (Activation.mem_frames_follow.mpr (.inr hf))

private theorem delivers_answer {i : Invocation} {o : Outcome}
    (h : (⟨.inside i, frames⟩ : Activation).Delivers q) :
    (⟨.ended o, frames⟩ : Activation).Delivers q := by
  cases h with
  | dispatched a hf => exact .dispatched _ hf

private theorem not_delivers_nil {o : Outcome} : ¬ (⟨.ended o, []⟩ : Activation).Delivers q := by
  rintro ⟨⟩
  contradiction

theorem Call.not_serves_wait (r : RequestId) : ¬ (Call.wait r).activation.Serves q := by
  intro h
  cases h with
  | attaches p frames hp => exact hp.elim
  | delivers a ha =>
    cases ha with
    | point p frames hp => exact hp.elim
    | dispatched a hf => cases hf

namespace System

/-- Whether an activated request that can be timed still has to be completed, on a cell that has not
expired. -/
structure IsPending (s : System) (q : RequestId) : Prop where
  activated : s.IsActivated q
  completed : (s.world.request q).completed = false
  expired : (s.world.cell (s.world.request q).cell).expired = false
  timed : (s.world.request q).CanBeTimed s.world.clock

/-- Whether a call serves a request, or the request waits in its cell. -/
def IsServed (s : System) (q : RequestId) : Prop :=
  (∃ x ∈ s.ongoing, x.activation.Serves q) ∨
    (s.world.cell (s.world.request q).cell).handler = some (.request q)

/-- Whether nobody but a request is about to be registered with a cell. -/
def RegistersOnly (s : System) (c : CellId) (q : RequestId) : Prop :=
  ∀ x ∈ s.ongoing, ∀ h, x.activation.control = .ready (.cell c (.register h)) → h = .request q

variable {s s' : System} {m : Move} {allowed : Move → Prop}

/-- A call that takes a resolution to a request goes on with that until the request is completed. -/
theorem Transition.delivers (ht : Transition s m s')
    (hx : ∃ x ∈ s.ongoing, x.activation.Delivers q) :
    (∃ x ∈ s'.ongoing, x.activation.Delivers q) ∨ (s'.world.request q).completed = true :=
  exists_ongoing_of_transition ht hx (fun _ _ _ _ _ hw _ h => hw ▸ delivers_step h)
    (fun _ _ _ _ _ _ _ _ h => .inl (delivers_resume h)) (fun _ _ _ h => delivers_answer h)
    fun _ => not_delivers_nil

/-- A request that waits in its cell stays there until it is handed a resolution, or the cell
expires without one. -/
theorem Transition.waits (ht : Transition s m s') (hs : Reachable allowed s) {c : CellId}
    (honly : (s.world.cell c).expired = false → s.RegistersOnly c q)
    (hh : (s.world.cell c).handler = some (.request q)) :
    (∃ x ∈ s'.ongoing, x.activation.Delivers q) ∨
      (s'.world.cell c).handler = some (.request q) ∨
      (s'.world.cell c).expired = true ∧ (s'.world.cell c).result = none := by
  have hopen : (s.world.cell c).isSetOrExpired = false := hs.settled c (by simp [hh])
  have hboth : (s.world.cell c).result = none ∧ (s.world.cell c).expired = false := by
    simpa [Cell.isSetOrExpired] using hopen
  rcases ht.world with ⟨-, hcell, -⟩ | ⟨t, j, p, frames, hx, -, hw, -, hgoes⟩
  · exact .inr (.inl (by rwa [hcell]))
  · rw [hw]
    rcases p.cell_step s.world c with h | ⟨h, rfl, hr⟩ | ⟨r, rfl, -⟩ | ⟨rfl, h⟩ | ⟨slot, _, -, h⟩
    · exact .inr (.inl (by rwa [h]))
    · right
      left
      rw [hr, honly hboth.2 _ hx h rfl]
      simp [Cell.register, hboth]
    · refine .inl ⟨_, hgoes, ?_⟩
      simp only [Point.step, CellPoint.step, Cell.assign_snd_eq_accepted.mpr ⟨hopen, hh⟩]
      exact .point _ _ rfl
    · exact .inr (.inr (by simp [h, hboth.1]))
    · right
      left
      rw [h]
      cases slot <;> exact hh

/-- A pending request stays served, as long as nobody else is registered with its cell. -/
theorem Transition.isServed (ht : Transition s m s') (hs : Reachable allowed s)
    (honly : s.IsActivated q → (s.world.cell (s.world.request q).cell).expired = false →
      s.RegistersOnly (s.world.request q).cell q)
    (ih : s.IsPending q → s.IsServed q) (h : s'.IsPending q) : s'.IsServed q := by
  obtain ⟨hq, hc, he, htimed⟩ := h
  rcases ht.activated hq with hq | ⟨t, j, i, frames, hx, -, -, hgoes⟩
  · have hgrows := ht.grows.request q (hs.lt_of_isActivated hq)
    have hcell := Request.cell_eq_of_fixed hgrows.fixed
    have htimed' := (ht.grows.canBeTimed_iff (hs.lt_of_isActivated hq)).mp htimed
    rw [hcell] at he
    rw [IsServed, hcell]
    have hold := ih
      ⟨hq, Bool.eq_false_iff.mpr fun h => by simp [hgrows.completed h] at hc,
        Bool.eq_false_iff.mpr fun h => by simp [ht.grows.expired _ h] at he, htimed'⟩
    rcases hold with hx | hh
    · refine exists_ongoing_of_transition ht hx ?_ ?_ ?_ ?_
      · intro t j p frames hx hw _ h
        rw [hw] at hc he ⊢
        cases h with
        | attaches p frames hp => exact attaches_step hp (hs.owns_of_ready hx rfl) he htimed'
        | delivers a ha =>
          rcases delivers_step ha with ha | hdone
          · exact .inl (.delivers _ ha)
          · simp [hdone] at hc
      · intro t j o f frames _ _ _ h
        cases h with
        | delivers a ha => exact .inl (.delivers _ (delivers_resume ha))
      · intro i frames o h
        cases h with
        | delivers a ha => exact .delivers _ (delivers_answer ha)
      · intro o h
        cases h with
        | delivers a ha => exact not_delivers_nil ha
    · rcases ht.waits hs (honly hq) hh with ⟨x, hx, h⟩ | hh | ⟨hexpired, -⟩
      · exact .inl ⟨x, hx, .delivers _ h⟩
      · exact .inr hh
      · simp [hexpired] at he
  · exact .inl ⟨_, hgoes, .attaches _ _ rfl⟩

/-- When no call is in progress, a request that is served waits in its cell. -/
theorem IsServed.waits (h : s.IsServed q) (hi : s.IsIdle) :
    (s.world.cell (s.world.request q).cell).handler = some (.request q) := by
  refine h.resolve_left fun ⟨x, hx, hserves⟩ => ?_
  obtain ⟨r, hr⟩ := hi x hx
  exact Call.not_serves_wait r (hr ▸ hserves)

end System

end Rendezvous
