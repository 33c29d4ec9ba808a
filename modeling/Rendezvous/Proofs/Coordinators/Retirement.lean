import Rendezvous.Proofs.Coordinators.Activation
import Rendezvous.Proofs.Threads.Courses

/-!
# Retirement

In an orderly run nothing stops the pass that a completed request makes: through its interceptors,
out of those in flight, and to the release of those who wait. Whenever no call is in progress, a
completed request has been through all of it. The hooks of a cell are called in such a pass only, so
a cell that has expired is spent: its hooks accompany a completed request.

## Main definitions

* `Activation.IsCompleting`, `Activation.IsReleasing`: a call takes a completed request through its
  interceptors, or has retired it.
* `World.IsSpent`: the hooks of a cell accompany a completed request.

## Main results

* `System.Reachable.retired_of_completed`: when no call is in progress, a completed request is
  through its pass.
* `System.Reachable.isSpent_or_hasBegun`: a cell that has expired is spent, or user code has called
  the hook that ends its life.
-/

namespace Rendezvous

/-- Whether a point belongs to the pass through the interceptors of a completed request. -/
def Point.IsCompleting (q : RequestId) : Point → Prop
  | .request r .cancelTimer | .request r (.completionHooks _) | .request r .tellListener => r = q
  | _ => False

/-- Whether a call takes a completed request through its interceptors and out of those in flight. -/
inductive Activation.IsCompleting (q : RequestId) : Activation → Prop
  | point (p : Point) (frames : List Frame) (hp : p.IsCompleting q) :
    IsCompleting q ⟨.ready p, frames⟩
  | hook (rest : List Interceptor) (a : Activation)
      (hf : .request q (.completionHook rest) ∈ a.frames) : IsCompleting q a
  | retire (k : CoordinatorId) (frames : List Frame) :
    IsCompleting q ⟨.ready (.coordinator k (.retire q)), .request q .told :: frames⟩

/-- Whether a call has retired a request and comes to releasing those who wait for it. -/
inductive Activation.IsReleasing (q : RequestId) : Activation → Prop
  | told (a : Answer) (frames : List Frame) :
    IsReleasing q ⟨.ended (.returned a), .request q .told :: frames⟩
  | release (frames : List Frame) : IsReleasing q ⟨.ready (.request q .release), frames⟩

/-- Whether the hooks of a cell accompany a completed request. -/
def World.IsSpent (w : World) (c : CellId) : Prop :=
  ∃ q, (w.request q).completed = true ∧ .hooks c ∈ (w.request q).interceptors

variable {w : World} {p : Point} {k : CoordinatorId} {q : RequestId} {frames : List Frame}

/-! ### Through the interceptors -/

private theorem isCompleting_follow_of_mem {n : Next} {rest : List Interceptor}
    (h : .request q (.completionHook rest) ∈ frames) :
    (Activation.follow frames n).IsCompleting q :=
  .hook rest _ (Activation.mem_frames_follow.mpr (.inr h))

private theorem isCompleting_step (hq : (w.request q).listener = .coordinator k)
    (h : (⟨.ready p, frames⟩ : Activation).IsCompleting q) :
    (Activation.follow frames (p.step w).next).IsCompleting q ∨
      ∃ i rest, p = .coordinator i (.retire q) ∧ frames = .request q .told :: rest := by
  cases h with
  | hook rest a hf => exact .inl (isCompleting_follow_of_mem hf)
  | retire i frames => exact .inr ⟨i, frames, rfl, rfl⟩
  | point p frames hp =>
    left
    unfold Point.IsCompleting at hp
    split at hp
    · cases hp
      exact .point _ _ rfl
    · rename_i r rest
      cases hp
      rcases rest with _ | ⟨⟨c⟩ | ⟨i, j, k⟩, rest⟩
      · exact .point _ _ rfl
      · exact .hook rest _ List.mem_cons_self
      · exact .hook rest _ List.mem_cons_self
    · cases hp
      simp only [Point.step, RequestPoint.step, hq]
      exact .retire k frames
    · exact hp.elim

private theorem isCompleting_resume {f : Frame} {o : Outcome} (ho : o.IsContainable)
    (h : (⟨.ended o, f :: frames⟩ : Activation).IsCompleting q) :
    (Activation.follow frames (f.resume w o).next).IsCompleting q := by
  cases h with
  | hook rest a hf =>
    rcases List.mem_cons.mp hf with rfl | hf
    · have hnext : ((Frame.request q (.completionHook rest)).resume w o).next =
          .goto (.request q (.completionHooks rest)) := by
        cases o with
        | returned a => rfl
        | raised e =>
          have he : e.isOrdinary = true := ho
          simp [Frame.resume, RequestFrame.resume, contain, he]
      rw [hnext]
      exact .point _ _ rfl
    · exact isCompleting_follow_of_mem hf

namespace System

variable {s s' : System} {m : Move}

/-- In an orderly run every completed request was activated. -/
private theorem Reachable.activated_of_completed (hs : Reachable (Move.IsOrderly k) s)
    (hc : (s.world.request q).completed = true) : s.IsActivated q :=
  hs.isActivated_of_completed (hs.isStarted_of_lt (hs.isBounded.world.lt_of_completed hc)) hc

/-- Whether a request is out of those in flight, and released or about to be. -/
private def IsRetired (k : CoordinatorId) (s : System) (q : RequestId) : Prop :=
  (s.world.coordinator k).active.find? (s.world.request q).cell ≠ some q ∧
    ((∃ x ∈ s.ongoing, x.activation.IsReleasing q) ∨ s.IsReleased q)

/-- A completed request does not come back among those in flight. -/
private theorem find?_ne_of_transition (hs : Reachable (Move.IsOrderly k) s)
    (ht : Transition s m s') (hc : (s.world.request q).completed = true)
    (h : (s.world.coordinator k).active.find? (s.world.request q).cell ≠ some q) :
    (s'.world.coordinator k).active.find? (s.world.request q).cell ≠ some q := by
  rcases ht.world with ⟨-, -, hcoordinator, -⟩ | ⟨t, j, p, frames, hx, -, hw, -⟩
  · rwa [hcoordinator]
  · rw [hw]
    rcases p.active_step s.world k with ha | ⟨r, rfl, -, ha⟩ | ⟨r, -, -, ha⟩ <;> rw [ha]
    · exact h
    · rw [Directory.find?_put]
      split
      · -- Whatever is activated now was not activated before, so nobody can have completed it.
        rintro ⟨⟩
        exact hs.not_isActivated hx rfl (hs.activated_of_completed hc)
      · exact h
    · rw [Directory.find?_erase]
      split
      · simp
      · exact h

private theorem isRetired_of_transition (hs : Reachable (Move.IsOrderly k) s)
    (ht : Transition s m s') (hc : (s.world.request q).completed = true)
    (h : s.IsRetired k q) : s'.IsRetired k q := by
  have hlt := hs.lt_of_isActivated (hs.activated_of_completed hc)
  have hgrows := ht.grows.request q hlt
  refine ⟨?_, ?_⟩
  · rw [Request.cell_eq_of_fixed hgrows.fixed]
    exact find?_ne_of_transition hs ht hc h.1
  · rcases h.2 with hx | hr
    · refine exists_ongoing_of_transition ht hx ?_ ?_ ?_ ?_
      · intro t j p frames hx hw _ h
        cases h
        refine .inr ?_
        rw [IsReleased, hw]
        simp [Point.step, RequestPoint.step, World.modifyRequest]
      · intro t j o f frames hx hw _ h
        cases h
        exact .inl (.release frames)
      · intro i frames o h
        cases h
      · intro o h
        cases h
    · exact .inr (hgrows.released hr)

private theorem isRetired_of_retire (ht : Transition s m s') {i : CoordinatorId} {t : ThreadId}
    {j : CallNumber} (hi : i = k) (hq : q < s.world.requestCount)
    (hw : s'.world = ((Point.coordinator i (.retire q)).step s.world).world)
    (hx : ⟨t, j, .follow (.request q .told :: frames)
      ((Point.coordinator i (.retire q)).step s.world).next⟩ ∈ s'.ongoing) : s'.IsRetired k q := by
  refine ⟨?_, .inl ⟨_, hx, .told .unit frames⟩⟩
  subst hi
  rw [Request.cell_eq_of_fixed (ht.grows.request q hq).fixed, hw]
  by_cases h : (s.world.coordinator i).active.find? (s.world.request q).cell = some q
  · simp [Point.step, CoordinatorPoint.step, h, Directory.find?_erase]
  · simp [Point.step, CoordinatorPoint.step, h]

/-- A completed request is in the pass through its interceptors, or it is out of those in flight and
released or about to be. -/
private theorem Reachable.completing_or_isRetired (hs : Reachable (Move.IsOrderly k) s)
    (hc : (s.world.request q).completed = true) :
    (∃ x ∈ s.ongoing, x.activation.IsCompleting q) ∨ s.IsRetired k q := by
  refine hs.induction (I := fun s => ∀ q, (s.world.request q).completed = true →
    (∃ x ∈ s.ongoing, x.activation.IsCompleting q) ∨ s.IsRetired k q)
    (fun w hw q hc => ?_) (fun s m s' hs _ ht ih q hc => ?_) q hc
  · rw [hw.request_eq q] at hc
    cases hc
  · rcases ht.completed hs.isBounded hc with hold | ⟨hopen, t, j, frames, -, -, hgoes⟩
    · have hlt := hs.lt_of_isActivated (hs.activated_of_completed hold)
      rcases ih q hold with hx | hretired
      · refine exists_ongoing_of_transition ht hx ?_ ?_ ?_ ?_
        · intro t j p frames hx hw hx' h
          rcases isCompleting_step (hs.request_isOrderly hlt).listener h with
            h | ⟨i, rest, rfl, rfl⟩
          · exact .inl h
          · exact .inr (isRetired_of_retire ht ((hs.isOrderly_of_mem hx).point _ rfl) hlt hw hx')
        · intro t j o f frames hx _ _ h
          exact .inl (isCompleting_resume ((hs.isOrderly_of_mem hx).outcome o rfl) h)
        · intro i frames o h
          cases h with
          | hook rest a hf => exact .hook rest _ hf
        · intro o h
          cases h with
          | hook rest a hf => cases hf
      · exact .inr (isRetired_of_transition hs ht hold hretired)
    · refine .inl ⟨_, hgoes, ?_⟩
      simp only [Point.step, RequestPoint.step, hopen]
      exact .point _ _ rfl

/-- When no call is in progress, a completed request is out of those in flight and released. -/
theorem Reachable.retired_of_completed (hs : Reachable (Move.IsOrderly k) s) (hi : s.IsIdle)
    (hc : (s.world.request q).completed = true) :
    (s.world.coordinator k).active.find? (s.world.request q).cell ≠ some q ∧ s.IsReleased q := by
  rcases hs.completing_or_isRetired hc with ⟨x, hx, h⟩ | ⟨hfind, ⟨x, hx, h⟩ | hr⟩
  · obtain ⟨r, hr⟩ := hi x hx
    rw [hr] at h
    cases h with
    | point p frames hp => exact hp.elim
    | hook rest a hf => cases hf
  · obtain ⟨r, hr⟩ := hi x hx
    rw [hr] at h
    cases h
  · exact ⟨hfind, hr⟩

/-! ### Spent cells -/

end System

theorem World.IsSpent.grow {w' : World} {c : CellId} (h : w.IsSpent c) (hb : w.IsBounded)
    (hw : w.Grows w') : w'.IsSpent c := by
  obtain ⟨q, hc, hi⟩ := h
  have hq := hb.lt_of_completed hc
  exact ⟨q, (hw.request q hq).completed hc,
    (Request.interceptors_eq_of_fixed (hw.request q hq).fixed).symm ▸ hi⟩

private theorem isSpent_of_way {n : Next} {c : CellId} (h : p.Way w n) (hp : p.Closes w)
    (hn : n.point? = some (.cell c .expire)) : w.IsSpent c := by
  cases h <;> cases hn
  case completionHooksCell q rest => exact ⟨q, hp.completed, hp.subset List.mem_cons_self⟩

namespace System

variable {s s' : System} {m : Move} {allowed : Move → Prop} {c : CellId}

/-- Whether the hooks of a cell accompany a completed request, or user code has called the one that
ends its life. -/
private def IsUsedUp (s : System) (c : CellId) : Prop :=
  s.world.IsSpent c ∨ s.HasBegun (.afterCompletion c)

private theorem IsUsedUp.of_transition (h : s.IsUsedUp c) (hb : s.IsBounded)
    (ht : Transition s m s') : s'.IsUsedUp c :=
  h.imp (fun h => h.grow hb.world ht.grows) fun h => h.mono ht.history_prefix

/-- The life of a cell ends for a completed request, or because user code calls the hook. -/
private theorem Reachable.isUsedUp_of_expire (hs : Reachable allowed s) :
    ∀ x ∈ s.ongoing, x.activation.control = .ready (.cell c .expire) → s.IsUsedUp c := by
  refine hs.induction (I := fun s => ∀ x ∈ s.ongoing,
    x.activation.control = .ready (.cell c .expire) → s.IsUsedUp c) (fun _ _ => by simp)
    fun s m s' hs _ ht ih y hy hp => ?_
  have hb := hs.isBounded
  rcases ht.mem_ongoing hy with hy | ⟨call, hcall, hh⟩ | ⟨a, d, hx, hm, -⟩
  · exact (ih y hy hp).of_transition hb ht
  · rw [hcall] at hp
    cases call.enters_of_control hp
    exact .inr (hasBegun_iff.mpr ⟨_, hh ▸ List.mem_append_right _ List.mem_cons_self, rfl⟩)
  · generalize y.activation = b at hm hp
    cases hm with
    | step p frames =>
      have hspent := isSpent_of_way (p.way_step s.world) ((hs.closes _ hx).point p rfl)
        (Activation.control_follow.mp hp)
      exact IsUsedUp.of_transition (.inl hspent) hb ht
    | resume o f frames =>
      have hway := f.way_resume s.world o
      have hn := Activation.control_follow.mp hp
      generalize (f.resume s.world o).next = n at hway hn
      cases hway <;> cases hn
    | answer => cases hp

/-- A cell that has expired is spent, or user code has called the hook that ends its life. -/
theorem Reachable.isSpent_or_hasBegun (hs : Reachable allowed s)
    (hc : (s.world.cell c).expired = true) :
    s.world.IsSpent c ∨ s.HasBegun (.afterCompletion c) := by
  refine hs.induction (I := fun s => (s.world.cell c).expired = true → s.IsUsedUp c)
    (fun w hw hc => by simp [(hw.cell c).expired] at hc) (fun s m s' hs _ ht ih hc => ?_) hc
  have hb := hs.isBounded
  rcases ht.world with ⟨-, hcell, -⟩ | ⟨t, j, p, frames, hx, -, hw, -⟩
  · exact (ih (hcell c ▸ hc)).of_transition hb ht
  · rw [hw] at hc
    rcases p.cell_step s.world c with h | ⟨_, -, h⟩ | ⟨_, -, h⟩ | ⟨rfl, -⟩ | ⟨slot, _, -, h⟩
    · exact (ih (h ▸ hc)).of_transition hb ht
    · exact (ih (by simpa [h] using hc)).of_transition hb ht
    · exact (ih (by simpa [h] using hc)).of_transition hb ht
    · exact (hs.isUsedUp_of_expire _ hx rfl).of_transition hb ht
    · refine (ih ?_).of_transition hb ht
      rw [h] at hc
      cases slot <;> exact hc

/-- In an orderly run, a cell that has expired is spent. -/
theorem Reachable.isSpent_of_expired (hs : Reachable (Move.IsOrderly k) s)
    (hc : (s.world.cell c).expired = true) : s.world.IsSpent c := by
  refine (hs.isSpent_or_hasBegun hc).resolve_right fun h => ?_
  obtain ⟨s₀, -, -, ⟨t, horderly, -⟩ | ⟨x, -, hx⟩⟩ := hs.exists_of_hasBegun h
  · exact horderly
  · cases hx

/-- When no call is in progress, a cell is spent exactly if it has expired. -/
theorem Reachable.isSpent_iff (hs : Reachable (Move.IsOrderly k) s) (hi : s.IsIdle) :
    s.world.IsSpent c ↔ (s.world.cell c).expired = true := by
  refine ⟨fun ⟨q, hc, hmem⟩ => ?_, hs.isSpent_of_expired⟩
  have hclosing := hs.isClosing_of_isReleased (hs.retired_of_completed hi hc).2
  exact (hclosing.expired c hmem).resolve_left (by simp)

end System

end Rendezvous
