import Rendezvous.Proofs.Threads.Growth

/-!
# The cell of a request

A request registers itself as the handler of its own cell and of no other. Wherever a request is
registered, waits as a handler, or is handed a resolution, the cell is its own.

## Main definitions

* `Point.Owns`: the cell at a point is that of the request.

## Main results

* `System.Reachable.cell_of_handler`, `System.Reachable.owns_of_ready`: this holds of every system
  that is reached.
* `System.Reachable.settled`: a handler waits only in a cell that can still be resolved.
-/

namespace Rendezvous

/-- Whether a cell is that of the request which a handler is. -/
def Handler.Owns (w : World) (c : CellId) : Handler → Prop
  | .request q => (w.request q).cell = c
  | .callback _ => True

/-- Whether the cell at a point is that of the request which is registered or handed a resolution
there. -/
def Point.Owns (w : World) : Point → Prop
  | .cell c (.checkRegister h) | .cell c (.register h) | .cell c (.deliver h _ _) => h.Owns w c
  | _ => True

section Grow

variable {w w' : World} (hw : w.Grows w')

include hw

theorem Handler.Owns.grow {c : CellId} {h : Handler} (ho : h.Owns w c)
    (hq : ∀ q ∈ h.requests, q < w.requestCount) : h.Owns w' c := by
  cases h with
  | callback id => trivial
  | request q =>
    exact (Request.cell_eq_of_fixed (hw.request q (hq q (by simp [requests]))).fixed).trans ho

theorem Point.Owns.grow {p : Point} (ho : p.Owns w) (hq : ∀ q ∈ p.requests, q < w.requestCount) :
    p.Owns w' := by
  unfold Owns at ho ⊢
  split at ho
  · exact ho.grow hw hq
  · exact ho.grow hw hq
  · exact ho.grow hw fun q h => hq q (List.mem_append_left _ h)
  · trivial

end Grow

variable {w : World} {p : Point}

private theorem Point.owns_step (hb : w.IsBounded)
    (hw : ∀ c h, (w.cell c).handler = some h → h.Owns w c) (hp : p.Owns w) {p' : Point}
    (h : (p.step w).next.point? = some p') : p'.Owns (p.step w).world := by
  have hgrows := p.grows_step w
  have hway := p.way_step w
  generalize (p.step w).next = n at hway h
  cases hway <;> cases h <;> try trivial
  case assign c h r hr =>
    have hh : (w.cell c).handler = some h := (Cell.assign_snd_eq_accepted.mp hr).2
    exact (hw c h hh).grow hgrows (hb.requests_of_handler hh)

namespace System

variable {s s' : System} {m : Move} {allowed : Move → Prop}

private structure Owns (s : System) : Prop where
  handler (c : CellId) (h : Handler) : (s.world.cell c).handler = some h → h.Owns s.world c
  ready : ∀ x ∈ s.ongoing, ∀ p, x.activation.control = .ready p → p.Owns s.world

private theorem owns_of_transition (ht : Transition s m s') (hb : s.IsBounded) (hs : s.Owns) :
    s'.Owns := by
  refine ⟨fun c h hh => ?_, ?_⟩
  · rcases ht.world with ⟨-, hcell, -⟩ | ⟨t, k, p, frames, hx, -, he, -⟩
    · rw [hcell] at hh
      exact (hs.handler c h hh).grow ht.grows (hb.world.requests_of_handler hh)
    · rw [he] at hh
      rcases Point.handler_step hh with hh | rfl
      · exact (hs.handler c h hh).grow ht.grows (hb.world.requests_of_handler hh)
      · exact Handler.Owns.grow ht.grows (hs.ready _ hx _ rfl) (hb.of_ready hx rfl)
  · refine forall_ready_of_transition ht hs.ready
      (fun x hx p hp ho => ho.grow ht.grows (hb.of_ready hx hp)) ?_ ?_ ?_ ?_
    · intro t c p hm hknown hp
      cases c.enters_of_control hp <;> trivial
    · intro t x hm hx
      trivial
    · exact fun t k p frames p' hx hp' ho =>
        Point.owns_step hb.world hs.handler ho hp'
    · intro t k o f frames p' hx hp'
      have hway := f.way_resume s.world o
      generalize (f.resume s.world o).next = n at hway hp'
      cases hway <;> cases hp' <;> trivial

private theorem Reachable.owns (hs : Reachable allowed s) : s.Owns := by
  refine hs.induction (fun w hw => ⟨fun c h hh => ?_, by simp⟩) fun _ _ _ hs _ ht h =>
    owns_of_transition ht hs.isBounded h
  simp [(hw.cell c).handler] at hh

/-- The request that waits in a cell belongs to the cell. -/
theorem Reachable.cell_of_handler (hs : Reachable allowed s) {c : CellId} {q : RequestId}
    (h : (s.world.cell c).handler = some (.request q)) : (s.world.request q).cell = c :=
  hs.owns.handler c _ h

/-- A request is registered, and handed a resolution, in its own cell only. -/
theorem Reachable.owns_of_ready (hs : Reachable allowed s) {x : Ongoing} (hx : x ∈ s.ongoing)
    {p : Point} (hp : x.activation.control = .ready p) : p.Owns s.world :=
  hs.owns.ready x hx p hp

/-- A handler waits only in a cell that can still be resolved. -/
theorem Reachable.settled (hs : Reachable allowed s) (c : CellId) : (s.world.cell c).Settled := by
  refine hs.induction (I := fun s => (s.world.cell c).Settled)
    (fun w hw h => by simp [(hw.cell c).handler] at h) fun s m s' _ _ ht ih => ?_
  rcases ht.world with ⟨-, hcell, -⟩ | ⟨t, k, p, frames, -, -, hw, -⟩
  · rwa [hcell]
  · rw [hw]
    rcases p.cell_step s.world c with
      h | ⟨_, -, h⟩ | ⟨_, -, h⟩ | ⟨-, h⟩ | ⟨slot, _, -, h⟩ <;> rw [h]
    · exact ih
    · exact Cell.settled_register ih _
    · exact Cell.settled_assign ih _
    · exact Cell.settled_expire ih
    · cases slot <;> exact ih

end System

end Rendezvous
