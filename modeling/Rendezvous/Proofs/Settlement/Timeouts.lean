import Rendezvous.Proofs.Settlement.Interceptors

/-!
# What a timeout resolves to

When the timeout of a started request fires while the request waits, the hooks of its cell are told
first. They call the timeout callback and then compute the fallback, if the cell has such, and
settle the cell with the fallback. If there is none, the other interceptors are told, up to and
including the first that stops the others. If no interceptor has stopped the others and nobody has
attempted a resolution, the request resolves to the timeout itself.

## Main definitions

* `World.timedOut`: the world in which the interceptors are told about a timeout.

## Main results

* `System.Reachable.timeout_resolution`: what a timeout resolves to.
-/

namespace Rendezvous

open Activation

/-- The world in which a request is marked as timed out. -/
def World.timedOut (w : World) (q : RequestId) : World :=
  w.modifyRequest q fun x => { x with timedOut := true }

variable {c : CellId} {q : RequestId} {e : Payload} {w w' : World} {acts : List Act} {o : Outcome}

@[simp] theorem World.cell_timedOut (w : World) (q : RequestId) (c : CellId) :
    (w.timedOut q).cell c = w.cell c := rfl

@[simp] theorem World.request_timedOut (w : World) (q : RequestId) :
    (w.timedOut q).request q = { w.request q with timedOut := true } := by
  simp [timedOut, modifyRequest]

theorem World.Awaits.timedOut (hw : w.Awaits c q) : (w.timedOut q).Awaits c q where
  toHosts := hw.toHosts.evolve (.of_step (p := .request q .markTimeout) (by simp))
  slot := hw.slot
  completed := by simp [hw.completed]
  resolution := by simp [hw.resolution]

/-- The error with which a request resolves to its timeout. -/
def Request.timeoutError (x : Request) : Payload :=
  Payload.ofFailure (.requestTimeout x.timeoutMs)

/-- The resolutions that compete for a request whose timeout fires, in order: those attempted in the
callback of its cell and in the computation of the fallback, the fallback itself, those attempted by
the other interceptors, and the timeout, unless an interceptor has stopped the others. -/
def Request.candidates (x : Request) (callback factory : List Act) (fallback : Option Resolution)
    (others : List Telling) (halted : Bool) : List Resolution :=
  attempts x.cell callback ++ attempts x.cell factory ++ fallback.toList ++
    others.flatMap (fun t => attempts x.cell t.acts) ++
    if halted then [] else [.error x.timeoutError]

/-- What becomes of a request that waits when its timeout fires. -/
theorem Activation.Unfolds.timesOut
    (h : (Call.timeOut q).activation.Unfolds (.attending c q) w acts w' o) (hw : w.Awaits c q) :
    ∃ l, Concludes .timeout c q (w.request q).timeoutError (w.timedOut q) acts l w' o := by
  obtain ⟨rest, rfl, hmark⟩ := Unfolds.of_goto (g := .request q .markTimeout) h
    (by simp [Point.step, RequestPoint.step, hw.completed])
  obtain ⟨rest, rfl, hhooks⟩ := hmark.of_goto rfl
  have hpoint : (w.request q).interceptors = ((w.timedOut q).request q).interceptors := by simp
  have hhooks : Unfolds (.attending c q) (w.timedOut q)
      ⟨.ready (.request q (.timeoutHooks (w.request q).interceptors)), []⟩ rest w' o := hhooks
  rw [hpoint] at hhooks
  obtain ⟨l, hconcludes, -⟩ := Unfolds.concludes (x := .timeout) hhooks hw.timedOut
    (e := (w.request q).timeoutError) (by simp [Occasion.error?, Request.timeoutError])
  exact ⟨l, (hconcludes.cons rfl rfl).cons rfl rfl⟩

namespace System

variable {s : System} {allowed : Move → Prop}

/-- What a timeout resolves to. The hooks of the cell and then the other interceptors are told in
order, up to and including the first that stops the others. The first of the candidates is the
resolution of the cell and of the request. Dispatch is called with it, or not at all if there is
none, and the request is completed. -/
theorem Reachable.timeout_resolution (hs : Reachable allowed s) (hstarted : s.IsStarted q)
    (hslot : (s.world.cell c).slot = ⟨none, false, some (.request q)⟩)
    (hopen : (s.world.request q).completed = false) (hseparate : s.world.Separates c q) :
    (∃ acts w' o, (Call.timeOut q).activation.Unfolds (.attending c q) s.world acts w' o) ∧
    ∀ acts w' o, (Call.timeOut q).activation.Unfolds (.attending c q) s.world acts w' o →
      ∃ t y callback factory fallback l outcome,
        Concludes .timeout c q (s.world.request q).timeoutError (s.world.timedOut q) acts
          (⟨.hooks c, t, y⟩ :: l) w' o ∧
        HandlesTimeout (.attending c q) c (s.world.timedOut q) t callback factory fallback y ∧
        outcome = ((s.world.request q).candidates callback factory fallback l
          (stopped (⟨.hooks c, t, y⟩ :: l))).head? ∧
        dispatched q acts = outcome.toList ∧
        (w'.cell c).result = outcome ∧ (w'.cell c).expired = true ∧
        w'.request q = { s.world.request q with
          timedOut := true, completed := true, released := true, resolution := outcome } := by
  have hw := hs.awaits hslot hopen hseparate
  refine ⟨Call.exists_unfolds Conduct.isResponsive_attending (by simp) s.world,
    fun acts w' o hrun => ?_⟩
  obtain ⟨l, hconcludes⟩ := Unfolds.timesOut hrun hw
  obtain ⟨before, acts₁, after, w₁, rfl, htells⟩ := hconcludes.tells
  obtain ⟨extra, hextra⟩ := hs.interceptors_of_isStarted hstarted
  rw [hw.cell] at hextra
  rw [World.request_timedOut, hextra] at htells
  obtain ⟨t, y, l, w₂, rfl, hreaction, -, -⟩ := htells.exists_cons
  obtain ⟨callback, factory, fallback, hhandles, -, hfirst, -⟩ :=
    Unfolds.handlesTimeout hreaction (.refl hw.timedOut.toHosts (.inr hw.timedOut))
  have hsettlement : settlement c (s.world.request q).timeoutError (⟨.hooks c, t, y⟩ :: l) =
      ((s.world.request q).candidates callback factory fallback l
        (stopped (⟨.hooks c, t, y⟩ :: l))).head? := by
    rw [settlement, List.flatMap_cons, List.append_assoc, List.head?_append, hfirst,
      ← List.head?_append, ← List.append_assoc, Request.candidates, hw.cell]
  refine ⟨t, y, callback, factory, fallback, l, _, hconcludes, hhandles, rfl, ?_, ?_, ?_, ?_⟩
  · rw [hconcludes.dispatched, hsettlement]
  · rw [hconcludes.settles.result, hsettlement]
  · simp [hconcludes.settles.expired, hextra]
  · rw [hconcludes.settles.request, hsettlement, World.request_timedOut]

theorem timeout_resolution_starting : ∃ s, run { world := untimed } starting = some s ∧
    (∃ acts w' o, (Call.timeOut 0).activation.Unfolds (.attending 0 0) s.world acts w' o) ∧
    ∀ acts w' o, (Call.timeOut 0).activation.Unfolds (.attending 0 0) s.world acts w' o →
      dispatched 0 acts = [.error (Payload.ofFailure (.requestTimeout 0))] ∧
        told 0 0 acts = [.hooks 0] := by
  obtain ⟨s, hs⟩ : ∃ s, run { world := untimed } starting = some s := ⟨_, rfl⟩
  have hreach : Reachable Move.any s := reachable_of_run isNew_untimed hs
  obtain ⟨hslot, hopen, hseparate, -⟩ := waits_of_run_starting hs
  obtain ⟨hends, hall⟩ := hreach.timeout_resolution (isStarted_of_run_starting hs) hslot hopen
    hseparate
  refine ⟨s, hs, hends, fun acts w' o hrun => ?_⟩
  obtain ⟨t, y, callback, factory, fallback, l, outcome, hconcludes, hhandles, rfl, hdispatched,
    -⟩ := hall acts w' o hrun
  have hshown : (run { world := untimed } starting).map (fun s => ((s.world.cell 0).onTimeout,
      (s.world.cell 0).fallback, (s.world.request 0).interceptors, (s.world.request 0).timeoutMs,
      (s.world.request 0).cell)) =
      some (none, .fixed Payload.pending, [.hooks 0], 0, 0) := rfl
  simp only [hs, Option.map_some, Option.some.injEq, Prod.mk.injEq] at hshown
  obtain ⟨honTimeout, hfallback, hinterceptors, htimeout, hcell⟩ := hshown
  obtain ⟨w₁, x, w₂, z, hcallback, hfactory, hresolution⟩ := hhandles.visits
  rw [World.cell_timedOut, honTimeout] at hcallback
  rw [World.cell_timedOut, hfallback] at hfactory hresolution
  obtain ⟨rfl, -⟩ := hcallback
  obtain ⟨rfl, -⟩ := hfactory
  obtain rfl : fallback = none := hresolution
  obtain rfl := hhandles.outcome
  obtain ⟨before, acts₁, after, w₃, rfl, htells⟩ := hconcludes.tells
  rw [World.request_timedOut, hinterceptors] at htells
  obtain ⟨t, y, l, w₄, heq, -, -, hrest⟩ := htells.exists_cons
  cases heq
  obtain ⟨acts', hrest⟩ := hrest rfl
  cases hrest
  refine ⟨?_, hconcludes.told⟩
  rw [hdispatched, Request.candidates, Request.timeoutError, hcell, htimeout]
  rfl

end System

end Rendezvous
