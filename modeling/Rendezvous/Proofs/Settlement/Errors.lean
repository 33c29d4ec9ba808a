import Rendezvous.Proofs.Settlement.Interceptors

/-!
# What a failure resolves to

A request that waits for its cell and is told to fail tells its interceptors, up to and including
the first that stops the others. It is settled with the first resolution that is attempted
meanwhile, else with the error itself unless an interceptor has stopped the others, and it is
completed in any case. The hooks of the cell always stop the others, so that a request that a
coordinator started is always settled by its cell alone.

## Main results

* `System.Reachable.failure_resolution`: what a failure resolves to.
-/

namespace Rendezvous

open Activation

variable {c : CellId} {q : RequestId} {e : Payload} {w w' : World} {acts : List Act} {o : Outcome}

/-- What becomes of a request that waits when it fails. -/
theorem Activation.Unfolds.fails
    (h : (Call.fail q e).activation.Unfolds (.attending c q) w acts w' o) (hw : w.Awaits c q) :
    ∃ l, Concludes (.failure e) c q e w acts l w' o ∧
      marks c q acts = l.flatMap fun t => .told t.interceptor :: marks c q t.acts := by
  obtain ⟨rest, rfl, hnote⟩ := Unfolds.of_goto (g := .request q (.noteFail e)) h
    (by simp [Point.step, RequestPoint.step, hw.completed])
  obtain ⟨rest, rfl, hhooks⟩ := hnote.of_goto rfl
  obtain ⟨l, hconcludes, hmarks⟩ := Unfolds.concludes (x := .failure e) hhooks hw rfl
  exact ⟨l, (hconcludes.cons rfl rfl).cons rfl rfl, hmarks⟩

/-- The hooks of the cell stop all other interceptors when the request fails. -/
theorem Concludes.of_hooks {l : List Telling} {extra : List Interceptor} (hw : w.Awaits c q)
    (hextra : (w.request q).interceptors = .hooks c :: extra)
    (h : Concludes (.failure e) c q e w acts l w' o)
    (hmarks : marks c q acts = l.flatMap fun t => .told t.interceptor :: marks c q t.acts) :
    ∃ t callback, l = [⟨.hooks c, t, .returned (.flag false)⟩] ∧
      HandlesError (.attending c q) c e w t callback (.returned (.flag false)) ∧
      settlement c e l = some ((attempts c callback).head?.getD (.error e)) ∧
      marks c q acts = .told (.hooks c) ::
        ((w.cell c).onError.map fun id => .called ⟨id, .onError, some (.payload e)⟩).toList := by
  obtain ⟨before, acts₁, after, w₁, rfl, htells⟩ := h.tells
  rw [hextra] at htells
  obtain ⟨t, y, l, w₂, rfl, hreaction, hstop, -⟩ := htells.exists_cons
  obtain ⟨callback, hhandles, -, hfirst, hcalled⟩ :=
    Unfolds.handlesError hreaction (.refl hw.toHosts (.inr hw))
  obtain rfl := hhandles.outcome
  obtain rfl := hstop rfl
  refine ⟨t, callback, rfl, hhandles, ?_, ?_⟩
  · rw [settlement, show stopped [⟨.hooks c, t, .returned (.flag false)⟩] = true from rfl]
    simp [hfirst]
  · rw [hmarks]
    simp [hcalled]

namespace System

variable {s : System} {allowed : Move → Prop}

/-- What a failure resolves to. The interceptors are told in order, up to and including the first
that stops the others; dispatch is called with the first attempt, else with the error unless they
were stopped, and otherwise not at all; the request is completed. If a coordinator started the
request, then the hooks of the cell are told only, the callback of the cell is called with the
error, and dispatch is called in any case. -/
theorem Reachable.failure_resolution (hs : Reachable allowed s)
    (hslot : (s.world.cell c).slot = ⟨none, false, some (.request q)⟩)
    (hopen : (s.world.request q).completed = false) (hseparate : s.world.Separates c q)
    (e : Payload) :
    (∃ acts w' o, (Call.fail q e).activation.Unfolds (.attending c q) s.world acts w' o) ∧
    ∀ acts w' o, (Call.fail q e).activation.Unfolds (.attending c q) s.world acts w' o →
      (∃ l, Concludes (.failure e) c q e s.world acts l w' o) ∧
      (s.IsStarted q → ∃ t callback,
        Concludes (.failure e) c q e s.world acts
          [⟨.hooks c, t, .returned (.flag false)⟩] w' o ∧
        HandlesError (.attending c q) c e s.world t callback (.returned (.flag false)) ∧
        (w'.cell c).result = some ((attempts c callback).head?.getD (.error e)) ∧
        dispatched q acts = [(attempts c callback).head?.getD (.error e)] ∧
        marks c q acts = .told (.hooks c) :: ((s.world.cell c).onError.map
          fun id => .called ⟨id, .onError, some (.payload e)⟩).toList) := by
  have hw := hs.awaits hslot hopen hseparate
  refine ⟨Call.exists_unfolds Conduct.isResponsive_attending (by simp) s.world,
    fun acts w' o hrun => ?_⟩
  obtain ⟨l, hconcludes, hmarks⟩ := Unfolds.fails hrun hw
  refine ⟨⟨l, hconcludes⟩, fun hstarted => ?_⟩
  obtain ⟨extra, hextra⟩ := hs.interceptors_of_isStarted hstarted
  rw [hw.cell] at hextra
  obtain ⟨t, callback, rfl, hhandles, hsettlement, hmarks⟩ :=
    hconcludes.of_hooks hw hextra hmarks
  refine ⟨t, callback, hconcludes, hhandles, ?_, ?_, hmarks⟩
  · rw [hconcludes.settles.result, hsettlement]
  · rw [hconcludes.dispatched, hsettlement]
    rfl

theorem failure_resolution_starting : ∃ s, run { world := untimed } starting = some s ∧
    (∃ acts w' o,
      (Call.fail 0 (.text "E")).activation.Unfolds (.attending 0 0) s.world acts w' o) ∧
    ∀ acts w' o, (Call.fail 0 (.text "E")).activation.Unfolds (.attending 0 0) s.world acts w' o →
      dispatched 0 acts = [.error (.text "E")] ∧ marks 0 0 acts = [.told (.hooks 0)] := by
  obtain ⟨s, hs⟩ : ∃ s, run { world := untimed } starting = some s := ⟨_, rfl⟩
  have hreach : Reachable Move.any s := reachable_of_run isNew_untimed hs
  obtain ⟨hslot, hopen, hseparate, honError⟩ := waits_of_run_starting hs
  obtain ⟨hends, hall⟩ := hreach.failure_resolution hslot hopen hseparate (.text "E")
  refine ⟨s, hs, hends, fun acts w' o hrun => ?_⟩
  obtain ⟨t, callback, -, hhandles, -, hdispatched, hmarks⟩ :=
    (hall acts w' o hrun).2 (isStarted_of_run_starting hs)
  obtain ⟨w₁, x, hvisits⟩ := hhandles.visits
  rw [honError] at hvisits hmarks
  obtain ⟨rfl, -⟩ := hvisits
  exact ⟨hdispatched, hmarks⟩

end System

end Rendezvous
