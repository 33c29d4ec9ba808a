import Rendezvous.Proofs.Requests.Agreement
import Rendezvous.Proofs.Settlement.Attending

/-!
# How a request is settled

A request that waits for its cell is settled by the first resolution that a setter of the cell
attempts. The setter hands it to the request, which calls dispatch, and the request completes: its
interceptors are told, among them the cell, whose life ends with that. All this happens before the
setter returns.

## Main definitions

* `World.Awaits`, `World.Settles`, `World.Closes`: a request that waits, is settled, is completed.
* `Occasion`: what the interceptors of a request are told about.
* `Attends`: what user code does for a request that waits or has been settled.

## Main results

* `Unfolds.closes`: how a request completes.
* `Unfolds.settles`: what a setter does for a request that waits.
* `Attends.tally`: the first attempt settles the request, and nothing else does.
-/

namespace Rendezvous

open Activation

/-! ### Worlds -/

namespace World

/-- Whether a request waits for the resolution of its cell. -/
structure Awaits (w : World) (c : CellId) (q : RequestId) : Prop extends w.Hosts c q where
  slot : (w.cell c).slot = ⟨none, false, some (.request q)⟩
  completed : (w.request q).completed = false
  resolution : (w.request q).resolution = none

/-- Whether nothing has happened to a cell and a request, but that the life of the cell has ended
if so said. -/
structure Wanes (c : CellId) (q : RequestId) (ended : Bool) (w w' : World) : Prop
    extends w.Evolves c w' where
  result : (w'.cell c).result = (w.cell c).result
  expired : (w'.cell c).expired = ((w.cell c).expired || ended)
  fallback : (w'.cell c).fallback = (w.cell c).fallback
  request : w'.request q = w.request q

/-- Whether a request has been completed, and the life of its cell has ended if its hooks accompany
the request. -/
structure Closes (c : CellId) (q : RequestId) (w w' : World) : Prop extends w.Evolves c w' where
  result : (w'.cell c).result = (w.cell c).result
  expired : (w'.cell c).expired =
    ((w.cell c).expired || decide (.hooks c ∈ (w.request q).interceptors))
  fallback : (w'.cell c).fallback = (w.cell c).fallback
  request : w'.request q = { w.request q with completed := true, released := true }

/-- Whether a request that waited has been completed, with a resolution of its cell or without. -/
structure Settles (c : CellId) (q : RequestId) (x : Option Resolution) (w w' : World) : Prop
    extends w.Evolves c w' where
  result : (w'.cell c).result = x
  expired : (w'.cell c).expired = decide (.hooks c ∈ (w.request q).interceptors)
  fallback : (w'.cell c).fallback = (w.cell c).fallback
  request : w'.request q =
    { w.request q with completed := true, released := true, resolution := x }

end World

/-! ### Interceptors -/

/-- What interceptors are told about. -/
inductive Occasion where
  | timeout
  | failure (e : Payload)
  | completion

namespace Occasion

/-- The point at which the remaining interceptors of a request are told. -/
def point (q : RequestId) (rest : List Interceptor) : Occasion → Point
  | timeout => .request q (.timeoutHooks rest)
  | failure e => .request q (.errorHooks e rest)
  | completion => .request q (.completionHooks rest)

/-- The frame that waits for the reaction of an interceptor. -/
def frame (q : RequestId) (rest : List Interceptor) : Occasion → Frame
  | timeout => .request q (.timeoutHook rest)
  | failure e => .request q (.errorHook e rest)
  | completion => .request q (.completionHook rest)

/-- Where the reaction of an interceptor begins. -/
def reaction : Occasion → Interceptor → Control
  | timeout, .hooks c => .ready (.cell c .timeoutCallback)
  | timeout, .custom i _ _ => .inside ⟨i, .timeout, none⟩
  | failure e, .hooks c => .ready (.cell c (.errorCallback e))
  | failure e, .custom _ i _ => .inside ⟨i, .error, some (.payload e)⟩
  | completion, .hooks c => .ready (.cell c .expire)
  | completion, .custom _ _ i => .inside ⟨i, .completion, none⟩

/-- The error with which a request is settled if no interceptor has stopped the others and nobody
has attempted anything else. -/
def error? (x : Request) : Occasion → Option Payload
  | timeout => some (Payload.ofFailure (.requestTimeout x.timeoutMs))
  | failure e => some e
  | completion => none

end Occasion

variable {S : CellId → Prop} {c : CellId} {q : RequestId} {w w₁ w' : World} {p : Point} {f : Frame}
  {frames : List Frame} {acts acts₁ acts₂ : List Act} {o : Outcome} {r : Resolution}
  {P : Conduct} {x : Act} {y : Option Resolution} {i : Interceptor} {rest : List Interceptor}
  {b b' : Bool}

theorem Occasion.reaction_ne_ended (x : Occasion) (i : Interceptor) (o : Outcome) :
    x.reaction i ≠ .ended o := by
  cases x <;> cases i <;> exact nofun

namespace World

theorem Keeps.wanes (h : w.Keeps c q w') : w.Wanes c q false w' :=
  ⟨h.toEvolves, h.result, by simp [h.expired], h.fallback, h.request⟩

theorem Wanes.trans (h : w.Wanes c q b w₁) (h' : w₁.Wanes c q b' w') :
    w.Wanes c q (b || b') w' :=
  ⟨h.toEvolves.trans h'.toEvolves, h'.result.trans h.result,
    by rw [h'.expired, h.expired, Bool.or_assoc], h'.fallback.trans h.fallback,
    h'.request.trans h.request⟩

theorem Wanes.isCalm (h : w.Wanes c q b w') (hw : w.IsCalm c q) : w'.IsCalm c q := by
  rw [IsCalm, Cell.hasResult, h.result, h.request]
  exact hw

/-- A request still waits if it and its cell are what they were. -/
theorem Keeps.awaits (h : w.Keeps c q w') (hw : w.Awaits c q) : w'.Awaits c q where
  toHosts := hw.toHosts.evolve h.toEvolves
  slot := h.slot.trans hw.slot
  completed := h.request ▸ hw.completed
  resolution := h.request ▸ hw.resolution

theorem Keeps.closes (h : w.Keeps c q w₁) (h' : w₁.Closes c q w') : w.Closes c q w' where
  toEvolves := h.toEvolves.trans h'.toEvolves
  result := h'.result.trans h.result
  expired := by rw [h'.expired, h.expired, h.request]
  fallback := h'.fallback.trans h.fallback
  request := by rw [h'.request, h.request]

theorem Awaits.hasResult (hw : w.Awaits c q) : (w.cell c).hasResult = false := by
  simp [Cell.hasResult, show (w.cell c).result = none from congrArg Slot.result hw.slot]

theorem Keeps.settles (h : w.Keeps c q w₁) (h' : w₁.Settles c q y w') : w.Settles c q y w' where
  toEvolves := h.toEvolves.trans h'.toEvolves
  result := h'.result
  expired := by rw [h'.expired, h.request]
  fallback := h'.fallback.trans h.fallback
  request := by rw [h'.request, h.request]

theorem Settles.keeps (h : w.Settles c q y w₁) (h' : w₁.Keeps c q w') : w.Settles c q y w' where
  toEvolves := h.toEvolves.trans h'.toEvolves
  result := h'.result.trans h.result
  expired := h'.expired.trans h.expired
  fallback := h'.fallback.trans h.fallback
  request := h'.request.trans h.request

/-- A request that waits and completes is settled without a resolution. -/
theorem Closes.settles (h : w.Closes c q w') (hw : w.Awaits c q) : w.Settles c q none w' where
  toEvolves := h.toEvolves
  result := h.result.trans (congrArg Slot.result hw.slot)
  expired := by rw [h.expired, show (w.cell c).expired = false from congrArg Slot.expired hw.slot,
    Bool.false_or]
  fallback := h.fallback
  request := by rw [h.request, ← hw.resolution]

theorem Settles.hasResult (h : w.Settles c q (some r) w') : (w'.cell c).hasResult = true := by
  simp [Cell.hasResult, h.result]

end World

/-- After user code whose outcome is containable, execution goes on as usual. -/
theorem Outcome.IsContainable.next_contain (h : o.IsContainable) (w : World) (site : Site)
    (d : CellId) (e : Option String) (n : Next) :
    (contain w site d e o (fun _ => n) n).next = n := by
  cases o with
  | returned a => rfl
  | raised f => simp [contain, show f.isOrdinary = true from h]

namespace System

variable {s : System} {allowed : Move → Prop}

/-- A request that is the handler of a pending cell waits for it. -/
theorem Reachable.awaits (hs : Reachable allowed s)
    (hslot : (s.world.cell c).slot = ⟨none, false, some (.request q)⟩)
    (hopen : (s.world.request q).completed = false) (hseparate : s.world.Separates c q) :
    s.world.Awaits c q := by
  have hhandler := congrArg Slot.handler hslot
  have hcell := hs.cell_of_handler hhandler
  refine ⟨⟨hs.isBounded.world.handler c q hhandler, hcell, hseparate⟩, hslot, hopen, ?_⟩
  cases hresolution : (s.world.request q).resolution with
  | none => rfl
  | some r =>
    have hresult := (hs.agrees q).resolution r hresolution
    rw [hcell, show (s.world.cell c).result = none from congrArg Slot.result hslot] at hresult
    cases hresult

/-- A request that was started waits. -/
theorem waits_of_run_starting (hs : run { world := untimed } starting = some s) :
    (s.world.cell 0).slot = ⟨none, false, some (.request 0)⟩ ∧
      (s.world.request 0).completed = false ∧ s.world.Separates 0 0 ∧
      (s.world.cell 0).onError = none := by
  have hshown : (run { world := untimed } starting).map (fun s => ((s.world.cell 0).slot,
      (s.world.request 0).completed, (s.world.request 0).interceptors, (s.world.cell 0).onError)) =
      some (⟨none, false, some (.request 0)⟩, false, [.hooks 0], none) := rfl
  simp only [hs, Option.map_some, Option.some.injEq, Prod.mk.injEq] at hshown
  obtain ⟨hslot, hopen, hinterceptors, honError⟩ := hshown
  refine ⟨hslot, hopen, ⟨fun _ => False, id, fun _ _ hc => hc.elim, fun d hd hne => ?_⟩, honError⟩
  rw [hinterceptors] at hd
  exact hne (Interceptor.hooks.inj (List.mem_singleton.mp hd))

end System

/-! ### Completion -/

namespace Activation.Unfolds

/-- The interceptors of a request are told one after the other. -/
theorem of_hooks (x : Occasion)
    (h : Unfolds P w ⟨.ready (x.point q (i :: rest)), frames⟩ acts w' o) :
    ∃ n acts₁ w₁ y acts₂,
      acts = ⟨.step (x.point q (i :: rest)) n, []⟩ ::
        (acts₁ ++ ⟨.resume (x.frame q rest) y ((x.frame q rest).resume w₁ y).next,
          ((x.frame q rest).resume w₁ y).notices⟩ :: acts₂) ∧
      Unfolds P w ⟨x.reaction i, []⟩ acts₁ w₁ y ∧
      Unfolds P w₁ (follow frames ((x.frame q rest).resume w₁ y).next) acts₂ w' o := by
  cases x <;> cases i
  case timeout.hooks | failure.hooks | completion.hooks => exact ⟨_, h.of_call rfl⟩
  all_goals exact ⟨_, h.of_invoke rfl⟩

private theorem completionCallback
    (h : Unfolds (.attending c q) w ⟨.ready (.cell c .completionCallback), []⟩ acts w' o)
    (hw : w.Hosts c q) (hcalm : w.IsCalm c q) : w.Keeps c q w' ∧ IsSilent c q acts := by
  cases hcallback : (w.cell c).onCompletion with
  | none =>
    have hn : ((Point.cell c .completionCallback).step w).next = .ret .unit := by
      simp [Point.step, CellPoint.step, hcallback]
    obtain ⟨rfl, rfl, -⟩ := h.of_finish hn
    exact ⟨.refl _, .cons rfl rfl .nil⟩
  | some id =>
    have hn : ((Point.cell c .completionCallback).step w).next =
        .invoke (.cell c .completionCallback) ⟨id, .onCompletion, none⟩ := by
      simp [Point.step, CellPoint.step, hcallback]
    obtain ⟨acts₁, w₁, x, rest, rfl, hinside, hrest⟩ := h.of_invoke hn
    have hrests := Rests.tally.of_inside hinside (.refl hw hcalm)
    have hx := hinside.isContainable (by simp)
    simp only [Frame.resume, CellFrame.resume, hx.next_contain] at hrest
    obtain ⟨rfl, rfl, -⟩ := hrest.of_ended_nil
    exact ⟨hrests.keeps, .cons rfl rfl (hrests.silent.append (.cons rfl rfl .nil))⟩

/-- The end of the life of a cell. -/
private theorem expire (h : Unfolds (.attending c q) w ⟨.ready (.cell c .expire), []⟩ acts w' o)
    (hw : w.Hosts c q) (hcalm : w.IsCalm c q) : w.Wanes c q true w' ∧ IsSilent c q acts := by
  have hcell : ((Point.cell c .expire).step w).world.cell c = (w.cell c).expire.1 := by
    simp [Point.step, CellPoint.step]
  have hwanes : w.Wanes c q true ((Point.cell c .expire).step w).world := by
    refine ⟨.of_step (by simp), ?_, ?_, ?_, rfl⟩ <;> rw [hcell]
    · simp
    · simp
    · unfold Cell.expire
      split <;> rfl
  cases hfirst : (w.cell c).expire.2 with
  | true =>
    have hn : ((Point.cell c .expire).step w).next = .goto (.cell c .completionCallback) := by
      simp [Point.step, CellPoint.step, hfirst]
    obtain ⟨rest, rfl, hrest⟩ := h.of_goto hn
    obtain ⟨hkeeps, hsilent⟩ :=
      hrest.completionCallback (hw.evolve hwanes.toEvolves) (hwanes.isCalm hcalm)
    exact ⟨hwanes.trans hkeeps.wanes, .cons rfl rfl hsilent⟩
  | false =>
    have hn : ((Point.cell c .expire).step w).next = .ret .unit := by
      simp [Point.step, CellPoint.step, hfirst]
    obtain ⟨rfl, rfl, -⟩ := h.of_finish hn
    exact ⟨hwanes, .cons rfl rfl .nil⟩

/-- An interceptor reacts to the completion of a request. -/
private theorem completionHook
    (h : Unfolds (.attending c q) w ⟨Occasion.completion.reaction i, []⟩ acts w' o)
    (hw : w.Hosts c q) (hcalm : w.IsCalm c q) (hi : i ∈ (w.request q).interceptors) :
    w.Wanes c q (decide (i = .hooks c)) w' ∧ IsSilent c q acts := by
  have hother (hrests : Rests c q w acts w') (hi : i ≠ .hooks c) :
      w.Wanes c q (decide (i = .hooks c)) w' ∧ IsSilent c q acts := by
    rw [decide_eq_false hi]
    exact ⟨hrests.keeps.wanes, hrests.silent⟩
  cases i with
  | custom i j k => exact hother (Rests.tally.of_inside h (.refl hw hcalm)) nofun
  | hooks d =>
    by_cases hd : d = c
    · subst hd
      simpa using h.expire hw hcalm
    · obtain ⟨S, hc, hS, hhooks⟩ := hw.away
      have hin : IsIn S w ⟨Occasion.completion.reaction (.hooks d), []⟩ :=
        ⟨fun p hp => Control.ready.inj hp ▸ hhooks d hi hd, fun _ hf => (nomatch hf)⟩
      exact hother (Rests.tally.of_unfolds h (.refl hw hcalm) hin hc hS) (by simp [hd])

/-- The interceptors of a request are told about its completion. -/
private theorem completionHooks {rest : List Interceptor}
    (h : Unfolds (.attending c q) w ⟨.ready (.request q (.completionHooks rest)), []⟩ acts w' o)
    (hw : w.Hosts c q) (hcalm : w.IsCalm c q)
    (hrest : ∀ i ∈ rest, i ∈ (w.request q).interceptors) : ∃ acts₁ w₁ acts₂,
      acts = acts₁ ++ acts₂ ∧ IsSilent c q acts₁ ∧
      w.Wanes c q (decide (.hooks c ∈ rest)) w₁ ∧
      Unfolds (.attending c q) w₁ ⟨.ready (.request q .tellListener), []⟩ acts₂ w' o := by
  induction rest generalizing w acts with
  | nil =>
    obtain ⟨acts, rfl, hlast⟩ := h.of_goto rfl
    exact ⟨[_], w, acts, rfl, .cons rfl rfl .nil, by simpa using (World.Keeps.refl w).wanes, hlast⟩
  | cons i rest ih =>
    obtain ⟨n, acts₁, w₁, y, acts₂, rfl, hreaction, hafter⟩ := h.of_hooks .completion
    obtain ⟨hwanes, hsilent⟩ := hreaction.completionHook hw hcalm (hrest i List.mem_cons_self)
    have hy := hreaction.isContainable (Occasion.reaction_ne_ended _ _)
    simp only [Occasion.frame, Frame.resume, RequestFrame.resume, hy.next_contain] at hafter
    obtain ⟨acts₃, w₂, acts₄, rfl, hsilent', hwanes', hlast⟩ := ih hafter
      (hw.evolve hwanes.toEvolves) (hwanes.isCalm hcalm)
      (fun j hj => hwanes.request ▸ hrest j (List.mem_cons_of_mem i hj))
    refine ⟨_ :: (acts₁ ++ _ :: acts₃), w₂, acts₄, by simp; exact ⟨rfl, rfl⟩, ?_, ?_, hlast⟩
    · exact .cons rfl rfl (hsilent.append (.cons rfl rfl hsilent'))
    · have hmem : decide (.hooks c ∈ i :: rest) =
          (decide (i = .hooks c) || decide (.hooks c ∈ rest)) := by
        simp [eq_comm]
      exact hmem ▸ hwanes.trans hwanes'

/-- The listener is told, and those who wait are released. -/
private theorem tellListener
    (h : Unfolds (.attending c q) w ⟨.ready (.request q .tellListener), []⟩ acts w' o) :
    o = .returned .unit ∧ w.Evolves c w' ∧ w'.cell c = w.cell c ∧
      w'.request q = { w.request q with released := true } ∧ IsSilent c q acts := by
  have hrelease {w₁ : World} {acts : List Act} (hw₁ : w.Evolves c w₁)
      (hcell : w₁.cell c = w.cell c) (hrequest : w₁.request q = w.request q)
      (h : Unfolds (.attending c q) w₁ ⟨.ready (.request q .release), []⟩ acts w' o) :
      o = .returned .unit ∧ w.Evolves c w' ∧ w'.cell c = w.cell c ∧
        w'.request q = { w.request q with released := true } ∧ IsSilent c q acts := by
    obtain ⟨rfl, rfl, rfl⟩ := h.of_finish rfl
    refine ⟨rfl, hw₁.trans (.of_step (by simp)), hcell, ?_, .cons rfl rfl .nil⟩
    simp [Point.step, RequestPoint.step, World.modifyRequest, hrequest]
  cases hlistener : (w.request q).listener with
  | coordinator k =>
    have hn : ((Point.request q .tellListener).step w).next =
        .call (.request q .told) (.coordinator k (.retire q)) := by
      simp [Point.step, RequestPoint.step, hlistener]
    have hworld : ((Point.request q .tellListener).step w).world = w := by
      simp [Point.step, RequestPoint.step, hlistener]
    obtain ⟨acts₁, w₁, x, rest, rfl, hretire, hrest⟩ := h.of_call hn
    rw [hworld] at hretire
    obtain ⟨rfl, rfl, rfl⟩ := hretire.of_finish rfl
    obtain ⟨rfl, hevolves, hcell, hrequest, hsilent⟩ := hrelease (.of_step (by simp))
      (by simp only [Point.step, CoordinatorPoint.step]; split <;> simp)
      (by simp only [Point.step, CoordinatorPoint.step]; split <;> simp) hrest
    exact ⟨rfl, hevolves, hcell, hrequest, .cons rfl rfl (.cons rfl rfl (.cons rfl rfl hsilent))⟩
  | announcement name =>
    have hn : ((Point.request q .tellListener).step w).next = .goto (.request q .release) := by
      simp [Point.step, RequestPoint.step, hlistener]
    have hworld : ((Point.request q .tellListener).step w).world = w := by
      simp [Point.step, RequestPoint.step, hlistener]
    obtain ⟨rest, rfl, hrest⟩ := h.of_goto hn
    rw [hworld] at hrest
    obtain ⟨rfl, hevolves, hcell, hrequest, hsilent⟩ := hrelease (.refl w) rfl rfl hrest
    exact ⟨rfl, hevolves, hcell, hrequest, .cons rfl rfl hsilent⟩

/-- From the cancellation of its timer on, a completed request is over. -/
private theorem cancelTimer
    (h : Unfolds (.attending c q) w ⟨.ready (.request q .cancelTimer), []⟩ acts w' o)
    (hw : w.Hosts c q) (hover : (w.request q).completed = true) :
    o = .returned .unit ∧ w.Closes c q w' ∧ IsSilent c q acts := by
  obtain ⟨rest, rfl, hhooks⟩ := h.of_goto rfl
  have hcancel : w.Wanes c q false ((Point.request q .cancelTimer).step w).world := by
    refine World.Keeps.wanes ⟨.of_step (by simp), ?_, ?_, ?_⟩ <;>
      simp [Point.step, RequestPoint.step]
  obtain ⟨acts₁, w₁, acts₂, rfl, hsilent, hwanes, htell⟩ := hhooks.completionHooks
    (hw.evolve hcancel.toEvolves) (hcancel.isCalm (.inr hover))
    (fun i hi => hcancel.request ▸ List.mem_reverse.mp hi)
  obtain ⟨rfl, hevolves, hcell, hrequest, hsilent'⟩ := htell.tellListener
  have hwanes := hcancel.trans hwanes
  refine ⟨rfl, ⟨hwanes.toEvolves.trans hevolves, ?_, ?_, ?_, ?_⟩,
    .cons rfl rfl (hsilent.append hsilent')⟩
  · rw [hcell, hwanes.result]
  · simp [hcell, hwanes.expired]
  · rw [hcell, hwanes.fallback]
  · rw [hrequest, hwanes.request, ← hover]

/-- How a request completes. -/
theorem closes (h : Unfolds (.attending c q) w ⟨.ready (.request q .complete), []⟩ acts w' o)
    (hw : w.Hosts c q) (hopen : (w.request q).completed = false) :
    o = .returned .unit ∧ w.Closes c q w' ∧ IsSilent c q acts := by
  have hn : ((Point.request q .complete).step w).next = .goto (.request q .cancelTimer) := by
    simp [Point.step, RequestPoint.step, hopen]
  have hrequest : ((Point.request q .complete).step w).world.request q =
      { w.request q with completed := true } := by
    simp [Point.step, RequestPoint.step, hopen, World.modifyRequest]
  have hcell : ((Point.request q .complete).step w).world.cell c = w.cell c := by
    simp [Point.step, RequestPoint.step, hopen, World.modifyRequest]
  have hevolves : w.Evolves c ((Point.request q .complete).step w).world := .of_step (by simp)
  obtain ⟨rest, rfl, hcancel⟩ := h.of_goto hn
  obtain ⟨rfl, hcloses, hsilent⟩ := hcancel.cancelTimer (hw.evolve hevolves) (by rw [hrequest])
  refine ⟨rfl, ⟨hevolves.trans hcloses.toEvolves, ?_, ?_, ?_, ?_⟩, .cons rfl rfl hsilent⟩
  · rw [hcloses.result, hcell]
  · rw [hcloses.expired, hcell, hrequest]
  · rw [hcloses.fallback, hcell]
  · rw [hcloses.request, hrequest]

/-- How a request completes while a frame holds the outcome of dispatch. -/
private theorem closes_outcome {x : Outcome}
    (h : Unfolds (.attending c q) w ⟨.ready (.request q .complete), [.outcome x]⟩ acts w' o)
    (hw : w.Hosts c q) (hopen : (w.request q).completed = false) :
    o = x ∧ w.Closes c q w' ∧ IsSilent c q acts := by
  obtain ⟨acts₁, w₁, y, rest, rfl, hcomplete, hrest⟩ := h.split_frame
  obtain ⟨rfl, hcloses, hsilent⟩ := hcomplete.closes hw hopen
  obtain ⟨rfl, rfl, rfl⟩ := hrest.of_ended_nil
  exact ⟨rfl, hcloses, hsilent.append (.cons rfl rfl .nil)⟩

/-- Dispatch is called, and the request completes whatever dispatch does. -/
private theorem dispatches
    (h : Unfolds (.attending c q) w ⟨.ready (.request q (.dispatch r)), []⟩ acts w' o)
    (hw : w.Hosts c q) (hresult : (w.cell c).hasResult = true)
    (hopen : (w.request q).completed = false) :
    w.Closes c q w' ∧ dispatched q acts = [r] ∧ marks c q acts = [] := by
  have hact {n : Next} {l : List Notice} {rest : List Act}
      (hn : ((Point.request q (.dispatch r)).step w).next = n) (hrest : IsSilent c q rest) :
      dispatched q (⟨.step (.request q (.dispatch r)) n, l⟩ :: rest) = [r] ∧
        marks c q (⟨.step (.request q (.dispatch r)) n, l⟩ :: rest) = [] := by
    subst hn
    have hcall : Point.dispatch? q (.request q (.dispatch r)) = some r := if_pos rfl
    exact ⟨(dispatched_cons_some ((Act.dispatch?_step q w _ l).trans hcall)).trans
      (congrArg (r :: ·) hrest.dispatched), (marks_cons rfl).trans hrest.marks⟩
  cases hdispatch : (w.request q).dispatch with
  | none =>
    have hn : ((Point.request q (.dispatch r)).step w).next =
        .call (.outcome (.raised .nothingToCall)) (.request q .complete) := by
      simp [Point.step, RequestPoint.step, hdispatch]
    obtain ⟨rest, rfl, hrest⟩ := h.of_ready
    rw [hn] at hrest
    obtain ⟨-, hcloses, hsilent⟩ := hrest.closes_outcome hw hopen
    exact ⟨hcloses, hact rfl hsilent⟩
  | some id =>
    have hn : ((Point.request q (.dispatch r)).step w).next =
        .invoke (.request q .dispatched) ⟨id, .dispatch, some (.resolution r)⟩ := by
      simp [Point.step, RequestPoint.step, hdispatch]
    obtain ⟨acts₁, w₁, x, rest, rfl, hinside, hrest⟩ := h.of_invoke hn
    have hrests := Rests.tally.of_inside hinside (.refl hw (.inl hresult))
    obtain ⟨-, hcloses, hsilent⟩ := hrest.closes_outcome (hw.evolve hrests.keeps.toEvolves)
      (hrests.keeps.request ▸ hopen)
    exact ⟨hrests.keeps.closes hcloses, hact hn (hrests.silent.append (.cons rfl rfl hsilent))⟩

/-- A setter settles a request that waits. -/
theorem settles (h : Unfolds (.attending c q) w ⟨.ready (.cell c (.checkResult r)), []⟩ acts w' o)
    (hw : w.Awaits c q) : o = .returned (.flag true) ∧ w.Settles c q (some r) w' ∧
      (∃ rest, attempts c acts = r :: rest) ∧ dispatched q acts = [r] ∧ marks c q acts = [] := by
  obtain ⟨hresult, hexpired, hhandler⟩ := Slot.mk.inj hw.slot
  have hpending : (w.cell c).hasResult = false := by simp [Cell.hasResult, hresult]
  have hassign : (w.cell c).assign r =
      ({ w.cell c with result := some r, handler := none }, .accepted (some (.request q))) := by
    simp [Cell.assign, Cell.isSetOrExpired, hresult, hexpired, hhandler]
  -- The looks, the assignment, and the way to the request.
  obtain ⟨rest, rfl, h₁⟩ := h.of_goto (g := .cell c (.checkExpired r))
    (by simp [Point.step, CellPoint.step, hpending])
  obtain ⟨rest, rfl, h₂⟩ := h₁.of_goto (g := .cell c (.assign r))
    (by simp [Point.step, CellPoint.step, hexpired])
  obtain ⟨rest, rfl, h₃⟩ := h₂.of_goto (g := .cell c (.deliver (.request q) r (.flag true)))
    (by simp [Point.step, CellPoint.step, hassign])
  obtain ⟨acts₁, w₂, x, rest, rfl, hrecord, hlast⟩ := h₃.of_call rfl
  obtain ⟨acts₁, rfl, hdispatch⟩ := hrecord.of_goto rfl
  generalize hw₁ : ((Point.request q (.record r)).step _).world = w₁ at hdispatch
  have hcell : w₁.cell c = { w.cell c with result := some r, handler := none } := by
    simp [← hw₁, Point.step, RequestPoint.step, CellPoint.step, World.modifyRequest, hassign]
  have hrequest : w₁.request q = { w.request q with resolution := some r } := by
    simp [← hw₁, Point.step, RequestPoint.step, CellPoint.step, World.modifyRequest, hw.resolution]
  have hevolves : w.Evolves c w₁ := by
    rw [← hw₁]
    exact (World.Evolves.of_step (p := .cell c (.assign r)) (by simp)).trans (.of_step (by simp))
  obtain ⟨hcloses, hdispatched, hmarks⟩ := hdispatch.dispatches (hw.toHosts.evolve hevolves)
    (by simp [Cell.hasResult, hcell]) (by simp [hrequest, hw.completed])
  have hx := hdispatch.isContainable (by simp)
  simp only [Frame.resume, CellFrame.resume, hx.next_contain] at hlast
  obtain ⟨rfl, rfl, rfl⟩ := hlast.of_ended_nil
  refine ⟨rfl, ⟨hevolves.trans hcloses.toEvolves, ?_, ?_, ?_, ?_⟩,
    ⟨_, attempts_cons_some Act.attempt?_checkResult⟩, ?_, ?_⟩
  · rw [hcloses.result, hcell]
  · simp [hcloses.expired, hcell, hexpired, hrequest]
  · rw [hcloses.fallback, hcell]
  · rw [hcloses.request, hrequest]
  · change dispatched q (acts₁ ++ [_]) = [r]
    rw [dispatched_append, hdispatched]
    rfl
  · change marks c q (acts₁ ++ [_]) = []
    rw [marks_append, hmarks]
    rfl

end Activation.Unfolds

/-! ### The first attempt -/

/-- What user code does for a request that waits for its cell, or whose cell has a resolution. -/
inductive Attends (c : CellId) (q : RequestId) : World → List Act → World → Prop
  | settled {w w' : World} {acts : List Act} (hosts : w.Hosts c q)
      (hresult : (w.cell c).hasResult = true) (keeps : w.Keeps c q w')
      (hdispatched : dispatched q acts = []) : Attends c q w acts w'
  | idle {w w' : World} {acts : List Act} (awaits : w.Awaits c q) (keeps : w.Keeps c q w')
      (hattempts : attempts c acts = []) (hdispatched : dispatched q acts = []) :
      Attends c q w acts w'
  | settles {w w' : World} {acts : List Act} {r : Resolution} {rest : List Resolution}
      (awaits : w.Awaits c q) (hsettles : w.Settles c q (some r) w')
      (hattempts : attempts c acts = r :: rest) (hdispatched : dispatched q acts = [r]) :
      Attends c q w acts w'

namespace Attends

theorem hosts (h : Attends c q w acts w') : w.Hosts c q := by
  cases h with
  | settled hosts => exact hosts
  | idle awaits => exact awaits.toHosts
  | settles awaits => exact awaits.toHosts

theorem evolves (h : Attends c q w acts w') : w.Evolves c w' := by
  cases h with
  | settled _ _ keeps => exact keeps.toEvolves
  | idle _ keeps => exact keeps.toEvolves
  | settles _ hsettles => exact hsettles.toEvolves

theorem fallback (h : Attends c q w acts w') : (w'.cell c).fallback = (w.cell c).fallback := by
  cases h with
  | settled _ _ keeps => exact keeps.fallback
  | idle _ keeps => exact keeps.fallback
  | settles _ hsettles => exact hsettles.fallback

/-- Where nothing has happened yet, user code may go on. -/
theorem refl (hw : w.Hosts c q) (h : (w.cell c).hasResult = true ∨ w.Awaits c q) :
    Attends c q w [] w :=
  h.elim (.settled hw · (.refl w) rfl) (.idle · (.refl w) rfl rfl)

theorem hasResult_or_awaits (h : Attends c q w acts w') :
    (w'.cell c).hasResult = true ∨ w'.Awaits c q := by
  cases h with
  | settled _ hresult keeps => exact .inl (by rwa [Cell.hasResult, keeps.result])
  | idle awaits keeps => exact .inr (keeps.awaits awaits)
  | settles _ hsettles => exact .inl hsettles.hasResult

theorem after (h : Attends c q w acts w') : Attends c q w' [] w' :=
  refl (h.hosts.evolve h.evolves) h.hasResult_or_awaits

theorem append (h : Attends c q w acts₁ w₁) (h' : Attends c q w₁ acts₂ w') :
    Attends c q w (acts₁ ++ acts₂) w' := by
  have hnot (hresult : (w₁.cell c).hasResult = true) (hw : w₁.Awaits c q) : False :=
    Bool.false_ne_true (hw.hasResult.symm.trans hresult)
  cases h with
  | settled hosts hresult keeps hdispatched =>
    have hresult₁ : (w₁.cell c).hasResult = true := by rwa [Cell.hasResult, keeps.result]
    cases h' with
    | settled _ _ keeps' hdispatched' =>
      exact .settled hosts hresult (keeps.trans keeps') (by simp [hdispatched, hdispatched'])
    | idle awaits' => exact (hnot hresult₁ awaits').elim
    | settles awaits' => exact (hnot hresult₁ awaits').elim
  | idle awaits keeps hattempts hdispatched =>
    cases h' with
    | settled _ hresult => exact (hnot hresult (keeps.awaits awaits)).elim
    | idle _ keeps' hattempts' hdispatched' =>
      exact .idle awaits (keeps.trans keeps') (by simp [hattempts, hattempts'])
        (by simp [hdispatched, hdispatched'])
    | settles _ hsettles hattempts' hdispatched' =>
      exact .settles awaits (keeps.settles hsettles) (by simp [hattempts, hattempts']; rfl)
        (by simp [hdispatched, hdispatched'])
  | settles awaits hsettles hattempts hdispatched =>
    cases h' with
    | settled _ _ keeps' hdispatched' =>
      exact .settles awaits (hsettles.keeps keeps') (by simp [hattempts]; rfl)
        (by simp [hdispatched, hdispatched'])
    | idle awaits' => exact (hnot hsettles.hasResult awaits').elim
    | settles awaits' => exact (hnot hsettles.hasResult awaits').elim

/-- An act that is none of a setter or dispatch changes nothing about what happened. -/
theorem cons (hx : x.attempt? c = none) (hd : x.dispatch? q = none)
    (h : Attends c q w acts w') : Attends c q w (x :: acts) w' := by
  cases h with
  | settled hosts hresult keeps hdispatched =>
    exact .settled hosts hresult keeps ((dispatched_cons hd).trans hdispatched)
  | idle awaits keeps hattempts hdispatched =>
    exact .idle awaits keeps ((attempts_cons hx).trans hattempts)
      ((dispatched_cons hd).trans hdispatched)
  | settles awaits hsettles hattempts hdispatched =>
    exact .settles awaits hsettles ((attempts_cons hx).trans hattempts)
      ((dispatched_cons hd).trans hdispatched)

end Attends

/-- A setter attends to a request, whoever calls it. -/
theorem Activation.Unfolds.attends
    (h : Unfolds (.attending c q) w ⟨.ready (.cell c (.checkResult r)), []⟩ acts w' o)
    (hw : Attends c q w [] w) : (∃ b, o = .returned (.flag b)) ∧ Attends c q w acts w' ∧
      (attempts c acts).head? = some r ∧ marks c q acts = [] := by
  rcases hw.hasResult_or_awaits with hresult | hawaits
  · obtain ⟨rfl, rfl, rfl⟩ := h.of_hasResult hresult
    refine ⟨⟨_, rfl⟩, .settled hw.hosts hresult (.refl _) rfl, ?_, rfl⟩
    rw [attempts_cons_some Act.attempt?_checkResult]
    rfl
  · obtain ⟨rfl, hsettles, ⟨rest, hattempts⟩, hdispatched, hmarks⟩ := h.settles hawaits
    exact ⟨⟨_, rfl⟩, .settles hawaits hsettles hattempts hdispatched, by rw [hattempts]; rfl,
      hmarks⟩

/-- The first attempt of user code settles a request, and nothing else does. -/
theorem Attends.tally :
    Tally c q fun w acts w' => Attends c q w acts w' ∧ marks c q acts = [] where
  append h h' := ⟨h.1.append h'.1, by simp [h.2, h'.2]⟩
  quiet {w w' x} h hkeeps hx := by
    have hmarks : marks c q [x] = [] := marks_cons hx.mark
    have hkeep : Attends c q w [] w' := by
      rcases h.1.hasResult_or_awaits with hresult | hawaits
      · exact .settled h.1.hosts hresult hkeeps rfl
      · exact .idle hawaits hkeeps rfl rfl
    exact ⟨hkeep.cons hx.attempt hx.dispatch, hmarks⟩
  setter h _ hunfolds := by
    obtain ⟨-, hattends, -, hmarks⟩ := hunfolds.attends h.1
    exact ⟨hattends, hmarks⟩
  after h := ⟨h.1.after, rfl⟩
  hosts h := h.1.hosts
  shields h := h.1.evolves.shields

end Rendezvous
