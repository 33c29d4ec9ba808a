import Rendezvous.Proofs.Cells.Atomic
import Rendezvous.Proofs.Cells.Representation
import Rendezvous.Proofs.Reentrancy.Regions
import Rendezvous.Proofs.Reentrancy.Traces
import Rendezvous.Proofs.Requests.Finality

/-!
# User code that attends to a request

Callbacks and hooks attend to a request on a cell if they touch it through the setters of the cell
only. Whatever else they call works in regions without the cell. Where a resolution has been
accepted, or the request is completed, such code does nothing to either of them any more.

## Main definitions

* `Conduct.attending`: user code that attends to a request.
* `attempts`, `dispatched` and `marks`: what a run does for a request, in order.
* `World.Hosts`, `World.IsCalm`, `World.Keeps`: worlds in which a request rests.
* `Tally`: a relation that the acts of such code add up to.

## Main results

* `Unfolds.isContainable`: the outcomes are ones that are contained.
* `Tally.of_unfolds`: how user code and the code of other cells add up.
* `Rests.tally`: in a calm world they leave the request and its cell as they are.
-/

namespace Rendezvous

open Activation

/-- The calls by which a cell is looked at, or its callbacks are changed. -/
inductive Call.Regards (c : CellId) : Call → Prop
  | ask (x : Query) : Regards c (.ask c x)
  | setCallback (slot : CallbackSlot) (id : Option CallbackId) : Regards c (.setCallback c slot id)

/-- User code that touches a request through the setters of its cell only, and not even so while the
request completes without a resolution. What else it calls works in regions without the cell. It
raises ordinary failures only. -/
def Conduct.attending (c : CellId) (q : RequestId) : Conduct where
  mayCall w call :=
    (∃ r, call.assigns? = some (c, r)) ∧
      ((w.cell c).hasResult = true ∨ (w.request q).completed = false) ∨
    call.Regards c ∨ ∃ S : CellId → Prop, ¬ S c ∧ w.IsClosed S ∧ call.IsIn S w
  mayAnswer _ _ a := (Outcome.ofUser a).IsContainable

theorem Conduct.isResponsive_attending {c : CellId} {q : RequestId} :
    (Conduct.attending c q).IsResponsive :=
  fun _ _ => ⟨.ok .null, trivial⟩

theorem Conduct.isContained_attending {c : CellId} {q : RequestId} :
    (Conduct.attending c q).IsContained :=
  fun _ _ _ h => h

/-! ### What is read off a run -/

/-- The resolution that a setter of a cell attempts in an act. -/
def Act.attempt? (c : CellId) (x : Act) : Option Resolution :=
  match x.deed with
  | .step (.cell d (.checkResult r)) _ => if d = c then some r else none
  | _ => none

/-- The resolution that is handed to the dispatch of a request in an act. -/
def Act.dispatch? (q : RequestId) (x : Act) : Option Resolution :=
  match x.deed with
  | .step p n => p.dispatchCall? q n
  | _ => none

/-- What a request and its cell do about a timeout or a failure: an interceptor is told, or the
callback of the cell or the computation of its fallback is called. -/
inductive Mark where
  | told (i : Interceptor)
  | called (i : Invocation)

/-- The mark of an act. -/
def Act.mark? (c : CellId) (q : RequestId) (x : Act) : Option Mark :=
  match x.deed with
  | .step (.request p (.timeoutHooks (i :: _))) _ | .step (.request p (.errorHooks _ (i :: _))) _ =>
    if p = q then some (.told i) else none
  | .step (.cell d .timeoutCallback) (.invoke _ i) | .step (.cell d .fallback) (.invoke _ i)
  | .step (.cell d (.errorCallback _)) (.invoke _ i) => if d = c then some (.called i) else none
  | _ => none

/-- The resolutions that setters of a cell attempt, in order. -/
def attempts (c : CellId) (acts : List Act) : List Resolution :=
  acts.filterMap (Act.attempt? c)

/-- The resolutions with which dispatch of a request is called, in order. -/
def dispatched (q : RequestId) (acts : List Act) : List Resolution :=
  acts.filterMap (Act.dispatch? q)

/-- The marks of a run, in order. -/
def marks (c : CellId) (q : RequestId) (acts : List Act) : List Mark :=
  acts.filterMap (Act.mark? c q)

/-- Whether a run does nothing for a request. -/
structure IsSilent (c : CellId) (q : RequestId) (acts : List Act) : Prop where
  dispatched : dispatched q acts = []
  marks : marks c q acts = []

/-- Whether an act is none of the acts by which a request and its cell are settled. -/
structure Act.IsQuiet (c : CellId) (q : RequestId) (x : Act) : Prop where
  attempt : x.attempt? c = none
  dispatch : x.dispatch? q = none
  mark : x.mark? c q = none

/-! ### Worlds -/

/-- Whether the hooks of other cells that accompany a request work in a region without its cell. -/
def World.Separates (w : World) (c : CellId) (q : RequestId) : Prop :=
  ∃ S : CellId → Prop, ¬ S c ∧ w.IsClosed S ∧
    ∀ d, .hooks d ∈ (w.request q).interceptors → d ≠ c → S d

/-- Whether a request has been made for a cell, and is separate from other cells. -/
structure World.Hosts (w : World) (c : CellId) (q : RequestId) : Prop where
  made : q < w.requestCount
  cell : (w.request q).cell = c
  away : w.Separates c q

/-- Whether no setter of a cell does anything for a request, or is called. -/
def World.IsCalm (w : World) (c : CellId) (q : RequestId) : Prop :=
  (w.cell c).hasResult = true ∨ (w.request q).completed = true

/-- Whether a world comes later than another, and shields the regions without a cell. -/
structure World.Evolves (c : CellId) (w w' : World) : Prop where
  grows : w.Grows w'
  shields : w.Shields c w'

/-- Whether a cell and a request are what they were. -/
structure World.Keeps (c : CellId) (q : RequestId) (w w' : World) : Prop
    extends w.Evolves c w' where
  slot : (w'.cell c).slot = (w.cell c).slot
  fallback : (w'.cell c).fallback = (w.cell c).fallback
  request : w'.request q = w.request q

variable {S : CellId → Prop} {c : CellId} {q : RequestId} {w w₁ w' : World} {p : Point} {f : Frame}
  {frames : List Frame} {x : Act} {acts acts₁ acts₂ : List Act} {a : Activation} {o : Outcome}
  {r : Resolution} {call : Call} {n : Next}

section Traces

@[simp] theorem attempts_nil : attempts c [] = [] := rfl

@[simp] theorem attempts_append :
    attempts c (acts₁ ++ acts₂) = attempts c acts₁ ++ attempts c acts₂ :=
  List.filterMap_append

@[simp] theorem dispatched_append :
    dispatched q (acts₁ ++ acts₂) = dispatched q acts₁ ++ dispatched q acts₂ :=
  List.filterMap_append

@[simp] theorem marks_nil : marks c q [] = [] := rfl

@[simp] theorem marks_append : marks c q (acts₁ ++ acts₂) = marks c q acts₁ ++ marks c q acts₂ :=
  List.filterMap_append

theorem attempts_cons (h : x.attempt? c = none) : attempts c (x :: acts) = attempts c acts :=
  List.filterMap_cons_none h

theorem dispatched_cons (h : x.dispatch? q = none) :
    dispatched q (x :: acts) = dispatched q acts :=
  List.filterMap_cons_none h

@[simp] theorem Act.attempt?_checkResult {l : List Notice} :
    Act.attempt? c ⟨.step (.cell c (.checkResult r)) n, l⟩ = some r :=
  if_pos rfl

theorem Act.dispatch?_step (q : RequestId) (w : World) (p : Point) (l : List Notice) :
    Act.dispatch? q ⟨.step p (p.step w).next, l⟩ = p.dispatch? q :=
  p.dispatchCall?_next q w

@[simp] theorem Act.mark?_fallback {i : Invocation} {l : List Notice} :
    Act.mark? c q ⟨.step (.cell c .fallback) (.invoke f i), l⟩ = some (.called i) :=
  if_pos rfl

theorem dispatched_cons_some (h : x.dispatch? q = some r) :
    dispatched q (x :: acts) = r :: dispatched q acts :=
  List.filterMap_cons_some h

theorem attempts_cons_some (h : x.attempt? c = some r) :
    attempts c (x :: acts) = r :: attempts c acts :=
  List.filterMap_cons_some h

theorem marks_cons_some {m : Mark} (h : x.mark? c q = some m) :
    marks c q (x :: acts) = m :: marks c q acts :=
  List.filterMap_cons_some h

theorem marks_cons (h : x.mark? c q = none) : marks c q (x :: acts) = marks c q acts :=
  List.filterMap_cons_none h

theorem IsSilent.nil : IsSilent c q [] :=
  ⟨rfl, rfl⟩

theorem IsSilent.append (h : IsSilent c q acts₁) (h' : IsSilent c q acts₂) :
    IsSilent c q (acts₁ ++ acts₂) :=
  ⟨by simp [h.dispatched, h'.dispatched], by simp [h.marks, h'.marks]⟩

theorem IsSilent.cons (hd : x.dispatch? q = none) (hm : x.mark? c q = none)
    (h : IsSilent c q acts) : IsSilent c q (x :: acts) :=
  ⟨(dispatched_cons hd).trans h.dispatched, (marks_cons hm).trans h.marks⟩

end Traces

namespace World

theorem Evolves.refl (w : World) : w.Evolves c w :=
  ⟨.refl w, .refl w⟩

theorem Evolves.trans (h : w.Evolves c w₁) (h' : w₁.Evolves c w') : w.Evolves c w' :=
  ⟨h.grows.trans h'.grows, h.shields.trans h'.shields⟩

/-- A step that registers no request shields all regions. -/
theorem Evolves.of_step (hp : ∀ d r, p ≠ .cell d (.register (.request r))) :
    w.Evolves c (p.step w).world :=
  ⟨p.grows_step w, .of_step hp⟩

theorem Hosts.evolve (hw : w.Hosts c q) (h : w.Evolves c w') : w'.Hosts c q := by
  obtain ⟨S, hc, hS, hhooks⟩ := hw.away
  obtain ⟨T, hST, hT, hclosed⟩ := h.shields S hc hS
  have hfixed := (h.grows.request q hw.made).fixed
  refine ⟨Nat.lt_of_lt_of_le hw.made h.grows.requestCount,
    (Request.cell_eq_of_fixed hfixed).trans hw.cell, T, hT, hclosed, fun d hd hne => ?_⟩
  rw [Request.interceptors_eq_of_fixed hfixed] at hd
  exact hST d (hhooks d hd hne)

theorem Evolves.interceptors (h : w.Evolves c w') (hw : w.Hosts c q) :
    (w'.request q).interceptors = (w.request q).interceptors :=
  Request.interceptors_eq_of_fixed (h.grows.request q hw.made).fixed

theorem Hosts.ne_of_owns (hw : w.Hosts c q) (hc : ¬ S c) {r : RequestId} (h : w.Owns S r) :
    r ≠ q := by
  rintro rfl
  exact hc (hw.cell ▸ h.cell)

theorem Keeps.refl (w : World) : w.Keeps c q w :=
  ⟨.refl w, rfl, rfl, rfl⟩

theorem Keeps.trans (h : w.Keeps c q w₁) (h' : w₁.Keeps c q w') : w.Keeps c q w' :=
  ⟨h.toEvolves.trans h'.toEvolves, h'.slot.trans h.slot, h'.fallback.trans h.fallback,
    h'.request.trans h.request⟩

theorem Keeps.result (h : w.Keeps c q w') : (w'.cell c).result = (w.cell c).result :=
  congrArg Slot.result h.slot

theorem Keeps.expired (h : w.Keeps c q w') : (w'.cell c).expired = (w.cell c).expired :=
  congrArg Slot.expired h.slot

theorem Keeps.isCalm (h : w.Keeps c q w') (hw : w.IsCalm c q) : w'.IsCalm c q := by
  rw [IsCalm, Cell.hasResult, h.result, h.request]
  exact hw

end World

/-! ### Points of regions without the cell -/

/-- A step of code of a region without the cell keeps the request and the cell as they are. -/
theorem Point.IsIn.keeps (h : p.IsIn S w) (hc : ¬ S c) (hS : w.IsClosed S) (hw : w.Hosts c q) :
    w.Keeps c q (p.step w).world where
  grows := p.grows_step w
  shields := h.shields hc hS
  slot := by rw [h.spares.cell c hc]
  fallback := by rw [h.spares.cell c hc]
  request := h.spares.request q hw.made (hw.cell ▸ hc)

private theorem ne_of_mem {d : CellId} (hc : ¬ S c) (hd : S d) : d ≠ c := by
  rintro rfl
  exact hc hd

/-- A step of code of a region without the cell is a quiet one. -/
theorem Point.IsIn.isQuiet (h : p.IsIn S w) (hc : ¬ S c) (hw : w.Hosts c q) (n : Next)
    (l : List Notice) : Act.IsQuiet c q ⟨.step p n, l⟩ where
  attempt := by
    unfold Act.attempt?
    split
    · rename_i hd
      cases hd
      exact if_neg (ne_of_mem hc h)
    · rfl
  dispatch := by
    refine Option.eq_none_iff_forall_ne_some.mpr fun r hr => ?_
    obtain ⟨x, rfl⟩ := Point.eq_of_dispatchCall? hr
    exact hw.ne_of_owns hc h rfl
  mark := by
    unfold Act.mark?
    split
    case h_6 => rfl
    all_goals
      rename_i hd
      cases hd
      first
      | exact if_neg (hw.ne_of_owns hc h.1)
      | exact if_neg (ne_of_mem hc h)

/-! ### Outcomes -/

/-- Where code begins at a point or in user code, its outcome is containable. -/
theorem Activation.Unfolds.isContainable {k : Control}
    (h : Unfolds (.attending c q) w ⟨k, []⟩ acts w' o) (hk : ∀ o, k ≠ .ended o) :
    o.IsContainable :=
  h.isContainable_of_isContained Conduct.isContained_attending hk

/-! ### What adds up -/

/-- A relation between a world, acts and a later world to which the acts of user code add up, where
it holds without any acts. -/
structure Tally (c : CellId) (q : RequestId) (R : World → List Act → World → Prop) : Prop where
  append {w w₁ w' : World} {acts₁ acts₂ : List Act} :
    R w acts₁ w₁ → R w₁ acts₂ w' → R w (acts₁ ++ acts₂) w'
  quiet {w w' : World} {x : Act} : R w [] w → w.Keeps c q w' → x.IsQuiet c q → R w [x] w'
  setter {w w' : World} {acts : List Act} {r : Resolution} {o : Outcome} : R w [] w →
    (w.cell c).hasResult = true ∨ (w.request q).completed = false →
    Unfolds (.attending c q) w ⟨.ready (.cell c (.checkResult r)), []⟩ acts w' o → R w acts w'
  after {w w' : World} {acts : List Act} : R w acts w' → R w' [] w'
  hosts {w : World} : R w [] w → w.Hosts c q
  shields {w w' : World} {acts : List Act} : R w acts w' → w.Shields c w'

namespace Tally

variable {R : World → List Act → World → Prop}

theorem cons (hR : Tally c q R) (hw : R w [] w) (hkeeps : w.Keeps c q w₁) (hx : x.IsQuiet c q)
    (h : R w₁ acts w') : R w (x :: acts) w' :=
  hR.append (hR.quiet hw hkeeps hx) h

/-- A look at the cell, or a change of its callbacks, is quiet. -/
private theorem of_regards (hR : Tally c q R) (hw : R w [] w) (hcall : call.Regards c)
    (h : call.activation.Unfolds (.attending c q) w acts w' o) : R w acts w' := by
  have hquiet {p : CellPoint} {n : Next} {l : List Notice}
      (hp : (∃ x, p = .ask x) ∨ p = .askExpired ∨ ∃ slot id, p = .setCallback slot id) :
      Act.IsQuiet c q ⟨.step (.cell c p) n, l⟩ := by
    rcases hp with ⟨x, rfl⟩ | rfl | ⟨slot, id, rfl⟩ <;> exact ⟨rfl, rfl, rfl⟩
  cases hcall with
  | ask x =>
    obtain ⟨rest, rfl, hrest⟩ := h.of_ready
    have hmore : rest = [] ∧ w' = w ∨ Unfolds (.attending c q) w ⟨.ready (.cell c .askExpired), []⟩
        rest w' o := by
      cases x with
      | isSetOrExpired =>
        cases hresult : (w.cell c).hasResult with
        | true =>
          simp only [Point.step, CellPoint.step, hresult] at hrest
          obtain ⟨rfl, rfl, -⟩ := hrest.of_ended_nil
          exact .inl ⟨rfl, rfl⟩
        | false =>
          simp only [Point.step, CellPoint.step, hresult] at hrest
          exact .inr hrest
      | _ =>
        obtain ⟨rfl, rfl, -⟩ := hrest.of_ended_nil
        exact .inl ⟨rfl, rfl⟩
    have hworld : ((Point.cell c (.ask x)).step w).world = w := by
      cases x <;> rfl
    rcases hmore with ⟨rfl, rfl⟩ | hmore
    · exact hR.quiet hw (.refl _) (hquiet (.inl ⟨x, rfl⟩))
    · obtain ⟨rfl, rfl, -⟩ := hmore.of_finish rfl
      exact hR.cons hw (.refl _) (hquiet (.inl ⟨x, rfl⟩))
        (hR.quiet hw (.refl _) (hquiet (.inr (.inl rfl))))
  | setCallback slot id =>
    obtain ⟨rfl, rfl, -⟩ := h.of_finish rfl
    have hsame : (((Point.cell c (.setCallback slot id)).step w).world.cell c) =
        (w.cell c).setCallback slot id := by simp [Point.step, CellPoint.step, World.modifyCell]
    refine hR.quiet hw ⟨.of_step (by simp), ?_, ?_, rfl⟩ (hquiet (.inr (.inr ⟨slot, id, rfl⟩)))
    · rw [hsame]
      cases slot <;> rfl
    · rw [hsame]
      cases slot <;> rfl

/-- The acts of user code, and of code of regions without the cell, add up. The induction is on the
run, for all such regions: a region may have to grow by that of a call in between. -/
theorem of_unfolds (hR : Tally c q R) (h : a.Unfolds (.attending c q) w acts w' o) (hw : R w [] w)
    (ha : a.IsIn S w) (hc : ¬ S c) (hS : w.IsClosed S) : R w acts w' := by
  induction h generalizing S with
  | ended => exact hw
  | @step w _ p frames _ _ _ _ ih =>
    have hp := ha.point p rfl
    have hkeeps := hp.keeps hc hS (hR.hosts hw)
    have hact := hR.quiet hw hkeeps
      (hp.isQuiet hc (hR.hosts hw) (p.step w).next (p.step w).notices)
    exact hR.append hact (ih (hR.after hact) (ha.step hS) hc (hp.isClosed hS))
  | resume _ ih =>
    exact hR.cons hw (.refl _) ⟨rfl, rfl, rfl⟩ (ih hw ha.resume hc hS)
  | answer _ _ ih =>
    exact hR.cons hw (.refl _) ⟨rfl, rfl, rfl⟩ (ih hw ha.conclude hc hS)
  | @call w w₁ w' i frames call inner acts o₁ o hcall hinner h ih₁ ih₂ =>
    have hin : R w inner w₁ := by
      rcases hcall with ⟨⟨r, hr⟩, hset⟩ | hregards | ⟨T, hcT, hT, hcall⟩
      · have hcall : call.activation = ⟨.ready (.cell c (.checkResult r)), []⟩ := by
          unfold Call.assigns? at hr
          split at hr <;> cases hr <;> rfl
        rw [hcall] at hinner
        exact hR.setter hw hset hinner
      · exact hR.of_regards hw hregards hinner
      · exact ih₁ hw hcall.activation hcT hT
    obtain ⟨T, hST, hcT, hT⟩ := hR.shields hin S hc hS
    have hrest : R w₁ acts w' := by
      refine ih₂ (hR.after hin) (.inside fun f hf => ?_) hcT hT
      exact ((ha.frame f hf).mono hST).grow hinner.grows
    refine hR.cons hw (.refl _) ⟨rfl, rfl, rfl⟩ (hR.append hin ?_)
    exact hR.cons (hR.after hin) (.refl _) ⟨rfl, rfl, rfl⟩ hrest

/-- The acts of user code add up. -/
theorem of_inside (hR : Tally c q R) {i : Invocation}
    (h : Unfolds (.attending c q) w ⟨.inside i, []⟩ acts w' o) (hw : R w [] w) : R w acts w' :=
  hR.of_unfolds (S := fun _ => False) h hw (.inside fun _ hf => (nomatch hf)) id
    fun _ _ hd => hd.elim

end Tally

/-! ### Calm worlds -/

/-- What happens in a calm world: nothing for the request and its cell. -/
structure Rests (c : CellId) (q : RequestId) (w : World) (acts : List Act) (w' : World) :
    Prop where
  hosts : w.Hosts c q
  calm : w.IsCalm c q
  keeps : w.Keeps c q w'
  silent : IsSilent c q acts

theorem Rests.refl (hw : w.Hosts c q) (hcalm : w.IsCalm c q) : Rests c q w [] w :=
  ⟨hw, hcalm, .refl w, .nil⟩

/-- A setter is of no avail where there is a resolution. -/
theorem Activation.Unfolds.of_hasResult {P : Conduct}
    (h : Unfolds P w ⟨.ready (.cell c (.checkResult r)), []⟩ acts w' o)
    (hw : (w.cell c).hasResult = true) :
    acts = [⟨.step (.cell c (.checkResult r)) (.ret (.flag false)), []⟩] ∧ w' = w ∧
      o = .returned (.flag false) :=
  h.of_finish (by simp [Point.step, CellPoint.step, hw, Next.ret])

/-- Nothing happens for the request and its cell in a calm world. -/
theorem Rests.tally : Tally c q (Rests c q) where
  append h h' := ⟨h.hosts, h.calm, h.keeps.trans h'.keeps, h.silent.append h'.silent⟩
  quiet h hkeeps hx := ⟨h.hosts, h.calm, hkeeps, .cons hx.dispatch hx.mark .nil⟩
  setter h hset hunfolds := by
    have hresult := hset.elim id fun hopen => h.calm.resolve_right (by simp [hopen])
    obtain ⟨rfl, rfl, -⟩ := hunfolds.of_hasResult hresult
    exact ⟨h.hosts, h.calm, .refl _, .cons rfl rfl .nil⟩
  after h := .refl (h.hosts.evolve h.keeps.toEvolves) (h.keeps.isCalm h.calm)
  hosts h := h.hosts
  shields h := h.keeps.shields

end Rendezvous
