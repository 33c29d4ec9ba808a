import Rendezvous.Proofs.Coordinators.Orderly
import Rendezvous.Proofs.Delivery.ExactlyOnce
import Rendezvous.Proofs.Reentrancy.Ends

/-!
# What is read off a run

The acts of a call that runs to its end are its own and those of the calls that user code makes
meanwhile. Its own acts are those outside of all begins and finishes, and with them the user code
that it calls itself.

A cell takes one resolution at most, so its result after a run is the one before, or else the first
that a setter of the cell got accepted, whoever called it.

## Main definitions

* `Conduct.IsContained`, `Conduct.contained`: user code that raises ordinary failures only.
* `own`, `invocations`: the acts of a call itself, and the user code that it calls.
* `acceptances`: the resolutions that a cell took.
* `Passes`: a passage that takes a call from one place to another.

## Main results

* `Unfolds.isContainable_of_isContained`: contained user code makes containable outcomes.
* `Unfolds.exists_way_of_mem_invocations`: code below a height calls user code below it.
* `Unfolds.cell_result`: the result of a cell is the first one accepted.
-/

namespace Rendezvous

open Activation

/-! ### Contained user code -/

/-- Whether user code raises ordinary failures only. -/
def Conduct.IsContained (P : Conduct) : Prop :=
  ∀ w i a, P.mayAnswer w i a → (Outcome.ofUser a).IsContainable

/-- User code that calls what it likes and raises ordinary failures only. -/
def Conduct.contained : Conduct where
  mayCall _ _ := True
  mayAnswer _ _ a := (Outcome.ofUser a).IsContainable

theorem Conduct.isContained_contained : Conduct.contained.IsContained :=
  fun _ _ _ h => h

theorem Conduct.isResponsive_contained : Conduct.contained.IsResponsive :=
  fun _ _ => ⟨.ok .null, trivial⟩

variable {P : Conduct} {w w₁ w' : World} {p : Point} {f : Frame} {frames : List Frame}
  {acts rest : List Act} {a : Activation} {i : Invocation} {o x : Outcome} {c : CellId}
  {r : Resolution} {n : Next} {l : List Notice} {call : Call} {k : Nat ×ₗ Nat}

/-- Whether the outcomes that a call in progress has ready are containable. -/
private structure Carries (a : Activation) : Prop where
  outcome (o : Outcome) (h : a.control = .ended o) : o.IsContainable
  frame (f : Frame) (hf : f ∈ a.frames) (o : Outcome) (h : f.carried? = some o) : o.IsContainable

private theorem carries_follow (hframes : ∀ f ∈ frames, ∀ o, f.carried? = some o →
      o.IsContainable)
    (hframe : ∀ f, n.frame? = some f → ∀ o, f.carried? = some o → o.IsContainable)
    (hfinish : ∀ o, n = .finish o → o.IsContainable) : Carries (follow frames n) where
  outcome o ho := hfinish o (control_follow_eq_ended.mp ho)
  frame f hf := (mem_frames_follow.mp hf).elim (hframe f) (hframes f)

private theorem Carries.step (h : Carries ⟨.ready p, frames⟩) :
    Carries (follow frames (p.step w).next) := by
  have hway := p.way_step w
  generalize (p.step w).next = n at hway
  refine carries_follow h.frame (fun f hf o ho => ?_) fun o ho => ?_
  · cases hway <;> cases hf <;> cases ho <;> trivial
  · cases hway <;> cases ho
    exact Outcome.IsPlain.isContainable ‹_›

private theorem Carries.resume (h : Carries ⟨.ended o, f :: frames⟩) :
    Carries (follow frames (f.resume w o).next) := by
  have ho := h.outcome o rfl
  have hway := f.way_resume w o
  generalize (f.resume w o).next = n at hway
  refine carries_follow (fun g hg => h.frame g (List.mem_cons_of_mem f hg))
    (fun g hg o' ho' => ?_) fun o' ho' => ?_
  · cases hway <;> cases hg
    cases ho'
    exact ho
  · cases hway <;> cases ho'
    rename_i hend
    rcases hend with ⟨e, -, rfl⟩ | hplain | hcarried
    · exact ho
    · exact hplain.isContainable
    · exact h.frame f List.mem_cons_self _ hcarried

private theorem Carries.of_unfolds (hP : P.IsContained) (h : a.Unfolds P w acts w' o)
    (ha : Carries a) : o.IsContainable := by
  induction h with
  | ended w o => exact ha.outcome o rfl
  | step _ _ ih => exact ih ha.step
  | resume _ ih => exact ih ha.resume
  | answer hmay _ ih => exact ih ⟨fun _ ho => Control.ended.inj ho ▸ hP _ _ _ hmay, ha.frame⟩
  | call _ _ _ _ ih => exact ih ha

/-- Where code begins at a point or in contained user code, its outcome is containable. -/
theorem Activation.Unfolds.isContainable_of_isContained {control : Control} (hP : P.IsContained)
    (h : Unfolds P w ⟨control, []⟩ acts w' o) (hcontrol : ∀ o, control ≠ .ended o) :
    o.IsContainable :=
  Carries.of_unfolds hP h ⟨fun o ho => absurd ho (hcontrol o), fun _ hf => (nomatch hf)⟩

/-! ### The acts of a call itself -/

/-- The acts that a call takes itself, where so many calls of user code are in progress within. -/
def ownWithin : Nat → List Act → List Act
  | _, [] => []
  | n, x :: acts =>
    match x.deed with
    | .begin _ => ownWithin (n + 1) acts
    | .finish _ => ownWithin (n - 1) acts
    | _ => if n = 0 then x :: ownWithin n acts else ownWithin n acts

/-- The acts that a call takes itself. -/
def own (acts : List Act) : List Act :=
  ownWithin 0 acts

/-- The user code that is called in an act. -/
def Act.invocation? (x : Act) : Option Invocation :=
  match x.deed with
  | .step _ (.invoke _ i) | .resume _ _ (.invoke _ i) => some i
  | _ => none

/-- The user code that a call itself calls, in order. -/
def invocations (acts : List Act) : List Invocation :=
  (own acts).filterMap Act.invocation?

@[simp] theorem invocations_nil : invocations [] = [] := rfl

theorem invocations_step : invocations (⟨.step p n, l⟩ :: acts) =
    (Act.invocation? ⟨.step p n, l⟩).toList ++ invocations acts := by
  rw [invocations, own, ownWithin, if_pos rfl, List.filterMap_cons]
  cases Act.invocation? ⟨.step p n, l⟩ <;> rfl

theorem invocations_resume : invocations (⟨.resume f x n, l⟩ :: acts) =
    (Act.invocation? ⟨.resume f x n, l⟩).toList ++ invocations acts := by
  rw [invocations, own, ownWithin, if_pos rfl, List.filterMap_cons]
  cases Act.invocation? ⟨.resume f x n, l⟩ <;> rfl

namespace Activation.Unfolds

/-- Within a call of user code, nothing is an act of the call around it. -/
private theorem ownWithin_append (h : Unfolds P w a acts w' o) (n : Nat) (rest : List Act) :
    ownWithin (n + 1) (acts ++ rest) = ownWithin (n + 1) rest := by
  induction h generalizing n rest with
  | ended => rfl
  | step _ _ ih | resume _ ih | answer _ _ ih => exact ih n rest
  | @call _ _ _ _ _ _ _ _ o₁ _ _ _ _ ih₁ ih₂ =>
    rw [List.cons_append, List.append_assoc]
    exact (ih₁ (n + 1) _).trans (ih₂ n rest)

/-- The acts of a call that user code makes are not acts of the call around it. -/
theorem own_call (h : Unfolds P w a acts w' o) (call : Call) (l l' : List Notice)
    (rest : List Act) : own (⟨.begin call, l⟩ :: (acts ++ ⟨.finish o, l'⟩ :: rest)) = own rest :=
  h.ownWithin_append 0 _

theorem own_append (h : Unfolds P w a acts w' o) (rest : List Act) :
    own (acts ++ rest) = own acts ++ own rest := by
  induction h generalizing rest with
  | ended => rfl
  | step _ _ ih | resume _ ih | answer _ _ ih => exact congrArg (_ :: ·) (ih rest)
  | call _ hinner _ _ ih =>
    rw [List.cons_append, List.append_assoc, List.cons_append, hinner.own_call, hinner.own_call]
    exact ih rest

theorem invocations_append (h : Unfolds P w a acts w' o) (rest : List Act) :
    invocations (acts ++ rest) = invocations acts ++ invocations rest := by
  rw [invocations, h.own_append, List.filterMap_append]
  rfl

/-- User code that calls user code does so in calls of its own. -/
theorem invocations_inside (h : Unfolds P w ⟨.inside i, []⟩ acts w' o) : invocations acts = [] := by
  generalize ha : (⟨.inside i, []⟩ : Activation) = b at h
  induction h with
  | ended | step | resume => cases ha
  | answer _ h =>
    cases ha
    obtain ⟨rfl, -⟩ := h.of_ended_nil
    rfl
  | call _ hinner _ _ ih =>
    rw [invocations, hinner.own_call]
    exact ih ha

end Activation.Unfolds

/-! ### Below a height -/

/-- Whether the code of a call in progress is below a height, and not at a wait. -/
structure Activation.IsBelow (k : Nat ×ₗ Nat) (a : Activation) : Prop where
  point (p : Point) (h : a.control = .ready p) : p.height < k ∧ ∀ q, p ≠ .request q .await
  frame (f : Frame) (hf : f ∈ a.frames) : f.height < k

theorem Activation.IsBelow.of_ready (h : p.height < k) (hp : ∀ q, p ≠ .request q .await) :
    IsBelow k ⟨.ready p, []⟩ where
  point _ hp' := Control.ready.inj hp' ▸ ⟨h, hp⟩
  frame _ hf := nomatch hf

private theorem isBelow_follow {j : Nat ×ₗ Nat} (hn : n.IsBelow j) (hj : j < k)
    (hframes : ∀ f ∈ frames, f.height < k) : (follow frames n).IsBelow k where
  point p hp := by
    cases n with
    | goto g => exact Control.ready.inj hp ▸ ⟨hn.1.trans hj, hn.2⟩
    | call f g => exact Control.ready.inj hp ▸ ⟨hn.2.1.trans hj, hn.2.2⟩
    | invoke | finish => cases hp
  frame f hf := by
    rcases mem_frames_follow.mp hf with hf | hf
    · cases n with
      | call g p => exact Option.some.inj hf ▸ hn.1.trans hj
      | invoke g i => exact Option.some.inj hf ▸ lt_trans hn hj
      | goto | finish => cases hf
    · exact hframes f hf

/-- The user code that code below a height calls is called from points below the height. -/
theorem Activation.Unfolds.exists_way_of_mem_invocations (h : Unfolds P w a acts w' o)
    (ha : a.IsBelow k) (hi : i ∈ invocations acts) :
    ∃ w p f, p.height < k ∧ Point.Way w p (.invoke f i) := by
  induction h with
  | ended => cases hi
  | @step w _ p _ _ _ _ _ ih =>
    obtain ⟨hp, hawait⟩ := ha.point p rfl
    rw [invocations_step, List.mem_append] at hi
    rcases hi with hi | hi
    · have hway := p.way_step w
      cases hn : (p.step w).next with
      | invoke f j =>
        rw [hn] at hi hway
        exact ⟨w, p, f, hp, List.mem_singleton.mp hi ▸ hway⟩
      | _ => simp [hn, Act.invocation?] at hi
    · exact ih (isBelow_follow (Point.isBelow_of_way (p.way_step w) hawait) hp ha.frame) hi
  | @resume w _ f _ x _ _ _ ih =>
    rw [invocations_resume, List.mem_append] at hi
    rcases hi with hi | hi
    · have hway := f.way_resume w x
      generalize (f.resume w x).next = n at hi hway
      cases hway <;> simp [Act.invocation?] at hi
    · exact ih (isBelow_follow (Frame.isBelow_of_way (f.way_resume w x))
        (ha.frame f List.mem_cons_self) fun g hg => ha.frame g (List.mem_cons_of_mem f hg)) hi
  | answer _ _ ih => exact ih ⟨fun _ hp => (nomatch hp), ha.frame⟩ hi
  | call _ hinner _ _ ih =>
    refine ih ⟨fun _ hp => (nomatch hp), ha.frame⟩ ?_
    rwa [invocations, hinner.own_call] at hi

/-! ### What becomes of a cell -/

/-- The resolution that a cell took in an act. -/
def Act.acceptance? (c : CellId) (x : Act) : Option Resolution :=
  match x.deed with
  | .step (.cell d (.assign r)) n => if d = c ∧ n.accepts = true then some r else none
  | _ => none

/-- The resolutions that a cell took, in order. -/
def acceptances (c : CellId) (acts : List Act) : List Resolution :=
  acts.filterMap (Act.acceptance? c)

@[simp] theorem acceptances_append (acts rest : List Act) :
    acceptances c (acts ++ rest) = acceptances c acts ++ acceptances c rest :=
  List.filterMap_append

namespace Point

/-- A step leaves the result of a cell, or the cell had none and takes a resolution. -/
theorem result_step_eq (w : World) (p : Point) (c : CellId) (l : List Notice) :
    ((p.step w).world.cell c).result =
      (w.cell c).result.or (Act.acceptance? c ⟨.step p (p.step w).next, l⟩) := by
  by_cases hp : ∃ r, p = .cell c (.assign r)
  · obtain ⟨r, rfl⟩ := hp
    cases hc : (w.cell c).isSetOrExpired with
    | false =>
      have hresult : (w.cell c).result = none := by simp_all [Cell.isSetOrExpired]
      cases hh : (w.cell c).handler <;>
        simp [step, CellPoint.step, Cell.assign, hc, hh, hresult, Act.acceptance?, Next.accepts,
          Next.ret]
    | true =>
      have hreject : Act.acceptance? c ⟨.step (.cell c (.assign r))
          ((Point.cell c (.assign r)).step w).next, l⟩ = none := by
        simp [step, CellPoint.step, Cell.assign, hc, Act.acceptance?, Next.accepts, Next.ret]
      rw [hreject, Option.or_none]
      simp [step, CellPoint.step, Cell.assign, hc]
  · have hnone : Act.acceptance? c ⟨.step p (p.step w).next, l⟩ = none := by
      unfold Act.acceptance?
      split
      · rename_i d r n hd
        cases hd
        refine if_neg fun h => hp ⟨r, ?_⟩
        rw [h.1]
      · rfl
    rw [hnone, Option.or_none]
    rcases p.cell_step w c with h | ⟨_, -, h⟩ | ⟨r, rfl, -⟩ | ⟨-, h⟩ | ⟨slot, _, -, h⟩
    · rw [h]
    · rw [h, Cell.register_fst_result]
    · exact absurd ⟨r, rfl⟩ hp
    · rw [h, Cell.expire_fst_result]
    · rw [h]
      cases slot <;> rfl

/-- The fallback of a cell never changes. -/
theorem fallback_step (w : World) (p : Point) (c : CellId) :
    ((p.step w).world.cell c).fallback = (w.cell c).fallback := by
  rcases p.cell_step w c with h | ⟨_, -, h⟩ | ⟨_, -, h⟩ | ⟨-, h⟩ | ⟨slot, _, -, h⟩ <;> rw [h]
  · unfold Cell.register
    split
    · rfl
    · split <;> rfl
  · unfold Cell.assign
    split <;> rfl
  · unfold Cell.expire
    split <;> rfl
  · cases slot <;> rfl

end Point

namespace Activation.Unfolds

/-- The result of a cell after a run is the one before, or else the first one accepted. -/
theorem cell_result (h : Unfolds P w a acts w' o) (c : CellId) :
    (w'.cell c).result = (w.cell c).result.or (acceptances c acts).head? := by
  induction h with
  | ended => exact Option.or_none.symm
  | @step w w' p _ acts _ _ _ ih =>
    rw [ih, p.result_step_eq w c (p.step w).notices, Option.or_assoc, acceptances, acceptances,
      List.filterMap_cons]
    cases Act.acceptance? c ⟨.step p (p.step w).next, (p.step w).notices⟩ <;> simp
  | resume _ ih | answer _ _ ih => exact ih
  | @call _ _ _ _ _ call inner acts o₁ _ _ _ _ ih₁ ih₂ =>
    have hacts : acceptances c (⟨.begin call, []⟩ :: (inner ++ ⟨.finish o₁, []⟩ :: acts)) =
        acceptances c inner ++ acceptances c acts :=
      acceptances_append inner _
    rw [ih₂, ih₁, hacts, List.head?_append, Option.or_assoc]

theorem cell_fallback (h : Unfolds P w a acts w' o) (c : CellId) :
    (w'.cell c).fallback = (w.cell c).fallback := by
  induction h with
  | ended => rfl
  | @step w _ p _ _ _ _ _ ih => exact ih.trans (p.fallback_step w c)
  | resume _ ih | answer _ _ ih => exact ih
  | call _ _ _ ih₁ ih₂ => exact ih₂.trans ih₁

end Activation.Unfolds

/-! ### Passages -/

/-- Whether a call in progress passes from one place to another by steps of the library only. -/
inductive Passes : World → Activation → List Act → World → Activation → Prop
  | refl (w : World) (a : Activation) : Passes w a [] w a
  | step {w w' : World} {p : Point} {n : Next} {frames : List Frame} {acts : List Act}
      {b : Activation} (hp : p.isEnabled w = true) (hn : (p.step w).next = n)
      (h : Passes (p.step w).world (follow frames n) acts w' b) :
    Passes w ⟨.ready p, frames⟩ (⟨.step p n, (p.step w).notices⟩ :: acts) w' b

namespace Passes

variable {b d : Activation} {before between : List Act}

/-- A call that passes a place runs to its end from there. -/
theorem unfolds_iff (h : Passes w a before w₁ b) : Unfolds P w a acts w' o ↔
    ∃ rest, acts = before ++ rest ∧ Unfolds P w₁ b rest w' o := by
  induction h generalizing acts with
  | refl => simp
  | @step w _ p _ _ before _ hp hn _ ih =>
    subst hn
    constructor
    · intro h
      obtain ⟨later, rfl, hlater⟩ := h.of_ready
      obtain ⟨rest, rfl, hrest⟩ := ih.mp hlater
      exact ⟨rest, rfl, hrest⟩
    · rintro ⟨rest, rfl, hrest⟩
      exact .step hp (ih.mpr ⟨rest, rfl, hrest⟩)

theorem trans (h : Passes w a before w₁ b) (h' : Passes w₁ b between w' d) :
    Passes w a (before ++ between) w' d := by
  induction h with
  | refl => exact h'
  | step hp hn _ ih => exact .step hp hn (ih h')

theorem grows (h : Passes w a before w₁ b) : w.Grows w₁ := by
  induction h with
  | refl => exact .refl _
  | @step w _ p _ _ _ _ _ _ _ ih => exact (p.grows_step w).trans ih

/-- All acts of a passage are acts of the call itself. -/
theorem own_append (h : Passes w a before w₁ b) (rest : List Act) :
    own (before ++ rest) = before ++ own rest := by
  induction h with
  | refl => rfl
  | step _ _ _ ih => exact congrArg (_ :: ·) ih

end Passes

end Rendezvous
