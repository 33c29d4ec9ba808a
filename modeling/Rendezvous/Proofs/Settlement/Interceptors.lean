import Rendezvous.Proofs.Settlement.Settling

/-!
# Interceptors and the resolution of their request

When a request times out or fails, its interceptors are told one after the other, up to and
including the first whose reaction counts as "no" or fails. The hooks of the cell itself call the
callback of the cell first. Then the timeout hook settles the cell with the fallback, if there is
one, and the error hook with the error. Setters that are called meanwhile attempt resolutions, and
the first attempt of all is the resolution of the request.

## Main definitions

* `Visits`: a run of user code, if there is any.
* `HandlesTimeout`, `HandlesError`: how the hooks of the cell run.
* `Telling` and `Tells`: how the interceptors are told.
* `settlement` and `Concludes`: what becomes of the request then.

## Main results

* `Unfolds.handlesTimeout`, `Unfolds.handlesError`: the hooks of the cell of a request do so.
* `Unfolds.concludes`: the interceptors are told so, and the first attempt settles the request.
-/

namespace Rendezvous

open Activation

/-! ### The hooks of a cell -/

/-- A run of user code, if there is any. -/
def Visits (P : Conduct) (i : Option Invocation) (w : World) (acts : List Act) (w' : World)
    (o : Outcome) : Prop :=
  match i with
  | none => acts = [] ∧ w' = w
  | some i => Unfolds P w ⟨.inside i, []⟩ acts w' o

/-- The computation of a fallback. -/
def Fallback.invocation? : Fallback → Option Invocation
  | .fixed _ => none
  | .computed id => some ⟨id, .factory, none⟩

/-- The resolution that a fallback comes to, given the outcome of its computation. -/
def Fallback.resolution? (o : Outcome) : Fallback → Option Resolution
  | .fixed p => Resolution.ofFallback? p
  | .computed _ =>
    match o with
    | .returned (.payload p) => Resolution.ofFallback? p
    | _ => none

/-- How the timeout hook of a cell runs: the callback, then the computation of the fallback, and
then a setter is called with what the fallback comes to. The answer says whether that is nothing. -/
structure HandlesTimeout (P : Conduct) (c : CellId) (w : World) (acts callback factory : List Act)
    (fallback : Option Resolution) (o : Outcome) : Prop where
  visits : ∃ w₁ x w₂ y,
    Visits P ((w.cell c).onTimeout.map fun id => ⟨id, .onTimeout, none⟩) w callback w₁ x ∧
    Visits P (w.cell c).fallback.invocation? w₁ factory w₂ y ∧
    fallback = (w.cell c).fallback.resolution? y
  segments : ∃ before between after, acts = before ++ callback ++ between ++ factory ++ after
  outcome : o = .returned (.flag fallback.isNone)

/-- How the error hook of a cell runs: the callback, and then a setter is called with the error. -/
structure HandlesError (P : Conduct) (c : CellId) (e : Payload) (w : World)
    (acts callback : List Act) (o : Outcome) : Prop where
  visits : ∃ w₁ x, Visits P
    ((w.cell c).onError.map fun id => ⟨id, .onError, some (.payload e)⟩) w callback w₁ x
  segments : ∃ before after, acts = before ++ callback ++ after
  outcome : o = .returned (.flag false)

variable {S : CellId → Prop} {c : CellId} {q : RequestId} {w w₁ w' : World} {p g : CellPoint}
  {f : CellFrame} {frames : List Frame} {acts acts₁ acts₂ : List Act} {o : Outcome}
  {r : Resolution} {e : Payload} {P : Conduct} {i : Interceptor} {j : Option Invocation}
  {rest : List Interceptor}

private theorem head?_toList {α : Type} (x : Option α) : x.toList.head? = x := by
  cases x <;> rfl

namespace Activation.Unfolds

/-- The code of a cell calls user code, if there is any, and goes on. -/
private theorem visits
    (h : Unfolds (.attending c q) w ⟨.ready (.cell c p), []⟩ acts w' o) (hw : Attends c q w [] w)
    (hworld : ((Point.cell c p).step w).world = w)
    (hn : ((Point.cell c p).step w).next = match j with
      | none => .goto (.cell c g)
      | some i => .invoke (.cell c f) i)
    (hresume : ∀ w x, x.IsContainable → (f.resume w c x).next = .goto (.cell c g))
    (hattempt : ∀ n l, Act.attempt? c ⟨.step (.cell c p) n, l⟩ = none)
    (hmark : ∀ l, Act.mark? c q ⟨.step (.cell c p) ((Point.cell c p).step w).next, l⟩ =
      j.map .called) :
    ∃ before callback after w₁ x acts₂, acts = before ++ callback ++ after ++ acts₂ ∧
      Visits (.attending c q) j w callback w₁ x ∧
      Attends c q w (before ++ callback ++ after) w₁ ∧
      attempts c (before ++ callback ++ after) = attempts c callback ∧
      marks c q (before ++ callback ++ after) = j.toList.map .called ∧
      Unfolds (.attending c q) w₁ ⟨.ready (.cell c g), []⟩ acts₂ w' o := by
  cases j with
  | none =>
    obtain ⟨rest, rfl, hrest⟩ := h.of_goto hn
    rw [hworld] at hrest
    rw [hn] at hmark
    refine ⟨[_], [], [], w, o, rest, rfl, ⟨rfl, rfl⟩, hw.cons (hattempt _ _) rfl, ?_, ?_, hrest⟩
    · exact attempts_cons (hattempt _ _)
    · exact marks_cons (hmark _)
  | some i =>
    obtain ⟨callback, w₁, x, rest, rfl, hinside, hrest⟩ := h.of_invoke hn
    rw [hworld] at hinside
    rw [hn] at hmark
    obtain ⟨hattends, hmarks⟩ := Attends.tally.of_inside hinside ⟨hw, rfl⟩
    have hx := hinside.isContainable (by simp)
    have hgo : (f.resume w₁ c x).next = .goto (.cell c g) := hresume w₁ x hx
    simp only [Frame.resume, hgo] at hrest
    have hresumed : Attends c q w₁ [⟨.resume (.cell c f) x ((Frame.cell c f).resume w₁ x).next,
        ((Frame.cell c f).resume w₁ x).notices⟩] w₁ := hattends.after.cons rfl rfl
    refine ⟨[_], callback, [_], w₁, x, rest, by simp; exact ⟨rfl, rfl⟩, hinside,
      (hattends.append hresumed).cons (hattempt _ _) rfl, ?_, ?_, hrest⟩
    · rw [List.append_assoc, List.singleton_append, attempts_cons (hattempt _ _), attempts_append]
      exact List.append_nil _
    · rw [List.append_assoc, List.singleton_append, marks_cons_some (hmark _), marks_append, hmarks]
      rfl

/-- A setter is called, and the hook of the cell answers. -/
private theorem answers {x : Answer}
    (h : Unfolds (.attending c q) w ⟨.ready (.cell c (.checkResult r)), [.answer x]⟩ acts w' o)
    (hw : Attends c q w [] w) : o = .returned x ∧ Attends c q w acts w' ∧
      (attempts c acts).head? = some r ∧ marks c q acts = [] := by
  obtain ⟨acts₁, w₁, y, rest, rfl, hsetter, hrest⟩ := h.split_frame
  obtain ⟨⟨b, rfl⟩, hattends, hfirst, hmarks⟩ := hsetter.attends hw
  obtain ⟨rfl, rfl, rfl⟩ := hrest.of_ended_nil
  exact ⟨rfl, hattends.append (hattends.after.cons rfl rfl), by simp [hfirst],
    by simp [hmarks]; rfl⟩

/-- The error hook of a cell. -/
theorem handlesError
    (h : Unfolds (.attending c q) w ⟨.ready (.cell c (.errorCallback e)), []⟩ acts w' o)
    (hw : Attends c q w [] w) : ∃ callback, HandlesError (.attending c q) c e w acts callback o ∧
      Attends c q w acts w' ∧
      (attempts c acts).head? = (attempts c callback ++ [Resolution.error e]).head? ∧
      marks c q acts =
        ((w.cell c).onError.map fun id => .called ⟨id, .onError, some (.payload e)⟩).toList := by
  obtain ⟨before, callback, after, w₁, x, acts₂, rfl, hvisits, hattends, hattempts, hmarks,
    hrest⟩ := h.visits (j := (w.cell c).onError.map fun id => ⟨id, .onError, some (.payload e)⟩)
      (g := .settleError e) (f := .errorCallback e) hw rfl
      (by simp only [Point.step, CellPoint.step]; cases (w.cell c).onError <;> rfl)
      (fun w x hx => hx.next_contain ..) (fun _ _ => rfl)
      (fun l => by
        simp only [Point.step, CellPoint.step]
        cases (w.cell c).onError <;> simp [Act.mark?])
  obtain ⟨rest, rfl, hsetter⟩ := hrest.of_ready
  obtain ⟨rfl, hattends', hfirst, hmarks'⟩ := hsetter.answers hattends.after
  refine ⟨callback, ⟨⟨w₁, x, hvisits⟩, ⟨before, after ++ _ :: rest, by simp; rfl⟩, rfl⟩,
    hattends.append (hattends'.cons rfl rfl), ?_, ?_⟩
  · rw [attempts_append, hattempts, attempts_cons rfl, List.head?_append, List.head?_append, hfirst]
    rfl
  · rw [marks_append, hmarks, marks_cons rfl, hmarks', List.append_nil]
    cases (w.cell c).onError <;> rfl

/-- The timeout hook of a cell settles it. -/
private theorem settle {p : Payload}
    (h : Unfolds (.attending c q) w ⟨.ready (.cell c (.settle p)), []⟩ acts w' o)
    (hw : Attends c q w [] w) :
    o = .returned (.flag (Resolution.ofFallback? p).isNone) ∧ Attends c q w acts w' ∧
      (attempts c acts).head? = Resolution.ofFallback? p ∧ marks c q acts = [] := by
  cases hp : Resolution.ofFallback? p with
  | none =>
    obtain ⟨rfl, rfl, rfl⟩ := h.of_finish (x := .returned (.flag true))
      (by simp [Point.step, CellPoint.step, hp, Next.ret])
    exact ⟨rfl, hw.cons rfl rfl, rfl, rfl⟩
  | some r =>
    obtain ⟨rest, rfl, hrest⟩ := h.of_ready
    simp only [Point.step, CellPoint.step, hp] at hrest
    obtain ⟨rfl, hattends, hfirst, hmarks⟩ := hrest.answers hw
    exact ⟨rfl, hattends.cons rfl rfl, by rw [attempts_cons rfl, hfirst],
      (marks_cons rfl).trans hmarks⟩

/-- The timeout hook of a cell asks for the fallback and settles the cell with it. -/
private theorem fallback
    (h : Unfolds (.attending c q) w ⟨.ready (.cell c .fallback), []⟩ acts w' o)
    (hw : Attends c q w [] w) : ∃ before factory after w₁ y,
      acts = before ++ factory ++ after ∧
      Visits (.attending c q) (w.cell c).fallback.invocation? w factory w₁ y ∧
      o = .returned (.flag ((w.cell c).fallback.resolution? y).isNone) ∧
      Attends c q w acts w' ∧
      (attempts c acts).head? =
        (attempts c factory ++ ((w.cell c).fallback.resolution? y).toList).head? ∧
      marks c q acts = (w.cell c).fallback.invocation?.toList.map .called := by
  cases hfallback : (w.cell c).fallback with
  | fixed p =>
    obtain ⟨rest, rfl, hrest⟩ := h.of_goto (g := .cell c (.settle p))
      (by simp [Point.step, CellPoint.step, hfallback])
    obtain ⟨rfl, hattends, hfirst, hmarks⟩ := hrest.settle hw
    refine ⟨[_], [], rest, w, .returned .unit, rfl, ⟨rfl, rfl⟩, rfl, hattends.cons rfl rfl, ?_, ?_⟩
    · rw [attempts_cons rfl, hfirst]
      exact (head?_toList _).symm
    · exact (marks_cons rfl).trans hmarks
  | computed id =>
    obtain ⟨factory, w₁, y, rest, rfl, hinside, hrest⟩ :=
      h.of_invoke (f := .cell c .fallback) (i := ⟨id, .factory, none⟩)
        (by simp [Point.step, CellPoint.step, hfallback])
    obtain ⟨hattends, hmarks⟩ := Attends.tally.of_inside hinside ⟨hw, rfl⟩
    obtain ⟨answer, hmay, rfl⟩ := hinside.exists_answer
    have hend : o = .returned (.flag
          ((Fallback.computed id).resolution? (.ofUser answer)).isNone) ∧
        Attends c q w₁ rest w' ∧
        (attempts c rest).head? = (Fallback.computed id).resolution? (.ofUser answer) ∧
        marks c q rest = [] := by
      cases answer with
      | ok p => exact hrest.settle hattends.after
      | error f =>
        have hn : ((Frame.cell c .fallback).resume w₁ (.ofUser (.error f))).next =
            .ret (.flag true) := by
          simp [Frame.resume, CellFrame.resume, contain, Outcome.ofUser,
            show f.isOrdinary = true from hmay]
        rw [hn] at hrest
        obtain ⟨rfl, rfl, rfl⟩ := hrest.of_ended_nil
        exact ⟨rfl, hattends.after, rfl, rfl⟩
    obtain ⟨rfl, hattends', hfirst, hmarks'⟩ := hend
    refine ⟨[_], factory, _ :: rest, w₁, .ofUser answer, by simp; exact ⟨rfl, rfl⟩, hinside, rfl,
      (hattends.append (hattends'.cons rfl rfl)).cons rfl rfl, ?_, ?_⟩
    · rw [attempts_cons rfl, attempts_append, attempts_cons rfl, List.head?_append,
        List.head?_append, hfirst, head?_toList]
    · rw [marks_cons_some Act.mark?_fallback, marks_append, hmarks,
        marks_cons rfl, hmarks']
      rfl

/-- The timeout hook of a cell. -/
theorem handlesTimeout
    (h : Unfolds (.attending c q) w ⟨.ready (.cell c .timeoutCallback), []⟩ acts w' o)
    (hw : Attends c q w [] w) : ∃ callback factory fallback,
      HandlesTimeout (.attending c q) c w acts callback factory fallback o ∧
      Attends c q w acts w' ∧
      (attempts c acts).head? =
        (attempts c callback ++ attempts c factory ++ fallback.toList).head? ∧
      marks c q acts =
        ((w.cell c).onTimeout.map fun id => .called ⟨id, .onTimeout, none⟩).toList ++
          ((w.cell c).fallback.invocation?.map .called).toList := by
  obtain ⟨before, callback, after, w₁, x, acts₂, rfl, hvisits, hattends, hattempts, hmarks,
    hrest⟩ := h.visits (j := (w.cell c).onTimeout.map fun id => ⟨id, .onTimeout, none⟩)
      (g := .fallback) (f := .timeoutCallback) hw rfl
      (by simp only [Point.step, CellPoint.step]; cases (w.cell c).onTimeout <;> rfl)
      (fun w x hx => hx.next_contain ..) (fun _ _ => rfl)
      (fun l => by
        simp only [Point.step, CellPoint.step]
        cases (w.cell c).onTimeout <;> simp [Act.mark?])
  obtain ⟨before', factory, after', w₂, y, rfl, hvisits', rfl, hattends', hfirst, hmarks'⟩ :=
    hrest.fallback hattends.after
  rw [hattends.fallback] at hvisits' hfirst hmarks' ⊢
  refine ⟨callback, factory, _, ⟨⟨w₁, x, w₂, y, hvisits, hvisits', rfl⟩,
    ⟨before, after ++ before', after', by simp⟩, rfl⟩, hattends.append hattends', ?_, ?_⟩
  · rw [attempts_append, hattempts, List.head?_append, hfirst, ← List.head?_append,
      List.append_assoc]
  · rw [marks_append, hmarks, hmarks']
    cases (w.cell c).onTimeout <;> cases (w.cell c).fallback <;> rfl

end Activation.Unfolds

/-! ### Chains of interceptors -/

/-- Whether no more interceptors are told after an outcome. -/
def Outcome.stops : Outcome → Bool
  | .returned a => a.isFalse
  | .raised _ => true

/-- What an interceptor has done when it was told, and how that ended. -/
structure Telling where
  interceptor : Interceptor
  acts : List Act
  outcome : Outcome

/-- Whether the last of some interceptors that were told has stopped the others. -/
def stopped (l : List Telling) : Bool :=
  l.any (·.outcome.stops)

/-- How the interceptors of a request are told: one after the other, up to and including the first
whose reaction counts as "no" or fails. -/
inductive Tells (P : Conduct) (x : Occasion) :
    World → List Interceptor → List Act → List Telling → World → Prop
  | nil (w : World) : Tells P x w [] [] [] w
  | stop {w w' : World} {i : Interceptor} {rest : List Interceptor} {acts : List Act} {y : Outcome}
      (a b : Act) (h : Unfolds P w ⟨x.reaction i, []⟩ acts w' y) (hy : y.stops = true) :
    Tells P x w (i :: rest) (a :: (acts ++ [b])) [⟨i, acts, y⟩] w'
  | next {w w₁ w' : World} {i : Interceptor} {rest : List Interceptor} {acts acts' : List Act}
      {y : Outcome} {l : List Telling} (a b : Act) (h : Unfolds P w ⟨x.reaction i, []⟩ acts w₁ y)
      (hy : y.stops = false) (hrest : Tells P x w₁ rest acts' l w') :
    Tells P x w (i :: rest) (a :: (acts ++ b :: acts')) (⟨i, acts, y⟩ :: l) w'

/-- The first interceptor is always told. -/
theorem Tells.exists_cons {P : Conduct} {x : Occasion} {w w' : World} {i : Interceptor}
    {rest : List Interceptor} {acts : List Act} {l : List Telling}
    (h : Tells P x w (i :: rest) acts l w') : ∃ t y l' w₁, l = ⟨i, t, y⟩ :: l' ∧
      Unfolds P w ⟨x.reaction i, []⟩ t w₁ y ∧ (y.stops = true → l' = []) ∧
      (y.stops = false → ∃ acts', Tells P x w₁ rest acts' l' w') := by
  cases h with
  | stop a b h hy => exact ⟨_, _, [], w', rfl, h, fun _ => rfl, by simp [hy]⟩
  | next a b h hy hrest => exact ⟨_, _, _, _, rfl, h, by simp [hy], fun _ => ⟨_, hrest⟩⟩

/-- The interceptors that are told in a run, in order. -/
def told (c : CellId) (q : RequestId) (acts : List Act) : List Interceptor :=
  (marks c q acts).filterMap fun
    | .told i => some i
    | .called _ => none

@[simp] theorem told_append : told c q (acts₁ ++ acts₂) = told c q acts₁ ++ told c q acts₂ := by
  simp [told]

theorem told_cons {a : Act} (h : a.mark? c q = none) : told c q (a :: acts) = told c q acts := by
  rw [told, marks_cons h]
  rfl

theorem told_cons_some {a : Act} (h : a.mark? c q = some (.told i)) :
    told c q (a :: acts) = i :: told c q acts := by
  simp [told, marks_cons_some h]

theorem told_of_marks (h : marks c q acts = []) : told c q acts = [] := by
  simp [told, h]

namespace Activation.Unfolds

/-- An interceptor reacts to a timeout or a failure. -/
private theorem reacts {x : Occasion} (hx : x ≠ .completion)
    (h : Unfolds (.attending c q) w ⟨x.reaction i, []⟩ acts w' o) (hw : Attends c q w [] w)
    (hi : i ∈ (w.request q).interceptors) : Attends c q w acts w' ∧ told c q acts = [] := by
  have hother (h : Attends c q w acts w' ∧ marks c q acts = []) :
      Attends c q w acts w' ∧ told c q acts = [] := ⟨h.1, told_of_marks h.2⟩
  cases i with
  | custom i j k =>
    refine hother ?_
    cases x <;> exact Attends.tally.of_inside h ⟨hw, rfl⟩
  | hooks d =>
    by_cases hd : d = c
    · subst hd
      cases x with
      | timeout =>
        obtain ⟨callback, factory, fallback, -, hattends, -, hmarks⟩ := h.handlesTimeout hw
        refine ⟨hattends, ?_⟩
        rw [told, hmarks]
        cases (w.cell d).onTimeout <;> cases (w.cell d).fallback <;> rfl
      | failure e =>
        obtain ⟨callback, -, hattends, -, hmarks⟩ := h.handlesError hw
        refine ⟨hattends, ?_⟩
        rw [told, hmarks]
        cases (w.cell d).onError <;> rfl
      | completion => exact absurd rfl hx
    · obtain ⟨S, hc, hS, hhooks⟩ := hw.hosts.away
      have hin : IsIn S w ⟨x.reaction (.hooks d), []⟩ := by
        refine ⟨fun p hp => ?_, fun _ hf => (nomatch hf)⟩
        cases x <;> exact Control.ready.inj hp ▸ hhooks d hi hd
      exact hother (Attends.tally.of_unfolds h ⟨hw, rfl⟩ hin hc hS)

/-- The step in which an interceptor is told. -/
private theorem point_cons {x : Occasion} (hx : x ≠ .completion) (q : RequestId) (i : Interceptor)
    (rest : List Interceptor) (n : Next) (c : CellId) :
    Act.attempt? c ⟨.step (x.point q (i :: rest)) n, []⟩ = none ∧
      Act.dispatch? q ⟨.step (x.point q (i :: rest)) n, []⟩ = none ∧
      Act.mark? c q ⟨.step (x.point q (i :: rest)) n, []⟩ = some (.told i) := by
  cases x with
  | completion => exact absurd rfl hx
  | _ => exact ⟨rfl, rfl, if_pos rfl⟩

/-- A reaction decides whether the next interceptor is told. -/
private theorem next_frame {x : Occasion} (hx : x ≠ .completion) (ho : o.IsContainable)
    (w : World) : ((x.frame q rest).resume w o).next =
      .goto (if o.stops then .request q .completeUndelivered else x.point q rest) := by
  cases o with
  | returned a =>
    cases x with
    | completion => exact absurd rfl hx
    | _ => cases ha : a.isFalse <;>
        simp [Occasion.frame, Occasion.point, Frame.resume, RequestFrame.resume, contain,
          Outcome.stops, ha]
  | raised f =>
    cases x with
    | completion => exact absurd rfl hx
    | _ => simp [Occasion.frame, Frame.resume, RequestFrame.resume, contain, Outcome.stops,
        show f.isOrdinary = true from ho]

/-- The interceptors of a request are told about a timeout or a failure. -/
private theorem tells {x : Occasion} (hx : x ≠ .completion) {rest : List Interceptor}
    (h : Unfolds (.attending c q) w ⟨.ready (x.point q rest), []⟩ acts w' o)
    (hw : Attends c q w [] w) (hrest : ∀ i ∈ rest, i ∈ (w.request q).interceptors) :
    ∃ acts₁ l w₁ acts₂, acts = acts₁ ++ acts₂ ∧ Tells (.attending c q) x w rest acts₁ l w₁ ∧
      Attends c q w acts₁ w₁ ∧ attempts c acts₁ = l.flatMap (fun t => attempts c t.acts) ∧
      marks c q acts₁ = l.flatMap (fun t => .told t.interceptor :: marks c q t.acts) ∧
      told c q acts₁ = l.map (·.interceptor) ∧
      Unfolds (.attending c q) w₁
        ⟨.ready (if stopped l then .request q .completeUndelivered else x.point q []), []⟩
        acts₂ w' o := by
  induction rest generalizing w acts with
  | nil => exact ⟨[], [], w, acts, rfl, .nil w, hw, rfl, rfl, rfl, h⟩
  | cons i rest ih =>
    obtain ⟨n, acts₁, w₁, y, acts₂, rfl, hreaction, hafter⟩ := h.of_hooks x
    obtain ⟨hattends, htold⟩ := hreaction.reacts hx hw (hrest i List.mem_cons_self)
    have hy := hreaction.isContainable (x.reaction_ne_ended i)
    rw [next_frame hx hy] at hafter
    obtain ⟨ha, hd, hm⟩ := point_cons hx q i rest n c
    generalize hb : (⟨.resume (x.frame q rest) y _, _⟩ : Act) = b
    have hquiet : b.IsQuiet c q := by
      subst hb
      exact ⟨rfl, rfl, rfl⟩
    -- What the acts around a reaction add to those that follow.
    have hmore {tail : List Act} {w₂ : World} (htail : Attends c q w₁ tail w₂) :
        Attends c q w (⟨.step (x.point q (i :: rest)) n, []⟩ :: (acts₁ ++ b :: tail)) w₂ ∧
        attempts c (⟨.step (x.point q (i :: rest)) n, []⟩ :: (acts₁ ++ b :: tail)) =
          attempts c acts₁ ++ attempts c tail ∧
        marks c q (⟨.step (x.point q (i :: rest)) n, []⟩ :: (acts₁ ++ b :: tail)) =
          .told i :: (marks c q acts₁ ++ marks c q tail) ∧
        told c q (⟨.step (x.point q (i :: rest)) n, []⟩ :: (acts₁ ++ b :: tail)) =
          i :: told c q tail := by
      refine ⟨(hattends.append (htail.cons hquiet.attempt hquiet.dispatch)).cons ha hd, ?_, ?_, ?_⟩
      · rw [attempts_cons ha, attempts_append, attempts_cons hquiet.attempt]
      · rw [marks_cons_some hm, marks_append, marks_cons hquiet.mark]
      · rw [told_cons_some hm, told_append, htold, told, marks_cons hquiet.mark]
        rfl
    cases hstops : y.stops with
    | true =>
      rw [hstops] at hafter
      obtain ⟨hattends', hattempts', hmarks', htold'⟩ := hmore hattends.after
      exact ⟨_, [⟨i, acts₁, y⟩], w₁, acts₂, by simp, .stop _ _ hreaction hstops, hattends',
        by simpa using hattempts', by simpa using hmarks', htold',
        by simpa [stopped, hstops, follow] using hafter⟩
    | false =>
      rw [hstops] at hafter
      obtain ⟨acts₃, l, w₂, acts₄, rfl, htells, hattends', hattempts, hmarks, htold', hlast⟩ :=
        ih hafter hattends.after
          (fun j hj => hattends.evolves.interceptors hw.hosts ▸ hrest j (List.mem_cons_of_mem i hj))
      obtain ⟨hattends', hattempts', hmarks', htold''⟩ := hmore hattends'
      exact ⟨_, ⟨i, acts₁, y⟩ :: l, w₂, acts₄, by simp, .next _ _ hreaction hstops htells,
        hattends', by simp [hattempts', hattempts], by simp [hmarks', hmarks],
        by simp [htold'', htold'], by simpa [stopped, hstops] using hlast⟩

/-! ### What becomes of the request -/

/-- The cell of a request is resolved with an error if it has no result. -/
private theorem resolvesWith {p : RequestPoint}
    (h : Unfolds (.attending c q) w ⟨.ready (.request q p), []⟩ acts w' o)
    (hw : Attends c q w [] w) (hworld : ((Point.request q p).step w).world = w)
    (hn : ((Point.request q p).step w).next = if (w.cell c).hasResult
      then .goto (.request q .completeUndelivered)
      else .call (.request q .settled) (.cell c (.checkResult (.error e))))
    (hquiet : ∀ n l, Act.IsQuiet c q ⟨.step (.request q p) n, l⟩) : ∃ acts₁ w₁ acts₂,
      acts = acts₁ ++ acts₂ ∧ Attends c q w acts₁ w₁ ∧ marks c q acts₁ = [] ∧
      ((w.cell c).hasResult = false → (attempts c acts₁).head? = some (.error e)) ∧
      Unfolds (.attending c q) w₁ ⟨.ready (.request q .completeUndelivered), []⟩ acts₂ w' o := by
  cases hresult : (w.cell c).hasResult with
  | true =>
    rw [hresult, if_pos rfl] at hn
    obtain ⟨rest, rfl, hrest⟩ := h.of_goto hn
    rw [hworld] at hrest
    have hx := hquiet (.goto (.request q .completeUndelivered)) ((Point.request q p).step w).notices
    exact ⟨[_], w, rest, rfl, hw.cons hx.attempt hx.dispatch, marks_cons hx.mark, nofun, hrest⟩
  | false =>
    rw [hresult, if_neg Bool.false_ne_true] at hn
    obtain ⟨acts₁, w₁, y, rest, rfl, hsetter, hrest⟩ := h.of_call hn
    rw [hworld] at hsetter
    obtain ⟨⟨b, rfl⟩, hattends, hfirst, hmarks⟩ := hsetter.attends hw
    have hx := hquiet (.call (.request q .settled) (.cell c (.checkResult (.error e))))
      ((Point.request q p).step w).notices
    generalize ha : (⟨.resume (.request q .settled) _ _, _⟩ : Act) = a
    have hquiet : a.IsQuiet c q := by
      subst ha
      exact ⟨rfl, rfl, rfl⟩
    have hafter := hattends.after.cons hquiet.attempt hquiet.dispatch
    refine ⟨_ :: (acts₁ ++ [a]), w₁, rest, by simp,
      (hattends.append hafter).cons hx.attempt hx.dispatch, ?_, fun _ => ?_, hrest⟩
    · rw [marks_cons hx.mark, marks_append, hmarks, marks_cons hquiet.mark]
      rfl
    · rw [attempts_cons hx.attempt, attempts_append, List.head?_append, hfirst]
      rfl

/-- Where no interceptor has stopped the others, the cell is resolved with an error. -/
private theorem defaults {x : Occasion} (he : x.error? (w.request q) = some e)
    (h : Unfolds (.attending c q) w ⟨.ready (x.point q []), []⟩ acts w' o)
    (hw : Attends c q w [] w) : ∃ acts₁ w₁ acts₂, acts = acts₁ ++ acts₂ ∧
      Attends c q w acts₁ w₁ ∧ marks c q acts₁ = [] ∧
      ((w.cell c).hasResult = false → (attempts c acts₁).head? = some (.error e)) ∧
      Unfolds (.attending c q) w₁ ⟨.ready (.request q .completeUndelivered), []⟩ acts₂ w' o := by
  obtain rfl := hw.hosts.cell
  cases x with
  | completion => cases he
  | timeout =>
    cases he
    obtain ⟨rest, rfl, hrest⟩ := h.of_goto rfl
    obtain ⟨acts₁, w₁, acts₂, rfl, hattends, hmarks, hfirst, hlast⟩ := resolvesWith (w := w)
      (e := Payload.ofFailure (.requestTimeout (w.request q).timeoutMs)) hrest hw rfl rfl
      (fun _ _ => ⟨rfl, rfl, rfl⟩)
    exact ⟨_ :: acts₁, w₁, acts₂, rfl, hattends.cons rfl rfl, hmarks, hfirst, hlast⟩
  | failure e =>
    cases he
    obtain ⟨rest, rfl, hrest⟩ := h.of_goto rfl
    obtain ⟨acts₁, w₁, acts₂, rfl, hattends, hmarks, hfirst, hlast⟩ := resolvesWith (w := w)
      (e := e) hrest hw rfl rfl (fun _ _ => ⟨rfl, rfl, rfl⟩)
    exact ⟨_ :: acts₁, w₁, acts₂, rfl, hattends.cons rfl rfl, hmarks, hfirst, hlast⟩

/-- What becomes of a request after its interceptors have been told. -/
private theorem completesUndelivered (hw : w.Awaits c q) (h : Attends c q w acts₁ w₁)
    (hlast : Unfolds (.attending c q) w₁ ⟨.ready (.request q .completeUndelivered), []⟩
      acts₂ w' o) :
    o = .returned .unit ∧ w.Settles c q (attempts c acts₁).head? w' ∧
      dispatched q (acts₁ ++ acts₂) = (attempts c acts₁).head?.toList ∧ marks c q acts₂ = [] := by
  cases h with
  | settled _ hresult =>
    rw [hw.hasResult] at hresult
    cases hresult
  | idle _ keeps hattempts hdispatched =>
    have hw₁ := keeps.awaits hw
    obtain ⟨rest, rfl, hcomplete⟩ := hlast.of_goto (g := .request q .complete)
      (by simp [Point.step, RequestPoint.step, hw₁.cell, hw₁.hasResult])
    obtain ⟨rfl, hcloses, hsilent⟩ := hcomplete.closes hw₁.toHosts hw₁.completed
    rw [hattempts]
    refine ⟨rfl, keeps.settles (hcloses.settles hw₁), ?_, hsilent.marks⟩
    rw [dispatched_append, hdispatched, dispatched_cons rfl, hsilent.dispatched]
    rfl
  | settles _ hsettles hattempts hdispatched =>
    have hw₁ := hw.toHosts.evolve hsettles.toEvolves
    obtain ⟨rfl, rfl, rfl⟩ := hlast.of_finish (x := .returned .unit)
      (by simp [Point.step, RequestPoint.step, hw₁.cell, hsettles.hasResult]; rfl)
    rw [hattempts]
    refine ⟨rfl, hsettles, ?_, rfl⟩
    rw [dispatched_append, hdispatched]
    rfl

end Activation.Unfolds

/-- The first resolution that is attempted while interceptors are told, else the error that is left
if none of them has stopped the others. -/
def settlement (c : CellId) (e : Payload) (l : List Telling) : Option Resolution :=
  (l.flatMap (fun t : Telling => attempts c t.acts) ++
    if stopped l then [] else [Resolution.error e]).head?

/-- What becomes of a request when its interceptors are told about something: they are told in
order, and the request is settled with the first attempt and completed. -/
structure Concludes (x : Occasion) (c : CellId) (q : RequestId) (e : Payload) (w : World)
    (acts : List Act) (l : List Telling) (w' : World) (o : Outcome) : Prop where
  tells : ∃ before acts₁ after w₁, acts = before ++ acts₁ ++ after ∧
    Tells (.attending c q) x w (w.request q).interceptors acts₁ l w₁
  told : told c q acts = l.map (·.interceptor)
  settles : w.Settles c q (settlement c e l) w'
  dispatched : dispatched q acts = (settlement c e l).toList
  outcome : o = .returned .unit

/-- What happens before the interceptors are told makes no difference. -/
theorem Concludes.cons {x : Occasion} {l : List Telling} {a : Act} (hd : a.dispatch? q = none)
    (hm : a.mark? c q = none) (h : Concludes x c q e w acts l w' o) :
    Concludes x c q e w (a :: acts) l w' o := by
  obtain ⟨before, acts₁, after, w₁, rfl, htells⟩ := h.tells
  exact ⟨⟨a :: before, acts₁, after, w₁, rfl, htells⟩, (told_cons hm).trans h.told, h.settles,
    (dispatched_cons hd).trans h.dispatched, h.outcome⟩

namespace Activation.Unfolds

/-- What becomes of a request that waits when its interceptors are told about a timeout or a
failure. -/
theorem concludes {x : Occasion}
    (h : Unfolds (.attending c q) w ⟨.ready (x.point q (w.request q).interceptors), []⟩ acts w' o)
    (hw : w.Awaits c q) (he : x.error? (w.request q) = some e) :
    ∃ l, Concludes x c q e w acts l w' o ∧
      marks c q acts = l.flatMap fun t => .told t.interceptor :: marks c q t.acts := by
  have hx : x ≠ .completion := by
    rintro rfl
    cases he
  obtain ⟨acts₁, l, w₁, acts₂, rfl, htells, hattends, hattempts, hmarks, htold, hlast⟩ :=
    h.tells hx (.refl hw.toHosts (.inr hw)) fun _ hi => hi
  -- The end, whether the cell is resolved with the error on the way there or not.
  have hend {acts₃ acts₄ : List Act} {w₂ : World} (hafter : Attends c q w₁ acts₃ w₂)
      (hsilent : marks c q acts₃ = [])
      (hfirst : (attempts c (acts₁ ++ acts₃)).head? = settlement c e l)
      (hlast : Unfolds (.attending c q) w₂ ⟨.ready (.request q .completeUndelivered), []⟩
        acts₄ w' o) :
      Concludes x c q e w (acts₁ ++ (acts₃ ++ acts₄)) l w' o ∧
        marks c q (acts₁ ++ (acts₃ ++ acts₄)) =
          l.flatMap fun t => .told t.interceptor :: marks c q t.acts := by
    obtain ⟨rfl, hsettles, hdispatched, hsilent'⟩ :=
      hlast.completesUndelivered hw (hattends.append hafter)
    rw [hfirst] at hsettles hdispatched
    refine ⟨⟨⟨[], acts₁, acts₃ ++ acts₄, w₁, rfl, htells⟩, ?_, hsettles, ?_, rfl⟩, ?_⟩
    · rw [told_append, htold, told_append, told_of_marks hsilent, told_of_marks hsilent']
      simp
    · rw [← List.append_assoc, hdispatched]
    · rw [marks_append, hmarks, marks_append, hsilent, hsilent']
      simp
  refine ⟨l, ?_⟩
  cases hstopped : stopped l with
  | true =>
    rw [hstopped, if_pos rfl] at hlast
    exact hend hattends.after rfl (by simp [settlement, hstopped, hattempts]) hlast
  | false =>
    rw [hstopped, if_neg Bool.false_ne_true] at hlast
    have hfixed := (hattends.evolves.grows.request q hw.made).fixed
    have he₁ : x.error? (w₁.request q) = some e := by
      cases x <;> simp_all [Occasion.error?, Request.timeoutMs_eq_of_fixed hfixed]
    obtain ⟨acts₃, w₂, acts₄, rfl, hafter, hsilent, hfirst, hlast⟩ :=
      hlast.defaults he₁ hattends.after
    refine hend hafter hsilent ?_ hlast
    rw [attempts_append, settlement, hstopped, ← hattempts, List.head?_append, List.head?_append]
    cases hattends with
    | settled _ hresult =>
      rw [hw.hasResult] at hresult
      cases hresult
    | idle _ keeps hattempts =>
      rw [hattempts, hfirst (by rw [Cell.hasResult, keeps.result]; exact hw.hasResult)]
      rfl
    | settles _ _ hattempts =>
      rw [hattempts]
      rfl

end Activation.Unfolds

end Rendezvous
