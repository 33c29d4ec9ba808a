import Rendezvous.Proofs.Settlement.Interceptors

/-!
# The timeout hook of a cell

The timeout hook of a cell calls the timeout callback, computes the fallback, and calls a setter
with it, unless there is none. The callback and the computation may call whatever they like, the
setters and the hooks of this cell among it, and may fail. The hook answers all the same, and what
it answers agrees with the state in which it leaves the cell.

## Main definitions

* `Cell.timeoutInvocation?`: the call of the timeout callback.
* `RunsTimeoutHook`: the user code that the timeout hook of a cell calls, and what it comes to.

## Main results

* `Call.handleTimeout_settles`: what the timeout hook calls, answers and leaves behind.
-/

namespace Rendezvous

open Activation

/-- The call of the timeout callback of a cell. -/
def Cell.timeoutInvocation? (x : Cell) : Option Invocation :=
  x.onTimeout.map fun id => ⟨id, .onTimeout, none⟩

/-- The user code that the timeout hook of a cell calls: the callback first, then the computation of
the fallback, and neither of them again. The fallback is there in the world `w₂`. -/
structure RunsTimeoutHook (P : Conduct) (c : CellId) (w : World) (acts callback factory : List Act)
    (w₂ : World) (fallback : Option Resolution) : Prop where
  visits : ∃ w₁ x y, Visits P (w.cell c).timeoutInvocation? w callback w₁ x ∧
    Visits P (w.cell c).fallback.invocation? w₁ factory w₂ y ∧
    fallback = (w.cell c).fallback.resolution? y
  segments : ∃ before between after, acts = before ++ callback ++ between ++ factory ++ after
  invocations : ∃ rest, invocations acts = (w.cell c).timeoutInvocation?.toList ++
    (w.cell c).fallback.invocation?.toList ++ rest ∧
    ∀ i ∈ rest, i.role ≠ .onTimeout ∧ i.role ≠ .factory

variable {P : Conduct} {w w₁ w' : World} {c : CellId} {acts : List Act} {o x : Outcome}
  {a : Answer} {r : Resolution}

/-- A fallback comes to an error if and only if it is a failure. -/
theorem Resolution.isError_of_ofFallback? {p : Payload} (h : Resolution.ofFallback? p = some r) :
    r.payload = p ∧ (r.isError = true ↔ p.failure?.isSome) := by
  unfold ofFallback? at h
  split at h <;> cases h
  · exact ⟨rfl, by simp [isError, Payload.failure?]⟩
  · rename_i hfailure
    refine ⟨rfl, ?_⟩
    unfold Payload.failure?
    split
    · exact absurd rfl (hfailure _)
    · simp [isError]

theorem Fallback.isError_of_resolution? {x : Fallback} (h : x.resolution? o = some r) :
    r.isError = true ↔ r.payload.failure?.isSome := by
  have hfallback {p : Payload} (h : Resolution.ofFallback? p = some r) :
      r.isError = true ↔ r.payload.failure?.isSome := by
    obtain ⟨rfl, hr⟩ := Resolution.isError_of_ofFallback? h
    exact hr
  unfold resolution? at h
  split at h
  · exact hfallback h
  · split at h
    · exact hfallback h
    · cases h

/-- Code no higher than a setter calls no timeout callback and computes no fallback. -/
theorem Point.Way.role_of_lt {p : Point} {f : Frame} {i : Invocation}
    (h : Point.Way w p (.invoke f i)) (hp : p.height < toLex (15, 0)) :
    i.role ≠ .onTimeout ∧ i.role ≠ .factory := by
  cases h <;> simp [Point.height, CellPoint.level, Prod.Lex.toLex_lt_toLex] at hp ⊢

/-- What user code gets a cell to take shows in its result. -/
theorem Visits.cell_result {i : Option Invocation} (h : Visits P i w acts w' x) :
    (w'.cell c).result = (w.cell c).result.or (acceptances c acts).head? := by
  cases i with
  | none =>
    obtain ⟨rfl, rfl⟩ := h
    exact Option.or_none.symm
  | some i => exact Unfolds.cell_result h c

theorem Visits.cell_fallback {i : Option Invocation} (h : Visits P i w acts w' x) :
    (w'.cell c).fallback = (w.cell c).fallback := by
  cases i with
  | none => rw [h.2]
  | some i => exact Unfolds.cell_fallback h c

namespace Activation.Unfolds

/-! ### Setters -/

/-- A setter of a cell that is set or expired does nothing. -/
theorem of_setter_of_isSetOrExpired
    (h : Unfolds P w ⟨.ready (.cell c (.checkResult r)), []⟩ acts w' o)
    (hc : (w.cell c).isSetOrExpired = true) : w' = w ∧ o = .returned (.flag false) := by
  by_cases hresult : (w.cell c).hasResult = true
  · exact (h.of_hasResult hresult).2
  · have hexpired : (w.cell c).expired = true := by
      simp_all [Cell.isSetOrExpired, Cell.hasResult]
    obtain ⟨rest, -, hrest⟩ := h.of_goto (g := .cell c (.checkExpired r))
      (by simp [Point.step, CellPoint.step, hresult])
    exact (hrest.of_finish (by simp [Point.step, CellPoint.step, hexpired, Next.ret])).2

/-- A setter of a cell that is neither set nor expired has it take the resolution. -/
theorem of_setter_of_open (h : Unfolds P w ⟨.ready (.cell c (.checkResult r)), []⟩ acts w' o)
    (hc : (w.cell c).isSetOrExpired = false) :
    ∃ rest, Unfolds P (w.setCell c ((w.cell c).assign r).1) (follow [] <|
      match (w.cell c).handler with
      | none => .ret (.flag true)
      | some hd => .goto (.cell c (.deliver hd r (.flag true)))) rest w' o := by
  obtain ⟨hresult, hexpired⟩ := Cell.isSetOrExpired_eq_false_iff.mp hc
  obtain ⟨rest, -, hrest⟩ := h.of_goto (g := .cell c (.checkExpired r))
    (by simp [Point.step, CellPoint.step, hresult])
  obtain ⟨rest, -, hrest⟩ := hrest.of_goto (g := .cell c (.assign r))
    (by simp [Point.step, CellPoint.step, hexpired])
  obtain ⟨rest, -, hrest⟩ := hrest.of_ready
  have hassign : ((w.cell c).assign r).2 = .accepted (w.cell c).handler :=
    Cell.assign_snd_eq_accepted.mpr ⟨hc, rfl⟩
  refine ⟨rest, ?_⟩
  cases hhandler : (w.cell c).handler <;>
    simpa [Point.step, CellPoint.step, hassign, hhandler] using hrest

/-- A setter leaves its cell set or expired, with the resolution if it was neither. -/
theorem cell_of_setter (h : Unfolds P w ⟨.ready (.cell c (.checkResult r)), []⟩ acts w' o) :
    (w'.cell c).isSetOrExpired = true ∧
      (w'.cell c).result = if (w.cell c).isSetOrExpired then (w.cell c).result else some r := by
  cases hc : (w.cell c).isSetOrExpired with
  | true =>
    obtain ⟨rfl, -⟩ := h.of_setter_of_isSetOrExpired hc
    exact ⟨hc, rfl⟩
  | false =>
    obtain ⟨rest, hrest⟩ := h.of_setter_of_open hc
    have hresult : (w'.cell c).result = some r :=
      hrest.grows.result c r (by simp [Cell.assign_fst_result, hc])
    exact ⟨by simp [Cell.isSetOrExpired, hresult], hresult⟩

/-- A handler that is called does not change what its caller answers. -/
theorem outcome_of_deliver (hP : P.IsContained) {hd : Handler}
    (h : Unfolds P w ⟨.ready (.cell c (.deliver hd r a)), []⟩ acts w' o) : o = .returned a := by
  have hframe {acts : List Act} {w₁ : World} {x : Outcome} (hx : x.IsContainable)
      (hrest : Unfolds P w₁ (follow [] ((Frame.cell c (.delivered a)).resume w₁ x).next)
        acts w' o) : o = .returned a := by
    simp only [Frame.resume, CellFrame.resume, hx.next_contain] at hrest
    exact hrest.of_ended_nil.2.2
  cases hd with
  | callback id =>
    obtain ⟨_, _, x, _, -, hinside, hrest⟩ := h.of_invoke rfl
    exact hframe (hinside.isContainable_of_isContained hP (by simp)) hrest
  | request q =>
    obtain ⟨_, _, x, _, -, hrecord, hrest⟩ := h.of_call rfl
    exact hframe (hrecord.isContainable_of_isContained hP (by simp)) hrest

/-- A setter answers whether its cell took the resolution. -/
theorem outcome_of_setter (hP : P.IsContained)
    (h : Unfolds P w ⟨.ready (.cell c (.checkResult r)), []⟩ acts w' o) :
    o = .returned (.flag !(w.cell c).isSetOrExpired) := by
  cases hc : (w.cell c).isSetOrExpired with
  | true => exact (h.of_setter_of_isSetOrExpired hc).2
  | false =>
    obtain ⟨rest, hrest⟩ := h.of_setter_of_open hc
    cases hhandler : (w.cell c).handler with
    | none =>
      rw [hhandler] at hrest
      exact hrest.of_ended_nil.2.2
    | some hd =>
      rw [hhandler] at hrest
      exact hrest.outcome_of_deliver hP

/-! ### The hook -/

/-- The hook calls the timeout callback, if there is any, and goes on. -/
private theorem of_timeoutCallback (hP : P.IsContained)
    (h : Unfolds P w ⟨.ready (.cell c .timeoutCallback), []⟩ acts w' o) :
    ∃ before callback after rest w₁ x, acts = before ++ callback ++ after ++ rest ∧
      Visits P (w.cell c).timeoutInvocation? w callback w₁ x ∧
      invocations acts = (w.cell c).timeoutInvocation?.toList ++ invocations rest ∧
      Unfolds P w₁ ⟨.ready (.cell c .fallback), []⟩ rest w' o := by
  cases hcallback : (w.cell c).onTimeout with
  | none =>
    obtain ⟨rest, rfl, hrest⟩ := h.of_goto (g := .cell c .fallback)
      (by simp [Point.step, CellPoint.step, hcallback])
    rw [Cell.timeoutInvocation?, hcallback]
    exact ⟨[_], [], [], rest, w, o, rfl, ⟨rfl, rfl⟩, invocations_step, hrest⟩
  | some id =>
    obtain ⟨callback, w₁, x, rest, rfl, hinside, hrest⟩ := h.of_invoke
      (f := .cell c .timeoutCallback) (i := ⟨id, .onTimeout, none⟩)
      (by simp [Point.step, CellPoint.step, hcallback])
    have hx := hinside.isContainable_of_isContained hP (by simp)
    have hgo : ((Frame.cell c .timeoutCallback).resume w₁ x).next = .goto (.cell c .fallback) :=
      hx.next_contain ..
    rw [hgo] at hrest
    rw [Cell.timeoutInvocation?, hcallback]
    refine ⟨[_], callback, [_], rest, w₁, x, by simp; exact ⟨rfl, rfl⟩, hinside, ?_, hrest⟩
    rw [invocations_step, hinside.invocations_append, hinside.invocations_inside,
      invocations_resume, hgo]
    rfl

/-- The hook computes the fallback, and calls a setter with it if there is one. -/
private theorem of_fallback (hP : P.IsContained)
    (h : Unfolds P w ⟨.ready (.cell c .fallback), []⟩ acts w' o) :
    ∃ before factory after rest w₂ y, acts = before ++ factory ++ after ++ rest ∧
      Visits P (w.cell c).fallback.invocation? w factory w₂ y ∧
      invocations acts = (w.cell c).fallback.invocation?.toList ++ invocations rest ∧
      match (w.cell c).fallback.resolution? y with
      | none => rest = [] ∧ w' = w₂ ∧ o = .returned (.flag true)
      | some r =>
        Unfolds P w₂ ⟨.ready (.cell c (.checkResult r)), [.answer (.flag false)]⟩ rest w' o := by
  -- The end of the hook, from the point at which the fallback is there.
  have hsettle {w₂ : World} {p : Payload} {acts : List Act}
      (h : Unfolds P w₂ ⟨.ready (.cell c (.settle p)), []⟩ acts w' o) :
      ∃ b rest, acts = b :: rest ∧ invocations acts = invocations rest ∧
        match Resolution.ofFallback? p with
        | none => rest = [] ∧ w' = w₂ ∧ o = .returned (.flag true)
        | some r =>
          Unfolds P w₂ ⟨.ready (.cell c (.checkResult r)), [.answer (.flag false)]⟩ rest w' o := by
    obtain ⟨rest, rfl, hrest⟩ := h.of_ready
    cases hp : Resolution.ofFallback? p with
    | none =>
      simp only [Point.step, CellPoint.step, hp] at hrest ⊢
      exact ⟨_, rest, rfl, invocations_step, hrest.of_ended_nil⟩
    | some r =>
      simp only [Point.step, CellPoint.step, hp] at hrest ⊢
      exact ⟨_, rest, rfl, invocations_step, hrest⟩
  cases hfallback : (w.cell c).fallback with
  | fixed p =>
    obtain ⟨rest, rfl, hrest⟩ := h.of_goto (g := .cell c (.settle p))
      (by simp [Point.step, CellPoint.step, hfallback])
    obtain ⟨b, rest, rfl, hinvocations, hend⟩ := hsettle hrest
    exact ⟨[_], [], [b], rest, w, o, rfl, ⟨rfl, rfl⟩, invocations_step.trans hinvocations, hend⟩
  | computed id =>
    obtain ⟨factory, w₂, y, rest, rfl, hinside, hrest⟩ :=
      h.of_invoke (f := .cell c .fallback) (i := ⟨id, .factory, none⟩)
        (by simp [Point.step, CellPoint.step, hfallback])
    obtain ⟨answer, hmay, rfl⟩ := hinside.exists_answer
    have hhead {n : Next} {l : List Notice} (hn : Act.invocation? ⟨.resume (.cell c .fallback)
          (.ofUser answer) n, l⟩ = none) (tail : List Act) :
        invocations (⟨.step (.cell c .fallback) (.invoke (.cell c .fallback) ⟨id, .factory, none⟩),
          ((Point.cell c .fallback).step w).notices⟩ ::
          (factory ++ ⟨.resume (.cell c .fallback) (.ofUser answer) n, l⟩ :: tail)) =
          [⟨id, .factory, none⟩] ++ invocations tail := by
      rw [invocations_step, hinside.invocations_append, hinside.invocations_inside,
        invocations_resume, hn]
      rfl
    cases answer with
    | ok p =>
      obtain ⟨b, rest, rfl, hinvocations, hend⟩ := hsettle hrest
      refine ⟨[_], factory, [_, b], rest, w₂, .ofUser (.ok p), by simp; exact ⟨rfl, rfl⟩, hinside,
        ?_, hend⟩
      rw [hhead rfl, hinvocations]
      rfl
    | error f =>
      have hn : ((Frame.cell c .fallback).resume w₂ (.ofUser (.error f))).next =
          .ret (.flag true) := by
        simp [Frame.resume, CellFrame.resume, contain, Outcome.ofUser,
          show f.isOrdinary = true from hP _ _ _ hmay]
      rw [hn] at hrest ⊢
      refine ⟨[_], factory, [_], rest, w₂, .ofUser (.error f), by simp; exact ⟨rfl, rfl⟩, hinside,
        hhead rfl rest, hrest.of_ended_nil⟩

/-- A setter is called, and the hook answers. -/
private theorem of_answered_setter (hP : P.IsContained)
    (h : Unfolds P w ⟨.ready (.cell c (.checkResult r)), [.answer a]⟩ acts w' o) :
    o = .returned a ∧ (w'.cell c).isSetOrExpired = true ∧
      (w'.cell c).result = (if (w.cell c).isSetOrExpired then (w.cell c).result else some r) ∧
      ∀ i ∈ invocations acts, i.role ≠ .onTimeout ∧ i.role ≠ .factory := by
  obtain ⟨inner, w₁, x, rest, rfl, hsetter, hrest⟩ := h.split_frame
  obtain rfl := hsetter.outcome_of_setter hP
  obtain ⟨rfl, rfl, rfl⟩ := hrest.of_ended_nil
  obtain ⟨hset, hresult⟩ := hsetter.cell_of_setter
  refine ⟨rfl, hset, hresult, fun i hi => ?_⟩
  rw [hsetter.invocations_append, invocations_resume, List.mem_append] at hi
  rcases hi with hi | hi
  · obtain ⟨v, p, f, hp, hway⟩ := hsetter.exists_way_of_mem_invocations (k := toLex (15, 0))
      (.of_ready (by simp [Point.height, CellPoint.level, Prod.Lex.toLex_lt_toLex]) (by simp)) hi
    exact hway.role_of_lt hp
  · simp [Act.invocation?, Frame.resume, Next.ret] at hi

end Activation.Unfolds

/-- What the timeout hook of a cell calls, answers and leaves behind, whatever the state of the cell
and whatever user code calls and raises that is ordinary. The result is the one that was there, or
else the first one that the cell took from the callback or the computation, or else the fallback
unless the cell has expired. -/
theorem Call.handleTimeout_settles (w : World) (c : CellId) :
    (∃ acts w' o, (Call.handleTimeout c).activation.Unfolds .contained w acts w' o) ∧
    ∀ acts w' o, (Call.handleTimeout c).activation.Unfolds .contained w acts w' o →
      ∃ callback factory w₂ fallback,
        RunsTimeoutHook .contained c w acts callback factory w₂ fallback ∧
        o = .returned (.flag fallback.isNone) ∧
        (fallback ≠ none → (w'.cell c).isSetOrExpired = true) ∧
        (∀ r, fallback = some r → (r.isError = true ↔ r.payload.failure?.isSome)) ∧
        (w'.cell c).result = ((w.cell c).result.or
          (acceptances c (callback ++ factory)).head?).or
          (if (w₂.cell c).expired then none else fallback) := by
  refine ⟨Call.exists_unfolds Conduct.isResponsive_contained (by simp) w, fun acts w' o h => ?_⟩
  obtain ⟨before, callback, after, rest, w₁, x, rfl, hcallback, hinvocations, hrest⟩ :=
    Unfolds.of_timeoutCallback Conduct.isContained_contained h
  obtain ⟨before', factory, after', rest, w₂, y, rfl, hfactory, hinvocations', hend⟩ :=
    hrest.of_fallback Conduct.isContained_contained
  have hfallback : (w₁.cell c).fallback = (w.cell c).fallback := hcallback.cell_fallback
  rw [hfallback] at hfactory hinvocations' hend
  have hresult : (w₂.cell c).result =
      (w.cell c).result.or (acceptances c (callback ++ factory)).head? := by
    rw [hfactory.cell_result, hcallback.cell_result, acceptances_append, List.head?_append,
      Option.or_assoc]
  have hruns (hroles : ∀ i ∈ invocations rest, i.role ≠ .onTimeout ∧ i.role ≠ .factory) :
      RunsTimeoutHook .contained c w
        (before ++ callback ++ after ++ (before' ++ factory ++ after' ++ rest)) callback factory w₂
        ((w.cell c).fallback.resolution? y) := by
    refine ⟨⟨w₁, x, y, hcallback, hfactory, rfl⟩,
      ⟨before, after ++ before', after' ++ rest, by simp⟩, invocations rest, ?_, hroles⟩
    rw [hinvocations, hinvocations', List.append_assoc]
  refine ⟨callback, factory, w₂, (w.cell c).fallback.resolution? y, ?_⟩
  rw [← hresult]
  cases hresolution : (w.cell c).fallback.resolution? y with
  | none =>
    rw [hresolution] at hend hruns
    obtain ⟨rfl, rfl, rfl⟩ := hend
    exact ⟨hruns (by simp), rfl, by simp, by simp, by simp⟩
  | some r =>
    rw [hresolution] at hend hruns
    obtain ⟨rfl, hset, hresult', hroles⟩ :=
      hend.of_answered_setter Conduct.isContained_contained
    refine ⟨hruns hroles, rfl, fun _ => hset, fun r' hr => ?_, ?_⟩
    · cases hr
      exact Fallback.isError_of_resolution? hresolution
    · rw [hresult']
      cases hpresent : (w₂.cell c).result <;> cases hexpired : (w₂.cell c).expired <;>
        simp [Cell.isSetOrExpired, hpresent, hexpired]

/-- A world with a cell that has a timeout callback and a fallback. -/
def notifying : World :=
  (default : World).setCell 0 { onTimeout := some "notify", fallback := .fixed (.int 7) }

theorem handleTimeout_settles_notifying :
    (∃ acts w' o, (Call.handleTimeout 0).activation.Unfolds .contained notifying acts w' o) ∧
    ∀ acts w' o, (Call.handleTimeout 0).activation.Unfolds .contained notifying acts w' o →
      o = .returned (.flag false) ∧ (w'.cell 0).isSetOrExpired = true ∧
        ∃ rest, invocations acts = ⟨"notify", .onTimeout, none⟩ :: rest := by
  obtain ⟨hends, hall⟩ := Call.handleTimeout_settles notifying 0
  refine ⟨hends, fun acts w' o h => ?_⟩
  obtain ⟨callback, factory, w₂, fallback, hruns, rfl, hset, -, -⟩ := hall acts w' o h
  obtain ⟨w₁, x, y, -, -, hfallback⟩ := hruns.visits
  obtain ⟨rest, hinvocations, -⟩ := hruns.invocations
  obtain rfl : fallback = some (.value (.int 7)) := hfallback
  exact ⟨rfl, hset nofun, rest, hinvocations⟩

end Rendezvous
