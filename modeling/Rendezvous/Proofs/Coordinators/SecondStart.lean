import Rendezvous.Proofs.Coordinators.Conclusion
import Rendezvous.Proofs.Coordinators.Live
import Rendezvous.Proofs.Requests.Agreement
import Rendezvous.Proofs.Threads.Undisturbed

/-!
# A second start on a cell

A coordinator refuses to start a request on a cell for which it has another one in flight. It looks
at its own requests only, while the cell has room for one handler whoever registers it. A start with
another coordinator is not refused, and its request takes the place of the one that waits in the
cell, which is never dispatched then.

## Main definitions

* `Failure.IsMisuse`: a failure says that a coordinator is misused.
* `Activation.IsAdmitted`: a call is past the part of a start that may refuse it.
* `System.RefusesStart`: a start raises that the coordinator is misused.
* `System.Keeps`: nothing has changed but that a request may have been made.

## Main results

* `System.refusesStart_iff_contains_or_expired`: which starts are refused.
* `System.Reachable.refusesStart_iff`: which starts are refused on the cell of a request, and what
  becomes of that request.
-/

namespace Rendezvous

variable {w : World} {k : CoordinatorId} {c : CellId} {d : Option CallbackId}
  {extra : List Interceptor} {q r : RequestId} {frames : List Frame}

/-! ### Calls that are not refused

User code can raise any failure, this one among them. A call that calls no user code raises only the
failures of the library, and those that say that a coordinator is misused come from two points. -/

/-- Whether a failure says that a coordinator is misused. -/
def Failure.IsMisuse (e : Failure) : Prop :=
  e.kind = "CoordinatorStateError"

theorem Failure.isMisuse_expiredCell (cell : String) : (expiredCell cell).IsMisuse := rfl

theorem Failure.isMisuse_cellInProcess (cell : String) : (cellInProcess cell).IsMisuse := rfl

/-- Whether an outcome does not say that a coordinator is misused. -/
def Outcome.IsProper (o : Outcome) : Prop :=
  ∀ e, o = .raised e → ¬ e.IsMisuse

/-- Whether a point belongs to the part of a start that may refuse it. -/
def Point.IsGuard : Point → Prop
  | .coordinator _ (.checkStart ..) => True
  | .coordinator _ (.draw ..) => True
  | .coordinator _ (.activate _) => True
  | _ => False

/-- Whether a call is past the part of a start that may refuse it, or is no start. -/
structure Activation.IsAdmitted (a : Activation) : Prop where
  point (p : Point) : a.control = .ready p → ¬ p.IsGuard
  outcome (o : Outcome) : a.control = .ended o → o.IsProper
  frame : ∀ f ∈ a.frames, ∀ o, f.carried? = some o → o.IsProper

private theorem Point.isProper_of_finish {p : Point} {o : Outcome} (hp : ¬ p.IsGuard)
    (h : (p.step w).next = .finish o) : o.IsProper := by
  rintro e rfl
  rcases p with ⟨c, p⟩ | ⟨q, p⟩ | ⟨k, p⟩
  · exfalso
    cases p <;> simp only [step, CellPoint.step, Next.ret] at h <;>
      (repeat' split at h) <;> cases h
  · cases p <;> simp only [step, RequestPoint.step, Next.ret, Next.fail] at h <;>
      (repeat' split at h) <;> cases h
    simp [Failure.IsMisuse, Failure.kind, Failure.timeoutOverflow]
  · cases p <;> first | exact absurd trivial hp | skip
    all_goals
      simp only [step, CoordinatorPoint.step, Next.ret] at h
      (repeat' split at h) <;> cases h

private theorem Point.not_isGuard_step {p p' : Point} (hp : ¬ p.IsGuard)
    (h : (p.step w).next.point? = some p') : ¬ p'.IsGuard := by
  have hway := p.way_step w
  generalize (p.step w).next = n at hway h
  cases hway <;> cases h <;> first | exact id | exact absurd trivial hp

private theorem Frame.isProper_step {p : Point} {f : Frame} {o : Outcome}
    (h : (p.step w).next.frame? = some f) (hf : f.carried? = some o) : o.IsProper := by
  have hway := p.way_step w
  generalize (p.step w).next = n at hway h
  cases hway <;> cases h <;> cases hf <;>
    simp [Outcome.IsProper, Failure.IsMisuse, Failure.kind, Failure.nothingToCall]

private theorem Frame.isProper_resume {f g : Frame} {o o' : Outcome} (ho : o.IsProper)
    (h : (f.resume w o).next.frame? = some g) (hg : g.carried? = some o') : o'.IsProper := by
  have hway := f.way_resume w o
  generalize (f.resume w o).next = n at hway h
  cases hway <;> cases h
  cases hg
  exact ho

/-- A frame ends its code with a failure that it passes on or that it carries. -/
private theorem Frame.raised_of_resume {f : Frame} {o : Outcome} {e : Failure}
    (h : (f.resume w o).next = .finish (.raised e)) :
    o = .raised e ∨ f.carried? = some (.raised e) := by
  rcases f with ⟨c, f⟩ | ⟨q, f⟩ | ⟨k, n, rest⟩ | a | o'
  · left
    cases f <;> simp only [resume, CellFrame.resume, contain, Next.ret, Next.fail] at h <;>
      (repeat' split at h) <;> cases h <;> rfl
  · left
    cases f <;> simp only [resume, RequestFrame.resume, contain, Next.fail] at h <;>
      (repeat' split at h) <;> cases h <;> rfl
  all_goals
    cases o <;> cases h <;> first | exact .inl rfl | exact .inr rfl

private theorem Activation.isAdmitted_follow {n : Next}
    (hframes : ∀ f ∈ frames, ∀ o, f.carried? = some o → o.IsProper)
    (hpoint : ∀ p, n.point? = some p → ¬ p.IsGuard)
    (hframe : ∀ f, n.frame? = some f → ∀ o, f.carried? = some o → o.IsProper)
    (hfinish : ∀ o, n = .finish o → o.IsProper) : (follow frames n).IsAdmitted where
  point p hp := hpoint p (control_follow.mp hp)
  outcome o ho := hfinish o (control_follow_eq_ended.mp ho)
  frame f hf := (mem_frames_follow.mp hf).elim (hframe f) (hframes f)

/-- A call that is past the part that may refuse it stays so. -/
private theorem Activation.isAdmitted_step? {a a₁ : Activation} {w₁ : World}
    {notices : List Notice} (ha : a.IsAdmitted) (h : a.step? w = some (w₁, a₁, notices)) :
    a₁.IsAdmitted := by
  obtain ⟨p | i | o, frames⟩ := a
  · simp only [step?, Option.ite_none_right_eq_some] at h
    obtain ⟨-, ⟨⟩⟩ := h
    have hp := ha.point p rfl
    exact isAdmitted_follow ha.frame (fun p' => Point.not_isGuard_step hp)
      (fun f hf o => Frame.isProper_step hf) (fun o => Point.isProper_of_finish hp)
  · cases h
  · rcases frames with _ | ⟨f, frames⟩
    · cases h
    · cases h
      have ho := ha.outcome o rfl
      refine isAdmitted_follow (fun g hg => ha.frame g (List.mem_cons_of_mem _ hg)) (fun p hp => ?_)
        (fun g hg o' => Frame.isProper_resume ho hg) (fun o' ho' e he => ?_)
      · have hway := f.way_resume w o
        generalize (f.resume w o).next = n at hway hp
        cases hway <;> cases hp <;> exact id
      · subst he
        rcases Frame.raised_of_resume ho' with rfl | hcarried
        · exact ho e rfl
        · exact ha.frame f List.mem_cons_self _ hcarried e rfl

/-- A call that is past the part that may refuse it is not refused by what it calls. -/
private theorem Activation.Goes.isAdmitted {a a' : Activation} {w' : World}
    (hg : a.Goes w w' a') (ha : a.IsAdmitted) : a'.IsAdmitted := by
  induction hg with
  | refl => exact ha
  | head h _ ih => exact ih (Activation.isAdmitted_step? ha h)

/-! ### The course of a start -/

/-- The world in which a start has made its request. -/
private def drawn (w : World) (k : CoordinatorId) (c : CellId) (d : Option CallbackId)
    (extra : List Interceptor) : World :=
  ((Point.coordinator k (.draw c d extra)).step w).world

private theorem request_drawn (q : RequestId) : (drawn w k c d extra).request q =
    if q = w.requestCount then (w.coordinator k).newRequest k c (w.cell c) d extra
    else w.request q :=
  World.request_addRequest ..

private theorem cell_drawn :
    ((drawn w k c d extra).request w.requestCount).cell = c := by
  rw [request_drawn, if_pos rfl]
  rfl

private theorem active_drawn (j : CoordinatorId) :
    ((drawn w k c d extra).coordinator j).active = (w.coordinator j).active := by
  rcases Point.active_step w (.coordinator k (.draw c d extra)) j with h | ⟨q, hp, -⟩ | ⟨q, hp, -⟩
  · exact h
  · cases hp
  · cases hp

private theorem goes_expired (he : (w.cell c).expired = true) :
    (Call.start k c d extra).activation.Goes w w
      ⟨.ended (.raised (.expiredCell (w.cell c).describe)), []⟩ :=
  .finish rfl (if_pos he) (.refl ..)

/-- A start comes to the activation of its request, unless its cell has expired. -/
private theorem goes_start {w' : World} {a : Activation} (he : (w.cell c).expired = false)
    (hg : Activation.Goes (drawn w k c d extra)
      ⟨.ready (.coordinator k (.activate w.requestCount)), []⟩ w' a) :
    (Call.start k c d extra).activation.Goes w w' a :=
  .goto rfl (if_neg (by simp [he])) (.goto rfl rfl hg)

private theorem goes_refused (h : (w.coordinator k).active.contains (w.request r).cell = true) :
    Activation.Goes w ⟨.ready (.coordinator k (.activate r)), []⟩ w
      ⟨.ended (.raised (.cellInProcess (w.cell (w.request r).cell).describe)), []⟩ := by
  have hstep : (Point.coordinator k (.activate r)).step w =
      { world := w
        next := .fail (.cellInProcess (w.cell (w.request r).cell).describe) } := if_pos h
  exact .finish rfl (by rw [hstep]; rfl) (by rw [hstep]; exact .refl ..)

/-- A start that is not refused comes to the timer of its request. -/
private theorem goes_activate {w' : World} {a : Activation}
    (h : (w.coordinator k).active.contains (w.request r).cell = false)
    (hg : Activation.Goes ((Point.coordinator k (.activate r)).step w).world
      ⟨.ready (.request r .arm), [.answer (.request r)]⟩ w' a) :
    Activation.Goes w ⟨.ready (.coordinator k (.activate r)), []⟩ w' a :=
  .goto rfl (Point.next_activate h) (.point rfl hg)

private theorem cell_activate (c : CellId) :
    ((Point.coordinator k (.activate r)).step w).world.cell c = w.cell c := by
  simp only [Point.step, CoordinatorPoint.step]
  split <;> rfl

private theorem request_activate (q : RequestId) :
    ((Point.coordinator k (.activate r)).step w).world.request q = w.request q := by
  simp only [Point.step, CoordinatorPoint.step]
  split <;> rfl

private theorem cell_arm (c : CellId) :
    ((Point.request r .arm).step w).world.cell c = w.cell c := by
  simp only [Point.step, RequestPoint.step]
  split
  · rfl
  · split <;> rfl

private theorem requestCell_arm :
    (((Point.request r .arm).step w).world.request r).cell = (w.request r).cell := by
  rcases Point.request_step w (.request r .arm) r with
    h | ⟨-, h⟩ | ⟨_, ⟨⟩, -⟩ | ⟨⟨⟩, -⟩ | ⟨⟨⟩, -⟩ | ⟨⟨⟩, -⟩ | ⟨_, _, _, _, ⟨⟩, -⟩ <;> rw [h]

/-- A start whose timer can count the timeout registers its request, and returns it. -/
private theorem goes_registered (he : (w.cell (w.request r).cell).expired = false)
    (hr : (w.cell (w.request r).cell).result = none) (ht : (w.request r).CanBeTimed w.clock) :
    ∃ w', Activation.Goes w ⟨.ready (.request r .arm), [.answer (.request r)]⟩ w'
        ⟨.ended (.returned (.request r)), []⟩ ∧
      (w'.request r).cell = (w.request r).cell ∧
      (w'.cell (w.request r).cell).result = none ∧
      (w'.cell (w.request r).cell).expired = false ∧
      (w'.cell (w.request r).cell).handler = some (.request r) := by
  generalize hc : (w.request r).cell = c at he hr
  generalize hv : ((Point.request r .arm).step w).world = v
  have hvc : (v.request r).cell = c := hv ▸ requestCell_arm.trans hc
  have hvcell : v.cell c = w.cell c := hv ▸ cell_arm c
  have hregister : (v.cell c).register (.request r) =
      ({ v.cell c with handler := some (.request r) }, .stored) := by
    simp [Cell.register, hvcell, he, hr]
  refine ⟨v.setCell c { v.cell c with handler := some (.request r) }, ?_, hvc, ?_, ?_, ?_⟩
  · refine .goto rfl (Point.next_arm ht) ?_
    rw [hv]
    have hattach : ((Point.request r .attach).step v).next =
        .goto (.cell c (.checkRegister (.request r))) := by
      rw [← hvc]
      rfl
    have hcheck : ((Point.cell c (.checkRegister (.request r))).step v).next =
        .goto (.cell c (.register (.request r))) := if_neg (by simp [hvcell, he])
    have hstore : (Point.cell c (.register (.request r))).step v =
        { world := v.setCell c { v.cell c with handler := some (.request r) }
          next := .ret .unit } := by
      simp only [Point.step, CellPoint.step, hregister]
    refine .goto rfl hattach (.goto rfl hcheck (.finish rfl (congrArg Effect.next hstore) ?_))
    change Activation.Goes ((Point.cell c (.register (.request r))).step v).world _ _ _
    rw [hstore]
    exact .resume (.refl _ _)
  · simp [hvcell, hr]
  · simp [hvcell, he]
  · simp

namespace System

variable {s s' : System} {m : Move} {allowed : Move → Prop} {t : ThreadId} {n : CallNumber}

/-! ### The next assignment -/

/-- Whether a resolution was dispatched for a request, or is on its way to that. -/
private def IsAnswered (s : System) (q : RequestId) (x : Resolution) : Prop :=
  x ∈ s.dispatches q ∨
    ∃ t n p frames, ⟨t, n, ⟨.ready p, frames⟩⟩ ∈ s.ongoing ∧ p.brings? q = some x

private theorem brings?_next {p : Point} {x : Resolution} (h : p.brings? q = some x) :
    p = .request q (.dispatch x) ∨
      ∃ p', (p.step w).next.point? = some p' ∧ p'.brings? q = some x := by
  unfold Point.brings? at h
  split at h
  · exact .inr ⟨_, rfl, h⟩
  · exact .inr ⟨_, rfl, h⟩
  · obtain ⟨rfl, ⟨⟩⟩ := Option.ite_none_right_eq_some.mp h
    exact .inl rfl
  · cases h

private theorem isAnswered_of_transition (ht : Transition s m s') {x : Resolution}
    (h : s.IsAnswered q x) : s'.IsAnswered q x := by
  rcases h with h | ⟨t, n, p, frames, hmem, hp⟩
  · exact .inl ((ht.history_prefix.filterMap _).subset h)
  · rcases ht.mem_of_ready hmem rfl with hmem | hh
    · exact .inr ⟨t, n, p, frames, hmem, hp⟩
    · rcases brings?_next (w := s.world) hp with rfl | ⟨p', hn, hp'⟩
      · left
        rw [dispatches, hh]
        simp [Event.dispatch?_step, Point.dispatch?]
      · obtain ⟨newer, older, frames', -, -, -, -, rfl⟩ := ht.exists_of_step hh
        right
        generalize (p.step s.world).next = next at hn
        cases next <;> cases hn
        · exact ⟨t, n, p', frames', List.mem_append_right _ List.mem_cons_self, hp'⟩
        · exact ⟨t, n, p', _, List.mem_append_right _ List.mem_cons_self, hp'⟩

/-- Whether a cell has taken a resolution for a request: it was dispatched or is on its way to that,
and the request is completed or a call comes to that. -/
private structure IsHandedTo (s : System) (q : RequestId) (x : Resolution) : Prop where
  answered : s.IsAnswered q x
  completing : (s.world.request q).completed = true ∨ ∃ y ∈ s.ongoing, y.activation.Delivers q

private theorem isHandedTo_of_transition (ht : Transition s m s') (hq : q < s.world.requestCount)
    {x : Resolution} (h : s.IsHandedTo q x) : s'.IsHandedTo q x where
  answered := isAnswered_of_transition ht h.answered
  completing := by
    rcases h.completing with hc | hy
    · exact .inl ((ht.grows.request q hq).completed hc)
    · exact (ht.delivers hy).symm

/-- A live request stays live until its cell goes through a block, and is handed the resolution if
that is an assignment. -/
private theorem isLive_of_transition (hs : Reachable allowed s) (ht : Transition s m s')
    (hlive : s.IsLive q) :
    (s'.locked (s.world.request q).cell = s.locked (s.world.request q).cell ∧ s'.IsLive q) ∨
    ∃ b, s'.locked (s.world.request q).cell = s.locked (s.world.request q).cell ++ [b] ∧
      ∀ x, b.block = .assign x → s'.IsHandedTo q x := by
  have hq : q < s.world.requestCount := hs.isBounded.world.handler _ q hlive.handler
  have hcell := Request.cell_eq_of_fixed (ht.grows.request q hq).fixed
  have hkeep (h : (s'.world.cell (s.world.request q).cell).expired =
        (s.world.cell (s.world.request q).cell).expired ∧
      (s'.world.cell (s.world.request q).cell).result =
        (s.world.cell (s.world.request q).cell).result ∧
      (s'.world.cell (s.world.request q).cell).handler =
        (s.world.cell (s.world.request q).cell).handler) : s'.IsLive q := by
    refine ⟨?_, ?_, ?_⟩ <;> rw [hcell]
    · exact h.2.1.trans hlive.result
    · exact h.1.trans hlive.expired
    · exact h.2.2.trans hlive.handler
  rcases ht.world with ⟨-, hcells, -, hview⟩ | ⟨t, n, p, frames, -, -, hw, hh, hgoes⟩
  · exact .inl ⟨hview _, hkeep (by simp [hcells])⟩
  · have hlocked : s'.locked (s.world.request q).cell = s.locked (s.world.request q).cell ++
        ((p.block? (s.world.request q).cell).map fun b => ⟨t, n, b⟩).toList := by
      rw [locked, hh, filterMap_append_cons]
      exact congrArg _ (List.append_nil _)
    cases hb : p.block? (s.world.request q).cell with
    | none =>
      rw [hb] at hlocked
      exact .inl ⟨hlocked.trans (List.append_nil _), hkeep (hw ▸ Point.cell_step_of_block? _ hb)⟩
    | some b =>
      rw [hb] at hlocked
      refine .inr ⟨⟨t, n, b⟩, hlocked, fun x hx => ?_⟩
      obtain rfl : b = .assign x := hx
      have haccepted : ((s.world.cell (s.world.request q).cell).assign x).2 =
          .accepted (some (.request q)) := Cell.assign_snd_eq_accepted.mpr
        ⟨by simp [Cell.isSetOrExpired, hlive.result, hlive.expired], hlive.handler⟩
      rw [Point.block?_eq_some hb] at hgoes
      simp only [Block.point, Point.step, CellPoint.step, haccepted] at hgoes
      exact ⟨.inr ⟨t, n, _, _, hgoes, by simp [Point.brings?]⟩, .inr ⟨_, hgoes, .point _ _ rfl⟩⟩

/-- The next assignment of the cell of a live request hands the resolution to the request. -/
private theorem Leads.isHandedTo (hs : Reachable allowed s) (hlive : s.IsLive q)
    (hl : Leads allowed s s') {x : Resolution} {bs : List Locked}
    (hlocked : s'.locked (s.world.request q).cell =
      s.locked (s.world.request q).cell ++ ⟨t, n, .assign x⟩ :: bs) : s'.IsHandedTo q x := by
  have hq : q < s.world.requestCount := hs.isBounded.world.handler _ q hlive.handler
  suffices h : (s'.locked (s.world.request q).cell = s.locked (s.world.request q).cell ∧
      s'.IsLive q) ∨ ∃ b bs, s'.locked (s.world.request q).cell =
        s.locked (s.world.request q).cell ++ b :: bs ∧
          ∀ x, b.block = .assign x → s'.IsHandedTo q x by
    rcases h with ⟨hsame, -⟩ | ⟨b, bs', hb, h⟩
    · simp [hsame] at hlocked
    · rw [hb] at hlocked
      obtain ⟨rfl, -⟩ := List.cons.inj (List.append_cancel_left hlocked)
      exact h x rfl
  clear hlocked
  induction hl with
  | refl => exact .inl ⟨rfl, hlive⟩
  | @move s₁ s₂ m hl hm ht ih =>
    have hs₁ := hs.leads hl
    have htr := transition_of_take? ht
    have hcell := Request.cell_eq_of_fixed (hl.grows.request q hq).fixed
    rcases ih with ⟨hsame, hlive₁⟩ | ⟨b, bs, hb, h⟩
    · rcases isLive_of_transition hs₁ htr hlive₁ with ⟨hl₂, h⟩ | ⟨b, hl₂, h⟩
      · exact .inl ⟨by rw [← hcell, hl₂, hcell, hsame], h⟩
      · exact .inr ⟨b, [], by rw [← hcell, hl₂, hcell, hsame], h⟩
    · obtain ⟨more, hmore⟩ := htr.history_prefix.filterMap (Event.locked? (s.world.request q).cell)
      refine .inr ⟨b, bs ++ more, ?_, fun x hx => isHandedTo_of_transition htr
        (Nat.lt_of_lt_of_le hq hl.grows.requestCount) (h x hx)⟩
      rw [locked, ← hmore]
      change s₁.locked (s.world.request q).cell ++ more = _
      rw [hb, List.append_assoc, List.cons_append]

/-- What was handed to a request has been dispatched when no call is in progress, and the request is
completed. -/
private theorem IsHandedTo.of_isIdle {x : Resolution} (h : s.IsHandedTo q x) (hi : s.IsIdle) :
    x ∈ s.dispatches q ∧ (s.world.request q).completed = true := by
  refine ⟨h.answered.resolve_right ?_, h.completing.resolve_right ?_⟩
  · rintro ⟨t, n, p, frames, hmem, hp⟩
    obtain ⟨r, hr⟩ := hi _ hmem
    cases hr
    cases hp
  · rintro ⟨y, hy, hdelivers⟩
    obtain ⟨r, hr⟩ := hi y hy
    exact Call.not_serves_wait r (.delivers _ (hr ▸ hdelivers))

/-! ### Starts on the cell of a request -/

/-- Whether a start raises that the coordinator is misused, when nothing disturbs it. -/
def RefusesStart (s : System) (t : ThreadId) (k : CoordinatorId) (c : CellId)
    (d : Option CallbackId) (extra : List Interceptor) : Prop :=
  ∃ e s', e.IsMisuse ∧ s.Performs t (.start k c d extra) (.raised e) s'

/-- Whether nothing has changed but that a request may have been made. -/
structure Keeps (s s' : System) : Prop where
  ongoing : s'.ongoing = s.ongoing
  known : s'.known = s.known
  cell (c : CellId) : s'.world.cell c = s.world.cell c
  request (q : RequestId) : q < s.world.requestCount → s'.world.request q = s.world.request q
  active (k : CoordinatorId) :
    (s'.world.coordinator k).active = (s.world.coordinator k).active
  timers : s'.world.timers = s.world.timers

private theorem performs_start (hfree : s.isFree t = true) {o : Outcome} {w : World}
    (hg : (Call.start k c d extra).activation.Goes s.world w ⟨.ended o, []⟩) :
    ∃ s', s.Performs t (.start k c d extra) o s' ∧ s'.world = w ∧ s'.ongoing = s.ongoing ∧
      s'.known = s.known ++ o.request?.toList :=
  performs_of_goes hfree (by simp [Call.requests]) hg

/-- A coordinator refuses to start a request on a cell that has expired or for which it has one in
flight, and leaves everything as it is. -/
private theorem performs_refused (hfree : s.isFree t = true) (d : Option CallbackId)
    (extra : List Interceptor) (h : (s.world.coordinator k).active.contains c = true ∨
      (s.world.cell c).expired = true) :
    ∃ e s', e.IsMisuse ∧ s.Performs t (.start k c d extra) (.raised e) s' ∧ s.Keeps s' := by
  cases he : (s.world.cell c).expired with
  | true =>
    have hg : (Call.start k c d extra).activation.Goes s.world s.world
      ⟨.ended (.raised (.expiredCell (s.world.cell c).describe)), []⟩ := goes_expired he
    obtain ⟨s', hperforms, hw, hongoing, hknown⟩ := performs_start hfree hg
    exact ⟨_, s', Failure.isMisuse_expiredCell _, hperforms, hongoing,
      hknown.trans (List.append_nil _), fun _ => hw ▸ rfl, fun _ _ => hw ▸ rfl,
      fun _ => hw ▸ rfl, hw ▸ rfl⟩
  | false =>
    have hactive : (s.world.coordinator k).active.contains c = true :=
      h.resolve_right (by simp [he])
    have hg := goes_start he (goes_refused (w := drawn s.world k c d extra)
      (by rw [active_drawn, cell_drawn, hactive]))
    obtain ⟨s', hperforms, hw, hongoing, hknown⟩ := performs_start hfree hg
    refine ⟨_, s', Failure.isMisuse_cellInProcess _, hperforms, hongoing,
      hknown.trans (List.append_nil _), fun _ => hw ▸ rfl, fun q hq => ?_, fun j => ?_, hw ▸ rfl⟩
    · rw [hw, request_drawn, if_neg (Nat.ne_of_lt hq)]
    · rw [hw, active_drawn]

/-- A start that nothing stands in the way of returns its request, which waits in the cell. -/
private theorem performs_returned (hfree : s.isFree t = true)
    (he : (s.world.cell c).expired = false) (hr : (s.world.cell c).result = none)
    (h : (s.world.coordinator k).active.contains c = false)
    (ht : ((s.world.coordinator k).newRequest k c (s.world.cell c) d extra).CanBeTimed
      s.world.clock) :
    ∃ s', s.Performs t (.start k c d extra) (.returned (.request s.world.requestCount)) s' ∧
      s'.IsLive s.world.requestCount ∧ (s'.world.request s.world.requestCount).cell = c ∧
      s'.ongoing = s.ongoing := by
  generalize hv : ((Point.coordinator k (.activate s.world.requestCount)).step
    (drawn s.world k c d extra)).world = v
  have hvrequest : v.request s.world.requestCount =
      (s.world.coordinator k).newRequest k c (s.world.cell c) d extra := by
    rw [← hv, request_activate, request_drawn, if_pos rfl]
  have hvcell : v.cell c = s.world.cell c := by
    rw [← hv, cell_activate]
    rfl
  have hvc : (v.request s.world.requestCount).cell = c := hvrequest ▸ rfl
  have hvclock : v.clock = s.world.clock := hv ▸ Point.clock_step ..
  obtain ⟨w', hg, hw'⟩ := goes_registered (w := v) (r := s.world.requestCount)
    (by rw [hvc, hvcell, he]) (by rw [hvc, hvcell, hr]) (by rwa [hvrequest, hvclock])
  rw [hvc] at hw'
  obtain ⟨hcell, hresult, hexpired, hhandler⟩ := hw'
  have hstart := goes_start he (goes_activate (w := drawn s.world k c d extra)
    (by rw [active_drawn, cell_drawn, h]) (hv ▸ hg))
  obtain ⟨s', hperforms, hw, hongoing, -⟩ := performs_start hfree hstart
  subst hw
  refine ⟨s', hperforms, ⟨?_, ?_, ?_⟩, hcell, hongoing⟩ <;> rw [hcell]
  · exact hresult
  · exact hexpired
  · exact hhandler

/-- A start on a cell that has not expired, with a coordinator that has no request in flight there,
is not refused. -/
private theorem not_isMisuse (he : (s.world.cell c).expired = false)
    (h : (s.world.coordinator k).active.contains c = false) {e : Failure}
    (hraises : s.Performs t (.start k c d extra) (.raised e) s') : ¬ e.IsMisuse := by
  obtain ⟨w, hg⟩ := hraises.goes
  have hdraw : ((Point.coordinator k (.checkStart c d extra)).step s.world).next =
      .goto (.coordinator k (.draw c d extra)) := if_neg (by simp [he])
  have hactivate : ((Point.coordinator k (.activate s.world.requestCount)).step
      (drawn s.world k c d extra)).next =
        .goto (.coordinator k (.noteStart s.world.requestCount)) :=
    Point.next_activate (by rw [active_drawn, cell_drawn, h])
  have hnote := ((hg.of_goto hdraw).of_goto rfl).of_goto hactivate
  refine (hnote.isAdmitted ⟨fun p hp => ?_, fun o ho => ?_, fun f hf => ?_⟩).outcome _ rfl e rfl
  · cases hp
    exact id
  · cases ho
  · cases hf

/-- A coordinator refuses to start a request exactly if the cell has expired or it has a request in
flight there. -/
theorem refusesStart_iff_contains_or_expired (hfree : s.isFree t = true) :
    s.RefusesStart t k c d extra ↔
      (s.world.coordinator k).active.contains c = true ∨ (s.world.cell c).expired = true := by
  constructor
  · rintro ⟨e, s', he, hraises⟩
    rw [← Bool.not_eq_false, ← Bool.not_eq_false (s.world.cell c).expired, ← not_and_or]
    rintro ⟨hactive, hexpired⟩
    exact not_isMisuse hexpired hactive hraises he
  · intro h
    obtain ⟨e, s', he, hraises, -⟩ := performs_refused hfree d extra h
    exact ⟨e, s', he, hraises⟩

/-- A start that is refused leaves everything as it is. -/
theorem Performs.keeps (hfree : s.isFree t = true) {e : Failure} (he : e.IsMisuse)
    (h : s.Performs t (.start k c d extra) (.raised e) s') : s.Keeps s' := by
  have hrefuses := (refusesStart_iff_contains_or_expired hfree).mp ⟨e, s', he, h⟩
  obtain ⟨e', s'', -, hraises, hkeeps⟩ := performs_refused hfree d extra hrefuses
  exact (h.unique hraises).2 ▸ hkeeps

/-! ### What becomes of the request -/

/-- A request that another handler has replaced in its cell is never dispatched. -/
private theorem dispatches_of_replaced (hs : Reachable (Move.LeavesBegin q) s) (hlive : s.IsLive q)
    (hl : Leads (Move.LeavesBegin q) s s') (hongoing : s'.ongoing = s.ongoing)
    (hr : (s'.world.cell (s.world.request q).cell).result = none)
    (hh : (s'.world.cell (s.world.request q).cell).handler ≠ some (.request q)) {s'' : System}
    (hl' : Leads (Move.LeavesBegin q) s' s'') : s''.dispatches q = [] := by
  have hq : q < s.world.requestCount := hs.isBounded.world.handler _ q hlive.handler
  have hcell := Request.cell_eq_of_fixed (hl.grows.request q hq).fixed
  have hstanding : s'.standing (Point.headsFor q) = 0 := by
    have hone := hs.chances_le.trans (Bool.toNat_le _)
    rw [chances, World.waits_eq_true.mpr hlive.handler, Bool.toNat_true] at hone
    rw [standing, hongoing]
    change s.standing (Point.headsFor q) = 0
    omega
  have htaken : s'.taken (Point.beginsDispatch q) = 0 := by
    rw [← length_dispatches, List.length_eq_zero_iff, List.eq_nil_iff_forall_not_mem]
    intro x hx
    have hresult := ((hs.leads hl).agrees q).resolution x
      ((hs.leads hl).resolution_of_mem_dispatches hx)
    simp [hcell, hr] at hresult
  have hwaits : s'.world.waits q = false := by
    rw [← Bool.not_eq_true, World.waits_eq_true, hcell]
    exact hh
  have hnone : s'.chances q = 0 := by
    rw [chances, hstanding, htaken, hwaits]
    rfl
  have hle := Leads.chances_le (hs.leads hl) (Nat.lt_of_lt_of_le hq hl.grows.requestCount) hl'
  have hlength := (length_dispatches_le s'' q).trans (hle.trans (Nat.le_of_eq hnone))
  exact List.length_eq_zero_iff.mp (Nat.le_zero.mp hlength)

/-- The coordinator that started a request has it in flight until it is completed. -/
private theorem Reachable.exists_find? (hs : Reachable allowed s) (hq : s.IsActivated q)
    (hc : (s.world.request q).completed = false) :
    ∃ j, (s.world.request q).listener = .coordinator j ∧
      (s.world.coordinator j).active.find? (s.world.request q).cell = some q := by
  obtain ⟨j, c, hfind⟩ := (hs.inFlight_or_retired hq).resolve_right fun hretired => by
    simp [hs.completed_of_mem hretired] at hc
  exact ⟨j, hs.listener_of_find? hfind, (hs.cell_of_find? hfind).symm ▸ hfind⟩

/-- One request is in flight for each cell and coordinator, but not for each cell. Let a request be
activated and not completed. The coordinator that started it has it in flight. A start on its cell
is refused exactly if the coordinator it is made with has a request in flight there, or the cell has
expired; a refused start leaves everything as it is. If the request is live, any other coordinator
returns a request that takes the place of the live one in the cell, unless its timeout cannot be
counted; the live one is never dispatched then. If the next block of the cell is an assignment, the
resolution is dispatched for the live request and completes it. -/
theorem Reachable.refusesStart_iff (hs : Reachable (Move.LeavesBegin q) s) (hq : s.IsActivated q)
    (hc : (s.world.request q).completed = false) (hfree : s.isFree t = true) :
    (∃ j, (s.world.request q).listener = .coordinator j ∧
      (s.world.coordinator j).active.find? (s.world.request q).cell = some q) ∧
    (∀ k d extra, s.RefusesStart t k (s.world.request q).cell d extra ↔
      (s.world.coordinator k).active.contains (s.world.request q).cell = true ∨
        (s.world.cell (s.world.request q).cell).expired = true) ∧
    (∀ k d extra e s', e.IsMisuse →
      s.Performs t (.start k (s.world.request q).cell d extra) (.raised e) s' → s.Keeps s') ∧
    (s.IsLive q →
      (∀ k d extra, (s.world.coordinator k).active.contains (s.world.request q).cell = false →
        ((s.world.coordinator k).newRequest k (s.world.request q).cell
          (s.world.cell (s.world.request q).cell) d extra).CanBeTimed s.world.clock →
        ∃ s', s.Performs t (.start k (s.world.request q).cell d extra)
            (.returned (.request s.world.requestCount)) s' ∧
          s'.IsLive s.world.requestCount ∧
          ∀ s'', Leads (Move.LeavesBegin q) s' s'' → s''.dispatches q = []) ∧
      ∀ s' u n x bs, Leads (Move.LeavesBegin q) s s' →
        s'.locked (s.world.request q).cell =
          s.locked (s.world.request q).cell ++ ⟨u, n, .assign x⟩ :: bs →
        s'.IsIdle → s'.dispatches q = [x] ∧ (s'.world.request q).completed = true) := by
  refine ⟨hs.exists_find? hq hc, fun k d extra => refusesStart_iff_contains_or_expired hfree,
    fun k d extra e s' he h => h.keeps hfree he, fun hlive => ⟨fun k d extra h ht => ?_, ?_⟩⟩
  · obtain ⟨s', hperforms, hlive', hcell, hongoing⟩ :=
      performs_returned hfree hlive.expired hlive.result h ht
    have hl : Leads (Move.LeavesBegin q) s s' := hperforms.leads trivial trivial trivial
    have hlt : q < s.world.requestCount := hs.isBounded.world.handler _ q hlive.handler
    refine ⟨s', hperforms, hlive', fun s'' hl' => ?_⟩
    refine dispatches_of_replaced hs hlive hl hongoing (hcell ▸ hlive'.result) ?_ hl'
    rw [← hcell, hlive'.handler]
    simp [Nat.ne_of_gt hlt]
  · intro s' u n x bs hl hlocked hi
    obtain ⟨hmem, hcompleted⟩ := (hl.isHandedTo hs hlive hlocked).of_isIdle hi
    refine ⟨?_, hcompleted⟩
    obtain ⟨y, hy⟩ := List.length_eq_one_iff.mp (Nat.le_antisymm
      (hs.leads hl).length_dispatches_le_one (List.length_pos_of_mem hmem))
    rw [hy] at hmem ⊢
    rw [List.mem_singleton.mp hmem]

/-- A new world in which two coordinators give their requests no timeouts. -/
def untimedPair : World := untimed.setCoordinator 1 { settings := { defaultTimeoutMs := 0 } }

private theorem isNew_untimedPair : untimedPair.IsNew where
  cell _ := ⟨rfl, rfl, rfl⟩
  active k := by
    rw [untimedPair, World.coordinator_setCoordinator]
    split
    · rfl
    · exact isNew_untimed.active k
  requestCount := rfl
  requests := rfl
  timers := rfl

theorem refusesStart_starting : ∃ s s', run { world := untimedPair } starting = some s ∧
    run { world := untimedPair } answered = some s' ∧ s.IsLive 0 ∧
    s.RefusesStart 1 0 0 (some "e") [] ∧
    (∃ s₁, s.Performs 1 (.start 1 0 (some "e") []) (.returned (.request 1)) s₁ ∧
      ∀ s₂, Leads (Move.LeavesBegin 0) s₁ s₂ → s₂.dispatches 0 = []) ∧
    s'.dispatches 0 = [.value (.text "A")] ∧ (s'.world.request 0).completed = true := by
  obtain ⟨s, hs⟩ : ∃ s, run { world := untimedPair } starting = some s := ⟨_, rfl⟩
  obtain ⟨s', hs'⟩ : ∃ s', run { world := untimedPair } answered = some s' := ⟨_, rfl⟩
  have hshown : (run { world := untimedPair } starting).map (fun s => (s.ongoing, s.activations,
      (s.world.request 0).cell, (s.world.request 0).completed, s.locked 0)) =
        some ([], [0], 0, false, [⟨0, 0, .register (.request 0)⟩]) := rfl
  have hcell : (run { world := untimedPair } starting).map (fun s => ((s.world.cell 0).result,
      (s.world.cell 0).expired, (s.world.cell 0).handler, s.world.requestCount,
      (s.world.coordinator 0).active.contains 0, (s.world.coordinator 1).active.contains 0,
      ((s.world.coordinator 1).newRequest 1 0 (s.world.cell 0) (some "e") []).timeoutMs)) =
        some (none, false, some (.request 0), 1, true, false, 0) := rfl
  have hshown' : (run { world := untimedPair } answered).map (fun s => (s.ongoing, s.locked 0)) =
      some ([], [⟨0, 0, .register (.request 0)⟩] ++
        ⟨1, 1, .assign (.value (.text "A"))⟩ :: [⟨1, 1, .expire⟩]) := rfl
  simp only [hs, Option.map_some, Option.some.injEq, Prod.mk.injEq] at hshown hcell
  simp only [hs', Option.map_some, Option.some.injEq, Prod.mk.injEq] at hshown'
  obtain ⟨hongoing, hactivations, hc, hcompleted, hlocked⟩ := hshown
  obtain ⟨hresult, hexpired, hhandler, hcount, hown, hother, htimeout⟩ := hcell
  have hreach : Reachable (Move.LeavesBegin 0) s := ⟨untimedPair, isNew_untimedPair, leads_of_run
    (by simp [starting, Move.LeavesBegin]) hs⟩
  have hl : Leads (Move.LeavesBegin 0) s s' := by
    have hsplit : answered = starting ++ answered.drop starting.length := rfl
    rw [hsplit, run_append, hs, Option.bind_some] at hs'
    exact leads_of_run (by simp [answered, starting, Move.LeavesBegin]) hs'
  have hactivated : s.IsActivated 0 := by simp [IsActivated, hactivations]
  have hlive : s.IsLive 0 := by
    refine ⟨?_, ?_, ?_⟩ <;> rw [hc]
    · exact hresult
    · exact hexpired
    · exact hhandler
  obtain ⟨-, hrefuses, -, hstays⟩ := hreach.refusesStart_iff (t := 1) hactivated hcompleted
    (by simp [isFree, hongoing, innermost?])
  rw [hc] at hrefuses hstays
  obtain ⟨hreplaced, hanswered⟩ := hstays hlive
  refine ⟨s, s', hs, hs', hlive, (hrefuses 0 (some "e") []).mpr (.inl hown), ?_, ?_⟩
  · obtain ⟨s₁, hperforms, -, hnever⟩ :=
      hreplaced 1 (some "e") [] hother (.inl (Int.le_of_eq htimeout))
    exact ⟨s₁, hcount ▸ hperforms, hnever⟩
  · exact hanswered s' 1 1 (.value (.text "A")) [⟨1, 1, .expire⟩] hl (by rw [hshown'.2, hlocked])
      (by simp [IsIdle, hshown'.1])

/-- A request is started on a cell, then another one with another coordinator, and the cell is
resolved. -/
def sharedCell : List Move :=
  starting ++ .begin 1 (.start 1 0 (some "e") []) :: List.replicate 9 (.advance 1) ++
    .finish 1 :: .begin 2 (.setResult 0 (.text "A")) :: List.replicate 6 (.advance 2) ++
    .answer 2 (.ok .null) :: List.replicate 14 (.advance 2) ++ [.finish 2]

theorem not_refusesStart_sharedCell : ∃ s s', run { world := untimedPair } starting = some s ∧
    s.IsActivated 0 ∧ (s.world.request 0).completed = false ∧ s.IsLive 0 ∧
    ¬ s.RefusesStart 1 1 0 (some "e") [] ∧
    run { world := untimedPair } sharedCell = some s' ∧ s'.IsIdle ∧
    (s'.acceptances 0).map Acceptance.resolution = [.value (.text "A")] ∧
    s'.dispatches 0 = [] ∧ (s'.world.request 0).completed = false := by
  obtain ⟨s, hs⟩ : ∃ s, run { world := untimedPair } starting = some s := ⟨_, rfl⟩
  obtain ⟨s', hs'⟩ : ∃ s', run { world := untimedPair } sharedCell = some s' := ⟨_, rfl⟩
  have hshown : (run { world := untimedPair } starting).map (fun s => (s.activations,
      (s.world.request 0).cell, (s.world.request 0).completed, (s.world.cell 0).result,
      (s.world.cell 0).expired, (s.world.cell 0).handler, s.begun)) =
        some ([0], 0, false, none, false, some (.request 0), 1) := rfl
  have hsecond : ((run { world := untimedPair } starting).bind fun s =>
      s.run ((Call.start 1 0 (some "e") []).undisturbed 1 9)).map (fun s => s.history.getLast?) =
        some (some ⟨1, 1, .finish (.returned (.request 1))⟩) := rfl
  have hshown' : (run { world := untimedPair } sharedCell).map (fun s => (s.ongoing,
      (s.acceptances 0).map Acceptance.resolution, s.dispatches 0,
      (s.world.request 0).completed)) = some ([], [.value (.text "A")], [], false) := rfl
  simp only [hs, Option.map_some, Option.some.injEq, Prod.mk.injEq] at hshown
  simp only [hs', Option.map_some, Option.some.injEq, Prod.mk.injEq] at hshown'
  rw [hs, Option.bind_some] at hsecond
  obtain ⟨hactivations, hc, hcompleted, hresult, hexpired, hhandler, hbegun⟩ := hshown
  obtain ⟨hongoing, haccepted, hdispatches, hopen⟩ := hshown'
  obtain ⟨s₁, hrun, hlast⟩ := Option.map_eq_some_iff.mp hsecond
  have hreturns : s.Performs 1 (.start 1 0 (some "e") []) (.returned (.request 1)) s₁ :=
    ⟨9, hrun, hbegun ▸ hlast⟩
  have hlive : s.IsLive 0 := by
    refine ⟨?_, ?_, ?_⟩ <;> rw [hc]
    · exact hresult
    · exact hexpired
    · exact hhandler
  refine ⟨s, s', hs, by simp [IsActivated, hactivations], hcompleted, hlive, ?_, hs',
    by simp [IsIdle, hongoing], haccepted, hdispatches, hopen⟩
  rintro ⟨e, s₂, -, hraises⟩
  cases (hraises.unique hreturns).1

end System

end Rendezvous
