import Rendezvous.Proofs.Coordinators.Conclusion
import Rendezvous.Proofs.Coordinators.Retirement
import Rendezvous.Proofs.Coordinators.Service
import Rendezvous.Proofs.Requests.Containment

/-!
# How a timeout or a failure ends a request

A call that reports the timeout or a failure of a request completes the request, or it finds a
result in its cell and leaves the completion to whoever hands the result over. The result may have
come before the request was registered, or while the interceptors were told. As long as the cell is
left to the request, the one who hands the result over is there in each of these cases: once no call
is in progress, the request is completed, its cell has expired, and it is out of those in flight.

Other hypotheses on the cell are not needed: its timeout and error hooks may be called by anyone,
since they only try to resolve it.

## Main definitions

* `Call.Reports`, `System.IsReported`: a call reports the timeout or a failure of a request, and has
  returned.
* `World.IsDecided`: a request is completed, or its cell has a result.
* `System.LeavesTo`: a cell is left to a request.

## Main results

* `System.Reachable.isDecided_of_isReported`: what a report leaves behind.
* `System.Reachable.registersOnly`: nobody else is registered with a cell that is left to a request.
* `System.Reachable.ended_of_isReported`: the request has ended once no call is in progress.
-/

namespace Rendezvous

/-! ### Reports -/

/-- Whether a call reports the timeout or a failure of a request. -/
def Call.Reports (q : RequestId) : Call → Prop
  | .timeOut r | .fail r _ => r = q
  | _ => False

/-- Whether a request is completed, or its cell has a result. -/
def World.IsDecided (w : World) (q : RequestId) : Prop :=
  (w.request q).completed = true ∨ (w.cell (w.request q).cell).hasResult = true

/-- Whether a point is on the way of a report. -/
def Point.Reports (q : RequestId) : Point → Prop
  | .request r .checkTimeout | .request r .markTimeout | .request r (.timeoutHooks _)
  | .request r .timeoutDefault | .request r (.checkFail _) | .request r (.noteFail _)
  | .request r (.errorHooks _ _) | .request r (.errorDefault _) | .request r .completeUndelivered
  | .request r .complete => r = q
  | _ => False

/-- Whether a report waits at a frame. -/
def Frame.Reports (q : RequestId) : Frame → Prop
  | .request r (.timeoutHook _) | .request r (.errorHook _ _) | .request r .settled => r = q
  | _ => False

/-- Whether a call is on the way of a report, or has failed there. -/
inductive Activation.Reports (q : RequestId) : Activation → Prop
  | point (p : Point) (hp : p.Reports q) : Reports q ⟨.ready p, []⟩
  | frame (control : Control) (above : List Frame) (f : Frame) (hf : f.Reports q) :
    Reports q ⟨control, above ++ [f]⟩
  | failed (e : Failure) : Reports q ⟨.ended (.raised e), []⟩

variable {w w' : World} {p : Point} {q : RequestId} {frames : List Frame}

private theorem World.IsDecided.grow (h : w.IsDecided q) (hq : q < w.requestCount)
    (hw : w.Grows w') : w'.IsDecided q := by
  have hgrows := hw.request q hq
  refine h.imp hgrows.completed fun h => ?_
  obtain ⟨r, hr⟩ := Option.isSome_iff_exists.mp h
  rw [Request.cell_eq_of_fixed hgrows.fixed]
  exact Option.isSome_iff_exists.mpr ⟨r, hw.result _ r hr⟩

/-- A frame keeps a call on the way of a report. -/
private theorem reports_follow {n : Next} {above : List Frame} {f : Frame} (hf : f.Reports q)
    (hframes : frames = above ++ [f]) : (Activation.follow frames n).Reports q := by
  subst hframes
  cases n with
  | goto p => exact .frame _ above f hf
  | call g p => exact .frame _ (g :: above) f hf
  | invoke g i => exact .frame _ (g :: above) f hf
  | finish o => exact .frame _ above f hf

/-- A step takes a report further, or finds that the request is decided. -/
private theorem reports_step (h : (⟨.ready p, frames⟩ : Activation).Reports q) :
    (Activation.follow frames (p.step w).next).Reports q ∨ (p.step w).world.IsDecided q := by
  generalize ha : (⟨.ready p, frames⟩ : Activation) = a at h
  cases h with
  | frame control above f hf =>
    cases ha
    exact .inl (reports_follow hf rfl)
  | failed e => cases ha
  | point p hp =>
    cases ha
    unfold Point.Reports at hp
    split at hp
    case h_11 => exact hp.elim
    all_goals
      subst hp
      simp only [Point.step, RequestPoint.step]
    · split
      · exact .inr (.inl ‹_›)
      · exact .inl (.point _ rfl)
    · exact .inl (.point _ rfl)
    · rename_i r rest
      rcases rest with _ | ⟨⟨c⟩ | ⟨i, j, k⟩, rest⟩
      · exact .inl (.point _ rfl)
      · exact .inl (.frame _ [] _ rfl)
      · exact .inl (.frame _ [] _ rfl)
    · split
      · exact .inr (.inr ‹_›)
      · exact .inl (.frame _ [] _ rfl)
    · split
      · exact .inr (.inl ‹_›)
      · exact .inl (.point _ rfl)
    · exact .inl (.point _ rfl)
    · rename_i r e rest
      rcases rest with _ | ⟨⟨c⟩ | ⟨i, j, k⟩, rest⟩
      · exact .inl (.point _ rfl)
      · exact .inl (.frame _ [] _ rfl)
      · exact .inl (.frame _ [] _ rfl)
    · split
      · exact .inr (.inr ‹_›)
      · exact .inl (.frame _ [] _ rfl)
    · split
      · exact .inr (.inr ‹_›)
      · exact .inl (.point _ rfl)
    · split
      · exact .inr (.inl ‹_›)
      · exact .inr (.inl (by simp [World.modifyRequest]))

/-- The frame at which a report waits takes it further, or ends it with the failure that escapes. -/
private theorem reports_answered {f : Frame} {o : Outcome} (hf : f.Reports q) :
    (Activation.follow [] (f.resume w o).next).Reports q := by
  unfold Frame.Reports at hf
  split at hf
  · subst hf
    cases o with
    | returned a => exact .point _ (by split <;> rfl)
    | raised e =>
      simp only [Frame.resume, RequestFrame.resume, contain]
      split
      · exact .point _ rfl
      · exact .failed e
  · subst hf
    cases o with
    | returned a => exact .point _ (by split <;> rfl)
    | raised e =>
      simp only [Frame.resume, RequestFrame.resume, contain]
      split
      · exact .point _ rfl
      · exact .failed e
  · subst hf
    cases o with
    | returned a => exact .point _ rfl
    | raised e => exact .failed e
  · exact hf.elim

/-- A frame that goes on takes a report further. -/
private theorem reports_resume {f : Frame} {o : Outcome}
    (h : (⟨.ended o, f :: frames⟩ : Activation).Reports q) :
    (Activation.follow frames (f.resume w o).next).Reports q := by
  generalize ha : (⟨.ended o, f :: frames⟩ : Activation) = a at h
  cases h with
  | point p hp => cases ha
  | failed e => cases ha
  | frame control above g hg =>
    obtain ⟨-, hframes⟩ := Activation.mk.inj ha
    rcases List.cons_eq_append_iff.mp hframes with ⟨rfl, hg'⟩ | ⟨above', rfl, hrest⟩
    · obtain ⟨rfl, rfl⟩ := List.cons.inj hg'
      exact reports_answered hg
    · exact reports_follow hg hrest

private theorem Call.Reports.activation {call : Call} (h : call.Reports q) :
    call.activation.Reports q := by
  unfold Call.Reports at h
  split at h
  · exact .point _ h
  · exact .point _ h
  · exact h.elim

private theorem Call.Reports.mem_requests {call : Call} (h : call.Reports q) :
    q ∈ call.requests := by
  unfold Call.Reports at h
  split at h
  · exact List.mem_singleton.mpr h.symm
  · exact List.mem_singleton.mpr h.symm
  · exact h.elim

namespace System

variable {s s' : System} {m : Move} {allowed : Move → Prop} {c : CellId}

/-- Whether a call that reports the timeout or a failure of a request has returned. -/
def IsReported (s : System) (q : RequestId) : Prop :=
  ∃ n call a, call.Reports q ∧ .begin call ∈ s.deeds n ∧ .finish (.returned a) ∈ s.deeds n

/-- Whether a call is on the way of a report wherever it is in progress, and has not returned. -/
private def IsReporting (s : System) (q : RequestId) (n : CallNumber) : Prop :=
  (∀ y ∈ s.ongoing, y.number = n → y.activation.Reports q) ∧
    ∀ t a, ⟨t, n, .finish (.returned a)⟩ ∉ s.history

/-- A report that begins is on its way. -/
private theorem isReporting_of_begin (hs : s.IsNumbered) (ht : Transition s m s') {t : ThreadId}
    {n : CallNumber} {call : Call} (hcall : call.Reports q)
    (hb : ⟨t, n, .begin call⟩ ∈ s'.history) (hnew : ⟨t, n, .begin call⟩ ∉ s.history) :
    s'.IsReporting q n := by
  obtain ⟨rfl, hh, ho⟩ := ht.of_begin hb hnew
  refine ⟨fun y hy hn => ?_, fun t' a hmem => ?_⟩
  · rw [ho] at hy
    rcases List.mem_cons.mp hy with rfl | hy
    · exact hcall.activation
    · exact absurd hn (Nat.ne_of_lt (hs.ongoing y hy))
  · rw [hh, List.mem_append, List.mem_singleton] at hmem
    rcases hmem with hmem | hmem
    · exact Nat.lt_irrefl _ (hs.history _ hmem)
    · cases hmem

/-- A report stays on its way until the request is decided. -/
private theorem isReporting_of_transition (ht : Transition s m s') {n : CallNumber}
    (hn : n < s.begun) (h : s.IsReporting q n) (hopen : ¬ s'.world.IsDecided q) :
    s'.IsReporting q n := by
  refine ⟨fun y hy hyn => ?_, fun t a hmem => ?_⟩
  · rcases ht.mem_ongoing hy with hy | ⟨c, hc, -⟩ | ⟨a, d, hx, hm, hh⟩
    · exact h.1 y hy hyn
    · rw [hc] at hyn
      exact absurd hyn (Nat.ne_of_gt hn)
    · have ha := h.1 _ hx hyn
      generalize hb : y.activation = b at hm
      cases hm with
      | step p frames =>
        obtain ⟨_, _, _, -, -, -, -, rfl⟩ := ht.exists_of_step hh
        exact (reports_step ha).resolve_right hopen
      | resume o f frames => exact reports_resume ha
      | answer i frames o =>
        generalize hi : (⟨.inside i, frames⟩ : Activation) = b at ha
        cases ha with
        | frame control above f hf =>
          cases hi
          exact .frame _ above f hf
        | point => cases hi
        | failed => cases hi
  · rcases ht.history with hh | ⟨e, hh⟩
    · exact h.2 t a (hh ▸ hmem)
    · rw [hh, List.mem_append, List.mem_singleton] at hmem
      obtain rfl := hmem.resolve_left (h.2 t a)
      cases ht with
      | finish newer older t' k o he =>
        cases List.singleton_inj.mp (List.append_cancel_left hh)
        have ha := h.1 _ (he ▸ by simp) rfl
        generalize hb : (⟨.ended (.returned a), []⟩ : Activation) = b at ha
        cases ha with
        | frame control above f hf => simp at hb
        | point => cases hb
        | failed => cases hb
      | make => simp [addRequest] at hh
      | _ => simp [enter, proceed] at hh

/-- A report that has returned has completed the request, or has found a result in its cell. -/
theorem Reachable.isDecided_of_isReported (hs : Reachable allowed s) (h : s.IsReported q) :
    s.world.IsDecided q := by
  obtain ⟨n, call, a, hcall, hb, hf⟩ := h
  obtain ⟨t, hb⟩ := mem_deeds.mp hb
  have hdone : s.world.IsDecided q ∨ s.IsReporting q n := by
    refine hs.induction (I := fun s => ⟨t, n, .begin call⟩ ∈ s.history →
      s.world.IsDecided q ∨ s.IsReporting q n) (fun _ _ hb => by cases hb)
      (fun s m s' hs _ ht ih hb => ?_) hb
    by_cases hold : ⟨t, n, .begin call⟩ ∈ s.history
    · rcases ih hold with hd | hr
      · have hq := hs.lt_of_hasBegun (hasBegun_iff.mpr ⟨_, hold, rfl⟩) hcall.mem_requests
        exact .inl (hd.grow hq ht.grows)
      · rw [or_iff_not_imp_left]
        exact isReporting_of_transition ht (hs.isNumbered.history _ hold) hr
    · exact .inr (isReporting_of_begin hs.isNumbered ht hcall hb hold)
  obtain ⟨t', hf⟩ := mem_deeds.mp hf
  exact hdone.resolve_right fun hr => hr.2 t' a hf

/-! ### Cells that are left to a request -/

/-- Whether a cell is left to a request: user code registers no handler with the cell and does not
end its life, no other request that has the cell is started or begun, and no other request with the
hooks of the cell is completed. -/
structure LeavesTo (s : System) (c : CellId) (q : RequestId) : Prop where
  handler (id : CallbackId) : ¬ s.HasBegun (.setHandler c (some id))
  life : ¬ s.HasBegun (.afterCompletion c)
  begun (r : RequestId) : s.HasBegun (.begin r) → (s.world.request r).cell = c → r = q
  activated (r : RequestId) : s.IsActivated r → (s.world.request r).cell = c → r = q
  completed (r : RequestId) : (s.world.request r).completed = true →
    .hooks c ∈ (s.world.request r).interceptors → r = q

/-- A cell that is left to a request was left to it before. -/
private theorem LeavesTo.of_transition (h : s'.LeavesTo c q) (hs : Reachable allowed s)
    (ht : Transition s m s') : s.LeavesTo c q where
  handler id hb := h.handler id (hb.mono ht.history_prefix)
  life hb := h.life (hb.mono ht.history_prefix)
  begun r hb hc := by
    have hr := hs.lt_of_hasBegun hb (List.mem_singleton.mpr rfl)
    refine h.begun r (hb.mono ht.history_prefix) ?_
    rw [Request.cell_eq_of_fixed (ht.grows.request r hr).fixed, hc]
  activated r ha hc := by
    refine h.activated r (ht.isActivated ha) ?_
    rw [Request.cell_eq_of_fixed (ht.grows.request r (hs.lt_of_isActivated ha)).fixed, hc]
  completed r hc hi := by
    have hgrows := ht.grows.request r (hs.isBounded.world.lt_of_completed hc)
    refine h.completed r (hgrows.completed hc) ?_
    rwa [Request.interceptors_eq_of_fixed hgrows.fixed]

/-- Where it shows how the handler or the request at a point came to be registered: user code has
registered or begun it, or a coordinator started it. -/
private def IsAnnounced (s : System) : Point → Prop
  | .cell c (.checkRegister (.callback id)) | .cell c (.register (.callback id)) =>
    s.HasBegun (.setHandler c (some id))
  | .cell _ (.checkRegister (.request r)) | .cell _ (.register (.request r))
  | .request r .arm | .request r .attach
  | .coordinator _ (.activate r) | .coordinator _ (.noteStart r) =>
    s.IsStarted r ∨ s.HasBegun (.begin r)
  | _ => True

private theorem IsAnnounced.mono (h : s.IsAnnounced p) (hpre : s.history <+: s'.history) :
    s'.IsAnnounced p := by
  have hrequest {r : RequestId} (h : s.IsStarted r ∨ s.HasBegun (.begin r)) :
      s'.IsStarted r ∨ s'.HasBegun (.begin r) := by
    refine h.imp (fun h => ?_) fun h => h.mono hpre
    obtain ⟨e, he, hstarts⟩ := List.any_eq_true.mp h
    exact List.any_eq_true.mpr ⟨e, hpre.subset he, hstarts⟩
  unfold IsAnnounced at h ⊢
  split at h
  · exact h.mono hpre
  · exact h.mono hpre
  case h_9 => trivial
  all_goals exact hrequest h

private theorem isAnnounced_step {p' : Point} (hold : s.IsAnnounced p)
    (hn : (p.step w).next.point? = some p')
    (hdraw : ∀ k c d extra, p = .coordinator k (.draw c d extra) → s.IsStarted w.requestCount) :
    s.IsAnnounced p' := by
  have hway := p.way_step w
  generalize (p.step w).next = n at hway hn
  cases hway <;> cases hn <;> try trivial
  case checkRegister c h he => cases h <;> exact hold
  case draw k c d extra q hq => exact .inl (hq ▸ hdraw k c d extra rfl)

private theorem Reachable.isAnnounced (hs : Reachable allowed s) :
    ∀ x ∈ s.ongoing, ∀ p, x.activation.control = .ready p → s.IsAnnounced p := by
  refine hs.induction (I := fun s => ∀ x ∈ s.ongoing, ∀ p, x.activation.control = .ready p →
    s.IsAnnounced p) (fun _ _ => by simp) fun s m s' hs _ ht ih y hy p' hp' => ?_
  have hpre := ht.history_prefix
  rcases ht.mem_ongoing hy with hy | ⟨call, hcall, hh⟩ | ⟨a, d, hx, hm, hh⟩
  · exact (ih y hy p' hp').mono hpre
  · rw [hcall] at hp'
    have hbegun : s'.HasBegun call :=
      hasBegun_iff.mpr ⟨_, hh ▸ List.mem_append_right _ List.mem_cons_self, rfl⟩
    cases call.enters_of_control hp' <;> first | trivial | exact hbegun | exact .inr hbegun
  · generalize y.activation = b at hm hp'
    cases hm with
    | step p frames =>
      refine isAnnounced_step ((ih _ hx p rfl).mono hpre) (Activation.control_follow.mp hp') ?_
      rintro k c d extra rfl
      refine List.any_eq_true.mpr ⟨_, hh ▸ List.mem_append_right _ List.mem_cons_self, ?_⟩
      exact decide_eq_true rfl
    | resume o f frames =>
      have hn := Activation.control_follow.mp hp'
      have hway := f.way_resume s.world o
      generalize (f.resume s.world o).next = n at hway hn
      cases hway <;> cases hn <;> trivial
    | answer => cases hp'

/-- Nobody but the request is registered with a cell that is left to it. -/
theorem Reachable.registersOnly (hs : Reachable allowed s) (h : s.LeavesTo c q) :
    s.RegistersOnly c q := by
  intro x hx handler hp
  have hannounced := hs.isAnnounced x hx _ hp
  cases handler with
  | callback id => exact absurd hannounced (h.handler id)
  | request r =>
    have hc : (s.world.request r).cell = c := hs.owns_of_ready hx hp
    rcases hannounced with hstart | hbegun
    · have hr := (hs.isActivated_of_ready hx hp (List.mem_singleton.mpr rfl) hstart).resolve_left
        (by rintro ⟨⟩)
      rw [h.activated r hr hc]
    · rw [h.begun r hbegun hc]

/-- The life of a cell that is left to a request ends with the request only. -/
private theorem Reachable.completed_of_expired (hs : Reachable allowed s) (h : s.LeavesTo c q)
    (he : (s.world.cell c).expired = true) : (s.world.request q).completed = true := by
  obtain ⟨r, hr, hi⟩ := (hs.isSpent_or_hasBegun he).resolve_right h.life
  rwa [← h.completed r hr hi]

/-- A pending request whose cell is left to it is served by a call, or waits in the cell. -/
private theorem Reachable.isServed (hs : Reachable allowed s)
    (h : s.LeavesTo (s.world.request q).cell q) (hpending : s.IsPending q) : s.IsServed q := by
  refine hs.induction (I := fun s => s.LeavesTo (s.world.request q).cell q → s.IsPending q →
    s.IsServed q) (fun _ _ _ h => by cases h.activated) (fun s m s' hs _ ht ih h hpending => ?_) h
    hpending
  have hleft (hq : s.IsActivated q) : s.LeavesTo (s.world.request q).cell q := by
    rw [← Request.cell_eq_of_fixed (ht.grows.request q (hs.lt_of_isActivated hq)).fixed]
    exact h.of_transition hs ht
  exact ht.isServed hs (fun hq _ => hs.registersOnly (hleft hq)) (fun h => ih (hleft h.activated) h)
    hpending

/-- When no call is in progress, a request whose cell is left to it is completed if the cell has a
result. -/
private theorem Reachable.completed_of_hasResult (hs : Reachable allowed s) (hi : s.IsIdle)
    (h : s.LeavesTo (s.world.request q).cell q) (hq : s.IsActivated q)
    (htimed : (s.world.request q).CanBeTimed s.world.clock)
    (hr : (s.world.cell (s.world.request q).cell).hasResult = true) :
    (s.world.request q).completed = true := by
  by_contra hopen
  have hexpired : (s.world.cell (s.world.request q).cell).expired = false :=
    Bool.eq_false_iff.mpr fun he => hopen (hs.completed_of_expired h he)
  have hwaits := (hs.isServed h ⟨hq, Bool.eq_false_iff.mpr hopen, hexpired, htimed⟩).waits hi
  have hsettled := hs.settled (s.world.request q).cell (by simp [hwaits])
  simp [Cell.isSetOrExpired, show (s.world.cell (s.world.request q).cell).result.isSome = true
    from hr] at hsettled

/-! ### The end of a request -/

/-- A request that a report names was activated and can be timed. -/
private theorem Reachable.activated_of_isReported (hs : Reachable allowed s) (hq : s.IsStarted q)
    (h : s.IsReported q) : s.IsActivated q ∧ (s.world.request q).CanBeTimed s.world.clock := by
  obtain ⟨n, call, -, hcall, hb, -⟩ := h
  obtain ⟨t, hb⟩ := mem_deeds.mp hb
  obtain ⟨s₀, hs₀, hl, hnamed⟩ := hs.exists_of_hasBegun (hasBegun_iff.mpr ⟨_, hb, rfl⟩)
  have hnamed : s₀.IsActivated q ∧ (s₀.world.request q).CanBeTimed s₀.world.clock := by
    rcases hnamed with ⟨-, -, hknown⟩ | ⟨x, hx, hcall'⟩
    · have hmem := hknown q hcall.mem_requests
      have hstart := hl.isStarted_of_lt (hs₀.isBounded.known q hmem) hq
      exact ⟨hs₀.isActivated_of_known hmem hstart, hs₀.canBeTimed_of_known hmem hstart⟩
    · rw [hcall'] at hcall
      obtain rfl : x.request = q := hcall
      have hstart := hl.isStarted_of_lt (hs₀.isBounded.world.timer x hx) hq
      exact ⟨hs₀.isActivated_of_timer hx hstart, hs₀.canBeTimed_of_timer hx⟩
  have hlt := hs₀.lt_of_isActivated hnamed.1
  exact ⟨hl.isActivated hnamed.1, (hl.grows.canBeTimed_iff hlt).mpr hnamed.2⟩

/-- When no call is in progress, a request has ended once its timeout or a failure was reported, as
long as its cell is left to it and none of the user code that is called on its completion raises a
failure that escapes. -/
theorem Reachable.ended_of_isReported (hs : Reachable Move.any s) (hi : s.IsIdle)
    (hq : s.IsStarted q) (hcell : s.LeavesTo (s.world.request q).cell q)
    (hfailures : ∀ f, s.HasFailed q f → f.isOrdinary = true) (h : s.IsReported q) :
    (s.world.request q).completed = true ∧
      (s.world.cell (s.world.request q).cell).expired = true ∧ ¬ s.IsInFlight q := by
  obtain ⟨hactivated, htimed⟩ := hs.activated_of_isReported hq h
  have hc : (s.world.request q).completed = true :=
    (hs.isDecided_of_isReported h).elim id (hs.completed_of_hasResult hi hcell hactivated htimed)
  have hstages : s.stages q = [] := by
    refine List.flatMap_eq_nil_iff.mpr fun x hx => ?_
    obtain ⟨r, hr⟩ := hi x hx
    rw [hr]
    rfl
  rcases hs.milestones_of_stages hc hstages with ⟨done, rest, -, hm⟩ | hm
  · have hstopped : s.IsStopped q := ⟨rest, by simp [hm]⟩
    obtain ⟨f, hescapes, hf⟩ := hs.hasFailed_of_isStopped hstopped
    simp [hfailures f hf] at hescapes
  · obtain ⟨k, hk⟩ := hs.listener_of_isStarted hq
    refine ⟨hc, hs.expired_of_isReleased hq (hs.isReleased_iff.mpr (by simp [hm])),
      hs.not_isInFlight_of_retired hq ?_⟩
    simp [hm, hk, Listener.milestones]

/-- A request fails while a resolution is on its way to it. The call that reports the failure finds
the result, and the call that hands it over completes the request. -/
def failedMeanwhile : List Move :=
  starting ++ .begin 1 (.setResult 0 (.text "A")) :: List.replicate 3 (.advance 1) ++
    .begin 2 (.fail 0 (.text "E")) :: List.replicate 9 (.advance 2) ++
    .finish 2 :: List.replicate 3 (.advance 1) ++
    .answer 1 (.error (.ordinary "ValueError" "late")) :: List.replicate 14 (.advance 1) ++
    [.finish 1]

theorem ended_failedMeanwhile : ∃ s, run { world := untimed } failedMeanwhile = some s ∧
    Reachable Move.any s ∧ s.IsIdle ∧ s.IsStarted 0 ∧ s.LeavesTo (s.world.request 0).cell 0 ∧
    (∀ f, s.HasFailed 0 f → f.isOrdinary = true) ∧ s.IsReported 0 ∧
    (s.world.request 0).completed = true ∧
    (s.world.cell (s.world.request 0).cell).expired = true ∧ ¬ s.IsInFlight 0 := by
  obtain ⟨s, hs⟩ : ∃ s, run { world := untimed } failedMeanwhile = some s := ⟨_, rfl⟩
  have hshown : (run { world := untimed } failedMeanwhile).map (fun s =>
      (s.ongoing, s.world.requestCount, s.calls, s.failures.map Prod.snd, (s.deeds 2).head?,
        (s.deeds 2).getLast?)) =
        some ([], 1, [.start 0 0 (some "d") [], .setResult 0 (.text "A"), .fail 0 (.text "E")],
          [.ordinary "ValueError" "late"], some (.begin (.fail 0 (.text "E"))),
          some (.finish (.returned .unit))) := rfl
  simp only [hs, Option.map_some, Option.some.injEq, Prod.mk.injEq] at hshown
  obtain ⟨hongoing, hcount, hcalls, hfailures, hbegin, hfinish⟩ := hshown
  have hreach : Reachable Move.any s := reachable_of_run isNew_untimed hs
  have hi : s.IsIdle := by simp [IsIdle, hongoing]
  have hzero {r : RequestId} (h : r < s.world.requestCount) : r = 0 :=
    Nat.lt_one_iff.mp (hcount ▸ h)
  have hleft : s.LeavesTo (s.world.request 0).cell 0 :=
    ⟨fun id h => by simp [HasBegun, hcalls] at h, fun h => by simp [HasBegun, hcalls] at h,
      fun r h => by simp [HasBegun, hcalls] at h,
      fun r hr _ => hzero (hreach.lt_of_isActivated hr),
      fun r hr _ => hzero (hreach.isBounded.world.lt_of_completed hr)⟩
  have hordinary : ∀ f, s.HasFailed 0 f → f.isOrdinary = true := by
    rintro f ⟨i, hmem, -⟩
    have hf : f ∈ s.failures.map Prod.snd := List.mem_map_of_mem hmem
    rw [hfailures, List.mem_singleton] at hf
    rw [hf]
    rfl
  have hreported : s.IsReported 0 :=
    ⟨2, .fail 0 (.text "E"), .unit, rfl, List.mem_of_head? hbegin, List.mem_of_getLast? hfinish⟩
  have hstart : s.IsStarted 0 := isStarted_of_run_starting hs
  exact ⟨s, hs, hreach, hi, hstart, hleft, hordinary, hreported,
    hreach.ended_of_isReported hi hstart hleft hordinary hreported⟩

end System

end Rendezvous
