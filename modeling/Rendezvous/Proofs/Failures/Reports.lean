import Rendezvous.Proofs.Cells.Representation
import Rendezvous.Proofs.Failures.Origins

/-!
# Reports of failures

Every failure that user code lets out is reported once, by the call in which it happened, under the
kind of the user code. A failure that was raised is reported in the next step of its call, but for
one of dispatch, which waits until the request is completed, and so while other user code runs and
fails. What user code has raised is therefore at every moment what was reported and what is on its
way, up to order. This holds if user code raises ordinary failures only; one that escapes is not
reported, and may take the place of another that waits.

## Main definitions

* `Lapse`: a failure of user code, with `Deed.lapse?`, `Notice.lapse?` and `Activation.lapses`:
  where it happens, where it is reported, and those of a call that are on their way.
* `Incident`: a failure of user code in a call.
* `System.reports`: what is noted in a run. `System.warnings`, `System.incidents`,
  `System.inFlight`: the failures that were reported, that happened and that are on their way.

## Main results

* `Activation.IsSound.lapses_moves`: a move of a call keeps the account of its failures.
* `System.reportsFailures_of_run`: in a run, every failure of user code is reported once, and none
  leaves the library.
-/

namespace Rendezvous

/-- A failure that user code of a kind let out. -/
structure Lapse where
  hook : Hook
  failure : Failure
  deriving DecidableEq

/-- The failure that user code lets out in a deed. A dispatch function that is missing fails as it
is called. -/
def Deed.lapse? : Deed → Option Lapse
  | .answer i (.raised f) => some ⟨i.role.hook, f⟩
  | .step (.request _ (.dispatch _)) (.call (.outcome (.raised f)) _) => some ⟨.handler, f⟩
  | _ => none

/-- The failure of user code that a notice reports. -/
def Notice.lapse? : Notice → Option Lapse
  | .contained site _ _ f => some ⟨site.hook, f⟩
  | _ => none

/-- The failure that waits in a frame until the request is completed. -/
def Frame.lapse? : Frame → Option Lapse
  | .outcome (.raised f) => some ⟨.handler, f⟩
  | _ => none

/-- The failure that arrives at the innermost frame of a call. -/
def Activation.arriving? (a : Activation) : Option Lapse :=
  match a.control, a.frames with
  | .ended (.raised f), g :: _ => g.hook?.map (⟨·, f⟩)
  | _, _ => none

/-- The failures of user code in a call that are on their way to be reported. -/
def Activation.lapses (a : Activation) : List Lapse :=
  a.arriving?.toList ++ a.frames.filterMap Frame.lapse?

/-- What is noted as a call does something. -/
def Deed.notices (w : World) : Deed → List Notice
  | .step p _ => (p.step w).notices
  | .resume f o _ => (f.resume w o).notices
  | _ => []

/-- Whether a deed neither calls anything nor takes the outcome of something called. -/
def Deed.isFlat : Deed → Bool
  | .begin _ | .step _ (.goto _) | .step _ (.finish _) | .finish _ => true
  | _ => false

/-- A failure of user code in a call. -/
structure Incident where
  thread : ThreadId
  number : CallNumber
  lapse : Lapse
  deriving DecidableEq

/-- A notice of a call. -/
structure Report where
  thread : ThreadId
  number : CallNumber
  notice : Notice

/-- The failure that happens in an event. -/
def Event.incident? (e : Event) : Option Incident :=
  e.deed.lapse?.map (.mk e.thread e.number)

/-- The failure that a report is about. -/
def Report.incident? (r : Report) : Option Incident :=
  r.notice.lapse?.map (.mk r.thread r.number)

/-- The failures of a call that are on their way to be reported. -/
def Ongoing.incidents (x : Ongoing) : List Incident :=
  x.activation.lapses.map (.mk x.thread x.number)

namespace System

/-- What is noted in a move. -/
def noted (s : System) : Move → List Report
  | .advance t =>
    match innermost? t s.ongoing with
    | none => []
    | some (_, x, _) =>
      match x.activation.step? s.world with
      | none => []
      | some (_, _, notices) => notices.map (.mk x.thread x.number)
  | _ => []

/-- What is noted in a sequence of moves. -/
def reports (s : System) : List Move → List Report
  | [] => []
  | m :: ms =>
    s.noted m ++ match s.take? m with
      | none => []
      | some s => s.reports ms

/-- The failures of user code that are reported in a sequence of moves. -/
def warnings (s : System) (ms : List Move) : List Incident :=
  (s.reports ms).filterMap Report.incident?

/-- The failures of user code that have happened, in order. -/
def incidents (s : System) : List Incident :=
  s.history.filterMap Event.incident?

/-- The failures of user code that are on their way to be reported. -/
def inFlight (s : System) : List Incident :=
  s.ongoing.flatMap Ongoing.incidents

end System

variable {w : World} {call : Call} {p : Point} {f : Frame} {frames : List Frame} {o : Outcome}
  {a : Activation} {d : Deed} {a' : Option Activation}

/-! ### One call -/

/-- No step reports a failure. -/
private theorem Point.lapses_step (w : World) (p : Point) :
    (p.step w).notices.filterMap Notice.lapse? = [] := by
  rcases p with ⟨c, p⟩ | ⟨q, p⟩ | ⟨k, p⟩
  · cases p with
    | ask query => cases query <;> rfl
    | _ => rfl
  · cases p with
    | arm | complete =>
      simp only [Point.step, RequestPoint.step]
      repeat' split
      all_goals rfl
    | tellListener =>
      simp only [Point.step, RequestPoint.step]
      split <;> rfl
    | _ => rfl
  · cases p with
    | activate q =>
      simp only [Point.step, CoordinatorPoint.step]
      split <;> rfl
    | _ => rfl

/-- A refusal is no failure of user code. -/
private theorem arriving?_of_refusing {e : Failure} (h : Failing.refusing.Fits call frames) :
    (⟨.ended (.raised e), frames⟩ : Activation).arriving? = none := by
  cases frames with
  | nil => rfl
  | cons f frames =>
    obtain ⟨a, rfl⟩ := h.2 f List.mem_cons_self
    rfl

/-- A deed that calls nothing lets no failure happen. -/
private theorem Deed.lapse?_of_isFlat (h : d.isFlat = true) : d.lapse? = none := by
  unfold lapse?
  split <;> first | rfl | cases h

/-- A setter does nothing but look until it comes to the block of the cell. -/
private theorem Seeking.isFlat {c : CellId} {r : Resolution} (h : Seeking w c r a)
    (hm : a.Moves w d a') : d.isFlat = true := by
  cases h <;> cases hm
  case refused => rfl
  all_goals
    simp only [Point.step, CellPoint.step]
    split <;> rfl

/-- A step takes up the failures that happen in it. -/
private theorem lapses_step (hp : p.failing.Fits call frames) :
    (Activation.follow frames (p.step w).next).lapses =
      (Deed.step p (p.step w).next).lapse?.toList ++ frames.filterMap Frame.lapse? := by
  have hway := p.way_step w
  cases hn : (p.step w).next with
  | goto p' =>
    rw [hn] at hway
    cases hway <;> rfl
  | call f p' =>
    rw [hn] at hway
    cases hway <;> rfl
  | invoke f i =>
    rw [hn] at hway
    cases hway <;> rfl
  | finish o =>
    rw [Deed.lapse?_of_isFlat rfl]
    cases o with
    | returned a => rfl
    | raised e =>
      rw [Point.failing_of_raised hn] at hp
      rw [Activation.follow, Activation.lapses, arriving?_of_refusing hp]

/-- A frame that takes an answer reports nothing; what it held back arrives below. -/
private theorem lapses_resume_returned {b : Answer} (hf : f.failing.Fits call frames) :
    (f.resume w (.returned b)).notices = [] ∧
      (Activation.follow frames (f.resume w (.returned b)).next).lapses =
        (f :: frames).filterMap Frame.lapse? := by
  rcases f with ⟨c, f⟩ | ⟨q, f⟩ | _ | _ | o
  · cases f with
    | fallback => cases b <;> exact ⟨rfl, rfl⟩
    | _ => exact ⟨rfl, rfl⟩
  · cases f <;> exact ⟨rfl, rfl⟩
  · exact ⟨rfl, rfl⟩
  · exact ⟨rfl, rfl⟩
  · refine ⟨rfl, ?_⟩
    cases o with
    | returned a => rfl
    | raised e =>
      cases frames with
      | nil => cases hf
      | cons g frames =>
        have hg : g.hook? = some .handler := hf
        simp [Frame.resume, Activation.follow, Activation.lapses, Activation.arriving?, hg,
          Frame.lapse?]

/-- A frame that called user code reports the ordinary failure that it takes, or holds it back. -/
private theorem lapses_resume_raised {e : Failure} {h : Hook} (he : e.isOrdinary = true)
    (hf : f.hook? = some h) :
    (f.resume w (.raised e)).notices.filterMap Notice.lapse? ++
        (Activation.follow frames (f.resume w (.raised e)).next).lapses =
      ⟨h, e⟩ :: (f :: frames).filterMap Frame.lapse? := by
  rcases f with ⟨c, f⟩ | ⟨q, f⟩ | _ | _ | _
  · cases f <;> cases hf <;>
      simp [Frame.resume, CellFrame.resume, contain, he, Activation.follow, Activation.lapses,
        Activation.arriving?, Next.ret, Notice.lapse?, Site.hook, Frame.lapse?,
        List.filterMap_cons]
  · cases f <;> cases hf <;>
      simp [Frame.resume, RequestFrame.resume, contain, he, Activation.follow, Activation.lapses,
        Activation.arriving?, Notice.lapse?, Site.hook, Frame.lapse?, List.filterMap_cons]
  all_goals cases hf

/-- A frame that goes on reports the failure that it takes, or holds it back. -/
private theorem lapses_resume (ha : (⟨.ended o, f :: frames⟩ : Activation).IsSound call) :
    (f.resume w o).notices.filterMap Notice.lapse? ++
        (Activation.follow frames (f.resume w o).next).lapses =
      (⟨.ended o, f :: frames⟩ : Activation).lapses := by
  obtain ⟨hstack, hcontrol⟩ := ha
  cases hstack with
  | cons _ _ hfits =>
  cases o with
  | returned b =>
    obtain ⟨hnotices, hlapses⟩ := lapses_resume_returned (w := w) (b := b) hfits
    rw [hnotices, hlapses]
    rfl
  | raised e =>
    obtain ⟨he, ⟨h, hh⟩ | hrefusing⟩ := hcontrol
    · have hf : f.hook? = some h := hh
      rw [lapses_resume_raised he hf]
      simp [Activation.lapses, Activation.arriving?, hf]
    · obtain ⟨a, rfl⟩ := hrefusing.2 f List.mem_cons_self
      have hbelow : Failing.refusing.Fits call frames :=
        ⟨hrefusing.1, fun g hg => hrefusing.2 g (List.mem_cons_of_mem _ hg)⟩
      simp only [Activation.lapses, Frame.resume, Next.fail, Activation.follow,
        arriving?_of_refusing hrefusing, arriving?_of_refusing hbelow]
      rfl

/-- A move of a call keeps the account of the failures of its user code: those that are reported
and those on their way afterwards are those that happen and those on their way before. -/
theorem Activation.IsSound.lapses_moves (ha : a.IsSound call) (hm : a.Moves w d a') :
    (d.notices w).filterMap Notice.lapse? ++ (a'.elim [] Activation.lapses) =
      d.lapse?.toList ++ a.lapses := by
  cases hm with
  | step p frames =>
    simp only [Deed.notices, Point.lapses_step, List.nil_append]
    exact lapses_step ha.control
  | resume o f frames => exact lapses_resume ha
  | answer i frames o =>
    have hfits : frames.head?.bind Frame.hook? = some i.role.hook := ha.control
    cases o with
    | returned b => rfl
    | raised e =>
      cases frames with
      | nil => cases hfits
      | cons f frames =>
        have hf : f.hook? = some i.role.hook := hfits
        simp [Deed.notices, Activation.lapses, Activation.arriving?, Deed.lapse?, hf]
  | finish o =>
    cases o <;> rfl

namespace System

variable {s s' : System} {m : Move} {allowed : Move → Prop} {n : CallNumber}

/-! ### Runs -/

private theorem lapses_activation (c : Call) : c.activation.lapses = [] := by
  rw [Activation.lapses, Call.frames_activation, List.filterMap_nil, List.append_nil]
  cases h : c.control <;> simp [Activation.arriving?, Call.activation, h]

/-- What is noted in a move belongs to what a call does in it. -/
private theorem Transition.noted (ht : Transition s m s') :
    (s.noted m = [] ∧ s'.inFlight = s.inFlight ∧ s'.incidents = s.incidents) ∨
    ∃ newer older t k a d a', s.ongoing = newer ++ ⟨t, k, a⟩ :: older ∧
      a.Moves s.world d a' ∧ s'.history = s.history ++ [⟨t, k, d⟩] ∧
      s'.ongoing = newer ++ ((a'.map fun a => ⟨t, k, a⟩).toList ++ older) ∧
      s.noted m = (d.notices s.world).map (.mk t k) := by
  have hbegin (t : ThreadId) (c : Call) (w : World) :
      (s.enter t c w).inFlight = s.inFlight ∧ (s.enter t c w).incidents = s.incidents := by
    constructor
    · simp [inFlight, enter, Ongoing.incidents, lapses_activation]
    · simp [incidents, enter, Event.incident?, Deed.lapse?]
  have hi {newer older : List Ongoing} {x : Ongoing} (he : s.ongoing = newer ++ x :: older)
      (hn : ∀ y ∈ newer, y.thread ≠ x.thread) :
      innermost? x.thread s.ongoing = some (newer, x, older) := he ▸ innermost?_append rfl hn
  cases ht with
  | begin t c => exact .inl ⟨rfl, hbegin t c _⟩
  | fire t x => exact .inl ⟨rfl, hbegin t _ _⟩
  | make => exact .inl ⟨rfl, rfl, rfl⟩
  | step newer older t k p frames he hn hp =>
    refine .inr ⟨newer, older, t, k, _, _, _, he, .step p frames, rfl, rfl, ?_⟩
    simp [System.noted, hi he hn, Activation.step?, hp, Deed.notices]
  | resume newer older t k o f frames he hn =>
    refine .inr ⟨newer, older, t, k, _, _, _, he, .resume o f frames, rfl, rfl, ?_⟩
    simp [System.noted, hi he hn, Activation.step?, Deed.notices]
  | answer newer older t k i frames a he =>
    exact .inr ⟨newer, older, t, k, _, _, _, he, .answer i frames _, rfl, rfl, rfl⟩
  | finish newer older t k o he =>
    exact .inr ⟨newer, older, t, k, _, _, _, he, .finish o, rfl, rfl, rfl⟩

/-- A move keeps the account of the failures of user code. -/
private theorem Transition.account (ht : Transition s m s') (hs : Reachable allowed s)
    (ho : s.IsOrdinary) {reported : List Incident}
    (h : (reported ++ s.inFlight).Perm s.incidents) :
    (reported ++ (s.noted m).filterMap Report.incident? ++ s'.inFlight).Perm s'.incidents := by
  rcases ht.noted with ⟨hnoted, hflight, hincidents⟩ |
    ⟨newer, older, t, k, a, d, a', he, hm, hh, ho', hnoted⟩
  · rw [hnoted, hflight, hincidents]
    simpa using h
  · obtain ⟨call, -, hsound⟩ := hs.isSound ho (x := ⟨t, k, a⟩) (he ▸ by simp)
    have hlapses := congrArg (List.map (Incident.mk t k)) (hsound.lapses_moves hm)
    have hreported : (s.noted m).filterMap Report.incident? =
        ((d.notices s.world).filterMap Notice.lapse?).map (.mk t k) := by
      rw [hnoted, List.filterMap_map, List.map_filterMap]
      rfl
    have hbefore : s.inFlight = newer.flatMap Ongoing.incidents ++
        (a.lapses.map (.mk t k) ++ older.flatMap Ongoing.incidents) := by
      simp [inFlight, he, Ongoing.incidents]
    have hafter : s'.inFlight = newer.flatMap Ongoing.incidents ++
        ((a'.elim [] Activation.lapses).map (.mk t k) ++ older.flatMap Ongoing.incidents) := by
      cases a' <;> simp [inFlight, ho', Ongoing.incidents]
    have hincidents : s'.incidents = s.incidents ++ d.lapse?.toList.map (.mk t k) := by
      rw [incidents, hh, filterMap_append_cons, List.filterMap_nil, List.append_nil]
      cases hd : d.lapse? <;> simp [incidents, Event.incident?, hd]
    rw [List.perm_iff_count] at h ⊢
    intro x
    have hx := h x
    have hl := congrArg (List.count x) hlapses
    simp only [hreported, hbefore, hafter, hincidents, List.map_append, List.count_append]
      at hx hl ⊢
    omega

/-- The failures of user code that were reported in a run and those on their way are those that
happened. -/
private theorem warnings_append_inFlight {ms : List Move} (hs : Reachable Move.any s)
    {reported : List Incident} (h : (reported ++ s.inFlight).Perm s.incidents)
    (hrun : s.run ms = some s') (ho : s'.IsOrdinary) :
    (reported ++ s.warnings ms ++ s'.inFlight).Perm s'.incidents := by
  induction ms generalizing s reported with
  | nil =>
    cases hrun
    simpa [warnings, reports] using h
  | cons m ms ih =>
    obtain ⟨s₁, h₁, hrun⟩ := Option.bind_eq_some_iff.mp hrun
    have hwhole : s.run (m :: ms) = some s' := Option.bind_eq_some_iff.mpr ⟨s₁, h₁, hrun⟩
    have hl : Leads Move.any s s' := leads_of_run (fun _ _ => trivial) hwhole
    have hfirst := (transition_of_take? h₁).account hs (ho.of_prefix hl.history_prefix) h
    have hrest := ih (hs.leads (.move m .refl trivial h₁)) hfirst hrun
    simpa [warnings, reports, h₁] using hrest

/-! ### Calls that lose their race -/

/-- A call that did nothing but look and give up let no failure happen. -/
private theorem number_ne_of_isFlat (h : ∀ d ∈ s.deeds n, d.isFlat = true) :
    ∀ x ∈ s.incidents, x.number ≠ n := by
  rintro x hx rfl
  obtain ⟨⟨t, k, d⟩, he, hd⟩ := List.mem_filterMap.mp hx
  obtain ⟨l, hl, rfl⟩ := Option.map_eq_some_iff.mp hd
  have hflat := h d (mem_deeds.mpr ⟨t, he⟩)
  rw [show d.lapse? = none from Deed.lapse?_of_isFlat hflat] at hl
  cases hl

/-- A call that tries to resolve a cell does nothing but look until the cell takes its
resolution. -/
private theorem Reachable.isFlat_or_accepts (hs : Reachable allowed s) {c : CellId} {r : Resolution}
    (hcall : call.assigns? = some (c, r)) : ∀ n, (s.deeds n).head? = some (.begin call) →
      (∀ d ∈ s.deeds n, d.isFlat = true) ∨ ∃ d ∈ s.deeds n, d.Accepts c r := by
  refine hs.induction (I := fun s => ∀ n, (s.deeds n).head? = some (.begin call) →
    (∀ d ∈ s.deeds n, d.isFlat = true) ∨ ∃ d ∈ s.deeds n, d.Accepts c r)
    (fun _ _ n hb => by cases hb) fun s m s' hs _ ht ih n hb => ?_
  rcases ht.moves with ⟨hh, -⟩ | ⟨t, call', hh, -⟩ | ⟨newer, older, t, k, a, d, a', he, hm, hh, -⟩
  · have hdeeds : s'.deeds n = s.deeds n := by rw [deeds, deeds, hh]
    exact hdeeds ▸ ih n (hdeeds ▸ hb)
  · have hdeeds := deeds_append hh n
    split at hdeeds
    · rename_i hn
      rw [hdeeds, show n = s.begun from hn.symm, hs.isNumbered.deeds_begun]
      exact .inl fun d hd => List.mem_singleton.mp hd ▸ rfl
    · exact hdeeds ▸ ih n (hdeeds ▸ hb)
  · have hdeeds := deeds_append hh n
    split at hdeeds
    · rename_i hn
      obtain rfl : k = n := hn
      obtain ⟨hne, hsetting⟩ := hs.isSetting (x := ⟨t, k, a⟩) (he ▸ by simp) call c r
      rw [hdeeds, List.head?_append_of_ne_nil _ hne] at hb
      rw [hdeeds]
      rcases ih k hb with hflat | ⟨d', hd', haccepts⟩
      · rcases hsetting hb hcall with ⟨hseeking, -⟩ | ⟨-, d', hd', haccepts⟩
        · left
          intro d' hd'
          rcases List.mem_append.mp hd' with hd' | hd'
          · exact hflat d' hd'
          · exact List.mem_singleton.mp hd' ▸ hseeking.isFlat hm
        · exact .inr ⟨d', List.mem_append_left _ hd', haccepts⟩
      · exact .inr ⟨d', List.mem_append_left _ hd', haccepts⟩
    · exact hdeeds ▸ ih n (hdeeds ▸ hb)

/-- A setter that was rejected did nothing but look. -/
private theorem Reachable.isFlat_of_rejected (hs : Reachable allowed s)
    (hcall : call.assigns?.isSome = true) (hb : (s.deeds n).head? = some (.begin call))
    (ho : .finish (.returned (.flag false)) ∈ s.deeds n) : ∀ d ∈ s.deeds n, d.isFlat = true := by
  obtain ⟨⟨c, r⟩, hcall⟩ := Option.isSome_iff_exists.mp hcall
  refine (hs.isFlat_or_accepts hcall n hb).resolve_right fun haccepts => ?_
  obtain ⟨t, hmem⟩ := mem_acceptances_iff.mpr haccepts
  rcases hs.outcome_of_assigns hcall hb ho with ⟨h | ⟨f, h, -⟩, -⟩ | ⟨-, hnone⟩
  · cases h
  · cases h
  · exact hnone _ hmem rfl

/-! ### What is reported -/

/-- How the failures of user code are reported. -/
structure ReportsFailures (s : System) (reported : List Incident) : Prop where
  /-- What was reported and what is on its way is what happened, one for one: in the same call, of
  the same kind and with the same failure. -/
  account : (reported ++ s.inFlight).Perm s.incidents
  /-- When no call is in progress, everything that happened was reported. -/
  idle : s.IsIdle → reported.Perm s.incidents
  /-- No failure leaves a call that cannot be refused. -/
  returned (n : CallNumber) (call : Call) (o : Outcome)
    (hb : (s.deeds n).head? = some (.begin call)) (ho : .finish o ∈ s.deeds n)
    (hcall : call.isRefusable = false) : ∃ a, o = .returned a
  /-- A call that looks and gives up reports nothing. -/
  silent (n : CallNumber) (h : ∀ d ∈ s.deeds n, d.isFlat = true) : ∀ x ∈ reported, x.number ≠ n
  /-- A setter that was rejected reports nothing. -/
  rejected (n : CallNumber) (call : Call) (hcall : call.assigns?.isSome = true)
    (hb : (s.deeds n).head? = some (.begin call))
    (ho : .finish (.returned (.flag false)) ∈ s.deeds n) : ∀ x ∈ reported, x.number ≠ n

/-- In every run in which user code raises ordinary failures only, whatever it calls meanwhile,
every failure that it lets out is reported once, under its kind, and none leaves the library. -/
theorem reportsFailures_of_run (hw : w.IsNew) {ms : List Move}
    (hrun : run { world := w } ms = some s) (ho : s.IsOrdinary) :
    s.ReportsFailures (warnings { world := w } ms) := by
  have hs : Reachable Move.any s := reachable_of_run hw hrun
  have hnew : Reachable Move.any { world := w } := ⟨w, hw, .refl⟩
  have hnone : ([] ++ inFlight { world := w }).Perm (incidents { world := w }) := .nil
  have haccount : (warnings { world := w } ms ++ s.inFlight).Perm s.incidents :=
    warnings_append_inFlight hnew hnone hrun ho
  have hsilent (n : CallNumber) (h : ∀ d ∈ s.deeds n, d.isFlat = true) :
      ∀ x ∈ warnings { world := w } ms, x.number ≠ n := fun x hx =>
    number_ne_of_isFlat h x (haccount.subset (List.mem_append_left _ hx))
  refine ⟨haccount, fun hi => ?_, fun n call o hb ho' hcall => ?_, hsilent,
    fun n call hcall hb ho' => hsilent n (hs.isFlat_of_rejected hcall hb ho')⟩
  · have hnone : s.inFlight = [] := List.flatMap_eq_nil_iff.mpr fun x hx => by
      obtain ⟨q, hq⟩ := hi x hx
      rw [Ongoing.incidents, hq, lapses_activation, List.map_nil]
    rwa [hnone, List.append_nil] at haccount
  · cases o with
    | returned a => exact ⟨a, rfl⟩
    | raised e =>
      rw [hs.isRefusable_of_raised ho hb ho'] at hcall
      cases hcall

/-- A new world with a cell whose callbacks fail. -/
def failingCallbacks : World :=
  untimed.setCell 0 { onTimeout := some "t", fallback := .computed "f", onCompletion := some "c" }

private theorem isNew_failingCallbacks : failingCallbacks.IsNew where
  cell c := by
    rw [failingCallbacks, World.cell_setCell]
    split
    · exact ⟨rfl, rfl, rfl⟩
    · exact isNew_untimed.cell c
  active := isNew_untimed.active
  requestCount := rfl
  requests := rfl
  timers := rfl

/-- User code raises an ordinary failure. -/
def raising (message : String) : Move :=
  .answer 1 (.error (.ordinary "ValueError" message))

/-- A request times out. The timeout callback of its cell fails. The fallback is computed, dispatch
fails, and so do the completion hook of the other interceptor and the completion callback. Then a
setter is rejected. -/
def failingThroughout : List Move :=
  .begin 0 (.start 0 0 (some "d") [.custom "a" "b" "z"]) :: List.replicate 9 (.advance 0) ++
    .finish 0 :: .begin 1 (.timeOut 0) :: List.replicate 4 (.advance 1) ++ raising "callback" ::
    List.replicate 2 (.advance 1) ++ .answer 1 (.ok (.text "F")) :: List.replicate 8 (.advance 1) ++
    raising "dispatch" :: List.replicate 4 (.advance 1) ++ raising "hook" ::
    List.replicate 4 (.advance 1) ++ raising "completion" :: List.replicate 12 (.advance 1) ++
    [.finish 1, .begin 0 (.setResult 0 (.text "A")), .advance 0, .finish 0]

theorem reportsFailures_failingThroughout : ∃ s,
    run { world := failingCallbacks } failingThroughout = some s ∧ s.IsIdle ∧
    (warnings { world := failingCallbacks } failingThroughout).Perm s.incidents ∧
    s.incidents.map (fun x => (x.lapse.hook, x.lapse.failure.message)) =
      [(.timeout, "callback"), (.handler, "dispatch"), (.completion, "hook"),
        (.completion, "completion")] ∧
    .finish (.returned .unit) ∈ s.deeds 1 ∧ (∀ o, .finish o ∈ s.deeds 1 → ∃ a, o = .returned a) ∧
    .finish (.returned (.flag false)) ∈ s.deeds 2 ∧
    ∀ x ∈ warnings { world := failingCallbacks } failingThroughout, x.number ≠ 2 := by
  obtain ⟨s, hs⟩ : ∃ s, run { world := failingCallbacks } failingThroughout = some s := ⟨_, rfl⟩
  have hshown : (run { world := failingCallbacks } failingThroughout).map (fun s => (s.ongoing,
      s.failures.all (·.2.isOrdinary),
      s.incidents.map (fun x => (x.lapse.hook, x.lapse.failure.message)),
      (s.deeds 1).head?, (s.deeds 1).getLast?, (s.deeds 2).head?, (s.deeds 2).getLast?)) =
        some ([], true, [(.timeout, "callback"), (.handler, "dispatch"), (.completion, "hook"),
          (.completion, "completion")], some (.begin (.timeOut 0)),
          some (.finish (.returned .unit)), some (.begin (.setResult 0 (.text "A"))),
          some (.finish (.returned (.flag false)))) := rfl
  simp only [hs, Option.map_some, Option.some.injEq, Prod.mk.injEq] at hshown
  obtain ⟨hongoing, hfailures, hincidents, hbegin, hend, hbegin', hend'⟩ := hshown
  have hi : s.IsIdle := by simp [IsIdle, hongoing]
  have hreports := reportsFailures_of_run isNew_failingCallbacks hs (List.all_eq_true.mp hfailures)
  have hmem := List.mem_of_getLast? hend'
  exact ⟨s, hs, hi, hreports.idle hi, hincidents, List.mem_of_getLast? hend,
    fun o ho => hreports.returned 1 _ o hbegin ho rfl, hmem,
    hreports.rejected 2 _ rfl hbegin' hmem⟩

end System

end Rendezvous
