import Rendezvous.Proofs.Independence.Mirrors

/-!
# Runs in a region

A call that works in a region, with user code that calls into the region only, runs to its end
without a trace outside: other cells and requests are as they were, with their alarms, and so is
what coordinators have in flight for other cells. What it makes, it makes in its region.

If all its starts are made with one coordinator, then that coordinator counts them. The numbers of
the new requests and the names of their timers run in parallel.

## Main definitions

* `Conduct.within`: user code that keeps to a region and to one coordinator.
* `Activation.IsConfined`: a call in progress that keeps to them.
* `World.Confines`: what such a call leaves behind.
* `Deed.IsOn`: what a call does on a region.

## Main results

* `Activation.Unfolds.confines`: a run leaves everything outside of its region as it was.
* `Activation.Unfolds.isOn`: all that it does, it does on its region.
-/

namespace Rendezvous

variable {k : CoordinatorId} {S : CellId → Prop} {w w' w'' : World} {p : Point} {q : RequestId}

/-- User code that calls into a region only, starts requests with one coordinator only, and answers
as it likes. -/
def Conduct.within (k : CoordinatorId) (S : CellId → Prop) : Conduct where
  mayCall w c := c.IsIn S w ∧ c.IsLocal k
  mayAnswer _ _ _ := True

/-- Whether a call in progress keeps to a region and to one coordinator. -/
structure Activation.IsConfined (k : CoordinatorId) (S : CellId → Prop) (w : World)
    (a : Activation) : Prop extends Activation.IsIn S w a where
  isLocal (p : Point) (hp : a.control = .ready p) : p.IsLocal k

/-- What a run in a region leaves behind, with starts by one coordinator. -/
structure World.Confines (k : CoordinatorId) (S : CellId → Prop) (w w' : World) : Prop extends
    w.Spares S w' where
  grows : w.Grows w'
  alarms (q : RequestId) (hq : q < w.requestCount) (h : ¬ S (w.request q).cell) :
    w'.alarms q = w.alarms q
  settings (j : CoordinatorId) : (w'.coordinator j).settings = (w.coordinator j).settings
  now : w'.now = w.now
  /-- New requests belong to the region. -/
  made (q : RequestId) (hq : w.requestCount ≤ q) (hq' : q < w'.requestCount) : w'.Owns S q
  /-- The coordinator has drawn a number for each. -/
  drawn : (w'.coordinator k).drawn + w.requestCount = (w.coordinator k).drawn + w'.requestCount
  drawn_of_ne (j : CoordinatorId) (hj : j ≠ k) :
    (w'.coordinator j).drawn = (w.coordinator j).drawn
  timerName (n : Nat) (hn : w.requestCount + n < w'.requestCount) :
    (w'.request (w.requestCount + n)).timerName =
      (w.coordinator k).settings.timerPrefix ++ "-" ++
        toString ((w.coordinator k).drawn + n + 1)

/-- Whether something that a call does is done on a region. -/
def Deed.IsOn (S : CellId → Prop) (w : World) : Deed → Prop
  | .step (.cell c _) _ | .resume (.cell c _) _ _ => S c
  | .step (.request q _) _ | .resume (.request q _) _ _
  | .step (.coordinator _ (.noteStart q)) _ => w.Owns S q
  | _ => True

/-! ### Steps -/

/-- A coordinator counts its starts. -/
theorem Point.draws_step (w : World) (p : Point) :
    ((p.step w).world.requestCount = w.requestCount ∧
      ∀ j, ((p.step w).world.coordinator j).drawn = (w.coordinator j).drawn) ∨
    ∃ j c d extra, p = .coordinator j (.draw c d extra) ∧
      (p.step w).world.requestCount = w.requestCount + 1 ∧
      ((p.step w).world.coordinator j).drawn = (w.coordinator j).drawn + 1 ∧
      ∀ i, i ≠ j → ((p.step w).world.coordinator i).drawn = (w.coordinator i).drawn := by
  generalize hstep : (p.step w).world = w'
  have h : p.Writes w w' := hstep ▸ p.writes_step w
  cases h with
  | draw j c d extra =>
    refine .inr ⟨j, c, d, extra, rfl, rfl, by simp, fun i hi => ?_⟩
    rw [World.coordinator_addRequest, World.coordinator_setCoordinator, if_neg hi]
  | activate j | retire j =>
    refine .inl ⟨rfl, fun i => ?_⟩
    rw [World.coordinator_setCoordinator]
    split
    · subst_vars
      rfl
    · rfl
  | cancelTimer => exact .inl ⟨by simp, by simp⟩
  | _ => exact .inl ⟨rfl, fun _ => rfl⟩

/-- Settings are never changed. -/
theorem Point.settings_step (w : World) (p : Point) (j : CoordinatorId) :
    ((p.step w).world.coordinator j).settings = (w.coordinator j).settings := by
  generalize hstep : (p.step w).world = w'
  have h : p.Writes w w' := hstep ▸ p.writes_step w
  have hset {i : CoordinatorId} {x : Coordinator} (hx : x.settings = (w.coordinator i).settings) :
      ((w.setCoordinator i x).coordinator j).settings = (w.coordinator j).settings := by
    rw [World.coordinator_setCoordinator]
    split
    · subst_vars
      exact hx
    · rfl
  cases h with
  | draw | activate | retire => exact hset rfl
  | cancelTimer => simp
  | _ => rfl

/-- Time passes in no step. -/
theorem Point.now_step (w : World) (p : Point) : (p.step w).world.now = w.now := by
  generalize hstep : (p.step w).world = w'
  have h : p.Writes w w' := hstep ▸ p.writes_step w
  cases h with
  | cancelTimer =>
    unfold World.cancel
    split <;> rfl
  | _ => rfl

namespace World.Confines

theorem refl (w : World) : w.Confines k S w where
  toSpares := .refl w
  grows := .refl w
  alarms _ _ _ := rfl
  settings _ := rfl
  now := rfl
  made _ hq hq' := absurd hq' (Nat.not_lt.mpr hq)
  drawn := rfl
  drawn_of_ne _ _ := rfl
  timerName _ hn := absurd hn (Nat.not_lt.mpr (Nat.le_add_right _ _))

theorem trans (h : w.Confines k S w') (h' : w'.Confines k S w'') : w.Confines k S w'' where
  toSpares := h.toSpares.trans h'.toSpares h.grows
  grows := h.grows.trans h'.grows
  alarms q hq hc := by
    have hc' : ¬ S (w'.request q).cell := h.request q hq hc ▸ hc
    rw [h'.alarms q (Nat.lt_of_lt_of_le hq h.grows.requestCount) hc', h.alarms q hq hc]
  settings j := (h'.settings j).trans (h.settings j)
  now := h'.now.trans h.now
  made q hq hq' := by
    by_cases hmade : q < w'.requestCount
    · exact (h.made q hq hmade).grow h'.grows
    · exact h'.made q (Nat.not_lt.mp hmade) hq'
  drawn := by
    have h₁ := h.drawn
    have h₂ := h'.drawn
    omega
  drawn_of_ne j hj := (h'.drawn_of_ne j hj).trans (h.drawn_of_ne j hj)
  timerName n hn := by
    by_cases hmade : w.requestCount + n < w'.requestCount
    · rw [← h.timerName n hmade]
      show (Request.fixed _).timerName = (Request.fixed _).timerName
      rw [(h'.grows.request _ hmade).fixed]
    · obtain ⟨i, hi⟩ := Nat.exists_eq_add_of_le (Nat.not_lt.mp hmade)
      have hnumber : (w'.coordinator k).drawn + i = (w.coordinator k).drawn + n := by
        have hdrawn := h.drawn
        omega
      rw [hi] at hn ⊢
      rw [h'.timerName i hn, h.settings, hnumber]

/-- What is confined to a region is confined to a larger one. -/
theorem mono {T : CellId → Prop} (h : w.Confines k S w') (hST : ∀ c, S c → T c) :
    w.Confines k T w' where
  cell c hc := h.cell c (mt (hST c) hc)
  request q hq hc := h.request q hq (mt (hST _) hc)
  active j c hc := h.active j c (mt (hST c) hc)
  grows := h.grows
  alarms q hq hc := h.alarms q hq (mt (hST _) hc)
  settings := h.settings
  now := h.now
  made q hq hq' := (h.made q hq hq').mono hST
  drawn := h.drawn
  drawn_of_ne := h.drawn_of_ne
  timerName := h.timerName

end World.Confines

/-- A step of local code of a region. -/
theorem Point.IsIn.confines (h : p.IsIn S w) (hlocal : p.IsLocal k) (hw : w.KeepsTimers) :
    w.Confines k S (p.step w).world := by
  have halarms (q : RequestId) (hq : q < w.requestCount) (hc : ¬ S (w.request q).cell) :
      (p.step w).world.alarms q = w.alarms q := by
    rcases Point.alarms_step (p := p) hw hq with he | rfl | rfl
    · exact he
    all_goals exact absurd h.cell hc
  rcases p.draws_step w with ⟨hcount, hdrawn⟩ | ⟨j, c, d, extra, rfl, hcount, hdrawn, hother⟩
  · refine ⟨h.spares, p.grows_step w, halarms, p.settings_step w, p.now_step w, fun q hq hq' => ?_,
      ?_, fun j _ => hdrawn j, fun n hn => ?_⟩
    · exact absurd (hcount ▸ hq') (Nat.not_lt.mpr hq)
    · rw [hcount, hdrawn]
    · exact absurd (hcount ▸ hn) (Nat.not_lt.mpr (Nat.le_add_right _ _))
  · obtain rfl : j = k := hlocal
    have hnew := Point.request_step_draw w j c d extra
    refine ⟨h.spares, Point.grows_step w _, halarms, Point.settings_step w _, Point.now_step w _,
      fun q hq hq' => ?_, ?_, hother, fun n hn => ?_⟩
    · have hle : q ≤ w.requestCount := Nat.le_of_lt_succ (Nat.lt_of_lt_of_eq hq' hcount)
      obtain rfl : q = w.requestCount := Nat.le_antisymm hle hq
      refine ⟨hq', by rw [hnew]; exact h.1, fun i hi => ?_⟩
      rw [hnew] at hi
      rcases List.mem_cons.mp hi with hi | hi
      · cases hi
        exact h.1
      · exact h.2 i hi
    · rw [hcount, hdrawn, Nat.add_right_comm, Nat.add_assoc]
    · obtain rfl : n = 0 := by
        rw [hcount] at hn
        omega
      rw [Nat.add_zero, hnew]
      rfl

theorem Point.IsIn.keepsTimers (h : p.IsIn S w) (hw : w.KeepsTimers) :
    (p.step w).world.KeepsTimers :=
  hw.step fun _ hq => by
    subst hq
    exact h.made

/-! ### Calls in progress -/

namespace Activation

variable {a : Activation} {frames : List Frame} {o : Outcome}

namespace IsConfined

theorem of_call {c : Call} (h : c.IsIn S w) (hlocal : c.IsLocal k) :
    IsConfined k S w c.activation :=
  ⟨h.activation, fun _ hp => hlocal.point (Call.enters_of_control hp)⟩

theorem step (h : IsConfined k S w ⟨.ready p, frames⟩) (hw : w.IsClosed S) :
    IsConfined k S (p.step w).world (follow frames (p.step w).next) :=
  ⟨h.toIsIn.step hw, fun g hg => (h.isLocal p rfl).next g (control_follow.mp hg)⟩

theorem resume {f : Frame} (h : IsConfined k S w ⟨.ended o, f :: frames⟩) :
    IsConfined k S w (follow frames (f.resume w o).next) :=
  ⟨h.toIsIn.resume, fun g hg => Frame.isLocal_next g (control_follow.mp hg)⟩

theorem answer {i : Invocation} (h : IsConfined k S w ⟨.inside i, frames⟩) :
    IsConfined k S w ⟨.ended o, frames⟩ :=
  ⟨.ended h.frame, fun _ hp => (nomatch hp)⟩

theorem inside {i : Invocation} (h : IsConfined k S w ⟨.inside i, frames⟩) (hw : w.Grows w') :
    IsConfined k S w' ⟨.inside i, frames⟩ :=
  ⟨.inside fun f hf => (h.frame f hf).grow hw, fun _ hp => (nomatch hp)⟩

end IsConfined

/-! ### Runs -/

namespace Unfolds

variable {acts : List Act}

/-- A run in a region leaves everything outside as it was. -/
theorem confines (h : a.Unfolds (.within k S) w acts w' o) (ha : a.IsConfined k S w)
    (hw : w.IsClosed S) (htimers : w.KeepsTimers) :
    w.Confines k S w' ∧ w'.IsClosed S ∧ w'.KeepsTimers := by
  induction h with
  | ended w o => exact ⟨.refl w, hw, htimers⟩
  | @step w w' p frames acts o hp h ih =>
    have hpoint := ha.point p rfl
    obtain ⟨hrest, hend⟩ := ih (ha.step hw) (hpoint.isClosed hw) (hpoint.keepsTimers htimers)
    exact ⟨(hpoint.confines (ha.isLocal p rfl) htimers).trans hrest, hend⟩
  | resume h ih => exact ih ha.resume hw htimers
  | answer _ h ih => exact ih ha.answer hw htimers
  | call hc hinner h ih₁ ih₂ =>
    obtain ⟨hcallee, hw₁, htimers₁⟩ := ih₁ (.of_call hc.1 hc.2) hw htimers
    obtain ⟨hrest, hend⟩ := ih₂ (ha.inside hcallee.grows) hw₁ htimers₁
    exact ⟨hcallee.trans hrest, hend⟩

end Unfolds

end Activation

/-! ### What is done -/

section Deeds

variable {f : Frame} {o : Outcome} {n : Next}

theorem Deed.IsOn.of_point (h : p.IsIn S w) : (Deed.step p n).IsOn S w := by
  rcases p with ⟨c, p⟩ | ⟨q, p⟩ | ⟨j, p⟩
  · show S c
    unfold Point.IsIn at h
    split at h <;> simp_all
  · show w.Owns S q
    unfold Point.IsIn at h
    split at h <;> simp_all
  · cases p <;> first | exact h | trivial

theorem Deed.IsOn.of_frame (h : f.IsIn S w) : (Deed.resume f o n).IsOn S w := by
  rcases f with ⟨c, f⟩ | ⟨q, f⟩ | ⟨j, m, rest⟩ | x | x
  · exact h
  · show w.Owns S q
    unfold Frame.IsIn at h
    split at h <;> simp_all
  all_goals trivial

theorem Deed.IsOn.grow {d : Deed} (h : d.IsOn S w) (hw : w.Grows w') : d.IsOn S w' := by
  unfold Deed.IsOn at h ⊢
  split at h <;> first | exact h | exact h.grow hw

end Deeds

/-- All that a run in a region does, it does on the region. -/
theorem Activation.Unfolds.isOn {a : Activation} {acts : List Act} {o : Outcome}
    (h : a.Unfolds (.within k S) w acts w' o) (ha : a.IsConfined k S w) (hw : w.IsClosed S)
    (htimers : w.KeepsTimers) : ∀ x ∈ acts, x.deed.IsOn S w' := by
  induction h with
  | ended => simp
  | @step w w' p frames acts o hp h ih =>
    have hpoint := ha.point p rfl
    refine List.forall_mem_cons.mpr ⟨?_, ih (ha.step hw) (hpoint.isClosed hw)
      (hpoint.keepsTimers htimers)⟩
    exact (Deed.IsOn.of_point hpoint).grow ((p.grows_step w).trans h.grows)
  | @resume w w' f frames x acts o h ih =>
    refine List.forall_mem_cons.mpr ⟨?_, ih ha.resume hw htimers⟩
    exact (Deed.IsOn.of_frame (ha.frame f List.mem_cons_self)).grow h.grows
  | answer _ _ ih => exact List.forall_mem_cons.mpr ⟨trivial, ih ha.answer hw htimers⟩
  | call hc hinner h ih₁ ih₂ =>
    have hcallee := IsConfined.of_call hc.1 hc.2
    obtain ⟨hconfines, hw₁, htimers₁⟩ := hinner.confines hcallee hw htimers
    have hinside := ih₁ hcallee hw htimers
    have hrest := ih₂ (ha.inside hconfines.grows) hw₁ htimers₁
    refine List.forall_mem_cons.mpr ⟨trivial, List.forall_mem_append.mpr
      ⟨fun x hx => (hinside x hx).grow h.grows, List.forall_mem_cons.mpr ⟨trivial, hrest⟩⟩⟩

end Rendezvous
