import Rendezvous.Proofs.Independence.Confinement

/-!
# The same run elsewhere

A call that works in a region runs in the same way wherever the region looks the same. It does the
same under other numbers of requests, user code answers the same and calls the same, and at the end
the region looks the same again.

## Main definitions

* `choices`: what user code does in a run.

## Main results

* `World.Confines.mirrors_after`, `World.Confines.mirrors_before`: a run in one region changes no
  other one.
* `Activation.Unfolds.eq_of_choices`: the choices of user code determine a run.
* `Activation.Unfolds.exists_mirrored`: a run in a region is one in every world in which the region
  looks the same.
-/

namespace Rendezvous

variable {k : CoordinatorId} {S : CellId → Prop} {ρ : RequestId → RequestId} {limit : Nat}
  {w w' w₁ : World} {p : Point} {q : RequestId}

/-! ### Numbers -/

/-- How many requests the step at a point makes. -/
def Point.made : Point → Nat
  | .coordinator _ (.draw ..) => 1
  | _ => 0

theorem Point.made_rename (p : Point) : (p.rename ρ).made = p.made := by
  rcases p with ⟨c, p⟩ | ⟨q, p⟩ | ⟨j, p⟩
  · rfl
  · rfl
  · cases p <;> rfl

theorem Point.requestCount_step_eq (w : World) (p : Point) :
    (p.step w).world.requestCount = w.requestCount + p.made := by
  rcases p.draws_step w with ⟨hcount, -⟩ | ⟨j, c, d, extra, rfl, hcount, -⟩
  · unfold made
    split
    · exact absurd hcount (Nat.succ_ne_self _)
    · exact hcount
  · exact hcount

/-! ### What looks the same -/

namespace World.Mirrors

/-- A region in which nothing has changed looks the same, under numbers that leave its old requests
as they are. -/
theorem of_eq (hinjective : Function.Injective ρ)
    (hunmade : ∀ q, w.requestCount ≤ q → q < limit →
      ρ q = w'.requestCount + (q - w.requestCount))
    (hcell : ∀ c, S c → w'.cell c = w.cell c)
    (hhandler : ∀ c q, S c → (w.cell c).handler = some (.request q) → ρ q = q)
    (hrequest : ∀ q < w.requestCount, S (w.request q).cell → ρ q = q ∧ q < w'.requestCount ∧
      w'.request q = w.request q ∧ w'.alarms q = w.alarms q)
    (hactive : ∀ j c, S c →
      (w'.coordinator j).active.find? c = (w.coordinator j).active.find? c)
    (hentry : ∀ j c q, S c → (w.coordinator j).active.find? c = some q → ρ q = q)
    (hsettings : ∀ j, (w'.coordinator j).settings = (w.coordinator j).settings)
    (hnow : w'.now = w.now) (hclock : w'.clock = w.clock) : w.Mirrors ρ S limit w' where
  injective := hinjective
  unmade := hunmade
  made q hq hc := by
    obtain ⟨hsame, hmade, -⟩ := hrequest q hq hc
    rwa [hsame]
  cell c hc := (hcell c hc).trans (Cell.rename_eq_self fun q hq => hhandler c q hc hq).symm
  request q hq hc := by
    obtain ⟨hsame, -, he, -⟩ := hrequest q hq hc
    rw [hsame, he]
  alarms q hq hc := by
    obtain ⟨hsame, -, -, he⟩ := hrequest q hq hc
    rw [hsame, he]
  active j c hc := by
    rw [hactive j c hc]
    cases hfind : (w.coordinator j).active.find? c with
    | none => rfl
    | some q => rw [Option.map_some, hentry j c q hc hfind]
  settings := hsettings
  now := hnow
  clock := hclock

end World.Mirrors

namespace World.Confines

variable {T : CellId → Prop}

/-- A region looks the same after a run in another one. -/
theorem mirrors_after (h : w.Confines k T w') (hw : w.IsBounded) (hdisjoint : ∀ c, S c → ¬ T c)
    (hinjective : Function.Injective ρ) (hold : ∀ q < w.requestCount, ρ q = q)
    (hunmade : ∀ q, w.requestCount ≤ q → q < limit →
      ρ q = w'.requestCount + (q - w.requestCount)) : w.Mirrors ρ S limit w' := by
  refine .of_eq hinjective hunmade (fun c hc => h.cell c (hdisjoint c hc))
    (fun c q _ hq => hold q (hw.handler c q hq)) (fun q hq hc => ?_)
    (fun j c hc => h.active j c (hdisjoint c hc))
    (fun j c q _ hq => hold q (hw.active j q (Directory.mem_values_of_find? hq))) h.settings h.now
    h.grows.clock
  exact ⟨hold q hq, Nat.lt_of_lt_of_le hq h.grows.requestCount,
    h.request q hq (hdisjoint _ hc), h.alarms q hq (hdisjoint _ hc)⟩

/-- A region looks as it did before a run in another one. -/
theorem mirrors_before (h : w.Confines k T w') (hw : w.IsBounded) (hdisjoint : ∀ c, S c → ¬ T c)
    (hinjective : Function.Injective ρ) (hold : ∀ q < w.requestCount, ρ q = q)
    (hunmade : ∀ q, w'.requestCount ≤ q → q < limit →
      ρ q = w.requestCount + (q - w'.requestCount)) : w'.Mirrors ρ S limit w := by
  have hcell (c : CellId) (hc : S c) : w'.cell c = w.cell c := h.cell c (hdisjoint c hc)
  have hactive (j : CoordinatorId) (c : CellId) (hc : S c) :
      (w'.coordinator j).active.find? c = (w.coordinator j).active.find? c :=
    h.active j c (hdisjoint c hc)
  refine .of_eq hinjective hunmade (fun c hc => (hcell c hc).symm)
    (fun c q hc hq => hold q (hw.handler c q (hcell c hc ▸ hq))) (fun q hq hc => ?_)
    (fun j c hc => (hactive j c hc).symm)
    (fun j c q hc hq => hold q (hw.active j q
      (Directory.mem_values_of_find? (hactive j c hc ▸ hq))))
    (fun j => (h.settings j).symm) h.now.symm h.grows.clock.symm
  have hmade : q < w.requestCount := Nat.not_le.mp fun hle => hdisjoint _ hc (h.made q hle hq).cell
  have hc' : ¬ T (w.request q).cell := by
    rw [← Request.cell_eq_of_fixed (h.grows.request q hmade).fixed]
    exact hdisjoint _ hc
  exact ⟨hold q hmade, hmade, (h.request q hmade hc').symm, (h.alarms q hmade hc').symm⟩

end World.Confines

namespace World.Mirrors

theorem owns (h : w.Mirrors ρ S limit w') (hq : w.Owns S q) : w'.Owns S (ρ q) := by
  have hcore := h.request q hq.made hq.cell
  refine ⟨h.made q hq.made hq.cell, Request.cell_eq_of_core hcore ▸ hq.cell, fun c hc => ?_⟩
  rw [Request.interceptors_eq_of_core hcore] at hc
  exact hq.hooks c hc

/-- A local call on a region is one where the region looks the same. -/
theorem mayCall (h : w.Mirrors ρ S limit w') {c : Call} (hc : (Conduct.within k S).mayCall w c) :
    (Conduct.within k S).mayCall w' (c.rename ρ) := by
  obtain ⟨hin, hlocal⟩ := hc
  cases c with
  | begin q | timeOut q | fail q e | abandon q | wait q => exact ⟨h.owns hin, trivial⟩
  | abandonAll | countActive => exact hlocal.elim
  | _ => exact ⟨hin, hlocal⟩

end World.Mirrors

/-! ### Choices -/

/-- What user code chooses to do in a run: its calls and its answers. -/
def choices (acts : List Act) : List Deed :=
  acts.filterMap fun x => match x.deed with
    | .begin c => some (.begin c)
    | .answer i o => some (.answer i o)
    | _ => none

theorem choices_append (acts acts' : List Act) :
    choices (acts ++ acts') = choices acts ++ choices acts' :=
  List.filterMap_append

theorem choices_map_rename (acts : List Act) :
    choices (acts.map (Act.rename ρ)) = (choices acts).map (Deed.rename ρ) := by
  rw [choices, choices, List.filterMap_map, List.map_filterMap]
  refine congrArg (List.filterMap · acts) (funext fun ⟨d, notices⟩ => ?_)
  cases d <;> rfl

namespace Activation

/-- The choices of user code determine a run. -/
theorem Unfolds.eq_of_choices {P Q : Conduct} {a : Activation} {acts acts' : List Act}
    {w₂ : World} {o o' : Outcome} {l l' : List Deed} (h : a.Unfolds P w acts w₁ o)
    (h' : a.Unfolds Q w acts' w₂ o') (hl : choices acts ++ l = choices acts' ++ l') :
    acts = acts' ∧ w₁ = w₂ ∧ o = o' := by
  induction h generalizing acts' w₂ o' l l' with
  | ended =>
    obtain ⟨rfl, rfl, rfl⟩ := h'.of_ended_nil
    exact ⟨rfl, rfl, rfl⟩
  | step hp h ih =>
    obtain ⟨rest, rfl, hrest⟩ := h'.of_ready
    obtain ⟨rfl, hend⟩ := ih hrest hl
    exact ⟨rfl, hend⟩
  | resume h ih =>
    obtain ⟨rest, rfl, hrest⟩ := h'.of_ended_cons
    obtain ⟨rfl, hend⟩ := ih hrest hl
    exact ⟨rfl, hend⟩
  | answer hx h ih =>
    cases h' with
    | answer hx' h' =>
      obtain ⟨hhead, htail⟩ := List.cons.inj hl
      obtain ⟨-, houtcome⟩ := Deed.answer.inj hhead
      rw [← houtcome] at h' ⊢
      obtain ⟨rfl, hend⟩ := ih h' htail
      exact ⟨rfl, hend⟩
    | call => cases (List.cons.inj hl).1
  | @call w w₁ w₂ i frames c inner acts o₁ o hc hinner h ih₁ ih₂ =>
    cases h' with
    | answer => cases (List.cons.inj hl).1
    | @call _ _ _ _ _ c' inner' acts' _ _ hc' hinner' h' =>
      obtain ⟨hhead, htail⟩ := List.cons.inj hl
      obtain rfl := Deed.begin.inj hhead
      have hsplit (l₁ l₂ : List Act) (o : Outcome) (l : List Deed) :
          choices (l₁ ++ ⟨.finish o, []⟩ :: l₂) ++ l = choices l₁ ++ (choices l₂ ++ l) := by
        rw [choices_append, List.append_assoc]
        rfl
      replace htail := (hsplit ..).symm.trans (htail.trans (hsplit ..))
      obtain ⟨rfl, rfl, rfl⟩ := ih₁ hinner' htail
      obtain ⟨rfl, hend⟩ := ih₂ h' (List.append_cancel_left htail)
      exact ⟨rfl, hend⟩

end Activation

/-! ### Runs -/

namespace Activation

/-- A run in a region is one wherever the region looks the same. -/
theorem Unfolds.exists_mirrored {a : Activation} {acts : List Act} {o : Outcome}
    (h : a.Unfolds (.within k S) w acts w₁ o) (ha : a.IsConfined k S w) (hw : w.IsClosed S)
    (htimers : w.KeepsTimers) (hlimit : w₁.requestCount ≤ limit) (hm : w.Mirrors ρ S limit w')
    (htimers' : w'.KeepsTimers) :
    ∃ w₁', (a.rename ρ).Unfolds (.within k S) w' (acts.map (Act.rename ρ)) w₁' (o.rename ρ) ∧
      w₁.Mirrors ρ S limit w₁' ∧ w₁'.KeepsTimers ∧
      w₁'.requestCount + w.requestCount = w'.requestCount + w₁.requestCount := by
  induction h generalizing w' with
  | ended w o => exact ⟨w', .ended w' _, hm, htimers', rfl⟩
  | @step w w₁ p frames acts o hp h ih =>
    have hpoint := ha.point p rfl
    have hstep := hm.step htimers htimers' hpoint (ha.isLocal p rfl)
      (Nat.le_trans h.grows.requestCount hlimit)
    have hkeeps : ((p.rename ρ).step w').world.KeepsTimers := htimers'.step fun q hq => by
      obtain ⟨q, rfl, rfl⟩ : ∃ q', p = .request q' .arm ∧ q = ρ q' := by
        rcases p with ⟨c, p⟩ | ⟨q', p⟩ | ⟨j, p⟩ <;> cases hq
        exact ⟨q', rfl, rfl⟩
      exact hm.made q hpoint.made hpoint.cell
    obtain ⟨w₁', hrun, hend, hkeeps₁, hcount⟩ := ih (ha.step hw) (hpoint.isClosed hw)
      (hpoint.keepsTimers htimers) hlimit hstep.world hkeeps
    refine ⟨w₁', ?_, hend, hkeeps₁, ?_⟩
    · rw [rename_follow, ← hstep.next] at hrun
      rw [List.map_cons]
      have hact : Act.rename ρ ⟨.step p (p.step w).next, (p.step w).notices⟩ =
          ⟨.step (p.rename ρ) ((p.rename ρ).step w').next, ((p.rename ρ).step w').notices⟩ := by
        rw [hstep.next, hstep.notices]
        rfl
      rw [hact]
      exact .step ((hm.isEnabled hpoint).trans hp) hrun
    · rw [Point.requestCount_step_eq, Point.requestCount_step_eq, Point.made_rename] at hcount
      omega
  | @resume w w₁ f frames x acts o h ih =>
    have hresume := hm.resume (ha.frame f List.mem_cons_self) x
    obtain ⟨w₁', hrun, hend⟩ := ih ha.resume hw htimers hlimit hm htimers'
    refine ⟨w₁', ?_, hend⟩
    rw [rename_follow, ← hresume.next] at hrun
    rw [List.map_cons]
    have hact : Act.rename ρ ⟨.resume f x (f.resume w x).next, (f.resume w x).notices⟩ =
        ⟨.resume (f.rename ρ) (x.rename ρ) ((f.rename ρ).resume w' (x.rename ρ)).next,
          ((f.rename ρ).resume w' (x.rename ρ)).notices⟩ := by
      rw [hresume.next, hresume.notices]
      rfl
    rw [hact]
    exact .resume hrun
  | @answer w w₁ i frames x acts o hx h ih =>
    obtain ⟨w₁', hrun, hend⟩ := ih ha.answer hw htimers hlimit hm htimers'
    refine ⟨w₁', ?_, hend⟩
    have hrun' : Unfolds (.within k S) w' ⟨.ended (.ofUser x), frames.map (Frame.rename ρ)⟩
        (acts.map (Act.rename ρ)) w₁' (o.rename ρ) := by
      rw [← Outcome.rename_ofUser (ρ := ρ)]
      exact hrun
    have hact : Act.rename ρ ⟨.answer i (.ofUser x), []⟩ = ⟨.answer i (.ofUser x), []⟩ := by
      simp only [Act.rename, Deed.rename, Outcome.rename_ofUser]
    rw [List.map_cons, hact]
    exact .answer trivial hrun'
  | @call w w₁ w₂ i frames c inner acts o₁ o hc hinner h ih₁ ih₂ =>
    have hcallee := IsConfined.of_call hc.1 hc.2
    obtain ⟨hconfines, hw₁, htimers₁⟩ := hinner.confines hcallee hw htimers
    obtain ⟨w₁', hrun₁, hm₁, htimers₁', hcount₁⟩ := ih₁ hcallee hw htimers
      (Nat.le_trans h.grows.requestCount hlimit) hm htimers'
    obtain ⟨w₂', hrun₂, hm₂, htimers₂', hcount₂⟩ := ih₂ (ha.inside hconfines.grows) hw₁ htimers₁
      hlimit hm₁ htimers₁'
    refine ⟨w₂', ?_, hm₂, htimers₂', by omega⟩
    rw [← Call.activation_rename] at hrun₁
    rw [List.map_cons, List.map_append, List.map_cons]
    exact .call (hm.mayCall hc) hrun₁ hrun₂

end Activation

end Rendezvous
