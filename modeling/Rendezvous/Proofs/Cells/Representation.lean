import Rendezvous.Proofs.Cells.Atomic
import Rendezvous.Proofs.Delivery.ExactlyOnce
import Rendezvous.Proofs.Requests.Handlers
import Rendezvous.Proofs.Requests.Refusal

/-!
# The life of a slot

The slot of a cell changes in three ways only. While there is no resolution and no expiry, a
registration stores a handler and an assignment puts the resolution in its place; expiry ends the
life of the cell, with or without a resolution, and clears the handler. So a slot that has expired
never changes again, and the resolution is that of the one setter which the cell took it from.

That setter learns of it: a call that tries to resolve a cell and returns true is the one, and so is
a call that a failure of the handler leaves by escaping. All others return false.

## Main definitions

* `Slot.Changes`: the changes of a slot, with the steps that make them.
* `Seeking`, `Settling`: where a setter stands before and after the cell took its resolution.

## Main results

* `System.Transition.slot`: a move leaves a slot as it is, or makes one of these changes.
* `System.Leads.slot`: what stays for the rest of the life of a cell.
* `System.Reachable.outcome_of_assigns`: how setters end.
* `System.Reachable.representation`: all of this for the cells of a system that is reached.
-/

namespace Rendezvous

/-- The changes of the slot of a cell: the step that makes one, the slot before it and after it. -/
inductive Slot.Changes (c : CellId) : Point → Next → Slot → Slot → Prop
  | store (h : Handler) (n : Next) (old : Option Handler) :
    Changes c (.cell c (.register h)) n ⟨none, false, old⟩ ⟨none, false, some h⟩
  | resolve (r : Resolution) (n : Next) (hn : n.accepts = true) (old : Option Handler) :
    Changes c (.cell c (.assign r)) n ⟨none, false, old⟩ ⟨some r, false, none⟩
  | expire (n : Next) (r : Option Resolution) (old : Option Handler) :
    Changes c (.cell c .expire) n ⟨r, false, old⟩ ⟨r, true, none⟩

/-- The cell that a call tries to resolve, and the resolution. -/
def Call.assigns? : Call → Option (CellId × Resolution)
  | .setResult c v => some (c, .value v)
  | .setError c e => some (c, .error e)
  | _ => none

variable {w w' : World} {c : CellId} {r : Resolution} {a a' : Activation} {d : Deed}

/-! ### Changes of a slot -/

private theorem Cell.slot_register (x : Cell) (h : Handler) (n : Next) :
    (x.register h).1.slot = x.slot ∨
      Slot.Changes c (.cell c (.register h)) n x.slot (x.register h).1.slot := by
  cases he : x.expired with
  | true => exact .inl (by simp [register, he])
  | false =>
    cases hr : x.result with
    | some r => exact .inl (by simp [register, he, hr])
    | none =>
      right
      simp only [register, slot, he, hr]
      exact .store h n x.handler

private theorem Cell.slot_assign (x : Cell) (r : Resolution) (n : Next)
    (hn : ∀ h, (x.assign r).2 = .accepted h → n.accepts = true) :
    (x.assign r).1.slot = x.slot ∨
      Slot.Changes c (.cell c (.assign r)) n x.slot (x.assign r).1.slot := by
  cases hset : x.isSetOrExpired with
  | true => exact .inl (by simp [assign, hset])
  | false =>
    have hopen : x.result = none ∧ x.expired = false := by simpa [isSetOrExpired] using hset
    have haccepted : n.accepts = true := hn x.handler (assign_snd_eq_accepted.mpr ⟨hset, rfl⟩)
    right
    simp only [assign, hset, slot, hopen]
    exact .resolve r n haccepted x.handler

private theorem Cell.slot_expire (x : Cell) (n : Next) :
    x.expire.1.slot = x.slot ∨ Slot.Changes c (.cell c .expire) n x.slot x.expire.1.slot := by
  cases he : x.expired with
  | true => exact .inl (by simp [expire, he])
  | false =>
    right
    simp only [expire, slot, he]
    exact .expire n x.result x.handler

/-- No change begins with an expired slot. -/
theorem Slot.Changes.expired {p : Point} {n : Next} {x x' : Slot} (h : Slot.Changes c p n x x') :
    x.expired = false := by
  cases h <;> rfl

/-- A step leaves the slot of a cell as it is, or makes one of the changes. -/
theorem Point.slot_step (w : World) (p : Point) (c : CellId) :
    ((p.step w).world.cell c).slot = (w.cell c).slot ∨
      Slot.Changes c p (p.step w).next (w.cell c).slot ((p.step w).world.cell c).slot := by
  rcases p.cell_step w c with h | ⟨h, rfl, he⟩ | ⟨r, rfl, he⟩ | ⟨rfl, he⟩ | ⟨slot, id, -, he⟩
  · exact .inl (congrArg Cell.slot h)
  · exact he ▸ Cell.slot_register ..
  · refine he ▸ Cell.slot_assign _ r _ fun h hh => ?_
    simp only [step, CellPoint.step, hh]
    cases h <;> rfl
  · exact he ▸ Cell.slot_expire ..
  · left
    rw [he]
    cases slot <;> rfl

namespace System

variable {s s' : System} {m : Move} {allowed : Move → Prop} {n : CallNumber}

/-- A move leaves the slot of a cell as it is, or one of the changes is the step that it takes. -/
theorem Transition.slot (ht : Transition s m s') (c : CellId) :
    (s'.world.cell c).slot = (s.world.cell c).slot ∨
    ∃ t j p n, s'.history = s.history ++ [⟨t, j, .step p n⟩] ∧
      Slot.Changes c p n (s.world.cell c).slot (s'.world.cell c).slot := by
  rcases ht.world with ⟨-, hcell, -⟩ | ⟨t, j, p, frames, -, -, hw, hh, -⟩
  · exact .inl (congrArg Cell.slot (hcell c))
  · rw [hw]
    exact (p.slot_step s.world c).imp_right fun h => ⟨t, j, p, _, hh, h⟩

/-- The resolution of a cell stays, and so does the whole slot once the cell has expired. -/
theorem Leads.slot (hl : Leads allowed s s') (c : CellId) :
    (∀ r, (s.world.cell c).result = some r → (s'.world.cell c).result = some r) ∧
    ((s.world.cell c).expired = true → (s'.world.cell c).slot = (s.world.cell c).slot) := by
  refine ⟨fun r hr => hl.grows.result c r hr, fun he => ?_⟩
  induction hl with
  | refl => rfl
  | @move s₁ s₂ m hl hm ht ih =>
    rcases (transition_of_take? ht).slot c with h | ⟨t, j, p, n, -, h⟩
    · exact h.trans ih
    · have hexpired : (s₁.world.cell c).slot.expired = true := ih ▸ he
      simp [h.expired] at hexpired

/-- A cell that is set or has expired takes no resolution any more. -/
theorem Leads.acceptances_eq (hs : Reachable allowed s) (hl : Leads allowed s s')
    (h : (s.world.cell c).isSetOrExpired = true) : s'.acceptances c = s.acceptances c := by
  have hpre : s.acceptances c <+: s'.acceptances c := hl.history_prefix.filterMap _
  refine (hpre.eq_of_length ?_).symm
  have hlength {s : System} (hs : Reachable allowed s) :
      (s.acceptances c).length = (s.world.cell c).result.toList.length := by
    rw [← hs.resolution_acceptances, List.length_map]
  obtain ⟨hresult, hslot⟩ := hl.slot c
  rw [hlength hs, hlength (hs.leads hl)]
  cases he : (s.world.cell c).expired with
  | true => rw [show (s'.world.cell c).result = _ from congrArg Slot.result (hslot he)]; rfl
  | false =>
    obtain ⟨r, hr⟩ := Option.isSome_iff_exists.mp
      (show (s.world.cell c).result.isSome = true by simpa [Cell.isSetOrExpired, he] using h)
    rw [hr, hresult r hr]

end System

/-! ### Setters -/

/-- Where a setter stands before the cell has taken its resolution, or when the cell has not. -/
inductive Seeking (w : World) (c : CellId) (r : Resolution) : Activation → Prop
  | look : Seeking w c r ⟨.ready (.cell c (.checkResult r)), []⟩
  | check : Seeking w c r ⟨.ready (.cell c (.checkExpired r)), []⟩
  | assign : Seeking w c r ⟨.ready (.cell c (.assign r)), []⟩
  | refused (h : (w.cell c).isSetOrExpired = true) :
    Seeking w c r ⟨.ended (.returned (.flag false)), []⟩

/-- Where a setter stands once the cell has taken its resolution. -/
inductive Settling (c : CellId) (r : Resolution) : Activation → Prop
  | deliver (h : Handler) : Settling c r ⟨.ready (.cell c (.deliver h r (.flag true))), []⟩
  | delivered (control : Control) (above : List Frame) :
    Settling c r ⟨control, above ++ [.cell c (.delivered (.flag true))]⟩
  | returned : Settling c r ⟨.ended (.returned (.flag true)), []⟩
  | escaped (f : Failure) (hf : f.isOrdinary = false) : Settling c r ⟨.ended (.raised f), []⟩

/-- Whether a deed is an assignment of a cell that went on as an accepted one. -/
def Deed.Accepts (c : CellId) (r : Resolution) (d : Deed) : Prop :=
  ∃ n : Next, d = .step (.cell c (.assign r)) n ∧ n.accepts = true

theorem Seeking.grow (h : Seeking w c r a) (hw : w.Grows w') : Seeking w' c r a := by
  cases h with
  | look => exact .look
  | check => exact .check
  | assign => exact .assign
  | refused h => exact .refused (hw.isSetOrExpired h)

/-- A setter goes on to seek, or the cell takes its resolution. -/
theorem Seeking.moves (h : Seeking w c r a) (hm : a.Moves w d (some a')) (hw : w.Grows w') :
    (Seeking w' c r a' ∧ ∀ x, ¬ d.Accepts c x) ∨ (Settling c r a' ∧ d.Accepts c r) := by
  cases h with
  | look =>
    cases hm
    refine .inl ⟨?_, ?_⟩
    · simp only [Point.step, CellPoint.step]
      split
      · exact .refused (hw.isSetOrExpired (Bool.or_eq_true_iff.mpr (.inl ‹_›)))
      · exact .check
    · rintro x ⟨n, h, -⟩
      cases h
  | check =>
    cases hm
    refine .inl ⟨?_, ?_⟩
    · simp only [Point.step, CellPoint.step]
      split
      · exact .refused (hw.isSetOrExpired (Bool.or_eq_true_iff.mpr (.inr ‹_›)))
      · exact .assign
    · rintro x ⟨n, h, -⟩
      cases h
  | assign =>
    cases hm
    simp only [Point.step, CellPoint.step]
    cases hset : (w.cell c).isSetOrExpired with
    | true =>
      simp only [Cell.assign, hset]
      refine .inl ⟨.refused (hw.isSetOrExpired hset), ?_⟩
      rintro x ⟨n, h, hn⟩
      cases h
      cases hn
    | false =>
      right
      simp only [Cell.assign, hset]
      cases (w.cell c).handler with
      | none => exact ⟨.returned, _, rfl, rfl⟩
      | some h => exact ⟨.deliver h, _, rfl, rfl⟩
  | refused h => cases hm

/-- A frame below keeps a setter where the cell has taken its resolution. -/
private theorem Settling.follow (frames : List Frame) (n : Next) :
    Settling c r (.follow (frames ++ [.cell c (.delivered (.flag true))]) n) := by
  cases n with
  | goto p => exact .delivered _ frames
  | call f p => exact .delivered _ (f :: frames)
  | invoke f i => exact .delivered _ (f :: frames)
  | finish o => exact .delivered _ frames

theorem Settling.moves (h : Settling c r a) (hm : a.Moves w d (some a')) : Settling c r a' := by
  cases h with
  | deliver h =>
    cases hm
    cases h with
    | callback id => exact .delivered _ []
    | request q => exact .delivered _ []
  | delivered control above =>
    cases above with
    | nil =>
      cases hm with
      | step p => exact Settling.follow [] _
      | resume o =>
        cases o with
        | returned b => exact .returned
        | raised f =>
          simp only [Frame.resume, CellFrame.resume, contain]
          split
          · exact .returned
          · exact .escaped f (Bool.eq_false_iff.mpr ‹_›)
      | answer i => exact .delivered _ []
    | cons f above =>
      cases hm with
      | step p => exact Settling.follow (f :: above) _
      | resume o => exact Settling.follow above _
      | answer i => exact .delivered _ (f :: above)
  | returned => cases hm
  | escaped f => cases hm

/-- A setter whose resolution the cell has taken returns true, unless a failure escapes. -/
private theorem Settling.outcome {o : Outcome} (h : Settling c r ⟨.ended o, []⟩) :
    o = .returned (.flag true) ∨ ∃ f, o = .raised f ∧ f.isOrdinary = false := by
  generalize ha : (⟨.ended o, []⟩ : Activation) = a at h
  cases h with
  | deliver h => cases ha
  | delivered control above => simp at ha
  | returned =>
    cases ha
    exact .inl rfl
  | escaped f hf =>
    cases ha
    exact .inr ⟨f, rfl, hf⟩

/-- How a call that tries to resolve a cell stands with it: it has not come to its block or was
refused, or the cell has taken its resolution. -/
def Activation.IsSetting (w : World) (c : CellId) (r : Resolution) (done : List Deed)
    (a : Activation) : Prop :=
  (Seeking w c r a ∧ ∀ d ∈ done, ∀ x, ¬ d.Accepts c x) ∨
    (Settling c r a ∧ ∃ d ∈ done, d.Accepts c r)

private theorem Call.isSetting {call : Call} (h : call.assigns? = some (c, r)) :
    call.activation.IsSetting w c r [.begin call] := by
  refine .inl ⟨?_, fun d hd x ⟨n, hn, _⟩ => ?_⟩
  · cases call <;> cases h <;> exact .look
  · rw [List.mem_singleton.mp hd] at hn
    cases hn

private theorem Activation.IsSetting.moves {done : List Deed} (h : a.IsSetting w c r done)
    (hm : a.Moves w d (some a')) (hw : w.Grows w') : a'.IsSetting w' c r (done ++ [d]) := by
  rcases h with ⟨hseek, hnone⟩ | ⟨hsettle, d', hd', ha⟩
  · rcases hseek.moves hm hw with ⟨h, hd⟩ | ⟨h, hd⟩
    · exact .inl ⟨h, fun e he => (List.mem_append.mp he).elim (hnone e)
        fun he => List.mem_singleton.mp he ▸ hd⟩
    · exact .inr ⟨h, d, by simp, hd⟩
  · exact .inr ⟨hsettle.moves hm, d', List.mem_append_left _ hd', ha⟩

namespace System

variable {s s' : System} {m : Move} {allowed : Move → Prop} {n : CallNumber} {call : Call}

theorem Reachable.isSetting (hs : Reachable allowed s) {x : Ongoing} (hx : x ∈ s.ongoing)
    (call : Call) (c : CellId) (r : Resolution) :
    s.deeds x.number ≠ [] ∧ ((s.deeds x.number).head? = some (.begin call) →
      call.assigns? = some (c, r) → x.activation.IsSetting s.world c r (s.deeds x.number)) := by
  refine hs.forall_course (P := fun w done a => done ≠ [] ∧ (done.head? = some (.begin call) →
    call.assigns? = some (c, r) → a.IsSetting w c r done)) (fun w call' => ?_)
    (fun w w' done a ⟨hne, h⟩ hw => ?_) (fun w w' done a d a' ⟨hne, h⟩ hm hw => ?_) x hx
  · refine ⟨by simp, fun hcall h => ?_⟩
    cases hcall
    exact Call.isSetting h
  · exact ⟨hne, fun hcall hr => (h hcall hr).imp_left fun h => ⟨h.1.grow hw, h.2⟩⟩
  · refine ⟨by simp, fun hcall hr => (h ?_ hr).moves hm hw⟩
    rwa [List.head?_append_of_ne_nil _ hne] at hcall

/-- The acceptances of a cell are the accepted assignments of calls. -/
theorem mem_acceptances_iff :
    (∃ t, ⟨t, n, r⟩ ∈ s.acceptances c) ↔ ∃ d ∈ s.deeds n, d.Accepts c r := by
  constructor
  · rintro ⟨t, h⟩
    obtain ⟨⟨t', n', d⟩, he, ha⟩ := List.mem_filterMap.mp h
    cases d <;> simp only [Event.acceptance?, Event.ofStep, reduceCtorEq] at ha
    rename_i p next
    split at ha
    · obtain ⟨⟨rfl, hn⟩, ⟨⟩⟩ := Option.ite_none_right_eq_some.mp ha
      exact ⟨_, mem_deeds.mpr ⟨t, he⟩, next, rfl, hn⟩
    · cases ha
  · rintro ⟨d, hd, next, rfl, hn⟩
    obtain ⟨t, he⟩ := mem_deeds.mp hd
    exact ⟨t, List.mem_filterMap.mpr ⟨_, he, if_pos ⟨rfl, hn⟩⟩⟩

theorem Reachable.length_acceptances_le_one (hs : Reachable allowed s) :
    (s.acceptances c).length ≤ 1 := by
  rw [← List.length_map Acceptance.resolution, hs.resolution_acceptances]
  cases (s.world.cell c).result <;> simp

/-- A call that tried to resolve a cell and is over was the one whose resolution the cell took, and
returned true unless a failure of the handler escaped; or it returned false, and was not. -/
theorem Reachable.outcome_of_assigns (hs : Reachable allowed s) {o : Outcome}
    (hcall : call.assigns? = some (c, r)) (hb : (s.deeds n).head? = some (.begin call))
    (ho : .finish o ∈ s.deeds n) :
    ((o = .returned (.flag true) ∨ ∃ f, o = .raised f ∧ f.isOrdinary = false) ∧
      ∃ t, s.acceptances c = [⟨t, n, r⟩]) ∨
    (o = .returned (.flag false) ∧ ∀ x ∈ s.acceptances c, x.number ≠ n) := by
  obtain ⟨s₀, t, hs₀, hl₀, hx, -⟩ := hs.exists_of_finish ho
  obtain ⟨hne, hsetting⟩ := hs₀.isSetting hx call c r
  obtain ⟨rest, hrest⟩ : s₀.deeds n <+: s.deeds n := hl₀.history_prefix.filterMap _
  rw [← hrest, List.head?_append_of_ne_nil _ hne] at hb
  rcases hsetting hb hcall with ⟨hseek, hnone⟩ | ⟨hsettle, haccepted⟩
  · right
    cases hseek with
    | refused hset =>
      refine ⟨rfl, fun ⟨t', n', r'⟩ hmem hn => ?_⟩
      obtain rfl : n' = n := hn
      rw [Leads.acceptances_eq hs₀ hl₀ hset] at hmem
      obtain ⟨d, hd, ha⟩ := mem_acceptances_iff.mp ⟨t', hmem⟩
      exact hnone d hd r' ha
  · left
    obtain ⟨t', hmem⟩ := mem_acceptances_iff.mpr haccepted
    have hmem' : ⟨t', n, r⟩ ∈ s.acceptances c := (hl₀.history_prefix.filterMap _).subset hmem
    refine ⟨hsettle.outcome, t', ?_⟩
    obtain ⟨x, hx⟩ := List.length_eq_one_iff.mp
      (Nat.le_antisymm hs.length_acceptances_le_one (List.length_pos_of_mem hmem'))
    rw [hx] at hmem' ⊢
    rw [List.mem_singleton.mp hmem']

/-- The representation of a cell, whatever any number of calls, timers and user code do. A handler
is stored only while there is no resolution and the cell has not expired. The resolution is the one
that the cell took from one setter, the only one that returns true, or is left by a failure that
escapes from the handler. Every move leaves the slot as it is or makes one change: a resolution
comes once, where there was none, in the block of its setter, and expiry comes once. From then on
the slot stays as it is. -/
theorem Reachable.representation (hs : Reachable Move.any s) (c : CellId) :
    ((s.world.cell c).handler.isSome = true →
      (s.world.cell c).result = none ∧ (s.world.cell c).expired = false) ∧
    (s.acceptances c).map Acceptance.resolution = (s.world.cell c).result.toList ∧
    (∀ n call r o, call.assigns? = some (c, r) → (s.deeds n).head? = some (.begin call) →
      .finish o ∈ s.deeds n →
        ((o = .returned (.flag true) ∨ ∃ f, o = .raised f ∧ f.isOrdinary = false) ∧
          ∃ t, s.acceptances c = [⟨t, n, r⟩]) ∨
        (o = .returned (.flag false) ∧ ∀ x ∈ s.acceptances c, x.number ≠ n)) ∧
    (∀ m s', s.take? m = some s' → (s'.world.cell c).slot = (s.world.cell c).slot ∨
      ∃ t j p n, s'.history = s.history ++ [⟨t, j, .step p n⟩] ∧
        Slot.Changes c p n (s.world.cell c).slot (s'.world.cell c).slot) ∧
    ∀ s', Leads Move.any s s' →
      (∀ r, (s.world.cell c).result = some r → (s'.world.cell c).result = some r) ∧
      ((s.world.cell c).expired = true → (s'.world.cell c).slot = (s.world.cell c).slot) := by
  refine ⟨fun h => ?_, hs.resolution_acceptances,
    fun n call r o hcall hb ho => hs.outcome_of_assigns hcall hb ho,
    fun m s' ht => (transition_of_take? ht).slot c, fun s' hl => hl.slot c⟩
  simpa [Cell.isSetOrExpired] using hs.settled c h

/-- A handler is registered and called with a value. It tries to resolve the cell again, and fails.
Then the cell expires. -/
def resolvedTwice : List Move :=
  [.begin 0 (.setHandler 0 (some "h")), .advance 0, .advance 0, .finish 0,
    .begin 1 (.setResult 0 (.text "A")), .advance 1, .advance 1, .advance 1, .advance 1,
    .begin 1 (.setError 0 (.text "B")), .advance 1, .finish 1,
    .answer 1 (.error (.ordinary "ValueError" "bad")), .advance 1, .finish 1,
    .begin 0 (.afterCompletion 0), .advance 0, .advance 0, .finish 0]

theorem representation_resolvedTwice : ∃ s, run { world := default } resolvedTwice = some s ∧
    Reachable Move.any s ∧ (s.acceptances 0).map Acceptance.resolution = [.value (.text "A")] ∧
    .finish (.returned (.flag true)) ∈ s.deeds 1 ∧
    (∃ t, s.acceptances 0 = [⟨t, 1, .value (.text "A")⟩]) ∧
    .finish (.returned (.flag false)) ∈ s.deeds 2 ∧ (∀ x ∈ s.acceptances 0, x.number ≠ 2) ∧
    ∀ s', Leads Move.any s s' →
      (s'.world.cell 0).slot = ⟨some (.value (.text "A")), true, none⟩ := by
  obtain ⟨s, hs⟩ : ∃ s, run { world := default } resolvedTwice = some s := ⟨_, rfl⟩
  have hshown : (run { world := default } resolvedTwice).map (fun s => ((s.world.cell 0).slot,
      (s.deeds 1).head?, (s.deeds 1).getLast?, (s.deeds 2).head?, (s.deeds 2).getLast?)) =
        some (⟨some (.value (.text "A")), true, none⟩, some (.begin (.setResult 0 (.text "A"))),
          some (.finish (.returned (.flag true))), some (.begin (.setError 0 (.text "B"))),
          some (.finish (.returned (.flag false)))) := rfl
  simp only [hs, Option.map_some, Option.some.injEq, Prod.mk.injEq] at hshown
  obtain ⟨hslot, hbegin, hend, hbegin', hend'⟩ := hshown
  have hreach : Reachable Move.any s :=
    ⟨default, World.isNew_default, leads_of_run (fun _ _ => trivial) hs⟩
  obtain ⟨-, hresolution, houtcome, -, hlater⟩ := hreach.representation 0
  have hmem := List.mem_of_getLast? hend
  have hmem' := List.mem_of_getLast? hend'
  refine ⟨s, hs, hreach, ?_, hmem, ?_, hmem', ?_, fun s' hl => ?_⟩
  · rw [hresolution, show (s.world.cell 0).result = _ from congrArg Slot.result hslot]
    rfl
  · exact ((houtcome 1 _ (.value (.text "A")) _ rfl hbegin hmem).resolve_right (by simp)).2
  · exact ((houtcome 2 _ (.error (.text "B")) _ rfl hbegin' hmem').resolve_left (by simp)).2
  · exact ((hlater s' hl).2 (congrArg Slot.expired hslot)).trans hslot

end System

end Rendezvous
