import Mathlib.Data.List.Nodup
import Rendezvous.Proofs.Threads.Growth
import Rendezvous.Proofs.Threads.Nesting

/-!
# The courses of calls

Every call has a number of its own, so the history tells what each call did. A move of a system is
a move of one call in progress, or it begins a call, or it leaves all calls as they are.

## Main definitions

* `System.deeds`: what a call did, in order.
* `Activation.Moves`: what a call in progress can do next, and where that leaves it.

## Main results

* `System.Reachable.isNumbered`: calls have numbers of their own.
* `System.Transition.of_begin`, `System.Transition.mem_ongoing`: how a call begins, and where the
  calls in progress come from.
* `System.Transition.moves`: a change makes a request, begins a call or is a move of a call.
* `System.Transition.shifts`: a call in progress stays where it is, or makes a move of its own.
* `System.Transition.deeds_of_over`: a call that is over does nothing any more.
* `System.Reachable.exists_of_finish`: where a call that is over stood before its end, and all that
  it did.
* `System.Reachable.forall_course`: what holds of every call in progress and of what it did.
-/

namespace Rendezvous

/-- What a call in progress can do next, and where that leaves it unless the call is over. -/
inductive Activation.Moves (w : World) : Activation → Deed → Option Activation → Prop
  | step (p : Point) (frames : List Frame) :
    Moves w ⟨.ready p, frames⟩ (.step p (p.step w).next) (some (.follow frames (p.step w).next))
  | resume (o : Outcome) (f : Frame) (frames : List Frame) :
    Moves w ⟨.ended o, f :: frames⟩ (.resume f o (f.resume w o).next)
      (some (.follow frames (f.resume w o).next))
  | answer (i : Invocation) (frames : List Frame) (o : Outcome) :
    Moves w ⟨.inside i, frames⟩ (.answer i o) (some ⟨.ended o, frames⟩)
  | finish (o : Outcome) : Moves w ⟨.ended o, []⟩ (.finish o) none

namespace System

/-- What a call did, in order. -/
def deeds (s : System) (n : CallNumber) : List Deed :=
  s.history.filterMap fun e => if e.number = n then some e.deed else none

/-- Whether calls have numbers of their own, which were given to them when they began. -/
structure IsNumbered (s : System) : Prop where
  nodup : (s.ongoing.map Ongoing.number).Nodup
  ongoing : ∀ x ∈ s.ongoing, x.number < s.begun
  history : ∀ e ∈ s.history, e.number < s.begun

variable {s s' : System} {m : Move} {allowed : Move → Prop} {x y : Ongoing} {n : CallNumber}
  {t : ThreadId} {newer older : List Ongoing}

/-- Some thread has no call in progress. -/
theorem exists_thread (l : List Ongoing) : ∃ t, ∀ x ∈ l, x.thread ≠ t := by
  suffices h : ∃ t, ∀ x ∈ l, x.thread < t from h.imp fun t ht x hx => Nat.ne_of_lt (ht x hx)
  induction l with
  | nil => exact ⟨0, by simp⟩
  | cons y l ih =>
    obtain ⟨t, ht⟩ := ih
    refine ⟨max t (y.thread + 1), List.forall_mem_cons.mpr ⟨Nat.le_max_right _ _, fun x hx => ?_⟩⟩
    exact Nat.lt_of_lt_of_le (ht x hx) (Nat.le_max_left _ _)

private theorem IsNumbered.enter (hs : s.IsNumbered) (t : ThreadId) (c : Call) (w : World) :
    (s.enter t c w).IsNumbered where
  nodup := by
    refine List.nodup_cons.mpr ⟨fun hmem => ?_, hs.nodup⟩
    obtain ⟨x, hx, h⟩ := List.mem_map.mp hmem
    exact absurd (hs.ongoing x hx) (Nat.not_lt.mpr (Nat.le_of_eq h.symm))
  ongoing := by
    refine List.forall_mem_cons.mpr ⟨Nat.lt_succ_self _, fun x hx => ?_⟩
    exact Nat.lt_succ_of_lt (hs.ongoing x hx)
  history e he := by
    rcases List.mem_append.mp he with he | he
    · exact Nat.lt_succ_of_lt (hs.history e he)
    · rw [List.mem_singleton.mp he]
      exact Nat.lt_succ_self _

private theorem IsNumbered.proceed (hs : s.IsNumbered) (he : s.ongoing = newer ++ x :: older)
    (w : World) (a : Activation) (d : Deed) : (s.proceed newer x older w a d).IsNumbered := by
  have hx : x ∈ s.ongoing := he ▸ by simp
  refine ⟨?_, fun y hy => ?_, fun e hm => ?_⟩
  · have hnodup := hs.nodup
    rw [he] at hnodup
    simpa [System.proceed] using hnodup
  · rcases List.mem_append.mp hy with hy | hy
    · exact hs.ongoing y (he ▸ List.mem_append_left _ hy)
    · rcases List.mem_cons.mp hy with rfl | hy
      · exact hs.ongoing x hx
      · exact hs.ongoing y (he ▸ List.mem_append_right _ (List.mem_cons_of_mem _ hy))
  · rcases List.mem_append.mp hm with hm | hm
    · exact hs.history e hm
    · rw [List.mem_singleton.mp hm]
      exact hs.ongoing x hx

private theorem IsNumbered.leave (hs : s.IsNumbered) (he : s.ongoing = newer ++ x :: older)
    (o : Outcome) : (s.leave newer x older o).IsNumbered := by
  have hsub : (newer ++ older).Sublist s.ongoing :=
    he ▸ (List.sublist_cons_self x older).append_left newer
  refine ⟨hs.nodup.sublist (hsub.map _), fun y hy => hs.ongoing y (hsub.subset hy), fun e hm => ?_⟩
  rcases List.mem_append.mp hm with hm | hm
  · exact hs.history e hm
  · rw [List.mem_singleton.mp hm]
    exact hs.ongoing x (he ▸ by simp)

/-- Calls have numbers of their own. -/
theorem Reachable.isNumbered (hs : Reachable allowed s) : s.IsNumbered := by
  refine hs.induction (fun _ _ => ⟨List.nodup_nil, by simp, by simp⟩) fun s m s' _ _ ht h => ?_
  cases ht with
  | begin | fire => exact h.enter _ _ _
  | make => exact ⟨h.nodup, h.ongoing, h.history⟩
  | step newer older t k p frames he => exact h.proceed he _ _ _
  | resume newer older t k o f frames he => exact h.proceed he _ _ _
  | answer newer older t k i frames a he => exact h.proceed he _ _ _
  | finish newer older t k o he => exact h.leave he o

theorem mem_deeds {d : Deed} : d ∈ s.deeds n ↔ ∃ t, ⟨t, n, d⟩ ∈ s.history := by
  constructor
  · intro h
    obtain ⟨⟨t, j, d'⟩, he, hd⟩ := List.mem_filterMap.mp h
    obtain ⟨rfl, ⟨⟩⟩ := Option.ite_none_right_eq_some.mp hd
    exact ⟨t, he⟩
  · rintro ⟨t, he⟩
    exact List.mem_filterMap.mpr ⟨_, he, if_pos rfl⟩

theorem deeds_append {e : Event} (hh : s'.history = s.history ++ [e]) (n : CallNumber) :
    s'.deeds n = if e.number = n then s.deeds n ++ [e.deed] else s.deeds n := by
  rw [deeds, hh, filterMap_append_cons, List.filterMap_nil, List.append_nil]
  split
  · rfl
  · exact List.append_nil _

/-- The call that begins next has done nothing yet. -/
theorem IsNumbered.deeds_begun (hs : s.IsNumbered) : s.deeds s.begun = [] :=
  List.filterMap_eq_nil_iff.mpr fun e he => if_neg (Nat.ne_of_lt (hs.history e he))

/-- What a change means for a call in progress: the call stays where it is, or makes a move of its
own. -/
def Shifts (s s' : System) (x : Ongoing) : Prop :=
  (x ∈ s'.ongoing ∧ s'.deeds x.number = s.deeds x.number) ∨
  ∃ d a', x.activation.Moves s.world d a' ∧ s'.deeds x.number = s.deeds x.number ++ [d] ∧
    (∀ a ∈ a', ⟨x.thread, x.number, a⟩ ∈ s'.ongoing) ∧
    (a' = none → ∀ y ∈ s'.ongoing, y.number ≠ x.number)

/-- A call makes a move, and all others stay where they are. -/
private theorem shifts_of_moves (hs : s.IsNumbered) (he : s.ongoing = newer ++ y :: older)
    {d : Deed} {a' : Option Activation} (hm : y.activation.Moves s.world d a')
    (hh : s'.history = s.history ++ [⟨y.thread, y.number, d⟩])
    (ho : s'.ongoing = newer ++ ((a'.map fun a => ⟨y.thread, y.number, a⟩).toList ++ older))
    (hx : x ∈ s.ongoing) : s.Shifts s' x := by
  have hnumbers := hs.nodup
  rw [he, List.map_append, List.map_cons, List.nodup_middle, List.nodup_cons] at hnumbers
  rw [he, List.mem_append, List.mem_cons] at hx
  rw [Shifts, deeds_append hh, ho]
  by_cases hxy : x = y
  · subst hxy
    refine .inr ⟨d, a', hm, if_pos rfl, fun a ha => ?_, ?_⟩
    · simp [Option.mem_def.mp ha]
    · rintro rfl z hz h
      refine hnumbers.1 ?_
      rw [← List.map_append, ← h]
      exact List.mem_map_of_mem hz
  · have hrest : x ∈ newer ++ older := List.mem_append.mpr
      (hx.imp_right fun h => h.resolve_left hxy)
    have hne : y.number ≠ x.number := fun h => hnumbers.1 (by
      rw [← List.map_append, h]
      exact List.mem_map_of_mem hrest)
    refine .inl ⟨?_, if_neg hne⟩
    rcases List.mem_append.mp hrest with h | h <;> simp [h]

theorem Transition.shifts (ht : Transition s m s') (hs : s.IsNumbered) (hx : x ∈ s.ongoing) :
    s.Shifts s' x := by
  have hnew {c : Call} {w : World} (t : ThreadId) : s.Shifts (s.enter t c w) x := by
    refine .inl ⟨List.mem_cons_of_mem _ hx, ?_⟩
    rw [deeds_append (e := ⟨t, s.begun, .begin c⟩) rfl, if_neg]
    exact Nat.ne_of_gt (hs.ongoing x hx)
  cases ht with
  | begin t c => exact hnew t
  | fire t => exact hnew t
  | make => exact .inl ⟨hx, rfl⟩
  | step newer older t k p frames he =>
    exact shifts_of_moves hs he (.step p frames) rfl rfl hx
  | resume newer older t k o f frames he =>
    exact shifts_of_moves hs he (.resume o f frames) rfl rfl hx
  | answer newer older t k i frames a he =>
    exact shifts_of_moves hs he (.answer i frames _) rfl rfl hx
  | finish newer older t k o he => exact shifts_of_moves hs he (.finish o) rfl rfl hx

/-- A change makes a request, or begins a call, or is a move of a call in progress. -/
theorem Transition.moves (ht : Transition s m s') :
    (s'.history = s.history ∧ s'.ongoing = s.ongoing) ∨
    (∃ t c, s'.history = s.history ++ [⟨t, s.begun, .begin c⟩] ∧
      s'.ongoing = ⟨t, s.begun, c.activation⟩ :: s.ongoing) ∨
    ∃ newer older t k a d a', s.ongoing = newer ++ ⟨t, k, a⟩ :: older ∧
      a.Moves s.world d a' ∧ s'.history = s.history ++ [⟨t, k, d⟩] ∧
      s'.ongoing = newer ++ ((a'.map fun a => ⟨t, k, a⟩).toList ++ older) := by
  cases ht with
  | begin t c => exact .inr (.inl ⟨t, c, rfl, rfl⟩)
  | fire t x => exact .inr (.inl ⟨t, .timeOut x.request, rfl, rfl⟩)
  | make => exact .inl ⟨rfl, rfl⟩
  | step newer older t k p frames he =>
    exact .inr (.inr ⟨newer, older, t, k, _, _, _, he, .step p frames, rfl, rfl⟩)
  | resume newer older t k o f frames he =>
    exact .inr (.inr ⟨newer, older, t, k, _, _, _, he, .resume o f frames, rfl, rfl⟩)
  | answer newer older t k i frames a he =>
    exact .inr (.inr ⟨newer, older, t, k, _, _, _, he, .answer i frames _, rfl, rfl⟩)
  | finish newer older t k o he =>
    exact .inr (.inr ⟨newer, older, t, k, _, _, _, he, .finish o, rfl, rfl⟩)

/-- A call that begins has the next number, and is in progress. -/
theorem Transition.of_begin (ht : Transition s m s') {c : Call}
    (hb : ⟨t, n, .begin c⟩ ∈ s'.history) (hnew : ⟨t, n, .begin c⟩ ∉ s.history) :
    n = s.begun ∧ s'.history = s.history ++ [⟨t, n, .begin c⟩] ∧
      s'.ongoing = ⟨t, n, c.activation⟩ :: s.ongoing := by
  rcases ht.history with hh | ⟨e, hh⟩
  · exact absurd (hh ▸ hb) hnew
  · rw [hh, List.mem_append, List.mem_singleton] at hb
    obtain rfl := hb.resolve_left hnew
    cases ht with
    | begin | fire =>
      cases List.singleton_inj.mp (List.append_cancel_left hh)
      exact ⟨rfl, rfl, rfl⟩
    | make => simp [addRequest] at hh
    | _ => simp [proceed, leave] at hh

/-- A call in progress was there before, or it begins, or it has made a move of its own. -/
theorem Transition.mem_ongoing (ht : Transition s m s') (hy : y ∈ s'.ongoing) :
    y ∈ s.ongoing ∨
    (∃ c, y = ⟨y.thread, s.begun, c.activation⟩ ∧
      s'.history = s.history ++ [⟨y.thread, s.begun, .begin c⟩]) ∨
    ∃ a d, ⟨y.thread, y.number, a⟩ ∈ s.ongoing ∧ a.Moves s.world d (some y.activation) ∧
      s'.history = s.history ++ [⟨y.thread, y.number, d⟩] := by
  have hmove {newer older : List Ongoing} {x : Ongoing} {d : Deed} {a' : Activation}
      (he : s.ongoing = newer ++ x :: older) (hm : x.activation.Moves s.world d (some a'))
      (hh : s'.history = s.history ++ [⟨x.thread, x.number, d⟩])
      (ho : s'.ongoing = newer ++ ⟨x.thread, x.number, a'⟩ :: older) : y ∈ s.ongoing ∨
      (∃ c, y = ⟨y.thread, s.begun, c.activation⟩ ∧
        s'.history = s.history ++ [⟨y.thread, s.begun, .begin c⟩]) ∨
      ∃ a d, ⟨y.thread, y.number, a⟩ ∈ s.ongoing ∧ a.Moves s.world d (some y.activation) ∧
        s'.history = s.history ++ [⟨y.thread, y.number, d⟩] := by
    rw [ho, List.mem_append, List.mem_cons] at hy
    rcases hy with hy | rfl | hy
    · exact .inl (he ▸ List.mem_append_left _ hy)
    · exact .inr (.inr ⟨x.activation, d, he ▸ by simp, hm, hh⟩)
    · exact .inl (he ▸ List.mem_append_right _ (List.mem_cons_of_mem _ hy))
  cases ht with
  | begin | fire =>
    rcases List.mem_cons.mp hy with rfl | hy
    · exact .inr (.inl ⟨_, rfl, rfl⟩)
    · exact .inl hy
  | make => exact .inl hy
  | step newer older t k p frames he => exact hmove he (.step p frames) rfl rfl
  | resume newer older t k o f frames he => exact hmove he (.resume o f frames) rfl rfl
  | answer newer older t k i frames a he => exact hmove he (.answer i frames _) rfl rfl
  | finish newer older t k o he =>
    left
    rw [he]
    simp only [leave, List.mem_append, List.mem_cons] at hy ⊢
    grind

theorem Transition.begun_le (ht : Transition s m s') : s.begun ≤ s'.begun := by
  cases ht with
  | begin | fire => exact Nat.le_succ _
  | _ => exact Nat.le_refl _

/-- A call that is over does nothing any more. -/
theorem Transition.deeds_of_over (ht : Transition s m s') (hn : n < s.begun)
    (hover : ∀ x ∈ s.ongoing, x.number ≠ n) :
    s'.deeds n = s.deeds n ∧ ∀ x ∈ s'.ongoing, x.number ≠ n := by
  have hmove {newer older : List Ongoing} {y : Ongoing} {d : Deed}
      (he : s.ongoing = newer ++ y :: older)
      (hh : s'.history = s.history ++ [⟨y.thread, y.number, d⟩])
      (hsub : s'.ongoing.map Ongoing.number ⊆ s.ongoing.map Ongoing.number) :
      s'.deeds n = s.deeds n ∧ ∀ x ∈ s'.ongoing, x.number ≠ n := by
    refine ⟨(deeds_append hh n).trans (if_neg (hover y (he ▸ by simp))), fun x hx h => ?_⟩
    obtain ⟨z, hz, hzx⟩ := List.mem_map.mp (hsub (List.mem_map_of_mem hx))
    exact hover z hz (hzx.trans h)
  cases ht with
  | begin | fire =>
    exact ⟨(deeds_append rfl n).trans (if_neg (Nat.ne_of_gt hn)),
      List.forall_mem_cons.mpr ⟨Nat.ne_of_gt hn, hover⟩⟩
  | make => exact ⟨rfl, hover⟩
  | step newer older t k p frames he => exact hmove he rfl (by simp [proceed, he])
  | resume newer older t k o f frames he => exact hmove he rfl (by simp [proceed, he])
  | answer newer older t k i frames a he => exact hmove he rfl (by simp [proceed, he])
  | finish newer older t k o he => exact hmove he rfl (by simp [leave, he])

/-- A call that is over never does anything again. -/
theorem Leads.deeds_of_over (hl : Leads allowed s s') (hn : n < s.begun)
    (hover : ∀ x ∈ s.ongoing, x.number ≠ n) : s'.deeds n = s.deeds n := by
  suffices h : n < s'.begun ∧ s'.deeds n = s.deeds n ∧ ∀ x ∈ s'.ongoing, x.number ≠ n from h.2.1
  induction hl with
  | refl => exact ⟨hn, rfl, hover⟩
  | move m _ _ ht ih =>
    obtain ⟨hn, hdeeds, hover⟩ := ih
    have ht := transition_of_take? ht
    obtain ⟨hsame, hover⟩ := ht.deeds_of_over hn hover
    exact ⟨Nat.lt_of_lt_of_le hn ht.begun_le, hsame.trans hdeeds, hover⟩

/-- A call that is over had come to its end before, and did nothing after that. -/
theorem Reachable.exists_of_finish (hs : Reachable allowed s) {o : Outcome}
    (ho : .finish o ∈ s.deeds n) : ∃ s₀ t, Reachable allowed s₀ ∧ Leads allowed s₀ s ∧
      ⟨t, n, ⟨.ended o, []⟩⟩ ∈ s₀.ongoing ∧ s.deeds n = s₀.deeds n ++ [.finish o] := by
  obtain ⟨t, he⟩ := mem_deeds.mp ho
  obtain ⟨before, after, hh⟩ := List.append_of_mem he
  obtain ⟨s₀, m, s₁, hs₀, hm, htake, hl, rfl, h₁⟩ := hs.exists_take? hh
  have hl₀ : Leads allowed s₀ s := (Leads.move m .refl hm htake).trans hl
  have hs₁ : Reachable allowed s₁ := hs₀.leads (.move m .refl hm htake)
  have hdeeds : s₁.deeds n = s₀.deeds n ++ [.finish o] := (deeds_append h₁ n).trans (if_pos rfl)
  have hn : n < s₁.begun := hs₁.isNumbered.history ⟨t, n, .finish o⟩ (by simp [h₁])
  cases transition_of_take? htake with
  | finish newer older t' k o' hongoing =>
    cases List.singleton_inj.mp (List.append_cancel_left h₁)
    refine ⟨s₀, t', hs₀, hl₀, by simp [hongoing], ?_⟩
    refine (hl.deeds_of_over hn fun x hx hxn => ?_).trans hdeeds
    have hnodup := hs₀.isNumbered.nodup
    rw [hongoing, List.map_append, List.map_cons, List.nodup_middle, List.nodup_cons,
      ← List.map_append] at hnodup
    exact hnodup.1 (List.mem_map.mpr ⟨x, hx, hxn⟩)
  | make => simp [addRequest] at h₁
  | _ => simp [enter, proceed] at h₁

/-- What calls satisfy when they begin, and keep when they move and when the world grows around
them, every call in progress satisfies with what it did. -/
theorem Reachable.forall_course {P : World → List Deed → Activation → Prop}
    (hs : Reachable allowed s) (begins : ∀ w c, P w [.begin c] c.activation)
    (grows : ∀ w w' ds a, P w ds a → w.Grows w' → P w' ds a)
    (moves : ∀ w w' ds a d a', P w ds a → a.Moves w d (some a') → w.Grows w' →
      P w' (ds ++ [d]) a') :
    ∀ x ∈ s.ongoing, P s.world (s.deeds x.number) x.activation := by
  refine hs.induction (I := fun s => ∀ x ∈ s.ongoing, P s.world (s.deeds x.number) x.activation)
    (fun _ _ => by simp) fun s m s' hs _ ht ih x hx => ?_
  have hold (hx : x ∈ s.ongoing) (hd : s'.deeds x.number = s.deeds x.number) :
      P s'.world (s'.deeds x.number) x.activation := hd ▸ grows _ _ _ _ (ih x hx) ht.grows
  rcases ht.moves with ⟨hh, ho⟩ | ⟨t, c, hh, ho⟩ | ⟨newer, older, t, k, a, d, a', he, hm, hh, ho⟩
  · exact hold (ho ▸ hx) (by rw [deeds, deeds, hh])
  · rcases List.mem_cons.mp (ho ▸ hx) with rfl | hx
    · rw [deeds_append hh, if_pos rfl, hs.isNumbered.deeds_begun]
      exact begins s'.world c
    · exact hold hx ((deeds_append hh _).trans (if_neg (Nat.ne_of_gt (hs.isNumbered.ongoing x hx))))
  · have hnumbers := hs.isNumbered.nodup
    rw [he, List.map_append, List.map_cons, List.nodup_middle, List.nodup_cons,
      ← List.map_append] at hnumbers
    have hother (hx : x ∈ newer ++ older) : P s'.world (s'.deeds x.number) x.activation := by
      refine hold ?_ ((deeds_append hh _).trans (if_neg fun h => hnumbers.1 ?_))
      · rw [he]
        simp only [List.mem_append, List.mem_cons] at hx ⊢
        grind
      · exact List.mem_map.mpr ⟨x, hx, h.symm⟩
    rw [ho] at hx
    cases a' with
    | none => exact hother (by simpa using hx)
    | some a' =>
      by_cases hxk : x = ⟨t, k, a'⟩
      · subst hxk
        rw [deeds_append hh, if_pos rfl]
        exact moves _ _ _ _ _ _ (ih ⟨t, k, a⟩ (he ▸ by simp)) hm ht.grows
      · refine hother ?_
        simp only [Option.map_some, Option.toList_some, List.mem_append, List.mem_singleton] at hx ⊢
        grind

end System

end Rendezvous
