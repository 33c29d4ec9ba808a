import Rendezvous.Proofs.Coordinators.Accounting
import Rendezvous.Proofs.Failures.Origins
import Rendezvous.Proofs.Reentrancy.Releases

/-!
# What abandoning all requests counts

To abandon all requests, a coordinator lists those in flight, abandons one after the other and
returns the length of its list. By the time a request has its turn, somebody else may have completed
it: another call, or user code that this very call is running. So the number that is returned is
the number of requests in flight at the beginning. It is the number of those that the call completed
itself only where nobody else completed any of them.

## Main definitions

* `Deed.completion?`, `System.completions`: the requests that a call completed.
* `Deed.listed`, `System.listed`: the requests that a call has listed to abandon them.
* `Deed.visit?`: the request about which a call finds out that it is completed, or that it
  completes.
* `Activation.Sweeps`: how far a call that abandons all requests has come.
* `System.CountsAbandoned`: a call returned the number of requests that it completed.

## Main results

* `Activation.Sweeps.moves`: such a call visits the requests that it has listed, one by one.
* `System.Reachable.existsUnique_of_completed`: a completed request was completed by one call.
* `System.Reachable.countsAbandoned_iff`: what a call that abandons all requests returns.
-/

namespace Rendezvous

open Activation

/-- The request that a deed completes. -/
def Deed.completion? : Deed → Option RequestId
  | .step (.request q .complete) (.goto _) => some q
  | _ => none

/-- The requests that a deed lists to abandon them. -/
def Deed.listed : Deed → List RequestId
  | .step (.coordinator _ .abandonAll) (.goto (.coordinator _ (.abandonEach _ rest))) => rest
  | _ => []

/-- The request that is completed after a deed, be it by the deed itself or before it. -/
def Deed.visit? : Deed → Option RequestId
  | .step (.request q .checkAbandon) (.finish _) => some q
  | .step (.request q .complete) _ => some q
  | _ => none

namespace System

/-- The requests that a call has moved from not completed to completed, in order. -/
def completions (s : System) (n : CallNumber) : List RequestId :=
  (s.deeds n).filterMap Deed.completion?

/-- The requests that a call has listed to abandon them, in order. -/
def listed (s : System) (n : CallNumber) : List RequestId :=
  (s.deeds n).flatMap Deed.listed

/-- Whether a call has returned the number of requests that it has completed itself. -/
def CountsAbandoned (s : System) (n : CallNumber) : Prop :=
  .finish (.returned (.count (s.completions n).length)) ∈ s.deeds n

end System

/-- Whether a point of an abandonment comes before the request is known to be completed. -/
def Point.IsAbandoning (q : RequestId) : Point → Prop
  | .request r .checkAbandon | .request r .noteAbandon | .request r .complete => r = q
  | _ => False

/-- What is left of an abandonment once the request is known to be completed. -/
inductive Concluding (q : RequestId) : Control → List Frame → Prop
  | point (p : Point) (hp : p.IsClosing q) : Concluding q (.ready p) []
  | waiting (f : Frame) (control : Control) (above : List Frame) (hf : f.IsClosing q)
      (h : f.Shelters control above) : Concluding q control (above ++ [f])
  | answered (a : Answer) : Concluding q (.ended (.returned a)) []

/-- How far a call that abandons all requests has come, with the requests that it has listed and
those of them that it has visited. -/
inductive Activation.Sweeps (k : CoordinatorId) (listed visited : List RequestId) :
    Activation → Prop
  | next (rest : List RequestId) (h : listed = visited ++ rest) :
    Sweeps k listed visited ⟨.ready (.coordinator k (.abandonEach listed.length rest)), []⟩
  | abandoning (q : RequestId) (rest : List RequestId) (p : Point)
      (h : listed = visited ++ q :: rest) (hp : p.IsAbandoning q) :
    Sweeps k listed visited ⟨.ready p, [.abandoning k listed.length rest]⟩
  | concluding (q : RequestId) (rest : List RequestId) (control : Control) (above : List Frame)
      (h : listed = visited ++ rest) (hc : Concluding q control above) :
    Sweeps k listed visited ⟨control, above ++ [.abandoning k listed.length rest]⟩
  | answered (h : listed = visited) :
    Sweeps k listed visited ⟨.ended (.returned (.count listed.length)), []⟩

variable {w : World} {q : RequestId} {p : Point} {f : Frame} {frames above : List Frame}
  {control : Control} {o : Outcome} {k : CoordinatorId} {listed visited rest : List RequestId}
  {a a' : Activation} {d : Deed}

/-! ### One abandonment -/

namespace Concluding

/-- A step leaves an abandonment on the way to its end. -/
theorem step (h : Concluding q (.ready p) frames) (w : World) :
    Concluding q (follow frames (p.step w).next).control
      (follow frames (p.step w).next).frames := by
  cases h with
  | point _ hp =>
    have hshelters {f : Frame} := (p.way_step w).shelters (f := f) (q := q)
    rcases hp.next w with ⟨p', hn, hp'⟩ | ⟨f, hf, hclosing⟩ | ⟨hn, -⟩
    · exact hn ▸ .point p' hp'
    · have hwait := hshelters hf hclosing
      cases hn : (p.step w).next <;> simp only [hn, Next.frame?] at hf <;> cases hf <;>
        exact .waiting f _ [] hclosing (hn ▸ hwait)
    · exact hn ▸ .answered _
  | waiting f _ above hf h =>
    rw [follow_append]
    exact .waiting f _ _ hf (h.step w)

/-- A frame that goes on leaves an abandonment on the way to its end. -/
theorem resume (h : Concluding q (.ended o) (f :: frames)) (w : World) :
    Concluding q (follow frames (f.resume w o).next).control
      (follow frames (f.resume w o).next).frames := by
  generalize hall : f :: frames = all at h
  cases h with
  | answered => cases hall
  | waiting g _ above hg h =>
    rcases List.cons_eq_append_iff.mp hall with ⟨rfl, hcons⟩ | ⟨above, rfl, rfl⟩
    · cases hcons
      obtain ⟨p, hn, hp⟩ := h.goes hg w
      exact hn ▸ .point p hp
    · rw [follow_append]
      exact .waiting g _ _ hg (h.resume w)

/-- User code that answers without an escaping failure leaves an abandonment on the way to its
end. -/
theorem answer {i : Invocation} (h : Concluding q (.inside i) frames) (ho : o.IsContainable) :
    Concluding q (.ended o) frames := by
  cases h with
  | waiting f _ above hf h => exact .waiting f _ above hf (h.answer fun _ => ho)

/-- What is left of an abandonment lists and visits nothing. -/
theorem quiet (h : Concluding q (.ready p) frames) (n : Next) :
    (Deed.step p n).listed = [] ∧ (Deed.step p n).visit? = none := by
  cases h with
  | point _ hp =>
    unfold Point.IsClosing at hp
    split at hp <;> first | exact hp.elim | exact ⟨rfl, rfl⟩
  | waiting f _ above hf h => cases h <;> exact ⟨rfl, rfl⟩

end Concluding

/-! ### All abandonments of a call -/

/-- A step before a request is known to be completed: it stays so, or the request is visited. -/
private theorem Point.IsAbandoning.next (hp : p.IsAbandoning q) (w : World) :
    (Deed.step p (p.step w).next).listed = [] ∧
    ((∃ p', (p.step w).next = .goto p' ∧ p'.IsAbandoning q ∧
        (Deed.step p (p.step w).next).visit? = none) ∨
      (Deed.step p (p.step w).next).visit? = some q ∧
        Concluding q (follow [] (p.step w).next).control (follow [] (p.step w).next).frames) := by
  unfold Point.IsAbandoning at hp
  split at hp
  case h_4 => cases hp
  all_goals subst hp
  case h_1 r =>
    refine ⟨rfl, ?_⟩
    cases hc : (w.request r).completed with
    | true =>
      simp only [Point.step, RequestPoint.step, hc]
      exact .inr ⟨rfl, .answered .unit⟩
    | false =>
      simp only [Point.step, RequestPoint.step, hc]
      exact .inl ⟨_, rfl, rfl, rfl⟩
  case h_2 r => exact ⟨rfl, .inl ⟨.request r .complete, rfl, rfl, rfl⟩⟩
  case h_3 r =>
    refine ⟨rfl, .inr ?_⟩
    cases hc : (w.request r).completed with
    | true =>
      simp only [Point.step, RequestPoint.step, hc]
      exact ⟨rfl, .answered .unit⟩
    | false =>
      simp only [Point.step, RequestPoint.step, hc]
      exact ⟨rfl, .point _ rfl⟩

namespace Activation.Sweeps

private theorem step (h : Sweeps k listed visited ⟨.ready p, frames⟩) (w : World) :
    (Deed.step p (p.step w).next).listed = [] ∧
      Sweeps k listed (visited ++ (Deed.step p (p.step w).next).visit?.toList)
        (follow frames (p.step w).next) := by
  generalize hready : (⟨.ready p, frames⟩ : Activation) = a at h
  cases h with
  | next rest h =>
    cases hready
    refine ⟨rfl, ?_⟩
    simp only [Deed.visit?, Option.toList_none, List.append_nil]
    cases rest with
    | nil => exact .answered (by simpa using h)
    | cons q rest => exact .abandoning q rest _ h rfl
  | abandoning q rest p' h hp =>
    cases hready
    obtain ⟨hlisted, ⟨p', hn, hp', hvisit⟩ | ⟨hvisit, hc⟩⟩ := hp.next w
    · rw [hvisit, hn, Option.toList_none, List.append_nil]
      exact ⟨hn ▸ hlisted, .abandoning q rest p' h hp'⟩
    · rw [hvisit]
      exact ⟨hlisted, follow_append [] .. ▸ .concluding q rest _ _ (by simp [h]) hc⟩
  | concluding q rest control above h hc =>
    cases hready
    obtain ⟨hlisted, hvisit⟩ := hc.quiet (p.step w).next
    rw [hvisit, Option.toList_none, List.append_nil, follow_append]
    exact ⟨hlisted, .concluding q rest _ _ h (hc.step w)⟩
  | answered => cases hready

private theorem resume (h : Sweeps k listed visited ⟨.ended o, f :: frames⟩) (w : World) :
    Sweeps k listed visited (follow frames (f.resume w o).next) := by
  generalize hended : (⟨.ended o, f :: frames⟩ : Activation) = a at h
  cases h with
  | concluding q rest control above h hc =>
    obtain ⟨rfl, hframes⟩ := Activation.mk.inj hended
    rcases List.cons_eq_append_iff.mp hframes with ⟨rfl, hcons⟩ | ⟨above, rfl, rfl⟩
    · cases hcons
      generalize hnone : [] = frames at hc
      cases hc with
      | waiting => simp at hnone
      | answered a => exact .next rest h
    · rw [follow_append]
      exact .concluding q rest _ _ h (hc.resume w)
  | _ => cases hended

/-- A call that abandons all requests visits the requests that it has listed, one by one, unless a
failure escapes from user code that it calls. -/
theorem moves (h : Sweeps k listed visited a) (hm : a.Moves w d (some a'))
    (hd : ∀ i e, d = .answer i (.raised e) → e.isOrdinary = true) :
    d.listed = [] ∧ Sweeps k listed (visited ++ d.visit?.toList) a' := by
  cases hm with
  | step p frames => exact h.step w
  | resume o f frames =>
    simp only [Deed.visit?, Option.toList_none, List.append_nil]
    exact ⟨rfl, h.resume w⟩
  | answer i frames o =>
    simp only [Deed.visit?, Option.toList_none, List.append_nil]
    have ho : o.IsContainable := by
      cases o with
      | returned b => trivial
      | raised e => exact hd i e rfl
    generalize hinside : (⟨.inside i, frames⟩ : Activation) = a at h
    cases h with
    | concluding q rest control above h hc =>
      cases hinside
      exact ⟨rfl, .concluding q rest _ above h (hc.answer ho)⟩
    | _ => cases hinside

end Activation.Sweeps

/-- The deeds with which a call lists the requests that it is going to abandon. -/
def listing (k : CoordinatorId) (listed : List RequestId) : List Deed :=
  [.begin (.abandonAll k), .step (.coordinator k .abandonAll)
    (.goto (.coordinator k (.abandonEach listed.length listed)))]

/-- A call visits what it completes. -/
theorem Deed.visit?_of_completion? (h : d.completion? = some q) : d.visit? = some q := by
  unfold completion? at h
  split at h <;> cases h
  rfl

namespace System

variable {s s' : System} {allowed : Move → Prop} {n : CallNumber}

/-! ### Who completes a request -/

/-- What a call has completed, it has marked as completed. -/
theorem mem_completions_iff : q ∈ s.completions n ↔ ∃ t, ⟨t, n, .mark⟩ ∈ s.done q := by
  have hmark (d : Deed) : d.completion? = some q ↔ d.duty? q = some .mark := by
    constructor
    · intro h
      unfold Deed.completion? at h
      split at h <;> cases h
      exact if_pos rfl
    · intro h
      unfold Deed.duty? at h
      split at h <;> simp_all [Deed.completion?]
  constructor
  · intro h
    obtain ⟨d, hd, hq⟩ := List.mem_filterMap.mp h
    obtain ⟨t, he⟩ := mem_deeds.mp hd
    exact ⟨t, List.mem_filterMap.mpr ⟨_, he, by simp [Event.done?, (hmark d).mp hq]⟩⟩
  · rintro ⟨t, h⟩
    obtain ⟨⟨t, j, d⟩, he, hd⟩ := List.mem_filterMap.mp h
    obtain ⟨v, hv, hdone⟩ := Option.map_eq_some_iff.mp hd
    cases hdone
    exact List.mem_filterMap.mpr ⟨d, mem_deeds.mpr ⟨t, he⟩, (hmark d).mpr hv⟩

/-- A request is completed exactly if some call has completed it. -/
theorem Reachable.completed_iff_exists (hs : Reachable allowed s) :
    (s.world.request q).completed = true ↔ ∃ n, q ∈ s.completions n := by
  rw [hs.completed_iff, mem_milestones_iff .completed rfl, exists_comm]
  exact exists_congr fun n => mem_completions_iff.symm

/-- A completed request was completed by one call. -/
theorem Reachable.existsUnique_of_completed (hs : Reachable allowed s)
    (hc : (s.world.request q).completed = true) : ∃! n, q ∈ s.completions n := by
  obtain ⟨t, k, hby⟩ := (hs.isDutiful q).busy hc
  have hsame {n : CallNumber} (h : q ∈ s.completions n) : n = k := by
    obtain ⟨u, hmark⟩ := mem_completions_iff.mp h
    obtain ⟨v, -, hv⟩ := List.mem_map.mp (hby.done.subset hmark)
    cases hv
    rfl
  obtain ⟨n, hn⟩ := hs.completed_iff_exists.mp hc
  exact ⟨n, hn, fun j hj => (hsame hj).trans (hsame hn).symm⟩

/-- A request that a call visits is completed. -/
theorem Reachable.completed_of_visit (hs : Reachable allowed s) (hd : d ∈ s.deeds n)
    (hq : d.visit? = some q) : (s.world.request q).completed = true := by
  obtain ⟨t, he⟩ := mem_deeds.mp hd
  unfold Deed.visit? at hq
  split at hq <;> cases hq
  · obtain ⟨s₀, frames, hs₀, hl, -, hn⟩ := hs.exists_of_step he
    refine hl.grows.completed hs₀.isBounded.world (Bool.eq_true_of_not_eq_false fun hc => ?_)
    simp [Point.step, RequestPoint.step, hc] at hn
  · obtain ⟨s₀, frames, hs₀, hl, -, rfl⟩ := hs.exists_of_step he
    cases hc : (s₀.world.request q).completed with
    | true => exact hl.grows.completed hs₀.isBounded.world hc
    | false =>
      refine hs.completed_iff_exists.mpr ⟨n, List.mem_filterMap.mpr ⟨_, hd, ?_⟩⟩
      simp [Point.step, RequestPoint.step, hc, Deed.completion?]

/-- No two requests in flight with a coordinator are the same. -/
theorem Reachable.nodup_values (hs : Reachable allowed s) (k : CoordinatorId) :
    (s.world.coordinator k).active.values.Nodup := by
  rw [Directory.values, hs.entries_active k, List.map_map]
  exact (List.map_id _).symm ▸ (hs.nodup_registrations k).filter _

/-! ### The number that is returned -/

/-- A call that abandons all requests lists them first and visits them one by one. -/
theorem Reachable.sweeps (hs : Reachable allowed s) {x : Ongoing} (hx : x ∈ s.ongoing)
    (hb : (s.deeds x.number).head? = some (.begin (.abandonAll k)))
    (ho : ∀ i e, .answer i (.raised e) ∈ s.deeds x.number → e.isOrdinary = true) :
    s.deeds x.number = [.begin (.abandonAll k)] ∧
      x.activation = (Call.abandonAll k).activation ∨
    ∃ listed later, s.deeds x.number = listing k listed ++ later ∧
      later.flatMap Deed.listed = [] ∧
      x.activation.Sweeps k listed (later.filterMap Deed.visit?) := by
  -- Every call has begun with some call, and with this one it goes on like this.
  have hcourse := hs.forall_course (P := fun _ ds a => ∃ call, ds.head? = some (.begin call) ∧
    (call = .abandonAll k → (∀ i e, Deed.answer i (.raised e) ∈ ds → e.isOrdinary = true) →
      ds = [.begin (.abandonAll k)] ∧ a = (Call.abandonAll k).activation ∨
      ∃ listed later, ds = listing k listed ++ later ∧ later.flatMap Deed.listed = [] ∧
        a.Sweeps k listed (later.filterMap Deed.visit?)))
    (fun w c => ⟨c, rfl, fun hc _ => hc ▸ .inl ⟨rfl, rfl⟩⟩) (fun w w' ds a h _ => h)
    fun w w' ds a d a' ⟨call, hcall, h⟩ hm _ => ?_
  · obtain ⟨call, hcall, h⟩ := hcourse x hx
    exact h (by simpa [hcall] using hb) ho
  · refine ⟨call, by simp [List.head?_append, hcall], fun hc ho => ?_⟩
    rcases h hc fun i e he => ho i e (List.mem_append_left _ he) with
      ⟨rfl, rfl⟩ | ⟨listed, later, rfl, hlater, hsweeps⟩
    · cases hm
      exact .inr ⟨_, [], rfl, rfl, .next _ rfl⟩
    · obtain ⟨hd, hsweeps⟩ := hsweeps.moves hm fun i e he => ho i e (by simp [he])
      refine .inr ⟨listed, later ++ [d], by simp, by simp [hlater, hd], ?_⟩
      rw [filterMap_append_cons]
      simpa using hsweeps

/-- What a call that abandons all requests has done by the time it is over. -/
private theorem Reachable.deeds_abandonAll (hs : Reachable allowed s) {o : Outcome}
    (hb : (s.deeds n).head? = some (.begin (.abandonAll k)))
    (hordinary : ∀ i e, .answer i (.raised e) ∈ s.deeds n → e.isOrdinary = true)
    (ho : .finish o ∈ s.deeds n) : o = .returned (.count (s.listed n).length) ∧
      .step (.coordinator k .abandonAll) (.goto
        (.coordinator k (.abandonEach (s.listed n).length (s.listed n)))) ∈ s.deeds n ∧
      (s.deeds n).filterMap Deed.visit? = s.listed n := by
  obtain ⟨s₀, t, hs₀, -, hx, hdeeds⟩ := hs.exists_of_finish ho
  have hsub : s₀.deeds n ⊆ s.deeds n := hdeeds ▸ List.subset_append_left ..
  have hhead : (s₀.deeds n).head? = some (.begin (.abandonAll k)) := by
    rw [hdeeds, List.head?_append] at hb
    cases h : (s₀.deeds n).head? with
    | none => simp [h] at hb
    | some d => simpa [h] using hb
  rcases hs₀.sweeps hx hhead fun i e he => hordinary i e (hsub he) with
    ⟨-, hnone⟩ | ⟨listed, later, hlater, hnone, hsweeps⟩
  · cases hnone
  · have hlisted : s.listed n = listed := by
      simp [System.listed, hdeeds, hlater, listing, Deed.listed, hnone]
    have hvisits : (s.deeds n).filterMap Deed.visit? = later.filterMap Deed.visit? := by
      simp [hdeeds, hlater, listing, List.filterMap_cons, Deed.visit?]
    generalize hended : (⟨.ended o, []⟩ : Activation) = a at hsweeps
    cases hsweeps with
    | answered h =>
      cases hended
      rw [hvisits, hlisted]
      exact ⟨rfl, hsub (by simp [hlater, listing]), h.symm⟩
    | concluding => simp at hended
    | _ => cases hended

/-- What a call that abandons all requests returns, whatever user code and other calls do meanwhile,
if no failure that escapes arises in the user code that the call runs. It returns how many requests
it has listed, and these are the requests that were in flight when it listed them. By the end each
of them is completed, by one call. Those that the call has completed itself are among them, in the
same order. So the number is that of the requests that the call has abandoned exactly if no other
call has completed one of those that it had listed. -/
theorem Reachable.countsAbandoned_iff (hs : Reachable Move.any s) {o : Outcome}
    (hb : (s.deeds n).head? = some (.begin (.abandonAll k)))
    (hordinary : ∀ i e, .answer i (.raised e) ∈ s.deeds n → e.isOrdinary = true)
    (ho : .finish o ∈ s.deeds n) :
    o = .returned (.count (s.listed n).length) ∧
    (∃ s₀ t frames, Reachable Move.any s₀ ∧ Leads Move.any s₀ s ∧
      ⟨t, n, ⟨.ready (.coordinator k .abandonAll), frames⟩⟩ ∈ s₀.ongoing ∧
      s.listed n = (s₀.world.coordinator k).active.values) ∧
    (s.completions n).Sublist (s.listed n) ∧
    (∀ q ∈ s.listed n, (s.world.request q).completed = true ∧ ∃! j, q ∈ s.completions j) ∧
    (s.CountsAbandoned n ↔ ∀ q ∈ s.listed n, ∀ j, q ∈ s.completions j → j = n) := by
  obtain ⟨rfl, hlisting, hvisits⟩ := hs.deeds_abandonAll hb hordinary ho
  obtain ⟨t, he⟩ := mem_deeds.mp hlisting
  obtain ⟨s₀, frames, hs₀, hl, hx, hn⟩ := hs.exists_of_step he
  obtain ⟨-, hlisted⟩ : _ ∧ s.listed n = (s₀.world.coordinator k).active.values := by
    simpa [Point.step, CoordinatorPoint.step] using hn
  have hsub : (s.completions n).Sublist (s.listed n) :=
    hvisits ▸ filterMap_sublist_filterMap (fun d q hq => Deed.visit?_of_completion? hq) _
  have hcompleted (q : RequestId) (hq : q ∈ s.listed n) :
      (s.world.request q).completed = true ∧ ∃! j, q ∈ s.completions j := by
    obtain ⟨d, hd, hvisit⟩ := List.mem_filterMap.mp (hvisits ▸ hq)
    have hc := hs.completed_of_visit hd hvisit
    exact ⟨hc, hs.existsUnique_of_completed hc⟩
  refine ⟨rfl, ⟨s₀, t, frames, hs₀, hl, hx, hlisted⟩, hsub, hcompleted, fun hcounts q hq j hj => ?_,
    fun hmine => ?_⟩
  · -- As many as it has listed, and all of them listed: these are the requests that it has listed.
    have hcount := (hs.deeds_abandonAll hb hordinary hcounts).1
    have hall : s.completions n = s.listed n := hsub.eq_of_length (by simpa using hcount)
    exact (hcompleted q hq).2.unique hj (hall ▸ hq)
  · have hall : s.listed n ⊆ s.completions n := fun q hq => by
      obtain ⟨j, hj, -⟩ := (hcompleted q hq).2
      exact hmine q hq j hj ▸ hj
    have hnodup : (s.listed n).Nodup := hlisted ▸ hs₀.nodup_values k
    have hle := (hnodup.subperm hall).length_le
    have hsame : (s.completions n).length = (s.listed n).length :=
      Nat.le_antisymm hsub.length_le hle
    rw [CountsAbandoned, hsame]
    exact ho

/-- A request is started on each of two cells. -/
def startingBoth : List Move :=
  starting ++ .begin 0 (.start 0 1 (some "e") []) :: List.replicate 9 (.advance 0) ++ [.finish 0]

/-- Two requests are started, and both are abandoned. -/
def abandonedBoth : List Move :=
  startingBoth ++ .begin 1 (.abandonAll 0) :: List.replicate 32 (.advance 1) ++ [.finish 1]

theorem countsAbandoned_abandonedBoth :
    ∃ s, run { world := untimed } abandonedBoth = some s ∧ s.CountsAbandoned 2 := by
  obtain ⟨s, hs⟩ : ∃ s, run { world := untimed } abandonedBoth = some s := ⟨_, rfl⟩
  have hshown : (run { world := untimed } abandonedBoth).map (fun s =>
      ((s.deeds 2).head?, (s.deeds 2).getLast?, s.listed 2, s.completions 0, s.completions 1,
        s.begun, s.failures)) =
      some (some (.begin (.abandonAll 0)), some (.finish (.returned (.count 2))), [0, 1], [], [], 3,
        []) := rfl
  simp only [hs, Option.map_some, Option.some.injEq, Prod.mk.injEq] at hshown
  obtain ⟨hbegin, hfinish, hlisted, h₀, h₁, hbegun, hfailures⟩ := hshown
  have hreach := reachable_of_run isNew_untimed hs
  have hordinary : s.IsOrdinary := by simp [IsOrdinary, hfailures]
  obtain ⟨-, -, -, -, hiff⟩ := hreach.countsAbandoned_iff hbegin
    (fun _ _ => hordinary.of_mem_deeds) (List.mem_of_getLast? hfinish)
  refine ⟨s, hs, hiff.mpr fun q _ j hj => ?_⟩
  -- Only three calls have begun, and the first two have completed nothing.
  obtain ⟨d, hd, -⟩ := List.mem_filterMap.mp hj
  obtain ⟨t, he⟩ := mem_deeds.mp hd
  have hlt : j < 3 := hbegun ▸ hreach.isNumbered.history _ he
  match j, hlt with
  | 0, _ => simp [h₀] at hj
  | 1, _ => simp [h₁] at hj
  | 2, _ => rfl

/-- Two requests are started, and the cell of the first gets a completion callback. When both are
abandoned, the first is completed, and that callback resolves the cell of the second. -/
def answeredMeanwhile : List Move :=
  startingBoth ++ .begin 0 (.setCallback 0 .completion (some "c")) :: .advance 0 :: .finish 0 ::
    .begin 0 (.abandonAll 0) :: List.replicate 9 (.advance 0) ++
    .begin 0 (.setResult 1 (.text "A")) :: List.replicate 6 (.advance 0) ++
    .answer 0 (.ok .null) :: List.replicate 14 (.advance 0) ++ .finish 0 ::
    .answer 0 (.ok .null) :: List.replicate 12 (.advance 0) ++ [.finish 0]

theorem not_countsAbandoned_answeredMeanwhile :
    ∃ s, run { world := untimed } answeredMeanwhile = some s ∧ Reachable Move.any s ∧
      (s.deeds 3).head? = some (.begin (.abandonAll 0)) ∧ s.failures = [] ∧
      .finish (.returned (.count 2)) ∈ s.deeds 3 ∧ s.completions 3 = [0] ∧
      s.completions 4 = [1] ∧ ¬ s.CountsAbandoned 3 := by
  obtain ⟨s, hs⟩ : ∃ s, run { world := untimed } answeredMeanwhile = some s := ⟨_, rfl⟩
  have hshown : (run { world := untimed } answeredMeanwhile).map (fun s =>
      ((s.deeds 3).head?, (s.deeds 3).getLast?, s.listed 3, s.completions 3, s.completions 4,
        s.failures)) =
      some (some (.begin (.abandonAll 0)), some (.finish (.returned (.count 2))), [0, 1], [0], [1],
        []) := rfl
  simp only [hs, Option.map_some, Option.some.injEq, Prod.mk.injEq] at hshown
  obtain ⟨hbegin, hfinish, hlisted, hmine, hother, hfailures⟩ := hshown
  have hreach := reachable_of_run isNew_untimed hs
  have hordinary : s.IsOrdinary := by simp [IsOrdinary, hfailures]
  have hmem := List.mem_of_getLast? hfinish
  refine ⟨s, hs, hreach, hbegin, hfailures, hmem, hmine, hother, fun hcounts => ?_⟩
  obtain ⟨hcount, -⟩ := hreach.deeds_abandonAll hbegin (fun _ _ => hordinary.of_mem_deeds) hcounts
  simp [hmine, hlisted] at hcount

end System

end Rendezvous
