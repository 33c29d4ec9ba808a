import Rendezvous.Proofs.Requests.Pass
import Rendezvous.Proofs.Threads.Courses

/-!
# Failures of completion hooks

The completion hook of an interceptor is user code itself, or it ends the life of a cell and calls
the completion callback of the cell. A failure that escapes from it and stops the pass of a request
is one that this user code raised: the library adds none of its own.

## Main definitions

* `Invocation.IsCompletion`: a call of user code as a completion hook of a request, or as the
  completion callback of a cell.
* `HookCourse`: where a completion hook stands.

## Main results

* `System.Reachable.hasFailed_of_isStopped`: the failure that stopped the pass of a request was
  raised by such user code.
-/

namespace Rendezvous

/-- The failure that user code raises in an event, and the call of it. -/
def Event.failure? (e : Event) : Option (Invocation × Failure) :=
  match e.deed with
  | .answer i (.raised f) => some (i, f)
  | _ => none

/-- Whether user code is called as the completion callback of a cell, or as the completion hook of
an interceptor that accompanies a request. -/
def Invocation.IsCompletion (x : Request) (i : Invocation) : Prop :=
  i.role = .onCompletion ∨
    i.role = .completion ∧ ∃ a b, .custom a b i.callback ∈ x.interceptors

/-- Where a completion hook of a request stands, and the frames above the one that waits for it.
Every failure with which it ends and that escapes has the property `R`. -/
inductive HookCourse (x : Request) (R : Failure → Prop) : Control → List Frame → Prop
  | custom (i j k : CallbackId) (h : .custom i j k ∈ x.interceptors) :
    HookCourse x R (.inside ⟨k, .completion, none⟩) []
  | expire (c : CellId) : HookCourse x R (.ready (.cell c .expire)) []
  | callback (c : CellId) : HookCourse x R (.ready (.cell c .completionCallback)) []
  | inside (c : CellId) (id : CallbackId) :
    HookCourse x R (.inside ⟨id, .onCompletion, none⟩) [.cell c .completionCallback]
  | answered (c : CellId) (o : Outcome) (h : ∀ f, o = .raised f → f.isOrdinary = false → R f) :
    HookCourse x R (.ended o) [.cell c .completionCallback]
  | ended (o : Outcome) (h : ∀ f, o = .raised f → f.isOrdinary = false → R f) :
    HookCourse x R (.ended o) []

/-- Whether the completion hooks of a request for which a call waits stand on their courses. -/
def Activation.RunsHooks (x : Request) (R : Failure → Prop) (q : RequestId) (a : Activation) :
    Prop :=
  ∀ above rest below, a.frames = above ++ .request q (.completionHook rest) :: below →
    HookCourse x R a.control above

variable {w : World} {p : Point} {q : RequestId} {frames : List Frame} {x y : Request}
  {R R' : Failure → Prop} {a : Activation}

private theorem World.Grows.interceptors_subset {w' : World} (hw : w.Grows w') (hb : w.IsBounded)
    (q : RequestId) : (w.request q).interceptors ⊆ (w'.request q).interceptors := by
  by_cases hq : q < w.requestCount
  · rw [Request.interceptors_eq_of_fixed (hw.request q hq).fixed]
    exact List.Subset.refl _
  · rw [hb.unmade q (Nat.not_lt.mp hq)]
    exact List.nil_subset _

private theorem HookCourse.mono {control : Control} {above : List Frame}
    (h : HookCourse x R control above) (hxy : x.interceptors ⊆ y.interceptors)
    (hR : ∀ f, R f → R' f) : HookCourse y R' control above := by
  cases h with
  | custom i j k h => exact .custom i j k (hxy h)
  | expire c => exact .expire c
  | callback c => exact .callback c
  | inside c id => exact .inside c id
  | answered c o h => exact .answered c o fun f hf he => hR f (h f hf he)
  | ended o h => exact .ended o fun f hf he => hR f (h f hf he)

/-- A step leaves the hooks for which a call waits on their courses, and calls new ones at the start
of theirs. -/
private theorem runsHooks_step (ha : (⟨.ready p, frames⟩ : Activation).RunsHooks x R q)
    (hp : p.Closes w) (hx : (w.request q).interceptors ⊆ x.interceptors) :
    (Activation.follow frames (p.step w).next).RunsHooks x R q := by
  have hway := p.way_step w
  generalize (p.step w).next = n at hway
  intro above rest below hf
  cases n with
  | goto p' =>
    have hold := ha above rest below hf
    cases hold with
    | expire c =>
      cases hway
      exact .callback c
    | callback c => cases hway
  | call f p' =>
    rcases List.cons_eq_append_iff.mp hf with ⟨rfl, hcons⟩ | ⟨above', rfl, hframes⟩
    · cases hcons
      cases hway
      exact .expire _
    · have hold := ha above' rest below hframes
      cases hold <;> cases hway
  | invoke f i =>
    rcases List.cons_eq_append_iff.mp hf with ⟨rfl, hcons⟩ | ⟨above', rfl, hframes⟩
    · cases hcons
      cases hway with
      | completionHooksCustom _ i j k _ =>
        have hclosing : w.IsClosing q (.custom i j k :: rest) := hp
        exact .custom i j k (hx (hclosing.subset List.mem_cons_self))
    · have hold := ha above' rest below hframes
      cases hold with
      | expire c => cases hway
      | callback c =>
        cases hway
        exact .inside c _
  | finish o =>
    have hplain : o.IsPlain := by cases hway; assumption
    have hcontained (f : Failure) (hf : o = .raised f) (he : f.isOrdinary = false) : R f := by
      subst hf
      exact absurd hplain (by simp [Outcome.IsPlain, he])
    have hold := ha above rest below hf
    cases hold <;> exact .ended o hcontained

/-- A frame that goes on leaves the hooks for which a call waits on their courses. -/
private theorem runsHooks_resume {f : Frame} {o : Outcome}
    (ha : (⟨.ended o, f :: frames⟩ : Activation).RunsHooks x R q) :
    (Activation.follow frames (f.resume w o).next).RunsHooks x R q := by
  -- Above a completion hook no frame waits for an outcome but that of the callback of a cell.
  have hold {above below : List Frame} {rest : List Interceptor}
      (hf : frames = above ++ .request q (.completionHook rest) :: below) : above = [] ∧
        ∃ o', (f.resume w o).next = .finish o' ∧
          ∀ e, o' = .raised e → e.isOrdinary = false → R e := by
    have hcourse := ha (f :: above) rest below (by rw [hf]; rfl)
    generalize hall : f :: above = all at hcourse
    cases hcourse with
    | answered c o h =>
      cases hall
      refine ⟨rfl, ?_⟩
      simp only [Frame.resume, CellFrame.resume, contain]
      split
      · exact ⟨.returned .unit, rfl, by simp⟩
      · rename_i e
        split
        · exact ⟨.returned .unit, rfl, by simp⟩
        · exact ⟨.raised e, rfl, h⟩
    | ended => cases hall
  have hway := f.way_resume w o
  generalize (f.resume w o).next = n at hway hold
  intro above rest below hf
  cases n with
  | goto p =>
    obtain ⟨-, o', ho', -⟩ := hold hf
    cases ho'
  | call g p =>
    rcases List.cons_eq_append_iff.mp hf with ⟨rfl, hcons⟩ | ⟨above', rfl, hframes⟩
    · cases hcons
      cases hway
    · obtain ⟨-, o', ho', -⟩ := hold hframes
      cases ho'
  | invoke g i => cases hway
  | finish o' =>
    obtain ⟨rfl, o'', ho, hR⟩ := hold hf
    cases ho
    exact .ended o' hR

/-- User code that answers leaves the hooks for which a call waits on their courses. -/
private theorem runsHooks_answer {i : Invocation} {o : Outcome}
    (ha : (⟨.inside i, frames⟩ : Activation).RunsHooks x R q)
    (ho : ∀ f, o = .raised f → i.IsCompletion x → R f) :
    (⟨.ended o, frames⟩ : Activation).RunsHooks x R q := by
  intro above rest below hf
  have hold := ha above rest below hf
  cases hold with
  | custom i j k h => exact .ended o fun f hf _ => ho f hf (.inr ⟨rfl, i, j, h⟩)
  | inside c id => exact .answered c o fun f hf _ => ho f hf (.inl rfl)

namespace System

variable {s s' : System} {m : Move} {allowed : Move → Prop}

/-- The failures that user code has raised, in order, with the calls of it. -/
def failures (s : System) : List (Invocation × Failure) :=
  s.history.filterMap Event.failure?

/-- Whether user code that is called when a request is completed has raised a failure. -/
def HasFailed (s : System) (q : RequestId) (f : Failure) : Prop :=
  ∃ i, (i, f) ∈ s.failures ∧ i.IsCompletion (s.world.request q)

private theorem HasFailed.grow {f : Failure} (h : s.HasFailed q f) (hb : s.IsBounded)
    (hw : s.world.Grows s'.world) (hh : s.history <+: s'.history) : s'.HasFailed q f := by
  obtain ⟨i, hmem, hi⟩ := h
  exact ⟨i, (hh.filterMap _).subset hmem, hi.imp_right fun ⟨hrole, a, b, hc⟩ =>
    ⟨hrole, a, b, hw.interceptors_subset hb.world q hc⟩⟩

/-- In every call, the completion hooks of a request stand on their courses. -/
private theorem Reachable.runsHooks (hs : Reachable allowed s) (q : RequestId) :
    ∀ x ∈ s.ongoing, x.activation.RunsHooks (s.world.request q) (s.HasFailed q) q := by
  refine hs.induction (I := fun s => ∀ x ∈ s.ongoing,
    x.activation.RunsHooks (s.world.request q) (s.HasFailed q) q) (fun _ _ => by simp)
    fun s m s' hs _ ht ih y hy => ?_
  have hsub := ht.grows.interceptors_subset hs.isBounded.world q
  have hold {a : Activation} (ha : a.RunsHooks (s.world.request q) (s.HasFailed q) q) :
      a.RunsHooks (s'.world.request q) (s'.HasFailed q) q := fun above rest below hf =>
    (ha above rest below hf).mono hsub fun f h =>
      h.grow hs.isBounded ht.grows ht.history_prefix
  rcases ht.mem_ongoing hy with hy | ⟨c, hc, -⟩ | ⟨a, d, hx, hm, hh⟩
  · exact hold (ih y hy)
  · rw [hc]
    intro above rest below hf
    simp [Call.frames_activation] at hf
  · have ha := hold (ih _ hx)
    generalize y.activation = b at hm
    cases hm with
    | step p frames => exact runsHooks_step ha ((hs.closes _ hx).point p rfl) hsub
    | resume o f frames => exact runsHooks_resume ha
    | answer i frames o =>
      refine runsHooks_answer ha fun f hf hi => ⟨i, ?_, hi⟩
      rw [failures, hh, hf, filterMap_append_cons]
      simp [Event.failure?]

/-- A failure that stops the pass of a request was raised by user code that is called when the
request is completed. -/
theorem Reachable.hasFailed_of_isStopped (hs : Reachable allowed s) (h : s.IsStopped q) :
    ∃ f, f.isOrdinary = false ∧ s.HasFailed q f := by
  obtain ⟨rest, hrest⟩ := h
  obtain ⟨s₀, t, j, f, frames, hs₀, hgrows, hpre, hf, hx⟩ := hs.exists_of_stopped hrest
  have hcourse := hs₀.runsHooks q _ hx [] rest frames rfl
  cases hcourse with
  | ended o h => exact ⟨f, hf, (h f rfl hf).grow hs₀.isBounded hgrows hpre⟩

end System

end Rendezvous
