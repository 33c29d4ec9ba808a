import Rendezvous.Proofs.Reentrancy.Traces
import Rendezvous.Proofs.Settlement.Settling

/-!
# Alone, a call releases what it completes

A call that completes a request goes on to its completion hooks and releases those who wait. It does
so before it ends, whatever calls user code makes meanwhile, unless a failure escapes from a
completion hook. So where every completed request is released before a call, every completed request
is released after it.

What holds a call to it is that it is closing the request: it stands on the way from the completion
to the release, or waits for something on that way.

## Main definitions

* `Invocation.CompletesIn`: a call of user code as a completion hook or callback.
* `Conduct.SparesCompletion`: user code that lets no failure escape from there.
* `Activation.IsClosing`: a call in progress that is to release a request.
* `Frame.Shelters`: what stands above a frame that waits, so that no failure escapes to it.
* `Activation.IsCalm`: above what waits on the way to a release, no failure escapes.

## Main results

* `Activation.Unfolds.completes`: a completion comes to its end and has released the request.
* `Activation.Unfolds.released`: after a call, every completed request is released.
-/

namespace Rendezvous

open Activation

/-- Whether user code is called as a completion hook or as a completion callback. -/
def Invocation.CompletesIn (i : Invocation) : Prop :=
  i.role = .onCompletion ∨ i.role = .completion

/-- Whether user code lets no failure escape from completion hooks and callbacks. -/
def Conduct.SparesCompletion (P : Conduct) : Prop :=
  ∀ w i a, i.CompletesIn → P.mayAnswer w i a → (Outcome.ofUser a).IsContainable

/-- Whether a point is on the way from the completion of a request to its release. -/
def Point.IsClosing (q : RequestId) : Point → Prop
  | .request r .cancelTimer | .request r (.completionHooks _) | .request r .tellListener
  | .request r .release => r = q
  | _ => False

/-- Whether a frame waits for something on the way from the completion of a request to its
release. -/
def Frame.IsClosing (q : RequestId) : Frame → Prop
  | .request r (.completionHook _) | .request r .told => r = q
  | _ => False

/-- Whether a call in progress is on the way to the release of a request. -/
def Activation.IsClosing (q : RequestId) (a : Activation) : Prop :=
  (∃ p, a.control = .ready p ∧ p.IsClosing q) ∨ ∃ f ∈ a.frames, f.IsClosing q

/-- What stands above a frame that waits on the way to a release, so that no failure escapes to it:
a completion hook, or the step that retires the request. -/
inductive Frame.Shelters : Frame → Control → List Frame → Prop
  | expire (q : RequestId) (rest : List Interceptor) (c : CellId) :
    Shelters (.request q (.completionHook rest)) (.ready (.cell c .expire)) []
  | callback (q : RequestId) (rest : List Interceptor) (c : CellId) :
    Shelters (.request q (.completionHook rest)) (.ready (.cell c .completionCallback)) []
  | hook (q : RequestId) (rest : List Interceptor) (i : Invocation) (hi : i.CompletesIn) :
    Shelters (.request q (.completionHook rest)) (.inside i) []
  | inside (q : RequestId) (rest : List Interceptor) (c : CellId) (i : Invocation)
      (hi : i.CompletesIn) :
    Shelters (.request q (.completionHook rest)) (.inside i) [.cell c .completionCallback]
  | answered (q : RequestId) (rest : List Interceptor) (c : CellId) (o : Outcome)
      (ho : o.IsContainable) :
    Shelters (.request q (.completionHook rest)) (.ended o) [.cell c .completionCallback]
  | ended (q : RequestId) (rest : List Interceptor) (o : Outcome) (ho : o.IsContainable) :
    Shelters (.request q (.completionHook rest)) (.ended o) []
  | retire (q : RequestId) (k : CoordinatorId) :
    Shelters (.request q .told) (.ready (.coordinator k (.retire q))) []
  | retired (q : RequestId) (b : Answer) : Shelters (.request q .told) (.ended (.returned b)) []

/-- Whether no failure escapes to what waits on the way to the release of a request. -/
def Activation.IsCalm (q : RequestId) (a : Activation) : Prop :=
  ∀ above f below, a.frames = above ++ f :: below → f.IsClosing q → f.Shelters a.control above

variable {P : Conduct} {w w' : World} {q : RequestId} {p : Point} {f : Frame}
  {frames : List Frame} {acts : List Act} {o : Outcome} {a : Activation} {n : Next} {c : Call}

/-! ### Sheltered calls -/

namespace Frame.Shelters

variable {above : List Frame} {g : Frame}

/-- A step above a frame that waits on the way to a release leaves it sheltered. -/
theorem step (h : f.Shelters (.ready p) above) (w : World) :
    f.Shelters (follow above (p.step w).next).control (follow above (p.step w).next).frames := by
  have hway := p.way_step w
  generalize hn : (p.step w).next = n at hway
  cases h with
  | expire =>
    cases hway with
    | finish _ _ ho => exact .ended _ _ _ ho.isContainable
    | expire => exact .callback ..
  | callback =>
    cases hway with
    | finish _ _ ho => exact .ended _ _ _ ho.isContainable
    | completionCallback => exact .inside _ _ _ _ (.inl rfl)
  | retire =>
    cases hn
    exact .retired ..

/-- A completion callback that has ended returns to the hook that called it. -/
theorem resume (h : f.Shelters (.ended o) (g :: above)) (w : World) :
    f.Shelters (follow above (g.resume w o).next).control
      (follow above (g.resume w o).next).frames := by
  cases h with
  | answered q rest c _ ho =>
    have hn : ((Frame.cell c .completionCallback).resume w o).next = .ret .unit :=
      ho.next_contain ..
    rw [hn]
    exact .ended _ _ _ trivial

/-- User code that answers leaves a frame sheltered, if it lets no failure escape from completion
hooks. -/
theorem answer {i : Invocation} (h : f.Shelters (.inside i) above)
    (ho : i.CompletesIn → o.IsContainable) : f.Shelters (.ended o) above := by
  cases h with
  | hook _ _ _ hi => exact .ended _ _ _ (ho hi)
  | inside _ _ _ _ hi => exact .answered _ _ _ _ (ho hi)

/-- A sheltered frame goes on to the release. -/
theorem goes (h : f.Shelters (.ended o) []) (hf : f.IsClosing q) (w : World) :
    ∃ p, (f.resume w o).next = .goto p ∧ p.IsClosing q := by
  cases h with
  | ended r rest _ ho => exact ⟨.request r (.completionHooks rest), ho.next_contain .., hf⟩
  | retired r b => exact ⟨.request r .release, rfl, hf⟩

end Frame.Shelters

/-! ### Calm calls -/

theorem Activation.IsCalm.of_frames_eq_nil (h : a.frames = []) : a.IsCalm q := by
  intro above f below hf
  simp [h] at hf

/-- A call that goes on stays calm if what it waits for now is sheltered, and if what was sheltered
stays so. -/
private theorem Activation.IsCalm.of_follow
    (hnew : ∀ f, n.frame? = some f → f.IsClosing q → f.Shelters (follow [] n).control [])
    (hold : ∀ above f below, frames = above ++ f :: below → f.IsClosing q →
      f.Shelters (follow above n).control (follow above n).frames) :
    (follow frames n).IsCalm q := by
  intro above g below hframes hg
  cases n with
  | goto p => exact hold above g below hframes hg
  | finish o => exact hold above g below hframes hg
  | call f p =>
    rcases List.cons_eq_append_iff.mp hframes with ⟨rfl, hcons⟩ | ⟨above, rfl, hbelow⟩
    · cases hcons
      exact hnew _ rfl hg
    · exact hold above g below hbelow hg
  | invoke f i =>
    rcases List.cons_eq_append_iff.mp hframes with ⟨rfl, hcons⟩ | ⟨above, rfl, hbelow⟩
    · cases hcons
      exact hnew _ rfl hg
    · exact hold above g below hbelow hg

/-- What waits on the way to a release is sheltered where it begins to wait. -/
theorem Point.Way.shelters (h : p.Way w n) (hf : n.frame? = some f) (hclosing : f.IsClosing q) :
    f.Shelters (follow [] n).control [] := by
  cases h <;> cases hf <;> cases hclosing
  case completionHooksCell => exact .expire ..
  case completionHooksCustom => exact .hook _ _ _ (.inr rfl)
  case tellCoordinator => exact .retire ..

/-- A step leaves a call calm. -/
theorem Activation.IsCalm.step (ha : IsCalm q ⟨.ready p, frames⟩) (w : World) :
    (follow frames (p.step w).next).IsCalm q :=
  .of_follow (fun _ hf hclosing => (p.way_step w).shelters hf hclosing)
    fun above f below hframes hclosing => (ha above f below hframes hclosing).step w

/-- A frame that goes on leaves a call calm. -/
theorem Activation.IsCalm.resume (ha : IsCalm q ⟨.ended o, f :: frames⟩) (w : World) :
    (follow frames (f.resume w o).next).IsCalm q := by
  refine .of_follow (fun g hg hclosing => ?_) fun above g below hframes hclosing =>
    (ha (f :: above) g below (by simp [hframes]) hclosing).resume w
  have hway := f.way_resume w o
  generalize (f.resume w o).next = n at hway hg
  cases hway <;> cases hg
  cases hclosing

/-- User code that answers leaves a call calm, if it lets no failure escape from completion
hooks. -/
theorem Activation.IsCalm.answer {i : Invocation} (ha : IsCalm q ⟨.inside i, frames⟩)
    (ho : i.CompletesIn → o.IsContainable) : IsCalm q ⟨.ended o, frames⟩ :=
  fun above f below hframes hclosing => (ha above f below hframes hclosing).answer ho

/-! ### Closing calls -/

theorem Activation.IsClosing.of_ready (h : p.IsClosing q) : IsClosing q ⟨.ready p, frames⟩ :=
  .inl ⟨p, rfl, h⟩

/-- A point on the way to a release goes on to the next, or waits there, or releases the request. -/
theorem Point.IsClosing.next (h : p.IsClosing q) (w : World) :
    (∃ p', (p.step w).next = .goto p' ∧ p'.IsClosing q) ∨
    (∃ f, (p.step w).next.frame? = some f ∧ f.IsClosing q) ∨
    (p.step w).next = .ret .unit ∧ ((p.step w).world.request q).released = true := by
  unfold Point.IsClosing at h
  split at h
  case h_5 => cases h
  all_goals subst h
  case h_1 r =>
    exact .inl ⟨.request r (.completionHooks (w.request r).interceptors.reverse), rfl, rfl⟩
  case h_2 r rest =>
    rcases rest with _ | ⟨⟨c⟩ | ⟨i, j, k⟩, rest⟩
    · exact .inl ⟨.request r .tellListener, rfl, rfl⟩
    · exact .inr (.inl ⟨.request r (.completionHook rest), rfl, rfl⟩)
    · exact .inr (.inl ⟨.request r (.completionHook rest), rfl, rfl⟩)
  case h_3 r =>
    cases hlistener : (w.request r).listener with
    | coordinator k =>
      refine .inr (.inl ⟨.request r .told, ?_, rfl⟩)
      simp [Point.step, RequestPoint.step, hlistener, Next.frame?]
    | announcement name =>
      refine .inl ⟨.request r .release, ?_, rfl⟩
      simp [Point.step, RequestPoint.step, hlistener]
  case h_4 r =>
    exact .inr (.inr ⟨rfl, by simp [Point.step, RequestPoint.step, World.modifyRequest]⟩)

/-- A call that is closing a request goes on to do so, or releases it. -/
theorem Activation.IsClosing.step (ha : IsClosing q ⟨.ready p, frames⟩) (w : World) :
    (follow frames (p.step w).next).IsClosing q ∨
      ((p.step w).world.request q).released = true := by
  rcases ha with ⟨p', hp', hp⟩ | ⟨f, hf, hclosing⟩
  · cases hp'
    rcases hp.next w with ⟨p', hn, hp'⟩ | ⟨f, hf, hclosing⟩ | ⟨-, hreleased⟩
    · exact .inl (hn ▸ .of_ready hp')
    · exact .inl (.inr ⟨f, mem_frames_follow.mpr (.inl hf), hclosing⟩)
    · exact .inr hreleased
  · exact .inl (.inr ⟨f, mem_frames_follow.mpr (.inr hf), hclosing⟩)

/-- A frame that waited goes on to close the request, where no failure escapes to it. -/
theorem Activation.IsClosing.resume (ha : IsClosing q ⟨.ended o, f :: frames⟩)
    (hcalm : IsCalm q ⟨.ended o, f :: frames⟩) (w : World) :
    (follow frames (f.resume w o).next).IsClosing q := by
  rcases ha with ⟨p, hp, -⟩ | ⟨g, hg, hclosing⟩
  · cases hp
  rcases List.mem_cons.mp hg with rfl | hg
  · obtain ⟨p, hn, hp⟩ := (hcalm [] g frames rfl hclosing).goes hclosing w
    rw [hn]
    exact .of_ready hp
  · exact .inr ⟨g, mem_frames_follow.mpr (.inr hg), hclosing⟩

/-- After a call, every completed request is released, if this was so before it or the call was
closing the request. -/
theorem Activation.Unfolds.released (hP : P.SparesCompletion) (h : Unfolds P w a acts w' o)
    (hcalm : a.IsCalm q) (hq : q < w.requestCount)
    (hw : (w.request q).completed = true → (w.request q).released = true ∨ a.IsClosing q)
    (hc : (w'.request q).completed = true) : (w'.request q).released = true := by
  induction h with
  | ended w o =>
    rcases hw hc with h | ⟨p, hp, -⟩ | ⟨f, hf, -⟩
    · exact h
    · cases hp
    · cases hf
  | @step w _ p frames _ _ _ _ ih =>
    have hgrows := p.grows_step w
    refine ih (hcalm.step w) (Nat.lt_of_lt_of_le hq hgrows.requestCount) (fun hc' => ?_) hc
    cases hold : (w.request q).completed with
    | true =>
      rcases hw hold with hreleased | hclosing
      · exact .inl ((hgrows.request q hq).released hreleased)
      · exact (hclosing.step w).symm
    | false =>
      rcases p.request_step_of_lt q hq with h | ⟨-, h⟩ | ⟨_, -, h⟩ | ⟨-, h⟩ | ⟨rfl, -⟩ | ⟨-, h⟩
      case inr.inr.inr.inr.inl =>
        have hn : ((Point.request q .complete).step w).next = .goto (.request q .cancelTimer) := by
          simp [Point.step, RequestPoint.step, hold]
        rw [hn]
        exact .inr (.of_ready rfl)
      all_goals simp [h, hold] at hc'
  | @resume w _ f frames x _ _ _ ih =>
    exact ih (hcalm.resume w) hq (fun hc' => (hw hc').imp_right fun h => h.resume hcalm w) hc
  | answer hmay _ ih =>
    refine ih (hcalm.answer fun hi => hP _ _ _ hi hmay) hq (fun hc' => ?_) hc
    rcases hw hc' with h | ⟨p, hp, -⟩ | hf
    · exact .inl h
    · cases hp
    · exact .inr (.inr hf)
  | @call w w₁ _ i frames c _ _ o₁ _ _ hinner _ ih₁ ih₂ =>
    refine ih₂ hcalm (Nat.lt_of_lt_of_le hq hinner.grows.requestCount) (fun hc' => ?_) hc
    by_cases hclosing : IsClosing q ⟨.inside i, frames⟩
    · exact .inr hclosing
    · have hinnercalm : c.activation.IsCalm q := .of_frames_eq_nil rfl
      exact .inl (ih₁ hinnercalm hq (fun h => .inl ((hw h).resolve_right hclosing)) hc')

/-! ### Completions -/

namespace Activation.Unfolds

/-- The completion callback of a cell ends without a failure that escapes. -/
private theorem isContainable_of_expire (hP : P.SparesCompletion) {c : CellId}
    (h : Unfolds P w ⟨.ready (.cell c .expire), []⟩ acts w' o) : o.IsContainable := by
  cases hexpired : (w.cell c).expired with
  | true =>
    obtain ⟨-, -, rfl⟩ := h.of_finish (x := .returned .unit)
      (by simp [Point.step, CellPoint.step, Cell.expire, hexpired, Next.ret])
    trivial
  | false =>
    obtain ⟨rest, -, hrest⟩ := h.of_goto (g := .cell c .completionCallback)
      (by simp [Point.step, CellPoint.step, Cell.expire, hexpired])
    generalize ((Point.cell c .expire).step w).world = v at hrest
    cases hcallback : (v.cell c).onCompletion with
    | none =>
      obtain ⟨-, -, rfl⟩ := hrest.of_finish (x := .returned .unit)
        (by simp [Point.step, CellPoint.step, hcallback, Next.ret])
      trivial
    | some id =>
      obtain ⟨_, _, x, _, -, hinside, hrest⟩ := hrest.of_invoke (f := .cell c .completionCallback)
        (i := ⟨id, .onCompletion, none⟩) (by simp [Point.step, CellPoint.step, hcallback])
      obtain ⟨b, hb, rfl⟩ := hinside.exists_answer
      have hx : (Outcome.ofUser b).IsContainable := hP _ _ _ (.inl rfl) hb
      simp only [Frame.resume, CellFrame.resume, hx.next_contain] at hrest
      obtain ⟨-, -, rfl⟩ := hrest.of_ended_nil
      trivial

/-- The completion hooks of a request are called until none is left. -/
private theorem of_completionHooks (hP : P.SparesCompletion) {rest : List Interceptor}
    (h : Unfolds P w ⟨.ready (.request q (.completionHooks rest)), []⟩ acts w' o) :
    ∃ w₁ acts₁, Unfolds P w₁ ⟨.ready (.request q .tellListener), []⟩ acts₁ w' o := by
  induction rest generalizing w acts with
  | nil =>
    obtain ⟨acts₁, -, hrest⟩ := h.of_goto (g := .request q .tellListener) rfl
    exact ⟨_, acts₁, hrest⟩
  | cons i rest ih =>
    -- The hook has ended, and the next one is called.
    have hnext {v : World} {x : Outcome} {more : List Act} (hx : x.IsContainable)
        (hmore : Unfolds P v (follow [] ((Frame.request q (.completionHook rest)).resume v x).next)
          more w' o) :
        ∃ w₁ acts₁, Unfolds P w₁ ⟨.ready (.request q .tellListener), []⟩ acts₁ w' o := by
      simp only [Frame.resume, RequestFrame.resume, hx.next_contain] at hmore
      exact ih hmore
    cases i with
    | hooks c =>
      obtain ⟨_, _, x, _, -, hexpire, hmore⟩ := h.of_call (f := .request q (.completionHook rest))
        (g := .cell c .expire) rfl
      exact hnext (hexpire.isContainable_of_expire hP) hmore
    | custom i j k =>
      obtain ⟨_, _, x, _, -, hinside, hmore⟩ := h.of_invoke
        (f := .request q (.completionHook rest)) (i := ⟨k, .completion, none⟩) rfl
      obtain ⟨b, hb, rfl⟩ := hinside.exists_answer
      exact hnext (hP _ _ _ (.inr rfl) hb) hmore

/-- A completion comes to its end. -/
theorem completes (hP : P.SparesCompletion)
    (h : Unfolds P w ⟨.ready (.request q .complete), []⟩ acts w' o) : o = .returned .unit := by
  cases hopen : (w.request q).completed with
  | true => exact (h.of_finish (by simp [Point.step, RequestPoint.step, hopen, Next.ret])).2.2
  | false =>
    obtain ⟨_, -, hcancel⟩ := h.of_goto (g := .request q .cancelTimer)
      (by simp [Point.step, RequestPoint.step, hopen])
    obtain ⟨_, -, hhooks⟩ := hcancel.of_goto rfl
    obtain ⟨v, _, htell⟩ := hhooks.of_completionHooks hP
    cases hlistener : (v.request q).listener with
    | coordinator k =>
      obtain ⟨_, _, x, _, -, hretire, hrest⟩ := htell.of_call (f := .request q .told)
        (g := .coordinator k (.retire q)) (by simp [Point.step, RequestPoint.step, hlistener])
      obtain ⟨-, -, rfl⟩ := hretire.of_finish rfl
      obtain ⟨_, -, hrelease⟩ := hrest.of_ready
      exact hrelease.of_ended_nil.2.2
    | announcement name =>
      obtain ⟨_, -, hrelease⟩ := htell.of_goto (g := .request q .release)
        (by simp [Point.step, RequestPoint.step, hlistener])
      exact (hrelease.of_finish rfl).2.2

/-- After a completion, the request is completed. -/
theorem completed_of_complete (h : Unfolds P w ⟨.ready (.request q .complete), frames⟩ acts w' o)
    (hq : q < w.requestCount) : (w'.request q).completed = true := by
  obtain ⟨_, -, hrest⟩ := h.of_ready
  refine (hrest.grows.request q ?_).completed ?_
  · exact Nat.lt_of_lt_of_le hq (Point.requestCount_le_step ..)
  · simp only [Point.step, RequestPoint.step]
    split
    · assumption
    · simp [World.modifyRequest]

end Activation.Unfolds

end Rendezvous
