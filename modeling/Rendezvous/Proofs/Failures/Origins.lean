import Rendezvous.Proofs.Coordinators.Orderly
import Rendezvous.Proofs.Requests.Containment

/-!
# Where failures come from

The frames of a call say what becomes of a failure. One that user code let out arrives at a frame
that called user code of this kind, directly or, for a failure of dispatch, once the request is
completed. The only other failures are refusals: of a registration without a handler, of a start on
a cell that has expired or is in process, and of a timeout that no timer can count. They leave the
call at once. So if user code raises ordinary failures only, no failure leaves a call that cannot be
refused.

## Main definitions

* `Role.hook`, `Frame.hook?`: the kind of user code, and the kind that a frame has called.
* `Failing`: how code may fail, with `Point.failing`, `Frame.failing` and `Failing.Fits`.
* `Call.isRefusable`: the calls that may be refused.
* `Activation.IsSound`: failures of a call are where they are taken care of.

## Main results

* `System.Reachable.isSound`: every call in progress is sound.
* `System.Reachable.isRefusable_of_raised`: a call that a failure leaves is one that may be refused.
-/

namespace Rendezvous

/-- The kind of user code that is called in a role. -/
def Role.hook : Role → Hook
  | .handler | .dispatch => .handler
  | .onTimeout | .factory | .timeout => .timeout
  | .onError | .error => .error
  | .onCompletion | .completion => .completion

/-- The kind of user code whose failures a frame takes. -/
def Frame.hook? : Frame → Option Hook
  | .cell _ (.delivered _) | .request _ .dispatched => some .handler
  | .cell _ .timeoutCallback | .cell _ .fallback | .request _ (.timeoutHook _) => some .timeout
  | .cell _ (.errorCallback _) | .request _ (.errorHook _ _) => some .error
  | .cell _ .completionCallback | .request _ (.completionHook _) => some .completion
  | _ => none

/-- How code may fail when user code raises ordinary failures only. -/
inductive Failing where
  /-- It contains them all and adds none of its own. -/
  | never
  /-- It passes on what user code of a kind let out. -/
  | asUser (h : Hook)
  /-- It may refuse what it was asked to do. -/
  | refusing

/-- Whether a call may be refused. -/
def Call.isRefusable : Call → Bool
  | .setHandler _ none | .start .. | .begin _ => true
  | _ => false

/-- How the code from a point on may fail. -/
def Point.failing : Point → Failing
  | .request _ (.record _) | .request _ (.dispatch _) => .asUser .handler
  | .request _ .arm | .coordinator _ (.checkStart ..) | .coordinator _ (.draw ..)
  | .coordinator _ (.activate _) | .coordinator _ (.noteStart _) => .refusing
  | _ => .never

/-- How the code of a frame may fail once it goes on. -/
def Frame.failing : Frame → Failing
  | .request _ .dispatched | .outcome _ => .asUser .handler
  | .answer (.request _) => .refusing
  | _ => .never

/-- Whether the frames below some code take care of its failures: the first of them takes failures
of user code, and a refusal passes through all of them. -/
def Failing.Fits (call : Call) : Failing → List Frame → Prop
  | .never, _ => True
  | .asUser h, frames => frames.head?.bind Frame.hook? = some h
  | .refusing, frames => call.isRefusable = true ∧ ∀ f ∈ frames, ∃ a, f = .answer a

/-- The frames of a sound call: below the code of each of them are frames that take care of its
failures, and none holds back an escaping failure. -/
inductive Stack (call : Call) : List Frame → Prop
  | nil : Stack call []
  | cons (f : Frame) (frames : List Frame) (hf : f.failing.Fits call frames)
      (ho : ∀ o, f.carried? = some o → o.IsContainable) (h : Stack call frames) :
    Stack call (f :: frames)

/-- Whether the failures of a call that stands somewhere are where they are taken care of. -/
def Control.Fits (call : Call) : Control → List Frame → Prop
  | .ready p, frames => p.failing.Fits call frames
  | .inside i, frames => (Failing.asUser i.role.hook).Fits call frames
  | .ended (.returned _), _ => True
  | .ended (.raised f), frames => f.isOrdinary = true ∧
    ((∃ h, (Failing.asUser h).Fits call frames) ∨ Failing.refusing.Fits call frames)

/-- Whether all failures of a call are where they are taken care of. -/
structure Activation.IsSound (call : Call) (a : Activation) : Prop where
  stack : Stack call a.frames
  control : a.control.Fits call a.frames

variable {w : World} {call : Call} {p : Point} {f : Frame} {frames : List Frame} {o : Outcome}

/-! ### One call -/

/-- The library itself raises failures only where it may refuse. -/
theorem Point.failing_of_raised {e : Failure} (h : (p.step w).next = .finish (.raised e)) :
    p.failing = .refusing := by
  rcases p with ⟨c, p⟩ | ⟨q, p⟩ | ⟨k, p⟩
  · exfalso
    cases p with
    | ask query =>
      cases query <;> simp only [Point.step, CellPoint.step, Next.ret] at h <;>
        first | cases h | (split at h <;> cases h)
    | _ =>
      simp only [Point.step, CellPoint.step, Next.ret] at h
      first | cases h | (split at h <;> cases h)
  · cases p <;> simp only [Point.step, RequestPoint.step, Next.ret] at h <;>
      first | rfl | cases h | (split at h <;> cases h)
  · cases p <;> simp only [Point.step, CoordinatorPoint.step, Next.ret] at h <;>
      first | rfl | cases h | (split at h <;> cases h)

/-- A point at which code goes on has the failures of that code. -/
private theorem Point.fits_step {p' : Point} (hp : p.failing.Fits call frames)
    (h : (p.step w).next = .goto p') : p'.failing.Fits call frames := by
  have hway := p.way_step w
  rw [h] at hway
  cases hway <;> first | exact trivial | exact hp

/-- A callee of a point has its failures taken care of, and so has the code that waits for it. -/
private theorem Stack.callee {p' : Point} (hs : Stack call frames)
    (hp : p.failing.Fits call frames) (h : (p.step w).next = .call f p') :
    Stack call (f :: frames) ∧ p'.failing.Fits call (f :: frames) := by
  have hway := p.way_step w
  rw [h] at hway
  cases hway with
  | noDispatch q r =>
    exact ⟨.cons _ _ hp (fun o ho => Option.some.inj ho ▸ rfl) hs, trivial⟩
  | noteStart k q =>
    refine ⟨.cons _ _ hp (fun o ho => Option.some.inj ho ▸ trivial) hs, hp.1, ?_⟩
    exact List.forall_mem_cons.mpr ⟨⟨_, rfl⟩, hp.2⟩
  | deliverRequest c q r a =>
    exact ⟨.cons _ _ trivial (fun o ho => Option.some.inj ho ▸ trivial) hs, rfl⟩
  | settle c p r => exact ⟨.cons _ _ trivial (fun o ho => Option.some.inj ho ▸ trivial) hs, trivial⟩
  | settleError c e =>
    exact ⟨.cons _ _ trivial (fun o ho => Option.some.inj ho ▸ trivial) hs, trivial⟩
  | _ => exact ⟨.cons _ _ trivial (fun o ho => by cases ho) hs, trivial⟩

/-- User code is called with a frame that takes the failures of its kind. -/
private theorem Stack.invoke {i : Invocation} (hs : Stack call frames)
    (hp : p.failing.Fits call frames) (h : (p.step w).next = .invoke f i) :
    Stack call (f :: frames) ∧ (Failing.asUser i.role.hook).Fits call (f :: frames) := by
  have hway := p.way_step w
  rw [h] at hway
  cases hway with
  | dispatch q r id => exact ⟨.cons _ _ hp (fun o ho => by cases ho) hs, rfl⟩
  | deliverCallback c id r a =>
    exact ⟨.cons _ _ trivial (fun o ho => Option.some.inj ho ▸ trivial) hs, rfl⟩
  | _ => exact ⟨.cons _ _ trivial (fun o ho => by cases ho) hs, rfl⟩

/-- A step leaves a call sound. -/
private theorem Activation.isSound_step (hs : Stack call frames)
    (hp : p.failing.Fits call frames) :
    (Activation.follow frames (p.step w).next).IsSound call := by
  cases hn : (p.step w).next with
  | goto p' => exact ⟨hs, Point.fits_step hp hn⟩
  | call f p' =>
    obtain ⟨hstack, hfits⟩ := hs.callee hp hn
    exact ⟨hstack, hfits⟩
  | invoke f i =>
    obtain ⟨hstack, hfits⟩ := hs.invoke hp hn
    exact ⟨hstack, hfits⟩
  | finish o =>
    refine ⟨hs, ?_⟩
    cases o with
    | returned a => trivial
    | raised e =>
      have hway := p.way_step w
      rw [hn] at hway
      cases hway with
      | finish _ _ ho => exact ⟨ho, .inr (Point.failing_of_raised hn ▸ hp)⟩

/-- Containment lets only a failure pass that escapes. -/
private theorem raised_of_contain {site : Site} {c : CellId} {t : Option String}
    {g : Answer → Next} {n : Next} {e : Failure}
    (h : (contain w site c t o g n).next = .finish (.raised e))
    (hg : ∀ a, g a ≠ .finish (.raised e)) (hn : n ≠ .finish (.raised e)) :
    o = .raised e ∧ e.isOrdinary = false := by
  unfold contain at h
  split at h
  · exact absurd h (hg _)
  · split at h
    · exact absurd h hn
    · cases h
      exact ⟨rfl, Bool.eq_false_iff.mpr ‹_›⟩

/-- A frame that ends with a failure passes it on, and no ordinary one of user code, or it held the
failure back. -/
private theorem Frame.of_raised {e : Failure} (h : (f.resume w o).next = .finish (.raised e)) :
    (o = .raised e ∧ (e.isOrdinary = true → f.hook? = none)) ∨ f = .outcome (.raised e) := by
  have htaken (h : o = .raised e ∧ e.isOrdinary = false) :
      o = .raised e ∧ (e.isOrdinary = true → f.hook? = none) :=
    ⟨h.1, fun he => absurd (he.symm.trans h.2) (by simp)⟩
  rcases f with ⟨c, f⟩ | ⟨q, f⟩ | _ | _ | o'
  · cases f with
    | fallback =>
      refine .inl (htaken (raised_of_contain h (fun a => ?_) (by simp [Next.ret])))
      split <;> simp [Next.ret]
    | _ => exact .inl (htaken (raised_of_contain h (by simp [Next.ret]) (by simp [Next.ret])))
  · cases f with
    | dispatched => cases h
    | settled | told =>
      cases o <;> cases h
      exact .inl ⟨rfl, fun _ => rfl⟩
    | _ => exact .inl (htaken (raised_of_contain h (by simp) (by simp)))
  · cases o <;> cases h
    exact .inl ⟨rfl, fun _ => rfl⟩
  · cases o <;> cases h
    exact .inl ⟨rfl, fun _ => rfl⟩
  · cases o <;> cases h
    · exact .inr rfl
    · exact .inl ⟨rfl, fun _ => rfl⟩

/-- A frame that goes on leaves a call sound. -/
private theorem Activation.isSound_resume
    (hs : (⟨.ended o, f :: frames⟩ : Activation).IsSound call) :
    (Activation.follow frames (f.resume w o).next).IsSound call := by
  obtain ⟨hstack, hcontrol⟩ := hs
  cases hstack with
  | cons _ _ hf hcarried hstack =>
  have hway := f.way_resume w o
  cases hn : (f.resume w o).next with
  | goto p =>
    rw [hn] at hway
    refine ⟨hstack, ?_⟩
    cases hway <;> exact trivial
  | call g p =>
    rw [hn] at hway
    cases hway with
    | dispatched q o =>
      refine ⟨.cons _ _ hf (fun o' ho' => ?_) hstack, trivial⟩
      cases ho'
      cases o with
      | returned a => trivial
      | raised e => exact hcontrol.1
  | invoke g i =>
    rw [hn] at hway
    cases hway
  | finish o' =>
    refine ⟨hstack, ?_⟩
    cases o' with
    | returned a => trivial
    | raised e =>
      rcases Frame.of_raised hn with ⟨rfl, hplain⟩ | rfl
      · obtain ⟨he, ⟨h, hh⟩ | hrefusing⟩ := hcontrol
        · have hf : f.hook? = some h := hh
          simp [hplain he] at hf
        · exact ⟨he, .inr ⟨hrefusing.1, fun g hg => hrefusing.2 g (List.mem_cons_of_mem _ hg)⟩⟩
      · exact ⟨hcarried _ rfl, .inl ⟨.handler, hf⟩⟩

/-- A call begins sound. -/
private theorem Call.isSound_activation (call : Call) : call.activation.IsSound call := by
  have hnone : ∀ f ∈ call.activation.frames, ∃ a, f = .answer a := fun _ h =>
    absurd h List.not_mem_nil
  refine ⟨.nil, ?_⟩
  cases h : call.control with
  | ready p =>
    rw [Call.activation, h]
    cases call.enters_of_control h <;> first | exact trivial | exact ⟨rfl, hnone⟩
  | inside i => exact absurd h (by rcases call with _ | _ | ⟨_, _ | _⟩ | _ <;> simp [control])
  | ended o =>
    obtain ⟨c, rfl, rfl⟩ := Call.eq_of_control h
    exact ⟨rfl, .inr ⟨rfl, hnone⟩⟩

/-- A call whose user code raises ordinary failures only stays sound. -/
private theorem Activation.IsSound.moves {a a' : Activation} {d : Deed} (ha : a.IsSound call)
    (hm : a.Moves w d (some a'))
    (hd : ∀ i e, d = .answer i (.raised e) → e.isOrdinary = true) : a'.IsSound call := by
  cases hm with
  | step p frames => exact isSound_step ha.stack ha.control
  | resume o f frames => exact isSound_resume ha
  | answer i frames o =>
    refine ⟨ha.stack, ?_⟩
    cases o with
    | returned a => trivial
    | raised e => exact ⟨hd i e rfl, .inl ⟨_, ha.control⟩⟩

namespace System

variable {s s' : System} {allowed : Move → Prop} {n : CallNumber}

/-- Whether user code has raised ordinary failures only. -/
def IsOrdinary (s : System) : Prop :=
  ∀ x ∈ s.failures, x.2.isOrdinary = true

theorem IsOrdinary.of_prefix (ho : s'.IsOrdinary) (h : s.history <+: s'.history) : s.IsOrdinary :=
  fun x hx => ho x ((h.filterMap Event.failure?).subset hx)

theorem IsOrdinary.of_mem_deeds (ho : s.IsOrdinary) {i : Invocation} {e : Failure}
    (h : .answer i (.raised e) ∈ s.deeds n) : e.isOrdinary = true := by
  obtain ⟨t, he⟩ := mem_deeds.mp h
  exact ho (i, e) (List.mem_filterMap.mpr ⟨_, he, rfl⟩)

/-- If user code raises ordinary failures only, every call in progress is sound. -/
theorem Reachable.isSound (hs : Reachable allowed s) (ho : s.IsOrdinary) {x : Ongoing}
    (hx : x ∈ s.ongoing) :
    ∃ call, (s.deeds x.number).head? = some (.begin call) ∧ x.activation.IsSound call := by
  refine hs.forall_course (P := fun _ done a =>
    (∀ (i : Invocation) (e : Failure), .answer i (.raised e) ∈ done → e.isOrdinary = true) →
      ∃ call, done.head? = some (.begin call) ∧ a.IsSound call)
    (fun w call _ => ⟨call, rfl, call.isSound_activation⟩) (fun w w' done a h _ hd => h hd)
    (fun w w' done a d a' h hm _ hd => ?_) x hx fun i e he => ho.of_mem_deeds he
  obtain ⟨call, hcall, ha⟩ := h fun i e he => hd i e (List.mem_append_left _ he)
  refine ⟨call, ?_, ha.moves hm fun i e he => hd i e (by simp [he])⟩
  rw [List.head?_append, hcall]
  rfl

/-- A call that a failure leaves is one that may be refused. -/
theorem Reachable.isRefusable_of_raised (hs : Reachable allowed s) (ho : s.IsOrdinary)
    {call : Call} {e : Failure} (hb : (s.deeds n).head? = some (.begin call))
    (he : .finish (.raised e) ∈ s.deeds n) : call.isRefusable = true := by
  obtain ⟨s₀, t, hs₀, hl, hx, -⟩ := hs.exists_of_finish he
  obtain ⟨call', hcall, -, -, hfits⟩ := hs₀.isSound (ho.of_prefix hl.history_prefix) hx
  obtain ⟨rest, hrest⟩ : s₀.deeds n <+: s.deeds n := hl.history_prefix.filterMap _
  rw [← hrest, List.head?_append, hcall] at hb
  cases hb
  rcases hfits with ⟨h, hh⟩ | ⟨hcall, -⟩
  · cases hh
  · exact hcall

end System

end Rendezvous
