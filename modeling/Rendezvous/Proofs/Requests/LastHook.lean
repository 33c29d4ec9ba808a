import Mathlib.Data.List.TakeWhile
import Rendezvous.Proofs.Requests.Completion
import Rendezvous.Proofs.Threads.Nesting

/-!
# The last hook

A timeout or a failure looks once whether the request is completed and then goes through the
interceptors. While it is on its way, the request may be completed, by another thread or by user
code that one of the hooks runs. The completion hooks are then called, and the walk goes on: it
comes to an interceptor after its completion hook. Nothing else calls a hook late. No walk begins
once the request is completed, so an interceptor that lies ahead of no call then is not told about
a timeout or a failure any more.

## Main definitions

* `System.hookCalls`: the calls that told an interceptor about a timeout or a failure of a request.
* `System.checkedInTime`: the calls that found the request not completed.
* `System.IsLastHook`: the completion hook of an interceptor is the last one.
* `Activation.IsAhead`: an interceptor lies ahead of a call on its way.

## Main results

* `System.Reachable.mem_checkedInTime`: a call that has an interceptor ahead of it began its way
  before completion.
* `System.Reachable.isLastHook_iff`: only such calls can be late, and none is if the interceptor
  lies ahead of none.
-/

namespace Rendezvous

/-! ### Hooks -/

/-- The interceptor whose timeout or error hook is called at a point, for a request. -/
def Point.hook? (q : RequestId) : Point → Option Interceptor
  | .request r (.timeoutHooks (i :: _)) | .request r (.errorHooks _ (i :: _)) =>
    if r = q then some i else none
  | _ => none

/-- The interceptor whose completion hook is called at a point, for a request. -/
def Point.completionHook? (q : RequestId) : Point → Option Interceptor
  | .request r (.completionHooks (i :: _)) => if r = q then some i else none
  | _ => none

namespace Event

/-- The timeout or error hook that is called in an event, for a request. -/
def hook? (q : RequestId) : Event → Option Interceptor :=
  ofStep fun _ p _ => p.hook? q

/-- The completion hook that is called in an event, for a request. -/
def completionHook? (q : RequestId) : Event → Option Interceptor :=
  ofStep fun _ p _ => p.completionHook? q

/-- The call that tells an interceptor about a timeout or a failure of a request in an event. -/
def hookCall? (q : RequestId) (i : Interceptor) : Event → Option CallNumber :=
  ofStep fun e p _ => if p.hook? q = some i then some e.number else none

/-- The call whose timeout or failure finds a request not completed in an event. -/
def check? (q : RequestId) (e : Event) : Option CallNumber :=
  match e.deed with
  | .step (.request r .checkTimeout) (.goto _) | .step (.request r (.checkFail _)) (.goto _) =>
    if r = q then some e.number else none
  | _ => none

/-- Whether a request is completed in an event. -/
def completes (q : RequestId) (e : Event) : Bool :=
  match e.deed with
  | .step (.request r .complete) (.goto _) => r = q
  | _ => false

end Event

/-- The interceptors of a request that lie ahead at a point, on the way with a timeout or a failure.
-/
def Point.ahead (w : World) (q : RequestId) : Point → List Interceptor
  | .request r .markTimeout | .request r (.noteFail _) =>
    if r = q then (w.request q).interceptors else []
  | .request r (.timeoutHooks rest) | .request r (.errorHooks _ rest) => if r = q then rest else []
  | _ => []

/-- The interceptors of a request that lie ahead of a frame. -/
def Frame.ahead (q : RequestId) : Frame → List Interceptor
  | .request r (.timeoutHook rest) | .request r (.errorHook _ rest) => if r = q then rest else []
  | _ => []

/-- Whether an interceptor of a request lies ahead of a call, on its way with a timeout or a
failure. -/
def Activation.IsAhead (w : World) (q : RequestId) (i : Interceptor) (a : Activation) : Prop :=
  (∃ p, a.control = .ready p ∧ i ∈ p.ahead w q) ∨ ∃ f ∈ a.frames, i ∈ f.ahead q

namespace System

/-- The calls that told an interceptor about a timeout or a failure of a request. -/
def hookCalls (s : System) (q : RequestId) (i : Interceptor) : List CallNumber :=
  s.history.filterMap (Event.hookCall? q i)

/-- The calls whose timeout or failure found a request not completed before it was. -/
def checkedInTime (s : System) (q : RequestId) : List CallNumber :=
  (s.history.takeWhile fun e => !e.completes q).filterMap (Event.check? q)

/-- Whether an interceptor was told about a timeout or a failure of a request only before its
completion hook was called. -/
def IsLastHook (s : System) (q : RequestId) (i : Interceptor) : Prop :=
  ∀ before e after, s.history = before ++ e :: after → e.hook? q = some i →
    ∀ c ∈ before, c.completionHook? q ≠ some i

/-- Whether a timeout or a failure found a request not completed, and came to an interceptor after
the request was completed and the completion hook of the interceptor was called. -/
def IsOvertaken (s : System) (q : RequestId) (i : Interceptor) : Prop :=
  ∃ look done completion hook, [look, done, completion, hook].Sublist s.history ∧
    look.check? q = some hook.number ∧ done.completes q = true ∧
    completion.completionHook? q = some i ∧ hook.hook? q = some i

end System

/-! ### What lies ahead -/

variable {w w' : World} {q : RequestId} {p : Point} {frames : List Frame} {i : Interceptor}

theorem Point.mem_ahead_of_hook? (h : p.hook? q = some i) : i ∈ p.ahead w q := by
  unfold hook? at h
  split at h
  · obtain ⟨hr, hi⟩ := Option.ite_none_right_eq_some.mp h
    cases hi
    simp [ahead, hr]
  · obtain ⟨hr, hi⟩ := Option.ite_none_right_eq_some.mp h
    cases hi
    simp [ahead, hr]
  · cases h

private theorem Point.ahead_grow (hw : w.Grows w') (hq : ∀ q ∈ p.requests, q < w.requestCount) :
    p.ahead w' q = p.ahead w q := by
  unfold ahead
  split
  · split
    · rename_i hr
      subst hr
      exact Request.interceptors_eq_of_fixed (hw.request _ (hq _ (by simp [requests]))).fixed
    · rfl
  · split
    · rename_i hr
      subst hr
      exact Request.interceptors_eq_of_fixed (hw.request _ (hq _ (by simp [requests]))).fixed
    · rfl
  all_goals rfl

private theorem Activation.IsAhead.of_grows {a : Activation} (h : a.IsAhead w' q i)
    (hw : w.Grows w') (hq : ∀ q ∈ a.requests, q < w.requestCount) : a.IsAhead w q i := by
  refine h.imp_left fun ⟨p, hp, hi⟩ => ⟨p, hp, ?_⟩
  rwa [Point.ahead_grow hw fun q h => hq q (List.mem_append_left _ (by rwa [hp]))] at hi

private theorem Activation.isAhead_follow {n : Next}
    (h : (Activation.follow frames n).IsAhead w q i) :
    (∃ p, n.point? = some p ∧ i ∈ p.ahead w q) ∨ (∃ f, n.frame? = some f ∧ i ∈ f.ahead q) ∨
      ∃ f ∈ frames, i ∈ f.ahead q := by
  rcases h with ⟨p, hp, hi⟩ | ⟨f, hf, hi⟩
  · exact .inl ⟨p, control_follow.mp hp, hi⟩
  · rcases mem_frames_follow.mp hf with hf | hf
    · exact .inr (.inl ⟨f, hf, hi⟩)
    · exact .inr (.inr ⟨f, hf, hi⟩)

/-- An interceptor comes to lie ahead of a call by a look at the request. -/
private theorem Point.isAhead_step {p' : Point} (h : (p.step w).next.point? = some p')
    (hi : i ∈ p'.ahead (p.step w).world q) :
    i ∈ p.ahead w q ∨ (w.request q).completed = false ∧
      ∀ t k, Event.check? q ⟨t, k, .step p (p.step w).next⟩ = some k := by
  have hway := p.way_step w
  generalize (p.step w).next = n at hway h
  cases hway <;> cases h <;> try cases hi
  case checkTimeout q' hc =>
    simp only [ahead] at hi
    split at hi
    · rename_i hr
      cases hr
      exact .inr ⟨hc, fun t k => if_pos rfl⟩
    · cases hi
  case checkFail q' e hc =>
    simp only [ahead] at hi
    split at hi
    · rename_i hr
      cases hr
      exact .inr ⟨hc, fun t k => if_pos rfl⟩
    · cases hi
  case markTimeout q' rest hrest =>
    left
    simp only [ahead] at hi ⊢
    split at hi
    · rename_i hr
      cases hr
      simpa [hrest] using hi
    · cases hi
  case noteFail q' e rest hrest =>
    left
    simp only [ahead] at hi ⊢
    split at hi
    · rename_i hr
      cases hr
      simpa [hrest] using hi
    · cases hi

private theorem Activation.isAhead_step
    (h : (Activation.follow frames (p.step w).next).IsAhead (p.step w).world q i) :
    (⟨.ready p, frames⟩ : Activation).IsAhead w q i ∨
    (w.request q).completed = false ∧
      ∀ t k, Event.check? q ⟨t, k, .step p (p.step w).next⟩ = some k := by
  rcases isAhead_follow h with ⟨p', hp', hi⟩ | ⟨f, hf, hi⟩ | ⟨f, hf, hi⟩
  · exact (Point.isAhead_step hp' hi).imp_left fun h => .inl ⟨p, rfl, h⟩
  · have hway := p.way_step w
    generalize (p.step w).next = n at hway hf
    cases hway <;> cases hf <;> try cases hi
    all_goals
      refine .inl (.inl ⟨_, rfl, ?_⟩)
      simp only [Frame.ahead] at hi
      simp only [Point.ahead]
      split at hi
      · rename_i hr
        exact if_pos hr ▸ List.mem_cons_of_mem _ hi
      · cases hi
  · exact .inl (.inr ⟨f, hf, hi⟩)

private theorem Activation.isAhead_resume {f : Frame} {o : Outcome}
    (h : (Activation.follow frames (f.resume w o).next).IsAhead w q i) :
    (⟨.ended o, f :: frames⟩ : Activation).IsAhead w q i := by
  have hway := f.way_resume w o
  generalize (f.resume w o).next = n at hway h
  rcases isAhead_follow h with ⟨p', hp', hi⟩ | ⟨g, hg, hi⟩ | ⟨g, hg, hi⟩
  · cases hway <;> cases hp' <;> try cases hi
    all_goals exact .inr ⟨_, List.mem_cons_self, hi⟩
  · cases hway <;> cases hg
    cases hi
  · exact .inr ⟨g, List.mem_cons_of_mem _ hg, hi⟩

private theorem Call.not_isAhead (c : Call) : ¬ c.activation.IsAhead w q i := by
  rintro (⟨p, hp, hi⟩ | ⟨f, hf, -⟩)
  · cases c.enters_of_control hp <;> cases hi
  · simp [Call.frames_activation] at hf

namespace System

variable {s s' : System} {m : Move} {allowed : Move → Prop}

/-! ### Before completion -/

private theorem checkedInTime_subset {h h' : List Event} (hp : h <+: h') :
    (h.takeWhile fun e => !e.completes q).filterMap (Event.check? q) ⊆
      (h'.takeWhile fun e => !e.completes q).filterMap (Event.check? q) := by
  obtain ⟨l, rfl⟩ := hp
  rw [List.takeWhile_append]
  split
  · rename_i hall
    rw [List.filterMap_append, (List.takeWhile_prefix _).eq_of_length hall]
    exact List.subset_append_left _ _
  · exact List.Subset.refl _

/-- A request that is not completed was completed in no event. -/
private theorem Reachable.completed_of_completes (hs : Reachable allowed s) {e : Event}
    (he : e ∈ s.history) (hc : e.completes q = true) : (s.world.request q).completed = true := by
  obtain ⟨before, after, hh⟩ := List.append_of_mem he
  obtain ⟨s₀, m, s₁, hs₀, -, ht, hl, rfl, h₁⟩ := hs.exists_transition hh
  obtain ⟨t, k, deed⟩ := e
  unfold Event.completes at hc
  split at hc
  · rename_i r p hd
    cases of_decide_eq_true hc
    cases hd
    obtain ⟨newer, older, frames, hmem, -, -, hn, rfl⟩ := ht.exists_of_step h₁
    have hx : ⟨t, k, ⟨.ready (.request q .complete), frames⟩⟩ ∈ s₀.ongoing := hmem ▸ by simp
    have hlt := hs₀.isBounded.of_ready hx rfl q (List.mem_singleton.mpr rfl)
    have hle := (Point.grows_step s₀.world (.request q .complete)).requestCount
    refine (hl.grows.request q (Nat.lt_of_lt_of_le hlt hle)).completed ?_
    simp only [Point.step, RequestPoint.step, proceed] at hn ⊢
    split at hn
    · cases hn
    · rename_i hopen
      simp [hopen, World.modifyRequest]
  · cases hc

/-- A completed request was completed in an event. -/
private theorem Reachable.exists_completes (hs : Reachable allowed s)
    (hc : (s.world.request q).completed = true) : ∃ e ∈ s.history, e.completes q = true := by
  refine hs.induction (I := fun s => (s.world.request q).completed = true →
    ∃ e ∈ s.history, e.completes q = true) (fun w hw hc => ?_) (fun s m s' hs _ ht h hc => ?_) hc
  · rw [hw.request_eq q] at hc
    cases hc
  · rcases ht.completed hs.isBounded hc with hc | ⟨hopen, t, k, frames, -, hh, -⟩
    · obtain ⟨e, he, hdone⟩ := h hc
      rcases ht.history with hh | ⟨e', hh⟩
      · exact ⟨e, hh ▸ he, hdone⟩
      · exact ⟨e, hh ▸ List.mem_append_left _ he, hdone⟩
    · refine ⟨_, hh ▸ List.mem_append_right _ List.mem_cons_self, ?_⟩
      simp [Event.completes, Point.step, RequestPoint.step, hopen]

/-- An event in which a call finds a request not completed is none in which it is completed. -/
private theorem completes_eq_false_of_check? {e : Event} {k : CallNumber}
    (h : e.check? q = some k) : e.completes q = false := by
  unfold Event.check? at h
  split at h
  · rename_i hd
    rw [Event.completes, hd]
  · rename_i hd
    rw [Event.completes, hd]
  · cases h

/-- A call that has an interceptor of a request ahead of it found the request not completed. -/
theorem Reachable.mem_checkedInTime (hs : Reachable allowed s) {x : Ongoing} (hx : x ∈ s.ongoing)
    (hi : x.activation.IsAhead s.world q i) : x.number ∈ s.checkedInTime q := by
  refine hs.induction (I := fun s => ∀ x ∈ s.ongoing, x.activation.IsAhead s.world q i →
    x.number ∈ s.checkedInTime q) (fun _ _ => by simp) (fun s m s' hs _ ht h => ?_) x hx hi
  have hb := hs.isBounded.ongoing
  have hgrows : s.checkedInTime q ⊆ s'.checkedInTime q := by
    rcases ht.history with hh | ⟨e, hh⟩
    · rw [checkedInTime, checkedInTime, hh]
      exact List.Subset.refl _
    · exact checkedInTime_subset (hh ▸ List.prefix_append _ _)
  refine forall_ongoing_of_transition
    (P := fun w x => x.activation.IsAhead w q i → x.number ∈ s'.checkedInTime q) ht
    (fun x hx hi => hgrows (h x hx hi)) (fun x hx h hi => h (hi.of_grows ht.grows (hb x hx)))
    (fun t c _ _ hi => absurd hi c.not_isAhead) (fun t x _ _ hi => absurd hi (Call.not_isAhead _))
    (fun t k p frames hx hh hold hi => ?_)
    (fun t k o f frames hx hold hi => hold (Activation.isAhead_resume hi))
    (fun t k j frames a _ hx hold hi => hold ?_)
  · rcases Activation.isAhead_step hi with hi | ⟨hc, hcheck⟩
    · exact hold hi
    · have hopen : ∀ e ∈ s'.history, (!e.completes q) = true := by
        intro e he
        rw [hh, List.mem_append, List.mem_singleton] at he
        rcases he with he | rfl
        · rw [Bool.not_eq_true', ← Bool.not_eq_true]
          exact fun hcompletes => by simp [hs.completed_of_completes he hcompletes] at hc
        · simp [completes_eq_false_of_check? (hcheck t k)]
      rw [checkedInTime, List.takeWhile_eq_self_iff.mpr hopen]
      exact List.mem_filterMap.mpr ⟨_, hh ▸ List.mem_append_right _ List.mem_cons_self, hcheck t k⟩
  · rcases hi with ⟨p, hp, -⟩ | hi
    · cases hp
    · exact .inr hi

/-! ### After completion -/

/-- While an interceptor of a completed request lies ahead of no call, it is not told about a
timeout or a failure. -/
private theorem hookCalls_of_transition (hs : Reachable allowed s) (ht : Transition s m s')
    (hc : (s.world.request q).completed = true)
    (hnone : ∀ x ∈ s.ongoing, ¬ x.activation.IsAhead s.world q i) :
    (∀ x ∈ s'.ongoing, ¬ x.activation.IsAhead s'.world q i) ∧
      s'.hookCalls q i = s.hookCalls q i := by
  have hb := hs.isBounded.ongoing
  constructor
  · refine forall_ongoing_of_transition (P := fun w x => ¬ x.activation.IsAhead w q i) ht hnone
      (fun x hx h hi => h (hi.of_grows ht.grows (hb x hx))) (fun t c _ _ => c.not_isAhead)
      (fun t x _ _ => Call.not_isAhead _) (fun t k p frames hx hh hold hi => ?_)
      (fun t k o f frames hx hold hi => hold (Activation.isAhead_resume hi))
      (fun t k j frames a _ hx hold hi => hold ?_)
    · rcases Activation.isAhead_step hi with hi | ⟨hopen, -⟩
      · exact hold hi
      · simp [hc] at hopen
    · rcases hi with ⟨p, hp, -⟩ | hi
      · cases hp
      · exact .inr hi
  · rcases ht.world with ⟨-, -, -, hview⟩ | ⟨t, k, p, frames, hx, -, -, hh, -⟩
    · exact hview _
    · have hnot : p.hook? q ≠ some i := fun h =>
        hnone _ hx (.inl ⟨p, rfl, Point.mem_ahead_of_hook? h⟩)
      rw [hookCalls, hh, filterMap_append_cons]
      simp [hookCalls, Event.hookCall?, Event.ofStep, hnot]

private theorem Reachable.number_mem_checkedInTime (hs : Reachable allowed s)
    (ht : Transition s m s') {e : Event} (hh : s'.history = s.history ++ [e])
    (he : e.hook? q = some i) : e.number ∈ s.checkedInTime q := by
  obtain ⟨t, k, deed⟩ := e
  cases deed <;> simp only [Event.hook?, Event.ofStep, reduceCtorEq] at he
  rename_i p n
  obtain ⟨newer, older, frames, hmem, -⟩ := ht.exists_of_step hh
  exact hs.mem_checkedInTime (x := ⟨t, k, ⟨.ready p, frames⟩⟩) (hmem ▸ by simp)
    (.inl ⟨p, rfl, Point.mem_ahead_of_hook? he⟩)

/-- A completion hook is called after the event in which the request is completed. -/
private theorem Reachable.exists_completes_of_completionHook? (hs : Reachable allowed s)
    {before after : List Event} {c : Event} (hh : s.history = before ++ c :: after)
    (hc : c.completionHook? q = some i) : ∃ e ∈ before, e.completes q = true := by
  obtain ⟨s₀, m, s₁, hs₀, -, ht, -, rfl, h₁⟩ := hs.exists_transition hh
  obtain ⟨t, k, deed⟩ := c
  cases deed <;> simp only [Event.completionHook?, Event.ofStep, reduceCtorEq] at hc
  rename_i p n
  obtain ⟨newer, older, frames, hmem, -⟩ := ht.exists_of_step h₁
  have hcloses := (hs₀.closes ⟨t, k, ⟨.ready p, frames⟩⟩ (hmem ▸ by simp)).point p rfl
  unfold Point.completionHook? at hc
  split at hc
  · rename_i r j rest
    obtain ⟨hr, -⟩ := Option.ite_none_right_eq_some.mp hc
    subst hr
    have hclosing : s₀.world.IsClosing r (j :: rest) := hcloses
    exact hs₀.exists_completes hclosing.completed
  · cases hc

private theorem takeWhile_eq_of_completes {l : List Event} (h : ∃ e ∈ l, e.completes q = true) :
    ∃ before done after, l = before ++ done :: after ∧ done.completes q = true ∧
      ∀ l', (l ++ l').takeWhile (fun e => !e.completes q) = before := by
  cases hd : l.dropWhile fun e => !e.completes q with
  | nil =>
    obtain ⟨e, he, hdone⟩ := h
    simpa [hdone] using List.dropWhile_eq_nil_iff.mp hd e he
  | cons done after =>
    have hsplit : l.takeWhile (fun e => !e.completes q) ++ done :: after = l :=
      hd ▸ List.takeWhile_append_dropWhile
    have hdone : done.completes q = true := by
      simpa [hd] using List.head?_dropWhile_not (fun e => !e.completes q) l
    refine ⟨_, done, after, hsplit.symm, hdone, fun l' => ?_⟩
    rw [List.takeWhile_append, if_neg]
    intro hlen
    have hnil := congrArg List.length hsplit
    simp only [List.length_append, List.length_cons] at hnil
    omega

/-- The completion hook of an interceptor is the last one exactly if no timeout or failure was
overtaken by the completion on its way to the interceptor. From any moment on at which the request
is completed and the interceptor lies ahead of no call, it is not told about a timeout or a failure
any more. -/
theorem Reachable.isLastHook_iff (hs : Reachable Move.any s) (q : RequestId) (i : Interceptor) :
    (s.IsLastHook q i ↔ ¬ s.IsOvertaken q i) ∧
    ((s.world.request q).completed = true →
      (∀ x ∈ s.ongoing, ¬ x.activation.IsAhead s.world q i) →
      ∀ s', Leads Move.any s s' → s'.hookCalls q i = s.hookCalls q i) := by
  refine ⟨⟨?_, ?_⟩, fun hc hnone s' hl => ?_⟩
  · rintro hlast ⟨look, done, completion, hook, hsub, -, -, hcompletion, hhook⟩
    have hsplit : ([look, done, completion] ++ [hook]).Sublist s.history := hsub
    obtain ⟨l, l', hh, hl, hl'⟩ := List.append_sublist_iff.mp hsplit
    obtain ⟨a, b, rfl⟩ := List.append_of_mem (List.singleton_sublist.mp hl')
    have hmem : completion ∈ l := hl.subset (by simp)
    exact hlast (l ++ a) hook b (by rw [hh, List.append_assoc]) hhook completion
      (List.mem_append_left _ hmem) hcompletion
  · intro hnot before e after hh he c hc hcompletion
    obtain ⟨s₀, m, s₁, hs₀, -, ht, hl, rfl, h₁⟩ := hs.exists_transition hh
    have hin := hs₀.number_mem_checkedInTime ht h₁ he
    obtain ⟨b, b', hb⟩ := List.append_of_mem hc
    obtain ⟨pre, done, post, hpre, hdone, htake⟩ :=
      takeWhile_eq_of_completes (hs₀.exists_completes_of_completionHook? hb hcompletion)
    rw [checkedInTime, hb, htake] at hin
    obtain ⟨look, hlook, hcheck⟩ := List.mem_filterMap.mp hin
    refine hnot ⟨look, done, c, e, ?_, hcheck, hdone, hcompletion, he⟩
    have hfirst (a : Event) (l : List Event) : [a].Sublist (a :: l) :=
      List.singleton_sublist.mpr List.mem_cons_self
    rw [hh, hb, hpre]
    exact (((List.singleton_sublist.mpr hlook).append (hfirst done post)).append
      (hfirst c b')).append (hfirst e after)
  · have hlt : q < s.world.requestCount := by
      rw [← Nat.not_le]
      intro hle
      rw [hs.isBounded.world.unmade q hle] at hc
      cases hc
    suffices hboth : (∀ x ∈ s'.ongoing, ¬ x.activation.IsAhead s'.world q i) ∧
        s'.hookCalls q i = s.hookCalls q i from hboth.2
    induction hl with
    | refl => exact ⟨hnone, rfl⟩
    | @move s₁ s₂ m hl hm ht ih =>
      have hnext := hookCalls_of_transition (hs.leads hl) (transition_of_take? ht)
        ((hl.grows.request q hlt).completed hc) ih.1
      exact ⟨hnext.1, hnext.2.trans ih.2⟩

/-- A request fails, and the failure settles and completes it. -/
def failing : List Move :=
  starting ++ .begin 1 (.fail 0 (.text "E")) :: List.replicate 11 (.advance 1) ++
    .answer 1 (.ok .null) :: List.replicate 17 (.advance 1) ++ [.finish 1]

theorem isLastHook_failing :
    ∃ s, run { world := untimed } failing = some s ∧
      (s.IsLastHook 0 (.hooks 0) ↔ ¬ s.IsOvertaken 0 (.hooks 0)) ∧
      ∀ s', Leads Move.any s s' → s'.hookCalls 0 (.hooks 0) = [1] := by
  obtain ⟨s, hs⟩ : ∃ s, run { world := untimed } failing = some s := ⟨_, rfl⟩
  have hshown : (run { world := untimed } failing).map (fun s =>
      (s.ongoing, (s.world.request 0).completed, s.hookCalls 0 (.hooks 0))) =
        some ([], true, [1]) := rfl
  simp only [hs, Option.map_some, Option.some.injEq, Prod.mk.injEq] at hshown
  have hreach : Reachable Move.any s :=
    ⟨untimed, isNew_untimed, leads_of_run (fun _ _ => trivial) hs⟩
  obtain ⟨hiff, hstays⟩ := hreach.isLastHook_iff 0 (.hooks 0)
  refine ⟨s, hs, hiff, fun s' hl => ?_⟩
  exact (hstays hshown.2.1 (by simp [hshown.1]) s' hl).trans hshown.2.2

/-- A timer fires, a callback that it calls resolves the cell, and an interceptor is told about the
timeout after its completion hook was called. -/
def resolvedMeanwhile : List Move :=
  .begin 0 (.start 0 0 (some "d") [.custom "x" "y" "z"]) :: List.replicate 9 (.advance 0) ++
    .finish 0 :: .fire 1 ⟨0, "deferred-timeout-1", 10, 0⟩ :: List.replicate 4 (.advance 1) ++
    .begin 1 (.setResult 0 (.text "A")) :: List.replicate 6 (.advance 1) ++
    .answer 1 (.ok .null) :: List.replicate 4 (.advance 1) ++
    .answer 1 (.ok .null) :: List.replicate 12 (.advance 1) ++
    .finish 1 :: .answer 1 (.ok .null) :: List.replicate 5 (.advance 1)

/-- A new world with a cell that has a timeout and a callback for it. -/
def timed : World :=
  (default : World).setCell 0 { timeoutMs := some 10, onTimeout := some "t" }

theorem isNew_timed : timed.IsNew where
  cell c := by
    rw [timed, World.cell_setCell]
    split <;> exact ⟨rfl, rfl, rfl⟩
  active _ := rfl
  requestCount := rfl
  requests := rfl
  timers := rfl

theorem not_isLastHook_resolvedMeanwhile :
    ∃ s, run { world := timed } resolvedMeanwhile = some s ∧ Reachable Move.any s ∧
      s.IsStarted 0 ∧ ¬ s.IsLastHook 0 (.custom "x" "y" "z") := by
  have hshown : (run { world := timed } resolvedMeanwhile).any (fun s =>
      s.history.any (Event.starts 0) &&
      decide (s.history.getLast?.bind (Event.hook? 0) = some (.custom "x" "y" "z")) &&
      decide (.custom "x" "y" "z" ∈ s.history.dropLast.filterMap (Event.completionHook? 0))) =
        true := by decide +kernel
  obtain ⟨s, hs, hb⟩ := Option.any_eq_true _ _ |>.mp hshown
  simp only [Bool.and_eq_true, decide_eq_true_eq, List.mem_filterMap] at hb
  obtain ⟨⟨hstarts, hlast⟩, c, hc, hcompletion⟩ := hb
  obtain ⟨e, he, hhook⟩ := Option.bind_eq_some_iff.mp hlast
  obtain ⟨before, hh⟩ := List.getLast?_eq_some_iff.mp he
  rw [hh, List.dropLast_concat] at hc
  exact ⟨s, hs, ⟨timed, isNew_timed, leads_of_run (fun _ _ => trivial) hs⟩, hstarts,
    fun h => h before e [] hh hhook c hc hcompletion⟩

end System

end Rendezvous
