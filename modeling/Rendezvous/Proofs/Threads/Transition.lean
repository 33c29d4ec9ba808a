import Rendezvous.Proofs.Threads.Flow
import Rendezvous.Proofs.Threads.System

/-!
# Transitions

What a move does, said once: `System.Transition` has one constructor for each way in which a system
can change, and every move is one of them. What holds of all systems in a run is proved by cases on
the last transition.

## Main definitions

* `System.Transition`: the changes of a system.

## Main results

* `System.transition_of_take?`: a move makes one of these changes.
* `System.Transition.world`: objects change in the steps of calls only.
* `System.forall_ongoing_of_transition`, `System.forall_ready_of_transition`,
  `System.exists_ongoing_of_transition`: what every call in progress, or some call, satisfies after
  a change.
* `System.Reachable.exists_transition`, `System.Reachable.exists_of_step`: the move that brought an
  event about, and where the call stood whose step it was.
* `System.Leads.history_prefix`: what has happened stays.
-/

namespace Rendezvous

theorem Call.frames_activation (c : Call) : c.activation.frames = [] := rfl

@[simp] theorem Frame.resume_world (w : World) (o : Outcome) (f : Frame) :
    (f.resume w o).world = w := by
  have hcontain (site : Site) (c : CellId) (e : Option String) (g : Answer → Next) (n : Next) :
      (contain w site c e o g n).world = w := by
    unfold contain
    split
    · rfl
    · split <;> rfl
  rcases f with ⟨c, f⟩ | ⟨q, f⟩ | ⟨k, n, rest⟩ | a | o
  · cases f <;> exact hcontain ..
  · cases f <;> first | rfl | exact hcontain ..
  all_goals rfl

theorem innermost?_eq_some {t : ThreadId} {l newer older : List Ongoing} {x : Ongoing}
    (h : innermost? t l = some (newer, x, older)) :
    l = newer ++ x :: older ∧ x.thread = t ∧ ∀ y ∈ newer, y.thread ≠ t := by
  induction l generalizing newer with
  | nil => simp [innermost?] at h
  | cons y l ih =>
    rw [innermost?] at h
    split at h
    · cases h
      exact ⟨rfl, by assumption, by simp⟩
    · rename_i hy
      obtain ⟨⟨newer', x', older'⟩, hl, he⟩ := Option.map_eq_some_iff.mp h
      cases he
      obtain ⟨rfl, hx, hn⟩ := ih hl
      exact ⟨rfl, hx, by simpa using ⟨hy, hn⟩⟩

theorem innermost?_append {t : ThreadId} {newer older : List Ongoing} {x : Ongoing}
    (hx : x.thread = t) (hn : ∀ y ∈ newer, y.thread ≠ t) :
    innermost? t (newer ++ x :: older) = some (newer, x, older) := by
  induction newer with
  | nil => simp [innermost?, hx]
  | cons y newer ih =>
    have hy : y.thread ≠ t := hn y List.mem_cons_self
    simp [innermost?, hy, ih fun z hz => hn z (List.mem_cons_of_mem _ hz)]

theorem innermost?_eq_none {t : ThreadId} {l : List Ongoing} (h : innermost? t l = none) :
    ∀ y ∈ l, y.thread ≠ t := by
  induction l with
  | nil => simp
  | cons y l ih =>
    rw [innermost?] at h
    split at h
    · cases h
    · rename_i hy
      simpa using ⟨hy, ih (Option.map_eq_none_iff.mp h)⟩

theorem innermost?_of_forall {t : ThreadId} {l : List Ongoing} (h : ∀ y ∈ l, y.thread ≠ t) :
    innermost? t l = none := by
  cases hi : innermost? t l with
  | none => rfl
  | some cut =>
    obtain ⟨hl, ht, -⟩ := innermost?_eq_some hi
    exact absurd ht (h _ (hl ▸ by simp))

theorem Event.ofStep_eq_none {β : Type} {f : Event → Point → Next → Option β} {e : Event}
    (he : ∀ p n, e.deed ≠ .step p n) : e.ofStep f = none := by
  unfold ofStep
  split
  · exact absurd ‹_› (he _ _)
  · rfl

namespace System

/-- The changes of a system. -/
inductive Transition (s : System) : Move → System → Prop
  | begin (t : ThreadId) (c : Call) (hfree : s.isFree t = true)
      (hknown : ∀ q ∈ c.requests, q ∈ s.known) :
    Transition s (.begin t c) (s.enter t c s.world)
  | fire (t : ThreadId) (x : Timer) (hfree : ∀ y ∈ s.ongoing, y.thread ≠ t)
      (hx : x ∈ s.world.timers) :
    Transition s (.fire t x) (s.enter t (.timeOut x.request) (s.world.fire x))
  | make (cell : CellId) (dispatch : Option CallbackId) (interceptors : List Interceptor)
      (timeoutMs : Int) (timerName : String) (listener : Listener) :
    Transition s (.make cell dispatch interceptors timeoutMs timerName listener)
      (s.addRequest { cell, dispatch, interceptors, timeoutMs, timerName, listener })
  /-- A call takes the step at a point. -/
  | step (newer older : List Ongoing) (t : ThreadId) (k : CallNumber) (p : Point)
      (frames : List Frame) (hs : s.ongoing = newer ++ ⟨t, k, ⟨.ready p, frames⟩⟩ :: older)
      (hn : ∀ y ∈ newer, y.thread ≠ t) (hp : p.isEnabled s.world = true) :
    Transition s (.advance t)
      (s.proceed newer ⟨t, k, ⟨.ready p, frames⟩⟩ older (p.step s.world).world
        (.follow frames (p.step s.world).next) (.step p (p.step s.world).next))
  /-- A frame takes the outcome it waited for. -/
  | resume (newer older : List Ongoing) (t : ThreadId) (k : CallNumber) (o : Outcome) (f : Frame)
      (frames : List Frame) (hs : s.ongoing = newer ++ ⟨t, k, ⟨.ended o, f :: frames⟩⟩ :: older)
      (hn : ∀ y ∈ newer, y.thread ≠ t) :
    Transition s (.advance t)
      (s.proceed newer ⟨t, k, ⟨.ended o, f :: frames⟩⟩ older s.world
        (.follow frames (f.resume s.world o).next) (.resume f o (f.resume s.world o).next))
  | answer (newer older : List Ongoing) (t : ThreadId) (k : CallNumber) (i : Invocation)
      (frames : List Frame) (a : Except Failure Payload)
      (hs : s.ongoing = newer ++ ⟨t, k, ⟨.inside i, frames⟩⟩ :: older)
      (hn : ∀ y ∈ newer, y.thread ≠ t) :
    Transition s (.answer t a)
      (s.proceed newer ⟨t, k, ⟨.inside i, frames⟩⟩ older s.world
        ⟨.ended (.ofUser a), frames⟩ (.answer i (.ofUser a)))
  | finish (newer older : List Ongoing) (t : ThreadId) (k : CallNumber) (o : Outcome)
      (hs : s.ongoing = newer ++ ⟨t, k, ⟨.ended o, []⟩⟩ :: older)
      (hn : ∀ y ∈ newer, y.thread ≠ t) :
    Transition s (.finish t) (s.leave newer ⟨t, k, ⟨.ended o, []⟩⟩ older o)

variable {s s' s'' : System} {m : Move} {allowed : Move → Prop}

private theorem transition_of_advance {t : ThreadId} (h : s.take? (.advance t) = some s') :
    Transition s (.advance t) s' := by
  obtain ⟨⟨newer, ⟨t', k, ⟨control, frames⟩⟩, older⟩, hi, hb⟩ := Option.bind_eq_some_iff.mp h
  obtain ⟨hs, rfl, hn⟩ := innermost?_eq_some hi
  cases control with
  | ready p =>
    by_cases hp : p.isEnabled s.world
    · simp only [Activation.step?, hp, Activation.deed?, Option.bind_some,
        bind, pure, ite_true, Option.some.injEq] at hb
      exact hb ▸ .step newer older t' k p frames hs hn hp
    · simp [Activation.step?, hp, bind] at hb
  | inside i => simp [Activation.step?, bind] at hb
  | ended o =>
    cases frames with
    | nil => simp [Activation.step?, bind] at hb
    | cons f frames =>
      simp only [Activation.step?, Activation.deed?, Option.bind_some, bind, pure,
        Frame.resume_world, Option.some.injEq] at hb
      exact hb ▸ .resume newer older t' k o f frames hs hn

private theorem transition_of_answer {t : ThreadId} {a : Except Failure Payload}
    (h : s.take? (.answer t a) = some s') : Transition s (.answer t a) s' := by
  obtain ⟨⟨newer, ⟨t', k, ⟨control, frames⟩⟩, older⟩, hi, hb⟩ := Option.bind_eq_some_iff.mp h
  obtain ⟨hs, rfl, hn⟩ := innermost?_eq_some hi
  cases control with
  | inside i => exact Option.some.inj hb ▸ .answer newer older t' k i frames a hs hn
  | ready p => cases hb
  | ended o => cases hb

private theorem transition_of_finish {t : ThreadId} (h : s.take? (.finish t) = some s') :
    Transition s (.finish t) s' := by
  obtain ⟨⟨newer, ⟨t', k, ⟨control, frames⟩⟩, older⟩, hi, hb⟩ := Option.bind_eq_some_iff.mp h
  obtain ⟨hs, rfl, hn⟩ := innermost?_eq_some hi
  obtain ⟨o, ho, hb⟩ := Option.bind_eq_some_iff.mp hb
  cases control <;> cases frames <;> simp only [Activation.outcome?, reduceCtorEq] at ho
  cases ho
  exact Option.some.inj hb ▸ .finish newer older t' k _ hs hn

/-- Every move makes one of the changes. -/
theorem transition_of_take? (h : s.take? m = some s') : Transition s m s' := by
  cases m with
  | begin t c =>
    simp only [take?, Option.ite_none_right_eq_some] at h
    obtain ⟨⟨hfree, hknown⟩, he⟩ := h
    cases he
    exact .begin t c hfree hknown
  | fire t x =>
    simp only [take?, Option.ite_none_right_eq_some, Option.isNone_iff_eq_none] at h
    obtain ⟨⟨hfree, hx⟩, he⟩ := h
    cases he
    exact .fire t x (innermost?_eq_none hfree) hx
  | make cell dispatch interceptors timeoutMs timerName listener =>
    cases h
    exact .make cell dispatch interceptors timeoutMs timerName listener
  | advance t => exact transition_of_advance h
  | answer t a => exact transition_of_answer h
  | finish t => exact transition_of_finish h

/-- A property of the world and of single calls holds of every call in progress after a change, if
the change of the world keeps it and each kind of move of the call itself brings it about. -/
theorem forall_ongoing_of_transition {P : World → Ongoing → Prop} (ht : Transition s m s')
    (hold : ∀ x ∈ s.ongoing, P s.world x)
    (keep : ∀ x ∈ s.ongoing, P s.world x → P s'.world x)
    (enter : ∀ t c, m = .begin t c → (∀ q ∈ c.requests, q ∈ s.known) →
      P s.world ⟨t, s.begun, c.activation⟩)
    (fire : ∀ t x, m = .fire t x → x ∈ s.world.timers →
      P (s.world.fire x) ⟨t, s.begun, (Call.timeOut x.request).activation⟩)
    (step : ∀ t k p frames, ⟨t, k, ⟨.ready p, frames⟩⟩ ∈ s.ongoing →
      s'.history = s.history ++ [⟨t, k, .step p (p.step s.world).next⟩] →
      P s.world ⟨t, k, ⟨.ready p, frames⟩⟩ →
      P (p.step s.world).world ⟨t, k, .follow frames (p.step s.world).next⟩)
    (resume : ∀ t k o f frames, ⟨t, k, ⟨.ended o, f :: frames⟩⟩ ∈ s.ongoing →
      P s.world ⟨t, k, ⟨.ended o, f :: frames⟩⟩ →
      P s.world ⟨t, k, .follow frames (f.resume s.world o).next⟩)
    (answer : ∀ t k i frames a, m = .answer t a → ⟨t, k, ⟨.inside i, frames⟩⟩ ∈ s.ongoing →
      P s.world ⟨t, k, ⟨.inside i, frames⟩⟩ → P s.world ⟨t, k, ⟨.ended (.ofUser a), frames⟩⟩) :
    ∀ x ∈ s'.ongoing, P s'.world x := by
  have others {newer older : List Ongoing} {y : Ongoing} (hs : s.ongoing = newer ++ y :: older)
      {z : Ongoing} (hz : P s'.world z) : ∀ x ∈ newer ++ z :: older, P s'.world x := by
    intro x hx
    have hmem : x = z ∨ x ∈ s.ongoing := by
      rw [hs]
      simp only [List.mem_append, List.mem_cons] at hx ⊢
      grind
    rcases hmem with rfl | hx
    · exact hz
    · exact keep x hx (hold x hx)
  cases ht with
  | begin t c hfree hknown =>
    intro x hx
    rcases List.mem_cons.mp hx with rfl | hx
    · exact enter t c rfl hknown
    · exact keep x hx (hold x hx)
  | fire t x hfree ht =>
    intro y hy
    rcases List.mem_cons.mp hy with rfl | hy
    · exact fire t x rfl ht
    · exact keep y hy (hold y hy)
  | make => exact fun x hx => keep x hx (hold x hx)
  | step newer older t k p frames hs hn hp =>
    have hx : ⟨t, k, ⟨.ready p, frames⟩⟩ ∈ s.ongoing := hs ▸ by simp
    exact others hs (step t k p frames hx rfl (hold _ hx))
  | resume newer older t k o f frames hs hn =>
    have hx : ⟨t, k, ⟨.ended o, f :: frames⟩⟩ ∈ s.ongoing := hs ▸ by simp
    exact others hs (resume t k o f frames hx (hold _ hx))
  | answer newer older t k i frames a hs hn =>
    have hx : ⟨t, k, ⟨.inside i, frames⟩⟩ ∈ s.ongoing := hs ▸ by simp
    exact others hs (answer t k i frames a rfl hx (hold _ hx))
  | finish newer older t k o hs hn =>
    intro x hx
    have hx : x ∈ s.ongoing := by
      rw [hs]
      simp only [leave, List.mem_append, List.mem_cons] at hx ⊢
      grind
    exact keep x hx (hold x hx)

/-- A property of the points at which calls in progress stand, in the same way. -/
theorem forall_ready_of_transition {R : World → Point → Prop} (ht : Transition s m s')
    (hold : ∀ x ∈ s.ongoing, ∀ p, x.activation.control = .ready p → R s.world p)
    (keep : ∀ x ∈ s.ongoing, ∀ p, x.activation.control = .ready p → R s.world p → R s'.world p)
    (enter : ∀ t c p, m = .begin t c → (∀ q ∈ c.requests, q ∈ s.known) → c.control = .ready p →
      R s.world p)
    (fire : ∀ t x, m = .fire t x → x ∈ s.world.timers →
      R (s.world.fire x) (.request x.request .checkTimeout))
    (step : ∀ t k p frames p', ⟨t, k, ⟨.ready p, frames⟩⟩ ∈ s.ongoing →
      (p.step s.world).next.point? = some p' → R s.world p → R (p.step s.world).world p')
    (resume : ∀ t k o f frames p', ⟨t, k, ⟨.ended o, f :: frames⟩⟩ ∈ s.ongoing →
      (f.resume s.world o).next.point? = some p' → R s.world p') :
    ∀ x ∈ s'.ongoing, ∀ p, x.activation.control = .ready p → R s'.world p := by
  refine forall_ongoing_of_transition
    (P := fun w x => ∀ p, x.activation.control = .ready p → R w p) ht hold ?_ ?_ ?_ ?_ ?_ ?_
  · exact fun x hx h p hp => keep x hx p hp (h p hp)
  · exact fun t c hm hknown p hp => enter t c p hm hknown hp
  · intro t x hm hx p hp
    cases hp
    exact fire t x hm hx
  · exact fun t k p frames hx _ h p' hp' =>
      step t k p frames p' hx (Activation.control_follow.mp hp') (h p rfl)
  · exact fun t k o f frames hx _ p' hp' =>
      resume t k o f frames p' hx (Activation.control_follow.mp hp')
  · intro t k i frames a _ _ _ p hp
    cases hp

/-- If some call in progress satisfies a property, some call does so after a change, or what the
call brings about when it ceases to satisfy it. -/
theorem exists_ongoing_of_transition {Q : Activation → Prop} {R : Prop} (ht : Transition s m s')
    (h : ∃ x ∈ s.ongoing, Q x.activation)
    (step : ∀ t k p frames, ⟨t, k, ⟨.ready p, frames⟩⟩ ∈ s.ongoing →
      s'.world = (p.step s.world).world →
      ⟨t, k, .follow frames (p.step s.world).next⟩ ∈ s'.ongoing →
      Q ⟨.ready p, frames⟩ → Q (.follow frames (p.step s.world).next) ∨ R)
    (resume : ∀ t k o f frames, ⟨t, k, ⟨.ended o, f :: frames⟩⟩ ∈ s.ongoing →
      s'.world = s.world → ⟨t, k, .follow frames (f.resume s.world o).next⟩ ∈ s'.ongoing →
      Q ⟨.ended o, f :: frames⟩ → Q (.follow frames (f.resume s.world o).next) ∨ R)
    (answer : ∀ i frames o, Q ⟨.inside i, frames⟩ → Q ⟨.ended o, frames⟩)
    (finish : ∀ o, ¬ Q ⟨.ended o, []⟩) :
    (∃ x ∈ s'.ongoing, Q x.activation) ∨ R := by
  obtain ⟨x, hx, hQ⟩ := h
  have others {newer older : List Ongoing} {y z : Ongoing} (hs : s.ongoing = newer ++ y :: older)
      (hongoing : s'.ongoing = newer ++ z :: older)
      (hz : Q y.activation → Q z.activation ∨ R) : (∃ x ∈ s'.ongoing, Q x.activation) ∨ R := by
    by_cases he : x = y
    · exact (hz (he ▸ hQ)).imp_left fun h => ⟨z, hongoing ▸ by simp, h⟩
    · refine .inl ⟨x, ?_, hQ⟩
      rw [hs] at hx
      rw [hongoing]
      simp only [List.mem_append, List.mem_cons] at hx ⊢
      grind
  cases ht with
  | begin | fire => exact .inl ⟨x, List.mem_cons_of_mem _ hx, hQ⟩
  | make => exact .inl ⟨x, hx, hQ⟩
  | step newer older t k p frames hs hn hp =>
    exact others hs rfl (step t k p frames (hs ▸ by simp) rfl (by simp [proceed]))
  | resume newer older t k o f frames hs hn =>
    exact others hs rfl (resume t k o f frames (hs ▸ by simp) rfl (by simp [proceed]))
  | answer newer older t k i frames a hs hn =>
    exact others hs rfl fun h => .inl (answer i frames _ h)
  | finish newer older t k o hs hn =>
    refine .inl ⟨x, ?_, hQ⟩
    have hne : x ≠ ⟨t, k, ⟨.ended o, []⟩⟩ := fun he => finish o (by rwa [he] at hQ)
    rw [hs] at hx
    simp only [leave, List.mem_append, List.mem_cons] at hx ⊢
    grind

/-- What one more event, or one call among others, adds to a view. -/
theorem filterMap_append_cons {α β : Type} (f : α → Option β) (l l' : List α) (a : α) :
    (l ++ a :: l').filterMap f = l.filterMap f ++ ((f a).toList ++ l'.filterMap f) := by
  rw [List.filterMap_append]
  cases h : f a <;> simp [h]

/-- A view that shows what another one shows, but not all of it. -/
theorem filterMap_sublist_filterMap {α β : Type} {f g : α → Option β}
    (h : ∀ a b, f a = some b → g a = some b) (l : List α) :
    (l.filterMap f).Sublist (l.filterMap g) := by
  induction l with
  | nil => exact .slnil
  | cons a l ih =>
    cases ha : f a with
    | none =>
      rw [List.filterMap_cons_none ha]
      exact ih.trans ((List.sublist_cons_self a l).filterMap g)
    | some b =>
      rw [List.filterMap_cons_some ha, List.filterMap_cons_some (h a b ha)]
      exact ih.cons_cons b

/-- A change is the step of a call, or it leaves the objects and every view of the steps that were
taken as they are. -/
theorem Transition.world (ht : Transition s m s') :
    ((∀ q < s.world.requestCount, s'.world.request q = s.world.request q) ∧
      (∀ c, s'.world.cell c = s.world.cell c) ∧
      (∀ k, s'.world.coordinator k = s.world.coordinator k) ∧
      ∀ {β : Type} (f : Event → Point → Next → Option β),
        s'.history.filterMap (Event.ofStep f) = s.history.filterMap (Event.ofStep f)) ∨
    ∃ t k p frames, ⟨t, k, ⟨.ready p, frames⟩⟩ ∈ s.ongoing ∧ p.isEnabled s.world = true ∧
      s'.world = (p.step s.world).world ∧
      s'.history = s.history ++ [⟨t, k, .step p (p.step s.world).next⟩] ∧
      ⟨t, k, .follow frames (p.step s.world).next⟩ ∈ s'.ongoing := by
  have hviews {e : Event} (he : ∀ p n, e.deed ≠ .step p n) (hh : s'.history = s.history ++ [e])
      {β : Type} (f : Event → Point → Next → Option β) :
      s'.history.filterMap (Event.ofStep f) = s.history.filterMap (Event.ofStep f) := by
    rw [hh, filterMap_append_cons, Event.ofStep_eq_none he]
    exact List.append_nil _
  cases ht with
  | step newer older t k p frames hs hn hp =>
    exact .inr ⟨t, k, p, frames, hs ▸ by simp, hp, rfl, rfl, by simp [proceed]⟩
  | make =>
    refine .inl ⟨fun q hq => ?_, fun _ => rfl, fun _ => rfl, fun _ => rfl⟩
    exact (s.world.requests.get_set s.world.requestCount q _).trans (if_neg (Nat.ne_of_lt hq))
  | begin => exact .inl ⟨fun _ _ => rfl, fun _ => rfl, fun _ => rfl, hviews (by simp) rfl⟩
  | fire => exact .inl ⟨fun _ _ => rfl, fun _ => rfl, fun _ => rfl, hviews (by simp) rfl⟩
  | resume => exact .inl ⟨fun _ _ => rfl, fun _ => rfl, fun _ => rfl, hviews (by simp) rfl⟩
  | answer => exact .inl ⟨fun _ _ => rfl, fun _ => rfl, fun _ => rfl, hviews (by simp) rfl⟩
  | finish => exact .inl ⟨fun _ _ => rfl, fun _ => rfl, fun _ => rfl, hviews (by simp) rfl⟩

/-- A call that stands at a point stays there until it takes the step. -/
theorem Transition.mem_of_ready (ht : Transition s m s') {x : Ongoing} (hx : x ∈ s.ongoing)
    {p : Point} (hp : x.activation.control = .ready p) :
    x ∈ s'.ongoing ∨
    s'.history = s.history ++ [⟨x.thread, x.number, .step p (p.step s.world).next⟩] := by
  have hother {newer older : List Ongoing} {y z : Ongoing} (hs : s.ongoing = newer ++ y :: older)
      (hne : x ≠ y) : x ∈ newer ++ z :: older := by
    rw [hs] at hx
    simp only [List.mem_append, List.mem_cons] at hx ⊢
    grind
  cases ht with
  | begin | fire => exact .inl (List.mem_cons_of_mem _ hx)
  | make => exact .inl hx
  | step newer older t k p' frames hs hn hp' =>
    by_cases he : x = ⟨t, k, ⟨.ready p', frames⟩⟩
    · subst he
      cases hp
      exact .inr rfl
    · exact .inl (hother hs he)
  | resume newer older t k o f frames hs hn =>
    exact .inl (hother hs fun he => by simp [he] at hp)
  | answer newer older t k i frames a hs hn =>
    exact .inl (hother hs fun he => by simp [he] at hp)
  | finish newer older t k o hs hn =>
    have hne : x ≠ ⟨t, k, ⟨.ended o, []⟩⟩ := fun he => by simp [he] at hp
    rw [hs] at hx
    simp only [leave, List.mem_append, List.mem_cons] at hx ⊢
    grind

/-! ### Runs -/

theorem Leads.trans (h : Leads allowed s s') (h' : Leads allowed s' s'') :
    Leads allowed s s'' := by
  induction h' with
  | refl => exact h
  | move m _ hm ht ih => exact .move m ih hm ht

theorem Leads.mono {allowed' : Move → Prop} (himp : ∀ m, allowed m → allowed' m)
    (h : Leads allowed s s') : Leads allowed' s s' := by
  induction h with
  | refl => exact .refl
  | move m _ hm ht ih => exact .move m ih (himp m hm) ht

theorem leads_of_run {ms : List Move} (hms : ∀ m ∈ ms, allowed m) (h : s.run ms = some s') :
    Leads allowed s s' := by
  induction ms generalizing s with
  | nil =>
    cases h
    exact .refl
  | cons m ms ih =>
    obtain ⟨s₁, h₁, h⟩ := Option.bind_eq_some_iff.mp h
    have hm : Leads allowed s s₁ := .move m .refl (hms m List.mem_cons_self) h₁
    exact hm.trans (ih (fun n hn => hms n (List.mem_cons_of_mem _ hn)) h)

/-- What a run from a new world ends in is reached. -/
theorem reachable_of_run {w : World} {ms : List Move} (hw : w.IsNew)
    (h : run { world := w } ms = some s) : Reachable Move.any s :=
  ⟨w, hw, leads_of_run (fun _ _ => trivial) h⟩

theorem run_append (s : System) (ms ms' : List Move) :
    s.run (ms ++ ms') = (s.run ms).bind fun s => s.run ms' := by
  induction ms generalizing s with
  | nil => rfl
  | cons m ms ih => simp [run, ih, Option.bind_assoc]

theorem Reachable.leads (hs : Reachable allowed s) (h : Leads allowed s s') :
    Reachable allowed s' := by
  obtain ⟨w, hw, hs⟩ := hs
  exact ⟨w, hw, hs.trans h⟩

theorem Reachable.any (hs : Reachable allowed s) : Reachable Move.any s := by
  obtain ⟨w, hw, hs⟩ := hs
  exact ⟨w, hw, hs.mono fun _ _ => trivial⟩

/-- What holds of a new world and is kept by every change holds of every system that is reached. -/
theorem Reachable.induction {I : System → Prop} (hs : Reachable allowed s)
    (new : ∀ w : World, w.IsNew → I { world := w })
    (keep : ∀ s m s', Reachable allowed s → allowed m → Transition s m s' → I s → I s') : I s := by
  obtain ⟨w, hw, h⟩ := hs
  induction h with
  | refl => exact new w hw
  | move m h hm ht ih => exact keep _ m _ ⟨w, hw, h⟩ hm (transition_of_take? ht) ih

theorem Transition.history (ht : Transition s m s') :
    s'.history = s.history ∨ ∃ e, s'.history = s.history ++ [e] := by
  cases ht
  case make => exact .inl rfl
  all_goals exact .inr ⟨_, rfl⟩

theorem Transition.history_prefix (ht : Transition s m s') : s.history <+: s'.history := by
  rcases ht.history with hh | ⟨e, hh⟩
  · exact hh ▸ List.prefix_rfl
  · exact hh ▸ List.prefix_append _ _

/-- The step of a call that an event records. -/
theorem Transition.exists_of_step (ht : Transition s m s') {t : ThreadId} {k : CallNumber}
    {p : Point} {n : Next} (hh : s'.history = s.history ++ [⟨t, k, .step p n⟩]) :
    ∃ newer older frames, s.ongoing = newer ++ ⟨t, k, ⟨.ready p, frames⟩⟩ :: older ∧
      (∀ y ∈ newer, y.thread ≠ t) ∧ p.isEnabled s.world = true ∧ n = (p.step s.world).next ∧
      s' = s.proceed newer ⟨t, k, ⟨.ready p, frames⟩⟩ older (p.step s.world).world
        (.follow frames n) (.step p n) := by
  cases ht with
  | step newer older t' k' p' frames hs hn hp =>
    obtain ⟨⟩ := List.singleton_inj.mp (List.append_cancel_left hh)
    exact ⟨newer, older, frames, hs, hn, hp, rfl, rfl⟩
  | make => simp [addRequest] at hh
  | begin => simp [enter] at hh
  | fire => simp [enter] at hh
  | resume => simp [proceed] at hh
  | answer => simp [proceed] at hh
  | finish => simp [leave] at hh

/-- An event was brought about by a move, from a system in which what came before it, and nothing
else, had happened. -/
theorem Reachable.exists_take? (hs : Reachable allowed s) {before after : List Event}
    {e : Event} (hh : s.history = before ++ e :: after) :
    ∃ s₀ m s₁, Reachable allowed s₀ ∧ allowed m ∧ s₀.take? m = some s₁ ∧ Leads allowed s₁ s ∧
      s₀.history = before ∧ s₁.history = before ++ [e] := by
  obtain ⟨w, hw, h⟩ := hs
  induction h generalizing after with
  | refl => simp at hh
  | @move s₁ s₂ m h hm ht ih =>
    have hold (hstay : ∃ after', s₁.history = before ++ e :: after') :
        ∃ s₀ m' s', Reachable allowed s₀ ∧ allowed m' ∧ s₀.take? m' = some s' ∧
          Leads allowed s' s₂ ∧ s₀.history = before ∧ s'.history = before ++ [e] := by
      obtain ⟨after', hstay⟩ := hstay
      obtain ⟨s₀, m', s', hs₀, hm', ht', hl, hb, ha⟩ := ih hstay
      exact ⟨s₀, m', s', hs₀, hm', ht', .move m hl hm ht, hb, ha⟩
    rcases (transition_of_take? ht).history with he | ⟨e', he⟩
    · exact hold ⟨after, he ▸ hh⟩
    · rcases List.eq_nil_or_concat after with rfl | ⟨after', x, rfl⟩
      · obtain ⟨hb, he'⟩ := List.append_inj' (he.symm.trans hh) rfl
        exact ⟨s₁, m, s₂, ⟨w, hw, h⟩, hm, ht, .refl, hb, hh⟩
      · have hcut : s₁.history ++ [e'] = (before ++ e :: after') ++ [x] := by
          rw [← he, hh]
          simp
        exact hold ⟨after', (List.append_inj' hcut rfl).1⟩

theorem Reachable.exists_transition (hs : Reachable allowed s) {before after : List Event}
    {e : Event} (hh : s.history = before ++ e :: after) :
    ∃ s₀ m s₁, Reachable allowed s₀ ∧ allowed m ∧ Transition s₀ m s₁ ∧ Leads allowed s₁ s ∧
      s₀.history = before ∧ s₁.history = before ++ [e] := by
  obtain ⟨s₀, m, s₁, hs₀, hm, ht, h⟩ := hs.exists_take? hh
  exact ⟨s₀, m, s₁, hs₀, hm, transition_of_take? ht, h⟩

/-- A step that an event records was taken in a system that led here. -/
theorem Reachable.exists_of_step (hs : Reachable allowed s) {t : ThreadId} {k : CallNumber}
    {p : Point} {n : Next} (he : ⟨t, k, .step p n⟩ ∈ s.history) :
    ∃ s₀ frames, Reachable allowed s₀ ∧ Leads allowed s₀ s ∧
      ⟨t, k, ⟨.ready p, frames⟩⟩ ∈ s₀.ongoing ∧ n = (p.step s₀.world).next := by
  obtain ⟨before, after, hh⟩ := List.append_of_mem he
  obtain ⟨s₀, m, s₁, hs₀, hm, ht, hl, rfl, h₁⟩ := hs.exists_take? hh
  obtain ⟨newer, older, frames, hongoing, -, -, hn, -⟩ := (transition_of_take? ht).exists_of_step h₁
  exact ⟨s₀, frames, hs₀, (Leads.move m .refl hm ht).trans hl, hongoing ▸ by simp, hn⟩

/-- What has happened stays. -/
theorem Leads.history_prefix (h : Leads allowed s s') : s.history <+: s'.history := by
  induction h with
  | refl => exact List.prefix_rfl
  | move m h hm ht ih => exact ih.trans (Transition.history_prefix (transition_of_take? ht))

end System

end Rendezvous
