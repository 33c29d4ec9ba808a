import Mathlib.Data.List.Perm.Subperm
import Rendezvous.Proofs.Delivery.Blocks
import Rendezvous.Proofs.Threads.Flow
import Rendezvous.Proofs.Threads.Nesting
import Rendezvous.Proofs.Threads.Writes

/-!
# Exactly-once delivery

Whatever the threads do, the handlers of a cell are called as the order of its locked blocks says:
the deliveries made and the deliveries that some call is about to make are together those that are
owed. When no call is in progress nothing is about to be made, and the two agree.

A delivery is made by the call whose block found the other side present, on the thread of that
call, and is the first thing the call does after that block.

## Main definitions

* `Next.handlerCall?`: the call of a handler with which a step goes on.
* `System.locked`, `System.deliveries`, `System.acceptances`: what has happened to a cell.
* `System.pending`: the deliveries that calls are about to make.

## Main results

* `System.Reachable.lastEvent?_of_delivery`: a delivery is made by the call that decided on it.
* `System.Reachable.delivered_exactly_once`: the deliveries made are those that are owed.
-/

namespace Rendezvous

/-- The point at which a block is taken. -/
def Block.point : Block → CellPoint
  | .register h => .register h
  | .assign r => .assign r
  | .expire => .expire

/-- The locked block of a cell that a point is. -/
def Point.block? (c : CellId) : Point → Option Block
  | .cell d (.register h) => if d = c then some (.register h) else none
  | .cell d (.assign r) => if d = c then some (.assign r) else none
  | .cell d .expire => if d = c then some .expire else none
  | _ => none

theorem Point.block?_eq_some {c : CellId} {p : Point} {b : Block} (h : p.block? c = some b) :
    p = .cell c b.point := by
  unfold block? at h
  split at h
  case h_4 => cases h
  all_goals
    obtain ⟨rfl, he⟩ := Option.ite_none_right_eq_some.mp h
    cases he
    rfl

/-- A step that is no block of a cell leaves the cell as it is, but for its callbacks. -/
theorem Point.cell_step_of_block? (w : World) {c : CellId} {p : Point} (h : p.block? c = none) :
    ((p.step w).world.cell c).expired = (w.cell c).expired ∧
    ((p.step w).world.cell c).result = (w.cell c).result ∧
    ((p.step w).world.cell c).handler = (w.cell c).handler := by
  rcases p.cell_step w c with he | ⟨h', rfl, -⟩ | ⟨r, rfl, -⟩ | ⟨rfl, -⟩ | ⟨slot, id, -, he⟩
  · simp [he]
  · simp [block?] at h
  · simp [block?] at h
  · simp [block?] at h
  · rw [he]
    cases slot <;> exact ⟨rfl, rfl, rfl⟩

/-- The handler of a cell that is called at a point, and the resolution it is given. -/
def Point.delivery? (c : CellId) : Point → Option (Handler × Resolution)
  | .cell d (.deliver h r _) => if d = c then some (h, r) else none
  | _ => none

/-- The handler of a cell that is called as a step goes on, and the resolution it is given: user
code is invoked as a handler, or a request is called to record the resolution. -/
def Next.handlerCall? (c : CellId) : Next → Option (Handler × Resolution)
  | .invoke (.cell d (.delivered _)) ⟨id, .handler, some (.resolution r)⟩ =>
    if d = c then some (.callback id, r) else none
  | .call (.cell d (.delivered _)) (.request q (.record r)) =>
    if d = c then some (.request q, r) else none
  | _ => none

/-- Whether a step goes on as a setter does whose resolution the cell took. -/
def Next.accepts : Next → Bool
  | .finish (.returned (.flag false)) => false
  | _ => true

namespace Event

/-- The locked block of a cell that an event is. -/
def locked? (c : CellId) : Event → Option Locked :=
  ofStep fun e p _ => (p.block? c).map fun b => ⟨e.thread, e.number, b⟩

/-- The call of a handler of a cell that an event is. -/
def delivery? (c : CellId) : Event → Option Delivery :=
  ofStep fun e _ n => (n.handlerCall? c).map fun (h, r) => ⟨e.thread, e.number, h, r⟩

/-- The assignment of a cell that an event is, if the code went on as with one the cell took. -/
def acceptance? (c : CellId) : Event → Option Acceptance :=
  ofStep fun e p n => match p with
    | .cell d (.assign r) =>
      if d = c ∧ n.accepts = true then some ⟨e.thread, e.number, r⟩ else none
    | _ => none

end Event

/-- The delivery for a cell that a call is about to make. -/
def Ongoing.pending? (c : CellId) (x : Ongoing) : Option Delivery :=
  match x.activation.control with
  | .ready p => (p.delivery? c).map fun (h, r) => ⟨x.thread, x.number, h, r⟩
  | _ => none

namespace System

/-- The locked blocks of a cell, in order. -/
def locked (s : System) (c : CellId) : List Locked := s.history.filterMap (Event.locked? c)

/-- The calls of handlers of a cell, in order. -/
def deliveries (s : System) (c : CellId) : List Delivery := s.history.filterMap (Event.delivery? c)

/-- The assignments that the setters of a cell took to be accepted. -/
def acceptances (s : System) (c : CellId) : List Acceptance :=
  s.history.filterMap (Event.acceptance? c)

/-- The deliveries for a cell that calls are about to make. -/
def pending (s : System) (c : CellId) : List Delivery := s.ongoing.filterMap (Ongoing.pending? c)

end System

theorem Point.delivery?_eq_some {c : CellId} {p : Point} {h : Handler} {r : Resolution}
    (hp : p.delivery? c = some (h, r)) : ∃ a, p = .cell c (.deliver h r a) := by
  unfold delivery? at hp
  split at hp
  · obtain ⟨rfl, he⟩ := Option.ite_none_right_eq_some.mp hp
    cases he
    exact ⟨_, rfl⟩
  · cases hp

/-- A step calls the handler that is to be called at its point. -/
theorem Point.handlerCall?_next (c : CellId) (w : World) (p : Point) :
    (p.step w).next.handlerCall? c = p.delivery? c := by
  cases hp : p.delivery? c with
  | some x =>
    obtain ⟨h, r⟩ := x
    obtain ⟨a, rfl⟩ := Point.delivery?_eq_some hp
    rw [← hp]
    cases h <;> rfl
  | none =>
    have hway := p.way_step w
    generalize (p.step w).next = n at hway ⊢
    cases hway <;> first | rfl | exact hp

/-- The delivery that a step of a call is. -/
theorem Event.delivery?_step (c : CellId) (w : World) (p : Point) (t : ThreadId) (k : CallNumber) :
    Event.delivery? c ⟨t, k, .step p (p.step w).next⟩ =
      (p.delivery? c).map fun (h, r) => ⟨t, k, h, r⟩ :=
  congrArg (Option.map _) (p.handlerCall?_next c w)

/-- No call begins with the delivery of a resolution. -/
theorem Call.delivery?_eq_none {c : CellId} {call : Call} {p : Point}
    (h : call.control = .ready p) : p.delivery? c = none := by
  unfold control at h
  split at h <;> cases h <;> rfl

/-! ### What one step of a call contributes -/

variable {w : World} {p : Point} {c : CellId} {t : ThreadId} {k : CallNumber}
  {frames : List Frame} {bs : List Locked}

/-- The block that a step is, as a block of its call. -/
private def blocks (c : CellId) (t : ThreadId) (k : CallNumber) (p : Point) : List Locked :=
  ((p.block? c).map fun b => ⟨t, k, b⟩).toList

private theorem pending?_of_point?_eq_none {n : Next}
    (h : ∀ p, n.point? = some p → p.delivery? c = none) :
    Ongoing.pending? c ⟨t, k, .follow frames n⟩ = none := by
  cases n with
  | goto p => simp [Ongoing.pending?, Activation.follow, h p rfl]
  | call f p => simp [Ongoing.pending?, Activation.follow, h p rfl]
  | invoke f i => rfl
  | finish o => rfl

/-- A handler of a cell is called only after a block of the cell. -/
private theorem pending?_of_block?_eq_none (h : p.block? c = none) :
    Ongoing.pending? c ⟨t, k, .follow frames (p.step w).next⟩ = none := by
  refine pending?_of_point?_eq_none fun p' hp' => ?_
  have hway := p.way_step w
  generalize (p.step w).next = n at hway hp'
  cases hway <;> cases hp' <;> first | rfl | skip
  case register d h' r hr =>
    by_cases hd : d = c
    · simp [Point.block?, hd] at h
    · simp [Point.delivery?, hd]
  case assign d h' r hr =>
    by_cases hd : d = c
    · simp [Point.block?, hd] at h
    · simp [Point.delivery?, hd]

/-- A frame calls no handler. -/
private theorem pending?_resume {f : Frame} {o : Outcome} :
    Ongoing.pending? c ⟨t, k, .follow frames (f.resume w o).next⟩ = none := by
  refine pending?_of_point?_eq_none fun p' hp' => ?_
  have hway := f.way_resume w o
  generalize (f.resume w o).next = n at hway hp'
  cases hway <;> cases hp' <;> rfl

/-- What a call is about to deliver after a step is what its block is owed. -/
private theorem due_step (frames : List Frame) (hbs : Locked.Tracks bs (w.cell c)) :
    Locked.due (bs ++ blocks c t k p) = Locked.due bs ++
      (Ongoing.pending? c ⟨t, k, .follow frames (p.step w).next⟩).toList := by
  cases hb : p.block? c with
  | none => simp [blocks, hb, pending?_of_block?_eq_none hb]
  | some b =>
    have hp := Point.block?_eq_some hb
    subst hp
    rw [blocks, hb, Option.map_some, Option.toList_some]
    cases b with
    | register h =>
      rw [Locked.due_register hbs]
      simp only [Block.point, Point.step, CellPoint.step]
      cases ((w.cell c).register h).2 <;>
        simp [Activation.follow, Next.ret, Ongoing.pending?, Point.delivery?]
    | assign r =>
      rw [Locked.due_assign hbs]
      simp only [Block.point, Point.step, CellPoint.step]
      cases ((w.cell c).assign r).2 with
      | rejected => simp [Activation.follow, Next.ret, Ongoing.pending?]
      | accepted h =>
        cases h <;> simp [Activation.follow, Next.ret, Ongoing.pending?, Point.delivery?]
    | expire =>
      rw [Locked.due_expire]
      simp only [Block.point, Point.step, CellPoint.step]
      cases (w.cell c).expire.2 <;>
        simp [Activation.follow, Next.ret, Ongoing.pending?, Point.delivery?]

private theorem tracks_step (hbs : Locked.Tracks bs (w.cell c)) :
    Locked.Tracks (bs ++ blocks c t k p) ((p.step w).world.cell c) := by
  cases hb : p.block? c with
  | none =>
    have hsame := Point.cell_step_of_block? w hb
    simpa [blocks, hb] using hbs.congr hsame.1 hsame.2.1 hsame.2.2
  | some b =>
    have hp := Point.block?_eq_some hb
    subst hp
    rw [blocks, hb, Option.map_some, Option.toList_some]
    cases b with
    | register h =>
      simpa [Block.point, Point.step, CellPoint.step] using Locked.tracks_register hbs t k h
    | assign r =>
      simpa [Block.point, Point.step, CellPoint.step] using Locked.tracks_assign hbs t k r
    | expire => simpa [Block.point, Point.step, CellPoint.step] using Locked.tracks_expire hbs t k

/-- A setter goes on as after an accepted assignment exactly when the cell took it. -/
private theorem accepted?_step (hbs : Locked.Tracks bs (w.cell c)) :
    (Locked.accepted? (bs ++ blocks c t k p)).toList = (Locked.accepted? bs).toList ++
      (Event.acceptance? c ⟨t, k, .step p (p.step w).next⟩).toList := by
  cases hb : p.block? c with
  | none =>
    have hnone : Event.acceptance? c ⟨t, k, .step p (p.step w).next⟩ = none := by
      simp only [Event.acceptance?, Event.ofStep]
      split
      · rename_i d r
        refine if_neg fun hd => ?_
        simp [Point.block?, hd.1] at hb
      · rfl
    simp [blocks, hb, hnone]
  | some b =>
    have hp := Point.block?_eq_some hb
    subst hp
    rw [blocks, hb, Option.map_some, Option.toList_some]
    cases b with
    | register h =>
      rw [Locked.accepted?_append rfl]
      simp [Event.acceptance?, Event.ofStep, Block.point]
    | assign r =>
      rw [Locked.accepted?_assign hbs]
      simp only [Block.point, Point.step, CellPoint.step, Event.acceptance?, Event.ofStep]
      cases ((w.cell c).assign r).2 with
      | rejected => simp [Next.ret, Next.accepts]
      | accepted h => cases h <;> simp [Next.ret, Next.accepts]
    | expire =>
      rw [Locked.accepted?_append rfl]
      simp [Event.acceptance?, Event.ofStep, Block.point]

/-! ### Runs -/

namespace System

/-- What has happened to a cell is what its blocks are owed, but for what is about to happen. -/
private structure IsSettled (s : System) (c : CellId) : Prop where
  tracks : Locked.Tracks (s.locked c) (s.world.cell c)
  perm : (s.deliveries c ++ s.pending c).Perm (Locked.due (s.locked c))
  acceptances : s.acceptances c = (Locked.accepted? (s.locked c)).toList

variable {s s' : System} {m : Move} {allowed : Move → Prop}

private theorem isSettled_new {w : World} (hw : w.IsNew) : IsSettled { world := w } c where
  tracks := Locked.tracks_nil (hw.cell c)
  perm := .nil
  acceptances := rfl

/-- An event that is no step of a call. -/
private theorem isSettled_of_event {e : Event} (hs : s.IsSettled c)
    (hcell : s'.world.cell c = s.world.cell c) (hh : s'.history = s.history ++ [e])
    (hpending : s'.pending c = s.pending c) (he : ∀ p n, e.deed ≠ .step p n) :
    s'.IsSettled c := by
  have hview {β : Type} (f : Event → Point → Next → Option β) :
      s'.history.filterMap (Event.ofStep f) = s.history.filterMap (Event.ofStep f) := by
    rw [hh, filterMap_append_cons, Event.ofStep_eq_none he]
    exact List.append_nil _
  have hl : s'.locked c = s.locked c := hview _
  have hd : s'.deliveries c = s.deliveries c := hview _
  have ha : s'.acceptances c = s.acceptances c := hview _
  exact ⟨by rw [hl, hcell]; exact hs.tracks, by rw [hl, hd, hpending]; exact hs.perm,
    by rw [hl, ha]; exact hs.acceptances⟩

private theorem pending_enter (t : ThreadId) (call : Call) (w : World) :
    (s.enter t call w).pending c = s.pending c := by
  refine List.filterMap_cons_none ?_
  unfold Ongoing.pending?
  split
  · rename_i p hp
    simp [Call.delivery?_eq_none hp]
  · rfl

private theorem isSettled_step {newer older : List Ongoing} {t : ThreadId} {k : CallNumber}
    {p : Point} {frames : List Frame} (hs : s.IsSettled c)
    (he : s.ongoing = newer ++ ⟨t, k, ⟨.ready p, frames⟩⟩ :: older) :
    (s.proceed newer ⟨t, k, ⟨.ready p, frames⟩⟩ older (p.step s.world).world
      (.follow frames (p.step s.world).next) (.step p (p.step s.world).next)).IsSettled c := by
  generalize hs' : s.proceed .. = s'
  have hw : s'.world = (p.step s.world).world := by
    subst hs'
    rfl
  have hl : s'.locked c = s.locked c ++ blocks c t k p := by
    subst hs'
    rw [locked, proceed, filterMap_append_cons]
    exact congrArg _ (List.append_nil _)
  have hd : s'.deliveries c = s.deliveries c ++
      (Ongoing.pending? c ⟨t, k, ⟨.ready p, frames⟩⟩).toList := by
    subst hs'
    rw [deliveries, proceed, filterMap_append_cons, Event.delivery?_step]
    exact congrArg _ (List.append_nil _)
  have ha : s'.acceptances c = s.acceptances c ++
      (Event.acceptance? c ⟨t, k, .step p (p.step s.world).next⟩).toList := by
    subst hs'
    rw [acceptances, proceed, filterMap_append_cons]
    exact congrArg _ (List.append_nil _)
  refine ⟨by rw [hl, hw]; exact tracks_step hs.tracks, ?_, ?_⟩
  · have hbefore := hs.perm
    rw [pending, he, filterMap_append_cons] at hbefore
    rw [hl, due_step frames hs.tracks, hd, pending, ← hs', proceed,
      filterMap_append_cons]
    refine List.Perm.trans ?_ (hbefore.append_right _)
    simp only [List.append_assoc]
    refine List.Perm.append_left _ ((List.perm_append_comm_assoc _ _ _).trans ?_)
    exact List.Perm.append_left _ (List.Perm.append_left _ List.perm_append_comm)
  · rw [ha, hl, accepted?_step hs.tracks, hs.acceptances]

private theorem isSettled_of_transition (ht : Transition s m s') (hs : s.IsSettled c) :
    s'.IsSettled c := by
  cases ht with
  | begin t call hfree hknown =>
    exact isSettled_of_event hs rfl rfl (pending_enter ..) (fun _ _ h => by cases h)
  | fire t x hfree hx =>
    exact isSettled_of_event hs rfl rfl (pending_enter ..) (fun _ _ h => by cases h)
  | make => exact ⟨hs.tracks, hs.perm, hs.acceptances⟩
  | step newer older t k p frames he hn hp => exact isSettled_step hs he
  | resume newer older t k o f frames he hn =>
    refine isSettled_of_event hs rfl rfl ?_ (fun _ _ h => by cases h)
    rw [System.pending, System.pending, he, proceed, filterMap_append_cons, filterMap_append_cons,
      pending?_resume]
    rfl
  | answer newer older t k i frames a he hn =>
    refine isSettled_of_event hs rfl rfl ?_ (fun _ _ h => by cases h)
    rw [System.pending, System.pending, he, proceed, filterMap_append_cons, filterMap_append_cons]
    rfl
  | finish newer older t k o he hn =>
    refine isSettled_of_event hs rfl rfl ?_ (fun _ _ h => by cases h)
    rw [System.pending, System.pending, he, leave, filterMap_append_cons, List.filterMap_append]
    rfl

private theorem Reachable.isSettled (hs : Reachable allowed s) : s.IsSettled c :=
  hs.induction (fun _ hw => isSettled_new hw) fun _ _ _ _ _ ht h => isSettled_of_transition ht h

/-- The resolution of a cell is that of the one assignment which its setters took to be accepted. -/
theorem Reachable.resolution_acceptances (hs : Reachable allowed s) :
    (s.acceptances c).map Acceptance.resolution = (s.world.cell c).result.toList := by
  have hsettled : s.IsSettled c := hs.isSettled
  rw [hsettled.acceptances, hsettled.tracks.result]
  cases Locked.accepted? (s.locked c) <;> rfl

/-- A delivery is made by the call whose block found the other side present, on the thread of that
call and as the next thing that the thread does. -/
theorem Reachable.lastEvent?_of_delivery (hs : Reachable allowed s) {before after : List Event}
    {e : Event} {d : Delivery} (hh : s.history = before ++ e :: after)
    (hd : e.delivery? c = some d) :
    ∃ b block, lastEvent? d.thread before = some b ∧
      b.locked? c = some ⟨d.thread, d.number, block⟩ ∧
      (block = .register d.handler ∨ block = .assign d.resolution) := by
  obtain ⟨s₀, m, s₁, hs₀, -, ht, -, rfl, he⟩ := hs.exists_transition hh
  obtain ⟨t, k, deed⟩ := e
  cases deed <;> simp only [Event.delivery?, Event.ofStep, reduceCtorEq] at hd
  rename_i p n
  obtain ⟨⟨h, r⟩, hp, rfl⟩ := Option.map_eq_some_iff.mp hd
  obtain ⟨newer, older, frames, hmem, -, -, rfl, -⟩ := ht.exists_of_step he
  rw [p.handlerCall?_next] at hp
  obtain ⟨d, hlast, hleaves⟩ := hs₀.lastEvent?_of_mem (x := ⟨t, k, ⟨.ready p, frames⟩⟩)
    (hmem ▸ by simp) rfl
  obtain ⟨a, rfl⟩ := Point.delivery?_eq_some hp
  rcases hleaves.ready with ⟨call, -, hcall⟩ | ⟨w, p', rfl, hnext⟩ | ⟨w, f, o, -, hnext⟩
  · simp [Call.delivery?_eq_none hcall] at hp
  · have hway := p'.way_step w
    generalize (p'.step w).next = n' at hway hnext hlast
    cases hway <;> cases hnext
    · refine ⟨_, .register h, hlast, ?_, .inl rfl⟩
      simp_all [Event.locked?, Event.ofStep, Point.block?, Point.delivery?]
    · refine ⟨_, .assign r, hlast, ?_, .inr rfl⟩
      simp_all [Event.locked?, Event.ofStep, Point.block?, Point.delivery?]
  · have hway := f.way_resume w o
    generalize (f.resume w o).next = n' at hway hnext
    cases hway <;> cases hnext

/-- Exactly-once delivery, whatever any number of threads do. At most one assignment of a cell is
accepted: the first one before the expiry. When no call is in progress, the calls of handlers are
those that the order of the locked blocks owes: one by the accepted assignment to the handler
registered last before it, and one by every registration between it and the expiry; before that,
they are some of those. Each is made by the call whose block decided it, as the next thing that
its thread does. A handler registered once, before the expiry, and not replaced before the
acceptance is called exactly once. -/
theorem Reachable.delivered_exactly_once (hs : Reachable Move.any s) (c : CellId) :
    (s.acceptances c).length ≤ 1 ∧
    s.acceptances c = (Locked.accepted? (s.locked c)).toList ∧
    (s.deliveries c).Subperm (Locked.due (s.locked c)) ∧
    (s.IsIdle → (s.deliveries c).Perm (Locked.due (s.locked c))) ∧
    (∀ before e after d, s.history = before ++ e :: after → e.delivery? c = some d →
      ∃ b block, lastEvent? d.thread before = some b ∧
        b.locked? c = some ⟨d.thread, d.number, block⟩ ∧
        (block = .register d.handler ∨ block = .assign d.resolution)) ∧
    (∀ pre b post h a, s.IsIdle → s.locked c = pre ++ b :: post → b.registration? = some h →
      (∀ x ∈ pre ++ post, x.registration? ≠ some h) → pre.any Locked.isExpiry = false →
      Locked.accepted? (s.locked c) = some a →
      ((Locked.accepted? pre).isSome ∨
        (Locked.beforeAssignment post).filterMap Locked.registration? = []) →
      ∃ t k, (s.deliveries c).filter (fun d => d.handler = h) = [⟨t, k, h, a.resolution⟩]) := by
  have hsettled : s.IsSettled c := hs.isSettled
  have hidle (hi : s.IsIdle) : (s.deliveries c).Perm (Locked.due (s.locked c)) := by
    have hnone : s.pending c = [] := by
      rw [pending, List.filterMap_eq_nil_iff]
      intro x hx
      obtain ⟨q, hq⟩ := hi x hx
      rw [Ongoing.pending?, hq]
      rfl
    simpa [hnone] using hsettled.perm
  refine ⟨?_, hsettled.acceptances, ?_, hidle, ?_, ?_⟩
  · rw [hsettled.acceptances]
    cases Locked.accepted? (s.locked c) <;> simp
  · exact (List.sublist_append_left _ _).subperm.trans hsettled.perm.subperm
  · exact fun before e after d hh hd => hs.lastEvent?_of_delivery hh hd
  · intro pre b post h a hi hl hb hothers hlive ha hkept
    rw [hl] at ha
    obtain ⟨t, k, hdue⟩ := Locked.exists_filter_due_eq hb
      (fun x hx => hothers x (List.mem_append_left _ hx))
      (fun x hx => hothers x (List.mem_append_right _ hx)) hlive ha hkept
    refine ⟨t, k, List.perm_singleton.mp ?_⟩
    rw [← hdue, ← hl]
    exact (hidle hi).filter _

/-- An assignment overtakes a registration, which then delivers the resolution itself. -/
def overtaken : List Move :=
  [.begin 0 (.setHandler 0 (some "h")), .begin 1 (.setResult 0 (.text "A")), .advance 1, .advance 1,
    .advance 0, .advance 1, .finish 1, .advance 0, .advance 0, .answer 0 (.ok .null), .advance 0,
    .finish 0]

theorem delivered_exactly_once_overtaken :
    ∃ s, run { world := default } overtaken = some s ∧ s.IsIdle ∧
      (s.acceptances 0).length ≤ 1 ∧
      (s.deliveries 0).Perm [⟨0, 0, .callback "h", .value (.text "A")⟩] ∧
      (∃ b block, lastEvent? 0 (s.history.take 8) = some b ∧
        b.locked? 0 = some ⟨0, 0, block⟩ ∧
        (block = .register (.callback "h") ∨ block = .assign (.value (.text "A")))) ∧
      ∃ t k, (s.deliveries 0).filter (fun d => d.handler = .callback "h") =
        [⟨t, k, .callback "h", .value (.text "A")⟩] := by
  obtain ⟨s, hs⟩ : ∃ s, run { world := default } overtaken = some s := ⟨_, rfl⟩
  have hreach : Reachable Move.any s :=
    ⟨default, World.isNew_default, leads_of_run (fun _ _ => trivial) hs⟩
  have hongoing : (run { world := default } overtaken).map (fun s => s.ongoing) = some [] := rfl
  have hlocked : (run { world := default } overtaken).map (fun s => s.locked 0) =
      some [⟨1, 1, .assign (.value (.text "A"))⟩, ⟨0, 0, .register (.callback "h")⟩] := rfl
  have hlater : (run { world := default } overtaken).map (fun s => s.history.drop 8) = some
      [⟨0, 0, .step (.cell 0 (.deliver (.callback "h") (.value (.text "A")) .unit))
        (.invoke (.cell 0 (.delivered .unit))
          ⟨"h", .handler, some (.resolution (.value (.text "A")))⟩)⟩,
       ⟨0, 0, .answer ⟨"h", .handler, some (.resolution (.value (.text "A")))⟩
         (.returned (.payload .null))⟩,
       ⟨0, 0, .resume (.cell 0 (.delivered .unit)) (.returned (.payload .null)) (.ret .unit)⟩,
       ⟨0, 0, .finish (.returned .unit)⟩] := rfl
  simp only [hs, Option.map_some, Option.some.injEq] at hongoing hlocked hlater
  have hidle : s.IsIdle := by simp [IsIdle, hongoing]
  obtain ⟨hone, -, -, hperm, hsync, honce⟩ := hreach.delivered_exactly_once 0
  refine ⟨s, hs, hidle, hone, ?_, ?_, ?_⟩
  · have hdue := hperm hidle
    rw [hlocked] at hdue
    exact hdue
  · have hsplit := (List.take_append_drop 8 s.history).symm
    rw [hlater] at hsplit
    exact hsync _ _ _ ⟨0, 0, .callback "h", .value (.text "A")⟩ hsplit rfl
  · exact honce [⟨1, 1, .assign (.value (.text "A"))⟩] ⟨0, 0, .register (.callback "h")⟩ []
      (.callback "h") ⟨1, 1, .value (.text "A")⟩ hidle hlocked rfl (by decide) rfl
      (hlocked ▸ rfl) (.inl rfl)

end System

end Rendezvous
