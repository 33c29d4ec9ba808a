import Rendezvous.Proofs.Delivery.ExactlyOnce
import Rendezvous.Proofs.Requests.Finality
import Rendezvous.Proofs.Threads.Tokens

/-!
# Request, dispatch and cell agree

The resolution of a cell reaches the dispatch of a request on one way: the cell hands it to the
request, the request records it, and dispatch is called with it. A request is begun once, waits in
its cell once and leaves it when the cell takes a resolution, so the way is gone once; and the cell
has the resolution from the first step on it.

## Main definitions

* `Move.LeavesBegin`: user code leaves it to a coordinator to begin a request.
* `Point.brings?`: what is on its way to a request at a point.
* `Point.headsFor`: the places from which a call comes to the dispatch of a request.
* `System.chances`: how often dispatch was begun or may still be.

## Main results

* `System.Reachable.agrees`: what is on its way to a request, or recorded by it, is the resolution
  of its cell.
* `System.Leads.chances_le`, `System.Reachable.length_dispatches_le_one`: dispatch is begun at most
  once.
* `System.Reachable.agreement`: the cell, the request and dispatch have the same resolution.
-/

namespace Rendezvous

/-- Whether user code leaves it to a coordinator to begin a request. -/
def Move.LeavesBegin (q : RequestId) : Move → Prop
  | .begin _ (.begin r) => r ≠ q
  | _ => True

namespace Point

/-- The resolution that is on its way to a request at a point. -/
def brings? (q : RequestId) : Point → Option Resolution
  | .cell _ (.deliver (.request r) x _) | .request r (.record x) | .request r (.dispatch x) =>
    if r = q then some x else none
  | _ => none

/-- The places from which a call comes to the dispatch of a request: a start that has made it, its
registration, and the way of a resolution to it. -/
def headsFor (q : RequestId) : Point → Bool
  | .coordinator _ (.activate r) | .coordinator _ (.noteStart r) | .request r .arm
  | .request r .attach | .cell _ (.checkRegister (.request r)) | .cell _ (.register (.request r))
  | .cell _ (.deliver (.request r) _ _) | .request r (.record _) | .request r (.dispatch _) => r = q
  | _ => false

/-- The steps that begin the dispatch of a request. -/
def beginsDispatch (q : RequestId) (p : Point) (n : Next) : Bool :=
  (p.dispatchCall? q n).isSome

@[simp] theorem beginsDispatch_goto {q : RequestId} {p p' : Point} :
    p.beginsDispatch q (.goto p') = false := by
  unfold beginsDispatch dispatchCall?
  split <;> rfl

@[simp] theorem beginsDispatch_finish {q : RequestId} {p : Point} {o : Outcome} :
    p.beginsDispatch q (.finish o) = false := by
  unfold beginsDispatch dispatchCall?
  split <;> rfl

end Point

/-- The resolution that a request records in an event. -/
def Event.record? (q : RequestId) : Event → Option Resolution :=
  ofStep fun _ p _ => match p with
    | .request r (.record x) => if r = q then some x else none
    | _ => none

theorem Event.isStep_beginsDispatch (q : RequestId) (e : Event) :
    e.isStep (Point.beginsDispatch q) = (e.dispatch? q).isSome := by
  obtain ⟨t, k, d⟩ := e
  cases d <;> rfl

/-- Whether a request waits in its cell. -/
def World.waits (w : World) (q : RequestId) : Bool :=
  (w.cell (w.request q).cell).handler = some (.request q)

theorem World.waits_eq_true {w : World} {q : RequestId} :
    w.waits q = true ↔ (w.cell (w.request q).cell).handler = some (.request q) :=
  decide_eq_true_iff

theorem World.Grows.result_cell {w w' : World} (hw : w.Grows w') {q : RequestId}
    (hq : q < w.requestCount) {r : Resolution}
    (h : (w.cell (w.request q).cell).result = some r) :
    (w'.cell (w'.request q).cell).result = some r := by
  rw [Request.cell_eq_of_fixed (hw.request q hq).fixed]
  exact hw.result _ r h

namespace System

variable {s s' : System} {m : Move} {allowed : Move → Prop} {q : RequestId} {r : Resolution}
  {t : ThreadId} {k : CallNumber} {frames : List Frame} {p p' : Point} {n : Next}

/-! ### What is on its way to a request is the resolution of its cell -/

/-- Whether what is on its way to a request, or recorded by it, is the resolution of its cell. -/
structure Agrees (s : System) (q : RequestId) : Prop where
  ready : ∀ x ∈ s.ongoing, ∀ p, x.activation.control = .ready p → ∀ r, p.brings? q = some r →
    (s.world.cell (s.world.request q).cell).result = some r
  resolution (r : Resolution) : (s.world.request q).resolution = some r →
    (s.world.cell (s.world.request q).cell).result = some r

private theorem lt_of_brings? {w : World} (hp : ∀ r ∈ p.requests, r < w.requestCount)
    (h : p.brings? q = some r) : q < w.requestCount := by
  unfold Point.brings? at h
  split at h <;> simp_all [Point.requests, CellPoint.requests, Handler.requests]

private theorem brings?_step (hs : Reachable allowed s) {x : Ongoing} (hx : x ∈ s.ongoing)
    (hp : x.activation.control = .ready p) (hp' : (p.step s.world).next.point? = some p')
    (hold : ∀ r, p.brings? q = some r →
      (s.world.cell (s.world.request q).cell).result = some r)
    (h : p'.brings? q = some r) :
    ((p.step s.world).world.cell ((p.step s.world).world.request q).cell).result = some r := by
  have hgrows := p.grows_step s.world
  have hb := hs.isBounded
  have hlt := hb.of_ready hx hp
  have howns := hs.owns_of_ready hx hp
  have hcell := p.cell_step s.world
  have hway := p.way_step s.world
  generalize (p.step s.world).next = n at hway hp'
  cases hway <;> cases hp' <;> try cases h
  case register c h' r' hr =>
    cases h' with
    | callback id => cases h
    | request q' =>
      obtain ⟨rfl, ⟨⟩⟩ := Option.ite_none_right_eq_some.mp h
      obtain rfl : (s.world.request q').cell = c := howns
      exact hgrows.result_cell (hlt q' (by simp [Point.requests, CellPoint.requests,
        Handler.requests])) (Cell.register_snd_eq_deliver.mp hr).2
  case assign c h' r' hr =>
    cases h' with
    | callback id => cases h
    | request q' =>
      obtain ⟨rfl, ⟨⟩⟩ := Option.ite_none_right_eq_some.mp h
      obtain ⟨hopen, hh⟩ := Cell.assign_snd_eq_accepted.mp hr
      obtain rfl : (s.world.request q').cell = c := hs.cell_of_handler hh
      rw [Request.cell_eq_of_fixed (hgrows.request q' (hb.world.handler _ q' hh)).fixed]
      simp [Point.step, CellPoint.step, Cell.assign_fst_result, hopen]
  case deliverRequest c q' r' a =>
    exact hgrows.result_cell (lt_of_brings? hlt h) (hold r h)
  case record q' r' =>
    exact hgrows.result_cell (lt_of_brings? hlt h) (hold r h)

/-- What is on its way to a request, or recorded by it, is the resolution of its cell. -/
theorem Reachable.agrees (hs : Reachable allowed s) (q : RequestId) : s.Agrees q := by
  refine hs.induction (I := fun s => s.Agrees q) (fun w hw => ⟨by simp, fun r hr => ?_⟩)
    fun s m s' hs _ ht h => ⟨?_, fun r hr => ?_⟩
  · rw [hw.request_eq q] at hr
    cases hr
  · refine forall_ready_of_transition (R := fun w p => ∀ r, p.brings? q = some r →
      (w.cell (w.request q).cell).result = some r) ht h.ready ?_ ?_ ?_ ?_ ?_
    · exact fun x hx p hp hold r hr =>
        ht.grows.result_cell (lt_of_brings? (hs.isBounded.of_ready hx hp) hr) (hold r hr)
    · intro t c p _ _ hp r hr
      cases c.enters_of_control hp <;> cases hr
    · intro t x _ _ r hr
      cases hr
    · exact fun t k p frames p' hx hp' hold r hr => brings?_step hs hx rfl hp' hold hr
    · intro t k o f frames p' _ hp' r hr
      have hway := f.way_resume s.world o
      generalize (f.resume s.world o).next = n at hway hp'
      cases hway <;> cases hp' <;> cases hr
  · by_cases hq : q < s.world.requestCount
    · have hold {r : Resolution} (hr : (s.world.cell (s.world.request q).cell).result = some r) :=
        ht.grows.result_cell hq hr
      rcases ht.world with ⟨hrequest, -⟩ | ⟨t, k, p, frames, hx, -, hw, -⟩
      · exact hold (h.resolution r (hrequest q hq ▸ hr))
      · rw [hw] at hr
        rcases p.request_step_of_lt q hq with he | ⟨-, he⟩ | ⟨r', rfl, he⟩ | ⟨-, he⟩ | ⟨-, he⟩ |
          ⟨-, he⟩ <;> rw [he] at hr
        · exact hold (h.resolution r hr)
        · exact hold (h.resolution r hr)
        · -- The first resolution that is recorded stays.
          rcases Option.or_eq_some_iff.mp hr with hr | ⟨-, hr⟩
          · exact hold (h.resolution r hr)
          · cases hr
            exact hold (h.ready _ hx _ rfl r (by simp [Point.brings?]))
        · exact hold (h.resolution r hr)
        · exact hold (h.resolution r hr)
        · exact hold (h.resolution r hr)
    · rw [← ht.request_of_le hs.isBounded (Nat.not_lt.mp hq)] at hr
      cases hr

/-! ### The way of a resolution -/

/-- What a request is about to record was delivered to it. -/
private theorem Reachable.mem_deliveries_of_record (hs : Reachable allowed s)
    (hx : ⟨t, k, ⟨.ready (.request q (.record r)), frames⟩⟩ ∈ s.ongoing) :
    ⟨t, k, .request q, r⟩ ∈ s.deliveries (s.world.request q).cell := by
  obtain ⟨s₀, m, s₁, p₀, frames₀, hs₀, ht, hl, hmem, -, -, hp, he⟩ := hs.exists_step_of_ready hx
    (fun c h => by cases h) (fun w f o n h hn => by cases h <;> cases hn)
  have hway := p₀.way_step s₀.world
  generalize (p₀.step s₀.world).next = n at hway hp he
  cases hway <;> cases hp
  rename_i c a
  have howns : (s₀.world.request q).cell = c := hs₀.owns_of_ready hmem rfl
  have hlt : q < s₀.world.requestCount := hs₀.isBounded.of_ready hmem rfl q
    (by simp [Point.requests, CellPoint.requests, Handler.requests])
  have hcell : (s.world.request q).cell = c :=
    (Request.cell_eq_of_fixed ((ht.grows.trans hl.grows).request q hlt).fixed).trans howns
  exact List.mem_filterMap.mpr ⟨_, he, by
    simp [Event.delivery?, Event.ofStep, Next.handlerCall?, hcell]⟩

/-- What is about to be dispatched is recorded, and was delivered to the request. -/
private theorem Reachable.recorded_of_dispatch (hs : Reachable allowed s)
    (hx : ⟨t, k, ⟨.ready (.request q (.dispatch r)), frames⟩⟩ ∈ s.ongoing) :
    r ∈ s.history.filterMap (Event.record? q) ∧ (s.world.request q).resolution = some r ∧
      ⟨t, k, .request q, r⟩ ∈ s.deliveries (s.world.request q).cell := by
  obtain ⟨s₀, m, s₁, p₀, frames₀, hs₀, ht, hl, hmem, -, hw, hp, he⟩ := hs.exists_step_of_ready hx
    (fun c h => by cases h) (fun w f o n h hn => by cases h <;> cases hn)
  have hway := p₀.way_step s₀.world
  generalize (p₀.step s₀.world).next = n at hway hp he
  cases hway <;> cases hp
  have hlt : q < s₀.world.requestCount := hs₀.isBounded.of_ready hmem rfl q
    (by simp [Point.requests])
  have hgrows := ht.grows.trans hl.grows
  refine ⟨List.mem_filterMap.mpr ⟨_, he, by simp [Event.record?, Event.ofStep]⟩, ?_, ?_⟩
  · obtain ⟨r', hr'⟩ : ∃ r', (s.world.request q).resolution = some r' := by
      obtain ⟨r', hr'⟩ : ∃ r', (s₁.world.request q).resolution = some r' := by
        rw [hw]
        cases (s₀.world.request q).resolution <;>
          simp [Point.step, RequestPoint.step, World.modifyRequest, *]
      have hlt₁ := Nat.lt_of_lt_of_le hlt ht.grows.requestCount
      exact ⟨r', (hl.grows.request q hlt₁).resolution r' hr'⟩
    have hagrees := hs.agrees q
    have hsame := (hagrees.resolution r' hr').symm.trans
      (hagrees.ready _ hx _ rfl r (by simp [Point.brings?]))
    rw [hr', Option.some.inj hsame]
  · rw [Request.cell_eq_of_fixed (hgrows.request q hlt).fixed]
    exact ((ht.history_prefix.trans hl.history_prefix).filterMap _).subset
      (hs₀.mem_deliveries_of_record hmem)

/-- The moment at which a dispatch began. -/
private theorem Reachable.exists_of_dispatch (hs : Reachable allowed s) {before after : List Event}
    {e : Event} (hh : s.history = before ++ e :: after) (he : e.dispatch? q = some r) :
    ∃ s₀, Reachable allowed s₀ ∧ s₀.history = before ∧ q < s₀.world.requestCount ∧
      s₀.world.Grows s.world ∧ s₀.history <+: s.history ∧
      ∃ t k frames, ⟨t, k, ⟨.ready (.request q (.dispatch r)), frames⟩⟩ ∈ s₀.ongoing := by
  obtain ⟨s₀, m, s₁, hs₀, -, ht, hl, hb, h₁⟩ := hs.exists_transition hh
  obtain ⟨t, k, d⟩ := e
  cases d <;> simp only [Event.dispatch?, Event.ofStep, reduceCtorEq] at he
  obtain ⟨newer, older, frames, hongoing, -, -, rfl, -⟩ := ht.exists_of_step (hb ▸ h₁)
  rw [Point.dispatchCall?_next] at he
  obtain rfl := Point.dispatch?_eq_some he
  have hmem : ⟨t, k, ⟨.ready (.request q (.dispatch r)), frames⟩⟩ ∈ s₀.ongoing := hongoing ▸ by simp
  exact ⟨s₀, hs₀, hb, hs₀.isBounded.of_ready hmem rfl q (by simp [Point.requests]),
    ht.grows.trans hl.grows, ht.history_prefix.trans hl.history_prefix, t, k, frames, hmem⟩

/-- What was handed to dispatch is the resolution of the request. -/
theorem Reachable.resolution_of_mem_dispatches (hs : Reachable allowed s)
    (hr : r ∈ s.dispatches q) : (s.world.request q).resolution = some r := by
  obtain ⟨e, he, hd⟩ := List.mem_filterMap.mp hr
  obtain ⟨before, after, hh⟩ := List.append_of_mem he
  obtain ⟨s₀, hs₀, -, hlt, hgrows, -, t, k, frames, hx⟩ := hs.exists_of_dispatch hh hd
  exact (hgrows.request q hlt).resolution r (hs₀.recorded_of_dispatch hx).2.1

/-- What a request has recorded was delivered to it. -/
theorem Reachable.exists_delivery (hs : Reachable allowed s)
    (hr : (s.world.request q).resolution = some r) :
    ∃ t k, ⟨t, k, .request q, r⟩ ∈ s.deliveries (s.world.request q).cell := by
  rcases hs.dispatched_or_dispatching hr with hmem | ⟨⟨t, k, ⟨control, frames⟩⟩, hx, hp⟩
  · obtain ⟨e, he, hd⟩ := List.mem_filterMap.mp hmem
    obtain ⟨before, after, hh⟩ := List.append_of_mem he
    obtain ⟨s₀, hs₀, -, hlt, hgrows, hpre, t, k, frames, hx⟩ := hs.exists_of_dispatch hh hd
    refine ⟨t, k, ?_⟩
    rw [Request.cell_eq_of_fixed (hgrows.request q hlt).fixed]
    exact (hpre.filterMap _).subset (hs₀.recorded_of_dispatch hx).2.2
  · obtain rfl : control = _ := hp
    exact ⟨t, k, (hs.recorded_of_dispatch hx).2.2⟩

/-! ### Dispatch is begun once -/

private theorem headsFor_of_enters {c : Call} (hm : Move.LeavesBegin q (.begin t c))
    (h : c.Enters p) : p.headsFor q = false := by
  cases h <;> try rfl
  exact decide_eq_false hm

private theorem headsFor_of_frameWay {w : World} {f : Frame} {o : Outcome} (h : f.Way w o n)
    (hp : n.point? = some p) : p.headsFor q = false := by
  cases h <;> cases hp <;> rfl

/-- A step goes on towards the dispatch of a request only from a place on the way there, or when the
cell takes a resolution for which the request waits, or when a start makes the request. -/
private theorem headsFor_of_way {w : World} (h : p.Way w n) :
    (n.leadsTo (Point.headsFor q)).toNat + (p.beginsDispatch q n).toNat ≤ (p.headsFor q).toNat ∨
      (∃ c x, p = .cell c (.assign x) ∧
        ((w.cell c).assign x).2 = .accepted (some (.request q)) ∧
        n = .goto (.cell c (.deliver (.request q) x (.flag true)))) ∨
      ∃ k c d extra, p = .coordinator k (.draw c d extra) ∧ q = w.requestCount ∧
        n = .goto (.coordinator k (.activate q)) := by
  cases h
  case assign c h r hr =>
    by_cases hh : h = .request q
    · subst hh
      exact .inr (.inl ⟨c, r, rfl, hr, rfl⟩)
    · left
      cases h with
      | callback id => exact Nat.le_refl 0
      | request q' =>
        have hne : q' ≠ q := fun he => hh (he ▸ rfl)
        simp [Next.leadsTo, Next.point?, Point.headsFor, hne]
  case draw k c d extra q' hq' =>
    by_cases hq : q' = q
    · exact .inr (.inr ⟨k, c, d, extra, rfl, hq ▸ hq', hq ▸ rfl⟩)
    · left
      simp [Next.leadsTo, Next.point?, Point.headsFor, hq]
  case checkRegister c h he =>
    left
    cases h <;> simp [Next.leadsTo, Next.point?, Point.headsFor]
  case register c h r hr =>
    left
    cases h <;> simp [Next.leadsTo, Next.point?, Point.headsFor]
  case dispatch r x id =>
    left
    by_cases hr : r = q <;> simp [Point.headsFor, Point.beginsDispatch, Point.dispatchCall?,
      Next.leadsTo, Next.point?, hr]
  case noDispatch r x =>
    left
    by_cases hr : r = q <;> simp [Point.headsFor, Point.beginsDispatch, Point.dispatchCall?,
      Next.leadsTo, Next.point?, hr]
  case finish =>
    left
    simp [Next.leadsTo, Next.point?]
  all_goals
    left
    simp [Next.leadsTo, Next.point?, Point.headsFor, Point.beginsDispatch, Point.dispatchCall?]

/-- A cell that comes to hold a handler by its registration has no resolution to deliver. -/
private theorem stored_of_handler {x : Cell} {h : Handler} (hold : x.handler ≠ some h)
    (hnew : (x.register h).1.handler = some h) : (x.register h).2 = .stored := by
  unfold Cell.register at hnew ⊢
  split at hnew
  · exact absurd hnew hold
  · rename_i he
    rw [if_neg he]
    cases hr : x.result with
    | none => rfl
    | some r =>
      rw [hr] at hnew
      exact absurd hnew hold

/-- A request comes to wait in its cell by its registration, which is over then. -/
private theorem waits_step {w : World} (hb : w.IsBounded) (h : (p.step w).world.waits q = true) :
    w.waits q = true ∨
      ∃ c, p = .cell c (.register (.request q)) ∧ (p.step w).next = .ret .unit := by
  rw [World.waits_eq_true] at h
  by_cases hold : (w.cell ((p.step w).world.request q).cell).handler = some (.request q)
  · left
    have hfixed := ((p.grows_step w).request q (hb.handler _ q hold)).fixed
    rw [World.waits_eq_true, ← Request.cell_eq_of_fixed hfixed]
    exact hold
  · right
    have hreg := (Point.handler_step h).resolve_left hold
    generalize ((p.step w).world.request q).cell = c at h hold hreg
    subst hreg
    refine ⟨c, rfl, ?_⟩
    simp only [Point.step, CellPoint.step, World.cell_setCell, if_pos] at h ⊢
    rw [stored_of_handler hold h]

/-- How often the dispatch of a request was begun, and how often calls and its cell may still come
to that. -/
def chances (s : System) (q : RequestId) : Nat :=
  s.standing (Point.headsFor q) + s.taken (Point.beginsDispatch q) + (s.world.waits q).toNat

/-- A step makes a chance of dispatch only if it makes the request. -/
private theorem chances_step (hs : Reachable allowed s) (p : Point) :
    ((p.step s.world).next.leadsTo (Point.headsFor q)).toNat +
        (p.beginsDispatch q (p.step s.world).next).toNat + ((p.step s.world).world.waits q).toNat ≤
      (p.headsFor q).toNat + (s.world.waits q).toNat ∨
    q = s.world.requestCount ∧ q < (p.step s.world).world.requestCount ∧
      ((p.step s.world).next.leadsTo (Point.headsFor q)).toNat +
        (p.beginsDispatch q (p.step s.world).next).toNat +
          ((p.step s.world).world.waits q).toNat ≤ 1 := by
  have hb := hs.isBounded.world
  rcases headsFor_of_way (q := q) (p.way_step s.world) with
    hle | ⟨c, x, rfl, hx, hn⟩ | ⟨k, c, d, extra, rfl, hq, hn⟩
  · left
    cases h : (p.step s.world).world.waits q with
    | false =>
      simp only [Bool.toNat_false]
      omega
    | true =>
      rcases waits_step hb h with h | ⟨c, rfl, hn⟩
      · rw [h]
        omega
      · rw [hn]
        simp [Next.ret, Next.leadsTo, Next.point?, Point.headsFor]
  · left
    obtain ⟨hopen, hh⟩ := Cell.assign_snd_eq_accepted.mp hx
    have hc : (s.world.request q).cell = c := hs.cell_of_handler hh
    have hbefore : s.world.waits q = true := World.waits_eq_true.mpr (hc ▸ hh)
    have hafter : ((Point.cell c (.assign x)).step s.world).world.waits q = false := by
      simp [World.waits, Point.step, CellPoint.step, hc, Cell.assign, hopen]
    rw [hn, hbefore, hafter]
    simp [Next.leadsTo, Next.point?, Point.headsFor]
  · right
    have hafter : ((Point.coordinator k (.draw c d extra)).step s.world).world.waits q = false := by
      refine Bool.eq_false_iff.mpr fun h => ?_
      rcases waits_step hb h with h | ⟨c', hp, -⟩
      · exact Nat.lt_irrefl _ (hq ▸ hb.handler _ q (World.waits_eq_true.mp h))
      · cases hp
    rw [hn, hafter]
    refine ⟨hq, hq ▸ Nat.lt_succ_self _, ?_⟩
    simp [Next.leadsTo, Next.point?, Point.headsFor]

/-- A change makes a chance of dispatch only if it makes the request. -/
theorem Transition.chances_le (hs : Reachable allowed s) (hm : m.LeavesBegin q)
    (ht : Transition s m s') : s'.chances q ≤ s.chances q ∨
      q = s.world.requestCount ∧ q < s'.world.requestCount ∧ s'.chances q ≤ s.chances q + 1 := by
  unfold chances
  rcases ht.tokens (Point.headsFor q) (Point.beginsDispatch q)
      (fun t c p hbegin hp => headsFor_of_enters (hbegin ▸ hm) (c.enters_of_control hp))
      (fun _ => rfl) (fun w f o p hp => headsFor_of_frameWay (f.way_resume w o) hp) with
    ⟨hle, hcell⟩ | ⟨t, k, p, frames, rest, -, hw, hbefore, hafter⟩
  · left
    have hwaits : (s'.world.waits q).toNat ≤ (s.world.waits q).toNat := by
      cases h : s'.world.waits q with
      | false => exact Nat.zero_le _
      | true =>
        rw [World.waits_eq_true, hcell] at h
        have hfixed := (ht.grows.request q (hs.isBounded.world.handler _ q h)).fixed
        rw [Request.cell_eq_of_fixed hfixed] at h
        rw [World.waits_eq_true.mpr h]
    omega
  · rw [hbefore, hafter, hw]
    exact (chances_step (q := q) hs p).imp (fun h => by omega)
      fun ⟨hq, hlt, h⟩ => ⟨hq, hlt, by omega⟩

/-- The chances of dispatch do not grow once the request has been made. -/
theorem Leads.chances_le (hs : Reachable allowed s) (hq : q < s.world.requestCount)
    (hl : Leads (Move.LeavesBegin q) s s') : s'.chances q ≤ s.chances q := by
  induction hl with
  | refl => exact Nat.le_refl _
  | @move s₁ s₂ m hl hm ht ih =>
    have hs₁ : Reachable Move.any s₁ := hs.any.leads (hl.mono fun _ _ => trivial)
    have hlt := Nat.lt_of_lt_of_le hq hl.grows.requestCount
    rcases (transition_of_take? ht).chances_le hs₁ hm with h | ⟨hnew, -⟩
    · exact h.trans ih
    · exact absurd hnew (Nat.ne_of_lt hlt)

/-- A request has one chance of dispatch, and none before it is made. -/
theorem Reachable.chances_le (hs : Reachable (Move.LeavesBegin q) s) :
    s.chances q ≤ (decide (q < s.world.requestCount)).toNat := by
  refine hs.induction (I := fun s => s.chances q ≤ (decide (q < s.world.requestCount)).toNat)
    (fun w hw => ?_) fun s m s' hs hm ht ih => ?_
  · have hnone : World.waits w q = false := by
      rw [← Bool.not_eq_true, World.waits_eq_true, (hw.cell _).handler]
      simp
    simp [chances, standing, taken, hnone]
  · rcases ht.chances_le hs hm with h | ⟨hq, hlt, h⟩
    · refine (h.trans ih).trans ?_
      by_cases hq : q < s.world.requestCount
      · simp [hq, Nat.lt_of_lt_of_le hq ht.grows.requestCount]
      · simp [hq]
    · rw [decide_eq_false (Nat.not_lt.mpr (Nat.le_of_eq hq.symm))] at ih
      rw [decide_eq_true hlt]
      exact h.trans (Nat.succ_le_succ ih)

theorem length_dispatches (s : System) (q : RequestId) :
    (s.dispatches q).length = s.taken (Point.beginsDispatch q) := by
  rw [dispatches, List.length_filterMap_eq_countP, taken]
  exact List.countP_congr fun e _ => by rw [Event.isStep_beginsDispatch]

theorem length_dispatches_le (s : System) (q : RequestId) :
    (s.dispatches q).length ≤ s.chances q := by
  rw [length_dispatches, chances]
  omega

/-- Dispatch is begun at most once. -/
theorem Reachable.length_dispatches_le_one (hs : Reachable (Move.LeavesBegin q) s) :
    (s.dispatches q).length ≤ 1 :=
  ((length_dispatches_le s q).trans hs.chances_le).trans (Bool.toNat_le _)

/-! ### The three agree -/

/-- Dispatch, request and cell agree. Whatever threads, timers and user code do, dispatch is begun
at most once for a request that user code leaves to a coordinator. What the request has recorded was
handed to it by its cell before, is the resolution of the cell, which is that of the one assignment
the cell accepted, and is never replaced. Dispatch begins after that, with what is recorded. Once no
call is about to begin it, and so when no call is in progress, it was begun exactly if a resolution
is recorded. -/
theorem Reachable.agreement (hs : Reachable (Move.LeavesBegin q) s) :
    (s.dispatches q).length ≤ 1 ∧
    (∀ r, (s.world.request q).resolution = some r →
      (∃ t k, ⟨t, k, .request q, r⟩ ∈ s.deliveries (s.world.request q).cell) ∧
      (s.world.cell (s.world.request q).cell).result = some r ∧
      (s.acceptances (s.world.request q).cell).map Acceptance.resolution = [r] ∧
      ∀ s', Leads Move.any s s' → (s'.world.request q).resolution = some r) ∧
    (∀ x ∈ s.ongoing, ∀ r, x.activation.control = .ready (.request q (.dispatch r)) →
      (s.world.request q).resolution = some r) ∧
    (∀ before e after r, s.history = before ++ e :: after → e.dispatch? q = some r →
      r ∈ before.filterMap (Event.record? q) ∧ (s.world.request q).resolution = some r) ∧
    ((∀ x ∈ s.ongoing, ∀ r, x.activation.control ≠ .ready (.request q (.dispatch r))) →
      s.dispatches q = (s.world.request q).resolution.toList) := by
  refine ⟨hs.length_dispatches_le_one, fun r hr => ⟨hs.exists_delivery hr, ?_, ?_, ?_⟩, ?_, ?_, ?_⟩
  · exact (hs.agrees q).resolution r hr
  · rw [hs.resolution_acceptances, (hs.agrees q).resolution r hr]
    rfl
  · intro s' hl
    have hlt : q < s.world.requestCount := by
      refine Nat.lt_of_not_le fun hle => ?_
      simp [hs.isBounded.world.unmade q hle] at hr
    exact (hl.grows.request q hlt).resolution r hr
  · intro ⟨t, k, ⟨control, frames⟩⟩ hx r hp
    obtain rfl : control = _ := hp
    exact (hs.recorded_of_dispatch hx).2.1
  · intro before e after r hh he
    obtain ⟨s₀, hs₀, hb, hlt, hgrows, -, t, k, frames, hx⟩ := hs.exists_of_dispatch hh he
    obtain ⟨hrecord, hresolution, -⟩ := hs₀.recorded_of_dispatch hx
    exact ⟨hb ▸ hrecord, (hgrows.request q hlt).resolution r hresolution⟩
  · intro hover
    cases hr : (s.world.request q).resolution with
    | none =>
      refine List.eq_nil_iff_forall_not_mem.mpr fun r hmem => ?_
      simp [hs.resolution_of_mem_dispatches hmem] at hr
    | some r =>
      have hmem : r ∈ s.dispatches q := (hs.dispatched_or_dispatching hr).resolve_right
        fun ⟨x, hx, hp⟩ => hover x hx r hp
      have hone := hs.length_dispatches_le_one
      obtain ⟨r', hd⟩ := List.length_eq_one_iff.mp
        (Nat.le_antisymm hone (List.length_pos_of_mem hmem))
      rw [hd] at hmem ⊢
      rw [List.mem_singleton.mp hmem]
      rfl

/-- A request that was abandoned while its resolution was on its way dispatches it, and a failure
escapes from dispatch. -/
def dispatchedLate : List Move :=
  abandonedMeanwhile ++ List.replicate 3 (.advance 1) ++
    .answer 1 (.error (.escaping "KeyboardInterrupt" "stop")) :: List.replicate 4 (.advance 1) ++
    [.finish 1]

theorem agreement_dispatchedLate : ∃ s, run { world := untimed } dispatchedLate = some s ∧
    Reachable (Move.LeavesBegin 0) s ∧ s.IsStarted 0 ∧
    s.dispatches 0 = [.value (.text "A")] ∧
    (s.world.cell 0).result = some (.value (.text "A")) ∧
    (s.acceptances 0).map Acceptance.resolution = [.value (.text "A")] ∧
    ∃ t k, ⟨t, k, .request 0, .value (.text "A")⟩ ∈ s.deliveries 0 := by
  obtain ⟨s, hs⟩ : ∃ s, run { world := untimed } dispatchedLate = some s := ⟨_, rfl⟩
  have hshown : (run { world := untimed } dispatchedLate).map (fun s =>
      (s.ongoing, (s.world.request 0).resolution, (s.world.request 0).cell)) =
        some ([], some (.value (.text "A")), 0) := rfl
  simp only [hs, Option.map_some, Option.some.injEq, Prod.mk.injEq] at hshown
  obtain ⟨hongoing, hresolution, hcell⟩ := hshown
  have hreach : Reachable (Move.LeavesBegin 0) s := ⟨untimed, isNew_untimed, leads_of_run
    (by simp [dispatchedLate, abandonedMeanwhile, starting, Move.LeavesBegin]) hs⟩
  obtain ⟨-, hrecorded, -, -, hover⟩ := hreach.agreement
  obtain ⟨hdelivered, hresult, haccepted, -⟩ := hrecorded _ hresolution
  rw [hcell] at hdelivered hresult haccepted
  refine ⟨s, hs, hreach, ?_, ?_, hresult, haccepted, hdelivered⟩
  · have hsplit : dispatchedLate = starting ++ dispatchedLate.drop starting.length := rfl
    exact isStarted_of_run_starting (hsplit ▸ hs)
  · rw [hover (by simp [hongoing]), hresolution]
    rfl

end System

end Rendezvous
