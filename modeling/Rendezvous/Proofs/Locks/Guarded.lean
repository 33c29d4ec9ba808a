import Rendezvous.Proofs.Threads.Nesting

/-!
# Locks

In a system a block under a lock is one step. A guarded system shows the locks: a thread takes the
lock of a block before the block, and gives it back when the call has gone past the block. Nobody
can take a lock that is held, not even the thread that holds it. Whatever a block calls, the
library or user code, runs under the lock of the block.

## Main definitions

* `Hold`: a lock that is held for a block of a call.
* `Guarded`, with `Guarded.Act`, `Guarded.take?`, `Guarded.run` and `Guarded.Reachable`.

## Main results

* `Guarded.Reachable.system`: what threads do under locks they can do without.
* `System.Reachable.guarded`: what threads do in systems they can do under locks, so nothing is lost
  by taking a block as one step.
-/

namespace Rendezvous

/-- A lock that is held for a block of a call. -/
structure Hold where
  lock : Lock
  thread : ThreadId
  /-- The call whose block it is. -/
  number : CallNumber
  /-- How many frames waited when the block began. -/
  depth : Nat
  /-- Whether the call has gone past the block. -/
  isOver : Bool := false

namespace Hold

/-- Whether a lock is held for the block in which a call is. -/
def guards (h : Hold) (x : Ongoing) : Bool :=
  h.number = x.number && h.depth = x.activation.frames.length

/-- A hold after a step of a thread. The block is over once no more frames wait than before it. -/
def settle (s : System) (t : ThreadId) (h : Hold) : Hold :=
  match innermost? t s.ongoing with
  | none => h
  | some (_, x, _) =>
    { h with
      isOver := h.isOver || (h.number = x.number && x.activation.frames.length ≤ h.depth) }

end Hold

/-- The thread that makes a move. -/
def Move.thread? : Move → Option ThreadId
  | .begin t _ | .fire t _ | .advance t | .answer t _ | .finish t => some t
  | .make .. => none

/-- A system with the locks that its calls hold. -/
structure Guarded where
  system : System
  holds : List Hold := []

namespace Guarded

/-- A move of a guarded system. -/
inductive Act where
  /-- A thread takes the lock of the block that comes next. -/
  | acquire (t : ThreadId)
  /-- A thread gives the lock of a block back. -/
  | release (t : ThreadId)
  | go (m : Move)

/-- The hold for the block in which a call is. -/
def block? (g : Guarded) (x : Ongoing) : Option Hold :=
  g.holds.find? (·.guards x)

/-- Whether nobody holds a lock. -/
def isFree (g : Guarded) (l : Lock) : Bool :=
  g.holds.all (·.lock ≠ l)

/-- Whether a call may go on: it has the lock of the block that comes next, if there is one, and no
lock of a block that is over. -/
def mayGo (g : Guarded) (x : Ongoing) : Bool :=
  match g.block? x with
  | none => x.activation.lock?.isNone
  | some h => !h.isOver

/-- Whether the thread of a move may go on. -/
def permits (g : Guarded) (m : Move) : Bool :=
  match m.thread?.bind (innermost? · g.system.ongoing) with
  | none => true
  | some (_, x, _) => g.mayGo x

/-- The holds after a move of the system. -/
def holdsAfter (g : Guarded) (s : System) : Move → List Hold
  | .advance t => g.holds.map (·.settle s t)
  | _ => g.holds

/-- What a move leads to, unless it cannot be made. -/
def take? (g : Guarded) : Act → Option Guarded
  | .acquire t => do
    let (_, x, _) ← innermost? t g.system.ongoing
    let l ← x.activation.lock?
    if (g.block? x).isNone ∧ g.isFree l then
      return { g with holds := ⟨l, t, x.number, x.activation.frames.length, false⟩ :: g.holds }
    else none
  | .release t => do
    let (_, x, _) ← innermost? t g.system.ongoing
    let h ← g.block? x
    if h.isOver then return { g with holds := g.holds.filter fun h => !h.guards x } else none
  | .go m =>
    if g.permits m then (g.system.take? m).map fun s => ⟨s, g.holdsAfter s m⟩ else none

/-- What a sequence of moves leads to. -/
def run (g : Guarded) : List Act → Option Guarded
  | [] => some g
  | a :: acts => (g.take? a).bind fun g => g.run acts

/-- A guarded system that moves lead to from a new world. -/
inductive Reachable : Guarded → Prop
  | new (w : World) (hw : w.IsNew) : Reachable { system := { world := w } }
  | move {g g' : Guarded} (a : Act) (hg : Reachable g) (ha : g.take? a = some g') : Reachable g'

variable {g g' : Guarded} {t : ThreadId} {m : Move}

theorem reachable_of_run {acts : List Act} (hg : g.Reachable) (h : g.run acts = some g') :
    g'.Reachable := by
  induction acts generalizing g with
  | nil =>
    cases h
    exact hg
  | cons a acts ih =>
    obtain ⟨g₁, ha, h⟩ := Option.bind_eq_some_iff.mp h
    exact ih (.move a hg ha) h

theorem mem_of_block? {x : Ongoing} {h : Hold} (hb : g.block? x = some h) :
    h ∈ g.holds ∧ h.guards x = true := by
  rw [block?] at hb
  exact ⟨List.mem_of_find?_eq_some hb, by simpa using List.find?_some hb⟩

/-! ### What the moves do -/

theorem exists_of_acquire (h : g.take? (.acquire t) = some g') :
    ∃ newer x older l, innermost? t g.system.ongoing = some (newer, x, older) ∧
      x.activation.lock? = some l ∧ g.block? x = none ∧ g.isFree l = true ∧
      g' = { g with holds := ⟨l, t, x.number, x.activation.frames.length, false⟩ :: g.holds } := by
  obtain ⟨⟨newer, x, older⟩, hi, h⟩ := Option.bind_eq_some_iff.mp h
  obtain ⟨l, hl, h⟩ := Option.bind_eq_some_iff.mp h
  obtain ⟨⟨hb, hf⟩, he⟩ := Option.ite_none_right_eq_some.mp h
  exact ⟨newer, x, older, l, hi, hl, Option.isNone_iff_eq_none.mp hb, hf,
    (Option.some.inj he).symm⟩

theorem exists_of_release (h : g.take? (.release t) = some g') :
    ∃ newer x older b, innermost? t g.system.ongoing = some (newer, x, older) ∧
      g.block? x = some b ∧ b.isOver = true ∧
      g' = { g with holds := g.holds.filter fun h => !h.guards x } := by
  obtain ⟨⟨newer, x, older⟩, hi, h⟩ := Option.bind_eq_some_iff.mp h
  obtain ⟨b, hb, h⟩ := Option.bind_eq_some_iff.mp h
  obtain ⟨ho, he⟩ := Option.ite_none_right_eq_some.mp h
  exact ⟨newer, x, older, b, hi, hb, ho, (Option.some.inj he).symm⟩

theorem take?_go_eq_some :
    g.take? (.go m) = some g' ↔
      g.permits m = true ∧ g.system.take? m = some g'.system ∧
        g'.holds = g.holdsAfter g'.system m := by
  simp only [take?, Option.ite_none_right_eq_some, Option.map_eq_some_iff]
  constructor
  · rintro ⟨hp, s, hs, rfl⟩
    exact ⟨hp, hs, rfl⟩
  · rintro ⟨hp, hs, hh⟩
    exact ⟨hp, g'.system, hs, by rw [← hh]⟩

/-! ### With locks and without -/

/-- What threads do under locks they can do without. -/
theorem Reachable.system (hg : g.Reachable) : g.system.Reachable Move.any := by
  induction hg with
  | new w hw => exact ⟨w, hw, .refl⟩
  | @move g g' a _ ha ih =>
    cases a with
    | acquire t =>
      obtain ⟨newer, x, older, l, -, -, -, -, rfl⟩ := exists_of_acquire ha
      exact ih
    | release t =>
      obtain ⟨newer, x, older, b, -, -, -, rfl⟩ := exists_of_release ha
      exact ih
    | go m => exact ih.leads (.move m .refl trivial (take?_go_eq_some.mp ha).2.1)

end Guarded

/-! ### Blocks -/

/-- A block under a lock calls nothing: the call goes on behind the block or ends. -/
theorem Point.frame?_of_lock? (w : World) {p : Point} {l : Lock} (h : p.lock? = some l) :
    (p.step w).next.frame? = none := by
  have hway := p.way_step w
  generalize (p.step w).next = n at hway
  cases hway <;>
    first
    | rfl
    | simp [lock?, CellPoint.isLocked, RequestPoint.isLocked, CoordinatorPoint.isLocked] at h

theorem Activation.frames_follow {frames : List Frame} {n : Next} (h : n.frame? = none) :
    (follow frames n).frames = frames := by
  cases n with
  | goto p => rfl
  | finish o => rfl
  | call f p => cases h
  | invoke f i => cases h

theorem Activation.isInside_follow {frames : List Frame} {n : Next} (h : n.frame? = none) :
    (follow frames n).isInside = false := by
  cases n with
  | goto p => rfl
  | finish o => rfl
  | call f p => cases h
  | invoke f i => cases h

/-- Only a call that is at a point comes to a block next. -/
theorem Activation.exists_of_lock? {a : Activation} {l : Lock} (h : a.lock? = some l) :
    ∃ p, a.control = .ready p ∧ p.lock? = some l := by
  unfold lock? at h
  split at h
  · rename_i p hp
    exact ⟨p, hp, h⟩
  · cases h

theorem Activation.lock?_of_isInside {a : Activation} (h : a.isInside = true) :
    a.lock? = none := by
  unfold isInside at h
  split at h
  · rename_i i hi
    rw [lock?, hi]
  · cases h

/-- A call that comes to a block next is not held up. -/
theorem Point.isEnabled_of_lock? {p : Point} {l : Lock} (w : World) (h : p.lock? = some l) :
    p.isEnabled w = true := by
  unfold isEnabled
  split
  · cases h
  · rfl

namespace System

variable {s s' : System} {m : Move} {allowed : Move → Prop}

/-- A move by a call that does not come to a block next. -/
private theorem guarded_of_lock?_eq_none (hs : Guarded.Reachable { system := s })
    (ht : s.take? m = some s')
    (h : ∀ t newer x older, m.thread? = some t →
      innermost? t s.ongoing = some (newer, x, older) → x.activation.lock? = none) :
    Guarded.Reachable { system := s' } := by
  refine .move (.go m) hs (Guarded.take?_go_eq_some.mpr ⟨?_, ht, ?_⟩)
  · unfold Guarded.permits
    split
    · rfl
    · rename_i newer x older hx
      obtain ⟨t, hm, hi⟩ := Option.bind_eq_some_iff.mp hx
      exact Option.isNone_iff_eq_none.mpr (h t newer x older hm hi)
  · cases m <;> rfl

/-- A block is entered by taking its lock and left by giving it back. -/
private theorem guarded_of_block (hs : Guarded.Reachable { system := s })
    {newer older : List Ongoing} {t : ThreadId} {k : CallNumber} {p : Point} {frames : List Frame}
    {l : Lock}
    (he : s.ongoing = newer ++ ⟨t, k, ⟨.ready p, frames⟩⟩ :: older)
    (hn : ∀ y ∈ newer, y.thread ≠ t) (hl : p.lock? = some l)
    (ht : s.take? (.advance t) = some (s.proceed newer ⟨t, k, ⟨.ready p, frames⟩⟩ older
      (p.step s.world).world (.follow frames (p.step s.world).next)
      (.step p (p.step s.world).next))) :
    Guarded.Reachable ⟨s.proceed newer ⟨t, k, ⟨.ready p, frames⟩⟩ older
      (p.step s.world).world (.follow frames (p.step s.world).next)
      (.step p (p.step s.world).next), []⟩ := by
  have hframes : (Activation.follow frames (p.step s.world).next).frames = frames :=
    Activation.frames_follow (p.frame?_of_lock? s.world hl)
  generalize hs' : s.proceed newer ⟨t, k, ⟨.ready p, frames⟩⟩ older (p.step s.world).world
    (.follow frames (p.step s.world).next) (.step p (p.step s.world).next) = s' at ht ⊢
  have hi : innermost? t s.ongoing = some (newer, ⟨t, k, ⟨.ready p, frames⟩⟩, older) :=
    he ▸ innermost?_append rfl hn
  have hi' : innermost? t s'.ongoing =
      some (newer, ⟨t, k, .follow frames (p.step s.world).next⟩, older) :=
    hs' ▸ innermost?_append rfl hn
  have hacquire : Guarded.take? { system := s } (.acquire t) =
      some ⟨s, [⟨l, t, k, frames.length, false⟩]⟩ := by
    simp [Guarded.take?, hi, Activation.lock?, hl, Guarded.block?, Guarded.isFree]
  have hgo : Guarded.take? ⟨s, [⟨l, t, k, frames.length, false⟩]⟩ (.go (.advance t)) =
      some ⟨s', [⟨l, t, k, frames.length, true⟩]⟩ := by
    refine Guarded.take?_go_eq_some.mpr ⟨?_, ht, ?_⟩
    · simp [Guarded.permits, Move.thread?, hi, Guarded.mayGo, Guarded.block?, Hold.guards]
    · simp [Guarded.holdsAfter, Hold.settle, hi', hframes]
  have hrelease : Guarded.take? ⟨s', [⟨l, t, k, frames.length, true⟩]⟩ (.release t) =
      some { system := s' } := by
    simp [Guarded.take?, hi', Guarded.block?, Hold.guards, hframes]
  exact .move _ (.move _ (.move _ hs hacquire) hgo) hrelease

private theorem guarded_of_take? (hs : Guarded.Reachable { system := s })
    (ht : s.take? m = some s') : Guarded.Reachable { system := s' } := by
  have hgo (h : ∀ t newer x older, m.thread? = some t →
      innermost? t s.ongoing = some (newer, x, older) → x.activation.lock? = none) :
      Guarded.Reachable { system := s' } := guarded_of_lock?_eq_none hs ht h
  have hmine {newer older : List Ongoing} {t : ThreadId} {k : CallNumber} {a : Activation}
      (he : s.ongoing = newer ++ ⟨t, k, a⟩ :: older) (hn : ∀ y ∈ newer, y.thread ≠ t)
      (hm : m.thread? = some t) (hl : a.lock? = none) : Guarded.Reachable { system := s' } := by
    refine hgo fun t' newer' x older' hm' hi => ?_
    obtain rfl : t = t' := Option.some.inj (hm.symm.trans hm')
    have hx : innermost? t s.ongoing = some (newer, ⟨t, k, a⟩, older) :=
      he ▸ innermost?_append rfl hn
    cases hx.symm.trans hi
    exact hl
  cases transition_of_take? ht with
  | begin t c hfree =>
    refine hgo fun t' newer x older hm hi => ?_
    obtain rfl : t = t' := Option.some.inj hm
    rw [isFree, hi] at hfree
    exact Activation.lock?_of_isInside hfree
  | fire t x hfree =>
    refine hgo fun t' newer y older hm hi => ?_
    obtain rfl : t = t' := Option.some.inj hm
    rw [innermost?_of_forall hfree] at hi
    cases hi
  | make =>
    refine hgo fun t newer x older hm _ => ?_
    cases hm
  | step newer older t k p frames he hn =>
    cases hl : p.lock? with
    | none => exact hmine he hn rfl hl
    | some l => exact guarded_of_block hs he hn hl ht
  | resume newer older t k o f frames he hn => exact hmine he hn rfl rfl
  | answer newer older t k i frames a he hn => exact hmine he hn rfl rfl
  | finish newer older t k o he hn => exact hmine he hn rfl rfl

/-- What threads do in systems they can do under locks, and then nobody holds a lock. -/
theorem Reachable.guarded (hs : Reachable allowed s) : Guarded.Reachable { system := s } := by
  obtain ⟨w, hw, h⟩ := hs
  induction h with
  | refl => exact .new w hw
  | move m _ _ ht ih => exact guarded_of_take? ih ht

end System

end Rendezvous
