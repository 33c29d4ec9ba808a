import Rendezvous.Proofs.Locks.Guarded
import Rendezvous.Proofs.Threads.Courses

/-!
# The lock discipline

A thread holds a lock only while its innermost call is at the block that the lock guards. Since a
block calls nothing, a thread that calls something holds no lock, a thread that comes to a block
holds none either, and the thread that holds a lock can always go on. So nobody waits for a lock
in vain.

## Main definitions

* `Guarded.IsDisciplined`: where the calls that hold locks are.
* `Guarded.Wants`, `Guarded.IsHeldUp`, `Guarded.CanMove`: what the innermost call of a thread can do
  next.
* `Deed.Opens`: a deed that calls the library or user code.

## Main results

* `Guarded.Reachable.isDisciplined`: every guarded system that is reached is disciplined.
* `Guarded.Reachable.no_deadlock`: locks are held across no call, one at a time, and cause no
  deadlock.
-/

namespace Rendezvous

/-- Whether a deed calls something, the library or user code. -/
def Deed.Opens : Deed → Prop
  | .step _ n | .resume _ _ n => n.frame?.isSome = true
  | _ => False

/-- Where a call is that holds a lock: at the block, or just past it. -/
structure Hold.IsHeldBy (h : Hold) (x : Ongoing) : Prop where
  thread : h.thread = x.thread
  guards : h.guards x = true
  atWork : x.activation.isInside = false
  lock : h.isOver = false → x.activation.lock? = some h.lock

@[simp] theorem Hold.settle_lock (s : System) (t : ThreadId) (h : Hold) :
    (h.settle s t).lock = h.lock := by
  unfold settle
  split <;> rfl

@[simp] theorem Hold.settle_thread (s : System) (t : ThreadId) (h : Hold) :
    (h.settle s t).thread = h.thread := by
  unfold settle
  split <;> rfl

/-- A block is over when its call has come to a place where as many frames wait as before. -/
theorem Hold.settle_of_guards {s : System} {t : ThreadId} {newer older : List Ongoing}
    {x : Ongoing} {h : Hold} (hi : innermost? t s.ongoing = some (newer, x, older))
    (hx : h.guards x = true) : h.settle s t = { h with isOver := true } := by
  obtain ⟨hnumber, hdepth⟩ := by simpa [guards] using hx
  simp [settle, hi, hnumber, hdepth]

theorem Hold.settle_of_ne {s : System} {t : ThreadId} {newer older : List Ongoing}
    {x : Ongoing} {h : Hold} (hi : innermost? t s.ongoing = some (newer, x, older))
    (hx : h.number ≠ x.number) : h.settle s t = h := by
  simp [settle, hi, hx]

theorem Hold.guards_iff {h : Hold} {x : Ongoing} :
    h.guards x = true ↔ h.number = x.number ∧ h.depth = x.activation.frames.length := by
  simp [guards]

namespace Guarded

/-- Where the calls that hold locks are; every lock is held once, and every thread holds one. -/
structure IsDisciplined (g : Guarded) : Prop where
  held : ∀ h ∈ g.holds, ∃ x ∈ g.system.ongoing, h.IsHeldBy x
  locks : (g.holds.map Hold.lock).Nodup
  threads : (g.holds.map Hold.thread).Nodup

/-- Whether a thread has come to a block whose lock it has not taken. -/
def Wants (g : Guarded) (t : ThreadId) (l : Lock) : Prop :=
  ∃ newer x older, innermost? t g.system.ongoing = some (newer, x, older) ∧
    x.activation.lock? = some l ∧ g.block? x = none

/-- Whether a wait holds a thread up. -/
def IsHeldUp (g : Guarded) (t : ThreadId) : Prop :=
  ∃ newer x older q, innermost? t g.system.ongoing = some (newer, x, older) ∧
    x.activation.control = .ready (.request q .await) ∧ ¬ g.system.IsReleased q

/-- Whether a thread can take a lock or give one back, or its innermost call can take a step, come
out of user code or end. -/
def CanMove (g : Guarded) (t : ThreadId) : Prop :=
  (g.take? (.acquire t)).isSome ∨ (g.take? (.release t)).isSome ∨
    (g.take? (.go (.advance t))).isSome ∨ (∀ a, (g.take? (.go (.answer t a))).isSome) ∨
    (g.take? (.go (.finish t))).isSome

variable {g g' : Guarded} {t : ThreadId} {m : Move} {newer older : List Ongoing} {x y : Ongoing}
  {h : Hold}

private theorem exists_innermost? {s : System} (hy : y ∈ s.ongoing) (ht : y.thread = t) :
    ∃ cut, innermost? t s.ongoing = some cut :=
  Option.ne_none_iff_exists'.mp fun hnone => innermost?_eq_none hnone y hy ht

/-- A call at work is the innermost call of its thread. -/
private theorem eq_of_atWork (hg : g.Reachable)
    (hi : innermost? t g.system.ongoing = some (newer, x, older)) (hy : y ∈ g.system.ongoing)
    (ht : y.thread = t) (hin : y.activation.isInside = false) : y = x := by
  have hnested := hg.system.isNested
  obtain ⟨he, hx, hn⟩ := innermost?_eq_some hi
  rw [System.IsNested, he, List.pairwise_append, List.pairwise_cons] at hnested
  rw [he, List.mem_append, List.mem_cons] at hy
  rcases hy with hy | hy | hy
  · exact absurd ht (hn y hy)
  · exact hy
  · simp [hnested.2.1.1 y hy (hx.trans ht.symm)] at hin

/-- A lock that is held for a block is held by the call that is in the block. -/
private theorem IsDisciplined.isHeldBy (hd : g.IsDisciplined) (hg : g.Reachable)
    (hx : x ∈ g.system.ongoing) (hh : h ∈ g.holds) (hgx : h.guards x = true) : h.IsHeldBy x := by
  obtain ⟨y, hy, hby⟩ := hd.held h hh
  have hnumber : y.number = x.number :=
    (Hold.guards_iff.mp hby.guards).1.symm.trans (Hold.guards_iff.mp hgx).1
  exact List.inj_on_of_nodup_map hg.system.isNumbered.nodup hy hx hnumber ▸ hby

/-- A lock of a thread is held for the block in which the innermost call of the thread is. -/
private theorem IsDisciplined.block?_eq (hd : g.IsDisciplined) (hg : g.Reachable)
    (hi : innermost? t g.system.ongoing = some (newer, x, older)) (hh : h ∈ g.holds)
    (ht : h.thread = t) : h.IsHeldBy x ∧ g.block? x = some h := by
  have hheld (h' : Hold) (hh' : h' ∈ g.holds) (ht' : h'.thread = t) : h'.IsHeldBy x := by
    obtain ⟨y, hy, hby⟩ := hd.held h' hh'
    exact eq_of_atWork hg hi hy (hby.thread.symm.trans ht') hby.atWork ▸ hby
  refine ⟨hheld h hh ht, ?_⟩
  cases hb : g.block? x with
  | none =>
    have hnone := List.find?_eq_none.mp hb h hh
    exact absurd (hheld h hh ht).guards hnone
  | some h' =>
    obtain ⟨hh', hgx⟩ := mem_of_block? hb
    obtain ⟨he, hx, -⟩ := innermost?_eq_some hi
    have hby : h'.IsHeldBy x := hd.isHeldBy hg (he ▸ by simp) hh' hgx
    have hthreads : h'.thread = h.thread := by rw [hby.thread, hx, ht]
    rw [List.inj_on_of_nodup_map hd.threads hh' hh hthreads]

/-! ### Every guarded system is disciplined -/

private theorem isDisciplined_acquire (hd : g.IsDisciplined) (hg : g.Reachable)
    (ha : g.take? (.acquire t) = some g') : g'.IsDisciplined := by
  obtain ⟨newer, x, older, l, hi, hl, hb, hfree, rfl⟩ := exists_of_acquire ha
  obtain ⟨he, hx, -⟩ := innermost?_eq_some hi
  refine ⟨List.forall_mem_cons.mpr ⟨⟨x, he ▸ by simp, ?_⟩, hd.held⟩, ?_, ?_⟩
  · refine ⟨hx.symm, Hold.guards_iff.mpr ⟨rfl, rfl⟩, ?_, fun _ => hl⟩
    obtain ⟨p, hp, -⟩ := Activation.exists_of_lock? hl
    simp [Activation.isInside, hp]
  · refine List.nodup_cons.mpr ⟨fun hmem => ?_, hd.locks⟩
    obtain ⟨h, hh, hlock⟩ := List.mem_map.mp hmem
    exact absurd hlock (by simpa using List.all_eq_true.mp hfree h hh)
  · refine List.nodup_cons.mpr ⟨fun hmem => ?_, hd.threads⟩
    obtain ⟨h, hh, hthread⟩ := List.mem_map.mp hmem
    simp [(hd.block?_eq hg hi hh hthread).2] at hb

private theorem isDisciplined_release (hd : g.IsDisciplined)
    (ha : g.take? (.release t) = some g') : g'.IsDisciplined := by
  obtain ⟨newer, x, older, b, -, -, -, rfl⟩ := exists_of_release ha
  have hsub : (g.holds.filter fun h => !h.guards x).Sublist g.holds := List.filter_sublist
  exact ⟨fun h hh => hd.held h (hsub.subset hh), hd.locks.sublist (hsub.map _),
    hd.threads.sublist (hsub.map _)⟩

/-- A call that holds a lock and may go on has not gone past its block. -/
private theorem IsDisciplined.lock?_eq (hd : g.IsDisciplined) (hg : g.Reachable)
    (hm : m.thread? = some t) (hp : g.permits m = true)
    (hi : innermost? t g.system.ongoing = some (newer, x, older)) (hh : h ∈ g.holds)
    (ht : h.thread = t) : x.activation.lock? = some h.lock := by
  obtain ⟨hby, hb⟩ := hd.block?_eq hg hi hh ht
  simp only [permits, hm, Option.bind_some, hi, mayGo, hb, Bool.not_eq_true'] at hp
  exact hby.lock hp

/-- If the calls that hold locks go on holding them, the discipline is kept. -/
private theorem isDisciplined_of_map (hd : g.IsDisciplined) (f : Hold → Hold)
    (hholds : g'.holds = g.holds.map f) (hlock : ∀ h, (f h).lock = h.lock)
    (hthread : ∀ h, (f h).thread = h.thread)
    (hheld : ∀ h ∈ g.holds, ∀ y ∈ g.system.ongoing, h.IsHeldBy y →
      ∃ y' ∈ g'.system.ongoing, (f h).IsHeldBy y') : g'.IsDisciplined := by
  refine ⟨fun h' hh' => ?_, ?_, ?_⟩
  · obtain ⟨h, hh, rfl⟩ := List.mem_map.mp (hholds ▸ hh')
    obtain ⟨y, hy, hby⟩ := hd.held h hh
    exact hheld h hh y hy hby
  · simpa [hholds, Function.comp_def, hlock] using hd.locks
  · simpa [hholds, Function.comp_def, hthread] using hd.threads

/-- What a step of the innermost call of a thread makes of the holds: those of other calls stay as
they are, and a block in which the call was is over. -/
private theorem isHeldBy_settle {s : System} {k : CallNumber} {a a' : Activation}
    (hs : s.ongoing = newer ++ ⟨t, k, a'⟩ :: older) (hn : ∀ y ∈ newer, y.thread ≠ t)
    (hy : y ∈ newer ++ ⟨t, k, a⟩ :: older)
    (hmine : y.number = k → y = ⟨t, k, a⟩)
    (hstep : y = ⟨t, k, a⟩ → a'.frames = a.frames ∧ a'.isInside = false)
    (hby : h.IsHeldBy y) : ∃ y' ∈ s.ongoing, (h.settle s t).IsHeldBy y' := by
  have hi : innermost? t s.ongoing = some (newer, ⟨t, k, a'⟩, older) :=
    hs ▸ innermost?_append rfl hn
  obtain ⟨hnumber, hdepth⟩ := Hold.guards_iff.mp hby.guards
  by_cases hyx : y = ⟨t, k, a⟩
  · subst hyx
    obtain ⟨hframes, hin⟩ := hstep rfl
    refine ⟨⟨t, k, a'⟩, hs ▸ by simp, ?_⟩
    have hguards : h.guards ⟨t, k, a'⟩ = true :=
      Hold.guards_iff.mpr ⟨hnumber, hdepth.trans (congrArg List.length hframes.symm)⟩
    rw [Hold.settle_of_guards hi hguards]
    exact ⟨hby.thread, hguards, hin, fun hfalse => nomatch hfalse⟩
  · have hne : h.number ≠ k := fun he => hyx (hmine (hnumber.symm.trans he))
    refine ⟨y, ?_, by rwa [Hold.settle_of_ne hi hne]⟩
    rw [hs]
    simp only [List.mem_append, List.mem_cons] at hy ⊢
    exact hy.imp_right fun hy => .inr (hy.resolve_left hyx)

private theorem isDisciplined_go (hd : g.IsDisciplined) (hg : g.Reachable)
    (ha : g.take? (.go m) = some g') : g'.IsDisciplined := by
  obtain ⟨hp, ht, hholds⟩ := take?_go_eq_some.mp ha
  obtain ⟨s', holds'⟩ := g'
  have hnumbers := hg.system.isNumbered.nodup
  -- A call that holds a lock and makes a move is at the block.
  have hlock {newer older : List Ongoing} {t : ThreadId} {k : CallNumber} {a : Activation}
      (he : g.system.ongoing = newer ++ ⟨t, k, a⟩ :: older) (hn : ∀ y ∈ newer, y.thread ≠ t)
      (hm : m.thread? = some t) {h : Hold} (hh : h ∈ g.holds) (hby : h.IsHeldBy ⟨t, k, a⟩) :
      a.lock? = some h.lock :=
    hd.lock?_eq hg hm hp (he ▸ innermost?_append rfl hn) hh hby.thread
  have hstay (heq : holds' = g.holds)
      (hsub : ∀ h ∈ g.holds, ∀ y ∈ g.system.ongoing, h.IsHeldBy y → y ∈ s'.ongoing) :
      IsDisciplined ⟨s', holds'⟩ :=
    isDisciplined_of_map hd id (by simp [heq]) (fun _ => rfl) (fun _ => rfl)
      fun h hh y hy hby => ⟨y, hsub h hh y hy hby, hby⟩
  cases System.transition_of_take? ht with
  | begin t c => exact hstay hholds fun h hh y hy hby => List.mem_cons_of_mem _ hy
  | fire t x => exact hstay hholds fun h hh y hy hby => List.mem_cons_of_mem _ hy
  | make => exact hstay hholds fun h hh y hy hby => hy
  | answer newer older t k i frames a he hn =>
    refine hstay hholds fun h hh y hy hby => ?_
    have hne : y ≠ ⟨t, k, ⟨.inside i, frames⟩⟩ := by
      rintro rfl
      exact nomatch hby.atWork
    rw [he] at hy
    simp only [List.mem_append, List.mem_cons] at hy ⊢
    exact hy.imp_right fun hy => .inr (hy.resolve_left hne)
  | finish newer older t k o he hn =>
    refine hstay hholds fun h hh y hy hby => ?_
    have hne : y ≠ ⟨t, k, ⟨.ended o, []⟩⟩ := by
      rintro rfl
      exact nomatch hlock he hn rfl hh hby
    rw [he] at hy
    simp only [List.mem_append, List.mem_cons] at hy ⊢
    exact hy.imp_right fun hy => hy.resolve_left hne
  | step newer older t k p frames he hn =>
    refine isDisciplined_of_map hd (·.settle _ t) hholds (Hold.settle_lock _ t)
      (Hold.settle_thread _ t) fun h hh y hy hby => ?_
    refine isHeldBy_settle rfl hn (he ▸ hy) ?_ ?_ hby
    · exact fun hk => List.inj_on_of_nodup_map hnumbers hy (he ▸ by simp) hk
    · rintro rfl
      have hnone := p.frame?_of_lock? g.system.world (hlock he hn rfl hh hby)
      exact ⟨Activation.frames_follow hnone, Activation.isInside_follow hnone⟩
  | resume newer older t k o f frames he hn =>
    refine isDisciplined_of_map hd (·.settle _ t) hholds (Hold.settle_lock _ t)
      (Hold.settle_thread _ t) fun h hh y hy hby => ?_
    refine isHeldBy_settle rfl hn (he ▸ hy) ?_ ?_ hby
    · exact fun hk => List.inj_on_of_nodup_map hnumbers hy (he ▸ by simp) hk
    · rintro rfl
      exact nomatch hlock he hn rfl hh hby

/-- Every guarded system that is reached is disciplined. -/
theorem Reachable.isDisciplined (hg : g.Reachable) : g.IsDisciplined := by
  induction hg with
  | new w hw => exact ⟨List.forall_mem_nil _, List.nodup_nil, List.nodup_nil⟩
  | move a hg ha ih =>
    cases a with
    | acquire t => exact isDisciplined_acquire ih hg ha
    | release t => exact isDisciplined_release ih ha
    | go m => exact isDisciplined_go ih hg ha

/-! ### Calls under locks -/

/-- A thread in user code holds no lock. -/
private theorem thread_ne_of_isInside (hg : g.Reachable)
    (hi : innermost? t g.system.ongoing = some (newer, x, older))
    (hin : x.activation.isInside = true) : ∀ h ∈ g.holds, h.thread ≠ t := by
  intro h hh ht
  obtain ⟨hby, -⟩ := hg.isDisciplined.block?_eq hg hi hh ht
  simp [hby.atWork] at hin

/-- A call that calls something next does not come to a block next. -/
private theorem exists_of_opens {s s' : System} (ht : System.Transition s m s') {n : CallNumber}
    {d : Deed} (hh : s'.history = s.history ++ [⟨t, n, d⟩]) (hd : d.Opens) :
    m.thread? = some t ∧ ∃ newer x older, innermost? t s.ongoing = some (newer, x, older) ∧
      x.activation.lock? = none := by
  cases ht with
  | step newer older t k p frames he hn =>
    cases List.append_cancel_left hh
    refine ⟨rfl, newer, _, older, he ▸ innermost?_append rfl hn, ?_⟩
    cases hl : p.lock? with
    | none => exact hl
    | some l => simp [Deed.Opens, p.frame?_of_lock? s.world hl] at hd
  | resume newer older t k o f frames he hn =>
    cases List.append_cancel_left hh
    exact ⟨rfl, newer, _, older, he ▸ innermost?_append rfl hn, rfl⟩
  | make => simp [System.addRequest] at hh
  | _ =>
    cases List.append_cancel_left hh
    exact hd.elim

/-- A thread that calls something holds no lock. -/
private theorem thread_ne_of_opens (hg : g.Reachable) (ha : g.take? (.go m) = some g')
    {n : CallNumber} {d : Deed}
    (hh : g'.system.history = g.system.history ++ [⟨t, n, d⟩]) (hd : d.Opens) :
    ∀ h ∈ g.holds, h.thread ≠ t := by
  intro h hmem hthread
  obtain ⟨hp, ht, -⟩ := take?_go_eq_some.mp ha
  obtain ⟨hm, newer, x, older, hi, hnone⟩ := exists_of_opens (System.transition_of_take? ht) hh hd
  have hl : x.activation.lock? = some h.lock :=
    hg.isDisciplined.lock?_eq hg hm hp hi hmem hthread
  simp [hnone] at hl

/-- A thread that comes to a block holds no lock. -/
private theorem thread_ne_of_wants (hg : g.Reachable) {l : Lock} (hw : g.Wants t l) :
    ∀ h ∈ g.holds, h.thread ≠ t := by
  intro h hh ht
  obtain ⟨newer, x, older, hi, -, hb⟩ := hw
  simp [(hg.isDisciplined.block?_eq hg hi hh ht).2] at hb

/-! ### Giving locks back -/

/-- A lock of a block that is over is given back. -/
private theorem exists_release (hg : g.Reachable) (hh : h ∈ g.holds) (ho : h.isOver = true) :
    ∃ g', g.take? (.release h.thread) = some g' ∧ g'.isFree h.lock = true := by
  obtain ⟨y, hy, hby⟩ := hg.isDisciplined.held h hh
  obtain ⟨⟨newer, x, older⟩, hi⟩ := exists_innermost? hy hby.thread.symm
  obtain ⟨hbx, hb⟩ := hg.isDisciplined.block?_eq hg hi hh rfl
  refine ⟨{ g with holds := g.holds.filter fun h => !h.guards x }, by simp [take?, hi, hb, ho], ?_⟩
  refine List.all_eq_true.mpr fun h' hh' => ?_
  obtain ⟨hmem, hout⟩ := List.mem_filter.mp hh'
  have hne : h'.lock ≠ h.lock := by
    intro hlock
    have hsame : h' = h := List.inj_on_of_nodup_map hg.isDisciplined.locks hmem hh hlock
    simp [hsame, hbx.guards] at hout
  simpa using hne

/-- A step of a thread in a block ends the block. -/
private theorem exists_advance (hg : g.Reachable) (hh : h ∈ g.holds) (ho : h.isOver = false) :
    ∃ g', g.take? (.go (.advance h.thread)) = some g' ∧
      { h with isOver := true } ∈ g'.holds := by
  obtain ⟨⟨t, k, ⟨control, frames⟩⟩, hy, hby⟩ := hg.isDisciplined.held h hh
  obtain ⟨p, hp, hl⟩ := Activation.exists_of_lock? (hby.lock ho)
  cases hp
  have ht : h.thread = t := hby.thread
  obtain ⟨hnumber, hdepth⟩ := Hold.guards_iff.mp hby.guards
  obtain ⟨newer, older, he, hadvance⟩ :=
    hg.system.take?_advance hy (p.isEnabled_of_lock? g.system.world hl)
  have hn : ∀ y ∈ newer, y.thread ≠ t := hg.system.isNested.thread_ne he rfl
  have hi : innermost? t g.system.ongoing = some (newer, ⟨t, k, ⟨.ready p, frames⟩⟩, older) :=
    he ▸ innermost?_append rfl hn
  have hb := (hg.isDisciplined.block?_eq hg hi hh ht).2
  have hpermits : g.permits (.advance t) = true := by
    simp [permits, Move.thread?, hi, mayGo, hb, ho]
  refine ⟨⟨_, g.holdsAfter _ (.advance t)⟩,
    ht ▸ take?_go_eq_some.mpr ⟨hpermits, hadvance, rfl⟩, List.mem_map.mpr ⟨h, hh, ?_⟩⟩
  have hframes : (Activation.follow frames (p.step g.system.world).next).frames = frames :=
    Activation.frames_follow (p.frame?_of_lock? g.system.world hl)
  exact Hold.settle_of_guards (innermost?_append rfl hn)
    (Hold.guards_iff.mpr ⟨hnumber, hdepth.trans (congrArg List.length hframes.symm)⟩)

/-- Whoever holds a lock can give it back in two moves. -/
theorem Reachable.exists_run_isFree (hg : g.Reachable) (hh : h ∈ g.holds) :
    ∃ acts g', acts <:+ [.go (.advance h.thread), .release h.thread] ∧ g.run acts = some g' ∧
      g'.isFree h.lock = true := by
  cases ho : h.isOver with
  | true =>
    obtain ⟨g', ha, hfree⟩ := exists_release hg hh ho
    exact ⟨[.release h.thread], g', List.suffix_cons _ _, by simp [run, ha], hfree⟩
  | false =>
    obtain ⟨g₁, ha₁, hh₁⟩ := exists_advance hg hh ho
    obtain ⟨g', ha, hfree⟩ := exists_release (.move _ hg ha₁) hh₁ rfl
    refine ⟨[.go (.advance h.thread), .release h.thread], g', List.suffix_refl _, ?_, hfree⟩
    simp only [run, ha₁, Option.bind_some]
    rw [ha, Option.bind_some]

/-! ### Progress -/

private theorem canMove_of_advance (hi : innermost? t g.system.ongoing = some (newer, x, older))
    (hgo : g.mayGo x = true) (hstep : (x.activation.step? g.system.world).isSome = true)
    (hdeed : (x.activation.deed? g.system.world).isSome = true) : g.CanMove t := by
  obtain ⟨⟨w, a, notices⟩, hw⟩ := Option.isSome_iff_exists.mp hstep
  obtain ⟨d, hd⟩ := Option.isSome_iff_exists.mp hdeed
  refine .inr (.inr (.inl ?_))
  simp [take?, permits, Move.thread?, hi, hgo, System.take?, hw, hd]

/-- A thread in a block can go on. -/
private theorem canMove_of_block? (hg : g.Reachable)
    (hi : innermost? t g.system.ongoing = some (newer, x, older)) (hh : h ∈ g.holds)
    (ht : h.thread = t) : g.CanMove t := by
  obtain ⟨hby, hb⟩ := hg.isDisciplined.block?_eq hg hi hh ht
  by_cases ho : h.isOver = true
  · exact .inr (.inl (by simp [take?, hi, hb, ho]))
  · have hl : x.activation.lock? = some h.lock := hby.lock (Bool.not_eq_true _ ▸ ho)
    obtain ⟨p, hp, hlp⟩ := Activation.exists_of_lock? hl
    refine canMove_of_advance hi (by simp [mayGo, hb, ho]) ?_ ?_
    · simp [Activation.step?, hp, p.isEnabled_of_lock? _ hlp]
    · simp [Activation.deed?, hp]

/-- A thread outside blocks can go on, unless a wait holds it up. -/
private theorem canMove_or_isHeldUp
    (hi : innermost? t g.system.ongoing = some (newer, x, older)) (hb : g.block? x = none)
    (hl : x.activation.lock? = none) : g.CanMove t ∨ g.IsHeldUp t := by
  have hgo : g.mayGo x = true := by simp [mayGo, hb, hl]
  rcases hx : x.activation with ⟨p | i | o, frames⟩
  · by_cases hp : p.isEnabled g.system.world = true
    · refine .inl (canMove_of_advance hi hgo ?_ ?_)
      · simp [Activation.step?, hx, hp]
      · simp [Activation.deed?, hx]
    · right
      unfold Point.isEnabled at hp
      split at hp
      · rename_i q
        exact ⟨newer, x, older, q, hi, by rw [hx], hp⟩
      · exact absurd rfl hp
  · refine .inl (.inr (.inr (.inr (.inl fun a => ?_))))
    simp [take?, permits, Move.thread?, hi, hgo, System.take?, hx]
  · cases frames with
    | nil =>
      refine .inl (.inr (.inr (.inr (.inr ?_))))
      simp [take?, permits, Move.thread?, hi, hgo, System.take?, hx, Activation.outcome?]
    | cons f frames =>
      refine .inl (canMove_of_advance hi hgo ?_ ?_)
      · simp [Activation.step?, hx]
      · simp [Activation.deed?, hx]

/-- A thread with a call in progress can go on, or a wait holds it up, or another thread that can
go on holds the lock that it comes to. -/
private theorem canMove_cases (hg : g.Reachable)
    (hi : innermost? t g.system.ongoing = some (newer, x, older)) :
    g.CanMove t ∨ g.IsHeldUp t ∨ ∃ l, g.Wants t l ∧
      ∃ h ∈ g.holds, h.lock = l ∧ h.thread ≠ t ∧ g.CanMove h.thread := by
  cases hb : g.block? x with
  | some h =>
    obtain ⟨hh, hgx⟩ := mem_of_block? hb
    obtain ⟨he, hx, -⟩ := innermost?_eq_some hi
    have hby : h.IsHeldBy x := hg.isDisciplined.isHeldBy hg (he ▸ by simp) hh hgx
    exact .inl (canMove_of_block? hg hi hh (hby.thread.trans hx))
  | none =>
    cases hl : x.activation.lock? with
    | none => exact (canMove_or_isHeldUp hi hb hl).imp_right .inl
    | some l =>
      have hw : g.Wants t l := ⟨newer, x, older, hi, hl, hb⟩
      by_cases hfree : g.isFree l = true
      · exact .inl (.inl (by simp [take?, hi, hl, hb, hfree]))
      · obtain ⟨h, hh, hlock⟩ : ∃ h ∈ g.holds, h.lock = l := by
          simpa [isFree] using hfree
        refine .inr (.inr ⟨l, hw, h, hh, hlock, thread_ne_of_wants hg hw h hh, ?_⟩)
        obtain ⟨y, hy, hby⟩ := hg.isDisciplined.held h hh
        obtain ⟨cut, hcut⟩ := exists_innermost? hy hby.thread.symm
        exact canMove_of_block? hg hcut hh rfl

private theorem thread_ne_holdsAfter (hh : ∀ h ∈ g.holds, h.thread ≠ t) (s : System) (m : Move) :
    ∀ h ∈ g.holdsAfter s m, h.thread ≠ t := by
  unfold holdsAfter
  split
  · exact List.forall_mem_map.mpr fun h hm => (Hold.settle_thread s _ h).symm ▸ hh h hm
  · exact hh

/-- Locks are held across no call, one at a time, and nobody waits for one in vain. A thread that
calls the library or user code holds no lock, before the call and as long as it is in user code
that has called nothing. A thread that takes a lock, or comes to a block whose lock it has yet to
take, holds no lock. A thread that holds a lock can give it back in two moves. A thread with a call
in progress can go on unless a wait holds it up or another thread, which can go on, holds the lock
that it comes to. So some thread can go on unless waits hold up all that have calls in progress. -/
theorem Reachable.no_deadlock (hg : g.Reachable) :
    (∀ t n d m g', g.take? (.go m) = some g' →
      g'.system.history = g.system.history ++ [⟨t, n, d⟩] → d.Opens →
      (∀ h ∈ g.holds, h.thread ≠ t) ∧ ∀ h ∈ g'.holds, h.thread ≠ t) ∧
    (∀ t newer x older, innermost? t g.system.ongoing = some (newer, x, older) →
      x.activation.isInside = true → ∀ h ∈ g.holds, h.thread ≠ t) ∧
    (∀ t g', g.take? (.acquire t) = some g' → ∀ h ∈ g.holds, h.thread ≠ t) ∧
    (∀ t l, g.Wants t l → ∀ h ∈ g.holds, h.thread ≠ t) ∧
    (∀ h ∈ g.holds, ∃ acts g', acts <:+ [.go (.advance h.thread), .release h.thread] ∧
      g.run acts = some g' ∧ g'.isFree h.lock = true) ∧
    (∀ x ∈ g.system.ongoing, g.CanMove x.thread ∨ g.IsHeldUp x.thread ∨
      ∃ l, g.Wants x.thread l ∧
        ∃ h ∈ g.holds, h.lock = l ∧ h.thread ≠ x.thread ∧ g.CanMove h.thread) ∧
    ((∃ x ∈ g.system.ongoing, ¬ g.IsHeldUp x.thread) → ∃ t, g.CanMove t) := by
  have hcases (x : Ongoing) (hx : x ∈ g.system.ongoing) : g.CanMove x.thread ∨
      g.IsHeldUp x.thread ∨ ∃ l, g.Wants x.thread l ∧
        ∃ h ∈ g.holds, h.lock = l ∧ h.thread ≠ x.thread ∧ g.CanMove h.thread := by
    obtain ⟨cut, hi⟩ := exists_innermost? hx rfl
    exact canMove_cases hg hi
  refine ⟨?_, ?_, ?_, ?_, fun h hh => hg.exists_run_isFree hh, hcases, ?_⟩
  · intro t n d m g' ha hh hd
    have hnone := thread_ne_of_opens hg ha hh hd
    refine ⟨hnone, ?_⟩
    rw [(take?_go_eq_some.mp ha).2.2]
    exact thread_ne_holdsAfter hnone _ _
  · exact fun t newer x older hi hin => thread_ne_of_isInside hg hi hin
  · intro t g' ha
    obtain ⟨newer, x, older, l, hi, hl, hb, -, -⟩ := exists_of_acquire ha
    exact thread_ne_of_wants hg ⟨newer, x, older, hi, hl, hb⟩
  · exact fun t l hw => thread_ne_of_wants hg hw
  · rintro ⟨x, hx, hup⟩
    rcases hcases x hx with h | h | ⟨l, -, h, -, -, -, hmove⟩
    · exact ⟨_, h⟩
    · exact absurd h hup
    · exact ⟨_, hmove⟩

/-- Two threads come to the assignment of a result, and one of them has taken the lock. -/
def contended : List Act :=
  [.go (.begin 0 (.setResult 0 (.text "A"))), .go (.advance 0), .go (.advance 0),
    .go (.begin 1 (.setResult 0 (.text "B"))), .go (.advance 1), .go (.advance 1), .acquire 0]

theorem no_deadlock_contended :
    ∃ g, run { system := { world := default } } contended = some g ∧
      g.take? (.acquire 1) = none ∧ g.Wants 1 (.cell 0) ∧
      (∀ h ∈ g.holds, h.thread ≠ 1) ∧ (∃ t, g.CanMove t) ∧
      ∃ acts g', acts <:+ [.go (.advance 0), .release 0] ∧ g.run acts = some g' ∧
        g'.isFree (.cell 0) = true := by
  obtain ⟨g, hg⟩ : ∃ g, run { system := { world := default } } contended = some g := ⟨_, rfl⟩
  have hreach : g.Reachable := reachable_of_run (.new default World.isNew_default) hg
  have hholds : (run { system := { world := default } } contended).map Guarded.holds =
      some [⟨.cell 0, 0, 0, 0, false⟩] := rfl
  have hrefused : (run { system := { world := default } } contended).bind
      (fun g => g.take? (.acquire 1)) = none := rfl
  have hplace : (run { system := { world := default } } contended).bind
      (fun g => (innermost? 1 g.system.ongoing).map fun cut =>
        (cut.2.1, cut.2.1.activation.lock?, (g.block? cut.2.1).isNone)) =
      some (⟨1, 1, ⟨.ready (.cell 0 (.assign (.value (.text "B")))), []⟩⟩,
        some (.cell 0), true) := rfl
  simp only [hg, Option.map_some, Option.bind_some, Option.some.injEq] at hholds hrefused hplace
  obtain ⟨⟨newer, x, older⟩, hi, hx⟩ := Option.map_eq_some_iff.mp hplace
  simp only [Prod.mk.injEq, Option.isNone_iff_eq_none] at hx
  have hwants : g.Wants 1 (.cell 0) := ⟨newer, x, older, hi, hx.2.1, hx.2.2⟩
  have hup : ¬ g.IsHeldUp 1 := by
    rintro ⟨newer', x', older', q, hi', hawait, -⟩
    cases hi.symm.trans hi'
    simp [hx.1] at hawait
  have hmem : x ∈ g.system.ongoing := (innermost?_eq_some hi).1 ▸ by simp
  obtain ⟨-, -, -, hnone, hback, -, hsome⟩ := hreach.no_deadlock
  exact ⟨g, hg, hrefused, hwants, hnone 1 _ hwants, hsome ⟨x, hmem, by simpa [hx.1] using hup⟩,
    hback ⟨.cell 0, 0, 0, 0, false⟩ (hholds ▸ List.mem_singleton_self _)⟩

end Guarded

end Rendezvous
