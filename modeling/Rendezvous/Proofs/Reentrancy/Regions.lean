import Rendezvous.Proofs.Threads.Growth

/-!
# Regions of cells

A region is a set of cells, with the requests on them. A request belongs to a region if its cell and
all cells whose hooks accompany it do. Code that works in a region hands control over to code of the
region only, as long as the handlers of the region are its own, and leaves everything outside as it
is: the other cells and requests, and the entries of other cells among the requests in flight. User
code is not part of a region; what it calls is.

## Main definitions

* `World.Owns`: the requests of a region. `World.IsClosed`: regions whose handlers are their own.
* `Call.IsIn`, `Point.IsIn`, `Frame.IsIn`, `Activation.IsIn`: code that works in a region.
* `World.Spares`: a world that agrees with another one outside of a region.

## Main results

* `Activation.IsIn.step`, `Activation.IsIn.resume`: code of a region stays in it.
* `World.IsClosed.step`: the handlers of a region stay its own.
* `Point.IsIn.spares`: a step of code of a region leaves everything outside as it is.
-/

namespace Rendezvous

variable (S : CellId → Prop)

/-- The requests of a region. -/
structure World.Owns (w : World) (q : RequestId) : Prop where
  made : q < w.requestCount
  cell : S (w.request q).cell
  hooks (c : CellId) (h : .hooks c ∈ (w.request q).interceptors) : S c

/-- Whether the hooks of cells in a list of interceptors are those of a region. -/
def AreIn (l : List Interceptor) : Prop :=
  ∀ c, .hooks c ∈ l → S c

/-- Whether a point is one of the code of a region. -/
def Point.IsIn (w : World) : Point → Prop
  | .cell c (.checkRegister (.request q)) | .cell c (.register (.request q))
  | .cell c (.deliver (.request q) _ _) => S c ∧ w.Owns S q
  | .cell c _ => S c
  | .request q (.timeoutHooks rest) | .request q (.errorHooks _ rest)
  | .request q (.completionHooks rest) => w.Owns S q ∧ AreIn S rest
  | .request q _ => w.Owns S q
  | .coordinator _ (.checkStart c _ extra) | .coordinator _ (.draw c _ extra) =>
    S c ∧ AreIn S extra
  | .coordinator _ (.activate q) | .coordinator _ (.noteStart q) | .coordinator _ (.retire q) =>
    w.Owns S q
  | .coordinator k .abandonAll => ∀ q ∈ (w.coordinator k).active.values, w.Owns S q
  | .coordinator _ (.abandonEach _ rest) => ∀ q ∈ rest, w.Owns S q
  | .coordinator _ .countActive => True

/-- Whether a frame is one of the code of a region. -/
def Frame.IsIn (w : World) : Frame → Prop
  | .cell c _ => S c
  | .request q (.timeoutHook rest) | .request q (.errorHook _ rest)
  | .request q (.completionHook rest) => w.Owns S q ∧ AreIn S rest
  | .request q _ => w.Owns S q
  | .abandoning _ _ rest => ∀ q ∈ rest, w.Owns S q
  | .answer _ | .outcome _ => True

/-- Whether execution goes on in the code of a region. -/
def Next.IsIn (w : World) : Next → Prop
  | .goto p => p.IsIn S w
  | .call f p => f.IsIn S w ∧ p.IsIn S w
  | .invoke f _ => f.IsIn S w
  | .finish _ => True

/-- Whether a call is one on a region. -/
def Call.IsIn (w : World) : Call → Prop
  | .setResult c _ | .setError c _ | .setHandler c _ | .setCallback c _ _ | .ask c _
  | .handleTimeout c | .handleError c _ | .afterCompletion c => S c
  | .start _ c _ extra => S c ∧ AreIn S extra
  | .abandonAll k => ∀ q ∈ (w.coordinator k).active.values, w.Owns S q
  | .countActive _ => True
  | .begin q | .timeOut q | .fail q _ | .abandon q | .wait q => w.Owns S q

/-- Whether a call in progress works in a region. -/
structure Activation.IsIn (w : World) (a : Activation) : Prop where
  point (p : Point) (hp : a.control = .ready p) : p.IsIn S w
  frame (f : Frame) (hf : f ∈ a.frames) : f.IsIn S w

/-- Whether the requests that are registered in the cells of a region are its own. -/
def World.IsClosed (w : World) : Prop :=
  ∀ c q, S c → (w.cell c).handler = some (.request q) → w.Owns S q

/-- Whether the regions without a cell whose handlers are their own can grow into such regions. -/
def World.Shields (c : CellId) (w w' : World) : Prop :=
  ∀ S : CellId → Prop, ¬ S c → w.IsClosed S →
    ∃ T : CellId → Prop, (∀ d, S d → T d) ∧ ¬ T c ∧ w'.IsClosed T

/-- Whether a world is another one but for a region, and for what was made meanwhile. -/
structure World.Spares (w w' : World) : Prop where
  cell (c : CellId) (h : ¬ S c) : w'.cell c = w.cell c
  request (q : RequestId) (hq : q < w.requestCount) (h : ¬ S (w.request q).cell) :
    w'.request q = w.request q
  active (k : CoordinatorId) (c : CellId) (h : ¬ S c) :
    (w'.coordinator k).active.find? c = (w.coordinator k).active.find? c

variable {S} {T : CellId → Prop} {w w' w'' : World} {p : Point} {f : Frame} {frames : List Frame}
  {o : Outcome} {q : RequestId} {a : Activation}

/-! ### Growing worlds -/

theorem World.Owns.grow (h : w.Owns S q) (hw : w.Grows w') : w'.Owns S q := by
  have hfixed := (hw.request q h.made).fixed
  refine ⟨Nat.lt_of_lt_of_le h.made hw.requestCount, ?_, fun c hc => h.hooks c ?_⟩
  · rw [Request.cell_eq_of_fixed hfixed]
    exact h.cell
  · rwa [← Request.interceptors_eq_of_fixed hfixed]

theorem Frame.IsIn.grow (h : f.IsIn S w) (hw : w.Grows w') : f.IsIn S w' := by
  unfold Frame.IsIn at h ⊢
  split at h
  · exact h
  · exact ⟨h.1.grow hw, h.2⟩
  · exact ⟨h.1.grow hw, h.2⟩
  · exact ⟨h.1.grow hw, h.2⟩
  · exact h.grow hw
  · exact fun q hq => (h q hq).grow hw
  · trivial
  · trivial

/-! ### Growing regions -/

theorem World.Owns.mono (h : w.Owns S q) (hST : ∀ d, S d → T d) : w.Owns T q :=
  ⟨h.made, hST _ h.cell, fun d hd => hST d (h.hooks d hd)⟩

theorem Point.IsIn.mono (h : p.IsIn S w) (hST : ∀ d, S d → T d) : p.IsIn T w := by
  unfold Point.IsIn at h ⊢
  split at h <;> first
    | exact ⟨hST _ h.1, h.2.mono hST⟩
    | exact ⟨h.1.mono hST, fun d hd => hST d (h.2 d hd)⟩
    | exact ⟨hST _ h.1, fun d hd => hST d (h.2 d hd)⟩
    | exact h.mono hST
    | exact hST _ h
    | exact fun q hq => (h q hq).mono hST
    | trivial

theorem Frame.IsIn.mono (h : f.IsIn S w) (hST : ∀ d, S d → T d) : f.IsIn T w := by
  unfold Frame.IsIn at h ⊢
  split at h <;> first
    | exact ⟨h.1.mono hST, fun d hd => hST d (h.2 d hd)⟩
    | exact h.mono hST
    | exact hST _ h
    | exact fun q hq => (h q hq).mono hST
    | trivial

theorem World.IsClosed.union (hS : w.IsClosed S) (hT : w.IsClosed T) :
    w.IsClosed fun d => S d ∨ T d := by
  rintro c q (hc | hc) hq
  · exact (hS c q hc hq).mono fun _ => .inl
  · exact (hT c q hc hq).mono fun _ => .inr

/-! ### Calls in progress -/

theorem Activation.IsIn.inside {i : Invocation} (h : ∀ f ∈ frames, f.IsIn S w) :
    IsIn S w ⟨.inside i, frames⟩ :=
  ⟨fun _ h => (nomatch h), h⟩

theorem Activation.IsIn.ended (h : ∀ f ∈ frames, f.IsIn S w) : IsIn S w ⟨.ended o, frames⟩ :=
  ⟨fun _ h => (nomatch h), h⟩

theorem Activation.isIn_follow {n : Next} (hn : n.IsIn S w) (hf : ∀ f ∈ frames, f.IsIn S w) :
    (follow frames n).IsIn S w := by
  cases n with
  | goto p => exact ⟨fun _ h => Control.ready.inj h ▸ hn, hf⟩
  | call f p => exact ⟨fun _ h => Control.ready.inj h ▸ hn.2, List.forall_mem_cons.mpr ⟨hn.1, hf⟩⟩
  | invoke f i => exact .inside (List.forall_mem_cons.mpr ⟨hn, hf⟩)
  | finish o => exact .ended hf

/-- A call on a region works in it. -/
theorem Call.IsIn.activation {c : Call} (h : c.IsIn S w) : c.activation.IsIn S w where
  point p hp := by
    cases Call.enters_of_control hp <;> exact h
  frame f hf := by simp [frames_activation] at hf

/-! ### Steps -/

/-- A step of code of a region leads to code of the region. -/
theorem Point.IsIn.next (h : p.IsIn S w) (hw : w.IsClosed S) :
    (p.step w).next.IsIn S (p.step w).world := by
  have hgrows := p.grows_step w
  have hkeep {q : RequestId} (hq : w.Owns S q) : (p.step w).world.Owns S q := hq.grow hgrows
  have hway := p.way_step w
  generalize hn : (p.step w).next = n at hway ⊢
  cases hway
  case checkRegister c g _ =>
    cases g with
    | callback id => exact h
    | request q => exact ⟨h.1, hkeep h.2⟩
  case register c g r _ =>
    cases g with
    | callback id => exact h
    | request q => exact ⟨h.1, hkeep h.2⟩
  case assign c g r hr =>
    cases g with
    | callback id => exact h
    | request q => exact ⟨h, hkeep (hw c q h (Cell.assign_snd_eq_accepted.mp hr).2)⟩
  case attach q c hc => exact ⟨hc ▸ h.cell, hkeep h⟩
  case markTimeout q rest hrest => exact ⟨hkeep h, fun c hc => h.hooks c (hrest ▸ hc)⟩
  case noteFail q e rest hrest => exact ⟨hkeep h, fun c hc => h.hooks c (hrest ▸ hc)⟩
  case cancelTimer q rest hrest =>
    exact ⟨hkeep h, fun c hc => h.hooks c (List.mem_reverse.mp (hrest ▸ hc))⟩
  case timeoutDefault q c r hc => exact ⟨hkeep h, hc ▸ h.cell⟩
  case errorDefault q e c hc => exact ⟨hkeep h, hc ▸ h.cell⟩
  case draw k c d extra q hq =>
    subst hq
    have hmade := Point.request_step_draw w k c d extra
    refine ⟨Nat.lt_succ_self _, by rw [hmade]; exact h.1, fun c' hc' => ?_⟩
    rw [hmade] at hc'
    rcases List.mem_cons.mp hc' with hc' | hc'
    · cases hc'
      exact h.1
    · exact h.2 c' hc'
  all_goals simp_all [Next.IsIn, Point.IsIn, Frame.IsIn, AreIn]

/-- A frame of a region goes on in code of the region. -/
theorem Frame.IsIn.next (h : f.IsIn S w) : (f.resume w o).next.IsIn S w := by
  have hway := f.way_resume w o
  generalize (f.resume w o).next = n at hway ⊢
  cases hway <;> simp_all [Next.IsIn, Point.IsIn, Frame.IsIn]

namespace Activation.IsIn

/-- A call that works in a region stays in it in a step. -/
theorem step (h : IsIn S w ⟨.ready p, frames⟩) (hw : w.IsClosed S) :
    (follow frames (p.step w).next).IsIn S (p.step w).world :=
  isIn_follow ((h.point p rfl).next hw) fun f hf => (h.frame f hf).grow (p.grows_step w)

theorem resume (h : IsIn S w ⟨.ended o, f :: frames⟩) :
    (follow frames (f.resume w o).next).IsIn S w :=
  isIn_follow (h.frame f List.mem_cons_self).next fun g hg => h.frame g (List.mem_cons_of_mem f hg)

theorem conclude {i : Invocation} (h : IsIn S w ⟨.inside i, frames⟩) :
    IsIn S w ⟨.ended o, frames⟩ :=
  .ended h.frame

end Activation.IsIn

/-- The handlers of a region stay its own in a step that registers no other ones. -/
theorem World.IsClosed.step (hw : w.IsClosed S)
    (hp : ∀ c q, p = .cell c (.register (.request q)) → S c → w.Owns S q) :
    (p.step w).world.IsClosed S := by
  intro c q hc hq
  have hgrows := p.grows_step w
  rcases Point.handler_step hq with h | rfl
  · exact (hw c q hc h).grow hgrows
  · exact (hp c q rfl hc).grow hgrows

/-! ### What is outside -/

namespace World.Spares

theorem refl (w : World) : w.Spares S w :=
  ⟨fun _ _ => rfl, fun _ _ _ => rfl, fun _ _ _ => rfl⟩

theorem trans (h : w.Spares S w') (h' : w'.Spares S w'') (hgrows : w.Grows w') :
    w.Spares S w'' where
  cell c hc := (h'.cell c hc).trans (h.cell c hc)
  request q hq hc := by
    have hsame := h.request q hq hc
    rw [h'.request q (Nat.lt_of_lt_of_le hq hgrows.requestCount) (hsame ▸ hc), hsame]
  active k c hc := (h'.active k c hc).trans (h.active k c hc)

end World.Spares

/-- A step of code of a region leaves everything outside as it is. -/
theorem Point.IsIn.spares (h : p.IsIn S w) : w.Spares S (p.step w).world where
  cell c hc := by
    rcases p.cell_step w c with he | ⟨g, rfl, -⟩ | ⟨r, rfl, -⟩ | ⟨rfl, -⟩ | ⟨slot, id, rfl, -⟩
    · exact he
    · cases g with
      | callback id => exact absurd h hc
      | request q => exact absurd h.1 hc
    all_goals exact absurd h hc
  request q hq hc := by
    rcases p.request_step_of_lt q hq with
      he | ⟨rfl, -⟩ | ⟨r, rfl, -⟩ | ⟨rfl, -⟩ | ⟨rfl, -⟩ | ⟨rfl, -⟩
    · exact he
    all_goals exact absurd h.cell hc
  active k c hc := by
    rcases p.active_step w k with he | ⟨q, rfl, -, he⟩ | ⟨q, rfl, -, he⟩ <;> rw [he]
    · have hne : c ≠ (w.request q).cell := fun hc' => hc (hc' ▸ h.cell)
      rw [Directory.find?_put, if_neg hne]
    · have hne : c ≠ (w.request q).cell := fun hc' => hc (hc' ▸ h.cell)
      rw [Directory.find?_erase, if_neg hne]

/-- The handlers of a region stay its own in a step of its code. -/
theorem Point.IsIn.isClosed (h : p.IsIn S w) (hw : w.IsClosed S) : (p.step w).world.IsClosed S := by
  refine hw.step fun c q hp _ => ?_
  subst hp
  exact h.2

/-! ### Regions without a cell -/

namespace World.Shields

variable {c : CellId}

theorem refl (w : World) : w.Shields c w :=
  fun S hc hS => ⟨S, fun _ h => h, hc, hS⟩

theorem trans (h : w.Shields c w') (h' : w'.Shields c w'') : w.Shields c w'' := by
  intro S hc hS
  obtain ⟨T, hST, hT, hclosed⟩ := h S hc hS
  obtain ⟨U, hTU, hU, hclosed'⟩ := h' T hT hclosed
  exact ⟨U, fun d hd => hTU d (hST d hd), hU, hclosed'⟩

/-- A step that registers no request leaves all regions what they are. -/
theorem of_step (hp : ∀ d q, p ≠ .cell d (.register (.request q))) :
    w.Shields c (p.step w).world :=
  fun S hc hS => ⟨S, fun _ h => h, hc, hS.step fun d q h => absurd h (hp d q)⟩

end World.Shields

/-- In a step of code of a region, other regions grow by that region at most. -/
theorem Point.IsIn.shields {c : CellId} (h : p.IsIn S w) (hc : ¬ S c) (hS : w.IsClosed S) :
    w.Shields c (p.step w).world := by
  intro T hT hclosed
  have hunion : p.IsIn (fun d => T d ∨ S d) w := h.mono fun _ => .inr
  exact ⟨fun d => T d ∨ S d, fun _ => .inl, not_or.mpr ⟨hT, hc⟩,
    hunion.isClosed (hclosed.union hS)⟩

end Rendezvous
