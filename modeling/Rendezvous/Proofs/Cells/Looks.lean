import Mathlib.Logic.Relation
import Rendezvous.Proofs.Cells.Atomic

/-!
# Looks and decisions

An operation of a cell takes its looks one after the other until one finds something, or until it
comes to its block. The step that it takes last does what the whole operation does in one step: a
look that finds a resolution, or that the cell has expired, finds what the block would find. There
is one exception. Whether the cell is set or expired takes two looks and no block, and when the
second look finds nothing, only the first one told whether there was a resolution.

## Main definitions

* `Point.Looks`: a look within an operation that finds nothing.
* `Point.Decides`: a step that does what the whole operation does.

## Main results

* `Point.decides_or_looks`: a step decides, or it is a look that finds nothing, but for the
  exception.
* `Point.exists_looks`: from where an operation begins, looks that find nothing lead to a step that
  decides.
* `Event.sight?_step`, `Event.sight?_quiet`: what is seen of such steps.
-/

namespace Rendezvous

variable {w w' : World} {p p' : Point} {frames : List Frame}

/-! ### Operations and what surrounds them -/

theorem Point.entry_entry (p : Point) : p.entry.entry = p.entry := by
  rcases p with ⟨c, p⟩ | ⟨q, p⟩ | ⟨k, p⟩
  · cases p <;> rfl
  · rfl
  · rfl

theorem Point.operand?_entry (p : Point) : p.entry.operand? = p.operand? := by
  rcases p with ⟨c, p⟩ | ⟨q, p⟩ | ⟨k, p⟩
  · cases p <;> rfl
  · rfl
  · rfl

theorem Next.delivery?_goto {c : CellId} (h : p.operand? = some c) :
    (Next.goto p).delivery? = none := by
  unfold delivery?
  split
  · rename_i hp
    cases hp
    cases h
  · rfl

theorem Point.isEnabled_entry (p : Point) : p.entry.isEnabled w = p.isEnabled w := by
  rcases p with ⟨c, p⟩ | ⟨q, p⟩ | ⟨k, p⟩
  · cases p <;> rfl
  · rfl
  · rfl

/-- Outside of operations a point is its own entry, and its step is the same. -/
theorem Point.entry_of_operand? (h : p.operand? = none) :
    p.entry = p ∧ p.atomicStep w = p.step w := by
  rcases p with ⟨c, p⟩ | ⟨q, p⟩ | ⟨k, p⟩
  · cases p <;> first | exact ⟨rfl, rfl⟩ | cases h
  · exact ⟨rfl, rfl⟩
  · exact ⟨rfl, rfl⟩

theorem Frame.entry_of_way {f : Frame} {o : Outcome} {n : Next} (h : f.Way w o n)
    (hn : n.point? = some p) : p.entry = p := by
  cases h <;> cases hn <;> rfl

theorem Call.entry_control (c : Call) : c.control.entry = c.control := by
  cases h : c.control with
  | ready p => cases c.enters_of_control h <;> rfl
  | _ => rfl

theorem Control.entry_follow {n : Next} (h : ∀ p, n.point? = some p → p.entry = p) :
    (Activation.follow frames n).control.entry = (Activation.follow frames n).control := by
  cases n with
  | goto p => exact congrArg Control.ready (h p rfl)
  | call f p => exact congrArg Control.ready (h p rfl)
  | _ => rfl

/-- The way on from a frame has nothing to do with the world. -/
theorem Frame.next_resume (w w' : World) (f : Frame) (o : Outcome) :
    (f.resume w o).next = (f.resume w' o).next := by
  have hcontain (site : Site) (c d : CellId) (e : Option String) (g : Answer → Next) (n : Next) :
      (contain w site c e o g n).next = (contain w' site d e o g n).next := by
    unfold contain
    split
    · rfl
    · split <;> rfl
  rcases f with ⟨c, f⟩ | ⟨q, f⟩ | ⟨k, n, rest⟩ | a | o
  · cases f <;> exact hcontain ..
  · cases f <;> first | rfl | exact hcontain ..
  all_goals rfl

theorem World.Agrees.atomicStep (h : w.Agrees w') (p : Point) :
    (p.atomicStep w).next = (p.atomicStep w').next ∧
      (p.atomicStep w).world.Agrees (p.atomicStep w').world := by
  unfold Point.atomicStep
  split
  · exact ⟨h.next_step _, h.world_step _⟩
  · exact ⟨h.next_step _, h.world_step _⟩
  · rw [h.cell]
    exact ⟨rfl, h⟩
  · exact ⟨h.next_step _, h.world_step _⟩

/-! ### What is seen -/

theorem Event.sight?_of_operand? {e : Event} (h : e.deed.operand? = none) :
    e.sight? w w' = some (.event e) := by
  simp [sight?, h]

/-- A step that an operation takes is seen by its effect and its decision only. -/
theorem Event.sight?_step {v v' : World} {t : ThreadId} {k : CallNumber} {n n' : Next}
    {c : CellId} (hp : p.operand? = some c) (hp' : p'.operand? = some c) (hw : w.Agrees v)
    (hw' : w'.Agrees v') (hn : n.delivery? = n'.delivery?) :
    Event.sight? v v' ⟨t, k, .step p' n'⟩ = Event.sight? w w' ⟨t, k, .step p n⟩ := by
  simp only [sight?, Deed.operand?, hp, hp', Deed.delivery?, hn, hw.cell, hw'.cell]

/-- A step of an operation that leaves its cell as it is and goes on within the operation, or ends
it, is not seen. -/
theorem Event.sight?_quiet {t : ThreadId} {k : CallNumber} {n : Next} {c : CellId}
    (hp : p.operand? = some c) (hw : w.Agrees w') (hn : n.delivery? = none) :
    Event.sight? w w' ⟨t, k, .step p n⟩ = none := by
  simp [sight?, Deed.operand?, hp, Deed.delivery?, hn, hw.cell, Sight.ofOperation?]

/-! ### Looks and decisions -/

/-- A look within an operation that finds nothing, and goes on. -/
inductive Point.Looks (w : World) : Point → Point → Prop
  | register (c : CellId) (h : Handler) (he : (w.cell c).expired = false) :
    Looks w (.cell c (.checkRegister h)) (.cell c (.register h))
  | result (c : CellId) (r : Resolution) (hr : (w.cell c).hasResult = false) :
    Looks w (.cell c (.checkResult r)) (.cell c (.checkExpired r))
  | expired (c : CellId) (r : Resolution) (he : (w.cell c).expired = false) :
    Looks w (.cell c (.checkExpired r)) (.cell c (.assign r))
  | ask (c : CellId) (hr : (w.cell c).hasResult = false) :
    Looks w (.cell c (.ask .isSetOrExpired)) (.cell c .askExpired)

namespace Point.Looks

theorem step (h : p.Looks w p') : p.step w = { world := w, next := .goto p' } := by
  cases h <;> simp [Point.step, CellPoint.step, *]

theorem entry (h : p.Looks w p') : p'.entry = p.entry := by
  cases h <;> rfl

theorem operand? (h : p.Looks w p') : p'.operand? = p.operand? ∧ p'.operand?.isSome := by
  cases h <;> exact ⟨rfl, rfl⟩

end Point.Looks

/-- Whether a step does what the whole operation does in one step, to a point. -/
structure Point.Decides (w : World) (p : Point) : Prop where
  next : (p.step w).next = (p.entry.atomicStep w).next
  world : (p.step w).world.Agrees (p.entry.atomicStep w).world

namespace Point

theorem decides_of_operand? (h : p.operand? = none) : p.Decides w := by
  obtain ⟨hentry, hatomic⟩ := entry_of_operand? (w := w) h
  exact ⟨by rw [hentry, hatomic], by rw [hentry, hatomic]; exact .refl _⟩

theorem decides_checkRegister {c : CellId} (h : Handler) (he : (w.cell c).expired = true) :
    (Point.cell c (.checkRegister h)).Decides w := by
  constructor <;> simp [step, CellPoint.step, he, entry, atomicStep, Cell.register,
    World.Agrees.setCell_self]

theorem decides_checkResult {c : CellId} (r : Resolution) (hr : (w.cell c).hasResult = true) :
    (Point.cell c (.checkResult r)).Decides w := by
  have hset : (w.cell c).isSetOrExpired = true := by simpa [Cell.isSetOrExpired] using .inl hr
  constructor <;> simp [step, CellPoint.step, hr, hset, entry, atomicStep, Cell.assign,
    World.Agrees.setCell_self]

theorem decides_checkExpired {c : CellId} (r : Resolution) (he : (w.cell c).expired = true) :
    (Point.cell c (.checkExpired r)).Decides w := by
  have hset : (w.cell c).isSetOrExpired = true := by simp [Cell.isSetOrExpired, he]
  constructor <;> simp [step, CellPoint.step, he, hset, entry, atomicStep, Cell.assign,
    World.Agrees.setCell_self]

theorem decides_ask {c : CellId} (hr : (w.cell c).hasResult = true) :
    (Point.cell c (.ask .isSetOrExpired)).Decides w := by
  have hset : (w.cell c).isSetOrExpired = true := by simpa [Cell.isSetOrExpired] using .inl hr
  constructor <;> simp [step, CellPoint.step, hr, hset, entry, atomicStep, Cell.answer,
    World.Agrees.refl]

theorem decides_askExpired {c : CellId}
    (h : (w.cell c).expired = true ∨ (w.cell c).hasResult = false) :
    (Point.cell c .askExpired).Decides w := by
  have hset : (w.cell c).isSetOrExpired = (w.cell c).expired := by
    rcases h with he | hr
    · simp [Cell.isSetOrExpired, he]
    · simp [Cell.isSetOrExpired, show (w.cell c).result.isSome = false from hr]
  constructor <;> simp [step, CellPoint.step, hset, entry, atomicStep, Cell.answer,
    World.Agrees.refl]

/-- A step decides, or it is a look that finds nothing, or it is the second look at a cell that has
not expired, of which only the first look told whether the cell was set. -/
theorem decides_or_looks (w : World) (p : Point) : p.Decides w ∨ (∃ p', p.Looks w p') ∨
    ∃ c, p = .cell c .askExpired ∧ (w.cell c).expired = false := by
  cases hp : p.operand? with
  | none => exact .inl (decides_of_operand? hp)
  | some c =>
    unfold Point.operand? at hp
    split at hp <;> cases hp
    case h_1 h =>
      cases he : (w.cell c).expired with
      | true => exact .inl (decides_checkRegister h he)
      | false => exact .inr (.inl ⟨_, .register c h he⟩)
    case h_3 r =>
      cases hr : (w.cell c).hasResult with
      | true => exact .inl (decides_checkResult r hr)
      | false => exact .inr (.inl ⟨_, .result c r hr⟩)
    case h_4 r =>
      cases he : (w.cell c).expired with
      | true => exact .inl (decides_checkExpired r he)
      | false => exact .inr (.inl ⟨_, .expired c r he⟩)
    case h_7 x =>
      cases x with
      | isSetOrExpired =>
        cases hr : (w.cell c).hasResult with
        | true => exact .inl (decides_ask hr)
        | false => exact .inr (.inl ⟨_, .ask c hr⟩)
      | _ => exact .inl ⟨rfl, .refl _⟩
    case h_8 =>
      cases he : (w.cell c).expired with
      | true => exact .inl (decides_askExpired (.inl he))
      | false => exact .inr (.inr ⟨c, rfl, he⟩)
    all_goals exact .inl ⟨rfl, .refl _⟩

/-- From where an operation begins, looks that find nothing lead to a step that decides. -/
theorem exists_looks (w : World) (h : p.entry = p) :
    ∃ p', Relation.ReflTransGen (Looks w) p p' ∧ p'.entry = p ∧ p'.Decides w := by
  rcases p.decides_or_looks w with hd | ⟨p', hlook⟩ | ⟨c, rfl, -⟩
  · exact ⟨p, .refl, h, hd⟩
  · cases hlook with
    | register c g he => exact ⟨_, .single (.register c g he), rfl, rfl, .refl _⟩
    | result c r hr =>
      cases he : (w.cell c).expired with
      | true => exact ⟨_, .single (.result c r hr), rfl, decides_checkExpired r he⟩
      | false => exact ⟨_, .tail (.single (.result c r hr)) (.expired c r he), rfl, rfl, .refl _⟩
    | expired => cases h
    | ask c hr => exact ⟨_, .single (.ask c hr), rfl, decides_askExpired (.inr hr)⟩
  · cases h

/-- Only looks lead to points within operations. -/
theorem entry_of_way {n : Next} (h : p.Way w n) (hp : ∀ v p', ¬ p.Looks v p')
    (hn : n.point? = some p') : p'.entry = p' := by
  cases h <;> cases hn <;> try rfl
  case checkRegister c g he => exact absurd (.register c g he) (hp w _)
  case checkResult c r hr => exact absurd (.result c r hr) (hp w _)
  case checkExpired c r he => exact absurd (.expired c r he) (hp w _)
  case ask c => exact absurd (.ask c rfl) (hp default _)

/-- An atomic step leads to no point within an operation. -/
theorem entry_of_atomicStep (h : p.entry = p) (hn : (p.atomicStep w).next.point? = some p') :
    p'.entry = p' := by
  unfold atomicStep at hn
  split at hn
  · exact entry_of_way (way_step w _) (by rintro _ _ ⟨⟩) hn
  · exact entry_of_way (way_step w _) (by rintro _ _ ⟨⟩) hn
  · cases hn
  · rename_i hregister hassign hask
    refine entry_of_way (way_step w _) (fun v p' hlook => ?_) hn
    cases hlook with
    | register c g he => exact hregister c g rfl
    | result c r hr => exact hassign c r rfl
    | expired c r he => cases h
    | ask c hr => exact hask c _ rfl

end Point

end Rendezvous
