import Mathlib.Data.Prod.Lex
import Rendezvous.Proofs.Reentrancy.Unfolding

/-!
# Calls come to an end

Alone on its thread, a call of the library comes to its end as soon as all user code that it calls
has answered, whatever the world is like and whatever the answers are. Only a wait may be held up.

The recursion of the library is bounded: the completion of a request calls the hooks of its
interceptors one after the other, and these complete nothing; a delivery calls for a completion, a
setter for a delivery, a hook of a cell for a setter, and a request for the hooks of its
interceptors. The height of a point says so in numbers. It is a level, and within the level of a
list of interceptors or requests, what is left of the list, which the world bounds and the level
does not.

## Main definitions

* `Conduct.IsResponsive`: user code that can always answer at once.
* `Point.height` and `Frame.height`: how far code is from its end.

## Main results

* `Point.isBelow_of_way`, `Frame.isBelow_of_way`: heights sink along all edges.
* `Point.exists_unfolds`, `Call.exists_unfolds`: code comes to its end.
-/

namespace Rendezvous

open Activation

/-- User code that can answer at once, wherever it is called. -/
def Conduct.IsResponsive (P : Conduct) : Prop :=
  ∀ w i, ∃ a, P.mayAnswer w i a

/-! ### Heights -/

/-- The level of a point of a cell. -/
def CellPoint.level : CellPoint → Nat
  | .setCallback .. | .askExpired => 0
  | .ask _ | .completionCallback => 1
  | .expire => 2
  | .deliver .. => 11
  | .register _ | .assign _ => 12
  | .checkRegister _ | .checkExpired _ => 13
  | .checkResult _ => 14
  | .settle _ | .settleError _ => 15
  | .fallback | .errorCallback _ => 17
  | .timeoutCallback => 19

/-- The level of the code of a cell that waits for an outcome. -/
def CellFrame.level : CellFrame → Nat
  | .delivered _ | .completionCallback => 0
  | .fallback | .errorCallback _ => 16
  | .timeoutCallback => 18

/-- How far code is from its end, seen from a point. -/
def Point.height : Point → Nat ×ₗ Nat
  | .cell _ p => toLex (p.level, 0)
  | .request _ .collect | .request _ .release => toLex (0, 0)
  | .request _ .await => toLex (1, 0)
  | .request _ .tellListener => toLex (3, 0)
  | .request _ (.completionHooks rest) => toLex (4, 2 * rest.length)
  | .request _ .cancelTimer => toLex (5, 0)
  | .request _ .complete => toLex (6, 0)
  | .request _ .completeUndelivered | .request _ .noteAbandon => toLex (7, 0)
  | .request _ .checkAbandon => toLex (8, 0)
  | .request _ (.dispatch _) => toLex (9, 0)
  | .request _ (.record _) => toLex (10, 0)
  | .request _ .attach => toLex (14, 0)
  | .request _ .arm => toLex (15, 0)
  | .request _ .timeoutDefault | .request _ (.errorDefault _) => toLex (20, 0)
  | .request _ (.timeoutHooks rest) | .request _ (.errorHooks _ rest) => toLex (21, 2 * rest.length)
  | .request _ .markTimeout | .request _ (.noteFail _) => toLex (22, 0)
  | .request _ .checkTimeout | .request _ (.checkFail _) => toLex (23, 0)
  | .coordinator _ (.retire _) | .coordinator _ .countActive => toLex (0, 0)
  | .coordinator _ (.abandonEach _ rest) => toLex (9, 2 * rest.length)
  | .coordinator _ .abandonAll => toLex (10, 0)
  | .coordinator _ (.noteStart _) => toLex (16, 0)
  | .coordinator _ (.activate _) => toLex (17, 0)
  | .coordinator _ (.draw ..) => toLex (18, 0)
  | .coordinator _ (.checkStart ..) => toLex (19, 0)

/-- How far code is from its end, seen from a frame. -/
def Frame.height : Frame → Nat ×ₗ Nat
  | .cell _ f => toLex (f.level, 0)
  | .request _ .told => toLex (2, 0)
  | .request _ (.completionHook rest) => toLex (4, 2 * rest.length + 1)
  | .request _ .dispatched => toLex (8, 0)
  | .request _ .settled => toLex (8, 0)
  | .request _ (.timeoutHook rest) | .request _ (.errorHook _ rest) =>
    toLex (21, 2 * rest.length + 1)
  | .abandoning _ _ rest => toLex (9, 2 * rest.length + 1)
  | .answer _ | .outcome _ => toLex (0, 0)

/-- Whether execution goes on below a height, and not with a wait. -/
def Next.IsBelow (h : Nat ×ₗ Nat) : Next → Prop
  | .goto p => p.height < h ∧ ∀ q, p ≠ .request q .await
  | .call f p => f.height < h ∧ p.height < h ∧ ∀ q, p ≠ .request q .await
  | .invoke f _ => f.height < h
  | .finish _ => True

variable {w : World} {n : Next}

/-- Heights sink along the edges from points. -/
theorem Point.isBelow_of_way {p : Point} (h : p.Way w n) (hp : ∀ q, p ≠ .request q .await) :
    n.IsBelow p.height := by
  cases h <;>
    simp [Next.IsBelow, height, Frame.height, CellPoint.level, CellFrame.level,
      Prod.Lex.toLex_lt_toLex] at hp ⊢
  -- What remains are the lists, of which one item less is left.
  all_goals omega

/-- Heights sink along the edges from frames. -/
theorem Frame.isBelow_of_way {f : Frame} {o : Outcome} (h : f.Way w o n) :
    n.IsBelow f.height := by
  cases h <;>
    simp [Next.IsBelow, Point.height, height, CellPoint.level, CellFrame.level,
      Prod.Lex.toLex_lt_toLex]

/-! ### Ends -/

variable {P : Conduct}

/-- Whether all code below a height comes to its end. -/
private def EndsBelow (P : Conduct) (h : Nat ×ₗ Nat) : Prop :=
  (∀ p : Point, p.height < h → (∀ q, p ≠ .request q .await) → ∀ w,
    ∃ acts w' o, Unfolds P w ⟨.ready p, []⟩ acts w' o) ∧
  ∀ f : Frame, f.height < h → ∀ w x, ∃ acts w' o, Unfolds P w ⟨.ended x, [f]⟩ acts w' o

private theorem Next.IsBelow.exists_unfolds (hP : P.IsResponsive) {h : Nat ×ₗ Nat}
    (hn : n.IsBelow h) (hends : EndsBelow P h) (w : World) :
    ∃ acts w' o, Unfolds P w (follow [] n) acts w' o := by
  cases n with
  | goto p => exact hends.1 p hn.1 hn.2 w
  | call f p =>
    obtain ⟨acts₁, w₁, x, h₁⟩ := hends.1 p hn.2.1 hn.2.2 w
    obtain ⟨acts₂, w₂, o, h₂⟩ := hends.2 f hn.1 w₁ x
    exact ⟨_, w₂, o, h₁.append h₂⟩
  | invoke f i =>
    obtain ⟨a, ha⟩ := hP w i
    obtain ⟨acts, w', o, h⟩ := hends.2 f hn w (.ofUser a)
    exact ⟨_, w', o, .answer ha h⟩
  | finish o => exact ⟨[], w, o, .ended w o⟩

private theorem endsBelow (hP : P.IsResponsive) (h : Nat ×ₗ Nat) : EndsBelow P h := by
  induction h using WellFoundedLT.induction with
  | ind h ih =>
  refine ⟨fun p hp hawait w => ?_, fun f hf w x => ?_⟩
  · have hbelow := Point.isBelow_of_way (p.way_step w) hawait
    obtain ⟨acts, w', o, hend⟩ := hbelow.exists_unfolds hP (ih _ hp) (p.step w).world
    have henabled : p.isEnabled w = true := by
      unfold Point.isEnabled
      split
      · exact absurd rfl (hawait _)
      · rfl
    exact ⟨_, w', o, .step henabled hend⟩
  · have hbelow := Frame.isBelow_of_way (f.way_resume w x)
    obtain ⟨acts, w', o, hend⟩ := hbelow.exists_unfolds hP (ih _ hf) w
    exact ⟨_, w', o, .resume hend⟩

/-- From every point but that of a wait, code comes to its end. -/
theorem Point.exists_unfolds (hP : P.IsResponsive) (p : Point) (hp : ∀ q, p ≠ .request q .await)
    (w : World) : ∃ acts w' o, Unfolds P w ⟨.ready p, []⟩ acts w' o := by
  obtain ⟨h, hh⟩ : ∃ h, p.height < h := ⟨toLex ((ofLex p.height).1 + 1, 0), by
    rw [← toLex_ofLex p.height, Prod.Lex.toLex_lt_toLex]
    exact .inl (Nat.lt_succ_self _)⟩
  exact (endsBelow hP h).1 p hh hp w

/-- Every call but a wait comes to its end. -/
theorem Call.exists_unfolds (hP : P.IsResponsive) {c : Call} (hc : ∀ q, c ≠ .wait q) (w : World) :
    ∃ acts w' o, c.activation.Unfolds P w acts w' o := by
  cases h : c.control with
  | ready p =>
    rw [activation, h]
    refine p.exists_unfolds hP (fun q hp => ?_) w
    subst hp
    cases Call.enters_of_control h
    exact hc q rfl
  | inside i =>
    rcases c with _ | _ | ⟨_, _ | _⟩ | _ | _ | _ | _ | _ | _ | _ | _ | _ | _ | _ | _ | _ <;> cases h
  | ended o =>
    rw [activation, h]
    exact ⟨[], w, o, .ended w o⟩

end Rendezvous
