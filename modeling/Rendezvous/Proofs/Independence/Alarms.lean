import Rendezvous.Proofs.Threads.Growth

/-!
# The alarms of a request

The number of a timer says when it was armed among all others, and the list of the armed timers
holds those of all requests. A request has to expect less of them: for each timer that was armed for
it, when it is due and whether the request still knows its number and can cancel it. These are the
alarms of the request, and no other request has a say in them.

A request that is armed twice forgets the number of its first timer, which nobody cancels any more.

## Main definitions

* `World.alarms`: the alarms of a request.
* `World.KeepsTimers`: what the bookkeeping of timers keeps to.

## Main results

* `World.alarms_arm`, `World.alarms_cancel`, `World.alarms_addRequest`: what becomes of the alarms.
* `System.Reachable.keepsTimers`: the bookkeeping is sound in every system that is reached.
-/

namespace Rendezvous

namespace World

/-- The armed timers of a request in order: when each is due, and whether the request can cancel
it. -/
def alarms (w : World) (q : RequestId) : List (Nat × Bool) :=
  (w.timers.filter (·.request = q)).map fun x => (x.due, (w.request q).timer == some x.id)

/-- What the bookkeeping of timers keeps to. -/
structure KeepsTimers (w : World) : Prop where
  number : ∀ x ∈ w.timers, x.id < w.timerCount
  timer (q : RequestId) (t : TimerId) : (w.request q).timer = some t → t < w.timerCount
  /-- A request knows the numbers of its own timers only. -/
  own : ∀ x ∈ w.timers, ∀ q, (w.request q).timer = some x.id → x.request = q
  request : ∀ x ∈ w.timers, x.request < w.requestCount
  name : ∀ x ∈ w.timers, x.name = (w.request x.request).timerName

variable {w w' : World} {q r : RequestId}

theorem alarms_congr (htimers : w'.timers = w.timers)
    (htimer : (w'.request q).timer = (w.request q).timer) : w'.alarms q = w.alarms q := by
  unfold alarms
  rw [htimers, htimer]

/-- A timer that is armed is the one that its request can cancel from now on. -/
theorem alarms_arm (hw : w.KeepsTimers) : (w.arm q).alarms r =
    if r = q then (w.alarms q).map (fun x => (x.1, false)) ++
      [(w.now + (w.request q).timeoutMs.toNat, true)]
    else w.alarms r := by
  have htimers : (w.arm q).timers = w.timers ++ [⟨w.timerCount, (w.request q).timerName,
    w.now + (w.request q).timeoutMs.toNat, q⟩] := rfl
  unfold alarms
  rw [htimers, request_arm, List.filter_append, List.map_append]
  by_cases hr : r = q
  · subst hr
    rw [if_pos rfl, if_pos rfl]
    congr 1
    · rw [List.map_map]
      refine List.map_congr_left fun x hx => ?_
      have hne : w.timerCount ≠ x.id := (Nat.ne_of_lt (hw.number x (List.mem_filter.mp hx).1)).symm
      simpa using hne
    · simp
  · simp [hr, Ne.symm hr]

/-- A request cancels the timer whose number it knows. -/
theorem alarms_cancel (hw : w.KeepsTimers) :
    (w.cancel q).alarms r = if r = q then (w.alarms q).filter (!·.2) else w.alarms r := by
  unfold alarms
  rw [request_cancel]
  cases ht : (w.request q).timer with
  | none =>
    have hsame : w.cancel q = w := by simp [cancel, ht]
    rw [hsame]
    split
    · subst_vars
      simp [ht, List.filter_map, List.filter_filter, Function.comp_def]
    · rfl
  | some t =>
    have htimers : (w.cancel q).timers = w.timers.filter fun x => x.id ≠ t := by simp [cancel, ht]
    rw [htimers, List.filter_filter]
    by_cases hr : r = q
    · subst hr
      rw [if_pos rfl, List.filter_map, List.filter_filter, ht]
      congr 1
      refine List.filter_congr fun x _ => ?_
      by_cases hx : t = x.id
      · simp [hx]
      · simp [hx, Ne.symm hx]
    · rw [if_neg hr]
      congr 1
      refine List.filter_congr fun x hx => ?_
      by_cases hxr : x.request = r
      · have hne : x.id ≠ t := fun hxt =>
          hr (hxr.symm.trans (hw.own x hx q (by rw [ht, hxt])))
        simp [hxr, hne]
      · simp [hxr]

/-- A new request has no alarms. -/
theorem alarms_addRequest (hw : w.KeepsTimers) (x : Request) :
    (w.addRequest x).1.alarms r = if r = w.requestCount then [] else w.alarms r := by
  have htimers : (w.addRequest x).1.timers = w.timers := rfl
  split
  · subst_vars
    have hnone : w.timers.filter (·.request = w.requestCount) = [] :=
      List.filter_eq_nil_iff.mpr fun y hy => by simpa using Nat.ne_of_lt (hw.request y hy)
    rw [alarms, htimers, hnone]
    rfl
  · rename_i hr
    exact alarms_congr rfl (by rw [request_addRequest, if_neg hr])

/-! ### Bookkeeping -/

namespace KeepsTimers

/-- The bookkeeping stays sound when timers go, and requests come without timers. -/
theorem shrink (hw : w.KeepsTimers) (htimers : ∀ x ∈ w'.timers, x ∈ w.timers)
    (hcount : w'.timerCount = w.timerCount) (hmade : w.requestCount ≤ w'.requestCount)
    (htimer : ∀ q t, (w'.request q).timer = some t → (w.request q).timer = some t)
    (hname : ∀ q < w.requestCount, (w'.request q).timerName = (w.request q).timerName) :
    w'.KeepsTimers where
  number x hx := hcount ▸ hw.number x (htimers x hx)
  timer q t ht := hcount ▸ hw.timer q t (htimer q t ht)
  own x hx q hq := hw.own x (htimers x hx) q (htimer q x.id hq)
  request x hx := Nat.lt_of_lt_of_le (hw.request x (htimers x hx)) hmade
  name x hx := (hw.name x (htimers x hx)).trans (hname _ (hw.request x (htimers x hx))).symm

theorem setCell (hw : w.KeepsTimers) (c : CellId) (x : Cell) : (w.setCell c x).KeepsTimers :=
  ⟨hw.number, hw.timer, hw.own, hw.request, hw.name⟩

theorem setCoordinator (hw : w.KeepsTimers) (k : CoordinatorId) (x : Coordinator) :
    (w.setCoordinator k x).KeepsTimers :=
  ⟨hw.number, hw.timer, hw.own, hw.request, hw.name⟩

theorem setRequest (hw : w.KeepsTimers) {x : Request} (htimer : x.timer = (w.request q).timer)
    (hname : x.timerName = (w.request q).timerName) : (w.setRequest q x).KeepsTimers := by
  refine hw.shrink (fun _ => id) rfl (Nat.le_refl _) (fun r t ht => ?_) fun r _ => ?_
  · rw [request_setRequest] at ht
    split at ht
    · subst_vars
      rwa [← htimer]
    · exact ht
  · rw [request_setRequest]
    split
    · subst_vars
      exact hname
    · rfl

theorem addRequest (hw : w.KeepsTimers) {x : Request} (hx : x.timer = none) :
    (w.addRequest x).1.KeepsTimers := by
  refine hw.shrink (fun _ => id) rfl (Nat.le_succ _) (fun r t ht => ?_) fun r hr => ?_
  · rw [request_addRequest] at ht
    split at ht
    · rw [hx] at ht
      cases ht
    · exact ht
  · rw [request_addRequest, if_neg (Nat.ne_of_lt hr)]

theorem cancel (hw : w.KeepsTimers) (q : RequestId) : (w.cancel q).KeepsTimers := by
  refine hw.shrink (fun x hx => ?_) ?_ (by simp) (by simp) (by simp)
  · unfold World.cancel at hx
    split at hx
    · exact hx
    · exact (List.mem_filter.mp hx).1
  · unfold World.cancel
    split <;> rfl

theorem fire (hw : w.KeepsTimers) (x : Timer) : (w.fire x).KeepsTimers :=
  hw.shrink (fun _ hy => (List.mem_filter.mp hy).1) rfl (Nat.le_refl _) (fun _ _ => id)
    fun _ _ => rfl

theorem arm (hw : w.KeepsTimers) (hq : q < w.requestCount) : (w.arm q).KeepsTimers := by
  have hcount : (w.arm q).timerCount = w.timerCount + 1 := rfl
  have hmem {x : Timer} (hx : x ∈ (w.arm q).timers) : x ∈ w.timers ∨
      x = ⟨w.timerCount, (w.request q).timerName, w.now + (w.request q).timeoutMs.toNat, q⟩ :=
    (List.mem_append.mp hx).imp_right List.mem_singleton.mp
  have htimer {r : RequestId} {t : TimerId} (ht : ((w.arm q).request r).timer = some t) :
      (w.request r).timer = some t ∨ r = q ∧ t = w.timerCount := by
    rw [request_arm] at ht
    split at ht
    · exact .inr ⟨‹_›, (Option.some.inj ht).symm⟩
    · exact .inl ht
  have hname (r : RequestId) : ((w.arm q).request r).timerName = (w.request r).timerName := by
    rw [request_arm]
    split
    · subst_vars
      rfl
    · rfl
  refine ⟨fun x hx => ?_, fun r t ht => ?_, fun x hx r hr => ?_, fun x hx => ?_, fun x hx => ?_⟩
  · rw [hcount]
    rcases hmem hx with hx | rfl
    · exact Nat.lt_succ_of_lt (hw.number x hx)
    · exact Nat.lt_succ_self _
  · rw [hcount]
    rcases htimer ht with ht | ⟨-, rfl⟩
    · exact Nat.lt_succ_of_lt (hw.timer r t ht)
    · exact Nat.lt_succ_self _
  · rcases hmem hx, htimer hr with ⟨hold | rfl, ht | ⟨rfl, ht⟩⟩
    · exact hw.own x hold r ht
    · exact absurd ht (Nat.ne_of_lt (hw.number x hold))
    · exact absurd (hw.timer r _ ht) (Nat.lt_irrefl _)
    · rfl
  · rcases hmem hx with hx | rfl
    · exact hw.request x hx
    · exact hq
  · rw [hname]
    rcases hmem hx with hx | rfl
    · exact hw.name x hx
    · rfl

/-- The bookkeeping is kept up by every step. -/
theorem step (hw : w.KeepsTimers) {p : Point}
    (hp : ∀ q, p = .request q .arm → q < w.requestCount) : (p.step w).world.KeepsTimers := by
  generalize hstep : (p.step w).world = w'
  have h : p.Writes w w' := hstep ▸ p.writes_step w
  cases h with
  | nothing => exact hw
  | register | assign | expire | setCallback => exact hw.setCell ..
  | arm q => exact hw.arm (hp q rfl)
  | record | markTimeout | complete | release => exact hw.setRequest rfl rfl
  | cancelTimer q => exact hw.cancel q
  | draw k => exact (hw.setCoordinator k _).addRequest rfl
  | activate | retire => exact hw.setCoordinator ..

end KeepsTimers

theorem IsNew.keepsTimers (hw : w.IsNew) : w.KeepsTimers where
  number x hx := by simp [hw.timers] at hx
  timer q t ht := by
    rw [hw.request_eq q] at ht
    cases ht
  own x hx := by simp [hw.timers] at hx
  request x hx := by simp [hw.timers] at hx
  name x hx := by simp [hw.timers] at hx

end World

/-- A step changes the alarms of its own request only. -/
theorem Point.alarms_step {w : World} {p : Point} {q : RequestId} (hw : w.KeepsTimers)
    (hq : q < w.requestCount) : (p.step w).world.alarms q = w.alarms q ∨
      p = .request q .arm ∨ p = .request q .cancelTimer := by
  generalize hstep : (p.step w).world = w'
  have h : p.Writes w w' := hstep ▸ p.writes_step w
  have hset {r : RequestId} {x : Request} (hx : x.timer = (w.request r).timer) :
      (w.setRequest r x).alarms q = w.alarms q := by
    refine World.alarms_congr rfl ?_
    rw [World.request_setRequest]
    split
    · subst_vars
      exact hx
    · rfl
  cases h with
  | nothing | register | assign | expire | setCallback | activate | retire => exact .inl rfl
  | arm r =>
    by_cases hr : q = r
    · exact .inr (.inl (hr ▸ rfl))
    · exact .inl ((World.alarms_arm hw).trans (if_neg hr))
  | record | markTimeout | complete | release => exact .inl (hset rfl)
  | cancelTimer r =>
    by_cases hr : q = r
    · exact .inr (.inr (hr ▸ rfl))
    · exact .inl ((World.alarms_cancel hw).trans (if_neg hr))
  | draw k =>
    exact .inl ((World.alarms_addRequest (hw.setCoordinator k _) _).trans
      (if_neg (Nat.ne_of_lt hq)))

theorem System.Reachable.keepsTimers {allowed : Move → Prop} {s : System}
    (hs : Reachable allowed s) : s.world.KeepsTimers := by
  refine hs.induction (I := fun s => s.world.KeepsTimers) (fun _ hw => hw.keepsTimers)
    fun s m s' hs _ ht h => ?_
  cases ht with
  | step newer older t k p frames hongoing hn hp =>
    have hx : ⟨t, k, ⟨.ready p, frames⟩⟩ ∈ s.ongoing := hongoing ▸ by simp
    refine h.step fun q hq => hs.isBounded.of_ready hx rfl q ?_
    subst hq
    exact List.mem_singleton_self q
  | fire t x => exact h.fire x
  | make => exact h.addRequest rfl
  | _ => exact h

end Rendezvous
