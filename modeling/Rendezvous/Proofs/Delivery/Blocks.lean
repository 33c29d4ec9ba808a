import Mathlib.Data.List.TakeWhile
import Rendezvous.Proofs.Threads.System

/-!
# The locked blocks of a cell

A cell changes in three kinds of blocks under its lock: a registration, an assignment and an
expiry. Their order decides everything else. Before the expiry, the first assignment is accepted.
It is owed to the handler registered last before it, by the assigning call, and to every handler
registered after it, by the registering call. Nothing else is owed to anybody.

## Main definitions

* `Block` and `Locked`: a block, and the call that took it.
* `Locked.accepted?`: the accepted assignment. `Locked.due`: the deliveries that are owed.
* `Locked.Tracks`: a cell is what its blocks made of it.

## Main results

* `Locked.tracks_register`, `Locked.tracks_assign`, `Locked.tracks_expire`: the transitions of a
  cell follow its blocks.
* `Locked.due_register`, `Locked.due_assign`, `Locked.due_expire`: what a block adds to the
  deliveries that are owed.
-/

namespace Rendezvous

/-- A block under the lock of a cell. -/
inductive Block where
  | register (h : Handler)
  | assign (r : Resolution)
  | expire

/-- A block and the call that took it. -/
structure Locked where
  thread : ThreadId
  number : CallNumber
  block : Block

/-- A call of a handler, and the call of the library that made it. -/
structure Delivery where
  thread : ThreadId
  number : CallNumber
  handler : Handler
  resolution : Resolution

/-- An assignment that the cell took, and the call that made it. -/
structure Acceptance where
  thread : ThreadId
  number : CallNumber
  resolution : Resolution

namespace Locked

/-- Whether a block ends the life of the cell. -/
def isExpiry (b : Locked) : Bool :=
  match b.block with
  | .expire => true
  | _ => false

/-- The assignment that a block is. -/
def assignment? (b : Locked) : Option Acceptance :=
  match b.block with
  | .assign r => some ⟨b.thread, b.number, r⟩
  | _ => none

/-- The handler that a block registers. -/
def registration? (b : Locked) : Option Handler :=
  match b.block with
  | .register h => some h
  | _ => none

/-- The delivery of a resolution that a block owes because it registers a handler. -/
def lateDelivery? (r : Resolution) (b : Locked) : Option Delivery :=
  b.registration?.map fun h => ⟨b.thread, b.number, h, r⟩

/-- The blocks before the expiry. -/
def beforeExpiry (bs : List Locked) : List Locked :=
  bs.takeWhile fun b => !b.isExpiry

/-- The blocks before the first assignment. -/
def beforeAssignment (bs : List Locked) : List Locked :=
  bs.takeWhile fun b => b.assignment?.isNone

/-- The blocks after the first assignment. -/
def afterAssignment (bs : List Locked) : List Locked :=
  (bs.dropWhile fun b => b.assignment?.isNone).tail

/-- The accepted assignment: the first one before the expiry. -/
def accepted? (bs : List Locked) : Option Acceptance :=
  (beforeExpiry bs).findSome? assignment?

/-- The deliveries that are owed: by the accepted assignment to the handler registered last before
it, and by every registration between that assignment and the expiry to its handler. -/
def due (bs : List Locked) : List Delivery :=
  match accepted? bs with
  | none => []
  | some a =>
    (((beforeAssignment bs).filterMap registration?).getLast?.map fun h =>
      ⟨a.thread, a.number, h, a.resolution⟩).toList ++
    (afterAssignment (beforeExpiry bs)).filterMap (lateDelivery? a.resolution)

/-- A cell is what its blocks made of it. -/
structure Tracks (bs : List Locked) (x : Cell) : Prop where
  expired : x.expired = bs.any isExpiry
  result : x.result = (accepted? bs).map Acceptance.resolution
  handler : x.handler =
    if x.isSetOrExpired then none else (bs.filterMap registration?).getLast?

variable {bs : List Locked} {x : Cell}

theorem tracks_nil (hx : x.IsNew) : Tracks [] x where
  expired := hx.expired
  result := hx.result
  handler := by simp [hx.handler]

theorem Tracks.congr {y : Cell} (hx : Tracks bs x) (hexpired : y.expired = x.expired)
    (hresult : y.result = x.result) (hhandler : y.handler = x.handler) : Tracks bs y where
  expired := hexpired.trans hx.expired
  result := hresult.trans hx.result
  handler := by
    have hset : y.isSetOrExpired = x.isSetOrExpired := by
      simp only [Cell.isSetOrExpired, hresult, hexpired]
    rw [hset, hhandler, hx.handler]

/-! ### What one more block changes -/

private theorem beforeExpiry_of_any_eq_false (h : bs.any isExpiry = false) :
    beforeExpiry bs = bs :=
  List.takeWhile_eq_self_iff.mpr (by simpa using h)

private theorem beforeExpiry_append_of_any (h : bs.any isExpiry = true) (b : Locked) :
    beforeExpiry (bs ++ [b]) = beforeExpiry bs := by
  induction bs with
  | nil => simp at h
  | cons e bs ih =>
    cases he : e.isExpiry with
    | true => simp [beforeExpiry, he]
    | false =>
      have hbs : bs.any isExpiry = true := by simpa [he] using h
      simpa [beforeExpiry, he] using ih hbs

private theorem beforeExpiry_append_expire (t : ThreadId) (k : CallNumber) :
    beforeExpiry (bs ++ [⟨t, k, .expire⟩]) = beforeExpiry bs := by
  cases h : bs.any isExpiry with
  | true => exact beforeExpiry_append_of_any h _
  | false =>
    have hall : ∀ b ∈ bs, (!b.isExpiry) = true := by simpa using h
    rw [beforeExpiry_of_any_eq_false h, beforeExpiry, List.takeWhile_append_of_pos hall]
    simp [isExpiry]

private theorem beforeExpiry_append_of_live (h : bs.any isExpiry = false) {b : Locked}
    (hb : b.isExpiry = false) : beforeExpiry (bs ++ [b]) = bs ++ [b] :=
  beforeExpiry_of_any_eq_false (by simp [h, hb])

private theorem accepted?_of_live (h : bs.any isExpiry = false) :
    accepted? bs = bs.findSome? assignment? := by
  rw [accepted?, beforeExpiry_of_any_eq_false h]

private theorem accepted?_append_of_live (h : bs.any isExpiry = false) {b : Locked}
    (hb : b.isExpiry = false) : accepted? (bs ++ [b]) = (accepted? bs).or b.assignment? := by
  rw [accepted?_of_live h, accepted?, beforeExpiry_append_of_live h hb, List.findSome?_append]
  cases ha : b.assignment? <;> simp [ha]

private theorem accepted?_append_of_any (h : bs.any isExpiry = true) (b : Locked) :
    accepted? (bs ++ [b]) = accepted? bs := by
  rw [accepted?, beforeExpiry_append_of_any h, accepted?]

private theorem any_isSome_of_accepted? {a : Acceptance} (h : accepted? bs = some a) :
    ∃ b ∈ bs, b.assignment? = some a := by
  obtain ⟨b, hb, ha⟩ := List.exists_of_findSome?_eq_some h
  exact ⟨b, (List.takeWhile_prefix _).subset hb, ha⟩

private theorem not_all_isNone {a : Acceptance} (h : accepted? bs = some a) :
    ¬ ∀ b ∈ bs, b.assignment?.isNone = true := by
  obtain ⟨b, hb, ha⟩ := any_isSome_of_accepted? h
  intro hall
  simpa [ha] using hall b hb

/-- Once an assignment is accepted, later blocks do not come before it. -/
private theorem beforeAssignment_append {a : Acceptance} (h : accepted? bs = some a)
    (cs : List Locked) : beforeAssignment (bs ++ cs) = beforeAssignment bs := by
  have hnot := not_all_isNone h
  rw [beforeAssignment, List.takeWhile_append, if_neg]
  · rfl
  · intro hlen
    exact hnot (List.takeWhile_eq_self_iff.mp ((List.takeWhile_prefix _).eq_of_length hlen))

private theorem afterAssignment_append {a : Acceptance} (h : accepted? bs = some a)
    (cs : List Locked) : afterAssignment (bs ++ cs) = afterAssignment bs ++ cs := by
  have hne : (bs.dropWhile fun b => b.assignment?.isNone) ≠ [] := by
    rw [Ne, List.dropWhile_eq_nil_iff]
    exact not_all_isNone h
  rw [afterAssignment, List.dropWhile_append, if_neg (by simpa using hne),
    List.tail_append_of_ne_nil hne]
  rfl

/-- A block that comes after the expiry, or that is one, owes nothing. -/
private theorem due_append_of_beforeExpiry {b : Locked}
    (h : beforeExpiry (bs ++ [b]) = beforeExpiry bs) : due (bs ++ [b]) = due bs := by
  have hacc : accepted? (bs ++ [b]) = accepted? bs := by simp only [accepted?, h]
  cases ha : accepted? bs with
  | none => simp only [due, hacc, ha]
  | some a => simp only [due, hacc, ha, h, beforeAssignment_append ha]

private theorem due_append_of_accepted {a : Acceptance} (hlive : bs.any isExpiry = false)
    (ha : accepted? bs = some a) {b : Locked} (hb : b.isExpiry = false) :
    due (bs ++ [b]) = due bs ++ (lateDelivery? a.resolution b).toList := by
  have hacc : accepted? (bs ++ [b]) = some a := by
    rw [accepted?_append_of_live hlive hb, ha, Option.some_or]
  simp only [due, hacc, ha, beforeAssignment_append ha, beforeExpiry_append_of_live hlive hb,
    beforeExpiry_of_any_eq_false hlive, afterAssignment_append ha, List.filterMap_append,
    List.append_assoc]
  cases hl : lateDelivery? a.resolution b <;> simp [hl]

private theorem all_isNone_of_accepted? (hlive : bs.any isExpiry = false)
    (ha : accepted? bs = none) : ∀ b ∈ bs, b.assignment?.isNone = true := by
  rw [accepted?_of_live hlive, List.findSome?_eq_none_iff] at ha
  simpa using ha

private theorem due_append_assign (hlive : bs.any isExpiry = false) (ha : accepted? bs = none)
    (t : ThreadId) (k : CallNumber) (r : Resolution) :
    due (bs ++ [⟨t, k, .assign r⟩]) =
      ((bs.filterMap registration?).getLast?.map fun h => ⟨t, k, h, r⟩).toList := by
  have hall := all_isNone_of_accepted? hlive ha
  have hb : (⟨t, k, .assign r⟩ : Locked).isExpiry = false := rfl
  have hacc : accepted? (bs ++ [⟨t, k, .assign r⟩]) = some ⟨t, k, r⟩ := by
    rw [accepted?_append_of_live hlive hb, ha, Option.none_or]
    rfl
  simp only [due, hacc, beforeExpiry_append_of_live hlive hb, beforeAssignment, afterAssignment,
    List.takeWhile_append_of_pos hall, List.dropWhile_append_of_pos hall]
  simp [assignment?]

/-! ### A handler that is registered once -/

section RegisteredOnce

variable {pre post : List Locked} {b : Locked} {h : Handler} {a : Acceptance}

private theorem filter_lateDelivery? (hbs : ∀ x ∈ bs, x.registration? ≠ some h) (r : Resolution) :
    (bs.filterMap (lateDelivery? r)).filter (fun d => d.handler = h) = [] := by
  rw [List.filter_eq_nil_iff]
  intro d hd hh
  obtain ⟨x, hx, hl⟩ := List.mem_filterMap.mp hd
  obtain ⟨h', hr, rfl⟩ := Option.map_eq_some_iff.mp hl
  exact hbs x hx (hr.trans (congrArg some (of_decide_eq_true hh)))

private theorem getLast?_registration?_ne (hbs : ∀ x ∈ bs, x.registration? ≠ some h) :
    (bs.filterMap registration?).getLast? ≠ some h := by
  intro hl
  obtain ⟨x, hx, hr⟩ := List.mem_filterMap.mp (List.mem_of_getLast? hl)
  exact hbs x hx hr

/-- A handler that one block registers before the expiry, and that no other block replaces before
the acceptance, is owed the accepted resolution exactly once. -/
theorem exists_filter_due_eq (hb : b.registration? = some h)
    (hpre : ∀ x ∈ pre, x.registration? ≠ some h) (hpost : ∀ x ∈ post, x.registration? ≠ some h)
    (hlive : pre.any isExpiry = false) (ha : accepted? (pre ++ b :: post) = some a)
    (hkept : (accepted? pre).isSome ∨ (beforeAssignment post).filterMap registration? = []) :
    ∃ t k, (due (pre ++ b :: post)).filter (fun d => d.handler = h) =
      [⟨t, k, h, a.resolution⟩] := by
  have hexpiry : b.isExpiry = false ∧ b.assignment? = none := by
    obtain ⟨t, k, b⟩ := b
    cases b <;> simp_all [isExpiry, assignment?, registration?]
  have hbefore : beforeExpiry (pre ++ b :: post) = pre ++ b :: beforeExpiry post := by
    rw [beforeExpiry, List.takeWhile_append_of_pos (by simpa using hlive)]
    simp [hexpiry.1, beforeExpiry]
  have hsub : ∀ x ∈ beforeExpiry post, x.registration? ≠ some h := fun x hx =>
    hpost x ((List.takeWhile_prefix _).subset hx)
  cases hp : accepted? pre with
  | some a' =>
    have hnot := not_all_isNone hp
    have hold : ∀ x ∈ beforeAssignment pre, x.registration? ≠ some h := fun x hx =>
      hpre x ((List.takeWhile_prefix _).subset hx)
    have hlate : ∀ x ∈ afterAssignment pre, x.registration? ≠ some h := fun x hx =>
      hpre x ((List.dropWhile_suffix _).subset (List.mem_of_mem_tail hx))
    have hnone : (((beforeAssignment pre).filterMap registration?).getLast?.map fun h' =>
        (⟨a.thread, a.number, h', a.resolution⟩ : Delivery)).toList.filter
          (fun d => d.handler = h) = [] := by
      have hne := getLast?_registration?_ne hold
      cases hl : ((beforeAssignment pre).filterMap registration?).getLast? with
      | none => rfl
      | some h' =>
        have hh : h' ≠ h := fun he => hne (he ▸ hl)
        simp [hh]
    refine ⟨b.thread, b.number, ?_⟩
    simp only [due, ha, hbefore, beforeAssignment_append hp, afterAssignment_append hp,
      List.filter_append, List.filterMap_append, filter_lateDelivery? hlate, hnone]
    simp [lateDelivery?, hb, filter_lateDelivery? hsub]
  | none =>
    have hall := all_isNone_of_accepted? hlive hp
    have hfirst : beforeAssignment (pre ++ b :: post) = pre ++ b :: beforeAssignment post := by
      rw [beforeAssignment, List.takeWhile_append_of_pos hall]
      simp [hexpiry.2, beforeAssignment]
    have hlast : afterAssignment (pre ++ b :: beforeExpiry post) =
        afterAssignment (beforeExpiry post) := by
      rw [afterAssignment, List.dropWhile_append_of_pos hall]
      simp [hexpiry.2, afterAssignment]
    have hmost : (beforeAssignment post).filterMap registration? = [] := by
      rcases hkept with hkept | hkept
      · simp [hp] at hkept
      · exact hkept
    have hafter : ∀ x ∈ afterAssignment (beforeExpiry post), x.registration? ≠ some h :=
      fun x hx => hsub x ((List.dropWhile_suffix _).subset (List.mem_of_mem_tail hx))
    refine ⟨a.thread, a.number, ?_⟩
    simp only [due, ha, hbefore, hfirst, hlast, List.filter_append,
      filter_lateDelivery? hafter]
    simp [hb, hmost]

end RegisteredOnce

/-! ### The transitions of a cell follow its blocks -/

variable (hx : Tracks bs x) (t : ThreadId) (k : CallNumber)

include hx

private theorem accepted?_eq_none (h : x.result = none) : accepted? bs = none :=
  Option.map_eq_none_iff.mp (hx.result.symm.trans h)

private theorem exists_accepted? {r : Resolution} (h : x.result = some r) :
    ∃ a, accepted? bs = some a ∧ a.resolution = r :=
  Option.map_eq_some_iff.mp (hx.result.symm.trans h)

theorem tracks_register (h : Handler) :
    Tracks (bs ++ [⟨t, k, .register h⟩]) (x.register h).1 := by
  have hb : (⟨t, k, .register h⟩ : Locked).isExpiry = false := rfl
  have hacc : accepted? (bs ++ [⟨t, k, .register h⟩]) = accepted? bs := by
    cases hlive : bs.any isExpiry with
    | true => exact accepted?_append_of_any hlive _
    | false => exact (accepted?_append_of_live hlive hb).trans (Option.or_none ..)
  refine ⟨?_, ?_, ?_⟩
  · rw [Cell.register_fst_expired, hx.expired, List.any_append]
    simp [hb]
  · rw [Cell.register_fst_result, hx.result, hacc]
  · have hold := hx.handler
    cases he : x.expired with
    | true => simpa [Cell.register, he, Cell.isSetOrExpired] using hold
    | false =>
      cases hr : x.result with
      | none => simp [Cell.register, he, hr, Cell.isSetOrExpired, registration?]
      | some r => simpa [Cell.register, he, hr, Cell.isSetOrExpired] using hold

theorem tracks_assign (r : Resolution) :
    Tracks (bs ++ [⟨t, k, .assign r⟩]) (x.assign r).1 := by
  have hb : (⟨t, k, .assign r⟩ : Locked).isExpiry = false := rfl
  refine ⟨?_, ?_, ?_⟩
  · rw [Cell.assign_fst_expired, hx.expired, List.any_append]
    simp [hb]
  · rw [Cell.assign_fst_result]
    cases he : x.expired with
    | true => simp [Cell.isSetOrExpired, he, accepted?_append_of_any (hx.expired ▸ he), hx.result]
    | false =>
      rw [accepted?_append_of_live (hx.expired ▸ he) hb]
      cases hr : x.result with
      | none => simp [Cell.isSetOrExpired, he, hr, accepted?_eq_none hx hr, assignment?]
      | some r' =>
        obtain ⟨a, ha, hres⟩ := exists_accepted? hx hr
        simp [Cell.isSetOrExpired, hr, ha, hres]
  · have hold := hx.handler
    cases hs : x.isSetOrExpired with
    | true => simpa [Cell.assign, hs] using hold
    | false =>
      have ha : (x.assign r).1 = { x with result := some r, handler := none } := by
        simp [Cell.assign, hs]
      simp [ha, Cell.isSetOrExpired]

theorem tracks_expire : Tracks (bs ++ [⟨t, k, .expire⟩]) x.expire.1 := by
  refine ⟨?_, ?_, ?_⟩
  · simp [isExpiry]
  · rw [Cell.expire_fst_result, hx.result, accepted?, accepted?, beforeExpiry_append_expire]
  · have hold := hx.handler
    cases he : x.expired with
    | true => simpa [Cell.expire, he, Cell.isSetOrExpired] using hold
    | false => simp [Cell.expire, he, Cell.isSetOrExpired]

/-- A registration is owed the resolution if it finds one in a cell that has not expired. -/
theorem due_register (h : Handler) :
    due (bs ++ [⟨t, k, .register h⟩]) = due bs ++ (match (x.register h).2 with
      | .deliver r => [⟨t, k, h, r⟩]
      | _ => []) := by
  have hb : (⟨t, k, .register h⟩ : Locked).isExpiry = false := rfl
  cases he : x.expired with
  | true =>
    rw [due_append_of_beforeExpiry (beforeExpiry_append_of_any (hx.expired ▸ he) _)]
    simp [Cell.register, he]
  | false =>
    have hlive : bs.any isExpiry = false := hx.expired ▸ he
    cases hr : x.result with
    | none =>
      have hacc : accepted? (bs ++ [⟨t, k, .register h⟩]) = none := by
        rw [accepted?_append_of_live hlive hb, accepted?_eq_none hx hr]
        rfl
      simp [due, hacc, accepted?_eq_none hx hr, Cell.register, he, hr]
    | some r =>
      obtain ⟨a, ha, hres⟩ := exists_accepted? hx hr
      rw [due_append_of_accepted hlive ha hb]
      simp [Cell.register, he, hr, lateDelivery?, registration?, hres]

/-- An accepted assignment is owed to the handler that waits for it. -/
theorem due_assign (r : Resolution) :
    due (bs ++ [⟨t, k, .assign r⟩]) = due bs ++ (match (x.assign r).2 with
      | .accepted (some h) => [⟨t, k, h, r⟩]
      | _ => []) := by
  have hb : (⟨t, k, .assign r⟩ : Locked).isExpiry = false := rfl
  cases he : x.expired with
  | true =>
    rw [due_append_of_beforeExpiry (beforeExpiry_append_of_any (hx.expired ▸ he) _)]
    simp [Cell.assign, Cell.isSetOrExpired, he]
  | false =>
    have hlive : bs.any isExpiry = false := hx.expired ▸ he
    cases hr : x.result with
    | none =>
      have ha := accepted?_eq_none hx hr
      have hset : x.isSetOrExpired = false := by simp [Cell.isSetOrExpired, hr, he]
      have hh : (bs.filterMap registration?).getLast? = x.handler := by simp [hx.handler, hset]
      rw [due_append_assign hlive ha, hh]
      cases hc : x.handler <;> simp [due, ha, Cell.assign, hset, hc]
    | some r' =>
      obtain ⟨a, ha, -⟩ := exists_accepted? hx hr
      rw [due_append_of_accepted hlive ha hb]
      simp [Cell.assign, Cell.isSetOrExpired, hr, lateDelivery?, registration?]

omit hx in
theorem due_expire : due (bs ++ [⟨t, k, .expire⟩]) = due bs :=
  due_append_of_beforeExpiry (beforeExpiry_append_expire t k)

/-- The accepted assignment is the one that the cell took. -/
theorem accepted?_assign (r : Resolution) :
    (accepted? (bs ++ [⟨t, k, .assign r⟩])).toList =
      (accepted? bs).toList ++ (match (x.assign r).2 with
        | .accepted _ => [⟨t, k, r⟩]
        | .rejected => []) := by
  have hb : (⟨t, k, .assign r⟩ : Locked).isExpiry = false := rfl
  cases he : x.expired with
  | true =>
    rw [accepted?_append_of_any (hx.expired ▸ he)]
    simp [Cell.assign, Cell.isSetOrExpired, he]
  | false =>
    rw [accepted?_append_of_live (hx.expired ▸ he) hb]
    cases hr : x.result with
    | none => simp [accepted?_eq_none hx hr, assignment?, Cell.assign, Cell.isSetOrExpired, hr, he]
    | some r' =>
      obtain ⟨a, ha, -⟩ := exists_accepted? hx hr
      simp [ha, Cell.assign, Cell.isSetOrExpired, hr]

omit hx in
/-- Only an assignment is accepted. -/
theorem accepted?_append {b : Locked} (h : b.assignment? = none) :
    accepted? (bs ++ [b]) = accepted? bs := by
  cases hb : b.isExpiry with
  | true =>
    obtain ⟨t, k, b⟩ := b
    cases b with
    | expire => rw [accepted?, accepted?, beforeExpiry_append_expire]
    | _ => simp [isExpiry] at hb
  | false =>
    cases hlive : bs.any isExpiry with
    | true => exact accepted?_append_of_any hlive _
    | false => rw [accepted?_append_of_live hlive hb, h, Option.or_none]

end Locked

end Rendezvous
