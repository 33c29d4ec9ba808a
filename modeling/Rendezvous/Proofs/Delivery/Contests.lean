import Mathlib
import Rendezvous.Contest

/-!
# How contests end

The first setter that takes its turn is accepted, and the cell holds what it brought from then on:
all later setters are rejected. The handler is called once, with what the cell holds, whether it has
waited for that or finds it there.

## Main definitions

* `Contest.Brings`: a call is a setter of the cell, and what it brings is a text.
* `Contest.Standing.IsOpen`, `Contest.Standing.IsDecided`: standings before and after the first
  setter.

## Main results

* `Contest.turn_of_isOpen`, `Contest.turn_of_isDecided`: what becomes of the first setter and of a
  later one.
* `Contest.hold_of_pos`, `Contest.hold_of_eq_zero`: how a contest ends with setters, and without.
-/

namespace Rendezvous.Contest

/-- Whether a call is a setter of cell 0 that brings a text. -/
def Brings (call : Call) (text : String) : Prop :=
  ∃ r, call.control = .ready (.cell 0 (.checkResult r)) ∧ text? r.payload = some text

/-- Whether no setter has taken its turn yet. The handler may wait already. -/
structure Standing.IsOpen (s : Standing) (waits : Bool) : Prop where
  result : (s.world.cell 0).result = none
  expired : (s.world.cell 0).expired = false
  handler : (s.world.cell 0).handler = if waits then some (.callback "handler") else none
  winners : s.winners = []
  rejected : s.rejected = 0
  received : s.received = []

/-- Whether a text has won. The handler may have been called with it already. -/
structure Standing.IsDecided (s : Standing) (text : String) (called : Bool) (rejected : Nat) :
    Prop where
  result : ∃ r, (s.world.cell 0).result = some r ∧ text? r.payload = some text
  expired : (s.world.cell 0).expired = false
  winners : s.winners = [text]
  rejected : s.rejected = rejected
  received : s.received = if called then [text] else []

variable {s : Standing} {call : Call} {text held : String} {waits called : Bool} {n : Nat}
  {ts : List (Call × String)}

/-! ### The handler -/

/-- A handler that comes first waits. -/
theorem register_of_isOpen (hs : s.IsOpen false) : (register s).IsOpen true := by
  have hregister : register s = { s with
      world := s.world.setCell 0
        { s.world.cell 0 with handler := some (.callback "handler") } } := by
    simp [register, turn, Call.activation, Call.control, Activation.runAlone, Activation.step?,
      Point.isEnabled, Point.step, CellPoint.step, Cell.register, hs.result, hs.expired,
      Activation.follow, Next.ret]
  rw [hregister]
  exact ⟨by simp [hs.result], by simp [hs.expired], by simp, hs.winners, hs.rejected, hs.received⟩

/-- A handler that comes late is called at once with what the cell holds. -/
theorem register_of_isDecided (hs : s.IsDecided held false n) :
    (register s).IsDecided held true n := by
  obtain ⟨r, hresult, htext⟩ := hs.result
  have hregister : register s = { s with
      world := s.world.setCell 0 (s.world.cell 0), received := s.received ++ [held] } := by
    simp [register, turn, Call.activation, Call.control, Activation.runAlone, Activation.step?,
      Point.isEnabled, Point.step, CellPoint.step, Cell.register, hresult, hs.expired,
      Activation.follow, Next.ret, Activation.conclude, Frame.resume, CellFrame.resume, contain,
      htext]
  rw [hregister]
  exact ⟨⟨r, by simp [hresult], htext⟩, by simp [hs.expired], hs.winners, hs.rejected,
    by simp [hs.received]⟩

/-! ### Setters -/

/-- The first setter is accepted, and a handler that waits is called with what it brings. -/
theorem turn_of_isOpen (hb : Brings call text) (hs : s.IsOpen waits) :
    (turn s call (some text)).IsDecided text waits 0 := by
  obtain ⟨r, hcontrol, htext⟩ := hb
  have hassign : (s.world.cell 0).assign r =
      ({ s.world.cell 0 with result := some r, handler := none },
        .accepted (if waits then some (.callback "handler") else none)) := by
    simp [Cell.assign, Cell.isSetOrExpired, hs.result, hs.expired, hs.handler]
  have hturn : turn s call (some text) = { s with
      world := s.world.setCell 0 { s.world.cell 0 with result := some r, handler := none }
      winners := s.winners ++ [text]
      received := s.received ++ if waits then [text] else [] } := by
    cases waits <;> simp [turn, Call.activation, hcontrol, Activation.runAlone, Activation.step?,
      Point.isEnabled, Point.step, CellPoint.step, Cell.hasResult, hs.result, hs.expired, hassign,
      Activation.follow, Next.ret, Activation.conclude, Frame.resume, CellFrame.resume, contain,
      htext, Solo.answer?, Solo.outcome?, Activation.outcome?]
  rw [hturn]
  exact ⟨⟨r, by simp, htext⟩, by simp [hs.expired], by simp [hs.winners], hs.rejected,
    by simp [hs.received]⟩

/-- A later setter is rejected. -/
theorem turn_of_isDecided (hb : Brings call text) (hs : s.IsDecided held called n) :
    (turn s call (some text)).IsDecided held called (n + 1) := by
  obtain ⟨r, hcontrol, -⟩ := hb
  obtain ⟨x, hresult, hheld⟩ := hs.result
  have hturn : turn s call (some text) = { s with rejected := s.rejected + 1 } := by
    simp [turn, Call.activation, hcontrol, Activation.runAlone, Activation.step?, Point.isEnabled,
      Point.step, CellPoint.step, Cell.hasResult, hresult, Activation.follow, Solo.answer?,
      Solo.outcome?, Activation.outcome?, Next.ret]
  rw [hturn]
  exact ⟨⟨x, hresult, hheld⟩, hs.expired, hs.winners, congrArg (· + 1) hs.rejected, hs.received⟩

/-- All later setters are rejected. -/
theorem compete_of_isDecided (hts : ∀ x ∈ ts, Brings x.1 x.2) (hs : s.IsDecided held called n) :
    (compete s ts).IsDecided held called (n + ts.length) := by
  induction ts generalizing s n with
  | nil => exact hs
  | cons x ts ih =>
    obtain ⟨hx, hts⟩ := List.forall_mem_cons.mp hts
    rw [List.length_cons, ← Nat.add_assoc, Nat.add_right_comm]
    exact ih hts (turn_of_isDecided hx hs)

/-- Of several setters, the first one is accepted. -/
theorem compete_of_isOpen {x : Call × String} (hts : ∀ y ∈ x :: ts, Brings y.1 y.2)
    (hs : s.IsOpen waits) : (compete s (x :: ts)).IsDecided x.2 waits ts.length := by
  obtain ⟨hx, hts⟩ := List.forall_mem_cons.mp hts
  exact Nat.zero_add ts.length ▸ compete_of_isDecided hts (turn_of_isOpen hx hs)

/-! ### Contests -/

/-- What is counted when a text has won. -/
theorem Standing.IsDecided.result_eq (hs : s.IsDecided held called n) :
    s.result = ⟨1, n, if called then 1 else 0, true, called⟩ := by
  obtain ⟨r, hresult, htext⟩ := hs.result
  have hstored : ((s.world.cell 0).getResult.bind text?).toList = [held] := by
    simp [Cell.getResult, hresult, htext]
  cases called <;> simp [Standing.result, hstored, hs.winners, hs.rejected, hs.received]

variable (c : Contest)

theorem length_setters : c.setters.length = c.values + c.errors := by
  simp [setters]

theorem brings_of_mem_setters {x : Call × String} (hx : x ∈ c.setters) : Brings x.1 x.2 := by
  rcases List.mem_append.mp hx with hx | hx
  · obtain ⟨i, -, rfl⟩ := List.mem_map.mp hx
    exact ⟨.value _, rfl, rfl⟩
  · obtain ⟨i, -, rfl⟩ := List.mem_map.mp hx
    exact ⟨.error _, rfl, rfl⟩

/-- Nobody has taken a turn when a contest begins. -/
private theorem isOpen_empty : ({} : Standing).IsOpen false :=
  ⟨rfl, rfl, rfl, rfl, rfl, rfl⟩

/-- Of all setters, exactly one is accepted, and the handler is called exactly once, with what that
one brought, whenever it comes. -/
theorem hold_of_pos (h : 0 < c.values + c.errors) : c.hold =
    { accepted := 1
      rejected := c.values + c.errors - 1
      handlerCalls := if c.entrance = .never then 0 else 1
      storedIsWinner := true
      handlerSawStored := c.entrance != .never } := by
  have hlength := c.length_setters
  have hbrings : ∀ x ∈ c.setters, Brings x.1 x.2 := fun _ => c.brings_of_mem_setters
  rw [← hlength] at h ⊢
  obtain ⟨x, ts, hsetters⟩ := List.exists_cons_of_length_pos h
  rw [hold, hsetters, List.length_cons, Nat.add_sub_cancel]
  rw [hsetters] at hbrings
  cases c.entrance with
  | before => exact (compete_of_isOpen hbrings (register_of_isOpen isOpen_empty)).result_eq
  | among =>
    have hfirst : (compete {} [x]).IsDecided x.2 false 0 :=
      turn_of_isOpen (hbrings x List.mem_cons_self) isOpen_empty
    have hrest : ∀ y ∈ ts, Brings y.1 y.2 := fun y hy => hbrings y (List.mem_cons_of_mem x hy)
    have hend := (compete_of_isDecided hrest (register_of_isDecided hfirst)).result_eq
    rwa [Nat.zero_add] at hend
  | after => exact (register_of_isDecided (compete_of_isOpen hbrings isOpen_empty)).result_eq
  | never => exact (compete_of_isOpen hbrings isOpen_empty).result_eq

example : hold ⟨2, 3, .among⟩ = ⟨1, 4, 1, true, true⟩ := by decide +kernel

/-- Without setters, the handler is not called. -/
theorem hold_of_eq_zero (h : c.values + c.errors = 0) : c.hold = ⟨0, 0, 0, false, false⟩ := by
  obtain ⟨hvalues, herrors⟩ := Nat.add_eq_zero_iff.mp h
  have hsetters : c.setters = [] := by simp [setters, hvalues, herrors]
  rw [hold, hsetters]
  cases c.entrance <;> rfl

end Rendezvous.Contest
