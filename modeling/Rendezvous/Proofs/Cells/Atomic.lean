import Rendezvous.Proofs.Threads.Transition

/-!
# Atomic cells

A cell looks before it locks. A registration looks whether the cell has expired, an assignment looks
for a resolution and for expiry, and only then do they enter the block that decides; whether a cell
is set or expired takes two looks. An atomic cell has no such looks: each of its operations is one
step, which reads and writes the cell and decides on the delivery.

Both kinds of cell live in the same world and serve the same calls. What can be seen of a run is
how operations leave cells and the deliveries they decide on, together with everything that happens
outside of operations: the beginnings and ends of calls, the calls of user code and their answers,
and every step of a request or a coordinator. An operation that leaves its cell as it is and decides
on no delivery is seen by what it returns only.

## Main definitions

* `Point.atomicStep`, `System.takeAtomic?`: the steps and the moves with atomic cells.
* `Point.entry`, `Activation.IsWhole`: where an operation begins, and whether a call stands within
  none.
* `Sight`, `Event.sight?` and `System.Shows`: what is seen of a run.
* `World.Agrees`: worlds whose cells are the same when they are looked up.

## Main results

* `World.Agrees.next_step`, `World.Agrees.world_step`: steps do not tell such worlds apart.
-/

namespace Rendezvous

/-! ### Atomic operations -/

/-- The step at a point where an operation of a cell is one step. -/
def Point.atomicStep (w : World) : Point → Effect
  | .cell c (.checkRegister h) => (Point.cell c (.register h)).step w
  | .cell c (.checkResult r) => (Point.cell c (.assign r)).step w
  | .cell c (.ask q) => { world := w, next := .ret ((w.cell c).answer q) }
  | p => p.step w

/-- What a move leads to with atomic cells, unless it cannot be made. -/
def System.takeAtomic? (s : System) : Move → Option System
  | .advance t => do
    let (newer, x, older) ← innermost? t s.ongoing
    match x.activation.control with
    | .ready p =>
      if p.isEnabled s.world then
        let e := p.atomicStep s.world
        some (s.proceed newer x older e.world (.follow x.activation.frames e.next) (.step p e.next))
      else none
    | _ => s.take? (.advance t)
  | m => s.take? m

/-- The point at which an operation begins, for the points within it. -/
def Point.entry : Point → Point
  | .cell c (.register h) => .cell c (.checkRegister h)
  | .cell c (.checkExpired r) | .cell c (.assign r) => .cell c (.checkResult r)
  | .cell c .askExpired => .cell c (.ask .isSetOrExpired)
  | p => p

/-- The place at which an operation begins, for the places within it. -/
def Control.entry : Control → Control
  | .ready p => .ready p.entry
  | k => k

/-- Whether a call stands within no operation of a cell. -/
def Activation.IsWhole (a : Activation) : Prop :=
  a.control.entry = a.control

/-! ### What is seen -/

/-- What the operations of a cell read and write. -/
structure Slot where
  result : Option Resolution
  expired : Bool
  handler : Option Handler

/-- The slot of a cell. -/
def Cell.slot (c : Cell) : Slot :=
  ⟨c.result, c.expired, c.handler⟩

/-- The cell of an operation, for the points at which it takes its steps. -/
def Point.operand? : Point → Option CellId
  | .cell c (.checkRegister _) | .cell c (.register _) | .cell c (.checkResult _)
  | .cell c (.checkExpired _) | .cell c (.assign _) | .cell c .expire | .cell c (.ask _)
  | .cell c .askExpired => some c
  | _ => none

/-- The cell of an operation that takes a step. -/
def Deed.operand? : Deed → Option CellId
  | .step p _ => p.operand?
  | _ => none

/-- The handler and the resolution that go with a decision to deliver. -/
def Next.delivery? : Next → Option (Handler × Resolution)
  | .goto (.cell _ (.deliver h r _)) => some (h, r)
  | _ => none

/-- The delivery that a deed decides on. -/
def Deed.delivery? : Deed → Option (Handler × Resolution)
  | .step _ n => n.delivery?
  | _ => none

/-- What is seen of a move. -/
inductive Sight where
  /-- A request is made without a coordinator. -/
  | make (m : Move)
  /-- An operation of a call leaves a cell with this slot, and decides on this delivery. -/
  | operation (t : ThreadId) (k : CallNumber) (c : CellId) (x : Slot)
    (delivery : Option (Handler × Resolution))
  /-- Something happens outside of the operations. -/
  | event (e : Event)

open Classical in
/-- What is seen of a step that an operation of a call takes, by the slot of its cell before and
after. -/
noncomputable def Sight.ofOperation? (t : ThreadId) (k : CallNumber) (c : CellId) (x x' : Slot)
    (delivery : Option (Handler × Resolution)) : Option Sight :=
  if x' = x ∧ delivery = none then none else some (.operation t k c x' delivery)

/-- What is seen of an event between two worlds. -/
noncomputable def Event.sight? (w w' : World) (e : Event) : Option Sight :=
  match e.deed.operand? with
  | none => some (.event e)
  | some c =>
    Sight.ofOperation? e.thread e.number c (w.cell c).slot (w'.cell c).slot e.deed.delivery?

namespace System

/-- What is seen of a move that leads from one system to another. -/
noncomputable def sight? (s s' : System) (m : Move) : Option Sight :=
  match s'.history.drop s.history.length with
  | [] => some (.make m)
  | e :: _ => e.sight? s.world s'.world

/-- Whether moves, as the first argument makes them, lead from a world to a system and show these
sights on the way. -/
inductive Shows (take : System → Move → Option System) (w : World) : List Sight → System → Prop
  | start : Shows take w [] { world := w }
  | move {seen : List Sight} {s s' : System} (m : Move) (h : Shows take w seen s)
      (ht : take s m = some s') : Shows take w (seen ++ (s.sight? s' m).toList) s'

theorem Shows.move_of_sight {take : System → Move → Option System} {w : World}
    {seen : List Sight} {s s' : System} {m : Move} {v : Option Sight} (h : Shows take w seen s)
    (ht : take s m = some s') (hv : s.sight? s' m = v) : Shows take w (seen ++ v.toList) s' :=
  hv ▸ .move m h ht

theorem sight?_of_history {s s' : System} {m : Move} {e : Event}
    (h : s'.history = s.history ++ [e]) : s.sight? s' m = e.sight? s.world s'.world := by
  simp [sight?, h]

end System

/-! ### Worlds that agree -/

/-- Whether two worlds differ at most in how their cells are stored. -/
structure World.Agrees (w w' : World) : Prop where
  cell (c : CellId) : w.cell c = w'.cell c
  rest : w' = { w with cells := w'.cells }

namespace World.Agrees

variable {w w' : World} {p : Point}

theorem refl (w : World) : w.Agrees w := ⟨fun _ => rfl, rfl⟩

theorem symm (h : w.Agrees w') : w'.Agrees w where
  cell c := (h.cell c).symm
  rest := by rw [h.rest]

theorem trans {w'' : World} (h : w.Agrees w') (h' : w'.Agrees w'') : w.Agrees w'' where
  cell c := (h.cell c).trans (h'.cell c)
  rest := by rw [h'.rest, h.rest]

/-- A cell that is stored as it is found changes nothing. -/
theorem setCell_self (w : World) (c : CellId) : w.Agrees (w.setCell c (w.cell c)) where
  cell d := by
    rw [cell_setCell]
    split
    · simp [*]
    · rfl
  rest := rfl

private theorem of_cells {t t' : Table Cell} (w : World) (h : ∀ c, t.get c = t'.get c) :
    ({ w with cells := t } : World).Agrees { w with cells := t' } :=
  ⟨h, rfl⟩

theorem setCell (h : w.Agrees w') (c : CellId) {x y : Cell} (hx : x = y) :
    (w.setCell c x).Agrees (w'.setCell c y) := by
  subst hx
  rw [h.rest]
  refine of_cells w fun d => ?_
  simp [Table.get_set, show w.cells.get d = w'.cells.get d from h.cell d]

theorem request (h : w.Agrees w') (q : RequestId) : w.request q = w'.request q := by
  rw [h.rest]
  rfl

theorem coordinator (h : w.Agrees w') (k : CoordinatorId) :
    w.coordinator k = w'.coordinator k := by
  rw [h.rest]
  rfl

theorem requestCount (h : w.Agrees w') : w.requestCount = w'.requestCount := by
  rw [h.rest]

theorem timers (h : w.Agrees w') : w.timers = w'.timers := by
  rw [h.rest]

theorem clock (h : w.Agrees w') : w.clock = w'.clock := by
  rw [h.rest]

theorem setRequest (h : w.Agrees w') (q : RequestId) {x y : Request} (hx : x = y) :
    (w.setRequest q x).Agrees (w'.setRequest q y) := by
  rw [hx, h.rest]
  exact ⟨h.cell, rfl⟩

theorem setCoordinator (h : w.Agrees w') (k : CoordinatorId) {x y : Coordinator} (hx : x = y) :
    (w.setCoordinator k x).Agrees (w'.setCoordinator k y) := by
  rw [hx, h.rest]
  exact ⟨h.cell, rfl⟩

theorem addRequest (h : w.Agrees w') {x y : Request} (hx : x = y) :
    (w.addRequest x).1.Agrees (w'.addRequest y).1 := by
  rw [hx, h.rest]
  exact ⟨h.cell, rfl⟩

theorem arm (h : w.Agrees w') (q : RequestId) : (w.arm q).Agrees (w'.arm q) := by
  rw [h.rest]
  exact ⟨h.cell, rfl⟩

theorem cancel (h : w.Agrees w') (q : RequestId) : (w.cancel q).Agrees (w'.cancel q) := by
  unfold World.cancel
  rw [h.request]
  split
  · exact h
  · rw [h.rest]
    exact ⟨h.cell, rfl⟩

theorem fire (h : w.Agrees w') (t : Timer) : (w.fire t).Agrees (w'.fire t) := by
  rw [h.rest]
  exact ⟨h.cell, rfl⟩

/-! ### Steps do not tell them apart -/

theorem isEnabled (h : w.Agrees w') (p : Point) : p.isEnabled w = p.isEnabled w' := by
  unfold Point.isEnabled
  split
  · rw [h.request]
  · rfl

theorem next_step (h : w.Agrees w') (p : Point) : (p.step w).next = (p.step w').next := by
  rcases p with ⟨c, p⟩ | ⟨q, p⟩ | ⟨k, p⟩
  · cases p with
    | ask x => cases x <;> simp only [Point.step, CellPoint.step, h.cell]
    | _ => simp only [Point.step, CellPoint.step, h.cell]
  · cases p with
    | arm =>
      simp only [Point.step, RequestPoint.step, h.request, h.clock]
      split
      · rfl
      · split <;> rfl
    | complete =>
      simp only [Point.step, RequestPoint.step, h.request]
      split <;> rfl
    | tellListener =>
      simp only [Point.step, RequestPoint.step, h.request]
      split <;> rfl
    | _ => simp only [Point.step, RequestPoint.step, h.request, h.cell]
  · cases p with
    | draw c d extra =>
      exact congrArg (fun q => Next.goto (.coordinator k (.activate q))) h.requestCount
    | activate q =>
      simp only [Point.step, CoordinatorPoint.step, h.request, h.coordinator, h.cell]
      split <;> rfl
    | _ => simp only [Point.step, CoordinatorPoint.step, h.request, h.coordinator, h.cell]

theorem world_step (h : w.Agrees w') (p : Point) : (p.step w).world.Agrees (p.step w').world := by
  have hmodify (c : CellId) (f : Cell → Cell) :
      (w.setCell c (f (w.cell c))).Agrees (w'.setCell c (f (w'.cell c))) :=
    h.setCell c (congrArg f (h.cell c))
  have hmodify' (q : RequestId) (f : Request → Request) :
      (w.modifyRequest q f).Agrees (w'.modifyRequest q f) :=
    h.setRequest q (congrArg f (h.request q))
  rcases p with ⟨c, p⟩ | ⟨q, p⟩ | ⟨k, p⟩
  · cases p with
    | register g => exact hmodify c fun x => (x.register g).1
    | assign r => exact hmodify c fun x => (x.assign r).1
    | expire => exact hmodify c fun x => x.expire.1
    | setCallback slot id => exact hmodify c fun x => x.setCallback slot id
    | ask x => cases x <;> exact h
    | _ => exact h
  · cases p with
    | arm =>
      simp only [Point.step, RequestPoint.step, h.request, h.clock]
      split
      · exact h
      · split
        · exact h
        · exact h.arm q
    | record r => exact hmodify' q fun x => { x with resolution := x.resolution.or (some r) }
    | markTimeout => exact hmodify' q fun x => { x with timedOut := true }
    | complete =>
      simp only [Point.step, RequestPoint.step, h.request]
      split
      · exact h
      · exact hmodify' q fun x => { x with completed := true }
    | cancelTimer => exact h.cancel q
    | tellListener =>
      simp only [Point.step, RequestPoint.step, h.request]
      split <;> exact h
    | release => exact hmodify' q fun x => { x with released := true }
    | _ => exact h
  · cases p with
    | draw c d extra =>
      refine (h.setCoordinator k ?_).addRequest ?_ <;> simp only [h.coordinator, h.cell]
    | activate q =>
      simp only [Point.step, CoordinatorPoint.step, h.request, h.coordinator]
      split
      · exact h
      · exact h.setCoordinator k rfl
    | retire q =>
      simp only [Point.step, CoordinatorPoint.step, h.request, h.coordinator]
      split
      · exact h.setCoordinator k rfl
      · exact h
    | _ => exact h

end World.Agrees

end Rendezvous
