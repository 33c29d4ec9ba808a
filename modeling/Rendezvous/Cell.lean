import Rendezvous.Payload

/-!
# Cells

A cell is a slot that is assigned at most once. A producer resolves it, a consumer registers the
handler that receives the resolution, and whichever of the two comes second finds the other one
there. Once a cell has expired it accepts neither.

Three transitions change the part of a cell that matters: a registration, an assignment, and an
expiry. Each is one indivisible step and answers with what the caller has to do next; the handler
itself is called after the step, never within it.

## Main definitions

* `Cell`, with the queries `hasResult`, `isSetOrExpired` and `getResult`.
* `Cell.register`, `Cell.assign`, `Cell.expire`: the transitions.
* `Cell.create`: a new cell, or the reason why its arguments contradict each other.
* `Cell.describe`: the text by which records show a cell.

## Main results

* `Cell.assign_fst_result`, `Cell.expire_fst_expired`: a resolution is never replaced, and expiry
  never undone.
* `Cell.Settled`: a handler is stored only in a cell that can still be resolved. Every transition
  keeps this (`settled_register`, `settled_assign`, `settled_expire`).
-/

namespace Rendezvous

/-- The name of a callback that the user supplied. -/
abbrev CallbackId := String

/-- The number of a cell. -/
abbrev CellId := Nat

/-- The number of a request. -/
abbrev RequestId := Nat

/-- The number of a coordinator. -/
abbrev CoordinatorId := Nat

/-- The receiver of a resolution. -/
inductive Handler where
  | callback (id : CallbackId)
  | request (id : RequestId)
  deriving DecidableEq, Repr

/-- What settles a request whose timeout fires first. -/
inductive Fallback where
  /-- A payload given in advance; the pending marker means that there is none. -/
  | fixed (p : Payload)
  /-- A callback that is asked when the timeout fires. -/
  | computed (id : CallbackId)

/-- A slot that is assigned at most once, with its timeout, callbacks and handler. -/
structure Cell where
  /-- The name of the cell's class. -/
  className : String := "DeferredResult"
  /-- The timeout of requests on the cell, if it has one of its own. -/
  timeoutMs : Option Nat := none
  fallback : Fallback := .fixed Payload.pending
  onTimeout : Option CallbackId := none
  onError : Option CallbackId := none
  onCompletion : Option CallbackId := none
  /-- The resolution, once there is one. -/
  result : Option Resolution := none
  /-- Whether the request on the cell is over. -/
  expired : Bool := false
  /-- The receiver that waits for the resolution. -/
  handler : Option Handler := none

namespace Cell

instance : Inhabited Cell := ⟨{}⟩

/-- A new cell. A timeout must not be negative, and a fallback is either fixed or computed. -/
def create (className : String) (timeoutMs : Option Int) (fixed : Payload)
    (computed : Option CallbackId) : Except Failure Cell := do
  match timeoutMs with
  | some n => if n < 0 then throw (Failure.negativeTimeout n)
  | none => pure ()
  if computed.isSome && !fixed.isPending then throw Failure.twoFallbacks
  return { className, timeoutMs := timeoutMs.map Int.toNat
           fallback := match computed with
             | some id => .computed id
             | none => .fixed fixed }

/-! ### Queries -/

/-- Whether the cell has a resolution. -/
def hasResult (c : Cell) : Bool :=
  c.result.isSome

/-- Whether the cell accepts nothing any more. -/
def isSetOrExpired (c : Cell) : Bool :=
  c.result.isSome || c.expired

/-- The payload of the resolution. -/
def getResult (c : Cell) : Option Payload :=
  c.result.map Resolution.payload

/-- The state of the slot in one word. -/
def stateName (c : Cell) : String :=
  match c.result with
  | none => "pending"
  | some r => if r.isError then "error" else "value"

/-- The text by which records show a cell. -/
def describe (c : Cell) : String :=
  c.className ++ "(state=" ++ c.stateName ++ (if c.expired then ",expired" else "") ++
    ", timeout_ms=" ++ (match c.timeoutMs with
      | some n => toString n
      | none => "None") ++ ")"

/-! ### Transitions -/

/-- What became of a registration. -/
inductive Registration where
  /-- The cell has expired and the handler is not kept. -/
  | ignored
  /-- The handler waits for the resolution. -/
  | stored
  /-- The resolution is there and the caller delivers it. -/
  | deliver (r : Resolution)

/-- Registers a handler. -/
def register (c : Cell) (h : Handler) : Cell × Registration :=
  if c.expired then (c, .ignored)
  else match c.result with
    | none => ({ c with handler := some h }, .stored)
    | some r => (c, .deliver r)

/-- What became of an assignment. -/
inductive Assignment where
  /-- The cell is set or has expired. -/
  | rejected
  /-- The cell took the resolution; a handler that waited for it leaves the cell with this answer,
  and the caller delivers to it. -/
  | accepted (h : Option Handler)

/-- Assigns a resolution. -/
def assign (c : Cell) (r : Resolution) : Cell × Assignment :=
  if c.isSetOrExpired then (c, .rejected)
  else ({ c with result := some r, handler := none }, .accepted c.handler)

/-- Ends the life of the cell. The answer says whether it had not ended before. -/
def expire (c : Cell) : Cell × Bool :=
  if c.expired then (c, false)
  else ({ c with expired := true, handler := none }, true)

theorem isSetOrExpired_eq_false_iff {c : Cell} :
    c.isSetOrExpired = false ↔ c.hasResult = false ∧ c.expired = false :=
  Bool.or_eq_false_iff

theorem register_snd_eq_deliver {c : Cell} {h : Handler} {r : Resolution} :
    (c.register h).2 = .deliver r ↔ c.expired = false ∧ c.result = some r := by
  unfold register
  split
  · simp_all
  · split <;> simp_all

theorem assign_snd_eq_accepted {c : Cell} {r : Resolution} {h : Option Handler} :
    (c.assign r).2 = .accepted h ↔ c.isSetOrExpired = false ∧ c.handler = h := by
  unfold assign
  split <;> simp_all

/-! ### What transitions keep -/

@[simp] theorem register_fst_result (c : Cell) (h : Handler) :
    (c.register h).1.result = c.result := by
  unfold register
  split
  · rfl
  · split <;> simp_all

@[simp] theorem register_fst_expired (c : Cell) (h : Handler) :
    (c.register h).1.expired = c.expired := by
  unfold register
  split
  · rfl
  · split <;> rfl

/-- A resolution is never replaced. -/
theorem assign_fst_result (c : Cell) (r : Resolution) :
    (c.assign r).1.result = if c.isSetOrExpired then c.result else some r := by
  unfold assign
  split <;> rfl

@[simp] theorem assign_fst_expired (c : Cell) (r : Resolution) :
    (c.assign r).1.expired = c.expired := by
  unfold assign
  split <;> rfl

@[simp] theorem expire_fst_result (c : Cell) : c.expire.1.result = c.result := by
  unfold expire
  split <;> rfl

/-- Expiry is never undone. -/
@[simp] theorem expire_fst_expired (c : Cell) : c.expire.1.expired = true := by
  unfold expire
  split
  · assumption
  · rfl

/-- A handler is stored only in a cell that can still be resolved. -/
def Settled (c : Cell) : Prop :=
  c.handler.isSome → c.isSetOrExpired = false

theorem settled_register {c : Cell} (hc : c.Settled) (h : Handler) : (c.register h).1.Settled := by
  unfold register
  split
  · exact hc
  · split
    · intro _
      simp_all [isSetOrExpired]
    · exact hc

theorem settled_assign {c : Cell} (hc : c.Settled) (r : Resolution) : (c.assign r).1.Settled := by
  unfold assign
  split
  · exact hc
  · intro h
    simp at h

theorem settled_expire {c : Cell} (hc : c.Settled) : c.expire.1.Settled := by
  unfold expire
  split
  · exact hc
  · intro h
    simp at h

end Cell

end Rendezvous
