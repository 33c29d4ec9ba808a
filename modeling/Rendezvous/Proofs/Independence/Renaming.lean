import Rendezvous.Proofs.Reentrancy.Unfolding

/-!
# Other numbers for requests

Code handles the numbers of requests as names: it passes them on, it looks requests up by them and
it asks whether two of them are the same, but it computes nothing from them. Under a map of numbers
everything that names requests has a counterpart: points and frames, what a call returns, and all
that it does.

User code has no part in this. Its answers are payloads, and these name no requests.

## Main definitions

* `Point.rename`, `Frame.rename`, `Next.rename`, `Activation.rename`: code under a map of numbers.
* `Call.rename`, `Deed.rename`, `Act.rename`: calls, and what they do.
* `Cell.rename`: a cell whose handler goes by another number.

## Main results

* `Cell.register_rename`, `Cell.assign_rename`, `Cell.expire_rename`: the transitions of a cell do
  not look at the number.
* `Activation.rename_follow`, `Call.activation_rename`: calls in progress go on under other numbers.
-/

namespace Rendezvous

variable (ρ : RequestId → RequestId)

/-! ### Data -/

def Handler.rename : Handler → Handler
  | .callback id => .callback id
  | .request q => .request (ρ q)

/-- A cell whose handler goes by another number. -/
def Cell.rename (x : Cell) : Cell :=
  { x with handler := x.handler.map (Handler.rename ρ) }

def Cell.Assignment.rename : Cell.Assignment → Cell.Assignment
  | .rejected => .rejected
  | .accepted h => .accepted (h.map (Handler.rename ρ))

def Answer.rename : Answer → Answer
  | .request q => .request (ρ q)
  | a => a

def Outcome.rename : Outcome → Outcome
  | .returned a => .returned (a.rename ρ)
  | .raised f => .raised f

/-! ### Code -/

def CellPoint.rename : CellPoint → CellPoint
  | .checkRegister h => .checkRegister (h.rename ρ)
  | .register h => .register (h.rename ρ)
  | .deliver h r a => .deliver (h.rename ρ) r (a.rename ρ)
  | p => p

def CoordinatorPoint.rename : CoordinatorPoint → CoordinatorPoint
  | .activate q => .activate (ρ q)
  | .noteStart q => .noteStart (ρ q)
  | .abandonEach n rest => .abandonEach n (rest.map ρ)
  | .retire q => .retire (ρ q)
  | p => p

/-- A point under a map of numbers. -/
def Point.rename : Point → Point
  | .cell c p => .cell c (p.rename ρ)
  | .request q p => .request (ρ q) p
  | .coordinator k p => .coordinator k (p.rename ρ)

def CellFrame.rename : CellFrame → CellFrame
  | .delivered a => .delivered (a.rename ρ)
  | f => f

/-- A frame under a map of numbers. -/
def Frame.rename : Frame → Frame
  | .cell c f => .cell c (f.rename ρ)
  | .request q f => .request (ρ q) f
  | .abandoning k n rest => .abandoning k n (rest.map ρ)
  | .answer a => .answer (a.rename ρ)
  | .outcome o => .outcome (o.rename ρ)

/-- A way on under a map of numbers. -/
def Next.rename : Next → Next
  | .goto p => .goto (p.rename ρ)
  | .call f p => .call (f.rename ρ) (p.rename ρ)
  | .invoke f i => .invoke (f.rename ρ) i
  | .finish o => .finish (o.rename ρ)

def Control.rename : Control → Control
  | .ready p => .ready (p.rename ρ)
  | .inside i => .inside i
  | .ended o => .ended (o.rename ρ)

/-- A call in progress under a map of numbers. -/
def Activation.rename (a : Activation) : Activation :=
  ⟨a.control.rename ρ, a.frames.map (Frame.rename ρ)⟩

/-! ### Calls -/

def Call.rename : Call → Call
  | .begin q => .begin (ρ q)
  | .timeOut q => .timeOut (ρ q)
  | .fail q e => .fail (ρ q) e
  | .abandon q => .abandon (ρ q)
  | .wait q => .wait (ρ q)
  | c => c

def Deed.rename : Deed → Deed
  | .begin c => .begin (c.rename ρ)
  | .step p n => .step (p.rename ρ) (n.rename ρ)
  | .resume f o n => .resume (f.rename ρ) (o.rename ρ) (n.rename ρ)
  | .answer i o => .answer i (o.rename ρ)
  | .finish o => .finish (o.rename ρ)

/-- Something that a call does, with the same notices, under a map of numbers. -/
def Act.rename (x : Act) : Act :=
  { x with deed := x.deed.rename ρ }

variable {ρ}

/-! ### Cells -/

namespace Cell

variable (x : Cell)

@[simp] theorem result_rename : (x.rename ρ).result = x.result := rfl

@[simp] theorem expired_rename : (x.rename ρ).expired = x.expired := rfl

@[simp] theorem timeoutMs_rename : (x.rename ρ).timeoutMs = x.timeoutMs := rfl

@[simp] theorem fallback_rename : (x.rename ρ).fallback = x.fallback := rfl

@[simp] theorem onTimeout_rename : (x.rename ρ).onTimeout = x.onTimeout := rfl

@[simp] theorem onError_rename : (x.rename ρ).onError = x.onError := rfl

@[simp] theorem onCompletion_rename : (x.rename ρ).onCompletion = x.onCompletion := rfl

@[simp] theorem hasResult_rename : (x.rename ρ).hasResult = x.hasResult := rfl

@[simp] theorem isSetOrExpired_rename : (x.rename ρ).isSetOrExpired = x.isSetOrExpired := rfl

@[simp] theorem describe_rename : (x.rename ρ).describe = x.describe := rfl

@[simp] theorem answer_rename (q : Query) : (x.rename ρ).answer q = x.answer q := by
  cases q <;> rfl

theorem register_rename (h : Handler) : (x.rename ρ).register (h.rename ρ) =
    ((x.register h).1.rename ρ, (x.register h).2) := by
  cases he : x.expired
  · cases hr : x.result
    · simp [register, he, hr, rename]
    · simp [register, he, hr]
  · simp [register, he]

theorem assign_rename (r : Resolution) : (x.rename ρ).assign r =
    ((x.assign r).1.rename ρ, (x.assign r).2.rename ρ) := by
  cases h : x.isSetOrExpired
  · simp only [assign, isSetOrExpired_rename, h]
    rfl
  · simp [assign, h, Assignment.rename]

theorem expire_rename : (x.rename ρ).expire = (x.expire.1.rename ρ, x.expire.2) := by
  cases he : x.expired
  · simp [expire, he, rename]
  · simp [expire, he]

theorem setCallback_rename (slot : CallbackSlot) (id : Option CallbackId) :
    (x.rename ρ).setCallback slot id = (x.setCallback slot id).rename ρ := by
  cases slot <;> rfl

/-- A cell is the same under a map that leaves the number of its handler as it is. -/
theorem rename_eq_self {x : Cell} (h : ∀ q, x.handler = some (.request q) → ρ q = q) :
    x.rename ρ = x := by
  obtain ⟨_, _, _, _, _, _, _, _, handler⟩ := x
  rcases handler with _ | id | q
  · rfl
  · rfl
  · simp [rename, Handler.rename, h q rfl]

end Cell

/-! ### Calls in progress -/

@[simp] theorem Answer.isFalse_rename (a : Answer) : (a.rename ρ).isFalse = a.isFalse := by
  cases a <;> rfl

/-- User code names no requests when it answers. -/
@[simp] theorem Outcome.rename_ofUser (a : Except Failure Payload) :
    (ofUser a).rename ρ = ofUser a := by
  cases a <;> rfl

namespace Activation

theorem rename_follow (frames : List Frame) (n : Next) :
    (follow frames n).rename ρ = follow (frames.map (Frame.rename ρ)) (n.rename ρ) := by
  cases n <;> rfl

end Activation

namespace Call

theorem control_rename (c : Call) : (c.rename ρ).control = c.control.rename ρ := by
  rcases c with _ | _ | ⟨_, _ | _⟩ | _ | _ | _ | _ | _ | _ | _ | _ | _ | _ | _ | _ | _ <;> rfl

theorem activation_rename (c : Call) : (c.rename ρ).activation = c.activation.rename ρ := by
  simp only [activation, Activation.rename, control_rename, List.map_nil]

/-- A call is the same under a map that leaves the number of its request as it is. -/
theorem rename_eq_self {c : Call} (h : ∀ q ∈ c.requests, ρ q = q) : c.rename ρ = c := by
  cases c <;> first
    | rfl
    | exact congrArg _ (h _ (List.mem_singleton_self _))
    | exact congrArg (Call.fail · _) (h _ (List.mem_singleton_self _))

end Call

end Rendezvous
