import Rendezvous.Execution.Activation

/-!
# Running alone

An activation that no other thread disturbs, and whose user code answers at once without calling
back, runs straight to its end.

## Main definitions

* `Solo`: the result, with the calls of user code and the notices in order.
* `Activation.runAlone`: the run.
-/

namespace Rendezvous

/-- The result of an undisturbed run. -/
structure Solo where
  world : World
  activation : Activation
  invocations : List Invocation := []
  notices : List Notice := []

/-- The outcome of a run that reached its end. -/
def Solo.outcome? (s : Solo) : Option Outcome :=
  s.activation.outcome?

/-- The answer of a run that reached its end without a failure. -/
def Solo.answer? (s : Solo) : Option Answer :=
  match s.outcome? with
  | some (.returned a) => some a
  | _ => none

/-- Runs an activation with user code that answers as given. -/
def Activation.runAlone (respond : Invocation → Outcome) : (fuel : Nat) → World → Activation → Solo
  | 0, w, a => ⟨w, a, [], []⟩
  | fuel + 1, w, a =>
    match a.step? w with
    | some (w, a, notices) =>
      let s := runAlone respond fuel w a
      { s with notices := notices ++ s.notices }
    | none => match a.control with
      | .inside i =>
        let s := runAlone respond fuel w (a.conclude (respond i))
        { s with invocations := i :: s.invocations }
      | _ => ⟨w, a, [], []⟩

end Rendezvous
