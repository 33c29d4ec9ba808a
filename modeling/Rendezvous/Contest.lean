import Rendezvous.Execution.Solo

/-!
# Contests

Several setters compete for one cell, and a handler is registered before them, among them, after
them, or not at all. Setters are indivisible where it matters, so the outcome does not depend on
their order: one is accepted and the handler receives what it set.

## Main definitions

* `Contest` and `Contest.hold`: the contest, its setters taking turns.
* `Contest.Result`: what is counted.
-/

namespace Rendezvous

/-- When the handler of a contest is registered. -/
inductive Entrance where
  | before
  | among
  | after
  | never
  deriving DecidableEq, Repr

/-- A contest for one cell. -/
structure Contest where
  /-- The number of setters that bring values. -/
  values : Nat
  /-- The number of setters that bring errors. -/
  errors : Nat
  entrance : Entrance

namespace Contest

/-- What is counted in a contest. -/
structure Result where
  accepted : Nat
  rejected : Nat
  handlerCalls : Nat
  /-- Whether the cell holds what the one accepted setter brought. -/
  storedIsWinner : Bool
  /-- Whether the handler received what the cell holds, and nothing else. -/
  handlerSawStored : Bool
  deriving DecidableEq, Repr

/-- The setters of a contest for cell 0, each with the text it brings. -/
def setters (c : Contest) : List (Call × String) :=
  let value (i : Nat) := ("v" ++ toString i)
  let error (i : Nat) := ("e" ++ toString i)
  (List.range c.values).map (fun i => (.setResult 0 (.text (value i)), value i)) ++
    (List.range c.errors).map (fun i => (.setError 0 (.text (error i)), error i))

/-- The text of a payload that is a text. -/
def text? : Payload → Option String
  | .text s => some s
  | _ => none

/-- What a contest has come to. -/
structure Standing where
  world : World := (({} : World).addCell {}).1
  /-- The texts whose setters were accepted. -/
  winners : List String := []
  rejected : Nat := 0
  /-- The texts that the handler received. -/
  received : List String := []

/-- One participant takes a turn. A setter comes with the text it brings. -/
def turn (s : Standing) (call : Call) (brings : Option String) : Standing :=
  let run := call.activation.runAlone (fun _ => .returned .unit) 32 s.world
  let received := run.invocations.filterMap fun i => match i.argument with
    | some (.resolution r) => text? r.payload
    | _ => none
  let s := { s with world := run.world, received := s.received ++ received }
  match brings, run.answer? with
  | some t, some (.flag true) => { s with winners := s.winners ++ [t] }
  | some _, _ => { s with rejected := s.rejected + 1 }
  | none, _ => s

/-- The handler is registered. -/
def register (s : Standing) : Standing :=
  turn s (.setHandler 0 (some "handler")) none

/-- Setters take their turns. -/
def compete (s : Standing) (ts : List (Call × String)) : Standing :=
  ts.foldl (fun s (call, text) => turn s call (some text)) s

/-- What is counted at the end. -/
def Standing.result (s : Standing) : Result :=
  let stored := ((s.world.cell 0).getResult.bind text?).toList
  { accepted := s.winners.length
    rejected := s.rejected
    handlerCalls := s.received.length
    storedIsWinner := s.winners.length == 1 && stored == s.winners
    handlerSawStored := !stored.isEmpty && s.received == stored }

/-- Holds a contest. -/
def hold (c : Contest) : Result :=
  Standing.result <| match c.entrance with
    | .before => compete (register {}) c.setters
    | .among => compete (register (compete {} (c.setters.take 1))) (c.setters.drop 1)
    | .after => register (compete {} c.setters)
    | .never => compete {} c.setters

end Contest

end Rendezvous
