import Rendezvous.Proofs.Independence.Transport
import Rendezvous.Proofs.Reentrancy.Releases

/-!
# Handlers that fail

A cell is done with a resolution, and a request has recorded it, before their user code is called.
What is left after the handler or dispatch has ended, with whatever outcome, is the completion of
the request. So a failure leaves everything as if the user code had returned at the same place. It
only decides how the call ends around it: an ordinary failure is contained, any other one leaves the
call.

Two runs of a call are compared by what user code does in them. They are the same where it makes the
same choices, so it suffices to say how the choices differ.

## Main definitions

* `HandsOver`: a call that hands a resolution to a handler.
* `Handler.invocation?`: the user code that a handler calls.
* `Outcome.passed`: how a call ends that has called a handler.

## Main results

* `HandsOver.exists_inside`: such a call comes to the user code of the handler.
* `Activation.Unfolds.of_handlerFrames`: what is left after that does not depend on its outcome.
* `HandsOver.failing_leaves_as_returning`: a handler or dispatch that fails leaves everything as if
  it had returned.
-/

namespace Rendezvous

open Activation

/-- User code that may do anything. -/
def Conduct.free : Conduct where
  mayCall _ _ := True
  mayAnswer _ _ _ := True

/-- The user code that a handler calls with a resolution. -/
def Handler.invocation? (w : World) (r : Resolution) : Handler → Option Invocation
  | .callback id => some ⟨id, .handler, some (.resolution r)⟩
  | .request q => (w.request q).dispatch.map fun id => ⟨id, .dispatch, some (.resolution r)⟩

/-- The frames that wait for the user code of a handler of a cell. -/
def Handler.frames (c : CellId) (a : Answer) : Handler → List Frame
  | .callback _ => [.cell c (.delivered a)]
  | .request q => [.request q .dispatched, .cell c (.delivered a)]

/-- How a call ends that has an answer and whose handler was left with an outcome. -/
def Outcome.passed (a : Answer) : Outcome → Outcome
  | .returned _ => .returned a
  | .raised f => if f.isOrdinary then .returned a else .raised f

/-- Whether a call at its first point hands a resolution to a handler, and has this answer for its
caller: a setter whose cell takes the resolution, or a registration that comes after it. -/
inductive HandsOver (w : World) (c : CellId) (hd : Handler) (r : Resolution) :
    Point → Answer → Prop
  | setter (hopen : (w.cell c).isSetOrExpired = false) (hhandler : (w.cell c).handler = some hd) :
    HandsOver w c hd r (.cell c (.checkResult r)) (.flag true)
  | registration (hlive : (w.cell c).expired = false) (hresult : (w.cell c).result = some r) :
    HandsOver w c hd r (.cell c (.checkRegister hd)) .unit

variable {P : Conduct} {w w₁ w' : World} {c : CellId} {hd : Handler} {r : Resolution} {p : Point}
  {a : Answer} {d : Activation} {i : Invocation} {acts : List Act} {o x : Outcome}

theorem Outcome.passed_eq_raised_iff {f : Failure} :
    x.passed a = .raised f ↔ x = .raised f ∧ f.isOrdinary = false := by
  cases x with
  | returned b => simp [passed]
  | raised e =>
    cases he : e.isOrdinary <;> simp [passed, he]
    · rintro rfl
      exact he
    · rintro rfl
      simp [he]

/-- After a handler, its caller ends as the outcome says. -/
theorem Frame.next_delivered (w : World) (c : CellId) (a : Answer) (x : Outcome) :
    ((Frame.cell c (.delivered a)).resume w x).next = .finish (x.passed a) := by
  cases x with
  | returned b => rfl
  | raised f =>
    simp only [Frame.resume, CellFrame.resume, contain, Outcome.passed]
    split <;> rfl

/-- Code no higher than a completion calls user code as completion hooks and callbacks only. -/
theorem Point.Way.completesIn_of_lt {f : Frame} (h : Point.Way w p (.invoke f i))
    (hp : p.height < toLex (7, 0)) : i.CompletesIn := by
  cases h <;>
    simp [Point.height, CellPoint.level, Prod.Lex.toLex_lt_toLex, Invocation.CompletesIn] at hp ⊢

theorem Point.next_dispatch {q : RequestId} {id : CallbackId}
    (h : (w.request q).dispatch = some id) : ((Point.request q (.dispatch r)).step w).next =
      .invoke (.request q .dispatched) ⟨id, .dispatch, some (.resolution r)⟩ := by
  simp [step, RequestPoint.step, h]

/-! ### Before the user code -/

/-- A call that hands a resolution to a handler passes to the delivery. -/
private theorem HandsOver.exists_passes (h : HandsOver w c hd r p a) :
    ∃ before v, Passes w ⟨.ready p, []⟩ before v ⟨.ready (.cell c (.deliver hd r a)), []⟩ ∧
      before.filterMap Act.invocation? = [] ∧ v.request = w.request ∧
      (v.cell c).result = some r := by
  cases h with
  | setter hopen hhandler =>
    obtain ⟨hresult, hexpired⟩ := Cell.isSetOrExpired_eq_false_iff.mp hopen
    have hassign : ((w.cell c).assign r).2 = .accepted (some hd) :=
      Cell.assign_snd_eq_accepted.mpr ⟨hopen, hhandler⟩
    refine ⟨_, _, .step rfl (n := .goto (.cell c (.checkExpired r))) ?_
      (.step rfl (n := .goto (.cell c (.assign r))) ?_
        (.step rfl (n := .goto (.cell c (.deliver hd r (.flag true)))) ?_ (.refl ..))), rfl, rfl,
      ?_⟩
    · simp [Point.step, CellPoint.step, hresult]
    · simp [Point.step, CellPoint.step, hexpired]
    · simp [Point.step, CellPoint.step, hassign]
    · simp [Point.step, CellPoint.step, Cell.assign_fst_result, hopen]
  | registration hlive hresult =>
    have hregister : ((w.cell c).register hd).2 = .deliver r :=
      Cell.register_snd_eq_deliver.mpr ⟨hlive, hresult⟩
    refine ⟨_, _, .step rfl (n := .goto (.cell c (.register hd))) ?_
      (.step rfl (n := .goto (.cell c (.deliver hd r .unit))) ?_ (.refl ..)), rfl, rfl, ?_⟩
    · simp [Point.step, CellPoint.step, hlive]
    · simp [Point.step, CellPoint.step, hregister]
    · simp [Point.step, CellPoint.step, hresult]

/-- A call that hands a resolution to a handler passes to the user code of the handler. The cell has
the resolution there. -/
theorem HandsOver.exists_inside (h : HandsOver w c hd r p a) (hi : hd.invocation? w r = some i) :
    ∃ before v, Passes w ⟨.ready p, []⟩ before v ⟨.inside i, hd.frames c a⟩ ∧
      before.filterMap Act.invocation? = [i] ∧ (v.cell c).result = some r := by
  obtain ⟨before, v, hpasses, hcalls, hrequest, hresult⟩ := h.exists_passes
  cases hd with
  | callback id =>
    cases hi
    refine ⟨_, _, hpasses.trans (.step rfl rfl (.refl ..)), ?_, hresult⟩
    rw [List.filterMap_append, hcalls]
    rfl
  | request q =>
    obtain ⟨id, hid, rfl⟩ := Option.map_eq_some_iff.mp hi
    have hdispatch : (((Point.request q (.record r)).step v).world.request q).dispatch =
        some id := by
      simp [Point.step, RequestPoint.step, World.modifyRequest, hrequest, hid]
    refine ⟨_, _, hpasses.trans (.step rfl (n := .call (.cell c (.delivered a))
      (.request q (.record r))) rfl (.step rfl (n := .goto (.request q (.dispatch r))) rfl
        (.step rfl (n := .invoke (.request q .dispatched) ⟨id, .dispatch, some (.resolution r)⟩) ?_
          (.refl ..)))), ?_, ?_⟩
    · exact Point.next_dispatch hdispatch
    · rw [List.filterMap_append, hcalls]
      rfl
    · simpa [Point.step, RequestPoint.step, CellPoint.step, World.modifyRequest] using hresult

/-! ### The end of the user code -/

namespace Activation.Unfolds

theorem free (h : Unfolds P w d acts w' o) : Unfolds .free w d acts w' o :=
  h.mono (fun _ _ _ => trivial) fun _ _ _ _ => trivial

/-- User code that has come to its end might have answered anything else there. -/
theorem exists_answered (h : Unfolds P w ⟨.inside i, []⟩ acts w' o) :
    ∃ calls b, acts = calls ++ [⟨.answer i (.ofUser b), []⟩] ∧ o = .ofUser b ∧
      P.mayAnswer w' i b ∧ (∀ rest, own (calls ++ rest) = own rest) ∧
      ∀ b', Unfolds .free w ⟨.inside i, []⟩ (calls ++ [⟨.answer i (.ofUser b'), []⟩]) w'
        (.ofUser b') := by
  generalize ha : (⟨.inside i, []⟩ : Activation) = d at h
  induction h with
  | ended | step | resume => cases ha
  | @answer w _ _ _ b _ _ hmay h =>
    cases ha
    obtain ⟨rfl, rfl, rfl⟩ := h.of_ended_nil
    exact ⟨[], b, rfl, rfl, hmay, fun _ => rfl, fun b' => .answer trivial (.ended ..)⟩
  | @call _ _ _ _ _ call inner _ o₁ _ hc hinner _ _ ih =>
    cases ha
    obtain ⟨calls, b, rfl, rfl, hmay, hown, hanswered⟩ := ih rfl
    refine ⟨⟨.begin call, []⟩ :: (inner ++ ⟨.finish o₁, []⟩ :: calls), b, by simp, rfl, hmay,
      fun rest => ?_, fun b' => ?_⟩
    · rw [List.cons_append, List.append_assoc, List.cons_append, hinner.own_call]
      exact hown rest
    · have h : Unfolds .free _ ⟨.inside i, []⟩ (⟨.begin call, []⟩ :: (inner ++
          ⟨.finish o₁, []⟩ :: (calls ++ [⟨.answer i (.ofUser b'), []⟩]))) _ (.ofUser b') :=
        .call trivial hinner.free (hanswered b')
      simpa using h

/-- A handler has ended, and the call ends as its outcome says. -/
private theorem of_delivered (h : Unfolds P w ⟨.ended x, [.cell c (.delivered a)]⟩ acts w' o) :
    w' = w ∧ o = x.passed a ∧ choices acts = [] ∧ invocations acts = [] := by
  obtain ⟨rest, rfl, hrest⟩ := h.of_ended_cons
  rw [Frame.next_delivered] at hrest
  obtain ⟨rfl, rfl, rfl⟩ := hrest.of_ended_nil
  refine ⟨rfl, rfl, rfl, ?_⟩
  rw [invocations_resume, Frame.next_delivered]
  rfl

private theorem exists_delivered (P : Conduct) (w : World) (c : CellId) (a : Answer) (x : Outcome) :
    ∃ acts, choices acts = [] ∧
      Unfolds P w ⟨.ended x, [.cell c (.delivered a)]⟩ acts w (x.passed a) :=
  ⟨[_], rfl, .resume (Frame.next_delivered w c a x ▸ .ended ..)⟩

/-- What is left after the user code of a handler depends on its outcome only in how it ends. -/
theorem of_handlerFrames (hP : P.SparesCompletion)
    (h : Unfolds P w ⟨.ended x, hd.frames c a⟩ acts w' o) :
    o = x.passed a ∧ (∀ j ∈ invocations acts, j.CompletesIn) ∧
      (∀ q, hd = .request q → q < w.requestCount → (w'.request q).completed = true) ∧
      ∀ x', ∃ acts', choices acts' = choices acts ∧
        Unfolds .free w ⟨.ended x', hd.frames c a⟩ acts' w' (x'.passed a) := by
  cases hd with
  | callback id =>
    obtain ⟨rfl, rfl, hchoices, hcalls⟩ := h.of_delivered
    refine ⟨rfl, by simp [hcalls], nofun, fun x' => ?_⟩
    rw [hchoices]
    exact exists_delivered ..
  | request q =>
    obtain ⟨rest, rfl, hrest⟩ := h.of_ended_cons
    obtain ⟨inner, v, y, rest, rfl, hcomplete, hrest⟩ := Unfolds.split_frames hrest
    obtain rfl := hcomplete.completes hP
    obtain ⟨last, rfl, hlast⟩ := hrest.of_ended_cons
    obtain ⟨rfl, rfl, hchoices, hcalls⟩ := hlast.of_delivered
    refine ⟨rfl, fun j hj => ?_, fun q' hq' hmade => ?_, fun x' => ?_⟩
    · have hj : j ∈ invocations inner := by
        rw [invocations_resume, hcomplete.invocations_append, invocations_resume, hcalls] at hj
        simpa [Frame.resume, RequestFrame.resume, Act.invocation?] using hj
      obtain ⟨u, p, f, hp, hway⟩ := hcomplete.exists_way_of_mem_invocations (k := toLex (7, 0))
        (.of_ready (by simp [Point.height, Prod.Lex.toLex_lt_toLex]) (by simp)) hj
      exact hway.completesIn_of_lt hp
    · cases hq'
      exact hcomplete.completed_of_complete hmade
    · obtain ⟨end', hend', hended⟩ := exists_delivered .free w' c a x'
      refine ⟨_, ?_, .resume (hcomplete.free.append (.resume hended))⟩
      have hresumed {f : Frame} {z : Outcome} {n : Next} {l : List Notice} (tail : List Act) :
          choices (⟨.resume f z n, l⟩ :: tail) = choices tail := rfl
      rw [hresumed, choices_append, hresumed, hend', hresumed, choices_append, hresumed,
        hchoices]

/-- What holds of a cell of which a handler is stored only while it is open, holds after a run. -/
theorem settled (h : Unfolds P w d acts w' o) (hc : (w.cell c).Settled) : (w'.cell c).Settled := by
  induction h with
  | ended => exact hc
  | @step w _ p _ _ _ _ _ ih =>
    refine ih ?_
    rcases p.cell_step w c with h | ⟨_, -, h⟩ | ⟨_, -, h⟩ | ⟨-, h⟩ | ⟨slot, _, -, h⟩ <;> rw [h]
    · exact hc
    · exact Cell.settled_register hc _
    · exact Cell.settled_assign hc _
    · exact Cell.settled_expire hc
    · cases slot <;> exact hc
  | resume _ ih | answer _ _ ih => exact ih hc
  | call _ _ _ ih₁ ih₂ => exact ih₂ (ih₁ hc)

end Activation.Unfolds

/-- A handler or dispatch that fails leaves everything as if it had returned. User code of a handler
comes to its end, after whatever it has called, and the call raises what it raised unless that is
ordinary. Had it ended there in any other way, then with the same choices of user code afterwards
the world would be the same. The cell keeps the resolution, the handler is not called again, and the
request is completed, and released unless the call was made on the way to that. -/
theorem HandsOver.failing_leaves_as_returning (h : HandsOver w c hd r p a)
    (hi : hd.invocation? w r = some i) (hP : P.SparesCompletion)
    (hrun : Unfolds P w ⟨.ready p, []⟩ acts w' o) :
    ∃ before b after, acts = before ++ ⟨.answer i (.ofUser b), []⟩ :: after ∧
      own acts = own before ++ ⟨.answer i (.ofUser b), []⟩ :: own after ∧
      invocations before = [i] ∧ (∃ w₁, P.mayAnswer w₁ i b) ∧
      (∀ j ∈ invocations after, j.CompletesIn) ∧
      (∀ f, o = .raised f ↔ b = .error f ∧ f.isOrdinary = false) ∧
      (∀ b', (∃ acts₂, choices acts₂ = choices before ++ .answer i (.ofUser b') :: choices after ∧
          Unfolds .free w ⟨.ready p, []⟩ acts₂ w' ((Outcome.ofUser b').passed a)) ∧
        ∀ acts₂ w₂ o₂, Unfolds .free w ⟨.ready p, []⟩ acts₂ w₂ o₂ →
          choices acts₂ = choices before ++ .answer i (.ofUser b') :: choices after →
          w₂ = w' ∧ o₂ = (Outcome.ofUser b').passed a) ∧
      (w'.cell c).result = some r ∧ ((w.cell c).Settled → (w'.cell c).handler = none) ∧
      ∀ q, hd = .request q → q < w.requestCount → (w'.request q).completed = true ∧
        (((w.request q).completed = true → (w.request q).released = true) →
          (w'.request q).released = true) := by
  obtain ⟨passage, v, hpasses, hcall, hresult⟩ := h.exists_inside hi
  obtain ⟨rest, rfl, hrest⟩ := hpasses.unfolds_iff.mp hrun
  obtain ⟨inner, w₁, x, after, rfl, hinside, hend⟩ := hrest.split_frames
  obtain ⟨calls, b, rfl, rfl, hmay, hown, hanswered⟩ := hinside.exists_answered
  obtain ⟨rfl, hcompletes, hcompleted, hany⟩ := hend.of_handlerFrames hP
  have hbefore : own (passage ++ calls) = passage := by
    rw [hpasses.own_append, ← List.append_nil calls, hown]
    exact List.append_nil _
  -- The run with another answer in the same place, and with the same choices around it.
  have hrerun (b' : Except Failure Payload) : ∃ acts₂,
      choices acts₂ = choices (passage ++ calls) ++ .answer i (.ofUser b') :: choices after ∧
      Unfolds .free w ⟨.ready p, []⟩ acts₂ w' ((Outcome.ofUser b').passed a) := by
    obtain ⟨tail, htail, hlater⟩ := hany (.ofUser b')
    refine ⟨_, ?_, hpasses.unfolds_iff.mpr ⟨_, rfl, (hanswered b').append hlater⟩⟩
    simp only [choices_append, htail, List.append_assoc]
    rfl
  have hgrows := hinside.grows.trans hend.grows
  have hset : (w'.cell c).result = some r := hgrows.result c r hresult
  have hdone (q : RequestId) (hq : hd = .request q) (hmade : q < w.requestCount) :
      (w'.request q).completed = true :=
    hcompleted q hq (Nat.lt_of_lt_of_le hmade (hpasses.grows.trans hinside.grows).requestCount)
  refine ⟨passage ++ calls, b, after, by simp, ?_, ?_, ⟨w₁, hmay⟩, hcompletes, fun f => ?_,
    fun b' => ?_, hset, fun hc => ?_, fun q hq hmade => ⟨hdone q hq hmade, fun hreleased => ?_⟩⟩
  · rw [hbefore, hpasses.own_append, List.append_assoc, hown]
    rfl
  · rw [invocations, hbefore, hcall]
  · rw [Outcome.passed_eq_raised_iff]
    cases b <;> simp [Outcome.ofUser]
  · refine ⟨hrerun b', fun acts₂ w₂ o₂ h₂ hchoices => ?_⟩
    obtain ⟨acts₃, hchoices₃, h₃⟩ := hrerun b'
    have hsame : choices acts₂ ++ [] = choices acts₃ ++ [] := by rw [hchoices, hchoices₃]
    obtain ⟨-, rfl, rfl⟩ := h₂.eq_of_choices h₃ hsame
    exact ⟨rfl, rfl⟩
  · by_contra hhandler
    have hopen := hrun.settled hc (Option.isSome_iff_ne_none.mpr hhandler)
    simp [Cell.isSetOrExpired, hset] at hopen
  · exact hrun.released hP (.of_frames_eq_nil rfl) hmade (fun hc => .inl (hreleased hc))
      (hdone q hq hmade)

/-- A request without a dispatch function does as one whose dispatch has raised. -/
theorem HandsOver.returned_of_no_dispatch {q : RequestId} (h : HandsOver w c (.request q) r p a)
    (hq : (w.request q).dispatch = none) (hmade : q < w.requestCount) (hP : P.SparesCompletion)
    (hrun : Unfolds P w ⟨.ready p, []⟩ acts w' o) :
    o = .returned a ∧ (w'.cell c).result = some r ∧ (w'.request q).completed = true ∧
      (((w.request q).completed = true → (w.request q).released = true) →
        (w'.request q).released = true) := by
  obtain ⟨passage, v, hpasses, -, hrequest, hresult⟩ := h.exists_passes
  obtain ⟨rest, rfl, hrest⟩ := hpasses.unfolds_iff.mp hrun
  obtain ⟨rest, -, hrecord⟩ := hrest.of_ready
  obtain ⟨rest, -, hdispatch⟩ := hrecord.of_goto (g := .request q (.dispatch r)) rfl
  generalize hv : ((Point.request q (.record r)).step _).world = v₁ at hdispatch
  have hnone : (v₁.request q).dispatch = none := by
    simp [← hv, Point.step, RequestPoint.step, CellPoint.step, World.modifyRequest, hrequest, hq]
  have hgrows : v.Grows v₁ := hv ▸ Point.grows_step ..
  obtain ⟨rest, -, hcomplete⟩ := hdispatch.of_ready
  have hn : ((Point.request q (.dispatch r)).step v₁).next =
      ((Frame.request q .dispatched).resume v₁ (.raised .nothingToCall)).next := by
    simp [Point.step, RequestPoint.step, hnone, Frame.resume, RequestFrame.resume]
  rw [hn] at hcomplete
  have hend : Unfolds P v₁ ⟨.ended (.raised .nothingToCall), (Handler.request q).frames c a⟩ _ w'
    o := .resume hcomplete
  obtain ⟨rfl, -, hcompleted, -⟩ := hend.of_handlerFrames hP
  have hdone : (w'.request q).completed = true := hcompleted q rfl
    (Nat.lt_of_lt_of_le hmade (hpasses.grows.trans hgrows).requestCount)
  refine ⟨rfl, ?_, hdone, fun hreleased => ?_⟩
  · exact (hgrows.trans hcomplete.grows).result c r hresult
  · exact hrun.released hP (.of_frames_eq_nil rfl) hmade (fun hc => .inl (hreleased hc)) hdone

/-- User code whose dispatch is interrupted. -/
def Conduct.interrupted : Conduct where
  mayCall _ _ := True
  mayAnswer _ i a :=
    if i.role = .dispatch then a = .error (.escaping "KeyboardInterrupt" "")
    else (Outcome.ofUser a).IsContainable

/-- A world with a request that waits for a cell. -/
def waiting : World :=
  ((default : World).addRequest { cell := 0, dispatch := some "d" }).1.setCell 0
    { handler := some (.request 0) }

theorem failing_leaves_as_returning_interrupted :
    (∃ acts w' o, (Call.setResult 0 (.int 7)).activation.Unfolds .interrupted waiting acts w' o) ∧
    ∀ acts w' o, (Call.setResult 0 (.int 7)).activation.Unfolds .interrupted waiting acts w' o →
      o = .raised (.escaping "KeyboardInterrupt" "") ∧
      (w'.cell 0).result = some (.value (.int 7)) ∧ (w'.request 0).completed = true ∧
      (w'.request 0).released = true ∧
      ∃ acts₂, (Call.setResult 0 (.int 7)).activation.Unfolds .free waiting acts₂ w'
        (.returned (.flag true)) := by
  have hresponsive : Conduct.interrupted.IsResponsive := fun w i => by
    by_cases hi : i.role = .dispatch
    · exact ⟨_, by simp only [Conduct.interrupted, if_pos hi]; rfl⟩
    · exact ⟨.ok .null, by simp only [Conduct.interrupted, if_neg hi]; trivial⟩
  have hspares : Conduct.interrupted.SparesCompletion := fun w i a hi ha => by
    have hrole : i.role ≠ .dispatch := by
      rcases hi with hi | hi <;> simp [hi]
    simpa only [Conduct.interrupted, if_neg hrole] using ha
  refine ⟨Call.exists_unfolds hresponsive (by simp) waiting, fun acts w' o h => ?_⟩
  have hhands : HandsOver waiting 0 (.request 0) (.value (.int 7))
      (.cell 0 (.checkResult (.value (.int 7)))) (.flag true) := .setter rfl rfl
  obtain ⟨before, b, after, -, -, -, ⟨w₁, hmay⟩, -, hraises, hany, hresult, -, hrequest⟩ :=
    hhands.failing_leaves_as_returning (i := ⟨"d", .dispatch, some (.resolution (.value (.int 7)))⟩)
      rfl hspares h
  obtain rfl : b = .error (.escaping "KeyboardInterrupt" "") := hmay
  obtain ⟨hcompleted, hreleased⟩ := hrequest 0 rfl (by decide)
  obtain ⟨acts₂, -, hreturning⟩ := (hany (.ok .null)).1
  exact ⟨(hraises _).mpr ⟨rfl, rfl⟩, hresult, hcompleted, hreleased nofun, acts₂, hreturning⟩

end Rendezvous
