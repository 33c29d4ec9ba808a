import Mathlib.Logic.Equiv.Defs
import Rendezvous.Proofs.Independence.Transport
import Rendezvous.Proofs.Reentrancy.Ends
import Rendezvous.Proofs.Requests.Completion
import Rendezvous.Proofs.Requests.Handlers

/-!
# Calls on different cells commute

Two calls on different cells, whose user code keeps to their cells as well, may run in either order.
The cells, the requests on them with their alarms, and what coordinators have in flight are the same
in the end, both calls return or raise the same, and the same is noted on every cell.

The calls share a coordinator, which numbers the requests that it makes and names their timers by
the numbers. If both calls start requests, then the two blocks of numbers change places with the
calls. Nothing else shows which of them came first.

## Main definitions

* `exchange`: two blocks of numbers that change places.
* `World.AgreesUpTo`: worlds that are the same but for the numbers of requests.
* `World.IsApart`: whether a cell shares its requests with no other cell.
* `World.noticesOn`: what is noted on a cell.

## Main results

* `System.Reachable.commute`: the two orders of two calls come to the same.
-/

namespace Rendezvous

/-! ### Numbers -/

private def moveBlock (m i j q : Nat) : Nat :=
  if q < m then q else if q < m + i then q + j else if q < m + i + j then q - i else q

private theorem moveBlock_moveBlock (m i j q : Nat) : moveBlock m j i (moveBlock m i j q) = q := by
  unfold moveBlock
  split_ifs <;> omega

/-- From a number on, a first block of numbers and a second block change places. -/
def exchange (m i j : Nat) : Equiv.Perm RequestId where
  toFun := moveBlock m i j
  invFun := moveBlock m j i
  left_inv := moveBlock_moveBlock m i j
  right_inv := moveBlock_moveBlock m j i

section Exchange

variable {m i j n : Nat}

theorem exchange_of_lt (hn : n < m) : exchange m i j n = n :=
  if_pos hn

theorem exchange_first (hn : n < i) : exchange m i j (m + n) = m + j + n := by
  show moveBlock m i j (m + n) = m + j + n
  unfold moveBlock
  split_ifs <;> omega

theorem exchange_second (hn : n < j) : exchange m i j (m + i + n) = m + n := by
  show moveBlock m i j (m + i + n) = m + n
  unfold moveBlock
  split_ifs <;> omega

/-- If one of the blocks is empty, then all numbers stay. -/
theorem exchange_eq_refl (h : i = 0 ∨ j = 0) : exchange m i j = Equiv.refl _ := by
  ext q
  show moveBlock m i j q = q
  unfold moveBlock
  split_ifs <;> omega

end Exchange

/-- Under this exchange, what a second call made changes places with what a first call made. -/
def World.exchange (w w₁ w₂ : World) : Equiv.Perm RequestId :=
  Rendezvous.exchange w.requestCount (w₁.requestCount - w.requestCount)
    (w₂.requestCount - w₁.requestCount)

/-! ### Agreement -/

/-- Whether two worlds are the same but for the numbers of their requests. Numbers and names of
timers come in the same order in both. -/
structure World.AgreesUpTo (ρ : RequestId → RequestId) (w w' : World) : Prop where
  requestCount : w'.requestCount = w.requestCount
  cell (c : CellId) : w'.cell c = (w.cell c).rename ρ
  request (q : RequestId) (hq : q < w.requestCount) :
    (w'.request (ρ q)).core = (w.request q).core
  alarms (q : RequestId) (hq : q < w.requestCount) : w'.alarms (ρ q) = w.alarms q
  active (k : CoordinatorId) (c : CellId) :
    (w'.coordinator k).active.find? c = ((w.coordinator k).active.find? c).map ρ
  drawn (k : CoordinatorId) : (w'.coordinator k).drawn = (w.coordinator k).drawn
  settings (k : CoordinatorId) : (w'.coordinator k).settings = (w.coordinator k).settings
  timerName (q : RequestId) (hq : q < w.requestCount) :
    (w'.request q).timerName = (w.request q).timerName
  /-- Armed timers go by the names of their requests. -/
  armed : (∀ x ∈ w.timers, x.name = (w.request x.request).timerName) ∧
    ∀ x ∈ w'.timers, x.name = (w'.request x.request).timerName
  now : w'.now = w.now
  clock : w'.clock = w.clock

section Regions

variable {k : CoordinatorId} {A B S : CellId → Prop} {ρ : RequestId → RequestId}
  {limit limit' : Nat} {w w' w₁ w₂ v₁ v₂ : World} {c : CellId}

/-- Two runs in different regions, in either order, agree if the second one of each order looks like
the first one of the other. -/
theorem World.AgreesUpTo.of_mirrors (hw : w.IsBounded) (hold : ∀ q < w.requestCount, ρ q = q)
    (hdisjoint : ∀ c, A c → ¬ B c) (hA : w.Confines k A w₁) (hB : w₁.Confines k B w₂)
    (hB' : w.Confines k B v₁) (hA' : v₁.Confines k A v₂) (hmA : w₁.Mirrors ρ A limit v₂)
    (hmB : w₂.Mirrors ρ B limit' v₁) (hcount : v₂.requestCount = w₂.requestCount)
    (htimers : w₂.KeepsTimers) (htimers' : v₂.KeepsTimers) : w₂.AgreesUpTo ρ v₂ := by
  have hboth : w.Confines k (fun c => A c ∨ B c) w₂ :=
    (hA.mono fun _ => .inl).trans (hB.mono fun _ => .inr)
  have hboth' : w.Confines k (fun c => A c ∨ B c) v₂ :=
    (hB'.mono fun _ => .inr).trans (hA'.mono fun _ => .inl)
  have hrequest (q : RequestId) (hq : q < w₂.requestCount) :
      (v₂.request (ρ q)).core = (w₂.request q).core ∧ v₂.alarms (ρ q) = w₂.alarms q := by
    by_cases hb : B (w₂.request q).cell
    · have hcore := hmB.request q hq hb
      have hmade := hmB.made q hq hb
      have ha : ¬ A (v₁.request (ρ q)).cell :=
        Request.cell_eq_of_core hcore ▸ fun ha => hdisjoint _ ha hb
      rw [hA'.request _ hmade ha, hA'.alarms _ hmade ha]
      exact ⟨hcore, hmB.alarms q hq hb⟩
    have hq₁ : q < w₁.requestCount := Nat.not_le.mp fun hle => hb (hB.made q hle hq).cell
    have hb₁ : ¬ B (w₁.request q).cell :=
      Request.cell_eq_of_fixed (hB.grows.request q hq₁).fixed ▸ hb
    rw [hB.request q hq₁ hb₁, hB.alarms q hq₁ hb₁]
    by_cases ha : A (w₁.request q).cell
    · exact ⟨hmA.request q hq₁ ha, hmA.alarms q hq₁ ha⟩
    have hq₀ : q < w.requestCount := Nat.not_le.mp fun hle => ha (hA.made q hle hq₁).cell
    have hcell := Request.cell_eq_of_fixed (hA.grows.request q hq₀).fixed
    have hout : ¬ (A (w.request q).cell ∨ B (w.request q).cell) :=
      hcell ▸ not_or.mpr ⟨ha, hb₁⟩
    rw [hold q hq₀, hboth'.request q hq₀ hout, hboth'.alarms q hq₀ hout,
      hA.request q hq₀ (not_or.mp hout).1, hA.alarms q hq₀ (not_or.mp hout).1]
    exact ⟨rfl, rfl⟩
  refine ⟨hcount, fun c => ?_, fun q hq => (hrequest q hq).1, fun q hq => (hrequest q hq).2,
    fun j c => ?_, fun j => ?_, fun j => (hboth'.settings j).trans (hboth.settings j).symm,
    fun q hq => ?_, ⟨htimers.name, htimers'.name⟩, hboth'.now.trans hboth.now.symm,
    hboth'.grows.clock.trans hboth.grows.clock.symm⟩
  · by_cases hb : B c
    · rw [hA'.cell c fun ha => hdisjoint c ha hb, hmB.cell c hb]
    rw [hB.cell c hb]
    by_cases ha : A c
    · exact hmA.cell c ha
    rw [hA.cell c ha, hboth'.cell c (not_or.mpr ⟨ha, hb⟩)]
    exact (Cell.rename_eq_self fun q hq => hold q (hw.handler c q hq)).symm
  · by_cases hb : B c
    · rw [hA'.active j c fun ha => hdisjoint c ha hb, hmB.active j c hb]
    rw [hB.active j c hb]
    by_cases ha : A c
    · exact hmA.active j c ha
    rw [hA.active j c ha, hboth'.active j c (not_or.mpr ⟨ha, hb⟩)]
    cases hfind : (w.coordinator j).active.find? c with
    | none => rfl
    | some q =>
      have hq := hold q (hw.active j q (Directory.mem_values_of_find? hfind))
      rw [Option.map_some, hq]
  · by_cases hj : j = k
    · subst hj
      have h := hboth.drawn
      have h' := hboth'.drawn
      omega
    · rw [hboth'.drawn_of_ne j hj, hboth.drawn_of_ne j hj]
  · by_cases hq₀ : q < w.requestCount
    · have hsame {v : World} (hv : w.Confines k (fun c => A c ∨ B c) v) :
          (v.request q).timerName = (w.request q).timerName := by
        show (Request.fixed _).timerName = (Request.fixed _).timerName
        rw [(hv.grows.request q hq₀).fixed]
      rw [hsame hboth', hsame hboth]
    · obtain ⟨n, rfl⟩ := Nat.exists_eq_add_of_le (Nat.not_lt.mp hq₀)
      rw [hboth'.timerName n (hcount ▸ hq), hboth.timerName n hq]

/-! ### Notices -/

/-- The cell on which something is done, if it may be noted. -/
def Deed.cell? (w : World) : Deed → Option CellId
  | .step (.cell c _) _ | .resume (.cell c _) _ _ => some c
  | .step (.request q _) _ | .resume (.request q _) _ _
  | .step (.coordinator _ (.noteStart q)) _ => some (w.request q).cell
  | _ => none

/-- What is noted on a cell. -/
def World.noticesOn (w : World) (c : CellId) (acts : List Act) : List Notice :=
  acts.flatMap fun x => if x.deed.cell? w = some c then x.notices else []

theorem World.noticesOn_append (w : World) (c : CellId) (acts acts' : List Act) :
    w.noticesOn c (acts ++ acts') = w.noticesOn c acts ++ w.noticesOn c acts' :=
  List.flatMap_append

theorem Deed.IsOn.of_cell? {d : Deed} (h : d.IsOn S w) (hc : d.cell? w = some c) : S c := by
  rcases d with _ | ⟨_ | _ | ⟨_, p⟩, _⟩ | ⟨f, _, _⟩ | _ | _
  · cases hc
  · cases hc
    exact h
  · cases hc
    exact h.cell
  · cases p <;> cases hc
    exact h.cell
  · cases f <;> cases hc
    · exact h
    · exact h.cell
  · cases hc
  · cases hc

/-- Nothing is noted on a cell by what is done on a region without it. -/
theorem World.noticesOn_eq_nil {acts : List Act} (h : ∀ x ∈ acts, x.deed.IsOn S w) (hc : ¬ S c) :
    w.noticesOn c acts = [] :=
  List.flatMap_eq_nil_iff.mpr fun x hx => if_neg fun hcell => hc ((h x hx).of_cell? hcell)

theorem World.AgreesUpTo.cell?_rename (h : w.AgreesUpTo ρ w') {d : Deed} (hd : d.IsOn S w) :
    (d.rename ρ).cell? w' = d.cell? w := by
  have hcell {q : RequestId} (hq : w.Owns S q) :
      some (w'.request (ρ q)).cell = some (w.request q).cell :=
    congrArg some (Request.cell_eq_of_core (h.request q hq.made))
  rcases d with _ | ⟨_ | _ | ⟨_, p⟩, _⟩ | ⟨f, _, _⟩ | _ | _
  · rfl
  · rfl
  · exact hcell hd
  · cases p <;> first | rfl | exact hcell hd
  · cases f <;> first | rfl | exact hcell hd
  · rfl
  · rfl

/-- The same is noted under other numbers. -/
theorem World.AgreesUpTo.noticesOn_map_rename (h : w.AgreesUpTo ρ w') {acts : List Act}
    (hacts : ∀ x ∈ acts, x.deed.IsOn S w) :
    w'.noticesOn c (acts.map (Act.rename ρ)) = w.noticesOn c acts := by
  induction acts with
  | nil => rfl
  | cons x acts ih =>
    obtain ⟨hx, hrest⟩ := List.forall_mem_cons.mp hacts
    simp only [World.noticesOn, List.map_cons, List.flatMap_cons, Act.rename,
      h.cell?_rename hx] at ih ⊢
    rw [ih hrest]

/-! ### Either order -/

theorem World.IsClosed.of_confines (hS : w.IsClosed S) (h : w.Confines k A w')
    (hdisjoint : ∀ c, S c → ¬ A c) : w'.IsClosed S := by
  intro c q hc hq
  rw [h.cell c (hdisjoint c hc)] at hq
  exact (hS c q hc hq).grow h.grows

/-- What user code may call, it may call later. -/
theorem Conduct.mayCall_grow {x : Call} (h : (within k S).mayCall w x) (hw : w.Grows w') :
    (within k S).mayCall w' x := by
  obtain ⟨hin, hlocal⟩ := h
  cases x with
  | begin q | timeOut q | fail q e | abandon q | wait q => exact ⟨hin.grow hw, hlocal⟩
  | abandonAll | countActive => exact hlocal.elim
  | _ => exact ⟨hin, hlocal⟩

/-- A call names requests of its region. -/
theorem Conduct.lt_of_mayCall {x : Call} (h : (within k S).mayCall w x) :
    ∀ q ∈ x.requests, q < w.requestCount := by
  intro q hq
  cases x with
  | begin q | timeOut q | fail q e | abandon q | wait q =>
    exact List.mem_singleton.mp hq ▸ h.1.made
  | _ => cases hq

end Regions

/-- Two calls that run one after the other in different regions run in the other order as well. User
code does the same under other numbers, and the two orders agree in the end. -/
theorem Activation.Unfolds.exists_commuted {k : CoordinatorId} {A B : CellId → Prop}
    {w w₁ w₂ : World} {x y : Call} {α β : List Act} {o₁ o₂ : Outcome}
    (hdisjoint : ∀ c, A c → ¬ B c) (hw : w.IsBounded) (htimers : w.KeepsTimers)
    (hclosedA : w.IsClosed A) (hclosedB : w.IsClosed B)
    (hx : (Conduct.within k A).mayCall w x) (hy : (Conduct.within k B).mayCall w y)
    (h₁ : x.activation.Unfolds (.within k A) w α w₁ o₁)
    (h₂ : y.activation.Unfolds (.within k B) w₁ β w₂ o₂) :
    ∃ v₁ v₂, y.activation.Unfolds (.within k B) w (β.map (Act.rename (w.exchange w₁ w₂))) v₁
        (o₂.rename (w.exchange w₁ w₂)) ∧
      x.activation.Unfolds (.within k A) v₁ (α.map (Act.rename (w.exchange w₁ w₂))) v₂
        (o₁.rename (w.exchange w₁ w₂)) ∧
      w₂.AgreesUpTo (w.exchange w₁ w₂) v₂ ∧
      ∀ c, v₂.noticesOn c (β.map (Act.rename (w.exchange w₁ w₂)) ++
        α.map (Act.rename (w.exchange w₁ w₂))) = w₂.noticesOn c (α ++ β) := by
  have hdisjoint' : ∀ c, B c → ¬ A c := fun c hb ha => hdisjoint c ha hb
  obtain ⟨hA, hclosedA₁, htimers₁⟩ := h₁.confines (.of_call hx.1 hx.2) hclosedA htimers
  have hclosedB₁ := hclosedB.of_confines hA hdisjoint'
  have hy₁ := Conduct.mayCall_grow hy hA.grows
  obtain ⟨hB, -, htimers₂⟩ := h₂.confines (.of_call hy₁.1 hy₁.2) hclosedB₁ htimers₁
  obtain ⟨i, hi⟩ := Nat.exists_eq_add_of_le hA.grows.requestCount
  obtain ⟨j, hj⟩ := Nat.exists_eq_add_of_le hB.grows.requestCount
  obtain ⟨ρ, hρ, hold, hfirst, hsecond⟩ : ∃ ρ : Equiv.Perm RequestId, w.exchange w₁ w₂ = ρ ∧
      (∀ n < w.requestCount, ρ n = n) ∧
      (∀ n < i, ρ (w.requestCount + n) = w.requestCount + j + n) ∧
      ∀ n < j, ρ (w.requestCount + i + n) = w.requestCount + n := by
    have hsame : w.exchange w₁ w₂ = exchange w.requestCount i j := by
      rw [World.exchange, hj, hi, Nat.add_sub_cancel_left, Nat.add_sub_cancel_left]
    exact ⟨_, hsame, fun _ => exchange_of_lt, fun _ => exchange_first, fun _ => exchange_second⟩
  rw [hρ]
  -- The second call runs first, in a world in which its region looks the same.
  have hmB : w₁.Mirrors ρ B w₂.requestCount w := by
    refine hA.mirrors_before hw hdisjoint' ρ.injective hold fun q hq hq' => ?_
    obtain ⟨n, rfl⟩ := Nat.exists_eq_add_of_le hq
    rw [Nat.add_sub_cancel_left, hi]
    exact hsecond n (by omega)
  obtain ⟨v₁, hrunB, hmB₂, htimersB, hcountB⟩ :=
    h₂.exists_mirrored (.of_call hy₁.1 hy₁.2) hclosedB₁ htimers₁ (Nat.le_refl _) hmB htimers
  rw [← Call.activation_rename,
    Call.rename_eq_self fun q hq => hold q (Conduct.lt_of_mayCall hy q hq)] at hrunB
  obtain ⟨hB', -, -⟩ := hrunB.confines (.of_call hy.1 hy.2) hclosedB htimers
  -- The first call runs after it, in the same way.
  have hmA : w.Mirrors ρ A w₁.requestCount v₁ := by
    refine hB'.mirrors_after hw hdisjoint ρ.injective hold fun q hq hq' => ?_
    obtain ⟨n, rfl⟩ := Nat.exists_eq_add_of_le hq
    have hcount : v₁.requestCount = w.requestCount + j := by omega
    rw [Nat.add_sub_cancel_left, hcount]
    exact hfirst n (by omega)
  obtain ⟨v₂, hrunA, hmA₁, htimersA, hcountA⟩ :=
    h₁.exists_mirrored (.of_call hx.1 hx.2) hclosedA htimers (Nat.le_refl _) hmA htimersB
  rw [← Call.activation_rename,
    Call.rename_eq_self fun q hq => hold q (Conduct.lt_of_mayCall hx q hq)] at hrunA
  have hx₁ := Conduct.mayCall_grow hx hB'.grows
  obtain ⟨hA', -, -⟩ := hrunA.confines (.of_call hx₁.1 hx₁.2)
    (hclosedA.of_confines hB' hdisjoint) htimersB
  have hagrees : w₂.AgreesUpTo ρ v₂ := .of_mirrors hw hold hdisjoint hA hB hB' hA' hmA₁ hmB₂
    (by omega) htimers₂ htimersA
  refine ⟨v₁, v₂, hrunB, hrunA, hagrees, fun c => ?_⟩
  have honA : ∀ z ∈ α, z.deed.IsOn A w₂ := fun z hz =>
    (h₁.isOn (.of_call hx.1 hx.2) hclosedA htimers z hz).grow hB.grows
  have honB : ∀ z ∈ β, z.deed.IsOn B w₂ :=
    h₂.isOn (.of_call hy₁.1 hy₁.2) hclosedB₁ htimers₁
  rw [World.noticesOn_append, World.noticesOn_append, hagrees.noticesOn_map_rename honA,
    hagrees.noticesOn_map_rename honB]
  by_cases hc : A c
  · rw [World.noticesOn_eq_nil honB (hdisjoint c hc), List.nil_append, List.append_nil]
  · rw [World.noticesOn_eq_nil honA hc, List.nil_append, List.append_nil]

/-- Whether the hooks of no other cell accompany the requests on a cell. -/
def World.IsApart (w : World) (c : CellId) : Prop :=
  ∀ q < w.requestCount, (w.request q).cell = c → AreIn (· = c) (w.request q).interceptors

namespace System

variable {s : System} {k : CoordinatorId} {allowed : Move → Prop}

theorem Reachable.isClosed_of_isApart (hs : Reachable allowed s) {c : CellId}
    (hc : s.world.IsApart c) : s.world.IsClosed (· = c) := by
  intro d q hd hq
  have hmade := hs.isBounded.world.handler d q hq
  have hcell : (s.world.request q).cell = c := (hs.cell_of_handler hq).trans hd
  exact ⟨hmade, hcell, fun e he => hc q hmade hcell e he⟩

/-- Two calls on different cells, with starts by one coordinator and user code that keeps to the
same cell as its call, come to the same in either order. They run to their ends one after the other,
unless one of them waits. If they run in one order, then they run in the other one with user code
that does the same; and whenever it does, the calls return or raise the same, the worlds agree in
the end, and the same is noted on every cell. Only the numbers of the requests that the two calls
have made may change places, if both have made some. -/
theorem Reachable.commute (hs : Reachable allowed s) {a b : CellId} (hab : a ≠ b)
    (ha : s.world.IsApart a) (hb : s.world.IsApart b) {x y : Call}
    (hx : (Conduct.within k (· = a)).mayCall s.world x)
    (hy : (Conduct.within k (· = b)).mayCall s.world y) :
    ((∀ q, x ≠ .wait q) → (∀ q, y ≠ .wait q) → ∃ α w₁ o₁ β w₂ o₂,
      x.activation.Unfolds (.within k (· = a)) s.world α w₁ o₁ ∧
      y.activation.Unfolds (.within k (· = b)) w₁ β w₂ o₂) ∧
    ∀ α w₁ o₁ β w₂ o₂ ρ, x.activation.Unfolds (.within k (· = a)) s.world α w₁ o₁ →
      y.activation.Unfolds (.within k (· = b)) w₁ β w₂ o₂ → ρ = s.world.exchange w₁ w₂ →
      (∀ q < s.world.requestCount, ρ q = q) ∧
      (w₁.requestCount = s.world.requestCount ∨ w₂.requestCount = w₁.requestCount →
        ρ = Equiv.refl _) ∧
      (∃ β' v₁ o₂' α' v₂ o₁', y.activation.Unfolds (.within k (· = b)) s.world β' v₁ o₂' ∧
        x.activation.Unfolds (.within k (· = a)) v₁ α' v₂ o₁' ∧
        choices α' = (choices α).map (Deed.rename ρ) ∧
        choices β' = (choices β).map (Deed.rename ρ)) ∧
      ∀ β' v₁ o₂' α' v₂ o₁', y.activation.Unfolds (.within k (· = b)) s.world β' v₁ o₂' →
        x.activation.Unfolds (.within k (· = a)) v₁ α' v₂ o₁' →
        choices α' = (choices α).map (Deed.rename ρ) →
        choices β' = (choices β).map (Deed.rename ρ) →
        o₁' = o₁.rename ρ ∧ o₂' = o₂.rename ρ ∧ w₂.AgreesUpTo ρ v₂ ∧
        ∀ c, v₂.noticesOn c (β' ++ α') = w₂.noticesOn c (α ++ β) := by
  have hresponsive (S : CellId → Prop) : (Conduct.within k S).IsResponsive :=
    fun _ _ => ⟨.ok .null, trivial⟩
  refine ⟨fun hwait hwait' => ?_, fun α w₁ o₁ β w₂ o₂ ρ h₁ h₂ hρ => ?_⟩
  · obtain ⟨α, w₁, o₁, h₁⟩ := Call.exists_unfolds (hresponsive (· = a)) hwait s.world
    obtain ⟨β, w₂, o₂, h₂⟩ := Call.exists_unfolds (hresponsive (· = b)) hwait' w₁
    exact ⟨α, w₁, o₁, β, w₂, o₂, h₁, h₂⟩
  subst hρ
  obtain ⟨v₁, v₂, hrunB, hrunA, hagrees, hnotices⟩ := h₁.exists_commuted
    (fun c hc hc' => hab (hc.symm.trans hc')) hs.isBounded.world hs.keepsTimers
    (hs.isClosed_of_isApart ha) (hs.isClosed_of_isApart hb) hx hy h₂
  refine ⟨fun q hq => exchange_of_lt hq, fun h => exchange_eq_refl (h.imp ?_ ?_),
    ⟨_, v₁, _, _, v₂, _, hrunB, hrunA, choices_map_rename α, choices_map_rename β⟩, ?_⟩
  · intro h
    rw [h, Nat.sub_self]
  · intro h
    rw [h, Nat.sub_self]
  intro β' v₁' o₂' α' v₂' o₁' hrunB' hrunA' hα hβ
  rw [← choices_map_rename, ← List.append_nil (choices α'),
    ← List.append_nil (choices (α.map _))] at hα
  rw [← choices_map_rename, ← List.append_nil (choices β'),
    ← List.append_nil (choices (β.map _))] at hβ
  obtain ⟨rfl, rfl, rfl⟩ := hrunB'.eq_of_choices hrunB hβ
  obtain ⟨rfl, rfl, rfl⟩ := hrunA'.eq_of_choices hrunA hα
  exact ⟨rfl, rfl, hagrees, hnotices⟩

/-- Of two requests that two starts make, each start returns the first one if it comes first. -/
theorem commute_starts : ∃ α w₁ β w₂ α' v₁ β' v₂,
    (Call.start 0 0 (some "d") []).activation.Unfolds (.within 0 (· = 0)) untimed α w₁
      (.returned (.request 0)) ∧
    (Call.start 0 1 (some "e") []).activation.Unfolds (.within 0 (· = 1)) w₁ β w₂
      (.returned (.request 1)) ∧
    (Call.start 0 1 (some "e") []).activation.Unfolds (.within 0 (· = 1)) untimed β' v₁
      (.returned (.request 0)) ∧
    (Call.start 0 0 (some "d") []).activation.Unfolds (.within 0 (· = 0)) v₁ α' v₂
      (.returned (.request 1)) ∧
    w₂.AgreesUpTo (exchange 0 1 1) v₂ := by
  obtain ⟨α, w₁, β, w₂, h₁, h₂, hcount₁, hcount₂⟩ : ∃ α w₁ β w₂,
      (Call.start 0 0 (some "d") []).activation.Unfolds (.within 0 (· = 0)) untimed α w₁
        (.returned (.request 0)) ∧
      (Call.start 0 1 (some "e") []).activation.Unfolds (.within 0 (· = 1)) w₁ β w₂
        (.returned (.request 1)) ∧
      w₁.requestCount = 1 ∧ w₂.requestCount = 2 :=
    ⟨_, _, _, _,
      .step rfl (.step rfl (.step rfl (.step rfl (.step rfl (.step rfl (.step rfl (.step rfl
        (.resume (.ended _ _))))))))),
      .step rfl (.step rfl (.step rfl (.step rfl (.step rfl (.step rfl (.step rfl (.step rfl
        (.resume (.ended _ _))))))))), rfl, rfl⟩
  have hreach : Reachable Move.any { world := untimed } := ⟨untimed, isNew_untimed, .refl⟩
  have happart (c : CellId) : untimed.IsApart c := fun q hq => absurd hq (Nat.not_lt_zero q)
  obtain ⟨-, hall⟩ := hreach.commute (k := 0) (a := 0) (b := 1) (x := .start 0 0 (some "d") [])
    (y := .start 0 1 (some "e") []) (by decide) (happart 0) (happart 1)
    ⟨⟨rfl, by simp [AreIn]⟩, rfl⟩ ⟨⟨rfl, by simp [AreIn]⟩, rfl⟩
  have hρ : World.exchange untimed w₁ w₂ = exchange 0 1 1 := by
    rw [World.exchange, hcount₁, hcount₂]
    rfl
  obtain ⟨-, -, ⟨β', v₁, o₂', α', v₂, o₁', hrunB, hrunA, hα, hβ⟩, hsame⟩ :=
    hall α w₁ _ β w₂ _ _ h₁ h₂ hρ.symm
  obtain ⟨rfl, rfl, hagrees, -⟩ := hsame _ _ _ _ _ _ hrunB hrunA hα hβ
  exact ⟨α, w₁, β, w₂, α', v₁, β', v₂, h₁, h₂, hrunB, hrunA, hagrees⟩

end System

end Rendezvous
