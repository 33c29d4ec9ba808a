import Mathlib
import Rendezvous.Reference

/-!
# The references of a text, from left to right

Which parts of a text are references is said here without a scanner. A reference stands at a place
of a text if its written form begins there. A division of a text cuts it into literal stretches
and references; it is the leftmost one if in front of each cut no reference stands anywhere in
what remains of the text, and none stands in the last stretch. There is exactly one such division
of every text, and substitution replaces its references and nothing else: values and defaults
enter the result as they are, and so do the stretches between them.

## Main definitions

* `Reference.IsReadable`: the references that can be written in a text.
* `Reference.StandsAt`: a reference at a place of a text.
* `Reference.Division`, with `Division.Divides`: the leftmost division of a text.
* `Reference.IsMissing`, `Reference.value` and `Division.filled`: what stands for a reference.

## Main results

* `Reference.parse?_eq_some_iff`: the scanner takes exactly the readable references.
* `Reference.Division.divides_iff`: the leftmost division is the one that the scanner finds.
* `Reference.expandPieces_pieces`: substitution by way of a leftmost division.
* `Reference.expand_leftmost`: there is exactly one such division, and substitution follows it.
* `Reference.expand_eq_self`: a text without references stays.
-/

namespace Rendezvous.Reference

/-! ### Readable references -/

/-- The ASCII letters and the underscore. -/
def IsLetter (c : Char) : Prop :=
  ('A' ≤ c ∧ c ≤ 'Z') ∨ ('a' ≤ c ∧ c ≤ 'z') ∨ c = '_'

/-- The ASCII digits. -/
def IsDigit (c : Char) : Prop :=
  '0' ≤ c ∧ c ≤ '9'

/-- A reference whose name is an identifier and whose default has no closing brace. -/
structure IsReadable (r : Reference) : Prop where
  name : ∃ c rest, r.name = c :: rest ∧ IsLetter c ∧ ∀ d ∈ rest, IsLetter d ∨ IsDigit d
  fallback : ∀ text, r.fallback = some text → '\x7d' ∉ text

/-- A readable reference is written from a place of a text on. -/
def StandsAt (r : Reference) (i : Nat) (cs : List Char) : Prop :=
  r.IsReadable ∧ r.written <+: cs.drop i

theorem isNameStart_iff {c : Char} : isNameStart c = true ↔ IsLetter c := by
  simp [isNameStart, IsLetter, Char.isAlpha, Char.isUpper, Char.isLower, Char.le_def, or_assoc]

theorem isNameRest_iff {c : Char} : isNameRest c = true ↔ IsLetter c ∨ IsDigit c := by
  have hdigit : c.isDigit = true ↔ IsDigit c := by simp [Char.isDigit, IsDigit, Char.le_def]
  rw [← isNameStart_iff, ← hdigit]
  simp only [isNameRest, isNameStart, Char.isAlphanum, Bool.or_eq_true]
  exact or_right_comm

/-- What is written after the name of a reference. -/
def ending (r : Reference) : List Char :=
  match r.fallback with
  | some text => ':' :: '-' :: (text ++ ['\x7d'])
  | none => ['\x7d']

theorem written_eq (r : Reference) : r.written = '$' :: '\x7b' :: (r.name ++ r.ending) := by
  obtain ⟨name, fallback⟩ := r
  cases fallback <;> simp [written, ending]

section Parsing

variable {r : Reference} {name cs rest : List Char}

/-- After the name of a reference its end is read back, with its default if it has one. -/
theorem parseEnd?_ending (h : ∀ text, r.fallback = some text → '\x7d' ∉ text) :
    parseEnd? r.name (r.ending ++ rest) = some (r, rest) := by
  obtain ⟨name, fallback⟩ := r
  cases fallback with
  | none => rfl
  | some text =>
    have hp : ∀ c ∈ text, (c != '\x7d') = true := fun c hc =>
      bne_iff_ne.mpr fun he => h text rfl (he ▸ hc)
    simp [ending, parseEnd?, List.takeWhile_append_of_pos hp, List.dropWhile_append_of_pos hp]

/-- No character after the name of a reference can continue the name. -/
theorem takeWhile_ending (r : Reference) (rest : List Char) :
    (r.ending ++ rest).takeWhile isNameRest = [] ∧
      (r.ending ++ rest).dropWhile isNameRest = r.ending ++ rest := by
  unfold ending
  split <;> exact ⟨rfl, rfl⟩

/-- A readable reference is read back from its written form, whatever follows it. -/
theorem parse?_written (h : r.IsReadable) : parse? (r.written ++ rest) = some (r, rest) := by
  obtain ⟨c, name, hname, hc, hrest⟩ := h.name
  obtain ⟨htake, hdrop⟩ := takeWhile_ending r rest
  have hp : ∀ d ∈ name, isNameRest d = true := fun d hd => isNameRest_iff.mpr (hrest d hd)
  have hwritten : r.written ++ rest = '$' :: '\x7b' :: c :: (name ++ (r.ending ++ rest)) := by
    simp [written_eq, hname]
  rw [hwritten, parse?, if_pos (isNameStart_iff.mpr hc), List.takeWhile_append_of_pos hp,
    List.dropWhile_append_of_pos hp, htake, hdrop, List.append_nil, ← hname]
  exact parseEnd?_ending h.fallback

theorem fallback_of_parseEnd? (h : parseEnd? name cs = some (r, rest)) :
    r.name = name ∧ ∀ text, r.fallback = some text → '\x7d' ∉ text := by
  unfold parseEnd? at h
  split at h
  · obtain ⟨rfl, -⟩ := Prod.mk.inj (Option.some.inj h)
    exact ⟨rfl, fun _ he => nomatch he⟩
  · split at h
    · obtain ⟨rfl, -⟩ := Prod.mk.inj (Option.some.inj h)
      refine ⟨rfl, fun text he hmem => ?_⟩
      obtain rfl := Option.some.inj he
      simpa using List.all_eq_true.mp List.all_takeWhile _ hmem
    · cases h
  · cases h

theorem isReadable_of_parse? (h : parse? cs = some (r, rest)) : r.IsReadable := by
  unfold parse? at h
  split at h
  · split at h
    · rename_i c tail hc
      obtain ⟨hname, hfallback⟩ := fallback_of_parseEnd? h
      exact ⟨⟨c, _, hname, isNameStart_iff.mp hc, fun d hd =>
        isNameRest_iff.mp (List.all_eq_true.mp List.all_takeWhile d hd)⟩, hfallback⟩
    · cases h
  · cases h

/-- The scanner takes exactly the readable references. -/
theorem parse?_eq_some_iff :
    parse? cs = some (r, rest) ↔ r.IsReadable ∧ cs = r.written ++ rest :=
  ⟨fun h => ⟨isReadable_of_parse? h, eq_written_of_parse? h⟩,
    fun ⟨h, hcs⟩ => hcs ▸ parse?_written h⟩

theorem standsAt_iff {i : Nat} :
    r.StandsAt i cs ↔ ∃ rest, parse? (cs.drop i) = some (r, rest) := by
  simp only [parse?_eq_some_iff, exists_and_left]
  exact and_congr_right fun _ => exists_congr fun _ => eq_comm

end Parsing

/-! ### Leftmost divisions -/

/-- A text cut at references: literal stretches with a reference between any two. -/
inductive Division where
  | last (literal : List Char)
  | cut (literal : List Char) (r : Reference) (rest : Division)

namespace Division

/-- The text that a division cuts. -/
def written : Division → List Char
  | last literal => literal
  | cut literal r rest => literal ++ (r.written ++ rest.written)

/-- The references at the cuts, from left to right. -/
def references : Division → List Reference
  | last _ => []
  | cut _ r rest => r :: rest.references

/-- Each cut is at the earliest reference of what remains, and none is left in the end. -/
def IsLeftmost : Division → Prop
  | last literal => ∀ (q : Reference) i, ¬ q.StandsAt i literal
  | cut literal r rest =>
    (r.IsReadable ∧ ∀ (q : Reference) i,
      q.StandsAt i (literal ++ (r.written ++ rest.written)) → literal.length ≤ i) ∧ rest.IsLeftmost

/-- A division of a text into literal stretches and the earliest references. -/
def Divides (D : Division) (cs : List Char) : Prop :=
  D.written = cs ∧ D.IsLeftmost

/-- Puts a character in front of the first stretch. -/
def prepend (c : Char) : Division → Division
  | last literal => last (c :: literal)
  | cut literal r rest => cut (c :: literal) r rest

/-- The division that the parts of a text make up. -/
def ofPieces : List Piece → Division
  | [] => last []
  | .literal c :: ps => (ofPieces ps).prepend c
  | .reference r :: ps => cut [] r (ofPieces ps)

/-- The parts of a division: its characters and its references. -/
def toPieces : Division → List Piece
  | last literal => literal.map .literal
  | cut literal r rest => literal.map .literal ++ .reference r :: rest.toPieces

@[simp] theorem written_prepend (c : Char) (D : Division) :
    (D.prepend c).written = c :: D.written := by
  cases D <;> rfl

theorem ofPieces_append (literal : List Char) (ps : List Piece) :
    ofPieces (literal.map .literal ++ ps) = literal.foldr prepend (ofPieces ps) := by
  induction literal with
  | nil => rfl
  | cons c rest ih => exact congrArg (prepend c) ih

theorem foldr_prepend (literal : List Char) (D : Division) :
    literal.foldr prepend D = match D with
      | last more => last (literal ++ more)
      | cut more r rest => cut (literal ++ more) r rest := by
  induction literal with
  | nil => cases D <;> rfl
  | cons c tail ih =>
    rw [List.foldr_cons, ih]
    cases D <;> rfl

theorem ofPieces_toPieces (D : Division) : ofPieces D.toPieces = D := by
  induction D with
  | last literal =>
    rw [toPieces, ← List.append_nil (literal.map _), ofPieces_append, foldr_prepend]
    simp [ofPieces]
  | cut literal r rest ih =>
    rw [toPieces, ofPieces_append, foldr_prepend, ofPieces, ih]
    simp

/-- A character at which no reference stands may be put in front. -/
theorem IsLeftmost.prepend {c : Char} {D : Division} (hD : D.IsLeftmost)
    (hc : parse? (c :: D.written) = none) : (D.prepend c).IsLeftmost := by
  have hfront {q : Reference} : ¬ q.StandsAt 0 (c :: D.written) := by
    simp [standsAt_iff, hc]
  cases D with
  | last literal =>
    intro q i hq
    cases i with
    | zero => exact hfront hq
    | succ i => exact hD q i hq
  | cut literal r rest =>
    refine ⟨⟨hD.1.1, fun q i hq => ?_⟩, hD.2⟩
    cases i with
    | zero => exact absurd hq hfront
    | succ i => exact Nat.succ_le_succ (hD.1.2 q i hq)

end Division

open Division

theorem pieces_of_parse? {cs rest : List Char} {r : Reference}
    (h : parse? cs = some (r, rest)) : pieces cs = .reference r :: pieces rest := by
  rw [pieces]
  split
  · rename_i h'
    obtain ⟨rfl, rfl⟩ := Prod.mk.inj (Option.some.inj (h'.symm.trans h))
    rfl
  · rename_i h'
    cases h'.symm.trans h

theorem pieces_of_parse?_eq_none {c : Char} {cs : List Char} (h : parse? (c :: cs) = none) :
    pieces (c :: cs) = .literal c :: pieces cs := by
  rw [pieces]
  split
  · rename_i h'
    cases h'.symm.trans h
  · rfl

/-- A stretch in which no reference begins consists of characters that stand for themselves. -/
theorem pieces_append {literal tail : List Char}
    (h : ∀ (q : Reference) i, q.StandsAt i (literal ++ tail) → literal.length ≤ i) :
    pieces (literal ++ tail) = literal.map .literal ++ pieces tail := by
  induction literal with
  | nil => rfl
  | cons c literal ih =>
    have hnone : parse? (c :: (literal ++ tail)) = none := by
      rw [Option.eq_none_iff_forall_ne_some]
      rintro ⟨q, rest⟩ hq
      exact absurd (h q 0 (standsAt_iff.mpr ⟨rest, hq⟩)) (Nat.not_succ_le_zero _)
    rw [List.cons_append, pieces_of_parse?_eq_none hnone,
      ih fun q i hq => Nat.le_of_succ_le_succ (h q (i + 1) hq)]
    rfl

/-- The scanner divides every text in a leftmost way. -/
theorem divides_ofPieces (cs : List Char) : (ofPieces (pieces cs)).Divides cs := by
  fun_induction pieces cs with
  | case1 cs r rest h ih =>
    refine ⟨?_, ⟨isReadable_of_parse? h, fun _ _ _ => Nat.zero_le _⟩, ih.2⟩
    rw [ofPieces, Division.written, ih.1, List.nil_append, ← eq_written_of_parse? h]
  | case2 h =>
    refine ⟨rfl, fun q i hq => ?_⟩
    rw [standsAt_iff, List.drop_nil, h] at hq
    obtain ⟨rest, hrest⟩ := hq
    cases hrest
  | case3 c rest h ih =>
    refine ⟨by rw [ofPieces, written_prepend, ih.1], ih.2.prepend ?_⟩
    rwa [ih.1]

theorem pieces_of_isLeftmost {D : Division} (hD : D.IsLeftmost) :
    pieces D.written = D.toPieces := by
  induction D with
  | last literal =>
    have h : pieces (literal ++ []) = literal.map .literal ++ pieces [] :=
      pieces_append fun q i hq => absurd (List.append_nil literal ▸ hq) (hD q i)
    rw [List.append_nil] at h
    rw [Division.written, h, pieces, toPieces]
    simp [parse?]
  | cut literal r rest ih =>
    obtain ⟨⟨hr, hfree⟩, hrest⟩ := hD
    rw [Division.written, pieces_append hfree, pieces_of_parse? (parse?_written hr), ih hrest,
      toPieces]

/-- The leftmost division of a text is the one that the scanner finds. -/
theorem Division.divides_iff {D : Division} {cs : List Char} :
    D.Divides cs ↔ D = ofPieces (pieces cs) := by
  refine ⟨fun ⟨hcs, hD⟩ => ?_, fun h => h ▸ divides_ofPieces cs⟩
  rw [← hcs, pieces_of_isLeftmost hD, ofPieces_toPieces]

/-! ### Substitution -/

variable (env : Environment)

/-- The variable of a reference is not set, and the reference has no default. -/
def IsMissing (r : Reference) : Prop :=
  env.lookup (String.ofList r.name) = none ∧ r.fallback = none

instance (r : Reference) : Decidable (r.IsMissing env) :=
  inferInstanceAs (Decidable (_ ∧ _))

/-- What stands for a reference: the value of its variable if it is set, else its default. -/
def value (r : Reference) : List Char :=
  match env.lookup (String.ofList r.name) with
  | some v => v.toList
  | none => r.fallback.getD []

/-- The text of a division with its references replaced. -/
def Division.filled : Division → List Char
  | last literal => literal
  | cut literal r rest => literal ++ (r.value env ++ rest.filled)

theorem resolve_reference (r : Reference) :
    resolve env (.reference r) =
      if r.IsMissing env then .error (String.ofList r.name) else .ok (r.value env) := by
  obtain ⟨name, fallback⟩ := r
  rcases Option.eq_none_or_eq_some (env.lookup (String.ofList name)) with h | ⟨v, h⟩ <;>
    cases fallback <;> simp [resolve, IsMissing, value, h]

theorem expandPieces_append (literal : List Char) (ps : List Piece) :
    expandPieces env (literal.map .literal ++ ps) = (expandPieces env ps).map (literal ++ ·) := by
  induction literal with
  | nil => cases h : expandPieces env ps <;> simp [h, Except.map]
  | cons c literal ih =>
    rw [List.map_cons, List.cons_append, expandPieces, ih]
    cases expandPieces env ps <;> rfl

/-- Part by part, a division is filled in, or its first missing reference is found. -/
theorem expandPieces_toPieces (D : Division) :
    expandPieces env D.toPieces = match D.references.find? (·.IsMissing env) with
      | some r => .error (String.ofList r.name)
      | none => .ok (D.filled env) := by
  induction D with
  | last literal =>
    rw [toPieces, ← List.append_nil (literal.map _), expandPieces_append]
    simp [expandPieces, references, filled, Except.map]
  | cut literal r rest ih =>
    rw [toPieces, expandPieces_append, expandPieces, ih, resolve_reference, references]
    by_cases hr : r.IsMissing env
    · simp [hr, bind, Except.bind, Except.map]
    · cases h : rest.references.find? (·.IsMissing env) <;>
        simp [filled, hr, h, bind, Except.bind, Except.map, pure, Except.pure]

/-- Every text has exactly one leftmost division. Substitution fails at the first of its
references that nothing stands for; if there is none, it replaces each reference by its value and
keeps every stretch between them. -/
theorem expand_leftmost (s : String) :
    ∃ D : Division, D.Divides s.toList ∧ (∀ D' : Division, D'.Divides s.toList → D' = D) ∧
      expand env s = match D.references.find? (·.IsMissing env) with
        | some r => .error (String.ofList r.name)
        | none => .ok (String.ofList (D.filled env)) := by
  obtain ⟨hwritten, hleft⟩ := divides_ofPieces s.toList
  refine ⟨ofPieces (pieces s.toList), ⟨hwritten, hleft⟩, fun D' => divides_iff.mp, ?_⟩
  have hpieces := pieces_of_isLeftmost hleft
  rw [hwritten] at hpieces
  rw [expand, hpieces, expandPieces_toPieces, ← hpieces]
  split <;> rfl

/-- References inside references: the first cut is at the inner one, the second ends at the first
closing brace. -/
def nestedDivision : Division :=
  .cut ['$', '\x7b'] ⟨['A'], none⟩
    (.cut ['\x7d', ' '] ⟨['C'], some ['$', '\x7b', 'A']⟩ (.last ['\x7d']))

/-- Neither the value nor the default that comes in is read again. -/
theorem expand_nestedDivision :
    nestedDivision.Divides "$\x7b$\x7bA\x7d\x7d $\x7bC:-$\x7bA\x7d\x7d".toList ∧
      expand [("A", "$\x7bB\x7d")] "$\x7b$\x7bA\x7d\x7d $\x7bC:-$\x7bA\x7d\x7d" =
        .ok "$\x7b$\x7bB\x7d\x7d $\x7bA\x7d" := by
  have hdivides : nestedDivision.Divides
      "$\x7b$\x7bA\x7d\x7d $\x7bC:-$\x7bA\x7d\x7d".toList :=
    divides_iff.mpr (by cbv)
  obtain ⟨D, -, honly, hexpand⟩ := expand_leftmost [("A", "$\x7bB\x7d")]
    "$\x7b$\x7bA\x7d\x7d $\x7bC:-$\x7bA\x7d\x7d"
  rw [hexpand, ← honly nestedDivision hdivides]
  exact ⟨hdivides, by cbv⟩

/-- A text in which no reference stands anywhere stays as it is. -/
theorem expand_eq_self {s : String} (h : ∀ (q : Reference) i, ¬ q.StandsAt i s.toList) :
    expand env s = .ok s := by
  have hpieces := pieces_of_isLeftmost (D := last s.toList) h
  rw [Division.written] at hpieces
  rw [expand, hpieces, expandPieces_toPieces]
  exact congrArg Except.ok String.ofList_toList

example : expand [("A", "x")] "$\x7b1A\x7d $\x7bA:x\x7d $A $\x7bA" =
    .ok "$\x7b1A\x7d $\x7bA:x\x7d $A $\x7bA" := by cbv

end Rendezvous.Reference
