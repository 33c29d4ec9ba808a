import Rendezvous.Proofs.References.Leftmost

/-!
# Substitution in documents

Substitution goes through a document in order: the fields of an object and the items of a list as
they stand, each text from left to right. Names are no texts. The document that results has the
shape of the given one, with every text replaced by what it expands to. If a reference has nothing
to stand for it, the first one in this order is reported. Of the environment, only the variables
that the texts refer to count.

## Main definitions

* `Reference.texts`: the texts of a document, in order.
* `Reference.references`: the references of a text, in order.
* `Reference.Replaces`: documents of one shape whose texts are related place by place.
* `Reference.failure?`: the name that a substitution complains about.

## Main results

* `Reference.expandDocument_eq_ok_iff`: what a substitution yields, place by place.
* `Reference.failure?_expandDocument`: the first text that fails decides.
* `Reference.expandDocument_congr`: equal texts give equal documents.
* `Reference.expandFields_spec`: the three together, for the fields of a whole document.
-/

namespace Rendezvous.Reference

/-! ### Texts and shapes -/

mutual

/-- The texts of a document at every depth, in order. Names of fields are not among them. -/
def texts : Document → List String
  | .text s => [s]
  | .list items => itemTexts items
  | .object fields => fieldTexts fields
  | _ => []

/-- The texts of the items of a list. -/
def itemTexts : List Document → List String
  | [] => []
  | v :: rest => texts v ++ itemTexts rest

/-- The texts of the fields of an object. -/
def fieldTexts : List (String × Document) → List String
  | [] => []
  | (_, v) :: rest => texts v ++ fieldTexts rest

end

/-- The references of a text, as its leftmost division has them. -/
def references (s : String) : List Reference :=
  (Division.ofPieces (pieces s.toList)).references

section Shape

variable (R : String → String → Prop)

mutual

/-- Two documents of one shape, with related texts at the same places and nothing else changed. -/
def Replaces : Document → Document → Prop
  | .text s, w => ∃ t, R s t ∧ w = .text t
  | .list items, w => ∃ others, ReplacesItems items others ∧ w = .list others
  | .object fields, w => ∃ others, ReplacesFields fields others ∧ w = .object others
  | v, w => w = v

/-- Two lists of the same length that agree in shape item by item. -/
def ReplacesItems : List Document → List Document → Prop
  | [], others => others = []
  | v :: rest, others => ∃ w more, Replaces v w ∧ ReplacesItems rest more ∧ others = w :: more

/-- Two lists of fields with the same names in the same order that agree in shape. -/
def ReplacesFields : List (String × Document) → List (String × Document) → Prop
  | [], others => others = []
  | (name, v) :: rest, others =>
    ∃ w more, Replaces v w ∧ ReplacesFields rest more ∧ others = (name, w) :: more

end

variable {R} {fields others : List (String × Document)}

/-- Only an object turns into an object. -/
theorem Replaces.exists_object {v : Document} (h : Replaces R v (.object others)) :
    ∃ fields, v = .object fields := by
  cases v with
  | object fields => exact ⟨fields, rfl⟩
  | text s =>
    obtain ⟨t, -, ht⟩ := h
    cases ht
  | list items =>
    obtain ⟨more, -, hmore⟩ := h
    cases hmore
  | atom x => cases x
  | null | bool _ | int _ | float _ => simp [Replaces] at h

theorem ReplacesFields.names (h : ReplacesFields R fields others) :
    others.map Prod.fst = fields.map Prod.fst := by
  induction fields generalizing others with
  | nil => rw [ReplacesFields] at h; rw [h]
  | cons f rest ih =>
    obtain ⟨w, more, -, hmore, rfl⟩ := h
    rw [List.map_cons, List.map_cons, ih hmore]

/-- What stands under a name is replaced by what stands there afterwards. -/
theorem ReplacesFields.lookup (h : ReplacesFields R fields others) (name : String) :
    match fields.lookup name with
    | some v => ∃ w, others.lookup name = some w ∧ Replaces R v w
    | none => others.lookup name = none := by
  induction fields generalizing others with
  | nil => rw [ReplacesFields] at h; rw [h]; rfl
  | cons f rest ih =>
    obtain ⟨key, v⟩ := f
    obtain ⟨w, more, hw, hmore, rfl⟩ := h
    rw [List.lookup_cons, List.lookup_cons]
    cases name == key with
    | true => exact ⟨w, rfl, hw⟩
    | false => exact ih hmore

end Shape

/-! ### What a substitution yields -/

section Binding

variable {α β γ : Type} {x : Except String α} {y : Except String β}

/-- The name that a failed substitution complains about. -/
def failure? : Except String α → Option String
  | .error name => some name
  | .ok _ => none

theorem failure?_eq_some_iff {name : String} : failure? x = some name ↔ x = .error name := by
  cases x <;> simp [failure?]

theorem failure?_eq_none_iff : failure? x = none ↔ ∃ a, x = .ok a := by
  cases x <;> simp [failure?]

@[simp] theorem failure?_map (f : α → β) : failure? (x.map f) = failure? x := by
  cases x <;> rfl

theorem map_eq_ok_iff {f : α → β} {b : β} : x.map f = .ok b ↔ ∃ a, x = .ok a ∧ b = f a := by
  cases x <;> simp [Except.map, eq_comm]

/-- Of two substitutions in a row, the first that fails is reported. -/
theorem failure?_bind₂ (f : α → β → γ) :
    failure? (do let a ← x; let b ← y; return f a b) = (failure? x).or (failure? y) := by
  cases x <;> cases y <;> rfl

theorem bind₂_eq_ok_iff {f : α → β → γ} {c : γ} :
    (do let a ← x; let b ← y; return f a b) = .ok c ↔
      ∃ a b, x = .ok a ∧ y = .ok b ∧ c = f a b := by
  cases x <;> cases y <;> simp [bind, Except.bind, pure, Except.pure, eq_comm]

end Binding

section Documents

variable (env : Environment)

mutual

/-- A substitution yields exactly the documents in which every text is replaced by what it
expands to. -/
theorem expandDocument_eq_ok_iff : (v : Document) → {w : Document} →
    expandDocument env v = .ok w ↔ Replaces (fun s t => expand env s = .ok t) v w
  | .text _, _ => by rw [expandDocument, map_eq_ok_iff, Replaces]
  | .list items, _ => by
    rw [expandDocument, map_eq_ok_iff, Replaces]
    simp only [expandItems_eq_ok_iff items]
  | .object fields, _ => by
    rw [expandDocument, map_eq_ok_iff, Replaces]
    simp only [expandFields_eq_ok_iff fields]
  | .null, _ => by simp [expandDocument, Replaces, eq_comm]
  | .bool _, _ => by simp [expandDocument, Replaces, eq_comm]
  | .int _, _ => by simp [expandDocument, Replaces, eq_comm]
  | .float _, _ => by simp [expandDocument, Replaces, eq_comm]

theorem expandItems_eq_ok_iff : (items : List Document) → {others : List Document} →
    expandItems env items = .ok others ↔
      ReplacesItems (fun s t => expand env s = .ok t) items others
  | [], _ => by simp [expandItems, ReplacesItems, eq_comm]
  | v :: rest, _ => by
    rw [expandItems, bind₂_eq_ok_iff, ReplacesItems]
    simp only [expandDocument_eq_ok_iff v, expandItems_eq_ok_iff rest]

theorem expandFields_eq_ok_iff : (fields : List (String × Document)) →
    {others : List (String × Document)} →
    expandFields env fields = .ok others ↔
      ReplacesFields (fun s t => expand env s = .ok t) fields others
  | [], _ => by simp [expandFields, ReplacesFields, eq_comm]
  | (_, v) :: rest, _ => by
    rw [expandFields, bind₂_eq_ok_iff, ReplacesFields]
    simp only [expandDocument_eq_ok_iff v, expandFields_eq_ok_iff rest]

end

mutual

/-- A substitution complains about the first text, in order, that does not expand. -/
theorem failure?_expandDocument : (v : Document) →
    failure? (expandDocument env v) = (texts v).findSome? fun s => failure? (expand env s)
  | .text s => by
    rw [expandDocument, failure?_map, texts, List.findSome?_singleton]
  | .list items => by rw [expandDocument, failure?_map, texts, failure?_expandItems items]
  | .object fields => by rw [expandDocument, failure?_map, texts, failure?_expandFields fields]
  | .null | .bool _ | .int _ | .float _ => rfl

theorem failure?_expandItems : (items : List Document) →
    failure? (expandItems env items) = (itemTexts items).findSome? fun s => failure? (expand env s)
  | [] => rfl
  | v :: rest => by
    rw [expandItems, failure?_bind₂, failure?_expandDocument v, failure?_expandItems rest,
      itemTexts, List.findSome?_append]

theorem failure?_expandFields : (fields : List (String × Document)) →
    failure? (expandFields env fields) =
      (fieldTexts fields).findSome? fun s => failure? (expand env s)
  | [] => rfl
  | (name, v) :: rest => by
    rw [expandFields, failure?_bind₂ (fun w more => (name, w) :: more), failure?_expandDocument v,
      failure?_expandFields rest, fieldTexts, List.findSome?_append]

end

mutual

/-- Substitutions that agree on the texts of a document agree on the document. -/
theorem expandDocument_congr {env env' : Environment} : (v : Document) →
    (∀ s ∈ texts v, expand env' s = expand env s) → expandDocument env' v = expandDocument env v
  | .text s, h => by rw [expandDocument, expandDocument, h s List.mem_cons_self]
  | .list items, h => by rw [expandDocument, expandDocument, expandItems_congr items h]
  | .object fields, h => by rw [expandDocument, expandDocument, expandFields_congr fields h]
  | .null, _ | .bool _, _ | .int _, _ | .float _, _ => rfl

theorem expandItems_congr {env env' : Environment} : (items : List Document) →
    (∀ s ∈ itemTexts items, expand env' s = expand env s) →
      expandItems env' items = expandItems env items
  | [], _ => rfl
  | v :: rest, h => by
    rw [expandItems, expandItems,
      expandDocument_congr v fun s hs => h s (List.mem_append_left _ hs),
      expandItems_congr rest fun s hs => h s (List.mem_append_right _ hs)]

theorem expandFields_congr {env env' : Environment} : (fields : List (String × Document)) →
    (∀ s ∈ fieldTexts fields, expand env' s = expand env s) →
      expandFields env' fields = expandFields env fields
  | [], _ => rfl
  | (_, v) :: rest, h => by
    rw [expandFields, expandFields,
      expandDocument_congr v fun s hs => h s (List.mem_append_left _ hs),
      expandFields_congr rest fun s hs => h s (List.mem_append_right _ hs)]

end

/-! ### The references that count -/

/-- The references of a text are those of any leftmost division. -/
theorem references_of_divides {D : Division} {s : String} (h : D.Divides s.toList) :
    references s = D.references := by
  rw [references, ← Division.divides_iff.mp h]

/-- A text complains about the first of its references that nothing stands for. -/
theorem failure?_expand (s : String) :
    failure? (expand env s) =
      ((references s).find? (·.IsMissing env)).map fun r => String.ofList r.name := by
  obtain ⟨D, hD, -, hs⟩ := expand_leftmost env s
  rw [hs, references_of_divides hD]
  cases D.references.find? (·.IsMissing env) <;> rfl

theorem Division.filled_congr {env env' : Environment} {D : Division}
    (h : ∀ r ∈ D.references, env'.lookup (String.ofList r.name) =
      env.lookup (String.ofList r.name)) : D.filled env' = D.filled env := by
  induction D with
  | last => rfl
  | cut literal r rest ih =>
    have hr : r.value env' = r.value env := by
      rw [value, value, h r List.mem_cons_self]
    rw [filled, filled, hr, ih fun q hq => h q (List.mem_cons_of_mem _ hq)]

/-- The fields of a document complain about the first of all their references that nothing stands
for. -/
theorem failure?_expandFields_eq_find? (fields : List (String × Document)) :
    failure? (expandFields env fields) =
      (((fieldTexts fields).flatMap references).find? (·.IsMissing env)).map
        fun r => String.ofList r.name := by
  rw [failure?_expandFields, List.find?_flatMap, List.map_findSome?]
  exact congrArg (List.findSome? · _) (funext (failure?_expand env))

/-- Only the variables that a text refers to count for what it expands to. -/
theorem expand_congr {env env' : Environment} {s : String}
    (h : ∀ r ∈ references s, env'.lookup (String.ofList r.name) =
      env.lookup (String.ofList r.name)) : expand env' s = expand env s := by
  obtain ⟨D, hD, -, hs⟩ := expand_leftmost env s
  obtain ⟨D', hD', -, hs'⟩ := expand_leftmost env' s
  obtain rfl : D' = D := (Division.divides_iff.mp hD').trans (Division.divides_iff.mp hD).symm
  rw [references_of_divides hD] at h
  have hmissing : D'.references.find? (·.IsMissing env') =
      D'.references.find? (·.IsMissing env) :=
    List.find?_congr fun r hr => decide_eq_decide.mpr (by rw [IsMissing, IsMissing, h r hr])
  rw [hs, hs', hmissing, Division.filled_congr h]

/-- The fields of a document expand exactly if every text in them does, at every depth. They keep
their shape and their names, and every text is replaced by what it expands to. If not, the first
reference in order that nothing stands for is reported. An environment that has the same values
for the variables referred to gives the same result. -/
theorem expandFields_spec (fields : List (String × Document)) :
    ((∃ out, expandFields env fields = .ok out) ↔
        ∀ s ∈ fieldTexts fields, ∃ t, expand env s = .ok t) ∧
      (∀ out, expandFields env fields = .ok out ↔
        ReplacesFields (fun s t => expand env s = .ok t) fields out) ∧
      (∀ name, expandFields env fields = .error name ↔
        ∃ r, ((fieldTexts fields).flatMap references).find? (·.IsMissing env) = some r ∧
          String.ofList r.name = name) ∧
      ∀ env' : Environment,
        (∀ r ∈ (fieldTexts fields).flatMap references,
          env'.lookup (String.ofList r.name) = env.lookup (String.ofList r.name)) →
        expandFields env' fields = expandFields env fields := by
  refine ⟨?_, fun out => expandFields_eq_ok_iff env fields, fun name => ?_, fun env' h => ?_⟩
  · simp only [← failure?_eq_none_iff, failure?_expandFields, List.findSome?_eq_none_iff]
  · rw [← failure?_eq_some_iff, failure?_expandFields_eq_find?, Option.map_eq_some_iff]
  · exact expandFields_congr fields fun s hs => expand_congr fun r hr =>
      h r (List.mem_flatMap.mpr ⟨s, hs, hr⟩)

/-- Texts in an object in a list, and a name that looks like a reference. -/
def nestedFields : List (String × Document) :=
  [("first", .list [.object [("inner", .text "$\x7bA\x7d")], .text "$\x7bB:-x\x7d$\x7bC\x7d"]),
    ("$\x7bD\x7d", .int 1)]

/-- A variable that only a name mentions does not count, and of two missing references the first in
order is reported. -/
theorem expandFields_nestedFields :
    (∀ r ∈ (fieldTexts nestedFields).flatMap references,
      List.lookup (String.ofList r.name) [("A", "1"), ("C", "2"), ("D", "3")] =
        List.lookup (String.ofList r.name) [("A", "1"), ("C", "2")]) ∧
      expandFields [("A", "1"), ("C", "2"), ("D", "3")] nestedFields =
        expandFields [("A", "1"), ("C", "2")] nestedFields ∧
      expandFields [("B", "2")] nestedFields = .error "A" := by
  have hreferences : (fieldTexts nestedFields).flatMap references =
      [⟨['A'], none⟩, ⟨['B'], some ['x']⟩, ⟨['C'], none⟩] := by cbv
  have hagree : ∀ r ∈ (fieldTexts nestedFields).flatMap references,
      List.lookup (String.ofList r.name) [("A", "1"), ("C", "2"), ("D", "3")] =
        List.lookup (String.ofList r.name) [("A", "1"), ("C", "2")] := by
    rw [hreferences]
    decide
  refine ⟨hagree, (expandFields_spec _ nestedFields).2.2.2 _ hagree, ?_⟩
  refine ((expandFields_spec _ nestedFields).2.2.1 "A").mpr ⟨⟨['A'], none⟩, ?_, rfl⟩
  rw [hreferences]
  decide

end Documents

end Rendezvous.Reference
