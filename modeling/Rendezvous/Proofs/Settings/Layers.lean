import Rendezvous.Settings.Overlay
import Rendezvous.Proofs.Settings.Capitals

/-!
# Layers of a section

Everything that a file and an environment say about one section of the root is a sequence of
layers, laid one over the other in the order in which they are read. A layer that is no object
hides what lies below it; objects are joined, so that of a section only the newest stretch of
objects counts. For a section whose fields are declared and are all spelled as declared, the
newest layer that names a field, in whatever letters, has the word on its value, and the section
is spelled as declared exactly if each field is so spelled where it is named for the first time.

## Main definitions

* `Overlay.layer?` and `Overlay.layers`: what assignments lay over a section, newest first.
* `Overlay.lay`: the section that layers make up.
* `Overlay.stretch` and `Overlay.joined`: the newest objects among them, and their fields.
* `Overlay.latest?`: the newest value that layers give a field.
* `Overlay.WellSpelled`: layers that first name every field as it is declared.

## Main results

* `Overlay.find?_foldl_assign`: a section of the root is made up of its layers.
* `Overlay.lookup_mergeFields`: the value of a field after one more layer.
* `Overlay.declared_joined_iff`: which layers make up a section that is spelled as declared.
* `Overlay.covers_joined`: its values are the newest ones.
-/

namespace Rendezvous.Overlay

open Text (lowerCaseAscii)

/-! ### Spellings -/

section Spelling

variable {fields : List (String × Document)} {name key : String}

theorem lookup_cons_of_ne (h : name ≠ key) (v : Document) (fields : List (String × Document)) :
    ((key, v) :: fields).lookup name = fields.lookup name := by
  simp [List.lookup_cons, beq_eq_false_iff_ne.mpr h]

theorem isSome_lookup_iff : (fields.lookup name).isSome ↔ name ∈ fields.map Prod.fst := by
  simp [List.lookup_isSome_iff]

/-- A field stays where others are left out by name. -/
theorem lookup_filter {p : String → Bool} (h : p name = true)
    (fields : List (String × Document)) :
    (fields.filter fun f => p f.1).lookup name = fields.lookup name := by
  induction fields with
  | nil => rfl
  | cons f rest ih =>
    obtain ⟨first, v⟩ := f
    by_cases hn : name = first
    · subst hn
      rw [List.filter_cons, if_pos h, List.lookup_cons_self, List.lookup_cons_self]
    · rw [List.filter_cons, lookup_cons_of_ne hn]
      split
      · rw [lookup_cons_of_ne hn, ih]
      · exact ih

theorem names_filter (fields : List (String × Document)) (key : String) :
    (fields.filter (·.1 != key)).map Prod.fst = (fields.map Prod.fst).filter (· != key) := by
  rw [List.filter_map]
  rfl

theorem mem_names_filter : name ∈ (fields.filter (·.1 != key)).map Prod.fst ↔
    name ∈ fields.map Prod.fst ∧ name ≠ key := by
  rw [names_filter, List.mem_filter, bne_iff_ne]

/-- The spelling of a name differs from it in the case of letters at most. -/
theorem lowerCaseAscii_spelling (fields : List (String × Document)) (name : String) :
    lowerCaseAscii (spelling fields name) = lowerCaseAscii name := by
  unfold spelling
  split
  · rfl
  · split
    · rename_i hf
      simpa using List.find?_some hf
    · rfl

theorem spelling_mem (h : ∃ x ∈ fields.map Prod.fst, lowerCaseAscii x = lowerCaseAscii name) :
    spelling fields name ∈ fields.map Prod.fst := by
  unfold spelling
  split
  · exact isSome_lookup_iff.mp ‹_›
  · split
    · rename_i f hf
      exact List.mem_map_of_mem (List.mem_of_find?_eq_some hf)
    · rename_i hnone
      obtain ⟨x, hx, hlow⟩ := h
      obtain ⟨f, hf, rfl⟩ := List.mem_map.mp hx
      exact absurd (by simpa using hlow) (List.find?_eq_none.mp hnone f hf)

theorem spelling_eq_self (h : ∀ x ∈ fields.map Prod.fst, lowerCaseAscii x ≠ lowerCaseAscii name) :
    spelling fields name = name := by
  unfold spelling
  split
  · rfl
  · split
    · rename_i f hf
      exact absurd (by simpa using List.find?_some hf)
        (h f.1 (List.mem_map_of_mem (List.mem_of_find?_eq_some hf)))
    · rfl

end Spelling

/-! ### One layer -/

/-- A value laid over what may be there. -/
def laid (v : Document) : Option Document → Document
  | some w => merge v w
  | none => v

section Merging

variable {new old : List (String × Document)}

theorem mergeFields_cons (name : String) (v : Document) (rest old : List (String × Document)) :
    mergeFields ((name, v) :: rest) old =
      (spelling old name, laid v (old.lookup (spelling old name))) ::
        mergeFields rest (old.filter (·.1 != spelling old name)) := by
  rw [mergeFields]
  cases old.lookup (spelling old name) <;> rfl

/-- No field gets lost under a layer. -/
theorem mem_mergeFields {x : String} (h : x ∈ old.map Prod.fst) :
    x ∈ (mergeFields new old).map Prod.fst := by
  induction new generalizing old with
  | nil => rwa [mergeFields]
  | cons f rest ih =>
    obtain ⟨name, v⟩ := f
    rw [mergeFields_cons, List.map_cons, List.mem_cons]
    by_cases hx : x = spelling old name
    · exact .inl hx
    · exact .inr (ih (mem_names_filter.mpr ⟨h, hx⟩))

/-- A layer adds no names but its own, in whatever letters. -/
theorem mem_of_mem_mergeFields {x : String} (h : x ∈ (mergeFields new old).map Prod.fst) :
    x ∈ old.map Prod.fst ∨ lowerCaseAscii x ∈ new.map fun f => lowerCaseAscii f.1 := by
  induction new generalizing old with
  | nil => exact .inl (by rwa [mergeFields] at h)
  | cons f rest ih =>
    obtain ⟨name, v⟩ := f
    rw [mergeFields_cons, List.map_cons, List.mem_cons] at h
    obtain rfl | h := h
    · exact .inr (lowerCaseAscii_spelling old name ▸ List.mem_cons_self)
    · exact (ih h).imp (fun hx => (mem_names_filter.mp hx).1) (List.mem_cons_of_mem _)

/-- A layer over nothing stays as it is. -/
theorem mergeFields_nil (new : List (String × Document)) : mergeFields new [] = new := by
  induction new with
  | nil => rfl
  | cons f rest ih =>
    obtain ⟨name, v⟩ := f
    rw [mergeFields_cons]
    exact congrArg _ ih

end Merging

/-! ### Layers that are spelled as declared -/

section Declared

variable (declared : List String)

/-- All names are declared. -/
def Declared (fields : List (String × Document)) : Prop :=
  ∀ x ∈ fields.map Prod.fst, x ∈ declared

/-- Fields that are declared, or are known already and then named once, in whatever letters. -/
def Fits : (known : List String) → List (String × Document) → Prop
  | _, [] => True
  | known, (name, _) :: rest =>
    (name ∈ declared ∨ lowerCaseAscii name ∈ known) ∧
      Fits (known.filter (· != lowerCaseAscii name)) rest

variable {declared} (hlow : ∀ x ∈ declared, lowerCaseAscii x = x)
  {new old : List (String × Document)}

theorem Fits.congr {known known' : List String} (h : ∀ x, x ∈ known ↔ x ∈ known')
    (hfits : Fits declared known new) : Fits declared known' new := by
  induction new generalizing known known' with
  | nil => trivial
  | cons f rest ih =>
    refine ⟨hfits.1.imp_right (h _).mp, ih (fun x => ?_) hfits.2⟩
    simp only [List.mem_filter, h x]

include hlow

theorem Declared.spelling_eq (hold : Declared declared old) {name : String}
    (h : lowerCaseAscii name ∈ old.map Prod.fst) : spelling old name = lowerCaseAscii name := by
  have hmem := spelling_mem ⟨_, h, hlow _ (hold _ h)⟩
  rw [← hlow _ (hold _ hmem), lowerCaseAscii_spelling]

theorem Declared.spelling_eq_self (hold : Declared declared old) {name : String}
    (h : lowerCaseAscii name ∉ old.map Prod.fst) : spelling old name = name := by
  refine Overlay.spelling_eq_self fun x hx hlower => h ?_
  rwa [← hlower, hlow x (hold x hx)]

/-- A layer leaves all names declared exactly if they were so and it fits. -/
theorem declared_mergeFields_iff :
    Declared declared (mergeFields new old) ↔
      Declared declared old ∧ Fits declared (old.map Prod.fst) new := by
  induction new generalizing old with
  | nil => simp [mergeFields, Fits]
  | cons f rest ih =>
    obtain ⟨name, v⟩ := f
    have hsplit : Declared declared (mergeFields ((name, v) :: rest) old) ↔
        Declared declared old ∧ spelling old name ∈ declared ∧
          Fits declared ((old.filter (·.1 != spelling old name)).map Prod.fst) rest := by
      rw [mergeFields_cons, Declared, List.map_cons, List.forall_mem_cons, ← Declared, ih]
      constructor
      · rintro ⟨hs, hdecl, hfits⟩
        refine ⟨fun x hx => ?_, hs, hfits⟩
        by_cases hne : x = spelling old name
        · exact hne ▸ hs
        · exact hdecl x (mem_names_filter.mpr ⟨hx, hne⟩)
      · rintro ⟨hdecl, hs, hfits⟩
        exact ⟨hs, fun x hx => hdecl x (mem_names_filter.mp hx).1, hfits⟩
    rw [hsplit, Fits]
    refine and_congr_right fun hold => ?_
    by_cases hknown : lowerCaseAscii name ∈ old.map Prod.fst
    · rw [hold.spelling_eq hlow hknown, names_filter]
      exact and_congr_left fun _ => ⟨fun _ => .inr hknown, fun _ => hold _ hknown⟩
    · rw [hold.spelling_eq_self hlow hknown, names_filter, or_iff_left hknown]
      refine and_congr_right fun hname => ?_
      rw [hlow name hname]

/-- Once a layer fits, the value of a field is that of the layer if it names the field, in
whatever letters, and what was there before if not. -/
theorem lookup_mergeFields (h : Declared declared (mergeFields new old)) (name : String) :
    (mergeFields new old).lookup name =
      match new.find? fun f => lowerCaseAscii f.1 == name with
      | some f => some (laid f.2 (old.lookup name))
      | none => old.lookup name := by
  induction new generalizing old with
  | nil => rfl
  | cons f rest ih =>
    obtain ⟨key, v⟩ := f
    rw [mergeFields_cons] at h ⊢
    obtain ⟨hs, hrest⟩ := List.forall_mem_cons.mp h
    have hspelled : spelling old key = lowerCaseAscii key :=
      (hlow _ hs).symm.trans (lowerCaseAscii_spelling old key)
    rw [hspelled] at hrest ⊢
    by_cases hname : lowerCaseAscii key = name
    · rw [List.find?_cons_of_pos (by simpa using hname), hname, List.lookup_cons_self]
    · rw [List.find?_cons_of_neg (by simpa using hname), lookup_cons_of_ne (Ne.symm hname),
        ih hrest, lookup_filter (p := (· != lowerCaseAscii key)) (by simpa using Ne.symm hname)]

end Declared

/-! ### Stretches of objects -/

/-- The fields of objects laid one over the other, newest first. -/
def joined : List (List (String × Document)) → List (String × Document)
  | [] => []
  | fields :: older => mergeFields fields (joined older)

/-- The newest value that objects give a field, in whatever letters they name it. -/
def latest? (name : String) : List (List (String × Document)) → Option Document
  | [] => none
  | fields :: older =>
    ((fields.find? fun f => lowerCaseAscii f.1 == name).map Prod.snd).or (latest? name older)

/-- The small forms of all names that objects give. -/
def known (objects : List (List (String × Document))) : List String :=
  objects.flatten.map fun f => lowerCaseAscii f.1

/-- Each field is first named as it is declared. -/
def WellSpelled (declared : List String) : List (List (String × Document)) → Prop
  | [] => True
  | fields :: older => WellSpelled declared older ∧ Fits declared (known older) fields

/-- A value that stands for another: the same, or an object joined with others. -/
def Covers : (given held : Option Document) → Prop
  | none, none => True
  | some (.object _), some w => ∃ fields, w = .object fields
  | some v, some w => w = v
  | _, _ => False

theorem Covers.isSome_eq {given held : Option Document} (h : Covers given held) :
    given.isSome = held.isSome := by
  unfold Covers at h
  split at h <;> first | rfl | exact h.elim

theorem covers_laid (v : Document) (held : Option Document) :
    Covers (some v) (some (laid v held)) := by
  cases held with
  | none => cases v <;> simp [laid, Covers]
  | some w => cases v <;> cases w <;> simp [laid, merge, Covers]

section Joined

variable {declared : List String} {objects : List (List (String × Document))}

theorem mem_known_iff_isSome (name : String) :
    name ∈ known objects ↔ (latest? name objects).isSome := by
  induction objects with
  | nil => simp [known, latest?]
  | cons fields older ih =>
    rw [latest?, Option.isSome_or, Bool.or_eq_true, ← ih, Option.isSome_map, List.find?_isSome]
    simp [known]

theorem lowerCaseAscii_mem_known {x : String} (h : x ∈ (joined objects).map Prod.fst) :
    lowerCaseAscii x ∈ known objects := by
  induction objects with
  | nil => exact absurd h List.not_mem_nil
  | cons fields older ih =>
    rw [known, List.flatten_cons, List.map_append, List.mem_append]
    exact (mem_of_mem_mergeFields h).symm.imp_right ih

/-- A field that no object has named keeps the spelling under which it is added. -/
theorem mem_joined_of_latest?_eq_none {key : String} (v : Document)
    (h : latest? (lowerCaseAscii key) objects = none) :
    key ∈ (joined ([(key, v)] :: objects)).map Prod.fst := by
  have hnew : ∀ x ∈ (joined objects).map Prod.fst, lowerCaseAscii x ≠ lowerCaseAscii key := by
    intro x hx hsame
    have hknown := (mem_known_iff_isSome _).mp (lowerCaseAscii_mem_known hx)
    rw [hsame, h] at hknown
    cases hknown
  rw [joined, mergeFields_cons, spelling_eq_self hnew]
  exact List.mem_cons_self

variable (hlow : ∀ x ∈ declared, lowerCaseAscii x = x)

include hlow

/-- Of fields that are spelled as declared, each has the newest value given to it. -/
theorem covers_joined (h : Declared declared (joined objects)) (name : String) :
    Covers (latest? name objects) ((joined objects).lookup name) := by
  induction objects with
  | nil => trivial
  | cons fields older ih =>
    have hold := ((declared_mergeFields_iff hlow).mp h).1
    rw [latest?, joined, lookup_mergeFields hlow h]
    cases fields.find? fun f => lowerCaseAscii f.1 == name with
    | none => exact ih hold
    | some f => exact covers_laid f.2 _

theorem mem_known_iff (h : Declared declared (joined objects)) (name : String) :
    name ∈ known objects ↔ name ∈ (joined objects).map Prod.fst := by
  rw [mem_known_iff_isSome, (covers_joined hlow h name).isSome_eq, isSome_lookup_iff]

/-- Objects make up fields that are spelled as declared exactly if each field is first named so. -/
theorem declared_joined_iff :
    Declared declared (joined objects) ↔ WellSpelled declared objects := by
  induction objects with
  | nil => exact ⟨fun _ => trivial, fun _ _ h => absurd h List.not_mem_nil⟩
  | cons fields older ih =>
    rw [joined, declared_mergeFields_iff hlow, WellSpelled, ← ih]
    refine and_congr_right fun hold => ⟨Fits.congr fun x => ?_, Fits.congr fun x => ?_⟩
    · exact (mem_known_iff hlow hold x).symm
    · exact mem_known_iff hlow hold x

end Joined

/-! ### Layers of a section -/

/-- What an assignment lays over a section, if its name leads there. -/
def layer? (key name : String) (v : Document) : Option Document :=
  match steps name with
  | [] => none
  | first :: rest => if Text.upperCase first = key then some (nest v rest) else none

/-- What assignments lay over a section, newest first. -/
def layers (key : String) (assignments : List (String × Document)) : List Document :=
  (assignments.filterMap fun a => layer? key a.1 a.2).reverse

/-- The section that layers make up. -/
def lay : List Document → Option Document
  | [] => none
  | v :: older => some (laid v (lay older))

/-- The newest objects among layers, up to the first layer that is none. -/
def stretch : List Document → List (List (String × Document))
  | .object fields :: older => fields :: stretch older
  | _ => []

/-- Assignments one after the other. -/
def assignAll (root : Root) (assignments : List (String × Document)) : Root :=
  assignments.foldl (fun root a => assign root a.1 a.2) root

theorem layer?_eq_some_iff {key name : String} {v w : Document} : layer? key name v = some w ↔
    ∃ first rest, steps name = first :: rest ∧ Text.upperCase first = key ∧ w = nest v rest := by
  unfold layer?
  cases steps name <;> simp [eq_comm]

theorem layers_append (key : String) (first second : List (String × Document)) :
    layers key (first ++ second) = layers key second ++ layers key first := by
  rw [layers, List.filterMap_append, List.reverse_append]
  rfl

/-- Joined objects make up a section; anything else is the section by itself. -/
theorem lay_eq (stack : List Document) :
    lay stack = match stack with
      | [] => none
      | .object _ :: _ => some (.object (joined (stretch stack)))
      | v :: _ => some v := by
  induction stack with
  | nil => rfl
  | cons v older ih =>
    rw [lay, ih]
    cases v with
    | object fields =>
      match older with
      | [] => simp [laid, stretch, joined, mergeFields_nil]
      | .object _ :: _ => simp [laid, merge, stretch, joined]
      | .null :: _ | .bool _ :: _ | .int _ :: _ | .float _ :: _ | .text _ :: _ | .list _ :: _ =>
        simp [laid, merge, stretch, joined, mergeFields_nil]
    | null | bool _ | int _ | float _ | text _ | list _ =>
      match older with
      | [] => rfl
      | .object _ :: _ => rfl
      | .null :: _ | .bool _ :: _ | .int _ :: _ | .float _ :: _ | .text _ :: _ | .list _ :: _ => rfl
    | atom x => cases x

/-- Layers that make up a field make up an object. -/
theorem lay_eq_object {stack : List Document} {x : String}
    (h : x ∈ (joined (stretch stack)).map Prod.fst) :
    lay stack = some (.object (joined (stretch stack))) := by
  rw [lay_eq]
  match stack with
  | [] => exact nomatch h
  | .object _ :: _ => rfl
  | .null :: _ | .bool _ :: _ | .int _ :: _ | .float _ :: _ | .text _ :: _ | .list _ :: _ =>
    exact nomatch h

/-- No field gets lost under layers that are objects. -/
theorem mem_joined_append {newer older : List Document} {x : String}
    (hnewer : ∀ v ∈ newer, ∃ fields, v = .object fields)
    (h : x ∈ (joined (stretch older)).map Prod.fst) :
    x ∈ (joined (stretch (newer ++ older))).map Prod.fst := by
  induction newer with
  | nil => exact h
  | cons v rest ih =>
    obtain ⟨⟨fields, rfl⟩, hrest⟩ := List.forall_mem_cons.mp hnewer
    exact mem_mergeFields (ih hrest)

theorem find?_assign (root : Root) (key name : String) (v : Document) :
    (assign root name v).find? key = match layer? key name v with
      | some w => some (laid w (root.find? key))
      | none => root.find? key := by
  unfold assign layer?
  cases steps name with
  | nil => rfl
  | cons first rest =>
    rw [Directory.find?_put]
    by_cases hkey : Text.upperCase first = key
    · simp only [hkey]
      cases root.find? key <;> rfl
    · simp [hkey, Ne.symm hkey]

/-- A section of the root is made up of its layers. -/
theorem find?_assignAll (assignments : List (String × Document)) (key : String) :
    (assignAll {} assignments).find? key = lay (layers key assignments) := by
  suffices h : ∀ (root : Root) stack, root.find? key = lay stack →
      (assignAll root assignments).find? key = lay (layers key assignments ++ stack) by
    simpa using h {} [] rfl
  induction assignments with
  | nil => exact fun _ _ h => h
  | cons a rest ih =>
    intro root stack h
    have hstep : (assign root a.1 a.2).find? key = lay (layers key [a] ++ stack) := by
      rw [find?_assign, h, layers, List.filterMap_cons]
      cases layer? key a.1 a.2 <;> rfl
    rw [← List.singleton_append, layers_append, List.append_assoc]
    exact ih _ _ hstep

/-! ### The names of the root -/

/-- A root whose sections have names without small letters. -/
def HasCapitals (root : Root) : Prop :=
  ∀ key ∈ root.keys, Text.IsCapital key

theorem hasCapitals_empty : HasCapitals {} :=
  fun _ h => absurd h List.not_mem_nil

theorem HasCapitals.put {root : Root} {key : String} (h : HasCapitals root)
    (hkey : Text.IsCapital key) (v : Document) : HasCapitals (root.put key v) := by
  intro other hother
  by_cases hsame : other = key
  · exact hsame ▸ hkey
  · refine h other (Decidable.byContradiction fun hnew => ?_)
    refine Directory.contains_eq_false_iff.mp ?_ hother
    rw [← Directory.contains_eq_false_iff] at hnew
    rwa [Directory.contains, Directory.find?_put, if_neg hsame]

theorem HasCapitals.assign {root : Root} (h : HasCapitals root) (name : String) (v : Document) :
    HasCapitals (assign root name v) := by
  unfold Overlay.assign
  split
  · exact h
  · exact h.put (Text.isCapital_upperCase _) _

theorem HasCapitals.assignAll {root : Root} (h : HasCapitals root)
    (assignments : List (String × Document)) : HasCapitals (assignAll root assignments) := by
  induction assignments generalizing root with
  | nil => exact h
  | cons a rest ih => exact ih (h.assign a.1 a.2)

/-- As a field of a document, a section has the small form of its name. -/
theorem lookup_fields {root : Root} (hroot : HasCapitals root) {key : String}
    (hkey : Text.IsCapital key) : (fields root).lookup (lowerCaseAscii key) = root.find? key := by
  obtain ⟨entries⟩ := root
  simp only [fields, Directory.find?]
  induction entries with
  | nil => rfl
  | cons e rest ih =>
    obtain ⟨first, v⟩ := e
    obtain ⟨hfirst, hrest⟩ := List.forall_mem_cons.mp hroot
    rw [List.map_cons, Directory.search]
    by_cases hsame : first = key
    · rw [if_pos hsame, hsame, List.lookup_cons_self]
    · have hne : lowerCaseAscii key ≠ lowerCaseAscii first := fun he =>
        hsame (Text.eq_of_lowerCaseAscii_eq hkey hfirst he).symm
      rw [if_neg hsame, lookup_cons_of_ne hne, ih hrest]

/-! ### Files and environments -/

/-- The assignments of a file; of several fields with one name, the last counts. -/
def fileAssignments (fields : List (String × Document)) : List (String × Document) :=
  (fields.foldl (fun d f => Directory.put d (rootName f.1) f.2) ({} : Root)).entries

/-- The assignment that a variable makes, if it holds a setting. -/
def setting? (entry : String × String) : Option (String × Document) :=
  if variablePrefix.toList.isPrefixOf entry.1.toList then
    some (String.ofList (entry.1.toList.drop variablePrefix.length), VariableText.read entry.2)
  else none

theorem setting?_eq_some_iff {entry : String × String} {a : String × Document} :
    setting? entry = some a ↔ ∃ tail, entry.1.toList = variablePrefix.toList ++ tail ∧
      a = (String.ofList tail, VariableText.read entry.2) := by
  unfold setting?
  split
  · rename_i hvariable
    obtain ⟨tail, htail⟩ := List.isPrefixOf_iff_prefix.mp hvariable
    have hdrop : entry.1.toList.drop variablePrefix.length = tail := by
      rw [← htail]
      exact List.drop_left
    rw [hdrop, ← htail]
    simp [eq_comm]
  · rename_i hvariable
    refine iff_of_false (fun hsome => ?_) fun hsome => hvariable ?_
    · cases hsome
    · obtain ⟨tail, htail, -⟩ := hsome
      exact List.isPrefixOf_iff_prefix.mpr ⟨tail, htail.symm⟩

/-- All assignments, those of the file first. -/
def assignmentsOf (fields : List (String × Document)) (env : Environment) :
    List (String × Document) :=
  fileAssignments fields ++ env.filterMap setting?

/-- A file and an environment are laid down assignment by assignment. -/
theorem addVariables_ofFile (fields : List (String × Document)) (env : Environment) :
    addVariables (ofFile fields) env = assignAll {} (assignmentsOf fields env) := by
  have hvariables : ∀ root : Root,
      addVariables root env = assignAll root (env.filterMap setting?) := by
    induction env with
    | nil => exact fun _ => rfl
    | cons e rest ih =>
      intro root
      obtain ⟨name, text⟩ := e
      rw [addVariables, List.foldl_cons, ← addVariables, ih, List.filterMap_cons, setting?]
      by_cases hvariable : variablePrefix.toList.isPrefixOf name.toList <;>
        simp [hvariable, assignAll]
  rw [hvariables, assignmentsOf, assignAll, assignAll, List.foldl_append]
  rfl

end Rendezvous.Overlay
