import Rendezvous.Proofs.References.Documents
import Rendezvous.Proofs.Settings.Fields
import Rendezvous.Settings.Loading

/-!
# Which source a setting comes from

A file and the variables of an environment are laid over each other in the order in which they are
read, the file first. Loading succeeds exactly if every text of what results expands, every section
first names each field as it is declared, and every field can be read; its value is then the newest
one that a source gives, and its default if none gives one. So a variable goes before the file.
But a variable is spelled in capitals, and a field that no source has named before keeps the
variable's spelling, which the section refuses: a variable takes effect for those fields only that
the file, or an earlier variable, gives as well.

## Main definitions

* `Settings.Field.variableName`, `Settings.Field.ReachedBy`: the variable of a field, and the
  variables that lead to the field, in whatever letters.
* `Settings.Field.source`: the newest value that a file and an environment give a field.
* `Settings.Field.Takes`: what a field is read from, after substitution.
* `Settings.Section.WellSpelled`: sections that first name each field as it is declared.
* `Settings.mapping`: what is handed to substitution and to the schema.
* `Settings.fileFields`: what a file gives.

## Main results

* `Settings.ofDocument_eq_ok_iff`: when loading succeeds, and what it yields.
* `Settings.Field.source_of_variable`, `Settings.Field.source_append`: the source of a field.
* `Settings.ofDocument_refuses`: a variable for a field that nothing has named is refused.
* `Settings.load_precedence`: the law for files, with a case of the refusal beside it.
-/

namespace Rendezvous.Settings

open Overlay Reference

/-! ### Sources -/

/-- The name of a section at the root. -/
def Section.rootKey (s : Section) : String :=
  Text.upperCase s.key

/-- What a file and an environment lay over a section, newest first. -/
def Section.layers (s : Section) (fields : List (String × Document)) (env : Environment) :
    List Document :=
  Overlay.layers s.rootKey (assignmentsOf fields env)

/-- What a variable lays over a section, if it holds a setting there. -/
def Section.layer? (s : Section) (entry : String × String) : Option Document :=
  (setting? entry).bind fun a => Overlay.layer? s.rootKey a.1 a.2

/-- A section that nothing is said about, or that was made an object last, and whose fields are
first named as they are declared. -/
def Section.WellSpelled (s : Section) (fields : List (String × Document)) (env : Environment) :
    Prop :=
  (match s.layers fields env with
    | [] | .object _ :: _ => True
    | _ => False) ∧
  Overlay.WellSpelled s.declared (stretch (s.layers fields env))

namespace Field

/-- The variable of a field, in capitals. -/
def variableName (f : Field) : String :=
  variablePrefix ++ Text.upperCase f.place.key ++ "__" ++ Text.upperCase f.name

/-- The name of a variable leads to a field: it is that of the section, or goes on with that of
the field, in whatever letters. -/
def ReachedBy (f : Field) (name : String) : Prop :=
  ∃ tail first rest, name.toList = variablePrefix.toList ++ tail ∧
    steps (String.ofList tail) = first :: rest ∧ Text.upperCase first = f.place.rootKey ∧
    ∀ key ∈ rest.head?, Text.lowerCaseAscii key = f.name

/-- The newest value that a file and an environment give a field. -/
def source (f : Field) (fields : List (String × Document)) (env : Environment) : Option Document :=
  latest? f.name (stretch (f.place.layers fields env))

/-- The value that a field takes from its source: the value given there, after substitution, or
the default if none is given. -/
def Takes (f : Field) (env : Environment) : Option Document → f.Carrier → Prop
  | some v, a => ∃ w, expandDocument env v = .ok w ∧ f.read w = .ok a
  | none, a => a = f.fallback

end Field

/-- What is handed to substitution and to the schema. -/
def mapping (fields : List (String × Document)) (env : Environment) : List (String × Document) :=
  (Overlay.fields (addVariables (ofFile fields) env)).filter fun f => !isReserved f.1

section Mapping

variable {fields : List (String × Document)} {env : Environment}

/-- A section of what is handed on is made up of its layers. -/
theorem lookup_mapping (s : Section) :
    (mapping fields env).lookup s.key = lay (s.layers fields env) := by
  have hkey : s.key = Text.lowerCaseAscii s.rootKey := by cases s <;> decide
  have hkept : (!isReserved s.key) = true := by cases s <;> decide
  have hcapitals : HasCapitals (assignAll {} (assignmentsOf fields env)) :=
    hasCapitals_empty.assignAll _
  have hcapital : Text.IsCapital s.rootKey := Text.isCapital_upperCase s.key
  rw [mapping, lookup_filter (p := fun name => !isReserved name) hkept, addVariables_ofFile, hkey,
    lookup_fields hcapitals hcapital, find?_assignAll]
  rfl

theorem ofDocument_eq : ofDocument env fields =
    ((expandFields env (mapping fields env)).mapError .unsetVariable >>= fun out =>
      (ofFields out).mapError .invalid) :=
  rfl

/-- A section is admitted exactly if its layers name each field first as it is declared. -/
theorem admits_lay_iff (s : Section) :
    s.Admits (lay (s.layers fields env)) ↔ s.WellSpelled fields env := by
  rw [Section.WellSpelled, lay_eq]
  cases hlayers : s.layers fields env with
  | nil => simp [Section.Admits, stretch, Overlay.WellSpelled]
  | cons v older =>
    cases v with
    | object top =>
      simp only [Section.Admits, true_and]
      exact declared_joined_iff s.lowerCaseAscii_declared
    | atom x => cases x
    | null | bool _ | int _ | float _ | text _ | list _ => simp [Section.Admits]

/-! ### When loading succeeds -/

/-- After substitution there are sections where there were some before, objects where there were
objects, and the fields of objects are replaced. -/
theorem lookup_expandFields {given out : List (String × Document)}
    (hout : expandFields env given = .ok out) (key : String) :
    (given.lookup key = none ∧ out.lookup key = none) ∨
    (∃ top others, given.lookup key = some (.object top) ∧
      out.lookup key = some (.object others) ∧ expandFields env top = .ok others) ∨
    ∃ v w, given.lookup key = some v ∧ out.lookup key = some w ∧
      (∀ top, v ≠ .object top) ∧ ∀ top, w ≠ .object top := by
  have hroot := ((expandFields_eq_ok_iff env given).mp hout).lookup key
  cases hgiven : given.lookup key with
  | none => exact .inl ⟨rfl, by rwa [hgiven] at hroot⟩
  | some v =>
    rw [hgiven] at hroot
    obtain ⟨w, hw, hreplaces⟩ := hroot
    by_cases hobject : ∃ top, v = .object top
    · obtain ⟨top, rfl⟩ := hobject
      obtain ⟨others, hothers, rfl⟩ := hreplaces
      exact .inr (.inl ⟨top, others, rfl, hw, (expandFields_eq_ok_iff env top).mpr hothers⟩)
    · exact .inr (.inr ⟨v, w, rfl, hw, fun top h => hobject ⟨top, h⟩,
        fun top h => hobject (h ▸ hreplaces).exists_object⟩)

/-- What a field is read from after substitution is what it takes before. -/
theorem holds_fieldOf_iff {given out : List (String × Document)}
    (hout : expandFields env given = .ok out) (f : Field) (key : String) (a : f.Carrier) :
    f.Holds (fieldOf f.name (out.lookup key)) a ↔
      f.Takes env (fieldOf f.name (given.lookup key)) a := by
  obtain ⟨hg, ho⟩ | ⟨top, others, hg, ho, htop⟩ | ⟨v, w, hg, ho, hv, hw⟩ :=
    lookup_expandFields hout key
  · rw [hg, ho]
    rfl
  · rw [hg, ho]
    have hfield := ((expandFields_eq_ok_iff env top).mp htop).lookup f.name
    simp only [fieldOf]
    cases hx : top.lookup f.name with
    | none =>
      rw [hx] at hfield
      rw [hfield]
      rfl
    | some x =>
      rw [hx] at hfield
      obtain ⟨y, hy, hxy⟩ := hfield
      rw [hy]
      have hx := (expandDocument_eq_ok_iff env x).mpr hxy
      simp [Field.Holds, Field.Takes, hx]
  · rw [hg, ho, fieldOf_of_ne_object hv, fieldOf_of_ne_object hw]
    rfl

/-- Substitution changes nothing about whether a section is admitted. -/
theorem admits_lookup_iff {given out : List (String × Document)}
    (hout : expandFields env given = .ok out) (s : Section) (key : String) :
    s.Admits (out.lookup key) ↔ s.Admits (given.lookup key) := by
  obtain ⟨hg, ho⟩ | ⟨top, others, hg, ho, htop⟩ | ⟨v, w, hg, ho, hv, hw⟩ :=
    lookup_expandFields hout key
  · rw [hg, ho]
  · have hnames := ((expandFields_eq_ok_iff env top).mp htop).names
    rw [hg, ho]
    simp only [Section.Admits, Declared, hnames]
  · rw [hg, ho]
    exact iff_of_false (s.not_admits_of_ne_object hw) (s.not_admits_of_ne_object hv)

/-- A field takes nothing from an object. -/
theorem Field.not_takes_object (f : Field) (top : List (String × Document)) (a : f.Carrier) :
    ¬ f.Takes env (some (.object top)) a := by
  rintro ⟨w, hw, hread⟩
  obtain ⟨others, -, rfl⟩ := (expandDocument_eq_ok_iff env _).mp hw
  exact f.read_object others a hread

/-- A field takes the same from a value as from what covers for it. -/
theorem Field.takes_iff_of_covers {f : Field} {given held : Option Document}
    (h : Covers given held) (a : f.Carrier) : f.Takes env held a ↔ f.Takes env given a := by
  unfold Covers at h
  split at h
  · rfl
  · obtain ⟨others, rfl⟩ := h
    exact iff_of_false (f.not_takes_object _ _) (f.not_takes_object _ _)
  · rw [h]
  · exact h.elim

/-- The newest value given to a field has the word on what the field takes. -/
theorem Field.takes_source_iff {f : Field} (h : f.place.WellSpelled fields env) (a : f.Carrier) :
    f.Takes env (fieldOf f.name (lay (f.place.layers fields env))) a ↔
      f.Takes env (f.source fields env) a := by
  obtain ⟨hobject, hspelled⟩ := h
  have hdeclared := (declared_joined_iff f.place.lowerCaseAscii_declared).mpr hspelled
  have hcovers := covers_joined f.place.lowerCaseAscii_declared hdeclared f.name
  rw [Field.source, lay_eq]
  cases hlayers : f.place.layers fields env with
  | nil => rfl
  | cons v older =>
    rw [hlayers] at hobject hcovers
    cases v with
    | object top => exact takes_iff_of_covers hcovers a
    | atom x => cases x
    | null | bool _ | int _ | float _ | text _ | list _ => exact hobject.elim

/-- Loading succeeds exactly if every text expands, every section first names each field as it is
declared, and every field takes its value from its source. -/
theorem ofDocument_eq_ok_iff {σ : Settings} : ofDocument env fields = .ok σ ↔
    (∀ t ∈ fieldTexts (mapping fields env), ∃ u, expand env t = .ok u) ∧
      (∀ s : Section, s.WellSpelled fields env) ∧
      ∀ f : Field, f.Takes env (f.source fields env) (f.get σ) := by
  have hread {out} (hout : expandFields env (mapping fields env) = .ok out) :
      Settings.ofFields out = .ok σ ↔ (∀ s : Section, s.WellSpelled fields env) ∧
        ∀ f : Field, f.Takes env (f.source fields env) (f.get σ) := by
    rw [ofFields_eq_ok_iff]
    simp only [admits_lookup_iff hout, holds_fieldOf_iff hout, lookup_mapping, admits_lay_iff]
    exact and_congr_right fun h => forall_congr' fun f => Field.takes_source_iff (h f.place) _
  rw [← (expandFields_spec env (mapping fields env)).1, ofDocument_eq]
  cases hout : expandFields env (mapping fields env) with
  | error name => simp [Except.mapError, bind, Except.bind]
  | ok out =>
    refine Iff.trans mapError_eq_ok_iff ((hread hout).trans ?_)
    exact (and_iff_right ⟨out, rfl⟩).symm

end Mapping

/-! ### The variable of a field -/

namespace Field

variable {f : Field} {fields : List (String × Document)} {env before after : Environment}

theorem layers_append (s : Section) (fields : List (String × Document))
    (before after : Environment) : s.layers fields (before ++ after) =
      (after.filterMap s.layer?).reverse ++ s.layers fields before := by
  rw [Section.layers, assignmentsOf, List.filterMap_append, ← List.append_assoc,
    Overlay.layers_append, Overlay.layers, List.filterMap_filterMap]
  rfl

/-- What a variable that does not lead to a field lays over its section: one other field. -/
theorem exists_object_of_layer? {entry : String × String} (h : ¬ f.ReachedBy entry.1)
    {v : Document} (hv : f.place.layer? entry = some v) :
    ∃ key w, v = .object [(key, w)] ∧ Text.lowerCaseAscii key ≠ f.name := by
  obtain ⟨a, ha, hv⟩ := Option.bind_eq_some_iff.mp hv
  obtain ⟨tail, htail, rfl⟩ := setting?_eq_some_iff.mp ha
  dsimp only at hv
  obtain ⟨first, rest, hsteps, hfirst, rfl⟩ := layer?_eq_some_iff.mp hv
  cases rest with
  | nil => exact absurd ⟨tail, first, [], htail, hsteps, hfirst, by simp⟩ h
  | cons key more =>
    refine ⟨key, nest (VariableText.read entry.2) more, rfl, fun hname => h ?_⟩
    exact ⟨tail, first, key :: more, htail, hsteps, hfirst, by simpa using hname⟩

/-- The variable of a field lays the field over its section, in capitals. -/
theorem layer?_variableName (f : Field) (text : String) :
    f.place.layer? (f.variableName, text) =
      some (.object [(Text.upperCase f.name, VariableText.read text)]) := by
  have htail : f.variableName.toList = variablePrefix.toList ++
      (f.place.rootKey ++ "__" ++ Text.upperCase f.name).toList := by
    simp [variableName, Section.rootKey]
  have hsteps : steps (f.place.rootKey ++ "__" ++ Text.upperCase f.name) =
      [f.place.rootKey, Text.upperCase f.name] := by cases f <;> decide
  have hkey : Text.upperCase f.place.rootKey = f.place.rootKey := by cases f <;> decide
  have hsetting : setting? (f.variableName, text) =
      some (f.place.rootKey ++ "__" ++ Text.upperCase f.name, VariableText.read text) :=
    setting?_eq_some_iff.mpr ⟨_, htail, by rw [String.ofList_toList]⟩
  simp only [Section.layer?, hsetting, Option.bind_some, layer?_eq_some_iff]
  exact ⟨f.place.rootKey, [Text.upperCase f.name], hsteps, hkey, by rw [nest, nest]⟩

/-- Layers that name other fields leave the newest value of a field. -/
theorem latest?_append {newer older : List Document} {name : String}
    (h : ∀ v ∈ newer, ∃ key w, v = .object [(key, w)] ∧ Text.lowerCaseAscii key ≠ name) :
    latest? name (stretch (newer ++ older)) = latest? name (stretch older) := by
  induction newer with
  | nil => rfl
  | cons v rest ih =>
    obtain ⟨hv, hrest⟩ := List.forall_mem_cons.mp h
    obtain ⟨key, w, rfl, hkey⟩ := hv
    rw [List.cons_append, stretch, latest?, ih hrest, List.find?_cons_of_neg (by simpa using hkey)]
    rfl

/-- Variables that do not lead to a field leave its source. -/
theorem source_append (h : ∀ e ∈ after, ¬ f.ReachedBy e.1) :
    f.source fields (before ++ after) = f.source fields before := by
  rw [source, layers_append]
  refine latest?_append fun v hv => ?_
  obtain ⟨e, he, hv⟩ := List.mem_filterMap.mp (List.mem_reverse.mp hv)
  exact exists_object_of_layer? (h e he) hv

/-- The variable of a field is the source of the field if none after it leads there. -/
theorem source_of_variable {text : String} (h : ∀ e ∈ after, ¬ f.ReachedBy e.1) :
    f.source fields (before ++ (f.variableName, text) :: after) =
      some (VariableText.read text) := by
  have hname : Text.lowerCaseAscii (Text.upperCase f.name) = f.name := by cases f <;> decide
  rw [← List.singleton_append, ← List.append_assoc, source_append h, source, layers_append,
    List.filterMap_cons, layer?_variableName]
  simp [stretch, latest?, hname]

/-- The section of a field keeps the variable's spelling if nothing has named the field before. -/
theorem mem_layers_of_source_eq_none {text : String} (hnew : f.source fields before = none)
    (hafter : ∀ e ∈ after, ¬ f.ReachedBy e.1) :
    Text.upperCase f.name ∈ (joined (stretch
      (f.place.layers fields (before ++ (f.variableName, text) :: after)))).map Prod.fst := by
  have hname : Text.lowerCaseAscii (Text.upperCase f.name) = f.name := by cases f <;> decide
  rw [layers_append, List.filterMap_cons, layer?_variableName, List.reverse_cons, List.append_assoc]
  refine mem_joined_append (fun v hv => ?_) (mem_joined_of_latest?_eq_none _ ?_)
  · obtain ⟨e, he, hv⟩ := List.mem_filterMap.mp (List.mem_reverse.mp hv)
    obtain ⟨key, w, rfl, -⟩ := exists_object_of_layer? (hafter e he) hv
    exact ⟨_, rfl⟩
  · rwa [hname]

end Field

/-- A variable for a field that neither the file nor an earlier variable names is refused: loading
fails, and if no reference is missing, the field is reported under the variable's spelling. -/
theorem ofDocument_refuses {f : Field} {fields : List (String × Document)}
    {before after : Environment} {text : String} (hnew : f.source fields before = none)
    (hafter : ∀ e ∈ after, ¬ f.ReachedBy e.1) :
    (∃ name, ofDocument (before ++ (f.variableName, text) :: after) fields =
      .error (.unsetVariable name)) ∨
    ∃ reported, ofDocument (before ++ (f.variableName, text) :: after) fields =
      .error (.invalid reported) ∧
      ⟨[f.place.key, Text.upperCase f.name], .unknownField⟩ ∈ reported := by
  have hmem : _ ∈ (joined (stretch (f.place.layers fields
      (before ++ (f.variableName, text) :: after)))).map Prod.fst :=
    f.mem_layers_of_source_eq_none hnew hafter
  generalize before ++ (f.variableName, text) :: after = env at hmem ⊢
  have hundeclared : Text.upperCase f.name ∉ f.place.declared := by cases f <;> decide
  rw [ofDocument_eq]
  cases hout : expandFields env (mapping fields env) with
  | error name => exact .inl ⟨name, rfl⟩
  | ok out =>
    right
    have hlay := (lookup_mapping f.place).trans (lay_eq_object hmem)
    obtain ⟨hnone, -⟩ | ⟨top, others, hgiven, hlookup, htop⟩ | ⟨v, w, hgiven, -, hobject, -⟩ :=
      lookup_expandFields hout f.place.key
    · cases hnone.symm.trans hlay
    · obtain rfl := Value.object.inj (Option.some.inj (hgiven.symm.trans hlay))
      have hnames := ((expandFields_eq_ok_iff env _).mp htop).names
      have hfault := unknownField_mem_faults hlookup (hnames ▸ hmem) hundeclared
      change ∃ reported, (Settings.ofFields out).mapError Obstacle.invalid = _ ∧ _
      cases hread : Settings.ofFields out with
      | ok σ =>
        rw [hread] at hfault
        exact absurd hfault List.not_mem_nil
      | error reported =>
        rw [hread] at hfault
        exact ⟨reported, rfl, hfault⟩
    · exact absurd (Option.some.inj (hgiven.symm.trans hlay)) (hobject _)

/-! ### Files -/

/-- The fields that the file at a path gives. -/
def fileFields (folder : Folder) (path : String) :
    Except Obstacle (List (String × Document)) :=
  match folder.find? (Path.normalize path) with
  | none => .error (.missingFile (Path.normalize path))
  | some .folder => .ok []
  | some (.text s) =>
    if Path.endsIn (Path.normalize path) fileEndings then
      (Yaml.document s).mapError Obstacle.malformed >>= rootFields
    else .ok []

theorem load_eq (folder : Folder) (env : Environment) (path : String) :
    load folder env path = fileFields folder path >>= ofDocument env := by
  simp only [load, fileFields]
  cases folder.find? (Path.normalize path) with
  | none => rfl
  | some entry =>
    cases entry with
    | folder => rfl
    | text s =>
      by_cases hyaml : Path.endsIn (Path.normalize path) fileEndings
      · simp only [hyaml, if_true]
        cases Yaml.document s <;> rfl
      · simp only [hyaml]
        rfl

theorem load_of_fileFields {folder : Folder} {path : String}
    {fields : List (String × Document)} (h : fileFields folder path = .ok fields)
    (env : Environment) : load folder env path = ofDocument env fields := by
  rw [load_eq, h]
  rfl

/-- What a file gives, once it is found and its document is known. -/
theorem fileFields_eq {folder : Folder} {path text : String} {d : Document}
    (hfile : folder.find? (Path.normalize path) = some (.text text))
    (hpath : Path.endsIn (Path.normalize path) fileEndings = true)
    (hd : Yaml.document text = .ok d) : fileFields folder path = rootFields d := by
  simp only [fileFields, hfile, hpath, hd]
  rfl

/-- **The precedence of sources.** Loading a file succeeds exactly if every text of what the file
and the variables make up expands, every section first names each field as it is declared, and
every field takes its value from its source, which is the newest one. The variable of a field is
the source if no later variable leads to the field, but it is refused if neither the file nor an
earlier variable gives the field; if no variable leads to the field, its source is the file. -/
theorem load_precedence {folder : Folder} {env : Environment} {path : String}
    {fields : List (String × Document)} (hfile : fileFields folder path = .ok fields) :
    (∀ σ : Settings, load folder env path = .ok σ ↔
      (∀ t ∈ fieldTexts (mapping fields env), ∃ u, expand env t = .ok u) ∧
        (∀ s : Section, s.WellSpelled fields env) ∧
        ∀ f : Field, f.Takes env (f.source fields env) (f.get σ)) ∧
    ∀ f : Field,
      (∀ before text after, env = before ++ (f.variableName, text) :: after →
        (∀ e ∈ after, ¬ f.ReachedBy e.1) →
        f.source fields env = some (VariableText.read text) ∧
          (f.source fields before = none →
            (∃ name, load folder env path = .error (.unsetVariable name)) ∨
              ∃ reported, load folder env path = .error (.invalid reported) ∧
                ⟨[f.place.key, Text.upperCase f.name], .unknownField⟩ ∈ reported)) ∧
        ((∀ e ∈ env, ¬ f.ReachedBy e.1) → f.source fields env = f.source fields []) := by
  rw [load_of_fileFields hfile env]
  refine ⟨fun σ => ofDocument_eq_ok_iff, fun f => ⟨?_, fun hfree => ?_⟩⟩
  · rintro before text after rfl hafter
    exact ⟨f.source_of_variable hafter, fun hnew => ofDocument_refuses hnew hafter⟩
  · rw [← List.nil_append env, f.source_append hfree]

/-- A file that gives a level. -/
def levelFile : Folder :=
  ⟨"/srv", [("settings.yaml", "logging:\n  level: info\n")]⟩

/-- The variable of the level goes before a file that gives a level. -/
theorem load_levelFile :
    fileFields levelFile "settings.yaml" = .ok [("logging", .object [("level", .text "info")])] ∧
      Field.level.source [("logging", .object [("level", .text "info")])]
        [(Field.level.variableName, "error")] = some (VariableText.read "error") ∧
      load levelFile [(Field.level.variableName, "error")] "settings.yaml" =
        .ok { logging := { level := .error } } := by
  have hdocument : Yaml.document "logging:\n  level: info\n" =
      .ok (.object [("logging", .object [("level", .text "info")])]) := by cbv
  have hfile : fileFields levelFile "settings.yaml" =
      .ok [("logging", .object [("level", .text "info")])] := by
    rw [fileFields_eq (by decide +kernel) (by decide +kernel) hdocument]
    rfl
  have hlaw := @load_precedence levelFile [(Field.level.variableName, "error")] "settings.yaml" _
    hfile
  have hlevel := (hlaw.2 .level).1 [] "error" [] (List.nil_append _).symm
  refine ⟨hfile, (hlevel fun _ he => absurd he List.not_mem_nil).1, ?_⟩
  rw [load_of_fileFields hfile]
  cbv

/-- A file that gives nothing. -/
def emptyFile : Folder :=
  ⟨"/srv", [("settings.yaml", "")]⟩

/-- With an empty file, the variable of the default timeout is set to a timeout that the field can
take, and nothing else is said; still the timeout is not loaded. -/
theorem load_emptyFile_refuses :
    Field.defaultTimeout.variableName = "DEFERRED_COORDINATOR__DEFAULT_TIMEOUT_MS" ∧
      Field.defaultTimeout.Takes [("DEFERRED_COORDINATOR__DEFAULT_TIMEOUT_MS", "250")]
        (some (VariableText.read "250")) (250 : Nat) ∧
      load emptyFile [("DEFERRED_COORDINATOR__DEFAULT_TIMEOUT_MS", "250")] "settings.yaml" =
        .error (.invalid [⟨["coordinator", "DEFAULT_TIMEOUT_MS"], .unknownField⟩]) := by
  have hdocument : Yaml.document "" = .ok .null := by cbv
  have hfile : fileFields emptyFile "settings.yaml" = .ok [] := by
    rw [fileFields_eq (by decide +kernel) (by decide +kernel) hdocument]
    rfl
  refine ⟨by decide, ⟨.int 250, by cbv, by cbv⟩, ?_⟩
  rw [load_of_fileFields hfile]
  cbv

end Rendezvous.Settings
