import Rendezvous.Proofs.Settings.Layers
import Rendezvous.Settings.Schema

/-!
# The declared fields

The schema declares four fields in two sections. All four follow one rule: a field that the
document gives is read, one that it does not give has its default. The settings are accepted
exactly if every section is absent or an object of declared fields and every field can be read.

## Main definitions

* `Settings.Field`: the declared fields, with their places, readings, and defaults.
* `Settings.Section.Admits`: what may stand for a section.
* `Settings.Field.Holds`: what a field is read from.
* `Settings.collect`: two readings put together, which is how the sections and the root are read.

## Main results

* `Settings.ofFields_eq_ok_iff`: the accepted documents, field by field.
* `Settings.unknownField_mem_faults`: a field that is not declared is reported.
-/

namespace Rendezvous.Settings

open Overlay (Declared)

/-- The fields that the schema declares. -/
inductive Field where
  | defaultTimeout
  | timerPrefix
  | level
  | jsonOutput
  deriving DecidableEq

namespace Field

/-- The section of a field. -/
def place : Field → Section
  | .defaultTimeout | .timerPrefix => .coordinator
  | .level | .jsonOutput => .logging

/-- The name of a field in its section. -/
def name : Field → String
  | .defaultTimeout => "default_timeout_ms"
  | .timerPrefix => "timer_thread_prefix"
  | .level => "level"
  | .jsonOutput => "json_output"

/-- The values of a field. -/
def Carrier : Field → Type
  | .defaultTimeout => Nat
  | .timerPrefix => String
  | .level => Level
  | .jsonOutput => Bool

/-- How a field is read. -/
def read : (f : Field) → Document → Except Reason f.Carrier
  | .defaultTimeout => readTimeout
  | .timerPrefix => readName
  | .level => readLevel
  | .jsonOutput => readTruth

/-- The value of a field that nothing is said about. -/
def fallback : (f : Field) → f.Carrier
  | .defaultTimeout => (30000 : Nat)
  | .timerPrefix => "deferred-timeout"
  | .level => Level.info
  | .jsonOutput => false

/-- The value of a field in settings. -/
def get : (f : Field) → Settings → f.Carrier
  | .defaultTimeout => fun σ => σ.coordinator.defaultTimeoutMs
  | .timerPrefix => fun σ => σ.coordinator.timerPrefix
  | .level => fun σ => σ.logging.level
  | .jsonOutput => fun σ => σ.logging.jsonOutput

/-- The value that a field has if the document gives it so, or does not give it. -/
def Holds (f : Field) : Option Document → f.Carrier → Prop
  | some v, a => f.read v = .ok a
  | none, a => a = f.fallback

/-- No field is read from an object. -/
theorem read_object (f : Field) (fields : List (String × Document)) (a : f.Carrier) :
    f.read (.object fields) ≠ .ok a := by
  cases f <;> exact fun h => nomatch h

end Field

namespace Section

/-- The fields that a section declares. -/
def declared : Section → List String
  | .coordinator => ["default_timeout_ms", "timer_thread_prefix"]
  | .logging => ["level", "json_output"]

theorem lowerCaseAscii_declared (s : Section) :
    ∀ x ∈ s.declared, Text.lowerCaseAscii x = x := by
  cases s <;> decide

/-- A section may be absent, or it is an object of declared fields. -/
def Admits (s : Section) : Option Document → Prop
  | none => True
  | some (.object fields) => Declared s.declared fields
  | some _ => False

end Section

/-- A field of what may stand for a section. -/
def fieldOf (name : String) : Option Document → Option Document
  | some (.object fields) => fields.lookup name
  | _ => none

theorem fieldOf_of_ne_object {v : Document} (h : ∀ fields, v ≠ .object fields) (name : String) :
    fieldOf name (some v) = none := by
  unfold fieldOf
  split
  · rename_i fields hv
    exact absurd (Option.some.inj hv) (h fields)
  · rfl

theorem Section.not_admits_of_ne_object {v : Document} (h : ∀ fields, v ≠ .object fields)
    (s : Section) : ¬ s.Admits (some v) := by
  unfold Admits
  split
  · rename_i hv
    cases hv
  · rename_i fields hv
    exact absurd (Option.some.inj hv) (h fields)
  · exact id

section Reading

variable {fields : List (String × Document)} {α : Type}

theorem mapError_eq_ok_iff {ε ε' : Type} {f : ε → ε'} {x : Except ε α} {a : α} :
    x.mapError f = .ok a ↔ x = .ok a := by
  cases x <;> simp [Except.mapError]

/-- Reading a field of a section gives the value that the field has there. -/
theorem readField_eq_ok_iff {f : Field} {a : f.Carrier} :
    readField fields f.name f.fallback f.read = .ok a ↔ f.Holds (fields.lookup f.name) a := by
  unfold readField
  cases fields.lookup f.name with
  | none => simp [Field.Holds, eq_comm]
  | some v => exact mapError_eq_ok_iff

theorem unknownFields_eq_nil_iff {declared : List String} :
    unknownFields declared fields = [] ↔ Declared declared fields := by
  simp [unknownFields, Declared, List.filter_eq_nil_iff]

theorem mem_unknownFields {declared : List String} {x : String} (hx : x ∈ fields.map Prod.fst)
    (hnew : x ∉ declared) : ⟨[x], .unknownField⟩ ∈ unknownFields declared fields := by
  obtain ⟨f, hf, rfl⟩ := List.mem_map.mp hx
  refine List.mem_map.mpr ⟨f, List.mem_filter.mpr ⟨hf, ?_⟩, rfl⟩
  simpa using hnew

/-- Puts two readings together, unless something else is at fault. -/
def collect {β γ : Type} (first : Except (List Fault) α) (second : Except (List Fault) β)
    (others : List Fault) (make : α → β → γ) : Except (List Fault) γ :=
  match first, second, others with
  | .ok a, .ok b, [] => .ok (make a b)
  | _, _, _ => .error (faults first ++ faults second ++ others)

section Collecting

variable {β γ : Type} {first : Except (List Fault) α} {second : Except (List Fault) β}
  {others : List Fault} {make : α → β → γ}

theorem collect_eq_ok_iff {c : γ} : collect first second others make = .ok c ↔
    others = [] ∧ ∃ a b, first = .ok a ∧ second = .ok b ∧ c = make a b := by
  cases first <;> cases second <;> cases others <;> simp [collect, eq_comm]

/-- All faults are reported, in order. -/
theorem faults_collect :
    faults (collect first second others make) = faults first ++ faults second ++ others := by
  cases first <;> cases second <;> cases others <;> rfl

end Collecting

end Reading

/-! ### Sections -/

section Sections

variable {fields root : List (String × Document)} {σ : Settings}

theorem coordinator_ofFields (fields : List (String × Document)) :
    CoordinatorSettings.ofFields fields =
      collect (readField fields "default_timeout_ms" 30000 readTimeout)
        (readField fields "timer_thread_prefix" "deferred-timeout" readName)
        (unknownFields Section.coordinator.declared fields) CoordinatorSettings.mk := by
  have htimeout : (default : CoordinatorSettings).defaultTimeoutMs = 30000 := rfl
  have hprefix : (default : CoordinatorSettings).timerPrefix = "deferred-timeout" := rfl
  simp only [CoordinatorSettings.ofFields, collect, Section.declared, htimeout, hprefix]
  cases readField fields "default_timeout_ms" 30000 readTimeout <;>
    cases readField fields "timer_thread_prefix" "deferred-timeout" readName <;>
    cases unknownFields ["default_timeout_ms", "timer_thread_prefix"] fields <;> rfl

theorem logging_ofFields (fields : List (String × Document)) :
    LoggingSettings.ofFields fields =
      collect (readField fields "level" .info readLevel)
        (readField fields "json_output" false readTruth)
        (unknownFields Section.logging.declared fields) LoggingSettings.mk := by
  have hlevel : (default : LoggingSettings).level = .info := rfl
  have hjson : (default : LoggingSettings).jsonOutput = false := rfl
  simp only [LoggingSettings.ofFields, collect, Section.declared, hlevel, hjson]
  cases readField fields "level" .info readLevel <;>
    cases readField fields "json_output" false readTruth <;>
    cases unknownFields ["level", "json_output"] fields <;> rfl

theorem coordinator_eq_ok_iff : CoordinatorSettings.ofFields fields = .ok σ.coordinator ↔
    Declared Section.coordinator.declared fields ∧
      ∀ f : Field, f.place = .coordinator → f.Holds (fields.lookup f.name) (f.get σ) := by
  rw [coordinator_ofFields, collect_eq_ok_iff, unknownFields_eq_nil_iff]
  refine and_congr_right fun _ => ⟨fun hread f hf => ?_, fun hfields => ?_⟩
  · obtain ⟨timeout, name, htimeout, hname, hmake⟩ := hread
    obtain ⟨coordinator, logging⟩ := σ
    cases hmake
    cases f with
    | defaultTimeout => exact readField_eq_ok_iff.mp htimeout
    | timerPrefix => exact readField_eq_ok_iff.mp hname
    | level | jsonOutput => cases hf
  · exact ⟨_, _, readField_eq_ok_iff.mpr (hfields .defaultTimeout rfl),
      readField_eq_ok_iff.mpr (hfields .timerPrefix rfl), rfl⟩

theorem logging_eq_ok_iff : LoggingSettings.ofFields fields = .ok σ.logging ↔
    Declared Section.logging.declared fields ∧
      ∀ f : Field, f.place = .logging → f.Holds (fields.lookup f.name) (f.get σ) := by
  rw [logging_ofFields, collect_eq_ok_iff, unknownFields_eq_nil_iff]
  refine and_congr_right fun _ => ⟨fun hread f hf => ?_, fun hfields => ?_⟩
  · obtain ⟨level, json, hlevel, hjson, hmake⟩ := hread
    obtain ⟨coordinator, logging⟩ := σ
    cases hmake
    cases f with
    | level => exact readField_eq_ok_iff.mp hlevel
    | jsonOutput => exact readField_eq_ok_iff.mp hjson
    | defaultTimeout | timerPrefix => cases hf
  · exact ⟨_, _, readField_eq_ok_iff.mpr (hfields .level rfl),
      readField_eq_ok_iff.mpr (hfields .jsonOutput rfl), rfl⟩

/-- A section is read exactly if it is admitted and its fields are read from what stands there. -/
theorem readSection_eq_ok_iff {α : Type} [Inhabited α] {s : Section}
    {read : List (String × Document) → Except (List Fault) α} {a : α}
    (hread : ∀ fields, read fields = .ok a ↔ Declared s.declared fields ∧
      ∀ f : Field, f.place = s → f.Holds (fields.lookup f.name) (f.get σ))
    (hdefault : read [] = .ok default) :
    readSection root s read = .ok a ↔ s.Admits (root.lookup s.key) ∧
      ∀ f : Field, f.place = s → f.Holds (fieldOf f.name (root.lookup s.key)) (f.get σ) := by
  unfold readSection
  split
  · rename_i h
    rw [h, ← hdefault, hread]
    exact ⟨fun hok => ⟨trivial, hok.2⟩, fun hok => ⟨fun _ hx => absurd hx List.not_mem_nil, hok.2⟩⟩
  · rename_i fields h
    rw [h, mapError_eq_ok_iff]
    exact hread fields
  · rename_i v hobject h
    rw [h]
    refine iff_of_false (fun hok => ?_) fun hok => ?_
    · cases hok
    · exact s.not_admits_of_ne_object (fun fields hv => hobject fields hv) hok.1

theorem ofFields_eq_collect (root : List (String × Document)) : Settings.ofFields root =
    collect (readSection root .coordinator CoordinatorSettings.ofFields)
      (readSection root .logging LoggingSettings.ofFields) [] Settings.mk := by
  simp only [Settings.ofFields, collect, List.append_nil]
  cases readSection root .coordinator CoordinatorSettings.ofFields <;>
    cases readSection root .logging LoggingSettings.ofFields <;> rfl

/-- Settings are read exactly if every section is admitted and every field is read from its
place. -/
theorem ofFields_eq_ok_iff : Settings.ofFields root = .ok σ ↔
    (∀ s : Section, s.Admits (root.lookup s.key)) ∧
      ∀ f : Field, f.Holds (fieldOf f.name (root.lookup f.place.key)) (f.get σ) := by
  have hsections : Settings.ofFields root = .ok σ ↔
      readSection root .coordinator CoordinatorSettings.ofFields = .ok σ.coordinator ∧
        readSection root .logging LoggingSettings.ofFields = .ok σ.logging := by
    obtain ⟨coordinator, logging⟩ := σ
    rw [ofFields_eq_collect, collect_eq_ok_iff]
    simp
  rw [hsections, readSection_eq_ok_iff (fun _ => coordinator_eq_ok_iff) rfl,
    readSection_eq_ok_iff (fun _ => logging_eq_ok_iff) rfl]
  constructor
  · rintro ⟨⟨hcoordinator, hcfields⟩, hlogging, hlfields⟩
    refine ⟨fun s => ?_, fun f => ?_⟩
    · cases s with
      | coordinator => exact hcoordinator
      | logging => exact hlogging
    · cases hplace : f.place with
      | coordinator => exact hcfields f hplace
      | logging => exact hlfields f hplace
  · rintro ⟨hadmits, hfields⟩
    exact ⟨⟨hadmits .coordinator, fun f hf => hf ▸ hfields f⟩, hadmits .logging,
      fun f hf => hf ▸ hfields f⟩

/-- The faults of a section are reported as faults at its place. -/
theorem faults_readSection {α : Type} [Inhabited α] {s : Section}
    {read : List (String × Document) → Except (List Fault) α}
    (hfields : root.lookup s.key = some (.object fields)) :
    faults (readSection root s read) = (faults (read fields)).map (Fault.within s) := by
  simp only [readSection, hfields]
  cases read fields <;> rfl

/-- A field that its section does not declare is reported. -/
theorem unknownField_mem_faults {s : Section} {x : String}
    (hfields : root.lookup s.key = some (.object fields)) (hx : x ∈ fields.map Prod.fst)
    (hnew : x ∉ s.declared) :
    ⟨[s.key, x], .unknownField⟩ ∈ faults (Settings.ofFields root) := by
  rw [ofFields_eq_collect, faults_collect, List.append_nil, List.mem_append]
  cases s with
  | coordinator =>
    left
    rw [faults_readSection hfields, coordinator_ofFields, faults_collect]
    exact List.mem_map.mpr ⟨_, List.mem_append_right _ (mem_unknownFields hx hnew), rfl⟩
  | logging =>
    right
    rw [faults_readSection hfields, logging_ofFields, faults_collect]
    exact List.mem_map.mpr ⟨_, List.mem_append_right _ (mem_unknownFields hx hnew), rfl⟩

end Sections

end Rendezvous.Settings
