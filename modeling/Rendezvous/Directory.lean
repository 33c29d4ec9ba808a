/-!
# Directories

A directory is a finite map that remembers the order in which its keys arrived. Storing under a
key that is present replaces the entry where it stands; a new key goes to the end; an erased key
that returns counts as new.

A table is a total map on the natural numbers that differs from the default at finitely many
keys. Stores of numbered objects are tables, so that reading never fails.

## Main definitions

* `Directory`: the map, with `find?`, `put`, `erase`, `keys` and `values`.
* `Table`: total maps on natural numbers, with `get` and `set`.

## Main results

* `Directory.find?_put`, `Directory.find?_erase`: what each operation does to a look-up.
* `Directory.entries_put`, `Directory.entries_erase`: what it does to the entries.
* `Table.get_set`: a write shows at its own key only.
-/

namespace Rendezvous

universe u v

/-- A finite map in order of arrival. -/
structure Directory (κ : Type u) (β : Type v) where
  /-- The entries, oldest first. -/
  entries : List (κ × β) := []

namespace Directory

variable {κ : Type u} {β : Type v} [DecidableEq κ]

instance : Inhabited (Directory κ β) := ⟨⟨[]⟩⟩

instance [DecidableEq β] : DecidableEq (Directory κ β)
  | ⟨a⟩, ⟨b⟩ => decidable_of_iff (a = b) ⟨fun h => h ▸ rfl, fun h => Directory.mk.inj h⟩

/-- The entry under a key in a list of entries. -/
def search (k : κ) : List (κ × β) → Option β
  | [] => none
  | (j, b) :: rest => if j = k then some b else search k rest

/-- Stores under a key, in place if the key is present and at the end if not. -/
def store (k : κ) (b : β) : List (κ × β) → List (κ × β)
  | [] => [(k, b)]
  | (j, c) :: rest => if j = k then (k, b) :: rest else (j, c) :: store k b rest

/-- The entry under a key. -/
def find? (d : Directory κ β) (k : κ) : Option β :=
  search k d.entries

/-- Stores an entry. A present key keeps its place, a new one goes to the end. -/
def put (d : Directory κ β) (k : κ) (b : β) : Directory κ β :=
  ⟨store k b d.entries⟩

/-- Removes the entry under a key. -/
def erase (d : Directory κ β) (k : κ) : Directory κ β :=
  ⟨d.entries.filter fun e => e.1 ≠ k⟩

/-- The keys, oldest first. -/
def keys (d : Directory κ β) : List κ :=
  d.entries.map Prod.fst

/-- The entries without their keys, oldest first. -/
def values (d : Directory κ β) : List β :=
  d.entries.map Prod.snd

/-- The number of entries. -/
def size (d : Directory κ β) : Nat :=
  d.entries.length

/-- Whether a key has an entry. -/
def contains (d : Directory κ β) (k : κ) : Bool :=
  (d.find? k).isSome

/-- Stores entries one after the other. -/
def putAll (d : Directory κ β) (es : List (κ × β)) : Directory κ β :=
  es.foldl (fun d e => d.put e.1 e.2) d

/-- Stores the entries whose keys are new. -/
def addAll (d : Directory κ β) (es : List (κ × β)) : Directory κ β :=
  es.foldl (fun d e => if d.contains e.1 then d else d.put e.1 e.2) d

/-- The first key whose entry passes a test. -/
def keyWhere? (d : Directory κ β) (p : β → Bool) : Option κ :=
  (d.entries.find? fun e => p e.2).map Prod.fst

/-- The keys whose entries pass a test, oldest first. -/
def keysWhere (d : Directory κ β) (p : β → Bool) : List κ :=
  (d.entries.filter fun e => p e.2).map Prod.fst

theorem search_store (k j : κ) (b : β) (es : List (κ × β)) :
    search j (store k b es) = if j = k then some b else search j es := by
  induction es with
  | nil => by_cases h : k = j <;> simp [store, search, h, eq_comm]
  | cons e rest ih =>
    obtain ⟨i, c⟩ := e
    by_cases hi : i = k
    · subst hi
      by_cases hj : i = j
      · simp [store, search, hj]
      · have hj' : j ≠ i := fun h => hj h.symm
        simp [store, search, hj, hj']
    · by_cases hij : i = j
      · subst hij
        simp [store, search, hi]
      · simp [store, search, hi, hij, ih]

theorem find?_put (d : Directory κ β) (k j : κ) (b : β) :
    (d.put k b).find? j = if j = k then some b else d.find? j :=
  search_store k j b d.entries

theorem search_filter_ne (k j : κ) (es : List (κ × β)) :
    search j (es.filter fun e => e.1 ≠ k) = if j = k then none else search j es := by
  induction es with
  | nil => simp [search]
  | cons e rest ih =>
    obtain ⟨i, c⟩ := e
    by_cases hi : i = k
    · subst hi
      by_cases hj : j = i
      · subst hj
        simpa [search] using ih
      · have hj' : i ≠ j := fun h => hj h.symm
        simpa [search, hj, hj'] using ih
    · by_cases hij : i = j
      · subst hij
        simp [search, hi]
      · simpa [search, hi, hij] using ih

theorem find?_erase (d : Directory κ β) (k j : κ) :
    (d.erase k).find? j = if j = k then none else d.find? j :=
  search_filter_ne k j d.entries

theorem mem_values_of_mem_put {d : Directory κ β} {k : κ} {b x : β}
    (hx : x ∈ (d.put k b).values) : x ∈ d.values ∨ x = b := by
  have hstore (es : List (κ × β)) (h : x ∈ (store k b es).map Prod.snd) :
      x ∈ es.map Prod.snd ∨ x = b := by
    induction es with
    | nil => exact .inr (by simpa [store] using h)
    | cons e rest ih =>
      rw [store] at h
      split at h
      · rcases List.mem_cons.mp h with h | h
        · exact .inr h
        · exact .inl (List.mem_cons_of_mem _ h)
      · rcases List.mem_cons.mp h with h | h
        · exact .inl (h ▸ List.mem_cons_self)
        · exact (ih h).imp_left (List.mem_cons_of_mem _)
  exact hstore d.entries hx

theorem mem_values_of_mem_erase {d : Directory κ β} {k : κ} {x : β}
    (hx : x ∈ (d.erase k).values) : x ∈ d.values :=
  (List.filter_sublist.map Prod.snd).subset hx

theorem mem_values_of_find? {d : Directory κ β} {k : κ} {b : β} (h : d.find? k = some b) :
    b ∈ d.values := by
  have hsearch (es : List (κ × β)) (h : search k es = some b) : b ∈ es.map Prod.snd := by
    induction es with
    | nil => cases h
    | cons e rest ih =>
      rw [search] at h
      split at h
      · exact Option.some.inj h ▸ List.mem_cons_self
      · exact List.mem_cons_of_mem _ (ih h)
  exact hsearch d.entries h

/-! ### Entries and keys -/

section Entries

variable {d : Directory κ β} {k : κ} {b : β}

theorem contains_eq_false_iff : d.contains k = false ↔ k ∉ d.keys := by
  obtain ⟨es⟩ := d
  simp only [contains, find?, keys, Option.isSome_eq_false_iff, Option.isNone_iff_eq_none]
  induction es with
  | nil => simp [search]
  | cons e rest ih =>
    obtain ⟨j, c⟩ := e
    by_cases hj : j = k
    · simp [search, hj]
    · simp [search, hj, Ne.symm hj, ih]

/-- A new key goes to the end. -/
theorem entries_put (h : d.contains k = false) : (d.put k b).entries = d.entries ++ [(k, b)] := by
  obtain ⟨es⟩ := d
  rw [contains_eq_false_iff] at h
  simp only [put, keys] at h ⊢
  induction es with
  | nil => rfl
  | cons e rest ih =>
    obtain ⟨j, c⟩ := e
    simp only [List.map_cons, List.mem_cons, not_or] at h
    simp [store, Ne.symm h.1, ih h.2]

theorem keys_put (h : d.contains k = false) : (d.put k b).keys = d.keys ++ [k] := by
  simp [keys, entries_put h]

theorem nodup_keys_put (hd : d.keys.Nodup) (h : d.contains k = false) :
    (d.put k b).keys.Nodup := by
  rw [keys_put h]
  refine List.nodup_append.mpr ⟨hd, by simp, fun j hj i hi hji => ?_⟩
  exact contains_eq_false_iff.mp h (List.mem_singleton.mp hi ▸ hji ▸ hj)

theorem nodup_keys_erase (hd : d.keys.Nodup) : (d.erase k).keys.Nodup :=
  hd.sublist (List.filter_sublist.map Prod.fst)

theorem find?_eq_some_iff (hd : d.keys.Nodup) : d.find? k = some b ↔ (k, b) ∈ d.entries := by
  obtain ⟨es⟩ := d
  simp only [keys, find?] at hd ⊢
  induction es with
  | nil => simp [search]
  | cons e rest ih =>
    obtain ⟨j, c⟩ := e
    rw [List.map_cons, List.nodup_cons] at hd
    by_cases hj : j = k
    · subst hj
      have hrest : (j, b) ∉ rest := fun h => hd.1 (List.mem_map.mpr ⟨_, h, rfl⟩)
      simp [search, hrest, eq_comm]
    · simp [search, hj, Ne.symm hj, ih hd.2]

/-- What is erased under the key of an entry is that entry. -/
theorem entries_erase (hd : d.keys.Nodup) [DecidableEq β] (h : d.find? k = some b) :
    (d.erase k).entries = d.entries.filter (· ≠ (k, b)) := by
  refine List.filter_congr fun e he => ?_
  obtain ⟨j, c⟩ := e
  refine decide_eq_decide.mpr ⟨fun hne hsame => hne (Prod.mk.inj hsame).1, fun hne hj => hne ?_⟩
  obtain rfl : j = k := hj
  rw [Option.some.inj (((find?_eq_some_iff hd).mpr he).symm.trans h)]

end Entries

end Directory

/-- A total map on the natural numbers, equal to the default at all but finitely many keys. -/
structure Table (α : Type u) where
  /-- The keys that were written. -/
  written : Directory Nat α := ⟨[]⟩

namespace Table

variable {α : Type u} [Inhabited α]

instance : Inhabited (Table α) := ⟨⟨⟨[]⟩⟩⟩

instance [DecidableEq α] : DecidableEq (Table α)
  | ⟨a⟩, ⟨b⟩ => decidable_of_iff (a = b) ⟨fun h => h ▸ rfl, fun h => Table.mk.inj h⟩

/-- The value at a key. -/
def get (t : Table α) (i : Nat) : α :=
  (t.written.find? i).getD default

/-- Replaces the value at a key. -/
def set (t : Table α) (i : Nat) (a : α) : Table α :=
  ⟨t.written.put i a⟩

theorem get_set (t : Table α) (i j : Nat) (a : α) :
    (t.set i a).get j = if j = i then a else t.get j := by
  simp only [get, set, Directory.find?_put]
  split <;> rfl

end Table

end Rendezvous
