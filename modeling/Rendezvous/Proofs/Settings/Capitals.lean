import Mathlib
import Rendezvous.Text.Casing

/-!
# Texts without small letters

The spelling of a setting is compared without regard to the case of its ASCII letters, while the
names of its sections are in capitals. A text without small ASCII letters can be read back from
its small form, so among such texts the comparison is equality. Every capital form is such a text:
no letter of the tables has a small ASCII letter in its capital form.

## Main definitions

* `Text.IsCapital`: the texts without small ASCII letters.

## Main results

* `Text.isCapital_upperCase`: upper-casing leaves no small ASCII letter.
* `Text.eq_of_lowerCaseAscii_eq`: texts without small letters are told apart by their small forms.
-/

namespace Rendezvous.Text

/-- A text without small ASCII letters. -/
def IsCapital (s : String) : Prop :=
  ∀ c ∈ s.toList, c.isLower = false

theorem isLower_eq_true_iff {c : Char} : c.isLower = true ↔ 0x61 ≤ c.toNat ∧ c.toNat ≤ 0x7a := by
  simp [Char.isLower, UInt32.le_iff_toNat_le]

theorem isLower_ofNat {n : Nat} (h : n < 0x61 ∨ 0x7a < n) : (Char.ofNat n).isLower = false := by
  rw [← Bool.not_eq_true, isLower_eq_true_iff, Char.toNat_ofNat]
  split <;> omega

/-- No part of a capital form is a small ASCII letter. -/
theorem isLower_of_mem_capital {c d : Char} (h : d ∈ capital c) : d.isLower = false := by
  unfold capital at h
  split at h
  · exact List.mem_singleton.mp h ▸ Char.isLower_toUpper_eq_false c
  · split at h
    · rename_i codes hcodes
      obtain ⟨before, after, hgroups, -⟩ := List.lookup_eq_some_iff.mp hcodes
      obtain ⟨n, hn, rfl⟩ := List.mem_map.mp h
      have hall : ∀ e ∈ capitalGroups, ∀ n ∈ e.2, n < 0x61 ∨ 0x7a < n := by decide
      exact isLower_ofNat (hall _ (hgroups ▸ List.mem_append_right _ List.mem_cons_self) n hn)
    · split at h
      · rename_i r hr
        have hall : ∀ r ∈ capitalRuns, r.last < 0x80 ∨
            (r.last : Int) + r.shift < 0x61 ∨ 0x7a < (r.first : Int) + r.shift := by decide +kernel
        have hholds := List.find?_some hr
        simp only [CaseRun.holds, Bool.and_eq_true, decide_eq_true_eq] at hholds
        have hrun := hall r (List.mem_of_find?_eq_some hr)
        exact List.mem_singleton.mp h ▸ isLower_ofNat (by omega)
      · rw [List.mem_singleton.mp h, ← Bool.not_eq_true, isLower_eq_true_iff]
        omega

/-- Upper-casing leaves no small ASCII letter. -/
theorem isCapital_upperCase (s : String) : IsCapital (upperCase s) := by
  intro d hd
  rw [upperCase, String.toList_ofList] at hd
  obtain ⟨c, -, hd⟩ := List.mem_flatMap.mp hd
  exact isLower_of_mem_capital hd

/-- A text without small letters is read back from its small form. -/
theorem IsCapital.map_toUpper {s : String} (h : IsCapital s) :
    (lowerCaseAscii s).toList.map Char.toUpper = s.toList := by
  have hchar : ∀ c ∈ s.toList, (Char.toUpper ∘ Char.toLower) c = c := fun c hc => by
    rw [Function.comp_apply, Char.toUpper_toLower_eq_toUpper]
    exact Char.toUpper_eq_of_not_isLower (by simp [h c hc])
  rw [lowerCaseAscii, String.toList_ofList, List.map_map, List.map_congr_left hchar]
  exact List.map_id _

/-- Texts without small letters are told apart by their small forms. -/
theorem eq_of_lowerCaseAscii_eq {s t : String} (hs : IsCapital s) (ht : IsCapital t)
    (h : lowerCaseAscii s = lowerCaseAscii t) : s = t := by
  rw [← String.toList_inj, ← hs.map_toUpper, ← ht.map_toUpper, h]

end Rendezvous.Text
