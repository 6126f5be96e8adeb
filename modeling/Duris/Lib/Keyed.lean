import Mathlib.Data.List.Perm.Basic
import Mathlib.Data.List.Nodup
import Mathlib.Algebra.BigOperators.Group.List.Basic
import Mathlib.Algebra.GroupWithZero.Nat

/-!
# Lists with one entry a key

The hash maps of the repository are modelled by lists in the order of insertion, with
a function that reads an entry's key: a lookup is the first entry with the key, and an
erasure a filter. When no two entries share a key, the lookup finds the entry that is
there and an erasure takes away that one entry; as a permutation, the list is the
entry in front of what the erasure leaves, from which counts and sums follow.
-/

namespace Duris

namespace Keyed

variable {α κ : Type} [DecidableEq κ] {key : α → κ}

/-- The entry of `k`, if there is one. -/
def lookup (key : α → κ) (entries : List α) (k : κ) : Option α :=
  entries.find? fun entry => key entry = k

def erase (key : α → κ) (entries : List α) (k : κ) : List α :=
  entries.filter fun entry => key entry ≠ k

variable {entries : List α} {entry : α}

theorem mem_of_lookup {k : κ} (h : lookup key entries k = some entry) :
    entry ∈ entries ∧ key entry = k :=
  ⟨List.mem_of_find?_eq_some h, by simpa using List.find?_some h⟩

theorem lookup_eq_none {k : κ} :
    lookup key entries k = none ↔ ∀ entry ∈ entries, key entry ≠ k := by
  unfold lookup
  rw [List.find?_eq_none]
  simp

omit [DecidableEq κ] in
theorem eq_of_key_eq (hunique : (entries.map key).Nodup) {a b : α} (ha : a ∈ entries)
    (hb : b ∈ entries) (h : key a = key b) : a = b :=
  List.inj_on_of_nodup_map hunique ha hb h

theorem lookup_of_mem (hunique : (entries.map key).Nodup) (hentry : entry ∈ entries) :
    lookup key entries (key entry) = some entry := by
  cases hfound : lookup key entries (key entry) with
  | none => exact absurd rfl (lookup_eq_none.mp hfound entry hentry)
  | some found =>
      obtain ⟨hmem, hkey⟩ := mem_of_lookup hfound
      rw [eq_of_key_eq hunique hmem hentry hkey]

theorem mem_erase {k : κ} : entry ∈ erase key entries k ↔ entry ∈ entries ∧ key entry ≠ k := by
  unfold erase
  rw [List.mem_filter, decide_eq_true_eq]

theorem erase_unique (hunique : (entries.map key).Nodup) (k : κ) :
    ((erase key entries k).map key).Nodup :=
  (hunique.sublist (List.Sublist.map key List.filter_sublist))

theorem erase_length_le (entries : List α) (k : κ) :
    (erase key entries k).length ≤ entries.length :=
  List.length_filter_le _ _

theorem erase_of_absent {k : κ} (h : ∀ entry ∈ entries, key entry ≠ k) :
    erase key entries k = entries := by
  unfold erase
  rw [List.filter_eq_self]
  simpa using h

theorem perm_cons_erase (hunique : (entries.map key).Nodup) (hentry : entry ∈ entries) :
    entries.Perm (entry :: erase key entries (key entry)) := by
  induction entries with
  | nil => cases hentry
  | cons head entries ih =>
      rw [List.map_cons, List.nodup_cons] at hunique
      rcases List.mem_cons.mp hentry with rfl | htail
      · have habsent : ∀ other ∈ entries, key other ≠ key entry :=
          fun other hother heq => hunique.1 (heq ▸ List.mem_map_of_mem hother)
        rw [erase, List.filter_cons_of_neg (by simp), ← erase, erase_of_absent habsent]
      · have hne : key head ≠ key entry :=
          fun heq => hunique.1 (heq ▸ List.mem_map_of_mem htail)
        rw [erase, List.filter_cons_of_pos (by simpa using hne), ← erase]
        exact ((ih hunique.2 htail).cons head).trans (List.Perm.swap entry head _)

theorem map_erase (entries : List α) (k : κ) :
    (erase key entries k).map key = (entries.map key).filter (· ≠ k) := by
  unfold erase
  rw [List.filter_map]
  rfl

theorem perm_map_erase (hunique : (entries.map key).Nodup) {k : κ} {rest : List κ}
    (h : (k :: rest).Perm (entries.map key)) : rest.Perm ((erase key entries k).map key) := by
  have hnodup : (k :: rest).Nodup := h.nodup_iff.mpr hunique
  rw [List.nodup_cons] at hnodup
  have hkeep : (k :: rest).filter (· ≠ k) = rest := by
    rw [List.filter_cons_of_neg (by simp), List.filter_eq_self]
    intro other hother
    rw [decide_eq_true_eq]
    rintro rfl
    exact hnodup.1 hother
  rw [map_erase, ← hkeep]
  exact h.filter _

/-- An entry changed in place, as a permutation: the new one in front of the others. -/
theorem perm_map_replace (hunique : (entries.map key).Nodup) {old new : α} (hold : old ∈ entries)
    (hkey : key new = key old) :
    (entries.map fun other => if key other = key new then new else other).Perm
      (new :: erase key entries (key old)) := by
  have hothers : (erase key entries (key old)).map
      (fun other => if key other = key new then new else other) =
        erase key entries (key old) := by
    conv_rhs => rw [← List.map_id (erase key entries (key old))]
    refine List.map_congr_left fun other hother => ?_
    exact if_neg (hkey ▸ (mem_erase.mp hother).2)
  have hsplit := (perm_cons_erase hunique hold).map
    (fun other => if key other = key new then new else other)
  rwa [List.map_cons, if_pos hkey.symm, hothers] at hsplit

theorem sum_erase (hunique : (entries.map key).Nodup) (hentry : entry ∈ entries) (size : α → Nat) :
    size entry + ((erase key entries (key entry)).map size).sum = (entries.map size).sum := by
  have hperm := ((perm_cons_erase hunique hentry).map size).sum_eq
  rw [hperm, List.map_cons, List.sum_cons]

end Keyed

end Duris
