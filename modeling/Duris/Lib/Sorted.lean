import Mathlib.Data.List.Chain
import Mathlib.Data.List.Sort
import Duris.Lib.Keyed

/-!
# Vectors in the order of a key

The catalogues of the repository are vectors kept in ascending order of a key, looked
up with `std::lower_bound` and added to at the position it finds. `less` is the order
the source passes to it, a test; the results ask that it be a strict total order, and
then a lookup finds the entry of the key wherever it stands, as `Keyed.lookup` does,
and an insertion of an absent key keeps the order.
-/

namespace Duris

structure StrictTotal {κ : Type} (less : κ → κ → Bool) : Prop where
  irrefl : ∀ a, less a a = false
  trans : ∀ {a b c}, less a b = true → less b c = true → less a c = true
  eq_of_not_less : ∀ {a b}, less a b = false → less b a = false → a = b

namespace Sorted

variable {α κ : Type} {less : κ → κ → Bool} {key : α → κ}

/-- `std::lower_bound` and the comparison behind it: the first entry not below `k`, if it
is the one of `k`. -/
def find [DecidableEq κ] (less : κ → κ → Bool) (key : α → κ) (entries : List α) (k : κ) :
    Option α :=
  match entries.dropWhile fun entry => less (key entry) k with
  | [] => none
  | entry :: _ => if key entry = k then some entry else none

/-- `insert` at the position `std::lower_bound` finds. -/
def insert (less : κ → κ → Bool) (key : α → κ) (entries : List α) (entry : α) : List α :=
  (entries.takeWhile fun other => less (key other) (key entry)) ++
    entry :: entries.dropWhile fun other => less (key other) (key entry)

def Ordered (less : κ → κ → Bool) (key : α → κ) (entries : List α) : Prop :=
  entries.Pairwise fun a b => less (key a) (key b) = true

theorem ordered_iff (hless : StrictTotal less) {entries : List α} :
    (entries.IsChain (fun left right => less (key right) (key left) = false) ∧
      entries.IsChain fun left right => key left ≠ key right) ↔
      Ordered less key entries := by
  have htrans : IsTrans α fun a b => less (key a) (key b) = true := ⟨fun _ _ _ => hless.trans⟩
  have hsame (a b : α) : (less (key b) (key a) = false ∧ key a ≠ key b) ↔
      less (key a) (key b) = true := by
    refine ⟨fun ⟨hle, hne⟩ => ?_, fun hlt => ⟨?_, ?_⟩⟩
    · by_contra hnot
      exact hne (hless.eq_of_not_less (eq_false_of_ne_true hnot) hle)
    · refine eq_false_of_ne_true fun hgt => ?_
      have := hless.trans hlt hgt
      rw [hless.irrefl] at this
      cases this
    · intro heq
      rw [heq, hless.irrefl] at hlt
      cases hlt
  rw [Ordered, ← List.isChain_iff_pairwise]
  simp only [List.isChain_iff_forall_rel_of_append_cons_cons, ← hsame]
  exact ⟨fun h _ _ _ _ heq => ⟨h.1 heq, h.2 heq⟩,
    fun h => ⟨fun _ _ _ _ heq => (h heq).1, fun _ _ _ _ heq => (h heq).2⟩⟩

namespace Ordered

variable {entries : List α}

theorem nodup (hless : StrictTotal less) (h : Ordered less key entries) :
    (entries.map key).Nodup := by
  rw [List.nodup_iff_pairwise_ne, List.pairwise_map]
  refine List.Pairwise.imp (fun {a b} hab heq => ?_) h
  rw [heq, hless.irrefl] at hab
  cases hab

theorem sublist {entries' : List α} (h : Ordered less key entries)
    (hsub : entries'.Sublist entries) : Ordered less key entries' :=
  List.Pairwise.sublist hsub h

theorem map {f : α → α} (h : Ordered less key entries)
    (hf : ∀ entry ∈ entries, key (f entry) = key entry) :
    Ordered less key (entries.map f) := by
  refine List.pairwise_map.mpr (List.Pairwise.imp_of_mem (fun {a b} ha hb hab => ?_) h)
  rw [hf a ha, hf b hb]
  exact hab

/-- Where the order goes with the test, the entries that pass it stand in front. -/
theorem takeWhile_eq_filter {p : α → Bool} (h : Ordered less key entries)
    (hp : ∀ {a b}, less (key a) (key b) = true → p b = true → p a = true) :
    entries.takeWhile p = entries.filter p := by
  induction entries with
  | nil => rfl
  | cons entry entries ih =>
      obtain ⟨hhead, htail⟩ := List.pairwise_cons.mp h
      by_cases hentry : p entry = true
      · rw [List.takeWhile_cons_of_pos hentry, List.filter_cons_of_pos hentry, ih htail]
      · have hnone : entries.filter p = [] :=
          List.filter_eq_nil_iff.mpr fun other hother hpass =>
            hentry (hp (hhead other hother) hpass)
        rw [List.takeWhile_cons_of_neg hentry, List.filter_cons_of_neg hentry, hnone]

/-- In order, the first entry not below `k` is the only one that can be of `k`. -/
theorem find_eq_lookup [DecidableEq κ] (hless : StrictTotal less)
    (h : Ordered less key entries) (k : κ) :
    find less key entries k = Keyed.lookup key entries k := by
  induction entries with
  | nil => rfl
  | cons entry entries ih =>
      obtain ⟨hhead, htail⟩ := List.pairwise_cons.mp h
      by_cases hbelow : less (key entry) k = true
      · have hne : key entry ≠ k := by
          rintro rfl
          rw [hless.irrefl] at hbelow
          cases hbelow
        have hskip : find less key (entry :: entries) k = find less key entries k := by
          simp only [find, List.dropWhile_cons, hbelow, if_true]
        rw [hskip, ih htail, Keyed.lookup, Keyed.lookup,
          List.find?_cons_of_neg (by simpa using hne)]
      · simp only [find, List.dropWhile_cons, hbelow, Bool.false_eq_true, if_false]
        by_cases heq : key entry = k
        · simp [Keyed.lookup, heq]
        · -- what follows is above `entry`, hence above `k`
          have hnone : Keyed.lookup key entries k = none := by
            refine Keyed.lookup_eq_none.mpr fun other hother hk => ?_
            have := hhead other hother
            rw [hk] at this
            exact hbelow this
          simp only [if_neg heq]
          rw [Keyed.lookup, List.find?_cons_of_neg (by simpa using heq)]
          exact hnone.symm

theorem insert_perm (entries : List α) (entry : α) :
    (Sorted.insert less key entries entry).Perm (entry :: entries) := by
  unfold Sorted.insert
  refine List.perm_middle.trans ?_
  rw [List.takeWhile_append_dropWhile]

theorem insert (hless : StrictTotal less) (h : Ordered less key entries) {entry : α}
    (habsent : ∀ other ∈ entries, key other ≠ key entry) :
    Ordered less key (Sorted.insert less key entries entry) := by
  induction entries with
  | nil => exact List.pairwise_singleton _ _
  | cons head entries ih =>
      obtain ⟨hhead, htail⟩ := List.pairwise_cons.mp h
      have hrest : ∀ other ∈ entries, key other ≠ key entry :=
        fun other hother => habsent other (List.mem_cons_of_mem _ hother)
      by_cases hbelow : less (key head) (key entry) = true
      · have hstep : Sorted.insert less key (head :: entries) entry =
            head :: Sorted.insert less key entries entry := by
          simp only [Sorted.insert, List.takeWhile_cons, List.dropWhile_cons, hbelow, if_true,
            List.cons_append]
        rw [hstep]
        refine List.pairwise_cons.mpr ⟨fun other hother => ?_, ih htail hrest⟩
        rcases List.mem_cons.mp ((insert_perm entries entry).mem_iff.mp hother) with rfl | hmem
        · exact hbelow
        · exact hhead other hmem
      · have habove : less (key entry) (key head) = true := by
          by_contra hnot
          exact habsent head (List.mem_cons_self ..)
            (hless.eq_of_not_less (eq_false_of_ne_true hbelow) (eq_false_of_ne_true hnot))
        simp only [Sorted.insert, List.takeWhile_cons, List.dropWhile_cons, hbelow,
          Bool.false_eq_true, if_false, List.nil_append]
        refine List.pairwise_cons.mpr ⟨fun other hother => ?_, h⟩
        rcases List.mem_cons.mp hother with rfl | hmem
        · exact habove
        · exact hless.trans habove (hhead other hmem)

theorem mergeSort (hless : StrictTotal less) (hnodup : (entries.map key).Nodup) :
    Ordered less key (entries.mergeSort fun a b => !less (key b) (key a)) := by
  have hsorted := @List.pairwise_mergeSort _ (fun a b => !less (key b) (key a))
    (fun a b c hab hbc => by
      rw [Bool.not_eq_true'] at *
      refine eq_false_of_ne_true fun hca => ?_
      by_cases hba : less (key c) (key b) = true
      · rw [hba] at hbc
        cases hbc
      · by_cases hcb : less (key b) (key c) = true
        · rw [hless.trans hcb hca] at hab
          cases hab
        · rw [hless.eq_of_not_less (eq_false_of_ne_true hba) (eq_false_of_ne_true hcb)] at hca
          rw [hca] at hab
          cases hab)
    (fun a b => by
      by_cases hba : less (key b) (key a) = true
      · have hab : less (key a) (key b) = false := by
          refine eq_false_of_ne_true fun hab => ?_
          have := hless.trans hba hab
          rw [hless.irrefl] at this
          cases this
        simp [hab]
      · simp [eq_false_of_ne_true hba]) entries
  have hdistinct : (entries.mergeSort fun a b => !less (key b) (key a)).Pairwise
      fun a b => key a ≠ key b := by
    rw [← List.pairwise_map, ← List.nodup_iff_pairwise_ne]
    exact ((List.mergeSort_perm entries _).map key).nodup_iff.mpr hnodup
  refine List.Pairwise.imp (fun {a b} hab => ?_) (hsorted.and hdistinct)
  obtain ⟨hle, hne⟩ := hab
  by_contra hnot
  exact hne (hless.eq_of_not_less (eq_false_of_ne_true hnot) (by simpa using hle))

end Ordered

end Sorted

end Duris
