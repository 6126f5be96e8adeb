import Mathlib.Data.Set.Lattice

/-!
# Compacting a log from its end

Each entry of a log states some facts, and a later statement of a fact supersedes an
earlier one. Compaction scans the log from its end with the set of the facts stated so
far, and drops an entry that states nothing new, unless it is one that must stay.

The scan of what a scan kept finds the same set and keeps the same entries (`scan_scan`);
hence compaction may be done at any time (`compact_append`). A reader that folds over the
log does not notice it (`foldlM_compact`) if an entry changes its state only in what the
facts of the entry are about, and what an entry does to two states does not depend on
what is superseded by it.
-/

namespace Duris.Compaction

variable {α φ : Type} (facts : α → Set φ) (forced : α → Prop)

open Classical in
/-- The entries kept of a log behind which the facts `seen` are stated, and the facts
stated from its start on. -/
noncomputable def scan (seen : Set φ) : List α → List α × Set φ
  | [] => ([], seen)
  | entry :: log =>
      (if forced entry ∨ ¬ facts entry ⊆ (scan seen log).2 then entry :: (scan seen log).1
        else (scan seen log).1,
        (scan seen log).2 ∪ facts entry)

noncomputable def compact (log : List α) : List α := (scan facts forced ∅ log).1

variable {facts forced} {seen later : Set φ} {entry : α} {log : List α}

theorem scan_cons_keep (h : forced entry ∨ ¬ facts entry ⊆ (scan facts forced seen log).2) :
    scan facts forced seen (entry :: log) = (entry :: (scan facts forced seen log).1,
      (scan facts forced seen log).2 ∪ facts entry) := by
  rw [scan, if_pos h]

theorem scan_cons_drop (h : ¬ (forced entry ∨ ¬ facts entry ⊆ (scan facts forced seen log).2)) :
    scan facts forced seen (entry :: log) = scan facts forced seen log := by
  rw [scan, if_neg h, Set.union_eq_self_of_subset_right (not_not.mp (not_or.mp h).2)]

theorem scan_append (log more : List α) :
    scan facts forced seen (log ++ more) =
      ((scan facts forced (scan facts forced seen more).2 log).1 ++ (scan facts forced seen more).1,
        (scan facts forced (scan facts forced seen more).2 log).2) := by
  induction log with
  | nil => rfl
  | cons entry log ih =>
      rw [List.cons_append, scan, scan, ih]
      split
      · rfl
      · rfl

theorem scan_mono (h : seen ⊆ later) (log : List α) :
    (scan facts forced seen log).2 ⊆ (scan facts forced later log).2 := by
  induction log with
  | nil => exact h
  | cons entry log ih => exact Set.union_subset_union_left _ ih

theorem scan_scan (h : seen ⊆ later) (log : List α) :
    scan facts forced later (scan facts forced seen log).1 = scan facts forced later log := by
  induction log with
  | nil => rfl
  | cons entry log ih =>
      by_cases hkeep : forced entry ∨ ¬ facts entry ⊆ (scan facts forced seen log).2
      · rw [scan_cons_keep hkeep, scan, scan, ih]
      · have hdrop : ¬ (forced entry ∨ ¬ facts entry ⊆ (scan facts forced later log).2) := by
          obtain ⟨hforced, hstated⟩ := not_or.mp hkeep
          refine not_or.mpr ⟨hforced, not_not.mpr ?_⟩
          exact (not_not.mp hstated).trans (scan_mono h log)
        rw [scan_cons_drop hkeep, scan_cons_drop hdrop, ih]

theorem compact_compact (log : List α) :
    compact facts forced (compact facts forced log) = compact facts forced log := by
  rw [compact, compact, scan_scan (Set.Subset.refl _)]

theorem compact_append (log more : List α) :
    compact facts forced (compact facts forced log ++ more) =
      compact facts forced (log ++ more) := by
  rw [compact, compact, compact, scan_append, scan_append, scan_scan (Set.empty_subset _)]

theorem compact_subset (h : entry ∈ compact facts forced log) : entry ∈ log := by
  induction log with
  | nil => exact h
  | cons first log ih =>
      by_cases hkeep : forced first ∨ ¬ facts first ⊆ (scan facts forced ∅ log).2
      · rw [compact, scan_cons_keep hkeep] at h
        cases List.mem_cons.mp h with
        | inl hfirst => rw [hfirst]; exact List.mem_cons_self
        | inr hrest => exact List.mem_cons_of_mem _ (ih hrest)
      · rw [compact, scan_cons_drop hkeep] at h
        exact List.mem_cons_of_mem _ (ih h)

section Reader

variable {σ ε : Type} {read : σ → α → Except ε σ} {Agree : Set φ → σ → σ → Prop}

/-- What a reader of the log has to satisfy: `Agree F` says that two of its states differ
only in what the facts of `F` are about. -/
structure Reads (facts : α → Set φ) (forced : α → Prop) (read : σ → α → Except ε σ)
    (Agree : Set φ → σ → σ → Prop) (log : List α) : Prop where
  refl : ∀ F s, Agree F s s
  eq : ∀ s s', Agree ∅ s s' → s = s'
  mono : ∀ {F F' s s'}, F ⊆ F' → Agree F s s' → Agree F' s s'
  /-- An entry supersedes what its facts are about. -/
  step : ∀ entry ∈ log, ∀ F s s', Agree (F ∪ facts entry) s s' →
    (∃ e, read s entry = .error e ∧ read s' entry = .error e) ∨
    ∃ t t', read s entry = .ok t ∧ read s' entry = .ok t' ∧ Agree F t t'
  /-- An entry that may go is read, and changes only what its facts are about. -/
  drop : ∀ entry ∈ log, ∀ s, ¬ forced entry →
    ∃ t, read s entry = .ok t ∧ Agree (facts entry) s t

theorem Reads.foldlM_agree (h : Reads facts forced read Agree log) {more : List α}
    (hsub : ∀ entry ∈ more, entry ∈ log) :
    ∀ s s', Agree (scan facts forced ∅ more).2 s s' → more.foldlM read s = more.foldlM read s' := by
  induction more with
  | nil =>
      intro s s' hagree
      rw [h.eq s s' hagree]
  | cons entry more ih =>
      intro s s' hagree
      rw [List.foldlM_cons, List.foldlM_cons]
      rcases h.step entry (hsub entry List.mem_cons_self) _ s s' hagree with
        ⟨e, he, he'⟩ | ⟨t, t', ht, ht', hrest⟩
      · rw [he, he']
      · rw [ht, ht']
        exact ih (fun e he => hsub e (List.mem_cons_of_mem _ he)) t t' hrest

theorem Reads.foldlM_compact (h : Reads facts forced read Agree log) {more : List α}
    (hsub : ∀ entry ∈ more, entry ∈ log) :
    ∀ s, (compact facts forced more).foldlM read s = more.foldlM read s := by
  induction more with
  | nil => intro s; rfl
  | cons entry more ih =>
      have hrest : ∀ e ∈ more, e ∈ log := fun e he => hsub e (List.mem_cons_of_mem _ he)
      intro s
      rw [List.foldlM_cons]
      by_cases hkeep : forced entry ∨ ¬ facts entry ⊆ (scan facts forced ∅ more).2
      · rw [compact, scan_cons_keep hkeep, List.foldlM_cons]
        cases read s entry with
        | error e => rfl
        | ok t => exact ih hrest t
      · obtain ⟨hforced, hstated⟩ := not_or.mp hkeep
        obtain ⟨t, ht, hagree⟩ := h.drop entry (hsub entry List.mem_cons_self) s hforced
        rw [compact, scan_cons_drop hkeep, ht]
        refine (ih hrest s).trans ?_
        exact h.foldlM_agree hrest s t (h.mono (not_not.mp hstated) hagree)

end Reader

end Duris.Compaction
