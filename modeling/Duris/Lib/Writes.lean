import Duris.Lib.Redo

/-!
# Writes that may repeat a key

A list of writes in order, where the last write of a key is the one that counts. Applying
the list sets every key it names to its last write and leaves the others, so a list that
is applied in part and then from its start ends as if it had been applied once.
-/

namespace Duris

namespace Redo

variable {κ ν : Type} [DecidableEq κ]

def lastWrite : List (κ × Option ν) → κ → Option (Option ν)
  | [], _ => none
  | write :: writes, key =>
      (lastWrite writes key).or (if write.1 = key then some write.2 else none)

@[simp] theorem lastWrite_nil (key : κ) : lastWrite ([] : List (κ × Option ν)) key = none := rfl

theorem lastWrite_append (before after : List (κ × Option ν)) (key : κ) :
    lastWrite (before ++ after) key = (lastWrite after key).or (lastWrite before key) := by
  induction before with
  | nil => rw [List.nil_append, lastWrite_nil, Option.or_none]
  | cons write before ih =>
      rw [List.cons_append, lastWrite, ih, lastWrite, Option.or_assoc]

theorem lastWrite_concat (writes : List (κ × Option ν)) (write : κ × Option ν) (key : κ) :
    lastWrite (writes ++ [write]) key =
      if write.1 = key then some write.2 else lastWrite writes key := by
  rw [lastWrite_append, lastWrite, lastWrite_nil, Option.none_or]
  split
  · rw [Option.some_or]
  · rw [Option.none_or]

variable {writes : List (κ × Option ν)}

theorem lastWrite_eq_none {key : κ} : lastWrite writes key = none ↔ key ∉ writes.map Prod.fst := by
  induction writes with
  | nil => simp
  | cons write writes ih =>
      rw [lastWrite, Option.or_eq_none_iff, ih, List.map_cons, List.mem_cons, not_or, and_comm]
      refine and_congr_left fun _ => ?_
      split
      · next h => simp [h]
      · next h => simpa using fun heq => h heq.symm

theorem mem_of_lastWrite {key : κ} {value : Option ν} (h : lastWrite writes key = some value) :
    (key, value) ∈ writes := by
  induction writes with
  | nil => cases h
  | cons write writes ih =>
      rw [lastWrite, Option.or_eq_some_iff] at h
      rcases h with htail | ⟨-, hhead⟩
      · exact List.mem_cons_of_mem _ (ih htail)
      · split at hhead
        · next hkey =>
            cases hhead
            rw [← hkey]
            exact List.mem_cons_self
        · cases hhead

theorem lastWrite_of_mem (hdistinct : (writes.map Prod.fst).Nodup) {key : κ} {value : Option ν}
    (h : (key, value) ∈ writes) : lastWrite writes key = some value := by
  induction writes with
  | nil => cases h
  | cons write writes ih =>
      rw [List.map_cons, List.nodup_cons] at hdistinct
      rcases List.mem_cons.mp h with rfl | htail
      · rw [lastWrite, lastWrite_eq_none.mpr hdistinct.1, Option.none_or, if_pos rfl]
      · rw [lastWrite, ih hdistinct.2 htail, Option.some_or]

theorem applyWrites_append (before after : List (κ × Option ν)) (store : κ → Option ν) :
    applyWrites (before ++ after) store = applyWrites after (applyWrites before store) :=
  List.foldl_append

theorem applyWrites_apply (writes : List (κ × Option ν)) (store : κ → Option ν) (key : κ) :
    applyWrites writes store key = (lastWrite writes key).getD (store key) := by
  induction writes generalizing store with
  | nil => rfl
  | cons write writes ih =>
      rw [applyWrites_cons, ih, lastWrite]
      cases lastWrite writes key with
      | some value => rfl
      | none =>
          rw [Option.none_or, Option.getD_none]
          by_cases hkey : write.1 = key
          · rw [if_pos hkey, hkey, Function.update_self, Option.getD_some]
          · rw [if_neg hkey, Function.update_of_ne (Ne.symm hkey), Option.getD_none]

/-- Two stores that differ only where the writes go. -/
def AgreeOff (writes : List (κ × Option ν)) (a b : κ → Option ν) : Prop :=
  ∀ key, key ∉ writes.map Prod.fst → a key = b key

omit [DecidableEq κ] in
theorem agreeOff_refl (writes : List (κ × Option ν)) (a : κ → Option ν) :
    AgreeOff writes a a := fun _ _ => rfl

theorem AgreeOff.applyWrites_eq {a b : κ → Option ν} (h : AgreeOff writes a b) :
    applyWrites writes a = applyWrites writes b := by
  funext key
  rw [applyWrites_apply, applyWrites_apply]
  cases hlast : lastWrite writes key with
  | some value => rfl
  | none => exact h key (lastWrite_eq_none.mp hlast)

theorem AgreeOff.applyPart {part : List (κ × Option ν)} {a b : κ → Option ν}
    (h : AgreeOff writes a b) (hpart : ∀ write ∈ part, write ∈ writes) :
    AgreeOff writes (applyWrites part a) b := by
  intro key hkey
  rw [applyWrites_of_absent fun hmem => ?_]
  · exact h key hkey
  · obtain ⟨write, hwrite, rfl⟩ := List.mem_map.mp hmem
    exact hkey (List.mem_map_of_mem (hpart write hwrite))

theorem applyWrites_bind {μ : Type} (f : ν → Option μ) (writes : List (κ × Option ν)) (key : κ) :
    applyWrites (writes.map fun write => (write.1, write.2.bind f)) (fun _ => none) key =
      (applyWrites writes (fun _ => none) key).bind f := by
  rw [applyWrites_apply, applyWrites_apply]
  induction writes with
  | nil => rfl
  | cons write writes ih =>
      rw [List.map_cons, lastWrite, lastWrite]
      cases hlast : lastWrite writes key with
      | some value =>
          rw [hlast, Option.getD_some] at ih
          cases hmapped : lastWrite (writes.map fun write => (write.1, write.2.bind f)) key with
          | some mapped =>
              rw [hmapped, Option.getD_some] at ih
              rw [Option.some_or, Option.some_or, Option.getD_some, Option.getD_some, ih]
          | none =>
              have hkey := lastWrite_eq_none.mp hmapped
              rw [List.map_map] at hkey
              exact absurd (List.mem_map_of_mem (mem_of_lastWrite hlast)) hkey
      | none =>
          have hmapped : lastWrite (writes.map fun write => (write.1, write.2.bind f)) key =
              none := by
            rw [lastWrite_eq_none, List.map_map]
            exact lastWrite_eq_none.mp hlast
          rw [hmapped, Option.none_or, Option.none_or]
          by_cases hkey : write.1 = key
          · rw [if_pos hkey, if_pos hkey, Option.getD_some, Option.getD_some]
          · rw [if_neg hkey, if_neg hkey, Option.getD_none, Option.getD_none, Option.bind_none]

end Redo

end Duris
