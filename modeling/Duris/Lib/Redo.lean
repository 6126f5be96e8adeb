import Mathlib.Data.List.Nodup
import Mathlib.Logic.Function.Basic

/-!
# Redo logs

A redo log is a list of writes to distinct keys, each to a value or to nothing. It
may be applied any number of times, and stopped anywhere: the store is then
somewhere `Between` what it was and what the log makes of it, key by key, and
applying the log from there ends where it would have ended from the start.
-/

namespace Duris

namespace Redo

variable {κ ν : Type} [DecidableEq κ]

def applyWrites (writes : List (κ × Option ν)) (store : κ → Option ν) : κ → Option ν :=
  writes.foldl (fun store write => Function.update store write.1 write.2) store

/-- Every key has its old value or the one the log gives it. -/
def Between (writes : List (κ × Option ν)) (base store : κ → Option ν) : Prop :=
  ∀ key, store key = base key ∨ store key = applyWrites writes base key

@[simp] theorem applyWrites_nil (store : κ → Option ν) : applyWrites [] store = store := rfl

@[simp] theorem applyWrites_cons (write : κ × Option ν) (writes : List (κ × Option ν))
    (store : κ → Option ν) :
    applyWrites (write :: writes) store =
      applyWrites writes (Function.update store write.1 write.2) := rfl

variable {writes : List (κ × Option ν)}

theorem applyWrites_of_absent {key : κ} (habsent : key ∉ writes.map Prod.fst)
    (store : κ → Option ν) : applyWrites writes store key = store key := by
  induction writes generalizing store with
  | nil => rfl
  | cons write writes ih =>
      rw [List.map_cons, List.mem_cons, not_or] at habsent
      rw [applyWrites_cons, ih habsent.2, Function.update_of_ne habsent.1]

theorem update_applyWrites {key : κ} (habsent : key ∉ writes.map Prod.fst) (store : κ → Option ν)
    (value : Option ν) :
    Function.update (applyWrites writes store) key value =
      applyWrites writes (Function.update store key value) := by
  induction writes generalizing store with
  | nil => rfl
  | cons write writes ih =>
      rw [List.map_cons, List.mem_cons, not_or] at habsent
      rw [applyWrites_cons, ih habsent.2, Function.update_comm (Ne.symm habsent.1),
        applyWrites_cons]

theorem applyWrites_of_mem (hdistinct : (writes.map Prod.fst).Nodup) {write : κ × Option ν}
    (hwrite : write ∈ writes) (store : κ → Option ν) :
    applyWrites writes store write.1 = write.2 := by
  induction writes generalizing store with
  | nil => simp at hwrite
  | cons first writes ih =>
      rw [List.map_cons, List.nodup_cons] at hdistinct
      rw [applyWrites_cons]
      rcases List.mem_cons.mp hwrite with rfl | hrest
      · rw [applyWrites_of_absent hdistinct.1, Function.update_self]
      · exact ih hdistinct.2 hrest _

section

variable {writes : List (κ × Option ν)} {base store : κ → Option ν}

theorem between_refl : Between writes base base := fun _ => .inl rfl

variable (hdistinct : (writes.map Prod.fst).Nodup)

include hdistinct

theorem Between.update
    (h : Between writes base store) {write : κ × Option ν} (hwrite : write ∈ writes) :
    Between writes base (Function.update store write.1 write.2) := by
  intro key
  by_cases hkey : key = write.1
  · subst hkey
    rw [Function.update_self]
    exact .inr (applyWrites_of_mem hdistinct hwrite base).symm
  · rw [Function.update_of_ne hkey]
    exact h key

theorem Between.applyPart (part : List (κ × Option ν)) (hpart : ∀ write ∈ part, write ∈ writes)
    (h : Between writes base store) : Between writes base (applyWrites part store) := by
  induction part generalizing store with
  | nil => exact h
  | cons write part ih =>
      rw [List.forall_mem_cons] at hpart
      exact ih hpart.2 (h.update hdistinct hpart.1)

theorem Between.applyWrites_eq
    (h : Between writes base store) : applyWrites writes store = applyWrites writes base := by
  funext key
  by_cases hkey : key ∈ writes.map Prod.fst
  · obtain ⟨write, hwrite, rfl⟩ := List.mem_map.mp hkey
    rw [applyWrites_of_mem hdistinct hwrite, applyWrites_of_mem hdistinct hwrite]
  · rw [applyWrites_of_absent hkey, applyWrites_of_absent hkey]
    rcases h key with hold | hnew
    · exact hold
    · rwa [applyWrites_of_absent hkey] at hnew

theorem applyWrites_again
    {part : List (κ × Option ν)} (hpart : part.Sublist writes) (store : κ → Option ν) :
    applyWrites part (applyWrites writes store) = applyWrites writes store := by
  have hdistinct' : (part.map Prod.fst).Nodup := hdistinct.sublist (hpart.map Prod.fst)
  funext key
  by_cases hkey : key ∈ part.map Prod.fst
  · obtain ⟨write, hwrite, rfl⟩ := List.mem_map.mp hkey
    rw [applyWrites_of_mem hdistinct' hwrite, applyWrites_of_mem hdistinct (hpart.subset hwrite)]
  · exact applyWrites_of_absent hkey _

end

end Redo

end Duris
