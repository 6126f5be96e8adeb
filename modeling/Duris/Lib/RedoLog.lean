import Duris.Lib.Redo

/-!
# A store with its redo log

The log of `Redo` as a member of the store it is about: it lies under a key of its own, and
what is under that key can be read as a list of writes or not at all. `target` is where
replaying the log ends. A replay that is stopped anywhere does not move it, and writing a
log moves it in one step to where the log leads: that is the whole of what makes a change
of many keys atomic. Nothing is asked of the writes but that none of them is to the log.
-/

namespace Duris

structure RedoLog (κ ν : Type) where
  key : κ
  read : ν → Option (List (κ × Option ν))
  apart : ∀ {bytes writes}, read bytes = some writes → key ∉ writes.map Prod.fst

namespace RedoLog

open Redo

variable {κ ν : Type} [DecidableEq κ] (log : RedoLog κ ν)

/-- The store a replay ends in; one whose log cannot be read is left alone. -/
def target (store : κ → Option ν) : κ → Option ν :=
  match (store log.key).bind log.read with
  | none => store
  | some writes => applyWrites writes (Function.update store log.key none)

variable {log} {store base : κ → Option ν} {bytes : ν} {writes part : List (κ × Option ν)}

theorem target_unlogged (h : store log.key = none) : log.target store = store := by
  simp [target, h]

theorem target_logged (h : store log.key = some bytes) (hread : log.read bytes = some writes) :
    log.target store = applyWrites writes (Function.update store log.key none) := by
  simp [target, h, hread]

/-- Replaying ends in the same place from two stores that differ only where it writes. -/
theorem applyWrites_congr (h : ∀ key, key ∉ writes.map Prod.fst → store key = base key) :
    applyWrites writes store = applyWrites writes base := by
  induction writes generalizing store base with
  | nil => exact funext fun key => h key List.not_mem_nil
  | cons write writes ih =>
      rw [applyWrites_cons, applyWrites_cons]
      refine ih fun key hkey => ?_
      by_cases heq : key = write.1
      · rw [heq, Function.update_self, Function.update_self]
      · rw [Function.update_of_ne heq, Function.update_of_ne heq]
        exact h key (by simp [heq, hkey])

/-- A replay stopped on the way keeps the log, and with it the target. -/
theorem target_part (h : store log.key = some bytes) (hread : log.read bytes = some writes)
    (hpart : part <+: writes) : (applyWrites part store) log.key = some bytes ∧
      log.target (applyWrites part store) = log.target store := by
  have hsub : part.map Prod.fst ⊆ writes.map Prod.fst := List.map_subset _ hpart.subset
  have habsent : log.key ∉ part.map Prod.fst := fun hmem => log.apart hread (hsub hmem)
  have hkept : applyWrites part store log.key = some bytes := by
    rw [applyWrites_of_absent habsent, h]
  refine ⟨hkept, ?_⟩
  rw [target_logged hkept hread, target_logged h hread]
  refine applyWrites_congr fun key hkey => ?_
  rw [update_applyWrites habsent, applyWrites_of_absent fun hmem => hkey (hsub hmem)]

/-- Writing a log is the step in which the change happens. -/
theorem target_begun (hbase : base log.key = none) (hread : log.read bytes = some writes) :
    log.target (Function.update base log.key (some bytes)) = applyWrites writes base := by
  rw [target_logged (Function.update_self ..) hread, Function.update_idem,
    Function.update_eq_self_iff.mpr hbase.symm]

theorem target_finished (h : store log.key = some bytes) (hread : log.read bytes = some writes) :
    Function.update (applyWrites writes store) log.key none = log.target store := by
  rw [target_logged h hread, update_applyWrites (log.apart hread)]

end RedoLog

end Duris
