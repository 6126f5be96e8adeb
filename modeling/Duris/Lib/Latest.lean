import Mathlib.Data.List.Perm.Basic
import Mathlib.Order.Lattice
import Mathlib.Order.Defs.LinearOrder

/-!
# Latest-wins registers

A value with a revision, and writes that are taken unless they are older. When
two writes of one revision carry one value, the register does not depend on the
order the writes arrive in: it ends with the highest revision there was, and a
write it has seen before leaves it alone.
-/

namespace Duris

/-- A value and the revision it belongs to. -/
structure Stamped (ρ α : Type) where
  revision : ρ
  value : α

namespace Stamped

variable {ρ α : Type} [LinearOrder ρ]

/-- Take the write unless it is older than what is held. -/
def accept (held write : Stamped ρ α) : Stamped ρ α :=
  if write.revision < held.revision then held else write

/-- Writes of one revision carry one value. -/
def Agree (writes : List (Stamped ρ α)) : Prop :=
  ∀ a ∈ writes, ∀ b ∈ writes, a.revision = b.revision → a = b

variable {write : Stamped ρ α}

theorem accept_of_lt {held : Stamped ρ α} (h : write.revision < held.revision) :
    held.accept write = held := if_pos h

theorem accept_of_le {held : Stamped ρ α} (h : held.revision ≤ write.revision) :
    held.accept write = write := if_neg (not_lt.mpr h)

theorem revision_le_accept (held write : Stamped ρ α) :
    held.revision ≤ (held.accept write).revision := by
  rcases lt_or_ge write.revision held.revision with h | h
  · rw [accept_of_lt h]
  · rw [accept_of_le h]
    exact h

/-- A register ends with what it held, or with a write that nothing outranks. -/
theorem foldl_accept_cases (writes : List (Stamped ρ α)) :
    ∀ held : Stamped ρ α,
      (writes.foldl accept held = held ∧ ∀ write ∈ writes, write.revision < held.revision) ∨
        (writes.foldl accept held ∈ writes ∧
          held.revision ≤ (writes.foldl accept held).revision ∧
          ∀ write ∈ writes, write.revision ≤ (writes.foldl accept held).revision) := by
  induction writes with
  | nil => intro held; exact .inl ⟨rfl, by simp⟩
  | cons write writes ih =>
      intro held
      rw [List.foldl_cons]
      rcases lt_or_ge write.revision held.revision with hlt | hge
      · rw [accept_of_lt hlt]
        rcases ih held with ⟨hend, hall⟩ | ⟨hmem, hheld, hall⟩
        · exact .inl ⟨hend, List.forall_mem_cons.mpr ⟨hlt, hall⟩⟩
        · exact .inr ⟨List.mem_cons_of_mem _ hmem, hheld,
            List.forall_mem_cons.mpr ⟨hlt.le.trans hheld, hall⟩⟩
      · rw [accept_of_le hge]
        right
        rcases ih write with ⟨hend, hall⟩ | ⟨hmem, hwrite, hall⟩
        · rw [hend]
          exact ⟨List.mem_cons_self, hge,
            List.forall_mem_cons.mpr ⟨le_rfl, fun w hw => (hall w hw).le⟩⟩
        · exact ⟨List.mem_cons_of_mem _ hmem, hge.trans hwrite,
            List.forall_mem_cons.mpr ⟨hwrite, hall⟩⟩

theorem accept_foldl_of_mem {writes : List (Stamped ρ α)} (hagree : Agree writes)
    (held : Stamped ρ α) (hwrite : write ∈ writes) :
    (writes.foldl accept held).accept write = writes.foldl accept held := by
  rcases foldl_accept_cases writes held with ⟨hend, hall⟩ | ⟨hmem, -, hall⟩
  · rw [hend]
    exact accept_of_lt (hall write hwrite)
  · rcases (hall write hwrite).lt_or_eq with hlt | heq
    · exact accept_of_lt hlt
    · rw [accept_of_le heq.ge]
      exact hagree write hwrite _ hmem heq

theorem foldl_accept_perm {writes writes' : List (Stamped ρ α)} (hagree : Agree writes)
    (hperm : writes'.Perm writes) (held : Stamped ρ α) :
    writes'.foldl accept held = writes.foldl accept held := by
  rcases foldl_accept_cases writes held with ⟨hend, hall⟩ | ⟨hmem, hheld, hall⟩
  · rcases foldl_accept_cases writes' held with ⟨hend', -⟩ | ⟨hmem', hheld', -⟩
    · rw [hend, hend']
    · exact absurd (hall _ (hperm.mem_iff.mp hmem')) (not_lt.mpr hheld')
  · rcases foldl_accept_cases writes' held with ⟨-, hall'⟩ | ⟨hmem', -, hall'⟩
    · exact absurd (hall' _ (hperm.mem_iff.mpr hmem)) (not_lt.mpr hheld)
    · refine hagree _ (hperm.mem_iff.mp hmem') _ hmem (le_antisymm ?_ ?_)
      · exact hall _ (hperm.mem_iff.mp hmem')
      · exact hall' _ (hperm.mem_iff.mpr hmem)

end Stamped

end Duris
