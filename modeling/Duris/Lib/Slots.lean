import Mathlib

/-!
# Slots of a schedule

A schedule of a fixed rate has its first slot at `first` and one more every `interval`. The
facts here say which of them are past at a given time, that they are counted by a division,
and which of them comes next.
-/

namespace Duris

/-- The first `n` slots. -/
def slots (first interval n : Nat) : List Nat := (List.range n).map fun k => first + k * interval

/-- The slots that are past at `now`: from `first` on, in phase with it. -/
def passedSlots (first interval now : Nat) : List Nat :=
  (List.range (now + 1)).filter fun slot => first ≤ slot ∧ slot % interval = first % interval

@[simp] theorem slots_length (first interval n : Nat) : (slots first interval n).length = n := by
  simp [slots]

theorem slots_one (first interval : Nat) : slots first interval 1 = [first] := by simp [slots]

theorem slots_add (first interval n m : Nat) :
    slots first interval (n + m) =
      slots first interval n ++ slots (first + n * interval) interval m := by
  rw [slots, List.range_add, List.map_append, List.map_map]
  refine congrArg (_ ++ ·) (List.map_congr_left fun k _ => ?_)
  rw [Function.comp_apply, Nat.add_mul, Nat.add_assoc]

variable {first interval : Nat}

theorem mem_slots {n slot : Nat} :
    slot ∈ slots first interval n ↔ ∃ k < n, slot = first + k * interval := by
  simp [slots, eq_comm]

theorem slots_increasing (hinterval : 0 < interval) (first n : Nat) :
    (slots first interval n).Pairwise (· < ·) := by
  rw [slots, List.pairwise_map]
  refine List.pairwise_lt_range.imp fun {a b} hlt => ?_
  exact Nat.add_lt_add_left (Nat.mul_lt_mul_of_pos_right hlt hinterval) first

theorem passedSlots_eq {now : Nat} (hinterval : 0 < interval) (hpast : first ≤ now) :
    passedSlots first interval now = slots first interval ((now - first) / interval + 1) := by
  refine List.Pairwise.eq_of_mem_iff (r := (· < ·)) ?_ (slots_increasing hinterval _ _) ?_
  · exact List.pairwise_lt_range.filter _
  · intro slot
    rw [mem_slots, passedSlots, List.mem_filter, List.mem_range, decide_eq_true_eq]
    constructor
    · rintro ⟨hslot, hfirst, hphase⟩
      obtain ⟨k, hk⟩ := (Nat.modEq_iff_dvd' hfirst).mp hphase.symm
      refine ⟨k, ?_, by rw [Nat.mul_comm]; omega⟩
      rw [Nat.lt_succ_iff, Nat.le_div_iff_mul_le hinterval, Nat.mul_comm]
      omega
    · rintro ⟨k, hk, rfl⟩
      rw [Nat.lt_succ_iff, Nat.le_div_iff_mul_le hinterval] at hk
      exact ⟨by omega, Nat.le_add_right _ _, Nat.add_mul_mod_self_right _ _ _⟩

/-- After as many slots as the division counts the next one lies ahead, by an interval at
most. -/
theorem slot_after_passed {now : Nat} (hinterval : 0 < interval) (hpast : first ≤ now) :
    now < first + ((now - first) / interval + 1) * interval ∧
      first + ((now - first) / interval + 1) * interval ≤ now + interval := by
  have hdiv := Nat.div_add_mod (now - first) interval
  have hmod := Nat.mod_lt (now - first) hinterval
  rw [Nat.mul_comm] at hdiv
  rw [Nat.add_mul, Nat.one_mul]
  omega

theorem next_slot_least {now n k : Nat}
    (hnear : first + n * interval = first ∨ first + n * interval ≤ now + interval)
    (hahead : now < first + k * interval) : first + n * interval ≤ first + k * interval := by
  rcases hnear with heq | hle
  · rw [heq]
    exact Nat.le_add_right _ _
  · by_contra hlt
    have hkn : k + 1 ≤ n := by
      by_contra hkn
      exact hlt (Nat.add_le_add_left (Nat.mul_le_mul_right interval (by omega)) first)
    have hmul := Nat.mul_le_mul_right interval hkn
    rw [Nat.add_mul, Nat.one_mul] at hmul
    omega

end Duris
