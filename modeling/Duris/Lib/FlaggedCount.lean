import Mathlib.Data.BitVec
import Mathlib.Data.List.Basic

/-!
# A count with two flags in one word

A machine word of `w + 2` bits carries a count in its low `w` bits and two
flags above it, so that one atomic operation can test the flags and change the
count. `flagged high low n` is the word with those three parts. The tests and
updates a program makes with masks are read off it here, so that a proof about
the program never looks at a bit.

`countP_set` is the other half of such a protocol: the count stands for the
number of parties in some state, and one party at a time moves.
-/

namespace Duris

variable {w : Nat}

def flagged (high low : Bool) (n : Nat) : BitVec (w + 2) :=
  BitVec.ofNat (w + 2) (2 ^ w * (2 * high.toNat + low.toNat) + n)

def highFlag (w : Nat) : BitVec (w + 2) := BitVec.twoPow (w + 2) (w + 1)

def lowFlag (w : Nat) : BitVec (w + 2) := BitVec.twoPow (w + 2) w

def countMask (w : Nat) : BitVec (w + 2) := ~~~(highFlag w ||| lowFlag w)

variable {n : Nat} {high low : Bool}

theorem flagged_value_lt (high low : Bool) (hn : n < 2 ^ w) :
    2 ^ w * (2 * high.toNat + low.toNat) + n < 2 ^ (w + 2) := by
  have hw : 2 ^ (w + 2) = 2 ^ w * 4 := Nat.pow_add 2 w 2
  have hhigh := high.toNat_le
  have hlow := low.toNat_le
  have hflags : 2 ^ w * (2 * high.toNat + low.toNat) ≤ 2 ^ w * 3 :=
    Nat.mul_le_mul_left _ (by omega)
  omega

theorem flagged_toNat (high low : Bool) (hn : n < 2 ^ w) :
    (flagged (w := w) high low n).toNat = 2 ^ w * (2 * high.toNat + low.toNat) + n := by
  rw [flagged, BitVec.toNat_ofNat, Nat.mod_eq_of_lt (flagged_value_lt high low hn)]

theorem flagged_bit (high low : Bool) (hn : n < 2 ^ w) (i : Nat) :
    (flagged (w := w) high low n).getLsbD i =
      if i < w then n.testBit i else if i = w then low else decide (i = w + 1) && high := by
  rw [BitVec.getLsbD, flagged_toNat high low hn, Nat.testBit_two_pow_mul_add _ hn]
  split
  · rfl
  · next hi =>
    split
    · next hw => subst hw; cases high <;> cases low <;> simp
    · next hw =>
      by_cases htop : i = w + 1
      · subst htop
        have hone : w + 1 - w = 1 := by omega
        rw [hone, decide_eq_true rfl, Bool.true_and]
        cases high <;> cases low <;> decide
      · have htwo : ∃ k, i - w = k + 2 := ⟨i - w - 2, by omega⟩
        obtain ⟨k, hk⟩ := htwo
        rw [hk, decide_eq_false htop, Bool.false_and]
        apply Nat.testBit_lt_two_pow
        have hhigh := high.toNat_le
        have hlow := low.toNat_le
        have hpow : 1 ≤ 2 ^ k := Nat.one_le_two_pow
        rw [Nat.pow_add]
        omega

theorem flagged_inj {high' low' : Bool} {n' : Nat} (hn : n < 2 ^ w) (hn' : n' < 2 ^ w)
    (h : flagged (w := w) high low n = flagged high' low' n') :
    high = high' ∧ low = low' ∧ n = n' := by
  have hbit := fun i => (flagged_bit high low hn i).symm.trans
    ((congrArg (fun word => word.getLsbD i) h).trans (flagged_bit high' low' hn' i))
  have hlow := hbit w
  have hhigh := hbit (w + 1)
  simp only [Nat.lt_irrefl, if_false, if_true] at hlow
  simp only [Nat.not_lt.mpr (Nat.le_succ w), if_false, decide_true, Bool.true_and,
    Nat.succ_ne_self] at hhigh
  subst hlow hhigh
  have hnat := congrArg BitVec.toNat h
  rw [flagged_toNat _ _ hn, flagged_toNat _ _ hn'] at hnat
  exact ⟨rfl, rfl, Nat.add_left_cancel hnat⟩

theorem and_twoPow_ne_zero {v i : Nat} (hi : i < v) (word : BitVec v) :
    word &&& BitVec.twoPow v i ≠ 0 ↔ word.getLsbD i = true := by
  have hmask : BitVec.twoPow v i ≠ 0 := by
    intro hzero
    have hbit := congrArg (fun mask => mask.getLsbD i) hzero
    simp [hi] at hbit
  rw [BitVec.and_twoPow]
  cases word.getLsbD i with
  | false => simp
  | true => simpa using hmask

theorem flagged_high (hn : n < 2 ^ w) : flagged high low n &&& highFlag w ≠ 0 ↔ high = true := by
  rw [highFlag, and_twoPow_ne_zero (by omega), flagged_bit high low hn]
  simp

theorem flagged_low (hn : n < 2 ^ w) : flagged high low n &&& lowFlag w ≠ 0 ↔ low = true := by
  rw [lowFlag, and_twoPow_ne_zero (by omega), flagged_bit high low hn]
  simp

theorem countMask_bit (i : Nat) : (countMask w).getLsbD i = decide (i < w) := by
  rw [countMask, highFlag, lowFlag]
  simp only [BitVec.getLsbD_not, BitVec.getLsbD_or, BitVec.getLsbD_twoPow]
  by_cases hi : i < w
  · simp [hi]
    omega
  · simp [hi]
    omega

theorem flagged_count (hn : n < 2 ^ w) :
    flagged high low n &&& countMask w = BitVec.ofNat (w + 2) n := by
  apply BitVec.eq_of_getLsbD_eq
  intro i hi
  rw [BitVec.getLsbD_and, flagged_bit high low hn, countMask_bit, BitVec.getLsbD_ofNat]
  by_cases hw : i < w
  · simp [hw, hi]
  · have hbit : n.testBit i = false :=
      Nat.testBit_lt_two_pow (Nat.lt_of_lt_of_le hn (Nat.pow_le_pow_right (by omega) (by omega)))
    simp [hw, hbit]

theorem flagged_count_eq {m : Nat} (hn : n < 2 ^ w) (hm : m < 2 ^ w) :
    flagged high low n &&& countMask w = BitVec.ofNat (w + 2) m ↔ n = m := by
  rw [flagged_count hn]
  constructor
  · intro h
    have hnat := congrArg BitVec.toNat h
    have hwide : 2 ^ w ≤ 2 ^ (w + 2) := Nat.pow_le_pow_right (by omega) (by omega)
    rwa [BitVec.toNat_ofNat, BitVec.toNat_ofNat, Nat.mod_eq_of_lt (by omega),
      Nat.mod_eq_of_lt (by omega)] at hnat
  · intro h
    rw [h]

theorem flagged_or_high (hn : n < 2 ^ w) :
    flagged high low n ||| highFlag w = flagged true low n := by
  apply BitVec.eq_of_getLsbD_eq
  intro i hi
  rw [BitVec.getLsbD_or, flagged_bit _ _ hn, flagged_bit _ _ hn, highFlag, BitVec.getLsbD_twoPow]
  by_cases htop : i = w + 1
  · simp [htop]
  · have hne : w + 1 ≠ i := fun h => htop h.symm
    simp [htop, hne]

theorem flagged_or_low (hn : n < 2 ^ w) :
    flagged high low n ||| lowFlag w = flagged high true n := by
  apply BitVec.eq_of_getLsbD_eq
  intro i hi
  rw [BitVec.getLsbD_or, flagged_bit _ _ hn, flagged_bit _ _ hn, lowFlag, BitVec.getLsbD_twoPow]
  by_cases hlow : i = w
  · simp [hlow]
  · have hne : w ≠ i := fun h => hlow h.symm
    simp [hlow, hne]

theorem flagged_and_not_low (hn : n < 2 ^ w) :
    flagged high low n &&& ~~~lowFlag w = flagged high false n := by
  apply BitVec.eq_of_getLsbD_eq
  intro i hi
  rw [BitVec.getLsbD_and, BitVec.getLsbD_not, flagged_bit _ _ hn, flagged_bit _ _ hn, lowFlag,
    BitVec.getLsbD_twoPow]
  by_cases hlow : i = w
  · simp [hlow]
  · have hne : w ≠ i := fun h => hlow h.symm
    simp [hlow, hne, hi]

theorem flagged_add_one (high low : Bool) (n : Nat) :
    flagged (w := w) high low n + 1 = flagged high low (n + 1) := by
  rw [flagged, flagged, ← Nat.add_assoc, BitVec.ofNat_add _ 1]
  rfl

theorem flagged_sub_one (high low : Bool) (n : Nat) :
    flagged (w := w) high low (n + 1) - 1 = flagged high low n := by
  rw [← flagged_add_one, BitVec.add_sub_cancel]

theorem flagged_zero : flagged (w := w) false false 0 = 0 := by
  simp [flagged]

section Moves

variable {α : Type} {p : α → Bool} {parties : List α} {i : Nat} {a : α}

theorem countP_move (h : parties[i]? = some a) (b : α) :
    (parties.set i b).countP p + (p a).toNat = parties.countP p + (p b).toNat := by
  obtain ⟨hi, ha⟩ := List.getElem?_eq_some_iff.mp h
  have hpos : p a = true → 0 < parties.countP p := fun hp =>
    List.countP_pos_iff.mpr ⟨a, ha ▸ List.getElem_mem hi, hp⟩
  rw [List.countP_set hi, ha]
  cases hp : p a <;> cases hq : p b <;> simp only [hp, forall_const, Bool.toNat_true,
    Bool.toNat_false, if_true, if_false, Bool.false_eq_true] at hpos ⊢ <;> omega

theorem set_same (h : parties[i]? = some a) : parties.set i a = parties := by
  obtain ⟨hi, rfl⟩ := List.getElem?_eq_some_iff.mp h
  exact List.set_getElem_self hi

theorem eq_of_countP_le_one (h : parties.countP p ≤ 1) {b : α} (ha : a ∈ parties)
    (hb : b ∈ parties) (hpa : p a = true) (hpb : p b = true) : a = b := by
  rw [List.countP_eq_length_filter] at h
  have hma : a ∈ parties.filter p := List.mem_filter.mpr ⟨ha, hpa⟩
  have hmb : b ∈ parties.filter p := List.mem_filter.mpr ⟨hb, hpb⟩
  cases hlist : parties.filter p with
  | nil => rw [hlist] at hma; cases hma
  | cons x rest =>
      rw [hlist, List.length_cons] at h
      have hrest : rest = [] := List.length_eq_zero_iff.mp (by omega)
      rw [hlist, hrest, List.mem_singleton] at hma hmb
      rw [hma, hmb]

end Moves

end Duris
