import Mathlib.Algebra.Order.Floor.Div
import Mathlib.Tactic.Ring
import Duris.Proofs.CollectorPolicy

/-!
# The collector's price is the exact percentage

`price` splits the percentage into its whole hundreds and a remainder, and the base
value likewise, so that only the hundreds can overflow. Here the pieces are put back
together: their sum is the percentage of the base value rounded up once, in unbounded
arithmetic, and the two ways to `overflow` are the two ways that number can fail to fit.
-/

namespace Duris.Economy.Collector

/-- What the listing should cost before the minimum fee: the percentage of the base
value, negative values counted as nothing, rounded up to whole copper. -/
def exactShare (baseValue : BitVec 64) (policy : Rules) : Nat :=
  ((max baseValue.toInt 0).toNat * policy.pricePercent.toNat) ⌈/⌉ 100

/-- The local `base` of `price`. -/
def positiveBase (baseValue : BitVec 64) : BitVec 64 :=
  if 0 < baseValue.toInt then baseValue else 0

/-- The local `fractional` of `price`. -/
def fractionalShare (base remainder : BitVec 64) : BitVec 64 :=
  (base / 100) * remainder + ((base % 100) * remainder + 99) / 100

theorem positiveBase_toNat (baseValue : BitVec 64) :
    (positiveBase baseValue).toNat = (max baseValue.toInt 0).toNat := by
  rw [positiveBase]
  split
  · next hpos => rw [max_eq_left hpos.le, BitVec.toInt_eq_toNat_of_msb (by
      rw [BitVec.msb_eq_toInt]; simpa using hpos.le)]; rfl
  · next hneg => rw [max_eq_right (not_lt.mp hneg)]; rfl

theorem positiveBase_lt (baseValue : BitVec 64) :
    (positiveBase baseValue).toNat < 9223372036854775808 := by
  rw [positiveBase_toNat]
  have := BitVec.toInt_lt (x := baseValue)
  omega

theorem ceilDiv_split (base percent : Nat) :
    (base * percent) ⌈/⌉ 100 =
      base * (percent / 100) +
        (base / 100 * (percent % 100) + (base % 100 * (percent % 100) + 99) / 100) := by
  have hpercent : percent = 100 * (percent / 100) + percent % 100 := (Nat.div_add_mod ..).symm
  have hbase : base = 100 * (base / 100) + base % 100 := (Nat.div_add_mod ..).symm
  have hproduct : base * percent =
      100 * (base * (percent / 100) + base / 100 * (percent % 100)) +
        base % 100 * (percent % 100) := by
    calc base * percent
        = base * (100 * (percent / 100) + percent % 100) := by rw [← hpercent]
      _ = 100 * (base * (percent / 100)) + base * (percent % 100) := by ring
      _ = 100 * (base * (percent / 100)) +
            (100 * (base / 100) + base % 100) * (percent % 100) := by rw [← hbase]
      _ = _ := by ring
  rw [Nat.ceilDiv_eq_add_pred_div, hproduct]
  omega

/-- The locals of `price` are what they are in unbounded arithmetic: `base * whole` once
the test in front of it has passed, the others for every base and percentage. -/
structure ExactSteps (base percent : BitVec 64) : Prop where
  whole : (percent / 100 = 0 ∨ base ≤ maximum / (percent / 100)) →
    (base * (percent / 100)).toNat = base.toNat * (percent.toNat / 100)
  hundreds : ((base / 100) * (percent % 100)).toNat = base.toNat / 100 * (percent.toNat % 100)
  rounded : ((base % 100) * (percent % 100) + 99).toNat =
    base.toNat % 100 * (percent.toNat % 100) + 99
  fractional : (fractionalShare base (percent % 100)).toNat =
    base.toNat / 100 * (percent.toNat % 100) +
      (base.toNat % 100 * (percent.toNat % 100) + 99) / 100

theorem toNat_div_hundred (value : BitVec 64) : (value / 100).toNat = value.toNat / 100 := by
  rw [BitVec.toNat_udiv]; rfl

theorem toNat_mod_hundred (value : BitVec 64) : (value % 100).toNat = value.toNat % 100 := by
  rw [BitVec.toNat_umod]; rfl

theorem exactSteps {base : BitVec 64} (percent : BitVec 64)
    (hbase : base.toNat < 9223372036854775808) : ExactSteps base percent := by
  have hremainder : percent.toNat % 100 ≤ 99 := Nat.le_of_lt_succ (Nat.mod_lt _ (by decide))
  have hhundreds : base.toNat / 100 * (percent.toNat % 100) ≤ base.toNat / 100 * 99 :=
    Nat.mul_le_mul_left _ hremainder
  have hrounded : base.toNat % 100 * (percent.toNat % 100) ≤ 99 * 99 :=
    Nat.mul_le_mul (Nat.le_of_lt_succ (Nat.mod_lt _ (by decide))) hremainder
  have hone : ((base / 100) * (percent % 100)).toNat =
      base.toNat / 100 * (percent.toNat % 100) := by
    rw [BitVec.toNat_mul, toNat_div_hundred, toNat_mod_hundred, Nat.mod_eq_of_lt (by omega)]
  have htwo : ((base % 100) * (percent % 100) + 99).toNat =
      base.toNat % 100 * (percent.toNat % 100) + 99 := by
    have hproduct : ((base % 100) * (percent % 100)).toNat =
        base.toNat % 100 * (percent.toNat % 100) := by
      rw [BitVec.toNat_mul, toNat_mod_hundred, toNat_mod_hundred, Nat.mod_eq_of_lt (by omega)]
    rw [BitVec.toNat_add, hproduct, show (99 : BitVec 64).toNat = 99 from rfl,
      Nat.mod_eq_of_lt (by omega)]
  refine ⟨fun hfits => ?_, hone, htwo, ?_⟩
  · rw [BitVec.toNat_mul, toNat_div_hundred]
    refine Nat.mod_eq_of_lt ?_
    rcases hfits with hzero | hle
    · rw [← toNat_div_hundred, hzero]
      simp
    · rw [BitVec.le_def, BitVec.toNat_udiv, toNat_div_hundred, toNat_maximum] at hle
      have := Nat.mul_le_of_le_div _ _ _ hle
      omega
  · rw [fractionalShare, BitVec.toNat_add, toNat_div_hundred, hone, htwo]
    exact Nat.mod_eq_of_lt (by omega)

theorem exactShare_eq (baseValue : BitVec 64) (policy : Rules) :
    exactShare baseValue policy =
      (positiveBase baseValue).toNat * (policy.pricePercent.toNat / 100) +
        (fractionalShare (positiveBase baseValue) (policy.pricePercent % 100)).toNat := by
  rw [exactShare, ← positiveBase_toNat, ceilDiv_split,
    (exactSteps policy.pricePercent (positiveBase_lt baseValue)).fractional]

theorem price_cases_exact {baseValue : BitVec 64} {policy : Rules}
    (hvalid : validRules policy = true) :
    (maximum.toNat < exactShare baseValue policy ∧ price baseValue policy = .error .overflow) ∨
      (exactShare baseValue policy ≤ maximum.toNat ∧ ∃ gold, price baseValue policy = .ok gold ∧
        gold.toNat = max policy.minimumValue.toNat (exactShare baseValue policy)) := by
  have hsteps := exactSteps policy.pricePercent (positiveBase_lt baseValue)
  have hshare := exactShare_eq baseValue policy
  have hbase : (if 0 < baseValue.toInt then baseValue else 0) = positiveBase baseValue := rfl
  have hfractional (base remainder : BitVec 64) :
      base / 100 * remainder + (base % 100 * remainder + 99) / 100 =
        fractionalShare base remainder := rfl
  rw [price, if_neg (by rw [hvalid]; decide)]
  dsimp only
  rw [hbase, hfractional]
  split
  · next hover =>
      refine .inl ⟨?_, rfl⟩
      have hlt := hover.2
      rw [BitVec.lt_def, BitVec.toNat_udiv, toNat_div_hundred] at hlt
      have hpos : 0 < policy.pricePercent.toNat / 100 := by
        rw [← toNat_div_hundred]
        exact Nat.pos_of_ne_zero fun hzero => hover.1 (BitVec.eq_of_toNat_eq hzero)
      have := (Nat.div_lt_iff_lt_mul hpos).mp hlt
      omega
  · next hfits =>
      have hwhole := hsteps.whole (by
        by_cases hzero : policy.pricePercent / 100 = 0
        · exact .inl hzero
        · exact .inr (BitVec.not_lt.mp fun hlt => hfits ⟨hzero, hlt⟩))
      rw [← hwhole] at hshare
      cases hadd : add (positiveBase baseValue * (policy.pricePercent / 100))
          (fractionalShare (positiveBase baseValue) (policy.pricePercent % 100)) with
      | none =>
          refine .inl ⟨?_, rfl⟩
          by_contra hle
          have hsum : add (positiveBase baseValue * (policy.pricePercent / 100))
              (fractionalShare (positiveBase baseValue) (policy.pricePercent % 100)) =
              some (BitVec.ofNat 64 (exactShare baseValue policy)) := by
            rw [add_eq_some, BitVec.toNat_ofNat, hshare]
            rw [toNat_maximum] at hle
            exact Nat.mod_eq_of_lt (by omega)
          rw [hadd] at hsum
          cases hsum
      | some result =>
          rw [add_eq_some, ← hshare] at hadd
          refine .inr ⟨?_, _, rfl, ?_⟩
          · rw [← hadd, toNat_maximum]
            have := result.isLt
            omega
          · rw [← hadd]
            split
            · next hlow => rw [BitVec.lt_def] at hlow; omega
            · next hhigh => rw [BitVec.lt_def] at hhigh; omega

/-- For every base value and valid rules, `price` answers the exact share, or the minimum
fee where that is more, whenever the share fits in 64 bits, and `overflow` exactly when
it does not; no product on the way wraps. -/
theorem price_exact (baseValue : BitVec 64) (policy : Rules) (hvalid : validRules policy = true) :
    (exactShare baseValue policy ≤ maximum.toNat →
      ∃ gold, price baseValue policy = .ok gold ∧
        gold.toNat = max policy.minimumValue.toNat (exactShare baseValue policy)) ∧
    (price baseValue policy = .error .overflow ↔ maximum.toNat < exactShare baseValue policy) ∧
    ExactSteps (positiveBase baseValue) policy.pricePercent := by
  refine ⟨fun hfits => ?_, ?_, exactSteps _ (positiveBase_lt baseValue)⟩
  · rcases price_cases_exact hvalid with ⟨hover, -⟩ | ⟨-, hgold⟩
    · exact absurd hfits (not_le.mpr hover)
    · exact hgold
  · rcases price_cases_exact hvalid with ⟨hover, hprice⟩ | ⟨hfits, gold, hprice, -⟩
    · exact ⟨fun _ => hover, fun _ => hprice⟩
    · refine ⟨fun herror => ?_, fun hover => absurd hfits (not_le.mpr hover)⟩
      rw [hprice] at herror
      cases herror

/-- A price of 1.5 times an odd value, rounded up, and one that does not fit. -/
theorem price_exact_instances :
    (∃ gold, price 1001 { pricePercent := 150 } = .ok gold ∧
      gold.toNat = max 100 (exactShare 1001 { pricePercent := 150 })) ∧
    price 1001 { pricePercent := maximum } = .error .overflow :=
  ⟨(price_exact 1001 { pricePercent := 150 } (by decide)).1 (by decide +kernel),
    (price_exact 1001 { pricePercent := maximum } (by decide)).2.1.mpr (by decide +kernel)⟩

end Duris.Economy.Collector
