import Mathlib
import Duris.Economy.CurrencyDeltas

/-!
# The delta builders conserve value

A vector of amounts is worth the sum of its coins (`worth`). `canonical_value` splits a
number without changing its worth, the coins a payment takes are worth what the payment
went down by, and the change is what was paid too much. Each loop has one lemma over an
arbitrary list of denominations; the four real ones come in at the end.
-/

namespace Duris.Economy

open Checked

def worth (values amounts : List Int) : Int := (List.zipWith (· * ·) values amounts).sum

@[simp] theorem worth_nil (amounts : List Int) : worth [] amounts = 0 := rfl

@[simp] theorem worth_cons (value amount : Int) (values amounts : List Int) :
    worth (value :: values) (amount :: amounts) = value * amount + worth values amounts := by
  simp [worth]

def purseWorth (coins : List (Int × Int)) : Int := worth (coins.map Prod.fst) (coins.map Prod.snd)

@[simp] theorem purseWorth_nil : purseWorth [] = 0 := rfl

@[simp] theorem purseWorth_cons (coin : Int × Int) (coins : List (Int × Int)) :
    purseWorth (coin :: coins) = coin.1 * coin.2 + purseWorth coins := by
  simp [purseWorth]

/-- Denominations that are worth something, and no debts. -/
def Solvent (coins : List (Int × Int)) : Prop := ∀ coin ∈ coins, 0 < coin.1 ∧ 0 ≤ coin.2

theorem Solvent.head {coin : Int × Int} {coins : List (Int × Int)}
    (h : Solvent (coin :: coins)) : 0 < coin.1 ∧ 0 ≤ coin.2 := h coin (List.mem_cons_self ..)

theorem Solvent.tail {coin : Int × Int} {coins : List (Int × Int)}
    (h : Solvent (coin :: coins)) : Solvent coins :=
  fun other hother => h other (List.mem_cons_of_mem _ hother)

theorem Solvent.purseWorth_nonneg {coins : List (Int × Int)} (h : Solvent coins) :
    0 ≤ purseWorth coins := by
  induction coins with
  | nil => simp
  | cons coin coins ih =>
      have hcoin := Int.mul_nonneg h.head.1.le h.head.2
      have hrest := ih h.tail
      rw [purseWorth_cons]
      omega

/-! ## The loops -/

theorem totalValue_eq {coins : List (Int × Int)} (h : Solvent coins) {total : Int}
    (htotal : 0 ≤ total) (hfits : total + purseWorth coins ≤ int64Max) :
    totalValue coins total = some (some (total + purseWorth coins)) := by
  induction coins generalizing total with
  | nil => simp [totalValue]
  | cons coin coins ih =>
      obtain ⟨value, current⟩ := coin
      obtain ⟨hvalue, hcurrent⟩ := h.head
      have hproduct := Int.mul_nonneg hcurrent hvalue.le
      have hrest := h.tail.purseWorth_nonneg
      rw [purseWorth_cons, Int.mul_comm value current] at hfits ⊢
      dsimp only at hvalue hcurrent hproduct hfits ⊢
      have hroom : int64 (int64Max - total) = some (int64Max - total) :=
        int64_eq_of_nonneg (by omega) (by omega)
      have hbelow : ¬(int64Max - total).tdiv value < current := by
        rw [Int.tdiv_eq_ediv_of_nonneg (by omega), not_lt, Int.le_ediv_iff_mul_le hvalue]
        omega
      have hmul : int64 (current * value) = some (current * value) :=
        int64_eq_of_nonneg hproduct (by omega)
      have hadd : int64 (total + current * value) = some (total + current * value) :=
        int64_eq_of_nonneg (by omega) (by omega)
      rw [totalValue]
      simp only [hroom, hmul, hadd, Option.bind_eq_bind, Option.bind_some, if_neg hbelow]
      rw [ih h.tail (by omega) (by omega), Int.add_assoc]

/-- What `spendCoins` has done when it is through: coins were only taken, none that are
not there, and `remaining` went down by what they are worth. It is left positive only
where the whole purse was taken, and below zero by less than one coin. -/
structure Spent (coins : List (Int × Int)) (remaining : Int) (amounts : List Int)
    (final : Int) : Prop where
  taken : List.Forall₂ (fun coin amount => -coin.2 ≤ amount ∧ amount ≤ 0) coins amounts
  paid : final = remaining + worth (coins.map Prod.fst) amounts
  exhausted : 0 < final → final = remaining - purseWorth coins
  overpaid : ∀ bound, (∀ coin ∈ coins, coin.1 ≤ bound) → 0 ≤ remaining → -final < max 1 bound

variable {coins : Vector (BitVec 32) 4} {remaining value : Int} {amounts : List Int}

theorem spent_nothing {coins : List (Int × Int)} (h : Solvent coins) (hdone : remaining ≤ 0) :
    Spent coins remaining (coins.map fun _ => 0) remaining := by
  have hworth : worth (coins.map Prod.fst) (coins.map fun _ => 0) = 0 := by
    induction coins with
    | nil => rfl
    | cons coin coins ih =>
        simp only [List.map_cons, worth_cons, Int.mul_zero, Int.zero_add]
        exact ih h.tail
  refine ⟨?_, by rw [hworth, Int.add_zero], fun hpos => by omega, fun bound _ _ => by omega⟩
  rw [List.forall₂_map_right_iff, List.forall₂_same]
  intro coin hcoin
  have := (h coin hcoin).2
  omega

/-- One coin of the loop: the coins needed of it are the payment rounded up, so what is
left over is less than one of them, and where there are too few all of them go. -/
theorem spend_one {current : Int} (hvalue : 0 < value) (hcurrent : 0 ≤ current)
    (hremaining : 0 < remaining) {needed : Int}
    (hneeded : needed = (remaining + value - 1).tdiv value) :
    0 ≤ min current needed ∧ -value < remaining - min current needed * value ∧
      (0 < remaining - min current needed * value → min current needed = current) := by
  rw [Int.tdiv_eq_ediv_of_nonneg (by omega)] at hneeded
  have hlow : needed * value ≤ remaining + value - 1 := by
    rw [hneeded]
    exact Int.ediv_mul_le _ hvalue.ne'
  have hhigh : remaining ≤ needed * value := by
    have := Int.lt_ediv_add_one_mul_self (remaining + value - 1) hvalue
    rw [← hneeded, Int.add_mul] at this
    omega
  have hpos : 0 < needed := by
    by_contra hneg
    have := Int.mul_nonpos_of_nonpos_of_nonneg (not_lt.mp hneg) hvalue.le
    omega
  rcases le_total current needed with hle | hle
  · rw [min_eq_left hle]
    have := Int.mul_le_mul_of_nonneg_right hle hvalue.le
    exact ⟨hcurrent, by omega, fun _ => rfl⟩
  · rw [min_eq_right hle]
    exact ⟨hpos.le, by omega, fun hstill => by omega⟩

theorem spendCoins_spent {coins : List (Int × Int)} (h : Solvent coins)
    (hremaining : -int64Max ≤ remaining)
    (hfits : ∀ coin ∈ coins, coin.1 + coin.2 ≤ int64Max ∧ remaining + coin.1 ≤ int64Max ∧
      coin.1 * coin.2 ≤ int64Max) :
    ∃ amounts final, spendCoins coins remaining = some (amounts, final) ∧
      Spent coins remaining amounts final := by
  induction coins generalizing remaining with
  | nil =>
      refine ⟨[], remaining, rfl, .nil, by simp, fun _ => by simp, fun bound _ hpos => by omega⟩
  | cons coin coins ih =>
      obtain ⟨value, current⟩ := coin
      obtain ⟨hvalue, hcurrent⟩ := h.head
      obtain ⟨-, hpadded, hproduct⟩ := hfits _ (List.mem_cons_self ..)
      dsimp only at hvalue hcurrent hpadded hproduct
      by_cases hdone : remaining ≤ 0
      · refine ⟨0 :: coins.map fun _ => 0, remaining, ?_, spent_nothing h hdone⟩
        rw [spendCoins, if_pos hdone]
      · have hpos : 0 < remaining := not_le.mp hdone
        obtain ⟨hused, hover, hall⟩ := spend_one hvalue hcurrent hpos rfl
        generalize hneeded : (remaining + value - 1).tdiv value = needed at hused hover hall
        generalize hmin : min current needed = used at hused hover hall
        have husedle : used ≤ current := hmin ▸ min_le_left ..
        have hmulnonneg := Int.mul_nonneg hused hvalue.le
        have hmulle : used * value ≤ value * current := by
          rw [Int.mul_comm]
          exact Int.mul_le_mul_of_nonneg_left husedle hvalue.le
        have hmax : (0 : Int) ≤ int64Max := by decide
        have hmin64 : int64Min = -int64Max - 1 := rfl
        have hbelow : -int64Max ≤ remaining - used * value := by omega
        obtain ⟨amounts, final, hrest, hspent⟩ := ih h.tail hbelow fun other hother => by
          obtain ⟨h₁, h₂, h₃⟩ := hfits other (List.mem_cons_of_mem _ hother)
          exact ⟨h₁, by omega, h₃⟩
        refine ⟨-used :: amounts, final, ?_, ?_⟩
        · have hstep₁ : int64 (remaining + value) = some (remaining + value) :=
            int64_eq_of_nonneg (by omega) hpadded
          have hstep₂ : int64 (remaining + value - 1) = some (remaining + value - 1) :=
            int64_eq_of_nonneg (by omega) (by omega)
          have hstep₃ : int64 (used * value) = some (used * value) :=
            int64_eq_of_nonneg hmulnonneg (by omega)
          have hstep₄ : int64 (remaining - used * value) = some (remaining - used * value) :=
            int64_eq (by omega) (by omega)
          have hstep₅ : int64 (-used) = some (-used) := by
            have := le_mul_of_one_le_right hused (show (1 : Int) ≤ value by omega)
            exact int64_eq (by omega) (by omega)
          rw [spendCoins, if_neg hdone]
          simp only [hstep₁, hstep₂, hneeded, hmin, hstep₃, hstep₄, hstep₅, hrest,
            Option.bind_eq_bind, Option.bind_some]
          rfl
        · refine ⟨.cons ⟨by dsimp only; omega, by omega⟩ hspent.taken, ?_, fun hleft => ?_,
            fun bound hbound hnonneg => ?_⟩
          · rw [hspent.paid, List.map_cons, worth_cons, Int.mul_neg, Int.mul_comm value used]
            omega
          · rw [hspent.exhausted hleft, purseWorth_cons]
            dsimp only
            -- something is still owed, so this coin was not enough either
            have hstill : 0 < remaining - used * value := by
              have := h.tail.purseWorth_nonneg
              have := hspent.exhausted hleft
              omega
            rw [hall hstill, Int.mul_comm value current]
            omega
          · have hcoin := hbound _ (List.mem_cons_self ..)
            dsimp only at hcoin
            by_cases hleft : 0 ≤ remaining - used * value
            · exact hspent.overpaid bound
                (fun other hother => hbound other (List.mem_cons_of_mem _ hother)) hleft
            · -- this coin was the last one taken
              have hzero : final = remaining - used * value := by
                cases coins with
                | nil =>
                    rw [spendCoins] at hrest
                    cases hrest
                    rfl
                | cons next coins =>
                    rw [spendCoins, if_pos (by omega)] at hrest
                    cases hrest
                    rfl
              omega

/-! ## Canonical amounts -/

theorem canonicalAmounts_eq (value : Int) :
    canonicalAmounts value =
      [((value.tmod 1000).tmod 100).tmod 10, ((value.tmod 1000).tmod 100).tdiv 10,
        (value.tmod 1000).tdiv 100, value.tdiv 1000] := by
  simp [canonicalAmounts, denominationValues]

theorem canonicalAmounts_of_nonneg (h : 0 ≤ value) :
    canonicalAmounts value = [value % 10, value / 10 % 10, value / 100 % 10, value / 1000] := by
  have hthousand : value.tmod 1000 = value % 1000 := Int.tmod_eq_emod_of_nonneg h
  have hhundred : (value % 1000).tmod 100 = value % 1000 % 100 :=
    Int.tmod_eq_emod_of_nonneg (by omega)
  rw [canonicalAmounts_eq, hthousand, hhundred, Int.tmod_eq_emod_of_nonneg (by omega),
    Int.tdiv_eq_ediv_of_nonneg (by omega), Int.tdiv_eq_ediv_of_nonneg (by omega),
    Int.tdiv_eq_ediv_of_nonneg h]
  simp only [List.cons.injEq, and_true]
  omega

theorem canonicalAmounts_neg (value : Int) :
    canonicalAmounts (-value) = (canonicalAmounts value).map (- ·) := by
  simp only [canonicalAmounts_eq, Int.neg_tmod, Int.neg_tdiv, List.map_cons, List.map_nil]

structure FourAmounts (amounts : List Int) (copper silver gold platinum : Int) : Prop where
  eq : amounts = [copper, silver, gold, platinum]
  fits : ∀ amount ∈ amounts, int64Min ≤ amount ∧ amount ≤ int64Max

theorem FourAmounts.toInt {copper silver gold platinum : Int}
    (h : FourAmounts amounts copper silver gold platinum) :
    ((currencyVectorOf amounts).amount.get 0).toInt = copper ∧
      ((currencyVectorOf amounts).amount.get 1).toInt = silver ∧
      ((currencyVectorOf amounts).amount.get 2).toInt = gold ∧
      ((currencyVectorOf amounts).amount.get 3).toInt = platinum := by
  obtain ⟨rfl, hfits⟩ := h
  simp only [List.mem_cons, List.not_mem_nil, or_false, forall_eq_or_imp, forall_eq] at hfits
  obtain ⟨hcopper, hsilver, hgold, hplatinum⟩ := hfits
  simp [currencyVectorOf, toInt_ofInt hcopper.1 hcopper.2, toInt_ofInt hsilver.1 hsilver.2,
    toInt_ofInt hgold.1 hgold.2, toInt_ofInt hplatinum.1 hplatinum.2]

theorem coinValue_get {n : Nat} (coins : Vector (BitVec n) 4) :
    coinValue coins = (coins.get 0).toInt + 10 * (coins.get 1).toInt + 100 * (coins.get 2).toInt +
      1000 * (coins.get 3).toInt := rfl

theorem FourAmounts.coinValue_eq {copper silver gold platinum : Int}
    (h : FourAmounts amounts copper silver gold platinum) :
    coinValue (currencyVectorOf amounts).amount =
      copper + 10 * silver + 100 * gold + 1000 * platinum := by
  obtain ⟨h₀, h₁, h₂, h₃⟩ := h.toInt
  simp only [coinValue_get, h₀, h₁, h₂, h₃]

theorem canonicalAmounts_four_of_nonneg (h : 0 ≤ value) (hfits : value ≤ int64Max) :
    FourAmounts (canonicalAmounts value)
      (value % 10) (value / 10 % 10) (value / 100 % 10) (value / 1000) := by
  refine ⟨canonicalAmounts_of_nonneg h, fun amount hmem => ?_⟩
  rw [canonicalAmounts_of_nonneg h] at hmem
  rw [int64Max] at hfits ⊢
  rw [int64Min]
  simp only [List.mem_cons, List.not_mem_nil, or_false] at hmem
  omega

theorem coinValue_canonicalAmounts (hlow : int64Min ≤ value) (hhigh : value ≤ int64Max) :
    coinValue (currencyVectorOf (canonicalAmounts value)).amount = value := by
  by_cases h : 0 ≤ value
  · rw [(canonicalAmounts_four_of_nonneg h hhigh).coinValue_eq]
    omega
  · have hneg : canonicalAmounts value = (canonicalAmounts (-value)).map (- ·) := by
      rw [← canonicalAmounts_neg, Int.neg_neg]
    have hfour : FourAmounts (canonicalAmounts value)
        (-(-value % 10)) (-(-value / 10 % 10)) (-(-value / 100 % 10)) (-(-value / 1000)) := by
      rw [hneg, canonicalAmounts_of_nonneg (by omega)]
      refine ⟨rfl, fun amount hmem => ?_⟩
      rw [int64Min] at hlow ⊢
      rw [int64Max]
      simp only [List.map_cons, List.map_nil, List.mem_cons, List.not_mem_nil, or_false] at hmem
      omega
    rw [hfour.coinValue_eq]
    omega

/-! ## The four denominations of a balance -/

def NonNegative (coins : Vector (BitVec 32) 4) : Prop :=
  ∀ index : Fin 4, 0 ≤ (coins.get index).toInt

/-- Four counts of an `int`, in order. -/
structure FourCoins (coins : Vector (BitVec 32) 4) : Prop where
  copper : 0 ≤ (coins.get 0).toInt ∧ (coins.get 0).toInt ≤ 2147483647
  silver : 0 ≤ (coins.get 1).toInt ∧ (coins.get 1).toInt ≤ 2147483647
  gold : 0 ≤ (coins.get 2).toInt ∧ (coins.get 2).toInt ≤ 2147483647
  platinum : 0 ≤ (coins.get 3).toInt ∧ (coins.get 3).toInt ≤ 2147483647

theorem NonNegative.four (h : NonNegative coins) : FourCoins coins := by
  have hlt (coin : BitVec 32) : coin.toInt ≤ 2147483647 := by
    have := BitVec.toInt_lt (x := coin)
    omega
  exact ⟨⟨h 0, hlt _⟩, ⟨h 1, hlt _⟩, ⟨h 2, hlt _⟩, ⟨h 3, hlt _⟩⟩

theorem toList_four {α : Type} (coins : Vector α 4) :
    coins.toList = [coins.get 0, coins.get 1, coins.get 2, coins.get 3] := by
  refine List.ext_getElem (by simp) fun index _ hindex => ?_
  simp only [List.length_cons, List.length_nil] at hindex
  interval_cases index <;> rfl

theorem coinsOf_eq (coins : Vector (BitVec 32) 4) :
    coinsOf coins = [((1 : Int), (coins.get 0).toInt), ((10 : Int), (coins.get 1).toInt),
      ((100 : Int), (coins.get 2).toInt), ((1000 : Int), (coins.get 3).toInt)] := by
  rw [coinsOf, toList_four]
  rfl

theorem purseWorth_coinsOf (coins : Vector (BitVec 32) 4) :
    purseWorth (coinsOf coins) = coinValue coins := by
  simp only [coinsOf_eq, purseWorth_cons, purseWorth_nil, coinValue_get]
  omega

theorem FourCoins.solvent (h : FourCoins coins) : Solvent (coinsOf coins) := by
  obtain ⟨hcopper, hsilver, hgold, hplatinum⟩ := h
  simp only [Solvent, coinsOf_eq, List.mem_cons, List.not_mem_nil, or_false, forall_eq_or_imp,
    forall_eq]
  omega

theorem FourCoins.coinValue_bounds (h : FourCoins coins) :
    0 ≤ coinValue coins ∧ coinValue coins ≤ 2385854331817 := by
  obtain ⟨hcopper, hsilver, hgold, hplatinum⟩ := h
  simp only [coinValue_get]
  omega

theorem FourCoins.totalValue (h : FourCoins coins) :
    totalValue (coinsOf coins) 0 = some (some (coinValue coins)) := by
  have hbounds := h.coinValue_bounds
  have := totalValue_eq h.solvent (le_refl 0) (by
    rw [purseWorth_coinsOf, int64Max]
    omega)
  rwa [purseWorth_coinsOf, Int.zero_add] at this

/-! ## The builders -/

theorem amountDifferences_eq {afters currents : List Int}
    (h : ∀ pair ∈ afters.zip currents,
      int64Min ≤ pair.1 - pair.2 ∧ pair.1 - pair.2 ≤ int64Max) :
    amountDifferences afters currents = some (List.zipWith (· - ·) afters currents) := by
  induction afters generalizing currents with
  | nil => simp [amountDifferences]
  | cons after afters ih =>
      cases currents with
      | nil => simp [amountDifferences]
      | cons current currents =>
          obtain ⟨hlow, hhigh⟩ := h (after, current) (List.mem_cons_self ..)
          rw [amountDifferences, int64_eq hlow hhigh,
            ih fun pair hpair => h pair (List.mem_cons_of_mem _ hpair)]
          rfl

/-- What a successful debit of a wallet writes: its worth is the change asked for, and no
count goes below zero. -/
structure Debited (coins : Vector (BitVec 32) 4) (change : Int) (delta : CurrencyVector) :
    Prop where
  worth : coinValue delta.amount = change
  covered : ∀ index : Fin 4, 0 ≤ coins[index].toInt + delta.amount[index].toInt

theorem debited_canonical (h : FourCoins coins) {left : Int} (hleft : 0 ≤ left)
    (hbound : left ≤ coinValue coins) :
    ∃ amounts, amountDifferences (canonicalAmounts left) (coins.toList.map (·.toInt)) =
        some amounts ∧
      Debited coins (left - coinValue coins) (currencyVectorOf amounts) := by
  have hlist : coins.toList.map (·.toInt) =
      [(coins.get 0).toInt, (coins.get 1).toInt, (coins.get 2).toInt, (coins.get 3).toInt] := by
    rw [toList_four]
    rfl
  obtain ⟨hcopper, hsilver, hgold, hplatinum⟩ := h
  obtain ⟨copper, h₀⟩ : ∃ copper : Int, (coins.get 0).toInt = copper := ⟨_, rfl⟩
  obtain ⟨silver, h₁⟩ : ∃ silver : Int, (coins.get 1).toInt = silver := ⟨_, rfl⟩
  obtain ⟨gold, h₂⟩ : ∃ gold : Int, (coins.get 2).toInt = gold := ⟨_, rfl⟩
  obtain ⟨platinum, h₃⟩ : ∃ platinum : Int, (coins.get 3).toInt = platinum := ⟨_, rfl⟩
  have hvalue : coinValue coins = copper + 10 * silver + 100 * gold + 1000 * platinum := by
    simp only [coinValue_get, h₀, h₁, h₂, h₃]
  rw [h₀, h₁, h₂, h₃] at hlist
  have hfour : FourAmounts
      [left % 10 - copper, left / 10 % 10 - silver, left / 100 % 10 - gold, left / 1000 - platinum]
      (left % 10 - copper) (left / 10 % 10 - silver) (left / 100 % 10 - gold)
      (left / 1000 - platinum) := by
    refine ⟨rfl, fun amount hmem => ?_⟩
    rw [int64Min, int64Max]
    simp only [List.mem_cons, List.not_mem_nil, or_false] at hmem
    omega
  refine ⟨List.zipWith (· - ·) (canonicalAmounts left) [copper, silver, gold, platinum], ?_, ?_⟩
  · rw [hlist]
    refine amountDifferences_eq fun pair hpair => hfour.fits _ ?_
    simp only [canonicalAmounts_of_nonneg hleft, List.zip_cons_cons, List.zip_nil_right,
      List.mem_cons, List.not_mem_nil, or_false] at hpair
    rcases hpair with rfl | rfl | rfl | rfl <;> simp
  · rw [canonicalAmounts_of_nonneg hleft]
    obtain ⟨k₀, k₁, k₂, k₃⟩ := hfour.toInt
    refine ⟨hfour.coinValue_eq.trans (by omega), fun index => ?_⟩
    fin_cases index
    · exact (congrArg₂ (· + ·) h₀ k₀).ge.trans' (by omega)
    · exact (congrArg₂ (· + ·) h₁ k₁).ge.trans' (by omega)
    · exact (congrArg₂ (· + ·) h₂ k₂).ge.trans' (by omega)
    · exact (congrArg₂ (· + ·) h₃ k₃).ge.trans' (by omega)

/-- A player who is there and whose balance is worth the price. -/
def Affords (balance : Character → Vector (BitVec 32) 4) (who : Option Character) (price : Int) :
    Prop :=
  ∃ character, who = some character ∧ character.npc = false ∧ price ≤ coinValue (balance character)

/-- The change of a bank payment: canonical, and without platinum. -/
def IsChange (wallet : CurrencyVector) : Prop :=
  (∀ index : Fin 3, 0 ≤ (wallet.amount.get index.castSucc).toInt ∧
      (wallet.amount.get index.castSucc).toInt ≤ 9) ∧
    wallet.amount.get 3 = 0

theorem isChange_empty : IsChange {} := ⟨by decide, by decide⟩

theorem isChange_canonical {change : Int} (hlow : 0 ≤ change) (hhigh : change < 1000) :
    IsChange (canonicalValue (BitVec.ofInt 64 change)) := by
  have hfits : change ≤ int64Max := by
    rw [int64Max]
    omega
  have hvalue : (BitVec.ofInt 64 change).toInt = change :=
    toInt_ofInt (le_trans (by decide) hlow) hfits
  obtain ⟨h₀, h₁, h₂, h₃⟩ := (canonicalAmounts_four_of_nonneg hlow hfits).toInt
  rw [canonicalValue, hvalue]
  refine ⟨fun index => ?_, BitVec.eq_of_toInt_eq (h₃.trans ?_)⟩
  · fin_cases index
    · exact ⟨h₀.ge.trans' (by omega), h₀.le.trans (by omega)⟩
    · exact ⟨h₁.ge.trans' (by omega), h₁.le.trans (by omega)⟩
    · exact ⟨h₂.ge.trans' (by omega), h₂.le.trans (by omega)⟩
  · exact (show change / 1000 = 0 by omega).trans rfl

theorem walletValueDelta_debit {character : Character} (hnpc : character.npc = false)
    (h : FourCoins character.cash) {valueDelta : BitVec 64} (hneg : valueDelta.toInt < 0)
    (delta : CurrencyVector) :
    (-valueDelta.toInt ≤ coinValue character.cash →
      ∃ debit, walletValueDelta (some character) valueDelta delta = some (true, debit) ∧
        Debited character.cash valueDelta.toInt debit) ∧
    (coinValue character.cash < -valueDelta.toInt →
      walletValueDelta (some character) valueDelta delta = some (false, delta)) := by
  have hworth := h.coinValue_bounds
  have hzero : valueDelta ≠ 0 := by
    rintro rfl
    exact absurd hneg (by decide)
  have hdebit : ¬0 < valueDelta.toInt := by omega
  have hbounds := toInt_bounds valueDelta
  by_cases hmin : valueDelta = BitVec.intMin 64
  · have hprice : valueDelta.toInt = -9223372036854775808 := by
      rw [hmin]
      rfl
    refine ⟨fun hcovered => by omega, fun _ => ?_⟩
    rw [walletValueDelta, if_pos (.inr hmin)]
  · have hspend : int64 (-valueDelta.toInt) = some (-valueDelta.toInt) := by
      refine int64_eq_of_nonneg (by omega) ?_
      have hne : valueDelta.toInt ≠ -9223372036854775808 := fun heq =>
        hmin (BitVec.eq_of_toInt_eq (heq.trans rfl))
      rw [int64Min] at hbounds
      rw [int64Max]
      omega
    have hunfold : ∀ answer, (do
        let spend ← int64 (-valueDelta.toInt)
        if coinValue character.cash < spend then return (false, delta)
        let left ← int64 (coinValue character.cash - spend)
        let amounts ← amountDifferences (canonicalAmounts left)
          (character.cash.toList.map (·.toInt))
        return (true, currencyVectorOf amounts)) = answer →
        walletValueDelta (some character) valueDelta delta = answer := by
      rintro answer rfl
      rw [walletValueDelta, if_neg (not_or.mpr ⟨hzero, hmin⟩), if_neg hdebit]
      simp only [hnpc, h.totalValue, Bool.false_eq_true, if_false, Option.bind_eq_bind,
        Option.bind_some]
    refine ⟨fun hcovered => ?_, fun hshort => hunfold _ ?_⟩
    · obtain ⟨amounts, hamounts, hdebited⟩ := debited_canonical h
        (show 0 ≤ coinValue character.cash - -valueDelta.toInt by omega) (by omega)
      have hleft : int64 (coinValue character.cash - -valueDelta.toInt) =
          some (coinValue character.cash - -valueDelta.toInt) :=
        int64_eq_of_nonneg (by omega) (by rw [int64Max]; omega)
      refine ⟨currencyVectorOf amounts, hunfold _ ?_, ?_⟩
      · simp only [hspend, hleft, hamounts, if_neg (not_lt.mpr hcovered), Option.bind_eq_bind,
          Option.bind_some]
        rfl
      · have hchange : coinValue character.cash - -valueDelta.toInt - coinValue character.cash =
            valueDelta.toInt := by omega
        rwa [hchange] at hdebited
    · simp only [hspend, if_pos hshort, Option.bind_eq_bind, Option.bind_some]
      rfl

/-- What a successful bank payment writes: the bank loses coins it has and gains none,
the wallet gets the change, and together they lose the price. -/
structure Paid (coins : Vector (BitVec 32) 4) (price : Int) (wallet bank : CurrencyVector) :
    Prop where
  worth : coinValue bank.amount + coinValue wallet.amount = -price
  covered : ∀ index : Fin 4, 0 ≤ coins[index].toInt + bank.amount[index].toInt
  lowered : ∀ index : Fin 4, bank.amount[index].toInt ≤ 0
  change : IsChange wallet ∧ coinValue wallet.amount < 1000

theorem spent_four (h : FourCoins coins) {price final : Int}
    (hspent : Spent (coinsOf coins) price amounts final) :
    coinValue (currencyVectorOf amounts).amount = final - price ∧
      ∀ index : Fin 4, 0 ≤ (coins.get index).toInt +
        ((currencyVectorOf amounts).amount.get index).toInt ∧
        ((currencyVectorOf amounts).amount.get index).toInt ≤ 0 := by
  obtain ⟨hcopper, hsilver, hgold, hplatinum⟩ := h
  obtain ⟨htaken, hpaid, -, -⟩ := hspent
  rw [coinsOf_eq] at htaken hpaid
  obtain ⟨copper, silvers, ha, hsilvers, rfl⟩ := List.forall₂_cons_left_iff.mp htaken
  obtain ⟨silver, golds, hb, hgolds, rfl⟩ := List.forall₂_cons_left_iff.mp hsilvers
  obtain ⟨gold, platinums, hc, hplatinums, rfl⟩ := List.forall₂_cons_left_iff.mp hgolds
  obtain ⟨platinum, others, hd, hothers, rfl⟩ := List.forall₂_cons_left_iff.mp hplatinums
  obtain rfl := List.forall₂_nil_left_iff.mp hothers
  have hfour : FourAmounts [copper, silver, gold, platinum] copper silver gold platinum := by
    refine ⟨rfl, fun amount hmem => ?_⟩
    rw [int64Min, int64Max]
    simp only [List.mem_cons, List.not_mem_nil, or_false] at hmem
    omega
  obtain ⟨k₀, k₁, k₂, k₃⟩ := hfour.toInt
  refine ⟨hfour.coinValue_eq.trans ?_, fun index => ?_⟩
  · simp only [List.map_cons, List.map_nil, worth_cons, worth_nil] at hpaid
    omega
  · fin_cases index
    · exact ⟨(congrArg ((coins.get 0).toInt + ·) k₀).ge.trans' (by omega), k₀.le.trans ha.2⟩
    · exact ⟨(congrArg ((coins.get 1).toInt + ·) k₁).ge.trans' (by omega), k₁.le.trans hb.2⟩
    · exact ⟨(congrArg ((coins.get 2).toInt + ·) k₂).ge.trans' (by omega), k₂.le.trans hc.2⟩
    · exact ⟨(congrArg ((coins.get 3).toInt + ·) k₃).ge.trans' (by omega), k₃.le.trans hd.2⟩

theorem spendCoins_covered (h : FourCoins coins) {price : Int} (hprice : 0 < price)
    (hcovered : price ≤ coinValue coins) :
    ∃ amounts final, spendCoins (coinsOf coins) price = some (amounts, final) ∧
      Spent (coinsOf coins) price amounts final ∧ -1000 < final ∧ final ≤ 0 := by
  have hworth := h.coinValue_bounds
  have hmax : (0 : Int) ≤ int64Max := by decide
  obtain ⟨amounts, final, hrun, hspent⟩ :=
    spendCoins_spent h.solvent (show -int64Max ≤ price by omega) (by
      obtain ⟨hcopper, hsilver, hgold, hplatinum⟩ := h
      rw [int64Max]
      simp only [coinsOf_eq, List.mem_cons, List.not_mem_nil, or_false, forall_eq_or_imp, forall_eq]
      omega)
  refine ⟨amounts, final, hrun, hspent, ?_, ?_⟩
  · have hover := hspent.overpaid 1000 (by simp [coinsOf_eq]) hprice.le
    omega
  · by_contra hleft
    have hall := hspent.exhausted (not_le.mp hleft)
    rw [purseWorth_coinsOf] at hall
    omega

theorem bankPaymentDeltas_payment {character : Character} (hnpc : character.npc = false)
    (h : FourCoins character.balance) {value : BitVec 64} (hvalue : 0 < value.toInt)
    (wallet bank : CurrencyVector) :
    (value.toInt ≤ coinValue character.balance →
      ∃ change debit, bankPaymentDeltas (some character) value wallet bank =
          some (true, change, debit) ∧
        Paid character.balance value.toInt change debit) ∧
    (coinValue character.balance < value.toInt →
      bankPaymentDeltas (some character) value wallet bank = some (false, wallet, bank)) := by
  have hunfold : ∀ answer, (do
      if coinValue character.balance < value.toInt then return (false, wallet, bank)
      let spent ← spendCoins (coinsOf character.balance) value.toInt
      if spent.2 < 0 then
        let change ← int64 (-spent.2)
        return (true, canonicalValue (BitVec.ofInt 64 change), currencyVectorOf spent.1)
      else
        return (true, {}, currencyVectorOf spent.1)) = answer →
      bankPaymentDeltas (some character) value wallet bank = answer := by
    rintro answer rfl
    rw [bankPaymentDeltas]
    simp only [hnpc, h.totalValue, not_le.mpr hvalue, Bool.false_eq_true, or_self, if_false,
      Option.bind_eq_bind, Option.bind_some]
  refine ⟨fun hcovered => ?_, fun hshort => hunfold _ ?_⟩
  · obtain ⟨amounts, final, hrun, hspent, hlow, hhigh⟩ := spendCoins_covered h hvalue hcovered
    obtain ⟨hworth, hcoins⟩ := spent_four h hspent
    by_cases hover : final < 0
    · have hchange : int64 (-final) = some (-final) :=
        int64_eq_of_nonneg (by omega) (by rw [int64Max]; omega)
      have hfinal : (BitVec.ofInt 64 (-final)).toInt = -final :=
        toInt_ofInt (by rw [int64Min]; omega) (by rw [int64Max]; omega)
      have hvector : coinValue (canonicalValue (BitVec.ofInt 64 (-final))).amount = -final := by
        rw [canonicalValue, coinValue_canonicalAmounts (toInt_bounds _).1 (toInt_bounds _).2,
          hfinal]
      refine ⟨canonicalValue (BitVec.ofInt 64 (-final)), currencyVectorOf amounts,
        hunfold _ ?_, ?_, fun index => (hcoins index).1, fun index => (hcoins index).2,
        isChange_canonical (by omega) (by omega), by omega⟩
      · simp only [hrun, hchange, if_neg (not_lt.mpr hcovered), if_pos hover,
          Option.bind_eq_bind, Option.bind_some]
        rfl
      · omega
    · have hempty : coinValue ({} : CurrencyVector).amount = 0 := by decide
      refine ⟨{}, currencyVectorOf amounts, hunfold _ ?_, ?_, fun index => (hcoins index).1,
        fun index => (hcoins index).2, isChange_empty, by omega⟩
      · simp only [hrun, if_neg (not_lt.mpr hcovered), if_neg hover, Option.bind_eq_bind,
          Option.bind_some]
        rfl
      · omega
  · simp only [if_pos hshort]
    rfl

/-- For all non-negative balances and every requested amount: `canonical_value` is worth
its argument; a credit of the wallet always succeeds and is worth what was asked for; a
debit of the wallet and a payment from the bank succeed exactly when there is a player
whose balance is worth the price, and then change it by exactly that price, the bank with
canonical change; otherwise they leave their outputs as they were. No signed operation on
the way overflows. -/
theorem currency_deltas_conserve (who : Option Character)
    (hcash : ∀ character, who = some character → NonNegative character.cash)
    (hbalance : ∀ character, who = some character → NonNegative character.balance) :
    (∀ value, coinValue (canonicalValue value).amount = value.toInt) ∧
    (∀ valueDelta delta, 0 < valueDelta.toInt →
      ∃ credit, walletValueDelta who valueDelta delta = some (true, credit) ∧
        coinValue credit.amount = valueDelta.toInt) ∧
    (∀ valueDelta delta, valueDelta.toInt ≤ 0 →
      (valueDelta.toInt < 0 ∧ Affords (·.cash) who (-valueDelta.toInt) →
        ∃ character debit, who = some character ∧
          walletValueDelta who valueDelta delta = some (true, debit) ∧
          Debited character.cash valueDelta.toInt debit) ∧
      (¬(valueDelta.toInt < 0 ∧ Affords (·.cash) who (-valueDelta.toInt)) →
        walletValueDelta who valueDelta delta = some (false, delta))) ∧
    ∀ value wallet bank,
      (0 < value.toInt ∧ Affords (·.balance) who value.toInt →
        ∃ character change debit, who = some character ∧
          bankPaymentDeltas who value wallet bank = some (true, change, debit) ∧
          Paid character.balance value.toInt change debit) ∧
      (¬(0 < value.toInt ∧ Affords (·.balance) who value.toInt) →
        bankPaymentDeltas who value wallet bank = some (false, wallet, bank)) := by
  refine ⟨fun value => ?canonical, fun valueDelta delta hpos => ?credit,
    fun valueDelta delta hle => ⟨?debit, ?refused⟩, fun value wallet bank => ⟨?paid, ?unpaid⟩⟩
  case canonical => exact coinValue_canonicalAmounts (toInt_bounds _).1 (toInt_bounds _).2
  case credit =>
    refine ⟨canonicalValue valueDelta, ?_,
      coinValue_canonicalAmounts (toInt_bounds _).1 (toInt_bounds _).2⟩
    have hvalid : ¬(valueDelta = 0 ∨ valueDelta = BitVec.intMin 64) := by
      rintro (rfl | rfl) <;> exact absurd hpos (by decide)
    unfold walletValueDelta
    rw [if_neg hvalid, if_pos hpos]
  case debit =>
    rintro ⟨hneg, character, rfl, hnpc, hcovered⟩
    obtain ⟨debit, hrun, hdebited⟩ :=
      (walletValueDelta_debit hnpc (hcash _ rfl).four hneg delta).1 hcovered
    exact ⟨character, debit, rfl, hrun, hdebited⟩
  case refused =>
    intro hrefused
    by_cases hinvalid : valueDelta = 0 ∨ valueDelta = BitVec.intMin 64
    · unfold walletValueDelta
      rw [if_pos hinvalid]
    · have hneg : valueDelta.toInt < 0 := lt_of_le_of_ne hle fun hzero =>
        hinvalid (.inl (BitVec.eq_of_toInt_eq (hzero.trans rfl)))
      cases who with
      | none =>
          unfold walletValueDelta
          rw [if_neg hinvalid, if_neg (by omega)]
          rfl
      | some character =>
          by_cases hnpc : character.npc = true
          · rw [walletValueDelta, if_neg hinvalid, if_neg (by omega)]
            simp only [hnpc, if_true]
            rfl
          · have hplayer : character.npc = false := eq_false_of_ne_true hnpc
            refine (walletValueDelta_debit hplayer (hcash _ rfl).four hneg delta).2 ?_
            by_contra hcovered
            exact hrefused ⟨hneg, character, rfl, hplayer, not_lt.mp hcovered⟩
  case paid =>
    rintro ⟨hpos, character, rfl, hnpc, hcovered⟩
    obtain ⟨change, debit, hrun, hpaid⟩ :=
      (bankPaymentDeltas_payment hnpc (hbalance _ rfl).four hpos wallet bank).1 hcovered
    exact ⟨character, change, debit, rfl, hrun, hpaid⟩
  case unpaid =>
    intro hrefused
    cases who with
    | none => rfl
    | some character =>
        by_cases hvalid : character.npc = true ∨ value.toInt ≤ 0
        · rw [bankPaymentDeltas]
          simp only [if_pos hvalid]
          rfl
        · obtain ⟨hnpc, hpos⟩ := not_or.mp hvalid
          have hplayer : character.npc = false := eq_false_of_ne_true hnpc
          refine (bankPaymentDeltas_payment hplayer (hbalance _ rfl).four (not_le.mp hpos)
            wallet bank).2 ?_
          by_contra hcovered
          exact hrefused ⟨not_le.mp hpos, character, rfl, hplayer, not_lt.mp hcovered⟩

/-- A player with three copper, two silver and a platinum in the bank. -/
def smallSaver : Character where
  pid := 7
  balance := Vector.ofFn fun index => [3, 2, 0, 1].getD index 0

/-- The builders on that balance: twenty-five copper are paid with copper, silver and the
platinum, and the change comes back. -/
theorem currency_deltas_conserve_saver :
    ∃ character change debit, some smallSaver = some character ∧
      bankPaymentDeltas (some smallSaver) 25 {} {} = some (true, change, debit) ∧
      Paid character.balance 25 change debit :=
  ((currency_deltas_conserve (some smallSaver)
    (fun character h => by cases h; unfold NonNegative; decide)
    (fun character h => by cases h; unfold NonNegative; decide)).2.2.2 25 {} {}).1
    ⟨by decide, smallSaver, rfl, rfl, by decide⟩

end Duris.Economy
