import Duris.Economy.LiveBalances
import Duris.Lib.Checked

/-!
# Building currency deltas

The part of `src/economy/currency_transaction.c` that turns an amount of copper into
changes of the four denominations: `canonical_value`, `wallet_value_delta` and
`bank_payment_deltas`. A builder answers whether it succeeded and what its output
arguments then hold; it is `none` where a signed operation on the way would overflow.

The arithmetic is on exact integers, each operation of the source that can leave the
range under `Checked.int64`. Divisions by a denomination cannot.
-/

namespace Duris.Economy

open Checked

/-- `values`: the copper a coin of each denomination is worth. -/
def denominationValues : List Int := [1, 10, 100, 1000]

/-- A `currency_vector` of the given amounts. -/
def currencyVectorOf (amounts : List Int) : CurrencyVector :=
  ⟨Vector.ofFn fun index => BitVec.ofInt 64 (amounts.getD index 0)⟩

/-- The loop of `canonical_value`, which runs from the last denomination to the first. -/
def canonicalAmounts (value : Int) : List Int :=
  (denominationValues.foldr
    (fun coin (state : List Int × Int) => (state.2.tdiv coin :: state.1, state.2.tmod coin))
    ([], value)).1

def canonicalValue (value : BitVec 64) : CurrencyVector :=
  currencyVectorOf (canonicalAmounts value.toInt)

/-- `current` next to `values`: what a coin is worth, and how many there are. -/
def coinsOf (current : Vector (BitVec 32) 4) : List (Int × Int) :=
  denominationValues.zip (current.toList.map (·.toInt))

/-- The loop that adds up what the coins are worth; the answer is `none` where it
returns `false`. -/
def totalValue : List (Int × Int) → Int → Option (Option Int)
  | [], total => some (some total)
  | (value, current) :: coins, total => do
      let room ← int64 (int64Max - total)
      if room.tdiv value < current then return none
      let product ← int64 (current * value)
      let next ← int64 (total + product)
      totalValue coins next

/-- `after.amount[index] - current[index]` for every denomination. -/
def amountDifferences : List Int → List Int → Option (List Int)
  | after :: afters, current :: currents => do
      let difference ← int64 (after - current)
      let differences ← amountDifferences afters currents
      return difference :: differences
  | _, _ => some []

/-- `wallet_value_delta`. A null character is `none`; `delta` is the vector the caller
passes in. -/
def walletValueDelta (character : Option Character) (valueDelta : BitVec 64)
    (delta : CurrencyVector) : Option (Bool × CurrencyVector) :=
  if valueDelta = 0 ∨ valueDelta = BitVec.intMin 64 then some (false, delta)
  else if 0 < valueDelta.toInt then some (true, canonicalValue valueDelta)
  else do
    let some character := character | return (false, delta)
    if character.npc then return (false, delta)
    let some total ← totalValue (coinsOf character.cash) 0 | return (false, delta)
    let spend ← int64 (-valueDelta.toInt)
    if total < spend then return (false, delta)
    let left ← int64 (total - spend)
    let amounts ← amountDifferences (canonicalAmounts left)
      (character.cash.toList.map (·.toInt))
    return (true, currencyVectorOf amounts)

/-- The loop of `bank_payment_deltas` over the denominations, smallest first: what it
writes to `bank_delta`, and `remaining` at the end. -/
def spendCoins : List (Int × Int) → Int → Option (List Int × Int)
  | [], remaining => some ([], remaining)
  | (value, current) :: coins, remaining =>
      if remaining ≤ 0 then some (0 :: coins.map fun _ => 0, remaining)
      else do
        let padded ← int64 (remaining + value)
        let rounded ← int64 (padded - 1)
        let needed := rounded.tdiv value
        let used := min current needed
        let product ← int64 (used * value)
        let left ← int64 (remaining - product)
        let written ← int64 (-used)
        let (amounts, final) ← spendCoins coins left
        return (written :: amounts, final)

/-- `bank_payment_deltas`: the answer, and the wallet and bank vectors it leaves. -/
def bankPaymentDeltas (character : Option Character) (value : BitVec 64)
    (wallet bank : CurrencyVector) : Option (Bool × CurrencyVector × CurrencyVector) := do
  let some character := character | return (false, wallet, bank)
  if character.npc ∨ value.toInt ≤ 0 then return (false, wallet, bank)
  let some total ← totalValue (coinsOf character.balance) 0 | return (false, wallet, bank)
  if total < value.toInt then return (false, wallet, bank)
  let (amounts, remaining) ← spendCoins (coinsOf character.balance) value.toInt
  if remaining < 0 then
    let change ← int64 (-remaining)
    return (true, canonicalValue (BitVec.ofInt 64 change), currencyVectorOf amounts)
  else
    return (true, {}, currencyVectorOf amounts)

end Duris.Economy
