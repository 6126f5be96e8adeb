import Mathlib.Algebra.Order.Ring.Int

/-!
# Signed arithmetic that must not overflow

An operation on signed 64-bit integers has no meaning where its exact result does not
fit. `Checked.int64` is such an operation given its exact result: the result, or `none`.
A computation that strings operations together in `Option` is `none` as soon as one of
them overflows, so that "no overflow" is the statement that it is not.
-/

namespace Duris.Checked

def int64Min : Int := -9223372036854775808

def int64Max : Int := 9223372036854775807

/-- The outcome of a signed 64-bit operation whose exact result is `result`. -/
def int64 (result : Int) : Option Int :=
  if int64Min ≤ result ∧ result ≤ int64Max then some result else none

theorem int64_eq {result : Int} (hlow : int64Min ≤ result) (hhigh : result ≤ int64Max) :
    int64 result = some result := if_pos ⟨hlow, hhigh⟩

theorem int64_eq_of_nonneg {result : Int} (hlow : 0 ≤ result) (hhigh : result ≤ int64Max) :
    int64 result = some result := int64_eq (le_trans (by decide) hlow) hhigh

theorem toInt_ofInt {value : Int} (hlow : int64Min ≤ value) (hhigh : value ≤ int64Max) :
    (BitVec.ofInt 64 value).toInt = value := by
  rw [int64Min] at hlow
  rw [int64Max] at hhigh
  exact BitVec.toInt_ofInt_eq_self (by decide) (by omega) (by omega)

theorem toInt_bounds (value : BitVec 64) : int64Min ≤ value.toInt ∧ value.toInt ≤ int64Max := by
  have hlow := BitVec.le_toInt value
  have hhigh := BitVec.toInt_lt (x := value)
  rw [int64Min, int64Max]
  omega

end Duris.Checked
