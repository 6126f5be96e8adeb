import Mathlib.Data.List.Basic
import Mathlib.Tactic.Ring

/-!
# Little-endian fields

Every wire format of the repository spells an integer least significant byte
first, at the width of its C type. `leBytes` and `leNat` are that spelling over
naturals; `appendLe` and `readLe` are the same thing at a bit width, which is how
a format's fields are written down.

The fact the codec proofs live on is `readLe_eq_some`: reading a field succeeds
exactly on the inputs that start with the field's own bytes. It is an
equivalence, so one lemma serves the round trip in both directions.
-/

namespace Duris

/-- A byte string, the `std::vector<uint8_t>` of the source. -/
abbrev Bytes := List UInt8

/-- A fact about bytes holds of all of them if it holds of the 256 there are. -/
theorem byte_forall {P : UInt8 → Prop} (h : ∀ code < 256, P (UInt8.ofNat code)) (byte : UInt8) :
    P byte := by
  have hbyte := h byte.toNat byte.toNat_lt
  rwa [UInt8.ofNat_toNat] at hbyte

/-- The `w` bytes of `n`, least significant first; higher bits are dropped. -/
def leBytes : Nat → Nat → Bytes
  | 0, _ => []
  | w + 1, n => UInt8.ofNat (n % 256) :: leBytes w (n / 256)

def leNat : Bytes → Nat
  | [] => 0
  | b :: bs => b.toNat + 256 * leNat bs

@[simp] theorem leBytes_length (w n : Nat) : (leBytes w n).length = w := by
  induction w generalizing n with
  | zero => rfl
  | succ w ih => rw [leBytes, List.length_cons, ih]

theorem leNat_lt (bs : Bytes) : leNat bs < 256 ^ bs.length := by
  induction bs with
  | nil => simp [leNat]
  | cons b bs ih =>
      have hb : b.toNat < 256 := b.toNat_lt
      rw [leNat, List.length_cons, Nat.pow_succ]
      omega

theorem leNat_leBytes (w n : Nat) : leNat (leBytes w n) = n % 256 ^ w := by
  induction w generalizing n with
  | zero => simp [leBytes, leNat, Nat.mod_one]
  | succ w ih =>
      have hlow : (UInt8.ofNat (n % 256)).toNat = n % 256 := by
        rw [UInt8.toNat_ofNat']
        exact Nat.mod_eq_of_lt (by omega)
      rw [leBytes, leNat, ih, hlow, Nat.pow_succ', Nat.mod_mul]

theorem leBytes_leNat (bs : Bytes) : leBytes bs.length (leNat bs) = bs := by
  induction bs with
  | nil => rfl
  | cons b bs ih =>
      have hb : b.toNat < 256 := b.toNat_lt
      have hlow : (b.toNat + 256 * leNat bs) % 256 = b.toNat := by omega
      have hhigh : (b.toNat + 256 * leNat bs) / 256 = leNat bs := by omega
      rw [List.length_cons, leBytes, leNat, hlow, hhigh, ih, UInt8.ofNat_toNat]

/-- The `w` bytes of `n`, most significant first. -/
def beBytes (w n : Nat) : Bytes := (leBytes w n).reverse

def beNat (bs : Bytes) : Nat := leNat bs.reverse

@[simp] theorem beBytes_length (w n : Nat) : (beBytes w n).length = w := by
  rw [beBytes, List.length_reverse, leBytes_length]

theorem beNat_beBytes (w n : Nat) : beNat (beBytes w n) = n % 256 ^ w := by
  rw [beNat, beBytes, List.reverse_reverse, leNat_leBytes]

/-- The bytes of an `n`-bit field. -/
def appendLe {n : Nat} (x : BitVec n) : Bytes := leBytes (n / 8) x.toNat

/-- Read an `n`-bit field off the front of the input; nothing when the input is
too short. -/
def readLe (n : Nat) (input : Bytes) : Option (BitVec n × Bytes) :=
  if n / 8 ≤ input.length then
    some (BitVec.ofNat n (leNat (input.take (n / 8))), input.drop (n / 8))
  else none

/-- A width that fills whole bytes. -/
class Octets (n : Nat) : Prop where
  dvd : 8 ∣ n

instance : Octets 8 := ⟨by decide⟩
instance : Octets 16 := ⟨by decide⟩
instance : Octets 32 := ⟨by decide⟩
instance : Octets 64 := ⟨by decide⟩

variable {n : Nat}

@[simp] theorem appendLe_length {n : Nat} (x : BitVec n) :
    (appendLe x).length = n / 8 := leBytes_length _ _

theorem pow_bytes [Octets n] : 256 ^ (n / 8) = 2 ^ n := by
  obtain ⟨k, rfl⟩ := Octets.dvd (n := n)
  rw [Nat.mul_div_cancel_left k (by omega), Nat.pow_mul]

theorem ofNat_leNat_appendLe [Octets n] (x : BitVec n) :
    BitVec.ofNat n (leNat (appendLe x)) = x := by
  rw [appendLe, leNat_leBytes, pow_bytes, Nat.mod_eq_of_lt x.isLt,
    BitVec.ofNat_toNat, BitVec.setWidth_eq]

theorem appendLe_ofNat_leNat [Octets n] {bs : Bytes} (hlen : bs.length = n / 8) :
    appendLe (BitVec.ofNat n (leNat bs)) = bs := by
  have hlt : leNat bs < 2 ^ n := by
    rw [← pow_bytes, ← hlen]
    exact leNat_lt bs
  rw [appendLe, BitVec.toNat_ofNat, Nat.mod_eq_of_lt hlt, ← hlen, leBytes_leNat]

/-- A count within a bound that fits the word comes back from the word. -/
theorem toNat_ofNat_of_le {count bound w : Nat} (hle : count ≤ bound) (hbound : bound < 2 ^ w) :
    (BitVec.ofNat w count).toNat = count := by
  rw [BitVec.toNat_ofNat, Nat.mod_eq_of_lt (by omega)]

theorem appendLe_inj [Octets n] {x y : BitVec n} (h : appendLe x = appendLe y) : x = y := by
  rw [← ofNat_leNat_appendLe x, h, ofNat_leNat_appendLe]

theorem readLe_eq_some [Octets n] {input rest : Bytes} {x : BitVec n} :
    readLe n input = some (x, rest) ↔ input = appendLe x ++ rest := by
  unfold readLe
  constructor
  · intro h
    split at h
    · next hlen =>
        simp only [Option.some.injEq, Prod.mk.injEq] at h
        obtain ⟨hx, hrest⟩ := h
        have htake : (input.take (n / 8)).length = n / 8 := by
          rw [List.length_take]; omega
        rw [← hx, ← hrest, appendLe_ofNat_leNat htake, List.take_append_drop]
    · cases h
  · intro h
    subst h
    have hlen : n / 8 ≤ (appendLe x ++ rest).length := by
      rw [List.length_append, appendLe_length]; omega
    rw [if_pos hlen, List.take_left' (appendLe_length x), List.drop_left' (appendLe_length x),
      ofNat_leNat_appendLe]

theorem readLe_append [Octets n] (x : BitVec n) (rest : Bytes) :
    readLe n (appendLe x ++ rest) = some (x, rest) := readLe_eq_some.mpr rfl

end Duris
