import Duris.Lib.LittleEndian

/-!
# UTF-8 by arithmetic

Lean's `String.utf8EncodeChar` says what the bytes of a character are. A decoder sees it
the other way round: a first byte that tells how many follow, six bits from each of these,
and a value that is not smaller than the length warrants. `Spells` is that view, and
`spells_iff` says that the two agree, so that a decoder or a checker has to be compared
with `Spells` only.
-/

namespace Duris.Utf8

def Tail (byte : UInt8) : Prop := 0x80 ≤ byte.toNat ∧ byte.toNat < 0xc0

/-- The bytes of a value below 2^21, none longer than it has to be. -/
inductive Spells : Nat → Bytes → Prop where
  | one {a : UInt8} (ha : a.toNat < 0x80) : Spells a.toNat [a]
  | two {a b : UInt8} {v : Nat} (ha : 0xc0 ≤ a.toNat ∧ a.toNat < 0xe0) (hb : Tail b)
      (hv : v = (a.toNat - 0xc0) * 64 + (b.toNat - 0x80)) (hmin : 0x80 ≤ v) : Spells v [a, b]
  | three {a b c : UInt8} {v : Nat} (ha : 0xe0 ≤ a.toNat ∧ a.toNat < 0xf0) (hb : Tail b)
      (hc : Tail c) (hv : v = ((a.toNat - 0xe0) * 64 + (b.toNat - 0x80)) * 64 + (c.toNat - 0x80))
      (hmin : 0x800 ≤ v) : Spells v [a, b, c]
  | four {a b c d : UInt8} {v : Nat} (ha : 0xf0 ≤ a.toNat ∧ a.toNat < 0xf8) (hb : Tail b)
      (hc : Tail c) (hd : Tail d)
      (hv : v = (((a.toNat - 0xf0) * 64 + (b.toNat - 0x80)) * 64 + (c.toNat - 0x80)) * 64 +
        (d.toNat - 0x80)) (hmin : 0x10000 ≤ v) : Spells v [a, b, c, d]

/-- The bytes of a value, as `String.utf8EncodeChar` writes them. -/
def encode (v : Nat) : Bytes :=
  if v ≤ 0x7f then [UInt8.ofNat v]
  else if v ≤ 0x7ff then [UInt8.ofNat (v / 64 % 0x20 + 0xc0), UInt8.ofNat (v % 0x40 + 0x80)]
  else if v ≤ 0xffff then
    [UInt8.ofNat (v / 4096 % 0x10 + 0xe0), UInt8.ofNat (v / 64 % 0x40 + 0x80),
      UInt8.ofNat (v % 0x40 + 0x80)]
  else
    [UInt8.ofNat (v / 262144 % 0x08 + 0xf0), UInt8.ofNat (v / 4096 % 0x40 + 0x80),
      UInt8.ofNat (v / 64 % 0x40 + 0x80), UInt8.ofNat (v % 0x40 + 0x80)]

theorem encode_char (c : Char) : String.utf8EncodeChar c = encode c.val.toNat := rfl

theorem ofNat_eq (byte : UInt8) {n : Nat} (h : n = byte.toNat) : UInt8.ofNat n = byte := by
  rw [h, UInt8.ofNat_toNat]

theorem toNat_ofNat {n : Nat} (h : n < 256) : (UInt8.ofNat n).toNat = n := by
  rw [UInt8.toNat_ofNat']
  exact Nat.mod_eq_of_lt h

theorem tail_ofNat (n : Nat) : Tail (UInt8.ofNat (n % 0x40 + 0x80)) := by
  unfold Tail
  rw [toNat_ofNat (by omega)]
  omega

theorem spells_encode {v : Nat} (h : v < 0x200000) : Spells v (encode v) := by
  unfold encode
  split
  · next hv =>
      have hone := Spells.one (a := UInt8.ofNat v) (by rw [toNat_ofNat (by omega)]; omega)
      rwa [toNat_ofNat (by omega)] at hone
  · split
    · refine .two ?_ (tail_ofNat v) ?_ (by omega)
      · rw [toNat_ofNat (by omega)]
        omega
      · rw [toNat_ofNat (by omega), toNat_ofNat (by omega)]
        omega
    · split
      · refine .three ?_ (tail_ofNat (v / 64)) (tail_ofNat v) ?_ (by omega)
        · rw [toNat_ofNat (by omega)]
          omega
        · rw [toNat_ofNat (by omega), toNat_ofNat (by omega), toNat_ofNat (by omega)]
          omega
      · refine .four ?_ (tail_ofNat (v / 4096)) (tail_ofNat (v / 64)) (tail_ofNat v) ?_ (by omega)
        · rw [toNat_ofNat (by omega)]
          omega
        · rw [toNat_ofNat (by omega), toNat_ofNat (by omega), toNat_ofNat (by omega),
            toNat_ofNat (by omega)]
          omega

theorem spells_iff {v : Nat} {bytes : Bytes} :
    Spells v bytes ↔ v < 0x200000 ∧ bytes = encode v := by
  constructor
  · intro h
    cases h with
    | @one a ha =>
        refine ⟨by omega, ?_⟩
        rw [encode, if_pos (by omega), UInt8.ofNat_toNat]
    | @two a b _ ha hb hv hmin =>
        unfold Tail at hb
        refine ⟨by omega, ?_⟩
        rw [encode, if_neg (by omega), if_pos (by omega), ofNat_eq a (by omega),
          ofNat_eq b (by omega)]
    | @three a b c _ ha hb hc hv hmin =>
        unfold Tail at hb hc
        refine ⟨by omega, ?_⟩
        rw [encode, if_neg (by omega), if_neg (by omega), if_pos (by omega),
          ofNat_eq a (by omega), ofNat_eq b (by omega),
          ofNat_eq c (by omega)]
    | @four a b c d _ ha hb hc hd hv hmin =>
        unfold Tail at hb hc hd
        refine ⟨by omega, ?_⟩
        rw [encode, if_neg (by omega), if_neg (by omega), if_neg (by omega),
          ofNat_eq a (by omega), ofNat_eq b (by omega),
          ofNat_eq c (by omega), ofNat_eq d (by omega)]
  · rintro ⟨hv, rfl⟩
    exact spells_encode hv

theorem Spells.ne_nil {v : Nat} {bytes : Bytes} (h : Spells v bytes) : bytes ≠ [] := by
  cases h <;> exact List.cons_ne_nil _ _

end Duris.Utf8
