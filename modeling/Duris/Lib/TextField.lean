import Duris.Lib.LittleEndian

/-!
# Texts behind their lengths

A format stores a text as its length and its characters. `textsAfter` finds texts
again in a byte string without reading anything else: it is told how many bytes stand
before each of them. So it can speak of what is on the wire where a decoder keeps only
part of it.
-/

namespace Duris

/-- A text as a format stores it: its length, in that many bits, and its characters. -/
def textField (bits : Nat) (text : Bytes) : Bytes :=
  appendLe (BitVec.ofNat bits text.length) ++ text

@[simp] theorem textField_length (bits : Nat) (text : Bytes) :
    (textField bits text).length = bits / 8 + text.length := by
  rw [textField, List.length_append, appendLe_length]

/-- The texts of a byte string, each found so many bytes behind the one before it. -/
def textsAfter (bits : Nat) : List Nat → Bytes → List Bytes
  | [], _ => []
  | gap :: gaps, bytes =>
      let rest := bytes.drop gap
      let size := leNat (rest.take (bits / 8))
      (rest.drop (bits / 8)).take size :: textsAfter bits gaps (rest.drop (bits / 8 + size))

theorem textsAfter_cons {bits : Nat} [Octets bits] {gap : Nat} {gaps : List Nat}
    {skipped text rest : Bytes} (hgap : skipped.length = gap) (htext : text.length < 2 ^ bits) :
    textsAfter bits (gap :: gaps) (skipped ++ (textField bits text ++ rest)) =
      text :: textsAfter bits gaps rest := by
  have hsize : leNat (appendLe (BitVec.ofNat bits text.length)) = text.length := by
    rw [appendLe, leNat_leBytes, pow_bytes, BitVec.toNat_ofNat, Nat.mod_mod,
      Nat.mod_eq_of_lt htext]
  have hdrop : (skipped ++ (textField bits text ++ rest)).drop gap =
      appendLe (BitVec.ofNat bits text.length) ++ (text ++ rest) := by
    rw [List.drop_left' hgap, textField, List.append_assoc]
  rw [textsAfter]
  simp only [hdrop, List.take_left' (appendLe_length _), List.drop_left' (appendLe_length _), hsize,
    List.take_left, ← List.drop_drop, List.drop_left]

theorem textsAfter_next {bits : Nat} [Octets bits] {gaps : List Nat} {text rest : Bytes}
    (htext : text.length < 2 ^ bits) :
    textsAfter bits (0 :: gaps) (textField bits text ++ rest) =
      text :: textsAfter bits gaps rest := by
  have hnext : textsAfter bits (0 :: gaps) ([] ++ (textField bits text ++ rest)) =
      text :: textsAfter bits gaps rest := textsAfter_cons List.length_nil htext
  exact hnext

end Duris
