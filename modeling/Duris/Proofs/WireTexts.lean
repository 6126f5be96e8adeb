import Mathlib
import Duris.Economy.CollectorWire
import Duris.Lib.TextField

/-!
# Texts on the wire and in memory

On the wire a text is a length and that many bytes, any bytes. In memory it is a C
string, and the encoders write what stands before the first zero. So a text survives
a read and a write exactly when no byte of it is zero; everything the checks and the
keys read of a name they read of the C string.
-/

namespace Duris.Economy

open Persistence Reader

section CString

variable {text : Bytes}

theorem cString_length_le (text : Bytes) : (cString text).length ≤ text.length :=
  (List.takeWhile_prefix _).length_le

theorem cString_eq_self : cString text = text ↔ 0 ∉ text := by
  rw [cString, List.takeWhile_eq_self_iff]
  constructor
  · intro h hzero
    have hne := h 0 hzero
    simp at hne
  · intro h byte hbyte
    rw [bne_iff_ne]
    rintro rfl
    exact h hbyte

theorem zero_not_mem_cString (text : Bytes) : 0 ∉ cString text := by
  intro hzero
  have hne := List.mem_takeWhile_imp hzero
  simp at hne

theorem cString_idem (text : Bytes) : cString (cString text) = cString text :=
  cString_eq_self.mpr (zero_not_mem_cString text)

theorem cString_length_eq : (cString text).length = text.length ↔ 0 ∉ text := by
  constructor
  · intro h
    exact cString_eq_self.mp ((List.takeWhile_prefix _).eq_of_length h)
  · intro h
    rw [cString_eq_self.mpr h]

theorem cString_append_zeros (text : Bytes) (n : Nat) :
    cString (text ++ List.replicate n 0) = cString text := by
  have hzeros : cString (List.replicate n 0) = [] := by
    cases n with
    | zero => rfl
    | succ n => rfl
  by_cases hzero : 0 ∈ text
  · induction text with
    | nil => cases hzero
    | cons byte text ih =>
        rw [cString, cString, List.cons_append, List.takeWhile_cons, List.takeWhile_cons]
        split
        · next hbyte =>
            have htail : 0 ∈ text := by
              cases List.mem_cons.mp hzero with
              | inl h => rw [← h] at hbyte; simp at hbyte
              | inr h => exact h
            exact congrArg (byte :: ·) (ih htail)
        · rfl
  · have hall : ∀ byte ∈ text, (byte != 0) = true := by
      intro byte hbyte
      rw [bne_iff_ne]
      rintro rfl
      exact hzero hbyte
    rw [cString_eq_self.mpr hzero, cString, List.takeWhile_append_of_pos hall]
    rw [cString] at hzeros
    rw [hzeros, List.append_nil]

/-- A terminator inside the array ends the text there, whatever stands behind it. -/
theorem cString_take_of_lt {size : Nat} (h : (cString (text.take size)).length < size) :
    cString (text.take size) = cString text := by
  induction text generalizing size with
  | nil => rw [List.take_nil]
  | cons byte text ih =>
      cases size with
      | zero => cases h
      | succ size =>
          rw [List.take_succ_cons, cString, List.takeWhile_cons] at h ⊢
          rw [cString, List.takeWhile_cons]
          split
          · next hbyte =>
              rw [if_pos hbyte, List.length_cons] at h
              exact congrArg (byte :: ·) (ih (Nat.lt_of_succ_lt_succ h))
          · rfl

theorem cString_take_cString (text : Bytes) (size : Nat) :
    cString ((cString text).take size) = cString (text.take size) := by
  rw [cString_eq_self.mpr fun hzero => zero_not_mem_cString text (List.mem_of_mem_take hzero)]
  exact List.take_takeWhile ..

end CString

section NameArray

variable {name : Bytes}

theorem nameArray_toList (h : name.length ≤ 51) :
    (nameArray name).toList = name ++ List.replicate (51 - name.length) 0 := by
  refine List.ext_getElem (by simp; omega) fun index hleft hright => ?_
  simp only [nameArray, Vector.getElem_toList, Vector.getElem_ofFn, List.getElem_append,
    List.getElem_replicate]
  split
  · next hindex => rw [List.getD_eq_getElem _ _ hindex]
  · next hindex => rw [List.getD_eq_default _ _ (by omega)]

theorem cString_nameArray (h : name.length ≤ 51) :
    cString (nameArray name).toList = cString name := by
  rw [nameArray_toList h, cString_append_zeros]

theorem cString_name_length_le (array : Vector UInt8 51) :
    (cString array.toList).length ≤ 51 :=
  (cString_length_le _).trans_eq array.length_toList

theorem name_first_eq_zero {n : Nat} (hpos : 0 < n) (array : Vector UInt8 n) :
    (array[0] == 0) = (cString array.toList).isEmpty := by
  have hcons : ∃ rest, array.toList = array[0] :: rest := by
    cases hlist : array.toList with
    | nil =>
        have hlength := array.length_toList
        rw [hlist, List.length_nil] at hlength
        omega
    | cons byte rest =>
        have hlength : 0 < array.toList.length := by simpa using hpos
        have hfirst : array.toList[0] = byte := by simp [hlist]
        rw [Vector.getElem_toList] at hfirst
        exact ⟨rest, by rw [hfirst]⟩
  obtain ⟨rest, hcons⟩ := hcons
  rw [hcons, cString, List.takeWhile_cons]
  cases hzero : array[0] == 0 with
  | true => simp [bne, hzero]
  | false => simp [bne, hzero]

/-- What `valid_name` and `currency_account_key` read of a name is the C string. -/
theorem validName_eq (name : Bytes) :
    validName name =
      let text := cString (name.take (currencyAccountNameMaxBytes + 1))
      if text.length = 0 ∨ currencyAccountNameMaxBytes < text.length then none
      else if text.any (· < 0x20) then none else some text.length := by
  have hstart : name.take (cString (name.take (currencyAccountNameMaxBytes + 1))).length =
      cString (name.take (currencyAccountNameMaxBytes + 1)) :=
    (List.prefix_iff_eq_take.mp
      ((List.takeWhile_prefix _).trans (List.take_prefix _ _))).symm
  unfold validName
  simp only [hstart]

theorem validName_congr {other : Bytes}
    (h : cString (name.take (currencyAccountNameMaxBytes + 1)) =
      cString (other.take (currencyAccountNameMaxBytes + 1))) :
    validName name = validName other := by
  rw [validName_eq, validName_eq, h]

theorem currencyAccountKey_congr {sha256 : Bytes → Vector UInt8 32} {other : Bytes}
    {racewar : BitVec 8} (h : cString (name.take (currencyAccountNameMaxBytes + 1)) =
      cString (other.take (currencyAccountNameMaxBytes + 1))) :
    currencyAccountKey sha256 name racewar = currencyAccountKey sha256 other racewar := by
  have htake (name : Bytes) {length : Nat} (hlength : validName name = some length) :
      name.take length = cString (name.take (currencyAccountNameMaxBytes + 1)) := by
    have hstart : cString (name.take (currencyAccountNameMaxBytes + 1)) <+: name :=
      (List.takeWhile_prefix _).trans (List.take_prefix _ _)
    rw [validName_eq] at hlength
    dsimp only at hlength
    split at hlength
    · cases hlength
    · split at hlength
      · cases hlength
      · rw [← Option.some.inj hlength, ← List.prefix_iff_eq_take.mp hstart]
  unfold currencyAccountKey
  rw [validName_congr h]
  cases hlength : validName other with
  | none => rfl
  | some length =>
      have hname := htake name ((validName_congr h).trans hlength)
      have hother := htake other hlength
      simp only [Option.bind_eq_bind, Option.bind_some, hname, hother, h]

end NameArray

theorem readString_eq_ok {size : Nat} (hsize : size ≤ 2 ^ 16) {text input rest : Bytes} :
    readString size input = .ok (text, rest) ↔
      text.length < size ∧ input = textField 16 text ++ rest := by
  simp only [readString, bind_eq_ok, pure_eq_ok, require_eq_ok, raw_eq_ok, field_eq_ok]
  constructor
  · rintro ⟨length, mid, rfl, _, mid', ⟨hlength, rfl⟩, value, mid'', rfl, rfl, rfl⟩
    have hvalue : value.1.length = length.toNat := value.2
    rw [hvalue, textField, hvalue, BitVec.ofNat_toNat, BitVec.setWidth_eq, List.append_assoc]
    exact ⟨hlength, rfl⟩
  · rintro ⟨hlength, rfl⟩
    have hback : (BitVec.ofNat 16 text.length).toNat = text.length :=
      toNat_ofNat_of_le le_rfl (by omega)
    exact ⟨BitVec.ofNat 16 text.length, _, by rw [textField, List.append_assoc], (), _,
      ⟨by omega, rfl⟩, ⟨text, hback.symm⟩, rest, rfl, rfl, rfl⟩

theorem appendString_eq_some {size : Nat} {value encoded : Bytes} :
    appendString size value = some encoded ↔
      (cString (value.take size)).length < size ∧
        textField 16 (cString (value.take size)) = encoded := by
  rw [appendString]
  split
  · next h => exact iff_of_false (by simp) fun hsome => absurd hsome.1 (by omega)
  · next h => rw [Option.some.injEq, textField, and_iff_right (by omega)]

end Duris.Economy
