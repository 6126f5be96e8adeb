import Duris.Persistence.Command

/-!
# The `CCM1` format is canonical

One equivalence carries the whole codec: `criticalCommandDecode` accepts exactly
the byte strings the encoder writes for a valid command, and answers that
command. Both round trips are read off it, and so is the fact that comparing
encodings compares fields.
-/

namespace Duris.Persistence

open Reader

theorem encodeKey_length (key : CriticalEntityKey) : (encodeKey key).length = 16 := by
  simp [encodeKey, keyPadding]

theorem encodeRevision_length (revision : CriticalExpectedRevision) :
    (encodeRevision revision).length = 24 := by
  simp [encodeRevision, encodeKey_length]

theorem encodeHeader_length (header : CommandHeader) :
    (encodeHeader header).length = 48 := by
  simp only [encodeHeader, List.length_append, appendLe_length,
    header.operationId.size_eq]

theorem flatMap_length_const {α : Type} {enc : α → Bytes} {w : Nat}
    (hw : ∀ x, (enc x).length = w) (xs : List α) :
    (xs.flatMap enc).length = xs.length * w := by
  induction xs with
  | nil => simp
  | cons x xs ih =>
      rw [List.flatMap_cons, List.length_append, hw, ih, List.length_cons, Nat.succ_mul]
      omega

theorem encodeFields_length (command : CriticalCommand) :
    (encodeFields command).length =
      52 + command.keys.length * 16 + command.expectedRevisions.length * 24 +
        command.payload.length := by
  simp only [encodeFields, List.length_append, commandMagic, encodeHeader_length,
    flatMap_length_const encodeKey_length, flatMap_length_const encodeRevision_length,
    List.length_cons, List.length_nil]

variable {command : CriticalCommand} {input rest : Bytes}

theorem criticalCommandValid_sizes (h : criticalCommandValid command = true) :
    command.schemaVersion = criticalCommandSchemaVersion ∧ command.keys ≠ [] ∧
      command.keys.length ≤ criticalCommandMaxKeys ∧
      command.expectedRevisions.length ≤ criticalCommandMaxKeys ∧
      command.payload.length ≤ criticalCommandMaxPayloadBytes := by
  unfold criticalCommandValid at h
  split at h
  · cases h
  · next hfields =>
      simp only [not_or, Nat.not_lt, ne_eq, not_not] at hfields
      obtain ⟨hschema, -, -, -, -, -, -, -, -, -, hkeys, hk, hr, hp⟩ := hfields
      exact ⟨hschema, hkeys, hk, hr, hp⟩

/-- The three sections at their maxima still fit: 52 bytes of header, 3003 keys,
3003 revisions and 384 KiB of payload come to less than 512 KiB. -/
theorem encodeFields_length_le (h : criticalCommandValid command = true) :
    (encodeFields command).length ≤ criticalCommandMaxEncodedBytes := by
  obtain ⟨-, -, hk, hr, hp⟩ := criticalCommandValid_sizes h
  rw [encodeFields_length]
  simp only [criticalCommandMaxKeys, criticalCommandMaxPayloadBytes,
    criticalCommandMaxEncodedBytes] at *
  omega

theorem criticalCommandEncode_of_valid (h : criticalCommandValid command = true) :
    criticalCommandEncode command = .ok (encodeFields command) := by
  rw [criticalCommandEncode, if_pos h, if_pos (encodeFields_length_le h)]

theorem criticalCommandEncode_eq_ok {encoded : Bytes} :
    criticalCommandEncode command = .ok encoded ↔
      criticalCommandValid command = true ∧ encoded = encodeFields command := by
  constructor
  · intro h
    by_cases hv : criticalCommandValid command = true
    · rw [criticalCommandEncode_of_valid hv] at h
      exact ⟨hv, (Except.ok.inj h).symm⟩
    · rw [criticalCommandEncode, if_neg hv] at h
      cases h
  · rintro ⟨hv, rfl⟩
    exact criticalCommandEncode_of_valid hv

theorem decodeKey_eq_ok {key : CriticalEntityKey} :
    decodeKey input = .ok (key, rest) ↔ input = encodeKey key ++ rest := by
  simp only [decodeKey, bind_eq_ok, pure_eq_ok, require_eq_ok, raw_eq_ok, field_eq_ok]
  constructor
  · rintro ⟨type, _, rfl, padding, _, rfl, _, _, ⟨hpad, rfl⟩, id, _, rfl, rfl, rfl⟩
    simp [encodeKey, hpad]
  · rintro rfl
    refine ⟨key.type, _, by rw [encodeKey, List.append_assoc, List.append_assoc],
      ⟨keyPadding, rfl⟩, _, rfl, (), _, ⟨rfl, rfl⟩, key.id, rest, rfl, rfl, rfl⟩

theorem decodeRevision_eq_ok {revision : CriticalExpectedRevision} :
    decodeRevision input = .ok (revision, rest) ↔
      input = encodeRevision revision ++ rest := by
  simp only [decodeRevision, bind_eq_ok, pure_eq_ok, decodeKey_eq_ok, field_eq_ok]
  constructor
  · rintro ⟨key, _, rfl, value, _, rfl, rfl, rfl⟩
    simp [encodeRevision]
  · rintro rfl
    exact ⟨revision.key, _, by rw [encodeRevision, List.append_assoc],
      revision.revision, rest, rfl, rfl, rfl⟩

theorem decodeHeader_eq_ok {header : CommandHeader} :
    decodeHeader input = .ok (header, rest) ↔
      header.schemaVersion = criticalCommandSchemaVersion ∧
        input = encodeHeader header ++ rest := by
  simp only [decodeHeader, bind_eq_ok, pure_eq_ok, require_eq_ok, raw_eq_ok, field_eq_ok]
  constructor
  · rintro ⟨schema, _, h₁, _, _, ⟨hschema, h₂⟩, id, _, h₃, type, _, h₄, version, _, h₅,
      site, _, h₆, deadline, _, h₇, reserved, _, h₈, _, _, ⟨hzero, h₉⟩, time, _, h₁₀,
      keyCount, _, h₁₁, revisionCount, _, h₁₂, payloadSize, _, h₁₃, hheader, hrest⟩
    subst hheader
    refine ⟨hschema, ?_⟩
    rw [h₁, h₂, h₃, h₄, h₅, h₆, h₇, h₈, h₉, h₁₀, h₁₁, h₁₂, h₁₃, hrest, hzero]
    simp only [encodeHeader, List.append_assoc, CriticalOperationId.ofRaw_bytes]
  · rintro ⟨hschema, rfl⟩
    refine ⟨header.schemaVersion, _, by simp only [encodeHeader, List.append_assoc],
      (), _, ⟨hschema, rfl⟩, ⟨header.operationId.bytes, header.operationId.size_eq⟩, _, rfl,
      header.type, _, rfl, header.payloadVersion, _, rfl, header.sourceSite, _, rfl,
      header.deadlineClass, _, rfl, 0, _, rfl, (), _, ⟨rfl, rfl⟩,
      header.acceptedAtUsec, _, rfl, header.keyCount, _, rfl, header.revisionCount, _, rfl,
      header.payloadSize, _, rfl, rfl, rfl⟩

theorem decodeFields_eq_ok :
    decodeFields input = .ok (command, rest) ↔
      criticalCommandValid command = true ∧ rest = [] ∧
        commandMagic ++ input = encodeFields command := by
  simp only [decodeFields, bind_eq_ok, pure_eq_ok, require_eq_ok, remaining_eq_ok,
    takeRest_eq_ok, many_eq_ok decodeKey_eq_ok, many_eq_ok decodeRevision_eq_ok,
    decodeHeader_eq_ok]
  constructor
  · rintro ⟨header, _, ⟨-, hin⟩, _, _, ⟨-, rfl⟩, left, _, ⟨hleft, rfl⟩, _, _,
      ⟨hrequired, rfl⟩, keys, _, ⟨hkeys, rfl⟩, revisions, _, ⟨hrevisions, rfl⟩,
      payload, _, ⟨rfl, rfl⟩, _, _, ⟨hvalid, rfl⟩, hcommand, rfl⟩
    subst hcommand
    refine ⟨hvalid, rfl, ?_⟩
    -- the length check makes the payload exactly as long as the header says
    have hpayload : payload.length = header.payloadSize.toNat := by
      rw [← hleft, List.length_append, List.length_append,
        flatMap_length_const encodeKey_length,
        flatMap_length_const encodeRevision_length] at hrequired
      omega
    rw [hin]
    simp only [encodeFields, CriticalCommand.header, hkeys, hrevisions, hpayload,
      BitVec.ofNat_toNat, BitVec.setWidth_eq, List.append_assoc]
  · rintro ⟨hvalid, rfl, hinput⟩
    obtain ⟨hschema, hne, hk, hr, hp⟩ := criticalCommandValid_sizes hvalid
    have hkeyCount : command.header.keyCount.toNat = command.keys.length :=
      toNat_ofNat_of_le hk (by decide)
    have hrevisionCount :
        command.header.revisionCount.toNat = command.expectedRevisions.length :=
      toNat_ofNat_of_le hr (by decide)
    have hpayloadSize : command.header.payloadSize.toNat = command.payload.length :=
      toNat_ofNat_of_le hp (by decide)
    refine ⟨command.header, _, ⟨hschema, ?_⟩, (), _, ⟨⟨?_, ?_⟩, rfl⟩, _, _, ⟨rfl, rfl⟩,
      (), _, ⟨?_, rfl⟩, command.keys, _, ⟨hkeyCount.symm, rfl⟩,
      command.expectedRevisions, _, ⟨hrevisionCount.symm, rfl⟩, command.payload, _,
      ⟨rfl, rfl⟩, (), _, ⟨hvalid, rfl⟩, rfl, rfl⟩
    · simp only [encodeFields, List.append_assoc] at hinput
      exact List.append_cancel_left hinput
    · intro hcount
      have hlen : command.keys.length = 0 := by rw [← hkeyCount, hcount]; rfl
      exact hne (List.length_eq_zero_iff.mp hlen)
    · rw [hkeyCount, hrevisionCount, hpayloadSize]
      exact ⟨hk, hr, hp⟩
    · rw [hkeyCount, hrevisionCount, hpayloadSize, List.length_append, List.length_append,
        flatMap_length_const encodeKey_length, flatMap_length_const encodeRevision_length]
      omega

/-- The decoder accepts exactly what the encoder writes for a valid command. -/
theorem criticalCommandDecode_eq_ok {encoded : Bytes} :
    criticalCommandDecode encoded = .ok command ↔
      criticalCommandValid command = true ∧ encoded = encodeFields command := by
  constructor
  · intro h
    unfold criticalCommandDecode at h
    split at h
    · cases h
    · split at h
      · cases h
      · next hsize hmagic =>
          simp only [not_or, ne_eq, not_not] at hmagic
          cases hd : decodeFields (encoded.drop 4) with
          | error e => rw [hd] at h; cases h
          | ok r =>
              obtain ⟨decoded, rest⟩ := r
              rw [hd] at h
              cases h
              obtain ⟨hvalid, -, hbytes⟩ := decodeFields_eq_ok.mp hd
              refine ⟨hvalid, ?_⟩
              rw [← hbytes, ← hmagic.2, List.take_append_drop]
  · rintro ⟨hvalid, rfl⟩
    have hmin : ¬ (encodeFields command).length < 52 := by
      rw [encodeFields_length]; omega
    have hmax := encodeFields_length_le hvalid
    have hmagic : (encodeFields command).take 4 = commandMagic := rfl
    have hbody : decodeFields ((encodeFields command).drop 4) = .ok (command, []) := by
      refine decodeFields_eq_ok.mpr ⟨hvalid, rfl, ?_⟩
      rw [← hmagic, List.take_append_drop]
    rw [criticalCommandDecode, if_neg hmin, if_neg, hbody]
    · rfl
    · simp only [hmagic, ne_eq, not_true_eq_false, or_false]
      omega

/-- Comparing encodings compares fields, and never holds of an invalid command. -/
theorem criticalCommandEqual_iff {left right : CriticalCommand} :
    criticalCommandEqual left right = true ↔
      criticalCommandValid left = true ∧ left = right := by
  unfold criticalCommandEqual
  constructor
  · intro h
    split at h
    · next leftEncoded rightEncoded hl hr =>
        obtain ⟨hvl, rfl⟩ := criticalCommandEncode_eq_ok.mp hl
        obtain ⟨hvr, rfl⟩ := criticalCommandEncode_eq_ok.mp hr
        have hsame : encodeFields left = encodeFields right := by simpa using h
        have hdl := criticalCommandDecode_eq_ok.mpr ⟨hvl, rfl⟩
        have hdr := criticalCommandDecode_eq_ok.mpr ⟨hvr, rfl⟩
        rw [hsame, hdr] at hdl
        exact ⟨hvl, (Except.ok.inj hdl).symm⟩
    · cases h
  · rintro ⟨hv, rfl⟩
    rw [criticalCommandEncode_of_valid hv]
    simp

/-- A valid command encodes without overflow and decodes back to itself; a byte
string the decoder accepts is the one the decoded command encodes to; so on valid
commands the encoded comparison is field-wise equality. -/
theorem criticalCommand_codec_canonical :
    (∀ command, criticalCommandValid command = true →
      ∃ encoded, criticalCommandEncode command = .ok encoded ∧
        criticalCommandDecode encoded = .ok command) ∧
    (∀ encoded command, criticalCommandDecode encoded = .ok command →
      criticalCommandEncode command = .ok encoded) ∧
    (∀ left right, criticalCommandValid left = true →
      criticalCommandValid right = true →
      (criticalCommandEqual left right = true ↔ left = right)) := by
  refine ⟨?_, ?_, ?_⟩
  · intro command hvalid
    exact ⟨encodeFields command, criticalCommandEncode_of_valid hvalid,
      criticalCommandDecode_eq_ok.mpr ⟨hvalid, rfl⟩⟩
  · intro encoded command h
    exact criticalCommandEncode_eq_ok.mpr (criticalCommandDecode_eq_ok.mp h)
  · intro left right hl _
    rw [criticalCommandEqual_iff]
    exact ⟨And.right, fun h => ⟨hl, h⟩⟩

end Duris.Persistence
