import Duris.Economy.CollectorCodec

/-!
# The catalogue's bytes and what they spell

Encoding and decoding are two readings of one layout, so the file states each layout
once: the bytes a record stands for, and the bytes a catalogue stands for. A decoder
accepts exactly these of a valid value, an encoder writes exactly these, and the two
halves of the bijection follow by reading the equivalence in either direction.
-/

namespace Duris.Economy.Collector

open Reader

/-! ## Enumerations -/

variable {byte : BitVec 8} {bytes input rest : Bytes} {entry : Record} {value : Catalog}

theorem State.ofByte_eq_some {status : State} :
    State.ofByte byte = some status ↔ byte = status.toByte := by
  constructor
  · intro h
    have hbyte := List.find?_some h
    exact (beq_iff_eq.mp hbyte).symm
  · rintro rfl
    cases status <;> rfl

theorem Reason.ofByte_eq_some {why : Reason} :
    Reason.ofByte byte = some why ↔ byte = why.toByte := by
  constructor
  · intro h
    have hbyte := List.find?_some h
    exact (beq_iff_eq.mp hbyte).symm
  · rintro rfl
    cases why <;> rfl

theorem boolByte_le (value : Bool) : boolByte value ≤ 1 := by
  cases value <;> decide

theorem boolByte_ne_zero (value : Bool) : (boolByte value != 0) = value := by
  cases value <;> rfl

theorem boolByte_of_le (h : byte ≤ 1) : boolByte (byte != 0) = byte := by
  have hsmall : byte = 0 ∨ byte = 1 := by
    have : byte.toNat ≤ 1 := h
    rcases Nat.le_one_iff_eq_zero_or_eq_one.mp this with hzero | hone
    · exact .inl (BitVec.eq_of_toNat_eq hzero)
    · exact .inr (BitVec.eq_of_toNat_eq hone)
  rcases hsmall with rfl | rfl <;> rfl

/-! ## Death operations -/

theorem digit_hexadecimalValue : ∀ digit, hexadecimal digit = true →
    ∃ value < 16, hexadecimalValue digit = some (UInt8.ofNat value) ∧
      hexadecimalDigits.getD value 0 = digit := by
  apply byte_forall
  decide +kernel

theorem hexadecimalValue_halves : ∀ value : UInt8,
    hexadecimalValue (hexadecimalDigits.getD (value >>> 4).toNat 0) = some (value >>> 4) ∧
      hexadecimalValue (hexadecimalDigits.getD (value &&& 0xf).toNat 0) = some (value &&& 0xf) ∧
      ((value >>> 4) <<< 4 ||| (value &&& 0xf)) = value := by
  apply byte_forall
  decide +kernel

theorem halves_of_values : ∀ high < 16, ∀ low < 16,
    ((UInt8.ofNat high <<< 4 ||| UInt8.ofNat low) >>> 4).toNat = high ∧
      ((UInt8.ofNat high <<< 4 ||| UInt8.ofNat low) &&& 0xf).toNat = low := by
  decide +kernel

theorem getDigits_cons (value : UInt8) (bytes : Bytes) :
    getDigits (value :: bytes) = hexadecimalDigits.getD (value >>> 4).toNat 0 ::
      hexadecimalDigits.getD (value &&& 0xf).toNat 0 :: getDigits bytes := rfl

theorem getDigits_length (bytes : Bytes) : (getDigits bytes).length = 2 * bytes.length := by
  induction bytes with
  | nil => rfl
  | cons value bytes ih => rw [getDigits_cons, List.length_cons, List.length_cons, ih,
      List.length_cons, Nat.mul_succ]

theorem putDigits_getDigits (bytes : Bytes) : putDigits (getDigits bytes) = some bytes := by
  induction bytes with
  | nil => rfl
  | cons value bytes ih =>
      obtain ⟨hhigh, hlow, hboth⟩ := hexadecimalValue_halves value
      rw [getDigits_cons, putDigits, hhigh, hlow, ih]
      simp only [Option.bind_eq_bind, Option.bind_some, Option.pure_def, hboth]

theorem exists_putDigits : ∀ (count : Nat) {digits : List UInt8}, digits.length = 2 * count →
    digits.all hexadecimal = true →
    ∃ bytes, putDigits digits = some bytes ∧ bytes.length = count ∧ getDigits bytes = digits := by
  intro count
  induction count with
  | zero =>
      intro digits hlength _
      rw [List.eq_nil_of_length_eq_zero hlength]
      exact ⟨[], rfl, rfl, rfl⟩
  | succ count ih =>
      intro digits hlength hall
      match digits, hlength, hall with
      | high :: low :: digits, hlength, hall =>
          simp only [List.all_cons, Bool.and_eq_true] at hall
          obtain ⟨hhigh, hlow, hrest⟩ := hall
          obtain ⟨highValue, hhighLt, hhighValue, hhighDigit⟩ := digit_hexadecimalValue high hhigh
          obtain ⟨lowValue, hlowLt, hlowValue, hlowDigit⟩ := digit_hexadecimalValue low hlow
          obtain ⟨bytes, hput, hcount, hget⟩ := ih (by
            simp only [List.length_cons] at hlength
            omega) hrest
          obtain ⟨hup, hdown⟩ := halves_of_values highValue hhighLt lowValue hlowLt
          refine ⟨(UInt8.ofNat highValue <<< 4 ||| UInt8.ofNat lowValue) :: bytes, ?_, ?_, ?_⟩
          · rw [putDigits, hhighValue, hlowValue, hput]
            rfl
          · rw [List.length_cons, hcount]
          · rw [getDigits_cons, hup, hdown, hhighDigit, hlowDigit, hget]

theorem toList_getOperation (h : bytes.length = 16) :
    (getOperation bytes).toList = getDigits bytes ++ [0] := by
  have hdigits := getDigits_length bytes
  rw [h] at hdigits
  apply List.ext_getElem
  · rw [Vector.length_toList, List.length_append, hdigits]
    rfl
  · intro index hindex hbound
    simp only [getOperation, Vector.toList_ofFn, List.getElem_ofFn, List.getD_eq_getElem?_getD]
    by_cases hlast : index < (getDigits bytes).length
    · rw [List.getElem_append_left hlast, List.getElem?_eq_getElem hlast, Option.getD_some]
    · rw [List.getElem_append_right (Nat.le_of_not_lt hlast),
        List.getElem?_eq_none (Nat.le_of_not_lt hlast), Option.getD_none, List.getElem_singleton]

theorem putOperation_getOperation (h : bytes.length = 16) :
    putOperation (getOperation bytes) = some bytes := by
  have hdigits : (getDigits bytes).length = deathOperationHexSize := by
    rw [getDigits_length, h]
    rfl
  rw [putOperation, toList_getOperation h, List.take_left' hdigits, putDigits_getDigits]

theorem exists_putOperation {operation : Vector UInt8 (deathOperationHexSize + 1)}
    (h : validDeathOperationId operation = true) :
    ∃ bytes, putOperation operation = some bytes ∧ bytes.length = 16 ∧
      getOperation bytes = operation := by
  simp only [validDeathOperationId, validDeathOperation, Bool.and_eq_true, beq_iff_eq] at h
  obtain ⟨hzero, ⟨hlength, hall⟩, -⟩ := h
  obtain ⟨bytes, hput, hcount, hget⟩ := exists_putDigits 16 hlength hall
  refine ⟨bytes, hput, hcount, ?_⟩
  apply Vector.toList_inj.mp
  have hlast : operation.toList.drop deathOperationHexSize = [0] := by
    rw [List.drop_eq_getElem_cons (by simp), Vector.getElem_toList, hzero,
      List.drop_eq_nil_of_le (by simp)]
  rw [toList_getOperation hcount, hget, ← hlast, List.take_append_drop]

/-! ## Records -/

def recordSpelling (entry : Record) : Bytes :=
  recordBytes entry ((putOperation entry.deathOperation).getD [])

theorem validRecord_version (h : validRecord entry = true) : entry.version = recordVersion := by
  simp only [validRecord, validHeader, Bool.and_eq_true, beq_iff_eq] at h
  exact h.1.1.1.1.1.1.1.1.1.1.1.1.1

theorem validRecord_operation (h : validRecord entry = true) :
    validDeathOperationId entry.deathOperation = true := by
  simp only [validRecord, validHeader, Bool.and_eq_true] at h
  exact h.1.1.1.1.1.2

theorem recordBytes_length (entry : Record) {operation : Bytes} (h : operation.length = 16) :
    (recordBytes entry operation).length = encodedRecordBytes := by
  unfold recordBytes identityBytes scheduleBytes standingBytes rulesBytes
  simp only [List.length_append, appendLe_length, h]
  rfl

theorem recordSpelling_valid (h : validRecord entry = true) :
    ∃ operation, putOperation entry.deathOperation = some operation ∧ operation.length = 16 ∧
      getOperation operation = entry.deathOperation ∧
      recordSpelling entry = recordBytes entry operation := by
  obtain ⟨operation, hput, hlength, hget⟩ := exists_putOperation (validRecord_operation h)
  refine ⟨operation, hput, hlength, hget, ?_⟩
  rw [recordSpelling, hput, Option.getD_some]

theorem recordSpelling_length (h : validRecord entry = true) :
    (recordSpelling entry).length = encodedRecordBytes := by
  obtain ⟨operation, -, hlength, -, hspelling⟩ := recordSpelling_valid h
  rw [hspelling, recordBytes_length entry hlength]

theorem encodeRecord_eq_ok :
    encodeRecord entry = .ok bytes ↔ validRecord entry = true ∧ bytes = recordSpelling entry := by
  unfold encodeRecord
  constructor
  · intro h
    split at h
    · cases h
    · split at h
      · cases h
      · next hvalid =>
          rw [Bool.not_eq_false] at hvalid
          obtain ⟨operation, hput, -, -, hspelling⟩ := recordSpelling_valid hvalid
          simp only [hput] at h
          split at h
          · cases h
          · exact ⟨hvalid, (Except.ok.inj h).symm.trans hspelling.symm⟩
  · rintro ⟨hvalid, hbytes⟩
    obtain ⟨operation, hput, hlength, -, hspelling⟩ := recordSpelling_valid hvalid
    have hversion := validRecord_version hvalid
    have hsize := recordBytes_length entry hlength
    rw [hspelling] at hbytes
    simp only [hversion, hvalid, hput, hsize, hbytes, ne_eq, not_true_eq_false, if_false,
      Bool.true_eq_false]

/-! What the candidate is after each group of fields. -/

def identityOf (entry : Record) : Record where
  version := entry.version
  listing := entry.listing
  deathOperation := entry.deathOperation
  beneficiary := entry.beneficiary
  uid := entry.uid

def withSchedule (candidate entry : Record) : Record :=
  { candidate with
    deathTime := entry.deathTime, collectAt := entry.collectAt, saleAt := entry.saleAt
    availableAt := entry.availableAt, expiresAt := entry.expiresAt
    holdingPaused := entry.holdingPaused, pausedAt := entry.pausedAt }

def withStanding (candidate entry : Record) : Record :=
  { candidate with
    revision := entry.revision, itemRevision := entry.itemRevision, priceValue := entry.priceValue
    policy := entry.policy, status := entry.status, closedReason := entry.closedReason }

theorem readIdentity_eq_ok (h : readIdentity input = .ok (entry, rest)) :
    ∃ operation, putOperation entry.deathOperation = some operation ∧ operation.length = 16 ∧
      input = identityBytes entry operation ++ rest := by
  simp only [readIdentity, bind_eq_ok, pure_eq_ok, require_eq_ok, raw_eq_ok, field_eq_ok] at h
  obtain ⟨version, _, rfl, _, _, ⟨_, rfl⟩, listing, _, rfl, operation, _, rfl, beneficiary, _, rfl,
    uid, _, rfl, rfl, rfl⟩ := h
  exact ⟨operation.1, putOperation_getOperation operation.2, operation.2,
    by simp only [identityBytes, List.append_assoc]⟩

theorem readIdentity_append {operation : Bytes} (hversion : entry.version = recordVersion)
    (hlength : operation.length = 16) (hget : getOperation operation = entry.deathOperation)
    (rest : Bytes) :
    readIdentity (identityBytes entry operation ++ rest) =
      .ok (identityOf entry, rest) := by
  simp only [identityBytes, List.append_assoc]
  rw [readIdentity, field_bind, require_bind hversion, field_bind, raw_bind hlength, field_bind,
    field_bind, hget]
  rfl

theorem readSchedule_eq_ok {candidate : Record} :
    readSchedule candidate input = .ok (entry, rest) ↔
      input = scheduleBytes entry ++ rest ∧
        entry = withSchedule candidate entry := by
  constructor
  · intro h
    simp only [readSchedule, bind_eq_ok, pure_eq_ok, require_eq_ok, field_eq_ok] at h
    obtain ⟨deathTime, _, rfl, collectAt, _, rfl, saleAt, _, rfl, availableAt, _, rfl, expiresAt,
      _, rfl, paused, _, rfl, _, _, ⟨hpaused, rfl⟩, pausedAt, _, rfl, rfl, rfl⟩ := h
    refine ⟨?_, rfl⟩
    simp only [scheduleBytes, boolByte_of_le hpaused, List.append_assoc]
  · rintro ⟨rfl, hentry⟩
    simp only [scheduleBytes, List.append_assoc]
    rw [readSchedule, field_bind, field_bind, field_bind, field_bind, field_bind, field_bind,
      require_bind (boolByte_le _), field_bind, pure_eq_ok, boolByte_ne_zero]
    exact ⟨hentry.symm, rfl⟩

theorem readRules_eq_ok {policy : Rules} :
    readRules input = .ok (policy, rest) ↔ input = rulesBytes policy ++ rest := by
  constructor
  · intro h
    simp only [readRules, bind_eq_ok, pure_eq_ok, require_eq_ok, field_eq_ok] at h
    obtain ⟨enabled, _, rfl, _, _, ⟨henabled, rfl⟩, collectionDelay, _, rfl, saleDelay, _, rfl,
      holdingDuration, _, rfl, pricePercent, _, rfl, minimumValue, _, rfl, rfl, rfl⟩ := h
    simp only [rulesBytes, boolByte_of_le henabled, List.append_assoc]
  · rintro rfl
    simp only [rulesBytes, List.append_assoc]
    rw [readRules, field_bind, require_bind (boolByte_le _), field_bind, field_bind, field_bind,
      field_bind, field_bind, pure_eq_ok, boolByte_ne_zero]
    exact ⟨rfl, rfl⟩

theorem readStanding_eq_ok {candidate : Record} :
    readStanding candidate input = .ok (entry, rest) ↔
      input = standingBytes entry ∧ rest = [] ∧
        entry = withStanding candidate entry := by
  simp only [readStanding, bind_eq_ok, pure_eq_ok, require_eq_ok, remaining_eq_ok, ofOption_eq_ok,
    readRules_eq_ok, State.ofByte_eq_some, Reason.ofByte_eq_some, field_eq_ok]
  constructor
  · rintro ⟨revision, _, rfl, itemRevision, _, rfl, priceValue, _, rfl, policy, _, rfl, _, _, rfl,
      _, left, rfl, _, _, ⟨rfl, rfl⟩, _, _, ⟨hleft, rfl⟩, status, _, ⟨rfl, rfl⟩, closedReason, _,
      ⟨rfl, rfl⟩, rfl, rfl⟩
    obtain rfl := List.eq_nil_of_length_eq_zero hleft
    refine ⟨?_, rfl, rfl⟩
    simp only [standingBytes, List.append_assoc, List.append_nil]
  · rintro ⟨rfl, rfl, hentry⟩
    refine ⟨entry.revision, _, by simp only [standingBytes, List.append_assoc]; rfl,
      entry.itemRevision, _, rfl, entry.priceValue, _, rfl, entry.policy, _, rfl,
      entry.status.toByte, _, rfl, entry.closedReason.toByte, [], by rw [List.append_nil],
      0, [], ⟨rfl, rfl⟩, (), [], ⟨rfl, rfl⟩, entry.status, [], ⟨rfl, rfl⟩, entry.closedReason, [],
      ⟨rfl, rfl⟩, hentry.symm, rfl⟩

theorem readRecord_eq_ok :
    readRecord input = .ok (entry, rest) ↔
      validRecord entry = true ∧ input = recordSpelling entry ∧ rest = [] := by
  constructor
  · intro h
    rw [readRecord] at h
    obtain ⟨candidate, _, hidentity, h⟩ := bind_eq_ok.mp h
    obtain ⟨candidate', _, hschedule, h⟩ := bind_eq_ok.mp h
    obtain ⟨entry', _, hstanding, h⟩ := bind_eq_ok.mp h
    obtain ⟨_, _, hrequire, h⟩ := bind_eq_ok.mp h
    obtain ⟨hvalid, rfl⟩ := require_eq_ok.mp hrequire
    obtain ⟨rfl, rfl⟩ := pure_eq_ok.mp h
    obtain ⟨operation, hput, -, rfl⟩ := readIdentity_eq_ok hidentity
    obtain ⟨rfl, hcandidate'⟩ := readSchedule_eq_ok.mp hschedule
    obtain ⟨rfl, rfl, hentry⟩ := readStanding_eq_ok.mp hstanding
    rw [hcandidate'] at hentry
    have hkept : putOperation entry'.deathOperation = some operation := by
      rw [hentry]
      exact hput
    refine ⟨hvalid, ?_, rfl⟩
    rw [recordSpelling, hkept, Option.getD_some, recordBytes,
      List.append_assoc, hcandidate', hentry]
    rfl
  · rintro ⟨hvalid, hinput, rfl⟩
    obtain ⟨operation, -, hlength, hget, hspelling⟩ := recordSpelling_valid hvalid
    have hschedule : readSchedule (identityOf entry) (scheduleBytes entry ++ standingBytes entry) =
        .ok (withSchedule (identityOf entry) entry, standingBytes entry) :=
      readSchedule_eq_ok.mpr ⟨rfl, rfl⟩
    have hstanding : readStanding (withSchedule (identityOf entry) entry) (standingBytes entry) =
        .ok (entry, []) := readStanding_eq_ok.mpr ⟨rfl, rfl, rfl⟩
    rw [hinput, hspelling, recordBytes, List.append_assoc, readRecord,
      bind_run (readIdentity_append (validRecord_version hvalid) hlength hget _),
      bind_run hschedule, bind_run hstanding, require_bind hvalid]
    rfl

theorem map_fst_eq_ok {α : Type} {read : Except CodecFailure (α × Bytes)} {value : α} :
    read.map Prod.fst = .ok value ↔ ∃ rest, read = .ok (value, rest) := by
  cases read with
  | error result => simp [Except.map]
  | ok pair =>
      obtain ⟨a, rest⟩ := pair
      simp [Except.map]

theorem decodeRecord_eq_ok :
    decodeRecord bytes = .ok entry ↔ validRecord entry = true ∧ bytes = recordSpelling entry := by
  unfold decodeRecord
  constructor
  · intro h
    split at h
    · cases h
    · obtain ⟨rest, hread⟩ := map_fst_eq_ok.mp h
      obtain ⟨hvalid, hbytes, -⟩ := readRecord_eq_ok.mp hread
      exact ⟨hvalid, hbytes⟩
  · rintro ⟨hvalid, hbytes⟩
    rw [if_neg (by rw [hbytes, recordSpelling_length hvalid]; decide)]
    exact map_fst_eq_ok.mpr ⟨[], readRecord_eq_ok.mpr ⟨hvalid, hbytes, rfl⟩⟩

/-! ## Catalogues -/

def catalogSpelling (value : Catalog) : Bytes :=
  catalogHeader value ++ value.records.flatMap recordSpelling

theorem readSlot_eq_ok :
    readSlot input = .ok (entry, rest) ↔
      validRecord entry = true ∧ input = recordSpelling entry ++ rest := by
  simp only [readSlot, bind_eq_ok, raw_eq_ok, ofExcept_eq_ok, decodeRecord_eq_ok]
  constructor
  · rintro ⟨slot, _, rfl, ⟨hvalid, hslot⟩, rfl⟩
    exact ⟨hvalid, by rw [hslot]⟩
  · rintro ⟨hvalid, rfl⟩
    exact ⟨⟨recordSpelling entry, recordSpelling_length hvalid⟩, rest, rfl, ⟨hvalid, rfl⟩, rfl⟩

theorem mapM_encodeRecord {records : List Record}
    (h : ∀ entry ∈ records, validRecord entry = true) :
    records.mapM encodeRecord = .ok (records.map recordSpelling) := by
  induction records with
  | nil => rfl
  | cons entry records ih =>
      rw [List.forall_mem_cons] at h
      rw [List.mapM_cons, encodeRecord_eq_ok.mpr ⟨h.1, rfl⟩, ih h.2]
      rfl

theorem encodeCatalog_valid (h : validCatalog value = true) :
    encodeCatalog true value = .ok (catalogSpelling value) := by
  have hall := h
  simp only [validCatalog, Bool.and_eq_true, decide_eq_true_eq, List.all_eq_true] at hall
  obtain ⟨⟨hcount, -⟩, hrecords⟩ := hall
  unfold encodeCatalog
  rw [if_neg (Nat.not_lt.mpr hcount), if_neg (by rw [h]; decide), if_neg (by decide),
    mapM_encodeRecord hrecords]
  rfl

theorem records_length {records : List Record} (h : ∀ entry ∈ records, validRecord entry = true) :
    (records.flatMap recordSpelling).length = records.length * encodedRecordBytes := by
  induction records with
  | nil => rfl
  | cons entry records ih =>
      rw [List.forall_mem_cons] at h
      rw [List.flatMap_cons, List.length_append, recordSpelling_length h.1, ih h.2,
        List.length_cons, Nat.succ_mul, Nat.add_comm]

theorem catalogSpelling_length (h : ∀ entry ∈ value.records, validRecord entry = true) :
    (catalogSpelling value).length =
      catalogHeaderBytes + value.records.length * encodedRecordBytes := by
  rw [catalogSpelling, List.length_append, records_length h]
  simp [catalogHeader, catalogMagic, catalogHeaderBytes]

/-- What `catalog_decode` accepts, whatever memory there is, is the spelling of a valid
catalogue. -/
theorem decodeCatalog_spells {allocated : Bool} (h : decodeCatalog allocated bytes = .ok value) :
    validCatalog value = true ∧ bytes = catalogSpelling value := by
  unfold decodeCatalog at h
  split at h
  · cases h
  · obtain ⟨rest, hread⟩ := map_fst_eq_ok.mp h
    simp only [readCatalog, bind_eq_ok, pure_eq_ok, require_eq_ok, raw_eq_ok, remaining_eq_ok,
      field_eq_ok, many_all_eq_ok readSlot_eq_ok] at hread
    obtain ⟨magic, _, hbytes, _, _, ⟨hmagic, rfl⟩, version, _, rfl, _, _, ⟨rfl, rfl⟩, reserved, _,
      rfl, _, _, ⟨rfl, rfl⟩, revision, _, rfl, nextListing, _, rfl, count, _, rfl, _, _,
      ⟨_, rfl⟩, _, _, ⟨_, rfl⟩, _, _, ⟨_, rfl⟩, records, _, ⟨hcount, _, rfl⟩, left, _,
      ⟨rfl, rfl⟩, _, _, ⟨⟨hleft, hvalid⟩, rfl⟩, rfl, rfl⟩ := hread
    obtain rfl := List.eq_nil_of_length_eq_zero hleft
    have hlength : BitVec.ofNat 32 records.length = count := by
      rw [hcount, BitVec.ofNat_toNat, BitVec.setWidth_eq]
    refine ⟨hvalid, ?_⟩
    rw [hbytes, hmagic]
    simp only [catalogSpelling, catalogHeader, hlength, List.append_assoc, List.append_nil]

theorem decodeCatalog_spelling (h : validCatalog value = true) :
    decodeCatalog true (catalogSpelling value) = .ok value := by
  have hall := h
  simp only [validCatalog, Bool.and_eq_true, decide_eq_true_eq, List.all_eq_true] at hall
  obtain ⟨⟨hcount, -⟩, hrecords⟩ := hall
  have hsize := catalogSpelling_length hrecords
  have hword : (BitVec.ofNat 32 value.records.length).toNat = value.records.length := by
    rw [BitVec.toNat_ofNat]
    simp only [catalogMaxRecords] at hcount
    exact Nat.mod_eq_of_lt (by omega)
  have hslots : many readSlot (BitVec.ofNat 32 value.records.length).toNat
      (value.records.flatMap recordSpelling) = .ok (value.records, []) :=
    (many_all_eq_ok readSlot_eq_ok).mpr ⟨hword.symm, hrecords, (List.append_nil _).symm⟩
  unfold decodeCatalog
  rw [if_neg (by rw [hsize]; exact Nat.not_lt.mpr (Nat.le_add_right ..))]
  refine map_fst_eq_ok.mpr ⟨[], ?_⟩
  rw [hsize]
  simp only [catalogSpelling, catalogHeader, List.append_assoc]
  rw [readCatalog, raw_bind (show catalogMagic.length = 4 from rfl), require_bind rfl, field_bind,
    require_bind rfl, field_bind, require_bind rfl, field_bind, field_bind, field_bind,
    require_bind (by rw [hword]; exact hcount), require_bind (by rw [hword]),
    require_bind (.inr rfl), bind_run hslots, bind_run (remaining_eq_ok.mpr ⟨rfl, rfl⟩),
    require_bind ⟨rfl, h⟩]
  rfl

theorem answer_eq_ok {α : Type} {computed : Except CodecFailure α} {value output : α} :
    answer computed output = (.ok, value) ↔ computed = .ok value := by
  cases computed with
  | ok computed => simp [answer]
  | error why => simp [answer]

theorem answer_unchanged {α : Type} {computed : Except CodecFailure α} {output : α}
    (h : (answer computed output).1 ≠ .ok) : (answer computed output).2 = output := by
  cases computed with
  | ok computed => exact absurd rfl h
  | error why => rfl

/-- The valid catalogues and the byte strings `catalog_decode` accepts are in bijection:
every valid catalogue is encoded, and its bytes are decoded to it; whatever bytes are
accepted, a valid catalogue comes of them, and they are what it is encoded to. A call
that does not succeed leaves its output argument alone. -/
theorem catalog_codec_bijection :
    (∀ value encoded decoded, validCatalog value = true → ∃ bytes,
      catalogEncode true value encoded = (.ok, bytes) ∧
        catalogDecode true bytes decoded = (.ok, value)) ∧
    (∀ allocated bytes value encoded decoded,
      catalogDecode allocated bytes decoded = (.ok, value) →
        validCatalog value = true ∧ catalogEncode true value encoded = (.ok, bytes)) ∧
    (∀ allocated value encoded, (catalogEncode allocated value encoded).1 ≠ .ok →
      (catalogEncode allocated value encoded).2 = encoded) ∧
    (∀ allocated bytes decoded, (catalogDecode allocated bytes decoded).1 ≠ .ok →
      (catalogDecode allocated bytes decoded).2 = decoded) := by
  refine ⟨fun value encoded decoded hvalid => ?_, fun allocated bytes value encoded decoded h => ?_,
    fun _ _ _ => answer_unchanged, fun _ _ _ => answer_unchanged⟩
  · exact ⟨catalogSpelling value, answer_eq_ok.mpr (encodeCatalog_valid hvalid),
      answer_eq_ok.mpr (decodeCatalog_spelling hvalid)⟩
  · obtain ⟨hvalid, rfl⟩ := decodeCatalog_spells (answer_eq_ok.mp h)
    exact ⟨hvalid, answer_eq_ok.mpr (encodeCatalog_valid hvalid)⟩

/-- An item left behind at one in the morning of the epoch, with the rules as they come. -/
def oneCandidate : Record where
  listing := 1
  deathOperation := Vector.ofFn fun index => if index.val < 32 then 'a'.toUInt8 else 0
  beneficiary := 7
  uid := 900
  deathTime := 3600
  collectAt := 46800
  saleAt := 90000
  revision := 1
  itemRevision := 1
  policy := { enabled := true }

/-- The catalogue of that one item goes to its bytes and back. -/
theorem catalog_codec_bijection_one : ∃ bytes,
    catalogEncode true { nextListing := 2, records := [oneCandidate] } [] = (.ok, bytes) ∧
      catalogDecode true bytes {} = (.ok, { nextListing := 2, records := [oneCandidate] }) :=
  catalog_codec_bijection.1 { nextListing := 2, records := [oneCandidate] } [] {}
    (by decide +kernel)

end Duris.Economy.Collector
