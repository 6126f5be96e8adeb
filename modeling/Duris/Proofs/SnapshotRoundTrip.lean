import Duris.Proofs.JournalCustody

/-!
# The snapshot codec, both ways

`SnapshotCodec` relates each decoder to the encoding of its wire version. Here that
is closed over the whole of `player_snapshot_decode`: the bytes it accepts are
exactly the spellings, in one of the eight versions, of the snapshots that pass the
checks and fit the counters (`playerSnapshotDecode_iff`).

A current spelling is what the encoder writes, so it is written again. A legacy
spelling is shorter: the encoder adds the preferences, the pets' uids, restore
states and hold reasons, a fixed number of bytes (`legacyGrowth`), and so refuses
exactly the snapshots that no longer fit the size limit.
-/

namespace Duris.Player

open Encoder

def Supported (wireVersion : BitVec 32) : Prop :=
  currentSchema wireVersion = playerSnapshotSchemaVersion ∨
    currentSchema wireVersion = playerSnapshotDeathSchemaVersion

variable {wireVersion : BitVec 32} {s : PlayerSnapshot} {encoded : Bytes} {growth size : Nat}

theorem decodeVersioned_supported {st st' : DecoderState}
    (h : decodeVersioned wireVersion st = .ok (s, st')) : Supported wireVersion := by
  unfold decodeVersioned at h
  obtain ⟨_, mid, hcheck, -⟩ := decoder_bind_eq_ok.mp h
  unfold Decoder.check at hcheck
  split at hcheck
  · next hsupported => exact hsupported
  · cases hcheck

/-- `encoded` is the spelling of `s` at a wire version. -/
structure Spells (wireVersion : BitVec 32) (encoded : Bytes) (s : PlayerSnapshot) : Prop where
  supported : Supported wireVersion
  read : ReadAt wireVersion s
  schema : s.schemaVersion = currentSchema wireVersion
  valid : (encodeBodyAt wireVersion s).valid = true
  bytes : encoded = appendLe wireVersion ++ (encodeBodyAt wireVersion s).bytes
  size : encoded.length ≤ playerSnapshotMaxBytes
  rows : snapshotRows s ≤ playerSnapshotMaxRows
  objects : snapshotObjects s ≤ playerSnapshotMaxObjects
  items : validItemRelationships s.items = true
  pets : s.pets.all (fun pet => validItemRelationships pet.items) = true

theorem playerSnapshotDecode_iff :
    playerSnapshotDecode encoded = .ok s ↔ ∃ wireVersion, Spells wireVersion encoded s := by
  constructor
  · intro h
    obtain ⟨hne, hsize⟩ := playerSnapshotDecode_size h
    rw [playerSnapshotDecode, if_neg hne, if_neg (Nat.not_lt.mpr hsize)] at h
    split at h
    · cases h
    · next read st hread =>
        split at h
        · cases h
        · next hchecks =>
            cases h
            simp only [not_or, not_not, Bool.not_eq_false] at hchecks
            obtain ⟨hdone, hitems, hpets⟩ := hchecks
            rw [decodeSnapshot, decoder_bind_eq_ok] at hread
            obtain ⟨wireVersion, mid, hversion, hbody⟩ := hread
            have hsupported := decodeVersioned_supported hbody
            obtain ⟨-, -, hinput, hrows, hobjects⟩ :=
              (reads_number.iff _ _ _).mp hversion
            obtain ⟨⟨hread, hschema⟩, hvalid, hinput', hrows', hobjects'⟩ :=
              ((reads_versionedAt hsupported).iff _ _ _).mp hbody
            have hrows_le := st.rows_le
            have hobjects_le := st.objects_le
            rw [hdone, List.append_nil] at hinput'
            rw [hinput'] at hinput
            exact ⟨wireVersion, hsupported, hread, hschema, hvalid, hinput, hsize,
              by omega, by omega,
              hitems, hpets⟩
  · intro h
    obtain ⟨wireVersion, h⟩ := h
    have hne : encoded ≠ [] := by
      intro hnil
      have hlen := congrArg List.length h.bytes
      rw [hnil, List.length_append, appendLe_length, List.length_nil] at hlen
      omega
    have hstart : decodeSnapshot (Decoder.start encoded) =
        .ok (s, ⟨[], snapshotRows s, snapshotObjects s, h.rows, h.objects⟩) := by
      rw [decodeSnapshot, decoder_bind_eq_ok]
      refine ⟨wireVersion, ⟨(encodeBodyAt wireVersion s).bytes, 0, 0, Nat.zero_le _, Nat.zero_le _⟩,
        ?_, ?_⟩
      · exact (reads_number.iff _ _ _).mpr ⟨trivial, rfl, h.bytes, rfl, rfl⟩
      · exact ((reads_versionedAt h.supported).iff _ _ _).mpr
          ⟨⟨h.read, h.schema⟩, h.valid, (List.append_nil _).symm, (Nat.zero_add _).symm,
            (Nat.zero_add _).symm⟩
    rw [playerSnapshotDecode, if_neg hne, if_neg (Nat.not_lt.mpr h.size), hstart]
    exact if_neg (by simp [h.items, h.pets])

theorem currentSchema_of_recent (h : 7 ≤ wireVersion) :
    currentSchema wireVersion = wireVersion := by
  have hodd : ¬ (wireVersion = 1 ∨ wireVersion = 3 ∨ wireVersion = 5) := by bv_omega
  have heven : ¬ (wireVersion = 2 ∨ wireVersion = 4 ∨ wireVersion = 6) := by bv_omega
  rw [currentSchema, if_neg hodd, if_neg heven]

theorem encodeSnapshot_bytes (s : PlayerSnapshot) :
    (encodeSnapshot s).bytes = appendLe s.schemaVersion ++ (encodeBody s).bytes := rfl

theorem encodeSnapshot_valid (s : PlayerSnapshot) :
    (encodeSnapshot s).valid = (encodeBody s).valid := rfl

theorem playerSnapshotEncode_of_spells (h : Spells s.schemaVersion (encodeSnapshot s).bytes s) :
    playerSnapshotEncode s = .ok (encodeSnapshot s).bytes := by
  have hrecent : 7 ≤ s.schemaVersion :=
    (currentSchema_of_current (validMetadata_schema h.read.metadata)).1
  have hvalid := h.valid
  rw [encodeBodyAt_current hrecent] at hvalid
  rw [playerSnapshotEncode, if_neg (by simp [h.read.metadata, h.read.validDeath, h.items, h.pets])]
  rw [if_neg (by simp [encodeSnapshot_valid, hvalid, h.size]),
    playerSnapshotDecode_iff.mpr ⟨s.schemaVersion, h⟩]

theorem playerSnapshotEncode_of_recent (h : Spells wireVersion encoded s)
    (hrecent : 7 ≤ wireVersion) : playerSnapshotEncode s = .ok encoded := by
  have hschema : s.schemaVersion = wireVersion := h.schema.trans (currentSchema_of_recent hrecent)
  have hbytes : encoded = (encodeSnapshot s).bytes := by
    rw [h.bytes, encodeSnapshot_bytes, hschema, encodeBodyAt_current hrecent]
  rw [hbytes]
  apply playerSnapshotEncode_of_spells
  rw [← hbytes, hschema]
  exact h

/-- What the current spelling of a pet has more than a legacy one. -/
def petGrowth (wireVersion : BitVec 32) : Nat := if 3 ≤ wireVersion then 8 else 16

def legacyGrowth (wireVersion : BitVec 32) (pets : Nat) : Nat :=
  (if 5 ≤ wireVersion then 0 else 4) + pets * petGrowth wireVersion

/-- `new` is `old` with `growth` bytes more. -/
def Grows (old new : Encoder) (growth : Nat) : Prop :=
  old.valid = true → new.valid = true ∧ new.bytes.length = old.bytes.length + growth

theorem Grows.refl (part : Encoder) : Grows part part 0 := fun h => ⟨h, rfl⟩

theorem Grows.append {old new old' new' : Encoder} {growth' : Nat} (h : Grows old new growth)
    (h' : Grows old' new' growth') : Grows (old ++ old') (new ++ new') (growth + growth') := by
  intro hvalid
  rw [append_valid, Bool.and_eq_true] at hvalid
  obtain ⟨hnew, hlength⟩ := h hvalid.1
  obtain ⟨hnew', hlength'⟩ := h' hvalid.2
  rw [append_valid, hnew, hnew', append_bytes, append_bytes, List.length_append,
    List.length_append, hlength, hlength']
  exact ⟨rfl, by omega⟩

theorem Grows.same {old new part : Encoder} (h : Grows old new growth) :
    Grows (part ++ old) (part ++ new) growth := by
  have hall := (Grows.refl part).append h
  rwa [Nat.zero_add] at hall

theorem grows_since {c : Prop} [Decidable c] {part : Encoder}
    (h : ¬ c → part.valid = true ∧ part.bytes.length = size) :
    Grows (since c part) part (if c then 0 else size) := by
  by_cases hc : c
  · rw [since, if_pos hc, if_pos hc]
    exact .refl part
  · rw [since, if_neg hc, if_neg hc]
    intro _
    exact ⟨(h hc).1, by rw [(h hc).2]; exact (Nat.zero_add size).symm⟩

theorem grows_vector {α : Type} {old new : α → Encoder} (values : List α)
    (h : ∀ value ∈ values, Grows (old value) (new value) growth) :
    Grows (vector old values) (vector new values) (values.length * growth) := by
  have hrows : Grows (all (values.map old)) (all (values.map new)) (values.length * growth) := by
    induction values with
    | nil =>
        rw [List.length_nil, Nat.zero_mul]
        exact .refl _
    | cons value values ih =>
        rw [List.forall_mem_cons] at h
        rw [List.length_cons, Nat.succ_mul, Nat.add_comm]
        exact h.1.append (ih h.2)
  rw [vector, vector]
  split
  · intro hvalid
    cases hvalid
  · exact hrows.same

theorem number_size {n : Nat} (x : BitVec n) :
    (number x).valid = true ∧ (number x).bytes.length = n / 8 := ⟨rfl, appendLe_length x⟩

theorem string_nil_size (maximum : Nat) :
    (string maximum []).valid = true ∧ (string maximum []).bytes.length = 4 := by
  simp [string]

theorem grows_pet (hlegacy : ¬ 7 ≤ wireVersion) {pet : PlayerPetSnapshot}
    (h : PetAt wireVersion pet) :
    Grows (encodePetAt wireVersion pet) (encodePet pet) (petGrowth wireVersion) := by
  have hgrowth : petGrowth wireVersion = (if 7 ≤ wireVersion then 0 else 64 / 8) +
      ((if 3 ≤ wireVersion then 0 else 4) + ((if 3 ≤ wireVersion then 0 else 32 / 8) + 0)) := by
    rw [petGrowth, if_neg hlegacy]
    split <;> rfl
  rw [hgrowth]
  refine (grows_since fun _ => number_size _).append ?_
  iterate 11 apply Grows.same
  refine (grows_since fun hold => ?_).append ((grows_since fun _ => number_size _).append (.refl _))
  rw [h.restoreState hold]
  exact string_nil_size _

theorem grows_body (hlegacy : ¬ 7 ≤ wireVersion) (h : SectionsAt wireVersion s) :
    Grows (encodeBodyAt wireVersion s) (encodeBody s)
      (legacyGrowth wireVersion s.pets.length) := by
  have hgrowth : legacyGrowth wireVersion s.pets.length =
      s.pets.length * petGrowth wireVersion + ((if 5 ≤ wireVersion then 0 else 4) + 0) := by
    rw [legacyGrowth]
    omega
  rw [hgrowth]
  iterate 19 apply Grows.same
  refine (grows_vector s.pets fun pet hpet => grows_pet hlegacy (h.pets pet hpet)).append ?_
  iterate 3 apply Grows.same
  refine (grows_since fun hold => ?_).append (.refl _)
  rw [h.outputPreferences hold]
  exact string_nil_size _

theorem Spells.again (h : Spells wireVersion encoded s) (hlegacy : ¬ 7 ≤ wireVersion) :
    (encodeSnapshot s).bytes.length = encoded.length + legacyGrowth wireVersion s.pets.length ∧
      ((encodeSnapshot s).bytes.length ≤ playerSnapshotMaxBytes →
        Spells s.schemaVersion (encodeSnapshot s).bytes s) := by
  obtain ⟨hvalid, hlength⟩ := grows_body hlegacy h.read.sections h.valid
  have hcurrent := validMetadata_schema h.read.metadata
  obtain ⟨hrecent, hschema⟩ := currentSchema_of_current hcurrent
  refine ⟨?_, fun hsize => ?_⟩
  · rw [encodeSnapshot_bytes, h.bytes, List.length_append, List.length_append, appendLe_length,
      appendLe_length, hlength]
    omega
  · refine
      { supported := by rw [Supported, hschema]; exact hcurrent
        read := ⟨h.read.death, sectionsAt_current hrecent s, h.read.metadata, h.read.validDeath⟩
        schema := hschema.symm
        valid := by rw [encodeBodyAt_current hrecent]; exact hvalid
        bytes := by rw [encodeBodyAt_current hrecent]; rfl
        size := hsize
        rows := h.rows
        objects := h.objects
        items := h.items
        pets := h.pets }

theorem playerSnapshotEncode_of_large (hmeta : validMetadata s = true)
    (hitems : validItemRelationships s.items = true)
    (hpets : s.pets.all (fun pet => validItemRelationships pet.items) = true)
    (hdeath : validDeath s = true)
    (hsize : playerSnapshotMaxBytes < (encodeSnapshot s).bytes.length) :
    playerSnapshotEncode s = .error .limitExceeded := by
  rw [playerSnapshotEncode, if_neg (by simp [hmeta, hitems, hpets, hdeath])]
  exact if_pos (.inr hsize)

def wireVersionOf (encoded : Bytes) : Option (BitVec 32) := (readLe 32 encoded).map Prod.fst

theorem Spells.wireVersionOf_eq (h : Spells wireVersion encoded s) :
    wireVersionOf encoded = some wireVersion := by
  rw [wireVersionOf, h.bytes, readLe_append, Option.map_some]

/-- The snapshot codec. What encodes decodes to itself; what decodes from a current
wire version encodes to the bytes it came from; and what decodes from a legacy
version is encoded, and decodes to itself again, if the bytes the current version
adds still fit the limit, and is otherwise refused as too large. -/
theorem playerSnapshot_codec_round_trip :
    (∀ (s : PlayerSnapshot) (encoded : Bytes), playerSnapshotEncode s = .ok encoded →
      playerSnapshotDecode encoded = .ok s) ∧
    (∀ (encoded : Bytes) (s : PlayerSnapshot), playerSnapshotDecode encoded = .ok s →
      wireVersionOf encoded = some 7 ∨ wireVersionOf encoded = some 8 →
      playerSnapshotEncode s = .ok encoded) ∧
    ∀ (encoded : Bytes) (s : PlayerSnapshot) (wireVersion : BitVec 32),
      playerSnapshotDecode encoded = .ok s → wireVersionOf encoded = some wireVersion →
      wireVersion < 7 →
      (encoded.length + legacyGrowth wireVersion s.pets.length ≤ playerSnapshotMaxBytes →
        ∃ again, playerSnapshotEncode s = .ok again ∧ playerSnapshotDecode again = .ok s) ∧
      (playerSnapshotMaxBytes < encoded.length + legacyGrowth wireVersion s.pets.length →
        playerSnapshotEncode s = .error .limitExceeded) := by
  refine ⟨?_, ?_, ?_⟩
  · intro s encoded h
    exact (playerSnapshotDecode_encode h).1
  · intro encoded s hdecode hversion
    obtain ⟨wireVersion, h⟩ := playerSnapshotDecode_iff.mp hdecode
    rw [h.wireVersionOf_eq, Option.some.injEq, Option.some.injEq] at hversion
    have hrecent : 7 ≤ wireVersion := by
      rcases hversion with rfl | rfl <;> decide
    exact playerSnapshotEncode_of_recent h hrecent
  · intro encoded s wireVersion hdecode hversion hlegacy
    obtain ⟨wireVersion', h⟩ := playerSnapshotDecode_iff.mp hdecode
    rw [h.wireVersionOf_eq, Option.some.injEq] at hversion
    subst hversion
    obtain ⟨hlength, hagain⟩ := h.again (BitVec.not_le.mpr hlegacy)
    rw [← hlength]
    refine ⟨fun hfits => ?_, fun hlarge => ?_⟩
    · have hspells := hagain hfits
      exact ⟨_, playerSnapshotEncode_of_spells hspells,
        playerSnapshotDecode_iff.mpr ⟨s.schemaVersion, hspells⟩⟩
    · exact playerSnapshotEncode_of_large h.read.metadata h.items h.pets h.read.validDeath hlarge

theorem all_replicate (part : Encoder) (n : Nat) (hvalid : part.valid = true) :
    (all (List.replicate n part)).valid = true ∧
      (all (List.replicate n part)).bytes.length = n * part.bytes.length := by
  induction n with
  | zero => exact ⟨rfl, by simp⟩
  | succ n ih =>
      rw [List.replicate_succ, all_cons, append_valid, append_bytes, List.length_append, hvalid,
        ih.1, ih.2, Nat.succ_mul]
      exact ⟨rfl, by omega⟩

/-- A snapshot of `rows` long names, of `size` bytes each. -/
def namedSnapshot (rows size : Nat) : PlayerSnapshot :=
  { bareSnapshot 7 1 [] with statusStrings := List.replicate rows ⟨0, List.replicate size 0⟩ }

theorem namedSnapshot_grows {rows : Nat} (hrows : rows ≤ playerSnapshotMaxRows)
    (hsize : size ≤ playerSnapshotMaxStringBytes) :
    Grows (encodeBodyAt 1 (bareSnapshot 7 1 [])) (encodeBodyAt 1 (namedSnapshot rows size))
      (rows * (5 + size)) := by
  have hrow : (encodeStatusString ⟨0, List.replicate size 0⟩).valid = true ∧
      (encodeStatusString ⟨0, List.replicate size 0⟩).bytes.length = 5 + size := by
    simp only [encodeStatusString, text, string, List.length_replicate,
      if_neg (Nat.not_lt.mpr hsize), all_cons, all_nil, append_valid, append_bytes,
      List.length_append, appendLe_length, enumerator, number, List.length_nil]
    exact ⟨rfl, by omega⟩
  have hall := all_replicate _ rows hrow.1
  have hstrings : Grows (vector encodeStatusString [])
      (vector encodeStatusString (List.replicate rows ⟨0, List.replicate size 0⟩))
      (rows * (5 + size)) := by
    intro _
    rw [vector, vector, if_neg (by rw [List.length_replicate]; omega), if_neg (by simp),
      List.map_replicate, append_valid, append_bytes, append_bytes, List.length_append,
      List.length_append, hall.1, hall.2, hrow.2]
    exact ⟨rfl, by simp [number]⟩
  iterate 7 apply Grows.same
  exact hstrings.append (.refl _)

def namedSpelling (rows size : Nat) : Bytes :=
  appendLe (1 : BitVec 32) ++ (encodeBodyAt 1 (namedSnapshot rows size)).bytes

theorem namedSpelling_size {rows : Nat} (hrows : rows ≤ playerSnapshotMaxRows)
    (hsize : size ≤ playerSnapshotMaxStringBytes) :
    (encodeBodyAt 1 (namedSnapshot rows size)).valid = true ∧
      (namedSpelling rows size).length = 173 + rows * (5 + size) := by
  have hbare : (encodeBodyAt 1 (bareSnapshot 7 1 [])).valid = true ∧
      (encodeBodyAt 1 (bareSnapshot 7 1 [])).bytes.length = 169 := by decide +kernel
  obtain ⟨hvalid, hlength⟩ := namedSnapshot_grows hrows hsize hbare.1
  refine ⟨hvalid, ?_⟩
  rw [namedSpelling, List.length_append, appendLe_length, hlength, hbare.2]
  omega

theorem namedSnapshot_spells {rows : Nat} (hrows : rows ≤ playerSnapshotMaxRows)
    (hsize : size ≤ playerSnapshotMaxStringBytes)
    (hfits : 173 + rows * (5 + size) ≤ playerSnapshotMaxBytes) :
    Spells 1 (namedSpelling rows size) (namedSnapshot rows size) := by
  obtain ⟨hvalid, hlength⟩ := namedSpelling_size hrows hsize
  have hmeta : validMetadata (bareSnapshot 7 1 []) = true := by decide
  have hcount : snapshotRows (namedSnapshot rows size) = rows := by
    simp only [snapshotRows, namedSnapshot, bareSnapshot, List.length_replicate]
    show 0 + (rows + 0) = rows
    omega
  exact
    { supported := .inl rfl
      read := ⟨rfl, ⟨fun _ hpet => absurd hpet List.not_mem_nil, fun _ => rfl⟩, hmeta, rfl⟩
      schema := rfl
      valid := hvalid
      bytes := rfl
      size := by rw [hlength]; exact hfits
      rows := by rw [hcount]; exact hrows
      objects := Nat.zero_le _
      items := rfl
      pets := rfl }

/-- A version 1 spelling just under the limit decodes to a snapshot that is not
encoded again. -/
theorem legacy_snapshot_refused :
    playerSnapshotDecode (namedSpelling 394 10640) = .ok (namedSnapshot 394 10640) ∧
      wireVersionOf (namedSpelling 394 10640) = some 1 ∧
      playerSnapshotEncode (namedSnapshot 394 10640) = .error .limitExceeded := by
  have h : Spells 1 (namedSpelling 394 10640) (namedSnapshot 394 10640) :=
    namedSnapshot_spells (by decide) (by decide) (by decide)
  refine ⟨playerSnapshotDecode_iff.mpr ⟨1, h⟩, h.wireVersionOf_eq, ?_⟩
  apply playerSnapshotEncode_of_large h.read.metadata h.items h.pets h.read.validDeath
  have hsize : (namedSpelling 394 10640).length = 173 + 394 * (5 + 10640) :=
    (namedSpelling_size (by decide) (by decide)).2
  rw [(h.again (by decide)).1, hsize]
  decide

/-- A small one is. -/
theorem playerSnapshot_codec_round_trip_legacy :
    playerSnapshotDecode (namedSpelling 1 3) = .ok (namedSnapshot 1 3) ∧
      ∃ again, playerSnapshotEncode (namedSnapshot 1 3) = .ok again ∧
        playerSnapshotDecode again = .ok (namedSnapshot 1 3) := by
  have h : Spells 1 (namedSpelling 1 3) (namedSnapshot 1 3) :=
    namedSnapshot_spells (by decide) (by decide) (by decide)
  have hsize : (namedSpelling 1 3).length = 173 + 1 * (5 + 3) :=
    (namedSpelling_size (by decide) (by decide)).2
  have hdecode := playerSnapshotDecode_iff.mpr ⟨1, h⟩
  have hfits : (namedSpelling 1 3).length + legacyGrowth 1 (namedSnapshot 1 3).pets.length ≤
      playerSnapshotMaxBytes := by
    rw [hsize]
    decide
  exact ⟨hdecode, (playerSnapshot_codec_round_trip.2.2 _ _ 1 hdecode h.wireVersionOf_eq
    (by decide)).1 hfits⟩

end Duris.Player
