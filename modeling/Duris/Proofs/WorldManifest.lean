import Duris.Redis.WorldManifest

/-!
# A stored generation reads back

`decode_manifest` finds in a manifest what `encode_manifest` put there, and reading a
generation whose manifest and chunks are in the store gives the bytes they were made
from. The chunks of a generation are its bytes cut every mebibyte; all the sizes are
within the widths of the manifest's fields because a generation is bounded.
-/

namespace Duris.Redis

theorem worldGenerationChunkBytes_pos : 0 < worldGenerationChunkBytes := by decide

theorem lt_chunkCount {size index : Nat} :
    index < chunkCount size ↔ index * worldGenerationChunkBytes < size := by
  have hpos := worldGenerationChunkBytes_pos
  rw [chunkCount, Nat.lt_iff_add_one_le, Nat.le_div_iff_mul_le hpos, Nat.add_mul, Nat.one_mul]
  omega

theorem chunkCount_pos {size : Nat} (h : 0 < size) : 0 < chunkCount size := by
  rw [lt_chunkCount, Nat.zero_mul]
  exact h

theorem chunkOf_length (data : Bytes) (index : Nat) :
    (chunkOf data index).length =
      min worldGenerationChunkBytes (data.length - index * worldGenerationChunkBytes) := by
  rw [chunkOf, List.length_take, List.length_drop]

theorem chunkOf_append_drop (data : Bytes) (index : Nat) :
    chunkOf data index ++ data.drop ((index + 1) * worldGenerationChunkBytes) =
      data.drop (index * worldGenerationChunkBytes) := by
  rw [chunkOf, Nat.add_mul, Nat.one_mul, ← List.drop_drop, List.take_append_drop]

theorem boundedString_of_length {bytes : Bytes} {maximumBytes expectedBytes : Nat}
    (hne : 0 < expectedBytes) (hmax : expectedBytes ≤ maximumBytes)
    (hlength : bytes.length = expectedBytes) :
    boundedString (some bytes) maximumBytes expectedBytes = some bytes := by
  rw [boundedString, Option.bind_some, if_neg]
  omega

theorem readChunks_stored {chunk : ChunkKey → Option Bytes} {sequence : Sequence}
    {entry : ManifestEntry} {data : Bytes} (hsize : entry.generationSize = data.length)
    (hstored : ∀ index < chunkCount data.length,
      chunk ⟨sequence, entry.uploadToken, index⟩ = some (chunkOf data index)) :
    ∀ remaining index, index + remaining = chunkCount data.length →
      readChunks chunk sequence entry index remaining =
        some (data.drop (index * worldGenerationChunkBytes)) := by
  intro remaining
  induction remaining with
  | zero =>
      intro index hcount
      have hend : ¬ index < chunkCount data.length := by omega
      rw [lt_chunkCount] at hend
      rw [readChunks, List.drop_eq_nil_of_le (by omega)]
  | succ remaining ih =>
      intro index hcount
      have hindex : index < chunkCount data.length := by omega
      have hpos := worldGenerationChunkBytes_pos
      have hlength := chunkOf_length data index
      have hread : boundedString (some (chunkOf data index)) worldGenerationChunkBytes
          (min worldGenerationChunkBytes
            (data.length - index * worldGenerationChunkBytes)) = some (chunkOf data index) := by
        rw [lt_chunkCount] at hindex
        exact boundedString_of_length (by omega) (Nat.min_le_left _ _) hlength
      rw [readChunks, hstored index hindex, hsize, hread, Option.bind_some,
        ih (index + 1) (by omega), Option.map_some, chunkOf_append_drop]

variable {crypto : Crypto} {config : Config} {sequence : Sequence} {data : Bytes}
  {uploadToken : Token} {manifest : Bytes}

theorem manifestPrefix_length :
    (manifestPrefix crypto data uploadToken).length = 88 := by
  simp [manifestPrefix, manifestMagic, uploadToken.size, crypto.sha256_length]

theorem manifestTag_length {signed secret tag : Bytes}
    (h : manifestTag crypto config sequence signed secret = some tag) : tag.length = 32 := by
  rw [manifestTag] at h
  split at h
  · cases h
  · cases h
    exact crypto.hmac_length _ _

theorem manifestTag_append {signed rest secret : Bytes} (hsigned : signed.length = 88) :
    manifestTag crypto config sequence (signed ++ rest) secret =
      manifestTag crypto config sequence signed secret := by
  rw [manifestTag, manifestTag, List.take_append_of_le_length hsigned.ge]

/-- What `encode_manifest` has checked, and what it returns. -/
structure Encoded (crypto : Crypto) (config : Config) (sequence : Sequence) (data : Bytes)
    (uploadToken : Token) (manifest : Bytes) : Prop where
  numbered : sequence ≠ 0
  nonempty : 0 < data.length
  bounded : data.length ≤ worldRecoveryMaxBytes
  chunks : chunkCount data.length ≤ worldGenerationMaxChunks
  tag : ∃ tag,
    manifestTag crypto config sequence (manifestPrefix crypto data uploadToken) config.secret =
      some tag ∧ manifest = manifestPrefix crypto data uploadToken ++ tag

theorem encodeManifest_eq_some
    (h : encodeManifest crypto config sequence data uploadToken = some manifest) :
    Encoded crypto config sequence data uploadToken manifest := by
  rw [encodeManifest] at h
  split at h
  · cases h
  · next hinput =>
      split at h
      · cases h
      · next hchunks =>
          simp only [not_or, Nat.not_lt, ← List.length_pos_iff, ← ne_eq] at hinput hchunks
          obtain ⟨tag, htag, hmanifest⟩ := Option.map_eq_some_iff.mp h
          exact ⟨hinput.2.1, hinput.2.2.1, hinput.2.2.2, hchunks.2, tag, htag, hmanifest.symm⟩

namespace Encoded

variable (h : Encoded crypto config sequence data uploadToken manifest)

include h

theorem length : manifest.length = worldGenerationManifestBytes := by
  obtain ⟨tag, htag, rfl⟩ := h.tag
  rw [List.length_append, manifestPrefix_length, manifestTag_length htag]
  rfl

theorem tagged : tagged crypto config sequence manifest config.secret = true := by
  obtain ⟨tag, htag, rfl⟩ := h.tag
  have hfield : manifestField (manifestPrefix crypto data uploadToken ++ tag) 88 32 = tag := by
    rw [manifestField, List.drop_append_of_le_length manifestPrefix_length.ge,
      List.drop_eq_nil_of_le manifestPrefix_length.le, List.nil_append,
      List.take_of_length_le (manifestTag_length htag).le]
  rw [Redis.tagged, manifestTag_append manifestPrefix_length, htag, hfield, beq_self_eq_true]

theorem fields : ∃ tail,
    manifest = manifestMagic ++ (leBytes 4 2 ++ (leBytes 8 data.length ++
      (leBytes 4 (chunkCount data.length) ++ (leBytes 4 worldGenerationChunkBytes ++
        (uploadToken.text ++ (crypto.sha256 data ++ tail)))))) := by
  obtain ⟨tag, -, rfl⟩ := h.tag
  exact ⟨tag, by simp only [manifestPrefix, List.append_assoc]⟩

end Encoded

theorem manifestField_append {before field after : Bytes} {offset size : Nat}
    (hoffset : before.length = offset) (hsize : field.length = size) :
    manifestField (before ++ (field ++ after)) offset size = field := by
  rw [manifestField, List.drop_append_of_le_length hoffset.ge,
    List.drop_eq_nil_of_le hoffset.le, List.nil_append,
    List.take_append_of_le_length hsize.ge, List.take_of_length_le hsize.le]

theorem token_ofText (token : Token) : Token.ofText token.text = some token := by
  rw [Token.ofText, dif_pos token.size, dif_pos token.hex]

theorem leNat_leBytes_of_lt {width n : Nat} (h : n < 256 ^ width) :
    leNat (leBytes width n) = n := by
  rw [leNat_leBytes, Nat.mod_eq_of_lt h]

theorem decodeManifest_encodeManifest
    (hencode : encodeManifest crypto config sequence data uploadToken = some manifest) :
    decodeManifest crypto config sequence manifest =
      some ⟨data.length, chunkCount data.length, uploadToken, crypto.sha256 data⟩ := by
  have h := encodeManifest_eq_some hencode
  have hlength := h.length
  have htagged := h.tagged
  obtain ⟨tail, hfields⟩ := h.fields
  have htoken := uploadToken.size
  have hdigest := crypto.sha256_length data
  have hmagic : manifestField manifest 0 4 = manifestMagic := by
    rw [hfields, ← List.nil_append (manifestMagic ++ _)]
    exact manifestField_append rfl rfl
  have hversion : manifestField manifest 4 4 = leBytes 4 2 := by
    rw [hfields]
    exact manifestField_append rfl (leBytes_length 4 2)
  have hsize : manifestField manifest 8 8 = leBytes 8 data.length := by
    rw [hfields, ← List.append_assoc]
    exact manifestField_append (by simp [manifestMagic]) (leBytes_length 8 _)
  have hcount : manifestField manifest 16 4 = leBytes 4 (chunkCount data.length) := by
    rw [hfields, ← List.append_assoc, ← List.append_assoc]
    exact manifestField_append (by simp [manifestMagic]) (leBytes_length 4 _)
  have hchunk : manifestField manifest 20 4 = leBytes 4 worldGenerationChunkBytes := by
    rw [hfields, ← List.append_assoc, ← List.append_assoc, ← List.append_assoc]
    exact manifestField_append (by simp [manifestMagic]) (leBytes_length 4 _)
  have htext : manifestField manifest 24 32 = uploadToken.text := by
    rw [hfields, ← List.append_assoc, ← List.append_assoc, ← List.append_assoc,
      ← List.append_assoc]
    exact manifestField_append (by simp [manifestMagic]) htoken
  have hhash : manifestField manifest 56 32 = crypto.sha256 data := by
    rw [hfields, ← List.append_assoc, ← List.append_assoc, ← List.append_assoc,
      ← List.append_assoc, ← List.append_assoc]
    exact manifestField_append (by simp [manifestMagic, htoken]) hdigest
  have hbound : worldRecoveryMaxBytes < 256 ^ 8 := by decide
  have hchunks : worldGenerationMaxChunks < 256 ^ 4 := by decide
  have htwo : leNat (leBytes 4 2) = 2 := leNat_leBytes_of_lt (by decide)
  have hmebibyte : leNat (leBytes 4 worldGenerationChunkBytes) = worldGenerationChunkBytes :=
    leNat_leBytes_of_lt (by decide)
  have htotal : leNat (leBytes 8 data.length) = data.length :=
    leNat_leBytes_of_lt (lt_of_le_of_lt h.bounded hbound)
  have hwhole : leNat (leBytes 4 (chunkCount data.length)) = chunkCount data.length :=
    leNat_leBytes_of_lt (lt_of_le_of_lt h.chunks hchunks)
  have hpos := chunkCount_pos h.nonempty
  have hnonempty := h.nonempty
  have hbounded := h.bounded
  have hcounted := h.chunks
  rw [decodeManifest, hmagic, hversion, hchunk, htwo, hmebibyte, if_neg, htagged,
    Bool.true_or, Bool.not_true, if_neg Bool.false_ne_true, hsize, hcount, htotal, hwhole, htext,
    token_ofText, hhash, if_neg]
  · rfl
  · omega
  · simp only [ne_eq, not_true_eq_false, or_false, not_or, not_not]
    exact ⟨h.numbered, hlength⟩

theorem readGeneration_stored {generation : Sequence → Option Bytes}
    {chunk : ChunkKey → Option Bytes}
    (hencode : encodeManifest crypto config sequence data uploadToken = some manifest)
    (hmanifest : generation sequence = some manifest)
    (hstored : ∀ index < chunkCount data.length,
      chunk ⟨sequence, uploadToken, index⟩ = some (chunkOf data index)) :
    readManifest crypto config generation sequence =
        some ⟨data.length, chunkCount data.length, uploadToken, crypto.sha256 data⟩ ∧
      readGeneration crypto config generation chunk sequence = some data := by
  have hlength := (encodeManifest_eq_some hencode).length
  have hread : readManifest crypto config generation sequence =
      some ⟨data.length, chunkCount data.length, uploadToken, crypto.sha256 data⟩ := by
    rw [readManifest, hmanifest, boundedString_of_length (by decide) le_rfl hlength,
      Option.bind_some, decodeManifest_encodeManifest hencode]
  have hchunks : readChunks chunk sequence
      ⟨data.length, chunkCount data.length, uploadToken, crypto.sha256 data⟩ 0
      (chunkCount data.length) = some (data.drop (0 * worldGenerationChunkBytes)) :=
    readChunks_stored rfl hstored _ 0 (Nat.zero_add _)
  refine ⟨hread, ?_⟩
  rw [readGeneration, hread, Option.bind_some, hchunks, Option.bind_some, Nat.zero_mul,
    List.drop_zero, if_pos rfl]

end Duris.Redis
