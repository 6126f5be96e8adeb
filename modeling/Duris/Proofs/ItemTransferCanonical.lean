import Duris.Lib.Sha256
import Duris.Proofs.ItemRepository

/-!
# One spelling for a transfer

The decoder of version 7 pins almost every byte of a payload. This file reads an
accepted payload back field by field and compares it with what the encoder writes for
what was read. Two fields are spelled anew on purpose: a craft stored under the number of
its draft gets the number it has now, and a single tree that names no target root gets
the item it moves. The two bytes behind the row count are the ones the decoder passes
over without a look.
-/

namespace Duris.Item

open Persistence Player Reader
open Flatfile.Ownership (checked_of_decode)

/-- A payload laid out, with the header fields the encoder chooses for itself left open. -/
def spelling (payload : ItemTransferPayload) (reason : ItemTransferReason) (reserved : Bytes)
    (targetRoot : BitVec 64) (corpse collector : Bytes) : Bytes :=
  encodeOwner payload.fromOwner ++ encodeOwner payload.toOwner ++ appendLe reason ++
    appendLe (BitVec.ofNat 16 payload.items.length) ++ reserved ++ appendLe payload.reasonId ++
    appendLe payload.expectedFromRevision ++ appendLe payload.expectedToRevision ++
    appendLe payload.selectedItemUid ++ appendLe targetRoot ++
    appendLe payload.targetParentItemUid ++ appendLe payload.expectedTargetParentRevision ++
    payload.items.flatMap encodeEntry ++ encodeSection payload.itemBlob ++
    encodeSection corpse ++ encodeSection collector

/-! ## What the readers accept -/

theorem readText_eq_ok {maximum : Nat} {value input rest : Bytes} :
    readText maximum input = .ok (value, rest) ↔
      value.length ≤ maximum ∧ value.length < 2 ^ 32 ∧ input = encodeSection value ++ rest := by
  constructor
  · simp only [readText, bind_eq_ok, pure_eq_ok, require_eq_ok, raw_eq_ok, field_eq_ok]
    rintro ⟨length, _, rfl, _, _, ⟨hmax, rfl⟩, bytes, _, rfl, rfl, rfl⟩
    have hword := length.isLt
    have hlength : BitVec.ofNat 32 bytes.1.length = length := by
      rw [bytes.2, BitVec.ofNat_toNat, BitVec.setWidth_eq]
    rw [encodeSection, hlength, List.append_assoc, bytes.2]
    exact ⟨hmax, hword, rfl⟩
  · rintro ⟨hmax, hword, rfl⟩
    rw [encodeSection, List.append_assoc]
    exact readText_append hmax hword rest

theorem appendText_of_lt {value : Bytes} (h : value.length < 2 ^ 32) :
    appendText value = some (encodeSection value) := by
  rw [appendText, if_neg (by omega)]
  rfl

theorem toList_ofFn_getD {values : List (BitVec 32)} {n : Nat} (h : values.length = n) :
    (Vector.ofFn fun index : Fin n => values.getD index 0).toList = values := by
  subst h
  apply List.ext_getElem
  · simp
  · intro index hindex hbound
    simp [List.getD_eq_getElem?_getD]

variable {encoded corpse : Bytes} {payload : ItemTransferPayload}

theorem decodeCorpseContext_canonical {corpse : ItemCorpseMetadata}
    (h : decodeCorpseContext encoded = some corpse) :
    encodeCorpseContext corpse = some encoded := by
  unfold decodeCorpseContext at h
  split at h
  · next habsent =>
      cases h
      rw [habsent]
      rfl
  · rw [whole_eq_some] at h
    simp only [readCorpse, bind_eq_ok, pure_eq_ok, require_eq_ok, readText_eq_ok, field_eq_ok,
      many_eq_ok fun {_ _ _} => field_eq_ok] at h
    obtain ⟨version, _, rfl, _, _, ⟨rfl, rfl⟩, roomVnum, _, rfl, weight, _, rfl, racewar, _, rfl,
      _, _, ⟨hracewar, rfl⟩, values, _, ⟨hvalues, rfl⟩, ownerName, _, ⟨_, hname, rfl⟩,
      shortDescription, _, ⟨_, hshort, rfl⟩, description, _, ⟨_, hdescription, rfl⟩, keywords, _,
      ⟨_, hkeywords, rfl⟩, rfl, rfl⟩ := h
    -- the byte kept of the racewar word is the whole of it
    have hwide : (racewar.setWidth 8).setWidth 32 = racewar := by
      apply BitVec.eq_of_toNat_eq
      rw [BitVec.toNat_setWidth, BitVec.toNat_setWidth]
      omega
    unfold encodeCorpseContext
    rw [if_neg (by simp)]
    rw [appendText_of_lt hname, appendText_of_lt hshort, appendText_of_lt hdescription,
      appendText_of_lt hkeywords, toList_ofFn_getD hvalues, hwide]
    simp only [Option.bind_eq_bind, Option.bind_some, Option.pure_def, List.append_assoc,
      List.append_nil]

theorem decodeCollectorContext_canonical {collector : ItemCollectorDeathEnrollment}
    (h : decodeCollectorContext encoded = some collector) :
    encodeCollectorContext collector = some encoded := by
  unfold decodeCollectorContext at h
  split at h
  · next habsent =>
      cases h
      rw [habsent]
      rfl
  · rw [whole_eq_some] at h
    simp only [readCollector, bind_eq_ok, pure_eq_ok, require_eq_ok, raw_eq_ok, field_eq_ok,
      many_eq_ok fun {_ _ _} => field_eq_ok] at h
    obtain ⟨version, _, rfl, _, _, ⟨rfl, rfl⟩, operation, _, rfl, beneficiaryPid, _, rfl,
      deathTime, _, rfl, collectionDelay, _, rfl, saleDelay, _, rfl, holdingDuration, _, rfl,
      pricePercent, _, rfl, minimumValue, _, rfl, count, _, rfl, _, _, ⟨hcount, rfl⟩, uids, _,
      ⟨huids, rfl⟩, rfl, rfl⟩ := h
    have hlength : BitVec.ofNat 32 uids.length = count := by
      rw [huids, BitVec.ofNat_toNat, BitVec.setWidth_eq]
    unfold encodeCollectorContext
    rw [if_neg (by simp), if_neg]
    · rw [hlength]
      simp only [CriticalOperationId.ofRaw, List.append_assoc, List.append_nil]
    · simp only [criticalCommandMaxPayloadBytes, collectorFixedSize, itemTransferMaxItems]
        at hcount ⊢
      omega

theorem readSections_eq_ok {sections : Bytes × ItemCorpseMetadata × ItemCollectorDeathEnrollment}
    {input rest : Bytes}
    (h : readSections itemTransferPayloadVersion input = .ok (sections, rest)) :
    ∃ corpse collector, encodeCorpseContext sections.2.1 = some corpse ∧
      encodeCollectorContext sections.2.2 = some collector ∧
      input = encodeSection sections.1 ++ encodeSection corpse ++ encodeSection collector ++
        rest := by
  rw [readSections, if_neg (by decide)] at h
  obtain ⟨itemBlob, _, hblob, h⟩ := bind_eq_ok.mp h
  rw [if_neg (by decide)] at h
  obtain ⟨corpse, _, hcorpse, h⟩ := bind_eq_ok.mp h
  rw [if_neg (by decide)] at h
  obtain ⟨collector, _, hcollector, h⟩ := bind_eq_ok.mp h
  obtain ⟨rfl, rfl⟩ := pure_eq_ok.mp h
  simp only [readCorpseSection, readCollectorSection, readSection, bind_eq_ok, ofOption_eq_ok,
    readText_eq_ok] at hblob hcorpse hcollector
  obtain ⟨-, -, rfl⟩ := hblob
  obtain ⟨corpseBytes, _, ⟨-, -, rfl⟩, hcorpse, rfl⟩ := hcorpse
  obtain ⟨collectorBytes, _, ⟨-, -, rfl⟩, hcollector, rfl⟩ := hcollector
  exact ⟨corpseBytes, collectorBytes, decodeCorpseContext_canonical hcorpse,
    decodeCollectorContext_canonical hcollector, by simp only [List.append_assoc]⟩

/-- An accepted payload of version 7 is the spelling of what was read of it. -/
structure Spelled (bytes : Bytes) (payload : ItemTransferPayload) (wireReason : ItemTransferReason)
    (reserved corpse collector : Bytes) : Prop where
  bytes_eq : bytes = spelling payload wireReason reserved payload.targetRootItemUid corpse collector
  reserved_length : reserved.length = 2
  reason_eq : payload.reason = reasonOf itemTransferPayloadVersion wireReason payload.fromOwner
    payload.toOwner
  /-- A single tree names the item it moves: the decoder takes zero for a batch. -/
  single : payload.multiRoot = false → payload.selectedItemUid ≠ 0
  corpse_eq : encodeCorpseContext payload.corpse = some corpse
  collector_eq : encodeCollectorContext payload.collector = some collector

theorem readPayload_spelled {bytes : Bytes}
    (h : whole (readPayload itemTransferPayloadVersion) bytes = some payload) :
    ∃ wireReason reserved corpse collector,
      Spelled bytes payload wireReason reserved corpse collector := by
  rw [whole_eq_some] at h
  simp only [readPayload, bind_eq_ok, pure_eq_ok, require_eq_ok, raw_eq_ok, decodeOwner_eq_ok,
    field_eq_ok, many_eq_ok decodeEntry_eq_ok] at h
  obtain ⟨fromOwner, _, rfl, toOwner, _, rfl, wireReason, _, rfl, itemCount, _, rfl, reserved, _,
    rfl, reasonId, _, rfl, fromRevision, _, rfl, toRevision, _, rfl, selected, _, rfl, targetRoot,
    _, rfl, targetParent, _, rfl, parentRevision, _, rfl, _, _, ⟨_, rfl⟩, items, _,
    ⟨hcount, rfl⟩, unused, _, hunused, sections, _, hsections, rfl, rfl⟩ := h
  -- every slot of this layout is used
  rw [if_pos (by decide), many, pure_eq_ok] at hunused
  obtain ⟨-, rfl⟩ := hunused
  obtain ⟨corpse, collector, hcorpse, hcollector, rfl⟩ := readSections_eq_ok hsections
  have hitems : BitVec.ofNat 16 items.length = itemCount := by
    rw [hcount, BitVec.ofNat_toNat, BitVec.setWidth_eq]
  refine ⟨wireReason, reserved.1, corpse, collector, ?_, reserved.2, rfl, fun hsingle hzero => ?_,
    hcorpse, hcollector⟩
  · simp only [spelling, hitems, List.append_assoc, List.append_nil]
  · dsimp only at hsingle hzero
    rw [hzero, decide_eq_true (by decide : itemTransferBatchPayloadVersion ≤ _)] at hsingle
    cases hsingle

theorem readPayload_of_decode {sha256 : Bytes → Vector UInt8 32} {command : CriticalCommand}
    (h : itemTransferCommandDecodePayload sha256 command = some payload) :
    whole (readPayload command.payloadVersion) command.payload = some payload := by
  unfold itemTransferCommandDecodePayload at h
  split at h
  · cases h
  · simp only [Option.bind_eq_bind, Option.bind_eq_some_iff] at h
    obtain ⟨decoded, hread, h⟩ := h
    split at h
    · cases h
    · simp only [Option.bind_eq_some_iff] at h
      obtain ⟨_, _, h⟩ := h
      split at h
      · cases h
        exact hread
      · cases h

/-! ## What the encoder makes of it -/

theorem encodeCorpseContext_length (hvalid : validCorpse payload = true)
    (h : encodeCorpseContext payload.corpse = some corpse) : corpse.length ≤ 66879 := by
  unfold encodeCorpseContext at h
  split at h
  · cases h
    exact Nat.zero_le _
  · next hpresent =>
      rw [Bool.not_eq_false] at hpresent
      obtain ⟨hname, hshort, hdescription, hkeywords⟩ := validCorpse_texts hvalid hpresent
      simp only [Option.bind_eq_bind, Option.bind_eq_some_iff, Option.pure_def,
        Option.some.injEq] at h
      obtain ⟨ownerName, hownerName, shortDescription, hshortDescription, description,
        hdescriptionText, keywords, hkeywordsText, rfl⟩ := h
      obtain ⟨_, rfl⟩ := appendText_eq_some hownerName
      obtain ⟨_, rfl⟩ := appendText_eq_some hshortDescription
      obtain ⟨_, rfl⟩ := appendText_eq_some hdescriptionText
      obtain ⟨_, rfl⟩ := appendText_eq_some hkeywordsText
      have hvalues : (payload.corpse.values.toList.flatMap appendLe).length =
          payload.corpse.values.toList.length * 4 :=
        flatMap_length_const (fun value => appendLe_length value) _
      simp only [itemTransferCorpseNameMaxBytes, itemTransferCorpseShortDescriptionMaxBytes,
        itemTransferCorpseDescriptionMaxBytes, itemTransferCorpseKeywordsMaxBytes]
        at hname hshort hdescription hkeywords
      simp only [List.length_append, appendLe_length, hvalues, Vector.length_toList]
      omega

theorem encodeCollectorContext_length {collector : ItemCollectorDeathEnrollment}
    (h : encodeCollectorContext collector = some encoded) :
    encoded.length ≤ collectorFixedSize + 8 * collector.eligibleItemUids.length := by
  unfold encodeCollectorContext at h
  split at h
  · cases h
    exact Nat.zero_le _
  · split at h
    · cases h
    · cases h
      have huids : (collector.eligibleItemUids.flatMap appendLe).length =
          collector.eligibleItemUids.length * 8 :=
        flatMap_length_const (fun uid => appendLe_length uid) _
      simp only [List.length_append, appendLe_length, huids, collector.deathOperation.size_eq,
        collectorFixedSize]
      omega

theorem Checked.encodes {collector : Bytes} (h : Checked payload itemTransferPayloadVersion)
    (hcorpse : encodeCorpseContext payload.corpse = some corpse)
    (hcollector : encodeCollectorContext payload.collector = some collector) :
    itemTransferCommandEncodePayload payload = some (encodeHeader payload ++
      payload.items.flatMap encodeEntry ++ encodeSection payload.itemBlob ++
      encodeSection corpse ++ encodeSection collector) := by
  have hvalid := validatePayload_iff.mpr h
  have hitems := h.count
  have hblob := h.blob
  have huids := validCollectorContext_count h.collector
  have hcorpseSize := encodeCorpseContext_length h.corpse hcorpse
  have hcollectorSize := encodeCollectorContext_length hcollector
  unfold itemTransferCommandEncodePayload
  rw [if_neg (by rw [hvalid]; decide), hcorpse, hcollector]
  simp only [Option.bind_eq_bind, Option.bind_some]
  refine if_neg ?_
  rw [encoded_length]
  simp only [collectorFixedSize, itemTransferMaxItems, itemTransferItemBlobMaxBytes,
    criticalCommandMaxPayloadBytes, itemTransferHeaderBytes, itemTransferEntryBytes] at *
  omega

theorem Spelled.encodes {bytes : Bytes} {wireReason : ItemTransferReason}
    {reserved collector : Bytes} (h : Spelled bytes payload wireReason reserved corpse collector)
    (hchecked : Checked payload itemTransferPayloadVersion) :
    itemTransferCommandEncodePayload payload = some (spelling payload payload.reason [0, 0]
      (storedTargetRoot payload) corpse collector) := by
  have hselected : storedSelected payload = payload.selectedItemUid := by
    cases hmulti : payload.multiRoot with
    | true => exact hchecked.storedSelected_batch hmulti
    | false => rw [storedSelected_single hmulti, effectiveSelected, if_pos (h.single hmulti)]
  rw [hchecked.encodes h.corpse_eq h.collector_eq, encodeHeader, hselected]
  rfl

/-! ## Where the two differ -/

def DraftCraft (bytes : Bytes) (payload : ItemTransferPayload) : Prop :=
  getLe 16 bytes 34 = ItemTransferReason.soulbind ∧ payload.reason = ItemTransferReason.craft

/-- A single tree that leaves its target root to the encoder. -/
def DefaultedRoot (payload : ItemTransferPayload) : Prop :=
  payload.multiRoot = false ∧ payload.targetRootItemUid = 0

/-- The same bytes with the reason and the target root as the encoder writes them. -/
def respelled (bytes : Bytes) (payload : ItemTransferPayload) : Bytes :=
  bytes.take 34 ++ appendLe payload.reason ++ (bytes.drop 36).take 36 ++
    appendLe (storedTargetRoot payload) ++ bytes.drop 80

theorem spelling_cut (payload : ItemTransferPayload) (corpse collector : Bytes) :
    ∃ front middle back : Bytes, front.length = 34 ∧ middle.length = 32 ∧
      ∀ reason reserved targetRoot,
        spelling payload reason reserved targetRoot corpse collector =
          front ++ (appendLe reason ++ (appendLe (BitVec.ofNat 16 payload.items.length) ++
            (reserved ++ (middle ++ (appendLe targetRoot ++ back))))) := by
  refine ⟨encodeOwner payload.fromOwner ++ encodeOwner payload.toOwner,
    appendLe payload.reasonId ++ appendLe payload.expectedFromRevision ++
      appendLe payload.expectedToRevision ++ appendLe payload.selectedItemUid,
    appendLe payload.targetParentItemUid ++ (appendLe payload.expectedTargetParentRevision ++
      (payload.items.flatMap encodeEntry ++ (encodeSection payload.itemBlob ++
        (encodeSection corpse ++ encodeSection collector)))), ?_, ?_, fun _ _ _ => ?_⟩
  · simp [encodeOwner]
  · simp
  · simp only [spelling, List.append_assoc]

section Spelled

variable {bytes : Bytes} {payload : ItemTransferPayload} {wireReason : ItemTransferReason}
  {reserved corpse collector : Bytes}

section

variable (h : Spelled bytes payload wireReason reserved corpse collector)

include h

theorem Spelled.wireReason_eq :
    getLe 16 bytes 34 = wireReason := by
  obtain ⟨front, middle, back, hfront, -, hcut⟩ := spelling_cut payload corpse collector
  rw [h.bytes_eq, hcut, getLe, List.drop_left' hfront, List.take_left' (appendLe_length wireReason),
    ofNat_leNat_appendLe]

theorem Spelled.reserved_eq :
    (bytes.drop 38).take 2 = reserved := by
  obtain ⟨front, middle, back, hfront, -, hcut⟩ := spelling_cut payload corpse collector
  have hbefore : (front ++ appendLe wireReason ++
      appendLe (BitVec.ofNat 16 payload.items.length)).length = 38 := by
    simp [hfront]
  rw [h.bytes_eq, hcut, ← List.append_assoc, ← List.append_assoc, List.drop_left' hbefore,
    List.take_left' h.reserved_length]

theorem Spelled.reason_eq_iff :
    payload.reason = wireReason ↔ ¬DraftCraft bytes payload := by
  rw [DraftCraft, h.wireReason_eq]
  constructor
  · rintro hsame ⟨hwire, hcraft⟩
    rw [hsame, hwire] at hcraft
    exact absurd hcraft (by decide)
  · intro hplain
    have hreason := h.reason_eq
    unfold reasonOf at hreason
    split at hreason
    · next hdraft => exact absurd ⟨hdraft.2.1, hreason⟩ hplain
    · exact hreason

end

theorem Checked.storedTargetRoot_eq_iff (hchecked : Checked payload itemTransferPayloadVersion) :
    storedTargetRoot payload = payload.targetRootItemUid ↔ ¬DefaultedRoot payload := by
  constructor
  · rintro hsame ⟨hsingle, hzero⟩
    have hne := hchecked.effectiveTargetRoot_ne_zero hsingle
    rw [← storedTargetRoot_single hsingle, hsame] at hne
    exact hne hzero
  · intro hnamed
    apply storedTargetRoot_set
    cases hmulti : payload.multiRoot with
    | true => exact .inl rfl
    | false => exact .inr fun hzero => hnamed ⟨hmulti, hzero⟩

theorem Spelled.respelled_eq (h : Spelled bytes payload wireReason [0, 0] corpse collector) :
    spelling payload payload.reason [0, 0] (storedTargetRoot payload) corpse collector =
      respelled bytes payload := by
  obtain ⟨front, middle, back, hfront, hmiddle, hcut⟩ := spelling_cut payload corpse collector
  have hreason : (front ++ appendLe wireReason).length = 36 := by simp [hfront]
  have hbetween : (appendLe (BitVec.ofNat 16 payload.items.length) ++
      ([0, 0] ++ middle)).length = 36 := by simp [hmiddle]
  have hroot : (front ++ (appendLe wireReason ++ (appendLe (BitVec.ofNat 16 payload.items.length) ++
      ([0, 0] ++ (middle ++ appendLe payload.targetRootItemUid))))).length = 80 := by
    simp [hfront, hmiddle]
  have hbytes := h.bytes_eq
  rw [hcut] at hbytes ⊢
  have htail : bytes.drop 80 = back := by
    have hdrop : (_ ++ back).drop 80 = back := List.drop_left' hroot
    simp only [List.append_assoc] at hdrop
    rw [hbytes, hdrop]
  have hmid : (bytes.drop 36).take 36 = appendLe (BitVec.ofNat 16 payload.items.length) ++
      ([0, 0] ++ middle) := by
    rw [hbytes, ← List.append_assoc front, List.drop_left' hreason, ← List.append_assoc [0, 0],
      ← List.append_assoc, List.take_left' hbetween]
  have hhead : bytes.take 34 = front := by rw [hbytes, List.take_left' hfront]
  rw [respelled, hhead, hmid, htail]
  simp only [List.append_assoc]

theorem Spelled.respelled_eq_iff (h : Spelled bytes payload wireReason [0, 0] corpse collector)
    (hchecked : Checked payload itemTransferPayloadVersion) :
    respelled bytes payload = bytes ↔ ¬DraftCraft bytes payload ∧ ¬DefaultedRoot payload := by
  rw [← h.reason_eq_iff, ← hchecked.storedTargetRoot_eq_iff, ← h.respelled_eq]
  obtain ⟨front, middle, back, -, -, hcut⟩ := spelling_cut payload corpse collector
  conv_lhs => rw [h.bytes_eq, hcut, hcut]
  constructor
  · intro hsame
    have hrest := List.append_cancel_left hsame
    obtain ⟨hreason, hrest⟩ := List.append_inj hrest (by simp)
    have hrest := List.append_cancel_left (List.append_cancel_left (List.append_cancel_left hrest))
    obtain ⟨hroot, -⟩ := List.append_inj hrest (by simp)
    exact ⟨appendLe_inj hreason, appendLe_inj hroot⟩
  · rintro ⟨hreason, hroot⟩
    rw [hreason, hroot]

end Spelled

/-- For every accepted command of version 7 the encoder takes what was decoded and, where
the two reserved bytes are zero, gives back the command's own bytes with the reason and
the target root spelled its own way; so the same bytes, unless one of the two was left to
it, and no two spellings of one payload but for the number of a draft. -/
theorem decoded_transfer_respelled {sha256 : Bytes → Vector UInt8 32} {command : CriticalCommand}
    {payload : ItemTransferPayload} (hversion : command.payloadVersion = itemTransferPayloadVersion)
    (hdecode : itemTransferCommandDecodePayload sha256 command = some payload) :
    ∃ encoded, itemTransferCommandEncodePayload payload = some encoded ∧
      ((command.payload.drop 38).take 2 = [0, 0] →
        encoded = respelled command.payload payload ∧
        (encoded = command.payload ↔
          ¬DraftCraft command.payload payload ∧ ¬DefaultedRoot payload) ∧
        ∀ other, other.payloadVersion = itemTransferPayloadVersion →
          itemTransferCommandDecodePayload sha256 other = some payload →
          (other.payload.drop 38).take 2 = [0, 0] →
          (other.payload = command.payload ↔
            getLe 16 other.payload 34 = getLe 16 command.payload 34)) := by
  have hspelled : ∀ command : CriticalCommand, command.payloadVersion = itemTransferPayloadVersion →
      itemTransferCommandDecodePayload sha256 command = some payload →
      ∃ wireReason reserved corpse collector,
        Spelled command.payload payload wireReason reserved corpse collector := by
    intro command hversion hdecode
    have hread := readPayload_of_decode hdecode
    rw [hversion] at hread
    exact readPayload_spelled hread
  obtain ⟨wireReason, reserved, corpse, collector, h⟩ := hspelled command hversion hdecode
  have hchecked := checked_of_decode hdecode
  rw [hversion] at hchecked
  refine ⟨_, h.encodes hchecked, fun hreserved => ?_⟩
  rw [h.reserved_eq] at hreserved
  subst hreserved
  rw [h.respelled_eq]
  refine ⟨rfl, h.respelled_eq_iff hchecked, fun other hversion hdecode hreserved => ?_⟩
  obtain ⟨otherReason, reserved, otherCorpse, otherCollector, hother⟩ :=
    hspelled other hversion hdecode
  rw [hother.reserved_eq] at hreserved
  subst hreserved
  obtain rfl : otherCorpse = corpse :=
    Option.some.inj (hother.corpse_eq.symm.trans h.corpse_eq)
  obtain rfl : otherCollector = collector :=
    Option.some.inj (hother.collector_eq.symm.trans h.collector_eq)
  rw [hother.wireReason_eq, h.wireReason_eq]
  constructor
  · intro hsame
    rw [← hother.wireReason_eq, hsame, h.wireReason_eq]
  · rintro rfl
    rw [hother.bytes_eq, h.bytes_eq]

/-- The payload bytes of a drop: one item, on its own in a room, with `targetRoot` on the
wire. -/
def droppedBytes (targetRoot : BitVec 64) : Bytes :=
  spelling
    { fromOwner := ⟨ItemOwnerType.player, 5, 0⟩
      toOwner := ⟨ItemOwnerType.room, 3001, 0⟩
      reason := ItemTransferReason.playerDrop
      reasonId := 0
      expectedFromRevision := 1
      expectedToRevision := 1
      selectedItemUid := 10
      targetRootItemUid := targetRoot
      targetParentItemUid := 0
      expectedTargetParentRevision := 0
      multiRoot := false
      items := [{
        itemUid := 10, rootItemUid := 10, parentItemUid := 0, expectedItemRevision := 1,
        vnum := 3, expectedState := ItemCustodyState.active }]
      itemBlob := []
      corpse := {}
      collector := {} }
    ItemTransferReason.playerDrop [0, 0] targetRoot [] []

def droppedEntities : List CriticalExpectedRevision :=
  [⟨⟨CriticalEntityType.player, 5⟩, 1⟩, ⟨⟨CriticalEntityType.room, 3001⟩, 1⟩,
    ⟨⟨CriticalEntityType.item, 10⟩, 1⟩]

/-- The bytes are read, checked and encoded again, with the entities of the command. -/
def rereads (bytes : Bytes) : Option (List CriticalExpectedRevision × Bytes) := do
  let payload ← whole (readPayload itemTransferPayloadVersion) bytes
  if validatePayload payload itemTransferPayloadVersion = false then none
  else
    let entities ← commandEntities Sha256.hash payload
    let encoded ← itemTransferCommandEncodePayload payload
    return (entities, encoded)

theorem exists_command_of_rereads {bytes encoded : Bytes}
    (h : rereads bytes = some (droppedEntities, encoded))
    (hsize : payloadSizeValid itemTransferPayloadVersion bytes.length = true) :
    ∃ command payload, command.payloadVersion = itemTransferPayloadVersion ∧
      command.payload = bytes ∧
      itemTransferCommandDecodePayload Sha256.hash command = some payload ∧
      itemTransferCommandEncodePayload payload = some encoded := by
  simp only [rereads, Option.bind_eq_bind, Option.bind_eq_some_iff] at h
  obtain ⟨payload, hread, h⟩ := h
  split at h
  · cases h
  · next hvalid =>
      simp only [Option.bind_eq_some_iff, Option.pure_def, Option.some.injEq] at h
      obtain ⟨entities, hentities, encoded, hencoded, h⟩ := h
      cases h
      have hpopulated : ∃ entities, populateCommandEntities Sha256.hash
          payload = some entities := by
        have hdistinct := adjacentEqual_of_nodup ((List.mergeSort_perm
          (droppedEntities.map CriticalExpectedRevision.key)
            fun a b => !criticalEntityKeyLess b a).nodup_iff.mpr (by decide))
        unfold populateCommandEntities
        rw [hentities]
        simp only [Option.bind_eq_bind, Option.bind_some, hdistinct, Bool.false_eq_true, if_false,
          Option.some.injEq, exists_eq']
      obtain ⟨⟨keys, revisions⟩, hpopulated⟩ := hpopulated
      refine ⟨{
        schemaVersion := criticalCommandSchemaVersion
        operationId := zeroOperationId
        type := CriticalCommandType.itemTransfer
        payloadVersion := itemTransferPayloadVersion
        sourceSite := CriticalSourceSite.command
        deadlineClass := CriticalDeadlineClass.interactive
        acceptedAtUsec := 1
        keys := keys
        expectedRevisions := revisions
        payload := bytes }, payload, rfl, rfl, ?_, hencoded⟩
      unfold itemTransferCommandDecodePayload
      dsimp only
      rw [if_neg (by simp [hsize]), hread]
      show (if validatePayload payload itemTransferPayloadVersion = false ∨ _ then none else _) = _
      rw [if_neg (by
        rw [not_or]
        exact ⟨hvalid, fun hlegacy => absurd hlegacy.1 (by decide)⟩), hpopulated]
      exact if_pos rfl

/-- A drop that names its target root comes back as it was. -/
theorem decoded_transfer_respelled_drop : ∃ command payload encoded,
    itemTransferCommandDecodePayload Sha256.hash command = some payload ∧
      itemTransferCommandEncodePayload payload = some encoded ∧
      encoded = respelled command.payload payload ∧ encoded = command.payload := by
  have hrereads : rereads (droppedBytes 10) = some (droppedEntities, droppedBytes 10) := by
    decide +kernel
  obtain ⟨command, payload, hversion, hbytes, hdecode, hencoded⟩ :=
    exists_command_of_rereads hrereads (by decide +kernel)
  obtain ⟨encoded, hencode, hrespelled⟩ := decoded_transfer_respelled hversion hdecode
  have hreserved : (command.payload.drop 38).take 2 = [0, 0] := by
    rw [hbytes]
    decide +kernel
  refine ⟨command, payload, encoded, hdecode, hencode, (hrespelled hreserved).1, ?_⟩
  rw [hbytes]
  exact Option.some.inj (hencode.symm.trans hencoded)

/-- One that leaves it at zero is accepted too, and comes back with the item it moves. -/
theorem defaulted_root_respelled : ∃ command payload encoded,
    command.payloadVersion = itemTransferPayloadVersion ∧
      (command.payload.drop 38).take 2 = [0, 0] ∧
      itemTransferCommandDecodePayload Sha256.hash command = some payload ∧
      itemTransferCommandEncodePayload payload = some encoded ∧ encoded ≠ command.payload := by
  have hrereads : rereads (droppedBytes 0) = some (droppedEntities, droppedBytes 10) := by
    decide +kernel
  obtain ⟨command, payload, hversion, hbytes, hdecode, hencoded⟩ :=
    exists_command_of_rereads hrereads (by decide +kernel)
  refine ⟨command, payload, _, hversion, ?_, hdecode, hencoded, ?_⟩
  · rw [hbytes]
    decide +kernel
  · rw [hbytes]
    decide +kernel

end Duris.Item
