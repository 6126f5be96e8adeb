import Duris.Item.TransferCommand
import Duris.Proofs.CommandKeys

/-!
# A built transfer and its way back

`item_transfer_command_build` writes a payload with its defaults filled in, and the
decoder reads the defaults as if the caller had set them. `stored` is the payload with
the defaults in place. The file shows that the bytes of a payload read back as
`stored`, that the check does not tell the two apart, and neither do the entities of
the command; what is left of the round trip is then a comparison of the two payloads,
where one default shows, and the number of keys, where one combination is over the
limit.
-/

namespace Duris.Item

open Persistence Player Reader

/-- The payload as the decoder sees it: the selected item and the target root with
their defaults, and nothing in a section that is absent. -/
def stored (payload : ItemTransferPayload) : ItemTransferPayload :=
  { payload with
    selectedItemUid := storedSelected payload
    targetRootItemUid := storedTargetRoot payload
    corpse := if payload.corpse.present then payload.corpse else {}
    collector := if payload.collector.present then payload.collector else {} }

/-! ## Reading the bytes back -/

theorem decodeOwner_eq_ok {owner : ItemOwnerIdentity} {input rest : Bytes} :
    decodeOwner input = .ok (owner, rest) ↔ input = encodeOwner owner ++ rest := by
  simp only [decodeOwner, bind_eq_ok, pure_eq_ok, field_eq_ok]
  constructor
  · rintro ⟨type, _, rfl, id, _, rfl, contextId, _, rfl, rfl, rfl⟩
    simp [encodeOwner]
  · rintro rfl
    exact ⟨owner.type, _, by rw [encodeOwner, List.append_assoc, List.append_assoc],
      owner.id, _, rfl, owner.contextId, rest, rfl, rfl, rfl⟩

theorem decodeEntry_eq_ok {entry : ItemTransferEntry} {input rest : Bytes} :
    decodeEntry input = .ok (entry, rest) ↔ input = encodeEntry entry ++ rest := by
  simp only [decodeEntry, bind_eq_ok, pure_eq_ok, require_eq_ok, raw_eq_ok, field_eq_ok]
  constructor
  · rintro ⟨itemUid, _, rfl, root, _, rfl, parent, _, rfl, revision, _, rfl, vnum, _, rfl,
      state, _, rfl, padding, _, rfl, _, _, ⟨hpad, rfl⟩, rfl, rfl⟩
    simp only [encodeEntry, List.append_assoc, hpad]
  · rintro rfl
    refine ⟨entry.itemUid, _, by simp only [encodeEntry, List.append_assoc],
      entry.rootItemUid, _, rfl, entry.parentItemUid, _, rfl, entry.expectedItemRevision, _, rfl,
      entry.vnum, _, rfl, entry.expectedState, _, rfl, ⟨List.replicate 3 0, rfl⟩, _, rfl,
      (), rest, ⟨rfl, rfl⟩, rfl, rfl⟩

variable {value encoded : Bytes} {payload : ItemTransferPayload} {version : BitVec 16}

theorem readText_append {maximum : Nat} (hmax : value.length ≤ maximum)
    (hword : value.length < 2 ^ 32) (rest : Bytes) :
    readText maximum (appendLe (BitVec.ofNat 32 value.length) ++ (value ++ rest)) =
      .ok (value, rest) := by
  have hlength : value.length = (BitVec.ofNat 32 value.length).toNat := by
    rw [BitVec.toNat_ofNat, Nat.mod_eq_of_lt hword]
  rw [readText, field_bind, require_bind (by rw [← hlength]; exact hmax), raw_bind hlength]
  rfl

theorem appendText_eq_some (h : appendText value = some encoded) :
    value.length < 2 ^ 32 ∧ encoded = appendLe (BitVec.ofNat 32 value.length) ++ value := by
  unfold appendText at h
  split at h
  · cases h
  · next hlt =>
      cases h
      exact ⟨by omega, rfl⟩

theorem validText_length {maximum : Nat} {required : Bool}
    (h : validText value maximum required = true) : value.length ≤ maximum := by
  unfold validText at h
  split at h
  · cases h
  · omega

theorem validCorpse_texts (h : validCorpse payload = true)
    (hpresent : payload.corpse.present = true) :
    payload.corpse.ownerName.length ≤ itemTransferCorpseNameMaxBytes ∧
      payload.corpse.shortDescription.length ≤ itemTransferCorpseShortDescriptionMaxBytes ∧
      payload.corpse.description.length ≤ itemTransferCorpseDescriptionMaxBytes ∧
      payload.corpse.keywords.length ≤ itemTransferCorpseKeywordsMaxBytes := by
  unfold validCorpse at h
  rw [hpresent, if_neg (by decide)] at h
  simp only [Bool.and_eq_true] at h
  obtain ⟨⟨⟨⟨_, hname⟩, hshort⟩, hdescription⟩, hkeywords⟩ := h
  exact ⟨validText_length hname, validText_length hshort, validText_length hdescription,
    validText_length hkeywords⟩

theorem ofFn_getD_toList {α : Type} {n : Nat} (values : Vector α n) (default : α) :
    (Vector.ofFn fun index : Fin n => values.toList.getD index default) = values := by
  ext i hi
  simp [List.getD_eq_getElem?_getD]

def corpseTexts (corpse : ItemCorpseMetadata) : Bytes :=
  encodeSection corpse.ownerName ++ encodeSection corpse.shortDescription ++
    encodeSection corpse.description ++ encodeSection corpse.keywords

theorem readCorpse_append {corpse : ItemCorpseMetadata} (hpresent : corpse.present = true)
    (hname : corpse.ownerName.length ≤ itemTransferCorpseNameMaxBytes)
    (hshort : corpse.shortDescription.length ≤ itemTransferCorpseShortDescriptionMaxBytes)
    (hdescription : corpse.description.length ≤ itemTransferCorpseDescriptionMaxBytes)
    (hkeywords : corpse.keywords.length ≤ itemTransferCorpseKeywordsMaxBytes) (rest : Bytes) :
    readCorpse (appendLe corpseContextVersion ++ appendLe corpse.roomVnum ++
      appendLe corpse.weight ++ appendLe (corpse.actorRacewar.setWidth 32) ++
      corpse.values.toList.flatMap appendLe ++ corpseTexts corpse ++ rest) =
        .ok (corpse, rest) := by
  have hvalues : ∀ rest : Bytes, many (field () 32) 8
      (corpse.values.toList.flatMap appendLe ++ rest) = .ok (corpse.values.toList, rest) :=
    fun rest => (many_eq_ok fun {_ _ _} => field_eq_ok).mpr ⟨by simp, rfl⟩
  have hracewar : (corpse.actorRacewar.setWidth 32).toNat ≤ 255 := by
    rw [BitVec.toNat_setWidth]
    have := corpse.actorRacewar.isLt
    omega
  have hnarrow : (corpse.actorRacewar.setWidth 32).setWidth 8 = corpse.actorRacewar := by
    rw [BitVec.setWidth_setWidth_of_le _ (by decide), BitVec.setWidth_eq]
  have htext {maximum : Nat} {value : Bytes} (hmax : value.length ≤ maximum)
      (hword : maximum < 2 ^ 32) (rest : Bytes) :=
    readText_append hmax (Nat.lt_of_le_of_lt hmax hword) rest
  simp only [corpseTexts, encodeSection, List.append_assoc]
  rw [readCorpse, field_bind, require_bind rfl, field_bind, field_bind, field_bind,
    require_bind hracewar, bind_run (hvalues _), bind_run (htext hname (by decide) _),
    bind_run (htext hshort (by decide) _), bind_run (htext hdescription (by decide) _),
    bind_run (htext hkeywords (by decide) _), pure_eq_ok, hnarrow, ofFn_getD_toList, ← hpresent]
  exact ⟨rfl, rfl⟩

theorem decodeCorpseContext_encode (hvalid : validCorpse payload = true)
    (h : encodeCorpseContext payload.corpse = some encoded) :
    decodeCorpseContext encoded = some (stored payload).corpse := by
  unfold encodeCorpseContext at h
  split at h
  · next habsent =>
      cases h
      simp [decodeCorpseContext, stored, habsent]
  · next hpresent =>
      rw [Bool.not_eq_false] at hpresent
      obtain ⟨hname, hshort, hdescription, hkeywords⟩ := validCorpse_texts hvalid hpresent
      have hread := readCorpse_append hpresent hname hshort hdescription hkeywords []
      simp only [Option.bind_eq_bind, Option.bind_eq_some_iff, Option.pure_def,
        Option.some.injEq] at h
      obtain ⟨ownerName, hownerName, shortDescription, hshortDescription, description,
        hdescriptionText, keywords, hkeywordsText, rfl⟩ := h
      obtain ⟨_, rfl⟩ := appendText_eq_some hownerName
      obtain ⟨_, rfl⟩ := appendText_eq_some hshortDescription
      obtain ⟨_, rfl⟩ := appendText_eq_some hdescriptionText
      obtain ⟨_, rfl⟩ := appendText_eq_some hkeywordsText
      simp only [corpseTexts, encodeSection, List.append_nil, List.append_assoc] at hread
      simp only [List.append_assoc]
      rw [decodeCorpseContext, if_neg, whole_eq_some, hread]
      · simp [stored, hpresent]
      · intro hnil
        have := congrArg List.length hnil
        simp at this

theorem readCollector_append {collector : ItemCollectorDeathEnrollment}
    (hpresent : collector.present = true)
    (hcount : collector.eligibleItemUids.length ≤ itemTransferMaxItems) (rest : Bytes) :
    readCollector (appendLe collectorContextVersion ++ collector.deathOperation.bytes ++
      appendLe collector.beneficiaryPid ++ appendLe collector.deathTime ++
      appendLe collector.policy.collectionDelay ++ appendLe collector.policy.saleDelay ++
      appendLe collector.policy.holdingDuration ++ appendLe collector.policy.pricePercent ++
      appendLe collector.policy.minimumValue ++
      appendLe (BitVec.ofNat 32 collector.eligibleItemUids.length) ++
      collector.eligibleItemUids.flatMap appendLe ++ rest) = .ok (collector, rest) := by
  have hlength : (BitVec.ofNat 32 collector.eligibleItemUids.length).toNat =
      collector.eligibleItemUids.length := by
    rw [BitVec.toNat_ofNat]
    simp only [itemTransferMaxItems] at hcount
    exact Nat.mod_eq_of_lt (by omega)
  have huids : many (field () 64) (BitVec.ofNat 32 collector.eligibleItemUids.length).toNat
      (collector.eligibleItemUids.flatMap appendLe ++ rest) =
        .ok (collector.eligibleItemUids, rest) :=
    (many_eq_ok fun {_ _ _} => field_eq_ok).mpr ⟨hlength.symm, rfl⟩
  simp only [List.append_assoc]
  rw [readCollector, field_bind, require_bind rfl, raw_bind collector.deathOperation.size_eq,
    field_bind, field_bind, field_bind, field_bind, field_bind, field_bind, field_bind, field_bind,
    require_bind (by rw [hlength]; exact hcount), bind_run huids, pure_eq_ok, ← hpresent]
  exact ⟨rfl, rfl⟩

theorem validCollectorContext_count (h : validCollectorContext payload version = true) :
    payload.collector.eligibleItemUids.length ≤ payload.items.length := by
  unfold validCollectorContext at h
  dsimp only at h
  split at h
  · rw [List.isEmpty_iff] at h
    rw [h]
    exact Nat.zero_le _
  · split at h
    · cases h
    · next hrefused =>
        simp only [not_or] at hrefused
        omega

theorem decodeCollectorContext_encode (hvalid : validCollectorContext payload version = true)
    (hitems : payload.items.length ≤ itemTransferMaxItems)
    (h : encodeCollectorContext payload.collector = some encoded) :
    decodeCollectorContext encoded = some (stored payload).collector := by
  unfold encodeCollectorContext at h
  split at h
  · next habsent =>
      cases h
      simp [decodeCollectorContext, stored, habsent]
  · next hpresent =>
      rw [Bool.not_eq_false] at hpresent
      have hcount := Nat.le_trans (validCollectorContext_count hvalid) hitems
      have hread := readCollector_append hpresent hcount []
      split at h
      · cases h
      · cases h
        rw [List.append_nil] at hread
        rw [decodeCollectorContext, if_neg, whole_eq_some, hread]
        · simp [stored, hpresent]
        · intro hnil
          have := congrArg List.length hnil
          simp at this

/-! ## The defaults do not change what is checked -/

/-- The conjuncts of `validatePayload` the proofs below name. -/
structure Checked (payload : ItemTransferPayload) (version : BitVec 16) : Prop where
  fromOwner : itemOwnerIdentityValid payload.fromOwner = true
  toOwner : itemOwnerIdentityValid payload.toOwner = true
  reason : validReason payload.reason = true
  nonempty : payload.items ≠ []
  count : payload.items.length ≤ itemTransferMaxItems
  legacyCount : version < itemTransferBatchPayloadVersion →
    payload.items.length ≤ itemTransferLegacyMaxItems
  blob : payload.itemBlob.length ≤ itemTransferItemBlobMaxBytes
  fromCollector : payload.fromOwner.type ≠ ItemOwnerType.collector
  toCollector : payload.toOwner.type ≠ ItemOwnerType.collector
  collector : validCollectorContext payload version = true
  playerTransfer : validPlayerTransfer payload version = true
  craft : validCraft payload version = true
  pet : validPet payload = true
  corpseOwners : validCorpseOwners payload version = true
  corpse : validCorpse payload = true
  ends : validEnds payload = true
  multiRoot : payload.multiRoot = true → validMultiRoot payload version = true
  singleRoot : payload.multiRoot = false → validSingleRoot payload = true

theorem validatePayload_iff : validatePayload payload version = true ↔ Checked payload version := by
  have hrows : (if payload.multiRoot then validMultiRoot payload version
      else validSingleRoot payload) = true ↔
      (payload.multiRoot = true → validMultiRoot payload version = true) ∧
        (payload.multiRoot = false → validSingleRoot payload = true) := by
    cases payload.multiRoot <;> simp
  simp only [validatePayload, Bool.and_eq_true, hrows, Bool.not_eq_true',
    Bool.and_eq_false_imp, decide_eq_true_eq, decide_eq_false_iff_not, bne_iff_ne,
    List.isEmpty_eq_false_iff, Nat.not_lt, and_assoc]
  constructor
  · rintro ⟨h1, h2, h3, h4, h5, h6, h7, h8, h9, h10, h11, h12, h13, h14, h15, h16, h17, h18⟩
    exact ⟨h1, h2, h3, h4, h5, h6, h7, h8, h9, h10, h11, h12, h13, h14, h15, h16, h17, h18⟩
  · rintro ⟨h1, h2, h3, h4, h5, h6, h7, h8, h9, h10, h11, h12, h13, h14, h15, h16, h17, h18⟩
    exact ⟨h1, h2, h3, h4, h5, h6, h7, h8, h9, h10, h11, h12, h13, h14, h15, h16, h17, h18⟩

section Stored

variable {payload : ItemTransferPayload} {version : BitVec 16}

theorem Checked.batch_header (h : Checked payload version) (hmulti : payload.multiRoot = true) :
    (payload.reason = ItemTransferReason.craft ↔ payload.selectedItemUid ≠ 0) ∧
      (payload.targetParentItemUid ≠ 0 ↔ payload.targetRootItemUid ≠ 0) := by
  have hrows := h.multiRoot hmulti
  simp only [validMultiRoot, Bool.and_eq_true] at hrows
  obtain ⟨⟨⟨⟨⟨⟨⟨_, hplain⟩, _⟩, hcraft⟩, _⟩, htarget⟩, _⟩, _⟩ := hrows
  constructor
  · by_cases hreason : payload.reason = ItemTransferReason.craft <;>
      simp [hreason] at hplain hcraft <;> simp [hreason, hplain, hcraft]
  · split at htarget
    · next hparent =>
        simp only [bne_iff_ne] at htarget
        exact ⟨fun _ => htarget, fun _ => hparent⟩
    · next hparent =>
        simp only [beq_iff_eq] at htarget
        exact ⟨fun hp => absurd hp hparent, fun hr => absurd htarget hr⟩

theorem Checked.storedSelected_batch (h : Checked payload version)
    (hmulti : payload.multiRoot = true) : storedSelected payload = payload.selectedItemUid := by
  have hheader := (h.batch_header hmulti).1
  unfold storedSelected
  split
  · next hplain =>
      have hzero := mt hheader.mpr hplain.2
      rw [not_not] at hzero
      exact hzero.symm
  · next hcraft =>
      have hreason : payload.reason = ItemTransferReason.craft := by
        by_contra hne
        exact hcraft ⟨hmulti, hne⟩
      rw [effectiveSelected, if_pos (hheader.mp hreason)]

theorem Checked.not_craft (h : Checked payload version) (hsingle : payload.multiRoot = false) :
    payload.reason ≠ ItemTransferReason.craft := by
  intro hreason
  have hcraft := h.craft
  unfold validCraft at hcraft
  rw [if_pos hreason] at hcraft
  simp [hsingle] at hcraft

theorem storedSelected_single (hsingle : payload.multiRoot = false) :
    storedSelected payload = effectiveSelected payload := by
  simp [storedSelected, hsingle]

theorem storedTargetRoot_single (hsingle : payload.multiRoot = false) :
    storedTargetRoot payload = effectiveTargetRoot payload := by
  simp [storedTargetRoot, effectiveTargetRoot, storedSelected_single hsingle, hsingle]

theorem Checked.effectiveSelected_ne_zero (h : Checked payload version)
    (hsingle : payload.multiRoot = false) : effectiveSelected payload ≠ 0 := by
  have hrows := h.singleRoot hsingle
  simp only [validSingleRoot, Bool.and_eq_true, bne_iff_ne] at hrows
  exact hrows.1.1.1.1.1.1.1.2

theorem Checked.effectiveTargetRoot_ne_zero (h : Checked payload version)
    (hsingle : payload.multiRoot = false) : effectiveTargetRoot payload ≠ 0 := by
  have hrows := h.singleRoot hsingle
  simp only [validSingleRoot, Bool.and_eq_true, bne_iff_ne] at hrows
  exact hrows.1.1.1.1.1.1.2

theorem Checked.effectiveSelected_stored (h : Checked payload version)
    (hsingle : payload.multiRoot = false) :
    effectiveSelected (stored payload) = effectiveSelected payload := by
  have hne := h.effectiveSelected_ne_zero hsingle
  show (if storedSelected payload ≠ 0 then storedSelected payload else _) = _
  rw [storedSelected_single hsingle, if_pos hne]

theorem Checked.effectiveTargetRoot_stored (h : Checked payload version)
    (hsingle : payload.multiRoot = false) :
    effectiveTargetRoot (stored payload) = effectiveTargetRoot payload := by
  have hne := h.effectiveTargetRoot_ne_zero hsingle
  show (if storedTargetRoot payload ≠ 0 then storedTargetRoot payload else _) = _
  rw [storedTargetRoot_single hsingle, if_pos hne]

theorem stored_corpse_present : (stored payload).corpse.present = payload.corpse.present := by
  show (if payload.corpse.present then payload.corpse else {}).present = _
  split
  · rfl
  · next habsent => rw [Bool.not_eq_true] at habsent; rw [habsent]

theorem stored_collector_present :
    (stored payload).collector.present = payload.collector.present := by
  show (if payload.collector.present then payload.collector else {}).present = _
  split
  · rfl
  · next habsent => rw [Bool.not_eq_true] at habsent; rw [habsent]

theorem stored_corpse (hpresent : payload.corpse.present = true) :
    (stored payload).corpse = payload.corpse := if_pos hpresent

theorem stored_collector (hpresent : payload.collector.present = true) :
    (stored payload).collector = payload.collector := if_pos hpresent

theorem Checked.selectedRootFor_stored (h : Checked payload version) (itemUid : BitVec 64) :
    selectedRootFor (stored payload) itemUid = selectedRootFor payload itemUid := by
  unfold selectedRootFor
  show (if payload.reason = ItemTransferReason.craft then _ else
    if payload.multiRoot = false then effectiveSelected (stored payload) else _) =
    if payload.reason = ItemTransferReason.craft then _ else
    if payload.multiRoot = false then effectiveSelected payload else _
  by_cases hsingle : payload.multiRoot = false
  · rw [h.effectiveSelected_stored hsingle]
    rfl
  · rw [if_neg hsingle, if_neg hsingle]
    rfl

theorem storedTargetRoot_set (h : payload.multiRoot = true ∨ payload.targetRootItemUid ≠ 0) :
    storedTargetRoot payload = payload.targetRootItemUid := by
  unfold storedTargetRoot
  split
  · rfl
  · next hsingle =>
      rcases h with hmulti | hset
      · exact absurd hmulti hsingle
      · rw [if_pos hset]

variable (h : Checked payload version)

include h

theorem Checked.stored_batch (hmulti : payload.multiRoot = true) :
    stored payload = { payload with
      corpse := (stored payload).corpse, collector := (stored payload).collector } := by
  conv_lhs => rw [stored, h.storedSelected_batch hmulti, storedTargetRoot_set (.inl hmulti)]
  rfl

theorem Checked.targetTopologyFor_stored
    (hset : payload.multiRoot = true ∨ payload.targetParentItemUid = 0 ∨
      payload.targetRootItemUid ≠ 0) (itemUid : BitVec 64) :
    targetTopologyFor (stored payload) itemUid = targetTopologyFor payload itemUid := by
  have hroot : (if payload.targetParentItemUid ≠ 0 then storedTargetRoot payload
      else selectedRootFor payload itemUid) =
        if payload.targetParentItemUid ≠ 0 then payload.targetRootItemUid
        else selectedRootFor payload itemUid := by
    by_cases hparent : payload.targetParentItemUid = 0
    · simp [hparent]
    · rw [storedTargetRoot_set]
      rcases hset with hmulti | hzero | hset
      · exact .inl hmulti
      · exact absurd hzero hparent
      · exact .inr hset
  have hfind : findPayloadItem (stored payload) itemUid = findPayloadItem payload itemUid := rfl
  unfold targetTopologyFor
  rw [h.selectedRootFor_stored, hfind]
  cases findPayloadItem payload itemUid with
  | none => rfl
  | some entry =>
      show (if _ then none else if _ then _ else
        if (if payload.targetParentItemUid ≠ 0 then storedTargetRoot payload
          else selectedRootFor payload itemUid) ≠ 0 then
          some ((if payload.targetParentItemUid ≠ 0 then storedTargetRoot payload
            else selectedRootFor payload itemUid), _) else none) = _
      rw [hroot]
      rfl

theorem Checked.worldCorpseRaisePet_stored :
    worldCorpseRaisePet (stored payload) = worldCorpseRaisePet payload := by
  by_cases hmulti : payload.multiRoot = true
  · rw [h.stored_batch hmulti]
    rfl
  · rw [Bool.not_eq_true] at hmulti
    have hstored : (stored payload).multiRoot = false := hmulti
    simp only [worldCorpseRaisePet, hmulti, hstored, Bool.and_false, Bool.false_and]

theorem Checked.validCollectorContext_stored :
    validCollectorContext (stored payload) version = true := by
  have hcollector := h.collector
  unfold validCollectorContext at hcollector ⊢
  dsimp only at hcollector ⊢
  rw [stored_collector_present, stored_corpse_present]
  by_cases hpresent : payload.collector.present = true
  · rw [stored_collector hpresent]
    exact hcollector
  · rw [Bool.not_eq_true] at hpresent
    simp [hpresent, stored]

theorem Checked.validCraft_stored :
    validCraft (stored payload) version = true := by
  by_cases hmulti : payload.multiRoot = true
  · rw [h.stored_batch hmulti]
    exact h.craft
  · have hreason : (stored payload).reason ≠ ItemTransferReason.craft :=
      h.not_craft (Bool.not_eq_true _ ▸ hmulti)
    unfold validCraft
    rw [if_neg hreason]

theorem Checked.validCorpse_stored :
    validCorpse (stored payload) = true := by
  by_cases hpresent : payload.corpse.present = true
  · have hcorpse := h.corpse
    unfold validCorpse at hcorpse ⊢
    rw [stored_corpse hpresent]
    exact hcorpse
  · unfold validCorpse
    rw [Bool.not_eq_true] at hpresent
    rw [if_pos (stored_corpse_present.trans hpresent)]

theorem Checked.validCorpseOwners_stored :
    validCorpseOwners (stored payload) version = true := by
  have howners := h.corpseOwners
  unfold validCorpseOwners at howners ⊢
  rw [stored_corpse_present, h.worldCorpseRaisePet_stored]
  exact howners

theorem Checked.validSingleRoot_stored
    (hsingle : payload.multiRoot = false) : validSingleRoot (stored payload) = true := by
  have hrows := h.singleRoot hsingle
  unfold validSingleRoot at hrows ⊢
  rw [h.effectiveSelected_stored hsingle, h.effectiveTargetRoot_stored hsingle]
  exact hrows

theorem Checked.of_stored : Checked (stored payload) version where
  fromOwner := h.fromOwner
  toOwner := h.toOwner
  reason := h.reason
  nonempty := h.nonempty
  count := h.count
  legacyCount := h.legacyCount
  blob := h.blob
  fromCollector := h.fromCollector
  toCollector := h.toCollector
  collector := h.validCollectorContext_stored
  playerTransfer := h.playerTransfer
  craft := h.validCraft_stored
  pet := h.pet
  corpseOwners := h.validCorpseOwners_stored
  corpse := h.validCorpse_stored
  ends := h.ends
  multiRoot := by
    intro hmulti
    have hrows := h.multiRoot hmulti
    rw [h.stored_batch hmulti]
    exact hrows
  singleRoot := fun hsingle => h.validSingleRoot_stored hsingle

theorem Checked.commandEntities_stored (sha256 : Bytes → Vector UInt8 32) :
    commandEntities sha256 (stored payload) = commandEntities sha256 payload := by
  have houtputs : craftOutputs (stored payload) = craftOutputs payload := by
    by_cases hmulti : payload.multiRoot = true
    · rw [h.stored_batch hmulti]
      rfl
    · have hreason := h.not_craft (Bool.not_eq_true _ ▸ hmulti)
      have hstored : (stored payload).reason ≠ ItemTransferReason.craft := hreason
      rw [craftOutputs, craftOutputs, if_neg hreason, if_neg hstored]
  unfold commandEntities
  rw [stored_collector_present, houtputs]
  rfl

end Stored

/-! ## The whole payload -/

theorem readSection_append {maximum : Nat} {bytes : Bytes} (h : bytes.length ≤ maximum)
    (hword : maximum < 2 ^ 32) (rest : Bytes) :
    readSection maximum (encodeSection bytes ++ rest) = .ok (bytes, rest) := by
  rw [readSection, encodeSection, List.append_assoc]
  exact readText_append h (Nat.lt_of_le_of_lt h hword) rest

variable {payload : ItemTransferPayload}

theorem readSections_append {corpse collector : Bytes}
    (h : Checked payload itemTransferPayloadVersion)
    (hcorpse : encodeCorpseContext payload.corpse = some corpse)
    (hcorpseSize : corpse.length ≤ criticalCommandMaxPayloadBytes)
    (hcollector : encodeCollectorContext payload.collector = some collector)
    (hcollectorSize : collector.length ≤ criticalCommandMaxPayloadBytes) (rest : Bytes) :
    readSections itemTransferPayloadVersion (encodeSection payload.itemBlob ++
      (encodeSection corpse ++ (encodeSection collector ++ rest))) =
        .ok ((payload.itemBlob, (stored payload).corpse, (stored payload).collector), rest) := by
  have hcorpseRead : ∀ rest : Bytes, readCorpseSection (encodeSection corpse ++ rest) =
      .ok ((stored payload).corpse, rest) := by
    intro rest
    rw [readCorpseSection, bind_run (readSection_append hcorpseSize (by decide) rest),
      decodeCorpseContext_encode h.corpse hcorpse]
    rfl
  have hcollectorRead : ∀ rest : Bytes, readCollectorSection (encodeSection collector ++ rest) =
      .ok ((stored payload).collector, rest) := by
    intro rest
    rw [readCollectorSection, bind_run (readSection_append hcollectorSize (by decide) rest),
      decodeCollectorContext_encode h.collector h.count hcollector]
    rfl
  rw [readSections, if_neg (by decide), bind_run (readSection_append h.blob (by decide) _),
    if_neg (by decide), bind_run (hcorpseRead _), if_neg (by decide),
    bind_run (hcollectorRead rest)]
  rfl

/-- A real soulbind goes to another player, so no reason is taken for a craft. -/
theorem Checked.reasonOf {version : BitVec 16} (h : Checked payload version) :
    reasonOf version payload.reason payload.fromOwner payload.toOwner = payload.reason := by
  unfold Item.reasonOf
  split
  · next hdraft =>
      obtain ⟨_, hsoulbind, _, hequal⟩ := hdraft
      have htransfer := h.playerTransfer
      unfold validPlayerTransfer at htransfer
      rw [if_pos (.inr (.inl hsoulbind))] at htransfer
      simp only [Bool.and_eq_true, bne_iff_ne] at htransfer
      simp only [itemOwnerIdentityEqual, Bool.and_eq_true, beq_iff_eq] at hequal
      exact absurd hequal.1.2 htransfer.1.1.1.2
  · rfl

theorem Checked.multiRoot_stored {version : BitVec 16} (h : Checked payload version) :
    (storedSelected payload == 0 || payload.reason == ItemTransferReason.craft) =
      payload.multiRoot := by
  cases hmulti : payload.multiRoot with
  | false =>
      have hne := h.effectiveSelected_ne_zero hmulti
      rw [storedSelected_single hmulti, beq_false_of_ne hne, beq_false_of_ne (h.not_craft hmulti)]
      rfl
  | true =>
      rw [h.storedSelected_batch hmulti]
      by_cases hcraft : payload.reason = ItemTransferReason.craft
      · simp [hcraft]
      · have hzero := mt (h.batch_header hmulti).1.mpr hcraft
        rw [not_not] at hzero
        rw [hzero]
        rfl

theorem readPayload_encode {corpse collector : Bytes}
    (h : Checked payload itemTransferPayloadVersion)
    (hcorpse : encodeCorpseContext payload.corpse = some corpse)
    (hcorpseSize : corpse.length ≤ criticalCommandMaxPayloadBytes)
    (hcollector : encodeCollectorContext payload.collector = some collector)
    (hcollectorSize : collector.length ≤ criticalCommandMaxPayloadBytes) :
    whole (readPayload itemTransferPayloadVersion) (encodeHeader payload ++
      payload.items.flatMap encodeEntry ++ encodeSection payload.itemBlob ++
      encodeSection corpse ++ encodeSection collector) = some (stored payload) := by
  have hcount : (BitVec.ofNat 16 payload.items.length).toNat = payload.items.length := by
    have := h.count
    simp only [itemTransferMaxItems] at this
    rw [BitVec.toNat_ofNat]
    exact Nat.mod_eq_of_lt (by omega)
  have hcounted : BitVec.ofNat 16 payload.items.length ≠ 0 ∧
      (BitVec.ofNat 16 payload.items.length).toNat ≤ itemTransferMaxItems ∧
      (itemTransferPayloadVersion < itemTransferBatchPayloadVersion →
        (BitVec.ofNat 16 payload.items.length).toNat ≤ itemTransferLegacyMaxItems) := by
    refine ⟨fun hzero => h.nonempty ?_, by rw [hcount]; exact h.count,
      fun hlegacy => absurd hlegacy (by decide)⟩
    rw [hzero] at hcount
    exact List.length_eq_zero_iff.mp hcount.symm
  have hrows : ∀ rest : Bytes, many decodeEntry (BitVec.ofNat 16 payload.items.length).toNat
      (payload.items.flatMap encodeEntry ++ rest) = .ok (payload.items, rest) := fun rest =>
    (many_eq_ok decodeEntry_eq_ok).mpr ⟨hcount.symm, rfl⟩
  have howner : ∀ (owner : ItemOwnerIdentity) (rest : Bytes),
      decodeOwner (encodeOwner owner ++ rest) = .ok (owner, rest) :=
    fun _ _ => decodeOwner_eq_ok.mpr rfl
  have hsections := readSections_append h hcorpse hcorpseSize hcollector hcollectorSize []
  rw [List.append_nil] at hsections
  have hunused : ∀ rest : Bytes, many decodeUnusedEntry
      (if itemTransferBatchPayloadVersion ≤ itemTransferPayloadVersion then 0
        else itemTransferLegacyMaxItems - (BitVec.ofNat 16 payload.items.length).toNat) rest =
          .ok ([], rest) := by
    intro rest
    rw [if_pos (by decide)]
    rfl
  rw [whole_eq_some]
  simp only [encodeHeader, List.append_assoc]
  rw [readPayload, bind_run (howner _ _), bind_run (howner _ _), field_bind, field_bind,
    raw_bind (n := 2) rfl, field_bind, field_bind, field_bind, field_bind, field_bind, field_bind,
    field_bind, require_bind hcounted, bind_run (hrows _), bind_run (hunused _), bind_run hsections,
    pure_eq_ok, h.reasonOf, h.multiRoot_stored,
    decide_eq_true (by decide : itemTransferBatchPayloadVersion ≤ itemTransferPayloadVersion),
    Bool.true_and]
  exact ⟨rfl, rfl⟩

end Duris.Item
