import Duris.Lib.Sha256
import Duris.Proofs.ItemTransferCodec

/-!
# A built transfer on its way through the coordinator

The command `item_transfer_command_build` makes is stamped, normalised, and decoded
again by whoever applies it. What the decoder reads is settled in
`ItemTransferCodec.lean`; this file counts the keys, which decides whether the command
is normalised at all, and compares the two payloads.
-/

namespace Duris.Item

open Persistence Player Reader

variable {sha256 : Bytes → Vector UInt8 32} {operationId : CriticalOperationId}

/-! ## The keys -/

theorem validEntityType_entityTypeForOwner (type : ItemOwnerType) :
    validEntityType (entityTypeForOwner type) = true := by
  unfold entityTypeForOwner
  repeat' split
  all_goals rfl

theorem itemOwnerKey_valid {owner : ItemOwnerIdentity} {key : CriticalEntityKey}
    (h : itemOwnerKey sha256 owner = some key) : KeyValid key := by
  unfold itemOwnerKey at h
  split at h
  · cases h
  · split at h
    · next hid =>
        cases h
        exact ⟨validEntityType_entityTypeForOwner _, hid.1⟩
    · cases h
      refine ⟨validEntityType_entityTypeForOwner _, ?_⟩
      dsimp only
      split
      · decide
      · next hidentity => exact hidentity

section Keys

variable {payload : ItemTransferPayload} {version : BitVec 16}
  {sha256 : Bytes → Vector UInt8 32}

theorem Checked.itemUid_ne_zero (h : Checked payload version) :
    ∀ entry ∈ payload.items, entry.itemUid ≠ 0 := by
  intro entry hentry
  cases hmulti : payload.multiRoot with
  | false =>
      have hrows := h.singleRoot hmulti
      simp only [validSingleRoot, Bool.and_eq_true, List.all_eq_true, bne_iff_ne] at hrows
      exact (hrows.1.1.1.2 entry hentry).1.1.1.1.1.1
  | true =>
      have hrows := h.multiRoot hmulti
      simp only [validMultiRoot, Bool.and_eq_true, List.all_eq_true, bne_iff_ne] at hrows
      exact (hrows.2 entry hentry).1.1.1.1

variable {outputs : List PlayerItemSnapshot} {entities : List CriticalExpectedRevision}

theorem craftOutputsFrom_uid {selected : BitVec 64} :
    ∀ {index : Nat}, craftOutputsFrom selected index outputs = true →
      ∀ output ∈ outputs, output.objectUid ≠ 0 := by
  induction outputs with
  | nil => intro index _ output houtput; cases houtput
  | cons head outputs ih =>
      intro index h output houtput
      simp only [craftOutputsFrom, Bool.and_eq_true, bne_iff_ne] at h
      rcases List.mem_cons.mp houtput with rfl | houtput
      · exact h.1.1.1.1.1.1
      · exact ih h.2 output houtput

theorem decodeCraftOutputs_uid (h : decodeCraftOutputs payload = some outputs) :
    ∀ output ∈ outputs, output.objectUid ≠ 0 := by
  unfold decodeCraftOutputs at h
  split at h
  · cases h
  · split at h
    · cases h
      intro output houtput
      cases houtput
    · split at h
      · cases h
      · next decoded _ =>
          split at h
          · cases h
          · next hrefused =>
              simp only [not_or, Bool.not_eq_false] at hrefused
              dsimp only at h
              split at h
              · cases h
                exact craftOutputsFrom_uid hrefused.2.2
              · cases h

theorem craftOutputs_uid (h : craftOutputs payload = some outputs) :
    ∀ output ∈ outputs, output.objectUid ≠ 0 := by
  unfold craftOutputs at h
  split at h
  · exact decodeCraftOutputs_uid h
  · cases h
    intro output houtput
    cases houtput

theorem ownerEntities_eq_some {owners : List CriticalExpectedRevision}
    (h : ownerEntities sha256 payload = some owners) :
    (∀ entity ∈ owners, KeyValid entity.key) ∧ owners ≠ [] ∧
      owners.length =
        if itemOwnerIdentityEqual payload.fromOwner payload.toOwner then 1 else 2 := by
  unfold ownerEntities at h
  simp only [Option.bind_eq_bind, Option.bind_eq_some_iff] at h
  obtain ⟨fromKey, hfrom, toKey, hto, h⟩ := h
  have hfromValid := itemOwnerKey_valid hfrom
  have htoValid := itemOwnerKey_valid hto
  split at h
  · next hsame =>
      split at h
      · cases h
      · cases h
        simp [hfromValid, hsame]
  · next hdifferent =>
      cases h
      simp [hfromValid, htoValid, hdifferent]

theorem commandEntities_eq_some (h : commandEntities sha256 payload = some entities) :
    ∃ owners outputs, ownerEntities sha256 payload = some owners ∧
      craftOutputs payload = some outputs ∧
      entities = owners ++
        payload.items.map (fun entry =>
          ⟨⟨CriticalEntityType.item, entry.itemUid⟩, entry.expectedItemRevision⟩) ++
        (if payload.targetParentItemUid ≠ 0 then
          [⟨⟨CriticalEntityType.item, payload.targetParentItemUid⟩,
            payload.expectedTargetParentRevision⟩] else []) ++
        outputs.map (fun output =>
          ⟨⟨CriticalEntityType.item, output.objectUid⟩, itemTransferAbsentRevision⟩) ++
        (if payload.collector.present then
          [⟨⟨CriticalEntityType.collector, collectorCatalogKey⟩, 0⟩] else []) := by
  unfold commandEntities at h
  simp only [Option.bind_eq_bind, Option.bind_eq_some_iff, Option.pure_def,
    Option.some.injEq] at h
  obtain ⟨owners, howners, outputs, houtputs, hentities⟩ := h
  exact ⟨owners, outputs, howners, houtputs, hentities.symm⟩

theorem Checked.entities_valid (h : Checked payload version)
    (hentities : commandEntities sha256 payload = some entities) :
    ∀ entity ∈ entities, KeyValid entity.key := by
  obtain ⟨owners, outputs, howners, houtputs, rfl⟩ := commandEntities_eq_some hentities
  intro entity hentity
  simp only [List.mem_append, List.mem_map] at hentity
  obtain (((howner | ⟨entry, hentry, rfl⟩) | hparent) | ⟨output, houtput, rfl⟩) | hcollector :=
    hentity
  · exact (ownerEntities_eq_some howners).1 entity howner
  · exact ⟨rfl, h.itemUid_ne_zero entry hentry⟩
  · split at hparent
    · next hset =>
        rw [List.mem_singleton] at hparent
        subst hparent
        exact ⟨rfl, hset⟩
    · cases hparent
  · exact ⟨rfl, craftOutputs_uid houtputs output houtput⟩
  · split at hcollector
    · rw [List.mem_singleton] at hcollector
      subst hcollector
      exact ⟨rfl, by decide⟩
    · cases hcollector

theorem Checked.enrolled (h : Checked payload version)
    (hpresent : payload.collector.present = true) :
    payload.reason ≠ ItemTransferReason.craft ∧
      itemOwnerIdentityEqual payload.fromOwner payload.toOwner = false := by
  have hcollector := h.collector
  unfold validCollectorContext at hcollector
  rw [if_neg (by rw [hpresent]; decide)] at hcollector
  split at hcollector
  · cases hcollector
  · next hrefused =>
      simp only [not_or, not_not] at hrefused
      have hreason : payload.reason = ItemTransferReason.corpseCreate := hrefused.2.1
      have howners := h.corpseOwners
      simp only [validCorpseOwners, hreason, Bool.and_eq_true, Bool.not_eq_true', beq_self_eq_true,
        Bool.true_and, Bool.or_eq_false_iff, bne_eq_false_iff_eq] at howners
      obtain ⟨⟨⟨_, hfrom, hto⟩, _⟩, _⟩ := howners
      refine ⟨by rw [hreason]; decide, ?_⟩
      simp [itemOwnerIdentityEqual, hfrom, hto, ItemOwnerType.player, ItemOwnerType.corpse]

theorem Checked.crafted (h : Checked payload version)
    (hreason : payload.reason = ItemTransferReason.craft)
    (houtputs : craftOutputs payload = some outputs) :
    itemOwnerIdentityEqual payload.fromOwner payload.toOwner = true ∧
      payload.targetParentItemUid = 0 ∧
      payload.items.length + outputs.length ≤ criticalCommandMaxKeys - 2 := by
  have hcraft := h.craft
  unfold validCraft at hcraft
  rw [craftOutputs, if_pos hreason] at houtputs
  rw [if_pos hreason, houtputs] at hcraft
  split at hcraft
  · cases hcraft
  · next hrefused =>
      simp only [not_or, not_not, Bool.not_eq_false] at hrefused
      simp only [Bool.and_eq_true, decide_eq_true_eq] at hcraft
      exact ⟨hrefused.2.2.2.1, hrefused.2.2.2.2.2.2.2.2.2.2.1, hcraft.1.2⟩

/-- The keys fit, unless a full death with an enrolment is put into another item. -/
theorem Checked.entities_length (h : Checked payload version)
    (hentities : commandEntities sha256 payload = some entities) :
    entities.length ≤ criticalCommandMaxKeys ↔
      ¬ (payload.collector.present = true ∧ payload.targetParentItemUid ≠ 0 ∧
        payload.items.length = itemTransferMaxItems) := by
  obtain ⟨owners, outputs, howners, houtputs, rfl⟩ := commandEntities_eq_some hentities
  have hcount := h.count
  have hownerCount := (ownerEntities_eq_some howners).2.2
  simp only [List.length_append, List.length_map, hownerCount, apply_ite List.length,
    List.length_cons, List.length_nil, criticalCommandMaxKeys, itemTransferMaxItems] at hcount ⊢
  by_cases hpresent : payload.collector.present = true
  · obtain ⟨hreason, hdifferent⟩ := h.enrolled hpresent
    rw [craftOutputs, if_neg hreason] at houtputs
    cases houtputs
    simp only [hpresent, hdifferent, Bool.false_eq_true, if_false, if_true, List.length_nil,
      true_and]
    by_cases hparent : payload.targetParentItemUid = 0
    · simp only [hparent, ne_eq, not_true_eq_false, if_false, false_and, not_false_eq_true,
        iff_true]
      omega
    · simp only [hparent, ne_eq, not_false_eq_true, if_true, true_and]
      omega
  · rw [Bool.not_eq_true] at hpresent
    simp only [hpresent, Bool.false_eq_true, false_and, not_false_eq_true, iff_true, if_false]
    by_cases hreason : payload.reason = ItemTransferReason.craft
    · obtain ⟨hsame, hparent, hroom⟩ := h.crafted hreason houtputs
      simp only [criticalCommandMaxKeys] at hroom
      simp only [hsame, hparent, if_true, ne_eq, not_true_eq_false, if_false]
      omega
    · rw [craftOutputs, if_neg hreason] at houtputs
      cases houtputs
      have howner : (if itemOwnerIdentityEqual payload.fromOwner payload.toOwner = true then 1
          else 2) ≤ 2 := by split <;> omega
      have hparent : (if payload.targetParentItemUid ≠ 0 then 0 + 1 else 0) ≤ 1 := by
        split <;> omega
      rw [List.length_nil]
      omega

end Keys

/-! ## The built command -/

theorem encoded_length (payload : ItemTransferPayload) (corpse collector : Bytes) :
    (encodeHeader payload ++ payload.items.flatMap encodeEntry ++
      encodeSection payload.itemBlob ++ encodeSection corpse ++ encodeSection collector).length =
        itemTransferHeaderBytes + payload.items.length * itemTransferEntryBytes +
          (4 + payload.itemBlob.length) + (4 + corpse.length) + (4 + collector.length) := by
  have hrows : (payload.items.flatMap encodeEntry).length = payload.items.length * 40 :=
    flatMap_length_const (fun entry => by simp [encodeEntry]) payload.items
  simp only [List.length_append, encodeSection, hrows, encodeHeader, encodeOwner,
    appendLe_length, List.length_replicate, itemTransferHeaderBytes, itemTransferEntryBytes]

variable {payload : ItemTransferPayload}

theorem itemTransferCommandEncodePayload_eq_some {encoded : Bytes}
    (h : itemTransferCommandEncodePayload payload = some encoded) :
    Checked payload itemTransferPayloadVersion ∧
      encoded.length ≤ criticalCommandMaxPayloadBytes ∧
      itemTransferHeaderBytes + itemTransferEntryBytes + 4 ≤ encoded.length ∧
      whole (readPayload itemTransferPayloadVersion) encoded = some (stored payload) := by
  unfold itemTransferCommandEncodePayload at h
  split at h
  · cases h
  · next hvalid =>
      rw [Bool.not_eq_false] at hvalid
      have hchecked := validatePayload_iff.mp hvalid
      simp only [Option.bind_eq_bind, Option.bind_eq_some_iff] at h
      obtain ⟨corpse, hcorpse, collector, hcollector, h⟩ := h
      split at h
      · cases h
      · next hsize =>
          cases h
          rw [Nat.not_lt] at hsize
          have hcorpseSize : corpse.length ≤ criticalCommandMaxPayloadBytes := by
            rw [encoded_length] at hsize
            omega
          have hcollectorSize : collector.length ≤ criticalCommandMaxPayloadBytes := by
            rw [encoded_length] at hsize
            omega
          refine ⟨hchecked, hsize, ?_,
            readPayload_encode hchecked hcorpse hcorpseSize hcollector hcollectorSize⟩
          have hitems : 0 < payload.items.length := List.length_pos_iff.mpr hchecked.nonempty
          rw [encoded_length]
          simp only [itemTransferEntryBytes]
          omega

theorem populateCommandEntities_eq_some {keys : List CriticalEntityKey}
    {revisions : List CriticalExpectedRevision}
    (h : populateCommandEntities sha256 payload = some (keys, revisions)) :
    ∃ entities, commandEntities sha256 payload = some entities ∧ KeysAscend keys ∧
      revisions.map CriticalExpectedRevision.key = keys ∧ keys.length = entities.length ∧
      ∀ key ∈ keys, ∃ entity ∈ entities, entity.key = key := by
  unfold populateCommandEntities at h
  simp only [Option.bind_eq_bind, Option.bind_eq_some_iff] at h
  obtain ⟨entities, hentities, h⟩ := h
  split at h
  · cases h
  · next hdistinct =>
      rw [Bool.not_eq_true] at hdistinct
      cases h
      refine ⟨entities, hentities, keysAscend_mergeSort hdistinct, map_key_mergeSort entities,
        by rw [List.length_mergeSort, List.length_map], fun key hkey => ?_⟩
      rw [List.mem_mergeSort, List.mem_map] at hkey
      exact hkey

theorem itemTransferCommandBuild_eq_some {sourceSite : CriticalSourceSite}
    {deadlineClass : CriticalDeadlineClass} {command : CriticalCommand}
    (h : itemTransferCommandBuild sha256 operationId payload sourceSite deadlineClass =
      some command) :
    Checked payload itemTransferPayloadVersion ∧
      criticalOperationIdIsZero operationId = false ∧
      ∃ encoded keys revisions, itemTransferCommandEncodePayload payload = some encoded ∧
        populateCommandEntities sha256 payload = some (keys, revisions) ∧
        command =
          { schemaVersion := criticalCommandSchemaVersion
            operationId := operationId
            type := CriticalCommandType.itemTransfer
            payloadVersion := itemTransferPayloadVersion
            sourceSite := sourceSite
            deadlineClass := deadlineClass
            acceptedAtUsec := 0
            keys := keys
            expectedRevisions := revisions
            payload := encoded } := by
  unfold itemTransferCommandBuild at h
  split at h
  · cases h
  · next hoperation =>
      simp only [Option.bind_eq_bind, Option.bind_eq_some_iff, Option.pure_def,
        Option.some.injEq] at h
      obtain ⟨encoded, hencoded, ⟨keys, revisions⟩, hentities, hcommand⟩ := h
      exact ⟨(itemTransferCommandEncodePayload_eq_some hencoded).1,
        Bool.not_eq_true _ ▸ hoperation, encoded, keys, revisions, hencoded, hentities,
        hcommand.symm⟩

section Built

variable {sha256 : Bytes → Vector UInt8 32} {operationId : CriticalOperationId}
  {payload : ItemTransferPayload} {sourceSite : CriticalSourceSite}
  {deadlineClass : CriticalDeadlineClass} {command : CriticalCommand}

/-- Whatever its acceptance time, a built command is decoded to the payload with its
defaults in place. -/
theorem itemTransferCommandDecodePayload_build
    (h : itemTransferCommandBuild sha256 operationId payload sourceSite deadlineClass =
      some command) (acceptedAtUsec : BitVec 64) :
    itemTransferCommandDecodePayload sha256 { command with acceptedAtUsec := acceptedAtUsec } =
      some (stored payload) := by
  obtain ⟨hchecked, -, encoded, keys, revisions, hencoded, hentities, rfl⟩ :=
    itemTransferCommandBuild_eq_some h
  obtain ⟨-, -, hsize, hread⟩ := itemTransferCommandEncodePayload_eq_some hencoded
  have hvalid := validatePayload_iff.mpr hchecked.of_stored
  have hpopulated : populateCommandEntities sha256 (stored payload) = some (keys, revisions) := by
    rw [populateCommandEntities, hchecked.commandEntities_stored]
    exact hentities
  have hlayout : payloadSizeValid itemTransferPayloadVersion encoded.length = true := by
    simp only [payloadSizeValid, Bool.and_eq_true]
    rw [if_pos (by decide)]
    exact ⟨by decide, decide_eq_true hsize⟩
  unfold itemTransferCommandDecodePayload
  rw [if_neg (by simp [hlayout]), hread]
  show (if validatePayload (stored payload) itemTransferPayloadVersion = false ∨ _ then none
    else _) = _
  rw [if_neg (by rw [hvalid]; simp [itemTransferPayloadVersion, itemTransferLegacyPayloadVersion]),
    hpopulated]
  exact if_pos rfl

theorem criticalCommandNormalize_build
    (h : itemTransferCommandBuild sha256 operationId payload sourceSite deadlineClass =
      some command)
    (hsite : CriticalSourceSite.command ≤ sourceSite ∧
      sourceSite ≤ CriticalSourceSite.operatorRepair)
    (hclass : CriticalDeadlineClass.interactive ≤ deadlineClass ∧
      deadlineClass ≤ CriticalDeadlineClass.recovery)
    {acceptedAtUsec : BitVec 64} (haccepted : acceptedAtUsec ≠ 0) :
    criticalCommandNormalize { command with acceptedAtUsec := acceptedAtUsec } =
      if payload.collector.present = true ∧ payload.targetParentItemUid ≠ 0 ∧
          payload.items.length = itemTransferMaxItems then none
      else some { command with acceptedAtUsec := acceptedAtUsec } := by
  obtain ⟨hchecked, hoperation, encoded, keys, revisions, hencoded, hpopulated, rfl⟩ :=
    itemTransferCommandBuild_eq_some h
  obtain ⟨-, hsize, -, -⟩ := itemTransferCommandEncodePayload_eq_some hencoded
  obtain ⟨entities, hentities, hascend, hrevisions, hcount, hmem⟩ :=
    populateCommandEntities_eq_some hpopulated
  have hkeyValid : ∀ key ∈ keys, KeyValid key := by
    intro key hkey
    obtain ⟨entity, hentity, rfl⟩ := hmem key hkey
    exact hchecked.entities_valid hentities entity hentity
  have hnonempty : keys ≠ [] := by
    obtain ⟨owners, outputs, howners, _, hall⟩ := commandEntities_eq_some hentities
    have howned := List.length_pos_iff.mpr (ownerEntities_eq_some howners).2.1
    rw [hall] at hcount
    simp only [List.length_append] at hcount
    rw [← List.length_pos_iff]
    omega
  have hversion : itemTransferPayloadVersion ≠ 0 := by decide
  have htype : CriticalCommandType.test ≤ CriticalCommandType.itemTransfer ∧
      CriticalCommandType.itemTransfer ≤ CriticalCommandType.playerDeathRestitution := by decide
  have hvalid := @criticalCommandValid_of_ascend
    ⟨criticalCommandSchemaVersion, operationId, CriticalCommandType.itemTransfer,
      itemTransferPayloadVersion, sourceSite, deadlineClass, acceptedAtUsec, keys, revisions,
      encoded⟩ hascend hrevisions hkeyValid rfl hoperation hversion htype hsite hclass
    haccepted hnonempty hsize
  rw [criticalCommandNormalize_of_ascend hascend hrevisions]
  have hfits := hchecked.entities_length hentities
  rw [← hcount] at hfits
  by_cases hfull : payload.collector.present = true ∧ payload.targetParentItemUid ≠ 0 ∧
      payload.items.length = itemTransferMaxItems
  · rw [if_pos hfull, if_neg]
    intro hok
    exact hfits.mp (hvalid.mp hok) hfull
  · rw [if_neg hfull, if_pos (hvalid.mpr (hfits.mpr hfull))]

end Built

/-! ## What survives the way through a command -/

def corpseSection (payload : ItemTransferPayload) : Option ItemCorpseMetadata :=
  if payload.corpse.present then some payload.corpse else none

def collectorSection (payload : ItemTransferPayload) : Option ItemCollectorDeathEnrollment :=
  if payload.collector.present then some payload.collector else none

structure SameTransfer (payload decoded : ItemTransferPayload) : Prop where
  fromOwner : decoded.fromOwner = payload.fromOwner
  toOwner : decoded.toOwner = payload.toOwner
  reason : decoded.reason = payload.reason
  reasonId : decoded.reasonId = payload.reasonId
  fromRevision : decoded.expectedFromRevision = payload.expectedFromRevision
  toRevision : decoded.expectedToRevision = payload.expectedToRevision
  parentRevision : decoded.expectedTargetParentRevision = payload.expectedTargetParentRevision
  items : decoded.items = payload.items
  itemBlob : decoded.itemBlob = payload.itemBlob
  corpse : corpseSection decoded = corpseSection payload
  collector : collectorSection decoded = collectorSection payload
  selectedRoot : ∀ itemUid,
    itemTransferSelectedRoot decoded itemUid = itemTransferSelectedRoot payload itemUid
  selectedRoots : itemTransferSelectedRoots decoded = itemTransferSelectedRoots payload
  targetTopology : ∀ itemUid,
    itemTransferTargetTopology decoded itemUid = itemTransferTargetTopology payload itemUid

section Stored

variable {payload : ItemTransferPayload} {version : BitVec 16}

theorem corpseSection_stored : corpseSection (stored payload) = corpseSection payload := by
  unfold corpseSection
  rw [stored_corpse_present]
  split
  · next hpresent => rw [stored_corpse hpresent]
  · rfl

theorem collectorSection_stored :
    collectorSection (stored payload) = collectorSection payload := by
  unfold collectorSection
  rw [stored_collector_present]
  split
  · next hpresent => rw [stored_collector hpresent]
  · rfl

theorem Checked.selectedRoots_stored (h : Checked payload version) :
    itemTransferSelectedRoots (stored payload) = itemTransferSelectedRoots payload := by
  have hroots : selectedRootFor (stored payload) = selectedRootFor payload :=
    funext h.selectedRootFor_stored
  unfold itemTransferSelectedRoots
  rw [hroots]
  rfl

/-- One default shows: a tree put into another item without saying under which root. -/
theorem Checked.sameTransfer_stored (h : Checked payload version)
    (hset : ¬ (payload.multiRoot = false ∧ payload.targetParentItemUid ≠ 0 ∧
      payload.targetRootItemUid = 0)) : SameTransfer payload (stored payload) where
  fromOwner := rfl
  toOwner := rfl
  reason := rfl
  reasonId := rfl
  fromRevision := rfl
  toRevision := rfl
  parentRevision := rfl
  items := rfl
  itemBlob := rfl
  corpse := corpseSection_stored
  collector := collectorSection_stored
  selectedRoot := h.selectedRootFor_stored
  selectedRoots := h.selectedRoots_stored
  targetTopology := by
    refine h.targetTopologyFor_stored ?_
    by_contra hnone
    simp only [not_or, not_not, Bool.not_eq_true] at hnone
    exact hset ⟨hnone.1, hnone.2.1, hnone.2.2⟩

theorem findItem_head (entry : ItemTransferEntry) (items : List ItemTransferEntry) :
    findItem (entry :: items) entry.itemUid = some entry := by
  simp [findItem]

theorem Checked.topology_differs (h : Checked payload version)
    (hsingle : payload.multiRoot = false) (hparent : payload.targetParentItemUid ≠ 0)
    (hroot : payload.targetRootItemUid = 0) :
    ∃ itemUid, itemTransferTargetTopology (stored payload) itemUid ≠
      itemTransferTargetTopology payload itemUid := by
  obtain ⟨entry, rest, hitems⟩ := List.exists_cons_of_ne_nil h.nonempty
  have hfind : findPayloadItem payload entry.itemUid = some entry := by
    rw [findPayloadItem, hitems]
    exact findItem_head entry rest
  have hfindStored : findPayloadItem (stored payload) entry.itemUid = some entry := hfind
  have hselected : selectedRootFor payload entry.itemUid = effectiveSelected payload := by
    rw [selectedRootFor, if_neg (h.not_craft hsingle), if_pos hsingle]
    rfl
  have hne := h.effectiveSelected_ne_zero hsingle
  have htarget : (stored payload).targetRootItemUid = effectiveSelected payload := by
    show storedTargetRoot payload = _
    rw [storedTargetRoot_single hsingle, effectiveTargetRoot, if_neg (not_not.mpr hroot)]
  have hcraft : (stored payload).reason ≠ ItemTransferReason.craft := h.not_craft hsingle
  have hstoredParent : (stored payload).targetParentItemUid ≠ 0 := hparent
  refine ⟨entry.itemUid, ?_⟩
  unfold itemTransferTargetTopology targetTopologyFor
  rw [h.selectedRootFor_stored, hfind, hfindStored, hselected]
  dsimp only
  rw [if_neg hne, if_neg hcraft, if_pos hstoredParent, htarget, if_pos hne, if_neg hne,
    if_neg (h.not_craft hsingle), if_pos hparent, hroot, if_neg (not_not.mpr rfl)]
  exact Option.some_ne_none _

end Stored

/-- A built transfer command is normalised and decoded back to the same transfer, except
in two cases: its keys are too many when a death of the full 3000 items carries an
enrolment and is put into another item, and a single tree put into another item with no
target root comes back with one. -/
theorem itemTransfer_build_round_trip_iff {sha256 : Bytes → Vector UInt8 32}
    {operationId : CriticalOperationId} {payload : ItemTransferPayload}
    {sourceSite : CriticalSourceSite} {deadlineClass : CriticalDeadlineClass}
    {command : CriticalCommand} {acceptedAtUsec : BitVec 64}
    (hbuild : itemTransferCommandBuild sha256 operationId payload sourceSite deadlineClass =
      some command)
    (hsite : CriticalSourceSite.command ≤ sourceSite ∧
      sourceSite ≤ CriticalSourceSite.operatorRepair)
    (hclass : CriticalDeadlineClass.interactive ≤ deadlineClass ∧
      deadlineClass ≤ CriticalDeadlineClass.recovery)
    (haccepted : acceptedAtUsec ≠ 0) :
    (∃ normalized decoded,
      criticalCommandNormalize { command with acceptedAtUsec := acceptedAtUsec } =
        some normalized ∧
      itemTransferCommandDecodePayload sha256 normalized = some decoded ∧
      SameTransfer payload decoded) ↔
    ¬ (payload.collector.present = true ∧ payload.targetParentItemUid ≠ 0 ∧
        payload.items.length = itemTransferMaxItems) ∧
      ¬ (payload.multiRoot = false ∧ payload.targetParentItemUid ≠ 0 ∧
        payload.targetRootItemUid = 0) := by
  have hnormalize := criticalCommandNormalize_build hbuild hsite hclass haccepted
  have hdecode := itemTransferCommandDecodePayload_build hbuild acceptedAtUsec
  have hchecked := (itemTransferCommandBuild_eq_some hbuild).1
  constructor
  · rintro ⟨normalized, decoded, hnormalized, hdecoded, hsame⟩
    rw [hnormalize] at hnormalized
    split at hnormalized
    · cases hnormalized
    · next hfits =>
        cases hnormalized
        rw [hdecode] at hdecoded
        cases hdecoded
        refine ⟨hfits, ?_⟩
        rintro ⟨hsingle, hparent, hroot⟩
        obtain ⟨itemUid, hdiffers⟩ := hchecked.topology_differs hsingle hparent hroot
        exact hdiffers (hsame.targetTopology itemUid)
  · rintro ⟨hfits, hset⟩
    rw [if_neg hfits] at hnormalize
    exact ⟨_, stored payload, hnormalize, hdecode, hchecked.sameTransfer_stored hset⟩

/-! ## A death of loose items -/

theorem findItem_of_mem {items : List ItemTransferEntry} :
    (items.map ItemTransferEntry.itemUid).Pairwise (· < ·) →
      ∀ entry ∈ items, findItem items entry.itemUid = some entry := by
  induction items with
  | nil => intro _ entry hentry; cases hentry
  | cons head items ih =>
      intro hsorted entry hentry
      rw [List.map_cons, List.pairwise_cons] at hsorted
      rcases List.mem_cons.mp hentry with rfl | hmem
      · exact findItem_head entry items
      · have hless : head.itemUid < entry.itemUid := hsorted.1 _ (List.mem_map_of_mem hmem)
        have hrest := ih hsorted.2 entry hmem
        unfold findItem at hrest ⊢
        rw [List.dropWhile_cons, if_pos (decide_eq_true hless)]
        exact hrest

theorem findItem_zero {items : List ItemTransferEntry}
    (h : ∀ entry ∈ items, entry.itemUid ≠ 0) : findItem items 0 = none := by
  cases items with
  | nil => rfl
  | cons head items =>
      have hne := h head List.mem_cons_self
      have hnot : ¬ head.itemUid < 0 := BitVec.not_lt_zero
      unfold findItem
      rw [List.dropWhile_cons, if_neg (by rw [decide_eq_true_eq]; exact hnot)]
      exact if_neg hne

/-- A row of its own: no parent, and its own root. -/
def looseEntry (index : Nat) : ItemTransferEntry :=
  { itemUid := BitVec.ofNat 64 (index + 1)
    rootItemUid := BitVec.ofNat 64 (index + 1)
    parentItemUid := 0
    expectedItemRevision := 1
    vnum := 1
    expectedState := ItemCustodyState.active }

/-- The death of player 1, whose `count` loose items go with an enrolment into the corpse
and there into item 5000. -/
def looseDeath (count : Nat) : ItemTransferPayload :=
  { fromOwner := ⟨ItemOwnerType.player, 1, 0⟩
    toOwner := ⟨ItemOwnerType.corpse, 0x100000001, 0⟩
    reason := ItemTransferReason.corpseCreate
    reasonId := 0
    expectedFromRevision := 1
    expectedToRevision := 0
    selectedItemUid := 0
    targetRootItemUid := 5000
    targetParentItemUid := 5000
    expectedTargetParentRevision := 1
    multiRoot := true
    items := (List.range count).map looseEntry
    itemBlob := []
    corpse :=
      { present := true
        values := Vector.ofFn fun index =>
          if (index : Nat) = corpsePidValueIndex ∨ (index : Nat) = corpseSaveIdValueIndex then 1
          else 0
        ownerName := [0x41] }
    collector :=
      { present := true, deathOperation := ⟨List.replicate 16 1, List.length_replicate⟩,
        beneficiaryPid := 1,
        deathTime := 1, policy := ⟨1, 1, 1, 1, 1⟩ } }

theorem looseEntry_uid {index : Nat} (h : index < itemTransferMaxItems) :
    (looseEntry index).itemUid.toNat = index + 1 := by
  simp only [looseEntry, BitVec.toNat_ofNat]
  simp only [itemTransferMaxItems] at h
  exact Nat.mod_eq_of_lt (by omega)

variable {count : Nat}

theorem looseDeath_sorted (h : count ≤ itemTransferMaxItems) :
    ((looseDeath count).items.map ItemTransferEntry.itemUid).Pairwise (· < ·) := by
  rw [List.pairwise_map]
  show ((List.range count).map looseEntry).Pairwise _
  rw [List.pairwise_map]
  refine List.pairwise_lt_range.imp_of_mem fun {left right} hleft hright hlt => ?_
  rw [List.mem_range] at hleft hright
  rw [BitVec.lt_def, looseEntry_uid (by omega), looseEntry_uid (by omega)]
  omega

theorem looseDeath_uid (h : count ≤ itemTransferMaxItems) :
    ∀ entry ∈ (looseDeath count).items, ∃ index < count, entry = looseEntry index ∧
      entry.itemUid.toNat = index + 1 := by
  intro entry hentry
  obtain ⟨index, hindex, rfl⟩ := List.mem_map.mp hentry
  rw [List.mem_range] at hindex
  exact ⟨index, hindex, rfl, looseEntry_uid (by omega)⟩

theorem looseDeath_root (h : count ≤ itemTransferMaxItems) :
    ∀ entry ∈ (looseDeath count).items,
      selectedRootFor (looseDeath count) entry.itemUid = entry.itemUid := by
  intro entry hentry
  obtain ⟨index, _, rfl, _⟩ := looseDeath_uid h entry hentry
  have hnonzero : ∀ entry ∈ (looseDeath count).items, entry.itemUid ≠ 0 := by
    intro entry hentry hzero
    obtain ⟨_, _, _, hnat⟩ := looseDeath_uid h entry hentry
    rw [hzero] at hnat
    simp at hnat
  have hfind : findPayloadItem (looseDeath count) (looseEntry index).itemUid =
      some (looseEntry index) := findItem_of_mem (looseDeath_sorted h) _ hentry
  have hnone : findItem (looseDeath count).items (looseEntry index).parentItemUid = none :=
    findItem_zero hnonzero
  have hclimb : selectedRootFor (looseDeath count) (looseEntry index).itemUid =
      climb (looseDeath count).items ((looseDeath count).items.length + 1)
        (findPayloadItem (looseDeath count) (looseEntry index).itemUid) := rfl
  rw [hclimb, hfind, climb, hnone]

theorem looseDeath_checked (hpos : 0 < count) (h : count ≤ itemTransferMaxItems) :
    Checked (looseDeath count) itemTransferPayloadVersion where
  fromOwner := rfl
  toOwner := rfl
  reason := rfl
  nonempty := by
    intro hnil
    have := congrArg List.length hnil
    simp only [looseDeath, List.length_map, List.length_range, List.length_nil] at this
    omega
  count := by
    simp only [looseDeath, List.length_map, List.length_range]
    exact h
  legacyCount := fun hlegacy => absurd hlegacy (by decide)
  blob := Nat.zero_le _
  fromCollector := (by decide : ItemOwnerType.player ≠ ItemOwnerType.collector)
  toCollector := (by decide : ItemOwnerType.corpse ≠ ItemOwnerType.collector)
  collector := by
    simp [validCollectorContext, looseDeath, criticalOperationIdIsZero]
  playerTransfer := rfl
  craft := rfl
  pet := rfl
  corpseOwners := rfl
  corpse := (by decide : validCorpse (looseDeath 0) = true)
  ends := rfl
  multiRoot := by
    intro _
    have hrow : ∀ entry ∈ (looseDeath count).items,
        validBatchEntry (looseDeath count) entry = true := by
      intro entry hentry
      obtain ⟨index, _, rfl, hnat⟩ := looseDeath_uid h entry hentry
      have hroot := looseDeath_root h _ hentry
      have hfind : findPayloadItem (looseDeath count) (looseEntry index).itemUid =
          some (looseEntry index) := findItem_of_mem (looseDeath_sorted h) _ hentry
      have hnonzero : (looseEntry index).itemUid ≠ 0 := by
        intro hzero
        rw [hzero] at hnat
        simp at hnat
      unfold validBatchEntry targetTopologyFor
      rw [hroot, hfind]
      dsimp only
      rw [if_neg hnonzero]
      simp only [beq_self_eq_true, Bool.and_true]
      rfl
    simp only [validMultiRoot, Bool.and_eq_true, List.all_eq_true]
    refine ⟨⟨⟨⟨⟨⟨⟨rfl, rfl⟩, rfl⟩, rfl⟩, rfl⟩, rfl⟩, ?_⟩, fun entry hentry => ?_⟩
    · exact decide_eq_true (List.isChain_iff_pairwise.mpr (looseDeath_sorted h))
    · have hvalid := hrow entry hentry
      obtain ⟨index, hindex, rfl, hnat⟩ := looseDeath_uid h entry hentry
      have huid : ∀ uid : BitVec 64, uid.toNat = 0 ∨ 3000 < uid.toNat →
          (looseEntry index).itemUid ≠ uid := by
        intro uid huid hequal
        rw [hequal] at hnat
        simp only [itemTransferMaxItems] at h
        omega
      refine ⟨⟨⟨⟨?_, ?_⟩, rfl⟩, ?_⟩, hvalid⟩
      · exact bne_iff_ne.mpr (huid 0 (.inl rfl))
      · exact bne_iff_ne.mpr (huid 0 (.inl rfl))
      · exact bne_iff_ne.mpr (huid 5000 (.inr (by decide)))
  singleRoot := fun hsingle => absurd hsingle (by decide : ¬ true = false)

theorem looseDeath_encodes (hpos : 0 < count) (h : count ≤ itemTransferMaxItems) :
    ∃ encoded, itemTransferCommandEncodePayload (looseDeath count) = some encoded := by
  have hvalid := validatePayload_iff.mpr (looseDeath_checked hpos h)
  have hcorpse : ∃ corpse, encodeCorpseContext (looseDeath count).corpse = some corpse ∧
      corpse.length = 65 := ⟨_, rfl, by rfl⟩
  have hcollector : ∃ collector, encodeCollectorContext (looseDeath count).collector =
      some collector ∧ collector.length = 76 := ⟨_, rfl, by rfl⟩
  obtain ⟨corpse, hcorpse, hcorpseSize⟩ := hcorpse
  obtain ⟨collector, hcollector, hcollectorSize⟩ := hcollector
  have hsize : ¬ criticalCommandMaxPayloadBytes < (encodeHeader (looseDeath count) ++
      (looseDeath count).items.flatMap encodeEntry ++ encodeSection (looseDeath count).itemBlob ++
      encodeSection corpse ++ encodeSection collector).length := by
    have hcount : (looseDeath count).items.length = count := by simp [looseDeath]
    have hblob : (looseDeath count).itemBlob.length = 0 := rfl
    rw [encoded_length, hcount, hblob, hcorpseSize, hcollectorSize]
    simp only [itemTransferMaxItems, criticalCommandMaxPayloadBytes, itemTransferHeaderBytes,
      itemTransferEntryBytes] at h ⊢
    omega
  unfold itemTransferCommandEncodePayload
  rw [if_neg (by rw [hvalid]; decide), hcorpse, hcollector]
  simp only [Option.bind_eq_bind, Option.bind_some]
  rw [if_neg hsize]
  exact ⟨_, rfl⟩

theorem looseDeath_entities (h : count ≤ itemTransferMaxItems) (sha256 : Bytes → Vector UInt8 32) :
    ∃ entities, commandEntities sha256 (looseDeath count) = some entities ∧
      (entities.map CriticalExpectedRevision.key).Nodup := by
  refine ⟨_, rfl, ?_⟩
  have huids : ((looseDeath count).items.map ItemTransferEntry.itemUid).Nodup :=
    (looseDeath_sorted h).imp fun hlt hequal => absurd (hequal ▸ hlt) (BitVec.lt_irrefl _)
  have hparent : ∀ entry ∈ (looseDeath count).items, entry.itemUid ≠ 5000 := by
    intro entry hentry hequal
    obtain ⟨index, hindex, _, hnat⟩ := looseDeath_uid h entry hentry
    rw [hequal] at hnat
    simp only [itemTransferMaxItems] at h
    have : (5000 : BitVec 64).toNat = 5000 := rfl
    omega
  have hkeys : ((looseDeath count).items.map fun entry =>
      (⟨CriticalEntityType.item, entry.itemUid⟩ : CriticalEntityKey)).Nodup := by
    rw [List.nodup_map_iff_inj_on (List.Nodup.of_map _ huids)]
    intro left hleft right hright hequal
    rw [CriticalEntityKey.mk.injEq] at hequal
    exact List.inj_on_of_nodup_map huids hleft hright hequal.2
  show (⟨CriticalEntityType.player, 1⟩ :: ⟨CriticalEntityType.corpse, 0x100000001⟩ ::
    List.map CriticalExpectedRevision.key (((looseDeath count).items.map _ ++
      [⟨⟨CriticalEntityType.item, 5000⟩, 1⟩] ++ []) ++
      [⟨⟨CriticalEntityType.collector, collectorCatalogKey⟩, 0⟩])).Nodup
  rw [List.append_nil, List.append_assoc, List.map_append, List.map_map]
  refine List.nodup_cons.mpr ⟨?_, List.nodup_cons.mpr ⟨?_, List.nodup_append.mpr ⟨hkeys, ?_, ?_⟩⟩⟩
  · simp [CriticalEntityType.player, CriticalEntityType.corpse, CriticalEntityType.item,
      CriticalEntityType.collector]
  · simp [CriticalEntityType.corpse, CriticalEntityType.item, CriticalEntityType.collector]
  · simp [CriticalEntityType.item, CriticalEntityType.collector]
  · intro key hkey other hother hequal
    obtain ⟨entry, hentry, rfl⟩ := List.mem_map.mp hkey
    subst hequal
    simp [CriticalEntityType.item, CriticalEntityType.collector] at hother
    exact hparent entry hentry hother

theorem exists_itemTransferCommandBuild {payload : ItemTransferPayload} {encoded : Bytes}
    {entities : List CriticalExpectedRevision}
    (hencoded : itemTransferCommandEncodePayload payload = some encoded)
    (hentities : commandEntities sha256 payload = some entities)
    (hnodup : (entities.map CriticalExpectedRevision.key).Nodup)
    (hoperation : criticalOperationIdIsZero operationId = false) (sourceSite : CriticalSourceSite)
    (deadlineClass : CriticalDeadlineClass) :
    ∃ command, itemTransferCommandBuild sha256 operationId payload sourceSite deadlineClass =
      some command := by
  have hdistinct := adjacentEqual_of_nodup
    ((List.mergeSort_perm (entities.map CriticalExpectedRevision.key)
      fun a b => !criticalEntityKeyLess b a).nodup_iff.mpr hnodup)
  unfold itemTransferCommandBuild populateCommandEntities
  rw [hoperation, hencoded, hentities]
  simp only [Bool.false_eq_true, if_false, Option.bind_eq_bind, Option.bind_some, hdistinct,
    Option.pure_def, Option.some.injEq, exists_eq']

theorem looseDeath_builds (hpos : 0 < count) (h : count ≤ itemTransferMaxItems)
    (sha256 : Bytes → Vector UInt8 32)
    (hoperation : criticalOperationIdIsZero operationId = false) (sourceSite : CriticalSourceSite)
    (deadlineClass : CriticalDeadlineClass) :
    ∃ command, itemTransferCommandBuild sha256 operationId (looseDeath count) sourceSite
      deadlineClass = some command := by
  obtain ⟨encoded, hencoded⟩ := looseDeath_encodes hpos h
  obtain ⟨entities, hentities, hnodup⟩ := looseDeath_entities h sha256
  exact exists_itemTransferCommandBuild hencoded hentities hnodup hoperation sourceSite
    deadlineClass

/-- A death of one item, put into another with an enrolment, comes back. -/
theorem itemTransfer_build_round_trip_one : ∃ command normalized decoded,
    itemTransferCommandBuild Sha256.hash
      ⟨List.replicate 16 1, List.length_replicate⟩ (looseDeath 1) CriticalSourceSite.command
      CriticalDeadlineClass.interactive = some command ∧
    criticalCommandNormalize { command with acceptedAtUsec := 1 } = some normalized ∧
    itemTransferCommandDecodePayload Sha256.hash normalized = some decoded ∧
    SameTransfer (looseDeath 1) decoded := by
  obtain ⟨command, hbuild⟩ := looseDeath_builds (by decide : 0 < 1) (by decide)
    Sha256.hash
    (by decide : criticalOperationIdIsZero ⟨List.replicate 16 1, List.length_replicate⟩ = false)
    CriticalSourceSite.command CriticalDeadlineClass.interactive
  obtain ⟨normalized, decoded, hround⟩ := (itemTransfer_build_round_trip_iff hbuild (by decide)
    (by decide) (by decide : (1 : BitVec 64) ≠ 0)).mpr ⟨by decide, by decide⟩
  exact ⟨command, normalized, decoded, hbuild, hround⟩

/-- A death of three thousand is built, and is one key too many to be normalised. -/
theorem crowded_death_not_normalized : ∃ command,
    itemTransferCommandBuild Sha256.hash
      ⟨List.replicate 16 1, List.length_replicate⟩ (looseDeath 3000) CriticalSourceSite.command
      CriticalDeadlineClass.interactive = some command ∧
    criticalCommandNormalize { command with acceptedAtUsec := 1 } = none := by
  obtain ⟨command, hbuild⟩ := looseDeath_builds (by decide : 0 < 3000) (by decide)
    Sha256.hash
    (by decide : criticalOperationIdIsZero ⟨List.replicate 16 1, List.length_replicate⟩ = false)
    CriticalSourceSite.command CriticalDeadlineClass.interactive
  have hcount : (looseDeath 3000).items.length = itemTransferMaxItems := by
    simp [looseDeath, itemTransferMaxItems]
  refine ⟨command, hbuild, ?_⟩
  rw [criticalCommandNormalize_build hbuild (by decide) (by decide)
    (by decide : (1 : BitVec 64) ≠ 0),
    if_pos ⟨rfl, (by decide : (5000 : BitVec 64) ≠ 0), hcount⟩]

end Duris.Item
