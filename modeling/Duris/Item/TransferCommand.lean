import Duris.Player.SaveJournal

/-!
# Item transfer commands

`src/item/item_transfer_command.{h,c}`: the payload that moves items from one owner
to another, the check it has to pass, the layout it is stored in and the command it
is wrapped in.

The source keeps `item_count` and `item_blob_size` beside arrays of a fixed capacity;
here they are the lengths of `items` and `itemBlob`, and a count above the capacity is
a list that long, which the check refuses. Rows are looked up by binary search, which
on rows in ascending order is the first row not below the wanted uid. The decoder
answers true or false, so its reader has one failure. `SHA256` comes from a library
outside the repository and is a parameter; nothing here depends on more than its 32
bytes. Allocation succeeds.
-/

namespace Duris.Item

open Persistence Player

variable (sha256 : Bytes → Vector UInt8 32)

def itemTransferPayloadVersion : BitVec 16 := 7
def itemTransferBatchPayloadVersion : BitVec 16 := 6
def itemTransferCorpsePayloadVersion : BitVec 16 := 5
def itemTransferExactPayloadVersion : BitVec 16 := 4
def itemTransferLegacyPayloadVersion : BitVec 16 := 2
def itemTransferLegacyMaxItems : Nat := 12
def itemTransferMaxItems : Nat := 3000
def itemTransferHeaderBytes : Nat := 96
def itemTransferEntryBytes : Nat := 40
def itemTransferPayloadBytes : Nat :=
  itemTransferHeaderBytes + itemTransferLegacyMaxItems * itemTransferEntryBytes
def itemTransferItemBlobMaxBytes : Nat := 128 * 1024
def itemTransferResultBytes : Nat := 48
def itemTransferLegacyResultBytes : Nat := 40
def itemTransferCorpseNameMaxBytes : Nat := 255
def itemTransferCorpseShortDescriptionMaxBytes : Nat := 512
def itemTransferCorpseDescriptionMaxBytes : Nat := 64 * 1024
def itemTransferCorpseKeywordsMaxBytes : Nat := 512
def corpseContextVersion : BitVec 32 := 1
def collectorContextVersion : BitVec 32 := 1
def collectorCatalogKey : BitVec 64 := BitVec.allOnes 64
def corpsePidValueIndex : Nat := 3
def corpseRacewarValueIndex : Nat := 5
def corpseSaveIdValueIndex : Nat := 6
def int32Max : Nat := 2147483647

/-- `item_transfer_reason`, at its underlying width. -/
abbrev ItemTransferReason := BitVec 16

namespace ItemTransferReason

def unknown : ItemTransferReason := 0
def creation : ItemTransferReason := 2
def destruction : ItemTransferReason := 3
def operatorRepair : ItemTransferReason := 4
def playerGet : ItemTransferReason := 5
def playerDrop : ItemTransferReason := 6
def playerPut : ItemTransferReason := 7
def corpseCreate : ItemTransferReason := 9
def corpseLoot : ItemTransferReason := 11
def lockerDeposit : ItemTransferReason := 12
def lockerWithdraw : ItemTransferReason := 13
def auctionClaim : ItemTransferReason := 15
def shopBuy : ItemTransferReason := 16
def shopSell : ItemTransferReason := 17
def mobileClaim : ItemTransferReason := 18
def collectorCollect : ItemTransferReason := 19
def collectorBuyback : ItemTransferReason := 20
def collectorExpire : ItemTransferReason := 21
def corpseRaisePet : ItemTransferReason := 23
def petGive : ItemTransferReason := 24
def petReturn : ItemTransferReason := 25
def trustedSteal : ItemTransferReason := 26
def soulbind : ItemTransferReason := 27
def slip : ItemTransferReason := 28
def craft : ItemTransferReason := 29

end ItemTransferReason

structure ItemCorpseMetadata where
  present : Bool := false
  roomVnum : BitVec 32 := 0
  weight : BitVec 32 := 0
  actorRacewar : BitVec 8 := 0
  values : Vector (BitVec 32) 8 := Vector.replicate 8 0
  ownerName : Bytes := []
  shortDescription : Bytes := []
  description : Bytes := []
  keywords : Bytes := []

structure ItemCollectorDeathPolicy where
  collectionDelay : BitVec 64 := 0
  saleDelay : BitVec 64 := 0
  holdingDuration : BitVec 64 := 0
  pricePercent : BitVec 64 := 0
  minimumValue : BitVec 64 := 0

/-- The operation id `{}`: sixteen zero bytes. -/
def zeroOperationId : CriticalOperationId := ⟨List.replicate 16 0, List.length_replicate⟩

structure ItemCollectorDeathEnrollment where
  present : Bool := false
  deathOperation : CriticalOperationId := zeroOperationId
  beneficiaryPid : BitVec 32 := 0
  deathTime : BitVec 64 := 0
  policy : ItemCollectorDeathPolicy := {}
  eligibleItemUids : List (BitVec 64) := []

structure ItemTransferPayload where
  fromOwner : ItemOwnerIdentity
  toOwner : ItemOwnerIdentity
  reason : ItemTransferReason
  reasonId : BitVec 64
  expectedFromRevision : BitVec 64
  expectedToRevision : BitVec 64
  selectedItemUid : BitVec 64
  targetRootItemUid : BitVec 64
  targetParentItemUid : BitVec 64
  expectedTargetParentRevision : BitVec 64
  multiRoot : Bool
  items : List ItemTransferEntry
  itemBlob : Bytes
  corpse : ItemCorpseMetadata
  collector : ItemCollectorDeathEnrollment

/-! ## Owners -/

def itemOwnerIdentityValid (owner : ItemOwnerIdentity) : Bool :=
  if owner.type ≤ ItemOwnerType.unknown ∨ ItemOwnerType.pet < owner.type then false
  else if owner.type = ItemOwnerType.system ∨ owner.type = ItemOwnerType.destruction then
    owner.id == 0 && owner.contextId == 0
  else if owner.type = ItemOwnerType.collector then owner.id != 0 && owner.contextId == 0
  else if owner.type = ItemOwnerType.pet then
    owner.id != 0 && owner.contextId != 0 && decide (owner.contextId.toNat ≤ int32Max)
  else owner.id != 0

def itemOwnerIdentityEqual (left right : ItemOwnerIdentity) : Bool :=
  left.type == right.type && left.id == right.id && left.contextId == right.contextId

def entityTypeForOwner (type : ItemOwnerType) : CriticalEntityType :=
  if type = ItemOwnerType.player then CriticalEntityType.player
  else if type = ItemOwnerType.container then CriticalEntityType.item
  else if type = ItemOwnerType.corpse then CriticalEntityType.corpse
  else if type = ItemOwnerType.locker then CriticalEntityType.locker
  else if type = ItemOwnerType.auction then CriticalEntityType.auction
  else if type = ItemOwnerType.room then CriticalEntityType.room
  else if type = ItemOwnerType.shopkeeper then CriticalEntityType.shopkeeper
  else if type = ItemOwnerType.collector then CriticalEntityType.collector
  else if type = ItemOwnerType.pet then CriticalEntityType.pet
  else CriticalEntityType.system

def encodeOwner (owner : ItemOwnerIdentity) : Bytes :=
  appendLe owner.type ++ appendLe owner.id ++ appendLe owner.contextId

/-- `item_owner_key`: the id itself, or a digest of the owner where the id alone does
not tell it, never zero. -/
def itemOwnerKey (owner : ItemOwnerIdentity) : Option CriticalEntityKey :=
  if itemOwnerIdentityValid owner = false then none
  else if owner.id ≠ 0 ∧ owner.contextId = 0 then
    some ⟨entityTypeForOwner owner.type, owner.id⟩
  else
    let identity := getLe 64 (sha256 (encodeOwner owner)).toList 0
    some ⟨entityTypeForOwner owner.type, if identity = 0 then 1 else identity⟩

/-! ## Rows, roots and where they go -/

/-- `valid_reason`: the collector has commands of its own. -/
def validReason (reason : ItemTransferReason) : Bool :=
  decide (ItemTransferReason.unknown < reason) && decide (reason ≤ ItemTransferReason.craft) &&
    reason != ItemTransferReason.collectorCollect &&
    reason != ItemTransferReason.collectorBuyback && reason != ItemTransferReason.collectorExpire

/-- `std::lower_bound` over the rows, and the row found if it is the one wanted. -/
def findItem (items : List ItemTransferEntry) (itemUid : BitVec 64) : Option ItemTransferEntry :=
  match items.dropWhile (fun entry => decide (entry.itemUid < itemUid)) with
  | [] => none
  | entry :: _ => if entry.itemUid = itemUid then some entry else none

def findPayloadItem (payload : ItemTransferPayload) (itemUid : BitVec 64) :
    Option ItemTransferEntry :=
  findItem payload.items itemUid

/-- The loop of `selected_root_for`: from a row to the topmost row above it, with as
many steps left as `depth` has. -/
def climb (items : List ItemTransferEntry) : Nat → Option ItemTransferEntry → BitVec 64
  | 0, _ => 0
  | _ + 1, none => 0
  | depth + 1, some entry =>
      match findItem items entry.parentItemUid with
      | none => entry.itemUid
      | some parent => climb items depth (some parent)

/-- `payload.items[0].root_item_uid`. -/
def firstRoot (payload : ItemTransferPayload) : BitVec 64 :=
  match payload.items with
  | [] => 0
  | entry :: _ => entry.rootItemUid

def selectedRootFor (payload : ItemTransferPayload) (itemUid : BitVec 64) : BitVec 64 :=
  if payload.reason = ItemTransferReason.craft then
    climb payload.items (payload.items.length + 1) (findPayloadItem payload itemUid)
  else if payload.multiRoot = false then
    if payload.selectedItemUid ≠ 0 then payload.selectedItemUid else firstRoot payload
  else climb payload.items (payload.items.length + 1) (findPayloadItem payload itemUid)

/-- `target_topology_for`: the root and the parent of a row at its new owner. -/
def targetTopologyFor (payload : ItemTransferPayload) (itemUid : BitVec 64) :
    Option (BitVec 64 × BitVec 64) :=
  match findPayloadItem payload itemUid with
  | none => none
  | some entry =>
      let selectedRoot := selectedRootFor payload itemUid
      if selectedRoot = 0 then none
      else if payload.reason = ItemTransferReason.craft then
        some (entry.rootItemUid, entry.parentItemUid)
      else
        let rootItemUid :=
          if payload.targetParentItemUid ≠ 0 then payload.targetRootItemUid else selectedRoot
        let parentItemUid :=
          if itemUid = selectedRoot then payload.targetParentItemUid else entry.parentItemUid
        if rootItemUid ≠ 0 then some (rootItemUid, parentItemUid) else none

def itemTransferSelectedRoot (payload : ItemTransferPayload) (itemUid : BitVec 64) : BitVec 64 :=
  selectedRootFor payload itemUid

/-- `item_transfer_selected_roots`: the rows that are their own root. -/
def itemTransferSelectedRoots (payload : ItemTransferPayload) : Option (List (BitVec 64)) :=
  let own := (payload.items.map ItemTransferEntry.itemUid).filter
    fun itemUid => selectedRootFor payload itemUid == itemUid
  let roots := unique (· == ·) (own.mergeSort fun a b => decide (a ≤ b))
  if roots = [] then none else some roots

/-- The loop of `item_transfer_result_root` behind the least selected root so far. -/
def resultRootFrom (payload : ItemTransferPayload) :
    BitVec 64 → List ItemTransferEntry → BitVec 64
  | result, [] => result
  | result, entry :: entries =>
      let selectedRoot := selectedRootFor payload entry.itemUid
      if selectedRoot = 0 then 0
      else
        resultRootFrom payload
          (if result = 0 ∨ selectedRoot < result then selectedRoot else result) entries

/-- `item_transfer_result_root`: the least selected root, nothing when a row has none. -/
def itemTransferResultRoot (payload : ItemTransferPayload) : BitVec 64 :=
  if payload.reason = ItemTransferReason.craft then payload.selectedItemUid
  else resultRootFrom payload 0 payload.items

def itemTransferTargetTopology (payload : ItemTransferPayload) (itemUid : BitVec 64) :
    Option (BitVec 64 × BitVec 64) :=
  targetTopologyFor payload itemUid

/-! ## The check -/

/-- One crafted output at its index: a real item whose parent stands before it. Only the
first is the selected item, and no other root has its uid. -/
def craftOutputsFrom (selectedItemUid : BitVec 64) : Nat → List PlayerItemSnapshot → Bool
  | _, [] => true
  | index, output :: outputs =>
      output.objectUid != 0 && decide (0 < output.vnum.toInt) &&
        decide (output.parentIndex.toInt < index) &&
        decide (playerSnapshotNoParent ≤ output.parentIndex.toInt) &&
        !(index == 0 && output.objectUid != selectedItemUid) &&
        !(index != 0 && output.parentIndex.toInt == playerSnapshotNoParent &&
          output.objectUid == selectedItemUid) &&
        craftOutputsFrom selectedItemUid (index + 1) outputs

def decodeCraftOutputs (payload : ItemTransferPayload) : Option (List PlayerItemSnapshot) :=
  if payload.reason ≠ ItemTransferReason.craft ∨
      itemTransferItemBlobMaxBytes < payload.itemBlob.length then none
  else if payload.itemBlob = [] then some []
  else
    match playerItemSnapshotListDecode payload.itemBlob with
    | .error _ => none
    | .ok outputs =>
        if outputs = [] ∨ itemTransferMaxItems < outputs.length ∨
            craftOutputsFrom payload.selectedItemUid 0 outputs = false then none
        else
          let uids := (outputs.map PlayerItemSnapshot.objectUid).mergeSort
            fun a b => decide (a ≤ b)
          if uids.IsChain (· ≠ ·) then some outputs else none

def validCollectorContext (payload : ItemTransferPayload) (payloadVersion : BitVec 16) : Bool :=
  let collector := payload.collector
  if collector.present = false then collector.eligibleItemUids.isEmpty
  else if payloadVersion < itemTransferPayloadVersion ∨
      payload.reason ≠ ItemTransferReason.corpseCreate ∨ payload.corpse.present = false ∨
      criticalOperationIdIsZero collector.deathOperation = true ∨
      collector.beneficiaryPid = 0 ∨ collector.deathTime = 0 ∨
      collector.beneficiaryPid ≠ (payload.toOwner.id >>> 32).setWidth 32 ∨
      collector.deathTime ≠ (payload.toOwner.id.setWidth 32).setWidth 64 ∨
      collector.policy.collectionDelay = 0 ∨
      collector.policy.saleDelay < collector.policy.collectionDelay ∨
      collector.policy.holdingDuration = 0 ∨ collector.policy.pricePercent = 0 ∨
      collector.policy.minimumValue = 0 ∨
      payload.items.length < collector.eligibleItemUids.length ∨
      ¬ collector.eligibleItemUids.IsChain (· ≤ ·) ∨
      ¬ collector.eligibleItemUids.IsChain (· ≠ ·) then false
  else collector.eligibleItemUids.all fun uid => (findPayloadItem payload uid).isSome

/-- `valid_text`: printable bytes only. -/
def validText (value : Bytes) (maximum : Nat) (required : Bool) : Bool :=
  if (required = true ∧ value = []) ∨ maximum < value.length then false
  else value.all fun character => decide (0x20 ≤ character) && character != 0x7f

/-- A corpse raised where it lies in a room, which no corpse record describes. -/
def worldCorpseRaisePet (payload : ItemTransferPayload) : Bool :=
  payload.reason == ItemTransferReason.corpseRaisePet &&
    payload.fromOwner.type == ItemOwnerType.room && payload.fromOwner.id != 0 &&
    decide (payload.fromOwner.id.toNat ≤ int32Max) && payload.fromOwner.contextId == 0 &&
    payload.toOwner.type == ItemOwnerType.pet && payload.toOwner.id != 0 &&
    payload.toOwner.contextId != 0 && decide (payload.toOwner.contextId.toNat ≤ int32Max) &&
    payload.multiRoot && payload.targetRootItemUid == 0 && payload.targetParentItemUid == 0 &&
    payload.reasonId == payload.toOwner.id

/-- A theft, a soulbind or a slip moves one tree between two players. -/
def validPlayerTransfer (payload : ItemTransferPayload) (payloadVersion : BitVec 16) : Bool :=
  if payload.reason = ItemTransferReason.trustedSteal ∨
      payload.reason = ItemTransferReason.soulbind ∨
      payload.reason = ItemTransferReason.slip then
    decide (itemTransferPayloadVersion ≤ payloadVersion) &&
      payload.fromOwner.type == ItemOwnerType.player &&
      payload.toOwner.type == ItemOwnerType.player && payload.fromOwner.id != 0 &&
      payload.toOwner.id != 0 && decide (payload.fromOwner.id.toNat ≤ int32Max) &&
      decide (payload.toOwner.id.toNat ≤ int32Max) && payload.fromOwner.contextId == 0 &&
      payload.toOwner.contextId == 0 && payload.fromOwner.id != payload.toOwner.id &&
      !payload.multiRoot && payload.targetParentItemUid == 0 &&
      payload.reasonId == payload.fromOwner.id
  else true

/-- A craft retires rows of one player and admits the outputs in the blob. -/
def validCraft (payload : ItemTransferPayload) (payloadVersion : BitVec 16) : Bool :=
  if payload.reason = ItemTransferReason.craft then
    if payloadVersion < itemTransferBatchPayloadVersion ∨
        payload.fromOwner.type ≠ ItemOwnerType.player ∨
        payload.toOwner.type ≠ ItemOwnerType.player ∨
        itemOwnerIdentityEqual payload.fromOwner payload.toOwner = false ∨
        payload.fromOwner.id = 0 ∨ payload.fromOwner.contextId ≠ 0 ∨
        payload.toOwner.contextId ≠ 0 ∨ payload.multiRoot = false ∨
        payload.selectedItemUid = 0 ∨ payload.targetRootItemUid ≠ 0 ∨
        payload.targetParentItemUid ≠ 0 ∨ payload.expectedTargetParentRevision ≠ 0 then false
    else
      match decodeCraftOutputs payload with
      | none => false
      | some outputs =>
          !(outputs.isEmpty && (findPayloadItem payload payload.selectedItemUid).isNone) &&
            decide (payload.items.length + outputs.length ≤ criticalCommandMaxKeys - 2) &&
            outputs.all fun output =>
              payload.items.all fun entry => output.objectUid != entry.itemUid
  else true

def validPet (payload : ItemTransferPayload) : Bool :=
  let petGive := payload.reason == ItemTransferReason.petGive
  let petReturn := payload.reason == ItemTransferReason.petReturn
  !((payload.fromOwner.type == ItemOwnerType.pet || payload.toOwner.type == ItemOwnerType.pet) &&
      !petGive && !petReturn && payload.reason != ItemTransferReason.corpseRaisePet) &&
    !(petGive && (payload.fromOwner.type != ItemOwnerType.player ||
      payload.toOwner.type != ItemOwnerType.pet ||
      payload.fromOwner.id != payload.toOwner.contextId ||
      payload.reasonId != payload.toOwner.id)) &&
    !(petReturn && (payload.fromOwner.type != ItemOwnerType.pet ||
      payload.toOwner.type != ItemOwnerType.player ||
      payload.fromOwner.contextId != payload.toOwner.id ||
      payload.reasonId != payload.fromOwner.id)) &&
    !((petGive || petReturn) && (payload.multiRoot || payload.targetParentItemUid != 0))

/-- Whether a corpse record has to be there, and who may stand on either side. -/
def validCorpseOwners (payload : ItemTransferPayload) (payloadVersion : BitVec 16) : Bool :=
  let corpseCreate := payload.reason == ItemTransferReason.corpseCreate
  let corpseLoot := payload.reason == ItemTransferReason.corpseLoot
  let raised :=
    payload.reason == ItemTransferReason.corpseRaisePet && !worldCorpseRaisePet payload
  let required := decide (itemTransferCorpsePayloadVersion ≤ payloadVersion) &&
    (corpseCreate || corpseLoot || raised)
  required == payload.corpse.present &&
    !(corpseCreate && (payload.fromOwner.type != ItemOwnerType.player ||
      payload.toOwner.type != ItemOwnerType.corpse)) &&
    !(corpseLoot && (payload.fromOwner.type != ItemOwnerType.corpse ||
      payload.toOwner.type != ItemOwnerType.player)) &&
    !(raised && (payload.fromOwner.type != ItemOwnerType.corpse ||
      payload.toOwner.type != ItemOwnerType.pet))

/-- The corpse record against the owner it stands for. -/
def validCorpse (payload : ItemTransferPayload) : Bool :=
  if payload.corpse.present = false then true
  else
    let owner :=
      if payload.reason = ItemTransferReason.corpseCreate then payload.toOwner
      else payload.fromOwner
    let ownerPid := (owner.id >>> 32).setWidth 32
    let saveId := owner.id.setWidth 32
    let corpse := payload.corpse
    ownerPid != 0 && decide (ownerPid.toNat ≤ int32Max) && saveId != 0 &&
      decide (saveId.toNat ≤ int32Max) && owner.contextId == 0 &&
      decide (0 ≤ corpse.roomVnum.toInt) && decide (corpse.actorRacewar ≤ 4) &&
      corpse.values.getD corpsePidValueIndex 0 == ownerPid &&
      corpse.values.getD corpseSaveIdValueIndex 0 == saveId &&
      decide (0 ≤ (corpse.values.getD corpseRacewarValueIndex 0).toInt) &&
      decide ((corpse.values.getD corpseRacewarValueIndex 0).toInt ≤ 4) &&
      validText corpse.ownerName itemTransferCorpseNameMaxBytes true &&
      validText corpse.shortDescription itemTransferCorpseShortDescriptionMaxBytes false &&
      validText corpse.description itemTransferCorpseDescriptionMaxBytes false &&
      validText corpse.keywords itemTransferCorpseKeywordsMaxBytes false

/-- Items come out of the system by creation and go to destruction by destruction, and
in no other way. -/
def validEnds (payload : ItemTransferPayload) : Bool :=
  let creation := payload.fromOwner.type == ItemOwnerType.system
  let destruction := payload.toOwner.type == ItemOwnerType.destruction
  payload.toOwner.type != ItemOwnerType.system &&
    payload.fromOwner.type != ItemOwnerType.destruction &&
    (payload.reason == ItemTransferReason.creation) == creation &&
    (payload.reason == ItemTransferReason.destruction) == destruction &&
    !((creation || destruction) && itemOwnerIdentityEqual payload.fromOwner payload.toOwner)

def ascending (items : List ItemTransferEntry) : Bool :=
  decide ((items.map ItemTransferEntry.itemUid).IsChain (· < ·))

/-- A row of a creation batch: absent so far, and already where it is going. -/
def validCreationEntry (payload : ItemTransferPayload) (entry : ItemTransferEntry) : Bool :=
  let selectedRoot := selectedRootFor payload entry.itemUid
  entry.expectedItemRevision == itemTransferAbsentRevision &&
    entry.expectedState == ItemCustodyState.absent &&
    (match findPayloadItem payload selectedRoot with
      | none => false
      | some root => selectedRoot == entry.rootItemUid && root.rootItemUid == root.itemUid &&
          root.parentItemUid == 0) &&
    targetTopologyFor payload entry.itemUid == some (entry.rootItemUid, entry.parentItemUid)

/-- A row of any other batch: active, and under the same root as its selected root. -/
def validBatchEntry (payload : ItemTransferPayload) (entry : ItemTransferEntry) : Bool :=
  entry.expectedState == ItemCustodyState.active &&
    (match findPayloadItem payload (selectedRootFor payload entry.itemUid) with
      | none => false
      | some selected => selected.rootItemUid == entry.rootItemUid) &&
    (targetTopologyFor payload entry.itemUid).isSome

/-- The reasons that may move several trees at once, creation apart. -/
def batchReason (reason : ItemTransferReason) : Bool :=
  [ItemTransferReason.playerGet, ItemTransferReason.playerDrop, ItemTransferReason.playerPut,
    ItemTransferReason.lockerDeposit, ItemTransferReason.lockerWithdraw,
    ItemTransferReason.corpseLoot, ItemTransferReason.corpseRaisePet,
    ItemTransferReason.corpseCreate, ItemTransferReason.destruction,
    ItemTransferReason.craft].contains reason

/-- The branch of `validate_payload` for several trees. -/
def validMultiRoot (payload : ItemTransferPayload) (payloadVersion : BitVec 16) : Bool :=
  let craft := payload.reason == ItemTransferReason.craft
  let creationBatch := payload.fromOwner.type == ItemOwnerType.system &&
    payload.reason == ItemTransferReason.creation
  decide (itemTransferBatchPayloadVersion ≤ payloadVersion) &&
    !(!craft && payload.selectedItemUid != 0) &&
    (creationBatch || batchReason payload.reason) &&
    !(craft && payload.selectedItemUid == 0) &&
    !(creationBatch && (payload.toOwner.type != ItemOwnerType.player ||
      payload.targetRootItemUid != 0 || payload.targetParentItemUid != 0)) &&
    (if payload.targetParentItemUid ≠ 0 then payload.targetRootItemUid != 0
      else payload.targetRootItemUid == 0) &&
    ascending payload.items &&
    payload.items.all fun entry =>
      entry.itemUid != 0 && entry.rootItemUid != 0 && decide (0 < entry.vnum.toInt) &&
        entry.itemUid != payload.targetParentItemUid &&
        (if creationBatch then validCreationEntry payload entry
          else validBatchEntry payload entry)

/-- The ancestor loop: from a parent up to `selected`, in at most `depth` looks. -/
def reachesRoot (items : List ItemTransferEntry) (selected : BitVec 64) :
    Nat → BitVec 64 → Bool
  | 0, _ => false
  | depth + 1, ancestorUid =>
      if ancestorUid = selected then true
      else
        match items.find? (fun candidate => candidate.itemUid == ancestorUid) with
        | none => false
        | some parent => reachesRoot items selected depth parent.parentItemUid

/-- The selected item of a single tree, with its default. -/
def effectiveSelected (payload : ItemTransferPayload) : BitVec 64 :=
  if payload.selectedItemUid ≠ 0 then payload.selectedItemUid else firstRoot payload

def effectiveTargetRoot (payload : ItemTransferPayload) : BitVec 64 :=
  if payload.targetRootItemUid ≠ 0 then payload.targetRootItemUid else effectiveSelected payload

/-- The branch of `validate_payload` for one tree. -/
def validSingleRoot (payload : ItemTransferPayload) : Bool :=
  let sourceRoot := firstRoot payload
  let selected := effectiveSelected payload
  let targetRoot := effectiveTargetRoot payload
  let creation := payload.fromOwner.type == ItemOwnerType.system
  sourceRoot != 0 && selected != 0 && targetRoot != 0 &&
    !(payload.targetParentItemUid == 0 && targetRoot != selected) &&
    ascending payload.items &&
    (payload.items.all fun entry =>
      entry.itemUid != 0 && entry.rootItemUid == sourceRoot && decide (0 < entry.vnum.toInt) &&
        entry.expectedState ==
          (if creation then ItemCustodyState.absent else ItemCustodyState.active) &&
        !(creation && entry.expectedItemRevision != itemTransferAbsentRevision) &&
        entry.itemUid != payload.targetParentItemUid &&
        (entry.itemUid == selected || entry.parentItemUid != 0)) &&
    payload.items.countP (fun entry => entry.itemUid == selected) == 1 &&
    !(creation && selected != sourceRoot) &&
    payload.items.all fun entry =>
      entry.itemUid == selected ||
        reachesRoot payload.items selected payload.items.length entry.parentItemUid

def validatePayload (payload : ItemTransferPayload) (payloadVersion : BitVec 16) : Bool :=
  itemOwnerIdentityValid payload.fromOwner && itemOwnerIdentityValid payload.toOwner &&
    validReason payload.reason && !payload.items.isEmpty &&
    decide (payload.items.length ≤ itemTransferMaxItems) &&
    !(decide (payloadVersion < itemTransferBatchPayloadVersion) &&
      decide (itemTransferLegacyMaxItems < payload.items.length)) &&
    decide (payload.itemBlob.length ≤ itemTransferItemBlobMaxBytes) &&
    payload.fromOwner.type != ItemOwnerType.collector &&
    payload.toOwner.type != ItemOwnerType.collector &&
    validCollectorContext payload payloadVersion &&
    validPlayerTransfer payload payloadVersion && validCraft payload payloadVersion &&
    validPet payload && validCorpseOwners payload payloadVersion && validCorpse payload &&
    validEnds payload &&
    if payload.multiRoot then validMultiRoot payload payloadVersion else validSingleRoot payload

/-! ## The entities of the command -/

def ownerEntities (payload : ItemTransferPayload) : Option (List CriticalExpectedRevision) := do
  let fromKey ← itemOwnerKey sha256 payload.fromOwner
  let toKey ← itemOwnerKey sha256 payload.toOwner
  if itemOwnerIdentityEqual payload.fromOwner payload.toOwner then
    if payload.expectedFromRevision ≠ payload.expectedToRevision then none
    else some [⟨fromKey, payload.expectedFromRevision⟩]
  else some [⟨fromKey, payload.expectedFromRevision⟩, ⟨toKey, payload.expectedToRevision⟩]

def craftOutputs (payload : ItemTransferPayload) : Option (List PlayerItemSnapshot) :=
  if payload.reason = ItemTransferReason.craft then decodeCraftOutputs payload else some []

/-- The pushes of `populate_command_entities`, in order. A key is pushed together with
its revision, so one list has both. -/
def commandEntities (payload : ItemTransferPayload) : Option (List CriticalExpectedRevision) := do
  let owners ← ownerEntities sha256 payload
  let outputs ← craftOutputs payload
  return owners ++
    payload.items.map (fun entry =>
      ⟨⟨CriticalEntityType.item, entry.itemUid⟩, entry.expectedItemRevision⟩) ++
    (if payload.targetParentItemUid ≠ 0 then
      [⟨⟨CriticalEntityType.item, payload.targetParentItemUid⟩,
        payload.expectedTargetParentRevision⟩] else []) ++
    outputs.map (fun output =>
      ⟨⟨CriticalEntityType.item, output.objectUid⟩, itemTransferAbsentRevision⟩) ++
    (if payload.collector.present then
      [⟨⟨CriticalEntityType.collector, collectorCatalogKey⟩, 0⟩] else [])

/-- `populate_command_entities`: the keys and the revisions, each sorted. -/
def populateCommandEntities (payload : ItemTransferPayload) :
    Option (List CriticalEntityKey × List CriticalExpectedRevision) := do
  let entities ← commandEntities sha256 payload
  let keys := (entities.map CriticalExpectedRevision.key).mergeSort
    fun a b => !criticalEntityKeyLess b a
  if adjacentEqual keys then none
  else some (keys, entities.mergeSort fun a b => !criticalEntityKeyLess b.key a.key)

/-! ## The layout -/

def appendText (value : Bytes) : Option Bytes :=
  if 2 ^ 32 ≤ value.length then none
  else some (appendLe (BitVec.ofNat 32 value.length) ++ value)

/-- `encode_corpse_context`: nothing when there is no corpse record. -/
def encodeCorpseContext (corpse : ItemCorpseMetadata) : Option Bytes :=
  if corpse.present = false then some []
  else do
    let ownerName ← appendText corpse.ownerName
    let shortDescription ← appendText corpse.shortDescription
    let description ← appendText corpse.description
    let keywords ← appendText corpse.keywords
    return appendLe corpseContextVersion ++ appendLe corpse.roomVnum ++ appendLe corpse.weight ++
      appendLe (corpse.actorRacewar.setWidth 32) ++ corpse.values.toList.flatMap appendLe ++
      ownerName ++ shortDescription ++ description ++ keywords

def collectorFixedSize : Nat := 4 + 16 + 4 + 8 * 6 + 4

def encodeCollectorContext (collector : ItemCollectorDeathEnrollment) : Option Bytes :=
  if collector.present = false then some []
  else if (criticalCommandMaxPayloadBytes - collectorFixedSize) / 8 <
      collector.eligibleItemUids.length then none
  else
    some (appendLe collectorContextVersion ++ collector.deathOperation.bytes ++
      appendLe collector.beneficiaryPid ++ appendLe collector.deathTime ++
      appendLe collector.policy.collectionDelay ++ appendLe collector.policy.saleDelay ++
      appendLe collector.policy.holdingDuration ++ appendLe collector.policy.pricePercent ++
      appendLe collector.policy.minimumValue ++
      appendLe (BitVec.ofNat 32 collector.eligibleItemUids.length) ++
      collector.eligibleItemUids.flatMap appendLe)

def encodeEntry (entry : ItemTransferEntry) : Bytes :=
  appendLe entry.itemUid ++ appendLe entry.rootItemUid ++ appendLe entry.parentItemUid ++
    appendLe entry.expectedItemRevision ++ appendLe entry.vnum ++ appendLe entry.expectedState ++
    List.replicate 3 0

def encodeSection (bytes : Bytes) : Bytes := appendLe (BitVec.ofNat 32 bytes.length) ++ bytes

/-- The selected item as the header stores it: a batch has none, a craft aside. -/
def storedSelected (payload : ItemTransferPayload) : BitVec 64 :=
  if payload.multiRoot = true ∧ payload.reason ≠ ItemTransferReason.craft then 0
  else effectiveSelected payload

def storedTargetRoot (payload : ItemTransferPayload) : BitVec 64 :=
  if payload.multiRoot then payload.targetRootItemUid
  else if payload.targetRootItemUid ≠ 0 then payload.targetRootItemUid
  else storedSelected payload

def encodeHeader (payload : ItemTransferPayload) : Bytes :=
  encodeOwner payload.fromOwner ++ encodeOwner payload.toOwner ++ appendLe payload.reason ++
    appendLe (BitVec.ofNat 16 payload.items.length) ++ List.replicate 2 0 ++
    appendLe payload.reasonId ++ appendLe payload.expectedFromRevision ++
    appendLe payload.expectedToRevision ++ appendLe (storedSelected payload) ++
    appendLe (storedTargetRoot payload) ++ appendLe payload.targetParentItemUid ++
    appendLe payload.expectedTargetParentRevision

def itemTransferCommandEncodePayload (payload : ItemTransferPayload) : Option Bytes :=
  if validatePayload payload itemTransferPayloadVersion = false then none
  else do
    let corpseContext ← encodeCorpseContext payload.corpse
    let collectorContext ← encodeCollectorContext payload.collector
    let encoded := encodeHeader payload ++ payload.items.flatMap encodeEntry ++
      encodeSection payload.itemBlob ++ encodeSection corpseContext ++
      encodeSection collectorContext
    if criticalCommandMaxPayloadBytes < encoded.length then none else some encoded

open Reader

def readText (maximum : Nat) : Reader Unit Bytes := do
  let length ← field () 32
  require (length.toNat ≤ maximum) ()
  let value ← raw () length.toNat
  return value.1

def readCorpse : Reader Unit ItemCorpseMetadata := do
  let version ← field () 32
  require (version = corpseContextVersion) ()
  let roomVnum ← field () 32
  let weight ← field () 32
  let actorRacewar ← field () 32
  require (actorRacewar.toNat ≤ 255) ()
  let values ← many (field () 32) 8
  let ownerName ← readText itemTransferCorpseNameMaxBytes
  let shortDescription ← readText itemTransferCorpseShortDescriptionMaxBytes
  let description ← readText itemTransferCorpseDescriptionMaxBytes
  let keywords ← readText itemTransferCorpseKeywordsMaxBytes
  return { present := true, roomVnum, weight, actorRacewar := actorRacewar.setWidth 8,
           values := Vector.ofFn fun index => values.getD index 0,
           ownerName, shortDescription, description, keywords }

def decodeCorpseContext (encoded : Bytes) : Option ItemCorpseMetadata :=
  if encoded = [] then some {} else whole readCorpse encoded

def readCollector : Reader Unit ItemCollectorDeathEnrollment := do
  let version ← field () 32
  require (version = collectorContextVersion) ()
  let deathOperation ← raw () 16
  let beneficiaryPid ← field () 32
  let deathTime ← field () 64
  let collectionDelay ← field () 64
  let saleDelay ← field () 64
  let holdingDuration ← field () 64
  let pricePercent ← field () 64
  let minimumValue ← field () 64
  let count ← field () 32
  require (count.toNat ≤ itemTransferMaxItems) ()
  let eligibleItemUids ← many (field () 64) count.toNat
  return { present := true, deathOperation := .ofRaw deathOperation, beneficiaryPid, deathTime,
           policy := { collectionDelay, saleDelay, holdingDuration, pricePercent, minimumValue },
           eligibleItemUids }

def decodeCollectorContext (encoded : Bytes) : Option ItemCollectorDeathEnrollment :=
  if encoded = [] then some {} else whole readCollector encoded

def decodeOwner : Reader Unit ItemOwnerIdentity := do
  let type ← field () 8
  let id ← field () 64
  let contextId ← field () 64
  return ⟨type, id, contextId⟩

def decodeEntry : Reader Unit ItemTransferEntry := do
  let itemUid ← field () 64
  let rootItemUid ← field () 64
  let parentItemUid ← field () 64
  let expectedItemRevision ← field () 64
  let vnum ← field () 32
  let expectedState ← field () 8
  let padding ← raw () 3
  require (padding.1 = List.replicate 3 0) ()
  return { itemUid, rootItemUid, parentItemUid, expectedItemRevision, vnum, expectedState }

/-- A slot past the last row of a layout with a fixed number of slots. -/
def decodeUnusedEntry : Reader Unit Unit := do
  let slot ← raw () itemTransferEntryBytes
  require (slot.1 = List.replicate itemTransferEntryBytes 0) ()

def readSection (maximum : Nat) : Reader Unit Bytes := readText maximum

def readCorpseSection : Reader Unit ItemCorpseMetadata := do
  let encoded ← readSection criticalCommandMaxPayloadBytes
  ofOption () (decodeCorpseContext encoded)

def readCollectorSection : Reader Unit ItemCollectorDeathEnrollment := do
  let encoded ← readSection criticalCommandMaxPayloadBytes
  ofOption () (decodeCollectorContext encoded)

/-- What follows the rows, and since which version. -/
def readSections (payloadVersion : BitVec 16) :
    Reader Unit (Bytes × ItemCorpseMetadata × ItemCollectorDeathEnrollment) :=
  if payloadVersion < itemTransferExactPayloadVersion then pure ([], {}, {})
  else do
    let itemBlob ← readSection itemTransferItemBlobMaxBytes
    if payloadVersion = itemTransferExactPayloadVersion then return (itemBlob, {}, {})
    else
      let corpse ← readCorpseSection
      if payloadVersion < itemTransferPayloadVersion then return (itemBlob, corpse, {})
      else
        let collector ← readCollectorSection
        return (itemBlob, corpse, collector)

/-- A craft stored under the number that now means soulbind: only a craft stays with
one player. -/
def reasonOf (payloadVersion : BitVec 16) (reason : ItemTransferReason)
    (fromOwner toOwner : ItemOwnerIdentity) : ItemTransferReason :=
  if payloadVersion = 7 ∧ reason = ItemTransferReason.soulbind ∧
      fromOwner.type = ItemOwnerType.player ∧ itemOwnerIdentityEqual fromOwner toOwner = true then
    ItemTransferReason.craft
  else reason

/-- The reads of `item_transfer_command_decode_payload`, before it checks the payload. -/
def readPayload (payloadVersion : BitVec 16) : Reader Unit ItemTransferPayload := do
  let fromOwner ← decodeOwner
  let toOwner ← decodeOwner
  let wireReason ← field () 16
  let itemCount ← field () 16
  let _ ← raw () 2
  let reasonId ← field () 64
  let expectedFromRevision ← field () 64
  let expectedToRevision ← field () 64
  let selectedItemUid ← field () 64
  let targetRootItemUid ← field () 64
  let targetParentItemUid ← field () 64
  let expectedTargetParentRevision ← field () 64
  require (itemCount ≠ 0 ∧ itemCount.toNat ≤ itemTransferMaxItems ∧
    (payloadVersion < itemTransferBatchPayloadVersion →
      itemCount.toNat ≤ itemTransferLegacyMaxItems)) ()
  let items ← many decodeEntry itemCount.toNat
  let _ ← many decodeUnusedEntry (if itemTransferBatchPayloadVersion ≤ payloadVersion then 0
    else itemTransferLegacyMaxItems - itemCount.toNat)
  let sections ← readSections payloadVersion
  let reason := reasonOf payloadVersion wireReason fromOwner toOwner
  return { fromOwner, toOwner, reason, reasonId, expectedFromRevision, expectedToRevision,
           selectedItemUid, targetRootItemUid, targetParentItemUid,
           expectedTargetParentRevision
           multiRoot := decide (itemTransferBatchPayloadVersion ≤ payloadVersion) &&
             (selectedItemUid == 0 || reason == ItemTransferReason.craft)
           items, itemBlob := sections.1, corpse := sections.2.1, collector := sections.2.2 }

/-- The layouts the decoder knows, and the size each has to have. -/
def payloadSizeValid (payloadVersion : BitVec 16) (size : Nat) : Bool :=
  decide (itemTransferLegacyPayloadVersion ≤ payloadVersion) &&
    decide (payloadVersion ≤ itemTransferPayloadVersion) &&
    (if itemTransferExactPayloadVersion ≤ payloadVersion then
      decide (itemTransferHeaderBytes + itemTransferEntryBytes + 4 ≤ size)
    else size == itemTransferPayloadBytes)

def itemTransferCommandDecodePayload (command : CriticalCommand) : Option ItemTransferPayload :=
  if command.type ≠ CriticalCommandType.itemTransfer ∨
      payloadSizeValid command.payloadVersion command.payload.length = false then none
  else do
    let payload ← whole (readPayload command.payloadVersion) command.payload
    if validatePayload payload command.payloadVersion = false ∨
        (command.payloadVersion = itemTransferLegacyPayloadVersion ∧
          ItemTransferReason.auctionClaim < payload.reason) then none
    else
      let expected ← populateCommandEntities sha256 payload
      if (command.keys, command.expectedRevisions) = expected then some payload else none

/-! ## The result -/

structure ItemTransferResult where
  rootItemUid : BitVec 64 := 0
  itemCount : BitVec 16 := 0
  fromOwnerRevision : BitVec 64 := 0
  toOwnerRevision : BitVec 64 := 0
  maxItemRevision : BitVec 64 := 0
  corpseRevision : BitVec 64 := 0
  collectorCatalogChanged : Bool := false
  deriving DecidableEq

/-- `item_transfer_command_encode_result`: nothing for a result the decoder refuses. -/
def itemTransferCommandEncodeResult (result : ItemTransferResult) : Option Bytes :=
  if result.rootItemUid = 0 ∨ result.itemCount = 0 ∨
      itemTransferMaxItems < result.itemCount.toNat then none
  else
    some (appendLe result.rootItemUid ++ appendLe result.itemCount ++
      [if result.collectorCatalogChanged then 1 else 0] ++ List.replicate 5 0 ++
      appendLe result.fromOwnerRevision ++ appendLe result.toOwnerRevision ++
      appendLe result.maxItemRevision ++ appendLe result.corpseRevision)

def itemTransferCommandDecodeResult (encoded : Bytes) : Option ItemTransferResult :=
  if (encoded.length ≠ itemTransferResultBytes ∧
      encoded.length ≠ itemTransferLegacyResultBytes) ∨ 1 < encoded.getD 10 0 ∨
      ((encoded.drop 11).take 5).any (· != 0) then none
  else
    let result : ItemTransferResult :=
      { rootItemUid := getLe 64 encoded 0
        itemCount := getLe 16 encoded 8
        fromOwnerRevision := getLe 64 encoded 16
        toOwnerRevision := getLe 64 encoded 24
        maxItemRevision := getLe 64 encoded 32
        corpseRevision :=
          if encoded.length = itemTransferResultBytes then getLe 64 encoded 40 else 0
        collectorCatalogChanged := encoded.getD 10 0 != 0 }
    if result.rootItemUid = 0 ∨ result.itemCount = 0 ∨
        itemTransferMaxItems < result.itemCount.toNat then none
    else some result

/-! ## The command -/

def itemTransferCommandBuild (operationId : CriticalOperationId) (payload : ItemTransferPayload)
    (sourceSite : CriticalSourceSite) (deadlineClass : CriticalDeadlineClass) :
    Option CriticalCommand :=
  if criticalOperationIdIsZero operationId then none
  else do
    let encoded ← itemTransferCommandEncodePayload payload
    let entities ← populateCommandEntities sha256 payload
    return {
      schemaVersion := criticalCommandSchemaVersion
      operationId := operationId
      type := CriticalCommandType.itemTransfer
      payloadVersion := itemTransferPayloadVersion
      sourceSite := sourceSite
      deadlineClass := deadlineClass
      acceptedAtUsec := 0
      keys := entities.1
      expectedRevisions := entities.2
      payload := encoded }

end Duris.Item
