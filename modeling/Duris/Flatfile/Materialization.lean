import Duris.Economy.ShopTradeCommand
import Duris.Flatfile.ItemCustody
import Mathlib.Data.Finset.Basic
import Mathlib.Data.Finset.Dedup

/-!
# The log of materializations

`src/flatfile/flatfile_shop_trade_materialization.c`, the log and what is appended to it:
for every trade, transfer and raise that brings items to a player or takes them away
there is an event with the items themselves, so that a player whose last save is older
than the custody of his items gets them back at the next login. An event that later
events supersede is dropped, before and after each append.

The file is a catalogue of events under a digest. The numbers of a pet stand in the blob
of the event that raised it, before the items. `compact_catalog` moves the events out
that it retains; here they are the list itself. Allocation does not fail, and a file that
is there can be read.
-/

namespace Duris.Flatfile.Materialization

open Persistence Player Item Economy Ownership Reader

variable (sha256 : Bytes → Vector UInt8 32)

/-- `flatfile_shop_trade_materialization_result`, but for `ok`. -/
inductive Refusal where
  | unchanged
  | invalid
  | ioError
  deriving DecidableEq

/-- The byte of an event's action: a `shop_trade_action`, or one of two further values. -/
abbrev EventAction := BitVec 8

namespace EventAction

def unknown : EventAction := 0
def buyExisting : EventAction := 1
def buyProduced : EventAction := 2
def sellStore : EventAction := 3
def sellDestroy : EventAction := 4
def discardInvalid : EventAction := 5
def petRaise : EventAction := 6
def petReceive : EventAction := 7

def ofTrade : ShopTradeAction → EventAction
  | .unknown => unknown
  | .buyExisting => buyExisting
  | .buyProduced => buyProduced
  | .sellStore => sellStore
  | .sellDestroy => sellDestroy
  | .discardInvalid => discardInvalid

def inbound (action : EventAction) : Bool :=
  action == buyExisting || action == buyProduced || action == petRaise || action == petReceive

def valid (action : EventAction) : Bool :=
  action.inbound || action == sellStore || action == sellDestroy

end EventAction

structure MaterializationEvent where
  operationId : CriticalOperationId
  action : EventAction
  playerPid : BitVec 32
  itemBlob : Bytes
  deriving DecidableEq

structure MaterializationCatalog where
  revision : BitVec 64 := 0
  events : List MaterializationEvent := []
  deriving DecidableEq

structure PlayerItemKey where
  playerPid : BitVec 32
  itemUid : BitVec 64
  deriving DecidableEq

def catalogMagic : Bytes := [0x44, 0x55, 0x52, 0x53, 0x48, 0x4D, 0x41, 0x54]
def catalogVersion : BitVec 32 := 1
def catalogMaximumEvents : Nat := 262144
def catalogMaximumBytes : Nat := 128 * 1024 * 1024
def petBlobMagic : Bytes := [0x50, 0x45, 0x54, 0x31]

/-! ## The items of an event -/

def validPet (pet : PlayerPetSnapshot) : Bool :=
  pet.petUid != 0 && decide (0 < pet.mobVnum.toInt) && decide (0 < pet.maxHit.toInt) &&
    decide (0 ≤ pet.hit.toInt ∧ pet.hit.toInt ≤ pet.maxHit.toInt) &&
    decide (0 ≤ pet.maxMana.toInt) &&
    decide (0 ≤ pet.mana.toInt ∧ pet.mana.toInt ≤ pet.maxMana.toInt) &&
    decide (0 ≤ pet.maxVitality.toInt) &&
    decide (0 ≤ pet.vitality.toInt ∧ pet.vitality.toInt ≤ pet.maxVitality.toInt) &&
    decide (0 < pet.roomVnum.toInt)

/-- The blob of a raised pet: its numbers, its state, and the list of its items. -/
def readPet : Reader Unit (PlayerPetSnapshot × Bytes) := do
  let magic ← raw () petBlobMagic.length
  require (magic.1 = petBlobMagic) ()
  let petUid ← field () 64
  let mobVnum ← field () 32
  let hit ← field () 32
  let maxHit ← field () 32
  let mana ← field () 32
  let maxMana ← field () 32
  let vitality ← field () 32
  let maxVitality ← field () 32
  let charmDuration ← field () 32
  let roomVnum ← field () 32
  let stateSize ← field () 32
  require (stateSize.toNat ≤ petRestoreStateMaxBytes) ()
  let restoreState ← raw () stateSize.toNat
  let itemsSize ← field () 32
  let items ← takeRest
  require (itemsSize ≠ 0 ∧ itemsSize.toNat = items.length) ()
  return ({ petUid, mobVnum, order := 0, hit, maxHit, mana, maxMana, vitality, maxVitality
            charmDuration, roomVnum, items := [], restoreState := restoreState.1
            holdReason := PetHoldReason.none }, items)

def decodePetEvent (event : MaterializationEvent) :
    Option (PlayerPetSnapshot × List PlayerItemSnapshot) :=
  if event.action ≠ .petRaise then none
  else
    match whole readPet event.itemBlob with
    | none => none
    | some (pet, blob) =>
        if validPet pet = false then none
        else
          match playerItemSnapshotListDecode blob with
          | .error _ => none
          | .ok items => if items.length ≤ itemTransferMaxItems then some (pet, items) else none

def decodeItems (event : MaterializationEvent) : Option (List PlayerItemSnapshot) :=
  if event.action = .petRaise then (decodePetEvent event).map Prod.snd
  else if event.itemBlob = [] then none
  else
    match playerItemSnapshotListDecode event.itemBlob with
    | .error _ => none
    | .ok items =>
        if items ≠ [] ∧ items.length ≤ itemTransferMaxItems then some items else none

/-! ## The file -/

/-- What `encode_catalog` and `decode_catalog` ask of an event. -/
def validEvent (event : MaterializationEvent) : Bool :=
  !criticalOperationIdIsZero event.operationId && event.action.valid && event.playerPid != 0 &&
    event.itemBlob != [] && decide (event.itemBlob.length ≤ shopTradeItemBlobMaxBytes) &&
    (decodeItems event).isSome

def encodeEvent (event : MaterializationEvent) : Bytes :=
  event.operationId.bytes ++ appendLe event.action ++ appendLe event.playerPid ++
    appendLe (BitVec.ofNat 32 event.itemBlob.length) ++ event.itemBlob

def encodeEvents (events : List MaterializationEvent) : Bytes :=
  appendLe (BitVec.ofNat 32 events.length) ++ events.flatMap encodeEvent

def encodeCatalog (catalog : MaterializationCatalog) : Option Bytes :=
  if catalog.revision = 0 ∨ catalog.events = [] ∨ catalogMaximumEvents < catalog.events.length ∨
      catalog.events.all validEvent = false then none
  else if catalogMaximumBytes < (encodeEvents catalog.events).length then none
  else
    let file := catalogMagic ++ appendLe catalogVersion ++
      appendLe (BitVec.ofNat 32 (encodeEvents catalog.events).length) ++
      appendLe catalog.revision ++ (sha256 (encodeEvents catalog.events)).toList ++
      encodeEvents catalog.events
    if catalogMaximumBytes < file.length then none else some file

def readEvent : Reader Unit MaterializationEvent := do
  let operationId ← raw () 16
  let action ← field () 8
  let playerPid ← field () 32
  let blobSize ← field () 32
  require (blobSize ≠ 0 ∧ blobSize.toNat ≤ shopTradeItemBlobMaxBytes) ()
  let itemBlob ← raw () blobSize.toNat
  let event : MaterializationEvent :=
    { operationId := .ofRaw operationId, action, playerPid, itemBlob := itemBlob.1 }
  require (validEvent event = true) ()
  return event

def readEvents : Reader Unit (List MaterializationEvent) := do
  let count ← field () 32
  require (count ≠ 0 ∧ count.toNat ≤ catalogMaximumEvents) ()
  many readEvent count.toNat

def readCatalog : Reader Unit MaterializationCatalog := do
  let magic ← raw () catalogMagic.length
  require (magic.1 = catalogMagic) ()
  let version ← field () 32
  let payloadSize ← field () 32
  let revision ← field () 64
  let digest ← raw () 32
  let payload ← takeRest
  require (version = catalogVersion ∧ revision ≠ 0 ∧ payloadSize.toNat = payload.length ∧
    digest.1 = (sha256 payload).toList) ()
  let events ← ofOption () (whole readEvents payload)
  return { revision, events }

def decodeCatalog (bytes : Bytes) : Option MaterializationCatalog :=
  whole (readCatalog sha256) bytes

def loadCatalog (store : Option Bytes) : Except Refusal MaterializationCatalog :=
  match store with
  | none => .ok {}
  | some bytes =>
      match decodeCatalog sha256 bytes with
      | none => .error .invalid
      | some catalog => .ok catalog

/-! ## Compaction -/

/-- The two sets of `retained_event_indexes`. -/
structure Latest where
  mentions : Finset PlayerItemKey := ∅
  inbound : Finset PlayerItemKey := ∅

/-- Whether an event with these items is required behind which these are the latest. -/
def required (event : MaterializationEvent) (items : List PlayerItemSnapshot) (latest : Latest) :
    Bool :=
  event.action == .petRaise || items.any fun item =>
    decide (⟨event.playerPid, item.objectUid⟩ ∉ latest.mentions) ||
      (event.action.inbound && decide (⟨event.playerPid, item.objectUid⟩ ∉ latest.inbound))

def Latest.add (latest : Latest) (event : MaterializationEvent) (item : PlayerItemSnapshot) :
    Latest where
  mentions := insert ⟨event.playerPid, item.objectUid⟩ latest.mentions
  inbound :=
    if event.action.inbound then insert ⟨event.playerPid, item.objectUid⟩ latest.inbound
    else latest.inbound

/-- `retained_event_indexes`, which goes through the events from the last to the first. -/
def retainedEvents : List MaterializationEvent → Option (List MaterializationEvent × Latest)
  | [] => some ([], {})
  | event :: events =>
      match retainedEvents events with
      | none => none
      | some (retained, latest) =>
          match decodeItems event with
          | none => none
          | some items =>
              some (if required event items latest then event :: retained else retained,
                items.foldl (fun latest item => latest.add event item) latest)

def compactCatalog (catalog : MaterializationCatalog) : Option MaterializationCatalog :=
  (retainedEvents catalog.events).map fun kept => { catalog with events := kept.1 }

/-! ## Appending -/

/-- What the three `prepare` functions do with the catalogue they have loaded:
`uncompacted` is what they answer when it cannot be compacted. -/
def appendEvents (uncompacted : Refusal) (catalog : MaterializationCatalog)
    (operationId : CriticalOperationId) (additions : List MaterializationEvent) :
    Except Refusal MaterializationCatalog :=
  if catalog.events.any (fun existing => existing.operationId == operationId) = true ∨
      catalog.revision = BitVec.allOnes 64 then .error .invalid
  else
    match compactCatalog catalog with
    | none => .error uncompacted
    | some compacted =>
        if catalogMaximumEvents < compacted.events.length + additions.length then .error .invalid
        else
          match compactCatalog { compacted with events := compacted.events ++ additions } with
          | none => .error .ioError
          | some appended => .ok { appended with revision := appended.revision + 1 }

def afterImage (catalog : MaterializationCatalog) : Except Refusal Bytes :=
  match encodeCatalog sha256 catalog with
  | none => .error .invalid
  | some bytes => .ok bytes

/-- `payload_items_match` of a trade, and of a transfer that is no craft: the uids are those
of the payload. -/
def uidsMatch (root : BitVec 64) (entries : List ItemTransferEntry)
    (items : List PlayerItemSnapshot) : Bool :=
  items.length == entries.length && (items.head?.map PlayerItemSnapshot.objectUid) == some root &&
    (entries.map ItemTransferEntry.itemUid).dedup.length == items.length &&
    items.all fun item => (entries.map ItemTransferEntry.itemUid).contains item.objectUid

/-- What is made of a craft's outputs, one after the other. -/
def craftItemsMatch (payload : ItemTransferPayload) : Nat → List (BitVec 64) →
    List PlayerItemSnapshot → Bool
  | _, _, [] => true
  | index, outputs, item :: items =>
      item.objectUid != 0 && decide (0 < item.vnum.toInt) && !outputs.contains item.objectUid &&
        decide (item.parentIndex.toInt < index ∧ playerSnapshotNoParent ≤ item.parentIndex.toInt) &&
        payload.items.all (fun input => input.itemUid != item.objectUid) &&
        craftItemsMatch payload (index + 1) (item.objectUid :: outputs) items

def transferItemsMatch (payload : ItemTransferPayload) (items : List PlayerItemSnapshot) : Bool :=
  if payload.reason = .craft then
    (items.head?.map PlayerItemSnapshot.objectUid) == some payload.selectedItemUid &&
      craftItemsMatch payload 0 [] items
  else uidsMatch (itemTransferResultRoot payload) payload.items items

def tradeEvent (operationId : CriticalOperationId) (payload : ShopTradePayload) :
    MaterializationEvent :=
  { operationId, action := .ofTrade payload.action, playerPid := payload.playerPid
    itemBlob := payload.itemBlob }

def shopTradeMaterializationPrepare (store : Option Bytes) (operationId : CriticalOperationId)
    (payload : ShopTradePayload) : Except Refusal Bytes :=
  if criticalOperationIdIsZero operationId ∨ payload.playerPid = 0 ∨
      (EventAction.ofTrade payload.action).valid = false ∨ payload.itemBlob = [] then
    .error .invalid
  else
    match decodeItems (tradeEvent operationId payload) with
    | none => .error .invalid
    | some items =>
        if uidsMatch payload.selectedItemUid payload.items items = false then .error .invalid
        else do
          let catalog ← loadCatalog sha256 store
          let appended ← appendEvents .ioError catalog operationId [tradeEvent operationId payload]
          afterImage sha256 appended

/-! ### Transfers -/

/-- An addition, for an owner whose id is a player's. -/
def addition (operationId : CriticalOperationId) (itemBlob : Bytes) (ownerId : BitVec 64)
    (action : EventAction) : Option MaterializationEvent :=
  if ownerId = 0 ∨ 4294967295 < ownerId then none
  else some { operationId, action, playerPid := ownerId.setWidth 32, itemBlob }

/-- The events of a transfer: who gives, who gets, and whose pet gets. -/
def transferAdditions (operationId : CriticalOperationId) (payload : ItemTransferPayload) :
    Option (List MaterializationEvent) :=
  let add := addition operationId payload.itemBlob
  let fromPlayer := payload.fromOwner.type == ItemOwnerType.player
  let toPlayer := payload.toOwner.type == ItemOwnerType.player
  let toPet := payload.toOwner.type == ItemOwnerType.pet
  if fromPlayer && toPlayer && payload.fromOwner.id == payload.toOwner.id then
    (add payload.toOwner.id .buyExisting).map fun event => [event]
  else
    ([(fromPlayer, payload.fromOwner.id, EventAction.sellStore),
      (toPlayer, payload.toOwner.id, EventAction.buyExisting),
      (toPet, payload.toOwner.contextId, EventAction.petReceive)].filter fun part => part.1).mapM
      fun part => add part.2.1 part.2.2

/-- A pet and its player are the two ends, or two pets of one player. -/
def petContextsMatch (payload : ItemTransferPayload) : Bool :=
  payload.fromOwner.contextId == payload.toOwner.contextId ||
    (payload.fromOwner.type == ItemOwnerType.player &&
      payload.fromOwner.id == payload.toOwner.contextId) ||
    (payload.toOwner.type == ItemOwnerType.player &&
      payload.toOwner.id == payload.fromOwner.contextId)

/-- Whether the log has raised the pet for the player; nothing if a raise of his cannot be
read. -/
def petEstablished (petUid : BitVec 64) (ownerPid : BitVec 32) :
    List MaterializationEvent → Option Bool
  | [] => some false
  | event :: events =>
      if event.action ≠ .petRaise ∨ event.playerPid ≠ ownerPid then
        petEstablished petUid ownerPid events
      else
        match decodePetEvent event with
        | none => none
        | some (pet, _) =>
            (petEstablished petUid ownerPid events).map fun rest => pet.petUid == petUid || rest

def itemTransferMaterializationPrepare (store : Option Bytes) (operationId : CriticalOperationId)
    (payload : ItemTransferPayload) : Except Refusal Bytes :=
  let fromPet := payload.fromOwner.type == ItemOwnerType.pet
  let toPet := payload.toOwner.type == ItemOwnerType.pet
  if criticalOperationIdIsZero operationId ∨ payload.itemBlob = [] then .error .invalid
  else
    match decodeItems { operationId, action := .unknown, playerPid := 0
                        itemBlob := payload.itemBlob } with
    | none => .error .invalid
    | some items =>
        if transferItemsMatch payload items = false ∨
            ((fromPet || toPet) = true ∧ petContextsMatch payload = false) then .error .invalid
        else
          match transferAdditions operationId payload with
          | none => .error .ioError
          | some [] => .error .unchanged
          | some additions => do
              let catalog ← loadCatalog sha256 store
              let petUid := if fromPet then payload.fromOwner.id else payload.toOwner.id
              let ownerPid := (if fromPet then payload.fromOwner.contextId
                else payload.toOwner.contextId).setWidth 32
              if (fromPet || toPet) = true ∧
                  petEstablished petUid ownerPid catalog.events ≠ some true then .error .invalid
              else
                let appended ← appendEvents .ioError catalog operationId additions
                afterImage sha256 appended

/-! ### Raised corpses -/

structure CorpsePetPayload extends CorpseLifecyclePayload where
  petMobVnum : BitVec 32
  petHit : BitVec 32
  petMaxHit : BitVec 32
  petMana : BitVec 32
  petMaxMana : BitVec 32
  petVitality : BitVec 32
  petMaxVitality : BitVec 32
  petCharmDuration : BitVec 32
  petRestoreState : Bytes

def playerItemSnapshotListEncode (items : List PlayerItemSnapshot) : Option Bytes :=
  if validItemRelationships items = false ∨ (encodeItems items).valid = false ∨
      playerSnapshotMaxBytes < (encodeItems items).bytes.length then none
  else
    match playerItemSnapshotListDecode (encodeItems items).bytes with
    | .error _ => none
    | .ok _ => some (encodeItems items).bytes

def encodePet (payload : CorpsePetPayload) (itemBlob : Bytes) : Bytes :=
  petBlobMagic ++ appendLe payload.petUid ++ appendLe payload.petMobVnum ++
    appendLe payload.petHit ++ appendLe payload.petMaxHit ++ appendLe payload.petMana ++
    appendLe payload.petMaxMana ++ appendLe payload.petVitality ++
    appendLe payload.petMaxVitality ++ appendLe payload.petCharmDuration ++
    appendLe payload.roomVnum ++ appendLe (BitVec.ofNat 32 payload.petRestoreState.length) ++
    payload.petRestoreState ++ appendLe (BitVec.ofNat 32 itemBlob.length) ++ itemBlob

def raisesPet (payload : CorpsePetPayload) : Bool :=
  (payload.action == .raiseFollower || payload.action == .raiseWorldFollower) &&
    payload.petUid != 0

def corpseEvent (operationId : CriticalOperationId) (payload : CorpsePetPayload) (blob : Bytes) :
    MaterializationEvent :=
  { operationId, action := if raisesPet payload then .petRaise else .buyExisting
    playerPid := payload.destinationPlayerPid
    itemBlob := if raisesPet payload then encodePet payload blob else blob }

def corpseResurrectionMaterializationPrepare (store : Option Bytes)
    (operationId : CriticalOperationId) (payload : CorpsePetPayload)
    (items : List PlayerItemSnapshot) : Except Refusal Bytes :=
  if criticalOperationIdIsZero operationId ∨ payload.destinationPlayerPid = 0 then .error .invalid
  else if items = [] ∧ raisesPet payload = false then .error .unchanged
  else
    match playerItemSnapshotListEncode items with
    | none => .error .invalid
    | some blob =>
        if blob = [] ∨ playerSnapshotMaxBytes < blob.length ∨ (raisesPet payload = true ∧
            shopTradeItemBlobMaxBytes < (encodePet payload blob).length) then .error .invalid
        else do
          let catalog ← loadCatalog sha256 store
          let appended ← appendEvents .invalid catalog operationId
            [corpseEvent operationId payload blob]
          afterImage sha256 appended

/-! ### The log over time -/

inductive LogRequest where
  | trade (operationId : CriticalOperationId) (payload : ShopTradePayload)
  | transfer (operationId : CriticalOperationId) (payload : ItemTransferPayload)
  | corpse (operationId : CriticalOperationId) (payload : CorpsePetPayload)
      (items : List PlayerItemSnapshot)

def LogRequest.prepare (store : Option Bytes) :
    LogRequest → Except Refusal Bytes
  | .trade operationId payload => shopTradeMaterializationPrepare sha256 store operationId payload
  | .transfer operationId payload =>
      itemTransferMaterializationPrepare sha256 store operationId payload
  | .corpse operationId payload items =>
      corpseResurrectionMaterializationPrepare sha256 store operationId payload items

def LogRequest.additions : LogRequest → List MaterializationEvent
  | .trade operationId payload => [tradeEvent operationId payload]
  | .transfer operationId payload => (transferAdditions operationId payload).getD []
  | .corpse operationId payload items =>
      [corpseEvent operationId payload ((playerItemSnapshotListEncode items).getD [])]

/-- The file, and all events ever appended. -/
structure MaterializationLog where
  store : Option Bytes := none
  history : List MaterializationEvent := []

/-- A request whose image, if it is made, is committed. -/
def MaterializationLog.step (log : MaterializationLog) (request : LogRequest) :
    MaterializationLog :=
  match request.prepare sha256 log.store with
  | .error _ => log
  | .ok bytes => { store := some bytes, history := log.history ++ request.additions }

end Duris.Flatfile.Materialization
