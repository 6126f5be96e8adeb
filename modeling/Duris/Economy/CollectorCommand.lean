import Duris.Economy.CollectorPolicy
import Duris.Economy.CurrencyCommand
import Duris.Item.TransferCommand

/-!
# Collector commands

The payload of `src/economy/collector_command.c` and its check. A collection carries
every row of the tree the selected item is in; the other custody actions carry the one
item the collector holds, and the metadata actions carry none. `items` stands for the
array and its count.
-/

namespace Duris.Economy

open Persistence Player Item

inductive CollectorAction where
  | unknown | collect | activate | purchase | expire | cancel | pause | resume | hint | hintAck
  deriving DecidableEq

def collectorCommandMaxItems : Nat := itemTransferMaxItems
def collectorCommandItemBlobMaxBytes : Nat := itemTransferItemBlobMaxBytes

structure CollectorCommandPayload where
  action : CollectorAction
  cancelReason : Collector.Reason
  targetState : ItemCustodyState
  capacityAdmitted : Bool
  listing : BitVec 64
  expectedListingRevision : BitVec 64
  observedAt : BitVec 64
  actorPid : BitVec 32
  racewar : BitVec 8
  accountName : Vector UInt8 51
  expectedWalletRevision : BitVec 64
  expectedBankRevision : BitVec 64
  fromOwner : ItemOwnerIdentity
  toOwner : ItemOwnerIdentity
  expectedFromOwnerRevision : BitVec 64
  expectedToOwnerRevision : BitVec 64
  selectedItemUid : BitVec 64
  items : List ItemTransferEntry
  itemBlob : Bytes

def validCancelReason (why : Collector.Reason) : Bool :=
  match why with
  | .claimed | .destroyed | .quarantined | .excluded | .characterDeleted | .seasonReset => true
  | .none | .holdingElapsed => false

def emptyOwner (owner : ItemOwnerIdentity) : Bool :=
  owner.type == ItemOwnerType.unknown && owner.id == 0 && owner.contextId == 0

def collectorOwner (owner : ItemOwnerIdentity) (listing : BitVec 64) : Bool :=
  owner.type == ItemOwnerType.collector && owner.id == listing && owner.contextId == 0

def isDestructionOwner (owner : ItemOwnerIdentity) : Bool :=
  owner.type == ItemOwnerType.destruction && owner.id == 0 && owner.contextId == 0

def quarantineOwner (owner : ItemOwnerIdentity) : Bool :=
  owner.type == ItemOwnerType.system && owner.id == 0 && owner.contextId == 0

/-- A room, or the corpse of a player: both halves of the id are positive `int32_t`. -/
def collectionSourceOwner (owner : ItemOwnerIdentity) : Bool :=
  if owner.type = ItemOwnerType.room then owner.id != 0 && owner.contextId == 0
  else if owner.type ≠ ItemOwnerType.corpse ∨ owner.contextId ≠ 0 then false
  else
    let ownerPid := (owner.id >>> 32).toNat
    let saveId := (owner.id.setWidth 32).toNat
    decide (0 < ownerPid ∧ ownerPid ≤ int32Max) && decide (0 < saveId ∧ saveId ≤ int32Max)

def emptyActor (payload : CollectorCommandPayload) : Bool :=
  payload.actorPid == 0 && payload.racewar == 0 && payload.accountName[0] == 0 &&
    payload.expectedWalletRevision == 0 && payload.expectedBankRevision == 0 &&
    !payload.capacityAdmitted

def validItem (item : ItemTransferEntry) : Bool :=
  item.itemUid != 0 && item.rootItemUid != 0 && item.expectedItemRevision != 0 &&
    item.expectedItemRevision != BitVec.allOnes 64 && decide (0 < item.vnum.toInt) &&
    item.expectedState == ItemCustodyState.active

/-- One row of the tree: the root is the one row without a parent. -/
def validSourceItem (payload : CollectorCommandPayload) (root : BitVec 64)
    (item : ItemTransferEntry) : Bool :=
  validItem item && item.rootItemUid == root &&
    if item.parentItemUid = 0 then item.itemUid == root
    else item.itemUid != root && (findItem payload.items item.parentItemUid).isSome

/-- The last loop of `valid_source_tree`: from a row up to the root in at most `depth`
steps. -/
def sourceReachesRoot (items : List ItemTransferEntry) (root : BitVec 64) :
    Nat → ItemTransferEntry → Bool
  | 0, item => item.itemUid == root
  | depth + 1, item =>
      if item.itemUid = root then true
      else
        match findItem items item.parentItemUid with
        | none => false
        | some parent => sourceReachesRoot items root depth parent

def validSourceTree (payload : CollectorCommandPayload) : Bool :=
  match payload.items with
  | [] => false
  | first :: _ =>
      let root := first.rootItemUid
      decide (payload.items.length ≤ collectorCommandMaxItems) && payload.selectedItemUid != 0 &&
        payload.items.all (validSourceItem payload root) && ascending payload.items &&
        decide (payload.items.countP (fun item => item.parentItemUid == 0) ≤ 1) &&
        payload.items.any (fun item => item.itemUid == payload.selectedItemUid) &&
        payload.items.any (fun item => item.parentItemUid == 0) &&
        payload.items.all (sourceReachesRoot payload.items root payload.items.length)

def validHeldItem (payload : CollectorCommandPayload) : Bool :=
  match payload.items with
  | [item] => validItem item && item.itemUid == payload.selectedItemUid &&
      item.rootItemUid == payload.selectedItemUid && item.parentItemUid == 0
  | _ => false

def metadataOnly (payload : CollectorCommandPayload) : Bool :=
  emptyActor payload && emptyOwner payload.fromOwner && emptyOwner payload.toOwner &&
    payload.expectedFromOwnerRevision == 0 && payload.expectedToOwnerRevision == 0 &&
    payload.selectedItemUid == 0 && payload.items.isEmpty && payload.itemBlob.isEmpty &&
    payload.targetState == ItemCustodyState.absent

def validCustodyOwners (payload : CollectorCommandPayload) : Bool :=
  payload.selectedItemUid != 0 && !payload.items.isEmpty && !payload.itemBlob.isEmpty &&
    itemOwnerIdentityValid payload.fromOwner && itemOwnerIdentityValid payload.toOwner &&
    !itemOwnerIdentityEqual payload.fromOwner payload.toOwner &&
    payload.expectedFromOwnerRevision != BitVec.allOnes 64 &&
    payload.expectedToOwnerRevision != BitVec.allOnes 64

def validCustodyAction (payload : CollectorCommandPayload) : Bool :=
  if payload.action = .collect then
    payload.cancelReason == .none && emptyActor payload &&
      collectionSourceOwner payload.fromOwner && collectorOwner payload.toOwner payload.listing &&
      payload.targetState == ItemCustodyState.active && validSourceTree payload
  else if payload.action = .purchase then
    payload.cancelReason == .none && payload.actorPid != 0 && payload.capacityAdmitted &&
      (validName payload.accountName.toList).isSome &&
      collectorOwner payload.fromOwner payload.listing &&
      payload.toOwner.type == ItemOwnerType.player &&
      payload.toOwner.id == payload.actorPid.setWidth 64 && payload.toOwner.contextId == 0 &&
      payload.targetState == ItemCustodyState.active && validHeldItem payload
  else if payload.action = .expire then
    payload.cancelReason == .none && emptyActor payload &&
      collectorOwner payload.fromOwner payload.listing && isDestructionOwner payload.toOwner &&
      payload.targetState == ItemCustodyState.destroyed && validHeldItem payload
  else if payload.action ≠ .cancel ∨ validCancelReason payload.cancelReason = false ∨
      payload.cancelReason = .claimed ∨ emptyActor payload = false ∨
      collectorOwner payload.fromOwner payload.listing = false ∨
      validHeldItem payload = false then false
  else if payload.cancelReason = .quarantined then
    quarantineOwner payload.toOwner && payload.targetState == ItemCustodyState.quarantined
  else isDestructionOwner payload.toOwner && payload.targetState == ItemCustodyState.destroyed

def validCollectorPayload (payload : CollectorCommandPayload) : Bool :=
  if payload.action = .unknown ∨ payload.listing = 0 ∨ payload.expectedListingRevision = 0 ∨
      payload.expectedListingRevision = BitVec.allOnes 64 ∨ payload.observedAt = 0 ∨
      4 < payload.racewar ∨ collectorCommandMaxItems < payload.items.length ∨
      collectorCommandItemBlobMaxBytes < payload.itemBlob.length then false
  else if payload.action = .activate ∨ payload.action = .pause ∨ payload.action = .resume ∨
      payload.action = .hint ∨ payload.action = .hintAck then
    payload.cancelReason == .none && metadataOnly payload
  else if payload.action = .cancel ∧ payload.items = [] then
    validCancelReason payload.cancelReason && metadataOnly payload
  else validCustodyOwners payload && validCustodyAction payload

end Duris.Economy
