import Duris.Economy.CoinTransfer
import Duris.Lib.Sorted

/-!
# The ownership catalogue

`src/flatfile/flatfile_item_repository.c`: the rows of the flat-file item authority,
the clocks of their owners and the receipts of the commands applied to them, the file
they are kept in and the check that file has to pass before any of it is used.

Owners and rows are vectors in order, looked up with `std::lower_bound`. A receipt has
its coin result as an option where the source has the flag `coin_operation` beside an
array that means something only under the flag. `SHA256` comes from a library outside
the repository and is a parameter. The decoder answers `ok` or `invalid`: allocation
succeeds.
-/

namespace Duris.Flatfile.Ownership

open Persistence Player Item Economy Reader

variable (sha256 : Bytes → Vector UInt8 32)

deriving instance DecidableEq for ItemOwnerIdentity

def ownershipFormatVersion : BitVec 32 := 4
def ownershipLegacyFormatVersion : BitVec 32 := 1

/-- The letters `DUROWN` and two zeroes. -/
def ownershipMagic : Bytes := [0x44, 0x55, 0x52, 0x4f, 0x57, 0x4e, 0, 0]

def ownershipMaximumBytes : Nat := 128 * 1024 * 1024
def ownershipMaximumEntries : Nat := 262144
def ownershipMaximumOperations : Nat := 1048576

def itemMoney : BitVec 8 := 20

structure OwnerState where
  owner : ItemOwnerIdentity
  revision : BitVec 64
  deriving DecidableEq

structure FlatfileItemOwnershipRecord where
  itemUid : BitVec 64
  rootItemUid : BitVec 64
  parentItemUid : BitVec 64
  owner : ItemOwnerIdentity
  itemRevision : BitVec 64
  vnum : BitVec 32
  state : ItemCustodyState
  coinPayload : Bytes := []
  deriving DecidableEq

structure OperationState where
  operationId : CriticalOperationId
  commandDigest : { digest : Bytes // digest.length = 32 }
  resultCode : BitVec 32
  result : ItemTransferResult
  coinResult : Option { encoded : Bytes // encoded.length = coinTransferResultBytes } := none
  deriving DecidableEq

structure OwnershipCatalog where
  revision : BitVec 64 := 0
  owners : List OwnerState := []
  items : List FlatfileItemOwnershipRecord := []
  operations : List OperationState := []
  deriving DecidableEq

def ownerLess (left right : ItemOwnerIdentity) : Bool :=
  if left.type ≠ right.type then decide (left.type < right.type)
  else if left.id ≠ right.id then decide (left.id < right.id)
  else decide (left.contextId < right.contextId)

/-- `<` on uids, by which rows are kept. -/
def uidLess (left right : BitVec 64) : Bool := decide (left < right)

def findOwner (catalog : OwnershipCatalog) (owner : ItemOwnerIdentity) : Option OwnerState :=
  Sorted.find ownerLess OwnerState.owner catalog.owners owner

/-- `ensure_owner`: the catalogue with the owner in it, a new one at revision zero, or
nothing when the table is full. -/
def ensureOwner (catalog : OwnershipCatalog) (owner : ItemOwnerIdentity) :
    Option OwnershipCatalog :=
  match findOwner catalog owner with
  | some _ => some catalog
  | none =>
      if ownershipMaximumEntries ≤ catalog.owners.length then none
      else
        some { catalog with
          owners := Sorted.insert ownerLess OwnerState.owner catalog.owners ⟨owner, 0⟩ }

def findRow (catalog : OwnershipCatalog) (itemUid : BitVec 64) :
    Option FlatfileItemOwnershipRecord :=
  Sorted.find uidLess FlatfileItemOwnershipRecord.itemUid catalog.items itemUid

/-- `std::sort` by `item_less`. -/
def sortRows (items : List FlatfileItemOwnershipRecord) : List FlatfileItemOwnershipRecord :=
  items.mergeSort fun a b => !uidLess b.itemUid a.itemUid

/-- `++owner->revision`, where `find_owner` found it. -/
def bumpOwner (owners : List OwnerState) (owner : ItemOwnerIdentity) : List OwnerState :=
  owners.map fun entry =>
    if entry.owner = owner then { entry with revision := entry.revision + 1 } else entry

def encodeOwnerState (entry : OwnerState) : Bytes :=
  encodeOwner entry.owner ++ appendLe entry.revision

def encodeRecord (entry : FlatfileItemOwnershipRecord) : Bytes :=
  appendLe entry.itemUid ++ appendLe entry.rootItemUid ++ appendLe entry.parentItemUid ++
    encodeOwner entry.owner ++ appendLe entry.itemRevision ++ appendLe entry.vnum ++
    appendLe entry.state ++ encodeSection entry.coinPayload

/-- `coin_operation` and, under it, `coin_result`. -/
def encodeCoin : Option { encoded : Bytes // encoded.length = coinTransferResultBytes } → Bytes
  | none => [0]
  | some encoded => 1 :: encoded.1

def encodeOperation (entry : OperationState) : Bytes :=
  entry.operationId.bytes ++ entry.commandDigest.1 ++ appendLe entry.resultCode ++
    appendLe entry.result.rootItemUid ++ appendLe entry.result.itemCount ++
    appendLe entry.result.fromOwnerRevision ++ appendLe entry.result.toOwnerRevision ++
    appendLe entry.result.maxItemRevision ++ appendLe entry.result.corpseRevision ++
    [if entry.result.collectorCatalogChanged then 1 else 0] ++ encodeCoin entry.coinResult

def encodeCounts (catalog : OwnershipCatalog) : Bytes :=
  appendLe (BitVec.ofNat 32 catalog.owners.length) ++
    appendLe (BitVec.ofNat 32 catalog.items.length) ++
    appendLe (BitVec.ofNat 32 catalog.operations.length)

def encodeRows (catalog : OwnershipCatalog) : Bytes :=
  encodeCounts catalog ++ catalog.owners.flatMap encodeOwnerState ++
    catalog.items.flatMap encodeRecord ++ catalog.operations.flatMap encodeOperation

/-- What stands before the payload, after the magic. -/
def encodeCatalogHeader (revision : BitVec 64) (payload : Bytes) : Bytes :=
  appendLe ownershipFormatVersion ++ appendLe (BitVec.ofNat 32 payload.length) ++
    appendLe revision ++ (sha256 payload).toList

def encodeCatalog (catalog : OwnershipCatalog) (revision : BitVec 64) : Option Bytes :=
  if revision = 0 ∨ ownershipMaximumEntries < catalog.owners.length ∨
      ownershipMaximumEntries < catalog.items.length ∨
      ownershipMaximumOperations < catalog.operations.length ∨
      catalog.items.any (fun entry =>
        decide (itemTransferItemBlobMaxBytes < entry.coinPayload.length)) = true then none
  else
    let payload := encodeRows catalog
    let file := ownershipMagic ++ encodeCatalogHeader sha256 revision payload ++ payload
    if ownershipMaximumBytes < payload.length ∨ ownershipMaximumBytes < file.length then none
    else some file

/-- A pile of coins carries the object it is made of, and nothing else does. -/
def validCoinPayload (entry : FlatfileItemOwnershipRecord) : Bool :=
  if entry.coinPayload = [] then true
  else
    decide (entry.coinPayload.length ≤ itemTransferItemBlobMaxBytes) &&
      match playerItemSnapshotListDecode entry.coinPayload with
      | .ok [item] =>
          item.objectUid == entry.itemUid && item.vnum == entry.vnum && item.type == itemMoney
      | _ => false

def validRow (catalog : OwnershipCatalog) (entry : FlatfileItemOwnershipRecord) : Bool :=
  entry.itemUid != 0 && entry.rootItemUid != 0 && decide (0 < entry.vnum.toInt) &&
    itemOwnerIdentityValid entry.owner && entry.state != ItemCustodyState.absent &&
    decide (entry.state ≤ ItemCustodyState.quarantined) &&
    (findOwner catalog entry.owner).isSome && validCoinPayload entry

def validOperation (entry : OperationState) : Bool :=
  !criticalOperationIdIsZero entry.operationId &&
    (entry.coinResult.isSome ||
      (entry.result.rootItemUid != 0 && entry.result.itemCount != 0 &&
        decide (entry.result.itemCount.toNat ≤ itemTransferMaxItems)))

/-- `valid_catalog`: owners and rows in order without a repetition, each row and each
receipt as it should be, and no operation with two receipts. -/
def validCatalog (catalog : OwnershipCatalog) : Bool :=
  decide (catalog.owners.IsChain fun left right => ownerLess right.owner left.owner = false) &&
    decide (catalog.items.IsChain fun left right =>
      uidLess right.itemUid left.itemUid = false) &&
    (catalog.owners.all fun entry => itemOwnerIdentityValid entry.owner) &&
    decide (catalog.owners.IsChain fun left right =>
      itemOwnerIdentityEqual left.owner right.owner = false) &&
    catalog.items.all (validRow catalog) &&
    decide (catalog.items.IsChain fun left right => left.itemUid ≠ right.itemUid) &&
    catalog.operations.all validOperation &&
    decide (catalog.operations.map OperationState.operationId).Nodup

def readOwnerState : Reader Unit OwnerState := do
  let owner ← decodeOwner
  let revision ← field () 64
  return ⟨owner, revision⟩

/-- A part of the layout since a version, and what stands for it before. -/
def readSince {α : Type} (since version : BitVec 32) (reader : Reader Unit α) (before : α) :
    Reader Unit α :=
  if since ≤ version then reader else pure before

/-- A row; a coin payload since version 3. -/
def readRecord (version : BitVec 32) : Reader Unit FlatfileItemOwnershipRecord := do
  let itemUid ← field () 64
  let rootItemUid ← field () 64
  let parentItemUid ← field () 64
  let owner ← decodeOwner
  let itemRevision ← field () 64
  let vnum ← field () 32
  let state ← field () 8
  let coinPayload ← readSince 3 version (readSection itemTransferItemBlobMaxBytes) []
  return { itemUid, rootItemUid, parentItemUid, owner, itemRevision, vnum, state, coinPayload }

def readFlag : Reader Unit Bool := do
  let flag ← field () 8
  require (flag ≤ 1) ()
  return flag != 0

def readCoin : Reader Unit
    (Option { encoded : Bytes // encoded.length = coinTransferResultBytes }) := do
  let coin ← readFlag
  if coin then
    let encoded ← raw () coinTransferResultBytes
    return some encoded
  else return none

/-- A receipt; the revision of a corpse since version 2, the coin result since version 3
and the collector's flag, which stands before it, since version 4. -/
def readOperation (version : BitVec 32) : Reader Unit OperationState := do
  let operationId ← raw () 16
  let commandDigest ← raw () 32
  let resultCode ← field () 32
  let rootItemUid ← field () 64
  let itemCount ← field () 16
  let fromOwnerRevision ← field () 64
  let toOwnerRevision ← field () 64
  let maxItemRevision ← field () 64
  let corpseRevision ← readSince 2 version (field () 64) 0
  let collectorCatalogChanged ← readSince 4 version readFlag false
  let coinResult ← readSince 3 version readCoin none
  return { operationId := .ofRaw operationId, commandDigest, resultCode
           result := { rootItemUid, itemCount, fromOwnerRevision, toOwnerRevision,
                       maxItemRevision, corpseRevision, collectorCatalogChanged }
           coinResult }

def readRows (version : BitVec 32) (revision : BitVec 64) : Reader Unit OwnershipCatalog := do
  let ownerCount ← field () 32
  let itemCount ← field () 32
  let operationCount ← field () 32
  require (ownerCount.toNat ≤ ownershipMaximumEntries ∧
    itemCount.toNat ≤ ownershipMaximumEntries ∧
    operationCount.toNat ≤ ownershipMaximumOperations) ()
  let owners ← many readOwnerState ownerCount.toNat
  let items ← many (readRecord version) itemCount.toNat
  let operations ← many (readOperation version) operationCount.toNat
  return { revision, owners, items, operations }

/-- The file: its header, and the payload under the digest the header has of it. -/
def readCatalog : Reader Unit OwnershipCatalog := do
  let magic ← raw () ownershipMagic.length
  require (magic.1 = ownershipMagic) ()
  let version ← field () 32
  let payloadSize ← field () 32
  let revision ← field () 64
  let digest ← raw () 32
  let payload ← takeRest
  require (ownershipLegacyFormatVersion ≤ version ∧ version ≤ ownershipFormatVersion ∧
    revision ≠ 0 ∧ payloadSize.toNat = payload.length ∧
    digest.1 = (sha256 payload).toList) ()
  ofOption () (whole (readRows version revision) payload)

def decodeCatalog (bytes : Bytes) : Option OwnershipCatalog :=
  match whole (readCatalog sha256) bytes with
  | none => none
  | some decoded => if validCatalog decoded then some decoded else none

end Duris.Flatfile.Ownership
