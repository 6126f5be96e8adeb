import Duris.Flatfile.ItemCustody

/-!
# Raising a corpse that lies in a room

`flatfile_item_repository_prepare_world_corpse_raise` of
`src/flatfile/flatfile_item_repository.c`. The corpse is a tree in a room; some of its
items outlive it and the others go with it. Where the two kinds meet, the lower tree is
taken off, the deepest first; then what is durable goes to the pet, when there is one,
and the rest is destroyed. Each of these is a transfer.

`std::sort` leaves open in which order boundaries of one depth come; the model takes them
in the order of their uids. Any other order ends at the same catalogue: the trees under two
of them are apart, and a transfer changes the rows of its own tree and the room's clock, which
goes up by one each time.
-/

namespace Duris.Flatfile.Ownership

open Persistence Player Item Economy

/-- The corpse itself: the item whose uid is made of both halves. -/
def raiseSource (payload : CorpseLifecyclePayload) : BitVec 64 :=
  (payload.ownerPid.setWidth 64 <<< 32) ||| payload.saveId.setWidth 64

def sortedUnique (uids : List (BitVec 64)) : Bool := decide (uids.IsChain (· < ·))

/-- One expected row: in the tree of the corpse, and of exactly one kind. -/
def validRaiseItem (source : BitVec 64) (durableUids discardedUids : List (BitVec 64))
    (item : CorpseCustodyItem) : Bool :=
  item.itemUid != 0 && decide (0 < item.vnum.toInt) && item.rootItemUid == source &&
    (if item.itemUid = source then item.parentItemUid == 0 else item.parentItemUid != 0) &&
    durableUids.contains item.itemUid != discardedUids.contains item.itemUid

/-- The checks before the catalogue is loaded. -/
def validWorldCorpseRaise (payload : CorpseLifecyclePayload) (items : List CorpseCustodyItem)
    (durableUids discardedUids : List (BitVec 64)) : Bool :=
  let source := raiseSource payload
  payload.action == .raiseWorldFollower && source != 0 && decide (0 < payload.roomVnum.toInt) &&
    payload.destinationPlayerPid != 0 && payload.expectedCorpseRevision != 0 &&
    payload.expectedRoomRevision != 0 && payload.expectedPlayerRevision != 0 &&
    (payload.petUid == 0 || payload.petUid == source) && !items.isEmpty &&
    decide (items.length ≤ itemTransferMaxItems) &&
    items.length == durableUids.length + discardedUids.length &&
    sortedUnique (items.map CorpseCustodyItem.itemUid) && sortedUnique durableUids &&
    sortedUnique discardedUids && discardedUids.contains source &&
    items.all (validRaiseItem source durableUids discardedUids)

def expectedByUid (items : List CorpseCustodyItem) (itemUid : BitVec 64) :
    Option CorpseCustodyItem :=
  items.find? fun item => item.itemUid == itemUid

/-- How deep a row lies, nothing when its parents lead out of the tree or go round. -/
def ancestorDepth (items : List CorpseCustodyItem) : Nat → Nat → CorpseCustodyItem → Option Nat
  | steps, depth, item =>
      if item.parentItemUid = 0 then some depth
      else
        match steps with
        | 0 => none
        | steps + 1 =>
            match expectedByUid items item.parentItemUid with
            | none => none
            | some parent => ancestorDepth items steps (depth + 1) parent

/-- The rows that are of another kind than their parent, with their depth. -/
def raiseBoundariesFrom (items : List CorpseCustodyItem) (discardedUids : List (BitVec 64)) :
    List CorpseCustodyItem → Option (List (Nat × BitVec 64))
  | [] => some []
  | item :: rest =>
      if item.parentItemUid = 0 then raiseBoundariesFrom items discardedUids rest
      else
        match expectedByUid items item.parentItemUid with
        | none => none
        | some parent =>
            if discardedUids.contains item.itemUid = discardedUids.contains parent.itemUid then
              raiseBoundariesFrom items discardedUids rest
            else
              match ancestorDepth items items.length 0 item,
                  raiseBoundariesFrom items discardedUids rest with
              | some depth, some boundaries => some ((depth, item.itemUid) :: boundaries)
              | _, _ => none

/-- `boundaries`, the deepest first. -/
def raiseBoundaries (items : List CorpseCustodyItem) (discardedUids : List (BitVec 64)) :
    Option (List (BitVec 64)) :=
  (raiseBoundariesFrom items discardedUids items).map fun boundaries =>
    (boundaries.mergeSort fun a b => decide (b.1 ≤ a.1)).map Prod.snd

/-- `descends_from`, with as many steps left as the second number says. -/
def descendsFrom (catalog : OwnershipCatalog) (ancestorUid : BitVec 64) :
    Nat → BitVec 64 → Bool
  | 0, _ => false
  | depth + 1, currentUid =>
      if currentUid = ancestorUid then true
      else
        match findRow catalog currentUid with
        | none => false
        | some current =>
            if current.parentItemUid = 0 then false
            else descendsFrom catalog ancestorUid depth current.parentItemUid

/-- `fill_transfer`: the active rows of the room that are selected. -/
def fillTransfer (catalog : OwnershipCatalog) (room : ItemOwnerIdentity)
    (selected : FlatfileItemOwnershipRecord → Bool) : Option (List ItemTransferEntry) :=
  let rows := (activeRows catalog room).filter selected
  if rows = [] ∨ itemTransferMaxItems < rows.length then none
  else
    some (rows.map fun item =>
      { itemUid := item.itemUid
        rootItemUid := item.rootItemUid
        parentItemUid := item.parentItemUid
        expectedItemRevision := item.itemRevision
        vnum := item.vnum
        expectedState := ItemCustodyState.active })

def raiseTransfer (source : BitVec 64) (room toOwner : ItemOwnerIdentity)
    (reason : ItemTransferReason) (fromRevision toRevision selectedItemUid : BitVec 64)
    (multiRoot : Bool) (items : List ItemTransferEntry) : ItemTransferPayload :=
  { fromOwner := room, toOwner, reason
    reasonId := source
    expectedFromRevision := fromRevision
    expectedToRevision := toRevision
    selectedItemUid
    targetRootItemUid := 0
    targetParentItemUid := 0
    expectedTargetParentRevision := 0
    multiRoot, items
    itemBlob := []
    corpse := {}
    collector := {} }

/-- One boundary: the tree under it becomes a tree of its own in the room. -/
def detachBoundary (source : BitVec 64) (room : ItemOwnerIdentity) (size : Nat)
    (catalog : OwnershipCatalog) (boundaryUid : BitVec 64) : Option OwnershipCatalog :=
  match fillTransfer catalog room fun item =>
      descendsFrom catalog boundaryUid (size + 1) item.itemUid with
  | none => none
  | some items =>
      let revision := ownerRevision catalog room
      let attempt := applyTransfer catalog
        (raiseTransfer source room room ItemTransferReason.playerDrop revision revision boundaryUid
          false items)
      if attempt.code ≠ 0 then none else some attempt.catalog

/-- What becomes of the durable rows: the catalogue, what `durable_result` says and the
rows that went to the pet. -/
structure DurablePart where
  catalog : OwnershipCatalog
  result : ItemTransferResult
  collectorItems : List (BitVec 64 × BitVec 64) := []

/-- The rows of some uids, nothing when one is not there or not the owner's. -/
def rowsOf (catalog : OwnershipCatalog) (owner : ItemOwnerIdentity) (uids : List (BitVec 64)) :
    Option (List FlatfileItemOwnershipRecord) :=
  uids.mapM fun uid =>
    (findRow catalog uid).filter fun row => itemOwnerIdentityEqual row.owner owner

def raiseDurable (catalog : OwnershipCatalog) (payload : CorpseLifecyclePayload)
    (room pet : ItemOwnerIdentity) (durableUids : List (BitVec 64)) : Option DurablePart :=
  let roomRevision := ownerRevision catalog room
  let petRevision := ownerRevision catalog pet
  if payload.petUid ≠ 0 ∧ durableUids ≠ [] then do
    let items ← fillTransfer catalog room fun item => durableUids.contains item.itemUid
    let attempt := applyTransfer catalog
      (raiseTransfer (raiseSource payload) room pet ItemTransferReason.corpseRaisePet roomRevision
        petRevision 0 true items)
    if attempt.code ≠ 0 then none
    else
      let rows ← rowsOf attempt.catalog pet durableUids
      return { catalog := attempt.catalog, result := attempt.result
               collectorItems := rows.map fun row => (row.itemUid, row.itemRevision) }
  else if payload.petUid ≠ 0 then
    if roomRevision = BitVec.allOnes 64 ∨ petRevision = BitVec.allOnes 64 then none
    else
      some
        { catalog := { catalog with owners := bumpOwner (bumpOwner catalog.owners room) pet }
          result := { fromOwnerRevision := roomRevision + 1, toOwnerRevision := petRevision + 1 } }
  else do
    let rows ← rowsOf catalog room durableUids
    return { catalog
             result :=
              { fromOwnerRevision := roomRevision
                itemCount := BitVec.ofNat 16 durableUids.length
                maxItemRevision :=
                  (rows.map FlatfileItemOwnershipRecord.itemRevision).foldl maxRevision 0 } }

/-- The rest of the tree, to destruction. -/
def raiseDiscarded (catalog : OwnershipCatalog) (payload : CorpseLifecyclePayload)
    (room : ItemOwnerIdentity) (discardedUids : List (BitVec 64)) : Option Attempt := do
  let items ← fillTransfer catalog room fun item => discardedUids.contains item.itemUid
  let attempt := applyTransfer catalog
    (raiseTransfer (raiseSource payload) room destructionOwner ItemTransferReason.destruction
      (ownerRevision catalog room) (ownerRevision catalog destructionOwner) 0 true items)
  if attempt.code ≠ 0 then none else return attempt

/-- A row of the tree, as the catalogue has it. -/
def raiseItemMatches (expected : CorpseCustodyItem) (item : FlatfileItemOwnershipRecord) : Bool :=
  item.itemUid == expected.itemUid && item.rootItemUid == expected.rootItemUid &&
    item.parentItemUid == expected.parentItemUid && item.vnum == expected.vnum &&
    item.itemRevision != 0 && item.itemRevision != BitVec.allOnes 64

/-- The owners of a raise, the clocks it expects and the rows of the tree. -/
def raiseMatches (catalog : OwnershipCatalog) (payload : CorpseLifecyclePayload)
    (expectedItems : List CorpseCustodyItem) : Bool :=
  let room := roomOwner payload.roomVnum
  custodyMatches raiseItemMatches expectedItems
      ((activeRows catalog room).filter fun item => item.rootItemUid == raiseSource payload) &&
    match findRow catalog (raiseSource payload) with
    | none => false
    | some source => source.itemRevision == payload.expectedCorpseRevision

def petOwner (payload : CorpseLifecyclePayload) : ItemOwnerIdentity :=
  ⟨ItemOwnerType.pet, payload.petUid, payload.destinationPlayerPid.setWidth 64⟩

def ensureRaiseOwners (catalog : OwnershipCatalog) (payload : CorpseLifecyclePayload) :
    Option OwnershipCatalog := do
  let catalog ← ensureOwner catalog destructionOwner
  if payload.petUid ≠ 0 then ensureOwner catalog (petOwner payload) else return catalog

/-- The clocks of the room and of the player, who have to be in the table. -/
def raiseClocksMatch (catalog : OwnershipCatalog) (payload : CorpseLifecyclePayload) : Bool :=
  let current (owner : ItemOwnerIdentity) (expected : BitVec 64) : Bool :=
    match findOwner catalog owner with
    | none => false
    | some stored => stored.revision == expected
  current (roomOwner payload.roomVnum) payload.expectedRoomRevision &&
    current (playerOwner payload.destinationPlayerPid) payload.expectedPlayerRevision

/-- The transfers one after the other, from the catalogue with every owner in it. -/
def carryOutRaise (catalog : OwnershipCatalog) (payload : CorpseLifecyclePayload)
    (expectedItems : List CorpseCustodyItem) (durableUids discardedUids : List (BitVec 64)) :
    Option (DurablePart × Attempt) := do
  let room := roomOwner payload.roomVnum
  let boundaries ← raiseBoundaries expectedItems discardedUids
  let detached ← boundaries.foldlM
    (detachBoundary (raiseSource payload) room expectedItems.length) catalog
  let durable ← raiseDurable detached payload room (petOwner payload) durableUids
  let discarded ← raiseDiscarded durable.catalog payload room discardedUids
  return (durable, discarded)

def prepareWorldCorpseRaise (sha256 : Bytes → Vector UInt8 32) (catalog : OwnershipCatalog)
    (payload : CorpseLifecyclePayload) (expectedItems : List CorpseCustodyItem)
    (durableUids discardedUids : List (BitVec 64)) :
    Except CustodyRefusal (Staged ItemCorpseReleaseMutation) :=
  let room := roomOwner payload.roomVnum
  let pet := petOwner payload
  if validWorldCorpseRaise payload expectedItems durableUids discardedUids = false ∨
      catalog.revision = BitVec.allOnes 64 ∨ raiseClocksMatch catalog payload = false then
    .error .invalid
  else
    match ensureRaiseOwners catalog payload with
    | none => .error .invalid
    | some catalog =>
        if (payload.petUid ≠ 0 ∧ ownerRevision catalog pet ≠ 0) ∨
            raiseMatches catalog payload expectedItems = false then .error .invalid
        else
          match carryOutRaise catalog payload expectedItems durableUids discardedUids with
          | none => .error .invalid
          | some (durable, discarded) =>
              stage sha256 discarded.catalog
                { corpseOwnerRevision := ownerRevision discarded.catalog room
                  petOwnerRevision :=
                    if payload.petUid = 0 then 0 else ownerRevision discarded.catalog pet
                  maxItemRevision := durable.result.maxItemRevision
                  itemCount := durable.result.itemCount.setWidth 64
                  destructionOwnerRevision := discarded.result.toOwnerRevision
                  maxDiscardedItemRevision := discarded.result.maxItemRevision
                  discardedItemCount := discarded.result.itemCount.setWidth 64
                  collectorItems := durable.collectorItems }

end Duris.Flatfile.Ownership
