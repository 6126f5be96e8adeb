import Duris.Economy.CollectorCommand
import Duris.Flatfile.ItemRepository

/-!
# What other commands do to the catalogue

The `prepare` functions of `src/flatfile/flatfile_item_repository.c` that auctions, the
collector, corpses, deaths and deleted characters go through. Each takes the catalogue as
it was loaded, changes a copy of it and encodes the copy; what it answers besides is its
mutation. The lock is held, recovery finds nothing to redo, allocation succeeds.
-/

namespace Duris.Flatfile.Ownership

open Persistence Player Item Economy

variable (sha256 : Bytes → Vector UInt8 32)

/-! ## Answers -/

/-- Why nothing was prepared: a result code under `ok`, or another result of the
repository. -/
inductive CustodyRefusal where
  | code (resultCode : BitVec 32)
  | notFound
  | unchanged
  | invalid
  | ioError
  deriving DecidableEq

/-- A prepared mutation: the changed catalogue and the image of it. -/
structure Staged (μ : Type) where
  catalog : OwnershipCatalog
  image : Bytes
  mutation : μ

/-- The last step of every `prepare` function. -/
def stage {μ : Type} (catalog : OwnershipCatalog) (mutation : μ) :
    Except CustodyRefusal (Staged μ) :=
  match encodeCatalog sha256 catalog (catalog.revision + 1) with
  | none => .error .invalid
  | some image => .ok { catalog, image, mutation }

def ownerRevision (catalog : OwnershipCatalog) (owner : ItemOwnerIdentity) : BitVec 64 :=
  match findOwner catalog owner with
  | none => 0
  | some stored => stored.revision

/-- `f` on the rows under some uids. -/
def updateUids (items : List FlatfileItemOwnershipRecord) (itemUids : List (BitVec 64))
    (f : FlatfileItemOwnershipRecord → FlatfileItemOwnershipRecord) :
    List FlatfileItemOwnershipRecord :=
  items.map fun row => if itemUids.contains row.itemUid then f row else row

/-- `f` on the rows of one owner. -/
def updateOwned (items : List FlatfileItemOwnershipRecord) (owner : ItemOwnerIdentity)
    (f : FlatfileItemOwnershipRecord → FlatfileItemOwnershipRecord) :
    List FlatfileItemOwnershipRecord :=
  items.map fun row => if itemOwnerIdentityEqual row.owner owner then f row else row

/-! ## Auctions -/

def auctionCommandMaxItems : Nat := 9

structure AuctionItemEntry where
  itemUid : BitVec 64
  expectedItemRevision : BitVec 64
  vnum : BitVec 32

/-- The part of `auction_command_payload` the repository reads. -/
structure AuctionCommandPayload where
  actorPid : BitVec 32
  items : List AuctionItemEntry

structure ItemAuctionMutation where
  playerOwnerRevision : BitVec 64
  auctionOwnerRevision : BitVec 64
  itemUids : List (BitVec 64)
  itemRevisions : List (BitVec 64)

/-- A row that may go to auction or come back: the active root of its tree. -/
def auctionItemMatches (catalog : OwnershipCatalog) (fromOwner : ItemOwnerIdentity)
    (expected : AuctionItemEntry) : Bool :=
  match findRow catalog expected.itemUid with
  | none => false
  | some item =>
      item.rootItemUid == item.itemUid && item.parentItemUid == 0 &&
        itemOwnerIdentityEqual item.owner fromOwner &&
        item.itemRevision == expected.expectedItemRevision &&
        item.itemRevision != BitVec.allOnes 64 && item.vnum == expected.vnum &&
        item.state == ItemCustodyState.active

def auctionRow (toOwner : ItemOwnerIdentity) (row : FlatfileItemOwnershipRecord) :
    FlatfileItemOwnershipRecord :=
  { row with owner := toOwner, itemRevision := row.itemRevision + 1 }

def playerOwner (pid : BitVec 32) : ItemOwnerIdentity :=
  ⟨ItemOwnerType.player, pid.setWidth 64, 0⟩

def auctionOwner (auctionId : BitVec 32) : ItemOwnerIdentity :=
  ⟨ItemOwnerType.auction, auctionId.setWidth 64, 0⟩

def prepareAuctionTransfer (catalog : OwnershipCatalog) (payload : AuctionCommandPayload)
    (auctionId : BitVec 32) (toAuction : Bool) :
    Except CustodyRefusal (Staged ItemAuctionMutation) :=
  if auctionId = 0 ∨ payload.actorPid = 0 ∨ payload.items = [] ∨
      auctionCommandMaxItems < payload.items.length then .error .invalid
  else
    let player := playerOwner payload.actorPid
    let auction := auctionOwner auctionId
    let fromOwner := if toAuction then player else auction
    let toOwner := if toAuction then auction else player
    match (ensureOwner catalog player).bind (ensureOwner · auction) with
    | none => .error .ioError
    | some catalog =>
        if ownerRevision catalog player = BitVec.allOnes 64 ∨
            ownerRevision catalog auction = BitVec.allOnes 64 then .error (.code erange)
        else if payload.items.all (auctionItemMatches catalog fromOwner) = false ∨
            ¬ (payload.items.map AuctionItemEntry.itemUid).Nodup then .error (.code estale)
        else
          let itemUids := payload.items.map AuctionItemEntry.itemUid
          let moved : OwnershipCatalog :=
            { catalog with
              owners := bumpOwner (bumpOwner catalog.owners player) auction
              items := updateUids catalog.items itemUids (auctionRow toOwner) }
          if catalog.revision = BitVec.allOnes 64 then .error .invalid
          else
            stage sha256 moved
              { playerOwnerRevision := ownerRevision moved player
                auctionOwnerRevision := ownerRevision moved auction
                itemUids
                itemRevisions := payload.items.map fun entry => entry.expectedItemRevision + 1 }

/-! ## The collector -/

structure ItemCollectorMutation where
  fromOwnerRevision : BitVec 64
  toOwnerRevision : BitVec 64
  itemRevision : BitVec 64

/-- The comparison of the rows of the tree with the payload. -/
def collectorRefusal (payload : CollectorCommandPayload) :
    List FlatfileItemOwnershipRecord → List ItemTransferEntry → Option (BitVec 32)
  | stored :: rows, expected :: entries =>
      if rowMatches payload.fromOwner stored expected = false then some estale
      else if stored.itemRevision = BitVec.allOnes 64 then some erange
      else collectorRefusal payload rows entries
  | _, _ => none

/-- The loop that looks for the new root of a row: up to the child of the selected row
above it. `steps` is what is left of the loop, and `root` what stands when it runs out. -/
def detachRoot (rows : List FlatfileItemOwnershipRecord) (selectedUid root : BitVec 64) :
    Nat → FlatfileItemOwnershipRecord → BitVec 64
  | 0, _ => root
  | steps + 1, cursor =>
      if cursor.parentItemUid = selectedUid then cursor.itemUid
      else
        match rows.find? (fun candidate => candidate.itemUid == cursor.parentItemUid) with
        | none => 0
        | some parent => detachRoot rows selectedUid root steps parent

def detachRow (payload : CollectorCommandPayload) (selectedParent newRoot : BitVec 64)
    (item : FlatfileItemOwnershipRecord) : FlatfileItemOwnershipRecord :=
  if item.itemUid = payload.selectedItemUid then
    { item with
      itemRevision := item.itemRevision + 1
      rootItemUid := item.itemUid
      parentItemUid := 0
      owner := payload.toOwner
      state := payload.targetState }
  else
    { item with
      itemRevision := item.itemRevision + 1
      rootItemUid := newRoot
      parentItemUid :=
        if payload.action = .collect ∧ item.parentItemUid = payload.selectedItemUid then
          selectedParent
        else item.parentItemUid }

/-- The loop over the tree. The rows before the one it is at are already as they will be,
and the search for a root goes through them as they are. -/
def detachRows (payload : CollectorCommandPayload) (selectedParent : BitVec 64) :
    List FlatfileItemOwnershipRecord → List FlatfileItemOwnershipRecord →
      Option (List FlatfileItemOwnershipRecord)
  | done, [] => some done
  | done, item :: todo =>
      let rows := done ++ item :: todo
      let newRoot :=
        if payload.action = .collect ∧ item.itemUid ≠ payload.selectedItemUid ∧
            item.rootItemUid = payload.selectedItemUid then
          detachRoot rows payload.selectedItemUid item.rootItemUid (rows.length + 1) item
        else item.rootItemUid
      if newRoot = 0 then none
      else detachRows payload selectedParent
        (done ++ [detachRow payload selectedParent newRoot item]) todo

/-- The rows of the catalogue, those of the tree as the loop left them. -/
def replaceRows (items rows : List FlatfileItemOwnershipRecord) :
    List FlatfileItemOwnershipRecord :=
  items.map fun row => (rows.find? fun changed => changed.itemUid == row.itemUid).getD row

/-- The tree of the payload: the rows under its root. -/
def collectorSource (catalog : OwnershipCatalog) (payload : CollectorCommandPayload) :
    List FlatfileItemOwnershipRecord :=
  match payload.items with
  | [] => []
  | first :: _ => sortRows (catalog.items.filter fun item => item.rootItemUid == first.rootItemUid)

def prepareCollectorTransfer (catalog : OwnershipCatalog) (payload : CollectorCommandPayload) :
    Except CustodyRefusal (Staged ItemCollectorMutation) :=
  if payload.items = [] ∨ collectorCommandMaxItems < payload.items.length then .error .invalid
  else
    match (ensureOwner catalog payload.fromOwner).bind (ensureOwner · payload.toOwner) with
    | none => .error (.code enospc)
    | some catalog =>
        if ownerRevision catalog payload.fromOwner ≠ payload.expectedFromOwnerRevision ∨
            ownerRevision catalog payload.toOwner ≠ payload.expectedToOwnerRevision then
          .error (.code estale)
        else if ownerRevision catalog payload.fromOwner = BitVec.allOnes 64 ∨
            ownerRevision catalog payload.toOwner = BitVec.allOnes 64 ∨
            catalog.revision = BitVec.allOnes 64 then .error (.code erange)
        else
          let source := collectorSource catalog payload
          if source.length ≠ payload.items.length then .error (.code emsgsize)
          else
            match collectorRefusal payload source payload.items with
            | some code => .error (.code code)
            | none =>
                match source.find? (fun item => item.itemUid == payload.selectedItemUid) with
                | none => .error (.code estale)
                | some selected =>
                    if payload.action ≠ .collect ∧ source.length ≠ 1 then
                      .error (.code emsgsize)
                    else
                      match detachRows payload selected.parentItemUid [] source with
                      | none => .error (.code ebadmsg)
                      | some rows =>
                          let moved : OwnershipCatalog :=
                            { catalog with
                              items := replaceRows catalog.items rows
                              owners :=
                                bumpOwner (bumpOwner catalog.owners payload.fromOwner)
                                  payload.toOwner }
                          stage sha256 moved
                            { fromOwnerRevision := ownerRevision moved payload.fromOwner
                              toOwnerRevision := ownerRevision moved payload.toOwner
                              itemRevision := selected.itemRevision + 1 }

/-! ## Corpses -/

inductive CorpseLifecycleAction where
  | upsert | remove | release | destroy | resurrect | raiseFollower | releaseNested
  | raiseWorldFollower
  deriving DecidableEq

/-- The part of `corpse_lifecycle_payload` the repository reads. -/
structure CorpseLifecyclePayload where
  action : CorpseLifecycleAction
  ownerPid : BitVec 32
  saveId : BitVec 32
  expectedCorpseRevision : BitVec 64
  expectedRoomRevision : BitVec 64
  destinationPlayerPid : BitVec 32
  oldRoomVnum : BitVec 32
  expectedPlayerRevision : BitVec 64
  targetRootItemUid : BitVec 64
  targetParentItemUid : BitVec 64
  expectedTargetParentRevision : BitVec 64
  roomVnum : BitVec 32
  petUid : BitVec 64

structure ItemCorpseReleaseMutation where
  corpseOwnerRevision : BitVec 64 := 0
  roomOwnerRevision : BitVec 64 := 0
  playerOwnerRevision : BitVec 64 := 0
  petOwnerRevision : BitVec 64 := 0
  maxItemRevision : BitVec 64 := 0
  itemCount : BitVec 64 := 0
  destructionOwnerRevision : BitVec 64 := 0
  maxDiscardedItemRevision : BitVec 64 := 0
  discardedItemCount : BitVec 64 := 0
  /-- `collector_items`: the rows that moved and their revisions. -/
  collectorItems : List (BitVec 64 × BitVec 64) := []

def corpseOwnerId (playerPid corpseSaveId : BitVec 32) : BitVec 64 :=
  if playerPid = 0 ∨ corpseSaveId = 0 then 0
  else (playerPid.setWidth 64 <<< 32) ||| corpseSaveId.setWidth 64

def corpseOwner (payload : CorpseLifecyclePayload) : ItemOwnerIdentity :=
  ⟨ItemOwnerType.corpse, corpseOwnerId payload.ownerPid payload.saveId, 0⟩

/-- A room by its vnum; `static_cast<uint64_t>` of an `int32_t` extends the sign. -/
def roomOwner (vnum : BitVec 32) : ItemOwnerIdentity := ⟨ItemOwnerType.room, vnum.signExtend 64, 0⟩

namespace CorpseLifecyclePayload

variable (payload : CorpseLifecyclePayload)

def petRaise : Bool := payload.action == .raiseFollower && payload.petUid != 0

def nestedPlayer : Bool := payload.action == .releaseNested && payload.destinationPlayerPid != 0

/-- The release goes to the room: one that is not nested, or nested in something there. -/
def toRoom : Bool :=
  payload.action == .release || payload.action == .releaseNested && !payload.nestedPlayer

def destinationOwner : ItemOwnerIdentity :=
  if payload.toRoom then roomOwner payload.roomVnum
  else if payload.action = .destroy then destructionOwner
  else if payload.petRaise then
    ⟨ItemOwnerType.pet, payload.petUid, payload.destinationPlayerPid.setWidth 64⟩
  else playerOwner payload.destinationPlayerPid

def expectedDestinationRevision : BitVec 64 :=
  if payload.petRaise then 0
  else if payload.action = .resurrect ∨ payload.action = .raiseFollower ∨
      payload.nestedPlayer = true then payload.expectedPlayerRevision
  else payload.expectedRoomRevision

end CorpseLifecyclePayload

/-- The expected rows: real items, in order, no two with one uid. -/
def validExpectedItems (items : List CorpseCustodyItem) : Bool :=
  decide (items.length ≤ ownershipMaximumEntries) &&
    decide ((items.map CorpseCustodyItem.itemUid).IsChain (· < ·)) &&
    items.all fun item => item.itemUid != 0 && decide (0 < item.vnum.toInt) && item.rootItemUid != 0

/-- The checks of `prepare_corpse_release` before the catalogue is loaded. -/
def validCorpseRelease (payload : CorpseLifecyclePayload) (items : List CorpseCustodyItem) :
    Bool :=
  let resurrect := payload.action == .resurrect
  let raiseFollower := payload.action == .raiseFollower
  let releaseNested := payload.action == .releaseNested
  (payload.action == .release || payload.action == .destroy || resurrect || raiseFollower ||
      releaseNested) &&
    payload.ownerPid != 0 && payload.saveId != 0 && decide (0 < payload.roomVnum.toInt) &&
    !(resurrect && (payload.destinationPlayerPid == 0 || decide (payload.oldRoomVnum.toInt ≤ 0) ||
      payload.expectedPlayerRevision == 0)) &&
    !(raiseFollower && (payload.destinationPlayerPid == 0 || payload.oldRoomVnum != 0 ||
      payload.expectedPlayerRevision == 0 || payload.expectedRoomRevision != 0)) &&
    !(releaseNested && (payload.targetRootItemUid == 0 || payload.targetParentItemUid == 0 ||
      payload.expectedTargetParentRevision == 0 ||
      (if payload.nestedPlayer then
        payload.expectedPlayerRevision == 0 || payload.expectedRoomRevision != 0
      else payload.expectedRoomRevision == 0))) &&
    validExpectedItems items

/-- A clock that has to be as expected, and zero without an owner. -/
def clockMatches (catalog : OwnershipCatalog) (owner : ItemOwnerIdentity)
    (expected : BitVec 64) : Bool :=
  match findOwner catalog owner with
  | none => expected == 0
  | some stored => stored.revision == expected

def corpseItemMatches (expected : CorpseCustodyItem) (item : FlatfileItemOwnershipRecord) : Bool :=
  item.itemUid == expected.itemUid && item.rootItemUid == expected.rootItemUid &&
    item.parentItemUid == expected.parentItemUid && item.vnum == expected.vnum &&
    item.state == ItemCustodyState.active && item.itemRevision != BitVec.allOnes 64

def ownedRows (catalog : OwnershipCatalog) (owner : ItemOwnerIdentity) :
    List FlatfileItemOwnershipRecord :=
  catalog.items.filter fun item => itemOwnerIdentityEqual item.owner owner

def nestedParentMatches (catalog : OwnershipCatalog) (payload : CorpseLifecyclePayload) : Bool :=
  if payload.action = .releaseNested then
    match findRow catalog payload.targetParentItemUid with
    | none => false
    | some parent =>
        parent.rootItemUid == payload.targetRootItemUid &&
          itemOwnerIdentityEqual parent.owner payload.destinationOwner &&
          parent.itemRevision == payload.expectedTargetParentRevision &&
          parent.state == ItemCustodyState.active
  else true

def releaseRow (payload : CorpseLifecyclePayload) (item : FlatfileItemOwnershipRecord) :
    FlatfileItemOwnershipRecord :=
  let nested := payload.action = .releaseNested
  { item with
    owner := payload.destinationOwner
    rootItemUid := if nested then payload.targetRootItemUid else item.rootItemUid
    parentItemUid :=
      if nested ∧ item.parentItemUid = 0 then payload.targetParentItemUid
      else item.parentItemUid
    state := if payload.action = .destroy then ItemCustodyState.destroyed else item.state
    itemRevision := item.itemRevision + 1 }

def ensureReleaseOwners (catalog : OwnershipCatalog) (payload : CorpseLifecyclePayload) :
    Option OwnershipCatalog := do
  let catalog ← ensureOwner catalog (corpseOwner payload)
  let catalog ← ensureOwner catalog payload.destinationOwner
  if payload.action = .resurrect then ensureOwner catalog (roomOwner payload.oldRoomVnum)
  else return catalog

def prepareCorpseRelease (catalog : OwnershipCatalog) (payload : CorpseLifecyclePayload)
    (expectedItems : List CorpseCustodyItem) :
    Except CustodyRefusal (Staged ItemCorpseReleaseMutation) :=
  let corpse := corpseOwner payload
  let destination := payload.destinationOwner
  let oldRoom := roomOwner payload.oldRoomVnum
  let resurrect := payload.action == .resurrect
  let rows := ownedRows catalog corpse
  if validCorpseRelease payload expectedItems = false then .error .invalid
  else if ((findOwner catalog corpse).isNone = true ∧ expectedItems ≠ []) ∨
      clockMatches catalog destination payload.expectedDestinationRevision = false ∨
      (payload.petRaise = true ∧ clockMatches catalog (playerOwner payload.destinationPlayerPid)
        payload.expectedPlayerRevision = false) ∨
      (resurrect = true ∧ clockMatches catalog oldRoom payload.expectedRoomRevision = false) ∨
      catalog.revision = BitVec.allOnes 64 then .error .invalid
  else if custodyMatches corpseItemMatches expectedItems rows = false then .error .invalid
  else
    match ensureReleaseOwners catalog payload with
    | none => .error .invalid
    | some catalog =>
        if nestedParentMatches catalog payload = false ∨
            ownerRevision catalog corpse = BitVec.allOnes 64 ∨
            ownerRevision catalog destination = BitVec.allOnes 64 ∨
            (resurrect = true ∧ ownerRevision catalog oldRoom = BitVec.allOnes 64) then
          .error .invalid
        else
          let owners := bumpOwner (bumpOwner catalog.owners corpse) destination
          let moved : OwnershipCatalog :=
            { catalog with
              owners := if resurrect then bumpOwner owners oldRoom else owners
              items := updateOwned catalog.items corpse (releaseRow payload) }
          let room := payload.toRoom || payload.action == .destroy
          let player := resurrect || (payload.action == .raiseFollower && !payload.petRaise) ||
            payload.nestedPlayer
          let revisions := rows.map fun row => (releaseRow payload row).itemRevision
          stage sha256 moved
            { corpseOwnerRevision := ownerRevision moved corpse
              roomOwnerRevision :=
                if resurrect then ownerRevision moved oldRoom
                else if room then ownerRevision moved destination else 0
              playerOwnerRevision := if player then ownerRevision moved destination else 0
              petOwnerRevision := if payload.petRaise then ownerRevision moved destination else 0
              maxItemRevision := revisions.foldl maxRevision 0
              itemCount := BitVec.ofNat 64 expectedItems.length
              collectorItems := rows.map fun row =>
                (row.itemUid, (releaseRow payload row).itemRevision) }

/-! ## Deaths and deleted characters -/

/-- The roots of the player's active rows among some uids. -/
def retainedRoots (catalog : OwnershipCatalog) (player : ItemOwnerIdentity)
    (custodyUids : List (BitVec 64)) : List (BitVec 64) :=
  (catalog.items.filter fun item =>
    item.state == ItemCustodyState.active && itemOwnerIdentityEqual item.owner player &&
      (item.itemUid != 0 && custodyUids.contains item.itemUid)).map
    FlatfileItemOwnershipRecord.rootItemUid

/-- A row a death holds back: the player's, active, and among the uids or under a root of
one of them. -/
def heldByDeath (catalog : OwnershipCatalog) (player : ItemOwnerIdentity)
    (custodyUids : List (BitVec 64)) (item : FlatfileItemOwnershipRecord) : Bool :=
  item.state == ItemCustodyState.active && itemOwnerIdentityEqual item.owner player &&
    ((item.itemUid != 0 && custodyUids.contains item.itemUid) ||
      (retainedRoots catalog player custodyUids).contains item.rootItemUid)

def quarantineRow (item : FlatfileItemOwnershipRecord) : FlatfileItemOwnershipRecord :=
  { item with
    state := ItemCustodyState.quarantined
    itemRevision := item.itemRevision + 1 }

def prepareDeathQuarantine (catalog : OwnershipCatalog) (pid : BitVec 32)
    (custodyUids : List (BitVec 64)) : Except CustodyRefusal (Staged Unit) :=
  let player := playerOwner pid
  let held := heldByDeath catalog player custodyUids
  if pid = 0 then .error .invalid
  else if (findOwner catalog player).isNone = true then .error .notFound
  else if catalog.items.any (fun item => held item && item.itemRevision == BitVec.allOnes 64) = true
    then .error .invalid
  else if catalog.items.any held = false then .error .unchanged
  else if ownerRevision catalog player = BitVec.allOnes 64 ∨
      catalog.revision = BitVec.allOnes 64 then .error .invalid
  else
    stage sha256
      { catalog with
        items := catalog.items.map fun item => if held item then quarantineRow item else item
        owners := bumpOwner catalog.owners player } ()

def preparePlayerRemove (catalog : OwnershipCatalog) (pid : BitVec 32) :
    Except CustodyRefusal (Staged Unit) :=
  let player := playerOwner pid
  if pid = 0 then .error .invalid
  else if (findOwner catalog player).isNone = true then .error .unchanged
  else
    match ensureOwner catalog destructionOwner with
    | none => .error .invalid
    | some catalog =>
        if catalog.revision = BitVec.allOnes 64 ∨
            ownerRevision catalog destructionOwner = BitVec.allOnes 64 ∨
            catalog.items.any (fun item => itemOwnerIdentityEqual item.owner player &&
              item.itemRevision == BitVec.allOnes 64) = true then .error .invalid
        else
          stage sha256
            { catalog with
              items := updateOwned catalog.items player retireRow
              owners := (bumpOwner catalog.owners destructionOwner).filter fun entry =>
                entry.owner != player } ()

end Duris.Flatfile.Ownership
