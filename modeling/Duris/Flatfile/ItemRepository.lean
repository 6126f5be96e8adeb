import Duris.Flatfile.ItemTransfer

/-!
# The item repository

`flatfile_item_repository_apply` of `src/flatfile/flatfile_item_repository.c`: a command
is looked up among the receipts, applied to a copy of the catalogue, and committed
together with what the other stores prepared for it. A refusal the catalogue decides is
committed as a receipt too; one of the other stores leaves nothing behind.

What the artifact, collector, locker, world item and materialization stores answer is an
argument, `Prepared`, with the parts of their answers the repository looks at. The
authority lock is taken, recovery finds nothing to redo, allocation and the commit
succeed.
-/

namespace Duris.Flatfile.Ownership

open Persistence Player Item

variable (sha256 : Bytes → Vector UInt8 32)

/-- The answers of the other stores the repository tells apart. -/
inductive PrepareResult where
  | ok
  | unchanged
  | conflict
  | ioError
  | invalid
  deriving DecidableEq

structure LockerCustodyItem where
  itemUid : BitVec 64
  vnum : BitVec 32

structure CorpseCustodyItem where
  itemUid : BitVec 64
  rootItemUid : BitVec 64
  parentItemUid : BitVec 64
  vnum : BitVec 32

/-- The answers of the other stores to one command. -/
structure Prepared where
  /-- `flatfile_artifact_prepare_corpse_transfer`, where it is asked about a conflict. -/
  corpseConflict : PrepareResult
  /-- `flatfile_collector_prepare_item_boundary`, its result code and whether it has an
  image. -/
  boundary : PrepareResult
  boundaryCode : BitVec 32
  boundaryImage : Bool
  locker : PrepareResult
  lockerItems : List LockerCustodyItem
  corpse : PrepareResult
  corpseItems : List CorpseCustodyItem
  corpseCreated : Bool
  corpseRevision : BitVec 64
  room : PrepareResult
  roomItems : List CorpseCustodyItem
  roomCreated : Bool
  roomRevision : BitVec 64
  corpseArtifacts : PrepareResult
  roomArtifacts : PrepareResult
  materialization : PrepareResult

/-! ## Which transfers the stores know -/

def genericMaterializationOwner (type : ItemOwnerType) : Bool :=
  type == ItemOwnerType.player || type == ItemOwnerType.system ||
    type == ItemOwnerType.destruction

def lockerTransfer (payload : ItemTransferPayload) : Bool :=
  (payload.fromOwner.type == ItemOwnerType.player &&
      payload.toOwner.type == ItemOwnerType.locker &&
      payload.reason == ItemTransferReason.lockerDeposit) ||
    (payload.fromOwner.type == ItemOwnerType.locker &&
      payload.toOwner.type == ItemOwnerType.player &&
      payload.reason == ItemTransferReason.lockerWithdraw)

def corpseLootTransfer (payload : ItemTransferPayload) : Bool :=
  payload.fromOwner.type == ItemOwnerType.corpse &&
    payload.toOwner.type == ItemOwnerType.player &&
    payload.reason == ItemTransferReason.corpseLoot

def corpseCreateTransfer (payload : ItemTransferPayload) : Bool :=
  payload.fromOwner.type == ItemOwnerType.player &&
    payload.toOwner.type == ItemOwnerType.corpse &&
    payload.reason == ItemTransferReason.corpseCreate

/-- `room_transfer`: one of the five shapes, and no second one. -/
def roomTransfer (payload : ItemTransferPayload) : Bool :=
  let noParent := payload.targetParentItemUid == 0
  let deposit := payload.fromOwner.type == ItemOwnerType.player &&
    payload.toOwner.type == ItemOwnerType.room &&
    ((payload.reason == ItemTransferReason.playerDrop && noParent) ||
      (payload.reason == ItemTransferReason.playerPut && !noParent))
  let withdraw := payload.fromOwner.type == ItemOwnerType.room &&
    payload.toOwner.type == ItemOwnerType.player &&
    payload.reason == ItemTransferReason.playerGet && noParent
  let create := payload.fromOwner.type == ItemOwnerType.system &&
    payload.toOwner.type == ItemOwnerType.room &&
    payload.reason == ItemTransferReason.creation && noParent
  let destroy := payload.fromOwner.type == ItemOwnerType.room &&
    payload.toOwner.type == ItemOwnerType.destruction &&
    payload.reason == ItemTransferReason.destruction && noParent
  let reparent := itemOwnerIdentityEqual payload.fromOwner payload.toOwner &&
    payload.fromOwner.type == ItemOwnerType.room &&
    payload.reason == ItemTransferReason.operatorRepair && noParent
  [deposit, withdraw, create, destroy, reparent].count true == 1

def genericTransferSupported (payload : ItemTransferPayload) (payloadVersion : BitVec 16) :
    Bool :=
  let loose := !payload.multiRoot && payload.targetParentItemUid == 0
  let mobileClaim := payload.reason == ItemTransferReason.mobileClaim &&
    itemOwnerIdentityEqual payload.fromOwner payload.toOwner && loose
  let petGive := payload.reason == ItemTransferReason.petGive &&
    payload.fromOwner.type == ItemOwnerType.player &&
    payload.toOwner.type == ItemOwnerType.pet &&
    payload.fromOwner.id == payload.toOwner.contextId && loose
  let petReturn := payload.reason == ItemTransferReason.petReturn &&
    payload.fromOwner.type == ItemOwnerType.pet &&
    payload.toOwner.type == ItemOwnerType.player &&
    payload.fromOwner.contextId == payload.toOwner.id && loose
  payload.reason == ItemTransferReason.craft ||
    (genericMaterializationOwner payload.fromOwner.type &&
      genericMaterializationOwner payload.toOwner.type) ||
    mobileClaim || petGive || petReturn || lockerTransfer payload || corpseLootTransfer payload ||
    (decide (itemTransferExactPayloadVersion ≤ payloadVersion) && roomTransfer payload) ||
    (decide (itemTransferCorpsePayloadVersion ≤ payloadVersion) && corpseCreateTransfer payload)

/-! ## The projections against the catalogue -/

def activeRows (catalog : OwnershipCatalog) (owner : ItemOwnerIdentity) :
    List FlatfileItemOwnershipRecord :=
  catalog.items.filter fun item =>
    item.state == ItemCustodyState.active && itemOwnerIdentityEqual item.owner owner

/-- The loop the three comparisons share: the rows of the owner, one for one. -/
def custodyMatches {α : Type} (same : α → FlatfileItemOwnershipRecord → Bool)
    (expected : List α) (rows : List FlatfileItemOwnershipRecord) : Bool :=
  rows.length == expected.length && (expected.zip rows).all fun pair => same pair.1 pair.2

def lockerCustodyMatches (catalog : OwnershipCatalog) (owner : ItemOwnerIdentity)
    (expected : List LockerCustodyItem) : Bool :=
  (findOwner catalog owner).isSome &&
    custodyMatches (fun item row => item.itemUid == row.itemUid && item.vnum == row.vnum)
      expected (activeRows catalog owner)

def corpseCustodyMatches (catalog : OwnershipCatalog) (owner : ItemOwnerIdentity)
    (expected : List CorpseCustodyItem) (created : Bool) : Bool :=
  match findOwner catalog owner with
  | none => expected.isEmpty
  | some storedOwner =>
      !(created && (storedOwner.revision != 0 || !expected.isEmpty)) &&
        custodyMatches (fun item row => item.itemUid == row.itemUid && item.vnum == row.vnum)
          expected (activeRows catalog owner)

def roomCustodyMatches (catalog : OwnershipCatalog) (owner : ItemOwnerIdentity)
    (expected : List CorpseCustodyItem) (created : Bool) : Bool :=
  match findOwner catalog owner with
  | none => created && expected.isEmpty
  | some storedOwner =>
      !(created && (storedOwner.revision != 0 || !expected.isEmpty)) &&
        custodyMatches
          (fun item row => item.itemUid == row.itemUid && item.vnum == row.vnum &&
            item.rootItemUid == row.rootItemUid && item.parentItemUid == row.parentItemUid)
          expected (activeRows catalog owner)

/-! ## Answers -/

def terminal (durableRevision : BitVec 64) (errorCode : BitVec 32) : CriticalApplyResult :=
  { outcome := .terminalFailure, durableRevision, errorCode }

def retryable (durableRevision : BitVec 64) (errorCode : BitVec 32) : CriticalApplyResult :=
  { outcome := .retryableFailure, durableRevision, errorCode }

/-- A store that did not prepare: `EIO` to be tried again, anything else for good. -/
def notPrepared (prepared : PrepareResult) (durableRevision : BitVec 64) :
    CriticalApplyResult :=
  if prepared = .ioError then retryable durableRevision eio else terminal durableRevision eilseq

def makeResult (outcome : CriticalApplyOutcome) (errorCode : BitVec 32)
    (result : ItemTransferResult) : CriticalApplyResult :=
  match itemTransferCommandEncodeResult result with
  | none => terminal 0 ebadmsg
  | some encoded =>
      { outcome
        durableRevision :=
          maxRevision (maxRevision result.fromOwnerRevision result.toOwnerRevision)
            (maxRevision result.maxItemRevision result.corpseRevision)
        errorCode
        resultSize := BitVec.ofNat 16 encoded.length
        resultPayload := encoded }

/-! ## `flatfile_item_repository_apply` -/

def commandDigest (command : CriticalCommand) :
    Option { digest : Bytes // digest.length = 32 } :=
  match criticalCommandEncode command with
  | .error _ => none
  | .ok encoded => some ⟨(sha256 encoded).toList, by simp⟩

/-- The candidate is the catalogue again, under a refusal found behind the transfer. -/
def refuseAttempt (catalog : OwnershipCatalog) (payload : ItemTransferPayload)
    (code : BitVec 32) : Attempt :=
  let revisionOf (owner : ItemOwnerIdentity) : BitVec 64 :=
    match findOwner catalog owner with
    | none => 0
    | some stored => stored.revision
  { code
    catalog
    result :=
      { rootItemUid := itemTransferResultRoot payload
        itemCount := BitVec.ofNat 16 payload.items.length
        fromOwnerRevision := revisionOf payload.fromOwner
        toOwnerRevision := revisionOf payload.toOwner } }

/-- The transfer itself, and the refusal of one no store would follow. -/
def attemptTransfer (catalog : OwnershipCatalog) (payload : ItemTransferPayload)
    (payloadVersion : BitVec 16) : Attempt :=
  let attempt :=
    if payload.reason = ItemTransferReason.craft then applyCraft catalog payload
    else applyTransfer catalog payload
  if attempt.code = 0 ∧ itemTransferExactPayloadVersion ≤ payloadVersion ∧
      genericTransferSupported payload payloadVersion = false then
    refuseAttempt catalog payload eopnotsupp
  else attempt

/-- An artifact in a looted corpse that may not be taken. -/
def checkArtifacts (catalog : OwnershipCatalog) (payload : ItemTransferPayload)
    (payloadVersion : BitVec 16) (prepared : Prepared) (attempt : Attempt) :
    Except CriticalApplyResult Attempt :=
  if attempt.code = 0 ∧ payloadVersion = itemTransferExactPayloadVersion ∧
      corpseLootTransfer payload = true then
    match prepared.corpseConflict with
    | .conflict => .ok (refuseAttempt catalog payload eopnotsupp)
    | .ok | .unchanged => .ok attempt
    | refused => .error (notPrepared refused catalog.revision)
  else .ok attempt

/-- What the collector has to say, and whether its image is committed. -/
def checkBoundary (catalog : OwnershipCatalog) (payload : ItemTransferPayload)
    (prepared : Prepared) (attempt : Attempt) : Except CriticalApplyResult (Attempt × Bool) :=
  if attempt.code = 0 then
    match prepared.boundary with
    | .ok | .unchanged =>
        if prepared.boundaryCode ≠ 0 then
          .ok (refuseAttempt catalog payload prepared.boundaryCode, false)
        else if prepared.boundary = .ok ∧ prepared.boundaryImage = true then
          .ok ({ attempt with
            result := { attempt.result with collectorCatalogChanged := true } }, true)
        else .ok (attempt, false)
    | refused => .error (notPrepared refused catalog.revision)
  else .ok (attempt, false)

/-- The stores that take part in the transaction, beside the catalogue. -/
structure ItemImages where
  locker : Bool
  corpse : Bool
  room : Bool
  corpseArtifacts : Bool
  roomArtifacts : Bool
  materialization : Bool
  collector : Bool

def includeLocker (catalog : OwnershipCatalog) (payload : ItemTransferPayload) (exact : Bool)
    (prepared : Prepared) : Except CriticalApplyResult Bool :=
  if exact = true ∧ lockerTransfer payload = true then
    if prepared.locker ≠ .ok then .error (notPrepared prepared.locker catalog.revision)
    else if lockerCustodyMatches catalog
        (if payload.fromOwner.type = ItemOwnerType.locker then payload.fromOwner
          else payload.toOwner) prepared.lockerItems = false then
      .error (terminal catalog.revision eilseq)
    else .ok true
  else .ok false

def includeCorpse (catalog : OwnershipCatalog) (payload : ItemTransferPayload) (exact : Bool)
    (prepared : Prepared) : Except CriticalApplyResult Bool :=
  if exact = true ∧
      (corpseLootTransfer payload = true ∨ corpseCreateTransfer payload = true) then
    if prepared.corpse ≠ .ok then .error (notPrepared prepared.corpse catalog.revision)
    else if corpseCustodyMatches catalog
        (if corpseCreateTransfer payload then payload.toOwner else payload.fromOwner)
        prepared.corpseItems prepared.corpseCreated = false then
      .error (terminal catalog.revision eilseq)
    else .ok true
  else .ok false

/-- A room on one side: its record moves to the revision its owner has after the
transfer. -/
def includeRoom (catalog : OwnershipCatalog) (payload : ItemTransferPayload) (exact : Bool)
    (prepared : Prepared) (result : ItemTransferResult) : Except CriticalApplyResult Bool :=
  if exact = true ∧ roomTransfer payload = true then
    if prepared.room ≠ .ok then .error (notPrepared prepared.room catalog.revision)
    else
      let fromRoom := payload.fromOwner.type == ItemOwnerType.room
      if roomCustodyMatches catalog (if fromRoom then payload.fromOwner else payload.toOwner)
          prepared.roomItems prepared.roomCreated = false ∨
          prepared.roomRevision ≠
            (if fromRoom then result.fromOwnerRevision else result.toOwnerRevision) then
        .error (terminal catalog.revision eilseq)
      else .ok true
  else .ok false

/-- A store asked under a condition, that may also have nothing to change. -/
def includeOptional (catalog : OwnershipCatalog) (asked : Bool) (prepared : PrepareResult) :
    Except CriticalApplyResult Bool :=
  if asked = true then
    if prepared ≠ .ok ∧ prepared ≠ .unchanged then
      .error (notPrepared prepared catalog.revision)
    else .ok (prepared == .ok)
  else .ok false

/-- The images of one command, up to the catalogue's own. -/
def prepareImages (catalog : OwnershipCatalog) (payload : ItemTransferPayload)
    (payloadVersion : BitVec 16) (prepared : Prepared) (attempt : Attempt) (collector : Bool) :
    Except CriticalApplyResult (ItemTransferResult × ItemImages) := do
  let exact := attempt.code == 0 && decide (itemTransferExactPayloadVersion ≤ payloadVersion)
  let locker ← includeLocker catalog payload exact prepared
  let corpse ← includeCorpse catalog payload exact prepared
  let result := if corpse then { attempt.result with corpseRevision := prepared.corpseRevision }
    else attempt.result
  let room ← includeRoom catalog payload exact prepared result
  let corpseArtifacts ← includeOptional catalog
    (attempt.code == 0 && payloadVersion == itemTransferPayloadVersion &&
      (corpseLootTransfer payload || corpseCreateTransfer payload)) prepared.corpseArtifacts
  let roomArtifacts ← includeOptional catalog (exact && roomTransfer payload)
    prepared.roomArtifacts
  let materialization ← includeOptional catalog (exact && !payload.itemBlob.isEmpty)
    prepared.materialization
  return (result, { locker, corpse, room, corpseArtifacts, roomArtifacts, materialization,
                    collector })

/-- What a command with no receipt yet is about to commit: the catalogue with its receipt,
the other stores that take part, and the answer once it is committed. -/
structure Candidate where
  catalog : OwnershipCatalog
  images : ItemImages
  answer : CriticalApplyResult

def prepareCandidate (catalog : OwnershipCatalog) (command : CriticalCommand)
    (payload : ItemTransferPayload) (digest : { digest : Bytes // digest.length = 32 })
    (prepared : Prepared) : Except CriticalApplyResult Candidate := do
  if ownershipMaximumOperations ≤ catalog.operations.length ∨
      catalog.revision = BitVec.allOnes 64 then
    throw (terminal catalog.revision enospc)
  let transferred := attemptTransfer catalog payload command.payloadVersion
  if transferred.code = eilseq then throw (retryable catalog.revision eilseq)
  let checked ← checkArtifacts catalog payload command.payloadVersion prepared transferred
  let bounded ← checkBoundary catalog payload prepared checked
  let attempt := bounded.1
  let staged ← prepareImages catalog payload command.payloadVersion prepared attempt bounded.2
  let receipt : OperationState :=
    { operationId := command.operationId, commandDigest := digest
      resultCode := attempt.code, result := staged.1 }
  return {
    catalog := { attempt.catalog with operations := attempt.catalog.operations ++ [receipt] }
    images := staged.2
    answer := makeResult (if attempt.code = 0 then .applied else .terminalFailure)
      attempt.code staged.1 }

/-- The answer to a command whose operation has a receipt. -/
def answerRecorded (catalog : OwnershipCatalog)
    (digest : { digest : Bytes // digest.length = 32 }) (entry : OperationState) :
    CriticalApplyResult :=
  if entry.commandDigest ≠ digest then terminal catalog.revision eexist
  else
    makeResult (if entry.resultCode = 0 then .alreadyApplied else .terminalFailure)
      entry.resultCode entry.result

/-- `load_catalog`: an absent file is the empty catalogue. -/
def loadCatalog (store : Option Bytes) : Option OwnershipCatalog :=
  match store with
  | none => some {}
  | some bytes => decodeCatalog sha256 bytes

/-- `flatfile_item_repository_apply`: the image of the catalogue it commits and the stores
that commit with it, if it does, and the answer. -/
def flatfileItemRepositoryApply (store : Option Bytes) (command : CriticalCommand)
    (prepared : Prepared) : Option (Bytes × ItemImages) × CriticalApplyResult :=
  if criticalCommandValid command = false then (none, terminal 0 einval)
  else
    match itemTransferCommandDecodePayload sha256 command, commandDigest sha256 command with
    | some payload, some digest =>
        match loadCatalog sha256 store with
        | none => (none, terminal 0 eilseq)
        | some catalog =>
            match catalog.operations.find? (fun entry =>
                entry.operationId == command.operationId) with
            | some entry => (none, answerRecorded catalog digest entry)
            | none =>
                match prepareCandidate catalog command payload digest prepared with
                | .error answer => (none, answer)
                | .ok candidate =>
                    match encodeCatalog sha256 candidate.catalog (catalog.revision + 1) with
                    | none => (none, terminal catalog.revision enospc)
                    | some ownership => (some (ownership, candidate.images), candidate.answer)
    | _, _ => (none, terminal 0 einval)

structure ItemCommand where
  command : CriticalCommand
  prepared : Prepared

def step (store : Option Bytes) (event : ItemCommand) : Option Bytes :=
  match (flatfileItemRepositoryApply sha256 store event.command event.prepared).1 with
  | none => store
  | some images => some images.1

end Duris.Flatfile.Ownership
