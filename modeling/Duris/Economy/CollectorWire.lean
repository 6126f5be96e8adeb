import Duris.Economy.AuctionCommand
import Duris.Economy.CollectorCodec

/-!
# Collector commands on the wire

`collector_command_encode_payload`, `collector_command_decode_payload` and
`collector_command_build` of `src/economy/collector_command.c`. The account name is a
text behind its length on the wire and a C string in memory: the decoder copies its
bytes into an array of zeros, the encoder stops at the first zero.
-/

namespace Duris.Economy

open Persistence Player Item

variable (sha256 : Bytes → Vector UInt8 32)

def collectorCommandPayloadVersion : BitVec 16 := 1
def collectorCommandType : CriticalCommandType := 18

def CollectorAction.code : CollectorAction → BitVec 8
  | .unknown => 0
  | .collect => 1
  | .activate => 2
  | .purchase => 3
  | .expire => 4
  | .cancel => 5
  | .pause => 6
  | .resume => 7
  | .hint => 8
  | .hintAck => 9

/-- `static_cast<collector_action>`, where `valid_action` accepts the value. -/
def CollectorAction.ofCode (code : BitVec 8) : Option CollectorAction :=
  [CollectorAction.collect, .activate, .purchase, .expire, .cancel, .pause, .resume, .hint,
    .hintAck].find? fun action => action.code == code

/-- The array a name is copied into. -/
@[irreducible] def nameArray (name : Bytes) : Vector UInt8 51 :=
  Vector.ofFn fun index => name.getD index 0

/-- `append_name` and the `append_string`s: the characters before the terminator, which
has to be inside the array. -/
def appendString (size : Nat) (value : Bytes) : Option Bytes :=
  let text := cString (value.take size)
  if size ≤ text.length then none
  else some (appendLe (BitVec.ofNat 16 text.length) ++ text)

def encodeCollectorHeader (payload : CollectorCommandPayload) : Bytes :=
  appendLe payload.action.code ++ appendLe payload.cancelReason.toByte ++
    appendLe payload.targetState ++ appendLe (Collector.boolByte payload.capacityAdmitted) ++
    appendLe payload.listing ++ appendLe payload.expectedListingRevision ++
    appendLe payload.observedAt ++ appendLe payload.actorPid ++ appendLe payload.racewar ++
    appendLe payload.expectedWalletRevision ++ appendLe payload.expectedBankRevision ++
    encodeOwner payload.fromOwner ++ encodeOwner payload.toOwner ++
    appendLe payload.expectedFromOwnerRevision ++ appendLe payload.expectedToOwnerRevision ++
    appendLe payload.selectedItemUid ++ appendLe (BitVec.ofNat 16 payload.items.length)

def collectorCommandEncodePayload (payload : CollectorCommandPayload) : Option Bytes :=
  if validCollectorPayload payload = false then none
  else do
    let name ← appendString (currencyAccountNameMaxBytes + 1) payload.accountName.toList
    let encoded := encodeCollectorHeader payload ++ payload.items.flatMap encodeEntry ++ name ++
      appendLe (BitVec.ofNat 32 payload.itemBlob.length) ++ payload.itemBlob
    if criticalCommandMaxPayloadBytes < encoded.length then none else some encoded

/-- `add_key`: nothing when the key is there. -/
def addKey (keys : List CriticalEntityKey) (key : CriticalEntityKey) : List CriticalEntityKey :=
  if keys.any (criticalEntityKeyEqual · key) then keys else keys ++ [key]

/-- `add_fence`: nothing when the key has a revision. -/
def addFence (fences : List CriticalEntityKey × List CriticalExpectedRevision)
    (fence : CriticalExpectedRevision) : List CriticalEntityKey × List CriticalExpectedRevision :=
  (addKey fences.1 fence.key,
    if fences.2.any fun candidate => criticalEntityKeyEqual candidate.key fence.key then fences.2
    else fences.2 ++ [fence])

def actorFences (payload : CollectorCommandPayload) : Option (List CriticalExpectedRevision) :=
  if payload.action ≠ .purchase then some []
  else do
    let account ← currencyAccountKey sha256 payload.accountName.toList payload.racewar
    return [⟨⟨CriticalEntityType.player, payload.actorPid.setWidth 64⟩,
        payload.expectedWalletRevision⟩,
      ⟨account, payload.expectedBankRevision⟩]

def custodyFences (payload : CollectorCommandPayload) : Option (List CriticalExpectedRevision) :=
  if payload.items = [] then some []
  else do
    let source ← itemOwnerKey sha256 payload.fromOwner
    let target ← itemOwnerKey sha256 payload.toOwner
    return ⟨source, payload.expectedFromOwnerRevision⟩ ::
      ⟨target, payload.expectedToOwnerRevision⟩ ::
      payload.items.map fun item =>
        ⟨⟨CriticalEntityType.item, item.itemUid⟩, item.expectedItemRevision⟩

/-- What `collector_command_build` adds, in order. -/
def collectorFences (payload : CollectorCommandPayload) :
    Option (List CriticalExpectedRevision) := do
  let actor ← actorFences sha256 payload
  let custody ← custodyFences sha256 payload
  return ⟨⟨CriticalEntityType.collector, payload.listing⟩, payload.expectedListingRevision⟩ ::
    (actor ++ custody)

def collectorCommandBuild (operationId : CriticalOperationId) (payload : CollectorCommandPayload)
    (sourceSite : CriticalSourceSite) (deadlineClass : CriticalDeadlineClass) :
    Option CriticalCommand :=
  if criticalOperationIdIsZero operationId = true ∨ validCollectorPayload payload = false then none
  else do
    let encoded ← collectorCommandEncodePayload payload
    let fences ← collectorFences sha256 payload
    let added := fences.foldl addFence ([], [])
    let keys := added.1.mergeSort fun a b => !criticalEntityKeyLess b a
    let revisions := added.2.mergeSort fun a b => !criticalEntityKeyLess b.key a.key
    if criticalCommandMaxKeys < keys.length ∨ criticalCommandMaxKeys < revisions.length then none
    else
      return {
        schemaVersion := criticalCommandSchemaVersion
        operationId := operationId
        type := collectorCommandType
        payloadVersion := collectorCommandPayloadVersion
        sourceSite := sourceSite
        deadlineClass := deadlineClass
        acceptedAtUsec := 0
        keys := keys
        expectedRevisions := revisions
        payload := encoded }

section Decode

open Reader

def readOwner : Reader Unit ItemOwnerIdentity := decodeOwner

/-- The fields before the rows, with nothing in the rows, the name and the blob, and the
number of rows. -/
def readCollectorHeader : Reader Unit (CollectorCommandPayload × Nat) := do
  let action ← field () 8
  let reason ← field () 8
  let targetState ← field () 8
  let capacity ← field () 8
  require (capacity ≤ 1) ()
  let listing ← field () 64
  let expectedListingRevision ← field () 64
  let observedAt ← field () 64
  let actorPid ← field () 32
  let racewar ← field () 8
  let expectedWalletRevision ← field () 64
  let expectedBankRevision ← field () 64
  let fromOwner ← readOwner
  let toOwner ← readOwner
  let expectedFromOwnerRevision ← field () 64
  let expectedToOwnerRevision ← field () 64
  let selectedItemUid ← field () 64
  let itemCount ← field () 16
  require (itemCount.toNat ≤ collectorCommandMaxItems) ()
  let action ← ofOption () (CollectorAction.ofCode action)
  let cancelReason ← ofOption () (Collector.Reason.ofByte reason)
  return ({ action, cancelReason, targetState, capacityAdmitted := capacity != 0, listing,
            expectedListingRevision, observedAt, actorPid, racewar,
            accountName := nameArray [], expectedWalletRevision, expectedBankRevision,
            fromOwner, toOwner, expectedFromOwnerRevision, expectedToOwnerRevision,
            selectedItemUid, items := [], itemBlob := [] }, itemCount.toNat)

/-- The reads of `collector_command_decode_payload`, before it checks the payload. -/
def readCollectorPayload : Reader Unit CollectorCommandPayload := do
  let header ← readCollectorHeader
  let items ← many decodeEntry header.2
  let name ← readString (currencyAccountNameMaxBytes + 1)
  let itemBlobSize ← field () 32
  require (itemBlobSize.toNat ≤ collectorCommandItemBlobMaxBytes) ()
  let itemBlob ← raw () itemBlobSize.toNat
  return { header.1 with items, accountName := nameArray name, itemBlob := itemBlob.1 }

def matchingFences (left right : CriticalCommand) : Bool :=
  decide (left.keys = right.keys ∧ left.expectedRevisions = right.expectedRevisions)

def collectorCommandDecodePayload (sha256 : Bytes → Vector UInt8 32) (command : CriticalCommand) :
    Option CollectorCommandPayload :=
  if command.type ≠ collectorCommandType ∨
      command.payloadVersion ≠ collectorCommandPayloadVersion then none
  else do
    let payload ← whole readCollectorPayload command.payload
    if validCollectorPayload payload = false then none
    else
      let expected ← collectorCommandBuild sha256 command.operationId payload command.sourceSite
        command.deadlineClass
      if matchingFences expected command then some payload else none

end Decode

end Duris.Economy
