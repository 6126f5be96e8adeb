import Duris.Lib.Reader

/-!
# Critical commands and their durable spelling

`src/persistence/critical_command.{h,c}`: the command record, the order and
equality of entity keys, the validity check, normalisation, and the encoder and
decoder of the `CCM1` format.

The scoped enumerations of the header have a fixed underlying type, and the
decoder casts whatever integer it read into them before `critical_command_valid`
looks at the range. So a value of such a type is any integer of that width, and
the model keeps it at that: the enumerators are named constants. Pointer
arguments are never null here, and allocation succeeds.
-/

namespace Duris.Persistence

/-- `critical_operation_id`: sixteen bytes. -/
structure CriticalOperationId where
  bytes : Bytes
  size_eq : bytes.length = 16
  deriving DecidableEq

@[ext] theorem CriticalOperationId.ext {a b : CriticalOperationId}
    (h : a.bytes = b.bytes) : a = b := by
  cases a; cases b; cases h; rfl

def CriticalOperationId.ofRaw (raw : { bytes : Bytes // bytes.length = 16 }) :
    CriticalOperationId :=
  ⟨raw.1, raw.2⟩

@[simp] theorem CriticalOperationId.ofRaw_bytes
    (raw : { bytes : Bytes // bytes.length = 16 }) : (ofRaw raw).bytes = raw.1 := rfl

/-- `critical_entity_type`, at its underlying width. -/
abbrev CriticalEntityType := BitVec 8

def CriticalEntityType.player : CriticalEntityType := 1
def CriticalEntityType.account : CriticalEntityType := 2
def CriticalEntityType.item : CriticalEntityType := 3
def CriticalEntityType.locker : CriticalEntityType := 5
def CriticalEntityType.corpse : CriticalEntityType := 6
def CriticalEntityType.auction : CriticalEntityType := 7
def CriticalEntityType.room : CriticalEntityType := 8
def CriticalEntityType.system : CriticalEntityType := 9
def CriticalEntityType.shopkeeper : CriticalEntityType := 12
def CriticalEntityType.collector : CriticalEntityType := 13
def CriticalEntityType.pet : CriticalEntityType := 14

structure CriticalEntityKey where
  type : CriticalEntityType
  id : BitVec 64
  deriving DecidableEq

/-- `critical_command_type`, at its underlying width. -/
abbrev CriticalCommandType := BitVec 16

def CriticalCommandType.test : CriticalCommandType := 1
def CriticalCommandType.accountBank : CriticalCommandType := 3
def CriticalCommandType.itemTransfer : CriticalCommandType := 5
def CriticalCommandType.auction : CriticalCommandType := 7
def CriticalCommandType.coinTransfer : CriticalCommandType := 17
def CriticalCommandType.playerDeathRestitution : CriticalCommandType := 19

/-- `critical_source_site`, at its underlying width. -/
abbrev CriticalSourceSite := BitVec 16

def CriticalSourceSite.command : CriticalSourceSite := 1
def CriticalSourceSite.operatorRepair : CriticalSourceSite := 6

/-- `critical_deadline_class`, at its underlying width. -/
abbrev CriticalDeadlineClass := BitVec 8

def CriticalDeadlineClass.interactive : CriticalDeadlineClass := 1
def CriticalDeadlineClass.recovery : CriticalDeadlineClass := 4

structure CriticalExpectedRevision where
  key : CriticalEntityKey
  revision : BitVec 64
  deriving DecidableEq

structure CriticalCommand where
  schemaVersion : BitVec 32
  operationId : CriticalOperationId
  type : CriticalCommandType
  payloadVersion : BitVec 16
  sourceSite : CriticalSourceSite
  deadlineClass : CriticalDeadlineClass
  acceptedAtUsec : BitVec 64
  keys : List CriticalEntityKey
  expectedRevisions : List CriticalExpectedRevision
  payload : Bytes
  deriving DecidableEq

/-- The refusals of `critical_command_codec_result`; its `ok` is `Except.ok`. -/
inductive CriticalCommandCodecResult where
  | invalid
  | truncated
  | overflow
  | unsupportedVersion
  deriving DecidableEq

def criticalCommandSchemaVersion : BitVec 32 := 1
def criticalCommandMaxKeys : Nat := 3003
def criticalCommandMaxPayloadBytes : Nat := 384 * 1024
def criticalCommandMaxEncodedBytes : Nat := 512 * 1024

/-- `COMMAND_MAGIC`, the letters `CCM1`. -/
def commandMagic : Bytes := [67, 67, 77, 49]

/-! ## Keys and validity -/

def validEntityType (type : CriticalEntityType) : Bool :=
  decide (CriticalEntityType.player ≤ type) && decide (type ≤ CriticalEntityType.pet)

def criticalOperationIdIsZero (id : CriticalOperationId) : Bool :=
  id.bytes.all (· == 0)

/-- `critical_operation_id_derive`: the first sixteen bytes of a digest of the parent, the
domain and the discriminator. -/
def criticalOperationIdDerive (sha256 : Bytes → Vector UInt8 32) (parent : CriticalOperationId)
    (domain : BitVec 32) (discriminator : BitVec 64) : Option CriticalOperationId :=
  if criticalOperationIdIsZero parent ∨ domain = 0 then none
  else
    let digest := sha256 (parent.bytes ++ appendLe domain ++ appendLe discriminator)
    let derived : CriticalOperationId := ⟨digest.toList.take 16, by simp⟩
    if criticalOperationIdIsZero derived then none else some derived

def criticalEntityKeyLess (left right : CriticalEntityKey) : Bool :=
  if left.type ≠ right.type then decide (left.type < right.type)
  else decide (left.id < right.id)

def criticalEntityKeyEqual (left right : CriticalEntityKey) : Bool :=
  left.type == right.type && left.id == right.id

/-- `std::binary_search`: the lower bound of `value`, tested for equivalence. -/
def binarySearch {α : Type} (less : α → α → Bool) (xs : List α) (value : α) : Bool :=
  match xs.dropWhile (fun x => less x value) with
  | [] => false
  | x :: _ => !less value x

/-- The key loop of `critical_command_valid`: every key well typed, nonzero and
strictly above the one before it. -/
def validKeys : Option CriticalEntityKey → List CriticalEntityKey → Bool
  | _, [] => true
  | previous, key :: rest =>
      validEntityType key.type && key.id != 0 &&
        (match previous with
          | none => true
          | some before => criticalEntityKeyLess before key) &&
        validKeys (some key) rest

/-- The revision loop: as for the keys, and each one names a key of the command. -/
def validRevisions (keys : List CriticalEntityKey) :
    Option CriticalEntityKey → List CriticalExpectedRevision → Bool
  | _, [] => true
  | previous, revision :: rest =>
      validEntityType revision.key.type && revision.key.id != 0 &&
        binarySearch criticalEntityKeyLess keys revision.key &&
        (match previous with
          | none => true
          | some before => criticalEntityKeyLess before revision.key) &&
        validRevisions keys (some revision.key) rest

def criticalCommandValid (command : CriticalCommand) : Bool :=
  if command.schemaVersion ≠ criticalCommandSchemaVersion ∨
      criticalOperationIdIsZero command.operationId = true ∨
      command.payloadVersion = 0 ∨
      command.type < CriticalCommandType.test ∨
      CriticalCommandType.playerDeathRestitution < command.type ∨
      command.sourceSite < CriticalSourceSite.command ∨
      CriticalSourceSite.operatorRepair < command.sourceSite ∨
      command.deadlineClass < CriticalDeadlineClass.interactive ∨
      CriticalDeadlineClass.recovery < command.deadlineClass ∨
      command.acceptedAtUsec = 0 ∨
      command.keys = [] ∨
      criticalCommandMaxKeys < command.keys.length ∨
      criticalCommandMaxKeys < command.expectedRevisions.length ∨
      criticalCommandMaxPayloadBytes < command.payload.length then false
  else validKeys none command.keys &&
    validRevisions command.keys none command.expectedRevisions

/-- `std::adjacent_find` against `end()`: some two neighbours are equal. -/
def adjacentEqual : List CriticalEntityKey → Bool
  | left :: right :: rest =>
      criticalEntityKeyEqual left right || adjacentEqual (right :: rest)
  | _ => false

/-- The loop of `std::unique` behind the element it kept last. -/
def uniqueAfter {α : Type} (equal : α → α → Bool) : α → List α → List α
  | _, [] => []
  | kept, x :: rest =>
      if equal kept x then uniqueAfter equal kept rest else x :: uniqueAfter equal x rest

/-- `std::unique` with the `erase` behind it: the first of every run of equal elements. -/
def unique {α : Type} (equal : α → α → Bool) : List α → List α
  | [] => []
  | x :: rest => x :: uniqueAfter equal x rest

/-- `critical_command_normalize`, which sorts in place: the sorted command when
it answers true. `std::sort` need not be stable, but a command with two
equivalent elements is refused, so the order it leaves them in is never seen. -/
def criticalCommandNormalize (command : CriticalCommand) : Option CriticalCommand :=
  let keys := command.keys.mergeSort (fun a b => !criticalEntityKeyLess b a)
  if adjacentEqual keys then none
  else
    let revisions := command.expectedRevisions.mergeSort
      (fun a b => !criticalEntityKeyLess b.key a.key)
    let sorted := { command with keys := keys, expectedRevisions := revisions }
    if criticalCommandValid sorted then some sorted else none

/-! ## The encoder -/

/-- The seven reserved bytes after an entity type. -/
def keyPadding : Bytes := List.replicate 7 0

def encodeKey (key : CriticalEntityKey) : Bytes :=
  appendLe key.type ++ keyPadding ++ appendLe key.id

def encodeRevision (revision : CriticalExpectedRevision) : Bytes :=
  encodeKey revision.key ++ appendLe revision.revision

/-- The fixed part of an encoded command, after the magic: the scalar fields and
the sizes of the three variable sections. -/
structure CommandHeader where
  schemaVersion : BitVec 32
  operationId : CriticalOperationId
  type : CriticalCommandType
  payloadVersion : BitVec 16
  sourceSite : CriticalSourceSite
  deadlineClass : CriticalDeadlineClass
  acceptedAtUsec : BitVec 64
  keyCount : BitVec 32
  revisionCount : BitVec 32
  payloadSize : BitVec 32

def CriticalCommand.header (command : CriticalCommand) : CommandHeader :=
  { schemaVersion := command.schemaVersion
    operationId := command.operationId
    type := command.type
    payloadVersion := command.payloadVersion
    sourceSite := command.sourceSite
    deadlineClass := command.deadlineClass
    acceptedAtUsec := command.acceptedAtUsec
    keyCount := BitVec.ofNat 32 command.keys.length
    revisionCount := BitVec.ofNat 32 command.expectedRevisions.length
    payloadSize := BitVec.ofNat 32 command.payload.length }

def encodeHeader (header : CommandHeader) : Bytes :=
  appendLe header.schemaVersion ++ header.operationId.bytes ++ appendLe header.type ++
    appendLe header.payloadVersion ++ appendLe header.sourceSite ++
    appendLe header.deadlineClass ++ appendLe (0 : BitVec 8) ++
    appendLe header.acceptedAtUsec ++ appendLe header.keyCount ++
    appendLe header.revisionCount ++ appendLe header.payloadSize

/-- What the encoder has written before it looks at the total size. -/
def encodeFields (command : CriticalCommand) : Bytes :=
  commandMagic ++ encodeHeader command.header ++ command.keys.flatMap encodeKey ++
    command.expectedRevisions.flatMap encodeRevision ++ command.payload

def criticalCommandEncode (command : CriticalCommand) :
    Except CriticalCommandCodecResult Bytes :=
  if criticalCommandValid command then
    if (encodeFields command).length ≤ criticalCommandMaxEncodedBytes then
      .ok (encodeFields command)
    else .error .overflow
  else .error .invalid

def criticalCommandEqual (left right : CriticalCommand) : Bool :=
  match criticalCommandEncode left, criticalCommandEncode right with
  | .ok leftEncoded, .ok rightEncoded => leftEncoded == rightEncoded
  | _, _ => false

/-! ## The decoder

The source walks an offset over the buffer; the reader keeps the rest of the
input instead. A read past the end answers `truncated`. -/

open Reader

/-- One key: the type byte, seven bytes that must be zero, the id. -/
def decodeKey : Reader CriticalCommandCodecResult CriticalEntityKey := do
  let type ← field .truncated 8
  let padding ← raw .truncated 7
  require (padding.1 = keyPadding) .invalid
  let id ← field .truncated 64
  return ⟨type, id⟩

def decodeRevision : Reader CriticalCommandCodecResult CriticalExpectedRevision := do
  let key ← decodeKey
  let revision ← field .truncated 64
  return ⟨key, revision⟩

def decodeHeader : Reader CriticalCommandCodecResult CommandHeader := do
  let schemaVersion ← field .truncated 32
  require (schemaVersion = criticalCommandSchemaVersion) .unsupportedVersion
  let operationId ← raw .truncated 16
  let type ← field .truncated 16
  let payloadVersion ← field .truncated 16
  let sourceSite ← field .truncated 16
  let deadlineClass ← field .truncated 8
  let reserved ← field .truncated 8
  require (reserved = 0) .invalid
  let acceptedAtUsec ← field .truncated 64
  let keyCount ← field .truncated 32
  let revisionCount ← field .truncated 32
  let payloadSize ← field .truncated 32
  return { schemaVersion, operationId := .ofRaw operationId, type,
           payloadVersion, sourceSite, deadlineClass, acceptedAtUsec, keyCount,
           revisionCount, payloadSize }

/-- The decoder past the magic: the header, the limits checked before anything is
allocated, and the three variable sections. -/
def decodeFields : Reader CriticalCommandCodecResult CriticalCommand := do
  let header ← decodeHeader
  require (header.keyCount ≠ 0 ∧ header.keyCount.toNat ≤ criticalCommandMaxKeys ∧
    header.revisionCount.toNat ≤ criticalCommandMaxKeys ∧
    header.payloadSize.toNat ≤ criticalCommandMaxPayloadBytes) .overflow
  let left ← remaining
  let required := header.keyCount.toNat * 16 + header.revisionCount.toNat * 24 +
    header.payloadSize.toNat
  require (required = left) (if left < required then .truncated else .invalid)
  let keys ← many decodeKey header.keyCount.toNat
  let expectedRevisions ← many decodeRevision header.revisionCount.toNat
  let payload ← takeRest
  let decoded : CriticalCommand :=
    { schemaVersion := header.schemaVersion
      operationId := header.operationId
      type := header.type
      payloadVersion := header.payloadVersion
      sourceSite := header.sourceSite
      deadlineClass := header.deadlineClass
      acceptedAtUsec := header.acceptedAtUsec
      keys := keys
      expectedRevisions := expectedRevisions
      payload := payload }
  require (criticalCommandValid decoded = true) .invalid
  return decoded

def criticalCommandDecode (encoded : Bytes) :
    Except CriticalCommandCodecResult CriticalCommand :=
  if encoded.length < 52 then .error .truncated
  else if criticalCommandMaxEncodedBytes < encoded.length ∨
      encoded.take 4 ≠ commandMagic then .error .invalid
  else (decodeFields (encoded.drop 4)).map Prod.fst

end Duris.Persistence
