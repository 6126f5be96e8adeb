import Duris.Economy.CollectorPolicy
import Duris.Lib.Reader

/-!
# The collector's catalogue on disk

`src/economy/collector_codec.{h,c}`: the fixed-width layout of a record and of the
catalogue that holds all of them.

The functions of the source write through a pointer and answer a result. Here those of the
catalogue are given what the output argument holds before the call and return the result
together with what it holds after, and those of a record return the value alone. A death
operation is kept as 32 hexadecimal digits with a zero behind them and stored as the sixteen
bytes they spell. `allocated` says whether the vectors get the memory they ask for.
-/

namespace Duris.Economy.Collector

open Reader

def catalogCodecVersion : BitVec 16 := 1
def catalogHeaderBytes : Nat := 28
def encodedRecordBytes : Nat := 154
def catalogMaxRecords : Nat := 262144

/-- `catalog_magic`: "DCAT". -/
def catalogMagic : Bytes := [0x44, 0x43, 0x41, 0x54]

structure Catalog where
  revision : BitVec 64 := 0
  nextListing : BitVec 64 := 1
  records : List Record := []
  deriving DecidableEq

/-- Every `codec_result` but `ok`. -/
inductive CodecFailure where
  | invalid | malformed | unsupportedVersion | tooManyRecords | allocationFailure
  deriving DecidableEq

inductive CodecResult where
  | ok
  | failed (why : CodecFailure)
  deriving DecidableEq

/-- What a call leaves behind: its result, and the value computed or the output argument
as it was. -/
def answer {α : Type} (computed : Except CodecFailure α) (output : α) : CodecResult × α :=
  match computed with
  | .ok value => (.ok, value)
  | .error why => (.failed why, output)

def State.toByte : State → BitVec 8
  | .candidate => 1
  | .collected => 2
  | .available => 3
  | .purchased => 4
  | .cancelled => 5
  | .expired => 6

/-- `static_cast<state>`, where `valid_record` accepts the value. -/
def State.ofByte (byte : BitVec 8) : Option State :=
  [State.candidate, .collected, .available, .purchased, .cancelled, .expired].find?
    fun status => status.toByte == byte

def Reason.toByte : Reason → BitVec 8
  | .none => 0
  | .claimed => 1
  | .destroyed => 2
  | .quarantined => 3
  | .excluded => 4
  | .characterDeleted => 5
  | .seasonReset => 6
  | .holdingElapsed => 7

def Reason.ofByte (byte : BitVec 8) : Option Reason :=
  [Reason.none, .claimed, .destroyed, .quarantined, .excluded, .characterDeleted, .seasonReset,
    .holdingElapsed].find? fun why => why.toByte == byte

def boolByte (value : Bool) : BitVec 8 := if value then 1 else 0

/-- `hexadecimal` of the codec: the value of a digit. -/
def hexadecimalValue (value : UInt8) : Option UInt8 :=
  if '0'.toUInt8 ≤ value ∧ value ≤ '9'.toUInt8 then some (value - '0'.toUInt8)
  else if 'a'.toUInt8 ≤ value ∧ value ≤ 'f'.toUInt8 then some (value - 'a'.toUInt8 + 10)
  else none

def putDigits : List UInt8 → Option Bytes
  | high :: low :: digits => do
      let high ← hexadecimalValue high
      let low ← hexadecimalValue low
      let bytes ← putDigits digits
      return ((high <<< 4) ||| low) :: bytes
  | _ => some []

def putOperation (operation : Vector UInt8 (deathOperationHexSize + 1)) : Option Bytes :=
  putDigits (operation.toList.take deathOperationHexSize)

def hexadecimalDigits : List UInt8 := "0123456789abcdef".toList.map Char.toUInt8

def getDigits (bytes : Bytes) : List UInt8 :=
  bytes.flatMap fun value : UInt8 =>
    [hexadecimalDigits.getD (value >>> 4).toNat 0, hexadecimalDigits.getD (value &&& 0xf).toNat 0]

/-- `get_operation`: the digits and the zero behind them. -/
def getOperation (bytes : Bytes) : Vector UInt8 (deathOperationHexSize + 1) :=
  Vector.ofFn fun index => (getDigits bytes).getD index 0

/-! The fields of a record in their order, in four groups. -/

def identityBytes (entry : Record) (operation : Bytes) : Bytes :=
  appendLe entry.version ++ appendLe entry.listing ++ operation ++ appendLe entry.beneficiary ++
    appendLe entry.uid

def scheduleBytes (entry : Record) : Bytes :=
  appendLe entry.deathTime ++ appendLe entry.collectAt ++ appendLe entry.saleAt ++
    appendLe entry.availableAt ++ appendLe entry.expiresAt ++
    appendLe (boolByte entry.holdingPaused) ++ appendLe entry.pausedAt

def rulesBytes (policy : Rules) : Bytes :=
  appendLe (boolByte policy.enabled) ++ appendLe policy.collectionDelay ++
    appendLe policy.saleDelay ++ appendLe policy.holdingDuration ++ appendLe policy.pricePercent ++
    appendLe policy.minimumValue

def standingBytes (entry : Record) : Bytes :=
  appendLe entry.revision ++ appendLe entry.itemRevision ++ appendLe entry.priceValue ++
    rulesBytes entry.policy ++ appendLe entry.status.toByte ++ appendLe entry.closedReason.toByte

def recordBytes (entry : Record) (operation : Bytes) : Bytes :=
  identityBytes entry operation ++ scheduleBytes entry ++ standingBytes entry

def encodeRecord (entry : Record) : Except CodecFailure Bytes :=
  if entry.version ≠ recordVersion then .error .unsupportedVersion
  else if validRecord entry = false then .error .invalid
  else
    match putOperation entry.deathOperation with
    | none => .error .invalid
    | some operation =>
        let candidate := recordBytes entry operation
        if candidate.length ≠ encodedRecordBytes then .error .invalid else .ok candidate

/-! The reads of `record_decode`, each group into the candidate. -/

def readIdentity : Reader CodecFailure Record := do
  let version ← field .malformed 16
  require (version = recordVersion) .unsupportedVersion
  let listing ← field .malformed 64
  let operation ← raw .malformed 16
  let beneficiary ← field .malformed 32
  let uid ← field .malformed 64
  return { version, listing, deathOperation := getOperation operation.1, beneficiary, uid }

def readSchedule (candidate : Record) : Reader CodecFailure Record := do
  let deathTime ← field .malformed 64
  let collectAt ← field .malformed 64
  let saleAt ← field .malformed 64
  let availableAt ← field .malformed 64
  let expiresAt ← field .malformed 64
  let paused ← field .malformed 8
  require (paused ≤ 1) .malformed
  let pausedAt ← field .malformed 64
  return { candidate with deathTime, collectAt, saleAt, availableAt, expiresAt
                          holdingPaused := paused != 0, pausedAt }

def readRules : Reader CodecFailure Rules := do
  let enabled ← field .malformed 8
  require (enabled ≤ 1) .malformed
  let collectionDelay ← field .malformed 64
  let saleDelay ← field .malformed 64
  let holdingDuration ← field .malformed 64
  let pricePercent ← field .malformed 64
  let minimumValue ← field .malformed 64
  return { enabled := enabled != 0, collectionDelay, saleDelay, holdingDuration, pricePercent,
           minimumValue }

/-- The last group, with nothing allowed behind it. -/
def readStanding (candidate : Record) : Reader CodecFailure Record := do
  let revision ← field .malformed 64
  let itemRevision ← field .malformed 64
  let priceValue ← field .malformed 64
  let policy ← readRules
  let statusByte ← field .malformed 8
  let reasonByte ← field .malformed 8
  let left ← remaining
  require (left = 0) .malformed
  let status ← ofOption .invalid (State.ofByte statusByte)
  let closedReason ← ofOption .invalid (Reason.ofByte reasonByte)
  return { candidate with revision, itemRevision, priceValue, policy, status, closedReason }

def readRecord : Reader CodecFailure Record := do
  let candidate ← readIdentity
  let candidate ← readSchedule candidate
  let candidate ← readStanding candidate
  require (validRecord candidate = true) .invalid
  return candidate

def decodeRecord (encoded : Bytes) : Except CodecFailure Record :=
  if encoded.length ≠ encodedRecordBytes then .error .malformed
  else (readRecord encoded).map Prod.fst

/-- `listings_are_canonical`: ascending, and below the cursor. -/
def listingsAreCanonical (records : List Record) (nextListing : BitVec 64) : Bool :=
  nextListing != 0 && records.all (fun entry => decide (entry.listing < nextListing)) &&
    decide ((records.map Record.listing).IsChain (· < ·))

def validCatalog (value : Catalog) : Bool :=
  decide (value.records.length ≤ catalogMaxRecords) &&
    listingsAreCanonical value.records value.nextListing && value.records.all validRecord

def catalogHeader (value : Catalog) : Bytes :=
  catalogMagic ++ appendLe catalogCodecVersion ++ appendLe (0 : BitVec 16) ++
    appendLe value.revision ++ appendLe value.nextListing ++
    appendLe (BitVec.ofNat 32 value.records.length)

def encodeCatalog (allocated : Bool) (value : Catalog) : Except CodecFailure Bytes :=
  if catalogMaxRecords < value.records.length then .error .tooManyRecords
  else if validCatalog value = false then .error .invalid
  else if allocated = false then .error .allocationFailure
  else do
    let records ← value.records.mapM encodeRecord
    return catalogHeader value ++ records.flatten

def catalogEncode (allocated : Bool) (value : Catalog) (encoded : Bytes) : CodecResult × Bytes :=
  answer (encodeCatalog allocated value) encoded

/-- One turn of the loop of `catalog_decode`. -/
def readSlot : Reader CodecFailure Record := do
  let slot ← raw .malformed encodedRecordBytes
  ofExcept (decodeRecord slot.1)

/-- The reads of `catalog_decode` from a buffer of `size` bytes. An empty vector asks for
no memory. -/
def readCatalog (allocated : Bool) (size : Nat) : Reader CodecFailure Catalog := do
  let magic ← raw .malformed 4
  require (magic.1 = catalogMagic) .malformed
  let version ← field .malformed 16
  require (version = catalogCodecVersion) .unsupportedVersion
  let reserved ← field .malformed 16
  require (reserved = 0) .malformed
  let revision ← field .malformed 64
  let nextListing ← field .malformed 64
  let count ← field .malformed 32
  require (count.toNat ≤ catalogMaxRecords) .tooManyRecords
  require (size = catalogHeaderBytes + count.toNat * encodedRecordBytes) .malformed
  require (count = 0 ∨ allocated = true) .allocationFailure
  let records ← many readSlot count.toNat
  let left ← remaining
  let candidate : Catalog := { revision, nextListing, records }
  require (left = 0 ∧ validCatalog candidate = true) .invalid
  return candidate

def decodeCatalog (allocated : Bool) (encoded : Bytes) : Except CodecFailure Catalog :=
  if encoded.length < catalogHeaderBytes then .error .malformed
  else (readCatalog allocated encoded.length encoded).map Prod.fst

def catalogDecode (allocated : Bool) (encoded : Bytes) (value : Catalog) : CodecResult × Catalog :=
  answer (decodeCatalog allocated encoded) value

end Duris.Economy.Collector
