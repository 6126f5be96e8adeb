import Duris.Economy.CollectorWire

/-!
# Combat outcomes

`src/combat/combat_outcome_command.{h,c}`: who took part in a death, what each of them
gains and loses, and the command that settles it. The array of participants and its count
are a list; a text is the bytes of its array that the payload fills, so what the source
reads up to the terminator is `cString` of it. The two bookkeeping fields of a gameplay
read are not part of the format and are left out.
-/

namespace Duris.Combat

open Persistence Economy

def combatOutcomePayloadVersion : BitVec 16 := 1
def combatOutcomeMaxParticipants : Nat := 15
def combatOutcomeRoomNameMaxBytes : Nat := 96
def combatOutcomeDescriptionMaxBytes : Nat := 128
def combatOutcomeCommandType : CriticalCommandType := 8
def combatSourceSite : CriticalSourceSite := 2
def terminalDeadlineClass : CriticalDeadlineClass := 2

inductive CombatParticipantRole where
  | unknown
  | killer
  | killerGroup
  | victim
  | victimGroup
  deriving DecidableEq

def CombatParticipantRole.code : CombatParticipantRole → BitVec 8
  | .unknown => 0
  | .killer => 1
  | .killerGroup => 2
  | .victim => 3
  | .victimGroup => 4

/-- `static_cast<combat_participant_role>`, where `valid` accepts the value. -/
def CombatParticipantRole.ofCode (code : BitVec 8) : Option CombatParticipantRole :=
  [CombatParticipantRole.killer, .killerGroup, .victim, .victimGroup].find?
    fun role => role.code == code

structure CombatOutcomeParticipant where
  pid : BitVec 32
  role : CombatParticipantRole
  flags : BitVec 8
  level : BitVec 16
  racewar : BitVec 8
  fragDelta : BitVec 64
  epicDelta : BitVec 64
  walletDeltaCopper : BitVec 64
  expectedFragRevision : BitVec 64
  expectedEpicRevision : BitVec 64
  expectedWalletRevision : BitVec 64
  expectedBankRevision : BitVec 64
  accountName : Bytes
  description : Bytes
  deriving DecidableEq

structure CombatOutcomePayload where
  victimPid : BitVec 32
  roomVnum : BitVec 32
  roomName : Bytes
  participants : List CombatOutcomeParticipant
  deriving DecidableEq

/-- `bounded`: the array of that many bytes holds a terminator. -/
def bounded (size : Nat) (text : Bytes) : Bool := decide ((cString (text.take size)).length < size)

def validParticipant (entry : CombatOutcomeParticipant) : Bool :=
  entry.pid != 0 && entry.role != .unknown &&
    bounded (currencyAccountNameMaxBytes + 1) entry.accountName &&
    bounded (combatOutcomeDescriptionMaxBytes + 1) entry.description &&
    !(entry.walletDeltaCopper != 0 && (cString entry.accountName).isEmpty)

def validOutcome (payload : CombatOutcomePayload) : Bool :=
  payload.victimPid != 0 && !payload.participants.isEmpty &&
    decide (payload.participants.length ≤ combatOutcomeMaxParticipants) &&
    bounded (combatOutcomeRoomNameMaxBytes + 1) payload.roomName &&
    payload.participants.all validParticipant &&
    decide (payload.participants.map CombatOutcomeParticipant.pid).Nodup &&
    payload.participants.any fun entry => entry.pid == payload.victimPid

/-- `append_string`: the characters before the terminator. -/
def encodeText (size : Nat) (text : Bytes) : Bytes :=
  appendLe (BitVec.ofNat 16 (cString (text.take size)).length) ++ cString (text.take size)

def encodeParticipant (entry : CombatOutcomeParticipant) : Bytes :=
  appendLe entry.pid ++ appendLe entry.role.code ++ appendLe entry.flags ++ appendLe entry.level ++
    appendLe entry.racewar ++ appendLe entry.fragDelta ++ appendLe entry.epicDelta ++
    appendLe entry.walletDeltaCopper ++ appendLe entry.expectedFragRevision ++
    appendLe entry.expectedEpicRevision ++ appendLe entry.expectedWalletRevision ++
    appendLe entry.expectedBankRevision ++
    encodeText (currencyAccountNameMaxBytes + 1) entry.accountName ++
    encodeText (combatOutcomeDescriptionMaxBytes + 1) entry.description

def combatOutcomeCommandEncodePayload (payload : CombatOutcomePayload) : Option Bytes :=
  if validOutcome payload = false then none
  else
    let encoded := appendLe payload.victimPid ++ appendLe payload.roomVnum ++
      encodeText (combatOutcomeRoomNameMaxBytes + 1) payload.roomName ++
      appendLe (BitVec.ofNat 16 payload.participants.length) ++
      payload.participants.flatMap encodeParticipant
    if criticalCommandMaxPayloadBytes < encoded.length then none else some encoded

/-- The fences of one participant: the player, and the account when money changes hands
and no one before has brought it. -/
def addParticipant (sha256 : Bytes → Vector UInt8 32) (fences : List CriticalExpectedRevision)
    (entry : CombatOutcomeParticipant) : Option (List CriticalExpectedRevision) :=
  let player : CriticalExpectedRevision :=
    ⟨⟨CriticalEntityType.player, entry.pid.setWidth 64⟩, entry.expectedFragRevision⟩
  let fences := fences ++ [player]
  if entry.walletDeltaCopper = 0 then some fences
  else
    match currencyAccountKey sha256 entry.accountName entry.racewar with
    | none => none
    | some account =>
        if fences.any fun fence => criticalEntityKeyEqual fence.key account then some fences
        else some (fences ++ [⟨account, entry.expectedBankRevision⟩])

def combatFences (sha256 : Bytes → Vector UInt8 32) (payload : CombatOutcomePayload) :
    Option (List CriticalExpectedRevision) :=
  payload.participants.foldlM (addParticipant sha256) []

def combatOutcomeCommandBuild (sha256 : Bytes → Vector UInt8 32)
    (operationId : CriticalOperationId) (payload : CombatOutcomePayload) :
    Option CriticalCommand :=
  if validOutcome payload = false then none
  else do
    let fences ← combatFences sha256 payload
    let encoded ← combatOutcomeCommandEncodePayload payload
    let keys := (fences.map CriticalExpectedRevision.key).mergeSort
      fun a b => !criticalEntityKeyLess b a
    if criticalCommandMaxKeys < keys.length then none
    else
      return {
        schemaVersion := criticalCommandSchemaVersion
        operationId := operationId
        type := combatOutcomeCommandType
        payloadVersion := combatOutcomePayloadVersion
        sourceSite := combatSourceSite
        deadlineClass := terminalDeadlineClass
        acceptedAtUsec := 0
        keys := keys
        expectedRevisions := fences.mergeSort fun a b => !criticalEntityKeyLess b.key a.key
        payload := encoded }

section Decode

open Reader

def readParticipant : Reader Unit CombatOutcomeParticipant := do
  let pid ← field () 32
  let role ← field () 8
  let flags ← field () 8
  let level ← field () 16
  let racewar ← field () 8
  let fragDelta ← field () 64
  let epicDelta ← field () 64
  let walletDeltaCopper ← field () 64
  let expectedFragRevision ← field () 64
  let expectedEpicRevision ← field () 64
  let expectedWalletRevision ← field () 64
  let expectedBankRevision ← field () 64
  let accountName ← readString (currencyAccountNameMaxBytes + 1)
  let description ← readString (combatOutcomeDescriptionMaxBytes + 1)
  let role ← ofOption () (CombatParticipantRole.ofCode role)
  return { pid, role, flags, level, racewar, fragDelta, epicDelta, walletDeltaCopper,
           expectedFragRevision, expectedEpicRevision, expectedWalletRevision,
           expectedBankRevision, accountName, description }

/-- The reads of `combat_outcome_command_decode_payload`. -/
def readOutcome : Reader Unit CombatOutcomePayload := do
  let victimPid ← field () 32
  let roomVnum ← field () 32
  let roomName ← readString (combatOutcomeRoomNameMaxBytes + 1)
  let participantCount ← field () 16
  require (participantCount.toNat ≤ combatOutcomeMaxParticipants) ()
  let participants ← many readParticipant participantCount.toNat
  return { victimPid, roomVnum, roomName, participants }

def combatOutcomeCommandDecodePayload (sha256 : Bytes → Vector UInt8 32)
    (command : CriticalCommand) : Option CombatOutcomePayload :=
  if command.type ≠ combatOutcomeCommandType ∨
      command.payloadVersion ≠ combatOutcomePayloadVersion then none
  else do
    let payload ← whole readOutcome command.payload
    if validOutcome payload = false then none
    else
      let expected ← combatOutcomeCommandBuild sha256 command.operationId payload
      if matchingFences expected command then some payload else none

end Decode

end Duris.Combat
