import Duris.Player.SaveJournal

/-!
# Currency commands

`src/economy/currency_command.{h,c}`: the payload of a wallet or bank change, its
136-byte layout at fixed offsets, the command it is wrapped in, and the 80-byte
result the authority answers with.

Amounts are the `int64_t` of the source, kept as their bits and compared through
`toInt`. `SHA256` comes from a library outside the repository and is a parameter;
nothing here depends on more than its 32 bytes.
-/

namespace Duris.Economy

open Persistence
open Player (getLe)

def currencyCommandPayloadVersion : BitVec 16 := 1
def currencyAccountNameMaxBytes : Nat := 50
def currencyCommandPayloadBytes : Nat := 136
def currencyResultPayloadBytes : Nat := 80

/-- `currency_reason_type`, at its underlying width. -/
abbrev CurrencyReasonType := BitVec 16

def CurrencyReasonType.unknown : CurrencyReasonType := 0
def CurrencyReasonType.walletReward : CurrencyReasonType := 5
def CurrencyReasonType.chaosStarterReward : CurrencyReasonType := 15
def CurrencyReasonType.coinTransfer : CurrencyReasonType := 16
def CurrencyReasonType.corpseLifecycle : CurrencyReasonType := 18

/-- `currency_vector`: copper, silver, gold and platinum. -/
structure CurrencyVector where
  amount : Vector (BitVec 64) 4 := Vector.replicate 4 0
  deriving DecidableEq

structure CurrencyCommandPayload where
  pid : BitVec 32
  racewar : BitVec 8
  reason : CurrencyReasonType
  reasonId : BitVec 64
  accountName : Vector UInt8 51
  walletDelta : CurrencyVector
  bankDelta : CurrencyVector
  deriving DecidableEq

structure CurrencyCommandResult where
  wallet : CurrencyVector := {}
  bank : CurrencyVector := {}
  walletRevision : BitVec 64 := 0
  bankRevision : BitVec 64 := 0
  deriving DecidableEq

def validReason (reason : CurrencyReasonType) : Bool :=
  decide (CurrencyReasonType.unknown < reason) &&
    decide (reason ≤ CurrencyReasonType.corpseLifecycle)

/-- The characters of a C string: what stands before the terminator. -/
def cString (buffer : Bytes) : Bytes := buffer.takeWhile (· != 0)

/-- `valid_name`, with the length it stores. -/
def validName (name : Bytes) : Option Nat :=
  let length := (cString (name.take (currencyAccountNameMaxBytes + 1))).length
  if length = 0 ∨ currencyAccountNameMaxBytes < length then none
  else if (name.take length).any (· < 0x20) then none
  else some length

/-- No amount is the one `int64_t` that has no negation. -/
def vectorValid (vector : CurrencyVector) : Bool :=
  vector.amount.toList.all (· != BitVec.intMin 64)

def anyDelta (payload : CurrencyCommandPayload) : Bool :=
  payload.walletDelta.amount.toList.any (· != 0) || payload.bankDelta.amount.toList.any (· != 0)

/-- `std::tolower` of the C locale. -/
def toLower (byte : UInt8) : UInt8 :=
  if 'A'.toUInt8 ≤ byte ∧ byte ≤ 'Z'.toUInt8 then byte + 32 else byte

/-- `currency_account_key`: the digest of the canonical name and the side, never
zero. -/
def currencyAccountKey (sha256 : Bytes → Vector UInt8 32) (accountName : Bytes)
    (racewar : BitVec 8) : Option CriticalEntityKey := do
  let length ← validName accountName
  let canonical := (accountName.take length).map toLower ++ [0, UInt8.ofBitVec racewar]
  let identity := getLe 64 (sha256 canonical).toList 0
  return ⟨CriticalEntityType.account, if identity = 0 then 1 else identity⟩

def currencyCommandIsRebasableWalletReward (payload : CurrencyCommandPayload) : Bool :=
  payload.reason == CurrencyReasonType.walletReward &&
    payload.walletDelta.amount.toList.all (fun amount => decide (0 ≤ amount.toInt)) &&
    payload.bankDelta.amount.toList.all (· == 0) &&
    payload.walletDelta.amount.toList.any (fun amount => decide (0 < amount.toInt))

def currencyCommandIsRebasableBankReward (payload : CurrencyCommandPayload) : Bool :=
  payload.reason == CurrencyReasonType.chaosStarterReward &&
    payload.walletDelta.amount.toList.all (· == 0) &&
    payload.bankDelta.amount.toList.all (fun amount => decide (0 ≤ amount.toInt)) &&
    payload.bankDelta.amount.toList.any (fun amount => decide (0 < amount.toInt))

def currencyCommandIsRebasableReward (payload : CurrencyCommandPayload) : Bool :=
  currencyCommandIsRebasableWalletReward payload || currencyCommandIsRebasableBankReward payload

def encodeVector (vector : CurrencyVector) : Bytes := vector.amount.toList.flatMap appendLe

def decodeVector (input : Bytes) (offset : Nat) : CurrencyVector :=
  ⟨Vector.ofFn fun index => getLe 64 input (offset + index * 8)⟩

/-- The account name as the payload stores it: the text, and zeros to fill the
fifty-one bytes. -/
def paddedName (name : Bytes) : Bytes :=
  name ++ List.replicate (currencyAccountNameMaxBytes + 1 - name.length) 0

def currencyCommandEncodePayload (payload : CurrencyCommandPayload) : Option Bytes :=
  match validName payload.accountName.toList with
  | none => none
  | some nameLength =>
      if payload.pid = 0 ∨ !validReason payload.reason ∨ !vectorValid payload.walletDelta ∨
          !vectorValid payload.bankDelta ∨
          (!anyDelta payload ∧ payload.reason ≠ CurrencyReasonType.corpseLifecycle) then none
      else
        some (appendLe payload.pid ++ [UInt8.ofBitVec payload.racewar, 0] ++
          appendLe payload.reason ++ appendLe payload.reasonId ++ [UInt8.ofNat nameLength] ++
          paddedName (payload.accountName.toList.take nameLength) ++
          encodeVector payload.walletDelta ++ encodeVector payload.bankDelta ++
          List.replicate 4 0)

/-- The reads of `currency_command_decode_payload`, before it checks them. -/
def readPayload (payload : Bytes) (nameLength : Nat) : CurrencyCommandPayload :=
  { pid := getLe 32 payload 0
    racewar := getLe 8 payload 4
    reason := getLe 16 payload 6
    reasonId := getLe 64 payload 8
    accountName := Vector.ofFn fun index =>
      if (index : Nat) < nameLength then payload.getD (17 + index) 0 else 0
    walletDelta := decodeVector payload 68
    bankDelta := decodeVector payload 100 }

def currencyCommandDecodePayload (sha256 : Bytes → Vector UInt8 32) (command : CriticalCommand) :
    Option CurrencyCommandPayload :=
  if command.type ≠ CriticalCommandType.accountBank ∨
      command.payloadVersion ≠ currencyCommandPayloadVersion ∨
      command.payload.length ≠ currencyCommandPayloadBytes then none
  else
    let nameLength := (command.payload.getD 16 0).toNat
    let payload := readPayload command.payload nameLength
    let playerKey : CriticalEntityKey :=
      ⟨CriticalEntityType.player, payload.pid.setWidth 64⟩
    if nameLength = 0 ∨ currencyAccountNameMaxBytes < nameLength ∨
        ((command.payload.take 68).drop (17 + nameLength)).any (· != 0) ∨
        (command.payload.drop 132).any (· != 0) then none
    else if payload.pid = 0 ∨ !validReason payload.reason ∨
        validName payload.accountName.toList ≠ some nameLength ∨
        !vectorValid payload.walletDelta ∨ !vectorValid payload.bankDelta ∨
        (!anyDelta payload ∧ payload.reason ≠ CurrencyReasonType.corpseLifecycle) then none
    else
      match currencyAccountKey sha256 payload.accountName.toList payload.racewar with
      | none => none
      | some accountKey =>
          if command.keys = [playerKey, accountKey] ∧
              command.expectedRevisions.map CriticalExpectedRevision.key =
                [playerKey, accountKey] then
            some payload
          else none

def currencyCommandEncodeResult (result : CurrencyCommandResult) : Option Bytes :=
  if vectorValid result.wallet && vectorValid result.bank then
    some (encodeVector result.wallet ++ encodeVector result.bank ++
      appendLe result.walletRevision ++ appendLe result.bankRevision)
  else none

def currencyCommandDecodeResult (encoded : Bytes) : Option CurrencyCommandResult :=
  if encoded.length ≠ currencyResultPayloadBytes then none
  else
    let result : CurrencyCommandResult :=
      { wallet := decodeVector encoded 0
        bank := decodeVector encoded 32
        walletRevision := getLe 64 encoded 64
        bankRevision := getLe 64 encoded 72 }
    if vectorValid result.wallet && vectorValid result.bank then some result else none

def currencyCommandBuild (sha256 : Bytes → Vector UInt8 32) (operationId : CriticalOperationId)
    (payload : CurrencyCommandPayload) (expectedWalletRevision expectedBankRevision : BitVec 64)
    (sourceSite : CriticalSourceSite) (deadlineClass : CriticalDeadlineClass) :
    Option CriticalCommand :=
  if criticalOperationIdIsZero operationId then none
  else do
    let encoded ← currencyCommandEncodePayload payload
    let accountKey ← currencyAccountKey sha256 payload.accountName.toList payload.racewar
    let playerKey : CriticalEntityKey := ⟨CriticalEntityType.player, payload.pid.setWidth 64⟩
    return {
      schemaVersion := criticalCommandSchemaVersion
      operationId := operationId
      type := CriticalCommandType.accountBank
      payloadVersion := currencyCommandPayloadVersion
      sourceSite := sourceSite
      deadlineClass := deadlineClass
      acceptedAtUsec := 0
      keys := [playerKey, accountKey]
      expectedRevisions := [⟨playerKey, expectedWalletRevision⟩, ⟨accountKey, expectedBankRevision⟩]
      payload := encoded }

end Duris.Economy
