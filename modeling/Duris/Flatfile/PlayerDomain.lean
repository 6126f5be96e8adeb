import Duris.Combat.OutcomeCommand
import Duris.Flatfile.AuthorityTransaction
import Duris.Lib.Envelope
import Mathlib.Data.Nat.Digits.Defs

/-!
# Player domains and banks

The files of `src/flatfile/flatfile_player_domain_repository.c`: one for the wallet and the
other domains of a player, with the receipts of what was done to them, one for the bank of
an account, and the redo log over such files with the older one it replaced. Every command
over them begins with the recovery that is modelled here.

As in `AuthorityTransaction` the environment decides how a write ends, and here also how a
read does: it reads, it fails, or the process dies there. The authority directory stays
private to its user, a file is a regular file of that user, and memory can be had.
-/

namespace Duris.Flatfile

/-- `flatfile_read_result`, with the bytes. -/
inductive FlatfileReadResult where
  | notFound
  | invalid
  | ioError
  | ok (bytes : Bytes)

/-- `flatfile_read` in the domain directory; `readable` is whether the system reads. -/
def flatfileRead (disk : Disk) (name : Bytes) (maximumSize : Nat) (readable : Bool) :
    FlatfileReadResult :=
  if validName name = false then .invalid
  else if readable = false then .ioError
  else
    match disk (.domains, name) with
    | none => .notFound
    | some bytes => if maximumSize < bytes.length then .invalid else .ok bytes

structure AfterImage where
  filename : Bytes
  bytes : Bytes

def decimalDigits (n : Nat) : Bytes :=
  if n = 0 then [48] else (Nat.digits 10 n).reverse.map fun digit => UInt8.ofNat (48 + digit)

/-- `std::to_string`. -/
def decimal (n : Int) : Bytes :=
  if n < 0 then 45 :: decimalDigits n.natAbs else decimalDigits n.natAbs

def asciiBytes (text : String) : Bytes := text.toList.map Char.toUInt8

/-- The loop over a `std::array` of numbers. -/
def readArray (bits count : Nat) : Reader Unit (Vector (BitVec bits) count) := do
  let numbers ← Reader.many (Reader.field () bits) count
  Reader.ofOption () (if h : numbers.length = count then
    some ⟨numbers.toArray, by rw [List.size_toArray, h]⟩ else none)

end Duris.Flatfile

namespace Duris.Flatfile.PlayerDomain

open Persistence Ownership Reader

/-- `flatfile_player_domain_result`, but for `ok`. -/
inductive Refusal where
  | notFound
  | conflict
  | invalid
  | ioError
  deriving DecidableEq

/-- `FLATFILE_LEGACY_DOMAIN_RESULT_MAX_BYTES`. -/
def legacyDomainResultMaxBytes : Nat := 2048
def domainFormatVersion : BitVec 32 := 3

/-- The letters `DURPDOM` and a zero. -/
def playerMagic : Bytes := [0x44, 0x55, 0x52, 0x50, 0x44, 0x4f, 0x4d, 0]

/-- The letters `DURBANK` and a zero. -/
def bankMagic : Bytes := [0x44, 0x55, 0x52, 0x42, 0x41, 0x4e, 0x4b, 0]

/-- The letters `DURTXN` and two zeroes. -/
def transactionMagic : Bytes := [0x44, 0x55, 0x52, 0x54, 0x58, 0x4e, 0, 0]

def domainMaximumBytes : Nat := 64 * 1024
def transactionMaximumRecords : Nat := Combat.combatOutcomeMaxParticipants * 2
def transactionMaximumBytes : Nat := domainMaximumBytes * transactionMaximumRecords + 4096
def domainMaximumOperations : Nat := 512

/-- `PLAYER_LOAD_ACCOUNT_MAX`. -/
def accountMaximumBytes : Nat := 50
def recentPvpMax : Nat := 20
def completedZoneMax : Nat := 1024

def transactionFilename : Bytes := asciiBytes ".player-domain-transaction"
def legacyTransactionFilename : Bytes := asciiBytes ".currency-transaction"

structure BankRecord where
  accountName : Bytes
  racewar : BitVec 8
  revision : BitVec 64
  balances : Vector (BitVec 64) 4

/-- `domain_operation`; `result` is as long as `result_size` says. -/
structure DomainOperation where
  operationId : CriticalOperationId
  commandDigest : { digest : Bytes // digest.length = 32 }
  resultCode : BitVec 32
  result : Bytes

/-- `flatfile_player_domain_record`, as its file has it. -/
structure PlayerDomainRecord where
  pid : BitVec 32
  accountName : Bytes
  racewar : BitVec 8
  walletRevision : BitVec 64
  epicRevision : BitVec 64
  fragRevision : BitVec 64
  wallet : Vector (BitVec 64) 4
  epics : BitVec 64
  frags : BitVec 64
  oldFrags : BitVec 64
  recentPvpDeaths : List (BitVec 64)
  completedEpicZones : List (BitVec 32)
  baseStatRevision : BitVec 64
  baseStats : Vector (BitVec 16) 10

structure PlayerAuthority where
  record : PlayerDomainRecord
  operations : List DomainOperation

/-! ## Names -/

def canonicalCharacter (character : UInt8) : Option UInt8 :=
  if 'A'.toUInt8 ≤ character ∧ character ≤ 'Z'.toUInt8 then
    some (character - 'A'.toUInt8 + 'a'.toUInt8)
  else if ('a'.toUInt8 ≤ character ∧ character ≤ 'z'.toUInt8) ∨
      ('0'.toUInt8 ≤ character ∧ character ≤ '9'.toUInt8) ∨ character = '_'.toUInt8 ∨
      character = '-'.toUInt8 then some character
  else none

def canonicalAccount (input : Bytes) : Option Bytes :=
  if input = [] ∨ accountMaximumBytes < input.length then none
  else input.mapM canonicalCharacter

def playerFilename (pid : BitVec 32) : Bytes :=
  asciiBytes "player-" ++ decimal pid.toInt ++ asciiBytes ".domain"

def bankFilename (account : Bytes) (racewar : BitVec 8) : Bytes :=
  asciiBytes "bank-" ++ account ++ asciiBytes "-" ++ decimal racewar.toInt ++ asciiBytes ".domain"

/-! ## Parts of the layout -/

/-- A string of the decoder: an account, with no zero in it. -/
def readAccount : Reader Unit Bytes := do
  let length ← field () 32
  require (length ≠ 0 ∧ length.toNat ≤ accountMaximumBytes) ()
  let value ← raw () length.toNat
  require (value.1.contains 0 = false) ()
  return value.1

def encodeAccount (account : Bytes) : Bytes :=
  appendLe (BitVec.ofNat 32 account.length) ++ account

def readCounted (bits maximum : Nat) : Reader Unit (List (BitVec bits)) := do
  let count ← field () 32
  require (count.toNat ≤ maximum) ()
  many (field () bits) count.toNat

def encodeCounted {bits : Nat} (numbers : List (BitVec bits)) : Bytes :=
  appendLe (BitVec.ofNat 32 numbers.length) ++ numbers.flatMap appendLe

variable (sha256 : Bytes → Vector UInt8 32)

def decodeEnvelope (magic bytes : Bytes) : Option Envelope :=
  (Envelope.unwrap sha256 magic bytes).filter fun envelope =>
    envelope.version != 0 && decide (envelope.version ≤ domainFormatVersion) &&
      envelope.revision != 0

def encodeEnvelope (magic payload : Bytes) (revision : BitVec 64) (maximumBytes : Nat) :
    Option Bytes :=
  if revision = 0 ∨ maximumBytes < payload.length then none
  else
    let file := Envelope.wrap sha256 magic ⟨domainFormatVersion, revision, payload⟩
    if maximumBytes < file.length then none else some file

/-- `read_bytes`, and what is made of the bytes. -/
def loadFile {α : Type} (disk : Disk) (filename : Bytes) (readable : Bool)
    (decode : Bytes → Option α) : Except Refusal α :=
  match flatfileRead disk filename domainMaximumBytes readable with
  | .notFound => .error .notFound
  | .invalid => .error .invalid
  | .ioError => .error .ioError
  | .ok bytes =>
      match decode bytes with
      | none => .error .invalid
      | some found => .ok found

/-! ## Banks -/

def readBank (revision : BitVec 64) : Reader Unit BankRecord := do
  let accountName ← readAccount
  let racewar ← field () 8
  let balances ← readArray 64 4
  return { accountName, racewar, revision, balances }

def decodeBank (account : Bytes) (racewar : BitVec 8) (bytes : Bytes) : Option BankRecord :=
  ((decodeEnvelope sha256 bankMagic bytes).bind fun envelope =>
    whole (readBank envelope.revision) envelope.payload).filter fun bank =>
      decide (canonicalAccount bank.accountName = some account ∧ bank.racewar = racewar)

def loadBank (disk : Disk) (account : Bytes) (racewar : BitVec 8) (readable : Bool) :
    Except Refusal BankRecord :=
  loadFile disk (bankFilename account racewar) readable (decodeBank sha256 account racewar)

def encodeBankRecord (bank : BankRecord) : Option Bytes :=
  encodeEnvelope sha256 bankMagic
    (encodeAccount bank.accountName ++ appendLe bank.racewar ++
      bank.balances.toList.flatMap appendLe) bank.revision domainMaximumBytes

/-! ## Players -/

def validGameplay (record : PlayerDomainRecord) : Bool :=
  decide (record.recentPvpDeaths.length ≤ recentPvpMax) &&
    decide (record.completedEpicZones.length ≤ completedZoneMax) &&
    record.recentPvpDeaths.all (fun death => decide (0 < death.toInt)) &&
    decide (record.recentPvpDeaths.IsChain fun earlier later => later.toInt ≤ earlier.toInt) &&
    record.completedEpicZones.all (fun zone => decide (0 < zone.toInt)) &&
    decide (record.completedEpicZones.IsChain fun left right => left.toInt < right.toInt) &&
    (record.baseStatRevision != 0 || record.baseStats.toList.all (· == 0)) &&
    record.baseStats.toList.all fun stat => decide (0 ≤ stat.toInt ∧ stat.toInt ≤ 100)

def fileRevision (record : PlayerDomainRecord) : BitVec 64 :=
  [record.walletRevision, record.epicRevision, record.fragRevision,
    record.baseStatRevision].foldl maxRevision 1

def readDomainOperation : Reader Unit DomainOperation := do
  let operationId ← raw () 16
  let commandDigest ← raw () 32
  let resultCode ← field () 32
  let resultSize ← field () 16
  require (resultSize.toNat ≤ legacyDomainResultMaxBytes) ()
  let result ← raw () resultSize.toNat
  require (criticalOperationIdIsZero (.ofRaw operationId) = false) ()
  return { operationId := .ofRaw operationId, commandDigest, resultCode, result := result.1 }

def readDomainOperations : Reader Unit (List DomainOperation) := do
  let count ← field () 32
  require (count.toNat ≤ domainMaximumOperations) ()
  many readDomainOperation count.toNat

def readBaseStats : Reader Unit (BitVec 64 × Vector (BitVec 16) 10) := do
  let revision ← field () 64
  let stats ← readArray 16 10
  return (revision, stats)

/-- The payload of a player: base stats since version 3, operations since version 2. -/
def readPlayer (version : BitVec 32) : Reader Unit PlayerAuthority := do
  let pid ← field () 32
  let accountName ← readAccount
  let racewar ← field () 8
  let walletRevision ← field () 64
  let epicRevision ← field () 64
  let fragRevision ← field () 64
  let wallet ← readArray 64 4
  let epics ← field () 64
  let frags ← field () 64
  let oldFrags ← field () 64
  let recentPvpDeaths ← readCounted 64 recentPvpMax
  let completedEpicZones ← readCounted 32 completedZoneMax
  let stats ← readSince 3 version readBaseStats (0, Vector.replicate 10 0)
  let operations ← readSince 2 version readDomainOperations []
  return {
    record := { pid, accountName, racewar, walletRevision, epicRevision, fragRevision, wallet,
                epics, frags, oldFrags, recentPvpDeaths, completedEpicZones,
                baseStatRevision := stats.1, baseStats := stats.2 }
    operations }

/-- The checks of a player that was read, but for those of its fields. -/
def validPlayer (pid : BitVec 32) (revision : BitVec 64) (player : PlayerAuthority) : Bool :=
  player.record.pid == pid &&
    canonicalAccount player.record.accountName == some player.record.accountName &&
    validGameplay player.record && revision == fileRevision player.record &&
    decide (player.operations.map DomainOperation.operationId).Nodup

def decodePlayer (pid : BitVec 32) (bytes : Bytes) : Option PlayerAuthority :=
  (decodeEnvelope sha256 playerMagic bytes).bind fun envelope =>
    (whole (readPlayer envelope.version) envelope.payload).filter
      (validPlayer pid envelope.revision)

def loadPlayerAuthority (disk : Disk) (pid : BitVec 32) (readable : Bool) :
    Except Refusal PlayerAuthority :=
  if pid.toInt ≤ 0 then .error .invalid
  else loadFile disk (playerFilename pid) readable (decodePlayer sha256 pid)

def encodeDomainOperation (operation : DomainOperation) : Bytes :=
  operation.operationId.bytes ++ operation.commandDigest.1 ++ appendLe operation.resultCode ++
    appendLe (BitVec.ofNat 16 operation.result.length) ++ operation.result

def encodePlayer (player : PlayerAuthority) : Bytes :=
  appendLe player.record.pid ++ encodeAccount player.record.accountName ++
    appendLe player.record.racewar ++ appendLe player.record.walletRevision ++
    appendLe player.record.epicRevision ++ appendLe player.record.fragRevision ++
    player.record.wallet.toList.flatMap appendLe ++ appendLe player.record.epics ++
    appendLe player.record.frags ++ appendLe player.record.oldFrags ++
    encodeCounted player.record.recentPvpDeaths ++
    encodeCounted player.record.completedEpicZones ++ appendLe player.record.baseStatRevision ++
    player.record.baseStats.toList.flatMap appendLe ++
    appendLe (BitVec.ofNat 32 player.operations.length) ++
    player.operations.flatMap encodeDomainOperation

def encodePlayerAuthority (player : PlayerAuthority) : Option Bytes :=
  encodeEnvelope sha256 playerMagic (encodePlayer player) (fileRevision player.record)
    domainMaximumBytes

/-! ## The redo log -/

/-- `transaction_player`: the file of a player. -/
structure TransactionPlayer where
  pid : BitVec 32
  bytes : Bytes

/-- `transaction_bank`: the file of a bank. -/
structure TransactionBank where
  accountName : Bytes
  racewar : BitVec 8
  bytes : Bytes

structure DomainTransaction where
  players : List TransactionPlayer
  banks : List TransactionBank

/-- What a file in the log begins with is what the log says of it. -/
def startsWith {α : Type} [DecidableEq α] (magic : Bytes) (start : Reader Unit α) (bytes : Bytes)
    (expected : α) : Bool :=
  match decodeEnvelope sha256 magic bytes with
  | none => false
  | some envelope =>
      match start envelope.payload with
      | .ok (found, _) => found == expected
      | .error _ => false

def readImage : Reader Unit Bytes := do
  let size ← field () 32
  require (size ≠ 0 ∧ size.toNat ≤ domainMaximumBytes) ()
  let bytes ← raw () size.toNat
  return bytes.1

def readTransactionPlayer : Reader Unit TransactionPlayer := do
  let pid ← field () 32
  require (0 < pid.toInt) ()
  let bytes ← readImage
  require (startsWith sha256 playerMagic (field () 32) bytes pid = true) ()
  return { pid, bytes }

def readBankStart : Reader Unit (Bytes × BitVec 8) := do
  let accountName ← readAccount
  let racewar ← field () 8
  return (accountName, racewar)

def readTransactionBank : Reader Unit TransactionBank := do
  let start ← readBankStart
  let bytes ← readImage
  require (canonicalAccount start.1 = some start.1 ∧
    startsWith sha256 bankMagic readBankStart bytes start = true) ()
  return { accountName := start.1, racewar := start.2, bytes }

def readTransaction : Reader Unit DomainTransaction := do
  let playerCount ← field () 16
  let bankCount ← field () 16
  require (playerCount ≠ 0 ∧
    playerCount.toNat + bankCount.toNat ≤ transactionMaximumRecords) ()
  let players ← many (readTransactionPlayer sha256) playerCount.toNat
  require (players.map TransactionPlayer.pid).Nodup ()
  let banks ← many (readTransactionBank sha256) bankCount.toNat
  require (banks.map fun bank => (bank.accountName, bank.racewar)).Nodup ()
  return { players, banks }

def logPayload (bytes : Bytes) : Option Bytes :=
  ((decodeEnvelope sha256 transactionMagic bytes).filter fun envelope =>
    decide (2 ≤ envelope.version) && envelope.revision == 1).map Envelope.payload

def decodeTransaction (bytes : Bytes) : Except Refusal DomainTransaction :=
  match (logPayload sha256 bytes).bind (whole (readTransaction sha256)) with
  | none => .error .invalid
  | some transaction => .ok transaction

def encodeTransactionPlayer (player : TransactionPlayer) : Bytes :=
  appendLe player.pid ++ appendLe (BitVec.ofNat 32 player.bytes.length) ++ player.bytes

def encodeTransactionBank (bank : TransactionBank) : Bytes :=
  encodeAccount bank.accountName ++ appendLe bank.racewar ++
    appendLe (BitVec.ofNat 32 bank.bytes.length) ++ bank.bytes

def encodeTransaction (transaction : DomainTransaction) : Option Bytes :=
  if transaction.players = [] ∨ transactionMaximumRecords <
      transaction.players.length + transaction.banks.length then none
  else
    encodeEnvelope sha256 transactionMagic
      (appendLe (BitVec.ofNat 16 transaction.players.length) ++
        appendLe (BitVec.ofNat 16 transaction.banks.length) ++
        transaction.players.flatMap encodeTransactionPlayer ++
        transaction.banks.flatMap encodeTransactionBank) 1 transactionMaximumBytes

/-- The log before: one player and one bank, their sizes before their bytes. -/
def readLegacyTransaction : Reader Unit DomainTransaction := do
  let pid ← field () 32
  let (accountName, racewar) ← readBankStart
  let playerSize ← field () 32
  let bankSize ← field () 32
  require (0 < pid.toInt ∧ playerSize ≠ 0 ∧ bankSize ≠ 0 ∧
    playerSize.toNat ≤ domainMaximumBytes ∧ bankSize.toNat ≤ domainMaximumBytes) ()
  let player ← raw () playerSize.toNat
  let bank ← raw () bankSize.toNat
  return { players := [{ pid, bytes := player.1 }]
           banks := [{ accountName, racewar, bytes := bank.1 }] }

/-- `decode_legacy_transaction`, which reads the log again as one of today. -/
def decodeLegacyTransaction (bytes : Bytes) : Except Refusal DomainTransaction :=
  match (logPayload sha256 bytes).bind (whole readLegacyTransaction) with
  | none => .error .invalid
  | some converted =>
      match encodeTransaction sha256 converted with
      | none => .error .ioError
      | some convertedBytes => decodeTransaction sha256 convertedBytes

/-- The files of a log, banks before players. -/
def DomainTransaction.images (transaction : DomainTransaction) : List AfterImage :=
  transaction.banks.map (fun bank => ⟨bankFilename bank.accountName bank.racewar, bank.bytes⟩) ++
    transaction.players.map fun player => ⟨playerFilename player.pid, player.bytes⟩

/-- `flatfile_atomic_write` for one file after the other, up to the first that fails. -/
def writeImages (disk : Disk) : List AfterImage → (Nat → StepOutcome) → StepAnswer × Disk
  | [], _ => (.ok, disk)
  | image :: images, outcomes =>
      match flatfileAtomicWrite disk .domains image.filename image.bytes (outcomes 0) with
      | (.ok, disk) => writeImages disk images fun n => outcomes (n + 1)
      | refused => refused

def settleLog (disk : Disk) (filename : Bytes) (images : List AfterImage)
    (outcomes : Nat → StepOutcome) : StepAnswer × Disk :=
  match writeImages disk images outcomes with
  | (.ok, disk) => flatfileAtomicRemove disk .domains filename false (outcomes images.length)
  | refused => refused

/-- How the file operations end that the recovery of one log makes. -/
structure LogSteps where
  read : StepAnswer := .ok
  writes : Nat → StepOutcome := fun _ => .done

/-- What a recovery answers, unless the process dies in it. -/
abbrev Recovery := Option (Except Refusal Unit)

def recoveryOf : StepAnswer → Recovery
  | .ok => some (.ok ())
  | .failed => some (.error .ioError)
  | .crashed => none

def recoverTransactionFile (disk : Disk) (filename : Bytes) (legacy : Bool) (steps : LogSteps) :
    Recovery × Disk :=
  if steps.read = .crashed then (none, disk)
  else
    match flatfileRead disk filename transactionMaximumBytes (steps.read == .ok) with
    | .notFound => (some (.ok ()), disk)
    | .invalid => (some (.error .invalid), disk)
    | .ioError => (some (.error .ioError), disk)
    | .ok bytes =>
        match if legacy then decodeLegacyTransaction sha256 bytes
          else decodeTransaction sha256 bytes with
        | .error refusal => (some (.error refusal), disk)
        | .ok transaction =>
            let (answer, disk) := settleLog disk filename transaction.images steps.writes
            (recoveryOf answer, disk)

/-- How the file operations end that `recover_authority` makes. -/
structure RecoverySteps where
  authority : LogSteps := {}
  legacy : LogSteps := {}
  redo : LogSteps := {}

def recoverTransaction (disk : Disk) (steps : RecoverySteps) : Recovery × Disk :=
  match recoverTransactionFile sha256 disk legacyTransactionFilename true steps.legacy with
  | (some (.ok _), disk) =>
      recoverTransactionFile sha256 disk transactionFilename false steps.redo
  | refused => refused

def readOutcome : StepAnswer → ReadOutcome
  | .ok => .done
  | .failed => .failed .ioError
  | .crashed => .crashed

/-- The log of all stores, and then the older ones of this one. -/
def recoverAuthority (disk : Disk) (steps : RecoverySteps) : Recovery × Disk :=
  match recover sha256 disk (readOutcome steps.authority.read) steps.authority.writes with
  | (none, disk) => (none, disk)
  | (some .ok, disk) => recoverTransaction sha256 disk steps
  | (some .ioError, disk) => (some (.error .ioError), disk)
  | (some _, disk) => (some (.error .invalid), disk)

end Duris.Flatfile.PlayerDomain
