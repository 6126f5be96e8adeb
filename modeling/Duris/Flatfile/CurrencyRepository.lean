import Duris.Flatfile.PlayerDomain

/-!
# The currency repository

`apply_currency_command` of `src/flatfile/flatfile_player_domain_repository.c`: recovery, the
player and the bank, the receipt that is there already or the change of both balances, and
then the one file of a refusal or the two of a change, behind their redo log. The root has a
name, and memory can be had.
-/

namespace Duris.Flatfile.PlayerDomain

open Persistence Item Economy Ownership

def eacces : BitVec 32 := 13

/-- What a command says once it is found in order. -/
structure CurrencyRequest where
  command : CriticalCommand
  payload : CurrencyCommandPayload
  digest : { digest : Bytes // digest.length = 32 }
  account : Bytes

/-- What a command comes to over the player and the bank it is about. -/
inductive Decision where
  | answer (result : CriticalApplyResult)
  /-- A refusal, with the file of the player that holds its receipt. -/
  | receipt (result : CriticalApplyResult) (image : AfterImage)
  /-- A change, with the log of its files. -/
  | exchange (result : CriticalApplyResult) (transaction : DomainTransaction) (log : Bytes)

/-- `apply_delta`, but for the sum. -/
def deltaCode (current delta : BitVec 64) : BitVec 32 :=
  if delta.toInt < 0 then if (current.toNat : Int) < -delta.toInt then enospc else 0
  else if 0 < delta.toInt ∧ int32Max - delta.toInt < current.toInt then Ownership.erange
  else 0

/-- The loop over the denominations, up to the first code that is not zero. -/
def deltasCode (payload : CurrencyCommandPayload) (player : PlayerAuthority) (bank : BankRecord) :
    BitVec 32 :=
  (((List.finRange 4).flatMap fun index =>
    [deltaCode (player.record.wallet.get index) (payload.walletDelta.amount.get index),
      deltaCode (bank.balances.get index) (payload.bankDelta.amount.get index)]).find?
    (· != 0)).getD 0

/-- The revision a command expects, where any will do when it is the largest. -/
def revisionStale (command : CriticalCommand) (index : Nat) (current : BitVec 64) : Bool :=
  match command.expectedRevisions[index]? with
  | none => false
  | some expected => expected.revision != BitVec.allOnes 64 && expected.revision != current

def currencyCode (request : CurrencyRequest) (player : PlayerAuthority) (bank : BankRecord) :
    BitVec 32 :=
  if revisionStale request.command 0 player.record.walletRevision = true ∨
      revisionStale request.command 1 bank.revision = true then Ownership.estale
  else if deltasCode request.payload player bank ≠ 0 then deltasCode request.payload player bank
  else if player.record.walletRevision = BitVec.allOnes 64 ∨ bank.revision = BitVec.allOnes 64 then
    Ownership.erange
  else 0

/-- The sums of `apply_delta`. -/
def applyDeltas (balances : Vector (BitVec 64) 4) (deltas : CurrencyVector) :
    Vector (BitVec 64) 4 :=
  Vector.zipWith (· + ·) balances deltas.amount

def playerAfter (request : CurrencyRequest) (player : PlayerAuthority) (bank : BankRecord) :
    PlayerAuthority :=
  if currencyCode request player bank ≠ 0 then player
  else
    { player with
      record := { player.record with
        wallet := applyDeltas player.record.wallet request.payload.walletDelta
        walletRevision := player.record.walletRevision + 1 } }

def bankAfter (request : CurrencyRequest) (player : PlayerAuthority) (bank : BankRecord) :
    BankRecord :=
  if currencyCode request player bank ≠ 0 then bank
  else
    { bank with
      balances := applyDeltas bank.balances request.payload.bankDelta
      revision := bank.revision + 1 }

def receipted (request : CurrencyRequest) (code : BitVec 32) (encoded : Bytes)
    (player : PlayerAuthority) : PlayerAuthority :=
  { player with operations := player.operations ++
      [⟨request.command.operationId, request.digest, code, encoded⟩] }

/-- No balance is larger than an `int`. -/
def balancesFit (player : PlayerAuthority) (bank : BankRecord) : Bool :=
  (player.record.wallet.toList ++ bank.balances.toList).all fun balance =>
    decide (balance.toNat ≤ int32Max)

def pairRevision (player : PlayerAuthority) (bank : BankRecord) : BitVec 64 :=
  maxRevision player.record.walletRevision bank.revision

def refusalAnswer (refusal : Refusal) : CriticalApplyResult :=
  match refusal with
  | .ioError => retryable 0 eio
  | .notFound => terminal 0 enoent
  | _ => terminal 0 eilseq

/-- The answer to a command that has a receipt. -/
def replayed (request : CurrencyRequest) (revision : BitVec 64) (operation : DomainOperation) :
    CriticalApplyResult :=
  if operation.commandDigest ≠ request.digest then terminal revision eexist
  else
    match currencyCommandDecodeResult operation.result with
    | none => terminal 0 eilseq
    | some replay =>
        { outcome := if operation.resultCode ≠ 0 then .terminalFailure else .alreadyApplied
          durableRevision := maxRevision replay.walletRevision replay.bankRevision
          errorCode := operation.resultCode
          resultSize := BitVec.ofNat 16 operation.result.length
          resultPayload := operation.result }

def freshAnswer (code : BitVec 32) (revision : BitVec 64) (encoded : Bytes) :
    CriticalApplyResult :=
  { outcome := if code ≠ 0 then .terminalFailure else .applied
    durableRevision := revision
    errorCode := code
    resultSize := BitVec.ofNat 16 encoded.length
    resultPayload := encoded }

variable (sha256 : Bytes → Vector UInt8 32)

def currencyRequest (command : CriticalCommand) : Option CurrencyRequest := do
  let payload ← currencyCommandDecodePayload sha256 command
  let digest ← commandDigest sha256 command
  let account ← canonicalAccount (cString payload.accountName.toList)
  if criticalCommandValid command = false ∨ 127 < payload.racewar.toNat then none
  return { command, payload, digest, account }

def exchangeFiles (request : CurrencyRequest) (player : PlayerAuthority) (bank : BankRecord) :
    Option (DomainTransaction × Bytes) := do
  let playerBytes ← encodePlayerAuthority sha256 player
  let bankBytes ← encodeBankRecord sha256 bank
  let transaction : DomainTransaction :=
    { players := [⟨request.payload.pid, playerBytes⟩]
      banks := [⟨request.account, request.payload.racewar, bankBytes⟩] }
  let log ← encodeTransaction sha256 transaction
  return (transaction, log)

/-- The files that hold a player and a bank after the command, and its receipt among them. -/
def decideFiles (request : CurrencyRequest) (code : BitVec 32) (player : PlayerAuthority)
    (bank : BankRecord) : Decision :=
  match currencyCommandEncodeResult
      { wallet := ⟨player.record.wallet⟩, bank := ⟨bank.balances⟩
        walletRevision := player.record.walletRevision, bankRevision := bank.revision } with
  | none => .answer (terminal 0 ebadmsg)
  | some encoded =>
      let written := receipted request code encoded player
      let answer := freshAnswer code (pairRevision player bank) encoded
      if code ≠ 0 then
        match encodePlayerAuthority sha256 written with
        | none => .answer (terminal (pairRevision player bank) enospc)
        | some bytes => .receipt answer ⟨playerFilename player.record.pid, bytes⟩
      else
        match exchangeFiles sha256 request written bank with
        | none => .answer (terminal 0 enospc)
        | some (transaction, log) => .exchange answer transaction log

def decideLoaded (request : CurrencyRequest) (player : PlayerAuthority) (bank : BankRecord) :
    Decision :=
  if player.record.accountName ≠ request.account ∨
      player.record.racewar ≠ request.payload.racewar then .answer (terminal 0 eacces)
  else
    match player.operations.find? (·.operationId = request.command.operationId) with
    | some operation => .answer (replayed request (pairRevision player bank) operation)
    | none =>
        if domainMaximumOperations ≤ player.operations.length then
          .answer (terminal (pairRevision player bank) enospc)
        else if balancesFit player bank = false then .answer (terminal 0 eilseq)
        else
          decideFiles sha256 request (currencyCode request player bank)
            (playerAfter request player bank) (bankAfter request player bank)

/-- The two loads, where a player that cannot be had is answered before a bank. -/
def decideCurrency (request : CurrencyRequest) (disk : Disk) (playerReadable bankReadable : Bool) :
    Decision :=
  match loadPlayerAuthority sha256 disk request.payload.pid playerReadable,
      loadBank sha256 disk request.account request.payload.racewar bankReadable with
  | .error refusal, _ => .answer (refusalAnswer refusal)
  | .ok _, .error refusal => .answer (refusalAnswer refusal)
  | .ok player, .ok bank => decideLoaded sha256 request player bank

/-- How the file operations of a call end. A process that dies over the lock or a read has
changed nothing. -/
structure CurrencySteps where
  locked : StepAnswer := .ok
  recovery : RecoverySteps := {}
  player : StepAnswer := .ok
  bank : StepAnswer := .ok
  first : StepOutcome := .done
  rest : Nat → StepOutcome := fun _ => .done

/-- The answer once the files are written, if the process is there to give it. -/
def conclude (result : CriticalApplyResult) : StepAnswer → Option CriticalApplyResult
  | .ok => some result
  | .failed => some (retryable result.durableRevision eio)
  | .crashed => none

def carryOut (disk : Disk) (first : StepOutcome) (rest : Nat → StepOutcome) :
    Decision → Option CriticalApplyResult × Disk
  | .answer result => (some result, disk)
  | .receipt result image =>
      let (answer, disk) := flatfileAtomicWrite disk .domains image.filename image.bytes first
      (conclude result answer, disk)
  | .exchange result transaction log =>
      let (answer, disk) :=
        match flatfileAtomicWrite disk .domains transactionFilename log first with
        | (.ok, disk) => settleLog disk transactionFilename transaction.images rest
        | refused => refused
      (conclude result answer, disk)

/-- A call: its answer, unless the process dies in it, and the disk. -/
def applyCurrencyCommand (disk : Disk) (command : CriticalCommand) (steps : CurrencySteps) :
    Option CriticalApplyResult × Disk :=
  match currencyRequest sha256 command, steps.locked with
  | none, _ => (some (terminal 0 einval), disk)
  | some _, .failed => (some (retryable 0 eio), disk)
  | some _, .crashed => (none, disk)
  | some request, .ok =>
      match recoverAuthority sha256 disk steps.recovery with
      | (none, disk) => (none, disk)
      | (some (.error refusal), disk) =>
          (some (if refusal = .ioError then retryable 0 eio else terminal 0 eilseq), disk)
      | (some (.ok _), disk) =>
          if steps.player = .crashed ∨ steps.bank = .crashed then (none, disk)
          else
            carryOut disk steps.first steps.rest
              (decideCurrency sha256 request disk (steps.player == .ok) (steps.bank == .ok))

end Duris.Flatfile.PlayerDomain
