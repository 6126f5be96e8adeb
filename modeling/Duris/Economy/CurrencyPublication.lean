import Duris.Economy.CoinTransfer
import Duris.Economy.LiveBalances

/-!
# Publishing a currency receipt

`publish` and `publish_coin` of `src/economy/currency_transaction.c` up to the callback
they end in, with `src/economy/currency_publication.h`: a receipt is decoded, the live
balances it carries are written, and what is left is either the notice the callback is
given or the reason why the entry stays pending.

A callback is a `CallbackRef`, as a character is a `CharacterRef`. The result bytes of a
receipt are an array of 4096 bytes of which the list is the written part. Alerts and
texts for the player are left out; the counters a publication adds to are read off the
answer by the caller.
-/

namespace Duris.Economy

open Persistence

variable (sha256 : Bytes → Vector UInt8 32)

def estale : BitVec 32 := 116
def erange : BitVec 32 := 34
def eownerdead : BitVec 32 := 130

def criticalCompletionResultMaxBytes : Nat := 4096

inductive CurrencyPublicationState where
  | awaitingCompletion
  | ready
  | waitingForPlayer
  | retryingCallback
  | blockedReceipt
  deriving DecidableEq

namespace CurrencyPublicationState

def isReady (state : CurrencyPublicationState) : Bool :=
  state == .ready || state == .retryingCallback

def isLivePending (state : CurrencyPublicationState) : Bool :=
  state.isReady || state == .waitingForPlayer

def isBlocked (state : CurrencyPublicationState) : Bool := state == .blockedReceipt

end CurrencyPublicationState

abbrev CallbackRef := Nat

/-- `critical_completion completed = {}`, what an entry holds before a receipt. -/
def noReceipt : CriticalCompletion :=
  { operationId := Item.zeroOperationId
    type := 0
    outcome := .applied
    durableRevision := 0
    errorCode := 0
    attempt := 0
    owner := 0
    generation := 0 }

/-- An entry of `pending`, with its key. `ticket` is not in the source: the number of
the submission it was accepted by. -/
structure PendingCurrency where
  operationId : CriticalOperationId
  pid : BitVec 32
  accountName : Bytes
  racewar : BitVec 8
  completion : Option CallbackRef
  context : Bytes
  publicationState : CurrencyPublicationState := .awaitingCompletion
  completed : CriticalCompletion := noReceipt
  coin : Option CoinTransferPayload := none
  coinCompletion : Option CallbackRef := none
  coinWalletsPublished : Bool := false
  publicationAttempts : Nat := 0
  ticket : Nat := 0

def receiptCommitted (completed : CriticalCompletion) : Bool :=
  completed.outcome == .applied || completed.outcome == .alreadyApplied

/-- The first `result_size` bytes of `result_payload`. -/
def receiptBytes (completed : CriticalCompletion) : Bytes :=
  (List.range completed.resultSize.toNat).map fun index => completed.resultPayload.getD index 0

def samePublicationReceipt (left right : CriticalCompletion) : Bool :=
  left.outcome == right.outcome && left.durableRevision == right.durableRevision &&
    left.errorCode == right.errorCode && left.failureStage == right.failureStage &&
    left.attempt == right.attempt && left.resultSize == right.resultSize &&
    (List.range criticalCompletionResultMaxBytes).all fun index =>
      left.resultPayload.getD index 0 == right.resultPayload.getD index 0

/-- What a callback is called with. -/
inductive CurrencyNotice where
  | currency (character : Option CharacterRef) (committed : Bool) (result : CurrencyCommandResult)
      (errorCode : BitVec 32)
  | coin (actor : Option CharacterRef) (committed : Bool) (payload : CoinTransferPayload)
      (result : CoinTransferResult) (errorCode : BitVec 32)

def CurrencyNotice.committed : CurrencyNotice → Bool
  | .currency _ committed _ _ => committed
  | .coin _ committed _ _ _ => committed

/-- How a publication ends: the entry is retained, or its callback is due. `malformed`
says whether it counts as a malformed completion. -/
inductive Publication where
  | retained (reason : String) (malformed : Bool)
  | notify (notice : CurrencyNotice) (malformed : Bool)

def coinWalletByPid (world : World) (pid : BitVec 32) : Option CharacterRef :=
  world.characters.find? fun ref =>
    !(world.character ref).npc && (world.character ref).pid == pid

/-- What `publish_coin` makes of the bytes: the result of a commit, or the balances a
stale rejection reports. -/
def coinReceipt (coin : CoinTransferPayload) (completed : CriticalCompletion) :
    Except String (CoinTransferResult × Option CoinTransferStaleResult) :=
  if receiptCommitted completed then
    match coinTransferCommandDecodeResult coin (receiptBytes completed) with
    | none => .error "invalid_coin_result"
    | some result => .ok (result, none)
  else if completed.errorCode = estale ∧
      coinTransferCommandStaleResultExpected coin completed.failureStage = true then
    match coinTransferCommandDecodeStaleResult sha256 coin completed.failureStage
        (receiptBytes completed) with
    | none => .error "invalid_coin_stale_result"
    | some stale => .ok ({}, some stale)
  else if completed.resultSize ≠ 0 then .error "unexpected_coin_terminal_result"
  else .ok ({}, none)

def repairWallet (world : World) (character : Option CharacterRef)
    (stale : CoinTransferStaleResult) : Bool × World :=
  match character with
  | none => (true, world)
  | some ref =>
      if stale.walletStale then
        publishWallet world ref stale.current.wallet stale.current.walletRevision
      else (true, world)

def repairBank (world : World) (character : Option CharacterRef)
    (wallet : CurrencyCommandPayload) (stale : CoinTransferStaleResult) : Bool × World :=
  if stale.bankStale then
    publishBank world character wallet.accountName.toList wallet.racewar stale.current.bank
      stale.current.bankRevision
  else (true, world)

/-- The live projection of the rejected endpoint is brought up to what the authority
reported. -/
def repairStale (world : World) (coin : CoinTransferPayload) (stale : CoinTransferStaleResult) :
    World × Option String :=
  match currencyCommandDecodePayload sha256 (coin.endpoint stale.destination).change with
  | none => (world, some "invalid_stale_coin_endpoint")
  | some wallet =>
      let character := coinWalletByPid world wallet.pid
      match repairWallet world character stale with
      | (false, world) => (world, some "invalid_stale_coin_authority")
      | (true, world) =>
          match repairBank world character wallet stale with
          | (false, world) => (world, some "invalid_stale_coin_authority")
          | (true, world) => (world, none)

/-- One iteration of the loop over the endpoints of a commit. -/
def publishEndpoint (world : World) (endpoint : CoinTransferEndpoint)
    (balances : CurrencyCommandResult) : World × Option String :=
  if endpoint.change.type ≠ CriticalCommandType.accountBank then (world, none)
  else
    match currencyCommandDecodePayload sha256 endpoint.change with
    | none => (world, some "invalid_coin_endpoint")
    | some wallet =>
        match coinWalletByPid world wallet.pid with
        | some ref =>
            match publishBalances world ref wallet.accountName.toList wallet.racewar
                balances.wallet balances.bank balances.walletRevision balances.bankRevision with
            | (false, world) => (world, some "invalid_coin_live_balances")
            | (true, world) => (world, none)
        | none =>
            match publishBank world none wallet.accountName.toList wallet.racewar balances.bank
                balances.bankRevision with
            | (false, world) => (world, some "invalid_coin_live_bank")
            | (true, world) => (world, none)

def publishEndpoints (world : World) (coin : CoinTransferPayload) (result : CoinTransferResult) :
    World × Option String :=
  match publishEndpoint sha256 world coin.source result.sourceWallet with
  | (world, some reason) => (world, some reason)
  | (world, none) => publishEndpoint sha256 world coin.destination result.destinationWallet

/-- The balances of a receipt go live once, whatever becomes of the callback. -/
def publishCoinBalances (world : World) (entry : PendingCurrency) (coin : CoinTransferPayload)
    (result : CoinTransferResult) (stale : Option CoinTransferStaleResult) :
    World × Option String :=
  if entry.coinWalletsPublished then (world, none)
  else
    match stale with
    | some stale => repairStale sha256 world coin stale
    | none =>
        if receiptCommitted entry.completed then publishEndpoints sha256 world coin result
        else (world, none)

def publishCoin (world : World) (entry : PendingCurrency) (coin : CoinTransferPayload) :
    World × PendingCurrency × Publication :=
  match coinReceipt sha256 coin entry.completed with
  | .error reason => (world, entry, .retained reason true)
  | .ok (result, stale) =>
      match publishCoinBalances sha256 world entry coin result stale with
      | (world, some reason) => (world, entry, .retained reason true)
      | (world, none) =>
          (world,
            { entry with coinWalletsPublished :=
                entry.coinWalletsPublished || receiptCommitted entry.completed || stale.isSome },
            .notify (.coin (coinWalletByPid world entry.pid) (receiptCommitted entry.completed)
              coin result entry.completed.errorCode) false)

/-- `currency_transaction_publish_balances` with a pointer that may be null. -/
def publishBalancesTo (world : World) (character : Option CharacterRef) (entry : PendingCurrency)
    (result : CurrencyCommandResult) : Bool × World :=
  match character with
  | none => (false, world)
  | some ref =>
      publishBalances world ref entry.accountName entry.racewar result.wallet result.bank
        result.walletRevision result.bankRevision

/-- The rest of `publish`, for an entry that is no coin transfer. A rejection is
reported even when its balances cannot be read or written. -/
def publishCurrency (world : World) (entry : PendingCurrency) (character : Option CharacterRef) :
    World × Publication :=
  let completed := entry.completed
  match currencyCommandDecodeResult (receiptBytes completed) with
  | none =>
      if receiptCommitted completed then (world, .retained "invalid_result" true)
      else
        (world, .notify (.currency character false {} completed.errorCode)
          (completed.resultSize != 0))
  | some result =>
      match publishBalancesTo world character entry result with
      | (true, world) =>
          (world, .notify (.currency character (receiptCommitted completed) result
            completed.errorCode) false)
      | (false, world) =>
          if receiptCommitted completed then (world, .retained "invalid_live_balances" true)
          else
            (world, .notify (.currency character false {}
              (if completed.errorCode = 0 then erange else completed.errorCode)) true)

/-- `publish` up to its callback. -/
def publishEntry (world : World) (entry : PendingCurrency) (character : Option CharacterRef) :
    World × PendingCurrency × Publication :=
  if receiptCommitted entry.completed = false ∧ entry.completed.outcome ≠ .terminalFailure then
    (world, entry, .retained "unresolved_outcome" false)
  else
    match entry.coin with
    | some coin => publishCoin sha256 world entry coin
    | none =>
        match publishCurrency world entry character with
        | (world, publication) => (world, entry, publication)

end Duris.Economy
