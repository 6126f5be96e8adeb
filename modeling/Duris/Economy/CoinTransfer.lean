import Duris.Economy.CurrencyCommand
import Duris.Item.TransferCommand
import Duris.Persistence.Coordinator

/-!
# Coin transfer commands

`src/economy/coin_transfer_command.{h,c}`: coins that go from one wallet or pile to
another. Each endpoint is a whole command of its own, a wallet delta or an item
transfer, embedded in the payload together with the amounts before and after; the
build gives the embedded commands derived ids and the site, class and time of the
parent, and the decoder rebuilds the command it reads and compares.

Amounts are the `int32_t` of the source, kept as their bits. `value` sums in
`int64_t`, which four amounts cannot overflow, so it is an integer here. The text a
refusal leaves in `*error` is the error of the `Except`.
-/

namespace Duris.Economy

open Persistence
open Player (PlayerItemSnapshot ItemTransferEntry ItemOwnerType playerItemSnapshotListDecode
  playerSnapshotNoParent itemMoney)
open Item (ItemTransferPayload ItemTransferResult itemTransferCommandDecodePayload
  itemTransferCommandDecodeResult itemTransferResultBytes itemOwnerIdentityEqual)
open Reader

variable (sha256 : Bytes → Vector UInt8 32)

def coinTransferPayloadVersion : BitVec 16 := 1
def coinOperationDomain : BitVec 32 := 0x434f494e

structure CoinTransferEndpoint where
  before : Vector (BitVec 32) 4
  after : Vector (BitVec 32) 4
  change : CriticalCommand
  deriving DecidableEq

structure CoinTransferPayload where
  source : CoinTransferEndpoint
  destination : CoinTransferEndpoint
  deriving DecidableEq

def denominations : List Int := [1, 10, 100, 1000]

def value (amounts : Vector (BitVec 32) 4) : Int :=
  if amounts.toList.any (fun amount => decide (amount.toInt < 0)) then -1
  else (List.zipWith (fun amount worth => amount.toInt * worth) amounts.toList denominations).sum

/-! ## The check -/

/-- A wallet endpoint: the delta of a coin transfer that is the difference of the
amounts. -/
def validateWallet (endpoint : CoinTransferEndpoint) : Except String CriticalEntityKey :=
  match currencyCommandDecodePayload sha256 endpoint.change with
  | none => .error "invalid wallet endpoint"
  | some wallet =>
      if wallet.reason ≠ CurrencyReasonType.coinTransfer ∨
          (endpoint.change.expectedRevisions.take 2).any
            (fun expected => expected.revision == BitVec.allOnes 64) then
        .error "invalid wallet endpoint"
      else if (List.finRange 4).any (fun index =>
          wallet.bankDelta.amount.get index != 0 ||
            (wallet.walletDelta.amount.get index).toInt !=
              (endpoint.after.get index).toInt - (endpoint.before.get index).toInt) then
        .error "wallet delta does not match amounts"
      else .ok ⟨CriticalEntityType.player, wallet.pid.setWidth 64⟩

def pileMatches (endpoint : CoinTransferEndpoint) (source consumed : Bool)
    (snapshot : PlayerItemSnapshot) : Bool :=
  (List.finRange 4).all fun index =>
    !(if source then decide ((endpoint.before.get index).toInt < (endpoint.after.get index).toInt)
      else decide ((endpoint.after.get index).toInt < (endpoint.before.get index).toInt)) &&
      snapshot.values.getD index 0 ==
        if consumed then endpoint.before.get index else endpoint.after.get index

/-- A pile endpoint: one item transferred to where it lies, made or used up. -/
def validatePile (endpoint : CoinTransferEndpoint) (source : Bool) :
    Except String CriticalEntityKey :=
  match itemTransferCommandDecodePayload sha256 endpoint.change with
  | none => .error "invalid pile identity"
  | some pile =>
      match pile.items with
      | [item] =>
          let creation := pile.fromOwner.type == ItemOwnerType.system
          let consumed := pile.toOwner.type == ItemOwnerType.destruction
          if pile.multiRoot ∨ item.itemUid ≠ pile.selectedItemUid then
            .error "invalid pile identity"
          else if
              (if creation then source || value endpoint.before != 0 || consumed
              else value endpoint.before == 0 ||
                (!consumed && !itemOwnerIdentityEqual pile.fromOwner pile.toOwner)) then
            .error "invalid pile ownership transition"
          else if consumed != (value endpoint.after == 0) ||
              (!creation && !consumed && (pile.targetRootItemUid != item.rootItemUid ||
                pile.targetParentItemUid != item.parentItemUid)) then
            .error "invalid pile topology"
          else
            match playerItemSnapshotListDecode pile.itemBlob with
            | .ok [snapshot] =>
                if snapshot.objectUid ≠ pile.selectedItemUid ∨ snapshot.vnum ≠ item.vnum ∨
                    snapshot.type ≠ itemMoney ∨
                    snapshot.parentIndex.toInt ≠ playerSnapshotNoParent then
                  .error "pile snapshot identity or type mismatch"
                else if pileMatches endpoint source consumed snapshot then
                  .ok ⟨CriticalEntityType.item, pile.selectedItemUid⟩
                else .error "pile snapshot amount mismatch"
            | _ => .error "pile snapshot identity or type mismatch"
      | _ => .error "invalid pile identity"

/-- `validate_endpoint`, with the identity it stores. -/
def validateEndpoint (endpoint : CoinTransferEndpoint) (source : Bool) :
    Except String CriticalEntityKey :=
  let before := value endpoint.before
  let after := value endpoint.after
  if before < 0 ∨ after < 0 ∨ (source = true ∧ before ≤ after) ∨
      (source = false ∧ after ≤ before) then
    .error "invalid coin amounts"
  else if endpoint.change.type = CriticalCommandType.accountBank then
    validateWallet sha256 endpoint
  else if endpoint.change.type ≠ CriticalCommandType.itemTransfer then
    .error "unsupported endpoint type"
  else validatePile sha256 endpoint source

/-- `validate_payload`, with the two identities. -/
def validatePayload (payload : CoinTransferPayload) :
    Except String (CriticalEntityKey × CriticalEntityKey) := do
  let source ← validateEndpoint sha256 payload.source true
  let destination ← validateEndpoint sha256 payload.destination false
  if criticalEntityKeyEqual source destination ∨
      value payload.source.before - value payload.source.after ≠
        value payload.destination.after - value payload.destination.before then
    .error "duplicate endpoints or nonconserving transfer"
  else .ok (source, destination)

/-! ## Building -/

/-- The embedded command as `append_endpoint` overwrites it. -/
def stampChange (change : CriticalCommand) (operationId : CriticalOperationId)
    (sourceSite : CriticalSourceSite) (deadlineClass : CriticalDeadlineClass) : CriticalCommand :=
  { change with
    operationId := operationId
    sourceSite := sourceSite
    deadlineClass := deadlineClass
    acceptedAtUsec := 1 }

def encodeAmounts (amounts : Vector (BitVec 32) 4) : Bytes := amounts.toList.flatMap appendLe

/-- `append_endpoint`: what it appends to the payload and to the keys. -/
def appendEndpoint (operationId : CriticalOperationId) (sourceSite : CriticalSourceSite)
    (deadlineClass : CriticalDeadlineClass) (endpoint : CoinTransferEndpoint) (index : BitVec 64) :
    Option (Bytes × List CriticalEntityKey) := do
  let derived ← criticalOperationIdDerive sha256 operationId coinOperationDomain index
  let change ← criticalCommandNormalize
    (stampChange endpoint.change derived sourceSite deadlineClass)
  let encoded ← (criticalCommandEncode change).toOption
  return (encodeAmounts endpoint.before ++ encodeAmounts endpoint.after ++
    appendLe (BitVec.ofNat 32 encoded.length) ++ encoded, change.keys)

/-- The command after both endpoints are appended and the keys are put in order; the
time it is checked under is a placeholder. -/
def assemble (operationId : CriticalOperationId) (sourceSite : CriticalSourceSite)
    (deadlineClass : CriticalDeadlineClass) (acceptedAtUsec : BitVec 64)
    (source destination : Bytes × List CriticalEntityKey) : CriticalCommand :=
  { schemaVersion := criticalCommandSchemaVersion
    operationId := operationId
    type := CriticalCommandType.coinTransfer
    payloadVersion := coinTransferPayloadVersion
    sourceSite := sourceSite
    deadlineClass := deadlineClass
    acceptedAtUsec := acceptedAtUsec
    keys := unique criticalEntityKeyEqual
      ((source.2 ++ destination.2).mergeSort fun a b => !criticalEntityKeyLess b a)
    expectedRevisions := []
    payload := source.1 ++ destination.1 }

def coinTransferCommandBuild (operationId : CriticalOperationId) (payload : CoinTransferPayload)
    (sourceSite : CriticalSourceSite) (deadlineClass : CriticalDeadlineClass) :
    Except String CriticalCommand :=
  if criticalOperationIdIsZero operationId then .error "invalid command identity"
  else
    match validatePayload sha256 payload with
    | .error error => .error error
    | .ok _ =>
        match appendEndpoint sha256 operationId sourceSite deadlineClass payload.source 0,
            appendEndpoint sha256 operationId sourceSite deadlineClass payload.destination 1 with
        | some source, some destination =>
            if criticalCommandMaxPayloadBytes < source.1.length ∨
                criticalCommandMaxPayloadBytes < (source.1 ++ destination.1).length ∨
                criticalCommandValid (assemble operationId sourceSite deadlineClass 1 source
                  destination) = false then
              .error "coin command encoding failed"
            else .ok (assemble operationId sourceSite deadlineClass 0 source destination)
        | _, _ => .error "coin command encoding failed"

/-! ## Decoding -/

/-- Four amounts, none of them above `INT32_MAX`. -/
def readAmounts : Reader Unit (Vector (BitVec 32) 4) := do
  let amounts ← many (field () 32) 4
  require (amounts.all (fun amount => decide (0 ≤ amount.toInt)) = true) ()
  return Vector.ofFn fun index => amounts.getD index 0

def readEndpoint : Reader Unit CoinTransferEndpoint := do
  let before ← readAmounts
  let after ← readAmounts
  let size ← field () 32
  let encoded ← raw () size.toNat
  let change ← ofOption () (criticalCommandDecode encoded.1).toOption
  return { before, after, change }

def readPayloadEndpoints : Reader Unit CoinTransferPayload := do
  let source ← readEndpoint
  let destination ← readEndpoint
  return { source, destination }

def coinTransferCommandDecodePayload (command : CriticalCommand) : Option CoinTransferPayload :=
  if command.type ≠ CriticalCommandType.coinTransfer ∨
      command.payloadVersion ≠ coinTransferPayloadVersion ∨
      criticalCommandMaxPayloadBytes < command.payload.length ∨
      command.expectedRevisions ≠ [] then none
  else do
    let decoded ← whole readPayloadEndpoints command.payload
    let expected ← (coinTransferCommandBuild sha256 command.operationId decoded
      command.sourceSite command.deadlineClass).toOption
    if expected.payload ≠ command.payload ∨ expected.keys ≠ command.keys then none
    else some decoded

/-! ## The result of a commit -/

def coinTransferResultBytes : Nat := 2 * (currencyResultPayloadBytes + itemTransferResultBytes)

/-- `wallets[0]`, `wallets[1]`, `piles[0]` and `piles[1]` of the source. -/
structure CoinTransferResult where
  sourceWallet : CurrencyCommandResult := {}
  destinationWallet : CurrencyCommandResult := {}
  sourcePile : ItemTransferResult := {}
  destinationPile : ItemTransferResult := {}
  deriving DecidableEq

/-- One side of the result: a wallet with no pile behind it, or a pile with no wallet
before it. -/
def decodeEndpointResult (endpoint : CoinTransferEndpoint) (encoded : Bytes) :
    Option (CurrencyCommandResult × ItemTransferResult) :=
  let wallet := encoded.take currencyResultPayloadBytes
  let pile := encoded.drop currencyResultPayloadBytes
  if endpoint.change.type = CriticalCommandType.accountBank then
    if pile.any (· != 0) then none
    else (currencyCommandDecodeResult wallet).map fun decoded => (decoded, {})
  else if endpoint.change.type = CriticalCommandType.itemTransfer then
    if wallet.any (· != 0) then none
    else (itemTransferCommandDecodeResult pile).map fun decoded => ({}, decoded)
  else none

def coinTransferCommandDecodeResult (payload : CoinTransferPayload) (encoded : Bytes) :
    Option CoinTransferResult :=
  if encoded.length ≠ coinTransferResultBytes then none
  else do
    let side := currencyResultPayloadBytes + itemTransferResultBytes
    let source ← decodeEndpointResult payload.source (encoded.take side)
    let destination ← decodeEndpointResult payload.destination (encoded.drop side)
    return {
      sourceWallet := source.1
      destinationWallet := destination.1
      sourcePile := source.2
      destinationPile := destination.2 }

/-! ## The result of a stale rejection -/

def coinTransferStaleResultVersion : UInt8 := 1
def coinTransferStaleResultBytes : Nat := 3 + currencyResultPayloadBytes

/-- The wallet or bank the rejected endpoint was behind, as its row locks read it. -/
structure CoinTransferStaleResult where
  destination : Bool
  walletStale : Bool
  bankStale : Bool
  current : CurrencyCommandResult
  deriving DecidableEq

/-- The endpoint of `endpoint_index`. -/
def CoinTransferPayload.endpoint (payload : CoinTransferPayload) (destination : Bool) :
    CoinTransferEndpoint :=
  if destination then payload.destination else payload.source

/-- `stale_currency_endpoint`: the one wallet endpoint a failure stage is about, and
which of its two revisions. -/
def staleCurrencyEndpoint (payload : CoinTransferPayload) (failureStage : CriticalFailureStage) :
    Option (Bool × Bool × Bool) :=
  let source := CriticalFailureStage.coinSourceWalletRevision |||
    CriticalFailureStage.coinSourceBankRevision
  let destination := CriticalFailureStage.coinDestinationWalletRevision |||
    CriticalFailureStage.coinDestinationBankRevision
  if failureStage.valid = false ∨ failureStage = 0 ∨
      failureStage &&& ~~~(source ||| destination) ≠ 0 ∨
      (failureStage &&& source != 0) = (failureStage &&& destination != 0) then none
  else
    let second := failureStage &&& source == 0
    if (payload.endpoint second).change.type ≠ CriticalCommandType.accountBank then none
    else
      let walletStale := failureStage &&& (if second then
        CriticalFailureStage.coinDestinationWalletRevision
        else CriticalFailureStage.coinSourceWalletRevision) != 0
      let bankStale := failureStage &&& (if second then
        CriticalFailureStage.coinDestinationBankRevision
        else CriticalFailureStage.coinSourceBankRevision) != 0
      if walletStale || bankStale then some (second, walletStale, bankStale) else none

def coinTransferCommandStaleResultExpected (payload : CoinTransferPayload)
    (failureStage : CriticalFailureStage) : Bool :=
  (staleCurrencyEndpoint payload failureStage).isSome

def staleFlags (walletStale bankStale : Bool) : UInt8 :=
  (if walletStale then 1 else 0) ||| (if bankStale then 2 else 0)

/-- The halves of a balance that are reported; the others stay zero. -/
def selectStale (wallets : CurrencyCommandResult) (walletStale bankStale : Bool) :
    CurrencyCommandResult :=
  { wallet := if walletStale then wallets.wallet else {}
    bank := if bankStale then wallets.bank else {}
    walletRevision := if walletStale then wallets.walletRevision else 0
    bankRevision := if bankStale then wallets.bankRevision else 0 }

def coinTransferCommandEncodeStaleResult (payload : CoinTransferPayload)
    (result : CoinTransferResult) (failureStage : CriticalFailureStage) : Option Bytes := do
  let (destination, walletStale, bankStale) ← staleCurrencyEndpoint payload failureStage
  let current ← currencyCommandEncodeResult (selectStale
    (if destination then result.destinationWallet else result.sourceWallet) walletStale bankStale)
  return [coinTransferStaleResultVersion, if destination then 1 else 0,
    staleFlags walletStale bankStale] ++ current

/-- A half that is not stale carries nothing. -/
def unreported (balances : CurrencyVector) (revision : BitVec 64) : Bool :=
  revision == 0 && balances.amount.toList.all (· == 0)

/-- A stale half is newer than what the endpoint expected, and can be held by a live
character. -/
def newerAuthority (balances : CurrencyVector) (revision expected : BitVec 64) : Bool :=
  revision != BitVec.allOnes 64 && decide (expected < revision) &&
    balances.amount.toList.all fun amount =>
      decide (0 ≤ amount.toInt) && decide (amount.toInt ≤ 2147483647)

/-- The checks on the balances of a stale result, against the revisions the endpoint
expected of its player and its account. -/
def staleBalancesValid (current : CurrencyCommandResult) (walletStale bankStale : Bool)
    (expectedWallet expectedBank : BitVec 64) : Bool :=
  (if walletStale then newerAuthority current.wallet current.walletRevision expectedWallet
    else unreported current.wallet current.walletRevision) &&
  (if bankStale then newerAuthority current.bank current.bankRevision expectedBank
    else unreported current.bank current.bankRevision)

def coinTransferCommandDecodeStaleResult (payload : CoinTransferPayload)
    (failureStage : CriticalFailureStage) (encoded : Bytes) : Option CoinTransferStaleResult :=
  if encoded.length ≠ coinTransferStaleResultBytes then none
  else
    match staleCurrencyEndpoint payload failureStage with
    | none => none
    | some (destination, walletStale, bankStale) =>
        if encoded.getD 0 0 ≠ coinTransferStaleResultVersion ∨
            encoded.getD 1 0 ≠ (if destination then 1 else 0) ∨
            encoded.getD 2 0 ≠ staleFlags walletStale bankStale then none
        else
          match currencyCommandDecodeResult (encoded.drop 3),
              (payload.endpoint destination).change.expectedRevisions with
          | some current, [player, account] =>
              if (currencyCommandDecodePayload sha256
                  (payload.endpoint destination).change).isNone ∨
                  staleBalancesValid current walletStale bankStale player.revision
                    account.revision = false then none
              else some { destination, walletStale, bankStale, current }
          | _, _ => none

end Duris.Economy
