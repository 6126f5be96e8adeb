import Duris.Economy.CollectorWire
import Duris.Economy.ShopTradeCommand

/-!
# Shop trades on the wire

`shop_trade_command_encode_payload`, `shop_trade_command_decode_payload` and
`shop_trade_command_build` of `src/economy/shop_trade_command.c`. The decoder knows four
layouts: the target came with the third, the stock with the second, and what the first
cannot say of the stock it takes from the selected row.
-/

namespace Duris.Economy

open Persistence Player Item

def shopTradePayloadVersion : BitVec 16 := 4
def shopTradePreviousPayloadVersion : BitVec 16 := 3
def shopTradeStockPayloadVersion : BitVec 16 := 2
def shopTradeLegacyPayloadVersion : BitVec 16 := 1
def shopTradeCommandType : CriticalCommandType := 15

def ShopTradeAction.code : ShopTradeAction → BitVec 8
  | .unknown => 0
  | .buyExisting => 1
  | .buyProduced => 2
  | .sellStore => 3
  | .sellDestroy => 4
  | .discardInvalid => 5

/-- `static_cast<shop_trade_action>`, where `valid_payload` accepts the value. -/
def ShopTradeAction.ofCode (code : BitVec 8) : Option ShopTradeAction :=
  [ShopTradeAction.buyExisting, .buyProduced, .sellStore, .sellDestroy, .discardInvalid].find?
    fun action => action.code == code

/-- What stands before the name, up to the number of rows. -/
def encodeShopHeader (payload : ShopTradePayload) : Bytes :=
  appendLe payload.action.code ++ appendLe payload.playerPid ++ appendLe payload.shopId ++
    appendLe payload.racewar ++ appendLe payload.price ++
    appendLe payload.expectedWalletRevision ++ appendLe payload.expectedBankRevision ++
    appendLe payload.expectedShopRevision ++ appendLe payload.selectedItemUid ++
    appendLe payload.targetRootItemUid ++ appendLe payload.targetParentItemUid ++
    appendLe payload.expectedTargetParentRevision ++ appendLe payload.stockItemUid ++
    appendLe payload.expectedStockItemRevision ++ appendLe payload.stockVnum ++
    appendLe (BitVec.ofNat 16 payload.items.length)

def encodeShopItem (item : ItemTransferEntry) : Bytes :=
  appendLe item.itemUid ++ appendLe item.rootItemUid ++ appendLe item.parentItemUid ++
    appendLe item.expectedItemRevision ++ appendLe item.vnum ++ appendLe item.expectedState

def shopTradeCommandEncodePayload (payload : ShopTradePayload) : Option Bytes :=
  if payload.valid = false then none
  else
    let name := cString payload.accountName.toList
    let encoded := encodeShopHeader payload ++ appendLe (BitVec.ofNat 8 name.length) ++ name ++
      payload.items.flatMap encodeShopItem ++
      appendLe (BitVec.ofNat 32 payload.itemBlob.length) ++ payload.itemBlob
    if criticalCommandMaxPayloadBytes < encoded.length then none else some encoded

/-- The fences of `shop_trade_command_build`, in the order they are pushed. A key is pushed
together with its revision. -/
def shopTradeFences (sha256 : Bytes → Vector UInt8 32) (payload : ShopTradePayload) :
    Option (List CriticalExpectedRevision) := do
  let account ← currencyAccountKey sha256 payload.accountName.toList payload.racewar
  return ⟨⟨CriticalEntityType.player, payload.playerPid.setWidth 64⟩,
      payload.expectedWalletRevision⟩ ::
    ⟨account, payload.expectedBankRevision⟩ ::
    ⟨⟨CriticalEntityType.shopkeeper, shopkeeperOwnerId payload.shopId⟩,
      payload.expectedShopRevision⟩ ::
    (payload.items.map (fun item =>
        ⟨⟨CriticalEntityType.item, item.itemUid⟩, item.expectedItemRevision⟩) ++
      (if payload.creation then
        [⟨⟨CriticalEntityType.item, payload.stockItemUid⟩, payload.expectedStockItemRevision⟩]
        else []) ++
      (if payload.targetParentItemUid ≠ 0 then
        [⟨⟨CriticalEntityType.item, payload.targetParentItemUid⟩,
          payload.expectedTargetParentRevision⟩] else []))

def shopTradeCommandBuild (sha256 : Bytes → Vector UInt8 32) (operationId : CriticalOperationId)
    (payload : ShopTradePayload) (sourceSite : CriticalSourceSite)
    (deadlineClass : CriticalDeadlineClass) : Option CriticalCommand :=
  if criticalOperationIdIsZero operationId = true ∨ payload.valid = false then none
  else do
    let fences ← shopTradeFences sha256 payload
    let encoded ← shopTradeCommandEncodePayload payload
    let keys := (fences.map CriticalExpectedRevision.key).mergeSort
      fun a b => !criticalEntityKeyLess b a
    if adjacentEqual keys then none
    else
      return {
        schemaVersion := criticalCommandSchemaVersion
        operationId := operationId
        type := shopTradeCommandType
        payloadVersion := shopTradePayloadVersion
        sourceSite := sourceSite
        deadlineClass := deadlineClass
        acceptedAtUsec := 0
        keys := keys
        expectedRevisions := fences.mergeSort fun a b => !criticalEntityKeyLess b.key a.key
        payload := encoded }

section Decode

open Reader

def readShopItem : Reader Unit ItemTransferEntry := do
  let itemUid ← field () 64
  let rootItemUid ← field () 64
  let parentItemUid ← field () 64
  let expectedItemRevision ← field () 64
  let vnum ← field () 32
  let expectedState ← field () 8
  return { itemUid, rootItemUid, parentItemUid, expectedItemRevision, vnum, expectedState }

/-- The target: its root, its parent and the revision of that. -/
def readTarget (payloadVersion : BitVec 16) (selectedItemUid : BitVec 64) :
    Reader Unit (BitVec 64 × BitVec 64 × BitVec 64) :=
  if shopTradePreviousPayloadVersion ≤ payloadVersion then do
    let targetRootItemUid ← field () 64
    let targetParentItemUid ← field () 64
    let expectedTargetParentRevision ← field () 64
    return (targetRootItemUid, targetParentItemUid, expectedTargetParentRevision)
  else pure (selectedItemUid, 0, 0)

/-- The stock: its uid, its revision and its vnum. -/
def readStock (payloadVersion : BitVec 16) : Reader Unit (BitVec 64 × BitVec 64 × BitVec 32) :=
  if shopTradeStockPayloadVersion ≤ payloadVersion then do
    let stockItemUid ← field () 64
    let expectedStockItemRevision ← field () 64
    let stockVnum ← field () 32
    return (stockItemUid, expectedStockItemRevision, stockVnum)
  else pure (0, 0, 0)

/-- The fields before the name, with nothing in the name, the rows and the blob, and the
number of rows. -/
def readShopHeader (payloadVersion : BitVec 16) : Reader Unit (ShopTradePayload × Nat) := do
  let action ← field () 8
  let playerPid ← field () 32
  let shopId ← field () 32
  let racewar ← field () 8
  let price ← field () 64
  let expectedWalletRevision ← field () 64
  let expectedBankRevision ← field () 64
  let expectedShopRevision ← field () 64
  let selectedItemUid ← field () 64
  let target ← readTarget payloadVersion selectedItemUid
  let stock ← readStock payloadVersion
  let itemCount ← field () 16
  require (itemCount.toNat ≤ shopTradeMaxItems) ()
  let action ← ofOption () (ShopTradeAction.ofCode action)
  return ({ action, playerPid, shopId, racewar, accountName := nameArray [], price,
            expectedWalletRevision, expectedBankRevision, expectedShopRevision,
            selectedItemUid, targetRootItemUid := target.1, targetParentItemUid := target.2.1,
            expectedTargetParentRevision := target.2.2, stockItemUid := stock.1,
            expectedStockItemRevision := stock.2.1, stockVnum := stock.2.2,
            items := [], itemBlob := [] }, itemCount.toNat)

/-- The reads of `shop_trade_command_decode_payload`. -/
def readShopTradePayload (payloadVersion : BitVec 16) : Reader Unit ShopTradePayload := do
  let header ← readShopHeader payloadVersion
  let nameLength ← field () 8
  require (nameLength ≠ 0 ∧ nameLength.toNat ≤ currencyAccountNameMaxBytes) ()
  let name ← raw () nameLength.toNat
  let items ← many readShopItem header.2
  let itemBlobSize ← field () 32
  require (itemBlobSize ≠ 0 ∧ itemBlobSize.toNat ≤ shopTradeItemBlobMaxBytes) ()
  let itemBlob ← raw () itemBlobSize.toNat
  return { header.1 with accountName := nameArray name.1, items, itemBlob := itemBlob.1 }

/-- What the first layout does not say: a purchase takes its stock from the selected row. -/
def legacyStock (payloadVersion : BitVec 16) (payload : ShopTradePayload) :
    Option ShopTradePayload :=
  if payloadVersion ≠ shopTradeLegacyPayloadVersion then some payload
  else if payload.action = .buyProduced then none
  else if payload.action = .buyExisting then
    match payload.items.find? (fun item => item.itemUid == payload.selectedItemUid) with
    | none => none
    | some selected =>
        some { payload with
          stockItemUid := selected.itemUid
          expectedStockItemRevision := selected.expectedItemRevision
          stockVnum := selected.vnum }
  else some payload

def shopTradeCommandDecodePayload (sha256 : Bytes → Vector UInt8 32) (command : CriticalCommand) :
    Option ShopTradePayload :=
  if command.type ≠ shopTradeCommandType ∨
      (command.payloadVersion ≠ shopTradePayloadVersion ∧
        command.payloadVersion ≠ shopTradePreviousPayloadVersion ∧
        command.payloadVersion ≠ shopTradeStockPayloadVersion ∧
        command.payloadVersion ≠ shopTradeLegacyPayloadVersion) then none
  else do
    let read ← whole (readShopTradePayload command.payloadVersion) command.payload
    let payload ← legacyStock command.payloadVersion read
    if payload.valid = false then none
    else
      let expected ← shopTradeCommandBuild sha256 command.operationId payload command.sourceSite
        command.deadlineClass
      if matchingFences expected command then some payload else none

end Decode

end Duris.Economy
