import Duris.Economy.CurrencyCommand
import Duris.Item.TransferCommand

/-!
# Shop trades

The payload of `src/economy/shop_trade_command.c` and its check: one tree bought from a
shop, produced by it, sold to it or thrown away. `items` stands for the array and its
count, `itemBlob` for the blob and its size.
-/

namespace Duris.Economy

open Persistence Player Item

inductive ShopTradeAction where
  | unknown | buyExisting | buyProduced | sellStore | sellDestroy | discardInvalid
  deriving DecidableEq

def shopTradeMaxItems : Nat := itemTransferLegacyMaxItems
def shopTradeItemBlobMaxBytes : Nat := 128 * 1024

structure ShopTradePayload where
  action : ShopTradeAction
  playerPid : BitVec 32
  shopId : BitVec 32
  racewar : BitVec 8
  accountName : Vector UInt8 51
  price : BitVec 64
  expectedWalletRevision : BitVec 64
  expectedBankRevision : BitVec 64
  expectedShopRevision : BitVec 64
  selectedItemUid : BitVec 64
  targetRootItemUid : BitVec 64
  targetParentItemUid : BitVec 64
  expectedTargetParentRevision : BitVec 64
  stockItemUid : BitVec 64
  expectedStockItemRevision : BitVec 64
  stockVnum : BitVec 32
  items : List ItemTransferEntry
  itemBlob : Bytes

def shopkeeperOwnerId (shopId : BitVec 32) : BitVec 64 := shopId.setWidth 64 + 1

namespace ShopTradePayload

variable (payload : ShopTradePayload)

def creation : Bool := payload.action == .buyProduced

def cleanup : Bool := payload.action == .discardInvalid

def purchase : Bool := payload.action == .buyExisting || payload.action == .buyProduced

/-- The price: none for what is thrown away, some for what is sold. -/
def validPrice : Bool :=
  decide (0 ≤ payload.price.toInt ∧ payload.price.toInt ≤ int32Max) &&
    if payload.cleanup then payload.price == 0
    else payload.purchase || payload.price != 0

/-- Only what is produced may go into something. -/
def validTarget : Bool :=
  payload.targetRootItemUid != 0 &&
    if payload.targetParentItemUid ≠ 0 then
      payload.creation && payload.targetRootItemUid != payload.selectedItemUid &&
        payload.expectedTargetParentRevision != 0
    else
      payload.targetRootItemUid == payload.selectedItemUid &&
        payload.expectedTargetParentRevision == 0

/-- The stock a produced item is made after, and the stock a bought or discarded one is. -/
def validStock : Bool :=
  if payload.creation then
    payload.stockItemUid != 0 && payload.stockItemUid != payload.selectedItemUid &&
      payload.expectedStockItemRevision != 0 &&
      payload.expectedStockItemRevision != itemTransferAbsentRevision &&
      decide (0 < payload.stockVnum.toInt)
  else if payload.action = .buyExisting ∨ payload.cleanup = true then
    payload.stockItemUid == payload.selectedItemUid && payload.expectedStockItemRevision != 0 &&
      decide (0 < payload.stockVnum.toInt)
  else
    payload.stockItemUid == 0 && payload.expectedStockItemRevision == 0 && payload.stockVnum == 0

/-- One row: absent when it is produced, active otherwise, and the selected one is the
root. -/
def validItem (item : ItemTransferEntry) : Bool :=
  item.itemUid != 0 && item.rootItemUid == payload.selectedItemUid &&
    decide (0 < item.vnum.toInt) &&
    !(payload.creation && item.itemUid == payload.stockItemUid) &&
    item.expectedState ==
      (if payload.creation then ItemCustodyState.absent else ItemCustodyState.active) &&
    (if payload.creation then item.expectedItemRevision == itemTransferAbsentRevision
      else item.expectedItemRevision != 0 &&
        item.expectedItemRevision != itemTransferAbsentRevision) &&
    item.itemUid != payload.targetParentItemUid &&
    if item.itemUid = payload.selectedItemUid then item.parentItemUid == 0
    else item.parentItemUid != 0

/-- The stock has the vnum of the root, and its revision when it is the root. -/
def validRoot (root : ItemTransferEntry) : Bool :=
  if payload.creation = true ∨ payload.action = .buyExisting ∨ payload.cleanup = true then
    payload.stockVnum == root.vnum &&
      (payload.creation || payload.expectedStockItemRevision == root.expectedItemRevision)
  else true

def valid : Bool :=
  payload.action != .unknown && payload.playerPid != 0 &&
    (validName payload.accountName.toList).isSome && payload.validPrice &&
    payload.expectedShopRevision != 0 && payload.selectedItemUid != 0 &&
    !payload.items.isEmpty && decide (payload.items.length ≤ shopTradeMaxItems) &&
    !payload.itemBlob.isEmpty && decide (payload.itemBlob.length ≤ shopTradeItemBlobMaxBytes) &&
    payload.validTarget && payload.validStock && payload.items.all payload.validItem &&
    ascending payload.items &&
    (match payload.items.find? (fun item => item.itemUid == payload.selectedItemUid) with
      | none => false
      | some root => payload.validRoot root) &&
    payload.items.all fun item =>
      item.itemUid == payload.selectedItemUid ||
        reachesRoot payload.items payload.selectedItemUid payload.items.length
          item.parentItemUid

/-- `shop_trade_command_encode_payload` accepts the payload: 97 bytes of fields, the name,
37 bytes a row, the size of the blob and the blob. -/
def encodable : Bool :=
  payload.valid &&
    decide (101 + (cString payload.accountName.toList).length + payload.items.length * 37 +
      payload.itemBlob.length ≤ criticalCommandMaxPayloadBytes)

end ShopTradePayload

end Duris.Economy
