import Duris.Economy.ShopTradeCommand
import Duris.Flatfile.ItemCustody

/-!
# Shop trades over the catalogue

`flatfile_item_repository_prepare_shop_trade` of
`src/flatfile/flatfile_item_repository.c`: a trade is put as an item transfer between
the player, the shop and the system, and `apply_transfer` carries it out.
-/

namespace Duris.Flatfile.Ownership

open Persistence Player Item Economy

structure ItemShopTradeMutation where
  playerOwnerRevision : BitVec 64
  counterpartyOwnerRevision : BitVec 64
  itemUids : List (BitVec 64)
  itemRevisions : List (BitVec 64)

def shopOwner (shopId : BitVec 32) : ItemOwnerIdentity :=
  ⟨ItemOwnerType.shopkeeper, shopkeeperOwnerId shopId, 0⟩

/-- `{ item_owner_type::system, 0, 0 }`. -/
def systemOwner : ItemOwnerIdentity := ⟨ItemOwnerType.system, 0, 0⟩

/-- The stock a produced item is made after is still on the shelf. -/
def stockMatches (catalog : OwnershipCatalog) (payload : ShopTradePayload) : Bool :=
  match findRow catalog payload.stockItemUid with
  | none => false
  | some stock =>
      stock.rootItemUid == stock.itemUid && stock.parentItemUid == 0 &&
        itemOwnerIdentityEqual stock.owner (shopOwner payload.shopId) &&
        stock.itemRevision == payload.expectedStockItemRevision &&
        stock.vnum == payload.stockVnum && stock.state == ItemCustodyState.active

def tradeEnds (payload : ShopTradePayload) :
    Option (ItemOwnerIdentity × ItemOwnerIdentity × ItemTransferReason) :=
  let player := playerOwner payload.playerPid
  let shop := shopOwner payload.shopId
  match payload.action with
  | .buyExisting => some (shop, player, ItemTransferReason.shopBuy)
  | .buyProduced => some (systemOwner, player, ItemTransferReason.creation)
  | .sellStore => some (player, shop, ItemTransferReason.shopSell)
  | .sellDestroy => some (player, destructionOwner, ItemTransferReason.destruction)
  | .discardInvalid => some (shop, destructionOwner, ItemTransferReason.destruction)
  | .unknown => none

def ensureTradeOwner (catalog : OwnershipCatalog) (payload : ShopTradePayload) :
    Option OwnershipCatalog :=
  match payload.action with
  | .buyProduced => ensureOwner catalog systemOwner
  | .sellDestroy | .discardInvalid => ensureOwner catalog destructionOwner
  | _ => some catalog

def tradeTransfer (payload : ShopTradePayload) (fromOwner toOwner : ItemOwnerIdentity)
    (reason : ItemTransferReason) (expectedFromRevision expectedToRevision : BitVec 64) :
    ItemTransferPayload :=
  { fromOwner, toOwner, reason
    reasonId := payload.shopId.setWidth 64
    expectedFromRevision, expectedToRevision
    selectedItemUid := payload.selectedItemUid
    targetRootItemUid :=
      if payload.targetRootItemUid ≠ 0 then payload.targetRootItemUid
      else payload.selectedItemUid
    targetParentItemUid := payload.targetParentItemUid
    expectedTargetParentRevision := payload.expectedTargetParentRevision
    multiRoot := false
    items := payload.items
    itemBlob := []
    corpse := {}
    collector := {} }

def prepareShopTrade (sha256 : Bytes → Vector UInt8 32) (catalog : OwnershipCatalog)
    (payload : ShopTradePayload) : Except CustodyRefusal (Staged ItemShopTradeMutation) :=
  let player := playerOwner payload.playerPid
  let shop := shopOwner payload.shopId
  if payload.encodable = false then .error .invalid
  else if (findOwner catalog player).isNone = true ∨ (findOwner catalog shop).isNone = true then
    .error (.code estale)
  else if payload.action = .buyProduced ∧ stockMatches catalog payload = false then
    .error (.code estale)
  else
    match tradeEnds payload, ensureTradeOwner catalog payload with
    | none, _ => .error .invalid
    | some _, none => .error .ioError
    | some (fromOwner, toOwner, reason), some catalog =>
        match findOwner catalog fromOwner, findOwner catalog toOwner with
        | some fromState, some toState =>
            let attempt := applyTransfer catalog
              (tradeTransfer payload fromOwner toOwner reason fromState.revision toState.revision)
            if attempt.code ≠ 0 then .error (.code attempt.code)
            else
              let counterparty :=
                if payload.action = .buyProduced then systemOwner
                else if payload.action = .sellDestroy ∨ payload.action = .discardInvalid then
                  destructionOwner
                else shop
              let customer := if payload.action = .discardInvalid then shop else player
              let itemUids := payload.items.map ItemTransferEntry.itemUid
              let rows := itemUids.filterMap (findRow attempt.catalog)
              if (findOwner attempt.catalog customer).isNone = true ∨
                  (findOwner attempt.catalog counterparty).isNone = true ∨
                  rows.length ≠ itemUids.length ∨
                  attempt.catalog.revision = BitVec.allOnes 64 then .error .invalid
              else
                stage sha256 attempt.catalog
                  { playerOwnerRevision := ownerRevision attempt.catalog customer
                    counterpartyOwnerRevision := ownerRevision attempt.catalog counterparty
                    itemUids
                    itemRevisions := rows.map FlatfileItemOwnershipRecord.itemRevision }
        | _, _ => .error .invalid

end Duris.Flatfile.Ownership
