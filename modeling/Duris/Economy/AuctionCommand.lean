import Duris.Flatfile.ItemCustody

/-!
# Auction commands

`src/economy/auction_command.{h,c}`: the payload of a command on an auction, its layout and the
fences a command must carry for it. Arrays and their counts are
lists; a text is the bytes of its array that the payload fills, so what the source reads
through `data()` is `cString` of it. An encoding of an accepted payload is at most 42 KiB
long, hence the build inside the decoder never fails for its size.
-/

namespace Duris.Economy

open Persistence
open Flatfile.Ownership (AuctionItemEntry auctionCommandMaxItems)
open Player (getLe)

def auctionCommandPayloadVersion : BitVec 16 := 1
def auctionNameMaxBytes : Nat := 32
def auctionShortMaxBytes : Nat := 255
def auctionKeywordsMaxBytes : Nat := 1024
def auctionInfoMaxBytes : Nat := 8192
def auctionBlobMaxBytes : Nat := 32768

inductive AuctionAction where
  | list
  | bid
  | finalize
  | claimMoney
  | claimItem
  | remove
  deriving DecidableEq

def AuctionAction.code : AuctionAction → BitVec 8
  | .list => 1
  | .bid => 2
  | .finalize => 3
  | .claimMoney => 4
  | .claimItem => 5
  | .remove => 6

/-- The action of a byte; `unknown` and what is past `remove` are refused. -/
def AuctionAction.ofCode (code : BitVec 8) : Option AuctionAction :=
  if code = 1 then some .list
  else if code = 2 then some .bid
  else if code = 3 then some .finalize
  else if code = 4 then some .claimMoney
  else if code = 5 then some .claimItem
  else if code = 6 then some .remove
  else none

structure AuctionCommandPayload where
  action : AuctionAction
  actorPid : BitVec 32
  auctionId : BitVec 32
  racewar : BitVec 8
  accountName : Bytes
  actorName : Bytes
  expectedWalletRevision : BitVec 64
  expectedBankRevision : BitVec 64
  value : BitVec 64
  startPrice : BitVec 64
  buyPrice : BitVec 64
  listingFee : BitVec 64
  closingFeeBasisPoints : BitVec 32
  bidExtensionSeconds : BitVec 32
  endTime : BitVec 64
  items : List AuctionItemEntry
  objectBlob : Bytes
  objectShort : Bytes
  idKeywords : Bytes
  objectInfo : Bytes

/-- `valid_payload`, for an action that is one. -/
def validPayload (payload : AuctionCommandPayload) : Bool :=
  decide (payload.items.length ≤ auctionCommandMaxItems) &&
    decide (payload.objectBlob.length < auctionBlobMaxBytes) &&
    !((payload.action == .list || payload.action == .claimItem) && payload.items.isEmpty) &&
    !(payload.action != .finalize && payload.action != .remove && payload.actorPid == 0) &&
    !(payload.action != .list && payload.auctionId == 0 && payload.action != .claimMoney) &&
    !(payload.actorPid != 0 && (cString payload.accountName).isEmpty) &&
    payload.items.all fun item => item.itemUid != 0 && decide (0 ≤ item.vnum.toInt)

/-- `listing_key`: the first eight bytes of the operation, never zero. -/
def listingKey (operationId : CriticalOperationId) : BitVec 64 :=
  let key := getLe 64 operationId.bytes 0
  if key = 0 then 1 else key

/-- The keys and revisions `auction_command_build` sorts. -/
def auctionFences (sha256 : Bytes → Vector UInt8 32) (operationId : CriticalOperationId)
    (payload : AuctionCommandPayload) :
    Option (List CriticalEntityKey × List CriticalExpectedRevision) := do
  let auction : CriticalEntityKey :=
    ⟨CriticalEntityType.auction,
      if payload.auctionId ≠ 0 then payload.auctionId.setWidth 64 else listingKey operationId⟩
  let items := payload.items.map fun item : AuctionItemEntry =>
    (⟨⟨CriticalEntityType.item, item.itemUid⟩, item.expectedItemRevision⟩ :
      CriticalExpectedRevision)
  let itemKeys := items.map CriticalExpectedRevision.key
  if payload.actorPid = 0 then return (auction :: itemKeys, items)
  else
    let player : CriticalEntityKey :=
      ⟨CriticalEntityType.player, payload.actorPid.setWidth 64⟩
    let account ← currencyAccountKey sha256 payload.accountName payload.racewar
    return (player :: account :: auction :: itemKeys,
      ⟨player, payload.expectedWalletRevision⟩ :: ⟨account, payload.expectedBankRevision⟩ ::
        items)

/-- The sorted keys and revisions of the command `auction_command_build` builds; none when
two keys are equal. -/
def builtFences (sha256 : Bytes → Vector UInt8 32) (operationId : CriticalOperationId)
    (payload : AuctionCommandPayload) :
    Option (List CriticalEntityKey × List CriticalExpectedRevision) := do
  let fences ← auctionFences sha256 operationId payload
  let keys := fences.1.mergeSort fun a b => !criticalEntityKeyLess b a
  if adjacentEqual keys then none
  else
    return (keys, fences.2.mergeSort fun a b => !criticalEntityKeyLess b.key a.key)

section Decode

open Reader

/-- `read_string`, into an array of that many bytes. -/
def readString (size : Nat) : Reader Unit Bytes := do
  let length ← field () 16
  require (length.toNat < size) ()
  let value ← raw () length.toNat
  return value.1

def readItem : Reader Unit AuctionItemEntry := do
  let itemUid ← field () 64
  let expectedItemRevision ← field () 64
  let vnum ← field () 32
  return { itemUid, expectedItemRevision, vnum }

/-- The reads of `auction_command_decode_payload`, before it checks the payload. -/
def readAuctionPayload : Reader Unit AuctionCommandPayload := do
  let actionCode ← field () 8
  let actorPid ← field () 32
  let auctionId ← field () 32
  let racewar ← field () 8
  let expectedWalletRevision ← field () 64
  let expectedBankRevision ← field () 64
  let value ← field () 64
  let startPrice ← field () 64
  let buyPrice ← field () 64
  let listingFee ← field () 64
  let closingFeeBasisPoints ← field () 32
  let bidExtensionSeconds ← field () 32
  let endTime ← field () 64
  let itemCount ← field () 16
  require (itemCount.toNat ≤ auctionCommandMaxItems) ()
  let items ← many readItem itemCount.toNat
  let accountName ← readString (currencyAccountNameMaxBytes + 1)
  let actorName ← readString (auctionNameMaxBytes + 1)
  let objectShort ← readString (auctionShortMaxBytes + 1)
  let idKeywords ← readString (auctionKeywordsMaxBytes + 1)
  let objectInfo ← readString (auctionInfoMaxBytes + 1)
  let objectBlobSize ← field () 32
  require (objectBlobSize.toNat ≤ auctionBlobMaxBytes) ()
  let objectBlob ← raw () objectBlobSize.toNat
  let action ← ofOption () (AuctionAction.ofCode actionCode)
  return { action, actorPid, auctionId, racewar, accountName, actorName,
           expectedWalletRevision, expectedBankRevision, value, startPrice, buyPrice,
           listingFee, closingFeeBasisPoints, bidExtensionSeconds, endTime, items,
           objectBlob := objectBlob.1, objectShort, idKeywords, objectInfo }

def auctionCommandDecodePayload (sha256 : Bytes → Vector UInt8 32) (command : CriticalCommand) :
    Option AuctionCommandPayload :=
  if command.type ≠ CriticalCommandType.auction ∨
      command.payloadVersion ≠ auctionCommandPayloadVersion then none
  else do
    let payload ← whole readAuctionPayload command.payload
    if validPayload payload = false then none
    else if builtFences sha256 command.operationId payload =
        some (command.keys, command.expectedRevisions) then some payload
    else none

end Decode

end Duris.Economy
