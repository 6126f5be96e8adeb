import Duris.Economy.CollectorWire

/-!
# Auction commands on the wire

`auction_command_encode_payload` and `auction_command_build` of
`src/economy/auction_command.c`. The decoder is with the payload.
-/

namespace Duris.Economy

open Persistence
open Flatfile.Ownership (AuctionItemEntry)

/-- What stands before the rows, their number last. -/
def encodeAuctionHeader (payload : AuctionCommandPayload) : Bytes :=
  appendLe payload.action.code ++ appendLe payload.actorPid ++ appendLe payload.auctionId ++
    appendLe payload.racewar ++ appendLe payload.expectedWalletRevision ++
    appendLe payload.expectedBankRevision ++ appendLe payload.value ++
    appendLe payload.startPrice ++ appendLe payload.buyPrice ++ appendLe payload.listingFee ++
    appendLe payload.closingFeeBasisPoints ++ appendLe payload.bidExtensionSeconds ++
    appendLe payload.endTime ++ appendLe (BitVec.ofNat 16 payload.items.length)

def encodeAuctionItem (item : AuctionItemEntry) : Bytes :=
  appendLe item.itemUid ++ appendLe item.expectedItemRevision ++ appendLe item.vnum

def auctionCommandEncodePayload (payload : AuctionCommandPayload) : Option Bytes :=
  if validPayload payload = false then none
  else do
    let accountName ← appendString (currencyAccountNameMaxBytes + 1) payload.accountName
    let actorName ← appendString (auctionNameMaxBytes + 1) payload.actorName
    let objectShort ← appendString (auctionShortMaxBytes + 1) payload.objectShort
    let idKeywords ← appendString (auctionKeywordsMaxBytes + 1) payload.idKeywords
    let objectInfo ← appendString (auctionInfoMaxBytes + 1) payload.objectInfo
    let encoded := encodeAuctionHeader payload ++ payload.items.flatMap encodeAuctionItem ++
      accountName ++ actorName ++ objectShort ++ idKeywords ++ objectInfo ++
      appendLe (BitVec.ofNat 32 payload.objectBlob.length) ++ payload.objectBlob
    if criticalCommandMaxPayloadBytes < encoded.length then none else some encoded

def auctionCommandBuild (sha256 : Bytes → Vector UInt8 32) (operationId : CriticalOperationId)
    (payload : AuctionCommandPayload) (sourceSite : CriticalSourceSite)
    (deadlineClass : CriticalDeadlineClass) : Option CriticalCommand :=
  if validPayload payload = false then none
  else do
    let encoded ← auctionCommandEncodePayload payload
    let fences ← builtFences sha256 operationId payload
    return {
      schemaVersion := criticalCommandSchemaVersion
      operationId := operationId
      type := CriticalCommandType.auction
      payloadVersion := auctionCommandPayloadVersion
      sourceSite := sourceSite
      deadlineClass := deadlineClass
      acceptedAtUsec := 0
      keys := fences.1
      expectedRevisions := fences.2
      payload := encoded }

end Duris.Economy
