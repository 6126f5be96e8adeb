import Duris.Lib.Sha256
import Duris.Proofs.AuctionWire
import Duris.Proofs.CombatOutcome
import Duris.Proofs.ShopTradeWire

/-!
# Three formats with texts

Shop trades, auctions and combat outcomes are built, normalised, stored and decoded. What
was built comes back. What was not, but is accepted, is the encoding of what it decodes to
unless one of its texts has a zero byte on the wire: the texts of all three are C strings
in memory, and none of the decoders compares a stored length with the length of the string.
-/

namespace Duris.Economy

open Persistence Player Item Combat

/-- For each of the three families: a built command, as it is and as it is once it is
stamped and normalised, decodes to the payload it was built from, each text cut at its
first zero; and an accepted command of the current version is what the encoder makes of
its payload exactly when none of its texts has a zero byte on the wire. -/
theorem command_payloads_canonical (sha256 : Bytes → Vector UInt8 32) :
    ((∀ operationId payload sourceSite deadlineClass command,
        shopTradeCommandBuild sha256 operationId payload sourceSite deadlineClass =
          some command →
        DecodesTo (shopTradeCommandDecodePayload sha256) command (shopClearedName payload)) ∧
      ∀ command payload, command.payloadVersion = shopTradePayloadVersion →
        shopTradeCommandDecodePayload sha256 command = some payload →
        (shopTradeCommandEncodePayload payload = some command.payload ↔
          ∀ text ∈ shopWireTexts command.payload, 0 ∉ text)) ∧
    ((∀ operationId payload sourceSite deadlineClass command,
        auctionCommandBuild sha256 operationId payload sourceSite deadlineClass =
          some command →
        DecodesTo (auctionCommandDecodePayload sha256) command (cutTexts payload)) ∧
      ∀ command payload, auctionCommandDecodePayload sha256 command = some payload →
        (auctionCommandEncodePayload payload = some command.payload ↔
          ∀ text ∈ auctionWireTexts command.payload, 0 ∉ text)) ∧
    (∀ operationId payload command,
        combatOutcomeCommandBuild sha256 operationId payload = some command →
        DecodesTo (combatOutcomeCommandDecodePayload sha256) command (cutOutcome payload)) ∧
      ∀ command payload, combatOutcomeCommandDecodePayload sha256 command = some payload →
        (combatOutcomeCommandEncodePayload payload = some command.payload ↔
          ∀ text ∈ outcomeWireTexts command.payload, 0 ∉ text) :=
  ⟨⟨fun _ _ _ _ _ => shopTrade_decodesTo, fun _ _ => shopTrade_respelled_iff⟩,
    ⟨fun _ _ _ _ _ => auction_decodesTo, fun _ _ => auction_respelled_iff⟩,
    fun _ _ _ => outcome_decodesTo, fun _ _ => outcome_respelled_iff⟩

def tradeOperation : CriticalOperationId := ⟨List.replicate 16 9, List.length_replicate⟩

def shopSale : ShopTradePayload where
  action := .sellStore
  playerPid := 5
  shopId := 3
  racewar := 1
  accountName := nameArray [97]
  price := 20
  expectedWalletRevision := 1
  expectedBankRevision := 1
  expectedShopRevision := 1
  selectedItemUid := 10
  targetRootItemUid := 10
  targetParentItemUid := 0
  expectedTargetParentRevision := 0
  stockItemUid := 0
  expectedStockItemRevision := 0
  stockVnum := 0
  items := [{
    itemUid := 10, rootItemUid := 10, parentItemUid := 0, expectedItemRevision := 1, vnum := 3,
    expectedState := ItemCustodyState.active }]
  itemBlob := [1]

def auctionClosure : AuctionCommandPayload where
  action := .finalize
  actorPid := 0
  auctionId := 5
  racewar := 0
  accountName := []
  actorName := []
  expectedWalletRevision := 0
  expectedBankRevision := 0
  value := 0
  startPrice := 0
  buyPrice := 0
  listingFee := 0
  closingFeeBasisPoints := 0
  bidExtensionSeconds := 0
  endTime := 0
  items := []
  objectBlob := []
  objectShort := []
  idKeywords := []
  objectInfo := []

/-- A death without a killer, in a room of that name. -/
def lonelyDeath (roomName : Bytes) : CombatOutcomePayload where
  victimPid := 7
  roomVnum := 3001
  roomName := roomName
  participants := [{
    pid := 7, role := .victim, flags := 0, level := 1, racewar := 0, fragDelta := 0, epicDelta := 0,
    walletDeltaCopper := 0, expectedFragRevision := 1, expectedEpicRevision := 0,
    expectedWalletRevision := 0, expectedBankRevision := 0, accountName := [], description := [] }]

theorem shopSale_built : ∃ command,
    shopTradeCommandBuild Sha256.hash tradeOperation shopSale
      CriticalSourceSite.command CriticalDeadlineClass.interactive = some command := by
  obtain ⟨encoded, hencoded⟩ : ∃ encoded, shopTradeCommandEncodePayload shopSale = some encoded :=
    Option.isSome_iff_exists.mp (by decide +kernel)
  obtain ⟨fences, hfences, hnodup⟩ : ∃ fences,
      shopTradeFences Sha256.hash shopSale = some fences ∧
        (fences.map CriticalExpectedRevision.key).Nodup := by
    have hbuilt : ((shopTradeFences Sha256.hash shopSale).any fun fences =>
        (fences.map CriticalExpectedRevision.key).Nodup) = true := by
      decide +kernel
    obtain ⟨fences, hfences, hnodup⟩ := (Option.any_eq_true _ _).mp hbuilt
    exact ⟨fences, hfences, of_decide_eq_true hnodup⟩
  have hdistinct := adjacentEqual_of_nodup
    ((List.mergeSort_perm (fences.map CriticalExpectedRevision.key)
      fun a b => !criticalEntityKeyLess b a).nodup_iff.mpr hnodup)
  unfold shopTradeCommandBuild
  rw [if_neg (by decide +kernel), hencoded, hfences]
  simp only [Option.bind_eq_bind, Option.bind_some, hdistinct, Bool.false_eq_true, if_false]
  exact ⟨_, rfl⟩

theorem auctionClosure_built : ∃ command,
    auctionCommandBuild Sha256.hash tradeOperation auctionClosure
      CriticalSourceSite.command CriticalDeadlineClass.interactive = some command := by
  obtain ⟨encoded, hencoded⟩ : ∃ encoded,
      auctionCommandEncodePayload auctionClosure = some encoded :=
    Option.isSome_iff_exists.mp (by decide +kernel)
  have hfences : builtFences Sha256.hash tradeOperation auctionClosure =
      some ([⟨CriticalEntityType.auction, 5⟩], []) := by
    simp [builtFences, auctionFences, auctionClosure, adjacentEqual]
  unfold auctionCommandBuild
  rw [if_neg (by decide +kernel), hencoded, hfences]
  exact ⟨_, rfl⟩

theorem lonelyDeath_built : ∃ command,
    combatOutcomeCommandBuild Sha256.hash tradeOperation (lonelyDeath []) =
      some command := by
  obtain ⟨encoded, hencoded⟩ : ∃ encoded,
      combatOutcomeCommandEncodePayload (lonelyDeath []) = some encoded :=
    Option.isSome_iff_exists.mp (by decide +kernel)
  have hfences : combatFences Sha256.hash (lonelyDeath []) =
      some [⟨⟨CriticalEntityType.player, 7⟩, 1⟩] := rfl
  unfold combatOutcomeCommandBuild
  rw [if_neg (by decide +kernel), hencoded, hfences]
  simp only [Option.bind_eq_bind, Option.bind_some, List.map_cons, List.map_nil,
    List.mergeSort_singleton, List.length_singleton, criticalCommandMaxKeys]
  exact ⟨_, rfl⟩

/-- The three commands come back, and their payloads byte for byte. -/
theorem command_payloads_canonical_built :
    (∃ command,
      DecodesTo (shopTradeCommandDecodePayload Sha256.hash) command
          (shopClearedName shopSale) ∧
        shopTradeCommandEncodePayload (shopClearedName shopSale) = some command.payload) ∧
    (∃ command,
      DecodesTo (auctionCommandDecodePayload Sha256.hash) command
          (cutTexts auctionClosure) ∧
        auctionCommandEncodePayload (cutTexts auctionClosure) = some command.payload) ∧
    ∃ command,
      DecodesTo (combatOutcomeCommandDecodePayload Sha256.hash) command
          (cutOutcome (lonelyDeath [])) ∧
        combatOutcomeCommandEncodePayload (cutOutcome (lonelyDeath [])) = some command.payload := by
  obtain ⟨⟨hshop, hshopBytes⟩, ⟨hauction, hauctionBytes⟩, houtcome, houtcomeBytes⟩ :=
    command_payloads_canonical Sha256.hash
  refine ⟨?_, ?_, ?_⟩
  · obtain ⟨command, hbuild⟩ := shopSale_built
    have hbuilt := shopTradeCommandBuild_eq_some hbuild
    have hdecodes := hshop _ _ _ _ _ hbuild
    have htexts : (shopTradeCommandEncodePayload shopSale).map shopWireTexts = some [[97]] := by
      decide +kernel
    rw [hbuilt.encoded] at htexts
    refine ⟨command, hdecodes,
      (hshopBytes command _ hbuilt.payloadVersion hdecodes.1).mpr fun text htext => ?_⟩
    rw [Option.some.inj htexts, List.mem_singleton] at htext
    rw [htext]
    decide
  · obtain ⟨command, hbuild⟩ := auctionClosure_built
    have hdecodes := hauction _ _ _ _ _ hbuild
    have htexts : (auctionCommandEncodePayload auctionClosure).map auctionWireTexts =
        some [[], [], [], [], []] := by
      decide +kernel
    rw [auctionCommandBuild_encoded hbuild] at htexts
    refine ⟨command, hdecodes, (hauctionBytes command _ hdecodes.1).mpr fun text htext => ?_⟩
    rw [Option.some.inj htexts] at htext
    simp only [List.mem_cons, List.not_mem_nil, or_false, or_self] at htext
    rw [htext]
    decide
  · obtain ⟨command, hbuild⟩ := lonelyDeath_built
    have hbuilt := combatOutcomeCommandBuild_eq_some hbuild
    have hdecodes := houtcome _ _ _ hbuild
    have htexts : (combatOutcomeCommandEncodePayload (lonelyDeath [])).map outcomeWireTexts =
        some [[], [], []] := by
      decide +kernel
    rw [hbuilt.encoded] at htexts
    refine ⟨command, hdecodes, (houtcomeBytes command _ hdecodes.1).mpr fun text htext => ?_⟩
    rw [Option.some.inj htexts] at htext
    simp only [List.mem_cons, List.not_mem_nil, or_false, or_self] at htext
    rw [htext]
    decide

/-- A death in a room whose name is one zero byte on the wire is accepted, and its payload is
not encoded to its own bytes: the room has no name then. -/
theorem zero_room_name_not_canonical : ∃ command,
    combatOutcomeCommandDecodePayload Sha256.hash command =
        some (lonelyDeath [0]) ∧
      command.payloadVersion = combatOutcomePayloadVersion ∧
      (outcomeWireTexts command.payload).head? = some [0] ∧
      combatOutcomeCommandEncodePayload (lonelyDeath [0]) ≠ some command.payload := by
  obtain ⟨built, hbuild⟩ := lonelyDeath_built
  have hbuilt := combatOutcomeCommandBuild_eq_some hbuild
  have hread : Reader.whole readOutcome (outcomeWire (lonelyDeath [0])) =
      some (lonelyDeath [0]) := by
    decide +kernel
  have hrebuilt : combatOutcomeCommandBuild Sha256.hash tradeOperation
      (lonelyDeath [0]) = some built := by
    rw [← combatOutcomeCommandBuild_cut, ← hbuild]
    rfl
  have htexts : (outcomeWireTexts (outcomeWire (lonelyDeath [0]))).head? = some [0] := by
    decide +kernel
  have hother : combatOutcomeCommandEncodePayload (lonelyDeath [0]) ≠
      some (outcomeWire (lonelyDeath [0])) := by
    decide +kernel
  refine ⟨{ built with payload := outcomeWire (lonelyDeath [0]) }, ?_, hbuilt.payloadVersion,
    htexts, hother⟩
  unfold combatOutcomeCommandDecodePayload
  rw [if_neg (by simp [hbuilt.type, hbuilt.payloadVersion])]
  simp only [hread, hbuilt.operation, hrebuilt, matchingFences, Option.bind_eq_bind,
    Option.bind_some, show validOutcome (lonelyDeath [0]) = true by decide +kernel]
  simp

end Duris.Economy
