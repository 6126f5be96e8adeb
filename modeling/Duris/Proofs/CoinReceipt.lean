import Duris.Proofs.JournalScan
import Duris.Proofs.ReceiptFidelity

/-!
# What becomes of a stale coin receipt

The bytes of a stale rejection are read back against the failure stage: it names the
endpoint, says which halves are reported, and has to agree with the header of the bytes.
Under the stage they were encoded for they are read back as they were, the live wallet or
bank is brought up to them and the callback is told of a rejection. Under no stage they
are bytes nobody expects.
-/

namespace Duris.Economy

open Persistence
open Player (getLe getLe_here getLe_skip)

/-! ## Balances and their bytes -/

theorem getLe_flatMap (amounts : List (BitVec 64)) (back : Bytes) :
    ∀ (index : Nat) (h : index < amounts.length),
      getLe 64 (amounts.flatMap appendLe ++ back) (index * 8) = amounts[index] := by
  induction amounts with
  | nil => intro index h; cases h
  | cons amount amounts ih =>
      intro index h
      rw [List.flatMap_cons, List.append_assoc]
      cases index with
      | zero => rw [Nat.zero_mul]; exact getLe_here amount _
      | succ index =>
          rw [List.length_cons] at h
          rw [getLe_skip _ (by rw [appendLe_length]; omega), appendLe_length,
            List.getElem_cons_succ, ← ih index (by omega)]
          congr 1
          omega

theorem encodeVector_length (vector : CurrencyVector) : (encodeVector vector).length = 32 := by
  unfold encodeVector
  rw [List.length_flatMap]
  simp

theorem decodeVector_append (front : Bytes) (vector : CurrencyVector) (back : Bytes) :
    decodeVector (front ++ (encodeVector vector ++ back)) front.length = vector := by
  unfold decodeVector
  congr 1
  ext index hindex
  rw [Vector.getElem_ofFn]
  rw [getLe_skip _ (Nat.le_add_right _ _), Nat.add_sub_cancel_left, encodeVector,
    getLe_flatMap _ _ index (by simpa using hindex)]
  simp

theorem currencyCommandEncodeResult_eq_some {result : CurrencyCommandResult} {encoded : Bytes}
    (h : currencyCommandEncodeResult result = some encoded) :
    encoded.length = currencyResultPayloadBytes ∧
      currencyCommandDecodeResult encoded = some result := by
  unfold currencyCommandEncodeResult at h
  split at h
  · next hvalid =>
      cases h
      have hlength : (encodeVector result.wallet ++ encodeVector result.bank ++
          appendLe result.walletRevision ++ appendLe result.bankRevision).length =
            currencyResultPayloadBytes := by
        simp [encodeVector_length, currencyResultPayloadBytes]
      have hbank := decodeVector_append (encodeVector result.wallet) result.bank
        (appendLe result.walletRevision ++ appendLe result.bankRevision)
      have hwalletRevision : getLe 64 (encodeVector result.wallet ++ (encodeVector result.bank ++
          (appendLe result.walletRevision ++ appendLe result.bankRevision))) 64 =
            result.walletRevision := by
        rw [getLe_skip _ (by rw [encodeVector_length]; omega), encodeVector_length,
          getLe_skip _ (by rw [encodeVector_length]), encodeVector_length]
        exact getLe_here _ _
      have hbankRevision : getLe 64 (encodeVector result.wallet ++ (encodeVector result.bank ++
          (appendLe result.walletRevision ++ appendLe result.bankRevision))) 72 =
            result.bankRevision := by
        rw [getLe_skip _ (by rw [encodeVector_length]; omega), encodeVector_length,
          getLe_skip _ (by rw [encodeVector_length]; omega), encodeVector_length,
          getLe_skip _ (by rw [appendLe_length]), appendLe_length,
          ← List.append_nil (appendLe result.bankRevision)]
        exact getLe_here _ _
      refine ⟨hlength, ?_⟩
      unfold currencyCommandDecodeResult
      rw [if_neg (by rw [hlength]; exact fun hne => hne rfl)]
      rw [encodeVector_length] at hbank
      simp only [List.append_assoc, hbank, hwalletRevision, hbankRevision]
      rw [show decodeVector (encodeVector result.wallet ++ (encodeVector result.bank ++
        (appendLe result.walletRevision ++ appendLe result.bankRevision))) 0 = result.wallet
        from decodeVector_append [] result.wallet _, if_pos hvalid]
  · cases h

/-! ## The stale result -/

section Stale

variable {payload : CoinTransferPayload} {failureStage : CriticalFailureStage}
  {destination walletStale bankStale : Bool}

theorem staleCurrencyEndpoint_eq_some (h : staleCurrencyEndpoint payload failureStage =
      some (destination, walletStale, bankStale)) :
    failureStage ≠ 0 ∧
      (payload.endpoint destination).change.type = CriticalCommandType.accountBank := by
  unfold staleCurrencyEndpoint at h
  dsimp only at h
  split at h
  · cases h
  · next hstage =>
      split at h
      · cases h
      · next htype =>
          obtain ⟨-, h⟩ := Option.ite_none_right_eq_some.mp h
          rw [Option.some.injEq, Prod.mk.injEq] at h
          obtain ⟨rfl, -⟩ := h
          simp only [not_or] at hstage
          exact ⟨hstage.2.1, not_not.mp htype⟩

theorem coinTransferCommandStaleResultExpected_none :
    coinTransferCommandStaleResultExpected payload .none = false := by
  unfold coinTransferCommandStaleResultExpected
  cases hendpoint : staleCurrencyEndpoint payload .none with
  | none => rfl
  | some found =>
      obtain ⟨destination, walletStale, bankStale⟩ := found
      exact absurd rfl (staleCurrencyEndpoint_eq_some hendpoint).1

/-- The wallet of the endpoint a stale result is about, as the repository read it. -/
def CoinTransferResult.wallet (result : CoinTransferResult) (destination : Bool) :
    CurrencyCommandResult :=
  if destination then result.destinationWallet else result.sourceWallet

def CoinTransferResult.stale (result : CoinTransferResult)
    (destination walletStale bankStale : Bool) : CoinTransferStaleResult :=
  { destination
    walletStale
    bankStale
    current := selectStale (result.wallet destination) walletStale bankStale }

theorem coinTransferCommandEncodeStaleResult_eq_some {result : CoinTransferResult} {bytes : Bytes}
    (h : coinTransferCommandEncodeStaleResult payload result failureStage = some bytes) :
    ∃ destination walletStale bankStale current,
      staleCurrencyEndpoint payload failureStage = some (destination, walletStale, bankStale) ∧
      currencyCommandEncodeResult (selectStale (result.wallet destination) walletStale
        bankStale) = some current ∧
      bytes = [coinTransferStaleResultVersion, if destination then 1 else 0,
        staleFlags walletStale bankStale] ++ current := by
  unfold coinTransferCommandEncodeStaleResult at h
  simp only [Option.bind_eq_bind, Option.bind_eq_some_iff, Option.pure_def,
    Option.some.injEq] at h
  obtain ⟨⟨destination, walletStale, bankStale⟩, hendpoint, current, hcurrent, rfl⟩ := h
  exact ⟨destination, walletStale, bankStale, current, hendpoint, hcurrent, rfl⟩

/-- The reported halves are newer than the endpoint expected, and within what a live
character can hold. -/
def NewerAuthority (payload : CoinTransferPayload) (result : CoinTransferResult)
    (failureStage : CriticalFailureStage) : Prop :=
  ∀ destination walletStale bankStale player account,
    staleCurrencyEndpoint payload failureStage = some (destination, walletStale, bankStale) →
    (payload.endpoint destination).change.expectedRevisions = [player, account] →
    (walletStale = true → newerAuthority (result.wallet destination).wallet
      (result.wallet destination).walletRevision player.revision = true) ∧
    (bankStale = true → newerAuthority (result.wallet destination).bank
      (result.wallet destination).bankRevision account.revision = true)

theorem staleBalancesValid_select {wallets : CurrencyCommandResult}
    {expectedWallet expectedBank : BitVec 64}
    (hwallet : walletStale = true →
      newerAuthority wallets.wallet wallets.walletRevision expectedWallet = true)
    (hbank : bankStale = true →
      newerAuthority wallets.bank wallets.bankRevision expectedBank = true) :
    staleBalancesValid (selectStale wallets walletStale bankStale) walletStale bankStale
      expectedWallet expectedBank = true := by
  have hnothing : unreported {} 0 = true := by decide
  unfold staleBalancesValid selectStale
  cases walletStale with
  | true =>
      cases bankStale with
      | true => simp only [if_true, hwallet rfl, hbank rfl, Bool.and_self]
      | false =>
          simp only [if_true, Bool.false_eq_true, if_false, hwallet rfl, hnothing, Bool.and_self]
  | false =>
      cases bankStale with
      | true =>
          simp only [if_true, Bool.false_eq_true, if_false, hbank rfl, hnothing, Bool.and_self]
      | false => simp only [Bool.false_eq_true, if_false, hnothing, Bool.and_self]

variable {sha256 : Bytes → Vector UInt8 32}

theorem currencyCommandDecodePayload_revisions {change : CriticalCommand}
    {wallet : CurrencyCommandPayload}
    (h : currencyCommandDecodePayload sha256 change = some wallet) :
    ∃ player account, change.expectedRevisions = [player, account] := by
  unfold currencyCommandDecodePayload at h
  split at h
  · cases h
  · dsimp only at h
    split at h
    · cases h
    · split at h
      · cases h
      · split at h
        · cases h
        · split at h
          · next hkeys =>
              have hlength := congrArg List.length hkeys.2
              rw [List.length_map] at hlength
              exact List.length_eq_two.mp hlength
          · cases h

theorem validateEndpoint_wallet {endpoint : CoinTransferEndpoint} {source : Bool}
    {identity : CriticalEntityKey} (h : validateEndpoint sha256 endpoint source = .ok identity)
    (htype : endpoint.change.type = CriticalCommandType.accountBank) :
    ∃ wallet, currencyCommandDecodePayload sha256 endpoint.change = some wallet := by
  unfold validateEndpoint at h
  dsimp only at h
  split at h
  · cases h
  · unfold validateWallet at h
    split at h
    · cases h
    · next wallet hwallet => exact ⟨wallet, hwallet⟩

theorem coinTransferCommandDecodeStaleResult_encode
    {identities : CriticalEntityKey × CriticalEntityKey} {result : CoinTransferResult}
    {bytes : Bytes} (hvalid : validatePayload sha256 payload = .ok identities)
    (hencoded : coinTransferCommandEncodeStaleResult payload result failureStage = some bytes)
    (hnewer : NewerAuthority payload result failureStage) :
    ∃ destination walletStale bankStale wallet player account,
      staleCurrencyEndpoint payload failureStage = some (destination, walletStale, bankStale) ∧
      currencyCommandDecodePayload sha256 (payload.endpoint destination).change = some wallet ∧
      (payload.endpoint destination).change.expectedRevisions = [player, account] ∧
      bytes.length = coinTransferStaleResultBytes ∧
      coinTransferCommandDecodeStaleResult sha256 payload failureStage bytes =
        some (result.stale destination walletStale bankStale) := by
  obtain ⟨destination, walletStale, bankStale, current, hendpoint, hcurrent, rfl⟩ :=
    coinTransferCommandEncodeStaleResult_eq_some hencoded
  obtain ⟨hsource, hdestination, -, -⟩ := validatePayload_eq_ok.mp hvalid
  have htype := (staleCurrencyEndpoint_eq_some hendpoint).2
  obtain ⟨wallet, hwallet⟩ : ∃ wallet, currencyCommandDecodePayload sha256
      (payload.endpoint destination).change = some wallet := by
    cases destination with
    | true => exact validateEndpoint_wallet hdestination htype
    | false => exact validateEndpoint_wallet hsource htype
  obtain ⟨player, account, hrevisions⟩ := currencyCommandDecodePayload_revisions hwallet
  obtain ⟨hlength, hdecode⟩ := currencyCommandEncodeResult_eq_some hcurrent
  have hnew := hnewer _ _ _ _ _ hendpoint hrevisions
  have hsize : ([coinTransferStaleResultVersion, if destination then 1 else 0,
      staleFlags walletStale bankStale] ++ current).length = coinTransferStaleResultBytes := by
    rw [List.length_append, hlength]
    rfl
  refine ⟨destination, walletStale, bankStale, wallet, player, account, hendpoint, hwallet,
    hrevisions, hsize, ?_⟩
  unfold coinTransferCommandDecodeStaleResult
  rw [if_neg (not_not.mpr hsize), hendpoint]
  dsimp only
  rw [if_neg (by simp)]
  simp only [List.cons_append, List.nil_append, List.drop_succ_cons, List.drop_zero, hdecode,
    hrevisions, hwallet]
  rw [if_neg]
  · rfl
  · simp [staleBalancesValid_select hnew.1 hnew.2]

end Stale

/-! ## The live projection -/

/-- The wallet and bank of a character after a stale receipt was taken in: the reported
halves, unless what was there is newer. -/
def Repaired (stale : CoinTransferStaleResult) (before after : Character) : Prop :=
  walletOf after = (if stale.walletStale then
    (walletOf before).accept (walletWrite stale.current) else walletOf before) ∧
  bankOf after = (if stale.bankStale then
    (bankOf before).accept (bankWrite stale.current) else bankOf before)

theorem repairWallet_spec {stale : CoinTransferStaleResult}
    (hrange : stale.walletStale = true → publishable stale.current.wallet = true) (world : World)
    (character : Option CharacterRef) :
    ∃ world', repairWallet world character stale = (true, world') ∧
      ∀ ref, character = some ref →
        walletOf (world'.character ref) = (if stale.walletStale then
          (walletOf (world.character ref)).accept (walletWrite stale.current)
          else walletOf (world.character ref)) ∧
        bankOf (world'.character ref) = bankOf (world.character ref) := by
  unfold repairWallet
  cases character with
  | none => exact ⟨world, rfl, fun ref href => by cases href⟩
  | some ref =>
      dsimp only
      split
      · next hstale =>
          obtain ⟨world', hpublish, -, hbank, hwallet, -⟩ :=
            publishWallet_spec (hrange hstale) world ref stale.current.walletRevision
          refine ⟨world', hpublish, fun other hother => ?_⟩
          cases hother
          exact ⟨hwallet, hbank⟩
      · refine ⟨world, rfl, fun other hother => ?_⟩
        cases hother
        exact ⟨rfl, rfl⟩

theorem repairBank_spec {stale : CoinTransferStaleResult}
    (hrange : stale.bankStale = true → publishable stale.current.bank = true) (world : World)
    (character : Option CharacterRef) (wallet : CurrencyCommandPayload) :
    ∃ world', repairBank world character wallet stale = (true, world') ∧
      ∀ ref, character = some ref →
        walletOf (world'.character ref) = walletOf (world.character ref) ∧
        bankOf (world'.character ref) = (if stale.bankStale then
          (bankOf (world.character ref)).accept (bankWrite stale.current)
          else bankOf (world.character ref)) := by
  unfold repairBank
  split
  · next hstale =>
      cases character with
      | none =>
          refine ⟨publishAccountBankBalancesRevision world wallet.accountName.toList wallet.racewar
            (liveCoins stale.current.bank) stale.current.bankRevision, ?_,
            fun ref href => by cases href⟩
          rw [publishBank, hrange hstale]
          rfl
      | some ref =>
          obtain ⟨world', hpublish, -, hwallet, hbank, -⟩ := publishBank_spec (hrange hstale) world
            ref wallet.accountName.toList wallet.racewar stale.current.bankRevision
          refine ⟨world', hpublish, fun other hother => ?_⟩
          cases hother
          exact ⟨hwallet, hbank⟩
  · refine ⟨world, rfl, fun ref _ => ⟨rfl, rfl⟩⟩

theorem newerAuthority_publishable {balances : CurrencyVector} {revision expected : BitVec 64}
    (h : newerAuthority balances revision expected = true) : publishable balances = true := by
  unfold newerAuthority at h
  simp only [Bool.and_eq_true] at h
  exact h.2

/-- A stale receipt in range is taken in by the character it is about, if one is
loaded. -/
theorem repairStale_spec {sha256 : Bytes → Vector UInt8 32} {coin : CoinTransferPayload}
    {stale : CoinTransferStaleResult} {wallet : CurrencyCommandPayload}
    (hdecode : currencyCommandDecodePayload sha256 (coin.endpoint stale.destination).change =
      some wallet)
    (hwallet : stale.walletStale = true → publishable stale.current.wallet = true)
    (hbank : stale.bankStale = true → publishable stale.current.bank = true) (world : World) :
    ∃ world', repairStale sha256 world coin stale = (world', none) ∧
      ∀ ref, coinWalletByPid world wallet.pid = some ref →
        Repaired stale (world.character ref) (world'.character ref) := by
  obtain ⟨walleted, hwalleted, hfirst⟩ := repairWallet_spec hwallet world
    (coinWalletByPid world wallet.pid)
  obtain ⟨banked, hbanked, hsecond⟩ := repairBank_spec hbank walleted
    (coinWalletByPid world wallet.pid) wallet
  refine ⟨banked, ?_, fun ref href => ?_⟩
  · unfold repairStale
    rw [hdecode]
    dsimp only
    rw [hwalleted]
    dsimp only
    rw [hbanked]
  · obtain ⟨hcash, hunchanged⟩ := hfirst ref href
    obtain ⟨hkept, hbalance⟩ := hsecond ref href
    refine ⟨hkept.trans hcash, ?_⟩
    rw [hbalance, hunchanged]

/-! ## Publication -/

/-- The receipt says what the repository's result said. -/
def Carries (completion : CriticalCompletion) (applied : CriticalApplyResult) : Prop :=
  completion.outcome = applied.outcome ∧ completion.durableRevision = applied.durableRevision ∧
    completion.errorCode = applied.errorCode ∧ completion.failureStage = applied.failureStage ∧
    completion.resultSize = applied.resultSize ∧
    completion.resultPayload = applied.resultPayload

/-- A coin transfer rejected because an endpoint was behind, with the bytes that report
the authority. -/
structure StaleRejection (payload : CoinTransferPayload) (result : CoinTransferResult)
    (applied : CriticalApplyResult) : Prop where
  outcome : applied.outcome = .terminalFailure
  errorCode : applied.errorCode = estale
  encoded : ∃ bytes,
    coinTransferCommandEncodeStaleResult payload result applied.failureStage = some bytes ∧
    applied.resultSize = BitVec.ofNat 16 bytes.length ∧ bytes <+: applied.resultPayload
  newer : NewerAuthority payload result applied.failureStage

theorem completionOf_carries_iff (job : WriterJob) (applied : CriticalApplyResult) :
    Carries (Coordinator.completionOf job applied) applied ↔
      applied.failureStage = .none :=
  ⟨fun h => h.2.2.2.1.symm, fun h => ⟨rfl, rfl, rfl, h.symm, rfl, rfl⟩⟩

section Publication

variable {sha256 : Bytes → Vector UInt8 32} {payload : CoinTransferPayload}
  {result : CoinTransferResult} {applied : CriticalApplyResult}

theorem StaleRejection.size (h : StaleRejection payload result applied) :
    applied.resultSize = BitVec.ofNat 16 coinTransferStaleResultBytes ∧
      applied.failureStage ≠ .none := by
  obtain ⟨bytes, hencoded, hsize, -⟩ := h.encoded
  obtain ⟨destination, walletStale, bankStale, current, hendpoint, hcurrent, rfl⟩ :=
    coinTransferCommandEncodeStaleResult_eq_some hencoded
  refine ⟨?_, (staleCurrencyEndpoint_eq_some hendpoint).1⟩
  rw [hsize, List.length_append, (currencyCommandEncodeResult_eq_some hcurrent).1]
  rfl

theorem publishCoin_without_stage {world : World} {entry : PendingCurrency}
    (houtcome : entry.completed.outcome = .terminalFailure)
    (hstage : entry.completed.failureStage = .none) (hsize : entry.completed.resultSize ≠ 0) :
    publishCoin sha256 world entry payload =
      (world, entry, .retained "unexpected_coin_terminal_result" true) := by
  have hreceipt : coinReceipt sha256 payload entry.completed =
      .error "unexpected_coin_terminal_result" := by
    unfold coinReceipt receiptCommitted
    rw [houtcome, hstage, if_neg (by decide), if_neg, if_pos hsize]
    rw [coinTransferCommandStaleResultExpected_none]
    exact fun h => by cases h.2
  unfold publishCoin
  rw [hreceipt]

theorem receiptBytes_of_leading {completion : CriticalCompletion} {bytes : Bytes}
    (hsize : completion.resultSize.toNat = bytes.length)
    (hleading : bytes <+: completion.resultPayload) : receiptBytes completion = bytes := by
  obtain ⟨rest, hrest⟩ := hleading
  unfold receiptBytes
  rw [hsize, ← hrest]
  refine List.ext_getElem (by simp) fun index _ hindex => ?_
  rw [List.getElem_map, List.getElem_range, List.getD_eq_getElem?_getD,
    List.getElem?_append_left hindex, List.getElem?_eq_getElem hindex, Option.getD_some]

/-- Under a receipt that carries its stage, a stale rejection is taken in and reported as
a rejection. -/
theorem publishCoin_of_carries {identities : CriticalEntityKey × CriticalEntityKey}
    (hvalid : validatePayload sha256 payload = .ok identities)
    (hrejection : StaleRejection payload result applied) {entry : PendingCurrency}
    (hcarries : Carries entry.completed applied) (hnew : entry.coinWalletsPublished = false)
    (world : World) :
    ∃ stale wallet world', publishCoin sha256 world entry payload =
        (world', { entry with coinWalletsPublished := true },
          .notify (.coin (coinWalletByPid world' entry.pid) false payload {} estale) false) ∧
      currencyCommandDecodePayload sha256 (payload.endpoint stale.destination).change =
        some wallet ∧
      stale.current = selectStale (result.wallet stale.destination) stale.walletStale
        stale.bankStale ∧
      ∀ ref, coinWalletByPid world wallet.pid = some ref →
        Repaired stale (world.character ref) (world'.character ref) := by
  obtain ⟨houtcome, -, herror, hstage, hsize, hpayload⟩ := hcarries
  obtain ⟨bytes, hencoded, happliedSize, hleading⟩ := hrejection.encoded
  obtain ⟨destination, walletStale, bankStale, wallet, player, account, hendpoint, hwallet,
    hrevisions, hlength, hdecode⟩ :=
    coinTransferCommandDecodeStaleResult_encode hvalid hencoded hrejection.newer
  have hnewer := hrejection.newer _ _ _ _ _ hendpoint hrevisions
  have hrejected : receiptCommitted entry.completed = false := by
    unfold receiptCommitted
    rw [houtcome, hrejection.outcome]
    rfl
  have hbytes : receiptBytes entry.completed = bytes := by
    refine receiptBytes_of_leading ?_ (hpayload ▸ hleading)
    rw [hsize, happliedSize, hlength]
    rfl
  have hexpected : coinTransferCommandStaleResultExpected payload
      entry.completed.failureStage = true := by
    rw [coinTransferCommandStaleResultExpected, hstage, hendpoint]
    rfl
  have hreceipt : coinReceipt sha256 payload entry.completed =
      .ok ({}, some (result.stale destination walletStale bankStale)) := by
    unfold coinReceipt
    rw [hrejected, if_neg (by decide), if_pos ⟨herror.trans hrejection.errorCode, hexpected⟩,
      hstage, hbytes, hdecode]
  have hcash : walletStale = true →
      publishable (if walletStale then (result.wallet destination).wallet else {}) = true := by
    intro hstale
    rw [if_pos hstale]
    exact newerAuthority_publishable (hnewer.1 hstale)
  have hbalance : bankStale = true →
      publishable (if bankStale then (result.wallet destination).bank else {}) = true := by
    intro hstale
    rw [if_pos hstale]
    exact newerAuthority_publishable (hnewer.2 hstale)
  have hdecoded : currencyCommandDecodePayload sha256 (payload.endpoint
      (result.stale destination walletStale bankStale).destination).change = some wallet := hwallet
  obtain ⟨world', hrepair, hlive⟩ := repairStale_spec hdecoded hcash hbalance world
  refine ⟨_, wallet, world', ?_, hwallet, rfl, hlive⟩
  unfold publishCoin
  rw [hreceipt]
  dsimp only
  unfold publishCoinBalances
  rw [hnew, if_neg (by decide)]
  dsimp only
  rw [hrepair]
  rw [hrejected, herror.trans hrejection.errorCode]
  rfl

end Publication

open Coordinator in
/-- The receipt a job's final outcome leads to says what the repository said, and a stale
coin rejection is published as one, exactly when the outcome names no failure stage. A
stale rejection always names one: with the receipt that is delivered its publication is
retained, and with a receipt that kept the stage the live projection would be repaired
and the rejection reported. -/
theorem receipt_fidelity_iff_no_stage (sha256 : Bytes → Vector UInt8 32) (events : List Event)
    {job : WriterJob} {jobs : List WriterJob} {applied : CriticalApplyResult}
    (hjobs : (run step {} events).jobs = job :: jobs)
    (hcurrent : job.generation = (run step {} events).generation)
    (hfinal : applied.outcome.tryAgain = false) :
    ((∀ later completion,
        Returned (run step {} (events ++ .execute applied :: later)) job completion →
        Carries completion applied ∧
        ∀ payload result, StaleRejection payload result applied → ∀ world entry,
          entry.completed = completion → ∃ world' entry' actor,
            publishCoin sha256 world entry payload =
              (world', entry', .notify (.coin actor false payload {} estale) false)) ↔
      applied.failureStage = .none) ∧
    (∃ later completion,
      Returned (run step {} (events ++ .execute applied :: later)) job completion) ∧
    ∀ payload result, StaleRejection payload result applied →
      (∀ later completion,
        Returned (run step {} (events ++ .execute applied :: later)) job completion →
        ∀ world entry, entry.completed = completion →
          publishCoin sha256 world entry payload =
            (world, entry, .retained "unexpected_coin_terminal_result" true)) ∧
      ∀ identities, validatePayload sha256 payload = .ok identities → ∀ world entry,
        Carries entry.completed applied → entry.coinWalletsPublished = false →
        ∃ stale wallet world', publishCoin sha256 world entry payload =
            (world', { entry with coinWalletsPublished := true },
              .notify (.coin (coinWalletByPid world' entry.pid) false payload {} estale) false) ∧
          currencyCommandDecodePayload sha256 (payload.endpoint stale.destination).change =
            some wallet ∧
          stale.current = selectStale (result.wallet stale.destination) stale.walletStale
            stale.bankStale ∧
          ∀ ref, coinWalletByPid world wallet.pid = some ref →
            Repaired stale (world.character ref) (world'.character ref) := by
  have hreturned := returned_after_pulse events hjobs hcurrent hfinal
  refine ⟨⟨fun hclaim => ?_, fun hnone later completion hseen => ?_⟩, ⟨_, _, hreturned⟩, ?_⟩
  · exact (completionOf_carries_iff job applied).mp (hclaim _ _ hreturned).1
  · rw [returned_completionOf events later hjobs hcurrent hfinal hseen]
    refine ⟨(completionOf_carries_iff job applied).mpr hnone, fun payload result hstale => ?_⟩
    exact absurd hnone hstale.size.2
  · intro payload result hstale
    refine ⟨fun later completion hseen world entry hentry => ?_, ?_⟩
    · have hmade := hentry.trans (returned_completionOf events later hjobs hcurrent hfinal hseen)
      refine publishCoin_without_stage ?_ ?_ ?_
      · rw [hmade]
        exact hstale.outcome
      · rw [hmade]
        rfl
      · rw [hmade]
        show applied.resultSize ≠ 0
        rw [hstale.size.1]
        decide
    · intro identities hvalid world entry hcarries hnew
      exact publishCoin_of_carries hvalid hstale hcarries hnew world

/-! ## The payment, rejected as stale -/

theorem validKeys_ascend {keys : List CriticalEntityKey} :
    ∀ {previous : Option CriticalEntityKey}, validKeys previous keys = true → KeysAscend keys := by
  induction keys with
  | nil => intro previous _; exact List.Pairwise.nil
  | cons head keys ih =>
      intro previous h
      simp only [validKeys, Bool.and_eq_true] at h
      exact List.pairwise_cons.mpr ⟨fun key hkey => validKeys_above h.2 key hkey, ih h.2⟩

theorem coinTransferCommandBuild_normalize {sha256 : Bytes → Vector UInt8 32}
    {operationId : CriticalOperationId} {payload : CoinTransferPayload}
    {sourceSite : CriticalSourceSite} {deadlineClass : CriticalDeadlineClass}
    {command : CriticalCommand}
    (h : coinTransferCommandBuild sha256 operationId payload sourceSite deadlineClass =
      .ok command) {acceptedAtUsec : BitVec 64} (haccepted : acceptedAtUsec ≠ 0) :
    criticalCommandValid { command with acceptedAtUsec := acceptedAtUsec } = true ∧
      criticalCommandNormalize { command with acceptedAtUsec := acceptedAtUsec } =
        some { command with acceptedAtUsec := acceptedAtUsec } := by
  obtain ⟨-, -, source, destination, -, -, -, hvalid, rfl⟩ := coinTransferCommandBuild_eq_ok.mp h
  have hstamped := criticalCommandValid_accepted hvalid haccepted
  have hascend : KeysAscend (assemble operationId sourceSite deadlineClass 0 source
      destination).keys := by
    unfold criticalCommandValid at hvalid
    split at hvalid
    · cases hvalid
    · rw [Bool.and_eq_true] at hvalid
      exact validKeys_ascend hvalid.1
  have hsorted := hascend.mergeSort
  unfold keyNotAbove at hsorted
  have hrevisions : (assemble operationId sourceSite deadlineClass 0 source
      destination).expectedRevisions.mergeSort
        (fun a b => !criticalEntityKeyLess b.key a.key) = [] := List.mergeSort_nil
  refine ⟨hstamped, ?_⟩
  unfold criticalCommandNormalize
  dsimp only
  rw [hsorted, adjacentEqual_of_nodup hascend.nodup, hrevisions, if_neg (by decide)]
  exact if_pos hstamped

/-- The authority holds three copper at revision 2, where the payment expected 1. -/
def staleResult : CoinTransferResult :=
  { sourceWallet :=
      { wallet := ⟨Vector.ofFn fun index => if (index : Nat) = 0 then 3 else 0⟩
        walletRevision := 2 } }

def staleApplied : CriticalApplyResult :=
  { outcome := .terminalFailure
    durableRevision := 2
    errorCode := estale
    failureStage := CriticalFailureStage.coinSourceWalletRevision
    resultSize := 83
    resultPayload := (coinTransferCommandEncodeStaleResult payment staleResult
      CriticalFailureStage.coinSourceWalletRevision).getD [] }

theorem staleApplied_rejection : StaleRejection payment staleResult staleApplied := by
  have hendpoint : staleCurrencyEndpoint payment staleApplied.failureStage =
      some (false, true, false) := by decide
  refine ⟨rfl, rfl, ⟨staleApplied.resultPayload, rfl, rfl, List.prefix_rfl⟩, ?_⟩
  intro destination walletStale bankStale player account hstage hrevisions
  rw [hendpoint, Option.some.injEq, Prod.mk.injEq, Prod.mk.injEq] at hstage
  obtain ⟨rfl, rfl, rfl⟩ := hstage
  have hplayer : (⟨⟨CriticalEntityType.player, 1⟩, 1⟩ : CriticalExpectedRevision) = player :=
    (List.cons.inj hrevisions).1
  rw [← hplayer]
  exact ⟨fun _ => by decide, fun h => by cases h⟩

open Coordinator

def paymentEvents (command : CriticalCommand) : List Event :=
  [.init, .submit command false 9, .queueOnWriter 0 true]

def paymentJob (command : CriticalCommand) : WriterJob :=
  { command := { command with acceptedAtUsec := 9 }, generation := 1, owner := 1 }

theorem paymentEvents_jobs {command : CriticalCommand}
    (h : coinTransferCommandBuild walletDigests paymentId payment CriticalSourceSite.command
      CriticalDeadlineClass.interactive = .ok command) :
    (run step {} (paymentEvents command)).jobs = [paymentJob command] ∧
      (run step {} (paymentEvents command)).generation = 1 := by
  obtain ⟨hvalid, hnormalize⟩ :=
    coinTransferCommandBuild_normalize h (by decide : (9 : BitVec 64) ≠ 0)
  have hunstamped : stamped command 9 = { command with acceptedAtUsec := 9 } := by
    obtain ⟨-, -, source, destination, -, -, -, -, rfl⟩ := coinTransferCommandBuild_eq_ok.mp h
    rfl
  have hsize := encodeFields_length_le hvalid
  simp only [criticalCommandMaxEncodedBytes] at hsize
  have hreserved : (init {}).2.submitCommand command false 9 =
      (none, (init {}).2.reserveLocked { command with acceptedAtUsec := 9 }
        (encodeFields { command with acceptedAtUsec := 9 }).length false) := by
    unfold submitCommand
    rw [hunstamped, hnormalize]
    dsimp only
    rw [if_neg (by decide), show (init {}).2.findCompleted command.operationId = none from rfl,
      show (init {}).2.findOperation command.operationId = none from rfl,
      criticalCommandEncode_of_valid hvalid]
    dsimp only
    rw [if_neg]
    show ¬ (1024 ≤ 0 ∨ 64 * 1024 * 1024 - 0 < _)
    omega
  have hstep : run step {} (paymentEvents command) =
      (queueOnWriter ((init {}).2.reserveLocked { command with acceptedAtUsec := 9 }
        (encodeFields { command with acceptedAtUsec := 9 }).length false) 0 true).2 := by
    simp only [paymentEvents, run_cons, run_nil, step]
    rw [hreserved]
  rw [hstep]
  exact ⟨rfl, rfl⟩

/-- The payment's stale rejection at the writer: no receipt the coordinator returns for it
gets it published, and one that kept its stage would. -/
theorem receipt_fidelity_of_stale_payment : ∃ command,
    (run step {} (paymentEvents command)).jobs = [paymentJob command] ∧
    (∃ later completion, Returned
      (run step {} (paymentEvents command ++ .execute staleApplied :: later))
      (paymentJob command) completion) ∧
    (∀ later completion, Returned
        (run step {} (paymentEvents command ++ .execute staleApplied :: later))
        (paymentJob command) completion →
      ∀ world entry, entry.completed = completion →
        publishCoin walletDigests world entry payment =
          (world, entry, .retained "unexpected_coin_terminal_result" true)) ∧
    ∀ world entry, Carries entry.completed staleApplied → entry.coinWalletsPublished = false →
      ∃ world', publishCoin walletDigests world entry payment =
        (world', { entry with coinWalletsPublished := true },
          .notify (.coin (coinWalletByPid world' entry.pid) false payment {} estale) false) := by
  obtain ⟨command, hbuild⟩ := payment_builds
  obtain ⟨hjobs, hgeneration⟩ := paymentEvents_jobs hbuild
  obtain ⟨-, ⟨identities, hvalid⟩, -⟩ := coinTransferCommandBuild_eq_ok.mp hbuild
  obtain ⟨-, hreturned, hstale⟩ := receipt_fidelity_iff_no_stage walletDigests
    (paymentEvents command) hjobs hgeneration.symm
    (by decide : staleApplied.outcome.tryAgain = false)
  obtain ⟨hretained, hcarried⟩ := hstale payment staleResult staleApplied_rejection
  refine ⟨command, hjobs, hreturned, hretained, fun world entry hcarries hnew => ?_⟩
  obtain ⟨-, -, world', hpublish, -⟩ := hcarried identities hvalid world entry hcarries hnew
  exact ⟨world', hpublish⟩

/-- The pulse hands out the payment's rejection without its stage, and the publication is
blocked. -/
theorem stale_payment_blocked : ∃ command completion,
    coinTransferCommandBuild walletDigests paymentId payment CriticalSourceSite.command
      CriticalDeadlineClass.interactive = .ok command ∧
    completion ∈ (run step {} (paymentEvents command ++
      [.execute staleApplied, .pulse criticalCoordinatorMaxResults])).delivered ∧
    StaleRejection payment staleResult staleApplied ∧
    completion.failureStage ≠ staleApplied.failureStage ∧
    ∀ world entry, entry.completed = completion →
      publishCoin walletDigests world entry payment =
        (world, entry, .retained "unexpected_coin_terminal_result" true) := by
  obtain ⟨command, hbuild⟩ := payment_builds
  obtain ⟨hjobs, hgeneration⟩ := paymentEvents_jobs hbuild
  have hreturned := returned_after_pulse (paymentEvents command) hjobs hgeneration.symm
    (by decide : staleApplied.outcome.tryAgain = false)
  refine ⟨command, completionOf (paymentJob command) staleApplied, hbuild, ?_,
    staleApplied_rejection, ?_, fun world entry hentry => ?_⟩
  · rcases hreturned.1 with hdelivered | ⟨identity, hanswer⟩
    · exact hdelivered
    · exact getCompleted_delivered (run_kept _) hanswer
  · show CriticalFailureStage.none ≠ staleApplied.failureStage
    decide
  · refine publishCoin_without_stage ?_ ?_ ?_
    · rw [hentry]
      rfl
    · rw [hentry]
      rfl
    · rw [hentry]
      show staleApplied.resultSize ≠ 0
      decide

end Duris.Economy
