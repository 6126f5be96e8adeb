import Duris.Economy.CoinTransfer
import Duris.Proofs.ItemTransfer

/-!
# A built coin transfer and its way back

The build overwrites four fields of each embedded command and then checks, sorts and
encodes it. None of the four is looked at when the endpoint is validated, and a command
an endpoint accepts has its keys in order already, so the embedded command that comes
back is `stampChange` of the one that went in. Stamping twice with the same parent is
stamping once, and that is why the decoder, which builds again from what it read,
arrives at the same bytes.
-/

namespace Duris.Economy

open Persistence Reader
open Item (itemTransferCommandDecodePayload)

/-! ## Amounts -/

theorem value_nonneg {amounts : Vector (BitVec 32) 4} (h : 0 ≤ value amounts) :
    amounts.toList.all (fun amount => decide (0 ≤ amount.toInt)) = true := by
  unfold value at h
  split at h
  · omega
  · next hnone =>
      rw [Bool.not_eq_true, List.any_eq_false] at hnone
      rw [List.all_eq_true]
      intro amount hamount
      have hge := hnone amount hamount
      rw [decide_eq_true_eq] at hge ⊢
      omega

theorem readAmounts_append {amounts : Vector (BitVec 32) 4} (h : 0 ≤ value amounts)
    (rest : Bytes) : readAmounts (encodeAmounts amounts ++ rest) = .ok (amounts, rest) := by
  have hread : many (field () 32) 4 (encodeAmounts amounts ++ rest) =
      .ok (amounts.toList, rest) :=
    (many_eq_ok fun {_ _ _} => field_eq_ok).mpr ⟨by simp, rfl⟩
  rw [readAmounts, bind_run hread, require_bind (value_nonneg h), pure_eq_ok,
    Item.ofFn_getD_toList]
  exact ⟨rfl, rfl⟩

/-! ## Endpoints -/

section Stamp

variable {operationId : CriticalOperationId} {sourceSite : CriticalSourceSite}
  {deadlineClass : CriticalDeadlineClass} {change : CriticalCommand}
  (sha256 : Bytes → Vector UInt8 32)

@[simp] theorem stampChange_type :
    (stampChange change operationId sourceSite deadlineClass).type = change.type := rfl

@[simp] theorem stampChange_payloadVersion :
    (stampChange change operationId sourceSite deadlineClass).payloadVersion =
      change.payloadVersion := rfl

@[simp] theorem stampChange_payload :
    (stampChange change operationId sourceSite deadlineClass).payload = change.payload := rfl

@[simp] theorem stampChange_keys :
    (stampChange change operationId sourceSite deadlineClass).keys = change.keys := rfl

@[simp] theorem stampChange_expectedRevisions :
    (stampChange change operationId sourceSite deadlineClass).expectedRevisions =
      change.expectedRevisions := rfl

theorem currencyCommandDecodePayload_stamp :
    currencyCommandDecodePayload sha256
      (stampChange change operationId sourceSite deadlineClass) =
        currencyCommandDecodePayload sha256 change := by
  unfold currencyCommandDecodePayload
  rw [stampChange_type, stampChange_payloadVersion, stampChange_payload, stampChange_keys,
    stampChange_expectedRevisions]

theorem itemTransferCommandDecodePayload_stamp :
    itemTransferCommandDecodePayload sha256
      (stampChange change operationId sourceSite deadlineClass) =
        itemTransferCommandDecodePayload sha256 change := by
  unfold itemTransferCommandDecodePayload
  rw [stampChange_type, stampChange_payloadVersion, stampChange_payload, stampChange_keys,
    stampChange_expectedRevisions]

def CoinTransferEndpoint.stamp (endpoint : CoinTransferEndpoint)
    (operationId : CriticalOperationId) (sourceSite : CriticalSourceSite)
    (deadlineClass : CriticalDeadlineClass) : CoinTransferEndpoint :=
  { endpoint with change := stampChange endpoint.change operationId sourceSite deadlineClass }

@[simp] theorem CoinTransferEndpoint.stamp_before (endpoint : CoinTransferEndpoint) :
    (endpoint.stamp operationId sourceSite deadlineClass).before = endpoint.before := rfl

@[simp] theorem CoinTransferEndpoint.stamp_after (endpoint : CoinTransferEndpoint) :
    (endpoint.stamp operationId sourceSite deadlineClass).after = endpoint.after := rfl

@[simp] theorem CoinTransferEndpoint.stamp_change (endpoint : CoinTransferEndpoint) :
    (endpoint.stamp operationId sourceSite deadlineClass).change =
      stampChange endpoint.change operationId sourceSite deadlineClass := rfl

theorem validateEndpoint_stamp (endpoint : CoinTransferEndpoint) (source : Bool) :
    validateEndpoint sha256 (endpoint.stamp operationId sourceSite deadlineClass) source =
      validateEndpoint sha256 endpoint source := by
  unfold validateEndpoint validateWallet validatePile pileMatches
  rw [CoinTransferEndpoint.stamp_change, CoinTransferEndpoint.stamp_before,
    CoinTransferEndpoint.stamp_after, currencyCommandDecodePayload_stamp,
    itemTransferCommandDecodePayload_stamp, stampChange_type, stampChange_expectedRevisions]

theorem validatePayload_stamp (payload : CoinTransferPayload)
    {destinationId : CriticalOperationId} :
    validatePayload sha256 ⟨payload.source.stamp operationId sourceSite deadlineClass,
      payload.destination.stamp destinationId sourceSite deadlineClass⟩ =
        validatePayload sha256 payload := by
  unfold validatePayload
  rw [validateEndpoint_stamp, validateEndpoint_stamp]
  rfl

end Stamp

section Endpoint

variable {sha256 : Bytes → Vector UInt8 32} {endpoint : CoinTransferEndpoint} {source : Bool}
  {identity : CriticalEntityKey}

theorem validateEndpoint_amounts (h : validateEndpoint sha256 endpoint source = .ok identity) :
    0 ≤ value endpoint.before ∧ 0 ≤ value endpoint.after ∧
      if source then value endpoint.after < value endpoint.before
      else value endpoint.before < value endpoint.after := by
  unfold validateEndpoint at h
  dsimp only at h
  split at h
  · cases h
  · next hamounts =>
      rw [not_or, not_or, not_or] at hamounts
      obtain ⟨hbefore, hafter, hout, hin⟩ := hamounts
      refine ⟨by omega, by omega, ?_⟩
      cases source with
      | true =>
          rw [if_pos rfl]
          exact Int.not_le.mp fun hle => hout ⟨rfl, hle⟩
      | false =>
          rw [if_neg (by decide)]
          exact Int.not_le.mp fun hle => hin ⟨rfl, hle⟩

theorem currencyCommandDecodePayload_keys {change : CriticalCommand}
    {wallet : CurrencyCommandPayload}
    (h : currencyCommandDecodePayload sha256 change = some wallet) :
    KeysAscend change.keys ∧
      change.expectedRevisions.map CriticalExpectedRevision.key = change.keys := by
  unfold currencyCommandDecodePayload at h
  split at h
  · cases h
  · dsimp only at h
    split at h
    · cases h
    · split at h
      · cases h
      · split at h
        · cases h
        · next accountKey haccount =>
            split at h
            · next hkeys =>
                refine ⟨?_, hkeys.2.trans hkeys.1.symm⟩
                rw [hkeys.1]
                refine List.pairwise_pair.mpr ?_
                unfold currencyAccountKey at haccount
                simp only [Option.bind_eq_bind, Option.bind_eq_some_iff, Option.pure_def,
                  Option.some.injEq] at haccount
                obtain ⟨_, _, rfl⟩ := haccount
                rfl
            · cases h

theorem itemTransferCommandDecodePayload_keys {change : CriticalCommand}
    {pile : Item.ItemTransferPayload}
    (h : itemTransferCommandDecodePayload sha256 change = some pile) :
    KeysAscend change.keys ∧
      change.expectedRevisions.map CriticalExpectedRevision.key = change.keys := by
  unfold itemTransferCommandDecodePayload at h
  split at h
  · cases h
  · simp only [Option.bind_eq_bind, Option.bind_eq_some_iff] at h
    obtain ⟨payload, _, h⟩ := h
    split at h
    · cases h
    · obtain ⟨⟨keys, revisions⟩, hentities, h⟩ := Option.bind_eq_some_iff.mp h
      split at h
      · next hsame =>
          rw [Prod.mk.injEq] at hsame
          obtain ⟨_, _, hascend, hrevisions, _⟩ := Item.populateCommandEntities_eq_some hentities
          rw [hsame.1, hsame.2]
          exact ⟨hascend, hrevisions⟩
      · cases h

theorem validateEndpoint_keys (h : validateEndpoint sha256 endpoint source = .ok identity) :
    KeysAscend endpoint.change.keys ∧
      endpoint.change.expectedRevisions.map CriticalExpectedRevision.key =
        endpoint.change.keys := by
  unfold validateEndpoint at h
  dsimp only at h
  split at h
  · cases h
  · split at h
    · unfold validateWallet at h
      split at h
      · cases h
      · next wallet hwallet => exact currencyCommandDecodePayload_keys hwallet
    · split at h
      · cases h
      · unfold validatePile at h
        split at h
        · cases h
        · next pile hpile => exact itemTransferCommandDecodePayload_keys hpile

/-- What an appended endpoint looks like: the amounts, and the stamped change behind its
size. -/
theorem appendEndpoint_eq_some {operationId : CriticalOperationId}
    {sourceSite : CriticalSourceSite} {deadlineClass : CriticalDeadlineClass} {index : BitVec 64}
    {bytes : Bytes} {keys : List CriticalEntityKey}
    (hvalid : validateEndpoint sha256 endpoint source = .ok identity) :
    appendEndpoint sha256 operationId sourceSite deadlineClass endpoint index =
        some (bytes, keys) ↔
      ∃ derived, criticalOperationIdDerive sha256 operationId coinOperationDomain index =
          some derived ∧
        criticalCommandValid (stampChange endpoint.change derived sourceSite deadlineClass) =
          true ∧
        keys = endpoint.change.keys ∧
        bytes = encodeAmounts endpoint.before ++ encodeAmounts endpoint.after ++
          appendLe (BitVec.ofNat 32
            (encodeFields (stampChange endpoint.change derived sourceSite deadlineClass)).length) ++
          encodeFields (stampChange endpoint.change derived sourceSite deadlineClass) := by
  obtain ⟨hascend, hrevisions⟩ := validateEndpoint_keys hvalid
  have hnormalize (derived : CriticalOperationId) : criticalCommandNormalize
      (stampChange endpoint.change derived sourceSite deadlineClass) =
        if criticalCommandValid (stampChange endpoint.change derived sourceSite deadlineClass) then
          some (stampChange endpoint.change derived sourceSite deadlineClass) else none :=
    criticalCommandNormalize_of_ascend hascend hrevisions
  unfold appendEndpoint
  simp only [Option.bind_eq_bind, Option.bind_eq_some_iff, hnormalize, Option.pure_def,
    Option.some.injEq, Prod.mk.injEq]
  constructor
  · rintro ⟨derived, hderived, change, hchange, encoded, hencoded, hbytes, hkeys⟩
    split at hchange
    · next hcommand =>
        cases hchange
        rw [criticalCommandEncode_of_valid hcommand] at hencoded
        cases hencoded
        exact ⟨derived, hderived, hcommand, hkeys.symm, hbytes.symm⟩
    · cases hchange
  · rintro ⟨derived, hderived, hcommand, rfl, rfl⟩
    refine ⟨derived, hderived, _, if_pos hcommand, _, ?_, rfl, rfl⟩
    rw [criticalCommandEncode_of_valid hcommand]
    rfl

theorem readEndpoint_append {derived : CriticalOperationId} {sourceSite : CriticalSourceSite}
    {deadlineClass : CriticalDeadlineClass}
    (hvalid : validateEndpoint sha256 endpoint source = .ok identity)
    (hcommand : criticalCommandValid
      (stampChange endpoint.change derived sourceSite deadlineClass) = true) (rest : Bytes) :
    readEndpoint (encodeAmounts endpoint.before ++ encodeAmounts endpoint.after ++
      appendLe (BitVec.ofNat 32
        (encodeFields (stampChange endpoint.change derived sourceSite deadlineClass)).length) ++
      encodeFields (stampChange endpoint.change derived sourceSite deadlineClass) ++ rest) =
        .ok (endpoint.stamp derived sourceSite deadlineClass, rest) := by
  obtain ⟨hbefore, hafter, -⟩ := validateEndpoint_amounts hvalid
  have hdecode := criticalCommandDecode_eq_ok.mpr ⟨hcommand, rfl⟩
  have hlength : (encodeFields
      (stampChange endpoint.change derived sourceSite deadlineClass)).length =
        (BitVec.ofNat 32 (encodeFields
          (stampChange endpoint.change derived sourceSite deadlineClass)).length).toNat := by
    have hsize := encodeFields_length_le hcommand
    simp only [criticalCommandMaxEncodedBytes] at hsize
    rw [BitVec.toNat_ofNat]
    exact (Nat.mod_eq_of_lt (by omega)).symm
  simp only [List.append_assoc]
  rw [readEndpoint, bind_run (readAmounts_append hbefore _), bind_run (readAmounts_append hafter _),
    field_bind, raw_bind hlength]
  rw [hdecode]
  rfl

end Endpoint

/-! ## The whole command -/

section Command

variable {sha256 : Bytes → Vector UInt8 32} {operationId : CriticalOperationId}
  {payload : CoinTransferPayload} {sourceSite : CriticalSourceSite}
  {deadlineClass : CriticalDeadlineClass} {command : CriticalCommand}

theorem criticalEntityKeyEqual_iff {left right : CriticalEntityKey} :
    criticalEntityKeyEqual left right = true ↔ left = right := by
  cases left
  cases right
  simp [criticalEntityKeyEqual]

theorem validatePayload_eq_ok {identities : CriticalEntityKey × CriticalEntityKey} :
    validatePayload sha256 payload = .ok identities ↔
      validateEndpoint sha256 payload.source true = .ok identities.1 ∧
      validateEndpoint sha256 payload.destination false = .ok identities.2 ∧
      identities.1 ≠ identities.2 ∧
      value payload.source.before - value payload.source.after =
        value payload.destination.after - value payload.destination.before := by
  obtain ⟨first, second⟩ := identities
  unfold validatePayload
  cases hsource : validateEndpoint sha256 payload.source true with
  | error e => simp [bind, Except.bind]
  | ok source =>
      cases hdestination : validateEndpoint sha256 payload.destination false with
      | error e => simp [bind, Except.bind]
      | ok destination =>
          simp only [bind, Except.bind, criticalEntityKeyEqual_iff]
          split
          · next hrefused =>
              simp only [reduceCtorEq, Except.ok.injEq, false_iff, not_and]
              rintro rfl rfl hne hconserve
              exact hrefused.elim hne fun hlost => hlost hconserve
          · next haccepted =>
              rw [not_or, not_not] at haccepted
              simp only [Except.ok.injEq, Prod.mk.injEq]
              constructor
              · rintro ⟨rfl, rfl⟩
                exact ⟨rfl, rfl, haccepted.1, haccepted.2⟩
              · rintro ⟨rfl, rfl, -, -⟩
                exact ⟨rfl, rfl⟩

theorem coinTransferCommandBuild_eq_ok :
    coinTransferCommandBuild sha256 operationId payload sourceSite deadlineClass = .ok command ↔
      criticalOperationIdIsZero operationId = false ∧
      (∃ identities, validatePayload sha256 payload = .ok identities) ∧
      ∃ source destination,
        appendEndpoint sha256 operationId sourceSite deadlineClass payload.source 0 =
          some source ∧
        appendEndpoint sha256 operationId sourceSite deadlineClass payload.destination 1 =
          some destination ∧
        (source.1 ++ destination.1).length ≤ criticalCommandMaxPayloadBytes ∧
        criticalCommandValid (assemble operationId sourceSite deadlineClass 1 source
          destination) = true ∧
        command = assemble operationId sourceSite deadlineClass 0 source destination := by
  unfold coinTransferCommandBuild
  split
  · next hzero => simp [hzero]
  · next hnonzero =>
      rw [Bool.not_eq_true] at hnonzero
      split
      · next e hinvalid => simp [hinvalid]
      · next identities hvalid =>
          split
          · next source destination hsource hdestination =>
              rw [hsource, hdestination]
              split
              · next hrefused =>
                  simp only [reduceCtorEq, false_iff]
                  rintro ⟨-, -, _, _, hs, hd, hsize, hcommand, -⟩
                  cases hs
                  cases hd
                  rw [List.length_append] at hsize hrefused
                  simp only [hcommand, Bool.true_eq_false, or_false] at hrefused
                  omega
              · next haccepted =>
                  simp only [not_or, Nat.not_lt, Bool.not_eq_false] at haccepted
                  rw [Except.ok.injEq]
                  constructor
                  · rintro rfl
                    exact ⟨hnonzero, ⟨identities, hvalid⟩, source, destination, rfl, rfl,
                      haccepted.2.1, haccepted.2.2, rfl⟩
                  · rintro ⟨-, -, _, _, hs, hd, -, -, rfl⟩
                    cases hs
                    cases hd
                    rfl
          · next hmissing =>
              simp only [reduceCtorEq, false_iff]
              rintro ⟨-, -, source, destination, hs, hd, -⟩
              exact hmissing source destination hs hd

theorem criticalCommandValid_accepted (h : criticalCommandValid command = true)
    {acceptedAtUsec : BitVec 64} (haccepted : acceptedAtUsec ≠ 0) :
    criticalCommandValid { command with acceptedAtUsec := acceptedAtUsec } = true := by
  unfold criticalCommandValid at h ⊢
  split at h
  · cases h
  · next hfields =>
      simp only [not_or] at hfields
      obtain ⟨h1, h2, h3, h4, h5, h6, h7, h8, h9, -, h11⟩ := hfields
      rw [if_neg]
      · exact h
      · simp only [not_or]
        exact ⟨h1, h2, h3, h4, h5, h6, h7, h8, h9, haccepted, h11⟩

theorem appendEndpoint_stamp {endpoint : CoinTransferEndpoint} {source : Bool}
    {identity : CriticalEntityKey} {index : BitVec 64} {derived : CriticalOperationId}
    {appended : Bytes × List CriticalEntityKey}
    (hvalid : validateEndpoint sha256 endpoint source = .ok identity)
    (hderived : criticalOperationIdDerive sha256 operationId coinOperationDomain index =
      some derived)
    (h : appendEndpoint sha256 operationId sourceSite deadlineClass endpoint index =
      some appended) :
    appendEndpoint sha256 operationId sourceSite deadlineClass
      (endpoint.stamp derived sourceSite deadlineClass) index = some appended := by
  obtain ⟨bytes, keys⟩ := appended
  obtain ⟨other, hother, hcommand, hkeys, hbytes⟩ := (appendEndpoint_eq_some hvalid).mp h
  rw [hderived, Option.some.injEq] at hother
  subst hother
  have hstamped : validateEndpoint sha256 (endpoint.stamp derived sourceSite deadlineClass)
      source = .ok identity := (validateEndpoint_stamp sha256 endpoint source).trans hvalid
  exact (appendEndpoint_eq_some hstamped).mpr ⟨derived, hderived, hcommand, hkeys, hbytes⟩

def CoinTransferPayload.stamp (payload : CoinTransferPayload)
    (sourceId destinationId : CriticalOperationId) (sourceSite : CriticalSourceSite)
    (deadlineClass : CriticalDeadlineClass) : CoinTransferPayload :=
  ⟨payload.source.stamp sourceId sourceSite deadlineClass,
    payload.destination.stamp destinationId sourceSite deadlineClass⟩

/-- What a build leaves behind: the stamped payload builds the same command again, and
is what the bytes read as. -/
theorem coinTransferCommandBuild_stamp
    (h : coinTransferCommandBuild sha256 operationId payload sourceSite deadlineClass =
      .ok command) :
    ∃ sourceId destinationId,
      criticalOperationIdDerive sha256 operationId coinOperationDomain 0 = some sourceId ∧
      criticalOperationIdDerive sha256 operationId coinOperationDomain 1 = some destinationId ∧
      whole readPayloadEndpoints command.payload =
        some (payload.stamp sourceId destinationId sourceSite deadlineClass) ∧
      coinTransferCommandBuild sha256 operationId
        (payload.stamp sourceId destinationId sourceSite deadlineClass) sourceSite
        deadlineClass = .ok command := by
  obtain ⟨hnonzero, ⟨identities, hvalid⟩, source, destination, hsource, hdestination, hsize,
    hcommand, rfl⟩ := coinTransferCommandBuild_eq_ok.mp h
  obtain ⟨hsourceValid, hdestinationValid, -, -⟩ := validatePayload_eq_ok.mp hvalid
  obtain ⟨sourceId, hsourceId, hsourceCommand, -, hsourceBytes⟩ :=
    (appendEndpoint_eq_some hsourceValid).mp hsource
  obtain ⟨destinationId, hdestinationId, hdestinationCommand, -, hdestinationBytes⟩ :=
    (appendEndpoint_eq_some hdestinationValid).mp hdestination
  refine ⟨sourceId, destinationId, hsourceId, hdestinationId, ?_, ?_⟩
  · have hreadSource := readEndpoint_append hsourceValid hsourceCommand destination.1
    have hreadDestination := readEndpoint_append hdestinationValid hdestinationCommand []
    rw [← hsourceBytes] at hreadSource
    rw [← hdestinationBytes, List.append_nil] at hreadDestination
    rw [whole_eq_some]
    show readPayloadEndpoints (source.1 ++ destination.1) = _
    rw [readPayloadEndpoints, bind_run hreadSource, bind_run hreadDestination]
    rfl
  · refine coinTransferCommandBuild_eq_ok.mpr ⟨hnonzero, ⟨identities, ?_⟩, source, destination,
      appendEndpoint_stamp hsourceValid hsourceId hsource,
      appendEndpoint_stamp hdestinationValid hdestinationId hdestination, hsize, hcommand, rfl⟩
    exact (validatePayload_stamp sha256 payload).trans hvalid

theorem coinTransferCommandDecodePayload_build
    (h : coinTransferCommandBuild sha256 operationId payload sourceSite deadlineClass =
      .ok command) (acceptedAtUsec : BitVec 64) :
    ∃ sourceId destinationId,
      criticalOperationIdDerive sha256 operationId coinOperationDomain 0 = some sourceId ∧
      criticalOperationIdDerive sha256 operationId coinOperationDomain 1 = some destinationId ∧
      coinTransferCommandBuild sha256 operationId
        (payload.stamp sourceId destinationId sourceSite deadlineClass) sourceSite
        deadlineClass = .ok command ∧
      coinTransferCommandDecodePayload sha256 { command with acceptedAtUsec := acceptedAtUsec } =
        some (payload.stamp sourceId destinationId sourceSite deadlineClass) := by
  obtain ⟨sourceId, destinationId, hsourceId, hdestinationId, hread, hrebuilt⟩ :=
    coinTransferCommandBuild_stamp h
  refine ⟨sourceId, destinationId, hsourceId, hdestinationId, hrebuilt, ?_⟩
  obtain ⟨-, -, source, destination, -, -, hsize, -, hcommand⟩ :=
    coinTransferCommandBuild_eq_ok.mp h
  have hidentity : command.operationId = operationId := by rw [hcommand]; rfl
  have hsite : command.sourceSite = sourceSite := by rw [hcommand]; rfl
  have hclass : command.deadlineClass = deadlineClass := by rw [hcommand]; rfl
  have hshape : ¬ (command.type ≠ CriticalCommandType.coinTransfer ∨
      command.payloadVersion ≠ coinTransferPayloadVersion ∨
      criticalCommandMaxPayloadBytes < command.payload.length ∨
      command.expectedRevisions ≠ []) := by
    rw [hcommand]
    simpa [assemble] using hsize
  unfold coinTransferCommandDecodePayload
  rw [if_neg hshape, hread, hidentity, hsite, hclass]
  simp only [Option.bind_eq_bind, Option.bind_some, hrebuilt, Except.toOption, ne_eq,
    not_true_eq_false, or_self, if_false]

theorem coinTransferCommandDecodePayload_valid {decoded : CoinTransferPayload}
    (h : coinTransferCommandDecodePayload sha256 command = some decoded) :
    ∃ identities, validatePayload sha256 decoded = .ok identities := by
  unfold coinTransferCommandDecodePayload at h
  split at h
  · cases h
  · simp only [Option.bind_eq_bind, Option.bind_eq_some_iff] at h
    obtain ⟨payload, -, expected, hexpected, h⟩ := h
    split at h
    · cases h
    · cases h
      cases hbuild : coinTransferCommandBuild sha256 command.operationId decoded
          command.sourceSite command.deadlineClass with
      | error e => rw [hbuild] at hexpected; cases hexpected
      | ok built => exact (coinTransferCommandBuild_eq_ok.mp hbuild).2.1

end Command

/-- Building and decoding are inverse, up to the four fields the parent lends its
embedded commands: what is decoded, before or after the command was stamped, stored and
read again, is the payload with its changes stamped, and building from it gives the same
command. And whatever the decoder accepts takes a positive value out of one endpoint and
puts the same value into another one. -/
theorem coinTransfer_build_decode_inverse (sha256 : Bytes → Vector UInt8 32) :
    (∀ operationId payload sourceSite deadlineClass command,
      coinTransferCommandBuild sha256 operationId payload sourceSite deadlineClass =
        .ok command →
      ∃ sourceId destinationId,
        criticalOperationIdDerive sha256 operationId coinOperationDomain 0 = some sourceId ∧
        criticalOperationIdDerive sha256 operationId coinOperationDomain 1 = some destinationId ∧
        (∀ acceptedAtUsec, coinTransferCommandDecodePayload sha256
            { command with acceptedAtUsec := acceptedAtUsec } =
              some (payload.stamp sourceId destinationId sourceSite deadlineClass)) ∧
        (∀ acceptedAtUsec, acceptedAtUsec ≠ 0 → ∃ encoded,
          criticalCommandEncode { command with acceptedAtUsec := acceptedAtUsec } = .ok encoded ∧
          criticalCommandDecode encoded =
            .ok { command with acceptedAtUsec := acceptedAtUsec }) ∧
        coinTransferCommandBuild sha256 operationId
          (payload.stamp sourceId destinationId sourceSite deadlineClass) sourceSite
          deadlineClass = .ok command) ∧
    (∀ command payload, coinTransferCommandDecodePayload sha256 command = some payload →
      0 < value payload.source.before - value payload.source.after ∧
      value payload.source.before - value payload.source.after =
        value payload.destination.after - value payload.destination.before ∧
      ∃ source destination, validateEndpoint sha256 payload.source true = .ok source ∧
        validateEndpoint sha256 payload.destination false = .ok destination ∧
        source ≠ destination) := by
  refine ⟨?_, ?_⟩
  · intro operationId payload sourceSite deadlineClass command hbuild
    obtain ⟨sourceId, destinationId, hsourceId, hdestinationId, hrebuilt, -⟩ :=
      coinTransferCommandDecodePayload_build hbuild 0
    refine ⟨sourceId, destinationId, hsourceId, hdestinationId, ?_, ?_, hrebuilt⟩
    · intro acceptedAtUsec
      obtain ⟨firstId, secondId, hfirst, hsecond, -, hdecode⟩ :=
        coinTransferCommandDecodePayload_build hbuild acceptedAtUsec
      rw [hsourceId, Option.some.injEq] at hfirst
      rw [hdestinationId, Option.some.injEq] at hsecond
      rw [hdecode, hfirst, hsecond]
    · intro acceptedAtUsec haccepted
      obtain ⟨-, -, source, destination, -, -, -, hvalid, rfl⟩ :=
        coinTransferCommandBuild_eq_ok.mp hbuild
      have hstamped := criticalCommandValid_accepted hvalid haccepted
      exact ⟨_, criticalCommandEncode_of_valid hstamped,
        criticalCommandDecode_eq_ok.mpr ⟨hstamped, rfl⟩⟩
  · intro command payload hdecode
    obtain ⟨⟨source, destination⟩, hvalid⟩ := coinTransferCommandDecodePayload_valid hdecode
    obtain ⟨hsource, hdestination, hdistinct, hconserved⟩ := validatePayload_eq_ok.mp hvalid
    obtain ⟨-, -, hout⟩ := validateEndpoint_amounts hsource
    rw [if_pos rfl] at hout
    exact ⟨by omega, hconserved, source, destination, hsource, hdestination, hdistinct⟩

/-! ## A payment between two players of one account -/

def walletDigests (input : Bytes) : Vector UInt8 32 :=
  if input = [97, 0, 1] then
    #v[179, 47, 218, 131, 55, 233, 167, 6, 102, 235, 68, 160, 233, 189, 62, 86, 57, 170, 226, 132,
      89, 213, 246, 180, 114, 205, 215, 164, 121, 180, 108, 122]
  else if input = List.replicate 16 2 ++ appendLe coinOperationDomain ++ appendLe (0 : BitVec 64)
  then
    #v[222, 3, 128, 180, 231, 170, 121, 48, 75, 194, 176, 1, 189, 245, 98, 91, 227, 219, 92, 171,
      104, 102, 46, 8, 144, 93, 220, 192, 143, 7, 241, 147]
  else
    #v[21, 74, 98, 16, 54, 89, 110, 43, 11, 173, 53, 137, 150, 70, 83, 3, 156, 132, 172, 5,
      39, 77, 99, 124, 209, 170, 168, 206, 230, 208, 155, 35]

def paymentId : CriticalOperationId := ⟨List.replicate 16 2, List.length_replicate⟩

/-- Copper in or out of the wallet of one of two players of the account `a`. -/
def walletChange (pid : BitVec 32) (copper : BitVec 64) : CurrencyCommandPayload :=
  { pid := pid
    racewar := 1
    reason := CurrencyReasonType.coinTransfer
    reasonId := 0
    accountName := Vector.ofFn fun index => if (index : Nat) = 0 then 97 else 0
    walletDelta := ⟨Vector.ofFn fun index => if (index : Nat) = 0 then copper else 0⟩
    bankDelta := {} }

def walletCommand (pid : BitVec 32) (copper : BitVec 64) : CriticalCommand :=
  { schemaVersion := criticalCommandSchemaVersion
    operationId := paymentId
    type := CriticalCommandType.accountBank
    payloadVersion := currencyCommandPayloadVersion
    sourceSite := CriticalSourceSite.command
    deadlineClass := CriticalDeadlineClass.interactive
    acceptedAtUsec := 0
    keys := [⟨CriticalEntityType.player, pid.setWidth 64⟩,
      ⟨CriticalEntityType.account, 0x06a7e93783da2fb3⟩]
    expectedRevisions := [⟨⟨CriticalEntityType.player, pid.setWidth 64⟩, 1⟩,
      ⟨⟨CriticalEntityType.account, 0x06a7e93783da2fb3⟩, 1⟩]
    payload := (currencyCommandEncodePayload (walletChange pid copper)).getD [] }

/-- Player 1 gives five copper to player 2. -/
def payment : CoinTransferPayload :=
  { source :=
      { before := Vector.ofFn fun index => if (index : Nat) = 0 then 5 else 0
        after := Vector.replicate 4 0
        change := walletCommand 1 (-5) }
    destination :=
      { before := Vector.replicate 4 0
        after := Vector.ofFn fun index => if (index : Nat) = 0 then 5 else 0
        change := walletCommand 2 5 } }

def payerId : CriticalOperationId :=
  ⟨[222, 3, 128, 180, 231, 170, 121, 48, 75, 194, 176, 1, 189, 245, 98, 91], rfl⟩

def payeeId : CriticalOperationId :=
  ⟨[21, 74, 98, 16, 54, 89, 110, 43, 11, 173, 53, 137, 150, 70, 83, 3], rfl⟩

set_option maxRecDepth 4000 in
theorem payment_builds : ∃ command, coinTransferCommandBuild walletDigests paymentId payment
    CriticalSourceSite.command CriticalDeadlineClass.interactive = .ok command := by
  have hsource : validateEndpoint walletDigests payment.source true =
      .ok ⟨CriticalEntityType.player, 1⟩ := rfl
  have hdestination : validateEndpoint walletDigests payment.destination false =
      .ok ⟨CriticalEntityType.player, 2⟩ := rfl
  have hpayer : criticalOperationIdDerive walletDigests paymentId coinOperationDomain 0 =
      some payerId := rfl
  have hpayee : criticalOperationIdDerive walletDigests paymentId coinOperationDomain 1 =
      some payeeId := rfl
  have hpaid : appendEndpoint walletDigests paymentId CriticalSourceSite.command
      CriticalDeadlineClass.interactive payment.source 0 = some (_, _) :=
    (appendEndpoint_eq_some hsource).mpr ⟨payerId, hpayer, by decide, rfl, rfl⟩
  have hgot : appendEndpoint walletDigests paymentId CriticalSourceSite.command
      CriticalDeadlineClass.interactive payment.destination 1 = some (_, _) :=
    (appendEndpoint_eq_some hdestination).mpr ⟨payeeId, hpayee, by decide, rfl, rfl⟩
  have hkeys : (payment.source.change.keys ++ payment.destination.change.keys).mergeSort
      (fun a b => !criticalEntityKeyLess b a) =
        [⟨CriticalEntityType.player, 1⟩, ⟨CriticalEntityType.player, 2⟩,
          ⟨CriticalEntityType.account, 0x06a7e93783da2fb3⟩,
          ⟨CriticalEntityType.account, 0x06a7e93783da2fb3⟩] :=
    mergeSort_of_perm (by decide) (by decide)
  refine ⟨_, coinTransferCommandBuild_eq_ok.mpr ⟨rfl, ⟨(_, _), validatePayload_eq_ok.mpr
    ⟨hsource, hdestination, by decide, by decide⟩⟩, _, _, hpaid, hgot, by decide, ?_, rfl⟩⟩
  unfold assemble
  rw [hkeys]
  decide

/-- The payment is built, read back, stored and built again. -/
theorem coinTransfer_build_decode_payment : ∃ command sourceId destinationId,
    coinTransferCommandBuild walletDigests paymentId payment CriticalSourceSite.command
      CriticalDeadlineClass.interactive = .ok command ∧
    coinTransferCommandDecodePayload walletDigests { command with acceptedAtUsec := 9 } =
      some (payment.stamp sourceId destinationId CriticalSourceSite.command
        CriticalDeadlineClass.interactive) ∧
    0 < value payment.source.before - value payment.source.after := by
  obtain ⟨command, hbuild⟩ := payment_builds
  obtain ⟨hinverse, hmoves⟩ := coinTransfer_build_decode_inverse walletDigests
  obtain ⟨sourceId, destinationId, -, -, hdecode, -, -⟩ := hinverse _ _ _ _ _ hbuild
  exact ⟨command, sourceId, destinationId, hbuild, hdecode 9, (hmoves _ _ (hdecode 9)).1⟩

/-- The change that comes back was never accepted at a time of its own. -/
theorem decoded_change_has_other_time : ∃ command decoded,
    coinTransferCommandBuild walletDigests paymentId payment CriticalSourceSite.command
      CriticalDeadlineClass.interactive = .ok command ∧
    coinTransferCommandDecodePayload walletDigests command = some decoded ∧
    { decoded.source.change with operationId := payment.source.change.operationId } ≠
      payment.source.change := by
  obtain ⟨command, hbuild⟩ := payment_builds
  obtain ⟨sourceId, destinationId, -, -, -, hdecode⟩ :=
    coinTransferCommandDecodePayload_build hbuild 0
  obtain ⟨-, -, source, destination, -, -, -, -, rfl⟩ := coinTransferCommandBuild_eq_ok.mp hbuild
  refine ⟨_, _, hbuild, hdecode, fun hsame => ?_⟩
  have htime := congrArg CriticalCommand.acceptedAtUsec hsame
  exact absurd htime (by decide : (1 : BitVec 64) ≠ 0)

end Duris.Economy
