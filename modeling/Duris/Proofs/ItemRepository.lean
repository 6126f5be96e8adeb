import Duris.Lib.Sha256
import Duris.Proofs.ItemCraft

/-!
# Every command once, and the file always readable

The encoder writes whatever the catalogue in memory is, and the decoder refuses a file
with a single bad receipt in it. A receipt is bad when it names no root, which is what a
transfer reports when it could not even put its owners into the table: the owner table
is full. Short of that every receipt is good, and then the file of each step decodes to
the catalogue that was encoded, a second time the command gets the first time's answer,
and a refusal adds its receipt and nothing else.
-/

namespace Duris.Flatfile.Ownership

open Persistence Player Item Economy

variable {catalog : OwnershipCatalog} {sha256 : Bytes → Vector UInt8 32}
  {command : CriticalCommand}

/-! ## The attempt that is recorded -/

/-- The owners a transfer or a craft may put into the table. -/
def namedOwners (payload : ItemTransferPayload) : List ItemOwnerIdentity :=
  [payload.fromOwner, payload.toOwner, destructionOwner]

structure Recordable (catalog : OwnershipCatalog) (payload : ItemTransferPayload)
    (attempt : Attempt) : Prop where
  valid : Valid attempt.catalog
  revision : attempt.catalog.revision = catalog.revision
  operations : attempt.catalog.operations = catalog.operations
  refused : attempt.code ≠ 0 → Grown (namedOwners payload) catalog attempt.catalog
  headed : Headed payload attempt.result

section Attempt

variable {catalog : OwnershipCatalog} {payload : ItemTransferPayload} {version : BitVec 16}

theorem Checked.namedOwners_valid (h : Checked payload version) :
    ∀ owner ∈ namedOwners payload, itemOwnerIdentityValid owner = true := by
  intro owner howner
  simp only [namedOwners, List.mem_cons, List.not_mem_nil, or_false] at howner
  rcases howner with rfl | rfl | rfl
  · exact h.fromOwner
  · exact h.toOwner
  · decide

variable {attempt : Attempt}

theorem Recordable.of_grown (hchecked : Checked payload version) (hvalid : Valid catalog)
    (hgrown : Grown (namedOwners payload) catalog attempt.catalog)
    (hheaded : Headed payload attempt.result) : Recordable catalog payload attempt :=
  ⟨hgrown.valid hvalid (Checked.namedOwners_valid hchecked), hgrown.revision,
    hgrown.operations, fun _ => hgrown, hheaded⟩

theorem applyTransfer_recordable (hchecked : Checked payload version) (hvalid : Valid catalog)
    (hreason : payload.reason ≠ ItemTransferReason.craft) (hfit : OwnersFit catalog payload) :
    Recordable catalog payload (applyTransfer catalog payload) := by
  have hheaded := applyTransfer_headed hvalid.owners hfit
  have hmono {after : OwnershipCatalog}
      (h : Grown [payload.fromOwner, payload.toOwner] catalog after) :
      Grown (namedOwners payload) catalog after :=
    h.mono (by simp +contextual [namedOwners])
  cases applyTransfer_outcome hvalid.owners payload with
  | full _ hgrown => exact .of_grown hchecked hvalid (hmono hgrown) hheaded
  | stale _ hgrown => exact .of_grown hchecked hvalid (hmono hgrown) hheaded
  | @rows grown _ _ hgrown _ hto _ _ houtcome =>
      have hgrownValid := hgrown.valid hvalid (by
        simpa using ⟨hchecked.fromOwner, hchecked.toOwner⟩)
      cases houtcome with
      | refused _ hcatalog => exact .of_grown hchecked hvalid (hcatalog ▸ hmono hgrown) hheaded
      | halfway _ hparent hhalf =>
          rw [createRows_checked hchecked hgrownValid hparent] at hhalf
          cases hhalf
      | created hcode _ hcreated =>
          refine ⟨hcreated.valid hchecked hreason hgrownValid hto, ?_, ?_,
            fun hne => absurd hcode hne, hheaded⟩
          · rw [hcreated.result]
            exact hgrown.revision
          · rw [hcreated.result]
            exact hgrown.operations
      | moved hcode _ hmoved =>
          refine ⟨hmoved.valid hchecked.toOwner hreason hgrownValid hto, ?_, ?_,
            fun hne => absurd hcode hne, hheaded⟩
          · rw [hmoved.result]
            exact hgrown.revision
          · rw [hmoved.result]
            exact hgrown.operations

theorem Checked.craft_owner (h : Checked payload version)
    (hreason : payload.reason = ItemTransferReason.craft) :
    payload.fromOwner = payload.toOwner := by
  have hcraft := h.craft
  unfold validCraft at hcraft
  rw [if_pos hreason] at hcraft
  split at hcraft
  · cases hcraft
  · next hrefused =>
      simp only [not_or, Bool.not_eq_false] at hrefused
      exact itemOwnerIdentityEqual_iff.mp hrefused.2.2.2.1

variable (hchecked : Checked payload version)

include hchecked

theorem applyCraft_recordable (hvalid : Valid catalog)
    (hreason : payload.reason = ItemTransferReason.craft) (hfit : OwnersFit catalog payload) :
    Recordable catalog payload (applyCraft catalog payload) := by
  have hsame := Checked.craft_owner hchecked hreason
  have hheaded := applyCraft_headed hvalid.owners hreason hsame hfit
  have hmono {after : OwnershipCatalog}
      (h : Grown [payload.fromOwner, destructionOwner] catalog after) :
      Grown (namedOwners payload) catalog after :=
    h.mono (by simp +contextual [namedOwners])
  cases applyCraft_outcome hvalid.owners payload with
  | refused _ hgrown => exact .of_grown hchecked hvalid (hmono hgrown) hheaded
  | @crafted first grown _ outputs hcode hfirst hfound _ _ _ hcrafted =>
      have hfirstValid := (hmono hfirst).valid hvalid (Checked.namedOwners_valid hchecked)
      refine ⟨hcrafted.valid hchecked.toOwner hfirstValid (hsame ▸ hfound), ?_, ?_,
        fun hne => absurd hcode hne, hheaded⟩
      · rw [hcrafted.result]
        exact hcrafted.extended.revision.trans hfirst.revision
      · rw [hcrafted.result]
        exact hcrafted.extended.operations.trans hfirst.operations

theorem refuseAttempt_recordable (hvalid : Valid catalog)
    (code : BitVec 32) : Recordable catalog payload (refuseAttempt catalog payload code) :=
  .of_grown hchecked hvalid (.refl hvalid.owners) ⟨rfl, rfl⟩

theorem attemptTransfer_recordable (hvalid : Valid catalog)
    (hfit : OwnersFit catalog payload) (payloadVersion : BitVec 16) :
    Recordable catalog payload (attemptTransfer catalog payload payloadVersion) := by
  unfold attemptTransfer
  dsimp only
  split
  · next hreason =>
      split
      · exact refuseAttempt_recordable hchecked hvalid _
      · exact applyCraft_recordable hchecked hvalid hreason hfit
  · next hreason =>
      split
      · exact refuseAttempt_recordable hchecked hvalid _
      · exact applyTransfer_recordable hchecked hvalid hreason hfit

theorem checkArtifacts_recordable {payloadVersion : BitVec 16} {prepared : Prepared}
    {checked : Attempt} (hvalid : Valid catalog)
    (hattempt : Recordable catalog payload attempt)
    (h : checkArtifacts catalog payload payloadVersion prepared attempt = .ok checked) :
    Recordable catalog payload checked := by
  unfold checkArtifacts at h
  split at h
  · split at h
    · cases h
      exact refuseAttempt_recordable hchecked hvalid _
    · cases h
      exact hattempt
    · cases h
      exact hattempt
    · cases h
  · cases h
    exact hattempt

theorem checkBoundary_recordable {prepared : Prepared} {bounded : Attempt × Bool}
    (hvalid : Valid catalog)
    (hattempt : Recordable catalog payload attempt)
    (h : checkBoundary catalog payload prepared attempt = .ok bounded) :
    Recordable catalog payload bounded.1 := by
  have hanswered (h : (if prepared.boundaryCode ≠ 0 then
        Except.ok (refuseAttempt catalog payload prepared.boundaryCode, false)
      else if prepared.boundary = .ok ∧ prepared.boundaryImage = true then
        .ok ({ attempt with
          result := { attempt.result with collectorCatalogChanged := true } }, true)
      else .ok (attempt, false) : Except CriticalApplyResult (Attempt × Bool)) = .ok bounded) :
      Recordable catalog payload bounded.1 := by
    split at h
    · cases h
      exact refuseAttempt_recordable hchecked hvalid _
    · split at h
      · cases h
        exact ⟨hattempt.valid, hattempt.revision, hattempt.operations, hattempt.refused,
          hattempt.headed.root, hattempt.headed.count⟩
      · cases h
        exact hattempt
  unfold checkBoundary at h
  split at h
  · split at h
    · exact hanswered h
    · exact hanswered h
    · cases h
  · cases h
    exact hattempt

end Attempt

/-! ## The candidate -/

theorem except_bind_eq_ok {ε α β : Type} {x : Except ε α} {f : α → Except ε β} {b : β} :
    (x >>= f) = .ok b ↔ ∃ a, x = .ok a ∧ f a = .ok b := by
  cases x with
  | error e => simp [bind, Except.bind]
  | ok a => simp [bind, Except.bind]

theorem prepareImages_result {payload : ItemTransferPayload} {payloadVersion : BitVec 16}
    {prepared : Prepared} {attempt : Attempt} {collector : Bool}
    {staged : ItemTransferResult × ItemImages}
    (h : prepareImages catalog payload payloadVersion prepared attempt collector = .ok staged) :
    staged.1 = attempt.result ∨
      staged.1 = { attempt.result with corpseRevision := prepared.corpseRevision } := by
  unfold prepareImages at h
  simp only [except_bind_eq_ok] at h
  obtain ⟨_, _, corpse, _, _, _, _, _, _, _, _, _, h⟩ := h
  cases h
  cases corpse with
  | false => exact .inl rfl
  | true => exact .inr rfl

/-- What a prepared candidate is: an attempt that may be recorded, with its receipt. -/
structure Receipted (catalog : OwnershipCatalog) (command : CriticalCommand)
    (payload : ItemTransferPayload) (digest : { digest : Bytes // digest.length = 32 })
    (candidate : Candidate) (attempt : Attempt) (receipt : OperationState) : Prop where
  recordable : Recordable catalog payload attempt
  operationId : receipt.operationId = command.operationId
  digest : receipt.commandDigest = digest
  resultCode : receipt.resultCode = attempt.code
  headed : Headed payload receipt.result
  item : receipt.coinResult = none
  catalog_eq : candidate.catalog =
    { attempt.catalog with operations := attempt.catalog.operations ++ [receipt] }
  answer : candidate.answer =
    makeResult (if attempt.code = 0 then .applied else .terminalFailure) attempt.code
      receipt.result

section Candidate

variable {catalog : OwnershipCatalog} {command : CriticalCommand} {payload : ItemTransferPayload}
  {digest : { digest : Bytes // digest.length = 32 }} {prepared : Prepared}
  {candidate : Candidate} {version : BitVec 16}

theorem prepareCandidate_room
    (h : prepareCandidate catalog command payload digest prepared = .ok candidate) :
    catalog.operations.length < ownershipMaximumOperations ∧
      catalog.revision ≠ BitVec.allOnes 64 := by
  unfold prepareCandidate at h
  split at h
  · cases h
  · next hroom =>
      rw [not_or, Nat.not_le] at hroom
      exact hroom

theorem prepareCandidate_receipted (hchecked : Checked payload version) (hvalid : Valid catalog)
    (hfit : OwnersFit catalog payload)
    (h : prepareCandidate catalog command payload digest prepared = .ok candidate) :
    ∃ attempt receipt, Receipted catalog command payload digest candidate attempt receipt := by
  unfold prepareCandidate at h
  split at h
  · cases h
  · simp only at h
    split at h
    · cases h
    · simp only [except_bind_eq_ok] at h
      obtain ⟨checked, hartifacts, bounded, hbounded, staged, hstaged, h⟩ := h
      cases h
      have hattempt := attemptTransfer_recordable hchecked hvalid hfit command.payloadVersion
      have hattempt := checkArtifacts_recordable hchecked hvalid hattempt hartifacts
      have hattempt := checkBoundary_recordable hchecked hvalid hattempt hbounded
      have hheaded : Headed payload staged.1 := by
        rcases prepareImages_result hstaged with heq | heq <;> rw [heq]
        · exact hattempt.headed
        · exact ⟨hattempt.headed.root, hattempt.headed.count⟩
      exact ⟨bounded.1, _, hattempt, rfl, rfl, rfl, hheaded, rfl, rfl, rfl⟩

theorem Headed.valid {result : ItemTransferResult} (h : Headed payload result)
    (hchecked : Checked payload version) :
    result.rootItemUid ≠ 0 ∧ result.itemCount ≠ 0 ∧
      result.itemCount.toNat ≤ itemTransferMaxItems := by
  have hlength : (BitVec.ofNat 16 payload.items.length).toNat = payload.items.length :=
    toNat_ofNat_of_le hchecked.count (by decide)
  rw [h.root, h.count, hlength]
  refine ⟨hchecked.resultRoot_ne_zero, fun hzero => ?_, hchecked.count⟩
  have hnil : payload.items.length = 0 := by
    rw [← hlength, hzero]
    rfl
  exact hchecked.nonempty (List.eq_nil_of_length_eq_zero hnil)

/-- The catalogue with its receipt is valid: the operation is new and the receipt names a
root. -/
theorem Receipted.valid {attempt : Attempt} {receipt : OperationState}
    (h : Receipted catalog command payload digest candidate attempt receipt)
    (hchecked : Checked payload version) (hcommand : criticalCommandValid command = true)
    (hfresh : ∀ entry ∈ catalog.operations, entry.operationId ≠ command.operationId) :
    Valid candidate.catalog := by
  have hvalid := h.recordable.valid
  have hid : criticalOperationIdIsZero command.operationId = false := by
    unfold criticalCommandValid at hcommand
    split at hcommand
    · cases hcommand
    · next hrefused =>
        simp only [not_or, Bool.not_eq_true] at hrefused
        exact hrefused.2.1
  have hreceipt : validOperation receipt = true := by
    obtain ⟨hroot, hcount, hmax⟩ := Headed.valid h.headed hchecked
    simp only [validOperation, h.operationId, hid, h.item, Bool.and_eq_true, Bool.or_eq_true,
      bne_iff_ne, decide_eq_true_eq]
    exact ⟨rfl, .inr ⟨⟨hroot, hcount⟩, hmax⟩⟩
  rw [h.catalog_eq]
  refine ⟨hvalid.owners, hvalid.items, hvalid.ownersValid, hvalid.rows, hvalid.owned,
    fun entry hentry => ?_, ?_⟩
  · rcases List.mem_append.mp hentry with hold | hnew
    · exact hvalid.operations entry hold
    · rw [List.mem_singleton.mp hnew]
      exact hreceipt
  · rw [List.map_append, List.nodup_append]
    refine ⟨hvalid.unique, List.nodup_singleton _, fun a ha b hb hab => ?_⟩
    obtain ⟨entry, hentry, rfl⟩ := List.mem_map.mp ha
    rw [List.map_singleton, List.mem_singleton] at hb
    rw [hb, h.operationId] at hab
    exact hfresh entry (h.recordable.operations ▸ hentry) hab

theorem makeResult_eq {result : ItemTransferResult} (h : Headed payload result)
    (hchecked : Checked payload version) (outcome : CriticalApplyOutcome)
    (errorCode : BitVec 32) :
    ∃ encoded, itemTransferCommandEncodeResult result = some encoded ∧
      (makeResult outcome errorCode result).outcome = outcome ∧
      (makeResult outcome errorCode result).errorCode = errorCode ∧
      (makeResult outcome errorCode result).resultSize = BitVec.ofNat 16 encoded.length ∧
      (makeResult outcome errorCode result).resultPayload = encoded := by
  obtain ⟨hroot, hcount, hmax⟩ := Headed.valid h hchecked
  have hencode : ∃ encoded, itemTransferCommandEncodeResult result = some encoded := by
    unfold itemTransferCommandEncodeResult
    rw [if_neg (by simp only [not_or, Nat.not_lt]; exact ⟨hroot, hcount, hmax⟩)]
    exact ⟨_, rfl⟩
  obtain ⟨encoded, hencode⟩ := hencode
  refine ⟨encoded, hencode, ?_⟩
  rw [makeResult, hencode]
  exact ⟨rfl, rfl, rfl, rfl⟩

end Candidate

/-! ## One command -/

/-- The command has no receipt yet, and there is room for one. -/
structure Applies (catalog : OwnershipCatalog) (command : CriticalCommand) : Prop where
  fresh : ∀ entry ∈ catalog.operations, entry.operationId ≠ command.operationId
  room : catalog.operations.length < ownershipMaximumOperations
  revision : catalog.revision ≠ BitVec.allOnes 64

/-- The owners a command names are in the table or fit into it, if it is to be applied. -/
def Roomy (sha256 : Bytes → Vector UInt8 32) (store : Option Bytes) (event : ItemCommand) :
    Prop :=
  ∀ catalog payload, loadCatalog sha256 store = some catalog →
    itemTransferCommandDecodePayload sha256 event.command = some payload →
      Applies catalog event.command → OwnersFit catalog payload

theorem checked_of_decode {payload : ItemTransferPayload}
    (h : itemTransferCommandDecodePayload sha256 command = some payload) :
    Checked payload command.payloadVersion := by
  unfold itemTransferCommandDecodePayload at h
  split at h
  · cases h
  · simp only [Option.bind_eq_bind, Option.bind_eq_some_iff] at h
    obtain ⟨decoded, _, h⟩ := h
    split at h
    · cases h
    · next hvalid =>
        rw [not_or, Bool.not_eq_false] at hvalid
        simp only [Option.bind_eq_some_iff] at h
        obtain ⟨_, _, h⟩ := h
        split at h
        · cases h
          exact validatePayload_iff.mp hvalid.1
        · cases h

theorem loadCatalog_valid {store : Option Bytes} (h : loadCatalog sha256 store = some catalog) :
    Valid catalog := by
  cases store with
  | none =>
      cases h
      exact validCatalog_iff.mp (by decide)
  | some bytes => exact decodeCatalog_valid h

/-- What the code does with a command it accepts: answer from the receipt, refuse without
a trace, or commit a candidate. -/
inductive Applied (sha256 : Bytes → Vector UInt8 32) (catalog : OwnershipCatalog)
    (event : ItemCommand) (payload : ItemTransferPayload)
    (digest : { digest : Bytes // digest.length = 32 })
    (answer : Option (Bytes × ItemImages) × CriticalApplyResult) : Prop where
  | recorded {entry : OperationState} (mem : entry ∈ catalog.operations)
      (operationId : entry.operationId = event.command.operationId)
      (answer_eq : answer = (none, answerRecorded catalog digest entry))
  | refused (fresh : ∀ entry ∈ catalog.operations,
        entry.operationId ≠ event.command.operationId)
      (untouched : answer.1 = none)
  | committed {candidate : Candidate} {ownership : Bytes} (applies : Applies catalog event.command)
      (candidate_eq :
        prepareCandidate catalog event.command payload digest event.prepared = .ok candidate)
      (encoded :
        encodeCatalog sha256 candidate.catalog (catalog.revision + 1) = some ownership)
      (answer_eq : answer = (some (ownership, candidate.images), candidate.answer))

section Step

variable {sha256 : Bytes → Vector UInt8 32} {store : Option Bytes} {event : ItemCommand}
  {catalog : OwnershipCatalog} {payload : ItemTransferPayload}
  {digest : { digest : Bytes // digest.length = 32 }}

theorem apply_applied (hload : loadCatalog sha256 store = some catalog)
    (hcommand : criticalCommandValid event.command = true)
    (hpayload : itemTransferCommandDecodePayload sha256 event.command = some payload)
    (hdigest : commandDigest sha256 event.command = some digest) :
    Applied sha256 catalog event payload digest
      (flatfileItemRepositoryApply sha256 store event.command event.prepared) := by
  have hnot : ¬ criticalCommandValid event.command = false := by rw [hcommand]; decide
  unfold flatfileItemRepositoryApply
  rw [if_neg hnot, hpayload, hdigest]
  rw [hload]
  dsimp only
  split
  · next entry hfound =>
      exact .recorded (List.mem_of_find?_eq_some hfound)
        (by simpa using List.find?_some hfound) rfl
  · next hfound =>
      have hfresh : ∀ entry ∈ catalog.operations,
          entry.operationId ≠ event.command.operationId := by
        simpa using hfound
      split
      · exact .refused hfresh rfl
      · next candidate hcandidate =>
          obtain ⟨hroom, hrevision⟩ := prepareCandidate_room hcandidate
          split
          · exact .refused hfresh rfl
          · next ownership hencode =>
              exact .committed ⟨hfresh, hroom, hrevision⟩ hcandidate hencode rfl

theorem apply_not_accepted (h : criticalCommandValid event.command = false ∨
      itemTransferCommandDecodePayload sha256 event.command = none ∨
      commandDigest sha256 event.command = none) :
    (flatfileItemRepositoryApply sha256 store event.command event.prepared).1 = none := by
  unfold flatfileItemRepositoryApply
  split
  · rfl
  · next hcommand =>
      split
      · next payload digest hpayload hdigest =>
          rcases h with h | h | h
          · exact absurd h hcommand
          · rw [h] at hpayload
            cases hpayload
          · rw [h] at hdigest
            cases hdigest
      · rfl

theorem step_of_none
    (h : (flatfileItemRepositoryApply sha256 store event.command event.prepared).1 = none) :
    step sha256 store event = store := by
  rw [step, h]

theorem step_of_some {ownership : Bytes} {images : ItemImages}
    (h : (flatfileItemRepositoryApply sha256 store event.command event.prepared).1 =
      some (ownership, images)) : step sha256 store event = some ownership := by
  rw [step, h]

theorem answerRecorded_same (hvalid : Valid catalog) {entry : OperationState}
    (hentry : entry ∈ catalog.operations) (hitem : entry.coinResult = none)
    (hsame : entry.commandDigest = digest) :
    (answerRecorded catalog digest entry).errorCode = entry.resultCode ∧
      itemTransferCommandEncodeResult entry.result =
        some (answerRecorded catalog digest entry).resultPayload := by
  have hgood := hvalid.operations entry hentry
  simp only [validOperation, hitem, Option.isSome_none, Bool.false_or, Bool.and_eq_true,
    bne_iff_ne, decide_eq_true_eq] at hgood
  obtain ⟨_, ⟨hroot, hcount⟩, hmax⟩ := hgood
  have hencode : ∃ encoded, itemTransferCommandEncodeResult entry.result = some encoded := by
    unfold itemTransferCommandEncodeResult
    rw [if_neg (by simp only [not_or, Nat.not_lt]; exact ⟨hroot, hcount, hmax⟩)]
    exact ⟨_, rfl⟩
  obtain ⟨encoded, hencode⟩ := hencode
  rw [answerRecorded, if_neg (not_not_intro hsame), makeResult, hencode]
  exact ⟨rfl, rfl⟩

theorem loadCatalog_committed {attempt : Attempt} {receipt : OperationState}
    {candidate : Candidate} {ownership : Bytes} {version : BitVec 16}
    (h : Receipted catalog event.command payload digest candidate attempt receipt)
    (hchecked : Checked payload version)
    (hcommand : criticalCommandValid event.command = true)
    (happlies : Applies catalog event.command)
    (hencode : encodeCatalog sha256 candidate.catalog (catalog.revision + 1) = some ownership) :
    loadCatalog sha256 (some ownership) =
      some { candidate.catalog with revision := catalog.revision + 1 } :=
  decodeCatalog_encode (h.valid hchecked hcommand happlies.fresh) hencode

end Step

/-- An accepted command: the payload and the digest the repository works with. -/
structure Accepted (sha256 : Bytes → Vector UInt8 32) (command : CriticalCommand)
    (payload : ItemTransferPayload) (digest : { digest : Bytes // digest.length = 32 }) :
    Prop where
  valid : criticalCommandValid command = true
  payload_eq : itemTransferCommandDecodePayload sha256 command = some payload
  digest_eq : commandDigest sha256 command = some digest

/-- What one command does to a readable file. What it commits reads back as the candidate
that was encoded; a recorded operation gets the answer of its receipt, or `EEXIST` under
another digest, and nothing changes; a recorded refusal adds its receipt, and owners at
revision zero. -/
structure Kept (sha256 : Bytes → Vector UInt8 32) (store : Option Bytes) (event : ItemCommand)
    (catalog : OwnershipCatalog) : Prop where
  loaded : loadCatalog sha256 store = some catalog
  committed : ∀ {payload digest ownership images},
    Accepted sha256 event.command payload digest →
    (flatfileItemRepositoryApply sha256 store event.command event.prepared).1 =
      some (ownership, images) →
    ∃ candidate,
      prepareCandidate catalog event.command payload digest event.prepared = .ok candidate ∧
      encodeCatalog sha256 candidate.catalog (catalog.revision + 1) = some ownership ∧
      step sha256 store event = some ownership ∧
      decodeCatalog sha256 ownership =
        some { candidate.catalog with revision := catalog.revision + 1 }
  recorded : ∀ {payload digest entry}, Accepted sha256 event.command payload digest →
    entry ∈ catalog.operations → entry.operationId = event.command.operationId →
    let answer := (flatfileItemRepositoryApply sha256 store event.command event.prepared).2
    step sha256 store event = store ∧
      (entry.commandDigest ≠ digest →
        answer.outcome = .terminalFailure ∧ answer.errorCode = eexist) ∧
      (entry.commandDigest = digest → entry.coinResult = none →
        answer.errorCode = entry.resultCode ∧
          itemTransferCommandEncodeResult entry.result = some answer.resultPayload)
  refused : ∀ {payload digest image},
    Accepted sha256 event.command payload digest →
    (flatfileItemRepositoryApply sha256 store event.command event.prepared).1 = some image →
    (flatfileItemRepositoryApply sha256 store event.command event.prepared).2.errorCode ≠ 0 →
    ∃ after receipt, loadCatalog sha256 (step sha256 store event) = some after ∧
      after.items = catalog.items ∧
      (∀ entry ∈ catalog.owners, entry ∈ after.owners) ∧
      (∀ entry ∈ after.owners, entry ∈ catalog.owners ∨
        entry.revision = 0 ∧ ∀ other ∈ catalog.owners, other.owner ≠ entry.owner) ∧
      receipt.operationId = event.command.operationId ∧
      after.operations = catalog.operations ++ [receipt]

section Run

variable {sha256 : Bytes → Vector UInt8 32} {store : Option Bytes} {event : ItemCommand}
  {catalog : OwnershipCatalog} {payload : ItemTransferPayload}
  {digest : { digest : Bytes // digest.length = 32 }}

theorem receipted_of_roomy (hload : loadCatalog sha256 store = some catalog)
    (hroomy : Roomy sha256 store event) (haccepted : Accepted sha256 event.command payload digest)
    {candidate : Candidate} (happlies : Applies catalog event.command)
    (hcandidate :
      prepareCandidate catalog event.command payload digest event.prepared = .ok candidate) :
    ∃ attempt receipt,
      Receipted catalog event.command payload digest candidate attempt receipt :=
  prepareCandidate_receipted (checked_of_decode haccepted.payload_eq) (loadCatalog_valid hload)
    (hroomy catalog payload hload haccepted.payload_eq happlies) hcandidate

theorem step_kept (hload : loadCatalog sha256 store = some catalog)
    (hroomy : Roomy sha256 store event) : Kept sha256 store event catalog where
  loaded := hload
  committed {payload digest ownership images} haccepted hsome := by
    cases apply_applied hload haccepted.valid haccepted.payload_eq haccepted.digest_eq with
    | recorded _ _ hanswer =>
        rw [hanswer] at hsome
        cases hsome
    | refused _ hnone =>
        rw [hnone] at hsome
        cases hsome
    | committed happlies hcandidate hencode hanswer =>
        have hstep := step_of_some hsome
        rw [hanswer] at hsome
        cases hsome
        obtain ⟨attempt, receipt, hreceipted⟩ :=
          receipted_of_roomy hload hroomy haccepted happlies hcandidate
        exact ⟨_, hcandidate, hencode, hstep, loadCatalog_committed hreceipted
          (checked_of_decode haccepted.payload_eq) haccepted.valid happlies hencode⟩
  recorded {payload digest entry} haccepted hentry hid := by
    have hvalid := loadCatalog_valid hload
    cases apply_applied hload haccepted.valid haccepted.payload_eq haccepted.digest_eq with
    | @recorded found hmem hfound hanswer =>
        -- no two receipts share an operation
        have hsame : found = entry :=
          Keyed.eq_of_key_eq hvalid.unique hmem hentry (hfound.trans hid.symm)
        subst hsame
        refine ⟨step_of_none (by rw [hanswer]), fun hne => ?_, fun heq hitem => ?_⟩
        · rw [hanswer, answerRecorded, if_pos hne]
          exact ⟨rfl, rfl⟩
        · rw [hanswer]
          exact answerRecorded_same hvalid hentry hitem heq
    | refused hfresh _ => exact absurd hid (hfresh entry hentry)
    | committed happlies _ _ _ => exact absurd hid (happlies.fresh entry hentry)
  refused {payload digest image} haccepted hsome hcode := by
    cases apply_applied hload haccepted.valid haccepted.payload_eq haccepted.digest_eq with
    | recorded _ _ hanswer =>
        rw [hanswer] at hsome
        cases hsome
    | refused _ hnone =>
        rw [hnone] at hsome
        cases hsome
    | committed happlies hcandidate hencode hanswer =>
        have hchecked := checked_of_decode haccepted.payload_eq
        have hstep := step_of_some (by rw [hanswer])
        obtain ⟨attempt, receipt, hreceipted⟩ :=
          receipted_of_roomy hload hroomy haccepted happlies hcandidate
        have hload' :=
          loadCatalog_committed hreceipted hchecked haccepted.valid happlies hencode
        obtain ⟨_, _, _, herror, _⟩ := makeResult_eq hreceipted.headed hchecked
          (if attempt.code = 0 then .applied else .terminalFailure) attempt.code
        rw [hanswer, hreceipted.answer, herror] at hcode
        have hgrown := hreceipted.recordable.refused hcode
        refine ⟨_, receipt, by rw [hstep]; exact hload', ?_, ?_, ?_, hreceipted.operationId, ?_⟩
        · rw [hreceipted.catalog_eq]
          exact hgrown.items
        · rw [hreceipted.catalog_eq]
          exact hgrown.kept
        · rw [hreceipted.catalog_eq]
          exact fun entry hentry => (hgrown.added entry hentry).imp_right And.right
        · rw [hreceipted.catalog_eq]
          exact congrArg (· ++ [receipt]) hgrown.operations

theorem step_loaded (hload : loadCatalog sha256 store = some catalog)
    (hroomy : Roomy sha256 store event) :
    ∃ after, loadCatalog sha256 (step sha256 store event) = some after ∧
      ∀ entry ∈ catalog.operations, entry ∈ after.operations := by
  by_cases haccepted : ∃ payload digest, Accepted sha256 event.command payload digest
  · obtain ⟨payload, digest, haccepted⟩ := haccepted
    cases apply_applied hload haccepted.valid haccepted.payload_eq haccepted.digest_eq with
    | recorded _ _ hanswer =>
        rw [step_of_none (by rw [hanswer])]
        exact ⟨catalog, hload, fun _ hentry => hentry⟩
    | refused _ hnone =>
        rw [step_of_none hnone]
        exact ⟨catalog, hload, fun _ hentry => hentry⟩
    | committed happlies hcandidate hencode hanswer =>
        obtain ⟨attempt, receipt, hreceipted⟩ :=
          receipted_of_roomy hload hroomy haccepted happlies hcandidate
        rw [step_of_some (by rw [hanswer])]
        refine ⟨_, loadCatalog_committed hreceipted (checked_of_decode haccepted.payload_eq)
          haccepted.valid happlies hencode, fun entry hentry => ?_⟩
        rw [hreceipted.catalog_eq]
        exact List.mem_append_left _ (hreceipted.recordable.operations ▸ hentry)
  · rw [step_of_none (apply_not_accepted ?_)]
    · exact ⟨catalog, hload, fun _ hentry => hentry⟩
    · by_contra hnot
      simp only [not_or, Bool.not_eq_false] at hnot
      obtain ⟨payload, hpayload⟩ := Option.ne_none_iff_exists'.mp hnot.2.1
      obtain ⟨digest, hdigest⟩ := Option.ne_none_iff_exists'.mp hnot.2.2
      exact haccepted ⟨payload, digest, hnot.1, hpayload, hdigest⟩

theorem run_loaded (events : List ItemCommand) (hload : loadCatalog sha256 store = some catalog)
    (hroomy : Along (step sha256) (Roomy sha256) store events) :
    ∃ after, loadCatalog sha256 (run (step sha256) store events) = some after ∧
      ∀ entry ∈ catalog.operations, entry ∈ after.operations := by
  refine run_invariant_along
    (P := fun store => ∃ after, loadCatalog sha256 store = some after ∧
      ∀ entry ∈ catalog.operations, entry ∈ after.operations)
    (fun store event hstore hok => ?_) events ⟨catalog, hload, fun _ hentry => hentry⟩ hroomy
  obtain ⟨current, hcurrent, hkept⟩ := hstore
  obtain ⟨after, hafter, hkept'⟩ := step_loaded hcurrent hok
  exact ⟨after, hafter, fun entry hentry => hkept' entry (hkept entry hentry)⟩

theorem step_receipt (hload : loadCatalog sha256 store = some catalog)
    (hroomy : Roomy sha256 store event) (haccepted : Accepted sha256 event.command payload digest)
    {image : Bytes × ItemImages}
    (hsome : (flatfileItemRepositoryApply sha256 store event.command event.prepared).1 =
      some image) :
    ∃ after receipt, loadCatalog sha256 (step sha256 store event) = some after ∧
      receipt ∈ after.operations ∧ receipt.operationId = event.command.operationId ∧
      receipt.commandDigest = digest ∧ receipt.coinResult = none ∧
      (flatfileItemRepositoryApply sha256 store event.command event.prepared).2.errorCode =
        receipt.resultCode ∧
      itemTransferCommandEncodeResult receipt.result = some
        (flatfileItemRepositoryApply sha256 store event.command
          event.prepared).2.resultPayload := by
  cases apply_applied hload haccepted.valid haccepted.payload_eq haccepted.digest_eq with
  | recorded _ _ hanswer =>
      rw [hanswer] at hsome
      cases hsome
  | refused _ hnone =>
      rw [hnone] at hsome
      cases hsome
  | committed happlies hcandidate hencode hanswer =>
      have hchecked := checked_of_decode haccepted.payload_eq
      obtain ⟨attempt, receipt, hreceipted⟩ :=
        receipted_of_roomy hload hroomy haccepted happlies hcandidate
      obtain ⟨encoded, hencoded, _, herror, _, hpayload⟩ := makeResult_eq hreceipted.headed
        hchecked (if attempt.code = 0 then .applied else .terminalFailure) attempt.code
      rw [step_of_some (by rw [hanswer]), hanswer]
      refine ⟨_, receipt,
        loadCatalog_committed hreceipted hchecked haccepted.valid happlies hencode, ?_,
        hreceipted.operationId, hreceipted.digest, hreceipted.item, ?_, ?_⟩
      · rw [hreceipted.catalog_eq]
        exact List.mem_append_right _ (List.mem_singleton_self receipt)
      · rw [hreceipted.answer, herror, hreceipted.resultCode]
      · rw [hreceipted.answer, hpayload, hencoded]

/-- What a second command under an operation id gets once the first one is committed. -/
def Repeated (sha256 : Bytes → Vector UInt8 32) (store : Option Bytes) (event : ItemCommand)
    (later : Option Bytes) (again : ItemCommand) : Prop :=
  let first := flatfileItemRepositoryApply sha256 store event.command event.prepared
  let second := flatfileItemRepositoryApply sha256 later again.command again.prepared
  ∀ payload digest payload' digest', Accepted sha256 event.command payload digest →
    Accepted sha256 again.command payload' digest' →
    again.command.operationId = event.command.operationId → first.1.isSome = true →
    step sha256 later again = later ∧
      (digest' = digest → second.2.errorCode = first.2.errorCode ∧
        second.2.resultPayload = first.2.resultPayload) ∧
      (digest' ≠ digest → second.2.outcome = .terminalFailure ∧ second.2.errorCode = eexist)

/-- Every run from a readable file in which each command's owners fit in the owner table:
the file is readable to the end, every step keeps what it should, and no operation is
carried out twice. -/
theorem itemAuthority_exactly_once {bytes : Bytes} {events : List ItemCommand}
    (hstart : decodeCatalog sha256 bytes = some catalog)
    (hroomy : Along (step sha256) (Roomy sha256) (some bytes) events) :
    (∃ final, loadCatalog sha256 (run (step sha256) (some bytes) events) = some final) ∧
      ∀ before event after, events = before ++ event :: after →
        (∃ current, Kept sha256 (run (step sha256) (some bytes) before) event current) ∧
          ∀ between again rest, after = between ++ again :: rest →
            Repeated sha256 (run (step sha256) (some bytes) before) event
              (run (step sha256) (some bytes) (before ++ event :: between)) again := by
  have hload : loadCatalog sha256 (some bytes) = some catalog := hstart
  obtain ⟨final, hfinal, _⟩ := run_loaded events hload hroomy
  refine ⟨⟨final, hfinal⟩, fun before event after hevents => ?_⟩
  subst hevents
  obtain ⟨hbefore, hevent, hafter⟩ := (along_append before (event :: after) _).mp hroomy
  obtain ⟨current, hcurrent, _⟩ := run_loaded before hload hbefore
  refine ⟨⟨current, step_kept hcurrent hevent⟩, fun between again rest hrest => ?_⟩
  subst hrest
  obtain ⟨hbetween, hagain, _⟩ := (along_append between (again :: rest) _).mp hafter
  intro payload digest payload' digest' haccepted haccepted' hid hsome
  obtain ⟨image, himage⟩ := Option.isSome_iff_exists.mp hsome
  obtain ⟨stepped, receipt, hstepped, hmem, hreceiptId, hdigest, hitem, hcode, hresult⟩ :=
    step_receipt hcurrent hevent haccepted himage
  -- the receipt is still there when the second command comes
  obtain ⟨later, hlater, hkept⟩ := run_loaded between hstepped hbetween
  rw [run_append, run_cons]
  obtain ⟨hsame, hother, hrepeat⟩ := (step_kept hlater hagain).recorded haccepted'
    (hkept receipt hmem) (hreceiptId.trans hid.symm)
  rw [hdigest] at hother hrepeat
  refine ⟨hsame, fun heq => ?_, fun hne => hother (Ne.symm hne)⟩
  obtain ⟨hcode', hresult'⟩ := hrepeat heq.symm hitem
  refine ⟨hcode'.trans hcode.symm, ?_⟩
  rw [hresult] at hresult'
  exact (Option.some.inj hresult').symm

end Run

/-! ## A small table and a full one -/

/-- The player whose owner stands at a place of the table below. -/
def crowdedOwner (index : Nat) : OwnerState :=
  ⟨⟨ItemOwnerType.player, BitVec.ofNat 64 (index + 1), 0⟩, 0⟩

/-- A catalogue whose owner table the first `count` players fill. -/
def crowdedCatalog (count : Nat) : OwnershipCatalog :=
  { revision := 1, owners := (List.range count).map crowdedOwner }

theorem crowdedOwner_id {index : Nat} (h : index < ownershipMaximumEntries) :
    (crowdedOwner index).owner.id.toNat = index + 1 := by
  simp only [crowdedOwner, BitVec.toNat_ofNat]
  simp only [ownershipMaximumEntries] at h
  exact Nat.mod_eq_of_lt (by omega)

variable {count : Nat}

theorem crowdedCatalog_valid (h : count ≤ ownershipMaximumEntries) :
    Valid (crowdedCatalog count) where
  owners := by
    refine List.pairwise_map.mpr (List.pairwise_lt_range.imp_of_mem
      fun {left right} hleft hright hlt => ?_)
    rw [List.mem_range] at hleft hright
    have hless : (crowdedOwner left).owner.id < (crowdedOwner right).owner.id := by
      rw [BitVec.lt_def, crowdedOwner_id (by omega), crowdedOwner_id (by omega)]
      omega
    have hdistinct : (crowdedOwner left).owner.id ≠ (crowdedOwner right).owner.id :=
      fun heq => absurd (heq ▸ hless) (BitVec.lt_irrefl _)
    have htype : ¬ (crowdedOwner left).owner.type ≠ (crowdedOwner right).owner.type :=
      not_not_intro rfl
    rw [ownerLess, if_neg htype, if_pos hdistinct]
    exact decide_eq_true hless
  items := .nil
  ownersValid := by
    intro entry hentry
    obtain ⟨index, hindex, rfl⟩ := List.mem_map.mp hentry
    rw [List.mem_range] at hindex
    have hnonzero : (crowdedOwner index).owner.id ≠ 0 := by
      intro hzero
      have hid := crowdedOwner_id (Nat.lt_of_lt_of_le hindex h)
      rw [hzero] at hid
      simp at hid
    exact bne_iff_ne.mpr hnonzero
  rows := fun _ hentry => absurd hentry List.not_mem_nil
  owned := fun _ hentry => absurd hentry List.not_mem_nil
  operations := fun _ hentry => absurd hentry List.not_mem_nil
  unique := .nil

theorem encodeRows_crowded (count : Nat) (operations : List OperationState) :
    (encodeRows { crowdedCatalog count with operations }).length =
      12 + count * 25 + (operations.flatMap encodeOperation).length := by
  have howner (entry : OwnerState) : (encodeOwnerState entry).length = 25 := by
    simp [encodeOwnerState, encodeOwner, appendLe_length]
  have howners : ((crowdedCatalog count).owners.flatMap encodeOwnerState).length = count * 25 := by
    rw [List.length_flatMap, List.map_congr_left fun entry _ => howner entry, List.map_const',
      List.sum_replicate]
    simp [crowdedCatalog]
  simp only [encodeRows, encodeCounts, List.length_append, appendLe_length, howners]
  simp [crowdedCatalog]

theorem encodeCatalog_crowded (sha256 : Bytes → Vector UInt8 32)
    (h : count ≤ ownershipMaximumEntries) (operations : List OperationState)
    (hoperations : operations.length ≤ ownershipMaximumOperations)
    (hsize : (operations.flatMap encodeOperation).length ≤ 1000) {revision : BitVec 64}
    (hrevision : revision ≠ 0) :
    ∃ bytes, encodeCatalog sha256 { crowdedCatalog count with operations } revision =
      some bytes := by
  have hrows := encodeRows_crowded count operations
  have hfits : (crowdedCatalog count).owners.length ≤ ownershipMaximumEntries := by
    simpa [crowdedCatalog] using h
  unfold encodeCatalog
  rw [if_neg, if_neg]
  · exact ⟨_, rfl⟩
  · simp only [List.length_append, encodeCatalogHeader, appendLe_length, hrows, not_or,
      Vector.length_toList, ownershipMagic, List.length_cons, List.length_nil]
    simp only [ownershipMaximumEntries] at h
    simp only [ownershipMaximumBytes]
    omega
  · simp only [not_or, Nat.not_lt]
    exact ⟨hrevision, hfits, Nat.zero_le _, hoperations, by simp [crowdedCatalog]⟩

theorem findOwner_crowded (hcount : count ≤ ownershipMaximumEntries) {owner : ItemOwnerIdentity}
    (h : owner.type ≠ ItemOwnerType.player) : findOwner (crowdedCatalog count) owner = none := by
  refine (findOwner_eq_none (crowdedCatalog_valid hcount).owners).mpr fun entry hentry heq => ?_
  obtain ⟨index, _, rfl⟩ := List.mem_map.mp hentry
  exact h (congrArg ItemOwnerIdentity.type heq).symm

theorem prepareCandidate_refused {payload : ItemTransferPayload}
    {digest : { digest : Bytes // digest.length = 32 }} {prepared : Prepared}
    (hroom : catalog.operations.length < ownershipMaximumOperations)
    (hrevision : catalog.revision ≠ BitVec.allOnes 64)
    (hreason : payload.reason ≠ ItemTransferReason.craft)
    (hcode : (applyTransfer catalog payload).code ≠ 0)
    (hknown : (applyTransfer catalog payload).code ≠ eilseq) :
    ∃ candidate, prepareCandidate catalog command payload digest prepared = .ok candidate ∧
      candidate.catalog =
        { (applyTransfer catalog payload).catalog with
          operations := (applyTransfer catalog payload).catalog.operations ++
            [⟨command.operationId, digest, (applyTransfer catalog payload).code,
              (applyTransfer catalog payload).result, none⟩] } := by
  have hattempt : attemptTransfer catalog payload command.payloadVersion =
      applyTransfer catalog payload := by
    unfold attemptTransfer
    rw [if_neg hreason]
    exact if_neg fun h => hcode h.1
  have hartifacts : checkArtifacts catalog payload command.payloadVersion prepared
      (applyTransfer catalog payload) = .ok (applyTransfer catalog payload) :=
    if_neg fun h => hcode h.1
  have hboundary : checkBoundary catalog payload prepared (applyTransfer catalog payload) =
      .ok (applyTransfer catalog payload, false) := if_neg hcode
  have himages : ∃ images, prepareImages catalog payload command.payloadVersion prepared
      (applyTransfer catalog payload) false =
        .ok ((applyTransfer catalog payload).result, images) := by
    have hexact : ((applyTransfer catalog payload).code == 0) = false := beq_false_of_ne hcode
    unfold prepareImages
    simp only [hexact, Bool.false_and, includeLocker, includeCorpse, includeRoom, includeOptional,
      Bool.false_eq_true, false_and, if_false, bind, Except.bind, pure, Except.pure]
    exact ⟨_, rfl⟩
  obtain ⟨images, himages⟩ := himages
  unfold prepareCandidate
  rw [if_neg (by rw [not_or, Nat.not_le]; exact ⟨hroom, hrevision⟩)]
  simp only [hattempt, if_neg hknown, hartifacts, hboundary, himages, bind, Except.bind, pure,
    Except.pure]
  exact ⟨_, rfl, rfl⟩

/-- The receipt of a transfer that found no room for its owners is refused when the file is
read, and with it the file. -/
theorem decodeCatalog_unreadable {revision : BitVec 64} {bytes : Bytes}
    (h : encodeCatalog sha256 catalog revision = some bytes)
    (hreceipt : ∃ entry ∈ catalog.operations, validOperation entry = false) :
    decodeCatalog sha256 bytes = none := by
  obtain ⟨entry, hentry, hbad⟩ := hreceipt
  rw [decodeCatalog_file h, if_neg]
  intro hvalid
  have hgood := (validCatalog_iff.mp hvalid).operations entry hentry
  rw [hbad] at hgood
  cases hgood

def quietStores : Prepared :=
  { corpseConflict := .ok, boundary := .unchanged, boundaryCode := 0, boundaryImage := false
    locker := .ok, lockerItems := [], corpse := .ok, corpseItems := [], corpseCreated := false
    corpseRevision := 0, room := .ok, roomItems := [], roomCreated := false, roomRevision := 0
    corpseArtifacts := .unchanged, roomArtifacts := .unchanged, materialization := .unchanged }

theorem looseDeath_accepted (sha256 : Bytes → Vector UInt8 32) :
    ∃ command digest, Accepted sha256 command (stored (looseDeath 1)) digest := by
  obtain ⟨command, hbuild⟩ := looseDeath_builds (by decide : 0 < 1) (by decide) sha256
    (by decide : criticalOperationIdIsZero ⟨List.replicate 16 1, List.length_replicate⟩ = false)
    CriticalSourceSite.command CriticalDeadlineClass.interactive
  have hpayload := itemTransferCommandDecodePayload_build hbuild 1
  have hnormal := criticalCommandNormalize_build hbuild (by decide) (by decide)
    (by decide : (1 : BitVec 64) ≠ 0)
  rw [if_neg (by decide)] at hnormal
  obtain ⟨hvalid, -⟩ := criticalCommandNormalize_eq_some hnormal
  have hdigest : ∃ digest, commandDigest sha256 { command with acceptedAtUsec := 1 } =
      some digest := by
    rw [commandDigest, criticalCommandEncode_of_valid hvalid]
    exact ⟨_, rfl⟩
  obtain ⟨digest, hdigest⟩ := hdigest
  exact ⟨_, digest, hvalid, hpayload, hdigest⟩

/-- A death on a catalogue of one player. -/
theorem itemAuthority_exactly_once_death : ∃ bytes event,
    (∃ final, loadCatalog Sha256.hash
      (run (step Sha256.hash) (some bytes) [event]) = some final) ∧
    ∃ current, Kept Sha256.hash (some bytes) event current := by
  obtain ⟨command, digest, haccepted⟩ := looseDeath_accepted Sha256.hash
  have hone : 1 ≤ ownershipMaximumEntries := by decide
  obtain ⟨bytes, hencode⟩ := encodeCatalog_crowded Sha256.hash hone
    [] (Nat.zero_le _) (Nat.zero_le _) (by decide : (1 : BitVec 64) ≠ 0)
  have hload : decodeCatalog Sha256.hash bytes = some (crowdedCatalog 1) :=
    decodeCatalog_encode (crowdedCatalog_valid hone) hencode
  have hroomy : Roomy Sha256.hash (some bytes) ⟨command, quietStores⟩ := by
    intro catalog payload hcatalog _ _
    rw [show loadCatalog _ (some bytes) = some (crowdedCatalog 1) from hload] at hcatalog
    cases hcatalog
    have hmissing : (missingOwners (crowdedCatalog 1) payload).length ≤ 2 :=
      (List.length_filter_le ..).trans (List.dedup_sublist _).length_le
    exact (Nat.add_le_add_left hmissing 1).trans (by decide)
  have halong : Along (step Sha256.hash)
      (Roomy Sha256.hash) (some bytes) [⟨command, quietStores⟩] :=
    ⟨hroomy, trivial⟩
  obtain ⟨hfinal, hkept⟩ := itemAuthority_exactly_once hload halong
  exact ⟨bytes, ⟨command, quietStores⟩, hfinal, (hkept [] _ [] rfl).1⟩

theorem crowded_unreadable (hcount : count = ownershipMaximumEntries)
    {digest : { digest : Bytes // digest.length = 32 }}
    (haccepted : Accepted sha256 command (stored (looseDeath 1)) digest) :
    ∃ bytes catalog image, decodeCatalog sha256 bytes = some catalog ∧
      (flatfileItemRepositoryApply sha256 (some bytes) command quietStores).1 = some image ∧
      decodeCatalog sha256 image.1 = none := by
  have hfits : count ≤ ownershipMaximumEntries := hcount.le
  have hvalid := crowdedCatalog_valid hfits
  obtain ⟨bytes, hencode⟩ := encodeCatalog_crowded sha256 hfits [] (Nat.zero_le _)
    (Nat.zero_le _) (by decide : (1 : BitVec 64) ≠ 0)
  have hload : loadCatalog sha256 (some bytes) = some (crowdedCatalog count) :=
    decodeCatalog_encode hvalid hencode
  -- player 1 has an owner, and the corpse has none
  have hfrom : ∃ entry, findOwner (crowdedCatalog count) (stored (looseDeath 1)).fromOwner =
      some entry := by
    refine ⟨crowdedOwner 0, (findOwner_eq_some hvalid.owners).mpr ⟨?_, rfl⟩⟩
    refine List.mem_map.mpr ⟨0, List.mem_range.mpr ?_, rfl⟩
    rw [hcount]
    decide
  have hto : findOwner (crowdedCatalog count) (stored (looseDeath 1)).toOwner = none :=
    findOwner_crowded hfits (by decide)
  have hfirst : ensureOwner (crowdedCatalog count) (stored (looseDeath 1)).fromOwner =
      some (crowdedCatalog count) := by
    obtain ⟨entry, hfrom⟩ := hfrom
    rw [ensureOwner, hfrom]
  have hsecond : ensureOwner (crowdedCatalog count) (stored (looseDeath 1)).toOwner = none := by
    rw [ensureOwner, hto]
    exact if_pos (by simp [crowdedCatalog, hcount])
  have hattempt : applyTransfer (crowdedCatalog count) (stored (looseDeath 1)) =
      ⟨enospc, crowdedCatalog count, {}⟩ := by
    rw [applyTransfer, hfirst]
    dsimp only
    rw [hsecond]
  obtain ⟨candidate, hcandidate, hcatalog⟩ := @prepareCandidate_refused
    (crowdedCatalog count) command (stored (looseDeath 1)) digest quietStores
    (Nat.zero_lt_succ _)
    (by decide : (1 : BitVec 64) ≠ BitVec.allOnes 64) (by decide)
    (by rw [hattempt]; exact (by decide : enospc ≠ 0))
    (by rw [hattempt]; exact (by decide : enospc ≠ eilseq))
  have hcatalog : candidate.catalog = { crowdedCatalog count with
      operations := [⟨command.operationId, digest, enospc, {}, none⟩] } := by
    rw [hcatalog, hattempt]
    rfl
  have hreceipt : ([(⟨command.operationId, digest, enospc, {}, none⟩ : OperationState)].flatMap
      encodeOperation).length ≤ 1000 := by
    simp [encodeOperation, encodeCoin, appendLe_length, command.operationId.size_eq, digest.2]
  obtain ⟨ownership, hownership⟩ := encodeCatalog_crowded sha256 hfits
    [⟨command.operationId, digest, enospc, {}, none⟩] (Nat.succ_le_succ (Nat.zero_le _))
    hreceipt (by decide : (1 + 1 : BitVec 64) ≠ 0)
  have hcommitted : (flatfileItemRepositoryApply sha256 (some bytes) command quietStores).1 =
      some (ownership, candidate.images) := by
    unfold flatfileItemRepositoryApply
    rw [if_neg (by rw [haccepted.valid]; decide), haccepted.payload_eq, haccepted.digest_eq]
    rw [hload]
    dsimp only
    rw [show (crowdedCatalog count).operations = [] from rfl, List.find?_nil]
    dsimp only
    rw [hcandidate]
    dsimp only
    rw [hcatalog, show (crowdedCatalog count).revision = 1 from rfl, hownership]
  refine ⟨bytes, crowdedCatalog count, _, hload, hcommitted, decodeCatalog_unreadable hownership
    ⟨_, List.mem_singleton_self _, by simp [validOperation]⟩⟩

/-- A receipt that makes the file unreadable: the death of a player when the owner table
is full. -/
theorem full_table_unreadable : ∃ command payload digest bytes catalog image,
    Accepted Sha256.hash command payload digest ∧
    decodeCatalog Sha256.hash bytes = some catalog ∧
    (flatfileItemRepositoryApply Sha256.hash (some bytes) command
      quietStores).1 = some image ∧
    decodeCatalog Sha256.hash image.1 = none := by
  obtain ⟨command, digest, haccepted⟩ := looseDeath_accepted Sha256.hash
  obtain ⟨bytes, catalog, image, h⟩ := crowded_unreadable rfl haccepted
  exact ⟨command, _, digest, bytes, catalog, image, haccepted, h⟩

end Duris.Flatfile.Ownership
