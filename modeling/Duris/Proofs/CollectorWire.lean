import Duris.Lib.Sha256
import Duris.Proofs.CollectorCodec
import Duris.Proofs.ItemTransferCodec
import Duris.Proofs.WireTexts

/-!
# The collector format, and the one byte it lets through

The bytes of an accepted command are those of the decoded payload with the name as it
stands on the wire (`collectorWire`). The encoder writes the same bytes with the C
string of the name. So a command comes back byte for byte exactly when no byte of its
name is zero, and a built command, whose name is a C string already, always does.
-/

namespace Duris.Economy

open Persistence Player Item Reader

/-! ## The bytes of a payload -/

/-- The payload with `name` on the wire. -/
def collectorWire (payload : CollectorCommandPayload) (name : Bytes) : Bytes :=
  encodeCollectorHeader payload ++ (payload.items.flatMap encodeEntry ++ (textField 16 name ++
    (appendLe (BitVec.ofNat 32 payload.itemBlob.length) ++ payload.itemBlob)))

/-- The account name as it stands on the wire: behind 109 bytes of fields, the last two
of which count the rows, and forty bytes for each row. -/
def collectorWireTexts (bytes : Bytes) : List Bytes :=
  textsAfter 16 [109 + 40 * (getLe 16 bytes 107).toNat] bytes

theorem encodeOwner_length (owner : ItemOwnerIdentity) : (encodeOwner owner).length = 17 := by
  simp [encodeOwner]

theorem encodeCollectorHeader_length (payload : CollectorCommandPayload) :
    (encodeCollectorHeader payload).length = 109 := by
  simp [encodeCollectorHeader, encodeOwner_length]

theorem encodeEntry_length (entry : ItemTransferEntry) : (encodeEntry entry).length = 40 := by
  simp [encodeEntry]

variable {payload : CollectorCommandPayload} {name : Bytes}

theorem collectorWireTexts_wire (hitems : payload.items.length < 2 ^ 16)
    (hname : name.length < 2 ^ 16) : collectorWireTexts (collectorWire payload name) = [name] := by
  have hcount : getLe 16 (collectorWire payload name) 107 =
      BitVec.ofNat 16 payload.items.length := by
    have hsplit : ∃ front, front.length = 107 ∧ encodeCollectorHeader payload =
        front ++ appendLe (BitVec.ofNat 16 payload.items.length) := by
      refine ⟨_, ?_, rfl⟩
      simp [encodeOwner_length]
    obtain ⟨front, hfront, hsplit⟩ := hsplit
    rw [getLe, collectorWire, hsplit, List.append_assoc, List.drop_left' hfront,
      List.take_left' (appendLe_length _), ofNat_leNat_appendLe]
  rw [collectorWireTexts, hcount, BitVec.toNat_ofNat, Nat.mod_eq_of_lt hitems, collectorWire,
    ← List.append_assoc (encodeCollectorHeader payload), textsAfter_cons _ hname]
  · rfl
  · rw [List.length_append, encodeCollectorHeader_length,
      flatMap_length_const encodeEntry_length, Nat.mul_comm]

theorem collectorWire_cString_iff :
    collectorWire payload (cString name) = collectorWire payload name ↔ 0 ∉ name := by
  constructor
  · intro h
    have hlength := congrArg List.length h
    simp only [collectorWire, List.length_append, textField_length] at hlength
    exact cString_length_eq.mp (by omega)
  · intro h
    rw [cString_eq_self.mpr h]

/-! ## Reading them -/

theorem CollectorAction.ofCode_eq_some {code : BitVec 8} {action : CollectorAction} :
    CollectorAction.ofCode code = some action ↔ action ≠ .unknown ∧ code = action.code := by
  constructor
  · intro h
    have hcode := List.find?_some h
    rw [beq_iff_eq] at hcode
    refine ⟨?_, hcode.symm⟩
    rintro rfl
    exact absurd (List.mem_of_find?_eq_some h) (by decide)
  · rintro ⟨haction, rfl⟩
    cases action
    case unknown => exact absurd rfl haction
    all_goals rfl

/-- What stands before the rows, where they are `count`. -/
def collectorHeaderBytes (payload : CollectorCommandPayload) (count : Nat) : Bytes :=
  appendLe payload.action.code ++ appendLe payload.cancelReason.toByte ++
    appendLe payload.targetState ++ appendLe (Collector.boolByte payload.capacityAdmitted) ++
    appendLe payload.listing ++ appendLe payload.expectedListingRevision ++
    appendLe payload.observedAt ++ appendLe payload.actorPid ++ appendLe payload.racewar ++
    appendLe payload.expectedWalletRevision ++ appendLe payload.expectedBankRevision ++
    encodeOwner payload.fromOwner ++ encodeOwner payload.toOwner ++
    appendLe payload.expectedFromOwnerRevision ++ appendLe payload.expectedToOwnerRevision ++
    appendLe payload.selectedItemUid ++ appendLe (BitVec.ofNat 16 count)

/-- A header: an action, and nothing in the fields that come later. -/
structure CollectorHeader (header : CollectorCommandPayload) (count : Nat) : Prop where
  action : header.action ≠ .unknown
  count_le : count ≤ collectorCommandMaxItems
  name : header.accountName = nameArray []
  items : header.items = []
  itemBlob : header.itemBlob = []

theorem readCollectorHeader_eq_ok {read : CollectorCommandPayload × Nat} {input rest : Bytes} :
    readCollectorHeader input = .ok (read, rest) ↔
      CollectorHeader read.1 read.2 ∧ input = collectorHeaderBytes read.1 read.2 ++ rest := by
  obtain ⟨header, count⟩ := read
  constructor
  · intro h
    simp only [readCollectorHeader, readOwner, bind_eq_ok, pure_eq_ok, require_eq_ok,
      ofOption_eq_ok, decodeOwner_eq_ok, field_eq_ok, CollectorAction.ofCode_eq_some,
      Collector.Reason.ofByte_eq_some] at h
    obtain ⟨_, _, rfl, _, _, rfl, targetState, _, rfl, capacity, _, rfl, _, _, ⟨hcapacity, rfl⟩,
      listing, _, rfl, listingRevision, _, rfl, observedAt, _, rfl, actorPid, _, rfl,
      racewar, _, rfl, walletRevision, _, rfl, bankRevision, _, rfl, source, _, rfl,
      target, _, rfl, sourceRevision, _, rfl, targetRevision, _, rfl, selected, _, rfl,
      itemCount, _, rfl, _, _, ⟨hcount, rfl⟩, action, _, ⟨⟨haction, rfl⟩, rfl⟩, reason, _,
      ⟨rfl, rfl⟩, hheader, rfl⟩ := h
    cases hheader
    refine ⟨⟨haction, hcount, rfl, rfl, rfl⟩, ?_⟩
    simp only [collectorHeaderBytes, Collector.boolByte_of_le hcapacity, BitVec.ofNat_toNat,
      BitVec.setWidth_eq, List.append_assoc]
  · rintro ⟨⟨haction, hcount, hname, hitems, hblob⟩, rfl⟩
    have hback : (BitVec.ofNat 16 count).toNat = count := toNat_ofNat_of_le hcount (by decide)
    simp only [collectorHeaderBytes, List.append_assoc]
    rw [readCollectorHeader, field_bind, field_bind, field_bind, field_bind,
      require_bind (Collector.boolByte_le _), field_bind, field_bind, field_bind, field_bind,
      field_bind, field_bind, field_bind, readOwner, bind_run (decodeOwner_eq_ok.mpr rfl),
      bind_run (decodeOwner_eq_ok.mpr rfl), field_bind, field_bind, field_bind, field_bind,
      require_bind (by rwa [hback]), CollectorAction.ofCode_eq_some.mpr ⟨haction, rfl⟩,
      Collector.Reason.ofByte_eq_some.mpr rfl, hback, Collector.boolByte_ne_zero, ← hname, ← hitems,
      ← hblob]
    rfl

/-- What the reads make of a payload with `name` on the wire. -/
structure CollectorRead (payload : CollectorCommandPayload) (name : Bytes) : Prop where
  action : payload.action ≠ .unknown
  items : payload.items.length ≤ collectorCommandMaxItems
  itemBlob : payload.itemBlob.length ≤ collectorCommandItemBlobMaxBytes
  short : name.length ≤ currencyAccountNameMaxBytes
  accountName : payload.accountName = nameArray name

theorem CollectorRead.name_le (h : CollectorRead payload name) : name.length ≤ 51 :=
  h.short.trans (by decide)

theorem readCollectorPayload_eq_ok {input rest : Bytes} :
    readCollectorPayload input = .ok (payload, rest) ↔
      ∃ name, CollectorRead payload name ∧ input = collectorWire payload name ++ rest := by
  have hmax : collectorCommandItemBlobMaxBytes = 131072 := rfl
  constructor
  · intro h
    simp only [readCollectorPayload, bind_eq_ok, pure_eq_ok, require_eq_ok, raw_eq_ok,
      readCollectorHeader_eq_ok, many_eq_ok decodeEntry_eq_ok,
      readString_eq_ok (show currencyAccountNameMaxBytes + 1 ≤ 2 ^ 16 by decide), field_eq_ok] at h
    obtain ⟨header, _, ⟨hheader, rfl⟩, items, _, ⟨hcount, rfl⟩, name, _, ⟨hname, rfl⟩,
      size, _, rfl, _, _, ⟨hsize, rfl⟩, blob, _, rfl, rfl, rfl⟩ := h
    have hblob : blob.1.length = size.toNat := blob.2
    have hitems : items.length ≤ collectorCommandMaxItems := by
      rw [hcount]
      exact hheader.count_le
    have hbound : blob.1.length ≤ collectorCommandItemBlobMaxBytes := by
      rw [hblob]
      exact hsize
    refine ⟨name, ⟨hheader.action, hitems, hbound, Nat.le_of_lt_succ hname, rfl⟩, ?_⟩
    rw [← hcount]
    simp only [collectorWire, hblob, BitVec.ofNat_toNat, BitVec.setWidth_eq, List.append_assoc]
    rfl
  · rintro ⟨name, h, hinput⟩
    rw [hinput]
    obtain ⟨haction, hitems, hblob, hname, haccount⟩ := h
    have hheader : readCollectorHeader (collectorWire payload name ++ rest) = .ok
        (({ payload with accountName := nameArray [], items := [], itemBlob := [] },
          payload.items.length),
          payload.items.flatMap encodeEntry ++ (textField 16 name ++
            (appendLe (BitVec.ofNat 32 payload.itemBlob.length) ++
              (payload.itemBlob ++ rest)))) := by
      refine readCollectorHeader_eq_ok.mpr ⟨⟨haction, hitems, rfl, rfl, rfl⟩, ?_⟩
      simp only [collectorWire, List.append_assoc]
      rfl
    have hsize : (BitVec.ofNat 32 payload.itemBlob.length).toNat = payload.itemBlob.length :=
      toNat_ofNat_of_le hblob (by decide)
    have hread : readString (currencyAccountNameMaxBytes + 1) (textField 16 name ++
        (appendLe (BitVec.ofNat 32 payload.itemBlob.length) ++ (payload.itemBlob ++ rest))) =
        .ok (name, appendLe (BitVec.ofNat 32 payload.itemBlob.length) ++
          (payload.itemBlob ++ rest)) :=
      (readString_eq_ok (by decide)).mpr ⟨by omega, rfl⟩
    rw [readCollectorPayload, bind_run hheader,
      bind_run ((many_eq_ok decodeEntry_eq_ok).mpr ⟨rfl, rfl⟩), bind_run hread, field_bind,
      require_bind (by rwa [hsize]), raw_bind hsize.symm, ← haccount]
    rfl

/-! ## What the checks and the keys see of the name -/

section Names

variable {payload : CollectorCommandPayload} {array : Vector UInt8 51}

theorem nameText (array : Vector UInt8 51) :
    array.toList.take (currencyAccountNameMaxBytes + 1) = array.toList :=
  List.take_of_length_le array.length_toList.le

variable (h : cString array.toList = cString payload.accountName.toList)

include h

theorem validCollectorPayload_congr :
    validCollectorPayload { payload with accountName := array } =
      validCollectorPayload payload := by
  have hactor : emptyActor { payload with accountName := array } = emptyActor payload := by
    simp only [emptyActor, name_first_eq_zero, h]
  have hname : validName array.toList = validName payload.accountName.toList :=
    validName_congr (by rw [nameText, nameText, h])
  have hmetadata : metadataOnly { payload with accountName := array } = metadataOnly payload := by
    unfold metadataOnly
    rw [hactor]
  have haction : validCustodyAction { payload with accountName := array } =
      validCustodyAction payload := by
    unfold validCustodyAction
    rw [hactor, hname]
    rfl
  unfold validCollectorPayload
  rw [hmetadata, haction]
  rfl

theorem encodePayload_congr :
    collectorCommandEncodePayload { payload with accountName := array } =
      collectorCommandEncodePayload payload := by
  unfold collectorCommandEncodePayload
  rw [validCollectorPayload_congr h]
  simp only [appendString, nameText, h]
  rfl

theorem collectorFences_congr {sha256 : Bytes → Vector UInt8 32} :
    collectorFences sha256 { payload with accountName := array } =
      collectorFences sha256 payload := by
  have hkey : currencyAccountKey sha256 array.toList payload.racewar =
      currencyAccountKey sha256 payload.accountName.toList payload.racewar :=
    currencyAccountKey_congr (by rw [nameText, nameText, h])
  unfold collectorFences actorFences
  rw [hkey]
  rfl

theorem collectorCommandBuild_congr {sha256 : Bytes → Vector UInt8 32}
    {operationId : CriticalOperationId} {sourceSite : CriticalSourceSite}
    {deadlineClass : CriticalDeadlineClass} :
    collectorCommandBuild sha256 operationId { payload with accountName := array } sourceSite
        deadlineClass =
      collectorCommandBuild sha256 operationId payload sourceSite deadlineClass := by
  unfold collectorCommandBuild
  rw [validCollectorPayload_congr h, encodePayload_congr h, collectorFences_congr h]

end Names

/-! ## Built commands and decoded ones -/

section Commands

variable {sha256 : Bytes → Vector UInt8 32} {operationId : CriticalOperationId}
  {payload : CollectorCommandPayload} {sourceSite : CriticalSourceSite}
  {deadlineClass : CriticalDeadlineClass} {command : CriticalCommand}

theorem validCollectorPayload_bounds (h : validCollectorPayload payload = true) :
    payload.action ≠ .unknown ∧ payload.items.length ≤ collectorCommandMaxItems ∧
      payload.itemBlob.length ≤ collectorCommandItemBlobMaxBytes := by
  unfold validCollectorPayload at h
  split at h
  · cases h
  · next hnone =>
      simp only [not_or, Nat.not_lt] at hnone
      exact ⟨hnone.1, hnone.2.2.2.2.2.2.1, hnone.2.2.2.2.2.2.2⟩

theorem collectorCommandEncodePayload_eq_some {encoded : Bytes}
    (h : collectorCommandEncodePayload payload = some encoded) :
    (cString payload.accountName.toList).length ≤ currencyAccountNameMaxBytes ∧
      encoded = collectorWire payload (cString payload.accountName.toList) := by
  unfold collectorCommandEncodePayload at h
  split at h
  · cases h
  · simp only [Option.bind_eq_bind, Option.bind_eq_some_iff, appendString_eq_some, nameText] at h
    obtain ⟨name, ⟨hshort, rfl⟩, h⟩ := h
    split at h
    · cases h
    · obtain rfl := Option.some.inj h
      refine ⟨Nat.le_of_lt_succ hshort, ?_⟩
      simp only [collectorWire, List.append_assoc]

/-- The parts of a built command that the decoder looks at. -/
structure CollectorBuilt (operationId : CriticalOperationId) (payload : CollectorCommandPayload)
    (sourceSite : CriticalSourceSite) (deadlineClass : CriticalDeadlineClass)
    (command : CriticalCommand) : Prop where
  valid : validCollectorPayload payload = true
  encoded : collectorCommandEncodePayload payload = some command.payload
  type : command.type = collectorCommandType
  payloadVersion : command.payloadVersion = collectorCommandPayloadVersion
  operation : command.operationId = operationId
  site : command.sourceSite = sourceSite
  deadline : command.deadlineClass = deadlineClass

theorem collectorCommandBuild_eq_some
    (h : collectorCommandBuild sha256 operationId payload sourceSite deadlineClass =
      some command) :
    CollectorBuilt operationId payload sourceSite deadlineClass command := by
  unfold collectorCommandBuild at h
  split at h
  · cases h
  · next hvalid =>
      simp only [Option.bind_eq_bind, Option.bind_eq_some_iff] at h
      obtain ⟨encoded, hencoded, fences, -, h⟩ := h
      split at h
      · cases h
      · cases h
        exact ⟨by simpa using (not_or.mp hvalid).2, hencoded, rfl, rfl, rfl, rfl, rfl⟩

/-- The payload as the decoder leaves it: zeros behind the name. -/
def clearedName (payload : CollectorCommandPayload) : CollectorCommandPayload :=
  { payload with accountName := nameArray (cString payload.accountName.toList) }

theorem cString_clearedName (payload : CollectorCommandPayload) :
    cString (nameArray (cString payload.accountName.toList)).toList =
      cString payload.accountName.toList := by
  rw [cString_nameArray (cString_name_length_le _), cString_idem]

theorem collectorCommandDecodePayload_build
    (h : collectorCommandBuild sha256 operationId payload sourceSite deadlineClass =
      some command) :
    collectorCommandDecodePayload sha256 command = some (clearedName payload) := by
  have hbuilt := collectorCommandBuild_eq_some h
  obtain ⟨hshort, hencoded⟩ := collectorCommandEncodePayload_eq_some hbuilt.encoded
  obtain ⟨haction, hitems, hblob⟩ := validCollectorPayload_bounds hbuilt.valid
  have hread : whole readCollectorPayload command.payload = some (clearedName payload) := by
    have hname : CollectorRead (clearedName payload) (cString payload.accountName.toList) :=
      ⟨haction, hitems, hblob, hshort, rfl⟩
    have hbytes : command.payload =
        collectorWire (clearedName payload) (cString payload.accountName.toList) ++ [] := by
      rw [hencoded, List.append_nil]
      rfl
    exact whole_eq_some.mpr (readCollectorPayload_eq_ok.mpr ⟨_, hname, hbytes⟩)
  have hvalid : validCollectorPayload (clearedName payload) = true :=
    (validCollectorPayload_congr (cString_clearedName payload)).trans hbuilt.valid
  have hrebuilt : collectorCommandBuild sha256 command.operationId (clearedName payload)
      command.sourceSite command.deadlineClass = some command := by
    rw [hbuilt.operation, hbuilt.site, hbuilt.deadline, ← h]
    exact collectorCommandBuild_congr (cString_clearedName payload)
  unfold collectorCommandDecodePayload
  rw [if_neg (by simp [hbuilt.type, hbuilt.payloadVersion])]
  simp only [hread, hvalid, hrebuilt, Option.bind_eq_bind, Option.bind_some, matchingFences]
  simp

/-- The bytes of an accepted command, and what the encoder makes of its payload. -/
theorem collectorCommandDecodePayload_eq_some
    (h : collectorCommandDecodePayload sha256 command = some payload) :
    ∃ name, CollectorRead payload name ∧ command.payload = collectorWire payload name ∧
      collectorCommandEncodePayload payload = some (collectorWire payload (cString name)) := by
  unfold collectorCommandDecodePayload at h
  split at h
  · cases h
  · simp only [Option.bind_eq_bind, Option.bind_eq_some_iff] at h
    obtain ⟨decoded, hread, h⟩ := h
    split at h
    · cases h
    · simp only [Option.bind_eq_some_iff] at h
      obtain ⟨expected, hexpected, h⟩ := h
      split at h
      · cases h
        obtain ⟨name, hname, hbytes⟩ := readCollectorPayload_eq_ok.mp (whole_eq_some.mp hread)
        have hencoded := (collectorCommandBuild_eq_some hexpected).encoded
        have hspelled := (collectorCommandEncodePayload_eq_some hencoded).2
        rw [hname.accountName, cString_nameArray hname.name_le] at hspelled
        exact ⟨name, hname, by rw [hbytes, List.append_nil], by rw [hencoded, hspelled]⟩
      · cases h

end Commands

/-- Every command the builder makes decodes to the payload it was made from, with zeros
behind the name. A command the decoder accepts is encoded to the bytes it was read from
exactly when its account name has no zero byte on the wire. -/
theorem collector_payload_canonical (sha256 : Bytes → Vector UInt8 32) :
    (∀ operationId payload sourceSite deadlineClass command,
      collectorCommandBuild sha256 operationId payload sourceSite deadlineClass = some command →
      collectorCommandDecodePayload sha256 command = some (clearedName payload)) ∧
    ∀ command payload, collectorCommandDecodePayload sha256 command = some payload →
      (collectorCommandEncodePayload payload = some command.payload ↔
        ∀ name ∈ collectorWireTexts command.payload, 0 ∉ name) := by
  refine ⟨fun operationId payload sourceSite deadlineClass command =>
    collectorCommandDecodePayload_build, fun command payload h => ?_⟩
  obtain ⟨name, hread, hbytes, hencoded⟩ := collectorCommandDecodePayload_eq_some h
  have hitems : payload.items.length < 2 ^ 16 := hread.items.trans_lt (by decide)
  have hname : name.length < 2 ^ 16 := hread.short.trans_lt (by decide)
  rw [hbytes, hencoded, collectorWireTexts_wire hitems hname, Option.some.injEq,
    collectorWire_cString_iff]
  simp

def activation : CollectorCommandPayload where
  action := .activate
  cancelReason := .none
  targetState := ItemCustodyState.absent
  capacityAdmitted := false
  listing := 5
  expectedListingRevision := 1
  observedAt := 1
  actorPid := 0
  racewar := 0
  accountName := nameArray []
  expectedWalletRevision := 0
  expectedBankRevision := 0
  fromOwner := ⟨ItemOwnerType.unknown, 0, 0⟩
  toOwner := ⟨ItemOwnerType.unknown, 0, 0⟩
  expectedFromOwnerRevision := 0
  expectedToOwnerRevision := 0
  selectedItemUid := 0
  items := []
  itemBlob := []

/-- Its command, with `name` on the wire. -/
def activationCommand (name : Bytes) : CriticalCommand where
  schemaVersion := criticalCommandSchemaVersion
  operationId := ⟨List.replicate 16 7, List.length_replicate⟩
  type := collectorCommandType
  payloadVersion := collectorCommandPayloadVersion
  sourceSite := CriticalSourceSite.command
  deadlineClass := CriticalDeadlineClass.interactive
  acceptedAtUsec := 0
  keys := [⟨CriticalEntityType.collector, 5⟩]
  expectedRevisions := [⟨⟨CriticalEntityType.collector, 5⟩, 1⟩]
  payload := collectorWire activation name

theorem activation_built (sha256 : Bytes → Vector UInt8 32) :
    collectorCommandBuild sha256 (activationCommand []).operationId activation
      (activationCommand []).sourceSite (activationCommand []).deadlineClass =
      some (activationCommand []) := by
  have hencoded : collectorCommandEncodePayload activation =
      some (collectorWire activation []) := by
    decide +kernel
  have hfences : collectorFences sha256 activation =
      some [⟨⟨CriticalEntityType.collector, 5⟩, 1⟩] := rfl
  unfold collectorCommandBuild
  rw [if_neg (by decide +kernel), hencoded, hfences]
  simp [addFence, addKey, activationCommand, criticalCommandMaxKeys]

theorem activation_decoded (sha256 : Bytes → Vector UInt8 32) (name : Bytes)
    (hempty : nameArray name = nameArray []) (hshort : name.length ≤ currencyAccountNameMaxBytes) :
    collectorCommandDecodePayload sha256 (activationCommand name) = some activation := by
  have hname : CollectorRead activation name :=
    ⟨by decide, by decide, by decide, hshort, hempty.symm⟩
  have hread : whole readCollectorPayload (activationCommand name).payload = some activation :=
    whole_eq_some.mpr (readCollectorPayload_eq_ok.mpr ⟨name, hname, (List.append_nil _).symm⟩)
  have hbuilt : collectorCommandBuild sha256 (activationCommand name).operationId activation
      (activationCommand name).sourceSite (activationCommand name).deadlineClass =
      some (activationCommand []) := activation_built sha256
  have hmatch : matchingFences (activationCommand []) (activationCommand name) = true := by
    rw [matchingFences, decide_eq_true_eq]
    exact ⟨rfl, rfl⟩
  unfold collectorCommandDecodePayload
  rw [if_neg (by simp [activationCommand])]
  simp only [hread, hbuilt, hmatch, Option.bind_eq_bind, Option.bind_some,
    show validCollectorPayload activation = true by decide +kernel, reduceIte, Bool.true_eq_false]

/-- A built activation comes back, and its name has no zero byte. -/
theorem collector_payload_canonical_activation :
    collectorCommandDecodePayload Sha256.hash (activationCommand []) =
        some (clearedName activation) ∧
      collectorCommandEncodePayload activation = some (activationCommand []).payload :=
  ⟨(collector_payload_canonical _).1 _ _ _ _ _ (activation_built _),
    ((collector_payload_canonical _).2 _ _
      (activation_decoded Sha256.hash [] rfl (by decide))).mpr
      (by decide +kernel)⟩

/-- With one zero byte for a name, other bytes decode to the same payload. -/
theorem zero_name_not_canonical :
    collectorCommandDecodePayload Sha256.hash (activationCommand [0]) =
        some activation ∧
      collectorCommandDecodePayload Sha256.hash (activationCommand []) =
        some activation ∧
      (activationCommand [0]).payload ≠ (activationCommand []).payload ∧
      collectorCommandEncodePayload activation ≠ some (activationCommand [0]).payload :=
  ⟨activation_decoded _ _ (by decide +kernel) (by decide), activation_decoded _ _ rfl (by decide),
    by decide +kernel, by decide +kernel⟩

end Duris.Economy
