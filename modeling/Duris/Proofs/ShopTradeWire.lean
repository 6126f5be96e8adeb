import Duris.Economy.ShopTradeWire
import Duris.Proofs.CollectorWire
import Duris.Proofs.CommandNormal

/-!
# The shop trade format, and the one byte it lets through

As for the collector: the bytes of an accepted command of the current version are those
of the decoded payload with the name as it stands on the wire, and the encoder writes the
C string of the name instead.
-/

namespace Duris.Economy

open Persistence Player Item Reader

/-- The payload with `name` on the wire. -/
def shopWire (payload : ShopTradePayload) (name : Bytes) : Bytes :=
  encodeShopHeader payload ++ (textField 8 name ++ (payload.items.flatMap encodeShopItem ++
    (appendLe (BitVec.ofNat 32 payload.itemBlob.length) ++ payload.itemBlob)))

/-- The account name as it stands on the wire, behind 96 bytes of fields. -/
def shopWireTexts (bytes : Bytes) : List Bytes := textsAfter 8 [96] bytes

variable {payload : ShopTradePayload} {name input rest : Bytes}

theorem shopWireTexts_wire (hname : name.length < 2 ^ 8) :
    shopWireTexts (shopWire payload name) = [name] := by
  rw [shopWireTexts, shopWire, textsAfter_cons (by simp [encodeShopHeader]) hname]
  rfl

theorem shopWire_cString_iff :
    shopWire payload (cString name) = shopWire payload name ↔ 0 ∉ name := by
  constructor
  · intro h
    have hlength := congrArg List.length h
    simp only [shopWire, List.length_append, textField_length] at hlength
    exact cString_length_eq.mp (by omega)
  · intro h
    rw [cString_eq_self.mpr h]

theorem ShopTradeAction.ofCode_eq_some {code : BitVec 8} {action : ShopTradeAction} :
    ShopTradeAction.ofCode code = some action ↔ action ≠ .unknown ∧ code = action.code := by
  constructor
  · intro h
    have hcode := List.find?_some h
    rw [beq_iff_eq] at hcode
    refine ⟨?_, hcode.symm⟩
    rintro rfl
    exact absurd (List.mem_of_find?_eq_some h) (by decide)
  · rintro ⟨haction, rfl⟩
    cases action
    case unknown => exact absurd rfl haction
    all_goals rfl

theorem readShopItem_eq_ok {item : ItemTransferEntry} :
    readShopItem input = .ok (item, rest) ↔ input = encodeShopItem item ++ rest := by
  simp only [readShopItem, bind_eq_ok, pure_eq_ok, field_eq_ok]
  constructor
  · rintro ⟨itemUid, _, rfl, root, _, rfl, parent, _, rfl, revision, _, rfl, vnum, _, rfl,
      state, _, rfl, rfl, rfl⟩
    simp only [encodeShopItem, List.append_assoc]
  · rintro rfl
    exact ⟨item.itemUid, _, by simp only [encodeShopItem, List.append_assoc],
      item.rootItemUid, _, rfl, item.parentItemUid, _, rfl, item.expectedItemRevision, _, rfl,
      item.vnum, _, rfl, item.expectedState, rest, rfl, rfl, rfl⟩

/-- What stands before the name, where the rows are `count`. -/
def shopHeaderBytes (payload : ShopTradePayload) (count : Nat) : Bytes :=
  appendLe payload.action.code ++ appendLe payload.playerPid ++ appendLe payload.shopId ++
    appendLe payload.racewar ++ appendLe payload.price ++
    appendLe payload.expectedWalletRevision ++ appendLe payload.expectedBankRevision ++
    appendLe payload.expectedShopRevision ++ appendLe payload.selectedItemUid ++
    appendLe payload.targetRootItemUid ++ appendLe payload.targetParentItemUid ++
    appendLe payload.expectedTargetParentRevision ++ appendLe payload.stockItemUid ++
    appendLe payload.expectedStockItemRevision ++ appendLe payload.stockVnum ++
    appendLe (BitVec.ofNat 16 count)

/-- A header: an action, and nothing in the fields that come later. -/
structure ShopHeader (header : ShopTradePayload) (count : Nat) : Prop where
  action : header.action ≠ .unknown
  count_le : count ≤ shopTradeMaxItems
  name : header.accountName = nameArray []
  items : header.items = []
  itemBlob : header.itemBlob = []

theorem readTarget_current (selectedItemUid : BitVec 64) :
    readTarget shopTradePayloadVersion selectedItemUid = (do
      let targetRootItemUid ← field () 64
      let targetParentItemUid ← field () 64
      let expectedTargetParentRevision ← field () 64
      return (targetRootItemUid, targetParentItemUid, expectedTargetParentRevision)) :=
  if_pos (by decide)

theorem readStock_current :
    readStock shopTradePayloadVersion = (do
      let stockItemUid ← field () 64
      let expectedStockItemRevision ← field () 64
      let stockVnum ← field () 32
      return (stockItemUid, expectedStockItemRevision, stockVnum)) :=
  if_pos (by decide)

theorem readShopHeader_eq_ok {read : ShopTradePayload × Nat} :
    readShopHeader shopTradePayloadVersion input = .ok (read, rest) ↔
      ShopHeader read.1 read.2 ∧ input = shopHeaderBytes read.1 read.2 ++ rest := by
  obtain ⟨header, count⟩ := read
  constructor
  · intro h
    simp only [readShopHeader, readTarget_current, readStock_current, bind_eq_ok, pure_eq_ok,
      require_eq_ok, ofOption_eq_ok, field_eq_ok, ShopTradeAction.ofCode_eq_some] at h
    obtain ⟨_, _, rfl, playerPid, _, rfl, shopId, _, rfl, racewar, _, rfl, price, _, rfl,
      walletRevision, _, rfl, bankRevision, _, rfl, shopRevision, _, rfl, selected, _, rfl,
      target, _, ⟨root, _, rfl, parent, _, rfl, parentRevision, _, rfl, rfl, rfl⟩,
      stock, _, ⟨stockUid, _, rfl, stockRevision, _, rfl, stockVnum, _, rfl, rfl, rfl⟩,
      itemCount, _, rfl, _, _, ⟨hcount, rfl⟩, action, _, ⟨⟨haction, rfl⟩, rfl⟩, hheader, rfl⟩ := h
    cases hheader
    refine ⟨⟨haction, hcount, rfl, rfl, rfl⟩, ?_⟩
    simp only [shopHeaderBytes, BitVec.ofNat_toNat, BitVec.setWidth_eq, List.append_assoc]
  · rintro ⟨⟨haction, hcount, hname, hitems, hblob⟩, rfl⟩
    have hback : (BitVec.ofNat 16 count).toNat = count := toNat_ofNat_of_le hcount (by decide)
    have htarget (selected root parent revision : BitVec 64) (rest : Bytes) :
        readTarget shopTradePayloadVersion selected
          (appendLe root ++ (appendLe parent ++ (appendLe revision ++ rest))) =
          .ok ((root, parent, revision), rest) := by
      rw [readTarget_current, field_bind, field_bind, field_bind]
      rfl
    have hstock (uid revision : BitVec 64) (vnum : BitVec 32) (rest : Bytes) :
        readStock shopTradePayloadVersion
          (appendLe uid ++ (appendLe revision ++ (appendLe vnum ++ rest))) =
          .ok ((uid, revision, vnum), rest) := by
      rw [readStock_current, field_bind, field_bind, field_bind]
      rfl
    simp only [shopHeaderBytes, List.append_assoc]
    rw [readShopHeader, field_bind, field_bind, field_bind, field_bind, field_bind, field_bind,
      field_bind, field_bind, field_bind, bind_run (htarget _ _ _ _ _), bind_run (hstock _ _ _ _),
      field_bind, require_bind (by rwa [hback]), ShopTradeAction.ofCode_eq_some.mpr ⟨haction, rfl⟩,
      hback, ← hname, ← hitems, ← hblob]
    rfl

/-- What the reads make of a payload with `name` on the wire. -/
structure ShopRead (payload : ShopTradePayload) (name : Bytes) : Prop where
  action : payload.action ≠ .unknown
  items : payload.items.length ≤ shopTradeMaxItems
  itemBlob : payload.itemBlob.length ≤ shopTradeItemBlobMaxBytes
  blob_ne : payload.itemBlob.length ≠ 0
  short : name.length ≤ currencyAccountNameMaxBytes
  name_ne : name.length ≠ 0
  accountName : payload.accountName = nameArray name

theorem ShopRead.name_le (h : ShopRead payload name) : name.length ≤ 51 :=
  h.short.trans (by decide)

theorem readShopTradePayload_eq_ok :
    readShopTradePayload shopTradePayloadVersion input = .ok (payload, rest) ↔
      ∃ name, ShopRead payload name ∧ input = shopWire payload name ++ rest := by
  constructor
  · intro h
    simp only [readShopTradePayload, bind_eq_ok, pure_eq_ok, require_eq_ok, raw_eq_ok,
      readShopHeader_eq_ok, many_eq_ok readShopItem_eq_ok, field_eq_ok] at h
    obtain ⟨header, _, ⟨hheader, rfl⟩, nameLength, _, rfl, _, _, ⟨hname, rfl⟩, name, _, rfl,
      items, _, ⟨hcount, rfl⟩, size, _, rfl, _, _, ⟨hsize, rfl⟩, blob, _, rfl, rfl, rfl⟩ := h
    have hlength : name.1.length = nameLength.toNat := name.2
    have hblob : blob.1.length = size.toNat := blob.2
    have hitems : items.length ≤ shopTradeMaxItems := by
      rw [hcount]
      exact hheader.count_le
    have hbound : blob.1.length ≤ shopTradeItemBlobMaxBytes := by
      rw [hblob]
      exact hsize.2
    have hnonempty : blob.1.length ≠ 0 := by
      rw [hblob]
      exact fun hzero => hsize.1 (BitVec.eq_of_toNat_eq hzero)
    have hshort : name.1.length ≤ currencyAccountNameMaxBytes := by
      rw [hlength]
      exact hname.2
    have hnamed : name.1.length ≠ 0 := by
      rw [hlength]
      exact fun hzero => hname.1 (BitVec.eq_of_toNat_eq hzero)
    refine ⟨name.1, ⟨hheader.action, hitems, hbound, hnonempty, hshort, hnamed, rfl⟩, ?_⟩
    rw [← hcount]
    simp only [shopWire, textField, hblob, hlength, BitVec.ofNat_toNat, BitVec.setWidth_eq,
      List.append_assoc]
    rfl
  · rintro ⟨name, h, hinput⟩
    rw [hinput]
    obtain ⟨haction, hitems, hblob, hnonempty, hshort, hnamed, haccount⟩ := h
    have hheader : readShopHeader shopTradePayloadVersion (shopWire payload name ++ rest) = .ok
        (({ payload with accountName := nameArray [], items := [], itemBlob := [] },
          payload.items.length),
          appendLe (BitVec.ofNat 8 name.length) ++ (name ++ (payload.items.flatMap encodeShopItem ++
            (appendLe (BitVec.ofNat 32 payload.itemBlob.length) ++
              (payload.itemBlob ++ rest))))) := by
      refine readShopHeader_eq_ok.mpr ⟨⟨haction, hitems, rfl, rfl, rfl⟩, ?_⟩
      simp only [shopWire, textField, List.append_assoc]
      rfl
    have hsize : (BitVec.ofNat 32 payload.itemBlob.length).toNat = payload.itemBlob.length :=
      toNat_ofNat_of_le hblob (by decide)
    have hlength : (BitVec.ofNat 8 name.length).toNat = name.length :=
      toNat_ofNat_of_le hshort (by decide)
    have hblobGuard : BitVec.ofNat 32 payload.itemBlob.length ≠ 0 ∧
        (BitVec.ofNat 32 payload.itemBlob.length).toNat ≤ shopTradeItemBlobMaxBytes :=
      ⟨fun hzero => hnonempty (by rw [← hsize, hzero]; rfl), by rwa [hsize]⟩
    have hnameGuard : BitVec.ofNat 8 name.length ≠ 0 ∧
        (BitVec.ofNat 8 name.length).toNat ≤ currencyAccountNameMaxBytes :=
      ⟨fun hzero => hnamed (by rw [← hlength, hzero]; rfl), by rwa [hlength]⟩
    rw [readShopTradePayload, bind_run hheader, field_bind, require_bind hnameGuard,
      raw_bind hlength.symm, bind_run ((many_eq_ok readShopItem_eq_ok).mpr ⟨rfl, rfl⟩), field_bind,
      require_bind hblobGuard, raw_bind hsize.symm, ← haccount]
    rfl

section Names

variable {payload : ShopTradePayload} {array : Vector UInt8 51}
  (h : cString array.toList = cString payload.accountName.toList)

include h

theorem shopValid_congr :
    ShopTradePayload.valid { payload with accountName := array } = payload.valid := by
  have hname : validName array.toList = validName payload.accountName.toList :=
    validName_congr (by rw [nameText, nameText, h])
  unfold ShopTradePayload.valid
  rw [hname]
  rfl

theorem shopEncodePayload_congr :
    shopTradeCommandEncodePayload { payload with accountName := array } =
      shopTradeCommandEncodePayload payload := by
  unfold shopTradeCommandEncodePayload
  rw [shopValid_congr h]
  simp only [h]
  rfl

theorem shopTradeFences_congr {sha256 : Bytes → Vector UInt8 32} :
    shopTradeFences sha256 { payload with accountName := array } =
      shopTradeFences sha256 payload := by
  have hkey : currencyAccountKey sha256 array.toList payload.racewar =
      currencyAccountKey sha256 payload.accountName.toList payload.racewar :=
    currencyAccountKey_congr (by rw [nameText, nameText, h])
  unfold shopTradeFences
  rw [hkey]
  rfl

theorem shopTradeCommandBuild_congr {sha256 : Bytes → Vector UInt8 32}
    {operationId : CriticalOperationId} {sourceSite : CriticalSourceSite}
    {deadlineClass : CriticalDeadlineClass} :
    shopTradeCommandBuild sha256 operationId { payload with accountName := array } sourceSite
        deadlineClass =
      shopTradeCommandBuild sha256 operationId payload sourceSite deadlineClass := by
  unfold shopTradeCommandBuild
  rw [shopValid_congr h, shopEncodePayload_congr h, shopTradeFences_congr h]

end Names

section Commands

variable {sha256 : Bytes → Vector UInt8 32} {operationId : CriticalOperationId}
  {payload : ShopTradePayload} {sourceSite : CriticalSourceSite}
  {deadlineClass : CriticalDeadlineClass} {command : CriticalCommand}

theorem validName_bounds {name : Bytes} (h : (validName name).isSome = true) :
    (cString (name.take (currencyAccountNameMaxBytes + 1))).length ≠ 0 ∧
      (cString (name.take (currencyAccountNameMaxBytes + 1))).length ≤
        currencyAccountNameMaxBytes := by
  rw [validName_eq] at h
  dsimp only at h
  split at h
  · cases h
  · next hlength => exact ⟨(not_or.mp hlength).1, Nat.le_of_not_lt (not_or.mp hlength).2⟩

theorem shopRead_of_valid (h : payload.valid = true) :
    ShopRead { payload with accountName := nameArray (cString payload.accountName.toList) }
      (cString payload.accountName.toList) := by
  simp only [ShopTradePayload.valid, Bool.and_eq_true, bne_iff_ne, decide_eq_true_eq,
    Bool.not_eq_true', and_assoc] at h
  obtain ⟨haction, -, hname, -, -, -, -, hitems, hblob, hsize, -⟩ := h
  obtain ⟨hnonempty, hshort⟩ := validName_bounds hname
  rw [nameText] at hnonempty hshort
  refine ⟨haction, hitems, hsize, fun hzero => ?_, hshort, hnonempty, rfl⟩
  rw [List.length_eq_zero_iff.mp hzero] at hblob
  cases hblob

theorem shopTradeCommandEncodePayload_eq_some {encoded : Bytes}
    (h : shopTradeCommandEncodePayload payload = some encoded) :
    encoded = shopWire payload (cString payload.accountName.toList) := by
  unfold shopTradeCommandEncodePayload at h
  split at h
  · cases h
  · dsimp only at h
    split at h
    · cases h
    · obtain rfl := Option.some.inj h
      simp only [shopWire, textField, List.append_assoc]

/-- The parts of a built command that the decoder looks at. -/
structure ShopBuilt (operationId : CriticalOperationId) (payload : ShopTradePayload)
    (sourceSite : CriticalSourceSite) (deadlineClass : CriticalDeadlineClass)
    (command : CriticalCommand) : Prop where
  valid : payload.valid = true
  encoded : shopTradeCommandEncodePayload payload = some command.payload
  type : command.type = shopTradeCommandType
  payloadVersion : command.payloadVersion = shopTradePayloadVersion
  operation : command.operationId = operationId
  site : command.sourceSite = sourceSite
  deadline : command.deadlineClass = deadlineClass
  sortedKeys : command.keys.mergeSort keyNotAbove = command.keys
  sortedRevisions :
    command.expectedRevisions.mergeSort (fun a b => keyNotAbove a.key b.key) =
      command.expectedRevisions

theorem shopTradeCommandBuild_eq_some
    (h : shopTradeCommandBuild sha256 operationId payload sourceSite deadlineClass =
      some command) :
    ShopBuilt operationId payload sourceSite deadlineClass command := by
  unfold shopTradeCommandBuild at h
  split at h
  · cases h
  · next hvalid =>
      simp only [Option.bind_eq_bind, Option.bind_eq_some_iff] at h
      obtain ⟨fences, -, encoded, hencoded, h⟩ := h
      split at h
      · cases h
      · cases h
        exact ⟨by simpa using (not_or.mp hvalid).2, hencoded, rfl, rfl, rfl, rfl, rfl,
          mergeSort_keys_idem _, mergeSort_revisions_idem _⟩

/-- The payload as the decoder leaves it: zeros behind the name. -/
def shopClearedName (payload : ShopTradePayload) : ShopTradePayload :=
  { payload with accountName := nameArray (cString payload.accountName.toList) }

theorem cString_shopClearedName (payload : ShopTradePayload) :
    cString (nameArray (cString payload.accountName.toList)).toList =
      cString payload.accountName.toList := by
  rw [cString_nameArray (cString_name_length_le _), cString_idem]

theorem shopTradeCommandDecodePayload_build
    (h : shopTradeCommandBuild sha256 operationId payload sourceSite deadlineClass =
      some command) :
    shopTradeCommandDecodePayload sha256 command = some (shopClearedName payload) := by
  have hbuilt := shopTradeCommandBuild_eq_some h
  have hencoded := shopTradeCommandEncodePayload_eq_some hbuilt.encoded
  have hread : whole (readShopTradePayload shopTradePayloadVersion) command.payload =
      some (shopClearedName payload) := by
    refine whole_eq_some.mpr (readShopTradePayload_eq_ok.mpr
      ⟨_, shopRead_of_valid hbuilt.valid, ?_⟩)
    rw [hencoded, List.append_nil]
    rfl
  have hvalid : (shopClearedName payload).valid = true :=
    (shopValid_congr (cString_shopClearedName payload)).trans hbuilt.valid
  have hrebuilt : shopTradeCommandBuild sha256 command.operationId (shopClearedName payload)
      command.sourceSite command.deadlineClass = some command := by
    rw [hbuilt.operation, hbuilt.site, hbuilt.deadline, ← h]
    exact shopTradeCommandBuild_congr (cString_shopClearedName payload)
  have hlegacy : legacyStock shopTradePayloadVersion (shopClearedName payload) =
      some (shopClearedName payload) := if_pos (by decide)
  unfold shopTradeCommandDecodePayload
  rw [if_neg (by simp [hbuilt.type, hbuilt.payloadVersion]), hbuilt.payloadVersion]
  simp only [hread, hlegacy, hvalid, hrebuilt, Option.bind_eq_bind, Option.bind_some,
    matchingFences]
  simp

/-- The bytes of an accepted command, and what the encoder makes of its payload. -/
theorem shopTradeCommandDecodePayload_eq_some
    (hversion : command.payloadVersion = shopTradePayloadVersion)
    (h : shopTradeCommandDecodePayload sha256 command = some payload) :
    ∃ name, ShopRead payload name ∧ command.payload = shopWire payload name ∧
      shopTradeCommandEncodePayload payload = some (shopWire payload (cString name)) := by
  unfold shopTradeCommandDecodePayload at h
  split at h
  · cases h
  · simp only [hversion, Option.bind_eq_bind, Option.bind_eq_some_iff] at h
    obtain ⟨decoded, hread, read, hlegacy, h⟩ := h
    obtain rfl := Option.some.inj ((if_pos (by decide)).symm.trans hlegacy)
    split at h
    · cases h
    · simp only [Option.bind_eq_some_iff] at h
      obtain ⟨expected, hexpected, h⟩ := h
      split at h
      · cases h
        obtain ⟨name, hname, hbytes⟩ := readShopTradePayload_eq_ok.mp (whole_eq_some.mp hread)
        have hencoded := (shopTradeCommandBuild_eq_some hexpected).encoded
        have hspelled := shopTradeCommandEncodePayload_eq_some hencoded
        rw [hname.accountName, cString_nameArray hname.name_le] at hspelled
        exact ⟨name, hname, by rw [hbytes, List.append_nil], by rw [hencoded, hspelled]⟩
      · cases h

theorem shopTrade_decodesTo
    (h : shopTradeCommandBuild sha256 operationId payload sourceSite deadlineClass =
      some command) :
    DecodesTo (shopTradeCommandDecodePayload sha256) command (shopClearedName payload) :=
  decodesTo_of_sorted (shopTradeCommandBuild_eq_some h).sortedKeys
    (shopTradeCommandBuild_eq_some h).sortedRevisions (fun _ => rfl)
    (shopTradeCommandDecodePayload_build h)

theorem shopTrade_respelled_iff (hversion : command.payloadVersion = shopTradePayloadVersion)
    (h : shopTradeCommandDecodePayload sha256 command = some payload) :
    shopTradeCommandEncodePayload payload = some command.payload ↔
      ∀ name ∈ shopWireTexts command.payload, 0 ∉ name := by
  obtain ⟨name, hread, hbytes, hencoded⟩ := shopTradeCommandDecodePayload_eq_some hversion h
  rw [hbytes, hencoded, shopWireTexts_wire (hread.short.trans_lt (by decide)), Option.some.injEq,
    shopWire_cString_iff]
  simp

end Commands

end Duris.Economy
