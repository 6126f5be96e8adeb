import Duris.Economy.AuctionWire
import Duris.Proofs.CommandNormal
import Duris.Proofs.WireTexts

/-!
# The auction format

Five texts and a blob behind a fixed header and the rows. The reader takes exactly the
bytes of `auctionWire` and gives back the payload with its texts as they stand on the
wire; the encoder writes `auctionWire` of the payload with its texts cut at the first
zero. So a command comes back byte for byte exactly when there is nothing to cut.
-/

namespace Duris.Economy

open Persistence Reader
open Flatfile.Ownership (AuctionItemEntry auctionCommandMaxItems)
open Player (getLe)

def auctionWire (payload : AuctionCommandPayload) : Bytes :=
  encodeAuctionHeader payload ++ (payload.items.flatMap encodeAuctionItem ++
    (textField 16 payload.accountName ++ (textField 16 payload.actorName ++
      (textField 16 payload.objectShort ++ (textField 16 payload.idKeywords ++
        (textField 16 payload.objectInfo ++
          (appendLe (BitVec.ofNat 32 payload.objectBlob.length) ++ payload.objectBlob)))))))

/-- The texts as they stand on the wire: behind 76 bytes of fields, the last two of which
count the rows, and twenty bytes for each row. -/
def auctionWireTexts (bytes : Bytes) : List Bytes :=
  textsAfter 16 [76 + 20 * (getLe 16 bytes 74).toNat, 0, 0, 0, 0] bytes

def auctionTexts (payload : AuctionCommandPayload) : List Bytes :=
  [payload.accountName, payload.actorName, payload.objectShort, payload.idKeywords,
    payload.objectInfo]

structure AuctionShape (payload : AuctionCommandPayload) : Prop where
  items : payload.items.length ≤ auctionCommandMaxItems
  accountName : payload.accountName.length < currencyAccountNameMaxBytes + 1
  actorName : payload.actorName.length < auctionNameMaxBytes + 1
  objectShort : payload.objectShort.length < auctionShortMaxBytes + 1
  idKeywords : payload.idKeywords.length < auctionKeywordsMaxBytes + 1
  objectInfo : payload.objectInfo.length < auctionInfoMaxBytes + 1
  objectBlob : payload.objectBlob.length ≤ auctionBlobMaxBytes

theorem encodeAuctionHeader_length (payload : AuctionCommandPayload) :
    (encodeAuctionHeader payload).length = 76 := by
  simp [encodeAuctionHeader]

theorem encodeAuctionItem_length (item : AuctionItemEntry) :
    (encodeAuctionItem item).length = 20 := by
  simp [encodeAuctionItem]

variable {payload : AuctionCommandPayload}

theorem auctionWireTexts_wire (h : AuctionShape payload) :
    auctionWireTexts (auctionWire payload) = auctionTexts payload := by
  obtain ⟨hitems, haccount, hactor, hshort, hkeywords, hinfo, -⟩ := h
  simp only [auctionCommandMaxItems, currencyAccountNameMaxBytes, auctionNameMaxBytes,
    auctionShortMaxBytes, auctionKeywordsMaxBytes, auctionInfoMaxBytes] at *
  have hcount : (getLe 16 (auctionWire payload) 74).toNat = payload.items.length := by
    have hsplit : ∃ front, front.length = 74 ∧ encodeAuctionHeader payload =
        front ++ appendLe (BitVec.ofNat 16 payload.items.length) := by
      refine ⟨_, ?_, rfl⟩
      simp
    obtain ⟨front, hfront, hsplit⟩ := hsplit
    rw [getLe, auctionWire, hsplit, List.append_assoc, List.drop_left' hfront,
      List.take_left' (appendLe_length _), ofNat_leNat_appendLe, BitVec.toNat_ofNat,
      Nat.mod_eq_of_lt (by omega)]
  have hskip : (encodeAuctionHeader payload ++ payload.items.flatMap encodeAuctionItem).length =
      76 + 20 * payload.items.length := by
    rw [List.length_append, encodeAuctionHeader_length,
      flatMap_length_const encodeAuctionItem_length, Nat.mul_comm]
  rw [auctionWireTexts, hcount, auctionWire, ← List.append_assoc,
    textsAfter_cons hskip (by omega)]
  rw [textsAfter_next (by omega), textsAfter_next (by omega),
    textsAfter_next (by omega), textsAfter_next (by omega)]
  rfl

theorem AuctionAction.ofCode_eq_some {code : BitVec 8} {action : AuctionAction} :
    AuctionAction.ofCode code = some action ↔ code = action.code := by
  constructor
  · intro h
    unfold AuctionAction.ofCode at h
    split at h
    · next hcode => cases h; exact hcode
    split at h
    · next hcode => cases h; exact hcode
    split at h
    · next hcode => cases h; exact hcode
    split at h
    · next hcode => cases h; exact hcode
    split at h
    · next hcode => cases h; exact hcode
    split at h
    · next hcode => cases h; exact hcode
    · cases h
  · rintro rfl
    cases action <;> rfl

theorem readItem_eq_ok {item : AuctionItemEntry} {input rest : Bytes} :
    readItem input = .ok (item, rest) ↔ input = encodeAuctionItem item ++ rest := by
  simp only [readItem, bind_eq_ok, pure_eq_ok, field_eq_ok]
  constructor
  · rintro ⟨itemUid, _, rfl, revision, _, rfl, vnum, _, rfl, rfl, rfl⟩
    simp only [encodeAuctionItem, List.append_assoc]
  · rintro rfl
    exact ⟨item.itemUid, _, by simp only [encodeAuctionItem, List.append_assoc],
      item.expectedItemRevision, _, rfl, item.vnum, rest, rfl, rfl, rfl⟩

theorem readAuctionPayload_eq_ok {input rest : Bytes} :
    readAuctionPayload input = .ok (payload, rest) ↔
      AuctionShape payload ∧ input = auctionWire payload ++ rest := by
  constructor
  · intro h
    unfold readAuctionPayload at h
    obtain ⟨actionCode, _, rfl, h1⟩ := field_bind_ok h
    obtain ⟨actorPid, _, rfl, h2⟩ := field_bind_ok h1
    obtain ⟨auctionId, _, rfl, h3⟩ := field_bind_ok h2
    obtain ⟨racewar, _, rfl, h4⟩ := field_bind_ok h3
    obtain ⟨wallet, _, rfl, h5⟩ := field_bind_ok h4
    obtain ⟨bank, _, rfl, h6⟩ := field_bind_ok h5
    obtain ⟨value, _, rfl, h7⟩ := field_bind_ok h6
    obtain ⟨start, _, rfl, h8⟩ := field_bind_ok h7
    obtain ⟨buy, _, rfl, h9⟩ := field_bind_ok h8
    obtain ⟨fee, _, rfl, h10⟩ := field_bind_ok h9
    obtain ⟨closing, _, rfl, h11⟩ := field_bind_ok h10
    obtain ⟨extension, _, rfl, h12⟩ := field_bind_ok h11
    obtain ⟨endTime, _, rfl, h13⟩ := field_bind_ok h12
    obtain ⟨count, _, rfl, h14⟩ := field_bind_ok h13
    obtain ⟨hcount, h15⟩ := require_bind_ok h14
    obtain ⟨items, _, hread, h16⟩ := bind_eq_ok.mp h15
    obtain ⟨hitems, rfl⟩ := (many_eq_ok readItem_eq_ok).mp hread
    obtain ⟨account, _, hread, h17⟩ := bind_eq_ok.mp h16
    obtain ⟨haccount, rfl⟩ := (readString_eq_ok (by decide)).mp hread
    obtain ⟨actor, _, hread, h18⟩ := bind_eq_ok.mp h17
    obtain ⟨hactor, rfl⟩ := (readString_eq_ok (by decide)).mp hread
    obtain ⟨short, _, hread, h19⟩ := bind_eq_ok.mp h18
    obtain ⟨hshort, rfl⟩ := (readString_eq_ok (by decide)).mp hread
    obtain ⟨keywords, _, hread, h20⟩ := bind_eq_ok.mp h19
    obtain ⟨hkeywords, rfl⟩ := (readString_eq_ok (by decide)).mp hread
    obtain ⟨info, _, hread, h21⟩ := bind_eq_ok.mp h20
    obtain ⟨hinfo, rfl⟩ := (readString_eq_ok (by decide)).mp hread
    obtain ⟨size, _, rfl, h22⟩ := field_bind_ok h21
    obtain ⟨hsize, h23⟩ := require_bind_ok h22
    obtain ⟨blob, _, rfl, h24⟩ := raw_bind_ok h23
    obtain ⟨action, _, hcode, h25⟩ := bind_eq_ok.mp h24
    obtain ⟨haction, rfl⟩ := ofOption_eq_ok.mp hcode
    obtain rfl := AuctionAction.ofCode_eq_some.mp haction
    obtain ⟨rfl, rfl⟩ := pure_eq_ok.mp h25
    have hblob : blob.1.length = size.toNat := blob.2
    refine ⟨⟨by rwa [hitems], haccount, hactor, hshort, hkeywords, hinfo, by rwa [hblob]⟩, ?_⟩
    simp only [auctionWire, encodeAuctionHeader, hitems, hblob, BitVec.ofNat_toNat,
      BitVec.setWidth_eq, List.append_assoc]
  · rintro ⟨hshape, hinput⟩
    rw [hinput]
    have hcount : (BitVec.ofNat 16 payload.items.length).toNat = payload.items.length :=
      toNat_ofNat_of_le hshape.items (by decide)
    have hsize : (BitVec.ofNat 32 payload.objectBlob.length).toNat = payload.objectBlob.length :=
      toNat_ofNat_of_le hshape.objectBlob (by decide)
    have htext {size : Nat} (hsize : size ≤ 2 ^ 16) {text : Bytes} (htext : text.length < size)
        (rest : Bytes) : readString size (textField 16 text ++ rest) = .ok (text, rest) :=
      (readString_eq_ok hsize).mpr ⟨htext, rfl⟩
    simp only [auctionWire, encodeAuctionHeader, List.append_assoc]
    rw [readAuctionPayload, field_bind, field_bind, field_bind, field_bind, field_bind, field_bind,
      field_bind, field_bind, field_bind, field_bind, field_bind, field_bind, field_bind,
      field_bind, require_bind (by
        rw [hcount]
        exact hshape.items),
      bind_run ((many_eq_ok readItem_eq_ok).mpr ⟨hcount.symm, rfl⟩),
      bind_run (htext (by decide) hshape.accountName _),
      bind_run (htext (by decide) hshape.actorName _),
      bind_run (htext (by decide) hshape.objectShort _),
      bind_run (htext (by decide) hshape.idKeywords _),
      bind_run (htext (by decide) hshape.objectInfo _), field_bind,
      require_bind (by
        rw [hsize]
        exact hshape.objectBlob),
      raw_bind hsize.symm, AuctionAction.ofCode_eq_some.mpr rfl]
    rfl

def cutTexts (payload : AuctionCommandPayload) : AuctionCommandPayload :=
  { payload with
    accountName := cString payload.accountName
    actorName := cString payload.actorName
    objectShort := cString payload.objectShort
    idKeywords := cString payload.idKeywords
    objectInfo := cString payload.objectInfo }

theorem cutTexts_eq_self :
    cutTexts payload = payload ↔ ∀ text ∈ auctionTexts payload, 0 ∉ text := by
  simp only [auctionTexts, List.forall_mem_cons, List.not_mem_nil, false_implies, implies_true,
    and_true, ← cString_eq_self]
  constructor
  · intro h
    exact ⟨congrArg AuctionCommandPayload.accountName h, congrArg AuctionCommandPayload.actorName h,
      congrArg AuctionCommandPayload.objectShort h, congrArg AuctionCommandPayload.idKeywords h,
      congrArg AuctionCommandPayload.objectInfo h⟩
  · rintro ⟨haccount, hactor, hshort, hkeywords, hinfo⟩
    rw [cutTexts, haccount, hactor, hshort, hkeywords, hinfo]

theorem AuctionShape.cut (h : AuctionShape payload) :
    AuctionShape (cutTexts payload) where
  items := h.items
  accountName := (cString_length_le _).trans_lt h.accountName
  actorName := (cString_length_le _).trans_lt h.actorName
  objectShort := (cString_length_le _).trans_lt h.objectShort
  idKeywords := (cString_length_le _).trans_lt h.idKeywords
  objectInfo := (cString_length_le _).trans_lt h.objectInfo
  objectBlob := h.objectBlob

theorem auctionWire_inj {other : AuctionCommandPayload} (h : AuctionShape payload)
    (hother : AuctionShape other) (heq : auctionWire payload = auctionWire other) :
    payload = other := by
  have hread : readAuctionPayload (auctionWire payload ++ []) = .ok (payload, []) :=
    readAuctionPayload_eq_ok.mpr ⟨h, rfl⟩
  rw [heq, readAuctionPayload_eq_ok.mpr ⟨hother, rfl⟩] at hread
  exact (Prod.mk.inj (Except.ok.inj hread)).1.symm

theorem validPayload_cut (payload : AuctionCommandPayload) :
    validPayload (cutTexts payload) = validPayload payload := by
  unfold validPayload
  rw [show (cutTexts payload).accountName = cString payload.accountName from rfl, cString_idem]
  rfl

theorem builtFences_cut (sha256 : Bytes → Vector UInt8 32) (operationId : CriticalOperationId)
    (payload : AuctionCommandPayload) :
    builtFences sha256 operationId (cutTexts payload) = builtFences sha256 operationId payload := by
  have hkey : currencyAccountKey sha256 (cutTexts payload).accountName payload.racewar =
      currencyAccountKey sha256 payload.accountName payload.racewar :=
    currencyAccountKey_congr (cString_take_cString _ _)
  have hfences : auctionFences sha256 operationId (cutTexts payload) =
      auctionFences sha256 operationId payload := by
    unfold auctionFences
    rw [show (cutTexts payload).racewar = payload.racewar from rfl, hkey]
    rfl
  rw [builtFences, builtFences, hfences]

/-- What has to fit into the arrays for the encoder to accept a valid payload. -/
theorem auctionCommandEncodePayload_eq_some {encoded : Bytes}
    (h : auctionCommandEncodePayload payload = some encoded) :
    AuctionShape (cutTexts payload) ∧ encoded = auctionWire (cutTexts payload) := by
  unfold auctionCommandEncodePayload at h
  split at h
  · cases h
  · next hvalid =>
      simp only [Option.bind_eq_bind, Option.bind_eq_some_iff, appendString_eq_some] at h
      obtain ⟨_, ⟨haccount, rfl⟩, _, ⟨hactor, rfl⟩, _, ⟨hshort, rfl⟩, _, ⟨hkeywords, rfl⟩,
        _, ⟨hinfo, rfl⟩, h⟩ := h
      split at h
      · cases h
      · obtain rfl := Option.some.inj h
        simp only [validPayload, Bool.not_eq_false, Bool.and_eq_true, decide_eq_true_eq,
          and_assoc] at hvalid
        obtain ⟨hitems, hblob, -⟩ := hvalid
        have htake {size : Nat} {text : Bytes} (hlt : (cString (text.take size)).length < size) :
            (cString text).length < size := by
          rwa [cString_take_of_lt hlt] at hlt
        refine ⟨⟨hitems, htake haccount, htake hactor, htake hshort, htake hkeywords, htake hinfo,
          hblob.le⟩, ?_⟩
        simp only [cString_take_of_lt haccount, cString_take_of_lt hactor,
          cString_take_of_lt hshort, cString_take_of_lt hkeywords, cString_take_of_lt hinfo,
          auctionWire, List.append_assoc]
        rfl

theorem auctionWire_length_le (h : AuctionShape payload) :
    (auctionWire payload).length ≤ criticalCommandMaxPayloadBytes := by
  obtain ⟨hitems, haccount, hactor, hshort, hkeywords, hinfo, hblob⟩ := h
  simp only [auctionCommandMaxItems, currencyAccountNameMaxBytes, auctionNameMaxBytes,
    auctionShortMaxBytes, auctionKeywordsMaxBytes, auctionInfoMaxBytes, auctionBlobMaxBytes] at *
  simp only [auctionWire, List.length_append, encodeAuctionHeader_length,
    flatMap_length_const encodeAuctionItem_length, textField_length, appendLe_length,
    criticalCommandMaxPayloadBytes]
  omega

theorem auctionCommandEncodePayload_of_shape (h : AuctionShape payload)
    (hvalid : validPayload payload = true) :
    auctionCommandEncodePayload payload = some (auctionWire (cutTexts payload)) := by
  have htext {size : Nat} {text : Bytes} (htext : text.length < size) :
      appendString size text = some (textField 16 (cString text)) := by
    have hshort : (cString (text.take size)).length < size :=
      ((cString_length_le _).trans (List.length_take_le' ..)).trans_lt htext
    exact appendString_eq_some.mpr ⟨hshort, by rw [cString_take_of_lt hshort]⟩
  have hencoded : encodeAuctionHeader payload ++ payload.items.flatMap encodeAuctionItem ++
      textField 16 (cString payload.accountName) ++ textField 16 (cString payload.actorName) ++
      textField 16 (cString payload.objectShort) ++ textField 16 (cString payload.idKeywords) ++
      textField 16 (cString payload.objectInfo) ++
      appendLe (BitVec.ofNat 32 payload.objectBlob.length) ++ payload.objectBlob =
      auctionWire (cutTexts payload) := by
    simp only [auctionWire, List.append_assoc]
    rfl
  unfold auctionCommandEncodePayload
  rw [if_neg (by simp [hvalid])]
  simp only [htext h.accountName, htext h.actorName, htext h.objectShort, htext h.idKeywords,
    htext h.objectInfo, Option.bind_eq_bind, Option.bind_some, hencoded]
  exact if_neg (Nat.not_lt.mpr (auctionWire_length_le h.cut))

section Commands

variable {sha256 : Bytes → Vector UInt8 32} {operationId : CriticalOperationId}
  {payload : AuctionCommandPayload} {sourceSite : CriticalSourceSite}
  {deadlineClass : CriticalDeadlineClass} {command : CriticalCommand}

theorem builtFences_sorted {fences : List CriticalEntityKey × List CriticalExpectedRevision}
    (h : builtFences sha256 operationId payload = some fences) :
    fences.1.mergeSort keyNotAbove = fences.1 ∧
      fences.2.mergeSort (fun a b => keyNotAbove a.key b.key) = fences.2 := by
  simp only [builtFences, Option.bind_eq_bind, Option.bind_eq_some_iff] at h
  obtain ⟨unsorted, -, h⟩ := h
  split at h
  · cases h
  · cases h
    exact ⟨mergeSort_keys_idem _, mergeSort_revisions_idem _⟩

theorem auctionCommandBuild_encoded
    (h : auctionCommandBuild sha256 operationId payload sourceSite deadlineClass =
      some command) :
    auctionCommandEncodePayload payload = some command.payload := by
  unfold auctionCommandBuild at h
  split at h
  · cases h
  · simp only [Option.bind_eq_bind, Option.bind_eq_some_iff] at h
    obtain ⟨encoded, hencoded, fences, -, h⟩ := h
    cases h
    exact hencoded

theorem auction_decodesTo
    (h : auctionCommandBuild sha256 operationId payload sourceSite deadlineClass =
      some command) :
    DecodesTo (auctionCommandDecodePayload sha256) command (cutTexts payload) := by
  unfold auctionCommandBuild at h
  split at h
  · cases h
  · next hvalid =>
      simp only [Option.bind_eq_bind, Option.bind_eq_some_iff] at h
      obtain ⟨encoded, hencoded, fences, hfences, h⟩ := h
      cases h
      obtain ⟨hshape, rfl⟩ := auctionCommandEncodePayload_eq_some hencoded
      obtain ⟨hkeys, hrevisions⟩ := builtFences_sorted hfences
      refine decodesTo_of_sorted hkeys hrevisions (fun _ => rfl) ?_
      have hread : whole readAuctionPayload (auctionWire (cutTexts payload)) =
          some (cutTexts payload) :=
        whole_eq_some.mpr (readAuctionPayload_eq_ok.mpr ⟨hshape, (List.append_nil _).symm⟩)
      unfold auctionCommandDecodePayload
      rw [if_neg (by simp)]
      simp only [hread, validPayload_cut, builtFences_cut, hfences, Option.bind_eq_bind,
        Option.bind_some, if_neg hvalid, reduceIte]

theorem auction_respelled_iff (h : auctionCommandDecodePayload sha256 command = some payload) :
    auctionCommandEncodePayload payload = some command.payload ↔
      ∀ text ∈ auctionWireTexts command.payload, 0 ∉ text := by
  unfold auctionCommandDecodePayload at h
  split at h
  · cases h
  · simp only [Option.bind_eq_bind, Option.bind_eq_some_iff] at h
    obtain ⟨decoded, hread, h⟩ := h
    split at h
    · cases h
    · next hvalid =>
        split at h
        · cases h
          obtain ⟨hshape, hbytes⟩ := readAuctionPayload_eq_ok.mp (whole_eq_some.mp hread)
          rw [List.append_nil] at hbytes
          rw [hbytes, auctionWireTexts_wire hshape, ← cutTexts_eq_self,
            auctionCommandEncodePayload_of_shape hshape (by simpa using hvalid),
            Option.some.injEq]
          exact ⟨auctionWire_inj hshape.cut hshape, congrArg auctionWire⟩
        · cases h

end Commands

end Duris.Economy
