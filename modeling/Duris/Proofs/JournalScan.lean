import Duris.Player.SaveJournal
import Duris.Proofs.SnapshotCodec

/-!
# What the journal scanner finds

The scanner has three ways past a frame it does not like: to the next magic, by
the record size the header claims, or to the end of the file. Only the first is
safe behind a torn frame, so the question for a later frame is whether some
offset in front of it reads as a header. `Clean` says none does, and
then the scanner arrives at the frame (`scanFrom_clean`); a file that is a
sequence of clean pieces and frames is scanned frame by frame
(`scanFrom_segments`).
-/

namespace Duris.Player

def looksLikeHeader (rest : Bytes) : Bool := hasMagic rest && sizesPlausible rest

variable {a b rest head payload : Bytes} {n offset count : Nat} {frame : JournalFrame}

theorem getLe_of_take_eq {m : Nat} (h : a.take m = b.take m) (hle : offset + n / 8 ≤ m) :
    getLe n a offset = getLe n b offset := by
  have hslice : ∀ x : Bytes, (x.drop offset).take (n / 8) =
      ((x.take m).drop offset).take (n / 8) := by
    intro x
    rw [List.drop_take, List.take_take]
    congr 1
    omega
  unfold getLe
  rw [hslice a, hslice b, h]

theorem recordSize_of_take_eq (h : a.take 72 = b.take 72) : recordSize a = recordSize b := by
  rw [recordSize, recordSize, getLe_of_take_eq h (by decide)]

theorem sizesPlausible_of_take_eq (h : a.take 72 = b.take 72) :
    sizesPlausible a = sizesPlausible b := by
  unfold sizesPlausible
  rw [recordSize_of_take_eq h, getLe_of_take_eq (n := 32) h (by decide : 12 + 32 / 8 ≤ 72),
    getLe_of_take_eq (n := 32) h (by decide : 64 + 32 / 8 ≤ 72)]

theorem isPrefixOf_of_take_eq {p : Bytes} {m : Nat} (h : a.take m = b.take m) (hp : p.length ≤ m) :
    p.isPrefixOf a = p.isPrefixOf b := by
  have hiff : ∀ x : Bytes, p <+: x ↔ p <+: x.take m := by
    intro x
    constructor
    · intro hx
      exact List.prefix_take_iff.mpr ⟨hx, hp⟩
    · intro hx
      exact hx.trans (List.take_prefix m x)
  rw [Bool.eq_iff_iff, List.isPrefixOf_iff_prefix, List.isPrefixOf_iff_prefix, hiff a, hiff b, h]

theorem hasMagic_of_take_eq (h : a.take 72 = b.take 72) : hasMagic a = hasMagic b := by
  have hlen : journalHeaderSize ≤ a.length ↔ journalHeaderSize ≤ b.length := by
    have := congrArg List.length h
    simp only [List.length_take] at this
    simp only [journalHeaderSize]
    omega
  unfold hasMagic
  rw [isPrefixOf_of_take_eq h (by decide), decide_eq_decide.mpr hlen]

theorem looksLikeHeader_of_take_eq (h : a.take 72 = b.take 72) :
    looksLikeHeader a = looksLikeHeader b := by
  rw [looksLikeHeader, looksLikeHeader, hasMagic_of_take_eq h, sizesPlausible_of_take_eq h]

/-- `record` is a whole frame the scanner accepts, and `frame` what it makes of it. -/
structure ValidRecord (record : Bytes) (frame : JournalFrame) : Prop where
  header : looksLikeHeader record = true
  size : recordSize record = record.length
  accepted : acceptRecord record = some frame

theorem looksLikeHeader_length (h : looksLikeHeader rest = true) : 72 ≤ rest.length := by
  simp only [looksLikeHeader, hasMagic, Bool.and_eq_true, decide_eq_true_eq] at h
  exact h.1.1

theorem scanFrom_stop (count : Nat) (rest : Bytes)
    (h : rest = [] ∨ playerSaveJournalMaxRecords ≤ count) :
    scanFrom count rest = { unread := rest } := by
  rw [scanFrom, dif_pos h]

theorem scanFrom_skip (hne : rest ≠ []) (hcount : count < playerSaveJournalMaxRecords)
    (h : looksLikeHeader rest = false) :
    scanFrom count rest = (scanFrom count (rest.drop (resync rest))).withPiece
      (rest.take (resync rest)) := by
  rw [scanFrom, dif_neg (by simp [hne]; omega)]
  cases hm : hasMagic rest with
  | false => rw [if_pos rfl]
  | true =>
      have hs : sizesPlausible rest = false := by simpa [looksLikeHeader, hm] using h
      rw [if_neg (by simp), dif_pos hs]

theorem scanFrom_frame {record : Bytes} (hvalid : ValidRecord record frame)
    (hcount : count < playerSaveJournalMaxRecords) :
    scanFrom count (record ++ rest) = (scanFrom (count + 1) rest).withFrame frame := by
  have hlen := looksLikeHeader_length hvalid.header
  have htake : (record ++ rest).take 72 = record.take 72 :=
    List.take_append_of_le_length hlen
  have hheader := (looksLikeHeader_of_take_eq htake).trans hvalid.header
  simp only [looksLikeHeader, Bool.and_eq_true] at hheader
  have hsize : recordSize (record ++ rest) = record.length :=
    (recordSize_of_take_eq htake).trans hvalid.size
  have hne : record ++ rest ≠ [] := by
    intro h
    rw [List.append_eq_nil_iff] at h
    rw [h.1] at hlen
    simp at hlen
  rw [scanFrom, dif_neg (by simp only [hne, false_or]; omega), if_neg (by simp [hheader.1]),
    dif_neg (by simp [hheader.2]), if_neg (by rw [hsize, List.length_append]; omega)]
  rw [hsize, List.take_left' rfl, List.drop_left' rfl, hvalid.accepted]

theorem acceptRecord_bytes {record : Bytes} (h : acceptRecord record = some frame) :
    frame.bytes = record := by
  unfold acceptRecord at h
  split at h
  · cases h
  split at h
  · cases h
  unfold frameOf at h
  split at h
  · cases h
  · split at h
    · cases h
    · cases h
      rfl

theorem withFrame_frames (scan : Scan) (frame : JournalFrame) :
    (scan.withFrame frame).frames = frame :: scan.frames := rfl

theorem withPiece_frames (scan : Scan) (piece : Bytes) :
    (scan.withPiece piece).frames = scan.frames := rfl

/-- What the scanner returns it would accept again, and it stops at the limit. -/
theorem scanFrom_frames (count : Nat) (rest : Bytes)
    (hcount : count ≤ playerSaveJournalMaxRecords) :
    (∀ frame ∈ (scanFrom count rest).frames, ValidRecord frame.bytes frame) ∧
      count + (scanFrom count rest).frames.length ≤ playerSaveJournalMaxRecords := by
  induction count, rest using scanFrom.induct with
  | case1 count rest hend =>
      rw [scanFrom_stop count rest hend]
      exact ⟨fun _ h => (List.not_mem_nil h).elim, hcount⟩
  | case2 count rest hend hmagic ih =>
      rw [scanFrom, dif_neg hend, if_pos hmagic]
      exact ih hcount
  | case3 count rest hend hmagic hsizes ih =>
      rw [scanFrom, dif_neg hend, if_neg hmagic, dif_pos hsizes]
      exact ih hcount
  | case4 count rest hend hmagic hsizes hlong =>
      rw [scanFrom, dif_neg hend, if_neg hmagic, dif_neg hsizes, if_pos hlong]
      exact ⟨fun _ h => (List.not_mem_nil h).elim, hcount⟩
  | case5 count rest hend hmagic hsizes hlong hnone ih =>
      rw [scanFrom, dif_neg hend, if_neg hmagic, dif_neg hsizes, if_neg hlong, hnone]
      exact ih hcount
  | case6 count rest hend hmagic hsizes hlong frame hframe ih =>
      rw [scanFrom, dif_neg hend, if_neg hmagic, dif_neg hsizes, if_neg hlong, hframe]
      simp only [not_or, Nat.not_le] at hend
      obtain ⟨hvalid, hbound⟩ := ih (by omega)
      simp only [withFrame_frames, List.forall_mem_cons, List.length_cons]
      refine ⟨⟨?_, hvalid⟩, by omega⟩
      -- the record is a prefix of `rest` that still holds the whole header
      have hheader : looksLikeHeader rest = true := by
        simpa [looksLikeHeader] using And.intro hmagic hsizes
      have hsize : 72 ≤ recordSize rest := by
        simp only [sizesPlausible, Bool.not_eq_false, Bool.and_eq_true, decide_eq_true_eq]
          at hsizes
        exact hsizes.1.1.2
      have htake : (rest.take (recordSize rest)).take 72 = rest.take 72 := by
        rw [List.take_take]; congr 1; omega
      rw [acceptRecord_bytes hframe]
      exact
        { header := (looksLikeHeader_of_take_eq htake).trans hheader
          size := by rw [recordSize_of_take_eq htake, List.length_take]; omega
          accepted := hframe }

/-- No offset in `junk` reads as a header, with `frame` behind it. -/
def Clean (junk : Bytes) (frame : JournalFrame) : Prop :=
  ∀ offset < junk.length, looksLikeHeader ((junk ++ frame.bytes).drop offset) = false

theorem findNextMagic_le {junk : Bytes} (h : journalMagic.isPrefixOf rest = true) :
    findNextMagic (junk ++ rest) ≤ junk.length := by
  induction junk with
  | nil =>
      cases rest with
      | nil => simp [findNextMagic]
      | cons byte rest => simp [findNextMagic, h]
  | cons byte junk ih =>
      rw [List.cons_append, findNextMagic, List.length_cons]
      split
      · exact Nat.zero_le _
      · exact Nat.succ_le_succ ih

theorem scanFrom_clean (hvalid : ValidRecord frame.bytes frame)
    (hcount : count < playerSaveJournalMaxRecords) (rest : Bytes) :
    ∀ (n : Nat) {junk : Bytes}, junk.length ≤ n → Clean junk frame →
      (scanFrom count (junk ++ (frame.bytes ++ rest))).frames =
        frame :: (scanFrom (count + 1) rest).frames := by
  have hlen := looksLikeHeader_length hvalid.header
  have hmagic : journalMagic.isPrefixOf (frame.bytes ++ rest) = true := by
    have h := hvalid.header
    simp only [looksLikeHeader, hasMagic, Bool.and_eq_true] at h
    rw [isPrefixOf_of_take_eq (List.take_append_of_le_length hlen) (by decide)]
    exact h.1.2
  intro n
  induction n with
  | zero =>
      intro junk hn _
      obtain rfl := List.length_eq_zero_iff.mp (Nat.le_zero.mp hn)
      rw [List.nil_append, scanFrom_frame hvalid hcount, withFrame_frames]
  | succ n ih =>
      intro junk hn hclean
      cases junk with
      | nil => rw [List.nil_append, scanFrom_frame hvalid hcount, withFrame_frames]
      | cons byte junk =>
          have hnoHeader : looksLikeHeader (byte :: junk ++ (frame.bytes ++ rest)) = false := by
            rw [← hclean 0 (by simp), List.drop_zero]
            apply looksLikeHeader_of_take_eq
            rw [← List.append_assoc]
            exact List.take_append_of_le_length (by simp; omega)
          rw [scanFrom_skip (by simp) hcount hnoHeader, withPiece_frames]
          -- the next magic is not behind the frame's own
          have hnext : findNextMagic (junk ++ (frame.bytes ++ rest)) ≤ junk.length :=
            findNextMagic_le hmagic
          have hresync : resync (byte :: junk ++ (frame.bytes ++ rest)) =
              findNextMagic (junk ++ (frame.bytes ++ rest)) + 1 := rfl
          rw [hresync, List.cons_append, List.drop_succ_cons,
            List.drop_append_of_le_length hnext]
          apply ih
          · rw [List.length_drop]; simp only [List.length_cons] at hn; omega
          · intro offset hoffset
            rw [List.length_drop] at hoffset
            have h := hclean (findNextMagic (junk ++ (frame.bytes ++ rest)) + 1 + offset)
              (by rw [List.length_cons]; omega)
            rw [← h, ← List.drop_append_of_le_length hnext, List.drop_drop]
            congr 1
            rw [List.cons_append, Nat.add_right_comm, List.drop_succ_cons]

theorem getLe_here [Octets n] (x : BitVec n) (back : Bytes) :
    getLe n (appendLe x ++ back) 0 = x := by
  rw [getLe, List.drop_zero, List.take_left' (appendLe_length x), ofNat_leNat_appendLe]

theorem getLe_skip {front : Bytes} (back : Bytes) (h : front.length ≤ offset) :
    getLe n (front ++ back) offset = getLe n back (offset - front.length) := by
  rw [getLe, getLe, List.drop_append, List.drop_eq_nil_of_le h, List.nil_append]

theorem frameHead_length (snapshot : PlayerSnapshot) (payload : Bytes)
    (recordId createdMsec : BitVec 64) :
    (frameHead snapshot payload recordId createdMsec).length = 68 := by
  simp [frameHead, journalMagic]

theorem frameBytes_length (h : head.length = 68) :
    (frameBytes head payload).length = journalHeaderSize + payload.length := by
  simp only [frameBytes, List.length_append, h, appendLe_length, journalHeaderSize]

theorem frameBytes_drop (h : head.length = 68) :
    (frameBytes head payload).drop journalHeaderSize = payload := by
  rw [frameBytes, List.drop_left']
  simp [h, journalHeaderSize]

theorem frameChecksum_frameBytes (h : head.length = 68) :
    getLe 32 (frameBytes head payload) journalChecksumOffset =
      frameChecksum (frameBytes head payload) := by
  have hbytes : ∀ checksum : BitVec 32,
      frameChecksum (head ++ appendLe checksum ++ payload) =
        ~~~crc32Update (crc32Update (BitVec.allOnes 32) head) payload := by
    intro checksum
    have htake : (head ++ appendLe checksum ++ payload).take journalChecksumOffset = head := by
      rw [List.append_assoc]
      exact List.take_left' h
    have hdrop : (head ++ appendLe checksum ++ payload).drop journalHeaderSize = payload :=
      List.drop_left' (by simp [h, journalHeaderSize])
    rw [frameChecksum, htake, hdrop]
  rw [frameBytes, hbytes, hbytes, List.append_assoc,
    getLe_skip _ (by rw [h]; exact Nat.le_refl _), h]
  exact getLe_here _ _

/-- The fields of a frame's header, where the scanner looks for them. -/
structure HeaderOf (bytes : Bytes) (snapshot : PlayerSnapshot) (payload : Bytes)
    (recordId createdMsec : BitVec 64) : Prop where
  version : getLe 32 bytes 8 = journalFormatVersion
  headerSize : getLe 32 bytes 12 = BitVec.ofNat 32 journalHeaderSize
  recordSize : getLe 64 bytes 16 = BitVec.ofNat 64 (journalHeaderSize + payload.length)
  recordId : getLe 64 bytes 24 = recordId
  createdMsec : getLe 64 bytes 32 = createdMsec
  pid : getLe 32 bytes 40 = snapshot.pid
  schema : getLe 32 bytes 44 = snapshot.schemaVersion
  revision : getLe 64 bytes 48 = snapshot.revision
  components : getLe 64 bytes 56 = snapshot.components
  payloadSize : getLe 32 bytes 64 = BitVec.ofNat 32 payload.length

theorem getLe_skipField {m : Nat} (y : BitVec m) (back : Bytes) (h : m / 8 ≤ offset) :
    getLe n (appendLe y ++ back) offset = getLe n back (offset - m / 8) := by
  rw [getLe_skip back (by rw [appendLe_length]; exact h), appendLe_length]

theorem getLe_skipMagic (back : Bytes) (h : 8 ≤ offset) :
    getLe n (journalMagic ++ back) offset = getLe n back (offset - 8) :=
  getLe_skip back h

theorem headerOf_frameBytes (snapshot : PlayerSnapshot) (payload : Bytes)
    (recordId createdMsec : BitVec 64) :
    HeaderOf (frameBytes (frameHead snapshot payload recordId createdMsec) payload) snapshot
      payload recordId createdMsec := by
  constructor
  all_goals
    simp (disch := decide) only [frameBytes, frameHead, List.append_assoc, getLe_skipMagic,
      getLe_skipField, Nat.reduceSub, Nat.reduceDiv, getLe_here]

theorem headerOf_looksLikeHeader {bytes : Bytes} {snapshot : PlayerSnapshot}
    {recordId createdMsec : BitVec 64} (h : HeaderOf bytes snapshot payload recordId createdMsec)
    (hmax : payload.length ≤ playerSnapshotMaxBytes) :
    sizesPlausible bytes = true ∧ recordSize bytes = journalHeaderSize + payload.length := by
  have hrecord : recordSize bytes = journalHeaderSize + payload.length := by
    rw [recordSize, h.recordSize, BitVec.toNat_ofNat]
    apply Nat.mod_eq_of_lt
    simp only [journalHeaderSize, playerSnapshotMaxBytes] at *
    omega
  have hpayload : (getLe 32 bytes 64).toNat = payload.length := by
    rw [h.payloadSize, BitVec.toNat_ofNat]
    apply Nat.mod_eq_of_lt
    simp only [playerSnapshotMaxBytes] at hmax
    omega
  refine ⟨?_, hrecord⟩
  simp only [sizesPlausible, hrecord, hpayload, h.headerSize, journalMaxRecordSize,
    beq_self_eq_true, Bool.true_and, Bool.and_eq_true, decide_eq_true_eq]
  omega

theorem frameBytes_hasMagic (snapshot : PlayerSnapshot) (payload : Bytes)
    (recordId createdMsec : BitVec 64) :
    hasMagic (frameBytes (frameHead snapshot payload recordId createdMsec) payload) = true := by
  have hhead := frameHead_length snapshot payload recordId createdMsec
  simp only [hasMagic, frameBytes_length hhead, Bool.and_eq_true, decide_eq_true_eq]
  refine ⟨by omega, ?_⟩
  rw [List.isPrefixOf_iff_prefix]
  simp only [frameBytes, frameHead, List.append_assoc]
  exact List.prefix_append _ _

theorem playerSnapshotEncode_schema {s : PlayerSnapshot} {encoded : Bytes}
    (h : playerSnapshotEncode s = .ok encoded) : getLe 32 encoded 0 = s.schemaVersion := by
  have hbytes : encoded = (encodeSnapshot s).bytes := by
    unfold playerSnapshotEncode at h
    split at h
    · cases h
    dsimp only at h
    split at h
    · cases h
    split at h
    · cases h
    · cases h; rfl
  rw [hbytes, encodeSnapshot_eq]
  exact getLe_here _ _

theorem buildFrame_valid {snapshot : PlayerSnapshot} {createdMsec sequence : BitVec 64}
    (h : buildFrame snapshot createdMsec sequence = some frame) :
    ValidRecord frame.bytes frame ∧ frame.snapshot = snapshot := by
  unfold buildFrame at h
  split at h
  · cases h
  · next payload hencode =>
      obtain ⟨hdecode, hmeta⟩ := playerSnapshotDecode_encode hencode
      obtain ⟨-, hmax⟩ := playerSnapshotDecode_size hdecode
      cases h
      generalize (createdMsec <<< 20) ^^^ sequence ^^^
        (snapshot.pid.zeroExtend 64 <<< 32) ^^^ snapshot.revision = recordId
      have hhead := frameHead_length snapshot payload recordId createdMsec
      have hheader := headerOf_frameBytes snapshot payload recordId createdMsec
      obtain ⟨hsizes, hrecord⟩ := headerOf_looksLikeHeader hheader hmax
      refine ⟨?_, rfl⟩
      refine
        { header := by
            rw [looksLikeHeader, frameBytes_hasMagic, hsizes]
            rfl
          size := hrecord.trans (frameBytes_length hhead).symm
          accepted := ?_ }
      rw [acceptRecord, if_neg (by rw [hheader.version]; simp),
        if_neg (by rw [frameChecksum_frameBytes hhead]; simp), frameOf, frameBytes_drop hhead,
        hdecode]
      have hsame : ¬ (snapshot.pid ≠ getLe 32 (frameBytes (frameHead snapshot payload recordId
            createdMsec) payload) 40 ∨
          getLe 32 payload 0 ≠ getLe 32 (frameBytes (frameHead snapshot payload recordId
            createdMsec) payload) 44 ∨
          snapshot.revision ≠ getLe 64 (frameBytes (frameHead snapshot payload recordId
            createdMsec) payload) 48 ∨
          snapshot.components ≠ getLe 64 (frameBytes (frameHead snapshot payload recordId
            createdMsec) payload) 56) := by
        rw [hheader.pid, hheader.schema, hheader.revision, hheader.components,
          playerSnapshotEncode_schema hencode]
        simp
      simp only [if_neg hsame, hheader.recordId, hheader.createdMsec]

/-- A file as pieces of junk, each with the complete frame behind it. -/
def segmentBytes (segments : List (Bytes × JournalFrame)) : Bytes :=
  segments.flatMap fun segment => segment.1 ++ segment.2.bytes

def SegmentOk (segment : Bytes × JournalFrame) : Prop :=
  ValidRecord segment.2.bytes segment.2 ∧ Clean segment.1 segment.2

theorem scanFrom_segments {segments : List (Bytes × JournalFrame)} (rest : Bytes) :
    ∀ {count : Nat}, (∀ segment ∈ segments, SegmentOk segment) →
      count + segments.length ≤ playerSaveJournalMaxRecords →
      (scanFrom count (segmentBytes segments ++ rest)).frames =
        segments.map Prod.snd ++ (scanFrom (count + segments.length) rest).frames := by
  induction segments with
  | nil => intro count _ _; rfl
  | cons segment segments ih =>
      intro count hok hlen
      rw [List.length_cons] at hlen
      obtain ⟨hvalid, hclean⟩ := hok segment (by simp)
      have hbytes : segmentBytes (segment :: segments) ++ rest =
          segment.1 ++ (segment.2.bytes ++ (segmentBytes segments ++ rest)) := by
        simp [segmentBytes]
      rw [hbytes, scanFrom_clean hvalid (by omega) _ segment.1.length (Nat.le_refl _) hclean,
        ih (fun s hs => hok s (by simp [hs])) (by omega)]
      rw [List.map_cons, List.cons_append, List.length_cons,
        show count + 1 + segments.length = count + (segments.length + 1) by omega]

end Duris.Player
