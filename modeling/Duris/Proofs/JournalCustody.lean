import Duris.Lib.Run
import Duris.Proofs.JournalScan

/-!
# The journal keeps what it answered for

`JournalState.Inv` cuts the complete part of the file into segments, junk with a whole
frame behind it, and says that every frame an append answered ok for is one of them;
`scanFrom_segments` then finds it. Appends extend the segments, a compaction starts
them over from the frames the scan returned.

The junk is what failed appends left, and an append that writes its whole frame has to
find it clean. A frame that was torn after its header is not: it reads as a header, and
`torn_frame_hides_next` is the run in which that costs a later frame.
-/

namespace Duris.Player

/-! ## What the file holds -/

/-- The complete part of the file is segments, and holds what is owed. -/
structure JournalState.Inv (s : JournalState) : Prop where
  within : s.complete ≤ s.file.length
  records : s.records ≤ playerSaveJournalMaxRecords
  segments : ∃ segments, s.file.take s.complete = segmentBytes segments ∧
    segments.length = s.records ∧ (∀ segment ∈ segments, SegmentOk segment) ∧
    ∀ frame ∈ s.owed, frame ∈ segments.map Prod.snd

variable {s : JournalState} {frame first second : JournalFrame} {quota : Nat}
  {frames : List JournalFrame} {torn : PlayerSnapshot}

theorem JournalState.Inv.owed_scanned (hinv : s.Inv) :
    ∀ frame ∈ s.owed, frame ∈ (scanFrom 0 s.file).frames := by
  intro frame hframe
  obtain ⟨segments, hbytes, hlen, hok, howed⟩ := hinv.segments
  have hfile : s.file = segmentBytes segments ++ s.tail := by
    rw [← hbytes, tail, List.take_append_drop]
  have hrecords := hinv.records
  rw [hfile, scanFrom_segments s.tail hok (by omega)]
  exact List.mem_append_left _ (howed frame hframe)

theorem segmentBytes_map (frames : List JournalFrame) :
    segmentBytes (frames.map fun frame => ([], frame)) = compacted frames := by
  simp [segmentBytes, compacted, List.flatMap_map]

theorem JournalState.Inv.rewrite (hinv : s.Inv) (kept : JournalFrame → Bool) :
    (s.rewrite ((scanFrom 0 s.file).frames.filter kept) kept).Inv := by
  obtain ⟨hvalid, hlen⟩ := scanFrom_frames 0 s.file (Nat.zero_le _)
  refine
    { within := Nat.le_refl _
      records := ?_
      segments := ⟨((scanFrom 0 s.file).frames.filter kept).map fun frame => ([], frame),
        ?_, ?_, ?_, ?_⟩ }
  · have := List.length_filter_le kept (scanFrom 0 s.file).frames
    simp only [JournalState.rewrite]
    omega
  · rw [segmentBytes_map]
    exact List.take_length
  · rw [List.length_map]; rfl
  · intro segment hsegment
    obtain ⟨frame, hframe, rfl⟩ := List.mem_map.mp hsegment
    refine ⟨hvalid frame (List.mem_of_mem_filter hframe), ?_⟩
    intro offset hoffset
    simp at hoffset
  · intro frame hframe
    obtain ⟨howed, hkept⟩ := List.mem_filter.mp hframe
    rw [List.map_map]
    simp only [Function.comp_def, List.map_id']
    exact List.mem_filter.mpr ⟨hinv.owed_scanned frame howed, hkept⟩

theorem JournalState.Inv.append_torn (hinv : s.Inv) (bytes : Bytes) :
    JournalState.Inv { s with file := s.file ++ bytes } := by
  have hwithin := hinv.within
  refine
    { within := by simp only [List.length_append]; omega
      records := hinv.records
      segments := ?_ }
  simp only [List.take_append_of_le_length hwithin]
  exact hinv.segments

theorem JournalState.Inv.append_whole (hinv : s.Inv) (hvalid : ValidRecord frame.bytes frame)
    (hroom : s.records < playerSaveJournalMaxRecords) (hclean : Clean s.tail frame)
    {owed : List JournalFrame} (howed : ∀ f ∈ owed, f ∈ s.owed ∨ f = frame) :
    JournalState.Inv { s with
      file := s.file ++ frame.bytes
      complete := (s.file ++ frame.bytes).length
      records := s.records + 1
      owed := owed } := by
  obtain ⟨segments, hbytes, hlen, hok, hsegments⟩ := hinv.segments
  refine
    { within := Nat.le_refl _
      records := hroom
      segments := ⟨segments ++ [(s.tail, frame)], ?_, ?_, ?_, ?_⟩ }
  · have hfile : s.file = segmentBytes segments ++ s.tail := by
      rw [← hbytes, tail, List.take_append_drop]
    rw [List.take_length]
    conv_lhs => rw [hfile]
    simp [segmentBytes]
  · simp [hlen]
  · intro segment hsegment
    rw [List.mem_append, List.mem_singleton] at hsegment
    obtain hsegment | rfl := hsegment
    · exact hok segment hsegment
    · exact ⟨hvalid, hclean⟩
  · intro f hf
    rw [List.map_append, List.mem_append]
    obtain hold | rfl := howed f hf
    · exact Or.inl (hsegments f hold)
    · exact Or.inr (by simp)

/-! ## Runs -/

def WritesWhole (quota : Nat) (s : JournalState) (frame : JournalFrame) (io : AppendIo) :
    Prop :=
  s.initialized = true ∧ io.opened = true ∧ frame.bytes.length ≤ quota ∧
    s.file.length ≤ quota - frame.bytes.length ∧ frame.bytes.length ≤ io.written

/-- The condition on an append that writes its whole frame: there is room for one
more record, and what failed appends left in front of the frame does not read as
a header anywhere. -/
def AppendSafe (quota : Nat) (s : JournalState) : JournalEvent → Prop
  | .append snapshot createdMsec sequence io =>
      ∀ frame, buildFrame snapshot createdMsec sequence = some frame →
        WritesWhole quota s frame io →
        s.records < playerSaveJournalMaxRecords ∧ Clean s.tail frame
  | _ => True

theorem inv_append (hinv : s.Inv) {snapshot : PlayerSnapshot} {createdMsec sequence : BitVec 64}
    {io : AppendIo} (hsafe : AppendSafe quota s (.append snapshot createdMsec sequence io)) :
    (playerSaveJournalAppend quota s snapshot createdMsec sequence io).2.Inv := by
  unfold playerSaveJournalAppend
  split
  · exact hinv
  next hinit =>
  split
  · exact hinv
  next frame hbuild =>
  split
  · exact hinv
  next hopened =>
  split
  · exact hinv
  next hquota =>
  split
  · exact hinv.append_torn _
  next hwritten =>
  simp only [not_or, Nat.not_lt, Bool.not_eq_false] at hinit hopened hquota hwritten
  obtain ⟨hroom, hclean⟩ := hsafe frame hbuild
    ⟨hinit, hopened, hquota.1, hquota.2, hwritten⟩
  have hvalid := (buildFrame_valid hbuild).1
  have hwhole : frame.bytes.take io.written = frame.bytes := List.take_of_length_le hwritten
  rw [hwhole]
  split
  · refine hinv.append_whole hvalid hroom hclean ?_
    intro f hf
    simpa using hf
  · exact hinv.append_whole hvalid hroom hclean fun f hf => Or.inl hf

theorem scanJournal_ok {io : ScanIo} (h : (scanJournal quota s io).2 = .ok) :
    (scanJournal quota s io).1 = scanFrom 0 s.file := by
  unfold scanJournal at h ⊢
  split
  · next hread => rw [if_pos hread] at h; cases h
  · next hread =>
      rw [if_neg hread] at h
      split
      · next hquota => rw [if_pos hquota] at h; cases h
      · rfl

theorem inv_checkpoint (hinv : s.Inv) (pid : Pid) (durable : Revision) (io : ScanIo)
    (compaction : Compaction) :
    (playerSaveJournalCheckpoint quota s pid durable io compaction).2.Inv := by
  unfold playerSaveJournalCheckpoint
  split
  · exact hinv
  split
  · exact hinv
  dsimp only
  split
  · exact hinv
  · next hok =>
      rw [not_not] at hok
      rw [scanJournal_ok hok]
      cases compaction with
      | failed => exact hinv
      | renamed => exact hinv.rewrite _
      | done => exact hinv.rewrite _

theorem inv_init (hinv : s.Inv) (io : ScanIo) (compaction : Compaction) :
    (playerSaveJournalInit quota s io compaction).2.Inv := by
  have hall : ∀ frames : List JournalFrame, frames.filter (fun _ => true) = frames := by simp
  have hrewrite := hinv.rewrite fun _ => true
  rw [hall] at hrewrite
  unfold playerSaveJournalInit
  split
  · exact hinv
  dsimp only
  split
  · exact hinv
  · next hok =>
      rw [not_not] at hok
      rw [scanJournal_ok hok]
      split
      · exact { hinv with }
      · cases compaction with
        | failed => exact hinv
        | renamed => exact hrewrite
        | done => exact { hrewrite with }

theorem journalStep_inv (s : JournalState) (e : JournalEvent) (hinv : s.Inv)
    (hsafe : AppendSafe quota s e) : (journalStep quota s e).Inv := by
  cases e with
  | init io compaction => exact inv_init hinv io compaction
  | shutdown => exact { hinv with }
  | append snapshot createdMsec sequence io => exact inv_append hinv hsafe
  | checkpoint pid durable io compaction => exact inv_checkpoint hinv pid durable io compaction

theorem inv_empty : JournalState.Inv {} where
  within := Nat.le_refl _
  records := Nat.zero_le _
  segments := ⟨[], rfl, rfl, by simp, by simp⟩

theorem withoutDuplicates_identity :
    ∀ {seen} {frame : JournalFrame}, frame ∈ frames →
      identity frame ∈ seen ∨
        ∃ offered ∈ withoutDuplicates seen frames, identity offered = identity frame := by
  induction frames with
  | nil => intro seen frame h; cases h
  | cons head frames ih =>
      intro seen frame h
      rw [withoutDuplicates]
      by_cases hseen : identity head ∈ seen
      · rw [if_pos hseen]
        obtain rfl | h := List.mem_cons.mp h
        · exact Or.inl hseen
        · exact ih h
      · rw [if_neg hseen]
        obtain rfl | h := List.mem_cons.mp h
        · exact Or.inr ⟨frame, List.mem_cons_self, rfl⟩
        · obtain hmem | ⟨offered, hoffered, hid⟩ := ih h
          · obtain hid | hmem := List.mem_cons.mp hmem
            · exact Or.inr ⟨head, List.mem_cons_self, hid.symm⟩
            · exact Or.inl hmem
          · exact Or.inr ⟨offered, List.mem_cons_of_mem _ hoffered, hid⟩

theorem withoutDuplicates_subset :
    ∀ {seen} {frame : JournalFrame}, frame ∈ withoutDuplicates seen frames → frame ∈ frames := by
  induction frames with
  | nil => intro seen frame h; cases h
  | cons head frames ih =>
      intro seen frame h
      rw [withoutDuplicates] at h
      split at h
      · exact List.mem_cons_of_mem _ (ih h)
      · obtain rfl | h := List.mem_cons.mp h
        · exact List.mem_cons_self
        · exact List.mem_cons_of_mem _ (ih h)

/-- Equal payload checksums mean equal payloads. -/
def CollisionFree (frames : List JournalFrame) : Prop :=
  ∀ f ∈ frames, ∀ g ∈ frames, f.payloadChecksum = g.payloadChecksum →
    f.bytes.drop journalHeaderSize = g.bytes.drop journalHeaderSize

theorem acceptRecord_snapshot {record : Bytes} (h : acceptRecord record = some frame) :
    playerSnapshotDecode (record.drop journalHeaderSize) = .ok frame.snapshot := by
  unfold acceptRecord at h
  split at h
  · cases h
  split at h
  · cases h
  unfold frameOf at h
  split at h
  · cases h
  · next hdecode =>
      split at h
      · cases h
      · cases h
        exact hdecode

/-- Every frame of a scan is offered by the replay, or one with its identity is;
without collisions that one carries the same snapshot. -/
theorem replayPlan_offers (hvalid : ∀ frame ∈ frames, ValidRecord frame.bytes frame)
    (h : frame ∈ frames) :
    ∃ offered ∈ replayPlan frames, identity offered = identity frame ∧
      (CollisionFree frames → offered.snapshot = frame.snapshot) := by
  have hsorted : frame ∈ frames.mergeSort replayLe := List.mem_mergeSort.mpr h
  obtain ⟨offered, hoffered, hid⟩ :=
    (@withoutDuplicates_identity _ [] _ hsorted).resolve_left List.not_mem_nil
  have hmem : offered ∈ frames := List.mem_mergeSort.mp (withoutDuplicates_subset hoffered)
  refine ⟨offered, hoffered, hid, fun hfree => ?_⟩
  simp only [identity, Prod.mk.injEq] at hid
  have hpayload := hfree offered hmem frame h hid.2.2.2
  have hleft := acceptRecord_snapshot (hvalid offered hmem).accepted
  have hright := acceptRecord_snapshot (hvalid frame h).accepted
  rw [hpayload, hright] at hleft
  exact (Except.ok.inj hleft).symm

/-! ## The runs -/

/-- A player without possessions, and with these output preferences. -/
def bareSnapshot (pid : Pid) (revision : Revision) (preferences : Bytes) : PlayerSnapshot :=
  { schemaVersion := playerSnapshotSchemaVersion, pid, revision, components := 1
    saveIntent := 0, roomVnum := 0, encodedSizeBound := 4096, statusIntegers := []
    statusStrings := [], conditions := Vector.replicate 5 0
    questValues := Vector.replicate 14 0, languages := [], introductions := []
    timers := [], undeadSlots := [], forgedItems := [], grantedCommands := []
    skills := [], affects := [], items := [], pets := [], shapes := [], trophies := []
    recipesAreExternal := false, outputPreferences := preferences, death := none }

def encodedLength (snapshot : PlayerSnapshot) : Option Nat :=
  match playerSnapshotEncode snapshot with
  | .ok encoded => some encoded.length
  | .error _ => none

theorem buildFrame_of_encodedLength {snapshot : PlayerSnapshot} {n : Nat}
    (h : encodedLength snapshot = some n) (createdMsec sequence : BitVec 64) :
    ∃ frame, buildFrame snapshot createdMsec sequence = some frame ∧
      frame.bytes.length = journalHeaderSize + n := by
  unfold encodedLength at h
  unfold buildFrame
  split at h
  · next payload hencode =>
      cases h
      rw [hencode]
      exact ⟨_, rfl, frameBytes_length (frameHead_length _ _ _ _)⟩
  · cases h

/-- Two appends, the first cut off at `written` bytes, the second whole. -/
def tornThenWhole (torn whole : PlayerSnapshot) (written : Nat) : List JournalEvent :=
  [.init ⟨true, true⟩ .done, .append torn 0 0 ⟨true, written, true⟩,
    .append whole 0 1 ⟨true, journalMaxRecordSize, true⟩]

theorem init_empty (quota : Nat) :
    playerSaveJournalInit quota {} ⟨true, true⟩ .done = (true, { initialized := true }) := by
  have hscan : scanFrom 0 [] = {} := scanFrom_stop 0 [] (Or.inl rfl)
  simp [playerSaveJournalInit, scanJournal, hscan, scanResult]

theorem torn_append {written : Nat} (hfirst : buildFrame torn 0 0 = some first)
    (hwritten : written < first.bytes.length) (hquota : first.bytes.length ≤ quota) :
    playerSaveJournalAppend quota { initialized := true } torn 0 0 ⟨true, written, true⟩ =
      (.ioFailure, { file := first.bytes.take written, initialized := true }) := by
  have hfits : ¬ (quota < first.bytes.length ∨ quota - first.bytes.length < 0) := by omega
  simp only [playerSaveJournalAppend, hfirst, Bool.true_eq_false, if_false, List.length_nil,
    hfits, hwritten, if_true, List.nil_append]

theorem run_tornThenWhole {written : Nat} {whole : PlayerSnapshot}
    (hfirst : buildFrame torn 0 0 = some first) (hsecond : buildFrame whole 0 1 = some second)
    (hwritten : written < first.bytes.length) (hquota : first.bytes.length ≤ quota)
    (hquota' : written + second.bytes.length ≤ quota)
    (hwhole : second.bytes.length ≤ journalMaxRecordSize) :
    run (journalStep quota) {} (tornThenWhole torn whole written) =
      { file := first.bytes.take written ++ second.bytes
        initialized := true
        complete := (first.bytes.take written ++ second.bytes).length
        records := 1
        owed := [second] } := by
  have hlen : (first.bytes.take written).length = written := by
    rw [List.length_take]; omega
  have hquotaWhole : ¬ (quota < second.bytes.length ∨
      quota - second.bytes.length < (first.bytes.take written).length) := by
    rw [hlen]; omega
  have htake : second.bytes.take journalMaxRecordSize = second.bytes :=
    List.take_of_length_le hwhole
  simp only [tornThenWhole, run_cons, run_nil, journalStep, init_empty,
    torn_append hfirst hwritten hquota]
  simp only [playerSaveJournalAppend, hsecond, Bool.true_eq_false, if_false, if_true,
    List.nil_append, hquotaWhole, htake, Nat.not_lt.mpr hwhole]

theorem magic_of_valid (h : ValidRecord frame.bytes frame) :
    ∃ back, frame.bytes = journalMagic ++ back := by
  have hheader := h.header
  simp only [looksLikeHeader, hasMagic, Bool.and_eq_true] at hheader
  obtain ⟨back, hback⟩ := List.isPrefixOf_iff_prefix.mp hheader.1.2
  exact ⟨back, hback.symm⟩

/-- The first three bytes of a magic with another magic behind them are no magic. -/
theorem clean_of_three (hfirst : ValidRecord first.bytes first)
    (hsecond : ValidRecord second.bytes second) : Clean (first.bytes.take 3) second := by
  obtain ⟨back, hback⟩ := magic_of_valid hfirst
  obtain ⟨next, hnext⟩ := magic_of_valid hsecond
  have htake : first.bytes.take 3 = [0x44, 0x50, 0x53] := by
    rw [hback]; rfl
  rw [htake]
  intro offset hoffset
  rw [hnext, looksLikeHeader, hasMagic]
  simp only [List.length_cons, List.length_nil] at hoffset
  have hcases : offset = 0 ∨ offset = 1 ∨ offset = 2 := by omega
  rcases hcases with rfl | rfl | rfl <;> simp [journalMagic, List.isPrefixOf]

/-- In every run whose whole appends find room and nothing like a header in front of
them, every frame an append answered ok for and no compaction released is among
the frames a scan returns, and the next replay that gets past its scan offers it
(or a frame with the same identity, which has the same snapshot unless payload
checksums collide). -/
theorem journal_keeps_appended_frames (quota : Nat) (events : List JournalEvent)
    (hsafe : Along (journalStep quota) (AppendSafe quota) {} events) :
    let s := run (journalStep quota) {} events
    ∀ frame ∈ s.owed, frame ∈ (scanFrom 0 s.file).frames ∧
      ∀ io, (scanJournal quota s io).2 = .ok →
        let frames := (scanJournal quota s io).1.frames
        frame ∈ frames ∧ ∃ offered ∈ replayPlan frames, identity offered = identity frame ∧
          (CollisionFree frames → offered.snapshot = frame.snapshot) := by
  intro s frame hframe
  have hinv : s.Inv := run_invariant_along journalStep_inv events inv_empty hsafe
  have hscanned := hinv.owed_scanned frame hframe
  refine ⟨hscanned, fun io hok => ?_⟩
  rw [scanJournal_ok hok]
  exact ⟨hscanned, replayPlan_offers (scanFrom_frames 0 s.file (Nat.zero_le _)).1 hscanned⟩

/-- Three bytes of a frame are left in front of the next one, which is found. -/
theorem journal_keeps_frame_behind_three_bytes :
    ∃ frame, buildFrame (bareSnapshot 7 2 []) 0 1 = some frame ∧
      frame ∈ (scanFrom 0 (run (journalStep playerSaveJournalMaxBytes) {}
        (tornThenWhole (bareSnapshot 7 1 []) (bareSnapshot 7 2 []) 3)).file).frames := by
  have htorn : encodedLength (bareSnapshot 7 1 []) = some 177 := by decide +kernel
  have hwhole : encodedLength (bareSnapshot 7 2 []) = some 177 := by decide +kernel
  obtain ⟨first, hfirst, hlen⟩ := buildFrame_of_encodedLength htorn 0 0
  obtain ⟨second, hsecond, hlen'⟩ := buildFrame_of_encodedLength hwhole 0 1
  simp only [journalHeaderSize] at hlen hlen'
  refine ⟨second, hsecond, ?_⟩
  have hsafe : Along (journalStep playerSaveJournalMaxBytes)
      (AppendSafe playerSaveJournalMaxBytes) {}
      (tornThenWhole (bareSnapshot 7 1 []) (bareSnapshot 7 2 []) 3) := by
    refine ⟨trivial, ?_, ?_, trivial⟩
    · intro frame hframe hwrites
      cases hfirst.symm.trans hframe
      have hshort : first.bytes.length ≤ 3 := hwrites.2.2.2.2
      omega
    · intro frame hframe _
      cases hsecond.symm.trans hframe
      have hstate : journalStep playerSaveJournalMaxBytes
          (journalStep playerSaveJournalMaxBytes {} (.init ⟨true, true⟩ .done))
          (.append (bareSnapshot 7 1 []) 0 0 ⟨true, 3, true⟩) =
            { file := first.bytes.take 3, initialized := true } := by
        have hquota : first.bytes.length ≤ playerSaveJournalMaxBytes := by
          simp only [playerSaveJournalMaxBytes]; omega
        simp only [journalStep, init_empty]
        rw [torn_append hfirst (by omega) hquota]
      rw [hstate]
      refine ⟨(by decide : 0 < playerSaveJournalMaxRecords),
        clean_of_three (buildFrame_valid hfirst).1 (buildFrame_valid hsecond).1⟩
  have howed : second ∈ (run (journalStep playerSaveJournalMaxBytes) {}
      (tornThenWhole (bareSnapshot 7 1 []) (bareSnapshot 7 2 []) 3)).owed := by
    rw [run_tornThenWhole hfirst hsecond (by omega)
      (by simp only [playerSaveJournalMaxBytes]; omega)
      (by simp only [playerSaveJournalMaxBytes]; omega)
      (by simp only [journalMaxRecordSize, journalHeaderSize, playerSnapshotMaxBytes]; omega)]
    simp
  exact (journal_keeps_appended_frames playerSaveJournalMaxBytes _ hsafe second howed).1

/-- A frame torn right behind its header takes a shorter one behind it along: the
header claims more bytes than are left, and the scanner gives up the rest. -/
theorem scan_tornThenWhole (hfirst : buildFrame torn 0 0 = some first)
    (hlong : 72 + second.bytes.length < first.bytes.length) :
    (scanFrom 0 (first.bytes.take 72 ++ second.bytes)).frames = [] := by
  have hvalid := (buildFrame_valid hfirst).1
  have hlen : (first.bytes.take 72).length = 72 := by rw [List.length_take]; omega
  have htake : (first.bytes.take 72 ++ second.bytes).take 72 = first.bytes.take 72 :=
    List.take_left' hlen
  have hheader := (looksLikeHeader_of_take_eq htake).trans hvalid.header
  simp only [looksLikeHeader, Bool.and_eq_true] at hheader
  have hsize : recordSize (first.bytes.take 72 ++ second.bytes) = first.bytes.length :=
    (recordSize_of_take_eq htake).trans hvalid.size
  have hne : first.bytes.take 72 ++ second.bytes ≠ [] := by
    intro h
    rw [List.append_eq_nil_iff] at h
    rw [h.1] at hlen
    cases hlen
  rw [scanFrom, dif_neg (by simp [hne, playerSaveJournalMaxRecords]),
    if_neg (by simp [hheader.1]), dif_neg (by simp [hheader.2]),
    if_pos (by rw [hsize, List.length_append, hlen]; exact hlong)]

/-- Not every frame an append answered ok for is found again: an append of player 7
fails behind its header, the next one succeeds, and the scan returns nothing. -/
theorem torn_frame_hides_next :
    ¬ ∀ events : List JournalEvent,
      let s := run (journalStep playerSaveJournalMaxBytes) {} events
      ∀ frame ∈ s.owed, frame ∈ (scanFrom 0 s.file).frames := by
  intro h
  have htorn : encodedLength (bareSnapshot 7 1 (List.replicate 400 0)) = some 577 := by
    decide +kernel
  have hwhole : encodedLength (bareSnapshot 7 2 []) = some 177 := by decide +kernel
  obtain ⟨first, hfirst, hlen⟩ := buildFrame_of_encodedLength htorn 0 0
  obtain ⟨second, hsecond, hlen'⟩ := buildFrame_of_encodedLength hwhole 0 1
  have hlost := h (tornThenWhole (bareSnapshot 7 1 (List.replicate 400 0))
    (bareSnapshot 7 2 []) 72)
  simp only [journalHeaderSize] at hlen hlen'
  rw [run_tornThenWhole hfirst hsecond (by omega)
    (by simp only [playerSaveJournalMaxBytes]; omega)
    (by simp only [playerSaveJournalMaxBytes]; omega)
    (by simp only [journalMaxRecordSize, journalHeaderSize, playerSnapshotMaxBytes]; omega)]
    at hlost
  have hmem := hlost second (by simp)
  rw [scan_tornThenWhole hfirst (by omega)] at hmem
  cases hmem

end Duris.Player
