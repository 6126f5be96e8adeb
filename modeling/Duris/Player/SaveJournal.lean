import Duris.Player.SnapshotCodec

/-!
# The save journal

`src/player/player_save_journal.c`: an append-only file of checksummed frames,
one snapshot each, a scanner that resynchronises on damage, and a checkpoint that
rewrites the file without the frames a durable revision covers.

A file is its bytes, and the scanner works on what is left of it. What the file
system decides is in the event: how much of a frame a failed append wrote, whether
the file could be read, whether the quarantine took the damaged pieces, and how
far a compaction got. Clock and sequence number, which only make a frame's record
id, are inputs of `buildFrame`. Failed allocations are not modelled.
-/

namespace Duris.Player

/-- `JOURNAL_MAGIC`: `DPSJNL1` and a zero byte. -/
def journalMagic : Bytes := [0x44, 0x50, 0x53, 0x4a, 0x4e, 0x4c, 0x31, 0]

def journalFormatVersion : BitVec 32 := 1
def journalHeaderSize : Nat := 72
def journalChecksumOffset : Nat := 68
def journalMaxRecordSize : Nat := journalHeaderSize + playerSnapshotMaxBytes
def playerSaveJournalMaxBytes : Nat := 256 * 1024 * 1024
def playerSaveJournalMaxRecords : Nat := 4096

structure JournalFrame where
  bytes : Bytes
  snapshot : PlayerSnapshot
  recordId : BitVec 64
  createdMsec : BitVec 64
  payloadChecksum : BitVec 32

inductive JournalResult where
  | ok
  | notInitialized
  | encodeFailure
  | ioFailure
  | quotaExceeded
  | corruptData
  | replayBlocked
  deriving DecidableEq

/-- The `n`-bit field at `offset`: `get_u32` and `get_u64`. -/
def getLe (n : Nat) (bytes : Bytes) (offset : Nat) : BitVec n :=
  BitVec.ofNat n (leNat ((bytes.drop offset).take (n / 8)))

/-! ## Checksums -/

def crc32Bit (crc : BitVec 32) : BitVec 32 :=
  (crc >>> 1) ^^^ (if crc &&& 1 = 1 then 0xedb88320 else 0)

def crc32Byte (crc : BitVec 32) (byte : UInt8) : BitVec 32 :=
  Nat.iterate crc32Bit 8 (crc ^^^ BitVec.ofNat 32 byte.toNat)

def crc32Update (crc : BitVec 32) (bytes : Bytes) : BitVec 32 := bytes.foldl crc32Byte crc

def frameChecksum (bytes : Bytes) : BitVec 32 :=
  ~~~crc32Update (crc32Update (BitVec.allOnes 32) (bytes.take journalChecksumOffset))
    (bytes.drop journalHeaderSize)

def payloadChecksum (bytes : Bytes) : BitVec 32 := ~~~crc32Update (BitVec.allOnes 32) bytes

/-! ## Writing a frame -/

/-- The header up to the checksum. -/
def frameHead (snapshot : PlayerSnapshot) (payload : Bytes)
    (recordId createdMsec : BitVec 64) : Bytes :=
  journalMagic ++ appendLe journalFormatVersion ++
    appendLe (BitVec.ofNat 32 journalHeaderSize) ++
    appendLe (BitVec.ofNat 64 (journalHeaderSize + payload.length)) ++
    appendLe recordId ++ appendLe createdMsec ++ appendLe snapshot.pid ++
    appendLe snapshot.schemaVersion ++ appendLe snapshot.revision ++
    appendLe snapshot.components ++ appendLe (BitVec.ofNat 32 payload.length)

/-- The checksum does not cover its own bytes, so any four will do here. -/
def frameBytes (head payload : Bytes) : Bytes :=
  head ++ appendLe (frameChecksum (head ++ appendLe (0 : BitVec 32) ++ payload)) ++ payload

def buildFrame (snapshot : PlayerSnapshot) (createdMsec sequence : BitVec 64) :
    Option JournalFrame :=
  match playerSnapshotEncode snapshot with
  | .error _ => none
  | .ok payload =>
      let recordId := (createdMsec <<< 20) ^^^ sequence ^^^
        (snapshot.pid.zeroExtend 64 <<< 32) ^^^ snapshot.revision
      some
        { bytes := frameBytes (frameHead snapshot payload recordId createdMsec) payload
          snapshot
          recordId
          createdMsec
          payloadChecksum := payloadChecksum payload }

/-! ## Scanning -/

/-- How far to the next magic, or to the end: `find_next_magic`. -/
def findNextMagic : Bytes → Nat
  | [] => 0
  | byte :: bytes =>
      if journalMagic.isPrefixOf (byte :: bytes) then 0 else findNextMagic bytes + 1

def hasMagic (rest : Bytes) : Bool :=
  decide (journalHeaderSize ≤ rest.length) && journalMagic.isPrefixOf rest

def recordSize (rest : Bytes) : Nat := (getLe 64 rest 16).toNat

def sizesPlausible (rest : Bytes) : Bool :=
  getLe 32 rest 12 == BitVec.ofNat 32 journalHeaderSize &&
    decide (journalHeaderSize ≤ recordSize rest) &&
    decide (recordSize rest ≤ journalMaxRecordSize) &&
    decide ((getLe 32 rest 64).toNat = recordSize rest - journalHeaderSize)

/-- The frame a checked header and record stand for, if its payload is the
snapshot the header describes. -/
def frameOf (record : Bytes) : Option JournalFrame :=
  match playerSnapshotDecode (record.drop journalHeaderSize) with
  | .error _ => none
  | .ok snapshot =>
      if snapshot.pid ≠ getLe 32 record 40 ∨
          getLe 32 (record.drop journalHeaderSize) 0 ≠ getLe 32 record 44 ∨
          snapshot.revision ≠ getLe 64 record 48 ∨
          snapshot.components ≠ getLe 64 record 56 then none
      else
        some
          { bytes := record
            snapshot
            recordId := getLe 64 record 24
            createdMsec := getLe 64 record 32
            payloadChecksum := payloadChecksum (record.drop journalHeaderSize) }

/-- The checks on a whole record: version, checksum, payload. -/
def acceptRecord (record : Bytes) : Option JournalFrame :=
  if getLe 32 record 8 ≠ journalFormatVersion then none
  else if getLe 32 record journalChecksumOffset ≠ frameChecksum record then none
  else frameOf record

/-- What a scan finds: the frames, the pieces it quarantines, and what it did not
get to. -/
structure Scan where
  frames : List JournalFrame := []
  quarantined : List Bytes := []
  unread : Bytes := []

def Scan.withFrame (scan : Scan) (frame : JournalFrame) : Scan :=
  { scan with frames := frame :: scan.frames }

def Scan.withPiece (scan : Scan) (piece : Bytes) : Scan :=
  { scan with quarantined := piece :: scan.quarantined }

/-- Past the first byte, to the next magic. -/
def resync (rest : Bytes) : Nat := findNextMagic rest.tail + 1

/-- The loop of `scan_journal`, on what is left of the file and with the number of
frames so far. -/
def scanFrom (count : Nat) (rest : Bytes) : Scan :=
  if _hend : rest = [] ∨ playerSaveJournalMaxRecords ≤ count then { unread := rest }
  else if hasMagic rest = false then
    (scanFrom count (rest.drop (resync rest))).withPiece (rest.take (resync rest))
  else if _hsizes : sizesPlausible rest = false then
    (scanFrom count (rest.drop (resync rest))).withPiece (rest.take (resync rest))
  else if rest.length < recordSize rest then { quarantined := [rest] }
  else
    match acceptRecord (rest.take (recordSize rest)) with
    | none =>
        (scanFrom count (rest.drop (recordSize rest))).withPiece (rest.take (recordSize rest))
    | some frame => (scanFrom (count + 1) (rest.drop (recordSize rest))).withFrame frame
termination_by rest.length
decreasing_by
  all_goals
    simp only [not_or] at _hend
    have hpos : 0 < rest.length := List.length_pos_of_ne_nil _hend.1
  · simp only [List.length_drop, resync]; omega
  · simp only [List.length_drop, resync]; omega
  all_goals
    have hrecord : journalHeaderSize ≤ recordSize rest := by
      simp only [sizesPlausible, Bool.and_eq_false_iff, not_or, Bool.not_eq_false,
        decide_eq_true_eq] at _hsizes
      exact _hsizes.1.1.2
    simp only [List.length_drop, journalHeaderSize] at *
    omega

/-- `scan_journal`'s own result. -/
def scanResult (scan : Scan) (quarantineOk : Bool) : JournalResult :=
  if scan.quarantined ≠ [] ∧ quarantineOk = false then .ioFailure
  else if scan.unread ≠ [] then .replayBlocked
  else .ok

/-! ## The operations -/

/-- The journal of one process. `file` outlives it. The last three fields are not
in the source: where the last complete frame ends, how many complete frames there
are, and the frames whose append answered ok and that no compaction has released. -/
structure JournalState where
  file : Bytes := []
  initialized : Bool := false
  complete : Nat := 0
  records : Nat := 0
  owed : List JournalFrame := []

/-- What failed appends have left behind the last complete frame. -/
def JournalState.tail (s : JournalState) : Bytes := s.file.drop s.complete

/-- How far `write_compacted` got: nothing renamed, renamed but the directory did
not sync, or done. -/
inductive Compaction where
  | failed
  | renamed
  | done
  deriving DecidableEq

structure ScanIo where
  readable : Bool
  quarantineOk : Bool

/-- The file as `write_compacted` leaves it. -/
def compacted (frames : List JournalFrame) : Bytes := frames.flatMap (·.bytes)

/-- The state once the compacted file is in place; `kept` is what stays owed. -/
def JournalState.rewrite (s : JournalState) (frames : List JournalFrame)
    (kept : JournalFrame → Bool) : JournalState :=
  { s with
    file := compacted frames
    complete := (compacted frames).length
    records := frames.length
    owed := s.owed.filter kept }

/-- `scan_journal`: the frames and the result, of a file within the quota. -/
def scanJournal (quota : Nat) (s : JournalState) (io : ScanIo) : Scan × JournalResult :=
  if io.readable = false then ({}, .ioFailure)
  else if quota < s.file.length then ({}, .quotaExceeded)
  else
    let scan := scanFrom 0 s.file
    (scan, scanResult scan io.quarantineOk)

/-- `player_save_journal_init`, from the point where it holds an open file. -/
def playerSaveJournalInit (quota : Nat) (s : JournalState) (io : ScanIo)
    (compaction : Compaction) : Bool × JournalState :=
  if s.initialized then (false, s)
  else
    let scanned := scanJournal quota s io
    if scanned.2 ≠ .ok then (false, s)
    else if scanned.1.quarantined = [] then (true, { s with initialized := true })
    else
      match compaction with
      | .failed => (false, s)
      | .renamed => (false, s.rewrite scanned.1.frames fun _ => true)
      | .done => (true, { s.rewrite scanned.1.frames fun _ => true with initialized := true })

def playerSaveJournalShutdown (s : JournalState) : JournalState :=
  { s with initialized := false }

/-- What the file system did to an append: whether the file opened, how many bytes
of the frame reached it, and whether they were synced. -/
structure AppendIo where
  opened : Bool
  written : Nat
  synced : Bool

def playerSaveJournalAppend (quota : Nat) (s : JournalState) (snapshot : PlayerSnapshot)
    (createdMsec sequence : BitVec 64) (io : AppendIo) : JournalResult × JournalState :=
  if s.initialized = false then (.notInitialized, s)
  else
    match buildFrame snapshot createdMsec sequence with
    | none => (.encodeFailure, s)
    | some frame =>
        if io.opened = false then (.ioFailure, s)
        else if quota < frame.bytes.length ∨ quota - frame.bytes.length < s.file.length then
          (.quotaExceeded, s)
        else
          let file := s.file ++ frame.bytes.take io.written
          if io.written < frame.bytes.length then (.ioFailure, { s with file })
          else
            let whole := { s with file, complete := file.length, records := s.records + 1 }
            if io.synced then (.ok, { whole with owed := s.owed ++ [frame] })
            else (.ioFailure, whole)

/-- A checkpoint keeps a frame of another player, of a later revision, or of a
death at another revision. -/
def retainedAt (pid : Pid) (durable : Revision) (frame : JournalFrame) : Bool :=
  frame.snapshot.pid != pid || decide (durable < frame.snapshot.revision) ||
    (frame.snapshot.death.isSome && frame.snapshot.revision != durable)

def playerSaveJournalCheckpoint (quota : Nat) (s : JournalState) (pid : Pid)
    (durable : Revision) (io : ScanIo) (compaction : Compaction) :
    JournalResult × JournalState :=
  if Pid.valid pid = false ∨ durable = 0 then (.corruptData, s)
  else if s.initialized = false then (.notInitialized, s)
  else
    let scanned := scanJournal quota s io
    if scanned.2 ≠ .ok then (scanned.2, s)
    else
      let retained := scanned.1.frames.filter (retainedAt pid durable)
      match compaction with
      | .failed => (.ioFailure, s)
      | .renamed => (.ioFailure, s.rewrite retained (retainedAt pid durable))
      | .done => (.ok, s.rewrite retained (retainedAt pid durable))

/-! ## Replay -/

/-- What `player_save_journal_replay` tells duplicates by. -/
def identity (frame : JournalFrame) : Pid × Revision × ComponentMask × BitVec 32 :=
  (frame.snapshot.pid, frame.snapshot.revision, frame.snapshot.components,
    frame.payloadChecksum)

/-- The order of replay: player, revision, record id. -/
def replayLe (a b : JournalFrame) : Bool :=
  if a.snapshot.pid ≠ b.snapshot.pid then
    decide (a.snapshot.pid.toInt < b.snapshot.pid.toInt)
  else if a.snapshot.revision ≠ b.snapshot.revision then
    decide (a.snapshot.revision < b.snapshot.revision)
  else decide (a.recordId ≤ b.recordId)

def withoutDuplicates (seen : List (Pid × Revision × ComponentMask × BitVec 32)) :
    List JournalFrame → List JournalFrame
  | [] => []
  | frame :: frames =>
      if identity frame ∈ seen then withoutDuplicates seen frames
      else frame :: withoutDuplicates (identity frame :: seen) frames

/-- The frames a replay offers to `apply`, in order, as long as none is refused. -/
def replayPlan (frames : List JournalFrame) : List JournalFrame :=
  withoutDuplicates [] (frames.mergeSort replayLe)

/-! ## Runs -/

inductive JournalEvent where
  | init (io : ScanIo) (compaction : Compaction)
  | shutdown
  | append (snapshot : PlayerSnapshot) (createdMsec sequence : BitVec 64) (io : AppendIo)
  | checkpoint (pid : Pid) (durable : Revision) (io : ScanIo) (compaction : Compaction)

def journalStep (quota : Nat) (s : JournalState) : JournalEvent → JournalState
  | .init io compaction => (playerSaveJournalInit quota s io compaction).2
  | .shutdown => playerSaveJournalShutdown s
  | .append snapshot createdMsec sequence io =>
      (playerSaveJournalAppend quota s snapshot createdMsec sequence io).2
  | .checkpoint pid durable io compaction =>
      (playerSaveJournalCheckpoint quota s pid durable io compaction).2

end Duris.Player
