import Duris.Player.SaveJournal

/-!
# The critical command journal

`src/persistence/critical_command_journal.{h,c}`: the file of accepted commands
that are not yet known to be applied. `append` adds a frame, `checkpoint` rewrites
the file without one operation, `sync` makes an uncertain append certain by looking,
and every call that looks reads the whole file.

The journal is one directory's: the file outlives the process, the rest is the
process's own. What the file system does is in the event: whether a read works, how
an append ends (done, rolled back, or with some of the frame left behind), and how
far a rewrite gets. Ages, which nothing decides on, are left out. The `crc32` of
zlib is `payloadChecksum`.
-/

namespace Duris.Persistence.CommandJournal

open Player (payloadChecksum)

/-- `JOURNAL_MAGIC`, the letters `CCJ1`. -/
def journalMagic : Bytes := [67, 67, 74, 49]

def journalVersion : BitVec 32 := 1
def journalHeaderSize : Nat := 40
def criticalCommandJournalMaxRecords : Nat := 4096

structure JournalFrame where
  operationId : CriticalOperationId
  command : CriticalCommand
  bytes : Bytes
  deriving DecidableEq

inductive JournalResult where
  | ok
  | notInitialized
  | invalid
  | ioFailure
  | unsafePermissions
  | quotaExceeded
  | corruptData
  | replayBlocked
  | appendUncertain
  deriving DecidableEq

structure JournalHealth where
  records : Nat := 0
  bytes : Nat := 0
  appends : Nat := 0
  checkpoints : Nat := 0
  replays : Nat := 0
  duplicates : Nat := 0
  corruptRecords : Nat := 0
  ioFailures : Nat := 0
  lastResult : JournalResult := .ok
  quotaExceeded : Bool := false
  appendUncertain : Bool := false
  initialized : Bool := false
  deriving DecidableEq

structure Journal where
  file : Bytes := []
  quota : Nat := 0
  health : JournalHealth := {}

/-! ## Frames -/

def frameBytes (operationId : CriticalOperationId) (payload : Bytes) : Bytes :=
  journalMagic ++ appendLe journalVersion ++
    appendLe (BitVec.ofNat 64 (journalHeaderSize + payload.length)) ++
    appendLe (BitVec.ofNat 32 payload.length) ++ appendLe (payloadChecksum payload) ++
    operationId.bytes ++ payload

def buildFrame (command : CriticalCommand) : Option JournalFrame :=
  match criticalCommandEncode command with
  | .error _ => none
  | .ok payload =>
      some
        { operationId := command.operationId
          command
          bytes := frameBytes command.operationId payload }

open Reader

def decodePayload (operationId : CriticalOperationId) (checksum : BitVec 32) (payload : Bytes) :
    Reader JournalResult CriticalCommand :=
  fun input =>
    if payloadChecksum payload ≠ checksum then .error .corruptData
    else
      match criticalCommandDecode payload with
      | .error _ => .error .corruptData
      | .ok command =>
          if command.operationId = operationId then .ok (command, input) else .error .corruptData

/-- One record. Whatever is wrong with it, the answer is the same. -/
def decodeRecord : Reader JournalResult CriticalCommand := do
  let magic ← raw .corruptData 4
  require (magic.1 = journalMagic) .corruptData
  let version ← field .corruptData 32
  let recordSize ← field .corruptData 64
  let payloadSize ← field .corruptData 32
  let checksum ← field .corruptData 32
  require (version = journalVersion) .corruptData
  require (recordSize.toNat = journalHeaderSize + payloadSize.toNat) .corruptData
  let operationId ← raw .corruptData 16
  let payload ← raw .corruptData payloadSize.toNat
  decodePayload (.ofRaw operationId) checksum payload.1

theorem decodePayload_rest {operationId : CriticalOperationId} {checksum : BitVec 32}
    {payload input rest : Bytes} {command : CriticalCommand}
    (h : decodePayload operationId checksum payload input = .ok (command, rest)) :
    rest = input := by
  simp only [decodePayload] at h
  split at h
  · cases h
  · split at h
    · cases h
    · split at h
      · cases h
        rfl
      · cases h

theorem decodeRecord_shorter {data rest : Bytes} {command : CriticalCommand}
    (h : decodeRecord data = .ok (command, rest)) : rest.length < data.length := by
  simp only [decodeRecord, bind_eq_ok, require_eq_ok, raw_eq_ok, field_eq_ok] at h
  obtain ⟨magic, _, rfl, _, _, ⟨-, rfl⟩, _, _, rfl, _, _, rfl, _, _, rfl, _, _, rfl, _, _, ⟨-, rfl⟩,
    _, _, ⟨-, rfl⟩, _, _, rfl, _, _, rfl, hpayload⟩ := h
  rw [decodePayload_rest hpayload]
  simp only [List.length_append, magic.2]
  omega

def JournalFrame.payload (frame : JournalFrame) : Bytes := frame.bytes.drop journalHeaderSize

/-! ## Scanning -/

structure Scan where
  result : JournalResult
  frames : List JournalFrame := []
  duplicates : Nat := 0

/-- The loop of `scan`, on what is left of the file. What it has `seen` is what it
has put into `frames`. -/
def scanFrom (frames : List JournalFrame) (duplicates : Nat) (data : Bytes) : Scan :=
  if data = [] then ⟨.ok, frames, duplicates⟩
  else if criticalCommandJournalMaxRecords ≤ frames.length then ⟨.corruptData, frames, duplicates⟩
  else
    match _h : decodeRecord data with
    | .error _ => ⟨.corruptData, frames, duplicates⟩
    | .ok (command, rest) =>
        let frame : JournalFrame :=
          { operationId := command.operationId
            command
            bytes := data.take (data.length - rest.length) }
        match frames.find? (·.operationId == frame.operationId) with
        | some prior =>
            if prior.payload ≠ frame.payload then ⟨.corruptData, frames, duplicates⟩
            else scanFrom frames (duplicates + 1) rest
        | none => scanFrom (frames ++ [frame]) duplicates rest
termination_by data.length
decreasing_by
  · exact decodeRecord_shorter _h
  · exact decodeRecord_shorter _h

inductive ReadIo where
  | done
  | unsafePermissions
  | failed
  | noMemory
  deriving DecidableEq

def scan (quota : Nat) (file : Bytes) : ReadIo → Scan
  | .unsafePermissions => { result := .unsafePermissions }
  | .failed => { result := .ioFailure }
  | .noMemory => { result := .quotaExceeded }
  | .done => if quota < file.length then { result := .quotaExceeded } else scanFrom [] 0 file

/-! ## Health -/

def recordResult (health : JournalHealth) (result : JournalResult) : JournalHealth :=
  match result with
  | .corruptData =>
      { health with lastResult := result, corruptRecords := health.corruptRecords + 1 }
  | .ioFailure | .appendUncertain =>
      { health with lastResult := result, ioFailures := health.ioFailures + 1 }
  | .quotaExceeded => { health with lastResult := result, quotaExceeded := true }
  | _ => { health with lastResult := result }

def frameBytesTotal (frames : List JournalFrame) : Nat :=
  frames.foldl (fun total frame => total + frame.bytes.length) 0

def updateHealth (quota : Nat) (health : JournalHealth) (frames : List JournalFrame) :
    JournalHealth :=
  { health with
    records := frames.length
    bytes := frameBytesTotal frames
    quotaExceeded := decide (quota ≤ frameBytesTotal frames) }

def JournalHealth.scanned (health : JournalHealth) (found : Scan) : JournalHealth :=
  { health with duplicates := health.duplicates + found.duplicates }

def Journal.refuse (s : Journal) (result : JournalResult) : JournalResult × Journal :=
  (result, { s with health := recordResult s.health result })

/-! ## The calls -/

/-- How far `init` gets before it scans. -/
inductive InitIo where
  | mkdirFailed
  | unsafeDirectory
  | openFailed
  | unsafeFile
  | ready (read : ReadIo)
  deriving DecidableEq

def criticalCommandJournalInit (s : Journal) (quota : Nat) (io : InitIo) : Bool × Journal :=
  if quota = 0 ∨ s.health.initialized = true then (false, s)
  else
    match io with
    | .mkdirFailed => (false, { s with health := { lastResult := .ioFailure, ioFailures := 1 } })
    | .unsafeDirectory => (false, { s with health := { lastResult := .unsafePermissions } })
    | .openFailed =>
        (false, { s with quota, health := { lastResult := .ioFailure, ioFailures := 1 } })
    | .unsafeFile => (false, { s with quota, health := { lastResult := .unsafePermissions } })
    | .ready read =>
        let found := scan quota s.file read
        if found.result ≠ .ok then
          (false, { s with
            quota, health := recordResult (({} : JournalHealth).scanned found) found.result })
        else
          (true, { s with
            quota
            health := updateHealth quota (({ initialized := true } : JournalHealth).scanned found)
              found.frames })

def criticalCommandJournalShutdown (s : Journal) : Journal :=
  { s with quota := 0, health := { s.health with initialized := false } }

/-- How an append ends. A failed one is rolled back, or the rollback fails too and
the first `left` bytes of the frame stay. -/
inductive AppendIo where
  | notOpened
  | done
  | rolledBack
  | uncertain (left : Nat)
  deriving DecidableEq

def appendFrame (s : Journal) (frame : JournalFrame) (io : AppendIo) : JournalResult × Journal :=
  if criticalCommandJournalMaxRecords ≤ s.health.records then s.refuse .quotaExceeded
  else if io = .notOpened then s.refuse .ioFailure
  else if s.quota < frame.bytes.length ∨ s.quota - frame.bytes.length < s.file.length then
    s.refuse .quotaExceeded
  else
    match io with
    | .notOpened | .rolledBack => s.refuse .ioFailure
    | .uncertain left =>
        (.appendUncertain, { s with
          file := s.file ++ frame.bytes.take left
          health := recordResult { s.health with appendUncertain := true } .appendUncertain })
    | .done =>
        (.ok, { s with
          file := s.file ++ frame.bytes
          health := { s.health with
            appends := s.health.appends + 1
            records := s.health.records + 1
            bytes := s.health.bytes + frame.bytes.length
            lastResult := .ok } })

def criticalCommandJournalAppend (s : Journal) (command : CriticalCommand) (io : AppendIo) :
    JournalResult × Journal :=
  if s.health.initialized = false then (.notInitialized, s)
  else if s.health.appendUncertain then
    (.appendUncertain, { s with health := { s.health with lastResult := .appendUncertain } })
  else
    match buildFrame command with
    | none => s.refuse .invalid
    | some frame => appendFrame s frame io

def criticalCommandJournalSync (s : Journal) (synced : Bool) (read : ReadIo) :
    JournalResult × Journal :=
  if s.health.initialized = false then (.notInitialized, s)
  else if synced = false then s.refuse .ioFailure
  else
    let found := scan s.quota s.file read
    if found.result ≠ .ok then
      ({ s with health := s.health.scanned found } : Journal).refuse found.result
    else
      (.ok, { s with
        health := { updateHealth s.quota (s.health.scanned found) found.frames with
          appendUncertain := false
          lastResult := .ok } })

/-- How far `rewrite` gets: nothing renamed, renamed but the directory not synced,
or done. -/
inductive RewriteIo where
  | failed
  | renamed
  | done
  deriving DecidableEq

def rewritten (frames : List JournalFrame) : Bytes := frames.flatMap (·.bytes)

/-- `rewrite`, and the file it leaves. -/
def rewrite (file : Bytes) (frames : List JournalFrame) : RewriteIo → JournalResult × Bytes
  | .failed => (.ioFailure, file)
  | .renamed => (.ioFailure, rewritten frames)
  | .done => (.ok, rewritten frames)

def checkpointFound (s : Journal) (frames : List JournalFrame) (io : RewriteIo) :
    JournalResult × Journal :=
  match rewrite s.file frames io with
  | (.ok, file) =>
      (.ok, { s with
        file
        health := { updateHealth s.quota
            { s.health with checkpoints := s.health.checkpoints + 1 } frames with
          lastResult := .ok } })
  | (result, file) => ({ s with file } : Journal).refuse result

def criticalCommandJournalCheckpoint (s : Journal) (operationId : CriticalOperationId)
    (read : ReadIo) (io : RewriteIo) : JournalResult × Journal :=
  if s.health.initialized = false then (.notInitialized, s)
  else if criticalOperationIdIsZero operationId then (.invalid, s)
  else
    let found := scan s.quota s.file read
    if found.result ≠ .ok then
      ({ s with health := s.health.scanned found } : Journal).refuse found.result
    else
      checkpointFound { s with health := s.health.scanned found }
        (found.frames.filter fun frame => !(frame.operationId == operationId)) io

/-- `critical_command_journal_replay`, with what its callback answers. -/
def criticalCommandJournalReplay (s : Journal) (replay : CriticalCommand → Bool) (read : ReadIo) :
    JournalResult × Journal :=
  if s.health.initialized = false then (.notInitialized, s)
  else
    let found := scan s.quota s.file read
    if found.result ≠ .ok then
      ({ s with health := s.health.scanned found } : Journal).refuse found.result
    else
      let result :=
        if found.frames.all (fun frame => replay frame.command) then .ok else .replayBlocked
      (result, { s with
        health := { s.health.scanned found with
          replays := s.health.replays + 1
          lastResult := result } })

/-! ## Runs -/

inductive Event where
  | init (quota : Nat) (io : InitIo)
  | shutdown
  | append (command : CriticalCommand) (io : AppendIo)
  | sync (synced : Bool) (read : ReadIo)
  | checkpoint (operationId : CriticalOperationId) (read : ReadIo) (io : RewriteIo)
  | replay (replay : CriticalCommand → Bool) (read : ReadIo)

def step (s : Journal) : Event → Journal
  | .init quota io => (criticalCommandJournalInit s quota io).2
  | .shutdown => criticalCommandJournalShutdown s
  | .append command io => (criticalCommandJournalAppend s command io).2
  | .sync synced read => (criticalCommandJournalSync s synced read).2
  | .checkpoint operationId read io => (criticalCommandJournalCheckpoint s operationId read io).2
  | .replay replay read => (criticalCommandJournalReplay s replay read).2

def answersOk (s : Journal) : Event → Bool
  | .init quota io => (criticalCommandJournalInit s quota io).1
  | .shutdown => false
  | .append command io => decide ((criticalCommandJournalAppend s command io).1 = .ok)
  | .sync synced read => decide ((criticalCommandJournalSync s synced read).1 = .ok)
  | .checkpoint operationId read io =>
      decide ((criticalCommandJournalCheckpoint s operationId read io).1 = .ok)
  | .replay replay read => decide ((criticalCommandJournalReplay s replay read).1 = .ok)

end Duris.Persistence.CommandJournal
