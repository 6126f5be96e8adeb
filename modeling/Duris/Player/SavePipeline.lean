import Mathlib.Data.Set.Insert
import Duris.Player.SaveJournal
import Duris.Player.SaveWorker

/-!
# The save pipeline

`src/player/player_save_pipeline.c`: the game thread enqueues sealed snapshots, a
dispatcher thread appends them to the journal, and the game thread's pulse hands the
journaled ones to the writer and consumes its completions.

A step is what one thread does under one hold of `pipeline_mutex` (or of the
journal's, or of the worker's); the dispatcher's place in `dispatcher_main`, with the
snapshot or the replay plan it holds there, is `Dispatcher`. A write attempt of a
player's job ends together with the checkpoint behind it. A pulse is one step: all
it reads and writes belongs to the game thread, but for the worker's queue and
completions, and what the writer does to these in between does not change whom they
name. What the pipeline does not decide is in the event: the snapshot a capture
yields, how the database answers, who is in the game (`live`), and which players an
offline command fences (`targetFenced`). Clocks, counters and the terminal fences, on
which no snapshot's way depends, are left out.

`unapplied` is not in the source: the deaths answered queued or coalesced whose own
application has not succeeded.
-/

namespace Duris.Player

def playerSavePipelineMaxSnapshots : Nat := 256
def playerSavePipelineMaxBytes : Nat := 32 * 1024 * 1024
def playerSavePipelinePulseBudget : Nat := 32

/-- `player_save_pipeline_result`, as far as `enqueue_snapshot` uses it. -/
inductive PipelineResult where
  | queued
  | coalesced
  | captureFailed
  | overloaded
  | unavailable
  deriving DecidableEq

/-- Where the dispatcher thread is in `dispatcher_main`. -/
inductive Dispatcher where
  | gone
  | starting
  | replaying (plan : List JournalFrame) (acknowledged : List (Pid × Revision))
  | waiting
  | appending (snapshot : PlayerSnapshot)
  | appended (snapshot : PlayerSnapshot) (result : JournalResult)

def Dispatcher.inflight : Dispatcher → Option PlayerSnapshot
  | .appending snapshot | .appended snapshot _ => some snapshot
  | _ => none

def PlayerSnapshot.size (snapshot : PlayerSnapshot) : Nat := snapshot.encodedSizeBound.toNat

/-- An application that counts as the snapshot's own: a stale answer says that some
later save was applied. -/
def ApplyOutcome.own : ApplyOutcome → Bool
  | .applied | .alreadyApplied => true
  | _ => false

structure Pipeline where
  pendingAppend : List PlayerSnapshot := []
  durableReady : List PlayerSnapshot := []
  dispatcher : Dispatcher := .gone
  retainedBytes : Nat := 0
  starting : Bool := false
  initialized : Bool := false
  stopRequested : Bool := false
  targetFenced : Pid → Bool := fun _ => false
  live : Pid → Bool := fun _ => false
  worker : Worker := {}
  journal : JournalState := {}
  revisions : RevisionStates := ∅
  unapplied : Set PlayerSnapshot := ∅

namespace Pipeline

/-! ## Admission -/

/-- `queued = std::move(snapshot)`, at the first queued snapshot of the player. -/
def overwriteFirst (snapshot : PlayerSnapshot) : List PlayerSnapshot → List PlayerSnapshot
  | [] => []
  | queued :: rest =>
      if queued.pid = snapshot.pid then snapshot :: rest
      else queued :: overwriteFirst snapshot rest

def firstPending (s : Pipeline) (pid : Pid) : Option PlayerSnapshot :=
  s.pendingAppend.find? fun queued => queued.pid = pid

def admitDeath (s : Pipeline) (snapshot : PlayerSnapshot) : Set PlayerSnapshot :=
  if snapshot.death.isSome then insert snapshot s.unapplied else s.unapplied

def enqueueSnapshot (s : Pipeline) (snapshot : PlayerSnapshot) (allocates : Bool) :
    PipelineResult × Pipeline :=
  if s.initialized = false ∨ s.stopRequested = true ∨ s.targetFenced snapshot.pid = true then
    (.unavailable, s)
  else
    match s.firstPending snapshot.pid with
    | some queued =>
        if snapshot.revision ≤ queued.revision then
          (.coalesced, { s with unapplied := s.admitDeath snapshot })
        else if snapshot.components &&& queued.components ≠ queued.components then
          (.captureFailed, s)
        else if playerSavePipelineMaxBytes - (s.retainedBytes - queued.size) < snapshot.size then
          (.overloaded, s)
        else
          (.coalesced, { s with
            retainedBytes := s.retainedBytes - queued.size + snapshot.size
            pendingAppend := overwriteFirst snapshot s.pendingAppend
            unapplied := s.admitDeath snapshot })
    | none =>
        if playerSavePipelineMaxSnapshots ≤ s.pendingAppend.length + s.durableReady.length ∨
            playerSavePipelineMaxBytes - s.retainedBytes < snapshot.size ∨
            allocates = false then (.overloaded, s)
        else
          (.queued, { s with
            retainedBytes := s.retainedBytes + snapshot.size
            pendingAppend := s.pendingAppend ++ [snapshot]
            unapplied := s.admitDeath snapshot })

/-- `player_save_pipeline_checkpoint_dirty` and `player_save_pipeline_terminal_death`,
once they hold a snapshot: both refuse a character without a positive id. -/
def submitCapture (s : Pipeline) (snapshot : PlayerSnapshot) (allocates : Bool) : Pipeline :=
  if Pid.valid snapshot.pid then (s.enqueueSnapshot snapshot allocates).2 else s

/-! ## The dispatcher -/

structure CheckpointIo where
  scan : ScanIo
  compaction : Compaction

def checkpoint (s : Pipeline) (pid : Pid) (durable : Revision) (io : CheckpointIo) :
    JournalResult × JournalState :=
  playerSaveJournalCheckpoint playerSaveJournalMaxBytes s.journal pid durable io.scan
    io.compaction

/-- The scan of `player_save_journal_replay`; without a database the replay is
skipped. -/
def replayScan (s : Pipeline) (mysqlReady : Bool) (io : ScanIo) : Pipeline :=
  match s.dispatcher with
  | .starting =>
      let scanned := scanJournal playerSaveJournalMaxBytes s.journal io
      if mysqlReady = false ∨ s.journal.initialized = false ∨ scanned.2 ≠ .ok then
        { s with dispatcher := .waiting }
      else { s with dispatcher := .replaying (replayPlan scanned.1.frames) [] }
  | _ => s

/-- `acknowledged[pid] = std::max(acknowledged[pid], durable)`. The plan is sorted by
player, so new entries come in the order of the map. -/
def acknowledgeReplayed (acknowledged : List (Pid × Revision)) (pid : Pid)
    (durable : Revision) : List (Pid × Revision) :=
  if acknowledged.any (·.1 = pid) then
    acknowledged.map fun entry =>
      if entry.1 = pid ∧ entry.2 < durable then (pid, durable) else entry
  else acknowledged ++ [(pid, durable)]

/-- `unapplied` once `snapshot` was applied with this result. -/
def released (s : Pipeline) (snapshot : PlayerSnapshot) (result : ApplyResult) :
    Set PlayerSnapshot :=
  if result.outcome.own then s.unapplied \ {snapshot} else s.unapplied

/-- One frame of the replay; `none` is a throw of `apply`. -/
def replayApply (s : Pipeline) (result : Option ApplyResult) (io : CheckpointIo) : Pipeline :=
  match s.dispatcher, result with
  | .replaying (frame :: plan) acknowledged, some result =>
      let unapplied := s.released frame.snapshot result
      if result.outcome.succeeded = false then { s with dispatcher := .waiting, unapplied }
      else if frame.snapshot.death.isSome = true ∧ (result.outcome = .staleRevision ∨
          result.durableRevision < frame.snapshot.revision) then
        { s with dispatcher := .waiting, unapplied }
      else
        let rest := Dispatcher.replaying plan
          (acknowledgeReplayed acknowledged frame.snapshot.pid result.durableRevision)
        if frame.snapshot.death.isSome then
          let released := s.checkpoint frame.snapshot.pid frame.snapshot.revision io
          { s with
            dispatcher := if released.1 = .ok then rest else .waiting
            journal := released.2
            unapplied }
        else { s with dispatcher := rest, unapplied }
  | .replaying (_ :: _) _, none => { s with dispatcher := .waiting }
  | _, _ => s

def replayRelease (s : Pipeline) (io : CheckpointIo) : Pipeline :=
  match s.dispatcher with
  | .replaying [] [] => { s with dispatcher := .waiting }
  | .replaying [] ((pid, durable) :: rest) =>
      if durable = 0 then { s with dispatcher := .replaying [] rest }
      else
        let released := s.checkpoint pid durable io
        { s with
          dispatcher := if released.1 = .ok then .replaying [] rest else .waiting
          journal := released.2 }
  | _ => s

def dispatcherTake (s : Pipeline) : Pipeline :=
  match s.dispatcher, s.pendingAppend with
  | .waiting, snapshot :: rest =>
      { s with pendingAppend := rest, dispatcher := .appending snapshot }
  | .waiting, [] => if s.stopRequested then { s with dispatcher := .gone } else s
  | _, _ => s

def dispatcherAppend (s : Pipeline) (createdMsec sequence : BitVec 64) (io : AppendIo) :
    Pipeline :=
  match s.dispatcher with
  | .appending snapshot =>
      let appended := playerSaveJournalAppend playerSaveJournalMaxBytes s.journal snapshot
        createdMsec sequence io
      { s with journal := appended.2, dispatcher := .appended snapshot appended.1 }
  | _ => s

/-- The append is settled: on to the pulse, or back to the front. -/
def dispatcherSettle (s : Pipeline) (allocates : Bool) : Pipeline :=
  match s.dispatcher with
  | .appended snapshot result =>
      if allocates = false then
        { s with dispatcher := .waiting, retainedBytes := s.retainedBytes - snapshot.size }
      else if result = .ok then
        { s with dispatcher := .waiting, durableReady := s.durableReady ++ [snapshot] }
      else { s with dispatcher := .waiting, pendingAppend := snapshot :: s.pendingAppend }
  | _ => s

/-! ## The writer's job -/

def eio : Nat := 5

/-- `durable_revision ? durable_revision : revision`. -/
def durableOf (snapshot : PlayerSnapshot) (result : ApplyResult) : Revision :=
  if result.durableRevision ≠ 0 then result.durableRevision else snapshot.revision

/-- The end of `write_job`, with the database's answer. -/
def attemptEnd (s : Pipeline) (result : ApplyResult) (io : CheckpointIo) : Pipeline :=
  match s.worker.phase, s.worker.inflight with
  | .attempting _, some job =>
      match job.kind, job.snapshot with
      | .player, some snapshot =>
          let unapplied := s.released snapshot result
          if result.outcome.succeeded then
            let acknowledged := s.checkpoint snapshot.pid (durableOf snapshot result) io
            let result := if acknowledged.1 = .ok then result else ⟨.retryableFailure, 0, eio⟩
            { s with
              journal := acknowledged.2
              worker := s.worker.attemptEnd result
              unapplied }
          else { s with worker := s.worker.attemptEnd result, unapplied }
      | _, _ => { s with worker := s.worker.attemptEnd result }
  | _, _ => s

/-! ## The game thread -/

def acknowledgeCompletion (revisions : RevisionStates) (completion : Completion) :
    RevisionStates :=
  if completion.kind = .player ∧ completion.outcome.succeeded = true ∧
      completion.revision ≤ completion.durableRevision then
    (playerRevisionAcknowledgeDurable revisions completion.pid completion.revision
      completion.components).2
  else revisions

def retireEndedPlayer (s : Pipeline) (pid : Pid) : Pipeline :=
  match s.revisions.lookup pid with
  | none => s
  | some entry =>
      if entry.sessionEnded = true ∧ s.live pid = false ∧ s.worker.pidPending pid = false then
        { s with revisions := playerRevisionForget s.revisions pid }
      else s

/-- The submissions of a pulse; `allocates` is whether each queue node could be had. -/
def submitReady : Nat → List Bool → Pipeline → Pipeline
  | 0, _, s => s
  | budget + 1, allocates, s =>
      match s.durableReady with
      | [] => s
      | snapshot :: rest =>
          match s.worker.submitRetained snapshot (allocates.headD true) with
          | (.workerUnavailable, _) | (.capacityExceeded, _) => s
          | (_, worker) =>
              submitReady budget allocates.tail { s with
                worker
                durableReady := rest
                retainedBytes := s.retainedBytes - snapshot.size }

/-- `player_save_pipeline_pulse`. The recapture after a custody mismatch is left out: a
deferred save, or, when no deferred slot is free, a synchronous one within the pulse. -/
def pulse (s : Pipeline) (allocates : List Bool) : Pipeline :=
  let consumed := s.worker.pulse playerSavePipelinePulseBudget
  let acknowledged := { s with
    worker := consumed.2
    revisions := consumed.1.foldl acknowledgeCompletion s.revisions }
  let retired := consumed.1.foldl (fun s completion => s.retireEndedPlayer completion.pid)
    acknowledged
  submitReady playerSavePipelinePulseBudget allocates retired

def loadHeld (s : Pipeline) (pid : Pid) : Bool := Pid.valid pid && s.worker.pidPending pid

def endSession (s : Pipeline) (pid : Pid) : Pipeline :=
  if Pid.valid pid = false ∨ s.live pid = true then s
  else retireEndedPlayer { s with revisions := playerRevisionEndSession s.revisions pid } pid

/-! ## Start and stop -/

/-- `player_save_pipeline_init` as far as the worker's start. -/
def initBegin (s : Pipeline) (io : CheckpointIo) (starts : Bool) : Pipeline :=
  if s.initialized = true ∨ s.starting = true then s
  else
    let journal := playerSaveJournalInit playerSaveJournalMaxBytes s.journal io.scan io.compaction
    let worker := s.worker.init starts
    if journal.1 = false then { s with journal := journal.2 }
    else if worker.1 = false then
      { s with journal := playerSaveJournalShutdown journal.2, worker := worker.2 }
    else { s with journal := journal.2, worker := worker.2, starting := true }

/-- The rest of it: the hooks, which want an idle worker, and the dispatcher. -/
def initFinish (s : Pipeline) (starts : Bool) : Pipeline :=
  if s.starting = false then s
  else if s.worker.queue ≠ [] ∨ s.worker.inflight.isSome = true ∨ starts = false then
    { s with
      starting := false
      worker := s.worker.shutdownBegin
      journal := playerSaveJournalShutdown s.journal }
  else
    { s with
      starting := false
      initialized := true
      stopRequested := false
      dispatcher := .starting }

def shutdownStop (s : Pipeline) : Pipeline := { s with stopRequested := true }

/-- The end of `player_save_pipeline_shutdown`, behind the join of the dispatcher and
the worker's own shutdown. -/
def shutdownFinish (s : Pipeline) : Pipeline :=
  match s.dispatcher with
  | .gone =>
      if s.stopRequested = true ∧ s.worker.running = false then
        { s with
          journal := playerSaveJournalShutdown s.journal
          pendingAppend := []
          durableReady := []
          targetFenced := fun _ => false
          retainedBytes := 0
          initialized := false }
      else s
  | _ => s

/-! ## Runs -/

inductive Event where
  | initBegin (io : CheckpointIo) (starts : Bool)
  | initFinish (starts : Bool)
  | replayScan (mysqlReady : Bool) (io : ScanIo)
  | replayApply (result : Option ApplyResult) (io : CheckpointIo)
  | replayRelease (io : CheckpointIo)
  | capture (snapshot : PlayerSnapshot) (allocates : Bool)
  | dispatcherTake
  | dispatcherAppend (createdMsec sequence : BitVec 64) (io : AppendIo)
  | dispatcherSettle (allocates : Bool)
  | attemptEnd (result : ApplyResult) (io : CheckpointIo)
  | worker (e : Worker.Event)
  | pulse (allocates : List Bool)
  | revision (op : RevisionOp)
  | endSession (pid : Pid)
  | live (pid : Pid) (present : Bool)
  | targetFence (pid : Pid) (held : Bool)
  | shutdownStop
  | shutdownFinish

/-- What the writer and the other subsystems do to the worker by themselves; the rest
goes through the pipeline. -/
def ownWorkerEvent : Worker.Event → Bool
  | .init _ | .submitRetained _ _ | .attemptEnd _ | .pulse _ => false
  | _ => true

def step (s : Pipeline) : Event → Pipeline
  | .initBegin io starts => s.initBegin io starts
  | .initFinish starts => s.initFinish starts
  | .replayScan mysqlReady io => s.replayScan mysqlReady io
  | .replayApply result io => s.replayApply result io
  | .replayRelease io => s.replayRelease io
  | .capture snapshot allocates => s.submitCapture snapshot allocates
  | .dispatcherTake => s.dispatcherTake
  | .dispatcherAppend createdMsec sequence io => s.dispatcherAppend createdMsec sequence io
  | .dispatcherSettle allocates => s.dispatcherSettle allocates
  | .attemptEnd result io => s.attemptEnd result io
  | .worker e => if ownWorkerEvent e then { s with worker := s.worker.step e } else s
  | .pulse allocates => s.pulse allocates
  | .revision op => { s with revisions := op.apply s.revisions }
  | .endSession pid => s.endSession pid
  | .live pid present => { s with live := Function.update s.live pid present }
  | .targetFence pid held => { s with targetFenced := Function.update s.targetFenced pid held }
  | .shutdownStop => s.shutdownStop
  | .shutdownFinish => s.shutdownFinish

end Pipeline

end Duris.Player
