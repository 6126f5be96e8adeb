import Mathlib.Data.Fin.Tuple.Basic
import Duris.Player.SavePipeline

/-!
# Terminal saves

`src/player/player_save_pipeline.c`, `begin_terminal_fence`,
`player_save_pipeline_terminal`, `player_save_pipeline_terminal_death` and
`await_terminal_fence`: a save the caller waits for reserves one of 256 slots for its
player and revision, hands a snapshot to the pipeline, and pumps the pipeline until the
slot says that the revision is journaled or applied, or until the deadline.

A call runs on the game thread. What the other threads do meanwhile is in the call: a
list of their steps between the reservation and the capture, and one before and one
behind each pulse of the wait. Their steps at other places of the call commute with it up
to one of these, since they share nothing with the revision state and the call reads no
mark of its slot before the wait. The rounds of the wait end where the deadline passes.
What the character is, what the capture yields and whether memory can be had are in the
call as well; counters and traces are left out.

Two parts of `TerminalReturn` are not in the source's answer: whether the snapshot was
admitted, and the slot the call reserved.
-/

namespace Duris.Player

structure TerminalFence where
  pid : Pid := 0
  revision : Revision := 0
  journaled : Bool := false
  acknowledged : Bool := false
  deriving DecidableEq

/-- `terminal_fences`. A slot whose player is 0 is free. -/
abbrev TerminalFences := Fin playerSavePipelineMaxSnapshots → TerminalFence

/-- `find_terminal_fence_locked`, as the index of the slot. -/
@[irreducible] def findTerminalFence (fences : TerminalFences) (pid : Pid) :
    Option (Fin playerSavePipelineMaxSnapshots) :=
  Fin.find? fun slot => decide ((fences slot).pid = pid)

inductive TerminalResult where
  | invalid
  | unavailable
  | databaseAcknowledged
  | journalDurable
  | timedOut
  deriving DecidableEq

structure FencedPipeline where
  pipeline : Pipeline := {}
  accepting : Bool := false
  fences : TerminalFences := fun _ => {}

/-! ## What becomes of the revisions -/

/-- What the other threads, or a pulse, say of a player's revision. -/
inductive Settlement where
  | journaled (pid : Pid) (revision : Revision)
  | acknowledged (pid : Pid) (revision : Revision)
  deriving DecidableEq

/-- Set a mark on the player's slot, if that waits for this revision. -/
def TerminalFences.mark (fences : TerminalFences) (pid : Pid) (revision : Revision)
    (set : TerminalFence → TerminalFence) : TerminalFences :=
  match findTerminalFence fences pid with
  | none => fences
  | some slot =>
      if (fences slot).revision = revision then
        Function.update fences slot (set (fences slot))
      else fences

def TerminalFences.settle (fences : TerminalFences) : Settlement → TerminalFences
  | .journaled pid revision =>
      fences.mark pid revision fun fence => { fence with journaled := true }
  | .acknowledged pid revision =>
      fences.mark pid revision fun fence => { fence with acknowledged := true }

/-- The steps of the dispatcher and of the writer. -/
def otherThread : Pipeline.Event → Bool
  | .replayScan _ _ | .replayApply _ _ | .replayRelease _ | .dispatcherTake
  | .dispatcherAppend _ _ _ | .dispatcherSettle _ | .attemptEnd _ _ | .worker _ => true
  | _ => false

/-- The dispatcher reports a snapshot once it is in the journal and in `durable_ready`. -/
def Pipeline.journals (s : Pipeline) : Pipeline.Event → List Settlement
  | .dispatcherSettle true =>
      match s.dispatcher with
      | .appended snapshot .ok => [.journaled snapshot.pid snapshot.revision]
      | _ => []
  | _ => []

def otherStep (s : Pipeline) (e : Pipeline.Event) : Pipeline :=
  if otherThread e then s.step e else s

def others (s : Pipeline) (events : List Pipeline.Event) : Pipeline := events.foldl otherStep s

def othersSettle : Pipeline → List Pipeline.Event → List Settlement
  | _, [] => []
  | s, e :: events => s.journals e ++ othersSettle (otherStep s e) events

def completionSettles (completion : Completion) : List Settlement :=
  if completion.kind = .player ∧ completion.outcome.succeeded = true ∧
      completion.revision ≤ completion.durableRevision then
    [.acknowledged completion.pid completion.revision]
  else []

def Pipeline.pulseSettles (s : Pipeline) : List Settlement :=
  (s.worker.pulse playerSavePipelinePulseBudget).1.flatMap completionSettles

/-- One turn of the wait: the pulse, and what the other threads do before and behind it. -/
structure WaitRound where
  before : List Pipeline.Event
  allocates : List Bool
  after : List Pipeline.Event

namespace WaitRound

def run (round : WaitRound) (s : Pipeline) : Pipeline :=
  others ((others s round.before).pulse round.allocates) round.after

def settles (round : WaitRound) (s : Pipeline) : List Settlement :=
  othersSettle s round.before ++ (others s round.before).pulseSettles ++
    othersSettle ((others s round.before).pulse round.allocates) round.after

end WaitRound

def roundsSettle : Pipeline → List WaitRound → List Settlement
  | _, [] => []
  | s, round :: rounds => round.settles s ++ roundsSettle (round.run s) rounds

namespace FencedPipeline

def withRevisions (s : FencedPipeline) (revisions : RevisionStates) : FencedPipeline :=
  { s with pipeline := { s.pipeline with revisions } }

/-- `*fence = ...` at the player's slot. -/
def setFence (s : FencedPipeline) (pid : Pid) (fence : TerminalFence) : FencedPipeline :=
  match findTerminalFence s.fences pid with
  | none => s
  | some slot => { s with fences := Function.update s.fences slot fence }

/-! ## The reservation -/

def allocateTerminalFence (s : FencedPipeline) (pid : Pid) :
    Option (Fin playerSavePipelineMaxSnapshots) × FencedPipeline :=
  if s.pipeline.targetFenced pid = true then (none, s)
  else
    match findTerminalFence s.fences pid with
    | some slot => (some slot, s)
    | none =>
        match findTerminalFence s.fences 0 with
        | none => (none, s)
        | some slot =>
            (some slot,
              { s with fences := Function.update s.fences slot { s.fences slot with pid } })

structure Begun where
  reserved : Option (Fin playerSavePipelineMaxSnapshots)
  revision : Option Revision
  state : FencedPipeline

/-- `begin_terminal_fence` behind the reservation. -/
def markTerminalFence (s : FencedPipeline) (slot : Fin playerSavePipelineMaxSnapshots)
    (pid : Pid) : Begun :=
  match playerRevisionMark s.pipeline.revisions pid playerCheckpointComponentAll with
  | (none, revisions) => ⟨some slot, none, (s.withRevisions revisions).setFence pid {}⟩
  | (some revision, revisions) =>
      match findTerminalFence s.fences pid with
      | none => ⟨some slot, none, s.withRevisions revisions⟩
      | some _ =>
          ⟨some slot, some revision, (s.withRevisions revisions).setFence pid { pid, revision }⟩

def beginTerminalFence (s : FencedPipeline) (pid : Pid) : Begun :=
  if s.pipeline.initialized = false ∨ s.pipeline.targetFenced pid = true then ⟨none, none, s⟩
  else
    match s.allocateTerminalFence pid with
    | (none, s) => ⟨none, none, s⟩
    | (some slot, s) => s.markTerminalFence slot pid

/-! ## The wait -/

def otherSteps (s : FencedPipeline) (events : List Pipeline.Event) : FencedPipeline :=
  { s with
    pipeline := others s.pipeline events
    fences := (othersSettle s.pipeline events).foldl TerminalFences.settle s.fences }

def waitRound (s : FencedPipeline) (round : WaitRound) : FencedPipeline :=
  { s with
    pipeline := round.run s.pipeline
    fences := (round.settles s.pipeline).foldl TerminalFences.settle s.fences }

/-- `await_terminal_fence`, one round for each turn of its loop. Its pulses leave out the
recapture after a custody mismatch, as `Pipeline.pulse` does. -/
def awaitTerminalFence (pid : Pid) (revision : Revision) (allowJournalHandoff : Bool) :
    List WaitRound → FencedPipeline → TerminalResult × FencedPipeline
  | [], s => (.timedOut, s)
  | round :: rounds, s =>
      match findTerminalFence (s.waitRound round).fences pid with
      | none => (.unavailable, s.waitRound round)
      | some slot =>
          if ((s.waitRound round).fences slot).revision ≠ revision then
            (.unavailable, s.waitRound round)
          else if ((s.waitRound round).fences slot).acknowledged = true then
            (.databaseAcknowledged, (s.waitRound round).setFence pid {})
          else if allowJournalHandoff = true ∧
              ((s.waitRound round).fences slot).journaled = true then
            (.journalDurable, (s.waitRound round).setFence pid {})
          else awaitTerminalFence pid revision allowJournalHandoff rounds (s.waitRound round)

end FencedPipeline

/-! ## The calls -/

/-- Which of the two calls it is, with what only the death passes. -/
inductive TerminalKind where
  | ordinary
  | death (corpse payloadGap : Bool)
  deriving DecidableEq

structure TerminalCall where
  kind : TerminalKind
  pid : Pid
  /-- `ch && !IS_NPC(ch)`. -/
  player : Bool
  degraded : Bool := false
  grantPending : Bool := false
  timeoutMsec : BitVec 64
  allowJournalHandoff : Bool
  capture : Option PlayerSnapshot
  allocates : Bool
  gap : List Pipeline.Event := []
  rounds : List WaitRound

/-- `player_save_pipeline_result`. -/
inductive CheckpointResult where
  | invalid
  | unchanged
  | answered (result : PipelineResult)
  deriving DecidableEq

/-- The snapshot is in the pipeline, or a newer one of the player is. -/
def PipelineResult.admitted : PipelineResult → Bool
  | .queued | .coalesced => true
  | _ => false

def CheckpointResult.admitted : CheckpointResult → Bool
  | .answered result => result.admitted
  | _ => false

structure TerminalReturn where
  result : TerminalResult
  admitted : Bool
  reserved : Option (Fin playerSavePipelineMaxSnapshots)
  state : FencedPipeline

namespace TerminalCall

def snapshotIsRetained (s : Pipeline) (pid : Pid) (revision : Revision) : Bool :=
  s.pendingAppend.any (fun snapshot => snapshot.pid = pid ∧ snapshot.revision = revision) ||
    s.durableReady.any fun snapshot => snapshot.pid = pid ∧ snapshot.revision = revision

/-- `player_save_pipeline_checkpoint_dirty` behind its queueing of the revision. -/
def capturesRevision (call : TerminalCall) (s : Pipeline) (revision : Revision)
    (components : ComponentMask) : CheckpointResult × Pipeline :=
  match call.capture with
  | none => (.answered .captureFailed, s)
  | some snapshot =>
      let answer := s.enqueueSnapshot
        { snapshot with pid := call.pid, revision, components } call.allocates
      (.answered answer.1, answer.2)

/-- Nothing changed since what is queued was captured. -/
def checkpointUnchanged (s : Pipeline) (pid : Pid) (entry : PlayerRevisionEntry) : Bool :=
  entry.dirtyComponents == 0 && (entry.inflightComponents != 0 || entry.queuedComponents == 0 ||
    snapshotIsRetained s pid entry.queuedRevision)

def checkpointDirty (call : TerminalCall) (s : Pipeline) : CheckpointResult × Pipeline :=
  if call.player = false ∨ Pid.valid call.pid = false then (.invalid, s)
  else if call.degraded = true ∨ call.grantPending = true ∨ s.targetFenced call.pid = true then
    (.answered .unavailable, s)
  else
    match s.revisions.lookup call.pid with
    | none => (.answered .unavailable, s)
    | some entry =>
        if checkpointUnchanged s call.pid entry then (.unchanged, s)
        else
          match playerRevisionQueue s.revisions call.pid with
          | (none, revisions) => (.answered .captureFailed, { s with revisions })
          | (some (revision, components), revisions) =>
              call.capturesRevision { s with revisions } revision components

/-- `player_save_pipeline_terminal` behind the reservation; the result of the checkpoint
goes to the trace only. -/
def terminalWait (call : TerminalCall) (slot : Option (Fin playerSavePipelineMaxSnapshots))
    (revision : Revision) (s : FencedPipeline) : TerminalReturn :=
  let checkpoint := call.checkpointDirty s.pipeline
  let answer := FencedPipeline.awaitTerminalFence call.pid revision call.allowJournalHandoff
    call.rounds { s with pipeline := checkpoint.2 }
  ⟨answer.1, checkpoint.1.admitted, slot, answer.2⟩

def terminal (call : TerminalCall) (s : FencedPipeline) : TerminalReturn :=
  if call.player = false ∨ Pid.valid call.pid = false ∨ call.timeoutMsec = 0 then
    ⟨.invalid, false, none, s⟩
  else if call.degraded = true then ⟨.unavailable, false, none, s⟩
  else
    match (s.beginTerminalFence call.pid).revision with
    | none =>
        ⟨.unavailable, false, (s.beginTerminalFence call.pid).reserved,
          (s.beginTerminalFence call.pid).state⟩
    | some revision =>
        call.terminalWait (s.beginTerminalFence call.pid).reserved revision
          ((s.beginTerminalFence call.pid).state.otherSteps call.gap)

/-- The enqueue of a death disposition. The queued revision is another one when the
player's components were marked again; the guard frees the slot unless the snapshot was
admitted. -/
def deathWait (call : TerminalCall) (slot : Option (Fin playerSavePipelineMaxSnapshots))
    (revision : Revision) (s : FencedPipeline) : TerminalReturn :=
  match call.capture with
  | none => ⟨.invalid, false, slot, s.setFence call.pid {}⟩
  | some snapshot =>
      match playerRevisionQueue s.pipeline.revisions call.pid with
      | (none, revisions) =>
          ⟨.unavailable, false, slot, (s.withRevisions revisions).setFence call.pid {}⟩
      | (some (queuedRevision, components), revisions) =>
          if queuedRevision ≠ revision ∨ components ≠ playerCheckpointComponentAll then
            ⟨.unavailable, false, slot, (s.withRevisions revisions).setFence call.pid {}⟩
          else
            let queued := (s.withRevisions revisions).pipeline.enqueueSnapshot
              { snapshot with
                pid := call.pid, revision, components := playerCheckpointComponentAll }
              call.allocates
            if queued.1.admitted = true then
              let answer := FencedPipeline.awaitTerminalFence call.pid revision
                call.allowJournalHandoff call.rounds { s with pipeline := queued.2 }
              ⟨answer.1, true, slot, answer.2⟩
            else
              ⟨.unavailable, false, slot,
                { s with pipeline := queued.2 }.setFence call.pid {}⟩

def terminalDeath (call : TerminalCall) (corpse payloadGap : Bool) (s : FencedPipeline) :
    TerminalReturn :=
  if call.player = false ∨ Pid.valid call.pid = false ∨ corpse = false ∨
      call.timeoutMsec = 0 then ⟨.invalid, false, none, s⟩
  else if call.degraded = true ∧ payloadGap = false then ⟨.unavailable, false, none, s⟩
  else
    match (s.beginTerminalFence call.pid).revision with
    | none =>
        ⟨.unavailable, false, (s.beginTerminalFence call.pid).reserved,
          (s.beginTerminalFence call.pid).state⟩
    | some revision =>
        call.deathWait (s.beginTerminalFence call.pid).reserved revision
          ((s.beginTerminalFence call.pid).state.otherSteps call.gap)

def run (call : TerminalCall) (s : FencedPipeline) : TerminalReturn :=
  match call.kind with
  | .ordinary => call.terminal s
  | .death corpse payloadGap => call.terminalDeath corpse payloadGap s

end TerminalCall

def FencedPipeline.targetSavePending (s : FencedPipeline) (pid : Pid) : Bool :=
  if Pid.valid pid = false then true
  else if s.pipeline.initialized = false ∨ s.pipeline.stopRequested = true ∨
      s.accepting = false ∨ (findTerminalFence s.fences pid).isSome = true ∨
      (s.pipeline.dispatcher.inflight.any fun snapshot => snapshot.pid = pid) = true ∨
      (s.pipeline.pendingAppend ++ s.pipeline.durableReady).any
        (fun snapshot => snapshot.pid = pid) = true ∨
      s.pipeline.worker.pidPending pid = true then true
  else
    match s.pipeline.revisions.lookup pid with
    | none => false
    | some entry =>
        entry.overflowed || entry.dirtyComponents != 0 || entry.unacknowledgedComponents != 0 ||
          entry.queuedComponents != 0 || entry.inflightComponents != 0 ||
          entry.currentRevision != entry.acknowledgedRevision

end Duris.Player
