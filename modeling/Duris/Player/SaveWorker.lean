import Duris.Lib.Ring
import Duris.Player.Snapshot

/-!
# The persistence writer

`src/player/player_save_worker.c`: one background thread applies every queued save
in capture order. The game thread submits jobs and consumes completions, the
writer takes the head of the queue, retries a lost connection in place, and
reports; shutdown may leave the job being retried where it is.

A step is what happens under one hold of `worker_mutex` (a write attempt is two:
its start and its end), and the writer's place in `writer_main` is `phase`. A
`std::list` node has an identity of its own, `node`, because the owner index
points at nodes. Clocks and counters of `health` are left out, except the sizes
that admission checks.

Four fields are not in the source: `admitted`, the jobs answered accepted or
replaced, with their position there as a job's `ticket`; `delivered`, the
completions the game has consumed; `superseded`, the jobs a later one replaced;
and `attempts`, the write attempts.
-/

namespace Duris.Player

inductive PersistenceJobKind where
  | player
  | corpse
  | locker
  | savedItem
  | log
  | critical
  | bank
  | shopkeeper
  | sql
  | artifact
  | economy
  deriving DecidableEq

def playerSaveWorkerMaxPendingJobs : Nat := 4096
def playerSaveWorkerMaxPendingBytes : Nat := 128 * 1024 * 1024

abbrev PersistenceJobOwner := PersistenceJobKind × BitVec 64

/-- A job. Only a player's holds a snapshot. -/
structure QueuedJob where
  kind : PersistenceJobKind
  owner : BitVec 64
  snapshot : Option PlayerSnapshot
  bytes : Nat
  node : Nat := 0
  ticket : Nat := 0

namespace QueuedJob

def key (job : QueuedJob) : PersistenceJobOwner := (job.kind, job.owner)

/-- `job.snapshot.death`. -/
def death (job : QueuedJob) : Bool :=
  match job.snapshot with
  | none => false
  | some snapshot => snapshot.death.isSome

end QueuedJob

inductive ApplyOutcome where
  | applied
  | alreadyApplied
  | staleRevision
  | retryableFailure
  | terminalFailure
  | ambiguousCommit
  deriving DecidableEq

def ApplyOutcome.succeeded : ApplyOutcome → Bool
  | .applied | .alreadyApplied | .staleRevision => true
  | _ => false

def ApplyOutcome.connectionLost : ApplyOutcome → Bool
  | .retryableFailure | .ambiguousCommit => true
  | _ => false

structure ApplyResult where
  outcome : ApplyOutcome
  durableRevision : Revision
  errorCode : Nat
  deriving DecidableEq

structure Completion where
  kind : PersistenceJobKind
  owner : BitVec 64
  pid : Pid
  revision : Revision
  components : ComponentMask
  outcome : ApplyOutcome
  durableRevision : Revision
  errorCode : Nat
  retryCount : Nat
  ticket : Nat

/-- A replaced job, the job that replaced it, and what was queued ahead of it. -/
structure Superseded where
  ahead : List QueuedJob
  old : QueuedJob
  new : QueuedJob

/-- The start or the end of an attempt to write the job with this ticket. -/
inductive Attempt where
  | started (ticket : Nat)
  | ended (ticket : Nat)
  deriving DecidableEq

def Attempt.ticket : Attempt → Nat
  | .started ticket | .ended ticket => ticket

/-- Where the writer thread is in `writer_main`. -/
inductive WriterPhase where
  | waiting
  | ready (retries : Nat)
  | attempting (retries : Nat)
  | backoff (retries : Nat) (result : ApplyResult)
  | settled (retries : Nat) (result : ApplyResult)
  | exiting
  | gone
  deriving DecidableEq

structure Worker where
  queue : List QueuedJob := []
  queuedByOwner : PersistenceJobOwner → Option Nat := fun _ => none
  inflight : Option QueuedJob := none
  results : List Completion := []
  queuedBytes : Nat := 0
  running : Bool := false
  stopRequested : Bool := false
  writerExited : Bool := true
  joinable : Bool := false
  phase : WriterPhase := .gone
  nextNode : Nat := 0
  admitted : List QueuedJob := []
  delivered : List Completion := []
  superseded : List Superseded := []
  attempts : List Attempt := []

namespace Worker

/-! ## Submitting -/

/-- What `enqueue` answers; the two refusals are told apart by `errno`. -/
inductive Enqueued where
  | accepted
  | replaced
  | stopped
  | noSpace
  deriving DecidableEq

def inflightBytes (w : Worker) : Nat :=
  match w.inflight with
  | none => 0
  | some job => job.bytes

def pendingJobs (w : Worker) : Nat :=
  w.queue.length + w.inflight.toList.length + w.results.length

/-- The job at the tail, when `job` may replace it: the owner's newest job, and
neither of them a death. -/
def replaceTail (w : Worker) (job : QueuedJob) : Option QueuedJob :=
  match w.queuedByOwner job.key, w.queue.getLast? with
  | some node, some tail =>
      if tail.node = node ∧ job.death = false ∧ tail.death = false then some tail else none
  | _, _ => none

def enqueue (w : Worker) (job : QueuedJob) (allocates : Bool) : Enqueued × Worker :=
  if w.running = false ∨ w.stopRequested = true then (.stopped, w)
  else
    let replaced := w.replaceTail job
    let retained := w.queuedBytes + w.inflightBytes -
      (match replaced with | none => 0 | some tail => tail.bytes)
    if playerSaveWorkerMaxPendingBytes < job.bytes ∨
        playerSaveWorkerMaxPendingBytes - job.bytes < retained ∨
        (replaced.isNone ∧ playerSaveWorkerMaxPendingJobs ≤ w.pendingJobs) then (.noSpace, w)
    else
      match replaced with
      | some tail =>
          let job := { job with node := tail.node, ticket := w.admitted.length }
          (.replaced, { w with
            queue := w.queue.dropLast ++ [job]
            queuedBytes := w.queuedBytes - tail.bytes + job.bytes
            admitted := w.admitted ++ [job]
            superseded := w.superseded ++ [⟨w.queue.dropLast, tail, job⟩] })
      | none =>
          if allocates = false then (.noSpace, w)
          else
            let job := { job with node := w.nextNode, ticket := w.admitted.length }
            (.accepted, { w with
              queue := w.queue ++ [job]
              queuedByOwner := Function.update w.queuedByOwner job.key (some job.node)
              queuedBytes := w.queuedBytes + job.bytes
              nextNode := w.nextNode + 1
              admitted := w.admitted ++ [job] })

def validSnapshot (snapshot : PlayerSnapshot) : Bool :=
  (if snapshot.death.isSome then snapshot.schemaVersion == playerSnapshotDeathSchemaVersion
    else snapshot.schemaVersion == playerSnapshotSchemaVersion) &&
    Pid.valid snapshot.pid && snapshot.revision != 0 && snapshot.components != 0 &&
    snapshot.components &&& ~~~playerCheckpointComponentAll == 0 &&
    snapshot.encodedSizeBound != 0 &&
    decide (snapshot.encodedSizeBound.toNat ≤ playerSnapshotMaxBytes)

/-- `player_save_submit_result`, where a submission can end. -/
inductive SubmitResult where
  | accepted
  | replaced
  | invalid
  | unavailable
  | capacityExceeded
  | workerUnavailable
  deriving DecidableEq

def playerJob (snapshot : PlayerSnapshot) : QueuedJob :=
  { kind := .player
    owner := snapshot.pid.signExtend 64
    snapshot := some snapshot
    bytes := snapshot.encodedSizeBound.toNat }

def submitRetained (w : Worker) (snapshot : PlayerSnapshot) (allocates : Bool) :
    SubmitResult × Worker :=
  if validSnapshot snapshot = false then (.invalid, w)
  else
    match w.enqueue (playerJob snapshot) allocates with
    | (.accepted, w') => (.accepted, w')
    | (.replaced, w') => (.replaced, w')
    | (.stopped, w') => (.workerUnavailable, w')
    | (.noSpace, w') => (.capacityExceeded, w')

/-- `persistence_writer_submit`; `writable` is whether a write function came along. -/
def writerSubmit (w : Worker) (kind : PersistenceJobKind) (owner : BitVec 64) (bytes : Nat)
    (writable allocates : Bool) : SubmitResult × Worker :=
  if kind = .player ∨ owner = 0 ∨ writable = false then (.invalid, w)
  else
    match w.enqueue { kind, owner, snapshot := none, bytes } allocates with
    | (.accepted, w') => (.accepted, w')
    | (.replaced, w') => (.replaced, w')
    | (.stopped, w') => (.unavailable, w')
    | (.noSpace, w') => (.unavailable, w')

/-! ## The writer thread -/

/-- `queued_by_owner` once `job` leaves the head: its entry goes if it names it. -/
def forgetOwner (index : PersistenceJobOwner → Option Nat) (job : QueuedJob) :
    PersistenceJobOwner → Option Nat :=
  if index job.key = some job.node then Function.update index job.key none else index

def wake (w : Worker) : Worker :=
  if w.phase ≠ .waiting then w
  else if w.stopRequested then { w with phase := .exiting }
  else
    match w.queue with
    | [] => w
    | job :: queue =>
        { w with
          queue
          queuedByOwner := forgetOwner w.queuedByOwner job
          inflight := some job
          queuedBytes := w.queuedBytes - job.bytes
          phase := .ready 0 }

def attemptStart (w : Worker) : Worker :=
  match w.phase, w.inflight with
  | .ready retries, some job =>
      { w with phase := .attempting retries, attempts := w.attempts ++ [.started job.ticket] }
  | _, _ => w

def attemptEnd (w : Worker) (result : ApplyResult) : Worker :=
  match w.phase, w.inflight with
  | .attempting retries, some job =>
      { w with
        attempts := w.attempts ++ [.ended job.ticket]
        phase := if result.outcome.connectionLost then .backoff (retries + 1) result
          else .settled retries result }
  | _, _ => w

def retry (w : Worker) : Worker :=
  match w.phase with
  | .backoff retries result =>
      { w with phase := if w.stopRequested then .settled retries result else .ready retries }
  | _ => w

def completionOf (job : QueuedJob) (retries : Nat) (result : ApplyResult) : Completion :=
  let pid := match job.snapshot with | none => 0 | some snapshot => snapshot.pid
  let revision := match job.snapshot with | none => 0 | some snapshot => snapshot.revision
  let components := match job.snapshot with | none => 0 | some snapshot => snapshot.components
  { kind := job.kind
    owner := job.owner
    pid, revision, components
    outcome := result.outcome
    durableRevision := if result.durableRevision ≠ 0 then result.durableRevision else revision
    errorCode := result.errorCode
    retryCount := retries
    ticket := job.ticket }

/-- The completion is delivered, except that a retry a stop request cut short stays
in flight. -/
def complete (w : Worker) : Worker :=
  match w.phase, w.inflight with
  | .settled retries result, some job =>
      let phase := if w.stopRequested then WriterPhase.exiting else .waiting
      if w.stopRequested = true ∧ result.outcome.connectionLost = true then { w with phase }
      else
        { w with
          results := w.results ++ [completionOf job retries result]
          inflight := none
          phase }
  | _, _ => w

def exit (w : Worker) : Worker :=
  if w.phase = .exiting then { w with phase := .gone, writerExited := true } else w

/-! ## The game thread -/

/-- `player_save_worker_init`; `starts` is whether the thread could be created. -/
def init (w : Worker) (starts : Bool) : Bool × Worker :=
  if w.running = true ∨ w.joinable = true ∨ w.writerExited = false then (false, w)
  else if starts then
    (true, { w with
      stopRequested := false
      running := true
      writerExited := false
      joinable := true
      phase := .waiting })
  else (false, { w with stopRequested := false })

/-- The first part of `player_save_worker_shutdown`. -/
def shutdownBegin (w : Worker) : Worker := { w with stopRequested := true }

/-- The writer did not stop within the grace, and is left behind. -/
def shutdownDetach (w : Worker) : Worker :=
  if w.stopRequested = true ∧ w.writerExited = false then { w with joinable := false } else w

/-- The last part, behind the join of a writer that was not left behind. -/
def shutdownFinish (w : Worker) : Worker :=
  if w.stopRequested = true ∧ (w.joinable = false ∨ w.phase = .gone) then
    { w with running := false, joinable := false }
  else w

/-- `player_save_worker_pulse`: the completions it hands over. -/
def pulse (w : Worker) (capacity : Nat) : List Completion × Worker :=
  (w.results.take capacity, { w with
    results := w.results.drop capacity
    delivered := w.delivered ++ w.results.take capacity })

def pidPending (w : Worker) (pid : Pid) : Bool :=
  if Pid.valid pid = false then false
  else
    (match w.inflight with
      | some job => job.kind == .player &&
          (match job.snapshot with | none => false | some snapshot => snapshot.pid == pid)
      | none => false) ||
    (w.queuedByOwner (.player, pid.signExtend 64)).isSome ||
    w.results.any fun completion => completion.kind == .player && completion.pid == pid

def pendingOwners (w : Worker) : List PersistenceJobOwner :=
  w.inflight.toList.map QueuedJob.key ++ w.queue.map QueuedJob.key

/-! ## Runs -/

inductive Event where
  | init (starts : Bool)
  | submitRetained (snapshot : PlayerSnapshot) (allocates : Bool)
  | writerSubmit (kind : PersistenceJobKind) (owner : BitVec 64) (bytes : Nat)
      (writable allocates : Bool)
  | wake
  | attemptStart
  | attemptEnd (result : ApplyResult)
  | retry
  | complete
  | exit
  | pulse (capacity : Nat)
  | shutdownBegin
  | shutdownDetach
  | shutdownFinish

def step (w : Worker) : Event → Worker
  | .init starts => (w.init starts).2
  | .submitRetained snapshot allocates => (w.submitRetained snapshot allocates).2
  | .writerSubmit kind owner bytes writable allocates =>
      (w.writerSubmit kind owner bytes writable allocates).2
  | .wake => w.wake
  | .attemptStart => w.attemptStart
  | .attemptEnd result => w.attemptEnd result
  | .retry => w.retry
  | .complete => w.complete
  | .exit => w.exit
  | .pulse capacity => (w.pulse capacity).2
  | .shutdownBegin => w.shutdownBegin
  | .shutdownDetach => w.shutdownDetach
  | .shutdownFinish => w.shutdownFinish

/-! ## The ring of completions

`results` is a `completion_queue`, a ring with a slot for every job there may be. Above it
is the list the ring stands for; here the ring goes along with the run. -/

/-- `completion_queue`, before anything was pushed. -/
def completionQueue : Ring Completion := { capacity := playerSaveWorkerMaxPendingJobs }

/-- What `results.push_back` stores when the writer finishes its job. -/
def reported (w : Worker) : Option Completion :=
  match w.phase, w.inflight with
  | .settled retries result, some job =>
      if w.stopRequested = true ∧ result.outcome.connectionLost = true then none
      else some (completionOf job retries result)
  | _, _ => none

/-- The `pop_front`s of a pulse. -/
def popFronts : Nat → Ring Completion → Ring Completion
  | 0, ring => ring
  | capacity + 1, ring => popFronts capacity ring.pop

def completionStep (w : Worker) (ring : Ring Completion) : Event → Ring Completion
  | .complete =>
      match w.reported with
      | some completion => ring.push completion
      | none => ring
  | .pulse capacity => popFronts capacity ring
  | _ => ring

def stepSlots (s : Worker × Ring Completion) (e : Event) : Worker × Ring Completion :=
  (s.1.step e, completionStep s.1 s.2 e)

end Worker

end Duris.Player
