import Duris.Lib.Keyed
import Duris.Persistence.Command

/-!
# The critical command coordinator

`src/persistence/critical_command_coordinator.c` with the delivery queue of
`critical_command_completion.h`: a table of operations with the entity fences they
hold, a bounded cache of completed ones, and a queue of completions from the
persistence writer to the game thread.

A step is what happens under one hold of `coordinator_mutex`. A submission is two: it
reserves its operation, and once the writer has answered it is accepted or withdrawn;
what it holds in between is in `submitting`. The writer is its queue of jobs: it runs
the head, again while the outcome is retryable or ambiguous (each job has an owner of
its own there, so none replaces another); it is not restarted while it holds any. The
hash maps are lists with one entry a key, in the order of insertion; a fence that is not
in its map is the empty list, since the source drops it when it empties. Submissions,
`init` and `shutdown` all run on the game thread, so no generation changes in the middle
of a submission. Allocation succeeds, and clocks, counters and the text of
`failure_detail` are left out.

`accepted` and `delivered` are not in the source: the jobs answered accepted in this
generation, each under its sequence number at the writer, and the completions its
pulses handed out.
-/

namespace Duris.Persistence

def criticalCoordinatorMaxOperations : Nat := 1024
def criticalCoordinatorMaxBytes : Nat := 64 * 1024 * 1024
def criticalCoordinatorCompletedCacheMax : Nat := 256
def criticalCoordinatorCompletedCacheBytes : Nat := 8 * 1024 * 1024
def criticalCoordinatorMaxResults : Nat := 2048

inductive CriticalApplyOutcome where
  | applied
  | alreadyApplied
  | retryableFailure
  | ambiguousCommit
  | terminalFailure
  deriving DecidableEq

/-- The writer tries such a command again before anything queued after it. -/
def CriticalApplyOutcome.tryAgain : CriticalApplyOutcome → Bool
  | .retryableFailure | .ambiguousCommit => true
  | _ => false

/-- `critical_failure_stage`, at its underlying width. -/
abbrev CriticalFailureStage := BitVec 16

def CriticalFailureStage.none : CriticalFailureStage := 0
def CriticalFailureStage.coinSourceWalletRevision : CriticalFailureStage := 1
def CriticalFailureStage.coinSourceBankRevision : CriticalFailureStage := 2
def CriticalFailureStage.coinDestinationWalletRevision : CriticalFailureStage := 4
def CriticalFailureStage.coinDestinationBankRevision : CriticalFailureStage := 8
def CriticalFailureStage.coinRevisionUnknown : CriticalFailureStage := 0x2000

def CriticalFailureStage.valid (stage : CriticalFailureStage) : Bool :=
  stage &&& ~~~(coinRevisionUnknown ||| (coinRevisionUnknown - 1)) == 0

structure CriticalApplyResult where
  outcome : CriticalApplyOutcome
  durableRevision : BitVec 64
  errorCode : BitVec 32
  failureStage : CriticalFailureStage := .none
  resultSize : BitVec 16 := 0
  resultPayload : Bytes := []

/-- `critical_completion`; `owner` and `generation` are those of its job. -/
structure CriticalCompletion where
  operationId : CriticalOperationId
  type : CriticalCommandType
  outcome : CriticalApplyOutcome
  durableRevision : BitVec 64
  errorCode : BitVec 32
  attempt : Nat
  failureStage : CriticalFailureStage := .none
  resultSize : BitVec 16 := 0
  resultPayload : Bytes := []
  owner : Nat
  generation : Nat

structure OperationState where
  command : CriticalCommand
  retainedBytes : Nat
  attempt : Nat
  attachments : Nat
  retainUntilPublication : Bool
  /-- `completion`, set with `publication_pending`. -/
  publication : Option CriticalCompletion

namespace OperationState

/-- `operation_key` of the command, the key of the table. -/
def identity (operation : OperationState) : CriticalOperationId := operation.command.operationId

def publicationPending (operation : OperationState) : Bool := operation.publication.isSome

end OperationState

structure CompletedState where
  command : CriticalCommand
  encodedSize : Nat
  completion : CriticalCompletion

def CompletedState.identity (completed : CompletedState) : CriticalOperationId :=
  completed.command.operationId

structure WriterJob where
  command : CriticalCommand
  generation : Nat
  owner : Nat := 0

def WriterJob.identity (job : WriterJob) : CriticalOperationId := job.command.operationId

/-- `critical_submit_result`, where a submission can end. -/
inductive CriticalSubmitResult where
  | accepted
  | attached
  | invalid
  | identityConflict
  | overloaded
  | unavailable
  deriving DecidableEq

/-- `fences`: the operations that hold a key, oldest first. -/
abbrev Fences := CriticalEntityKey → List CriticalOperationId

structure Coordinator where
  operations : List OperationState := []
  executionResults : List CriticalCompletion := []
  fences : Fences := fun _ => []
  completedCache : List CompletedState := []
  completedOrder : List CriticalOperationId := []
  completedCacheBytes : Nat := 0
  retainedBytes : Nat := 0
  initialized : Bool := false
  accepting : Bool := false
  generation : Nat := 0
  writerSequence : Nat := 0
  submitting : List WriterJob := []
  jobs : List WriterJob := []
  accepted : List WriterJob := []
  delivered : List CriticalCompletion := []

/-! ## Fences -/

def addFences (fences : Fences) (identity : CriticalOperationId) (command : CriticalCommand) :
    Fences :=
  command.keys.foldl (fun fences key => Function.update fences key (fences key ++ [identity]))
    fences

def removeFences (fences : Fences) (identity : CriticalOperationId)
    (command : CriticalCommand) : Fences :=
  command.keys.foldl
    (fun fences key => Function.update fences key ((fences key).filter (· ≠ identity))) fences

namespace Coordinator

def findOperation (s : Coordinator) (identity : CriticalOperationId) : Option OperationState :=
  Keyed.lookup OperationState.identity s.operations identity

def findCompleted (s : Coordinator) (identity : CriticalOperationId) : Option CompletedState :=
  Keyed.lookup CompletedState.identity s.completedCache identity

def retainedSum (operations : List OperationState) : Nat :=
  (operations.map OperationState.retainedBytes).sum

/-- `update_depth`, of which admission reads the retained bytes. -/
def updateDepth (s : Coordinator) : Coordinator :=
  { s with retainedBytes := retainedSum s.operations }

/-- `remove_fences` and the erasure of the operation. -/
def eraseOperation (s : Coordinator) (operation : OperationState) : Coordinator :=
  { s with
    fences := removeFences s.fences operation.identity operation.command
    operations := Keyed.erase OperationState.identity s.operations operation.identity }

/-! ## The cache of completed operations -/

/-- The eviction loop of `remember_completed`, on the order, the cache and its bytes. -/
def evictFor (size : Nat) : List CriticalOperationId → List CompletedState → Nat →
    List CriticalOperationId × List CompletedState × Nat
  | [], cache, bytes => ([], cache, bytes)
  | identity :: order, cache, bytes =>
      if criticalCoordinatorCompletedCacheMax ≤ cache.length ∨
          criticalCoordinatorCompletedCacheBytes - size < bytes then
        match Keyed.lookup CompletedState.identity cache identity with
        | some found =>
            evictFor size order (Keyed.erase CompletedState.identity cache identity)
              (bytes - found.encodedSize)
        | none => evictFor size order cache bytes
      else (identity :: order, cache, bytes)

def rememberCompleted (s : Coordinator) (command : CriticalCommand)
    (completion : CriticalCompletion) : Coordinator :=
  match criticalCommandEncode command with
  | .error _ => s
  | .ok encoded =>
      if criticalCoordinatorCompletedCacheBytes < encoded.length then s
      else
        let (order, cache, bytes) :=
          evictFor encoded.length s.completedOrder s.completedCache s.completedCacheBytes
        { s with
          completedCache :=
            if (Keyed.lookup CompletedState.identity cache command.operationId).isSome then cache
            else cache ++ [⟨command, encoded.length, completion⟩]
          completedOrder := order ++ [command.operationId]
          completedCacheBytes := bytes + encoded.length }

/-! ## Submitting -/

/-- `accepted_at_usec`, by the clock when the caller did not supply it. -/
def stamped (command : CriticalCommand) (now : BitVec 64) : CriticalCommand :=
  if command.acceptedAtUsec = 0 then { command with acceptedAtUsec := now } else command

/-- `normalized`, with the acceptance time of `stored` when the caller supplied none. -/
def restamped (command normalized stored : CriticalCommand) : CriticalCommand :=
  if command.acceptedAtUsec = 0 then
    { normalized with acceptedAtUsec := stored.acceptedAtUsec }
  else normalized

def reserveLocked (s : Coordinator) (command : CriticalCommand) (encodedSize : Nat)
    (retainUntilPublication : Bool) : Coordinator :=
  updateDepth { s with
    operations := s.operations ++ [{
      command
      retainedBytes := encodedSize
      attempt := 1
      attachments := 0
      retainUntilPublication
      publication := none }]
    fences := addFences s.fences command.operationId command
    submitting := s.submitting ++ [{ command, generation := s.generation }] }

/-- `submit_command` up to the writer: its answer, or `none` when it has reserved. -/
def submitCommand (s : Coordinator) (command : CriticalCommand) (retainUntilPublication : Bool)
    (now : BitVec 64) : Option CriticalSubmitResult × Coordinator :=
  match criticalCommandNormalize (stamped command now) with
  | none => (some .invalid, s)
  | some normalized =>
      if s.initialized = false ∨ s.accepting = false then (some .unavailable, s)
      else
        match s.findCompleted normalized.operationId with
        | some completed =>
            if criticalCommandEqual completed.command
                (restamped command normalized completed.command) then (some .attached, s)
            else (some .identityConflict, s)
        | none =>
            match s.findOperation normalized.operationId with
            | some found =>
                if criticalCommandEqual found.command
                    (restamped command normalized found.command) then
                  (some .attached, { s with
                    operations := s.operations.map fun operation =>
                      if operation.identity = normalized.operationId then
                        { operation with attachments := operation.attachments + 1 }
                      else operation })
                else (some .identityConflict, s)
            | none =>
                match criticalCommandEncode normalized with
                | .error _ => (some .invalid, s)
                | .ok encoded =>
                    if criticalCoordinatorMaxOperations ≤ s.operations.length ∨
                        criticalCoordinatorMaxBytes - s.retainedBytes < encoded.length then
                      (some .overloaded, s)
                    else
                      (none, s.reserveLocked normalized encoded.length retainUntilPublication)

/-- `queue_on_writer`, for the submission at `index`, with the writer's answer. -/
def queueOnWriter (s : Coordinator) (index : Nat) (accepts : Bool) :
    Option CriticalSubmitResult × Coordinator :=
  match s.submitting[index]? with
  | none => (none, s)
  | some job =>
      let s := { s with
        submitting := s.submitting.eraseIdx index
        writerSequence := s.writerSequence + 1 }
      if accepts then
        let job := { job with owner := s.writerSequence }
        (some .accepted, { s with jobs := s.jobs ++ [job], accepted := s.accepted ++ [job] })
      else
        match s.findOperation job.identity with
        | some found => (some .unavailable, updateDepth (s.eraseOperation found))
        | none => (some .unavailable, updateDepth s)

/-! ## The writer -/

/-- The completion of a job; `failure_stage` keeps its default. -/
def completionOf (job : WriterJob) (applied : CriticalApplyResult) : CriticalCompletion :=
  { operationId := job.command.operationId
    type := job.command.type
    outcome := applied.outcome
    durableRevision := applied.durableRevision
    errorCode := applied.errorCode
    attempt := 1
    resultSize := applied.resultSize
    resultPayload := applied.resultPayload
    owner := job.owner
    generation := job.generation }

/-- `completion_delivery.try_enqueue`. -/
def tryEnqueue (s : Coordinator) (completion : CriticalCompletion) : Bool × Coordinator :=
  if s.executionResults.length < criticalCoordinatorMaxResults then
    (true, { s with executionResults := s.executionResults ++ [completion] })
  else (false, s)

/-- The writer runs the job at its head; a throw of `apply` is a retryable failure. -/
def execute (s : Coordinator) (applied : CriticalApplyResult) : Coordinator :=
  match s.jobs with
  | [] => s
  | job :: jobs =>
      if applied.outcome.tryAgain then s
      else if s.initialized = true ∧ job.generation = s.generation then
        (tryEnqueue { s with jobs } (completionOf job applied)).2
      else { s with jobs }

/-! ## The game thread -/

/-- A completion whose operation is published later. -/
def holdForPublication (s : Coordinator) (operation : OperationState)
    (completion : CriticalCompletion) : Coordinator :=
  { s with operations := s.operations.map fun other =>
      if other.identity = operation.identity then { other with publication := some completion }
      else other }

/-- The loop of `critical_command_coordinator_pulse`, on the queued completions. -/
def publish : List CriticalCompletion → Nat → Coordinator →
    List CriticalCompletion × Coordinator
  | [], _, s => ([], s)
  | _ :: _, 0, s => ([], s)
  | completion :: rest, capacity + 1, s =>
      let s := { s with executionResults := rest }
      match s.findOperation completion.operationId with
      | none => publish rest (capacity + 1) s
      | some operation =>
          if operation.attempt ≠ completion.attempt ∨ operation.publicationPending = true then
            publish rest (capacity + 1) s
          else
            let s := { s with delivered := s.delivered ++ [completion] }
            let s := if operation.retainUntilPublication then
                s.holdForPublication operation completion
              else (s.rememberCompleted operation.command completion).eraseOperation operation
            let published := publish rest capacity s
            (completion :: published.1, published.2)

def pulse (s : Coordinator) (capacity : Nat) : List CriticalCompletion × Coordinator :=
  let published := publish s.executionResults capacity s
  (published.1, updateDepth published.2)

def acknowledgePublication (s : Coordinator) (identity : CriticalOperationId) :
    Bool × Coordinator :=
  match s.findOperation identity with
  | none => ((s.findCompleted identity).isSome, s)
  | some operation =>
      match operation.publication with
      | none => (false, s)
      | some completion =>
          (true, updateDepth
            ((s.rememberCompleted operation.command completion).eraseOperation operation))

def getCompleted (s : Coordinator) (identity : CriticalOperationId) : Option CriticalCompletion :=
  match (s.findOperation identity).bind OperationState.publication with
  | some completion => some completion
  | none => (s.findCompleted identity).map CompletedState.completion

/-- `critical_command_coordinator_is_fenced`, with the operation it names. -/
def isFenced (s : Coordinator) (key : CriticalEntityKey) : Option CriticalOperationId :=
  match s.fences key with
  | [] => none
  | identity :: _ => (s.findOperation identity).map OperationState.identity

def quiesce (s : Coordinator) : Coordinator := { s with accepting := false }

def resume (s : Coordinator) : Coordinator :=
  if s.initialized then { s with accepting := true } else s

/-- What `init` and `shutdown` clear; the jobs on the writer stay. -/
def cleared (s : Coordinator) : Coordinator :=
  { generation := s.generation + 1
    writerSequence := s.writerSequence
    jobs := s.jobs }

def init (s : Coordinator) : Bool × Coordinator :=
  if s.initialized = true ∨ s.submitting ≠ [] then (false, s)
  else (true, { s.cleared with initialized := true, accepting := true })

def shutdown (s : Coordinator) : Coordinator :=
  if s.submitting ≠ [] then s else s.cleared

/-! ## Runs -/

inductive Event where
  | init
  | shutdown
  | submit (command : CriticalCommand) (retainUntilPublication : Bool) (now : BitVec 64)
  | queueOnWriter (index : Nat) (accepts : Bool)
  | execute (applied : CriticalApplyResult)
  | pulse (capacity : Nat)
  | acknowledgePublication (identity : CriticalOperationId)
  | quiesce
  | resume

def step (s : Coordinator) : Event → Coordinator
  | .init => s.init.2
  | .shutdown => s.shutdown
  | .submit command retainUntilPublication now =>
      (s.submitCommand command retainUntilPublication now).2
  | .queueOnWriter index accepts => (s.queueOnWriter index accepts).2
  | .execute applied => s.execute applied
  | .pulse capacity => (s.pulse capacity).2
  | .acknowledgePublication identity => (s.acknowledgePublication identity).2
  | .quiesce => s.quiesce
  | .resume => s.resume

end Coordinator

end Duris.Persistence
