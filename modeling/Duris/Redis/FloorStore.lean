import Duris.Lib.Writes
import Duris.Redis.WorldStore

/-!
# The floor hash

`src/redis/redis_floor_runtime.c` and `src/redis/redis_floor_store.c`. The game thread
buffers drops and removals of floor objects; a flush hands the buffers to a worker as one
batch, removals first; the worker sends its batches in groups, each a `MULTI`/`EXEC`, and
starts a batch again when a group fails. A barrier in the queue pauses the worker, and
while it is paused a publication may delete the hash and its index.

A mutation is a key with what it is set to, so a batch is a list of writes. The runtime
is enabled and neither quiesced nor materialising, where its functions do nothing, and
the store accepts: shutting down is not modelled. `encode` is
`world_recovery_encode_floor_object`. Preparing a batch is part of picking it up: no other
thread looks at a job's mutations.

`Ledger` is not in the source. It keeps the operations since the last flush, the log of
what flushes and barrier requests have queued, how much of the log the worker has dealt
with, where it stood at the last clearing publication, whether a barrier is taken, and
what the worker has done with its jobs, newest first.
-/

namespace Duris.Redis.Floor

/-- An object's uid, as a hash field. -/
abbrev Uid := BitVec 64

/-- An operation on the floor, or a mutation: a uid with the record it is given, or with
nothing when it is removed. -/
abbrev Write := Uid × Option Bytes

def maxFloorDropBatch : Nat := 1024
def redisFloorQueueCapacity : Nat := 8
def redisFloorQueueMaxBytes : Nat := 16 * 1024 * 1024
def redisFloorBatchCapacity : Nat := 2048
def redisFloorValueMaxBytes : Nat := 2 * 1024 * 1024
def redisFloorMaxCommandAttempts : Nat := 3
def worldRecoveryFloorPrefixBytes : Nat := 5

/-! ## State -/

/-- What one flush or barrier request has queued. -/
inductive LogEntry where
  | flushed (ops writes : List Write)
  | barrier

namespace LogEntry

def ops : LogEntry → List Write
  | .flushed ops _ => ops
  | .barrier => []

def writes : LogEntry → List Write
  | .flushed _ writes => writes
  | .barrier => []

end LogEntry

structure OwnedMutation where
  uid : Uid
  value : Bytes
  remove : Bool
  encodeWorldObject : Bool

/-- `floor_job`, with the log entry it was made for. -/
inductive FloorJob where
  | batch (mutations : List OwnedMutation) (bytes attempts : Nat) (entry : LogEntry)
  | barrier

def FloorJob.entry : FloorJob → LogEntry
  | .batch _ _ _ entry => entry
  | .barrier => .barrier

def FloorJob.bytes : FloorJob → Nat
  | .batch _ bytes _ _ => bytes
  | .barrier => 0

/-- Where the worker is: waiting, or sending the group that starts at `first`. -/
inductive WorkerPhase where
  | waiting
  | executing (first : Nat)

inductive WorkerAct where
  | completed
  | dropped
  | barrier
  deriving DecidableEq

structure Ledger where
  buffered : List Write := []
  log : List LogEntry := []
  reached : Nat := 0
  cleared : Nat := 0
  taken : Bool := false
  acts : List WorkerAct := []

structure State where
  batch : List (Uid × Bytes) := []
  removes : List Uid := []
  pendingJobs : List FloorJob := []
  pendingBytes : Nat := 0
  phase : WorkerPhase := .waiting
  paused : Bool := false
  barrierRequested : Bool := false
  barrierReady : Bool := false
  barrierSucceeded : Bool := false
  failureBeforeBarrier : Bool := false
  hash : Uid → Option Bytes := fun _ => none
  index : Uid → Bool := fun _ => false
  ledger : Ledger := {}

/-! ## The game thread -/

/-- `redis_floor_mutation` to `owned_mutation`: only drops of the runtime are encoded. -/
def OwnedMutation.ofWrite (write : Write) : OwnedMutation :=
  match write.2 with
  | none => ⟨write.1, [], true, false⟩
  | some record => ⟨write.1, record, false, true⟩

/-- The size `redis_floor_store_submit` counts for a mutation. -/
def mutationBytes (write : Write) : Nat :=
  match write.2 with
  | none => 0
  | some record => record.length + worldRecoveryFloorPrefixBytes

/-- The checks `redis_floor_store_submit` makes of a mutation. -/
def mutationValid (write : Write) : Bool :=
  write.1 ≠ 0 &&
    match write.2 with
    | none => true
    | some record => record ≠ [] && record.length ≤ redisFloorValueMaxBytes

/-- `redis_floor_store_submit`, for the operations `ops`. -/
def submit (s : State) (ops writes : List Write) : Option State :=
  if writes = [] ∨ redisFloorBatchCapacity < writes.length ∨ !writes.all mutationValid then none
  else
    let bytes := (writes.map mutationBytes).sum
    if redisFloorQueueCapacity ≤ s.pendingJobs.length ∨
        redisFloorQueueMaxBytes - s.pendingBytes < bytes then none
    else
      some
        { s with
          pendingJobs := s.pendingJobs ++
            [.batch (writes.map .ofWrite) bytes 0 (.flushed ops writes)]
          pendingBytes := s.pendingBytes + bytes
          ledger := { s.ledger with log := s.ledger.log ++ [.flushed ops writes] } }

/-- The mutations of a flush: the removals, then the drops. -/
def flushWrites (removes : List Uid) (batch : List (Uid × Bytes)) : List Write :=
  removes.map (fun uid => (uid, none)) ++ batch.map (fun drop => (drop.1, some drop.2))

def flushFloorDrops (s : State) : State :=
  if s.batch.length = 0 ∧ s.removes.length = 0 then s
  else
    match submit s s.ledger.buffered (flushWrites s.removes s.batch) with
    | none => s
    | some s =>
        { s with
          batch := []
          removes := []
          ledger := { s.ledger with buffered := [] } }

/-- `redis_log_floor_drop` of an object with this uid, whose record is empty when it could
not be written. -/
def logFloorDrop (s : State) (uid : Uid) (record : Bytes) : State :=
  if uid = 0 then s
  else
    let s := if maxFloorDropBatch ≤ s.batch.length then flushFloorDrops s else s
    if maxFloorDropBatch ≤ s.batch.length then s
    else if record.length = 0 then s
    else
      { s with
        batch := s.batch ++ [(uid, record)]
        ledger := { s.ledger with buffered := s.ledger.buffered ++ [(uid, some record)] } }

/-- The last entry takes the place of the one at `index`, and the count goes down. -/
def swapRemove (batch : List (Uid × Bytes)) (index : Nat) : List (Uid × Bytes) :=
  match batch.getLast? with
  | none => batch
  | some last => (batch.set index last).dropLast

def removeFloorDrop (s : State) (uid : Uid) : State :=
  if uid = 0 then s
  else
    let ledger := { s.ledger with buffered := s.ledger.buffered ++ [(uid, none)] }
    match s.batch.findIdx? (fun drop => drop.1 = uid) with
    | some index => { s with batch := swapRemove s.batch index, ledger := ledger }
    | none =>
        if s.removes.length < maxFloorDropBatch then
          { s with removes := s.removes ++ [uid], ledger := ledger }
        else { s with ledger := ledger }

def requestBarrier (s : State) : State :=
  if s.barrierRequested then s
  else if redisFloorQueueCapacity ≤ s.pendingJobs.length then s
  else
    { s with
      pendingJobs := s.pendingJobs ++ [.barrier]
      barrierRequested := true
      ledger := { s.ledger with log := s.ledger.log ++ [.barrier] } }

/-- What `redis_floor_store_take_barrier` answers: nothing when no barrier is ready, else
whether it succeeded. -/
def barrierAnswer (s : State) : Option Bool :=
  if s.barrierReady then some s.barrierSucceeded else none

def takeBarrier (s : State) : State :=
  match barrierAnswer s with
  | none => s
  | some _ => { s with barrierReady := false, ledger := { s.ledger with taken := true } }

def resume (s : State) : State :=
  let ledger := { s.ledger with taken := false }
  if s.barrierRequested then
    { s with
      barrierRequested := false
      paused := false
      barrierReady := false
      ledger := ledger }
  else { s with ledger := ledger }

/-- A publication's script, while the worker is paused: the hash and its index go. -/
def publish (s : State) : State :=
  if s.paused then
    { s with
      hash := fun _ => none
      index := fun _ => false
      ledger := { s.ledger with cleared := s.ledger.reached } }
  else s

/-! ## The worker -/

variable (encode : Bytes → Option Bytes)

/-- `prepare_batch`: the mutations with what has been encoded, and whether all is. -/
def prepareBatch : List OwnedMutation → List OwnedMutation × Bool
  | [] => ([], true)
  | mutation :: mutations =>
      if mutation.encodeWorldObject then
        match encode mutation.value with
        | none => (mutation :: mutations, false)
        | some value =>
            ({ mutation with value := value, encodeWorldObject := false } ::
              (prepareBatch mutations).1, (prepareBatch mutations).2)
      else (mutation :: (prepareBatch mutations).1, (prepareBatch mutations).2)

def maximumGroupMutations : Nat := 64
def maximumGroupValueBytes : Nat := 1024 * 1024

/-- The loop of `execute_batch` that sizes a group: how many more mutations are taken when
`count` are, with their bytes. The room left is a `size_t`. -/
def groupCount (count bytes : Nat) : List OwnedMutation → Nat
  | [] => count
  | mutation :: mutations =>
      if maximumGroupMutations ≤ count then count
      else if count ≠ 0 ∧
          (maximumGroupValueBytes + 2 ^ 64 - bytes) % 2 ^ 64 < mutation.value.length then count
      else groupCount (count + 1) (bytes + mutation.value.length) mutations

def OwnedMutation.write (mutation : OwnedMutation) : Write :=
  (mutation.uid, if mutation.remove then none else some mutation.value)

/-- The transaction of `execute_group`. -/
def executeGroup (s : State) (mutations : List OwnedMutation) : State :=
  let writes := mutations.map OwnedMutation.write
  { s with
    hash := Redo.applyWrites writes s.hash
    index := fun uid =>
      match Redo.lastWrite writes uid with
      | some value => value.isSome
      | none => s.index uid }

/-- `remove_front_locked` of a batch. -/
def removeFront (s : State) (rest : List FloorJob) (bytes : Nat) (dropped : Bool) : State :=
  { s with
    pendingJobs := rest
    pendingBytes := s.pendingBytes - bytes
    phase := .waiting
    failureBeforeBarrier := s.failureBeforeBarrier || dropped
    ledger :=
      { s.ledger with
        reached := s.ledger.reached + 1
        acts := (if dropped then .dropped else .completed) :: s.ledger.acts } }

def batchFailed (s : State) (mutations : List OwnedMutation) (bytes attempts : Nat)
    (entry : LogEntry) (rest : List FloorJob) : State :=
  if redisFloorMaxCommandAttempts ≤ attempts + 1 then removeFront s rest bytes true
  else
    { s with
      pendingJobs := .batch mutations bytes (attempts + 1) entry :: rest
      phase := .waiting }

/-- The worker takes up the front job; for a batch it may have no connection. -/
def pickJob (s : State) (connected : Bool) : State :=
  if s.paused then s
  else
    match s.phase, s.pendingJobs with
    | .waiting, .barrier :: rest =>
        { s with
          pendingJobs := rest
          paused := true
          barrierSucceeded := !s.failureBeforeBarrier
          failureBeforeBarrier := false
          barrierReady := true
          ledger :=
            { s.ledger with
              reached := s.ledger.reached + 1
              acts := .barrier :: s.ledger.acts } }
    | .waiting, .batch mutations bytes attempts entry :: rest =>
        if connected then
          if (prepareBatch encode mutations).2 then
            { s with
              pendingJobs :=
                .batch (prepareBatch encode mutations).1 bytes attempts entry :: rest
              phase := .executing 0 }
          else batchFailed s (prepareBatch encode mutations).1 bytes attempts entry rest
        else s
    | _, _ => s

/-- The worker sends the next group of the batch it is at. -/
def sendGroup (s : State) (answer : Answer) : State :=
  match s.phase, s.pendingJobs with
  | .executing first, .batch mutations bytes attempts entry :: rest =>
      let count := groupCount 0 0 (mutations.drop first)
      let sent := if answer.executed then executeGroup s ((mutations.drop first).take count) else s
      if answer = .answered then
        if first + count < mutations.length then { sent with phase := .executing (first + count) }
        else removeFront sent rest bytes false
      else batchFailed sent mutations bytes attempts entry rest
  | _, _ => s

/-! ## Runs -/

inductive Event where
  | drop (uid : Uid) (record : Bytes)
  | remove (uid : Uid)
  | flush
  | requestBarrier
  | takeBarrier
  | resume
  | publish
  | pick (connected : Bool)
  | send (answer : Answer)

def step (s : State) : Event → State
  | .drop uid record => logFloorDrop s uid record
  | .remove uid => removeFloorDrop s uid
  | .flush => flushFloorDrops s
  | .requestBarrier => Floor.requestBarrier s
  | .takeBarrier => Floor.takeBarrier s
  | .resume => Floor.resume s
  | .publish => Floor.publish s
  | .pick connected => pickJob encode s connected
  | .send answer => sendGroup s answer

def State.ops (s : State) : List Write := s.ledger.log.flatMap LogEntry.ops ++ s.ledger.buffered

/-- The flushed operations since the barrier of the last clearing publication. -/
def State.sinceClearing (s : State) : List Write :=
  (s.ledger.log.drop s.ledger.cleared).flatMap LogEntry.ops

def Executed (s : State) : Prop :=
  (∀ job ∈ s.pendingJobs, job.entry = .barrier) ∧
    match s.phase with
    | .waiting => True
    | .executing _ => False

/-- The moves of a regular run: drops and removals of a uid alternate, the
first is a drop, every drop is recorded, and no batch is given up. -/
def Regular (s : State) : Event → Prop
  | .drop uid record =>
      (∀ held, Redo.lastWrite s.ops uid ≠ some (some held)) ∧
        (logFloorDrop s uid record).ops = s.ops ++ [(uid, some record)]
  | .remove uid => ∃ held, Redo.lastWrite s.ops uid = some (some held)
  | .pick connected => (pickJob encode s connected).ledger.acts.head? ≠ some .dropped
  | .send answer => (sendGroup s answer).ledger.acts.head? ≠ some .dropped
  | _ => True

/-- A removal finds its drop still buffered, or room in the list of removals. -/
def RoomForRemoval (s : State) : Event → Prop
  | .remove uid =>
      uid ∈ s.batch.map Prod.fst ∨ s.removes.length < maxFloorDropBatch
  | _ => True

/-- The hash and its index hold the last drops since the clearing publication's barrier. -/
def NetEffect (s : State) : Prop :=
  ∀ uid,
    s.hash uid = (Redo.applyWrites s.sinceClearing (fun _ => none) uid).bind encode ∧
      s.index uid = (Redo.applyWrites s.sinceClearing (fun _ => none) uid).isSome

/-- Between a barrier taken and the matching resume the worker executes nothing. -/
def QuietWhileTaken (s : State) (event : Event) : Prop :=
  s.ledger.taken = true →
    match event with
    | .pick _ | .send _ =>
        (step encode s event).hash = s.hash ∧ (step encode s event).index = s.index
    | _ => True

/-- A barrier that reports success follows batches that were all completed, back to the
barrier before it. -/
def HonestBarrier (s : State) : Event → Prop
  | .takeBarrier =>
      barrierAnswer s = some true →
        ∃ acts older, s.ledger.acts = .barrier :: (acts ++ older) ∧
          (∀ act ∈ acts, act = .completed) ∧ (older = [] ∨ older.head? = some .barrier)
  | _ => True

end Duris.Redis.Floor
