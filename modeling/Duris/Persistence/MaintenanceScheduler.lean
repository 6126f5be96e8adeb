import Duris.Lib.LittleEndian
import Duris.Lib.PagedWork
import Duris.Lib.Run
import Mathlib.Data.BitVec
import Mathlib.Logic.Function.Basic

/-!
# The maintenance scheduler

`src/persistence/maintenance_scheduler.c`. The game thread pulses: it applies what the
worker has completed and queues one job that is due. The worker records a request in the
durable state, writes the state to its file, executes the request, records the result and
writes the state again. A start of the process goes on from the file.

A step is what one thread does under the lock, one write of the state file, or one call of
the execute callback, so a crash and the other thread fall between any two of them. What
the environment decides is in the event: the clock, the random numbers, whether a write
ends well and, when it does not, whether the file was replaced, whether the worker's thread
can be created, and what the callbacks answer. A prepare callback leaves the work, the job
and the cursor of a request as they are. A path for the state file is set.

The object representation of a state, which the checksum is taken over, is a parameter.
`history` is not in the source: the executed requests with their results, and the starts,
newest first.
-/

namespace Duris.Maintenance

variable (layout : Layout)

abbrev WorkId := BitVec 64
abbrev Cursor := BitVec 64
abbrev Tick := BitVec 64

/-- `maintenance_job_id`: an enumeration over a byte, so a file can hold any byte. -/
abbrev JobId := BitVec 8

namespace JobId

def auctionDueScan : JobId := 0
def pollExpiration : JobId := 1
def epicTaskCatalog : JobId := 2
def epicZoneBalance : JobId := 3
def levelCap : JobId := 4
def zoneTrophy : JobId := 5
def epicZoneModifiers : JobId := 6
def boonScan : JobId := 7
def webStatus : JobId := 8
def cargoMarket : JobId := 9
def operationalStatistics : JobId := 10
def lifecycleArchive : JobId := 11

end JobId

def indexOf (id : JobId) : Nat := id.toNat

def maintenanceJobCount : Nat := 12
def maintenanceQueueMax : Nat := maintenanceJobCount
def maintenanceCompletionMax : Nat := maintenanceJobCount
def maintenanceRetryMaxTicks : Tick := 240

structure JobDefinition where
  id : JobId
  cadenceTicks : Tick
  priority : BitVec 8
  rowBudget : BitVec 32
  timeBudgetUsec : BitVec 64
  enabled : Bool

def registry : List JobDefinition :=
  [⟨.auctionDueScan, 240, 1, 64, 25000, true⟩,
    ⟨.pollExpiration, 1200, 3, 64, 25000, true⟩,
    ⟨.epicTaskCatalog, 14400, 5, 256, 50000, true⟩,
    ⟨.epicZoneBalance, 480, 2, 64, 25000, true⟩,
    ⟨.levelCap, 240, 2, 32, 25000, true⟩,
    ⟨.zoneTrophy, 240, 4, 256, 50000, false⟩,
    ⟨.epicZoneModifiers, 240, 4, 256, 50000, true⟩,
    ⟨.boonScan, 240, 2, 64, 25000, true⟩,
    ⟨.webStatus, 300, 6, 1, 25000, true⟩,
    ⟨.cargoMarket, 240, 4, 100, 50000, true⟩,
    ⟨.operationalStatistics, 300, 6, 1, 50000, true⟩,
    ⟨.lifecycleArchive, 2400, 7, 64, 25000, false⟩]

/-! ## Requests and results -/

structure Request where
  workId : WorkId := 0
  jobId : JobId := 0
  cursor : Cursor := 0
  scheduledTick : Tick := 0
  deadlineUsec : BitVec 64 := 0
  rowBudget : BitVec 32 := 0
  timeBudgetUsec : BitVec 64 := 0
  values : List (BitVec 64) := []
  content : Bytes := []

inductive Outcome where
  | complete
  | more
  | retryableFailure
  | permanentFailure
  | cancelled
  deriving DecidableEq

structure Result where
  workId : WorkId := 0
  jobId : JobId := 0
  outcome : Outcome := .complete
  nextCursor : Cursor := 0
  rows : BitVec 32 := 0
  runUsec : BitVec 64 := 0
  errorCode : BitVec 32 := 0
  values : List (BitVec 64) := []

def eio : BitVec 32 := 5
def enomem : BitVec 32 := 12
def efault : BitVec 32 := 14
def eproto : BitVec 32 := 71

/-- The result a request has when it was not executed to its end. -/
def Request.unfinished (request : Request) (outcome : Outcome) (errorCode : BitVec 32) :
    Result :=
  { workId := request.workId
    jobId := request.jobId
    outcome := outcome
    nextCursor := request.cursor
    errorCode := errorCode }

/-- A prepare callback, which may refuse a request. -/
structure Prepare where
  answer : Request → Option Request
  keeps : ∀ request prepared, answer request = some prepared →
    prepared.workId = request.workId ∧ prepared.jobId = request.jobId ∧
      prepared.cursor = request.cursor

/-! ## The durable state -/

structure DurableJob where
  workId : WorkId := 0
  cursor : Cursor := 0
  requestPending : Bool := false
  request : Request := {}
  completionPending : Bool := false
  completion : Result := {}

/-- `durable_scheduler_state` without its checksum; `durable_scheduler_state_v2` has eleven
jobs. -/
structure DurableState where
  magic : String := ""
  version : BitVec 32 := 0
  jobCount : BitVec 32 := 0
  jobs : Nat → DurableJob := fun _ => {}

/-- How the two layouts of the state lie in memory. -/
structure Layout where
  v2 : DurableState → Bytes
  v3 : DurableState → Bytes

/-- What the state file holds; `other` is a file of another size. -/
inductive StateFile where
  | v2 (state : DurableState) (checksum : BitVec 64)
  | v3 (state : DurableState) (checksum : BitVec 64)
  | other

def stateChecksum (image : Bytes) : BitVec 64 :=
  image.foldl (fun hash byte => (hash ^^^ byte.toBitVec.setWidth 64) * 1099511628211)
    1469598103934665603

/-- The file `persist_state` writes. -/
def stateFile (state : DurableState) : StateFile :=
  .v3 state (stateChecksum (layout.v3 state))

/-- What `load_state` asks of a job. -/
def DurableJob.valid (job : DurableJob) : Bool :=
  !((job.workId = 0 && (job.cursor ≠ 0 || job.requestPending || job.completionPending)) ||
    (job.requestPending &&
      (job.request.workId ≠ job.workId || job.request.cursor ≠ job.cursor ||
        maintenanceJobCount ≤ indexOf job.request.jobId)) ||
    (job.completionPending &&
      (job.completion.workId ≠ job.workId ||
        maintenanceJobCount ≤ indexOf job.completion.jobId)))

/-- `load_state`: the durable state it leaves, and whether it accepts. -/
def loadState (readable : Bool) (disk : Option StateFile) : DurableState × Bool :=
  let blank : DurableState :=
    { magic := "DMSMNT3", version := 3, jobCount := BitVec.ofNat 32 maintenanceJobCount }
  let checked := fun (state : DurableState) =>
    (state, (List.range maintenanceJobCount).all fun index => (state.jobs index).valid)
  if !readable then (blank, false)
  else
    match disk with
    | none => (blank, true)
    | some (.v2 loaded checksum) =>
        if loaded.magic ≠ "DMSMNT2" ∨ loaded.version ≠ 2 ∨ loaded.jobCount ≠ 11 ∨
            checksum ≠ stateChecksum (layout.v2 loaded) then (blank, false)
        else
          checked { blank with jobs := fun index => if index < 11 then loaded.jobs index else {} }
    | some (.v3 loaded checksum) =>
        if loaded.magic ≠ "DMSMNT3" ∨ loaded.version ≠ 3 ∨
            loaded.jobCount ≠ BitVec.ofNat 32 maintenanceJobCount ∨
            checksum ≠ stateChecksum (layout.v3 loaded) then (blank, false)
        else checked loaded
    | some .other => (blank, false)

/-- How a write of the state file ends: when it fails, the file may have been replaced. -/
inductive Persisted where
  | written
  | failed (renamed : Bool)

/-- `persist_state`: the file it leaves. -/
def persistState (disk : Option StateFile) (state : DurableState) :
    Persisted → Option StateFile
  | .written | .failed true => some (stateFile layout state)
  | .failed false => disk

/-! ## State -/

/-- `maintenance_job_health`, without what only counts. -/
structure JobHealth where
  nextDueTick : Tick := 0
  cursor : Cursor := 0
  workId : WorkId := 0
  retries : BitVec 64 := 0
  active : Bool := false

inductive WorkerPhase where
  | absent
  | created
  | waiting
  | syncing (state : DurableState)
  | syncFailed
  | starting (request : Request)
  | activating (request : Request) (state : DurableState)
  | executing (request : Request)
  | calling (request : Request)
  | finishing (request : Request) (result : Result)
  | completing (request : Request) (result : Result) (state : DurableState)
  | withdrawing (request : Request) (result : Result)
  | delivering (result : Result)
  | exited

namespace WorkerPhase

/-- The job of the request the worker has taken from the queue. -/
def job : WorkerPhase → Option JobId
  | .starting request | .activating request _ | .executing request | .calling request
  | .finishing request _ | .completing request _ _ | .withdrawing request _ =>
      some request.jobId
  | .delivering result => some result.jobId
  | _ => none

def writing : WorkerPhase → Option DurableState
  | .syncing state | .activating _ state | .completing _ _ state => some state
  | _ => none

end WorkerPhase

inductive HistoryEntry where
  | started
  | executed (request : Request) (result : Option Result)

structure State where
  queue : List Request := []
  completions : List Result := []
  jobs : Nat → JobHealth := fun _ => {}
  running : Bool := false
  stopRequested : Bool := false
  stopPending : Bool := false
  quiesced : Bool := false
  durable : DurableState := {}
  durableDirty : Bool := false
  phase : WorkerPhase := .absent
  disk : Option StateFile := none
  history : List HistoryEntry := []

def State.setJob (s : State) (index : Nat) (job : JobHealth) : State :=
  { s with jobs := Function.update s.jobs index job }

def State.setDurable (s : State) (index : Nat) (job : DurableJob) : State :=
  { s with durable := { s.durable with jobs := Function.update s.durable.jobs index job } }

/-! ## The game thread -/

/-- `next_work_id`, with the random numbers it draws; a draw fails when none is left. -/
def nextWorkId : List (Option WorkId) → WorkId
  | [] => 0
  | none :: _ => 0
  | some id :: draws =>
      if (id &&& 255).toNat ≤ maintenanceJobCount then nextWorkId draws else id

/-- One turn of the loop of `submit_due_locked` over the registry. -/
def considerJob (tick : Tick) (found : (Nat → JobHealth) × Option JobDefinition)
    (definition : JobDefinition) : (Nat → JobHealth) × Option JobDefinition :=
  let job := found.1 (indexOf definition.id)
  if !definition.enabled then found
  else if tick < job.nextDueTick then found
  else if job.active then
    (Function.update found.1 (indexOf definition.id)
      { job with nextDueTick := job.nextDueTick + definition.cadenceTicks }, found.2)
  else
    match found.2 with
    | none => (found.1, some definition)
    | some selected =>
        if definition.priority < selected.priority ∨
            (definition.priority = selected.priority ∧
              job.nextDueTick < (found.1 (indexOf selected.id)).nextDueTick) then
          (found.1, some definition)
        else found

/-- The end of `submit_due_locked`. -/
def enqueue (s : State) (selected : JobDefinition) (request : Request) (workId : WorkId) :
    State :=
  let job := s.jobs (indexOf selected.id)
  { s with queue := s.queue ++ [request] }.setJob (indexOf selected.id)
    { job with
      workId := workId
      active := true
      nextDueTick := job.nextDueTick + selected.cadenceTicks }

/-- `submit_due_locked` for the job the loop has selected. -/
def submitJob (s : State) (selected : JobDefinition) (tick : Tick)
    (draws : List (Option WorkId)) (now : BitVec 64) (prepare : Prepare) : State :=
  let job := s.jobs (indexOf selected.id)
  let durable := s.durable.jobs (indexOf selected.id)
  let workId := if job.workId ≠ 0 then job.workId else nextWorkId draws
  if workId = 0 then
    s.setJob (indexOf selected.id) { job with nextDueTick := tick + maintenanceRetryMaxTicks }
  else if durable.requestPending then enqueue s selected durable.request workId
  else
    match prepare.answer
        { workId := workId
          jobId := selected.id
          cursor := job.cursor
          scheduledTick := job.nextDueTick
          deadlineUsec := now + selected.timeBudgetUsec
          rowBudget := selected.rowBudget
          timeBudgetUsec := selected.timeBudgetUsec } with
    | none =>
        s.setJob (indexOf selected.id)
          { job with nextDueTick := job.nextDueTick + selected.cadenceTicks }
    | some request => enqueue s selected request workId

/-- `submit_due_locked` after its loop. -/
def submitFound (s : State) (found : (Nat → JobHealth) × Option JobDefinition) (tick : Tick)
    (draws : List (Option WorkId)) (now : BitVec 64) (prepare : Prepare) : State :=
  match found.2 with
  | none => { s with jobs := found.1 }
  | some selected =>
      if maintenanceQueueMax ≤ s.queue.length ∨
          maintenanceCompletionMax ≤ s.completions.length then { s with jobs := found.1 }
      else submitJob { s with jobs := found.1 } selected tick draws now prepare

def submitDue (s : State) (tick : Tick) (draws : List (Option WorkId)) (now : BitVec 64)
    (prepare : Prepare) : State :=
  submitFound s (registry.foldl (considerJob tick) (s.jobs, none)) tick draws now prepare

/-- The job of `apply_completion_locked`, after the outcome. -/
def JobHealth.completed (job : JobHealth) (result : Result) (tick : Tick) : JobHealth :=
  match result.outcome with
  | .complete | .permanentFailure =>
      { job with active := false, cursor := 0, workId := 0, retries := 0 }
  | .more => { job with active := false, cursor := result.nextCursor, nextDueTick := tick + 1 }
  | .retryableFailure =>
      { job with
        active := false
        retries := job.retries + 1
        nextDueTick :=
          tick + BitVec.ofNat 64
            (min (2 ^ min (job.retries + 1).toNat 7) maintenanceRetryMaxTicks.toNat) }
  | .cancelled => { job with active := false }

/-- The durable record of `apply_completion_locked`. -/
def DurableJob.completed (durable : DurableJob) (job : JobHealth) (outcome : Outcome) :
    DurableJob :=
  let kept := outcome = .retryableFailure ∨ outcome = .cancelled
  { workId := job.workId
    cursor := job.cursor
    requestPending := if kept then durable.requestPending else false
    request := if kept then durable.request else {}
    completionPending := false
    completion := {} }

def applyCompletion (s : State) (result : Result) (tick : Tick) : State :=
  let index := indexOf result.jobId
  if !(s.jobs index).active ∨ (s.jobs index).workId ≠ result.workId then s
  else
    let job := (s.jobs index).completed result tick
    { (s.setJob index job).setDurable index
        ((s.durable.jobs index).completed job result.outcome) with
      durableDirty := true }

/-- The loop of `maintenance_scheduler_pulse`. -/
def applyCompletions (tick : Tick) : Nat → State → State
  | 0, s => s
  | capacity + 1, s =>
      match s.completions with
      | [] => s
      | result :: completions =>
          applyCompletions tick capacity
            (applyCompletion { s with completions := completions } result tick)

def pulse (s : State) (tick : Tick) (capacity : Nat) (draws : List (Option WorkId))
    (now : BitVec 64) (prepare : Prepare) : State :=
  let s := applyCompletions tick capacity s
  if s.running && !s.stopRequested && !s.quiesced then submitDue s tick draws now prepare
  else s

def jobOffset (id : JobId) (cadenceTicks instanceSeed : BitVec 64) : BitVec 64 :=
  if cadenceTicks = 0 then 0
  else
    let hash : BitVec 64 :=
      (List.range 8).foldl
        (fun hash k => (hash ^^^ ((instanceSeed >>> (8 * k)) &&& 255)) * 1099511628211)
        1469598103934665603
    ((hash ^^^ (id.setWidth 64 + 1)) * 1099511628211) % cadenceTicks

def restoredJob (durable : DurableJob) (definition : JobDefinition) (instanceSeed : BitVec 64) :
    JobHealth :=
  { nextDueTick :=
      if durable.workId ≠ 0 then 0
      else jobOffset definition.id definition.cadenceTicks instanceSeed
    workId := durable.workId
    cursor := durable.cursor
    active := durable.workId ≠ 0 && (durable.completionPending || durable.requestPending) }

def restoredJobs (records : Nat → DurableJob) (instanceSeed : BitVec 64) (index : Nat) :
    JobHealth :=
  match registry.find? (fun definition => indexOf definition.id = index) with
  | some definition => restoredJob (records index) definition instanceSeed
  | none => {}

def restoredCompletion (durable : DurableJob) : Option Result :=
  if durable.workId ≠ 0 ∧ durable.completionPending then some durable.completion else none

def restoredRequest (durable : DurableJob) (now : BitVec 64) : Option Request :=
  if durable.workId ≠ 0 ∧ !durable.completionPending ∧ durable.requestPending then
    some { durable.request with deadlineUsec := now + durable.request.timeBudgetUsec }
  else none

/-- `maintenance_scheduler_init` once the state is loaded. Pages of the catalogue of epic
tasks are kept in memory only, so it is read again from its beginning. Where the thread of
the worker is not `created`, what was restored stays. -/
def startFrom (s : State) (loaded : DurableState) (created : Bool) (instanceSeed now : BitVec 64) :
    State :=
  let jobs := Function.update loaded.jobs (indexOf .epicTaskCatalog) {}
  { s with
    durable := { loaded with jobs := jobs }
    jobs := restoredJobs jobs instanceSeed
    completions := s.completions ++
      registry.filterMap fun definition => restoredCompletion (jobs (indexOf definition.id))
    queue := s.queue ++
      registry.filterMap fun definition => restoredRequest (jobs (indexOf definition.id)) now
    stopRequested := false
    stopPending := false
    quiesced := false
    durableDirty := false
    running := created
    phase := if created then .created else .absent
    history := if created then .started :: s.history else s.history }

def schedulerInit (s : State) (readable created : Bool) (instanceSeed now : BitVec 64) : State :=
  match s.running, s.phase with
  | false, .absent =>
      if (loadState layout readable s.disk).2 then
        startFrom s (loadState layout readable s.disk).1 created instanceSeed now
      else { s with durable := (loadState layout readable s.disk).1 }
  | _, _ => s

def schedulerResume (s : State) : State :=
  if !s.stopRequested && s.running then { s with quiesced := false } else s

/-- `maintenance_scheduler_shutdown`, up to where it joins the worker. -/
def schedulerShutdown (s : State) : State :=
  { s with stopRequested := true, stopPending := true, queue := [] }

/-- The rest of `maintenance_scheduler_shutdown`. -/
def shutdownJoined (s : State) : State :=
  { s with
    queue := []
    completions := []
    jobs := fun index => { s.jobs index with active := false }
    running := false
    stopPending := false
    quiesced := false
    phase := .absent }

/-! ## The worker -/

/-- `sql_worker_thread_init` has returned. -/
def workerStarted (s : State) (ready : Bool) : State :=
  if ready then { s with phase := .waiting }
  else { s with running := false, stopRequested := true, phase := .exited }

def workerWake (s : State) : State :=
  match s.queue with
  | [] =>
      if s.durableDirty then { s with durableDirty := false, phase := .syncing s.durable }
      else if s.stopRequested then { s with phase := .exited }
      else s
  | request :: queue => { s with queue := queue, phase := .starting request }

def DurableJob.activated (request : Request) : DurableJob :=
  { workId := request.workId
    cursor := request.cursor
    requestPending := true
    request := request }

def workerMove (s : State) : State :=
  match s.phase with
  | .waiting => workerWake s
  | .syncFailed =>
      { s with durableDirty := s.durableDirty || !s.stopRequested, phase := .waiting }
  | .starting request =>
      let s := s.setDurable (indexOf request.jobId) (.activated request)
      { s with phase := .activating request s.durable }
  | .finishing request result =>
      let durable := s.durable.jobs (indexOf request.jobId)
      let s := s.setDurable (indexOf request.jobId)
        { durable with completionPending := true, completion := result }
      { s with phase := .completing request result s.durable }
  | .withdrawing request result =>
      let durable := s.durable.jobs (indexOf request.jobId)
      let s := s.setDurable (indexOf request.jobId)
        { durable with completionPending := false, completion := {} }
      { s with phase := .delivering result }
  | .delivering result =>
      let result := if s.stopRequested then { result with outcome := .cancelled } else result
      { s with completions := s.completions ++ [result], phase := .waiting }
  | _ => s

def workerPersist (s : State) (answer : Persisted) (elapsed : BitVec 64) : State :=
  match s.phase with
  | .syncing state =>
      { s with
        disk := persistState layout s.disk state answer
        phase :=
          match answer with
          | .written => .waiting
          | .failed _ => .syncFailed }
  | .activating request state =>
      { s with
        disk := persistState layout s.disk state answer
        phase :=
          match answer with
          | .written => .executing request
          | .failed _ =>
              .finishing request
                { request.unfinished .retryableFailure eio with runUsec := elapsed } }
  | .completing request result state =>
      { s with
        disk := persistState layout s.disk state answer
        phase :=
          match answer with
          | .written => .delivering result
          | .failed _ =>
              .withdrawing request { result with outcome := .retryableFailure, errorCode := eio } }
  | _ => s

inductive Reply where
  | returned (result : Result)
  | badAlloc
  | threw

def Reply.produced (reply : Reply) (request : Request) : Result :=
  match reply with
  | .returned result => result
  | .badAlloc => request.unfinished .retryableFailure enomem
  | .threw => request.unfinished .permanentFailure efault

def Reply.result (reply : Reply) (request : Request) (elapsed : BitVec 64) : Result :=
  if (reply.produced request).workId ≠ request.workId ∨
      (reply.produced request).jobId ≠ request.jobId then
    { request.unfinished .permanentFailure eproto with runUsec := elapsed }
  else { reply.produced request with runUsec := elapsed }

def settle (result : Result) : List HistoryEntry → List HistoryEntry
  | .executed request _ :: history => .executed request (some result) :: history
  | history => history

/-! ## Runs -/

inductive Event where
  | init (readable created : Bool) (instanceSeed now : BitVec 64)
  | pulse (tick : Tick) (capacity : Nat) (draws : List (Option WorkId)) (now : BitVec 64)
      (prepare : Prepare)
  | quiesce
  | resume
  | shutdown
  | joined
  | started (ready : Bool)
  | move
  | persist (answer : Persisted) (elapsed : BitVec 64)
  | call (now : BitVec 64)
  | reply (reply : Reply) (elapsed : BitVec 64)
  | crash

def step (s : State) : Event → State
  | .init readable created instanceSeed now =>
      schedulerInit layout s readable created instanceSeed now
  | .pulse tick capacity draws now prepare => pulse s tick capacity draws now prepare
  | .quiesce => { s with quiesced := true }
  | .resume => schedulerResume s
  | .shutdown => schedulerShutdown s
  | .joined =>
      match s.stopPending, s.phase with
      | true, .exited | true, .absent => shutdownJoined s
      | _, _ => s
  | .started ready =>
      match s.phase with
      | .created => workerStarted s ready
      | _ => s
  | .move => workerMove s
  | .persist answer elapsed => workerPersist layout s answer elapsed
  | .call now =>
      match s.phase with
      | .executing request =>
          let request := { request with deadlineUsec := now + request.timeBudgetUsec }
          { s with phase := .calling request, history := .executed request none :: s.history }
      | _ => s
  | .reply reply elapsed =>
      match s.phase with
      | .calling request =>
          let result := reply.result request elapsed
          { s with phase := .finishing request result, history := settle result s.history }
      | _ => s
  | .crash => { disk := s.disk, history := s.history }

/-! ## What a run keeps -/

/-- What a result says of the page its request is for. -/
def verdict : Option Result → PagedWork.Verdict Cursor
  | none => .again
  | some result =>
      match result.outcome with
      | .complete | .permanentFailure => .finished
      | .more => .more result.nextCursor
      | .retryableFailure | .cancelled => .again

/-- What an entry says of a job: a start abandons the catalogue of epic tasks. -/
def HistoryEntry.entry (job : JobId) : HistoryEntry → Option (PagedWork.Entry WorkId Cursor)
  | .started => if job = .epicTaskCatalog then some .abandoned else none
  | .executed request result =>
      if request.jobId = job then
        some (.ran ⟨request.workId, request.cursor⟩ (verdict result))
      else none

def State.log (s : State) (job : JobId) : List (PagedWork.Entry WorkId Cursor) :=
  s.history.filterMap (HistoryEntry.entry job)

/-- The jobs of the requests in the queue, at the worker and among the completions. -/
def State.held (s : State) : List JobId :=
  s.queue.map Request.jobId ++ s.phase.job.toList ++ s.completions.map Result.jobId

structure Resumable (layout : Layout) (s : State) : Prop where
  /-- What is about to be written will be accepted, and so will what is in the file. -/
  writes : ∀ state, s.phase.writing = some state →
    loadState layout true (some (stateFile layout state)) = (state, true)
  file : (loadState layout true s.disk).2 = true
  /-- A job has one request at most, so the queue has room for all jobs. -/
  held : s.held.Nodup
  queue : s.queue.length ≤ maintenanceQueueMax
  chained : ∀ job, PagedWork.Chained False (s.log job)

/-- A start that reads the file finds nothing left of one that had no thread. -/
def CleanStart (s : State) : Event → Prop
  | .init true _ _ _ =>
      s.running = false → s.phase = .absent → s.queue = [] ∧ s.completions = []
  | _ => True

/-- A new work does not take the name of one that has been executed. -/
def DistinctDraw (s : State) : Event → Prop
  | .pulse _ _ draws _ _ =>
      ∀ request result, .executed request result ∈ s.history →
        request.workId ≠ nextWorkId draws
  | _ => True

end Duris.Maintenance
