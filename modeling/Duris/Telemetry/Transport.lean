import Duris.Telemetry.ApplyResult
import Duris.Telemetry.ShutdownHandshake

/-!
# The telemetry transport

`src/telemetry/telemetry_transport.c`: one producer that enqueues records, one worker
that offers them to the repository in batches, and the owner that stops both.

The producer moves in four steps (its guard, its checks, the push, the end of the
guard). A pulse of the worker is one step up to its call of the repository and one from
the answer on, so that the producer and the owner may move while the repository works;
`drain_until` is a sequence of such pulses. What the clock and the repository say is in
the events. `ShutdownHandshake` has the admission word operation by operation; here the
word is the closed flag and whether the producer is inside.

`Ledger` is kept for the statements alone: what was admitted, what has a final answer
and what was offered. The health atoms that only reports read are left out.
-/

namespace Duris.Telemetry

def telemetryControlReserveProposal : Nat := 128

def telemetryFlushOldestUsecMaxProposal : Nat := 3600000000

def telemetryTransportMaxRetryAttempts : Nat := 8

def telemetryTransportRetryBackoffInitialUsec : Nat := 1000

def telemetryTransportRetryBackoffMaxUsec : Nat := 1000000

def telemetryTransportMaxDrainBatches : Nat := 64

def uint32Max : Nat := 2 ^ 32 - 1

inductive StorageBackend where
  | sql
  | flatfileDisabled
  | other
  deriving DecidableEq

structure TransportConfig where
  backend : StorageBackend := .sql
  reserved : Nat := 0
  schemaVersion : Nat := 0
  queueCapacity : Nat := 0
  controlReserve : Nat := 0
  maxBatchRecords : Nat := 0
  reserved2 : Nat := 0
  maxBatchBytes : Nat := 0
  flushOldestAfterUsec : Nat := 0
  freshProducer : ProducerId := {}

def TransportConfig.isBounded {Payload : Type} (format : RecordFormat Payload)
    (config : TransportConfig) : Bool :=
  config.schemaVersion = telemetrySchemaVersion ∧ config.reserved = 0 ∧ config.reserved2 = 0 ∧
    config.backend ≠ .other ∧ (config.freshProducer.isZero ∨ config.freshProducer.isValid) ∧
    0 < config.queueCapacity ∧ config.queueCapacity ≤ telemetryQueueCapacityProposal ∧
    0 < config.controlReserve ∧ config.controlReserve < config.queueCapacity ∧
    config.controlReserve ≤ telemetryControlReserveProposal ∧ 0 < config.maxBatchRecords ∧
    config.maxBatchRecords ≤ telemetryBatchMaxRecordsProposal ∧
    format.recordBytes ≤ config.maxBatchBytes ∧
    config.maxBatchBytes ≤ telemetryBatchMaxBytesProposal ∧ 0 < config.flushOldestAfterUsec ∧
    config.flushOldestAfterUsec ≤ telemetryFlushOldestUsecMaxProposal

inductive RepositoryOutcome where
  | ready
  | alreadyReady
  | invalidConfig
  | flatfileDisabled
  | unavailable
  | stopping
  | closed
  | permanentFailure
  | other
  deriving DecidableEq

inductive HealthState where
  | disabled
  | starting
  | healthy
  | degraded
  | stopping
  | stopped
  | circuitOpen
  deriving DecidableEq

inductive QueueAdmission where
  | acceptedDetail
  | acceptedControlReserve
  | rejectedInvalid
  | rejectedDisabled
  | rejectedStopping
  | rejectedDetailFull
  | rejectedControlFull
  | rejectedCircuitOpen
  deriving DecidableEq

/-! ## Counters -/

/-- The counters of `HEALTH` and, last, of `LOSS`. -/
inductive Counter where
  | admittedDetail
  | admittedControl
  | droppedDetail
  | droppedControl
  | appliedRecords
  | duplicateRecords
  | staleCheckpointRecords
  | invalidRecords
  | conflictRecords
  | rejectedDetail
  | rejectedControl
  deriving DecidableEq

abbrev Counters := Counter → Nat

def saturatingAdd (value amount : Nat) : Nat :=
  if amount > uint64Max - value then uint64Max else value + amount

def Counters.add (counters : Counters) (counter : Counter) (amount : Nat) : Counters :=
  Function.update counters counter (saturatingAdd (counters counter) amount)

def Counter.admitted (control : Bool) : Counter :=
  if control then .admittedControl else .admittedDetail

def Counter.dropped (control : Bool) : Counter :=
  if control then .droppedControl else .droppedDetail

def Counter.rejected (control : Bool) : Counter :=
  if control then .rejectedControl else .rejectedDetail

/-- The counter that `update_pulse_counts` raises for a record. -/
def ApplyOutcome.counter : ApplyOutcome → Option Counter
  | .applied => some .appliedRecords
  | .duplicateIdentical => some .duplicateRecords
  | .checkpointOlder => some .staleCheckpointRecords
  | .rejectedInvalid => some .invalidRecords
  | .quarantinedInvalid => some .invalidRecords
  | .duplicateConflict => some .conflictRecords
  | .retryableFailure | .commitAmbiguous | .unavailable | .disabled | .permanentFailure
  | .other => none

def Counters.addItem (counters : Counters) (item : RecordApplyResult) : Counters :=
  match item.outcome.counter with
  | some counter => counters.add counter 1
  | none => counters

/-- Records leave without an answer, `controls` of them control records. -/
def Counters.addDropped (counters : Counters) (count controls : Nat) : Counters :=
  (counters.add .droppedDetail (count - controls)).add .droppedControl controls

/-- The counting of `record_failed_admission`. -/
def Counters.recordFailedAdmission (counters : Counters) (control : Bool) : Counters :=
  (counters.add (.dropped control) 1).add (.rejected control) 1

/-! ## State -/

/-- The part of `inflight_state` that says which records are in flight. -/
structure Batch where
  active : Bool := false
  isolation : Bool := false
  count : Nat := 0
  controlCount : Nat := 0
  isolationIndex : Nat := 0
  deriving DecidableEq

structure Inflight extends Batch where
  resolutionRequired : Bool := false
  retryAttempts : Nat := 0
  retryNotBefore : Nat := 0

/-- Where the producer stands in `telemetry_transport_enqueue`. -/
inductive Enqueue (Payload : Type) where
  | outside
  | entered (record : Record Payload)
  /-- The record passed every check; before `try_push`. -/
  | cleared (record : Record Payload)
  | leaving (admission : QueueAdmission)

/-- Where `telemetry_transport_drain_until` stands in its loop. -/
structure Drain where
  deadline : Nat
  iteration : Nat

inductive Worker (Payload : Type) where
  | idle
  /-- Before the loop body of `drain_until`. -/
  | draining (drain : Drain)
  /-- Inside `REPOSITORY.apply`, called by a pulse or by a drain. -/
  | calling (drain : Option Drain) (now : Nat) (attempt : List (Record Payload))

structure Ledger where
  admitted : List RecordHeader := []
  answered : List RecordKey := []
  /-- The records the repository was called with, as often as it was. -/
  offered : List RecordKey := []

structure PulseResult (Outcome : Type) where
  outcome : Outcome
  examined : Nat := 0
  applied : Nat := 0
  duplicateOrStale : Nat := 0
  rejected : Nat := 0
  pending : Nat := 0

structure Transport (Payload : Type) where
  settings : TransportConfig := {}
  queue : Queue Payload := {}
  inflightRecords : List (Record Payload) := []
  inflight : Inflight := {}
  lastAdmittedKey : RecordKey := {}
  counters : Counters := fun _ => 0
  lifecycle : Lifecycle := .uninitialized
  stopRequested : Bool := false
  quiesced : Bool := false
  /-- A shutdown has completed since the last start. -/
  restartAllowed : Bool := false
  shutdownRequested : Bool := false
  admissionClosed : Bool := false
  repositoryReady : Bool := false
  circuitOpen : Bool := false
  repositoryRetryAttempts : Nat := 0
  repositoryRetryNotBefore : Nat := 0
  healthState : HealthState := .disabled
  enqueue : Enqueue Payload := .outside
  lastAdmission : Option QueueAdmission := none
  worker : Worker Payload := .idle
  ledger : Ledger := {}

namespace Transport

variable {Payload : Type} (format : RecordFormat Payload)

inductive Outcome where
  | started
  | alreadyStarted
  | invalidConfig
  | flatfileDisabled
  | unavailable
  | stopping
  | drained
  | deadlineReached
  deriving DecidableEq

abbrev Pulse := PulseResult Outcome

/-- Whether the count of `ADMISSION_STATE` is not zero. -/
def producerInside (s : Transport Payload) : Bool :=
  match s.enqueue with
  | .outside => false
  | .entered _ | .cleared _ | .leaving _ => true

/-! ## Health and retries -/

def setHealthState (s : Transport Payload) (state : HealthState) : Transport Payload :=
  { s with healthState := state }

def currentHealthState (s : Transport Payload) : HealthState :=
  if s.stopRequested ∧ s.healthState ≠ .stopped then .stopping else s.healthState

def pendingCount (s : Transport Payload) : Nat :=
  if s.queue.depth = 0 ∧ s.producerInside then 1 else s.queue.depth

def fillPending (s : Transport Payload) (pulse : Pulse) : Pulse :=
  { pulse with pending := if s.pendingCount > uint32Max then uint32Max else s.pendingCount }

def saturatingTimeAdd (value amount : Nat) : Nat :=
  if amount > uint64Max - value then uint64Max else value + amount

/-- The doublings of `retry_backoff` that are left. -/
def doubleBackoff : Nat → Nat → Nat
  | 0, backoff => backoff
  | rounds + 1, backoff =>
      if backoff < telemetryTransportRetryBackoffMaxUsec then
        doubleBackoff rounds
          (if backoff > telemetryTransportRetryBackoffMaxUsec / 2 then
            telemetryTransportRetryBackoffMaxUsec
          else backoff * 2)
      else backoff

def retryBackoff (attempts : Nat) : Nat :=
  doubleBackoff (attempts - 1) telemetryTransportRetryBackoffInitialUsec

def markFailure (s : Transport Payload) : Transport Payload :=
  if s.stopRequested then s else s.setHealthState .degraded

def openCircuit (s : Transport Payload) : Transport Payload :=
  let s := { s with circuitOpen := true }
  if s.stopRequested then s else s.setHealthState .circuitOpen

def countAttempt (s : Transport Payload) (ambiguous : Bool) : Transport Payload :=
  { s with
    inflight := { s.inflight with
      retryAttempts :=
        if s.inflight.retryAttempts < telemetryTransportMaxRetryAttempts then
          s.inflight.retryAttempts + 1
        else s.inflight.retryAttempts
      resolutionRequired := s.inflight.resolutionRequired || ambiguous } }

def retryAt (s : Transport Payload) (retryNotBefore : Nat) : Transport Payload :=
  { s with inflight := { s.inflight with retryNotBefore } }

/-- The end of `schedule_inflight_retry`: the circuit opens or a time is set. -/
def delayAttempt (s : Transport Payload) (now : Nat) (ambiguous : Bool) : Transport Payload :=
  if !ambiguous && telemetryTransportMaxRetryAttempts ≤ s.inflight.retryAttempts then
    s.openCircuit.retryAt uint64Max
  else
    (s.retryAt (saturatingTimeAdd now (retryBackoff s.inflight.retryAttempts))).markFailure

def scheduleInflightRetry (s : Transport Payload) (now : Nat) (ambiguous : Bool) :
    Transport Payload :=
  (s.countAttempt ambiguous).delayAttempt now ambiguous

def scheduleRepositoryRetry (s : Transport Payload) (now : Nat) : Transport Payload :=
  let attempts :=
    if s.repositoryRetryAttempts = uint32Max then uint32Max else s.repositoryRetryAttempts + 1
  markFailure
    { s with
      repositoryRetryAttempts := attempts
      repositoryRetryNotBefore := saturatingTimeAdd now (retryBackoff attempts) }

/-- What `ensure_repository` does with the answer of `REPOSITORY.init`. -/
def initAnswered (s : Transport Payload) (now : Nat) : RepositoryOutcome → Bool × Transport Payload
  | .ready | .alreadyReady =>
      let s := { s with
        repositoryReady := true, repositoryRetryAttempts := 0, repositoryRetryNotBefore := 0 }
      (true, if s.stopRequested then s else s.setHealthState .healthy)
  | .flatfileDisabled =>
      let s := s.setHealthState .disabled
      (false, if s.lifecycle = .active then { s with lifecycle := .disabled } else s)
  | .stopping | .closed =>
      (false, { s with stopRequested := true, lifecycle := .stopping, healthState := .stopping })
  | .permanentFailure => (false, s.openCircuit)
  | .invalidConfig | .unavailable | .other => (false, s.scheduleRepositoryRetry now)

/-- Whether the repository can be called, given what its `init` answers if it is. -/
def ensureRepository (s : Transport Payload) (now : Nat) (init : RepositoryOutcome) :
    Bool × Transport Payload :=
  if s.circuitOpen then (false, s)
  else if s.repositoryReady then (true, s)
  else if now < s.repositoryRetryNotBefore then (false, s)
  else s.initAnswered now init

/-! ## Batches -/

def shouldFlush (s : Transport Payload) (now : Nat) (force : Bool) : Bool :=
  if s.queue.physicalDepth = 0 then false
  else if force then true
  else if s.settings.maxBatchRecords ≤ s.queue.physicalDepth ∨
      s.settings.maxBatchBytes / format.recordBytes ≤ s.queue.physicalDepth then true
  else
    match s.queue.peek 0 with
    | none => false
    | some slot =>
        if !slot.admittedAtValid ∨ now < slot.admittedAtMonotonicUsec then true
        else s.settings.flushOldestAfterUsec ≤ now - slot.admittedAtMonotonicUsec

/-- `INFLIGHT = {}` -/
def resetInflight (s : Transport Payload) : Transport Payload := { s with inflight := {} }

/-- How many records `begin_batch` takes. -/
def batchLimit (s : Transport Payload) : Nat :=
  min (min s.queue.physicalDepth s.settings.maxBatchRecords)
    (s.settings.maxBatchBytes / format.recordBytes)

def beginBatch (s : Transport Payload) : Bool × Transport Payload :=
  if s.queue.physicalDepth = 0 then (false, s)
  else if s.batchLimit format = 0 then (false, s)
  else
    match (List.range (s.batchLimit format)).mapM s.queue.peek with
    | none => (false, s.resetInflight)
    | some slots =>
        let records := slots.map (·.record)
        (true, { s with
          inflightRecords := records
          inflight :=
            { active := true, count := s.batchLimit format
              controlCount := records.countP (·.isControl) } })

/-- The records of the next call: the whole batch, or the next one of an isolated batch. -/
def attemptRecords (s : Transport Payload) : List (Record Payload) :=
  if s.inflight.isolation then (s.inflightRecords.drop s.inflight.isolationIndex).take 1
  else s.inflightRecords.take s.inflight.count

def discardRecordsForDisabled (s : Transport Payload) : Transport Payload :=
  let count := s.queue.physicalDepth
  if count = 0 then s
  else
    let controls := (List.range count).countP fun index =>
      (s.queue.peek index).any (·.record.isControl)
    match s.queue.commit count controls with
    | some queue => { s with queue, counters := s.counters.addDropped count controls }
    | none => s

def discardInflightForDisabled (s : Transport Payload) : Transport Payload :=
  if !s.inflight.active then s
  else
    match s.queue.commit s.inflight.count s.inflight.controlCount with
    | some queue =>
        resetInflight
          { s with
            queue
            counters := s.counters.addDropped s.inflight.count s.inflight.controlCount }
    | none => s.resetInflight

def disableTransport (s : Transport Payload) : Transport Payload :=
  let s := s.discardInflightForDisabled.discardRecordsForDisabled
  { s with
    repositoryReady := false
    quiesced := true
    healthState := .disabled
    lifecycle := if s.lifecycle = .active then .disabled else s.lifecycle }

/-! ## The answers of the repository -/

def updatePulseCounts (s : Transport Payload) (result : ApplyBatchResult) (count : Nat)
    (pulse : Pulse) : Transport Payload × Pulse :=
  ({ s with counters := (result.items count).foldl Counters.addItem s.counters },
    { pulse with
      examined := pulse.examined + count
      applied := pulse.applied + result.appliedCount
      duplicateOrStale := pulse.duplicateOrStale +
        (result.duplicateCount + result.staleCheckpointCount)
      rejected := pulse.rejected + (result.invalidCount + result.conflictCount) })

def recordAnswers (s : Transport Payload) (attempt : List (Record Payload)) :
    Transport Payload :=
  { s with
    ledger := { s.ledger with
      answered := s.ledger.answered ++ attempt.map (·.header.key) } }

/-- The end of `handle_success`: a resolved batch leaves the queue. -/
def releaseBatch (s : Transport Payload) (now : Nat) : Transport Payload :=
  match s.queue.commit s.inflight.count s.inflight.controlCount with
  | some queue => { s with queue, inflight := {} }
  | none => s.markFailure.retryAt now

def reportSuccess (s : Transport Payload) (result : ApplyBatchResult) : Transport Payload :=
  if s.stopRequested then s
  else if result.invalidCount ≠ 0 ∨ result.conflictCount ≠ 0 ∨ result.quarantinedCount ≠ 0 then
    s.setHealthState .degraded
  else s.setHealthState .healthy

def nextIsolated (s : Transport Payload) : Transport Payload :=
  { s with
    inflight := { s.inflight with
      isolationIndex := s.inflight.isolationIndex + 1, retryAttempts := 0, retryNotBefore := 0 } }

def advanceBatch (s : Transport Payload) (now : Nat) : Transport Payload :=
  if s.inflight.isolation then
    if s.nextIsolated.inflight.isolationIndex < s.inflight.count then s.nextIsolated
    else s.nextIsolated.releaseBatch now
  else s.releaseBatch now

def handleSuccess (s : Transport Payload) (result : ApplyBatchResult)
    (attempt : List (Record Payload)) (now : Nat) (pulse : Pulse) :
    Transport Payload × Pulse :=
  let (counted, pulse) := s.updatePulseCounts result attempt.length pulse
  (((counted.recordAnswers attempt).reportSuccess result).advanceBatch now, pulse)

def handleCorruptCallback (s : Transport Payload) (now : Nat) : Transport Payload :=
  scheduleInflightRetry
    { s with inflight := { s.inflight with resolutionRequired := true } } now false

def handleDisabledCallback (s : Transport Payload) (result : ApplyBatchResult) (now : Nat)
    (pulse : Pulse) : Transport Payload × Pulse :=
  if !result.validateEarlyResult then
    (s.handleCorruptCallback now, { pulse with outcome := .unavailable })
  else (s.disableTransport, { pulse with outcome := .flatfileDisabled })

def handleRetryResult (s : Transport Payload) (result : ApplyBatchResult) (now : Nat) :
    Transport Payload :=
  let ambiguous := result.outcome = .commitAmbiguous
  let s :=
    if result.outcome = .unavailable then
      scheduleRepositoryRetry { s with repositoryReady := false } now
    else s
  s.scheduleInflightRetry now ambiguous

def startIsolation (s : Transport Payload) : Transport Payload :=
  { s with
    inflight := { s.inflight with
      isolation := true, isolationIndex := 0, retryAttempts := 0, retryNotBefore := 0 } }

/-- The answer made up for one record of an invalid batch. -/
def rejection (key : RecordKey) : ApplyBatchResult :=
  { outcome := .committedWithRejections
    inputCount := 1
    resultCount := 1
    invalidCount := 1
    firstRecordSeq := key.recordSeq
    lastRecordSeq := key.recordSeq
    results := Vector.ofFn fun i =>
      if i.val = 0 then { key, outcome := .rejectedInvalid } else {} }

def attemptIndex (s : Transport Payload) : Nat :=
  if s.inflight.isolation then s.inflight.isolationIndex else 0

/-- `handle_invalid_batch` for a single record: the record is the invalid one. -/
def rejectRecord (s : Transport Payload) (now : Nat) (pulse : Pulse) :
    Transport Payload × Pulse :=
  match s.inflightRecords[s.attemptIndex]? with
  | some record => s.handleSuccess (rejection record.header.key) [record] now pulse
  | none => (s, pulse)

def handleInvalidBatch (s : Transport Payload) (now : Nat) (pulse : Pulse) :
    Transport Payload × Pulse :=
  if 1 < s.inflight.count ∧ !s.inflight.isolation then (s.startIsolation, pulse)
  else s.rejectRecord now pulse

def setRepositoryUnavailable (s : Transport Payload) (pulse : Pulse) : Pulse :=
  { pulse with
    outcome :=
      if s.lifecycle = .disabled then .flatfileDisabled
      else if s.currentHealthState = .stopping then .stopping
      else .unavailable }

/-- `attempt_inflight`, up to the call of the repository. -/
def attemptInflight (s : Transport Payload) (drain : Option Drain) (now : Nat)
    (init : RepositoryOutcome) (pulse : Pulse) : Transport Payload × Option Pulse :=
  match s.ensureRepository now init with
  | (true, s) =>
      ({ s with
        worker := .calling drain now s.attemptRecords
        ledger := { s.ledger with
          offered := s.ledger.offered ++ s.attemptRecords.map (·.header.key) } }, none)
  | (false, s) => (s, some (s.fillPending (s.setRepositoryUnavailable pulse)))

/-- `attempt_inflight`, from the answer of the repository on. -/
def answerInflight (s : Transport Payload) (attempt : List (Record Payload)) (now : Nat)
    (result : ApplyBatchResult) (pulse : Pulse) : Transport Payload × Pulse :=
  let unavailable := { pulse with outcome := .unavailable }
  if s.inflight.resolutionRequired ∧
      (result.outcome = .invalidBatch ∨ result.outcome = .disabled) then
    (s.scheduleInflightRetry now true, unavailable)
  else
    match result.outcome with
    | .disabled => s.handleDisabledCallback result now pulse
    | .unavailable =>
        if result.validateEarlyResult then (s.handleRetryResult result now, unavailable)
        else (s.handleCorruptCallback now, unavailable)
    | .invalidBatch =>
        if result.validateEarlyResult then s.handleInvalidBatch now pulse
        else (s.handleCorruptCallback now, pulse)
    | .retryableFailure | .commitAmbiguous =>
        if result.validateFullResult attempt true then
          (s.handleRetryResult result now, unavailable)
        else (s.handleCorruptCallback now, unavailable)
    | .permanentFailure =>
        if result.validateFullResult attempt true then (s.openCircuit, unavailable)
        else (s.handleCorruptCallback now, unavailable)
    | .committed | .committedWithRejections =>
        if result.validateFullResult attempt false then
          s.handleSuccess result attempt now pulse
        else (s.handleCorruptCallback now, unavailable)
    | .other => (s.handleCorruptCallback now, unavailable)

/-! ## The worker -/

def flushBatch (s : Transport Payload) (now : Nat) (force : Bool) : Bool × Transport Payload :=
  if s.queue.physicalDepth ≠ 0 ∧ s.shouldFlush format now (force || s.stopRequested) then
    s.beginBatch format
  else (false, s)

/-- The outcome of a pulse that had nothing to offer. -/
def idleOutcome (s : Transport Payload) : Outcome :=
  if s.stopRequested then .stopping
  else if !s.repositoryReady then .unavailable
  else .drained

/-- `pulse_impl` behind its call of `ensure_repository`. -/
def pulseReady (s : Transport Payload) (drain : Option Drain) (now : Nat) (force : Bool)
    (init : RepositoryOutcome) : Transport Payload × Option Pulse :=
  if s.inflight.active then
    if now < s.inflight.retryNotBefore then (s, some (s.fillPending { outcome := .unavailable }))
    else s.attemptInflight drain now init { outcome := .drained }
  else
    match s.flushBatch format now force with
    | (true, s) => s.attemptInflight drain now init { outcome := .drained }
    | (false, s) => (s, some (s.fillPending { outcome := s.idleOutcome }))

/-- `pulse_impl`, up to its call of the repository; without one it has its result. -/
def pulseImpl (s : Transport Payload) (drain : Option Drain) (now : Nat) (force : Bool)
    (init : RepositoryOutcome) : Transport Payload × Option Pulse :=
  if s.lifecycle = .uninitialized ∨ s.lifecycle = .stopped then
    (s, some (s.fillPending { outcome := .unavailable }))
  else if s.lifecycle = .disabled then
    (s, some (s.fillPending { outcome := .flatfileDisabled }))
  else if s.circuitOpen then (s, some (s.fillPending { outcome := .unavailable }))
  else if s.stopRequested ∧ s.pendingCount = 0 then
    (s.setHealthState .stopped, some { outcome := .drained })
  else
    match s.ensureRepository now init with
    | (true, s) => s.pulseReady format drain now force init
    | (false, s) => (s, some (s.fillPending (s.setRepositoryUnavailable { outcome := .drained })))

/-- Whether `drain_until` leaves its loop behind a pulse. -/
def drainEnds (s : Transport Payload) (drain : Drain) (now : Nat) (called : Bool)
    (pulse : Pulse) : Bool :=
  pulse.outcome = .flatfileDisabled ∨
    (pulse.outcome = .unavailable ∧ s.inflight.active ∧ now < s.inflight.retryNotBefore) ∨
    pulse.pending = 0 ∨ (!called ∧ pulse.outcome ≠ .drained) ∨
    (!called ∧ s.inflight.active ∧ s.inflight.retryNotBefore ≤ now) ∨
    telemetryTransportMaxDrainBatches ≤ drain.iteration + 1

/-- The end of `drain_until`. -/
def endDrain (s : Transport Payload) (pulse : Pulse) : Transport Payload :=
  if pulse.outcome ≠ .flatfileDisabled ∧ pulse.pending = 0 ∧ s.stopRequested ∧
      s.pendingCount = 0 then
    { s with worker := .idle, healthState := .stopped }
  else { s with worker := .idle }

/-- What follows a pulse: the next round of a drain, or the end of the call. -/
def finishPulse (s : Transport Payload) (drain : Option Drain) (now : Nat) (called : Bool)
    (pulse : Pulse) : Transport Payload :=
  match drain with
  | none => { s with worker := .idle }
  | some drain =>
      if s.drainEnds drain now called pulse then s.endDrain pulse
      else { s with worker := .draining { drain with iteration := drain.iteration + 1 } }

/-- A pulse of the worker, as far as it goes without the repository's answer. -/
def workerPulse (s : Transport Payload) (drain : Option Drain) (now : Nat) (force : Bool)
    (init : RepositoryOutcome) : Transport Payload :=
  match s.pulseImpl format drain now force init with
  | (s, none) => s
  | (s, some pulse) => s.finishPulse drain now false pulse

/-! ## Shutdown -/

/-- The end of `finalize_shutdown`, behind the exchange of the admission word. -/
def finalizeBody (s : Transport Payload) : Transport Payload :=
  let counters :=
    if !s.inflight.active ∧ s.queue.controlDepth ≤ s.queue.depth then
      s.counters.addDropped s.queue.depth s.queue.controlDepth
    else s.counters
  { s with
    counters
    queue := s.queue.reset
    inflight := {}
    repositoryRetryAttempts := 0
    repositoryRetryNotBefore := 0
    repositoryReady := false
    quiesced := true
    stopRequested := false
    restartAllowed := true
    shutdownRequested := false
    healthState := .stopped
    lifecycle := .stopped
    admissionClosed := false }

def finalizeShutdown (s : Transport Payload) : Transport Payload :=
  let s := { s with admissionClosed := true }
  if s.producerInside then s else s.finalizeBody

def telemetryTransportRequestStop (s : Transport Payload) : Transport Payload :=
  { s with
    admissionClosed := true, stopRequested := true, quiesced := true, lifecycle := .stopping
    healthState := .stopping }

def telemetryTransportShutdown (s : Transport Payload) : Transport Payload :=
  if s.lifecycle = .stopped then s
  else
    finalizeShutdown
      { s with
        stopRequested := true, quiesced := true, lifecycle := .stopping, healthState := .stopping
        shutdownRequested := true }

/-! ## The producer -/

/-- The constructor of `producer_guard`. -/
def enterGuard (s : Transport Payload) (record : Record Payload) : Transport Payload :=
  if s.admissionClosed ∨ s.lifecycle ≠ .active then
    { s with
      lastAdmission :=
        if s.stopRequested ∨ s.lifecycle = .stopping then some .rejectedStopping
        else some .rejectedDisabled }
  else if s.shutdownRequested then
    finalizeShutdown { s with lastAdmission := some .rejectedDisabled }
  else { s with enqueue := .entered record }

/-- The destructor of `producer_guard`. -/
def leaveGuard (s : Transport Payload) (admission : QueueAdmission) : Transport Payload :=
  let s := { s with enqueue := .outside, lastAdmission := some admission }
  if s.shutdownRequested then s.finalizeShutdown else s

/-- The checks of `telemetry_transport_enqueue`. -/
def checkAdmission (s : Transport Payload) (record : Record Payload) : Transport Payload :=
  let key := record.header.key
  if s.lifecycle = .disabled then { s with enqueue := .leaving .rejectedDisabled }
  else if s.lifecycle ≠ .active ∨ s.stopRequested ∨ s.quiesced then
    { s with
      enqueue :=
        if s.stopRequested ∨ s.quiesced ∨ s.lifecycle = .stopping then .leaving .rejectedStopping
        else .leaving .rejectedDisabled }
  else if !record.isValid format ∨ (s.lastAdmittedKey.recordSeq ≠ 0 ∧
      (key.producer ≠ s.lastAdmittedKey.producer ∨
        key.recordSeq ≤ s.lastAdmittedKey.recordSeq)) then
    { s with enqueue := .leaving .rejectedInvalid }
  else if s.circuitOpen ∧ !record.isControl then
    { s with
      counters := s.counters.recordFailedAdmission false
      enqueue := .leaving .rejectedCircuitOpen }
  else { s with enqueue := .cleared record }

/-- `try_push` and what `telemetry_transport_enqueue` does with its result. -/
def pushRecord (s : Transport Payload) (record : Record Payload) (clock : Option Nat) :
    Transport Payload :=
  let control := record.isControl
  match s.queue.tryPush record (clock.getD 0) clock.isSome control with
  | none =>
      { s with
        counters := s.counters.recordFailedAdmission control
        enqueue := .leaving (if control then .rejectedControlFull else .rejectedDetailFull) }
  | some queue =>
      { s with
        queue
        lastAdmittedKey := record.header.key
        counters := s.counters.add (.admitted control) 1
        enqueue := .leaving (if control then .acceptedControlReserve else .acceptedDetail)
        ledger := { s.ledger with admitted := s.ledger.admitted ++ [record.header] } }

/-! ## Start and steps -/

/-- What `telemetry_transport_init` resets. -/
def resetFor (s : Transport Payload) (config : TransportConfig) : Transport Payload :=
  { s with
    settings := config
    lastAdmittedKey := {}
    queue := s.queue.initialized config.queueCapacity config.controlReserve
    inflight := {}
    counters := fun _ => 0
    quiesced := false
    restartAllowed := false
    shutdownRequested := false
    repositoryReady := false
    circuitOpen := false
    ledger := {} }

def telemetryTransportInit (s : Transport Payload) (config : TransportConfig) :
    Outcome × Transport Payload :=
  if s.stopRequested then (.stopping, s)
  else if !config.isBounded format then (.invalidConfig, s)
  else if s.lifecycle = .active ∨ s.lifecycle = .starting then (.alreadyStarted, s)
  else if s.lifecycle = .stopping then (.stopping, s)
  else if s.lifecycle = .stopped ∧ !s.restartAllowed then (.stopping, s)
  else if s.lifecycle = .disabled then (.unavailable, s)
  else if config.backend = .flatfileDisabled then
    (.flatfileDisabled,
      { s.resetFor config with healthState := .disabled, lifecycle := .disabled })
  else
    (.started,
      { s.resetFor config with
        repositoryRetryAttempts := 0, repositoryRetryNotBefore := 0
        healthState := .starting, lifecycle := .active })

inductive Event (Payload : Type) where
  | enqueue (record : Record Payload)
  | check
  | push (clock : Option Nat)
  | leave
  | pulse (now : Nat) (init : RepositoryOutcome)
  | drainUntil (deadline : Nat)
  | drainPulse (clock : Option Nat) (init : RepositoryOutcome)
  | answer (result : ApplyBatchResult)
  | requestStop
  | shutdown

/-- A move that its party is not at changes nothing. Once the shutdown was called, the
worker has been joined. -/
def step (s : Transport Payload) :
    Event Payload → Transport Payload
  | .enqueue record =>
      match s.enqueue with
      | .outside => s.enterGuard record
      | _ => s
  | .check =>
      match s.enqueue with
      | .entered record => s.checkAdmission format record
      | _ => s
  | .push clock =>
      match s.enqueue with
      | .cleared record => s.pushRecord record clock
      | _ => s
  | .leave =>
      match s.enqueue with
      | .leaving admission => s.leaveGuard admission
      | _ => s
  | .pulse now init =>
      match s.worker with
      | .idle => if s.shutdownRequested then s else s.workerPulse format none now false init
      | _ => s
  | .drainUntil deadline =>
      match s.worker with
      | .idle =>
          if s.shutdownRequested then s
          else { s with worker := .draining { deadline, iteration := 0 } }
      | _ => s
  | .drainPulse clock init =>
      match s.worker with
      | .draining drain =>
          let now := clock.getD drain.deadline
          if drain.deadline < now then { s with worker := .idle }
          else s.workerPulse format (some drain) now true init
      | _ => s
  | .answer result =>
      match s.worker with
      | .calling drain now attempt =>
          let (s, pulse) := s.answerInflight attempt now result { outcome := .drained }
          s.finishPulse drain now true (s.fillPending pulse)
      | _ => s
  | .requestStop => s.telemetryTransportRequestStop
  | .shutdown =>
      match s.worker with
      | .idle => s.telemetryTransportShutdown
      | _ => s

end Transport

end Duris.Telemetry
