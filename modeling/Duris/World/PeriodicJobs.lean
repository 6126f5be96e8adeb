import Duris.Lib.Run
import Duris.Lib.LittleEndian

/-!
# Periodic jobs of the event scheduler

`src/world/nevent_periodic.c`: the table of periodic jobs, the functions that register,
switch, start, complete and re-arm them, and the watchdog that runs at the end of every
event pass. Of the scheduler itself (`src/world/new_events.c`) the model has what these
functions see: the tick, whether the pass of the tick has begun, and the due tick and the
state of the event a job holds.

A panic leaves the state as it is. What the environment decides is in the event of a step:
the order of the calls, and whether `add_event` finds room for an event. A deferral by the
budget leaves the due tick of an event alone, so it is the pass ending before the job has
begun. All calls are made on the game thread. The texts of the last failures are left out.
-/

namespace Duris.Periodic

def ullMax : Nat := 2 ^ 64 - 1
def intMax : Nat := 2 ^ 31 - 1

def periodicMaxJobs : Nat := 32
def periodicWatchdogRetry : Nat := 4
def periodicKeyLength : Nat := 48

inductive Policy where
  | fixedDelay
  | fixedRate
  deriving DecidableEq, Repr

/-- `nevent_periodic_result`, less the wrong thread. -/
inductive Result where
  | registered
  | duplicateSuppressed
  | enabled
  | disabled
  | unknownKey
  | invalidDefinition
  | capacityExhausted
  | scheduleFailed
  deriving DecidableEq, Repr

/-- The event a job's handle names: its due tick, and whether it is still active. -/
structure Handle where
  dueTick : Nat
  active : Bool
  deriving DecidableEq, Repr

structure Job where
  key : Bytes
  callback : Nat
  policy : Policy
  enabled : Bool
  disarming : Bool := false
  running : Bool := false
  runFailed : Bool := false
  runContinuation : Bool := false
  nextDelayOverridden : Bool := false
  hasStarted : Bool := false
  hasSucceeded : Bool := false
  initialDelay : Nat
  interval : Nat
  nextDelay : Nat := 0
  nextDueTick : Nat
  nextWatchdogTick : Nat := 0
  lastStartedTick : Nat := 0
  lastSuccessTick : Nat := 0
  totalRuns : Nat := 0
  completedRuns : Nat := 0
  continuationSlices : Nat := 0
  callbackFailures : Nat := 0
  consecutiveFailures : Nat := 0
  scheduleFailures : Nat := 0
  missedRuns : Nat := 0
  watchdogRearms : Nat := 0
  duplicatesSuppressed : Nat := 0
  handle : Option Handle := none
  deriving DecidableEq, Repr

/-- The jobs in the order of their registration; `current` is the index of
`periodic_current_job`. -/
structure State where
  tick : Nat := 0
  afterEventsCall : Bool := false
  jobs : List Job := []
  current : Option Nat := none
  deriving DecidableEq, Repr

/-- `periodic_add_ticks`, `nevent_add_ticks`. -/
def addTicks (tick delay : Nat) : Nat := if ullMax - tick < delay then ullMax else tick + delay

def counted (counter : Nat) (n : Nat) : Nat := (counter + n) % (ullMax + 1)

def firstEligibleTick (tick : Nat) (afterEventsCall : Bool) : Nat :=
  addTicks tick (if afterEventsCall then 1 else 0)

/-- `periodic_handle_matches`: an active event of a job has the job's number and callback. -/
def Job.armed (job : Job) : Bool :=
  match job.handle with
  | some handle => handle.active
  | none => false

/-- `nevent_cancel` on the event of the job. -/
def Job.cancelEvent (job : Job) : Job :=
  { job with handle := job.handle.map fun handle => { handle with active := false } }

def noteScheduleFailure (tick : Nat) (job : Job) : Job :=
  { job with
    scheduleFailures := counted job.scheduleFailures 1
    nextWatchdogTick := addTicks tick periodicWatchdogRetry }

/-- `periodic_schedule_at`; `added` is whether `add_event` schedules. -/
def scheduleAt (tick : Nat) (afterEventsCall added : Bool) (job : Job) (dueTick : Nat) :
    Job × Bool :=
  if !job.enabled then (job, false)
  else
    let dueTick := if dueTick ≤ tick then addTicks tick 1 else dueTick
    if dueTick = ullMax ∨ intMax < dueTick - tick then (noteScheduleFailure tick job, false)
    else if !added then (noteScheduleFailure tick job, false)
    else
      let eventDue :=
        max (addTicks tick (dueTick - tick)) (firstEligibleTick tick afterEventsCall)
      ({ job with
          handle := some ⟨eventDue, true⟩
          nextDueTick := eventDue
          nextWatchdogTick := 0 }, true)

/-- The slots from `dueTick` on that have passed, counted as missed, and the due tick after
them. -/
def skipMissed (tick : Nat) (job : Job) (dueTick : Nat) : Job × Nat :=
  let missed := (tick - dueTick) / job.interval + 1
  let job := { job with missedRuns := counted job.missedRuns missed }
  if (ullMax - dueTick) / job.interval < missed then (job, ullMax)
  else (job, dueTick + missed * job.interval)

def fixedRateDue (tick : Nat) (job : Job) : Job × Nat :=
  let dueTick := addTicks job.nextDueTick job.interval
  if tick < dueTick then (job, dueTick)
  else if dueTick = ullMax then (job, dueTick)
  else skipMissed tick job dueTick

/-- `periodic_find_job`, with the index of the job. -/
def findJob (jobs : List Job) (key : Bytes) : Option (Nat × Job) := do
  let index ← jobs.findIdx? (·.key == key)
  let job ← jobs[index]?
  some (index, job)

def Job.suppressDuplicate (job : Job) : Job :=
  { job with duplicatesSuppressed := counted job.duplicatesSuppressed 1 }

/-- The job a registration enters, before it is scheduled. -/
def newJob (tick : Nat) (key : Bytes) (callback initialDelay interval : Nat) (policy : Policy)
    (enabled : Bool) : Job :=
  { key, callback, policy, enabled, initialDelay, interval
    nextDueTick := addTicks tick initialDelay }

def register (s : State) (key : Option Bytes) (callback : Option Nat)
    (initialDelay interval : Nat) (policy : Policy) (enabled added : Bool) : State × Result :=
  match key, callback with
  | some key, some callback =>
      if key = [] ∨ periodicKeyLength ≤ key.length ∨ initialDelay = 0 ∨ intMax < initialDelay ∨
          interval = 0 ∨ intMax < interval then
        (s, .invalidDefinition)
      else
        match findJob s.jobs key with
        | some (index, existing) =>
            if existing.callback ≠ callback ∨ existing.initialDelay ≠ initialDelay ∨
                existing.interval ≠ interval ∨ existing.policy ≠ policy ∨
                existing.enabled ≠ enabled then
              (s, .invalidDefinition)
            else
              ({ s with jobs := s.jobs.set index existing.suppressDuplicate },
                .duplicateSuppressed)
        | none =>
            if s.jobs.any (·.callback == callback) then (s, .invalidDefinition)
            else if periodicMaxJobs ≤ s.jobs.length then (s, .capacityExhausted)
            else
              let job := newJob s.tick key callback initialDelay interval policy enabled
              if enabled then
                let (job, scheduled) :=
                  scheduleAt s.tick s.afterEventsCall added job job.nextDueTick
                ({ s with jobs := s.jobs ++ [job] },
                  if scheduled then .registered else .scheduleFailed)
              else ({ s with jobs := s.jobs ++ [job] }, .registered)
  | _, _ => (s, .invalidDefinition)

/-- The branch of `nevent_periodic_set_enabled` that switches a job off. -/
def disableJob (job : Job) : Job :=
  let job := { job with enabled := false }
  if job.armed then { job.cancelEvent with disarming := true } else { job with handle := none }

def setEnabled (s : State) (key : Bytes) (enabled : Bool) (initialDelay : Nat) (added : Bool) :
    State × Result :=
  match findJob s.jobs key with
  | none => (s, .unknownKey)
  | some (index, job) =>
      if job.enabled = enabled then
        ({ s with jobs := s.jobs.set index job.suppressDuplicate }, .duplicateSuppressed)
      else if !enabled then
        ({ s with jobs := s.jobs.set index (disableJob job) }, .disabled)
      else if initialDelay = 0 ∨ intMax < initialDelay then (s, .invalidDefinition)
      else
        let job :=
          { job with
            enabled := true
            initialDelay := initialDelay
            nextDueTick := addTicks s.tick initialDelay }
        let (job, scheduled) := scheduleAt s.tick s.afterEventsCall added job job.nextDueTick
        ({ s with jobs := s.jobs.set index job },
          if scheduled then .enabled else .scheduleFailed)

def reset (s : State) : State := { s with jobs := [], current := none }

/-- The part of `nevent_periodic_begin` that writes the job. -/
def beginJob (tick : Nat) (job : Job) : Job :=
  { job with
    handle := none
    running := true
    runFailed := false
    runContinuation := false
    nextDelayOverridden := false
    hasStarted := true
    lastStartedTick := tick
    totalRuns := counted job.totalRuns 1 }

/-- `nevent_periodic_begin` on the event of a job, which the pass takes when it is active and
due. -/
def begin (s : State) (index : Nat) : Option State := do
  let job ← s.jobs[index]?
  let handle ← job.handle
  if handle.active ∧ handle.dueTick ≤ s.tick ∧ s.afterEventsCall ∧ s.current = none ∧
      job.running = false then
    some { s with
      jobs := s.jobs.set index (beginJob s.tick job)
      current := some index }
  else none

/-- What `nevent_periodic_complete` counts of the run that ends. -/
def countRun (tick : Nat) (job : Job) : Job :=
  let job :=
    if job.runContinuation then
      { job with continuationSlices := counted job.continuationSlices 1 }
    else job
  if job.runFailed then
    { job with
      callbackFailures := counted job.callbackFailures 1
      consecutiveFailures := counted job.consecutiveFailures 1 }
  else if !job.runContinuation then
    { job with
      hasSucceeded := true
      lastSuccessTick := tick
      consecutiveFailures := 0
      completedRuns := counted job.completedRuns 1 }
  else job

/-- The due tick `nevent_periodic_complete` chooses. -/
def successorDue (tick : Nat) (job : Job) : Job × Nat :=
  if job.nextDelayOverridden then (job, addTicks tick job.nextDelay)
  else
    match job.policy with
    | .fixedRate => fixedRateDue tick job
    | .fixedDelay => (job, addTicks tick job.interval)

/-- `nevent_periodic_complete` on the running job. -/
def completeJob (tick : Nat) (afterEventsCall added : Bool) (job : Job) : Job :=
  let job := countRun tick job
  if !job.enabled then { job with running := false }
  else
    let (job, dueTick) := successorDue tick job
    let (job, _) :=
      scheduleAt tick afterEventsCall added { job with nextDueTick := dueTick } dueTick
    { job with running := false }

def complete (s : State) (added : Bool) : Option State := do
  let index ← s.current
  let job ← s.jobs[index]?
  if job.running then
    some { s with
      jobs := s.jobs.set index (completeJob s.tick s.afterEventsCall added job)
      current := none }
  else none

/-- A call of the running callback, which writes the current job. -/
def ofCurrent (s : State) (write : Job → Job) : Option State := do
  let index ← s.current
  some { s with jobs := s.jobs.modify index write }

def markFailure (s : State) : Option State := ofCurrent s fun job => { job with runFailed := true }

def validDelay (delay : Nat) : Bool := delay ≠ 0 && delay ≤ intMax

def retryAfter (s : State) (delay : Nat) : Option State :=
  if validDelay delay then
    ofCurrent s fun job =>
      { job with runFailed := true, nextDelay := delay, nextDelayOverridden := true }
  else none

def nextAfter (s : State) (delay : Nat) : Option State :=
  if validDelay delay then
    ofCurrent s fun job => { job with nextDelay := delay, nextDelayOverridden := true }
  else none

def continueAfter (s : State) (delay : Nat) : Option State :=
  if validDelay delay then
    ofCurrent s fun job =>
      { job with runContinuation := true, nextDelay := delay, nextDelayOverridden := true }
  else none

def watchdogDue (tick : Nat) (job : Job) : Job × Nat :=
  if tick < job.nextDueTick then (job, job.nextDueTick)
  else if job.policy = .fixedRate ∧ job.nextDueTick ≠ 0 ∧ job.interval ≠ 0 then
    skipMissed tick job job.nextDueTick
  else ({ job with missedRuns := counted job.missedRuns 1 }, addTicks tick 1)

/-- The watchdog on a job without an active event. -/
def rearmJob (tick : Nat) (afterEventsCall added : Bool) (job : Job) : Job :=
  let job := { job with handle := none }
  if tick < job.nextWatchdogTick then job
  else
    let (job, dueTick) := watchdogDue tick job
    let job :=
      { job with
        watchdogRearms := counted job.watchdogRearms 1
        nextDueTick := dueTick }
    (scheduleAt tick afterEventsCall added job dueTick).1

/-- `nevent_periodic_watchdog` on one job. -/
def watchdogJob (tick : Nat) (afterEventsCall added : Bool) (job : Job) : Job :=
  if job.disarming && job.armed then job
  else
    let job := if job.disarming then { job with handle := none, disarming := false } else job
    if !job.enabled || job.running then job
    else
      match job.handle with
      | some ⟨dueTick, true⟩ => { job with nextDueTick := dueTick }
      | _ => rearmJob tick afterEventsCall added job

/-- `nevent_periodic_watchdog`; `added` says which of the events find room. -/
def watchdog (s : State) (added : Nat → Bool) : State :=
  { s with
    jobs := s.jobs.mapIdx fun index job =>
      watchdogJob s.tick s.afterEventsCall (added index) job }

def advanceTick (s : State) : Option State :=
  if s.afterEventsCall ∧ s.tick ≠ ullMax then
    some { s with tick := s.tick + 1, afterEventsCall := false }
  else none

/-- The start of `ne_events`. -/
def beginPass (s : State) : Option State :=
  if s.afterEventsCall then none else some { s with afterEventsCall := true }

def cancel (s : State) (index : Nat) : State :=
  { s with jobs := s.jobs.modify index Job.cancelEvent }

/-- `nevent_reschedule_at` on the event of a job, when it is applied. -/
def reschedule (s : State) (index dueTick : Nat) : State :=
  { s with
    jobs := s.jobs.modify index fun job =>
      { job with
        handle := job.handle.map fun handle =>
          if handle.active then
            { handle with
              dueTick := max dueTick (firstEligibleTick s.tick s.afterEventsCall) }
          else handle } }

/-- What the scheduler, the callbacks and the rest of the server do with the jobs. -/
inductive Event where
  | advanceTick
  | beginPass
  | register (key : Option Bytes) (callback : Option Nat) (initialDelay interval : Nat)
      (policy : Policy) (enabled added : Bool)
  | setEnabled (key : Bytes) (enabled : Bool) (initialDelay : Nat) (added : Bool)
  | reset
  | begin (index : Nat)
  | complete (added : Bool)
  | markFailure
  | retryAfter (delay : Nat)
  | nextAfter (delay : Nat)
  | continueAfter (delay : Nat)
  | cancel (index : Nat)
  | reschedule (index dueTick : Nat)
  | watchdog (added : Nat → Bool)

def step (s : State) : Event → State
  | .advanceTick => (advanceTick s).getD s
  | .beginPass => (beginPass s).getD s
  | .register key callback initialDelay interval policy enabled added =>
      (register s key callback initialDelay interval policy enabled added).1
  | .setEnabled key enabled initialDelay added =>
      (setEnabled s key enabled initialDelay added).1
  | .reset => reset s
  | .begin index => (begin s index).getD s
  | .complete added => (complete s added).getD s
  | .markFailure => (markFailure s).getD s
  | .retryAfter delay => (retryAfter s delay).getD s
  | .nextAfter delay => (nextAfter s delay).getD s
  | .continueAfter delay => (continueAfter s delay).getD s
  | .cancel index => cancel s index
  | .reschedule index dueTick => reschedule s index dueTick
  | .watchdog added => watchdog s added

end Duris.Periodic
