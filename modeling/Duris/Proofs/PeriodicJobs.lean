import Duris.Lib.Slots
import Duris.World.PeriodicJobs

/-!
# Fixed-rate jobs keep their phase

A slot of a fixed-rate job is settled when a run of the job is counted for it or when it is
counted as missed. Completion and watchdog both settle every slot that has passed and choose
the next one, so the due tick of a job stays the number of settled slots after the first.

The invariant of a job is in two parts. Either the job is on its schedule, with every slot
before the open one settled in order; or it has no event and will have none: it is switched
off, or its next slot is beyond the last tick. What a step can do to one job is said once, in
`step_cases`.
-/

namespace Duris.Periodic

/-! ## The ledger of a job -/

inductive Entry where
  | ran (slot : Nat)
  | missed (slot : Nat)
  deriving DecidableEq, Repr

def Entry.slot : Entry → Nat
  | .ran slot => slot
  | .missed slot => slot

def Entry.ranSlot : Entry → Option Nat
  | .ran slot => some slot
  | .missed _ => none

def Entry.missedSlot : Entry → Option Nat
  | .ran _ => none
  | .missed slot => some slot

/-- The first slot that no counter has yet: a running job has counted the slot it runs for. -/
def Job.openSlot (job : Job) : Nat :=
  if job.running then job.nextDueTick + job.interval else job.nextDueTick

/-- What a step settles of a job. A step that counts a run settles the slot of the event it
takes; a step that counts missed runs settles the open slots that have passed. -/
def settled (tick : Nat) (job job' : Job) : List Entry :=
  (if job'.totalRuns = job.totalRuns then []
    else (job.handle.map fun handle => Entry.ran handle.dueTick).toList) ++
  (if job'.missedRuns = job.missedRuns then []
    else (passedSlots job.openSlot job.interval tick).map .missed)

def settles (index : Nat) (s : State) (e : Event) : List Entry :=
  match s.jobs[index]?, (step s e).jobs[index]? with
  | some job, some job' => settled s.tick job job'
  | _, _ => []

/-! ## What the statement says -/

structure FirstDue (s : State) (job : Job) (first interval : Nat) : Prop where
  enabled : job.enabled = true
  policy : job.policy = .fixedRate
  rate : job.interval = interval
  positive : 0 < interval
  due : job.nextDueTick = first
  ahead : s.tick < first
  fits : first ≤ ullMax
  idle : job.running = false
  event : job.armed = true → job.handle = some ⟨first, true⟩ ∧ first < ullMax
  unrun : job.totalRuns = 0
  unmissed : job.missedRuns = 0

/-- The step neither gives the job another due tick from outside nor overrides the delay of its
running callback. A job that is switched on again starts anew, as after a reset. -/
def LeftAlone (index : Nat) (s : State) : Event → Prop
  | .reset => False
  | .reschedule other _ => other ≠ index
  | .setEnabled key true _ _ =>
      ∀ job, findJob s.jobs key = some (index, job) → job.enabled = true
  | .retryAfter _ => s.current ≠ some index
  | .nextAfter _ => s.current ≠ some index
  | .continueAfter _ => s.current ≠ some index
  | _ => True

/-- An armed job is due at the slot after the settled ones, and every slot before is settled
once. -/
structure OnPhase (first interval : Nat) (job : Job) (made : List Entry) : Prop where
  due : job.nextDueTick = first + (job.totalRuns + job.missedRuns) * interval
  event : job.handle = some ⟨job.nextDueTick, true⟩
  phase : job.nextDueTick % interval = first % interval
  accounted : made.map Entry.slot = slots first interval (job.totalRuns + job.missedRuns)
  successive : (made.map Entry.slot ++ [job.nextDueTick]).Pairwise (· < ·)
  ran : (made.filterMap Entry.ranSlot).length = job.totalRuns
  missed : (made.filterMap Entry.missedSlot).length = job.missedRuns
  apart : List.Disjoint (made.filterMap Entry.ranSlot) (made.filterMap Entry.missedSlot)

/-- The due tick of the job never goes back, and an event it gets is for the first slot that
lies ahead. -/
def ChoosesNext (index first interval : Nat) (s : State) (e : Event) : Prop :=
  ∀ job job', s.jobs[index]? = some job → (step s e).jobs[index]? = some job' →
    job.nextDueTick ≤ job'.nextDueTick ∧
    (job.armed = false → job'.armed = true →
      s.tick < job'.nextDueTick ∧
      ∀ k, s.tick < first + k * interval → job'.nextDueTick ≤ first + k * interval)

/-! ## What a step can do to a job -/

structure Same (job job' : Job) : Prop where
  enabled : job'.enabled = job.enabled
  policy : job'.policy = job.policy
  interval : job'.interval = job.interval
  due : job'.nextDueTick = job.nextDueTick
  running : job'.running = job.running
  overridden : job'.nextDelayOverridden = job.nextDelayOverridden
  total : job'.totalRuns = job.totalRuns
  missed : job'.missedRuns = job.missedRuns

/-- The step leaves the schedule of the job alone; it may take its event. -/
structure Quiet (job job' : Job) : Prop extends Same job job' where
  event : job'.handle = job.handle ∨ job'.armed = false

theorem Quiet.refl (job : Job) : Quiet job job :=
  ⟨⟨rfl, rfl, rfl, rfl, rfl, rfl, rfl, rfl⟩, .inl rfl⟩

variable {job : Job} {tick : Nat}

theorem Quiet.armed {job' : Job} (h : Quiet job job') (harmed : job'.armed = true) :
    job.armed = true ∧ job'.handle = job.handle := by
  rcases h.event with hsame | hnone
  · refine ⟨?_, hsame⟩
    rw [Job.armed, hsame] at harmed
    exact harmed
  · rw [hnone] at harmed
    cases harmed

/-- The step gives the job its next slot: the open one when it lies ahead, and otherwise the
first that does, with all before it counted as missed. -/
structure Rearms (tick : Nat) (job job' : Job) : Prop where
  enabled : job'.enabled = true
  policy : job'.policy = job.policy
  interval : job'.interval = job.interval
  total : job'.totalRuns = job.totalRuns
  event : job'.armed = true →
    job'.handle = some ⟨job'.nextDueTick, true⟩ ∧ tick < job'.nextDueTick ∧
      job'.nextDueTick < ullMax
  fits : job'.nextDueTick ≤ ullMax
  due : job'.nextDueTick = ullMax ∨
    tick < job.openSlot ∧ job'.missedRuns = job.missedRuns ∧ job'.nextDueTick = job.openSlot ∨
    job.openSlot ≤ tick ∧
      job'.missedRuns = counted job.missedRuns ((tick - job.openSlot) / job.interval + 1) ∧
      job'.nextDueTick = job.openSlot + ((tick - job.openSlot) / job.interval + 1) * job.interval

theorem addTicks_of_le {delay : Nat} (h : tick + delay ≤ ullMax) :
    addTicks tick delay = tick + delay := by
  rw [addTicks, if_neg (by omega)]

theorem addTicks_le {delay : Nat} (htick : tick ≤ ullMax) : addTicks tick delay ≤ tick + delay := by
  rw [addTicks]
  split <;> omega

/-- An enabled job that is scheduled for its due tick gets an event due then, or none. -/
theorem scheduleAt_cases (afterEventsCall added : Bool) {due : Nat} (henabled : job.enabled = true)
    (hset : job.nextDueTick = due) (hdue : tick < due ∨ due = ullMax) (hfits : due ≤ ullMax)
    (htick : tick ≤ ullMax) :
    Same job (scheduleAt tick afterEventsCall added job due).1 ∧
      ((scheduleAt tick afterEventsCall added job due).1.handle = job.handle ∨
        tick < due ∧ due < ullMax ∧
        (scheduleAt tick afterEventsCall added job due).1.handle = some ⟨due, true⟩) := by
  have hfailed : Same job (noteScheduleFailure tick job) :=
    ⟨rfl, rfl, rfl, rfl, rfl, rfl, rfl, rfl⟩
  rw [scheduleAt, henabled]
  by_cases hmax : due = ullMax
  · have hcapped : (if due ≤ tick then addTicks tick 1 else due) = ullMax := by
      split
      · rw [addTicks, if_pos (by omega)]
      · exact hmax
    simp only [hcapped, Bool.not_true, Bool.false_eq_true, if_false, true_or, if_true]
    exact ⟨hfailed, .inl rfl⟩
  · have hahead : tick < due := hdue.resolve_right hmax
    have hfirst : firstEligibleTick tick afterEventsCall ≤ tick + 1 := by
      refine le_trans (addTicks_le htick) (Nat.add_le_add_left ?_ tick)
      split <;> omega
    have hevent :
        max (addTicks tick (due - tick)) (firstEligibleTick tick afterEventsCall) = due := by
      rw [addTicks_of_le (by omega)]
      omega
    simp only [Bool.not_true, Bool.false_eq_true, if_false, if_neg (Nat.not_le.mpr hahead), hmax,
      false_or, hevent]
    split
    · exact ⟨hfailed, .inl rfl⟩
    · split
      · exact ⟨hfailed, .inl rfl⟩
      · refine ⟨⟨henabled.symm, rfl, rfl, hset.symm, rfl, rfl, rfl, rfl⟩, .inr ⟨hahead, ?_, rfl⟩⟩
        omega

/-- The slot a job is given next, with what is counted on the way. -/
structure Chosen (tick : Nat) (job : Job) (slot : Nat) (result : Job × Nat) : Prop where
  same : result.1 = { job with missedRuns := result.1.missedRuns }
  fits : result.2 ≤ ullMax
  due : result.2 = ullMax ∨
    tick < slot ∧ result.1.missedRuns = job.missedRuns ∧ result.2 = slot ∨
    slot ≤ tick ∧
      result.1.missedRuns = counted job.missedRuns ((tick - slot) / job.interval + 1) ∧
      result.2 = slot + ((tick - slot) / job.interval + 1) * job.interval

theorem Chosen.ahead {slot : Nat} {result : Job × Nat} (h : Chosen tick job slot result)
    (hinterval : 0 < job.interval) : tick < result.2 ∨ result.2 = ullMax := by
  rcases h.due with hmax | ⟨hlt, -, heq⟩ | ⟨hle, -, heq⟩
  · exact .inr hmax
  · exact .inl (heq ▸ hlt)
  · exact .inl (heq ▸ (slot_after_passed hinterval hle).1)

theorem chosen_skipMissed {slot : Nat} (hinterval : 0 < job.interval) (hslot : slot ≤ ullMax)
    (hpast : slot ≤ tick) : Chosen tick job slot (skipMissed tick job slot) := by
  rw [skipMissed]
  by_cases hfew : (ullMax - slot) / job.interval < (tick - slot) / job.interval + 1
  · simp only [hfew, if_true]
    exact ⟨rfl, le_refl _, .inl rfl⟩
  · simp only [hfew, if_false]
    refine ⟨rfl, ?_, .inr (.inr ⟨hpast, rfl, rfl⟩)⟩
    rw [Nat.not_lt, Nat.le_div_iff_mul_le hinterval] at hfew
    omega

theorem chosen_fixedRateDue (tick : Nat) (hinterval : 0 < job.interval)
    (hdue : job.nextDueTick ≤ ullMax) :
    Chosen tick job (job.nextDueTick + job.interval) (fixedRateDue tick job) := by
  rw [fixedRateDue]
  by_cases hsum : job.nextDueTick + job.interval ≤ ullMax
  · rw [addTicks_of_le hsum]
    split
    · next hahead => exact ⟨rfl, hsum, .inr (.inl ⟨hahead, rfl, rfl⟩)⟩
    · next hpast =>
      split
      · next hmax => exact ⟨rfl, hsum, .inl hmax⟩
      · exact chosen_skipMissed hinterval hsum (Nat.not_lt.mp hpast)
  · have hmax : addTicks job.nextDueTick job.interval = ullMax := by
      rw [addTicks, if_pos (by omega)]
    rw [hmax]
    split
    · exact ⟨rfl, le_refl _, .inl rfl⟩
    · rw [if_pos rfl]
      exact ⟨rfl, le_refl _, .inl rfl⟩

theorem chosen_watchdogDue (tick : Nat) (hpolicy : job.policy = .fixedRate)
    (hinterval : 0 < job.interval) (hpos : 0 < job.nextDueTick) (hdue : job.nextDueTick ≤ ullMax) :
    Chosen tick job job.nextDueTick (watchdogDue tick job) := by
  rw [watchdogDue]
  split
  · next hahead => exact ⟨rfl, hdue, .inr (.inl ⟨hahead, rfl, rfl⟩)⟩
  · next hpast =>
    rw [if_pos ⟨hpolicy, hpos.ne', hinterval.ne'⟩]
    exact chosen_skipMissed hinterval hdue (Nat.not_lt.mp hpast)

theorem Chosen.rearms (afterEventsCall added : Bool) {counts : Job} {result : Job × Nat}
    (h : Chosen tick counts job.openSlot result) (hcounts : Same job counts)
    (henabled : job.enabled = true) (hinterval : 0 < job.interval) (htick : tick ≤ ullMax)
    (hbare : counts.armed = false) (rearms : Nat) {given : Job}
    (hgiven : given = { result.1 with nextDueTick := result.2, watchdogRearms := rearms }) :
    Rearms tick job (scheduleAt tick afterEventsCall added given result.2).1 ∧
      (scheduleAt tick afterEventsCall added given result.2).1.running = counts.running := by
  have hsame := h.same
  have hof : ∀ {α : Type} (field : Job → α),
      (∀ missed due rearms, field { counts with
        missedRuns := missed, nextDueTick := due, watchdogRearms := rearms } = field counts) →
      field given = field counts := by
    intro α field hfield
    rw [hgiven, hsame]
    exact hfield _ _ _
  have hdue := h.due
  rw [hcounts.interval, hcounts.missed] at hdue
  have henabled' : given.enabled = true :=
    (hof Job.enabled fun _ _ _ => rfl).trans (hcounts.enabled.trans henabled)
  have hset : given.nextDueTick = result.2 := by rw [hgiven]
  have hmissed : given.missedRuns = result.1.missedRuns := by rw [hgiven]
  obtain ⟨hkept, hevent⟩ := scheduleAt_cases afterEventsCall added henabled' hset
    (h.ahead (hcounts.interval ▸ hinterval)) h.fits htick
  refine ⟨⟨hkept.enabled.trans henabled',
    hkept.policy.trans ((hof Job.policy fun _ _ _ => rfl).trans hcounts.policy),
    hkept.interval.trans ((hof Job.interval fun _ _ _ => rfl).trans hcounts.interval),
    hkept.total.trans ((hof Job.totalRuns fun _ _ _ => rfl).trans hcounts.total), ?_,
    (hkept.due.trans hset).le.trans h.fits, ?_⟩,
    hkept.running.trans (hof Job.running fun _ _ _ => rfl)⟩
  · intro harmed
    rw [hkept.due, hset]
    rcases hevent with hold | ⟨hahead, hfits, hnew⟩
    · rw [Job.armed, hold, hof Job.handle fun _ _ _ => rfl] at harmed
      exact absurd (hbare.symm.trans harmed) Bool.false_ne_true
    · exact ⟨hnew, hahead, hfits⟩
  · rw [hkept.due, hset, hkept.missed, hmissed]
    exact hdue

theorem countRun_quiet (tick : Nat) (job : Job) : Quiet job (countRun tick job) := by
  rw [countRun]
  cases hmore : job.runContinuation <;> cases hfailed : job.runFailed <;>
    simp only [hmore, hfailed, Bool.false_eq_true, Bool.not_true, Bool.not_false, if_true,
      if_false] <;>
    exact ⟨⟨rfl, rfl, rfl, rfl, rfl, rfl, rfl, rfl⟩, .inl rfl⟩

theorem completeJob_rearms (afterEventsCall added : Bool) (henabled : job.enabled = true)
    (hpolicy : job.policy = .fixedRate) (hrunning : job.running = true)
    (hkeeps : job.nextDelayOverridden = false) (hbare : job.armed = false)
    (hinterval : 0 < job.interval) (hdue : job.nextDueTick ≤ ullMax) (htick : tick ≤ ullMax) :
    Rearms tick job (completeJob tick afterEventsCall added job) ∧
      (completeJob tick afterEventsCall added job).running = false := by
  have hcounts := countRun_quiet tick job
  have hchosen : Chosen tick (countRun tick job) job.openSlot
      (successorDue tick (countRun tick job)) := by
    rw [successorDue, hcounts.overridden, hkeeps, hcounts.policy, hpolicy, Job.openSlot, hrunning]
    have hdue' := chosen_fixedRateDue tick (hcounts.interval ▸ hinterval)
      (hcounts.due ▸ hdue)
    rw [hcounts.due, hcounts.interval] at hdue'
    exact hdue'
  have hbare' : (countRun tick job).armed = false := by
    by_contra harmed
    rw [Bool.not_eq_false] at harmed
    exact absurd (hbare.symm.trans (hcounts.armed harmed).1) Bool.false_ne_true
  have hrearms := (hchosen.rearms afterEventsCall added hcounts.toSame henabled hinterval htick
    hbare' (successorDue tick (countRun tick job)).1.watchdogRearms rfl).1
  rw [completeJob, hcounts.enabled, henabled]
  exact ⟨⟨hrearms.enabled, hrearms.policy, hrearms.interval, hrearms.total, hrearms.event,
    hrearms.fits, hrearms.due⟩, rfl⟩

theorem rearmJob_cases (afterEventsCall added : Bool) (henabled : job.enabled = true)
    (hpolicy : job.policy = .fixedRate) (hidle : job.running = false) (hinterval : 0 < job.interval)
    (hpos : 0 < job.nextDueTick) (hdue : job.nextDueTick ≤ ullMax) (htick : tick ≤ ullMax) :
    Quiet job (rearmJob tick afterEventsCall added job) ∨
      Rearms tick job (rearmJob tick afterEventsCall added job) ∧
        (rearmJob tick afterEventsCall added job).running = false := by
  have hbare : Quiet job { job with handle := none } :=
    ⟨⟨rfl, rfl, rfl, rfl, rfl, rfl, rfl, rfl⟩, .inr rfl⟩
  have hopen : job.openSlot = job.nextDueTick := by
    rw [Job.openSlot, hidle]
    rfl
  rw [rearmJob]
  generalize hcounts : { job with handle := none } = counts at hbare ⊢
  have hchosen := chosen_watchdogDue tick (hbare.policy.trans hpolicy)
    (hbare.interval ▸ hinterval) (hbare.due ▸ hpos) (hbare.due ▸ hdue)
  rw [hbare.due, ← hopen] at hchosen
  have hnone : counts.armed = false := by
    rw [← hcounts]
    rfl
  split
  · exact .inl hbare
  · obtain ⟨hrearms, hrunning⟩ :=
      hchosen.rearms afterEventsCall added hbare.toSame henabled hinterval htick hnone
        (counted (watchdogDue tick counts).1.watchdogRearms 1) rfl
    exact .inr ⟨hrearms, hrunning.trans (hbare.running.trans hidle)⟩

/-! ## The invariant of a job -/

/-- Every slot before the open one is settled, in order, and an event is for the open one. -/
structure OnSchedule (first interval tick : Nat) (job : Job) (made : List Entry) : Prop where
  enabled : job.enabled = true
  policy : job.policy = .fixedRate
  rate : job.interval = interval
  atOpen : job.openSlot = first + (job.totalRuns + job.missedRuns) * interval
  below : job.nextDueTick < ullMax
  event : job.armed = true → job.running = false ∧ job.handle = some ⟨job.nextDueTick, true⟩
  near : job.nextDueTick = first ∨ job.nextDueTick ≤ tick + interval
  started : job.running = true → job.nextDueTick ≤ tick ∧ job.nextDelayOverridden = false
  accounted : made.map Entry.slot = slots first interval (job.totalRuns + job.missedRuns)
  ran : (made.filterMap Entry.ranSlot).length = job.totalRuns
  missed : (made.filterMap Entry.missedSlot).length = job.missedRuns

/-- The job has no event and gets none: it is switched off, or its next slot is beyond the last
tick. -/
structure OffSchedule (job : Job) : Prop where
  bare : job.armed = false
  ended : job.enabled = false ∨ job.nextDueTick = ullMax ∧ job.running = false ∧
    job.policy = .fixedRate ∧ 0 < job.interval

def Kept (first interval tick : Nat) (job : Job) (made : List Entry) : Prop :=
  OnSchedule first interval tick job made ∨ OffSchedule job

structure Move (first interval tick : Nat) (job job' : Job) (made : List Entry) : Prop where
  kept : Kept first interval tick job' (made ++ settled tick job job')
  rises : job.nextDueTick ≤ job'.nextDueTick
  ahead : job.armed = false → job'.armed = true → tick < job'.nextDueTick

section

variable {first interval tick : Nat} {job job' : Job} {made : List Entry}

theorem OnSchedule.idle_open (h : OnSchedule first interval tick job made)
    (hidle : job.running = false) :
    job.nextDueTick = first + (job.totalRuns + job.missedRuns) * interval := by
  have := h.atOpen
  rw [Job.openSlot, hidle] at this
  exact this

theorem OnSchedule.later (h : OnSchedule first interval tick job made) {tick' : Nat}
    (hlater : tick ≤ tick') : OnSchedule first interval tick' job made :=
  { h with
    near := h.near.imp_right fun hle => hle.trans (Nat.add_le_add_right hlater interval)
    started := fun hrunning => ⟨(h.started hrunning).1.trans hlater, (h.started hrunning).2⟩ }

theorem Kept.later (h : Kept first interval tick job made) {tick' : Nat} (hlater : tick ≤ tick') :
    Kept first interval tick' job made := h.imp_left fun hon => hon.later hlater

theorem settled_nil (htotal : job'.totalRuns = job.totalRuns)
    (hmissed : job'.missedRuns = job.missedRuns) : settled tick job job' = [] := by
  rw [settled, if_pos htotal, if_pos hmissed, List.nil_append]

theorem Quiet.move (hquiet : Quiet job job') (h : Kept first interval tick job made) :
    Move first interval tick job job' made := by
  have hbare : job.armed = false → job'.armed = false := by
    intro hnone
    by_contra harmed
    rw [Bool.not_eq_false] at harmed
    exact absurd (hnone.symm.trans (hquiet.armed harmed).1) Bool.false_ne_true
  refine ⟨?_, hquiet.due.ge, fun hnone harmed => ?_⟩
  · rw [settled_nil hquiet.total hquiet.missed, List.append_nil]
    rcases h with hon | hoff
    · left
      refine ⟨hquiet.enabled.trans hon.enabled, hquiet.policy.trans hon.policy,
        hquiet.interval.trans hon.rate, ?_, ?_, fun harmed => ?_, ?_, ?_, ?_, ?_, ?_⟩
      · rw [Job.openSlot, hquiet.running, hquiet.due, hquiet.interval, hquiet.total, hquiet.missed]
        exact hon.atOpen
      · rw [hquiet.due]
        exact hon.below
      · obtain ⟨hold, hsame⟩ := hquiet.armed harmed
        rw [hquiet.running, hsame, hquiet.due]
        exact hon.event hold
      · rw [hquiet.due]
        exact hon.near
      · rw [hquiet.running, hquiet.due, hquiet.overridden]
        exact hon.started
      · rw [hquiet.total, hquiet.missed]
        exact hon.accounted
      · rw [hquiet.total]
        exact hon.ran
      · rw [hquiet.missed]
        exact hon.missed
    · right
      refine ⟨hbare hoff.bare, ?_⟩
      rw [hquiet.enabled, hquiet.due, hquiet.running, hquiet.policy, hquiet.interval]
      exact hoff.ended
  · exact absurd ((hbare hnone).symm.trans harmed) Bool.false_ne_true

theorem OffSchedule.move (hoff : OffSchedule job') (hrises : job.nextDueTick ≤ job'.nextDueTick) :
    Move first interval tick job job' made :=
  ⟨.inr hoff, hrises, fun _ harmed => absurd (hoff.bare.symm.trans harmed) Bool.false_ne_true⟩

theorem counted_of_le {counter n : Nat} (h : counter + n ≤ ullMax) :
    counted counter n = counter + n := Nat.mod_eq_of_lt (by omega)

theorem count_lt {n : Nat} (hinterval : 0 < interval) (hbelow : first + n * interval < ullMax) :
    n < ullMax := by
  have := Nat.le_mul_of_pos_right n hinterval
  omega

theorem beginJob_move (hinterval : 0 < interval) (h : OnSchedule first interval tick job made)
    (harmed : job.armed = true) (hdue : job.nextDueTick ≤ tick) :
    Move first interval tick job (beginJob tick job) made := by
  obtain ⟨hidle, hhandle⟩ := h.event harmed
  have hopen := h.idle_open hidle
  have hbelow := h.below
  rw [hopen] at hbelow
  have hcount : counted job.totalRuns 1 = job.totalRuns + 1 := by
    have := count_lt hinterval hbelow
    exact counted_of_le (by omega)
  have hsettled : settled tick job (beginJob tick job) = [.ran job.nextDueTick] := by
    rw [settled, if_neg, if_pos, hhandle]
    · rfl
    · rfl
    · rw [beginJob, hcount]
      exact Nat.succ_ne_self _
  refine ⟨.inl ?_, le_refl _, fun hnone => absurd (hnone.symm.trans harmed) Bool.false_ne_true⟩
  rw [hsettled]
  refine ⟨h.enabled, h.policy, h.rate, ?_, h.below, fun hnew => ?_, h.near,
    fun _ => ⟨hdue, rfl⟩, ?_, ?_, ?_⟩
  · change job.nextDueTick + job.interval =
      first + (counted job.totalRuns 1 + job.missedRuns) * interval
    rw [hcount, h.rate, hopen, Nat.add_right_comm job.totalRuns, Nat.add_mul _ 1, Nat.one_mul,
      Nat.add_assoc]
  · cases hnew
  · change _ = slots first interval (counted job.totalRuns 1 + job.missedRuns)
    rw [hcount, Nat.add_right_comm, slots_add, slots_one, List.map_append, h.accounted, ← hopen]
    rfl
  · change _ = counted job.totalRuns 1
    rw [hcount, List.filterMap_append, List.length_append, h.ran]
    rfl
  · rw [List.filterMap_append, List.length_append, h.missed]
    rfl

theorem map_missed_slot (open' : List Nat) : (open'.map Entry.missed).map Entry.slot = open' := by
  rw [List.map_map]
  exact List.map_id open'

theorem filterMap_missed_ran (open' : List Nat) :
    (open'.map Entry.missed).filterMap Entry.ranSlot = [] := by
  rw [List.filterMap_map]
  exact List.filterMap_eq_nil_iff.mpr fun _ _ => rfl

theorem filterMap_missed_missed (open' : List Nat) :
    (open'.map Entry.missed).filterMap Entry.missedSlot = open' := by
  rw [List.filterMap_map]
  exact List.filterMap_some

theorem Rearms.onSchedule (h : OnSchedule first interval tick job made)
    (hrearms : Rearms tick job job') (hidle : job'.running = false) {m : Nat}
    (hmissed : job'.missedRuns = job.missedRuns + m)
    (hdue : job'.nextDueTick = job.openSlot + m * interval) (hbelow : job'.nextDueTick < ullMax)
    (hnear : job'.nextDueTick = first ∨ job'.nextDueTick ≤ tick + interval)
    (hsettled : settled tick job job' = (slots job.openSlot interval m).map .missed) :
    OnSchedule first interval tick job' (made ++ settled tick job job') := by
  have hcount : job'.totalRuns + job'.missedRuns = job.totalRuns + job.missedRuns + m := by
    rw [hrearms.total, hmissed, Nat.add_assoc]
  rw [hsettled]
  refine ⟨hrearms.enabled, hrearms.policy.trans h.policy, hrearms.interval.trans h.rate, ?_,
    hbelow, fun harmed => ⟨hidle, (hrearms.event harmed).1⟩, hnear, ?_, ?_, ?_, ?_⟩
  · have hopen : job'.openSlot = job'.nextDueTick := by
      rw [Job.openSlot, hidle]
      rfl
    rw [hopen, hdue, hcount, h.atOpen, Nat.add_mul (job.totalRuns + job.missedRuns),
      Nat.add_assoc]
  · intro hrunning
    exact absurd (hidle.symm.trans hrunning) Bool.false_ne_true
  · rw [hcount, slots_add, List.map_append, h.accounted, map_missed_slot, h.atOpen]
  · rw [List.filterMap_append, filterMap_missed_ran, List.append_nil, h.ran, hrearms.total]
  · rw [List.filterMap_append, filterMap_missed_missed, List.length_append, h.missed,
      slots_length, hmissed]

theorem Rearms.move (hinterval : 0 < interval) (h : OnSchedule first interval tick job made)
    (hrearms : Rearms tick job job') (hidle : job'.running = false) :
    Move first interval tick job job' made := by
  have hraised : job.nextDueTick ≤ job.openSlot := by
    rw [Job.openSlot]
    split
    · exact Nat.le_add_right _ _
    · exact le_refl _
  by_cases hmax : job'.nextDueTick = ullMax
  · have hnone : job'.armed = false := by
      by_contra harmed
      rw [Bool.not_eq_false] at harmed
      exact absurd hmax (hrearms.event harmed).2.2.ne
    refine OffSchedule.move ⟨hnone, .inr ⟨hmax, hidle, hrearms.policy.trans h.policy, ?_⟩⟩ ?_
    · rw [hrearms.interval, h.rate]
      exact hinterval
    rw [hmax]
    exact h.below.le
  · have hbelow : job'.nextDueTick < ullMax := lt_of_le_of_ne hrearms.fits hmax
    rcases hrearms.due with hlast | ⟨hahead, hmissed, hdue⟩ | ⟨hpast, hmissed, hdue⟩
    · exact absurd hlast hmax
    · -- The open slot lies ahead: nothing is missed.
      have hnear : job'.nextDueTick = first ∨ job'.nextDueTick ≤ tick + interval := by
        rw [hdue, Job.openSlot]
        split
        · next hrunning =>
          rw [h.rate]
          exact .inr (Nat.add_le_add_right (h.started hrunning).1 interval)
        · exact h.near
      refine ⟨.inl ?_, hraised.trans hdue.ge, fun _ harmed => (hrearms.event harmed).2.1⟩
      refine hrearms.onSchedule h hidle (m := 0) hmissed ?_ hbelow hnear ?_
      · rw [hdue, Nat.zero_mul, Nat.add_zero]
      · rw [settled_nil hrearms.total hmissed]
        rfl
    · -- The slots up to now are missed.
      rw [h.rate] at hmissed hdue
      obtain ⟨hahead, hnear⟩ := slot_after_passed hinterval hpast
      rw [← hdue] at hahead hnear
      generalize hm : (tick - job.openSlot) / interval + 1 = m at hmissed hdue
      have hcount : counted job.missedRuns m = job.missedRuns + m := by
        rw [hdue, h.atOpen, Nat.add_assoc, ← Nat.add_mul] at hbelow
        have := count_lt hinterval hbelow
        exact counted_of_le (by omega)
      rw [hcount] at hmissed
      have hpos : 0 < m := hm ▸ Nat.succ_pos _
      refine ⟨.inl ?_, ?_, fun _ harmed => (hrearms.event harmed).2.1⟩
      · refine hrearms.onSchedule h hidle hmissed hdue hbelow (.inr hnear) ?_
        rw [settled, if_pos hrearms.total, if_neg (by omega), h.rate,
          passedSlots_eq hinterval hpast, hm, List.nil_append]
      · rw [hdue]
        exact hraised.trans (Nat.le_add_right _ _)

theorem Quiet.trans {job'' : Job} (h : Quiet job job') (h' : Quiet job' job'') :
    Quiet job job'' := by
  refine ⟨⟨h'.enabled.trans h.enabled, h'.policy.trans h.policy, h'.interval.trans h.interval,
    h'.due.trans h.due, h'.running.trans h.running, h'.overridden.trans h.overridden,
    h'.total.trans h.total, h'.missed.trans h.missed⟩, ?_⟩
  rcases h'.event with hsame | hnone
  · rw [Job.armed, hsame]
    exact h.event
  · exact .inr hnone

theorem Same.open_eq (h : Same job job') : job'.openSlot = job.openSlot := by
  rw [Job.openSlot, h.running, h.due, h.interval, Job.openSlot]

theorem Rearms.of_same {job'' : Job} (h : Same job job') (hrearms : Rearms tick job' job'') :
    Rearms tick job job'' := by
  have hdue := hrearms.due
  rw [h.open_eq, h.interval, h.missed] at hdue
  exact ⟨hrearms.enabled, hrearms.policy.trans h.policy, hrearms.interval.trans h.interval,
    hrearms.total.trans h.total, hrearms.event, hrearms.fits, hdue⟩

theorem OnSchedule.due_pos (h : OnSchedule first interval tick job made) (hfirst : 0 < first)
    (hidle : job.running = false) : 0 < job.nextDueTick := by
  rw [h.idle_open hidle]
  exact Nat.add_pos_left hfirst _

theorem OnSchedule.bare (h : OnSchedule first interval tick job made)
    (hrunning : job.running = true) : job.armed = false := by
  by_contra harmed
  rw [Bool.not_eq_false] at harmed
  exact absurd ((h.event harmed).1.symm.trans hrunning) Bool.false_ne_true

theorem completeJob_move (hinterval : 0 < interval) (htick : tick ≤ ullMax)
    (afterEventsCall added : Bool) (h : Kept first interval tick job made)
    (hrunning : job.running = true) :
    Move first interval tick job (completeJob tick afterEventsCall added job) made := by
  rcases h with hon | hoff
  · have hbare := hon.bare hrunning
    obtain ⟨hrearms, hidle⟩ := completeJob_rearms afterEventsCall added hon.enabled hon.policy
      hrunning (hon.started hrunning).2 hbare (hon.rate ▸ hinterval) hon.below.le htick
    exact hrearms.move hinterval hon hidle
  · have hended : job.enabled = false := by
      rcases hoff.ended with hended | ⟨-, hidle, -, -⟩
      · exact hended
      · exact absurd (hidle.symm.trans hrunning) Bool.false_ne_true
    have hcounts := countRun_quiet tick job
    have hbare : (countRun tick job).armed = false := by
      by_contra harmed
      rw [Bool.not_eq_false] at harmed
      exact absurd (hoff.bare.symm.trans (hcounts.armed harmed).1) Bool.false_ne_true
    rw [completeJob, if_pos]
    · exact OffSchedule.move ⟨hbare, .inl (hcounts.enabled.trans hended)⟩ hcounts.due.ge
    · rw [hcounts.enabled, hended]
      rfl

theorem Rearms.offSchedule (hrearms : Rearms tick job job') (hidle' : job'.running = false)
    (hidle : job.running = false) (hdue : job.nextDueTick = ullMax)
    (hpolicy : job.policy = .fixedRate) (hinterval : 0 < job.interval) :
    OffSchedule job' ∧ job'.nextDueTick = ullMax := by
  have hopen : job.openSlot = ullMax := by
    rw [Job.openSlot, hidle]
    exact hdue
  have hlast : job'.nextDueTick = ullMax := by
    refine le_antisymm hrearms.fits ?_
    rcases hrearms.due with hmax | ⟨-, -, hsame⟩ | ⟨-, -, hlater⟩
    · exact hmax.ge
    · rw [hsame, hopen]
    · rw [hlater, hopen]
      exact Nat.le_add_right _ _
  refine ⟨⟨?_, .inr ⟨hlast, hidle', hrearms.policy.trans hpolicy,
    hrearms.interval ▸ hinterval⟩⟩, hlast⟩
  by_contra harmed
  rw [Bool.not_eq_false] at harmed
  exact absurd hlast (hrearms.event harmed).2.2.ne

theorem watchdogJob_move (hinterval : 0 < interval) (hfirst : 0 < first) (htick : tick ≤ ullMax)
    (afterEventsCall added : Bool) (h : Kept first interval tick job made) :
    Move first interval tick job (watchdogJob tick afterEventsCall added job) made := by
  rw [watchdogJob]
  split
  · exact (Quiet.refl job).move h
  · next hlive =>
    have hquiet : Quiet job
        (if job.disarming then { job with handle := none, disarming := false } else job) := by
      split
      · exact ⟨⟨rfl, rfl, rfl, rfl, rfl, rfl, rfl, rfl⟩, .inr rfl⟩
      · exact Quiet.refl job
    generalize (if job.disarming then { job with handle := none, disarming := false } else job) =
      kept at hquiet ⊢
    dsimp only
    split
    · exact hquiet.move h
    · next hidle =>
      rw [Bool.or_eq_true, Bool.not_eq_true', not_or, Bool.not_eq_false, Bool.not_eq_true] at hidle
      obtain ⟨henabled, hidle⟩ := hidle
      split
      · next due hhandle =>
        have harmed : kept.armed = true := by
          rw [Job.armed, hhandle]
        rcases h with hon | hoff
        · have hdue : due = job.nextDueTick := by
            obtain ⟨hold, hsame⟩ := hquiet.armed harmed
            rw [hsame, (hon.event hold).2] at hhandle
            cases hhandle
            rfl
          exact Quiet.move ⟨⟨hquiet.enabled, hquiet.policy, hquiet.interval, hdue, hquiet.running,
            hquiet.overridden, hquiet.total, hquiet.missed⟩, hquiet.event⟩ (.inl hon)
        · exact absurd (hoff.bare.symm.trans (hquiet.armed harmed).1) Bool.false_ne_true
      · rcases h with hon | hoff
        · rcases rearmJob_cases afterEventsCall added henabled (hquiet.policy.trans hon.policy)
            hidle (hquiet.interval.trans hon.rate ▸ hinterval)
            (hquiet.due ▸ hon.due_pos hfirst (hquiet.running.symm.trans hidle))
            (hquiet.due ▸ hon.below.le) htick with hsame | ⟨hrearms, hdone⟩
          · exact (hquiet.trans hsame).move (.inl hon)
          · exact (hrearms.of_same hquiet.toSame).move hinterval hon hdone
        · rcases hoff.ended with hended | ⟨hdue, hidle', hpolicy, hpos⟩
          · rw [hquiet.enabled, hended] at henabled
            cases henabled
          · rcases rearmJob_cases afterEventsCall added henabled (hquiet.policy.trans hpolicy)
              hidle (hquiet.interval ▸ hpos) (hquiet.due.trans hdue ▸ by decide)
              (hquiet.due.trans hdue).le htick with hsame | ⟨hrearms, hdone⟩
            · exact (hquiet.trans hsame).move (.inr hoff)
            · obtain ⟨hlast, hmax⟩ := (hrearms.of_same hquiet.toSame).offSchedule hdone hidle'
                hdue hpolicy hpos
              exact hlast.move (hdue.trans hmax.symm).le

end

/-! ## What a step of the system does to one job -/

/-- The step at the tick makes the second job of the first. -/
inductive Does (tick : Nat) (job job' : Job) : Prop where
  | quiet (h : Quiet job job')
  | disabled (h : job' = disableJob job)
  | began (h : job' = beginJob tick job) (harmed : job.armed = true)
      (hdue : ∃ handle, job.handle = some handle ∧ handle.dueTick ≤ tick)
  | completed (afterEventsCall added : Bool)
      (h : job' = completeJob tick afterEventsCall added job) (hrunning : job.running = true)
  | watched (afterEventsCall added : Bool) (h : job' = watchdogJob tick afterEventsCall added job)

theorem Does.same (tick : Nat) (job : Job) : Does tick job job := .quiet (Quiet.refl job)

variable {jobs : List Job} {index other : Nat} {job : Job} {s : State} {added : Bool}

theorem findJob_some {key : Bytes} (h : findJob jobs key = some (index, job)) :
    jobs[index]? = some job := by
  rw [findJob] at h
  cases hindex : jobs.findIdx? (·.key == key) with
  | none => rw [hindex] at h; cases h
  | some found =>
      rw [hindex] at h
      cases hjob : jobs[found]? with
      | none => simp [hjob] at h
      | some other =>
          simp only [hjob, Option.bind_eq_bind, Option.bind_some, Option.some.injEq,
            Prod.mk.injEq] at h
          obtain ⟨rfl, rfl⟩ := h
          exact hjob

theorem set_does {tick : Nat} {written new : Job} (hjob : jobs[index]? = some job)
    (hother : jobs[other]? = some written) (hdoes : other = index → Does tick job new) :
    ∃ job', (jobs.set other new)[index]? = some job' ∧ Does tick job job' := by
  rw [List.getElem?_set]
  split
  · next hsame =>
    rw [if_pos (hsame ▸ (List.getElem?_eq_some_iff.mp hother).1)]
    exact ⟨new, rfl, hdoes hsame⟩
  · exact ⟨job, hjob, Does.same tick job⟩

theorem modify_does {tick : Nat} {write : Job → Job} (hjob : jobs[index]? = some job)
    (hdoes : other = index → Does tick job (write job)) :
    ∃ job', (jobs.modify other write)[index]? = some job' ∧ Does tick job job' := by
  rw [List.getElem?_modify, hjob]
  split
  · next hsame => exact ⟨write job, rfl, hdoes hsame⟩
  · exact ⟨job, rfl, Does.same tick job⟩

theorem suppressDuplicate_quiet (job : Job) : Quiet job job.suppressDuplicate :=
  ⟨⟨rfl, rfl, rfl, rfl, rfl, rfl, rfl, rfl⟩, .inl rfl⟩

theorem cancelEvent_quiet (job : Job) : Quiet job job.cancelEvent := by
  refine ⟨⟨rfl, rfl, rfl, rfl, rfl, rfl, rfl, rfl⟩, .inr ?_⟩
  rw [Job.armed, Job.cancelEvent]
  cases job.handle with
  | none => rfl
  | some handle => rfl

section

variable (hjob : s.jobs[index]? = some job)

include hjob

theorem ofCurrent_does {write : Job → Job}
    (hdoes : s.current = some index → Does s.tick job (write job)) :
    ∃ job', ((ofCurrent s write).getD s).jobs[index]? = some job' ∧ Does s.tick job job' := by
  rw [ofCurrent]
  cases hcurrent : s.current with
  | none => exact ⟨job, hjob, Does.same s.tick job⟩
  | some running =>
      exact modify_does hjob fun hsame => hdoes (hsame ▸ hcurrent)

theorem register_does {key : Option Bytes} {callback : Option Nat} {initialDelay interval : Nat}
    {policy : Policy} {enabled : Bool} :
    ∃ job', (register s key callback initialDelay interval policy enabled added).1.jobs[index]? =
      some job' ∧ Does s.tick job job' := by
  have hsame : ∃ job', s.jobs[index]? = some job' ∧ Does s.tick job job' :=
    ⟨job, hjob, Does.same s.tick job⟩
  have happend : ∀ new : Job, ∃ job', (s.jobs ++ [new])[index]? = some job' ∧
      Does s.tick job job' := by
    intro new
    rw [List.getElem?_append_left (List.getElem?_eq_some_iff.mp hjob).1]
    exact hsame
  unfold register
  split
  · split
    · exact hsame
    · split
      · next index' existing hfind =>
        split
        · exact hsame
        · refine set_does hjob (findJob_some hfind) fun heq => ?_
          have hjob' := findJob_some hfind
          rw [heq, hjob, Option.some.injEq] at hjob'
          rw [← hjob']
          exact .quiet (suppressDuplicate_quiet job)
      · split
        · exact hsame
        · split
          · exact hsame
          · split
            · exact happend _
            · exact happend _
  · exact hsame

theorem setEnabled_does {key : Bytes} {enabled : Bool} {initialDelay : Nat}
    (hleft : LeftAlone index s (.setEnabled key enabled initialDelay added)) :
    ∃ job', (setEnabled s key enabled initialDelay added).1.jobs[index]? = some job' ∧
      Does s.tick job job' := by
  have hsame : ∃ job', s.jobs[index]? = some job' ∧ Does s.tick job job' :=
    ⟨job, hjob, Does.same s.tick job⟩
  rw [setEnabled]
  cases hfind : findJob s.jobs key with
  | none => exact hsame
  | some found =>
      obtain ⟨other, written⟩ := found
      have hwritten := findJob_some hfind
      have hof : other = index → written = job := by
        rintro rfl
        rw [hjob, Option.some.injEq] at hwritten
        exact hwritten.symm
      dsimp only
      split
      · refine set_does hjob hwritten fun heq => ?_
        rw [hof heq]
        exact .quiet (suppressDuplicate_quiet job)
      · next hchanges =>
        split
        · refine set_does hjob hwritten fun heq => ?_
          rw [hof heq]
          exact .disabled rfl
        · next hon =>
          split
          · exact hsame
          · refine set_does hjob hwritten fun heq => ?_
            rw [Bool.not_eq_true, Bool.not_eq_false'] at hon
            subst heq
            subst hon
            exact absurd (hleft written hfind) hchanges

theorem begin_does :
    ∃ job', ((begin s other).getD s).jobs[index]? = some job' ∧ Does s.tick job job' := by
  have hsame : ∃ job', s.jobs[index]? = some job' ∧ Does s.tick job job' :=
    ⟨job, hjob, Does.same s.tick job⟩
  rw [begin]
  cases hother : s.jobs[other]? with
  | none => exact hsame
  | some written =>
      dsimp only [Option.bind_eq_bind, Option.bind_some]
      cases hhandle : written.handle with
      | none => exact hsame
      | some handle =>
          dsimp only [Option.bind_some]
          split
          · next hready =>
            refine set_does hjob hother fun heq => ?_
            rw [heq, hjob, Option.some.injEq] at hother
            subst hother
            refine .began rfl ?_ ⟨handle, hhandle, hready.2.1⟩
            rw [Job.armed, hhandle]
            exact hready.1
          · exact hsame

theorem complete_does :
    ∃ job', ((complete s added).getD s).jobs[index]? = some job' ∧ Does s.tick job job' := by
  have hsame : ∃ job', s.jobs[index]? = some job' ∧ Does s.tick job job' :=
    ⟨job, hjob, Does.same s.tick job⟩
  rw [complete]
  cases hcurrent : s.current with
  | none => exact hsame
  | some other =>
      dsimp only [Option.bind_eq_bind, Option.bind_some]
      cases hother : s.jobs[other]? with
      | none => exact hsame
      | some written =>
          dsimp only [Option.bind_some]
          split
          · next hrunning =>
            refine set_does hjob hother fun heq => ?_
            rw [heq, hjob, Option.some.injEq] at hother
            subst hother
            exact .completed s.afterEventsCall added rfl hrunning
          · exact hsame

theorem step_does {e : Event} (hleft : LeftAlone index s e) :
    ∃ job', (step s e).jobs[index]? = some job' ∧ Does s.tick job job' := by
  have hsame : ∃ job', s.jobs[index]? = some job' ∧ Does s.tick job job' :=
    ⟨job, hjob, Does.same s.tick job⟩
  have hquiet : ∀ {delay : Nat} {write : Job → Job}, s.current ≠ some index →
      ∃ job', ((if validDelay delay then ofCurrent s write else none).getD s).jobs[index]? =
        some job' ∧ Does s.tick job job' := by
    intro delay write hother
    split
    · exact ofCurrent_does hjob fun hcurrent => absurd hcurrent hother
    · exact hsame
  cases e with
  | advanceTick =>
      rw [step, advanceTick]
      split <;> exact hsame
  | beginPass =>
      rw [step, beginPass]
      split <;> exact hsame
  | register key callback initialDelay interval policy enabled added => exact register_does hjob
  | setEnabled key enabled initialDelay added => exact setEnabled_does hjob hleft
  | reset => exact absurd hleft id
  | begin other => exact begin_does hjob
  | complete added => exact complete_does hjob
  | markFailure =>
      refine ofCurrent_does hjob fun _ => .quiet ?_
      exact ⟨⟨rfl, rfl, rfl, rfl, rfl, rfl, rfl, rfl⟩, .inl rfl⟩
  | retryAfter delay => exact hquiet hleft
  | nextAfter delay => exact hquiet hleft
  | continueAfter delay => exact hquiet hleft
  | cancel other => exact modify_does hjob fun _ => .quiet (cancelEvent_quiet job)
  | reschedule other dueTick => exact modify_does hjob fun heq => absurd heq hleft
  | watchdog added =>
      refine ⟨watchdogJob s.tick s.afterEventsCall (added index) job, ?_, .watched _ _ rfl⟩
      rw [step, watchdog, List.getElem?_mapIdx, hjob]
      rfl

end

/-! ## Runs -/

structure KeptIn (first interval index : Nat) (s : State) (made : List Entry) : Prop where
  fits : s.tick ≤ ullMax
  kept : ∃ job, s.jobs[index]? = some job ∧ Kept first interval s.tick job made

theorem Does.move {first interval tick : Nat} (hinterval : 0 < interval) (hfirst : 0 < first)
    (htick : tick ≤ ullMax) {job' : Job} {made : List Entry} (hdoes : Does tick job job')
    (h : Kept first interval tick job made) : Move first interval tick job job' made := by
  cases hdoes with
  | quiet hquiet => exact hquiet.move h
  | disabled hjob' =>
      have hbare : job'.armed = false := by
        rw [hjob', disableJob]
        split
        · rw [Job.armed, Job.cancelEvent]
          cases job.handle <;> rfl
        · rfl
      have hended : job'.enabled = false := by
        rw [hjob', disableJob]
        split <;> rfl
      have hdue : job'.nextDueTick = job.nextDueTick := by
        rw [hjob', disableJob]
        split <;> rfl
      exact OffSchedule.move ⟨hbare, .inl hended⟩ hdue.ge
  | began hjob' harmed hdue =>
      rcases h with hon | hoff
      · obtain ⟨handle, hhandle, hready⟩ := hdue
        rw [(hon.event harmed).2, Option.some.injEq] at hhandle
        subst hhandle
        rw [hjob']
        exact beginJob_move hinterval hon harmed hready
      · exact absurd (hoff.bare.symm.trans harmed) Bool.false_ne_true
  | completed afterEventsCall added hjob' hrunning =>
      rw [hjob']
      exact completeJob_move hinterval htick afterEventsCall added h hrunning
  | watched afterEventsCall added hjob' =>
      rw [hjob']
      exact watchdogJob_move hinterval hfirst htick afterEventsCall added h

@[simp] theorem register_tick (s : State) (key : Option Bytes) (callback : Option Nat)
    (initialDelay interval : Nat) (policy : Policy) (enabled added : Bool) :
    (register s key callback initialDelay interval policy enabled added).1.tick = s.tick := by
  unfold register
  repeat' split
  all_goals rfl

@[simp] theorem setEnabled_tick (s : State) (key : Bytes) (enabled : Bool) (initialDelay : Nat)
    (added : Bool) : (setEnabled s key enabled initialDelay added).1.tick = s.tick := by
  unfold setEnabled
  repeat' split
  all_goals rfl

@[simp] theorem begin_tick (s : State) (index : Nat) : ((begin s index).getD s).tick = s.tick := by
  rw [begin]
  cases s.jobs[index]? with
  | none => rfl
  | some job =>
      dsimp only [Option.bind_eq_bind, Option.bind_some]
      cases job.handle with
      | none => rfl
      | some handle =>
          dsimp only [Option.bind_some]
          split <;> rfl

@[simp] theorem complete_tick (s : State) (added : Bool) :
    ((complete s added).getD s).tick = s.tick := by
  rw [complete]
  cases s.current with
  | none => rfl
  | some index =>
      dsimp only [Option.bind_eq_bind, Option.bind_some]
      cases s.jobs[index]? with
      | none => rfl
      | some job =>
          dsimp only [Option.bind_some]
          split <;> rfl

@[simp] theorem ofCurrent_tick (s : State) (write : Job → Job) :
    ((ofCurrent s write).getD s).tick = s.tick := by
  rw [ofCurrent]
  cases s.current <;> rfl

theorem step_tick (htick : s.tick ≤ ullMax) (e : Event) :
    s.tick ≤ (step s e).tick ∧ (step s e).tick ≤ ullMax := by
  have hkeeps : (step s e).tick = s.tick → s.tick ≤ (step s e).tick ∧ (step s e).tick ≤ ullMax := by
    intro hsame
    rw [hsame]
    exact ⟨le_refl _, htick⟩
  have hcurrent : ∀ (delay : Nat) (write : Job → Job),
      ((if validDelay delay then ofCurrent s write else none).getD s).tick = s.tick := by
    intro delay write
    split
    · exact ofCurrent_tick s write
    · rfl
  cases e with
  | advanceTick =>
      rw [step, advanceTick]
      split
      · next hmore =>
        dsimp only [Option.getD_some]
        omega
      · exact ⟨le_refl _, htick⟩
  | beginPass =>
      refine hkeeps ?_
      rw [step, beginPass]
      split <;> rfl
  | register key callback initialDelay interval policy enabled added =>
      exact hkeeps (register_tick s key callback initialDelay interval policy enabled added)
  | setEnabled key enabled initialDelay added =>
      exact hkeeps (setEnabled_tick s key enabled initialDelay added)
  | reset => exact hkeeps rfl
  | begin other => exact hkeeps (begin_tick s other)
  | complete added => exact hkeeps (complete_tick s added)
  | markFailure => exact hkeeps (ofCurrent_tick s _)
  | retryAfter delay => exact hkeeps (hcurrent delay _)
  | nextAfter delay => exact hkeeps (hcurrent delay _)
  | continueAfter delay => exact hkeeps (hcurrent delay _)
  | cancel other => exact hkeeps rfl
  | reschedule other dueTick => exact hkeeps rfl
  | watchdog added => exact hkeeps rfl

section

variable {first interval index : Nat}

theorem KeptIn.step (hinterval : 0 < interval) (hfirst : 0 < first) (s : State) (e : Event)
    (made : List Entry) (h : KeptIn first interval index s made) (hleft : LeftAlone index s e) :
    KeptIn first interval index (step s e) (made ++ settles index s e) := by
  obtain ⟨job, hjob, hkept⟩ := h.kept
  obtain ⟨job', hjob', hdoes⟩ := step_does hjob hleft
  obtain ⟨hlater, hfits⟩ := step_tick h.fits e
  refine ⟨hfits, job', hjob', ?_⟩
  have hmove := hdoes.move hinterval hfirst h.fits hkept
  rw [settles, hjob, hjob']
  exact hmove.kept.later hlater

variable {s : State}

theorem KeptIn.choosesNext (hinterval : 0 < interval) (hfirst : 0 < first) {e : Event}
    {made : List Entry} (h : KeptIn first interval index s made) (hleft : LeftAlone index s e) :
    ChoosesNext index first interval s e := by
  intro job job' hjob hjob'
  obtain ⟨kept, hkept, hinv⟩ := h.kept
  rw [hjob, Option.some.injEq] at hkept
  subst hkept
  obtain ⟨after, hafter, hdoes⟩ := step_does hjob hleft
  rw [hjob', Option.some.injEq] at hafter
  subst hafter
  have hmove := hdoes.move hinterval hfirst h.fits hinv
  refine ⟨hmove.rises, fun hbare harmed => ⟨hmove.ahead hbare harmed, fun k hk => ?_⟩⟩
  rcases hmove.kept with hon | hoff
  · have hopen := hon.idle_open (hon.event harmed).1
    have hnear := hon.near
    rw [hopen] at hnear ⊢
    exact next_slot_least hnear hk
  · exact absurd (hoff.bare.symm.trans harmed) Bool.false_ne_true

theorem FirstDue.keptIn {job : Job} (h : FirstDue s job first interval)
    (hjob : s.jobs[index]? = some job) : KeptIn first interval index s [] := by
  refine ⟨h.ahead.le.trans h.fits, job, hjob, ?_⟩
  by_cases hmax : first = ullMax
  · right
    refine ⟨?_, .inr ⟨h.due.trans hmax, h.idle, h.policy, h.rate ▸ h.positive⟩⟩
    by_contra harmed
    rw [Bool.not_eq_false] at harmed
    exact absurd hmax (h.event harmed).2.ne
  · left
    have hopen : job.openSlot = first := by
      rw [Job.openSlot, h.idle]
      exact h.due
    refine ⟨h.enabled, h.policy, h.rate, ?_, ?_, fun harmed => ⟨h.idle, ?_⟩, .inl h.due, ?_, ?_,
      h.unrun.symm, h.unmissed.symm⟩
    · rw [hopen, h.unrun, h.unmissed, Nat.zero_mul, Nat.add_zero]
    · rw [h.due]
      exact lt_of_le_of_ne h.fits hmax
    · rw [h.due]
      exact (h.event harmed).1
    · intro hrunning
      exact absurd (h.idle.symm.trans hrunning) Bool.false_ne_true
    · rw [h.unrun, h.unmissed]
      rfl

theorem OnSchedule.onPhase {tick : Nat} {job : Job} {made : List Entry} (hinterval : 0 < interval)
    (h : OnSchedule first interval tick job made) (harmed : job.armed = true) :
    OnPhase first interval job made := by
  obtain ⟨hidle, hhandle⟩ := h.event harmed
  have hdue := h.idle_open hidle
  have hlist : made.map Entry.slot ++ [job.nextDueTick] =
      slots first interval (job.totalRuns + job.missedRuns + 1) := by
    rw [slots_add, slots_one, h.accounted, hdue]
  refine ⟨hdue, hhandle, ?_, h.accounted, ?_, h.ran, h.missed, ?_⟩
  · rw [hdue, Nat.add_mul_mod_self_right]
  · rw [hlist]
    exact slots_increasing hinterval first _
  · have hnodup : (made.map Entry.slot).Nodup := by
      rw [h.accounted]
      exact (slots_increasing hinterval first _).imp Nat.ne_of_lt
    intro slot hran hmissed
    obtain ⟨ran, hran, hslot⟩ := List.mem_filterMap.mp hran
    obtain ⟨missed, hmissed, hslot'⟩ := List.mem_filterMap.mp hmissed
    cases ran with
    | missed _ => cases hslot
    | ran slot =>
        cases missed with
        | ran _ => cases hslot'
        | missed slot' =>
            cases hslot
            cases hslot'
            cases List.inj_on_of_nodup_map hnodup hran hmissed rfl

theorem scheduleAt_firstDue {s' : State} (job : Job) {delay : Nat} (afterEventsCall added : Bool)
    (hclock : s.tick < ullMax) (htick : s'.tick = s.tick) (henabled : job.enabled = true)
    (hpolicy : job.policy = .fixedRate) (hinterval : 0 < job.interval) (hdelay : 0 < delay)
    (hdue : job.nextDueTick = addTicks s.tick delay) (hidle : job.running = false)
    (hbare : job.armed = false) (hunrun : job.totalRuns = 0) (hunmissed : job.missedRuns = 0) :
    FirstDue s' (scheduleAt s.tick afterEventsCall added job job.nextDueTick).1
      (addTicks s.tick delay) job.interval := by
  have hahead : s.tick < addTicks s.tick delay := by
    rw [addTicks]
    split <;> omega
  have hfits : addTicks s.tick delay ≤ ullMax := by
    rw [addTicks]
    split <;> omega
  obtain ⟨hsame, hevent⟩ := scheduleAt_cases afterEventsCall added henabled hdue (.inl hahead) hfits
    hclock.le
  rw [hdue]
  refine ⟨hsame.enabled.trans henabled, hsame.policy.trans hpolicy, hsame.interval, hinterval,
    hsame.due.trans hdue, htick ▸ hahead, hfits, hsame.running.trans hidle, fun harmed => ?_,
    hsame.total.trans hunrun, hsame.missed.trans hunmissed⟩
  rcases hevent with hold | ⟨-, hlt, hnew⟩
  · rw [Job.armed, hold] at harmed
    exact absurd (hbare.symm.trans harmed) Bool.false_ne_true
  · exact ⟨hnew, hlt⟩

/-- Registering a job of a fixed rate that is switched on, whether or not its event finds room. -/
theorem register_firstDue {key : Option Bytes} {callback : Option Nat} {initialDelay interval : Nat}
    {added : Bool} {registered : State × Result} (hclock : s.tick < ullMax)
    (hregister : register s key callback initialDelay interval .fixedRate true added = registered)
    (hresult : registered.2 = .registered ∨ registered.2 = .scheduleFailed) :
    ∃ job, registered.1.jobs[s.jobs.length]? = some job ∧
      FirstDue registered.1 job (addTicks s.tick initialDelay) interval := by
  have hrefused : ∀ {s' : State} {result : Result}, (s', result) = registered →
      ¬(result = .registered ∨ result = .scheduleFailed) → False := by
    rintro s' result rfl hnot
    exact hnot hresult
  unfold register at hregister
  split at hregister
  · next key callback =>
    split at hregister
    · exact (hrefused hregister (by decide)).elim
    · next hvalid =>
      simp only [not_or] at hvalid
      split at hregister
      · split at hregister <;> exact (hrefused hregister (by decide)).elim
      · split at hregister
        · exact (hrefused hregister (by decide)).elim
        · split at hregister
          · exact (hrefused hregister (by decide)).elim
          · rw [if_pos rfl] at hregister
            subst hregister
            refine ⟨_, List.getElem?_concat_length, ?_⟩
            exact scheduleAt_firstDue (newJob s.tick key callback initialDelay interval
              .fixedRate true) s.afterEventsCall added hclock rfl rfl rfl
              (Nat.pos_of_ne_zero hvalid.2.2.2.2.1) (Nat.pos_of_ne_zero hvalid.2.2.1) rfl rfl rfl
              rfl rfl
  · exact (hrefused hregister (by decide)).elim

/-- A job of a fixed rate that is left alone keeps its phase and accounts for every slot, over
every run of the server. -/
theorem fixed_rate_keeps_phase {s : State} {job : Job} (hfirst : FirstDue s job first interval)
    (hjob : s.jobs[index]? = some job) (events : List Event)
    (hleft : Along step (LeftAlone index) s events) :
    (∀ job', (run step s events).jobs[index]? = some job' → job'.armed = true →
      OnPhase first interval job' (output step (settles index) s events)) ∧
    Along step (ChoosesNext index first interval) s events := by
  have hinterval := hfirst.positive
  have hpos : 0 < first := Nat.zero_lt_of_lt hfirst.ahead
  have hkept := hfirst.keptIn hjob
  constructor
  · intro job' hjob' harmed
    obtain ⟨-, after, hafter, hend⟩ :=
      run_output_invariant_along (fun s e made h => h.step hinterval hpos s e made) events hkept
        hleft
    rw [hjob', Option.some.injEq] at hafter
    subst hafter
    rcases hend with hon | hoff
    · exact hon.onPhase hinterval harmed
    · exact absurd (hoff.bare.symm.trans harmed) Bool.false_ne_true
  · refine along_of_invariant_along (P := fun s => ∃ made, KeptIn first interval index s made)
      ?_ ?_ events ⟨[], hkept⟩ hleft
    · rintro s e ⟨made, h⟩ hok
      exact ⟨_, h.step hinterval hpos s e made hok⟩
    · rintro s e ⟨made, h⟩ hok
      exact h.choosesNext hinterval hpos hok

end

/-- A pass in which these calls are made, and the end of its tick. -/
def passOf (calls : List Event) : List Event :=
  .beginPass :: calls ++ [.watchdog fun _ => true, .advanceTick]

/-- The job is first due at tick 3. The budget defers its event to the next tick, where its
successor for tick 8 finds no room; the watchdog tries again at tick 8, which is missed by then;
the event for tick 13 is cancelled and repaired. -/
def lateEvents : List Event :=
  [passOf [], passOf [], passOf [], passOf [], passOf [.begin 0, .complete false], passOf [],
    passOf [], passOf [], passOf [], passOf [.cancel 0]].flatten

def heartbeat : State :=
  (register {} (some [104]) (some 1) 3 5 .fixedRate true true).1

theorem late_heartbeat_keeps_phase :
    ∃ job', (run step heartbeat lateEvents).jobs[0]? = some job' ∧ job'.nextDueTick = 13 ∧
      OnPhase 3 5 job' [.ran 3, .missed 8] := by
  have hregister : register {} (some [104]) (some 1) 3 5 .fixedRate true true =
      (heartbeat, .registered) := rfl
  obtain ⟨job, hjob, hfirst⟩ := register_firstDue (by decide) hregister (.inl rfl)
  have hleft : Along step (LeftAlone 0) heartbeat lateEvents := by
    simp [lateEvents, passOf, Along, LeftAlone]
  exact ⟨_, rfl, rfl, (fixed_rate_keeps_phase hfirst hjob lateEvents hleft).1 _ rfl rfl⟩

end Duris.Periodic
