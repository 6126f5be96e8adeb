import Duris.Persistence.MaintenanceScheduler

/-!
# The maintenance scheduler resumes where it was

What a job is at is written down in up to three places that differ: the health and the
durable state in memory, a copy the worker is about to write, and the file. `Continuable`
says of one record that going on from it obeys the rule of `PagedWork`, given what has been
executed, and it holds of all of them in every state. Only executing a request makes the
history longer, and then memory and file are both at that request (`At`), so that going on
from either is running it again.

A job has its request in one place at most: a request in the queue, at the worker or among
the completions keeps its job active (`Waiting`, `Completed`), and only a job that is not
active is given a request.
-/

namespace Duris.Maintenance

open PagedWork

/-! ## Records -/

def Known (job : JobId) : Prop := indexOf job < maintenanceJobCount

theorem indexOf_inj {a b : JobId} : indexOf a = indexOf b ↔ a = b := BitVec.toNat_inj

/-- The record is one that `load_state` accepts, and its request and completion are the
job's. -/
structure Sound (job : JobId) (record : DurableJob) : Prop where
  blank : record.workId = 0 →
    record.cursor = 0 ∧ record.requestPending = false ∧ record.completionPending = false
  request : record.requestPending = true →
    record.request.workId = record.workId ∧ record.request.cursor = record.cursor ∧
      record.request.jobId = job
  completion : record.completionPending = true →
    record.completion.workId = record.workId ∧ record.completion.jobId = job

theorem Sound.valid {job : JobId} {record : DurableJob} (h : Sound job record)
    (hknown : Known job) : record.valid = true := by
  have hjob : ¬ maintenanceJobCount ≤ indexOf job := Nat.not_le.mpr hknown
  obtain ⟨hblank, hrequest, hcompletion⟩ := h
  rw [DurableJob.valid]
  by_cases hwork : record.workId = 0
  · obtain ⟨hcursor, hpending, hdone⟩ := hblank hwork
    simp [hwork, hcursor, hpending, hdone]
  · have hwork : ¬ record.workId = 0#64 := hwork
    cases hpending : record.requestPending with
    | false =>
        cases hdone : record.completionPending with
        | false => simp [hwork]
        | true =>
            obtain ⟨hsame, hof⟩ := hcompletion hdone
            simp [hwork, hsame, hof, hjob]
    | true =>
        obtain ⟨hsame, hcursor, hof⟩ := hrequest hpending
        cases hdone : record.completionPending with
        | false => simp [hwork, hsame, hcursor, hof, hjob]
        | true =>
            obtain ⟨hsame', hof'⟩ := hcompletion hdone
            simp [hwork, hsame, hcursor, hof, hsame', hof', hjob]

/-- Applying the result of this page keeps to the rule. -/
def Fits (distinct : Prop) (log : List (Entry WorkId Cursor)) (work : WorkId) (cursor : Cursor)
    (result : Result) : Prop :=
  match result.outcome with
  | .complete | .permanentFailure => MayStart log
  | .more => MayRun distinct log ⟨work, result.nextCursor⟩
  | .retryableFailure | .cancelled => MayRun distinct log ⟨work, cursor⟩

/-- Going on from the record keeps to the rule. -/
structure Continuable (distinct : Prop) (log : List (Entry WorkId Cursor))
    (record : DurableJob) : Prop where
  start : record.workId = 0 → MayStart log
  completion : record.workId ≠ 0 → record.completionPending = true →
    Fits distinct log record.workId record.cursor record.completion
  page : record.workId ≠ 0 → record.completionPending = false →
    MayRun distinct log ⟨record.workId, record.cursor⟩

/-- The record stands at the page of this request. -/
structure At (request : Request) (record : DurableJob) : Prop where
  work : record.workId = request.workId
  cursor : record.cursor = request.cursor
  open' : record.completionPending = false

theorem sound_blank (job : JobId) : Sound job {} := ⟨fun _ => ⟨rfl, rfl, rfl⟩, nofun, nofun⟩

theorem sound_activated {request : Request} (hwork : request.workId ≠ 0) :
    Sound request.jobId (.activated request) :=
  ⟨fun h => absurd h hwork, fun _ => ⟨rfl, rfl, rfl⟩, nofun⟩

theorem at_activated (request : Request) : At request (.activated request) := ⟨rfl, rfl, rfl⟩

theorem At.continuable {distinct : Prop} {log : List (Entry WorkId Cursor)} {request : Request}
    {record : DurableJob} (h : At request record) (hwork : request.workId ≠ 0)
    (hpage : MayRun distinct log ⟨request.workId, request.cursor⟩) :
    Continuable distinct log record where
  start hzero := absurd (h.work.symm.trans hzero) hwork
  completion _ hdone := by
    rw [h.open'] at hdone
    cases hdone
  page _ _ := by
    rw [h.work, h.cursor]
    exact hpage

theorem fits_verdict {distinct : Prop} {log : List (Entry WorkId Cursor)} (work : WorkId)
    (cursor : Cursor) (result : Result) :
    Fits distinct (.ran ⟨work, cursor⟩ (verdict (some result)) :: log) work cursor result := by
  rw [Fits, verdict]
  cases result.outcome with
  | complete => trivial
  | more => exact mayRun_more result.nextCursor
  | retryableFailure => exact mayRun_again _
  | permanentFailure => trivial
  | cancelled => exact mayRun_again _

/-! ## Views -/

/-- What a state says of one job. -/
structure View where
  active : Bool
  work : WorkId
  cursor : Cursor
  record : DurableJob
  log : List (Entry WorkId Cursor)

def State.view (s : State) (job : JobId) : View :=
  { active := (s.jobs (indexOf job)).active
    work := (s.jobs (indexOf job)).workId
    cursor := (s.jobs (indexOf job)).cursor
    record := s.durable.jobs (indexOf job)
    log := s.log job }

structure Carries (view : View) (work : WorkId) (cursor : Cursor) : Prop where
  active : view.active = true
  sameWork : view.work = work
  sameCursor : view.cursor = cursor
  nonzero : work ≠ 0

structure Waiting (distinct : Prop) (view : View) (request : Request) : Prop
    extends Carries view request.workId request.cursor where
  page : MayRun distinct view.log ⟨request.workId, request.cursor⟩

structure Completed (distinct : Prop) (view : View) (result : Result) : Prop
    extends Carries view result.workId view.cursor where
  fits : Fits distinct view.log result.workId view.cursor result
  recordWork : view.record.workId = result.workId
  recordCursor : view.record.cursor = view.cursor

structure ResultOf (distinct : Prop) (view : View) (request : Request) (result : Result) :
    Prop extends Waiting distinct view request where
  resultWork : result.workId = request.workId
  resultJob : result.jobId = request.jobId
  fits : Fits distinct view.log request.workId request.cursor result
  recordWork : view.record.workId = request.workId
  recordCursor : view.record.cursor = request.cursor

/-- A copy of the durable state: what is known of the catalogue of epic tasks is forgotten
when the scheduler starts. -/
structure Copy (distinct : Prop) (log : JobId → List (Entry WorkId Cursor))
    (state : DurableState) : Prop where
  magic : state.magic = "DMSMNT3"
  version : state.version = 3
  jobCount : state.jobCount = BitVec.ofNat 32 maintenanceJobCount
  sound : ∀ job, Known job → Sound job (state.jobs (indexOf job))
  continuable : ∀ job, Known job → job ≠ .epicTaskCatalog →
    Continuable distinct (log job) (state.jobs (indexOf job))

def OnDisk (layout : Layout) (distinct : Prop) (log : JobId → List (Entry WorkId Cursor)) :
    Option StateFile → Prop
  | none => ∀ job, job ≠ .epicTaskCatalog → MayStart (log job)
  | some file => ∃ state, file = stateFile layout state ∧ Copy distinct log state

/-- The file stands at the page of this request. -/
def DiskAt (layout : Layout) (request : Request) (disk : Option StateFile) : Prop :=
  ∃ state, disk = some (stateFile layout state) ∧
    At request (state.jobs (indexOf request.jobId))

def PhaseOk (layout : Layout) (distinct : Prop) (view : JobId → View)
    (disk : Option StateFile) (history : List HistoryEntry) : WorkerPhase → Prop
  | .absent => False
  | .created | .waiting | .syncFailed | .exited => True
  | .syncing state => Copy distinct (fun job => (view job).log) state
  | .starting request =>
      Known request.jobId ∧ Waiting distinct (view request.jobId) request
  | .activating request state =>
      Known request.jobId ∧ Waiting distinct (view request.jobId) request ∧
        At request (view request.jobId).record ∧
        Copy distinct (fun job => (view job).log) state ∧
        At request (state.jobs (indexOf request.jobId))
  | .executing request =>
      Known request.jobId ∧ Waiting distinct (view request.jobId) request ∧
        At request (view request.jobId).record ∧ DiskAt layout request disk
  | .calling request =>
      Known request.jobId ∧ Waiting distinct (view request.jobId) request ∧
        At request (view request.jobId).record ∧ DiskAt layout request disk ∧
        ∃ older, history = .executed request none :: older
  | .finishing request result =>
      Known request.jobId ∧ ResultOf distinct (view request.jobId) request result
  | .completing request result state =>
      Known request.jobId ∧ ResultOf distinct (view request.jobId) request result ∧
        Copy distinct (fun job => (view job).log) state
  | .withdrawing request result =>
      Known request.jobId ∧ ResultOf distinct (view request.jobId) request result
  | .delivering result =>
      Known result.jobId ∧ Completed distinct (view result.jobId) result ∧
        MayRun distinct (view result.jobId).log ⟨result.workId, (view result.jobId).cursor⟩

structure Live (layout : Layout) (distinct : Prop) (s : State) : Prop where
  memory : Copy distinct s.log s.durable
  catalog : Continuable distinct (s.log .epicTaskCatalog)
    (s.durable.jobs (indexOf .epicTaskCatalog))
  queue : ∀ request ∈ s.queue,
    Known request.jobId ∧ Waiting distinct (s.view request.jobId) request
  phase : PhaseOk layout distinct s.view s.disk s.history s.phase
  completions : ∀ result ∈ s.completions,
    Known result.jobId ∧ Completed distinct (s.view result.jobId) result
  held : s.held.Nodup
  idle : s.running = true → s.stopRequested = false → ∀ job, Known job →
    (s.view job).active = false →
      (s.view job).work = (s.view job).record.workId ∧
        (s.view job).cursor = (s.view job).record.cursor ∧
        (s.view job).record.completionPending = false

/-- No worker: what a start without a thread has restored may be left. -/
structure Dead (s : State) : Prop where
  phase : s.phase = .absent
  running : s.running = false
  queue : ∀ request ∈ s.queue, Known request.jobId
  held : s.held.Nodup

structure Inv (layout : Layout) (distinct : Prop) (s : State) : Prop where
  chained : ∀ job, Chained distinct (s.log job)
  disk : OnDisk layout distinct s.log s.disk
  memory : Dead s ∨ Live layout distinct s

section

variable {layout : Layout} {distinct : Prop} {log : JobId → List (Entry WorkId Cursor)}
  {job : JobId} {prepare : Prepare} {result : Result} {view : View}

/-! ## The file -/

variable {index : Nat} {state : DurableState} {disk : Option StateFile}
  {history : List HistoryEntry} {phase : WorkerPhase} {s s' : State} {health : JobHealth}
  {request : Request} {tick : Tick} {draws : List (Option WorkId)} {now : BitVec 64}
  {log' : JobId → List (Entry WorkId Cursor)} {older : List (Entry WorkId Cursor)}

theorem indexOf_ofNat (h : index < maintenanceJobCount) :
    indexOf (BitVec.ofNat 8 index) = index := by
  rw [indexOf, BitVec.toNat_ofNat]
  exact Nat.mod_eq_of_lt (Nat.lt_trans h (by decide))

theorem Copy.allValid (h : Copy distinct log state) :
    ((List.range maintenanceJobCount).all fun index => (state.jobs index).valid) = true := by
  rw [List.all_eq_true]
  intro index hindex
  rw [List.mem_range] at hindex
  have hknown : Known (BitVec.ofNat 8 index) := by rw [Known, indexOf_ofNat hindex]; exact hindex
  have hvalid := (h.sound _ hknown).valid hknown
  rwa [indexOf_ofNat hindex] at hvalid

theorem Copy.loads (h : Copy distinct log state) :
    loadState layout true (some (stateFile layout state)) = (state, true) := by
  have hvalid := h.allValid
  rw [stateFile]
  simp only [loadState, h.magic, h.version, h.jobCount, Bool.not_true, Bool.false_eq_true,
    if_false, ne_eq, not_true_eq_false, or_self, hvalid]

theorem stateFile_inj {a b : DurableState} (h : stateFile layout a = stateFile layout b) :
    a = b := by
  injection h

theorem OnDisk.loaded (h : OnDisk layout distinct log disk) :
    (loadState layout true disk).2 = true ∧
      Copy distinct log (loadState layout true disk).1 := by
  match disk, h with
  | none, hstart =>
      exact ⟨rfl, rfl, rfl, rfl, fun job _ => sound_blank job,
        fun job _ hne => ⟨fun _ => hstart job hne, fun h => absurd rfl h, fun h => absurd rfl h⟩⟩
  | some _, ⟨state, rfl, hcopy⟩ =>
      rw [hcopy.loads]
      exact ⟨rfl, hcopy⟩

theorem OnDisk.persist (h : OnDisk layout distinct log disk) (hcopy : Copy distinct log state)
    (answer : Persisted) : OnDisk layout distinct log (persistState layout disk state answer) := by
  match answer with
  | .written => exact ⟨state, rfl, hcopy⟩
  | .failed true => exact ⟨state, rfl, hcopy⟩
  | .failed false => exact h

/-! ## What does not change -/

theorem Dead.empty (hphase : s.phase = .absent) (hrunning : s.running = false)
    (hqueue : s.queue = []) (hcompletions : s.completions = []) : Dead s := by
  refine ⟨hphase, hrunning, ?_, ?_⟩
  · rw [hqueue]
    exact fun _ hmem => absurd hmem List.not_mem_nil
  · rw [State.held, hqueue, hcompletions, hphase]
    exact List.nodup_nil

/-- What has no worker can only lose what it holds. -/
theorem Dead.shrink (h : Dead s) (hphase : s'.phase = s.phase) (hrunning : s'.running = s.running)
    (hqueue : s'.queue.Sublist s.queue) (hcompletions : s'.completions.Sublist s.completions) :
    Dead s' := by
  refine ⟨hphase.trans h.phase, hrunning.trans h.running,
    fun request hmem => h.queue request (hqueue.subset hmem), ?_⟩
  have hheld : s'.held.Sublist s.held := by
    rw [State.held, State.held, hphase]
    exact ((hqueue.map _).append (.refl _)).append (hcompletions.map _)
  exact hheld.nodup h.held

theorem Inv.initial : Inv layout distinct ({} : State) :=
  ⟨fun _ => trivial, fun _ _ => trivial, .inl (Dead.empty rfl rfl rfl rfl)⟩

theorem PhaseOk.frame {view view' : JobId → View}
    (h : PhaseOk layout distinct view disk history phase)
    (hlog : ∀ job, (view' job).log = (view job).log)
    (hsame : ∀ job, phase.job = some job → view' job = view job) :
    PhaseOk layout distinct view' disk history phase := by
  have hlogs : (fun job => (view' job).log) = fun job => (view job).log := funext hlog
  cases phase with
  | absent => exact h
  | created => trivial
  | waiting => trivial
  | syncing state =>
      rw [PhaseOk, hlogs]
      exact h
  | syncFailed => trivial
  | starting request =>
      rw [PhaseOk, hsame _ rfl]
      exact h
  | activating request state =>
      rw [PhaseOk, hsame _ rfl, hlogs]
      exact h
  | executing request =>
      rw [PhaseOk, hsame _ rfl]
      exact h
  | calling request =>
      rw [PhaseOk, hsame _ rfl]
      exact h
  | finishing request result =>
      rw [PhaseOk, hsame _ rfl]
      exact h
  | completing request result state =>
      rw [PhaseOk, hsame _ rfl, hlogs]
      exact h
  | withdrawing request result =>
      rw [PhaseOk, hsame _ rfl]
      exact h
  | delivering result =>
      rw [PhaseOk, hsame _ rfl]
      exact h
  | exited => trivial

theorem PhaseOk.carries {view : JobId → View}
    (h : PhaseOk layout distinct view disk history phase) (hjob : phase.job = some job) :
    Known job ∧ (view job).active = true := by
  cases phase with
  | starting request =>
      cases hjob
      exact ⟨h.1, h.2.active⟩
  | activating request state =>
      cases hjob
      exact ⟨h.1, h.2.1.active⟩
  | executing request =>
      cases hjob
      exact ⟨h.1, h.2.1.active⟩
  | calling request =>
      cases hjob
      exact ⟨h.1, h.2.1.active⟩
  | finishing request result =>
      cases hjob
      exact ⟨h.1, h.2.active⟩
  | completing request result state =>
      cases hjob
      exact ⟨h.1, h.2.1.active⟩
  | withdrawing request result =>
      cases hjob
      exact ⟨h.1, h.2.active⟩
  | delivering result =>
      cases hjob
      exact ⟨h.1, h.2.1.active⟩
  | _ => cases hjob

theorem Live.active (h : Live layout distinct s) (hheld : job ∈ s.held) :
    Known job ∧ (s.view job).active = true := by
  rw [State.held, List.mem_append, List.mem_append] at hheld
  rcases hheld with (hqueue | hphase) | hdone
  · obtain ⟨request, hmem, rfl⟩ := List.mem_map.mp hqueue
    exact ⟨(h.queue request hmem).1, (h.queue request hmem).2.active⟩
  · exact h.phase.carries (Option.mem_toList.mp hphase)
  · obtain ⟨result, hmem, rfl⟩ := List.mem_map.mp hdone
    exact ⟨(h.completions result hmem).1, (h.completions result hmem).2.active⟩

/-- A job that is known and held nowhere can change without the others noticing. -/
theorem view_setJob {index : JobId} (health : JobHealth) (hne : job ≠ index) :
    (s.setJob (indexOf index) health).view job = s.view job := by
  have hindex : indexOf job ≠ indexOf index := fun h => hne (indexOf_inj.mp h)
  simp only [State.view, State.setJob, State.log, Function.update_of_ne hindex]

theorem view_setDurable {index : JobId} (record : DurableJob) (hne : job ≠ index) :
    (s.setDurable (indexOf index) record).view job = s.view job := by
  have hindex : indexOf job ≠ indexOf index := fun h => hne (indexOf_inj.mp h)
  simp only [State.view, State.setDurable, State.log, Function.update_of_ne hindex]

theorem Live.congr (h : Live layout distinct s) (hview : s'.view = s.view)
    (hdurable : s'.durable = s.durable) (hqueue : s'.queue = s.queue)
    (hcompletions : s'.completions = s.completions) (hphase : s'.phase = s.phase)
    (hdisk : s'.disk = s.disk) (hhistory : s'.history = s.history)
    (hrunning : s'.running = true → s.running = true)
    (hstop : s'.stopRequested = false → s.stopRequested = false) : Live layout distinct s' where
  memory := by
    have hlog : s'.log = s.log := funext fun job => congrArg View.log (congrFun hview job)
    rw [hdurable, hlog]
    exact h.memory
  catalog := by
    have hlog : s'.log = s.log := funext fun job => congrArg View.log (congrFun hview job)
    rw [hdurable, hlog]
    exact h.catalog
  queue := by
    rw [hqueue, hview]
    exact h.queue
  phase := by
    rw [hphase, hview, hdisk, hhistory]
    exact h.phase
  completions := by
    rw [hcompletions, hview]
    exact h.completions
  held := by
    rw [State.held, hqueue, hphase, hcompletions]
    exact h.held
  idle hr hs := by
    rw [hview]
    exact h.idle (hrunning hr) (hstop hs)

/-! ## Submitting -/

structure JobHealth.Same (a b : JobHealth) : Prop where
  active : a.active = b.active
  workId : a.workId = b.workId
  cursor : a.cursor = b.cursor

theorem considerJob_spec (tick : Tick) (found : (Nat → JobHealth) × Option JobDefinition)
    (definition : JobDefinition) :
    (∀ index, ((considerJob tick found definition).1 index).Same (found.1 index)) ∧
      ∀ selected, (considerJob tick found definition).2 = some selected →
        found.2 = some selected ∨
          (selected = definition ∧ (found.1 (indexOf definition.id)).active = false) := by
  have hrefl : ∀ index, (found.1 index).Same (found.1 index) := fun _ => ⟨rfl, rfl, rfl⟩
  simp only [considerJob]
  split
  · exact ⟨hrefl, fun selected h => .inl h⟩
  · split
    · exact ⟨hrefl, fun selected h => .inl h⟩
    · split
      · refine ⟨fun index => ?_, fun selected h => .inl h⟩
        show JobHealth.Same (Function.update found.1 _ _ index) _
        by_cases hindex : index = indexOf definition.id
        · subst hindex
          rw [Function.update_self]
          exact ⟨rfl, rfl, rfl⟩
        · rw [Function.update_of_ne hindex]
          exact hrefl index
      · next hactive =>
          have hidle := Bool.eq_false_iff.mpr hactive
          split
          · exact ⟨hrefl, fun selected h => .inr ⟨(Option.some.inj h).symm, hidle⟩⟩
          · split
            · exact ⟨hrefl, fun selected h => .inr ⟨(Option.some.inj h).symm, hidle⟩⟩
            · exact ⟨hrefl, fun selected h => .inl h⟩

theorem scan_spec (tick : Tick) (definitions : List JobDefinition) :
    ∀ found : (Nat → JobHealth) × Option JobDefinition,
      (∀ index, ((definitions.foldl (considerJob tick) found).1 index).Same (found.1 index)) ∧
        ∀ selected, (definitions.foldl (considerJob tick) found).2 = some selected →
          found.2 = some selected ∨
            (selected ∈ definitions ∧ (found.1 (indexOf selected.id)).active = false) := by
  induction definitions with
  | nil => exact fun found => ⟨fun _ => ⟨rfl, rfl, rfl⟩, fun _ h => .inl h⟩
  | cons definition definitions ih =>
      intro found
      obtain ⟨hsame, hselected⟩ := considerJob_spec tick found definition
      obtain ⟨hsame', hselected'⟩ := ih (considerJob tick found definition)
      rw [List.foldl_cons]
      refine ⟨fun index => ⟨?_, ?_, ?_⟩, fun selected h => ?_⟩
      · exact (hsame' index).active.trans (hsame index).active
      · exact (hsame' index).workId.trans (hsame index).workId
      · exact (hsame' index).cursor.trans (hsame index).cursor
      · rcases hselected' selected h with hfound | ⟨hmem, hidle⟩
        · refine (hselected selected hfound).imp_right ?_
          intro ⟨heq, hidle⟩
          subst heq
          exact ⟨List.mem_cons_self, hidle⟩
        · exact .inr ⟨List.mem_cons_of_mem _ hmem, (hsame _).active.symm.trans hidle⟩

theorem registry_known : ∀ definition ∈ registry, Known definition.id := by
  show ∀ definition ∈ registry, indexOf definition.id < maintenanceJobCount
  decide

theorem view_timing (hsame : ∀ index, (s'.jobs index).Same (s.jobs index))
    (hdurable : s'.durable = s.durable) (hhistory : s'.history = s.history) : s'.view = s.view := by
  funext job
  rw [State.view, State.view, State.log, State.log, (hsame _).active, (hsame _).workId,
    (hsame _).cursor, hdurable, hhistory]

theorem setJob_same (hsame : health.Same (s.jobs index)) (k : Nat) :
    ((s.setJob index health).jobs k).Same (s.jobs k) := by
  rw [State.setJob]
  by_cases hk : k = index
  · subst hk
    show JobHealth.Same (Function.update s.jobs k health k) _
    rw [Function.update_self]
    exact hsame
  · show JobHealth.Same (Function.update s.jobs index health k) _
    rw [Function.update_of_ne hk]
    exact ⟨rfl, rfl, rfl⟩

theorem Live.delayed (h : Live layout distinct s) (hsame : health.Same (s.jobs index)) :
    Live layout distinct (s.setJob index health) :=
  h.congr (view_timing (setJob_same hsame) rfl rfl) rfl rfl rfl rfl rfl rfl id id

theorem Live.enqueue (h : Live layout distinct s) {selected : JobDefinition} {workId : WorkId}
    (hknown : Known selected.id) (hidle : (s.view selected.id).active = false)
    (hjob : request.jobId = selected.id) (hwork : request.workId = workId) (hne : workId ≠ 0)
    (hcursor : request.cursor = (s.view selected.id).cursor)
    (hpage : MayRun distinct (s.log selected.id) ⟨request.workId, request.cursor⟩) :
    Live layout distinct (enqueue s selected request workId) := by
  have hunheld : selected.id ∉ s.held := by
    intro hheld
    rw [(h.active hheld).2] at hidle
    cases hidle
  have hothers : ∀ job, job ≠ selected.id →
      (Maintenance.enqueue s selected request workId).view job = s.view job :=
    fun job hother => view_setJob _ hother
  have hself : Waiting distinct ((Maintenance.enqueue s selected request workId).view selected.id)
      request := by
    have hhealth : (Maintenance.enqueue s selected request workId).jobs (indexOf selected.id) =
        { s.jobs (indexOf selected.id) with
          workId := workId
          active := true
          nextDueTick := (s.jobs (indexOf selected.id)).nextDueTick + selected.cadenceTicks } :=
      Function.update_self ..
    refine ⟨⟨?_, ?_, ?_, by rw [hwork]; exact hne⟩, hpage⟩
    · rw [State.view, hhealth]
    · rw [State.view, hhealth, hwork]
    · rw [State.view, hhealth, hcursor]
      rfl
  have hheld : ∀ job ∈ s.held, job ≠ selected.id := fun job hmem heq => hunheld (heq ▸ hmem)
  refine ⟨h.memory, h.catalog, ?_, ?_, ?_, ?_, ?_⟩
  · intro other hmem
    rcases List.mem_append.mp hmem with hmem | hmem
    · rw [hothers _ (hheld _ (List.mem_append_left _ (List.mem_append_left _
        (List.mem_map_of_mem hmem))))]
      exact h.queue other hmem
    · cases List.mem_singleton.mp hmem
      rw [hjob]
      exact ⟨hknown, hself⟩
  · refine h.phase.frame (fun _ => rfl) fun job hphase => hothers job (hheld job ?_)
    exact List.mem_append_left _ (List.mem_append_right _ (Option.mem_toList.mpr hphase))
  · intro result hmem
    rw [hothers _ (hheld _ (List.mem_append_right _ (List.mem_map_of_mem hmem)))]
    exact h.completions result hmem
  · have hperm : (Maintenance.enqueue s selected request workId).held.Perm
        (selected.id :: s.held) := by
      show ((s.queue ++ [request]).map Request.jobId ++ s.phase.job.toList ++
        s.completions.map Result.jobId).Perm _
      rw [List.map_append, List.map_singleton, hjob, State.held, List.append_assoc,
        List.append_assoc, List.append_assoc]
      exact List.perm_middle
    exact hperm.nodup_iff.mpr (List.nodup_cons.mpr ⟨hunheld, h.held⟩)
  · intro hrunning hstop job hjobKnown hinactive
    by_cases heq : job = selected.id
    · subst heq
      rw [hself.active] at hinactive
      cases hinactive
    · rw [hothers job heq] at hinactive ⊢
      exact h.idle hrunning hstop job hjobKnown hinactive

theorem nextWorkId_fresh {work : WorkId}
    (hdraw : ∀ request result, .executed request result ∈ s.history → request.workId ≠ work) :
    work ∉ works (s.log job) := by
  have hworks : ∀ history : List HistoryEntry,
      (∀ request result, .executed request result ∈ history → request.workId ≠ work) →
        work ∉ works (history.filterMap (HistoryEntry.entry job)) := by
    intro history
    induction history with
    | nil => exact fun _ => List.not_mem_nil
    | cons entry history ih =>
        intro hall
        have hrest := ih fun request result hmem =>
          hall request result (List.mem_cons_of_mem _ hmem)
        cases entry with
        | started =>
            by_cases hjob : job = .epicTaskCatalog
            · rw [List.filterMap_cons, HistoryEntry.entry, if_pos hjob]
              exact hrest
            · rw [List.filterMap_cons, HistoryEntry.entry, if_neg hjob]
              exact hrest
        | executed request result =>
            by_cases hjob : request.jobId = job
            · rw [List.filterMap_cons, HistoryEntry.entry, if_pos hjob]
              show work ∉ request.workId :: _
              rw [List.mem_cons, not_or]
              exact ⟨(hall request result List.mem_cons_self).symm, hrest⟩
            · rw [List.filterMap_cons, HistoryEntry.entry, if_neg hjob]
              exact hrest
  exact hworks s.history hdraw

theorem Live.submitJob (h : Live layout distinct s) {selected : JobDefinition}
    (hknown : Known selected.id) (hidle : (s.view selected.id).active = false)
    (hrunning : s.running = true) (hstop : s.stopRequested = false)
    (hdraw : distinct → DistinctDraw s (.pulse tick 0 draws now prepare)) :
    Live layout distinct (submitJob s selected tick draws now prepare) := by
  obtain ⟨hwork, hcursor, hopen⟩ := h.idle hrunning hstop selected.id hknown hidle
  have hsound : Sound selected.id (s.view selected.id).record := h.memory.sound selected.id hknown
  have hcontinuable : Continuable distinct (s.log selected.id) (s.view selected.id).record := by
    by_cases hepic : selected.id = .epicTaskCatalog
    · rw [hepic]
      exact h.catalog
    · exact h.memory.continuable selected.id hknown hepic
  -- the page the job stands at
  have hpage : ∀ workId, workId ≠ 0 →
      workId = (if (s.view selected.id).work ≠ 0 then (s.view selected.id).work
        else nextWorkId draws) →
      MayRun distinct (s.log selected.id) ⟨workId, (s.view selected.id).cursor⟩ := by
    intro workId hne heq
    by_cases hzero : (s.view selected.id).work = 0
    · rw [if_neg (not_not_intro hzero)] at heq
      rw [hwork] at hzero
      rw [hcursor, (hsound.blank hzero).1, heq]
      exact mayRun_start (hcontinuable.start hzero) fun hd => nextWorkId_fresh (hdraw hd)
    · rw [if_pos hzero] at heq
      rw [heq, hwork, hcursor]
      rw [hwork] at hzero
      exact hcontinuable.page hzero hopen
  rw [Maintenance.submitJob]
  generalize hchoice : (if (s.jobs (indexOf selected.id)).workId ≠ 0 then
    (s.jobs (indexOf selected.id)).workId else nextWorkId draws) = workId
  split
  · exact h.delayed ⟨rfl, rfl, rfl⟩
  · next hne =>
      split
      · next hpending =>
          obtain ⟨hsame, hat, hof⟩ := hsound.request hpending
          have hnonzero : (s.view selected.id).record.workId ≠ 0 := by
            intro hzero
            have hnone : (s.durable.jobs (indexOf selected.id)).requestPending = false :=
              (hsound.blank hzero).2.1
            rw [hpending] at hnone
            cases hnone
          have hcurrent : (s.view selected.id).record.workId = workId := by
            rw [← hchoice, ← hwork]
            rw [← hwork] at hnonzero
            exact (if_pos hnonzero).symm
          have hpending : MayRun distinct (s.log selected.id)
              ⟨(s.view selected.id).record.request.workId,
                (s.view selected.id).record.request.cursor⟩ := by
            rw [hsame, hat]
            exact hcontinuable.page hnonzero hopen
          exact h.enqueue hknown hidle hof (hsame.trans hcurrent) hne (hat.trans hcursor.symm)
            hpending
      · split
        · exact h.delayed ⟨rfl, rfl, rfl⟩
        · next prepared hprepared =>
            obtain ⟨hkwork, hkjob, hkcursor⟩ := prepare.keeps _ _ hprepared
            refine h.enqueue hknown hidle hkjob hkwork hne hkcursor ?_
            rw [hkwork, hkcursor]
            exact hpage workId hne hchoice.symm

theorem Live.submitFound (h : Live layout distinct s)
    {found : (Nat → JobHealth) × Option JobDefinition}
    (hsame : ∀ index, (found.1 index).Same (s.jobs index))
    (hselected : ∀ selected, found.2 = some selected →
      selected ∈ registry ∧ (s.jobs (indexOf selected.id)).active = false)
    (hrunning : s.running = true) (hstop : s.stopRequested = false)
    (hdraw : distinct → DistinctDraw s (.pulse tick 0 draws now prepare)) :
    Live layout distinct (submitFound s found tick draws now prepare) := by
  have hview : State.view { s with jobs := found.1 } = s.view := view_timing hsame rfl rfl
  have hscanned : Live layout distinct { s with jobs := found.1 } :=
    h.congr hview rfl rfl rfl rfl rfl rfl id id
  rw [Maintenance.submitFound]
  split
  · exact hscanned
  · next selected hfound =>
      obtain ⟨hmem, hidle⟩ := hselected selected hfound
      split
      · exact hscanned
      · exact hscanned.submitJob (registry_known selected hmem) ((hsame _).active.trans hidle)
          hrunning hstop hdraw

theorem Live.submitDue (h : Live layout distinct s) (hrunning : s.running = true)
    (hstop : s.stopRequested = false)
    (hdraw : distinct → DistinctDraw s (.pulse tick 0 draws now prepare)) :
    Live layout distinct (submitDue s tick draws now prepare) := by
  obtain ⟨hsame, hselected⟩ := scan_spec tick registry (s.jobs, none)
  exact h.submitFound hsame (fun selected hfound => (hselected selected hfound).resolve_left nofun)
    hrunning hstop hdraw

/-! ## Applying a completion -/

theorem completed_record {log : List (Entry WorkId Cursor)} {record : DurableJob} (tick : Tick)
    (hsound : Sound job record) (hnonzero : result.workId ≠ 0)
    (hwork : health.workId = result.workId) (hrecordWork : record.workId = result.workId)
    (hrecordCursor : record.cursor = health.cursor)
    (hfits : Fits distinct log result.workId health.cursor result) :
    Sound job (record.completed (health.completed result tick) result.outcome) ∧
      Continuable distinct log
        (record.completed (health.completed result tick) result.outcome) := by
  rw [Fits] at hfits
  have hkept : Sound job
      { workId := health.workId
        cursor := health.cursor
        requestPending := record.requestPending
        request := record.request } := by
    refine ⟨fun hzero => absurd (hwork.symm.trans hzero) hnonzero, fun hpending => ?_, nofun⟩
    obtain ⟨hsame, hcursor, hof⟩ := hsound.request hpending
    exact ⟨hsame.trans (hrecordWork.trans hwork.symm), hcursor.trans hrecordCursor, hof⟩
  have hpage : ∀ cursor, MayRun distinct log ⟨result.workId, cursor⟩ →
      ∀ requestPending request, Continuable distinct log
        { workId := health.workId
          cursor := cursor
          requestPending := requestPending
          request := request } := by
    intro cursor hrun requestPending request
    refine ⟨fun hzero => absurd (hwork.symm.trans hzero) hnonzero, nofun, fun _ _ => ?_⟩
    show MayRun distinct log ⟨health.workId, cursor⟩
    rw [hwork]
    exact hrun
  rw [DurableJob.completed, JobHealth.completed]
  cases houtcome : result.outcome with
  | complete =>
      rw [houtcome] at hfits
      exact ⟨⟨fun _ => ⟨rfl, rfl, rfl⟩, nofun, nofun⟩,
        ⟨fun _ => hfits, fun h => absurd rfl h, fun h => absurd rfl h⟩⟩
  | permanentFailure =>
      rw [houtcome] at hfits
      exact ⟨⟨fun _ => ⟨rfl, rfl, rfl⟩, nofun, nofun⟩,
        ⟨fun _ => hfits, fun h => absurd rfl h, fun h => absurd rfl h⟩⟩
  | more =>
      rw [houtcome] at hfits
      exact ⟨⟨fun hzero => absurd (hwork.symm.trans hzero) hnonzero, nofun, nofun⟩,
        hpage _ hfits _ _⟩
  | retryableFailure =>
      rw [houtcome] at hfits
      exact ⟨hkept, hpage _ hfits _ _⟩
  | cancelled =>
      rw [houtcome] at hfits
      exact ⟨hkept, hpage _ hfits _ _⟩

theorem Live.setRecord (h : Live layout distinct s) {record : DurableJob}
    (hsound : Sound job record) (hcontinuable : Continuable distinct (s.log job) record) :
    Copy distinct s.log (s.setDurable (indexOf job) record).durable ∧
      Continuable distinct (s.log .epicTaskCatalog)
        ((s.setDurable (indexOf job) record).durable.jobs (indexOf .epicTaskCatalog)) := by
  have hself : (s.setDurable (indexOf job) record).durable.jobs (indexOf job) = record :=
    Function.update_self ..
  have hothers : ∀ other, other ≠ job →
      (s.setDurable (indexOf job) record).durable.jobs (indexOf other) =
        s.durable.jobs (indexOf other) :=
    fun other hne => Function.update_of_ne (fun heq => hne (indexOf_inj.mp heq)) _ _
  refine ⟨⟨h.memory.magic, h.memory.version, h.memory.jobCount, fun other hknown => ?_,
    fun other hknown hepic => ?_⟩, ?_⟩
  · by_cases heq : other = job
    · subst heq
      rw [hself]
      exact hsound
    · rw [hothers other heq]
      exact h.memory.sound other hknown
  · by_cases heq : other = job
    · subst heq
      rw [hself]
      exact hcontinuable
    · rw [hothers other heq]
      exact h.memory.continuable other hknown hepic
  · by_cases heq : JobId.epicTaskCatalog = job
    · subst heq
      rw [hself]
      exact hcontinuable
    · rw [hothers _ heq]
      exact h.catalog

theorem Live.release (h : Live layout distinct s) {completions : List Result}
    (hfirst : s.completions = result :: completions) (hmemory : Copy distinct s'.log s'.durable)
    (hcatalog : Continuable distinct (s'.log .epicTaskCatalog)
      (s'.durable.jobs (indexOf .epicTaskCatalog)))
    (hothers : ∀ job, job ≠ result.jobId → s'.view job = s.view job)
    (hself : (s'.view result.jobId).work = (s'.view result.jobId).record.workId ∧
      (s'.view result.jobId).cursor = (s'.view result.jobId).record.cursor ∧
      (s'.view result.jobId).record.completionPending = false) (hqueue : s'.queue = s.queue)
    (hcompletions : s'.completions = completions) (hphase : s'.phase = s.phase)
    (hdisk : s'.disk = s.disk) (hhistory : s'.history = s.history)
    (hrunning : s'.running = s.running) (hstop : s'.stopRequested = s.stopRequested) :
    Live layout distinct s' := by
  have hheld : (result.jobId :: s'.held).Nodup := by
    have hnodup := h.held
    rw [State.held, hfirst, List.map_cons] at hnodup
    rw [State.held, hqueue, hphase, hcompletions]
    exact List.perm_middle.nodup_iff.mp hnodup
  rw [List.nodup_cons] at hheld
  obtain ⟨hunheld, hnodup⟩ := hheld
  have hne : ∀ job ∈ s'.held, job ≠ result.jobId := fun job hmem heq => hunheld (heq ▸ hmem)
  have hlog : ∀ job, (s'.view job).log = (s.view job).log := by
    intro job
    rw [State.view, State.view, State.log, State.log, hhistory]
  refine ⟨hmemory, hcatalog, ?_, ?_, ?_, hnodup, ?_⟩
  · intro request hmem
    rw [hothers _ (hne _ (List.mem_append_left _ (List.mem_append_left _
      (List.mem_map_of_mem hmem))))]
    exact h.queue request (hqueue ▸ hmem)
  · rw [hphase, hdisk, hhistory]
    refine h.phase.frame hlog fun job hof => hothers job (hne job ?_)
    exact List.mem_append_left _ (List.mem_append_right _
      (Option.mem_toList.mpr (hphase ▸ hof)))
  · intro other hmem
    rw [hothers _ (hne _ (List.mem_append_right _ (List.mem_map_of_mem hmem)))]
    rw [hcompletions] at hmem
    exact h.completions other (by rw [hfirst]; exact List.mem_cons_of_mem _ hmem)
  · intro hr hs job hjobKnown hidle
    by_cases heq : job = result.jobId
    · subst heq
      exact hself
    · rw [hothers job heq] at hidle ⊢
      exact h.idle (hrunning ▸ hr) (hstop ▸ hs) job hjobKnown hidle

theorem Live.applyCompletion (h : Live layout distinct s) {completions : List Result}
    (hfirst : s.completions = result :: completions) (tick : Tick) :
    Live layout distinct
      (applyCompletion { s with completions := completions } result tick) := by
  obtain ⟨hknown, hdone⟩ := h.completions result (by rw [hfirst]; exact List.mem_cons_self)
  have hwork : (s.jobs (indexOf result.jobId)).workId = result.workId := hdone.sameWork
  have hactive : (s.jobs (indexOf result.jobId)).active = true := hdone.active
  have hguard : ¬ ((!(s.jobs (indexOf result.jobId)).active) = true ∨
      (s.jobs (indexOf result.jobId)).workId ≠ result.workId) := by
    rw [hactive, hwork]
    simp
  obtain ⟨hsound, hcontinuable⟩ := completed_record tick
    (h.memory.sound _ hknown) hdone.nonzero hwork hdone.recordWork hdone.recordCursor hdone.fits
  obtain ⟨hmemory, hcatalog⟩ := h.setRecord hsound hcontinuable
  rw [Maintenance.applyCompletion, if_neg hguard]
  refine h.release hfirst hmemory hcatalog (fun job hne => ?_) ?_ rfl rfl rfl rfl rfl rfl rfl
  · exact (view_setDurable _ hne).trans (view_setJob _ hne)
  · simp only [State.view, State.setDurable, State.setJob, Function.update_self,
      DurableJob.completed, and_self]

theorem applyCompletion_rest (s : State) (result : Result) (tick : Tick) :
    (applyCompletion s result tick).phase = s.phase ∧
      (applyCompletion s result tick).running = s.running ∧
      (applyCompletion s result tick).queue = s.queue ∧
      (applyCompletion s result tick).completions = s.completions := by
  rw [applyCompletion]
  split
  · exact ⟨rfl, rfl, rfl, rfl⟩
  · exact ⟨rfl, rfl, rfl, rfl⟩

theorem applyCompletion_keeps (s : State) (result : Result) (tick : Tick) :
    (applyCompletion s result tick).history = s.history ∧
      (applyCompletion s result tick).disk = s.disk := by
  rw [applyCompletion]
  split
  · exact ⟨rfl, rfl⟩
  · exact ⟨rfl, rfl⟩

theorem Live.applyCompletions (tick : Tick) :
    ∀ (capacity : Nat) {s : State}, Live layout distinct s →
      Live layout distinct (applyCompletions tick capacity s) ∧
        (applyCompletions tick capacity s).history = s.history ∧
        (applyCompletions tick capacity s).disk = s.disk := by
  intro capacity
  induction capacity with
  | zero => exact fun h => ⟨h, rfl, rfl⟩
  | succ capacity ih =>
      intro s h
      rw [Maintenance.applyCompletions]
      split
      · exact ⟨h, rfl, rfl⟩
      · next result completions hfirst =>
          obtain ⟨hlive, hhistory, hdisk⟩ := ih (h.applyCompletion hfirst tick)
          obtain ⟨hhistory', hdisk'⟩ :=
            applyCompletion_keeps { s with completions := completions } result tick
          exact ⟨hlive, hhistory.trans hhistory', hdisk.trans hdisk'⟩

theorem Dead.applyCompletions (tick : Tick) :
    ∀ (capacity : Nat) {s : State}, Dead s →
      Dead (applyCompletions tick capacity s) ∧
        (applyCompletions tick capacity s).history = s.history ∧
        (applyCompletions tick capacity s).disk = s.disk := by
  intro capacity
  induction capacity with
  | zero => exact fun h => ⟨h, rfl, rfl⟩
  | succ capacity ih =>
      intro s h
      rw [Maintenance.applyCompletions]
      split
      · exact ⟨h, rfl, rfl⟩
      · next result completions hfirst =>
          obtain ⟨hphase, hrunning, hqueue, hrest⟩ :=
            applyCompletion_rest { s with completions := completions } result tick
          have hshorter : completions.Sublist s.completions := by
            rw [hfirst]
            exact List.sublist_cons_self _ _
          have hsame : (applyCompletion { s with completions := completions } result
              tick).queue.Sublist s.queue := by
            rw [hqueue]
          obtain ⟨hdead, hhistory, hdisk⟩ :=
            ih (h.shrink hphase hrunning hsame (by rw [hrest]; exact hshorter))
          obtain ⟨hhistory', hdisk'⟩ :=
            applyCompletion_keeps { s with completions := completions } result tick
          exact ⟨hdead, hhistory.trans hhistory', hdisk.trans hdisk'⟩

/-! ## The worker -/

theorem view_setDurable_self (s : State) (job : JobId) (record : DurableJob) :
    (s.setDurable (indexOf job) record).view job = { s.view job with record := record } := by
  simp only [State.view, State.setDurable, State.log, Function.update_self]

theorem Live.goesOn (h : Live layout distinct s) (hmemory : Copy distinct s'.log s'.durable)
    (hcatalog : Continuable distinct (s'.log .epicTaskCatalog)
      (s'.durable.jobs (indexOf .epicTaskCatalog)))
    (hphase : PhaseOk layout distinct s'.view s'.disk s'.history s'.phase)
    (hothers : ∀ job, s.phase.job ≠ some job → s'.view job = s.view job) (hjobs : s'.jobs = s.jobs)
    (hqueue : s'.queue = s.queue) (hcompletions : s'.completions = s.completions)
    (hjob : s'.phase.job = s.phase.job) (hrunning : s'.running = true → s.running = true)
    (hstop : s'.stopRequested = false → s.stopRequested = false) : Live layout distinct s' := by
  have hheld : s'.held = s.held := by rw [State.held, State.held, hqueue, hcompletions, hjob]
  have hdistinct : ∀ job, job ∈ s.queue.map Request.jobId ∨
      job ∈ s.completions.map Result.jobId → s.phase.job ≠ some job := by
    intro job hmem hof
    have hnodup := h.held
    rw [State.held, hof, List.nodup_append, List.nodup_append] at hnodup
    obtain ⟨⟨_, _, hleft⟩, _, hright⟩ := hnodup
    rcases hmem with hmem | hmem
    · exact hleft job hmem job (List.mem_singleton_self job) rfl
    · exact hright job (List.mem_append_right _ (List.mem_singleton_self job)) job hmem rfl
  refine ⟨hmemory, hcatalog, ?_, hphase, ?_, hheld ▸ h.held, ?_⟩
  · intro request hmem
    rw [hqueue] at hmem
    rw [hothers _ (hdistinct _ (.inl (List.mem_map_of_mem hmem)))]
    exact h.queue request hmem
  · intro result hmem
    rw [hcompletions] at hmem
    rw [hothers _ (hdistinct _ (.inr (List.mem_map_of_mem hmem)))]
    exact h.completions result hmem
  · intro hr hs job hknown hidle
    have hactive : (s'.view job).active = (s.view job).active := by
      rw [State.view, State.view, hjobs]
    have hnot : s.phase.job ≠ some job := by
      intro hof
      rw [hactive, (h.phase.carries hof).2] at hidle
      cases hidle
    rw [hothers job hnot] at hidle ⊢
    exact h.idle (hrunning hr) (hstop hs) job hknown hidle

theorem Live.toPhase (h : Live layout distinct s) {dirty : Bool}
    (hphase : PhaseOk layout distinct s.view disk s.history phase)
    (hjob : phase.job = s.phase.job) :
    Live layout distinct { s with phase := phase, disk := disk, durableDirty := dirty } :=
  h.goesOn h.memory h.catalog hphase (fun _ _ => rfl) rfl rfl rfl hjob id id

theorem Live.record (h : Live layout distinct s) {record : DurableJob}
    (hof : s.phase.job = some job) (hsound : Sound job record)
    (hcontinuable : Continuable distinct (s.log job) record) (hjob : phase.job = some job)
    (hphase : PhaseOk layout distinct (s.setDurable (indexOf job) record).view s.disk s.history
      phase) : Live layout distinct { s.setDurable (indexOf job) record with phase := phase } := by
  obtain ⟨hmemory, hcatalog⟩ := h.setRecord hsound hcontinuable
  refine h.goesOn hmemory hcatalog hphase (fun other hne => ?_) rfl rfl rfl
    (hjob.trans hof.symm) id id
  exact view_setDurable (s := s) record fun heq => hne (hof.trans (congrArg some heq.symm))

theorem Waiting.setRecord (h : Waiting distinct view request) (record : DurableJob) :
    Waiting distinct { view with record := record } request :=
  ⟨⟨h.active, h.sameWork, h.sameCursor, h.nonzero⟩, h.page⟩

section

variable (h : ResultOf distinct view request result)

include h

theorem ResultOf.pending (hsound : Sound request.jobId view.record) :
    Sound request.jobId
        { view.record with completionPending := true, completion := result } ∧
      Continuable distinct view.log
        { view.record with completionPending := true, completion := result } := by
  have hne : view.record.workId ≠ 0 := by
    rw [h.recordWork]
    exact h.nonzero
  refine ⟨⟨fun hzero => absurd hzero hne, hsound.request,
    fun _ => ⟨h.resultWork.trans h.recordWork.symm, h.resultJob⟩⟩,
    fun hzero => absurd hzero hne, fun _ _ => ?_, nofun⟩
  show Fits distinct view.log view.record.workId view.record.cursor result
  rw [h.recordWork, h.recordCursor]
  exact h.fits

theorem ResultOf.withdrawn (hsound : Sound request.jobId view.record) :
    Sound request.jobId { view.record with completionPending := false, completion := {} } ∧
      Continuable distinct view.log
        { view.record with completionPending := false, completion := {} } := by
  have hne : view.record.workId ≠ 0 := by
    rw [h.recordWork]
    exact h.nonzero
  refine ⟨⟨fun hzero => absurd hzero hne, hsound.request, nofun⟩,
    fun hzero => absurd hzero hne, nofun, fun _ _ => ?_⟩
  show MayRun distinct view.log ⟨view.record.workId, view.record.cursor⟩
  rw [h.recordWork, h.recordCursor]
  exact h.page

theorem ResultOf.completed :
    Completed distinct view result ∧ MayRun distinct view.log ⟨result.workId, view.cursor⟩ := by
  refine ⟨⟨⟨h.active, h.sameWork.trans h.resultWork.symm, rfl, ?_⟩, ?_, ?_, ?_⟩, ?_⟩
  · rw [h.resultWork]
    exact h.nonzero
  · rw [h.resultWork, h.sameCursor]
    exact h.fits
  · rw [h.resultWork]
    exact h.recordWork
  · rw [h.sameCursor]
    exact h.recordCursor
  · rw [h.resultWork, h.sameCursor]
    exact h.page

theorem ResultOf.setRecord {record : DurableJob}
    (hwork : record.workId = view.record.workId) (hcursor : record.cursor = view.record.cursor) :
    ResultOf distinct { view with record := record } request result :=
  ⟨h.toWaiting.setRecord record, h.resultWork, h.resultJob, h.fits, hwork.trans h.recordWork,
    hcursor.trans h.recordCursor⟩

end

theorem ResultOf.retry (h : Waiting distinct view request)
    (hwork : result.workId = request.workId) (hjob : result.jobId = request.jobId)
    (hrecordWork : view.record.workId = request.workId)
    (hrecordCursor : view.record.cursor = request.cursor)
    (houtcome : result.outcome = .retryableFailure) : ResultOf distinct view request result := by
  refine ⟨h, hwork, hjob, ?_, hrecordWork, hrecordCursor⟩
  rw [Fits, houtcome]
  exact h.page

theorem Live.taken (h : Live layout distinct s) (hphase : s.phase = .waiting) {queue : List Request}
    (hfirst : s.queue = request :: queue) :
    Live layout distinct { s with queue := queue, phase := .starting request } := by
  have hwaiting := h.queue request (by rw [hfirst]; exact List.mem_cons_self)
  refine ⟨h.memory, h.catalog, ?_, hwaiting, h.completions, ?_, h.idle⟩
  · exact fun other hmem => h.queue other (by rw [hfirst]; exact List.mem_cons_of_mem _ hmem)
  · have hnodup := h.held
    rw [State.held, hfirst, hphase] at hnodup
    show (queue.map Request.jobId ++ [request.jobId] ++ s.completions.map Result.jobId).Nodup
    have hmoved : (request.jobId ::
        (queue.map Request.jobId ++ s.completions.map Result.jobId)).Nodup := by
      rwa [List.map_cons, show WorkerPhase.waiting.job = none from rfl, Option.toList_none,
        List.append_nil] at hnodup
    rw [List.append_assoc]
    exact List.perm_middle.nodup_iff.mpr hmoved

theorem Live.delivered (h : Live layout distinct s) (hphase : s.phase = .delivering result) :
    Live layout distinct
      { s with
        completions := s.completions ++
          [if s.stopRequested then { result with outcome := .cancelled } else result]
        phase := .waiting } := by
  have hok := h.phase
  rw [hphase] at hok
  obtain ⟨hknown, hdone, hpage⟩ := hok
  generalize hdelivered : (if s.stopRequested = true then
    ({ result with outcome := .cancelled } : Result) else result) = delivered
  have hcompleted : delivered.jobId = result.jobId ∧
      Completed distinct (s.view result.jobId) delivered := by
    rw [← hdelivered]
    split
    · exact ⟨rfl, hdone.toCarries, hpage, hdone.recordWork, hdone.recordCursor⟩
    · exact ⟨rfl, hdone⟩
  refine ⟨h.memory, h.catalog, h.queue, trivial, ?_, ?_, h.idle⟩
  · intro other hmem
    rcases List.mem_append.mp hmem with hmem | hmem
    · exact h.completions other hmem
    · cases List.mem_singleton.mp hmem
      rw [hcompleted.1]
      exact ⟨hknown, hcompleted.2⟩
  · have hnodup := h.held
    rw [State.held, hphase] at hnodup
    have hperm : (s.queue.map Request.jobId ++ [] ++
        (s.completions ++ [delivered]).map Result.jobId).Perm
        (s.queue.map Request.jobId ++ [result.jobId] ++ s.completions.map Result.jobId) := by
      rw [List.map_append, List.map_singleton, hcompleted.1, List.append_nil, List.append_assoc]
      exact List.perm_append_comm.append_left _
    exact hperm.nodup_iff.mpr hnodup

theorem Live.workerMove (h : Live layout distinct s) : Live layout distinct (workerMove s) := by
  have hok := h.phase
  rw [Maintenance.workerMove]
  split
  · next hphase =>
      rw [workerWake]
      split
      · split
        · have hcopy : PhaseOk layout distinct s.view s.disk s.history (.syncing s.durable) :=
            h.memory
          exact h.toPhase hcopy (by rw [hphase]; rfl)
        · split
          · have hjob : WorkerPhase.exited.job = s.phase.job := by rw [hphase]; rfl
            exact h.toPhase trivial hjob
          · exact h
      · next request queue hfirst => exact h.taken hphase hfirst
  · next hphase => exact h.toPhase trivial (by rw [hphase]; rfl)
  · next request hphase =>
      rw [hphase] at hok
      obtain ⟨hknown, hwaiting⟩ := hok
      have hsound := sound_activated hwaiting.nonzero
      have hcontinuable := (at_activated request).continuable hwaiting.nonzero hwaiting.page
      obtain ⟨hmemory, _⟩ := h.setRecord hsound hcontinuable
      refine h.record (by rw [hphase]; rfl) hsound hcontinuable rfl ?_
      rw [PhaseOk, view_setDurable_self]
      have hself : (s.setDurable (indexOf request.jobId) (.activated request)).durable.jobs
          (indexOf request.jobId) = .activated request := Function.update_self ..
      refine ⟨hknown, hwaiting.setRecord _, at_activated request, hmemory, ?_⟩
      rw [hself]
      exact at_activated request
  · next request result hphase =>
      rw [hphase] at hok
      obtain ⟨hknown, hresult⟩ := hok
      obtain ⟨hsound, hcontinuable⟩ := hresult.pending (h.memory.sound _ hknown)
      obtain ⟨hmemory, _⟩ := h.setRecord hsound hcontinuable
      refine h.record (by rw [hphase]; rfl) hsound hcontinuable rfl ?_
      rw [PhaseOk, view_setDurable_self]
      exact ⟨hknown, hresult.setRecord rfl rfl, hmemory⟩
  · next request result hphase =>
      rw [hphase] at hok
      obtain ⟨hknown, hresult⟩ := hok
      obtain ⟨hsound, hcontinuable⟩ := hresult.withdrawn (h.memory.sound _ hknown)
      refine h.record (by rw [hphase]; rfl) hsound hcontinuable
        (congrArg some hresult.resultJob) ?_
      rw [PhaseOk, hresult.resultJob, view_setDurable_self]
      refine ⟨hknown, ResultOf.completed (hresult.setRecord ?_ ?_)⟩
      · rfl
      · rfl
  · next result hphase => exact h.delivered hphase
  · exact h

theorem Live.workerPersist (h : Live layout distinct s)
    (hdisk : OnDisk layout distinct s.log s.disk) (answer : Persisted) (elapsed : BitVec 64) :
    Live layout distinct (workerPersist layout s answer elapsed) ∧
      OnDisk layout distinct s.log (workerPersist layout s answer elapsed).disk := by
  have hok := h.phase
  unfold Maintenance.workerPersist
  split
  · next state hphase =>
      rw [hphase] at hok
      refine ⟨h.toPhase ?_ ?_, hdisk.persist hok answer⟩
      · cases answer <;> trivial
      · rw [hphase]
        cases answer <;> rfl
  · next request state hphase =>
      rw [hphase] at hok
      obtain ⟨hknown, hwaiting, hat, hcopy, hcopyAt⟩ := hok
      refine ⟨h.toPhase ?_ ?_, hdisk.persist hcopy answer⟩
      · cases answer with
        | written => exact ⟨hknown, hwaiting, hat, state, rfl, hcopyAt⟩
        | failed renamed =>
            exact ⟨hknown, ResultOf.retry hwaiting rfl rfl hat.work hat.cursor rfl⟩
      · rw [hphase]
        cases answer <;> rfl
  · next request result state hphase =>
      rw [hphase] at hok
      obtain ⟨hknown, hresult, hcopy⟩ := hok
      refine ⟨h.toPhase ?_ ?_, hdisk.persist hcopy answer⟩
      · cases answer with
        | written =>
            rw [PhaseOk, hresult.resultJob]
            exact ⟨hknown, hresult.completed⟩
        | failed renamed =>
            exact ⟨hknown, ResultOf.retry hresult.toWaiting hresult.resultWork hresult.resultJob
              hresult.recordWork hresult.recordCursor rfl⟩
      · rw [hphase]
        cases answer with
        | written => exact congrArg some hresult.resultJob
        | failed renamed => rfl
  · exact ⟨h, hdisk⟩

/-! ## Executing -/

theorem Copy.ran (h : Copy distinct log state) {verdict : Verdict Cursor}
    (hat : At request (state.jobs (indexOf request.jobId))) (hne : request.workId ≠ 0)
    (hself : log' request.jobId = .ran ⟨request.workId, request.cursor⟩ verdict :: older)
    (hothers : ∀ job, job ≠ request.jobId → log' job = log job) : Copy distinct log' state := by
  refine ⟨h.magic, h.version, h.jobCount, h.sound, fun job hknown hepic => ?_⟩
  by_cases heq : job = request.jobId
  · subst heq
    rw [hself]
    exact hat.continuable hne (mayRun_again verdict)
  · rw [hothers job heq]
    exact h.continuable job hknown hepic

theorem OnDisk.ran (h : OnDisk layout distinct log disk) {verdict : Verdict Cursor}
    (hat : DiskAt layout request disk) (hne : request.workId ≠ 0)
    (hself : log' request.jobId = .ran ⟨request.workId, request.cursor⟩ verdict :: older)
    (hothers : ∀ job, job ≠ request.jobId → log' job = log job) :
    OnDisk layout distinct log' disk := by
  obtain ⟨state, rfl, hrecord⟩ := hat
  obtain ⟨other, hfile, hcopy⟩ := h
  cases stateFile_inj hfile
  exact ⟨state, rfl, hcopy.ran hrecord hne hself hothers⟩

theorem Inv.ran (h : Inv layout distinct s) {verdict : Verdict Cursor}
    (hof : s.phase.job = some request.jobId) (hne : request.workId ≠ 0)
    (hat : At request (s.view request.jobId).record) (hdiskAt : DiskAt layout request s.disk)
    (hself : s'.log request.jobId = .ran ⟨request.workId, request.cursor⟩ verdict :: older)
    (hothers : ∀ job, job ≠ request.jobId → s'.log job = s.log job)
    (hchained : Chained distinct (s'.log request.jobId))
    (hphase : PhaseOk layout distinct s'.view s'.disk s'.history s'.phase)
    (hjobs : s'.jobs = s.jobs) (hdurable : s'.durable = s.durable) (hqueue : s'.queue = s.queue)
    (hcompletions : s'.completions = s.completions) (hjob : s'.phase.job = s.phase.job)
    (hdisk : s'.disk = s.disk) (hrunning : s'.running = true → s.running = true)
    (hstop : s'.stopRequested = false → s.stopRequested = false) : Inv layout distinct s' := by
  have hlive : Live layout distinct s := by
    refine h.memory.resolve_left fun hdead => ?_
    rw [hdead.phase] at hof
    cases hof
  have hmemory : Copy distinct s'.log s'.durable := by
    rw [hdurable]
    exact hlive.memory.ran hat hne hself hothers
  have hcatalog : Continuable distinct (s'.log .epicTaskCatalog)
      (s'.durable.jobs (indexOf .epicTaskCatalog)) := by
    rw [hdurable]
    by_cases heq : JobId.epicTaskCatalog = request.jobId
    · rw [heq, hself]
      exact hat.continuable hne (mayRun_again verdict)
    · rw [hothers _ heq]
      exact hlive.catalog
  refine ⟨fun job => ?_, ?_, .inr ?_⟩
  · by_cases heq : job = request.jobId
    · subst heq
      exact hchained
    · rw [hothers job heq]
      exact h.chained job
  · rw [hdisk]
    exact h.disk.ran hdiskAt hne hself hothers
  · refine hlive.goesOn hmemory hcatalog hphase (fun job hnot => ?_) hjobs hqueue hcompletions
      hjob hrunning hstop
    have hnot : job ≠ request.jobId := fun heq => hnot (heq ▸ hof)
    rw [State.view, State.view, hjobs, hdurable, hothers job hnot]

theorem log_executed_self {result : Option Result}
    (hhistory : s.history = .executed request result :: history) :
    s.log request.jobId = .ran ⟨request.workId, request.cursor⟩ (verdict result) ::
      history.filterMap (HistoryEntry.entry request.jobId) := by
  rw [State.log, hhistory, List.filterMap_cons, HistoryEntry.entry, if_pos rfl]

theorem log_executed_other {result : Option Result}
    (hhistory : s.history = .executed request result :: history) (hne : job ≠ request.jobId) :
    s.log job = history.filterMap (HistoryEntry.entry job) := by
  rw [State.log, hhistory, List.filterMap_cons, HistoryEntry.entry, if_neg (Ne.symm hne)]

theorem Inv.call (h : Inv layout distinct s) (hphase : s.phase = .executing request)
    (deadline : BitVec 64) :
    Inv layout distinct
      { s with
        phase := .calling { request with deadlineUsec := deadline }
        history := .executed { request with deadlineUsec := deadline } none :: s.history } := by
  have hlive : Live layout distinct s := by
    refine h.memory.resolve_left fun hdead => ?_
    rw [hdead.phase] at hphase
    cases hphase
  have hok := hlive.phase
  rw [hphase] at hok
  obtain ⟨hknown, hwaiting, hat, hdisk⟩ := hok
  generalize hcalled : ({ request with deadlineUsec := deadline } : Request) = called
  obtain ⟨hwork, hjob, hcursor⟩ : called.workId = request.workId ∧
      called.jobId = request.jobId ∧ called.cursor = request.cursor := by
    rw [← hcalled]
    exact ⟨rfl, rfl, rfl⟩
  generalize hs' : ({ s with
    phase := .calling called, history := .executed called none :: s.history } : State) = s'
  have hhistory : s'.history = .executed called none :: s.history := by rw [← hs']
  have hself := log_executed_self hhistory
  have hothers : ∀ job, job ≠ called.jobId → s'.log job = s.log job :=
    fun job hne => log_executed_other hhistory hne
  have hrecord : At called (s.view called.jobId).record := by
    rw [hjob]
    exact ⟨hat.work.trans hwork.symm, hat.cursor.trans hcursor.symm, hat.open'⟩
  have hfile : DiskAt layout called s.disk := by
    obtain ⟨state, hstate, hin⟩ := hdisk
    refine ⟨state, hstate, ?_⟩
    rw [hjob]
    exact ⟨hin.work.trans hwork.symm, hin.cursor.trans hcursor.symm, hin.open'⟩
  have hnonzero : called.workId ≠ 0 := by
    rw [hwork]
    exact hwaiting.nonzero
  have hchained : Chained distinct (s'.log called.jobId) := by
    rw [hself]
    refine ⟨?_, h.chained called.jobId⟩
    rw [hwork, hcursor, hjob]
    exact hwaiting.page
  have hcalling : PhaseOk layout distinct s'.view s'.disk s'.history s'.phase := by
    have hview : s'.view called.jobId =
        { s.view request.jobId with log := s'.log called.jobId } := by
      rw [State.view, State.view, hjob, ← hs']
    rw [← hs']
    refine ⟨by rw [hjob]; exact hknown, ?_, ?_, hfile, _, rfl⟩
    · rw [hs', hview]
      refine ⟨⟨hwaiting.active, hwaiting.sameWork.trans hwork.symm,
        hwaiting.sameCursor.trans hcursor.symm, hnonzero⟩, ?_⟩
      rw [hself]
      exact mayRun_again _
    · rw [hs', hview]
      rw [hjob] at hrecord
      exact hrecord
  subst hs'
  exact h.ran (by rw [hphase, hjob]; rfl) hnonzero hrecord hfile hself hothers hchained hcalling
    rfl rfl rfl rfl (by rw [hphase]; exact congrArg some hjob) rfl id id

theorem reply_result (reply : Reply) (request : Request) (elapsed : BitVec 64) :
    (reply.result request elapsed).workId = request.workId ∧
      (reply.result request elapsed).jobId = request.jobId := by
  unfold Reply.result
  split
  · exact ⟨rfl, rfl⟩
  · next hsame =>
      rw [not_or, not_not, not_not] at hsame
      exact hsame

theorem Inv.reply (h : Inv layout distinct s) (hphase : s.phase = .calling request)
    (hwork : result.workId = request.workId) (hjob : result.jobId = request.jobId) :
    Inv layout distinct
      { s with phase := .finishing request result, history := settle result s.history } := by
  have hlive : Live layout distinct s := by
    refine h.memory.resolve_left fun hdead => ?_
    rw [hdead.phase] at hphase
    cases hphase
  have hok := hlive.phase
  rw [hphase] at hok
  obtain ⟨hknown, hwaiting, hat, hdisk, older, holder⟩ := hok
  have hsettled : settle result s.history = .executed request (some result) :: older := by
    rw [holder, settle]
  rw [hsettled]
  generalize hs' : ({ s with
    phase := .finishing request result
    history := .executed request (some result) :: older } : State) = s'
  have hhistory : s'.history = .executed request (some result) :: older := by rw [← hs']
  have hself := log_executed_self hhistory
  have hothers : ∀ job, job ≠ request.jobId → s'.log job = s.log job :=
    fun job hne => (log_executed_other hhistory hne).trans (log_executed_other holder hne).symm
  have hchained : Chained distinct (s'.log request.jobId) := by
    have hbefore := h.chained request.jobId
    rw [log_executed_self holder] at hbefore
    rw [hself]
    exact hbefore
  have hfinishing : PhaseOk layout distinct s'.view s'.disk s'.history s'.phase := by
    have hview : s'.view request.jobId =
        { s.view request.jobId with log := s'.log request.jobId } := by
      rw [State.view, State.view, ← hs']
    rw [← hs']
    refine ⟨hknown, ?_⟩
    rw [hs', hview]
    refine ⟨⟨⟨hwaiting.active, hwaiting.sameWork, hwaiting.sameCursor, hwaiting.nonzero⟩, ?_⟩,
      hwork, hjob, ?_, hat.work, hat.cursor⟩
    · rw [hself]
      exact mayRun_again _
    · rw [hself]
      exact fits_verdict _ _ result
  subst hs'
  exact h.ran (by rw [hphase]; rfl) hwaiting.nonzero hat hdisk hself hothers hchained hfinishing
    rfl rfl rfl rfl (by rw [hphase]; rfl) rfl id id

/-! ## Starting -/

theorem registry_find (hknown : Known job) :
    ∃ definition, registry.find? (fun definition => indexOf definition.id = indexOf job) =
      some definition ∧ definition.id = job := by
  have hall : ∀ index < maintenanceJobCount,
      (registry.find? (fun definition => indexOf definition.id = index)).isSome = true := by
    decide
  obtain ⟨definition, hfound⟩ := Option.isSome_iff_exists.mp (hall _ hknown)
  exact ⟨definition, hfound, indexOf_inj.mp (of_decide_eq_true
    (List.find?_some hfound :))⟩

theorem registry_nodup : (registry.map JobDefinition.id).Nodup := by decide

theorem filterMap_sublist {β : Type} (put : JobDefinition → Option β) (jobOf : β → JobId)
    (definitions : List JobDefinition)
    (hof : ∀ definition ∈ definitions, ∀ b, put definition = some b → jobOf b = definition.id) :
    ((definitions.filterMap put).map jobOf).Sublist (definitions.map JobDefinition.id) := by
  induction definitions with
  | nil => exact List.Sublist.slnil
  | cons definition definitions ih =>
      have ih := ih fun other hmem => hof other (List.mem_cons_of_mem _ hmem)
      cases hput : put definition with
      | none =>
          rw [List.filterMap_cons_none hput, List.map_cons]
          exact ih.cons _
      | some b =>
          rw [List.filterMap_cons_some hput, List.map_cons, List.map_cons,
            hof definition List.mem_cons_self b hput]
          exact ih.cons_cons _

theorem Copy.started (h : Copy distinct log state)
    (hlog : ∀ job, job ≠ .epicTaskCatalog → log' job = log job) : Copy distinct log' state := by
  refine ⟨h.magic, h.version, h.jobCount, h.sound, fun job hknown hne => ?_⟩
  rw [hlog job hne]
  exact h.continuable job hknown hne

theorem restoredRequest_spec {record : DurableJob} (hsound : Sound job record)
    (hput : restoredRequest record now = some request) :
    record.workId ≠ 0 ∧ record.completionPending = false ∧ record.requestPending = true ∧
      request.workId = record.workId ∧ request.cursor = record.cursor ∧
      request.jobId = job := by
  rw [restoredRequest] at hput
  split at hput
  · next hpending =>
      obtain ⟨hne, hopen, hrequest⟩ := hpending
      cases hput
      rw [Bool.not_eq_true'] at hopen
      obtain ⟨hwork, hcursor, hof⟩ := hsound.request hrequest
      exact ⟨hne, hopen, hrequest, hwork, hcursor, hof⟩
  · cases hput

theorem restoredCompletion_spec {record : DurableJob} (hsound : Sound job record)
    (hput : restoredCompletion record = some result) :
    record.workId ≠ 0 ∧ record.completionPending = true ∧ record.completion = result ∧
      result.workId = record.workId ∧ result.jobId = job := by
  rw [restoredCompletion] at hput
  split at hput
  · next hpending =>
      obtain ⟨hne, hdone⟩ := hpending
      cases hput
      obtain ⟨hwork, hof⟩ := hsound.completion hdone
      exact ⟨hne, hdone, rfl, hwork, hof⟩
  · cases hput

theorem Live.started {records : Nat → DurableJob} {instanceSeed : BitVec 64}
    (hdurable : s.durable.jobs = records) (hjobs : s.jobs = restoredJobs records instanceSeed)
    (hcompletions : s.completions =
      registry.filterMap fun definition => restoredCompletion (records (indexOf definition.id)))
    (hqueue : s.queue =
      registry.filterMap fun definition => restoredRequest (records (indexOf definition.id)) now)
    (hphase : s.phase = .created) (hmemory : Copy distinct s.log s.durable)
    (hcatalog : Continuable distinct (s.log .epicTaskCatalog)
      (s.durable.jobs (indexOf .epicTaskCatalog))) : Live layout distinct s := by
  have hsound : ∀ job, Known job → Sound job (records (indexOf job)) := by
    intro job hknown
    rw [← hdurable]
    exact hmemory.sound job hknown
  have hcontinuable : ∀ job, Known job →
      Continuable distinct (s.log job) (records (indexOf job)) := by
    intro job hknown
    rw [← hdurable]
    by_cases heq : job = .epicTaskCatalog
    · rw [heq]
      exact hcatalog
    · exact hmemory.continuable job hknown heq
  have hview : ∀ job, Known job → s.view job =
      { active := (records (indexOf job)).workId ≠ 0 &&
          ((records (indexOf job)).completionPending || (records (indexOf job)).requestPending)
        work := (records (indexOf job)).workId
        cursor := (records (indexOf job)).cursor
        record := records (indexOf job)
        log := s.log job } := by
    intro job hknown
    obtain ⟨definition, hfound, _⟩ := registry_find hknown
    have hhealth : s.jobs (indexOf job) =
        restoredJob (records (indexOf job)) definition instanceSeed := by
      rw [hjobs, restoredJobs, hfound]
    rw [State.view, hhealth, hdurable]
    rfl
  refine ⟨hmemory, hcatalog, ?_, by rw [hphase]; trivial, ?_, ?_, ?_⟩
  · intro request hmem
    rw [hqueue, List.mem_filterMap] at hmem
    obtain ⟨definition, hdefinition, hput⟩ := hmem
    have hknown := registry_known definition hdefinition
    obtain ⟨hne, hopen, hpending, hwork, hcursor, hof⟩ :=
      restoredRequest_spec (hsound _ hknown) hput
    rw [hof, hview _ hknown]
    refine ⟨hknown, ⟨?_, hwork.symm, hcursor.symm, hwork ▸ hne⟩, ?_⟩
    · simp only [hpending, Bool.or_true, Bool.and_true, decide_eq_true_eq]
      exact hne
    · rw [hwork, hcursor]
      exact (hcontinuable _ hknown).page hne hopen
  · intro result hmem
    rw [hcompletions, List.mem_filterMap] at hmem
    obtain ⟨definition, hdefinition, hput⟩ := hmem
    have hknown := registry_known definition hdefinition
    obtain ⟨hne, hdone, heq, hwork, hof⟩ := restoredCompletion_spec (hsound _ hknown) hput
    rw [hof, hview _ hknown]
    refine ⟨hknown, ⟨?_, hwork.symm, rfl, hwork ▸ hne⟩, ?_, hwork.symm, rfl⟩
    · simp only [hdone, Bool.true_or, Bool.and_true, decide_eq_true_eq]
      exact hne
    · rw [hwork, ← heq]
      exact (hcontinuable _ hknown).completion hne hdone
  · have hrequests := filterMap_sublist
      (fun definition => restoredRequest (records (indexOf definition.id)) now) Request.jobId
      registry fun definition hdefinition request hput =>
        (restoredRequest_spec (hsound _ (registry_known definition hdefinition)) hput).2.2.2.2.2
    have hresults := filterMap_sublist
      (fun definition => restoredCompletion (records (indexOf definition.id))) Result.jobId
      registry fun definition hdefinition result hput =>
        (restoredCompletion_spec (hsound _ (registry_known definition hdefinition)) hput).2.2.2.2
    rw [State.held, hphase, hqueue, hcompletions, show WorkerPhase.created.job = none from rfl,
      Option.toList_none, List.append_nil, List.nodup_append]
    refine ⟨registry_nodup.sublist hrequests, registry_nodup.sublist hresults, ?_⟩
    rintro _ hleft _ hright rfl
    obtain ⟨request, hrequest, hjob⟩ := List.mem_map.mp hleft
    obtain ⟨result, hresult, hjob'⟩ := List.mem_map.mp hright
    obtain ⟨left, hleft, hput⟩ := List.mem_filterMap.mp hrequest
    obtain ⟨right, hright, hput'⟩ := List.mem_filterMap.mp hresult
    obtain ⟨_, hopen, _, _, _, hof⟩ :=
      restoredRequest_spec (hsound _ (registry_known left hleft)) hput
    obtain ⟨_, hdone, _, _, hof'⟩ :=
      restoredCompletion_spec (hsound _ (registry_known right hright)) hput'
    have hsame : left.id = right.id := by rw [← hof, ← hof', hjob, hjob']
    rw [hsame, hdone] at hopen
    cases hopen
  · intro _ _ job hknown hidle
    rw [hview job hknown] at hidle ⊢
    refine ⟨rfl, rfl, ?_⟩
    by_cases hzero : (records (indexOf job)).workId = 0
    · exact ((hsound job hknown).blank hzero).2.2
    · simp only [ne_eq, hzero, not_false_eq_true, decide_true, Bool.true_and,
        Bool.or_eq_false_iff] at hidle
      exact hidle.1

theorem Inv.startFrom (h : Inv layout distinct s) {loaded : DurableState}
    (hqueue : s.queue = []) (hcompletions : s.completions = [])
    (hcopy : Copy distinct s.log loaded) (instanceSeed now : BitVec 64) :
    Inv layout distinct (startFrom s loaded true instanceSeed now) ∧
      Live layout distinct (Maintenance.startFrom s loaded true instanceSeed now) := by
  generalize hs' : Maintenance.startFrom s loaded true instanceSeed now = s'
  rw [Maintenance.startFrom, hqueue, hcompletions, List.nil_append, List.nil_append] at hs'
  have hhistory : s'.history = .started :: s.history := by rw [← hs']; rfl
  have hother : ∀ job, job ≠ .epicTaskCatalog → s'.log job = s.log job := by
    intro job hne
    rw [State.log, State.log, hhistory, List.filterMap_cons, HistoryEntry.entry, if_neg hne]
  have hepic : s'.log .epicTaskCatalog = .abandoned :: s.log .epicTaskCatalog := by
    rw [State.log, State.log, hhistory, List.filterMap_cons, HistoryEntry.entry, if_pos rfl]
  have hrecords : s'.durable.jobs =
      Function.update loaded.jobs (indexOf .epicTaskCatalog) {} := by rw [← hs']
  have hblank : s'.durable.jobs (indexOf .epicTaskCatalog) = {} := by
    rw [hrecords, Function.update_self]
  have hkept : ∀ job, job ≠ .epicTaskCatalog →
      s'.durable.jobs (indexOf job) = loaded.jobs (indexOf job) := by
    intro job hne
    rw [hrecords, Function.update_of_ne fun heq => hne (indexOf_inj.mp heq)]
  have hmemory : Copy distinct s'.log s'.durable := by
    refine ⟨by rw [← hs']; exact hcopy.magic, by rw [← hs']; exact hcopy.version,
      by rw [← hs']; exact hcopy.jobCount, fun job hknown => ?_, fun job hknown hne => ?_⟩
    · by_cases heq : job = .epicTaskCatalog
      · rw [heq, hblank]
        exact sound_blank _
      · rw [hkept job heq]
        exact hcopy.sound job hknown
    · rw [hkept job hne, hother job hne]
      exact hcopy.continuable job hknown hne
  have hcatalog : Continuable distinct (s'.log .epicTaskCatalog)
      (s'.durable.jobs (indexOf .epicTaskCatalog)) := by
    rw [hblank, hepic]
    exact ⟨fun _ => trivial, fun h => absurd rfl h, fun h => absurd rfl h⟩
  have hdisk : s'.disk = s.disk := by rw [← hs']
  have hlive : Live layout distinct s' := by
    refine @Live.started layout distinct s' now _ instanceSeed hrecords ?_ ?_ ?_ ?_
      hmemory hcatalog
    all_goals rw [← hs']
    rfl
  refine ⟨⟨fun job => ?_, ?_, .inr hlive⟩, hlive⟩
  · by_cases heq : job = .epicTaskCatalog
    · rw [heq, hepic]
      exact h.chained .epicTaskCatalog
    · rw [hother job heq]
      exact h.chained job
  · rw [hdisk]
    have hfile := h.disk
    match s.disk, hfile with
    | none, hstart =>
        intro job hne
        rw [hother job hne]
        exact hstart job hne
    | some _, ⟨state, hstate, hcopied⟩ =>
        exact ⟨state, hstate, hcopied.started hother⟩

theorem Inv.keep (h : Inv layout distinct s) (hdisk : s'.disk = s.disk)
    (hhistory : s'.history = s.history) (hmemory : Dead s' ∨ Live layout distinct s') :
    Inv layout distinct s' := by
  have hlog : s'.log = s.log := funext fun job => by rw [State.log, State.log, hhistory]
  refine ⟨?_, ?_, hmemory⟩
  · rw [hlog]
    exact h.chained
  · rw [hlog, hdisk]
    exact h.disk

theorem Inv.init (h : Inv layout distinct s) {readable created : Bool}
    {instanceSeed now : BitVec 64}
    (hclean : CleanStart s (.init readable created instanceSeed now)) :
    Inv layout distinct (schedulerInit layout s readable created instanceSeed now) := by
  rw [schedulerInit]
  split
  · next hrunning hphase =>
      have hdead : Dead s := h.memory.resolve_right fun hlive => by
        have hok := hlive.phase
        rw [hphase] at hok
        exact hok
      cases readable with
      | false =>
          exact h.keep rfl rfl (.inl (hdead.shrink rfl rfl (.refl _) (.refl _)))
      | true =>
          obtain ⟨hqueue, hcompletions⟩ := hclean hrunning hphase
          obtain ⟨haccepted, hcopy⟩ := h.disk.loaded
          rw [if_pos haccepted]
          obtain ⟨hstarted, hlive⟩ :=
            h.startFrom hqueue hcompletions hcopy instanceSeed now
          cases created with
          | true => exact hstarted
          | false =>
              -- the same is restored, only no worker is there to take it
              have hknown : ∀ request ∈ (Maintenance.startFrom s
                  (loadState layout true s.disk).1 false instanceSeed now).queue,
                  Known request.jobId :=
                fun request hmem => (hlive.queue request hmem).1
              exact h.keep rfl rfl (.inl ⟨rfl, rfl, hknown, hlive.held⟩)
  · exact h

/-! ## Runs -/

theorem submitJob_keeps (s : State) (selected : JobDefinition) (tick : Tick)
    (draws : List (Option WorkId)) (now : BitVec 64) (prepare : Prepare) :
    (submitJob s selected tick draws now prepare).disk = s.disk ∧
      (submitJob s selected tick draws now prepare).history = s.history := by
  rw [submitJob]
  generalize (if (s.jobs (indexOf selected.id)).workId ≠ 0 then
    (s.jobs (indexOf selected.id)).workId else nextWorkId draws) = workId
  split
  · exact ⟨rfl, rfl⟩
  · split
    · exact ⟨rfl, rfl⟩
    · split <;> exact ⟨rfl, rfl⟩

theorem submitFound_keeps (s : State) (found : (Nat → JobHealth) × Option JobDefinition)
    (tick : Tick) (draws : List (Option WorkId)) (now : BitVec 64) (prepare : Prepare) :
    (submitFound s found tick draws now prepare).disk = s.disk ∧
      (submitFound s found tick draws now prepare).history = s.history := by
  rw [submitFound]
  split
  · exact ⟨rfl, rfl⟩
  · split
    · exact ⟨rfl, rfl⟩
    · exact submitJob_keeps { s with jobs := found.1 } _ tick draws now prepare

theorem workerMove_keeps (s : State) :
    (workerMove s).disk = s.disk ∧ (workerMove s).history = s.history := by
  rw [workerMove]
  split
  · rw [workerWake]
    split
    · split
      · exact ⟨rfl, rfl⟩
      · split <;> exact ⟨rfl, rfl⟩
    · exact ⟨rfl, rfl⟩
  all_goals exact ⟨rfl, rfl⟩

theorem workerPersist_history (s : State) (answer : Persisted) (elapsed : BitVec 64) :
    (workerPersist layout s answer elapsed).history = s.history := by
  unfold workerPersist
  split <;> rfl

theorem Inv.pulse (h : Inv layout distinct s) {capacity : Nat}
    (hdraw : distinct → DistinctDraw s (.pulse tick capacity draws now prepare)) :
    Inv layout distinct (pulse s tick capacity draws now prepare) := by
  rw [Maintenance.pulse]
  rcases h.memory with hdead | hlive
  · obtain ⟨happlied, hhistory, hdisk⟩ := hdead.applyCompletions tick capacity
    rw [happlied.running, Bool.false_and, Bool.false_and, if_neg Bool.false_ne_true]
    exact h.keep hdisk hhistory (.inl happlied)
  · obtain ⟨happlied, hhistory, hdisk⟩ := hlive.applyCompletions tick capacity
    have hkept : Inv layout distinct (applyCompletions tick capacity s) :=
      h.keep hdisk hhistory (.inr happlied)
    generalize applyCompletions tick capacity s = applied at happlied hhistory hdisk hkept ⊢
    split
    · next hguard =>
        rw [Bool.and_eq_true, Bool.and_eq_true, Bool.not_eq_true'] at hguard
        obtain ⟨⟨hrunning, hstop⟩, _⟩ := hguard
        have hsubmitted : Live layout distinct (submitDue applied tick draws now prepare) := by
          refine happlied.submitDue hrunning hstop fun hd => ?_
          rw [DistinctDraw, hhistory]
          exact hdraw hd
        obtain ⟨hdisk', hhistory'⟩ : (submitDue applied tick draws now prepare).disk =
            applied.disk ∧ (submitDue applied tick draws now prepare).history =
              applied.history := submitFound_keeps ..
        exact hkept.keep hdisk' hhistory' (.inr hsubmitted)
    · exact hkept

theorem dead_joined (s : State) : Dead (shutdownJoined s) := Dead.empty rfl rfl rfl rfl

theorem Live.stopped (h : Live layout distinct s) : Live layout distinct (schedulerShutdown s) := by
  refine ⟨h.memory, h.catalog, nofun, h.phase, h.completions, ?_, nofun⟩
  have hnodup := h.held
  rw [State.held, List.append_assoc] at hnodup
  exact (List.nodup_append.mp hnodup).2.1

theorem Inv.step (h : Inv layout distinct s) (event : Event) (hclean : CleanStart s event)
    (hdraw : distinct → DistinctDraw s event) : Inv layout distinct (step layout s event) := by
  cases event with
  | init readable created instanceSeed now => exact h.init hclean
  | pulse tick capacity draws now prepare => exact h.pulse hdraw
  | quiesce =>
      refine h.keep rfl rfl (h.memory.imp (fun hdead => ?_) fun hlive => ?_)
      · exact hdead.shrink rfl rfl (.refl _) (.refl _)
      · exact hlive.congr rfl rfl rfl rfl rfl rfl rfl id id
  | resume =>
      rw [Maintenance.step, schedulerResume]
      split
      · refine h.keep rfl rfl (h.memory.imp (fun hdead => ?_) fun hlive => ?_)
        · exact hdead.shrink rfl rfl (.refl _) (.refl _)
        · exact hlive.congr rfl rfl rfl rfl rfl rfl rfl id id
      · exact h
  | shutdown =>
      refine h.keep rfl rfl (h.memory.imp (fun hdead => ?_) fun hlive => hlive.stopped)
      exact hdead.shrink rfl rfl (List.nil_sublist _) (.refl _)
  | joined =>
      rw [Maintenance.step]
      split
      · exact h.keep rfl rfl (.inl (dead_joined s))
      · exact h.keep rfl rfl (.inl (dead_joined s))
      · exact h
  | started ready =>
      rw [Maintenance.step]
      split
      · next hphase =>
          have hlive : Live layout distinct s := by
            refine h.memory.resolve_left fun hdead => ?_
            rw [hdead.phase] at hphase
            cases hphase
          cases ready with
          | true => exact h.keep rfl rfl (.inr (hlive.toPhase trivial (by rw [hphase]; rfl)))
          | false =>
              exact h.keep rfl rfl (.inr (hlive.goesOn hlive.memory hlive.catalog trivial
                (fun _ _ => rfl) rfl rfl rfl (by rw [hphase]; rfl) nofun nofun))
      · exact h
  | move =>
      rcases h.memory with hdead | hlive
      · rw [Maintenance.step, workerMove, hdead.phase]
        exact h
      · obtain ⟨hdisk, hhistory⟩ := workerMove_keeps s
        exact h.keep hdisk hhistory (.inr hlive.workerMove)
  | persist answer elapsed =>
      rcases h.memory with hdead | hlive
      · rw [Maintenance.step]
        unfold workerPersist
        rw [hdead.phase]
        exact h
      · obtain ⟨hlive', hdisk⟩ := hlive.workerPersist h.disk answer elapsed
        have hlog : (Maintenance.workerPersist layout s answer elapsed).log = s.log := by
          funext job
          rw [State.log, State.log, workerPersist_history]
        refine ⟨?_, ?_, .inr hlive'⟩
        · show ∀ job, Chained distinct
            ((Maintenance.workerPersist layout s answer elapsed).log job)
          rw [hlog]
          exact h.chained
        · show OnDisk layout distinct (Maintenance.workerPersist layout s answer elapsed).log _
          rw [hlog]
          exact hdisk
  | call now =>
      rw [Maintenance.step]
      split
      · next request hphase => exact h.call hphase _
      · exact h
  | reply reply elapsed =>
      rw [Maintenance.step]
      split
      · next request hphase =>
          obtain ⟨hwork, hjob⟩ := reply_result reply request elapsed
          exact h.reply hphase hwork hjob
      · exact h
  | crash => exact h.keep rfl rfl (.inl (Dead.empty rfl rfl rfl rfl))

/-! ## Resuming -/

theorem Inv.logs (h : Inv layout distinct s) (job : JobId) : Chained False (s.log job) :=
  (h.chained job).weaken

theorem PhaseOk.writing {view : JobId → View} (h : PhaseOk layout distinct view disk history phase)
    (hwriting : phase.writing = some state) : Copy distinct (fun job => (view job).log) state := by
  cases phase with
  | syncing copy =>
      cases hwriting
      exact h
  | activating request copy =>
      cases hwriting
      exact h.2.2.2.1
  | completing request result copy =>
      cases hwriting
      exact h.2.2
  | _ => cases hwriting

theorem length_le_of_known {jobs : List JobId} (hnodup : jobs.Nodup)
    (hknown : ∀ job ∈ jobs, Known job) : jobs.length ≤ maintenanceQueueMax := by
  have hindices : (jobs.map indexOf).Nodup :=
    hnodup.map fun _ _ heq => indexOf_inj.mp heq
  have hsubset : jobs.map indexOf ⊆ List.range maintenanceJobCount := by
    intro index hmem
    obtain ⟨job, hjob, rfl⟩ := List.mem_map.mp hmem
    exact List.mem_range.mpr (hknown job hjob)
  have hlength := (hindices.subperm hsubset).length_le
  rwa [List.length_map, List.length_range] at hlength

theorem Inv.held (h : Inv layout distinct s) :
    s.held.Nodup ∧ ∀ request ∈ s.queue, Known request.jobId := by
  rcases h.memory with hdead | hlive
  · exact ⟨hdead.held, hdead.queue⟩
  · exact ⟨hlive.held, fun request hmem => (hlive.queue request hmem).1⟩

theorem Inv.resumable (h : Inv layout distinct s) : Resumable layout s := by
  refine ⟨fun state hwriting => ?_, h.disk.loaded.1, ?_, ?_, h.logs⟩
  · rcases h.memory with hdead | hlive
    · rw [hdead.phase] at hwriting
      cases hwriting
    · exact (hlive.phase.writing hwriting).loads
  · exact h.held.1
  · have hqueue : (s.queue.map Request.jobId).Nodup := by
      have hnodup := h.held.1
      rw [State.held, List.append_assoc] at hnodup
      exact (List.nodup_append.mp hnodup).1
    have hlength := length_le_of_known hqueue fun job hmem => by
      obtain ⟨request, hrequest, rfl⟩ := List.mem_map.mp hmem
      exact h.held.2 request hrequest
    rwa [List.length_map] at hlength

theorem Inv.run {events : List Event}
    (hclean : Along (Maintenance.step layout) CleanStart {} events)
    (hdraw : Along (Maintenance.step layout) (fun s event => distinct → DistinctDraw s event)
      {} events) : Inv layout distinct (Duris.run (Maintenance.step layout) {} events) := by
  have hstep : ∀ (s : State) (event : Event), Inv layout distinct s →
      CleanStart s event ∧ (distinct → DistinctDraw s event) →
        Inv layout distinct (Maintenance.step layout s event) :=
    fun _ event h hok => h.step event hok.1 hok.2
  exact run_invariant_along hstep events Inv.initial (along_and hclean hdraw)

end

/-- In every state of every run, crashes and starts included, what is written will be
accepted, a job has one request at most, and the executed requests of a job skip no page,
where no start finds what one without a thread has restored. Works that take new names do
not interleave. -/
theorem maintenance_resumable (layout : Layout) (events : List Event)
    (hclean : Along (step layout) CleanStart {} events) :
    Resumable layout (run (step layout) {} events) ∧
      (Along (step layout) DistinctDraw {} events →
        ∀ job, Contiguous (works ((run (step layout) {} events).log job))) := by
  refine ⟨?_, fun hdistinct job => ?_⟩
  · have hfree : Along (step layout) (fun s event => False → DistinctDraw s event) {} events :=
      along_of_forall (fun _ _ _ => False.elim) events _ (fun _ _ => (trivial : True))
    exact (Inv.run hclean hfree).resumable
  · have hstep : ∀ (s : State) (event : Event), True → DistinctDraw s event → True :=
      fun _ _ _ _ => trivial
    have hnamed : Along (step layout) (fun s event => True → DistinctDraw s event) {} events :=
      along_of_invariant_along hstep (fun _ _ _ h _ => h) events trivial hdistinct
    exact ((Inv.run hclean hnamed).chained job).contiguous

/-- The names and pages of the jobs, eight bytes each. -/
def recordLayout : Layout :=
  let image : DurableState → Bytes := fun state =>
    (List.range maintenanceJobCount).flatMap fun index =>
      leBytes 8 (state.jobs index).workId.toNat ++ leBytes 8 (state.jobs index).cursor.toNat
  ⟨image, image⟩

/-- A job is written down as it starts, the process dies, and the next start gets no thread. -/
def interrupted : List Event :=
  [.init true false 0 0, .init true true 0 0, .started true,
    .pulse 20000 12 [some 255] 0 ⟨some, by rintro _ _ ⟨⟩; exact ⟨rfl, rfl, rfl⟩⟩, .move, .move,
    .persist .written 0, .crash, .init true false 0 0]

theorem maintenance_resumable_interrupted :
    Resumable recordLayout (run (step recordLayout) {}
      (interrupted ++ [.shutdown, .joined, .init true true 0 0, .started true, .move, .move,
        .persist .written 0, .call 0, .reply (.returned { workId := 255 }) 1])) := by
  refine (maintenance_resumable _ _ ?_).1
  refine ⟨fun _ _ => ⟨rfl, rfl⟩, fun _ _ => ⟨rfl, rfl⟩, trivial, trivial, trivial, trivial,
    trivial, trivial, fun _ _ => ⟨rfl, rfl⟩, trivial, trivial, fun _ _ => ?_, trivial, trivial,
    trivial, trivial, trivial, trivial, trivial⟩
  decide +kernel

/-- The next start restores the job once more. -/
theorem failed_start_restores_twice :
    ¬ Resumable recordLayout (run (step recordLayout) {}
      (interrupted ++ [.init true true 0 0])) := by
  intro h
  have hheld := h.held
  revert hheld
  decide +kernel

end Duris.Maintenance
