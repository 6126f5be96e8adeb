import Duris.Player.SavePipeline
import Duris.Proofs.JournalCustody
import Duris.Proofs.WriterSteps

/-!
# Which saves hold a login back

`player_save_pipeline_load_held` and `retire_ended_player` ask the worker, and only
the worker, whether a save of the player is on its way. A sealed snapshot reaches the
worker last: before that it waits in `pending_append`, in the dispatcher's append or
in `durable_ready`, and neither guard looks there (`player_save_pipeline_sealed_save_pending`
is the query that does). So the guards are right about a player exactly when the
worker happens to hold another of its snapshots, or no snapshot waits in front of it.
-/

namespace Duris.Player

namespace Worker

/-- A snapshot of the player is queued, being written, or reported and not consumed. -/
def InWorker (w : Worker) (pid : Pid) : Prop :=
  (∃ job ∈ w.queue, job.kind = .player ∧ ∃ snapshot, job.snapshot = some snapshot ∧
    snapshot.pid = pid) ∨
  (∃ job, w.inflight = some job ∧ job.kind = .player ∧
    ∃ snapshot, job.snapshot = some snapshot ∧ snapshot.pid = pid) ∨
  ∃ completion ∈ w.results, completion.kind = .player ∧ completion.pid = pid

variable {w : Worker}

theorem Filed.queued_named (h : Filed w) {job : QueuedJob} (hjob : job ∈ w.queue) : Named job :=
  h.named job (List.mem_of_getElem? (h.queued job hjob))

theorem Filed.inflight_named (h : Filed w) {job : QueuedJob} (hjob : w.inflight = some job) :
    Named job :=
  h.named job (List.mem_of_getElem? (h.inflight job hjob))

theorem signExtend_injective {a b : Pid} (h : a.signExtend 64 = b.signExtend 64) : a = b := by
  have hint := congrArg BitVec.toInt h
  rw [BitVec.toInt_signExtend_of_le (by decide), BitVec.toInt_signExtend_of_le (by decide)] at hint
  exact BitVec.toInt_inj.mp hint

/-- The index has an entry for the player exactly when one of its jobs is queued. -/
theorem index_isSome_iff (hinv : Inv w) (pid : Pid) :
    (w.queuedByOwner (.player, pid.signExtend 64)).isSome = true ↔
      ∃ job ∈ w.queue, job.kind = .player ∧ ∃ snapshot, job.snapshot = some snapshot ∧
        snapshot.pid = pid := by
  rw [hinv.indexed.newest, Option.isSome_map, newest_isSome_iff]
  constructor
  · rintro ⟨job, hjob, hkey⟩
    rw [QueuedJob.key, Prod.mk.injEq] at hkey
    obtain ⟨snapshot, hsnapshot, howner, -⟩ := hinv.filed.queued_named hjob hkey.1
    exact ⟨job, hjob, hkey.1, snapshot, hsnapshot,
      signExtend_injective (howner.symm.trans hkey.2)⟩
  · rintro ⟨job, hjob, hkind, snapshot, hsnapshot, rfl⟩
    obtain ⟨found, hfound, howner, -⟩ := hinv.filed.queued_named hjob hkind
    rw [hsnapshot, Option.some.injEq] at hfound
    exact ⟨job, hjob, by rw [QueuedJob.key, hkind, howner, hfound]⟩

theorem InWorker.valid (hinv : Inv w) {pid : Pid} (h : InWorker w pid) : Pid.valid pid = true := by
  rcases h with ⟨job, hjob, hkind, snapshot, hsnapshot, rfl⟩ |
    ⟨job, hjob, hkind, snapshot, hsnapshot, rfl⟩ | ⟨completion, hcompletion, hkind, rfl⟩
  · obtain ⟨found, hfound, -, hvalid⟩ := hinv.filed.queued_named hjob hkind
    rw [hsnapshot, Option.some.injEq] at hfound
    rw [hfound]
    exact hvalid
  · obtain ⟨found, hfound, -, hvalid⟩ := hinv.filed.inflight_named hjob hkind
    rw [hsnapshot, Option.some.injEq] at hfound
    rw [hfound]
    exact hvalid
  · obtain ⟨job, retries, result, hjob, rfl⟩ :=
      hinv.filed.reported completion (List.mem_append_left _ hcompletion)
    obtain ⟨found, hfound, -, hvalid⟩ := hinv.filed.named job (List.mem_of_getElem? hjob) hkind
    simp only [completionOf, hfound]
    exact hvalid

theorem pidPending_iff (hinv : Inv w) (pid : Pid) : w.pidPending pid = true ↔ InWorker w pid := by
  have hqueue := index_isSome_iff hinv pid
  constructor
  · intro h
    unfold pidPending at h
    split at h
    · cases h
    · rw [Bool.or_eq_true, Bool.or_eq_true] at h
      rcases h with (hslot | hindex) | hresult
      · split at hslot
        · next job hinflight =>
            rw [Bool.and_eq_true, beq_iff_eq] at hslot
            obtain ⟨hkind, hpid⟩ := hslot
            split at hpid
            · cases hpid
            · next snapshot hsnapshot =>
                exact .inr (.inl ⟨job, hinflight, hkind, snapshot, hsnapshot, by simpa using hpid⟩)
        · cases hslot
      · exact .inl (hqueue.mp hindex)
      · obtain ⟨completion, hcompletion, hmatch⟩ := List.any_eq_true.mp hresult
        rw [Bool.and_eq_true, beq_iff_eq, beq_iff_eq] at hmatch
        exact .inr (.inr ⟨completion, hcompletion, hmatch⟩)
  · intro h
    unfold pidPending
    rw [if_neg (by rw [h.valid hinv]; decide), Bool.or_eq_true, Bool.or_eq_true]
    rcases h with hjob | ⟨job, hinflight, hkind, snapshot, hsnapshot, hpid⟩ |
      ⟨completion, hcompletion, hmatch⟩
    · exact .inl (.inr (hqueue.mpr hjob))
    · refine .inl (.inl ?_)
      simp [hinflight, hkind, hsnapshot, hpid]
    · exact .inr (List.any_eq_true.mpr ⟨completion, hcompletion, by simp [hmatch]⟩)

end Worker

namespace Pipeline

open Worker (InWorker)

/-- A sealed snapshot of the player waits in front of the worker. -/
def InPipeline (s : Pipeline) (pid : Pid) : Prop :=
  (∃ snapshot ∈ s.pendingAppend, snapshot.pid = pid) ∨
  (∃ snapshot, s.dispatcher.inflight = some snapshot ∧ snapshot.pid = pid) ∨
  ∃ snapshot ∈ s.durableReady, snapshot.pid = pid

/-- A sealed snapshot of the player is on its way, anywhere. -/
def SealedHeld (s : Pipeline) (pid : Pid) : Prop := InPipeline s pid ∨ InWorker s.worker pid

/-- The login of the player waits, and neither guard forgets its revision state. -/
structure LoginGuarded (s : Pipeline) (pid : Pid) : Prop where
  held : s.loadHeld pid = true
  retire : (s.retireEndedPlayer pid).revisions.lookup pid = s.revisions.lookup pid
  ended : ((s.endSession pid).revisions.lookup pid).isSome = (s.revisions.lookup pid).isSome

theorem retireEndedPlayer_worker (s : Pipeline) (pid : Pid) :
    (s.retireEndedPlayer pid).worker = s.worker := by
  unfold retireEndedPlayer
  split
  · rfl
  · split <;> rfl

theorem retireAll_worker (completions : List Completion) :
    ∀ s : Pipeline, (completions.foldl
      (fun s completion => s.retireEndedPlayer completion.pid) s).worker = s.worker := by
  induction completions with
  | nil => exact fun s => rfl
  | cons completion completions ih =>
      intro s
      rw [List.foldl_cons, ih, retireEndedPlayer_worker]

theorem submitReady_worker (budget : Nat) : ∀ (allocates : List Bool) (s : Pipeline),
    ∃ events, (submitReady budget allocates s).worker = run Worker.step s.worker events := by
  induction budget with
  | zero => exact fun allocates s => ⟨[], rfl⟩
  | succ budget ih =>
      intro allocates s
      unfold submitReady
      split
      · exact ⟨[], rfl⟩
      · next snapshot rest hready =>
          split
          · exact ⟨[], rfl⟩
          · exact ⟨[], rfl⟩
          · next answer worker _ _ hsubmit =>
              obtain ⟨events, hevents⟩ := ih allocates.tail { s with
                worker
                durableReady := rest
                retainedBytes := s.retainedBytes - snapshot.size }
              refine ⟨.submitRetained snapshot (allocates.headD true) :: events, ?_⟩
              rw [hevents, run_cons]
              simp only [Worker.step, hsubmit]

theorem step_worker (s : Pipeline) (e : Event) :
    ∃ events, (s.step e).worker = run Worker.step s.worker events := by
  cases e with
  | initBegin io starts =>
      simp only [step, initBegin]
      split
      · exact ⟨[], rfl⟩
      · split
        · exact ⟨[], rfl⟩
        · split <;> exact ⟨[.init starts], rfl⟩
  | initFinish starts =>
      simp only [step, initFinish]
      split
      · exact ⟨[], rfl⟩
      · split
        · exact ⟨[.shutdownBegin], rfl⟩
        · exact ⟨[], rfl⟩
  | replayScan mysqlReady io =>
      simp only [step, replayScan]
      split
      · split <;> exact ⟨[], rfl⟩
      · exact ⟨[], rfl⟩
  | replayApply result io =>
      simp only [step, replayApply]
      split
      · split
        · exact ⟨[], rfl⟩
        · split
          · exact ⟨[], rfl⟩
          · split <;> exact ⟨[], rfl⟩
      · exact ⟨[], rfl⟩
      · exact ⟨[], rfl⟩
  | replayRelease io =>
      simp only [step, replayRelease]
      split
      · exact ⟨[], rfl⟩
      · split <;> exact ⟨[], rfl⟩
      · exact ⟨[], rfl⟩
  | capture snapshot allocates =>
      refine ⟨[], ?_⟩
      simp only [step, submitCapture, run_nil]
      split
      · unfold enqueueSnapshot
        split
        · rfl
        · split
          · split
            · rfl
            · split
              · rfl
              · split <;> rfl
          · split <;> rfl
      · rfl
  | dispatcherTake =>
      simp only [step, dispatcherTake]
      split
      · exact ⟨[], rfl⟩
      · split <;> exact ⟨[], rfl⟩
      · exact ⟨[], rfl⟩
  | dispatcherAppend createdMsec sequence io =>
      simp only [step, dispatcherAppend]
      split <;> exact ⟨[], rfl⟩
  | dispatcherSettle allocates =>
      simp only [step, dispatcherSettle]
      split
      · split
        · exact ⟨[], rfl⟩
        · split <;> exact ⟨[], rfl⟩
      · exact ⟨[], rfl⟩
  | attemptEnd result io =>
      simp only [step, attemptEnd]
      split
      · split
        · split
          · exact ⟨[.attemptEnd _], rfl⟩
          · exact ⟨[.attemptEnd result], rfl⟩
        · exact ⟨[.attemptEnd result], rfl⟩
      · exact ⟨[], rfl⟩
  | worker e =>
      simp only [step]
      split
      · exact ⟨[e], rfl⟩
      · exact ⟨[], rfl⟩
  | pulse allocates =>
      simp only [step, pulse]
      obtain ⟨events, hevents⟩ := submitReady_worker playerSavePipelinePulseBudget allocates
        ((s.worker.pulse playerSavePipelinePulseBudget).1.foldl
          (fun s completion => s.retireEndedPlayer completion.pid)
          { s with
            worker := (s.worker.pulse playerSavePipelinePulseBudget).2
            revisions := (s.worker.pulse playerSavePipelinePulseBudget).1.foldl
              acknowledgeCompletion s.revisions })
      refine ⟨.pulse playerSavePipelinePulseBudget :: events, ?_⟩
      rw [hevents, retireAll_worker, run_cons]
      rfl
  | revision op => exact ⟨[], rfl⟩
  | endSession pid =>
      refine ⟨[], ?_⟩
      simp only [step, endSession, run_nil]
      split
      · rfl
      · rw [retireEndedPlayer_worker]
  | live pid present => exact ⟨[], rfl⟩
  | targetFence pid held => exact ⟨[], rfl⟩
  | shutdownStop => exact ⟨[], rfl⟩
  | shutdownFinish =>
      simp only [step, shutdownFinish]
      split
      · split <;> exact ⟨[], rfl⟩
      · exact ⟨[], rfl⟩

theorem run_worker_inv (events : List Event) : Worker.Inv (run step {} events).worker := by
  have hstep : ∀ (s : Pipeline) (e : Event), Worker.Inv s.worker →
      Worker.Inv (s.step e).worker := by
    intro s e hinv
    obtain ⟨workerEvents, hworker⟩ := step_worker s e
    rw [hworker]
    exact run_invariant Worker.step_inv workerEvents hinv
  exact run_invariant (P := fun s : Pipeline => Worker.Inv s.worker) hstep events Worker.inv_empty

theorem retireEndedPlayer_of_pending {s : Pipeline} {pid : Pid}
    (h : s.worker.pidPending pid = true) : s.retireEndedPlayer pid = s := by
  unfold retireEndedPlayer
  split
  · rfl
  · rw [if_neg]
    rintro ⟨-, -, hidle⟩
    rw [h] at hidle
    cases hidle

theorem endSession_lookup (revisions : RevisionStates) (pid : Pid) :
    ((playerRevisionEndSession revisions pid).lookup pid).isSome =
      (revisions.lookup pid).isSome := by
  unfold playerRevisionEndSession onEntry
  split
  · rfl
  · next entry hentry => simp [hentry]

theorem loginGuarded_of_pending {s : Pipeline} {pid : Pid} (hvalid : Pid.valid pid = true)
    (h : s.worker.pidPending pid = true) : LoginGuarded s pid where
  held := by rw [loadHeld, hvalid, h]; rfl
  retire := by rw [retireEndedPlayer_of_pending h]
  ended := by
    unfold endSession
    split
    · rfl
    · have hpending : ({ s with revisions := playerRevisionEndSession s.revisions pid } :
          Pipeline).worker.pidPending pid = true := h
      rw [retireEndedPlayer_of_pending hpending, endSession_lookup]

/-- In every reachable state, a player with a sealed save on its way is guarded exactly
when the worker holds one of its snapshots, or none waits in front of the worker. -/
theorem login_guarded_iff_worker_holds (events : List Event) (pid : Pid) :
    (SealedHeld (run step {} events) pid → LoginGuarded (run step {} events) pid) ↔
      (InPipeline (run step {} events) pid → InWorker (run step {} events).worker pid) := by
  have hinv := run_worker_inv events
  constructor
  · intro hguard hwaiting
    have hheld := (hguard (.inl hwaiting)).held
    rw [loadHeld, Bool.and_eq_true] at hheld
    exact (Worker.pidPending_iff hinv pid).mp hheld.2
  · intro hworker hsealed
    have hin : InWorker (run step {} events).worker pid := hsealed.elim hworker id
    exact loginGuarded_of_pending (hin.valid hinv) ((Worker.pidPending_iff hinv pid).mpr hin)

/-- A pipeline that starts over an empty journal. -/
def freshStart : List Event := [.initBegin ⟨⟨true, true⟩, .done⟩ true, .initFinish true]

theorem run_freshStart :
    run step {} freshStart =
      { journal := { initialized := true }
        worker := (Worker.init {} true).2
        initialized := true
        dispatcher := .starting } := by
  simp only [freshStart, run_cons, run_nil, step, initBegin, init_empty]
  rfl

/-- Player 7 logs in at revision 0, changes, and its save is captured. -/
def captureAtLogout : List Event :=
  [.revision (.hydrate 7 0), .revision (.mark 7 1), .revision (.queue 7),
    .capture (bareSnapshot 7 1 []) true]

/-- The captured save waits for the dispatcher; the login is not held, and the end of
the session forgets the revision it was captured at. -/
theorem pending_append_holds_no_login :
    ((run step {} (freshStart ++ captureAtLogout)).revisions.lookup 7).isSome = true ∧
    ((run step {} (freshStart ++ captureAtLogout)).endSession 7).revisions.lookup 7 = none ∧
    ¬ (SealedHeld (run step {} (freshStart ++ captureAtLogout)) 7 →
      LoginGuarded (run step {} (freshStart ++ captureAtLogout)) 7) := by
  rw [run_append, run_freshStart]
  refine ⟨by rfl, by rfl, fun h => ?_⟩
  have hheld := (h (.inl (.inl ⟨bareSnapshot 7 1 [], List.mem_singleton.mpr rfl, rfl⟩))).held
  cases hheld

end Pipeline

end Duris.Player
