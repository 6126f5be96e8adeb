import Duris.Proofs.WriterSteps

/-!
# The writer keeps what it admits

Each admitted job carries a ticket, and `Counted` says that the tickets of the queue,
the slot, the completions and the superseded jobs are a rearrangement of all tickets
given out: every job is in one place, and once. The count survives every step but
one. A writer that is started while an abandoned job is still in flight takes the
next head into the same slot, and the abandoned job is nowhere; `TakesIntoEmptySlot`
is the condition that excludes it.
-/

namespace Duris.Player

namespace Worker

def reports (w : Worker) (ticket : Nat) : List Completion :=
  (w.results ++ w.delivered).filter fun completion => completion.ticket = ticket

def replacements (w : Worker) (ticket : Nat) : List Superseded :=
  w.superseded.filter fun s => s.old.ticket = ticket

def holders (w : Worker) (ticket : Nat) : List QueuedJob :=
  (w.queue ++ w.inflight.toList).filter fun job => job.ticket = ticket

/-- Where an admitted job is: reported by one completion behind an attempt that
ended, replaced by the submission of its owner that came right after it, or held
and named. -/
inductive InCustody (w : Worker) (job : QueuedJob) : Prop where
  | reported (retries : Nat) (result : ApplyResult)
      (hreports : w.reports job.ticket = [completionOf job retries result])
      (hended : Attempt.ended job.ticket ∈ w.attempts)
      (hreplaced : w.replacements job.ticket = []) (hheld : w.holders job.ticket = [])
  | replaced (s : Superseded) (hreports : w.reports job.ticket = [])
      (hreplaced : w.replacements job.ticket = [s]) (hold : s.old = job)
      (hnew : w.admitted[job.ticket + 1]? = some s.new) (hkey : s.new.key = job.key)
      (hheld : w.holders job.ticket = [])
  | held (hreports : w.reports job.ticket = []) (hreplaced : w.replacements job.ticket = [])
      (hheld : w.holders job.ticket = [job]) (hnamed : job.key ∈ w.pendingOwners)

/-- The writer takes a job off the queue only while no job is in flight. -/
def TakesIntoEmptySlot (w : Worker) : Event → Prop
  | .wake => w.phase = .waiting → w.stopRequested = false → w.queue ≠ [] → w.inflight = none
  | _ => True

def tickets (w : Worker) : List Nat :=
  (w.queue ++ w.inflight.toList).map QueuedJob.ticket ++
    ((w.results ++ w.delivered).map Completion.ticket ++
      w.superseded.map fun s => s.old.ticket)

def Counted (w : Worker) : Prop := w.tickets.Perm (List.range w.admitted.length)

variable {w : Worker} {job : QueuedJob}

theorem Counted.same {w' : Worker} (h : Counted w) (same : SameCustody w w') : Counted w' := by
  unfold Counted tickets at h ⊢
  rw [same.queue, same.inflight, same.results, same.delivered, same.superseded, same.admitted]
  exact h

theorem Counted.append (h : Counted w) (job : QueuedJob) : Counted (w.appendJob job) := by
  have hgrown := h.append_right [w.admitted.length]
  rw [← List.range_succ] at hgrown
  unfold Counted
  simp only [appendJob, List.length_append, List.length_singleton]
  refine List.Perm.trans ?_ hgrown
  unfold tickets
  simp only [List.map_append, List.map_cons, List.map_nil, placed_ticket, List.append_assoc]
  refine List.Perm.append_left _ ?_
  exact List.perm_append_comm.trans (by simp)

theorem Counted.replace (h : Counted w) {ahead : List QueuedJob} {tail : QueuedJob}
    (job : QueuedJob) (hqueue : w.queue = ahead ++ [tail]) :
    Counted (w.replaceJob ahead tail job) := by
  have hgrown := h.append_right [w.admitted.length]
  rw [← List.range_succ] at hgrown
  unfold Counted
  simp only [replaceJob, List.length_append, List.length_singleton]
  refine List.Perm.trans ?_ hgrown
  unfold tickets
  rw [hqueue]
  simp only [List.map_append, List.map_cons, List.map_nil, placed_ticket, List.append_assoc]
  refine List.Perm.append_left _ ?_
  -- The new ticket stands where the old one stood, and both stand at the other end.
  rw [List.perm_iff_count]
  intro t
  simp only [List.count_append]
  omega

theorem Counted.take (h : Counted w) {rest : List QueuedJob} (hqueue : w.queue = job :: rest)
    (hempty : w.inflight = none) : Counted (w.takeJob job rest) := by
  refine List.Perm.trans ?_ h
  unfold tickets
  rw [hqueue, hempty]
  refine List.Perm.append_right _ ?_
  simp only [takeJob, Option.toList_some, Option.toList_none, List.append_nil, List.map_append,
    List.map_cons, List.map_nil]
  exact List.perm_append_comm

theorem Counted.report (h : Counted w) (retries : Nat) (result : ApplyResult) (phase : WriterPhase)
    (hinflight : w.inflight = some job) : Counted (w.reportJob job retries result phase) := by
  refine List.Perm.trans ?_ h
  unfold tickets
  rw [hinflight]
  simp only [reportJob, Option.toList_some, Option.toList_none, List.append_nil,
    List.map_append, List.map_cons, List.map_nil, completionOf]
  rw [List.perm_iff_count]
  intro t
  simp only [List.count_append]
  omega

theorem Counted.consume (h : Counted w) (capacity : Nat) : Counted (w.pulse capacity).2 := by
  refine List.Perm.trans ?_ h
  unfold tickets
  refine List.Perm.append_left _ (List.Perm.append_right _ (List.Perm.map _ ?_))
  conv_rhs => rw [← List.take_append_drop capacity w.results]
  rw [List.append_assoc]
  exact (List.perm_append_comm.append_left _).trans (List.perm_append_comm_assoc _ _ _)

theorem step_counted (w : Worker) (e : Event) (h : Counted w)
    (hslot : TakesIntoEmptySlot w e) : Counted (w.step e) := by
  have heffect := step_effect w e
  generalize w.step e = w' at heffect ⊢
  cases heffect with
  | idle same => exact h.same same
  | start same => exact h.same same
  | attemptStart job retries same => exact h.same same
  | attemptEnd job retries same => exact h.same same
  | append job => exact h.append job
  | replace ahead tail job hsubmitted hqueue => exact h.replace job hqueue
  | take job rest hqueue hevent hphase hstop =>
      subst hevent
      exact h.take hqueue (hslot hphase hstop (by simp [hqueue]))
  | report job retries result phase hinflight => exact h.report retries result phase hinflight
  | consume capacity => exact h.consume capacity

theorem counted_empty : Counted {} := List.Perm.refl _

theorem filter_eq_singleton_of_count {α : Type} {f : α → Nat} {xs : List α} {t : Nat}
    (h : (xs.map f).count t = 1) :
    ∃ x ∈ xs, f x = t ∧ xs.filter (fun x => f x = t) = [x] := by
  have hlength : (xs.filter fun x => f x = t).length = 1 := by
    rw [← h, List.count_eq_countP, List.countP_map, List.countP_eq_length_filter]
    congr 1
  obtain ⟨x, hx⟩ := List.length_eq_one_iff.mp hlength
  have hmem : x ∈ xs.filter fun x => f x = t := by simp [hx]
  rw [List.mem_filter, decide_eq_true_eq] at hmem
  exact ⟨x, hmem.1, hmem.2, hx⟩

theorem filter_eq_nil_of_count {α : Type} {f : α → Nat} {xs : List α} {t : Nat}
    (h : (xs.map f).count t = 0) : xs.filter (fun x => f x = t) = [] := by
  rw [List.filter_eq_nil_iff]
  intro x hx
  rw [decide_eq_true_eq]
  rintro rfl
  exact List.count_eq_zero.mp h (List.mem_map_of_mem hx)

theorem Counted.count_eq_one (h : Counted w) {t : Nat} (ht : t < w.admitted.length) :
    ((w.queue ++ w.inflight.toList).map QueuedJob.ticket).count t +
      (((w.results ++ w.delivered).map Completion.ticket).count t +
        (w.superseded.map fun s => s.old.ticket).count t) = 1 := by
  have hcount := h.count_eq t
  rw [List.nodup_range.count, if_pos (List.mem_range.mpr ht)] at hcount
  rw [← hcount]
  unfold tickets
  rw [List.count_append, List.count_append]

theorem mem_pendingOwners (h : job ∈ w.queue ++ w.inflight.toList) : job.key ∈ w.pendingOwners := by
  unfold pendingOwners
  rw [← List.map_append]
  exact List.mem_map_of_mem (List.mem_append.mpr (List.mem_append.mp h).symm)

theorem Filed.held (h : Filed w) (hjob : job ∈ w.queue ++ w.inflight.toList) :
    w.admitted[job.ticket]? = some job := by
  rcases List.mem_append.mp hjob with hjob | hjob
  · exact h.queued job hjob
  · exact h.inflight job (Option.mem_toList.mp hjob)

theorem Counted.inCustody (h : Counted w) (hinv : Inv w) {t : Nat}
    (hjob : w.admitted[t]? = some job) : InCustody w job := by
  have ht : t < w.admitted.length := (List.getElem?_eq_some_iff.mp hjob).1
  have hone := h.count_eq_one ht
  -- Two of the three counts are zero; the remaining one says where the job is.
  by_cases hheld : ((w.queue ++ w.inflight.toList).map QueuedJob.ticket).count t = 1
  · obtain ⟨found, hmem, rfl, hfilter⟩ := filter_eq_singleton_of_count hheld
    rw [hinv.filed.held hmem, Option.some.injEq] at hjob
    subst hjob
    exact .held (filter_eq_nil_of_count (by omega)) (filter_eq_nil_of_count (by omega)) hfilter
      (mem_pendingOwners hmem)
  · by_cases hreported : ((w.results ++ w.delivered).map Completion.ticket).count t = 1
    · obtain ⟨found, hmem, rfl, hfilter⟩ := filter_eq_singleton_of_count hreported
      obtain ⟨owner, retries, result, howner, hcompletion⟩ := hinv.filed.reported found hmem
      rw [howner, Option.some.injEq] at hjob
      subst hjob
      have hticket : found.ticket = owner.ticket := by rw [hcompletion]; rfl
      have hended := hinv.attempted.reported found hmem
      rw [hticket] at hended hfilter hone hheld hreported
      rw [hcompletion] at hfilter
      exact .reported retries result hfilter hended (filter_eq_nil_of_count (by omega))
        (filter_eq_nil_of_count (by omega))
    · have hreplaced : (w.superseded.map fun s => s.old.ticket).count t = 1 := by omega
      obtain ⟨s, hmem, rfl, hfilter⟩ := filter_eq_singleton_of_count hreplaced
      obtain ⟨hold, hnew, hticket, hkey, -⟩ := hinv.filed.replaced s hmem
      rw [hold, Option.some.injEq] at hjob
      subst hjob
      rw [hticket] at hnew
      exact .replaced s (filter_eq_nil_of_count (by omega)) hfilter rfl hnew hkey.symm
        (filter_eq_nil_of_count (by omega))

/-- While the writer takes jobs only into an empty slot, every job it answered
accepted or replaced is reported once, was replaced by its owner's next submission, or
is held and named, across any number of shutdowns and restarts. The ring of
completions never overflows. -/
theorem writer_keeps_admitted_jobs (events : List Event)
    (hslot : Along step TakesIntoEmptySlot {} events) :
    (∀ (t : Nat) (job : QueuedJob), (run step {} events).admitted[t]? = some job →
      InCustody (run step {} events) job) ∧
    (run step {} events).pendingJobs ≤ playerSaveWorkerMaxPendingJobs := by
  have hinv := run_inv events
  have hcounted : Counted (run step {} events) :=
    run_invariant_along step_counted events counted_empty hslot
  exact ⟨fun t job hjob => hcounted.inCustody hinv hjob, hinv.filed.capacity⟩

/-- A save of corpse 1 whose connection is lost until the server stops, and the start
of the next writer. -/
def abandonedSave : List Event :=
  [.init true, .writerSubmit .corpse 1 10 true true, .wake, .attemptStart,
    .attemptEnd ⟨.retryableFailure, 0, 0⟩, .shutdownBegin, .retry, .complete, .exit,
    .shutdownFinish, .init true]

theorem writer_keeps_abandoned_save :
    Along step TakesIntoEmptySlot {} abandonedSave ∧
    (∀ (t : Nat) (job : QueuedJob), (run step {} abandonedSave).admitted[t]? = some job →
      InCustody (run step {} abandonedSave) job) ∧
    (run step {} abandonedSave).pendingJobs ≤ playerSaveWorkerMaxPendingJobs := by
  have hslot : Along step TakesIntoEmptySlot {} abandonedSave :=
    ⟨trivial, trivial, fun _ _ _ => rfl, trivial, trivial, trivial, trivial, trivial, trivial,
      trivial, trivial, trivial⟩
  exact ⟨hslot, writer_keeps_admitted_jobs abandonedSave hslot⟩

/-- The next writer takes the save of corpse 2 into the slot of the abandoned one,
which is then neither reported nor replaced nor held. -/
theorem restart_discards_abandoned_job :
    ∃ job, (run step {} (abandonedSave ++
        [.writerSubmit .corpse 2 10 true true, .wake])).admitted[0]? = some job ∧
      ¬ InCustody (run step {} (abandonedSave ++
        [.writerSubmit .corpse 2 10 true true, .wake])) job := by
  refine ⟨{ kind := .corpse, owner := 1, snapshot := none, bytes := 10 }, rfl, ?_⟩
  rintro (⟨retries, result, hreports, -⟩ | ⟨s, -, hreplaced, -⟩ | ⟨-, -, hheld, -⟩)
  · cases hreports
  · cases hreplaced
  · cases hheld

end Worker

end Duris.Player
