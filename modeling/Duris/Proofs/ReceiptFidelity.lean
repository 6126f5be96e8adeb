import Duris.Economy.CurrencyPublication
import Duris.Proofs.CoinTransfer
import Duris.Proofs.ExactlyOnce
import Duris.Proofs.LiveBalances

/-!
# From the repository's result to the receipt that is published

A completion is made in one place, `completionOf`, and from there on it is only moved:
to the queue, out of a pulse, to the operation that waits for its publication, into the
cache. `Kept` says that whatever `get_completed` can return has been delivered, and
`Settled` follows one job from its final outcome on: its sequence number is not given
out again, so every completion under that number is the one it ended with.
-/

namespace Duris.Persistence.Coordinator

/-! ## What is kept was delivered -/

structure Kept (s : Coordinator) : Prop where
  published : ∀ operation ∈ s.operations, ∀ completion,
    operation.publication = some completion → completion ∈ s.delivered
  cached : ∀ completed ∈ s.completedCache, completed.completion ∈ s.delivered

variable {s : Coordinator} {completion : CriticalCompletion}

theorem getCompleted_delivered (h : Kept s) {identity : CriticalOperationId}
    (hreturned : s.getCompleted identity = some completion) : completion ∈ s.delivered := by
  unfold getCompleted at hreturned
  split at hreturned
  · next held hheld =>
      obtain ⟨operation, hfound, hpublication⟩ := Option.bind_eq_some_iff.mp hheld
      cases hreturned
      exact h.published operation (Keyed.mem_of_lookup hfound).1 _ hpublication
  · obtain ⟨completed, hfound, rfl⟩ := Option.map_eq_some_iff.mp hreturned
    exact h.cached completed (Keyed.mem_of_lookup hfound).1

theorem evictFor_subset (size : Nat) (order : List CriticalOperationId) :
    ∀ (cache : List CompletedState) (bytes : Nat),
      (evictFor size order cache bytes).2.1 ⊆ cache := by
  induction order with
  | nil => intro cache bytes completed h; exact h
  | cons identity order ih =>
      intro cache bytes
      unfold evictFor
      split
      · split
        · intro completed h
          exact (Keyed.mem_erase.mp (ih _ _ h)).1
        · exact ih cache bytes
      · exact fun completed h => h

theorem rememberCompleted_cache {command : CriticalCommand} {completed : CompletedState}
    (h : completed ∈ (s.rememberCompleted command completion).completedCache) :
    completed ∈ s.completedCache ∨ completed.completion = completion := by
  unfold rememberCompleted at h
  split at h
  · exact .inl h
  · split at h
    · exact .inl h
    · next encoded _ _ =>
        have hsubset := evictFor_subset encoded.length s.completedOrder s.completedCache
          s.completedCacheBytes
        dsimp only at h
        split at h
        · exact .inl (hsubset h)
        · rcases List.mem_append.mp h with h | h
          · exact .inl (hsubset h)
          · rw [List.mem_singleton.mp h]
            exact .inr rfl

theorem Kept.complete (h : Kept s) (operation : OperationState)
    (hdelivered : completion ∈ s.delivered) :
    Kept ((s.rememberCompleted operation.command completion).eraseOperation operation) := by
  have hrest := complete_rest s operation completion
  refine ⟨?_, ?_⟩
  · intro other hother held hheld
    rw [hrest] at hother ⊢
    exact h.published other (Keyed.mem_erase.mp hother).1 held hheld
  · intro completed hcompleted
    have hcache : completed ∈ (s.rememberCompleted operation.command completion).completedCache :=
      hcompleted
    rw [hrest]
    rcases rememberCompleted_cache hcache with hold | rfl
    · exact h.cached completed hold
    · exact hdelivered

theorem Kept.hold (h : Kept s) (operation : OperationState)
    (hdelivered : completion ∈ s.delivered) : Kept (s.holdForPublication operation completion) := by
  refine ⟨?_, h.cached⟩
  intro other hother held hheld
  obtain ⟨old, hold, rfl⟩ := List.mem_map.mp hother
  split at hheld
  · cases hheld
    exact hdelivered
  · exact h.published old hold held hheld

/-- Taking operations away, or changing what is not their publication, keeps it. -/
theorem Kept.fewer {s' : Coordinator} (h : Kept s)
    (hoperations : ∀ operation ∈ s'.operations,
      operation.publication = none ∨
        ∃ old ∈ s.operations, operation.publication = old.publication)
    (hcache : s'.completedCache = s.completedCache) (hdelivered : s'.delivered = s.delivered) :
    Kept s' := by
  refine ⟨?_, ?_⟩
  · intro operation hoperation completion hpublication
    rw [hdelivered]
    rcases hoperations operation hoperation with hnone | ⟨old, hold, hsame⟩
    · rw [hnone] at hpublication
      cases hpublication
    · exact h.published old hold completion (hsame ▸ hpublication)
  · rw [hcache, hdelivered]
    exact h.cached

theorem submitCommand_kept (h : Kept s) (command : CriticalCommand) (retainUntilPublication : Bool)
    (now : BitVec 64) : Kept (s.submitCommand command retainUntilPublication now).2 := by
  unfold submitCommand
  split
  · exact h
  split
  · exact h
  split
  · split <;> exact h
  split
  · split
    · refine h.fewer (fun operation hoperation => ?_) rfl rfl
      obtain ⟨old, hold, rfl⟩ := List.mem_map.mp hoperation
      refine .inr ⟨old, hold, ?_⟩
      split <;> rfl
    · exact h
  · split
    · exact h
    · split
      · exact h
      · refine h.fewer (fun operation hoperation => ?_) rfl rfl
        rcases List.mem_append.mp hoperation with hold | hnew
        · exact .inr ⟨operation, hold, rfl⟩
        · rw [List.mem_singleton.mp hnew]
          exact .inl rfl

theorem queueOnWriter_kept (h : Kept s) (index : Nat) (accepts : Bool) :
    Kept (s.queueOnWriter index accepts).2 := by
  unfold queueOnWriter
  split
  · exact h
  · dsimp only
    split
    · exact h.fewer (fun operation hoperation => .inr ⟨operation, hoperation, rfl⟩) rfl rfl
    · split
      · exact h.fewer (fun operation hoperation =>
          .inr ⟨operation, (Keyed.mem_erase.mp hoperation).1, rfl⟩) rfl rfl
      · exact h.fewer (fun operation hoperation => .inr ⟨operation, hoperation, rfl⟩) rfl rfl

theorem execute_kept (h : Kept s) (applied : CriticalApplyResult) : Kept (s.execute applied) := by
  have hsame {s' : Coordinator} (hoperations : s'.operations = s.operations)
      (hcache : s'.completedCache = s.completedCache) (hdelivered : s'.delivered = s.delivered) :
      Kept s' :=
    h.fewer (fun operation hoperation => .inr ⟨operation, hoperations ▸ hoperation, rfl⟩) hcache
      hdelivered
  unfold execute
  split
  · exact h
  · split
    · exact h
    · split
      · unfold tryEnqueue
        split <;> exact hsame rfl rfl rfl
      · exact hsame rfl rfl rfl

theorem publish_kept (results : List CriticalCompletion) :
    ∀ (capacity : Nat) {s : Coordinator}, Kept s → Kept (publish results capacity s).2 := by
  induction results with
  | nil => intro capacity s h; exact h
  | cons completion rest ih =>
      intro capacity s h
      cases capacity with
      | zero => exact h
      | succ capacity =>
          have hlogged : Kept { s with
              executionResults := rest
              delivered := s.delivered ++ [completion] } :=
            ⟨fun operation hoperation held hheld =>
                List.mem_append_left _ (h.published operation hoperation held hheld),
              fun completed hcompleted =>
                List.mem_append_left _ (h.cached completed hcompleted)⟩
          have hmem : completion ∈ s.delivered ++ [completion] := by simp
          unfold publish
          dsimp only
          split
          · exact ih _ ⟨h.published, h.cached⟩
          · next operation _ =>
              split
              · exact ih _ ⟨h.published, h.cached⟩
              · split
                · exact ih capacity (hlogged.hold operation hmem)
                · exact ih capacity (hlogged.complete operation hmem)

theorem acknowledgePublication_kept (h : Kept s) (identity : CriticalOperationId) :
    Kept (s.acknowledgePublication identity).2 := by
  unfold acknowledgePublication
  split
  · exact h
  · next operation hfound =>
      split
      · exact h
      · next completion hpublication =>
          have hdelivered := h.published operation (Keyed.mem_of_lookup hfound).1 _ hpublication
          have hcomplete := h.complete operation hdelivered
          exact ⟨hcomplete.published, hcomplete.cached⟩

theorem step_kept (s : Coordinator) (e : Event) (h : Kept s) : Kept (s.step e) := by
  have hcleared : Kept s.cleared := ⟨by simp [cleared], by simp [cleared]⟩
  cases e with
  | init =>
      simp only [step, init]
      split
      · exact h
      · exact ⟨hcleared.published, hcleared.cached⟩
  | shutdown =>
      simp only [step, shutdown]
      split
      · exact h
      · exact hcleared
  | submit command retainUntilPublication now =>
      exact submitCommand_kept h command retainUntilPublication now
  | queueOnWriter index accepts => exact queueOnWriter_kept h index accepts
  | execute applied => exact execute_kept h applied
  | pulse capacity =>
      have hpublished := publish_kept s.executionResults capacity h
      exact ⟨hpublished.published, hpublished.cached⟩
  | acknowledgePublication identity => exact acknowledgePublication_kept h identity
  | quiesce => exact ⟨h.published, h.cached⟩
  | resume =>
      simp only [step, resume]
      split
      · exact ⟨h.published, h.cached⟩
      · exact h

theorem run_kept (events : List Event) : Kept (run step {} events) :=
  run_invariant step_kept events ⟨by simp, by simp⟩

/-! ## One job from its final outcome on -/

/-- Everything under the sequence number of a finished job is its completion. -/
structure Settled (job : WriterJob) (applied : CriticalApplyResult) (s : Coordinator) : Prop where
  completions : ∀ completion ∈ s.executionResults ++ s.delivered,
    completion.owner = job.owner → completion.generation = job.generation →
      completion = completionOf job applied
  finished : ∀ other ∈ s.jobs, other.generation = job.generation → other.owner ≠ job.owner
  numbered : job.owner ≤ s.writerSequence

section Settled

variable {job : WriterJob} {applied : CriticalApplyResult} {s : Coordinator}

theorem Settled.fewer {s' : Coordinator} (h : Settled job applied s)
    (hcompletions : s'.executionResults ++ s'.delivered ⊆ s.executionResults ++ s.delivered)
    (hjobs : s'.jobs ⊆ s.jobs) (hsequence : s.writerSequence ≤ s'.writerSequence) :
    Settled job applied s' :=
  ⟨fun completion hcompletion => h.completions completion (hcompletions hcompletion),
    fun other hother => h.finished other (hjobs hother), h.numbered.trans hsequence⟩

/-- The numbers a generation has given out, at the writer, in the queue and delivered. -/
theorem Delivery.owners_nodup (h : Delivery s) :
    (s.current.map WriterJob.owner ++ (s.executionResults ++ s.delivered).map
      CriticalCompletion.owner).Nodup := by
  have hreceipts := h.receipts.map Prod.fst
  have hnodup : (s.receipts.map Prod.fst).Nodup := by
    refine hreceipts.nodup_iff.mpr ?_
    rw [List.map_map]
    exact h.owners
  simp only [Coordinator.receipts, List.map_append, List.map_map] at hnodup
  rw [List.map_append]
  exact hnodup

theorem Delivery.numbered_current (h : Delivery s) (hjob : job ∈ s.current) :
    job.owner ≤ s.writerSequence := by
  have hreceipt : job.receipt ∈ s.accepted.map WriterJob.receipt :=
    h.receipts.subset (List.mem_append_left _ (List.mem_map_of_mem hjob))
  obtain ⟨accepted, haccepted, hsame⟩ := List.mem_map.mp hreceipt
  have howner : accepted.owner = job.owner := congrArg Prod.fst hsame
  rw [← howner]
  exact h.numbered accepted haccepted

theorem execute_settled (h : Inv s ∧ Delivery s) {jobs : List WriterJob}
    (hjobs : s.jobs = job :: jobs) (hcurrent : job.generation = s.generation)
    (hfinal : applied.outcome.tryAgain = false) : Settled job applied (s.execute applied) := by
  have hmem : s.current = job :: jobs.filter fun other => other.generation = s.generation := by
    unfold current
    rw [hjobs, List.filter_cons_of_pos (by simpa using hcurrent)]
  have howners := h.2.owners_nodup
  rw [hmem, List.map_cons, List.cons_append, List.nodup_cons, List.mem_append, not_or] at howners
  rw [execute_final h.2 h.1.table hjobs hfinal, if_pos hcurrent]
  refine ⟨?_, ?_, h.2.numbered_current (hmem ▸ List.mem_cons_self)⟩
  · intro completion hcompletion howner _
    simp only [List.mem_append, List.mem_singleton] at hcompletion
    have hother : completion ∉ s.executionResults ++ s.delivered := fun hold =>
      howners.1.2 (howner ▸ List.mem_map_of_mem hold)
    rw [List.mem_append, not_or] at hother
    rcases hcompletion with (hold | hnew) | hold
    · exact absurd hold hother.1
    · exact hnew
    · exact absurd hold hother.2
  · intro other hother hgeneration howner
    have hsame : other ∈ jobs.filter fun other => other.generation = s.generation :=
      List.mem_filter.mpr ⟨hother, by simpa using hgeneration.trans hcurrent⟩
    exact howners.1.1 (howner ▸ List.mem_map_of_mem hsame)

theorem publish_results (results : List CriticalCompletion) :
    ∀ (capacity : Nat) (s : Coordinator), s.executionResults = results →
      (publish results capacity s).2.executionResults ⊆ results ∧
        (publish results capacity s).2.writerSequence = s.writerSequence ∧
        (publish results capacity s).2.generation = s.generation := by
  induction results with
  | nil => intro capacity s hresults; exact ⟨by simp [publish, hresults], rfl, rfl⟩
  | cons completion rest ih =>
      intro capacity s hresults
      cases capacity with
      | zero => exact ⟨by simp [publish, hresults], rfl, rfl⟩
      | succ capacity =>
          have hpast {published : Coordinator} (hpublished : published.executionResults ⊆ rest ∧
              published.writerSequence = s.writerSequence ∧
              published.generation = s.generation) :
              published.executionResults ⊆ completion :: rest ∧
                published.writerSequence = s.writerSequence ∧
                published.generation = s.generation :=
            ⟨fun other hother => List.mem_cons_of_mem _ (hpublished.1 hother), hpublished.2⟩
          unfold publish
          dsimp only
          split
          · exact hpast (ih _ _ rfl)
          · next operation _ =>
              split
              · exact hpast (ih _ _ rfl)
              · split
                · exact hpast (ih capacity _ rfl)
                · rw [complete_rest]
                  exact hpast (ih capacity _ rfl)

theorem queueOnWriter_settled (h : Settled job applied s) (index : Nat) (accepts : Bool) :
    Settled job applied (s.queueOnWriter index accepts).2 := by
  unfold queueOnWriter
  split
  · exact h
  · dsimp only
    split
    · refine ⟨h.completions, ?_, Nat.le_succ_of_le h.numbered⟩
      intro other hother hgeneration
      rcases List.mem_append.mp hother with hold | hnew
      · exact h.finished other hold hgeneration
      · have := h.numbered
        rw [List.mem_singleton.mp hnew]
        show s.writerSequence + 1 ≠ job.owner
        omega
    · split
      · exact h.fewer (List.Subset.refl _) (List.Subset.refl _) (Nat.le_succ _)
      · exact h.fewer (List.Subset.refl _) (List.Subset.refl _) (Nat.le_succ _)

theorem execute_settles (h : Settled job applied s) (other : CriticalApplyResult) :
    Settled job applied (s.execute other) := by
  unfold execute
  split
  · exact h
  · next head jobs hjobs =>
      have hhead := h.finished head (hjobs ▸ List.mem_cons_self)
      have htail : jobs ⊆ s.jobs := by rw [hjobs]; exact List.subset_cons_self head jobs
      split
      · exact h
      · split
        · unfold tryEnqueue
          split
          · refine ⟨?_, fun other hother => h.finished other (htail hother), h.numbered⟩
            intro completion hcompletion howner hgeneration
            simp only [List.mem_append, List.mem_singleton] at hcompletion
            rcases hcompletion with (hold | rfl) | hold
            · exact h.completions completion (List.mem_append_left _ hold) howner hgeneration
            · exact absurd howner (hhead hgeneration)
            · exact h.completions completion (List.mem_append_right _ hold) howner hgeneration
          · exact h.fewer (List.Subset.refl _) htail (Nat.le_refl _)
        · exact h.fewer (List.Subset.refl _) htail (Nat.le_refl _)

theorem submitCommand_rest (s : Coordinator) (command : CriticalCommand)
    (retainUntilPublication : Bool) (now : BitVec 64) :
    let submitted := (s.submitCommand command retainUntilPublication now).2
    submitted.executionResults = s.executionResults ∧ submitted.delivered = s.delivered ∧
      submitted.jobs = s.jobs ∧ submitted.writerSequence = s.writerSequence := by
  unfold submitCommand
  split
  · exact ⟨rfl, rfl, rfl, rfl⟩
  split
  · exact ⟨rfl, rfl, rfl, rfl⟩
  split
  · split <;> exact ⟨rfl, rfl, rfl, rfl⟩
  split
  · split <;> exact ⟨rfl, rfl, rfl, rfl⟩
  · split
    · exact ⟨rfl, rfl, rfl, rfl⟩
    · split <;> exact ⟨rfl, rfl, rfl, rfl⟩

theorem acknowledgePublication_rest (s : Coordinator) (identity : CriticalOperationId) :
    let acknowledged := (s.acknowledgePublication identity).2
    acknowledged.executionResults = s.executionResults ∧ acknowledged.delivered = s.delivered ∧
      acknowledged.jobs = s.jobs ∧ acknowledged.writerSequence = s.writerSequence := by
  unfold acknowledgePublication
  split
  · exact ⟨rfl, rfl, rfl, rfl⟩
  · split
    · exact ⟨rfl, rfl, rfl, rfl⟩
    · rw [complete_rest]
      exact ⟨rfl, rfl, rfl, rfl⟩

theorem Settled.same {s' : Coordinator} (h : Settled job applied s)
    (hsame : s'.executionResults = s.executionResults ∧ s'.delivered = s.delivered ∧
      s'.jobs = s.jobs ∧ s'.writerSequence = s.writerSequence) : Settled job applied s' := by
  obtain ⟨hresults, hdelivered, hjobs, hsequence⟩ := hsame
  refine h.fewer ?_ ?_ hsequence.ge
  · rw [hresults, hdelivered]
    exact List.Subset.refl _
  · rw [hjobs]
    exact List.Subset.refl _

theorem pulse_settled (h : Settled job applied s) (capacity : Nat) :
    Settled job applied (s.pulse capacity).2 := by
  obtain ⟨hdelivered, -, hjobs⟩ := publish_delivered s.executionResults capacity s
  obtain ⟨hresults, hsequence, -⟩ := publish_results s.executionResults capacity s rfl
  have hsublist := publish_sublist s.executionResults capacity s
  refine h.fewer ?_ ?_ ?_
  · intro completion hcompletion
    rcases List.mem_append.mp hcompletion with hresult | hdone
    · exact List.mem_append_left _ (hresults hresult)
    · rw [show (s.pulse capacity).2.delivered = s.delivered ++ (s.pulse capacity).1
        from hdelivered] at hdone
      rcases List.mem_append.mp hdone with hold | hnew
      · exact List.mem_append_right _ hold
      · exact List.mem_append_left _ (hsublist.subset hnew)
  · intro other hother
    rw [show (s.pulse capacity).2.jobs = s.jobs from hjobs] at hother
    exact hother
  · exact hsequence.ge

theorem step_settled (s : Coordinator) (e : Event) (h : Settled job applied s) :
    Settled job applied (s.step e) := by
  have hcleared : Settled job applied s.cleared :=
    h.fewer (by simp [cleared]) (List.Subset.refl _) (Nat.le_refl _)
  cases e with
  | init =>
      simp only [step, init]
      split
      · exact h
      · exact hcleared.same ⟨rfl, rfl, rfl, rfl⟩
  | shutdown =>
      simp only [step, shutdown]
      split
      · exact h
      · exact hcleared
  | submit command retainUntilPublication now =>
      exact h.same (submitCommand_rest s command retainUntilPublication now)
  | queueOnWriter index accepts => exact queueOnWriter_settled h index accepts
  | execute applied => exact execute_settles h applied
  | pulse capacity => exact pulse_settled h capacity
  | acknowledgePublication identity => exact h.same (acknowledgePublication_rest s identity)
  | quiesce => exact h.same ⟨rfl, rfl, rfl, rfl⟩
  | resume =>
      simp only [step, resume]
      split
      · exact h.same ⟨rfl, rfl, rfl, rfl⟩
      · exact h

end Settled

/-- The completion of a job, where the game thread can see it: handed out by a pulse, or
answered for an identity. -/
def Returned (s : Coordinator) (job : WriterJob) (completion : CriticalCompletion) : Prop :=
  (completion ∈ s.delivered ∨ ∃ identity, s.getCompleted identity = some completion) ∧
    completion.owner = job.owner ∧ completion.generation = job.generation

/-- Whatever is returned for a job, at any later time, is the completion its final
outcome made. -/
theorem returned_completionOf (events later : List Event) {job : WriterJob}
    {jobs : List WriterJob} {applied : CriticalApplyResult}
    (hjobs : (run step {} events).jobs = job :: jobs)
    (hcurrent : job.generation = (run step {} events).generation)
    (hfinal : applied.outcome.tryAgain = false) {completion : CriticalCompletion}
    (hreturned : Returned (run step {} (events ++ .execute applied :: later)) job completion) :
    completion = completionOf job applied := by
  obtain ⟨hseen, howner, hgeneration⟩ := hreturned
  have hdelivered : completion ∈ (run step {} (events ++ .execute applied :: later)).delivered := by
    rcases hseen with hdelivered | ⟨identity, hanswer⟩
    · exact hdelivered
    · exact getCompleted_delivered (run_kept _) hanswer
  have hsettled := run_invariant step_settled later
    (execute_settled (run_delivery events) hjobs hcurrent hfinal)
  rw [run_append, run_cons] at hdelivered
  exact hsettled.completions completion (List.mem_append_right _ hdelivered) howner hgeneration

theorem pulse_delivers {s : Coordinator} (h : Inv s ∧ Delivery s)
    {completion : CriticalCompletion} (hwaiting : completion ∈ s.executionResults) :
    ∃ other ∈ (s.pulse criticalCoordinatorMaxResults).2.delivered,
      other.receipt = completion.receipt := by
  have hpulsed : Delivery (s.pulse criticalCoordinatorMaxResults).2 :=
    (step_delivered s (.pulse criticalCoordinatorMaxResults) h).2
  obtain ⟨-, haccepted, hjobs⟩ := publish_delivered s.executionResults
    criticalCoordinatorMaxResults s
  obtain ⟨-, -, hgeneration⟩ := publish_results s.executionResults
    criticalCoordinatorMaxResults s rfl
  have hnone : (s.pulse criticalCoordinatorMaxResults).2.executionResults = [] :=
    publish_empties s.executionResults criticalCoordinatorMaxResults
      (Nat.le_of_lt (h.2.results_length h.1.table)) rfl
  have hcurrent : (s.pulse criticalCoordinatorMaxResults).2.current = s.current := by
    unfold current
    rw [show (s.pulse criticalCoordinatorMaxResults).2.jobs = s.jobs from hjobs,
      show (s.pulse criticalCoordinatorMaxResults).2.generation = s.generation from hgeneration]
  have hafter : completion.receipt ∈ (s.pulse criticalCoordinatorMaxResults).2.receipts := by
    refine hpulsed.receipts.symm.subset ?_
    rw [show (s.pulse criticalCoordinatorMaxResults).2.accepted = s.accepted from haccepted]
    exact h.2.receipts.subset
      (List.mem_append_right _ (List.mem_append_left _ (List.mem_map_of_mem hwaiting)))
  rw [Coordinator.receipts, hnone, hcurrent, List.map_nil, List.nil_append] at hafter
  rcases List.mem_append.mp hafter with hworking | hdelivered
  · -- the writer does not hold what waits in the queue
    obtain ⟨job, hjob, hsame⟩ := List.mem_map.mp hworking
    have howners := h.2.owners_nodup
    rw [List.nodup_append] at howners
    exact absurd (congrArg Prod.fst hsame) (howners.2.2 _ (List.mem_map_of_mem hjob) _
      (List.mem_map_of_mem (List.mem_append_left _ hwaiting)))
  · exact List.mem_map.mp hdelivered

theorem returned_after_pulse (events : List Event) {job : WriterJob} {jobs : List WriterJob}
    {applied : CriticalApplyResult} (hjobs : (run step {} events).jobs = job :: jobs)
    (hcurrent : job.generation = (run step {} events).generation)
    (hfinal : applied.outcome.tryAgain = false) :
    Returned (run step {} (events ++ [.execute applied, .pulse criticalCoordinatorMaxResults]))
      job (completionOf job applied) := by
  have hstart := run_delivery events
  have hdone := step_delivered _ (.execute applied) hstart
  have hqueued : completionOf job applied ∈
      ((run step {} events).step (.execute applied)).executionResults := by
    show _ ∈ (execute (run step {} events) applied).executionResults
    rw [execute_final hstart.2 hstart.1.table hjobs hfinal, if_pos hcurrent]
    simp
  have hsettled := pulse_settled (execute_settled hstart hjobs hcurrent hfinal)
    criticalCoordinatorMaxResults
  have hpulsed := (step_delivered _ (.pulse criticalCoordinatorMaxResults) hdone).2
  obtain ⟨-, -, hgeneration⟩ := publish_results
    ((run step {} events).step (.execute applied)).executionResults
    criticalCoordinatorMaxResults _ rfl
  obtain ⟨other, hother, hsame⟩ := pulse_delivers hdone hqueued
  have hmade : other = completionOf job applied := by
    refine hsettled.completions other (List.mem_append_right _ hother)
      (congrArg Prod.fst hsame) ?_
    rw [hpulsed.completions other (List.mem_append_right _ hother)]
    exact hgeneration.trans
      (hdone.2.completions _ (List.mem_append_left _ hqueued)).symm
  rw [hmade] at hother
  rw [run_append]
  exact ⟨.inl hother, rfl, rfl⟩

end Duris.Persistence.Coordinator
