import Duris.Proofs.Coordinator

/-!
# Each accepted command is delivered once

An operation in the table waits for one thing: for the writer's answer to its
submission, for its job, for a pulse to hand its completion out, or for its
publication. `Delivery.tracked` says so by identity, as a rearrangement of the table,
and two facts follow from the count. The completions that wait never outnumber the
operations, 1024 at most, so the queue of 2048 never refuses one; and the operation a
completion names is there and not yet pending publication, so no pulse drops one as
stale. `Delivery.receipts` follows the jobs answered accepted from the writer to the
game thread.

A generation starts with no operation, and a job of an earlier one does not put its
completion in the queue.
-/

namespace Duris.Persistence

def WriterJob.receipt (job : WriterJob) : Nat × CriticalOperationId := (job.owner, job.identity)

def CriticalCompletion.receipt (completion : CriticalCompletion) : Nat × CriticalOperationId :=
  (completion.owner, completion.operationId)

namespace Coordinator

variable {operation : OperationState} {job : WriterJob}

/-- The jobs of this generation that the writer has not finished. -/
def current (s : Coordinator) : List WriterJob :=
  s.jobs.filter fun job => job.generation = s.generation

def pendingPublication (operations : List OperationState) : List OperationState :=
  operations.filter OperationState.publicationPending

/-- The operations that wait for the writer's answer, their job or a pulse. -/
def waiting (s : Coordinator) : List CriticalOperationId :=
  s.submitting.map WriterJob.identity ++ (s.current.map WriterJob.identity ++
    s.executionResults.map CriticalCompletion.operationId)

def tracked (s : Coordinator) : List CriticalOperationId :=
  s.waiting ++ (pendingPublication s.operations).map OperationState.identity

def receipts (s : Coordinator) : List (Nat × CriticalOperationId) :=
  s.current.map WriterJob.receipt ++ (s.executionResults.map CriticalCompletion.receipt ++
    s.delivered.map CriticalCompletion.receipt)

structure Delivery (s : Coordinator) : Prop where
  tracked : s.tracked.Perm (s.operations.map OperationState.identity)
  receipts : s.receipts.Perm (s.accepted.map WriterJob.receipt)
  owners : (s.accepted.map WriterJob.owner).Nodup
  numbered : ∀ job ∈ s.accepted, job.owner ≤ s.writerSequence
  submitted : ∀ job ∈ s.submitting, job.generation = s.generation
  past : ∀ job ∈ s.jobs, job.generation ≤ s.generation
  completions : ∀ completion ∈ s.executionResults ++ s.delivered,
    completion.generation = s.generation
  attempts : (∀ completion ∈ s.executionResults, completion.attempt = 1) ∧
    ∀ operation ∈ s.operations, operation.attempt = 1
  down : s.initialized = false → s.submitting = [] ∧ s.current = []

/-! ## Pending publications -/

theorem pendingPublication_erase (operations : List OperationState)
    (identity : CriticalOperationId) :
    pendingPublication (Keyed.erase OperationState.identity operations identity) =
      Keyed.erase OperationState.identity (pendingPublication operations) identity := by
  unfold pendingPublication Keyed.erase
  rw [List.filter_filter, List.filter_filter]
  exact List.filter_congr fun operation _ => Bool.and_comm _ _

variable {s : Coordinator} {index : Nat} {jobs : List WriterJob} {completion : CriticalCompletion}
  {rest : List CriticalCompletion}

theorem pendingPublication_hold (h : TableInv s) (hoperation : operation ∈ s.operations)
    (hidle : operation.publicationPending = false) (completion : CriticalCompletion) :
    ((pendingPublication (s.holdForPublication operation completion).operations).map
      OperationState.identity).Perm
      (operation.identity :: (pendingPublication s.operations).map OperationState.identity) := by
  let hold : OperationState → OperationState := fun other =>
    if other.identity = operation.identity then { other with publication := some completion }
    else other
  have hsplit := Keyed.perm_cons_erase h.unique hoperation
  have hrest : (Keyed.erase OperationState.identity s.operations operation.identity).map hold =
      Keyed.erase OperationState.identity s.operations operation.identity := by
    conv_rhs => rw [← List.map_id (Keyed.erase OperationState.identity s.operations _)]
    refine List.map_congr_left fun other hother => ?_
    exact if_neg (Keyed.mem_erase.mp hother).2
  have hhead : hold operation = { operation with publication := some completion } := if_pos rfl
  have hnew := (hsplit.map hold).filter OperationState.publicationPending
  have hold' := hsplit.filter OperationState.publicationPending
  rw [List.map_cons, hrest, hhead, List.filter_cons_of_pos rfl] at hnew
  rw [List.filter_cons_of_neg (by simp [hidle])] at hold'
  exact (hnew.map OperationState.identity).trans
    ((hold'.map OperationState.identity).symm.cons operation.identity)

theorem hold_identities (s : Coordinator) (operation : OperationState)
    (completion : CriticalCompletion) :
    (s.holdForPublication operation completion).operations.map OperationState.identity =
      s.operations.map OperationState.identity := by
  unfold holdForPublication
  rw [List.map_map]
  refine List.map_congr_left fun other _ => ?_
  rw [Function.comp_apply]
  split <;> rfl

/-! ## Consequences of the count -/

theorem Delivery.tracked_nodup (h : Delivery s) (htable : TableInv s) : s.tracked.Nodup :=
  h.tracked.nodup_iff.mpr htable.unique

theorem Delivery.results_length (h : Delivery s) (htable : TableInv s) :
    s.executionResults.length < criticalCoordinatorMaxResults := by
  have hlength := h.tracked.length_eq
  have hcount := htable.count
  simp only [Coordinator.tracked, waiting, List.length_append, List.length_map] at hlength
  simp only [criticalCoordinatorMaxOperations] at hcount
  simp only [criticalCoordinatorMaxResults]
  omega

/-- The operation of a waiting identity is in the table and not yet pending. -/
theorem Delivery.find_waiting (h : Delivery s) (htable : TableInv s)
    {identity : CriticalOperationId} (hwaiting : identity ∈ s.waiting) :
    ∃ operation, s.findOperation identity = some operation ∧ operation ∈ s.operations ∧
      operation.identity = identity ∧ operation.publicationPending = false := by
  have hmem : identity ∈ s.operations.map OperationState.identity :=
    h.tracked.subset (List.mem_append_left _ hwaiting)
  obtain ⟨operation, hoperation, rfl⟩ := List.mem_map.mp hmem
  refine ⟨operation, Keyed.lookup_of_mem htable.unique hoperation, hoperation, rfl, ?_⟩
  by_contra hpending
  rw [Bool.not_eq_false] at hpending
  have htwice : operation.identity ∈
      (pendingPublication s.operations).map OperationState.identity :=
    List.mem_map_of_mem (List.mem_filter.mpr ⟨hoperation, hpending⟩)
  have hnodup := h.tracked_nodup htable
  rw [Coordinator.tracked, List.nodup_append] at hnodup
  exact hnodup.2.2 _ hwaiting _ htwice rfl

theorem pendingPublication_erase_idle (htable : TableInv s)
    (hoperation : operation ∈ s.operations) (hidle : operation.publicationPending = false) :
    pendingPublication (Keyed.erase OperationState.identity s.operations operation.identity) =
      pendingPublication s.operations := by
  rw [pendingPublication_erase]
  refine Keyed.erase_of_absent fun other hother heq => ?_
  obtain ⟨hmem, hpending⟩ := List.mem_filter.mp hother
  rw [Keyed.eq_of_key_eq htable.unique hmem hoperation heq, hidle] at hpending
  cases hpending

/-! ## Submissions -/

theorem Delivery.attach (h : Delivery s) (identity : CriticalOperationId) :
    Delivery { s with operations := s.operations.map fun operation =>
      if operation.identity = identity then
        { operation with attachments := operation.attachments + 1 }
      else operation } := by
  let attach : OperationState → OperationState := fun operation =>
    if operation.identity = identity then
      { operation with attachments := operation.attachments + 1 }
    else operation
  have hidentity : ∀ operation, (attach operation).identity = operation.identity := by
    intro operation
    simp only [attach]
    split <;> rfl
  have hpending : ∀ operation, (attach operation).publicationPending =
      operation.publicationPending := by
    intro operation
    simp only [attach]
    split <;> rfl
  have hattempt : ∀ operation, (attach operation).attempt = operation.attempt := by
    intro operation
    simp only [attach]
    split <;> rfl
  have hids : (s.operations.map attach).map OperationState.identity =
      s.operations.map OperationState.identity := by
    rw [List.map_map]
    exact List.map_congr_left fun operation _ => hidentity operation
  have hpendings : (pendingPublication (s.operations.map attach)).map OperationState.identity =
      (pendingPublication s.operations).map OperationState.identity := by
    unfold pendingPublication
    rw [List.filter_map, List.map_map, show OperationState.publicationPending ∘ attach =
      OperationState.publicationPending from funext hpending]
    exact List.map_congr_left fun operation _ => hidentity operation
  refine ⟨?_, h.receipts, h.owners, h.numbered, h.submitted, h.past, h.completions,
    ⟨h.attempts.1, ?_⟩, h.down⟩
  · show (s.waiting ++ (pendingPublication (s.operations.map attach)).map
      OperationState.identity).Perm ((s.operations.map attach).map OperationState.identity)
    rw [hids, hpendings]
    exact h.tracked
  · intro operation hoperation
    obtain ⟨old, hold, rfl⟩ := List.mem_map.mp hoperation
    rw [hattempt]
    exact h.attempts.2 old hold

theorem Delivery.reserve (h : Delivery s) (hup : s.initialized = true) (command : CriticalCommand)
    (size : Nat) (retainUntilPublication : Bool) :
    Delivery (s.reserveLocked command size retainUntilPublication) := by
  have hpending : pendingPublication (s.reserveLocked command size
      retainUntilPublication).operations = pendingPublication s.operations := by
    simp [pendingPublication, reserveLocked, Coordinator.updateDepth,
      OperationState.publicationPending]
  have hsubmitting : (s.reserveLocked command size retainUntilPublication).submitting.map
      WriterJob.identity = s.submitting.map WriterJob.identity ++ [command.operationId] :=
    List.map_append
  have hoperations : (s.reserveLocked command size retainUntilPublication).operations.map
      OperationState.identity =
        s.operations.map OperationState.identity ++ [command.operationId] := List.map_append
  refine ⟨?_, h.receipts, h.owners, h.numbered, ?_, h.past, h.completions,
    ⟨h.attempts.1, ?_⟩, ?_⟩
  · rw [Coordinator.tracked, waiting, hpending, hsubmitting, hoperations]
    refine List.Perm.trans ?_ (h.tracked.append_right _)
    rw [List.perm_iff_count]
    intro t
    simp only [Coordinator.tracked, waiting, List.count_append]
    have hcurrent : (s.reserveLocked command size retainUntilPublication).current = s.current := rfl
    have hresults : (s.reserveLocked command size retainUntilPublication).executionResults =
      s.executionResults := rfl
    rw [hcurrent, hresults]
    omega
  · intro job hjob
    simp only [reserveLocked, updateDepth, List.mem_append, List.mem_singleton] at hjob
    rcases hjob with hjob | rfl
    · exact h.submitted job hjob
    · rfl
  · intro operation hoperation
    simp only [reserveLocked, updateDepth, List.mem_append, List.mem_singleton] at hoperation
    rcases hoperation with hoperation | rfl
    · exact h.attempts.2 operation hoperation
    · rfl
  · intro hdown
    rw [show (s.reserveLocked command size retainUntilPublication).initialized = s.initialized
      from rfl, hup] at hdown
    cases hdown

theorem submitCommand_delivery (h : Delivery s) (command : CriticalCommand)
    (retainUntilPublication : Bool) (now : BitVec 64) :
    Delivery (s.submitCommand command retainUntilPublication now).2 := by
  unfold submitCommand
  split
  · exact h
  next normalized hnormalized =>
  split
  · exact h
  next hup =>
  simp only [not_or, Bool.not_eq_false] at hup
  split
  · split <;> exact h
  split
  · split
    · exact h.attach normalized.operationId
    · exact h
  · split
    · exact h
    · split
      · exact h
      · exact h.reserve hup.1 normalized _ retainUntilPublication

theorem submitting_perm (hjob : s.submitting[index]? = some job) :
    s.submitting.Perm (job :: s.submitting.eraseIdx index) := by
  obtain ⟨hindex, hget⟩ := List.getElem?_eq_some_iff.mp hjob
  rw [← hget]
  exact (List.getElem_cons_eraseIdx_perm hindex).symm

section

variable (h : Delivery s)

include h

theorem Delivery.accept (hjob : s.submitting[index]? = some job) :
    Delivery { s with
      submitting := s.submitting.eraseIdx index
      writerSequence := s.writerSequence + 1
      jobs := s.jobs ++ [{ job with owner := s.writerSequence + 1 }]
      accepted := s.accepted ++ [{ job with owner := s.writerSequence + 1 }] } := by
  have hmoved := submitting_perm hjob
  have hgeneration : job.generation = s.generation :=
    h.submitted job (List.mem_of_getElem? hjob)
  have hcurrent : ((s.jobs ++ [{ job with owner := s.writerSequence + 1 }]).filter
      fun job => job.generation = s.generation) =
        s.current ++ [{ job with owner := s.writerSequence + 1 }] := by
    rw [List.filter_append, List.filter_cons_of_pos (by simpa using hgeneration)]
    rfl
  refine ⟨?_, ?_, ?_, ?_, ?_, ?_, h.completions, h.attempts, ?_⟩
  · refine List.Perm.trans ?_ h.tracked
    simp only [Coordinator.tracked, waiting, current]
    rw [hcurrent]
    refine List.Perm.append_right _ ?_
    rw [List.perm_iff_count]
    intro t
    have hcount := (hmoved.map WriterJob.identity).count_eq t
    simp only [List.map_append, List.map_cons, List.map_nil, List.count_append,
      List.count_cons, WriterJob.identity, List.count_nil, current] at hcount ⊢
    omega
  · have hreceipts := h.receipts.append_right
      [WriterJob.receipt { job with owner := s.writerSequence + 1 }]
    have haccepted : (s.accepted ++ [{ job with owner := s.writerSequence + 1 }]).map
        WriterJob.receipt = s.accepted.map WriterJob.receipt ++
          [WriterJob.receipt { job with owner := s.writerSequence + 1 }] := List.map_append
    simp only [Coordinator.receipts, current]
    rw [hcurrent, haccepted]
    refine List.Perm.trans ?_ hreceipts
    rw [List.perm_iff_count]
    intro t
    simp only [Coordinator.receipts, List.map_append, List.map_cons, List.map_nil,
      List.count_append]
    omega
  · rw [List.map_append, List.map_cons, List.map_nil, List.nodup_append]
    refine ⟨h.owners, List.nodup_singleton _, ?_⟩
    intro a ha b hb
    obtain ⟨old, hold, rfl⟩ := List.mem_map.mp ha
    have := h.numbered old hold
    rw [List.mem_singleton.mp hb]
    exact Nat.ne_of_lt (Nat.lt_succ_of_le this)
  · intro other hother
    rcases List.mem_append.mp hother with hother | hother
    · exact Nat.le_succ_of_le (h.numbered other hother)
    · rw [List.mem_singleton.mp hother]
  · exact fun other hother => h.submitted other (List.mem_of_mem_eraseIdx hother)
  · intro other hother
    rcases List.mem_append.mp hother with hother | hother
    · exact h.past other hother
    · rw [List.mem_singleton.mp hother]
      exact Nat.le_of_eq hgeneration
  · intro hdown
    rw [(h.down hdown).1] at hmoved
    exact absurd hmoved.length_eq (by simp)

theorem Delivery.withdraw (htable : TableInv s)
    (hjob : s.submitting[index]? = some job)
    (hfound : s.findOperation job.identity = some operation) :
    Delivery { s with
      submitting := s.submitting.eraseIdx index
      writerSequence := s.writerSequence + 1
      fences := removeFences s.fences operation.identity operation.command
      operations := Keyed.erase OperationState.identity s.operations operation.identity } := by
  have hmoved := submitting_perm hjob
  have hwaiting : job.identity ∈ s.waiting :=
    List.mem_append_left _ (List.mem_map_of_mem (List.mem_of_getElem? hjob))
  obtain ⟨found, hfound', hmem, hidentity, hidle⟩ := h.find_waiting htable hwaiting
  rw [hfound, Option.some.injEq] at hfound'
  subst hfound'
  refine ⟨?_, h.receipts, h.owners, ?_, ?_, h.past, h.completions, ⟨h.attempts.1, ?_⟩, ?_⟩
  · refine Keyed.perm_map_erase htable.unique (List.Perm.trans ?_ h.tracked)
    simp only [Coordinator.tracked]
    rw [pendingPublication_erase_idle htable hmem hidle, hidentity, ← List.cons_append]
    refine List.Perm.append_right _ ?_
    exact ((hmoved.map WriterJob.identity).append_right _).symm
  · exact fun other hother => Nat.le_succ_of_le (h.numbered other hother)
  · exact fun other hother => h.submitted other (List.mem_of_mem_eraseIdx hother)
  · exact fun other hother => h.attempts.2 other (Keyed.mem_erase.mp hother).1
  · intro hdown
    rw [(h.down hdown).1] at hmoved
    exact absurd hmoved.length_eq (by simp)

theorem Delivery.flags (retainedBytes : Nat) (accepting : Bool) :
    Delivery { s with retainedBytes, accepting } :=
  ⟨h.tracked, h.receipts, h.owners, h.numbered, h.submitted, h.past, h.completions, h.attempts,
    h.down⟩

theorem Delivery.updateDepth : Delivery s.updateDepth :=
  h.flags _ s.accepting

theorem queueOnWriter_delivery (htable : TableInv s) (index : Nat)
    (accepts : Bool) : Delivery (s.queueOnWriter index accepts).2 := by
  unfold queueOnWriter
  split
  · exact h
  next job hjob =>
  dsimp only
  split
  · exact h.accept hjob
  · split
    · next operation hfound => exact (h.withdraw htable hjob hfound).updateDepth
    · next hmissing =>
        have hwaiting : job.identity ∈ s.waiting :=
          List.mem_append_left _ (List.mem_map_of_mem (List.mem_of_getElem? hjob))
        obtain ⟨found, hfound, -⟩ := h.find_waiting htable hwaiting
        rw [show s.findOperation job.identity = none from hmissing] at hfound
        cases hfound

/-! ## Execution -/

theorem Delivery.discard (hjobs : s.jobs = job :: jobs)
    (hother : job.generation ≠ s.generation) : Delivery { s with jobs } := by
  have hcurrent : ({ s with jobs } : Coordinator).current = s.current := by
    unfold current
    rw [hjobs, List.filter_cons_of_neg (by simpa using hother)]
  refine ⟨?_, ?_, h.owners, h.numbered, h.submitted, ?_, h.completions, h.attempts, ?_⟩
  · rw [Coordinator.tracked, waiting, hcurrent]
    exact h.tracked
  · rw [Coordinator.receipts, hcurrent]
    exact h.receipts
  · exact fun other hmem => h.past other (hjobs ▸ List.mem_cons_of_mem job hmem)
  · rw [hcurrent]
    exact h.down

/-- A job of this generation leaves the writer and its completion waits for a pulse. -/
theorem Delivery.finish (hjobs : s.jobs = job :: jobs)
    (hgeneration : job.generation = s.generation) (applied : CriticalApplyResult) :
    Delivery { s with
      jobs
      executionResults := s.executionResults ++ [completionOf job applied] } := by
  have hcurrent : s.current = job :: ({ s with
      jobs
      executionResults := s.executionResults ++ [completionOf job applied] } :
        Coordinator).current := by
    unfold current
    rw [hjobs, List.filter_cons_of_pos (by simpa using hgeneration)]
  refine ⟨?_, ?_, h.owners, h.numbered, h.submitted, ?_, ?_, ⟨?_, h.attempts.2⟩, ?_⟩
  · refine List.Perm.trans ?_ h.tracked
    rw [Coordinator.tracked, Coordinator.tracked, waiting, waiting, hcurrent]
    refine List.Perm.append_right _ ?_
    rw [List.perm_iff_count]
    intro t
    simp only [List.map_append, List.map_cons, List.map_nil, List.count_append,
      List.count_cons, List.count_nil, completionOf, WriterJob.identity]
    omega
  · refine List.Perm.trans ?_ h.receipts
    rw [Coordinator.receipts, Coordinator.receipts, hcurrent, List.perm_iff_count]
    intro t
    simp only [List.map_append, List.map_cons, List.map_nil, List.count_append,
      List.count_cons, List.count_nil, completionOf, WriterJob.receipt,
      CriticalCompletion.receipt, WriterJob.identity]
    omega
  · exact fun other hmem => h.past other (hjobs ▸ List.mem_cons_of_mem job hmem)
  · intro completion hcompletion
    simp only [List.mem_append, List.mem_singleton] at hcompletion
    rcases hcompletion with (hcompletion | rfl) | hcompletion
    · exact h.completions completion (List.mem_append_left _ hcompletion)
    · exact hgeneration
    · exact h.completions completion (List.mem_append_right _ hcompletion)
  · intro completion hcompletion
    simp only [List.mem_append, List.mem_singleton] at hcompletion
    rcases hcompletion with hcompletion | rfl
    · exact h.attempts.1 completion hcompletion
    · rfl
  · intro hdown
    rw [(h.down hdown).2] at hcurrent
    cases hcurrent

/-- A final outcome takes the head off the writer, and the delivery queue never
refuses it. -/
theorem execute_final (htable : TableInv s) (hjobs : s.jobs = job :: jobs)
    {applied : CriticalApplyResult} (hfinal : applied.outcome.tryAgain = false) :
    s.execute applied = { s with
      jobs
      executionResults := if job.generation = s.generation then
          s.executionResults ++ [completionOf job applied]
        else s.executionResults } := by
  unfold execute
  rw [hjobs]
  dsimp only
  rw [if_neg (by simp [hfinal])]
  by_cases hgeneration : job.generation = s.generation
  · have hup : s.initialized = true := by
      by_contra hdown
      rw [Bool.not_eq_true] at hdown
      have hmem : job ∈ s.current :=
        List.mem_filter.mpr ⟨hjobs ▸ List.mem_cons_self, by simpa using hgeneration⟩
      rw [(h.down hdown).2] at hmem
      cases hmem
    have hroom := h.results_length htable
    rw [if_pos ⟨hup, hgeneration⟩, if_pos hgeneration, tryEnqueue, if_pos hroom]
  · rw [if_neg fun hboth => hgeneration hboth.2, if_neg hgeneration]

theorem execute_delivery (htable : TableInv s) (applied : CriticalApplyResult) :
    Delivery (s.execute applied) := by
  cases hjobs : s.jobs with
  | nil =>
      rw [execute, hjobs]
      exact h
  | cons job jobs =>
      cases hagain : applied.outcome.tryAgain with
      | true =>
          rw [execute, hjobs]
          dsimp only
          rw [if_pos hagain]
          exact h
      | false =>
          rw [execute_final h htable hjobs hagain]
          split
          · next hgeneration => exact h.finish hjobs hgeneration applied
          · next hother => exact h.discard hjobs hother

/-! ## Pulses -/

theorem Delivery.front_completions (hresults : s.executionResults = completion :: rest) :
    ∀ other ∈ rest ++ (s.delivered ++ [completion]), other.generation = s.generation := by
  intro other hother
  simp only [List.mem_append, List.mem_singleton] at hother
  refine h.completions other ?_
  rw [hresults, List.mem_append, List.mem_cons]
  rcases hother with hother | hother | hother
  · exact .inl (.inr hother)
  · exact .inr hother
  · exact .inl (.inl hother)

theorem Delivery.hold (htable : TableInv s)
    (hresults : s.executionResults = completion :: rest) (hoperation : operation ∈ s.operations)
    (hidentity : operation.identity = completion.operationId)
    (hidle : operation.publicationPending = false) :
    Delivery (holdForPublication { s with
      executionResults := rest
      delivered := s.delivered ++ [completion] } operation completion) := by
  have hpending := pendingPublication_hold htable hoperation hidle completion
  have hids := hold_identities s operation completion
  let held := holdForPublication { s with
    executionResults := rest
    delivered := s.delivered ++ [completion] } operation completion
  have hcurrent : held.current = s.current := rfl
  refine ⟨?_, ?_, h.owners, h.numbered, h.submitted, h.past, ?_, ⟨?_, ?_⟩, h.down⟩
  · refine List.Perm.trans ?_ (h.tracked.trans (List.Perm.of_eq hids.symm))
    rw [Coordinator.tracked, Coordinator.tracked, waiting, waiting, hcurrent, hresults,
      List.perm_iff_count]
    intro t
    have hcount := hpending.count_eq t
    rw [List.count_cons, hidentity] at hcount
    simp only [List.map_cons, List.count_append, List.count_cons]
    simp only [holdForPublication] at hcount ⊢
    omega
  · refine List.Perm.trans ?_ h.receipts
    rw [Coordinator.receipts, Coordinator.receipts, hcurrent, hresults, List.perm_iff_count]
    intro t
    simp only [List.map_cons, List.map_append, List.map_nil, List.count_append,
      List.count_cons, List.count_nil, holdForPublication]
    omega
  · exact h.front_completions hresults
  · exact fun other hother => h.attempts.1 other (hresults ▸ List.mem_cons_of_mem _ hother)
  · intro other hother
    obtain ⟨old, hold, rfl⟩ := List.mem_map.mp hother
    have := h.attempts.2 old hold
    split <;> exact this

theorem Delivery.complete (htable : TableInv s)
    (hresults : s.executionResults = completion :: rest) (hoperation : operation ∈ s.operations)
    (hidentity : operation.identity = completion.operationId)
    (hidle : operation.publicationPending = false) {s' : Coordinator}
    (hs' : s' = { s with
      executionResults := rest
      delivered := s.delivered ++ [completion]
      fences := s'.fences
      completedCache := s'.completedCache
      completedOrder := s'.completedOrder
      completedCacheBytes := s'.completedCacheBytes
      operations := Keyed.erase OperationState.identity s.operations operation.identity }) :
    Delivery s' := by
  rw [hs']
  refine ⟨?_, ?_, h.owners, h.numbered, h.submitted, h.past, ?_, ⟨?_, ?_⟩, h.down⟩
  · refine Keyed.perm_map_erase htable.unique (List.Perm.trans ?_ h.tracked)
    simp only [Coordinator.tracked]
    rw [pendingPublication_erase_idle htable hoperation hidle, ← List.cons_append]
    refine List.Perm.append_right _ ?_
    rw [List.perm_iff_count]
    intro t
    simp only [waiting, hresults, hidentity, List.map_cons, List.count_append, List.count_cons,
      current]
    omega
  · refine List.Perm.trans ?_ h.receipts
    rw [List.perm_iff_count]
    intro t
    simp only [Coordinator.receipts, hresults, List.map_cons, List.map_append, List.map_nil,
      List.count_append, List.count_cons, List.count_nil, current]
    omega
  · exact h.front_completions hresults
  · exact fun other hother => h.attempts.1 other (hresults ▸ List.mem_cons_of_mem _ hother)
  · exact fun other hother => h.attempts.2 other (Keyed.mem_erase.mp hother).1

end

theorem complete_rest (s : Coordinator) (operation : OperationState)
    (completion : CriticalCompletion) :
    (s.rememberCompleted operation.command completion).eraseOperation operation =
      { s with
        fences := ((s.rememberCompleted operation.command completion).eraseOperation
          operation).fences
        completedCache := ((s.rememberCompleted operation.command completion).eraseOperation
          operation).completedCache
        completedOrder := ((s.rememberCompleted operation.command completion).eraseOperation
          operation).completedOrder
        completedCacheBytes := ((s.rememberCompleted operation.command
          completion).eraseOperation operation).completedCacheBytes
        operations := Keyed.erase OperationState.identity s.operations operation.identity } := by
  unfold eraseOperation
  rw [rememberCompleted_rest]

/-- Handing out: every waiting completion finds its operation, within the capacity. -/
theorem publish_delivery (results : List CriticalCompletion) :
    ∀ (capacity : Nat) {s : Coordinator}, TableInv s → Delivery s →
      s.executionResults = results → Delivery (publish results capacity s).2 := by
  induction results with
  | nil => intro capacity s _ h _; exact h
  | cons completion rest ih =>
      intro capacity s htable h hresults
      cases capacity with
      | zero => exact h
      | succ capacity =>
          have hmem : completion ∈ s.executionResults := by simp [hresults]
          have hwaiting : completion.operationId ∈ s.waiting :=
            List.mem_append_right _ (List.mem_append_right _ (List.mem_map_of_mem hmem))
          obtain ⟨operation, hfound, hoperation, hidentity, hidle⟩ :=
            h.find_waiting htable hwaiting
          have hattempt : operation.attempt = completion.attempt :=
            (h.attempts.2 operation hoperation).trans (h.attempts.1 completion hmem).symm
          have hfound' : findOperation { s with executionResults := rest }
              completion.operationId = some operation := hfound
          have hlogged : TableInv { s with
              executionResults := rest
              delivered := s.delivered ++ [completion] } := htable.same rfl rfl rfl rfl rfl
          unfold publish
          dsimp only
          rw [hfound']
          dsimp only
          rw [if_neg (by simp [hattempt, hidle])]
          split
          · exact ih capacity (hlogged.hold operation completion)
              (h.hold htable hresults hoperation hidentity hidle) rfl
          · have hrest := complete_rest { s with
              executionResults := rest
              delivered := s.delivered ++ [completion] } operation completion
            refine ih capacity (hlogged.complete hoperation completion)
              (h.complete htable hresults hoperation hidentity hidle hrest) ?_
            rw [hrest]

theorem acknowledgePublication_delivery (h : Delivery s) (htable : TableInv s)
    (identity : CriticalOperationId) : Delivery (s.acknowledgePublication identity).2 := by
  unfold acknowledgePublication
  split
  · exact h
  next operation hfound =>
  split
  · exact h
  next completion hpublication =>
  obtain ⟨hoperation, -⟩ := Keyed.mem_of_lookup hfound
  have hpending : operation ∈ pendingPublication s.operations :=
    List.mem_filter.mpr ⟨hoperation, by simp [OperationState.publicationPending, hpublication]⟩
  have hunique : ((pendingPublication s.operations).map OperationState.identity).Nodup :=
    htable.unique.sublist (List.Sublist.map _ List.filter_sublist)
  have hsplit := (Keyed.perm_cons_erase hunique hpending).map OperationState.identity
  refine Delivery.updateDepth ?_
  rw [complete_rest s operation completion]
  refine ⟨?_, h.receipts, h.owners, h.numbered, h.submitted, h.past, h.completions,
    ⟨h.attempts.1, ?_⟩, h.down⟩
  · refine Keyed.perm_map_erase htable.unique (List.Perm.trans ?_ h.tracked)
    rw [List.perm_iff_count]
    intro t
    have hcount := hsplit.count_eq t
    rw [List.map_cons, List.count_cons] at hcount
    simp only [Coordinator.tracked, pendingPublication_erase, List.count_append,
      List.count_cons, waiting, current]
    omega
  · exact fun other hother => h.attempts.2 other (Keyed.mem_erase.mp hother).1

/-! ## Runs -/

theorem cleared_current (h : Delivery s) : s.cleared.current = [] := by
  refine List.filter_eq_nil_iff.mpr fun job hjob => ?_
  have hpast := h.past job hjob
  have hgeneration : s.cleared.generation = s.generation + 1 := rfl
  rw [decide_eq_true_eq, hgeneration]
  omega

theorem cleared_delivery (h : Delivery s) : Delivery s.cleared := by
  have hcurrent := cleared_current h
  refine ⟨?_, ?_, List.nodup_nil, by simp [cleared], by simp [cleared], ?_, by simp [cleared],
    by simp [cleared], fun _ => ⟨rfl, hcurrent⟩⟩
  · rw [Coordinator.tracked, waiting, hcurrent]
    exact List.Perm.refl _
  · rw [Coordinator.receipts, hcurrent]
    exact List.Perm.refl _
  · exact fun job hjob => Nat.le_succ_of_le (h.past job hjob)

theorem step_delivery (s : Coordinator) (e : Event) (hinv : Inv s) (h : Delivery s) :
    Delivery (s.step e) := by
  cases e with
  | init =>
      simp only [step, init]
      split
      · exact h
      · have hcleared := cleared_delivery h
        exact ⟨hcleared.tracked, hcleared.receipts, hcleared.owners, hcleared.numbered,
          hcleared.submitted, hcleared.past, hcleared.completions, hcleared.attempts,
          by rintro ⟨⟩⟩
  | shutdown =>
      simp only [step, shutdown]
      split
      · exact h
      · exact cleared_delivery h
  | submit command retainUntilPublication now =>
      exact submitCommand_delivery h command retainUntilPublication now
  | queueOnWriter index accepts => exact queueOnWriter_delivery h hinv.table index accepts
  | execute applied => exact execute_delivery h hinv.table applied
  | pulse capacity =>
      exact (publish_delivery s.executionResults capacity hinv.table h rfl).updateDepth
  | acknowledgePublication identity => exact acknowledgePublication_delivery h hinv.table identity
  | quiesce => exact h.flags s.retainedBytes false
  | resume =>
      simp only [step, resume]
      split
      · exact h.flags s.retainedBytes true
      · exact h

theorem delivery_initial : Delivery {} :=
  ⟨List.Perm.refl _, List.Perm.refl _, List.nodup_nil, by simp, by simp, by simp, by simp,
    by simp, fun _ => ⟨rfl, rfl⟩⟩

theorem step_delivered (s : Coordinator) (e : Event) (h : Inv s ∧ Delivery s) :
    Inv (s.step e) ∧ Delivery (s.step e) :=
  ⟨step_inv s e h.1, step_delivery s e h.1 h.2⟩

theorem run_delivery (events : List Event) :
    Inv (run step {} events) ∧ Delivery (run step {} events) :=
  run_invariant step_delivered events ⟨inv_initial, delivery_initial⟩

end Coordinator

end Duris.Persistence
