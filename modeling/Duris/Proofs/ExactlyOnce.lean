import Duris.Proofs.CoordinatorDelivery

/-!
# Exactly once, and what a resubmission is answered

`Delivery` puts every accepted job in one of three places. Only two steps move it on,
the writer's final outcome and a pulse, and neither can fail to: a final outcome takes
the head off the writer and its completion into the queue, and a pulse with room for
all of them hands them all out. So from any reachable state the jobs there are end as
many deliveries, however often the writer tries each.

A resubmission meets the stored command in the cache or in the table, never in both.
It is compared after `critical_command_normalize`, and with the stored acceptance time
when it brings none, so what counts as the same command is wider than equality of the
fields: keys in another order and a zero acceptance time still attach.
-/

namespace Duris.Persistence.Coordinator

theorem execute_accepted (s : Coordinator) (applied : CriticalApplyResult) :
    (s.execute applied).accepted = s.accepted := by
  unfold execute
  split
  · rfl
  · split
    · rfl
    · split
      · unfold tryEnqueue
        split <;> rfl
      · rfl

variable {s : Coordinator}

theorem execute_jobs (h : Delivery s) (htable : TableInv s) (applied : CriticalApplyResult) :
    (s.execute applied).jobs = if applied.outcome.tryAgain then s.jobs else s.jobs.tail := by
  cases hjobs : s.jobs with
  | nil => simp [execute, hjobs]
  | cons job jobs =>
      split
      · next hagain =>
          rw [execute, hjobs]
          dsimp only
          rw [if_pos hagain, hjobs]
      · next hfinal =>
          rw [execute_final h htable hjobs (Bool.not_eq_true _ ▸ hfinal)]
          rfl

/-- As many final outcomes as there are jobs empty the writer, with any number of
other attempts between them. -/
theorem executes_drain (outcomes : List CriticalApplyResult) :
    ∀ {s : Coordinator}, Inv s ∧ Delivery s →
      s.jobs.length ≤ outcomes.countP (fun applied => !applied.outcome.tryAgain) →
      (run step s (outcomes.map Event.execute)).jobs = [] ∧
        (run step s (outcomes.map Event.execute)).accepted = s.accepted := by
  induction outcomes with
  | nil =>
      intro s _ hlength
      exact ⟨List.length_eq_zero_iff.mp (Nat.le_zero.mp hlength), rfl⟩
  | cons applied outcomes ih =>
      intro s h hlength
      have hjobs := execute_jobs h.2 h.1.table applied
      rw [List.countP_cons] at hlength
      rw [List.map_cons, run_cons]
      obtain ⟨hempty, haccepted⟩ := ih (step_delivered s (.execute applied) h) (by
        show (s.execute applied).jobs.length ≤ _
        rw [hjobs]
        split
        · next hagain => simpa [hagain] using hlength
        · next hfinal =>
            simp only [hfinal, List.length_tail, Bool.not_false, if_true] at hlength ⊢
            omega)
      exact ⟨hempty, haccepted.trans (execute_accepted s applied)⟩

theorem publish_delivered (results : List CriticalCompletion) :
    ∀ (capacity : Nat) (s : Coordinator),
      (publish results capacity s).2.delivered = s.delivered ++ (publish results capacity s).1 ∧
        (publish results capacity s).2.accepted = s.accepted ∧
        (publish results capacity s).2.jobs = s.jobs := by
  induction results with
  | nil => intro capacity s; simp [publish]
  | cons completion rest ih =>
      intro capacity s
      cases capacity with
      | zero => simp [publish]
      | succ capacity =>
          unfold publish
          dsimp only
          split
          · exact ih (capacity + 1) { s with executionResults := rest }
          · split
            · exact ih (capacity + 1) { s with executionResults := rest }
            · next operation _ _ =>
              split
              · obtain ⟨hdelivered, hrest⟩ := ih capacity (holdForPublication { s with
                  executionResults := rest
                  delivered := s.delivered ++ [completion] } operation completion)
                refine ⟨hdelivered.trans ?_, hrest⟩
                exact List.append_assoc ..
              · have hcomplete := complete_rest { s with
                  executionResults := rest
                  delivered := s.delivered ++ [completion] } operation completion
                rw [hcomplete]
                obtain ⟨hdelivered, hrest⟩ := ih capacity _
                refine ⟨hdelivered.trans ?_, hrest⟩
                exact List.append_assoc ..

theorem publish_sublist (results : List CriticalCompletion) :
    ∀ (capacity : Nat) (s : Coordinator), (publish results capacity s).1.Sublist results := by
  induction results with
  | nil => intro capacity s; simp [publish]
  | cons completion rest ih =>
      intro capacity s
      cases capacity with
      | zero => simp [publish]
      | succ capacity =>
          unfold publish
          dsimp only
          split
          · exact (ih _ _).cons completion
          · split
            · exact (ih _ _).cons completion
            · exact (ih _ _).cons_cons completion

theorem publish_empties (results : List CriticalCompletion) :
    ∀ (capacity : Nat) {s : Coordinator}, results.length ≤ capacity →
      s.executionResults = results → (publish results capacity s).2.executionResults = [] := by
  induction results with
  | nil => intro capacity s _ hresults; exact hresults
  | cons completion rest ih =>
      intro capacity s hlength hresults
      rw [List.length_cons] at hlength
      cases capacity with
      | zero => omega
      | succ capacity =>
          unfold publish
          dsimp only
          split
          · exact ih _ (by omega) rfl
          · split
            · exact ih _ (by omega) rfl
            · split
              · exact ih _ (by omega) rfl
              · refine ih _ (by omega) ?_
                rw [complete_rest]

/-- When the writer has finished and a pulse has room, every accepted job is delivered. -/
theorem drain_delivers (h : Inv s ∧ Delivery s) (outcomes : List CriticalApplyResult)
    (hfinal : s.jobs.length ≤ outcomes.countP (fun applied => !applied.outcome.tryAgain)) :
    ((run step s (outcomes.map Event.execute ++
      [.pulse criticalCoordinatorMaxResults])).delivered.map CriticalCompletion.receipt).Perm
      (s.accepted.map WriterJob.receipt) := by
  obtain ⟨hempty, haccepted⟩ := executes_drain outcomes h hfinal
  have hworked := run_invariant step_delivered (outcomes.map Event.execute) h
  rw [run_append, ← haccepted]
  generalize run step s (outcomes.map Event.execute) = worked at hempty hworked ⊢
  have hpulsed := (step_delivered worked (.pulse criticalCoordinatorMaxResults) hworked).2
  obtain ⟨-, hsame, hjobs⟩ := publish_delivered worked.executionResults
    criticalCoordinatorMaxResults worked
  have hnone := publish_empties worked.executionResults criticalCoordinatorMaxResults
    (Nat.le_of_lt (hworked.2.results_length hworked.1.table)) rfl
  have hreceipts := hpulsed.receipts
  have hcurrent : (worked.step (.pulse criticalCoordinatorMaxResults)).current = [] := by
    refine List.filter_eq_nil_iff.mpr fun job hjob => ?_
    rw [show (worked.step (.pulse criticalCoordinatorMaxResults)).jobs = worked.jobs from hjobs,
      hempty] at hjob
    cases hjob
  rw [Coordinator.receipts, hcurrent,
    show (worked.step (.pulse criticalCoordinatorMaxResults)).executionResults = [] from hnone,
    show (worked.step (.pulse criticalCoordinatorMaxResults)).accepted = worked.accepted
      from hsame] at hreceipts
  exact hreceipts

/-- The same command brought again is the stored one, whatever the clock says. -/
theorem restamped_same {command stored normalized : CriticalCommand} {before now : BitVec 64}
    (hstored : criticalCommandNormalize (stamped command before) = some stored)
    (hnormalized : criticalCommandNormalize (stamped command now) = some normalized) :
    restamped command normalized stored = stored := by
  obtain ⟨-, rfl⟩ := criticalCommandNormalize_eq_some hstored
  obtain ⟨-, rfl⟩ := criticalCommandNormalize_eq_some hnormalized
  unfold restamped stamped
  split <;> rfl

/-- A stored command answers for its identity, and nothing reaches the writer. -/
theorem submitCommand_stored (htable : TableInv s) (hup : s.initialized = true ∧ s.accepting = true)
    {command normalized stored : CriticalCommand} {now : BitVec 64}
    (hnormalized : criticalCommandNormalize (stamped command now) = some normalized)
    (hstored : (∃ operation ∈ s.operations, operation.command = stored) ∨
      ∃ completed ∈ s.completedCache, completed.command = stored)
    (hidentity : stored.operationId = normalized.operationId) (retainUntilPublication : Bool) :
    (s.submitCommand command retainUntilPublication now).1 =
        some (if restamped command normalized stored = stored then .attached
          else .identityConflict) ∧
      (s.submitCommand command retainUntilPublication now).2.jobs = s.jobs ∧
      (s.submitCommand command retainUntilPublication now).2.submitting = s.submitting := by
  have hequal : criticalCommandValid stored = true →
      (criticalCommandEqual stored (restamped command normalized stored) = true ↔
        restamped command normalized stored = stored) := by
    intro hvalid
    rw [criticalCommandEqual_iff]
    exact ⟨fun h => h.2.symm, fun h => ⟨hvalid, h.symm⟩⟩
  unfold submitCommand
  rw [hnormalized]
  dsimp only
  rw [if_neg (by simp [hup])]
  rcases hstored with ⟨operation, hoperation, rfl⟩ | ⟨completed, hcompleted, rfl⟩
  · have habsent : s.findCompleted normalized.operationId = none := by
      refine Keyed.lookup_eq_none.mpr fun completed hcompleted heq => ?_
      exact htable.disjoint operation hoperation completed hcompleted
        (hidentity.trans heq.symm)
    have hfound : s.findOperation normalized.operationId = some operation :=
      hidentity ▸ Keyed.lookup_of_mem htable.unique hoperation
    rw [habsent, hfound]
    dsimp only
    split
    · next hsame =>
        rw [if_pos ((hequal (htable.valid operation hoperation)).mp hsame)]
        exact ⟨rfl, rfl, rfl⟩
    · next hother =>
        rw [if_neg fun h => hother ((hequal (htable.valid operation hoperation)).mpr h)]
        exact ⟨rfl, rfl, rfl⟩
  · have hfound : s.findCompleted normalized.operationId = some completed :=
      hidentity ▸ Keyed.lookup_of_mem htable.cache.unique hcompleted
    have hvalid := (htable.cache.sizes completed hcompleted).1
    rw [hfound]
    dsimp only
    split
    · next hsame =>
        rw [if_pos ((hequal hvalid).mp hsame)]
        exact ⟨rfl, rfl, rfl⟩
    · next hother =>
        rw [if_neg fun h => hother ((hequal hvalid).mpr h)]
        exact ⟨rfl, rfl, rfl⟩

/-- An accepted job is at the writer, in the queue or delivered, and in one of them
only once. -/
theorem Delivery.once (h : Delivery s) {job : WriterJob} (hjob : job ∈ s.accepted) :
    (s.current.map WriterJob.receipt).count job.receipt +
      (s.executionResults.map CriticalCompletion.receipt).count job.receipt +
      (s.delivered.map CriticalCompletion.receipt).count job.receipt = 1 := by
  have hnodup : (s.accepted.map WriterJob.receipt).Nodup := by
    refine List.Nodup.of_map Prod.fst ?_
    rw [List.map_map]
    exact h.owners
  have hcount := h.receipts.count_eq job.receipt
  rw [List.count_eq_one_of_mem hnodup (List.mem_map_of_mem hjob), Coordinator.receipts,
    List.count_append, List.count_append] at hcount
  omega

/-- Each accepted job is delivered once: it is always in one place, a writer that ends
its jobs and a pulse bring it out, and what a pulse brings out was accepted in this
generation. The delivery queue never refuses a completion. A resubmission of a stored
identity reaches no writer, and is attached when it is the stored command up to the
order of keys and an acceptance time it does not bring. -/
theorem coordinator_delivers_accepted_once (events : List Event) :
    let s := run step {} events
    ((∀ job ∈ s.accepted,
        (s.current.map WriterJob.receipt).count job.receipt +
          (s.executionResults.map CriticalCompletion.receipt).count job.receipt +
          (s.delivered.map CriticalCompletion.receipt).count job.receipt = 1) ∧
      ∀ completion ∈ s.delivered, ∃ job ∈ s.accepted, job.receipt = completion.receipt) ∧
    (∀ outcomes : List CriticalApplyResult,
      s.jobs.length ≤ outcomes.countP (fun applied => !applied.outcome.tryAgain) →
      ((run step s (outcomes.map Event.execute ++
        [.pulse criticalCoordinatorMaxResults])).delivered.map CriticalCompletion.receipt).Perm
        (s.accepted.map WriterJob.receipt)) ∧
    (∀ capacity, (s.pulse capacity).2.delivered = s.delivered ++ (s.pulse capacity).1 ∧
      ∀ completion ∈ (s.pulse capacity).1, completion.generation = s.generation) ∧
    (∀ completion, (s.tryEnqueue completion).1 = true) ∧
    ∀ (command normalized stored : CriticalCommand) (retainUntilPublication : Bool)
      (now : BitVec 64),
      s.initialized = true → s.accepting = true →
      criticalCommandNormalize (stamped command now) = some normalized →
      ((∃ operation ∈ s.operations, operation.command = stored) ∨
        ∃ completed ∈ s.completedCache, completed.command = stored) →
      stored.operationId = normalized.operationId →
      ((s.submitCommand command retainUntilPublication now).1 =
          some (if restamped command normalized stored = stored then .attached
            else .identityConflict) ∧
        (∀ before, criticalCommandNormalize (stamped command before) = some stored →
          (s.submitCommand command retainUntilPublication now).1 = some .attached) ∧
        (s.submitCommand command retainUntilPublication now).2.jobs = s.jobs ∧
        (s.submitCommand command retainUntilPublication now).2.submitting = s.submitting) := by
  intro s
  have h : Inv s ∧ Delivery s := run_delivery events
  have htable := h.1.table
  have hdelivery := h.2
  refine ⟨⟨fun job hjob => hdelivery.once hjob, ?_⟩, fun outcomes => drain_delivers h outcomes,
    ?_, ?_, ?_⟩
  · intro completion hcompletion
    have hreceipt : completion.receipt ∈ s.accepted.map WriterJob.receipt :=
      hdelivery.receipts.subset (List.mem_append_right _ (List.mem_append_right _
        (List.mem_map_of_mem hcompletion)))
    exact List.mem_map.mp hreceipt
  · intro capacity
    refine ⟨(publish_delivered s.executionResults capacity s).1, ?_⟩
    intro completion hcompletion
    exact hdelivery.completions completion (List.mem_append_left _
      ((publish_sublist s.executionResults capacity s).subset hcompletion))
  · intro completion
    rw [tryEnqueue, if_pos (hdelivery.results_length htable)]
  · intro command normalized stored retainUntilPublication now hup haccepting hnormalized hstored
      hidentity
    obtain ⟨hanswer, hjobs, hsubmitting⟩ := submitCommand_stored htable ⟨hup, haccepting⟩
      hnormalized hstored hidentity retainUntilPublication
    refine ⟨hanswer, ?_, hjobs, hsubmitting⟩
    intro before hbefore
    rw [hanswer, if_pos (restamped_same hbefore hnormalized)]

/-- A command that locks player 7, accepted at microsecond 5. -/
def sampleCommand : CriticalCommand :=
  { schemaVersion := criticalCommandSchemaVersion
    operationId := ⟨List.replicate 15 0 ++ [1], rfl⟩
    type := .test
    payloadVersion := 1
    sourceSite := .command
    deadlineClass := .interactive
    acceptedAtUsec := 5
    keys := [⟨.player, 7⟩]
    expectedRevisions := []
    payload := [] }

def sampleEvents : List Event :=
  [.init, .submit sampleCommand false 9, .queueOnWriter 0 true]

theorem sampleCommand_normalize :
    criticalCommandNormalize sampleCommand = some sampleCommand ∧
      criticalCommandNormalize { sampleCommand with acceptedAtUsec := 9 } =
        some { sampleCommand with acceptedAtUsec := 9 } := by
  simp only [criticalCommandNormalize, sampleCommand, List.mergeSort_singleton,
    List.mergeSort_nil]
  decide

theorem sampleEvents_state :
    (∃ operation ∈ (run step {} sampleEvents).operations, operation.command = sampleCommand) ∧
      (run step {} sampleEvents).initialized = true ∧
      (run step {} sampleEvents).accepting = true := by
  have hreserved : (init {}).2.submitCommand sampleCommand false 9 =
      (none, (init {}).2.reserveLocked sampleCommand
        (encodeFields sampleCommand).length false) := by
    unfold submitCommand
    rw [show stamped sampleCommand 9 = sampleCommand from rfl, sampleCommand_normalize.1]
    dsimp only
    rw [criticalCommandEncode_of_valid (by decide)]
    rfl
  have hstep : run step {} sampleEvents = (queueOnWriter ((init {}).2.reserveLocked sampleCommand
      (encodeFields sampleCommand).length false) 0 true).2 := by
    simp only [sampleEvents, run_cons, run_nil, step]
    rw [hreserved]
  rw [hstep]
  exact ⟨⟨_, List.mem_singleton_self _, rfl⟩, rfl, rfl⟩

/-- A resubmission that differs in a field, the acceptance time, and is attached. -/
theorem resubmission_without_time_attached :
    (∃ operation ∈ (run step {} sampleEvents).operations, operation.command = sampleCommand) ∧
      { sampleCommand with acceptedAtUsec := 0 } ≠ sampleCommand ∧
      ((run step {} sampleEvents).submitCommand { sampleCommand with acceptedAtUsec := 0 }
        false 9).1 = some .attached := by
  obtain ⟨hstored, hup⟩ := sampleEvents_state
  refine ⟨hstored, by decide, ?_⟩
  have hnormalized : criticalCommandNormalize
      (stamped { sampleCommand with acceptedAtUsec := 0 } 9) =
        some { sampleCommand with acceptedAtUsec := 9 } := sampleCommand_normalize.2
  rw [(submitCommand_stored (run_inv sampleEvents).table hup hnormalized (.inl hstored) rfl
    false).1]
  rfl

end Duris.Persistence.Coordinator
