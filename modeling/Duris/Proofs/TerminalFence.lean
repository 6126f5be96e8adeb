import Duris.Lib.Run
import Duris.Player.TerminalFence

/-!
# A refused terminal save and its slot

The slot of a terminal save is freed by the wait once its revision is journaled or applied,
and, in the call for a death, by a guard on every way out before the snapshot is in the
pipeline. The ordinary call has no such guard: with a refused snapshot it waits for a
revision that nobody writes, and leaves the slot occupied at its deadline.
-/

namespace Duris.Player

variable {slot : Fin playerSavePipelineMaxSnapshots}

/-! ## The slot of a player -/

variable {fences : TerminalFences}

theorem findTerminalFence_pid {pid : Pid} (h : findTerminalFence fences pid = some slot) :
    (fences slot).pid = pid := by
  unfold findTerminalFence at h
  exact of_decide_eq_true (Fin.find?_eq_some_iff.mp h).1

theorem findTerminalFence_congr {fences' : TerminalFences} (pid : Pid)
    (h : ∀ slot, (fences' slot).pid = (fences slot).pid) :
    findTerminalFence fences' pid = findTerminalFence fences pid := by
  unfold findTerminalFence
  congr 1
  funext slot
  rw [h slot]

theorem findTerminalFence_isSome {pid : Pid} (h : ∃ slot, (fences slot).pid = pid) :
    ∃ slot, findTerminalFence fences pid = some slot := by
  obtain ⟨slot, hslot⟩ := h
  unfold findTerminalFence
  exact Option.isSome_iff_exists.mp (Fin.isSome_find?_iff.mpr ⟨slot, decide_eq_true hslot⟩)

theorem TerminalFences.mark_pid (fences : TerminalFences) (pid : Pid) (revision : Revision)
    {set : TerminalFence → TerminalFence} (hset : ∀ fence, (set fence).pid = fence.pid)
    (slot : Fin playerSavePipelineMaxSnapshots) :
    (fences.mark pid revision set slot).pid = (fences slot).pid := by
  unfold mark
  generalize findTerminalFence fences pid = found
  cases found with
  | none => rfl
  | some found =>
      show ((ite _ (Function.update _ _ _) _ : TerminalFences) slot).pid = _
      split
      · rw [Function.update_apply]
        split
        · next heq =>
            subst heq
            exact hset _
        · rfl
      · rfl

theorem TerminalFences.settle_pid (fences : TerminalFences) (x : Settlement)
    (slot : Fin playerSavePipelineMaxSnapshots) :
    (fences.settle x slot).pid = (fences slot).pid := by
  cases x with
  | journaled pid revision =>
      rw [settle]
      exact fences.mark_pid pid revision (by intro fence; rfl) slot
  | acknowledged pid revision =>
      rw [settle]
      exact fences.mark_pid pid revision (by intro fence; rfl) slot

theorem TerminalFences.mark_apply {fence : TerminalFence}
    (hfind : findTerminalFence fences fence.pid = some slot) (hfence : fences slot = fence)
    (pid : Pid) (revision : Revision) (set : TerminalFence → TerminalFence) :
    fences.mark pid revision set slot =
      if pid = fence.pid ∧ revision = fence.revision then set fence else fence := by
  by_cases hpid : pid = fence.pid
  · subst hpid
    rw [mark, hfind]
    show (ite _ (Function.update _ _ _) _ : TerminalFences) slot = _
    rw [hfence]
    by_cases hrevision : fence.revision = revision
    · rw [if_pos hrevision, if_pos ⟨rfl, hrevision.symm⟩, Function.update_self]
    · rw [if_neg hrevision, if_neg (fun h => hrevision h.2.symm), hfence]
  · rw [if_neg (fun h => hpid h.1), ← hfence]
    unfold mark
    generalize hfound : findTerminalFence fences pid = found
    cases found with
    | none => rfl
    | some found =>
        show (ite _ (Function.update _ _ _) _ : TerminalFences) slot = _
        have hne : slot ≠ found := by
          rintro rfl
          exact hpid ((findTerminalFence_pid hfound).symm.trans (congrArg _ hfence))
        split
        · exact Function.update_of_ne hne _ _
        · rfl

def Guards (fences : TerminalFences) (slot : Fin playerSavePipelineMaxSnapshots)
    (fence : TerminalFence) : Prop :=
  findTerminalFence fences fence.pid = some slot ∧ fences slot = fence

/-- The fence once the marks of `settled` are on it. -/
def TerminalFence.marked (fence : TerminalFence) (settled : List Settlement) : TerminalFence :=
  { fence with
    journaled := fence.journaled || settled.contains (.journaled fence.pid fence.revision)
    acknowledged := fence.acknowledged ||
      settled.contains (.acknowledged fence.pid fence.revision) }

namespace Guards

variable {fences : TerminalFences} {slot : Fin playerSavePipelineMaxSnapshots}
  {fence : TerminalFence}

theorem settle (h : Guards fences slot fence) (x : Settlement) :
    Guards (fences.settle x) slot (fence.marked [x]) := by
  obtain ⟨hfind, hfence⟩ := h
  refine ⟨?_, ?_⟩
  · show findTerminalFence (fences.settle x) fence.pid = some slot
    rw [findTerminalFence_congr fence.pid (fences.settle_pid x)]
    exact hfind
  · cases x with
    | journaled pid revision =>
        rw [TerminalFences.settle, TerminalFences.mark_apply hfind hfence]
        split
        · next heq =>
            obtain ⟨rfl, rfl⟩ := heq
            simp [TerminalFence.marked]
        · next hne =>
            have hother : ¬ (fence.pid = pid ∧ fence.revision = revision) :=
              fun h => hne ⟨h.1.symm, h.2.symm⟩
            simp [TerminalFence.marked, hother]
    | acknowledged pid revision =>
        rw [TerminalFences.settle, TerminalFences.mark_apply hfind hfence]
        split
        · next heq =>
            obtain ⟨rfl, rfl⟩ := heq
            simp [TerminalFence.marked]
        · next hne =>
            have hother : ¬ (fence.pid = pid ∧ fence.revision = revision) :=
              fun h => hne ⟨h.1.symm, h.2.symm⟩
            simp [TerminalFence.marked, hother]

theorem settleAll (h : Guards fences slot fence) (settled : List Settlement) :
    Guards (settled.foldl TerminalFences.settle fences) slot (fence.marked settled) := by
  induction settled generalizing fences fence with
  | nil => simpa [TerminalFence.marked] using h
  | cons x settled ih =>
      have hrest := ih (h.settle x)
      have heq : (fence.marked [x]).marked settled = fence.marked (x :: settled) := by
        simp [TerminalFence.marked, Bool.or_assoc]
      rw [heq] at hrest
      exact hrest

end Guards

/-! ## What the other threads do does not depend on the revision state -/

/-- The pipelines differ in their revision states only. -/
def Alike (s t : Pipeline) : Prop := ∃ revisions, t = { s with revisions }

namespace Alike

variable {s t : Pipeline}

theorem refl (s : Pipeline) : Alike s s := ⟨s.revisions, rfl⟩

theorem otherStep (h : Alike s t) (e : Pipeline.Event) :
    Alike (otherStep s e) (otherStep t e) := by
  obtain ⟨revisions, rfl⟩ := h
  refine ⟨revisions, ?_⟩
  obtain ⟨pending, ready, dispatcher, bytes, starting, initialized, stop, fenced, live, worker,
    journal, old, unapplied⟩ := s
  cases e with
  | replayScan mysqlReady io =>
      simp only [Player.otherStep, otherThread, if_true, Pipeline.step, Pipeline.replayScan]
      cases dispatcher <;> try rfl
      split_ifs <;> rfl
  | replayApply result io =>
      simp only [Player.otherStep, otherThread, if_true, Pipeline.step, Pipeline.replayApply]
      cases dispatcher with
      | replaying plan acknowledged =>
          cases plan <;> cases result <;> try rfl
          simp only [Pipeline.released, Pipeline.checkpoint]
          split_ifs <;> rfl
      | _ => rfl
  | replayRelease io =>
      simp only [Player.otherStep, otherThread, if_true, Pipeline.step, Pipeline.replayRelease]
      cases dispatcher with
      | replaying plan acknowledged =>
          cases plan <;> cases acknowledged <;> try rfl
          simp only [Pipeline.checkpoint]
          split_ifs <;> rfl
      | _ => rfl
  | dispatcherTake =>
      simp only [Player.otherStep, otherThread, if_true, Pipeline.step, Pipeline.dispatcherTake]
      cases dispatcher <;> cases pending <;> cases stop <;> rfl
  | dispatcherAppend created sequence io =>
      simp only [Player.otherStep, otherThread, if_true, Pipeline.step,
        Pipeline.dispatcherAppend]
      cases dispatcher <;> rfl
  | dispatcherSettle allocates =>
      simp only [Player.otherStep, otherThread, if_true, Pipeline.step,
        Pipeline.dispatcherSettle]
      cases dispatcher with
      | appended snapshot result =>
          simp only []
          split_ifs <;> rfl
      | _ => rfl
  | attemptEnd result io =>
      simp only [Player.otherStep, otherThread, if_true, Pipeline.step, Pipeline.attemptEnd]
      cases worker.phase with
      | attempting retries =>
          cases worker.inflight with
          | none => rfl
          | some job =>
              simp only
              generalize job.kind = kind, job.snapshot = snapshot
              cases kind <;> cases snapshot <;> try rfl
              simp only [Pipeline.released, Pipeline.checkpoint]
              split_ifs <;> rfl
      | _ => rfl
  | worker e =>
      simp only [Player.otherStep, otherThread, if_true, Pipeline.step]
      split_ifs <;> rfl
  | _ => rfl

theorem journals (h : Alike s t) (e : Pipeline.Event) : t.journals e = s.journals e := by
  obtain ⟨revisions, rfl⟩ := h
  rfl

theorem others (h : Alike s t) (events : List Pipeline.Event) :
    Alike (others s events) (others t events) := by
  induction events generalizing s t with
  | nil => exact h
  | cons e events ih => exact ih (h.otherStep e)

theorem othersSettle (h : Alike s t) (events : List Pipeline.Event) :
    othersSettle t events = othersSettle s events := by
  induction events generalizing s t with
  | nil => rfl
  | cons e events ih =>
      rw [Player.othersSettle, Player.othersSettle, h.journals e, ih (h.otherStep e)]

theorem submitReady (budget : Nat) : ∀ (allocates : List Bool) {s t : Pipeline}, Alike s t →
    Alike (s.submitReady budget allocates) (t.submitReady budget allocates) := by
  induction budget with
  | zero => exact fun allocates s t h => h
  | succ budget ih =>
      rintro allocates ⟨pending, ready, dispatcher, bytes, starting, initialized, stop, fenced,
        live, worker, journal, old, unapplied⟩ _ ⟨revisions, rfl⟩
      rw [Pipeline.submitReady, Pipeline.submitReady]
      cases ready with
      | nil => exact ⟨revisions, rfl⟩
      | cons snapshot rest =>
          simp only
          cases worker.submitRetained snapshot (allocates.headD true) with
          | mk result worker =>
              cases result with
              | workerUnavailable => exact ⟨revisions, rfl⟩
              | capacityExceeded => exact ⟨revisions, rfl⟩
              | _ => exact ih allocates.tail ⟨revisions, rfl⟩

theorem retireEndedPlayer (s : Pipeline) (pid : Pid) : Alike s (s.retireEndedPlayer pid) := by
  rw [Pipeline.retireEndedPlayer]
  split
  · exact refl s
  · split
    · exact ⟨_, rfl⟩
    · exact refl s

theorem trans {u : Pipeline} (h : Alike s t) (h' : Alike t u) : Alike s u := by
  obtain ⟨revisions, rfl⟩ := h
  obtain ⟨revisions', rfl⟩ := h'
  exact ⟨revisions', rfl⟩

theorem symm (h : Alike s t) : Alike t s := by
  obtain ⟨revisions, rfl⟩ := h
  exact ⟨s.revisions, rfl⟩

theorem retireAll (s : Pipeline) (completions : List Completion) :
    Alike s (completions.foldl (fun s completion => s.retireEndedPlayer completion.pid) s) := by
  induction completions generalizing s with
  | nil => exact refl s
  | cons completion completions ih =>
      exact (retireEndedPlayer s completion.pid).trans (ih (s.retireEndedPlayer completion.pid))

theorem pulse (h : Alike s t) (allocates : List Bool) :
    Alike (s.pulse allocates) (t.pulse allocates) := by
  obtain ⟨revisions, rfl⟩ := h
  refine submitReady _ allocates ?_
  exact (retireAll _ _).symm.trans (Alike.trans ⟨_, rfl⟩ (retireAll _ _))

theorem pulseSettles (h : Alike s t) : t.pulseSettles = s.pulseSettles := by
  obtain ⟨revisions, rfl⟩ := h
  rfl

theorem roundRun (h : Alike s t) (round : WaitRound) : Alike (round.run s) (round.run t) :=
  ((h.others round.before).pulse round.allocates).others round.after

theorem roundSettles (h : Alike s t) (round : WaitRound) : round.settles t = round.settles s := by
  rw [WaitRound.settles, WaitRound.settles, h.othersSettle, (h.others round.before).pulseSettles,
    ((h.others round.before).pulse round.allocates).othersSettle]

theorem roundsSettle (h : Alike s t) (rounds : List WaitRound) :
    roundsSettle t rounds = roundsSettle s rounds := by
  induction rounds generalizing s t with
  | nil => rfl
  | cons round rounds ih =>
      rw [Player.roundsSettle, Player.roundsSettle, h.roundSettles round, ih (h.roundRun round)]

end Alike

/-! ## The reservation -/

theorem findTerminalFence_update {fences : TerminalFences} {pid : Pid} {fence : TerminalFence}
    (h : findTerminalFence fences pid = none) (hpid : fence.pid = pid) :
    findTerminalFence (Function.update fences slot fence) pid = some slot := by
  unfold findTerminalFence at h ⊢
  refine Fin.find?_eq_some_iff.mpr ⟨?_, ?_⟩
  · rw [Function.update_self]
    exact decide_eq_true hpid
  · intro other hlt
    rw [Function.update_of_ne (ne_of_lt hlt)]
    exact Fin.find?_eq_none_iff.mp h other

namespace FencedPipeline

variable {s : FencedPipeline} {pid : Pid}

theorem setFence_slot {slot : Fin playerSavePipelineMaxSnapshots}
    (h : findTerminalFence s.fences pid = some slot) (fence : TerminalFence) :
    (s.setFence pid fence).fences slot = fence := by
  rw [setFence, h]
  exact Function.update_self slot fence s.fences

theorem setFence_guards {slot : Fin playerSavePipelineMaxSnapshots} (fence : TerminalFence)
    (h : findTerminalFence s.fences fence.pid = some slot) :
    Guards (s.setFence fence.pid fence).fences slot fence := by
  refine ⟨?_, setFence_slot h fence⟩
  rw [setFence, h]
  refine (findTerminalFence_congr fence.pid fun other => ?_).trans h
  show (Function.update s.fences slot fence other).pid = _
  rw [Function.update_apply]
  split
  · next heq =>
      rw [heq]
      exact (findTerminalFence_pid h).symm
  · rfl

theorem setFence_pipeline (s : FencedPipeline) (pid : Pid) (fence : TerminalFence) :
    (s.setFence pid fence).pipeline = s.pipeline := by
  rw [setFence]
  split <;> rfl

/-- The slot an allocation answers is the player's, and there is one exactly when the
player has one or another is free. -/
theorem allocateTerminalFence_cases (s : FencedPipeline)
    (hfenced : s.pipeline.targetFenced pid = false) :
    (∃ slot t, s.allocateTerminalFence pid = (some slot, t) ∧
      findTerminalFence t.fences pid = some slot ∧ t.pipeline = s.pipeline ∧
      ∃ slot, (s.fences slot).pid = pid ∨ (s.fences slot).pid = 0) ∨
    (s.allocateTerminalFence pid = (none, s) ∧
      ¬ ∃ slot, (s.fences slot).pid = pid ∨ (s.fences slot).pid = 0) := by
  rw [allocateTerminalFence, if_neg (by rw [hfenced]; exact Bool.false_ne_true)]
  cases hpid : findTerminalFence s.fences pid with
  | some slot => exact .inl ⟨slot, s, rfl, hpid, rfl, slot, .inl (findTerminalFence_pid hpid)⟩
  | none =>
      cases hfree : findTerminalFence s.fences 0 with
      | some slot =>
          exact .inl ⟨slot, _, rfl, findTerminalFence_update hpid rfl, rfl, slot,
            .inr (findTerminalFence_pid hfree)⟩
      | none =>
          refine .inr ⟨rfl, ?_⟩
          rintro ⟨slot, hslot | hslot⟩
          · obtain ⟨found, hfound⟩ := findTerminalFence_isSome ⟨slot, hslot⟩
            rw [hpid] at hfound
            cases hfound
          · obtain ⟨found, hfound⟩ := findTerminalFence_isSome ⟨slot, hslot⟩
            rw [hfree] at hfound
            cases hfound

/-- A reservation for the player of this state gets as far as its mark. -/
def Reserves (s : FencedPipeline) (pid : Pid) (revision : Revision) : Prop :=
  s.pipeline.initialized = true ∧ s.pipeline.targetFenced pid = false ∧
    (∃ slot, (s.fences slot).pid = pid ∨ (s.fences slot).pid = 0) ∧
    (playerRevisionMark s.pipeline.revisions pid playerCheckpointComponentAll).1 = some revision

theorem beginTerminalFence_cases (s : FencedPipeline) (pid : Pid) :
    (∃ slot revision, (s.beginTerminalFence pid).reserved = some slot ∧
      (s.beginTerminalFence pid).revision = some revision ∧ s.Reserves pid revision ∧
      Guards (s.beginTerminalFence pid).state.fences slot { pid, revision } ∧
      Alike s.pipeline (s.beginTerminalFence pid).state.pipeline) ∨
    ((s.beginTerminalFence pid).revision = none ∧ (∀ revision, ¬ s.Reserves pid revision) ∧
      ∀ slot, (s.beginTerminalFence pid).reserved = some slot →
        ((s.beginTerminalFence pid).state.fences slot).pid = 0) := by
  by_cases hclosed : s.pipeline.initialized = false ∨ s.pipeline.targetFenced pid = true
  · right
    rw [beginTerminalFence, if_pos hclosed]
    refine ⟨rfl, ?_, ?_⟩
    · rintro revision ⟨hinitialized, hfenced, -⟩
      rw [hinitialized, hfenced] at hclosed
      rcases hclosed with h | h <;> cases h
    · intro slot hslot
      cases hslot
  · obtain ⟨hinitialized, hfenced⟩ := not_or.mp hclosed
    rw [Bool.not_eq_false] at hinitialized
    rw [Bool.not_eq_true] at hfenced
    rcases s.allocateTerminalFence_cases hfenced with
      ⟨slot, t, hallocated, hfound, hpipeline, hroom⟩ | ⟨hallocated, hfull⟩
    · have hbegin : s.beginTerminalFence pid = t.markTerminalFence slot pid := by
        rw [beginTerminalFence, if_neg hclosed, hallocated]
      rw [hbegin, ← hpipeline]
      cases hmark : playerRevisionMark t.pipeline.revisions pid playerCheckpointComponentAll with
      | mk marked revisions =>
          cases marked with
          | none =>
              have hnone : t.markTerminalFence slot pid =
                  ⟨some slot, none, (t.withRevisions revisions).setFence pid {}⟩ := by
                rw [markTerminalFence, hmark]
              rw [hnone]
              refine .inr ⟨rfl, ?_, ?_⟩
              · rintro revision ⟨-, -, -, hrevision⟩
                rw [← hpipeline, hmark] at hrevision
                cases hrevision
              · rintro _ ⟨⟩
                exact congrArg _ (setFence_slot (s := t.withRevisions revisions) hfound {})
          | some revision =>
              have hsome : t.markTerminalFence slot pid = ⟨some slot, some revision,
                  (t.withRevisions revisions).setFence pid { pid, revision }⟩ := by
                rw [markTerminalFence, hmark, hfound]
              rw [hsome]
              refine .inl ⟨slot, revision, rfl, rfl, ⟨hinitialized, hfenced, hroom, ?_⟩, ?_, ?_⟩
              · rw [← hpipeline, hmark]
              · exact setFence_guards (s := t.withRevisions revisions) { pid, revision } hfound
              · show Alike _ ((t.withRevisions revisions).setFence pid _).pipeline
                rw [setFence_pipeline]
                exact ⟨revisions, rfl⟩
    · have hbegin : s.beginTerminalFence pid = ⟨none, none, s⟩ := by
        rw [beginTerminalFence, if_neg hclosed, hallocated]
      rw [hbegin]
      refine .inr ⟨rfl, ?_, ?_⟩
      · rintro revision ⟨-, -, hroom, -⟩
        exact hfull hroom
      · intro slot hslot
        cases hslot

/-! ## The wait -/

end FencedPipeline

namespace TerminalFence

theorem marked_append (fence : TerminalFence) (settled later : List Settlement) :
    fence.marked (settled ++ later) = (fence.marked settled).marked later := by
  simp [marked, Bool.or_assoc]

def Ends (fence : TerminalFence) (allowJournalHandoff : Bool) : Prop :=
  fence.acknowledged = true ∨ allowJournalHandoff = true ∧ fence.journaled = true

theorem Ends.marked {fence : TerminalFence} {allow : Bool} (h : fence.Ends allow)
    (settled : List Settlement) : (fence.marked settled).Ends allow := by
  rcases h with hacknowledged | ⟨hallow, hjournaled⟩
  · exact .inl (by simp [TerminalFence.marked, hacknowledged])
  · exact .inr ⟨hallow, by simp [TerminalFence.marked, hjournaled]⟩

end TerminalFence

namespace FencedPipeline

/-- The wait leaves the slot occupied exactly when no round comes with or behind what
ends it. -/
theorem awaitTerminalFence_slot {slot : Fin playerSavePipelineMaxSnapshots}
    (allow : Bool) (rounds : List WaitRound) (s : FencedPipeline) (fence : TerminalFence)
    (hpid : fence.pid ≠ 0) (h : Guards s.fences slot fence) :
    ((awaitTerminalFence fence.pid fence.revision allow rounds s).2.fences slot).pid = 0 ↔
      rounds ≠ [] ∧ (fence.marked (roundsSettle s.pipeline rounds)).Ends allow := by
  induction rounds generalizing s fence with
  | nil =>
      refine ⟨fun hfree => ?_, fun hended => absurd rfl hended.1⟩
      have hslot : (s.fences slot).pid = 0 := hfree
      rw [h.2] at hslot
      exact absurd hslot hpid
  | cons round rounds ih =>
      have hround : Guards (s.waitRound round).fences slot
          (fence.marked (round.settles s.pipeline)) := h.settleAll _
      have hfind : findTerminalFence (s.waitRound round).fences fence.pid = some slot := hround.1
      have hlater : roundsSettle s.pipeline (round :: rounds) = round.settles s.pipeline ++
        roundsSettle (s.waitRound round).pipeline rounds := rfl
      rw [awaitTerminalFence, hfind, hlater, fence.marked_append]
      simp only [hround.2]
      rw [if_neg (fun hne : (fence.marked _).revision ≠ fence.revision => hne rfl)]
      split
      · next hacknowledged =>
          rw [setFence_slot hfind]
          refine iff_of_true rfl ⟨List.cons_ne_nil _ _, ?_⟩
          exact TerminalFence.Ends.marked (.inl hacknowledged) _
      · next hpending =>
          split
          · next hjournaled =>
              rw [setFence_slot hfind]
              refine iff_of_true rfl ⟨List.cons_ne_nil _ _, ?_⟩
              exact TerminalFence.Ends.marked (.inr hjournaled) _
          · next hunjournaled =>
              refine (ih (s.waitRound round) (fence.marked (round.settles s.pipeline)) hpid
                hround).trans ?_
              refine and_congr_left fun hended => iff_of_true ?_ (List.cons_ne_nil _ _)
              rintro rfl
              rcases hended with hacknowledged | hjournaled
              · exact hpending (by simpa [TerminalFence.marked, roundsSettle] using hacknowledged)
              · exact hunjournaled (by simpa [TerminalFence.marked, roundsSettle] using hjournaled)

end FencedPipeline

/-! ## A refused snapshot -/

theorem enqueueSnapshot_refused {s : Pipeline} {snapshot : PlayerSnapshot} {allocates : Bool}
    (h : (s.enqueueSnapshot snapshot allocates).1.admitted = false) :
    (s.enqueueSnapshot snapshot allocates).2 = s := by
  rw [Pipeline.enqueueSnapshot] at h ⊢
  split at h
  · next hclosed => rw [if_pos hclosed]
  · next hopen =>
      rw [if_neg hopen]
      cases hqueued : s.firstPending snapshot.pid with
      | some queued =>
          rw [hqueued] at h
          simp only at h ⊢
          split_ifs at h ⊢
          · cases h
          · rfl
          · rfl
          · cases h
      | none =>
          rw [hqueued] at h
          simp only at h ⊢
          split_ifs at h ⊢
          · rfl
          · cases h

namespace TerminalCall

variable {call : TerminalCall}

theorem capturesRevision_refused {s : Pipeline} {revision : Revision} {components : ComponentMask}
    (h : (call.capturesRevision s revision components).1.admitted = false) :
    (call.capturesRevision s revision components).2 = s := by
  rw [capturesRevision] at h ⊢
  split
  · rfl
  · next snapshot hcapture =>
      rw [hcapture] at h
      exact enqueueSnapshot_refused h

theorem checkpointDirty_refused {s : Pipeline}
    (h : (call.checkpointDirty s).1.admitted = false) : Alike s (call.checkpointDirty s).2 := by
  rw [checkpointDirty] at h ⊢
  split_ifs at h ⊢
  · exact Alike.refl s
  · exact Alike.refl s
  · cases hlookup : s.revisions.lookup call.pid with
    | none => exact Alike.refl s
    | some entry =>
        rw [hlookup] at h
        simp only at h ⊢
        split_ifs at h ⊢
        · exact Alike.refl s
        · cases hqueue : playerRevisionQueue s.revisions call.pid with
          | mk queued revisions =>
              rw [hqueue] at h
              cases queued with
              | none => exact ⟨revisions, rfl⟩
              | some queued =>
                  rw [show (call.capturesRevision { s with revisions } queued.1 queued.2).2 =
                    { s with revisions } from capturesRevision_refused h]
                  exact ⟨revisions, rfl⟩

def enters (call : TerminalCall) : Bool :=
  match call.kind with
  | .ordinary => call.player && call.pid.valid && call.timeoutMsec != 0 && !call.degraded
  | .death corpse payloadGap =>
      call.player && call.pid.valid && corpse && call.timeoutMsec != 0 &&
        (!call.degraded || payloadGap)

/-- The call reserves a slot, for this revision. -/
def Begins (call : TerminalCall) (s : FencedPipeline) (revision : Revision) : Prop :=
  call.enters = true ∧ s.Reserves call.pid revision

/-- What the other threads say of the players' revisions during the call. -/
def settlements (call : TerminalCall) (s : FencedPipeline) : List Settlement :=
  othersSettle s.pipeline call.gap ++ roundsSettle (others s.pipeline call.gap) call.rounds

/-- The call looks at its slot after another snapshot of the player, with the same
revision, was applied, or journaled where that is enough. -/
def SettledByOthers (call : TerminalCall) (s : FencedPipeline) (revision : Revision) : Prop :=
  call.rounds ≠ [] ∧ (.acknowledged call.pid revision ∈ call.settlements s ∨
    call.allowJournalHandoff = true ∧ .journaled call.pid revision ∈ call.settlements s)

end TerminalCall

def TerminalReturn.Releases (answer : TerminalReturn) : Prop :=
  ∀ slot, answer.reserved = some slot → (answer.state.fences slot).pid = 0

namespace TerminalCall

variable {call : TerminalCall} {s : FencedPipeline}

variable {revision : Revision}

/-- What ends the wait of the call, from the slot it reserved and over what the other
threads say behind that. -/
theorem ends_iff {begun checkpointed : Pipeline} (hbegun : Alike s.pipeline begun)
    (hcheckpointed : Alike (others begun call.gap) checkpointed) :
    (call.rounds ≠ [] ∧ ((TerminalFence.marked { pid := call.pid, revision }
        (othersSettle begun call.gap)).marked (roundsSettle checkpointed call.rounds)).Ends
          call.allowJournalHandoff) ↔ call.SettledByOthers s revision := by
  rw [← TerminalFence.marked_append, hbegun.othersSettle,
    ((hbegun.others call.gap).trans hcheckpointed).roundsSettle]
  simp [TerminalFence.Ends, TerminalFence.marked, SettledByOthers, settlements]

theorem terminalWait_releases_iff {slot : Fin playerSavePipelineMaxSnapshots}
    {begun : FencedPipeline} (hpid : call.pid ≠ 0)
    (hguards : Guards begun.fences slot { pid := call.pid, revision })
    (hbegun : Alike s.pipeline begun.pipeline)
    (hrefused : (call.terminalWait (some slot) revision (begun.otherSteps call.gap)).admitted =
      false) :
    (call.terminalWait (some slot) revision (begun.otherSteps call.gap)).Releases ↔
      call.SettledByOthers s revision := by
  have hmarked := hguards.settleAll (othersSettle begun.pipeline call.gap)
  have hcheckpoint := checkpointDirty_refused hrefused
  refine Iff.trans ?_ ((FencedPipeline.awaitTerminalFence_slot call.allowJournalHandoff call.rounds
    { begun.otherSteps call.gap with
      pipeline := (call.checkpointDirty (begun.otherSteps call.gap).pipeline).2 } _ hpid
    hmarked).trans (ends_iff hbegun hcheckpoint))
  refine ⟨fun hfree => hfree slot rfl, ?_⟩
  rintro hfree _ ⟨⟩
  exact hfree

theorem deathWait_releases {slot : Fin playerSavePipelineMaxSnapshots} {begun : FencedPipeline}
    (hfound : findTerminalFence begun.fences call.pid = some slot)
    (hrefused : (call.deathWait (some slot) revision begun).admitted = false) :
    (call.deathWait (some slot) revision begun).Releases := by
  have hcleared : ∀ (result : TerminalResult) (pipeline : Pipeline),
      TerminalReturn.Releases ⟨result, false, some slot,
        { begun with pipeline }.setFence call.pid {}⟩ := by
    rintro result pipeline _ ⟨⟩
    exact congrArg _ (FencedPipeline.setFence_slot (s := { begun with pipeline }) hfound {})
  rw [deathWait] at hrefused ⊢
  cases hcapture : call.capture with
  | none => exact hcleared _ begun.pipeline
  | some snapshot =>
      rw [hcapture] at hrefused
      simp only at hrefused ⊢
      cases hqueue : playerRevisionQueue begun.pipeline.revisions call.pid with
      | mk queued revisions =>
          rw [hqueue] at hrefused
          cases queued with
          | none => exact hcleared _ { begun.pipeline with revisions }
          | some queued =>
              simp only at hrefused ⊢
              split_ifs at hrefused ⊢
              · exact hcleared _ { begun.pipeline with revisions }
              · exact hcleared _ _

def waits (call : TerminalCall) (slot : Option (Fin playerSavePipelineMaxSnapshots))
    (revision : Revision) (s : FencedPipeline) : TerminalReturn :=
  match call.kind with
  | .ordinary => call.terminalWait slot revision s
  | .death _ _ => call.deathWait slot revision s

theorem run_cases (call : TerminalCall) (s : FencedPipeline) :
    (call.enters = false ∧ ∃ result, call.run s = ⟨result, false, none, s⟩) ∨
    (call.enters = true ∧ (s.beginTerminalFence call.pid).revision = none ∧
      call.run s = ⟨.unavailable, false, (s.beginTerminalFence call.pid).reserved,
        (s.beginTerminalFence call.pid).state⟩) ∨
    (call.enters = true ∧ ∃ revision, (s.beginTerminalFence call.pid).revision = some revision ∧
      call.run s = call.waits (s.beginTerminalFence call.pid).reserved revision
        ((s.beginTerminalFence call.pid).state.otherSteps call.gap)) := by
  cases hkind : call.kind with
  | ordinary =>
      simp only [run, waits, enters, hkind, terminal]
      split_ifs with hinvalid hdegraded
      · refine .inl ⟨?_, _, rfl⟩
        rcases hinvalid with h | h | h <;> simp [h]
      · exact .inl ⟨by simp [hdegraded], _, rfl⟩
      · have henters : (call.player && call.pid.valid && call.timeoutMsec != 0 &&
            !call.degraded) = true := by
          simp only [not_or, Bool.not_eq_false] at hinvalid
          simpa [hinvalid.1, hinvalid.2.1, hdegraded] using hinvalid.2.2
        cases hbegin : (s.beginTerminalFence call.pid).revision with
        | none => exact .inr (.inl ⟨henters, rfl, rfl⟩)
        | some revision => exact .inr (.inr ⟨henters, revision, rfl, rfl⟩)
  | death corpse payloadGap =>
      simp only [run, waits, enters, hkind, terminalDeath]
      split_ifs with hinvalid hdegraded
      · refine .inl ⟨?_, _, rfl⟩
        rcases hinvalid with h | h | h | h <;> simp [h]
      · exact .inl ⟨by simp [hdegraded], _, rfl⟩
      · have henters : (call.player && call.pid.valid && corpse && call.timeoutMsec != 0 &&
            (!call.degraded || payloadGap)) = true := by
          simp only [not_or, Bool.not_eq_false] at hinvalid
          cases hload : call.degraded <;> cases hgap : payloadGap <;> simp_all
        cases hbegin : (s.beginTerminalFence call.pid).revision with
        | none => exact .inr (.inl ⟨henters, rfl, rfl⟩)
        | some revision => exact .inr (.inr ⟨henters, revision, rfl, rfl⟩)

theorem enters_pid (h : call.enters = true) : call.pid ≠ 0 := by
  rintro hpid
  rw [enters, hpid] at h
  cases hkind : call.kind <;> rw [hkind] at h <;> simp [Pid.valid] at h

/-- Of the terminal saves whose snapshot was not admitted, those of a death leave no slot
occupied, and an ordinary one exactly when it reserves none or when somebody else's snapshot
settles the revision it waits for. -/
theorem releases_iff (call : TerminalCall) (s : FencedPipeline)
    (hrefused : (call.run s).admitted = false) :
    (call.run s).Releases ↔ call.kind ≠ .ordinary ∨
      ∀ revision, call.Begins s revision → call.SettledByOthers s revision := by
  rcases call.run_cases s with ⟨henters, result, hrun⟩ | ⟨henters, hrevision, hrun⟩ |
    ⟨henters, revision, hrevision, hrun⟩
  · rw [hrun]
    refine iff_of_true (fun slot hslot => absurd hslot (by simp)) (.inr ?_)
    rintro revision ⟨h, -⟩
    rw [henters] at h
    cases h
  · rw [hrun]
    rcases s.beginTerminalFence_cases call.pid with ⟨_, _, _, hsome, _⟩ | ⟨-, hnone, hfree⟩
    · rw [hrevision] at hsome
      cases hsome
    · exact iff_of_true hfree (.inr fun revision h => absurd h.2 (hnone revision))
  · rcases s.beginTerminalFence_cases call.pid with
      ⟨slot, marked, hslot, hsome, hreserves, hguards, halike⟩ | ⟨hnone, -, -⟩
    · rw [hrevision] at hsome
      cases hsome
      rw [hrun, hslot] at hrefused ⊢
      have hbegins : (∀ other, call.Begins s other → call.SettledByOthers s other) ↔
          call.SettledByOthers s revision := by
        refine ⟨fun h => h revision ⟨henters, hreserves⟩, ?_⟩
        rintro h other ⟨-, -, -, -, hmark⟩
        rw [hreserves.2.2.2] at hmark
        cases hmark
        exact h
      rw [hbegins]
      cases hkind : call.kind with
      | ordinary =>
          rw [waits, hkind] at hrefused ⊢
          rw [terminalWait_releases_iff (enters_pid henters) hguards halike hrefused]
          simp
      | death corpse payloadGap =>
          rw [waits, hkind] at hrefused ⊢
          refine iff_of_true (deathWait_releases ?_ hrefused) (.inl (by simp))
          exact (hguards.settleAll (othersSettle _ call.gap)).1
    · rw [hrevision] at hnone
      cases hnone

/-- A logged-in player's save whose capture fails, with a wait of one turn. -/
def uncaptured : TerminalCall :=
  { kind := .ordinary
    pid := 7
    player := true
    timeoutMsec := 1
    allowJournalHandoff := true
    capture := none
    allocates := true
    rounds := [⟨[], [], []⟩] }

def loggedIn : FencedPipeline :=
  { pipeline := { initialized := true, revisions := (playerRevisionHydrate ∅ 7 0).2 }
    accepting := true }

/-- The wait passes its deadline, and the slot stays occupied. -/
theorem uncaptured_keeps_slot : (uncaptured.run loggedIn).admitted = false ∧
    (uncaptured.run loggedIn).result = .timedOut ∧ ¬ (uncaptured.run loggedIn).Releases ∧
    (uncaptured.run loggedIn).state.targetSavePending 7 = true := by
  have hslot : ∃ slot, (uncaptured.run loggedIn).reserved = some slot ∧
      ((uncaptured.run loggedIn).state.fences slot).pid = 7 :=
    ⟨⟨0, by decide⟩, by decide +kernel⟩
  refine ⟨by decide +kernel, by decide +kernel, ?_, by decide +kernel⟩
  intro hfree
  obtain ⟨slot, hreserved, hpid⟩ := hslot
  rw [hfree slot hreserved] at hpid
  cases hpid

end TerminalCall

/-! ## Runs of saves -/

namespace FencedPipeline

variable {s : FencedPipeline} {pid : Pid}

theorem settleAll_pid (settled : List Settlement) (fences : TerminalFences)
    (slot : Fin playerSavePipelineMaxSnapshots) :
    (settled.foldl TerminalFences.settle fences slot).pid = (fences slot).pid := by
  induction settled generalizing fences with
  | nil => rfl
  | cons x settled ih => exact (ih (fences.settle x)).trans (fences.settle_pid x slot)

variable {slot other : Fin playerSavePipelineMaxSnapshots}

theorem setFence_other (h : findTerminalFence s.fences pid = some slot) (hne : other ≠ slot)
    (fence : TerminalFence) : (s.setFence pid fence).fences other = s.fences other := by
  rw [setFence, h]
  exact Function.update_of_ne hne fence s.fences

theorem allocateTerminalFence_other {t : FencedPipeline}
    (h : s.allocateTerminalFence pid = (some slot, t)) (hne : other ≠ slot) :
    t.fences other = s.fences other := by
  rw [allocateTerminalFence] at h
  split at h
  · cases h
  · split at h
    · cases h
      rfl
    · split at h
      · cases h
      · cases h
        exact Function.update_of_ne hne _ s.fences

theorem markTerminalFence_other (h : findTerminalFence s.fences pid = some slot)
    (hne : other ≠ slot) : (s.markTerminalFence slot pid).state.fences other = s.fences other := by
  rw [markTerminalFence]
  split
  · next revisions _ => exact setFence_other (s := s.withRevisions revisions) h hne {}
  · next revision revisions _ =>
      rw [h]
      exact setFence_other (s := s.withRevisions revisions) h hne { pid, revision }

theorem markTerminalFence_reserved (s : FencedPipeline)
    (slot : Fin playerSavePipelineMaxSnapshots) (pid : Pid) :
    (s.markTerminalFence slot pid).reserved = some slot := by
  rw [markTerminalFence]
  split
  · rfl
  · split <;> rfl

theorem beginTerminalFence_other (h : (s.beginTerminalFence pid).reserved ≠ some other) :
    (s.beginTerminalFence pid).state.fences other = s.fences other := by
  rw [beginTerminalFence] at h ⊢
  split
  · rfl
  · next hopen =>
      rw [if_neg hopen] at h
      obtain ⟨-, hfenced⟩ := not_or.mp hopen
      rw [Bool.not_eq_true] at hfenced
      rcases s.allocateTerminalFence_cases hfenced with
        ⟨slot, t, hallocated, hfound, -, -⟩ | ⟨hallocated, -⟩
      · rw [hallocated] at h ⊢
        have hne : other ≠ slot := by
          rintro rfl
          exact h (t.markTerminalFence_reserved other pid)
        exact (markTerminalFence_other hfound hne).trans
          (allocateTerminalFence_other hallocated hne)
      · rw [hallocated]

theorem awaitTerminalFence_other (hne : other ≠ slot) (revision : Revision) (allow : Bool)
    (rounds : List WaitRound) (s : FencedPipeline)
    (h : findTerminalFence s.fences pid = some slot) :
    ((awaitTerminalFence pid revision allow rounds s).2.fences other).pid =
      (s.fences other).pid := by
  induction rounds generalizing s with
  | nil => rfl
  | cons round rounds ih =>
      have hpids : ∀ slot, ((s.waitRound round).fences slot).pid = (s.fences slot).pid :=
        settleAll_pid _ s.fences
      have hfind : findTerminalFence (s.waitRound round).fences pid = some slot :=
        (findTerminalFence_congr pid hpids).trans h
      rw [awaitTerminalFence, hfind]
      simp only
      split_ifs
      · exact hpids other
      · rw [setFence_other hfind hne]
        exact hpids other
      · rw [setFence_other hfind hne]
        exact hpids other
      · exact (ih _ hfind).trans (hpids other)

end FencedPipeline

namespace TerminalCall

variable {call : TerminalCall} {s : FencedPipeline}

theorem waits_other {slot other : Fin playerSavePipelineMaxSnapshots} (hne : other ≠ slot)
    (reserved : Option (Fin playerSavePipelineMaxSnapshots)) (revision : Revision)
    (h : findTerminalFence s.fences call.pid = some slot) :
    ((call.waits reserved revision s).state.fences other).pid = (s.fences other).pid := by
  have hcleared : ∀ pipeline : Pipeline,
      (({ s with pipeline }.setFence call.pid {}).fences other).pid = (s.fences other).pid := by
    intro pipeline
    exact congrArg _ (FencedPipeline.setFence_other (s := { s with pipeline }) h hne {})
  rw [waits]
  split
  · exact FencedPipeline.awaitTerminalFence_other hne _ _ _ _ h
  · rw [deathWait]
    split
    · exact hcleared s.pipeline
    · split
      · exact hcleared _
      · simp only
        split_ifs
        · exact hcleared _
        · exact FencedPipeline.awaitTerminalFence_other hne _ _ _ _ h
        · exact hcleared _

theorem waits_reserved (call : TerminalCall)
    (reserved : Option (Fin playerSavePipelineMaxSnapshots)) (revision : Revision)
    (s : FencedPipeline) : (call.waits reserved revision s).reserved = reserved := by
  rw [waits]
  split
  · rfl
  · rw [deathWait]
    split
    · rfl
    · split
      · rfl
      · simp only
        split_ifs <;> rfl

theorem run_other (call : TerminalCall) (s : FencedPipeline)
    {other : Fin playerSavePipelineMaxSnapshots} (h : (call.run s).reserved ≠ some other) :
    ((call.run s).state.fences other).pid = (s.fences other).pid := by
  rcases call.run_cases s with ⟨-, result, hrun⟩ | ⟨-, -, hrun⟩ |
    ⟨-, revision, hrevision, hrun⟩
  · rw [hrun]
  · rw [hrun] at h ⊢
    exact congrArg _ (FencedPipeline.beginTerminalFence_other h)
  · rcases s.beginTerminalFence_cases call.pid with
      ⟨slot, _, hslot, -, -, hguards, -⟩ | ⟨hnone, -, -⟩
    · rw [hrun] at h ⊢
      rw [waits_reserved] at h
      have hne : other ≠ slot := by
        rintro rfl
        exact h hslot
      refine (waits_other hne _ _ (hguards.settleAll _).1).trans ?_
      exact (FencedPipeline.settleAll_pid _ _ other).trans
        (congrArg _ (FencedPipeline.beginTerminalFence_other h))
    · rw [hrevision] at hnone
      cases hnone

/-! ## Many refused calls -/

/-- A call, and what the other threads do until the next one. -/
def callStep (s : FencedPipeline) (e : TerminalCall × List Pipeline.Event) : FencedPipeline :=
  (e.1.run s).state.otherSteps e.2

/-- The snapshot is not admitted, and the slot is released all the same. -/
def RefusedAndFreed (s : FencedPipeline) (e : TerminalCall × List Pipeline.Event) : Prop :=
  (e.1.run s).admitted = false ∧
    (e.1.kind ≠ .ordinary ∨ ∀ revision, e.1.Begins s revision → e.1.SettledByOthers s revision)

def occupied (s : FencedPipeline) : Set (Fin playerSavePipelineMaxSnapshots) :=
  {slot | (s.fences slot).pid ≠ 0}

theorem callStep_occupied {e : TerminalCall × List Pipeline.Event} (h : RefusedAndFreed s e) :
    occupied (callStep s e) ⊆ occupied s := by
  intro slot hslot
  have hpid : ((callStep s e).fences slot).pid = ((e.1.run s).state.fences slot).pid :=
    FencedPipeline.settleAll_pid _ _ slot
  show (s.fences slot).pid ≠ 0
  by_cases hreserved : (e.1.run s).reserved = some slot
  · exact absurd (hpid.trans ((e.1.releases_iff s h.1).mpr h.2 slot hreserved)) hslot
  · rw [← e.1.run_other s hreserved, ← hpid]
    exact hslot

/-- Refused calls that release their slots never use the slots up, however many they are. -/
theorem refused_saves_occupy_no_more (calls : List (TerminalCall × List Pipeline.Event))
    (h : Along callStep RefusedAndFreed s calls) :
    occupied (Duris.run callStep s calls) ⊆ occupied s := by
  have hstep : ∀ t e, occupied t ⊆ occupied s → RefusedAndFreed t e →
      occupied (callStep t e) ⊆ occupied s :=
    fun _ _ hkept hfreed => (callStep_occupied hfreed).trans hkept
  exact run_invariant_along hstep calls subset_rfl h

/-- A terminal save whose snapshot was not admitted leaves no slot occupied exactly when it
is a death's, when it reserves none, or when somebody else's snapshot settles the revision it
waits for; and it touches nobody else's slot. -/
theorem refused_save_frees_its_slot_iff (call : TerminalCall) (s : FencedPipeline)
    (hrefused : (call.run s).admitted = false) :
    ((call.run s).Releases ↔ call.kind ≠ .ordinary ∨
      ∀ revision, call.Begins s revision → call.SettledByOthers s revision) ∧
    ∀ slot, (call.run s).reserved ≠ some slot →
      ((call.run s).state.fences slot).pid = (s.fences slot).pid :=
  ⟨call.releases_iff s hrefused, fun _ => call.run_other s⟩

/-- The refused save of a death gives its slot back. -/
theorem uncaptured_death_releases :
    TerminalReturn.Releases (run { uncaptured with kind := .death true false } loggedIn) :=
  (refused_save_frees_its_slot_iff _ loggedIn (by decide +kernel)).1.mpr (.inl (by decide))

end TerminalCall

end Duris.Player
