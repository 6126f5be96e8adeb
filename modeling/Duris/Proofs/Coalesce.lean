import Duris.Proofs.Revision

/-!
# Replacing an older snapshot by a newer one

Three places of the save path throw snapshots away: the pipeline replaces a
player's pending snapshot, the worker replaces its tail, and the journal drops
every frame a durable revision covers. None of them can see the player's
components, so they lean on a relation between captures: a later capture holds
every component of an earlier one that was not saved in between.

"Not saved" is the delicate word. `player_revision_acknowledge_durable` clears a
component at the revision of its own last mark, which may lie below the revision
of the earlier capture; so it is that mark, not the capture, an acknowledgement
has to reach.
-/

namespace Duris.Player

open PlayerRevisionEntry

theorem playerRevisionQueue_eq_some {states : RevisionStates} {pid : Pid} {r : Revision}
    {c : ComponentMask} (h : (playerRevisionQueue states pid).1 = some (r, c)) :
    ∃ state, states.lookup pid = some state ∧ r = state.currentRevision ∧
      c = state.unacknowledgedComponents := by
  cases hs : states.lookup pid with
  | none =>
      simp only [playerRevisionQueue, onEntry, hs] at h
      cases h
  | some state =>
      simp only [playerRevisionQueue, onEntry, hs, queue] at h
      split at h
      · cases h
      · cases h
        exact ⟨state, rfl, rfl, rfl⟩

theorem later_capture_contains (before between : List RevisionOp) (pid : Pid) (i : Nat)
    (r₁ r₂ : Revision) (c₁ c₂ : ComponentMask) (state : PlayerRevisionEntry) (m : Revision)
    (hstate : (run RevisionOp.apply ∅ before).lookup pid = some state)
    (hm : state.componentRevisions[i]? = some m)
    (hfirst : (playerRevisionQueue (run RevisionOp.apply ∅ before) pid).1 = some (r₁, c₁))
    (hsecond : (playerRevisionQueue
      (run RevisionOp.apply ∅ (before ++ .queue pid :: between)) pid).1 = some (r₂, c₂))
    (hi : c₁.getLsbD i = true)
    (hnot : NeverAcknowledged pid i m
      (run RevisionOp.apply ∅ (before ++ [.queue pid])) between) :
    m ≤ r₁ ∧ r₁ ≤ r₂ ∧ c₂.getLsbD i = true := by
  have hinv := (run_entries before entriesInv_empty).1
  rw [run_append, run_cons] at hsecond
  rw [run_append, run_cons, run_nil] at hnot
  generalize run RevisionOp.apply ∅ before = states at *
  obtain ⟨state', hstate', rfl, rfl⟩ := playerRevisionQueue_eq_some hfirst
  cases hstate.symm.trans hstate'
  have hentry := hinv pid state hstate
  have h14 : i < 14 := hentry.known i hi
  rw [Vector.getElem?_eq_getElem h14, Option.some.injEq] at hm
  subst hm
  have howes : PlayerOwes pid i state.componentRevisions[i] states :=
    ⟨state, hstate, hi, h14, BitVec.le_refl _⟩
  -- the capture itself acknowledges nothing, and `between` does not either
  have hqueued := apply_owes states (.queue pid) ⟨hinv, howes⟩ (fun h => h)
  obtain ⟨later, hlater, hbit, -⟩ := run_owes hqueued.1 hqueued.2 between hnot
  have hgrow := (apply_entries states (.queue pid) hinv).2.trans
    (run_entries between hqueued.1).2
  obtain ⟨last, hlast, rfl, rfl⟩ := playerRevisionQueue_eq_some hsecond
  cases hlater.symm.trans hlast
  obtain ⟨last', hlast', hgrows⟩ := hgrow pid state hstate
  cases hlast'.symm.trans hlast
  exact ⟨hentry.marked i h14, hgrows.1, hbit⟩

/-! ## What the save path holds

The save path seen from one player's entry: the snapshots ever captured, and those
some stage still holds. A capture may replace any of the held ones; an
application acknowledges its snapshot and drops the held ones its revision
covers, except those (death snapshots) it chooses to keep. -/

structure SnapshotCustody where
  state : PlayerRevisionEntry
  captured : List (Revision × ComponentMask) := []
  held : List (Revision × ComponentMask) := []

inductive CustodyEvent where
  | mark (components : ComponentMask)
  | capture (keep : Revision × ComponentMask → Bool)
  | durable (snapshot : Revision × ComponentMask) (keep : Revision × ComponentMask → Bool)

def SnapshotCustody.step (s : SnapshotCustody) : CustodyEvent → SnapshotCustody
  | .mark components => { s with state := (s.state.mark components).2 }
  | .capture keep =>
      match s.state.queue.1 with
      | none => s
      | some snapshot =>
          { state := s.state.queue.2
            captured := s.captured ++ [snapshot]
            held := s.held.filter keep ++ [snapshot] }
  | .durable snapshot keep =>
      if snapshot ∈ s.captured then
        { s with
          state := (s.state.acknowledgeDurable snapshot.1 snapshot.2).2
          held := s.held.filter fun old => decide (snapshot.1 < old.1) || keep old }
      else s

/-- A component still owed was marked above the acknowledged revision, is in every
capture at or above its mark, and, once captured, in a held one. -/
structure SnapshotCustody.Inv (s : SnapshotCustody) : Prop where
  entry : s.state.Inv
  captured : ∀ snapshot ∈ s.captured, snapshot.1 ≤ s.state.currentRevision ∧
    validComponents snapshot.2 = true
  heldCaptured : ∀ snapshot ∈ s.held, snapshot ∈ s.captured
  above : ∀ i (h : i < 14), s.state.unacknowledgedComponents.getLsbD i = true →
    s.state.acknowledgedRevision < s.state.componentRevisions[i]
  contains : ∀ i (h : i < 14), s.state.unacknowledgedComponents.getLsbD i = true →
    ∀ snapshot ∈ s.captured, s.state.componentRevisions[i] ≤ snapshot.1 →
      snapshot.2.getLsbD i = true
  covered : ∀ i (h : i < 14), s.state.unacknowledgedComponents.getLsbD i = true →
    s.state.dirtyComponents.getLsbD i = false →
    ∃ snapshot ∈ s.held, s.state.componentRevisions[i] ≤ snapshot.1

theorem validComponents_of_bits {components : ComponentMask} (hne : components ≠ 0)
    (h : ∀ i, components.getLsbD i = true → i < 14) : validComponents components = true := by
  simp only [validComponents, Bool.and_eq_true, bne_iff_ne, ne_eq, beq_iff_eq]
  refine ⟨hne, BitVec.eq_of_getLsbD_eq fun i hi => ?_⟩
  have hmask : ∀ j : Fin 64,
      playerCheckpointComponentAll.getLsbD j = decide (j.val < 14) := by decide
  rw [BitVec.getLsbD_and, BitVec.getLsbD_not, hmask ⟨i, hi⟩]
  cases hc : components.getLsbD i with
  | false => simp
  | true => simp [h i hc]

namespace SnapshotCustody

variable {s : SnapshotCustody}

theorem inv_mark (hinv : s.Inv) (components : ComponentMask) : (s.step (.mark components)).Inv := by
  have hentry := (mark_spec hinv.entry components).1
  simp only [step]
  unfold mark at hentry ⊢
  split at hentry
  · next hbad => rw [if_pos hbad]; exact { hinv with }
  · next hvalid =>
      rw [if_neg hvalid]
      split at hentry
      · next hmax =>
          rw [if_pos hmax]
          exact { hinv with entry := hentry }
      · next hmax =>
          rw [if_neg hmax]
          have hcur : s.state.currentRevision < s.state.currentRevision + 1 := by
            have hlt : s.state.currentRevision.toNat ≠ 2 ^ 64 - 1 := fun h =>
              hmax (BitVec.eq_of_toNat_eq (by rw [h, BitVec.toNat_allOnes]))
            bv_omega
          have hack := hinv.entry.acknowledged
          refine
            { entry := hentry
              captured := fun snapshot hs =>
                ⟨BitVec.le_trans (hinv.captured snapshot hs).1 (BitVec.le_of_lt hcur),
                  (hinv.captured snapshot hs).2⟩
              heldCaptured := hinv.heldCaptured
              above := ?_, contains := ?_, covered := ?_ }
          · intro i h hi
            simp only [Vector.getElem_ofFn]
            split
            · bv_omega
            · next hout =>
                rw [BitVec.getLsbD_or, Bool.or_eq_true] at hi
                exact hinv.above i h (hi.resolve_right
                  (fun hc => hout (and_componentBit_ne_zero.mpr hc)))
          · intro i h hi snapshot hs hle
            have hold := (hinv.captured snapshot hs).1
            simp only [Vector.getElem_ofFn] at hle
            split at hle
            · -- a capture is never ahead of the counter, so it is below this mark
              bv_omega
            · next hout =>
                rw [BitVec.getLsbD_or, Bool.or_eq_true] at hi
                exact hinv.contains i h (hi.resolve_right
                  (fun hc => hout (and_componentBit_ne_zero.mpr hc))) snapshot hs hle
          · intro i h hi hdirty
            rw [BitVec.getLsbD_or, Bool.or_eq_false_iff] at hdirty
            rw [BitVec.getLsbD_or, hdirty.2, Bool.or_false] at hi
            obtain ⟨snapshot, hs, hle⟩ := hinv.covered i h hi hdirty.1
            refine ⟨snapshot, hs, ?_⟩
            rw [Vector.getElem_ofFn, if_neg]
            · exact hle
            · intro hc
              have hbit := and_componentBit_ne_zero.mp hc
              rw [hdirty.2] at hbit
              cases hbit

theorem inv_capture (hinv : s.Inv) (keep : Revision × ComponentMask → Bool) :
    (s.step (.capture keep)).Inv := by
  have hentry := (queue_spec hinv.entry).1
  simp only [step]
  unfold queue at hentry ⊢
  split at hentry
  · next hzero => simp only [if_pos hzero]; exact hinv
  · next hne =>
      simp only [if_neg hne]
      refine
        { entry := hentry
          captured := ?_, heldCaptured := ?_, above := hinv.above
          contains := ?_, covered := ?_ }
      · intro snapshot hs
        rw [List.mem_append, List.mem_singleton] at hs
        obtain hs | rfl := hs
        · exact hinv.captured snapshot hs
        · exact ⟨BitVec.le_refl _, validComponents_of_bits hne hinv.entry.known⟩
      · intro snapshot hs
        rw [List.mem_append, List.mem_singleton] at hs ⊢
        obtain hs | rfl := hs
        · exact Or.inl (hinv.heldCaptured snapshot (List.mem_of_mem_filter hs))
        · exact Or.inr rfl
      · intro i h hi snapshot hs hle
        rw [List.mem_append, List.mem_singleton] at hs
        obtain hs | rfl := hs
        · exact hinv.contains i h hi snapshot hs hle
        · exact hi
      · intro i h hi _
        exact ⟨_, List.mem_append_right _ (List.mem_singleton.mpr rfl),
          hinv.entry.marked i h⟩

/-- A component that outlives the acknowledgement of a capture was marked above
that capture. -/
theorem marked_above (hinv : s.Inv) {snapshot : Revision × ComponentMask}
    (hs : snapshot ∈ s.captured) {i : Nat} (h : i < 14)
    (hi : (s.state.without (s.state.clearedMask snapshot.1 snapshot.2
      (List.finRange 14))).unacknowledgedComponents.getLsbD i = true) :
    s.state.unacknowledgedComponents.getLsbD i = true ∧
      snapshot.1 < s.state.componentRevisions[i] := by
  have hlt : i < 64 := by omega
  simp only [without, BitVec.getLsbD_and, BitVec.getLsbD_not, hlt, decide_true,
    Bool.true_and, Bool.and_eq_true, Bool.not_eq_true'] at hi
  refine ⟨hi.1, ?_⟩
  by_contra hnot
  have hle : s.state.componentRevisions[i] ≤ snapshot.1 := by bv_omega
  have hcleared := clearedMask_getLsbD.mpr
    ⟨h, hinv.contains i h hi.1 snapshot hs hle, hle⟩
  rw [hi.2] at hcleared
  cases hcleared

theorem inv_durable (hinv : s.Inv) (snapshot : Revision × ComponentMask)
    (keep : Revision × ComponentMask → Bool) : (s.step (.durable snapshot keep)).Inv := by
  simp only [step]
  split
  swap
  · exact hinv
  next hs =>
  have hentry := (acknowledgeDurable_spec hinv.entry snapshot.1 snapshot.2).1
  obtain ⟨hcurrent, hvalid⟩ := hinv.captured snapshot hs
  have hheld : ∀ old ∈ s.held.filter (fun old => decide (snapshot.1 < old.1) || keep old),
      old ∈ s.captured := fun old ho => hinv.heldCaptured old (List.mem_of_mem_filter ho)
  have hkeep : ∀ old ∈ s.held, snapshot.1 < old.1 →
      old ∈ s.held.filter (fun old => decide (snapshot.1 < old.1) || keep old) :=
    fun old ho hlt => List.mem_filter.mpr ⟨ho, by simp [hlt]⟩
  unfold acknowledgeDurable at hentry ⊢
  split at hentry
  · next hrefused =>
      -- refused because it is stale: whatever is owed was marked above it anyway
      have hstale : snapshot.1 < s.state.acknowledgedRevision := by
        rcases hrefused with hbad | hstale | hahead
        · rw [hvalid] at hbad; cases hbad
        · exact hstale
        · bv_omega
      rw [if_pos hrefused]
      refine { hinv with heldCaptured := hheld, covered := ?_ }
      intro i h hi hdirty
      obtain ⟨old, ho, hle⟩ := hinv.covered i h hi hdirty
      have habove := hinv.above i h hi
      exact ⟨old, hkeep old ho (by bv_omega), hle⟩
  · next hok =>
      rw [if_neg hok]
      simp only [clearAcknowledgedComponents_eq] at hentry ⊢
      refine
        { entry := hentry
          captured := hinv.captured
          heldCaptured := hheld
          above := ?_, contains := ?_, covered := ?_ }
      · intro i h hi
        obtain ⟨hold, hmark⟩ := marked_above hinv hs h hi
        have habove := hinv.above i h hold
        show (if s.state.acknowledgedRevision < snapshot.1 then snapshot.1
          else s.state.acknowledgedRevision) < s.state.componentRevisions[i]
        split
        · exact hmark
        · exact habove
      · intro i h hi old ho hle
        obtain ⟨hold, -⟩ := marked_above hinv hs h hi
        exact hinv.contains i h hold old ho hle
      · intro i h hi hdirty
        obtain ⟨hold, hmark⟩ := marked_above hinv hs h hi
        have hclean : s.state.dirtyComponents.getLsbD i = false := by
          have hlt : i < 64 := by omega
          simp only [without, BitVec.getLsbD_and, BitVec.getLsbD_not, hlt, decide_true,
            Bool.true_and, Bool.and_eq_true, Bool.not_eq_true'] at hi hdirty
          simpa [hi.2] using hdirty
        obtain ⟨old, ho, hle⟩ := hinv.covered i h hold hclean
        exact ⟨old, hkeep old ho (by bv_omega), hle⟩

theorem inv_run (durableRevision : Revision) (events : List CustodyEvent) :
    (run step ⟨hydrated durableRevision, [], []⟩ events).Inv := by
  refine run_invariant ?_ events ?_
  · intro s e hinv
    cases e with
    | mark components => exact inv_mark hinv components
    | capture keep => exact inv_capture hinv keep
    | durable snapshot keep => exact inv_durable hinv snapshot keep
  · have hnone : ∀ i, (hydrated durableRevision).unacknowledgedComponents.getLsbD i ≠ true := by
      intro i; simp [hydrated]
    exact
      { entry := inv_hydrated durableRevision
        captured := by simp
        heldCaptured := by simp
        above := fun i _ hi => absurd hi (hnone i)
        contains := fun i _ hi => absurd hi (hnone i)
        covered := fun i _ hi => absurd hi (hnone i) }

end SnapshotCustody

/-- Coalescing is safe. A later capture holds every component of an earlier one
that no accepted acknowledgement named at or above the component's last mark; and
if each capture may replace any snapshot still held and each durable revision
drops the snapshots it covers, every component owed is either marked since the
last capture or in a held snapshot at least as new as its mark. -/
theorem coalescing_keeps_unsaved_components :
    (∀ (before between : List RevisionOp) (pid : Pid) (i : Nat) (r₁ r₂ : Revision)
      (c₁ c₂ : ComponentMask) (state : PlayerRevisionEntry) (m : Revision),
      (run RevisionOp.apply ∅ before).lookup pid = some state →
      state.componentRevisions[i]? = some m →
      (playerRevisionQueue (run RevisionOp.apply ∅ before) pid).1 = some (r₁, c₁) →
      (playerRevisionQueue
        (run RevisionOp.apply ∅ (before ++ .queue pid :: between)) pid).1 = some (r₂, c₂) →
      c₁.getLsbD i = true →
      NeverAcknowledged pid i m (run RevisionOp.apply ∅ (before ++ [.queue pid])) between →
      m ≤ r₁ ∧ r₁ ≤ r₂ ∧ c₂.getLsbD i = true) ∧
    ∀ (durableRevision : Revision) (events : List CustodyEvent) (i : Nat) (h : i < 14),
      let s := run SnapshotCustody.step ⟨hydrated durableRevision, [], []⟩ events
      s.state.unacknowledgedComponents.getLsbD i = true →
      s.state.dirtyComponents.getLsbD i = true ∨
        ∃ snapshot ∈ s.held, snapshot.2.getLsbD i = true ∧
          s.state.componentRevisions[i] ≤ snapshot.1 := by
  refine ⟨later_capture_contains, ?_⟩
  intro durableRevision events i h s hi
  have hinv : s.Inv := SnapshotCustody.inv_run durableRevision events
  cases hd : s.state.dirtyComponents.getLsbD i with
  | true => exact Or.inl rfl
  | false =>
      obtain ⟨snapshot, hheld, hle⟩ := hinv.covered i h hi hd
      exact Or.inr ⟨snapshot, hheld,
        hinv.contains i h hi snapshot (hinv.heldCaptured snapshot hheld) hle, hle⟩

/-- The mark, not the earlier capture, is what an acknowledgement has to reach:
component 0 is captured at 1 and again at 2 with component 7, acknowledged at 1,
and rightly missing from the capture at 3. -/
theorem capture_revision_is_not_the_bound :
    ¬ ∀ (before between : List RevisionOp) (pid : Pid) (i : Nat) (r₁ r₂ : Revision)
      (c₁ c₂ : ComponentMask),
      (∀ op ∈ between, (∃ components, op = .mark pid components) ∨ op = .queue pid ∨
        ∃ revision components, op = .acknowledgeDurable pid revision components) →
      (playerRevisionQueue (run RevisionOp.apply ∅ before) pid).1 = some (r₁, c₁) →
      (playerRevisionQueue
        (run RevisionOp.apply ∅ (before ++ .queue pid :: between)) pid).1 = some (r₂, c₂) →
      r₁ < r₂ → c₁.getLsbD i = true →
      NeverAcknowledged pid i r₁ ∅ (before ++ .queue pid :: between) →
      c₂.getLsbD i = true := by
  intro h
  have hbit := h
    [.hydrate 7 0, .mark 7 0x1, .queue 7, .mark 7 0x80]
    [.acknowledgeDurable 7 1 0x1, .mark 7 0x2000]
    7 0 2 3 0x81 0x2080
    (by simp) (by decide) (by decide) (by decide) (by decide)
    (by simp [NeverAcknowledged, Along, RevisionOp.Acknowledges])
  exact absurd hbit (by decide)

end Duris.Player
