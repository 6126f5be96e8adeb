import Duris.Lib.Run
import Duris.Player.RevisionState

/-!
# The revision state never loses a dirty bit

Eight operations rewrite four masks and four revisions of one entry. What ties
them together is `PlayerRevisionEntry.Inv`: the three working masks sit inside
the unacknowledged one, no revision is ahead of the counter, and as long as the
acknowledged revision lags behind the counter there is an unacknowledged
component that was marked at the counter's own value. The last clause is the one
to find. A mark creates the witness, an acknowledgement can only clear it by
naming a revision at least that high, and then the acknowledged revision has
caught up; so an entry with nothing unacknowledged has nothing ahead either, and
`player_revision_hydrate`, which assigns the counter outright, cannot lower it.

The acknowledgement loop is read once, as removing one mask from three fields
(`clearAcknowledgedComponents_eq`); its bits are the components that were named
and not marked since (`clearedMask_getLsbD`).
-/

namespace Duris.Player

variable {components : ComponentMask} {i : Nat}

/-- Every component of `a` is one of `b`. -/
def Within (a b : ComponentMask) : Prop :=
  ∀ i, a.getLsbD i = true → b.getLsbD i = true

theorem Within.refl (a : ComponentMask) : Within a a := fun _ h => h

theorem within_zero (b : ComponentMask) : Within 0 b := by
  intro i h
  simp at h

theorem and_within (a m : ComponentMask) : Within (a &&& m) a := by
  intro i h
  rw [BitVec.getLsbD_and, Bool.and_eq_true] at h
  exact h.1

variable {a b : ComponentMask} {bound : Revision}

theorem Within.and_left (m : ComponentMask) (h : Within a b) : Within (a &&& m) (b &&& m) := by
  intro i hi
  rw [BitVec.getLsbD_and, Bool.and_eq_true] at hi ⊢
  exact ⟨h i hi.1, hi.2⟩

theorem Within.or_right (m : ComponentMask) (h : Within a b) : Within a (b ||| m) := by
  intro i hi
  rw [BitVec.getLsbD_or, h i hi, Bool.true_or]

theorem Within.or_both (m : ComponentMask) (h : Within a b) : Within (a ||| m) (b ||| m) := by
  intro i hi
  rw [BitVec.getLsbD_or, Bool.or_eq_true] at hi ⊢
  exact hi.imp_left (h i)

theorem exists_getLsbD (h : a ≠ 0) : ∃ i, a.getLsbD i = true := by
  by_contra hno
  refine h (BitVec.eq_of_getLsbD_eq fun i _ => ?_)
  have hi : a.getLsbD i = false := by
    cases ha : a.getLsbD i with
    | false => rfl
    | true => exact absurd ⟨i, ha⟩ hno
  simp [hi]

theorem componentBit_getLsbD (index : Fin 14) (i : Nat) :
    (componentBit index).getLsbD i = decide (i = index.val) := by
  rw [componentBit, BitVec.getLsbD_shiftLeft, BitVec.getLsbD_one]
  by_cases h : i = index.val
  · subst h; simp; omega
  · simp [h]; omega

theorem and_componentBit_ne_zero {index : Fin 14} :
    components &&& componentBit index ≠ 0 ↔ components.getLsbD index = true := by
  constructor
  · intro h
    obtain ⟨i, hi⟩ := exists_getLsbD h
    rw [BitVec.getLsbD_and, componentBit_getLsbD, Bool.and_eq_true, decide_eq_true_eq] at hi
    rw [← hi.2]
    exact hi.1
  · intro h hzero
    have hbit := congrArg (fun m => m.getLsbD index.val) hzero
    simp [BitVec.getLsbD_and, componentBit_getLsbD, h] at hbit

theorem validComponents_bits (h : validComponents components = true) :
    components ≠ 0 ∧ ∀ i, components.getLsbD i = true → i < 14 := by
  simp only [validComponents, Bool.and_eq_true, bne_iff_ne, ne_eq, beq_iff_eq] at h
  refine ⟨h.1, fun i hi => ?_⟩
  by_contra hge
  have hbit : (components &&& ~~~playerCheckpointComponentAll).getLsbD i = false := by
    rw [h.2]; simp
  have hlt : i < 64 := BitVec.lt_of_getLsbD hi
  have hmask : ∀ j : Fin 64,
      playerCheckpointComponentAll.getLsbD j = decide (j.val < 14) := by decide
  have hall : playerCheckpointComponentAll.getLsbD i = false := by
    rw [hmask ⟨i, hlt⟩]
    simpa using hge
  simp only [BitVec.getLsbD_and, BitVec.getLsbD_not, hi, hall, hlt] at hbit
  exact absurd hbit (by simp)

theorem zero_le_revision (r : Revision) : 0 ≤ r := by bv_omega

/-! The acknowledged revision is raised, never assigned: these three lemmas are all
the specs below need of that. -/

theorem raise_le {a b : Revision} [Decidable (a < b)] (ha : a ≤ bound) (hb : b ≤ bound) :
    (if a < b then b else a) ≤ bound := by
  by_cases h : a < b
  · rw [if_pos h]; exact hb
  · rw [if_neg h]; exact ha

theorem le_raise (a b : Revision) [Decidable (a < b)] : a ≤ if a < b then b else a := by
  by_cases h : a < b
  · rw [if_pos h]; exact BitVec.le_of_lt h
  · rw [if_neg h]; exact BitVec.le_refl _

theorem lt_of_raise_lt {a b : Revision} [Decidable (a < b)] (h : (if a < b then b else a) < bound) :
    a < bound ∧ b < bound := by
  by_cases hab : a < b
  · rw [if_pos hab] at h; exact ⟨by bv_omega, h⟩
  · rw [if_neg hab] at h; exact ⟨h, by bv_omega⟩

theorem zeroed_le {p : Prop} [Decidable p] {r : Revision} (h : r ≤ bound) :
    (if p then 0 else r) ≤ bound := by
  by_cases hp : p
  · rw [if_pos hp]; exact zero_le_revision _
  · rw [if_neg hp]; exact h

namespace PlayerRevisionEntry

/-! ## What an acknowledgement clears -/

/-- The mask one acknowledgement removes from `state`. -/
def clearedMask (state : PlayerRevisionEntry) (revision : Revision)
    (components : ComponentMask) (indices : List (Fin 14)) : ComponentMask :=
  indices.foldl (fun mask index =>
    if state.Clears revision components index then mask ||| componentBit index else mask) 0

/-- `state` with the components of `mask` taken out of the three masks an
acknowledgement clears. -/
def without (state : PlayerRevisionEntry) (mask : ComponentMask) : PlayerRevisionEntry :=
  { state with
    unacknowledgedComponents := state.unacknowledgedComponents &&& ~~~mask
    dirtyComponents := state.dirtyComponents &&& ~~~mask
    queuedComponents := state.queuedComponents &&& ~~~mask }

theorem clearFold_eq (state : PlayerRevisionEntry) (revision : Revision)
    (components : ComponentMask) :
    ∀ (indices : List (Fin 14)) (mask : ComponentMask),
      indices.foldl (clearComponent revision components) (state.without mask) =
        state.without (indices.foldl (fun m index =>
          if state.Clears revision components index then m ||| componentBit index
          else m) mask) := by
  intro indices
  induction indices with
  | nil => intro mask; rfl
  | cons index indices ih =>
      intro mask
      rw [List.foldl_cons, List.foldl_cons, ← ih]
      congr 1
      by_cases hc : state.Clears revision components index
      · rw [if_pos hc]
        refine (if_pos hc).trans ?_
        simp only [without, BitVec.not_or, BitVec.and_assoc]
      · rw [if_neg hc]
        exact if_neg hc

theorem without_zero (state : PlayerRevisionEntry) : state.without 0 = state := by
  have hand : ∀ x : ComponentMask, x &&& ~~~(0 : ComponentMask) = x := fun x => by
    show x &&& ~~~(0#64) = x
    rw [BitVec.not_zero, BitVec.and_allOnes]
  cases state
  simp only [without, hand]

theorem clearAcknowledgedComponents_eq (state : PlayerRevisionEntry) (revision : Revision)
    (components : ComponentMask) :
    state.clearAcknowledgedComponents revision components =
      state.without (state.clearedMask revision components (List.finRange 14)) := by
  have h := clearFold_eq state revision components (List.finRange 14) 0
  rw [without_zero] at h
  exact h

theorem clearedFold_getLsbD (state : PlayerRevisionEntry) (revision : Revision)
    (components : ComponentMask) (i : Nat) :
    ∀ (indices : List (Fin 14)) (mask : ComponentMask),
      (indices.foldl (fun m index =>
        if state.Clears revision components index then m ||| componentBit index
        else m) mask).getLsbD i = true ↔
      mask.getLsbD i = true ∨ ∃ index ∈ indices, i = index.val ∧
        state.Clears revision components index := by
  intro indices
  induction indices with
  | nil => intro mask; simp
  | cons index indices ih =>
      intro mask
      rw [List.foldl_cons, ih]
      by_cases hc : state.Clears revision components index
      · rw [if_pos hc, BitVec.getLsbD_or, componentBit_getLsbD, Bool.or_eq_true,
          decide_eq_true_eq, List.exists_mem_cons_iff, or_assoc]
        refine or_congr_right (or_congr_left ?_)
        constructor
        · rintro rfl; exact ⟨rfl, hc⟩
        · exact And.left
      · rw [if_neg hc, List.exists_mem_cons_iff]
        refine or_congr_right ?_
        constructor
        · exact Or.inr
        · rintro (⟨rfl, h⟩ | h)
          · exact absurd h hc
          · exact h

variable {state : PlayerRevisionEntry} {revision : Revision} {components : ComponentMask}

/-- A component is cleared when the acknowledgement names it and no mark of it is
newer than the acknowledged revision. -/
theorem clearedMask_getLsbD {i : Nat} :
    (state.clearedMask revision components (List.finRange 14)).getLsbD i = true ↔
      ∃ h : i < 14, components.getLsbD i = true ∧
        state.componentRevisions[i] ≤ revision := by
  rw [clearedMask, clearedFold_getLsbD]
  constructor
  · rintro (hzero | ⟨index, -, rfl, hbit, hle⟩)
    · simp at hzero
    · exact ⟨index.isLt, and_componentBit_ne_zero.mp hbit, hle⟩
  · rintro ⟨hi, hbit, hle⟩
    exact Or.inr ⟨⟨i, hi⟩, List.mem_finRange _, rfl,
      and_componentBit_ne_zero.mpr hbit, hle⟩

/-! ## The invariant of an entry -/

structure Inv (state : PlayerRevisionEntry) : Prop where
  known : ∀ i, state.unacknowledgedComponents.getLsbD i = true → i < 14
  dirty : Within state.dirtyComponents state.unacknowledgedComponents
  queued : Within state.queuedComponents state.unacknowledgedComponents
  inflight : Within state.inflightComponents state.unacknowledgedComponents
  acknowledged : state.acknowledgedRevision ≤ state.currentRevision
  marked : ∀ i (h : i < 14), state.componentRevisions[i] ≤ state.currentRevision
  queuedRevision : state.queuedRevision ≤ state.currentRevision
  inflightRevision : state.inflightRevision ≤ state.currentRevision
  ahead : state.acknowledgedRevision < state.currentRevision →
    ∃ i, ∃ h : i < 14, state.unacknowledgedComponents.getLsbD i = true ∧
      state.componentRevisions[i] = state.currentRevision

def Grows (before after : PlayerRevisionEntry) : Prop :=
  before.currentRevision ≤ after.currentRevision ∧
    before.acknowledgedRevision ≤ after.acknowledgedRevision

theorem Grows.refl (state : PlayerRevisionEntry) : Grows state state :=
  ⟨BitVec.le_refl _, BitVec.le_refl _⟩

theorem Grows.trans {a b c : PlayerRevisionEntry} (hab : Grows a b) (hbc : Grows b c) :
    Grows a c :=
  ⟨BitVec.le_trans hab.1 hbc.1, BitVec.le_trans hab.2 hbc.2⟩

/-- Component `i` is still owed at revision `r` or later. -/
def Owes (state : PlayerRevisionEntry) (i : Nat) (r : Revision) : Prop :=
  state.unacknowledgedComponents.getLsbD i = true ∧
    ∃ h : i < 14, r ≤ state.componentRevisions[i]

theorem Inv.caught_up (hinv : state.Inv) (h : state.unacknowledgedComponents = 0) :
    state.acknowledgedRevision = state.currentRevision := by
  have hle := hinv.acknowledged
  by_contra hne
  obtain ⟨i, -, hbit, -⟩ := hinv.ahead (by bv_omega)
  rw [h] at hbit
  simp at hbit

theorem inv_hydrated (durableRevision : Revision) : (hydrated durableRevision).Inv where
  known := by intro i h; simp [hydrated] at h
  dirty := within_zero _
  queued := within_zero _
  inflight := within_zero _
  acknowledged := BitVec.le_refl _
  marked := by intro i h; simp [hydrated]
  queuedRevision := zero_le_revision _
  inflightRevision := zero_le_revision _
  ahead := fun h => absurd h (BitVec.lt_irrefl _)

/-! ### One lemma for each operation

Each says that the invariant is kept, that no revision goes back, and that what
the entry owes is still owed unless an accepted acknowledgement named it. -/

theorem hydrate_spec (hinv : state.Inv) (durableRevision : Revision) :
    (state.hydrate durableRevision).2.Inv ∧
      Grows state (state.hydrate durableRevision).2 ∧
      ∀ i r, state.Owes i r → (state.hydrate durableRevision).2.Owes i r := by
  unfold hydrate
  split
  · exact ⟨hinv, Grows.refl _, fun _ _ h => h⟩
  · next hidle =>
      simp only [not_or, ne_eq, not_not] at hidle
      obtain ⟨hunack, hqueued, hinflight⟩ := hidle
      have hcaught := hinv.caught_up hunack
      split
      · exact ⟨hinv, Grows.refl _, fun _ _ h => h⟩
      · next hnotless =>
          have hle : state.currentRevision ≤ durableRevision := by
            rw [← hcaught]; bv_omega
          have hq := hinv.queuedRevision
          have hf := hinv.inflightRevision
          refine ⟨?_, ⟨hle, by rw [hcaught]; exact hle⟩, ?_⟩
          · exact
              { known := hinv.known
                dirty := hinv.dirty
                queued := hinv.queued
                inflight := hinv.inflight
                acknowledged := BitVec.le_refl _
                marked := by intro i h; simp
                queuedRevision := BitVec.le_trans hq hle
                inflightRevision := BitVec.le_trans hf hle
                ahead := fun h => absurd h (BitVec.lt_irrefl _) }
          · rintro i r ⟨hbit, -⟩
            rw [hunack] at hbit
            simp at hbit

theorem mark_spec (hinv : state.Inv) (components : ComponentMask) :
    (state.mark components).2.Inv ∧ Grows state (state.mark components).2 ∧
      (∀ i r, state.Owes i r → (state.mark components).2.Owes i r) ∧
      ∀ i r, (state.mark components).1 = some r → components.getLsbD i = true →
        (state.mark components).2.Owes i r := by
  unfold mark
  split
  · exact ⟨hinv, Grows.refl _, fun _ _ h => h, fun _ _ h => by cases h⟩
  · next hvalid =>
      simp only [Bool.or_eq_true, Bool.not_eq_true', not_or, Bool.not_eq_false] at hvalid
      obtain ⟨hne, hsmall⟩ := validComponents_bits hvalid.1
      split
      · exact ⟨{ hinv with }, Grows.refl _, fun _ _ h => h, fun _ _ h => by cases h⟩
      · next hmax =>
          have hcur : state.currentRevision < state.currentRevision + 1 := by
            have hlt : state.currentRevision.toNat ≠ 2 ^ 64 - 1 := fun h =>
              hmax (BitVec.eq_of_toNat_eq (by rw [h, BitVec.toNat_allOnes]))
            bv_omega
          have hack := hinv.acknowledged
          refine ⟨?_, ⟨BitVec.le_of_lt hcur, BitVec.le_refl _⟩, ?_, ?_⟩
          · exact
              { known := by
                  intro i hi
                  rw [BitVec.getLsbD_or, Bool.or_eq_true] at hi
                  exact hi.elim (hinv.known i) (hsmall i)
                dirty := hinv.dirty.or_both _
                queued := hinv.queued.or_right _
                inflight := hinv.inflight.or_right _
                acknowledged := BitVec.le_trans hack (BitVec.le_of_lt hcur)
                marked := by
                  intro i h
                  have hi := hinv.marked i h
                  simp only [Vector.getElem_ofFn]
                  split
                  · exact BitVec.le_refl _
                  · exact BitVec.le_trans hi (BitVec.le_of_lt hcur)
                queuedRevision := BitVec.le_trans hinv.queuedRevision (BitVec.le_of_lt hcur)
                inflightRevision :=
                  BitVec.le_trans hinv.inflightRevision (BitVec.le_of_lt hcur)
                ahead := by
                  intro _
                  obtain ⟨i, hi⟩ := exists_getLsbD hne
                  refine ⟨i, hsmall i hi, ?_, ?_⟩
                  · rw [BitVec.getLsbD_or, hi, Bool.or_true]
                  · rw [Vector.getElem_ofFn,
                      if_pos (and_componentBit_ne_zero.mpr (by exact hi))] }
          · rintro i r ⟨hbit, h, hr⟩
            refine ⟨by rw [BitVec.getLsbD_or, hbit, Bool.true_or], h, ?_⟩
            have hi := hinv.marked i h
            simp only [Vector.getElem_ofFn]
            split
            · bv_omega
            · exact hr
          · rintro i r hr hi
            cases hr
            refine ⟨by rw [BitVec.getLsbD_or, hi, Bool.or_true], hsmall i hi, ?_⟩
            rw [Vector.getElem_ofFn, if_pos (and_componentBit_ne_zero.mpr (by exact hi))]
            exact BitVec.le_refl _

theorem queue_spec (hinv : state.Inv) :
    state.queue.2.Inv ∧ Grows state state.queue.2 ∧
      ∀ i r, state.Owes i r → state.queue.2.Owes i r := by
  unfold queue
  split
  · exact ⟨hinv, Grows.refl _, fun _ _ h => h⟩
  · exact ⟨{ hinv with
      dirty := within_zero _
      queued := Within.refl _
      queuedRevision := BitVec.le_refl _ }, Grows.refl _, fun _ _ h => h⟩

theorem beginInflight_spec (hinv : state.Inv) (revision : Revision) (components : ComponentMask) :
    (state.beginInflight revision components).2.Inv ∧
      Grows state (state.beginInflight revision components).2 ∧
      ∀ i r, state.Owes i r → (state.beginInflight revision components).2.Owes i r := by
  unfold beginInflight
  split
  · exact ⟨hinv, Grows.refl _, fun _ _ h => h⟩
  · next hok =>
      simp only [not_or, ne_eq, not_not] at hok
      obtain ⟨-, hrevision, hcomponents, -⟩ := hok
      exact ⟨{ hinv with
        queued := within_zero _
        inflight := by rw [hcomponents]; exact hinv.queued
        queuedRevision := zero_le_revision _
        inflightRevision := by rw [hrevision]; exact hinv.queuedRevision },
        Grows.refl _, fun _ _ h => h⟩

theorem failInflight_spec (hinv : state.Inv) (revision : Revision) (components : ComponentMask) :
    (state.failInflight revision components).2.Inv ∧
      Grows state (state.failInflight revision components).2 ∧
      ∀ i r, state.Owes i r → (state.failInflight revision components).2.Owes i r := by
  unfold failInflight
  split
  · exact ⟨hinv, Grows.refl _, fun _ _ h => h⟩
  · exact ⟨{ hinv with
      inflight := within_zero _
      queued := Within.refl _
      queuedRevision := BitVec.le_refl _
      inflightRevision := zero_le_revision _ }, Grows.refl _, fun _ _ h => h⟩

/-! The two acknowledgements share the clearing loop; they differ in their guards
and in what they do to the in-flight mask. -/

theorem without_owes {i : Nat} {r : Revision} (howes : state.Owes i r)
    (hnot : ¬ (components.getLsbD i = true ∧ r ≤ revision)) :
    (state.without (state.clearedMask revision components (List.finRange 14))).Owes i r := by
  obtain ⟨hbit, h, hr⟩ := howes
  refine ⟨?_, h, hr⟩
  have hkept : (state.clearedMask revision components (List.finRange 14)).getLsbD i = false := by
    cases hc : (state.clearedMask revision components (List.finRange 14)).getLsbD i with
    | false => rfl
    | true =>
        obtain ⟨_, hnamed, hle⟩ := clearedMask_getLsbD.mp hc
        exact absurd ⟨hnamed, BitVec.le_trans hr hle⟩ hnot
  have hlt : i < 64 := by omega
  simp only [without, BitVec.getLsbD_and, BitVec.getLsbD_not, hbit, hkept, hlt]
  rfl

theorem without_ahead (hinv : state.Inv) (hack : state.acknowledgedRevision < state.currentRevision)
    (hrev : revision < state.currentRevision) :
    ∃ i, ∃ h : i < 14,
      (state.without (state.clearedMask revision components (List.finRange 14))
        ).unacknowledgedComponents.getLsbD i = true ∧
      state.componentRevisions[i] = state.currentRevision := by
  obtain ⟨i, h, hbit, hcur⟩ := hinv.ahead hack
  have howes : state.Owes i state.currentRevision :=
    ⟨hbit, h, by rw [hcur]; exact BitVec.le_refl _⟩
  have hnot : ¬ (components.getLsbD i = true ∧ state.currentRevision ≤ revision) :=
    fun hc => absurd hc.2 (by bv_omega)
  have hkept := without_owes howes hnot
  exact ⟨i, h, hkept.1, hcur⟩

theorem acknowledge_spec (hinv : state.Inv) (revision : Revision) (components : ComponentMask) :
    (state.acknowledge revision components).2.Inv ∧
      Grows state (state.acknowledge revision components).2 ∧
      ∀ i r, state.Owes i r →
        ((state.acknowledge revision components).1 = true →
          ¬ (components.getLsbD i = true ∧ r ≤ revision)) →
        (state.acknowledge revision components).2.Owes i r := by
  unfold acknowledge
  split
  · exact ⟨hinv, Grows.refl _, fun _ _ h _ => h⟩
  · next hok =>
      simp only [not_or, ne_eq, not_not] at hok
      have hle : revision ≤ state.currentRevision := by
        rw [hok.1]; exact hinv.inflightRevision
      have hack := hinv.acknowledged
      simp only [clearAcknowledgedComponents_eq]
      refine ⟨?_, ⟨BitVec.le_refl _, ?_⟩, ?_⟩
      · exact
          { known := fun i hi => hinv.known i (and_within _ _ i hi)
            dirty := hinv.dirty.and_left _
            queued := hinv.queued.and_left _
            inflight := within_zero _
            acknowledged := raise_le hack hle
            marked := hinv.marked
            queuedRevision := hinv.queuedRevision
            inflightRevision := zero_le_revision _
            ahead := by
              intro hlt
              obtain ⟨hold, hnew⟩ := lt_of_raise_lt hlt
              exact without_ahead hinv hold hnew }
      · exact le_raise _ _
      · intro i r howes hnot
        exact without_owes howes (hnot trivial)

theorem acknowledgeDurable_spec (hinv : state.Inv) (revision : Revision)
    (components : ComponentMask) :
    (state.acknowledgeDurable revision components).2.Inv ∧
      Grows state (state.acknowledgeDurable revision components).2 ∧
      ∀ i r, state.Owes i r →
        ((state.acknowledgeDurable revision components).1 = true →
          ¬ (components.getLsbD i = true ∧ r ≤ revision)) →
        (state.acknowledgeDurable revision components).2.Owes i r := by
  unfold acknowledgeDurable
  split
  · exact ⟨hinv, Grows.refl _, fun _ _ h _ => h⟩
  · next hok =>
      simp only [not_or] at hok
      have hle : revision ≤ state.currentRevision := by bv_omega
      have hack := hinv.acknowledged
      simp only [clearAcknowledgedComponents_eq]
      refine ⟨?_, ⟨BitVec.le_refl _, ?_⟩, ?_⟩
      · exact
          { known := fun i hi => hinv.known i (and_within _ _ i hi)
            dirty := hinv.dirty.and_left _
            queued := hinv.queued.and_left _
            inflight := by
              -- a component in flight was unacknowledged, so it goes exactly when
              -- the acknowledgement cleared it
              intro i hi
              have hlt : i < 64 := BitVec.lt_of_getLsbD hi
              simp only [without, BitVec.getLsbD_and, BitVec.getLsbD_not, hlt,
                decide_true, Bool.true_and, Bool.and_eq_true] at hi ⊢
              have hbit := hinv.inflight i hi.1
              simp only [hbit, Bool.true_and, Bool.not_not] at hi
              exact ⟨hbit, hi.2⟩
            acknowledged := raise_le hack hle
            marked := hinv.marked
            queuedRevision := zeroed_le hinv.queuedRevision
            inflightRevision := zeroed_le hinv.inflightRevision
            ahead := by
              intro hlt
              obtain ⟨hold, hnew⟩ := lt_of_raise_lt hlt
              exact without_ahead hinv hold hnew }
      · exact le_raise _ _
      · intro i r howes hnot
        exact without_owes howes (hnot trivial)

theorem endSession_spec (hinv : state.Inv) :
    state.endSession.Inv ∧ Grows state state.endSession ∧
      ∀ i r, state.Owes i r → state.endSession.Owes i r :=
  ⟨{ hinv with }, Grows.refl _, fun _ _ h => h⟩

end PlayerRevisionEntry

/-! ## The operations on the map

An operation touches the entry of its own player and nobody else's, and it only
creates an entry by hydrating. -/

def RevisionOp.pid : RevisionOp → Pid
  | .hydrate pid _ | .mark pid _ | .queue pid | .beginInflight pid _ _
  | .acknowledge pid _ _ | .acknowledgeDurable pid _ _ | .failInflight pid _ _
  | .endSession pid => pid

/-- What an operation does to the entry it finds. -/
def RevisionOp.onState (state : PlayerRevisionEntry) : RevisionOp → PlayerRevisionEntry
  | .hydrate _ revision => (state.hydrate revision).2
  | .mark _ components => (state.mark components).2
  | .queue _ => state.queue.2
  | .beginInflight _ revision components => (state.beginInflight revision components).2
  | .acknowledge _ revision components => (state.acknowledge revision components).2
  | .acknowledgeDurable _ revision components =>
      (state.acknowledgeDurable revision components).2
  | .failInflight _ revision components => (state.failInflight revision components).2
  | .endSession _ => state.endSession

theorem onEntry_lookup {α : Type} (states : RevisionStates) (p pid : Pid) (missing : α)
    (op : PlayerRevisionEntry → α × PlayerRevisionEntry) :
    (onEntry states p missing op).2.lookup pid =
      if pid = p then (states.lookup pid).map (fun state => (op state).2)
      else states.lookup pid := by
  unfold onEntry
  by_cases hp : pid = p
  · subst hp
    rw [if_pos rfl]
    cases hs : states.lookup pid with
    | none => exact hs
    | some state => exact AList.lookup_insert _
  · rw [if_neg hp]
    split
    · rfl
    · exact AList.lookup_insert_ne hp

theorem apply_lookup_cases (states : RevisionStates) (op : RevisionOp) (pid : Pid) :
    (op.apply states).lookup pid = states.lookup pid ∨
      (∃ state, op.pid = pid ∧ states.lookup pid = some state ∧
        (op.apply states).lookup pid = some (op.onState state)) ∨
      ∃ revision, op = .hydrate pid revision ∧ states.lookup pid = none ∧
        (op.apply states).lookup pid = some (.hydrated revision) := by
  -- seven operations are `onEntry`; hydrating is the one that can insert
  have hlift : ∀ {α : Type} (p : Pid) (missing : α)
      (f : PlayerRevisionEntry → α × PlayerRevisionEntry),
      (onEntry states p missing f).2.lookup pid = states.lookup pid ∨
        ∃ state, p = pid ∧ states.lookup pid = some state ∧
          (onEntry states p missing f).2.lookup pid = some (f state).2 := by
    intro α p missing f
    rw [onEntry_lookup]
    by_cases hp : pid = p
    · rw [if_pos hp]
      cases hs : states.lookup pid with
      | none => exact Or.inl rfl
      | some state => exact Or.inr ⟨state, hp.symm, rfl, rfl⟩
    · rw [if_neg hp]
      exact Or.inl rfl
  cases op with
  | hydrate p revision =>
      simp only [RevisionOp.apply, playerRevisionHydrate]
      split
      · exact Or.inl rfl
      · split
        · exact (hlift p _ _).imp_right Or.inl
        · next hnone =>
            split
            · exact Or.inl rfl
            · by_cases hp : pid = p
              · subst hp
                exact Or.inr (Or.inr ⟨revision, rfl, hnone, AList.lookup_insert _⟩)
              · exact Or.inl (AList.lookup_insert_ne hp)
  | mark p components => exact (hlift p _ _).imp_right Or.inl
  | queue p => exact (hlift p _ _).imp_right Or.inl
  | beginInflight p revision components => exact (hlift p _ _).imp_right Or.inl
  | acknowledge p revision components => exact (hlift p _ _).imp_right Or.inl
  | acknowledgeDurable p revision components => exact (hlift p _ _).imp_right Or.inl
  | failInflight p revision components => exact (hlift p _ _).imp_right Or.inl
  | endSession p => exact (hlift p _ _).imp_right Or.inl

/-- `op`, issued in `states`, is an accepted acknowledgement for `pid` that names
component `i` with a revision of at least `r`. -/
def RevisionOp.Acknowledges (pid : Pid) (i : Nat) (r : Revision) (states : RevisionStates) :
    RevisionOp → Prop
  | .acknowledge p revision components =>
      p = pid ∧ (playerRevisionAcknowledge states p revision components).1 = true ∧
        components.getLsbD i = true ∧ r ≤ revision
  | .acknowledgeDurable p revision components =>
      p = pid ∧ (playerRevisionAcknowledgeDurable states p revision components).1 = true ∧
        components.getLsbD i = true ∧ r ≤ revision
  | _ => False

variable {states : RevisionStates} {state : PlayerRevisionEntry} {r : Revision}

theorem onEntry_fst {α : Type} {pid : Pid} {missing : α}
    {op : PlayerRevisionEntry → α × PlayerRevisionEntry} (h : states.lookup pid = some state) :
    (onEntry states pid missing op).1 = (op state).1 := by
  simp only [onEntry, h]

theorem onState_spec (hinv : state.Inv) (op : RevisionOp) :
    (op.onState state).Inv ∧ state.Grows (op.onState state) := by
  cases op with
  | hydrate p revision =>
      have h := PlayerRevisionEntry.hydrate_spec hinv revision
      exact ⟨h.1, h.2.1⟩
  | mark p components =>
      have h := PlayerRevisionEntry.mark_spec hinv components
      exact ⟨h.1, h.2.1⟩
  | queue p =>
      have h := PlayerRevisionEntry.queue_spec hinv
      exact ⟨h.1, h.2.1⟩
  | beginInflight p revision components =>
      have h := PlayerRevisionEntry.beginInflight_spec hinv revision components
      exact ⟨h.1, h.2.1⟩
  | acknowledge p revision components =>
      have h := PlayerRevisionEntry.acknowledge_spec hinv revision components
      exact ⟨h.1, h.2.1⟩
  | acknowledgeDurable p revision components =>
      have h := PlayerRevisionEntry.acknowledgeDurable_spec hinv revision components
      exact ⟨h.1, h.2.1⟩
  | failInflight p revision components =>
      have h := PlayerRevisionEntry.failInflight_spec hinv revision components
      exact ⟨h.1, h.2.1⟩
  | endSession p =>
      have h := PlayerRevisionEntry.endSession_spec hinv
      exact ⟨h.1, h.2.1⟩

theorem onState_owes (hinv : state.Inv) {op : RevisionOp}
    (hstate : states.lookup op.pid = some state) (howes : state.Owes i r)
    (hnot : ¬ op.Acknowledges op.pid i r states) : (op.onState state).Owes i r := by
  cases op with
  | hydrate p revision =>
      exact (PlayerRevisionEntry.hydrate_spec hinv revision).2.2 i r howes
  | mark p components =>
      exact (PlayerRevisionEntry.mark_spec hinv components).2.2.1 i r howes
  | queue p => exact (PlayerRevisionEntry.queue_spec hinv).2.2 i r howes
  | beginInflight p revision components =>
      exact (PlayerRevisionEntry.beginInflight_spec hinv revision components).2.2 i r howes
  | acknowledge p revision components =>
      refine (PlayerRevisionEntry.acknowledge_spec hinv revision components).2.2 i r howes ?_
      intro hok hnamed
      exact hnot ⟨rfl, (onEntry_fst hstate).trans hok, hnamed⟩
  | acknowledgeDurable p revision components =>
      refine (PlayerRevisionEntry.acknowledgeDurable_spec hinv revision components).2.2 i r
        howes ?_
      intro hok hnamed
      exact hnot ⟨rfl, (onEntry_fst hstate).trans hok, hnamed⟩
  | failInflight p revision components =>
      exact (PlayerRevisionEntry.failInflight_spec hinv revision components).2.2 i r howes
  | endSession p => exact (PlayerRevisionEntry.endSession_spec hinv).2.2 i r howes

/-! ## Whole runs -/

/-- Every entry of the map meets its invariant. -/
def EntriesInv (states : RevisionStates) : Prop :=
  ∀ pid state, states.lookup pid = some state → state.Inv

/-- Every entry of `before` is still there, and has not gone back. -/
def EntriesGrow (before after : RevisionStates) : Prop :=
  ∀ pid state, before.lookup pid = some state →
    ∃ state', after.lookup pid = some state' ∧ state.Grows state'

theorem EntriesGrow.refl (states : RevisionStates) : EntriesGrow states states :=
  fun _ state h => ⟨state, h, PlayerRevisionEntry.Grows.refl state⟩

theorem EntriesGrow.trans {a b c : RevisionStates} (hab : EntriesGrow a b)
    (hbc : EntriesGrow b c) : EntriesGrow a c := by
  intro pid state h
  obtain ⟨state', h', hgrow⟩ := hab pid state h
  obtain ⟨state'', h'', hgrow'⟩ := hbc pid state' h'
  exact ⟨state'', h'', hgrow.trans hgrow'⟩

theorem entriesInv_empty : EntriesInv ∅ := by
  intro pid state h
  rw [AList.lookup_empty] at h
  cases h

theorem apply_entries (states : RevisionStates) (op : RevisionOp) (hinv : EntriesInv states) :
    EntriesInv (op.apply states) ∧ EntriesGrow states (op.apply states) := by
  constructor
  · intro pid state h
    obtain hsame | ⟨old, -, hold, hnew⟩ | ⟨revision, -, -, hnew⟩ :=
      apply_lookup_cases states op pid
    · exact hinv pid state (hsame.symm.trans h)
    · cases hnew.symm.trans h
      exact (onState_spec (hinv pid old hold) op).1
    · cases hnew.symm.trans h
      exact PlayerRevisionEntry.inv_hydrated revision
  · intro pid state h
    obtain hsame | ⟨old, -, hold, hnew⟩ | ⟨revision, -, hnone, -⟩ :=
      apply_lookup_cases states op pid
    · exact ⟨state, hsame.trans h, PlayerRevisionEntry.Grows.refl state⟩
    · cases hold.symm.trans h
      exact ⟨_, hnew, (onState_spec (hinv pid state h) op).2⟩
    · cases hnone.symm.trans h

theorem run_entries (events : List RevisionOp) (hinv : EntriesInv states) :
    EntriesInv (run RevisionOp.apply states events) ∧
      EntriesGrow states (run RevisionOp.apply states events) :=
  run_related EntriesGrow.refl EntriesGrow.trans apply_entries events hinv

/-- The player's entry owes component `i` at revision `r` or later. -/
def PlayerOwes (pid : Pid) (i : Nat) (r : Revision) (states : RevisionStates) : Prop :=
  ∃ state, states.lookup pid = some state ∧ state.Owes i r

/-- No operation of the run acknowledges component `i` at `r` or later. -/
def NeverAcknowledged (pid : Pid) (i : Nat) (r : Revision) :
    RevisionStates → List RevisionOp → Prop :=
  Along RevisionOp.apply (fun states op => ¬ op.Acknowledges pid i r states)

theorem apply_owes {pid : Pid} (states : RevisionStates) (op : RevisionOp)
    (h : EntriesInv states ∧ PlayerOwes pid i r states) (hnot : ¬ op.Acknowledges pid i r states) :
    EntriesInv (op.apply states) ∧ PlayerOwes pid i r (op.apply states) := by
  obtain ⟨hinv, state, hstate, howes⟩ := h
  refine ⟨(apply_entries states op hinv).1, ?_⟩
  obtain hsame | ⟨old, rfl, hold, hnew⟩ | ⟨revision, -, hnone, -⟩ :=
    apply_lookup_cases states op pid
  · exact ⟨state, hsame.trans hstate, howes⟩
  · cases hold.symm.trans hstate
    exact ⟨_, hnew, onState_owes (hinv _ state hstate) hstate howes hnot⟩
  · cases hnone.symm.trans hstate

theorem run_owes {pid : Pid} (hinv : EntriesInv states) (howes : PlayerOwes pid i r states)
    (events : List RevisionOp) (hnot : NeverAcknowledged pid i r states events) :
    PlayerOwes pid i r (run RevisionOp.apply states events) :=
  (run_invariant_along apply_owes events ⟨hinv, howes⟩ hnot).2

theorem playerRevisionMark_owes (hinv : EntriesInv states) {pid : Pid}
    (hmark : (playerRevisionMark states pid components).1 = some r)
    (hi : components.getLsbD i = true) :
    PlayerOwes pid i r (playerRevisionMark states pid components).2 := by
  cases hs : states.lookup pid with
  | none =>
      simp only [playerRevisionMark, onEntry, hs] at hmark
      cases hmark
  | some state =>
      refine ⟨(state.mark components).2, ?_, ?_⟩
      · rw [playerRevisionMark, onEntry_lookup, if_pos rfl, hs]
        rfl
      · refine (PlayerRevisionEntry.mark_spec (hinv pid state hs) components).2.2.2 i r ?_ hi
        simp only [playerRevisionMark, onEntry, hs] at hmark
        exact hmark

/-- After every run of the eight operations, for every player: the working masks
lie within the unacknowledged components, the acknowledged revision is not ahead
of the current one and equals it when nothing is unacknowledged; along every
continuation the entry stays and neither revision goes back; and a component
marked at `r` stays unacknowledged until an accepted acknowledgement names it at
`r` or later. -/
theorem revision_state_never_loses_a_mark (events more : List RevisionOp) (pid : Pid) :
    let states := run RevisionOp.apply ∅ events
    (∀ state, states.lookup pid = some state →
      Within state.dirtyComponents state.unacknowledgedComponents ∧
      Within state.queuedComponents state.unacknowledgedComponents ∧
      Within state.inflightComponents state.unacknowledgedComponents ∧
      state.acknowledgedRevision ≤ state.currentRevision ∧
      (state.unacknowledgedComponents = 0 →
        state.acknowledgedRevision = state.currentRevision) ∧
      ∃ state', (run RevisionOp.apply states more).lookup pid = some state' ∧
        state.currentRevision ≤ state'.currentRevision ∧
        state.acknowledgedRevision ≤ state'.acknowledgedRevision) ∧
    ∀ components r i, (playerRevisionMark states pid components).1 = some r →
      components.getLsbD i = true →
      let marked := (playerRevisionMark states pid components).2
      NeverAcknowledged pid i r marked more →
      ∃ state', (run RevisionOp.apply marked more).lookup pid = some state' ∧
        state'.unacknowledgedComponents.getLsbD i = true := by
  intro states
  have hinv : EntriesInv states := (run_entries events entriesInv_empty).1
  refine ⟨fun state hstate => ?_, ?_⟩
  · have hentry := hinv pid state hstate
    exact ⟨hentry.dirty, hentry.queued, hentry.inflight, hentry.acknowledged,
      hentry.caught_up, (run_entries more hinv).2 pid state hstate⟩
  · intro components r i hmark hi marked hnot
    have hmarked : EntriesInv marked := (apply_entries states (.mark pid components) hinv).1
    obtain ⟨state', hlookup, howes⟩ :=
      run_owes hmarked (playerRevisionMark_owes hinv hmark hi) more hnot
    exact ⟨state', hlookup, howes.1⟩

end Duris.Player
