import Duris.Item.OwnershipCorpses
import Duris.Lib.Traverse

/-!
# Refused publications and the ownership mirror

A publication that answers false should leave the mirror as it was. Most functions check first
and write last. Three do not: a single hydration moves the owner's clock before it compares the
item, a craft writes its rows before it asks for the source's clock, and a collector command
opens missing clocks before it checks anything.
-/

namespace Duris.Item.Mirror

open Player Economy Flatfile.Ownership

variable {payload : CollectorCommandPayload} {entry : OwnershipEntry}
  {result : CollectorCommandResult} {after : Mirror}

structure Agree (m m' : Mirror) : Prop where
  find : ∀ uid, m.find uid = m'.find uid
  clock : ∀ owner, m.clock owner = m'.clock owner

theorem Agree.refl (m : Mirror) : Agree m m := ⟨fun _ => rfl, fun _ => rfl⟩

/-! ## One write -/

theorem find_setEntry (m : Mirror) (uid uid' : BitVec 64) (entry : OwnershipEntry) :
    (m.setEntry uid entry).find uid' = if uid' = uid then some entry else m.find uid' := by
  rw [find, setEntry]
  split
  · next heq =>
    rw [heq]
    exact AList.lookup_insert _
  · next hne => exact AList.lookup_insert_ne hne

theorem find_eraseEntry (m : Mirror) (uid uid' : BitVec 64) :
    (m.eraseEntry uid).find uid' = if uid' = uid then none else m.find uid' := by
  rw [find, eraseEntry]
  split
  · next heq =>
    rw [heq]
    exact AList.lookup_erase _ _
  · next hne => exact AList.lookup_erase_ne hne

theorem clock_setClock (m : Mirror) (owner owner' : ItemOwnerIdentity) (revision : BitVec 64) :
    (m.setClock owner revision).clock owner' =
      if owner' = owner then some revision else m.clock owner' := by
  rw [clock, setClock]
  split
  · next heq =>
    rw [heq]
    exact AList.lookup_insert _
  · next hne => exact AList.lookup_insert_ne hne

theorem clock_eraseClock (m : Mirror) (owner owner' : ItemOwnerIdentity) :
    (m.eraseClock owner).clock owner' = if owner' = owner then none else m.clock owner' := by
  rw [clock, eraseClock]
  split
  · next heq =>
    rw [heq]
    exact AList.lookup_erase _ _
  · next hne => exact AList.lookup_erase_ne hne

theorem ownerEqual_iff {left right : ItemOwnerIdentity} :
    ownerEqual left right = true ↔ left = right := by
  cases left
  cases right
  simp [ownerEqual]

variable {m : Mirror} {owner : ItemOwnerIdentity} {revision : BitVec 64}
  {batch changes desired : List OwnershipEntry} {planned : List PlannedEntry}

/-- The answer of a function that writes behind its last check is no once it is refused. -/
theorem commit_refused {after : Option Mirror} (h : (m.commit after).2 = false) :
    (m.commit after).1 = m := by
  cases after with
  | none => rfl
  | some after => cases h

/-! ## The clock of an owner -/

def Refuses (m : Mirror) (owner : ItemOwnerIdentity) (revision : BitVec 64) : Prop :=
  itemOwnerIdentityValid owner = false ∨
    ∃ current, m.clock owner = some current ∧ revision < current

theorem hydrateOwner_refused (h : Refuses m owner revision) :
    m.hydrateOwner owner revision = (m, false) := by
  rw [hydrateOwner]
  rcases h with hinvalid | ⟨current, hclock, hlt⟩
  · rw [if_pos hinvalid]
    rfl
  · rw [hclock]
    dsimp only
    rw [if_pos hlt]
    split <;> rfl

theorem hydrateOwner_taken (h : ¬Refuses m owner revision) :
    m.hydrateOwner owner revision = (m.setClock owner revision, true) := by
  rw [Refuses, not_or, not_exists] at h
  rw [hydrateOwner, if_neg h.1]
  cases hclock : m.clock owner with
  | none => rfl
  | some current =>
      dsimp only
      rw [if_neg fun hlt => h.2 current ⟨hclock, hlt⟩]
      rfl

/-! ## A batch that is taken -/

/-- The rows of the batch stand in the mirror with the clocks of their owners, and nothing else
has moved. -/
structure Taken (m after : Mirror) (batch : List OwnershipEntry) : Prop where
  valid : ∀ entry ∈ batch, itemOwnerIdentityValid entry.owner = true
  row : ∀ entry ∈ batch, after.find entry.itemUid = some entry
  clock : ∀ entry ∈ batch, after.clock entry.owner = some entry.ownerRevision
  otherRow : ∀ uid, (∀ entry ∈ batch, entry.itemUid ≠ uid) → after.find uid = m.find uid
  otherClock : ∀ owner, (∀ entry ∈ batch, entry.owner ≠ owner) → after.clock owner = m.clock owner

/-- A row of the batch, or the clock of its owner, is not in the mirror yet. -/
def Alters (m : Mirror) (batch : List OwnershipEntry) : Prop :=
  ∃ entry ∈ batch,
    m.find entry.itemUid ≠ some entry ∨ m.clock entry.owner ≠ some entry.ownerRevision

/-- The checks of `item_ownership_runtime_hydrate_many_atomic` let the batch pass. -/
def Accepts (m : Mirror) (batch : List OwnershipEntry) : Prop :=
  batch.length ≤ ownershipRuntimeMax ∧ (manyOwners m batch).isSome

theorem Taken.agree_iff (h : Taken m after batch) : Agree after m ↔ ¬Alters m batch := by
  constructor
  · rintro hagree ⟨entry, hentry, hrow | hclock⟩
    · exact hrow ((hagree.find entry.itemUid).symm.trans (h.row entry hentry))
    · exact hclock ((hagree.clock entry.owner).symm.trans (h.clock entry hentry))
  · intro hsame
    rw [Alters, not_exists] at hsame
    have hof : ∀ entry ∈ batch, m.find entry.itemUid = some entry ∧
        m.clock entry.owner = some entry.ownerRevision := by
      intro entry hentry
      have hthis := hsame entry
      rw [not_and, not_or, not_not, not_not] at hthis
      exact hthis hentry
    constructor
    · intro uid
      by_cases hin : ∃ entry ∈ batch, entry.itemUid = uid
      · obtain ⟨entry, hentry, rfl⟩ := hin
        rw [h.row entry hentry, (hof entry hentry).1]
      · exact h.otherRow uid fun entry hentry heq => hin ⟨entry, hentry, heq⟩
    · intro owner
      by_cases hin : ∃ entry ∈ batch, entry.owner = owner
      · obtain ⟨entry, hentry, rfl⟩ := hin
        rw [h.clock entry hentry, (hof entry hentry).2]
      · exact h.otherClock owner fun entry hentry heq => hin ⟨entry, hentry, heq⟩

theorem find_foldl_setEntry (hunique : (batch.map OwnershipEntry.itemUid).Nodup) :
    ∀ m : Mirror,
      (∀ entry ∈ batch,
        (batch.foldl (fun m entry => m.setEntry entry.itemUid entry) m).find entry.itemUid =
          some entry) ∧
      ∀ uid, (∀ entry ∈ batch, entry.itemUid ≠ uid) →
        (batch.foldl (fun m entry => m.setEntry entry.itemUid entry) m).find uid = m.find uid := by
  induction batch with
  | nil => exact fun m => ⟨fun _ h => absurd h List.not_mem_nil, fun _ _ => rfl⟩
  | cons first batch ih =>
      intro m
      rw [List.map_cons, List.nodup_cons] at hunique
      obtain ⟨hrow, hother⟩ := ih hunique.2 (m.setEntry first.itemUid first)
      rw [List.foldl_cons]
      constructor
      · intro entry hentry
        rcases List.mem_cons.mp hentry with rfl | htail
        · rw [hother, find_setEntry, if_pos rfl]
          exact fun other htail heq => hunique.1 (heq ▸ List.mem_map_of_mem htail)
        · exact hrow entry htail
      · intro uid hnot
        rw [hother uid fun entry htail => hnot entry (List.mem_cons_of_mem first htail),
          find_setEntry, if_neg (hnot first List.mem_cons_self).symm]

@[simp] theorem clock_foldl_setEntry (batch : List OwnershipEntry) (owner : ItemOwnerIdentity) :
    ∀ m : Mirror, (batch.foldl (fun m entry => m.setEntry entry.itemUid entry) m).clock owner =
      m.clock owner := by
  induction batch with
  | nil => exact fun _ => rfl
  | cons first batch ih => exact fun m => ih (m.setEntry first.itemUid first)

theorem foldl_setClock {rows : List (Sigma fun _ : ItemOwnerIdentity => BitVec 64)}
    (hunique : rows.NodupKeys) :
    ∀ (m : Mirror) (owner : ItemOwnerIdentity),
      (rows.foldl (fun m row => m.setClock row.1 row.2) m).clock owner =
        (rows.dlookup owner).or (m.clock owner) := by
  induction rows with
  | nil => exact fun _ _ => rfl
  | cons row rows ih =>
      intro m owner
      obtain ⟨other, revision⟩ := row
      rw [List.nodupKeys_cons] at hunique
      rw [List.foldl_cons, ih hunique.2, clock_setClock]
      by_cases heq : owner = other
      · subst heq
        rw [List.dlookup_cons_eq, if_pos rfl, List.dlookup_eq_none.mpr hunique.1]
        rfl
      · rw [List.dlookup_cons_ne _ _ heq, if_neg heq]

@[simp] theorem find_foldl_setClock (rows : List (Sigma fun _ : ItemOwnerIdentity => BitVec 64))
    (uid : BitVec 64) :
    ∀ m : Mirror, (rows.foldl (fun m row => m.setClock row.1 row.2) m).find uid = m.find uid := by
  induction rows with
  | nil => exact fun _ => rfl
  | cons row rows ih => exact fun m => ih (m.setClock row.1 row.2)

structure Gathered (incoming out : Incoming) (batch : List OwnershipEntry) : Prop where
  unique : (batch.map OwnershipEntry.itemUid).Nodup
  fresh : ∀ entry ∈ batch, entry.itemUid ∉ incoming.itemUids
  valid : ∀ entry ∈ batch, itemOwnerIdentityValid entry.owner = true
  clock : ∀ entry ∈ batch, out.owners.lookup entry.owner = some entry.ownerRevision
  kept : ∀ owner revision, incoming.owners.lookup owner = some revision →
    out.owners.lookup owner = some revision
  other : ∀ owner, (∀ entry ∈ batch, entry.owner ≠ owner) →
    out.owners.lookup owner = incoming.owners.lookup owner

theorem gathered_of_gather {out : Incoming} :
    ∀ {incoming : Incoming}, Incoming.gather m incoming batch = some out →
      Gathered incoming out batch := by
  induction batch with
  | nil =>
      intro incoming h
      rw [Incoming.gather, Option.some.injEq] at h
      subst h
      exact ⟨List.nodup_nil, fun _ h => absurd h List.not_mem_nil,
        fun _ h => absurd h List.not_mem_nil, fun _ h => absurd h List.not_mem_nil,
        fun _ _ h => h, fun _ _ => rfl⟩
  | cons first batch ih =>
      intro incoming h
      rw [Incoming.gather] at h
      split at h
      · next hadmits =>
        obtain ⟨hunique, hfresh, hvalid, hclock, hkept, hother⟩ := ih h
        simp only [Incoming.admits, Bool.and_eq_true, Bool.not_eq_true', List.contains_eq_mem,
          decide_eq_false_iff_not] at hadmits
        obtain ⟨⟨⟨⟨⟨-, hfirst⟩, -⟩, -⟩, hnew⟩, hsame⟩ := And.left hadmits
        have hown : out.owners.lookup first.owner = some first.ownerRevision :=
          hkept _ _ (AList.lookup_insert _)
        refine ⟨?_, ?_, ?_, ?_, ?_, ?_⟩
        · rw [List.map_cons, List.nodup_cons]
          refine ⟨fun hmem => ?_, hunique⟩
          obtain ⟨entry, hentry, heq⟩ := List.mem_map.mp hmem
          exact hfresh entry hentry (heq ▸ List.mem_cons_self)
        · intro entry hentry
          rcases List.mem_cons.mp hentry with rfl | htail
          · exact hnew
          · exact fun hmem => hfresh entry htail (List.mem_cons_of_mem _ hmem)
        · exact List.forall_mem_cons.mpr ⟨hfirst, hvalid⟩
        · exact List.forall_mem_cons.mpr ⟨hown, hclock⟩
        · intro owner revision hlookup
          by_cases heq : owner = first.owner
          · subst heq
            rw [hlookup, Option.all_some, beq_iff_eq] at hsame
            rw [hsame]
            exact hown
          · exact hkept owner revision ((AList.lookup_insert_ne heq).trans hlookup)
        · intro owner hnot
          rw [List.forall_mem_cons] at hnot
          rw [hother owner hnot.2]
          exact AList.lookup_insert_ne hnot.1.symm
      · cases h

theorem manyOwners_eq_some {owners : AList fun _ : ItemOwnerIdentity => BitVec 64}
    (h : manyOwners m batch = some owners) :
    ∃ incoming, Incoming.gather m {} batch = some incoming ∧ incoming.owners = owners := by
  rw [manyOwners] at h
  cases hgather : Incoming.gather m {} batch with
  | none => rw [hgather] at h; cases h
  | some incoming =>
      rw [hgather] at h
      dsimp only at h
      split at h
      · cases h
      · split at h
        · cases h
        · exact ⟨incoming, rfl, Option.some.inj h⟩

theorem hydrateManyAtomic_taken (hne : batch ≠ []) (h : Accepts m batch) :
    (m.hydrateManyAtomic batch).2 = true ∧ Taken m (m.hydrateManyAtomic batch).1 batch := by
  obtain ⟨hsize, hpass⟩ := h
  obtain ⟨owners, howners⟩ := Option.isSome_iff_exists.mp hpass
  obtain ⟨incoming, hgather, rfl⟩ := manyOwners_eq_some howners
  obtain ⟨hunique, -, hvalid, hclock, -, hother⟩ := gathered_of_gather hgather
  rw [hydrateManyAtomic, if_neg (Nat.not_lt.mpr hsize), if_neg hne, howners]
  refine ⟨rfl, hvalid, ?_, ?_, ?_, ?_⟩
  · intro entry hentry
    dsimp only [commit, Option.map_some]
    rw [find_foldl_setClock]
    exact (find_foldl_setEntry hunique m).1 entry hentry
  · intro entry hentry
    dsimp only [commit, Option.map_some]
    rw [foldl_setClock incoming.owners.nodupKeys]
    have hlookup : incoming.owners.entries.dlookup entry.owner = some entry.ownerRevision :=
      hclock entry hentry
    rw [hlookup]
    rfl
  · intro uid hnot
    dsimp only [commit, Option.map_some]
    rw [find_foldl_setClock]
    exact (find_foldl_setEntry hunique m).2 uid hnot
  · intro owner hnot
    dsimp only [commit, Option.map_some]
    rw [foldl_setClock incoming.owners.nodupKeys]
    have hlookup : incoming.owners.entries.dlookup owner = none := hother owner hnot
    rw [hlookup, Option.none_or, clock_foldl_setEntry]

theorem hydrateManyAtomic_refused (hne : batch ≠ []) (h : ¬Accepts m batch) :
    m.hydrateManyAtomic batch = (m, false) := by
  rw [hydrateManyAtomic, if_neg hne]
  split
  · rfl
  · next hsize =>
    cases howners : manyOwners m batch with
    | none => rfl
    | some owners =>
        refine absurd ⟨Nat.not_lt.mp hsize, ?_⟩ h
        rw [howners]
        rfl

/-! ## A batch that is undone -/

theorem hydrate_elsewhere (m : Mirror) (entry : OwnershipEntry) :
    (∀ uid, uid ≠ entry.itemUid → (m.hydrate entry).1.find uid = m.find uid) ∧
    ∀ owner, owner ≠ entry.owner → (m.hydrate entry).1.clock owner = m.clock owner := by
  have hclock : (∀ uid, (m.hydrateOwner entry.owner entry.ownerRevision).1.find uid = m.find uid) ∧
      ∀ owner, owner ≠ entry.owner →
        (m.hydrateOwner entry.owner entry.ownerRevision).1.clock owner = m.clock owner := by
    by_cases hrefuses : Refuses m entry.owner entry.ownerRevision
    · rw [hydrateOwner_refused hrefuses]
      exact ⟨fun _ => rfl, fun _ _ => rfl⟩
    · rw [hydrateOwner_taken hrefuses]
      refine ⟨fun _ => rfl, fun owner hne => ?_⟩
      rw [clock_setClock, if_neg hne]
  have hset : ∀ uid, uid ≠ entry.itemUid →
      ((m.hydrateOwner entry.owner entry.ownerRevision).1.setEntry entry.itemUid entry).find uid =
        m.find uid := by
    intro uid hne
    rw [find_setEntry, if_neg hne, hclock.1]
  rw [hydrate]
  split
  · exact ⟨fun _ _ => rfl, fun _ _ => rfl⟩
  · dsimp only
    split
    · exact ⟨fun uid _ => hclock.1 uid, hclock.2⟩
    · split
      · split
        · exact ⟨fun uid _ => hclock.1 uid, hclock.2⟩
        · exact ⟨hset, hclock.2⟩
      · split
        · exact ⟨fun uid _ => hclock.1 uid, hclock.2⟩
        · exact ⟨hset, hclock.2⟩

/-- However far the loop over a batch of one owner gets, it writes nothing else. -/
theorem hydrateAll_elsewhere (hsame : ∀ entry ∈ batch, entry.owner = owner) :
    ∀ m : Mirror,
      (∀ uid, (∀ entry ∈ batch, entry.itemUid ≠ uid) →
        (hydrateAll m batch).1.find uid = m.find uid) ∧
      ∀ other, other ≠ owner → (hydrateAll m batch).1.clock other = m.clock other := by
  induction batch with
  | nil => exact fun m => ⟨fun _ _ => rfl, fun _ _ => rfl⟩
  | cons first batch ih =>
      intro m
      rw [List.forall_mem_cons] at hsame
      obtain ⟨hrow, hclock⟩ := hydrate_elsewhere m first
      rw [hsame.1] at hclock
      rw [hydrateAll]
      split
      · next after hydrated =>
        rw [hydrated] at hrow hclock
        obtain ⟨hrows, hclocks⟩ := ih hsame.2 after
        constructor
        · intro uid hnot
          rw [List.forall_mem_cons] at hnot
          rw [hrows uid hnot.2, hrow uid hnot.1.symm]
        · intro other hne
          rw [hclocks other hne, hclock other hne]
      · next after hydrated =>
        rw [hydrated] at hrow hclock
        refine ⟨fun uid hnot => hrow uid ?_, hclock⟩
        exact (hnot first List.mem_cons_self).symm

theorem restoreEntries_find (before : Mirror) (uid : BitVec 64) :
    ∀ m : Mirror, (restoreEntries before m batch).find uid =
      if ∃ entry ∈ batch, entry.itemUid = uid then before.find uid else m.find uid := by
  induction batch with
  | nil => exact fun m => (if_neg (by simp)).symm
  | cons first batch ih =>
      intro m
      have hfirst : (restoreEntries before m (first :: batch)).find uid =
          if ∃ entry ∈ batch, entry.itemUid = uid then before.find uid
          else if uid = first.itemUid then before.find uid else m.find uid := by
        rw [restoreEntries]
        cases hbefore : before.find first.itemUid with
        | none =>
            rw [ih, find_eraseEntry]
            split
            · rfl
            · split
              · next heq => rw [heq, hbefore]
              · rfl
        | some value =>
            rw [ih, find_setEntry]
            split
            · rfl
            · split
              · next heq => rw [heq, hbefore]
              · rfl
      rw [hfirst]
      by_cases htail : ∃ entry ∈ batch, entry.itemUid = uid
      · have hall : ∃ entry ∈ first :: batch, entry.itemUid = uid := by
          obtain ⟨entry, hentry, heq⟩ := htail
          exact ⟨entry, List.mem_cons_of_mem first hentry, heq⟩
        rw [if_pos htail, if_pos hall]
      · rw [if_neg htail]
        by_cases heq : uid = first.itemUid
        · rw [if_pos heq, if_pos ⟨first, List.mem_cons_self, heq.symm⟩]
        · rw [if_neg heq, if_neg]
          rintro ⟨entry, hentry, hentryUid⟩
          rcases List.mem_cons.mp hentry with rfl | hmem
          · exact heq hentryUid.symm
          · exact htail ⟨entry, hmem, hentryUid⟩

@[simp] theorem restoreEntries_clock (before : Mirror) {batch : List OwnershipEntry}
    (owner : ItemOwnerIdentity) :
    ∀ m : Mirror, (restoreEntries before m batch).clock owner = m.clock owner := by
  induction batch with
  | nil => exact fun _ => rfl
  | cons first batch ih =>
      intro m
      rw [restoreEntries]
      split
      · exact ih _
      · exact ih _

theorem batchValidFrom_owner : ∀ {seen : List (BitVec 64)},
      batchValidFrom m owner revision seen batch = true → ∀ entry ∈ batch, entry.owner = owner := by
  induction batch with
  | nil => exact fun _ _ h => absurd h List.not_mem_nil
  | cons first batch ih =>
      intro seen h
      rw [batchValidFrom, Bool.and_eq_true] at h
      refine List.forall_mem_cons.mpr ⟨?_, ih h.2⟩
      simp only [batchEntryValid, Bool.and_eq_true] at h
      exact ownerEqual_iff.mp h.1.1.1.1.1.1.2

/-- A batch of one owner that is refused leaves the mirror as it was, though entries of it may
have been taken. -/
theorem hydrateBatch_refused (h : (m.hydrateBatch batch).2 = false) :
    Agree (m.hydrateBatch batch).1 m := by
  unfold hydrateBatch at h ⊢
  split at h
  · next hsize =>
    rw [if_pos hsize]
    exact Agree.refl m
  · next hsize =>
    rw [if_neg hsize]
    cases batch with
    | nil => cases h
    | cons first batch =>
        dsimp only at h ⊢
        split
        · exact Agree.refl m
        · next hvalid =>
          rw [if_neg hvalid] at h
          split
          · exact Agree.refl m
          · next hclock =>
            rw [if_neg hclock] at h
            split
            · exact Agree.refl m
            · next hroom =>
              rw [if_neg hroom] at h
              rw [Bool.not_eq_false] at hvalid
              have hsame := batchValidFrom_owner hvalid
              obtain ⟨hrow, hclocks⟩ := hydrateAll_elsewhere hsame m
              split at h
              · cases h
              · next after hall =>
                rw [hall] at hrow hclocks
                constructor
                · intro uid
                  have hfind : (restoreClock m (restoreEntries m after (first :: batch))
                      first.owner).find uid =
                        (restoreEntries m after (first :: batch)).find uid := by
                    rw [restoreClock]
                    split <;> rfl
                  rw [hfind, restoreEntries_find]
                  split
                  · rfl
                  · next hnot =>
                    exact hrow uid fun entry hentry heq => hnot ⟨entry, hentry, heq⟩
                · intro owner
                  rw [restoreClock]
                  by_cases heq : owner = first.owner
                  · subst heq
                    split
                    · next revision hrevision => rw [clock_setClock, if_pos rfl, hrevision]
                    · next hnone => rw [clock_eraseClock, if_pos rfl, hnone]
                  · split
                    · rw [clock_setClock, if_neg heq, restoreEntries_clock, hclocks owner heq]
                    · rw [clock_eraseClock, if_neg heq, restoreEntries_clock, hclocks owner heq]

/-! ## A single hydration -/

def WellFormed (entry : OwnershipEntry) : Prop :=
  entry.itemUid ≠ 0 ∧ entry.rootItemUid ≠ 0 ∧ itemOwnerIdentityValid entry.owner = true ∧
    entry.state ≠ ItemCustodyState.absent ∧ 0 ≤ entry.vnum.toInt

/-- The mirror has a newer row of the item, or no room for a row of it. -/
def TurnsAway (m : Mirror) (entry : OwnershipEntry) : Prop :=
  (∃ current, m.find entry.itemUid = some current ∧ entry.itemRevision < current.itemRevision) ∨
    m.find entry.itemUid = none ∧ ownershipRuntimeMax ≤ m.size

/-- The owner's clock is moved for an entry that is then refused. -/
structure TornByHydrate (m : Mirror) (entry : OwnershipEntry) : Prop where
  wellFormed : WellFormed entry
  admitted : ¬Refuses m entry.owner entry.ownerRevision
  moves : m.clock entry.owner ≠ some entry.ownerRevision
  turnedAway : TurnsAway m entry

theorem agree_setClock_iff :
    Agree (m.setClock owner revision) m ↔ m.clock owner = some revision := by
  constructor
  · intro hagree
    rw [← hagree.clock owner, clock_setClock, if_pos rfl]
  · intro hsame
    refine ⟨fun _ => rfl, fun other => ?_⟩
    rw [clock_setClock]
    split
    · next heq => rw [heq, hsame]
    · rfl

theorem hydrate_malformed (h : ¬WellFormed entry) : m.hydrate entry = (m, false) := by
  rw [hydrate, if_pos]
  by_contra hform
  rw [not_or, not_or, not_or, not_or, Bool.not_eq_false, Int.not_lt] at hform
  exact h hform

theorem WellFormed.checked (h : WellFormed entry) :
    ¬(entry.itemUid = 0 ∨ entry.rootItemUid = 0 ∨ itemOwnerIdentityValid entry.owner = false ∨
      entry.state = ItemCustodyState.absent ∨ entry.vnum.toInt < 0) := by
  rw [not_or, not_or, not_or, not_or, Bool.not_eq_false, Int.not_lt]
  exact h

theorem hydrate_refused (h : WellFormed entry)
    (hrefuses : Refuses m entry.owner entry.ownerRevision) : m.hydrate entry = (m, false) := by
  rw [hydrate, if_neg h.checked, hydrateOwner_refused hrefuses]
  rfl

theorem hydrate_turnedAway (h : WellFormed entry)
    (hadmits : ¬Refuses m entry.owner entry.ownerRevision) (haway : TurnsAway m entry) :
    m.hydrate entry = (m.setClock entry.owner entry.ownerRevision, false) := by
  rw [hydrate, if_neg h.checked, hydrateOwner_taken hadmits]
  rcases haway with ⟨current, hfind, hlt⟩ | ⟨hnone, hfull⟩
  · rw [hfind]
    exact if_pos hlt
  · rw [hnone]
    exact if_pos hfull

theorem hydrate_taken (h : WellFormed entry)
    (hadmits : ¬Refuses m entry.owner entry.ownerRevision) (hroom : ¬TurnsAway m entry) :
    (m.hydrate entry).2 = true := by
  rw [TurnsAway, not_or] at hroom
  rw [hydrate, if_neg h.checked, hydrateOwner_taken hadmits]
  cases hfind : m.find entry.itemUid with
  | none =>
      have hfew : ¬ownershipRuntimeMax ≤ (m.setClock entry.owner entry.ownerRevision).size :=
        fun hfull => hroom.2 ⟨hfind, hfull⟩
      exact congrArg Prod.snd (if_neg hfew)
  | some current =>
      have hfresh : ¬entry.itemRevision < current.itemRevision :=
        fun hlt => hroom.1 ⟨current, hfind, hlt⟩
      exact congrArg Prod.snd (if_neg hfresh)

theorem hydrate_torn_iff (m : Mirror) (entry : OwnershipEntry) :
    ((m.hydrate entry).2 = false → Agree (m.hydrate entry).1 m) ↔ ¬TornByHydrate m entry := by
  by_cases hform : WellFormed entry
  · by_cases hrefuses : Refuses m entry.owner entry.ownerRevision
    · rw [hydrate_refused hform hrefuses]
      exact ⟨fun _ htorn => htorn.admitted hrefuses, fun _ _ => Agree.refl m⟩
    · by_cases haway : TurnsAway m entry
      · rw [hydrate_turnedAway hform hrefuses haway]
        constructor
        · intro hagree htorn
          exact htorn.moves (agree_setClock_iff.mp (hagree rfl))
        · intro hwhole _
          by_contra hmoves
          exact hwhole ⟨hform, hrefuses, fun hsame => hmoves (agree_setClock_iff.mpr hsame), haway⟩
      · rw [hydrate_taken hform hrefuses haway]
        exact ⟨fun _ htorn => haway htorn.turnedAway, fun _ hno => absurd hno Bool.noConfusion⟩
  · rw [hydrate_malformed hform]
    exact ⟨fun _ htorn => hform htorn.wellFormed, fun _ _ => Agree.refl m⟩

/-! ## A craft -/

/-- The rows of a craft are written although the clock of its owner is refused: nothing that is
crafted or destroyed brings that clock along. -/
structure TornByCraft (m : Mirror) (payload : ItemTransferPayload) (result : ItemTransferResult)
    (changes : List OwnershipEntry) : Prop where
  checked : craftChanges m payload result = some changes
  accepted : Accepts m changes
  foreign : ∀ entry ∈ changes, entry.owner ≠ payload.fromOwner
  refuses : Refuses m payload.fromOwner result.fromOwnerRevision
  alters : Alters m changes

theorem craftConsumed_eq_some {payload : ItemTransferPayload} {result : ItemTransferResult}
    {expected : ItemTransferEntry} (h : craftConsumed m payload result expected = some entry) :
    entry.owner = destructionOwner ∧ entry.ownerRevision = result.fromOwnerRevision := by
  rw [craftConsumed] at h
  cases htopology : itemTransferTargetTopology payload expected.itemUid with
  | none => rw [htopology] at h; cases h
  | some target =>
      rw [htopology] at h
      dsimp only at h
      split at h
      · cases h
      · split at h
        · rw [← Option.some.inj h]
          exact ⟨rfl, rfl⟩
        · cases h

theorem craftProduced_eq_some {payload : ItemTransferPayload} {result : ItemTransferResult}
    {outputs : List PlayerItemSnapshot} {output : PlayerItemSnapshot}
    (h : craftProduced m payload result outputs output = some entry) :
    entry.ownerRevision = result.toOwnerRevision := by
  rw [craftProduced] at h
  split at h
  · cases h
  · cases hroot : craftRoot outputs outputs.length output.objectUid output.parentIndex with
    | none => rw [hroot] at h; cases h
    | some root =>
        rw [hroot] at h
        dsimp only at h
        generalize (if output.parentIndex = noParentIndex then (0 : BitVec 64)
          else ((outputs[output.parentIndex.toNat]?).map PlayerItemSnapshot.objectUid).getD 0) =
          parentUid at h
        split at h
        · rw [← Option.some.inj h]
        · cases h

theorem craftChanges_consumes {payload : ItemTransferPayload} {result : ItemTransferResult}
    (h : craftChanges m payload result = some changes) :
    (∃ entry ∈ changes, entry.owner = destructionOwner) ∧
      ∀ entry ∈ changes, entry.ownerRevision = result.fromOwnerRevision := by
  rw [craftChanges] at h
  split at h
  · cases h
  · next hchecks =>
    simp only [not_or, not_not] at hchecks
    obtain ⟨-, hitems, -, -, hclocks, -⟩ := hchecks
    obtain ⟨outputs, -, h⟩ := Option.bind_eq_some_iff.mp h
    obtain ⟨consumed, hconsumed, h⟩ := Option.bind_eq_some_iff.mp h
    obtain ⟨produced, hproduced, h⟩ := Option.bind_eq_some_iff.mp h
    cases h
    have hof : ∀ entry ∈ consumed, entry.owner = destructionOwner ∧
        entry.ownerRevision = result.fromOwnerRevision := by
      intro entry hentry
      obtain ⟨item, -, hitem⟩ := mem_of_mapM hconsumed hentry
      exact craftConsumed_eq_some hitem
    constructor
    · have hsome : consumed ≠ [] := by
        intro hnil
        rw [hnil, mapM_eq_some_iff, List.forall₂_nil_right_iff] at hconsumed
        exact hitems hconsumed
      obtain ⟨entry, hentry⟩ := List.exists_mem_of_ne_nil consumed hsome
      exact ⟨entry, List.mem_append_left produced hentry, (hof entry hentry).1⟩
    · intro entry hentry
      rcases List.mem_append.mp hentry with hused | hmade
      · exact (hof entry hused).2
      · obtain ⟨output, -, houtput⟩ := mem_of_mapM hproduced hmade
        rw [craftProduced_eq_some houtput, hclocks]

theorem craft_torn_iff (m : Mirror) (payload : ItemTransferPayload) (result : ItemTransferResult) :
    ((m.applyCraft payload result).2 = false → Agree (m.applyCraft payload result).1 m) ↔
      ¬∃ changes, TornByCraft m payload result changes := by
  rw [applyCraft]
  cases hchanges : craftChanges m payload result with
  | none =>
      refine ⟨fun _ ⟨changes, htorn⟩ => ?_, fun _ _ => Agree.refl m⟩
      rw [htorn.checked] at hchanges
      cases hchanges
  | some changes =>
      have honly : (∃ changes, TornByCraft m payload result changes) ↔
          TornByCraft m payload result changes := by
        refine ⟨fun ⟨other, htorn⟩ => ?_, fun htorn => ⟨changes, htorn⟩⟩
        have hother := htorn.checked
        rw [hchanges, Option.some.injEq] at hother
        rw [hother]
        exact htorn
      rw [honly]
      obtain ⟨⟨destroyed, hdestroyed, hdestruction⟩, hrevisions⟩ := craftChanges_consumes hchanges
      have hne : changes ≠ [] := List.ne_nil_of_mem hdestroyed
      dsimp only
      by_cases haccepts : Accepts m changes
      · obtain ⟨hanswer, htaken⟩ := hydrateManyAtomic_taken hne haccepts
        generalize m.hydrateManyAtomic changes = after at hanswer htaken
        obtain ⟨after, answer⟩ := after
        subst hanswer
        dsimp only at htaken ⊢
        by_cases hrefuses : Refuses after payload.fromOwner result.fromOwnerRevision
        · rw [hydrateOwner_refused hrefuses]
          dsimp only
          have hforeign : ∀ entry ∈ changes, entry.owner ≠ payload.fromOwner := by
            intro entry hentry heq
            have hclock := htaken.clock entry hentry
            rw [heq, hrevisions entry hentry] at hclock
            rcases hrefuses with hinvalid | ⟨current, hcurrent, hlt⟩
            · rw [← heq, htaken.valid entry hentry] at hinvalid
              cases hinvalid
            · rw [hclock, Option.some.injEq] at hcurrent
              rw [hcurrent] at hlt
              exact absurd hlt (by bv_omega)
          have hrefuses' : Refuses m payload.fromOwner result.fromOwnerRevision := by
            rw [Refuses, htaken.otherClock payload.fromOwner hforeign] at hrefuses
            exact hrefuses
          rw [htaken.agree_iff]
          constructor
          · intro hsame htorn
            exact hsame rfl htorn.alters
          · intro hwhole _ halters
            exact hwhole ⟨hchanges, haccepts, hforeign, hrefuses', halters⟩
        · rw [hydrateOwner_taken hrefuses]
          dsimp only
          have hfrom : ¬TornByCraft m payload result changes := by
            intro htorn
            have hrefuses' := htorn.refuses
            rw [Refuses, ← htaken.otherClock payload.fromOwner htorn.foreign] at hrefuses'
            exact hrefuses hrefuses'
          have hlast : ¬Refuses (after.setClock payload.fromOwner result.fromOwnerRevision)
              destructionOwner result.fromOwnerRevision := by
            rintro (hinvalid | ⟨current, hcurrent, hlt⟩)
            · exact absurd hinvalid (by decide)
            · have hclock := htaken.clock destroyed hdestroyed
              rw [hdestruction, hrevisions destroyed hdestroyed] at hclock
              rw [clock_setClock] at hcurrent
              split at hcurrent
              · rw [Option.some.injEq] at hcurrent
                rw [hcurrent] at hlt
                exact absurd hlt (by bv_omega)
              · rw [hclock, Option.some.injEq] at hcurrent
                rw [hcurrent] at hlt
                exact absurd hlt (by bv_omega)
          rw [hydrateOwner_taken hlast]
          exact ⟨fun _ => hfrom, fun _ hno => absurd hno Bool.noConfusion⟩
      · rw [hydrateManyAtomic_refused hne haccepts]
        exact ⟨fun _ htorn => haccepts htorn.accepted, fun _ _ => Agree.refl m⟩

/-! ## A collector command -/

theorem not_later_lt_left (left right : BitVec 64) : ¬later left right < left := by
  rw [later]
  split <;> bv_omega

/-- The rows of a command carry the published clock of their owner. -/
structure Clocked (payload : CollectorCommandPayload) (publishedFrom publishedTo : BitVec 64)
    (changes : List OwnershipEntry) : Prop where
  source : ∀ entry ∈ changes, entry.owner = payload.fromOwner → entry.ownerRevision = publishedFrom
  other : ∀ entry ∈ changes, entry.owner ≠ payload.fromOwner → entry.ownerRevision = publishedTo

theorem collectorChange_clocked {publishedFrom publishedTo : BitVec 64}
    {target entry : OwnershipEntry}
    (h : collectorChange m payload publishedFrom publishedTo target = some (some entry)) :
    (entry.owner = payload.fromOwner → entry.ownerRevision = publishedFrom) ∧
      (entry.owner ≠ payload.fromOwner → entry.ownerRevision = publishedTo) := by
  rw [collectorChange] at h
  split at h
  · split at h
    · cases h
    · split at h
      · split at h
        · cases h
        · obtain rfl := Option.some.inj (Option.some.inj h)
          constructor
          · intro heq
            exact if_pos (ownerEqual_iff.mpr heq)
          · intro hne
            exact if_neg fun heq => hne (ownerEqual_iff.mp heq)
      · split at h
        · split at h <;> cases h
        · split at h <;> cases h
  · cases h

theorem collectorChanges_clocked {publishedFrom publishedTo : BitVec 64}
    (h : collectorChanges m payload publishedFrom publishedTo desired = some changes) :
    Clocked payload publishedFrom publishedTo changes := by
  obtain ⟨answers, hanswers, rfl⟩ := Option.map_eq_some_iff.mp h
  have hof : ∀ entry ∈ answers.reduceOption, ∃ target,
      collectorChange m payload publishedFrom publishedTo target = some (some entry) := by
    intro entry hentry
    obtain ⟨target, -, htarget⟩ := mem_of_mapM hanswers (List.reduceOption_mem_iff.mp hentry)
    exact ⟨target, htarget⟩
  constructor
  · intro entry hentry heq
    obtain ⟨target, htarget⟩ := hof entry hentry
    exact (collectorChange_clocked htarget).1 heq
  · intro entry hentry hne
    obtain ⟨target, htarget⟩ := hof entry hentry
    exact (collectorChange_clocked htarget).2 hne

def ClocksRefused (payload : CollectorCommandPayload) (publishedFrom publishedTo : BitVec 64) :
    Prop :=
  itemOwnerIdentityValid payload.fromOwner = false ∨
    itemOwnerIdentityValid payload.toOwner = false ∨
    payload.fromOwner = payload.toOwner ∧ publishedTo < publishedFrom

def RowsTaken (m : Mirror) (changes : List OwnershipEntry) : Prop :=
  changes = [] ∨ Accepts m changes

/-- Writing the rows and the clocks that are taken before a refusal changes the mirror. -/
def WritesFirst (m : Mirror) (payload : CollectorCommandPayload) (publishedFrom : BitVec 64)
    (changes : List OwnershipEntry) : Prop :=
  Alters m changes ∨ itemOwnerIdentityValid payload.fromOwner = true ∧
    m.clock payload.fromOwner ≠ some publishedFrom

structure WriteSpec (m : Mirror) (payload : CollectorCommandPayload)
    (publishedFrom publishedTo : BitVec 64) (changes : List OwnershipEntry)
    (answer : Mirror × Bool) : Prop where
  refused : answer.2 = false ↔
    ¬RowsTaken m changes ∨ ClocksRefused payload publishedFrom publishedTo
  agree : answer.2 = false → RowsTaken m changes →
    (Agree answer.1 m ↔ ¬WritesFirst m payload publishedFrom changes)
  untaken : ¬RowsTaken m changes → answer.1 = m
  keeps : ∀ owner, (m.clock owner).isSome → (answer.1.clock owner).isSome

theorem taken_nil (m : Mirror) : Taken m m [] :=
  ⟨fun _ h => absurd h List.not_mem_nil, fun _ h => absurd h List.not_mem_nil,
    fun _ h => absurd h List.not_mem_nil, fun _ _ => rfl, fun _ _ => rfl⟩

theorem Taken.keeps (h : Taken m after batch) (hclock : (m.clock owner).isSome) :
    (after.clock owner).isSome := by
  by_cases hin : ∃ entry ∈ batch, entry.owner = owner
  · obtain ⟨entry, hentry, rfl⟩ := hin
    rw [h.clock entry hentry]
    rfl
  · rw [h.otherClock owner fun entry hentry heq => hin ⟨entry, hentry, heq⟩]
    exact hclock

theorem setClock_keeps {other : ItemOwnerIdentity} (h : (m.clock other).isSome) :
    ((m.setClock owner revision).clock other).isSome := by
  rw [clock_setClock]
  split
  · rfl
  · exact h

theorem collectorClocks_spec {publishedFrom publishedTo fromRevision toRevision : BitVec 64}
    (htaken : Taken m after changes)
    (hclocked : Clocked payload publishedFrom publishedTo changes)
    (hfrom : m.clock payload.fromOwner = some fromRevision)
    (hto : m.clock payload.toOwner = some toRevision) (hlaterFrom : ¬publishedFrom < fromRevision)
    (hlaterTo : ¬publishedTo < toRevision) (hrows : RowsTaken m changes) {answer : Mirror × Bool}
    (hanswer : answer =
      if (after.hydrateOwner payload.fromOwner publishedFrom).2 then
        (after.hydrateOwner payload.fromOwner publishedFrom).1.hydrateOwner payload.toOwner
          publishedTo
      else ((after.hydrateOwner payload.fromOwner publishedFrom).1, false)) :
    WriteSpec m payload publishedFrom publishedTo changes answer := by
  -- The source's clock is the published one already, or still the old one.
  have hsource : after.clock payload.fromOwner = some publishedFrom ∨
      after.clock payload.fromOwner = m.clock payload.fromOwner := by
    by_cases hin : ∃ entry ∈ changes, entry.owner = payload.fromOwner
    · obtain ⟨entry, hentry, heq⟩ := hin
      rw [← heq, htaken.clock entry hentry, hclocked.source entry hentry heq]
      exact .inl rfl
    · exact .inr (htaken.otherClock _ fun entry hentry heq => hin ⟨entry, hentry, heq⟩)
  have hrefuses : Refuses after payload.fromOwner publishedFrom ↔
      itemOwnerIdentityValid payload.fromOwner = false := by
    constructor
    · rintro (hinvalid | ⟨current, hcurrent, hlt⟩)
      · exact hinvalid
      · rcases hsource with hnew | hold
        · rw [hnew, Option.some.injEq] at hcurrent
          rw [hcurrent] at hlt
          exact absurd hlt (by bv_omega)
        · rw [hold, hfrom, Option.some.injEq] at hcurrent
          rw [hcurrent] at hlaterFrom
          exact absurd hlt hlaterFrom
    · exact .inl
  by_cases hvalid : itemOwnerIdentityValid payload.fromOwner = false
  · rw [hydrateOwner_refused (hrefuses.mpr hvalid)] at hanswer
    subst hanswer
    refine ⟨?_, fun _ _ => ?_, fun hnot => absurd hrows hnot, fun owner => htaken.keeps⟩
    · exact ⟨fun _ => .inr (.inl hvalid), fun _ => rfl⟩
    · rw [WritesFirst, hvalid]
      refine htaken.agree_iff.trans (not_congr ?_)
      exact ⟨.inl, fun h => h.resolve_right fun hmoves => by cases hmoves.1⟩
  · rw [hydrateOwner_taken fun h => hvalid (hrefuses.mp h)] at hanswer
    rw [if_pos rfl] at hanswer
    rw [Bool.not_eq_false] at hvalid
    have hsecond : Refuses (after.setClock payload.fromOwner publishedFrom) payload.toOwner
        publishedTo ↔ ClocksRefused payload publishedFrom publishedTo := by
      rw [Refuses, ClocksRefused, hvalid, clock_setClock]
      by_cases heq : payload.toOwner = payload.fromOwner
      · rw [if_pos heq, heq, hvalid]
        simp
      · rw [if_neg heq]
        constructor
        · rintro (hinvalid | ⟨current, hcurrent, hlt⟩)
          · exact .inr (.inl hinvalid)
          · by_cases hin : ∃ entry ∈ changes, entry.owner = payload.toOwner
            · obtain ⟨entry, hentry, howner⟩ := hin
              rw [← howner, htaken.clock entry hentry, Option.some.injEq,
                hclocked.other entry hentry (howner ▸ heq)] at hcurrent
              rw [hcurrent] at hlt
              exact absurd hlt (by bv_omega)
            · rw [htaken.otherClock _ fun entry hentry heq => hin ⟨entry, hentry, heq⟩, hto,
                Option.some.injEq] at hcurrent
              rw [hcurrent] at hlaterTo
              exact absurd hlt hlaterTo
        · rintro (hno | hinvalid | ⟨hsame, -⟩)
          · cases hno
          · exact .inl hinvalid
          · exact absurd hsame.symm heq
    have hagree : Agree (after.setClock payload.fromOwner publishedFrom) m ↔
        ¬WritesFirst m payload publishedFrom changes := by
      rw [WritesFirst, not_or, ← htaken.agree_iff]
      constructor
      · intro h
        have hclock : m.clock payload.fromOwner = some publishedFrom := by
          rw [← h.clock, clock_setClock, if_pos rfl]
        refine ⟨⟨h.find, fun owner => ?_⟩, fun hmoves => hmoves.2 hclock⟩
        by_cases heq : owner = payload.fromOwner
        · subst heq
          rcases hsource with hnew | hold
          · rw [hnew, hclock]
          · exact hold
        · rw [← h.clock owner, clock_setClock, if_neg heq]
      · rintro ⟨h, hstays⟩
        have hclock : m.clock payload.fromOwner = some publishedFrom := by
          by_contra hmoves
          exact hstays ⟨hvalid, hmoves⟩
        refine ⟨h.find, fun owner => ?_⟩
        rw [clock_setClock]
        split
        · next heq => rw [heq, hclock]
        · exact h.clock owner
    by_cases hlast : ClocksRefused payload publishedFrom publishedTo
    · rw [hydrateOwner_refused (hsecond.mpr hlast)] at hanswer
      subst hanswer
      exact ⟨⟨fun _ => .inr hlast, fun _ => rfl⟩, fun _ _ => hagree, fun hnot => absurd hrows hnot,
        fun owner h => setClock_keeps (htaken.keeps h)⟩
    · rw [hydrateOwner_taken fun h => hlast (hsecond.mp h)] at hanswer
      subst hanswer
      refine ⟨⟨fun hno => absurd hno Bool.noConfusion, ?_⟩, fun hno => absurd hno Bool.noConfusion,
        fun hnot => absurd hrows hnot,
        fun owner h => setClock_keeps (setClock_keeps (htaken.keeps h))⟩
      rintro (hnot | hrefused)
      · exact absurd hrows hnot
      · exact absurd hrefused hlast

theorem collectorWrite_spec {publishedFrom publishedTo fromRevision toRevision : BitVec 64}
    (hclocked : Clocked payload publishedFrom publishedTo changes)
    (hfrom : m.clock payload.fromOwner = some fromRevision)
    (hto : m.clock payload.toOwner = some toRevision) (hlaterFrom : ¬publishedFrom < fromRevision)
    (hlaterTo : ¬publishedTo < toRevision) :
    WriteSpec m payload publishedFrom publishedTo changes
      (m.collectorWrite payload publishedFrom publishedTo changes) := by
  have hclocks : ∀ {after : Mirror}, Taken m after changes → RowsTaken m changes →
      (if changes = [] then (m, true) else m.hydrateManyAtomic changes) = (after, true) →
      WriteSpec m payload publishedFrom publishedTo changes
        (m.collectorWrite payload publishedFrom publishedTo changes) := by
    intro after htaken hrows hdone
    refine collectorClocks_spec htaken hclocked hfrom hto hlaterFrom hlaterTo hrows ?_
    rw [collectorWrite, hdone]
    dsimp only
    rcases after.hydrateOwner payload.fromOwner publishedFrom with ⟨next, answer⟩
    cases answer <;> rfl
  by_cases hnil : changes = []
  · subst hnil
    exact hclocks (taken_nil m) (.inl rfl) (if_pos rfl)
  · by_cases haccepts : Accepts m changes
    · obtain ⟨hanswer, htaken⟩ := hydrateManyAtomic_taken hnil haccepts
      refine hclocks htaken (.inr haccepts) ?_
      rw [if_neg hnil, ← hanswer]
    · have hrows : ¬RowsTaken m changes := not_or.mpr ⟨hnil, haccepts⟩
      rw [collectorWrite, if_neg hnil, hydrateManyAtomic_refused hnil haccepts]
      exact ⟨⟨fun _ => .inl hrows, fun _ => rfl⟩, fun _ h => absurd h hrows, fun _ => rfl,
        fun _ h => h⟩

def openClock (m : Mirror) (owner : ItemOwnerIdentity) : Mirror :=
  if m.clock owner = none ∧ itemOwnerIdentityValid owner = true then m.setClock owner 0 else m

theorem ownerRevision_eq (m : Mirror) (owner : ItemOwnerIdentity) :
    m.ownerRevision owner = (m.openClock owner, (m.openClock owner).clock owner) := by
  rw [ownerRevision, openClock]
  cases hclock : m.clock owner with
  | some revision =>
      rw [if_neg fun h => by cases h.1]
      exact Prod.ext rfl hclock.symm
  | none =>
      by_cases hvalid : itemOwnerIdentityValid owner = true
      · have hadmits : ¬Refuses m owner 0 := by
          rintro (hinvalid | ⟨current, hcurrent, -⟩)
          · rw [hvalid] at hinvalid
            cases hinvalid
          · rw [hclock] at hcurrent
            cases hcurrent
        rw [hydrateOwner_taken hadmits, if_pos ⟨rfl, hvalid⟩, clock_setClock, if_pos rfl]
      · have hrefuses : Refuses m owner 0 := .inl (by rwa [Bool.not_eq_true] at hvalid)
        rw [hydrateOwner_refused hrefuses, if_neg fun h => hvalid h.2]
        exact Prod.ext rfl hclock.symm

/-- A missing clock is opened: the source's, or the destination's behind a source that has one. -/
def Opens (m : Mirror) (payload : CollectorCommandPayload) : Prop :=
  m.clock payload.fromOwner = none ∧ itemOwnerIdentityValid payload.fromOwner = true ∨
    (m.clock payload.fromOwner).isSome ∧ m.clock payload.toOwner = none ∧
      itemOwnerIdentityValid payload.toOwner = true

/-- The mirror as the command finds it once it has asked for both clocks. -/
def opened (m : Mirror) (payload : CollectorCommandPayload) : Mirror :=
  (m.openClock payload.fromOwner).openClock payload.toOwner

def publishedFrom (m : Mirror) (payload : CollectorCommandPayload)
    (result : CollectorCommandResult) : BitVec 64 :=
  later (m.clockOrZero payload.fromOwner) result.fromOwnerRevision

def publishedTo (m : Mirror) (payload : CollectorCommandPayload)
    (result : CollectorCommandResult) : BitVec 64 :=
  later (m.clockOrZero payload.toOwner) result.toOwnerRevision

structure ClocksStand (m : Mirror) (payload : CollectorCommandPayload) : Prop where
  source : (m.clock payload.fromOwner).isSome
  destination : (m.clock payload.toOwner).isSome
  sourceCurrent : ¬m.clockOrZero payload.fromOwner < payload.expectedFromOwnerRevision
  destinationCurrent : ¬m.clockOrZero payload.toOwner < payload.expectedToOwnerRevision

structure Passes (m : Mirror) (payload : CollectorCommandPayload) (result : CollectorCommandResult)
    (desired changes : List OwnershipEntry) : Prop where
  clocks : ClocksStand m payload
  rows : collectorChanges m payload (publishedFrom m payload result) (publishedTo m payload result)
    desired = some changes

def Publishes (m : Mirror) (payload : CollectorCommandPayload) (result : CollectorCommandResult)
    (desired : List OwnershipEntry) : Prop :=
  ∃ changes, Passes m payload result desired changes ∧ RowsTaken m changes ∧
    ¬ClocksRefused payload (publishedFrom m payload result) (publishedTo m payload result)

/-- A clock is opened for a command that is refused, or rows are written before a clock is. -/
def TornByAuthority (m : Mirror) (payload : CollectorCommandPayload)
    (result : CollectorCommandResult) (desired : List OwnershipEntry) : Prop :=
  Opens m payload ∧ ¬Publishes (opened m payload) payload result desired ∨
    ¬Opens m payload ∧ ∃ changes, Passes m payload result desired changes ∧ RowsTaken m changes ∧
      ClocksRefused payload (publishedFrom m payload result) (publishedTo m payload result) ∧
      WritesFirst m payload (publishedFrom m payload result) changes

def behindClocks (m : Mirror) (payload : CollectorCommandPayload)
    (result : CollectorCommandResult) (desired : List OwnershipEntry) : Mirror × Bool :=
  if m.clockOrZero payload.fromOwner < payload.expectedFromOwnerRevision ∨
      m.clockOrZero payload.toOwner < payload.expectedToOwnerRevision then
    (m, false)
  else
    match collectorChanges m payload (publishedFrom m payload result)
        (publishedTo m payload result) desired with
    | none => (m, false)
    | some changes =>
        m.collectorWrite payload (publishedFrom m payload result) (publishedTo m payload result)
          changes

structure BehindSpec (m : Mirror) (payload : CollectorCommandPayload)
    (result : CollectorCommandResult) (desired : List OwnershipEntry) (answer : Mirror × Bool) :
    Prop where
  refused : answer.2 = false ↔ ¬Publishes m payload result desired
  agree : answer.2 = false → (Agree answer.1 m ↔
    ¬∃ changes, Passes m payload result desired changes ∧ RowsTaken m changes ∧
      ClocksRefused payload (publishedFrom m payload result) (publishedTo m payload result) ∧
      WritesFirst m payload (publishedFrom m payload result) changes)
  keeps : ∀ owner, (m.clock owner).isSome → (answer.1.clock owner).isSome

theorem clock_eq_clockOrZero (h : (m.clock owner).isSome) :
    m.clock owner = some (m.clockOrZero owner) := by
  obtain ⟨revision, hclock⟩ := Option.isSome_iff_exists.mp h
  rw [clockOrZero, hclock]
  rfl

theorem behindClocks_spec (hfrom : (m.clock payload.fromOwner).isSome)
    (hto : (m.clock payload.toOwner).isSome) :
    BehindSpec m payload result desired (m.behindClocks payload result desired) := by
  have hclean : (∀ changes, ¬Passes m payload result desired changes) →
      BehindSpec m payload result desired (m, false) := by
    intro hnone
    refine ⟨⟨fun _ => ?_, fun _ => rfl⟩, fun _ => ⟨fun _ => ?_, fun _ => Agree.refl m⟩,
      fun _ h => h⟩
    · rintro ⟨changes, hpasses, -⟩
      exact hnone changes hpasses
    · rintro ⟨changes, hpasses, -⟩
      exact hnone changes hpasses
  rw [behindClocks]
  by_cases hbehind : m.clockOrZero payload.fromOwner < payload.expectedFromOwnerRevision ∨
      m.clockOrZero payload.toOwner < payload.expectedToOwnerRevision
  · rw [if_pos hbehind]
    refine hclean fun changes hpasses => ?_
    exact hbehind.elim hpasses.clocks.sourceCurrent hpasses.clocks.destinationCurrent
  · rw [if_neg hbehind]
    rw [not_or] at hbehind
    cases hchanges : collectorChanges m payload (publishedFrom m payload result)
        (publishedTo m payload result) desired with
    | none =>
        refine hclean fun changes hpasses => ?_
        rw [hpasses.rows] at hchanges
        cases hchanges
    | some changes =>
        have hpasses : Passes m payload result desired changes :=
          ⟨⟨hfrom, hto, hbehind.1, hbehind.2⟩, hchanges⟩
        have honly : ∀ {other}, Passes m payload result desired other → other = changes := by
          intro other hother
          have hrows := hother.rows
          rw [hchanges, Option.some.injEq] at hrows
          exact hrows.symm
        obtain ⟨hrefused, hagree, huntaken, hkeeps⟩ :=
          collectorWrite_spec (collectorChanges_clocked hchanges) (clock_eq_clockOrZero hfrom)
            (clock_eq_clockOrZero hto) (not_later_lt_left _ _) (not_later_lt_left _ _)
        refine ⟨hrefused.trans ?_, fun hno => ?_, hkeeps⟩
        · constructor
          · rintro hfails ⟨other, hother, hrows, hclocks⟩
            rw [honly hother] at hrows
            exact hfails.elim (fun hnot => hnot hrows) hclocks
          · intro hnot
            by_contra hfine
            rw [not_or, not_not] at hfine
            exact hnot ⟨changes, hpasses, hfine.1, hfine.2⟩
        · by_cases hrows : RowsTaken m changes
          · rw [hagree hno hrows]
            refine not_congr ⟨fun hwrites => ?_, ?_⟩
            · refine ⟨changes, hpasses, hrows, ?_, hwrites⟩
              exact (hrefused.mp hno).resolve_left fun hnot => hnot hrows
            · rintro ⟨other, hother, -, -, hwrites⟩
              rw [honly hother] at hwrites
              exact hwrites
          · rw [huntaken hrows]
            refine ⟨?_, fun _ => Agree.refl m⟩
            rintro - ⟨other, hother, hother', -⟩
            rw [honly hother] at hother'
            exact hrows hother'

theorem openClock_kept (owner other : ItemOwnerIdentity) (h : (m.clock owner).isSome) :
    (m.openClock other).clock owner = m.clock owner := by
  rw [openClock]
  split
  · next hopens =>
    rw [clock_setClock, if_neg]
    rintro rfl
    rw [hopens.1] at h
    cases h
  · rfl

theorem openClock_of_isSome (h : (m.clock owner).isSome) : m.openClock owner = m := by
  rw [openClock, if_neg]
  rintro ⟨hnone, -⟩
  rw [hnone] at h
  cases h

theorem openClock_of_none (h : (m.openClock owner).clock owner = none) : m.openClock owner = m := by
  rw [openClock] at h ⊢
  split
  · next hopens =>
    rw [if_pos hopens, clock_setClock, if_pos rfl] at h
    cases h
  · rfl

theorem openClock_opens (hnone : m.clock owner = none)
    (hvalid : itemOwnerIdentityValid owner = true) : ((m.openClock owner).clock owner).isSome := by
  rw [openClock, if_pos ⟨hnone, hvalid⟩, clock_setClock, if_pos rfl]
  rfl

theorem opened_of_not_opens (h : ¬Opens m payload)
    (hfrom : ((m.openClock payload.fromOwner).clock payload.fromOwner).isSome)
    (hto : ((opened m payload).clock payload.toOwner).isSome) :
    opened m payload = m ∧ (m.clock payload.fromOwner).isSome ∧
      (m.clock payload.toOwner).isSome := by
  rw [Opens, not_or] at h
  have hsource : (m.clock payload.fromOwner).isSome := by
    by_contra hnone
    rw [Bool.not_eq_true, Option.isSome_eq_false_iff, Option.isNone_iff_eq_none] at hnone
    have hinvalid : ¬itemOwnerIdentityValid payload.fromOwner = true := fun hv => h.1 ⟨hnone, hv⟩
    rw [openClock, if_neg fun hboth => hinvalid hboth.2, hnone] at hfrom
    cases hfrom
  have hfirst := openClock_of_isSome hsource
  have hdestination : (m.clock payload.toOwner).isSome := by
    by_contra hnone
    rw [Bool.not_eq_true, Option.isSome_eq_false_iff, Option.isNone_iff_eq_none] at hnone
    have hinvalid : ¬itemOwnerIdentityValid payload.toOwner = true :=
      fun hv => h.2 ⟨hsource, hnone, hv⟩
    rw [opened, hfirst, openClock, if_neg fun hboth => hinvalid hboth.2, hnone] at hto
    cases hto
  refine ⟨?_, hsource, hdestination⟩
  rw [opened, hfirst, openClock_of_isSome hdestination]

theorem authority_eq (hfrom : result.fromOwnerRevision = payload.expectedFromOwnerRevision + 1)
    (hto : result.toOwnerRevision = payload.expectedToOwnerRevision + 1) :
    m.collectorPublishAuthority payload result desired =
      if (m.openClock payload.fromOwner).clock payload.fromOwner = none then
        (m.openClock payload.fromOwner, false)
      else if (opened m payload).clock payload.toOwner = none then (opened m payload, false)
      else (opened m payload).behindClocks payload result desired := by
  rw [collectorPublishAuthority, if_neg (not_or.mpr ⟨not_not.mpr hfrom, not_not.mpr hto⟩),
    ownerRevision_eq]
  cases hsource : (m.openClock payload.fromOwner).clock payload.fromOwner with
  | none => rfl
  | some fromRevision =>
      have hkept := openClock_kept payload.fromOwner payload.toOwner
        (Option.isSome_iff_exists.mpr ⟨fromRevision, hsource⟩)
      have hopened : (m.openClock payload.fromOwner).openClock payload.toOwner =
          opened m payload := rfl
      rw [hopened, hsource] at hkept
      have hfromZero : (opened m payload).clockOrZero payload.fromOwner = fromRevision := by
        rw [clockOrZero, hkept]
        rfl
      rw [if_neg (Option.some_ne_none fromRevision)]
      dsimp only
      rw [ownerRevision_eq, hopened]
      cases hdestination : (opened m payload).clock payload.toOwner with
      | none => rfl
      | some toRevision =>
          have htoZero : (opened m payload).clockOrZero payload.toOwner = toRevision := by
            rw [clockOrZero, hdestination]
            rfl
          cases hfromZero
          cases htoZero
          exact (if_neg (Option.some_ne_none _)).symm

theorem Opens.not_agree (h : Opens m payload)
    (hkeeps : ∀ owner, ((opened m payload).clock owner).isSome → (after.clock owner).isSome) :
    ¬Agree after m := by
  intro hagree
  have hlost : ∀ {owner}, m.clock owner = none → ¬((opened m payload).clock owner).isSome := by
    intro owner hnone hsome
    have hafter := hkeeps owner hsome
    rw [hagree.clock, hnone] at hafter
    cases hafter
  rcases h with ⟨hnone, hvalid⟩ | ⟨hsome, hnone, hvalid⟩
  · refine hlost hnone ?_
    have hopened := openClock_opens hnone hvalid
    rw [opened, openClock_kept payload.fromOwner payload.toOwner hopened]
    exact hopened
  · refine hlost hnone ?_
    rw [opened, openClock_of_isSome hsome]
    exact openClock_opens hnone hvalid

theorem authority_torn_iff
    (hfrom : result.fromOwnerRevision = payload.expectedFromOwnerRevision + 1)
    (hto : result.toOwnerRevision = payload.expectedToOwnerRevision + 1) :
    ((m.collectorPublishAuthority payload result desired).2 = false →
      Agree (m.collectorPublishAuthority payload result desired).1 m) ↔
      ¬TornByAuthority m payload result desired := by
  rw [authority_eq hfrom hto]
  have hnoPasses : ∀ {owner : ItemOwnerIdentity}, m.clock owner = none →
      owner = payload.fromOwner ∨ owner = payload.toOwner →
      ∀ changes, ¬Passes m payload result desired changes := by
    rintro owner hnone (rfl | rfl) changes hpasses
    · have hsome := hpasses.clocks.source
      rw [hnone] at hsome
      cases hsome
    · have hsome := hpasses.clocks.destination
      rw [hnone] at hsome
      cases hsome
  split
  · -- The source has no clock and cannot have one.
    next hsource =>
    have hsame := openClock_of_none hsource
    rw [hsame] at hsource ⊢
    refine ⟨fun _ => ?_, fun _ _ => Agree.refl m⟩
    rintro (⟨hopens | ⟨hsome, -⟩, -⟩ | ⟨-, changes, hpasses, -⟩)
    · have hopened := openClock_opens hopens.1 hopens.2
      rw [hsame, hsource] at hopened
      cases hopened
    · rw [hsource] at hsome
      cases hsome
    · exact hnoPasses hsource (.inl rfl) changes hpasses
  · next hsource =>
    have hsourceSome := Option.isSome_iff_ne_none.mpr hsource
    split
    · -- The destination has none; the source's may have been opened for it.
      next hdestination =>
      have hstays : opened m payload = m.openClock payload.fromOwner :=
        openClock_of_none hdestination
      have hnotPublishes : ¬Publishes (opened m payload) payload result desired := by
        rintro ⟨changes, hpasses, -⟩
        have hsome := hpasses.clocks.destination
        rw [hdestination] at hsome
        cases hsome
      by_cases hopens : Opens m payload
      · refine iff_of_false (fun hwhole => ?_) (not_not.mpr (.inl ⟨hopens, hnotPublishes⟩))
        exact hopens.not_agree (fun _ h => h) (hwhole rfl)
      · have hfirst : (m.clock payload.fromOwner).isSome := by
          by_contra hnone
          rw [Bool.not_eq_true, Option.isSome_eq_false_iff, Option.isNone_iff_eq_none] at hnone
          rw [Opens, not_or] at hopens
          rw [openClock, if_neg fun hboth => hopens.1 hboth, hnone] at hsourceSome
          cases hsourceSome
        rw [hstays, openClock_of_isSome hfirst] at hdestination ⊢
        refine ⟨fun _ => ?_, fun _ _ => Agree.refl m⟩
        rintro (⟨hyes, -⟩ | ⟨-, changes, hpasses, -⟩)
        · exact hopens hyes
        · exact hnoPasses hdestination (.inr rfl) changes hpasses
    · next hdestination =>
      have hdestinationSome := Option.isSome_iff_ne_none.mpr hdestination
      have hsourceOpened : ((opened m payload).clock payload.fromOwner).isSome := by
        rw [opened, openClock_kept payload.fromOwner payload.toOwner hsourceSome]
        exact hsourceSome
      have hspec : BehindSpec (opened m payload) payload result desired
          ((opened m payload).behindClocks payload result desired) :=
        behindClocks_spec hsourceOpened hdestinationSome
      by_cases hopens : Opens m payload
      · by_cases hpublishes : Publishes (opened m payload) payload result desired
        · refine ⟨fun _ => ?_, fun _ hno => absurd hpublishes (hspec.refused.mp hno)⟩
          rintro (⟨-, hnot⟩ | ⟨hnot, -⟩)
          · exact hnot hpublishes
          · exact hnot hopens
        · refine iff_of_false (fun hwhole => ?_) (not_not.mpr (.inl ⟨hopens, hpublishes⟩))
          exact hopens.not_agree hspec.keeps (hwhole (hspec.refused.mpr hpublishes))
      · obtain ⟨hsame, -, -⟩ := opened_of_not_opens hopens hsourceSome hdestinationSome
        rw [hsame] at hspec ⊢
        constructor
        · rintro hwhole (⟨hyes, -⟩ | ⟨-, changes, hpasses, hrows, hclocks, hwrites⟩)
          · exact hopens hyes
          · have hno : (m.behindClocks payload result desired).2 = false := by
              refine hspec.refused.mpr ?_
              rintro ⟨other, hother, -, hfine⟩
              exact hfine hclocks
            exact (hspec.agree hno).mp (hwhole hno) ⟨changes, hpasses, hrows, hclocks, hwrites⟩
        · intro hnot hno
          refine (hspec.agree hno).mpr fun hwrites => ?_
          exact hnot (.inr ⟨hopens, hwrites⟩)

/-- The checks of `item_ownership_runtime_apply_collector` pass, and it wants these rows. -/
structure Wanted (payload : CollectorCommandPayload) (result : CollectorCommandResult)
    (desired : List OwnershipEntry) : Prop where
  action : result.action = payload.action
  present : result.recordPresent = true
  listing : result.entry.listing = payload.listing
  moves : payload.action = .collect ∨ payload.action = .purchase ∨ payload.action = .expire ∨
    payload.action = .cancel ∧ payload.items ≠ []
  rows : collectorDesired payload result (payload.action = .collect) = some desired
  source : result.fromOwnerRevision = payload.expectedFromOwnerRevision + 1
  destination : result.toOwnerRevision = payload.expectedToOwnerRevision + 1

def TornByCollector (m : Mirror) (payload : CollectorCommandPayload)
    (result : CollectorCommandResult) : Prop :=
  ∃ desired, Wanted payload result desired ∧ TornByAuthority m payload result desired

theorem collector_torn_iff (m : Mirror) (payload : CollectorCommandPayload)
    (result : CollectorCommandResult) :
    ((m.applyCollector payload result).2 = false → Agree (m.applyCollector payload result).1 m) ↔
      ¬TornByCollector m payload result := by
  have hclean : (∀ desired, ¬Wanted payload result desired) →
      ∀ {answer : Mirror × Bool}, answer.1 = m →
        ((answer.2 = false → Agree answer.1 m) ↔ ¬TornByCollector m payload result) := by
    intro hnone answer hsame
    rw [hsame]
    exact ⟨fun _ ⟨desired, hwanted, _⟩ => hnone desired hwanted, fun _ _ => Agree.refl m⟩
  rw [applyCollector]
  split
  · next hchecks =>
    refine hclean (fun desired hwanted => ?_) rfl
    rcases hchecks with haction | hpresent | hlisting
    · exact haction hwanted.action
    · rw [hwanted.present] at hpresent
      cases hpresent
    · exact hlisting hwanted.listing
  · next hchecks =>
    simp only [not_or, not_not, Bool.not_eq_false] at hchecks
    obtain ⟨haction, hpresent, hlisting⟩ := hchecks
    dsimp only
    split
    · next hstill =>
      refine hclean (fun desired hwanted => ?_) rfl
      simp only [Bool.and_eq_true, Bool.not_eq_true', decide_eq_false_iff_not, Bool.or_eq_false_iff,
        Bool.and_eq_false_iff] at hstill
      obtain ⟨hcollect, ⟨hpurchase, hexpire⟩, hcancel⟩ := hstill
      rcases hwanted.moves with hmove | hmove | hmove | hmove
      · exact hcollect hmove
      · exact hpurchase hmove
      · exact hexpire hmove
      · exact hcancel.elim (fun h => h hmove.1) (fun h => h hmove.2)
    · next hmoves =>
      cases hrows : collectorDesired payload result (payload.action = .collect) with
      | none =>
          refine hclean (fun desired hwanted => ?_) rfl
          have hsome := hwanted.rows
          rw [hrows] at hsome
          cases hsome
      | some desired =>
          dsimp only
          by_cases hfollows : result.fromOwnerRevision = payload.expectedFromOwnerRevision + 1 ∧
              result.toOwnerRevision = payload.expectedToOwnerRevision + 1
          · have hwanted : Wanted payload result desired := by
              refine ⟨haction, hpresent, hlisting, ?_, hrows, hfollows.1, hfollows.2⟩
              simp only [Bool.and_eq_true, Bool.not_eq_true', decide_eq_false_iff_not,
                Bool.or_eq_false_iff, Bool.and_eq_false_iff] at hmoves
              tauto
            rw [authority_torn_iff hfollows.1 hfollows.2]
            refine not_congr ⟨fun htorn => ⟨desired, hwanted, htorn⟩, ?_⟩
            rintro ⟨other, hother, htorn⟩
            have hsame := hother.rows
            rw [hrows, Option.some.injEq] at hsame
            rw [hsame]
            exact htorn
          · refine hclean (fun other hother => hfollows ⟨hother.source, hother.destination⟩) ?_
            rw [collectorPublishAuthority, if_pos]
            by_contra hboth
            rw [not_or, not_not, not_not] at hboth
            exact hfollows hboth

/-! ## A corpse of the world -/

theorem writePlanned_done (raise : WorldRaise) (result : CorpseLifecycleResult) :
    ∀ {m : Mirror}, (∀ change ∈ planned, (m.find change.uid).isSome) →
      (writePlanned raise result m planned).2 = true := by
  induction planned with
  | nil => exact fun _ => rfl
  | cons change planned ih =>
      intro m hall
      rw [List.forall_mem_cons] at hall
      obtain ⟨entry, hentry⟩ := Option.isSome_iff_exists.mp hall.1
      rw [writePlanned, hentry]
      refine ih fun other hother => ?_
      rw [find_setEntry]
      split
      · rfl
      · exact hall.2 other hother

theorem find_of_mem_rows {row : BitVec 64 × OwnershipEntry} (h : row ∈ m.rows) :
    (m.find row.1).isSome := by
  obtain ⟨pair, hpair, rfl⟩ := List.mem_map.mp h
  exact AList.lookup_isSome.mpr (List.mem_keys_of_mem hpair)

theorem planEntry_uid {sourceUid petUid uid : BitVec 64}
    {durableUids discardedUids : List (BitVec 64)} {planned : PlannedEntry × Bool}
    (h : planEntry m sourceUid petUid durableUids discardedUids uid entry = some planned) :
    planned.1.uid = uid := by
  unfold planEntry at h
  rw [Option.ite_none_left_eq_some, Option.ite_none_left_eq_some] at h
  obtain ⟨-, -, h⟩ := h
  split at h
  · rw [Option.ite_none_left_eq_some, Option.some.injEq] at h
    obtain ⟨-, rfl⟩ := h
    rfl
  · cases h

theorem worldRaisePlan_found (m : Mirror) (raise : WorldRaise) (result : CorpseLifecycleResult)
    (h : worldRaisePlan m raise result = some planned) :
    ∀ change ∈ planned, (m.find change.uid).isSome := by
  rw [worldRaisePlan] at h
  split at h
  · cases h
  · split at h
    · cases h
    · next rows hrows =>
      split at h
      · cases h
        intro change hchange
        obtain ⟨row, hrow, rfl⟩ := List.mem_map.mp hchange
        obtain ⟨found, hfound, hplan⟩ := mem_of_mapM hrows hrow
        rw [planEntry_uid hplan]
        exact find_of_mem_rows (List.mem_of_mem_filter hfound)
      · cases h

theorem applyWorldCorpseRaise_of_plan (m : Mirror) (raise : WorldRaise)
    (result : CorpseLifecycleResult) (h : worldRaisePlan m raise result = some planned) :
    (m.applyWorldCorpseRaise raise result).2 = true := by
  have hdone : (writePlanned raise result m planned).2 = true :=
    writePlanned_done raise result (worldRaisePlan_found m raise result h)
  unfold applyWorldCorpseRaise
  rw [h]
  dsimp only
  split
  · next hrefused =>
    rw [hrefused] at hdone
    cases hdone
  · rfl

theorem applyWorldCorpseRaise_refused {raise : WorldRaise} {result : CorpseLifecycleResult}
    (h : (m.applyWorldCorpseRaise raise result).2 = false) :
    (m.applyWorldCorpseRaise raise result).1 = m := by
  cases hplan : worldRaisePlan m raise result with
  | none =>
      unfold applyWorldCorpseRaise
      rw [hplan]
  | some planned =>
      rw [applyWorldCorpseRaise_of_plan m raise result hplan] at h
      cases h

/-! ## Publications -/

theorem apply_torn_iff (m : Mirror) (payload : ItemTransferPayload) (result : ItemTransferResult) :
    ((m.apply payload result).2 = false → Agree (m.apply payload result).1 m) ↔
      ¬(payload.reason = ItemTransferReason.craft ∧
        ∃ changes, TornByCraft m payload result changes) := by
  rw [apply]
  split
  · next hcraft =>
    rw [craft_torn_iff]
    exact not_congr (and_iff_right hcraft).symm
  · next hplain =>
    refine iff_of_true ?_ fun htorn => hplain htorn.1
    intro hno
    split at hno
    · next hchecks =>
      rw [if_pos hchecks]
      exact Agree.refl m
    · next hchecks =>
      rw [if_neg hchecks]
      split at hno
      · next hparent =>
        rw [if_pos hparent]
        exact Agree.refl m
      · next hparent =>
        rw [if_neg hparent]
        split at hno
        · next hsystem =>
          rw [if_pos hsystem]
          cases hcreated : payload.items.mapM (createdEntry m payload result) with
          | none => exact Agree.refl m
          | some created =>
              rw [hcreated] at hno
              have hbatch := @hydrateBatch_refused m created
              dsimp only at hno ⊢
              split at hno
              · next after hrefused =>
                rw [hrefused] at hbatch
                exact hbatch rfl
              · cases hno
        · next hmove =>
          rw [if_neg hmove, commit_refused hno]
          exact Agree.refl m

/-- The publications that write before they are refused. -/
def Torn (m : Mirror) : Publication → Prop
  | .hydrate entry => TornByHydrate m entry
  | .apply payload result =>
      payload.reason = ItemTransferReason.craft ∧ ∃ changes, TornByCraft m payload result changes
  | .applyCollector payload result => TornByCollector m payload result
  | _ => False

theorem whole_of_refused {answer : Mirror × Bool} (h : answer.2 = false → answer.1 = m) :
    answer.2 = false → Agree answer.1 m := by
  intro hno
  rw [h hno]
  exact Agree.refl m

/-- A publication that is refused leaves both maps as they were, unless it is one of those that
write first: a hydration that only moves its owner's clock, a craft whose rows stand before its
source's clock is refused, a collector command that opens a clock or writes before the last
check. -/
theorem refusal_leaves_mirror_iff (m : Mirror) (publication : Publication) :
    ((m.publish publication).2 = false → Agree (m.publish publication).1 m) ↔
      ¬Torn m publication := by
  cases publication with
  | hydrate entry => exact hydrate_torn_iff m entry
  | hydrateBatch batch => exact iff_of_true hydrateBatch_refused id
  | hydrateManyAtomic batch =>
      refine iff_of_true (whole_of_refused fun hno => ?_) id
      change (m.hydrateManyAtomic batch).2 = false at hno
      change (m.hydrateManyAtomic batch).1 = m
      rw [hydrateManyAtomic] at hno ⊢
      split
      · rfl
      · next hsize =>
        rw [if_neg hsize] at hno
        split
        · rfl
        · next hne =>
          rw [if_neg hne] at hno
          exact commit_refused hno
  | reconcileCollector batch => exact iff_of_true (whole_of_refused commit_refused) id
  | apply payload result => exact apply_torn_iff m payload result
  | applyCollector payload result => exact collector_torn_iff m payload result
  | applyCorpseRelease ownerPid saveId roomVnum result =>
      refine iff_of_true (whole_of_refused fun hno => ?_) id
      change (m.applyCorpseRelease ownerPid saveId roomVnum result).2 = false at hno
      change (m.applyCorpseRelease ownerPid saveId roomVnum result).1 = m
      rw [applyCorpseRelease] at hno ⊢
      split
      · rfl
      · next hroom =>
        rw [if_neg hroom] at hno
        exact commit_refused hno
  | applyCorpseDestruction ownerPid saveId result =>
      exact iff_of_true (whole_of_refused commit_refused) id
  | applyCorpseNestedRelease ownerPid saveId destination target result =>
      refine iff_of_true (whole_of_refused fun hno => ?_) id
      change (m.applyCorpseNestedRelease ownerPid saveId destination target result).2 = false at hno
      change (m.applyCorpseNestedRelease ownerPid saveId destination target result).1 = m
      rw [applyCorpseNestedRelease] at hno ⊢
      split
      · rfl
      · next hdestination =>
        rw [if_neg hdestination] at hno
        exact commit_refused hno
  | applyCorpseResurrection ownerPid saveId playerPid oldRoomVnum result =>
      exact iff_of_true (whole_of_refused commit_refused) id
  | applyCorpseRaise ownerPid saveId playerPid petUid result =>
      exact iff_of_true (whole_of_refused commit_refused) id
  | applyCorpseDiscarded ownerPid saveId itemUids result =>
      refine iff_of_true (whole_of_refused fun hno => ?_) id
      change (m.applyCorpseDiscarded ownerPid saveId itemUids result).2 = false at hno
      change (m.applyCorpseDiscarded ownerPid saveId itemUids result).1 = m
      rw [applyCorpseDiscarded] at hno ⊢
      split
      · rfl
      · next hchecks =>
        rw [if_neg hchecks] at hno
        split
        · rfl
        · next hsome =>
          rw [if_neg hsome] at hno
          exact commit_refused hno
  | applyWorldCorpseRaise raise result =>
      exact iff_of_true (whole_of_refused applyWorldCorpseRaise_refused) id

/-- A row of one item and the clock of its owner, both at revision two. -/
def staleRow (itemRevision ownerRevision : BitVec 64) : OwnershipEntry :=
  { itemUid := 9
    rootItemUid := 9
    parentItemUid := 0
    owner := ⟨ItemOwnerType.player, 7, 0⟩
    itemRevision := itemRevision
    ownerRevision := ownerRevision
    vnum := 100
    state := ItemCustodyState.active }

def heldMirror : Mirror :=
  (Mirror.mk ∅ ∅).setEntry 9 (staleRow 2 2) |>.setClock ⟨ItemOwnerType.player, 7, 0⟩ 2

/-- An old row of an item that comes with a later clock of its owner is refused, and the clock
stays moved. -/
theorem stale_row_moves_clock :
    ¬((heldMirror.publish (.hydrate (staleRow 1 3))).2 = false →
      Agree (heldMirror.publish (.hydrate (staleRow 1 3))).1 heldMirror) := by
  intro hwhole
  have hrefused : (heldMirror.publish (.hydrate (staleRow 1 3))).2 = false := by decide
  have hclock := (hwhole hrefused).clock ⟨ItemOwnerType.player, 7, 0⟩
  have hbefore : heldMirror.clock ⟨ItemOwnerType.player, 7, 0⟩ = some 2 := by decide
  have hafter : (heldMirror.publish (.hydrate (staleRow 1 3))).1.clock
      ⟨ItemOwnerType.player, 7, 0⟩ = some 3 := by decide
  rw [hbefore, hafter] at hclock
  exact absurd hclock (by decide)

end Duris.Item.Mirror
