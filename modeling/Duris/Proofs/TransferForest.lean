import Duris.Proofs.ItemCustody

/-!
# Transfers keep the forest

`descendant_of` walks parents with a bound on its steps, which in a forest of that many
rows is no bound. So the rows a transfer selects are closed under having a parent
selected, and the comparison of them with the payload makes the payload a picture of
them: a row is the selected root of its part, or lies in another row of the payload,
`Hung`. That is all the move has to rely on, and a creation as well.
-/

namespace Duris.Flatfile.Ownership

open Persistence Player Item Economy Relation Forest

variable {payload : ItemTransferPayload}

/-! ## The walk up from a row -/

section Walk

variable {rows : List FlatfileItemOwnershipRecord} {selectedUid : BitVec 64}

theorem findUid_eq_some (hunique : (rows.map FlatfileItemOwnershipRecord.itemUid).Nodup)
    {itemUid : BitVec 64} {row : FlatfileItemOwnershipRecord} :
    rows.find? (fun entry => entry.itemUid == itemUid) = some row ↔
      row ∈ rows ∧ row.itemUid = itemUid := by
  constructor
  · intro hfound
    exact ⟨List.mem_of_find?_eq_some hfound, by simpa using List.find?_some hfound⟩
  · intro ⟨hrow, huid⟩
    rw [← huid]
    exact Keyed.lookup_of_mem hunique hrow

theorem descendantFrom_iff (hunique : (rows.map FlatfileItemOwnershipRecord.itemUid).Nodup) :
    ∀ {steps : Nat} {itemUid : BitVec 64}, descendantFrom rows selectedUid steps itemUid = true ↔
      ∃ n < steps, Path (ParentLink rows) n itemUid selectedUid := by
  intro steps
  induction steps with
  | zero => simp [descendantFrom]
  | succ steps ih =>
      intro itemUid
      rw [descendantFrom]
      split
      · next heq => exact ⟨fun _ => ⟨0, Nat.succ_pos _, heq ▸ .refl _⟩, fun _ => rfl⟩
      · next hne =>
          -- a path to another row starts with a link of this one
          have hfirst {n : Nat} (hpath : Path (ParentLink rows) n itemUid selectedUid) :
              ∃ row ∈ rows, row.itemUid = itemUid ∧ row.parentItemUid ≠ 0 ∧
                ∃ m, n = m + 1 ∧ Path (ParentLink rows) m row.parentItemUid selectedUid := by
            cases hpath with
            | refl => exact absurd rfl hne
            | step hlink hrest =>
                obtain ⟨row, hrow, huid, rfl, hnonzero⟩ := hlink
                exact ⟨row, hrow, huid, hnonzero, _, rfl, hrest⟩
          split
          · next hnone =>
              refine ⟨fun h => absurd h Bool.false_ne_true, fun ⟨n, _, hpath⟩ => ?_⟩
              obtain ⟨row, hrow, huid, _⟩ := hfirst hpath
              rw [(findUid_eq_some hunique).mpr ⟨hrow, huid⟩] at hnone
              cases hnone
          · next parent hfound =>
              obtain ⟨hmem, huid⟩ := (findUid_eq_some hunique).mp hfound
              have hsame {row : FlatfileItemOwnershipRecord} (hrow : row ∈ rows)
                  (heq : row.itemUid = itemUid) : row = parent :=
                Keyed.eq_of_key_eq hunique hrow hmem (heq.trans huid.symm)
              split
              · next hzero =>
                  refine ⟨fun h => absurd h Bool.false_ne_true, fun ⟨n, _, hpath⟩ => ?_⟩
                  obtain ⟨row, hrow, heq, hnonzero, _⟩ := hfirst hpath
                  exact absurd hzero (hsame hrow heq ▸ hnonzero)
              · next hnonzero =>
                  rw [ih]
                  constructor
                  · intro ⟨n, hn, hpath⟩
                    exact ⟨n + 1, by omega, .step ⟨parent, hmem, huid, rfl, hnonzero⟩ hpath⟩
                  · intro ⟨n, hn, hpath⟩
                    obtain ⟨row, hrow, heq, _, m, rfl, hrest⟩ := hfirst hpath
                    exact ⟨m, by omega, hsame hrow heq ▸ hrest⟩

theorem descendantOf_iff (hunique : (rows.map FlatfileItemOwnershipRecord.itemUid).Nodup)
    (hacyclic : Acyclic (ParentLink rows)) {row : FlatfileItemOwnershipRecord} :
    descendantOf rows row selectedUid = true ↔
      ReflTransGen (ParentLink rows) row.itemUid selectedUid := by
  unfold descendantOf
  rw [descendantFrom_iff hunique]
  constructor
  · intro ⟨n, _, hpath⟩
    exact hpath.reaches
  · intro hreach
    obtain ⟨n, hpath⟩ := Path.of_reaches hreach
    have hnodes (k p : BitVec 64) (hlink : ParentLink rows k p) :
        k ∈ rows.map FlatfileItemOwnershipRecord.itemUid := by
      obtain ⟨row, hrow, huid, _⟩ := hlink
      exact List.mem_map.mpr ⟨row, hrow, huid⟩
    have hlength := hpath.length_le hacyclic hnodes
    rw [List.length_map] at hlength
    exact ⟨n, by omega, hpath⟩

end Walk

/-! ## What a transfer selects -/

theorem mem_selectedRows {catalog : OwnershipCatalog} {row : FlatfileItemOwnershipRecord} :
    row ∈ selectedRows catalog payload ↔ row ∈ rootItems catalog payload ∧
      ∃ selectedUid ∈ selectedRoots payload,
        descendantOf (rootItems catalog payload) row selectedUid = true := by
  rw [selectedRows, (sortRows_perm _).mem_iff, List.mem_filter, List.any_eq_true]

theorem mem_rootItems {catalog : OwnershipCatalog} {row : FlatfileItemOwnershipRecord} :
    row ∈ rootItems catalog payload ↔ row ∈ catalog.items ∧
      row.rootItemUid ∈ payload.items.map ItemTransferEntry.rootItemUid := by
  rw [rootItems, List.mem_filter, List.contains_iff_mem]

theorem CustodyForest.filter {items : List FlatfileItemOwnershipRecord} (h : CustodyForest items)
    (kept : FlatfileItemOwnershipRecord → Bool) :
    ((items.filter kept).map FlatfileItemOwnershipRecord.itemUid).Nodup ∧
      Acyclic (ParentLink (items.filter kept)) := by
  refine ⟨h.unique.sublist (List.filter_sublist.map _), h.acyclic.mono fun k p hlink => ?_⟩
  obtain ⟨row, hrow, hrest⟩ := hlink
  exact ⟨row, List.mem_of_mem_filter hrow, hrest⟩

section Selected

variable {catalog : OwnershipCatalog} {payload : ItemTransferPayload}

variable {row : FlatfileItemOwnershipRecord}

theorem selectedRows_iff (h : CustodyForest catalog.items) :
    row ∈ selectedRows catalog payload ↔ row ∈ rootItems catalog payload ∧
      ∃ selectedUid ∈ selectedRoots payload,
        ReflTransGen (ParentLink (rootItems catalog payload)) row.itemUid selectedUid := by
  obtain ⟨hunique, hacyclic⟩ := h.filter fun entry =>
    (payload.items.map ItemTransferEntry.rootItemUid).contains entry.rootItemUid
  rw [mem_selectedRows]
  refine and_congr_right fun _ => exists_congr fun _ => and_congr_right fun _ => ?_
  exact descendantOf_iff hunique hacyclic

theorem selectedRows_subset (h : row ∈ selectedRows catalog payload) : row ∈ catalog.items :=
  (mem_rootItems.mp (mem_selectedRows.mp h).1).1

theorem selectedRows_closed (h : CustodyForest catalog.items) {parent : FlatfileItemOwnershipRecord}
    (hrow : row ∈ catalog.items) (hparent : parent ∈ selectedRows catalog payload)
    (hlink : parent.itemUid = row.parentItemUid) (hnonzero : row.parentItemUid ≠ 0)
    (hsame : SameTree row parent) : row ∈ selectedRows catalog payload := by
  obtain ⟨hroots, selectedUid, hselected, hreach⟩ := (selectedRows_iff h).mp hparent
  have hmem : row ∈ rootItems catalog payload :=
    mem_rootItems.mpr ⟨hrow, hsame.root ▸ (mem_rootItems.mp hroots).2⟩
  exact (selectedRows_iff h).mpr ⟨hmem, selectedUid, hselected,
    .head ⟨row, hmem, rfl, hlink.symm, hlink ▸ hnonzero⟩ hreach⟩

theorem selectedRows_step (h : CustodyForest catalog.items)
    (hrow : row ∈ selectedRows catalog payload)
    (hlive : ∀ row ∈ selectedRows catalog payload, row.state ≠ ItemCustodyState.destroyed) :
    row.itemUid ∈ selectedRoots payload ∨
      ∃ parent ∈ selectedRows catalog payload, parent.itemUid = row.parentItemUid ∧
        row.parentItemUid ≠ 0 := by
  obtain ⟨hmem, selectedUid, hselected, hreach⟩ := (selectedRows_iff h).mp hrow
  cases ReflTransGen.cases_head hreach with
  | inl heq => exact .inl (heq ▸ hselected)
  | inr hstep =>
      obtain ⟨p, ⟨other, hother, huid, hparent, hnonzero⟩, hrest⟩ := hstep
      have hother' := (mem_rootItems.mp hother).1
      have heq := eq_of_uid h hother' (mem_rootItems.mp hmem).1 huid
      subst heq hparent
      obtain ⟨parent, hparent, huid, hsame⟩ := h.joined other hother' (hlive other hrow) hnonzero
      refine .inr ⟨parent, (selectedRows_iff h).mpr ⟨?_, selectedUid, hselected, ?_⟩,
        huid, hnonzero⟩
      · exact mem_rootItems.mpr ⟨hparent, hsame.root ▸ (mem_rootItems.mp hmem).2⟩
      · rw [huid]
        exact hrest

end Selected

/-! ## Moves -/

theorem rowMatches_iff {owner : ItemOwnerIdentity} {stored : FlatfileItemOwnershipRecord}
    {expected : ItemTransferEntry} :
    rowMatches owner stored expected = true ↔ stored.itemUid = expected.itemUid ∧
      stored.rootItemUid = expected.rootItemUid ∧ stored.parentItemUid = expected.parentItemUid ∧
      stored.owner = owner ∧ stored.itemRevision = expected.expectedItemRevision ∧
      stored.vnum = expected.vnum ∧ stored.state = expected.expectedState := by
  simp only [rowMatches, Bool.and_eq_true, beq_iff_eq, itemOwnerIdentityEqual_iff, and_assoc]

theorem compareRows_matches {owner : ItemOwnerIdentity} :
    ∀ {rows : List FlatfileItemOwnershipRecord} {entries : List ItemTransferEntry}
      {highest : BitVec 64}, rows.length = entries.length →
        (compareRows owner rows entries highest).2 = true →
          List.Forall₂ (fun stored expected => rowMatches owner stored expected = true) rows
            entries := by
  intro rows
  induction rows with
  | nil =>
      intro entries highest hlength _
      rw [List.eq_nil_of_length_eq_zero hlength.symm]
      exact .nil
  | cons stored rows ih =>
      intro entries highest hlength h
      cases entries with
      | nil => cases hlength
      | cons expected entries =>
          simp only [compareRows] at h
          split at h
          · next hmatch => exact .cons hmatch (ih (Nat.succ.inj hlength) h)
          · cases h

section Matched

variable {owner : ItemOwnerIdentity} {rows : List FlatfileItemOwnershipRecord}
  {entries : List ItemTransferEntry}
  (h : List.Forall₂ (fun stored expected => rowMatches owner stored expected = true) rows entries)

include h

theorem matched_uids :
    rows.map FlatfileItemOwnershipRecord.itemUid = entries.map ItemTransferEntry.itemUid := by
  have huids := h.imp fun stored expected hmatch => (rowMatches_iff.mp hmatch).1
  rw [← List.forall₂_eq_eq_eq]
  exact List.forall₂_map_left_iff.mpr (List.forall₂_map_right_iff.mpr huids)

theorem matched_entry {row : FlatfileItemOwnershipRecord} (hrow : row ∈ rows) :
    ∃ entry ∈ entries, rowMatches owner row entry = true := by
  obtain ⟨index, hindex, rfl⟩ := List.getElem_of_mem hrow
  have hindex' : index < entries.length := h.length_eq ▸ hindex
  exact ⟨entries[index], List.getElem_mem hindex',
    (List.forall₂_iff_get.mp h).2 index hindex hindex'⟩

theorem matched_row {entry : ItemTransferEntry} (hentry : entry ∈ entries) :
    ∃ row ∈ rows, rowMatches owner row entry = true := by
  obtain ⟨index, hindex, rfl⟩ := List.getElem_of_mem hentry
  have hindex' : index < rows.length := h.length_eq ▸ hindex
  exact ⟨rows[index], List.getElem_mem hindex',
    (List.forall₂_iff_get.mp h).2 index hindex' hindex⟩

end Matched

theorem moveRefusal_eq_none :
    ∀ {rows : List FlatfileItemOwnershipRecord}, moveRefusal payload rows = none →
      ∀ row ∈ rows, row.itemRevision ≠ BitVec.allOnes 64 ∧
        ∃ topology, itemTransferTargetTopology payload row.itemUid = some topology := by
  intro rows
  induction rows with
  | nil => intro _ row hrow; cases hrow
  | cons head rows ih =>
      intro h row hrow
      rw [moveRefusal] at h
      split at h
      · cases h
      · next hrevision =>
          split at h
          · cases h
          · next htopology =>
              rcases List.mem_cons.mp hrow with rfl | hmem
              · refine ⟨hrevision, Option.isSome_iff_exists.mp ?_⟩
                simpa [Option.isSome_iff_ne_none] using htopology
              · exact ih h row hmem

/-- A payload that expects its rows there and does not put them into one of them. -/
structure Movable (payload : ItemTransferPayload) : Prop where
  reason : payload.reason ≠ ItemTransferReason.craft
  live : ∀ entry ∈ payload.items, entry.expectedState ≠ ItemCustodyState.destroyed
  apart : payload.targetParentItemUid ≠ 0 →
    ∀ entry ∈ payload.items, entry.itemUid ≠ payload.targetParentItemUid

section Moved

variable {catalog after : OwnershipCatalog} {payload : ItemTransferPayload}

structure Pictured (payload : ItemTransferPayload) (row : FlatfileItemOwnershipRecord)
    (entry : ItemTransferEntry) : Prop where
  mem : entry ∈ payload.items
  matched : rowMatches payload.fromOwner row entry = true
  found : findPayloadItem payload row.itemUid = some entry

theorem Moved.matches (h : Moved catalog payload after) :
    List.Forall₂ (fun stored expected => rowMatches payload.fromOwner stored expected = true)
      (selectedRows catalog payload) payload.items := compareRows_matches h.count h.compared

theorem Moved.uids (h : Moved catalog payload after) :
    (selectedRows catalog payload).map FlatfileItemOwnershipRecord.itemUid =
      payload.items.map ItemTransferEntry.itemUid := matched_uids h.matches

theorem Moved.ascending (hforest : CustodyForest catalog.items)
    (h : Moved catalog payload after) :
    (payload.items.map ItemTransferEntry.itemUid).Pairwise (· < ·) := by
  have hordered : Sorted.Ordered uidLess FlatfileItemOwnershipRecord.itemUid
      (selectedRows catalog payload) :=
    sortRows_ordered (hforest.unique.sublist
      ((List.filter_sublist.trans List.filter_sublist).map _))
  rw [← h.uids, List.pairwise_map]
  exact hordered.imp fun hless => of_decide_eq_true hless

variable {row : FlatfileItemOwnershipRecord}

theorem Moved.pictured (hforest : CustodyForest catalog.items) (h : Moved catalog payload after)
    (hrow : row ∈ selectedRows catalog payload) : ∃ entry, Pictured payload row entry := by
  obtain ⟨entry, hentry, hmatch⟩ := matched_entry h.matches hrow
  refine ⟨entry, hentry, hmatch, ?_⟩
  rw [(rowMatches_iff.mp hmatch).1]
  exact findItem_of_mem (h.ascending hforest) _ hentry

theorem Moved.live (hforest : CustodyForest catalog.items) (hmovable : Movable payload)
    (h : Moved catalog payload after) (hrow : row ∈ selectedRows catalog payload) :
    row.state ≠ ItemCustodyState.destroyed := by
  obtain ⟨entry, hpictured⟩ := h.pictured hforest hrow
  obtain ⟨_, _, _, _, _, _, hstate⟩ := rowMatches_iff.mp hpictured.matched
  rw [hstate]
  exact hmovable.live entry hpictured.mem

theorem Moved.exists_selected (h : Moved catalog payload after) {itemUid : BitVec 64}
    (hin : itemUid ∈ payload.items.map ItemTransferEntry.itemUid) :
    ∃ row ∈ selectedRows catalog payload, row.itemUid = itemUid :=
  List.mem_map.mp (h.uids ▸ hin)

theorem Moved.hung (hforest : CustodyForest catalog.items) (hmovable : Movable payload)
    (h : Moved catalog payload after) {entry : ItemTransferEntry}
    (hrow : row ∈ selectedRows catalog payload) (hpictured : Pictured payload row entry) :
    Hung payload entry := by
  obtain ⟨huid, _, hparent, _⟩ := rowMatches_iff.mp hpictured.matched
  obtain ⟨_, topology, htopology⟩ := moveRefusal_eq_none h.movable row hrow
  have hroot := (targetTopologyFor_eq_some hmovable.reason (huid ▸ hpictured.found)
    (huid ▸ htopology)).1
  by_cases hmulti : payload.multiRoot = true
  · exact hung_of_climb (h.ascending hforest) (.inr hmulti) hpictured.mem hroot
  · -- one selected root for all of them
    have hsingle (uid uid' : BitVec 64) :
        selectedRootFor payload uid = selectedRootFor payload uid' := by
      simp only [selectedRootFor, if_neg hmovable.reason, if_pos (eq_false_of_ne_true hmulti)]
    rcases selectedRows_step hforest hrow fun _ => h.live hforest hmovable with
      hselected | ⟨parent, hmem, hlink, _⟩
    · left
      obtain ⟨_, hself⟩ := List.mem_filter.mp hselected
      rw [beq_iff_eq] at hself
      rw [← huid]
      exact hself.symm
    · right
      obtain ⟨entry', hpictured'⟩ := h.pictured hforest hmem
      refine ⟨entry', hpictured'.mem, ?_, hsingle _ _⟩
      rw [← (rowMatches_iff.mp hpictured'.matched).1, hlink, hparent]

structure Placed (payload : ItemTransferPayload) (row : FlatfileItemOwnershipRecord)
    (root : BitVec 64) (after : FlatfileItemOwnershipRecord) : Prop where
  rootItem : after.rootItemUid =
    if payload.targetParentItemUid ≠ 0 then payload.targetRootItemUid else root
  parentItem : after.parentItemUid =
    if row.itemUid = root then payload.targetParentItemUid else row.parentItemUid
  owner : after.owner = payload.toOwner
  state : after.state = if payload.toOwner.type = ItemOwnerType.destruction then
    ItemCustodyState.destroyed else ItemCustodyState.active
  revision : after.itemRevision = row.itemRevision + 1

theorem Moved.placed (hmovable : Movable payload) (h : Moved catalog payload after)
    {entry : ItemTransferEntry} (hrow : row ∈ selectedRows catalog payload)
    (hpictured : Pictured payload row entry) :
    Placed payload row (selectedRootFor payload entry.itemUid) (moveRow payload row) := by
  obtain ⟨huid, _, hlink, _⟩ := rowMatches_iff.mp hpictured.matched
  obtain ⟨_, ⟨root, parent⟩, htopology⟩ := moveRefusal_eq_none h.movable row hrow
  have hplace : targetTopologyFor payload entry.itemUid = some (root, parent) := huid ▸ htopology
  obtain ⟨_, hroot, hparent⟩ := targetTopologyFor_eq_some hmovable.reason
    (huid ▸ hpictured.found) hplace
  rw [moveRow, htopology]
  exact ⟨hroot, by rw [huid, hlink]; exact hparent, rfl, rfl, rfl⟩

theorem targetParentMatches_parent (hformed : WellFormed catalog)
    (h : targetParentMatches catalog payload = true) (hnonzero : payload.targetParentItemUid ≠ 0) :
    ∃ parent ∈ catalog.items, parent.itemUid = payload.targetParentItemUid ∧
      parent.rootItemUid = payload.targetRootItemUid ∧ parent.owner = payload.toOwner ∧
      parent.state = ItemCustodyState.active := by
  rw [targetParentMatches, if_neg hnonzero] at h
  split at h
  · cases h
  · next parent hfound =>
      obtain ⟨hmem, huid⟩ := (findRow_eq_some hformed.items).mp hfound
      simp only [Bool.and_eq_true, beq_iff_eq, itemOwnerIdentityEqual_iff] at h
      exact ⟨parent, hmem, huid, h.1.1.1, h.1.1.2, h.2⟩

/-- A move is an update: selected rows go to the top, into the target, or along. -/
theorem Moved.update (hformed : WellFormed catalog) (hmovable : Movable payload)
    (h : Moved catalog payload after) (hparent : targetParentMatches catalog payload = true) :
    Update catalog.items
      (fun row => if ((selectedRows catalog payload).map
        FlatfileItemOwnershipRecord.itemUid).contains row.itemUid then moveRow payload row else row)
      (· ∈ (selectedRows catalog payload).map FlatfileItemOwnershipRecord.itemUid) := by
  have hforest := hformed.forest
  have hselected {row : FlatfileItemOwnershipRecord} (hrow : row ∈ catalog.items)
      (hin : row.itemUid ∈ (selectedRows catalog payload).map
        FlatfileItemOwnershipRecord.itemUid) : row ∈ selectedRows catalog payload := by
    obtain ⟨other, hother, huid⟩ := List.mem_map.mp hin
    rwa [eq_of_uid hforest (selectedRows_subset hother) hrow huid] at hother
  have hin {row : FlatfileItemOwnershipRecord} (hrow : row ∈ selectedRows catalog payload) :
      row.itemUid ∈ (selectedRows catalog payload).map FlatfileItemOwnershipRecord.itemUid :=
    List.mem_map_of_mem hrow
  have hf {row : FlatfileItemOwnershipRecord} (hrow : row ∈ selectedRows catalog payload) :
      (if ((selectedRows catalog payload).map FlatfileItemOwnershipRecord.itemUid).contains
        row.itemUid then moveRow payload row else row) = moveRow payload row :=
    if_pos (List.contains_iff_mem.mpr (hin hrow))
  refine ⟨fun row _ => ?_, fun row _ hstays => ?_, fun row hrow hmoves =>
    h.live hforest hmovable (hselected hrow hmoves), fun row hrow hlive hnonzero hmoves => ?_,
    fun row hrow hmoves => ?_⟩
  · split
    · exact moveRow_itemUid payload row
    · rfl
  · rw [if_neg (mt List.contains_iff_mem.mp hstays)]
    exact .refl row
  · obtain ⟨parent, hmem, huid, hsame⟩ := hforest.joined row hrow hlive hnonzero
    exact hin (selectedRows_closed hforest hrow
      (hselected hmem (huid ▸ hmoves)) huid hnonzero hsame)
  · have hrow' := hselected hrow hmoves
    obtain ⟨entry, hpictured⟩ := h.pictured hforest hrow'
    obtain ⟨huid, _, hlink, _⟩ := rowMatches_iff.mp hpictured.matched
    have hplaced := h.placed hmovable hrow' hpictured
    by_cases htop : row.itemUid = selectedRootFor payload entry.itemUid
    · have hparentUid := hplaced.parentItem
      rw [if_pos htop] at hparentUid
      by_cases hzero : payload.targetParentItemUid = 0
      · refine .top ?_ ?_
        · rw [hf hrow', hparentUid, hzero]
        · rw [hf hrow', hplaced.rootItem, if_neg (not_not.mpr hzero), htop]
      · obtain ⟨parent, hmem, hparentIs, hroot, howner, hstate⟩ :=
          targetParentMatches_parent hformed hparent hzero
        refine .under hmem (by rw [hstate]; decide) (fun hin => ?_) ?_
          (hparentIs ▸ hzero) fun hlive => ?_
        · rw [h.uids] at hin
          obtain ⟨other, hother, heq⟩ := List.mem_map.mp hin
          exact hmovable.apart hzero other hother (heq.trans hparentIs)
        · rw [hf hrow', hparentUid, hparentIs]
        · rw [hf hrow'] at hlive ⊢
          refine ⟨howner.trans hplaced.owner.symm, ?_, ?_⟩
          · rw [hplaced.state] at hlive ⊢
            rw [hstate, if_neg fun hgone => hlive (if_pos hgone)]
          · rw [hplaced.rootItem, if_pos hzero, hroot]
    · rcases h.hung hforest hmovable hrow' hpictured with hself | ⟨entry', hmem', huid', hroot'⟩
      · exact absurd (huid.trans hself) htop
      · -- the parent is a row of the payload, and goes to the same place
        obtain ⟨parent, hmem, hparentUid⟩ := h.exists_selected (List.mem_map_of_mem hmem')
        obtain ⟨entry'', hpictured'⟩ := h.pictured hforest hmem
        have hplaced' := h.placed hmovable hmem hpictured'
        have hrootSame : selectedRootFor payload entry''.itemUid =
            selectedRootFor payload entry.itemUid := by
          rw [← hroot', ← hparentUid, (rowMatches_iff.mp hpictured'.matched).1]
        have hupper : parent.itemUid = row.parentItemUid :=
          hparentUid.trans (huid'.trans hlink.symm)
        have hmemParent := selectedRows_subset hmem
        have hnonzero := hformed.nonzero parent hmemParent
        refine .along hmemParent (.single ⟨row, hrow, rfl, hupper.symm, hnonzero⟩) (hin hmem) ?_
          hnonzero fun _ => ?_
        · rw [hf hrow', hplaced.parentItem, if_neg htop, hupper]
        · rw [hf hrow', hf hmem]
          refine ⟨?_, ?_, ?_⟩
          · rw [hplaced.owner, hplaced'.owner]
          · rw [hplaced.state, hplaced'.state]
          · rw [hplaced.rootItem, hplaced'.rootItem, hrootSame]

theorem Moved.keepsForest (hformed : WellFormed catalog) (hmovable : Movable payload)
    (h : Moved catalog payload after) (hparent : targetParentMatches catalog payload = true) :
    KeepsForest catalog after := by
  rw [h.result]
  refine hformed.with_update (ordered_of_owners (transferOwners_owners ..) hformed.owners)
    (h.update hformed hmovable hparent) fun row hrow => .ite fun hin => ?_
  obtain ⟨other, hother, huid⟩ := List.mem_map.mp (List.contains_iff_mem.mp hin)
  rw [eq_of_uid hformed.forest (selectedRows_subset hother) hrow huid] at hother
  obtain ⟨entry, hpictured⟩ := h.pictured hformed.forest hother
  exact .of_revision (moveRow_itemUid payload row)
    (fun hdestroyed => absurd hdestroyed (h.live hformed.forest hmovable hother))
    (h.placed hmovable hother hpictured).revision
    (moveRefusal_eq_none h.movable row hother).1

end Moved

/-! ## Creations -/

def CreationLink (payload : ItemTransferPayload) (itemUid parentUid : BitVec 64) : Prop :=
  ∃ entry ∈ payload.items, entry.itemUid = itemUid ∧ parentUid ≠ 0 ∧
    parentUid = if itemUid = selectedRootFor payload itemUid then payload.targetParentItemUid
      else entry.parentItemUid

/-- A payload whose rows make a forest of their own, with nothing in what they go into. -/
structure Creatable (payload : ItemTransferPayload) : Prop where
  reason : payload.reason ≠ ItemTransferReason.craft
  ascending : (payload.items.map ItemTransferEntry.itemUid).Pairwise (· < ·)
  nonzero : ∀ entry ∈ payload.items, entry.itemUid ≠ 0
  hung : ∀ entry ∈ payload.items, Hung payload entry
  grounded : ∀ entry ∈ payload.items, Grounded (CreationLink payload) entry.itemUid

section Created

variable {catalog after : OwnershipCatalog} {payload : ItemTransferPayload}

structure CreatedFrom (payload : ItemTransferPayload) (entry : ItemTransferEntry)
    (row : FlatfileItemOwnershipRecord) : Prop where
  mem : entry ∈ payload.items
  uid : row.itemUid = entry.itemUid
  rootItem : row.rootItemUid = if payload.targetParentItemUid ≠ 0 then payload.targetRootItemUid
    else selectedRootFor payload entry.itemUid
  parentItem : row.parentItemUid = if entry.itemUid = selectedRootFor payload entry.itemUid then
    payload.targetParentItemUid else entry.parentItemUid
  owner : row.owner = payload.toOwner
  state : row.state = ItemCustodyState.active

theorem Creatable.from (hcreatable : Creatable payload) {row : FlatfileItemOwnershipRecord}
    (hrow : row ∈ (createRows payload payload.items).1) :
    ∃ entry, CreatedFrom payload entry row := by
  obtain ⟨entry, hentry, ⟨root, parent⟩, htopology, rfl⟩ := mem_createRows hrow
  have hfound : findPayloadItem payload entry.itemUid = some entry :=
    findItem_of_mem hcreatable.ascending entry hentry
  obtain ⟨_, hroot, hparent⟩ := targetTopologyFor_eq_some hcreatable.reason hfound htopology
  exact ⟨entry, hentry, rfl, hroot, hparent, rfl, rfl⟩

theorem Creatable.link (hcreatable : Creatable payload) {k p : BitVec 64}
    (h : ParentLink (createRows payload payload.items).1 k p) : CreationLink payload k p := by
  obtain ⟨row, hrow, rfl, rfl, hnonzero⟩ := h
  obtain ⟨entry, hfrom⟩ := hcreatable.from hrow
  refine ⟨entry, hfrom.mem, hfrom.uid.symm, hnonzero, ?_⟩
  rw [hfrom.parentItem, hfrom.uid]

theorem Creatable.unique (hcreatable : Creatable payload) {entry other : ItemTransferEntry}
    (hentry : entry ∈ payload.items) (hother : other ∈ payload.items)
    (heq : entry.itemUid = other.itemUid) : entry = other :=
  Keyed.eq_of_key_eq (nodup_of_ascending hcreatable.ascending) hentry hother heq

theorem Creatable.acyclic (hcreatable : Creatable payload) : Acyclic (CreationLink payload) := by
  refine acyclic_of_grounded (fun k p q hp hq => ?_) fun k => ?_
  · obtain ⟨entry, hentry, rfl, _, rfl⟩ := hp
    obtain ⟨other, hother, heq, _, rfl⟩ := hq
    rw [hcreatable.unique hother hentry heq]
  · by_cases hrow : ∃ entry ∈ payload.items, entry.itemUid = k
    · obtain ⟨entry, hentry, rfl⟩ := hrow
      exact hcreatable.grounded entry hentry
    · exact .of_top fun p ⟨entry, hentry, huid, _⟩ => hrow ⟨entry, hentry, huid⟩

theorem grounded_entry (hascending : (payload.items.map ItemTransferEntry.itemUid).Pairwise (· < ·))
    (hapart : ∀ entry ∈ payload.items, entry.itemUid ≠ payload.targetParentItemUid)
    {entry : ItemTransferEntry} (hentry : entry ∈ payload.items)
    (hparent : entry.itemUid ≠ selectedRootFor payload entry.itemUid → entry.parentItemUid ≠ 0 →
      Grounded (CreationLink payload) entry.parentItemUid) :
    Grounded (CreationLink payload) entry.itemUid := by
  have hthis {p : BitVec 64} (hlink : CreationLink payload entry.itemUid p) :
      p ≠ 0 ∧ p = if entry.itemUid = selectedRootFor payload entry.itemUid then
        payload.targetParentItemUid else entry.parentItemUid := by
    obtain ⟨other, hother, huid, hnonzero, hp⟩ := hlink
    rw [Keyed.eq_of_key_eq (nodup_of_ascending hascending) hother hentry huid] at hp
    exact ⟨hnonzero, hp⟩
  by_cases hlinked : ∃ p, CreationLink payload entry.itemUid p
  · obtain ⟨p, hlink⟩ := hlinked
    obtain ⟨hnonzero, hp⟩ := hthis hlink
    refine .of_link hlink ?_
    split at hp
    · -- what it is put into is not of the payload
      exact .of_top fun q ⟨other, hother, huid, _⟩ => hapart other hother (huid.trans hp)
    · next htop => exact hp ▸ hparent htop (hp ▸ hnonzero)
  · exact .of_top fun p hlink => hlinked ⟨p, hlink⟩

theorem Created.addition (hformed : WellFormed catalog) (hcreatable : Creatable payload)
    (h : Created catalog payload after) (hparent : targetParentMatches catalog payload = true) :
    Addition catalog.items (createRows payload payload.items).1 where
  unique := by
    rw [createRows_uids h.complete]
    exact nodup_of_ascending hcreatable.ascending
  fresh row hrow other hother := by
    obtain ⟨entry, hfrom⟩ := hcreatable.from hrow
    rw [hfrom.uid]
    exact (findRow_eq_none hformed.items).mp (h.uidsFree entry hfrom.mem) other hother
  live row hrow := by
    obtain ⟨entry, hfrom⟩ := hcreatable.from hrow
    rw [hfrom.state]
    decide
  rooted row hrow hzero := by
    obtain ⟨entry, hfrom⟩ := hcreatable.from hrow
    have hparentItem := hfrom.parentItem
    rw [hzero] at hparentItem
    split at hparentItem
    · next htop => rw [hfrom.rootItem, if_neg (not_not.mpr hparentItem.symm), ← htop, hfrom.uid]
    · next htop =>
        rcases hcreatable.hung entry hfrom.mem with hself | ⟨parent, hmem, huid, _⟩
        · exact absurd hself htop
        · exact absurd (huid.trans hparentItem.symm) (hcreatable.nonzero parent hmem)
  joined row hrow hnonzero := by
    obtain ⟨entry, hfrom⟩ := hcreatable.from hrow
    have hparentItem := hfrom.parentItem
    split at hparentItem
    · next htop =>
        have htarget : payload.targetParentItemUid ≠ 0 := hparentItem ▸ hnonzero
        obtain ⟨parent, hmem, huid, hroot, howner, hstate⟩ :=
          targetParentMatches_parent hformed hparent htarget
        refine ⟨parent, List.mem_append_left _ hmem, huid.trans hparentItem.symm,
          howner.trans hfrom.owner.symm, hstate.trans hfrom.state.symm, ?_⟩
        rw [hroot, hfrom.rootItem, if_pos htarget]
    · next htop =>
        rcases hcreatable.hung entry hfrom.mem with hself | ⟨parent, hmem, huid, hroot⟩
        · exact absurd hself htop
        · have hin : parent.itemUid ∈ (createRows payload payload.items).1.map
              FlatfileItemOwnershipRecord.itemUid := by
            rw [createRows_uids h.complete]
            exact List.mem_map_of_mem hmem
          obtain ⟨other, hother, hotherUid⟩ := List.mem_map.mp hin
          obtain ⟨entry', hfrom'⟩ := hcreatable.from hother
          have heq := hcreatable.unique hfrom'.mem hmem (hfrom'.uid.symm.trans hotherUid)
          refine ⟨other, List.mem_append_right _ hother,
            hotherUid.trans (huid.trans hparentItem.symm),
            hfrom'.owner.trans hfrom.owner.symm, hfrom'.state.trans hfrom.state.symm, ?_⟩
          rw [hfrom'.rootItem, hfrom.rootItem, heq, hroot]
  acyclic := hcreatable.acyclic.mono fun _ _ hlink => hcreatable.link hlink

end Created

variable {catalog : OwnershipCatalog}

theorem WellFormed.with_addition (h : WellFormed catalog) {owners : List OwnerState}
    (howners : Sorted.Ordered ownerLess OwnerState.owner owners)
    {rows : List FlatfileItemOwnershipRecord} (hadded : Addition catalog.items rows)
    (hnonzero : ∀ row ∈ rows, row.itemUid ≠ 0) :
    KeepsForest catalog { catalog with owners, items := sortRows (catalog.items ++ rows) } where
  wellFormed := {
    owners := howners
    items := sortRows_ordered (h.forest.append hadded).unique
    nonzero := fun row hrow => by
      rcases List.mem_append.mp ((sortRows_perm _).mem_iff.mp hrow) with hold | hnew
      · exact h.nonzero row hold
      · exact hnonzero row hnew
    forest := (h.forest.append hadded).perm (sortRows_perm _) }
  evolved := (Evolved.append catalog.items rows).perm (sortRows_perm _)

theorem Created.keepsForest {after : OwnershipCatalog} (hformed : WellFormed catalog)
    (hcreatable : Creatable payload) (h : Created catalog payload after)
    (hparent : targetParentMatches catalog payload = true) : KeepsForest catalog after := by
  rw [h.result]
  refine hformed.with_addition (ordered_of_owners (transferOwners_owners ..) hformed.owners)
    (h.addition hformed hcreatable hparent) fun row hrow => ?_
  obtain ⟨entry, hfrom⟩ := hcreatable.from hrow
  rw [hfrom.uid]
  exact hcreatable.nonzero entry hfrom.mem

theorem applyTransfer_keepsForest (hformed : WellFormed catalog)
    (hcode : (applyTransfer catalog payload).code = 0)
    (hmovable : payload.fromOwner.type ≠ ItemOwnerType.system → Movable payload)
    (hcreatable : payload.fromOwner.type = ItemOwnerType.system → Creatable payload) :
    KeepsForest catalog (applyTransfer catalog payload).catalog := by
  cases applyTransfer_outcome hformed.owners payload with
  | full hfull _ =>
      rw [hcode] at hfull
      cases hfull
  | stale hstale _ => exact absurd hcode hstale
  | rows hgrown _ _ _ _ houtcome =>
      have hformed' := hgrown.wellFormed hformed
      refine (hgrown.keepsForest hformed).trans ?_
      cases houtcome with
      | refused hrefused _ => exact absurd hcode hrefused
      | halfway hhalf _ _ => exact absurd hcode hhalf
      | created _ hready hcreated =>
          exact hcreated.keepsForest hformed' (hcreatable hcreated.system) hready.parent
      | moved _ hready hmoved =>
          exact hmoved.keepsForest hformed' (hmovable hmoved.notSystem) hready.parent

/-! ## The payloads -/

theorem findItem_mem {items : List ItemTransferEntry} {itemUid : BitVec 64}
    {entry : ItemTransferEntry}
    (h : items.find? (fun candidate => candidate.itemUid == itemUid) = some entry) :
    entry ∈ items ∧ entry.itemUid = itemUid :=
  ⟨List.mem_of_find?_eq_some h, by simpa using List.find?_some h⟩

theorem creatable_single (hreason : payload.reason ≠ ItemTransferReason.craft)
    (hsingle : payload.multiRoot = false)
    (hascending : (payload.items.map ItemTransferEntry.itemUid).Pairwise (· < ·))
    (hnonzero : ∀ entry ∈ payload.items, entry.itemUid ≠ 0)
    (hapart : ∀ entry ∈ payload.items, entry.itemUid ≠ payload.targetParentItemUid)
    (hroot : ∃ entry ∈ payload.items, entry.itemUid = effectiveSelected payload)
    (hreach : ∀ entry ∈ payload.items, entry.itemUid = effectiveSelected payload ∨
      reachesRoot payload.items (effectiveSelected payload) payload.items.length
        entry.parentItemUid = true) : Creatable payload := by
  have hselected (itemUid : BitVec 64) :
      selectedRootFor payload itemUid = effectiveSelected payload := by
    rw [selectedRootFor, if_neg hreason, if_pos hsingle]
    rfl
  have hgrounded : ∀ {depth : Nat} {ancestor : BitVec 64},
      reachesRoot payload.items (effectiveSelected payload) depth ancestor = true →
        Grounded (CreationLink payload) ancestor := by
    intro depth
    induction depth with
    | zero => exact fun h => absurd h Bool.false_ne_true
    | succ depth ih =>
        intro ancestor h
        rw [reachesRoot] at h
        split at h
        · next htop =>
            obtain ⟨entry, hentry, huid⟩ := hroot
            rw [htop, ← huid]
            refine grounded_entry hascending hapart hentry fun hbelow => ?_
            exact absurd (huid.trans (hselected _).symm) hbelow
        · split at h
          · cases h
          · next parent hfound =>
              obtain ⟨hmem, huid⟩ := findItem_mem hfound
              rw [← huid]
              exact grounded_entry hascending hapart hmem fun _ _ => ih h
  refine ⟨hreason, hascending, hnonzero, fun entry hentry => ?_, fun entry hentry => ?_⟩
  · unfold Hung
    rw [hselected]
    refine (hreach entry hentry).imp_right fun h => ?_
    -- the first look goes to the parent
    cases hlength : payload.items.length with
    | zero =>
        rw [hlength] at h
        cases h
    | succ depth =>
        rw [hlength, reachesRoot] at h
        split at h
        · next htop =>
            obtain ⟨root, hmem, huid⟩ := hroot
            exact ⟨root, hmem, huid.trans htop.symm, hselected _⟩
        · split at h
          · cases h
          · next parent hfound =>
              obtain ⟨hmem, huid⟩ := findItem_mem hfound
              exact ⟨parent, hmem, huid, hselected _⟩
  · refine grounded_entry hascending hapart hentry fun hbelow _ => ?_
    exact hgrounded ((hreach entry hentry).resolve_left (hselected _ ▸ hbelow))

theorem creatable_batch (hreason : payload.reason ≠ ItemTransferReason.craft)
    (hmulti : payload.multiRoot = true)
    (hascending : (payload.items.map ItemTransferEntry.itemUid).Pairwise (· < ·))
    (hnonzero : ∀ entry ∈ payload.items, entry.itemUid ≠ 0)
    (hapart : ∀ entry ∈ payload.items, entry.itemUid ≠ payload.targetParentItemUid)
    (hroots : ∀ entry ∈ payload.items, selectedRootFor payload entry.itemUid ≠ 0) :
    Creatable payload := by
  have hfor {entry : ItemTransferEntry} (hentry : entry ∈ payload.items) :
      selectedRootFor payload entry.itemUid =
        climb payload.items (payload.items.length + 1) (some entry) := by
    have hfind : findPayloadItem payload entry.itemUid = some entry :=
      findItem_of_mem hascending entry hentry
    rw [selectedRootFor, hfind, if_neg hreason, if_neg (by rw [hmulti]; decide)]
  have hgrounded : ∀ {depth : Nat} {entry : ItemTransferEntry}, entry ∈ payload.items →
      climb payload.items depth (some entry) ≠ 0 →
        climb payload.items depth (some entry) = selectedRootFor payload entry.itemUid →
          Grounded (CreationLink payload) entry.itemUid := by
    intro depth
    induction depth with
    | zero => exact fun _ h => absurd rfl h
    | succ depth ih =>
        intro entry hentry hne hroot
        refine grounded_entry hascending hapart hentry fun hbelow _ => ?_
        rw [climb] at hne hroot
        split at hroot
        · exact absurd hroot hbelow
        · next parent hfound =>
            rw [hfound] at hne
            obtain ⟨hmem, huid⟩ := findItem_eq_some hfound
            rw [← huid]
            refine ih hmem hne ?_
            rcases hung_of_climb hascending (.inr hmulti) hentry (hroots entry hentry) with
              hself | ⟨other, hother, huid', hsame⟩
            · exact absurd hself hbelow
            · rw [hroot, ← hsame, huid', huid]
  refine ⟨hreason, hascending, hnonzero, fun entry hentry =>
    hung_of_climb hascending (.inr hmulti) hentry (hroots entry hentry), fun entry hentry => ?_⟩
  exact hgrounded hentry (hfor hentry ▸ hroots entry hentry) (hfor hentry).symm

section Checked

variable {payload : ItemTransferPayload} {version : BitVec 16}

theorem movable_of_checked (h : Checked payload version)
    (hreason : payload.reason ≠ ItemTransferReason.craft)
    (hsource : payload.fromOwner.type ≠ ItemOwnerType.system) : Movable payload where
  reason := hreason
  live entry hentry := by
    rw [(h.entry hentry).2.2.2, if_neg hsource]
    decide
  apart _ entry hentry := (h.entry hentry).2.2.1

theorem creatable_of_checked (h : Checked payload version)
    (hreason : payload.reason ≠ ItemTransferReason.craft) : Creatable payload := by
  have hapart : ∀ entry ∈ payload.items, entry.itemUid ≠ payload.targetParentItemUid :=
    fun entry hentry => (h.entry hentry).2.2.1
  cases hmulti : payload.multiRoot with
  | true =>
      exact creatable_batch hreason hmulti h.ascending h.itemUid_ne_zero hapart
        fun entry hentry => h.selectedRoot_ne_zero hentry
  | false =>
      have hrows := h.singleRoot hmulti
      simp only [validSingleRoot, Bool.and_eq_true, List.all_eq_true, Bool.or_eq_true,
        beq_iff_eq] at hrows
      refine creatable_single hreason hmulti h.ascending h.itemUid_ne_zero hapart ?_ hrows.2
      have hcount : 0 < payload.items.countP fun entry =>
          entry.itemUid == effectiveSelected payload := by
        rw [hrows.1.1.2]
        exact Nat.one_pos
      obtain ⟨entry, hentry, huid⟩ := List.countP_pos_iff.mp hcount
      exact ⟨entry, hentry, beq_iff_eq.mp huid⟩

end Checked

end Duris.Flatfile.Ownership
