import Duris.Proofs.CollectorDetach

/-!
# The collector keeps the forest

What the collector takes leaves its tree as a tree of its own. Its children go up to
where it was, and when it was the root each of them is the root of what lies in it.
-/

namespace Duris.Flatfile.Ownership

open Persistence Player Item Economy Relation Forest

variable {catalog : OwnershipCatalog}

/-! ## What the checks say -/

theorem custody_of_valid {payload : CollectorCommandPayload}
    (h : validCollectorPayload payload = true) (hitems : payload.items ≠ []) :
    validCustodyOwners payload = true ∧ validCustodyAction payload = true := by
  have hmetadata : metadataOnly payload = false := by
    refine eq_false_of_ne_true fun h => hitems ?_
    simp only [metadataOnly, Bool.and_eq_true, List.isEmpty_iff] at h
    exact h.1.1.2
  unfold validCollectorPayload at h
  split at h
  · cases h
  · split at h
    · rw [hmetadata, Bool.and_false] at h
      cases h
    · split at h
      · next hcancel => exact absurd hcancel.2 hitems
      · exact Bool.and_eq_true_iff.mp h

theorem sourceTree_of_held {payload : CollectorCommandPayload}
    (h : validHeldItem payload = true) :
    ∃ item, payload.items = [item] ∧ item.rootItemUid = payload.selectedItemUid ∧
      SourceTree payload payload.selectedItemUid := by
  unfold validHeldItem at h
  split at h
  · next item hitems =>
      simp only [validItem, Bool.and_eq_true, bne_iff_ne, beq_iff_eq, decide_eq_true_eq] at h
      obtain ⟨⟨⟨⟨⟨⟨⟨⟨huid, hne⟩, _⟩, _⟩, _⟩, hstate⟩, hselected⟩, hroot⟩, hparent⟩ := h
      refine ⟨item, hitems, hroot, ?_⟩
      have hitem {entry : ItemTransferEntry} (hentry : entry ∈ payload.items) : entry = item :=
        List.mem_singleton.mp (hitems ▸ hentry)
      have hmem : item ∈ payload.items := hitems ▸ List.mem_singleton_self item
      refine ⟨hroot ▸ hne, ?_, ⟨item, hmem, hselected⟩, fun entry hentry => hitem hentry ▸ hstate,
        fun entry hentry => hitem hentry ▸ huid, fun entry hentry => hitem hentry ▸ hroot,
        fun entry hentry => ?_, fun entry hentry hnonzero => ?_, fun entry hentry => ?_⟩
      · rw [hitems]
        exact List.pairwise_singleton _ _
      · rw [hitem hentry]
        exact iff_of_true hparent hselected
      · rw [hitem hentry] at hnonzero
        exact absurd hparent hnonzero
      · rw [hitem hentry, hselected]
        exact ⟨0, Nat.zero_le _, .refl _⟩
  · cases h

theorem sourceTree_of_payload {payload : CollectorCommandPayload}
    (h : validCollectorPayload payload = true) (hitems : payload.items ≠ []) :
    ∃ first rest, payload.items = first :: rest ∧ SourceTree payload first.rootItemUid ∧
      (payload.action ≠ .collect →
        first.rootItemUid = payload.selectedItemUid ∧ rest = []) := by
  have haction := (custody_of_valid h hitems).2
  by_cases hcollect : payload.action = .collect
  · rw [validCustodyAction, if_pos hcollect] at haction
    simp only [Bool.and_eq_true] at haction
    obtain ⟨first, rest, hfirst, htree⟩ := sourceTree_of_valid haction.2
    exact ⟨first, rest, hfirst, htree, fun hne => absurd hcollect hne⟩
  · have hheld : validHeldItem payload = true := by
      rw [validCustodyAction, if_neg hcollect] at haction
      split at haction
      · exact (Bool.and_eq_true_iff.mp haction).2
      · split at haction
        · exact (Bool.and_eq_true_iff.mp haction).2
        · split at haction
          · cases haction
          · next hrefused =>
              simp only [not_or, Bool.not_eq_false] at hrefused
              exact hrefused.2.2.2.2.2
    obtain ⟨item, hitem, hroot, htree⟩ := sourceTree_of_held hheld
    exact ⟨item, [], hitem, hroot ▸ htree, fun _ => ⟨hroot, rfl⟩⟩

theorem collectorRefusal_eq_none {payload : CollectorCommandPayload} :
    ∀ {rows : List FlatfileItemOwnershipRecord} {entries : List ItemTransferEntry},
      rows.length = entries.length →
        (collectorRefusal payload rows entries = none ↔
          List.Forall₂ (fun stored expected =>
            rowMatches payload.fromOwner stored expected = true) rows entries ∧
          ∀ row ∈ rows, row.itemRevision ≠ BitVec.allOnes 64) := by
  intro rows
  induction rows with
  | nil =>
      intro entries hlength
      rw [List.eq_nil_of_length_eq_zero hlength.symm]
      simp [collectorRefusal]
  | cons stored rows ih =>
      intro entries hlength
      cases entries with
      | nil => cases hlength
      | cons expected entries =>
          rw [collectorRefusal, List.forall₂_cons, List.forall_mem_cons]
          split
          · next hdiffers => simp [hdiffers]
          · next hmatch =>
              rw [Bool.not_eq_false] at hmatch
              split
              · next hmax =>
                  exact iff_of_false (by simp) fun ⟨_, hlast, _⟩ => hlast hmax
              · next hmax =>
                  rw [ih (Nat.succ.inj hlength)]
                  exact ⟨fun ⟨hrest, hlast⟩ => ⟨⟨hmatch, hrest⟩, hmax, hlast⟩,
                    fun ⟨⟨_, hrest⟩, _, hlast⟩ => ⟨hrest, hlast⟩⟩

/-! ## The tree in the catalogue -/

structure CollectorReady (catalog : OwnershipCatalog) (payload : CollectorCommandPayload)
    (root : BitVec 64) (selected : FlatfileItemOwnershipRecord) : Prop where
  tree : SourceTree payload root
  matched : List.Forall₂ (fun stored expected =>
    rowMatches payload.fromOwner stored expected = true) (collectorSource catalog payload)
      payload.items
  revisions : ∀ row ∈ collectorSource catalog payload, row.itemRevision ≠ BitVec.allOnes 64
  mem : selected ∈ collectorSource catalog payload
  uid : selected.itemUid = payload.selectedItemUid
  single : payload.action ≠ .collect → root = payload.selectedItemUid ∧
    ∀ row ∈ collectorSource catalog payload, row = selected

theorem mem_collectorSource {payload : CollectorCommandPayload} {first : ItemTransferEntry}
    {rest : List ItemTransferEntry} (hitems : payload.items = first :: rest)
    {row : FlatfileItemOwnershipRecord} :
    row ∈ collectorSource catalog payload ↔
      row ∈ catalog.items ∧ row.rootItemUid = first.rootItemUid := by
  rw [collectorSource, hitems]
  rw [(sortRows_perm _).mem_iff, List.mem_filter, beq_iff_eq]

theorem collectorSource_ordered {payload : CollectorCommandPayload}
    (hunique : (catalog.items.map FlatfileItemOwnershipRecord.itemUid).Nodup) :
    Sorted.Ordered uidLess FlatfileItemOwnershipRecord.itemUid
      (collectorSource catalog payload) := by
  unfold collectorSource
  split
  · exact List.Pairwise.nil
  · exact sortRows_ordered (hunique.sublist (List.filter_sublist.map _))

section Ready

variable {catalog : OwnershipCatalog} {payload : CollectorCommandPayload} {root : BitVec 64}
  {selected : FlatfileItemOwnershipRecord} {rows : List FlatfileItemOwnershipRecord}

section

variable (h : CollectorReady catalog payload root selected)

include h

theorem CollectorReady.row
    {row : FlatfileItemOwnershipRecord} (hrow : row ∈ collectorSource catalog payload) :
    row.itemUid ≠ 0 ∧ row.rootItemUid = root ∧ row.owner = payload.fromOwner ∧
      row.state = ItemCustodyState.active ∧ (row.parentItemUid = 0 ↔ row.itemUid = root) := by
  obtain ⟨entry, hentry, hmatch⟩ := matched_entry h.matched hrow
  obtain ⟨huid, hroot, hparent, howner, _, _, hstate⟩ := rowMatches_iff.mp hmatch
  refine ⟨huid ▸ h.tree.nonzero entry hentry, hroot.trans (h.tree.rooted entry hentry), howner,
    hstate.trans (h.tree.active entry hentry), ?_⟩
  rw [hparent, huid]
  exact h.tree.parent entry hentry

theorem CollectorReady.parent
    {row : FlatfileItemOwnershipRecord} (hrow : row ∈ collectorSource catalog payload)
    (hnonzero : row.parentItemUid ≠ 0) :
    ∃ parent ∈ collectorSource catalog payload, parent.itemUid = row.parentItemUid := by
  obtain ⟨entry, hentry, hmatch⟩ := matched_entry h.matched hrow
  obtain ⟨_, _, hparent, _⟩ := rowMatches_iff.mp hmatch
  obtain ⟨upper, hupper, huid⟩ := h.tree.inside entry hentry (hparent ▸ hnonzero)
  obtain ⟨parent, hmem, hmatch'⟩ := matched_row h.matched hupper
  exact ⟨parent, hmem, ((rowMatches_iff.mp hmatch').1.trans huid).trans hparent.symm⟩

theorem CollectorReady.link {k p : BitVec 64} :
    EntryLink payload.items k p ↔ ParentLink (collectorSource catalog payload) k p := by
  constructor
  · intro ⟨entry, hentry, huid, hparent, hnonzero⟩
    obtain ⟨row, hrow, hmatch⟩ := matched_row h.matched hentry
    obtain ⟨huid', _, hparent', _⟩ := rowMatches_iff.mp hmatch
    exact ⟨row, hrow, huid'.trans huid, hparent'.trans hparent, hnonzero⟩
  · intro ⟨row, hrow, huid, hparent, hnonzero⟩
    obtain ⟨entry, hentry, hmatch⟩ := matched_entry h.matched hrow
    obtain ⟨huid', _, hparent', _⟩ := rowMatches_iff.mp hmatch
    exact ⟨entry, hentry, huid'.symm.trans huid, hparent'.symm.trans hparent, hnonzero⟩

/-- When it is the root that is collected, the loop is over a tree of the kind it has
lemmas for. -/
theorem CollectorReady.rootTaken
    (hunique : (catalog.items.map FlatfileItemOwnershipRecord.itemUid).Nodup)
    (hcollect : payload.action = .collect) (hroot : root = payload.selectedItemUid) :
    RootTaken payload (collectorSource catalog payload) where
  collect := hcollect
  nonzero := h.uid ▸ (h.row h.mem).1
  ordered := collectorSource_ordered hunique
  rows row hrow := (h.row hrow).1
  roots row hrow := (h.row hrow).2.1.trans hroot
  top row hrow huid := (h.row hrow).2.2.2.2.mpr (huid.trans hroot.symm)
  branches row hrow hne := by
    obtain ⟨entry, hentry, hmatch⟩ := matched_entry h.matched hrow
    have huid := (rowMatches_iff.mp hmatch).1
    obtain ⟨n, hn, hpath⟩ := h.tree.reaches entry hentry
    rw [← huid, hroot] at hpath
    obtain ⟨m, hm, child, hbranch⟩ := Branch.of_path hpath hne
    refine ⟨m, ?_, child, hbranch.mono fun _ _ => h.link.mp⟩
    rw [h.matched.length_eq]
    omega

theorem CollectorReady.detached
    (hunique : (catalog.items.map FlatfileItemOwnershipRecord.itemUid).Nodup)
    (hrows : detachRows payload selected.parentItemUid [] (collectorSource catalog payload) =
      some rows) :
    List.Forall₂ (Detached payload (collectorSource catalog payload) selected.parentItemUid)
      (collectorSource catalog payload) rows := by
  by_cases htaken : payload.action = .collect ∧ root = payload.selectedItemUid
  · have hroot := h.rootTaken hunique htaken.1 htaken.2
    have hzero : selected.parentItemUid = 0 := hroot.top selected h.mem h.uid
    rw [hzero] at hrows ⊢
    have hhalf : HalfDetached (collectorSource catalog payload)
        ([] ++ collectorSource catalog payload) payload.selectedItemUid :=
      ⟨rfl, hroot.ordered.nodup uidLess_strictTotal, hroot.rows,
        fun row hrow => ⟨row, hrow, rfl, .inl rfl⟩⟩
    rcases detachRows_root hroot hhalf (fun _ hrow => hrow) (by simp) with
      ⟨rows', hrows', hdetached, _⟩ | ⟨hnone, _⟩
    · rw [hrows] at hrows'
      rw [Option.some.inj hrows', List.nil_append]
      exact hdetached
    · rw [hrows] at hnone
      cases hnone
  · have hplain : ∀ row ∈ collectorSource catalog payload, payload.action = .collect →
        row.rootItemUid ≠ payload.selectedItemUid :=
      fun row hrow hcollect heq => htaken ⟨hcollect, (h.row hrow).2.1.symm.trans heq⟩
    rw [detachRows_plain fun row hrow => ⟨(h.row hrow).2.1 ▸ h.tree.root_ne,
      fun hcollect _ => hplain row hrow hcollect⟩, List.nil_append] at hrows
    rw [← Option.some.inj hrows, List.forall₂_map_right_iff]
    refine List.forall₂_same.mpr fun row hrow => ⟨row.rootItemUid, rfl, fun hcollect _ => ?_⟩
    rw [if_neg (hplain row hrow hcollect)]

end

/-! ## The update -/

theorem Detached.uid {source : List FlatfileItemOwnershipRecord} {selectedParent : BitVec 64}
    {row after : FlatfileItemOwnershipRecord}
    (h : Detached payload source selectedParent row after) :
    after.itemUid = row.itemUid := by
  obtain ⟨newRoot, rfl, _⟩ := h.exists_root
  unfold detachRow
  split <;> rfl

/-- A row of the tree is replaced by what the loop made of it, any other by itself. -/
theorem replaced {source rows : List FlatfileItemOwnershipRecord} {selectedParent : BitVec 64}
    (hunique : (source.map FlatfileItemOwnershipRecord.itemUid).Nodup)
    (h : List.Forall₂ (Detached payload source selectedParent) source rows) :
    (∀ row ∈ source, ∃ after, Detached payload source selectedParent row after ∧
      (rows.find? fun changed => changed.itemUid == row.itemUid).getD row = after) ∧
    ∀ row, row.itemUid ∉ source.map FlatfileItemOwnershipRecord.itemUid →
      (rows.find? fun changed => changed.itemUid == row.itemUid).getD row = row := by
  have huids : rows.map FlatfileItemOwnershipRecord.itemUid =
      source.map FlatfileItemOwnershipRecord.itemUid := by
    rw [← List.forall₂_eq_eq_eq, List.forall₂_map_left_iff, List.forall₂_map_right_iff]
    exact h.flip.imp fun after row hdetached => hdetached.uid
  refine ⟨fun row hrow => ?_, fun row hout => ?_⟩
  · obtain ⟨index, hindex, rfl⟩ := List.getElem_of_mem hrow
    have hindex' : index < rows.length := h.length_eq ▸ hindex
    have hdetached : Detached payload source selectedParent source[index] rows[index] :=
      (List.forall₂_iff_get.mp h).2 index hindex hindex'
    refine ⟨rows[index], hdetached, ?_⟩
    rw [(findUid_eq_some (huids ▸ hunique)).mpr ⟨List.getElem_mem hindex', hdetached.uid⟩]
    rfl
  · have hnone : rows.find? (fun changed => changed.itemUid == row.itemUid) = none := by
      refine List.find?_eq_none.mpr fun changed hchanged heq => hout ?_
      rw [← huids, ← beq_iff_eq.mp heq]
      exact List.mem_map_of_mem hchanged
    rw [hnone]
    rfl

structure LeftBehind (payload : CollectorCommandPayload) (selectedParent newRoot : BitVec 64)
    (row after : FlatfileItemOwnershipRecord) : Prop where
  rootItem : after.rootItemUid = newRoot
  parentItem : after.parentItemUid =
    detachedParent payload.selectedItemUid selectedParent row
  owner : after.owner = row.owner
  state : after.state = row.state

theorem CollectorReady.leftBehind (h : CollectorReady catalog payload root selected)
    {row after : FlatfileItemOwnershipRecord} (hrow : row ∈ collectorSource catalog payload)
    (hne : row.itemUid ≠ payload.selectedItemUid)
    (hdetached : Detached payload (collectorSource catalog payload) selected.parentItemUid row
      after) :
    ∃ newRoot, LeftBehind payload selected.parentItemUid newRoot row after ∧
      if root = payload.selectedItemUid then
        ∃ n, Branch (ParentLink (collectorSource catalog payload)) payload.selectedItemUid n
          row.itemUid newRoot
      else newRoot = root := by
  have hcollect : payload.action = .collect := by
    refine Decidable.not_not.mp fun haction => hne ?_
    rw [(h.single haction).2 row hrow]
    exact h.uid
  obtain ⟨newRoot, rfl, hroot⟩ := hdetached.exists_root
  refine ⟨newRoot, ?_, ?_⟩
  · rw [detachRow, if_neg hne]
    refine ⟨rfl, ?_, rfl, rfl⟩
    unfold detachedParent
    simp only [hcollect, true_and]
  · have := hroot hcollect hne
    rwa [(h.row hrow).2.1] at this

theorem CollectorReady.update (h : CollectorReady catalog payload root selected)
    (hformed : WellFormed catalog) {first : ItemTransferEntry} {rest : List ItemTransferEntry}
    (hitems : payload.items = first :: rest)
    (hrows : detachRows payload selected.parentItemUid [] (collectorSource catalog payload) =
      some rows) :
    Update catalog.items
      (fun row => (rows.find? fun changed => changed.itemUid == row.itemUid).getD row)
      (· ∈ (collectorSource catalog payload).map FlatfileItemOwnershipRecord.itemUid) := by
  have hforest := hformed.forest
  have hordered := @collectorSource_ordered catalog payload hforest.unique
  have hunique := hordered.nodup uidLess_strictTotal
  obtain ⟨hinside, houtside⟩ := replaced hunique (h.detached hforest.unique hrows)
  have hsource {row : FlatfileItemOwnershipRecord} (hrow : row ∈ catalog.items)
      (hmoves : row.itemUid ∈ (collectorSource catalog payload).map
        FlatfileItemOwnershipRecord.itemUid) : row ∈ collectorSource catalog payload := by
    obtain ⟨other, hother, huid⟩ := List.mem_map.mp hmoves
    rwa [eq_of_uid hforest ((mem_collectorSource hitems).mp hother).1 hrow huid] at hother
  have hcatalog {row : FlatfileItemOwnershipRecord}
      (hrow : row ∈ collectorSource catalog payload) : row ∈ catalog.items :=
    ((mem_collectorSource hitems).mp hrow).1
  have hin {row : FlatfileItemOwnershipRecord} (hrow : row ∈ collectorSource catalog payload) :
      row.itemUid ∈ (collectorSource catalog payload).map FlatfileItemOwnershipRecord.itemUid :=
    List.mem_map_of_mem hrow
  refine ⟨fun row hrow => ?_, fun row _ hstays => ?_, fun row hrow hmoves => ?_,
    fun row hrow hlive hnonzero hmoves => ?_, fun row hrow hmoves => ?_⟩
  · by_cases hmoves : row.itemUid ∈ (collectorSource catalog payload).map
        FlatfileItemOwnershipRecord.itemUid
    · obtain ⟨after, hdetached, heq⟩ := hinside row (hsource hrow hmoves)
      rw [heq]
      exact hdetached.uid
    · rw [houtside row hmoves]
  · rw [houtside row hstays]
    exact .refl row
  · rw [(h.row (hsource hrow hmoves)).2.2.2.1]
    decide
  · obtain ⟨parent, hmem, huid, hsame⟩ := hforest.joined row hrow hlive hnonzero
    have hparent := (mem_collectorSource hitems).mp (hsource hmem (huid ▸ hmoves))
    exact hin ((mem_collectorSource hitems).mpr ⟨hrow, hsame.root ▸ hparent.2⟩)
  · have hrow' := hsource hrow hmoves
    obtain ⟨after, hdetached, heq⟩ := hinside row hrow'
    by_cases hselected : row.itemUid = payload.selectedItemUid
    · obtain ⟨newRoot, rfl, _⟩ := hdetached.exists_root
      refine .top ?_ ?_
      · rw [heq, detachRow, if_pos hselected]
      · rw [heq, detachRow, if_pos hselected]
    · obtain ⟨newRoot, hleft, hroot⟩ := h.leftBehind hrow' hselected hdetached
      -- a row above that is not collected either takes this one along
      have halong {parent : FlatfileItemOwnershipRecord}
          (hparent : parent ∈ collectorSource catalog payload)
          (hne : parent.itemUid ≠ payload.selectedItemUid)
          (habove : TransGen (ParentLink catalog.items) row.itemUid parent.itemUid)
          (hlink : detachedParent payload.selectedItemUid selected.parentItemUid row =
            parent.itemUid)
          (hsame : ∀ root', (if root = payload.selectedItemUid then
            ∃ n, Branch (ParentLink (collectorSource catalog payload)) payload.selectedItemUid n
              parent.itemUid root' else root' = root) → root' = newRoot) :
          Rejoined catalog.items
            (fun row => (rows.find? fun changed => changed.itemUid == row.itemUid).getD row)
            (· ∈ (collectorSource catalog payload).map FlatfileItemOwnershipRecord.itemUid)
            row := by
        obtain ⟨after', hdetached', heq'⟩ := hinside parent hparent
        obtain ⟨newRoot', hleft', hroot'⟩ := h.leftBehind hparent hne hdetached'
        refine .along (hcatalog hparent) habove (hin hparent) ?_ (h.row hparent).1 fun _ => ?_
        · rw [heq, hleft.parentItem, hlink]
        · rw [heq, heq']
          refine ⟨?_, ?_, ?_⟩
          · rw [hleft.owner, hleft'.owner, (h.row hparent).2.2.1, (h.row hrow').2.2.1]
          · rw [hleft.state, hleft'.state, (h.row hparent).2.2.2.1, (h.row hrow').2.2.2.1]
          · rw [hleft.rootItem, hleft'.rootItem, hsame newRoot' hroot']
      have hstep {parent : FlatfileItemOwnershipRecord}
          (hparent : parent.itemUid = row.parentItemUid) (hnonzero : row.parentItemUid ≠ 0) :
          ParentLink catalog.items row.itemUid parent.itemUid :=
        ⟨row, hrow, rfl, hparent.symm, hparent ▸ hnonzero⟩
      by_cases hchild : row.parentItemUid = payload.selectedItemUid
      · have hparentIs : detachedParent payload.selectedItemUid selected.parentItemUid row =
            selected.parentItemUid := if_pos hchild
        have hlink : ParentLink (collectorSource catalog payload) row.itemUid
            payload.selectedItemUid :=
          ⟨row, hrow', rfl, hchild, h.uid ▸ (h.row h.mem).1⟩
        by_cases htop : root = payload.selectedItemUid
        · have hzero := (h.row h.mem).2.2.2.2.mpr (h.uid.trans htop.symm)
          rw [if_pos htop] at hroot
          obtain ⟨n, hbranch⟩ := hroot
          have hself := (Branch.unique (ParentLink.unique hunique) hbranch (.child hlink)).2
          refine .top ?_ ?_
          · rw [heq, hleft.parentItem, hparentIs, hzero]
          · rw [heq, hleft.rootItem, hself]
        · have hnonzero : selected.parentItemUid ≠ 0 :=
            fun hzero => htop ((h.uid.symm.trans ((h.row h.mem).2.2.2.2.mp hzero)).symm)
          obtain ⟨parent, hparent, huid⟩ := h.parent h.mem hnonzero
          have hup : ParentLink catalog.items selected.itemUid parent.itemUid :=
            ⟨selected, hcatalog h.mem, rfl, huid.symm, huid ▸ hnonzero⟩
          rw [if_neg htop] at hroot
          refine halong hparent (fun hsame => ?_) (.head (hstep (h.uid.trans hchild.symm)
            (hchild ▸ h.uid ▸ (h.row h.mem).1)) (.single hup)) (hparentIs.trans huid.symm)
            fun root' hroot' => ?_
          · rw [hsame, ← h.uid] at hup
            exact hforest.acyclic _ (.single hup)
          · rw [if_neg htop] at hroot'
            rw [hroot', hroot]
      · have hparentIs : detachedParent payload.selectedItemUid selected.parentItemUid row =
            row.parentItemUid := if_neg hchild
        by_cases hzero : row.parentItemUid = 0
        · have hrootIs := (h.row hrow').2.2.2.2.mp hzero
          rw [if_neg fun htop => hselected (hrootIs.trans htop)] at hroot
          refine .top ?_ ?_
          · rw [heq, hleft.parentItem, hparentIs, hzero]
          · rw [heq, hleft.rootItem, hroot, hrootIs]
        · obtain ⟨parent, hparent, huid⟩ := h.parent hrow' hzero
          refine halong hparent (huid ▸ hchild) (.single (hstep huid hzero))
            (hparentIs.trans huid.symm) fun root' hroot' => ?_
          split at hroot
          · next htop =>
              rw [if_pos htop] at hroot'
              obtain ⟨n, hbranch⟩ := hroot
              obtain ⟨m, hbranch'⟩ := hroot'
              have hlink : ParentLink (collectorSource catalog payload) row.itemUid
                  parent.itemUid := ⟨row, hrow', rfl, huid.symm, huid ▸ hzero⟩
              exact (Branch.unique (ParentLink.unique hunique)
                (.under hlink (huid ▸ hchild) hbranch') hbranch).2
          · next htop =>
              rw [if_neg htop] at hroot'
              rw [hroot', hroot]

theorem CollectorReady.keepsForest (h : CollectorReady catalog payload root selected)
    (hformed : WellFormed catalog) {first : ItemTransferEntry} {rest : List ItemTransferEntry}
    (hitems : payload.items = first :: rest)
    (hrows : detachRows payload selected.parentItemUid [] (collectorSource catalog payload) =
      some rows) (left right : ItemOwnerIdentity) :
    KeepsForest catalog { catalog with
      items := replaceRows catalog.items rows
      owners := bumpOwner (bumpOwner catalog.owners left) right } := by
  have hunique := (@collectorSource_ordered catalog payload hformed.forest.unique).nodup
    uidLess_strictTotal
  obtain ⟨hinside, houtside⟩ := replaced hunique (h.detached hformed.forest.unique hrows)
  refine hformed.with_update (ordered_of_owners (by rw [bumpOwner_owners, bumpOwner_owners])
    hformed.owners) (h.update hformed hitems hrows) fun row hrow => ?_
  by_cases hmoves : row ∈ collectorSource catalog payload
  · obtain ⟨after, hdetached, heq⟩ := hinside row hmoves
    obtain ⟨newRoot, hafter, _⟩ := hdetached.exists_root
    rw [heq]
    refine .of_revision hdetached.uid (fun hdestroyed => ?_) ?_ (h.revisions row hmoves)
    · exact absurd ((h.row hmoves).2.2.2.1.symm.trans hdestroyed) (by decide)
    · rw [hafter, detachRow]
      split <;> rfl
  · rw [houtside row fun hin => hmoves ?_]
    · exact .refl row
    · obtain ⟨other, hother, huid⟩ := List.mem_map.mp hin
      rwa [eq_of_uid hformed.forest ((mem_collectorSource hitems).mp hother).1 hrow huid] at hother

end Ready

/-! ## The transfer -/

/-- What stands behind the checks of `prepareCollectorTransfer` once both owners are in. -/
theorem collectorReady {payload : CollectorCommandPayload}
    {selected : FlatfileItemOwnershipRecord} {first : ItemTransferEntry}
    {rest : List ItemTransferEntry} (hitems : payload.items = first :: rest)
    (htree : SourceTree payload first.rootItemUid)
    (hheld : payload.action ≠ .collect → first.rootItemUid = payload.selectedItemUid ∧ rest = [])
    (hcount : (collectorSource catalog payload).length = payload.items.length)
    (hmatched : collectorRefusal payload (collectorSource catalog payload) payload.items = none)
    (hfound : (collectorSource catalog payload).find? (fun item =>
      item.itemUid == payload.selectedItemUid) = some selected) :
    CollectorReady catalog payload first.rootItemUid selected := by
  obtain ⟨hrows, hrevisions⟩ := (collectorRefusal_eq_none hcount).mp hmatched
  have hmem := List.mem_of_find?_eq_some hfound
  refine ⟨htree, hrows, hrevisions, hmem, by simpa using List.find?_some hfound, fun haction => ?_⟩
  obtain ⟨hroot, hrest⟩ := hheld haction
  refine ⟨hroot, fun row hrow => ?_⟩
  rw [hitems, hrest, List.length_singleton] at hcount
  obtain ⟨only, honly⟩ := List.length_eq_one_iff.mp hcount
  rw [honly] at hrow hmem
  rw [List.mem_singleton.mp hrow, List.mem_singleton.mp hmem]

theorem prepareCollectorTransfer_keepsForest {sha256 : Bytes → Vector UInt8 32}
    (hformed : WellFormed catalog) {payload : CollectorCommandPayload}
    (hvalid : validCollectorPayload payload = true) {staged : Staged ItemCollectorMutation}
    (h : prepareCollectorTransfer sha256 catalog payload = .ok staged) :
    KeepsForest catalog staged.catalog := by
  unfold prepareCollectorTransfer at h
  split at h
  · cases h
  · next hsize =>
      simp only [not_or] at hsize
      obtain ⟨first, rest, hitems, htree, hheld⟩ := sourceTree_of_payload hvalid hsize.1
      split at h
      · cases h
      · next grown hgrown =>
          have hgrown := ensureOwners_grown hformed hgrown
          have hgrownFormed := hgrown.wellFormed hformed
          split at h
          · cases h
          · split at h
            · cases h
            · dsimp only at h
              split at h
              · cases h
              · next hcount =>
                  split at h
                  · cases h
                  · next hmatched =>
                      split at h
                      · cases h
                      · next selected hfound =>
                          split at h
                          · cases h
                          · split at h
                            · cases h
                            · next rows hrows =>
                                obtain ⟨hcatalog, _, _⟩ := stage_eq_ok h
                                have hready := collectorReady hitems htree hheld
                                  (Decidable.not_not.mp hcount) hmatched hfound
                                rw [hcatalog]
                                refine (hgrown.keepsForest hformed).trans ?_
                                exact hready.keepsForest hgrownFormed hitems hrows _ _

end Duris.Flatfile.Ownership
