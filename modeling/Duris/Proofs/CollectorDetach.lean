import Duris.Proofs.TransferForest

/-!
# The collector's detach

The loop of `prepare_collector_transfer` gives the rows of a tree their new roots and
parents one by one, in the order of their uids, and looks a root up in the rows as they
are by then. As long as the collected item is not the root of its tree nothing is looked
up. When it is, a row finds its root exactly when the child of the root it hangs under
has not been taken off before it: when that child has no smaller uid.
-/

namespace Duris.Flatfile.Ownership

open Persistence Player Item Economy Relation Forest

def EntryLink (items : List ItemTransferEntry) (itemUid parentUid : BitVec 64) : Prop :=
  ∃ entry ∈ items, entry.itemUid = itemUid ∧ entry.parentItemUid = parentUid ∧ parentUid ≠ 0

structure SourceTree (payload : CollectorCommandPayload) (root : BitVec 64) : Prop where
  root_ne : root ≠ 0
  ascending : (payload.items.map ItemTransferEntry.itemUid).Pairwise (· < ·)
  selected : ∃ entry ∈ payload.items, entry.itemUid = payload.selectedItemUid
  active : ∀ entry ∈ payload.items, entry.expectedState = ItemCustodyState.active
  nonzero : ∀ entry ∈ payload.items, entry.itemUid ≠ 0
  rooted : ∀ entry ∈ payload.items, entry.rootItemUid = root
  parent : ∀ entry ∈ payload.items, entry.parentItemUid = 0 ↔ entry.itemUid = root
  inside : ∀ entry ∈ payload.items, entry.parentItemUid ≠ 0 →
    ∃ parent ∈ payload.items, parent.itemUid = entry.parentItemUid
  reaches : ∀ entry ∈ payload.items,
    ∃ n ≤ payload.items.length, Path (EntryLink payload.items) n entry.itemUid root

theorem sourceReachesRoot_path {items : List ItemTransferEntry} {root : BitVec 64}
    (hnonzero : ∀ entry ∈ items, entry.itemUid ≠ 0) :
    ∀ {depth : Nat} {item : ItemTransferEntry}, item ∈ items →
      sourceReachesRoot items root depth item = true →
        ∃ n ≤ depth, Path (EntryLink items) n item.itemUid root := by
  intro depth
  induction depth with
  | zero =>
      intro item hitem h
      rw [sourceReachesRoot, beq_iff_eq] at h
      exact ⟨0, Nat.le_refl 0, h ▸ .refl _⟩
  | succ depth ih =>
      intro item hitem h
      rw [sourceReachesRoot] at h
      split at h
      · next heq => exact ⟨0, Nat.zero_le _, heq ▸ .refl _⟩
      · split at h
        · cases h
        · next parent hfound =>
            obtain ⟨hmem, huid⟩ := findItem_eq_some hfound
            obtain ⟨n, hn, hpath⟩ := ih hmem h
            rw [huid] at hpath
            exact ⟨n + 1, Nat.succ_le_succ hn,
              .step ⟨item, hitem, rfl, rfl, huid ▸ hnonzero parent hmem⟩ hpath⟩

theorem ascending_pairwise {items : List ItemTransferEntry} (h : ascending items = true) :
    (items.map ItemTransferEntry.itemUid).Pairwise (· < ·) := by
  exact List.isChain_iff_pairwise.mp (of_decide_eq_true h)

theorem sourceTree_of_valid {payload : CollectorCommandPayload}
    (h : validSourceTree payload = true) :
    ∃ first rest, payload.items = first :: rest ∧ SourceTree payload first.rootItemUid := by
  unfold validSourceTree at h
  split at h
  · cases h
  · next first rest hitems =>
      simp only [Bool.and_eq_true, List.all_eq_true] at h
      obtain ⟨⟨⟨⟨⟨⟨_, _⟩, hrows⟩, hascending⟩, _⟩, hselected⟩, _⟩ := h.1
      refine ⟨first, rest, hitems, ?_⟩
      have hrow {entry : ItemTransferEntry} (hentry : entry ∈ payload.items) :
          entry.itemUid ≠ 0 ∧ entry.expectedState = ItemCustodyState.active ∧
            (entry.rootItemUid ≠ 0 ∧ entry.rootItemUid = first.rootItemUid) ∧
            if entry.parentItemUid = 0 then entry.itemUid = first.rootItemUid
            else entry.itemUid ≠ first.rootItemUid ∧
              (findItem payload.items entry.parentItemUid).isSome = true := by
        have := hrows entry hentry
        simp only [validSourceItem, validItem, Bool.and_eq_true, bne_iff_ne, beq_iff_eq] at this
        obtain ⟨⟨⟨⟨⟨⟨⟨huid, hne⟩, _⟩, _⟩, _⟩, hstate⟩, hroot⟩, hparent⟩ := this
        refine ⟨huid, hstate, ⟨hne, hroot⟩, ?_⟩
        split at hparent
        · next hzero => rwa [if_pos hzero, ← beq_iff_eq]
        · next hnonzero =>
            rw [if_neg hnonzero]
            simpa using hparent
      have hfirst : first ∈ payload.items := hitems ▸ List.mem_cons_self ..
      refine ⟨(hrow hfirst).2.2.1.1, ascending_pairwise hascending, ?_,
        fun entry hentry => (hrow hentry).2.1, fun entry hentry => (hrow hentry).1,
        fun entry hentry => (hrow hentry).2.2.1.2,
        fun entry hentry => ?_, fun entry hentry hnonzero => ?_, fun entry hentry =>
        sourceReachesRoot_path (fun entry hentry => (hrow hentry).1) hentry (h.2 entry hentry)⟩
      · obtain ⟨entry, hentry, huid⟩ := List.any_eq_true.mp hselected
        exact ⟨entry, hentry, beq_iff_eq.mp huid⟩
      · have hparent := (hrow hentry).2.2.2
        split at hparent
        · next hzero => exact iff_of_true hzero hparent
        · next hnonzero => exact iff_of_false hnonzero hparent.1
      · have hparent := (hrow hentry).2.2.2
        rw [if_neg hnonzero] at hparent
        obtain ⟨parent, hfound⟩ := Option.isSome_iff_exists.mp hparent.2
        exact ⟨parent, findItem_eq_some hfound⟩

section Detach

variable {source rows : List FlatfileItemOwnershipRecord} {selectedUid : BitVec 64}

/-- The parent of a row once it has been through the loop. -/
def detachedParent (selectedUid selectedParent : BitVec 64)
    (row : FlatfileItemOwnershipRecord) : BitVec 64 :=
  if row.parentItemUid = selectedUid then selectedParent else row.parentItemUid

/-- The rows of a tree of which the root is being taken, some of them done. -/
structure HalfDetached (source rows : List FlatfileItemOwnershipRecord)
    (selectedUid : BitVec 64) : Prop where
  uids : rows.map FlatfileItemOwnershipRecord.itemUid =
    source.map FlatfileItemOwnershipRecord.itemUid
  unique : (source.map FlatfileItemOwnershipRecord.itemUid).Nodup
  nonzero : ∀ row ∈ source, row.itemUid ≠ 0
  parents : ∀ row ∈ rows, ∃ old ∈ source, old.itemUid = row.itemUid ∧
    (row.parentItemUid = old.parentItemUid ∨ row.parentItemUid = 0 ∧
      old.parentItemUid = selectedUid)

theorem HalfDetached.mem (h : HalfDetached source rows selectedUid)
    {old : FlatfileItemOwnershipRecord} (hold : old ∈ source) :
    ∃ row ∈ rows, row.itemUid = old.itemUid :=
  List.mem_map.mp (h.uids ▸ List.mem_map_of_mem hold)

/-- The search from a row ends at the child of the root it hangs under: with it, or with
nothing when that child is no child any more. -/
theorem detachRoot_branch (h : HalfDetached source rows selectedUid) {root : BitVec 64}
    {child : FlatfileItemOwnershipRecord} (hchild : child ∈ rows) :
    ∀ {n : Nat} {steps : Nat} {cursor : FlatfileItemOwnershipRecord}, cursor ∈ rows →
      Branch (ParentLink source) selectedUid n cursor.itemUid child.itemUid → n < steps →
        detachRoot rows selectedUid root steps cursor =
          if child.parentItemUid = selectedUid then child.itemUid else 0 := by
  have huidRows : (rows.map FlatfileItemOwnershipRecord.itemUid).Nodup := h.uids ▸ h.unique
  have hold {row : FlatfileItemOwnershipRecord} (hrow : row ∈ rows) {p : BitVec 64}
      (hlink : ParentLink source row.itemUid p) : row.parentItemUid = p ∨
        row.parentItemUid = 0 ∧ p = selectedUid := by
    obtain ⟨old, hmem, huid, hparent⟩ := h.parents row hrow
    obtain ⟨other, hother, huid', rfl, _⟩ := hlink
    rw [Keyed.eq_of_key_eq h.unique hother hmem (huid'.trans huid.symm)]
    exact hparent
  intro n
  induction n with
  | zero =>
      intro steps cursor hcursor hbranch hsteps
      obtain ⟨steps, rfl⟩ := Nat.exists_eq_add_of_lt hsteps
      generalize huid : child.itemUid = uid at hbranch
      cases hbranch with
      | child hlink =>
          have hsame := Keyed.eq_of_key_eq huidRows hchild hcursor huid
          subst hsame
          rw [Nat.zero_add, detachRoot]
          split
          · rfl
          · next hne =>
              have hzero := ((hold hcursor hlink).resolve_left hne).1
              rw [hzero]
              split
              · rfl
              · next parent hfound =>
                  obtain ⟨hmem, huid⟩ := (findUid_eq_some huidRows).mp hfound
                  obtain ⟨old, hmemOld, huidOld, _⟩ := h.parents parent hmem
                  exact absurd (huidOld.trans huid) (h.nonzero old hmemOld)
  | succ n ih =>
      intro steps cursor hcursor hbranch hsteps
      obtain ⟨steps, rfl⟩ := Nat.exists_eq_add_of_lt (Nat.lt_of_le_of_lt (Nat.zero_le _) hsteps)
      cases hbranch with
      | @under _ _ p _ hlink hne hrest =>
          have hparent := (hold hcursor hlink).resolve_right fun hgone => hne hgone.2
          rw [Nat.zero_add, detachRoot, if_neg (hparent ▸ hne)]
          -- the parent has a link of its own, so it is a row
          have hup : ∃ q, ParentLink source p q := by
            cases hrest with
            | child hlink => exact ⟨_, hlink⟩
            | under hlink _ _ => exact ⟨_, hlink⟩
          obtain ⟨_, old, hmemOld, huidOld, _⟩ := hup
          obtain ⟨parent, hmem, huid⟩ := h.mem hmemOld
          rw [(findUid_eq_some huidRows).mpr ⟨hmem, huid.trans (huidOld.trans hparent.symm)⟩]
          exact ih hmem (by rw [huid, huidOld]; exact hrest) (by omega)

theorem ParentLink.unique (hunique : (source.map FlatfileItemOwnershipRecord.itemUid).Nodup)
    (k p q : BitVec 64) (hp : ParentLink source k p) (hq : ParentLink source k q) : p = q := by
  obtain ⟨row, hrow, huid, hparent, _⟩ := hp
  obtain ⟨other, hother, huid', hparent', _⟩ := hq
  rw [← hparent, ← hparent', Keyed.eq_of_key_eq hunique hrow hother (huid.trans huid'.symm)]

variable {payload : CollectorCommandPayload}

theorem detachRows_cons {selectedParent newRoot : BitVec 64}
    {done todo : List FlatfileItemOwnershipRecord} {item : FlatfileItemOwnershipRecord}
    (h : (if payload.action = .collect ∧ item.itemUid ≠ payload.selectedItemUid ∧
        item.rootItemUid = payload.selectedItemUid then
      detachRoot (done ++ item :: todo) payload.selectedItemUid item.rootItemUid
        ((done ++ item :: todo).length + 1) item
      else item.rootItemUid) = newRoot) :
    detachRows payload selectedParent done (item :: todo) =
      if newRoot = 0 then none
      else detachRows payload selectedParent
        (done ++ [detachRow payload selectedParent newRoot item]) todo := by
  subst h
  rw [detachRows]

/-- A row comes behind the child of the root it hangs under. -/
def Blocked (source : List FlatfileItemOwnershipRecord) (selectedUid : BitVec 64)
    (row : FlatfileItemOwnershipRecord) : Prop :=
  row.itemUid ≠ selectedUid ∧ ∃ n child,
    Branch (ParentLink source) selectedUid n row.itemUid child ∧ child < row.itemUid

structure Detached (payload : CollectorCommandPayload)
    (source : List FlatfileItemOwnershipRecord) (selectedParent : BitVec 64)
    (row after : FlatfileItemOwnershipRecord) : Prop where
  exists_root : ∃ newRoot, after = detachRow payload selectedParent newRoot row ∧
    (payload.action = .collect → row.itemUid ≠ payload.selectedItemUid →
      if row.rootItemUid = payload.selectedItemUid then
        ∃ n, Branch (ParentLink source) payload.selectedItemUid n row.itemUid newRoot
      else newRoot = row.rootItemUid)

structure RootTaken (payload : CollectorCommandPayload)
    (source : List FlatfileItemOwnershipRecord) : Prop where
  collect : payload.action = .collect
  nonzero : payload.selectedItemUid ≠ 0
  ordered : Sorted.Ordered uidLess FlatfileItemOwnershipRecord.itemUid source
  rows : ∀ row ∈ source, row.itemUid ≠ 0
  roots : ∀ row ∈ source, row.rootItemUid = payload.selectedItemUid
  top : ∀ row ∈ source, row.itemUid = payload.selectedItemUid → row.parentItemUid = 0
  branches : ∀ row ∈ source, row.itemUid ≠ payload.selectedItemUid →
    ∃ n ≤ source.length, ∃ child,
      Branch (ParentLink source) payload.selectedItemUid n row.itemUid child

/-- The loop over a tree whose root is collected, from somewhere in the middle: it fails
at the first row that comes too late, and leaves every row as it should be without one. -/
theorem detachRows_root (h : RootTaken payload source) :
    ∀ {todo done : List FlatfileItemOwnershipRecord},
      HalfDetached source (done ++ todo) payload.selectedItemUid →
        (∀ row ∈ todo, row ∈ source) →
          (∀ row ∈ done, row.parentItemUid ≠ payload.selectedItemUid) →
            (∃ rows, detachRows payload 0 done todo = some (done ++ rows) ∧
              List.Forall₂ (Detached payload source 0) todo rows ∧
              ∀ row ∈ todo, ¬ Blocked source payload.selectedItemUid row) ∨
            (detachRows payload 0 done todo = none ∧
              ∃ row ∈ todo, Blocked source payload.selectedItemUid row) := by
  intro todo
  induction todo with
  | nil =>
      intro done _ _ _
      left
      exact ⟨[], by rw [detachRows, List.append_nil], .nil, by simp⟩
  | cons item todo ih =>
      intro done hhalf hsource hdone
      have hitem := hsource item (List.mem_cons_self ..)
      have hroot := h.roots item hitem
      -- a row out of the loop leaves the invariant as it is
      have hnext (newRoot : BitVec 64) :
          HalfDetached source (done ++ [detachRow payload 0 newRoot item] ++ todo)
            payload.selectedItemUid ∧
          ∀ row ∈ done ++ [detachRow payload 0 newRoot item],
            row.parentItemUid ≠ payload.selectedItemUid := by
        have huid : (detachRow payload 0 newRoot item).itemUid = item.itemUid := by
          unfold detachRow
          split <;> rfl
        have hparent : (detachRow payload 0 newRoot item).parentItemUid = item.parentItemUid ∧
              item.parentItemUid ≠ payload.selectedItemUid ∨
            (detachRow payload 0 newRoot item).parentItemUid = 0 ∧
              item.parentItemUid = payload.selectedItemUid := by
          unfold detachRow
          split
          · next hselected =>
              have hzero := h.top item hitem hselected
              exact .inl ⟨hzero.symm, fun heq => h.nonzero (heq.symm.trans hzero)⟩
          · by_cases hchild : item.parentItemUid = payload.selectedItemUid
            · exact .inr ⟨if_pos ⟨h.collect, hchild⟩, hchild⟩
            · exact .inl ⟨if_neg fun hboth => hchild hboth.2, hchild⟩
        refine ⟨⟨?_, hhalf.unique, hhalf.nonzero, fun row hrow => ?_⟩, fun row hrow => ?_⟩
        · rw [← hhalf.uids]
          simp only [List.map_append, List.map_cons, huid, List.append_assoc,
            List.singleton_append]
        · simp only [List.append_assoc, List.mem_append, List.mem_singleton] at hrow
          rcases hrow with hrow | rfl | hrow
          · exact hhalf.parents row (List.mem_append_left _ hrow)
          · exact ⟨item, hitem, huid.symm, hparent.imp And.left id⟩
          · exact hhalf.parents row (List.mem_append_right _ (List.mem_cons_of_mem _ hrow))
        · rcases List.mem_append.mp hrow with hrow | hrow
          · exact hdone row hrow
          · rw [List.mem_singleton.mp hrow]
            rcases hparent with ⟨heq, hne⟩ | ⟨heq, _⟩
            · rwa [heq]
            · rw [heq]
              exact h.nonzero.symm
      -- and the rest of the loop goes as the induction says
      have hrest (newRoot : BitVec 64) (hstep : detachRows payload 0 done (item :: todo) =
          detachRows payload 0 (done ++ [detachRow payload 0 newRoot item]) todo)
          (hclear : ¬ Blocked source payload.selectedItemUid item)
          (hfound : item.itemUid ≠ payload.selectedItemUid →
            ∃ n, Branch (ParentLink source) payload.selectedItemUid n item.itemUid newRoot) :
          (∃ rows, detachRows payload 0 done (item :: todo) = some (done ++ rows) ∧
            List.Forall₂ (Detached payload source 0) (item :: todo) rows ∧
            ∀ row ∈ item :: todo, ¬ Blocked source payload.selectedItemUid row) ∨
          (detachRows payload 0 done (item :: todo) = none ∧
            ∃ row ∈ item :: todo, Blocked source payload.selectedItemUid row) := by
        rcases ih (hnext newRoot).1 (fun row hrow => hsource row (List.mem_cons_of_mem _ hrow))
          (hnext newRoot).2 with ⟨rows, hrows, hdetached, hclearRest⟩ | ⟨hnone, row, hrow, hblocked⟩
        · left
          refine ⟨detachRow payload 0 newRoot item :: rows, ?_, .cons ⟨newRoot, rfl,
            fun _ hne => ?_⟩ hdetached, fun row hrow => ?_⟩
          · rw [hstep, hrows, List.append_assoc, List.singleton_append]
          · rw [if_pos hroot]
            exact hfound hne
          · rcases List.mem_cons.mp hrow with rfl | hrow
            · exact hclear
            · exact hclearRest row hrow
        · exact .inr ⟨hstep.trans hnone, row, List.mem_cons_of_mem _ hrow, hblocked⟩
      by_cases hselected : item.itemUid = payload.selectedItemUid
      · refine hrest item.rootItemUid ?_ (fun hblocked => hblocked.1 hselected)
          fun hne => absurd hselected hne
        rw [detachRows_cons (if_neg fun hall => hall.2.1 hselected), hroot, if_neg h.nonzero]
      · obtain ⟨n, hn, childUid, hbranch⟩ := h.branches item hitem hselected
        obtain ⟨old, hold, rfl, hparentOld, _⟩ := hbranch.link
        obtain ⟨child, hchild, huid⟩ := hhalf.mem hold
        have hlength : n < (done ++ item :: todo).length + 1 := by
          have := congrArg List.length hhalf.uids
          rw [List.length_map, List.length_map] at this
          omega
        have hlookup := @detachRoot_branch _ _ _ hhalf item.rootItemUid _ hchild _ _ _
          (List.mem_append_right _ (List.mem_cons_self ..)) (huid ▸ hbranch) hlength
        have hordered : ((done ++ item :: todo).map FlatfileItemOwnershipRecord.itemUid).Pairwise
            fun a b => uidLess a b = true := by
          rw [hhalf.uids]
          exact List.pairwise_map.mpr h.ordered
        rw [List.map_append, List.map_cons, List.pairwise_append, List.pairwise_cons] at hordered
        obtain ⟨_, ⟨hbehind, _⟩, hbefore⟩ := hordered
        have hcond : payload.action = .collect ∧ item.itemUid ≠ payload.selectedItemUid ∧
            item.rootItemUid = payload.selectedItemUid := ⟨h.collect, hselected, hroot⟩
        rcases List.mem_append.mp hchild with hin | hin
        · -- the child has been taken off already
          right
          rw [if_neg (hdone child hin)] at hlookup
          refine ⟨?_, item, List.mem_cons_self .., hselected, n, old.itemUid, hbranch, ?_⟩
          · rw [detachRows_cons ((if_pos hcond).trans hlookup), if_pos rfl]
          · rw [← huid]
            exact of_decide_eq_true (hbefore _ (List.mem_map_of_mem hin) _ (List.mem_cons_self ..))
        · have hsame := Keyed.eq_of_key_eq hhalf.unique (hsource child hin) hold huid
          subst hsame
          rw [if_pos hparentOld] at hlookup
          refine hrest child.itemUid ?_ (fun hblocked => ?_) fun _ => ⟨n, hbranch⟩
          · rw [detachRows_cons ((if_pos hcond).trans hlookup), if_neg (h.rows child hold)]
          · obtain ⟨_, m, child', hbranch', hless⟩ := hblocked
            obtain ⟨_, heq⟩ := hbranch.unique (ParentLink.unique hhalf.unique) hbranch'
            rw [← heq] at hless
            rcases List.mem_cons.mp hin with rfl | hin
            · exact BitVec.lt_irrefl _ hless
            · have := of_decide_eq_true (hbehind _ (List.mem_map_of_mem hin))
              exact BitVec.lt_irrefl _ (BitVec.lt_trans hless this)

theorem detachRows_plain {selectedParent : BitVec 64} :
    ∀ {todo done : List FlatfileItemOwnershipRecord},
      (∀ row ∈ todo, row.rootItemUid ≠ 0 ∧ (payload.action = .collect →
        row.itemUid ≠ payload.selectedItemUid →
          row.rootItemUid ≠ payload.selectedItemUid)) →
        detachRows payload selectedParent done todo = some (done ++ todo.map fun row =>
          detachRow payload selectedParent row.rootItemUid row) := by
  intro todo
  induction todo with
  | nil =>
      intro done _
      rw [detachRows, List.map_nil, List.append_nil]
  | cons item todo ih =>
      intro done h
      obtain ⟨hnonzero, hplain⟩ := h item (List.mem_cons_self ..)
      rw [detachRows_cons (if_neg fun hall => hplain hall.1 hall.2.1 hall.2.2), if_neg hnonzero,
        ih fun row hrow => h row (List.mem_cons_of_mem _ hrow), List.map_cons, List.append_assoc,
        List.singleton_append]

end Detach

end Duris.Flatfile.Ownership
