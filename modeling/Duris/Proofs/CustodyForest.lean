import Duris.Flatfile.CorpseRaise
import Duris.Flatfile.ShopTrade
import Duris.Lib.Forest
import Duris.Proofs.ItemCatalog

/-!
# The custody forest

The rows that are not destroyed are trees, each of one owner, in one state and under one
root. Whatever moves rows moves whole trees, or cuts a tree where the part that goes is
closed under having a parent in it: `CustodyForest.update` asks for that and no more, and
each operation of the catalogue is shown to be such an update, or rows added in the same
way, `CustodyForest.append`.
-/

namespace Duris.Flatfile.Ownership

open Persistence Player Item Economy Relation Forest

def ParentLink (items : List FlatfileItemOwnershipRecord) (uid parentUid : BitVec 64) : Prop :=
  ∃ row ∈ items, row.itemUid = uid ∧ row.parentItemUid = parentUid ∧ parentUid ≠ 0

structure SameTree (row parent : FlatfileItemOwnershipRecord) : Prop where
  owner : parent.owner = row.owner
  state : parent.state = row.state
  root : parent.rootItemUid = row.rootItemUid

structure CustodyForest (items : List FlatfileItemOwnershipRecord) : Prop where
  unique : (items.map FlatfileItemOwnershipRecord.itemUid).Nodup
  joined : ∀ row ∈ items, row.state ≠ ItemCustodyState.destroyed → row.parentItemUid ≠ 0 →
    ∃ parent ∈ items, parent.itemUid = row.parentItemUid ∧ SameTree row parent
  rooted : ∀ row ∈ items, row.parentItemUid = 0 → row.rootItemUid = row.itemUid
  acyclic : Acyclic (ParentLink items)

/-- A catalogue whose owners and rows are in order, no row without a uid, and whose rows
are a forest. -/
structure WellFormed (catalog : OwnershipCatalog) : Prop where
  owners : Sorted.Ordered ownerLess OwnerState.owner catalog.owners
  items : Sorted.Ordered uidLess FlatfileItemOwnershipRecord.itemUid catalog.items
  nonzero : ∀ row ∈ catalog.items, row.itemUid ≠ 0
  forest : CustodyForest catalog.items

structure RowEvolved (row after : FlatfileItemOwnershipRecord) : Prop where
  uid : after.itemUid = row.itemUid
  destroyed : row.state = ItemCustodyState.destroyed → after.state = ItemCustodyState.destroyed
  revision : after = row ∨ row.itemRevision < after.itemRevision

/-- No row disappears, a destroyed row stays so, and a row that changes gets a higher
revision. -/
def Evolved (items after : List FlatfileItemOwnershipRecord) : Prop :=
  ∀ row ∈ items, ∃ row' ∈ after, RowEvolved row row'

theorem RowEvolved.refl (row : FlatfileItemOwnershipRecord) : RowEvolved row row :=
  ⟨rfl, id, .inl rfl⟩

theorem RowEvolved.trans {a b c : FlatfileItemOwnershipRecord} (hab : RowEvolved a b)
    (hbc : RowEvolved b c) : RowEvolved a c where
  uid := hbc.uid.trans hab.uid
  destroyed h := hbc.destroyed (hab.destroyed h)
  revision := by
    rcases hab.revision with rfl | hab
    · exact hbc.revision
    · rcases hbc.revision with rfl | hbc
      · exact .inr hab
      · exact .inr (BitVec.lt_trans hab hbc)

theorem Evolved.refl (items : List FlatfileItemOwnershipRecord) : Evolved items items :=
  fun row hrow => ⟨row, hrow, .refl row⟩

theorem Evolved.trans {a b c : List FlatfileItemOwnershipRecord} (hab : Evolved a b)
    (hbc : Evolved b c) : Evolved a c := by
  intro row hrow
  obtain ⟨row', hrow', h⟩ := hab row hrow
  obtain ⟨row'', hrow'', h'⟩ := hbc row' hrow'
  exact ⟨row'', hrow'', h.trans h'⟩

variable {items : List FlatfileItemOwnershipRecord}

theorem Evolved.of_map {f : FlatfileItemOwnershipRecord → FlatfileItemOwnershipRecord}
    (h : ∀ row ∈ items, RowEvolved row (f row)) : Evolved items (items.map f) :=
  fun row hrow => ⟨f row, List.mem_map_of_mem hrow, h row hrow⟩

theorem Evolved.append (items rows : List FlatfileItemOwnershipRecord) :
    Evolved items (items ++ rows) :=
  fun row hrow => ⟨row, List.mem_append_left _ hrow, .refl row⟩

theorem Evolved.perm {after after' : List FlatfileItemOwnershipRecord} (h : Evolved items after)
    (hperm : after'.Perm after) : Evolved items after' := by
  intro row hrow
  obtain ⟨row', hrow', hevolved⟩ := h row hrow
  exact ⟨row', hperm.mem_iff.mpr hrow', hevolved⟩

theorem revision_lt {revision : BitVec 64} (h : revision ≠ BitVec.allOnes 64) :
    revision < revision + 1 := by
  have hne : revision.toNat ≠ 2 ^ 64 - 1 := by
    intro heq
    exact h (BitVec.eq_of_toNat_eq (by rw [heq, BitVec.toNat_allOnes]))
  have hone : (1 : BitVec 64).toNat = 1 := rfl
  have := revision.isLt
  rw [BitVec.lt_def, BitVec.toNat_add, hone]
  omega

theorem CustodyForest.perm {after : List FlatfileItemOwnershipRecord} (h : CustodyForest items)
    (hperm : after.Perm items) : CustodyForest after where
  unique := (hperm.map _).nodup_iff.mpr h.unique
  joined row hrow hstate hparent := by
    obtain ⟨parent, hmem, hrest⟩ := h.joined row (hperm.mem_iff.mp hrow) hstate hparent
    exact ⟨parent, hperm.mem_iff.mpr hmem, hrest⟩
  rooted row hrow := h.rooted row (hperm.mem_iff.mp hrow)
  acyclic := h.acyclic.mono fun _ _ hlink => by
    obtain ⟨row, hrow, hrest⟩ := hlink
    exact ⟨row, hperm.mem_iff.mp hrow, hrest⟩

section Rows

variable {items : List FlatfileItemOwnershipRecord}

theorem eq_of_uid (h : CustodyForest items) {row other : FlatfileItemOwnershipRecord}
    (hrow : row ∈ items) (hother : other ∈ items) (huid : row.itemUid = other.itemUid) :
    row = other := Keyed.eq_of_key_eq h.unique hrow hother huid

theorem SameTree.live {row parent : FlatfileItemOwnershipRecord} (h : SameTree row parent)
    (hlive : row.state ≠ ItemCustodyState.destroyed) :
    parent.state ≠ ItemCustodyState.destroyed := h.state ▸ hlive

end Rows

/-- Where a moved row is afterwards: a root of its own, under a row above it that moves
along, or under a row that stays. A row that is destroyed need not be in the tree of its
parent. -/
inductive Rejoined (items : List FlatfileItemOwnershipRecord)
    (f : FlatfileItemOwnershipRecord → FlatfileItemOwnershipRecord) (moved : BitVec 64 → Prop)
    (row : FlatfileItemOwnershipRecord) : Prop where
  | top (parent : (f row).parentItemUid = 0) (root : (f row).rootItemUid = row.itemUid)
  | along {parent : FlatfileItemOwnershipRecord} (mem : parent ∈ items)
      (above : TransGen (ParentLink items) row.itemUid parent.itemUid)
      (moves : moved parent.itemUid) (link : (f row).parentItemUid = parent.itemUid)
      (nonzero : parent.itemUid ≠ 0)
      (same : (f row).state ≠ ItemCustodyState.destroyed → SameTree (f row) (f parent))
  | under {parent : FlatfileItemOwnershipRecord} (mem : parent ∈ items)
      (live : parent.state ≠ ItemCustodyState.destroyed) (stays : ¬ moved parent.itemUid)
      (link : (f row).parentItemUid = parent.itemUid) (nonzero : parent.itemUid ≠ 0)
      (same : (f row).state ≠ ItemCustodyState.destroyed → SameTree (f row) parent)

/-- A row that is not moved: the same, or one that was destroyed and stays where it is. -/
structure Stays (row after : FlatfileItemOwnershipRecord) : Prop where
  live : row.state ≠ ItemCustodyState.destroyed → after = row
  parent : after.parentItemUid = row.parentItemUid
  root : after.rootItemUid = row.rootItemUid
  destroyed : row.state = ItemCustodyState.destroyed → after.state = ItemCustodyState.destroyed

theorem Stays.refl (row : FlatfileItemOwnershipRecord) : Stays row row :=
  ⟨fun _ => rfl, rfl, rfl, id⟩

/-- An update of some rows, none destroyed before, whose children move along. -/
structure Update (items : List FlatfileItemOwnershipRecord)
    (f : FlatfileItemOwnershipRecord → FlatfileItemOwnershipRecord) (moved : BitVec 64 → Prop) :
    Prop where
  uid : ∀ row ∈ items, (f row).itemUid = row.itemUid
  stays : ∀ row ∈ items, ¬ moved row.itemUid → Stays row (f row)
  live : ∀ row ∈ items, moved row.itemUid → row.state ≠ ItemCustodyState.destroyed
  closed : ∀ row ∈ items, row.state ≠ ItemCustodyState.destroyed → row.parentItemUid ≠ 0 →
    moved row.parentItemUid → moved row.itemUid
  rejoined : ∀ row ∈ items, moved row.itemUid → Rejoined items f moved row

section Update

variable {items : List FlatfileItemOwnershipRecord}
  {f : FlatfileItemOwnershipRecord → FlatfileItemOwnershipRecord} {moved : BitVec 64 → Prop}

open Classical in
/-- The rows that stay, above them the rows that move, above all what is destroyed. -/
noncomputable def layer (items : List FlatfileItemOwnershipRecord) (moved : BitVec 64 → Prop)
    (uid : BitVec 64) : Nat :=
  if ∃ row ∈ items, row.itemUid = uid ∧ row.state = ItemCustodyState.destroyed then 2
  else if moved uid then 1 else 0

theorem layer_le (uid : BitVec 64) : layer items moved uid ≤ 2 := by
  unfold layer
  split
  · exact Nat.le_refl 2
  · split <;> omega

theorem layer_destroyed {row : FlatfileItemOwnershipRecord} (hrow : row ∈ items)
    (hstate : row.state = ItemCustodyState.destroyed) : layer items moved row.itemUid = 2 :=
  if_pos ⟨row, hrow, rfl, hstate⟩

theorem layer_live (h : CustodyForest items) {row : FlatfileItemOwnershipRecord}
    (hrow : row ∈ items) (hstate : row.state ≠ ItemCustodyState.destroyed) :
    (layer items moved row.itemUid = 1 ∧ moved row.itemUid) ∨
      (layer items moved row.itemUid = 0 ∧ ¬ moved row.itemUid) := by
  have hnot : ¬ ∃ other ∈ items, other.itemUid = row.itemUid ∧
      other.state = ItemCustodyState.destroyed := by
    intro ⟨other, hother, huid, hdestroyed⟩
    rw [eq_of_uid h hother hrow huid] at hdestroyed
    exact hstate hdestroyed
  unfold layer
  rw [if_neg hnot]
  split
  · next hmoved => exact .inl ⟨rfl, hmoved⟩
  · next hmoved => exact .inr ⟨rfl, hmoved⟩

theorem Update.level (h : CustodyForest items) (hupdate : Update items f moved) {k p : BitVec 64}
    (hlink : ParentLink (items.map f) k p) (hlayer : layer items moved p = layer items moved k) :
    TransGen (ParentLink items) k p := by
  obtain ⟨after, hafter, rfl, rfl, hnonzero⟩ := hlink
  obtain ⟨row, hrow, rfl⟩ := List.mem_map.mp hafter
  rw [hupdate.uid row hrow] at hlayer ⊢
  by_cases hmoved : moved row.itemUid
  · cases hupdate.rejoined row hrow hmoved with
    | top hparent _ => exact absurd hparent hnonzero
    | along _ habove _ hlink _ _ =>
        rw [hlink]
        exact habove
    | @under parent hmem hlive hstays hlink _ _ =>
        -- the row has moved and its parent has not
        rw [hlink] at hlayer
        rcases @layer_live items moved h _ hmem hlive with ⟨_, hmoves⟩ | ⟨hzero, _⟩
        · exact absurd hmoves hstays
        · rcases @layer_live items moved h _ hrow (hupdate.live row hrow hmoved) with
            ⟨hone, _⟩ | ⟨_, hnot⟩
          · rw [hone, hzero] at hlayer
            cases hlayer
          · exact absurd hmoved hnot
  · rw [(hupdate.stays row hrow hmoved).parent] at hnonzero ⊢
    exact .single ⟨row, hrow, rfl, rfl, hnonzero⟩

theorem Update.down (h : CustodyForest items) (hupdate : Update items f moved) {k p : BitVec 64}
    (hlink : ParentLink (items.map f) k p) : layer items moved p ≤ layer items moved k := by
  obtain ⟨after, hafter, rfl, rfl, hnonzero⟩ := hlink
  obtain ⟨row, hrow, rfl⟩ := List.mem_map.mp hafter
  rw [hupdate.uid row hrow]
  by_cases hdestroyed : row.state = ItemCustodyState.destroyed
  · rw [layer_destroyed hrow hdestroyed]
    exact layer_le _
  · rcases @layer_live items moved h _ hrow hdestroyed with ⟨hone, hmoved⟩ | ⟨hzero, hmoved⟩
    · cases hupdate.rejoined row hrow hmoved with
      | top hparent _ => exact absurd hparent hnonzero
      | @along parent hmem _ hmoves hlink _ _ =>
          rw [hlink, hone]
          rcases @layer_live items moved h _ hmem (hupdate.live parent hmem hmoves) with
            ⟨hparent, _⟩ | ⟨hparent, _⟩
          · rw [hparent]
          · rw [hparent]
            exact Nat.zero_le 1
      | @under parent hmem hlive hstays hlink _ _ =>
          rw [hlink]
          rcases @layer_live items moved h _ hmem hlive with ⟨_, hmoves⟩ | ⟨hparent, _⟩
          · exact absurd hmoves hstays
          · rw [hparent]
            exact Nat.zero_le _
    · rw [(hupdate.stays row hrow hmoved).parent] at hnonzero ⊢
      obtain ⟨parent, hmem, huid, hsame⟩ := h.joined row hrow hdestroyed hnonzero
      rw [← huid, hzero]
      rcases @layer_live items moved h _ hmem (hsame.live hdestroyed) with
        ⟨_, hmoves⟩ | ⟨hparent, _⟩
      · exact absurd (hupdate.closed row hrow hdestroyed hnonzero (huid ▸ hmoves)) hmoved
      · rw [hparent]

theorem CustodyForest.update (h : CustodyForest items) (hupdate : Update items f moved) :
    CustodyForest (items.map f) where
  unique := by
    have huids : (items.map f).map FlatfileItemOwnershipRecord.itemUid =
        items.map FlatfileItemOwnershipRecord.itemUid := by
      rw [List.map_map]
      exact List.map_congr_left fun row hrow => hupdate.uid row hrow
    rw [huids]
    exact h.unique
  joined after hafter hlive hparent := by
    obtain ⟨row, hrow, rfl⟩ := List.mem_map.mp hafter
    by_cases hmoved : moved row.itemUid
    · cases hupdate.rejoined row hrow hmoved with
      | top hzero _ => exact absurd hzero hparent
      | @along parent hmem _ _ hlink _ hsame =>
          exact ⟨f parent, List.mem_map_of_mem hmem, (hupdate.uid parent hmem).trans hlink.symm,
            hsame hlive⟩
      | @under parent hmem hlive' hstays hlink _ hsame =>
          refine ⟨f parent, List.mem_map_of_mem hmem,
            (hupdate.uid parent hmem).trans hlink.symm, ?_⟩
          rw [(hupdate.stays parent hmem hstays).live hlive']
          exact hsame hlive
    · have hstay := hupdate.stays row hrow hmoved
      have hlive : row.state ≠ ItemCustodyState.destroyed :=
        fun hdestroyed => hlive (hstay.destroyed hdestroyed)
      rw [hstay.live hlive] at hparent ⊢
      obtain ⟨parent, hmem, huid, hsame⟩ := h.joined row hrow hlive hparent
      have hstays : ¬ moved parent.itemUid := fun hmoves =>
        hmoved (hupdate.closed row hrow hlive hparent (huid ▸ hmoves))
      exact ⟨parent, List.mem_map.mpr ⟨parent, hmem,
        (hupdate.stays parent hmem hstays).live (hsame.live hlive)⟩, huid, hsame⟩
  rooted after hafter hparent := by
    obtain ⟨row, hrow, rfl⟩ := List.mem_map.mp hafter
    rw [hupdate.uid row hrow]
    by_cases hmoved : moved row.itemUid
    · cases hupdate.rejoined row hrow hmoved with
      | top _ hroot => exact hroot
      | along _ _ _ hlink hnonzero _ => exact absurd (hlink.symm.trans hparent) hnonzero
      | under _ _ _ hlink hnonzero _ => exact absurd (hlink.symm.trans hparent) hnonzero
    · have hstay := hupdate.stays row hrow hmoved
      rw [hstay.parent] at hparent
      rw [hstay.root]
      exact h.rooted row hrow hparent
  acyclic := by
    refine acyclic_of_layers (layer items moved) (fun k p hlink => hupdate.down h hlink) fun n =>
      h.acyclic.of_above fun k p ⟨hlink, hk, hp⟩ => hupdate.level h hlink (hp.trans hk.symm)

structure TreeUpdate (items : List FlatfileItemOwnershipRecord)
    (f : FlatfileItemOwnershipRecord → FlatfileItemOwnershipRecord)
    (chosen : FlatfileItemOwnershipRecord → Prop) : Prop where
  uid : ∀ row ∈ items, (f row).itemUid = row.itemUid
  parent : ∀ row ∈ items, (f row).parentItemUid = row.parentItemUid
  root : ∀ row ∈ items, (f row).rootItemUid = row.rootItemUid
  stays : ∀ row ∈ items, ¬ (chosen row ∧ row.state ≠ ItemCustodyState.destroyed) →
    Stays row (f row)
  whole : ∀ row ∈ items, ∀ parent ∈ items, SameTree row parent → (chosen row ↔ chosen parent)
  same : ∀ row ∈ items, ∀ parent ∈ items, chosen row → chosen parent → SameTree row parent →
    SameTree (f row) (f parent)

theorem TreeUpdate.update {chosen : FlatfileItemOwnershipRecord → Prop}
    (hnonzero : ∀ row ∈ items, row.itemUid ≠ 0) (h : CustodyForest items)
    (htrees : TreeUpdate items f chosen) :
    Update items f fun uid => ∃ row ∈ items, row.itemUid = uid ∧ chosen row ∧
      row.state ≠ ItemCustodyState.destroyed where
  uid := htrees.uid
  stays row hrow hmoved := htrees.stays row hrow fun hchosen => hmoved ⟨row, hrow, rfl, hchosen⟩
  live row hrow hmoved := by
    obtain ⟨other, hother, huid, _, hlive⟩ := hmoved
    rwa [eq_of_uid h hother hrow huid] at hlive
  closed row hrow hlive hparent hmoved := by
    obtain ⟨other, hother, huid, hchosen, _⟩ := hmoved
    obtain ⟨parent, hmem, huid', hsame⟩ := h.joined row hrow hlive hparent
    rw [eq_of_uid h hother hmem (huid.trans huid'.symm)] at hchosen
    exact ⟨row, hrow, rfl, (htrees.whole row hrow parent hmem hsame).mpr hchosen, hlive⟩
  rejoined row hrow hmoved := by
    obtain ⟨other, hother, huid, hchosen, hlive⟩ := hmoved
    rw [eq_of_uid h hother hrow huid] at hchosen hlive
    by_cases hparent : row.parentItemUid = 0
    · exact .top ((htrees.parent row hrow).trans hparent)
        ((htrees.root row hrow).trans (h.rooted row hrow hparent))
    · obtain ⟨parent, hmem, huid', hsame⟩ := h.joined row hrow hlive hparent
      have hchosen' := (htrees.whole row hrow parent hmem hsame).mp hchosen
      exact .along hmem (.single ⟨row, hrow, rfl, huid'.symm, hnonzero parent hmem⟩)
        ⟨parent, hmem, rfl, hchosen', hsame.live hlive⟩
        ((htrees.parent row hrow).trans huid'.symm) (hnonzero parent hmem)
        fun _ => htrees.same row hrow parent hmem hchosen hchosen' hsame

end Update

/-- Rows that are new, live and each a root, under another new row or under a live row. -/
structure Addition (items rows : List FlatfileItemOwnershipRecord) : Prop where
  unique : (rows.map FlatfileItemOwnershipRecord.itemUid).Nodup
  fresh : ∀ row ∈ rows, ∀ other ∈ items, other.itemUid ≠ row.itemUid
  live : ∀ row ∈ rows, row.state ≠ ItemCustodyState.destroyed
  rooted : ∀ row ∈ rows, row.parentItemUid = 0 → row.rootItemUid = row.itemUid
  joined : ∀ row ∈ rows, row.parentItemUid ≠ 0 →
    ∃ parent ∈ items ++ rows, parent.itemUid = row.parentItemUid ∧ SameTree row parent
  acyclic : Acyclic fun uid parentUid => ParentLink rows uid parentUid

theorem CustodyForest.append {items rows : List FlatfileItemOwnershipRecord}
    (h : CustodyForest items) (hadded : Addition items rows) : CustodyForest (items ++ rows) where
  unique := by
    rw [List.map_append, List.nodup_append]
    refine ⟨h.unique, hadded.unique, fun a ha b hb hab => ?_⟩
    obtain ⟨other, hother, rfl⟩ := List.mem_map.mp ha
    obtain ⟨row, hrow, rfl⟩ := List.mem_map.mp hb
    exact hadded.fresh row hrow other hother hab
  joined row hrow hlive hparent := by
    rcases List.mem_append.mp hrow with hold | hnew
    · obtain ⟨parent, hmem, hrest⟩ := h.joined row hold hlive hparent
      exact ⟨parent, List.mem_append_left _ hmem, hrest⟩
    · exact hadded.joined row hnew hparent
  rooted row hrow hparent := by
    rcases List.mem_append.mp hrow with hold | hnew
    · exact h.rooted row hold hparent
    · exact hadded.rooted row hnew hparent
  acyclic := by
    -- the new rows stand where moved rows do: what is destroyed may name one of them
    let added := fun uid => ∃ row ∈ rows, row.itemUid = uid
    have hlayer : ∀ row ∈ rows, layer items added row.itemUid = 1 := by
      intro row hrow
      have hnot : ¬ ∃ other ∈ items, other.itemUid = row.itemUid ∧
          other.state = ItemCustodyState.destroyed :=
        fun ⟨other, hother, huid, _⟩ => hadded.fresh row hrow other hother huid
      unfold layer
      rw [if_neg hnot, if_pos ⟨row, hrow, rfl⟩]
    have hold : ∀ row ∈ items, row.state ≠ ItemCustodyState.destroyed →
        layer items added row.itemUid = 0 := by
      intro row hrow hlive
      rcases @layer_live items added h _ hrow hlive with ⟨_, hnew⟩ | ⟨hzero, _⟩
      · obtain ⟨other, hother, huid⟩ := hnew
        exact absurd huid.symm (hadded.fresh other hother row hrow)
      · exact hzero
    refine acyclic_of_layers (layer items added) (fun k p hlink => ?_) fun n => ?_
    · obtain ⟨row, hrow, rfl, rfl, hnonzero⟩ := hlink
      rcases List.mem_append.mp hrow with hmem | hmem
      · by_cases hdestroyed : row.state = ItemCustodyState.destroyed
        · rw [layer_destroyed hmem hdestroyed]
          exact layer_le _
        · obtain ⟨parent, hparent, huid, hsame⟩ := h.joined row hmem hdestroyed hnonzero
          rw [← huid, hold parent hparent (hsame.live hdestroyed)]
          exact Nat.zero_le _
      · obtain ⟨parent, hparent, huid, hsame⟩ := hadded.joined row hmem hnonzero
        rw [hlayer row hmem, ← huid]
        rcases List.mem_append.mp hparent with hparent | hparent
        · rw [hold parent hparent (hsame.live (hadded.live row hmem))]
          exact Nat.zero_le _
        · rw [hlayer parent hparent]
    · by_cases hone : n = 1
      · subst hone
        refine hadded.acyclic.mono fun k p ⟨hlink, hk, _⟩ => ?_
        obtain ⟨row, hrow, rfl, rfl, hnonzero⟩ := hlink
        rcases List.mem_append.mp hrow with hmem | hmem
        · by_cases hdestroyed : row.state = ItemCustodyState.destroyed
          · rw [layer_destroyed hmem hdestroyed] at hk
            cases hk
          · rw [hold row hmem hdestroyed] at hk
            cases hk
        · exact ⟨row, hmem, rfl, rfl, hnonzero⟩
      · refine h.acyclic.mono fun k p ⟨hlink, hk, _⟩ => ?_
        obtain ⟨row, hrow, rfl, rfl, hnonzero⟩ := hlink
        rcases List.mem_append.mp hrow with hmem | hmem
        · exact ⟨row, hmem, rfl, rfl, hnonzero⟩
        · exact absurd (hk.symm.trans (hlayer row hmem)) hone

end Duris.Flatfile.Ownership
