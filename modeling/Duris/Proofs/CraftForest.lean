import Duris.Proofs.ItemCraft
import Duris.Proofs.TransferForest

/-!
# Crafts keep the forest

A craft retires whole trees of the crafter and adds its outputs, which lie in each other
by index, a parent always before its child.
-/

namespace Duris.Flatfile.Ownership

open Persistence Player Item Economy Relation Forest

section Source

variable {catalog : OwnershipCatalog} {payload : ItemTransferPayload}

/-- An active row of the crafter under a root of the payload. -/
def CraftedAway (payload : ItemTransferPayload) (row : FlatfileItemOwnershipRecord) : Prop :=
  row.state = ItemCustodyState.active ∧ row.owner = payload.fromOwner ∧
    row.rootItemUid ∈ payload.items.map ItemTransferEntry.rootItemUid

theorem mem_craftSource {row : FlatfileItemOwnershipRecord} :
    row ∈ craftSource catalog payload ↔ row ∈ catalog.items ∧ CraftedAway payload row := by
  rw [craftSource, (sortRows_perm _).mem_iff, List.mem_filter]
  simp only [CraftedAway, Bool.and_eq_true, beq_iff_eq, itemOwnerIdentityEqual_iff,
    List.contains_iff_mem, and_assoc]

theorem craftSource_uids (h : CustodyForest catalog.items) {row : FlatfileItemOwnershipRecord}
    (hrow : row ∈ catalog.items) :
    ((craftSource catalog payload).map FlatfileItemOwnershipRecord.itemUid).contains
      row.itemUid = true ↔ CraftedAway payload row := by
  rw [List.contains_iff_mem, List.mem_map]
  constructor
  · intro ⟨other, hother, huid⟩
    obtain ⟨hmem, haway⟩ := mem_craftSource.mp hother
    exact eq_of_uid h hmem hrow huid ▸ haway
  · intro haway
    exact ⟨row, mem_craftSource.mpr ⟨hrow, haway⟩, rfl⟩

theorem craft_treeUpdate (h : CustodyForest catalog.items) :
    TreeUpdate catalog.items
      (fun row => if ((craftSource catalog payload).map
        FlatfileItemOwnershipRecord.itemUid).contains row.itemUid then retireRow row else row)
      (CraftedAway payload) where
  uid row _ := by split <;> rfl
  parent row _ := by split <;> rfl
  root row _ := by split <;> rfl
  stays row hrow hstays := by
    rw [if_neg fun hin => ?_]
    · exact .refl row
    · have haway := (craftSource_uids h hrow).mp hin
      refine hstays ⟨haway, ?_⟩
      rw [haway.1]
      decide
  whole row _ parent _ hsame := by
    unfold CraftedAway
    rw [hsame.owner, hsame.state, hsame.root]
  same row hrow parent hparent haway haway' hsame := by
    rw [if_pos ((craftSource_uids h hrow).mpr haway),
      if_pos ((craftSource_uids h hparent).mpr haway')]
    exact ⟨rfl, rfl, hsame.root⟩

theorem craftRefusal_revision :
    ∀ {rows : List FlatfileItemOwnershipRecord} {entries : List ItemTransferEntry},
      rows.length = entries.length → craftRefusal rows entries = none →
        ∀ row ∈ rows, row.itemRevision ≠ BitVec.allOnes 64 := by
  intro rows
  induction rows with
  | nil => intro _ _ _ row hrow; cases hrow
  | cons stored rows ih =>
      intro entries hlength h row hrow
      cases entries with
      | nil => cases hlength
      | cons expected entries =>
          rw [craftRefusal] at h
          split at h
          · cases h
          · split at h
            · cases h
            · next hrevision =>
                rcases List.mem_cons.mp hrow with rfl | hmem
                · exact hrevision
                · exact ih (Nat.succ.inj hlength) h row hmem

end Source

section Outputs

variable {outputs : List PlayerItemSnapshot} {owner : ItemOwnerIdentity}

theorem outputRoot_top {depth : Nat} {root : BitVec 64} {parent : Int}
    (hnone : parent = playerSnapshotNoParent) :
    outputRoot outputs depth root parent = some root := by
  cases depth <;> rw [outputRoot, if_pos hnone]

theorem outputRoot_succ :
    ∀ {depth : Nat} {root : BitVec 64} {parent : Int} {found : BitVec 64},
      outputRoot outputs depth root parent = some found →
        outputRoot outputs (depth + 1) root parent = some found := by
  intro depth
  induction depth with
  | zero =>
      intro root parent found h
      rw [outputRoot] at h
      split at h
      · next hnone => rw [outputRoot_top hnone, h]
      · cases h
  | succ depth ih =>
      intro root parent found h
      rw [outputRoot] at h ⊢
      split at h
      · next hnone => rw [if_pos hnone, h]
      · next hsome =>
          rw [if_neg hsome]
          split at h
          · cases h
          · next hpos =>
              rw [if_neg hpos]
              split at h
              · cases h
              · exact ih h

theorem ParentsBefore.parent (h : ParentsBefore outputs) {index : Nat}
    {output : PlayerItemSnapshot} (hget : outputs[index]? = some output)
    (hparent : output.parentIndex.toInt ≠ playerSnapshotNoParent) :
    ∃ parent, outputs[output.parentIndex.toInt.toNat]? = some parent ∧
      output.parentIndex.toInt.toNat < index ∧ 0 ≤ output.parentIndex.toInt := by
  obtain ⟨hbefore, hlow⟩ := h index output hget
  obtain ⟨hlength, _⟩ := List.getElem?_eq_some_iff.mp hget
  unfold playerSnapshotNoParent at hlow hparent
  have hindex : output.parentIndex.toInt.toNat < outputs.length := by omega
  exact ⟨_, List.getElem?_eq_getElem hindex, by omega, by omega⟩

variable {catalog : OwnershipCatalog}

/-- Where an output goes: to the top, or into another one under the same root. -/
theorem outputRow_joined (h : OutputsFresh catalog outputs) {output : PlayerItemSnapshot}
    (houtput : output ∈ outputs) {root : BitVec 64}
    (hroot : outputRoot outputs outputs.length output.objectUid output.parentIndex.toInt =
      some root) :
    (outputParentUid outputs output = 0 ∧ root = output.objectUid) ∨
      ∃ parent ∈ outputs, outputParentUid outputs output = parent.objectUid ∧
        outputRoot outputs outputs.length parent.objectUid parent.parentIndex.toInt =
          some root := by
  obtain ⟨index, hindex, hget⟩ := List.getElem_of_mem houtput
  have hget : outputs[index]? = some output := by rw [List.getElem?_eq_getElem hindex, hget]
  by_cases hnone : output.parentIndex.toInt = playerSnapshotNoParent
  · left
    rw [outputRoot_top hnone] at hroot
    exact ⟨if_pos hnone, (Option.some.inj hroot).symm⟩
  · right
    obtain ⟨parent, hparent, _, hpos⟩ := h.before.parent hget hnone
    refine ⟨parent, List.mem_of_getElem? hparent, ?_, ?_⟩
    · rw [outputParentUid, if_neg hnone, hparent]
    · cases hlength : outputs.length with
      | zero => rw [hlength] at hindex; omega
      | succ depth =>
          rw [hlength, outputRoot, if_neg hnone, if_neg (by omega), hparent] at hroot
          exact outputRoot_succ hroot

theorem outputRows_row (h : OutputsFresh catalog outputs) {output : PlayerItemSnapshot}
    (houtput : output ∈ outputs) :
    ∃ root, outputRoot outputs outputs.length output.objectUid output.parentIndex.toInt =
      some root ∧ outputRow owner outputs output root ∈ (outputRows owner outputs outputs).1 := by
  have hcomplete := @outputRows_complete _ owner h.before _ fun _ houtput => houtput
  have hin : output.objectUid ∈ (outputRows owner outputs outputs).1.map
      FlatfileItemOwnershipRecord.itemUid := by
    rw [outputRows_uids hcomplete]
    exact List.mem_map_of_mem houtput
  obtain ⟨row, hrow, huid⟩ := List.mem_map.mp hin
  obtain ⟨other, hother, root, hroot, rfl⟩ := mem_outputRows hrow
  rw [Keyed.eq_of_key_eq h.nodup hother houtput huid] at hroot hrow
  exact ⟨root, hroot, hrow⟩

theorem outputRows_acyclic (h : OutputsFresh catalog outputs) :
    Acyclic (ParentLink (outputRows owner outputs outputs).1) := by
  have hlink {k p : BitVec 64} (hlink : ParentLink (outputRows owner outputs outputs).1 k p) :
      ∃ output ∈ outputs, output.objectUid = k ∧ outputParentUid outputs output = p ∧ p ≠ 0 := by
    obtain ⟨row, hrow, rfl, rfl, hnonzero⟩ := hlink
    obtain ⟨output, houtput, root, _, rfl⟩ := mem_outputRows hrow
    exact ⟨output, houtput, rfl, rfl, hnonzero⟩
  have hsame {output other : PlayerItemSnapshot} (houtput : output ∈ outputs)
      (hother : other ∈ outputs) (heq : output.objectUid = other.objectUid) : output = other :=
    Keyed.eq_of_key_eq h.nodup houtput hother heq
  have hgrounded : ∀ (index : Nat) (output : PlayerItemSnapshot), outputs[index]? = some output →
      Grounded (ParentLink (outputRows owner outputs outputs).1) output.objectUid := by
    intro index
    induction index using Nat.strong_induction_on with
    | h index ih =>
        intro output hget
        have houtput := List.mem_of_getElem? hget
        by_cases hlinked : ∃ p, ParentLink (outputRows owner outputs outputs).1 output.objectUid p
        · obtain ⟨p, hp⟩ := hlinked
          obtain ⟨other, hother, huid, hparentUid, hnonzero⟩ := hlink hp
          rw [hsame hother houtput huid] at hparentUid
          refine .of_link hp ?_
          rw [outputParentUid] at hparentUid
          split at hparentUid
          · exact absurd hparentUid.symm hnonzero
          · next hparent =>
              obtain ⟨parent, hparentGet, hbefore, _⟩ := h.before.parent hget hparent
              rw [hparentGet] at hparentUid
              rw [← hparentUid]
              exact ih _ hbefore parent hparentGet
        · exact .of_top fun p hp => hlinked ⟨p, hp⟩
  refine acyclic_of_grounded (fun k p q hp hq => ?_) fun k => ?_
  · obtain ⟨output, houtput, rfl, rfl, _⟩ := hlink hp
    obtain ⟨other, hother, heq, rfl, _⟩ := hlink hq
    rw [hsame hother houtput heq]
  · by_cases houtput : ∃ output ∈ outputs, output.objectUid = k
    · obtain ⟨output, houtput, rfl⟩ := houtput
      obtain ⟨index, hindex, hget⟩ := List.getElem_of_mem houtput
      exact hgrounded index output (by rw [List.getElem?_eq_getElem hindex, hget])
    · refine .of_top fun p hp => ?_
      obtain ⟨output, hmem, huid, _⟩ := hlink hp
      exact houtput ⟨output, hmem, huid⟩

/-- The outputs may be added to rows under the uids they were checked against. -/
theorem outputs_addition (h : OutputsFresh catalog outputs)
    {items : List FlatfileItemOwnershipRecord}
    (hitems : ∀ row ∈ items, ∃ old ∈ catalog.items, row.itemUid = old.itemUid)
    (hordered : Sorted.Ordered uidLess FlatfileItemOwnershipRecord.itemUid catalog.items) :
    Addition items (outputRows owner outputs outputs).1 where
  unique := by
    rw [outputRows_uids (@outputRows_complete _ owner h.before _ fun _ houtput => houtput)]
    exact h.nodup
  fresh row hrow other hother := by
    obtain ⟨output, houtput, root, _, rfl⟩ := mem_outputRows hrow
    obtain ⟨old, hold, huid⟩ := hitems other hother
    rw [huid]
    exact (findRow_eq_none hordered).mp (h.free output houtput) old hold
  live row hrow := by
    obtain ⟨output, houtput, root, _, rfl⟩ := mem_outputRows hrow
    exact show ItemCustodyState.active ≠ ItemCustodyState.destroyed by decide
  rooted row hrow hzero := by
    obtain ⟨output, houtput, root, hroot, rfl⟩ := mem_outputRows hrow
    rcases outputRow_joined h houtput hroot with ⟨_, htop⟩ | ⟨parent, hparent, huid, _⟩
    · exact htop
    · exact absurd (huid.symm.trans hzero) (h.real parent hparent).1
  joined row hrow hnonzero := by
    obtain ⟨output, houtput, root, hroot, rfl⟩ := mem_outputRows hrow
    rcases outputRow_joined h houtput hroot with ⟨hzero, _⟩ | ⟨parent, hparent, huid, hsame⟩
    · exact absurd hzero hnonzero
    · obtain ⟨root', hroot', hrow'⟩ := @outputRows_row _ owner _ h _ hparent
      rw [hsame] at hroot'
      cases hroot'
      exact ⟨_, List.mem_append_right _ hrow', huid.symm, rfl, rfl, rfl⟩
  acyclic := outputRows_acyclic h

end Outputs

theorem Crafted.keepsForest {catalog grown after : OwnershipCatalog}
    {payload : ItemTransferPayload} {outputs : List PlayerItemSnapshot}
    (hformed : WellFormed catalog) (h : Crafted catalog payload outputs grown after) :
    KeepsForest catalog after := by
  have hgrown := h.extended.wellFormed hformed
  have hupdate := (@craft_treeUpdate _ payload hformed.forest).update hformed.nonzero
    hformed.forest
  have hretired : KeepsForest grown { grown with
      items := updateRows grown.items (craftSource catalog payload) retireRow
      owners := bumpOwner grown.owners payload.fromOwner } := by
    refine hgrown.with_update (ordered_of_owners (bumpOwner_owners ..) hgrown.owners)
      (h.extended.items ▸ hupdate) fun row hrow => .ite fun hin => ?_
    rw [h.extended.items] at hrow
    have haway := (craftSource_uids hformed.forest hrow).mp hin
    refine .of_revision rfl (fun _ => rfl) rfl ?_
    exact craftRefusal_revision h.count h.compared row (mem_craftSource.mpr ⟨hrow, haway⟩)
  have hadded := @outputs_addition _ payload.toOwner _ h.fresh
    (updateRows grown.items (craftSource catalog payload) retireRow) (fun row hrow => by
      rw [h.extended.items] at hrow
      obtain ⟨old, hold, rfl | rfl⟩ := mem_updateRows hrow
      · exact ⟨old, hold, rfl⟩
      · exact ⟨_, hold, rfl⟩) hformed.items
  rw [h.result, ← h.extended.items]
  refine (h.extended.keepsForest hformed).trans (hretired.trans ?_)
  refine hretired.wellFormed.with_addition hretired.wellFormed.owners hadded fun row hrow => ?_
  obtain ⟨output, houtput, root, _, rfl⟩ := mem_outputRows hrow
  exact (h.fresh.real output houtput).1

theorem applyCraft_keepsForest {catalog : OwnershipCatalog} {payload : ItemTransferPayload}
    (hformed : WellFormed catalog) (hcode : (applyCraft catalog payload).code = 0) :
    KeepsForest catalog (applyCraft catalog payload).catalog := by
  cases applyCraft_outcome hformed.owners payload with
  | refused hrefused _ => exact absurd hcode hrefused
  | crafted _ hgrown _ _ _ _ hcrafted =>
      exact (hgrown.keepsForest hformed).trans
        (hcrafted.keepsForest (hgrown.wellFormed hformed))

end Duris.Flatfile.Ownership
