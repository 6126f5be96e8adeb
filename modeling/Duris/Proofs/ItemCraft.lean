import Duris.Proofs.ItemTransferRows

/-!
# What a craft does to the catalogue

`apply_craft` climbs from each output to its root after it has retired the sources, and
refuses half-way where a parent is missing. Its own check of the outputs, earlier, asks
that a parent stand before its child, so the climb always ends and that refusal is never
made: a craft refuses with the rows as they were, or it is carried out.
-/

namespace Duris.Flatfile.Ownership

open Persistence Player Item Economy

def ParentsBefore (outputs : List PlayerItemSnapshot) : Prop :=
  ∀ (index : Nat) (output : PlayerItemSnapshot), outputs[index]? = some output →
    output.parentIndex.toInt < index ∧ playerSnapshotNoParent ≤ output.parentIndex.toInt

structure OutputsFresh (catalog : OwnershipCatalog) (outputs : List PlayerItemSnapshot) :
    Prop where
  real : ∀ output ∈ outputs, output.objectUid ≠ 0 ∧ 0 < output.vnum.toInt
  free : ∀ output ∈ outputs, findRow catalog output.objectUid = none
  nodup : (outputs.map PlayerItemSnapshot.objectUid).Nodup
  before : ParentsBefore outputs

variable {catalog after : OwnershipCatalog} {outputs : List PlayerItemSnapshot}
  {owner : ItemOwnerIdentity} {payload : ItemTransferPayload}

theorem outputRefusal_eq_none :
    ∀ {outputs : List PlayerItemSnapshot} {index : Nat} {seen : List (BitVec 64)},
      outputRefusal catalog index seen outputs = none →
        (∀ output ∈ outputs, output.objectUid ≠ 0 ∧ 0 < output.vnum.toInt ∧
          output.objectUid ∉ seen ∧ findRow catalog output.objectUid = none) ∧
        (outputs.map PlayerItemSnapshot.objectUid).Nodup ∧
        ∀ (offset : Nat) (output : PlayerItemSnapshot), outputs[offset]? = some output →
          output.parentIndex.toInt < (index + offset : Nat) ∧
            playerSnapshotNoParent ≤ output.parentIndex.toInt := by
  intro outputs
  induction outputs with
  | nil => exact fun _ => ⟨by simp, List.nodup_nil, by simp⟩
  | cons output outputs ih =>
      intro index seen h
      rw [outputRefusal] at h
      split at h
      · cases h
      · next hreal =>
          split at h
          · cases h
          · next hparent =>
              simp only [not_or, Int.not_le, Int.not_lt, List.contains_iff_mem] at hreal hparent
              obtain ⟨hrest, hnodup, hbefore⟩ := ih h
              have hfree : findRow catalog output.objectUid = none := by
                simpa using hreal.2.2.2
              refine ⟨fun other hother => ?_, ?_, fun offset other hother => ?_⟩
              · rcases List.mem_cons.mp hother with rfl | hmem
                · exact ⟨hreal.1, hreal.2.1, hreal.2.2.1, hfree⟩
                · obtain ⟨hne, hvnum, hseen, hnone⟩ := hrest other hmem
                  exact ⟨hne, hvnum, fun hin => hseen (List.mem_cons_of_mem _ hin), hnone⟩
              · refine List.nodup_cons.mpr ⟨fun hin => ?_, hnodup⟩
                obtain ⟨other, hother, heq⟩ := List.mem_map.mp hin
                exact (hrest other hother).2.2.1 (heq ▸ List.mem_cons_self ..)
              · cases offset with
                | zero =>
                    cases hother
                    exact ⟨hparent.1, hparent.2⟩
                | succ offset =>
                    have := hbefore offset other hother
                    rw [show index + (offset + 1) = index + 1 + offset by omega]
                    exact this

theorem outputsFresh_of_refusal (h : outputRefusal catalog 0 [] outputs = none) :
    OutputsFresh catalog outputs := by
  obtain ⟨hreal, hnodup, hbefore⟩ := outputRefusal_eq_none h
  refine ⟨fun output houtput => ⟨(hreal output houtput).1, (hreal output houtput).2.1⟩,
    fun output houtput => (hreal output houtput).2.2.2, hnodup, fun index output houtput => ?_⟩
  have := hbefore index output houtput
  rwa [Nat.zero_add] at this

theorem outputRoot_isSome (h : ParentsBefore outputs) :
    ∀ {depth : Nat} {root : BitVec 64} {parent : Int},
      parent < depth → parent < outputs.length → playerSnapshotNoParent ≤ parent →
        (outputRoot outputs depth root parent).isSome = true := by
  intro depth
  induction depth with
  | zero =>
      intro root parent hdepth _ hlow
      have hnone : parent = playerSnapshotNoParent := by
        unfold playerSnapshotNoParent at hlow ⊢
        omega
      rw [outputRoot, if_pos hnone]
      rfl
  | succ depth ih =>
      intro root parent hdepth hlength hlow
      rw [outputRoot]
      split
      · rfl
      · next hne =>
          have hpos : 0 ≤ parent := by
            unfold playerSnapshotNoParent at hlow hne
            omega
          have hindex : parent.toNat < outputs.length := by omega
          have hget := List.getElem?_eq_getElem hindex
          obtain ⟨hbefore, hlow'⟩ := h parent.toNat _ hget
          rw [if_neg (by omega), hget]
          exact ih (by omega) (by omega) hlow'

theorem outputRows_complete (h : ParentsBefore outputs) :
    ∀ {rest : List PlayerItemSnapshot}, (∀ output ∈ rest, output ∈ outputs) →
      (outputRows owner outputs rest).2 = true := by
  intro rest
  induction rest with
  | nil => exact fun _ => rfl
  | cons output rest ih =>
      intro hsub
      obtain ⟨index, hindex, hget⟩ := List.getElem_of_mem (hsub output (List.mem_cons_self ..))
      have hget' : outputs[index]? = some output := by
        rw [List.getElem?_eq_getElem hindex, hget]
      obtain ⟨hbefore, hlow⟩ := h index output hget'
      have hroot := @outputRoot_isSome _ h outputs.length output.objectUid
        output.parentIndex.toInt (by omega) (by omega) hlow
      obtain ⟨root, hroot⟩ := Option.isSome_iff_exists.mp hroot
      rw [outputRows, hroot]
      exact ih fun other hother => hsub other (List.mem_cons_of_mem _ hother)

theorem outputRows_uids :
    ∀ {rest : List PlayerItemSnapshot}, (outputRows owner outputs rest).2 = true →
      (outputRows owner outputs rest).1.map FlatfileItemOwnershipRecord.itemUid =
        rest.map PlayerItemSnapshot.objectUid := by
  intro rest
  induction rest with
  | nil => exact fun _ => rfl
  | cons output rest ih =>
      intro h
      rw [outputRows] at h ⊢
      split at h
      · cases h
      · simp only [List.map_cons]
        rw [ih h]

def outputRow (owner : ItemOwnerIdentity) (outputs : List PlayerItemSnapshot)
    (output : PlayerItemSnapshot) (root : BitVec 64) : FlatfileItemOwnershipRecord :=
  { itemUid := output.objectUid
    rootItemUid := root
    parentItemUid := outputParentUid outputs output
    owner
    itemRevision := 1
    vnum := output.vnum
    state := ItemCustodyState.active }

theorem mem_outputRows {row : FlatfileItemOwnershipRecord} :
    ∀ {rest : List PlayerItemSnapshot}, row ∈ (outputRows owner outputs rest).1 →
      ∃ output ∈ rest, ∃ root, outputRoot outputs outputs.length output.objectUid
        output.parentIndex.toInt = some root ∧ row = outputRow owner outputs output root := by
  intro rest
  induction rest with
  | nil => intro h; cases h
  | cons output rest ih =>
      intro h
      rw [outputRows] at h
      split at h
      · cases h
      · next root hroot =>
          rcases List.mem_cons.mp h with rfl | hmem
          · exact ⟨output, List.mem_cons_self .., root, hroot, rfl⟩
          · obtain ⟨other, hother, hrest⟩ := ih hmem
            exact ⟨other, List.mem_cons_of_mem _ hother, hrest⟩

theorem outputRoot_mem :
    ∀ {depth : Nat} {root : BitVec 64} {parent : Int} {found : BitVec 64},
      outputRoot outputs depth root parent = some found →
        found = root ∨ ∃ output ∈ outputs, found = output.objectUid := by
  intro depth
  induction depth with
  | zero =>
      intro root parent found h
      rw [outputRoot] at h
      split at h
      · exact .inl (Option.some.inj h).symm
      · cases h
  | succ depth ih =>
      intro root parent found h
      rw [outputRoot] at h
      split at h
      · exact .inl (Option.some.inj h).symm
      · split at h
        · cases h
        · split at h
          · cases h
          · next output hget =>
              rcases ih h with rfl | hmem
              · exact .inr ⟨output, List.mem_of_getElem? hget, rfl⟩
              · exact .inr hmem

/-- A craft carried out, over a table that has its owner. -/
structure Crafted (catalog : OwnershipCatalog) (payload : ItemTransferPayload)
    (outputs : List PlayerItemSnapshot) (grown after : OwnershipCatalog) : Prop where
  blob : blobOutputs payload = some outputs
  first : ∀ output ∈ outputs.head?, output.objectUid = payload.selectedItemUid
  count : (craftSource catalog payload).length = payload.items.length
  compared : craftRefusal (craftSource catalog payload) payload.items = none
  fresh : OutputsFresh catalog outputs
  extended : Grown [destructionOwner] catalog grown
  destruction : ∃ entry, findOwner grown destructionOwner = some entry
  result : after = { grown with
    items := sortRows (updateRows catalog.items (craftSource catalog payload) retireRow ++
      (outputRows payload.toOwner outputs outputs).1)
    owners := bumpOwner grown.owners payload.fromOwner }

/-- The ways `apply_craft` ends: refused with owners more, or carried out. -/
inductive CraftOutcome (catalog : OwnershipCatalog) (payload : ItemTransferPayload)
    (attempt : Attempt) : Prop where
  | refused (code : attempt.code ≠ 0)
      (grown : Grown [payload.fromOwner, destructionOwner] catalog attempt.catalog)
  | crafted {first grown : OwnershipCatalog} {owner : OwnerState}
      {outputs : List PlayerItemSnapshot} (code : attempt.code = 0)
      (firstGrown : Grown [payload.fromOwner, destructionOwner] catalog first)
      (found : findOwner first payload.fromOwner = some owner)
      (fromRevision : owner.revision = payload.expectedFromRevision)
      (toRevision : owner.revision = payload.expectedToRevision)
      (notLast : owner.revision ≠ BitVec.allOnes 64)
      (crafted : Crafted first payload outputs grown attempt.catalog)

theorem CraftOutcome.at {code : BitVec 32} {result : ItemTransferResult} (hcode : code ≠ 0)
    (hgrown : Grown [payload.fromOwner, destructionOwner] catalog after) :
    CraftOutcome catalog payload ⟨code, after, result⟩ :=
  .refused hcode hgrown

theorem craftRefusal_code :
    ∀ {rows : List FlatfileItemOwnershipRecord} {entries : List ItemTransferEntry}
      {code : BitVec 32}, craftRefusal rows entries = some code → code ≠ 0 := by
  intro rows
  induction rows with
  | nil => intro entries code h; simp [craftRefusal] at h
  | cons row rows ih =>
      intro entries code h
      cases entries with
      | nil => simp [craftRefusal] at h
      | cons entry entries =>
          rw [craftRefusal] at h
          split at h
          · cases h
            decide
          · split at h
            · cases h
              decide
            · exact ih h

theorem outputRefusal_code :
    ∀ {outputs : List PlayerItemSnapshot} {index : Nat} {seen : List (BitVec 64)}
      {code : BitVec 32}, outputRefusal catalog index seen outputs = some code → code ≠ 0 := by
  intro outputs
  induction outputs with
  | nil => intro index seen code h; cases h
  | cons output outputs ih =>
      intro index seen code h
      rw [outputRefusal] at h
      split at h
      · cases h
        decide
      · split at h
        · cases h
          decide
        · exact ih h

theorem craftRows_outcome {first : OwnershipCatalog} {owner : OwnerState}
    (result : ItemTransferResult)
    (hgrown : Grown [payload.fromOwner, destructionOwner] catalog first)
    (hfound : findOwner first payload.fromOwner = some owner)
    (hfrom : owner.revision = payload.expectedFromRevision)
    (hto : owner.revision = payload.expectedToRevision)
    (hlast : owner.revision ≠ BitVec.allOnes 64) :
    CraftOutcome catalog payload (craftRows first payload owner result) := by
  unfold craftRows
  split
  · exact .at (by decide) hgrown
  · next outputs hblob =>
      split
      · exact .at (by decide) hgrown
      · next hselected =>
          dsimp only
          split
          · exact .at (by decide) hgrown
          · next hcount =>
              split
              · next code hcode => exact .at (craftRefusal_code hcode) hgrown
              · next hcompared =>
                  split
                  · next code hcode => exact .at (outputRefusal_code hcode) hgrown
                  · next houtputs =>
                      split
                      · exact .at (by decide) hgrown
                      · split
                        · exact .at (by decide) hgrown
                        · next second hsecond =>
                            obtain ⟨hsecond, hdestruction⟩ :=
                              ensureOwner_eq_some hgrown.ordered hsecond
                            have hfresh := outputsFresh_of_refusal houtputs
                            have hcomplete := @outputRows_complete _ payload.toOwner
                              hfresh.before _ fun _ houtput => houtput
                            have hhead : ∀ output ∈ outputs.head?,
                                output.objectUid = payload.selectedItemUid := by
                              intro output houtput
                              by_contra hne
                              rw [Option.mem_def.mp houtput] at hselected
                              exact hselected (by simpa using hne)
                            unfold finishCraft
                            dsimp only
                            rw [hcomplete, if_neg (by decide)]
                            exact .crafted rfl hgrown hfound hfrom hto hlast
                              ⟨hblob, hhead, Decidable.not_not.mp hcount, hcompared, hfresh,
                                hsecond, hdestruction, by rw [← hsecond.items]⟩

theorem applyCraft_outcome (hordered : Sorted.Ordered ownerLess OwnerState.owner catalog.owners)
    (payload : ItemTransferPayload) :
    CraftOutcome catalog payload (applyCraft catalog payload) := by
  unfold applyCraft
  split
  · exact .at (by decide) (.refl hordered)
  · split
    · exact .at (by decide) (.refl hordered)
    · next first hfirst =>
        obtain ⟨hgrown, _⟩ := ensureOwner_eq_some hordered hfirst
        have hgrown : Grown [payload.fromOwner, destructionOwner] catalog first :=
          hgrown.mono (by simp)
        split
        · exact .at (by decide) hgrown
        · next owner hfound =>
            split
            · exact .at (by decide) hgrown
            · next hcurrent =>
                split
                · exact .at (by decide) hgrown
                · next hlast =>
                    simp only [not_or, Decidable.not_not] at hcurrent hlast
                    exact craftRows_outcome _ hgrown hfound hcurrent.1 hcurrent.2 hlast.1

theorem RowValid.retire {row : FlatfileItemOwnershipRecord} (h : RowValid row) :
    RowValid (retireRow row) :=
  ⟨h.uid, h.root, h.vnum, show itemOwnerIdentityValid destructionOwner = true by decide,
    show ItemCustodyState.destroyed ≠ ItemCustodyState.absent by decide,
    show ItemCustodyState.destroyed ≤ ItemCustodyState.quarantined by decide, h.coin⟩

theorem Crafted.nodup {grown : OwnershipCatalog} (h : Crafted catalog payload outputs grown after)
    (hitems : Sorted.Ordered uidLess FlatfileItemOwnershipRecord.itemUid catalog.items) :
    ((updateRows catalog.items (craftSource catalog payload) retireRow ++
      (outputRows payload.toOwner outputs outputs).1).map
        FlatfileItemOwnershipRecord.itemUid).Nodup := by
  have hcomplete := @outputRows_complete _ payload.toOwner h.fresh.before _
    fun _ houtput => houtput
  refine nodup_append_rows
    ((updateRows_ordered (f := retireRow) hitems fun _ => rfl).nodup uidLess_strictTotal) ?_
    fun row hrow other hother => ?_
  · rw [outputRows_uids hcomplete]
    exact h.fresh.nodup
  · obtain ⟨output, houtput, root, _, rfl⟩ := mem_outputRows hrow
    have hfree := (findRow_eq_none hitems).mp (h.fresh.free output houtput)
    obtain ⟨old, hold, rfl | rfl⟩ := mem_updateRows hother
    · exact hfree old hold
    · exact hfree _ hold

theorem Crafted.valid {grown : OwnershipCatalog} (h : Crafted catalog payload outputs grown after)
    (htoValid : itemOwnerIdentityValid payload.toOwner = true) (hvalid : Valid catalog)
    {owner : OwnerState} (hto : findOwner catalog payload.toOwner = some owner) : Valid after := by
  have hdestructionValid : ∀ named ∈ [destructionOwner], itemOwnerIdentityValid named = true := by
    decide
  have hgrownValid := h.extended.valid hvalid hdestructionValid
  obtain ⟨hmemTo, howner⟩ := (findOwner_eq_some hvalid.owners).mp hto
  obtain ⟨destruction, hdestruction⟩ := h.destruction
  obtain ⟨hmemDestruction, hisDestruction⟩ :=
    (findOwner_eq_some h.extended.ordered).mp hdestruction
  have hperm := sortRows_perm (updateRows catalog.items (craftSource catalog payload) retireRow ++
    (outputRows payload.toOwner outputs outputs).1)
  rw [h.result]
  refine hgrownValid.with_rows (bumpOwner_owners ..) (sortRows_ordered (h.nodup hvalid.items))
    (fun row hmem => ?_) fun row hmem => ?_
  · rcases List.mem_append.mp (hperm.mem_iff.mp hmem) with hold | hnew
    · obtain ⟨old, hmemOld, rfl | rfl⟩ := mem_updateRows hold
      · exact (hvalid.rows old hmemOld).retire
      · exact hvalid.rows _ hmemOld
    · obtain ⟨output, houtput, root, hroot, rfl⟩ := mem_outputRows hnew
      obtain ⟨hne, hvnum⟩ := h.fresh.real output houtput
      have hrootNe : root ≠ 0 := by
        rcases outputRoot_mem hroot with rfl | ⟨other, hother, rfl⟩
        · exact hne
        · exact (h.fresh.real other hother).1
      exact ⟨hne, hrootNe, hvnum, htoValid,
        show ItemCustodyState.active ≠ ItemCustodyState.absent by decide,
        show ItemCustodyState.active ≤ ItemCustodyState.quarantined by decide, rfl⟩
  · rcases List.mem_append.mp (hperm.mem_iff.mp hmem) with hold | hnew
    · obtain ⟨old, hmemOld, rfl | rfl⟩ := mem_updateRows hold
      · exact ⟨destruction, hmemDestruction, hisDestruction⟩
      · obtain ⟨entry, hentry, heq⟩ := hvalid.owned _ hmemOld
        exact ⟨entry, h.extended.kept entry hentry, heq⟩
    · obtain ⟨output, _, root, _, rfl⟩ := mem_outputRows hnew
      exact ⟨owner, h.extended.kept owner hmemTo, howner⟩

theorem craftRows_headed {owner : OwnerState} {result : ItemTransferResult}
    (h : Headed payload result) :
    Headed payload (craftRows catalog payload owner result).result := by
  unfold craftRows
  split
  · exact h
  · split
    · exact h
    · dsimp only
      split
      · exact h
      · split
        · exact h
        · split
          · exact h
          · split
            · exact h
            · split
              · exact h
              · unfold finishCraft
                dsimp only
                split <;> exact ⟨h.root, h.count⟩

theorem applyCraft_headed (hordered : Sorted.Ordered ownerLess OwnerState.owner catalog.owners)
    (hreason : payload.reason = ItemTransferReason.craft)
    (hsame : payload.fromOwner = payload.toOwner) (hfit : OwnersFit catalog payload) :
    Headed payload (applyCraft catalog payload).result := by
  obtain ⟨first, second, hfirst, _⟩ := hfit.ensure hordered
  obtain ⟨_, owner, hfound⟩ := ensureOwner_eq_some hordered hfirst
  have hroot : payload.selectedItemUid = itemTransferResultRoot payload := by
    rw [itemTransferResultRoot, if_pos hreason]
  have hequal : ¬ (payload.reason ≠ ItemTransferReason.craft ∨
      itemOwnerIdentityEqual payload.fromOwner payload.toOwner = false) := by
    rw [itemOwnerIdentityEqual_eq_false]
    simp [hreason, hsame]
  rw [applyCraft, if_neg hequal, hfirst]
  dsimp only
  rw [hfound]
  dsimp only
  split
  · exact ⟨hroot, rfl⟩
  · split
    · exact ⟨hroot, rfl⟩
    · exact craftRows_headed ⟨hroot, rfl⟩

end Duris.Flatfile.Ownership
