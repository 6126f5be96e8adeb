import Duris.Proofs.ItemTransfer

/-!
# The rows of a payload

What the check of a payload says of its rows, as the repositories behind it use it: the
uids ascend, so a row is found under its uid; each has a selected root, and with it a
place at the new owner.
-/

namespace Duris.Item

open Persistence Player

theorem findItem_eq_some {items : List ItemTransferEntry} {itemUid : BitVec 64}
    {entry : ItemTransferEntry} (h : findItem items itemUid = some entry) :
    entry ∈ items ∧ entry.itemUid = itemUid := by
  unfold findItem at h
  split at h
  · cases h
  · next found rest hdrop =>
      split at h
      · next huid =>
          cases h
          have hmem : entry ∈ items.dropWhile fun other => decide (other.itemUid < itemUid) := by
            rw [hdrop]
            exact List.mem_cons_self ..
          exact ⟨(List.dropWhile_sublist _).subset hmem, huid⟩
      · cases h

/-- A row is its own selected root, or lies in a row under the same one. -/
def Hung (payload : ItemTransferPayload) (entry : ItemTransferEntry) : Prop :=
  entry.itemUid = selectedRootFor payload entry.itemUid ∨
    ∃ parent ∈ payload.items, parent.itemUid = entry.parentItemUid ∧
      selectedRootFor payload parent.itemUid = selectedRootFor payload entry.itemUid

theorem climb_succ {items : List ItemTransferEntry} :
    ∀ {depth : Nat} {entry : Option ItemTransferEntry}, climb items depth entry ≠ 0 →
      climb items (depth + 1) entry = climb items depth entry := by
  intro depth
  induction depth with
  | zero => exact fun h => absurd rfl h
  | succ depth ih =>
      intro entry h
      cases entry with
      | none => rfl
      | some entry =>
          rw [climb] at h ⊢
          rw [climb]
          split
          · rfl
          · next parent hfound =>
              rw [hfound] at h
              exact ih h

theorem hung_of_climb {payload : ItemTransferPayload}
    (hascending : (payload.items.map ItemTransferEntry.itemUid).Pairwise (· < ·))
    (hclimb : payload.reason = ItemTransferReason.craft ∨ payload.multiRoot = true)
    {entry : ItemTransferEntry} (hentry : entry ∈ payload.items)
    (hroot : selectedRootFor payload entry.itemUid ≠ 0) : Hung payload entry := by
  have hfor {entry : ItemTransferEntry} (hentry : entry ∈ payload.items) :
      selectedRootFor payload entry.itemUid =
        climb payload.items (payload.items.length + 1) (some entry) := by
    have hfind : findPayloadItem payload entry.itemUid = some entry :=
      findItem_of_mem hascending entry hentry
    rw [selectedRootFor, hfind]
    rcases hclimb with hreason | hmulti
    · rw [if_pos hreason]
    · split
      · rfl
      · rw [if_neg (by rw [hmulti]; decide)]
  rw [hfor hentry] at hroot
  unfold Hung
  rw [hfor hentry]
  rw [climb] at hroot ⊢
  split
  · exact .inl rfl
  · next parent hfound =>
      rw [hfound] at hroot
      obtain ⟨hmem, huid⟩ := findItem_eq_some hfound
      exact .inr ⟨parent, hmem, huid, by rw [hfor hmem, climb_succ hroot]⟩

theorem targetTopologyFor_eq_some {payload : ItemTransferPayload} {entry : ItemTransferEntry}
    {root parent : BitVec 64} (hreason : payload.reason ≠ ItemTransferReason.craft)
    (hfind : findPayloadItem payload entry.itemUid = some entry)
    (h : targetTopologyFor payload entry.itemUid = some (root, parent)) :
    selectedRootFor payload entry.itemUid ≠ 0 ∧
      root = (if payload.targetParentItemUid ≠ 0 then payload.targetRootItemUid
        else selectedRootFor payload entry.itemUid) ∧
      parent = (if entry.itemUid = selectedRootFor payload entry.itemUid then
        payload.targetParentItemUid else entry.parentItemUid) := by
  rw [targetTopologyFor, hfind] at h
  dsimp only at h
  split at h
  · cases h
  · next hnonzero =>
      obtain ⟨_, heq⟩ := Option.ite_none_right_eq_some.mp h
      cases heq
      exact ⟨hnonzero, rfl, rfl⟩

section Checked

variable {payload : ItemTransferPayload} {version : BitVec 16}

theorem Checked.ascending (h : Checked payload version) :
    (payload.items.map ItemTransferEntry.itemUid).Pairwise (· < ·) := by
  have hchain : Item.ascending payload.items = true := by
    cases hmulti : payload.multiRoot with
    | false =>
        have hrows := h.singleRoot hmulti
        simp only [validSingleRoot, Bool.and_eq_true] at hrows
        exact hrows.1.1.1.1.2
    | true =>
        have hrows := h.multiRoot hmulti
        simp only [validMultiRoot, Bool.and_eq_true] at hrows
        exact hrows.1.2
  exact List.isChain_iff_pairwise.mp (of_decide_eq_true hchain)

theorem Checked.find (h : Checked payload version) {entry : ItemTransferEntry}
    (hentry : entry ∈ payload.items) :
    findPayloadItem payload entry.itemUid = some entry :=
  findItem_of_mem h.ascending entry hentry

theorem Checked.entry (h : Checked payload version) {entry : ItemTransferEntry}
    (hentry : entry ∈ payload.items) :
    entry.rootItemUid ≠ 0 ∧ 0 < entry.vnum.toInt ∧ entry.itemUid ≠ payload.targetParentItemUid ∧
      entry.expectedState = (if payload.fromOwner.type = ItemOwnerType.system then
        ItemCustodyState.absent else ItemCustodyState.active) := by
  cases hmulti : payload.multiRoot with
  | false =>
      have hrows := h.singleRoot hmulti
      simp only [validSingleRoot, Bool.and_eq_true, List.all_eq_true, bne_iff_ne,
        decide_eq_true_eq, beq_iff_eq] at hrows
      have hrow := hrows.1.1.1.2 entry hentry
      exact ⟨hrow.1.1.1.1.1.2 ▸ hrows.1.1.1.1.1.1.1.1, hrow.1.1.1.1.2, hrow.1.2, hrow.1.1.1.2⟩
  | true =>
      have hrows := h.multiRoot hmulti
      simp only [validMultiRoot, Bool.and_eq_true, List.all_eq_true, bne_iff_ne,
        decide_eq_true_eq] at hrows
      obtain ⟨⟨⟨⟨huid, hroot⟩, hvnum⟩, hparent⟩, hbranch⟩ := hrows.2 entry hentry
      have hends := h.ends
      simp only [validEnds, Bool.and_eq_true] at hends
      have hcreation := hends.1.1.2
      refine ⟨hroot, hvnum, hparent, ?_⟩
      split at hbranch
      · next hbatch =>
          simp only [beq_iff_eq] at hbatch
          simp only [validCreationEntry, Bool.and_eq_true, beq_iff_eq] at hbranch
          rw [if_pos hbatch.1]
          exact hbranch.1.1.2
      · next hbatch =>
          -- outside a creation batch the source is not the system
          have hsystem : payload.fromOwner.type ≠ ItemOwnerType.system := by
            intro hsystem
            simp [hsystem] at hcreation hbatch
            exact hbatch hcreation
          simp only [validBatchEntry, Bool.and_eq_true, beq_iff_eq] at hbranch
          rw [if_neg hsystem]
          exact hbranch.1.1

theorem Checked.selectedRoot_ne_zero (h : Checked payload version) {entry : ItemTransferEntry}
    (hentry : entry ∈ payload.items) : selectedRootFor payload entry.itemUid ≠ 0 := by
  cases hmulti : payload.multiRoot with
  | false =>
      have hne := h.effectiveSelected_ne_zero hmulti
      rw [selectedRootFor, if_neg (h.not_craft hmulti), if_pos hmulti]
      exact hne
  | true =>
      -- the selected root is a row of the payload
      have hfound : ∃ root, findPayloadItem payload (selectedRootFor payload entry.itemUid) =
          some root := by
        have hrows := h.multiRoot hmulti
        simp only [validMultiRoot, Bool.and_eq_true, List.all_eq_true] at hrows
        obtain ⟨_, hbranch⟩ := hrows.2 entry hentry
        split at hbranch
        · simp only [validCreationEntry, Bool.and_eq_true] at hbranch
          have hroot := hbranch.1.2
          split at hroot
          · cases hroot
          · next root hroot' => exact ⟨root, hroot'⟩
        · simp only [validBatchEntry, Bool.and_eq_true] at hbranch
          have hroot := hbranch.1.2
          split at hroot
          · cases hroot
          · next root hroot' => exact ⟨root, hroot'⟩
      obtain ⟨root, hroot⟩ := hfound
      obtain ⟨hmem, huid⟩ := findItem_eq_some hroot
      rw [← huid]
      exact h.itemUid_ne_zero root hmem

theorem resultRootFrom_ne_zero {entries : List ItemTransferEntry} :
    ∀ {result : BitVec 64}, (∀ entry ∈ entries, selectedRootFor payload entry.itemUid ≠ 0) →
      result ≠ 0 ∨ entries ≠ [] → resultRootFrom payload result entries ≠ 0 := by
  induction entries with
  | nil => exact fun _ hsome => hsome.resolve_right (by simp)
  | cons entry entries ih =>
      intro result hroots _
      have hroot := hroots entry (List.mem_cons_self ..)
      simp only [resultRootFrom]
      rw [if_neg hroot]
      refine ih (fun other hother => hroots other (List.mem_cons_of_mem _ hother)) (.inl ?_)
      split
      · exact hroot
      · next hkeep => exact fun hzero => hkeep (.inl hzero)

theorem Checked.resultRoot_ne_zero (h : Checked payload version) :
    itemTransferResultRoot payload ≠ 0 := by
  unfold itemTransferResultRoot
  split
  · next hreason =>
      have hcraft := h.craft
      unfold validCraft at hcraft
      rw [if_pos hreason] at hcraft
      split at hcraft
      · cases hcraft
      · next hrefused =>
          simp only [not_or, ne_eq] at hrefused
          exact hrefused.2.2.2.2.2.2.2.2.1
  · exact resultRootFrom_ne_zero (fun entry hentry => h.selectedRoot_ne_zero hentry)
      (.inr h.nonempty)

/-- A row has a place at the new owner, given a target root where there is a target
parent. -/
theorem Checked.topology (h : Checked payload version)
    (htarget : payload.targetParentItemUid ≠ 0 → payload.targetRootItemUid ≠ 0)
    {entry : ItemTransferEntry} (hentry : entry ∈ payload.items) :
    ∃ root parent, itemTransferTargetTopology payload entry.itemUid = some (root, parent) ∧
      root ≠ 0 := by
  have hroot := h.selectedRoot_ne_zero hentry
  rw [itemTransferTargetTopology, targetTopologyFor, h.find hentry]
  dsimp only
  rw [if_neg hroot]
  split
  · exact ⟨_, _, rfl, (h.entry hentry).1⟩
  · split
    · next hparent =>
        rw [if_pos (htarget hparent)]
        exact ⟨_, _, rfl, htarget hparent⟩
    · exact ⟨_, _, rfl, hroot⟩

end Checked

end Duris.Item
