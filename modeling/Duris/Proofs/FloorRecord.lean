import Duris.World.FloorRecord

/-!
# How large a floor record is

A record has one snapshot for each item of its tree and a tree has at most
`WORLD_RECOVERY_MAX_ITEM_TREE`, so the size of a record follows from the size of the tree
alone, whatever the items are.
-/

namespace Duris.World

theorem flatMap_appendLe_length {bits : Nat} (words : List (BitVec bits)) :
    (words.flatMap appendLe).length = words.length * (bits / 8) := by
  induction words with
  | nil => simp
  | cons word words ih =>
      rw [List.flatMap_cons, List.length_append, appendLe_length, ih, List.length_cons,
        Nat.succ_mul, Nat.add_comm]

theorem charArray_length {capacity : Nat} {text : Option Bytes}
    (h : (text.getD []).length < capacity) : (charArray capacity text).length = capacity := by
  rw [charArray, List.length_append, List.length_replicate]
  omega

theorem itemSnapshot_length {item : ItemSnapshot} (h : item.data.textsFit = true) :
    item.bytes.length = itemSnapshotBytes := by
  rw [ObjectData.textsFit, decide_eq_true_eq] at h
  obtain ⟨hname, hshort, hdescription, haction⟩ := h
  unfold ItemSnapshot.bytes
  simp only [List.length_append, appendLe_length, flatMap_appendLe_length, Vector.length_toList,
    List.length_replicate]
  rw [charArray_length hname, charArray_length hshort, charArray_length hdescription,
    charArray_length haction]
  rfl

theorem recordBytes_length {room : BitVec 32} {items : List ItemSnapshot}
    (h : ∀ item ∈ items, item.data.textsFit = true) :
    (recordBytes room items).length = objectRecordBytes + items.length * itemSnapshotBytes := by
  have hitems : (items.flatMap ItemSnapshot.bytes).length = items.length * itemSnapshotBytes := by
    induction items with
    | nil => simp
    | cons item items ih =>
        obtain ⟨hitem, hrest⟩ := List.forall_mem_cons.mp h
        rw [List.flatMap_cons, List.length_append, itemSnapshot_length hitem, ih hrest,
          List.length_cons, Nat.succ_mul, Nat.add_comm]
  rw [recordBytes, List.length_append, List.length_append, appendLe_length, appendLe_length,
    hitems, objectRecordBytes]

/-- What a capture holds: no more items than a tree may have and, unless it is left out,
only such as have their texts in full. -/
structure Capture.Bounded (capture : Capture) : Prop where
  count_le : capture.items.length ≤ worldRecoveryMaxItemTree
  texts : capture.skip = false → ∀ item ∈ capture.items, item.data.textsFit = true

theorem Capture.Bounded.push {capture : Capture} (h : capture.Bounded)
    (hroom : capture.items.length < worldRecoveryMaxItemTree) {item : ItemSnapshot}
    (htexts : item.data.textsFit = true) :
    Bounded { capture with items := capture.items ++ [item] } where
  count_le := by
    rw [List.length_append, List.length_singleton]
    exact hroom
  texts hskip other hother := by
    rcases List.mem_append.mp hother with hbefore | hnow
    · exact h.texts hskip other hbefore
    · rw [List.mem_singleton.mp hnow]
      exact htexts

variable {lookup : BitVec 64 → Option Item.OwnershipEntry} {room : BitVec 32}

mutual

theorem captureItemTree_bounded {root parent : BitVec 64} {capture captured : Capture}
    (hbounded : capture.Bounded) :
    ∀ {object : FloorObject},
      captureItemTree lookup room root parent capture object = some captured →
      captured.Bounded ∧ capture.items.length < captured.items.length
  | .mk uid data contains, h => by
      rw [captureItemTree] at h
      split at h
      · cases h
      · next hchecks =>
        rw [not_or, not_or, not_or, Nat.not_le] at hchecks
        obtain ⟨-, hroom, -⟩ := hchecks
        dsimp only at h
        generalize (if root = 0 then uid else root) = top at h
        split at h
        · split at h
          · cases h
          · next htexts =>
            rw [Bool.not_eq_true, Bool.not_eq_false'] at htexts
            obtain ⟨hcaptured, hle⟩ := captureContents_bounded (hbounded.push hroom htexts) h
            rw [List.length_append, List.length_singleton] at hle
            exact ⟨hcaptured, hle⟩
        · split at h
          · cases h
            refine ⟨⟨?_, fun hskip => absurd hskip.symm Bool.false_ne_true⟩, ?_⟩
            · rw [List.length_append, List.length_singleton]
              exact hroom
            · rw [List.length_append, List.length_singleton]
              exact Nat.lt_succ_self _
          · split at h
            · cases h
            · next htexts =>
              rw [Bool.not_eq_true, Bool.not_eq_false'] at htexts
              obtain ⟨hcaptured, hle⟩ := captureContents_bounded (hbounded.push hroom htexts) h
              rw [List.length_append, List.length_singleton] at hle
              exact ⟨hcaptured, hle⟩

theorem captureContents_bounded {root parent : BitVec 64} {capture captured : Capture}
    (hbounded : capture.Bounded) :
    ∀ {contains : List FloorObject},
      captureContents lookup room root parent capture contains = some captured →
      captured.Bounded ∧ capture.items.length ≤ captured.items.length
  | [], h => by
      rw [captureContents] at h
      cases h
      exact ⟨hbounded, Nat.le_refl _⟩
  | child :: children, h => by
      rw [captureContents] at h
      split at h
      · cases h
      · next next hchild =>
        obtain ⟨hnext, hlt⟩ := captureItemTree_bounded hbounded hchild
        obtain ⟨hcaptured, hle⟩ := captureContents_bounded hnext h
        exact ⟨hcaptured, Nat.le_trans (Nat.le_of_lt hlt) hle⟩

end

theorem writeObjectRecord_length {object : FloorObject} {maximum : Nat} {record : Bytes}
    (h : writeObjectRecord lookup object room maximum = some record) :
    record.length ≤ maximum ∧ ∃ count, 0 < count ∧ count ≤ worldRecoveryMaxItemTree ∧
      record.length = objectRecordBytes + count * itemSnapshotBytes := by
  rw [writeObjectRecord] at h
  split at h
  · cases h
  · split at h
    · cases h
    · next capture hcapture =>
      have hempty : Capture.Bounded {} :=
        ⟨Nat.zero_le _, fun _ item hitem => absurd hitem List.not_mem_nil⟩
      obtain ⟨hbounded, hpos⟩ := captureItemTree_bounded hempty hcapture
      split at h
      · cases h
      · next hwritten =>
        split at h
        · cases h
        · next hfits =>
          rw [not_or, Bool.not_eq_true] at hwritten
          cases h
          have hlength : (recordBytes room capture.items).length = _ :=
            recordBytes_length (hbounded.texts hwritten.2)
          refine ⟨?_, _, Nat.pos_of_ne_zero hwritten.1, hbounded.count_le, hlength⟩
          rw [hlength]
          exact Nat.le_of_not_lt hfits

end Duris.World
