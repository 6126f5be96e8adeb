import Duris.Lib.Sha256
import Duris.Proofs.ItemRepository
import Duris.Proofs.TransferForest

/-!
# Where an accepted payload puts its items

`item_transfer_target_topology` gives each moved item a parent at the new owner. The
walk up along these parents is `targetWalk`, and `TargetForest` is what it should be: it
passes no item twice and leaves the moved items at the target parent, under the root
the topology reports.
-/

namespace Duris.Item

open Persistence Player Flatfile.Ownership Relation Forest

/-- The way up from a moved item along the parents the topology reports, in at most
`steps` of them: the moved items passed, and the uid it leaves them for. -/
def targetWalk (payload : ItemTransferPayload) :
    Nat → BitVec 64 → Option (List (BitVec 64) × BitVec 64)
  | 0, _ => none
  | steps + 1, itemUid =>
      match itemTransferTargetTopology payload itemUid with
      | none => none
      | some (_, parentItemUid) =>
          if (findPayloadItem payload parentItemUid).isSome then
            (targetWalk payload steps parentItemUid).map fun walk => (itemUid :: walk.1, walk.2)
          else some ([itemUid], parentItemUid)

/-- A walk that lands: it passes moved items only and none of them twice, leaves them for
the target parent, and the root reported is the topmost item passed, or the target root
where there is a target parent. -/
structure Lands (payload : ItemTransferPayload) (itemUid : BitVec 64) : Prop where
  walk : ∃ passed root, targetWalk payload payload.items.length itemUid =
      some (passed, payload.targetParentItemUid) ∧
    passed.Nodup ∧ (∀ uid ∈ passed, uid ∈ payload.items.map ItemTransferEntry.itemUid) ∧
    (itemTransferTargetTopology payload itemUid).map Prod.fst = some root ∧
    (payload.targetParentItemUid = 0 → passed.getLast? = some root) ∧
    (payload.targetParentItemUid ≠ 0 → root = payload.targetRootItemUid ∧
      root ∉ payload.items.map ItemTransferEntry.itemUid)

structure TargetForest (payload : ItemTransferPayload) : Prop where
  lands : ∀ entry ∈ payload.items, Lands payload entry.itemUid
  apart : payload.targetParentItemUid ∉ payload.items.map ItemTransferEntry.itemUid

def TargetRooted (payload : ItemTransferPayload) : Prop :=
  payload.targetParentItemUid ≠ 0 → payload.targetRootItemUid ≠ 0 ∧
    payload.targetRootItemUid ∉ payload.items.map ItemTransferEntry.itemUid

section Walk

variable {payload : ItemTransferPayload} {version : BitVec 16}

theorem creationLink_unique (hcreatable : Creatable payload) {k p q : BitVec 64}
    (hp : CreationLink payload k p) (hq : CreationLink payload k q) : p = q := by
  obtain ⟨entry, hentry, rfl, -, rfl⟩ := hp
  obtain ⟨other, hother, huid, -, rfl⟩ := hq
  rw [hcreatable.unique hother hentry huid]

/-- Among the moved items the topology follows, and only there, is a parent found. -/
theorem findPayloadItem_isSome (h : Checked payload version) {itemUid : BitVec 64} :
    (findPayloadItem payload itemUid).isSome = true ↔
      itemUid ∈ payload.items.map ItemTransferEntry.itemUid := by
  rw [Option.isSome_iff_exists, List.mem_map]
  constructor
  · rintro ⟨entry, hfound⟩
    exact ⟨entry, findItem_eq_some hfound⟩
  · rintro ⟨entry, hentry, rfl⟩
    exact ⟨entry, h.find hentry⟩

/-- What the walk has gathered when it is over, with enough steps. -/
structure Walked (payload : ItemTransferPayload) (itemUid : BitVec 64)
    (passed : List (BitVec 64)) : Prop where
  run : ∀ steps, passed.length ≤ steps →
    targetWalk payload steps itemUid = some (passed, payload.targetParentItemUid)
  nodup : passed.Nodup
  above : ∀ uid ∈ passed, ReflTransGen (CreationLink payload) itemUid uid ∧
    uid ∈ payload.items.map ItemTransferEntry.itemUid
  last : passed.getLast? = some (selectedRootFor payload itemUid)

variable {entry : ItemTransferEntry}

theorem Walked.step (hcreatable : Creatable payload) (hentry : entry ∈ payload.items)
    {root parent : BitVec 64} {passed : List (BitVec 64)}
    (htopology : itemTransferTargetTopology payload entry.itemUid = some (root, parent))
    (hmoved : (findPayloadItem payload parent).isSome = true)
    (hlink : CreationLink payload entry.itemUid parent)
    (hroot : selectedRootFor payload parent = selectedRootFor payload entry.itemUid)
    (h : Walked payload parent passed) :
    Walked payload entry.itemUid (entry.itemUid :: passed) where
  run steps hsteps := by
    cases steps with
    | zero => exact absurd hsteps (Nat.not_succ_le_zero _)
    | succ steps =>
        rw [targetWalk, htopology]
        dsimp only
        rw [if_pos hmoved, h.run steps (Nat.le_of_succ_le_succ hsteps)]
        rfl
  nodup := by
    refine List.nodup_cons.mpr ⟨fun hagain => ?_, h.nodup⟩
    exact hcreatable.acyclic _ (TransGen.head' hlink (h.above _ hagain).1)
  above uid huid := by
    rcases List.mem_cons.mp huid with rfl | huid
    · exact ⟨.refl, List.mem_map_of_mem hentry⟩
    · exact ⟨.head hlink (h.above uid huid).1, (h.above uid huid).2⟩
  last := by
    have hlast := h.last
    cases passed with
    | nil => cases hlast
    | cons next passed => rw [List.getLast?_cons_cons, hlast, hroot]

/-- An item is the end of its walk, being its own selected root, or the topology hangs it
into another moved item. -/
theorem walked_or_hung (h : Checked payload version) (hcreatable : Creatable payload)
    (hrooted : payload.targetParentItemUid ≠ 0 → payload.targetRootItemUid ≠ 0)
    (hentry : entry ∈ payload.items) :
    Walked payload entry.itemUid [entry.itemUid] ∨
      ∃ root, ∃ parent ∈ payload.items,
        itemTransferTargetTopology payload entry.itemUid = some (root, parent.itemUid) ∧
        CreationLink payload entry.itemUid parent.itemUid ∧
        selectedRootFor payload parent.itemUid = selectedRootFor payload entry.itemUid := by
  obtain ⟨root, parent, htopology, -⟩ := h.topology hrooted hentry
  obtain ⟨-, -, hparent⟩ := targetTopologyFor_eq_some hcreatable.reason (h.find hentry) htopology
  by_cases hself : entry.itemUid = selectedRootFor payload entry.itemUid
  · rw [if_pos hself] at hparent
    subst hparent
    have houtside : ¬(findPayloadItem payload payload.targetParentItemUid).isSome = true := by
      rw [findPayloadItem_isSome h, List.mem_map]
      exact fun ⟨other, hother, huid⟩ => (h.entry hother).2.2.1 huid
    refine .inl ⟨fun steps hsteps => ?_, List.nodup_singleton _, fun uid huid => ?_, ?_⟩
    · cases steps with
      | zero => exact absurd hsteps (Nat.not_succ_le_zero _)
      | succ steps =>
          rw [targetWalk, htopology]
          exact if_neg houtside
    · rw [List.mem_singleton.mp huid]
      exact ⟨.refl, List.mem_map_of_mem hentry⟩
    · exact congrArg some hself
  · rw [if_neg hself] at hparent
    obtain ⟨above, habove, huid, hroot⟩ := (hcreatable.hung entry hentry).resolve_left hself
    rw [hparent, ← huid] at htopology
    refine .inr ⟨root, above, habove, htopology, ⟨entry, hentry, rfl, ?_, ?_⟩, hroot⟩
    · exact hcreatable.nonzero above habove
    · rw [if_neg hself, huid]

/-- Every walk over the rows of an accepted payload ends, at the selected root of its
first item. The induction is on the links up from it, of which a grounded item has
finitely many. -/
theorem exists_walked (h : Checked payload version) (hcreatable : Creatable payload)
    (hrooted : payload.targetParentItemUid ≠ 0 → payload.targetRootItemUid ≠ 0)
    (hentry : entry ∈ payload.items) : ∃ passed, Walked payload entry.itemUid passed := by
  obtain ⟨top, hpath, hend⟩ := hcreatable.grounded entry hentry
  generalize huid : entry.itemUid = itemUid at hpath
  induction hpath using ReflTransGen.head_induction_on generalizing entry with
  | refl =>
      subst huid
      rcases walked_or_hung h hcreatable hrooted hentry with hwalked | ⟨_, parent, _, _, hlink, _⟩
      · exact ⟨_, hwalked⟩
      · exact absurd hlink (hend _)
  | head hfirst _ ih =>
      subst huid
      rcases walked_or_hung h hcreatable hrooted hentry with
        hwalked | ⟨root, parent, hparent, htopology, hlink, hroot⟩
      · exact ⟨_, hwalked⟩
      · -- an item has one link up, so this is the first one of the path
        have hsame := creationLink_unique hcreatable hlink hfirst
        obtain ⟨passed, hpassed⟩ := ih hparent hsame
        rw [← hsame] at hpassed
        exact ⟨_, hpassed.step hcreatable hentry htopology (h.find hparent ▸ rfl) hlink hroot⟩

theorem Walked.lands (h : Checked payload version) (hcreatable : Creatable payload)
    (hrooted : TargetRooted payload) (hentry : entry ∈ payload.items) {passed : List (BitVec 64)}
    (hwalked : Walked payload entry.itemUid passed) : Lands payload entry.itemUid := by
  have hlength : passed.length ≤ payload.items.length := by
    have hsub := hwalked.nodup.subperm fun uid huid => (hwalked.above uid huid).2
    exact hsub.length_le.trans_eq (List.length_map ..)
  obtain ⟨root, parent, htopology, -⟩ := h.topology (fun hparent => (hrooted hparent).1) hentry
  obtain ⟨-, hroot, -⟩ := targetTopologyFor_eq_some hcreatable.reason (h.find hentry) htopology
  refine ⟨passed, root, hwalked.run _ hlength, hwalked.nodup,
    fun uid huid => (hwalked.above uid huid).2, by rw [htopology]; rfl, fun hzero => ?_,
    fun hparent => ?_⟩
  · rw [hroot, if_neg (not_not.mpr hzero)]
    exact hwalked.last
  · rw [if_pos hparent] at hroot
    exact ⟨hroot, hroot ▸ (hrooted hparent).2⟩

end Walk

/-- For every accepted payload that is not a craft, of any version and shape: the target
topology is a well-formed forest exactly when a target parent comes with a target root
that is not itself moved. -/
theorem targetForest_iff {sha256 : Bytes → Vector UInt8 32} {command : CriticalCommand}
    {payload : ItemTransferPayload}
    (hdecode : itemTransferCommandDecodePayload sha256 command = some payload)
    (hreason : payload.reason ≠ ItemTransferReason.craft) :
    TargetForest payload ↔ TargetRooted payload := by
  have h := checked_of_decode hdecode
  have hcreatable := creatable_of_checked h hreason
  constructor
  · intro hforest hparent
    obtain ⟨entry, hentry⟩ := List.exists_mem_of_ne_nil _ h.nonempty
    obtain ⟨passed, root, _, _, _, htopology, _, hroot⟩ := (hforest.lands entry hentry).walk
    obtain ⟨rfl, houtside⟩ := hroot hparent
    obtain ⟨⟨root, parent⟩, hsome, heq⟩ := Option.map_eq_some_iff.mp htopology
    refine ⟨fun hzero => ?_, houtside⟩
    -- the topology never reports a root of zero
    rw [itemTransferTargetTopology, targetTopologyFor, h.find hentry] at hsome
    dsimp only at heq hsome
    rw [if_neg (h.selectedRoot_ne_zero hentry), if_neg hreason, if_pos hparent, hzero] at hsome
    cases hsome
  · intro hrooted
    refine ⟨fun entry hentry => ?_, fun hmoved => ?_⟩
    · obtain ⟨passed, hwalked⟩ :=
        exists_walked h hcreatable (fun hparent => (hrooted hparent).1) hentry
      exact hwalked.lands h hcreatable hrooted hentry
    · obtain ⟨entry, hentry, huid⟩ := List.mem_map.mp hmoved
      exact (h.entry hentry).2.2.1 huid

/-- A player puts an item into a bag of their own that lies in `targetRoot`; zero is a
caller that names the bag only. -/
def putInto (targetRoot : BitVec 64) : ItemTransferPayload where
  fromOwner := ⟨ItemOwnerType.player, 5, 0⟩
  toOwner := ⟨ItemOwnerType.player, 5, 0⟩
  reason := ItemTransferReason.playerPut
  reasonId := 0
  expectedFromRevision := 1
  expectedToRevision := 1
  selectedItemUid := 10
  targetRootItemUid := targetRoot
  targetParentItemUid := 900
  expectedTargetParentRevision := 1
  multiRoot := false
  items := [{
    itemUid := 10, rootItemUid := 10, parentItemUid := 0, expectedItemRevision := 1, vnum := 3,
    expectedState := ItemCustodyState.active }]
  itemBlob := []
  corpse := {}
  collector := {}

/-- The command built for it is accepted again, with the defaults filled in. -/
theorem putInto_decodes {targetRoot : BitVec 64}
    (h : (itemTransferCommandEncodePayload (putInto targetRoot)).isSome = true) :
    ∃ command, itemTransferCommandDecodePayload Sha256.hash command =
      some (stored (putInto targetRoot)) := by
  obtain ⟨encoded, hencoded⟩ := Option.isSome_iff_exists.mp h
  have hentities : commandEntities Sha256.hash (putInto targetRoot) =
      some [⟨⟨CriticalEntityType.player, 5⟩, 1⟩, ⟨⟨CriticalEntityType.item, 10⟩, 1⟩,
        ⟨⟨CriticalEntityType.item, 900⟩, 1⟩] := rfl
  obtain ⟨command, hbuild⟩ := exists_itemTransferCommandBuild hencoded hentities (by decide)
    (by decide : criticalOperationIdIsZero ⟨List.replicate 16 3, List.length_replicate⟩ = false)
    CriticalSourceSite.command CriticalDeadlineClass.interactive
  exact ⟨_, itemTransferCommandDecodePayload_build hbuild 1⟩

/-- With the target root named, the item hangs in the bag. -/
theorem targetForest_iff_put : ∃ command payload,
    itemTransferCommandDecodePayload Sha256.hash command = some payload ∧
      payload.targetParentItemUid ≠ 0 ∧ TargetForest payload := by
  have hencodes : (itemTransferCommandEncodePayload (putInto 900)).isSome = true := by
    decide +kernel
  obtain ⟨command, hdecode⟩ := putInto_decodes hencodes
  refine ⟨command, _, hdecode, by decide, ?_⟩
  exact (targetForest_iff hdecode (by decide)).mpr fun _ => ⟨by decide, by decide⟩

/-- Without it the encoder fills in the moved item itself, and the decoder accepts an item
that lies in a bag and is its own root there. -/
theorem put_without_root : ∃ command payload,
    itemTransferCommandDecodePayload Sha256.hash command = some payload ∧
      payload.reason ≠ ItemTransferReason.craft ∧
      itemTransferTargetTopology payload 10 = some (10, 900) ∧ ¬TargetForest payload := by
  have hencodes : (itemTransferCommandEncodePayload (putInto 0)).isSome = true := by
    decide +kernel
  obtain ⟨command, hdecode⟩ := putInto_decodes hencodes
  refine ⟨command, _, hdecode, by decide, by decide, fun hforest => ?_⟩
  obtain ⟨passed, root, -, -, -, htopology, -, hroot⟩ :=
    (hforest.lands _ (List.mem_singleton.mpr rfl)).walk
  obtain ⟨rfl, houtside⟩ := hroot (by decide)
  exact houtside (by decide)

end Duris.Item
