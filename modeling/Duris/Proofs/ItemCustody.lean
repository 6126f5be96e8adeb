import Duris.Proofs.CustodyForest
import Duris.Proofs.ItemTransferRows

/-!
# Auctions, corpses, deaths and deleted characters

Each of these moves the rows of an owner by a map over the catalogue, and what is to be
shown is that the map takes whole trees: an update in the sense of the forest. An
auction alone picks rows one by one, and takes a whole tree exactly when nothing live lies
in what it picks.
-/

namespace Duris.Flatfile.Ownership

open Persistence Player Item Economy Relation Forest

/-! ## The parts all of them have -/

structure KeepsForest (catalog after : OwnershipCatalog) : Prop where
  wellFormed : WellFormed after
  evolved : Evolved catalog.items after.items

variable {catalog after : OwnershipCatalog} {sha256 : Bytes → Vector UInt8 32}
  {row : FlatfileItemOwnershipRecord} {payload : CorpseLifecyclePayload}

theorem KeepsForest.refl (h : WellFormed catalog) :
    KeepsForest catalog catalog := ⟨h, .refl _⟩

theorem KeepsForest.trans {a b c : OwnershipCatalog} (hab : KeepsForest a b)
    (hbc : KeepsForest b c) : KeepsForest a c := ⟨hbc.wellFormed, hab.evolved.trans hbc.evolved⟩

theorem stage_eq_ok {μ : Type} {mutation : μ} {staged : Staged μ}
    (h : stage sha256 catalog mutation = .ok staged) :
    staged.catalog = catalog ∧
      encodeCatalog sha256 catalog (catalog.revision + 1) = some staged.image ∧
      staged.mutation = mutation := by
  unfold stage at h
  split at h
  · cases h
  · next image himage =>
      cases h
      exact ⟨rfl, himage, rfl⟩

theorem Grown.wellFormed {named : List ItemOwnerIdentity} {before : OwnershipCatalog}
    (h : Grown named before after) (hformed : WellFormed before) : WellFormed after where
  owners := h.ordered
  items := h.items ▸ hformed.items
  nonzero := h.items ▸ hformed.nonzero
  forest := h.items ▸ hformed.forest

theorem Grown.keepsForest {named : List ItemOwnerIdentity} {before : OwnershipCatalog}
    (h : Grown named before after) (hformed : WellFormed before) : KeepsForest before after :=
  ⟨h.wellFormed hformed, h.items ▸ .refl _⟩

theorem ensureOwner_grown {owner : ItemOwnerIdentity} (hformed : WellFormed catalog)
    (h : ensureOwner catalog owner = some after) :
    Grown [owner] catalog after := (ensureOwner_eq_some hformed.owners h).1

theorem ensureOwners_grown {left right : ItemOwnerIdentity} (hformed : WellFormed catalog)
    (h : (ensureOwner catalog left).bind (ensureOwner · right) = some after) :
    Grown [left, right] catalog after := by
  obtain ⟨first, hfirst, hsecond⟩ := Option.bind_eq_some_iff.mp h
  have hgrown := ensureOwner_grown hformed hfirst
  have hgrown' := ensureOwner_grown (hgrown.wellFormed hformed) hsecond
  exact (hgrown.mono (by simp)).trans (hgrown'.mono (by simp))

theorem WellFormed.with_update (h : WellFormed catalog) {owners : List OwnerState}
    (howners : Sorted.Ordered ownerLess OwnerState.owner owners)
    {f : FlatfileItemOwnershipRecord → FlatfileItemOwnershipRecord} {moved : BitVec 64 → Prop}
    (hupdate : Update catalog.items f moved)
    (hevolved : ∀ row ∈ catalog.items, RowEvolved row (f row)) :
    KeepsForest catalog { catalog with owners, items := catalog.items.map f } where
  wellFormed := {
    owners := howners
    items := h.items.map hupdate.uid
    nonzero := fun after hafter => by
      obtain ⟨row, hrow, rfl⟩ := List.mem_map.mp hafter
      rw [hupdate.uid row hrow]
      exact h.nonzero row hrow
    forest := h.forest.update hupdate }
  evolved := .of_map hevolved

/-- One more, from a revision that is not the last, and nothing else but where the row is. -/
theorem RowEvolved.of_revision {after : FlatfileItemOwnershipRecord}
    (huid : after.itemUid = row.itemUid) (hdestroyed : row.state = ItemCustodyState.destroyed →
      after.state = ItemCustodyState.destroyed)
    (hrevision : after.itemRevision = row.itemRevision + 1)
    (hmax : row.itemRevision ≠ BitVec.allOnes 64) : RowEvolved row after :=
  ⟨huid, hdestroyed, .inr (hrevision ▸ revision_lt hmax)⟩

theorem RowEvolved.ite {f : FlatfileItemOwnershipRecord → FlatfileItemOwnershipRecord} {c : Prop}
    [Decidable c] (h : c → RowEvolved row (f row)) : RowEvolved row (if c then f row else row) := by
  split
  · next hc => exact h hc
  · exact .refl row

/-! ## Auctions -/

/-- Nothing that is not destroyed lies in a row under one of the uids. -/
def Contained (items : List FlatfileItemOwnershipRecord) (uids : List (BitVec 64)) : Prop :=
  ∀ row ∈ items, row.state ≠ ItemCustodyState.destroyed → row.parentItemUid ∉ uids

/-- What an auction transfer has checked by the time it is carried out. -/
structure AuctionMoved (catalog : OwnershipCatalog) (payload : AuctionCommandPayload)
    (fromOwner toOwner : ItemOwnerIdentity) (after : OwnershipCatalog) : Prop where
  exists_grown : ∃ grown, KeepsForest catalog grown ∧ grown.items = catalog.items ∧
    (∀ entry ∈ payload.items, auctionItemMatches grown fromOwner entry = true) ∧
    ∃ owners, Sorted.Ordered ownerLess OwnerState.owner owners ∧
      after = { grown with
        owners
        items := updateUids grown.items (payload.items.map AuctionItemEntry.itemUid)
          (auctionRow toOwner) }

theorem prepareAuctionTransfer_moved (hformed : WellFormed catalog)
    {payload : AuctionCommandPayload} {auctionId : BitVec 32} {toAuction : Bool}
    {staged : Staged ItemAuctionMutation}
    (h : prepareAuctionTransfer sha256 catalog payload auctionId toAuction = .ok staged) :
    AuctionMoved catalog payload
      (if toAuction then playerOwner payload.actorPid else auctionOwner auctionId)
      (if toAuction then auctionOwner auctionId else playerOwner payload.actorPid)
      staged.catalog := by
  unfold prepareAuctionTransfer at h
  split at h
  · cases h
  · dsimp only at h
    generalize (if toAuction = true then playerOwner payload.actorPid
      else auctionOwner auctionId) = fromOwner at h ⊢
    generalize (if toAuction = true then auctionOwner auctionId
      else playerOwner payload.actorPid) = toOwner at h ⊢
    split at h
    · cases h
    · next grown hgrown =>
        have hgrown := ensureOwners_grown hformed hgrown
        split at h
        · cases h
        · split at h
          · cases h
          · next hchecked =>
              simp only [not_or, Bool.not_eq_false, List.all_eq_true] at hchecked
              split at h
              · cases h
              · obtain ⟨hcatalog, _, _⟩ := stage_eq_ok h
                refine ⟨grown, hgrown.keepsForest hformed, hgrown.items, hchecked.1, _, ?_,
                  hcatalog⟩
                refine ordered_of_owners ?_ hgrown.ordered
                rw [bumpOwner_owners, bumpOwner_owners]

theorem auctionItemMatches_iff (hformed : WellFormed catalog) {fromOwner : ItemOwnerIdentity}
    {entry : AuctionItemEntry} (h : auctionItemMatches catalog fromOwner entry = true) :
    ∃ row ∈ catalog.items, row.itemUid = entry.itemUid ∧ row.rootItemUid = row.itemUid ∧
      row.parentItemUid = 0 ∧ row.owner = fromOwner ∧ row.itemRevision ≠ BitVec.allOnes 64 ∧
      row.state = ItemCustodyState.active := by
  unfold auctionItemMatches at h
  split at h
  · cases h
  · next row hfound =>
      obtain ⟨hmem, huid⟩ := (findRow_eq_some hformed.items).mp hfound
      simp only [Bool.and_eq_true, beq_iff_eq, bne_iff_ne, itemOwnerIdentityEqual_iff] at h
      obtain ⟨⟨⟨⟨⟨⟨hroot, hparent⟩, howner⟩, _⟩, hmax⟩, _⟩, hstate⟩ := h
      exact ⟨row, hmem, huid, hroot, hparent, howner, hmax, hstate⟩

theorem AuctionMoved.keepsForest_iff {payload : AuctionCommandPayload}
    {fromOwner toOwner : ItemOwnerIdentity}
    (h : AuctionMoved catalog payload fromOwner toOwner after) (hends : fromOwner ≠ toOwner) :
    KeepsForest catalog after ↔
      Contained catalog.items (payload.items.map AuctionItemEntry.itemUid) := by
  obtain ⟨grown, hkept, hitems, hmatches, owners, howners, rfl⟩ := h.exists_grown
  have hformed := hkept.wellFormed
  let uids := payload.items.map AuctionItemEntry.itemUid
  -- what the payload names is the root of a tree of the first owner
  have hnamed : ∀ row ∈ grown.items, row.itemUid ∈ uids → row.rootItemUid = row.itemUid ∧
      row.parentItemUid = 0 ∧ row.owner = fromOwner ∧ row.itemRevision ≠ BitVec.allOnes 64 ∧
      row.state = ItemCustodyState.active := by
    intro row hrow hin
    obtain ⟨entry, hentry, huid⟩ := List.mem_map.mp hin
    obtain ⟨other, hother, huid', hrest⟩ := auctionItemMatches_iff hformed (hmatches entry hentry)
    rwa [eq_of_uid hformed.forest hother hrow (huid'.trans huid)] at hrest
  have hcontains {uid : BitVec 64} : uids.contains uid = true ↔ uid ∈ uids := List.contains_iff_mem
  rw [← hitems]
  constructor
  · intro hafter row hrow hlive hin
    have hparent : row.parentItemUid ≠ 0 := by
      intro hzero
      obtain ⟨entry, hentry, huid⟩ := List.mem_map.mp hin
      obtain ⟨other, hother, huid', _⟩ := auctionItemMatches_iff hformed (hmatches entry hentry)
      exact hformed.nonzero other hother (huid'.trans (huid.trans hzero))
    have hstays : row.itemUid ∉ uids := fun hmoves => hparent (hnamed row hrow hmoves).2.1
    have hrow' : row ∈ updateUids grown.items uids (auctionRow toOwner) :=
      List.mem_map.mpr ⟨row, hrow, if_neg (mt hcontains.mp hstays)⟩
    obtain ⟨parent, hmem, huid, hsame⟩ := hformed.forest.joined row hrow hlive hparent
    obtain ⟨parent', hmem', huid', hsame'⟩ :=
      hafter.wellFormed.forest.joined row hrow' hlive hparent
    have hmoves : parent.itemUid ∈ uids := huid ▸ hin
    have hparent' : auctionRow toOwner parent ∈ updateUids grown.items uids (auctionRow toOwner) :=
      List.mem_map.mpr ⟨parent, hmem, if_pos (hcontains.mpr hmoves)⟩
    have heq := eq_of_uid hafter.wellFormed.forest hmem' hparent' (huid'.trans huid.symm)
    apply hends
    rw [← (hnamed parent hmem hmoves).2.2.1, hsame.owner, ← hsame'.owner, heq]
    rfl
  · intro hcontained
    have hupdate : Update grown.items
        (fun row => if uids.contains row.itemUid then auctionRow toOwner row else row)
        (· ∈ uids) := {
      uid := fun row _ => by split <;> rfl
      stays := fun row _ hstays => by
        rw [if_neg (mt hcontains.mp hstays)]
        exact .refl row
      live := fun row hrow hmoves => by
        rw [(hnamed row hrow hmoves).2.2.2.2]
        decide
      closed := fun row hrow hlive _ hmoves => absurd hmoves (hcontained row hrow hlive)
      rejoined := fun row hrow hmoves => by
        obtain ⟨hroot, hparent, _⟩ := hnamed row hrow hmoves
        refine .top ?_ ?_
        · rw [if_pos (hcontains.mpr hmoves)]
          exact hparent
        · rw [if_pos (hcontains.mpr hmoves)]
          exact hroot }
    refine hkept.trans (hformed.with_update howners hupdate fun row hrow => .ite fun hmoves => ?_)
    obtain ⟨_, _, _, hmax, hstate⟩ := hnamed row hrow (hcontains.mp hmoves)
    exact .of_revision rfl (fun hdestroyed => absurd (hstate.symm.trans hdestroyed) (by decide))
      rfl hmax

/-! ## Corpses -/

theorem custodyMatches_mem {α : Type} {same : α → FlatfileItemOwnershipRecord → Bool}
    {expected : List α} {rows : List FlatfileItemOwnershipRecord}
    (h : custodyMatches same expected rows = true) :
    ∀ row ∈ rows, ∃ item ∈ expected, same item row = true := by
  intro row hrow
  simp only [custodyMatches, Bool.and_eq_true, beq_iff_eq, List.all_eq_true] at h
  obtain ⟨index, hindex, rfl⟩ := List.getElem_of_mem hrow
  have hother : index < expected.length := h.1 ▸ hindex
  exact ⟨expected[index], List.getElem_mem hother, h.2 (expected[index], rows[index])
    (List.mem_iff_getElem.mpr ⟨index, by rw [List.length_zip]; omega, List.getElem_zip⟩)⟩

/-- What a release has checked by the time it is carried out. -/
structure CorpseReleased (catalog : OwnershipCatalog) (payload : CorpseLifecyclePayload)
    (after : OwnershipCatalog) : Prop where
  exists_grown : ∃ grown, KeepsForest catalog grown ∧
    (∀ row ∈ grown.items, row.owner = corpseOwner payload →
      row.state = ItemCustodyState.active ∧ row.itemRevision ≠ BitVec.allOnes 64) ∧
    nestedParentMatches grown payload = true ∧
    ∃ owners, Sorted.Ordered ownerLess OwnerState.owner owners ∧
      after = { grown with
        owners
        items := updateOwned grown.items (corpseOwner payload) (releaseRow payload) }

theorem ensureReleaseOwners_grown (hformed : WellFormed catalog)
    (h : ensureReleaseOwners catalog payload = some after) :
    ∃ named, Grown named catalog after := by
  unfold ensureReleaseOwners at h
  obtain ⟨first, hfirst, h⟩ := Option.bind_eq_some_iff.mp h
  obtain ⟨second, hsecond, h⟩ := Option.bind_eq_some_iff.mp h
  have hgrown := ensureOwner_grown hformed hfirst
  have hgrown' := ensureOwner_grown (hgrown.wellFormed hformed) hsecond
  let named := [corpseOwner payload, payload.destinationOwner, roomOwner payload.oldRoomVnum]
  have hboth : Grown named catalog second :=
    (hgrown.mono (by simp [named])).trans (hgrown'.mono (by simp [named]))
  refine ⟨named, ?_⟩
  split at h
  · exact hboth.trans ((ensureOwner_grown (hboth.wellFormed hformed) h).mono (by simp [named]))
  · cases h
    exact hboth

theorem prepareCorpseRelease_released (hformed : WellFormed catalog)
    {expectedItems : List CorpseCustodyItem} {staged : Staged ItemCorpseReleaseMutation}
    (h : prepareCorpseRelease sha256 catalog payload expectedItems = .ok staged) :
    CorpseReleased catalog payload staged.catalog ∧
      validCorpseRelease payload expectedItems = true := by
  unfold prepareCorpseRelease at h
  dsimp only at h
  split at h
  · cases h
  · next hvalid =>
      split at h
      · cases h
      · split at h
        · cases h
        · next hmatches =>
            split at h
            · cases h
            · next grown hgrown =>
                obtain ⟨named, hgrown⟩ := ensureReleaseOwners_grown hformed hgrown
                split at h
                · cases h
                · next hnested =>
                    obtain ⟨hcatalog, _, _⟩ := stage_eq_ok h
                    simp only [not_or, Bool.not_eq_false] at hmatches hnested hvalid
                    refine ⟨⟨grown, hgrown.keepsForest hformed, fun row hrow howner => ?_,
                      hnested.1, _, ?_, hcatalog⟩, hvalid⟩
                    · have howned : row ∈ ownedRows catalog (corpseOwner payload) :=
                        List.mem_filter.mpr ⟨hgrown.items ▸ hrow,
                          itemOwnerIdentityEqual_iff.mpr howner⟩
                      obtain ⟨item, _, hmatch⟩ := custodyMatches_mem hmatches row howned
                      simp only [corpseItemMatches, Bool.and_eq_true, beq_iff_eq, bne_iff_ne]
                        at hmatch
                      exact ⟨hmatch.1.2, hmatch.2⟩
                    · split
                      · refine ordered_of_owners ?_ hgrown.ordered
                        rw [bumpOwner_owners, bumpOwner_owners, bumpOwner_owners]
                      · refine ordered_of_owners ?_ hgrown.ordered
                        rw [bumpOwner_owners, bumpOwner_owners]

theorem nestedParentMatches_parent (hformed : WellFormed catalog)
    (h : nestedParentMatches catalog payload = true) (hnested : payload.action = .releaseNested) :
    ∃ parent ∈ catalog.items, parent.itemUid = payload.targetParentItemUid ∧
      parent.rootItemUid = payload.targetRootItemUid ∧ parent.owner = payload.destinationOwner ∧
      parent.state = ItemCustodyState.active := by
  unfold nestedParentMatches at h
  rw [if_pos hnested] at h
  split at h
  · cases h
  · next parent hfound =>
      obtain ⟨hmem, huid⟩ := (findRow_eq_some hformed.items).mp hfound
      simp only [Bool.and_eq_true, beq_iff_eq, itemOwnerIdentityEqual_iff] at h
      exact ⟨parent, hmem, huid, h.1.1.1, h.1.1.2, h.2⟩

theorem destinationOwner_ne_corpseOwner (payload : CorpseLifecyclePayload) :
    payload.destinationOwner ≠ corpseOwner payload := by
  intro heq
  have htype := congrArg ItemOwnerIdentity.type heq
  revert htype
  unfold CorpseLifecyclePayload.destinationOwner
  split
  · exact (by decide : ItemOwnerType.room ≠ ItemOwnerType.corpse)
  · split
    · exact (by decide : ItemOwnerType.destruction ≠ ItemOwnerType.corpse)
    · split
      · exact (by decide : ItemOwnerType.pet ≠ ItemOwnerType.corpse)
      · exact (by decide : ItemOwnerType.player ≠ ItemOwnerType.corpse)

theorem CorpseReleased.keepsForest (h : CorpseReleased catalog payload after) :
    KeepsForest catalog after := by
  obtain ⟨grown, hkept, howned, hnested, owners, howners, rfl⟩ := h.exists_grown
  have hformed := hkept.wellFormed
  have hforest := hformed.forest
  have hf {row : FlatfileItemOwnershipRecord} (howner : row.owner = corpseOwner payload) :
      (if itemOwnerIdentityEqual row.owner (corpseOwner payload) then releaseRow payload row
        else row) = releaseRow payload row := if_pos (itemOwnerIdentityEqual_iff.mpr howner)
  have hactive : ∀ row ∈ grown.items, row.owner = corpseOwner payload →
      row.state ≠ ItemCustodyState.destroyed := by
    intro row hrow howner
    rw [(howned row hrow howner).1]
    decide
  have hupdate : Update grown.items
      (fun row => if itemOwnerIdentityEqual row.owner (corpseOwner payload) then
        releaseRow payload row else row)
      fun uid => ∃ row ∈ grown.items, row.itemUid = uid ∧ row.owner = corpseOwner payload := {
    uid := fun row _ => by split <;> rfl
    stays := fun row hrow hstays => by
      rw [if_neg fun howner =>
        hstays ⟨row, hrow, rfl, itemOwnerIdentityEqual_iff.mp howner⟩]
      exact .refl row
    live := fun row hrow hmoves => by
      obtain ⟨other, hother, huid, howner⟩ := hmoves
      rw [eq_of_uid hforest hother hrow huid] at howner
      exact hactive row hrow howner
    closed := fun row hrow hlive hparent hmoves => by
      obtain ⟨other, hother, huid, howner⟩ := hmoves
      obtain ⟨parent, hmem, huid', hsame⟩ := hforest.joined row hrow hlive hparent
      rw [eq_of_uid hforest hother hmem (huid.trans huid'.symm), hsame.owner] at howner
      exact ⟨row, hrow, rfl, howner⟩
    rejoined := fun row hrow hmoves => by
      obtain ⟨other, hother, huid, howner⟩ := hmoves
      rw [eq_of_uid hforest hother hrow huid] at howner
      have hlive := hactive row hrow howner
      by_cases hparent : row.parentItemUid = 0
      · by_cases haction : payload.action = .releaseNested
        · obtain ⟨parent, hmem, huid, hroot, howner', hstate⟩ :=
            nestedParentMatches_parent hformed hnested haction
          refine .under hmem (by rw [hstate]; decide) (fun ⟨other, hother, heq, hcorpse⟩ => ?_) ?_
            (hformed.nonzero parent hmem) fun _ => ?_
          · rw [eq_of_uid hforest hother hmem heq, howner'] at hcorpse
            exact destinationOwner_ne_corpseOwner payload hcorpse
          · rw [hf howner, huid]
            exact if_pos ⟨haction, hparent⟩
          · rw [hf howner]
            refine ⟨howner', ?_, ?_⟩
            · rw [hstate, releaseRow, (howned row hrow howner).1]
              exact (if_neg (by rw [haction]; decide)).symm
            · rw [hroot]
              exact (if_pos haction).symm
        · refine .top ?_ ?_
          · rw [hf howner]
            exact (if_neg fun h => haction h.1).trans hparent
          · rw [hf howner]
            exact (if_neg haction).trans (hforest.rooted row hrow hparent)
      · obtain ⟨parent, hmem, huid, hsame⟩ := hforest.joined row hrow hlive hparent
        have howner' : parent.owner = corpseOwner payload := hsame.owner.trans howner
        refine .along hmem (.single ⟨row, hrow, rfl, huid.symm, hformed.nonzero parent hmem⟩)
          ⟨parent, hmem, rfl, howner'⟩ ?_ (hformed.nonzero parent hmem) fun _ => ?_
        · rw [hf howner, huid]
          exact if_neg fun h => hparent h.2
        · rw [hf howner, hf howner']
          refine ⟨rfl, ?_, ?_⟩
          · simp only [releaseRow, hsame.state]
          · simp only [releaseRow, hsame.root] }
  refine hkept.trans (hformed.with_update howners hupdate fun row hrow => .ite fun howner => ?_)
  obtain ⟨hstate, hmax⟩ := howned row hrow (itemOwnerIdentityEqual_iff.mp howner)
  exact .of_revision rfl (fun hdestroyed => absurd (hstate.symm.trans hdestroyed) (by decide))
    rfl hmax

/-! ## Deaths and deleted characters -/

theorem heldByDeath_tree {player : ItemOwnerIdentity} {custodyUids : List (BitVec 64)}
    {parent : FlatfileItemOwnershipRecord} (hrow : row ∈ catalog.items)
    (hmem : parent ∈ catalog.items) (hsame : SameTree row parent) :
    heldByDeath catalog player custodyUids row = true ↔
      heldByDeath catalog player custodyUids parent = true := by
  -- a row among the uids brings its root along
  have hheld {row : FlatfileItemOwnershipRecord} (hrow : row ∈ catalog.items) :
      heldByDeath catalog player custodyUids row = true ↔
        row.state = ItemCustodyState.active ∧ row.owner = player ∧
          row.rootItemUid ∈ retainedRoots catalog player custodyUids := by
    simp only [heldByDeath, Bool.and_eq_true, beq_iff_eq, itemOwnerIdentityEqual_iff,
      Bool.or_eq_true, List.contains_iff_mem, and_assoc]
    refine and_congr_right fun hstate => and_congr_right fun howner => ⟨fun h => ?_, .inr⟩
    rcases h with h | h
    · refine List.mem_map_of_mem (List.mem_filter.mpr ⟨hrow, ?_⟩)
      simp only [Bool.and_eq_true, beq_iff_eq, itemOwnerIdentityEqual_iff,
        List.contains_iff_mem]
      exact ⟨⟨hstate, howner⟩, h⟩
    · exact h
  rw [hheld hrow, hheld hmem, hsame.state, hsame.owner, hsame.root]

theorem prepareDeathQuarantine_keepsForest (hformed : WellFormed catalog) {pid : BitVec 32}
    {custodyUids : List (BitVec 64)} {staged : Staged Unit}
    (h : prepareDeathQuarantine sha256 catalog pid custodyUids = .ok staged) :
    KeepsForest catalog staged.catalog := by
  unfold prepareDeathQuarantine at h
  dsimp only at h
  split at h
  · cases h
  · split at h
    · cases h
    · split at h
      · cases h
      · next hmax =>
          split at h
          · cases h
          · split at h
            · cases h
            · obtain ⟨hcatalog, _, _⟩ := stage_eq_ok h
              rw [hcatalog]
              generalize playerOwner pid = player at hmax
              have hactive {row : FlatfileItemOwnershipRecord}
                  (hheld : heldByDeath catalog player custodyUids row = true) :
                  row.state = ItemCustodyState.active := by
                simp only [heldByDeath, Bool.and_eq_true, beq_iff_eq] at hheld
                exact hheld.1.1
              have htrees : TreeUpdate catalog.items
                  (fun item => if heldByDeath catalog player custodyUids item then
                    quarantineRow item else item)
                  (heldByDeath catalog player custodyUids · = true) := {
                uid := fun row _ => by split <;> rfl
                parent := fun row _ => by split <;> rfl
                root := fun row _ => by split <;> rfl
                stays := fun row _ hstays => by
                  rw [if_neg fun hheld => hstays ⟨hheld, by rw [hactive hheld]; decide⟩]
                  exact .refl row
                whole := fun row hrow parent hmem hsame => heldByDeath_tree hrow hmem hsame
                same := fun row _ parent _ hheld hheld' hsame => by
                  rw [if_pos hheld, if_pos hheld']
                  exact ⟨hsame.owner, rfl, hsame.root⟩ }
              refine hformed.with_update
                (ordered_of_owners (bumpOwner_owners ..) hformed.owners)
                (htrees.update hformed.nonzero hformed.forest)
                fun row hrow => .ite fun hheld => .of_revision rfl
                  (fun hdestroyed => absurd ((hactive hheld).symm.trans hdestroyed) (by decide))
                  rfl fun hrevision => hmax ?_
              rw [List.any_eq_true]
              exact ⟨row, hrow, by rw [hheld, hrevision]; rfl⟩

theorem preparePlayerRemove_keepsForest (hformed : WellFormed catalog) {pid : BitVec 32}
    {staged : Staged Unit} (h : preparePlayerRemove sha256 catalog pid = .ok staged) :
    KeepsForest catalog staged.catalog := by
  unfold preparePlayerRemove at h
  dsimp only at h
  split at h
  · cases h
  · split at h
    · cases h
    · split at h
      · cases h
      · next grown hgrown =>
          have hgrown := ensureOwner_grown hformed hgrown
          have hgrownFormed := hgrown.wellFormed hformed
          split at h
          · cases h
          · next hchecked =>
              obtain ⟨hcatalog, _, _⟩ := stage_eq_ok h
              rw [hcatalog]
              simp only [not_or, Bool.not_eq_true] at hchecked
              have hmax := hchecked.2.2
              generalize playerOwner pid = player at hmax
              have hretired {row : FlatfileItemOwnershipRecord} (howner : row.owner = player) :
                  (if itemOwnerIdentityEqual row.owner player then retireRow row else row) =
                    retireRow row := if_pos (itemOwnerIdentityEqual_iff.mpr howner)
              have htrees : TreeUpdate grown.items
                  (fun row => if itemOwnerIdentityEqual row.owner player then retireRow row
                    else row)
                  (fun row => row.owner = player) := {
                uid := fun row _ => by split <;> rfl
                parent := fun row _ => by split <;> rfl
                root := fun row _ => by split <;> rfl
                stays := fun row _ hstays => by
                  by_cases howner : row.owner = player
                  · -- a row of the player that was destroyed already
                    rw [hretired howner]
                    have hdestroyed : row.state = ItemCustodyState.destroyed :=
                      Decidable.not_not.mp fun hlive => hstays ⟨howner, hlive⟩
                    exact ⟨fun hlive => absurd hdestroyed hlive, rfl, rfl, fun _ => rfl⟩
                  · rw [if_neg (mt itemOwnerIdentityEqual_iff.mp howner)]
                    exact .refl row
                whole := fun row _ parent _ hsame => by rw [hsame.owner]
                same := fun row _ parent _ howner howner' hsame => by
                  rw [hretired howner, hretired howner']
                  exact ⟨rfl, rfl, hsame.root⟩ }
              refine (hgrown.keepsForest hformed).trans (hgrownFormed.with_update
                (Sorted.Ordered.sublist (ordered_of_owners (bumpOwner_owners ..) hgrown.ordered)
                  List.filter_sublist)
                (htrees.update hgrownFormed.nonzero hgrownFormed.forest)
                fun row hrow => .ite fun howner => .of_revision rfl (fun _ => rfl) rfl
                  fun hrevision => ?_)
              have := List.any_eq_false.mp hmax row hrow
              rw [howner, hrevision] at this
              exact this rfl

end Duris.Flatfile.Ownership
