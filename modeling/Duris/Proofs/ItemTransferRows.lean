import Duris.Proofs.ItemCatalog
import Duris.Proofs.ItemPayload

/-!
# What a transfer does to the catalogue

Both functions put the owners they name into the table first and refuse after that, so
what a refusal leaves is the catalogue with some owners more, at revision zero:
`Grown`. For a payload the decoder accepts no refusal comes later than that: every
moved row has a target and every output a root. What is left is the two ways to
succeed, and the file states each with the checks it has passed.
-/

namespace Duris.Flatfile.Ownership

open Persistence Player Item Economy

/-! ## Owners put into the table -/

/-- `after` is `before` with owners more, each named, new and at revision zero. -/
structure Grown (named : List ItemOwnerIdentity) (before after : OwnershipCatalog) : Prop where
  revision : after.revision = before.revision
  items : after.items = before.items
  operations : after.operations = before.operations
  ordered : Sorted.Ordered ownerLess OwnerState.owner after.owners
  kept : ∀ entry ∈ before.owners, entry ∈ after.owners
  added : ∀ entry ∈ after.owners, entry ∈ before.owners ∨
    entry.owner ∈ named ∧ entry.revision = 0 ∧ ∀ other ∈ before.owners, other.owner ≠ entry.owner

variable {named : List ItemOwnerIdentity} {catalog after : OwnershipCatalog}
  {owner : ItemOwnerIdentity} {payload : ItemTransferPayload} {owners : List OwnerState}
  {items rows : List FlatfileItemOwnershipRecord} {row : FlatfileItemOwnershipRecord}

theorem Grown.refl (h : Sorted.Ordered ownerLess OwnerState.owner catalog.owners) :
    Grown named catalog catalog :=
  ⟨rfl, rfl, rfl, h, fun _ hentry => hentry, fun _ hentry => .inl hentry⟩

theorem Grown.trans {a b c : OwnershipCatalog} (hab : Grown named a b) (hbc : Grown named b c) :
    Grown named a c where
  revision := hbc.revision.trans hab.revision
  items := hbc.items.trans hab.items
  operations := hbc.operations.trans hab.operations
  ordered := hbc.ordered
  kept entry hentry := hbc.kept entry (hab.kept entry hentry)
  added entry hentry := by
    rcases hbc.added entry hentry with hmem | ⟨hnamed, hzero, hnew⟩
    · exact hab.added entry hmem
    · exact .inr ⟨hnamed, hzero, fun other hother => hnew other (hab.kept other hother)⟩

theorem Grown.mono {named' : List ItemOwnerIdentity} {a b : OwnershipCatalog} (h : Grown named a b)
    (hsub : ∀ owner ∈ named, owner ∈ named') : Grown named' a b :=
  { h with
    added := fun entry hentry =>
      (h.added entry hentry).imp_right fun ⟨hnamed, hrest⟩ => ⟨hsub _ hnamed, hrest⟩ }

theorem ensureOwner_eq_some (hordered : Sorted.Ordered ownerLess OwnerState.owner catalog.owners)
    (h : ensureOwner catalog owner = some after) :
    Grown [owner] catalog after ∧ ∃ entry, findOwner after owner = some entry := by
  unfold ensureOwner at h
  split at h
  · next entry hfound =>
      cases h
      exact ⟨.refl hordered, entry, hfound⟩
  · next hnone =>
      have hnew := (findOwner_eq_none hordered).mp hnone
      split at h
      · cases h
      · cases h
        have hperm : (Sorted.insert ownerLess OwnerState.owner catalog.owners ⟨owner, 0⟩).Perm
            (⟨owner, 0⟩ :: catalog.owners) := Sorted.Ordered.insert_perm _ _
        have hgrown : Sorted.Ordered ownerLess OwnerState.owner
            (Sorted.insert ownerLess OwnerState.owner catalog.owners ⟨owner, 0⟩) :=
          hordered.insert ownerLess_strictTotal hnew
        refine ⟨⟨rfl, rfl, rfl, hgrown, fun entry hentry =>
          hperm.mem_iff.mpr (List.mem_cons_of_mem _ hentry), fun entry hentry => ?_⟩,
          ⟨owner, 0⟩, (findOwner_eq_some hgrown).mpr
            ⟨hperm.mem_iff.mpr (List.mem_cons_self ..), rfl⟩⟩
        rcases List.mem_cons.mp (hperm.mem_iff.mp hentry) with rfl | hmem
        · exact .inr ⟨List.mem_singleton_self _, rfl, hnew⟩
        · exact .inl hmem

theorem Grown.valid {before : OwnershipCatalog} (h : Grown named before after)
    (hvalid : Valid before) (hnamed : ∀ owner ∈ named, itemOwnerIdentityValid owner = true) :
    Valid after where
  owners := h.ordered
  items := h.items ▸ hvalid.items
  ownersValid entry hentry := by
    rcases h.added entry hentry with hmem | ⟨hname, _⟩
    · exact hvalid.ownersValid entry hmem
    · exact hnamed _ hname
  rows := h.items ▸ hvalid.rows
  owned entry hentry := by
    obtain ⟨owner, howner, heq⟩ := hvalid.owned entry (h.items ▸ hentry)
    exact ⟨owner, h.kept owner howner, heq⟩
  operations := h.operations ▸ hvalid.operations
  unique := h.operations ▸ hvalid.unique

def missingOwners (catalog : OwnershipCatalog) (payload : ItemTransferPayload) :
    List ItemOwnerIdentity :=
  [payload.fromOwner, payload.toOwner].dedup.filter fun owner =>
    (findOwner catalog owner).isNone

/-- The table has room for the owners a payload names. -/
def OwnersFit (catalog : OwnershipCatalog) (payload : ItemTransferPayload) : Prop :=
  catalog.owners.length + (missingOwners catalog payload).length ≤ ownershipMaximumEntries

theorem ensureOwner_isSome :
    (ensureOwner catalog owner).isSome = true ↔
      (findOwner catalog owner).isSome = true ∨
        catalog.owners.length < ownershipMaximumEntries := by
  unfold ensureOwner
  split
  · next hfound => simp [hfound]
  · next hnone =>
      split
      · next hfull => simp [hnone]; omega
      · next hroom => simp [hnone]; omega

theorem ensureOwner_length (h : ensureOwner catalog owner = some after) :
    after.owners.length =
      catalog.owners.length + if (findOwner catalog owner).isSome then 0 else 1 := by
  unfold ensureOwner at h
  split at h
  · next hfound => cases h; simp [hfound]
  · next hnone =>
      split at h
      · cases h
      · cases h
        have hperm : (Sorted.insert ownerLess OwnerState.owner catalog.owners ⟨owner, 0⟩).Perm
            (⟨owner, 0⟩ :: catalog.owners) := Sorted.Ordered.insert_perm _ _
        simpa [hnone] using hperm.length_eq

theorem missingOwners_length (catalog : OwnershipCatalog) (payload : ItemTransferPayload) :
    (missingOwners catalog payload).length =
      (if (findOwner catalog payload.fromOwner).isSome then 0 else 1) +
        if payload.fromOwner = payload.toOwner ∨
          (findOwner catalog payload.toOwner).isSome = true then 0 else 1 := by
  by_cases hsame : payload.fromOwner = payload.toOwner
  · rw [missingOwners, hsame, List.dedup_cons_of_mem (List.mem_singleton_self _)]
    cases hfound : findOwner catalog payload.toOwner <;> simp [hfound]
  · rw [missingOwners, List.dedup_cons_of_notMem (by simpa using hsame)]
    cases hfrom : findOwner catalog payload.fromOwner <;>
      cases hto : findOwner catalog payload.toOwner <;> simp [hfrom, hto, hsame]

theorem OwnersFit.ensure (hordered : Sorted.Ordered ownerLess OwnerState.owner catalog.owners)
    (hfit : OwnersFit catalog payload) :
    ∃ first second, ensureOwner catalog payload.fromOwner = some first ∧
      ensureOwner first payload.toOwner = some second := by
  unfold OwnersFit at hfit
  rw [missingOwners_length] at hfit
  have hfirst : (ensureOwner catalog payload.fromOwner).isSome = true := by
    rw [ensureOwner_isSome]
    by_cases hfound : (findOwner catalog payload.fromOwner).isSome = true
    · exact .inl hfound
    · rw [if_neg hfound] at hfit
      exact .inr (by omega)
  obtain ⟨first, hfirst⟩ := Option.isSome_iff_exists.mp hfirst
  obtain ⟨hgrown, hfrom⟩ := ensureOwner_eq_some hordered hfirst
  have hsecond : (ensureOwner first payload.toOwner).isSome = true := by
    rw [ensureOwner_isSome]
    by_cases hknown : payload.fromOwner = payload.toOwner ∨
        (findOwner catalog payload.toOwner).isSome = true
    · refine .inl (Option.isSome_iff_exists.mpr ?_)
      rcases hknown with hsame | hfound
      · exact hsame ▸ hfrom
      · obtain ⟨entry, hentry⟩ := Option.isSome_iff_exists.mp hfound
        obtain ⟨hmem, howner⟩ := (findOwner_eq_some hordered).mp hentry
        exact ⟨entry, (findOwner_eq_some hgrown.ordered).mpr ⟨hgrown.kept entry hmem, howner⟩⟩
    · have hlength := ensureOwner_length hfirst
      rw [if_neg hknown] at hfit
      exact .inr (by omega)
  obtain ⟨second, hsecond⟩ := Option.isSome_iff_exists.mp hsecond
  exact ⟨first, second, hfirst, hsecond⟩

/-! ## The ways a transfer ends -/

def transferOwners (catalog : OwnershipCatalog) (payload : ItemTransferPayload) :
    List OwnerState :=
  let owners := bumpOwner catalog.owners payload.fromOwner
  if payload.fromOwner = payload.toOwner then owners else bumpOwner owners payload.toOwner

/-- What `apply_rows` has checked of the catalogue when it gets to work, the target parent
and the clocks. -/
structure Ready (catalog : OwnershipCatalog) (payload : ItemTransferPayload)
    (fromOwner toOwner : OwnerState) : Prop where
  parent : targetParentMatches catalog payload = true
  fromRevision : fromOwner.revision ≠ BitVec.allOnes 64
  toRevision : payload.fromOwner ≠ payload.toOwner → toOwner.revision ≠ BitVec.allOnes 64

structure Created (catalog : OwnershipCatalog) (payload : ItemTransferPayload)
    (after : OwnershipCatalog) : Prop where
  system : payload.fromOwner.type = ItemOwnerType.system
  rootsFree : rootItems catalog payload = []
  uidsFree : ∀ entry ∈ payload.items, findRow catalog entry.itemUid = none
  complete : (createRows payload payload.items).2 = true
  result : after = { catalog with
    items := sortRows (catalog.items ++ (createRows payload payload.items).1)
    owners := transferOwners catalog payload }

structure Moved (catalog : OwnershipCatalog) (payload : ItemTransferPayload)
    (after : OwnershipCatalog) : Prop where
  notSystem : payload.fromOwner.type ≠ ItemOwnerType.system
  count : (selectedRows catalog payload).length = payload.items.length
  compared : (compareRows payload.fromOwner (selectedRows catalog payload) payload.items 0).2 =
    true
  movable : moveRefusal payload (selectedRows catalog payload) = none
  result : after = { catalog with
    items := updateRows catalog.items (selectedRows catalog payload) (moveRow payload)
    owners := transferOwners catalog payload }

/-- `apply_rows` refuses with the catalogue as it was, creates or moves; a creation that
stops half-way is the fourth case. -/
inductive RowsOutcome (catalog : OwnershipCatalog) (payload : ItemTransferPayload)
    (fromOwner toOwner : OwnerState) (attempt : Attempt) : Prop where
  | refused (code : attempt.code ≠ 0) (catalog_eq : attempt.catalog = catalog)
  | halfway (code : attempt.code ≠ 0) (parent : targetParentMatches catalog payload = true)
      (incomplete : (createRows payload payload.items).2 = false)
  | created (code : attempt.code = 0) (ready : Ready catalog payload fromOwner toOwner)
      (created : Created catalog payload attempt.catalog)
  | moved (code : attempt.code = 0) (ready : Ready catalog payload fromOwner toOwner)
      (moved : Moved catalog payload attempt.catalog)

theorem RowsOutcome.at {fromOwner toOwner : OwnerState} {code : BitVec 32}
    {result : ItemTransferResult} (hcode : code ≠ 0) :
    RowsOutcome catalog payload fromOwner toOwner ⟨code, catalog, result⟩ :=
  .refused hcode rfl

theorem moveRefusal_code {code : BitVec 32} :
    ∀ {rows : List FlatfileItemOwnershipRecord}, moveRefusal payload rows = some code →
      code = erange ∨ code = einval := by
  intro rows
  induction rows with
  | nil => intro h; cases h
  | cons row rows ih =>
      intro h
      rw [moveRefusal] at h
      split at h
      · exact .inl (Option.some.inj h).symm
      · split at h
        · exact .inr (Option.some.inj h).symm
        · exact ih h

theorem finishTransfer_catalog (catalog : OwnershipCatalog) (payload : ItemTransferPayload)
    (fromOwner toOwner : OwnerState) (items : List FlatfileItemOwnershipRecord)
    (result : ItemTransferResult) :
    (finishTransfer catalog payload fromOwner toOwner items result).catalog =
      { catalog with items, owners := transferOwners catalog payload } := by
  by_cases hsame : payload.fromOwner = payload.toOwner
  · have hequal := itemOwnerIdentityEqual_iff.mpr hsame
    simp [finishTransfer, transferOwners, hsame] at hequal ⊢
    simp [hequal]
  · have hequal := itemOwnerIdentityEqual_eq_false.mpr hsame
    simp [finishTransfer, transferOwners, hsame, hequal]

theorem applyRows_outcome (catalog : OwnershipCatalog) (payload : ItemTransferPayload)
    (fromOwner toOwner : OwnerState) (result : ItemTransferResult)
    (hresult : result.maxItemRevision = 0) :
    RowsOutcome catalog payload fromOwner toOwner
      (applyRows catalog payload fromOwner toOwner result) := by
  have hready (hparent : ¬ targetParentMatches catalog payload = false)
      (hrevision : ¬ (fromOwner.revision == BitVec.allOnes 64 ||
        (!itemOwnerIdentityEqual payload.fromOwner payload.toOwner &&
          toOwner.revision == BitVec.allOnes 64)) = true) :
      Ready catalog payload fromOwner toOwner := by
    simp only [Bool.or_eq_true, beq_iff_eq, Bool.and_eq_true, Bool.not_eq_true', not_or,
      not_and, itemOwnerIdentityEqual_eq_false] at hrevision
    exact ⟨eq_true_of_ne_false hparent, hrevision.1, hrevision.2⟩
  unfold applyRows
  dsimp only
  split
  · next hsystem =>
      rw [beq_iff_eq] at hsystem
      split
      · exact .at (by decide)
      · next hfree =>
          simp only [not_or, Decidable.not_not, List.any_eq_true, not_exists, not_and] at hfree
          split
          · exact .at (by decide)
          · split
            · exact .at (by decide)
            · next hparent =>
                split
                · exact .at (by decide)
                · next hrevision =>
                    unfold applyCreation
                    dsimp only
                    split
                    · next hhalf =>
                        exact .halfway (show einval ≠ 0 by decide)
                          (eq_true_of_ne_false hparent) hhalf
                    · next hcomplete =>
                        refine .created rfl (hready hparent hrevision)
                          ⟨hsystem, hfree.1, fun entry hentry => ?_,
                            eq_true_of_ne_false hcomplete, finishTransfer_catalog ..⟩
                        simpa using hfree.2 entry hentry
  · next hsystem =>
      rw [beq_iff_eq] at hsystem
      split
      · exact .at (by decide)
      · split
        · exact .at (by decide)
        · next hcount =>
            split
            · exact .at (by decide)
            · next hcompared =>
                simp only [not_or, hresult] at hcompared
                split
                · exact .at (by decide)
                · next hrevision =>
                    unfold applyMove
                    split
                    · next code hcode =>
                        rcases moveRefusal_code hcode with rfl | rfl
                        · exact .at (by decide)
                        · exact .at (by decide)
                    · next hmovable =>
                        exact .moved rfl (hready hcompared.2 hrevision)
                          ⟨hsystem, Decidable.not_not.mp hcount,
                            eq_true_of_ne_false hcompared.1, hmovable,
                            finishTransfer_catalog ..⟩

/-- The ways `apply_transfer` ends: without the owners, behind them at a stale clock, or as
its rows have it. -/
inductive TransferOutcome (catalog : OwnershipCatalog) (payload : ItemTransferPayload)
    (attempt : Attempt) : Prop where
  | full (code : attempt.code = enospc)
      (grown : Grown [payload.fromOwner, payload.toOwner] catalog attempt.catalog)
  | stale (code : attempt.code ≠ 0)
      (grown : Grown [payload.fromOwner, payload.toOwner] catalog attempt.catalog)
  | rows {after : OwnershipCatalog} {fromOwner toOwner : OwnerState}
      (grown : Grown [payload.fromOwner, payload.toOwner] catalog after)
      (foundFrom : findOwner after payload.fromOwner = some fromOwner)
      (foundTo : findOwner after payload.toOwner = some toOwner)
      (fromRevision : fromOwner.revision = payload.expectedFromRevision)
      (toRevision : toOwner.revision = payload.expectedToRevision)
      (outcome : RowsOutcome after payload fromOwner toOwner attempt)

theorem applyTransfer_outcome (hordered : Sorted.Ordered ownerLess OwnerState.owner catalog.owners)
    (payload : ItemTransferPayload) :
    TransferOutcome catalog payload (applyTransfer catalog payload) := by
  unfold applyTransfer
  split
  · exact .full rfl (.refl hordered)
  · next first hfirst =>
      obtain ⟨hgrown, hfrom⟩ := ensureOwner_eq_some hordered hfirst
      have hgrown : Grown [payload.fromOwner, payload.toOwner] catalog first :=
        hgrown.mono (by simp)
      split
      · exact .full rfl hgrown
      · next second hsecond =>
          obtain ⟨hsecond, hto⟩ := ensureOwner_eq_some hgrown.ordered hsecond
          have hgrown := hgrown.trans (hsecond.mono (by simp))
          split
          · next fromOwner toOwner hfoundFrom hfoundTo =>
              split
              · exact .stale (show estale ≠ 0 by decide) hgrown
              · next hcurrent =>
                  simp only [not_or, Decidable.not_not] at hcurrent
                  exact .rows hgrown hfoundFrom hfoundTo hcurrent.1 hcurrent.2
                    (applyRows_outcome _ _ _ _ _ rfl)
          · exact .stale (show eilseq ≠ 0 by decide) hgrown

/-! ## What the result says -/

/-- A result that names a root and as many rows as the payload has. -/
structure Headed (payload : ItemTransferPayload) (result : ItemTransferResult) : Prop where
  root : result.rootItemUid = itemTransferResultRoot payload
  count : result.itemCount = BitVec.ofNat 16 payload.items.length

theorem applyRows_headed {fromOwner toOwner : OwnerState} {result : ItemTransferResult}
    (h : Headed payload result) :
    Headed payload (applyRows catalog payload fromOwner toOwner result).result := by
  have hfinish (items : List FlatfileItemOwnershipRecord) (highest : BitVec 64) :
      Headed payload (finishTransfer catalog payload fromOwner toOwner items
        { result with maxItemRevision := highest }).result := ⟨h.root, h.count⟩
  unfold applyRows
  dsimp only
  split
  · split
    · exact h
    · split
      · exact h
      · split
        · exact h
        · split
          · exact h
          · unfold applyCreation
            dsimp only
            split <;> split <;> exact ⟨h.root, h.count⟩
  · split
    · exact h
    · split
      · exact h
      · split
        · exact ⟨h.root, h.count⟩
        · split
          · exact ⟨h.root, h.count⟩
          · unfold applyMove
            split
            · exact ⟨h.root, h.count⟩
            · exact hfinish _ _

theorem applyTransfer_headed (hordered : Sorted.Ordered ownerLess OwnerState.owner catalog.owners)
    (hfit : OwnersFit catalog payload) : Headed payload (applyTransfer catalog payload).result := by
  obtain ⟨first, second, hfirst, hsecond⟩ := hfit.ensure hordered
  obtain ⟨hgrown, hfrom⟩ := ensureOwner_eq_some hordered hfirst
  obtain ⟨hgrown', toOwner, hto⟩ := ensureOwner_eq_some hgrown.ordered hsecond
  obtain ⟨fromOwner, hfrom⟩ : ∃ fromOwner, findOwner second payload.fromOwner =
      some fromOwner := by
    obtain ⟨entry, hentry⟩ := hfrom
    obtain ⟨hmem, howner⟩ := (findOwner_eq_some hgrown.ordered).mp hentry
    exact ⟨entry, (findOwner_eq_some hgrown'.ordered).mpr ⟨hgrown'.kept entry hmem, howner⟩⟩
  rw [applyTransfer, hfirst]
  dsimp only
  rw [hsecond]
  dsimp only
  rw [hfrom, hto]
  dsimp only
  split
  · exact ⟨rfl, rfl⟩
  · exact applyRows_headed ⟨rfl, rfl⟩

/-! ## The rows and the clocks behind a transfer -/

theorem bumpOwner_owners (owners : List OwnerState) (owner : ItemOwnerIdentity) :
    (bumpOwner owners owner).map OwnerState.owner = owners.map OwnerState.owner := by
  rw [bumpOwner, List.map_map]
  refine List.map_congr_left fun entry _ => ?_
  simp only [Function.comp_apply]
  split <;> rfl

theorem transferOwners_owners (catalog : OwnershipCatalog) (payload : ItemTransferPayload) :
    (transferOwners catalog payload).map OwnerState.owner =
      catalog.owners.map OwnerState.owner := by
  unfold transferOwners
  split
  · exact bumpOwner_owners _ _
  · rw [bumpOwner_owners, bumpOwner_owners]

theorem ordered_of_owners {owners' : List OwnerState}
    (hsame : owners'.map OwnerState.owner = owners.map OwnerState.owner)
    (h : Sorted.Ordered ownerLess OwnerState.owner owners) :
    Sorted.Ordered ownerLess OwnerState.owner owners' := by
  unfold Sorted.Ordered at h ⊢
  rw [← List.pairwise_map (f := OwnerState.owner) (R := fun a b => ownerLess a b = true)] at h ⊢
  rw [hsame]
  exact h

theorem exists_owner_iff {owners' : List OwnerState}
    (hsame : owners'.map OwnerState.owner = owners.map OwnerState.owner)
    (owner : ItemOwnerIdentity) :
    (∃ entry ∈ owners', entry.owner = owner) ↔ ∃ entry ∈ owners, entry.owner = owner := by
  rw [← List.mem_map, ← List.mem_map, hsame]

theorem Valid.with_rows (h : Valid catalog)
    (hsame : owners.map OwnerState.owner = catalog.owners.map OwnerState.owner)
    (hitems : Sorted.Ordered uidLess FlatfileItemOwnershipRecord.itemUid items)
    (hrows : ∀ row ∈ items, RowValid row)
    (howned : ∀ row ∈ items, ∃ owner ∈ catalog.owners, owner.owner = row.owner) :
    Valid { catalog with owners, items } where
  owners := ordered_of_owners hsame h.owners
  items := hitems
  ownersValid entry hentry := by
    obtain ⟨other, hother, heq⟩ :=
      (exists_owner_iff hsame entry.owner).mp ⟨entry, hentry, rfl⟩
    rw [← heq]
    exact h.ownersValid other hother
  rows := hrows
  owned row hrow := (exists_owner_iff hsame row.owner).mpr (howned row hrow)
  operations := h.operations
  unique := h.unique

theorem updateRows_ordered {f : FlatfileItemOwnershipRecord → FlatfileItemOwnershipRecord}
    (h : Sorted.Ordered uidLess FlatfileItemOwnershipRecord.itemUid items)
    (hf : ∀ row, (f row).itemUid = row.itemUid) :
    Sorted.Ordered uidLess FlatfileItemOwnershipRecord.itemUid (updateRows items rows f) := by
  refine h.map fun row _ => ?_
  split
  · exact hf row
  · rfl

theorem mem_updateRows {f : FlatfileItemOwnershipRecord → FlatfileItemOwnershipRecord}
    (h : row ∈ updateRows items rows f) : ∃ old ∈ items, row = f old ∨ row = old := by
  obtain ⟨old, hold, rfl⟩ := List.mem_map.mp h
  refine ⟨old, hold, ?_⟩
  split
  · exact .inl rfl
  · exact .inr rfl

@[simp] theorem moveRow_itemUid (payload : ItemTransferPayload)
    (row : FlatfileItemOwnershipRecord) : (moveRow payload row).itemUid = row.itemUid := by
  unfold moveRow
  split <;> rfl

theorem targetTopology_root_ne_zero {itemUid root parent : BitVec 64}
    (hreason : payload.reason ≠ ItemTransferReason.craft)
    (h : itemTransferTargetTopology payload itemUid = some (root, parent)) : root ≠ 0 := by
  unfold itemTransferTargetTopology targetTopologyFor at h
  split at h
  · cases h
  · dsimp only at h
    split at h
    · cases h
    · obtain ⟨hne, heq⟩ := Option.ite_none_right_eq_some.mp h
      cases heq
      exact hne

theorem RowValid.move (hreason : payload.reason ≠ ItemTransferReason.craft)
    (hto : itemOwnerIdentityValid payload.toOwner = true) (h : RowValid row) :
    RowValid (moveRow payload row) := by
  unfold moveRow
  split
  · exact h
  · next root parent htopology =>
      refine ⟨h.uid, targetTopology_root_ne_zero hreason htopology, h.vnum, hto, ?_, ?_, h.coin⟩
      · dsimp only
        split <;> decide
      · dsimp only
        split <;> decide

theorem moveRow_owner (payload : ItemTransferPayload) (row : FlatfileItemOwnershipRecord) :
    (moveRow payload row).owner = payload.toOwner ∨ (moveRow payload row).owner = row.owner := by
  unfold moveRow
  split
  · exact .inr rfl
  · exact .inl rfl

theorem mem_createRows :
    ∀ {entries : List ItemTransferEntry}, row ∈ (createRows payload entries).1 →
      ∃ entry ∈ entries, ∃ topology,
        itemTransferTargetTopology payload entry.itemUid = some topology ∧
          row = createdRow payload entry topology := by
  intro entries
  induction entries with
  | nil => intro h; cases h
  | cons entry entries ih =>
      intro h
      rw [createRows] at h
      split at h
      · cases h
      · next topology htopology =>
          rcases List.mem_cons.mp h with rfl | hmem
          · exact ⟨entry, List.mem_cons_self .., topology, htopology, rfl⟩
          · obtain ⟨other, hother, hrest⟩ := ih hmem
            exact ⟨other, List.mem_cons_of_mem _ hother, hrest⟩

theorem createRows_uids :
    ∀ {entries : List ItemTransferEntry}, (createRows payload entries).2 = true →
      (createRows payload entries).1.map FlatfileItemOwnershipRecord.itemUid =
        entries.map ItemTransferEntry.itemUid := by
  intro entries
  induction entries with
  | nil => exact fun _ => rfl
  | cons entry entries ih =>
      intro h
      rw [createRows] at h ⊢
      split at h
      · cases h
      · simp only [List.map_cons, createdRow]
        rw [ih h]

theorem createRows_complete :
    ∀ {entries : List ItemTransferEntry},
      (∀ entry ∈ entries, (itemTransferTargetTopology payload entry.itemUid).isSome = true) →
        (createRows payload entries).2 = true := by
  intro entries
  induction entries with
  | nil => exact fun _ => rfl
  | cons entry entries ih =>
      intro h
      obtain ⟨topology, htopology⟩ :=
        Option.isSome_iff_exists.mp (h entry (List.mem_cons_self ..))
      rw [createRows, htopology]
      exact ih fun other hother => h other (List.mem_cons_of_mem _ hother)

theorem sortRows_perm (items : List FlatfileItemOwnershipRecord) :
    (sortRows items).Perm items := List.mergeSort_perm _ _

theorem sortRows_ordered (h : (items.map FlatfileItemOwnershipRecord.itemUid).Nodup) :
    Sorted.Ordered uidLess FlatfileItemOwnershipRecord.itemUid (sortRows items) :=
  Sorted.Ordered.mergeSort uidLess_strictTotal h

theorem nodup_append_rows (hitems : (items.map FlatfileItemOwnershipRecord.itemUid).Nodup)
    (hrows : (rows.map FlatfileItemOwnershipRecord.itemUid).Nodup)
    (hfree : ∀ row ∈ rows, ∀ other ∈ items, other.itemUid ≠ row.itemUid) :
    ((items ++ rows).map FlatfileItemOwnershipRecord.itemUid).Nodup := by
  rw [List.map_append, List.nodup_append]
  refine ⟨hitems, hrows, fun a ha b hb hab => ?_⟩
  obtain ⟨other, hother, rfl⟩ := List.mem_map.mp ha
  obtain ⟨row, hrow, rfl⟩ := List.mem_map.mp hb
  exact hfree row hrow other hother hab

section Checked

variable {catalog after : OwnershipCatalog} {payload : ItemTransferPayload} {version : BitVec 16}

theorem targetRoot_ne_zero (hvalid : Valid catalog)
    (hparent : targetParentMatches catalog payload = true) :
    payload.targetParentItemUid ≠ 0 → payload.targetRootItemUid ≠ 0 := by
  intro hne
  rw [targetParentMatches, if_neg hne] at hparent
  split at hparent
  · cases hparent
  · next parent hfound =>
      simp only [Bool.and_eq_true, beq_iff_eq] at hparent
      rw [← hparent.1.1.1]
      exact (hvalid.rows parent ((findRow_eq_some hvalid.items).mp hfound).1).root

theorem createRows_checked (h : Checked payload version) (hvalid : Valid catalog)
    (hparent : targetParentMatches catalog payload = true) :
    (createRows payload payload.items).2 = true := by
  refine createRows_complete fun entry hentry => ?_
  obtain ⟨root, parent, htopology, _⟩ :=
    h.topology (targetRoot_ne_zero hvalid hparent) hentry
  rw [htopology]
  rfl

theorem nodup_of_ascending {entries : List ItemTransferEntry}
    (h : (entries.map ItemTransferEntry.itemUid).Pairwise (· < ·)) :
    (entries.map ItemTransferEntry.itemUid).Nodup := by
  refine List.Pairwise.imp (fun {a b} hlt heq => ?_) h
  rw [heq] at hlt
  exact BitVec.lt_irrefl _ hlt

theorem Created.nodup (h : Created catalog payload after)
    (hascending : (payload.items.map ItemTransferEntry.itemUid).Pairwise (· < ·))
    (hitems : Sorted.Ordered uidLess FlatfileItemOwnershipRecord.itemUid catalog.items) :
    ((catalog.items ++ (createRows payload payload.items).1).map
      FlatfileItemOwnershipRecord.itemUid).Nodup := by
  refine nodup_append_rows (hitems.nodup uidLess_strictTotal) ?_ fun row hrow other hother => ?_
  · rw [createRows_uids h.complete]
    exact nodup_of_ascending hascending
  · obtain ⟨entry, hentry, topology, _, rfl⟩ := mem_createRows hrow
    exact (findRow_eq_none hitems).mp (h.uidsFree entry hentry) other hother

theorem Created.valid (h : Created catalog payload after) (hchecked : Checked payload version)
    (hreason : payload.reason ≠ ItemTransferReason.craft) (hvalid : Valid catalog)
    {toOwner : OwnerState} (hto : findOwner catalog payload.toOwner = some toOwner) :
    Valid after := by
  obtain ⟨hmemTo, howner⟩ := (findOwner_eq_some hvalid.owners).mp hto
  have hperm := sortRows_perm (catalog.items ++ (createRows payload payload.items).1)
  have hrow {row : FlatfileItemOwnershipRecord}
      (hrow : row ∈ (createRows payload payload.items).1) :
      RowValid row ∧ row.owner = payload.toOwner := by
    obtain ⟨entry, hentry, ⟨root, parent⟩, htopology, rfl⟩ := mem_createRows hrow
    exact ⟨⟨hchecked.itemUid_ne_zero entry hentry,
      targetTopology_root_ne_zero hreason htopology, (hchecked.entry hentry).2.1,
      hchecked.toOwner, show ItemCustodyState.active ≠ ItemCustodyState.absent by decide,
      show ItemCustodyState.active ≤ ItemCustodyState.quarantined by decide, rfl⟩, rfl⟩
  rw [h.result]
  refine hvalid.with_rows (transferOwners_owners ..)
    (sortRows_ordered (h.nodup hchecked.ascending hvalid.items)) (fun row hmem => ?_)
    fun row hmem => ?_
  · rcases List.mem_append.mp (hperm.mem_iff.mp hmem) with hold | hnew
    · exact hvalid.rows row hold
    · exact (hrow hnew).1
  · rcases List.mem_append.mp (hperm.mem_iff.mp hmem) with hold | hnew
    · exact hvalid.owned row hold
    · exact ⟨toOwner, hmemTo, howner.trans (hrow hnew).2.symm⟩

theorem Moved.valid (h : Moved catalog payload after)
    (htoValid : itemOwnerIdentityValid payload.toOwner = true)
    (hreason : payload.reason ≠ ItemTransferReason.craft) (hvalid : Valid catalog)
    {toOwner : OwnerState} (hto : findOwner catalog payload.toOwner = some toOwner) :
    Valid after := by
  obtain ⟨hmemTo, howner⟩ := (findOwner_eq_some hvalid.owners).mp hto
  rw [h.result]
  refine hvalid.with_rows (transferOwners_owners ..)
    (updateRows_ordered hvalid.items (moveRow_itemUid payload)) (fun row hmem => ?_)
    fun row hmem => ?_
  · obtain ⟨old, hold, rfl | rfl⟩ := mem_updateRows hmem
    · exact (hvalid.rows old hold).move hreason htoValid
    · exact hvalid.rows _ hold
  · obtain ⟨old, hold, rfl | rfl⟩ := mem_updateRows hmem
    · rcases moveRow_owner payload old with heq | heq
      · exact ⟨toOwner, hmemTo, howner.trans heq.symm⟩
      · rw [heq]
        exact hvalid.owned old hold
    · exact hvalid.owned _ hold

end Checked

end Duris.Flatfile.Ownership
