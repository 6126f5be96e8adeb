import Duris.Flatfile.ItemRepository
import Duris.Proofs.ItemTransfer

/-!
# Valid catalogues and their file

`valid_catalog` compares neighbours and looks owners up by binary search; `Valid` says
what that comes to for the rows themselves: strict order, an owner for each row, one
receipt per operation. The encoder checks none of it, and the file shows what follows
from it anyway: a valid catalogue that encodes is read back, under the revision it was
encoded with.
-/

namespace Duris.Flatfile.Ownership

open Persistence Player Item Reader Economy

variable {left right : ItemOwnerIdentity}

theorem itemOwnerIdentityEqual_iff : itemOwnerIdentityEqual left right = true ↔ left = right := by
  cases left
  cases right
  simp [itemOwnerIdentityEqual, and_assoc]

theorem itemOwnerIdentityEqual_eq_false :
    itemOwnerIdentityEqual left right = false ↔ left ≠ right := by
  rw [← Bool.not_eq_true, itemOwnerIdentityEqual_iff]

theorem uidLess_strictTotal : StrictTotal uidLess where
  irrefl a := by simp [uidLess]
  trans {a b c} hab hbc := by
    simp only [uidLess, decide_eq_true_eq, BitVec.lt_def] at hab hbc ⊢
    omega
  eq_of_not_less {a b} hab hba := by
    simp only [uidLess, decide_eq_false_iff_not, BitVec.lt_def] at hab hba
    exact BitVec.eq_of_toNat_eq (by omega)

theorem ownerLess_iff :
    ownerLess left right = true ↔ left.type.toNat < right.type.toNat ∨
      (left.type = right.type ∧ (left.id.toNat < right.id.toNat ∨
        (left.id = right.id ∧ left.contextId.toNat < right.contextId.toNat))) := by
  unfold ownerLess
  split
  · next htype => simp [htype, BitVec.lt_def]
  · next htype =>
      rw [Decidable.not_not] at htype
      split
      · next hid => simp [htype, hid, BitVec.lt_def]
      · next hid =>
          rw [Decidable.not_not] at hid
          simp [htype, hid, BitVec.lt_def]

theorem ownerLess_strictTotal : StrictTotal ownerLess where
  irrefl a := by simp [ownerLess]
  trans {a b c} hab hbc := by
    rw [ownerLess_iff] at hab hbc ⊢
    rcases hab with hab | ⟨htype, hab⟩ <;> rcases hbc with hbc | ⟨htype', hbc⟩
    · exact .inl (by omega)
    · rw [htype'] at hab
      exact .inl hab
    · rw [← htype] at hbc
      exact .inl hbc
    · refine .inr ⟨htype.trans htype', ?_⟩
      rcases hab with hab | ⟨hid, hab⟩ <;> rcases hbc with hbc | ⟨hid', hbc⟩
      · exact .inl (by omega)
      · rw [hid'] at hab
        exact .inl hab
      · rw [← hid] at hbc
        exact .inl hbc
      · exact .inr ⟨hid.trans hid', by omega⟩
  eq_of_not_less {a b} hab hba := by
    rw [← Bool.not_eq_true, ownerLess_iff] at hab hba
    obtain ⟨type, id, contextId⟩ := a
    obtain ⟨type', id', contextId'⟩ := b
    simp only [not_or, not_and] at hab hba
    have htype : type = type' := BitVec.eq_of_toNat_eq (by omega)
    subst htype
    have hid : id = id' := BitVec.eq_of_toNat_eq (by have := hab.2 rfl; have := hba.2 rfl; omega)
    subst hid
    have hcontext : contextId = contextId' := BitVec.eq_of_toNat_eq (by
      have := (hab.2 rfl).2 rfl
      have := (hba.2 rfl).2 rfl
      omega)
    rw [hcontext]

structure RowValid (entry : FlatfileItemOwnershipRecord) : Prop where
  uid : entry.itemUid ≠ 0
  root : entry.rootItemUid ≠ 0
  vnum : 0 < entry.vnum.toInt
  owner : itemOwnerIdentityValid entry.owner = true
  present : entry.state ≠ ItemCustodyState.absent
  known : entry.state ≤ ItemCustodyState.quarantined
  coin : validCoinPayload entry = true

/-- What `valid_catalog` asks of a catalogue. -/
structure Valid (catalog : OwnershipCatalog) : Prop where
  owners : Sorted.Ordered ownerLess OwnerState.owner catalog.owners
  items : Sorted.Ordered uidLess FlatfileItemOwnershipRecord.itemUid catalog.items
  ownersValid : ∀ entry ∈ catalog.owners, itemOwnerIdentityValid entry.owner = true
  rows : ∀ entry ∈ catalog.items, RowValid entry
  owned : ∀ entry ∈ catalog.items, ∃ owner ∈ catalog.owners, owner.owner = entry.owner
  operations : ∀ entry ∈ catalog.operations, validOperation entry = true
  unique : (catalog.operations.map OperationState.operationId).Nodup

section Lookup

variable {catalog : OwnershipCatalog}

theorem findOwner_eq_lookup (h : Sorted.Ordered ownerLess OwnerState.owner catalog.owners)
    (owner : ItemOwnerIdentity) :
    findOwner catalog owner = Keyed.lookup OwnerState.owner catalog.owners owner :=
  h.find_eq_lookup ownerLess_strictTotal owner

theorem findRow_eq_lookup
    (h : Sorted.Ordered uidLess FlatfileItemOwnershipRecord.itemUid catalog.items)
    (itemUid : BitVec 64) :
    findRow catalog itemUid =
      Keyed.lookup FlatfileItemOwnershipRecord.itemUid catalog.items itemUid :=
  h.find_eq_lookup uidLess_strictTotal itemUid

theorem findOwner_eq_some (h : Sorted.Ordered ownerLess OwnerState.owner catalog.owners)
    {owner : ItemOwnerIdentity} {entry : OwnerState} :
    findOwner catalog owner = some entry ↔ entry ∈ catalog.owners ∧ entry.owner = owner := by
  rw [findOwner_eq_lookup h]
  constructor
  · exact Keyed.mem_of_lookup
  · rintro ⟨hmem, rfl⟩
    exact Keyed.lookup_of_mem (h.nodup ownerLess_strictTotal) hmem

theorem findOwner_eq_none (h : Sorted.Ordered ownerLess OwnerState.owner catalog.owners)
    {owner : ItemOwnerIdentity} :
    findOwner catalog owner = none ↔ ∀ entry ∈ catalog.owners, entry.owner ≠ owner := by
  rw [findOwner_eq_lookup h, Keyed.lookup_eq_none]

theorem findRow_eq_some
    (h : Sorted.Ordered uidLess FlatfileItemOwnershipRecord.itemUid catalog.items)
    {itemUid : BitVec 64} {entry : FlatfileItemOwnershipRecord} :
    findRow catalog itemUid = some entry ↔ entry ∈ catalog.items ∧ entry.itemUid = itemUid := by
  rw [findRow_eq_lookup h]
  constructor
  · exact Keyed.mem_of_lookup
  · rintro ⟨hmem, rfl⟩
    exact Keyed.lookup_of_mem (h.nodup uidLess_strictTotal) hmem

theorem findRow_eq_none
    (h : Sorted.Ordered uidLess FlatfileItemOwnershipRecord.itemUid catalog.items)
    {itemUid : BitVec 64} :
    findRow catalog itemUid = none ↔ ∀ entry ∈ catalog.items, entry.itemUid ≠ itemUid := by
  rw [findRow_eq_lookup h, Keyed.lookup_eq_none]

end Lookup

variable {catalog : OwnershipCatalog} {sha256 : Bytes → Vector UInt8 32} {revision : BitVec 64}
  {bytes : Bytes}

theorem validRow_iff (h : Sorted.Ordered ownerLess OwnerState.owner catalog.owners)
    {entry : FlatfileItemOwnershipRecord} :
    validRow catalog entry = true ↔
      RowValid entry ∧ ∃ owner ∈ catalog.owners, owner.owner = entry.owner := by
  have howned : (findOwner catalog entry.owner).isSome = true ↔
      ∃ owner ∈ catalog.owners, owner.owner = entry.owner := by
    rw [Option.isSome_iff_exists]
    exact exists_congr fun _ => findOwner_eq_some h
  simp only [validRow, Bool.and_eq_true, bne_iff_ne, decide_eq_true_eq, howned, and_assoc]
  constructor
  · rintro ⟨huid, hroot, hvnum, howner, hpresent, hknown, howned, hcoin⟩
    exact ⟨⟨huid, hroot, hvnum, howner, hpresent, hknown, hcoin⟩, howned⟩
  · rintro ⟨⟨huid, hroot, hvnum, howner, hpresent, hknown, hcoin⟩, howned⟩
    exact ⟨huid, hroot, hvnum, howner, hpresent, hknown, howned, hcoin⟩

theorem validCatalog_iff : validCatalog catalog = true ↔ Valid catalog := by
  have howners := @Sorted.ordered_iff _ _ _ OwnerState.owner ownerLess_strictTotal
    catalog.owners
  have hitems := @Sorted.ordered_iff _ _ _ FlatfileItemOwnershipRecord.itemUid
    uidLess_strictTotal catalog.items
  simp only [validCatalog, Bool.and_eq_true, decide_eq_true_eq, List.all_eq_true,
    itemOwnerIdentityEqual_eq_false, and_assoc]
  constructor
  · rintro ⟨hsorted, hrows, hvalid, hdistinct, hrow, huids, hoperation, hunique⟩
    have hordered := howners.mp ⟨hsorted, hdistinct⟩
    exact ⟨hordered, hitems.mp ⟨hrows, huids⟩, hvalid,
      fun entry hentry => ((validRow_iff hordered).mp (hrow entry hentry)).1,
      fun entry hentry => ((validRow_iff hordered).mp (hrow entry hentry)).2, hoperation, hunique⟩
  · intro h
    obtain ⟨hsorted, hdistinct⟩ := howners.mpr h.owners
    obtain ⟨hrows, huids⟩ := hitems.mpr h.items
    exact ⟨hsorted, hrows, h.ownersValid, hdistinct,
      fun entry hentry => (validRow_iff h.owners).mpr ⟨h.rows entry hentry, h.owned entry hentry⟩,
      huids, h.operations, h.unique⟩

theorem readOwnerState_append (entry : OwnerState) (rest : Bytes) :
    readOwnerState (encodeOwnerState entry ++ rest) = .ok (entry, rest) := by
  have howner := decodeOwner_eq_ok.mpr
    (rfl : encodeOwner entry.owner ++ (appendLe entry.revision ++ rest) = _)
  rw [readOwnerState, encodeOwnerState, List.append_assoc, bind_run howner, field_bind]
  rfl

theorem readSince_current {α : Type} {since : BitVec 32} (h : since ≤ ownershipFormatVersion)
    (reader : Reader Unit α) (before : α) :
    readSince since ownershipFormatVersion reader before = reader :=
  if_pos h

theorem readRecord_append {entry : FlatfileItemOwnershipRecord}
    (hcoin : entry.coinPayload.length ≤ itemTransferItemBlobMaxBytes) (rest : Bytes) :
    readRecord ownershipFormatVersion (encodeRecord entry ++ rest) = .ok (entry, rest) := by
  have howner (rest : Bytes) := decodeOwner_eq_ok.mpr (rfl : encodeOwner entry.owner ++ rest = _)
  have hsection : readSection itemTransferItemBlobMaxBytes
      (encodeSection entry.coinPayload ++ rest) = .ok (entry.coinPayload, rest) :=
    readSection_append hcoin (by decide) rest
  simp only [encodeRecord, List.append_assoc]
  rw [readRecord, field_bind, field_bind, field_bind, bind_run (howner _), field_bind, field_bind,
    field_bind, readSince_current (by decide), bind_run hsection]
  rfl

theorem readFlag_append (flag : Bool) (rest : Bytes) :
    readFlag ((if flag then 1 else 0) :: rest) = .ok (flag, rest) := by
  have hbyte : (if flag then 1 else 0) :: rest =
      appendLe (if flag then (1 : BitVec 8) else 0) ++ rest := by
    cases flag <;> rfl
  rw [hbyte, readFlag, field_bind, require_bind (by cases flag <;> decide)]
  cases flag <;> rfl

theorem readCoin_append
    (coin : Option { encoded : Bytes // encoded.length = coinTransferResultBytes })
    (rest : Bytes) : readCoin (encodeCoin coin ++ rest) = .ok (coin, rest) := by
  have hflag (flag : Bool) (rest : Bytes) := readFlag_append flag rest
  cases coin with
  | none =>
      have hzero : readFlag (0 :: rest) = .ok (false, rest) := hflag false rest
      rw [readCoin, encodeCoin, List.singleton_append, bind_run hzero]
      rfl
  | some encoded =>
      have hone : readFlag (1 :: (encoded.1 ++ rest)) = .ok (true, encoded.1 ++ rest) :=
        hflag true _
      rw [readCoin, encodeCoin, List.cons_append, bind_run hone, if_pos rfl,
        raw_bind encoded.2]
      rfl

theorem readOperation_append (entry : OperationState) (rest : Bytes) :
    readOperation ownershipFormatVersion (encodeOperation entry ++ rest) = .ok (entry, rest) := by
  simp only [encodeOperation, List.append_assoc]
  rw [readOperation, raw_bind entry.operationId.size_eq, raw_bind entry.commandDigest.2, field_bind,
    field_bind, field_bind, field_bind, field_bind, field_bind, readSince_current (by decide),
    field_bind, readSince_current (by decide), List.singleton_append,
    bind_run (readFlag_append _ _), readSince_current (by decide), bind_run (readCoin_append _ _)]
  rfl

theorem encodeCatalog_eq_some (h : encodeCatalog sha256 catalog revision = some bytes) :
    revision ≠ 0 ∧ catalog.owners.length ≤ ownershipMaximumEntries ∧
      catalog.items.length ≤ ownershipMaximumEntries ∧
      catalog.operations.length ≤ ownershipMaximumOperations ∧
      (∀ entry ∈ catalog.items, entry.coinPayload.length ≤ itemTransferItemBlobMaxBytes) ∧
      (encodeRows catalog).length ≤ ownershipMaximumBytes ∧
      bytes = ownershipMagic ++ encodeCatalogHeader sha256 revision (encodeRows catalog) ++
        encodeRows catalog := by
  unfold encodeCatalog at h
  split at h
  · cases h
  · next hlimits =>
      dsimp only at h
      split at h
      · cases h
      · next hsize =>
          simp only [not_or, List.any_eq_true, decide_eq_true_eq, not_exists, not_and,
            Nat.not_lt] at hlimits hsize
          obtain ⟨hrevision, howners, hitems, hoperations, hcoins⟩ := hlimits
          exact ⟨hrevision, howners, hitems, hoperations, hcoins, hsize.1,
            (Option.some.inj h).symm⟩

theorem readRows_append (howners : catalog.owners.length ≤ ownershipMaximumEntries)
    (hitems : catalog.items.length ≤ ownershipMaximumEntries)
    (hoperations : catalog.operations.length ≤ ownershipMaximumOperations)
    (hcoins : ∀ entry ∈ catalog.items, entry.coinPayload.length ≤ itemTransferItemBlobMaxBytes)
    (rest : Bytes) :
    readRows ownershipFormatVersion revision (encodeRows catalog ++ rest) =
      .ok ({ catalog with revision }, rest) := by
  have howner := @toNat_ofNat_of_le _ _ 32 howners (by decide)
  have hitem := @toNat_ofNat_of_le _ _ 32 hitems (by decide)
  have hoperation := @toNat_ofNat_of_le _ _ 32 hoperations (by decide)
  simp only [encodeRows, encodeCounts, List.append_assoc]
  rw [readRows, field_bind, field_bind, field_bind,
    require_bind (by rw [howner, hitem, hoperation]; exact ⟨howners, hitems, hoperations⟩), howner,
    hitem, hoperation, bind_run (many_run (fun entry _ => readOwnerState_append entry) _),
    bind_run (many_run (fun entry hentry => readRecord_append (hcoins entry hentry)) _),
    bind_run (many_run (fun entry _ => readOperation_append entry) _)]
  rfl

theorem decodeCatalog_file (h : encodeCatalog sha256 catalog revision = some bytes) :
    decodeCatalog sha256 bytes =
      if validCatalog { catalog with revision } then some { catalog with revision } else none := by
  obtain ⟨hrevision, howners, hitems, hoperations, hcoins, hsize, rfl⟩ := encodeCatalog_eq_some h
  have hlength : (BitVec.ofNat 32 (encodeRows catalog).length).toNat =
      (encodeRows catalog).length := toNat_ofNat_of_le hsize (by decide)
  have hrows : whole (readRows ownershipFormatVersion revision) (encodeRows catalog) =
      some { catalog with revision } := by
    have := @readRows_append _ revision howners hitems hoperations hcoins []
    rw [List.append_nil] at this
    exact whole_eq_some.mpr this
  have hread : whole (readCatalog sha256)
      (ownershipMagic ++ encodeCatalogHeader sha256 revision (encodeRows catalog) ++
        encodeRows catalog) = some { catalog with revision } := by
    refine whole_eq_some.mpr ?_
    simp only [encodeCatalogHeader, List.append_assoc]
    rw [readCatalog, raw_bind rfl, require_bind rfl, field_bind, field_bind, field_bind,
      raw_bind (by simp), bind_run (takeRest_eq_ok.mpr ⟨rfl, rfl⟩),
      require_bind ⟨by decide, by decide, hrevision, hlength, rfl⟩]
    rw [hrows]
    rfl
  rw [decodeCatalog, hread]

theorem decodeCatalog_encode (hvalid : Valid catalog)
    (h : encodeCatalog sha256 catalog revision = some bytes) :
    decodeCatalog sha256 bytes = some { catalog with revision } := by
  have hvalid' : Valid { catalog with revision } := ⟨hvalid.owners, hvalid.items,
    hvalid.ownersValid, hvalid.rows, hvalid.owned, hvalid.operations, hvalid.unique⟩
  rw [decodeCatalog_file h, if_pos (validCatalog_iff.mpr hvalid')]

theorem decodeCatalog_valid (h : decodeCatalog sha256 bytes = some catalog) : Valid catalog := by
  unfold decodeCatalog at h
  split at h
  · cases h
  · next decoded _ =>
      split at h
      · next hvalid =>
          cases h
          exact validCatalog_iff.mp hvalid
      · cases h

end Duris.Flatfile.Ownership
