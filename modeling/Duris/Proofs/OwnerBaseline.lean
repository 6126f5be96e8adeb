import Duris.Flatfile.OwnerBaseline
import Duris.Lib.Sha256
import Duris.Proofs.CollectorDetach
import Duris.Proofs.ItemRepository

/-!
# When a baseline is safe

The rows of a baseline are checked against one another and against nothing else, and what
is written is not checked again. `BaselineSound` is what the checks leave open: that no
other owner holds one of the uids, that a coin payload is one, and that the parents make
no circle. With it the file reads back, with the rows in it and a forest under the owner;
without it the file does not, or the rows are no forest. A write that fails behind its
rename is answered as one that changed nothing.
-/

namespace Duris.Flatfile.Ownership

open Persistence Player Item Economy Relation Forest

/-! ## The list -/

structure BaselineRow (items : List FlatfileItemOwnershipRecord) (owner : ItemOwnerIdentity)
    (entry : FlatfileItemOwnershipRecord) : Prop where
  uid : entry.itemUid ≠ 0
  root : entry.rootItemUid ≠ 0
  vnum : 0 < entry.vnum.toInt
  state : entry.state = ItemCustodyState.active
  owner : entry.owner = owner
  below : entry.parentItemUid ≠ 0 → ∃ parent ∈ items, parent.itemUid = entry.parentItemUid ∧
    parent.rootItemUid = entry.rootItemUid
  top : entry.parentItemUid = 0 → entry.rootItemUid = entry.itemUid

/-- What the checks in front of the lock say. -/
structure BaselineList (owner : ItemOwnerIdentity) (items : List FlatfileItemOwnershipRecord) :
    Prop where
  valid : itemOwnerIdentityValid owner = true
  ordered : Sorted.Ordered uidLess FlatfileItemOwnershipRecord.itemUid items
  rows : ∀ entry ∈ items, BaselineRow items owner entry

variable {items : List FlatfileItemOwnershipRecord} {owner : ItemOwnerIdentity}

theorem baselineRow_row {entry : FlatfileItemOwnershipRecord}
    (hordered : Sorted.Ordered uidLess FlatfileItemOwnershipRecord.itemUid items)
    (h : baselineRow items owner entry = true) : BaselineRow items owner entry := by
  simp only [baselineRow, Bool.and_eq_true, bne_iff_ne, decide_eq_true_eq, beq_iff_eq,
    itemOwnerIdentityEqual_iff] at h
  obtain ⟨⟨⟨⟨⟨⟨huid, hroot⟩, hvnum⟩, -⟩, hstate⟩, howner⟩, hparent⟩ := h
  refine ⟨huid, hroot, hvnum, hstate, howner, fun hbelow => ?_, fun htop => ?_⟩
  · rw [if_pos hbelow, hordered.find_eq_lookup uidLess_strictTotal] at hparent
    split at hparent
    · cases hparent
    · next parent hfound =>
        obtain ⟨hmem, hkey⟩ := Keyed.mem_of_lookup hfound
        exact ⟨parent, hmem, hkey, beq_iff_eq.mp hparent⟩
  · rw [if_neg (not_not.mpr htop)] at hparent
    exact beq_iff_eq.mp hparent

theorem baselineList_list (h : baselineList owner items = true) : BaselineList owner items := by
  simp only [baselineList, Bool.and_eq_true, decide_eq_true_eq, List.all_eq_true] at h
  obtain ⟨⟨⟨⟨howner, -⟩, hsorted⟩, hrows⟩, hdistinct⟩ := h
  have hordered := (@Sorted.ordered_iff _ _ _ FlatfileItemOwnershipRecord.itemUid
    uidLess_strictTotal items).mp ⟨hsorted, hdistinct⟩
  exact ⟨howner, hordered, fun entry hentry => baselineRow_row hordered (hrows entry hentry)⟩

theorem BaselineList.nodup (h : BaselineList owner items) :
    (items.map FlatfileItemOwnershipRecord.itemUid).Nodup := h.ordered.nodup uidLess_strictTotal

/-- What the checks of a list leave open. -/
structure BaselineSound (before : OwnershipCatalog) (items : List FlatfileItemOwnershipRecord) :
    Prop where
  fresh : ∀ entry ∈ items, ∀ other ∈ before.items, other.itemUid ≠ entry.itemUid
  coins : ∀ entry ∈ items, validCoinPayload entry = true
  acyclic : Acyclic (ParentLink items)

/-! ## A call that writes -/

/-- What a call that comes to its write has passed, and what it writes. -/
structure Establishes (sha256 : Bytes → Vector UInt8 32) (before : OwnershipCatalog)
    (owner : ItemOwnerIdentity) (items : List FlatfileItemOwnershipRecord)
    (ensured : OwnershipCatalog) (bytes : Bytes) : Prop where
  checked : baselineList owner items = true
  absent : baselineThere before owner items = false
  unused : ownerUsed before owner = false
  room : ¬(ownershipMaximumEntries - items.length < before.items.length ∨
    before.revision = BitVec.allOnes 64)
  ensure : ensureOwner before owner = some ensured
  encode : encodeCatalog sha256 (withBaseline ensured owner items) (before.revision + 1) =
    some bytes

/-- The call comes to its write. -/
def Writes (sha256 : Bytes → Vector UInt8 32) (front : BaselineFront)
    (before : OwnershipCatalog) (owner : ItemOwnerIdentity)
    (items : List FlatfileItemOwnershipRecord) : Prop :=
  front = .ready ∧ ∃ ensured bytes, Establishes sha256 before owner items ensured bytes

def establishedCatalog (before ensured : OwnershipCatalog) (owner : ItemOwnerIdentity)
    (items : List FlatfileItemOwnershipRecord) : OwnershipCatalog :=
  { withBaseline ensured owner items with revision := before.revision + 1 }

section Established

variable {sha256 : Bytes → Vector UInt8 32} {before ensured : OwnershipCatalog}
  {owner : ItemOwnerIdentity} {items : List FlatfileItemOwnershipRecord} {bytes : Bytes}
  {store : Option Bytes}

theorem Establishes.list (h : Establishes sha256 before owner items ensured bytes) :
    BaselineList owner items := baselineList_list h.checked

theorem Establishes.answer (h : Establishes sha256 before owner items ensured bytes)
    (hload : loadCatalog sha256 store = some before) (write : StepOutcome) :
    flatfileItemRepositoryEstablishOwner sha256 .ready write store owner items =
      writeBaseline store bytes write := by
  unfold flatfileItemRepositoryEstablishOwner
  rw [if_neg (by rw [h.checked]; decide), hload]
  dsimp only
  rw [if_neg (by rw [h.absent]; decide), if_neg (by rw [h.unused]; decide), if_neg h.room,
    h.ensure]
  dsimp only
  rw [h.encode]

/-- A call that does not come to its write leaves the store as it is. -/
theorem establishOwner_refuses {front : BaselineFront}
    (hload : loadCatalog sha256 store = some before) (write : StepOutcome)
    (hnone : ¬Writes sha256 front before owner items) :
    ∃ answer, answer ≠ .applied ∧
      flatfileItemRepositoryEstablishOwner sha256 front write store owner items =
        (store, some answer) := by
  unfold flatfileItemRepositoryEstablishOwner
  rw [hload]
  split
  · exact ⟨_, by decide, rfl⟩
  · next hchecked =>
      cases front with
      | ioError => exact ⟨_, by decide, rfl⟩
      | invalid => exact ⟨_, by decide, rfl⟩
      | ready =>
          dsimp only
          split
          · exact ⟨_, by decide, rfl⟩
          · next habsent =>
              split
              · exact ⟨_, by decide, rfl⟩
              · next hunused =>
                  split
                  · exact ⟨_, by decide, rfl⟩
                  · next hroom =>
                      cases hensure : ensureOwner before owner with
                      | none => exact ⟨_, by decide, rfl⟩
                      | some ensured =>
                          dsimp only
                          cases hencode : encodeCatalog sha256
                              (withBaseline ensured owner items) (before.revision + 1) with
                          | none => exact ⟨_, by decide, rfl⟩
                          | some bytes =>
                              exact absurd ⟨rfl, ensured, bytes, eq_true_of_ne_false hchecked,
                                eq_false_of_ne_true habsent, eq_false_of_ne_true hunused, hroom,
                                hensure, hencode⟩ hnone

section

variable (h : Establishes sha256 before owner items ensured bytes)

include h

theorem Establishes.grown (hvalid : Valid before) :
    Grown [owner] before ensured ∧ ∃ entry, findOwner ensured owner = some entry :=
  ensureOwner_eq_some hvalid.owners h.ensure

theorem Establishes.none_before :
    ∀ entry ∈ before.items, entry.owner ≠ owner := by
  intro entry hentry howner
  have hunused := h.unused
  simp only [ownerUsed, Bool.or_eq_false_iff, Bool.not_eq_false', List.isEmpty_iff,
    existingRows, List.filter_eq_nil_iff, itemOwnerIdentityEqual_iff] at hunused
  exact hunused.2 entry hentry howner

theorem Establishes.items_perm (hvalid : Valid before) :
    (establishedCatalog before ensured owner items).items.Perm (before.items ++ items) := by
  have hitems := (h.grown hvalid).1.items
  refine (sortRows_perm _).trans ?_
  rw [hitems]

theorem Establishes.mem_items (hvalid : Valid before) {row : FlatfileItemOwnershipRecord} :
    row ∈ (establishedCatalog before ensured owner items).items ↔
      row ∈ before.items ∨ row ∈ items := by
  rw [(h.items_perm hvalid).mem_iff, List.mem_append]

/-- The uids of the file are apart exactly when nobody else holds one of the list. -/
theorem Establishes.nodup_iff (hvalid : Valid before) :
    ((establishedCatalog before ensured owner items).items.map
        FlatfileItemOwnershipRecord.itemUid).Nodup ↔
      ∀ entry ∈ items, ∀ other ∈ before.items, other.itemUid ≠ entry.itemUid := by
  rw [((h.items_perm hvalid).map _).nodup_iff]
  constructor
  · intro hnodup entry hentry other hother heq
    rw [List.map_append, List.nodup_append] at hnodup
    exact hnodup.2.2 _ (List.mem_map_of_mem hother) _ (List.mem_map_of_mem hentry) heq
  · intro hfresh
    exact nodup_append_rows (hvalid.items.nodup uidLess_strictTotal) h.list.nodup hfresh

theorem Establishes.owners (hvalid : Valid before) {entry : OwnerState} :
    entry ∈ (establishedCatalog before ensured owner items).owners ↔
      entry = ⟨owner, 1⟩ ∨ entry.owner ≠ owner ∧ entry ∈ before.owners := by
  obtain ⟨hgrown, stored, hstored⟩ := h.grown hvalid
  obtain ⟨hmem, howner⟩ := (findOwner_eq_some hgrown.ordered).mp hstored
  simp only [establishedCatalog, withBaseline, List.mem_map]
  constructor
  · rintro ⟨old, hold, rfl⟩
    by_cases hsame : old.owner = owner
    · rw [if_pos hsame, ← hsame]
      exact .inl rfl
    · rw [if_neg hsame]
      refine .inr ⟨hsame, (hgrown.added old hold).resolve_right fun ⟨hnamed, _⟩ => ?_⟩
      exact hsame (List.mem_singleton.mp hnamed)
  · rintro (rfl | ⟨hne, hold⟩)
    · exact ⟨stored, hmem, by rw [if_pos howner, ← howner]⟩
    · exact ⟨entry, hgrown.kept entry hold, if_neg hne⟩

theorem Establishes.owners_ordered (hvalid : Valid before) :
    Sorted.Ordered ownerLess OwnerState.owner
      (establishedCatalog before ensured owner items).owners := by
  refine Sorted.Ordered.map (h.grown hvalid).1.ordered fun entry _ => ?_
  split <;> rfl

/-- The file is accepted exactly when the uids are apart and the coin payloads are some. -/
theorem Establishes.valid_iff (hvalid : Valid before) :
    Valid (establishedCatalog before ensured owner items) ↔
      (∀ entry ∈ items, ∀ other ∈ before.items, other.itemUid ≠ entry.itemUid) ∧
        ∀ entry ∈ items, validCoinPayload entry = true := by
  constructor
  · intro hafter
    refine ⟨(h.nodup_iff hvalid).mp (hafter.items.nodup uidLess_strictTotal),
      fun entry hentry => ?_⟩
    exact (hafter.rows entry ((h.mem_items hvalid).mpr (.inr hentry))).coin
  · rintro ⟨hfresh, hcoins⟩
    have hgrown := (h.grown hvalid).1
    refine ⟨h.owners_ordered hvalid, ?_, fun entry hentry => ?_, fun entry hentry => ?_,
      fun entry hentry => ?_, ?_, ?_⟩
    · refine sortRows_ordered ?_
      rw [hgrown.items]
      exact nodup_append_rows (hvalid.items.nodup uidLess_strictTotal) h.list.nodup hfresh
    · rcases (h.owners hvalid).mp hentry with rfl | ⟨-, hold⟩
      · exact h.list.valid
      · exact hvalid.ownersValid entry hold
    · rcases (h.mem_items hvalid).mp hentry with hold | hnew
      · exact hvalid.rows entry hold
      · have hrow := h.list.rows entry hnew
        refine ⟨hrow.uid, hrow.root, hrow.vnum, hrow.owner ▸ h.list.valid, ?_, ?_,
          hcoins entry hnew⟩
        · rw [hrow.state]
          decide
        · rw [hrow.state]
          decide
    · rcases (h.mem_items hvalid).mp hentry with hold | hnew
      · obtain ⟨state, hstate, heq⟩ := hvalid.owned entry hold
        exact ⟨state, (h.owners hvalid).mpr (.inr ⟨heq ▸ h.none_before entry hold, hstate⟩), heq⟩
      · exact ⟨_, (h.owners hvalid).mpr (.inl rfl), (h.list.rows entry hnew).owner.symm⟩
    · exact hgrown.operations ▸ hvalid.operations
    · exact hgrown.operations ▸ hvalid.unique

end

/-! ## The forest under the owner -/

/-- The way up from a row ends at the row of its root, which is there. -/
def RootedAt (rows : List FlatfileItemOwnershipRecord) (row : FlatfileItemOwnershipRecord) :
    Prop :=
  ∃ root ∈ rows, root.itemUid = row.rootItemUid ∧ root.parentItemUid = 0 ∧
    root.owner = row.owner ∧ ReflTransGen (ParentLink rows) row.itemUid root.itemUid

/-- What the file should be: the rows and owners there were, the rows given, and the
owner at revision one; no uid twice; and a forest under the owner. -/
structure Established (before : OwnershipCatalog) (owner : ItemOwnerIdentity)
    (items : List FlatfileItemOwnershipRecord) (after : OwnershipCatalog) : Prop where
  revision : after.revision = before.revision + 1
  operations : after.operations = before.operations
  rows : after.items.Perm (before.items ++ items)
  owned : findOwner after owner = some ⟨owner, 1⟩
  others : ∀ other, other ≠ owner → findOwner after other = findOwner before other
  unique : (after.items.map FlatfileItemOwnershipRecord.itemUid).Nodup
  forest : ∀ row ∈ after.items, row.owner = owner → RootedAt after.items row

variable {rows : List FlatfileItemOwnershipRecord}

/-- With the uids apart, the links up from a row of the list are those of the list. -/
theorem parentLink_of_append (hunique : (rows.map FlatfileItemOwnershipRecord.itemUid).Nodup)
    (hsub : ∀ entry ∈ items, entry ∈ rows) {entry : FlatfileItemOwnershipRecord}
    (hentry : entry ∈ items) {p : BitVec 64} (hlink : ParentLink rows entry.itemUid p) :
    entry.parentItemUid = p ∧ ParentLink items entry.itemUid p := by
  obtain ⟨other, hother, huid, hparent, hnonzero⟩ := hlink
  have hsame := Keyed.eq_of_key_eq hunique hother (hsub entry hentry) huid
  subst hsame
  exact ⟨hparent, other, hentry, rfl, hparent, hnonzero⟩

theorem BaselineList.rooted (h : BaselineList owner items) (hacyclic : Acyclic (ParentLink items))
    {entry : FlatfileItemOwnershipRecord} (hentry : entry ∈ items) : RootedAt items entry := by
  -- the induction is on a bound for the links up from the row
  have hgrounded : ∀ n, ∀ entry ∈ items,
      (∀ m k, Path (ParentLink items) m entry.itemUid k → m < n) → RootedAt items entry := by
    intro n
    induction n with
    | zero =>
        intro entry _ hbound
        exact absurd (hbound 0 _ (.refl _)) (Nat.not_lt_zero _)
    | succ n ih =>
        intro entry hentry hbound
        have hrow := h.rows entry hentry
        by_cases htop : entry.parentItemUid = 0
        · exact ⟨entry, hentry, (hrow.top htop).symm, htop, rfl, .refl⟩
        · obtain ⟨parent, hparent, huid, hroot⟩ := hrow.below htop
          have hlink : ParentLink items entry.itemUid parent.itemUid :=
            ⟨entry, hentry, rfl, huid.symm, huid ▸ htop⟩
          obtain ⟨root, hmem, hkey, hzero, howner, hreach⟩ := ih parent hparent fun m k hpath =>
            Nat.lt_of_succ_lt_succ (hbound (m + 1) k (.step hlink hpath))
          exact ⟨root, hmem, hkey.trans hroot, hzero,
            howner.trans ((h.rows parent hparent).owner.trans hrow.owner.symm),
            .head hlink hreach⟩
  refine hgrounded (items.length + 1) entry hentry fun m k hpath => ?_
  have hnodes (k p : BitVec 64) (hlink : ParentLink items k p) :
      k ∈ items.map FlatfileItemOwnershipRecord.itemUid := by
    obtain ⟨row, hrow, huid, _⟩ := hlink
    exact List.mem_map.mpr ⟨row, hrow, huid⟩
  have hlength := hpath.length_le hacyclic hnodes
  rw [List.length_map] at hlength
  omega

theorem RootedAt.mono {row : FlatfileItemOwnershipRecord} (h : RootedAt items row)
    (hsub : ∀ entry ∈ items, entry ∈ rows) : RootedAt rows row := by
  obtain ⟨root, hroot, hkey, hzero, howner, hreach⟩ := h
  have hlinks (k p : BitVec 64) (hlink : ParentLink items k p) : ParentLink rows k p := by
    obtain ⟨other, hother, hrest⟩ := hlink
    exact ⟨other, hsub other hother, hrest⟩
  exact ⟨root, hsub root hroot, hkey, hzero, howner, ReflTransGen.mono hlinks _ _ hreach⟩

theorem BaselineList.acyclic_of_rooted (h : BaselineList owner items)
    (hunique : (rows.map FlatfileItemOwnershipRecord.itemUid).Nodup)
    (hsub : ∀ entry ∈ items, entry ∈ rows) (hrooted : ∀ entry ∈ items, RootedAt rows entry) :
    Acyclic (ParentLink items) := by
  have hitems : (items.map FlatfileItemOwnershipRecord.itemUid).Nodup := h.nodup
  refine acyclic_of_grounded (ParentLink.unique hitems) fun k => ?_
  by_cases hrow : ∃ entry ∈ items, entry.itemUid = k
  · obtain ⟨entry, hentry, rfl⟩ := hrow
    obtain ⟨root, hroot, -, hzero, -, hreach⟩ := hrooted entry hentry
    generalize huid : entry.itemUid = k at hreach
    induction hreach using ReflTransGen.head_induction_on generalizing entry with
    | refl =>
        refine .of_top fun p ⟨other, hother, hkey, hparent, hnonzero⟩ => ?_
        rw [Keyed.eq_of_key_eq hunique (hsub other hother) hroot hkey] at hparent
        exact hnonzero (hparent.symm.trans hzero)
    | head hfirst _ ih =>
        subst huid
        obtain ⟨hparent, hlink⟩ := parentLink_of_append hunique hsub hentry hfirst
        obtain ⟨-, -, -, -, hnonzero⟩ := hfirst
        obtain ⟨parent, hmem, hkey, -⟩ := (h.rows entry hentry).below (hparent ▸ hnonzero)
        exact .of_link hlink (ih parent hmem (hkey.trans hparent))
  · exact .of_top fun p ⟨entry, hentry, huid, _⟩ => hrow ⟨entry, hentry, huid⟩

section

variable (h : Establishes sha256 before owner items ensured bytes)

include h

theorem Establishes.forest_iff (hvalid : Valid before)
    (hunique : ((establishedCatalog before ensured owner items).items.map
      FlatfileItemOwnershipRecord.itemUid).Nodup) :
    (∀ row ∈ (establishedCatalog before ensured owner items).items, row.owner = owner →
      RootedAt (establishedCatalog before ensured owner items).items row) ↔
      Acyclic (ParentLink items) := by
  have hsub : ∀ entry ∈ items, entry ∈ (establishedCatalog before ensured owner items).items :=
    fun entry hentry => (h.mem_items hvalid).mpr (.inr hentry)
  constructor
  · intro hforest
    exact h.list.acyclic_of_rooted hunique hsub fun entry hentry =>
      hforest entry (hsub entry hentry) (h.list.rows entry hentry).owner
  · intro hacyclic row hrow howner
    rcases (h.mem_items hvalid).mp hrow with hold | hnew
    · exact absurd howner (h.none_before row hold)
    · exact (h.list.rooted hacyclic hnew).mono hsub

/-! ## The second call -/

theorem Establishes.existing
    (hvalid : Valid before) (hafter : Valid (establishedCatalog before ensured owner items)) :
    existingRows (establishedCatalog before ensured owner items) owner = items := by
  have hperm : (existingRows (establishedCatalog before ensured owner items) owner).Perm items := by
    have hnone : before.items.filter (fun entry => itemOwnerIdentityEqual entry.owner owner) =
        [] := by
      rw [List.filter_eq_nil_iff]
      intro entry hentry
      rw [itemOwnerIdentityEqual_iff]
      exact h.none_before entry hentry
    have hall : items.filter (fun entry => itemOwnerIdentityEqual entry.owner owner) = items :=
      List.filter_eq_self.mpr fun entry hentry =>
        itemOwnerIdentityEqual_iff.mpr (h.list.rows entry hentry).owner
    have hfilter := (h.items_perm hvalid).filter fun entry =>
      itemOwnerIdentityEqual entry.owner owner
    rwa [List.filter_append, hnone, hall, List.nil_append] at hfilter
  refine hperm.eq_of_pairwise (fun a b _ _ hab hba => ?_)
    (hafter.items.sublist List.filter_sublist) h.list.ordered
  have := uidLess_strictTotal.trans hab hba
  rw [uidLess_strictTotal.irrefl] at this
  cases this

theorem Establishes.again
    (hvalid : Valid before) (hafter : Valid (establishedCatalog before ensured owner items))
    (hdecode : decodeCatalog sha256 bytes = some (establishedCatalog before ensured owner items))
    (write : StepOutcome) :
    flatfileItemRepositoryEstablishOwner sha256 .ready write (some bytes) owner items =
      (some bytes, some .alreadyApplied) := by
  have hfound : findOwner (establishedCatalog before ensured owner items) owner =
      some ⟨owner, 1⟩ :=
    (findOwner_eq_some hafter.owners).mpr ⟨(h.owners hvalid).mpr (.inl rfl), rfl⟩
  have hequal : (items.zip items).all (fun pair => itemEqual pair.1 pair.2) = true := by
    rw [List.all_eq_true]
    intro pair hpair
    obtain ⟨index, hindex, rfl⟩ := List.getElem_of_mem hpair
    simp [itemEqual, itemOwnerIdentityEqual]
  have hthere : baselineThere (establishedCatalog before ensured owner items) owner items =
      true := by
    rw [baselineThere, h.existing hvalid hafter, storedRevision, hfound, hequal]
    simp
  unfold flatfileItemRepositoryEstablishOwner
  rw [if_neg (by rw [h.checked]; decide)]
  rw [show loadCatalog sha256 (some bytes) =
    some (establishedCatalog before ensured owner items) from hdecode]
  exact if_pos hthere

end

/-! ## The call -/

/-- What a call that applies should have written: a file that reads back as the catalogue
with the baseline, on which the same call finds the baseline there. -/
structure SafeBaseline (sha256 : Bytes → Vector UInt8 32) (before : OwnershipCatalog)
    (owner : ItemOwnerIdentity) (items : List FlatfileItemOwnershipRecord) (bytes : Bytes) :
    Prop where
  reads : ∃ after, decodeCatalog sha256 bytes = some after ∧ Established before owner items after
  again : ∀ write, flatfileItemRepositoryEstablishOwner sha256 .ready write (some bytes) owner
    items = (some bytes, some .alreadyApplied)

variable (h : Establishes sha256 before owner items ensured bytes)

include h

theorem Establishes.decode :
    decodeCatalog sha256 bytes =
      if validCatalog (establishedCatalog before ensured owner items) then
        some (establishedCatalog before ensured owner items) else none :=
  decodeCatalog_file h.encode

theorem Establishes.established
    (hvalid : Valid before) (hafter : Valid (establishedCatalog before ensured owner items))
    (hacyclic : Acyclic (ParentLink items)) :
    Established before owner items (establishedCatalog before ensured owner items) where
  revision := rfl
  operations := (h.grown hvalid).1.operations
  rows := h.items_perm hvalid
  owned := (findOwner_eq_some hafter.owners).mpr ⟨(h.owners hvalid).mpr (.inl rfl), rfl⟩
  others other hother := by
    ext entry
    rw [findOwner_eq_some hafter.owners, findOwner_eq_some hvalid.owners, h.owners hvalid]
    constructor
    · rintro ⟨rfl | ⟨-, hold⟩, hkey⟩
      · exact absurd hkey.symm hother
      · exact ⟨hold, hkey⟩
    · rintro ⟨hold, hkey⟩
      exact ⟨.inr ⟨hkey ▸ hother, hold⟩, hkey⟩
  unique := hafter.items.nodup uidLess_strictTotal
  forest := (h.forest_iff hvalid (hafter.items.nodup uidLess_strictTotal)).mpr hacyclic

theorem Establishes.safe_iff (hvalid : Valid before) :
    SafeBaseline sha256 before owner items bytes ↔ BaselineSound before items := by
  constructor
  · rintro ⟨⟨after, hdecode, hafter⟩, -⟩
    rw [h.decode] at hdecode
    obtain ⟨hcheck, rfl⟩ := Option.ite_none_right_eq_some.mp hdecode |>.imp_right Option.some.inj
    obtain ⟨hfresh, hcoins⟩ := (h.valid_iff hvalid).mp (validCatalog_iff.mp hcheck)
    exact ⟨hfresh, hcoins, (h.forest_iff hvalid hafter.unique).mp hafter.forest⟩
  · rintro ⟨hfresh, hcoins, hacyclic⟩
    have hafter := (h.valid_iff hvalid).mpr ⟨hfresh, hcoins⟩
    have hdecode := h.decode
    rw [if_pos (validCatalog_iff.mpr hafter)] at hdecode
    exact ⟨⟨_, hdecode, h.established hvalid hafter hacyclic⟩,
      h.again hvalid hafter hdecode⟩

/-- What is written is not what was there: the revision is another. -/
theorem Establishes.changes
    (hload : loadCatalog sha256 store = some before) : some bytes ≠ store := by
  rintro rfl
  have hdecode : decodeCatalog sha256 bytes = some before := hload
  rw [h.decode] at hdecode
  have hsame := Option.some.inj (Option.ite_none_right_eq_some.mp hdecode).2
  have hrevision : before.revision + 1 = before.revision :=
    congrArg OwnershipCatalog.revision hsame
  bv_omega

end Established

/-- What is asked of the file and the answer: a call that answers `applied` has written what it
should, and one that answers anything else has written nothing. A call that dies says nothing. -/
def BaselineMet (sha256 : Bytes → Vector UInt8 32) (before : OwnershipCatalog)
    (store : Option Bytes) (owner : ItemOwnerIdentity)
    (items : List FlatfileItemOwnershipRecord) (file : Option Bytes) :
    Option FlatfileItemBaselineResult → Prop
  | some .applied => ∃ bytes, file = some bytes ∧ SafeBaseline sha256 before owner items bytes
  | some _ => file = store
  | none => True

theorem baselineMet_refused {sha256 : Bytes → Vector UInt8 32} {before : OwnershipCatalog}
    {store file : Option Bytes} {owner : ItemOwnerIdentity}
    {items : List FlatfileItemOwnershipRecord} {answer : FlatfileItemBaselineResult}
    (h : answer ≠ .applied) :
    BaselineMet sha256 before store owner items file (some answer) ↔ file = store := by
  cases answer with
  | applied => exact absurd rfl h
  | _ => rfl

/-- For every store that loads, every owner, every list and however the call is let end: it
does what is asked of it exactly when a write it comes to does not fail behind its rename and,
where the write is done, nobody else holds a uid of the list, each coin payload is one, and the
parents make no circle. -/
theorem establishOwner_safe_iff (sha256 : Bytes → Vector UInt8 32) (front : BaselineFront)
    (write : StepOutcome) (store : Option Bytes) (before : OwnershipCatalog)
    (hload : loadCatalog sha256 store = some before) (owner : ItemOwnerIdentity)
    (items : List FlatfileItemOwnershipRecord) :
    (let (file, answer) :=
      flatfileItemRepositoryEstablishOwner sha256 front write store owner items
    BaselineMet sha256 before store owner items file answer) ↔
      (Writes sha256 front before owner items →
        write ≠ .failed true ∧ (write = .done → BaselineSound before items)) := by
  by_cases hwrites : Writes sha256 front before owner items
  · obtain ⟨rfl, ensured, bytes, h⟩ := hwrites
    have hsafe := h.safe_iff (loadCatalog_valid hload)
    have hreached : Writes sha256 .ready before owner items := ⟨rfl, ensured, bytes, h⟩
    rw [h.answer hload]
    cases write with
    | done =>
        constructor
        · rintro ⟨written, hwritten, hmet⟩ -
          cases hwritten
          exact ⟨by decide, fun _ => hsafe.mp hmet⟩
        · exact fun hcondition => ⟨bytes, rfl, hsafe.mpr ((hcondition hreached).2 rfl)⟩
    | failed effect =>
        cases effect with
        | true =>
            exact ⟨fun hmet => absurd hmet (h.changes hload),
              fun hcondition => absurd rfl (hcondition hreached).1⟩
        | false => exact ⟨fun _ _ => ⟨by decide, nofun⟩, fun _ => rfl⟩
    | crashed effect => exact ⟨fun _ _ => ⟨nofun, nofun⟩, fun _ => trivial⟩
  · obtain ⟨answer, hanswer, hcall⟩ := establishOwner_refuses hload write hwrites
    rw [hcall]
    exact ⟨fun _ hreached => absurd hreached hwrites,
      fun _ => (baselineMet_refused hanswer).mpr rfl⟩

def looseRow (itemUid pid : BitVec 64) : FlatfileItemOwnershipRecord where
  itemUid := itemUid
  rootItemUid := itemUid
  parentItemUid := 0
  owner := ⟨ItemOwnerType.player, pid, 0⟩
  itemRevision := 1
  vnum := 700
  state := ItemCustodyState.active

/-- The first baseline of all: one item of player five. -/
theorem establishOwner_safe_iff_first : ∃ bytes,
    flatfileItemRepositoryEstablishOwner Sha256.hash .ready .done none
      ⟨ItemOwnerType.player, 5, 0⟩ [looseRow 10 5] = (some bytes, some .applied) ∧
    BaselineMet Sha256.hash {} none ⟨ItemOwnerType.player, 5, 0⟩ [looseRow 10 5] (some bytes)
      (some .applied) := by
  have hmerged : withBaseline { owners := [⟨⟨ItemOwnerType.player, 5, 0⟩, 0⟩] }
      ⟨ItemOwnerType.player, 5, 0⟩ [looseRow 10 5] =
      { owners := [⟨⟨ItemOwnerType.player, 5, 0⟩, 1⟩], items := [looseRow 10 5] } := by
    rw [withBaseline, sortRows, List.nil_append, List.mergeSort_singleton]
    rfl
  obtain ⟨written, hencode⟩ := Option.isSome_iff_exists.mp (by decide +kernel :
    (encodeCatalog Sha256.hash
      { owners := [⟨⟨ItemOwnerType.player, 5, 0⟩, 1⟩], items := [looseRow 10 5] }
      1).isSome = true)
  have hestablishes : Establishes Sha256.hash {} ⟨ItemOwnerType.player, 5, 0⟩
      [looseRow 10 5] _ written :=
    ⟨by decide +kernel, by decide, by decide, by decide, rfl, hmerged ▸ hencode⟩
  have hanswer := hestablishes.answer (rfl : loadCatalog Sha256.hash none = some {}) .done
  have hmet := (establishOwner_safe_iff Sha256.hash .ready .done none {} rfl
    ⟨ItemOwnerType.player, 5, 0⟩ [looseRow 10 5]).mpr fun _ =>
      ⟨nofun, fun _ => ⟨fun _ _ other hother => ?_, by decide +kernel, fun k hcycle => ?_⟩⟩
  · rw [hanswer] at hmet
    exact ⟨written, hanswer, hmet⟩
  · cases hother
  · obtain ⟨p, ⟨row, hrow, -, hparent, hnonzero⟩, -⟩ := TransGen.head'_iff.mp hcycle
    rw [List.mem_singleton.mp hrow] at hparent
    exact hnonzero hparent.symm

/-- A catalogue in which player six holds item ten. -/
def heldBySix : OwnershipCatalog where
  revision := 1
  owners := [⟨⟨ItemOwnerType.player, 6, 0⟩, 1⟩]
  items := [looseRow 10 6]

/-- A baseline of player five with the same item is written all the same, and the file it
leaves is not read again. -/
theorem establishOwner_takes_held_uid : ∃ store bytes,
    loadCatalog Sha256.hash (some store) = some heldBySix ∧
    flatfileItemRepositoryEstablishOwner Sha256.hash .ready .done (some store)
      ⟨ItemOwnerType.player, 5, 0⟩ [looseRow 10 5] = (some bytes, some .applied) ∧
    decodeCatalog Sha256.hash bytes = none ∧
    ¬BaselineMet Sha256.hash heldBySix (some store) ⟨ItemOwnerType.player, 5, 0⟩
      [looseRow 10 5] (some bytes) (some .applied) := by
  obtain ⟨store, hstore⟩ := Option.isSome_iff_exists.mp (by decide +kernel :
    (encodeCatalog Sha256.hash heldBySix 1).isSome = true)
  have hload : loadCatalog Sha256.hash (some store) = some heldBySix :=
    (decodeCatalog_file hstore).trans (if_pos (by decide +kernel))
  have hmerged : withBaseline { heldBySix with
        owners := [⟨⟨ItemOwnerType.player, 5, 0⟩, 0⟩, ⟨⟨ItemOwnerType.player, 6, 0⟩, 1⟩] }
      ⟨ItemOwnerType.player, 5, 0⟩ [looseRow 10 5] =
      { revision := 1
        owners := [⟨⟨ItemOwnerType.player, 5, 0⟩, 1⟩, ⟨⟨ItemOwnerType.player, 6, 0⟩, 1⟩]
        items := [looseRow 10 6, looseRow 10 5] } := by
    rw [withBaseline, sortRows, List.mergeSort_of_pairwise (by decide)]
    rfl
  obtain ⟨written, hencode⟩ := Option.isSome_iff_exists.mp (by decide +kernel :
    (encodeCatalog Sha256.hash
      { revision := 1
        owners := [⟨⟨ItemOwnerType.player, 5, 0⟩, 1⟩, ⟨⟨ItemOwnerType.player, 6, 0⟩, 1⟩]
        items := [looseRow 10 6, looseRow 10 5] } 2).isSome = true)
  have hestablishes : Establishes Sha256.hash heldBySix ⟨ItemOwnerType.player, 5, 0⟩
      [looseRow 10 5] _ written :=
    ⟨by decide +kernel, by decide, by decide, by decide, rfl, hmerged ▸ hencode⟩
  have hdecode : decodeCatalog Sha256.hash written = none :=
    (decodeCatalog_file hencode).trans (if_neg (by decide +kernel))
  refine ⟨store, written, hload, hestablishes.answer hload .done, hdecode, ?_⟩
  rintro ⟨bytes, hbytes, hsafe⟩
  cases hbytes
  obtain ⟨after, hafter, -⟩ := hsafe.reads
  rw [hdecode] at hafter
  cases hafter

end Duris.Flatfile.Ownership
