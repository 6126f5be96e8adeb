import Duris.Player.LoadTopology
import Duris.Proofs.SnapshotExtract

/-!
# Reconciled parents

What the walk resolves a row to says where the row's way up ends. From it follow the shape
of the lists that are left, the fate of a list with a circle, and that a second run finds
nothing to do.
-/

namespace Duris.Player

open ParentWalk Rows Forest Relation

variable {relinked : List Relinked}

/-! ## Relinking -/

variable {rows rows' : List LoadRow}

theorem relinkFrom_length (rest : List LoadRow) :
    ∀ (index : Nat) {relinked : List Relinked}, relinkFrom rows index rest = some relinked →
      relinked.length = rest.length := by
  induction rest with
  | nil =>
      intro index relinked h
      cases h
      rfl
  | cons row rest ih =>
      intro index relinked h
      rw [relinkFrom] at h
      split at h
      · next head others _ hothers =>
          cases h
          rw [List.length_cons, List.length_cons, ih _ hothers]
      · cases h

theorem relinkFrom_get (rest : List LoadRow) :
    ∀ (index : Nat) {relinked : List Relinked}, relinkFrom rows index rest = some relinked →
      ∀ {i : Nat} {r : Relinked}, relinked[i]? = some r →
        ∃ row, rest[i]? = some row ∧ relink rows (index + i) row = some r := by
  induction rest with
  | nil =>
      intro index relinked h i r hr
      cases h
      cases hr
  | cons row rest ih =>
      intro index relinked h i r hr
      rw [relinkFrom] at h
      split at h
      · next head others hhead hothers =>
          cases h
          cases i with
          | zero =>
              cases hr
              exact ⟨row, rfl, hhead⟩
          | succ i =>
              obtain ⟨row', hrow', hr'⟩ := ih (index + 1) hothers hr
              exact ⟨row', hrow', by rw [← hr']; congr 1; omega⟩
      · cases h

theorem relinkFrom_eq :
    ∀ (rest : List LoadRow) (index : Nat), relinked.length = rest.length →
      (∀ i r, relinked[i]? = some r → ∃ row, rest[i]? = some row ∧
        relink rows (index + i) row = some r) → relinkFrom rows index rest = some relinked := by
  induction relinked with
  | nil =>
      intro rest index hlength _
      rw [List.eq_nil_of_length_eq_zero hlength.symm]
      rfl
  | cons r relinked ih =>
      intro rest index hlength h
      cases rest with
      | nil => cases hlength
      | cons row rest =>
          obtain ⟨row', hrow', hr⟩ := h 0 r rfl
          cases hrow'
          have hothers := ih rest (index + 1) (Nat.succ.inj hlength) fun i r' hr' => by
            obtain ⟨row', hrow', hr''⟩ := h (i + 1) r' hr'
            exact ⟨row', hrow', by rw [← hr'']; congr 1; omega⟩
          rw [relinkFrom, hothers]
          rw [Nat.add_zero] at hr
          rw [hr]

/-- What a row becomes, by what its parent's uid says. -/
inductive Relinks (rows : List LoadRow) (row : LoadRow) (r : Relinked) : Prop
  | root (hnone : row.identity.parentItemUid = 0) (hparent : r.parent = none)
      (hpromoted : r.promoted = false)
      (hitem : r.row.item = { row.item with parentIndex := noParentIndex })
      (hidentity : r.row.identity = { row.identity with serializedParentId := 0 })
  | lost (hmissing : uidIndex rows row.identity.parentItemUid = none)
      (hsome : row.identity.parentItemUid ≠ 0) (hparent : r.parent = none)
      (hpromoted : r.promoted = true)
      (hitem : r.row.item =
        { row.item with parentIndex := noParentIndex, equipmentSlot := 0 })
      (hidentity : r.row.identity = { row.identity with
        serializedParentId := 0
        parentItemUid := 0
        rootItemUid := row.identity.itemUid })
  | child {parent : Nat} (hfound : uidIndex rows row.identity.parentItemUid = some parent)
      (hsome : row.identity.parentItemUid ≠ 0) (hsmall : parent ≤ 2 ^ 31 - 1)
      (hparent : r.parent = some parent) (hpromoted : r.promoted = false)
      (hitem : r.row.item =
        { row.item with parentIndex := BitVec.ofNat 32 parent, equipmentSlot := 0 })
      (hidentity : r.row.identity =
        { row.identity with serializedParentId := databaseIdAt rows parent })

theorem relink_relinks {index : Nat} {row : LoadRow} {r : Relinked}
    (h : relink rows index row = some r) : Relinks rows row r ∧ r.parent ≠ some index := by
  rw [relink] at h
  split at h
  · next hnone =>
      cases h
      exact ⟨.root hnone rfl rfl rfl rfl, by simp⟩
  · next hsome =>
      split at h
      · next hmissing =>
          cases h
          exact ⟨.lost hmissing hsome rfl rfl rfl rfl, by simp⟩
      · next parent hfound =>
          split at h
          · cases h
          · next hself =>
              cases h
              refine ⟨.child hfound hsome (by omega) rfl rfl rfl rfl, ?_⟩
              simp only [ne_eq, Option.some.injEq]
              exact fun heq => hself (.inl heq)

/-! ## The ids -/

def LoadRow.keys (row : LoadRow) : BitVec 64 × BitVec 64 × BitVec 64 :=
  (row.identity.databaseId, row.identity.itemUid, row.item.objectUid)

theorem indexRows_congr : ∀ {rows : List LoadRow}
    (databaseIds uids : List (BitVec 64)), rows'.map LoadRow.keys = rows.map LoadRow.keys →
      indexRows databaseIds uids rows' = indexRows databaseIds uids rows := by
  induction rows' with
  | nil =>
      intro rows databaseIds uids h
      rw [List.map_nil, eq_comm, List.map_eq_nil_iff] at h
      rw [h]
  | cons row' rows' ih =>
      intro rows databaseIds uids h
      cases rows with
      | nil => cases h
      | cons row rows =>
          rw [List.map_cons, List.map_cons] at h
          obtain ⟨hkeys, hrest⟩ := List.cons.inj h
          simp only [LoadRow.keys, Prod.mk.injEq] at hkeys
          rw [indexRows, indexRows, hkeys.1, hkeys.2.1, hkeys.2.2, ih _ _ hrest]

theorem uidIndex_congr (h : rows'.map LoadRow.keys = rows.map LoadRow.keys) (uid : BitVec 64) :
    uidIndex rows' uid = uidIndex rows uid := by
  have hkey : ∀ rows : List LoadRow, uidIndex rows uid =
      (rows.map LoadRow.keys).findIdx? fun keys => decide (keys.2.1 = uid) := by
    intro rows
    rw [List.findIdx?_map]
    rfl
  rw [hkey, hkey, h]

theorem databaseIdAt_congr (h : rows'.map LoadRow.keys = rows.map LoadRow.keys) (index : Nat) :
    databaseIdAt rows' index = databaseIdAt rows index := by
  have hkey : ∀ rows : List LoadRow, databaseIdAt rows index =
      ((rows.map LoadRow.keys).map fun keys => keys.1).getD index 0 := by
    intro rows
    rw [List.map_map]
    rfl
  rw [hkey, hkey, h]

theorem indexRows_nodup : ∀ {rows : List LoadRow} {databaseIds uids : List (BitVec 64)},
    indexRows databaseIds uids rows = true →
      (rows.map fun row => row.identity.itemUid).Nodup ∧
      ∀ row ∈ rows, row.identity.itemUid ≠ 0 ∧ row.identity.itemUid ∉ uids := by
  intro rows
  induction rows with
  | nil => exact fun _ => ⟨List.nodup_nil, by simp⟩
  | cons row rows ih =>
      intro databaseIds uids h
      rw [indexRows] at h
      simp only [Bool.and_eq_true, bne_iff_ne, ne_eq, Bool.not_eq_true'] at h
      obtain ⟨⟨⟨⟨⟨-, huid⟩, -⟩, -⟩, hnew⟩, hrest⟩ := h
      obtain ⟨hnodup, hrows⟩ := ih hrest
      refine ⟨?_, fun other hother => ?_⟩
      · rw [List.map_cons, List.nodup_cons]
        refine ⟨fun hmem => ?_, hnodup⟩
        obtain ⟨other, hother, heq⟩ := List.mem_map.mp hmem
        exact (hrows other hother).2 (heq ▸ List.mem_cons_self ..)
      · rcases List.mem_cons.mp hother with rfl | hother
        · refine ⟨huid, fun hmem => ?_⟩
          rw [List.contains_iff_mem.mpr hmem] at hnew
          cases hnew
        · obtain ⟨hne, hnot⟩ := hrows other hother
          exact ⟨hne, fun hmem => hnot (List.mem_cons_of_mem _ hmem)⟩

theorem uidIndex_eq_some {uid : BitVec 64} {parent : Nat} (h : uidIndex rows uid = some parent) :
    ∃ row, rows[parent]? = some row ∧ row.identity.itemUid = uid := by
  obtain ⟨hlt, huid, -⟩ := List.findIdx?_eq_some_iff_getElem.mp h
  exact ⟨rows[parent], List.getElem?_eq_getElem hlt, of_decide_eq_true huid⟩

theorem uidIndex_of_row (hnodup : (rows.map fun row => row.identity.itemUid).Nodup) {row : LoadRow}
    {index : Nat} (hrow : rows[index]? = some row) :
    uidIndex rows row.identity.itemUid = some index := by
  obtain ⟨hlt, hget⟩ := List.getElem?_eq_some_iff.mp hrow
  refine List.findIdx?_eq_some_iff_getElem.mpr ⟨hlt, ?_, fun j hj heq => ?_⟩
  · rw [hget]
    exact decide_eq_true rfl
  · have hother : (rows.map fun row => row.identity.itemUid)[j]? =
        some row.identity.itemUid := by
      rw [List.getElem?_map, List.getElem?_eq_getElem (Nat.lt_trans hj hlt), Option.map_some,
        of_decide_eq_true heq]
    have hself : (rows.map fun row => row.identity.itemUid)[index]? =
        some row.identity.itemUid := by rw [List.getElem?_map, hrow]; rfl
    exact absurd hj (Nat.not_lt.mpr (Nat.le_of_eq (place_inj hnodup hself hother)))

/-! ## What a row resolves to -/

/-- The rows that are relinked, before the walk. -/
structure Linked (rows : List LoadRow) (relinked : List Relinked) : Prop where
  unique : (rows.map fun row => row.identity.itemUid).Nodup
  nonzero : ∀ row ∈ rows, row.identity.itemUid ≠ 0
  length : relinked.length = rows.length
  links : ∀ (i : Nat) (r : Relinked), relinked[i]? = some r →
    ∃ row, rows[i]? = some row ∧ Relinks rows row r

theorem linked_of_run (hindexed : indexRows [] [] rows = true)
    (h : relinkFrom rows 0 rows = some relinked) : Linked rows relinked := by
  obtain ⟨hnodup, hrows⟩ := indexRows_nodup hindexed
  refine ⟨hnodup, fun row hrow => (hrows row hrow).1, relinkFrom_length rows 0 h, ?_⟩
  intro i r hr
  obtain ⟨row, hrow, hrelink⟩ := relinkFrom_get rows 0 h hr
  exact ⟨row, hrow, (relink_relinks hrelink).1⟩

namespace Linked

variable {rows : List LoadRow} {relinked : List Relinked}

theorem get_row (h : Linked rows relinked) {i : Nat} {row : LoadRow} (hrow : rows[i]? = some row) :
    ∃ r, relinked[i]? = some r ∧ Relinks rows row r := by
  have hlt : i < relinked.length := h.length ▸ (List.getElem?_eq_some_iff.mp hrow).1
  obtain ⟨row', hrow', hlinks⟩ := h.links i _ (List.getElem?_eq_getElem hlt)
  rw [hrow] at hrow'
  cases hrow'
  exact ⟨_, List.getElem?_eq_getElem hlt, hlinks⟩

theorem parents_lt (h : Linked rows relinked) (i j : Nat) (hparent : parentOf relinked i = some j) :
    j < rows.length := by
  obtain ⟨r, hr, hj⟩ := Option.bind_eq_some_iff.mp hparent
  obtain ⟨row, -, hlinks⟩ := h.links i r hr
  cases hlinks with
  | root _ hnone _ _ _ => rw [hnone] at hj; cases hj
  | lost _ _ hnone _ _ _ => rw [hnone] at hj; cases hj
  | child hfound _ _ hsome _ _ _ =>
      rw [hsome] at hj
      cases hj
      obtain ⟨row', hrow', -⟩ := uidIndex_eq_some hfound
      exact (List.getElem?_eq_some_iff.mp hrow').1

end Linked

/-- A row's way up, as the walk has resolved it. -/
structure Ends (relinked : List Relinked) (i : Nat) (v : Resolved) (top : Nat) (r last : Relinked) :
    Prop where
  row : relinked[i]? = some r
  top_row : relinked[top]? = some last
  path : ∃ n, Path (Names (parentOf relinked)) n i top ∧ v.depth = n + 1 ∧
    n < playerSnapshotMaxDepth
  ended : parentOf relinked top = none
  root : v.root = last.row.identity.itemUid
  kept : last.promoted = false → v.promoted = false ∧ v.root = r.row.identity.rootItemUid

theorem resolves_ends (hpromoted : ∀ (i : Nat) (r : Relinked) (j : Nat), relinked[i]? = some r →
      r.parent = some j → r.promoted = false) {i : Nat} {v : Resolved}
    (h : Resolves (parentOf relinked) (resolveRow relinked) i v) :
    ∃ top r last, Ends relinked i v top r last := by
  induction h with
  | @root i v hparent hresolve =>
      cases hr : relinked[i]? with
      | none =>
          simp only [resolveRow, hr] at hresolve
          cases hresolve
      | some r =>
          simp only [resolveRow, hr] at hresolve
          split_ifs at hresolve with hdeep hroot
          cases hresolve
          rw [ne_eq, not_not] at hroot
          exact ⟨i, r, r, hr, hr, ⟨0, .refl i, rfl, by decide⟩, hparent, hroot,
            fun hkept => ⟨hkept, rfl⟩⟩
  | @child i j u v hparent _ hresolve ih =>
      obtain ⟨top, r', last, hends⟩ := ih
      obtain ⟨n, hpath, hdepth, -⟩ := hends.path
      cases hr : relinked[i]? with
      | none =>
          simp only [resolveRow, hr] at hresolve
          cases hresolve
      | some r =>
          simp only [resolveRow, hr] at hresolve
          split_ifs at hresolve with hdeep hinherits hroot
          · cases hresolve
            refine ⟨top, r, last, hr, hends.top_row, ⟨n + 1, .step hparent hpath, ?_, by omega⟩,
              hends.ended, hends.root, fun hkept => ?_⟩
            · exact congrArg (· + 1) hdepth
            · rw [(hends.kept hkept).1] at hinherits
              cases hinherits
          · cases hresolve
            rw [ne_eq, not_not] at hroot
            refine ⟨top, r, last, hr, hends.top_row, ⟨n + 1, .step hparent hpath, ?_, by omega⟩,
              hends.ended, hroot.trans hends.root, fun hkept => ⟨?_, rfl⟩⟩
            · exact congrArg (· + 1) hdepth
            · obtain ⟨r'', hr'', hj⟩ := Option.bind_eq_some_iff.mp hparent
              rw [hr] at hr''
              cases hr''
              exact hpromoted i r j hr hj

/-! ## A list that was accepted -/

/-- The custody record at `i` names the one at `j` as its parent. -/
def NamesParent (identities : List PlayerLoadItemIdentity) (i j : Nat) : Prop :=
  ∃ identity other, identities[i]? = some identity ∧ identities[j]? = some other ∧
    identity.parentItemUid ≠ 0 ∧ other.itemUid = identity.parentItemUid

structure Accepted (rows : List LoadRow) (relinked : List Relinked) (w : Walk Resolved) : Prop where
  indexed : indexRows [] [] rows = true
  linked : Linked rows relinked
  resolved : ∀ i < rows.length, ∃ v, w.value i = some v ∧
    Resolves (parentOf relinked) (resolveRow relinked) i v

theorem accepted_of_ok {rows : List LoadRow} {result : Reconciled}
    (h : reconcileRows rows = .ok result) :
    ∃ relinked w, Accepted rows relinked w ∧ result = reconciled relinked w := by
  rw [reconcileRows] at h
  split at h
  · cases h
  · next hindexed =>
      split at h
      · cases h
      · next relinked hrelinked =>
          split at h
          · cases h
          · next w hwalk =>
              cases h
              rw [Bool.not_eq_false] at hindexed
              obtain ⟨hsteady, hsettled, -⟩ := visitAll_ok Steady.initial hwalk
              refine ⟨relinked, w, ⟨hindexed, linked_of_run hindexed hrelinked, fun i hi => ?_⟩,
                rfl⟩
              exact hsteady.settled i (hsettled i (List.mem_range.mpr hi))

namespace Accepted

variable {rows : List LoadRow} {relinked : List Relinked} {w : Walk Resolved}

/-- A row of the result, with what it was, what it became and what it resolved to. -/
structure At (rows : List LoadRow) (relinked : List Relinked) (w : Walk Resolved) (i : Nat)
    (row : LoadRow) (r : Relinked) (v : Resolved) : Prop where
  get_row : rows[i]? = some row
  get_relinked : relinked[i]? = some r
  relinks : Relinks rows row r
  value : w.value i = some v
  resolves : Resolves (parentOf relinked) (resolveRow relinked) i v
  item : (reconciled relinked w).items[i]? = some r.row.item
  identity : (reconciled relinked w).identities[i]? =
    some { r.row.identity with rootItemUid := v.root }

variable {i : Nat} {row : LoadRow} {r : Relinked} {v : Resolved}

theorem at_row (h : Accepted rows relinked w) (hi : i < rows.length) :
    ∃ row r v, At rows relinked w i row r v := by
  obtain ⟨r, hr, hlinks⟩ := h.linked.get_row (List.getElem?_eq_getElem hi)
  obtain ⟨v, hv, hresolves⟩ := h.resolved i hi
  refine ⟨_, r, v, List.getElem?_eq_getElem hi, hr, hlinks, hv, hresolves, ?_, ?_⟩
  · show (relinked.map _)[i]? = _
    rw [List.getElem?_map, hr]
    rfl
  · show (relinked.mapIdx _)[i]? = _
    rw [List.getElem?_mapIdx, hr, Option.map_some]
    simp only [hv]

theorem length (h : Accepted rows relinked w) :
    (reconciled relinked w).items.length = rows.length ∧
      (reconciled relinked w).identities.length = rows.length := by
  constructor
  · show (relinked.map _).length = _
    rw [List.length_map, h.linked.length]
  · show (relinked.mapIdx _).length = _
    rw [List.length_mapIdx, h.linked.length]

theorem parent_item (h : Relinks rows row r) : r.row.item.parent = r.parent := by
  cases h with
  | root _ hparent _ hitem _ =>
      rw [hparent, hitem]
      exact if_pos rfl
  | lost _ _ hparent _ hitem _ =>
      rw [hparent, hitem]
      exact if_pos rfl
  | child _ _ hsmall hparent _ hitem _ =>
      rw [hparent, hitem]
      exact parent_of_toInt (toInt_ofNat (by omega))

theorem names_eq_up (h : Accepted rows relinked w) : Names (parentOf relinked) =
    Up PlayerItemSnapshot.parent (reconciled relinked w).items := by
  funext i j
  refine propext ⟨fun hnames => ?_, fun hup => ?_⟩
  · obtain ⟨r, hr, hj⟩ := Option.bind_eq_some_iff.mp hnames
    have hlt := (List.getElem?_eq_some_iff.mp hr).1
    obtain ⟨row, r', v, hat⟩ := h.at_row (h.linked.length ▸ hlt)
    have heq := Option.some.inj (hr.symm.trans hat.get_relinked)
    rw [heq] at hj
    exact ⟨_, hat.item, (parent_item hat.relinks).trans hj⟩
  · obtain ⟨item, hitem, hj⟩ := hup
    have hlt := (List.getElem?_eq_some_iff.mp hitem).1
    rw [h.length.1] at hlt
    obtain ⟨row, r, v, hat⟩ := h.at_row hlt
    have heq := Option.some.inj (hitem.symm.trans hat.item)
    rw [heq, parent_item hat.relinks] at hj
    rw [Names, parentOf, hat.get_relinked]
    exact hj

theorem promoted_root (h : Linked rows relinked) (i : Nat) (r : Relinked) (j : Nat)
    (hr : relinked[i]? = some r) (hj : r.parent = some j) : r.promoted = false := by
  obtain ⟨row, -, hlinks⟩ := h.links i r hr
  cases hlinks with
  | root _ _ hpromoted _ _ => exact hpromoted
  | lost _ _ hnone _ _ _ =>
      rw [hnone] at hj
      cases hj
  | child _ _ _ _ hpromoted _ _ => exact hpromoted

theorem ends (h : Accepted rows relinked w) (hat : At rows relinked w i row r v) :
    ∃ top last, Ends relinked i v top r last := by
  obtain ⟨top, r', last, hends⟩ := resolves_ends (promoted_root h.linked) hat.resolves
  obtain rfl := Option.some.inj (hends.row.symm.trans hat.get_relinked)
  exact ⟨top, last, hends⟩

theorem shallow (h : Accepted rows relinked w) (hi : i < rows.length) :
    ∃ n < playerSnapshotMaxDepth,
      Depth PlayerItemSnapshot.parent (reconciled relinked w).items i n := by
  obtain ⟨row, r, v, hat⟩ := h.at_row hi
  obtain ⟨top, last, hends⟩ := h.ends hat
  obtain ⟨n, hpath, -, hn⟩ := hends.path
  have hended := hends.ended
  refine ⟨n, hn, top, h.names_eq_up ▸ hpath, fun j hj => ?_⟩
  rw [← h.names_eq_up, Names, hended] at hj
  cases hj

theorem acyclic (h : Accepted rows relinked w) :
    Acyclic (Up PlayerItemSnapshot.parent (reconciled relinked w).items) := by
  refine acyclic_of_grounded (fun _ _ _ => Up.unique) fun i => ?_
  by_cases hi : i < rows.length
  · obtain ⟨n, -, top, hpath, htop⟩ := h.shallow hi
    exact ⟨top, hpath.reaches, htop⟩
  · refine .of_top fun j hj => hi ?_
    obtain ⟨item, hitem, -⟩ := hj
    exact h.length.1 ▸ (List.getElem?_eq_some_iff.mp hitem).1

theorem relinks_keys (h : Relinks rows row r) : r.row.keys = row.keys := by
  cases h with
  | root _ _ _ hitem hidentity => rw [LoadRow.keys, hitem, hidentity]; rfl
  | lost _ _ _ _ hitem hidentity => rw [LoadRow.keys, hitem, hidentity]; rfl
  | child _ _ _ _ _ hitem hidentity => rw [LoadRow.keys, hitem, hidentity]; rfl

theorem links (h : Accepted rows relinked w) {item : PlayerItemSnapshot}
    {identity : PlayerLoadItemIdentity} (hitem : (reconciled relinked w).items[i]? = some item)
    (hidentity : (reconciled relinked w).identities[i]? = some identity) :
    (item.parent = none ∧ identity.parentItemUid = 0 ∧ identity.serializedParentId = 0) ∨
    ∃ j other, item.parent = some j ∧ (reconciled relinked w).identities[j]? = some other ∧
      other.itemUid ≠ 0 ∧ identity.parentItemUid = other.itemUid ∧
      identity.serializedParentId = other.databaseId := by
  have hlt := (List.getElem?_eq_some_iff.mp hitem).1
  rw [h.length.1] at hlt
  obtain ⟨row, r, v, hat⟩ := h.at_row hlt
  obtain rfl := Option.some.inj (hat.item.symm.trans hitem)
  obtain rfl := Option.some.inj (hat.identity.symm.trans hidentity)
  rw [parent_item hat.relinks]
  cases hat.relinks with
  | root hnone hparent _ _ hidentity =>
      refine .inl ⟨hparent, ?_⟩
      rw [hidentity]
      exact ⟨hnone, rfl⟩
  | lost _ _ hparent _ _ hidentity =>
      refine .inl ⟨hparent, ?_⟩
      rw [hidentity]
      exact ⟨rfl, rfl⟩
  | @child p hfound _ _ hparent _ _ hidentity =>
      obtain ⟨row', hrow', huid⟩ := uidIndex_eq_some hfound
      obtain ⟨row'', r', v', hat'⟩ := h.at_row (List.getElem?_eq_some_iff.mp hrow').1
      obtain rfl := Option.some.inj (hrow'.symm.trans hat'.get_row)
      have hkeys := relinks_keys hat'.relinks
      simp only [LoadRow.keys, Prod.mk.injEq] at hkeys
      refine .inr ⟨p, _, hparent, hat'.identity, ?_, ?_, ?_⟩
      · show r'.row.identity.itemUid ≠ 0
        rw [hkeys.2.1]
        exact h.linked.nonzero _ (List.mem_of_getElem? hrow')
      · show r.row.identity.parentItemUid = r'.row.identity.itemUid
        rw [hidentity, hkeys.2.1, huid]
      · show r.row.identity.serializedParentId = r'.row.identity.databaseId
        rw [hidentity, hkeys.1]
        show databaseIdAt rows p = _
        rw [databaseIdAt, List.getD_eq_getElem?_getD, List.getElem?_map, hrow']
        rfl

theorem roots (h : Accepted rows relinked w) {top : Nat} {identity other : PlayerLoadItemIdentity}
    (hidentity : (reconciled relinked w).identities[i]? = some identity)
    (hreaches : ReflTransGen (Up PlayerItemSnapshot.parent (reconciled relinked w).items) i top)
    (htop : ∀ j, ¬ Up PlayerItemSnapshot.parent (reconciled relinked w).items top j)
    (hother : (reconciled relinked w).identities[top]? = some other) :
    identity.rootItemUid = other.itemUid := by
  have hlt := (List.getElem?_eq_some_iff.mp hidentity).1
  have hlt' := (List.getElem?_eq_some_iff.mp hother).1
  rw [h.length.2] at hlt hlt'
  obtain ⟨row, r, v, hat⟩ := h.at_row hlt
  obtain ⟨row', r', v', hat'⟩ := h.at_row hlt'
  obtain rfl := Option.some.inj (hat.identity.symm.trans hidentity)
  obtain rfl := Option.some.inj (hat'.identity.symm.trans hother)
  obtain ⟨top', last, hends⟩ := h.ends hat
  obtain ⟨n, hpath, -⟩ := hends.path
  have hsame : top' = top := by
    refine top_unique (h.names_eq_up ▸ hpath.reaches) (fun j hj => ?_) hreaches htop
    rw [← h.names_eq_up, Names, hends.ended] at hj
    cases hj
  subst hsame
  obtain rfl := Option.some.inj (hends.top_row.symm.trans hat'.get_relinked)
  exact hends.root

theorem nested (h : Accepted rows relinked w) {j : Nat} {item : PlayerItemSnapshot}
    (hitem : (reconciled relinked w).items[i]? = some item) (hparent : item.parent = some j) :
    item.equipmentSlot = 0 := by
  have hlt := (List.getElem?_eq_some_iff.mp hitem).1
  rw [h.length.1] at hlt
  obtain ⟨row, r, v, hat⟩ := h.at_row hlt
  obtain rfl := Option.some.inj (hat.item.symm.trans hitem)
  rw [parent_item hat.relinks] at hparent
  cases hat.relinks with
  | root _ hnone _ _ _ =>
      rw [hnone] at hparent
      cases hparent
  | lost _ _ hnone _ _ _ =>
      rw [hnone] at hparent
      cases hparent
  | child _ _ _ _ _ hitem _ => rw [hitem]

theorem names_parent (h : Linked rows relinked) {j : Nat} (hnames : Names (parentOf relinked) i j) :
    NamesParent (rows.map LoadRow.identity) i j := by
  obtain ⟨r, hr, hj⟩ := Option.bind_eq_some_iff.mp hnames
  obtain ⟨row, hrow, hlinks⟩ := h.links i r hr
  cases hlinks with
  | root _ hnone _ _ _ => rw [hnone] at hj; cases hj
  | lost _ _ hnone _ _ _ => rw [hnone] at hj; cases hj
  | child hfound hsome _ hparent _ _ _ =>
      rw [hparent] at hj
      cases hj
      obtain ⟨row', hrow', huid⟩ := uidIndex_eq_some hfound
      exact ⟨row.identity, row'.identity, by rw [List.getElem?_map, hrow]; rfl,
        by rw [List.getElem?_map, hrow']; rfl, hsome, huid⟩

theorem names_of_parent (h : Linked rows relinked) {j : Nat}
    (hnames : NamesParent (rows.map LoadRow.identity) i j) : Names (parentOf relinked) i j := by
  obtain ⟨identity, other, hidentity, hother, hsome, huid⟩ := hnames
  rw [List.getElem?_map] at hidentity hother
  obtain ⟨row, hrow, rfl⟩ := Option.map_eq_some_iff.mp hidentity
  obtain ⟨row', hrow', rfl⟩ := Option.map_eq_some_iff.mp hother
  obtain ⟨r, hr, hlinks⟩ := h.get_row hrow
  have hfound := uidIndex_of_row h.unique hrow'
  rw [huid] at hfound
  rw [Names, parentOf, hr]
  cases hlinks with
  | root hnone _ _ _ _ => exact absurd hnone hsome
  | lost hmissing _ _ _ _ _ =>
      rw [hfound] at hmissing
      cases hmissing
  | child hfound' _ _ hparent _ _ _ =>
      rw [hfound] at hfound'
      cases hfound'
      exact hparent

theorem kept_of_present (h : Linked rows relinked) (hrow : rows[i]? = some row)
    (hlinks : Relinks rows row r)
    (hpresent : row.identity.parentItemUid = 0 ∨ ∃ j, NamesParent (rows.map LoadRow.identity) i j) :
    r.promoted = false ∧
      ∃ serialized, r.row.identity = { row.identity with serializedParentId := serialized } := by
  cases hlinks with
  | root _ _ hpromoted _ hidentity => exact ⟨hpromoted, _, hidentity⟩
  | child _ _ _ _ hpromoted _ hidentity => exact ⟨hpromoted, _, hidentity⟩
  | lost hmissing hsome _ _ _ _ =>
      rcases hpresent with hnone | ⟨j, identity, other, hidentity, hother, -, huid⟩
      · exact absurd hnone hsome
      · rw [List.getElem?_map] at hidentity hother
        obtain ⟨row', hrow', rfl⟩ := Option.map_eq_some_iff.mp hother
        rw [hrow, Option.map_some] at hidentity
        have hfound := uidIndex_of_row h.unique hrow'
        rw [huid, ← Option.some.inj hidentity, hmissing] at hfound
        cases hfound

theorem intact (h : Accepted rows relinked w) (hrow : rows[i]? = some row)
    (hpresent : ∀ k other, ReflTransGen (NamesParent (rows.map LoadRow.identity)) i k →
      rows[k]? = some other → other.identity.parentItemUid = 0 ∨
        ∃ j, NamesParent (rows.map LoadRow.identity) k j) :
    ∃ serialized, (reconciled relinked w).identities[i]? =
      some { row.identity with serializedParentId := serialized } := by
  obtain ⟨row', r, v, hat⟩ := h.at_row (List.getElem?_eq_some_iff.mp hrow).1
  obtain rfl := Option.some.inj (hrow.symm.trans hat.get_row)
  obtain ⟨-, serialized, hidentity⟩ :=
    kept_of_present h.linked hrow hat.relinks (hpresent i row .refl hrow)
  obtain ⟨top, last, hends⟩ := h.ends hat
  obtain ⟨n, hpath, -⟩ := hends.path
  obtain ⟨other, hother, hlinks⟩ := h.linked.links top last hends.top_row
  have hreaches : ReflTransGen (NamesParent (rows.map LoadRow.identity)) i top :=
    ReflTransGen.mono (fun _ _ => names_parent h.linked) _ _ hpath.reaches
  obtain ⟨hkept, -⟩ := kept_of_present h.linked hother hlinks (hpresent top other hreaches hother)
  refine ⟨serialized, ?_⟩
  rw [hat.identity, (hends.kept hkept).2, hidentity]

/-! ## A second run -/

def rowsOf (relinked : List Relinked) (w : Walk Resolved) : List LoadRow :=
  List.zipWith LoadRow.mk (reconciled relinked w).items (reconciled relinked w).identities

def relinkedOf (relinked : List Relinked) (w : Walk Resolved) : List Relinked :=
  List.zipWith (fun row r => { row, parent := r.parent, promoted := false, repaired := false })
    (rowsOf relinked w) relinked

theorem rowsOf_get (hat : At rows relinked w i row r v) : (rowsOf relinked w)[i]? =
      some ⟨r.row.item, { r.row.identity with rootItemUid := v.root }⟩ := by
  rw [rowsOf, List.getElem?_zipWith, hat.item, hat.identity]

theorem relinkedOf_get (hat : At rows relinked w i row r v) : (relinkedOf relinked w)[i]? =
      some ⟨⟨r.row.item, { r.row.identity with rootItemUid := v.root }⟩, r.parent, false,
        false⟩ := by
  rw [relinkedOf, List.getElem?_zipWith, rowsOf_get hat, hat.get_relinked]

variable (h : Accepted rows relinked w)

include h

theorem rowsOf_length : (rowsOf relinked w).length = rows.length := by
  rw [rowsOf, List.length_zipWith, h.length.1, h.length.2, Nat.min_self]

theorem relinkedOf_length :
    (relinkedOf relinked w).length = rows.length := by
  rw [relinkedOf, List.length_zipWith, h.rowsOf_length, h.linked.length, Nat.min_self]

theorem rowsOf_keys :
    (rowsOf relinked w).map LoadRow.keys = rows.map LoadRow.keys := by
  refine List.ext_getElem (by rw [List.length_map, List.length_map, h.rowsOf_length])
    fun i hi hi' => ?_
  rw [List.length_map] at hi'
  obtain ⟨row, r, v, hat⟩ := h.at_row hi'
  refine Option.some.inj ?_
  rw [← List.getElem?_eq_getElem, ← List.getElem?_eq_getElem, List.getElem?_map, rowsOf_get hat,
    List.getElem?_map, hat.get_row]
  exact congrArg some (relinks_keys hat.relinks)

theorem relink_again (hat : At rows relinked w i row r v) :
    relink (rowsOf relinked w) i
      ⟨r.row.item, { r.row.identity with rootItemUid := v.root }⟩ =
      some ⟨⟨r.row.item, { r.row.identity with rootItemUid := v.root }⟩, r.parent, false,
        false⟩ := by
  cases hat.relinks with
  | root hnone hparent _ hitem hidentity =>
      rw [relink, if_pos (by rw [hidentity]; exact hnone), hparent, hitem, hidentity]
      rfl
  | lost _ _ hparent _ hitem hidentity =>
      rw [relink, if_pos (by rw [hidentity]), hparent, hitem, hidentity]
      rfl
  | @child p hfound hsome hsmall hparent _ hitem hidentity =>
      have hself : p ≠ i := by
        rintro rfl
        refine h.acyclic p (.single ?_)
        rw [← h.names_eq_up, Names, parentOf, hat.get_relinked]
        exact hparent
      have hfound' : uidIndex (rowsOf relinked w) row.identity.parentItemUid = some p := by
        rw [uidIndex_congr h.rowsOf_keys, hfound]
      rw [relink, if_neg (by rw [hidentity]; exact hsome)]
      simp only [hidentity, hfound', hitem, hparent]
      rw [if_neg (by omega), databaseIdAt_congr h.rowsOf_keys]
      simp

theorem parentOf_again :
    parentOf (relinkedOf relinked w) = parentOf relinked := by
  funext i
  rw [parentOf, parentOf]
  by_cases hi : i < rows.length
  · obtain ⟨row, r, v, hat⟩ := h.at_row hi
    rw [relinkedOf_get hat, hat.get_relinked]
    rfl
  · rw [List.getElem?_eq_none (by rw [h.relinkedOf_length]; omega),
      List.getElem?_eq_none (by rw [h.linked.length]; omega)]

theorem at_resolves (hresolves : Resolves (parentOf relinked) (resolveRow relinked) i v) :
    ∃ row r, At rows relinked w i row r v := by
  obtain ⟨top, r, last, hends⟩ := resolves_ends (promoted_root h.linked) hresolves
  have hi := (List.getElem?_eq_some_iff.mp hends.row).1
  rw [h.linked.length] at hi
  obtain ⟨row, r', v', hat⟩ := h.at_row hi
  rw [hat.resolves.unique hresolves] at hat
  exact ⟨row, r', hat⟩

theorem resolves_again (hresolves : Resolves (parentOf relinked) (resolveRow relinked) i v) :
    Resolves (parentOf (relinkedOf relinked w)) (resolveRow (relinkedOf relinked w)) i
      { v with promoted := false } := by
  rw [h.parentOf_again]
  induction hresolves with
  | @root i v hparent hresolve =>
      obtain ⟨row, r, hat⟩ := h.at_resolves (.root hparent hresolve)
      refine .root hparent ?_
      simp only [resolveRow, hat.get_relinked] at hresolve
      simp only [resolveRow, relinkedOf_get hat]
      split_ifs at hresolve ⊢ with hdeep hroot hroot'
      · cases hresolve
        exact absurd hroot hroot'
      · cases hresolve
        rfl
  | @child i j u v hparent hrest hresolve ih =>
      obtain ⟨row, r, hat⟩ := h.at_resolves (.child hparent hrest hresolve)
      refine .child hparent ih ?_
      simp only [resolveRow, hat.get_relinked] at hresolve
      simp only [resolveRow, relinkedOf_get hat]
      have hroot : v.root = u.root ∧ v.depth = u.depth + 1 ∧
          ¬ playerSnapshotMaxDepth < u.depth + 1 := by
        split_ifs at hresolve with hdeep hinherits hroot
        · cases hresolve
          exact ⟨rfl, rfl, hdeep⟩
        · cases hresolve
          exact ⟨not_not.mp hroot, rfl, hdeep⟩
      rw [if_neg hroot.2.2, if_neg Bool.false_ne_true, if_neg (not_not_intro hroot.1), hroot.2.1]

theorem ext_rows {α : Type} {xs ys : List α}
    (hxs : xs.length = rows.length) (hys : ys.length = rows.length)
    (heq : ∀ i row r v, At rows relinked w i row r v → xs[i]? = ys[i]?) : xs = ys := by
  refine List.ext_getElem? fun i => ?_
  by_cases hi : i < rows.length
  · obtain ⟨row, r, v, hat⟩ := h.at_row hi
    exact heq i row r v hat
  · rw [List.getElem?_eq_none (by omega), List.getElem?_eq_none (by omega)]

theorem reconciled_again {w' : Walk Resolved}
    (hvalue : ∀ i row r v, At rows relinked w i row r v →
      w'.value i = some { v with promoted := false }) :
    reconciled (relinkedOf relinked w) w' =
      { reconciled relinked w with promotedRows := 0, repairedRows := 0 } := by
  have hlength := h.relinkedOf_length
  have hquiet : ∀ r ∈ relinkedOf relinked w, r.promoted = false ∧ r.repaired = false := by
    intro r' hr'
    obtain ⟨i, hi⟩ := List.getElem?_of_mem hr'
    have hlt := (List.getElem?_eq_some_iff.mp hi).1
    rw [hlength] at hlt
    obtain ⟨row, r, v, hat⟩ := h.at_row hlt
    rw [relinkedOf_get hat] at hi
    cases hi
    exact ⟨rfl, rfl⟩
  have hitems : (reconciled (relinkedOf relinked w) w').items = (reconciled relinked w).items := by
    refine h.ext_rows ?_ h.length.1 fun i row r v hat => ?_
    · show ((relinkedOf relinked w).map _).length = _
      rw [List.length_map, hlength]
    · rw [hat.item]
      show ((relinkedOf relinked w).map _)[i]? = _
      rw [List.getElem?_map, relinkedOf_get hat]
      rfl
  have hidentities : (reconciled (relinkedOf relinked w) w').identities =
      (reconciled relinked w).identities := by
    refine h.ext_rows ?_ h.length.2 fun i row r v hat => ?_
    · show ((relinkedOf relinked w).mapIdx _).length = _
      rw [List.length_mapIdx, hlength]
    · rw [hat.identity]
      show ((relinkedOf relinked w).mapIdx _)[i]? = _
      rw [List.getElem?_mapIdx, relinkedOf_get hat, Option.map_some]
      simp only [hvalue i row r v hat]
  have hcounts : (relinkedOf relinked w).countP Relinked.promoted = 0 ∧
      (relinkedOf relinked w).countP Relinked.repaired = 0 := by
    constructor
    · exact List.countP_eq_zero.mpr fun r hr => by simp [(hquiet r hr).1]
    · exact List.countP_eq_zero.mpr fun r hr => by simp [(hquiet r hr).2]
  show Reconciled.mk _ _ _ _ = Reconciled.mk _ _ 0 0
  rw [Reconciled.mk.injEq]
  exact ⟨hitems, hidentities, hcounts⟩

/-- A second run accepts the result, changes nothing and has nothing to report. -/
theorem again : reconcileRows (rowsOf relinked w) =
    .ok { reconciled relinked w with promotedRows := 0, repairedRows := 0 } := by
  have hlength := h.rowsOf_length
  have hrelink : relinkFrom (rowsOf relinked w) 0 (rowsOf relinked w) =
      some (relinkedOf relinked w) := by
    refine relinkFrom_eq _ 0 (by rw [h.relinkedOf_length, hlength]) fun i r' hr' => ?_
    have hi := (List.getElem?_eq_some_iff.mp hr').1
    rw [h.relinkedOf_length] at hi
    obtain ⟨row, r, v, hat⟩ := h.at_row hi
    rw [relinkedOf_get hat] at hr'
    cases hr'
    exact ⟨_, rowsOf_get hat, by rw [Nat.zero_add, h.relink_again hat]⟩
  have hrows : ∀ i j, parentOf (relinkedOf relinked w) i = some j → j < rows.length := by
    rw [h.parentOf_again]
    exact h.linked.parents_lt
  have hall : ∀ i ∈ List.range rows.length, ∃ v,
      Resolves (parentOf (relinkedOf relinked w)) (resolveRow (relinkedOf relinked w)) i v := by
    intro i hi
    obtain ⟨v, -, hresolves⟩ := h.resolved i (List.mem_range.mp hi)
    exact ⟨_, h.resolves_again hresolves⟩
  obtain ⟨w', hwalk⟩ :=
    visitAll_complete hrows (fun i hi => List.mem_range.mp hi) Steady.initial hall
  obtain ⟨hsteady, hsettled, -⟩ := visitAll_ok Steady.initial hwalk
  rw [reconcileRows, indexRows_congr [] [] h.rowsOf_keys, h.indexed, if_neg (by simp), hrelink]
  simp only [hlength, hwalk]
  refine congrArg Except.ok (h.reconciled_again fun i row r v hat => ?_)
  have hi := (List.getElem?_eq_some_iff.mp hat.get_row).1
  obtain ⟨v', hv', hresolves⟩ := hsteady.settled i (hsettled i (List.mem_range.mpr hi))
  rw [hv', hresolves.unique (h.resolves_again hat.resolves)]

end Accepted

/-! ## The whole function -/

/-- What an accepted list of items and custody records is left as. -/
structure Reconciles (items : List PlayerItemSnapshot) (identities : List PlayerLoadItemIdentity)
    (result : Reconciled) : Prop where
  items_length : result.items.length = items.length
  identities_length : result.identities.length = identities.length
  acyclic : Acyclic (Up PlayerItemSnapshot.parent result.items)
  shallow : ∀ i < result.items.length, ∃ n < playerSnapshotMaxDepth,
    Depth PlayerItemSnapshot.parent result.items i n
  links : ∀ (i : Nat) (item : PlayerItemSnapshot) (identity : PlayerLoadItemIdentity),
    result.items[i]? = some item → result.identities[i]? = some identity →
    (item.parent = none ∧ identity.parentItemUid = 0 ∧ identity.serializedParentId = 0) ∨
    ∃ j other, item.parent = some j ∧ result.identities[j]? = some other ∧ other.itemUid ≠ 0 ∧
      identity.parentItemUid = other.itemUid ∧ identity.serializedParentId = other.databaseId
  roots : ∀ (i top : Nat) (identity other : PlayerLoadItemIdentity),
    result.identities[i]? = some identity → result.identities[top]? = some other →
    ReflTransGen (Up PlayerItemSnapshot.parent result.items) i top →
    (∀ j, ¬ Up PlayerItemSnapshot.parent result.items top j) →
    identity.rootItemUid = other.itemUid
  nested : ∀ (i j : Nat) (item : PlayerItemSnapshot), result.items[i]? = some item →
    item.parent = some j → item.equipmentSlot = 0
  intact : ∀ (i : Nat) (identity : PlayerLoadItemIdentity), identities[i]? = some identity →
    (∀ (k : Nat) (other : PlayerLoadItemIdentity), ReflTransGen (NamesParent identities) i k →
      identities[k]? = some other → other.parentItemUid = 0 ∨ ∃ j, NamesParent identities k j) →
    ∃ serialized,
      result.identities[i]? = some { identity with serializedParentId := serialized }
  again : playerLoadReconcileItemTopology result.items result.identities =
    .ok { result with promotedRows := 0, repairedRows := 0 }

theorem zipped : ∀ {items : List PlayerItemSnapshot} {identities : List PlayerLoadItemIdentity},
    items.length = identities.length →
    (List.zipWith LoadRow.mk items identities).map LoadRow.item = items ∧
      (List.zipWith LoadRow.mk items identities).map LoadRow.identity = identities := by
  intro items
  induction items with
  | nil =>
      intro identities h
      rw [List.eq_nil_of_length_eq_zero h.symm]
      exact ⟨rfl, rfl⟩
  | cons item items ih =>
      intro identities h
      cases identities with
      | nil => cases h
      | cons identity identities =>
          obtain ⟨hitems, hidentities⟩ := ih (Nat.succ.inj h)
          rw [List.zipWith_cons_cons, List.map_cons, List.map_cons, hitems, hidentities]
          exact ⟨rfl, rfl⟩

theorem reconcileRows_stops (rows : List LoadRow) : reconcileRows rows ≠ .error .running := by
  rw [reconcileRows]
  split
  · simp
  · next hindexed =>
      split
      · simp
      · next relinked hrelinked =>
          rw [Bool.not_eq_false] at hindexed
          have hstops : visitAll (parentOf relinked) (resolveRow relinked) (rows.length + 1)
              (List.range rows.length) {} ≠ .error .running :=
            visitAll_stops (linked_of_run hindexed hrelinked).parents_lt
              (fun i hi => List.mem_range.mp hi) {}
          split
          · next stop hstop =>
              intro heq
              cases heq
              exact hstops hstop
          · simp

theorem Accepted.reconciles {rows : List LoadRow} {w : Walk Resolved}
    (h : Accepted rows relinked w) (hcount : rows.length ≤ playerLoadItemMax) :
    Reconciles (rows.map LoadRow.item) (rows.map LoadRow.identity) (reconciled relinked w) where
  items_length := by rw [h.length.1, List.length_map]
  identities_length := by rw [h.length.2, List.length_map]
  acyclic := h.acyclic
  shallow i hi := h.shallow (h.length.1 ▸ hi)
  links i item identity hitem hidentity := h.links hitem hidentity
  roots i top identity other hidentity hother hreaches htop :=
    h.roots hidentity hreaches htop hother
  nested i j item hitem hparent := h.nested hitem hparent
  intact i identity hidentity hpresent := by
    rw [List.getElem?_map] at hidentity
    obtain ⟨row, hrow, rfl⟩ := Option.map_eq_some_iff.mp hidentity
    refine h.intact hrow fun k other hreaches hother => ?_
    exact hpresent k other.identity hreaches (by rw [List.getElem?_map, hother]; rfl)
  again := by
    rw [playerLoadReconcileItemTopology, h.length.1, h.length.2, if_neg (by omega)]
    exact h.again

/-- The function comes to an end; it refuses every list whose custody records go in a circle;
and one it accepts is left reconciled. -/
theorem reconcile_item_topology (items : List PlayerItemSnapshot)
    (identities : List PlayerLoadItemIdentity) :
    playerLoadReconcileItemTopology items identities ≠ .error .running ∧
    ((∃ i, TransGen (NamesParent identities) i i) →
      playerLoadReconcileItemTopology items identities = .error .refused) ∧
    ∀ result, playerLoadReconcileItemTopology items identities = .ok result →
      Reconciles items identities result := by
  rw [playerLoadReconcileItemTopology]
  split
  · exact ⟨by simp, fun _ => rfl, by simp⟩
  · next hcount =>
      obtain ⟨hlength, hmax⟩ := not_or.mp hcount
      rw [ne_eq, not_not] at hlength
      have hstops := reconcileRows_stops (List.zipWith LoadRow.mk items identities)
      obtain ⟨hitems, hidentities⟩ := zipped hlength
      generalize List.zipWith LoadRow.mk items identities = rows at hitems hidentities hstops
      subst hitems hidentities
      rw [List.length_map] at hmax
      refine ⟨hstops, fun hcircle => ?_, fun result hok => ?_⟩
      · cases hanswer : reconcileRows rows with
        | error stop =>
            cases stop with
            | refused => rfl
            | running => exact absurd hanswer hstops
        | ok result =>
            obtain ⟨relinked, w, haccepted, -⟩ := accepted_of_ok hanswer
            obtain ⟨i, hi⟩ := hcircle
            refine absurd ?_ (haccepted.acyclic i)
            rw [← haccepted.names_eq_up]
            exact TransGen.mono (fun _ _ => Accepted.names_of_parent haccepted.linked) _ _ hi
      · obtain ⟨relinked, w, haccepted, rfl⟩ := accepted_of_ok hok
        exact haccepted.reconciles (by omega)

def loadedItem (uid : BitVec 64) : PlayerItemSnapshot :=
  { parentIndex := 0, equipmentSlot := 0, objectUid := uid, generatedKey := 0
    vnum := 5, type := 1, stringMask := 0, name := [], shortDescription := [], description := []
    actionDescription := [], values := Vector.replicate 8 0, timers := Vector.replicate 6 0
    wearFlags := 0, extraFlags := 0, antiFlags := 0, anti2Flags := 0, extra2Flags := 0
    weight := 0, material := 0, cost := 0, condition := 0, craftsmanship := 0
    bitvectors := Vector.replicate 5 0, affects := Vector.replicate 4 (Vector.replicate 2 0)
    dynamicAffects := [], extraDescriptions := [] }

def loadedIdentity (databaseId uid root parent : BitVec 64) : PlayerLoadItemIdentity :=
  { databaseId, serializedParentId := 0, quantity := 1, overrideMask := 0, itemUid := uid
    rootItemUid := root, parentItemUid := parent, owner := ⟨ItemOwnerType.player, 7, 0⟩
    itemRevision := 1, ownerRevision := 1, state := ItemCustodyState.active }

/-- An item before its bag, and one whose bag is gone with another item in it. -/
example :
    (playerLoadReconcileItemTopology ([7, 8, 9, 10].map loadedItem)
      [loadedIdentity 1 7 8 8, loadedIdentity 2 8 8 0, loadedIdentity 3 9 5 5,
        loadedIdentity 4 10 5 9]).toOption.map (fun result =>
          (result.items.map (·.parentIndex), result.identities.map (·.rootItemUid),
            result.promotedRows, result.repairedRows)) =
      some ([1, noParentIndex, noParentIndex, 2], [8, 8, 9, 9], 1, 2) := by decide

end Duris.Player
