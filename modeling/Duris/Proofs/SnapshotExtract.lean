import Duris.Lib.Rows
import Duris.Player.SnapshotExtract

/-!
# An extraction loses no item and no link

A list of items with valid relationships is a forest kept as a list of rows. The loop over
it puts every item at the end of one of two lists and notes the position, so both lists are
picks of it, and the tree under the selected item is the one list.
-/

namespace Duris.Player

open Rows Forest Relation

variable {uids : List (BitVec 64)}

/-! ## Items as rows -/

def PlayerItemSnapshot.parent (item : PlayerItemSnapshot) : Option Nat :=
  if item.parentIndex = noParentIndex then none else some item.parentIndex.toNat

def SameItem (item item' : PlayerItemSnapshot) : Prop :=
  { item with parentIndex := 0 } = { item' with parentIndex := 0 }

theorem SameItem.refl (item : PlayerItemSnapshot) : SameItem item item := rfl

variable {item : PlayerItemSnapshot}

theorem SameItem.trans {item' item'' : PlayerItemSnapshot} (h : SameItem item item')
    (h' : SameItem item' item'') : SameItem item item'' := Eq.trans h h'

theorem SameItem.uid {item' : PlayerItemSnapshot} (h : SameItem item item') :
    item.objectUid = item'.objectUid := congrArg (·.objectUid) h

/-- What `valid_item_relationships` wants of the item at `i`. -/
def RowOk (items : List PlayerItemSnapshot) (i : Nat) : Prop :=
  ∃ item, items[i]? = some item ∧ i < 2 ^ 31 ∧ (∀ j, item.parent = some j → j < i) ∧
    ∃ n < playerSnapshotMaxDepth, Depth PlayerItemSnapshot.parent items i n

theorem toInt_ofNat {n : Nat} (h : n < 2 ^ 31) : (BitVec.ofNat 32 n).toInt = n := by
  rw [BitVec.toInt_ofNat']
  exact Int.bmod_eq_of_le (by omega) (by omega)

theorem eq_noParentIndex_iff {b : BitVec 32} : b = noParentIndex ↔ b.toInt = -1 := by
  refine ⟨fun h => h ▸ by decide, fun h => BitVec.eq_of_toInt_eq (h.trans (by decide))⟩

theorem parent_cases (item : PlayerItemSnapshot) :
    (item.parentIndex.toInt = -1 ∧ item.parent = none) ∨
    (0 ≤ item.parentIndex.toInt ∧ item.parent = some item.parentIndex.toInt.toNat) ∨
    (item.parentIndex.toInt < -1 ∧ ∃ j, 2 ^ 31 ≤ j ∧ item.parent = some j) := by
  by_cases hnone : item.parentIndex = noParentIndex
  · exact .inl ⟨eq_noParentIndex_iff.mp hnone, if_pos hnone⟩
  · have hsome : item.parent = some item.parentIndex.toNat := if_neg hnone
    have hne : item.parentIndex.toInt ≠ -1 := fun h => hnone (eq_noParentIndex_iff.mpr h)
    rw [hsome]
    have hcond := BitVec.toInt_eq_toNat_cond item.parentIndex
    split at hcond
    · refine .inr (.inl ⟨by omega, ?_⟩)
      rw [hcond, Int.toNat_natCast]
    · have hlt := item.parentIndex.isLt
      exact .inr (.inr ⟨by omega, _, by omega, rfl⟩)

theorem parent_of_toInt {p : Nat} (h : item.parentIndex.toInt = p) : item.parent = some p := by
  rcases parent_cases item with ⟨hneg, -⟩ | ⟨-, hparent⟩ | ⟨hneg, -⟩
  · omega
  · rw [hparent, h, Int.toNat_natCast]
  · omega

theorem itemRelationshipsFrom_iff (all : List PlayerItemSnapshot) :
    ∀ (items before : List PlayerItemSnapshot) (depths : List Nat), all = before ++ items →
      depths.length = before.length → before.length ≤ 2 ^ 31 →
      (∀ i, i < before.length → ∃ n, depths[i]? = some (n + 1) ∧
        Depth PlayerItemSnapshot.parent all i n) →
      (itemRelationshipsFrom depths items = true ↔
        ∀ i, before.length ≤ i → i < all.length → RowOk all i) := by
  intro items
  induction items with
  | nil =>
      intro before depths hall hlength hsmall hdepths
      refine iff_of_true rfl fun i hle hlt => ?_
      rw [hall, List.append_nil] at hlt
      omega
  | cons item items ih =>
      intro before depths hall hlength hsmall hdepths
      have hitem : all[before.length]? = some item := by
        rw [hall, List.getElem?_append_right (Nat.le_refl _), Nat.sub_self]
        rfl
      have hlast : before.length < all.length := (List.getElem?_eq_some_iff.mp hitem).1
      have hnext : ∀ depth n, depth = n + 1 →
          Depth PlayerItemSnapshot.parent all before.length n → before.length < 2 ^ 31 →
          (itemRelationshipsFrom (depths ++ [depth]) items = true ↔
            ∀ i, before.length + 1 ≤ i → i < all.length → RowOk all i) := by
        rintro depth n rfl hdepth hroom
        have hih := ih (before ++ [item]) (depths ++ [n + 1]) (by rw [hall, List.append_assoc]; rfl)
          (by rw [List.length_append, List.length_append, hlength]; rfl)
          (by rw [List.length_append]; exact hroom)
        rw [List.length_append] at hih
        refine hih fun i hi => ?_
        rcases Nat.lt_succ_iff_lt_or_eq.mp hi with hlt | rfl
        · obtain ⟨m, hm, hdepth⟩ := hdepths i hlt
          exact ⟨m, by rw [List.getElem?_append_left (by omega), hm], hdepth⟩
        · refine ⟨n, ?_, hdepth⟩
          rw [List.getElem?_append_right (by omega), hlength, Nat.sub_self]
          rfl
      have hhead : RowOk all before.length →
          ((∀ i, before.length + 1 ≤ i → i < all.length → RowOk all i) ↔
            ∀ i, before.length ≤ i → i < all.length → RowOk all i) := by
        refine fun hrow => ⟨fun h i hle hlt => ?_, fun h i hle => h i (by omega)⟩
        rcases Nat.lt_or_eq_of_le hle with hlt' | rfl
        · exact h i hlt' hlt
        · exact hrow
      have hinvalid : ¬ RowOk all before.length → (false = true ↔
          ∀ i, before.length ≤ i → i < all.length → RowOk all i) :=
        fun hrow => iff_of_false Bool.false_ne_true fun h => hrow (h _ (Nat.le_refl _) hlast)
      rw [itemRelationshipsFrom, hlength]
      simp only [playerSnapshotNoParent]
      by_cases hbounds : item.parentIndex.toInt < -1 ∨
          (BitVec.ofNat 32 before.length).toInt ≤ item.parentIndex.toInt
      · rw [if_pos hbounds]
        refine hinvalid ?_
        rintro ⟨row, hrow, hroom, hplaced, -⟩
        rw [hitem] at hrow
        cases hrow
        rw [toInt_ofNat hroom] at hbounds
        rcases parent_cases item with ⟨hnone, -⟩ | ⟨hnonneg, hparent⟩ | ⟨-, j, hj, hparent⟩
        · omega
        · have := hplaced _ hparent
          omega
        · have := hplaced _ hparent
          omega
      · rw [if_neg hbounds]
        have hroom : before.length < 2 ^ 31 := by
          refine lt_of_le_of_ne hsmall fun heq => ?_
          rw [heq] at hbounds
          have hwrapped : (BitVec.ofNat 32 (2 ^ 31)).toInt = -2147483648 := by decide
          omega
        rw [toInt_ofNat hroom] at hbounds
        rcases parent_cases item with ⟨hnone, hparent⟩ | ⟨hnonneg, hparent⟩ | ⟨hneg, -⟩
        · rw [if_neg (by omega)]
          have hself : Depth PlayerItemSnapshot.parent all before.length 0 := by
            refine .of_top fun j hup => ?_
            obtain ⟨row, hrow, hj⟩ := hup
            rw [hitem] at hrow
            cases hrow
            rw [hparent] at hj
            cases hj
          rw [hnext 1 0 rfl hself hroom]
          refine hhead ⟨item, hitem, hroom, fun j hj => ?_, 0, by decide, hself⟩
          rw [hparent] at hj
          cases hj
        · rw [if_pos hnonneg]
          obtain ⟨n, hn, hdepth⟩ := hdepths item.parentIndex.toInt.toNat (by omega)
          have hself : Depth PlayerItemSnapshot.parent all before.length (n + 1) :=
            hdepth.of_up ⟨item, hitem, hparent⟩
          rw [List.getD_eq_getElem?_getD, hn, Option.getD_some]
          by_cases hdeep : playerSnapshotMaxDepth < n + 1 + 1
          · rw [if_pos hdeep]
            refine hinvalid ?_
            rintro ⟨row, -, -, -, m, hm, hdepth'⟩
            have := hself.unique hdepth'
            omega
          · rw [if_neg hdeep, hnext _ (n + 1) rfl hself hroom]
            refine hhead ⟨item, hitem, hroom, fun j hj => ?_, n + 1, by omega, hself⟩
            rw [hparent] at hj
            cases hj
            omega
        · omega

theorem validItemRelationships_iff (items : List PlayerItemSnapshot) :
    validItemRelationships items = true ↔ ∀ i < items.length, RowOk items i := by
  refine (itemRelationshipsFrom_iff items items [] [] rfl rfl (Nat.zero_le _)
    fun i hi => absurd hi (Nat.not_lt_zero i)).trans ?_
  exact ⟨fun h i hi => h i (Nat.zero_le i) hi, fun h i _ hi => h i hi⟩

/-! ## The loop -/

/-- The row at `i` is the one at `top` or lies below it. -/
def Below (items : List PlayerItemSnapshot) (top i : Nat) : Prop :=
  ReflTransGen (Up PlayerItemSnapshot.parent items) i top

/-- One of the two lists of the loop, with the places its items come from, and where the
items that belong to it find their positions. -/
structure ListPart (items : List PlayerItemSnapshot) (cut member : Nat → Prop) (seen : Nat)
    (positions : List (BitVec 32)) (places : List Nat) (out : List PlayerItemSnapshot) : Prop where
  length : positions.length = seen
  picks : Picks PlayerItemSnapshot.parent SameItem items cut places out
  placed : Placed PlayerItemSnapshot.parent out
  ordered : places.Pairwise (· < ·)
  mem : ∀ i ∈ places, i < seen ∧ member i
  position : ∀ i < seen, member i →
    ∃ p, places[p]? = some i ∧ positions[i]? = some (BitVec.ofNat 32 p)

namespace ListPart

variable {items : List PlayerItemSnapshot} {cut member : Nat → Prop} {seen : Nat}
  {positions : List (BitVec 32)} {places : List Nat} {out : List PlayerItemSnapshot}

theorem initial : ListPart items cut member 0 [] [] [] where
  length := rfl
  picks := Picks.nil
  placed := by
    rintro i j ⟨row, hrow, -⟩
    cases hrow
  ordered := .nil
  mem := by intro i hi; cases hi
  position := by intro i hi; exact absurd hi (Nat.not_lt_zero i)

variable (h : ListPart items cut member seen positions places out)

include h

theorem skip (hmember : ¬ member seen)
    (position : BitVec 32) :
    ListPart items cut member (seen + 1) (positions ++ [position]) places out where
  length := by rw [List.length_append, h.length]; rfl
  picks := h.picks
  placed := h.placed
  ordered := h.ordered
  mem i hi := ⟨Nat.lt_succ_of_lt (h.mem i hi).1, (h.mem i hi).2⟩
  position i hi hmem := by
    rcases Nat.lt_succ_iff_lt_or_eq.mp hi with hlt | rfl
    · obtain ⟨p, hp, hposition⟩ := h.position i hlt hmem
      exact ⟨p, hp, by rw [List.getElem?_append_left (by rw [h.length]; exact hlt), hposition]⟩
    · exact absurd hmem hmember

theorem take (hmember : member seen)
    {item : PlayerItemSnapshot} (hitem : items[seen]? = some item) (parent : BitVec 32)
    (hlink : Link PlayerItemSnapshot.parent cut places seen item
      { item with parentIndex := parent }) :
    ListPart items cut member (seen + 1) (positions ++ [BitVec.ofNat 32 out.length])
      (places ++ [seen]) (out ++ [{ item with parentIndex := parent }]) where
  length := by rw [List.length_append, h.length]; rfl
  picks := h.picks.snoc hitem rfl hlink
  placed := by
    rintro i j ⟨row, hrow, hj⟩
    by_cases hi : i < out.length
    · rw [List.getElem?_append_left hi] at hrow
      exact h.placed i j ⟨row, hrow, hj⟩
    · have heq : i = out.length := by
        have := (List.getElem?_eq_some_iff.mp hrow).1
        rw [List.length_append, List.length_singleton] at this
        omega
      rw [heq, List.getElem?_append_right (Nat.le_refl _), Nat.sub_self] at hrow
      cases hrow
      rcases hlink with ⟨hnone, -⟩ | ⟨_, q, -, -, hq, hplace⟩
      · rw [hj] at hnone
        cases hnone
      · rw [hj] at hq
        cases hq
        rw [heq, ← h.picks.length_eq]
        exact (List.getElem?_eq_some_iff.mp hplace).1
  ordered := by
    refine List.pairwise_append.mpr ⟨h.ordered, List.pairwise_singleton _ _, ?_⟩
    intro i hi j hj
    rw [List.mem_singleton.mp hj]
    exact (h.mem i hi).1
  mem i hi := by
    rcases List.mem_append.mp hi with hi | hi
    · exact ⟨Nat.lt_succ_of_lt (h.mem i hi).1, (h.mem i hi).2⟩
    · rw [List.mem_singleton.mp hi]
      exact ⟨Nat.lt_succ_self seen, hmember⟩
  position i hi hmem := by
    rcases Nat.lt_succ_iff_lt_or_eq.mp hi with hlt | rfl
    · obtain ⟨p, hp, hposition⟩ := h.position i hlt hmem
      refine ⟨p, ?_, by rw [List.getElem?_append_left (by rw [h.length]; exact hlt), hposition]⟩
      rw [List.getElem?_append_left (List.getElem?_eq_some_iff.mp hp).1, hp]
    · refine ⟨out.length, ?_, ?_⟩
      · rw [← h.picks.length_eq, List.getElem?_append_right (Nat.le_refl _), Nat.sub_self]
        rfl
      · rw [List.getElem?_append_right (by rw [h.length]), h.length, Nat.sub_self]
        rfl

theorem lookup (hsmall : seen ≤ 2 ^ 31)
    {i : Nat} (hi : i < seen) (hmem : member i) :
    ∃ p : Nat, places[p]? = some i ∧ (positions.getD i noParentIndex).toInt = p := by
  obtain ⟨p, hp, hposition⟩ := h.position i hi hmem
  refine ⟨p, hp, ?_⟩
  have hlength : places.length ≤ seen := by
    have hsub : places ⊆ List.range seen := fun j hj => List.mem_range.mpr (h.mem j hj).1
    have hnodup : places.Nodup := h.ordered.imp Nat.ne_of_lt
    have hle := (hnodup.subperm hsub).length_le
    rwa [List.length_range] at hle
  have hlt := (List.getElem?_eq_some_iff.mp hp).1
  rw [List.getD_eq_getElem?_getD, hposition, Option.getD_some, toInt_ofNat (by omega)]

end ListPart

/-- The loop over the first `seen` items, with the places of the items it selected and
of those it kept. -/
structure Splits (items : List PlayerItemSnapshot) (top : Nat) (st : Extraction) (seen : Nat)
    (selected remaining : List Nat) : Prop where
  length : st.included.length = seen
  included : ∀ i < seen, (st.included.getD i false = true ↔ Below items top i)
  select : ListPart items (· = top) (Below items top) seen st.selectedPositions selected st.selected
  keep : ListPart items (fun _ => False) (fun i => ¬ Below items top i) seen
    st.remainingPositions remaining st.remaining
  perm : (selected ++ remaining).Perm (List.range seen)

namespace Splits

variable {items : List PlayerItemSnapshot} {top : Nat} {st st' : Extraction} {seen : Nat}
  {selected remaining : List Nat} {item : PlayerItemSnapshot}

theorem initial (items : List PlayerItemSnapshot) (top : Nat) :
    Splits items top {} 0 [] [] where
  length := rfl
  included := by intro i hi; exact absurd hi (Nat.not_lt_zero i)
  select := .initial
  keep := .initial
  perm := .refl _

theorem included_snoc (h : Splits items top st seen selected remaining) {b : Bool}
    (hb : b = true ↔ Below items top seen) :
    ∀ i < seen + 1, ((st.included ++ [b]).getD i false = true ↔ Below items top i) := by
  intro i hi
  rcases Nat.lt_succ_iff_lt_or_eq.mp hi with hlt | rfl
  · rw [List.getD_eq_getElem?_getD, List.getElem?_append_left (by rw [h.length]; exact hlt),
      ← List.getD_eq_getElem?_getD]
    exact h.included i hlt
  · rw [List.getD_eq_getElem?_getD, List.getElem?_append_right (by rw [h.length]), h.length,
      Nat.sub_self]
    exact hb

theorem select_next (h : Splits items top st seen selected remaining)
    (hitem : items[seen]? = some item) (hbelow : Below items top seen) (parent : BitVec 32)
    (hlink : Link PlayerItemSnapshot.parent (· = top) selected seen item
      { item with parentIndex := parent }) :
    Splits items top (st.select item parent) (seen + 1) (selected ++ [seen]) remaining where
  length := by rw [Extraction.select, List.length_append, h.length]; rfl
  included := h.included_snoc (iff_of_true rfl hbelow)
  select := h.select.take hbelow hitem parent hlink
  keep := h.keep.skip (fun hnot => hnot hbelow) noParentIndex
  perm := by
    rw [List.append_assoc, List.range_succ]
    refine (List.Perm.append_left selected List.perm_append_comm).trans ?_
    rw [← List.append_assoc]
    exact h.perm.append_right _

theorem keep_next (h : Splits items top st seen selected remaining)
    (hitem : items[seen]? = some item) (hbelow : ¬ Below items top seen) (parent : BitVec 32)
    (hlink : Link PlayerItemSnapshot.parent (fun _ => False) remaining seen item
      { item with parentIndex := parent }) :
    Splits items top (st.keep item parent) (seen + 1) selected (remaining ++ [seen]) where
  length := by rw [Extraction.keep, List.length_append, h.length]; rfl
  included := h.included_snoc (iff_of_false Bool.false_ne_true hbelow)
  select := h.select.skip hbelow noParentIndex
  keep := h.keep.take hbelow hitem parent hlink
  perm := by
    rw [← List.append_assoc, List.range_succ]
    exact h.perm.append_right _

/-- An item whose parent was looked at already: where the way up from it leads. -/
theorem below_iff (hitem : items[seen]? = some item) (hne : seen ≠ top) {j : Nat}
    (hparent : item.parent = some j) : Below items top seen ↔ Below items top j :=
  reaches_iff ⟨item, hitem, hparent⟩ hne

theorem below_top (hitem : items[seen]? = some item) (hparent : item.parent = none)
    (hbelow : Below items top seen) : seen = top := by
  refine reaches_top ?_ hbelow
  rintro j ⟨row, hrow, hj⟩
  rw [hitem] at hrow
  cases hrow
  rw [hparent] at hj
  cases hj

/-- The links that a valid list has are all found, so the loop never gives up. -/
theorem next (h : Splits items top st seen selected remaining)
    (hitem : items[seen]? = some item) (hrow : RowOk items seen) :
    ∃ st' selected remaining, st.next top item = some st' ∧
      Splits items top st' (seen + 1) selected remaining := by
  obtain ⟨row, hrow, hroom, hplaced, -⟩ := hrow
  rw [hitem] at hrow
  cases hrow
  rw [Extraction.next, Extraction.includes, h.length]
  have hlost : noParentIndex.toInt = -1 := by decide
  have hcut : ∀ item : PlayerItemSnapshot,
      PlayerItemSnapshot.parent { item with parentIndex := noParentIndex } = none :=
    fun _ => if_pos rfl
  by_cases htop : seen = top
  · -- the selected item itself
    rw [if_pos htop, if_pos rfl, if_pos htop]
    refine ⟨_, _, _, rfl, h.select_next hitem ?_ noParentIndex (.inl ⟨hcut item, .inl htop⟩)⟩
    rw [htop]
    exact ReflTransGen.refl
  · rw [if_neg htop]
    by_cases hnone : item.parentIndex = noParentIndex
    · -- a root that stays
      rw [if_neg (not_not_intro hnone), if_neg Bool.false_ne_true, if_pos hnone]
      have hparent : item.parent = none := if_pos hnone
      exact ⟨_, _, _, rfl, h.keep_next hitem
        (fun hbelow => htop (below_top hitem hparent hbelow)) noParentIndex
        (.inl ⟨hcut item, .inr hparent⟩)⟩
    · rw [if_pos hnone]
      have hparent : item.parent = some item.parentIndex.toNat := if_neg hnone
      have hlt := hplaced _ hparent
      by_cases hincluded : st.included.getD item.parentIndex.toNat false = true
      · -- it goes with its parent
        rw [if_pos hincluded, if_neg htop]
        have hbelow := (h.included _ hlt).mp hincluded
        obtain ⟨p, hp, hposition⟩ := h.select.lookup (by omega) hlt hbelow
        rw [if_neg (fun heq => by rw [heq, hlost] at hposition; omega)]
        refine ⟨_, _, _, rfl,
          h.select_next hitem ((below_iff hitem htop hparent).mpr hbelow) _ ?_⟩
        exact .inr ⟨_, p, htop, hparent, parent_of_toInt hposition, hp⟩
      · -- it stays with its parent
        rw [if_neg hincluded, if_neg hnone]
        have hbelow := fun hbelow => hincluded ((h.included _ hlt).mpr hbelow)
        obtain ⟨p, hp, hposition⟩ := h.keep.lookup (by omega) hlt hbelow
        rw [if_neg (fun heq => by rw [heq, hlost] at hposition; omega)]
        refine ⟨_, _, _, rfl, h.keep_next hitem
          (fun hself => hbelow ((below_iff hitem htop hparent).mp hself)) _ ?_⟩
        exact .inr ⟨_, p, not_false, hparent, parent_of_toInt hposition, hp⟩

theorem nexts (hvalid : ∀ i < items.length, RowOk items i) :
    ∀ (rest before : List PlayerItemSnapshot) {st : Extraction} {selected remaining : List Nat},
      items = before ++ rest → Splits items top st before.length selected remaining →
      ∃ st' selected remaining, Extraction.nexts top rest st = some st' ∧
        Splits items top st' items.length selected remaining := by
  intro rest
  induction rest with
  | nil =>
      intro before st selected remaining hitems h
      rw [List.append_nil] at hitems
      exact ⟨st, selected, remaining, rfl, hitems ▸ h⟩
  | cons item rest ih =>
      intro before st selected remaining hitems h
      have hitem : items[before.length]? = some item := by
        rw [hitems, List.getElem?_append_right (Nat.le_refl _), Nat.sub_self]
        rfl
      obtain ⟨next, selected, remaining, hnext, hsplits⟩ :=
        h.next hitem (hvalid _ (List.getElem?_eq_some_iff.mp hitem).1)
      have hmore : Splits items top next (before ++ [item]).length selected remaining := by
        rw [List.length_append]
        exact hsplits
      rw [Extraction.nexts, hnext]
      exact ih (before ++ [item]) (by rw [hitems, List.append_assoc]; rfl) hmore

end Splits

/-! ## One tree -/

/-- The two lists of an extraction, with the places of their items. -/
structure Extracted (items : List PlayerItemSnapshot) (cut member : Nat → Prop)
    (selected remaining : List Nat) (out : ExtractOut) : Prop where
  select : Picks PlayerItemSnapshot.parent SameItem items cut selected out.selected
  keep : Picks PlayerItemSnapshot.parent SameItem items (fun _ => False) remaining out.remaining
  placed_select : Placed PlayerItemSnapshot.parent out.selected
  placed_keep : Placed PlayerItemSnapshot.parent out.remaining
  ordered : remaining.Pairwise (· < ·)
  mem : ∀ i ∈ selected, member i
  not_mem : ∀ i ∈ remaining, ¬ member i
  perm : (selected ++ remaining).Perm (List.range items.length)

variable {items : List PlayerItemSnapshot} {item : PlayerItemSnapshot}

theorem Splits.extracted {top : Nat} {st : Extraction} {selected remaining : List Nat}
    (h : Splits items top st items.length selected remaining) :
    Extracted items (· = top) (Below items top) selected remaining ⟨st.selected, st.remaining⟩ where
  select := h.select.picks
  keep := h.keep.picks
  placed_select := h.select.placed
  placed_keep := h.keep.placed
  ordered := h.keep.ordered
  mem i hi := (h.select.mem i hi).2
  not_mem i hi := (h.keep.mem i hi).2
  perm := h.perm

theorem extractSubtree_ok {uid : BitVec 64} {allocates : Bool} {out tree : ExtractOut}
    (h : playerItemSnapshotExtractSubtree items uid allocates out = (.ok, tree)) :
    ∃ top selected remaining, items.findIdx? (fun item => item.objectUid = uid) = some top ∧
      (∀ i < items.length, RowOk items i) ∧
      Extracted items (· = top) (Below items top) selected remaining tree := by
  rw [playerItemSnapshotExtractSubtree] at h
  split at h
  · cases h
  · next hvalid =>
      obtain ⟨-, hvalid⟩ := not_or.mp hvalid
      rw [Bool.not_eq_false, validItemRelationships_iff] at hvalid
      cases hfound : items.findIdx? fun item => item.objectUid = uid with
      | none =>
          rw [hfound] at h
          cases h
      | some top =>
          rw [hfound] at h
          simp only at h
          split at h
          · cases h
          · obtain ⟨st, selected, remaining, hnexts, hsplits⟩ :=
              Splits.nexts hvalid items [] rfl (Splits.initial items top)
            rw [hnexts] at h
            cases h
            exact ⟨top, selected, remaining, rfl, hvalid, hsplits.extracted⟩

/-- An item that is there can be taken out, as long as there is memory. -/
theorem extractSubtree_succeeds {uid : BitVec 64} (huid : uid ≠ 0)
    (hvalid : validItemRelationships items = true)
    (hthere : ∃ item ∈ items, item.objectUid = uid) (out : ExtractOut) :
    ∃ tree, playerItemSnapshotExtractSubtree items uid true out = (.ok, tree) := by
  have hrefused : ¬(uid = 0 ∨ validItemRelationships items = false) :=
    not_or.mpr ⟨huid, Bool.not_eq_false _ ▸ hvalid⟩
  rw [playerItemSnapshotExtractSubtree, if_neg hrefused]
  cases hfound : items.findIdx? fun item => item.objectUid = uid with
  | none =>
      obtain ⟨item, hitem, heq⟩ := hthere
      exact absurd (decide_eq_true heq) (List.findIdx?_eq_none_iff.mp hfound item hitem ▸
        Bool.false_ne_true)
  | some top =>
      obtain ⟨st, -, -, hnexts, -⟩ := Splits.nexts
        ((validItemRelationships_iff items).mp hvalid) items [] rfl (Splits.initial items top)
      dsimp only
      rw [if_neg (by decide), hnexts]
      exact ⟨_, rfl⟩

/-! ## Several trees -/

/-- The item is one of the roots or lies below one. -/
def UnderAny (items : List PlayerItemSnapshot) (roots : List Nat) (i : Nat) : Prop :=
  ∃ root ∈ roots, Below items root i

/-- Each root is the first item of its uid outside the trees of the roots before it. -/
def FirstRoots (items : List PlayerItemSnapshot) (uids : List (BitVec 64)) (roots : List Nat) :
    Prop :=
  uids.length = roots.length ∧ ∀ k root uid, roots[k]? = some root → uids[k]? = some uid →
    (∃ item, items[root]? = some item ∧ item.objectUid = uid) ∧
    (∀ other ∈ roots.take k, ¬ Below items other root) ∧
    ∀ i item, i < root → items[i]? = some item → item.objectUid = uid →
      ∃ other ∈ roots.take k, Below items other i

theorem FirstRoots.snoc {roots : List Nat} (h : FirstRoots items uids roots) {uid : BitVec 64}
    {root : Nat} (hitem : items[root]? = some item) (huid : item.objectUid = uid)
    (hnew : ∀ other ∈ roots, ¬ Below items other root)
    (hfirst : ∀ i item, i < root → items[i]? = some item → item.objectUid = uid →
      ∃ other ∈ roots, Below items other i) :
    FirstRoots items (uids ++ [uid]) (roots ++ [root]) := by
  obtain ⟨hlength, hroots⟩ := h
  refine ⟨by rw [List.length_append, List.length_append, hlength]; rfl, ?_⟩
  intro k root' uid' hroot huid'
  rcases Nat.lt_or_ge k roots.length with hk | hk
  · rw [List.getElem?_append_left hk] at hroot
    rw [List.getElem?_append_left (by rw [hlength]; exact hk)] at huid'
    rw [List.take_append_of_le_length (Nat.le_of_lt hk)]
    exact hroots k root' uid' hroot huid'
  · have heq : k = roots.length := by
      have := (List.getElem?_eq_some_iff.mp hroot).1
      rw [List.length_append, List.length_singleton] at this
      omega
    rw [heq, List.getElem?_append_right (Nat.le_refl _), Nat.sub_self] at hroot
    rw [heq, List.getElem?_append_right (by rw [hlength]), hlength, Nat.sub_self] at huid'
    cases hroot
    cases huid'
    rw [heq, List.take_append_of_le_length (Nat.le_refl _), List.take_length]
    exact ⟨⟨item, hitem, huid⟩, hnew, hfirst⟩

theorem rebase_same (offset : Nat) {item' : PlayerItemSnapshot} (h : SameItem item item') :
    SameItem item (rebase offset item') := by
  rw [rebase]
  split
  · exact h
  · exact h

theorem rebase_parent {offset : Nat} (bound : Nat) (hbound : offset + bound ≤ 2 ^ 31)
    (hparent : ∀ q, item.parent = some q → q < bound) :
    (rebase offset item).parent = item.parent.map (· + offset) := by
  rcases parent_cases item with ⟨hnone, hparent'⟩ | ⟨hnonneg, hsome⟩ | ⟨-, j, hj, hsome⟩
  · rw [rebase, if_pos (eq_noParentIndex_iff.mpr hnone), hparent']
    rfl
  · have hlt := hparent _ hsome
    have hne : item.parentIndex ≠ noParentIndex := by
      intro heq
      have := eq_noParentIndex_iff.mp heq
      omega
    rw [rebase, if_neg hne, hsome, Option.map_some]
    refine parent_of_toInt ?_
    show (item.parentIndex + BitVec.ofNat 32 offset).toInt = _
    rw [BitVec.toInt_add, toInt_ofNat (by omega)]
    exact (Int.bmod_eq_of_le (by omega) (by omega)).trans (by omega)
  · have := hparent _ hsome
    omega

namespace Extracted

variable {items : List PlayerItemSnapshot} {roots selected remaining : List Nat}
  {st tree : ExtractOut}

theorem mem_or (h : Extracted items (· ∈ roots) (UnderAny items roots)
    selected remaining st) {i : Nat} (hi : i < items.length) : i ∈ selected ∨ i ∈ remaining :=
  List.mem_append.mp (h.perm.mem_iff.mpr (List.mem_range.mpr hi))

theorem more (h : Extracted items (· ∈ roots) (UnderAny items roots)
      selected remaining st) (hsmall : items.length ≤ 2 ^ 31)
    {top root : Nat} (hroot : remaining[top]? = some root) {selected' remaining' : List Nat}
    (htree : Extracted st.remaining (· = top) (Below st.remaining top) selected' remaining' tree) :
    Extracted items (· ∈ roots ++ [root]) (UnderAny items (roots ++ [root]))
      (selected ++ selected'.map fun p => remaining.getD p 0)
      (remaining'.map fun p => remaining.getD p 0)
      ⟨st.selected ++ tree.selected.map (rebase st.selected.length), tree.remaining⟩ := by
  have hnodup : remaining.Nodup := h.ordered.imp Nat.ne_of_lt
  have hlength : st.remaining.length = remaining.length := h.keep.length_eq.symm
  have hat : ∀ {p}, p < st.remaining.length → remaining[p]? = some (remaining.getD p 0) := by
    intro p hp
    rw [List.getD_eq_getElem?_getD, List.getElem?_eq_getElem (hlength ▸ hp)]
    rfl
  have hpos : ∀ {p}, p ∈ selected' ∨ p ∈ remaining' → p < st.remaining.length :=
    fun hp => List.mem_range.mp (htree.perm.mem_iff.mp (List.mem_append.mpr hp))
  have hmem : ∀ {p}, p < st.remaining.length → remaining.getD p 0 ∈ remaining :=
    fun hp => List.mem_of_getElem? (hat hp)
  have hbelow : ∀ {p}, p < st.remaining.length →
      (Below st.remaining top p ↔ Below items root (remaining.getD p 0)) :=
    fun hp => h.keep.reaches_iff hnodup (hat hp) hroot
  -- the roots so far have left, so none of them is among what remains
  have hgone : ∀ {i}, i ∈ remaining → i ∉ roots :=
    fun hi hroots => h.not_mem _ hi ⟨_, hroots, ReflTransGen.refl⟩
  have hperm : (selected ++ (selected'.map (fun p => remaining.getD p 0) ++
      remaining'.map fun p => remaining.getD p 0)).Perm (List.range items.length) := by
    refine (List.Perm.append_left selected ?_).trans h.perm
    rw [← List.map_append]
    refine (htree.perm.map _).trans (List.Perm.of_eq ?_)
    rw [hlength, map_getD_range]
  have hshift : ∀ x ∈ tree.selected, (rebase st.selected.length x).parent =
      x.parent.map (· + st.selected.length) := by
    intro x hx
    refine rebase_parent tree.selected.length ?_ fun q hq => ?_
    · have hcount := hperm.length_eq
      rw [List.length_append, List.length_append, List.length_map, List.length_range,
        h.select.length_eq, htree.select.length_eq] at hcount
      omega
    · obtain ⟨i, hi⟩ := List.getElem?_of_mem hx
      have hlt := htree.placed_select i q ⟨x, hi, hq⟩
      exact Nat.lt_trans hlt (List.getElem?_eq_some_iff.mp hi).1
  have hfun : ∀ x y z, SameItem x y → SameItem y z → SameItem x z := fun _ _ _ => SameItem.trans
  constructor
  · refine Picks.append (h.select.congr_cut fun i hi => ?_)
      ((h.keep.trans hnodup htree.select hfun).congr_cut fun i hi => ?_)
      (fun _ _ => rebase_same _) ?_
    · rw [List.mem_append, List.mem_singleton]
      refine ⟨.inl, ?_⟩
      rintro (hroots | rfl)
      · exact hroots
      · exact absurd (h.mem i hi) (h.not_mem i (List.mem_of_getElem? hroot))
    · obtain ⟨p, hp, rfl⟩ := List.mem_map.mp hi
      have hlt := hpos (.inl hp)
      rw [List.mem_append, List.mem_singleton]
      constructor
      · rintro (hfalse | ⟨p', hp', rfl⟩)
        · exact hfalse.elim
        · rw [hroot] at hp'
          exact .inr (Option.some.inj hp').symm
      · rintro (hroots | heq)
        · exact absurd hroots (hgone (hmem hlt))
        · refine .inr ⟨p, hat hlt, place_inj hnodup (hat hlt) ?_⟩
          rw [heq]
          exact hroot
    · rw [h.select.length_eq]
      exact hshift
  · refine (h.keep.trans hnodup htree.keep hfun).congr_cut fun i _ => ?_
    simp
  · exact h.placed_select.append htree.placed_select hshift
  · exact htree.placed_keep
  · refine List.pairwise_map.mpr (htree.ordered.imp_of_mem ?_)
    intro p q hp hq hlt
    have hp' := hpos (.inr hp)
    have hq' := hpos (.inr hq)
    rw [hlength] at hp' hq'
    rw [List.getD_eq_getElem?_getD, List.getD_eq_getElem?_getD, List.getElem?_eq_getElem hp',
      List.getElem?_eq_getElem hq']
    exact List.pairwise_iff_getElem.mp h.ordered p q hp' hq' hlt
  · intro i hi
    rcases List.mem_append.mp hi with hi | hi
    · obtain ⟨other, hother, hother'⟩ := h.mem i hi
      exact ⟨other, List.mem_append_left _ hother, hother'⟩
    · obtain ⟨p, hp, rfl⟩ := List.mem_map.mp hi
      exact ⟨root, by simp, (hbelow (hpos (.inl hp))).mp (htree.mem p hp)⟩
  · intro i hi
    obtain ⟨p, hp, rfl⟩ := List.mem_map.mp hi
    have hlt := hpos (.inr hp)
    rintro ⟨other, hother, hbelow'⟩
    rcases List.mem_append.mp hother with hother | hother
    · exact h.not_mem _ (hmem hlt) ⟨other, hother, hbelow'⟩
    · rw [List.mem_singleton.mp hother] at hbelow'
      exact htree.not_mem p hp ((hbelow hlt).mpr hbelow')
  · rw [List.append_assoc]
    exact hperm

end Extracted

/-- The roots taken so far, and the two lists they leave. -/
def Forests (items : List PlayerItemSnapshot) (uids : List (BitVec 64)) (roots selected remaining :
    List Nat) (st : ExtractOut) : Prop :=
  FirstRoots items uids roots ∧
    Extracted items (· ∈ roots) (UnderAny items roots) selected remaining st

variable {items : List PlayerItemSnapshot}

theorem placed_of_valid (hvalid : ∀ i < items.length, RowOk items i) :
    Placed PlayerItemSnapshot.parent items := by
  rintro i j ⟨item, hitem, hj⟩
  obtain ⟨item', hitem', -, hplaced, -⟩ := hvalid i (List.getElem?_eq_some_iff.mp hitem).1
  rw [hitem] at hitem'
  cases hitem'
  exact hplaced j hj

theorem length_of_valid (hvalid : ∀ i < items.length, RowOk items i) : items.length ≤ 2 ^ 31 := by
  by_contra hlong
  obtain ⟨-, -, hlt, -⟩ := hvalid (2 ^ 31) (Nat.lt_of_not_le hlong)
  exact Nat.lt_irrefl _ hlt

theorem Forests.initial (hvalid : ∀ i < items.length, RowOk items i) :
    Forests items [] [] [] (List.range items.length) ⟨[], items⟩ := by
  refine ⟨⟨rfl, fun k root uid hroot => by cases hroot⟩, ?_⟩
  constructor
  · exact Picks.nil
  · exact Picks.all SameItem.refl (placed_of_valid hvalid) fun _ => not_false
  · rintro i j ⟨row, hrow, -⟩
    cases hrow
  · exact placed_of_valid hvalid
  · exact List.pairwise_lt_range
  · intro i hi
    cases hi
  · rintro i - ⟨root, hroot, -⟩
    cases hroot
  · exact .refl _

theorem Forests.next (hsmall : items.length ≤ 2 ^ 31) {roots selected remaining : List Nat}
    {st tree : ExtractOut} (h : Forests items uids roots selected remaining st) {uid : BitVec 64}
    {allocates : Bool} {out : ExtractOut}
    (htree : playerItemSnapshotExtractSubtree st.remaining uid allocates out = (.ok, tree)) :
    ∃ roots selected remaining, Forests items (uids ++ [uid]) roots selected remaining
      ⟨st.selected ++ tree.selected.map (rebase st.selected.length), tree.remaining⟩ := by
  obtain ⟨hroots, hlists⟩ := h
  obtain ⟨top, selected', remaining', hfound, -, htree⟩ := extractSubtree_ok htree
  obtain ⟨htop, huid, hfirst⟩ := List.findIdx?_eq_some_iff_getElem.mp hfound
  obtain ⟨root, item, hroot, hitem, hsame, -⟩ :=
    hlists.keep.get_row (List.getElem?_eq_getElem htop)
  refine ⟨_, _, _, hroots.snoc hitem ?_ ?_ ?_, hlists.more hsmall hroot htree⟩
  · rw [hsame.uid]
    exact of_decide_eq_true huid
  · exact fun other hother hbelow =>
      hlists.not_mem root (List.mem_of_getElem? hroot) ⟨other, hother, hbelow⟩
  · intro i item' hlt hitem' huid'
    rcases hlists.mem_or (List.getElem?_eq_some_iff.mp hitem').1 with hi | hi
    · exact hlists.mem i hi
    · obtain ⟨p, hp⟩ := List.getElem?_of_mem hi
      obtain ⟨x, y, hx, hy, hsame', -⟩ := hlists.keep.get hp
      rw [hitem'] at hy
      cases hy
      have hpt : p < top := by
        obtain ⟨hplt, hpi⟩ := List.getElem?_eq_some_iff.mp hp
        obtain ⟨htlt, htr⟩ := List.getElem?_eq_some_iff.mp hroot
        by_contra hle
        rcases Nat.lt_or_eq_of_le (Nat.le_of_not_lt hle) with hbefore | rfl
        · have := List.pairwise_iff_getElem.mp hlists.ordered top p htlt hplt hbefore
          omega
        · omega
      obtain ⟨hplt, rfl⟩ := List.getElem?_eq_some_iff.mp hx
      exact absurd (decide_eq_true (hsame'.uid.symm.trans huid')) (hfirst p hpt)

theorem extractTrees_ok (hsmall : items.length ≤ 2 ^ 31) (out : ExtractOut) :
    ∀ (rest : List (BitVec 64)) (allocates : List Bool) (st : ExtractOut)
      {uids : List (BitVec 64)} {roots selected remaining : List Nat},
      Forests items uids roots selected remaining st →
      (extractTrees out rest allocates st).1 = .ok →
      ∃ roots selected remaining, Forests items (uids ++ rest) roots selected remaining
        (extractTrees out rest allocates st).2 := by
  intro rest
  induction rest with
  | nil =>
      intro allocates st uids roots selected remaining h _
      rw [List.append_nil]
      exact ⟨roots, selected, remaining, h⟩
  | cons uid rest ih =>
      intro allocates st uids roots selected remaining h hok
      rw [extractTrees] at hok ⊢
      cases htree : playerItemSnapshotExtractSubtree st.remaining uid (allocates.headD true)
          ⟨[], []⟩ with
      | mk result tree =>
          rw [htree] at hok
          cases result with
          | ok =>
              simp only at hok ⊢
              split at hok
              · cases hok
              · next hallocates =>
                  obtain ⟨roots, selected, remaining, hnext⟩ := h.next hsmall htree
                  have hmore := ih allocates.tail.tail _ hnext hok
                  rw [List.append_assoc] at hmore
                  rw [if_neg hallocates]
                  exact hmore
          | invalidValue => cases hok
          | allocationFailure => cases hok

theorem extractTrees_out (out : ExtractOut) : ∀ (uids : List (BitVec 64)) (allocates : List Bool)
    (st : ExtractOut), (extractTrees out uids allocates st).1 ≠ .ok →
      (extractTrees out uids allocates st).2 = out := by
  intro uids
  induction uids with
  | nil => exact fun allocates st h => absurd rfl h
  | cons uid uids ih =>
      intro allocates st h
      rw [extractTrees] at h ⊢
      cases htree : playerItemSnapshotExtractSubtree st.remaining uid (allocates.headD true)
          ⟨[], []⟩ with
      | mk result tree =>
          rw [htree] at h
          cases result with
          | ok =>
              simp only at h ⊢
              split
              · rfl
              · next hallocates =>
                  rw [if_neg hallocates] at h
                  exact ih _ _ h
          | invalidValue => rfl
          | allocationFailure => rfl

/-- What is picked from a valid list is valid, if its links point backwards. -/
theorem valid_of_picks {out : List PlayerItemSnapshot} {cut : Nat → Prop} {places : List Nat}
    (hvalid : ∀ i < items.length, RowOk items i)
    (hpicks : Picks PlayerItemSnapshot.parent SameItem items cut places out)
    (hplaced : Placed PlayerItemSnapshot.parent out) (hlength : places.length ≤ items.length) :
    validItemRelationships out = true := by
  refine (validItemRelationships_iff out).mpr fun p hp => ?_
  have hsmall := length_of_valid hvalid
  rw [← hpicks.length_eq] at hp
  obtain ⟨x, y, hx, hy, -⟩ := hpicks.get (List.getElem?_eq_getElem hp)
  obtain ⟨_, -, -, -, n, hn, hdepth⟩ := hvalid _ (List.getElem?_eq_some_iff.mp hy).1
  obtain ⟨m, hm, hdepth'⟩ := hpicks.depth (List.getElem?_eq_getElem hp) hdepth
  exact ⟨x, hx, by omega, fun j hj => hplaced p j ⟨x, hx, hj⟩, m, by omega, hdepth'⟩

theorem extractForest_valid {allocates : List Bool} {out : ExtractOut}
    (h : (playerItemSnapshotExtractForest items uids allocates out).1 = .ok) :
    ∀ i < items.length, RowOk items i := by
  rw [playerItemSnapshotExtractForest] at h
  split at h
  · cases h
  · next huids =>
      split at h
      · cases h
      · cases uids with
        | nil => exact absurd rfl huids
        | cons uid uids =>
            rw [extractTrees] at h
            cases htree : playerItemSnapshotExtractSubtree items uid
                (allocates.tail.headD true) ⟨[], []⟩ with
            | mk result tree =>
                rw [htree] at h
                cases result with
                | ok =>
                    obtain ⟨-, -, -, -, hvalid, -⟩ := extractSubtree_ok htree
                    exact hvalid
                | invalidValue => cases h
                | allocationFailure => cases h

/-- An extraction that succeeds takes, for each uid in turn, the first item of that uid that
is left with all that lies below it. The two lists hold the items of the input once each,
with the links between them but for those above the roots; both have valid relationships.
One that fails leaves the lists of its caller alone. -/
theorem extract_forest_splits (items : List PlayerItemSnapshot) (uids : List (BitVec 64))
    (allocates : List Bool) (out : ExtractOut) :
    ((playerItemSnapshotExtractForest items uids allocates out).1 = .ok →
      ∃ roots selected remaining, FirstRoots items uids roots ∧
        (selected ++ remaining).Perm (List.range items.length) ∧
        (∀ i < items.length, (i ∈ selected ↔ UnderAny items roots i)) ∧
        Picks PlayerItemSnapshot.parent SameItem items (· ∈ roots) selected
          (playerItemSnapshotExtractForest items uids allocates out).2.selected ∧
        Picks PlayerItemSnapshot.parent SameItem items (fun _ => False) remaining
          (playerItemSnapshotExtractForest items uids allocates out).2.remaining ∧
        validItemRelationships
          (playerItemSnapshotExtractForest items uids allocates out).2.selected = true ∧
        validItemRelationships
          (playerItemSnapshotExtractForest items uids allocates out).2.remaining = true) ∧
    ((playerItemSnapshotExtractForest items uids allocates out).1 ≠ .ok →
      (playerItemSnapshotExtractForest items uids allocates out).2 = out) := by
  constructor
  · intro hok
    have hvalid := extractForest_valid hok
    rw [playerItemSnapshotExtractForest] at hok ⊢
    split at hok
    · cases hok
    · next huids =>
        rw [if_neg huids]
        split at hok
        · cases hok
        · next hallocates =>
            rw [if_neg hallocates]
            obtain ⟨roots, selected, remaining, hroots, h⟩ :=
              extractTrees_ok (length_of_valid hvalid) out uids allocates.tail ⟨[], items⟩
                (Forests.initial hvalid) hok
            have hcount := h.perm.length_eq
            rw [List.length_append, List.length_range] at hcount
            refine ⟨roots, selected, remaining, hroots, h.perm, ?_, h.select, h.keep,
              valid_of_picks hvalid h.select h.placed_select (by omega),
              valid_of_picks hvalid h.keep h.placed_keep (by omega)⟩
            intro i hi
            refine ⟨h.mem i, fun hunder => ?_⟩
            rcases h.mem_or hi with hi | hi
            · exact hi
            · exact absurd hunder (h.not_mem i hi)
  · intro hfailed
    rw [playerItemSnapshotExtractForest] at hfailed ⊢
    split
    · rfl
    · next huids =>
        rw [if_neg huids] at hfailed
        split
        · rfl
        · next hallocates =>
            rw [if_neg hallocates] at hfailed
            exact extractTrees_out out uids allocates.tail ⟨[], items⟩ hfailed

/-- So a forest of one tree can be. -/
theorem extract_forest_of_root {items : List PlayerItemSnapshot} {uid : BitVec 64} (huid : uid ≠ 0)
    (hvalid : validItemRelationships items = true)
    (hthere : ∃ item ∈ items, item.objectUid = uid) (out : ExtractOut) :
    (playerItemSnapshotExtractForest items [uid] [] out).1 = .ok := by
  obtain ⟨tree, htree⟩ := extractSubtree_succeeds huid hvalid hthere ⟨[], []⟩
  have husable : ¬usableRoots [uid] = false := by
    rw [usableRoots, List.all_cons, bne_iff_ne.mpr huid]
    exact Bool.noConfusion
  rw [playerItemSnapshotExtractForest, if_neg husable, if_neg (by decide), extractTrees]
  dsimp only [List.headD, List.tail]
  rw [htree]
  rfl

end Duris.Player
