import Duris.Lib.Forest
import Mathlib.Data.List.Pairwise

/-!
# Forests kept as lists of rows

Each row of a list may name the position of its parent in the same list. A part of such a
list is a list of its own, with positions of its own: `Picks` says that `out` holds the rows
at `places`, with every link between two of them kept, and none above a row that was cut
off. Picks of picks are picks, picks may be put behind each other, and what is picked from
a list is no deeper than the list.
-/

namespace Duris.Rows

open Relation Forest

variable {α : Type} (parent : α → Option Nat)

/-- The row at `i` names position `j` as its parent. -/
def Up (rows : List α) (i j : Nat) : Prop := ∃ row, rows[i]? = some row ∧ parent row = some j

/-- Every row comes behind its parent. -/
def Placed (rows : List α) : Prop := ∀ i j, Up parent rows i j → j < i

/-- The way up from a row ends after `n` links. -/
def Depth (rows : List α) (i n : Nat) : Prop :=
  ∃ top, Path (Up parent rows) n i top ∧ ∀ j, ¬ Up parent rows top j

/-- How the row `y` of place `i` and what it became relate: the link above it is cut, there
is none, or it leads to the new position of the same parent. -/
def Link (cut : Nat → Prop) (places : List Nat) (i : Nat) (y x : α) : Prop :=
  (parent x = none ∧ (cut i ∨ parent y = none)) ∨
    ∃ j q, ¬ cut i ∧ parent y = some j ∧ parent x = some q ∧ places[q]? = some j

/-- `out` holds the rows at `places`, but for their parents the same ones. -/
def Picks (same : α → α → Prop) (rows : List α) (cut : Nat → Prop) (places : List Nat)
    (out : List α) : Prop :=
  List.Forall₂ (fun i x => ∃ y, rows[i]? = some y ∧ same y x ∧ Link parent cut places i y x)
    places out

variable {parent}

variable {rows : List α} {i : Nat}

theorem Up.unique {j k : Nat} (h : Up parent rows i j) (h' : Up parent rows i k) : j = k := by
  obtain ⟨row, hrow, hj⟩ := h
  obtain ⟨row', hrow', hk⟩ := h'
  rw [hrow] at hrow'
  cases hrow'
  rw [hj] at hk
  exact Option.some.inj hk

theorem Depth.unique {n m : Nat} (h : Depth parent rows i n) (h' : Depth parent rows i m) :
    n = m := by
  obtain ⟨top, hpath, htop⟩ := h
  obtain ⟨top', hpath', htop'⟩ := h'
  induction hpath generalizing m with
  | refl k =>
      cases hpath' with
      | refl => rfl
      | step hup _ => exact absurd hup (htop _)
  | step hup _ ih =>
      cases hpath' with
      | refl => exact absurd hup (htop' _)
      | step hup' hrest =>
          rw [hup'.unique hup] at hrest
          exact congrArg _ (ih htop hrest)

theorem Depth.of_top (h : ∀ j, ¬ Up parent rows i j) :
    Depth parent rows i 0 := ⟨i, .refl i, h⟩

theorem Depth.of_up {j n : Nat} (hup : Up parent rows i j) (h : Depth parent rows j n) :
    Depth parent rows i (n + 1) := by
  obtain ⟨top, hpath, htop⟩ := h
  exact ⟨top, .step hup hpath, htop⟩

/-- One gets from `i` to another row exactly if one gets there from its parent. -/
theorem reaches_iff {j top : Nat} (hup : Up parent rows i j) (hne : i ≠ top) :
    ReflTransGen (Up parent rows) i top ↔ ReflTransGen (Up parent rows) j top := by
  refine ⟨fun h => ?_, fun h => .head hup h⟩
  rcases ReflTransGen.cases_head h with heq | ⟨k, hk, hrest⟩
  · exact absurd heq hne
  · rwa [hk.unique hup] at hrest

theorem reaches_top {top : Nat} (hnone : ∀ j, ¬ Up parent rows i j)
    (h : ReflTransGen (Up parent rows) i top) : i = top := by
  rcases ReflTransGen.cases_head h with heq | ⟨k, hk, -⟩
  · exact heq
  · exact absurd hk (hnone k)

theorem place_inj {κ : Type} {places : List κ} (hnodup : places.Nodup) {p q : Nat} {i : κ}
    (hp : places[p]? = some i) (hq : places[q]? = some i) : p = q := by
  obtain ⟨hlt, hpi⟩ := List.getElem?_eq_some_iff.mp hp
  obtain ⟨hlt', hqi⟩ := List.getElem?_eq_some_iff.mp hq
  exact hnodup.getElem_inj_iff.mp (hpi.trans hqi.symm)

theorem top_unique {top top' : Nat} (h : ReflTransGen (Up parent rows) i top)
    (htop : ∀ j, ¬ Up parent rows top j) (h' : ReflTransGen (Up parent rows) i top')
    (htop' : ∀ j, ¬ Up parent rows top' j) : top = top' := by
  induction h using ReflTransGen.head_induction_on with
  | refl => exact reaches_top htop h'
  | head hup _ ih =>
      rcases ReflTransGen.cases_head h' with heq | ⟨k, hk, hrest⟩
      · rw [heq] at hup
        exact absurd hup (htop' _)
      · rw [hk.unique hup] at hrest
        exact ih hrest

theorem map_getD_range (places : List Nat) :
    (List.range places.length).map (fun p => places.getD p 0) = places := by
  refine List.ext_getElem (by simp) fun p hp hq => ?_
  simp [List.getD_eq_getElem?_getD, List.getElem?_eq_getElem hq]

/-! ## Picking rows -/

namespace Picks

variable {same : α → α → Prop} {rows out : List α} {cut : Nat → Prop} {places : List Nat}

theorem nil : Picks parent same rows cut [] [] := List.Forall₂.nil

theorem all (hsame : ∀ x, same x x) (hplaced : Placed parent rows) (hcut : ∀ i, ¬ cut i) :
    Picks parent same rows cut (List.range rows.length) rows := by
  refine List.forall₂_iff_get.mpr ⟨List.length_range, fun i hi hi' => ?_⟩
  rw [List.get_eq_getElem, List.getElem_range]
  refine ⟨rows[i], List.getElem?_eq_getElem hi', hsame _, ?_⟩
  cases hparent : parent (rows.get ⟨i, hi'⟩) with
  | none => exact .inl ⟨hparent, .inr hparent⟩
  | some j =>
      have hj : j < rows.length :=
        Nat.lt_trans (hplaced i j ⟨_, List.getElem?_eq_getElem hi', hparent⟩) hi'
      exact .inr ⟨j, j, hcut i, hparent, hparent, by rw [List.getElem?_range hj]⟩

theorem length_eq (h : Picks parent same rows cut places out) : places.length = out.length :=
  List.Forall₂.length_eq h

variable {p i : Nat}

theorem get (h : Picks parent same rows cut places out) (hp : places[p]? = some i) :
    ∃ x y, out[p]? = some x ∧ rows[i]? = some y ∧ same y x ∧ Link parent cut places i y x := by
  obtain ⟨hlt, rfl⟩ := List.getElem?_eq_some_iff.mp hp
  have hlt' : p < out.length := h.length_eq ▸ hlt
  obtain ⟨y, hy, hsame, hlink⟩ := List.forall₂_iff_get.mp h |>.2 p hlt hlt'
  exact ⟨out[p], y, List.getElem?_eq_getElem hlt', hy, hsame, hlink⟩

theorem get_row (h : Picks parent same rows cut places out) {x : α} (hp : out[p]? = some x) :
    ∃ i y, places[p]? = some i ∧ rows[i]? = some y ∧ same y x ∧
      Link parent cut places i y x := by
  obtain ⟨hlt, rfl⟩ := List.getElem?_eq_some_iff.mp hp
  have hlt' : p < places.length := h.length_eq ▸ hlt
  obtain ⟨y, hy, hsame, hlink⟩ := List.forall₂_iff_get.mp h |>.2 p hlt' hlt
  exact ⟨places[p], y, List.getElem?_eq_getElem hlt', hy, hsame, hlink⟩

theorem congr_cut {cut' : Nat → Prop} (h : Picks parent same rows cut places out)
    (hcut : ∀ i ∈ places, (cut i ↔ cut' i)) : Picks parent same rows cut' places out := by
  refine List.forall₂_iff_get.mpr ⟨h.length_eq, fun p hp hq => ?_⟩
  obtain ⟨y, hy, hsame, hlink⟩ := List.forall₂_iff_get.mp h |>.2 p hp hq
  refine ⟨y, hy, hsame, ?_⟩
  rcases hlink with ⟨hnone, hcuts⟩ | ⟨j, q, hkept, hlink⟩
  · exact .inl ⟨hnone, hcuts.imp_left (hcut _ (List.getElem_mem hp)).mp⟩
  · exact .inr ⟨j, q, fun h => hkept ((hcut _ (List.getElem_mem hp)).mpr h), hlink⟩

theorem link_mono {more : List Nat} {y x : α} (h : Link parent cut places i y x) :
    Link parent cut (places ++ more) i y x := by
  rcases h with hnone | ⟨j, q, hkept, hy, hx, hq⟩
  · exact .inl hnone
  · exact .inr ⟨j, q, hkept, hy, hx, List.getElem?_append_left
      (List.getElem?_eq_some_iff.mp hq).1 ▸ hq⟩

section

variable (h : Picks parent same rows cut places out)

include h

theorem snoc {y x : α} (hy : rows[i]? = some y)
    (hsame : same y x) (hlink : Link parent cut places i y x) :
    Picks parent same rows cut (places ++ [i]) (out ++ [x]) := by
  refine List.rel_append (List.Forall₂.imp ?_ h) (.cons ⟨y, hy, hsame, link_mono hlink⟩ .nil)
  rintro i x ⟨y, hy, hsame, hlink⟩
  exact ⟨y, hy, hsame, link_mono hlink⟩

theorem append {places' : List Nat} {out' : List α} {shift : α → α}
    (h' : Picks parent same rows cut places' out')
    (hsame : ∀ y x, same y x → same y (shift x))
    (hshift : ∀ x ∈ out', parent (shift x) = (parent x).map (· + places.length)) :
    Picks parent same rows cut (places ++ places') (out ++ out'.map shift) := by
  refine List.rel_append (List.Forall₂.imp ?_ h) ?_
  · rintro i x ⟨y, hy, hyx, hlink⟩
    exact ⟨y, hy, hyx, link_mono hlink⟩
  · refine List.forall₂_map_right_iff.mpr (List.forall₂_iff_get.mpr ⟨h'.length_eq, ?_⟩)
    intro p hp hq
    obtain ⟨y, hy, hyx, hlink⟩ := List.forall₂_iff_get.mp h' |>.2 p hp hq
    refine ⟨y, hy, hsame _ _ hyx, ?_⟩
    have hparent : parent (shift (out'.get ⟨p, hq⟩)) =
        (parent (out'.get ⟨p, hq⟩)).map (· + places.length) := hshift _ (List.getElem_mem hq)
    rcases hlink with ⟨hnone, hcut⟩ | ⟨j, q, hkept, hup, hpos, hplace⟩
    · refine .inl ⟨?_, hcut⟩
      rw [hparent, hnone]
      rfl
    · refine .inr ⟨j, q + places.length, hkept, hup, ?_, ?_⟩
      · rw [hparent, hpos]
        rfl
      · rw [List.getElem?_append_right (Nat.le_add_left _ _), Nat.add_sub_cancel]
        exact hplace

theorem up {q : Nat} (hi : places[p]? = some i)
    (hup : Up parent out p q) : ∃ j, places[q]? = some j ∧ Up parent rows i j ∧ ¬ cut i := by
  obtain ⟨x, y, hx, hy, -, hlink⟩ := h.get hi
  obtain ⟨x', hx', hparent⟩ := hup
  rw [hx] at hx'
  cases hx'
  rcases hlink with ⟨hnone, -⟩ | ⟨j, q', hkept, hj, hq', hplace⟩
  · rw [hparent] at hnone
    cases hnone
  · rw [hparent] at hq'
    cases hq'
    exact ⟨j, hplace, ⟨y, hy, hj⟩, hkept⟩

theorem up_of {j : Nat} (hi : places[p]? = some i)
    (hcut : ¬ cut i) (hup : Up parent rows i j) : ∃ q, places[q]? = some j ∧ Up parent out p q := by
  obtain ⟨x, y, hx, hy, -, hlink⟩ := h.get hi
  obtain ⟨y', hy', hparent⟩ := hup
  rw [hy] at hy'
  cases hy'
  rcases hlink with ⟨-, hcut' | hnone⟩ | ⟨j', q, -, hj', hq, hplace⟩
  · exact absurd hcut' hcut
  · rw [hparent] at hnone
    cases hnone
  · rw [hparent] at hj'
    cases hj'
    exact ⟨q, hplace, x, hx, hq⟩

theorem depth {n : Nat} (hi : places[p]? = some i)
    (hdepth : Depth parent rows i n) : ∃ m ≤ n, Depth parent out p m := by
  obtain ⟨top, hpath, htop⟩ := hdepth
  induction hpath generalizing p with
  | refl k =>
      refine ⟨0, Nat.le_refl 0, .of_top fun q hq => ?_⟩
      obtain ⟨j, -, hup, -⟩ := h.up hi hq
      exact htop j hup
  | @step n k j top hup _ ih =>
      by_cases hcut : cut k
      · refine ⟨0, Nat.zero_le _, .of_top fun q hq => ?_⟩
        obtain ⟨j', -, -, hkept⟩ := h.up hi hq
        exact hkept hcut
      · obtain ⟨q, hq, hupq⟩ := h.up_of hi hcut hup
        obtain ⟨m, hm, hdepth⟩ := ih hq htop
        exact ⟨m + 1, Nat.succ_le_succ hm, .of_up hupq hdepth⟩

theorem trans {cut' : Nat → Prop} {places' : List Nat} {out' : List α} (hnodup : places.Nodup)
    (h' : Picks parent same out cut' places' out')
    (htrans : ∀ x y z, same x y → same y z → same x z) :
    Picks parent same rows (fun i => cut i ∨ ∃ p, places[p]? = some i ∧ cut' p)
      (places'.map fun p => places.getD p 0) out' := by
  refine List.forall₂_map_left_iff.mpr (List.Forall₂.imp ?_ h')
  rintro p x ⟨x', hx', hsame', hlink'⟩
  obtain ⟨i, y, hi, hy, hsame, hlink⟩ := h.get_row hx'
  have hat : places.getD p 0 = i := by rw [List.getD_eq_getElem?_getD, hi]; rfl
  rw [hat]
  refine ⟨y, hy, htrans _ _ _ hsame hsame', ?_⟩
  rcases hlink' with ⟨hnone, hcut' | hnone'⟩ | ⟨j, q, hkept', hj, hq, hplace'⟩
  · exact .inl ⟨hnone, .inl (.inr ⟨p, hi, hcut'⟩)⟩
  · rcases hlink with ⟨-, hcut | hy'⟩ | ⟨_, _, -, -, hsome, -⟩
    · exact .inl ⟨hnone, .inl (.inl hcut)⟩
    · exact .inl ⟨hnone, .inr hy'⟩
    · rw [hnone'] at hsome
      cases hsome
  · rcases hlink with ⟨hnone', -⟩ | ⟨k, j', hkept, hk, hj', hplace⟩
    · rw [hj] at hnone'
      cases hnone'
    · rw [hj] at hj'
      cases hj'
      refine .inr ⟨k, q, ?_, hk, hq, ?_⟩
      · rintro (hcut | ⟨p', hp', hcut'⟩)
        · exact hkept hcut
        · exact hkept' (place_inj hnodup hp' hi ▸ hcut')
      · rw [List.getElem?_map, hplace', Option.map_some, List.getD_eq_getElem?_getD, hplace]
        rfl

end

theorem reaches_iff (h : Picks parent same rows (fun _ => False) places out) (hnodup : places.Nodup)
    {top root : Nat} (hp : places[p]? = some i) (htop : places[top]? = some root) :
    ReflTransGen (Up parent out) p top ↔ ReflTransGen (Up parent rows) i root := by
  constructor
  · intro hpath
    induction hpath using ReflTransGen.head_induction_on generalizing i with
    | refl =>
        rw [hp] at htop
        cases htop
        exact .refl
    | head hup _ ih =>
        obtain ⟨j, hj, hup, -⟩ := h.up hp hup
        exact .head hup (ih hj)
  · intro hpath
    induction hpath using ReflTransGen.head_induction_on generalizing p with
    | refl =>
        rw [place_inj hnodup hp htop]
    | head hup _ ih =>
        obtain ⟨q, hq, hup⟩ := h.up_of hp not_false hup
        exact .head hup (ih hq)

end Picks

theorem Placed.append {rows rows' : List α} {shift : α → α} (h : Placed parent rows)
    (h' : Placed parent rows')
    (hshift : ∀ x ∈ rows', parent (shift x) = (parent x).map (· + rows.length)) :
    Placed parent (rows ++ rows'.map shift) := by
  rintro i j ⟨row, hrow, hj⟩
  by_cases hi : i < rows.length
  · rw [List.getElem?_append_left hi] at hrow
    exact h i j ⟨row, hrow, hj⟩
  · rw [List.getElem?_append_right (by omega), List.getElem?_map] at hrow
    obtain ⟨row', hrow', rfl⟩ := Option.map_eq_some_iff.mp hrow
    rw [hshift row' (List.mem_of_getElem? hrow')] at hj
    obtain ⟨j', hj', rfl⟩ := Option.map_eq_some_iff.mp hj
    have hlt := h' _ _ ⟨row', hrow', hj'⟩
    omega

end Duris.Rows
