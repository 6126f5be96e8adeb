import Mathlib.Data.List.Basic
import Mathlib.Data.List.Induction
import Mathlib.Logic.Function.Basic

/-!
# Circular buffers

A buffer of `capacity` cells with a head, a tail and a count, as C code keeps one:
pushing writes at the tail, popping only moves the head, and growing copies the
occupied cells to the front of new storage. A cell that was never written holds
nothing.

`Holds` says which list a buffer stands for. Each operation has one lemma that
carries it along, so a proof about a queue can forget the indices.
-/

namespace Duris

structure Ring (α : Type) where
  cells : Nat → Option α := fun _ => none
  head : Nat := 0
  tail : Nat := 0
  count : Nat := 0
  capacity : Nat := 0

namespace Ring

variable {α : Type}

/-- The cell `i` places behind the head. -/
def cell (r : Ring α) (i : Nat) : Option α := r.cells ((r.head + i) % r.capacity)

/-- Write at the tail. There must be room. -/
def push (r : Ring α) (a : α) : Ring α :=
  { r with
    cells := Function.update r.cells r.tail (some a)
    tail := (r.tail + 1) % r.capacity
    count := r.count + 1 }

/-- Drop the head; the cell keeps its content. -/
def pop (r : Ring α) : Ring α :=
  if r.count = 0 then r
  else { r with head := (r.head + 1) % r.capacity, count := r.count - 1 }

/-- Move the occupied cells to the front of `capacity` new ones. -/
def grow (r : Ring α) (capacity : Nat) : Ring α :=
  { cells := fun i => if i < r.count then r.cell i else none
    head := 0
    tail := r.count
    count := r.count
    capacity := capacity }

/-- The buffer stands for the list `xs`, oldest first. -/
structure Holds (r : Ring α) (xs : List α) : Prop where
  count_eq : r.count = xs.length
  count_le : r.count ≤ r.capacity
  head_lt : 0 < r.capacity → r.head < r.capacity
  tail_eq : 0 < r.capacity → r.tail = (r.head + r.count) % r.capacity
  cells_eq : ∀ i (hi : i < xs.length), r.cell i = some xs[i]

variable {r : Ring α} {xs : List α}

theorem holds_nil (hcount : r.count = 0) (hhead : r.head = 0) (htail : r.tail = 0) :
    r.Holds [] where
  count_eq := hcount
  count_le := by omega
  head_lt := by omega
  tail_eq hpos := by rw [htail, hhead, hcount, Nat.zero_mod]
  cells_eq i hi := absurd hi (by simp)

theorem Holds.cell_zero {x : α} (h : r.Holds (x :: xs)) :
    r.cell 0 = some x := h.cells_eq 0 (by simp)

theorem filterMap_range_getElem? (xs : List α) :
    (List.range xs.length).filterMap (fun i => xs[i]?) = xs := by
  induction xs using List.reverseRecOn with
  | nil => rfl
  | append_singleton xs x ih =>
      have hfront : (List.range xs.length).filterMap (fun i => (xs ++ [x])[i]?) = xs := by
        conv_rhs => rw [← ih]
        apply List.filterMap_congr
        intro i hi
        exact List.getElem?_append_left (List.mem_range.mp hi)
      rw [List.length_append, List.length_singleton, List.range_succ, List.filterMap_append,
        hfront]
      simp

theorem Holds.contents (h : r.Holds xs) : (List.range r.count).filterMap r.cell = xs := by
  conv_rhs => rw [← filterMap_range_getElem? xs]
  rw [h.count_eq]
  apply List.filterMap_congr
  intro i hi
  rw [h.cells_eq i (List.mem_range.mp hi), List.getElem?_eq_getElem]

theorem mod_ne_of_lt {head i count capacity : Nat} (hi : i < count) (hcount : count < capacity) :
    (head + i) % capacity ≠ (head + count) % capacity := by
  intro heq
  have hsub := Nat.sub_mod_eq_zero_of_mod_eq heq.symm
  rw [show head + count - (head + i) = count - i by omega, Nat.mod_eq_of_lt (by omega)] at hsub
  omega

theorem Holds.push (h : r.Holds xs) (hroom : r.count < r.capacity) (a : α) :
    (r.push a).Holds (xs ++ [a]) where
  count_eq := by simp [Ring.push, h.count_eq]
  count_le := hroom
  head_lt := h.head_lt
  tail_eq hpos := by
    show (r.tail + 1) % r.capacity = (r.head + (r.count + 1)) % r.capacity
    rw [h.tail_eq hpos, Nat.mod_add_mod, Nat.add_assoc]
  cells_eq i hi := by
    have htail := h.tail_eq (by omega)
    show Function.update r.cells r.tail (some a) ((r.head + i) % r.capacity) = _
    have hcount := h.count_eq
    rw [List.length_append, List.length_singleton] at hi
    rcases Nat.lt_or_ge i xs.length with hlt | hge
    · have hne : (r.head + i) % r.capacity ≠ r.tail := by
        rw [htail]
        exact mod_ne_of_lt (by omega) hroom
      rw [Function.update_of_ne hne, List.getElem_append_left hlt]
      exact h.cells_eq i hlt
    · have hlast : i = r.count := by omega
      subst hlast
      rw [htail, Function.update_self]
      simp [hcount]

theorem Holds.pop {x : α} (h : r.Holds (x :: xs)) : r.pop.Holds xs := by
  have hcount := h.count_eq
  have hle := h.count_le
  rw [List.length_cons] at hcount
  have hpos : 0 < r.capacity := by omega
  rw [Ring.pop, if_neg (by omega)]
  constructor
  · show r.count - 1 = _
    omega
  · show r.count - 1 ≤ r.capacity
    omega
  · intro _
    exact Nat.mod_lt _ hpos
  · intro _
    show r.tail = ((r.head + 1) % r.capacity + (r.count - 1)) % r.capacity
    rw [h.tail_eq hpos, Nat.mod_add_mod]
    congr 1
    omega
  · intro i hi
    show r.cells (((r.head + 1) % r.capacity + i) % r.capacity) = _
    have hcell := h.cells_eq (i + 1) (by simp only [List.length_cons]; omega)
    rw [Nat.mod_add_mod, show r.head + 1 + i = r.head + (i + 1) by omega]
    exact hcell

theorem pop_of_holds_nil (h : r.Holds []) : r.pop = r := if_pos h.count_eq

theorem Holds.grow (h : r.Holds xs) {capacity : Nat} (hlarger : r.count < capacity) :
    (r.grow capacity).Holds xs where
  count_eq := h.count_eq
  count_le := by
    show r.count ≤ capacity
    omega
  head_lt hpos := hpos
  tail_eq hpos := by
    show r.count = (0 + r.count) % capacity
    rw [Nat.zero_add, Nat.mod_eq_of_lt hlarger]
  cells_eq i hi := by
    show (if (0 + i) % capacity < r.count then r.cell ((0 + i) % capacity) else none) = _
    have hcount := h.count_eq
    rw [Nat.zero_add, Nat.mod_eq_of_lt (by omega), if_pos (by omega)]
    exact h.cells_eq i hi

end Ring

end Duris
