import Duris.Lib.Ring

/-!
# Circular buffers with running sequence numbers

A buffer between one producer and one consumer. The producer owns `head`, the number
of values written so far, the consumer owns `tail`, the number of values taken. Neither
ever wraps: a value's cell is its sequence number modulo the capacity.

`Holds` says which list such a buffer stands for, and each operation has one lemma that
carries it along.
-/

namespace Duris

structure SequencedRing (α : Type) where
  cells : Nat → Option α := fun _ => none
  head : Nat := 0
  tail : Nat := 0
  capacity : Nat := 0

namespace SequencedRing

variable {α : Type}

/-- Write the next value. There must be room. -/
def push (r : SequencedRing α) (a : α) : SequencedRing α :=
  { r with
    cells := Function.update r.cells (r.head % r.capacity) (some a)
    head := r.head + 1 }

/-- The value `offset` places behind the oldest. -/
def peek (r : SequencedRing α) (offset : Nat) : Option α :=
  if r.head < r.tail ∨ r.head - r.tail ≤ offset ∨ r.capacity ≤ offset then none
  else r.cells ((r.tail + offset) % r.capacity)

/-- Take the oldest `count` values. -/
def drop (r : SequencedRing α) (count : Nat) : SequencedRing α :=
  { r with tail := r.tail + count }

/-- The values between the two ends, oldest first. -/
def contents (r : SequencedRing α) : List α := (List.range (r.head - r.tail)).filterMap r.peek

/-- The buffer stands for the list `xs`, oldest first. -/
structure Holds (r : SequencedRing α) (xs : List α) : Prop where
  head_eq : r.head = r.tail + xs.length
  length_le : xs.length ≤ r.capacity
  cells_eq : ∀ i (hi : i < xs.length), r.cells ((r.tail + i) % r.capacity) = some xs[i]

variable {r : SequencedRing α} {xs : List α}

theorem holds_nil (h : r.head = r.tail) : r.Holds [] where
  head_eq := h
  length_le := Nat.zero_le _
  cells_eq i hi := absurd hi (Nat.not_lt_zero i)

theorem Holds.peek (h : r.Holds xs) (i : Nat) : r.peek i = xs[i]? := by
  have hhead := h.head_eq
  have hcapacity := h.length_le
  rw [SequencedRing.peek]
  rcases Nat.lt_or_ge i xs.length with hi | hi
  · rw [if_neg (by omega), h.cells_eq i hi, List.getElem?_eq_getElem hi]
  · rw [if_pos (by omega), List.getElem?_eq_none hi]

theorem Holds.contents (h : r.Holds xs) : r.contents = xs := by
  have hlength : r.head - r.tail = xs.length := by rw [h.head_eq, Nat.add_sub_cancel_left]
  rw [SequencedRing.contents, hlength, List.filterMap_congr fun i _ => h.peek i]
  exact Ring.filterMap_range_getElem? xs

theorem Holds.push (h : r.Holds xs) (hroom : xs.length < r.capacity) (a : α) :
    (r.push a).Holds (xs ++ [a]) where
  head_eq := by
    show r.head + 1 = r.tail + (xs ++ [a]).length
    rw [List.length_append, List.length_singleton, h.head_eq, Nat.add_assoc]
  length_le := by
    rw [List.length_append]
    exact hroom
  cells_eq i hi := by
    show Function.update r.cells (r.head % r.capacity) (some a) ((r.tail + i) % r.capacity) = _
    rw [h.head_eq]
    rw [List.length_append, List.length_singleton] at hi
    rcases Nat.lt_or_ge i xs.length with hlt | hge
    · rw [Function.update_of_ne (Ring.mod_ne_of_lt hlt hroom), List.getElem_append_left hlt]
      exact h.cells_eq i hlt
    · obtain rfl : i = xs.length := by omega
      rw [Function.update_self, List.getElem_concat_length rfl]

theorem Holds.drop (h : r.Holds xs) {count : Nat} (hcount : count ≤ xs.length) :
    (r.drop count).Holds (xs.drop count) where
  head_eq := by
    show r.head = r.tail + count + (xs.drop count).length
    rw [h.head_eq, List.length_drop]
    omega
  length_le := by
    rw [List.length_drop]
    exact Nat.le_trans (Nat.sub_le _ _) h.length_le
  cells_eq i hi := by
    rw [List.length_drop] at hi
    show r.cells ((r.tail + count + i) % r.capacity) = _
    rw [Nat.add_assoc, h.cells_eq (count + i) (by omega), List.getElem_drop]

end SequencedRing

end Duris
