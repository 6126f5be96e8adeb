import Duris.Telemetry.RecordQueue
import Mathlib.Data.List.Count

/-!
# The record queue keeps a list

`Keeps` says which slots a queue retains and that both of its counts are right. A push
appends to the list and a commit takes a prefix away.
-/

namespace Duris.Telemetry.Queue

variable {Payload : Type} {q q' : Queue Payload} {retained : List (QueueSlot Payload)}

structure Keeps (q : Queue Payload) (retained : List (QueueSlot Payload)) : Prop where
  holds : q.slots.Holds retained
  count_eq : q.retainedCount = retained.length
  control_eq : q.retainedControlCount = retained.countP (·.record.isControl)

theorem keeps_empty (hends : q.slots.head = q.slots.tail) (hcount : q.retainedCount = 0)
    (hcontrol : q.retainedControlCount = 0) : q.Keeps [] where
  holds := SequencedRing.holds_nil hends
  count_eq := hcount
  control_eq := hcontrol

theorem keeps_initialized (q : Queue Payload) (capacity controlReserve : Nat) :
    (q.initialized capacity controlReserve).Keeps [] := keeps_empty rfl rfl rfl

theorem keeps_reset (q : Queue Payload) : q.reset.Keeps [] := keeps_empty rfl rfl rfl

variable (h : q.Keeps retained)

include h

theorem Keeps.depth : q.depth = retained.length := h.count_eq

theorem Keeps.controlDepth :
    q.controlDepth = retained.countP (·.record.isControl) := h.control_eq

theorem Keeps.records : q.records = retained.map (·.record) := by
  rw [Queue.records, h.holds.contents]

theorem Keeps.physicalDepth : q.physicalDepth = retained.length := by
  have hhead : q.producerHead = q.consumerTail + retained.length := h.holds.head_eq
  have hlength : retained.length ≤ q.capacity := h.holds.length_le
  rw [Queue.physicalDepth]
  split
  · next hzero => omega
  · rw [if_neg (by omega), hhead, Nat.add_sub_cancel_left]

theorem Keeps.peek (i : Nat) : q.peek i = retained[i]? := by
  rw [Queue.peek]
  split
  · next hzero =>
    have hlength : retained.length ≤ q.capacity := h.holds.length_le
    rw [List.getElem?_eq_none (by omega)]
  · exact h.holds.peek i

theorem Keeps.tryPush {record : Record Payload} {now : Nat}
    {valid : Bool} (hpush : q.tryPush record now valid record.isControl = some q') :
    q'.Keeps (retained ++ [⟨record, now, valid⟩]) := by
  rw [Queue.tryPush, Option.ite_none_left_eq_some, Option.ite_none_left_eq_some,
    Option.ite_none_left_eq_some, Option.some.injEq] at hpush
  obtain ⟨-, -, hroom, rfl⟩ := hpush
  have hhead : q.producerHead = q.consumerTail + retained.length := h.holds.head_eq
  have hlength : retained.length < q.slots.capacity := by
    show retained.length < q.capacity
    omega
  refine ⟨h.holds.push hlength _, ?_, ?_⟩
  · simp [h.count_eq]
  · rw [List.countP_append, h.control_eq]
    cases hcontrol : record.isControl <;> simp [hcontrol]

theorem Keeps.commit {count controls : Nat} (hpos : 0 < count)
    (hcount : count ≤ retained.length)
    (hcontrols : controls = (retained.take count).countP (·.record.isControl)) :
    ∃ q', q.commit count controls = some q' ∧ q'.Keeps (retained.drop count) := by
  have hhead : q.producerHead = q.consumerTail + retained.length := h.holds.head_eq
  have hlength : retained.length ≤ q.capacity := h.holds.length_le
  have hsplit : (retained.take count).countP (·.record.isControl) +
      (retained.drop count).countP (·.record.isControl) =
        retained.countP (·.record.isControl) := by
    rw [← List.countP_append, List.take_append_drop]
  have hle : controls ≤ count := by
    rw [hcontrols]
    exact Nat.le_trans List.countP_le_length (List.length_take_le _ _)
  have hcounts := h.count_eq
  have hcontrolCounts := h.control_eq
  refine ⟨_, (by rw [Queue.commit, if_neg (by omega), if_neg (by omega)]), ?_⟩
  · refine ⟨h.holds.drop hcount, ?_, ?_⟩
    · show q.retainedCount - count = _
      rw [List.length_drop, hcounts]
    · show q.retainedControlCount - controls = _
      omega

theorem Keeps.mapM_peek {count : Nat} (hcount : count ≤ retained.length) :
    (List.range count).mapM q.peek = some (retained.take count) := by
  induction count with
  | zero => rfl
  | succ count ih =>
      rw [List.range_succ, List.mapM_append, ih (by omega), List.take_add_one]
      simp [h.peek, List.getElem?_eq_getElem (show count < retained.length by omega)]

theorem Keeps.countP_peek :
    (List.range retained.length).countP (fun i => (q.peek i).any (·.record.isControl)) =
      retained.countP (·.record.isControl) := by
  have hmap : (List.range retained.length).map q.peek = retained.map some := by
    apply List.ext_getElem (by simp)
    intro i hi hi'
    rw [List.length_map, List.length_range] at hi
    simp [h.peek, List.getElem?_eq_getElem hi]
  have hcount := congrArg (List.countP fun slot => slot.any (·.record.isControl)) hmap
  rw [List.countP_map, List.countP_map] at hcount
  exact hcount

end Duris.Telemetry.Queue
