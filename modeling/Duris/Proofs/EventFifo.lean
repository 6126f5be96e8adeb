import Duris.Proofs.EventQueue

/-!
# The event queues are bounded FIFO lists

`Fifo` is what a queue of log lines is for: a list that takes a line at its end as long as
it is below its bound, gives the oldest one first, and counts the lines it had to refuse.
The three rings refine it through any number of growths, with the generations in a queue
distinct. In one respect one of the copies differs: where the item and the large queue
return after a growth that failed, the scalar queue goes on to the second check for room
and counts the same refused line again.
-/

namespace Duris.Persistence

/-! ## The abstract queues -/

/-- A FIFO list with the number of lines it took and the number it refused since that
count was last cleared. -/
structure Fifo where
  events : List QueuedEvent := []
  taken : Nat := 0
  refused : Nat := 0

def Fifo.offer (f : Fifo) (bound : Nat) (line : Bytes) : Fifo :=
  if f.events.length < bound then
    { f with events := f.events ++ [⟨f.taken, line⟩], taken := f.taken + 1 }
  else { f with refused := f.refused + 1 }

/-- The queue a line is for: the large one takes what does not fit a small slot. -/
def lineQueue (kind : QueueKind) (line : Bytes) : Option QueueKind :=
  if line = [] then none
  else if line.length < kind.limits.maxLen then some kind
  else if line.length < QueueKind.large.limits.maxLen then some .large
  else none

def applyFifos (f : QueueKind → Fifo) : EventQueues.QueueOp → QueueKind → Fifo
  | .enqueue kind line =>
      match lineQueue kind line with
      | none => f
      | some kind => Function.update f kind ((f kind).offer kind.limits.maxCapacity line)
  | .dequeue kind outSize =>
      if outSize = 0 then f
      else Function.update f kind { f kind with events := (f kind).events.tail }
  | .popHead kind => Function.update f kind { f kind with events := (f kind).events.tail }
  | .grow _ => f
  | .clearDropped kind => Function.update f kind { f kind with refused := 0 }
  | .reset kind => Function.update f kind { f kind with events := [], refused := 0 }

/-! ## One queue -/

theorem Numbered.nodup {slots : List QueueSlot} {next : BitVec 64} (h : Numbered slots next)
    (hsize : slots.length < generationCycle) : (slots.map QueueSlot.generation).Nodup := by
  obtain ⟨base, hslots, -⟩ := h
  rw [List.nodup_iff_pairwise_ne, List.pairwise_map, List.pairwise_iff_getElem]
  intro i j hi hj hlt heq
  have hnumbers := congrArg BitVec.toNat heq
  rw [hslots i hi, hslots j hj] at hnumbers
  exact Ring.mod_ne_of_lt hlt (by omega) (Nat.succ.inj hnumbers)

/-- A lane stands for a list: its ring holds the events, within the bound, and its counter
says how often a line was refused, as often as this copy counts one. -/
structure Stands (kind : QueueKind) (lane : QueueLane) (f : Fifo) : Prop where
  slots : ∃ slots, QueueInv kind.limits lane.queue slots ∧ slots.map QueueSlot.event = f.events
  taken : lane.accepted.length = f.taken
  capacity_le : lane.queue.ring.capacity ≤ kind.limits.maxCapacity
  capacity_pos : lane.queue.allocated = true → 0 < lane.queue.ring.capacity
  dropped : lane.queue.dropped = refusalDrops kind * f.refused

namespace Stands

variable {kind : QueueKind} {lane : QueueLane} {f : Fifo}

theorem initial (kind : QueueKind) : Stands kind {} {} where
  slots := ⟨[], queueInv_initial kind.limits, rfl⟩
  taken := rfl
  capacity_le := Nat.zero_le _
  capacity_pos h := by cases h
  dropped := rfl

theorem count (h : Stands kind lane f) : lane.queue.ring.count = f.events.length := by
  obtain ⟨slots, hinv, hevents⟩ := h.slots
  rw [hinv.holds.count_eq, ← hevents, List.length_map]

theorem withEvents {queue : EventQueue} {slots : List QueueSlot} {events : List QueuedEvent}
    (h : Stands kind lane f) (hinv : QueueInv kind.limits queue slots)
    (hevents : slots.map QueueSlot.event = events)
    (hcapacity : queue.ring.capacity = lane.queue.ring.capacity)
    (hallocated : queue.allocated = lane.queue.allocated)
    (hdropped : queue.dropped = lane.queue.dropped) :
    Stands kind { lane with queue } { f with events } where
  slots := ⟨slots, hinv, hevents⟩
  taken := h.taken
  capacity_le := by
    show queue.ring.capacity ≤ _
    rw [hcapacity]
    exact h.capacity_le
  capacity_pos := by
    intro hqueue
    show 0 < queue.ring.capacity
    rw [hcapacity]
    exact h.capacity_pos (by rw [← hallocated]; exact hqueue)
  dropped := hdropped.trans h.dropped

theorem capacity_facts (kind : QueueKind) :
    0 < kind.limits.capacity ∧ kind.limits.capacity ≤ kind.limits.maxCapacity ∧
      kind.limits.maxCapacity ≤ 131072 := by
  cases kind <;> decide

/-- The first allocation gives a queue in which a line of the right size fits. -/
theorem lazyInit (h : Stands kind lane f) : ∃ queue,
    lane.queue.lazyInit kind.limits true = some queue ∧
      Stands kind { lane with queue } f ∧ queue.allocated = true ∧
      queue.slotSize = kind.limits.maxLen := by
  obtain ⟨hpos, hle, hmax⟩ := capacity_facts kind
  obtain ⟨slots, hinv, hevents⟩ := h.slots
  by_cases hallocated : lane.queue.allocated = true
  · refine ⟨lane.queue, ?_, h, hallocated, hinv.sized hallocated⟩
    rw [EventQueue.lazyInit, if_pos hallocated]
  · refine ⟨lane.queue.alloc kind.limits.capacity kind.limits.maxLen, ?_, ?_, rfl, rfl⟩
    · rw [EventQueue.lazyInit, if_neg hallocated]
      rfl
    · obtain ⟨rfl, hnew⟩ := hinv.alloc (by simpa using hallocated) (Nat.le_trans hle hmax)
      exact ⟨⟨[], hnew, hevents⟩, h.taken, hle, fun _ => hpos, h.dropped⟩

theorem grow (h : Stands kind lane f) (hallocated : lane.queue.allocated = true) :
    (∃ grown, lane.queue.autoGrow kind.limits.maxCapacity true = some grown ∧
      Stands kind { lane with queue := grown } f ∧
      lane.queue.ring.capacity < grown.ring.capacity ∧ grown.issued = lane.queue.issued) ∨
    (lane.queue.autoGrow kind.limits.maxCapacity true = none ∧
      lane.queue.ring.capacity = kind.limits.maxCapacity) := by
  have hpos := h.capacity_pos hallocated
  have hle := h.capacity_le
  obtain ⟨slots, hinv, hevents⟩ := h.slots
  cases hgrow : lane.queue.autoGrow kind.limits.maxCapacity true with
  | none =>
      refine .inr ⟨rfl, ?_⟩
      rw [EventQueue.autoGrow] at hgrow
      split at hgrow
      · next hsmall =>
          simp only [Bool.not_true, Bool.false_eq_true, or_false] at hsmall
          omega
      · cases hgrow
  | some grown =>
      obtain ⟨hgrown, hissued⟩ := hinv.autoGrow (capacity_facts kind).2.2 hgrow
      rw [EventQueue.autoGrow] at hgrow
      split at hgrow
      · cases hgrow
      · next hlarger =>
          simp only [Bool.not_true, Bool.false_eq_true, or_false, Nat.not_le] at hlarger
          cases hgrow
          refine .inl ⟨_, rfl, ⟨⟨slots, hgrown, hevents⟩, h.taken, ?_, fun _ => ?_, h.dropped⟩,
            hlarger, hissued⟩
          · show min (lane.queue.ring.capacity * 2) kind.limits.maxCapacity ≤ _
            exact Nat.min_le_right _ _
          · exact Nat.lt_trans hpos hlarger

theorem store (h : Stands kind lane f) (hroom : lane.queue.ring.count < lane.queue.ring.capacity)
    (line : Bytes) :
    Stands kind
      { lane with
        queue := lane.queue.store ⟨lane.accepted.length, line⟩
        accepted := ⟨lane.accepted.length, line⟩ :: lane.accepted }
      (f.offer kind.limits.maxCapacity line) := by
  have hbelow : f.events.length < kind.limits.maxCapacity := by
    rw [← h.count]
    exact Nat.lt_of_lt_of_le hroom h.capacity_le
  obtain ⟨slots, hinv, hevents⟩ := h.slots
  rw [Fifo.offer, if_pos hbelow]
  refine ⟨⟨_, hinv.store hroom _, ?_⟩, ?_, h.capacity_le, h.capacity_pos, h.dropped⟩
  · rw [List.map_append, hevents, h.taken]
    rfl
  · show lane.accepted.length + 1 = f.taken + 1
    rw [h.taken]

/-- A line is taken exactly below the bound, and one without room is counted. -/
theorem append (h : Stands kind lane f) (hallocated : lane.queue.allocated = true)
    (line : Bytes) :
    Stands kind (lane.append kind line true).2 (f.offer kind.limits.maxCapacity line) ∧
      ((lane.append kind line true).1 = true ↔ f.events.length < kind.limits.maxCapacity) := by
  have hcount := h.count
  have hle := h.capacity_le
  rw [QueueLane.append]
  by_cases hroom : lane.queue.ring.count < lane.queue.ring.capacity
  · rw [appendTo_room hroom]
    exact ⟨h.store hroom line, ⟨fun _ => by omega, fun _ => rfl⟩⟩
  · obtain ⟨slots, hinv, hevents⟩ := h.slots
    have hfull := hinv.holds.count_le
    rcases h.grow hallocated with ⟨grown, hgrow, hgrown, hlarger, -⟩ | ⟨hgrow, hbound⟩
    · have hgrownCount : grown.ring.count = f.events.length := hgrown.count
      have hmore : grown.ring.count < grown.ring.capacity := by omega
      have hbelow : grown.ring.capacity ≤ kind.limits.maxCapacity := hgrown.capacity_le
      rw [appendTo_grown hroom hgrow, if_pos hmore]
      exact ⟨hgrown.store hmore line, ⟨fun _ => by omega, fun _ => rfl⟩⟩
    · have hno : ¬ f.events.length < kind.limits.maxCapacity := by omega
      rw [appendTo_refused hroom hgrow, Fifo.offer, if_neg hno]
      refine ⟨⟨⟨slots, ⟨hinv.holds, hinv.bounded, hinv.sized, hinv.unallocated, hinv.numbered⟩,
        hevents⟩, h.taken, h.capacity_le, h.capacity_pos, ?_⟩, ?_⟩
      · show lane.queue.dropped + refusalDrops kind = _
        rw [h.dropped, Nat.mul_add, Nat.mul_one]
      · exact ⟨fun hfalse => (Bool.false_ne_true hfalse).elim, fun hless => absurd hless hno⟩

theorem enqueueLarge (h : Stands .large lane f) {line : Bytes} (hline : line ≠ []) :
    (if line.length < QueueKind.large.limits.maxLen then
      Stands .large (lane.enqueueLarge line true).2
        (f.offer QueueKind.large.limits.maxCapacity line) ∧
      ((lane.enqueueLarge line true).1 = true ↔
        f.events.length < QueueKind.large.limits.maxCapacity)
    else
      Stands .large (lane.enqueueLarge line true).2 f ∧
        (lane.enqueueLarge line true).1 = false) := by
  obtain ⟨queue, hinit, hqueue, hallocated, hsize⟩ := h.lazyInit
  rw [QueueLane.enqueueLarge, if_neg hline, hinit]
  dsimp only
  rw [EventQueue.lineTooLong, hsize]
  by_cases hfits : line.length < QueueKind.large.limits.maxLen
  · rw [if_pos hfits, if_neg (by simpa using hfits)]
    exact hqueue.append hallocated line
  · rw [if_neg hfits, if_pos (by simpa using hfits)]
    exact ⟨hqueue, rfl⟩

theorem popHead (h : Stands kind lane f) :
    Stands kind { lane with queue := lane.queue.popHead } { f with events := f.events.tail } := by
  obtain ⟨slots, hinv, hevents⟩ := h.slots
  have hcapacity : lane.queue.popHead.ring.capacity = lane.queue.ring.capacity := by
    rw [EventQueue.popHead, Ring.pop]
    split <;> rfl
  cases slots with
  | nil =>
      have hsame : lane.queue.popHead = lane.queue := by
        rw [EventQueue.popHead, Ring.pop_of_holds_nil hinv.holds]
      rw [← hsame] at hinv
      refine h.withEvents hinv ?_ hcapacity rfl rfl
      rw [← hevents]
      rfl
  | cons slot slots =>
      refine h.withEvents hinv.popHead ?_ hcapacity rfl rfl
      rw [← hevents]
      rfl

theorem dequeue (h : Stands kind lane f) {outSize : Nat} (hsize : outSize ≠ 0) :
    Stands kind (lane.dequeue outSize).2 { f with events := f.events.tail } ∧
      (lane.dequeue outSize).1 =
        f.events.head?.map fun event => event.line.take (outSize - 1) := by
  obtain ⟨slots, hinv, hevents⟩ := h.slots
  rw [QueueLane.dequeue, if_neg hsize, hinv.headSlot]
  cases slots with
  | nil =>
      have hempty : f.events = [] := hevents.symm
      refine ⟨?_, by rw [hempty]; rfl⟩
      have hsame : ({ f with events := f.events.tail } : Fifo) = f := by
        rw [hempty, List.tail_nil, ← hempty]
      rw [hsame]
      exact h
  | cons slot slots =>
      have hpopped := h.popHead
      rw [← hevents] at hpopped ⊢
      exact ⟨⟨hpopped.slots, h.taken, hpopped.capacity_le, hpopped.capacity_pos, h.dropped⟩, rfl⟩

theorem reset (h : Stands kind lane f) :
    Stands kind lane.reset { f with events := [], refused := 0 } where
  slots := ⟨[], queueInv_free kind.limits lane.queue, rfl⟩
  taken := h.taken
  capacity_le := Nat.zero_le _
  capacity_pos hallocated := by cases hallocated
  dropped := rfl

theorem clearDropped (h : Stands kind lane f) :
    Stands kind { lane with queue := { lane.queue with dropped := 0 } }
      { f with refused := 0 } := by
  obtain ⟨slots, hinv, hevents⟩ := h.slots
  exact ⟨⟨slots, ⟨hinv.holds, hinv.bounded, hinv.sized, hinv.unallocated, hinv.numbered⟩,
    hevents⟩, h.taken, h.capacity_le, h.capacity_pos, rfl⟩

end Stands

/-! ## The three queues -/

namespace EventQueues

def StandFor (s : EventQueues) (f : QueueKind → Fifo) : Prop :=
  ∀ kind, Stands kind (s.lane kind) (f kind)

variable {s : EventQueues} {f : QueueKind → Fifo} {kind : QueueKind} {lane : QueueLane}

theorem StandFor.setLane (h : s.StandFor f) {g : Fifo} (hlane : Stands kind lane g) :
    (s.setLane kind lane).StandFor (Function.update f kind g) := by
  intro other
  by_cases heq : other = kind
  · subst heq
    rw [lane_setLane, Function.update_self]
    exact hlane
  · rw [lane_setLane_of_ne s heq, Function.update_of_ne heq]
    exact h other

theorem StandFor.keepLane (h : s.StandFor f) (hlane : Stands kind lane (f kind)) :
    (s.setLane kind lane).StandFor f := by
  have hset := h.setLane hlane
  rwa [Function.update_eq_self] at hset

/-- What an enqueue does to the lists, and that it answers whether the line was taken. -/
def Enqueues (f : QueueKind → Fifo) (kind : QueueKind) (line : Bytes)
    (answer : Bool × EventQueues) : Prop :=
  answer.2.StandFor (applyFifos f (.enqueue kind line)) ∧
    (answer.1 = true ↔ ∃ target, lineQueue kind line = some target ∧
      (f target).events.length < target.limits.maxCapacity)

theorem enqueues_none {line : Bytes} (h : s.StandFor f) (hnone : lineQueue kind line = none) :
    Enqueues f kind line (false, s) := by
  refine ⟨?_, ?_⟩
  · rw [applyFifos, hnone]
    exact h
  · rw [hnone]
    exact ⟨fun hfalse => (Bool.false_ne_true hfalse).elim, fun ⟨_, htarget, _⟩ => nomatch htarget⟩

theorem enqueues_some {target : QueueKind} {line : Bytes} {ok : Bool} (h : s.StandFor f)
    (htarget : lineQueue kind line = some target)
    (hlane : Stands target lane ((f target).offer target.limits.maxCapacity line))
    (hok : ok = true ↔ (f target).events.length < target.limits.maxCapacity) :
    Enqueues f kind line (ok, s.setLane target lane) := by
  refine ⟨?_, ?_⟩
  · rw [applyFifos, htarget]
    exact h.setLane hlane
  · rw [hok, htarget]
    constructor
    · exact fun hbelow => ⟨target, rfl, hbelow⟩
    · intro ⟨other, hother, hbelow⟩
      cases hother
      exact hbelow

theorem enqueueSmall_enqueues (h : s.StandFor f) (kind : QueueKind) (line : Bytes) :
    Enqueues f kind line (s.enqueueSmall kind line true true) := by
  rw [enqueueSmall]
  by_cases hline : line = []
  · rw [if_pos hline]
    exact enqueues_none h (by rw [lineQueue, if_pos hline])
  rw [if_neg hline]
  obtain ⟨queue, hinit, hqueue, hallocated, hsize⟩ := (h kind).lazyInit
  rw [hinit]
  dsimp only
  rw [EventQueue.lineTooLong, hsize]
  have hkept := h.keepLane hqueue
  by_cases hfits : line.length < kind.limits.maxLen
  · rw [if_neg (by simpa using hfits)]
    obtain ⟨hlane, hok⟩ := hqueue.append hallocated line
    exact enqueues_some h (by rw [lineQueue, if_neg hline, if_pos hfits]) hlane hok
  · rw [if_pos (by simpa using hfits)]
    by_cases hlarge : line.length < QueueKind.large.limits.maxLen
    · rw [if_pos hlarge]
      have hroute := (h .large).enqueueLarge hline
      rw [if_pos hlarge] at hroute
      exact enqueues_some hkept
        (by rw [lineQueue, if_neg hline, if_neg hfits, if_pos hlarge]) hroute.1 hroute.2
    · rw [if_neg hlarge]
      exact enqueues_none hkept
        (by rw [lineQueue, if_neg hline, if_neg hfits, if_neg hlarge])

theorem enqueue_enqueues (h : s.StandFor f) (kind : QueueKind) (line : Bytes) :
    Enqueues f kind line (s.enqueue kind line true true) := by
  cases kind with
  | item => exact enqueueSmall_enqueues h .item line
  | scalar => exact enqueueSmall_enqueues h .scalar line
  | large =>
      rw [enqueue]
      by_cases hline : line = []
      · have hnone : s.large.enqueueLarge line true = (false, s.large) := by
          rw [QueueLane.enqueueLarge, if_pos hline]
        rw [hnone]
        exact enqueues_none (h.keepLane (h .large)) (by rw [lineQueue, if_pos hline])
      · have hroute := (h .large).enqueueLarge hline
        by_cases hfits : line.length < QueueKind.large.limits.maxLen
        · rw [if_pos hfits] at hroute
          exact enqueues_some h (by rw [lineQueue, if_neg hline, if_pos hfits])
            hroute.1 hroute.2
        · rw [if_neg hfits] at hroute
          have hrefused : (s.large.enqueueLarge line true).1 = false := hroute.2
          have hnone := enqueues_none (h.keepLane hroute.1)
            (show lineQueue .large line = none by
              rw [lineQueue, if_neg hline, if_neg hfits, if_neg hfits])
          rw [← hrefused] at hnone
          exact hnone

theorem apply_standFor (h : s.StandFor f) (op : QueueOp) :
    (s.apply op).StandFor (applyFifos f op) := by
  cases op with
  | enqueue kind line => exact (enqueue_enqueues h kind line).1
  | dequeue kind outSize =>
      rw [apply, applyFifos]
      split
      · next hzero =>
          refine h.keepLane ?_
          rw [QueueLane.dequeue, if_pos hzero]
          exact h kind
      · next hsize => exact h.setLane ((h kind).dequeue hsize).1
  | popHead kind => exact h.setLane (h kind).popHead
  | grow kind =>
      refine h.keepLane ?_
      by_cases hallocated : (s.lane kind).queue.allocated = true
      · rcases (h kind).grow hallocated with ⟨grown, hgrow, hgrown, -⟩ | ⟨hgrow, -⟩
        · rw [hgrow]
          exact hgrown
        · rw [hgrow]
          exact h kind
      · obtain ⟨slots, hinv, -⟩ := (h kind).slots
        have hzero := (hinv.unallocated (by simpa using hallocated)).1
        have hnone : (s.lane kind).queue.autoGrow kind.limits.maxCapacity true = none := by
          rw [EventQueue.autoGrow, hzero]
          exact if_pos (.inl (by omega))
        rw [hnone]
        exact h kind
  | clearDropped kind => exact h.setLane (h kind).clearDropped
  | reset kind => exact h.setLane (h kind).reset

def applyBoth (p : EventQueues × (QueueKind → Fifo)) (op : QueueOp) :
    EventQueues × (QueueKind → Fifo) :=
  (p.1.apply op, applyFifos p.2 op)

/-- What the queues are after some operations, and what the lists are. -/
def after (ops : List QueueOp) : EventQueues × (QueueKind → Fifo) :=
  run applyBoth ({}, fun _ => {}) ops

theorem after_standFor (ops : List QueueOp) : (after ops).1.StandFor (after ops).2 :=
  run_invariant (P := fun p : EventQueues × (QueueKind → Fifo) => p.1.StandFor p.2)
    (fun _ op h => apply_standFor h op) ops
    (fun kind => by cases kind <;> exact Stands.initial _)

/-- The queues refine the lists: the ring of each holds its list, in order, within its
capacity and under distinct generations; a dequeue gives the oldest line; a line is taken
unless its queue is at its maximum; and the counters agree. -/
structure RefineFifos (s : EventQueues) (f : QueueKind → Fifo) : Prop where
  holds : ∀ kind, ∃ slots, (s.lane kind).queue.ring.Holds slots ∧
    slots.map QueueSlot.event = (f kind).events ∧ (slots.map QueueSlot.generation).Nodup
  capacity : ∀ kind, (s.lane kind).queue.ring.count ≤ (s.lane kind).queue.ring.capacity ∧
    (s.lane kind).queue.ring.capacity ≤ kind.limits.maxCapacity
  dequeues : ∀ kind outSize, outSize ≠ 0 → ((s.lane kind).dequeue outSize).1 =
    (f kind).events.head?.map fun event => event.line.take (outSize - 1)
  takes : ∀ kind line, (s.enqueue kind line true true).1 = true ↔
    ∃ target, lineQueue kind line = some target ∧
      (s.lane target).queue.ring.count < target.limits.maxCapacity
  dropped : ∀ kind, (s.lane kind).queue.dropped = (f kind).refused

/-- Whatever the operations, the queues refine the lists exactly when the scalar queue has
not had to refuse a line since its counter was last cleared. -/
theorem queues_refine_fifos_iff (ops : List QueueOp) :
    RefineFifos (after ops).1 (after ops).2 ↔ ((after ops).2 .scalar).refused = 0 := by
  have h := after_standFor ops
  generalize after ops = p at h
  obtain ⟨s, f⟩ := p
  constructor
  · intro hrefine
    have hcounted : (s.lane .scalar).queue.dropped = 2 * (f .scalar).refused :=
      (h .scalar).dropped
    have hequal : (s.lane .scalar).queue.dropped = (f .scalar).refused := hrefine.dropped .scalar
    show (f .scalar).refused = 0
    omega
  · intro hscalar
    refine ⟨?_, ?_, fun kind outSize hsize => ((h kind).dequeue hsize).2, ?_, ?_⟩
    · intro kind
      obtain ⟨slots, hinv, hevents⟩ := (h kind).slots
      exact ⟨slots, hinv.holds, hevents, hinv.numbered.nodup hinv.length_lt⟩
    · intro kind
      obtain ⟨slots, hinv, -⟩ := (h kind).slots
      exact ⟨hinv.holds.count_le, (h kind).capacity_le⟩
    · intro kind line
      rw [(enqueue_enqueues h kind line).2]
      simp only [(h _).count]
    · intro kind
      have hcounted := (h kind).dropped
      cases kind with
      | item => exact hcounted.trans (Nat.one_mul _)
      | large => exact hcounted.trans (Nat.one_mul _)
      | scalar =>
          have hzero : (f .scalar).refused = 0 := hscalar
          show (s.lane .scalar).queue.dropped = (f .scalar).refused
          rw [hcounted, hzero, Nat.mul_zero]

/-! ## One line too many -/

def scalarLines (n : Nat) : List QueueOp := List.replicate n (.enqueue .scalar [65])

theorem scalarLines_offered (n : Nat) (f : QueueKind → Fifo) :
    (run applyFifos f (scalarLines n) .scalar).refused =
      (f .scalar).refused + ((f .scalar).events.length + n - 131072) -
        ((f .scalar).events.length - 131072) := by
  induction n generalizing f with
  | zero =>
      show (f .scalar).refused = _
      omega
  | succ n ih =>
      rw [scalarLines, List.replicate_succ, run_cons, ← scalarLines, ih]
      have hoffer : applyFifos f (.enqueue .scalar [65]) .scalar =
          (f .scalar).offer 131072 [65] := by
        rw [applyFifos, show lineQueue .scalar [65] = some .scalar from rfl]
        exact Function.update_self ..
      rw [hoffer, Fifo.offer]
      split
      · next hbelow =>
          show (f .scalar).refused + ((_ ++ [_]).length + n - 131072) -
            ((_ ++ [_]).length - 131072) = _
          rw [List.length_append, List.length_singleton]
          omega
      · next hfull =>
          show (f .scalar).refused + 1 + ((f .scalar).events.length + n - 131072) -
            ((f .scalar).events.length - 131072) = _
          omega

theorem after_snd (ops : List QueueOp) :
    (after ops).2 = run applyFifos (fun _ => {}) ops := by
  have hboth : ∀ (ops : List QueueOp) (p : EventQueues × (QueueKind → Fifo)),
      (run applyBoth p ops).2 = run applyFifos p.2 ops := by
    intro ops
    induction ops with
    | nil => exact fun p => rfl
    | cons op ops ih => exact fun p => ih _
  exact hboth ops _

/-- The scalar queue counts the line behind its last slot twice. -/
theorem scalar_overflow_counted_twice :
    ¬ RefineFifos (after (scalarLines 131073)).1 (after (scalarLines 131073)).2 := by
  intro h
  have hrefused : ((after (scalarLines 131073)).2 .scalar).refused = 1 := by
    rw [after_snd, scalarLines_offered]
    rfl
  have hcounted := (after_standFor (scalarLines 131073) .scalar).dropped
  rw [h.dropped .scalar, hrefused] at hcounted
  cases hcounted

end EventQueues

end Duris.Persistence
