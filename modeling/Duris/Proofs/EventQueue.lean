import Duris.Lib.Run
import Duris.Persistence.EventQueue

/-!
# The worker removes what it wrote

The ring is forgotten first: a lane is described by the list of its slots, and each
operation by what it does to that list.

The generations in a queue are consecutive, in the cycle of the 2⁶⁴ - 1 numbers
that are handed out, so no two queued slots share one. What the worker needs is
one step further: while it writes, no other event may come to carry the generation
it holds. A dequeue, a growth and any number of enqueues keep that. A reset does
not: it restarts the numbering, and the first events after it carry the numbers
the worker may still be holding.
-/

namespace Duris.Persistence

/-- How many generations there are before they repeat. -/
def generationCycle : Nat := 2 ^ 64 - 1

/-- The generations of `slots` are consecutive and `next` follows the last. -/
def Numbered (slots : List QueueSlot) (next : BitVec 64) : Prop :=
  ∃ base, (∀ i (hi : i < slots.length),
      slots[i].generation.toNat = (base + i) % generationCycle + 1) ∧
    next.toNat = (base + slots.length) % generationCycle + 1

theorem numbered_nil : Numbered [] 1 := ⟨0, by simp, by simp⟩

theorem toNat_issued_succ {generation : BitVec 64} {n : Nat}
    (h : generation.toNat = n % generationCycle + 1) :
    (if generation + 1 = 0 then 1 else generation + 1 : BitVec 64).toNat =
      (n + 1) % generationCycle + 1 := by
  have hmod := Nat.mod_lt n (show 0 < generationCycle by decide)
  have hsucc : (n + 1) % generationCycle = (n % generationCycle + 1) % generationCycle := by
    rw [Nat.mod_add_mod]
  have hnext : (generation + 1).toNat = (generation.toNat + 1) % 2 ^ 64 := by
    rw [BitVec.toNat_add]
    rfl
  by_cases hlast : n % generationCycle + 1 = generationCycle
  · have hzero : generation + 1 = 0 := by
      apply BitVec.eq_of_toNat_eq
      rw [hnext, h, hlast]
      rfl
    rw [if_pos hzero, hsucc, hlast, Nat.mod_self]
    rfl
  · have hinside : n % generationCycle + 1 < generationCycle := by omega
    have hvalue : (generation + 1).toNat = n % generationCycle + 1 + 1 := by
      rw [hnext, h]
      apply Nat.mod_eq_of_lt
      rw [generationCycle] at hinside ⊢
      omega
    have hne : generation + 1 ≠ 0 := by
      intro hzero
      rw [hzero] at hvalue
      simp at hvalue
    rw [if_neg hne, hsucc, Nat.mod_eq_of_lt hinside, hvalue]

variable {slots : List QueueSlot} {next : BitVec 64}

theorem Numbered.store (h : Numbered slots next) (event : QueuedEvent) :
    Numbered (slots ++ [⟨event, next⟩]) (if next + 1 = 0 then 1 else next + 1) := by
  obtain ⟨base, hslots, hnext⟩ := h
  refine ⟨base, ?_, ?_⟩
  · intro i hi
    rw [List.length_append, List.length_singleton] at hi
    rcases Nat.lt_or_ge i slots.length with hlt | hge
    · rw [List.getElem_append_left hlt]
      exact hslots i hlt
    · obtain rfl : i = slots.length := by omega
      simpa using hnext
  · rw [List.length_append, List.length_singleton, ← Nat.add_assoc]
    exact toNat_issued_succ hnext

theorem Numbered.tail {slot : QueueSlot} (h : Numbered (slot :: slots) next) :
    Numbered slots next := by
  obtain ⟨base, hslots, hnext⟩ := h
  refine ⟨base + 1, ?_, ?_⟩
  · intro i hi
    have hshift := hslots (i + 1) (by simp only [List.length_cons]; omega)
    rw [List.getElem_cons_succ] at hshift
    rw [hshift, Nat.add_right_comm, Nat.add_assoc]
  · rw [hnext, List.length_cons]
    congr 2
    omega

theorem Numbered.head_unique {head slot : QueueSlot} (h : Numbered (head :: slots) next)
    (hsize : (head :: slots).length < generationCycle) (hslot : slot ∈ head :: slots)
    (hsame : slot.generation = head.generation) : slot = head := by
  obtain ⟨base, hslots, -⟩ := h
  obtain ⟨i, hi, rfl⟩ := List.mem_iff_getElem.mp hslot
  have hhead := hslots 0 (by simp)
  have hith := hslots i hi
  rw [hsame] at hith
  rw [List.getElem_cons_zero, hith] at hhead
  rcases Nat.eq_zero_or_pos i with rfl | hpos
  · rfl
  · have hne : (base + 0) % generationCycle ≠ (base + i) % generationCycle :=
      Ring.mod_ne_of_lt hpos (by omega)
    exact absurd (by omega) hne

/-! ## One lane -/

/-- A queue that stands for `slots`, within its limits. -/
structure QueueInv (limits : QueueLimits) (queue : EventQueue) (slots : List QueueSlot) :
    Prop where
  holds : queue.ring.Holds slots
  bounded : queue.ring.capacity ≤ 131072
  sized : queue.allocated = true → queue.slotSize = limits.maxLen
  unallocated : queue.allocated = false → queue.ring.capacity = 0 ∧ queue.ring.count = 0 ∧
    queue.ring.head = 0 ∧ queue.ring.tail = 0
  numbered : Numbered slots queue.issued

theorem queueInv_initial (limits : QueueLimits) : QueueInv limits {} [] where
  holds := Ring.holds_nil rfl rfl rfl
  bounded := Nat.zero_le _
  sized h := absurd h (by simp)
  unallocated _ := ⟨rfl, rfl, rfl, rfl⟩
  numbered := numbered_nil

theorem queueInv_free (limits : QueueLimits) (queue : EventQueue) :
    QueueInv limits queue.free [] where
  holds := Ring.holds_nil rfl rfl rfl
  bounded := Nat.zero_le _
  sized h := absurd h (by simp [EventQueue.free])
  unallocated _ := ⟨rfl, rfl, rfl, rfl⟩
  numbered := numbered_nil

/-! ## The end of an enqueue -/

section

variable {kind : QueueKind} {queue grown : EventQueue} {event : QueuedEvent} {memory : Bool}

/-- How often a queue counts a line it cannot grow for. -/
def refusalDrops : QueueKind → Nat
  | .scalar => 2
  | _ => 1

theorem appendTo_room (hroom : queue.ring.count < queue.ring.capacity) :
    queue.appendTo kind event memory = (true, queue.store event) := by
  cases kind <;> simp [EventQueue.appendTo, EventQueue.appendScalar, EventQueue.append, hroom]

theorem appendTo_grown (hfull : ¬ queue.ring.count < queue.ring.capacity)
    (hgrow : queue.autoGrow kind.limits.maxCapacity memory = some grown) :
    queue.appendTo kind event memory =
      if grown.ring.count < grown.ring.capacity then (true, grown.store event)
      else (false, grown.drop) := by
  cases kind <;>
    simp [EventQueue.appendTo, EventQueue.appendScalar, EventQueue.append, hfull, hgrow]

/-- Where the queue cannot grow the line is refused, and the scalar queue counts it twice. -/
theorem appendTo_refused (hfull : ¬ queue.ring.count < queue.ring.capacity)
    (hgrow : queue.autoGrow kind.limits.maxCapacity memory = none) :
    queue.appendTo kind event memory =
      (false, { queue with dropped := queue.dropped + refusalDrops kind }) := by
  cases kind <;> simp [EventQueue.appendTo, EventQueue.appendScalar, EventQueue.append, hfull,
    hgrow, EventQueue.drop, refusalDrops]

end

namespace QueueInv

variable {limits : QueueLimits} {queue queue' : EventQueue} {slot : QueueSlot}
  {slots : List QueueSlot}

section

variable (h : QueueInv limits queue slots)

include h

theorem headSlot : queue.headSlot = slots.head? := by
  rw [EventQueue.headSlot]
  have hcount := h.holds.count_eq
  cases slots with
  | nil => exact if_pos hcount
  | cons slot slots =>
      rw [List.length_cons] at hcount
      rw [if_neg (by omega), h.holds.cell_zero]
      rfl

theorem length_lt : slots.length < generationCycle := by
  have hcount := h.holds.count_eq
  have hle := h.holds.count_le
  have hbounded := h.bounded
  rw [generationCycle]
  omega

theorem alloc (hnull : queue.allocated = false)
    (hcapacity : limits.capacity ≤ 131072) :
    slots = [] ∧ QueueInv limits (queue.alloc limits.capacity limits.maxLen) [] := by
  obtain ⟨-, hcount, hhead, htail⟩ := h.unallocated hnull
  refine ⟨List.length_eq_zero_iff.mp (by rw [← h.holds.count_eq, hcount]), ?_⟩
  exact {
    holds := Ring.holds_nil hcount hhead htail
    bounded := hcapacity
    sized := fun _ => rfl
    unallocated := fun hfalse => absurd hfalse (by simp [EventQueue.alloc])
    numbered := numbered_nil }

/-- The lazy initialisation changes neither the slots nor what the worker may
rely on; when it allocates, the numbering starts at one. -/
theorem lazyInit (hcapacity : limits.capacity ≤ 131072)
    {memory : Bool}
    (hinit : queue.lazyInit limits memory = some queue') :
    QueueInv limits queue' slots ∧ queue'.slotSize = limits.maxLen ∧
      queue'.issued = if queue.allocated then queue.issued else 1 := by
  rw [EventQueue.lazyInit] at hinit
  split at hinit
  · next hallocated =>
      cases hinit
      rw [if_pos hallocated]
      exact ⟨h, h.sized hallocated, rfl⟩
  · next hnull =>
      split at hinit
      · cases hinit
        obtain ⟨rfl, halloc⟩ := h.alloc (by simpa using hnull) hcapacity
        rw [if_neg hnull]
        exact ⟨halloc, rfl, rfl⟩
      · simp at hinit

theorem store (hroom : queue.ring.count < queue.ring.capacity)
    (event : QueuedEvent) :
    QueueInv limits (queue.store event) (slots ++ [⟨event, queue.issued⟩]) where
  holds := h.holds.push hroom _
  bounded := h.bounded
  sized := h.sized
  unallocated hnull := absurd (h.unallocated hnull).1 (by omega)
  numbered := h.numbered.store event

end

theorem popHead (h : QueueInv limits queue (slot :: slots)) :
    QueueInv limits queue.popHead slots where
  holds := h.holds.pop
  bounded := by
    rw [EventQueue.popHead, Ring.pop]
    split <;> exact h.bounded
  sized := h.sized
  unallocated hnull := by
    have hcount := h.holds.count_eq
    rw [(h.unallocated hnull).2.1] at hcount
    simp at hcount
  numbered := h.numbered.tail

theorem autoGrow (h : QueueInv limits queue slots) {maxCapacity : Nat} (hmax : maxCapacity ≤ 131072)
    {memory : Bool} (hgrow : queue.autoGrow maxCapacity memory = some queue') :
    QueueInv limits queue' slots ∧ queue'.issued = queue.issued := by
  rw [EventQueue.autoGrow] at hgrow
  split at hgrow
  · simp at hgrow
  · next hlarger =>
      cases hgrow
      rw [not_or] at hlarger
      have hle := h.holds.count_le
      have hroom : queue.ring.count < min (queue.ring.capacity * 2) maxCapacity := by omega
      exact ⟨{
        holds := h.holds.grow hroom
        bounded := by
          show min (queue.ring.capacity * 2) maxCapacity ≤ 131072
          omega
        sized := h.sized
        unallocated := fun hnull => by
          have hzero := (h.unallocated hnull).1
          omega
        numbered := h.numbered }, rfl⟩

/-- How an append ends: the event stored with the next generation, or refused. -/
theorem appendTo {kind : QueueKind} (h : QueueInv kind.limits queue slots)
    (hmax : kind.limits.maxCapacity ≤ 131072) (event : QueuedEvent) (memory : Bool) :
    (∃ queue', queue.appendTo kind event memory = (true, queue') ∧
      QueueInv kind.limits queue' (slots ++ [⟨event, queue.issued⟩])) ∨
    (∃ queue', queue.appendTo kind event memory = (false, queue') ∧
      QueueInv kind.limits queue' slots) := by
  by_cases hroom : queue.ring.count < queue.ring.capacity
  · exact .inl ⟨_, appendTo_room hroom, h.store hroom event⟩
  · cases hgrow : queue.autoGrow kind.limits.maxCapacity memory with
    | none =>
        exact .inr ⟨_, appendTo_refused hroom hgrow,
          h.holds, h.bounded, h.sized, h.unallocated, h.numbered⟩
    | some grown =>
        obtain ⟨hinv, hissued⟩ := h.autoGrow hmax hgrow
        rw [appendTo_grown hroom hgrow]
        split
        · next hmore =>
            rw [← hissued]
            exact .inl ⟨_, rfl, hinv.store hmore event⟩
        · exact .inr ⟨_, rfl, hinv.holds, hinv.bounded, hinv.sized, hinv.unallocated,
            hinv.numbered⟩

end QueueInv

/-! ## One lane -/

/-- What holds of a lane at all times. `tracked` is what the worker relies on:
while it holds a slot, the generation of that slot is carried by no other. -/
structure LaneInv (limits : QueueLimits) (lane : QueueLane) (slots : List QueueSlot) :
    Prop where
  queue : QueueInv limits lane.queue slots
  tracked : ∀ held, lane.held = some held → ∀ slot ∈ slots,
    slot.generation = held.generation → slot = held
  custody : ∀ event ∈ lane.accepted,
    event ∈ slots.map QueueSlot.event ∨ event ∈ lane.written ∨ event ∈ lane.discarded

def QueueLane.upcoming (lane : QueueLane) : BitVec 64 :=
  if lane.queue.allocated then lane.queue.issued else 1

/-- The next event will not get the generation the worker is holding. -/
def QueueLane.Fresh (lane : QueueLane) : Prop :=
  ∀ held, lane.held = some held → lane.upcoming ≠ held.generation

instance (lane : QueueLane) : Decidable lane.Fresh :=
  decidable_of_iff (∀ held ∈ lane.held, lane.upcoming ≠ held.generation) Iff.rfl

theorem laneInv_initial (limits : QueueLimits) : LaneInv limits {} [] where
  queue := queueInv_initial limits
  tracked _ h := absurd h (by simp)
  custody := by simp

namespace LaneInv

variable {limits : QueueLimits} {lane : QueueLane} {slots : List QueueSlot}

theorem queued (h : LaneInv limits lane slots) : lane.queued = slots.map QueueSlot.event := by
  rw [QueueLane.queued, ← List.map_filterMap, h.queue.holds.contents]

theorem withQueue (h : LaneInv limits lane slots) {queue : EventQueue}
    (hqueue : QueueInv limits queue slots) :
    LaneInv limits { lane with queue := queue } slots := ⟨hqueue, h.tracked, h.custody⟩

/-- The worker holds nothing an append could bring back, so the append is safe. -/
theorem append {kind : QueueKind} (h : LaneInv kind.limits lane slots)
    (hmax : kind.limits.maxCapacity ≤ 131072) {line : Bytes} {memory : Bool}
    (hfresh : (lane.append kind line memory).1 = true →
      ∀ held, lane.held = some held → lane.queue.issued ≠ held.generation) :
    ∃ slots', LaneInv kind.limits (lane.append kind line memory).2 slots' := by
  rw [QueueLane.append] at hfresh ⊢
  rcases h.queue.appendTo hmax ⟨lane.accepted.length, line⟩ memory with
    ⟨queue, happend, hqueue⟩ | ⟨queue, happend, hqueue⟩
  · rw [happend] at hfresh ⊢
    have hfresh := hfresh rfl
    refine ⟨_, hqueue, ?_, ?_⟩
    · intro held hheld slot hslot hsame
      rcases List.mem_append.mp hslot with hold | hnew
      · exact h.tracked held hheld slot hold hsame
      · rw [List.mem_singleton.mp hnew] at hsame
        exact absurd hsame (hfresh held hheld)
    · intro event hevent
      rw [List.map_append, List.mem_append]
      rcases List.mem_cons.mp hevent with rfl | hold
      · exact .inl (.inr (by simp))
      · rcases h.custody event hold with hqueued | helsewhere
        · exact .inl (.inl hqueued)
        · exact .inr helsewhere
  · rw [happend]
    exact ⟨slots, h.withQueue hqueue⟩

theorem enqueueLarge (h : LaneInv QueueKind.large.limits lane slots) {line : Bytes}
    {memory : Bool} (hfresh : (lane.enqueueLarge line memory).1 = true → lane.Fresh) :
    ∃ slots', LaneInv QueueKind.large.limits (lane.enqueueLarge line memory).2 slots' := by
  rw [QueueLane.enqueueLarge] at hfresh ⊢
  split
  · exact ⟨slots, h⟩
  · cases hinit : lane.queue.lazyInit QueueKind.large.limits memory with
    | none => exact ⟨slots, h⟩
    | some queue =>
        obtain ⟨hqueue, -, hissued⟩ := h.queue.lazyInit (by decide) hinit
        dsimp only
        split
        · exact ⟨slots, h.withQueue hqueue⟩
        · next hline hfits =>
            rw [if_neg hline, hinit] at hfresh
            dsimp only at hfresh
            rw [if_neg hfits] at hfresh
            refine (h.withQueue hqueue).append (by decide) fun hstored held hheld => ?_
            rw [show ({ lane with queue := queue } : QueueLane).queue.issued = _ from hissued]
            exact hfresh hstored held hheld

variable (h : LaneInv limits lane slots)

include h

theorem dequeue (outSize : Nat) :
    ∃ slots', LaneInv limits (lane.dequeue outSize).2 slots' := by
  rw [QueueLane.dequeue, h.queue.headSlot]
  split
  · exact ⟨slots, h⟩
  · cases slots with
    | nil => exact ⟨[], h⟩
    | cons slot slots =>
        refine ⟨slots, h.queue.popHead, ?_, ?_⟩
        · intro held hheld other hother
          exact h.tracked held hheld other (List.mem_cons_of_mem _ hother)
        · intro event hevent
          rcases h.custody event hevent with hqueued | hwritten | hdiscarded
          · rcases List.mem_cons.mp hqueued with rfl | hrest
            · exact .inr (.inr List.mem_cons_self)
            · exact .inl hrest
          · exact .inr (.inl hwritten)
          · exact .inr (.inr (List.mem_cons_of_mem _ hdiscarded))

theorem reset : LaneInv limits lane.reset [] where
  queue := queueInv_free limits lane.queue
  tracked _ _ _ hslot := absurd hslot (by simp)
  custody event hevent := by
    show _ ∨ event ∈ lane.written ∨ event ∈ lane.queued ++ lane.discarded
    rw [h.queued, List.mem_append]
    rcases h.custody event hevent with hqueued | hwritten | hdiscarded
    · exact .inr (.inr (.inl hqueued))
    · exact .inr (.inl hwritten)
    · exact .inr (.inr (.inr hdiscarded))

theorem readHead : LaneInv limits lane.readHead slots := by
  rw [QueueLane.readHead]
  cases hheld : lane.held with
  | some held => exact h
  | none =>
      refine ⟨h.queue, ?_, h.custody⟩
      intro held hread slot hslot hsame
      rw [show lane.queue.headSlot = slots.head? from h.queue.headSlot] at hread
      cases slots with
      | nil => simp at hread
      | cons head slots =>
          obtain rfl : head = held := by simpa using hread
          exact h.queue.numbered.head_unique h.queue.length_lt hslot hsame

theorem removable {slot : QueueSlot}
    (hremovable : lane.removable = some slot) :
    lane.held = some slot ∧ ∃ rest, slots = slot :: rest := by
  rw [QueueLane.removable, h.queue.headSlot] at hremovable
  split at hremovable
  · next held head hheld hhead =>
      split at hremovable
      · next hsame =>
          obtain rfl := Option.some.inj hremovable
          cases slots with
          | nil => simp at hhead
          | cons first rest =>
              obtain rfl : first = head := by simpa using hhead
              have hown := h.tracked held hheld first List.mem_cons_self hsame
              exact ⟨by rw [hheld, hown], rest, rfl⟩
      · simp at hremovable
  · simp at hremovable

/-- The section after the write: nothing leaves the queue, or the event that was
written does. -/
theorem finishWrite (writeOk : Bool) :
    LaneInv limits (lane.finishWrite writeOk) slots ∨
      ∃ held rest, writeOk = true ∧ lane.held = some held ∧ slots = held :: rest ∧
        LaneInv limits (lane.finishWrite writeOk) rest := by
  rw [QueueLane.finishWrite]
  cases hheld : lane.held with
  | none => exact .inl h
  | some held =>
      dsimp only
      split
      · next hok =>
          have hcustody : ∀ event ∈ lane.accepted, event ∈ slots.map QueueSlot.event ∨
              event ∈ held.event :: lane.written ∨ event ∈ lane.discarded := by
            intro event hevent
            rcases h.custody event hevent with hqueued | hwritten | hdiscarded
            · exact .inl hqueued
            · exact .inr (.inl (List.mem_cons_of_mem _ hwritten))
            · exact .inr (.inr hdiscarded)
          cases hremovable : lane.removable with
          | none => exact .inl ⟨h.queue, fun _ hnone => absurd hnone (by simp), hcustody⟩
          | some slot =>
              obtain ⟨hown, rest, rfl⟩ := h.removable hremovable
              obtain rfl : held = slot := by rw [hheld] at hown; exact Option.some.inj hown
              refine .inr ⟨held, rest, hok, rfl, rfl, h.queue.popHead,
                fun _ hnone => absurd hnone (by simp), ?_⟩
              intro event hevent
              rcases hcustody event hevent with hqueued | helsewhere
              · rcases List.mem_cons.mp hqueued with rfl | hrest
                · exact .inr (.inl List.mem_cons_self)
                · exact .inl hrest
              · exact .inr helsewhere
      · exact .inl ⟨h.queue, fun _ hnone => absurd hnone (by simp), h.custody⟩

end LaneInv

def SameLedger (lane lane' : QueueLane) : Prop :=
  lane'.written = lane.written ∧ lane'.discarded = lane.discarded

theorem append_sameLedger (lane : QueueLane) (kind : QueueKind) (line : Bytes)
    (memory : Bool) : SameLedger lane (lane.append kind line memory).2 := by
  rw [QueueLane.append]
  split <;> exact ⟨rfl, rfl⟩

theorem enqueueLarge_sameLedger (lane : QueueLane) (line : Bytes) (memory : Bool) :
    SameLedger lane (lane.enqueueLarge line memory).2 := by
  rw [QueueLane.enqueueLarge]
  split
  · exact ⟨rfl, rfl⟩
  · split
    · exact ⟨rfl, rfl⟩
    · next queue _ =>
        split
        · exact ⟨rfl, rfl⟩
        · exact append_sameLedger { lane with queue := queue } _ line memory

/-! ## The three queues -/

namespace EventQueues

@[simp] theorem lane_setLane (s : EventQueues) (kind : QueueKind) (lane : QueueLane) :
    (s.setLane kind lane).lane kind = lane := by
  cases kind <;> rfl

variable {kind : QueueKind} {s : EventQueues}

theorem lane_setLane_of_ne (s : EventQueues) {other : QueueKind} (h : other ≠ kind)
    (lane : QueueLane) : (s.setLane kind lane).lane other = s.lane other := by
  cases kind <;> cases other <;> first | rfl | exact absurd rfl h

def Inv (s : EventQueues) : Prop := ∀ kind, ∃ slots, LaneInv kind.limits (s.lane kind) slots

theorem inv_initial : Inv {} := by
  intro kind
  cases kind <;> exact ⟨[], laneInv_initial _⟩

theorem Inv.setLane (h : s.Inv) {lane : QueueLane}
    (hlane : ∃ slots, LaneInv kind.limits lane slots) : (s.setLane kind lane).Inv := by
  intro other
  by_cases hother : other = kind
  · subst hother
    rw [lane_setLane]
    exact hlane
  · rw [lane_setLane_of_ne s hother]
    exact h other

/-- The queue an enqueue on `kind` stores a line in. -/
def destination (kind : QueueKind) (line : Bytes) : QueueKind :=
  if line.length < kind.limits.maxLen then kind else .large

/-- No event is stored under the generation its queue's worker is holding. -/
def FreshStep (s : EventQueues) : Event → Prop
  | .enqueue kind line memory largeMemory =>
      (s.enqueue kind line memory largeMemory).1 = true → (s.lane (destination kind line)).Fresh
  | .dequeue .. | .reset .. | .readHead .. | .finishWrite .. => True

theorem limits_le (kind : QueueKind) :
    kind.limits.capacity ≤ 131072 ∧ kind.limits.maxCapacity ≤ 131072 := by
  cases kind <;> decide

theorem enqueueSmall_inv (h : s.Inv) {line : Bytes} {memory largeMemory : Bool}
    (hfresh : (s.enqueueSmall kind line memory largeMemory).1 = true →
      (s.lane (destination kind line)).Fresh) :
    (s.enqueueSmall kind line memory largeMemory).2.Inv := by
  rw [enqueueSmall] at hfresh ⊢
  split
  · exact h
  · next hline =>
    rw [if_neg hline] at hfresh
    obtain ⟨slots, hlane⟩ := h kind
    cases hinit : (s.lane kind).queue.lazyInit kind.limits memory with
    | none => exact h
    | some queue =>
        obtain ⟨hqueue, hsized, hissued⟩ := hlane.queue.lazyInit (limits_le kind).1 hinit
        have hready := h.setLane ⟨slots, hlane.withQueue hqueue⟩
        rw [hinit] at hfresh
        dsimp only at hfresh ⊢
        split
        · next hlong =>
            rw [if_pos hlong] at hfresh
            have hroute : destination kind line = .large := by
              rw [EventQueue.lineTooLong, hsized, decide_eq_true_eq] at hlong
              exact if_neg (by omega)
            rw [hroute] at hfresh
            obtain ⟨largeSlots, hlarge⟩ := h .large
            split
            · next hroom =>
                rw [if_pos hroom] at hfresh
                exact hready.setLane (hlarge.enqueueLarge hfresh)
            · exact hready
        · next hfits =>
            rw [if_neg hfits] at hfresh
            have hstay : destination kind line = kind := by
              rw [EventQueue.lineTooLong, hsized, decide_eq_true_eq] at hfits
              exact if_pos (by omega)
            rw [hstay] at hfresh
            refine h.setLane
              ((hlane.withQueue hqueue).append (limits_le kind).2 fun hstored held hheld => ?_)
            rw [show ({ s.lane kind with queue := queue } : QueueLane).queue.issued = _
              from hissued]
            exact hfresh hstored held hheld

theorem step_inv (s : EventQueues) (e : Event) (h : s.Inv) (hfresh : s.FreshStep e) :
    (s.step e).Inv := by
  cases e with
  | enqueue kind line memory largeMemory =>
      cases kind with
      | item => exact enqueueSmall_inv h hfresh
      | scalar => exact enqueueSmall_inv h hfresh
      | large =>
          have hroute : destination .large line = .large := by
            rw [destination]
            split <;> rfl
          rw [FreshStep, hroute] at hfresh
          obtain ⟨slots, hlane⟩ := h .large
          exact h.setLane (hlane.enqueueLarge hfresh)
  | dequeue kind outSize =>
      obtain ⟨slots, hlane⟩ := h kind
      exact h.setLane (hlane.dequeue outSize)
  | reset kind =>
      obtain ⟨slots, hlane⟩ := h kind
      exact h.setLane ⟨[], hlane.reset⟩
  | readHead kind =>
      obtain ⟨slots, hlane⟩ := h kind
      exact h.setLane ⟨slots, hlane.readHead⟩
  | finishWrite kind writeOk =>
      obtain ⟨slots, hlane⟩ := h kind
      apply h.setLane
      rcases hlane.finishWrite writeOk with hkept | ⟨_, rest, -, -, -, hremoved⟩
      · exact ⟨slots, hkept⟩
      · exact ⟨rest, hremoved⟩

/-- What a step of the worker may do to its queue: nothing, or take away the head
after its writer call succeeded on that very event. -/
def WorkerSafe (s : EventQueues) (e : Event) : Prop :=
  ∀ kind, (e = .readHead kind → ((s.step e).lane kind).queued = (s.lane kind).queued) ∧
    ∀ writeOk, e = .finishWrite kind writeOk →
      ((s.step e).lane kind).queued = (s.lane kind).queued ∨
      ∃ held rest, writeOk = true ∧ (s.lane kind).held = some held ∧
        (s.lane kind).queued = held.event :: rest ∧ ((s.step e).lane kind).queued = rest

/-- What a step adds to the ledgers of a lane: to `written` only the event a
successful writer call was made on, to `discarded` only events a dequeue or a reset
took from the queue. -/
def Recorded (s : EventQueues) (e : Event) : Prop :=
  ∀ kind event,
    (event ∈ ((s.step e).lane kind).written → event ∈ (s.lane kind).written ∨
      e = .finishWrite kind true ∧ ∃ held, (s.lane kind).held = some held ∧ held.event = event) ∧
    (event ∈ ((s.step e).lane kind).discarded → event ∈ (s.lane kind).discarded ∨
      event ∈ (s.lane kind).queued ∧ (e = .reset kind ∨ ∃ outSize, e = .dequeue kind outSize))

theorem enqueueSmall_sameLedger (s : EventQueues) (kind : QueueKind) (line : Bytes)
    (memory largeMemory : Bool) (other : QueueKind) :
    SameLedger (s.lane other) ((s.enqueueSmall kind line memory largeMemory).2.lane other) := by
  have hset : ∀ (s' : EventQueues) (k : QueueKind) (lane : QueueLane),
      SameLedger (s.lane other) (s'.lane other) → SameLedger (s.lane k) lane →
      SameLedger (s.lane other) ((s'.setLane k lane).lane other) := by
    intro s' k lane hrest hlane
    by_cases hother : other = k
    · subst hother
      rw [lane_setLane]
      exact hlane
    · rw [lane_setLane_of_ne s' hother]
      exact hrest
  rw [enqueueSmall]
  split
  · exact ⟨rfl, rfl⟩
  · split
    · exact ⟨rfl, rfl⟩
    · next queue _ =>
        have hinit := hset s kind { s.lane kind with queue := queue } ⟨rfl, rfl⟩ ⟨rfl, rfl⟩
        split
        · split
          · exact hset _ .large _ hinit (enqueueLarge_sameLedger s.large line largeMemory)
          · exact hinit
        · exact hset s kind _ ⟨rfl, rfl⟩
            (append_sameLedger { s.lane kind with queue := queue } _ line memory)

/-- Every accepted event is queued, or its write succeeded, or it was thrown away
by a dequeue or a reset while it was queued. -/
def Custody (s : EventQueues) : Prop :=
  ∀ kind, ∀ event ∈ (s.lane kind).accepted, event ∈ (s.lane kind).queued ∨
    event ∈ (s.lane kind).written ∨ event ∈ (s.lane kind).discarded

theorem Inv.custody (h : s.Inv) : s.Custody := by
  intro kind event hevent
  obtain ⟨slots, hlane⟩ := h kind
  rw [hlane.queued]
  exact hlane.custody event hevent

theorem Inv.workerSafe (h : s.Inv) (e : Event) : s.WorkerSafe e := by
  intro kind
  obtain ⟨slots, hlane⟩ := h kind
  refine ⟨?_, ?_⟩
  · rintro rfl
    rw [step, lane_setLane, hlane.readHead.queued, hlane.queued]
  · rintro writeOk rfl
    rw [step, lane_setLane, hlane.queued]
    rcases hlane.finishWrite writeOk with hkept | ⟨held, rest, hok, hheld, rfl, hremoved⟩
    · exact .inl hkept.queued
    · exact .inr ⟨held, _, hok, hheld, rfl, hremoved.queued⟩

theorem recorded_of_setLane {e : Event} {lane : QueueLane} (hstep : s.step e = s.setLane kind lane)
    (hlane : ∀ event,
      (event ∈ lane.written → event ∈ (s.lane kind).written ∨
        e = .finishWrite kind true ∧
          ∃ held, (s.lane kind).held = some held ∧ held.event = event) ∧
      (event ∈ lane.discarded → event ∈ (s.lane kind).discarded ∨
        event ∈ (s.lane kind).queued ∧
          (e = .reset kind ∨ ∃ outSize, e = .dequeue kind outSize))) : s.Recorded e := by
  intro other event
  rw [hstep]
  by_cases hother : other = kind
  · subst hother
    rw [lane_setLane]
    exact hlane event
  · rw [lane_setLane_of_ne s hother]
    exact ⟨.inl, .inl⟩

theorem Inv.recorded (h : s.Inv) (e : Event) : s.Recorded e := by
  cases e with
  | enqueue kind line memory largeMemory =>
      cases kind with
      | large =>
          obtain ⟨hwritten, hdiscarded⟩ := enqueueLarge_sameLedger s.large line memory
          have hstep : s.step (.enqueue .large line memory largeMemory) =
              s.setLane .large (s.large.enqueueLarge line memory).2 := rfl
          refine recorded_of_setLane hstep ?_
          intro event
          rw [show s.lane .large = s.large from rfl]
          rw [hwritten, hdiscarded]
          exact ⟨.inl, .inl⟩
      | item =>
          intro other event
          obtain ⟨hwritten, hdiscarded⟩ :=
            enqueueSmall_sameLedger s .item line memory largeMemory other
          rw [show s.step _ = (s.enqueueSmall .item line memory largeMemory).2 from rfl, hwritten,
            hdiscarded]
          exact ⟨.inl, .inl⟩
      | scalar =>
          intro other event
          obtain ⟨hwritten, hdiscarded⟩ :=
            enqueueSmall_sameLedger s .scalar line memory largeMemory other
          rw [show s.step _ = (s.enqueueSmall .scalar line memory largeMemory).2 from rfl,
            hwritten, hdiscarded]
          exact ⟨.inl, .inl⟩
  | dequeue kind outSize =>
      refine recorded_of_setLane rfl ?_
      intro event
      obtain ⟨slots, hlane⟩ := h kind
      rw [QueueLane.dequeue, hlane.queue.headSlot]
      split
      · exact ⟨.inl, .inl⟩
      · split
        · exact ⟨.inl, .inl⟩
        · next slot hhead =>
            refine ⟨.inl, ?_⟩
            intro hevent
            rcases List.mem_cons.mp hevent with rfl | hold
            · rw [hlane.queued]
              exact .inr ⟨List.mem_map_of_mem (List.mem_of_mem_head? hhead),
                .inr ⟨outSize, rfl⟩⟩
            · exact .inl hold
  | reset kind =>
      refine recorded_of_setLane rfl ?_
      intro event
      refine ⟨.inl, ?_⟩
      intro hevent
      rcases List.mem_append.mp hevent with hqueued | hold
      · exact .inr ⟨hqueued, .inl rfl⟩
      · exact .inl hold
  | readHead kind =>
      refine recorded_of_setLane rfl ?_
      intro event
      rw [QueueLane.readHead]
      split <;> exact ⟨.inl, .inl⟩
  | finishWrite kind writeOk =>
      refine recorded_of_setLane rfl ?_
      intro event
      rw [QueueLane.finishWrite]
      split
      · exact ⟨.inl, .inl⟩
      · next held hheld =>
          split
          · next hok =>
              subst hok
              refine ⟨?_, .inl⟩
              intro hevent
              rcases List.mem_cons.mp hevent with rfl | hold
              · exact .inr ⟨rfl, held, hheld, rfl⟩
              · exact .inl hold
          · exact ⟨.inl, .inl⟩

/-- **The worker removes what it wrote.** In every interleaving of enqueues,
dequeues, resets and worker steps on the three queues in which no event is stored
under the generation its queue's worker is holding: a worker takes an event from
its queue only after its writer call succeeded on that event, and every accepted
event is still queued, or was written, or was taken by a dequeue or a reset while it
was queued. -/
theorem worker_removes_only_written (events : List Event)
    (hfresh : Along step FreshStep {} events) :
    Along step (fun s e => s.WorkerSafe e ∧ s.Recorded e) {} events ∧
      (run step {} events).Custody := by
  have hinv := run_invariant_along step_inv events inv_initial hfresh
  refine ⟨?_, hinv.custody⟩
  exact along_of_invariant step_inv (fun _ e h => ⟨h.workerSafe e, h.recorded e⟩) events
    inv_initial hfresh

/-- A reset in the middle of a write restarts the numbering: the next event carries
the generation the worker holds, and is removed although it was never written. -/
theorem reset_during_write_loses_event :
    ¬ ∀ events : List Event, Along step WorkerSafe {} events ∧ (run step {} events).Custody := by
  intro hall
  have hlost := (hall [.enqueue .item [65] true true, .readHead .item, .reset .item,
    .enqueue .item [66] true true, .finishWrite .item true]).2 .item ⟨1, [66]⟩
  revert hlost
  decide

/-- An event enqueued while the worker writes another. -/
theorem worker_removes_only_written_behind :
    (run step {} [.enqueue .item [65] true true, .readHead .item, .enqueue .item [66] true true,
      .finishWrite .item true]).Custody := by
  apply And.right
  apply worker_removes_only_written
  exact ⟨fun _ => show QueueLane.Fresh _ by decide, trivial,
    fun _ => show QueueLane.Fresh _ by decide, trivial, trivial⟩

end EventQueues

end Duris.Persistence
