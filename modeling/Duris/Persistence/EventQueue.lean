import Duris.Lib.LittleEndian
import Duris.Lib.Ring

/-!
# The persistence event queues

`src/persistence/persistence_queue.{h,c}`: three bounded queues of log lines (item,
scalar, large), each with one worker thread that copies the head, writes it with
the queue unlocked, and removes the head afterwards if it still carries the
generation it copied. A line too long for the item or scalar queue is routed to
the large one.

Every section that holds a queue's mutex is one step. What the environment decides
is in the event: whether an allocation succeeds, and how a write ends. The worker
has a writer, as every caller of `worker_start` gives it one.

An accepted line is told apart from an equal one by a ticket, the number of the
accepting call. The code does not store it, and nothing here decides on it; it is
there to say which event was removed. So are the lists of what was accepted, of what
was written and of what was thrown away on request.
-/

namespace Duris.Persistence

/-- An accepted line, with the number of the call that accepted it. -/
structure QueuedEvent where
  ticket : Nat
  line : Bytes
  deriving DecidableEq

/-- One slot of `events` and `generations`. -/
structure QueueSlot where
  event : QueuedEvent
  generation : BitVec 64
  deriving DecidableEq

/-- The constants of one queue. -/
structure QueueLimits where
  capacity : Nat
  maxCapacity : Nat
  maxLen : Nat

inductive QueueKind where
  | item | scalar | large
  deriving DecidableEq

def QueueKind.limits : QueueKind → QueueLimits
  | .item | .scalar => ⟨4096, 131072, 1024⟩
  | .large => ⟨64, 2048, 131072⟩

/-- `persistence_event_queue_data`; `allocated` is `events` not being null. -/
structure EventQueue where
  ring : Ring QueueSlot := {}
  allocated : Bool := false
  nextGeneration : BitVec 64 := 0
  slotSize : Nat := 0
  dropped : Nat := 0
  resizeCount : Nat := 0

namespace EventQueue

def alloc (q : EventQueue) (capacity slotSize : Nat) : EventQueue :=
  { q with
    ring := { q.ring with cells := fun _ => none, capacity := capacity }
    allocated := true
    nextGeneration := 1
    slotSize := slotSize }

def free (_ : EventQueue) : EventQueue := { nextGeneration := 1 }

/-- `persistence_queue_auto_grow`; `memory` is whether the new storage is granted. -/
def autoGrow (q : EventQueue) (maxCapacity : Nat) (memory : Bool) : Option EventQueue :=
  let newCapacity := min (q.ring.capacity * 2) maxCapacity
  if newCapacity ≤ q.ring.capacity ∨ !memory then none
  else some { q with ring := q.ring.grow newCapacity, resizeCount := q.resizeCount + 1 }

/-- The generation `persistence_queue_next_generation` hands out: zero is skipped. -/
def issued (q : EventQueue) : BitVec 64 := if q.nextGeneration = 0 then 1 else q.nextGeneration

def store (q : EventQueue) (event : QueuedEvent) : EventQueue :=
  { q with
    ring := q.ring.push ⟨event, q.issued⟩
    nextGeneration := q.issued + 1 }

def popHead (q : EventQueue) : EventQueue := { q with ring := q.ring.pop }

def lazyInit (q : EventQueue) (limits : QueueLimits) (memory : Bool) : Option EventQueue :=
  if q.allocated then some q
  else if memory then some (q.alloc limits.capacity limits.maxLen)
  else none

def lineTooLong (q : EventQueue) (line : Bytes) : Bool := decide (q.slotSize ≤ line.length)

def drop (q : EventQueue) : EventQueue := { q with dropped := q.dropped + 1 }

/-- The end of an enqueue, once the line fits: make room and store. -/
def append (q : EventQueue) (limits : QueueLimits) (event : QueuedEvent) (memory : Bool) :
    Bool × EventQueue :=
  if q.ring.count < q.ring.capacity then (true, q.store event)
  else
    match q.autoGrow limits.maxCapacity memory with
    | none => (false, q.drop)
    | some q =>
        if q.ring.count < q.ring.capacity then (true, q.store event) else (false, q.drop)

/-- The end of the scalar enqueue, which goes on behind a growth that failed. -/
def appendScalar (q : EventQueue) (event : QueuedEvent) (memory : Bool) : Bool × EventQueue :=
  let (ok, q) :=
    if q.ring.count < q.ring.capacity then (true, q)
    else
      match q.autoGrow QueueKind.scalar.limits.maxCapacity memory with
      | none => (false, q.drop)
      | some q => (true, q)
  if q.ring.count < q.ring.capacity then (ok, q.store event) else (false, q.drop)

def appendTo (q : EventQueue) : QueueKind → QueuedEvent → Bool → Bool × EventQueue
  | .scalar => q.appendScalar
  | kind => q.append kind.limits

def headSlot (q : EventQueue) : Option QueueSlot := if q.ring.count = 0 then none else q.ring.cell 0

end EventQueue

/-- A queue with its worker. `held` is what the worker copied and is writing. -/
structure QueueLane where
  queue : EventQueue := {}
  held : Option QueueSlot := none
  accepted : List QueuedEvent := []
  written : List QueuedEvent := []
  discarded : List QueuedEvent := []

namespace QueueLane

def queued (lane : QueueLane) : List QueuedEvent :=
  (List.range lane.queue.ring.count).filterMap fun i =>
    (lane.queue.ring.cell i).map QueueSlot.event

/-- An enqueue on a queue that is initialised, of a line that fits. -/
def append (lane : QueueLane) (kind : QueueKind) (line : Bytes) (memory : Bool) :
    Bool × QueueLane :=
  let event : QueuedEvent := ⟨lane.accepted.length, line⟩
  match lane.queue.appendTo kind event memory with
  | (true, queue) => (true, { lane with queue := queue, accepted := event :: lane.accepted })
  | (false, queue) => (false, { lane with queue := queue })

def enqueueLarge (lane : QueueLane) (line : Bytes) (memory : Bool) : Bool × QueueLane :=
  if line = [] then (false, lane)
  else
    match lane.queue.lazyInit QueueKind.large.limits memory with
    | none => (false, lane)
    | some queue =>
        if queue.lineTooLong line then (false, { lane with queue := queue })
        else QueueLane.append { lane with queue := queue } .large line memory

/-- The dequeue of a caller with room for `outSize` bytes: the line as it fits. -/
def dequeue (lane : QueueLane) (outSize : Nat) : Option Bytes × QueueLane :=
  if outSize = 0 then (none, lane)
  else
    match lane.queue.headSlot with
    | none => (none, lane)
    | some slot =>
        (some (slot.event.line.take (outSize - 1)),
          { lane with queue := lane.queue.popHead, discarded := slot.event :: lane.discarded })

def reset (lane : QueueLane) : QueueLane :=
  { lane with queue := lane.queue.free, discarded := lane.queued ++ lane.discarded }

/-- The first section of the worker's loop: copy the head. A worker that is
writing is not there. -/
def readHead (lane : QueueLane) : QueueLane :=
  match lane.held with
  | some _ => lane
  | none => { lane with held := lane.queue.headSlot }

/-- What the worker would remove if it finished now with a successful write: the
head, if it carries the generation the worker holds. -/
def removable (lane : QueueLane) : Option QueueSlot :=
  match lane.held, lane.queue.headSlot with
  | some held, some slot => if slot.generation = held.generation then some slot else none
  | _, _ => none

def finishWrite (lane : QueueLane) (writeOk : Bool) : QueueLane :=
  match lane.held with
  | none => lane
  | some held =>
      if writeOk then
        { lane with
          held := none
          queue := match lane.removable with
            | some _ => lane.queue.popHead
            | none => lane.queue
          written := held.event :: lane.written }
      else { lane with held := none }

end QueueLane

structure EventQueues where
  item : QueueLane := {}
  scalar : QueueLane := {}
  large : QueueLane := {}

namespace EventQueues

def lane (s : EventQueues) : QueueKind → QueueLane
  | .item => s.item
  | .scalar => s.scalar
  | .large => s.large

def setLane (s : EventQueues) (kind : QueueKind) (lane : QueueLane) : EventQueues :=
  match kind with
  | .item => { s with item := lane }
  | .scalar => { s with scalar := lane }
  | .large => { s with large := lane }

/-- `persistence_item_event_queue_enqueue` and its scalar twin: a line that does
not fit the small slots goes to the large queue while this one is locked. -/
def enqueueSmall (s : EventQueues) (kind : QueueKind) (line : Bytes) (memory largeMemory : Bool) :
    Bool × EventQueues :=
  if line = [] then (false, s)
  else
    match (s.lane kind).queue.lazyInit kind.limits memory with
    | none => (false, s)
    | some queue =>
        let lane := { s.lane kind with queue := queue }
        if queue.lineTooLong line then
          if line.length < QueueKind.large.limits.maxLen then
            let (ok, large) := s.large.enqueueLarge line largeMemory
            (ok, (s.setLane kind lane).setLane .large large)
          else (false, s.setLane kind lane)
        else
          let (ok, lane) := lane.append kind line memory
          (ok, s.setLane kind lane)

def enqueue (s : EventQueues) (kind : QueueKind) (line : Bytes) (memory largeMemory : Bool) :
    Bool × EventQueues :=
  match kind with
  | .large =>
      let (ok, large) := s.large.enqueueLarge line memory
      (ok, s.setLane .large large)
  | .item => s.enqueueSmall .item line memory largeMemory
  | .scalar => s.enqueueSmall .scalar line memory largeMemory

/-- Who moves, and what its environment decides. -/
inductive Event where
  | enqueue (kind : QueueKind) (line : Bytes) (memory largeMemory : Bool)
  | dequeue (kind : QueueKind) (outSize : Nat)
  | reset (kind : QueueKind)
  | readHead (kind : QueueKind)
  | finishWrite (kind : QueueKind) (writeOk : Bool)
  deriving DecidableEq

def step (s : EventQueues) : Event → EventQueues
  | .enqueue kind line memory largeMemory => (s.enqueue kind line memory largeMemory).2
  | .dequeue kind outSize => s.setLane kind ((s.lane kind).dequeue outSize).2
  | .reset kind => s.setLane kind (s.lane kind).reset
  | .readHead kind => s.setLane kind (s.lane kind).readHead
  | .finishWrite kind writeOk => s.setLane kind ((s.lane kind).finishWrite writeOk)

/-- What a caller or a worker does to one of the queues when every allocation is granted:
`popHead` is the removal a worker makes, `grow` the growth an enqueue asks for. -/
inductive QueueOp where
  | enqueue (kind : QueueKind) (line : Bytes)
  | dequeue (kind : QueueKind) (outSize : Nat)
  | popHead (kind : QueueKind)
  | grow (kind : QueueKind)
  | clearDropped (kind : QueueKind)
  | reset (kind : QueueKind)

def withQueue (s : EventQueues) (kind : QueueKind) (queue : EventQueue) : EventQueues :=
  s.setLane kind { s.lane kind with queue }

def apply (s : EventQueues) : QueueOp → EventQueues
  | .enqueue kind line => (s.enqueue kind line true true).2
  | .dequeue kind outSize => s.setLane kind ((s.lane kind).dequeue outSize).2
  | .popHead kind => s.withQueue kind (s.lane kind).queue.popHead
  | .grow kind =>
      s.withQueue kind (((s.lane kind).queue.autoGrow kind.limits.maxCapacity true).getD
        (s.lane kind).queue)
  | .clearDropped kind => s.withQueue kind { (s.lane kind).queue with dropped := 0 }
  | .reset kind => s.setLane kind (s.lane kind).reset

end EventQueues

end Duris.Persistence
