import Duris.Lib.SequencedRing

/-!
# The record queue of the telemetry transport

`src/telemetry/telemetry_queue.c`, with the keys, kinds and headers of
`src/telemetry/telemetry_types.h`.

The slots are a buffer with running sequence numbers; `producer_head` and
`consumer_tail` are its two ends. The retained counts are kept beside it, as the source
keeps them: a slot is reserved before it is published. What a record carries behind its
header is a parameter, and so are its checks.
-/

namespace Duris.Telemetry

def uint64Max : Nat := 0xffffffffffffffff

def telemetryQueueCapacityProposal : Nat := 8192

/-- `other` stands for every value without a name. -/
inductive RecordKind where
  | invalid
  | interval
  | sessionLifecycle
  | sessionCheckpoint
  | coverageGap
  | configuration
  | progression
  | encounter
  | combatSummary
  | other
  deriving DecidableEq

def RecordKind.isValid : RecordKind → Bool
  | .interval | .sessionLifecycle | .sessionCheckpoint | .coverageGap | .configuration
  | .progression | .encounter | .combatSummary => true
  | .invalid | .other => false

def RecordKind.isControl : RecordKind → Bool
  | .sessionLifecycle | .sessionCheckpoint | .coverageGap | .configuration | .encounter
  | .combatSummary => true
  | .interval | .progression | .invalid | .other => false

structure ProducerId where
  bootId : Nat := 0
  processId : Nat := 0
  deriving DecidableEq

def ProducerId.isZero (id : ProducerId) : Bool := id.bootId = 0 ∧ id.processId = 0

def ProducerId.isValid (id : ProducerId) : Bool := id.bootId ≠ 0 ∧ id.processId ≠ 0

structure RecordKey where
  producer : ProducerId := {}
  recordSeq : Nat := 0
  deriving DecidableEq

def RecordKey.isValid (key : RecordKey) : Bool := key.producer.isValid ∧ key.recordSeq ≠ 0

structure RecordHeader where
  schemaVersion : Nat
  kind : RecordKind
  reserved : Nat
  key : RecordKey
  occurrenceUtcUsec : Nat
  deriving DecidableEq

def telemetrySchemaVersion : Nat := 1

def RecordHeader.isValid (header : RecordHeader) : Bool :=
  header.schemaVersion = telemetrySchemaVersion ∧ header.reserved = 0 ∧ header.kind.isValid ∧
    header.key.isValid

structure Record (Payload : Type) where
  header : RecordHeader
  payload : Payload
  deriving DecidableEq

/-- What depends on the layout of a record: its size and the checks of the union member
that its kind selects. -/
structure RecordFormat (Payload : Type) where
  recordBytes : Nat
  payloadIsValid : RecordKind → Payload → Bool

variable {Payload : Type}

def Record.isValid (format : RecordFormat Payload) (record : Record Payload) : Bool :=
  record.header.isValid ∧ format.payloadIsValid record.header.kind record.payload

def Record.isControl (record : Record Payload) : Bool := record.header.kind.isControl

structure QueueSlot (Payload : Type) where
  record : Record Payload
  admittedAtMonotonicUsec : Nat
  admittedAtValid : Bool

structure Queue (Payload : Type) where
  slots : SequencedRing (QueueSlot Payload) := {}
  retainedCount : Nat := 0
  retainedControlCount : Nat := 0
  controlReserve : Nat := 0

namespace Queue

def producerHead (q : Queue Payload) : Nat := q.slots.head

def consumerTail (q : Queue Payload) : Nat := q.slots.tail

def capacity (q : Queue Payload) : Nat := q.slots.capacity

/-- `initialize`: the cells keep what they held. -/
def initialized (q : Queue Payload) (capacity controlReserve : Nat) : Queue Payload :=
  { slots := { q.slots with head := 0, tail := 0, capacity }
    retainedCount := 0, retainedControlCount := 0, controlReserve }

def reset (q : Queue Payload) : Queue Payload :=
  { q with
    slots := { q.slots with head := 0, tail := 0 }
    retainedCount := 0, retainedControlCount := 0 }

def physicalDepth (q : Queue Payload) : Nat :=
  if q.capacity = 0 then 0
  else if q.producerHead < q.consumerTail ∨
      q.producerHead - q.consumerTail > q.capacity then 0
  else q.producerHead - q.consumerTail

/-- The record is written at the head if there is room for its kind. -/
def tryPush (q : Queue Payload) (record : Record Payload) (admittedAtMonotonicUsec : Nat)
    (admittedAtValid control : Bool) : Option (Queue Payload) :=
  if q.capacity = 0 ∨ telemetryQueueCapacityProposal < q.capacity ∨
      q.capacity ≤ q.controlReserve then none
  else if (if control then q.capacity else q.capacity - q.controlReserve) ≤ q.retainedCount ∨
      q.capacity ≤ q.retainedCount then none
  else if q.producerHead < q.consumerTail ∨ q.capacity ≤ q.producerHead - q.consumerTail ∨
      q.producerHead = uint64Max then none
  else some
    { q with
      slots := q.slots.push { record, admittedAtMonotonicUsec, admittedAtValid }
      retainedCount := q.retainedCount + 1
      retainedControlCount := q.retainedControlCount + control.toNat }

def peek (q : Queue Payload) (offset : Nat) : Option (QueueSlot Payload) :=
  if q.capacity = 0 then none else q.slots.peek offset

def commit (q : Queue Payload) (count controlCount : Nat) : Option (Queue Payload) :=
  if q.capacity = 0 ∨ count = 0 ∨ controlCount > count then none
  else if q.producerHead < q.consumerTail ∨ count > q.producerHead - q.consumerTail ∨
      count > q.retainedCount ∨ controlCount > q.retainedControlCount then none
  else some
    { q with
      slots := q.slots.drop count
      retainedCount := q.retainedCount - count
      retainedControlCount := q.retainedControlCount - controlCount }

def depth (q : Queue Payload) : Nat := q.retainedCount

def controlDepth (q : Queue Payload) : Nat := q.retainedControlCount

/-- The records between the two ends, oldest first. -/
def records (q : Queue Payload) : List (Record Payload) := q.slots.contents.map (·.record)

end Queue

end Duris.Telemetry
