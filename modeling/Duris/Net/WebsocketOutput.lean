import Duris.Lib.LittleEndian
import Duris.Lib.Run
import Duris.Lib.Turns

/-!
# WebSocket output

The output half of `src/net/websocket.c`: a frame is built (`websocket_send_frame`), put on
one of the two queues of its descriptor (`websocket_queue_output`), and both queues are
written to the socket as far as it takes them (`websocket_flush_output`), control output
first.

A queue's buffer is the list of the `queued_len` bytes it holds. What `send`, `deflate`
and the allocator answer is an argument, `send` as often as it is asked; when the list of
its answers ends it answers `EAGAIN`. The byte counters are left out.

`wire` and `accepted` are not in the source: the bytes the socket took, each with the queue
it came from, and the frames each queue was given.
-/

namespace Duris.Net

def wsMaxOutputBytes : Nat := 4 * 1024 * 1024
def wsControlOutputReserve : Nat := 4096
def wsMaxFlushBytes : Nat := 65536
def wsLen7bitMax : Nat := 125
def wsLen16bitMax : Nat := 65535
def wsCompressThreshold : Nat := 64
def sizeMax : Nat := 2 ^ 64 - 1

def wsOpcodeContinuation : Nat := 0
def wsOpcodeText : Nat := 1
def wsOpcodeBinary : Nat := 2
def wsOpcodeClose : Nat := 8
def wsOpcodePing : Nat := 9
def wsOpcodePong : Nat := 10

inductive OutputKind where
  | data
  | control
  deriving DecidableEq

structure OutputQueue where
  buffer : Bytes := []
  offset : Nat := 0

/-- What the output functions read and write of a `descriptor_data`. -/
structure Descriptor where
  socket : Bool := true
  writeFailed : Bool := false
  compress : Bool := false
  deflateStream : Bool := false
  output : OutputQueue := {}
  controlOutput : OutputQueue := {}
  wire : List (OutputKind × UInt8) := []
  accepted : OutputKind → List Bytes := fun _ => []

/-- 0, -1 and `WS_OUTPUT_QUEUE_FULL`. -/
inductive OutputResult where
  | done
  | error
  | queueFull
  deriving DecidableEq

namespace Descriptor

def queue (d : Descriptor) : OutputKind → OutputQueue
  | .data => d.output
  | .control => d.controlOutput

def setQueue (d : Descriptor) (kind : OutputKind) (queue : OutputQueue) : Descriptor :=
  match kind with
  | .data => { d with output := queue }
  | .control => { d with controlOutput := queue }

end Descriptor

def outputLimit : OutputKind → Nat
  | .data => wsMaxOutputBytes - wsControlOutputReserve
  | .control => wsControlOutputReserve

/-- What is already sent is taken off the front. -/
def OutputQueue.compacted (queue : OutputQueue) : OutputQueue :=
  { buffer := queue.buffer.drop queue.offset }

def Descriptor.enqueue (d : Descriptor) (kind : OutputKind) (frame : Bytes) : Descriptor :=
  { d.setQueue kind { buffer := (d.queue kind).compacted.buffer ++ frame } with
    accepted := Function.update d.accepted kind (d.accepted kind ++ [frame]) }

def websocketQueueOutput (d : Descriptor) (kind : OutputKind) (data : Bytes)
    (allocated : Bool) : OutputResult × Descriptor :=
  let queue := d.queue kind
  if outputLimit kind < queue.buffer.length ∨
      outputLimit kind - queue.buffer.length < data.length then (.queueFull, d)
  else if queue.buffer.length < queue.offset then (.error, d)
  else if allocated then (.done, d.enqueue kind data)
  else (.error, d.setQueue kind queue.compacted)

/-- One answer of `send`. -/
inductive SendResult where
  | sent (bytes : Nat)
  | interrupted
  | again
  | failed
  deriving DecidableEq

/-- 1, 0 and -1. -/
inductive FlushResult where
  | drained
  | later
  | failed

/-- The loop of `websocket_flush_queue`: how it ends, the new offset, and the answers left
for the other queue. -/
def websocketFlushQueue (buffer : Bytes) :
    List SendResult → Nat → Nat → FlushResult × Nat × List SendResult
  | [], offset, _ => if offset < buffer.length then (.later, offset, []) else (.drained, offset, [])
  | answer :: answers, offset, flushed =>
      if offset < buffer.length then
        if wsMaxFlushBytes - flushed = 0 then (.later, offset, answer :: answers)
        else
          match answer with
          | .sent bytes =>
              let taken := min bytes (min (buffer.length - offset) (wsMaxFlushBytes - flushed))
              if 0 < taken then
                websocketFlushQueue buffer answers (offset + taken) (flushed + taken)
              else (.failed, offset, answers)
          | .interrupted => websocketFlushQueue buffer answers offset flushed
          | .again => (.later, offset, answers)
          | .failed => (.failed, offset, answers)
      else (.drained, offset, answer :: answers)

/-- The socket took the bytes of a queue up to an offset. -/
def Descriptor.took (d : Descriptor) (kind : OutputKind) (offset : Nat) : Descriptor :=
  let queue := d.queue kind
  { d.setQueue kind { queue with offset } with
    wire := d.wire ++
      ((queue.buffer.drop queue.offset).take (offset - queue.offset)).map (kind, ·) }

/-- The buffer of a queue that is drained is freed. -/
def Descriptor.release (d : Descriptor) (kind : OutputKind) : Descriptor :=
  if 0 < (d.queue kind).buffer.length then d.setQueue kind {} else d

/-- One of the two halves of `websocket_flush_output`: what it returns at once, or the
answers left. -/
def flushKind (d : Descriptor) (kind : OutputKind) (answers : List SendResult) :
    Except OutputResult (List SendResult) × Descriptor :=
  let queue := d.queue kind
  match websocketFlushQueue queue.buffer answers queue.offset 0 with
  | (.drained, offset, answers) => (.ok answers, (d.took kind offset).release kind)
  | (.later, offset, _) => (.error .done, d.took kind offset)
  | (.failed, offset, _) => (.error .error, { d.took kind offset with writeFailed := true })

def websocketFlushOutput (d : Descriptor) (answers : List SendResult) :
    OutputResult × Descriptor :=
  if d.socket then
    match flushKind d .control answers with
    | (.error result, d) => (result, d)
    | (.ok answers, d) =>
        match flushKind d .data answers with
        | (.error result, d) => (result, d)
        | (.ok _, d) => (.done, d)
  else (.error, d)

/-- What `deflate` makes of a payload, unless there is no memory for it, and whether the
stream could be reset behind it. -/
inductive DeflateAnswer where
  | noMemory
  | ran (output : Option Bytes) (reset : Bool)

/-- The empty block `deflate` ends in is stripped. -/
def stripBlock (output : Bytes) : Bytes :=
  if output.drop (output.length - 4) = [0x00, 0x00, 0xff, 0xff] then
    output.take (output.length - 4)
  else output

/-- Only text and binary frames are compressed, and only long ones. -/
def compresses (d : Descriptor) (opcode : Nat) (data : Bytes) : Bool :=
  d.compress && d.deflateStream && (opcode == wsOpcodeText || opcode == wsOpcodeBinary) &&
    decide (wsCompressThreshold ≤ data.length)

/-- The payload that goes into the frame, and `rsv1`. -/
def compressPayload (d : Descriptor) (opcode : Nat) (data : Bytes) (answer : DeflateAnswer) :
    Descriptor × Bytes × Bool :=
  if compresses d opcode data then
    match answer with
    | .noMemory => (d, data, false)
    | .ran output reset =>
        ({ d with deflateStream := reset },
          match output with
          | none => (data, false)
          | some output =>
              if reset = true ∧ (stripBlock output).length < data.length then
                (stripBlock output, true)
              else (data, false))
  else (d, data, false)

def frameHeader (opcode : Nat) (rsv1 : Bool) (length : Nat) : Bytes :=
  UInt8.ofNat (0x80 ||| (if rsv1 then 0x40 else 0) ||| (opcode &&& 0x0f)) ::
    if length ≤ wsLen7bitMax then [UInt8.ofNat length]
    else if length ≤ wsLen16bitMax then 126 :: beBytes 2 length
    else 127 :: beBytes 8 length

def frameBytes (opcode : Nat) (rsv1 : Bool) (payload : Bytes) : Bytes :=
  frameHeader opcode rsv1 payload.length ++ payload

def frameKind (opcode : Nat) : OutputKind :=
  if wsOpcodeClose ≤ opcode then .control else .data

/-- What `websocket_send_frame` is answered by what it calls; `valid` is
`is_desc_valid`. -/
structure SendAnswers where
  deflated : DeflateAnswer := .noMemory
  frameAllocated : Bool := true
  valid : Bool := true
  queueAllocated : Bool := true
  sends : List SendResult := []

/-- `websocket_send_frame` up to the call of `websocket_queue_output`: the frame, or what it
returns at once. -/
def buildFrame (d : Descriptor) (opcode : Nat) (data : Bytes) (answers : SendAnswers) :
    Except OutputResult Bytes × Descriptor :=
  if d.socket = false ∨ (wsOpcodeClose ≤ opcode ∧ wsLen7bitMax < data.length) ∨
      d.writeFailed = true then (.error .error, d)
  else if compresses d opcode data ∧ sizeMax - 64 < data.length then (.error .queueFull, d)
  else
    match compressPayload d opcode data answers.deflated with
    | (d, payload, rsv1) =>
        let frame := frameBytes opcode rsv1 payload
        if (wsLen16bitMax < payload.length ∧
              (sizeMax - 10 < payload.length ∨ 0x7fffffffffffffff < payload.length)) ∨
            wsMaxOutputBytes < frame.length ∨ outputLimit (frameKind opcode) < frame.length then
          (.error .queueFull, d)
        else if answers.frameAllocated = false ∨ answers.valid = false then (.error .error, d)
        else (.ok frame, d)

/-- A result other than success and a full queue marks the descriptor. -/
def failing : OutputResult × Descriptor → OutputResult × Descriptor
  | (.error, d) => (.error, { d with writeFailed := true })
  | (result, d) => (result, d)

def websocketSendFrame (d : Descriptor) (opcode : Nat) (data : Bytes) (answers : SendAnswers) :
    OutputResult × Descriptor :=
  match buildFrame d opcode data answers with
  | (.error result, d) => (result, d)
  | (.ok frame, d) =>
      failing <|
        match websocketQueueOutput d (frameKind opcode) frame answers.queueAllocated with
        | (.done, d) => websocketFlushOutput d answers.sends
        | (result, d) => (result, d)

inductive OutputEvent where
  | sendFrame (opcode : Nat) (data : Bytes) (answers : SendAnswers)
  | flushOutput (answers : List SendResult)

def outputStep (d : Descriptor) : OutputEvent → Descriptor
  | .sendFrame opcode data answers => (websocketSendFrame d opcode data answers).2
  | .flushOutput answers => (websocketFlushOutput d answers).2

end Duris.Net
