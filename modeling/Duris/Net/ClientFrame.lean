import Duris.Net.WebsocketInput

/-!
# What a client may send

The frames of a WebSocket client as the protocol has them, independent of how the server
takes them apart: masked frames on the wire, which sequences of them are allowed within
the server's limits on a frame and on a message, and the messages they stand for.
-/

namespace Duris.Net

structure ClientFrame where
  fin : Bool
  opcode : Nat
  key : Vector UInt8 4
  payload : Bytes

namespace ClientFrame

def isControl (frame : ClientFrame) : Bool := decide (wsOpcodeClose ≤ frame.opcode)

def firstByte (frame : ClientFrame) : UInt8 :=
  (if frame.fin then 0x80 else 0) ||| UInt8.ofNat frame.opcode

def lengthBytes (length : Nat) : Bytes :=
  if length ≤ 125 then [0x80 ||| UInt8.ofNat length]
  else if length ≤ 65535 then (0x80 ||| 126) :: beBytes 2 length
  else (0x80 ||| 127) :: beBytes 8 length

def encode (frame : ClientFrame) : Bytes :=
  frame.firstByte :: (lengthBytes frame.payload.length ++ frame.key.toList ++
    unmask frame.key.toList frame.payload)

/-- The status codes an endpoint may send: those the protocol defines, and those of
libraries and applications. -/
def closeCodes (code : Nat) : Prop :=
  (1000 ≤ code ∧ code ≤ 1003) ∨ (1007 ≤ code ∧ code ≤ 1011) ∨ (3000 ≤ code ∧ code ≤ 4999)

def CloseBody (payload : Bytes) : Prop :=
  payload = [] ∨ ∃ (code : Nat) (text : List Char), closeCodes code ∧
    payload = beBytes 2 code ++ text.flatMap String.utf8EncodeChar

structure WellFormed (frame : ClientFrame) : Prop where
  opcode : frame.opcode ∈ knownOpcodes
  length : frame.payload.length ≤ wsMaxFrameSize
  control : frame.isControl = true → frame.fin = true ∧ frame.payload.length ≤ 125
  close : frame.opcode = wsOpcodeClose → CloseBody frame.payload

end ClientFrame

def encodeAll (frames : List ClientFrame) : Bytes := frames.flatMap ClientFrame.encode

/-- A message of which some fragments have come. `startsEmpty` says that the first one was
empty. -/
structure Unfinished where
  opcode : Nat
  bytes : Bytes
  startsEmpty : Bool

structure Assembly where
  unfinished : Option Unfinished := none
  messages : List (Nat × Bytes) := []
  closed : Bool := false

namespace Assembly

/-- A fragment ends the message or leaves it unfinished. -/
def add (a : Assembly) (message : Unfinished) (fin : Bool) : Assembly :=
  if fin then
    { a with unfinished := none, messages := a.messages ++ [(message.opcode, message.bytes)] }
  else { a with unfinished := some message }

def step (a : Assembly) (frame : ClientFrame) : Assembly :=
  if frame.isControl then
    if frame.opcode = wsOpcodeClose then { a with closed := true } else a
  else if frame.opcode = wsOpcodeContinuation then
    match a.unfinished with
    | none => a
    | some message => a.add { message with bytes := message.bytes ++ frame.payload } frame.fin
  else a.add ⟨frame.opcode, frame.payload, frame.payload.isEmpty⟩ frame.fin

/-- A frame the client may send next: control frames at any time but after a close, a
continuation when a message is unfinished and the message stays within the limit, and a
new message when there is none. -/
structure Allowed (a : Assembly) (frame : ClientFrame) : Prop where
  wellFormed : frame.WellFormed
  notClosed : a.closed = false
  continues : frame.opcode = wsOpcodeContinuation → ∃ message, a.unfinished = some message ∧
    message.bytes.length + frame.payload.length ≤ wsMaxMessageSize
  starts : frame.isControl = false → frame.opcode ≠ wsOpcodeContinuation → a.unfinished = none

def continuesEmpty (a : Assembly) (frame : ClientFrame) : Bool :=
  frame.opcode == wsOpcodeContinuation && a.unfinished.any Unfinished.startsEmpty

end Assembly

def messagesOf (frames : List ClientFrame) : List (Nat × Bytes) :=
  (run Assembly.step {} frames).messages

end Duris.Net
