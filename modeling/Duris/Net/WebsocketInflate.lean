import Duris.Net.ClientFrame

/-!
# Compressed WebSocket input

The input half of `src/net/websocket.c` on a connection that may have negotiated
compression: `websocket_parse_frame` with its call of `inflate`, and the body of the loop of
`websocket_process_input` on a frame that has arrived in full.

zlib is a parameter: a stream with a state, to which each call of `inflate` gives some input
and room for output. The first byte of a frame is checked for `rsv1`, and the rest of the
header as on a connection without compression.

`fed` and `pongs` are not in the source: the opcode and payload of the frame behind each
call of `inflate`, and the payloads `websocket_send_pong` was called with.
-/

namespace Duris.Net

/-- What a call of `inflate` answers: whether it returned `Z_OK` or `Z_BUF_ERROR`, what it
wrote, how many bytes of its input it left, and the stream behind it. -/
structure Inflated (σ : Type) where
  accepted : Bool
  output : Bytes
  availIn : Nat
  stream : σ

/-- `inflate` with `Z_SYNC_FLUSH`, given its input and the room for output, and
`inflateReset`. -/
structure Inflater (σ : Type) where
  inflate : σ → Bytes → Nat → Inflated σ
  inflateReset : σ → σ

/-- What the input functions read and write of a `descriptor_data`; `ws_compress` is the
output half's. -/
structure InflateInput (σ : Type) where
  input : InputState
  inflateStream : Option σ
  compressedMessage : Bool := false
  fed : List (Nat × Bytes) := []
  pongs : List Bytes := []

variable {σ : Type}

def InflateInput.fail (s : InflateInput σ) (code : Option Nat) : InflateInput σ :=
  { s with input := s.input.fail code }

/-- The empty stored block at the end of a message. -/
def inflateTrailer : Bytes := [0x00, 0x00, 0xff, 0xff]

/-- The block of `websocket_parse_frame` that inflates a payload; an error gives the close
code it sets. -/
def inflatePayload (zlib : Inflater σ) (s : InflateInput σ) (rsv1 : Bool) (opcode : Nat)
    (fin : Bool) (payload : Bytes) : Except (InflateInput σ × Nat) (InflateInput σ × Bytes) :=
  match s.inflateStream with
  | none => .error (s, wsCloseProtocolError)
  | some stream =>
      if (rsv1 = true ∧ opcode ≠ wsOpcodeText ∧ opcode ≠ wsOpcodeBinary) ∨
          (rsv1 = false ∧ s.compressedMessage = false) then .error (s, wsCloseProtocolError)
      else
        let compressedMessage := if rsv1 then true else s.compressedMessage
        let messageLen := (s.input.message.getD []).length
        if wsMaxMessageSize ≤ messageLen then
          .error ({ s with compressedMessage }, wsCloseMessageTooBig)
        else
          let outSize := wsMaxMessageSize - messageLen
          let answer := zlib.inflate stream (payload ++ if fin then inflateTrailer else []) outSize
          let fed := s.fed ++ [(opcode, payload)]
          if answer.accepted = true ∧ answer.output.length < outSize ∧ answer.availIn = 0 then
            if fin then
              .ok ({ s with
                inflateStream := some (zlib.inflateReset answer.stream), compressedMessage := false,
                fed }, answer.output)
            else
              .ok ({ s with inflateStream := some answer.stream, compressedMessage, fed },
                answer.output)
          else
            .error ({ s with
              inflateStream := some (zlib.inflateReset answer.stream), compressedMessage := false,
              fed }, wsCloseProtocolError)

/-- The payload of a frame: inflated if it is not empty and `rsv1` or the message says so. -/
def inflateFrame (zlib : Inflater σ) (s : InflateInput σ) (rsv1 : Bool) (opcode : Nat)
    (fin : Bool) (payload : Option Bytes) :
    Except (InflateInput σ × Nat) (InflateInput σ × Option Bytes) :=
  match payload with
  | none => .ok (s, none)
  | some payload =>
      if rsv1 = true ∨ s.compressedMessage = true then
        match inflatePayload zlib s rsv1 opcode fin payload with
        | .error fault => .error fault
        | .ok (s, payload) => .ok (s, some payload)
      else .ok (s, some payload)

/-- The end of `websocket_parse_frame`. What has come of a close frame's payload by then
counts as a code and a reason if it has two bytes. -/
def InflateInput.handleControl (s : InflateInput σ) (opcode : Nat) (payload : Option Bytes)
    (answers : SendAnswers) : InflateInput σ :=
  { s with
    input := Net.handleControl s.input opcode
      (if opcode = wsOpcodeClose then payload.filter (2 ≤ ·.length) else payload) answers
    pongs := if opcode = wsOpcodePing then s.pongs ++ [payload.getD []] else s.pongs }

def rsv1Of (buf : Bytes) : Bool := buf.getD 0 0 &&& 0x40 != 0

/-- The bytes with `rsv1` taken out. -/
def withoutRsv1 : Bytes → Bytes
  | [] => []
  | first :: rest => (first &&& 0xbf) :: rest

/-- `websocket_parse_frame` up to the inflating. -/
def decodeInflate (compress : Bool) (buf : Bytes) : Parsed :=
  if 2 ≤ buf.length ∧ rsv1Of buf = true ∧
      (compress = false ∨ wsOpcodeClose ≤ (buf.getD 0 0 &&& 0x0f).toNat) then
    .error (some wsCloseProtocolError)
  else decodeFrame (withoutRsv1 buf)

/-- What `websocket_parse_frame` returns, with the descriptor. -/
inductive ParsedFrame (σ : Type) where
  | error (s : InflateInput σ) (code : Option Nat)
  | incomplete
  | frame (consumed : Nat) (payload : Option Bytes) (opcode : Nat) (fin : Bool)
      (s : InflateInput σ)

def websocketParseFrame (zlib : Inflater σ) (s : InflateInput σ) (buf : Bytes)
    (answers : SendAnswers) : ParsedFrame σ :=
  match decodeInflate s.input.output.compress buf with
  | .error code => .error s code
  | .incomplete => .incomplete
  | .frame consumed payload opcode fin =>
      match inflateFrame zlib s (rsv1Of buf) opcode fin payload with
      | .error (s, code) => .error s (some code)
      | .ok (s, payload) =>
          .frame consumed payload opcode fin (s.handleControl opcode payload answers)

/-- A data frame in `websocket_process_input`. -/
def InflateInput.takeData (s : InflateInput σ) (opcode : Nat) (fin : Bool)
    (payload : Option Bytes) : InflateInput σ :=
  match Net.takeData s.input opcode fin payload with
  | .error code => s.fail code
  | .ok input => { s with input }

/-- The body of the loop of `websocket_process_input`, on the bytes of a frame. -/
def takeFrame (zlib : Inflater σ) (s : InflateInput σ) (buf : Bytes) (answers : SendAnswers) :
    InflateInput σ :=
  match websocketParseFrame zlib s buf answers with
  | .error s code => s.fail code
  | .incomplete => s
  | .frame _ payload opcode fin s =>
      if wsOpcodeClose ≤ opcode then s else s.takeData opcode fin payload

structure CompressedFrame where
  rsv1 : Bool
  frame : ClientFrame

namespace CompressedFrame

def encode (f : CompressedFrame) : Bytes :=
  (f.frame.firstByte ||| if f.rsv1 then 0x40 else 0) :: f.frame.encode.tail

/-- Allowed by itself: control frames are not compressed. -/
structure WellFormed (f : CompressedFrame) : Prop where
  frame : f.frame.WellFormed
  rsv1 : f.frame.isControl = true → f.rsv1 = false

end CompressedFrame

/-- A frame the client sent, and how the reply to it is answered. -/
abbrev FrameEvent := CompressedFrame × SendAnswers

def inflateStep (zlib : Inflater σ) (s : InflateInput σ) (event : FrameEvent) : InflateInput σ :=
  if s.input.failed then s else takeFrame zlib s event.1.encode event.2

def dataFrames (events : List FrameEvent) : List FrameEvent :=
  events.filter fun event => !event.1.frame.isControl

def pingPayloads (events : List FrameEvent) : List Bytes :=
  (events.filter fun event => event.1.frame.opcode == wsOpcodePing).map fun event =>
    event.1.frame.payload

/-- The frame comes while a compressed message is under way and is a control frame with a
payload, or an empty frame that ends the message. -/
def Disturbs (s : InflateInput σ) (event : FrameEvent) : Prop :=
  s.compressedMessage = true ∧
    ((event.1.frame.isControl = true ∧ event.1.frame.payload ≠ []) ∨
      (event.1.frame.isControl = false ∧ event.1.frame.fin = true ∧ event.1.frame.payload = []))

end Duris.Net
