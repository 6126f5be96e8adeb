import Duris.Net.WebsocketOutput

/-!
# WebSocket input

The input half of `src/net/websocket.c` on a connection that did not negotiate
compression: `websocket_parse_frame` takes one frame off the bytes that have arrived and
answers it when it is a control frame, and `websocket_process_input` puts messages
together from the data frames.

A call of `websocket_process_input` is modelled from the bytes it has read on; the
handshake, a read that fails and failed allocations are left out. A payload pointer is an
`Option`: an empty payload is a null pointer, and so is the message buffer when no message
is in progress. `answers` is what the output half is answered when the frame with that
number in the call is replied to.

`delivered`, `failed` and `taken` are not in the source: the messages that
`websocket_handle_message` was called with, whether a call returned -1, and how many frames
the last call took.
-/

namespace Duris.Net

def wsMaxFrameSize : Nat := 65536
def wsMaxMessageSize : Nat := 1024 * 1024
def wsMaxBufferedBytes : Nat := 1024 * 1024
def wsMaxFramesPerRead : Nat := 64

def wsCloseNormal : Nat := 1000
def wsCloseProtocolError : Nat := 1002
def wsCloseInvalidData : Nat := 1007
def wsCloseMessageTooBig : Nat := 1009

/-- `WS_STATE_OPEN` and `WS_STATE_CLOSING`. -/
inductive WebsocketState where
  | opened
  | closing
  deriving DecidableEq

/-- What the input functions read and write of a `descriptor_data`. -/
structure InputState where
  fragment : Bytes := []
  message : Option Bytes := none
  messageOpcode : Nat := 0
  errorCode : Nat := 0
  wsState : WebsocketState := .opened
  pongReceived : Bool := false
  pingOutstanding : Bool := false
  output : Descriptor := {}
  delivered : List (Nat × Bytes) := []
  failed : Bool := false
  taken : Nat := 0

/-- The ranges of the bytes that follow the first one of a character. -/
def utf8Followers (first : UInt8) : Option (List (UInt8 × UInt8)) :=
  if first ≤ 0x7f then some []
  else if 0xc2 ≤ first ∧ first ≤ 0xdf then some [(0x80, 0xbf)]
  else if first = 0xe0 then some [(0xa0, 0xbf), (0x80, 0xbf)]
  else if (0xe1 ≤ first ∧ first ≤ 0xec) ∨ (0xee ≤ first ∧ first ≤ 0xef) then
    some [(0x80, 0xbf), (0x80, 0xbf)]
  else if first = 0xed then some [(0x80, 0x9f), (0x80, 0xbf)]
  else if first = 0xf0 then some [(0x90, 0xbf), (0x80, 0xbf), (0x80, 0xbf)]
  else if 0xf1 ≤ first ∧ first ≤ 0xf3 then some [(0x80, 0xbf), (0x80, 0xbf), (0x80, 0xbf)]
  else if first = 0xf4 then some [(0x80, 0x8f), (0x80, 0xbf), (0x80, 0xbf)]
  else none

/-- `websocket_valid_utf8` inside a character whose remaining bytes lie in the ranges. -/
def validUtf8From : List (UInt8 × UInt8) → Bytes → Bool
  | [], [] => true
  | _ :: _, [] => false
  | [], first :: rest =>
      match utf8Followers first with
      | none => false
      | some followers => validUtf8From followers rest
  | (low, high) :: followers, byte :: rest =>
      decide (low ≤ byte) && decide (byte ≤ high) && validUtf8From followers rest

def websocketValidUtf8 (data : Bytes) : Bool := validUtf8From [] data

def websocketValidCloseCode (code : Nat) : Bool :=
  decide (1000 ≤ code) && decide (code < 5000) && code != 1004 && code != 1005 && code != 1006 &&
    code != 1015 && !(decide (1016 ≤ code) && decide (code < 3000))

def shortenReason (reason : Bytes) : Nat → Bytes
  | 0 => []
  | length + 1 =>
      if websocketValidUtf8 (reason.take (length + 1)) then reason.take (length + 1)
      else shortenReason reason length

/-- `websocket_send_close` up to its frame, of a reason that is a C string. -/
def closePayload (code : Nat) (reason : Option Bytes) : Option Bytes :=
  if 0 < code then
    if 0xffff < code ∨ websocketValidCloseCode code = false then none
    else
      match reason with
      | none => some (beBytes 2 code)
      | some text =>
          let reason := text.takeWhile (· != 0)
          if websocketValidUtf8 reason then
            some (beBytes 2 code ++ shortenReason reason (min reason.length (wsLen7bitMax - 2)))
          else none
  else if reason.isSome then none
  else some []

def websocketSendClose (s : InputState) (code : Nat) (reason : Option Bytes)
    (answers : SendAnswers) : InputState :=
  match closePayload code reason with
  | none => s
  | some payload =>
      match websocketSendFrame s.output wsOpcodeClose payload answers with
      | (.done, output) => { s with output, wsState := .closing }
      | (_, output) => { s with output }

def websocketSendPong (s : InputState) (payload : Bytes) (answers : SendAnswers) : InputState :=
  { s with output := (websocketSendFrame s.output wsOpcodePong payload answers).2 }

/-- What `websocket_parse_frame` makes of the bytes: an error, with the close code it sets,
a frame that has not arrived in full, or how many bytes the frame takes and what it is. -/
inductive Parsed where
  | error (code : Option Nat)
  | incomplete
  | frame (consumed : Nat) (payload : Option Bytes) (opcode : Nat) (fin : Bool)

/-- The length of the payload, and where the masking key stands. -/
def parseLength (buf : Bytes) : Except Parsed (Nat × Nat) :=
  let short := (buf.getD 1 0 &&& 0x7f).toNat
  if short = 126 then
    if buf.length < 4 then .error .incomplete
    else .ok (beNat ((buf.drop 2).take 2), 4)
  else if short = 127 then
    if buf.length < 10 then .error .incomplete
    else if wsMaxFrameSize < beNat ((buf.drop 2).take 8) then
      .error (.error (some wsCloseMessageTooBig))
    else .ok (beNat ((buf.drop 2).take 8), 10)
  else if wsMaxFrameSize < short then .error (.error (some wsCloseMessageTooBig))
  else .ok (short, 2)

def unmask (key payload : Bytes) : Bytes :=
  payload.mapIdx fun index byte => byte ^^^ key.getD (index % 4) 0

def closeError (payload : Bytes) : Option Parsed :=
  if payload.length = 1 then some (.error none)
  else if websocketValidCloseCode (beNat (payload.take 2)) = false then
    some (.error (some wsCloseProtocolError))
  else if websocketValidUtf8 (payload.drop 2) = false then
    some (.error (some wsCloseInvalidData))
  else none

def knownOpcodes : List Nat :=
  [wsOpcodeContinuation, wsOpcodeText, wsOpcodeBinary, wsOpcodeClose, wsOpcodePing, wsOpcodePong]

/-- `websocket_parse_frame` up to the handling of control frames. -/
def decodeFrame (buf : Bytes) : Parsed :=
  if buf.length < 2 then .incomplete
  else
    let opcode := (buf.getD 0 0 &&& 0x0f).toNat
    let fin := buf.getD 0 0 &&& 0x80 != 0
    if buf.getD 0 0 &&& 0x30 ≠ 0 ∨ buf.getD 0 0 &&& 0x40 ≠ 0 then
      .error (some wsCloseProtocolError)
    else if opcode ∉ knownOpcodes then .error (some wsCloseProtocolError)
    else
      match parseLength buf with
      | .error result => result
      | .ok (dataLen, offset) =>
          if wsOpcodeClose ≤ opcode ∧ (fin = false ∨ 125 < dataLen) then
            .error (some wsCloseProtocolError)
          else if buf.getD 1 0 &&& 0x80 = 0 then .error (some wsCloseProtocolError)
          else if buf.length < offset + 4 + dataLen then .incomplete
          else
            let payload :=
              unmask ((buf.drop offset).take 4) ((buf.drop (offset + 4)).take dataLen)
            if dataLen = 0 then .frame (offset + 4) none opcode fin
            else if opcode = wsOpcodeClose then
              (closeError payload).getD (.frame (offset + 4 + dataLen) (some payload) opcode fin)
            else .frame (offset + 4 + dataLen) (some payload) opcode fin

/-- The end of `websocket_parse_frame`: a control frame is answered. -/
def handleControl (s : InputState) (opcode : Nat) (payload : Option Bytes)
    (answers : SendAnswers) : InputState :=
  if opcode = wsOpcodeClose then
    if s.wsState = .opened then
      match payload with
      | none => websocketSendClose s wsCloseNormal none answers
      | some payload =>
          websocketSendClose s (beNat (payload.take 2))
            (if 2 < payload.length then some (payload.drop 2) else none) answers
    else s
  else if opcode = wsOpcodePing then websocketSendPong s (payload.getD []) answers
  else if opcode = wsOpcodePong then
    if s.pingOutstanding then { s with pongReceived := true, pingOutstanding := false } else s
  else s

/-- -1, with the close code the first error sets. -/
def InputState.fail (s : InputState) (code : Option Nat) : InputState :=
  { s with failed := true, errorCode := if s.errorCode = 0 then code.getD 0 else s.errorCode }

/-- `websocket_handle_message`. -/
def InputState.deliver (s : InputState) (opcode : Nat) (payload : Bytes) : InputState :=
  { s with delivered := s.delivered ++ [(opcode, payload)] }

/-- A data frame in `websocket_process_input`; an error gives the close code it sets. -/
def takeData (s : InputState) (opcode : Nat) (fin : Bool) (payload : Option Bytes) :
    Except (Option Nat) InputState :=
  if opcode = wsOpcodeContinuation then
    match s.message with
    | none => .error none
    | some message =>
        if (payload.getD []).length ≠ 0 ∧ (wsMaxMessageSize < message.length ∨
            wsMaxMessageSize - message.length < (payload.getD []).length) then
          .error (some wsCloseMessageTooBig)
        else if fin then
          .ok { s.deliver s.messageOpcode (message ++ payload.getD []) with
            message := none, messageOpcode := 0 }
        else .ok { s with message := some (message ++ payload.getD []) }
  else if s.message.isSome then .error none
  else if fin then .ok (s.deliver opcode (payload.getD []))
  else if wsMaxMessageSize < (payload.getD []).length then .error (some wsCloseMessageTooBig)
  else .ok { s with message := payload, messageOpcode := opcode }

/-- The loop of `websocket_process_input`, with the frames it may still take and the bytes
behind those it took. -/
def processFrames (answers : Nat → SendAnswers) : Nat → InputState → Bytes → InputState
  | 0, s, rest => { s with fragment := rest }
  | budget + 1, s, rest =>
      if rest = [] then { s with fragment := rest }
      else
        match decodeFrame rest with
        | .error code => s.fail code
        | .incomplete => { s with fragment := rest }
        | .frame consumed payload opcode fin =>
            let replied : InputState :=
              { handleControl s opcode payload (answers s.taken) with taken := s.taken + 1 }
            if opcode = wsOpcodeClose then { replied with fragment := rest.drop consumed }
            else if wsOpcodeClose ≤ opcode then
              processFrames answers budget replied (rest.drop consumed)
            else
              match takeData replied opcode fin payload with
              | .error code => replied.fail code
              | .ok next => processFrames answers budget next (rest.drop consumed)

/-- `websocket_process_input` with the bytes it read. -/
def websocketProcessInput (s : InputState) (read : Bytes) (answers : Nat → SendAnswers) :
    InputState :=
  if wsMaxBufferedBytes < s.fragment.length ∨
      wsMaxBufferedBytes - s.fragment.length < read.length then s.fail none
  else
    processFrames answers wsMaxFramesPerRead
      { s with fragment := s.fragment ++ read, taken := 0 } (s.fragment ++ read)

/-- A read, unless the connection was given up. -/
def inputStep (s : InputState) (read : Bytes × (Nat → SendAnswers)) : InputState :=
  if s.failed then s else websocketProcessInput s read.1 read.2

end Duris.Net
