import Duris.Net.WebsocketInput

/-!
# WebSocket input, one frame at a time

`nextFrame` is one turn of the loop of `websocket_process_input`, and `framesTaken` lists
the frames a call of it takes: their bytes, and what a control frame makes the server do.
`watchedStep` is a read together with these lists. The frames of a connection are counted,
and `answers` says how the reply to the frame with a number is answered, whichever read
brings it.
-/

namespace Duris.Net

inductive ControlAction where
  | sendClose (code : Nat) (reason : Option Bytes)
  | sendPong (payload : Bytes)
  | pongReceived
  deriving DecidableEq

/-- The calls of the branches of `websocket_parse_frame` that handle control frames. -/
def controlAction (s : InputState) (opcode : Nat) (payload : Option Bytes) :
    Option ControlAction :=
  if opcode = wsOpcodeClose then
    if s.wsState = .opened then
      match payload with
      | none => some (.sendClose wsCloseNormal none)
      | some payload =>
          some (.sendClose (beNat (payload.take 2))
            (if 2 < payload.length then some (payload.drop 2) else none))
    else none
  else if opcode = wsOpcodePing then some (.sendPong (payload.getD []))
  else if opcode = wsOpcodePong then if s.pingOutstanding then some .pongReceived else none
  else none

structure TakenFrame where
  bytes : Bytes
  opcode : Nat
  action : Option ControlAction
  deriving DecidableEq

/-- What the loop makes of the bytes in front of it: it waits for more, gives the
connection up, or takes a frame. -/
inductive NextFrame where
  | waits
  | refused (s : InputState)
  | took (frame : TakenFrame) (s : InputState) (rest : Bytes)

def nextFrame (answers : SendAnswers) (s : InputState) (rest : Bytes) : NextFrame :=
  match decodeFrame rest with
  | .error code => .refused (s.fail code)
  | .incomplete => .waits
  | .frame consumed payload opcode fin =>
      let frame : TakenFrame := ⟨rest.take consumed, opcode, controlAction s opcode payload⟩
      let replied : InputState :=
        { handleControl s opcode payload answers with taken := s.taken + 1 }
      if wsOpcodeClose ≤ opcode then .took frame replied (rest.drop consumed)
      else
        match takeData replied opcode fin payload with
        | .error code => .refused (replied.fail code)
        | .ok next => .took frame next (rest.drop consumed)

/-- The frames that `processFrames` takes. -/
def framesTaken (answers : Nat → SendAnswers) : Nat → InputState → Bytes → List TakenFrame
  | 0, _, _ => []
  | budget + 1, s, rest =>
      match nextFrame (answers s.taken) s rest with
      | .waits => []
      | .refused _ => []
      | .took frame s rest =>
          if frame.opcode = wsOpcodeClose then [frame]
          else frame :: framesTaken answers budget s rest

/-- The frames that `websocketProcessInput` takes. -/
def inputFrames (s : InputState) (read : Bytes) (answers : Nat → SendAnswers) :
    List TakenFrame :=
  if wsMaxBufferedBytes < s.fragment.length ∨
      wsMaxBufferedBytes - s.fragment.length < read.length then []
  else
    framesTaken answers wsMaxFramesPerRead
      { s with fragment := s.fragment ++ read, taken := 0 } (s.fragment ++ read)

/-- The frames taken on the connection, and those of the last read. -/
structure Watched where
  input : InputState
  frames : List TakenFrame := []
  last : List TakenFrame := []

def watchedStep (answers : Nat → SendAnswers) (w : Watched) (read : Bytes) : Watched :=
  if w.input.failed then w
  else
    let replies := fun index => answers (w.frames.length + index)
    let taken := inputFrames w.input read replies
    { input := inputStep w.input (read, replies), frames := w.frames ++ taken, last := taken }

def Watched.actions (w : Watched) : List ControlAction := w.frames.filterMap (·.action)

def Watched.taken (w : Watched) : List Bytes := w.frames.map (·.bytes)

/-- The last read took as many frames as a read may, or ended with a close frame, and left
something behind that the parser would not wait for. -/
def Watched.StoppedShort (w : Watched) : Prop :=
  (w.last.length = wsMaxFramesPerRead ∨
    ∃ frame, w.last.getLast? = some frame ∧ frame.opcode = wsOpcodeClose) ∧
  decodeFrame w.input.fragment ≠ .incomplete

end Duris.Net
