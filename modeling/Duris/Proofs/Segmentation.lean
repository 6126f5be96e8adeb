import Mathlib.Logic.Relation
import Duris.Net.FrameByFrame
import Duris.Proofs.WebsocketInput

/-!
# Input does not depend on segmentation

The parser's verdict on the bytes in front of it is final: once it does not wait, more
bytes change nothing (`decodeFrame_stable`). So a stream has one execution frame by frame
(`FrameStep`), and a run of reads stands at some point of it, wherever the reads were cut
(`Stands`). Two points of it are comparable since the step is a function.
-/

namespace Duris.Net

/-! ## The verdict of the parser is final -/

section Stable

variable {buf whole : Bytes} {fin : Bool}

theorem parseLength_stable (h : buf <+: whole) (htwo : 2 ≤ buf.length) :
    parseLength buf = .error .incomplete ∨ parseLength whole = parseLength buf := by
  have hle := h.length_le
  unfold parseLength
  dsimp only
  rw [← getD_of_isPrefix h htwo]
  split
  · split
    · exact .inl rfl
    · next hfour =>
        right
        rw [if_neg (by omega), slice_of_isPrefix h (by omega)]
  · split
    · split
      · exact .inl rfl
      · next hten =>
          right
          rw [if_neg (by omega : ¬whole.length < 10), slice_of_isPrefix h (by omega)]
    · exact .inr rfl

variable {consumed opcode : Nat}

/-- The parser gives up on a length or waits for it, and gives up on a close frame. -/
theorem parseLength_error {result : Parsed} (h : parseLength buf = .error result)
    {payload : Option Bytes} : result ≠ .frame consumed payload opcode fin := by
  unfold parseLength at h
  dsimp only at h
  split at h
  · split at h <;> cases h
    exact Parsed.noConfusion
  · split at h
    · split at h
      · cases h
        exact Parsed.noConfusion
      · split at h <;> cases h
        exact Parsed.noConfusion
    · split at h <;> cases h
      exact Parsed.noConfusion

theorem closeError_error {payload : Bytes} {result : Parsed}
    (h : closeError payload = some result) {payload : Option Bytes} :
    result ≠ .frame consumed payload opcode fin := by
  unfold closeError at h
  split at h
  · cases h
    exact Parsed.noConfusion
  · split at h
    · cases h
      exact Parsed.noConfusion
    · split at h <;> cases h
      exact Parsed.noConfusion

theorem decodeFrame_stable (h : buf <+: whole) (hdone : decodeFrame buf ≠ .incomplete) :
    decodeFrame whole = decodeFrame buf := by
  have hle := h.length_le
  unfold decodeFrame at hdone ⊢
  by_cases htwo : buf.length < 2
  · rw [if_pos htwo] at hdone
    exact absurd rfl hdone
  · rw [if_neg htwo] at hdone ⊢
    rw [if_neg (by omega), ← getD_of_isPrefix h (by omega : 0 < buf.length),
      ← getD_of_isPrefix h (by omega : 1 < buf.length)]
    dsimp only at hdone ⊢
    split
    · rfl
    · next hreserved =>
        rw [if_neg hreserved] at hdone
        split
        · rfl
        · next hknown =>
            rw [if_neg hknown] at hdone
            rcases parseLength_stable h (not_lt.mp htwo) with hwaits | hsame
            · rw [hwaits] at hdone
              exact absurd rfl hdone
            · rw [hsame]
              cases hlength : parseLength buf with
              | error result => rfl
              | ok place =>
                  obtain ⟨dataLen, offset⟩ := place
                  rw [hlength] at hdone
                  dsimp only at hdone ⊢
                  split
                  · rfl
                  · next hcontrol =>
                      rw [if_neg hcontrol] at hdone
                      split
                      · rfl
                      · next hmasked =>
                          rw [if_neg hmasked] at hdone
                          by_cases hpart : buf.length < offset + 4 + dataLen
                          · rw [if_pos hpart] at hdone
                            exact absurd rfl hdone
                          · rw [if_neg hpart, if_neg (by omega), slice_of_isPrefix h (by omega),
                              slice_of_isPrefix h (by omega)]

theorem decodeFrame_consumed {payload : Option Bytes}
    (h : decodeFrame buf = .frame consumed payload opcode fin) : consumed ≤ buf.length := by
  unfold decodeFrame at h
  split at h
  · cases h
  · dsimp only at h
    split at h
    · cases h
    · split at h
      · cases h
      · cases hlength : parseLength buf with
        | error result =>
            rw [hlength] at h
            exact absurd h (parseLength_error hlength)
        | ok place =>
            obtain ⟨dataLen, offset⟩ := place
            rw [hlength] at h
            dsimp only at h
            split at h
            · cases h
            · split at h
              · cases h
              · split at h
                · cases h
                · next hwhole =>
                    split at h
                    · cases h
                      omega
                    · split at h
                      · cases hclose : closeError (unmask ((buf.drop offset).take 4)
                            ((buf.drop (offset + 4)).take dataLen)) with
                        | some result =>
                            rw [hclose] at h
                            exact absurd h (closeError_error hclose)
                        | none =>
                            rw [hclose] at h
                            cases h
                            omega
                      · cases h
                        omega

end Stable

/-! ## One turn of the loop -/

theorem processFrames_succ (answers : Nat → SendAnswers) (budget : Nat) (s : InputState)
    (rest : Bytes) :
    processFrames answers (budget + 1) s rest =
      match nextFrame (answers s.taken) s rest with
      | .waits => { s with fragment := rest }
      | .refused s => s
      | .took frame s rest =>
          if frame.opcode = wsOpcodeClose then { s with fragment := rest }
          else processFrames answers budget s rest := by
  rw [processFrames, nextFrame]
  split
  · next hnil =>
      rw [hnil]
      rfl
  · cases hdecode : decodeFrame rest with
    | error code => rfl
    | incomplete => rfl
    | frame consumed payload opcode fin =>
        dsimp only
        by_cases hclose : opcode = wsOpcodeClose
        · rw [if_pos hclose, if_pos (Nat.le_of_eq hclose.symm)]
          dsimp only
          rw [if_pos hclose]
        · rw [if_neg hclose]
          split
          · dsimp only
            rw [if_neg hclose]
          · cases takeData _ opcode fin payload with
            | error code => rfl
            | ok next =>
                dsimp only
                rw [if_neg hclose]

/-- What is between the frames of a call, and what the parser does not look at: the buffer
and the count of the call are left out. -/
def InputState.core (s : InputState) : InputState := { s with fragment := [], taken := 0 }

/-- What the messages are made of: the replies are left out. -/
def InputState.data (s : InputState) : InputState :=
  { s with output := {}, wsState := .opened, pongReceived := false, pingOutstanding := false }

def InputState.onto (s t : InputState) : InputState :=
  { t with message := s.message, messageOpcode := s.messageOpcode, delivered := s.delivered }

theorem takeData_onto (s t : InputState) (opcode : Nat) (fin : Bool) (payload : Option Bytes) :
    takeData (s.onto t) opcode fin payload =
      (takeData s opcode fin payload).map fun next => next.onto t := by
  unfold takeData
  split
  · rw [show (s.onto t).message = s.message from rfl]
    cases hmessage : s.message with
    | none => rfl
    | some message =>
        dsimp only
        split
        · rfl
        · split <;> rfl
  · show (if s.message.isSome then _ else _) = _
    split
    · rfl
    · split
      · rfl
      · split <;> rfl

variable {s t : InputState} {answers : SendAnswers} {rest : Bytes}

theorem takeData_only {next : InputState} {opcode : Nat} {fin : Bool} {payload : Option Bytes}
    (h : takeData s opcode fin payload = .ok next) : next.onto s = next := by
  unfold takeData at h
  split at h
  · split at h
    · cases h
    · split at h
      · cases h
      · split at h <;> cases h <;> rfl
  · split at h
    · cases h
    · split at h
      · cases h
        rfl
      · split at h <;> cases h
        rfl

/-- So it does not matter whether what it does not look at is left out before or after. -/
theorem takeData_erase (s : InputState) (erase : InputState → InputState)
    (herase : ∀ next : InputState, next.onto (erase s) = erase (next.onto s))
    (hself : s.onto (erase s) = erase s) (opcode : Nat) (fin : Bool) (payload : Option Bytes) :
    takeData (erase s) opcode fin payload = (takeData s opcode fin payload).map erase := by
  rw [← hself, takeData_onto]
  cases htaken : takeData s opcode fin payload with
  | error code => rfl
  | ok next =>
      show Except.ok (next.onto (erase s)) = Except.ok (erase next)
      rw [herase, takeData_only htaken]

/-! ## Control frames -/

def ControlAction.perform (s : InputState) (answers : SendAnswers) : ControlAction → InputState
  | .sendClose code reason => websocketSendClose s code reason answers
  | .sendPong payload => websocketSendPong s payload answers
  | .pongReceived => { s with pongReceived := true, pingOutstanding := false }

theorem handleControl_eq (s : InputState) (opcode : Nat) (payload : Option Bytes)
    (answers : SendAnswers) :
    handleControl s opcode payload answers =
      (controlAction s opcode payload).elim s (ControlAction.perform s answers) := by
  unfold handleControl controlAction
  split
  · split
    · cases payload <;> rfl
    · rfl
  · split
    · rfl
    · split
      · split <;> rfl
      · rfl

theorem perform_core (s : InputState) (answers : SendAnswers) (action : ControlAction) :
    action.perform s.core answers = (action.perform s answers).core := by
  cases action with
  | sendClose code reason =>
      unfold ControlAction.perform websocketSendClose
      dsimp only
      rw [show s.core.output = s.output from rfl]
      cases closePayload code reason with
      | none => rfl
      | some payload =>
          dsimp only
          split <;> rfl
  | sendPong payload => rfl
  | pongReceived => rfl

theorem perform_data (s : InputState) (answers : SendAnswers) (action : ControlAction) :
    (action.perform s answers).data = s.data := by
  cases action with
  | sendClose code reason =>
      unfold ControlAction.perform websocketSendClose
      dsimp only
      cases closePayload code reason with
      | none => rfl
      | some payload =>
          dsimp only
          split <;> rfl
  | sendPong payload => rfl
  | pongReceived => rfl

theorem handleControl_core (s : InputState) (opcode : Nat) (payload : Option Bytes)
    (answers : SendAnswers) :
    handleControl s.core opcode payload answers =
      (handleControl s opcode payload answers).core := by
  rw [handleControl_eq, handleControl_eq, show controlAction s.core = controlAction s from rfl]
  cases controlAction s opcode payload with
  | none => rfl
  | some action => exact perform_core s answers action

theorem handleControl_data (s : InputState) (opcode : Nat) (payload : Option Bytes)
    (answers : SendAnswers) : (handleControl s opcode payload answers).data = s.data := by
  rw [handleControl_eq]
  cases controlAction s opcode payload with
  | none => rfl
  | some action => exact perform_data s answers action

/-! ## The loop body on what counts -/

def NextFrame.core : NextFrame → NextFrame
  | .waits => .waits
  | .refused s => .refused s.core
  | .took frame s rest => .took frame s.core rest

def NextFrame.data : NextFrame → NextFrame
  | .waits => .waits
  | .refused s => .refused s.data
  | .took frame s rest => .took { frame with action := none } s.data rest

def NextFrame.before (more : Bytes) : NextFrame → NextFrame
  | .waits => .waits
  | .refused s => .refused s
  | .took frame s rest => .took frame s (rest ++ more)

theorem nextFrame_append (answers : SendAnswers) (s : InputState) {buf : Bytes} (more : Bytes)
    (hdone : nextFrame answers s buf ≠ .waits) :
    nextFrame answers s (buf ++ more) = (nextFrame answers s buf).before more := by
  have hstart : buf <+: buf ++ more := List.prefix_append ..
  unfold nextFrame at hdone ⊢
  cases hdecode : decodeFrame buf with
  | incomplete =>
      rw [hdecode] at hdone
      exact absurd rfl hdone
  | error code =>
      rw [decodeFrame_stable hstart (by rw [hdecode]; exact Parsed.noConfusion), hdecode]
      rfl
  | frame consumed payload opcode fin =>
      have harrived := decodeFrame_consumed hdecode
      rw [decodeFrame_stable hstart (by rw [hdecode]; exact Parsed.noConfusion), hdecode]
      dsimp only
      rw [List.take_append_of_le_length harrived, List.drop_append_of_le_length harrived]
      split
      · rfl
      · cases takeData _ opcode fin payload <;> rfl

theorem nextFrame_core (answers : SendAnswers) (s : InputState) (rest : Bytes) :
    (nextFrame answers s.core rest).core = (nextFrame answers s rest).core := by
  unfold nextFrame
  cases decodeFrame rest with
  | error code => rfl
  | incomplete => rfl
  | frame consumed payload opcode fin =>
      dsimp only
      rw [handleControl_core]
      generalize handleControl s opcode payload answers = replied
      split
      · rfl
      · have hcore := takeData_erase { replied with taken := s.taken + 1 }
          (fun s => { s with fragment := [], taken := 1 }) (fun _ => rfl) rfl opcode fin payload
        have hsame : ({ replied.core with taken := s.core.taken + 1 } : InputState) =
            { replied with fragment := [], taken := 1 } := rfl
        rw [hsame, hcore]
        cases takeData { replied with taken := s.taken + 1 } opcode fin payload <;> rfl

theorem nextFrame_data (h : s.data = t.data) (answers others : SendAnswers) (rest : Bytes) :
    (nextFrame answers s rest).data = (nextFrame others t rest).data := by
  have hfail : ∀ code, (s.fail code).data = (t.fail code).data := fun code =>
    congrArg (fun s : InputState => s.fail code) h
  unfold nextFrame
  cases decodeFrame rest with
  | error code => exact congrArg NextFrame.refused (hfail code)
  | incomplete => rfl
  | frame consumed payload opcode fin =>
      dsimp only
      have hreplied : ({ handleControl s opcode payload answers with
            taken := s.taken + 1 } : InputState).data =
          ({ handleControl t opcode payload others
            with taken := t.taken + 1 } : InputState).data := by
        have htaken : s.taken = t.taken := show s.data.taken = t.data.taken by rw [h]
        have hdata := (handleControl_data s opcode payload answers).trans
          (h.trans (handleControl_data t opcode payload others).symm)
        rw [htaken]
        exact congrArg (fun s : InputState => { s with taken := t.taken + 1 }) hdata
      generalize ({ handleControl s opcode payload answers with
        taken := s.taken + 1 } : InputState) = replied at hreplied
      generalize ({ handleControl t opcode payload others with
        taken := t.taken + 1 } : InputState) = answered at hreplied
      split
      · exact congrArg (fun s => NextFrame.took _ s _) hreplied
      · have hleft := takeData_erase replied InputState.data (fun _ => rfl) rfl opcode fin payload
        have hright := takeData_erase answered InputState.data (fun _ => rfl) rfl opcode fin payload
        rw [hreplied, hright] at hleft
        cases htaken : takeData replied opcode fin payload with
        | error code =>
            rw [htaken] at hleft
            cases htaken' : takeData answered opcode fin payload with
            | error code' =>
                rw [htaken'] at hleft
                cases hleft
                exact congrArg (fun s : InputState => NextFrame.refused (s.fail code)) hreplied
            | ok next' =>
                rw [htaken'] at hleft
                cases hleft
        | ok next =>
            rw [htaken] at hleft
            cases htaken' : takeData answered opcode fin payload with
            | error code' =>
                rw [htaken'] at hleft
                cases hleft
            | ok next' =>
                rw [htaken'] at hleft
                exact congrArg (fun s => NextFrame.took _ s _) (Except.ok.inj hleft).symm

theorem takeData_delivered {next : InputState} {opcode : Nat} {fin : Bool} {payload : Option Bytes}
    (h : takeData s opcode fin payload = .ok next) : s.delivered <+: next.delivered := by
  unfold takeData at h
  split at h
  · split at h
    · cases h
    · split at h
      · cases h
      · split at h <;> cases h
        · exact List.prefix_append ..
        · exact List.prefix_rfl
  · split at h
    · cases h
    · split at h
      · cases h
        exact List.prefix_append ..
      · split at h <;> cases h
        exact List.prefix_rfl

/-- A frame is taken off the front, and the call goes on. -/
structure TookFrom (s : InputState) (rest : Bytes) (frame : TakenFrame) (s' : InputState)
    (rest' : Bytes) : Prop where
  bytes : rest = frame.bytes ++ rest'
  delivered : s.delivered <+: s'.delivered
  failed : s'.failed = s.failed
  fragment : s'.fragment = s.fragment
  taken : s'.taken = s.taken + 1

theorem nextFrame_took {s' : InputState} {rest' : Bytes} {frame : TakenFrame}
    (h : nextFrame answers s rest = .took frame s' rest') : TookFrom s rest frame s' rest' := by
  unfold nextFrame at h
  cases hdecode : decodeFrame rest with
  | error code =>
      rw [hdecode] at h
      cases h
  | incomplete =>
      rw [hdecode] at h
      cases h
  | frame consumed payload opcode fin =>
      rw [hdecode] at h
      dsimp only at h
      have hdata := handleControl_data s opcode payload answers
      generalize handleControl s opcode payload answers = replied at h hdata
      have hdelivered : replied.delivered = s.delivered :=
        show replied.data.delivered = s.data.delivered by rw [hdata]
      have hfailed : replied.failed = s.failed :=
        show replied.data.failed = s.data.failed by rw [hdata]
      have hfragment : replied.fragment = s.fragment :=
        show replied.data.fragment = s.data.fragment by rw [hdata]
      split at h
      · cases h
        exact ⟨(List.take_append_drop consumed rest).symm, hdelivered ▸ List.prefix_rfl, hfailed,
          hfragment, rfl⟩
      · cases htaken : takeData { replied with taken := s.taken + 1 } opcode fin payload with
        | error code =>
            rw [htaken] at h
            cases h
        | ok next =>
            rw [htaken] at h
            cases h
            have honly := takeData_only htaken
            have hmore := takeData_delivered htaken
            dsimp only at hmore
            rw [hdelivered] at hmore
            refine ⟨(List.take_append_drop consumed rest).symm, hmore, ?_, ?_, ?_⟩
            · rw [← honly]
              exact hfailed
            · rw [← honly]
              exact hfragment
            · rw [← honly]
              rfl

/-- The connection is given up with what was delivered, and the buffer stays as it was. -/
theorem nextFrame_refused {s' : InputState} (h : nextFrame answers s rest = .refused s') :
    s'.failed = true ∧ s'.fragment = s.fragment ∧ s'.delivered = s.delivered := by
  unfold nextFrame at h
  cases hdecode : decodeFrame rest with
  | error code =>
      rw [hdecode] at h
      cases h
      exact ⟨rfl, rfl, rfl⟩
  | incomplete =>
      rw [hdecode] at h
      cases h
  | frame consumed payload opcode fin =>
      rw [hdecode] at h
      dsimp only at h
      have hdata := handleControl_data s opcode payload answers
      generalize handleControl s opcode payload answers = replied at h hdata
      split at h
      · cases h
      · cases htaken : takeData { replied with taken := s.taken + 1 } opcode fin payload with
        | error code =>
            rw [htaken] at h
            cases h
            exact ⟨rfl, show replied.data.fragment = s.data.fragment by rw [hdata],
              show replied.data.delivered = s.data.delivered by rw [hdata]⟩
        | ok next =>
            rw [htaken] at h
            cases h

theorem nextFrame_waits : nextFrame answers s rest = .waits ↔ decodeFrame rest = .incomplete := by
  unfold nextFrame
  cases decodeFrame rest with
  | error code => exact iff_of_false NextFrame.noConfusion Parsed.noConfusion
  | incomplete => exact iff_of_true rfl rfl
  | frame consumed payload opcode fin =>
      refine iff_of_false ?_ Parsed.noConfusion
      dsimp only
      split
      · exact NextFrame.noConfusion
      · cases takeData _ opcode fin payload <;> exact NextFrame.noConfusion

/-! ## The execution frame by frame -/

structure Point where
  state : InputState
  rest : Bytes
  frames : List TakenFrame := []

/-- What becomes of the bytes at a point, the frame there having the next number. -/
def Point.next (answers : Nat → SendAnswers) (p : Point) : NextFrame :=
  (nextFrame (answers p.frames.length) p.state p.rest).core

def FrameStep (answers : Nat → SendAnswers) (p q : Point) : Prop :=
  ∃ frame, p.next answers = .took frame q.state q.rest ∧ q.frames = p.frames ++ [frame]

abbrev FrameSteps (answers : Nat → SendAnswers) : Point → Point → Prop :=
  Relation.ReflTransGen (FrameStep answers)

theorem frameStep_rightUnique (answers : Nat → SendAnswers) :
    Relator.RightUnique (FrameStep answers) := by
  rintro p ⟨state, rest, frames⟩ ⟨state', rest', frames'⟩ ⟨frame, hnext, hframes⟩
    ⟨frame', hnext', hframes'⟩
  rw [hnext] at hnext'
  cases hnext'
  exact congrArg (Point.mk state rest) (hframes.trans hframes'.symm)

theorem NextFrame.core_eq_took {outcome : NextFrame} {frame : TakenFrame}
    (h : outcome.core = .took frame t rest) : ∃ s, outcome = .took frame s rest ∧ t = s.core := by
  cases outcome with
  | waits => cases h
  | refused s => cases h
  | took frame s rest =>
      cases h
      exact ⟨s, rfl, rfl⟩

theorem NextFrame.core_eq_refused {outcome : NextFrame} (h : outcome.core = .refused t) :
    ∃ s, outcome = .refused s ∧ t = s.core := by
  cases outcome with
  | waits => cases h
  | refused s =>
      cases h
      exact ⟨s, rfl, rfl⟩
  | took frame s rest => cases h

/-- Nothing that was delivered or taken is undone, and the frames taken and the rest are
the stream. -/
theorem FrameSteps.grows {answers : Nat → SendAnswers} {p q : Point} (h : FrameSteps answers p q) :
    p.state.delivered <+: q.state.delivered ∧ p.frames <+: q.frames ∧
      q.frames.flatMap (·.bytes) ++ q.rest = p.frames.flatMap (·.bytes) ++ p.rest := by
  induction h with
  | refl => exact ⟨List.prefix_rfl, List.prefix_rfl, rfl⟩
  | @tail b c _ hstep ih =>
      obtain ⟨hdelivered, hframes, hstream⟩ := ih
      obtain ⟨frame, hnext, hmore⟩ := hstep
      obtain ⟨s, htook, hstate⟩ := NextFrame.core_eq_took hnext
      have htook := nextFrame_took htook
      refine ⟨hdelivered.trans ?_, hframes.trans ?_, ?_⟩
      · rw [hstate]
        exact htook.delivered
      · rw [hmore]
        exact List.prefix_append ..
      · rw [hmore, List.flatMap_append, List.flatMap_cons, List.flatMap_nil, List.append_nil,
          List.append_assoc, ← htook.bytes, hstream]

/-! ## Where a call leaves off -/

/-- A state that came to a point, or was given up on the frame there. `unread` are the bytes
of the stream that the connection has not brought yet. -/
def CameTo (answers : Nat → SendAnswers) (unread : Bytes) (q : Point) (s : InputState) : Prop :=
  (s.failed = false ∧ q.state = s.core ∧ q.rest = s.fragment ++ unread) ∨
    (s.failed = true ∧ q.next answers = .refused s.core)

/-- A call took some frames and stopped since it took as many as it may, since the last one
was a close frame, or since the rest does not hold another. -/
def Stopped (budget : Nat) (taken : List TakenFrame) (s : InputState) : Prop :=
  (taken.length = budget ∨
    ∃ frame, taken.getLast? = some frame ∧ frame.opcode = wsOpcodeClose) ∨
  decodeFrame s.fragment = .incomplete

theorem Stopped.cons {budget : Nat} {taken : List TakenFrame} (h : Stopped budget taken s)
    (frame : TakenFrame) : Stopped (budget + 1) (frame :: taken) s := by
  rcases h with (hlength | ⟨last, hlast, hclose⟩) | hwaits
  · exact .inl (.inl (congrArg Nat.succ hlength))
  · refine .inl (.inr ⟨last, ?_, hclose⟩)
    rw [List.getLast?_cons, hlast]
    rfl
  · exact .inr hwaits

theorem next_of_nextFrame {answers : Nat → SendAnswers} (frames : List TakenFrame) (unread : Bytes)
    (hdone : nextFrame (answers frames.length) s rest ≠ .waits) :
    Point.next answers ⟨s.core, rest ++ unread, frames⟩ =
      ((nextFrame (answers frames.length) s rest).before unread).core := by
  unfold Point.next
  rw [nextFrame_core, nextFrame_append _ _ _ hdone]

theorem processFrames_comes (answers replies : Nat → SendAnswers) (unread : Bytes) (budget : Nat) :
    ∀ (s : InputState) (rest : Bytes) (frames : List TakenFrame), s.failed = false →
    (∀ index, replies (s.taken + index) = answers (frames.length + index)) →
    ∃ q, FrameSteps answers ⟨s.core, rest ++ unread, frames⟩ q ∧
      q.frames = frames ++ framesTaken replies budget s rest ∧
      CameTo answers unread q (processFrames replies budget s rest) ∧
      ((processFrames replies budget s rest).failed = false →
        Stopped budget (framesTaken replies budget s rest) (processFrames replies budget s rest)) ∧
      ((processFrames replies budget s rest).failed = true →
        (processFrames replies budget s rest).fragment = s.fragment) := by
  induction budget with
  | zero =>
      intro s rest frames hopen _
      refine ⟨_, .refl, (List.append_nil _).symm, .inl ⟨hopen, rfl, rfl⟩,
        fun _ => .inl (.inl rfl), fun hfailed => ?_⟩
      cases hopen.symm.trans hfailed
  | succ budget ih =>
      intro s rest frames hopen hreplies
      have hfirst : replies s.taken = answers frames.length := hreplies 0
      rw [processFrames_succ, framesTaken]
      cases hnext : nextFrame (replies s.taken) s rest with
      | waits =>
          refine ⟨_, .refl, (List.append_nil _).symm, .inl ⟨hopen, rfl, rfl⟩,
            fun _ => .inr (nextFrame_waits.mp hnext), fun hfailed => ?_⟩
          cases hopen.symm.trans hfailed
      | refused s' =>
          obtain ⟨hfailed, hfragment, -⟩ := nextFrame_refused hnext
          rw [hfirst] at hnext
          refine ⟨_, .refl, (List.append_nil _).symm, .inr ⟨hfailed, ?_⟩, fun hopen' => ?_,
            fun _ => hfragment⟩
          · rw [next_of_nextFrame frames unread (by rw [hnext]; exact NextFrame.noConfusion), hnext]
            rfl
          · cases hfailed.symm.trans hopen'
      | took frame s' rest' =>
          have htook := nextFrame_took hnext
          rw [hfirst] at hnext
          have hstep : FrameStep answers ⟨s.core, rest ++ unread, frames⟩
              ⟨s'.core, rest' ++ unread, frames ++ [frame]⟩ := by
            refine ⟨frame, ?_, rfl⟩
            rw [next_of_nextFrame frames unread (by rw [hnext]; exact NextFrame.noConfusion), hnext]
            rfl
          have hopen' : s'.failed = false := htook.failed.trans hopen
          dsimp only
          by_cases hclose : frame.opcode = wsOpcodeClose
          · rw [if_pos hclose, if_pos hclose]
            refine ⟨_, .single hstep, rfl, .inl ⟨hopen', rfl, rfl⟩,
              fun _ => .inl (.inr ⟨frame, rfl, hclose⟩), fun hfailed => ?_⟩
            cases hopen'.symm.trans hfailed
          · rw [if_neg hclose, if_neg hclose]
            have hlater : ∀ index, replies (s'.taken + index) =
                answers ((frames ++ [frame]).length + index) := by
              intro index
              rw [htook.taken, List.length_append, List.length_singleton, Nat.add_assoc,
                Nat.add_assoc]
              exact hreplies (1 + index)
            obtain ⟨q, hsteps, hframes, hcame, hstop, hkept⟩ :=
              ih s' rest' (frames ++ [frame]) hopen' hlater
            refine ⟨q, .head hstep hsteps, ?_, hcame, fun hend => (hstop hend).cons frame,
              fun hend => (hkept hend).trans htook.fragment⟩
            rw [hframes, List.append_assoc, List.singleton_append]

/-! ## Runs -/

/-- The bytes that wait stay within the limit on them. -/
def Roomy (w : Watched) (read : Bytes) : Prop :=
  w.input.failed = false → w.input.fragment.length + read.length ≤ wsMaxBufferedBytes

/-- The buffer holds the rest of the stream, or, where the last call failed, what there was
behind the frames of the calls before it. -/
def Keeps (stream : Bytes) (w : Watched) : Prop :=
  (w.input.failed = false → w.taken.flatten ++ w.input.fragment = stream) ∧
  (w.input.failed = true → ∃ earlier, w.frames = earlier ++ w.last ∧
    earlier.flatMap (·.bytes) ++ w.input.fragment <+: stream)

section Runs

variable {answers others : Nat → SendAnswers} {first : InputState} {stream unread : Bytes}
  {w : Watched}

/-- Where a run stands in the execution of its stream. -/
structure Stands (answers : Nat → SendAnswers) (first : InputState) (stream unread : Bytes)
    (w : Watched) (q : Point) : Prop where
  start : FrameSteps answers ⟨first, stream, []⟩ q
  frames : q.frames = w.frames
  came : CameTo answers unread q w.input
  stopped : w.input.failed = false → Stopped wsMaxFramesPerRead w.last w.input
  kept : w.input.failed = true → ∃ earlier, w.frames = earlier ++ w.last ∧
    earlier.flatMap (·.bytes) ++ w.input.fragment <+: stream

theorem watchedStep_failed (h : w.input.failed = true) (read : Bytes) :
    watchedStep answers w read = w := if_pos h

variable {read : Bytes} {q : Point}

theorem watchedStep_open (h : w.input.failed = false) (hroom : Roomy w read) :
    watchedStep answers w read =
      { input := processFrames (fun index => answers (w.frames.length + index))
          wsMaxFramesPerRead { w.input with fragment := w.input.fragment ++ read, taken := 0 }
          (w.input.fragment ++ read),
        frames := w.frames ++ framesTaken (fun index => answers (w.frames.length + index))
          wsMaxFramesPerRead { w.input with fragment := w.input.fragment ++ read, taken := 0 }
          (w.input.fragment ++ read),
        last := framesTaken (fun index => answers (w.frames.length + index))
          wsMaxFramesPerRead { w.input with fragment := w.input.fragment ++ read, taken := 0 }
          (w.input.fragment ++ read) } := by
  have hlimit := hroom h
  have hopen : ¬w.input.failed = true := by rw [h]; exact Bool.false_ne_true
  unfold watchedStep inputStep websocketProcessInput inputFrames
  dsimp only
  rw [if_neg hopen, if_neg hopen, if_neg (by omega), if_neg (by omega)]

theorem Stands.step (h : Stands answers first stream (read ++ unread) w q) (hroom : Roomy w read) :
    ∃ q', Stands answers first stream unread (watchedStep answers w read) q' := by
  obtain ⟨hsteps, hframes, hcame, hstopped, hkept⟩ := h
  cases hfailed : w.input.failed with
  | true =>
      rw [watchedStep_failed hfailed]
      refine ⟨q, hsteps, hframes, hcame.imp_left fun hopen => ?_, hstopped, hkept⟩
      cases hfailed.symm.trans hopen.1
  | false =>
      rcases hcame with ⟨-, hstate, hrest⟩ | ⟨hopen, -⟩
      swap
      · cases hfailed.symm.trans hopen
      rw [watchedStep_open hfailed hroom]
      obtain ⟨q', hsteps', hframes', hcame', hstopped', hkept'⟩ :=
        processFrames_comes answers (fun index => answers (w.frames.length + index)) unread
          wsMaxFramesPerRead { w.input with fragment := w.input.fragment ++ read, taken := 0 }
          (w.input.fragment ++ read) w.frames hfailed (fun index => by rw [Nat.zero_add])
      have hpoint : q = ⟨w.input.core, w.input.fragment ++ read ++ unread, w.frames⟩ := by
        rw [← hstate, List.append_assoc, ← hrest, ← hframes]
      have hbytes := hsteps.grows.2.2
      refine ⟨q', hsteps.trans (hpoint ▸ hsteps'), hframes', hcame', hstopped',
        fun hend => ⟨w.frames, rfl, ?_⟩⟩
      rw [hkept' hend]
      rw [hpoint, List.flatMap_nil, List.nil_append] at hbytes
      dsimp only at hbytes ⊢
      rw [← hbytes]
      exact (List.prefix_append_right_inj _).mpr (List.prefix_append ..)

theorem Stands.run (reads : List Bytes) : ∀ {w : Watched} {q : Point},
    Stands answers first stream reads.flatten w q → Along (watchedStep answers) Roomy w reads →
    ∃ q', Stands answers first stream [] (run (watchedStep answers) w reads) q' := by
  induction reads with
  | nil => intro w q h _; exact ⟨q, h⟩
  | cons read reads ih =>
      intro w q h hroom
      rw [List.flatten_cons] at h
      obtain ⟨q', h'⟩ := h.step hroom.1
      exact ih h' hroom.2

theorem start_stands (answers : Nat → SendAnswers) (stream : Bytes) (output : Descriptor)
    (pingOutstanding : Bool) :
    Stands answers { output, pingOutstanding } stream stream
      { input := { output, pingOutstanding } } ⟨{ output, pingOutstanding }, stream, []⟩ :=
  ⟨.refl, rfl, .inl ⟨rfl, rfl, rfl⟩, fun _ => .inr rfl, nofun⟩

theorem Stands.keeps (h : Stands answers first stream [] w q) : Keeps stream w := by
  refine ⟨fun hopen => ?_, h.kept⟩
  have hbytes := h.start.grows.2.2
  rcases h.came with ⟨-, -, hrest⟩ | ⟨hfailed, -⟩
  · rw [hrest, h.frames, List.append_nil] at hbytes
    exact hbytes
  · cases hopen.symm.trans hfailed

/-! ## Two runs over one stream -/

/-- One run has come as far as another or less far: what it delivered and the frames it
took are a beginning. Where it gave the connection up, so did the other, on the same frame;
where the other did, it did as well, or a read stopped it short of that frame. -/
structure Behind (a b : Watched) : Prop where
  delivered : a.input.delivered <+: b.input.delivered
  taken : a.taken <+: b.taken
  gaveUp : a.input.failed = true → b.input.failed = true ∧ a.taken = b.taken ∧
    a.input.errorCode = b.input.errorCode
  stopped : b.input.failed = true → a.input.failed = true ∨ a.StoppedShort

theorem CameTo.delivered (h : CameTo answers unread q w.input) :
    w.input.delivered = q.state.delivered := by
  rcases h with ⟨-, hstate, -⟩ | ⟨-, hrefused⟩
  · rw [hstate]
    rfl
  · obtain ⟨s, hrefused, hcore⟩ := NextFrame.core_eq_refused hrefused
    rw [← (nextFrame_refused hrefused).2.2]
    show w.input.core.delivered = s.core.delivered
    rw [hcore]

theorem CameTo.refuses {s : InputState} (h : CameTo answers unread q s)
    (hfailed : s.failed = true) : q.next answers = .refused s.core := by
  rcases h with ⟨hopen, -⟩ | ⟨-, hrefused⟩
  · cases hopen.symm.trans hfailed
  · exact hrefused

theorem FrameSteps.stuck {p : Point} (h : FrameSteps answers p q)
    (hnext : ∀ frame s rest, p.next answers ≠ .took frame s rest) : p = q := by
  rcases h.cases_head with hsame | ⟨r, ⟨frame, hstep, -⟩, -⟩
  · exact hsame
  · exact absurd hstep (hnext frame _ _)

theorem Stands.behind {a b : Watched} {p : Point} (ha : Stands answers first stream [] a p)
    (hb : Stands answers first stream [] b q) (hsteps : FrameSteps answers p q)
    (hopen : a.input.failed = true → b.input.failed = true) :
    Behind a b ∧ a.frames <+: b.frames := by
  obtain ⟨hdelivered, hframes, -⟩ := hsteps.grows
  rw [ha.frames, hb.frames] at hframes
  rw [← ha.came.delivered, ← hb.came.delivered] at hdelivered
  refine ⟨⟨hdelivered, hframes.map _, fun hfailed => ?_, fun hfailed => ?_⟩, hframes⟩
  · have hfailed' := hopen hfailed
    have hp := ha.came.refuses hfailed
    have hq := hb.came.refuses hfailed'
    have hsame : p = q := hsteps.stuck (by rw [hp]; exact fun _ _ _ => NextFrame.noConfusion)
    rw [← hsame, hp] at hq
    refine ⟨hfailed', ?_, ?_⟩
    · unfold Watched.taken
      rw [← ha.frames, ← hb.frames, hsame]
    · show a.input.core.errorCode = b.input.core.errorCode
      rw [NextFrame.refused.inj hq]
  · cases hopen' : a.input.failed with
    | true => exact .inl rfl
    | false =>
        right
        have hwaits : decodeFrame a.input.fragment ≠ .incomplete := by
          intro hwaits
          rcases ha.came with ⟨-, -, hrest⟩ | ⟨hgone, -⟩
          · rw [List.append_nil] at hrest
            have hp : p.next answers = .waits := by
              unfold Point.next
              rw [hrest, nextFrame_waits.mpr hwaits]
              rfl
            have hsame : p = q :=
              hsteps.stuck (by rw [hp]; exact fun _ _ _ => NextFrame.noConfusion)
            have hq := hb.came.refuses hfailed
            rw [← hsame, hp] at hq
            cases hq
          · cases hopen'.symm.trans hgone
        exact ⟨(ha.stopped hopen').resolve_right hwaits, hwaits⟩

/-- Of two runs over one stream, whose replies are answered alike, one is behind the other. -/
theorem Stands.comparable {a b : Watched} {p : Point} (ha : Stands answers first stream [] a p)
    (hb : Stands answers first stream [] b q) :
    (Behind a b ∧ a.frames <+: b.frames) ∨ (Behind b a ∧ b.frames <+: a.frames) := by
  have hturn : ∀ {a b : Watched} {p q : Point}, Stands answers first stream [] a p →
      Stands answers first stream [] b q → FrameSteps answers p q →
      (Behind a b ∧ a.frames <+: b.frames) ∨ (Behind b a ∧ b.frames <+: a.frames) := by
    intro a b p q ha hb hsteps
    by_cases hopen : a.input.failed = true → b.input.failed = true
    · exact .inl (ha.behind hb hsteps hopen)
    · -- the one that gave up is at the same frame, and the other has not looked at it
      obtain ⟨hfailed, hopen⟩ := Classical.not_imp.mp hopen
      have hsame : p = q := hsteps.stuck (by
        rw [ha.came.refuses hfailed]
        exact fun _ _ _ => NextFrame.noConfusion)
      exact .inr (hb.behind ha (hsame ▸ .refl) fun hgone => absurd hgone hopen)
  rcases ha.start.total_of_right_unique (frameStep_rightUnique answers) hb.start with
    hsteps | hsteps
  · exact hturn ha hb hsteps
  · exact (hturn hb ha hsteps).symm

/-! ## Replies that are answered otherwise -/

def TakenFrame.bare (frame : TakenFrame) : TakenFrame := { frame with action := none }

def Watched.bare (w : Watched) : Watched :=
  { input := w.input.data, frames := w.frames.map TakenFrame.bare,
    last := w.last.map TakenFrame.bare }

theorem processFrames_data (answers others : Nat → SendAnswers) (budget : Nat) :
    ∀ (s t : InputState) (rest : Bytes), s.data = t.data →
    (processFrames answers budget s rest).data = (processFrames others budget t rest).data ∧
      (framesTaken answers budget s rest).map TakenFrame.bare =
        (framesTaken others budget t rest).map TakenFrame.bare := by
  induction budget with
  | zero =>
      intro s t rest h
      exact ⟨congrArg (fun s : InputState => { s with fragment := rest }) h, rfl⟩
  | succ budget ih =>
      intro s t rest h
      have hnext := nextFrame_data h (answers s.taken) (others t.taken) rest
      rw [processFrames_succ, processFrames_succ, framesTaken, framesTaken]
      cases hs : nextFrame (answers s.taken) s rest with
      | waits =>
          rw [hs] at hnext
          cases ht : nextFrame (others t.taken) t rest <;> rw [ht] at hnext <;> cases hnext
          exact ⟨congrArg (fun s : InputState => { s with fragment := rest }) h, rfl⟩
      | refused s' =>
          rw [hs] at hnext
          cases ht : nextFrame (others t.taken) t rest with
          | refused t' =>
              rw [ht] at hnext
              exact ⟨NextFrame.refused.inj hnext, rfl⟩
          | waits | took => rw [ht] at hnext; cases hnext
      | took frame s' rest' =>
          rw [hs] at hnext
          cases ht : nextFrame (others t.taken) t rest with
          | waits | refused => rw [ht] at hnext; cases hnext
          | took frame' t' rest'' =>
              rw [ht] at hnext
              obtain ⟨hframe, hstate, rfl⟩ := NextFrame.took.inj hnext
              have hopcode : frame.opcode = frame'.opcode :=
                show frame.bare.opcode = frame'.bare.opcode from congrArg (·.opcode) hframe
              dsimp only
              rw [hopcode]
              split
              · exact ⟨congrArg (fun s : InputState => { s with fragment := rest' }) hstate,
                  congrArg (fun frame => [frame]) hframe⟩
              · obtain ⟨hdata, htaken⟩ := ih s' t' rest' hstate
                exact ⟨hdata, congrArg₂ List.cons hframe htaken⟩

theorem watchedStep_bare (answers others : Nat → SendAnswers) {w v : Watched} (h : w.bare = v.bare)
    (hroom : Roomy w read) :
    (watchedStep answers w read).bare = (watchedStep others v read).bare ∧ Roomy v read := by
  have hdata : w.input.data = v.input.data := congrArg Watched.input h
  have hframes : w.frames.map TakenFrame.bare = v.frames.map TakenFrame.bare :=
    congrArg Watched.frames h
  have hfailed : w.input.failed = v.input.failed :=
    show w.input.data.failed = v.input.data.failed by rw [hdata]
  have hfragment : w.input.fragment = v.input.fragment :=
    show w.input.data.fragment = v.input.data.fragment by rw [hdata]
  have hroom' : Roomy v read := by
    unfold Roomy at hroom ⊢
    rwa [← hfailed, ← hfragment]
  refine ⟨?_, hroom'⟩
  cases hend : w.input.failed with
  | true => rw [watchedStep_failed hend, watchedStep_failed (hfailed ▸ hend), h]
  | false =>
      rw [watchedStep_open hend hroom, watchedStep_open (hfailed ▸ hend) hroom', ← hfragment]
      obtain ⟨hinput, htaken⟩ := processFrames_data
        (fun index => answers (w.frames.length + index))
        (fun index => others (v.frames.length + index)) wsMaxFramesPerRead
        { w.input with fragment := w.input.fragment ++ read, taken := 0 }
        { v.input with fragment := w.input.fragment ++ read, taken := 0 }
        (w.input.fragment ++ read)
        (congrArg (fun s : InputState =>
          { s with fragment := w.input.fragment ++ read, taken := 0 })
          hdata)
      unfold Watched.bare
      rw [hinput, List.map_append, List.map_append, htaken, hframes]

theorem run_bare (answers others : Nat → SendAnswers) (reads : List Bytes) :
    ∀ {w v : Watched}, w.bare = v.bare →
    Along (watchedStep answers) Roomy w reads →
    (run (watchedStep answers) w reads).bare = (run (watchedStep others) v reads).bare ∧
      Along (watchedStep others) Roomy v reads := by
  induction reads with
  | nil => intro w v h _; exact ⟨h, trivial⟩
  | cons read reads ih =>
      intro w v h hroom
      obtain ⟨hstep, hfirst⟩ := watchedStep_bare answers others h hroom.1
      obtain ⟨hrun, hlater⟩ := ih hstep hroom.2
      exact ⟨hrun, hfirst, hlater⟩

theorem taken_bare (w : Watched) : w.bare.taken = w.taken := List.map_map

theorem stoppedShort_bare (w : Watched) : w.bare.StoppedShort ↔ w.StoppedShort := by
  have hlast : (∃ frame, w.bare.last.getLast? = some frame ∧ frame.opcode = wsOpcodeClose) ↔
      ∃ frame, w.last.getLast? = some frame ∧ frame.opcode = wsOpcodeClose := by
    show (∃ frame, (w.last.map TakenFrame.bare).getLast? = some frame ∧ _) ↔ _
    rw [List.getLast?_map]
    cases w.last.getLast? <;> simp [TakenFrame.bare]
  unfold Watched.StoppedShort
  rw [hlast, show w.bare.last.length = w.last.length from List.length_map ..]
  rfl

theorem behind_bare {a b : Watched} : Behind a.bare b.bare ↔ Behind a b := by
  constructor
  · intro h
    have htaken := h.taken
    have hgaveUp := h.gaveUp
    rw [taken_bare, taken_bare] at htaken hgaveUp
    exact ⟨h.delivered, htaken, hgaveUp, fun hfailed =>
      (h.stopped hfailed).imp_right (stoppedShort_bare a).mp⟩
  · intro h
    have htaken := h.taken
    have hgaveUp := h.gaveUp
    rw [← taken_bare, ← taken_bare b] at htaken hgaveUp
    exact ⟨h.delivered, htaken, hgaveUp, fun hfailed =>
      (h.stopped hfailed).imp_right (stoppedShort_bare a).mpr⟩

/-- For every stream and any two ways of cutting it, whose reads leave no more bytes waiting
than may wait: the buffer keeps the rest of the stream, and of the two runs one is behind
the other in what it delivered, in the frames it took, and, the replies being answered
alike, in what control frames made it do. A run gives the connection up only if the other
does so on the same frame or was stopped short of that frame, by the number of frames a
read may take or by a close frame. -/
theorem input_unsegmented (output : Descriptor) (pingOutstanding : Bool)
    (answers others : Nat → SendAnswers) (reads cuts : List Bytes)
    (hstream : reads.flatten = cuts.flatten)
    (hreads : Along (watchedStep answers) Roomy { input := { output, pingOutstanding } } reads)
    (hcuts : Along (watchedStep others) Roomy { input := { output, pingOutstanding } } cuts) :
    let a := run (watchedStep answers) { input := { output, pingOutstanding } } reads
    let b := run (watchedStep others) { input := { output, pingOutstanding } } cuts
    Keeps reads.flatten a ∧ Keeps cuts.flatten b ∧
      ((Behind a b ∧ (answers = others → a.actions <+: b.actions)) ∨
        (Behind b a ∧ (answers = others → b.actions <+: a.actions))) := by
  intro a b
  obtain ⟨p, ha⟩ := (start_stands answers reads.flatten output pingOutstanding).run reads hreads
  obtain ⟨hbare, htwin⟩ := run_bare answers others reads rfl hreads
  obtain ⟨p', ha'⟩ := (start_stands others reads.flatten output pingOutstanding).run reads htwin
  obtain ⟨q, hb⟩ := (start_stands others cuts.flatten output pingOutstanding).run cuts hcuts
  refine ⟨ha.keeps, hb.keeps, ?_⟩
  rw [hstream] at ha'
  rcases ha'.comparable hb with ⟨hbehind, hframes⟩ | ⟨hbehind, hframes⟩
  · refine .inl ⟨?_, fun hsame => ?_⟩
    · rw [← behind_bare, ← hbare] at hbehind
      exact behind_bare.mp hbehind
    · subst hsame
      exact hframes.filterMap _
  · refine .inr ⟨?_, fun hsame => ?_⟩
    · rw [← behind_bare, ← hbare] at hbehind
      exact behind_bare.mp hbehind
    · subst hsame
      exact hframes.filterMap _

end Runs

/-- An empty pong, and the beginning of a frame that no one may send. -/
def emptyPong : Bytes := [0x8a, 0x80, 0, 0, 0, 0]
def reservedFrame : Bytes := [0x83, 0x80]

/-- The text `hi` under the zero mask, and the pong to a ping that went out before. -/
def greeting : Bytes := [0x81, 0x82, 0, 0, 0, 0, 104, 105] ++ emptyPong

/-- The text and the pong, cut in the header of each and at once. -/
theorem input_unsegmented_greeting :
    let a := run (watchedStep fun _ => {}) { input := { pingOutstanding := true } }
      [greeting.take 1, (greeting.drop 1).take 8, greeting.drop 9]
    let b := run (watchedStep fun _ => {}) { input := { pingOutstanding := true } } [greeting]
    a.input.delivered = [(wsOpcodeText, [104, 105])] ∧ a.actions = [.pongReceived] ∧
      Keeps greeting a ∧ Keeps greeting b ∧
      ((Behind a b ∧ a.actions <+: b.actions) ∨ (Behind b a ∧ b.actions <+: a.actions)) := by
  obtain ⟨hleft, hright, hcomparable⟩ := input_unsegmented {} true (fun _ => {}) (fun _ => {})
    [greeting.take 1, (greeting.drop 1).take 8, greeting.drop 9] [greeting] rfl
    ⟨fun _ => by decide, fun _ => by decide, fun _ => by decide, trivial⟩
    ⟨fun _ => by decide, trivial⟩
  exact ⟨by decide +kernel, by decide +kernel, hleft, hright,
    hcomparable.imp (.imp_right fun h => h rfl) (.imp_right fun h => h rfl)⟩

/-- As many frames as a read may take, and one behind them that is refused: in one read it
is not looked at, in two it is. -/
theorem full_read_hides_error :
    let pongs := (List.replicate wsMaxFramesPerRead emptyPong).flatten
    [pongs ++ reservedFrame].flatten = [pongs, reservedFrame].flatten ∧
    Along (watchedStep fun _ => {}) Roomy { input := {} } [pongs ++ reservedFrame] ∧
    Along (watchedStep fun _ => {}) Roomy { input := {} } [pongs, reservedFrame] ∧
    (run (watchedStep fun _ => {}) { input := {} } [pongs ++ reservedFrame]).input.failed = false ∧
    (run (watchedStep fun _ => {}) { input := {} } [pongs, reservedFrame]).input.failed = true := by
  refine ⟨by simp, ⟨fun _ => ?_, trivial⟩, ⟨fun _ => ?_, fun _ => ?_, trivial⟩, ?_, ?_⟩
  all_goals decide +kernel

end Duris.Net
