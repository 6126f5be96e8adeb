import Duris.Net.ClientFrame
import Duris.Proofs.Unicode

/-!
# Messages from fragments

The bytes that have arrived are the beginning of the client's frames, so what the parser
looks at is the beginning of one frame or that frame in full (`decodeFrame_eq`): it waits,
or takes the frame off, and never finds fault with it.

What the server has put together agrees with what the client sent so far as long as the
message buffer tells an unfinished message from none. It does not when the first fragment
was empty, for the buffer of an empty payload is the null pointer: the next fragment is
taken for a continuation of nothing. No other frame is refused.
-/

namespace Duris.Net

/-! ## Taking a frame apart -/

section Decode

variable {buf whole : Bytes} {frame : ClientFrame} {rest : Bytes}

theorem getD_of_isPrefix (h : buf <+: whole) {index : Nat} (hlt : index < buf.length) :
    buf.getD index 0 = whole.getD index 0 := by
  obtain ⟨more, rfl⟩ := h
  rw [List.getD_eq_getElem?_getD, List.getD_eq_getElem?_getD, List.getElem?_append_left hlt]

theorem slice_of_isPrefix (h : buf <+: whole) {start size : Nat} (hle : start + size ≤ buf.length) :
    (buf.drop start).take size = (whole.drop start).take size := by
  obtain ⟨more, rfl⟩ := h
  rw [List.drop_append_of_le_length (by omega), List.take_append_of_le_length]
  rw [List.length_drop]
  omega

@[simp] theorem unmask_length (key payload : Bytes) :
    (unmask key payload).length = payload.length :=
  List.length_mapIdx

theorem unmask_unmask (key payload : Bytes) : unmask key (unmask key payload) = payload := by
  unfold unmask
  rw [List.mapIdx_mapIdx]
  refine (List.mapIdx_eq_iff.mpr fun index => ?_)
  rw [Option.map_congr (g := id) ?_, Option.map_id, id]
  intro byte _
  show byte ^^^ _ ^^^ _ = byte
  rw [UInt8.xor_assoc, UInt8.xor_self, UInt8.xor_zero]

/-- Where the masking key stands. -/
def headerLength (length : Nat) : Nat :=
  if length ≤ 125 then 2 else if length ≤ 65535 then 4 else 10

theorem lengthBytes_length (length : Nat) :
    (ClientFrame.lengthBytes length).length + 1 = headerLength length := by
  unfold ClientFrame.lengthBytes headerLength
  split
  · rfl
  · split
    · rw [List.length_cons, beBytes_length]
    · rw [List.length_cons, beBytes_length]

theorem encode_length (frame : ClientFrame) :
    frame.encode.length = headerLength frame.payload.length + 4 + frame.payload.length := by
  have hheader := lengthBytes_length frame.payload.length
  unfold ClientFrame.encode
  simp only [List.length_cons, List.length_append, Vector.length_toList, unmask_length]
  omega

theorem short_byte : ∀ length : Fin 126,
    ((0x80 ||| UInt8.ofNat length) &&& 0x7f).toNat = length ∧
      (0x80 ||| UInt8.ofNat length) &&& 0x80 ≠ 0 := by
  decide +kernel

theorem parseLength_eq (hlength : frame.payload.length ≤ wsMaxFrameSize)
    (h : buf <+: frame.encode ++ rest) (htwo : 2 ≤ buf.length) :
    parseLength buf =
        (if buf.length < headerLength frame.payload.length then .error .incomplete
        else .ok (frame.payload.length, headerLength frame.payload.length)) ∧
      buf.getD 1 0 &&& 0x80 ≠ 0 := by
  have hsecond := getD_of_isPrefix h (by omega : 1 < buf.length)
  unfold wsMaxFrameSize at hlength
  unfold parseLength
  rw [hsecond]
  unfold headerLength
  by_cases hshort : frame.payload.length ≤ 125
  · have hbyte : (frame.encode ++ rest).getD 1 0 = 0x80 ||| UInt8.ofNat frame.payload.length := by
      unfold ClientFrame.encode ClientFrame.lengthBytes
      rw [if_pos hshort]
      rfl
    obtain ⟨hvalue, hmasked⟩ := short_byte ⟨frame.payload.length, by omega⟩
    rw [hbyte]
    refine ⟨?_, hmasked⟩
    rw [hvalue, if_neg (by omega), if_neg (by omega), if_neg (by unfold wsMaxFrameSize; omega),
      if_pos hshort, if_neg (by omega)]
  · rw [if_neg hshort]
    by_cases hmiddle : frame.payload.length ≤ 65535
    · have hheader : ∃ more, frame.encode ++ rest =
          frame.firstByte :: (0x80 ||| 126) :: (beBytes 2 frame.payload.length ++ more) := by
        unfold ClientFrame.encode ClientFrame.lengthBytes
        rw [if_neg hshort, if_pos hmiddle]
        simp only [List.cons_append, List.append_assoc, List.cons.injEq, true_and,
          List.append_cancel_left_eq]
        exact ⟨_, rfl⟩
      obtain ⟨more, hheader⟩ := hheader
      have hbyte : (frame.encode ++ rest).getD 1 0 = 0x80 ||| 126 := by
        rw [hheader]
        rfl
      rw [hbyte]
      refine ⟨?_, by decide⟩
      rw [if_pos (by decide), if_pos hmiddle]
      split
      · rfl
      · next hfour =>
          have hbytes := slice_of_isPrefix h (by omega : 2 + 2 ≤ buf.length)
          rw [hheader] at hbytes
          rw [hbytes]
          show Except.ok (beNat ((beBytes 2 _ ++ more).take 2), 4) = _
          rw [List.take_left' (beBytes_length ..), beNat_beBytes, Nat.mod_eq_of_lt (by omega)]
    · have hheader : ∃ more, frame.encode ++ rest =
          frame.firstByte :: (0x80 ||| 127) :: (beBytes 8 frame.payload.length ++ more) := by
        unfold ClientFrame.encode ClientFrame.lengthBytes
        rw [if_neg hshort, if_neg hmiddle]
        simp only [List.cons_append, List.append_assoc, List.cons.injEq, true_and,
          List.append_cancel_left_eq]
        exact ⟨_, rfl⟩
      obtain ⟨more, hheader⟩ := hheader
      have hbyte : (frame.encode ++ rest).getD 1 0 = 0x80 ||| 127 := by
        rw [hheader]
        rfl
      rw [hbyte]
      refine ⟨?_, by decide⟩
      rw [if_neg (by decide), if_pos (by decide), if_neg hmiddle]
      split
      · rfl
      · next hten =>
          have hbytes := slice_of_isPrefix h (by omega : 2 + 8 ≤ buf.length)
          rw [hheader] at hbytes
          have hvalue : beNat ((buf.drop 2).take 8) = frame.payload.length := by
            rw [hbytes]
            show beNat ((beBytes 8 _ ++ more).take 8) = _
            rw [List.take_left' (beBytes_length ..), beNat_beBytes, Nat.mod_eq_of_lt (by omega)]
          rw [hvalue, if_neg (by unfold wsMaxFrameSize; omega)]

theorem firstByte_spec (hopcode : frame.opcode ∈ knownOpcodes) :
    (frame.firstByte &&& 0x0f).toNat = frame.opcode ∧ frame.firstByte &&& 0x30 = 0 ∧
      frame.firstByte &&& 0x40 = 0 ∧ (frame.firstByte &&& 0x80 != 0) = frame.fin := by
  have hall : ∀ fin : Bool, ∀ opcode ∈ knownOpcodes,
      (((if fin then 0x80 else 0) ||| UInt8.ofNat opcode) &&& 0x0f).toNat = opcode ∧
      ((if fin then 0x80 else 0) ||| UInt8.ofNat opcode) &&& 0x30 = 0 ∧
      ((if fin then 0x80 else 0) ||| UInt8.ofNat opcode) &&& 0x40 = 0 ∧
      (((if fin then 0x80 else 0) ||| UInt8.ofNat opcode) &&& 0x80 != 0) = fin := by
    decide
  exact hall frame.fin frame.opcode hopcode

theorem closeCode_valid {code : Nat} (h : ClientFrame.closeCodes code) :
    websocketValidCloseCode code = true ∧ code < 256 ^ 2 := by
  unfold ClientFrame.closeCodes at h
  simp only [websocketValidCloseCode, Bool.and_eq_true, decide_eq_true_eq, bne_iff_ne,
    Bool.not_eq_true', Bool.and_eq_false_imp, decide_eq_false_iff_not]
  omega

theorem closeError_body {payload : Bytes} (h : ClientFrame.CloseBody payload)
    (hsome : payload ≠ []) : closeError payload = none := by
  rcases h with hnil | ⟨code, text, hcode, rfl⟩
  · exact absurd hnil hsome
  · obtain ⟨hvalid, hlt⟩ := closeCode_valid hcode
    unfold closeError
    rw [if_neg (by rw [List.length_append, beBytes_length]; omega),
      List.take_left' (beBytes_length ..), beNat_beBytes, Nat.mod_eq_of_lt hlt, hvalid,
      if_neg (by simp), List.drop_left' (beBytes_length ..),
      (websocketValidUtf8_iff _).mpr ⟨text, rfl⟩, if_neg (by simp)]

/-- The pointer to a payload: null when it is empty. -/
def pointerTo (payload : Bytes) : Option Bytes := if payload = [] then none else some payload

@[simp] theorem pointerTo_getD (payload : Bytes) : (pointerTo payload).getD [] = payload := by
  unfold pointerTo
  split
  · next hnil => rw [hnil]; rfl
  · rfl

theorem encode_drop (frame : ClientFrame) (rest : Bytes) :
    (frame.encode ++ rest).drop (headerLength frame.payload.length) =
      frame.key.toList ++ (unmask frame.key.toList frame.payload ++ rest) := by
  have hheader := lengthBytes_length frame.payload.length
  unfold ClientFrame.encode
  rw [← hheader, List.cons_append, List.drop_succ_cons, List.append_assoc, List.append_assoc,
    List.drop_left]

/-- The beginning of a frame is waited on, and a frame that has arrived is taken off. -/
theorem decodeFrame_eq (hframe : frame.WellFormed) (h : buf <+: frame.encode ++ rest) :
    decodeFrame buf = if buf.length < frame.encode.length then .incomplete
      else .frame frame.encode.length (pointerTo frame.payload) frame.opcode frame.fin := by
  have hsize := encode_length frame
  unfold decodeFrame
  by_cases htwo : buf.length < 2
  · rw [if_pos htwo, if_pos (by omega)]
  · rw [if_neg htwo]
    have hfirst : buf.getD 0 0 = frame.firstByte := getD_of_isPrefix h (by omega)
    obtain ⟨hopcode, hreserved, hrsv1, hfin⟩ := firstByte_spec hframe.opcode
    obtain ⟨hparsed, hmasked⟩ := parseLength_eq hframe.length h (by omega)
    rw [hfirst, hopcode, hfin, hreserved, hrsv1, if_neg (by simp),
      if_neg (not_not.mpr hframe.opcode),
      hparsed]
    by_cases hshort : buf.length < headerLength frame.payload.length
    · rw [if_pos hshort, if_pos (by omega)]
    · rw [if_neg hshort]
      dsimp only
      have hcontrol : ¬ (wsOpcodeClose ≤ frame.opcode ∧
          (frame.fin = false ∨ 125 < frame.payload.length)) := by
        rintro ⟨hclose, hbad⟩
        obtain ⟨hfinal, hlength⟩ := hframe.control (decide_eq_true hclose)
        rcases hbad with hbad | hbad
        · rw [hfinal] at hbad
          cases hbad
        · omega
      rw [if_neg hcontrol, if_neg hmasked]
      by_cases hpart : buf.length < frame.encode.length
      · rw [if_pos (by omega), if_pos hpart]
      · rw [if_neg (by omega), if_neg hpart]
        have hkey : (buf.drop (headerLength frame.payload.length)).take 4 = frame.key.toList := by
          rw [slice_of_isPrefix h (by omega), encode_drop, List.take_left' (by simp)]
        have hpayload : (buf.drop (headerLength frame.payload.length + 4)).take
            frame.payload.length = unmask frame.key.toList frame.payload := by
          rw [slice_of_isPrefix h (by omega), ← List.drop_drop, encode_drop,
            List.drop_left' (by simp), List.take_left' (unmask_length ..)]
        rw [hkey, hpayload, unmask_unmask]
        by_cases hnil : frame.payload = []
        · rw [if_pos (by rw [hnil]; rfl), hsize, hnil]
          rfl
        · rw [if_neg (by rwa [List.length_eq_zero_iff])]
          have hpointer : pointerTo frame.payload = some frame.payload := if_neg hnil
          rw [hpointer]
          split
          · next hclose =>
              rw [closeError_body (hframe.close hclose) hnil, ← hsize]
              rfl
          · rw [← hsize]

end Decode

/-! ## One frame -/

/-- The server has put together what the client sent. An unfinished message whose first
fragment was empty is the one it does not know of. -/
structure Agrees (s : InputState) (a : Assembly) : Prop where
  delivered : s.delivered = a.messages
  message : s.message = a.unfinished.bind fun message =>
    if message.startsEmpty then none else some message.bytes
  opcode : ∀ message, a.unfinished = some message → message.startsEmpty = false →
    s.messageOpcode = message.opcode

def SameInput (s s' : InputState) : Prop :=
  s'.delivered = s.delivered ∧ s'.message = s.message ∧ s'.messageOpcode = s.messageOpcode ∧
    s'.failed = s.failed

section Frame

variable {s s' : InputState} {a : Assembly} {frame : ClientFrame}

theorem SameInput.agrees (h : SameInput s s') (hagrees : Agrees s a) : Agrees s' a := by
  obtain ⟨hdelivered, hmessage, hopcode, -⟩ := h
  refine ⟨hdelivered.trans hagrees.delivered, hmessage.trans hagrees.message, ?_⟩
  rw [hopcode]
  exact hagrees.opcode

theorem websocketSendClose_same (s : InputState) (code : Nat) (reason : Option Bytes)
    (answers : SendAnswers) : SameInput s (websocketSendClose s code reason answers) := by
  unfold websocketSendClose
  split
  · exact ⟨rfl, rfl, rfl, rfl⟩
  · split <;> exact ⟨rfl, rfl, rfl, rfl⟩

theorem handleControl_same (s : InputState) (opcode : Nat) (payload : Option Bytes)
    (answers : SendAnswers) : SameInput s (handleControl s opcode payload answers) := by
  unfold handleControl
  split
  · split
    · split
      · exact websocketSendClose_same ..
      · exact websocketSendClose_same ..
    · exact ⟨rfl, rfl, rfl, rfl⟩
  · split
    · exact ⟨rfl, rfl, rfl, rfl⟩
    · split
      · split <;> exact ⟨rfl, rfl, rfl, rfl⟩
      · exact ⟨rfl, rfl, rfl, rfl⟩

theorem takeData_refused (hagrees : Agrees s a) (hbad : a.continuesEmpty frame = true) :
    takeData s frame.opcode frame.fin (pointerTo frame.payload) = .error none := by
  unfold Assembly.continuesEmpty at hbad
  rw [Bool.and_eq_true, beq_iff_eq, Option.any_eq_true] at hbad
  obtain ⟨hopcode, message, hunfinished, hempty⟩ := hbad
  have hnone : s.message = none := by
    rw [hagrees.message, hunfinished]
    exact if_pos hempty
  unfold takeData
  rw [if_pos hopcode, hnone]

theorem takeData_taken (hagrees : Agrees s a) (hallowed : a.Allowed frame)
    (hdata : frame.isControl = false) (hgood : a.continuesEmpty frame = false) :
    ∃ s', takeData s frame.opcode frame.fin (pointerTo frame.payload) = .ok s' ∧
      Agrees s' (a.step frame) ∧ s'.failed = s.failed ∧ s'.taken = s.taken := by
  have hlength := hallowed.wellFormed.length
  unfold takeData Assembly.step
  rw [hdata, if_neg (by simp : ¬ false = true), pointerTo_getD]
  by_cases hopcode : frame.opcode = wsOpcodeContinuation
  · obtain ⟨message, hunfinished, hlimit⟩ := hallowed.continues hopcode
    have hstart : message.startsEmpty = false := by
      unfold Assembly.continuesEmpty at hgood
      rw [hopcode, beq_self_eq_true, Bool.true_and, hunfinished, Option.any_some] at hgood
      exact hgood
    have hsome : s.message = some message.bytes := by
      rw [hagrees.message, hunfinished]
      exact if_neg (by rw [hstart]; decide)
    have hmessageOpcode := hagrees.opcode message hunfinished hstart
    rw [if_pos hopcode, if_pos hopcode, hsome, hunfinished]
    dsimp only
    rw [if_neg (by omega)]
    unfold Assembly.add
    cases frame.fin with
    | true =>
        refine ⟨_, rfl, ⟨?_, rfl, nofun⟩, rfl, rfl⟩
        show s.delivered ++ [(s.messageOpcode, _)] = a.messages ++ _
        rw [hagrees.delivered, hmessageOpcode]
    | false =>
        refine ⟨_, rfl, ⟨hagrees.delivered, ?_, ?_⟩, rfl, rfl⟩
        · show some _ = if message.startsEmpty then none else some _
          rw [hstart]
          rfl
        · intro later hlater _
          rw [← Option.some.inj hlater]
          exact hmessageOpcode
  · have hnone := hallowed.starts hdata hopcode
    have hmessage : s.message = none := by
      rw [hagrees.message, hnone]
      rfl
    rw [if_neg hopcode, if_neg hopcode, hmessage, if_neg (by simp)]
    unfold Assembly.add
    cases frame.fin with
    | true =>
        refine ⟨_, rfl, ⟨?_, ?_, nofun⟩, rfl, rfl⟩
        · show s.delivered ++ _ = a.messages ++ _
          rw [hagrees.delivered]
        · show s.message = none
          exact hmessage
    | false =>
        have hlimit : wsMaxFrameSize ≤ wsMaxMessageSize := by decide
        rw [if_neg (by simp), if_neg (by omega)]
        refine ⟨_, rfl, ⟨hagrees.delivered, ?_, ?_⟩, rfl, rfl⟩
        · show pointerTo frame.payload = if frame.payload.isEmpty then none else some _
          unfold pointerTo
          simp only [List.isEmpty_iff]
        · intro message hmessage _
          rw [← Option.some.inj hmessage]

end Frame

/-! ## The loop -/

/-- No frame continues a message whose first fragment was empty. -/
def NoEmptyStart (a : Assembly) (frames : List ClientFrame) : Prop :=
  Along Assembly.step (fun a frame => a.continuesEmpty frame = false) a frames

section Loop

variable {s : InputState} {a : Assembly} {frames : List ClientFrame} {rest : Bytes}

theorem encodeAll_cons (frame : ClientFrame) (frames : List ClientFrame) :
    encodeAll (frame :: frames) = frame.encode ++ encodeAll frames := List.flatMap_cons

theorem encodeAll_append (frames others : List ClientFrame) :
    encodeAll (frames ++ others) = encodeAll frames ++ encodeAll others := List.flatMap_append

/-- What the loop leaves: it came to a frame that continues an empty start, or it took
some frames, as many as it may or all that are there. -/
def Processed (a : Assembly) (frames : List ClientFrame) (budget : Nat)
    (rest : Bytes) (s' : InputState) : Prop :=
  (s'.failed = true ∧ ¬ NoEmptyStart a frames) ∨
    s'.failed = false ∧ ∃ done, done <+: frames ∧ rest = encodeAll done ++ s'.fragment ∧
      NoEmptyStart a done ∧ Agrees s' (run Assembly.step a done) ∧
      (done.length = budget ∨ decodeFrame s'.fragment = .incomplete)

theorem processed_stop (hagrees : Agrees s a) (hopen : s.failed = false) {budget : Nat}
    (hstop : budget = 0 ∨ decodeFrame rest = .incomplete) :
    Processed a frames budget rest { s with fragment := rest } :=
  .inr ⟨hopen, [], List.nil_prefix, rfl, trivial,
    ⟨hagrees.delivered, hagrees.message, hagrees.opcode⟩, hstop.imp_left Eq.symm⟩

variable {frame : ClientFrame}

theorem Processed.cons {s' : InputState} {budget : Nat}
    (h : Processed (a.step frame) frames budget rest s') (hgood : a.continuesEmpty frame = false) :
    Processed a (frame :: frames) (budget + 1) (frame.encode ++ rest) s' := by
  rcases h with ⟨hfailed, hbad⟩ | ⟨hopen, done, hdone, hrest, hsound, hagrees, hend⟩
  · exact .inl ⟨hfailed, fun hall => hbad hall.2⟩
  · refine .inr ⟨hopen, frame :: done, ?_, ?_, ⟨hgood, hsound⟩, hagrees, ?_⟩
    · exact (List.prefix_append_right_inj [frame]).mpr hdone
    · rw [encodeAll_cons, List.append_assoc, ← hrest]
    · exact hend.imp_left (congrArg Nat.succ)

theorem isControl_iff :
    frame.isControl = true ↔ wsOpcodeClose ≤ frame.opcode := decide_eq_true_iff

theorem step_control (hcontrol : frame.isControl = true) (hagrees : Agrees s a) :
    Agrees s (a.step frame) ∧ a.continuesEmpty frame = false := by
  constructor
  · unfold Assembly.step
    rw [if_pos hcontrol]
    split
    · exact ⟨hagrees.delivered, hagrees.message, hagrees.opcode⟩
    · exact hagrees
  · unfold Assembly.continuesEmpty
    have hne : frame.opcode ≠ wsOpcodeContinuation := by
      intro hsame
      rw [isControl_iff, hsame] at hcontrol
      exact absurd hcontrol (by decide)
    rw [beq_false_of_ne hne, Bool.false_and]

theorem close_last (hclose : frame.opcode = wsOpcodeClose)
    (hallowed : Along Assembly.step Assembly.Allowed (a.step frame) frames) : frames = [] := by
  cases frames with
  | nil => rfl
  | cons next frames =>
      have hopen := hallowed.1.notClosed
      unfold Assembly.step at hopen
      rw [if_pos (isControl_iff.mpr (Nat.le_of_eq hclose.symm)), if_pos hclose] at hopen
      cases hopen

theorem processFrames_spec (answers : Nat → SendAnswers) (budget : Nat) :
    ∀ {s : InputState} {a : Assembly} {frames : List ClientFrame} {rest : Bytes},
    Agrees s a → s.failed = false → Along Assembly.step Assembly.Allowed a frames →
    rest <+: encodeAll frames →
    Processed a frames budget rest (processFrames answers budget s rest) := by
  induction budget with
  | zero =>
      intro s a frames rest hagrees hopen _ _
      exact processed_stop hagrees hopen (.inl rfl)
  | succ budget ih =>
      intro s a frames rest hagrees hopen hallowed hrest
      unfold processFrames
      split
      · next hnil => exact processed_stop hagrees hopen (.inr (by rw [hnil]; rfl))
      · next hsome =>
          cases frames with
          | nil => exact absurd (List.prefix_nil.mp hrest) hsome
          | cons frame frames =>
              obtain ⟨hframe, hlater⟩ := hallowed
              rw [encodeAll_cons] at hrest
              have hdecode := decodeFrame_eq hframe.wellFormed hrest
              by_cases hpart : rest.length < frame.encode.length
              · rw [if_pos hpart] at hdecode
                rw [hdecode]
                exact processed_stop hagrees hopen (.inr hdecode)
              · rw [if_neg hpart] at hdecode
                -- The frame has arrived in full.
                obtain ⟨more, rfl⟩ : frame.encode <+: rest :=
                  List.prefix_of_prefix_length_le (List.prefix_append _ _) hrest (by omega)
                have hmore := (List.prefix_append_right_inj _).mp hrest
                rw [hdecode]
                dsimp only
                rw [List.drop_left]
                have hreplied := handleControl_same s frame.opcode (pointerTo frame.payload)
                  (answers s.taken)
                generalize handleControl s frame.opcode (pointerTo frame.payload)
                  (answers s.taken) = answered at hreplied
                have hanswered : Agrees { answered with taken := s.taken + 1 } a :=
                  SameInput.agrees (s := s) ⟨hreplied.1, hreplied.2.1, hreplied.2.2.1,
                    hreplied.2.2.2⟩ hagrees
                have hansweredOpen : answered.failed = false := hreplied.2.2.2.trans hopen
                split
                · next hclose =>
                    have hcontrol := isControl_iff.mpr (Nat.le_of_eq hclose.symm)
                    obtain ⟨hstep, hgood⟩ := step_control hcontrol hanswered
                    have hnone := close_last hclose hlater
                    subst hnone
                    have hnil : more = [] := List.prefix_nil.mp hmore
                    refine Processed.cons (processed_stop hstep hansweredOpen ?_) hgood
                    exact .inr (by rw [hnil]; rfl)
                · split
                  · next hcontrol =>
                      obtain ⟨hstep, hgood⟩ := step_control (isControl_iff.mpr hcontrol) hanswered
                      exact Processed.cons (ih hstep hansweredOpen hlater hmore) hgood
                  · next hdata =>
                      have hnotControl : frame.isControl = false :=
                        decide_eq_false hdata
                      cases hgood : a.continuesEmpty frame with
                      | true =>
                          rw [takeData_refused hanswered hgood]
                          refine .inl ⟨rfl, fun hall => ?_⟩
                          have hfirst : a.continuesEmpty frame = false := hall.1
                          rw [hgood] at hfirst
                          cases hfirst
                      | false =>
                          obtain ⟨next, htaken, hnext, hnextOpen, -⟩ :=
                            takeData_taken hanswered hframe hnotControl hgood
                          rw [htaken]
                          exact Processed.cons
                            (ih hnext (hnextOpen.trans hansweredOpen) hlater hmore) hgood

end Loop

/-! ## Runs -/

/-- What the connection brought, with what the replies to it are answered in each call. -/
abbrev Read := Bytes × (Nat → SendAnswers)

def received (reads : List Read) : Bytes := reads.flatMap Prod.fst

/-- The bytes that wait for the rest of their frame, or for the next call, stay within the
limit on them. -/
def Fits (s : InputState) (read : Read) : Prop :=
  s.failed = false → s.fragment.length + read.1.length ≤ wsMaxBufferedBytes

/-- No call has failed. The messages handed over are those of the frames taken so far,
which are the first ones the client sent; the bytes behind them are kept, and hold no
frame in full unless the last call took as many as it may. -/
def Delivers (frames : List ClientFrame) (reads : List Read) (s : InputState) : Prop :=
  s.failed = false ∧ ∃ done, done <+: frames ∧ received reads = encodeAll done ++ s.fragment ∧
    s.delivered = messagesOf done ∧
    ((∃ earlier last, done = earlier ++ last ∧ last.length = wsMaxFramesPerRead) ∨
      decodeFrame s.fragment = .incomplete)

section Runs

variable {s : InputState} {a : Assembly} {frames : List ClientFrame}

theorem inputStep_failed (h : s.failed = true) (read : Read) : inputStep s read = s := if_pos h

theorem run_failed (h : s.failed = true) (reads : List Read) : run inputStep s reads = s := by
  induction reads with
  | nil => rfl
  | cons read reads ih => rw [run_cons, inputStep_failed h, ih]

theorem inputStep_spec {more : List ClientFrame} (hagrees : Agrees s a) (hopen : s.failed = false)
    (hallowed : Along Assembly.step Assembly.Allowed a more) {read : Read} (hfits : Fits s read)
    (hread : s.fragment ++ read.1 <+: encodeAll more) :
    Processed a more wsMaxFramesPerRead (s.fragment ++ read.1) (inputStep s read) := by
  have hlimit := hfits hopen
  unfold inputStep
  rw [if_neg (by rw [hopen]; decide)]
  unfold websocketProcessInput
  rw [if_neg (by omega)]
  exact processFrames_spec read.2 wsMaxFramesPerRead
    ⟨hagrees.delivered, hagrees.message, hagrees.opcode⟩ hopen hallowed hread

/-- Where a run has come to that received these bytes: a frame it refused, or behind the
first frames. -/
def Reached (frames : List ClientFrame) (bytes : Bytes) (s : InputState) : Prop :=
  (s.failed = true ∧ ¬ NoEmptyStart {} frames) ∨
    s.failed = false ∧ ∃ done, done <+: frames ∧ bytes = encodeAll done ++ s.fragment ∧
      NoEmptyStart {} done ∧ Agrees s (run Assembly.step {} done) ∧
      ((∃ earlier last, done = earlier ++ last ∧ last.length = wsMaxFramesPerRead) ∨
        decodeFrame s.fragment = .incomplete)

theorem NoEmptyStart.before {done more : List ClientFrame} (h : NoEmptyStart a (done ++ more)) :
    NoEmptyStart a done ∧ NoEmptyStart (run Assembly.step a done) more :=
  (along_append done more a).mp h

theorem Reached.step {bytes : Bytes} (h : Reached frames bytes s)
    (hallowed : Along Assembly.step Assembly.Allowed {} frames) {read : Read}
    (hfits : Fits s read) (hread : bytes ++ read.1 <+: encodeAll frames) :
    Reached frames (bytes ++ read.1) (inputStep s read) := by
  rcases h with ⟨hfailed, hbad⟩ | ⟨hopen, done, hdone, rfl, hsound, hagrees, -⟩
  · rw [inputStep_failed hfailed]
    exact .inl ⟨hfailed, hbad⟩
  · obtain ⟨more, rfl⟩ := hdone
    rw [encodeAll_append, List.append_assoc] at hread
    rcases inputStep_spec hagrees hopen ((along_append done more _).mp hallowed).2 hfits
      ((List.prefix_append_right_inj _).mp hread) with
      ⟨hfailed, hbad⟩ | ⟨hstill, later, hlater, hbytes, hsound', hagrees', hend⟩
    · exact .inl ⟨hfailed, fun hall => hbad hall.before.2⟩
    · refine .inr ⟨hstill, done ++ later, (List.prefix_append_right_inj _).mpr hlater, ?_,
        (along_append done later _).mpr ⟨hsound, hsound'⟩, ?_,
        hend.imp_left fun hfull => ⟨done, later, rfl, hfull⟩⟩
      · rw [encodeAll_append, List.append_assoc, List.append_assoc, hbytes]
      · rw [run_append]
        exact hagrees'

theorem Reached.run (hallowed : Along Assembly.step Assembly.Allowed {} frames)
    (reads : List Read) : ∀ {s : InputState} {bytes : Bytes}, Reached frames bytes s →
    Along inputStep Fits s reads → bytes ++ received reads <+: encodeAll frames →
    Reached frames (bytes ++ received reads) (run inputStep s reads) := by
  induction reads with
  | nil =>
      intro s bytes h _ _
      rw [received, List.flatMap_nil, List.append_nil]
      exact h
  | cons read reads ih =>
      intro s bytes h hfits hreads
      rw [received, List.flatMap_cons, ← List.append_assoc] at hreads ⊢
      refine ih (h.step hallowed hfits.1 ?_) hfits.2 hreads
      exact (List.prefix_append _ _).trans hreads

theorem start_reached (frames : List ClientFrame) (output : Descriptor) :
    Reached frames [] { output } :=
  .inr ⟨rfl, [], List.nil_prefix, rfl, trivial, ⟨rfl, rfl, nofun⟩, .inr rfl⟩

/-! ## One read a frame -/

def readsOf (frames : List ClientFrame) : List Read :=
  frames.map fun frame => (frame.encode, fun _ => {})

theorem received_readsOf (frames : List ClientFrame) :
    received (readsOf frames) = encodeAll frames :=
  List.flatMap_map ..

theorem encode_length_le {frame : ClientFrame} (h : frame.WellFormed) :
    frame.encode.length ≤ wsMaxBufferedBytes := by
  have hlength := h.length
  have hheader : headerLength frame.payload.length ≤ 10 := by
    unfold headerLength
    split
    · omega
    · split <;> omega
  rw [encode_length]
  unfold wsMaxFrameSize at hlength
  unfold wsMaxBufferedBytes
  omega

theorem readsOf_step (hagrees : Agrees s a) (hopen : s.failed = false) (hempty : s.fragment = [])
    {frame : ClientFrame} (hallowed : a.Allowed frame) :
    Fits s (frame.encode, fun _ => {}) ∧
      ((inputStep s (frame.encode, fun _ => {})).failed = true ∨
        (inputStep s (frame.encode, fun _ => {})).failed = false ∧
          (inputStep s (frame.encode, fun _ => {})).fragment = [] ∧
          a.continuesEmpty frame = false ∧
          Agrees (inputStep s (frame.encode, fun _ => {})) (a.step frame)) := by
  have hfits : Fits s (frame.encode, fun _ => {}) := by
    intro _
    rw [hempty]
    have := encode_length_le hallowed.wellFormed
    simpa using this
  refine ⟨hfits, ?_⟩
  have hread : s.fragment ++ frame.encode <+: encodeAll [frame] := by
    rw [hempty, encodeAll_cons]
    exact List.prefix_append _ _
  have hsingle : Along Assembly.step Assembly.Allowed a [frame] := ⟨hallowed, trivial⟩
  rcases inputStep_spec hagrees hopen hsingle hfits hread with
    ⟨hfailed, -⟩ | ⟨hstill, done, hdone, hbytes, hsound, hagrees', hend⟩
  · exact .inl hfailed
  · refine .inr ⟨hstill, ?_⟩
    rw [hempty, List.nil_append] at hbytes
    have hfirst : done <+: [] ++ [frame] := hdone
    rcases List.prefix_concat_iff.mp hfirst with rfl | hnone
    · have hrest : frame.encode ++ [] =
          frame.encode ++ (inputStep s (frame.encode, fun _ => {})).fragment := by
        rw [List.append_nil]
        refine hbytes.trans ?_
        rw [List.nil_append, encodeAll_cons, encodeAll, List.flatMap_nil, List.append_nil]
      exact ⟨(List.append_cancel_left hrest).symm, hsound.1, hagrees'⟩
    · rw [List.prefix_nil.mp hnone] at hbytes hend
      have hwhole : (inputStep s (frame.encode, fun _ => {})).fragment = frame.encode :=
        hbytes.symm
      rw [hwhole] at hend
      rcases hend with hfull | hwaiting
      · cases hfull
      · have hself : frame.encode <+: frame.encode ++ [] := List.prefix_append _ _
        have htaken := decodeFrame_eq hallowed.wellFormed hself
        rw [if_neg (Nat.lt_irrefl _), hwaiting] at htaken
        cases htaken

theorem fits_failed (h : s.failed = true) (reads : List Read) : Along inputStep Fits s reads := by
  induction reads with
  | nil => trivial
  | cons read reads ih =>
      refine ⟨fun hopen => ?_, ?_⟩
      · rw [h] at hopen
        cases hopen
      · rw [inputStep_failed h]
        exact ih

theorem readsOf_fits (frames : List ClientFrame) : ∀ {s : InputState} {a : Assembly},
    Agrees s a → s.failed = false → s.fragment = [] →
    Along Assembly.step Assembly.Allowed a frames →
    Along inputStep Fits s (readsOf frames) ∧
      ((run inputStep s (readsOf frames)).failed = false → NoEmptyStart a frames) := by
  induction frames with
  | nil => intro s a _ _ _ _; exact ⟨trivial, fun _ => trivial⟩
  | cons frame frames ih =>
      intro s a hagrees hopen hempty hallowed
      obtain ⟨hfits, hstep⟩ := readsOf_step hagrees hopen hempty hallowed.1
      rcases hstep with hfailed | ⟨hstill, hnone, hgood, hagrees'⟩
      · refine ⟨⟨hfits, ?_⟩, fun hend => ?_⟩
        · exact fits_failed hfailed _
        · rw [readsOf, List.map_cons, run_cons, run_failed hfailed, hfailed] at hend
          cases hend
      · obtain ⟨hrest, hsound⟩ := ih hagrees' hstill hnone hallowed.2
        exact ⟨⟨hfits, hrest⟩, fun hend => ⟨hgood, hsound hend⟩⟩

/-- For every sequence of frames the client may send: however its bytes arrive, no call
fails and exactly the messages sent are handed over, in order, if and only if no frame
continues a message whose first fragment was empty. -/
theorem input_delivers_iff (frames : List ClientFrame) (output : Descriptor)
    (hallowed : Along Assembly.step Assembly.Allowed {} frames) :
    (∀ reads, received reads <+: encodeAll frames → Along inputStep Fits { output } reads →
      Delivers frames reads (run inputStep { output } reads)) ↔ NoEmptyStart {} frames := by
  constructor
  · intro hall
    have hstart : Agrees { output } {} := ⟨rfl, rfl, nofun⟩
    obtain ⟨hfits, hsound⟩ := readsOf_fits frames hstart rfl rfl hallowed
    have hbytes : received (readsOf frames) <+: encodeAll frames := by
      rw [received_readsOf]
    exact hsound (hall (readsOf frames) hbytes hfits).1
  · intro hsound reads hreads hfits
    rcases Reached.run hallowed reads (start_reached frames output) hfits hreads with
      ⟨-, hbad⟩ | ⟨hopen, done, hdone, hbytes, -, hagrees, hend⟩
    · exact absurd hsound hbad
    · exact ⟨hopen, done, hdone, hbytes, hagrees.delivered, hend⟩

end Runs

/-! ## A text in two fragments -/

def twoFragments (first : Bytes) : List ClientFrame :=
  [⟨false, wsOpcodeText, Vector.replicate 4 0, first⟩,
    ⟨true, wsOpcodeContinuation, Vector.replicate 4 0, [98]⟩]

theorem dataFrame_wellFormed {frame : ClientFrame} (hopcode : frame.opcode ∈ knownOpcodes)
    (hlength : frame.payload.length ≤ wsMaxFrameSize) (hdata : frame.isControl = false) :
    frame.WellFormed where
  opcode := hopcode
  length := hlength
  control := by
    intro hcontrol
    rw [hdata] at hcontrol
    cases hcontrol
  close := by
    intro hclose
    rw [isControl_iff.mpr (Nat.le_of_eq hclose.symm)] at hdata
    cases hdata

theorem twoFragments_allowed {first : Bytes} (h : first.length ≤ wsMaxFrameSize) :
    Along Assembly.step Assembly.Allowed {} (twoFragments first) := by
  have hlimit : wsMaxFrameSize + 1 ≤ wsMaxMessageSize := by decide
  have hknown : wsOpcodeText ∈ knownOpcodes := by decide
  have hstarts : wsOpcodeText ≠ wsOpcodeContinuation := by decide
  refine ⟨⟨dataFrame_wellFormed hknown h rfl, rfl, fun hopcode => ?_, fun _ _ => rfl⟩,
    ⟨dataFrame_wellFormed (by decide) (by decide) (by decide), rfl, fun _ => ?_,
      fun _ hopcode => ?_⟩, trivial⟩
  · exact absurd hopcode hstarts
  · refine ⟨⟨wsOpcodeText, first, first.isEmpty⟩, rfl, ?_⟩
    show first.length + 1 ≤ _
    omega
  · exact absurd rfl hopcode

/-- The two frames, cut in the middle of the first one. -/
def cutReads (first : Bytes) : List Read :=
  [((encodeAll (twoFragments first)).take 5, fun _ => {}),
    ((encodeAll (twoFragments first)).drop 5, fun _ => {})]

/-- The first fragment is one byte: the text is handed over. -/
theorem input_delivers_two_fragments :
    Delivers (twoFragments [97]) (cutReads [97])
      (run inputStep { output := {} } (cutReads [97])) := by
  refine (input_delivers_iff (twoFragments [97]) {} (twoFragments_allowed (by decide))).mpr
    ⟨rfl, rfl, trivial⟩ (cutReads [97]) ?_ ⟨?_, ?_, trivial⟩
  · decide
  · intro _
    decide
  · intro _
    decide +kernel

/-- The first fragment is empty: the text is a message the client may send, and the call
that reads its second fragment fails. -/
theorem empty_start_refused :
    Along Assembly.step Assembly.Allowed {} (twoFragments []) ∧
    messagesOf (twoFragments []) = [(wsOpcodeText, [98])] ∧
    (run inputStep {} (readsOf (twoFragments []))).failed = true ∧
    (run inputStep {} (readsOf (twoFragments []))).delivered = [] := by
  refine ⟨twoFragments_allowed (by decide), by decide, by decide +kernel, by decide +kernel⟩

end Duris.Net
