import Duris.Net.WebsocketInflate
import Duris.Proofs.Segmentation
import Duris.Proofs.WebsocketOutput

/-!
# Control frames in compressed messages

What inflating looks at is left alone by replies (`calm`): so a control frame that does not
go through `inflate` changes nothing for the messages, and the run without it goes the same
way. The parser sends every payload that is not empty through `inflate` while a compressed
message is under way, also that of a control frame, and sees the end of the message only
where it inflates. A run in which no frame meets either branch is undisturbed.
-/

namespace Duris.Net

/-! ## Replies leave the extension alone -/

section Output

variable (d : Descriptor)

@[simp] theorem setQueue_compress (kind : OutputKind) (queue : OutputQueue) :
    (d.setQueue kind queue).compress = d.compress := by
  cases kind <;> rfl

theorem release_compress (kind : OutputKind) : (d.release kind).compress = d.compress := by
  unfold Descriptor.release
  split
  · exact setQueue_compress ..
  · rfl

theorem flushKind_compress (kind : OutputKind) (answers : List SendResult) :
    (flushKind d kind answers).2.compress = d.compress := by
  unfold flushKind
  dsimp only
  split
  · rw [release_compress]
    exact setQueue_compress ..
  · exact setQueue_compress ..
  · exact setQueue_compress ..

theorem websocketFlushOutput_compress (answers : List SendResult) :
    (websocketFlushOutput d answers).2.compress = d.compress := by
  have hcontrol := flushKind_compress d .control answers
  unfold websocketFlushOutput
  split
  · split
    · next hkind =>
        rw [hkind] at hcontrol
        exact hcontrol
    · next left d' hkind =>
        rw [hkind] at hcontrol
        have hdata := flushKind_compress d' .data left
        split <;> next hkind' =>
          rw [hkind'] at hdata
          exact hdata.trans hcontrol
  · rfl

theorem buildFrame_compress (opcode : Nat) (data : Bytes) (answers : SendAnswers) :
    (buildFrame d opcode data answers).2.compress = d.compress := by
  have hcompressed : (compressPayload d opcode data answers.deflated).1.compress = d.compress := by
    unfold compressPayload
    split
    · split <;> rfl
    · rfl
  unfold buildFrame
  split
  · rfl
  · split
    · rfl
    · dsimp only
      split
      · exact hcompressed
      · split <;> exact hcompressed

theorem websocketQueueOutput_compress (kind : OutputKind) (data : Bytes) (allocated : Bool) :
    (websocketQueueOutput d kind data allocated).2.compress = d.compress := by
  unfold websocketQueueOutput
  dsimp only
  split
  · rfl
  · split
    · rfl
    · split
      · exact setQueue_compress ..
      · exact setQueue_compress ..

theorem websocketSendFrame_compress (opcode : Nat) (data : Bytes) (answers : SendAnswers) :
    (websocketSendFrame d opcode data answers).2.compress = d.compress := by
  have hbuilt := buildFrame_compress d opcode data answers
  unfold websocketSendFrame
  split
  · next hframe =>
      rw [hframe] at hbuilt
      exact hbuilt
  · next frame d' hframe =>
      rw [hframe] at hbuilt
      have hqueued := websocketQueueOutput_compress d' (frameKind opcode) frame
        answers.queueAllocated
      refine failing_spec (p := fun d' => d'.compress = d.compress) (fun _ h => h) ?_
      split
      · next hqueue =>
          rw [hqueue] at hqueued
          exact (websocketFlushOutput_compress ..).trans (hqueued.trans hbuilt)
      · next hqueue =>
          rw [hqueue] at hqueued
          exact hqueued.trans hbuilt

theorem handleControl_compress (s : InputState) (opcode : Nat) (payload : Option Bytes)
    (answers : SendAnswers) :
    (handleControl s opcode payload answers).output.compress = s.output.compress := by
  rw [handleControl_eq]
  cases controlAction s opcode payload with
  | none => rfl
  | some action =>
      cases action with
      | sendClose code reason =>
          show (websocketSendClose s code reason answers).output.compress = _
          unfold websocketSendClose
          split
          · rfl
          · next payload _ =>
              have hsent := websocketSendFrame_compress s.output wsOpcodeClose payload answers
              split <;> next hframe =>
                rw [hframe] at hsent
                exact hsent
      | sendPong payload => exact websocketSendFrame_compress ..
      | pongReceived => rfl

end Output

/-! ## A frame on the wire -/

theorem withoutRsv1_encode {f : CompressedFrame} (h : f.WellFormed) :
    withoutRsv1 f.encode = f.frame.encode ∧ rsv1Of f.encode = f.rsv1 ∧
      (f.encode.getD 0 0 &&& 0x0f).toNat = f.frame.opcode := by
  have hall : ∀ fin rsv1 : Bool, ∀ opcode ∈ knownOpcodes,
      (((if fin then 0x80 else 0) ||| UInt8.ofNat opcode) ||| if rsv1 then 0x40 else 0) &&& 0xbf =
        ((if fin then 0x80 else 0) ||| UInt8.ofNat opcode) ∧
      ((((if fin then 0x80 else 0) ||| UInt8.ofNat opcode) ||| if rsv1 then 0x40 else 0) &&& 0x40
        != 0) = rsv1 ∧
      ((((if fin then 0x80 else 0) ||| UInt8.ofNat opcode) ||| if rsv1 then 0x40 else 0) &&&
        0x0f).toNat = opcode := by
    decide
  obtain ⟨hcleared, hbit, hopcode⟩ := hall f.frame.fin f.rsv1 f.frame.opcode h.frame.opcode
  refine ⟨?_, hbit, hopcode⟩
  show ((f.frame.firstByte ||| _) &&& 0xbf) :: f.frame.encode.tail = _
  rw [show (f.frame.firstByte ||| if f.rsv1 then 0x40 else 0) &&& 0xbf = f.frame.firstByte from
    hcleared]
  rfl

/-- A frame that is allowed is taken off, unless it is compressed and compression was not
negotiated. -/
theorem decodeInflate_encode {f : CompressedFrame} (h : f.WellFormed) (compress : Bool) :
    decodeInflate compress f.encode =
      if f.rsv1 = true ∧ compress = false then .error (some wsCloseProtocolError)
      else .frame f.frame.encode.length (pointerTo f.frame.payload) f.frame.opcode f.frame.fin := by
  obtain ⟨hcleared, hbit, hopcode⟩ := withoutRsv1_encode h
  have hdecode : decodeFrame f.frame.encode =
      .frame f.frame.encode.length (pointerTo f.frame.payload) f.frame.opcode f.frame.fin := by
    have hself : f.frame.encode <+: f.frame.encode ++ [] := List.prefix_append ..
    rw [decodeFrame_eq h.frame hself, if_neg (Nat.lt_irrefl _)]
  have hlength : 2 ≤ f.encode.length := by
    have hsize := encode_length f.frame
    have htail : f.encode.length = f.frame.encode.length := rfl
    omega
  unfold decodeInflate
  rw [hcleared, hdecode, hbit, hopcode]
  have hcond : (2 ≤ f.encode.length ∧ f.rsv1 = true ∧
      (compress = false ∨ wsOpcodeClose ≤ f.frame.opcode)) ↔
      f.rsv1 = true ∧ compress = false := by
    constructor
    · rintro ⟨-, hrsv1, hbad⟩
      refine ⟨hrsv1, hbad.resolve_right fun hcontrol => ?_⟩
      cases hrsv1.symm.trans (h.rsv1 (isControl_iff.mpr hcontrol))
    · rintro ⟨hrsv1, hcompress⟩
      exact ⟨hlength, hrsv1, .inl hcompress⟩
  simp only [hcond]

variable {σ : Type} {zlib : Inflater σ}

theorem handleControl_of_data (s : InflateInput σ) {opcode : Nat} (hdata : ¬wsOpcodeClose ≤ opcode)
    (payload : Option Bytes) (answers : SendAnswers) :
    s.handleControl opcode payload answers = s := by
  have hclose : opcode ≠ wsOpcodeClose := by
    rintro rfl
    exact hdata (Nat.le_refl _)
  have hping : opcode ≠ wsOpcodePing := by
    rintro rfl
    exact hdata (by decide)
  have hpong : opcode ≠ wsOpcodePong := by
    rintro rfl
    exact hdata (by decide)
  unfold InflateInput.handleControl Net.handleControl
  rw [if_neg hclose, if_neg hclose, if_neg hping, if_neg hpong, if_neg hping]

/-- A compressed frame where compression was not negotiated. -/
def Refused (s : InflateInput σ) (f : CompressedFrame) : Prop :=
  f.rsv1 = true ∧ s.input.output.compress = false

section Taken

variable {s s' : InflateInput σ} {f : CompressedFrame}

theorem takeFrame_refused (h : f.WellFormed) (hrefused : Refused s f) (answers : SendAnswers) :
    takeFrame zlib s f.encode answers = s.fail (some wsCloseProtocolError) := by
  unfold Refused at hrefused
  unfold takeFrame websocketParseFrame
  rw [decodeInflate_encode h, if_pos hrefused]

theorem takeFrame_error (h : f.WellFormed) (hplain : ¬Refused s f) {code : Nat}
    (hinflate : inflateFrame zlib s f.rsv1 f.frame.opcode f.frame.fin
      (pointerTo f.frame.payload) = .error (s', code)) (answers : SendAnswers) :
    takeFrame zlib s f.encode answers = s'.fail (some code) := by
  unfold Refused at hplain
  unfold takeFrame websocketParseFrame
  rw [decodeInflate_encode h, if_neg hplain, (withoutRsv1_encode h).2.1]
  dsimp only
  rw [hinflate]

theorem takeFrame_ok (h : f.WellFormed) (hplain : ¬Refused s f) {payload : Option Bytes}
    (hinflate : inflateFrame zlib s f.rsv1 f.frame.opcode f.frame.fin
      (pointerTo f.frame.payload) = .ok (s', payload)) (answers : SendAnswers) :
    takeFrame zlib s f.encode answers =
      if wsOpcodeClose ≤ f.frame.opcode then s'.handleControl f.frame.opcode payload answers
      else s'.takeData f.frame.opcode f.frame.fin payload := by
  unfold Refused at hplain
  unfold takeFrame websocketParseFrame
  rw [decodeInflate_encode h, if_neg hplain, (withoutRsv1_encode h).2.1]
  dsimp only
  rw [hinflate]
  dsimp only
  split
  · rfl
  · next hdata => rw [handleControl_of_data s' hdata]

end Taken

/-! ## What inflating looks at -/

def InflateInput.calm (s : InflateInput σ) : InflateInput σ :=
  { s with
    input := { s.input.data with output := { compress := s.input.output.compress } }
    pongs := [] }

def calmly {α : Type} (outcome : Except (InflateInput σ × Nat) (InflateInput σ × α)) :
    Except (InflateInput σ × Nat) (InflateInput σ × α) :=
  (outcome.mapError fun fault => (fault.1.calm, fault.2)).map fun result =>
    (result.1.calm, result.2)

theorem inflatePayload_calm (s : InflateInput σ) (rsv1 : Bool) (opcode : Nat) (fin : Bool)
    (payload : Bytes) :
    inflatePayload zlib s.calm rsv1 opcode fin payload =
      calmly (inflatePayload zlib s rsv1 opcode fin payload) := by
  unfold inflatePayload
  rw [show s.calm.inflateStream = s.inflateStream from rfl,
    show s.calm.input.message = s.input.message from rfl,
    show s.calm.compressedMessage = s.compressedMessage from rfl,
    show s.calm.fed = s.fed from rfl]
  cases s.inflateStream with
  | none => rfl
  | some stream =>
      dsimp only
      by_cases hrefused : (rsv1 = true ∧ opcode ≠ wsOpcodeText ∧ opcode ≠ wsOpcodeBinary) ∨
          (rsv1 = false ∧ s.compressedMessage = false)
      · rw [if_pos hrefused, if_pos hrefused]
        rfl
      · rw [if_neg hrefused, if_neg hrefused]
        by_cases hbig : wsMaxMessageSize ≤ (s.input.message.getD []).length
        · rw [if_pos hbig, if_pos hbig]
          rfl
        · rw [if_neg hbig, if_neg hbig]
          generalize zlib.inflate stream (payload ++ if fin then inflateTrailer else [])
            (wsMaxMessageSize - (s.input.message.getD []).length) = answer
          by_cases hran : answer.accepted = true ∧
              answer.output.length < wsMaxMessageSize - (s.input.message.getD []).length ∧
              answer.availIn = 0
          · rw [if_pos hran, if_pos hran]
            cases fin <;> rfl
          · rw [if_neg hran, if_neg hran]
            rfl

theorem inflateFrame_calm (zlib : Inflater σ) (s : InflateInput σ) (rsv1 : Bool) (opcode : Nat)
    (fin : Bool)
    (payload : Option Bytes) :
    inflateFrame zlib s.calm rsv1 opcode fin payload =
      calmly (inflateFrame zlib s rsv1 opcode fin payload) := by
  cases payload with
  | none => rfl
  | some payload =>
      unfold inflateFrame
      rw [show s.calm.compressedMessage = s.compressedMessage from rfl]
      dsimp only
      by_cases hcompressed : rsv1 = true ∨ s.compressedMessage = true
      · rw [if_pos hcompressed, if_pos hcompressed, inflatePayload_calm]
        cases inflatePayload zlib s rsv1 opcode fin payload <;> rfl
      · rw [if_neg hcompressed, if_neg hcompressed]
        rfl

theorem takeData_calm (s : InflateInput σ) (opcode : Nat) (fin : Bool) (payload : Option Bytes) :
    (s.takeData opcode fin payload).calm = s.calm.takeData opcode fin payload := by
  have herase := takeData_erase s.input
    (fun input => { input.data with output := { compress := s.input.output.compress } })
    (fun _ => rfl) rfl opcode fin payload
  unfold InflateInput.takeData
  rw [show s.calm.input = { s.input.data with
    output := { compress := s.input.output.compress } } from rfl, herase]
  cases htaken : Net.takeData s.input opcode fin payload with
  | error code => rfl
  | ok input =>
      have hcompress : input.output.compress = s.input.output.compress := by
        rw [← takeData_only htaken]
        rfl
      show InflateInput.calm { s with input } = _
      unfold InflateInput.calm
      rw [hcompress]
      rfl

variable {f : CompressedFrame} {opcode : Nat} {s s' : InflateInput σ} {payload : Bytes}
  {rsv1 fin : Bool}

theorem takeFrame_calm (zlib : Inflater σ) (s : InflateInput σ) (hframe : f.WellFormed)
    (hdata : f.frame.isControl = false) (answers others : SendAnswers) :
    (takeFrame zlib s f.encode answers).calm = takeFrame zlib s.calm f.encode others := by
  have hcontrol : ¬wsOpcodeClose ≤ f.frame.opcode := of_decide_eq_false hdata
  by_cases hrefused : Refused s f
  · rw [takeFrame_refused hframe hrefused, takeFrame_refused (s := s.calm) hframe hrefused]
    rfl
  · have hcalm := inflateFrame_calm zlib s f.rsv1 f.frame.opcode f.frame.fin
      (pointerTo f.frame.payload)
    cases hinflate : inflateFrame zlib s f.rsv1 f.frame.opcode f.frame.fin
        (pointerTo f.frame.payload) with
    | error fault =>
        obtain ⟨s', code⟩ := fault
        rw [hinflate] at hcalm
        rw [takeFrame_error hframe hrefused hinflate,
          takeFrame_error (s := s.calm) hframe hrefused hcalm]
        rfl
    | ok inflated =>
        obtain ⟨s', payload⟩ := inflated
        rw [hinflate] at hcalm
        rw [takeFrame_ok hframe hrefused hinflate,
          takeFrame_ok (s := s.calm) hframe hrefused hcalm, if_neg hcontrol, if_neg hcontrol,
          takeData_calm]

/-! ## One frame -/

/-- No pong is sent, and `inflate` gets frames with this opcode at most. -/
def Fed (opcode : Nat) (s s' : InflateInput σ) : Prop :=
  s'.pongs = s.pongs ∧ ∀ call ∈ s'.fed, call ∈ s.fed ∨ call.1 = opcode

theorem Fed.same (hpongs : s'.pongs = s.pongs) (hfed : s'.fed = s.fed) : Fed opcode s s' :=
  ⟨hpongs, fun _ hcall => .inl (hfed ▸ hcall)⟩

theorem Fed.once (hpongs : s'.pongs = s.pongs) (hfed : s'.fed = s.fed ++ [(opcode, payload)]) :
    Fed opcode s s' := by
  refine ⟨hpongs, fun call hcall => ?_⟩
  rw [hfed, List.mem_append, List.mem_singleton] at hcall
  exact hcall.imp_right fun hcall => congrArg Prod.fst hcall

theorem inflatePayload_error {code : Nat}
    (h : inflatePayload zlib s rsv1 opcode fin payload = .error (s', code)) : Fed opcode s s' := by
  unfold inflatePayload at h
  split at h
  · cases h
    exact .same rfl rfl
  · split at h
    · cases h
      exact .same rfl rfl
    · dsimp only at h
      split at h
      · cases h
        exact .same rfl rfl
      · generalize zlib.inflate _ _ _ = answer at h
        split at h
        · split at h <;> cases h
        · cases h
          exact .once rfl rfl

theorem inflatePayload_ok {output : Bytes}
    (h : inflatePayload zlib s rsv1 opcode fin payload = .ok (s', output)) :
    Fed opcode s s' ∧ (fin = true → s'.compressedMessage = false) := by
  unfold inflatePayload at h
  split at h
  · cases h
  · split at h
    · cases h
    · dsimp only at h
      split at h
      · cases h
      · generalize zlib.inflate _ _ _ = answer at h
        split at h
        · split at h
          · cases h
            exact ⟨.once rfl rfl, fun _ => rfl⟩
          · next hmore =>
              cases h
              exact ⟨.once rfl rfl, fun hfin => absurd hfin hmore⟩
        · cases h

theorem inflateFrame_error {code : Nat} {payload : Option Bytes}
    (h : inflateFrame zlib s rsv1 opcode fin payload = .error (s', code)) : Fed opcode s s' := by
  unfold inflateFrame at h
  split at h
  · cases h
  · split at h
    · split at h
      · next hinflate =>
          cases h
          exact inflatePayload_error hinflate
      · cases h
    · cases h

theorem inflateFrame_ok {payload output : Option Bytes}
    (h : inflateFrame zlib s rsv1 opcode fin payload = .ok (s', output)) :
    Fed opcode s s' ∧ (fin = true → ¬(s.compressedMessage = true ∧ payload = none) →
      s'.compressedMessage = false) := by
  unfold inflateFrame at h
  split at h
  · cases h
    refine ⟨.same rfl rfl, fun _ hsound => ?_⟩
    exact Bool.not_eq_true _ ▸ fun hflag => hsound ⟨hflag, rfl⟩
  · split at h
    · split at h
      · cases h
      · next hinflate =>
          cases h
          obtain ⟨hfed, hend⟩ := inflatePayload_ok hinflate
          exact ⟨hfed, fun hfin _ => hend hfin⟩
    · next hplain =>
        cases h
        refine ⟨.same rfl rfl, fun _ _ => ?_⟩
        exact Bool.not_eq_true _ ▸ (not_or.mp hplain).2

/-- A data frame sends no pong, and where it ends a message without being empty the flag is
down behind it. -/
theorem takeFrame_data (zlib : Inflater σ) (s : InflateInput σ) (hframe : f.WellFormed)
    (hdata : f.frame.isControl = false) (answers : SendAnswers) :
    Fed f.frame.opcode s (takeFrame zlib s f.encode answers) ∧
      (f.frame.fin = true → ¬(s.compressedMessage = true ∧ f.frame.payload = []) →
        (takeFrame zlib s f.encode answers).input.failed = false →
        (takeFrame zlib s f.encode answers).compressedMessage = false) := by
  have hcontrol : ¬wsOpcodeClose ≤ f.frame.opcode := of_decide_eq_false hdata
  by_cases hrefused : Refused s f
  · rw [takeFrame_refused hframe hrefused]
    exact ⟨.same rfl rfl, fun _ _ hopen => by cases hopen⟩
  · cases hinflate : inflateFrame zlib s f.rsv1 f.frame.opcode f.frame.fin
        (pointerTo f.frame.payload) with
    | error fault =>
        obtain ⟨s', code⟩ := fault
        rw [takeFrame_error hframe hrefused hinflate]
        obtain ⟨hpongs, hfed⟩ := inflateFrame_error hinflate
        exact ⟨⟨hpongs, hfed⟩, fun _ _ hopen => by cases hopen⟩
    | ok inflated =>
        obtain ⟨s', payload⟩ := inflated
        obtain ⟨⟨hpongs, hfed⟩, hend⟩ := inflateFrame_ok hinflate
        rw [takeFrame_ok hframe hrefused hinflate, if_neg hcontrol]
        unfold InflateInput.takeData
        cases takeData s'.input f.frame.opcode f.frame.fin payload with
        | error code => exact ⟨⟨hpongs, hfed⟩, fun _ _ hopen => by cases hopen⟩
        | ok input =>
            refine ⟨⟨hpongs, hfed⟩, fun hfin hsound _ => hend hfin ?_⟩
            rintro ⟨hflag, hnone⟩
            refine hsound ⟨hflag, ?_⟩
            unfold pointerTo at hnone
            split at hnone
            · assumption
            · cases hnone

/-- A control frame that does not come into a compressed message with a payload is answered,
and nothing else happens. -/
theorem takeFrame_control (hframe : f.WellFormed) (hcontrol : f.frame.isControl = true)
    (hsound : ¬(s.compressedMessage = true ∧ f.frame.payload ≠ [])) (answers : SendAnswers) :
    takeFrame zlib s f.encode answers =
      s.handleControl f.frame.opcode (pointerTo f.frame.payload) answers := by
  have hplain := hframe.rsv1 hcontrol
  have hrefused : ¬Refused s f := fun h => Bool.noConfusion (hplain.symm.trans h.1)
  have hinflate : inflateFrame zlib s f.rsv1 f.frame.opcode f.frame.fin
      (pointerTo f.frame.payload) = .ok (s, pointerTo f.frame.payload) := by
    unfold pointerTo
    split
    · rfl
    · next hsome =>
        unfold inflateFrame
        dsimp only
        rw [if_neg]
        rw [hplain]
        rintro (h | hflag)
        · cases h
        · exact hsound ⟨hflag, hsome⟩
  rw [takeFrame_ok hframe hrefused hinflate, if_pos (isControl_iff.mp hcontrol)]

theorem handleControl_calm (s : InflateInput σ) (opcode : Nat) (payload : Option Bytes)
    (answers : SendAnswers) : (s.handleControl opcode payload answers).calm = s.calm := by
  unfold InflateInput.handleControl InflateInput.calm
  rw [handleControl_data, handleControl_compress]

/-! ## Runs -/

/-- No frame of the run disturbs a compressed message. -/
def Calm (zlib : Inflater σ) (s : InflateInput σ) (events : List FrameEvent) : Prop :=
  Along (inflateStep zlib) (fun s event => s.input.failed = false → ¬Disturbs s event) s events

theorem inflateStep_failed (h : s.input.failed = true) (event : FrameEvent) :
    inflateStep zlib s event = s := if_pos h

theorem inflateStep_open (h : s.input.failed = false) (event : FrameEvent) :
    inflateStep zlib s event = takeFrame zlib s event.1.encode event.2 :=
  if_neg (by rw [h]; exact Bool.false_ne_true)

theorem run_inflate_failed (h : s.input.failed = true) (events : List FrameEvent) :
    run (inflateStep zlib) s events = s := by
  induction events with
  | nil => rfl
  | cons event events ih => rw [run_cons, inflateStep_failed h, ih]

theorem calm_failed {t : InflateInput σ} (h : s.calm = t.calm) : s.input.failed = t.input.failed :=
  show s.calm.input.failed = t.calm.input.failed by rw [h]

theorem run_calm (events : List FrameEvent) : ∀ {s t : InflateInput σ},
    (∀ event ∈ events, event.1.WellFormed) → Calm zlib s events → s.calm = t.calm →
    (run (inflateStep zlib) s events).calm =
      (run (inflateStep zlib) t (dataFrames events)).calm := by
  induction events with
  | nil => intro s t _ _ h; exact h
  | cons event events ih =>
      intro s t hframes hcalm h
      have hlater := fun event hevent => hframes event (List.mem_cons_of_mem _ hevent)
      cases hfailed : s.input.failed with
      | true =>
          rw [run_inflate_failed hfailed,
            run_inflate_failed ((calm_failed h).symm.trans hfailed), h]
      | false =>
          have hframe := hframes event (List.mem_cons_self ..)
          have hsound := hcalm.1 hfailed
          rw [run_cons]
          cases hcontrol : event.1.frame.isControl with
          | true =>
              have hfilter : dataFrames (event :: events) = dataFrames events :=
                List.filter_cons_of_neg (by rw [hcontrol]; decide)
              rw [hfilter]
              refine ih hlater hcalm.2 ?_
              rw [inflateStep_open hfailed, takeFrame_control hframe hcontrol
                fun hbad => hsound ⟨hbad.1, .inl ⟨hcontrol, hbad.2⟩⟩, handleControl_calm, h]
          | false =>
              have hfilter : dataFrames (event :: events) = event :: dataFrames events :=
                List.filter_cons_of_pos (by rw [hcontrol]; decide)
              rw [hfilter, run_cons]
              refine ih hlater hcalm.2 ?_
              rw [inflateStep_open hfailed, inflateStep_open ((calm_failed h).symm.trans hfailed)]
              rw [takeFrame_calm zlib s hframe hcontrol _ {},
                takeFrame_calm zlib t hframe hcontrol _ {}, h]

theorem inflateStep_spec (zlib : Inflater σ) (hopen : s.input.failed = false) {event : FrameEvent}
    (hframe : event.1.WellFormed) (hsound : ¬Disturbs s event) :
    (∀ call ∈ (inflateStep zlib s event).fed, call ∈ s.fed ∨ call.1 < wsOpcodeClose) ∧
      (inflateStep zlib s event).pongs = s.pongs ++ pingPayloads [event] ∧
      (event.1.frame.isControl = false → event.1.frame.fin = true →
        (inflateStep zlib s event).input.failed = false →
        (inflateStep zlib s event).compressedMessage = false) := by
  rw [inflateStep_open hopen]
  cases hcontrol : event.1.frame.isControl with
  | true =>
      rw [takeFrame_control hframe hcontrol
        fun hbad => hsound ⟨hbad.1, .inl ⟨hcontrol, hbad.2⟩⟩]
      refine ⟨fun call hcall => .inl hcall, ?_, fun hdata => Bool.noConfusion hdata⟩
      unfold InflateInput.handleControl pingPayloads
      by_cases hping : event.1.frame.opcode = wsOpcodePing
      · rw [List.filter_cons_of_pos (by rw [hping]; rfl)]
        rw [if_pos hping, pointerTo_getD]
        rfl
      · rw [List.filter_cons_of_neg (by rw [beq_false_of_ne hping]; decide)]
        rw [if_neg hping]
        exact (List.append_nil _).symm
  | false =>
      have hdata : event.1.frame.opcode < wsOpcodeClose :=
        not_le.mp (of_decide_eq_false hcontrol)
      obtain ⟨⟨hpongs, hfed⟩, hend⟩ := takeFrame_data zlib s hframe hcontrol event.2
      refine ⟨fun call hcall => ?_, ?_, fun _ hfin => hend hfin ?_⟩
      · rcases hfed call hcall with hbefore | hopcode
        · exact .inl hbefore
        · exact .inr (hopcode ▸ hdata)
      · have hping : event.1.frame.opcode ≠ wsOpcodePing := by
          intro hping
          rw [hping] at hdata
          exact absurd hdata (by decide)
        unfold pingPayloads
        rw [hpongs, List.filter_cons_of_neg (by rw [beq_false_of_ne hping]; decide)]
        exact (List.append_nil _).symm
      · exact fun hbad => hsound ⟨hbad.1, .inr ⟨hcontrol, hfin, hbad.2⟩⟩

theorem pingPayloads_cons (event : FrameEvent) (events : List FrameEvent) :
    pingPayloads (event :: events) = pingPayloads [event] ++ pingPayloads events := by
  unfold pingPayloads
  rw [← List.map_append, ← List.filter_append]
  rfl

theorem run_fed (events : List FrameEvent) : ∀ {s : InflateInput σ},
    (∀ event ∈ events, event.1.WellFormed) → Calm zlib s events →
    (∀ call ∈ (run (inflateStep zlib) s events).fed, call ∈ s.fed ∨ call.1 < wsOpcodeClose) ∧
      ((run (inflateStep zlib) s events).input.failed = false →
        (run (inflateStep zlib) s events).pongs = s.pongs ++ pingPayloads events) := by
  induction events with
  | nil =>
      intro s _ _
      exact ⟨fun call hcall => .inl hcall, fun _ => (List.append_nil _).symm⟩
  | cons event events ih =>
      intro s hframes hcalm
      have hlater := fun event hevent => hframes event (List.mem_cons_of_mem _ hevent)
      cases hopen : s.input.failed with
      | true =>
          rw [run_inflate_failed hopen]
          exact ⟨fun call hcall => .inl hcall, fun hend => by cases hopen.symm.trans hend⟩
      | false =>
          obtain ⟨hfed, hpongs, -⟩ := inflateStep_spec zlib hopen
            (hframes event (List.mem_cons_self ..)) (hcalm.1 hopen)
          obtain ⟨hfed', hpongs'⟩ := ih hlater hcalm.2
          rw [run_cons]
          refine ⟨fun call hcall => ?_, fun hend => ?_⟩
          · rcases hfed' call hcall with hbefore | hdata
            · exact hfed call hbefore
            · exact .inr hdata
          · rw [hpongs' hend, hpongs, List.append_assoc, ← pingPayloads_cons]

/-- What control frames and the end of a message may not do to a run: `inflate` gets no
payload of a control frame, each ping is answered with its payload, the messages are those
of the run without the control frames, and the flag is down behind the last frame of a
message. -/
structure Undisturbed (zlib : Inflater σ) (s : InflateInput σ) (events : List FrameEvent) :
    Prop where
  fed : ∀ call ∈ (run (inflateStep zlib) s events).fed, call.1 < wsOpcodeClose
  answered : (run (inflateStep zlib) s events).input.failed = false →
    (run (inflateStep zlib) s events).pongs = pingPayloads events
  delivered : (run (inflateStep zlib) s events).input.delivered =
    (run (inflateStep zlib) s (dataFrames events)).input.delivered
  failed : (run (inflateStep zlib) s events).input.failed =
    (run (inflateStep zlib) s (dataFrames events)).input.failed
  ended : ∀ before event, events = before ++ [event] → event.1.frame.isControl = false →
    event.1.frame.fin = true → (run (inflateStep zlib) s events).input.failed = false →
    (run (inflateStep zlib) s events).compressedMessage = false

/-- Whatever the frames of a connection, and whatever zlib does: if no frame is a control
frame with a payload inside a compressed message or an empty end of one, the run is
undisturbed. -/
theorem inflate_undisturbed (zlib : Inflater σ) (output : Descriptor) (stream : Option σ)
    (events : List FrameEvent) (hframes : ∀ event ∈ events, event.1.WellFormed)
    (hcalm : Calm zlib { input := { output }, inflateStream := stream } events) :
    Undisturbed zlib { input := { output }, inflateStream := stream } events := by
  obtain ⟨hfed, hpongs⟩ := run_fed events hframes hcalm
  have hsame := run_calm events hframes hcalm rfl
  refine ⟨fun call hcall => ?_, hpongs, ?_, calm_failed hsame, ?_⟩
  · exact (hfed call hcall).resolve_left (List.not_mem_nil)
  · show (run (inflateStep zlib) _ events).calm.input.delivered =
      (run (inflateStep zlib) _ (dataFrames events)).calm.input.delivered
    rw [hsame]
  · rintro before event rfl hdata hfin hopen
    obtain ⟨hbefore, hlast⟩ := (along_append before [event] _).mp hcalm
    rw [run_append, run_cons, run_nil] at hopen ⊢
    generalize run (inflateStep zlib) _ before = s at hopen hlast ⊢
    cases hfailed : s.input.failed with
    | true =>
        rw [inflateStep_failed hfailed] at hopen
        cases hfailed.symm.trans hopen
    | false =>
        exact (inflateStep_spec zlib hfailed (hframes event (by simp)) (hlast.1 hfailed)).2.2
          hdata hfin hopen

/-! ## A text in stored blocks -/

/-- Where `inflate` stands in stored blocks: before the header of one, behind some bytes of
its length, or in its data. -/
inductive StoredPoint where
  | header
  | length (seen : Bytes)
  | data (left : Nat)

/-- `inflate` on stored blocks, none of them the last; it refuses other blocks. -/
def storedInflate : StoredPoint → Bytes → Nat → Inflated StoredPoint
  | point, [], _ => ⟨true, [], 0, point⟩
  | .header, byte :: rest, room =>
      if byte = 0 then storedInflate (.length []) rest room
      else ⟨false, [], rest.length, .header⟩
  | .length seen, byte :: rest, room =>
      if seen.length < 3 then storedInflate (.length (seen ++ [byte])) rest room
      else
        let size := leNat (seen.take 2)
        if size + leNat (seen.drop 2 ++ [byte]) = 0xffff then
          storedInflate (if size = 0 then .header else .data size) rest room
        else ⟨false, [], rest.length, .header⟩
  | .data left, _ :: rest, 0 => ⟨true, [], rest.length + 1, .data left⟩
  | .data left, byte :: rest, room + 1 =>
      let later := storedInflate (if left = 1 then .header else .data (left - 1)) rest room
      { later with output := byte :: later.output }

def storedBlocks : Inflater StoredPoint := ⟨storedInflate, fun _ => .header⟩

def compressed : InflateInput StoredPoint :=
  { input := { output := { compress := true } }, inflateStream := some .header }

def clientFrame (rsv1 fin : Bool) (opcode : Nat) (payload : Bytes) : FrameEvent :=
  (⟨rsv1, ⟨fin, opcode, Vector.replicate 4 0, payload⟩⟩, {})

/-- The text "ab" in two compressed fragments, with a ping between them. -/
def pingedText (ping : Bytes) : List FrameEvent :=
  [clientFrame true false wsOpcodeText [0x00, 0x01, 0x00, 0xfe, 0xff, 97],
    clientFrame false true wsOpcodePing ping,
    clientFrame false true wsOpcodeContinuation [0x00, 0x01, 0x00, 0xfe, 0xff, 98, 0x00]]

def emptyEnd : List FrameEvent :=
  [clientFrame true false wsOpcodeText [0x00, 0x01, 0x00, 0xfe, 0xff, 97, 0x00],
    clientFrame false true wsOpcodeContinuation []]

theorem clientFrame_wellFormed (hopcode : opcode ∈ [wsOpcodeContinuation, wsOpcodeText])
    (hlength : payload.length ≤ 125) : (clientFrame rsv1 fin opcode payload).1.WellFormed := by
  have hdata : ∀ opcode ∈ [wsOpcodeContinuation, wsOpcodeText],
      opcode ∈ knownOpcodes ∧ decide (wsOpcodeClose ≤ opcode) = false := by decide
  have hlimit : 125 ≤ wsMaxFrameSize := by decide
  obtain ⟨hknown, hplain⟩ := hdata opcode hopcode
  exact ⟨dataFrame_wellFormed hknown (hlength.trans hlimit) hplain,
    fun hcontrol => Bool.noConfusion (hplain.symm.trans hcontrol)⟩

theorem pingFrame_wellFormed (hlength : payload.length ≤ 125) :
    (clientFrame false true wsOpcodePing payload).1.WellFormed where
  frame :=
    { opcode := (by decide : wsOpcodePing ∈ knownOpcodes)
      length := hlength.trans (by decide)
      control := fun _ => ⟨rfl, hlength⟩
      close := fun hclose => absurd hclose (by decide : wsOpcodePing ≠ wsOpcodeClose) }
  rsv1 _ := rfl

theorem pingedText_wellFormed {ping : Bytes} (hlength : ping.length ≤ 125) :
    ∀ event ∈ pingedText ping, event.1.WellFormed := by
  unfold pingedText
  simp only [List.forall_mem_cons, List.not_mem_nil, false_imp_iff, implies_true, and_true]
  exact ⟨clientFrame_wellFormed (by decide) (by decide), pingFrame_wellFormed hlength,
    clientFrame_wellFormed (by decide) (by decide)⟩

/-- A ping without a payload does not disturb the text. -/
theorem inflate_undisturbed_ping : Undisturbed storedBlocks compressed (pingedText []) := by
  refine inflate_undisturbed storedBlocks { compress := true } (some .header) (pingedText [])
    (pingedText_wellFormed (by decide)) ⟨fun _ => ?_, fun _ => ?_, fun _ => ?_, trivial⟩
  · rintro ⟨hflag, -⟩
    cases hflag
  · rintro ⟨-, ⟨-, hsome⟩ | ⟨hdata, -⟩⟩
    · exact hsome rfl
    · revert hdata
      decide
  · rintro ⟨-, ⟨hcontrol, -⟩ | ⟨-, -, hempty⟩⟩
    · revert hcontrol
      decide
    · cases hempty

/-- A ping with the payload 0 goes through `inflate`, which takes it for the header of an
empty block: its pong is empty, and the rest of the text is not inflated. Behind an empty
last fragment the flag is still up. -/
theorem ping_inflated :
    (∀ event ∈ pingedText [0], event.1.WellFormed) ∧
    (∀ event ∈ emptyEnd, event.1.WellFormed) ∧
    (wsOpcodePing, [0]) ∈ (run (inflateStep storedBlocks) compressed (pingedText [0])).fed ∧
    (run (inflateStep storedBlocks) compressed (pingedText [0])).pongs = [[]] ∧
    pingPayloads (pingedText [0]) = [[0]] ∧
    (run (inflateStep storedBlocks) compressed (pingedText [0])).input.delivered =
      [(wsOpcodeText, [97, 0x00, 0x01, 0x00, 0xfe, 0xff, 98, 0x00])] ∧
    (run (inflateStep storedBlocks) compressed (dataFrames (pingedText [0]))).input.delivered =
      [(wsOpcodeText, [97, 98])] ∧
    (run (inflateStep storedBlocks) compressed emptyEnd).input.failed = false ∧
    (run (inflateStep storedBlocks) compressed emptyEnd).compressedMessage = true := by
  refine ⟨pingedText_wellFormed (by decide), ?_, ?_⟩
  · unfold emptyEnd
    simp only [List.forall_mem_cons, List.not_mem_nil, false_imp_iff, implies_true, and_true]
    exact ⟨clientFrame_wellFormed (by decide) (by decide),
      clientFrame_wellFormed (by decide) (by decide)⟩
  · decide +kernel

end Duris.Net
