import Duris.Net.WebsocketOutput

/-!
# Frames on a WebSocket

What a queue was given is what it sent and what it still holds, so the socket has a
beginning of each queue's frames, in their order. A data frame is only written when there
is no control output left, which stands at the end of a frame then. Control output is
written first, wherever the data queue stands: it is what breaks a frame, and nothing else
does.
-/

namespace Duris.Net

/-! ## The queues of a descriptor -/

section Queues

variable (d : Descriptor) (kind : OutputKind) (queue : OutputQueue)

@[simp] theorem queue_setQueue : (d.setQueue kind queue).queue kind = queue := by
  cases kind <;> rfl

theorem queue_setQueue_other {other : OutputKind} (hne : other ≠ kind) :
    (d.setQueue kind queue).queue other = d.queue other := by
  cases kind <;> cases other <;> first | rfl | exact absurd rfl hne

@[simp] theorem setQueue_wire : (d.setQueue kind queue).wire = d.wire := by
  cases kind <;> rfl

@[simp] theorem setQueue_accepted : (d.setQueue kind queue).accepted = d.accepted := by
  cases kind <;> rfl

end Queues

/-- What a queue was given is what it sent and what it holds. -/
def Held (d : Descriptor) : Prop :=
  ∀ kind, (d.queue kind).offset ≤ (d.queue kind).buffer.length ∧
    (d.accepted kind).flatten =
      sentOn d.wire kind ++ (d.queue kind).buffer.drop (d.queue kind).offset ∧
    ∀ frame ∈ d.accepted kind, frame ≠ []

theorem Held.update {d d' : Descriptor} (h : Held d) (kind : OutputKind)
    (hothers : ∀ other, other ≠ kind → d'.queue other = d.queue other ∧
      d'.accepted other = d.accepted other ∧ sentOn d'.wire other = sentOn d.wire other)
    (hle : (d'.queue kind).offset ≤ (d'.queue kind).buffer.length)
    (hbytes : (d'.accepted kind).flatten =
      sentOn d'.wire kind ++ (d'.queue kind).buffer.drop (d'.queue kind).offset)
    (hnonempty : ∀ frame ∈ d'.accepted kind, frame ≠ []) : Held d' := by
  intro other
  by_cases hsame : other = kind
  · rw [hsame]
    exact ⟨hle, hbytes, hnonempty⟩
  · obtain ⟨hqueue, haccepted, hsent⟩ := hothers other hsame
    rw [hqueue, haccepted, hsent]
    exact h other

def midFrame (d : Descriptor) : Bool :=
  !decide (Boundary (d.accepted .data) (sentOn d.wire .data))

def takesByte : List SendResult → Bool
  | .interrupted :: answers => takesByte answers
  | .sent bytes :: _ => decide (0 < bytes)
  | _ => false

/-! ## The loop of a flush -/

section Loop

variable {buffer : Bytes} {result : FlushResult} {offset' : Nat} {rest : List SendResult}

theorem websocketFlushQueue_spec (answers : List SendResult) : ∀ {offset flushed : Nat},
    offset ≤ buffer.length →
    websocketFlushQueue buffer answers offset flushed = (result, offset', rest) →
      offset ≤ offset' ∧ offset' ≤ buffer.length ∧
        (result = .drained → offset' = buffer.length) := by
  induction answers with
  | nil =>
      intro offset flushed hle h
      unfold websocketFlushQueue at h
      split at h
      · cases h
        exact ⟨Nat.le_refl _, hle, nofun⟩
      · next hend =>
          cases h
          exact ⟨Nat.le_refl _, hle, fun _ => by omega⟩
  | cons answer answers ih =>
      intro offset flushed hle h
      unfold websocketFlushQueue at h
      split at h
      · split at h
        · cases h
          exact ⟨Nat.le_refl _, hle, nofun⟩
        · split at h
          · next bytes =>
              dsimp only at h
              split at h
              · obtain ⟨hgrown, hrest⟩ := ih (by omega) h
                exact ⟨by omega, hrest⟩
              · cases h
                exact ⟨Nat.le_refl _, hle, nofun⟩
          · exact ih hle h
          · cases h
            exact ⟨Nat.le_refl _, hle, nofun⟩
          · cases h
            exact ⟨Nat.le_refl _, hle, nofun⟩
      · next hend =>
          cases h
          exact ⟨Nat.le_refl _, hle, fun _ => by omega⟩

/-- A flush that has just begun moves if there is something to send and the socket takes
a byte of it, and only then. -/
theorem websocketFlushQueue_moves (answers : List SendResult) : ∀ {offset : Nat},
    offset ≤ buffer.length →
    websocketFlushQueue buffer answers offset 0 = (result, offset', rest) →
      (offset < offset' ↔ offset < buffer.length ∧ takesByte answers = true) := by
  induction answers with
  | nil =>
      intro offset hle h
      unfold websocketFlushQueue at h
      split at h <;> (cases h; simp [takesByte])
  | cons answer answers ih =>
      intro offset hle h
      unfold websocketFlushQueue at h
      split at h
      · next hsome =>
          rw [if_neg (by decide)] at h
          split at h
          · next bytes =>
              dsimp only at h
              split at h
              · next htaken =>
                  obtain ⟨hgrown, -⟩ := websocketFlushQueue_spec answers (by omega) h
                  have hbytes : takesByte (.sent bytes :: answers) = true := by
                    simp only [takesByte, decide_eq_true_eq]
                    omega
                  simp only [hbytes, hsome, and_self, iff_true]
                  omega
              · next htaken =>
                  have hbytes : takesByte (.sent bytes :: answers) = false := by
                    simp only [takesByte, decide_eq_false_iff_not]
                    have : 0 < wsMaxFlushBytes := by decide
                    omega
                  rw [hbytes]
                  cases h
                  simp
          · exact ih hle h
          · cases h
            simp [takesByte]
          · cases h
            simp [takesByte]
      · next hend =>
          cases h
          constructor <;> intro hmoved <;> omega

end Loop

/-! ## One half of a flush -/

section Half

variable {d d' : Descriptor} {kind : OutputKind} {answers : List SendResult}

theorem took_queue (d : Descriptor) (kind : OutputKind) (offset : Nat) :
    (d.took kind offset).queue kind = { d.queue kind with offset } :=
  queue_setQueue ..

theorem took_queue_other (d : Descriptor) {kind other : OutputKind} (hne : other ≠ kind)
    (offset : Nat) : (d.took kind offset).queue other = d.queue other :=
  queue_setQueue_other d kind _ hne

theorem took_accepted (d : Descriptor) (kind : OutputKind) (offset : Nat) :
    (d.took kind offset).accepted = d.accepted :=
  setQueue_accepted ..

theorem took_held (h : Held d) {offset : Nat} (hgrown : (d.queue kind).offset ≤ offset)
    (hle : offset ≤ (d.queue kind).buffer.length) : Held (d.took kind offset) := by
  obtain ⟨-, hbytes, hnonempty⟩ := h kind
  refine h.update kind (fun other hne => ⟨took_queue_other d hne offset, ?_, ?_⟩) ?_ ?_ ?_
  · rw [took_accepted]
  · show sentOn (d.wire ++ _) other = _
    rw [sentOn_append, sentOn_map_other other (Ne.symm hne), List.append_nil]
  · rw [took_queue]
    exact hle
  · show _ = sentOn (d.wire ++ _) kind ++ _
    rw [took_accepted, took_queue, sentOn_append, sentOn_map_same, List.append_assoc, hbytes]
    congr 1
    have hdrop : (d.queue kind).buffer.drop offset =
        ((d.queue kind).buffer.drop (d.queue kind).offset).drop
          (offset - (d.queue kind).offset) := by
      rw [List.drop_drop]
      congr 1
      omega
    rw [hdrop, List.take_append_drop]
  · rw [took_accepted]
    exact hnonempty

theorem release_accepted (d : Descriptor) (kind : OutputKind) :
    (d.release kind).accepted = d.accepted := by
  unfold Descriptor.release
  split
  · exact setQueue_accepted ..
  · rfl

theorem release_wire (d : Descriptor) (kind : OutputKind) : (d.release kind).wire = d.wire := by
  unfold Descriptor.release
  split
  · exact setQueue_wire ..
  · rfl

theorem release_held (h : Held d)
    (hdrained : (d.queue kind).offset = (d.queue kind).buffer.length) :
    Held (d.release kind) := by
  obtain ⟨-, hbytes, hnonempty⟩ := h kind
  unfold Descriptor.release
  split
  · refine h.update kind (fun other hne => ⟨queue_setQueue_other d kind _ hne, ?_, ?_⟩) ?_ ?_ ?_
    · rw [setQueue_accepted]
    · rw [setQueue_wire]
    · rw [queue_setQueue]
      exact Nat.le_refl _
    · rw [queue_setQueue, setQueue_accepted, setQueue_wire, hbytes, hdrained, List.drop_length]
      rfl
    · rw [setQueue_accepted]
      exact hnonempty
  · exact h

/-- What one half of a flush does: it goes on with the queue from where that stood, moves
if there is something that the socket takes, and hands over to the other half with the
queue empty. -/
structure Flushed (d : Descriptor) (kind : OutputKind) (answers : List SendResult)
    (d' : Descriptor) (items : Bytes) : Prop where
  accepted : d'.accepted = d.accepted
  held : Held d'
  wire : d'.wire = d.wire ++ items.map (kind, ·)
  moved : items ≠ [] ↔ (d.queue kind).offset < (d.queue kind).buffer.length ∧
    takesByte answers = true

theorem took_flushed (h : Held d) {offset : Nat} (hgrown : (d.queue kind).offset ≤ offset)
    (hle : offset ≤ (d.queue kind).buffer.length)
    (hmoves : (d.queue kind).offset < offset ↔
      (d.queue kind).offset < (d.queue kind).buffer.length ∧ takesByte answers = true) :
    Flushed d kind answers (d.took kind offset)
      (((d.queue kind).buffer.drop (d.queue kind).offset).take
        (offset - (d.queue kind).offset)) := by
  refine ⟨took_accepted .., took_held h hgrown hle, rfl, ?_⟩
  rw [← hmoves, ← List.length_pos_iff, List.length_take, List.length_drop]
  omega

theorem flushKind_spec (h : Held d) (kind : OutputKind) (answers : List SendResult) :
    ∃ items, Flushed d kind answers (flushKind d kind answers).2 items ∧
      ((flushKind d kind answers).1.toBool = true → (d.accepted kind).flatten =
        sentOn (flushKind d kind answers).2.wire kind) := by
  unfold flushKind
  dsimp only
  cases hloop : websocketFlushQueue (d.queue kind).buffer answers (d.queue kind).offset 0 with
  | mk result rest =>
      obtain ⟨offset, later⟩ := rest
      have hstart := (h kind).1
      obtain ⟨hgrown, hle, hend⟩ := websocketFlushQueue_spec answers hstart hloop
      have htook := took_flushed h hgrown hle (websocketFlushQueue_moves answers hstart hloop)
      cases result with
      | later => exact ⟨_, htook, nofun⟩
      | failed => exact ⟨_, ⟨htook.accepted, htook.held, htook.wire, htook.moved⟩, nofun⟩
      | drained =>
          have hall : ((d.took kind offset).queue kind).offset =
              ((d.took kind offset).queue kind).buffer.length := by
            rw [took_queue]
            exact hend rfl
          refine ⟨_, ⟨?_, release_held htook.held hall, ?_, htook.moved⟩, fun _ => ?_⟩
          · dsimp only
            rw [release_accepted]
            exact htook.accepted
          · dsimp only
            rw [release_wire]
            exact htook.wire
          · dsimp only
            rw [release_wire, ← took_accepted d kind offset, (htook.held kind).2.1, hall,
              List.drop_length, List.append_nil]

end Half

/-! ## A flush -/

/-- Control output is waiting, the data queue stands inside a frame, and the socket takes a
byte. -/
def interrupts (d : Descriptor) (answers : List SendResult) : Bool :=
  d.socket && decide (d.controlOutput.offset < d.controlOutput.buffer.length) && midFrame d &&
    takesByte answers

section Flush

variable {d : Descriptor} {answers : List SendResult}

theorem Held.rest (h : Held d) (kind : OutputKind) :
    sentOn d.wire kind <+: (d.accepted kind).flatten := by
  rw [(h kind).2.1]
  exact List.prefix_append _ _

theorem flushControl_framed (h : Held d) (hframed : Framed d.accepted d.wire)
    {d' : Descriptor} {items : Bytes} (hflushed : Flushed d .control answers d' items)
    (hsocket : d.socket = true) :
    Framed d.accepted d'.wire ↔ interrupts d answers = false := by
  have hinterrupts : interrupts d answers = true ↔ items ≠ [] ∧ midFrame d = true := by
    unfold interrupts
    rw [hsocket, Bool.true_and, Bool.and_eq_true, Bool.and_eq_true, decide_eq_true_eq,
      hflushed.moved]
    tauto
  have hnext := hflushed.held.rest .control
  rw [hflushed.wire, sentOn_append, sentOn_map_same, hflushed.accepted] at hnext
  rw [← Bool.not_eq_true, hinterrupts, hflushed.wire]
  constructor
  · rintro hafter ⟨hsome, hmid⟩
    obtain ⟨item, items', rfl⟩ := List.exists_cons_of_ne_nil hsome
    rw [List.map_cons, ← List.singleton_append, ← List.append_assoc] at hafter
    have hboundary : Boundary (d.accepted .data) (sentOn d.wire .data) :=
      hafter.before.others (by decide)
    simp [midFrame, hboundary] at hmid
  · intro hclear
    by_cases hsome : items = []
    · rw [hsome, List.map_nil, List.append_nil]
      exact hframed
    · refine hframed.append items (fun kind => (h kind).2.2) ?_ hnext
      intro other hne
      cases other with
      | control => exact absurd rfl hne
      | data =>
          have hmid : midFrame d = false := by
            rw [← Bool.not_eq_true]
            exact fun hmid => hclear ⟨hsome, hmid⟩
          simpa [midFrame] using hmid

theorem flushData_framed (h : Held d) {d' : Descriptor} {items : Bytes}
    (hflushed : Flushed d .data answers d' items)
    (hcontrol : (d.accepted .control).flatten = sentOn d.wire .control) :
    Framed d.accepted d'.wire ↔ Framed d.accepted d.wire := by
  have hnext := hflushed.held.rest .data
  rw [hflushed.wire, sentOn_append, sentOn_map_same, hflushed.accepted] at hnext
  rw [hflushed.wire]
  refine ⟨Framed.before, fun hframed => ?_⟩
  refine hframed.append items (fun kind => (h kind).2.2) ?_ hnext
  intro other hne
  cases other with
  | data => exact absurd rfl hne
  | control => exact ⟨d.accepted .control, (List.mem_inits _ _).mpr List.prefix_rfl, hcontrol.symm⟩

theorem websocketFlushOutput_spec (h : Held d) (hframed : Framed d.accepted d.wire)
    (answers : List SendResult) :
    Held (websocketFlushOutput d answers).2 ∧
      (websocketFlushOutput d answers).2.accepted = d.accepted ∧
      (Framed d.accepted (websocketFlushOutput d answers).2.wire ↔
        interrupts d answers = false) := by
  unfold websocketFlushOutput
  split
  · next hsocket =>
      obtain ⟨items, hcontrol, hdrained⟩ := flushKind_spec h .control answers
      have hfirst := flushControl_framed h hframed hcontrol hsocket
      split
      · next result d₁ hhalf =>
          rw [hhalf] at hcontrol hfirst
          exact ⟨hcontrol.held, hcontrol.accepted, hfirst⟩
      · next answers' d₁ hhalf =>
          rw [hhalf] at hcontrol hfirst hdrained
          obtain ⟨items', hdata, -⟩ := flushKind_spec hcontrol.held .data answers'
          have hsecond := flushData_framed hcontrol.held hdata (by
            rw [hcontrol.accepted]
            exact hdrained rfl)
          rw [hcontrol.accepted] at hsecond
          split
          · next result d₂ hhalf' =>
              rw [hhalf'] at hdata hsecond
              exact ⟨hdata.held, hdata.accepted.trans hcontrol.accepted, hsecond.trans hfirst⟩
          · next rest d₂ hhalf' =>
              rw [hhalf'] at hdata hsecond
              exact ⟨hdata.held, hdata.accepted.trans hcontrol.accepted, hsecond.trans hfirst⟩
  · next hsocket =>
      refine ⟨h, rfl, ?_⟩
      have hquiet : interrupts d answers = false := by
        unfold interrupts
        rw [eq_false_of_ne_true hsocket]
        rfl
      exact iff_of_true hframed hquiet

end Flush

/-! ## A frame is sent -/

section Send

variable {d : Descriptor}

def SameOutput (d d' : Descriptor) : Prop :=
  d'.queue = d.queue ∧ d'.accepted = d.accepted ∧ d'.wire = d.wire ∧ d'.socket = d.socket

theorem SameOutput.held {d' : Descriptor} (h : SameOutput d d') (hheld : Held d) : Held d' := by
  intro kind
  rw [h.1, h.2.1, h.2.2.1]
  exact hheld kind

theorem buildFrame_same (d : Descriptor) (opcode : Nat) (data : Bytes) (answers : SendAnswers) :
    SameOutput d (buildFrame d opcode data answers).2 := by
  have hcompressed : SameOutput d (compressPayload d opcode data answers.deflated).1 := by
    unfold compressPayload
    split
    · split
      · exact ⟨rfl, rfl, rfl, rfl⟩
      · exact ⟨funext fun kind => by cases kind <;> rfl, rfl, rfl, rfl⟩
    · exact ⟨rfl, rfl, rfl, rfl⟩
  unfold buildFrame
  split
  · exact ⟨rfl, rfl, rfl, rfl⟩
  · split
    · exact ⟨rfl, rfl, rfl, rfl⟩
    · dsimp only
      split
      · exact hcompressed
      · split
        · exact hcompressed
        · exact hcompressed

theorem buildFrame_ne_nil {opcode : Nat} {data frame : Bytes} {answers : SendAnswers}
    {d' : Descriptor} (h : buildFrame d opcode data answers = (.ok frame, d')) : frame ≠ [] := by
  unfold buildFrame at h
  split at h
  · cases h
  · split at h
    · cases h
    · dsimp only at h
      split at h
      · cases h
      · split at h
        · cases h
        · cases h
          exact List.cons_ne_nil _ _

theorem compacted_held (h : Held d) (kind : OutputKind) :
    Held (d.setQueue kind (d.queue kind).compacted) := by
  obtain ⟨-, hbytes, hnonempty⟩ := h kind
  refine h.update kind (fun other hne => ⟨queue_setQueue_other d kind _ hne, ?_, ?_⟩) ?_ ?_ ?_
  · rw [setQueue_accepted]
  · rw [setQueue_wire]
  · rw [queue_setQueue]
    exact Nat.zero_le _
  · rw [queue_setQueue, setQueue_accepted, setQueue_wire, hbytes]
    rfl
  · rw [setQueue_accepted]
    exact hnonempty

theorem enqueue_accepted (d : Descriptor) (kind : OutputKind) (frame : Bytes) :
    (d.enqueue kind frame).accepted kind = d.accepted kind ++ [frame] :=
  Function.update_self ..

theorem enqueue_accepted_other (d : Descriptor) {kind other : OutputKind} (hne : other ≠ kind)
    (frame : Bytes) : (d.enqueue kind frame).accepted other = d.accepted other :=
  Function.update_of_ne hne ..

theorem enqueue_queue (d : Descriptor) (kind : OutputKind) (frame : Bytes) :
    (d.enqueue kind frame).queue kind =
      { buffer := (d.queue kind).compacted.buffer ++ frame } :=
  queue_setQueue ..

theorem enqueue_queue_other (d : Descriptor) {kind other : OutputKind} (hne : other ≠ kind)
    (frame : Bytes) : (d.enqueue kind frame).queue other = d.queue other :=
  queue_setQueue_other d kind _ hne

theorem enqueue_wire (d : Descriptor) (kind : OutputKind) (frame : Bytes) :
    (d.enqueue kind frame).wire = d.wire :=
  setQueue_wire ..

theorem enqueue_held (h : Held d) (kind : OutputKind) {frame : Bytes} (hframe : frame ≠ []) :
    Held (d.enqueue kind frame) := by
  obtain ⟨-, hbytes, hnonempty⟩ := h kind
  refine h.update kind (fun other hne => ⟨enqueue_queue_other d hne frame,
    enqueue_accepted_other d hne frame, ?_⟩) ?_ ?_ ?_
  · rw [enqueue_wire]
  · rw [enqueue_queue]
    exact Nat.zero_le _
  · rw [enqueue_queue, enqueue_accepted, enqueue_wire, List.flatten_append,
      List.flatten_singleton, hbytes, List.append_assoc]
    rfl
  · rw [enqueue_accepted]
    intro other hother
    rcases List.mem_append.mp hother with hold | hnew
    · exact hnonempty other hold
    · rw [List.mem_singleton.mp hnew]
      exact hframe

theorem websocketQueueOutput_spec (h : Held d) (kind : OutputKind) {data : Bytes}
    (hdata : data ≠ []) (allocated : Bool) :
    Held (websocketQueueOutput d kind data allocated).2 ∧
      (websocketQueueOutput d kind data allocated).2.wire = d.wire ∧
      ∀ other, d.accepted other <+:
        (websocketQueueOutput d kind data allocated).2.accepted other := by
  unfold websocketQueueOutput
  dsimp only
  split
  · exact ⟨h, rfl, fun _ => List.prefix_rfl⟩
  · split
    · exact ⟨h, rfl, fun _ => List.prefix_rfl⟩
    · split
      · refine ⟨enqueue_held h kind hdata, enqueue_wire .., fun other => ?_⟩
        by_cases hsame : other = kind
        · rw [hsame, enqueue_accepted]
          exact List.prefix_append _ _
        · rw [enqueue_accepted_other d hsame]
      · refine ⟨compacted_held h kind, setQueue_wire .., fun other => ?_⟩
        rw [setQueue_accepted]

end Send

/-! ## Runs -/

/-- The descriptor a step's flush begins with, if the step comes to it, and what the
socket answers there. -/
def flushes (d : Descriptor) : OutputEvent → Option (Descriptor × List SendResult)
  | .flushOutput answers => some (d, answers)
  | .sendFrame opcode data answers =>
      match buildFrame d opcode data answers with
      | (.error _, _) => none
      | (.ok frame, d) =>
          match websocketQueueOutput d (frameKind opcode) frame answers.queueAllocated with
          | (.done, d) => some (d, answers.sends)
          | _ => none

/-- The step flushes control output into a data frame. -/
def interrupted (d : Descriptor) (e : OutputEvent) : Bool :=
  (flushes d e).any fun flush => interrupts flush.1 flush.2

/-- The socket has the beginning of whole frames: each queue's first ones, in their order,
and none begun before the one on the wire is done. -/
def WireFramed (d : Descriptor) : Prop := Framed d.accepted d.wire

section Run

variable {d : Descriptor}

theorem failing_spec {p : Descriptor → Prop} (hmark : ∀ d, p d → p { d with writeFailed := true })
    {answer : OutputResult × Descriptor} (h : p answer.2) : p (failing answer).2 := by
  unfold failing
  split
  · exact hmark _ h
  · exact h

theorem outputStep_spec (h : Held d) (hframed : WireFramed d) (e : OutputEvent) :
    Held (outputStep d e) ∧ (WireFramed (outputStep d e) ↔ interrupted d e = false) := by
  cases e with
  | flushOutput answers =>
      obtain ⟨hheld, haccepted, hiff⟩ := websocketFlushOutput_spec h hframed answers
      refine ⟨hheld, ?_⟩
      unfold WireFramed
      rw [outputStep, haccepted]
      exact hiff
  | sendFrame opcode data answers =>
      have hsame := buildFrame_same d opcode data answers
      rw [outputStep]
      unfold interrupted websocketSendFrame
      split
      · next result d₁ hbuilt =>
          have hnone : flushes d (.sendFrame opcode data answers) = none := by
            simp only [flushes, hbuilt]
          rw [hbuilt] at hsame
          rw [hnone]
          refine ⟨hsame.held h, iff_of_true ?_ rfl⟩
          unfold WireFramed
          rw [hsame.2.1, hsame.2.2.1]
          exact hframed
      · next frame d₁ hbuilt =>
          rw [hbuilt] at hsame
          have hframed₁ : WireFramed d₁ := by
            unfold WireFramed
            rw [hsame.2.1, hsame.2.2.1]
            exact hframed
          obtain ⟨hheld, hwire, hmore⟩ := websocketQueueOutput_spec (hsame.held h)
            (frameKind opcode) (buildFrame_ne_nil hbuilt) answers.queueAllocated
          have hqueued : WireFramed (websocketQueueOutput d₁ (frameKind opcode) frame
              answers.queueAllocated).2 := by
            unfold WireFramed
            rw [hwire]
            exact hframed₁.mono hmore
          split
          · next d₂ hqueue =>
              have hflush : flushes d (.sendFrame opcode data answers) =
                  some (d₂, answers.sends) := by
                simp only [flushes, hbuilt, hqueue]
              rw [hqueue] at hheld hqueued
              obtain ⟨hflushed, haccepted, hiff⟩ :=
                websocketFlushOutput_spec hheld hqueued answers.sends
              rw [hflush]
              refine ⟨failing_spec (fun _ hheld => hheld) hflushed, ?_⟩
              refine failing_spec
                (p := fun d => WireFramed d ↔ interrupts d₂ answers.sends = false)
                (fun _ hiff => hiff) ?_
              unfold WireFramed
              rw [haccepted]
              exact hiff
          · next result d₂ hne hqueue =>
              have hnone : flushes d (.sendFrame opcode data answers) = none := by
                simp only [flushes, hbuilt, hqueue]
                split
                · next hdone => exact absurd (Prod.mk.inj hdone).1 hne
                · rfl
              rw [hqueue] at hheld hqueued
              rw [hnone]
              exact ⟨failing_spec (fun _ hheld => hheld) hheld,
                iff_of_true (failing_spec (p := WireFramed) (fun _ hframed => hframed) hqueued) rfl⟩

theorem run_framed (events : List OutputEvent) : ∀ {d : Descriptor}, Held d → WireFramed d →
    ((∀ before, before <+: events → WireFramed (run outputStep d before)) ↔
      Along outputStep (fun d e => interrupted d e = false) d events) := by
  induction events with
  | nil =>
      intro d _ hframed
      refine iff_of_true (fun before hbefore => ?_) trivial
      rw [List.prefix_nil.mp hbefore]
      exact hframed
  | cons e events ih =>
      intro d h hframed
      obtain ⟨hheld, hiff⟩ := outputStep_spec h hframed e
      constructor
      · intro hall
        have hfirst : WireFramed (outputStep d e) :=
          hall [e] ((List.prefix_append_right_inj [e]).mpr List.nil_prefix)
        refine ⟨hiff.mp hfirst, (ih hheld hfirst).mp fun before hbefore => ?_⟩
        exact hall (e :: before) ((List.prefix_append_right_inj [e]).mpr hbefore)
      · rintro ⟨hclear, hlater⟩ before hbefore
        have hfirst := hiff.mpr hclear
        rcases List.prefix_cons_iff.mp hbefore with rfl | ⟨before, rfl, hrest⟩
        · exact hframed
        · exact (ih hheld hfirst).mpr hlater before hrest

/-- Whatever is sent and however the socket takes it, the wire stays framed at every moment
exactly as long as no flush finds control output while a data frame is only partly sent
and the socket takes a byte. -/
theorem output_framed_iff_uninterrupted (compress deflateStream : Bool)
    (events : List OutputEvent) :
    (∀ before, before <+: events →
      WireFramed (run outputStep { compress, deflateStream } before)) ↔
    Along outputStep (fun d e => interrupted d e = false) { compress, deflateStream } events := by
  refine run_framed events (fun kind => ?_) framed_nil
  cases kind with
  | data => exact ⟨Nat.le_refl _, rfl, nofun⟩
  | control => exact ⟨Nat.le_refl _, rfl, nofun⟩

/-- A binary frame of one byte of which the socket takes one byte, and a ping. -/
def pingedFrame : List OutputEvent :=
  [.sendFrame wsOpcodeBinary [7] { sends := [.sent 1] },
    .sendFrame wsOpcodePing [] { sends := [.sent 2] }]

/-- The ping is on the wire behind the first byte of the frame. -/
theorem pingedFrame_interrupted :
    (run outputStep {} pingedFrame).wire =
      [(.data, 0x82), (.control, 0x89), (.control, 0x00)] ∧
    (run outputStep {} pingedFrame).accepted .data = [[0x82, 1, 7]] ∧
    ¬ WireFramed (run outputStep {} pingedFrame) := by
  have hwire : (run outputStep {} pingedFrame).wire =
      [(.data, 0x82)] ++ [(.control, 0x89)] ++ [(.control, 0x00)] := by decide
  have haccepted : (run outputStep {} pingedFrame).accepted .data = [[0x82, 1, 7]] := by decide
  refine ⟨hwire, haccepted, fun hframed => ?_⟩
  unfold WireFramed at hframed
  rw [hwire] at hframed
  have hboundary := hframed.before.others (by decide : OutputKind.data ≠ .control)
  rw [haccepted] at hboundary
  exact absurd hboundary (by decide)

end Run

end Duris.Net
