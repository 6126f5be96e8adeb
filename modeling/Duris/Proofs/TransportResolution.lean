import Duris.Proofs.Transport

/-!
# Answers that are not resolved

An ambiguous or malformed answer says nothing about its records: they may have been
committed. `resolution_required` remembers that there was one, and while it is set a
well-formed `invalid_batch` or `disabled` is not believed. The flag belongs to the batch,
and `start_isolation` offers the records of a batch one at a time.

`Watched` keeps beside the transport which records had such an answer and no later commit,
and `Condition` names the one step that leaves the flag set with nothing behind it: a
record of an isolated batch, not its last, is committed after such an answer.
Along the runs without that step, and along no others, the flag means what it says in
every state.

`Held` is what the queue and the batch in flight agree on in every reachable state, also
behind the steps that lose the books of `Balanced`.
-/

namespace Duris.Telemetry

variable {Payload : Type}

namespace ApplyBatchResult

/-- The answer leaves open what became of the records: it is malformed or ambiguous. -/
def leavesOpen (result : ApplyBatchResult) (attempt : List (Record Payload)) : Bool :=
  match result.outcome with
  | .disabled | .unavailable | .invalidBatch => !result.validateEarlyResult
  | .retryableFailure | .permanentFailure => !result.validateFullResult attempt true
  | .committed | .committedWithRejections => !result.validateFullResult attempt false
  | .commitAmbiguous | .other => true

/-- A well-formed answer with a final outcome for every record. -/
def commits (result : ApplyBatchResult) (attempt : List (Record Payload)) : Bool :=
  (result.outcome = .committed ∨ result.outcome = .committedWithRejections) ∧
    result.validateFullResult attempt false

end ApplyBatchResult

namespace Transport

/-! ## The records without a resolution -/

structure Watched (Payload : Type) where
  transport : Transport Payload
  /-- The records of the batch in flight that had an answer which leaves open what became of
  them, and have not been committed since. -/
  unresolved : List RecordKey := []

namespace Watched

/-- What an answer to an attempt does to the unresolved records. -/
def note (unresolved : List RecordKey) (attempt : List (Record Payload))
    (result : ApplyBatchResult) : List RecordKey :=
  let keys := attempt.map (·.header.key)
  if result.leavesOpen attempt then unresolved ++ keys
  else if result.commits attempt then unresolved.filter (· ∉ keys)
  else unresolved

def noteEvent (w : Watched Payload) : Event Payload → List RecordKey
  | .answer result =>
      match w.transport.worker with
      | .calling _ _ attempt => note w.unresolved attempt result
      | .idle | .draining _ => w.unresolved
  | _ => w.unresolved

def step (format : RecordFormat Payload) (w : Watched Payload) (event : Event Payload) :
    Watched Payload :=
  let transport := w.transport.step format event
  { transport
    unresolved := if transport.inflight.active then w.noteEvent event else [] }

/-- Some record of the next attempt is unresolved. -/
def Unresolved (w : Watched Payload) : Prop :=
  ∃ record ∈ w.transport.attemptRecords, record.header.key ∈ w.unresolved

instance (w : Watched Payload) : Decidable w.Unresolved :=
  inferInstanceAs (Decidable (∃ record ∈ w.transport.attemptRecords, _))

/-- The answer commits an unresolved record of an isolated batch that has another record
behind it. -/
def Strands (w : Watched Payload) (result : ApplyBatchResult) : Prop :=
  w.transport.isCalling = true ∧ w.transport.inflight.isolation = true ∧
    w.transport.inflight.isolationIndex + 1 < w.transport.inflight.count ∧
    result.commits w.transport.attemptRecords = true ∧ w.Unresolved

instance (w : Watched Payload) (result : ApplyBatchResult) : Decidable (w.Strands result) :=
  inferInstanceAs (Decidable (_ ∧ _ ∧ _ ∧ _ ∧ _))

def Condition (w : Watched Payload) : Event Payload → Prop
  | .answer result => ¬w.Strands result
  | _ => True

instance Condition.decidable (w : Watched Payload) :
    ∀ event : Event Payload, Decidable (w.Condition event)
  | .answer _ => inferInstanceAs (Decidable (¬_))
  | .enqueue _ => inferInstanceAs (Decidable True)
  | .check => inferInstanceAs (Decidable True)
  | .push _ => inferInstanceAs (Decidable True)
  | .leave => inferInstanceAs (Decidable True)
  | .pulse .. => inferInstanceAs (Decidable True)
  | .drainUntil _ => inferInstanceAs (Decidable True)
  | .drainPulse .. => inferInstanceAs (Decidable True)
  | .requestStop => inferInstanceAs (Decidable True)
  | .shutdown => inferInstanceAs (Decidable True)

end Watched

/-! ## What an invalid batch must do -/

/-- The batch is isolated, and nothing else has changed. -/
def Isolates (s s' : Transport Payload) : Prop :=
  1 < s.inflight.count ∧ s.inflight.isolation = false ∧
    s'.inflight = s.startIsolation.inflight ∧ s'.inflightRecords = s.inflightRecords ∧
    s'.queue = s.queue ∧ s'.counters = s.counters ∧ s'.ledger = s.ledger

/-- The batch goes on behind the attempt: to the record behind it or, if there is none, out
of the queue. -/
def GoesOn (s s' : Transport Payload) : Prop :=
  (s.inflight.isolation = true ∧ s.inflight.isolationIndex + 1 < s.inflight.count ∧
      s'.inflight = s.nextIsolated.inflight ∧ s'.inflightRecords = s.inflightRecords ∧
      s'.queue = s.queue) ∨
    ((s.inflight.isolation = true → ¬s.inflight.isolationIndex + 1 < s.inflight.count) ∧
      s'.inflight = {} ∧ s'.queue.records = s.queue.records.drop s.inflight.count)

def CountsInvalid (s : Transport Payload) (attempt : List (Record Payload))
    (s' : Transport Payload) : Prop :=
  ∃ record, attempt = [record] ∧ s'.counters = s.counters.add .invalidRecords 1 ∧
    s'.ledger.answered = s.ledger.answered ++ [record.header.key]

def MakesProgress (s : Transport Payload) (attempt : List (Record Payload))
    (s' : Transport Payload) : Prop :=
  Isolates s s' ∨ (CountsInvalid s attempt s' ∧ GoesOn s s')

/-- The transport is not wedged: its flag stands for an answer that is still open, and an
invalid batch without one makes progress. -/
structure NotWedged (format : RecordFormat Payload) (w : Watched Payload) : Prop where
  justified : w.transport.inflight.resolutionRequired = true → w.Unresolved
  progress : ∀ drain now attempt result, w.transport.worker = .calling drain now attempt →
    ¬w.Unresolved → result.outcome = .invalidBatch → result.validateEarlyResult = true →
    MakesProgress w.transport attempt (w.transport.step format (.answer result))

/-! ## What holds in every reachable state -/

variable {format : RecordFormat Payload} {s : Transport Payload}
  {retained : List (QueueSlot Payload)}

/-- The batch is a prefix of the queue, and its next record is one of it. -/
structure Front (batch : Batch) (records : List (Record Payload))
    (retained : List (QueueSlot Payload)) : Prop where
  pos : 0 < batch.count
  count_le : batch.count ≤ retained.length
  records_eq : records = (retained.take batch.count).map (·.record)
  control_eq : batch.controlCount = (retained.take batch.count).countP (·.record.isControl)
  index_lt : batch.isolation = true → batch.isolationIndex < batch.count

theorem Front.append {batch : Batch} {records : List (Record Payload)}
    (h : Front batch records retained) (more : List (QueueSlot Payload)) :
    Front batch records (retained ++ more) := by
  have htake : (retained ++ more).take batch.count = retained.take batch.count :=
    List.take_append_of_le_length h.count_le
  refine ⟨h.pos, ?_, ?_, ?_, h.index_lt⟩
  · rw [List.length_append]
    exact Nat.le_add_right_of_le h.count_le
  · rw [htake]
    exact h.records_eq
  · rw [htake]
    exact h.control_eq

structure Held (s : Transport Payload) (retained : List (QueueSlot Payload)) : Prop where
  keeps : s.queue.Keeps retained
  idle : s.inflight.active = false → s.inflight = {}
  front : s.inflight.active = true → Front s.inflight.toBatch s.inflightRecords retained

section

variable (h : Front s.inflight.toBatch s.inflightRecords retained)

include h

theorem Front.length :
    s.inflightRecords.length = s.inflight.count := by
  rw [h.records_eq, List.length_map, List.length_take_of_le h.count_le]

theorem Front.attempt_ne_nil :
    s.attemptRecords ≠ [] := by
  have hlength := h.length
  have hpos : 0 < s.inflight.count := h.pos
  rw [attemptRecords, ← List.length_pos_iff]
  cases hiso : s.inflight.isolation with
  | true =>
      have hlt : s.inflight.isolationIndex < s.inflight.count := h.index_lt hiso
      rw [if_pos rfl, List.length_take, List.length_drop]
      omega
  | false =>
      rw [if_neg Bool.false_ne_true, List.length_take]
      omega

theorem Front.single (hsingle : ¬(1 < s.inflight.count ∧ s.inflight.isolation = false)) :
    ∃ record, s.inflightRecords[s.attemptIndex]? = some record ∧ s.attemptRecords = [record] := by
  have hlength := h.length
  have hpos : 0 < s.inflight.count := h.pos
  have hlt : s.attemptIndex < s.inflightRecords.length := by
    rw [attemptIndex]
    split
    · next hiso => exact hlength ▸ h.index_lt hiso
    · omega
  refine ⟨s.inflightRecords[s.attemptIndex], List.getElem?_eq_getElem hlt, ?_⟩
  have hrecord := List.getElem?_eq_getElem hlt
  rw [attemptRecords]
  cases hiso : s.inflight.isolation with
  | true =>
      have hindex : s.attemptIndex = s.inflight.isolationIndex := by rw [attemptIndex, if_pos hiso]
      rw [if_pos rfl, List.take_one, List.head?_drop, ← hindex, hrecord]
      rfl
  | false =>
      have hindex : s.attemptIndex = 0 := by
        rw [attemptIndex, if_neg (Bool.eq_false_iff.mp hiso)]
      have hcount : s.inflight.count = 1 := by
        have hle : ¬1 < s.inflight.count := fun hlt => hsingle ⟨hlt, hiso⟩
        omega
      rw [if_neg Bool.false_ne_true, hcount, List.take_one, List.head?_eq_getElem?, ← hindex,
        hrecord]
      rfl

end

theorem Held.commit (h : Held s retained) (hactive : s.inflight.active = true) :
    ∃ queue, s.queue.commit s.inflight.count s.inflight.controlCount = some queue ∧
      queue.Keeps (retained.drop s.inflight.count) :=
  have hfront := h.front hactive
  h.keeps.commit hfront.pos hfront.count_le hfront.control_eq

/-- The next record of an isolated batch is up, or the batch leaves the queue. -/
theorem Held.advanceBatch (h : Held s retained) (hactive : s.inflight.active = true) (now : Nat) :
    (s.inflight.isolation = true ∧ s.inflight.isolationIndex + 1 < s.inflight.count ∧
        s.advanceBatch now = s.nextIsolated) ∨
      ((s.inflight.isolation = true → ¬s.inflight.isolationIndex + 1 < s.inflight.count) ∧
        ∃ queue, queue.Keeps (retained.drop s.inflight.count) ∧
          s.advanceBatch now = { s with queue, inflight := {} }) := by
  obtain ⟨queue, hcommit, hkeeps⟩ := h.commit hactive
  rw [Transport.advanceBatch]
  split
  · next hiso =>
    split
    · next hmore => exact .inl ⟨hiso, hmore, rfl⟩
    · next hmore =>
      have hcommit' : s.nextIsolated.queue.commit s.nextIsolated.inflight.count
          s.nextIsolated.inflight.controlCount = some queue := hcommit
      refine .inr ⟨fun _ => hmore, queue, hkeeps, ?_⟩
      rw [releaseBatch, hcommit']
      rfl
  · next hiso =>
    refine .inr ⟨fun h => absurd h hiso, queue, hkeeps, ?_⟩
    rw [releaseBatch, hcommit]

theorem reportSuccess_eq (s : Transport Payload) (result : ApplyBatchResult) :
    ∃ state, s.reportSuccess result = s.setHealthState state := by
  rw [reportSuccess]
  split
  · exact ⟨s.healthState, rfl⟩
  · split
    · exact ⟨_, rfl⟩
    · exact ⟨_, rfl⟩

/-- An accepted answer counts the records of the attempt, and the batch goes on. -/
theorem Held.handleSuccess (h : Held s retained) (hactive : s.inflight.active = true)
    (result : ApplyBatchResult) (attempt : List (Record Payload)) (now : Nat) (pulse : Pulse) :
    ∃ s', (s.handleSuccess result attempt now pulse).1 = s' ∧
      s'.counters = (result.items attempt.length).foldl Counters.addItem s.counters ∧
      s'.ledger.answered = s.ledger.answered ++ attempt.map (·.header.key) ∧
      s'.shutdownRequested = s.shutdownRequested ∧ GoesOn s s' ∧
      ∃ retained', Held s' retained' := by
  have hfront := h.front hactive
  obtain ⟨state, hstate⟩ := reportSuccess_eq
    ((s.updatePulseCounts result attempt.length pulse).1.recordAnswers attempt) result
  have hcounted : Held (((s.updatePulseCounts result attempt.length pulse).1.recordAnswers
      attempt).setHealthState state) retained := ⟨h.keeps, h.idle, h.front⟩
  rw [Transport.handleSuccess]
  simp only [hstate]
  rcases hcounted.advanceBatch hactive now with ⟨hiso, hmore, hnext⟩ | ⟨hlast, queue, hkeeps, hgone⟩
  · refine ⟨_, hnext, rfl, rfl, rfl, .inl ⟨hiso, hmore, rfl, rfl, rfl⟩, retained, h.keeps, ?_, ?_⟩
    · intro hidle
      exact absurd (hactive.symm.trans hidle) (by decide)
    · intro _
      exact ⟨hfront.pos, hfront.count_le, hfront.records_eq, hfront.control_eq, fun _ => hmore⟩
  · refine ⟨_, hgone, rfl, rfl, rfl, .inr ⟨hlast, rfl, ?_⟩, _, hkeeps, fun _ => rfl, ?_⟩
    · rw [hkeeps.records, h.keeps.records, List.map_drop]
      rfl
    · intro hactive'
      cases hactive'

/-! ## What the flag keeps -/

theorem inflight_markFailure (s : Transport Payload) : s.markFailure.inflight = s.inflight := by
  rw [markFailure]
  split <;> rfl

theorem inflight_openCircuit (s : Transport Payload) : s.openCircuit.inflight = s.inflight := by
  rw [openCircuit]
  split <;> rfl

theorem inflight_scheduleRepositoryRetry (s : Transport Payload) (now : Nat) :
    (s.scheduleRepositoryRetry now).inflight = s.inflight := inflight_markFailure _

theorem inflight_initAnswered (s : Transport Payload) (now : Nat) (init : RepositoryOutcome) :
    (s.initAnswered now init).2.inflight = s.inflight := by
  cases init with
  | ready | alreadyReady => exact (apply_ite inflight ..).trans (ite_self _)
  | flatfileDisabled => exact (apply_ite inflight ..).trans (ite_self _)
  | stopping | closed => rfl
  | permanentFailure => exact inflight_openCircuit s
  | invalidConfig | unavailable | other => exact inflight_scheduleRepositoryRetry s now

theorem inflight_ensureRepository (s : Transport Payload) (now : Nat)
    (init : RepositoryOutcome) : (s.ensureRepository now init).2.inflight = s.inflight := by
  rw [ensureRepository]
  split
  · rfl
  · split
    · rfl
    · split
      · rfl
      · exact inflight_initAnswered s now init

theorem inflight_finishPulse (s : Transport Payload) (drain : Option Drain) (now : Nat)
    (called : Bool) (pulse : Pulse) :
    (s.finishPulse drain now called pulse).inflight = s.inflight := by
  cases drain with
  | none => rfl
  | some drain =>
      rw [finishPulse]
      split
      · rw [endDrain]
        split <;> rfl
      · rfl

theorem required_scheduleInflightRetry (s : Transport Payload) (now : Nat) (ambiguous : Bool) :
    (s.scheduleInflightRetry now ambiguous).inflight.resolutionRequired =
      (s.inflight.resolutionRequired || ambiguous) := by
  rw [scheduleInflightRetry, delayAttempt]
  split
  · exact congrArg Inflight.resolutionRequired
      (congrArg (fun inflight => { inflight with retryNotBefore := uint64Max })
        (inflight_openCircuit (s.countAttempt ambiguous)))
  · rw [inflight_markFailure]
    rfl

theorem required_handleCorruptCallback (s : Transport Payload) (now : Nat) :
    (s.handleCorruptCallback now).inflight.resolutionRequired = true := by
  rw [handleCorruptCallback, required_scheduleInflightRetry]
  rfl

theorem required_handleRetryResult (s : Transport Payload) (result : ApplyBatchResult)
    (now : Nat) :
    (s.handleRetryResult result now).inflight.resolutionRequired =
      (s.inflight.resolutionRequired || decide (result.outcome = .commitAmbiguous)) := by
  rw [handleRetryResult, required_scheduleInflightRetry]
  split
  · rw [inflight_scheduleRepositoryRetry]
  · rfl

variable {s' : Transport Payload} {result : ApplyBatchResult} {attempt : List (Record Payload)}

theorem Held.of_books (h : Held s retained) (hactive : s.inflight.active = true)
    (heq : s'.books = s.books) : Held s' retained := by
  have hbatch : s'.inflight.toBatch = s.inflight.toBatch := congrArg Books.batch heq
  have hqueue : s'.queue = s.queue := congrArg Books.queue heq
  have hrecords : s'.inflightRecords = s.inflightRecords := congrArg Books.inflightRecords heq
  refine ⟨hqueue ▸ h.keeps, fun hidle => ?_, fun _ => ?_⟩
  · have hactive' : s'.inflight.active = true := (congrArg Batch.active hbatch).trans hactive
    exact absurd (hactive'.symm.trans hidle) (by decide)
  · rw [hbatch, hrecords]
    exact h.front hactive

theorem attemptRecords_of_books (heq : s'.books = s.books) :
    s'.attemptRecords = s.attemptRecords := by
  rw [attemptRecords_eq, attemptRecords_eq, heq]

/-! ## The answers -/

theorem Held.disableTransport (h : Held s retained) (hactive : s.inflight.active = true) :
    s.disableTransport.inflight = {} ∧
      s.disableTransport.shutdownRequested = s.shutdownRequested ∧
      ∃ retained', Held s.disableTransport retained' := by
  obtain ⟨queue, hcommit, hkeeps⟩ := h.commit hactive
  have hdiscard : s.discardInflightForDisabled =
      { s with
        queue, inflight := {}
        counters := s.counters.addDropped s.inflight.count s.inflight.controlCount } := by
    rw [discardInflightForDisabled, hactive, Bool.not_true, if_neg Bool.false_ne_true, hcommit]
    rfl
  rw [Transport.disableTransport, hdiscard, discardRecordsForDisabled, hkeeps.physicalDepth]
  simp only [hkeeps.countP_peek]
  split
  · exact ⟨rfl, rfl, _, hkeeps, fun _ => rfl, fun hactive' => by cases hactive'⟩
  · next hsome =>
    obtain ⟨queue', hcommit', hkeeps'⟩ :=
      hkeeps.commit (Nat.pos_of_ne_zero hsome) (Nat.le_refl _) (by rw [List.take_length])
    rw [hcommit']
    exact ⟨rfl, rfl, _, hkeeps', fun _ => rfl, fun hactive' => by cases hactive'⟩

theorem rejection_items (key : RecordKey) :
    (rejection key).items 1 = [{ key, outcome := .rejectedInvalid }] := by
  rw [ApplyBatchResult.items, rejection, Vector.toList_ofFn]
  exact congrArg (List.take 1) (@List.ofFn_succ _ 127 _)

theorem Held.handleInvalidBatch (h : Held s retained) (hactive : s.inflight.active = true)
    (now : Nat) (pulse : Pulse) :
    ∃ s', (s.handleInvalidBatch now pulse).1 = s' ∧ MakesProgress s s.attemptRecords s' ∧
      s'.shutdownRequested = s.shutdownRequested ∧
      (s'.inflight.resolutionRequired = true → s.inflight.resolutionRequired = true) ∧
      ∃ retained', Held s' retained' := by
  have hfront := h.front hactive
  rw [Transport.handleInvalidBatch]
  split
  · next hwhole =>
    have hiso : s.inflight.isolation = false := by simpa using hwhole.2
    refine ⟨_, rfl, .inl ⟨hwhole.1, hiso, rfl, rfl, rfl, rfl, rfl⟩, rfl, id, retained, h.keeps,
      ?_, ?_⟩
    · intro hidle
      exact absurd (hactive.symm.trans hidle) (by decide)
    · intro _
      exact ⟨hfront.pos, hfront.count_le, hfront.records_eq, hfront.control_eq,
        fun _ => hfront.pos⟩
  · next hsingle =>
    obtain ⟨record, hrecord, hattempt⟩ := hfront.single (by simpa using hsingle)
    obtain ⟨s', hs', hcounters, hanswered, hrequested, hgoes, hheld⟩ :=
      h.handleSuccess hactive (rejection record.header.key) [record] now pulse
    have hitems := rejection_items record.header.key
    rw [rejectRecord, hrecord]
    refine ⟨s', hs', .inr ⟨⟨record, hattempt, ?_, hanswered⟩, hgoes⟩, hrequested, ?_, hheld⟩
    · rw [hcounters, List.length_singleton, hitems]
      rfl
    · rcases hgoes with ⟨-, -, hnext, -⟩ | ⟨-, hgone, -⟩
      · rw [hnext]
        exact id
      · rw [hgone]
        exact fun hrequired => by cases hrequired

inductive Answered (s : Transport Payload) (attempt : List (Record Payload))
    (result : ApplyBatchResult) (s' : Transport Payload) : Prop
  | stays (books : s'.books = s.books) (commits : result.commits attempt = false)
      (required : s'.inflight.resolutionRequired =
        (s.inflight.resolutionRequired || result.leavesOpen attempt))
  | settles (before : s.inflight.resolutionRequired = false)
      (closed : result.leavesOpen attempt = false) (commits : result.commits attempt = false)
      (after : s'.inflight.resolutionRequired = false)
  | commits (commits : result.commits attempt = true) (goesOn : GoesOn s s')

theorem commits_eq_false (houtcome : result.outcome = outcome)
    (hnot : outcome ≠ .committed ∧ outcome ≠ .committedWithRejections) :
    result.commits attempt = false := by
  rw [ApplyBatchResult.commits, houtcome, decide_eq_false_iff_not]
  rintro ⟨hcommits | hcommits, -⟩
  · exact hnot.1 hcommits
  · exact hnot.2 hcommits

structure AnswerEnds (s : Transport Payload) (attempt : List (Record Payload))
    (result : ApplyBatchResult) (s' : Transport Payload) : Prop where
  answered : Answered s attempt result s'
  requested : s'.shutdownRequested = s.shutdownRequested
  held : ∃ retained, Held s' retained

section

variable (h : Held s retained)

include h

theorem AnswerEnds.stays (hactive : s.inflight.active = true)
    (hbooks : s'.books = s.books) (hcommits : result.commits attempt = false)
    (hrequired : s'.inflight.resolutionRequired =
      (s.inflight.resolutionRequired || result.leavesOpen attempt)) :
    AnswerEnds s attempt result s' :=
  ⟨.stays hbooks hcommits hrequired, congrArg Books.shutdownRequested hbooks, retained,
    h.of_books hactive hbooks⟩

theorem AnswerEnds.corrupt (hactive : s.inflight.active = true)
    (hcommits : result.commits attempt = false) (hopen : result.leavesOpen attempt = true)
    (now : Nat) : AnswerEnds s attempt result (s.handleCorruptCallback now) := by
  refine .stays h hactive (books_handleCorruptCallback s now) hcommits ?_
  rw [required_handleCorruptCallback, hopen, Bool.or_true]

theorem AnswerEnds.malformed (hactive : s.inflight.active = true)
    (hcommits : result.commits attempt = false) {valid : Bool}
    (hopen : result.leavesOpen attempt = !valid) (hvalid : ¬ valid = true) (now : Nat) :
    AnswerEnds s attempt result (s.handleCorruptCallback now) :=
  .corrupt h hactive hcommits (by rw [hopen, Bool.eq_false_iff.mpr hvalid]; rfl) now

theorem AnswerEnds.retry (hactive : s.inflight.active = true)
    (hcommits : result.commits attempt = false)
    (hopen : result.leavesOpen attempt = decide (result.outcome = .commitAmbiguous)) (now : Nat) :
    AnswerEnds s attempt result (s.handleRetryResult result now) := by
  refine .stays h hactive (books_handleRetryResult s result now) hcommits ?_
  rw [required_handleRetryResult, hopen]

theorem AnswerEnds.success (hactive : s.inflight.active = true)
    (hcommits : result.commits attempt = true) (now : Nat) (pulse : Pulse) :
    AnswerEnds s attempt result (s.handleSuccess result attempt now pulse).1 := by
  obtain ⟨s', hs', -, -, hrequested, hgoes, hheld⟩ :=
    h.handleSuccess hactive result attempt now pulse
  rw [hs']
  exact ⟨.commits hcommits hgoes, hrequested, hheld⟩

/-- The two answers that may commit. -/
theorem AnswerEnds.committed (hactive : s.inflight.active = true)
    (houtcome : result.outcome = .committed ∨ result.outcome = .committedWithRejections)
    (now : Nat) (pulse unavailable : Pulse) :
    AnswerEnds s attempt result (if result.validateFullResult attempt false then
      s.handleSuccess result attempt now pulse
        else (s.handleCorruptCallback now, unavailable)).1 := by
  have hopen : result.leavesOpen attempt = !result.validateFullResult attempt false := by
    rcases houtcome with houtcome | houtcome <;> rw [ApplyBatchResult.leavesOpen, houtcome]
  split
  · next hvalid => exact .success h hactive (decide_eq_true ⟨houtcome, hvalid⟩) now pulse
  · next hmalformed =>
    exact .malformed h hactive (decide_eq_false fun hcommits => hmalformed hcommits.2) hopen
      hmalformed now

theorem Held.answerInflight (hactive : s.inflight.active = true)
    (attempt : List (Record Payload)) (now : Nat) (result : ApplyBatchResult) (pulse : Pulse) :
    AnswerEnds s attempt result (s.answerInflight attempt now result pulse).1 := by
  rw [Transport.answerInflight]
  split
  · next hresolution =>
    obtain ⟨hrequired, houtcome⟩ := hresolution
    have hcommits : result.commits attempt = false := by
      rcases houtcome with houtcome | houtcome <;> exact commits_eq_false houtcome (by decide)
    refine .stays h hactive (books_scheduleInflightRetry s now true) hcommits ?_
    rw [required_scheduleInflightRetry, hrequired, Bool.true_or, Bool.true_or]
  · next hresolution =>
    have hbelieved : result.outcome = .invalidBatch ∨ result.outcome = .disabled →
        s.inflight.resolutionRequired = false := by
      intro houtcome
      rw [Bool.eq_false_iff]
      exact fun hrequired => hresolution ⟨hrequired, houtcome⟩
    split
    · next houtcome =>
      have hcommits : result.commits attempt = false := commits_eq_false houtcome (by decide)
      have hopen : result.leavesOpen attempt = !result.validateEarlyResult := by
        rw [ApplyBatchResult.leavesOpen, houtcome]
      rw [handleDisabledCallback]
      split
      · next hmalformed => exact .corrupt h hactive hcommits (hopen.trans hmalformed) now
      · next hvalid =>
        obtain ⟨hgone, hrequested, hheld⟩ := h.disableTransport hactive
        refine ⟨.settles (hbelieved (.inr houtcome)) (hopen.trans (by simpa using hvalid))
          hcommits ?_, hrequested, hheld⟩
        rw [hgone]
    · next houtcome =>
      have hcommits : result.commits attempt = false := commits_eq_false houtcome (by decide)
      have hopen : result.leavesOpen attempt = !result.validateEarlyResult := by
        rw [ApplyBatchResult.leavesOpen, houtcome]
      split
      · next hvalid =>
        exact .retry h hactive hcommits (by rw [hopen, hvalid, houtcome]; decide) now
      · next hmalformed => exact .malformed h hactive hcommits hopen hmalformed now
    · next houtcome =>
      have hcommits : result.commits attempt = false := commits_eq_false houtcome (by decide)
      have hopen : result.leavesOpen attempt = !result.validateEarlyResult := by
        rw [ApplyBatchResult.leavesOpen, houtcome]
      split
      · next hvalid =>
        have hbefore := hbelieved (.inl houtcome)
        obtain ⟨s', hs', -, hrequested, hrequired, hheld⟩ := h.handleInvalidBatch hactive now pulse
        rw [hs']
        refine ⟨.settles hbefore (by rw [hopen, hvalid]; rfl) hcommits ?_, hrequested, hheld⟩
        rw [Bool.eq_false_iff]
        exact fun hafter => Bool.eq_false_iff.mp hbefore (hrequired hafter)
      · next hmalformed => exact .malformed h hactive hcommits hopen hmalformed now
    · next houtcome =>
      have hcommits : result.commits attempt = false := commits_eq_false houtcome (by decide)
      have hopen : result.leavesOpen attempt = !result.validateFullResult attempt true := by
        rw [ApplyBatchResult.leavesOpen, houtcome]
      split
      · next hvalid =>
        exact .retry h hactive hcommits (by rw [hopen, hvalid, houtcome]; decide) now
      · next hmalformed => exact .malformed h hactive hcommits hopen hmalformed now
    · next houtcome =>
      have hcommits : result.commits attempt = false := commits_eq_false houtcome (by decide)
      have hopen : result.leavesOpen attempt = true := by
        rw [ApplyBatchResult.leavesOpen, houtcome]
      split
      · exact .retry h hactive hcommits (by rw [hopen, houtcome]; decide) now
      · exact .corrupt h hactive hcommits hopen now
    · next houtcome =>
      have hcommits : result.commits attempt = false := commits_eq_false houtcome (by decide)
      have hopen : result.leavesOpen attempt = !result.validateFullResult attempt true := by
        rw [ApplyBatchResult.leavesOpen, houtcome]
      split
      · next hvalid =>
        refine .stays h hactive (books_openCircuit s) hcommits ?_
        rw [inflight_openCircuit, hopen, hvalid, Bool.not_true, Bool.or_false]
      · next hmalformed => exact .malformed h hactive hcommits hopen hmalformed now
    · next houtcome => exact .committed h hactive (.inl houtcome) now pulse _
    · next houtcome => exact .committed h hactive (.inr houtcome) now pulse _
    · next houtcome =>
      have hopen : result.leavesOpen attempt = true := by
        rw [ApplyBatchResult.leavesOpen, houtcome]
      exact .corrupt h hactive (commits_eq_false houtcome (by decide)) hopen now

end

/-! ## The other steps -/

/-- What a step without an answer does to the batch in flight. -/
inductive Moved (s s' : Transport Payload) : Prop
  | same (inflight : s'.inflight = s.inflight) (records : s'.inflightRecords = s.inflightRecords)
  | begun (idle : s.inflight = {}) (required : s'.inflight.resolutionRequired = false)
  | gone (inflight : s'.inflight = {})

theorem Moved.after {t : Transport Payload} (h : Moved t s') (hinflight : t.inflight = s.inflight)
    (hrecords : t.inflightRecords = s.inflightRecords) : Moved s s' := by
  cases h with
  | same hsame hkept => exact .same (hsame.trans hinflight) (hkept.trans hrecords)
  | begun hidle hrequired => exact .begun (hinflight.symm.trans hidle) hrequired
  | gone hgone => exact .gone hgone

theorem Held.of_same (h : Held s retained) (heq : s'.books = s.books)
    (hinflight : s'.inflight = s.inflight) : Held s' retained := by
  have hqueue : s'.queue = s.queue := congrArg Books.queue heq
  have hrecords : s'.inflightRecords = s.inflightRecords := congrArg Books.inflightRecords heq
  refine ⟨hqueue ▸ h.keeps, ?_, ?_⟩
  · rw [hinflight]
    exact h.idle
  · rw [hinflight, hrecords]
    exact h.front

/-- What a pulse leaves behind where it calls the repository or ends. -/
structure PulseEnds (s s' : Transport Payload) (result : Option Pulse) : Prop where
  moved : Moved s s'
  held : ∃ retained, Held s' retained
  requested : s'.shutdownRequested = s.shutdownRequested
  calling : result = none → s'.inflight.active = true ∧
    ∃ drain now, s'.worker = .calling drain now s'.attemptRecords

theorem PulseEnds.same (h : Held s retained) (heq : s'.books = s.books)
    (hinflight : s'.inflight = s.inflight) (pulse : Pulse) :
    PulseEnds s s' (some pulse) where
  moved := .same hinflight (congrArg Books.inflightRecords heq)
  held := ⟨retained, h.of_same heq hinflight⟩
  requested := congrArg Books.shutdownRequested heq
  calling hnone := by cases hnone

theorem Held.pulseReady (h : Held s retained) (hopen : s.circuitOpen = false)
    (hready : s.repositoryReady = true) (drain : Option Drain) (now : Nat) (force : Bool)
    (init : RepositoryOutcome) :
    PulseEnds s (s.pulseReady format drain now force init).1
      (s.pulseReady format drain now force init).2 := by
  rw [Transport.pulseReady]
  split
  · next hactive =>
    split
    · exact .same h rfl rfl _
    · rw [attemptInflight_ready hopen hready]
      exact ⟨.same rfl rfl, ⟨retained, h.keeps, h.idle, h.front⟩, rfl,
        fun _ => ⟨hactive, drain, now, rfl⟩⟩
  · next hidle =>
    have hempty : s.inflight = {} := h.idle (Bool.eq_false_iff.mpr hidle)
    cases hflush : s.flushBatch format now force with
    | mk begun s' =>
        have htook : s.beginBatch format = (begun, s') → _ := beginBatch_front h.keeps
        rw [flushBatch] at hflush
        split at hflush
        · rcases htook hflush with ⟨rfl, rfl⟩ | ⟨rfl, count, hpos, hcount, -, hbegun⟩
          · exact .same h rfl rfl _
          · have hopen' : s'.circuitOpen = false := by rw [hbegun]; exact hopen
            have hready' : s'.repositoryReady = true := by rw [hbegun]; exact hready
            simp only
            rw [attemptInflight_ready hopen' hready']
            subst hbegun
            refine ⟨.begun hempty rfl,
              ⟨retained, h.keeps, fun hidle' => (by cases hidle'), fun _ => ?_⟩, rfl,
              fun _ => ⟨rfl, drain, now, rfl⟩⟩
            exact ⟨hpos, hcount, rfl, List.countP_map, fun hiso => by cases hiso⟩
        · cases hflush
          exact .same h rfl rfl _

theorem Held.pulseImpl (h : Held s retained) (drain : Option Drain) (now : Nat) (force : Bool)
    (init : RepositoryOutcome) :
    PulseEnds s (s.pulseImpl format drain now force init).1
      (s.pulseImpl format drain now force init).2 := by
  rw [Transport.pulseImpl]
  split
  · exact .same h rfl rfl _
  · split
    · exact .same h rfl rfl _
    · split
      · exact .same h rfl rfl _
      · split
        · exact .same h (books_setHealthState s .stopped) rfl _
        · have hbooks := books_ensureRepository s now init
          have hinflight := inflight_ensureRepository s now init
          cases hensure : s.ensureRepository now init with
          | mk ready s' =>
              rw [hensure] at hbooks hinflight
              cases ready with
              | false => exact .same h hbooks hinflight _
              | true =>
                  obtain ⟨hopen, hready⟩ := ensureRepository_ready hensure
                  have hheld : Held s' retained := h.of_same hbooks hinflight
                  have hends : PulseEnds s' (s'.pulseReady format drain now force init).1 _ :=
                    hheld.pulseReady hopen hready drain now force init
                  have hrecords : s'.inflightRecords = s.inflightRecords :=
                    congrArg Books.inflightRecords hbooks
                  exact ⟨hends.moved.after hinflight hrecords, hends.held,
                    hends.requested.trans (congrArg Books.shutdownRequested hbooks), hends.calling⟩

structure Reached (s : Transport Payload) : Prop where
  held : ∃ retained, Held s retained
  calling : ∀ drain now attempt, s.worker = .calling drain now attempt →
    s.inflight.active = true ∧ attempt = s.attemptRecords
  joined : s.shutdownRequested = true → s.worker = .idle

namespace Reached

theorem aside (h : Reached s) (s' : Transport Payload) (hqueue : s'.queue = s.queue)
    (hinflight : s'.inflight = s.inflight) (hrecords : s'.inflightRecords = s.inflightRecords)
    (hworker : s'.worker = s.worker) (hrequested : s'.shutdownRequested = s.shutdownRequested) :
    Reached s' ∧ Moved s s' := by
  obtain ⟨retained, hheld⟩ := h.held
  refine ⟨⟨⟨retained, hqueue ▸ hheld.keeps, ?_, ?_⟩, ?_, ?_⟩, .same hinflight hrecords⟩
  · rw [hinflight]
    exact hheld.idle
  · rw [hinflight, hrecords]
    exact hheld.front
  · intro drain now attempt hcalling
    rw [hworker] at hcalling
    rw [hinflight, attemptRecords, hinflight, hrecords]
    exact h.calling drain now attempt hcalling
  · rw [hrequested, hworker]
    exact h.joined

theorem finalize (h : Reached s) (hworker : s.worker = .idle) :
    Reached s.finalizeShutdown ∧ Moved s s.finalizeShutdown := by
  rw [finalizeShutdown]
  split
  · exact h.aside _ rfl rfl rfl rfl rfl
  · refine ⟨⟨⟨[], Queue.keeps_reset s.queue, fun _ => rfl, fun hactive => (by cases hactive)⟩, ?_,
      fun hrequested => by cases hrequested⟩, .gone rfl⟩
    intro drain now attempt hcalling
    exact absurd (hworker.symm.trans hcalling) (fun heq => by cases heq)

theorem workerPulse (h : Reached s) (hrequested : s.shutdownRequested = false)
    (drain : Option Drain) (now : Nat) (force : Bool) (init : RepositoryOutcome) :
    Reached (s.workerPulse format drain now force init) ∧
      Moved s (s.workerPulse format drain now force init) := by
  obtain ⟨retained, hheld⟩ := h.held
  have hends : PulseEnds s (s.pulseImpl format drain now force init).1 _ :=
    hheld.pulseImpl drain now force init
  rw [Transport.workerPulse]
  cases hpulse : s.pulseImpl format drain now force init with
  | mk s' result =>
      rw [hpulse] at hends
      have hnot : s'.shutdownRequested ≠ true :=
        Bool.eq_false_iff.mp (hends.requested.trans hrequested)
      cases result with
      | none =>
          obtain ⟨hactive, drain', now', hworker⟩ := hends.calling rfl
          refine ⟨⟨hends.held, fun _ _ attempt hcalling => ?_, fun h => absurd h hnot⟩, hends.moved⟩
          rw [hworker] at hcalling
          cases hcalling
          exact ⟨hactive, rfl⟩
      | some pulse =>
          obtain ⟨retained', hheld'⟩ := hends.held
          have hbooks := books_finishPulse s' drain now false pulse
          have hinflight := inflight_finishPulse s' drain now false pulse
          have hrecords : (s'.finishPulse drain now false pulse).inflightRecords =
              s'.inflightRecords := congrArg Books.inflightRecords hbooks
          have hsame : (s'.finishPulse drain now false pulse).shutdownRequested =
              s'.shutdownRequested := congrArg Books.shutdownRequested hbooks
          have hnot' : (s'.finishPulse drain now false pulse).shutdownRequested ≠ true :=
            fun hshutdown => hnot (hsame.symm.trans hshutdown)
          refine ⟨⟨⟨retained', hheld'.of_same hbooks hinflight⟩, fun _ _ _ hcalling => ?_,
            fun h => absurd h hnot'⟩, ?_⟩
          · exact (finishPulse_worker _ _ _ _ _ _ _ _ hcalling).elim
          · cases hends.moved with
            | same hsame hkept => exact .same (hinflight.trans hsame) (hrecords.trans hkept)
            | begun hidle hrequired => exact .begun hidle (hinflight.symm ▸ hrequired)
            | gone hgone => exact .gone (hinflight.trans hgone)

theorem moves (h : Reached s) {event : Event Payload}
    (hevent : ∀ result, event = .answer result → s.isCalling = false) :
    Reached (s.step format event) ∧ Moved s (s.step format event) := by
  have hacts := step_acts format s event
  generalize s.step format event = s' at hacts ⊢
  cases hacts with
  | nothing => exact ⟨h, .same rfl rfl⟩
  | enqueue houtside record =>
      rw [enterGuard]
      split
      · exact h.aside _ rfl rfl rfl rfl rfl
      · split
        · next hrequested =>
          obtain ⟨haside, -⟩ := h.aside { s with lastAdmission := some .rejectedDisabled }
            rfl rfl rfl rfl rfl
          obtain ⟨hreached, hmoved⟩ := haside.finalize (h.joined hrequested)
          exact ⟨hreached, hmoved.after rfl rfl⟩
        · exact h.aside _ rfl rfl rfl rfl rfl
  | check hentered =>
      rw [checkAdmission]
      split
      · exact h.aside _ rfl rfl rfl rfl rfl
      · split
        · exact h.aside _ rfl rfl rfl rfl rfl
        · split
          · exact h.aside _ rfl rfl rfl rfl rfl
          · split
            · exact h.aside _ rfl rfl rfl rfl rfl
            · exact h.aside _ rfl rfl rfl rfl rfl
  | @push record hcleared clock =>
      rw [pushRecord]
      cases hpush : s.queue.tryPush record (clock.getD 0) clock.isSome record.isControl with
      | none => exact h.aside _ rfl rfl rfl rfl rfl
      | some queue =>
          obtain ⟨retained, hheld⟩ := h.held
          have hkeeps := hheld.keeps.tryPush hpush
          refine ⟨⟨⟨_, hkeeps, hheld.idle, fun hactive => ?_⟩, h.calling, h.joined⟩, .same rfl rfl⟩
          have hfront := hheld.front hactive
          exact hfront.append _
  | @leave admission hleaving =>
      rw [leaveGuard]
      obtain ⟨hleft, -⟩ :=
        h.aside { s with enqueue := .outside, lastAdmission := some admission }
          rfl rfl rfl rfl rfl
      split
      · next hrequested =>
        obtain ⟨hreached, hmoved⟩ := hleft.finalize (h.joined hrequested)
        exact ⟨hreached, hmoved.after rfl rfl⟩
      · exact h.aside _ rfl rfl rfl rfl rfl
  | pulse hopen now init => exact h.workerPulse hopen none now false init
  | drainUntil hopen deadline =>
      obtain ⟨retained, hheld⟩ := h.held
      exact ⟨⟨⟨retained, hheld.keeps, hheld.idle, hheld.front⟩,
        fun _ _ _ hcalling => (by cases hcalling),
        fun hshutdown => absurd hshutdown (Bool.eq_false_iff.mp hopen)⟩, .same rfl rfl⟩
  | drained clock init =>
      obtain ⟨retained, hheld⟩ := h.held
      exact ⟨⟨⟨retained, hheld.keeps, hheld.idle, hheld.front⟩,
        fun _ _ _ hcalling => (by cases hcalling), fun _ => rfl⟩, .same rfl rfl⟩
  | drainPulse hdraining clock init =>
      have hopen : s.shutdownRequested = false := by
        rw [Bool.eq_false_iff]
        intro hshutdown
        cases hdraining.symm.trans (h.joined hshutdown)
      exact h.workerPulse hopen _ _ true init
  | answer hworker result =>
      have hcalling := hevent result rfl
      rw [isCalling, hworker] at hcalling
      cases hcalling
  | requestStop => exact h.aside _ rfl rfl rfl rfl rfl
  | shutdown hidle =>
      rw [telemetryTransportShutdown]
      split
      · exact ⟨h, .same rfl rfl⟩
      · obtain ⟨retained, hheld⟩ := h.held
        have hstopped : Reached { s with
            stopRequested := true, quiesced := true, lifecycle := .stopping
            healthState := .stopping, shutdownRequested := true } :=
          ⟨⟨retained, hheld.keeps, hheld.idle, hheld.front⟩, h.calling, fun _ => hidle⟩
        obtain ⟨hreached, hmoved⟩ := hstopped.finalize hidle
        exact ⟨hreached, hmoved.after rfl rfl⟩

end Reached

variable {s' t : Transport Payload}

theorem GoesOn.of_same (h : GoesOn s s') (heq : t.books = s'.books)
    (hinflight : t.inflight = s'.inflight) : GoesOn s t := by
  have hqueue : t.queue = s'.queue := congrArg Books.queue heq
  have hrecords : t.inflightRecords = s'.inflightRecords := congrArg Books.inflightRecords heq
  rw [GoesOn, hinflight, hrecords, hqueue]
  exact h

theorem MakesProgress.of_same {attempt : List (Record Payload)} (h : MakesProgress s attempt s')
    (heq : t.books = s'.books) (hinflight : t.inflight = s'.inflight) :
    MakesProgress s attempt t := by
  have hqueue : t.queue = s'.queue := congrArg Books.queue heq
  have hrecords : t.inflightRecords = s'.inflightRecords := congrArg Books.inflightRecords heq
  have hcounters : t.counters = s'.counters := congrArg Books.counters heq
  have hledger : t.ledger = s'.ledger := congrArg Books.ledger heq
  rcases h with hisolates | ⟨hcounts, hgoes⟩
  · refine .inl ?_
    rw [Isolates, hinflight, hrecords, hqueue, hcounters, hledger]
    exact hisolates
  · refine .inr ⟨?_, hgoes.of_same heq hinflight⟩
    rw [CountsInvalid, hcounters, hledger]
    exact hcounts

theorem Answered.of_same {attempt : List (Record Payload)} {result : ApplyBatchResult}
    (h : Answered s attempt result s') (heq : t.books = s'.books)
    (hinflight : t.inflight = s'.inflight) : Answered s attempt result t := by
  cases h with
  | stays hbooks hcommits hrequired =>
      exact .stays (heq.trans hbooks) hcommits (hinflight ▸ hrequired)
  | settles hbefore hclosed hcommits hafter =>
      exact .settles hbefore hclosed hcommits (hinflight ▸ hafter)
  | commits hcommits hgoes => exact .commits hcommits (hgoes.of_same heq hinflight)

namespace Reached

theorem answers (h : Reached s) {drain : Option Drain} {now : Nat}
    {attempt : List (Record Payload)} (hworker : s.worker = .calling drain now attempt)
    (result : ApplyBatchResult) :
    Reached (s.step format (.answer result)) ∧
      Answered s attempt result (s.step format (.answer result)) := by
  obtain ⟨retained, hheld⟩ := h.held
  obtain ⟨hactive, -⟩ := h.calling drain now attempt hworker
  have hends := hheld.answerInflight hactive attempt now result { outcome := .drained }
  simp only [Transport.step, hworker]
  generalize (s.answerInflight attempt now result { outcome := .drained }) = ended at hends ⊢
  obtain ⟨s', pulse⟩ := ended
  have hbooks := books_finishPulse s' drain now true (s'.fillPending pulse)
  have hinflight := inflight_finishPulse s' drain now true (s'.fillPending pulse)
  obtain ⟨retained', hheld'⟩ := hends.held
  refine ⟨⟨⟨retained', hheld'.of_same hbooks hinflight⟩, fun _ _ _ hcalling => ?_, ?_⟩,
    hends.answered.of_same hbooks hinflight⟩
  · exact (finishPulse_worker _ _ _ _ _ _ _ _ hcalling).elim
  · intro hshutdown
    have hbefore : s.shutdownRequested = true :=
      ((congrArg Books.shutdownRequested hbooks).trans hends.requested).symm.trans hshutdown
    have hidle := h.joined hbefore
    rw [hworker] at hidle
    cases hidle

theorem progress (h : Reached s) {drain : Option Drain} {now : Nat}
    {attempt : List (Record Payload)} (hworker : s.worker = .calling drain now attempt)
    (hrequired : s.inflight.resolutionRequired = false) {result : ApplyBatchResult}
    (houtcome : result.outcome = .invalidBatch) (hvalid : result.validateEarlyResult = true) :
    MakesProgress s attempt (s.step format (.answer result)) := by
  obtain ⟨retained, hheld⟩ := h.held
  obtain ⟨hactive, rfl⟩ := h.calling drain now attempt hworker
  obtain ⟨s', hs', hprogress, -⟩ := hheld.handleInvalidBatch hactive now { outcome := .drained }
  have hanswer : (s.answerInflight s.attemptRecords now result { outcome := .drained }).1 = s' := by
    rw [answerInflight, hrequired, if_neg (fun h => Bool.false_ne_true h.1), houtcome]
    simp only [hvalid, if_true]
    exact hs'
  simp only [Transport.step, hworker]
  generalize (s.answerInflight s.attemptRecords now result { outcome := .drained }) = ended
    at hanswer ⊢
  obtain ⟨s', pulse⟩ := ended
  subst hanswer
  exact hprogress.of_same (books_finishPulse ..) (inflight_finishPulse ..)

end Reached

/-! ## The flag and the unresolved records -/

namespace Watched

variable {w : Watched Payload}

theorem leavesOpen_of_commits {result : ApplyBatchResult} {attempt : List (Record Payload)}
    (h : result.commits attempt = true) : result.leavesOpen attempt = false := by
  rw [ApplyBatchResult.commits, decide_eq_true_eq] at h
  obtain ⟨houtcome | houtcome, hvalid⟩ := h <;>
    rw [ApplyBatchResult.leavesOpen, houtcome, hvalid] <;> rfl

/-- The flag is set while there are unresolved records, and they are those of the attempt. -/
structure Sound (w : Watched Payload) : Prop where
  reached : Reached w.transport
  required : w.transport.inflight.resolutionRequired = true ↔ w.unresolved ≠ []
  within : ∀ key ∈ w.unresolved, key ∈ w.transport.attemptRecords.map (·.header.key)

namespace Sound

theorem none_of_clear (h : Sound w) (hclear : w.transport.inflight.resolutionRequired = false) :
    w.unresolved = [] := by
  by_contra hsome
  exact Bool.eq_false_iff.mp hclear (h.required.mpr hsome)

theorem unresolved_iff (h : Sound w) :
    w.Unresolved ↔ w.transport.inflight.resolutionRequired = true := by
  rw [h.required, Unresolved]
  refine ⟨fun ⟨record, _, hkey⟩ => List.ne_nil_of_mem hkey, fun hsome => ?_⟩
  obtain ⟨key, hkey⟩ := List.exists_mem_of_ne_nil _ hsome
  obtain ⟨record, hrecord, rfl⟩ := List.mem_map.mp (h.within key hkey)
  exact ⟨record, hrecord, hkey⟩

/-- With the flag clear and no record unresolved there is nothing to show of the records. -/
theorem clear {transport : Transport Payload} (hreached : Reached transport)
    (hclear : transport.inflight.resolutionRequired = false) : Sound ⟨transport, []⟩ where
  reached := hreached
  required := by
    rw [hclear]
    simp
  within key hkey := absurd hkey List.not_mem_nil

theorem moves (h : Sound w) {s' : Transport Payload} (hreached : Reached s')
    (hmoved : Moved w.transport s') :
    Sound ⟨s', if s'.inflight.active then w.unresolved else []⟩ := by
  cases hmoved with
  | same hinflight hrecords =>
      split
      · refine ⟨hreached, ?_, ?_⟩
        · rw [hinflight]
          exact h.required
        · rw [attemptRecords, hinflight, hrecords]
          exact h.within
      · next hidle =>
        obtain ⟨retained, hheld⟩ := hreached.held
        refine clear hreached ?_
        rw [hheld.idle (Bool.eq_false_iff.mpr hidle)]
  | begun hidle hrequired =>
      have hnone : w.unresolved = [] := h.none_of_clear (by rw [hidle])
      rw [hnone, ite_self]
      exact clear hreached hrequired
  | gone hgone =>
      rw [hgone]
      refine clear hreached ?_
      rw [hgone]

theorem answers (h : Sound w) {attempt : List (Record Payload)} {result : ApplyBatchResult}
    {s' : Transport Payload} (hreached : Reached s')
    (hactive : w.transport.inflight.active = true) (hattempt : attempt = w.transport.attemptRecords)
    (hcalling : w.transport.isCalling = true) (hstrands : ¬w.Strands result)
    (hanswered : Answered w.transport attempt result s') :
    Sound ⟨s', if s'.inflight.active then note w.unresolved attempt result else []⟩ := by
  cases hanswered with
  | stays hbooks hcommits hrequired =>
      have hactive' : s'.inflight.active = true :=
        (congrArg (fun books => books.batch.active) hbooks).trans hactive
      have hrecords := attemptRecords_of_books hbooks
      rw [if_pos hactive', note, hcommits, if_neg Bool.false_ne_true]
      cases hopen : result.leavesOpen attempt with
      | true =>
          obtain ⟨retained, hheld⟩ := h.reached.held
          have hsome : attempt ≠ [] := hattempt ▸ (hheld.front hactive).attempt_ne_nil
          rw [if_pos rfl]
          refine ⟨hreached, ?_, fun key hkey => ?_⟩
          · rw [hrequired, hopen, Bool.or_true]
            simpa using fun _ => hsome
          · rcases List.mem_append.mp hkey with hbefore | hnow
            · exact hrecords ▸ h.within key hbefore
            · exact hrecords ▸ hattempt ▸ hnow
      | false =>
          rw [if_neg Bool.false_ne_true]
          refine ⟨hreached, ?_, ?_⟩
          · rw [hrequired, hopen, Bool.or_false]
            exact h.required
          · rw [hrecords]
            exact h.within
  | settles hbefore hclosed hcommits hafter =>
      have hnone := h.none_of_clear hbefore
      rw [note, hclosed, hcommits, if_neg Bool.false_ne_true, if_neg Bool.false_ne_true, hnone,
        ite_self]
      exact clear hreached hafter
  | commits hcommits hgoes =>
      have hnone : note w.unresolved attempt result = [] := by
        rw [note, leavesOpen_of_commits hcommits, if_neg Bool.false_ne_true, hcommits, if_pos rfl]
        refine List.filter_eq_nil_iff.mpr fun key hkey => ?_
        rw [decide_eq_true_eq, not_not, hattempt]
        exact h.within key hkey
      rw [hnone, ite_self]
      refine clear hreached ?_
      rcases hgoes with ⟨hiso, hmore, hnext, -⟩ | ⟨-, hgone, -⟩
      · rw [hnext, Bool.eq_false_iff]
        intro hrequired
        refine hstrands ⟨hcalling, hiso, hmore, hattempt ▸ hcommits, ?_⟩
        exact h.unresolved_iff.mpr hrequired
      · rw [hgone]

theorem step (h : Sound w) {event : Event Payload} (hok : w.Condition event) :
    Sound (w.step format event) := by
  by_cases hanswer : ∃ result, event = .answer result ∧ w.transport.isCalling = true
  · obtain ⟨result, rfl, hcalling⟩ := hanswer
    cases hworker : w.transport.worker with
    | idle | draining _ =>
        rw [isCalling, hworker] at hcalling
        cases hcalling
    | calling drain now attempt =>
        obtain ⟨hactive, hattempt⟩ := h.reached.calling drain now attempt hworker
        obtain ⟨hreached, hanswered⟩ := h.reached.answers hworker result
        rw [Watched.step, noteEvent, hworker]
        exact h.answers hreached hactive hattempt hcalling hok hanswered
  · have hevent : ∀ result, event = .answer result → w.transport.isCalling = false :=
      fun result heq => Bool.eq_false_iff.mpr fun hcalling => hanswer ⟨result, heq, hcalling⟩
    have hnote : w.noteEvent event = w.unresolved := by
      cases event with
      | answer result =>
          have hcalling := hevent result rfl
          rw [noteEvent]
          cases hworker : w.transport.worker with
          | idle | draining _ => rfl
          | calling drain now attempt =>
              rw [isCalling, hworker] at hcalling
              cases hcalling
      | _ => rfl
    obtain ⟨hreached, hmoved⟩ := h.reached.moves hevent
    rw [Watched.step, hnote]
    exact h.moves hreached hmoved

theorem notWedged (h : Sound w) : NotWedged format w where
  justified := h.unresolved_iff.mpr
  progress drain now attempt result hworker hclosed houtcome hvalid := by
    refine h.reached.progress hworker ?_ houtcome hvalid
    rw [Bool.eq_false_iff]
    exact fun hrequired => hclosed (h.unresolved_iff.mpr hrequired)

/-- Where the transport is not wedged behind a step, the step stranded no record. -/
theorem condition (h : Sound w) {event : Event Payload}
    (hafter : NotWedged format (w.step format event)) : w.Condition event := by
  cases event with
  | answer result =>
      rintro ⟨hcalling, hiso, hmore, hcommits, hunresolved⟩
      cases hworker : w.transport.worker with
      | idle | draining _ =>
          rw [isCalling, hworker] at hcalling
          cases hcalling
      | calling drain now attempt =>
          obtain ⟨hactive, rfl⟩ := h.reached.calling drain now attempt hworker
          obtain ⟨-, hanswered⟩ := h.reached.answers hworker result
          have hnone : (w.step format (.answer result)).unresolved = [] := by
            simp only [Watched.step, noteEvent, hworker]
            rw [note, leavesOpen_of_commits hcommits, if_neg Bool.false_ne_true, hcommits,
              if_pos rfl]
            split
            · refine List.filter_eq_nil_iff.mpr fun key hkey => ?_
              rw [decide_eq_true_eq, not_not]
              exact h.within key hkey
            · rfl
          have hrequired : (w.transport.step format
              (.answer result)).inflight.resolutionRequired = true := by
            cases hanswered with
            | stays _ hopen _ => exact absurd (hopen.symm.trans hcommits) Bool.false_ne_true
            | settles _ _ hopen _ => exact absurd (hopen.symm.trans hcommits) Bool.false_ne_true
            | commits _ hgoes =>
                rcases hgoes with ⟨-, -, hnext, -⟩ | ⟨hlast, -⟩
                · rw [hnext]
                  exact h.unresolved_iff.mp hunresolved
                · exact absurd hmore (hlast hiso)
          obtain ⟨record, -, hkey⟩ := hafter.justified hrequired
          rw [hnone] at hkey
          exact absurd hkey List.not_mem_nil
  | _ => trivial

end Sound

end Watched

theorem init_reached {s₀ : Transport Payload} {config : TransportConfig} {outcome : Outcome}
    (hworker : s₀.worker = .idle)
    (hinit : s₀.telemetryTransportInit format config = (outcome, s))
    (haccepted : outcome = .started ∨ outcome = .flatfileDisabled) :
    Reached s ∧ s.inflight = {} := by
  have hreset : ∀ t : Transport Payload, t.books = (s₀.resetFor config).books →
      t.inflight = {} → t.worker = s₀.worker → Reached t ∧ t.inflight = {} := by
    intro t hbooks hinflight htworker
    have hqueue : t.queue = (s₀.resetFor config).queue := congrArg Books.queue hbooks
    have hkeeps : t.queue.Keeps [] := hqueue ▸ Queue.keeps_initialized ..
    refine ⟨⟨⟨[], hkeeps, fun _ => hinflight, fun hactive => ?_⟩, fun _ _ _ hcalling => ?_,
      fun _ => htworker.trans hworker⟩, hinflight⟩
    · rw [hinflight] at hactive
      cases hactive
    · exact absurd (hworker.symm.trans (htworker.symm.trans hcalling)) fun heq => by cases heq
  rw [telemetryTransportInit] at hinit
  split at hinit
  · cases hinit
    simp at haccepted
  · split at hinit
    · cases hinit
      simp at haccepted
    · split at hinit
      · cases hinit
        simp at haccepted
      · split at hinit
        · cases hinit
          simp at haccepted
        · split at hinit
          · cases hinit
            simp at haccepted
          · split at hinit
            · cases hinit
              simp at haccepted
            · split at hinit
              · cases hinit
                exact hreset _ rfl rfl rfl
              · cases hinit
                exact hreset _ rfl rfl rfl

/-- From an accepted start, whatever the clock, the producer and the repository do: no state
of a run is wedged by an invalid record exactly where no answer of the run commits an
unresolved record of an isolated batch that has another record behind it. -/
theorem invalid_record_makes_progress {s₀ s : Transport Payload} {config : TransportConfig}
    {outcome : Outcome} (hworker : s₀.worker = .idle)
    (hinit : s₀.telemetryTransportInit format config = (outcome, s))
    (haccepted : outcome = .started ∨ outcome = .flatfileDisabled)
    (events : List (Event Payload)) :
    (∀ before, before <+: events →
        NotWedged format (run (Watched.step format) { transport := s } before)) ↔
      Along (Watched.step format) Watched.Condition { transport := s } events := by
  obtain ⟨hreached, hempty⟩ := init_reached hworker hinit haccepted
  have hstart : Watched.Sound { transport := s } := .clear hreached (by rw [hempty])
  have hstep : ∀ (w : Watched Payload) (event : Event Payload), w.Sound → w.Condition event →
      (w.step format event).Sound := fun w event h hok => h.step hok
  refine ⟨?_, fun halong before hbefore => ?_⟩
  · exact along_of_prefixes hstep (fun w event h hafter => h.condition hafter) events _ hstart
  · obtain ⟨after, rfl⟩ := hbefore
    obtain ⟨hbefore, -⟩ := (along_append before after _).mp halong
    exact (run_invariant_along hstep before hstart hbefore).notWedged

/-! ## A record that stays -/

/-- The repository does not know whether it committed one record. -/
def ambiguous (recordSeq : Nat) : ApplyBatchResult :=
  { outcome := .commitAmbiguous, failureClass := .commitAmbiguous
    inputCount := 1, resultCount := 1
    firstRecordSeq := recordSeq, lastRecordSeq := recordSeq
    results := Vector.ofFn fun i =>
      if i.val = 0 then
        { key := (interval recordSeq).header.key, outcome := .commitAmbiguous
          failureClass := .commitAmbiguous }
      else {} }

/-- Two records, found invalid together; what became of the first is unclear for a while,
then it is applied, and the second is offered. -/
def strands : List (Event Unit) :=
  admits 1 ++ admits 2 ++
    [.pulse 100 .ready, .answer { outcome := .invalidBatch }, .pulse 101 .ready,
      .answer (ambiguous 1), .pulse 2000 .ready, .answer (applied 1), .pulse 2001 .ready]

def believedInvalid : Event Unit := .answer { outcome := .invalidBatch }

/-- The second record of this run had no answer yet, and a well-formed `invalid_batch` has it
offered again: it is not counted, and the flag is still set. -/
theorem stranded_record_wedges :
    ¬NotWedged bareFormat (run (Watched.step bareFormat) { transport := started } strands) ∧
      (run (Watched.step bareFormat) { transport := started } strands).unresolved = [] ∧
      (run (step bareFormat) started strands).attemptRecords = [interval 2] ∧
      ¬MakesProgress (run (step bareFormat) started strands) [interval 2]
        (run (step bareFormat) started (strands ++ [believedInvalid])) ∧
      (run (step bareFormat) started (strands ++ [believedInvalid])).attemptRecords =
        [interval 2] ∧
      (run (step bareFormat) started (strands ++ [believedInvalid])).inflight.retryNotBefore =
        3001 := by
  refine ⟨fun h => ?_, by decide +kernel, by decide +kernel, ?_, by decide +kernel,
    by decide +kernel⟩
  · exact absurd (h.justified (by decide +kernel)) (by decide +kernel)
  · rintro (⟨-, hwhole, -⟩ | ⟨⟨record, -, -, hanswered⟩, -⟩)
    · exact absurd hwhole (by decide +kernel)
    · have hlength := congrArg List.length hanswered
      rw [List.length_append, List.length_singleton] at hlength
      exact absurd hlength (by decide +kernel)

/-- In an isolated batch of which the last record is unclear for a while nothing is wedged. -/
theorem unclear_last_record_settles :
    NotWedged bareFormat (run (Watched.step bareFormat) { transport := started }
      (admits 1 ++ admits 2 ++
        [.pulse 100 .ready, .answer { outcome := .invalidBatch }, .pulse 101 .ready,
          .answer (applied 1), .pulse 102 .ready, .answer (ambiguous 2), .pulse 2000 .ready,
          .answer (applied 2)])) :=
  (@invalid_record_makes_progress Unit bareFormat {} started pairs .started rfl rfl (.inl rfl)
    _).mpr (by decide +kernel) _ List.prefix_rfl

end Transport

end Duris.Telemetry
