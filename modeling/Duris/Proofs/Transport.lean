import Duris.Proofs.TransportBooks

/-!
# The telemetry transport loses nothing silently

The steps of the transport over the account of its records. `Books` is the part of the
state the account speaks about and `Balanced` their agreement; what a step does to the
books is one lemma about `Balanced`, and the functions of the worker that leave the books
alone have one equation each. Two steps break the agreement: a disabling answer inside an
isolated batch drops records that have been answered, and a shutdown over a batch in
flight forgets what is queued behind it.
-/

namespace Duris.Telemetry

/-- How many records the next call of the repository gets. -/
def Batch.attemptCount (batch : Batch) : Nat := if batch.isolation then 1 else batch.count

namespace Transport

variable {Payload : Type} {format : RecordFormat Payload} {s : Transport Payload}

/-! ## The books -/

structure Books (Payload : Type) where
  settings : TransportConfig
  queue : Queue Payload
  inflightRecords : List (Record Payload)
  batch : Batch
  lastAdmittedKey : RecordKey
  counters : Counters
  enqueue : Enqueue Payload
  ledger : Ledger
  completed : Bool
  shutdownRequested : Bool

def books (s : Transport Payload) : Books Payload :=
  { settings := s.settings
    queue := s.queue
    inflightRecords := s.inflightRecords
    batch := s.inflight.toBatch
    lastAdmittedKey := s.lastAdmittedKey
    counters := s.counters
    enqueue := s.enqueue
    ledger := s.ledger
    completed := s.restartAllowed
    shutdownRequested := s.shutdownRequested }

/-- The batch is a prefix of the queue that was offered as a whole, and the records in
front of `isolationIndex` are those with an answer. -/
structure InFlight (batch : Batch) (records : List (Record Payload)) (offered : List RecordKey)
    (a : Account Payload) : Prop where
  count_le : batch.count ≤ a.retained.length
  bounded : batch.count ≤ telemetryBatchMaxRecordsProposal
  resolved_lt : a.resolved.length < batch.count
  records_eq : records = (a.retained.take batch.count).map (·.record)
  control_eq : batch.controlCount = (a.retained.take batch.count).countP (·.record.isControl)
  index_eq : batch.isolationIndex = a.resolved.length
  whole : batch.isolation = false → a.resolved = []
  offered : ∀ slot ∈ a.retained.take batch.count, slot.key ∈ offered

structure Balanced (b : Books Payload) (a : Account Payload) : Prop where
  settings : b.settings.maxBatchRecords ≤ telemetryBatchMaxRecordsProposal
  keeps : b.queue.Keeps a.retained
  history : History b.ledger b.lastAdmittedKey a
  idle : b.batch.active = false → b.batch = {} ∧ a.resolved = []
  inFlight : b.batch.active = true → InFlight b.batch b.inflightRecords b.ledger.offered a
  cleared : ∀ record, b.enqueue = .cleared record →
    0 < record.header.key.recordSeq ∧
      b.lastAdmittedKey.recordSeq < record.header.key.recordSeq
  tallied : Tallied b.counters b.ledger a

variable {b : Books Payload} {a : Account Payload}

namespace InFlight

variable {batch : Batch} {records : List (Record Payload)} {offered : List RecordKey}

variable (h : InFlight batch records offered a)

include h

theorem attemptCount_le :
    0 < batch.attemptCount ∧ a.resolved.length + batch.attemptCount ≤ batch.count := by
  have hlt := h.resolved_lt
  rw [Batch.attemptCount]
  cases hiso : batch.isolation with
  | true => exact ⟨Nat.zero_lt_one, hlt⟩
  | false =>
      rw [h.whole hiso] at hlt ⊢
      exact ⟨hlt, Nat.le_of_eq (Nat.zero_add _)⟩

theorem take_retained :
    a.retained.take batch.count =
      a.resolved ++ a.pending.take (batch.count - a.resolved.length) := by
  rw [Account.retained, List.take_append, List.take_of_length_le (Nat.le_of_lt h.resolved_lt)]

theorem pending_le :
    batch.count - a.resolved.length ≤ a.pending.length := by
  have hcount := h.count_le
  rw [Account.retained, List.length_append] at hcount
  omega

theorem attempt_offered :
    ∀ slot ∈ a.pending.take batch.attemptCount, slot.key ∈ offered := by
  intro slot hslot
  obtain ⟨-, hle⟩ := h.attemptCount_le
  refine h.offered slot ?_
  rw [h.take_retained]
  refine List.mem_append_right _ ?_
  exact (List.take_subset_take_left _ (by omega)) hslot

end InFlight

def Books.attempt (b : Books Payload) : List (Record Payload) :=
  if b.batch.isolation then (b.inflightRecords.drop b.batch.isolationIndex).take 1
  else b.inflightRecords.take b.batch.count

theorem attemptRecords_eq (s : Transport Payload) : s.attemptRecords = s.books.attempt := rfl

theorem InFlight.attempt (h : InFlight b.batch b.inflightRecords b.ledger.offered a) :
    b.attempt = (a.pending.take b.batch.attemptCount).map (·.record) := by
  have hlt := h.resolved_lt
  have hrecords := h.records_eq
  rw [h.take_retained, List.map_append] at hrecords
  rw [Books.attempt, Batch.attemptCount, hrecords, h.index_eq]
  cases hiso : b.batch.isolation with
  | true =>
      have hlength : a.resolved.length = (a.resolved.map (·.record)).length := by simp
      rw [if_pos rfl, if_pos rfl, hlength, List.drop_left, ← List.map_take, List.take_take,
        Nat.min_eq_left (by omega)]
  | false =>
      rw [if_neg Bool.false_ne_true, if_neg Bool.false_ne_true, h.whole hiso, List.map_nil,
        List.nil_append, List.length_nil, Nat.sub_zero, ← List.map_take, List.take_take,
        Nat.min_self]

namespace Balanced

section

variable (h : Balanced b a)

include h

theorem attempt_length (hactive : b.batch.active = true) :
    b.attempt.length = b.batch.attemptCount := by
  have hfly := h.inFlight hactive
  obtain ⟨-, hle⟩ := hfly.attemptCount_le
  have hpending := hfly.pending_le
  rw [hfly.attempt, List.length_map, List.length_take, Nat.min_eq_left (by omega)]

theorem unresolved :
    b.queue.records.filter (fun record => record.header.key ∉ b.ledger.answered) =
      a.pending.map (·.record) := by
  rw [h.keeps.records, Account.retained, List.map_append, List.filter_append]
  have hresolved : (a.resolved.map (·.record)).filter
      (fun record => record.header.key ∉ b.ledger.answered) = [] := by
    refine List.filter_eq_nil_iff.mpr ?_
    intro record hrecord
    obtain ⟨slot, hslot, rfl⟩ := List.mem_map.mp hrecord
    rw [decide_eq_true_eq, not_not]
    exact h.history.resolved slot hslot
  have hpending : (a.pending.map (·.record)).filter
      (fun record => record.header.key ∉ b.ledger.answered) = a.pending.map (·.record) := by
    refine List.filter_eq_self.mpr ?_
    intro record hrecord
    obtain ⟨slot, hslot, rfl⟩ := List.mem_map.mp hrecord
    rw [decide_eq_true_eq]
    exact h.history.pending slot hslot
  rw [hresolved, hpending, List.nil_append]

/-! ## What a step does to the books -/

theorem setEnqueue {enqueue : Enqueue Payload}
    (henqueue : ∀ record, enqueue = .cleared record →
      0 < record.header.key.recordSeq ∧
        b.lastAdmittedKey.recordSeq < record.header.key.recordSeq) :
    Balanced { b with enqueue } a :=
  ⟨h.settings, h.keeps, h.history, h.idle, h.inFlight, henqueue, h.tallied⟩

theorem requestShutdown : Balanced { b with shutdownRequested := true } a :=
  ⟨h.settings, h.keeps, h.history, h.idle, h.inFlight, h.cleared, h.tallied⟩

theorem refuse (control : Bool) (admission : QueueAdmission) :
    Balanced
      { b with
        counters := b.counters.recordFailedAdmission control
        enqueue := .leaving admission } a :=
  ⟨h.settings, h.keeps, h.history, h.idle, h.inFlight, fun _ hrecord => (nomatch hrecord),
    h.tallied.refuse control⟩

theorem accept {record : Record Payload} (hcleared : b.enqueue = .cleared record)
    {now : Nat} {valid : Bool} {queue : Queue Payload}
    (hpush : b.queue.tryPush record now valid record.isControl = some queue)
    (admission : QueueAdmission) :
    ∃ a', Balanced
      { b with
        queue
        lastAdmittedKey := record.header.key
        counters := b.counters.add (.admitted record.isControl) 1
        enqueue := .leaving admission
        ledger := { b.ledger with admitted := b.ledger.admitted ++ [record.header] } } a' := by
  obtain ⟨hpos, hlast⟩ := h.cleared record hcleared
  have hretained : (a.accept ⟨record, now, valid⟩).retained =
      a.retained ++ [⟨record, now, valid⟩] := (List.append_assoc ..).symm
  refine ⟨a.accept ⟨record, now, valid⟩, h.settings, ?_,
    h.history.accept ⟨record, now, valid⟩ hpos hlast, h.idle, ?_,
    fun _ hrecord => (nomatch hrecord), h.tallied.accept ⟨record, now, valid⟩ _⟩
  · rw [hretained]
    exact h.keeps.tryPush hpush
  · intro hactive
    have hfly := h.inFlight hactive
    have htake : (a.accept ⟨record, now, valid⟩).retained.take b.batch.count =
        a.retained.take b.batch.count := by
      rw [hretained, List.take_append_of_le_length hfly.count_le]
    refine ⟨?_, hfly.bounded, hfly.resolved_lt, ?_, ?_, hfly.index_eq, hfly.whole, ?_⟩
    · rw [hretained, List.length_append]
      exact Nat.le_add_right_of_le hfly.count_le
    · rw [htake]
      exact hfly.records_eq
    · rw [htake]
      exact hfly.control_eq
    · rw [htake]
      exact hfly.offered

theorem begin (hidle : b.batch.active = false) {count : Nat}
    (hpos : 0 < count) (hcount : count ≤ a.pending.length)
    (hbounded : count ≤ telemetryBatchMaxRecordsProposal) :
    Balanced
      { b with
        inflightRecords := (a.pending.take count).map (·.record)
        batch :=
          { active := true, count
            controlCount := ((a.pending.take count).map (·.record)).countP (·.isControl) }
        ledger := { b.ledger with
          offered := b.ledger.offered ++ (a.pending.take count).map (·.key) } } a := by
  have hresolved := (h.idle hidle).2
  have hretained : a.retained = a.pending := by rw [Account.retained, hresolved, List.nil_append]
  refine ⟨h.settings, h.keeps, ?_, fun hactive => absurd hactive.symm Bool.false_ne_true,
    fun _ => ?_, h.cleared,
    h.tallied.offer _⟩
  · refine h.history.offer fun slot hslot => ?_
    rw [hretained]
    exact List.mem_of_mem_take hslot
  · refine ⟨?_, hbounded, ?_, ?_, ?_, ?_, fun _ => hresolved, ?_⟩
    · rw [hretained]
      exact hcount
    · rw [hresolved]
      exact hpos
    · rw [hretained]
    · rw [hretained, List.countP_map]
      rfl
    · rw [hresolved]
      rfl
    · rw [hretained]
      exact fun slot hslot => List.mem_append_right _ (List.mem_map_of_mem hslot)

theorem offer (hactive : b.batch.active = true) :
    Balanced
      { b with
        ledger := { b.ledger with
          offered := b.ledger.offered ++ b.attempt.map (·.header.key) } } a := by
  have hfly := h.inFlight hactive
  have hattempt : b.attempt.map (·.header.key) =
      (a.pending.take b.batch.attemptCount).map (·.key) := by
    rw [hfly.attempt, List.map_map]
    rfl
  rw [hattempt]
  refine ⟨h.settings, h.keeps, ?_, h.idle, fun _ => ?_, h.cleared, h.tallied.offer _⟩
  · refine h.history.offer fun slot hslot => ?_
    exact List.mem_append_right _ (List.mem_of_mem_take hslot)
  · exact ⟨hfly.count_le, hfly.bounded, hfly.resolved_lt, hfly.records_eq, hfly.control_eq,
      hfly.index_eq, hfly.whole,
      fun slot hslot => List.mem_append_left _ (hfly.offered slot hslot)⟩

theorem isolate (hactive : b.batch.active = true)
    (hwhole : b.batch.isolation = false) :
    Balanced { b with batch := { b.batch with isolation := true, isolationIndex := 0 } } a := by
  have hfly := h.inFlight hactive
  refine ⟨h.settings, h.keeps, h.history, ?_, fun _ => ?_, h.cleared, h.tallied⟩
  · intro hidle
    exact absurd (hactive.symm.trans hidle) (by decide)
  · refine ⟨hfly.count_le, hfly.bounded, hfly.resolved_lt, hfly.records_eq, hfly.control_eq, ?_,
      fun _ => hfly.whole hwhole, hfly.offered⟩
    rw [hfly.whole hwhole]
    rfl

end

variable {items : List RecordApplyResult}

theorem answered (h : Balanced b a) (hactive : b.batch.active = true)
    (hlength : items.length = b.attempt.length)
    (hitems : ∀ item ∈ items, item.outcome.counter.isSome = true) :
    History
        { b.ledger with answered := b.ledger.answered ++ b.attempt.map (·.header.key) }
        b.lastAdmittedKey (a.answer b.batch.attemptCount) ∧
      Tallied (items.foldl Counters.addItem b.counters)
        { b.ledger with answered := b.ledger.answered ++ b.attempt.map (·.header.key) }
        (a.answer b.batch.attemptCount) := by
  have hfly := h.inFlight hactive
  obtain ⟨-, hle⟩ := hfly.attemptCount_le
  have hpending := hfly.pending_le
  have hattempt : b.attempt.map (·.header.key) =
      (a.pending.take b.batch.attemptCount).map (·.key) := by
    rw [hfly.attempt, List.map_map]
    rfl
  rw [hattempt]
  exact ⟨h.history.answer hfly.attempt_offered,
    h.tallied.answer (by omega) (hlength.trans (h.attempt_length hactive)) hitems⟩

theorem retained_answer (a : Account Payload) (count : Nat) :
    (a.answer count).retained = a.retained := by
  show (a.resolved ++ a.pending.take count) ++ a.pending.drop count = _
  rw [List.append_assoc, List.take_append_drop]
  rfl

theorem answerOne (h : Balanced b a) (hactive : b.batch.active = true)
    (hiso : b.batch.isolation = true) (hmore : b.batch.isolationIndex + 1 < b.batch.count)
    (hlength : items.length = b.attempt.length)
    (hitems : ∀ item ∈ items, item.outcome.counter.isSome = true) :
    Balanced
      { b with
        counters := items.foldl Counters.addItem b.counters
        ledger := { b.ledger with
          answered := b.ledger.answered ++ b.attempt.map (·.header.key) }
        batch := { b.batch with isolationIndex := b.batch.isolationIndex + 1 } }
      (a.answer b.batch.attemptCount) := by
  have hfly := h.inFlight hactive
  obtain ⟨hhistory, htallied⟩ := h.answered hactive hlength hitems
  have hone : b.batch.attemptCount = 1 := by rw [Batch.attemptCount, if_pos hiso]
  have hresolved : (a.answer b.batch.attemptCount).resolved.length =
      b.batch.isolationIndex + 1 := by
    show (a.resolved ++ a.pending.take b.batch.attemptCount).length = _
    have hpending := hfly.pending_le
    obtain ⟨-, hle⟩ := hfly.attemptCount_le
    rw [List.length_append, List.length_take_of_le (by omega), hone, hfly.index_eq]
  refine ⟨h.settings, ?_, hhistory, ?_, fun _ => ?_, h.cleared, htallied⟩
  · rw [retained_answer]
    exact h.keeps
  · intro hidle
    exact absurd (hactive.symm.trans hidle) (by decide)
  · refine ⟨?_, hfly.bounded, ?_, ?_, ?_, hresolved.symm, ?_, ?_⟩
    · rw [retained_answer]
      exact hfly.count_le
    · rw [hresolved]
      exact hmore
    · rw [retained_answer]
      exact hfly.records_eq
    · rw [retained_answer]
      exact hfly.control_eq
    · intro hwhole
      exact absurd (hiso.symm.trans hwhole) (by decide)
    · rw [retained_answer]
      exact hfly.offered

/-- The last records of a batch have their answer, and the batch leaves the queue. -/
theorem answerAll (h : Balanced b a) (hactive : b.batch.active = true)
    (hlast : b.batch.isolation = true → ¬b.batch.isolationIndex + 1 < b.batch.count)
    (hlength : items.length = b.attempt.length)
    (hitems : ∀ item ∈ items, item.outcome.counter.isSome = true) :
    ∃ queue, b.queue.commit b.batch.count b.batch.controlCount = some queue ∧
      Balanced
        { b with
          queue
          counters := items.foldl Counters.addItem b.counters
          ledger := { b.ledger with
            answered := b.ledger.answered ++ b.attempt.map (·.header.key) }
          batch := {} }
        (a.answer b.batch.attemptCount).release := by
  have hfly := h.inFlight hactive
  obtain ⟨hhistory, htallied⟩ := h.answered hactive hlength hitems
  have hpos := hfly.resolved_lt
  obtain ⟨queue, hcommit, hkeeps⟩ := h.keeps.commit (by omega) hfly.count_le hfly.control_eq
  have hcount : b.batch.attemptCount = b.batch.count - a.resolved.length := by
    rw [Batch.attemptCount]
    cases hiso : b.batch.isolation with
    | true =>
        have hmore := hlast hiso
        have hindex := hfly.index_eq
        rw [if_pos rfl]
        omega
    | false => rw [if_neg Bool.false_ne_true, hfly.whole hiso, List.length_nil, Nat.sub_zero]
  have hdrop : a.retained.drop b.batch.count =
      (a.answer b.batch.attemptCount).release.retained := by
    show (a.resolved ++ a.pending).drop b.batch.count =
      [] ++ a.pending.drop b.batch.attemptCount
    rw [List.drop_append, List.drop_of_length_le (Nat.le_of_lt hpos), hcount]
  refine ⟨queue, hcommit, h.settings, ?_, hhistory.release, fun _ => ⟨rfl, rfl⟩,
    fun hactive => absurd hactive Bool.false_ne_true, h.cleared, htallied.release⟩
  rw [← hdrop]
  exact hkeeps

theorem discard (h : Balanced b a) (hresolved : a.resolved = []) {count controls : Nat}
    (hpos : 0 < count) (hcount : count ≤ a.pending.length)
    (hcontrols : controls = (a.pending.take count).countP (·.record.isControl)) :
    ∃ queue, b.queue.commit count controls = some queue ∧
      Balanced
        { b with
          queue, counters := b.counters.addDropped count controls, batch := {} }
        (a.discard count) := by
  have hretained : a.retained = a.pending := by rw [Account.retained, hresolved, List.nil_append]
  have hkeeps := h.keeps
  rw [hretained] at hkeeps
  obtain ⟨queue, hcommit, hkeeps'⟩ := hkeeps.commit hpos hcount hcontrols
  refine ⟨queue, hcommit, h.settings, ?_, h.history.discard hresolved count,
    fun _ => ⟨rfl, hresolved⟩, fun hactive => absurd hactive Bool.false_ne_true, h.cleared,
    h.tallied.discard hcount hcontrols⟩
  show queue.Keeps (a.resolved ++ a.pending.drop count)
  rw [hresolved, List.nil_append]
  exact hkeeps'

end Balanced

/-! ## What leaves the books alone -/

@[simp] theorem books_setHealthState (s : Transport Payload) (state : HealthState) :
    (s.setHealthState state).books = s.books := rfl

@[simp] theorem books_markFailure (s : Transport Payload) : s.markFailure.books = s.books := by
  rw [markFailure]
  split <;> rfl

@[simp] theorem books_openCircuit (s : Transport Payload) : s.openCircuit.books = s.books := by
  rw [openCircuit]
  split <;> rfl

@[simp] theorem books_scheduleInflightRetry (s : Transport Payload) (now : Nat)
    (ambiguous : Bool) : (s.scheduleInflightRetry now ambiguous).books = s.books := by
  rw [scheduleInflightRetry, delayAttempt]
  split
  · exact books_openCircuit (s.countAttempt ambiguous)
  · exact books_markFailure _

@[simp] theorem books_scheduleRepositoryRetry (s : Transport Payload) (now : Nat) :
    (s.scheduleRepositoryRetry now).books = s.books := books_markFailure _

@[simp] theorem books_initAnswered (s : Transport Payload) (now : Nat)
    (init : RepositoryOutcome) : (s.initAnswered now init).2.books = s.books := by
  cases init with
  | ready | alreadyReady => exact (apply_ite books ..).trans (ite_self _)
  | flatfileDisabled => exact (apply_ite books ..).trans (ite_self _)
  | stopping | closed => rfl
  | permanentFailure => exact books_openCircuit s
  | invalidConfig | unavailable | other => exact books_scheduleRepositoryRetry s now

@[simp] theorem books_ensureRepository (s : Transport Payload) (now : Nat)
    (init : RepositoryOutcome) : (s.ensureRepository now init).2.books = s.books := by
  rw [ensureRepository]
  split
  · rfl
  · split
    · rfl
    · split
      · rfl
      · exact books_initAnswered s now init

variable {s' : Transport Payload} {begun : Bool} {result : ApplyBatchResult}

theorem ensureRepository_ready {now : Nat} {init : RepositoryOutcome}
    (h : s.ensureRepository now init = (true, s')) :
    s'.circuitOpen = false ∧ s'.repositoryReady = true := by
  rw [ensureRepository] at h
  split at h
  · cases h
  · next hopen =>
    split at h
    · next hready =>
      cases h
      exact ⟨Bool.eq_false_iff.mpr hopen, hready⟩
    · split at h
      · cases h
      · cases init with
        | ready | alreadyReady =>
            cases h
            split <;> exact ⟨Bool.eq_false_iff.mpr hopen, rfl⟩
        | flatfileDisabled => cases h
        | stopping | closed => cases h
        | permanentFailure => cases h
        | invalidConfig | unavailable | other => cases h

theorem ensureRepository_of_ready (hopen : s.circuitOpen = false)
    (hready : s.repositoryReady = true) (now : Nat) (init : RepositoryOutcome) :
    s.ensureRepository now init = (true, s) := by
  rw [ensureRepository, if_neg (Bool.eq_false_iff.mp hopen), if_pos hready]

@[simp] theorem books_handleCorruptCallback (s : Transport Payload) (now : Nat) :
    (s.handleCorruptCallback now).books = s.books := books_scheduleInflightRetry ..

@[simp] theorem books_handleRetryResult (s : Transport Payload) (result : ApplyBatchResult)
    (now : Nat) : (s.handleRetryResult result now).books = s.books := by
  rw [handleRetryResult, books_scheduleInflightRetry]
  split
  · exact books_scheduleRepositoryRetry ..
  · rfl

theorem endDrain_eq (s : Transport Payload) (pulse : Pulse) :
    (s.endDrain pulse).books = s.books ∧ (s.endDrain pulse).worker = .idle := by
  rw [endDrain]
  split <;> exact ⟨rfl, rfl⟩

@[simp] theorem books_finishPulse (s : Transport Payload) (drain : Option Drain) (now : Nat)
    (called : Bool) (pulse : Pulse) :
    (s.finishPulse drain now called pulse).books = s.books := by
  cases drain with
  | none => rfl
  | some drain =>
      rw [finishPulse]
      split
      · exact (s.endDrain_eq pulse).1
      · rfl

theorem finishPulse_worker (s : Transport Payload) (drain : Option Drain) (now : Nat)
    (called : Bool) (pulse : Pulse) (drain' : Option Drain) (now' : Nat)
    (attempt : List (Record Payload)) :
    (s.finishPulse drain now called pulse).worker ≠ .calling drain' now' attempt := by
  cases drain with
  | none => exact fun h => nomatch h
  | some drain =>
      rw [finishPulse]
      split
      · rw [(s.endDrain_eq pulse).2]
        exact fun h => nomatch h
      · exact fun h => nomatch h

/-! ## A pulse, up to the call of the repository -/

theorem beginBatch_front {retained : List (QueueSlot Payload)} (hkeeps : s.queue.Keeps retained)
    (heq : s.beginBatch format = (begun, s')) :
    (begun = false ∧ s' = s) ∨
      (begun = true ∧ ∃ count, 0 < count ∧ count ≤ retained.length ∧
        count ≤ s.settings.maxBatchRecords ∧
        s' = { s with
          inflightRecords := (retained.take count).map (·.record)
          inflight :=
            { active := true, count
              controlCount := ((retained.take count).map (·.record)).countP (·.isControl) } }) := by
  rw [beginBatch] at heq
  split at heq
  · cases heq
    exact .inl ⟨rfl, rfl⟩
  · split at heq
    · cases heq
      exact .inl ⟨rfl, rfl⟩
    · next hlimit =>
      have hdepth : s.batchLimit format ≤ retained.length := by
        rw [← hkeeps.physicalDepth]
        exact Nat.le_trans (Nat.min_le_left _ _) (Nat.min_le_left _ _)
      have hbounded : s.batchLimit format ≤ s.settings.maxBatchRecords :=
        Nat.le_trans (Nat.min_le_left _ _) (Nat.min_le_right _ _)
      rw [hkeeps.mapM_peek hdepth] at heq
      cases heq
      exact .inr ⟨rfl, _, Nat.pos_of_ne_zero hlimit, hdepth, hbounded, rfl⟩

/-- No batch was begun, or it has the oldest records. -/
def Took (s : Transport Payload) (a : Account Payload) (begun : Bool) (s' : Transport Payload) :
    Prop :=
  (begun = false ∧ s' = s) ∨
    (begun = true ∧ ∃ count, 0 < count ∧ count ≤ a.pending.length ∧
      count ≤ telemetryBatchMaxRecordsProposal ∧
      s' = { s with
        inflightRecords := (a.pending.take count).map (·.record)
        inflight :=
          { active := true, count
            controlCount := ((a.pending.take count).map (·.record)).countP (·.isControl) } })

theorem beginBatch_took (h : Balanced s.books a) (hidle : s.inflight.active = false)
    (heq : s.beginBatch format = (begun, s')) : Took s a begun s' := by
  have hretained : a.retained = a.pending := by
    rw [Account.retained, (h.idle hidle).2, List.nil_append]
  have hkeeps : s.queue.Keeps a.pending := hretained ▸ h.keeps
  rcases beginBatch_front hkeeps heq with hnone | ⟨hbegun, count, hpos, hcount, hbounded, htook⟩
  · exact .inl hnone
  · exact .inr ⟨hbegun, count, hpos, hcount, Nat.le_trans hbounded h.settings, htook⟩

theorem flushBatch_took (h : Balanced s.books a) (hidle : s.inflight.active = false) {now : Nat}
    {force : Bool} (heq : s.flushBatch format now force = (begun, s')) : Took s a begun s' := by
  rw [flushBatch] at heq
  split at heq
  · exact beginBatch_took h hidle heq
  · cases heq
    exact .inl ⟨rfl, rfl⟩

theorem attemptInflight_ready (hopen : s.circuitOpen = false) (hready : s.repositoryReady = true)
    (drain : Option Drain) (now : Nat) (init : RepositoryOutcome) (pulse : Pulse) :
    s.attemptInflight drain now init pulse =
      ({ s with
        worker := .calling drain now s.attemptRecords
        ledger := { s.ledger with
          offered := s.ledger.offered ++ s.attemptRecords.map (·.header.key) } }, none) := by
  rw [attemptInflight, ensureRepository_of_ready hopen hready]

/-- The books stay balanced, and the shutdown is where it was. -/
structure Kept (s s' : Transport Payload) : Prop where
  balanced : ∃ a, Balanced s'.books a
  completed : s'.restartAllowed = s.restartAllowed
  requested : s'.shutdownRequested = s.shutdownRequested

theorem kept_of_books (h : Balanced s.books a) (heq : s'.books = s.books) : Kept s s' where
  balanced := ⟨a, heq ▸ h⟩
  completed := congrArg Books.completed heq
  requested := congrArg Books.shutdownRequested heq

/-- What a pulse leaves behind where it calls the repository or ends. -/
structure Begun (s s' : Transport Payload) (result : Option Pulse) : Prop extends Kept s s' where
  calling : result = none → s'.inflight.active = true ∧
    ∃ drain now, s'.worker = .calling drain now s'.attemptRecords

theorem begun_of_books (h : Balanced s.books a) (heq : s'.books = s.books) (pulse : Pulse) :
    Begun s s' (some pulse) where
  toKept := kept_of_books h heq
  calling hnone := nomatch hnone

theorem pulseReady_begun (h : Balanced s.books a) (hopen : s.circuitOpen = false)
    (hready : s.repositoryReady = true) (drain : Option Drain) (now : Nat) (force : Bool)
    (init : RepositoryOutcome) :
    Begun s (s.pulseReady format drain now force init).1
      (s.pulseReady format drain now force init).2 := by
  rw [pulseReady]
  split
  · next hactive =>
    split
    · exact begun_of_books h rfl _
    · rw [attemptInflight_ready hopen hready]
      exact ⟨⟨⟨a, h.offer hactive⟩, rfl, rfl⟩, fun _ => ⟨hactive, drain, now, rfl⟩⟩
  · next hidle =>
    have hidle' : s.inflight.active = false := Bool.eq_false_iff.mpr hidle
    cases hflush : s.flushBatch format now force with
    | mk begun s' =>
        obtain ⟨rfl, rfl⟩ | ⟨rfl, count, hpos, hcount, hbounded, htook⟩ :=
          flushBatch_took h hidle' hflush
        · exact begun_of_books h rfl _
        · have hopen' : s'.circuitOpen = false := by rw [htook]; exact hopen
          have hready' : s'.repositoryReady = true := by rw [htook]; exact hready
          simp only
          rw [attemptInflight_ready hopen' hready']
          subst htook
          refine ⟨⟨⟨a, ?_⟩, rfl, rfl⟩, fun _ => ⟨rfl, drain, now, rfl⟩⟩
          have hkeys : (((a.pending.take count).map (·.record)).take count).map (·.header.key) =
              (a.pending.take count).map (·.key) := by
            rw [← List.map_take, List.take_take, Nat.min_self, List.map_map]
            rfl
          have hbegin := h.begin hidle' hpos hcount hbounded
          rw [← hkeys] at hbegin
          exact hbegin

theorem pulseImpl_begun (h : Balanced s.books a) (drain : Option Drain) (now : Nat)
    (force : Bool) (init : RepositoryOutcome) :
    Begun s (s.pulseImpl format drain now force init).1
      (s.pulseImpl format drain now force init).2 := by
  rw [pulseImpl]
  split
  · exact begun_of_books h rfl _
  · split
    · exact begun_of_books h rfl _
    · split
      · exact begun_of_books h rfl _
      · split
        · exact begun_of_books h (books_setHealthState s .stopped) _
        · have hbooks := books_ensureRepository s now init
          cases hensure : s.ensureRepository now init with
          | mk ready s' =>
              rw [hensure] at hbooks
              cases ready with
              | false => exact begun_of_books h hbooks _
              | true =>
                  obtain ⟨hopen, hready⟩ := ensureRepository_ready hensure
                  have hbegun : Begun s' (s'.pulseReady format drain now force init).1 _ :=
                    pulseReady_begun (hbooks ▸ h) hopen hready drain now force init
                  exact ⟨⟨hbegun.balanced,
                    hbegun.completed.trans (congrArg Books.completed hbooks),
                    hbegun.requested.trans (congrArg Books.shutdownRequested hbooks)⟩,
                    hbegun.calling⟩

/-! ## The answers -/

theorem validateFullResult_counted {attempt : List (Record Payload)}
    (hlength : attempt.length ≤ telemetryBatchMaxRecordsProposal)
    (h : result.validateFullResult attempt false = true) :
    (result.items attempt.length).length = attempt.length ∧
      ∀ item ∈ result.items attempt.length, item.outcome.counter.isSome = true := by
  have hitems : (result.items attempt.length).length = attempt.length := by
    rw [ApplyBatchResult.items, List.length_take, Vector.length_toList, Nat.min_eq_left hlength]
  refine ⟨hitems, fun item hitem => ?_⟩
  rw [ApplyBatchResult.validateFullResult, decide_eq_true_eq] at h
  obtain ⟨-, -, -, -, -, -, hall, -⟩ := h
  obtain ⟨i, hi, rfl⟩ := List.mem_iff_getElem.mp hitem
  have hzip : (attempt[i], (result.items attempt.length)[i]) ∈
      attempt.zip (result.items attempt.length) := by
    rw [List.mem_iff_getElem]
    exact ⟨i, by rw [List.length_zip]; omega, List.getElem_zip ..⟩
  have hvalid : result.itemIsValid false attempt[i] (result.items attempt.length)[i] = true :=
    List.all_eq_true.mp hall _ hzip
  rw [ApplyBatchResult.itemIsValid, decide_eq_true_eq] at hvalid
  obtain ⟨-, -, hpossible, -⟩ := hvalid
  rw [ApplyBatchResult.outcomeIsPossible] at hpossible
  cases houtcome : (result.items attempt.length)[i].outcome <;> rw [houtcome] at hpossible <;>
    first
      | rfl
      | cases hpossible

theorem rejection_counted (key : RecordKey) :
    ((rejection key).items 1).length = 1 ∧
      ∀ item ∈ (rejection key).items 1, item.outcome.counter.isSome = true := by
  have hitems : (rejection key).items 1 = [{ key, outcome := .rejectedInvalid }] := by
    rw [ApplyBatchResult.items, rejection, Vector.toList_ofFn]
    exact congrArg (List.take 1) (@List.ofFn_succ _ 127 _)
  rw [hitems]
  refine ⟨rfl, fun item hitem => ?_⟩
  rw [List.mem_singleton.mp hitem]
  rfl

@[simp] theorem books_reportSuccess (s : Transport Payload) (result : ApplyBatchResult) :
    (s.reportSuccess result).books = s.books := by
  rw [reportSuccess]
  split
  · rfl
  · split <;> rfl

theorem books_releaseBatch {queue : Queue Payload}
    (hcommit : s.queue.commit s.inflight.count s.inflight.controlCount = some queue) (now : Nat) :
    (s.releaseBatch now).books = { s.books with queue, batch := {} } := by
  rw [releaseBatch, hcommit]
  rfl

/-- The books behind the answers to an attempt, before the batch moves on. -/
def Books.count (b : Books Payload) (items : List RecordApplyResult) : Books Payload :=
  { b with
    counters := items.foldl Counters.addItem b.counters
    ledger := { b.ledger with
      answered := b.ledger.answered ++ b.attempt.map (·.header.key) } }

theorem advanceBatch_kept (h : Balanced b a) (hactive : b.batch.active = true)
    {items : List RecordApplyResult} (hlength : items.length = b.attempt.length)
    (hitems : ∀ item ∈ items, item.outcome.counter.isSome = true)
    (hbooks : s.books = b.count items) (now : Nat) : Kept s (s.advanceBatch now) := by
  have hbatch : s.inflight.toBatch = b.batch := congrArg Books.batch hbooks
  have hqueue : s.queue = b.queue := congrArg Books.queue hbooks
  have hall : (b.batch.isolation = true → ¬b.batch.isolationIndex + 1 < b.batch.count) →
      ∀ t : Transport Payload, t.queue = s.queue → t.inflight.count = s.inflight.count →
        t.inflight.controlCount = s.inflight.controlCount →
        { t.books with batch := {} } = { s.books with batch := {} } →
        Kept s (t.releaseBatch now) := by
    intro hlast t htqueue hcount hcontrols htbooks
    obtain ⟨queue, hcommit, hbalanced⟩ := h.answerAll hactive hlast hlength hitems
    rw [← hqueue, ← hbatch, ← htqueue, ← hcount, ← hcontrols] at hcommit
    have hrelease : (t.releaseBatch now).books = { s.books with queue, batch := {} } := by
      rw [books_releaseBatch hcommit]
      exact congrArg (fun books : Books Payload => { books with queue }) htbooks
    refine ⟨⟨(a.answer b.batch.attemptCount).release, ?_⟩, congrArg Books.completed hrelease,
      congrArg Books.shutdownRequested hrelease⟩
    rw [hrelease, hbooks]
    exact hbalanced
  rw [advanceBatch]
  split
  · next hiso =>
    split
    · next hmore =>
      refine ⟨⟨a.answer b.batch.attemptCount, ?_⟩, rfl, rfl⟩
      have hnext : s.nextIsolated.books =
          { s.books with
            batch := { s.inflight.toBatch with
              isolationIndex := s.inflight.isolationIndex + 1 } } := rfl
      have hmore' : s.inflight.toBatch.isolationIndex + 1 < s.inflight.toBatch.count := hmore
      rw [hnext, hbooks]
      rw [hbatch] at hiso hmore' ⊢
      exact h.answerOne hactive hiso hmore' hlength hitems
    · next hmore =>
      have hmore' : ¬s.inflight.toBatch.isolationIndex + 1 < s.inflight.toBatch.count := hmore
      rw [hbatch] at hmore'
      exact hall (fun _ => hmore') s.nextIsolated rfl rfl rfl rfl
  · next hiso =>
    rw [hbatch] at hiso
    exact hall (fun h => absurd h hiso) s rfl rfl rfl rfl

theorem handleSuccess_kept (h : Balanced s.books a) (hactive : s.inflight.active = true)
    {attempt : List (Record Payload)} (hattempt : attempt = s.attemptRecords)
    (hlength : (result.items attempt.length).length = attempt.length)
    (hitems : ∀ item ∈ result.items attempt.length, item.outcome.counter.isSome = true) (now : Nat)
    (pulse : Pulse) : Kept s (s.handleSuccess result attempt now pulse).1 := by
  subst hattempt
  have hcounted : (((s.updatePulseCounts result s.attemptRecords.length pulse).1.recordAnswers
      s.attemptRecords).reportSuccess result).books =
        s.books.count (result.items s.attemptRecords.length) := books_reportSuccess ..
  have hkept := advanceBatch_kept h hactive hlength hitems hcounted now
  exact ⟨hkept.balanced, hkept.completed.trans (congrArg Books.completed hcounted),
    hkept.requested.trans (congrArg Books.shutdownRequested hcounted)⟩

theorem attemptRecords_singleton (hfly : InFlight s.inflight.toBatch s.inflightRecords
    s.ledger.offered a) (hsingle : ¬(1 < s.inflight.count ∧ s.inflight.isolation = false))
    {record : Record Payload} (hrecord : s.inflightRecords[s.attemptIndex]? = some record) :
    s.attemptRecords = [record] := by
  rw [attemptIndex] at hrecord
  rw [attemptRecords]
  cases hiso : s.inflight.isolation with
  | true =>
      rw [hiso, if_pos rfl] at hrecord
      rw [if_pos rfl, List.take_one, List.head?_drop, hrecord]
      rfl
  | false =>
      have hcount : s.inflight.count = 1 := by
        have hpos : a.resolved.length < s.inflight.count := hfly.resolved_lt
        have hle : ¬1 < s.inflight.count := fun hlt => hsingle ⟨hlt, hiso⟩
        omega
      rw [hiso, if_neg Bool.false_ne_true, ← List.head?_eq_getElem?] at hrecord
      rw [if_neg Bool.false_ne_true, hcount, List.take_one, hrecord]
      rfl

theorem handleInvalidBatch_kept (h : Balanced s.books a) (hactive : s.inflight.active = true)
    (now : Nat) (pulse : Pulse) : Kept s (s.handleInvalidBatch now pulse).1 := by
  have hfly := h.inFlight hactive
  rw [handleInvalidBatch]
  split
  · next hwhole =>
    have hiso : s.inflight.isolation = false := by simpa using hwhole.2
    exact ⟨⟨a, h.isolate hactive hiso⟩, rfl, rfl⟩
  · next hsingle =>
    rw [rejectRecord]
    cases hrecord : s.inflightRecords[s.attemptIndex]? with
    | none => exact kept_of_books h rfl
    | some record =>
        have hattempt := attemptRecords_singleton hfly (by simpa using hsingle) hrecord
        obtain ⟨hlength, hitems⟩ := rejection_counted record.header.key
        exact handleSuccess_kept h hactive hattempt.symm hlength hitems now pulse

theorem discardInflightForDisabled_kept (h : Balanced s.books a)
    (hactive : s.inflight.active = true) (hindex : s.inflight.isolationIndex = 0) :
    ∃ a', Balanced s.discardInflightForDisabled.books a' ∧
      s.discardInflightForDisabled.inflight = {} ∧ Kept s s.discardInflightForDisabled := by
  have hfly := h.inFlight hactive
  have hresolved : a.resolved = [] := List.length_eq_zero_iff.mp (hfly.index_eq.symm.trans hindex)
  have hretained : a.retained = a.pending := by rw [Account.retained, hresolved, List.nil_append]
  have hpos : 0 < s.inflight.count := Nat.lt_of_le_of_lt (Nat.zero_le _) hfly.resolved_lt
  have hcount := hfly.count_le
  have hcontrols := hfly.control_eq
  rw [hretained] at hcount hcontrols
  obtain ⟨queue, hcommit, hbalanced⟩ := h.discard hresolved hpos hcount hcontrols
  have hcommit' : s.queue.commit s.inflight.count s.inflight.controlCount = some queue := hcommit
  rw [discardInflightForDisabled, hactive, Bool.not_true, if_neg Bool.false_ne_true, hcommit']
  exact ⟨_, hbalanced, rfl, ⟨_, hbalanced⟩, rfl, rfl⟩

theorem discardRecordsForDisabled_kept (h : Balanced s.books a) (hidle : s.inflight = {}) :
    Kept s s.discardRecordsForDisabled := by
  have hbatch : s.books.batch = {} := congrArg Inflight.toBatch hidle
  have hresolved : a.resolved = [] := (h.idle (by rw [hbatch])).2
  have hretained : a.retained = a.pending := by rw [Account.retained, hresolved, List.nil_append]
  have hkeeps : s.queue.Keeps a.pending := hretained ▸ h.keeps
  rw [discardRecordsForDisabled, hkeeps.physicalDepth]
  simp only [hkeeps.countP_peek]
  split
  · exact kept_of_books h rfl
  · next hsome =>
    obtain ⟨queue, hcommit, hbalanced⟩ :=
      h.discard hresolved (Nat.pos_of_ne_zero hsome) (Nat.le_refl _) (by rw [List.take_length])
    have hcommit' : s.queue.commit a.pending.length
        (a.pending.countP (·.record.isControl)) = some queue := hcommit
    rw [hcommit']
    rw [← hbatch] at hbalanced
    exact ⟨⟨_, hbalanced⟩, rfl, rfl⟩

theorem disableTransport_kept (h : Balanced s.books a) (hactive : s.inflight.active = true)
    (hindex : s.inflight.isolationIndex = 0) : Kept s s.disableTransport := by
  obtain ⟨a', h', hidle, hkept⟩ := discardInflightForDisabled_kept h hactive hindex
  have hkept' := discardRecordsForDisabled_kept h' hidle
  exact ⟨hkept'.balanced, hkept'.completed.trans hkept.completed,
    hkept'.requested.trans hkept.requested⟩

def Disables (s : Transport Payload) (result : ApplyBatchResult) : Prop :=
  result.outcome = .disabled ∧ result.validateEarlyResult = true ∧
    s.inflight.resolutionRequired = false

instance (s : Transport Payload) (result : ApplyBatchResult) : Decidable (s.Disables result) :=
  inferInstanceAs (Decidable (_ ∧ _ ∧ _))

theorem answerInflight_kept (h : Balanced s.books a) (hactive : s.inflight.active = true)
    {attempt : List (Record Payload)} (hattempt : attempt = s.attemptRecords)
    (hdisables : s.Disables result → s.inflight.isolationIndex = 0) (now : Nat) (pulse : Pulse) :
    Kept s (s.answerInflight attempt now result pulse).1 := by
  have hfly := h.inFlight hactive
  have hlength : attempt.length ≤ telemetryBatchMaxRecordsProposal := by
    have hcount := (h.attempt_length hactive)
    obtain ⟨-, hle⟩ := hfly.attemptCount_le
    rw [hattempt, attemptRecords_eq, hcount]
    exact Nat.le_trans (by omega) hfly.bounded
  have hcorrupt := kept_of_books h (books_handleCorruptCallback s now)
  have hretry := kept_of_books h (books_handleRetryResult s result now)
  rw [answerInflight]
  split
  · exact kept_of_books h (books_scheduleInflightRetry s now true)
  · next hresolution =>
    split
    · next houtcome =>
      rw [handleDisabledCallback]
      split
      · exact hcorrupt
      · next hvalid =>
        refine disableTransport_kept h hactive (hdisables ⟨houtcome, by simpa using hvalid, ?_⟩)
        rw [Bool.eq_false_iff]
        exact fun hrequired => hresolution ⟨hrequired, .inr houtcome⟩
    · split
      · exact hretry
      · exact hcorrupt
    · split
      · exact handleInvalidBatch_kept h hactive now pulse
      · exact hcorrupt
    · split
      · exact hretry
      · exact hcorrupt
    · split
      · exact hretry
      · exact hcorrupt
    · split
      · exact kept_of_books h (books_openCircuit s)
      · exact hcorrupt
    · split
      · next hvalid =>
        obtain ⟨hitemsLength, hitems⟩ := validateFullResult_counted hlength hvalid
        exact handleSuccess_kept h hactive hattempt hitemsLength hitems now pulse
      · exact hcorrupt
    · split
      · next hvalid =>
        obtain ⟨hitemsLength, hitems⟩ := validateFullResult_counted hlength hvalid
        exact handleSuccess_kept h hactive hattempt hitemsLength hitems now pulse
      · exact hcorrupt
    · exact hcorrupt

/-! ## What is to be kept -/

/-- The retained records without a final answer. -/
def unresolved (s : Transport Payload) : List (Record Payload) :=
  s.queue.records.filter fun record => record.header.key ∉ s.ledger.answered

def BelowSaturation (s : Transport Payload) : Prop := ∀ counter, s.counters counter < uint64Max

def allCounters : List Counter :=
  [.admittedDetail, .admittedControl, .droppedDetail, .droppedControl, .appliedRecords,
    .duplicateRecords, .staleCheckpointRecords, .invalidRecords, .conflictRecords,
    .rejectedDetail, .rejectedControl]

theorem mem_allCounters (counter : Counter) : counter ∈ allCounters := by
  cases counter <;> decide

instance (s : Transport Payload) : Decidable s.BelowSaturation :=
  decidable_of_iff (∀ counter ∈ allCounters, s.counters counter < uint64Max)
    ⟨fun h counter => h counter (mem_allCounters counter), fun h counter _ => h counter⟩

/-- The admitted records of a kind that the repository was never called with. -/
def neverOffered (s : Transport Payload) (control : Bool) : List RecordHeader :=
  s.ledger.admitted.filter fun header =>
    header.kind.isControl = control ∧ header.key ∉ s.ledger.offered

/-- The transport loses nothing silently. `dropped_detail` and `dropped_control` count the
failed admissions as well, which `LOSS` counts alone. -/
structure LosesNothing (s : Transport Payload) : Prop where
  /-- What was admitted was answered, dropped or is still there. -/
  accounted : s.restartAllowed = false → s.BelowSaturation →
    s.counters .admittedDetail + s.counters .admittedControl +
        (s.counters .rejectedDetail + s.counters .rejectedControl) =
      s.counters .appliedRecords + s.counters .duplicateRecords +
        s.counters .staleCheckpointRecords + s.counters .invalidRecords +
        s.counters .conflictRecords +
        (s.counters .droppedDetail + s.counters .droppedControl) + s.unresolved.length
  ordered : s.queue.records.map (·.header) <:+ s.ledger.admitted
  /-- The repository is called with the oldest records without an answer. -/
  offered : ∀ drain now attempt, s.worker = .calling drain now attempt →
    attempt ≠ [] ∧ attempt <+: s.unresolved ∧
      (s.inflight.isolation = true → attempt.length = 1) ∧
      ∀ record ∈ attempt, record.header.key ∉ s.ledger.answered
  /-- A completed shutdown has counted what was never offered. -/
  tail : s.restartAllowed = true → s.BelowSaturation → ∀ control,
    (s.neverOffered control).length + s.counters (.rejected control) ≤
      s.counters (.dropped control)

/-- No record is queued behind a batch in flight. -/
def NothingBehind (s : Transport Payload) : Prop :=
  s.inflight.active = true → s.queue.depth ≤ s.inflight.count

def isCalling (s : Transport Payload) : Bool :=
  match s.worker with
  | .calling .. => true
  | .idle | .draining _ => false

def isIdle (s : Transport Payload) : Bool :=
  match s.worker with
  | .idle => true
  | .calling .. | .draining _ => false

def isLeaving (s : Transport Payload) : Bool :=
  match s.enqueue with
  | .leaving _ => true
  | .outside | .entered _ | .cleared _ => false

/-- The step disables no isolated batch of which a record was answered, and completes no
shutdown over a batch in flight with records behind it. -/
def Safe (s : Transport Payload) : Event Payload → Prop
  | .answer result =>
      s.isCalling = true ∧ s.Disables result → s.inflight.isolationIndex = 0
  | .leave => s.isLeaving = true ∧ s.shutdownRequested = true → s.NothingBehind
  | .shutdown =>
      s.isIdle = true ∧ s.lifecycle ≠ .stopped ∧ s.producerInside = false → s.NothingBehind
  | .enqueue _ | .check | .push _ | .pulse .. | .drainUntil _ | .drainPulse .. | .requestStop =>
      True

instance (s : Transport Payload) : Decidable s.NothingBehind :=
  inferInstanceAs (Decidable (_ → _))

instance Safe.decidable (s : Transport Payload) :
    ∀ event : Event Payload, Decidable (s.Safe event)
  | .answer _ => inferInstanceAs (Decidable (_ ∧ _ → _))
  | .leave => inferInstanceAs (Decidable (_ ∧ _ → _))
  | .shutdown => inferInstanceAs (Decidable (_ ∧ _ ∧ _ → _))
  | .enqueue _ => inferInstanceAs (Decidable True)
  | .check => inferInstanceAs (Decidable True)
  | .push _ => inferInstanceAs (Decidable True)
  | .pulse .. => inferInstanceAs (Decidable True)
  | .drainUntil _ => inferInstanceAs (Decidable True)
  | .drainPulse .. => inferInstanceAs (Decidable True)
  | .requestStop => inferInstanceAs (Decidable True)

/-! ## Shutdown -/

structure Completed (s : Transport Payload) : Prop where
  completed : s.restartAllowed = true
  worker : s.worker = .idle
  records : s.queue.records = []
  tail : ∃ tally : Counters, s.counters.Tracks tally ∧ ∀ control,
    (s.neverOffered control).length + tally (.rejected control) ≤ tally (.dropped control)

/-- Where every retained record was offered, what never was has been dropped. -/
theorem neverOffered_le {ledger : Ledger} {last : RecordKey} {counters : Counters}
    (hhistory : History ledger last a) (htallied : Tallied counters ledger a)
    (hretained : ∀ slot ∈ a.retained, slot.key ∈ ledger.offered) :
    ∃ tally : Counters, counters.Tracks tally ∧ ∀ control,
      (ledger.admitted.filter fun header =>
          header.kind.isControl = control ∧ header.key ∉ ledger.offered).length +
        tally (.rejected control) ≤ tally (.dropped control) := by
  obtain ⟨tally, htally⟩ := htallied
  refine ⟨tally, htally.tracks, fun control => ?_⟩
  have hnodup : ledger.admitted.Nodup := by
    refine hhistory.sorted.imp ?_
    intro header other hlt heq
    rw [heq] at hlt
    exact Nat.lt_irrefl _ hlt
  have hsubset : (ledger.admitted.filter fun header =>
      header.kind.isControl = control ∧ header.key ∉ ledger.offered) ⊆
        a.discarded.filter (·.kind.isControl = control) := by
    intro header hheader
    obtain ⟨hadmitted, hnever⟩ := List.mem_filter.mp hheader
    rw [decide_eq_true_eq] at hnever
    rw [hhistory.admitted] at hadmitted
    refine List.mem_filter.mpr ⟨?_, decide_eq_true hnever.1⟩
    rcases List.mem_append.mp hadmitted with hgone | hheld
    · rcases hhistory.gone header hgone with hanswered | hdiscarded
      · exact absurd (hhistory.offered hanswered) hnever.2
      · exact hdiscarded
    · obtain ⟨slot, hslot, rfl⟩ := List.mem_map.mp hheld
      exact absurd (hretained slot hslot) hnever.2
  have hlength := ((hnodup.filter _).subperm hsubset).length_le
  rw [htally.dropped control, List.countP_eq_length_filter, Nat.add_comm]
  exact Nat.add_le_add_left hlength _

theorem finalizeBody_completed (h : Balanced s.books a) (hworker : s.worker = .idle)
    (hbehind : s.NothingBehind) : Completed s.finalizeBody where
  completed := rfl
  worker := hworker
  records := (Queue.keeps_reset s.queue).records
  tail := by
    have hdepth : s.queue.depth = a.retained.length := h.keeps.depth
    have hcontrols : s.queue.controlDepth = a.retained.countP (·.record.isControl) :=
      h.keeps.controlDepth
    show ∃ tally, Counters.Tracks
      (if !s.inflight.active ∧ s.queue.controlDepth ≤ s.queue.depth then
        s.counters.addDropped s.queue.depth s.queue.controlDepth
      else s.counters) tally ∧ _
    cases hactive : s.inflight.active with
    | true =>
        have hfly := h.inFlight hactive
        have hall : a.retained.take s.inflight.count = a.retained :=
          List.take_of_length_le (hdepth ▸ hbehind hactive)
        rw [if_neg (by simp)]
        refine neverOffered_le h.history h.tallied fun slot hslot => hfly.offered slot ?_
        rw [← hall] at hslot
        exact hslot
    | false =>
        have hresolved := (h.idle hactive).2
        have hretained : a.retained = a.pending := by
          rw [Account.retained, hresolved, List.nil_append]
        rw [hretained] at hdepth hcontrols
        have hle : s.queue.controlDepth ≤ s.queue.depth := by
          rw [hdepth, hcontrols]
          exact List.countP_le_length
        rw [if_pos ⟨rfl, hle⟩, hdepth]
        have htallied : Tallied (s.counters.addDropped a.pending.length s.queue.controlDepth)
            s.ledger (a.discard a.pending.length) :=
          h.tallied.discard (Nat.le_refl _) (by rw [List.take_length, hcontrols])
        have hnone : (a.discard a.pending.length).retained = [] := by
          show a.resolved ++ a.pending.drop a.pending.length = []
          rw [hresolved, List.drop_length, List.nil_append]
        refine neverOffered_le (h.history.discard hresolved _) htallied fun slot hslot => ?_
        rw [hnone] at hslot
        exact absurd hslot List.not_mem_nil

/-! ## The invariant -/

structure Inv (s : Transport Payload) : Prop where
  balanced : ∃ a, Balanced s.books a
  calling : ∀ drain now attempt, s.worker = .calling drain now attempt →
    s.inflight.active = true ∧ attempt = s.attemptRecords
  joined : s.shutdownRequested = true → s.worker = .idle
  stopping : s.shutdownRequested = true → s.lifecycle = .stopping
  running : s.restartAllowed = false

namespace Inv

theorem finalize (h : Inv s) (hworker : s.worker = .idle)
    (hbehind : s.producerInside = false → s.NothingBehind) :
    Inv s.finalizeShutdown ∨ Completed s.finalizeShutdown := by
  obtain ⟨a, hbalanced⟩ := h.balanced
  rw [finalizeShutdown]
  split
  · exact .inl ⟨h.balanced, h.calling, h.joined, h.stopping, h.running⟩
  · next houtside =>
    have houtside' : s.producerInside = false := Bool.eq_false_iff.mpr houtside
    exact .inr (finalizeBody_completed (s := { s with admissionClosed := true }) hbalanced hworker
      (hbehind houtside'))

theorem setEnqueue (h : Inv s) {enqueue : Enqueue Payload}
    (henqueue : ∀ record, enqueue = .cleared record →
      0 < record.header.key.recordSeq ∧
        s.lastAdmittedKey.recordSeq < record.header.key.recordSeq) :
    Inv { s with enqueue } := by
  obtain ⟨a, hbalanced⟩ := h.balanced
  exact ⟨⟨a, hbalanced.setEnqueue henqueue⟩, h.calling, h.joined, h.stopping, h.running⟩

theorem setAdmission (h : Inv s) (admission : Option QueueAdmission) :
    Inv { s with lastAdmission := admission } :=
  ⟨h.balanced, h.calling, h.joined, h.stopping, h.running⟩

theorem refuse (h : Inv s) (control : Bool) (admission : QueueAdmission) :
    Inv { s with
      counters := s.counters.recordFailedAdmission control, enqueue := .leaving admission } := by
  obtain ⟨a, hbalanced⟩ := h.balanced
  exact ⟨⟨a, hbalanced.refuse control admission⟩, h.calling, h.joined, h.stopping, h.running⟩

theorem checkAdmission (h : Inv s) (record : Record Payload) :
    Inv (s.checkAdmission format record) := by
  rw [Transport.checkAdmission]
  split
  · exact h.setEnqueue fun _ hcleared => nomatch hcleared
  · split
    · refine h.setEnqueue fun _ hcleared => ?_
      split at hcleared <;> cases hcleared
    · split
      · exact h.setEnqueue fun _ hcleared => nomatch hcleared
      · next hchecks =>
        split
        · exact h.refuse false _
        · refine h.setEnqueue fun _ hcleared => ?_
          cases hcleared
          rw [not_or] at hchecks
          obtain ⟨hvalid, hkey⟩ := hchecks
          have hheader : record.header.key.recordSeq ≠ 0 := by
            simp only [Bool.not_eq_true', Bool.not_eq_false, Record.isValid, RecordHeader.isValid,
              RecordKey.isValid, decide_eq_true_eq] at hvalid
            exact hvalid.1.2.2.2.2
          refine ⟨Nat.pos_of_ne_zero hheader, ?_⟩
          by_cases hzero : s.lastAdmittedKey.recordSeq = 0
          · rw [hzero]
            exact Nat.pos_of_ne_zero hheader
          · exact Nat.lt_of_not_le fun hle => hkey ⟨hzero, .inr hle⟩

theorem pushRecord (h : Inv s) {record : Record Payload} (hcleared : s.enqueue = .cleared record)
    (clock : Option Nat) : Inv (s.pushRecord record clock) := by
  obtain ⟨a, hbalanced⟩ := h.balanced
  rw [Transport.pushRecord]
  cases hpush : s.queue.tryPush record (clock.getD 0) clock.isSome record.isControl with
  | none => exact h.refuse _ _
  | some queue =>
      exact ⟨hbalanced.accept hcleared hpush _, h.calling, h.joined, h.stopping, h.running⟩

theorem workerPulse (h : Inv s) (hrequested : s.shutdownRequested = false)
    (drain : Option Drain) (now : Nat) (force : Bool) (init : RepositoryOutcome) :
    Inv (s.workerPulse format drain now force init) := by
  obtain ⟨a, hbalanced⟩ := h.balanced
  have hbegun : Begun s (s.pulseImpl format drain now force init).1 _ :=
    pulseImpl_begun hbalanced drain now force init
  rw [Transport.workerPulse]
  cases hpulse : s.pulseImpl format drain now force init with
  | mk s' result =>
      rw [hpulse] at hbegun
      have hrunning : s'.restartAllowed = false := hbegun.completed.trans h.running
      have hrequested' : s'.shutdownRequested = false := hbegun.requested.trans hrequested
      cases result with
      | none =>
          obtain ⟨hactive, drain', now', hworker⟩ := hbegun.calling rfl
          have hnot : s'.shutdownRequested ≠ true := Bool.eq_false_iff.mp hrequested'
          refine ⟨hbegun.balanced, fun _ _ attempt hcalling => ?_, fun h => absurd h hnot,
            fun h => absurd h hnot, hrunning⟩
          rw [hworker] at hcalling
          cases hcalling
          exact ⟨hactive, rfl⟩
      | some pulse =>
          have hbooks := books_finishPulse s' drain now false pulse
          have hnot : (s'.finishPulse drain now false pulse).shutdownRequested ≠ true :=
            Bool.eq_false_iff.mp ((congrArg Books.shutdownRequested hbooks).trans hrequested')
          refine ⟨?_, fun _ _ _ hcalling => ?_, fun h => absurd h hnot, fun h => absurd h hnot, ?_⟩
          · rw [hbooks]
            exact hbegun.balanced
          · exact (finishPulse_worker _ _ _ _ _ _ _ _ hcalling).elim
          · exact (congrArg Books.completed hbooks).trans hrunning

theorem answer (h : Inv s) {drain : Option Drain} {now : Nat} {attempt : List (Record Payload)}
    (hworker : s.worker = .calling drain now attempt) {result : ApplyBatchResult}
    (hsafe : s.Disables result → s.inflight.isolationIndex = 0) (pulse pulse' : Pulse) :
    Inv ((s.answerInflight attempt now result pulse).1.finishPulse drain now true pulse') := by
  obtain ⟨a, hbalanced⟩ := h.balanced
  obtain ⟨hactive, hattempt⟩ := h.calling drain now attempt hworker
  have hkept := answerInflight_kept hbalanced hactive hattempt hsafe now pulse
  have hbooks :=
    books_finishPulse (s.answerInflight attempt now result pulse).1 drain now true pulse'
  have hnot : ((s.answerInflight attempt now result pulse).1.finishPulse drain now true
      pulse').shutdownRequested ≠ true := by
    intro hshutdown
    have heq := (congrArg Books.shutdownRequested hbooks).trans hkept.requested
    have hidle := h.joined (heq.symm.trans hshutdown)
    rw [hworker] at hidle
    cases hidle
  refine ⟨?_, fun _ _ _ hcalling => ?_, fun h => absurd h hnot, fun h => absurd h hnot, ?_⟩
  · rw [hbooks]
    exact hkept.balanced
  · exact (finishPulse_worker _ _ _ _ _ _ _ _ hcalling).elim
  · exact ((congrArg Books.completed hbooks).trans hkept.completed).trans h.running

end Inv

/-- What an event does when it does anything. -/
inductive Acts (format : RecordFormat Payload) (s : Transport Payload) :
    Event Payload → Transport Payload → Prop
  | nothing (event : Event Payload) : Acts format s event s
  | enqueue (outside : s.enqueue = .outside) (record : Record Payload) :
      Acts format s (.enqueue record) (s.enterGuard record)
  | check {record : Record Payload} (entered : s.enqueue = .entered record) :
      Acts format s .check (s.checkAdmission format record)
  | push {record : Record Payload} (cleared : s.enqueue = .cleared record) (clock : Option Nat) :
      Acts format s (.push clock) (s.pushRecord record clock)
  | leave {admission : QueueAdmission} (leaving : s.enqueue = .leaving admission) :
      Acts format s .leave (s.leaveGuard admission)
  | pulse (running : s.shutdownRequested = false) (now : Nat) (init : RepositoryOutcome) :
      Acts format s (.pulse now init) (s.workerPulse format none now false init)
  | drainUntil (running : s.shutdownRequested = false) (deadline : Nat) :
      Acts format s (.drainUntil deadline)
        { s with worker := .draining { deadline, iteration := 0 } }
  | drained (clock : Option Nat) (init : RepositoryOutcome) :
      Acts format s (.drainPulse clock init) { s with worker := .idle }
  | drainPulse {drain : Drain} (draining : s.worker = .draining drain) (clock : Option Nat)
      (init : RepositoryOutcome) : Acts format s (.drainPulse clock init)
        (s.workerPulse format (some drain) (clock.getD drain.deadline) true init)
  | answer {drain : Option Drain} {now : Nat} {attempt : List (Record Payload)}
      (calling : s.worker = .calling drain now attempt) (result : ApplyBatchResult) :
      Acts format s (.answer result)
        ((s.answerInflight attempt now result { outcome := .drained }).1.finishPulse drain now true
          ((s.answerInflight attempt now result { outcome := .drained }).1.fillPending
            (s.answerInflight attempt now result { outcome := .drained }).2))
  | requestStop : Acts format s .requestStop s.telemetryTransportRequestStop
  | shutdown (idle : s.worker = .idle) : Acts format s .shutdown s.telemetryTransportShutdown

theorem step_acts (format : RecordFormat Payload) (s : Transport Payload) (event : Event Payload) :
    Acts format s event (s.step format event) := by
  cases event with
  | enqueue record =>
      rw [Transport.step]
      split
      · next houtside => exact .enqueue houtside record
      · exact .nothing _
  | check =>
      rw [Transport.step]
      split
      · next hentered => exact .check hentered
      · exact .nothing _
  | push clock =>
      rw [Transport.step]
      split
      · next hcleared => exact .push hcleared clock
      · exact .nothing _
  | leave =>
      rw [Transport.step]
      split
      · next hleaving => exact .leave hleaving
      · exact .nothing _
  | pulse now init =>
      rw [Transport.step]
      split
      · split
        · exact .nothing _
        · next hopen => exact .pulse (Bool.eq_false_iff.mpr hopen) now init
      · exact .nothing _
  | drainUntil deadline =>
      rw [Transport.step]
      split
      · split
        · exact .nothing _
        · next hopen => exact .drainUntil (Bool.eq_false_iff.mpr hopen) deadline
      · exact .nothing _
  | drainPulse clock init =>
      rw [Transport.step]
      split
      · next hdraining =>
        dsimp only
        split
        · exact .drained clock init
        · exact .drainPulse hdraining clock init
      · exact .nothing _
  | answer result =>
      rw [Transport.step]
      split
      · next hcalling => exact .answer hcalling result
      · exact .nothing _
  | requestStop => exact .requestStop
  | shutdown =>
      rw [Transport.step]
      split
      · next hidle => exact .shutdown hidle
      · exact .nothing _

theorem Inv.step (h : Inv s) {event : Event Payload} (hsafe : s.Safe event) :
    Inv (s.step format event) ∨ Completed (s.step format event) := by
  have hacts := step_acts format s event
  generalize s.step format event = s' at hacts ⊢
  cases hacts with
  | nothing => exact .inl h
  | enqueue houtside record =>
      rw [enterGuard]
      split
      · exact .inl (h.setAdmission _)
      · next hopen =>
        split
        · next hrequested =>
          have hlifecycle := h.stopping hrequested
          exact absurd (.inr (by rw [hlifecycle]; decide)) hopen
        · exact .inl (h.setEnqueue fun _ hcleared => nomatch hcleared)
  | check hentered => exact .inl (h.checkAdmission _)
  | push hcleared clock => exact .inl (h.pushRecord hcleared clock)
  | @leave admission hleaving =>
      rw [leaveGuard]
      have houtside : Inv { s with enqueue := .outside } :=
        h.setEnqueue fun _ hcleared => nomatch hcleared
      have hleft : Inv { s with enqueue := .outside, lastAdmission := some admission } :=
        houtside.setAdmission _
      split
      · next hrequested =>
        refine hleft.finalize (h.joined hrequested) fun _ => ?_
        exact hsafe ⟨by rw [isLeaving, hleaving], hrequested⟩
      · exact .inl hleft
  | pulse hopen now init => exact .inl (h.workerPulse hopen none now false init)
  | drainUntil hopen deadline =>
      exact .inl ⟨h.balanced, fun _ _ _ hcalling => (nomatch hcalling),
        fun hshutdown => absurd hshutdown (Bool.eq_false_iff.mp hopen), h.stopping, h.running⟩
  | drained clock init =>
      exact .inl ⟨h.balanced, fun _ _ _ hcalling => (nomatch hcalling), fun _ => rfl, h.stopping,
        h.running⟩
  | drainPulse hdraining clock init =>
      have hopen : s.shutdownRequested = false := by
        rw [Bool.eq_false_iff]
        intro hshutdown
        cases hdraining.symm.trans (h.joined hshutdown)
      exact .inl (h.workerPulse hopen _ _ true init)
  | answer hcalling result =>
      refine .inl (h.answer hcalling (fun hdisables => hsafe ⟨?_, hdisables⟩) _ _)
      rw [isCalling, hcalling]
  | requestStop => exact .inl ⟨h.balanced, h.calling, h.joined, fun _ => rfl, h.running⟩
  | shutdown hidle =>
      rw [telemetryTransportShutdown]
      split
      · exact .inl h
      · next hlifecycle =>
        have hstopped : Inv { s with
            stopRequested := true, quiesced := true, lifecycle := .stopping
            healthState := .stopping, shutdownRequested := true } := by
          obtain ⟨a, hbalanced⟩ := h.balanced
          exact ⟨⟨a, hbalanced.requestShutdown⟩, h.calling, fun _ => hidle, fun _ => rfl, h.running⟩
        refine hstopped.finalize hidle fun houtside => ?_
        exact hsafe ⟨by rw [isIdle, hidle], hlifecycle, houtside⟩

/-! ## What the invariant grants -/

theorem Balanced.accounted (h : Balanced s.books a) (hbelow : s.BelowSaturation) :
    s.counters .admittedDetail + s.counters .admittedControl +
        (s.counters .rejectedDetail + s.counters .rejectedControl) =
      s.counters .appliedRecords + s.counters .duplicateRecords +
        s.counters .staleCheckpointRecords + s.counters .invalidRecords +
        s.counters .conflictRecords +
        (s.counters .droppedDetail + s.counters .droppedControl) + s.unresolved.length := by
  obtain ⟨tally, htally⟩ := h.tallied
  have hunresolved : s.unresolved.length = a.pending.length := by
    have heq : s.unresolved = a.pending.map (·.record) := h.unresolved
    rw [heq, List.length_map]
  have hcounters : s.counters = tally := by
    funext counter
    exact htally.tracks.eq_tally (hbelow counter)
  have hdetail : tally .droppedDetail =
      tally .rejectedDetail + a.discarded.countP (·.kind.isControl = false) := htally.dropped false
  have hcontrol : tally .droppedControl =
      tally .rejectedControl + a.discarded.countP (·.kind.isControl = true) := htally.dropped true
  have hboth : a.discarded.countP (·.kind.isControl = true) +
      a.discarded.countP (·.kind.isControl = false) = a.discarded.length := by
    rw [@List.length_eq_countP_add_countP _ (fun header => header.kind.isControl = true)]
    simp
  have hadmitted := htally.admitted
  have hanswered := htally.answered
  have htotal := htally.total
  rw [Counters.admitted] at hadmitted
  rw [Counters.answered] at hanswered
  rw [hcounters, hunresolved]
  omega

theorem Inv.losesNothing (h : Inv s) : LosesNothing s := by
  obtain ⟨a, hbalanced⟩ := h.balanced
  have hunresolved : s.unresolved = a.pending.map (·.record) := hbalanced.unresolved
  refine ⟨fun _ hbelow => hbalanced.accounted hbelow, ?_, ?_, ?_⟩
  · have hrecords : s.queue.records = a.retained.map (·.record) := hbalanced.keeps.records
    have hadmitted : s.ledger.admitted = a.gone ++ a.retained.map (·.header) :=
      hbalanced.history.admitted
    rw [hrecords, hadmitted, List.map_map]
    exact List.suffix_append _ _
  · intro drain now attempt hworker
    obtain ⟨hactive, hattempt⟩ := h.calling drain now attempt hworker
    have hfly := hbalanced.inFlight hactive
    have hlength := hbalanced.attempt_length hactive
    obtain ⟨hpos, -⟩ := hfly.attemptCount_le
    rw [attemptRecords_eq] at hattempt
    rw [← hattempt] at hlength
    have hfront : attempt = (a.pending.take s.inflight.toBatch.attemptCount).map (·.record) :=
      hattempt.trans hfly.attempt
    refine ⟨?_, ?_, ?_, ?_⟩
    · rw [← List.length_pos_iff, hlength]
      exact hpos
    · rw [hfront, hunresolved, List.map_take]
      exact List.take_prefix _ _
    · intro hisolation
      rw [hlength]
      exact if_pos hisolation
    · intro record hrecord
      rw [hfront] at hrecord
      obtain ⟨slot, hslot, rfl⟩ := List.mem_map.mp hrecord
      exact hbalanced.history.pending slot (List.mem_of_mem_take hslot)
  · intro hcompleted
    exact absurd (h.running.symm.trans hcompleted) (by decide)

theorem Completed.losesNothing (h : Completed s) : LosesNothing s := by
  refine ⟨fun hrunning => ?_, ?_, fun _ _ _ hworker => ?_, fun _ hbelow control => ?_⟩
  · exact absurd (h.completed.symm.trans hrunning) (by decide)
  · rw [h.records]
    exact List.nil_suffix
  · rw [h.worker] at hworker
    cases hworker
  · obtain ⟨tally, htracks, htail⟩ := h.tail
    rw [htracks.eq_tally (hbelow _), htracks.eq_tally (hbelow _)]
    exact htail control

theorem resetFor_balanced {s₀ : Transport Payload} {config : TransportConfig}
    (henqueue : s₀.enqueue = .outside)
    (hbatch : config.maxBatchRecords ≤ telemetryBatchMaxRecordsProposal) :
    Balanced (s₀.resetFor config).books
      { gone := [], resolved := [], pending := [], discarded := [] } where
  settings := hbatch
  keeps := Queue.keeps_initialized ..
  history :=
    { admitted := rfl
      sorted := List.Pairwise.nil
      bounded := fun _ hheader => absurd hheader List.not_mem_nil
      gone := fun _ hheader => absurd hheader List.not_mem_nil
      resolved := fun _ hslot => absurd hslot List.not_mem_nil
      pending := fun _ hslot => absurd hslot List.not_mem_nil
      offered := List.Subset.refl _
      known := fun _ hkey => absurd hkey List.not_mem_nil }
  idle _ := ⟨rfl, rfl⟩
  inFlight hactive := nomatch hactive
  cleared record hcleared := by
    have houtside : (s₀.resetFor config).books.enqueue = .outside := henqueue
    rw [houtside] at hcleared
    cases hcleared
  tallied := ⟨fun _ => 0, fun _ => rfl, rfl, rfl, fun control => by cases control <;> rfl, rfl⟩

theorem init_inv {s₀ : Transport Payload} {config : TransportConfig} {outcome : Outcome}
    (henqueue : s₀.enqueue = .outside) (hworker : s₀.worker = .idle)
    (hinit : s₀.telemetryTransportInit format config = (outcome, s))
    (haccepted : outcome = .started ∨ outcome = .flatfileDisabled) : Inv s := by
  rw [telemetryTransportInit] at hinit
  split at hinit
  · cases hinit
    simp at haccepted
  · split at hinit
    · cases hinit
      simp at haccepted
    · next hbounded =>
      have hbatch : config.maxBatchRecords ≤ telemetryBatchMaxRecordsProposal := by
        simp only [Bool.not_eq_true', Bool.not_eq_false, TransportConfig.isBounded,
          decide_eq_true_eq] at hbounded
        exact hbounded.2.2.2.2.2.2.2.2.2.2.2.1
      have hbalanced : Balanced (s₀.resetFor config).books _ := resetFor_balanced henqueue hbatch
      have hcalling : ∀ drain now attempt, s₀.worker ≠ .calling drain now attempt := by
        intro drain now attempt hcalling
        rw [hworker] at hcalling
        cases hcalling
      have hinv : ∀ t : Transport Payload, t.books = (s₀.resetFor config).books →
          t.worker = s₀.worker → Inv t := by
        intro t hbooks htworker
        have hrequested : t.shutdownRequested = false := congrArg Books.shutdownRequested hbooks
        refine ⟨⟨_, hbooks ▸ hbalanced⟩, fun drain now attempt h => ?_, fun _ => ?_, fun h => ?_,
          congrArg Books.completed hbooks⟩
        · exact absurd (htworker.symm.trans h) (hcalling drain now attempt)
        · exact htworker.trans hworker
        · exact absurd (hrequested.symm.trans h) (by decide)
      split at hinit
      · cases hinit
        simp at haccepted
      · split at hinit
        · cases hinit
          simp at haccepted
        · split at hinit
          · cases hinit
            simp at haccepted
          · split at hinit
            · cases hinit
              simp at haccepted
            · split at hinit
              · cases hinit
                exact hinv _ rfl rfl
              · cases hinit
                exact hinv _ rfl rfl

/-- In every run from an accepted start to a completed shutdown, whatever the clock, the
producer and the repository do: the counters account for every admitted record, the
repository is called with the oldest records that have no final answer and with no other,
and a completed shutdown has counted every record it was never called with. This is so
where no step disables an isolated batch of which a record was answered, or completes the
shutdown over a batch in flight with records behind it. -/
theorem loses_nothing {s₀ s : Transport Payload} {config : TransportConfig} {outcome : Outcome}
    (henqueue : s₀.enqueue = .outside) (hworker : s₀.worker = .idle)
    (hinit : s₀.telemetryTransportInit format config = (outcome, s))
    (haccepted : outcome = .started ∨ outcome = .flatfileDisabled)
    (events : List (Event Payload))
    (hsafe : Along (step format) (fun s event => s.restartAllowed = false ∧ s.Safe event) s
      events) :
    LosesNothing (run (step format) s events) := by
  have hinv : Inv s ∨ Completed s := .inl (init_inv henqueue hworker hinit haccepted)
  have hend : Inv (run (step format) s events) ∨ Completed (run (step format) s events) := by
    refine run_invariant_along (P := fun s => Inv s ∨ Completed s) ?_ events hinv hsafe
    intro s event h hok
    rcases h with h | h
    · exact h.step hok.2
    · exact absurd (hok.1.symm.trans h.completed) (by decide)
  rcases hend with h | h
  · exact h.losesNothing
  · exact h.losesNothing

/-! ## Two lost counts -/

def bareFormat : RecordFormat Unit := ⟨512, fun _ _ => true⟩

/-- Four slots, one of them for control records, and batches of two. -/
def pairs : TransportConfig :=
  { schemaVersion := 1, queueCapacity := 4, controlReserve := 1, maxBatchRecords := 2
    maxBatchBytes := 2048, flushOldestAfterUsec := 1 }

def started : Transport Unit := (telemetryTransportInit bareFormat {} pairs).2

def interval (recordSeq : Nat) : Record Unit :=
  { header :=
      { schemaVersion := 1, kind := .interval, reserved := 0
        key := { producer := { bootId := 1, processId := 1 }, recordSeq }
        occurrenceUtcUsec := 0 }
    payload := () }

def admits (recordSeq : Nat) : List (Event Unit) :=
  [.enqueue (interval recordSeq), .check, .push (some 5), .leave]

def applied (recordSeq : Nat) : ApplyBatchResult :=
  { inputCount := 1, resultCount := 1, appliedCount := 1
    firstRecordSeq := recordSeq, lastRecordSeq := recordSeq
    results := Vector.ofFn fun i =>
      if i.val = 0 then { key := (interval recordSeq).header.key } else {} }

/-- Two records, found invalid together; the first is applied, and the answer to the second
disables the transport. -/
def disabledInside : List (Event Unit) :=
  admits 1 ++ admits 2 ++
    [.pulse 100 .ready, .answer { outcome := .invalidBatch }, .pulse 101 .ready,
      .answer (applied 1), .pulse 102 .ready, .answer { outcome := .disabled }]

/-- Three records, of which two are offered and meet an unavailable repository; then the
transport is shut down. -/
def stoppedOver : List (Event Unit) :=
  admits 1 ++ admits 2 ++ admits 3 ++
    [.pulse 100 .ready, .answer { outcome := .unavailable }, .shutdown]

/-- In the first run one record is counted twice, as applied and as dropped. In the second
the third record was never offered and is not counted at all. -/
theorem counts_lost :
    (telemetryTransportInit bareFormat {} pairs).1 = .started ∧
      ¬LosesNothing (run (step bareFormat) started disabledInside) ∧
      ¬LosesNothing (run (step bareFormat) started stoppedOver) := by
  refine ⟨by decide, fun h => ?_, fun h => ?_⟩
  · exact absurd (h.accounted (by decide +kernel) (by decide +kernel)) (by decide +kernel)
  · exact absurd (h.tail (by decide +kernel) (by decide +kernel) false) (by decide +kernel)

/-- An isolated batch of two that ends well, and a shutdown with nothing in flight. -/
theorem isolated_batch_kept :
    LosesNothing (run (step bareFormat) started
      (admits 1 ++ admits 2 ++
        [.pulse 100 .ready, .answer { outcome := .invalidBatch }, .pulse 101 .ready,
          .answer (applied 1), .pulse 102 .ready, .answer (applied 2)] ++
        admits 3 ++ [.requestStop, .shutdown])) :=
  @loses_nothing Unit bareFormat {} started pairs .started rfl rfl rfl (.inl rfl) _
    (by decide +kernel)

end Transport

end Duris.Telemetry
