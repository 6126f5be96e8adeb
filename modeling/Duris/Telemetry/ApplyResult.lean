import Duris.Telemetry.RecordQueue

/-!
# What the repository answers to a batch

`src/telemetry/telemetry_repository.h` and the validation of results in
`src/telemetry/telemetry_transport.c`.

The repository is code the transport does not trust. `validateEarlyResult` and
`validateFullResult` decide which answers are taken at their word; the outcomes of the
records of a batch count only behind them. In every enumeration, `other` stands for the
values without a name.
-/

namespace Duris.Telemetry

def telemetryBatchMaxRecordsProposal : Nat := 128

def telemetryBatchMaxBytesProposal : Nat := 64 * 1024

inductive FailureClass where
  | none
  | transientConnection
  | transientTransaction
  | transientInternal
  | commitAmbiguous
  | invalidRecord
  | permanentSchema
  | permanentPermission
  | permanentRepository
  | other
  deriving DecidableEq

def FailureClass.isRetryable : FailureClass → Bool
  | .transientConnection | .transientTransaction | .transientInternal => true
  | _ => false

def FailureClass.isPermanent : FailureClass → Bool
  | .permanentSchema | .permanentPermission | .permanentRepository => true
  | _ => false

inductive ApplyOutcome where
  | applied
  | duplicateIdentical
  | checkpointOlder
  | rejectedInvalid
  | duplicateConflict
  | retryableFailure
  | commitAmbiguous
  | unavailable
  | disabled
  | quarantinedInvalid
  | permanentFailure
  | other
  deriving DecidableEq

inductive BatchOutcome where
  | committed
  | committedWithRejections
  | invalidBatch
  | retryableFailure
  | commitAmbiguous
  | unavailable
  | disabled
  | permanentFailure
  | other
  deriving DecidableEq

structure RecordApplyResult where
  key : RecordKey := {}
  outcome : ApplyOutcome := .applied
  failureClass : FailureClass := .none
  reserved : Nat × Nat := (0, 0)
  errorCode : Nat := 0
  deriving DecidableEq

structure ApplyBatchResult where
  outcome : BatchOutcome := .committed
  failureClass : FailureClass := .none
  reserved : Nat × Nat := (0, 0)
  inputCount : Nat := 0
  resultCount : Nat := 0
  appliedCount : Nat := 0
  duplicateCount : Nat := 0
  staleCheckpointCount : Nat := 0
  invalidCount : Nat := 0
  conflictCount : Nat := 0
  quarantinedCount : Nat := 0
  errorCode : Nat := 0
  firstRecordSeq : Nat := 0
  lastRecordSeq : Nat := 0
  results : Vector RecordApplyResult telemetryBatchMaxRecordsProposal :=
    Vector.replicate telemetryBatchMaxRecordsProposal {}

namespace RecordApplyResult

def reservedIsZero (item : RecordApplyResult) : Bool := item.reserved = (0, 0)

def unusedIsZero (item : RecordApplyResult) : Bool :=
  item.reservedIsZero ∧ item.key = {} ∧ item.outcome = .applied ∧ item.failureClass = .none ∧
    item.errorCode = 0

end RecordApplyResult

namespace ApplyBatchResult

/-- The results of the first `count` records. -/
def items (result : ApplyBatchResult) (count : Nat) : List RecordApplyResult :=
  result.results.toList.take count

def reservedIsZero (result : ApplyBatchResult) : Bool := result.reserved = (0, 0)

def countsAreZero (result : ApplyBatchResult) : Bool :=
  result.appliedCount = 0 ∧ result.duplicateCount = 0 ∧ result.staleCheckpointCount = 0 ∧
    result.invalidCount = 0 ∧ result.conflictCount = 0 ∧ result.quarantinedCount = 0

/-- An answer from before any record was looked at. -/
def validateEarlyResult (result : ApplyBatchResult) : Bool :=
  result.reservedIsZero ∧ result.inputCount = 0 ∧ result.resultCount = 0 ∧
    result.countsAreZero ∧ result.firstRecordSeq = 0 ∧ result.lastRecordSeq = 0 ∧
    result.results.toList.all (·.unusedIsZero)

/-- The outcome every record of a failed batch must have. -/
def expectedOutcome (result : ApplyBatchResult) : ApplyOutcome :=
  if result.outcome = .commitAmbiguous then .commitAmbiguous
  else if result.outcome = .permanentFailure then .permanentFailure
  else .retryableFailure

def outcomeIsPossible (retry : Bool) (item : RecordApplyResult) : Bool :=
  match item.outcome with
  | .applied | .duplicateIdentical | .checkpointOlder | .rejectedInvalid
  | .duplicateConflict => true
  | .quarantinedInvalid => !retry && item.failureClass = .invalidRecord
  | .retryableFailure | .commitAmbiguous | .permanentFailure => retry
  | .unavailable | .disabled | .other => false

/-- The body of the loop over the records of the batch. -/
def itemIsValid {Payload : Type} (result : ApplyBatchResult) (retry : Bool)
    (record : Record Payload) (item : RecordApplyResult) : Bool :=
  item.reservedIsZero ∧ item.key = record.header.key ∧ outcomeIsPossible retry item ∧
    (retry → item.outcome = result.expectedOutcome ∧ item.failureClass = result.failureClass)

def tally (items : List RecordApplyResult) (outcome : ApplyOutcome) : Nat :=
  items.countP (·.outcome = outcome)

/-- The end of `validate_full_result` for a failed batch. -/
def failureMatches (result : ApplyBatchResult) : Bool :=
  (result.outcome = .commitAmbiguous ∧ result.failureClass = .commitAmbiguous) ∨
    (result.outcome = .permanentFailure ∧ result.failureClass.isPermanent) ∨
    (result.outcome = .retryableFailure ∧ result.failureClass.isRetryable)

/-- The end of `validate_full_result` for a batch that was committed. -/
def countsMatch (result : ApplyBatchResult) (items : List RecordApplyResult) : Bool :=
  result.appliedCount = tally items .applied ∧
    result.duplicateCount = tally items .duplicateIdentical ∧
    result.staleCheckpointCount = tally items .checkpointOlder ∧
    result.invalidCount = tally items .rejectedInvalid + tally items .quarantinedInvalid ∧
    result.conflictCount = tally items .duplicateConflict ∧
    result.quarantinedCount = tally items .quarantinedInvalid ∧
    (if result.outcome = .committed then result.invalidCount = 0 ∧ result.conflictCount = 0
    else result.outcome = .committedWithRejections ∧
      (result.invalidCount ≠ 0 ∨ result.conflictCount ≠ 0 ∨ result.quarantinedCount ≠ 0))

/-- An answer about every record of the batch. -/
def validateFullResult {Payload : Type} (result : ApplyBatchResult)
    (records : List (Record Payload)) (retry : Bool) : Bool :=
  result.reservedIsZero ∧ result.inputCount = records.length ∧
    result.resultCount = records.length ∧
    records.head?.map (·.header.key.recordSeq) = some result.firstRecordSeq ∧
    records.getLast?.map (·.header.key.recordSeq) = some result.lastRecordSeq ∧
    (retry → result.countsAreZero) ∧
    ((records.zip (result.items records.length)).all fun (record, item) =>
      result.itemIsValid retry record item) ∧
    (result.results.toList.drop records.length).all (·.unusedIsZero) ∧
    (if retry then result.failureMatches
    else result.countsMatch (result.items records.length))

end ApplyBatchResult

end Duris.Telemetry
