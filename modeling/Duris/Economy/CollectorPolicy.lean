import Mathlib.Data.BitVec
import Duris.Lib.Run

/-!
# Collector policy

`src/economy/collector_policy.{h,c}`: the listing the collector keeps for one
item left behind at a death, from enrolment to sale, expiry or cancellation. The
policy only decides; whoever calls it commits the record together with custody
and money.

Every integer is the fixed-width one of the source. An operation takes the record
it is given a pointer to and returns its outcome with the record as it leaves it,
so that "unchanged" is a statement and not a convention. A null pointer, which
every operation answers with `invalid`, has no counterpart.
-/

namespace Duris.Economy.Collector

def recordVersion : BitVec 16 := 1

def deathOperationHexSize : Nat := 32

/-- `enum class state`. -/
inductive State where
  | candidate | collected | available | purchased | cancelled | expired
  deriving DecidableEq

/-- `enum class reason`. -/
inductive Reason where
  | none | claimed | destroyed | quarantined | excluded | characterDeleted | seasonReset
  | holdingElapsed
  deriving DecidableEq

structure Rules where
  enabled : Bool := false
  collectionDelay : BitVec 64 := 12 * 60 * 60
  saleDelay : BitVec 64 := 24 * 60 * 60
  holdingDuration : BitVec 64 := 7 * 24 * 60 * 60
  pricePercent : BitVec 64 := 200
  minimumValue : BitVec 64 := 100
  deriving DecidableEq

/-- `struct record`; `deathOperation` is the zero-terminated hex text. -/
structure Record where
  version : BitVec 16 := recordVersion
  listing : BitVec 64 := 0
  deathOperation : Vector UInt8 (deathOperationHexSize + 1) := Vector.replicate _ 0
  beneficiary : BitVec 32 := 0
  uid : BitVec 64 := 0
  deathTime : BitVec 64 := 0
  collectAt : BitVec 64 := 0
  saleAt : BitVec 64 := 0
  availableAt : BitVec 64 := 0
  expiresAt : BitVec 64 := 0
  holdingPaused : Bool := false
  pausedAt : BitVec 64 := 0
  revision : BitVec 64 := 0
  itemRevision : BitVec 64 := 0
  priceValue : BitVec 64 := 0
  policy : Rules := {}
  status : State := .candidate
  closedReason : Reason := .none
  deriving DecidableEq

inductive Outcome where
  | applied | notDue | conflict | invalid | overflow | forbidden | insufficientFunds | capacity
  deriving DecidableEq

/-- `std::numeric_limits<uint64_t>::max()`. -/
def maximum : BitVec 64 := BitVec.allOnes 64

/-- `add`: the sum, unless it would not fit. -/
def add (left right : BitVec 64) : Option (BitVec 64) :=
  if maximum - left < right then none else some (left + right)

/-! ## Validity -/

def hexadecimal (value : UInt8) : Bool :=
  ('0'.toUInt8 ≤ value && value ≤ '9'.toUInt8) || ('a'.toUInt8 ≤ value && value ≤ 'f'.toUInt8)

/-- `valid_death_operation` of a string view. -/
def validDeathOperation (operation : List UInt8) : Bool :=
  operation.length == deathOperationHexSize && operation.all hexadecimal &&
    operation.any (· != '0'.toUInt8)

/-- `valid_death_operation` of the array in a record. -/
def validDeathOperationId (operation : Vector UInt8 (deathOperationHexSize + 1)) : Bool :=
  operation[deathOperationHexSize] == 0 &&
    validDeathOperation (operation.toList.take deathOperationHexSize)

def cancellationReason : Reason → Bool
  | .claimed | .destroyed | .quarantined | .excluded | .characterDeleted | .seasonReset => true
  | .none | .holdingElapsed => false

def validReason (why : Reason) : Bool :=
  why == .none || cancellationReason why || why == .holdingElapsed

def validRules (policy : Rules) : Bool :=
  policy.collectionDelay != 0 && decide (policy.collectionDelay ≤ policy.saleDelay) &&
    policy.holdingDuration != 0 && policy.pricePercent != 0 && policy.minimumValue != 0

def terminal : State → Bool
  | .purchased | .cancelled | .expired => true
  | .candidate | .collected | .available => false

/-- The checks `valid_record` makes in every state. The range check on the status
is the type. -/
def validHeader (entry : Record) : Bool :=
  entry.version == recordVersion && entry.listing != 0 && entry.beneficiary != 0 &&
    entry.uid != 0 && entry.itemRevision != 0 && entry.revision != 0 && entry.policy.enabled &&
    validRules entry.policy && validDeathOperationId entry.deathOperation &&
    add entry.deathTime entry.policy.collectionDelay == some entry.collectAt &&
    add entry.deathTime entry.policy.saleDelay == some entry.saleAt &&
    validReason entry.closedReason &&
    (entry.priceValue == 0 || decide (entry.policy.minimumValue ≤ entry.priceValue))

def availabilityValid (entry : Record) : Bool :=
  entry.availableAt != 0 && entry.priceValue != 0 && decide (entry.saleAt ≤ entry.availableAt) &&
    decide (entry.availableAt ≤ entry.expiresAt) &&
    decide (entry.policy.holdingDuration ≤ entry.expiresAt - entry.availableAt) &&
    (if entry.holdingPaused then decide (entry.availableAt ≤ entry.pausedAt)
      else entry.pausedAt == 0)

def beforeAvailability (entry : Record) : Bool :=
  entry.availableAt == 0 && entry.expiresAt == 0 && !entry.holdingPaused && entry.pausedAt == 0

/-- The `switch` of `valid_record`. -/
def validStatus (entry : Record) : Bool :=
  match entry.status with
  | .candidate =>
      entry.priceValue == 0 && beforeAvailability entry && entry.closedReason == .none
  | .collected =>
      entry.priceValue != 0 && beforeAvailability entry && entry.closedReason == .none
  | .available => availabilityValid entry && entry.closedReason == .none
  | .purchased =>
      availabilityValid entry && !entry.holdingPaused && entry.closedReason == .none
  | .cancelled =>
      if !cancellationReason entry.closedReason then false
      else if entry.closedReason = .claimed then
        entry.priceValue == 0 && beforeAvailability entry
      else if entry.priceValue ≠ 0 then
        if entry.availableAt ≠ 0 then availabilityValid entry else beforeAvailability entry
      else beforeAvailability entry
  | .expired =>
      availabilityValid entry && !entry.holdingPaused && entry.closedReason == .holdingElapsed

def validRecord (entry : Record) : Bool := validHeader entry && validStatus entry

/-- `check`: what every operation asks first. -/
def check (entry : Record) (expected : BitVec 64) (required : State) : Outcome :=
  if !validRecord entry then .invalid
  else if entry.revision ≠ expected ∨ entry.status ≠ required then .conflict
  else if entry.revision = maximum then .overflow
  else .applied

/-! ## The operations -/

/-- `price`: divide before multiplying, then round fractional copper upward. -/
def price (baseValue : BitVec 64) (policy : Rules) : Except Outcome (BitVec 64) :=
  if !validRules policy then .error .invalid
  else
    let base := if 0 < baseValue.toInt then baseValue else 0
    let whole := policy.pricePercent / 100
    let remainder := policy.pricePercent % 100
    if whole ≠ 0 ∧ maximum / whole < base then .error .overflow
    else
      let fractional := (base / 100) * remainder + ((base % 100) * remainder + 99) / 100
      match add (base * whole) fractional with
      | none => .error .overflow
      | some result => .ok (if result < policy.minimumValue then policy.minimumValue else result)

/-- `enroll`: the outcome and, when applied, the record it stores. -/
def enroll (listing : BitVec 64) (deathOperation : List UInt8) (beneficiary : BitVec 32)
    (uid itemRevision deathTime : BitVec 64) (policy : Rules) : Except Outcome Record :=
  if listing = 0 ∨ !validDeathOperation deathOperation ∨ beneficiary = 0 ∨ uid = 0 ∨
      itemRevision = 0 ∨ !policy.enabled ∨ !validRules policy then
    .error .invalid
  else
    match add deathTime policy.collectionDelay, add deathTime policy.saleDelay with
    | some collectAt, some saleAt =>
        .ok {
          collectAt, saleAt, listing, beneficiary, uid, itemRevision, deathTime, policy
          deathOperation := Vector.ofFn fun index => deathOperation.getD index 0
          revision := 1 }
    | _, _ => .error .overflow

def cancel (entry : Record) (expectedRevision : BitVec 64) (why : Reason) : Outcome × Record :=
  let checked := check entry expectedRevision entry.status
  let held := entry.status = .collected ∨ entry.status = .available
  if !cancellationReason why then (.invalid, entry)
  else if checked ≠ .applied then (checked, entry)
  else if terminal entry.status ∨ (why = .claimed ∧ entry.status ≠ .candidate) then
    (.conflict, entry)
  else if held ∧ entry.itemRevision = maximum then (.overflow, entry)
  else
    (.applied, { entry with
      status := .cancelled
      closedReason := why
      holdingPaused := false
      pausedAt := 0
      itemRevision := if held then entry.itemRevision + 1 else entry.itemRevision
      revision := entry.revision + 1 })

def collect (entry : Record) (expectedRevision expectedItemRevision currentItemRevision : BitVec 64)
    (activeUnclaimed : Bool) (currentBaseValue now : BitVec 64) : Outcome × Record :=
  let checked := check entry expectedRevision .candidate
  if checked ≠ .applied then (checked, entry)
  else if now < entry.collectAt then (.notDue, entry)
  else if !activeUnclaimed ∨ currentItemRevision = 0 ∨
      expectedItemRevision ≠ currentItemRevision ∨ currentItemRevision < entry.itemRevision then
    (.conflict, entry)
  else if currentItemRevision = maximum then (.overflow, entry)
  else
    match price currentBaseValue entry.policy with
    | .error priced => (priced, entry)
    | .ok gold =>
        (.applied, { entry with
          priceValue := gold
          itemRevision := currentItemRevision + 1
          status := .collected
          revision := entry.revision + 1 })

def activate (entry : Record) (expectedRevision now : BitVec 64) : Outcome × Record :=
  let checked := check entry expectedRevision .collected
  if checked ≠ .applied then (checked, entry)
  else if now < entry.saleAt then (.notDue, entry)
  else
    match add now entry.policy.holdingDuration with
    | none => (.overflow, entry)
    | some expiry =>
        (.applied, { entry with
          availableAt := now
          expiresAt := expiry
          status := .available
          revision := entry.revision + 1 })

def purchase (entry : Record) (expectedRevision : BitVec 64) (actor : BitVec 32)
    (carriedValue : BitVec 64) (hasCapacity : Bool) (now : BitVec 64) : Outcome × Record :=
  let checked := check entry expectedRevision .available
  if checked ≠ .applied then (checked, entry)
  else if actor = 0 ∨ actor ≠ entry.beneficiary then (.forbidden, entry)
  else if entry.holdingPaused ∨ now < entry.availableAt ∨ entry.expiresAt ≤ now then
    (.conflict, entry)
  else if !hasCapacity then (.capacity, entry)
  else if carriedValue < entry.priceValue then (.insufficientFunds, entry)
  else if entry.itemRevision = maximum then (.overflow, entry)
  else
    (.applied, { entry with
      status := .purchased
      itemRevision := entry.itemRevision + 1
      revision := entry.revision + 1 })

def expire (entry : Record) (expectedRevision now : BitVec 64) : Outcome × Record :=
  let checked := check entry expectedRevision .available
  if checked ≠ .applied then (checked, entry)
  else if entry.holdingPaused ∨ now < entry.expiresAt then (.notDue, entry)
  else if entry.itemRevision = maximum then (.overflow, entry)
  else
    (.applied, { entry with
      status := .expired
      closedReason := .holdingElapsed
      itemRevision := entry.itemRevision + 1
      revision := entry.revision + 1 })

def pause (entry : Record) (expectedRevision now : BitVec 64) : Outcome × Record :=
  let checked := check entry expectedRevision .available
  if checked ≠ .applied then (checked, entry)
  else if entry.holdingPaused ∨ now < entry.availableAt ∨ entry.expiresAt ≤ now then
    (.conflict, entry)
  else
    (.applied, { entry with
      holdingPaused := true
      pausedAt := now
      revision := entry.revision + 1 })

def resume (entry : Record) (expectedRevision now : BitVec 64) : Outcome × Record :=
  let checked := check entry expectedRevision .available
  if checked ≠ .applied then (checked, entry)
  else if !entry.holdingPaused ∨ now < entry.pausedAt then (.conflict, entry)
  else
    match add entry.expiresAt (now - entry.pausedAt) with
    | none => (.overflow, entry)
    | some expiry =>
        (.applied, { entry with
          expiresAt := expiry
          holdingPaused := false
          pausedAt := 0
          revision := entry.revision + 1 })

/-! ## Runs -/

inductive Call where
  | collect (expectedRevision expectedItemRevision currentItemRevision : BitVec 64)
      (activeUnclaimed : Bool) (currentBaseValue now : BitVec 64)
  | activate (expectedRevision now : BitVec 64)
  | pause (expectedRevision now : BitVec 64)
  | resume (expectedRevision now : BitVec 64)
  | purchase (expectedRevision : BitVec 64) (actor : BitVec 32) (carriedValue : BitVec 64)
      (hasCapacity : Bool) (now : BitVec 64)
  | expire (expectedRevision now : BitVec 64)
  | cancel (expectedRevision : BitVec 64) (why : Reason)

def perform (entry : Record) : Call → Outcome × Record
  | .collect expected expectedItem currentItem active base now =>
      collect entry expected expectedItem currentItem active base now
  | .activate expected now => activate entry expected now
  | .pause expected now => pause entry expected now
  | .resume expected now => resume entry expected now
  | .purchase expected actor carried room now => purchase entry expected actor carried room now
  | .expire expected now => expire entry expected now
  | .cancel expected why => cancel entry expected why

def advance (entry : Record) (call : Call) : Record := (perform entry call).2

/-- Whether a call is an applied `purchase` or `expire`. -/
def closesSale (entry : Record) (call : Call) : Bool :=
  decide ((perform entry call).1 = .applied) &&
    match call with
    | .purchase .. | .expire .. => true
    | _ => false

/-- How long the pause lasted that a call completes: an applied `resume` ends the
pause that began at `paused_at`. -/
def completedPause (entry : Record) : Call → Nat
  | .resume expected now =>
      if (resume entry expected now).1 = .applied then now.toNat - entry.pausedAt.toNat else 0
  | _ => 0

end Duris.Economy.Collector
