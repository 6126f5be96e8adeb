import Duris.Lib.Reader
import Mathlib.Logic.Function.Basic

/-!
# Flat-file authority transactions

`src/flatfile/flatfile_authority_transaction.{h,c}` over the file operations of
`src/flatfile/flatfile_store.c`: a transaction writes its operations to a redo log,
applies them one by one and removes the log; recovery replays a log it finds.

`flatfile_atomic_write` and `flatfile_atomic_remove` are atomic steps. How one ends
is the environment's choice: it is done, or it answers false, or the process dies
there, the last two with or without the effect (a rename that went through is not
undone when the directory cannot be synced). The disk is the six authority
directories; the log lies among the domain files, under a name that
`safe_filename` keeps operations away from. `SHA256` is a parameter.
-/

namespace Duris.Flatfile

/-- The directories below the root, as `operation_directory` names them. -/
inductive Directory where
  | domains | players | identities | accounts | metadata | playerDeaths
  deriving DecidableEq

/-- `flatfile_authority_store`, at its underlying width. -/
abbrev AuthorityStore := BitVec 8

/-- `flatfile_authority_operation_kind`, at its underlying width. -/
abbrev OperationKind := BitVec 8

def OperationKind.write : OperationKind := 1
def OperationKind.remove : OperationKind := 2

structure AuthorityOperation where
  store : AuthorityStore
  kind : OperationKind
  filename : Bytes
  bytes : Bytes
  deriving DecidableEq

inductive TransactionResult where
  | ok | notFound | invalid | ioError
  deriving DecidableEq

def transactionMagic : Bytes := [68, 85, 82, 65, 85, 84, 72, 0]
def transactionVersion : BitVec 32 := 2
def transactionLegacyVersion : BitVec 32 := 1
def transactionMaximumImages : Nat := 32
def transactionMaximumFilename : Nat := 192
def transactionMaximumBytes : Nat := 256 * 1024 * 1024

/-- `".critical-authority-transaction"`. -/
def transactionFilename : Bytes :=
  [46, 99, 114, 105, 116, 105, 99, 97, 108, 45, 97, 117, 116, 104, 111, 114, 105, 116, 121, 45,
   116, 114, 97, 110, 115, 97, 99, 116, 105, 111, 110]

/-- `".critical-authority.lock"`. -/
def lockFilename : Bytes :=
  [46, 99, 114, 105, 116, 105, 99, 97, 108, 45, 97, 117, 116, 104, 111, 114, 105, 116, 121, 46,
   108, 111, 99, 107]

/-- `operation_directory`; the empty answer is `none`. -/
def operationDirectory (store : AuthorityStore) : Option Directory :=
  if store = 1 then some .domains
  else if store = 2 then some .players
  else if store = 3 then some .identities
  else if store = 4 then some .accounts
  else if store = 5 then some .metadata
  else if store = 6 then some .playerDeaths
  else none

def safeCharacter (character : UInt8) : Bool :=
  (97 ≤ character && character ≤ 122) || (65 ≤ character && character ≤ 90) ||
    (48 ≤ character && character ≤ 57) || character == 46 || character == 95 || character == 45

def safeFilename (filename : Bytes) : Bool :=
  filename != [] && decide (filename.length ≤ transactionMaximumFilename) && filename != [46] &&
    filename != [46, 46] && filename.all safeCharacter && filename != transactionFilename &&
    filename != lockFilename

def validOperation (operation : AuthorityOperation) : Bool :=
  (operationDirectory operation.store).isSome && safeFilename operation.filename &&
    (if operation.kind = OperationKind.write then
      operation.bytes != [] && decide (operation.bytes.length ≤ transactionMaximumBytes)
    else if operation.kind = OperationKind.remove then operation.bytes == []
    else false)

def sameTarget (left right : AuthorityOperation) : Bool :=
  left.store == right.store && left.filename == right.filename

/-! ## The log -/

def encodeOperation (operation : AuthorityOperation) : Bytes :=
  appendLe operation.store ++ appendLe operation.kind ++
    appendLe (BitVec.ofNat 16 operation.filename.length) ++ operation.filename ++
    appendLe (BitVec.ofNat 32 operation.bytes.length) ++ operation.bytes

/-- The checks of the encoding loop: each operation valid, and no earlier one on
the same file. -/
def encodable : List AuthorityOperation → List AuthorityOperation → Bool
  | _, [] => true
  | prior, operation :: rest =>
      validOperation operation && !prior.any (sameTarget · operation) &&
        encodable (prior ++ [operation]) rest

def encodePayload (operations : List AuthorityOperation) : Bytes :=
  appendLe (BitVec.ofNat 16 operations.length) ++ operations.flatMap encodeOperation

section

variable (sha256 : Bytes → Vector UInt8 32)

def encodeFile (payload : Bytes) : Bytes :=
  transactionMagic ++ appendLe transactionVersion ++ appendLe (BitVec.ofNat 32 payload.length) ++
    (sha256 payload).toList ++ payload

def encodeTransaction (operations : List AuthorityOperation) : Option Bytes :=
  if operations = [] ∨ transactionMaximumImages < operations.length ∨ !encodable [] operations then
    none
  else
    let payload := encodePayload operations
    if transactionMaximumBytes < payload.length ∨
        transactionMaximumBytes < (encodeFile sha256 payload).length then none
    else some (encodeFile sha256 payload)

/-- The one answer `decode_transaction` refuses with. Running out of memory there
ends the call as a failed read does. -/
inductive DecodeRefusal where
  | invalid
  deriving DecidableEq

open Reader

/-- One operation of the log. A legacy log has only writes of domain files. -/
def decodeOperation (version : BitVec 32) (prior : List AuthorityOperation) :
    Reader DecodeRefusal AuthorityOperation := do
  let (store, kind) ← (if version = transactionVersion then do
      let store ← field .invalid 8
      let kind ← field .invalid 8
      return (store, kind)
    else return (1, OperationKind.write) : Reader DecodeRefusal (BitVec 8 × BitVec 8))
  let filenameSize ← field .invalid 16
  require (filenameSize ≠ 0 ∧ filenameSize.toNat ≤ transactionMaximumFilename) .invalid
  let filename ← raw .invalid filenameSize.toNat
  let imageSize ← field .invalid 32
  require (imageSize.toNat ≤ transactionMaximumBytes) .invalid
  let bytes ← raw .invalid imageSize.toNat
  let operation : AuthorityOperation := ⟨store, kind, filename.1, bytes.1⟩
  require (prior.any (sameTarget · operation) = false) .invalid
  require (validOperation operation = true) .invalid
  return operation

def decodeOperations (version : BitVec 32) :
    Nat → List AuthorityOperation → Reader DecodeRefusal (List AuthorityOperation)
  | 0, prior => pure prior
  | n + 1, prior => do
      let operation ← decodeOperation version prior
      decodeOperations version n (prior ++ [operation])

def decodePayload (version : BitVec 32) : Reader DecodeRefusal (List AuthorityOperation) := do
  let count ← field .invalid 16
  require (count ≠ 0 ∧ count.toNat ≤ transactionMaximumImages) .invalid
  let operations ← decodeOperations version count.toNat []
  let left ← remaining
  require (left = 0) .invalid
  return operations

/-- `decode_transaction`: 48 bytes of magic, version, size and digest, then the
payload. -/
def decodeTransaction : Reader DecodeRefusal (List AuthorityOperation) := do
  let magic ← raw .invalid 8
  require (magic.1 = transactionMagic) .invalid
  let version ← field .invalid 32
  let payloadSize ← field .invalid 32
  let digest ← raw .invalid 32
  let payload ← takeRest
  require (version = transactionVersion ∨ version = transactionLegacyVersion) .invalid
  require (payloadSize.toNat = payload.length) .invalid
  require (digest.1 = (sha256 payload).toList) .invalid
  match decodePayload version payload with
  | .ok (operations, _) => return operations
  | .error e => fun _ => .error e

end

/-! ## The disk -/

/-- What each authority directory holds under each name. -/
abbrev Disk := Directory × Bytes → Option Bytes

inductive StepOutcome where
  | done
  | failed (effect : Bool)
  | crashed (effect : Bool)
  deriving DecidableEq

inductive StepAnswer where
  | ok | failed | crashed
  deriving DecidableEq

def validName (name : Bytes) : Bool :=
  name != [] && name != [46] && name != [46, 46] && !name.contains 47

/-- A step with its effect, as the environment lets it end. -/
def concludeStep (before after : Disk) : StepOutcome → StepAnswer × Disk
  | .done => (.ok, after)
  | .failed effect => (.failed, if effect then after else before)
  | .crashed effect => (.crashed, if effect then after else before)

def flatfileAtomicWrite (disk : Disk) (directory : Directory) (name bytes : Bytes)
    (outcome : StepOutcome) : StepAnswer × Disk :=
  if !validName name then (.failed, disk)
  else concludeStep disk (Function.update disk (directory, name) (some bytes)) outcome

def flatfileAtomicRemove (disk : Disk) (directory : Directory) (name : Bytes) (missingOk : Bool)
    (outcome : StepOutcome) : StepAnswer × Disk :=
  if !validName name then (.failed, disk)
  else if outcome = .done ∧ disk (directory, name) = none then
    (if missingOk then .ok else .failed, disk)
  else concludeStep disk (Function.update disk (directory, name) none) outcome

inductive ReadOutcome where
  | done
  | failed (result : TransactionResult)
  | crashed
  deriving DecidableEq

/-! ## Recovery and commit -/

def logKey : Directory × Bytes := (.domains, transactionFilename)

def applyOperation (disk : Disk) (operation : AuthorityOperation) (outcome : StepOutcome) :
    StepAnswer × Disk :=
  match operationDirectory operation.store with
  | none => (.failed, disk)
  | some directory =>
      if operation.kind = OperationKind.write then
        flatfileAtomicWrite disk directory operation.filename operation.bytes outcome
      else if operation.kind = OperationKind.remove then
        flatfileAtomicRemove disk directory operation.filename true outcome
      else (.failed, disk)

/-- The loop over the operations, left at the first that does not succeed. -/
def applyOperations (disk : Disk) : List AuthorityOperation → (Nat → StepOutcome) →
    StepAnswer × Disk
  | [], _ => (.ok, disk)
  | operation :: rest, outcomes =>
      match applyOperation disk operation (outcomes 0) with
      | (.ok, disk) => applyOperations disk rest fun n => outcomes (n + 1)
      | (answer, disk) => (answer, disk)

/-- The answer of a call; `none` when the process died in it. -/
def resultOf : StepAnswer → Option TransactionResult
  | .ok => some .ok
  | .failed => some .ioError
  | .crashed => none

/-- What recovery and commit share: apply the operations, then remove the log. The
outcomes are those of the operations and, last, of the removal. -/
def replay (disk : Disk) (operations : List AuthorityOperation) (outcomes : Nat → StepOutcome) :
    Option TransactionResult × Disk :=
  match applyOperations disk operations outcomes with
  | (.ok, disk) =>
      let (answer, disk) := flatfileAtomicRemove disk .domains transactionFilename false
        (outcomes operations.length)
      (resultOf answer, disk)
  | (answer, disk) => (resultOf answer, disk)

variable (sha256 : Bytes → Vector UInt8 32)

/-- `flatfile_authority_transaction_recover`, for the owner of the lock. -/
def recover (disk : Disk) (read : ReadOutcome) (outcomes : Nat → StepOutcome) :
    Option TransactionResult × Disk :=
  match read with
  | .crashed => (none, disk)
  | .failed result => (some (if result = .invalid then .invalid else .ioError), disk)
  | .done =>
      match disk logKey with
      | none => (some .ok, disk)
      | some bytes =>
          if transactionMaximumBytes < bytes.length then (some .invalid, disk)
          else
            match decodeTransaction sha256 bytes with
            | .error .invalid => (some .invalid, disk)
            | .ok (operations, _) => replay disk operations outcomes

/-- `flatfile_authority_transaction_commit_operations`, for the owner of the lock. -/
def commitOperations (disk : Disk) (operations : List AuthorityOperation) (logged : StepOutcome)
    (outcomes : Nat → StepOutcome) : Option TransactionResult × Disk :=
  match encodeTransaction sha256 operations with
  | none => (some .invalid, disk)
  | some bytes =>
      match flatfileAtomicWrite disk .domains transactionFilename bytes logged with
      | (.ok, disk) => replay disk operations outcomes
      | (answer, disk) => (resultOf answer, disk)

/-! ## Sessions -/

/-- The disk, who holds the lock, and whether a recovery answered ok under it and
every commit since. -/
structure Session where
  disk : Disk
  locked : Bool := false
  recovered : Bool := false

inductive Event where
  | acquire
  | release
  | recover (read : ReadOutcome) (outcomes : Nat → StepOutcome)
  | commit (operations : List AuthorityOperation) (logged : StepOutcome)
      (outcomes : Nat → StepOutcome)

/-- The state a call leaves: a process that died holds no lock. -/
def Session.after (answer : Option TransactionResult × Disk) : Session :=
  match answer.1 with
  | none => { disk := answer.2 }
  | some result => { disk := answer.2, locked := true, recovered := decide (result = .ok) }

def step (s : Session) : Event → Session
  | .acquire => if s.locked then s else { disk := s.disk, locked := true }
  | .release => { disk := s.disk }
  | .recover read outcomes =>
      if s.locked then Session.after (recover sha256 s.disk read outcomes) else s
  | .commit operations logged outcomes =>
      if s.locked then Session.after (commitOperations sha256 s.disk operations logged outcomes)
      else s

end Duris.Flatfile
