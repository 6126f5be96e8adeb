import Duris.Flatfile.AuthorityTransaction
import Duris.Lib.Redo
import Duris.Lib.Run
import Duris.Lib.Sha256

/-!
# Authority transactions are atomic

A transaction is a list of writes to distinct files, none of them the log, so the
log is a redo log in the sense of `Redo`. What is on the disk while a transaction
is in doubt is one of three things: no log and the stores as before, the log and
the stores somewhere between, or no log and the stores as the transaction wants
them. Recovery, however often it fails or dies, moves among these and answers ok
only from the outer two; that the log it finds decodes to the operations that were
encoded is the round trip of the format.
-/

namespace Duris.Flatfile

open Reader

/-! ## The log decodes to what was encoded -/

variable {operation : AuthorityOperation} {sha256 : Bytes → Vector UInt8 32}
  {operations : List AuthorityOperation} {bytes : Bytes}

theorem validOperation_parts (h : validOperation operation = true) :
    (operationDirectory operation.store).isSome = true ∧
      safeFilename operation.filename = true ∧
      operation.bytes.length ≤ transactionMaximumBytes ∧
      (operation.kind = OperationKind.write ∨
        operation.kind = OperationKind.remove ∧ operation.bytes = []) := by
  rw [validOperation, Bool.and_eq_true, Bool.and_eq_true] at h
  obtain ⟨⟨hstore, hname⟩, hkind⟩ := h
  refine ⟨hstore, hname, ?_⟩
  split at hkind
  · next hwrite =>
      simp only [Bool.and_eq_true, decide_eq_true_eq] at hkind
      exact ⟨hkind.2, .inl hwrite⟩
  · split at hkind
    · next hremove =>
        have hempty : operation.bytes = [] := by simpa using hkind
        exact ⟨by simp [hempty], .inr ⟨hremove, hempty⟩⟩
    · cases hkind

theorem safeFilename_parts {filename : Bytes} (h : safeFilename filename = true) :
    filename ≠ [] ∧ filename.length ≤ transactionMaximumFilename ∧ validName filename = true ∧
      filename ≠ transactionFilename := by
  simp only [safeFilename, Bool.and_eq_true, bne_iff_ne, decide_eq_true_eq, List.all_eq_true] at h
  obtain ⟨⟨⟨⟨⟨⟨hne, hsize⟩, hdot⟩, hdots⟩, hchars⟩, hlog⟩, -⟩ := h
  refine ⟨hne, hsize, ?_, hlog⟩
  have hslash : filename.contains 47 = false := by
    rw [List.contains_eq_mem, decide_eq_false_iff_not]
    intro hmem
    exact absurd (hchars 47 hmem) (by decide)
  simp only [validName, Bool.and_eq_true, bne_iff_ne, hslash, Bool.not_false, and_true]
  exact ⟨⟨hne, hdot⟩, hdots⟩

theorem decodeOperation_encode {prior : List AuthorityOperation}
    (hvalid : validOperation operation = true) (hfresh : prior.any (sameTarget · operation) = false)
    (rest : Bytes) :
    decodeOperation transactionVersion prior (encodeOperation operation ++ rest) =
      .ok (operation, rest) := by
  obtain ⟨-, hsafe, hbytes, -⟩ := validOperation_parts hvalid
  obtain ⟨hne, hname, -, -⟩ := safeFilename_parts hsafe
  have hnameSize : (BitVec.ofNat 16 operation.filename.length).toNat =
      operation.filename.length := toNat_ofNat_of_le hname (by decide)
  have himageSize : (BitVec.ofNat 32 operation.bytes.length).toNat = operation.bytes.length :=
    toNat_ofNat_of_le hbytes (by decide)
  have hnonzero : BitVec.ofNat 16 operation.filename.length ≠ 0 := by
    intro hzero
    rw [hzero] at hnameSize
    exact hne (List.length_eq_zero_iff.mp hnameSize.symm)
  simp only [decodeOperation, if_true, bind_eq_ok, pure_eq_ok, require_eq_ok, raw_eq_ok,
    field_eq_ok, encodeOperation, List.append_assoc]
  refine ⟨(operation.store, operation.kind), _, ⟨operation.store, _, rfl, operation.kind, _, rfl,
    rfl, rfl⟩, _, _, rfl, (), _, ⟨⟨hnonzero, by rw [hnameSize]; exact hname⟩, rfl⟩,
    ⟨operation.filename, hnameSize.symm⟩, _, rfl, _, _, rfl, (), _,
    ⟨by rw [himageSize]; exact hbytes, rfl⟩, ⟨operation.bytes, himageSize.symm⟩, _, rfl, (), _,
    ⟨hfresh, rfl⟩, (), _, ⟨hvalid, rfl⟩, rfl, rfl⟩

theorem decodeOperations_encode (operations : List AuthorityOperation) :
    ∀ {prior : List AuthorityOperation}, encodable prior operations = true → ∀ rest : Bytes,
      decodeOperations transactionVersion operations.length prior
        (operations.flatMap encodeOperation ++ rest) = .ok (prior ++ operations, rest) := by
  induction operations with
  | nil =>
      intro prior _ rest
      rw [List.append_nil]
      rfl
  | cons operation operations ih =>
      intro prior h rest
      simp only [encodable, Bool.and_eq_true, Bool.not_eq_true'] at h
      obtain ⟨⟨hvalid, hfresh⟩, hrest⟩ := h
      rw [List.length_cons, decodeOperations, bind_eq_ok, List.flatMap_cons, List.append_assoc]
      refine ⟨operation, _, decodeOperation_encode hvalid hfresh _, ?_⟩
      rw [ih hrest rest, List.append_assoc, List.singleton_append]

theorem encodeTransaction_eq_some (h : encodeTransaction sha256 operations = some bytes) :
    encodable [] operations = true ∧ operations ≠ [] ∧
      operations.length ≤ transactionMaximumImages ∧
      (encodePayload operations).length ≤ transactionMaximumBytes ∧
      bytes.length ≤ transactionMaximumBytes ∧
      bytes = encodeFile sha256 (encodePayload operations) := by
  rw [encodeTransaction] at h
  split at h
  · simp at h
  · next hshape =>
      simp only [not_or, Bool.not_eq_true', Bool.not_eq_false, Nat.not_lt] at hshape
      dsimp only at h
      split at h
      · simp at h
      · next hsize =>
          rw [not_or, Nat.not_lt, Nat.not_lt] at hsize
          cases h
          exact ⟨hshape.2.2, hshape.1, hshape.2.1, hsize.1, hsize.2, rfl⟩

theorem decodeTransaction_encode (h : encodeTransaction sha256 operations = some bytes) :
    decodeTransaction sha256 bytes = .ok (operations, []) := by
  obtain ⟨hencodable, hne, hcount, hpayload, -, rfl⟩ := encodeTransaction_eq_some h
  have hcountSize : (BitVec.ofNat 16 operations.length).toNat = operations.length :=
    toNat_ofNat_of_le hcount (by decide)
  have hpayloadSize : (BitVec.ofNat 32 (encodePayload operations).length).toNat =
      (encodePayload operations).length := toNat_ofNat_of_le hpayload (by decide)
  have hnonzero : BitVec.ofNat 16 operations.length ≠ 0 := by
    intro hzero
    rw [hzero] at hcountSize
    exact hne (List.length_eq_zero_iff.mp hcountSize.symm)
  have hdecoded : decodePayload transactionVersion (encodePayload operations) =
      .ok (operations, []) := by
    have hloop := decodeOperations_encode operations hencodable []
    rw [List.append_nil, List.nil_append] at hloop
    simp only [decodePayload, bind_eq_ok, pure_eq_ok, require_eq_ok, remaining_eq_ok, field_eq_ok]
    refine ⟨_, _, rfl, (), _, ⟨⟨hnonzero, by rw [hcountSize]; exact hcount⟩, rfl⟩, operations, [],
      ?_, _, _, ⟨rfl, rfl⟩, (), _, ⟨rfl, rfl⟩, rfl, rfl⟩
    rw [hcountSize]
    exact hloop
  simp only [decodeTransaction, bind_eq_ok, require_eq_ok, raw_eq_ok, takeRest_eq_ok, field_eq_ok,
    encodeFile, List.append_assoc]
  refine ⟨⟨transactionMagic, rfl⟩, _, rfl, (), _, ⟨rfl, rfl⟩, _, _, rfl, _, _, rfl,
    ⟨(sha256 (encodePayload operations)).toList, by simp⟩, _, rfl, encodePayload operations, [],
    ⟨rfl, rfl⟩, (), _, ⟨.inl rfl, rfl⟩, (), _, ⟨hpayloadSize, rfl⟩, (), _, ⟨rfl, rfl⟩, ?_⟩
  rw [hdecoded]
  rfl

/-! ## A log that decodes is a list of operations that could be encoded -/

theorem decodeOperation_eq_ok {version : BitVec 32} {prior : List AuthorityOperation} {rest : Bytes}
    (h : decodeOperation version prior bytes = .ok (operation, rest)) :
    validOperation operation = true ∧ prior.any (sameTarget · operation) = false := by
  simp only [decodeOperation, bind_eq_ok, pure_eq_ok, require_eq_ok] at h
  obtain ⟨_, _, -, _, _, -, _, _, -, _, _, -, _, _, -, _, _, -, _, _, -, _, _, ⟨hfresh, -⟩, _, _,
    ⟨hvalid, -⟩, rfl, -⟩ := h
  exact ⟨hvalid, hfresh⟩

theorem decodeOperations_eq_ok {version : BitVec 32} (n : Nat) :
    ∀ {prior operations : List AuthorityOperation} {bytes rest : Bytes},
      decodeOperations version n prior bytes = .ok (operations, rest) →
      ∃ decoded, operations = prior ++ decoded ∧ encodable prior decoded = true := by
  induction n with
  | zero =>
      intro prior operations bytes rest h
      obtain ⟨rfl, -⟩ := pure_eq_ok.mp h
      exact ⟨[], (List.append_nil _).symm, rfl⟩
  | succ n ih =>
      intro prior operations bytes rest h
      obtain ⟨operation, left, hone, hrest⟩ := bind_eq_ok.mp h
      obtain ⟨hvalid, hfresh⟩ := decodeOperation_eq_ok hone
      obtain ⟨decoded, rfl, hdecoded⟩ := ih hrest
      refine ⟨operation :: decoded, by rw [List.append_assoc, List.singleton_append], ?_⟩
      rw [encodable, hvalid, hfresh, hdecoded]
      rfl

theorem decodeTransaction_encodable {rest : Bytes}
    (h : decodeTransaction sha256 bytes = .ok (operations, rest)) :
    encodable [] operations = true := by
  simp only [decodeTransaction, bind_eq_ok] at h
  obtain ⟨_, _, -, _, _, -, version, _, -, _, _, -, _, _, -, payload, _, -, _, _, -, _, _, -, _, _,
    -, h⟩ := h
  cases hpayload : decodePayload version payload with
  | error e => rw [hpayload] at h; cases h
  | ok answer =>
      obtain ⟨operations', left⟩ := answer
      rw [hpayload] at h
      obtain ⟨rfl, -⟩ := pure_eq_ok.mp h
      simp only [decodePayload, bind_eq_ok, pure_eq_ok] at hpayload
      obtain ⟨_, _, -, _, _, -, _, _, hloop, _, _, -, _, _, -, rfl, -⟩ := hpayload
      obtain ⟨decoded, hdecoded, hencodable⟩ := decodeOperations_eq_ok _ hloop
      rw [hdecoded]
      exact hencodable

/-! ## A transaction as writes to distinct files -/

def target (operation : AuthorityOperation) : Directory × Bytes :=
  ((operationDirectory operation.store).getD .domains, operation.filename)

def writeOf (operation : AuthorityOperation) : (Directory × Bytes) × Option Bytes :=
  (target operation, if operation.kind = OperationKind.write then some operation.bytes else none)

def applied (operations : List AuthorityOperation) (disk : Disk) : Disk :=
  Redo.applyWrites (operations.map writeOf) disk

def Directory.store : Directory → AuthorityStore
  | .domains => 1
  | .players => 2
  | .identities => 3
  | .accounts => 4
  | .metadata => 5
  | .playerDeaths => 6

theorem store_of_operationDirectory {store : AuthorityStore} {directory : Directory}
    (h : operationDirectory store = some directory) : store = directory.store := by
  simp only [operationDirectory] at h
  split_ifs at h <;> simp_all [Directory.store] <;> subst h <;> rfl

theorem target_eq {directory : Directory} (h : operationDirectory operation.store = some directory)
    : target operation = (directory, operation.filename) := by
  rw [target, h, Option.getD_some]

theorem target_ne_logKey (h : validOperation operation = true) : target operation ≠ logKey := by
  intro heq
  have hname : operation.filename = transactionFilename := congrArg Prod.snd heq
  exact (safeFilename_parts (validOperation_parts h).2.1).2.2.2 hname

theorem sameTarget_of_target_eq {left right : AuthorityOperation}
    (hleft : validOperation left = true) (hright : validOperation right = true)
    (h : target left = target right) : sameTarget left right = true := by
  obtain ⟨leftDirectory, hleftDirectory⟩ :=
    Option.isSome_iff_exists.mp (validOperation_parts hleft).1
  obtain ⟨rightDirectory, hrightDirectory⟩ :=
    Option.isSome_iff_exists.mp (validOperation_parts hright).1
  rw [target_eq hleftDirectory, target_eq hrightDirectory, Prod.mk.injEq] at h
  have hstore : left.store = right.store := by
    rw [store_of_operationDirectory hleftDirectory, store_of_operationDirectory hrightDirectory,
      h.1]
  simp [sameTarget, hstore, h.2]

/-- What a log that can be written or read promises of its operations. -/
structure Transaction (operations : List AuthorityOperation) : Prop where
  valid : ∀ operation ∈ operations, validOperation operation = true
  distinct : (operations.map target).Nodup

theorem encodable_apart (operations : List AuthorityOperation) :
    ∀ {prior : List AuthorityOperation}, encodable prior operations = true →
      Transaction operations ∧
        ∀ operation ∈ operations, prior.any (sameTarget · operation) = false := by
  induction operations with
  | nil => intro prior _; exact ⟨⟨by simp, by simp⟩, by simp⟩
  | cons operation operations ih =>
      intro prior h
      simp only [encodable, Bool.and_eq_true, Bool.not_eq_true'] at h
      obtain ⟨⟨hvalid, hfresh⟩, hrest⟩ := h
      obtain ⟨⟨hvalids, hdistinct⟩, hfreshs⟩ := ih hrest
      have hapart : ∀ other ∈ operations, prior.any (sameTarget · other) = false ∧
          sameTarget operation other = false := by
        intro other hother
        simpa [List.any_append] using hfreshs other hother
      refine ⟨⟨List.forall_mem_cons.mpr ⟨hvalid, hvalids⟩, ?_⟩,
        List.forall_mem_cons.mpr ⟨hfresh, fun other hother => (hapart other hother).1⟩⟩
      rw [List.map_cons, List.nodup_cons]
      refine ⟨?_, hdistinct⟩
      intro hmem
      obtain ⟨other, hother, heq⟩ := List.mem_map.mp hmem
      have hsame := sameTarget_of_target_eq hvalid (hvalids other hother) heq.symm
      rw [(hapart other hother).2] at hsame
      cases hsame

theorem transaction_of_encodable (h : encodable [] operations = true) :
    Transaction operations := (encodable_apart operations h).1

namespace Transaction

variable {operations : List AuthorityOperation} (t : Transaction operations)

include t

theorem nodup : ((operations.map writeOf).map Prod.fst).Nodup := by
  rw [List.map_map]
  exact t.distinct

theorem logKey_absent : logKey ∉ (operations.map writeOf).map Prod.fst := by
  rw [List.map_map]
  intro hmem
  obtain ⟨operation, hoperation, heq⟩ := List.mem_map.mp hmem
  exact target_ne_logKey (t.valid operation hoperation) heq

theorem applied_logKey (disk : Disk) : applied operations disk logKey = disk logKey :=
  Redo.applyWrites_of_absent t.logKey_absent disk

theorem unlogged_applied (disk : Disk) :
    Function.update (applied operations disk) logKey none =
      applied operations (Function.update disk logKey none) :=
  Redo.update_applyWrites t.logKey_absent disk none

theorem sublist {part : List AuthorityOperation} (h : part.Sublist operations) :
    Transaction part :=
  ⟨fun operation hoperation => t.valid operation (h.subset hoperation),
    t.distinct.sublist (h.map target)⟩

end Transaction

/-! ## What the loop leaves -/

theorem concludeStep_cases (before after : Disk) (outcome : StepOutcome) :
    (concludeStep before after outcome).2 = after ∨
      (concludeStep before after outcome).1 ≠ .ok ∧
        (concludeStep before after outcome).2 = before := by
  cases outcome with
  | done => exact .inl rfl
  | failed effect => cases effect <;> simp [concludeStep]
  | crashed effect => cases effect <;> simp [concludeStep]

theorem flatfileAtomicWrite_cases (disk : Disk) (directory : Directory) (name bytes : Bytes)
    (outcome : StepOutcome) :
    (flatfileAtomicWrite disk directory name bytes outcome).2 =
        Function.update disk (directory, name) (some bytes) ∨
      (flatfileAtomicWrite disk directory name bytes outcome).1 ≠ .ok ∧
        (flatfileAtomicWrite disk directory name bytes outcome).2 = disk := by
  rw [flatfileAtomicWrite]
  split
  · exact .inr ⟨nofun, rfl⟩
  · exact concludeStep_cases _ _ outcome

theorem flatfileAtomicRemove_cases {name : Bytes} (hname : validName name = true) (disk : Disk)
    (directory : Directory) (missingOk : Bool) (outcome : StepOutcome) :
    (flatfileAtomicRemove disk directory name missingOk outcome).2 =
        Function.update disk (directory, name) none ∨
      (flatfileAtomicRemove disk directory name missingOk outcome).1 ≠ .ok ∧
        (flatfileAtomicRemove disk directory name missingOk outcome).2 = disk := by
  rw [flatfileAtomicRemove, if_neg (by simp [hname])]
  split
  · next hmissing =>
      left
      rw [← hmissing.2, Function.update_eq_self]
  · exact concludeStep_cases _ _ outcome

theorem applyOperation_cases {operation : AuthorityOperation}
    (hvalid : validOperation operation = true) (disk : Disk) (outcome : StepOutcome) :
    (applyOperation disk operation outcome).2 = applied [operation] disk ∨
      (applyOperation disk operation outcome).1 ≠ .ok ∧
        (applyOperation disk operation outcome).2 = disk := by
  obtain ⟨hstore, hsafe, -, hkind⟩ := validOperation_parts hvalid
  obtain ⟨directory, hdirectory⟩ := Option.isSome_iff_exists.mp hstore
  obtain ⟨-, -, hname, -⟩ := safeFilename_parts hsafe
  have happlied : applied [operation] disk = Function.update disk (directory, operation.filename)
      (if operation.kind = OperationKind.write then some operation.bytes else none) := by
    show Function.update disk (target operation) _ = _
    rw [target_eq hdirectory]
    rfl
  rw [happlied, applyOperation, hdirectory]
  rcases hkind with hwrite | ⟨hremove, -⟩
  · simp only [if_pos hwrite]
    exact flatfileAtomicWrite_cases disk directory _ operation.bytes outcome
  · have hne : operation.kind ≠ OperationKind.write := by rw [hremove]; decide
    simp only [if_neg hne, if_pos hremove]
    exact flatfileAtomicRemove_cases hname disk directory true outcome

/-- The loop applies a prefix of the operations, and all of them when it answers
ok. -/
theorem applyOperations_prefix (operations : List AuthorityOperation) :
    (∀ operation ∈ operations, validOperation operation = true) →
    ∀ (disk : Disk) (outcomes : Nat → StepOutcome), ∃ part, part <+: operations ∧
      (applyOperations disk operations outcomes).2 = applied part disk ∧
      ((applyOperations disk operations outcomes).1 = .ok → part = operations) := by
  induction operations with
  | nil => intro _ disk outcomes; exact ⟨[], List.prefix_rfl, rfl, fun _ => rfl⟩
  | cons operation operations ih =>
      intro hvalid disk outcomes
      rw [List.forall_mem_cons] at hvalid
      have hone := applyOperation_cases hvalid.1 disk (outcomes 0)
      rcases hstep : applyOperation disk operation (outcomes 0) with ⟨answer, after⟩
      simp only [hstep] at hone
      simp only [applyOperations, hstep]
      cases answer with
      | ok =>
          obtain hafter | ⟨hanswer, -⟩ := hone
          · obtain ⟨part, hpart, hdisk, hall⟩ := ih hvalid.2 after fun n => outcomes (n + 1)
            refine ⟨operation :: part, (List.prefix_cons_inj operation).mpr hpart, ?_, ?_⟩
            · rw [hdisk, hafter]
              rfl
            · intro hok
              rw [hall hok]
          · exact absurd rfl hanswer
      | failed | crashed =>
          obtain hafter | ⟨-, hafter⟩ := hone
          · exact ⟨[operation], by simp, hafter, by simp⟩
          · exact ⟨[], List.nil_prefix, hafter, by simp⟩

theorem transactionFilename_valid : validName transactionFilename = true := by decide

theorem resultOf_eq_ok {answer : StepAnswer} : resultOf answer = some .ok ↔ answer = .ok := by
  cases answer <;> simp [resultOf]

/-- Replaying a log applies a prefix of it and keeps the log, or all of it and
removes the log; it answers ok only then. -/
theorem replay_cases {operations : List AuthorityOperation} (t : Transaction operations)
    (disk : Disk) (outcomes : Nat → StepOutcome) :
    (replay disk operations outcomes).2 =
        Function.update (applied operations disk) logKey none ∨
      (replay disk operations outcomes).1 ≠ some .ok ∧
        ∃ part, part <+: operations ∧ (replay disk operations outcomes).2 = applied part disk := by
  obtain ⟨part, hpart, hdisk, hall⟩ := applyOperations_prefix operations t.valid disk outcomes
  rcases hloop : applyOperations disk operations outcomes with ⟨answer, after⟩
  simp only [hloop] at hdisk hall
  simp only [replay, hloop]
  cases answer with
  | ok =>
      obtain rfl := hall rfl
      rw [hdisk]
      rcases flatfileAtomicRemove_cases transactionFilename_valid (applied part disk) .domains false
        (outcomes part.length) with hgone | ⟨hanswer, hkept⟩
      · exact .inl hgone
      · refine .inr ⟨?_, part, List.prefix_rfl, hkept⟩
        intro hok
        exact hanswer (resultOf_eq_ok.mp hok)
  | failed | crashed => exact .inr ⟨by simp [resultOf], part, hpart, hdisk⟩

section

variable {sha256 : Bytes → Vector UInt8 32}

/-- Recovery finds no log and answers ok, or replays the log it finds; otherwise it
leaves the disk alone and does not answer ok. -/
theorem recover_cases (disk : Disk) (read : ReadOutcome) (outcomes : Nat → StepOutcome) :
    (recover sha256 disk read outcomes).1 ≠ some .ok ∧
        (recover sha256 disk read outcomes).2 = disk ∨
      disk logKey = none ∧ recover sha256 disk read outcomes = (some .ok, disk) ∨
      ∃ bytes operations rest, disk logKey = some bytes ∧
        decodeTransaction sha256 bytes = .ok (operations, rest) ∧
        recover sha256 disk read outcomes = replay disk operations outcomes := by
  cases read with
  | crashed => exact .inl ⟨by simp [recover], rfl⟩
  | failed result =>
      refine .inl ⟨?_, rfl⟩
      simp only [recover]
      split <;> simp
  | done =>
      simp only [recover]
      cases hlog : disk logKey with
      | none => exact .inr (.inl ⟨rfl, rfl⟩)
      | some bytes =>
          dsimp only
          split
          · exact .inl ⟨by simp, rfl⟩
          · cases hdecode : decodeTransaction sha256 bytes with
            | error refusal => exact .inl ⟨by simp, rfl⟩
            | ok answer =>
                obtain ⟨operations, rest⟩ := answer
                exact .inr (.inr ⟨bytes, operations, rest, rfl, hdecode, rfl⟩)

/-! ## Recovery ends at one disk, however often it is tried -/

def recoveryTarget (sha256 : Bytes → Vector UInt8 32) (disk : Disk) : Disk :=
  match disk logKey with
  | none => disk
  | some bytes =>
      match decodeTransaction sha256 bytes with
      | .ok (operations, _) => Function.update (applied operations disk) logKey none
      | .error _ => disk

variable {disk : Disk} {operations : List AuthorityOperation}

theorem recoveryTarget_of_unlogged (h : disk logKey = none) :
    recoveryTarget sha256 disk = disk := by
  rw [recoveryTarget, h]

theorem recoveryTarget_of_logged {bytes rest : Bytes} (hlog : disk logKey = some bytes)
    (hdecode : decodeTransaction sha256 bytes = .ok (operations, rest)) :
    recoveryTarget sha256 disk = applied operations (Function.update disk logKey none) := by
  have t : Transaction operations := transaction_of_encodable (decodeTransaction_encodable hdecode)
  simp only [recoveryTarget, hlog, hdecode]
  exact t.unlogged_applied disk

/-- Replaying a log ends where the log says, or keeps the log and with it where
recovery ends. -/
theorem replay_target {bytes rest : Bytes} (hlog : disk logKey = some bytes)
    (hdecode : decodeTransaction sha256 bytes = .ok (operations, rest))
    (outcomes : Nat → StepOutcome) :
    recoveryTarget sha256 (replay disk operations outcomes).2 =
        applied operations (Function.update disk logKey none) ∧
      ((replay disk operations outcomes).1 = some .ok →
        (replay disk operations outcomes).2 =
          applied operations (Function.update disk logKey none)) := by
  have t : Transaction operations := transaction_of_encodable (decodeTransaction_encodable hdecode)
  rcases replay_cases t disk outcomes with hall | ⟨hanswer, part, hpart, hdisk⟩
  · have hgone : (replay disk operations outcomes).2 logKey = none := by
      rw [hall, Function.update_self]
    rw [recoveryTarget_of_unlogged hgone, hall, t.unlogged_applied]
    exact ⟨rfl, fun _ => rfl⟩
  · -- the log is still there, and it subsumes the prefix already applied
    refine ⟨?_, fun hok => absurd hok hanswer⟩
    have tpart : Transaction part := t.sublist hpart.sublist
    have hlog' : (replay disk operations outcomes).2 logKey = some bytes := by
      rw [hdisk, tpart.applied_logKey, hlog]
    rw [recoveryTarget_of_logged hlog' hdecode, hdisk, tpart.unlogged_applied]
    have hbetween : Redo.Between (operations.map writeOf) (Function.update disk logKey none)
        (applied part (Function.update disk logKey none)) :=
      Redo.between_refl.applyPart t.nodup _
        (fun write hwrite => (hpart.sublist.map writeOf).subset hwrite)
    exact hbetween.applyWrites_eq t.nodup

/-- Any call of recovery, also one that fails or dies, keeps where recovery ends;
one that answers ok is there, and the log is gone. -/
theorem recover_target (disk : Disk) (read : ReadOutcome) (outcomes : Nat → StepOutcome) :
    recoveryTarget sha256 (recover sha256 disk read outcomes).2 = recoveryTarget sha256 disk ∧
      ((recover sha256 disk read outcomes).1 = some .ok →
        (recover sha256 disk read outcomes).2 = recoveryTarget sha256 disk ∧
        (recover sha256 disk read outcomes).2 logKey = none) := by
  rcases recover_cases disk read outcomes with ⟨hanswer, hdisk⟩ | ⟨hlog, heq⟩ |
    ⟨bytes, operations, rest, hlog, hdecode, heq⟩
  · rw [hdisk]
    exact ⟨rfl, fun hok => absurd hok hanswer⟩
  · rw [heq, recoveryTarget_of_unlogged hlog]
    exact ⟨rfl, fun _ => ⟨rfl, hlog⟩⟩
  · have t : Transaction operations :=
      transaction_of_encodable (decodeTransaction_encodable hdecode)
    obtain ⟨htarget, hok⟩ := replay_target hlog hdecode outcomes
    rw [heq, recoveryTarget_of_logged hlog hdecode]
    refine ⟨htarget, fun hanswer => ⟨hok hanswer, ?_⟩⟩
    rw [hok hanswer, t.applied_logKey, Function.update_self]

/-! ## A commit leaves a disk whose recovery is the transaction or nothing -/

/-- Where recovery ends is the disk before the transaction, or the disk with all of
it applied. -/
def InDoubt (sha256 : Bytes → Vector UInt8 32) (operations : List AuthorityOperation)
    (base disk : Disk) : Prop :=
  recoveryTarget sha256 disk = base ∨ recoveryTarget sha256 disk = applied operations base

theorem commitOperations_inDoubt {base : Disk} (hbase : base logKey = none)
    (operations : List AuthorityOperation) (logged : StepOutcome) (outcomes : Nat → StepOutcome) :
    InDoubt sha256 operations base (commitOperations sha256 base operations logged outcomes).2 ∧
      ((commitOperations sha256 base operations logged outcomes).1 = some .ok →
        (commitOperations sha256 base operations logged outcomes).2 = applied operations base) := by
  cases hencode : encodeTransaction sha256 operations with
  | none =>
      simp only [commitOperations, hencode]
      exact ⟨.inl (recoveryTarget_of_unlogged hbase), by simp⟩
  | some bytes =>
      have hwrite := flatfileAtomicWrite_cases base .domains transactionFilename bytes logged
      rcases hlogged : flatfileAtomicWrite base .domains transactionFilename bytes logged with
        ⟨answer, disk⟩
      simp only [hlogged] at hwrite
      simp only [commitOperations, hencode, hlogged]
      have hunlogged : Function.update (Function.update base logKey (some bytes)) logKey none =
          base := by
        rw [Function.update_idem, ← hbase, Function.update_eq_self]
      have hlog : Function.update base logKey (some bytes) logKey = some bytes :=
        Function.update_self ..
      have hdecode := decodeTransaction_encode hencode
      cases answer with
      | ok =>
          obtain rfl | ⟨hanswer, -⟩ := hwrite
          · obtain ⟨htarget, hok⟩ := replay_target hlog hdecode outcomes
            rw [hunlogged] at htarget hok
            exact ⟨.inr htarget, hok⟩
          · exact absurd rfl hanswer
      | failed | crashed =>
          refine ⟨?_, by simp [resultOf]⟩
          obtain rfl | ⟨-, rfl⟩ := hwrite
          · right
            exact (recoveryTarget_of_logged hlog hdecode).trans (by rw [hunlogged])
          · exact .inl (recoveryTarget_of_unlogged hbase)

theorem commitOperations_ok_unlogged {logged : StepOutcome} {outcomes : Nat → StepOutcome}
    (h : (commitOperations sha256 disk operations logged outcomes).1 = some .ok) :
    (commitOperations sha256 disk operations logged outcomes).2 logKey = none := by
  cases hencode : encodeTransaction sha256 operations with
  | none => simp [commitOperations, hencode] at h
  | some bytes =>
      have t : Transaction operations :=
        transaction_of_encodable (encodeTransaction_eq_some hencode).1
      rcases hlogged : flatfileAtomicWrite disk .domains transactionFilename bytes logged with
        ⟨answer, after⟩
      simp only [commitOperations, hencode, hlogged] at h ⊢
      cases answer with
      | ok =>
          rcases replay_cases t after outcomes with hall | ⟨hanswer, -⟩
          · rw [hall, Function.update_self]
          · exact absurd h hanswer
      | failed | crashed => simp [resultOf] at h

/-! ## Sessions -/

/-- A session that may commit has no log in its way. -/
def Recovered (s : Session) : Prop := s.recovered = true → s.disk logKey = none

theorem after_recovered {answer : Option TransactionResult × Disk}
    (h : answer.1 = some .ok → answer.2 logKey = none) : Recovered (Session.after answer) := by
  intro hrecovered
  rw [Session.after] at hrecovered ⊢
  split at hrecovered
  · cases hrecovered
  · next hanswer =>
      exact h (by rw [hanswer, of_decide_eq_true hrecovered])

theorem step_recovered (s : Session) (e : Event) (h : Recovered s) :
    Recovered (step sha256 s e) := by
  cases e with
  | acquire =>
      rw [step]
      split
      · exact h
      · intro hrecovered
        cases hrecovered
  | release =>
      intro hrecovered
      cases hrecovered
  | recover read outcomes =>
      rw [step]
      split
      · exact after_recovered fun hok => ((recover_target s.disk read outcomes).2 hok).2
      · exact h
  | commit operations logged outcomes =>
      rw [step]
      split
      · exact after_recovered commitOperations_ok_unlogged
      · exact h

theorem after_disk (answer : Option TransactionResult × Disk) :
    (Session.after answer).disk = answer.2 := by
  rw [Session.after]
  split <;> rfl

def Event.isCommit : Event → Bool
  | .commit .. => true
  | _ => false

theorem step_target (s : Session) (e : Event) (h : e.isCommit = false) :
    recoveryTarget sha256 (step sha256 s e).disk = recoveryTarget sha256 s.disk := by
  cases e with
  | acquire =>
      rw [step]
      split <;> rfl
  | release => rfl
  | recover read outcomes =>
      rw [step]
      split
      · rw [after_disk, (recover_target s.disk read outcomes).1]
      · rfl
  | commit operations logged outcomes => cases h

theorem run_target (events : List Event) (s : Session) (h : ∀ e ∈ events, e.isCommit = false) :
    recoveryTarget sha256 (run (step sha256) s events).disk = recoveryTarget sha256 s.disk := by
  induction events generalizing s with
  | nil => rfl
  | cons e events ih =>
      rw [List.forall_mem_cons] at h
      rw [run_cons, ih (step sha256 s e) h.2, step_target s e h.1]

theorem step_commit_inDoubt {s : Session} (hs : s.disk logKey = none)
    (operations : List AuthorityOperation) (logged : StepOutcome) (outcomes : Nat → StepOutcome) :
    InDoubt sha256 operations s.disk
      (step sha256 s (.commit operations logged outcomes)).disk := by
  rw [step]
  split
  · rw [after_disk]
    exact (commitOperations_inDoubt hs operations logged outcomes).1
  · exact .inl (recoveryTarget_of_unlogged hs)

end

/-- Transactions are atomic. Whatever happened before, take a commit under a lock
under which recovery, and every commit since, answered ok. However the commit ends,
and whatever fails or dies after it short of another commit, a recovery that answers
ok leaves no log, and the stores as they were or with all of the operations applied;
a commit that itself answers ok has applied them. A second recovery finds nothing to
do, one that was interrupted does not change where recovery ends, and applying again
a prefix of what was applied changes nothing, however it ends. -/
theorem transaction_atomic (sha256 : Bytes → Vector UInt8 32) :
    (∀ (disk : Disk) (history tail : List Event) (operations : List AuthorityOperation)
        (logged : StepOutcome) (outcomes : Nat → StepOutcome),
      let before := run (step sha256) { disk := disk } history
      let after := run (step sha256) (step sha256 before (.commit operations logged outcomes)) tail
      before.recovered = true → (∀ e ∈ tail, e.isCommit = false) →
      (∀ read again, (recover sha256 after.disk read again).1 = some .ok →
        (recover sha256 after.disk read again).2 logKey = none ∧
          ((recover sha256 after.disk read again).2 = before.disk ∨
            (recover sha256 after.disk read again).2 = applied operations before.disk)) ∧
      ((commitOperations sha256 before.disk operations logged outcomes).1 = some .ok →
        (commitOperations sha256 before.disk operations logged outcomes).2 logKey = none ∧
          (commitOperations sha256 before.disk operations logged outcomes).2 =
            applied operations before.disk)) ∧
    (∀ (disk : Disk) (read read' : ReadOutcome) (outcomes outcomes' : Nat → StepOutcome),
      (recover sha256 (recover sha256 disk read outcomes).2 read' outcomes').1 = some .ok →
      (∀ again,
        recover sha256 (recover sha256 (recover sha256 disk read outcomes).2 read' outcomes').2
            .done again =
          (some .ok, (recover sha256 (recover sha256 disk read outcomes).2 read' outcomes').2)) ∧
      ∀ read'' again, (recover sha256 disk read'' again).1 = some .ok →
        (recover sha256 (recover sha256 disk read outcomes).2 read' outcomes').2 =
          (recover sha256 disk read'' again).2) ∧
    ∀ (operations part : List AuthorityOperation) (disk : Disk) (outcomes : Nat → StepOutcome),
      encodable [] operations = true → part <+: operations →
      (applyOperations (applied operations disk) part outcomes).2 = applied operations disk := by
  refine ⟨?_, ?_, ?_⟩
  · intro disk history tail operations logged outcomes before after hrecovered htail
    have hbefore : before.disk logKey = none :=
      run_invariant (P := Recovered) step_recovered history (fun h => by cases h) hrecovered
    refine ⟨?_, ?_⟩
    · intro read again hok
      obtain ⟨hdisk, hgone⟩ := (recover_target after.disk read again).2 hok
      refine ⟨hgone, ?_⟩
      rw [hdisk, run_target tail _ htail]
      exact step_commit_inDoubt hbefore operations logged outcomes
    · intro hok
      exact ⟨commitOperations_ok_unlogged hok,
        (commitOperations_inDoubt hbefore operations logged outcomes).2 hok⟩
  · intro disk read read' outcomes outcomes' hok
    obtain ⟨hdisk, hgone⟩ :=
      (recover_target (recover sha256 disk read outcomes).2 read' outcomes').2
      hok
    refine ⟨?_, ?_⟩
    · intro again
      rw [recover, hgone]
    · intro read'' again hok'
      rw [hdisk, (recover_target disk read outcomes).1,
        ((recover_target disk read'' again).2 hok').1]
  · intro operations part disk outcomes hencodable hpart
    have t : Transaction operations := transaction_of_encodable hencodable
    obtain ⟨again, hagain, hdisk, -⟩ :=
      applyOperations_prefix part (t.sublist hpart.sublist).valid (applied operations disk) outcomes
    rw [hdisk]
    exact Redo.applyWrites_again t.nodup ((hagain.trans hpart).sublist.map writeOf) disk

/-- A write of one store and a removal in another, over a disk that holds the file
to be removed; the process dies between the two and comes back. -/
theorem transaction_atomic_crashed :
    let digest : Bytes → Vector UInt8 32 := Sha256.hash
    let operations : List AuthorityOperation :=
      [⟨1, OperationKind.write, [97], [1]⟩, ⟨2, OperationKind.remove, [98], []⟩]
    let dies : Nat → StepOutcome := fun n => if n = 0 then .done else .crashed false
    let before := run (step digest)
      { disk := fun key => if key = (.players, [98]) then some [7] else none }
      [.acquire, .recover .done fun _ => .done]
    let after := run (step digest) (step digest before (.commit operations .done dies)) [.acquire]
    before.recovered = true ∧ (recover digest after.disk .done fun _ => .done).1 = some .ok ∧
      (recover digest after.disk .done fun _ => .done).2 logKey = none ∧
      ((recover digest after.disk .done fun _ => .done).2 = before.disk ∨
        (recover digest after.disk .done fun _ => .done).2 = applied operations before.disk) := by
  intro digest operations dies before after
  have hrecovered : before.recovered = true := by decide +kernel
  have hok : (recover digest after.disk .done fun _ => .done).1 = some .ok := by decide +kernel
  clear_value digest
  have hatomic := (transaction_atomic digest).1 _ [.acquire, .recover .done fun _ => .done]
    [.acquire] operations .done dies hrecovered (by simp [Event.isCommit])
  exact ⟨hrecovered, hok, hatomic.1 .done _ hok⟩

end Duris.Flatfile
