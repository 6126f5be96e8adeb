import Duris.Lib.Run
import Duris.Lib.Sha256
import Duris.Proofs.CoinReceipt
import Duris.Proofs.PlayerDomain

/-!
# The currency repository across crashes

What the files say is what they will say once the redo log is replayed: the `target` of the
disk. A call moves it in one step or not at all, whichever of its file operations fail and
wherever the process dies, and an answer that is final is given only behind that step. So a
run with crashes is a run of the calls that took effect, each of them whole; with the
receipt of every such call among the files, none of them takes effect twice.
-/

namespace Duris.Flatfile.PlayerDomain

open Redo Ownership Persistence Economy

variable {decision : Decision}

/-! ## The log -/

def redoKey : Directory × Bytes := (.domains, transactionFilename)

def writeOf (image : AfterImage) : (Directory × Bytes) × Option Bytes :=
  ((.domains, image.filename), some image.bytes)

variable (sha256 : Bytes → Vector UInt8 32)

/-- A log that can be replayed: it can be read, and its files can be written. -/
def readLog (bytes : Bytes) : Option (List ((Directory × Bytes) × Option Bytes)) :=
  if transactionMaximumBytes < bytes.length then none
  else
    match decodeTransaction sha256 bytes with
    | .error _ => none
    | .ok transaction =>
        if transaction.images.all fun image => validName image.filename then
          some (transaction.images.map writeOf)
        else none

variable {sha256}

theorem readLog_eq_some {bytes : Bytes} {writes : List ((Directory × Bytes) × Option Bytes)} :
    readLog sha256 bytes = some writes ↔ bytes.length ≤ transactionMaximumBytes ∧
      ∃ transaction, decodeTransaction sha256 bytes = .ok transaction ∧
        (∀ image ∈ transaction.images, validName image.filename = true) ∧
        transaction.images.map writeOf = writes := by
  unfold readLog
  split
  · next hsize => simp [Nat.not_le.mpr hsize]
  · next hsize => cases hdecode : decodeTransaction sha256 bytes <;> simp [Nat.not_lt.mp hsize]

theorem notMem_writes {images : List AfterImage}
    (h : ∀ image ∈ images, DomainName image.filename) {key : Directory × Bytes}
    (hkey : ¬ DomainName key.2) : key ∉ (images.map writeOf).map Prod.fst := by
  rw [List.map_map]
  intro hmem
  obtain ⟨image, himage, rfl⟩ := List.mem_map.mp hmem
  exact hkey (h image himage)

variable (sha256) in
def domainLog : RedoLog (Directory × Bytes) Bytes where
  key := redoKey
  read := readLog sha256
  apart := by
    intro bytes writes hread
    obtain ⟨-, transaction, -, -, rfl⟩ := readLog_eq_some.mp hread
    exact notMem_writes (images_names transaction) (by decide)

/-- The writes of the images stop behind some of them, and behind the last when they answer
ok. -/
theorem writeImages_prefix (images : List AfterImage) :
    ∀ (disk : Disk) (outcomes : Nat → StepOutcome), ∃ part, part <+: images ∧
      (writeImages disk images outcomes).2 = applyWrites (part.map writeOf) disk ∧
      ((writeImages disk images outcomes).1 = .ok → part = images) := by
  induction images with
  | nil => exact fun disk outcomes => ⟨[], List.prefix_rfl, rfl, fun _ => rfl⟩
  | cons image images ih =>
      intro disk outcomes
      have hone := flatfileAtomicWrite_cases disk .domains image.filename image.bytes (outcomes 0)
      rcases hstep : flatfileAtomicWrite disk .domains image.filename image.bytes (outcomes 0) with
        ⟨answer, after⟩
      simp only [hstep] at hone
      simp only [writeImages, hstep]
      cases answer with
      | ok =>
          obtain rfl | ⟨hanswer, -⟩ := hone
          · obtain ⟨part, hpart, hdisk, hall⟩ := ih _ fun n => outcomes (n + 1)
            exact ⟨image :: part, (List.prefix_cons_inj image).mpr hpart, hdisk,
              fun hok => by rw [hall hok]⟩
          · exact absurd rfl hanswer
      | failed | crashed =>
          obtain rfl | ⟨-, rfl⟩ := hone
          · exact ⟨[image], by simp, rfl, by simp⟩
          · exact ⟨[], List.nil_prefix, rfl, by simp⟩

variable {disk : Disk} {bytes : Bytes} {images : List AfterImage}

/-- Wherever the work on a log stops, it leaves the target; and it ends there. -/
theorem settleLog_target (hlog : disk redoKey = some bytes)
    (hread : readLog sha256 bytes = some (images.map writeOf))
    (outcomes : Nat → StepOutcome) :
    ((settleLog disk transactionFilename images outcomes).2 redoKey = some bytes ∧
      (settleLog disk transactionFilename images outcomes).1 ≠ .ok ∧
      (domainLog sha256).target (settleLog disk transactionFilename images outcomes).2 =
        (domainLog sha256).target disk) ∨
    (settleLog disk transactionFilename images outcomes).2 = (domainLog sha256).target disk := by
  obtain ⟨part, hpart, hdisk, hall⟩ := writeImages_prefix images disk outcomes
  have hstopped := @RedoLog.target_part _ _ _ (domainLog sha256) _ _ _ _ hlog hread
    (hpart.map writeOf)
  rcases hwritten : writeImages disk images outcomes with ⟨answer, after⟩
  rw [hwritten] at hdisk hall
  obtain rfl : after = _ := hdisk
  simp only [settleLog, hwritten]
  cases answer with
  | failed | crashed => exact .inl ⟨hstopped.1, by simp, hstopped.2⟩
  | ok =>
      obtain rfl := hall rfl
      obtain hgone | ⟨hanswer, hkept⟩ := flatfileAtomicRemove_cases
        (show validName transactionFilename = true by decide)
        (applyWrites (part.map writeOf) disk) .domains false (outcomes part.length)
      · exact .inr
          (hgone.trans (@RedoLog.target_finished _ _ _ (domainLog sha256) _ _ _ hlog hread))
      · rw [hkept]
        exact .inl ⟨hstopped.1, hanswer, hstopped.2⟩

theorem flatfileAtomicWrite_done {name : Bytes} (h : validName name = true) (disk : Disk)
    (directory : Directory) (bytes : Bytes) :
    flatfileAtomicWrite disk directory name bytes .done =
      (.ok, Function.update disk (directory, name) (some bytes)) := by
  simp [flatfileAtomicWrite, h, concludeStep]

theorem settleLog_done (hlog : disk redoKey = some bytes)
    (hread : readLog sha256 bytes = some (images.map writeOf))
    (hnames : ∀ image ∈ images, validName image.filename = true) :
    settleLog disk transactionFilename images (fun _ => .done) =
      (.ok, (domainLog sha256).target disk) := by
  have hwrites : ∀ disk, writeImages disk images (fun _ => .done) =
      (.ok, applyWrites (images.map writeOf) disk) := by
    clear hread
    induction images with
    | nil => exact fun _ => rfl
    | cons image images ih =>
        intro disk
        rw [List.forall_mem_cons] at hnames
        simp only [writeImages, flatfileAtomicWrite_done hnames.1]
        exact ih hnames.2 _
  have hkept := @RedoLog.target_part _ _ _ (domainLog sha256) _ _ _ _ hlog hread List.prefix_rfl
  have hname : validName transactionFilename = true := by decide
  have hfound : applyWrites (images.map writeOf) disk (.domains, transactionFilename) ≠ none :=
    hkept.1.trans_ne (by simp)
  simp only [settleLog, hwrites, flatfileAtomicRemove, hname, hfound, concludeStep]
  exact congrArg (Prod.mk _) (@RedoLog.target_finished _ _ _ (domainLog sha256) _ _ _ hlog hread)

/-! ## What the files say -/

variable (sha256) in
/-- The files behind the replay: no other log is left, and a bank goes by its account. -/
structure Settled (store : Disk) : Prop where
  authority : store logKey = none
  legacy : store (.domains, legacyTransactionFilename) = none
  redo : store redoKey = none
  banks : ∀ {account racewar bank}, loadBank sha256 store account racewar true = .ok bank →
    bank.accountName = account

variable (sha256) in
def Readable (disk : Disk) : Prop :=
  ∀ bytes, disk redoKey = some bytes → (readLog sha256 bytes).isSome

variable (sha256) in
/-- A disk at any time: the log, if there is one, leads to files that are settled. -/
structure Sound (disk : Disk) : Prop where
  readable : Readable sha256 disk
  settled : Settled sha256 ((domainLog sha256).target disk)

theorem target_kept {key : Directory × Bytes} (hkey : ¬ DomainName key.2) (hne : key ≠ redoKey) :
    (domainLog sha256).target disk key = disk key := by
  unfold RedoLog.target
  cases hwrites : (disk (domainLog sha256).key).bind (domainLog sha256).read with
  | none => rfl
  | some writes =>
      obtain ⟨bytes, -, hread⟩ := Option.bind_eq_some_iff.mp hwrites
      obtain ⟨-, transaction, -, -, rfl⟩ := readLog_eq_some.mp hread
      exact (applyWrites_of_absent (notMem_writes (images_names transaction) hkey) _).trans
        (Function.update_of_ne hne ..)

theorem target_settled (h : disk redoKey = none) : (domainLog sha256).target disk = disk :=
  RedoLog.target_unlogged h

/-- No log but the redo log lies on the disk. -/
theorem Sound.absent (h : Sound sha256 disk) :
    disk logKey = none ∧ disk (.domains, legacyTransactionFilename) = none :=
  ⟨(target_kept (by decide) (by decide)).symm.trans h.settled.authority,
    (target_kept (by decide) (by decide)).symm.trans h.settled.legacy⟩

/-- A recovery does not move the target; it ends there, fails or dies. -/
theorem recoverAuthority_target (h : Sound sha256 disk) (steps : RecoverySteps) :
    let called := recoverAuthority sha256 disk steps
    Readable sha256 called.2 ∧
      (domainLog sha256).target called.2 = (domainLog sha256).target disk ∧
      (called.1 = some (.ok ()) ∧ called.2 = (domainLog sha256).target disk ∨ called.1 = none ∨
        called.1 = some (.error .ioError)) := by
  obtain ⟨hauthority, hlegacy⟩ := h.absent
  have hsame : Readable sha256 disk ∧
      (domainLog sha256).target disk = (domainLog sha256).target disk := ⟨h.readable, rfl⟩
  have hnames : validName legacyTransactionFilename = true ∧
      validName transactionFilename = true := by decide
  unfold recoverAuthority
  cases hread : steps.authority.read with
  | failed => exact ⟨h.readable, rfl, .inr (.inr rfl)⟩
  | crashed => exact ⟨h.readable, rfl, .inr (.inl rfl)⟩
  | ok =>
      simp only [readOutcome, recover, hauthority, recoverTransaction]
      cases hlegacyRead : steps.legacy.read with
      | crashed => simp [recoverTransactionFile, hlegacyRead, hsame]
      | failed => simp [recoverTransactionFile, hlegacyRead, flatfileRead, hnames, hsame]
      | ok =>
          have hnothing : recoverTransactionFile sha256 disk legacyTransactionFilename true
              steps.legacy = (some (.ok ()), disk) := by
            simp [recoverTransactionFile, hlegacyRead, flatfileRead, hnames, hlegacy]
          rw [hnothing]
          simp only [recoverTransactionFile]
          cases hredoRead : steps.redo.read with
          | crashed => simp [hsame]
          | failed => simp [flatfileRead, hnames, hsame]
          | ok =>
              simp only [reduceCtorEq, if_false, flatfileRead, hnames, Bool.true_eq_false,
                beq_self_eq_true]
              cases hlog : disk (.domains, transactionFilename) with
              | none => exact ⟨h.readable, rfl, .inl ⟨rfl, (target_settled hlog).symm⟩⟩
              | some bytes =>
                  obtain ⟨writes, hlogged⟩ := Option.isSome_iff_exists.mp (h.readable bytes hlog)
                  obtain ⟨hsize, transaction, hdecode, -, rfl⟩ := readLog_eq_some.mp hlogged
                  simp only [Nat.not_lt.mpr hsize, if_false, hdecode]
                  have hsettle := settleLog_target hlog hlogged steps.redo.writes
                  rcases hrun : settleLog disk transactionFilename transaction.images
                    steps.redo.writes with ⟨answer, after⟩
                  rw [hrun] at hsettle
                  obtain ⟨hkept, hanswer, htarget⟩ | hdone := hsettle
                  · refine ⟨fun found hfound => ?_, htarget, .inr ?_⟩
                    · exact h.readable found (hlog.trans (hkept.symm.trans hfound))
                    · cases answer <;> simp_all [recoveryOf]
                  · obtain rfl : after = _ := hdone
                    refine ⟨fun found hfound => ?_, target_settled h.settled.redo, ?_⟩
                    · exact absurd (h.settled.redo.symm.trans hfound) (by simp)
                    · cases answer <;> simp [recoveryOf]

theorem recoverAuthority_done (h : Sound sha256 disk) :
    recoverAuthority sha256 disk {} = (some (.ok ()), (domainLog sha256).target disk) := by
  obtain ⟨hauthority, hlegacy⟩ := h.absent
  have hnames : validName legacyTransactionFilename = true ∧
      validName transactionFilename = true := by decide
  have hnothing : recoverTransactionFile sha256 disk legacyTransactionFilename true {} =
      (some (.ok ()), disk) := by
    simp [recoverTransactionFile, flatfileRead, hnames, hlegacy]
  have hredo : recoverTransactionFile sha256 disk transactionFilename false {} =
      (some (.ok ()), (domainLog sha256).target disk) := by
    cases hlog : disk (.domains, transactionFilename) with
    | none => simp [recoverTransactionFile, flatfileRead, hnames, hlog, target_settled hlog]
    | some bytes =>
        obtain ⟨writes, hlogged⟩ := Option.isSome_iff_exists.mp (h.readable bytes hlog)
        obtain ⟨hsize, transaction, hdecode, hvalid, rfl⟩ := readLog_eq_some.mp hlogged
        simp [recoverTransactionFile, flatfileRead, hnames, hlog, Nat.not_lt.mpr hsize, hdecode,
          settleLog_done hlog hlogged hvalid, recoveryOf]
  simp only [recoverAuthority, readOutcome, recover, hauthority, recoverTransaction,
    hnothing, hredo]

/-! ## One call -/

namespace Decision

def result : Decision → CriticalApplyResult
  | .answer result | .receipt result _ | .exchange result _ _ => result

/-- The files once the decision is carried out. -/
def effect (store : Disk) : Decision → Disk
  | .answer _ => store
  | .receipt _ image => applyWrites [writeOf image] store
  | .exchange _ transaction _ => applyWrites (transaction.images.map writeOf) store

variable (sha256) in
/-- The one file of a receipt is of a domain, and a log reads as what it is of. -/
def Proper : Decision → Prop
  | .answer _ => True
  | .receipt _ image => DomainName image.filename ∧ validName image.filename = true
  | .exchange _ transaction log => (log.length ≤ transactionMaximumBytes ∧
      decodeTransaction sha256 log = .ok transaction) ∧
        ∀ image ∈ transaction.images, validName image.filename = true

end Decision

theorem tryAgain_conclude {result found : CriticalApplyResult} {answer : StepAnswer}
    (h : conclude result answer = some found) (hfinal : found.outcome.tryAgain = false) :
    answer = .ok ∧ found = result := by
  cases answer <;> cases h
  · exact ⟨rfl, rfl⟩
  · cases hfinal

theorem unlogged {store : Disk} (h : store redoKey = none) :
    Readable sha256 store ∧ (domainLog sha256).target store = store :=
  ⟨fun bytes hbytes => absurd (h.symm.trans hbytes) (by simp), RedoLog.target_unlogged h⟩

/-- From settled files a decision is carried out whole or not at all, and the first when it is
answered for good. -/
theorem carryOut_target {store : Disk} (hsettled : Settled sha256 store)
    (hproper : decision.Proper sha256) (first : StepOutcome) (rest : Nat → StepOutcome) :
    let called := carryOut store first rest decision
    Readable sha256 called.2 ∧
    ((domainLog sha256).target called.2 = store ∨
      (domainLog sha256).target called.2 = decision.effect store) ∧
    ∀ found, called.1 = some found → found.outcome.tryAgain = false →
      found = decision.result ∧ (domainLog sha256).target called.2 = decision.effect store := by
  have hbefore := @unlogged sha256 _ hsettled.redo
  have hnever {result : CriticalApplyResult} {answer : StepAnswer} {after : Disk}
      (hanswer : answer ≠ .ok) (found : CriticalApplyResult)
      (hfound : conclude result answer = some found) (hfinal : found.outcome.tryAgain = false) :
      found = decision.result ∧ (domainLog sha256).target after = decision.effect store :=
    absurd (tryAgain_conclude hfound hfinal).1 hanswer
  cases decision with
  | answer result =>
      refine ⟨hbefore.1, .inl hbefore.2, fun found hfound _ => ?_⟩
      cases hfound
      exact ⟨rfl, hbefore.2⟩
  | receipt result image =>
      have hafter := @unlogged sha256 _ ((applyWrites_of_absent (notMem_writes
        (List.forall_mem_singleton.mpr hproper.1) (by decide)) store).trans hsettled.redo)
      simp only [carryOut]
      obtain hdone | ⟨hanswer, hsame⟩ := flatfileAtomicWrite_cases store .domains image.filename
        image.bytes first
      · rw [hdone]
        exact ⟨hafter.1, .inr hafter.2, fun found hfound hfinal =>
          ⟨(tryAgain_conclude hfound hfinal).2, hafter.2⟩⟩
      · rw [hsame]
        exact ⟨hbefore.1, .inl hbefore.2, hnever hanswer⟩
  | exchange result transaction log =>
      obtain ⟨⟨hsize, hdecode⟩, hnames⟩ := hproper
      have hread : readLog sha256 log = some (transaction.images.map writeOf) :=
        readLog_eq_some.mpr ⟨hsize, transaction, hdecode, hnames, rfl⟩
      have hbegun := @RedoLog.target_begun _ _ _ (domainLog sha256) _ _ _ hsettled.redo hread
      have hreadable {after : Disk} (hafter : after redoKey = some log) :
        Readable sha256 after := by
        intro bytes hbytes
        cases hafter.symm.trans hbytes
        rw [hread]
        rfl
      have hlogged := flatfileAtomicWrite_cases store .domains transactionFilename log first
      simp only [carryOut]
      rcases hrun : flatfileAtomicWrite store .domains transactionFilename log first with
        ⟨answer, after⟩
      rw [hrun] at hlogged
      cases answer with
      | failed | crashed =>
          obtain hdone | ⟨-, hsame⟩ := hlogged
          · obtain rfl : after = _ := hdone
            dsimp only
            exact ⟨hreadable (Function.update_self ..), .inr hbegun, hnever (by simp)⟩
          · obtain rfl : after = _ := hsame
            exact ⟨hbefore.1, .inl hbefore.2, hnever (by simp)⟩
      | ok =>
          obtain rfl : after = _ := hlogged.resolve_right fun h => h.1 rfl
          dsimp only
          have hlog : Function.update store (.domains, transactionFilename) (some log) redoKey =
              some log := Function.update_self ..
          obtain ⟨hkept, hanswer, htarget⟩ | hdone := settleLog_target hlog hread rest
          · exact ⟨hreadable hkept, .inr (htarget.trans hbegun), hnever hanswer⟩
          · have hafter := @unlogged sha256 _ ((applyWrites_of_absent (notMem_writes
              (images_names transaction) (by decide)) store).trans hsettled.redo)
            rw [hdone.trans hbegun]
            exact ⟨hafter.1, .inr hafter.2, fun found hfound hfinal =>
              ⟨(tryAgain_conclude hfound hfinal).2, hafter.2⟩⟩

theorem carryOut_done (hsettled : Settled sha256 store) (hproper : decision.Proper sha256) :
    carryOut store .done (fun _ => .done) decision =
      (some decision.result, decision.effect store) := by
  cases decision with
  | answer result => rfl
  | receipt result image =>
      simp only [carryOut, flatfileAtomicWrite_done hproper.2, conclude]
      rfl
  | exchange result transaction log =>
      obtain ⟨⟨hsize, hdecode⟩, hnames⟩ := hproper
      have hread : readLog sha256 log = some (transaction.images.map writeOf) :=
        readLog_eq_some.mpr ⟨hsize, transaction, hdecode, hnames, rfl⟩
      have hname : validName transactionFilename = true := by decide
      have hsettle : settleLog (Function.update store (.domains, transactionFilename) (some log))
          transactionFilename transaction.images (fun _ => .done) =
            (.ok, applyWrites (transaction.images.map writeOf) store) :=
        (settleLog_done (Function.update_self ..) hread hnames).trans (congrArg (Prod.mk _)
          (@RedoLog.target_begun _ _ _ (domainLog sha256) _ _ _ hsettled.redo hread))
      simp only [carryOut, flatfileAtomicWrite_done hname, hsettle, conclude]
      rfl

/-! ## What a decision does -/

variable {store after : Disk} {command : CriticalCommand} {request : CurrencyRequest}
  {player : PlayerAuthority} {bank : BankRecord}

theorem currencyRequest_eq_some (h : currencyRequest sha256 command = some request) :
    request.command = command ∧ criticalOperationIdIsZero command.operationId = false ∧
      canonicalAccount request.account = some request.account := by
  simp only [currencyRequest, Option.bind_eq_bind, Option.bind_eq_some_iff] at h
  obtain ⟨payload, -, digest, -, account, haccount, h⟩ := h
  split at h
  · cases h
  · next hvalid =>
      cases h
      refine ⟨rfl, ?_, (canonicalAccount_eq_some haccount).1⟩
      cases hzero : criticalOperationIdIsZero command.operationId with
      | false => rfl
      | true => exact absurd (.inl (by simp [criticalCommandValid, hzero])) hvalid

/-- What a command has passed that is carried out for the first time, and the file of the
player it ends with. -/
structure Passes (request : CurrencyRequest) (player : PlayerAuthority) (bank : BankRecord)
    (encoded : Bytes) : Prop where
  fresh : request.command.operationId ∉ player.operations.map DomainOperation.operationId
  room : player.operations.length < domainMaximumOperations
  fits : balancesFit player bank = true
  size : encoded.length = currencyResultPayloadBytes

def settledPlayer (request : CurrencyRequest) (player : PlayerAuthority) (bank : BankRecord)
    (encoded : Bytes) : PlayerAuthority :=
  receipted request (currencyCode request player bank) encoded (playerAfter request player bank)

theorem decideLoaded_cases (request : CurrencyRequest) (player : PlayerAuthority)
    (bank : BankRecord) :
    (∃ result, decideLoaded sha256 request player bank = .answer result ∧
      result.outcome ≠ .applied) ∨
    ∃ encoded result bytes, Passes request player bank encoded ∧
      encodePlayerAuthority sha256 (settledPlayer request player bank encoded) = some bytes ∧
      (currencyCode request player bank ≠ 0 ∧ result.outcome ≠ .applied ∧
          decideLoaded sha256 request player bank =
            .receipt result ⟨playerFilename (playerAfter request player bank).record.pid, bytes⟩ ∨
        currencyCode request player bank = 0 ∧ result.outcome = .applied ∧
          ∃ bankBytes transaction log, transaction = ⟨[⟨request.payload.pid, bytes⟩],
              [⟨request.account, request.payload.racewar, bankBytes⟩]⟩ ∧
            encodeBankRecord sha256 (bankAfter request player bank) = some bankBytes ∧
            encodeTransaction sha256 transaction = some log ∧
            decideLoaded sha256 request player bank = .exchange result transaction log) := by
  have hfailed : CriticalApplyOutcome.terminalFailure ≠ .applied := by decide
  unfold decideLoaded
  split
  · exact .inl ⟨_, rfl, hfailed⟩
  split
  · refine .inl ⟨_, rfl, ?_⟩
    unfold replayed
    split
    · exact hfailed
    · split
      · exact hfailed
      · dsimp only
        split <;> decide
  next hfresh =>
  split
  · exact .inl ⟨_, rfl, hfailed⟩
  next hroom =>
  split
  · exact .inl ⟨_, rfl, hfailed⟩
  next hfits =>
  unfold decideFiles
  split
  · exact .inl ⟨_, rfl, hfailed⟩
  next encoded hencoded =>
  have hpasses : Passes request player bank encoded :=
    ⟨by simpa using hfresh, Nat.not_le.mp hroom, by simpa using hfits,
      (currencyCommandEncodeResult_eq_some hencoded).1⟩
  dsimp only
  split
  · next hcode =>
      split
      · exact .inl ⟨_, rfl, hfailed⟩
      · next bytes hbytes =>
          exact .inr ⟨encoded, _, bytes, hpasses, hbytes,
            .inl ⟨hcode, (if_pos hcode).trans_ne hfailed, rfl⟩⟩
  · next hcode =>
      split
      · exact .inl ⟨_, rfl, hfailed⟩
      · next transaction log hfiles =>
          simp only [exchangeFiles, Option.bind_eq_bind, Option.bind_eq_some_iff,
            Option.pure_def, Option.some.injEq, Prod.mk.injEq] at hfiles
          obtain ⟨bytes, hbytes, bankBytes, hbank, log, hlog, rfl, rfl⟩ := hfiles
          exact .inr ⟨encoded, _, bytes, hpasses, hbytes, .inr ⟨not_not.mp hcode,
            if_neg hcode, bankBytes, _, log, rfl, hbank, hlog, rfl⟩⟩

/-! ## The books -/

def CurrencyRequest.identity (request : CurrencyRequest) : BitVec 32 × CriticalOperationId :=
  (request.payload.pid, request.command.operationId)

def identities (player : PlayerAuthority) : List CriticalOperationId :=
  player.operations.map DomainOperation.operationId

/-- What a command puts into a wallet, and into a bank. -/
def intoWallet (pid : BitVec 32) (index : Fin 4) (request : CurrencyRequest) : Int :=
  if request.payload.pid = pid then (request.payload.walletDelta.amount.get index).toInt else 0

def intoBank (account : Bytes) (racewar : BitVec 8) (index : Fin 4) (request : CurrencyRequest) :
    Int :=
  if (request.account, request.payload.racewar) = (account, racewar) then
    (request.payload.bankDelta.amount.get index).toInt
  else 0

/-- The records differ in the wallet and its revision at most. -/
def SameButWallet (player player' : PlayerAuthority) : Prop :=
  ∃ wallet revision,
    player'.record = { player.record with wallet := wallet, walletRevision := revision }

variable (sha256) in
/-- From one store to a later one the commands of the list were settled: each for the first
time, its receipt is among the files, and nothing else went into a wallet or a bank. A player
gets receipts besides, and nothing else of the record changes. -/
structure Ledger (settled : List CurrencyRequest) (store after : Disk) : Prop where
  wallets : ∀ {pid player}, loadPlayerAuthority sha256 store pid true = .ok player →
    ∃ player', loadPlayerAuthority sha256 after pid true = .ok player' ∧
      player.operations <+: player'.operations ∧ SameButWallet player player' ∧ ∀ index : Fin 4,
        ((player'.record.wallet.get index).toNat : Int) =
          (player.record.wallet.get index).toNat + (settled.map (intoWallet pid index)).sum
  banks : ∀ {account racewar bank}, loadBank sha256 store account racewar true = .ok bank →
    ∃ bank', loadBank sha256 after account racewar true = .ok bank' ∧ ∀ index : Fin 4,
      ((bank'.balances.get index).toNat : Int) =
        (bank.balances.get index).toNat + (settled.map (intoBank account racewar index)).sum
  receipts : ∀ request ∈ settled,
    (∀ {player}, loadPlayerAuthority sha256 store request.payload.pid true = .ok player →
      request.command.operationId ∉ identities player) ∧
    ∃ player, loadPlayerAuthority sha256 after request.payload.pid true = .ok player ∧
      request.command.operationId ∈ identities player
  once : (settled.map CurrencyRequest.identity).Nodup

theorem SameButWallet.refl (player : PlayerAuthority) : SameButWallet player player :=
  ⟨_, _, rfl⟩

theorem SameButWallet.trans {first second third : PlayerAuthority}
    (h : SameButWallet first second) (h' : SameButWallet second third) :
    SameButWallet first third := by
  obtain ⟨_, _, hrecord⟩ := h
  obtain ⟨wallet, revision, hrecord'⟩ := h'
  exact ⟨wallet, revision, by rw [hrecord', hrecord]⟩

theorem identities_subset {first second : PlayerAuthority}
    (h : first.operations <+: second.operations) : identities first ⊆ identities second :=
  (h.map _).subset

theorem Ledger.refl (store : Disk) : Ledger sha256 [] store store where
  wallets h := ⟨_, h, List.prefix_refl _, SameButWallet.refl _, by simp⟩
  banks h := ⟨_, h, by simp⟩
  receipts := by simp
  once := List.nodup_nil

theorem Ledger.trans {settled later : List CurrencyRequest} {last : Disk}
    (h : Ledger sha256 settled store after) (h' : Ledger sha256 later after last) :
    Ledger sha256 (settled ++ later) store last where
  wallets hload := by
    obtain ⟨player, hplayer, hgrown, hrest, hsum⟩ := h.wallets hload
    obtain ⟨player', hplayer', hgrown', hrest', hsum'⟩ := h'.wallets hplayer
    refine ⟨player', hplayer', hgrown.trans hgrown', hrest.trans hrest', fun index => ?_⟩
    rw [hsum', hsum, List.map_append, List.sum_append, add_assoc]
  banks hload := by
    obtain ⟨bank, hbank, hsum⟩ := h.banks hload
    obtain ⟨bank', hbank', hsum'⟩ := h'.banks hbank
    refine ⟨bank', hbank', fun index => ?_⟩
    rw [hsum', hsum, List.map_append, List.sum_append, add_assoc]
  receipts request hmem := by
    obtain hmem | hmem := List.mem_append.mp hmem
    · obtain ⟨hfresh, player, hload, hin⟩ := h.receipts request hmem
      obtain ⟨last, hlast, hgrown, -⟩ := h'.wallets hload
      exact ⟨hfresh, last, hlast, identities_subset hgrown hin⟩
    · obtain ⟨hfresh, hlast⟩ := h'.receipts request hmem
      refine ⟨fun hload hin => ?_, hlast⟩
      obtain ⟨player, hplayer, hgrown, -⟩ := h.wallets hload
      exact hfresh hplayer (identities_subset hgrown hin)
  once := by
    rw [List.map_append, List.nodup_append]
    refine ⟨h.once, h'.once, fun identity hmem _ hmem' heq => ?_⟩
    obtain ⟨request, hrequest, rfl⟩ := List.mem_map.mp hmem
    obtain ⟨other, hother, rfl⟩ := List.mem_map.mp hmem'
    obtain ⟨hpid, hid⟩ := Prod.mk.inj heq
    obtain ⟨-, player, hload, hin⟩ := h.receipts request hrequest
    exact (h'.receipts other hother).1 (hpid ▸ hload) (hid ▸ hin)

theorem toNat_applied {balance delta : BitVec 64} (h : deltaCode balance delta = 0)
    (hfits : balance.toNat ≤ Item.int32Max) :
    ((balance + delta).toNat : Int) = balance.toNat + delta.toInt := by
  have hdelta := BitVec.toInt_eq_toNat_cond delta
  have hbalance := BitVec.toInt_eq_toNat_cond balance
  have hlt := delta.isLt
  unfold deltaCode at h
  unfold Item.int32Max at h hfits
  rw [BitVec.toNat_add]
  split_ifs at h with hneg hshort hlarge
  · exact absurd h (by decide)
  · split at hdelta <;> omega
  · exact absurd h (by decide)
  · split at hdelta <;> split at hbalance <;> omega

/-- A command that is not refused changes every balance by what it says. -/
theorem balances_applied (hcode : currencyCode request player bank = 0)
    (hfits : balancesFit player bank = true) (index : Fin 4) :
    (((playerAfter request player bank).record.wallet.get index).toNat : Int) =
        (player.record.wallet.get index).toNat +
          (request.payload.walletDelta.amount.get index).toInt ∧
      (((bankAfter request player bank).balances.get index).toNat : Int) =
        (bank.balances.get index).toNat + (request.payload.bankDelta.amount.get index).toInt := by
  have hdeltas : deltasCode request.payload player bank = 0 := by
    unfold currencyCode at hcode
    split at hcode
    · cases hcode
    · split at hcode
      · next hne => exact absurd hcode hne
      · next hnot => exact not_not.mp hnot
  have hnone (code : BitVec 32) (hmem : code = deltaCode (player.record.wallet.get index)
      (request.payload.walletDelta.amount.get index) ∨ code = deltaCode (bank.balances.get index)
        (request.payload.bankDelta.amount.get index)) : code = 0 := by
    unfold deltasCode at hdeltas
    generalize hcodes : (List.finRange 4).flatMap _ = codes at hdeltas
    have hcode : code ∈ codes := hcodes ▸ List.mem_flatMap.mpr ⟨index, by simp, by simpa⟩
    cases hfind : codes.find? (· != 0) with
    | none => simpa using List.find?_eq_none.mp hfind code hcode
    | some found =>
        rw [hfind] at hdeltas
        exact absurd hdeltas (by simpa using List.find?_some hfind)
  have hmem (xs : Vector (BitVec 64) 4) : xs.get index ∈ xs := Vector.getElem_mem index.2
  have hget (xs ys : Vector (BitVec 64) 4) :
      (xs.zipWith (· + ·) ys).get index = xs.get index + ys.get index := Vector.getElem_zipWith ..
  simp only [balancesFit, List.all_eq_true, List.mem_append, decide_eq_true_eq] at hfits
  simp only [playerAfter, bankAfter, hcode, ne_eq, not_true_eq_false, if_false, applyDeltas]
  constructor
  · rw [hget, toNat_applied (hnone _ (.inl rfl)) (hfits _ (.inl (by simp [hmem])))]
  · rw [hget, toNat_applied (hnone _ (.inr rfl)) (hfits _ (.inr (by simp [hmem])))]

/-! ## A file that is written -/

variable {α : Type}

theorem loadFile_update {decode : Bytes → Option α} {filename other : Bytes}
    {content : Option Bytes} (h : filename ≠ other) :
    loadFile (Function.update store (.domains, other) content) filename true decode =
      loadFile store filename true decode := by
  simp [loadFile, flatfileRead, h]

/-- Where a file is about one member of a family, only that member is written with it. -/
theorem loadFile_written {ι : Type} [DecidableEq ι] (filename : ι → Bytes)
    (decode : ι → Bytes → Option α) (i j : ι) {old written found : α} {content : Option Bytes}
    (hone : ∀ {i j bytes} {a b : α}, decode i bytes = some a → decode j bytes = some b → i = j)
    (hold : loadFile store (filename i) true (decode i) = .ok old)
    (hwritten : loadFile (Function.update store (.domains, filename i) content) (filename i) true
      (decode i) = .ok written)
    (hfound : loadFile store (filename j) true (decode j) = .ok found) :
    loadFile (Function.update store (.domains, filename i) content) (filename j) true (decode j) =
      .ok (if j = i then written else found) := by
  split
  · next heq => exact heq ▸ hwritten
  · next hne =>
      have hname : filename j ≠ filename i := by
        intro hname
        obtain ⟨-, bytes, hbytes, -, hdecode⟩ := loadFile_eq_ok.mp hold
        obtain ⟨-, _, hbytes', -, hdecode'⟩ := loadFile_eq_ok.mp hfound
        rw [hname] at hbytes'
        cases hbytes.symm.trans hbytes'
        exact hne (hone hdecode' hdecode)
      rw [loadFile_update hname, hfound]

theorem filename_apart {pid : BitVec 32} {account : Bytes} {racewar : BitVec 8} :
    playerFilename pid ≠ bankFilename account racewar := fun h =>
  absurd (show some (112 : UInt8) = some 98 from congrArg List.head? h) (by decide)

theorem decodePlayer_one {pid other : BitVec 32} {bytes : Bytes} {found : PlayerAuthority}
    (h : decodePlayer sha256 pid bytes = some player)
    (h' : decodePlayer sha256 other bytes = some found) : pid = other := by
  simp only [decodePlayer, Option.bind_eq_some_iff, Option.filter_eq_some_iff, validPlayer,
    Bool.and_eq_true, beq_iff_eq] at h h'
  obtain ⟨envelope, henvelope, hread, ⟨⟨⟨rfl, -⟩, -⟩, -⟩, -⟩ := h
  obtain ⟨_, henvelope', hread', ⟨⟨⟨rfl, -⟩, -⟩, -⟩, -⟩ := h'
  cases henvelope.symm.trans henvelope'
  cases hread.symm.trans hread'
  rfl

theorem decodeBank_one {key other : Bytes × BitVec 8} {bytes : Bytes} {found : BankRecord}
    (h : decodeBank sha256 key.1 key.2 bytes = some bank)
    (h' : decodeBank sha256 other.1 other.2 bytes = some found) : key = other := by
  simp only [decodeBank, Option.filter_eq_some_iff, decide_eq_true_eq] at h h'
  obtain ⟨hread, haccount, hracewar⟩ := h
  obtain ⟨hread', haccount', hracewar'⟩ := h'
  cases hread.symm.trans hread'
  exact Prod.ext (Option.some.inj (haccount.symm.trans haccount')) (hracewar.symm.trans hracewar')

/-! ## The books of one command -/

theorem playerAfter_kept (request : CurrencyRequest) (player : PlayerAuthority)
    (bank : BankRecord) : ∃ wallet revision, playerAfter request player bank =
      { player with record := { player.record with wallet, walletRevision := revision } } := by
  unfold playerAfter
  split <;> exact ⟨_, _, rfl⟩

theorem after_refused (h : ¬ currencyCode request player bank = 0) :
    playerAfter request player bank = player ∧ bankAfter request player bank = bank :=
  ⟨if_pos h, if_pos h⟩

theorem settledPlayer_form {encoded : Bytes} (h : PlayerForm player)
    (hpasses : Passes request player bank encoded)
    (hid : criticalOperationIdIsZero request.command.operationId = false) :
    PlayerForm (settledPlayer request player bank encoded) := by
  unfold settledPlayer
  obtain ⟨wallet, revision, heq⟩ := playerAfter_kept request player bank
  rw [heq]
  refine ⟨h.account, h.gameplay, ?_, ?_, ?_⟩
  · simpa [receipted] using Nat.succ_le_of_lt hpasses.room
  · simp only [receipted, List.forall_mem_append, List.forall_mem_singleton]
    exact ⟨h.operations, hpasses.size.trans_le (by decide), hid⟩
  · simpa [receipted, List.nodup_append, h.distinct] using hpasses.fresh

/-- The books where only the player and the bank of a command are not as before. -/
theorem ledger_of_loads {encoded : Bytes} (hpasses : Passes request player bank encoded)
    (hload : loadPlayerAuthority sha256 store request.payload.pid true = .ok player)
    (hbank : loadBank sha256 store request.account request.payload.racewar true = .ok bank)
    (hplayers : ∀ {pid found}, loadPlayerAuthority sha256 store pid true = .ok found →
      loadPlayerAuthority sha256 after pid true = .ok
        (if pid = request.payload.pid then settledPlayer request player bank encoded else found))
    (hbanks : ∀ {account racewar found}, loadBank sha256 store account racewar true = .ok found →
      loadBank sha256 after account racewar true = .ok
        (if (account, racewar) = (request.account, request.payload.racewar) then
          bankAfter request player bank else found)) :
    Ledger sha256 (if currencyCode request player bank = 0 then [request] else []) store after := by
  have hkept : player.operations <+: (settledPlayer request player bank encoded).operations ∧
      SameButWallet player (settledPlayer request player bank encoded) ∧
      request.command.operationId ∈ identities (settledPlayer request player bank encoded) := by
    unfold settledPlayer
    obtain ⟨wallet, revision, heq⟩ := playerAfter_kept request player bank
    rw [heq]
    refine ⟨List.prefix_append .., ⟨wallet, revision, rfl⟩, ?_⟩
    rw [identities, receipted, List.map_append]
    exact List.mem_append_right _ (List.mem_singleton_self _)
  refine ⟨fun {pid found} hfound => ⟨_, hplayers hfound, ?_⟩,
    fun {account racewar found} hfound => ⟨_, hbanks hfound, fun index => ?_⟩, ?_, ?_⟩
  · by_cases hpid : pid = request.payload.pid
    · subst hpid
      cases hload.symm.trans hfound
      rw [if_pos rfl]
      refine ⟨hkept.1, hkept.2.1, fun index => ?_⟩
      change (((playerAfter request player bank).record.wallet.get index).toNat : Int) = _
      split
      · next hcode => simpa [intoWallet] using (balances_applied hcode hpasses.fits index).1
      · next hcode => simp [after_refused hcode]
    · rw [if_neg hpid]
      refine ⟨List.prefix_refl _, SameButWallet.refl _, fun index => ?_⟩
      split <;> simp [intoWallet, Ne.symm hpid]
  · by_cases hkey : (account, racewar) = (request.account, request.payload.racewar)
    · cases hkey
      cases hbank.symm.trans hfound
      rw [if_pos rfl]
      split
      · next hcode => simpa [intoBank] using (balances_applied hcode hpasses.fits index).2
      · next hcode => simp [after_refused hcode]
    · rw [if_neg hkey]
      split <;> simp [intoBank, Ne.symm hkey]
  · intro other hmem
    split at hmem
    · obtain rfl := List.mem_singleton.mp hmem
      refine ⟨fun hfound => ?_, _, hplayers hload, ?_⟩
      · cases hload.symm.trans hfound
        exact hpasses.fresh
      · rw [if_pos rfl]
        exact hkept.2.2
    · cases hmem
  · split <;> simp

section

variable {encoded bytes bankBytes : Bytes}
  (hload : loadPlayerAuthority sha256 store request.payload.pid true = .ok player)
  (hbank : loadBank sha256 store request.account request.payload.racewar true = .ok bank)
  (hid : criticalOperationIdIsZero request.command.operationId = false)
  (hpasses : Passes request player bank encoded)
  (hencode : encodePlayerAuthority sha256 (settledPlayer request player bank encoded) = some bytes)

include hload in
theorem settledPlayer_pid :
    (settledPlayer request player bank encoded).record.pid = request.payload.pid := by
  obtain ⟨wallet, revision, heq⟩ := playerAfter_kept request player bank
  rw [← (loadPlayerAuthority_form hload).2.1, settledPlayer, heq]
  rfl

theorem loadPlayer_eq_ok {pid : BitVec 32} :
    loadPlayerAuthority sha256 store pid true = .ok player ↔ 0 < pid.toInt ∧
      loadFile store (playerFilename pid) true (decodePlayer sha256 pid) = .ok player := by
  unfold loadPlayerAuthority
  split
  · next hpid => simp [Int.not_lt.mpr hpid]
  · next hpid => simp [Int.not_le.mp hpid]

include hload hid hpasses hencode in
/-- The player that is written is read back from whatever lies beside him. -/
theorem player_written {base : Disk} (hbase : ∀ pid, loadPlayerAuthority sha256 base pid true =
    loadPlayerAuthority sha256 store pid true) {pid : BitVec 32} {found : PlayerAuthority}
    (hfound : loadPlayerAuthority sha256 store pid true = .ok found) :
    loadPlayerAuthority sha256 (Function.update base
      (.domains, playerFilename request.payload.pid) (some bytes)) pid true =
        .ok (if pid = request.payload.pid
          then settledPlayer request player bank encoded else found) := by
  have hform := loadPlayerAuthority_form hload
  have hpid := @settledPlayer_pid _ _ request player bank encoded hload
  rw [← hbase] at hfound hload
  obtain ⟨hpositive, hfile⟩ := loadPlayer_eq_ok.mp hload
  have hwritten := @loadPlayerAuthority_written _ (Function.update base
    (.domains, playerFilename request.payload.pid) (some bytes)) _ _
    (settledPlayer_form hform.2.2 hpasses hid) (hpid ▸ hpositive) hencode
    (hpid ▸ (loadFile_eq_ok.mp hfile).1) (hpid ▸ Function.update_self ..)
  rw [hpid] at hwritten
  exact loadPlayer_eq_ok.mpr ⟨(loadPlayer_eq_ok.mp hfound).1, loadFile_written playerFilename
    (decodePlayer sha256) _ _ decodePlayer_one hfile (loadPlayer_eq_ok.mp hwritten).2
    (loadPlayer_eq_ok.mp hfound).2⟩

include hbank in
theorem bankAfter_names (hsettled : Settled sha256 store) :
    (bankAfter request player bank).accountName = request.account ∧
      (bankAfter request player bank).racewar = request.payload.racewar := by
  obtain ⟨-, bytes, -, -, hdecode⟩ := loadFile_eq_ok.mp hbank
  have hracewar := (of_decide_eq_true (Option.filter_eq_some_iff.mp hdecode).2).2
  have hname := hsettled.banks hbank
  unfold bankAfter
  split <;> exact ⟨hname, hracewar⟩

include hbank in
/-- So is the bank, and it goes by its account. -/
theorem bank_written (hsettled : Settled sha256 store)
    (hcanonical : canonicalAccount request.account = some request.account)
    (hencode : encodeBankRecord sha256 (bankAfter request player bank) = some bankBytes)
    {account : Bytes} {racewar : BitVec 8} {found : BankRecord} :
    let base := Function.update store
      (.domains, bankFilename request.account request.payload.racewar) (some bankBytes)
    (loadBank sha256 base account racewar true = .ok found → found.accountName = account) ∧
      (loadBank sha256 store account racewar true = .ok found →
        loadBank sha256 base account racewar true =
          .ok (if (account, racewar) = (request.account, request.payload.racewar) then
            bankAfter request player bank else found)) := by
  have hnames := @bankAfter_names _ _ _ player _ hbank hsettled
  have hread (account : Bytes) (racewar : BitVec 8) :=
    @decodeBank_written account _ bankBytes _ racewar (hnames.1.symm ▸ hcanonical) hencode
  intro base
  have hself : base (.domains, bankFilename request.account request.payload.racewar) =
      some bankBytes := Function.update_self ..
  have hwritten : loadBank sha256 base request.account request.payload.racewar true =
      .ok (bankAfter request player bank) := loadFile_eq_ok.mpr ⟨(loadFile_eq_ok.mp hbank).1,
    bankBytes, hself, (encodeBankRecord_eq_some hencode).1, by rw [hread, if_pos hnames]⟩
  constructor
  · intro hfound
    by_cases hname : bankFilename account racewar =
        bankFilename request.account request.payload.racewar
    · obtain ⟨-, _, hbytes, -, hdecode⟩ := loadFile_eq_ok.mp hfound
      rw [hname] at hbytes
      cases hself.symm.trans hbytes
      rw [hread, Option.ite_none_right_eq_some] at hdecode
      obtain ⟨⟨rfl, -⟩, heq⟩ := hdecode
      cases heq
      rfl
    · exact hsettled.banks ((loadFile_update hname).symm.trans hfound)
  · exact loadFile_written (fun key : Bytes × BitVec 8 => bankFilename key.1 key.2)
      (fun key => decodeBank sha256 key.1 key.2) (request.account, request.payload.racewar)
      (account, racewar) decodeBank_one hbank hwritten

end

/-- Writing files of domains leaves settled files, if the banks still go by their accounts. -/
theorem settled_writes (hsettled : Settled sha256 store) {images : List AfterImage}
    (hnames : ∀ image ∈ images, DomainName image.filename)
    (hbanks : ∀ {account racewar bank}, loadBank sha256 (applyWrites (images.map writeOf) store)
      account racewar true = .ok bank → bank.accountName = account) :
    Settled sha256 (applyWrites (images.map writeOf) store) := by
  have hsame {key : Directory × Bytes} (hkey : ¬ DomainName key.2) :=
    applyWrites_of_absent (notMem_writes hnames hkey) store
  exact ⟨(hsame (by decide)).trans hsettled.authority, (hsame (by decide)).trans hsettled.legacy,
    (hsame (by decide)).trans hsettled.redo, hbanks⟩

/-- What a decision leads to: settled files, and books with the command in them if it is
applied. -/
theorem decide_ledger (hsettled : Settled sha256 store)
    (hrequest : currencyRequest sha256 command = some request)
    (hdecision : decideCurrency sha256 request store true true = decision) :
    decision.Proper sha256 ∧ Settled sha256 (decision.effect store) ∧
      ∃ settled, Ledger sha256 settled store (decision.effect store) ∧
        settled.map CurrencyRequest.command =
          if decision.result.outcome = .applied then [command] else [] := by
  obtain ⟨rfl, hid, hcanonical⟩ := currencyRequest_eq_some hrequest
  have hanswer {result : CriticalApplyResult} (heq : .answer result = decision)
      (hresult : result.outcome ≠ .applied) :
      decision.Proper sha256 ∧ Settled sha256 (decision.effect store) ∧
        ∃ settled, Ledger sha256 settled store (decision.effect store) ∧
          settled.map CurrencyRequest.command =
            if decision.result.outcome = .applied then [request.command] else [] :=
    heq ▸ ⟨trivial, hsettled, [], Ledger.refl _, (if_neg hresult).symm⟩
  unfold decideCurrency at hdecision
  cases hload : loadPlayerAuthority sha256 store request.payload.pid true with
  | error refusal =>
      rw [hload] at hdecision
      exact hanswer hdecision (by cases refusal <;> decide)
  | ok player =>
  cases hbank : loadBank sha256 store request.account request.payload.racewar true with
  | error refusal =>
      rw [hload, hbank] at hdecision
      exact hanswer hdecision (by cases refusal <;> decide)
  | ok bank =>
  rw [hload, hbank] at hdecision
  have hbeside {base : Disk} {content : Option Bytes} {account : Bytes} {racewar : BitVec 8} :
      loadBank sha256 (Function.update base (.domains, playerFilename request.payload.pid) content)
        account racewar true = loadBank sha256 base account racewar true :=
    loadFile_update filename_apart.symm
  obtain ⟨result, heq, hresult⟩ | ⟨encoded, result, bytes, hpasses, hencode, hdone⟩ :=
    @decideLoaded_cases sha256 request player bank
  · exact hanswer (heq.symm.trans hdecision) hresult
  have hpid := @settledPlayer_pid _ _ request player bank encoded hload
  have hname := (loadFile_eq_ok.mp (loadPlayer_eq_ok.mp hload).2).1
  obtain ⟨hcode, hresult, heq⟩ |
    ⟨hcode, hresult, bankBytes, transaction, log, rfl, hbankBytes, hlog, heq⟩ := hdone
  · rw [show (playerAfter request player bank).record.pid = request.payload.pid from hpid] at heq
    obtain rfl := heq.symm.trans hdecision
    refine ⟨⟨.inr rfl, hname⟩, settled_writes hsettled (List.forall_mem_singleton.mpr (.inr rfl))
      fun hfound =>
      hsettled.banks (hbeside.symm.trans hfound), _, ledger_of_loads hpasses hload hbank
        (player_written hload hid hpasses hencode fun _ => rfl) fun hfound => ?_, ?_⟩
    · refine (hbeside.trans hfound).trans ?_
      split
      · next hkey =>
          cases hkey
          rw [Except.ok.inj (hfound.symm.trans hbank), (after_refused hcode).2]
      · rfl
    · rw [if_neg hcode]
      exact (if_neg hresult).symm
  · obtain rfl := heq.symm.trans hdecision
    have hnames := @bankAfter_names _ _ _ player _ hbank hsettled
    have hlogged := @decodeTransaction_written _ _ ⟨[⟨request.payload.pid, bytes⟩],
        [⟨request.account, request.payload.racewar, bankBytes⟩]⟩
      (List.forall_mem_singleton.mpr fun rest => by
        rw [← hpid]
        exact readTransactionPlayer_run (hpid ▸ (loadPlayerAuthority_form hload).1) hencode)
      (List.forall_mem_singleton.mpr fun rest => by
        rw [← hnames.1, ← hnames.2]
        exact readTransactionBank_run (hnames.1.symm ▸ hcanonical) hbankBytes)
      (List.nodup_singleton _) (List.nodup_singleton _) hlog
    have hbanks {account racewar found} := @bank_written _ _ _ player _ _ hbank hsettled hcanonical
      hbankBytes account racewar found
    have hvalid : ∀ image ∈ DomainTransaction.images ⟨[⟨request.payload.pid, bytes⟩],
        [⟨request.account, request.payload.racewar, bankBytes⟩]⟩, validName image.filename = true :=
      List.forall_mem_cons.mpr ⟨(loadFile_eq_ok.mp hbank).1, List.forall_mem_singleton.mpr hname⟩
    refine ⟨⟨hlogged, hvalid⟩, settled_writes hsettled (images_names _) fun hfound => ?_, _,
      ledger_of_loads hpasses hload hbank (player_written hload hid hpasses hencode fun pid => ?_)
        fun hfound => hbeside.trans (hbanks.2 hfound), ?_⟩
    · exact hbanks.1 (hbeside.symm.trans hfound)
    · exact congrArg (ite (pid.toInt ≤ 0) _) (loadFile_update filename_apart)
    · rw [if_pos hcode]
      exact (if_pos hresult).symm

/-! ## A call and a run -/

theorem freshAnswer_final (code : BitVec 32) (revision : BitVec 64) (encoded : Bytes) :
    (freshAnswer code revision encoded).outcome.tryAgain = false := by
  unfold freshAnswer
  dsimp only
  split <;> rfl

theorem decideLoaded_final (request : CurrencyRequest) (player : PlayerAuthority)
    (bank : BankRecord) :
    (decideLoaded sha256 request player bank).result.outcome.tryAgain = false := by
  unfold decideLoaded
  split
  · rfl
  split
  · unfold replayed
    split
    · rfl
    · split
      · rfl
      · dsimp only [Decision.result]
        split <;> rfl
  split
  · rfl
  split
  · rfl
  unfold decideFiles
  split
  · rfl
  dsimp only
  split
  · split
    · rfl
    · exact freshAnswer_final ..
  · split
    · rfl
    · exact freshAnswer_final ..

theorem loadFile_ne_ioError {decode : Bytes → Option α} {filename : Bytes} :
    loadFile store filename true decode ≠ .error .ioError := by
  have hread : flatfileRead store filename domainMaximumBytes true ≠ .ioError := by
    unfold flatfileRead
    split
    · nofun
    · rw [if_neg (by decide)]
      split
      · nofun
      · split <;> nofun
  unfold loadFile
  split
  · nofun
  · nofun
  · next h => exact absurd h hread
  · split <;> nofun

/-- Where everything can be read, the answer is not one to try again. -/
theorem decideCurrency_final (request : CurrencyRequest) (store : Disk) :
    (decideCurrency sha256 request store true true).result.outcome.tryAgain = false := by
  have hplayer : loadPlayerAuthority sha256 store request.payload.pid true ≠ .error .ioError := by
    unfold loadPlayerAuthority
    split
    · nofun
    · exact loadFile_ne_ioError
  have hbank : loadBank sha256 store request.account request.payload.racewar true ≠
      .error .ioError := loadFile_ne_ioError
  unfold decideCurrency
  split
  · next refusal hload =>
      cases refusal with
      | ioError => exact absurd hload hplayer
      | _ => rfl
  · next refusal _ hload =>
      cases refusal with
      | ioError => exact absurd hload hbank
      | _ => rfl
  · exact decideLoaded_final ..

theorem loadFile_read {α : Type} {decode : Bytes → Option α} {filename : Bytes} (readable : Bool) :
    loadFile store filename readable decode = loadFile store filename true decode ∨
      loadFile store filename readable decode = .error .ioError := by
  cases readable with
  | true => exact .inl rfl
  | false =>
      unfold loadFile flatfileRead
      cases validName filename <;> simp

/-- Whatever cannot be read, the decision is the one over the files or that nothing was done. -/
theorem decideCurrency_read (playerReadable bankReadable : Bool) :
    decideCurrency sha256 request store playerReadable bankReadable =
        decideCurrency sha256 request store true true ∨
      decideCurrency sha256 request store playerReadable bankReadable =
        .answer (retryable 0 eio) := by
  have hplayer : loadPlayerAuthority sha256 store request.payload.pid playerReadable =
        loadPlayerAuthority sha256 store request.payload.pid true ∨
      loadPlayerAuthority sha256 store request.payload.pid playerReadable = .error .ioError := by
    unfold loadPlayerAuthority
    split
    · exact .inl rfl
    · exact loadFile_read playerReadable
  unfold decideCurrency
  obtain hplayer | hplayer := hplayer
  · rw [hplayer]
    cases loadPlayerAuthority sha256 store request.payload.pid true with
    | error refusal => exact .inl rfl
    | ok player =>
        obtain hbank | hbank : _ ∨ loadBank sha256 store request.account request.payload.racewar
          bankReadable = _ := loadFile_read bankReadable
        · exact .inl (by rw [loadBank, hbank]; rfl)
        · exact .inr (by rw [hbank]; rfl)
  · exact .inr (by rw [hplayer]; rfl)

variable (sha256) in
/-- A command carried out over settled files in one step. -/
def whole (store : Disk) (command : CriticalCommand) : CriticalApplyResult × Disk :=
  match currencyRequest sha256 command with
  | none => (terminal 0 einval, store)
  | some request =>
      let decision := decideCurrency sha256 request store true true
      (decision.result, decision.effect store)

theorem whole_ledger (hsettled : Settled sha256 store) (command : CriticalCommand) :
    Settled sha256 (whole sha256 store command).2 ∧
      ∃ settled, Ledger sha256 settled store (whole sha256 store command).2 ∧
        settled.map CurrencyRequest.command =
          if (whole sha256 store command).1.outcome = .applied then [command] else [] := by
  unfold whole
  cases hrequest : currencyRequest sha256 command with
  | none => exact ⟨hsettled, [], Ledger.refl _, rfl⟩
  | some request => exact (decide_ledger hsettled hrequest rfl).2

/-- A call takes effect whole or not at all, and whole when it is answered for good. -/
theorem call_target (h : Sound sha256 disk) (command : CriticalCommand) (steps : CurrencySteps) :
    let called := applyCurrencyCommand sha256 disk command steps
    let carried := whole sha256 ((domainLog sha256).target disk) command
    Readable sha256 called.2 ∧
    ((domainLog sha256).target called.2 = (domainLog sha256).target disk ∨
      (domainLog sha256).target called.2 = carried.2) ∧
    ∀ found, called.1 = some found → found.outcome.tryAgain = false →
      found = carried.1 ∧ (domainLog sha256).target called.2 = carried.2 := by
  dsimp only
  rcases hcalled : applyCurrencyCommand sha256 disk command steps with ⟨answer, after⟩
  generalize hcarried : whole sha256 ((domainLog sha256).target disk) command = carried
  have hstay (hreadable : Readable sha256 after)
      (htarget : (domainLog sha256).target after = (domainLog sha256).target disk)
      (hanswer : ∀ found, answer = some found → found.outcome.tryAgain = true) :
      Readable sha256 after ∧
      ((domainLog sha256).target after = (domainLog sha256).target disk ∨
        (domainLog sha256).target after = carried.2) ∧
      ∀ found, answer = some found → found.outcome.tryAgain = false →
        found = carried.1 ∧ (domainLog sha256).target after = carried.2 :=
    ⟨hreadable, .inl htarget, fun found hfound hfinal =>
      absurd ((hanswer found hfound).symm.trans hfinal) (by decide)⟩
  have hretry (code : BitVec 32) (found : CriticalApplyResult)
      (hfound : some (retryable 0 code) = some found) : found.outcome.tryAgain = true := by
    cases hfound
    rfl
  unfold applyCurrencyCommand at hcalled
  unfold whole at hcarried
  cases hrequest : currencyRequest sha256 command with
  | none =>
      rw [hrequest] at hcalled hcarried
      cases hcalled
      cases hcarried
      exact ⟨h.readable, .inl rfl, fun found hfound _ => ⟨(Option.some.inj hfound).symm, rfl⟩⟩
  | some request =>
  rw [hrequest] at hcalled hcarried
  cases hlocked : steps.locked with
  | failed =>
      rw [hlocked] at hcalled
      cases hcalled
      exact hstay h.readable rfl (hretry _)
  | crashed =>
      rw [hlocked] at hcalled
      cases hcalled
      exact hstay h.readable rfl nofun
  | ok =>
  obtain ⟨hreadable, htarget, hrecovered⟩ := recoverAuthority_target h steps.recovery
  rcases hrecovery : recoverAuthority sha256 disk steps.recovery with ⟨recovery, recovered⟩
  rw [hrecovery] at hreadable htarget hrecovered
  simp only [hlocked, hrecovery] at hcalled
  obtain ⟨rfl, rfl⟩ | rfl | rfl := hrecovered
  · dsimp only at hcalled
    split at hcalled
    · cases hcalled
      exact hstay hreadable htarget nofun
    obtain hread | hread := @decideCurrency_read sha256 ((domainLog sha256).target disk) request
      (steps.player == .ok) (steps.bank == .ok)
    · rw [hread] at hcalled
      have hmoved := carryOut_target h.settled (decide_ledger h.settled hrequest rfl).1 steps.first
        steps.rest
      rw [hcalled] at hmoved
      rwa [← hcarried]
    · rw [hread] at hcalled
      cases hcalled
      exact hstay hreadable htarget (hretry _)
  · cases hcalled
    exact hstay hreadable htarget nofun
  · cases hcalled
    exact hstay hreadable htarget (hretry _)

/-- A command, and how the file operations of its call end. -/
structure CurrencyCall where
  command : CriticalCommand
  steps : CurrencySteps

section

variable (sha256)

def callStep (disk : Disk) (call : CurrencyCall) : Disk :=
  (applyCurrencyCommand sha256 disk call.command call.steps).2

/-- The command of a call that answers that it was applied. -/
def confirmed (disk : Disk) (call : CurrencyCall) : List CriticalCommand :=
  if (applyCurrencyCommand sha256 disk call.command call.steps).1.map CriticalApplyResult.outcome =
    some .applied then [call.command] else []

/-- From one disk to a later one some of the commands were settled, in their order, and all
those that were confirmed. -/
def Settles (disk after : Disk) (confirmed commands : List CriticalCommand) : Prop :=
  Sound sha256 after ∧ ∃ settled,
    Ledger sha256 settled ((domainLog sha256).target disk) ((domainLog sha256).target after) ∧
    confirmed.Sublist (settled.map CurrencyRequest.command) ∧
    (settled.map CurrencyRequest.command).Sublist commands

end

theorem call_settles (h : Sound sha256 disk) (call : CurrencyCall) :
    Settles sha256 disk (callStep sha256 disk call)
    (confirmed sha256 disk call) [call.command] := by
  obtain ⟨hreadable, hwhere, hfinal⟩ := call_target h call.command call.steps
  obtain ⟨hsettled, settled, hledger, hlist⟩ := whole_ledger h.settled call.command
  unfold Settles callStep confirmed
  by_cases hanswer : (applyCurrencyCommand sha256 disk call.command call.steps).1.map
    CriticalApplyResult.outcome = some .applied
  · obtain ⟨found, hfound, happlied⟩ := Option.map_eq_some_iff.mp hanswer
    obtain ⟨rfl, htarget⟩ := hfinal found hfound (by rw [happlied]; rfl)
    rw [if_pos happlied] at hlist
    rw [if_pos hanswer, htarget]
    exact ⟨⟨hreadable, htarget ▸ hsettled⟩, settled, hledger, by rw [hlist], by rw [hlist]⟩
  · rw [if_neg hanswer]
    obtain htarget | htarget := hwhere
    · rw [htarget]
      exact ⟨⟨hreadable, htarget ▸ h.settled⟩, [], Ledger.refl _, .refl _, List.nil_sublist _⟩
    · rw [htarget]
      exact ⟨⟨hreadable, htarget ▸ hsettled⟩, settled, hledger, List.nil_sublist _, by
        rw [hlist]
        split <;> simp⟩

/-! ## A player and a bank -/

/-- Player 7 of account `bob`, with five copper. -/
def bob : PlayerAuthority where
  record := { pid := 7, accountName := asciiBytes "bob", racewar := 1, walletRevision := 0
              epicRevision := 0, fragRevision := 0, wallet := #v[5, 0, 0, 0], epics := 0
              frags := 0, oldFrags := 0, recentPvpDeaths := [], completedEpicZones := []
              baseStatRevision := 0, baseStats := Vector.replicate 10 0 }
  operations := []

def bobsBank : BankRecord := ⟨asciiBytes "bob", 1, 1, #v[0, 0, 9, 0]⟩

def bobsDisk : Disk :=
  Function.update (Function.update (fun _ => none) (.domains, playerFilename 7)
    (encodePlayerAuthority Sha256.hash bob)) (.domains, bankFilename (asciiBytes "bob") 1)
      (encodeBankRecord Sha256.hash bobsBank)

theorem sound_bobsDisk : Sound Sha256.hash bobsDisk := by
  have hredo : bobsDisk redoKey = none := by decide
  refine ⟨(unlogged hredo).1, ?_⟩
  rw [(unlogged hredo).2]
  refine ⟨by decide, by decide, hredo, fun hload => ?_⟩
  obtain ⟨-, bytes, hbytes, -, hdecode⟩ := loadFile_eq_ok.mp hload
  rw [bobsDisk, Function.update_apply] at hbytes
  split at hbytes
  · rw [decodeBank_written (by decide) hbytes, Option.ite_none_right_eq_some] at hdecode
    obtain ⟨⟨haccount, -⟩, heq⟩ := hdecode
    cases heq
    exact haccount
  · rw [Function.update_of_ne fun h => filename_apart (Prod.mk.inj h).2.symm] at hbytes
    cases hbytes

/-- Three copper are put into the bank. -/
def bobsCommand : CriticalCommand :=
  { (currencyCommandBuild Sha256.hash ⟨1 :: List.replicate 15 0, rfl⟩
      ⟨7, 1, 1, 0, Vector.ofFn fun index => (asciiBytes "bob").getD index 0,
        ⟨#v[-3, 0, 0, 0]⟩, ⟨#v[3, 0, 0, 0]⟩⟩ 0 1 CriticalSourceSite.command
      CriticalDeadlineClass.interactive).get (by decide) with acceptedAtUsec := 9 }

/-- The process dies behind the log; the next one asks again. -/
def bobsFirst : CurrencyCall := ⟨bobsCommand, { first := .crashed true }⟩

def bobsRetry : CurrencyCall := ⟨bobsCommand, {}⟩

/-! ## Runs of calls -/

theorem run_sound (h : Sound sha256 disk) (calls : List CurrencyCall) :
    Sound sha256 (run (callStep sha256) disk calls) :=
  run_invariant (P := Sound sha256) (fun _ call hs => (call_settles hs call).1) calls h

/-- **A run of currency calls settles each command once.** Whatever the calls are, whichever of
their file operations fail and wherever processes die: what the files say at the end, once the
log is replayed, is what they said with some of the commands settled, in their order, among
them all that were confirmed. -/
theorem currency_calls_settle (h : Sound sha256 disk) (calls : List CurrencyCall) :
    Settles sha256 disk (run (callStep sha256) disk calls)
      (output (callStep sha256) (confirmed sha256) disk calls)
      (calls.map CurrencyCall.command) := by
  induction calls generalizing disk with
  | nil => exact ⟨h, [], Ledger.refl _, .refl _, .refl _⟩
  | cons call calls ih =>
      obtain ⟨hsound, first, hfirst, hconfirmed, hfrom⟩ := call_settles h call
      obtain ⟨hlast, rest, hrest, hconfirmed', hfrom'⟩ := ih hsound
      refine ⟨hlast, first ++ rest, hfirst.trans hrest, ?_, ?_⟩
      · rw [List.map_append]
        exact hconfirmed.append hconfirmed'
      · rw [List.map_append]
        exact hfrom.append hfrom'

/-- The wallet pays once. -/
theorem currency_calls_settle_bob : Settles Sha256.hash bobsDisk
      (run (callStep Sha256.hash) bobsDisk [bobsFirst, bobsRetry])
      (output (callStep Sha256.hash) (confirmed Sha256.hash) bobsDisk [bobsFirst, bobsRetry])
      [bobsCommand, bobsCommand] ∧
    (loadPlayerAuthority Sha256.hash (run (callStep Sha256.hash) bobsDisk [bobsFirst, bobsRetry]) 7
      true).toOption.map (·.record.wallet) = some #v[2, 0, 0, 0] :=
  ⟨currency_calls_settle sound_bobsDisk [bobsFirst, bobsRetry], by decide +kernel⟩

/-- **Currency calls are atomic.** In every state a run of calls reaches, a call takes effect in
one step or not at all, however its file operations end; an answer that is not to try again is
the answer of that step, and the step is taken. -/
theorem currency_call_atomic (h : Sound sha256 disk) (calls : List CurrencyCall)
    (call : CurrencyCall) :
    let before := run (callStep sha256) disk calls
    let called := applyCurrencyCommand sha256 before call.command call.steps
    let carried := whole sha256 ((domainLog sha256).target before) call.command
    ((domainLog sha256).target called.2 = (domainLog sha256).target before ∨
      (domainLog sha256).target called.2 = carried.2) ∧
    ∀ found, called.1 = some found → found.outcome.tryAgain = false →
      found = carried.1 ∧ (domainLog sha256).target called.2 = carried.2 := by
  exact (call_target (run_sound h calls) call.command call.steps).2

theorem currency_call_atomic_bob :
    (domainLog Sha256.hash).target
        (callStep Sha256.hash (callStep Sha256.hash bobsDisk bobsFirst) bobsRetry) =
      (whole Sha256.hash ((domainLog Sha256.hash).target (callStep Sha256.hash bobsDisk bobsFirst))
        bobsCommand).2 := by
  have hanswered : (applyCurrencyCommand Sha256.hash (callStep Sha256.hash bobsDisk bobsFirst)
      bobsCommand {}).1.any (fun found => !found.outcome.tryAgain) = true := by
    decide +kernel
  obtain ⟨found, hfound, hfinal⟩ := (Option.any_eq_true _ _).mp hanswered
  exact ((currency_call_atomic sound_bobsDisk [bobsFirst] bobsRetry).2 found hfound
    (Bool.not_eq_true' _ ▸ hfinal)).2

/-- **A call without a failure settles.** In every state a run of calls reaches, whatever died on
the way, such a call answers what the one step answers, for good, and takes it; a command that
is in order leaves no log. -/
theorem currency_call_settles (h : Sound sha256 disk) (calls : List CurrencyCall)
    (command : CriticalCommand) :
    let before := run (callStep sha256) disk calls
    let called := applyCurrencyCommand sha256 before command {}
    let carried := whole sha256 ((domainLog sha256).target before) command
    called.1 = some carried.1 ∧ carried.1.outcome.tryAgain = false ∧
      (domainLog sha256).target called.2 = carried.2 ∧
      (currencyRequest sha256 command ≠ none → called.2 redoKey = none) := by
  intro before called carried
  have hbefore : Sound sha256 before := run_sound h calls
  unfold called carried applyCurrencyCommand whole
  cases hrequest : currencyRequest sha256 command with
  | none => exact ⟨rfl, rfl, rfl, fun hne => absurd rfl hne⟩
  | some request =>
      obtain ⟨hproper, hsettled, -⟩ := decide_ledger hbefore.settled hrequest rfl
      simp only [recoverAuthority_done hbefore, beq_self_eq_true, reduceCtorEq, or_self, if_false,
        carryOut_done hbefore.settled hproper]
      exact ⟨trivial, decideCurrency_final request _, target_settled hsettled.redo,
        fun _ => hsettled.redo⟩

theorem currency_call_settles_bob :
    (applyCurrencyCommand Sha256.hash (callStep Sha256.hash bobsDisk bobsFirst) bobsCommand {}).1 =
      some (whole Sha256.hash
        ((domainLog Sha256.hash).target (callStep Sha256.hash bobsDisk bobsFirst))
        bobsCommand).1 :=
  (currency_call_settles sound_bobsDisk [bobsFirst] bobsCommand).1

end Duris.Flatfile.PlayerDomain
