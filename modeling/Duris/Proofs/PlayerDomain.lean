import Duris.Flatfile.CurrencyRepository
import Duris.Lib.RedoLog
import Duris.Lib.Traverse
import Duris.Proofs.AuthorityTransaction

/-!
# Domain files read back

What the repository writes it reads: the file of a player, the file of a bank, and the redo
log over the two. The log is a `RedoLog`, as its files have names of their own; what makes
it readable is that the bank goes by the same account inside its file as in the log, which
is what a loaded bank is asked for nowhere.
-/

namespace Duris.Flatfile

open Reader

theorem readArray_eq_ok {bits count : Nat} [Octets bits]
    {numbers : Vector (BitVec bits) count} {input rest : Bytes} :
    readArray bits count input = .ok (numbers, rest) ↔
      input = numbers.toList.flatMap appendLe ++ rest := by
  simp only [readArray, bind_eq_ok, many_eq_ok field_eq_ok, ofOption_eq_ok]
  constructor
  · rintro ⟨read, mid, ⟨hlength, rfl⟩, hsome, rfl⟩
    rw [dif_pos hlength] at hsome
    cases hsome
    rfl
  · rintro rfl
    refine ⟨numbers.toList, rest, ⟨numbers.length_toList, rfl⟩, ?_, rfl⟩
    rw [dif_pos numbers.length_toList, Option.some.injEq]
    exact Vector.toArray_inj.mp (Array.toArray_toList ..)

namespace PlayerDomain

open Persistence

theorem canonicalCharacter_eq_some : ∀ byte : UInt8, ∀ character ∈ canonicalCharacter byte,
    canonicalCharacter character = some character ∧ character ≠ 0 :=
  byte_forall (by decide +kernel)

variable {input account : Bytes}

/-- A canonical name is its own, and can be read. -/
theorem canonicalAccount_eq_some (h : canonicalAccount input = some account) :
    canonicalAccount account = some account ∧ account ≠ [] ∧
      account.length ≤ accountMaximumBytes ∧ 0 ∉ account := by
  unfold canonicalAccount at h
  split at h
  · cases h
  · next hsize =>
      have hmap := mapM_eq_some_iff.mp h
      have hlength := hmap.length_eq
      rw [not_or, Nat.not_lt, ← List.length_eq_zero_iff] at hsize
      have heach : ∀ character ∈ account, canonicalCharacter character = some character ∧
          character ≠ 0 := by
        intro character hmem
        obtain ⟨byte, -, hbyte⟩ := mem_of_mapM h hmem
        exact canonicalCharacter_eq_some byte character hbyte
      have hne : account ≠ [] := by
        rw [← List.length_pos_iff]
        omega
      have hmax : account.length ≤ accountMaximumBytes := hlength ▸ hsize.2
      refine ⟨?_, hne, hmax, fun hmem => (heach 0 hmem).2 rfl⟩
      rw [canonicalAccount, if_neg (by simp [hne, hmax]), mapM_eq_some_iff]
      exact List.forall₂_same.mpr fun character hmem => (heach character hmem).1

/-- How the names of banks and players begin, and those of other files do not. -/
def DomainName (name : Bytes) : Prop := name.head? = some 98 ∨ name.head? = some 112

instance (name : Bytes) : Decidable (DomainName name) :=
  inferInstanceAs (Decidable (_ ∨ _))

variable {rest : Bytes}

theorem readAccount_run (h : canonicalAccount input = some account) :
    readAccount (encodeAccount account ++ rest) = .ok (account, rest) := by
  obtain ⟨-, hne, hmax, hzero⟩ := canonicalAccount_eq_some h
  have hsize := @toNat_ofNat_of_le _ _ 32 hmax (by decide)
  have hnonzero : BitVec.ofNat 32 account.length ≠ 0 := by
    intro heq
    rw [heq] at hsize
    exact hne (List.length_eq_zero_iff.mp hsize.symm)
  rw [readAccount, encodeAccount, List.append_assoc, field_bind,
    require_bind ⟨hnonzero, hsize.trans_le hmax⟩, raw_bind hsize.symm,
    require_bind (by simpa using hzero)]
  rfl

theorem readCounted_run {bits maximum : Nat} [Octets bits] {numbers : List (BitVec bits)}
    (h : numbers.length ≤ maximum) (hmaximum : maximum < 2 ^ 32) :
    readCounted bits maximum (encodeCounted numbers ++ rest) = .ok (numbers, rest) := by
  have hsize := @toNat_ofNat_of_le _ _ 32 h hmaximum
  rw [readCounted, encodeCounted, List.append_assoc, field_bind, require_bind (hsize.trans_le h),
    many_eq_ok field_eq_ok]
  exact ⟨hsize.symm, rfl⟩

structure OperationForm (operation : DomainOperation) : Prop where
  size : operation.result.length ≤ legacyDomainResultMaxBytes
  identity : criticalOperationIdIsZero operation.operationId = false

theorem readDomainOperation_eq_ok {operation : DomainOperation} :
    readDomainOperation input = .ok (operation, rest) ↔
      OperationForm operation ∧ input = encodeDomainOperation operation ++ rest := by
  simp only [readDomainOperation, bind_eq_ok, pure_eq_ok, require_eq_ok, raw_eq_ok, field_eq_ok,
    encodeDomainOperation, List.append_assoc]
  constructor
  · rintro ⟨id, _, rfl, digest, _, rfl, code, _, rfl, size, _, rfl, _, _, ⟨hsize, rfl⟩, result, _,
      rfl, _, _, ⟨hidentity, rfl⟩, rfl, rfl⟩
    refine ⟨⟨result.2.trans_le hsize, hidentity⟩, ?_⟩
    rw [result.2, BitVec.ofNat_toNat, BitVec.setWidth_eq]
    rfl
  · rintro ⟨⟨hsize, hidentity⟩, rfl⟩
    have hlength := @toNat_ofNat_of_le _ _ 16 hsize (by decide)
    exact ⟨⟨_, operation.operationId.size_eq⟩, _, rfl, operation.commandDigest, _, rfl, _, _, rfl,
      _, _, rfl, (), _, ⟨hlength.trans_le hsize, rfl⟩, ⟨operation.result, hlength.symm⟩, _, rfl,
      (), _, ⟨hidentity, rfl⟩, rfl, rfl⟩

theorem readDomainOperations_eq_ok {operations : List DomainOperation} :
    readDomainOperations input = .ok (operations, rest) ↔
      (operations.length ≤ domainMaximumOperations ∧ ∀ operation ∈ operations,
        OperationForm operation) ∧
      input = appendLe (BitVec.ofNat 32 operations.length) ++
        (operations.flatMap encodeDomainOperation ++ rest) := by
  simp only [readDomainOperations, bind_eq_ok, require_eq_ok, field_eq_ok,
    many_all_eq_ok readDomainOperation_eq_ok]
  constructor
  · rintro ⟨count, _, rfl, _, _, ⟨hcount, rfl⟩, hlength, hforms, rfl⟩
    refine ⟨⟨hlength.trans_le hcount, hforms⟩, ?_⟩
    rw [hlength, BitVec.ofNat_toNat, BitVec.setWidth_eq]
  · rintro ⟨⟨hcount, hforms⟩, rfl⟩
    have hlength := @toNat_ofNat_of_le _ _ 32 hcount (by decide)
    exact ⟨_, _, rfl, (), _, ⟨hlength.trans_le hcount, rfl⟩, hlength.symm, hforms, rfl⟩

structure PlayerForm (player : PlayerAuthority) : Prop where
  account : canonicalAccount player.record.accountName = some player.record.accountName
  gameplay : validGameplay player.record = true
  count : player.operations.length ≤ domainMaximumOperations
  operations : ∀ operation ∈ player.operations, OperationForm operation
  distinct : (player.operations.map DomainOperation.operationId).Nodup

theorem readPlayer_run {player : PlayerAuthority} (h : PlayerForm player) :
    readPlayer domainFormatVersion (encodePlayer player) = .ok (player, []) := by
  have hgameplay := h.gameplay
  simp only [validGameplay, Bool.and_eq_true, decide_eq_true_eq] at hgameplay
  obtain ⟨⟨⟨⟨⟨⟨⟨hdeaths, hzones⟩, -⟩, -⟩, -⟩, -⟩, -⟩, -⟩ := hgameplay
  have hcurrent {since : BitVec 32} {α : Type} {reader : Reader Unit α} {before : α}
      (hsince : since ≤ domainFormatVersion) :
      Ownership.readSince since domainFormatVersion reader before = reader := if_pos hsince
  have harray {bits count : Nat} [Octets bits] (numbers : Vector (BitVec bits) count)
      (rest : Bytes) : readArray bits count (numbers.toList.flatMap appendLe ++ rest) =
        .ok (numbers, rest) := readArray_eq_ok.mpr rfl
  have hstats (rest : Bytes) : readBaseStats (appendLe player.record.baseStatRevision ++
      (player.record.baseStats.toList.flatMap appendLe ++ rest)) =
        .ok ((player.record.baseStatRevision, player.record.baseStats), rest) := by
    rw [readBaseStats, field_bind, bind_run (harray _ _)]
    rfl
  have hoperations := (@readDomainOperations_eq_ok _ [] _).mpr
    ⟨⟨h.count, h.operations⟩, rfl⟩
  rw [List.append_nil] at hoperations
  simp only [readPlayer, encodePlayer, List.append_assoc]
  rw [field_bind, bind_run (readAccount_run h.account), field_bind, field_bind, field_bind,
    field_bind, bind_run (harray _ _), field_bind, field_bind, field_bind,
    bind_run (readCounted_run hdeaths (by decide)), bind_run (readCounted_run hzones (by decide)),
    hcurrent (by decide), bind_run (hstats _), hcurrent (by decide), bind_run hoperations]
  rfl

variable {sha256 : Bytes → Vector UInt8 32} {disk : Disk} {bytes : Bytes}
  {player : PlayerAuthority} {bank : BankRecord}

theorem encodeEnvelope_eq_some {magic payload : Bytes} {revision : BitVec 64} {maximumBytes : Nat}
    (h : encodeEnvelope sha256 magic payload revision maximumBytes = some bytes)
    (hmaximum : maximumBytes < 2 ^ 32) : bytes.length ≤ maximumBytes ∧ 0 < bytes.length ∧
      decodeEnvelope sha256 magic bytes = some ⟨domainFormatVersion, revision, payload⟩ := by
  unfold encodeEnvelope at h
  split at h
  · cases h
  · next hshape =>
      dsimp only at h
      split at h
      · cases h
      · next hsize =>
          cases h
          rw [not_or, Nat.not_lt] at hshape
          refine ⟨Nat.not_lt.mp hsize, by rw [Envelope.wrap_length]; omega, ?_⟩
          rw [decodeEnvelope, Envelope.unwrap_wrap (hshape.2.trans_lt hmaximum),
            Option.filter_some, if_pos]
          simpa [domainFormatVersion] using hshape.1

theorem loadFile_eq_ok {α : Type} {filename : Bytes} {decode : Bytes → Option α} {found : α} :
    loadFile disk filename true decode = .ok found ↔ validName filename = true ∧
      ∃ bytes, disk (.domains, filename) = some bytes ∧ bytes.length ≤ domainMaximumBytes ∧
        decode bytes = some found := by
  unfold loadFile flatfileRead
  cases hname : validName filename with
  | false => simp
  | true =>
      cases hdisk : disk (.domains, filename) with
      | none => simp
      | some bytes =>
          by_cases hsize : domainMaximumBytes < bytes.length
          · simp [hsize, Nat.not_le.mpr hsize]
          · cases hdecode : decode bytes <;> simp [hsize, Nat.not_lt.mp hsize, hdecode]

theorem loadPlayerAuthority_form {pid : BitVec 32}
    (h : loadPlayerAuthority sha256 disk pid true = .ok player) :
    0 < pid.toInt ∧ player.record.pid = pid ∧ PlayerForm player := by
  unfold loadPlayerAuthority at h
  split at h
  · cases h
  · next hpid =>
      obtain ⟨-, bytes, -, -, h⟩ := loadFile_eq_ok.mp h
      obtain ⟨envelope, -, h⟩ := Option.bind_eq_some_iff.mp h
      obtain ⟨hread, hvalid⟩ := Option.filter_eq_some_iff.mp h
      simp only [validPlayer, Bool.and_eq_true, beq_iff_eq, decide_eq_true_eq] at hvalid
      obtain ⟨⟨⟨⟨rfl, haccount⟩, hgameplay⟩, -⟩, hdistinct⟩ := hvalid
      have hoperations : player.operations.length ≤ domainMaximumOperations ∧
          ∀ operation ∈ player.operations, OperationForm operation := by
        have hrun := whole_eq_some.mp hread
        simp only [readPlayer, bind_eq_ok, pure_eq_ok] at hrun
        obtain ⟨_, _, -, _, _, -, _, _, -, _, _, -, _, _, -, _, _, -, _, _, -, _, _, -, _, _, -, _,
          _, -, _, _, -, _, _, -, _, _, -, operations, _, hloop, rfl, -⟩ := hrun
        unfold Ownership.readSince at hloop
        split at hloop
        · exact (readDomainOperations_eq_ok.mp hloop).1
        · obtain ⟨rfl, -⟩ := pure_eq_ok.mp hloop
          exact ⟨Nat.zero_le _, fun _ hmem => absurd hmem List.not_mem_nil⟩
      exact ⟨Int.not_le.mp hpid, rfl, haccount, hgameplay, hoperations.1, hoperations.2, hdistinct⟩

theorem encodePlayerAuthority_eq_some (h : encodePlayerAuthority sha256 player = some bytes) :
    bytes.length ≤ domainMaximumBytes ∧ 0 < bytes.length ∧
      decodeEnvelope sha256 playerMagic bytes =
        some ⟨domainFormatVersion, fileRevision player.record, encodePlayer player⟩ :=
  encodeEnvelope_eq_some h (by decide)

theorem loadPlayerAuthority_written (hform : PlayerForm player)
    (hpid : 0 < player.record.pid.toInt)
    (hencode : encodePlayerAuthority sha256 player = some bytes)
    (hname : validName (playerFilename player.record.pid) = true)
    (hdisk : disk (.domains, playerFilename player.record.pid) = some bytes) :
    loadPlayerAuthority sha256 disk player.record.pid true = .ok player := by
  obtain ⟨hlength, -, hdecode⟩ := encodePlayerAuthority_eq_some hencode
  rw [loadPlayerAuthority, if_neg (Int.not_le.mpr hpid), loadFile_eq_ok]
  refine ⟨hname, bytes, hdisk, hlength, ?_⟩
  rw [decodePlayer, hdecode, Option.bind_some, whole_eq_some.mpr (readPlayer_run hform),
    Option.filter_some, if_pos]
  simp only [validPlayer, hform.account, hform.gameplay, hform.distinct, beq_self_eq_true,
    Bool.and_self, decide_true]

theorem encodeBankRecord_eq_some (h : encodeBankRecord sha256 bank = some bytes) :
    bytes.length ≤ domainMaximumBytes ∧ 0 < bytes.length ∧
      decodeEnvelope sha256 bankMagic bytes = some ⟨domainFormatVersion, bank.revision,
        encodeAccount bank.accountName ++ appendLe bank.racewar ++
          bank.balances.toList.flatMap appendLe⟩ :=
  encodeEnvelope_eq_some h (by decide)

/-- What the file of a bank says, under whatever name it is looked for. -/
theorem decodeBank_written {racewar : BitVec 8}
    (hname : canonicalAccount bank.accountName = some bank.accountName)
    (hencode : encodeBankRecord sha256 bank = some bytes) :
    decodeBank sha256 account racewar bytes =
      if bank.accountName = account ∧ bank.racewar = racewar then some bank else none := by
  have hread : whole (readBank bank.revision) (encodeAccount bank.accountName ++
      appendLe bank.racewar ++ bank.balances.toList.flatMap appendLe) = some bank := by
    rw [whole_eq_some, readBank, List.append_assoc, bind_run (readAccount_run hname),
      field_bind, bind_run ((@readArray_eq_ok _ _ _ _ _ []).mpr
        (List.append_nil _).symm)]
    rfl
  rw [decodeBank, (encodeBankRecord_eq_some hencode).2.2, Option.bind_some, hread,
    Option.filter_some]
  simp only [hname, Option.some.injEq, decide_eq_true_eq]

theorem readImage_run (hmax : bytes.length ≤ domainMaximumBytes) (hpos : 0 < bytes.length) :
    readImage (appendLe (BitVec.ofNat 32 bytes.length) ++ (bytes ++ rest)) = .ok (bytes, rest) := by
  have hsize := @toNat_ofNat_of_le _ _ 32 hmax (by decide)
  have hnonzero : BitVec.ofNat 32 bytes.length ≠ 0 := by
    intro heq
    rw [heq] at hsize
    exact hpos.ne hsize
  rw [readImage, field_bind, require_bind ⟨hnonzero, hsize.trans_le hmax⟩, raw_bind hsize.symm]
  rfl

theorem readTransactionPlayer_run (hpid : 0 < player.record.pid.toInt)
    (h : encodePlayerAuthority sha256 player = some bytes) :
    readTransactionPlayer sha256
        (encodeTransactionPlayer ⟨player.record.pid, bytes⟩ ++ rest) =
      .ok (⟨player.record.pid, bytes⟩, rest) := by
  obtain ⟨hmax, hpos, hfile⟩ := encodePlayerAuthority_eq_some h
  have hstarts : startsWith sha256 playerMagic (field () 32) bytes player.record.pid = true := by
    simp only [startsWith, hfile, encodePlayer, List.append_assoc,
      field_eq_ok.mpr rfl, beq_self_eq_true]
  simp only [encodeTransactionPlayer, List.append_assoc]
  rw [readTransactionPlayer, field_bind, require_bind hpid, bind_run (readImage_run hmax hpos),
    require_bind hstarts]
  rfl

theorem readTransactionBank_run (hname : canonicalAccount bank.accountName = some bank.accountName)
    (h : encodeBankRecord sha256 bank = some bytes) :
    readTransactionBank sha256
        (encodeTransactionBank ⟨bank.accountName, bank.racewar, bytes⟩ ++ rest) =
      .ok (⟨bank.accountName, bank.racewar, bytes⟩, rest) := by
  obtain ⟨hmax, hpos, hfile⟩ := encodeBankRecord_eq_some h
  have hstart (rest : Bytes) : readBankStart (encodeAccount bank.accountName ++
      (appendLe bank.racewar ++ rest)) = .ok ((bank.accountName, bank.racewar), rest) := by
    rw [readBankStart, bind_run (readAccount_run hname), field_bind]
    rfl
  have hstarts : startsWith sha256 bankMagic readBankStart bytes (bank.accountName, bank.racewar) =
      true := by
    simp only [startsWith, hfile, List.append_assoc, hstart, beq_self_eq_true]
  simp only [encodeTransactionBank, List.append_assoc]
  rw [readTransactionBank, bind_run (hstart _), bind_run (readImage_run hmax hpos),
    require_bind ⟨hname, hstarts⟩]
  rfl

/-- A log whose files are read one by one is read as what it was made of. -/
theorem decodeTransaction_written {transaction : DomainTransaction}
    (hplayers : ∀ player ∈ transaction.players, ∀ rest, readTransactionPlayer sha256
      (encodeTransactionPlayer player ++ rest) = .ok (player, rest))
    (hbanks : ∀ bank ∈ transaction.banks, ∀ rest, readTransactionBank sha256
      (encodeTransactionBank bank ++ rest) = .ok (bank, rest))
    (hpids : (transaction.players.map TransactionPlayer.pid).Nodup)
    (hnames : (transaction.banks.map fun bank => (bank.accountName, bank.racewar)).Nodup)
    (h : encodeTransaction sha256 transaction = some bytes) :
    bytes.length ≤ transactionMaximumBytes ∧ decodeTransaction sha256 bytes = .ok transaction := by
  unfold encodeTransaction at h
  split at h
  · cases h
  · next hshape =>
      obtain ⟨hlength, -, hdecode⟩ := encodeEnvelope_eq_some h (by decide)
      refine ⟨hlength, ?_⟩
      rw [not_or, Nat.not_lt, ← List.length_eq_zero_iff] at hshape
      obtain ⟨hne, hcount⟩ := hshape
      have hmaximum : transactionMaximumRecords < 2 ^ 16 := by decide
      have hplayerCount := @toNat_ofNat_of_le transaction.players.length _ 16
        ((Nat.le_add_right _ _).trans hcount) hmaximum
      have hbankCount := @toNat_ofNat_of_le transaction.banks.length _ 16
        ((Nat.le_add_left _ _).trans hcount) hmaximum
      have hnonzero : BitVec.ofNat 16 transaction.players.length ≠ 0 := by
        intro heq
        rw [heq] at hplayerCount
        exact hne hplayerCount.symm
      have hlast := many_run hbanks []
      rw [List.append_nil] at hlast
      rw [decodeTransaction, logPayload, hdecode, Option.filter_some, if_pos (by rfl),
        Option.map_some, Option.bind_some, whole_eq_some.mpr]
      simp only [List.append_assoc]
      rw [readTransaction, field_bind, field_bind,
        require_bind ⟨hnonzero, by rwa [hplayerCount, hbankCount]⟩, hplayerCount,
        bind_run (many_run hplayers _), require_bind hpids, hbankCount, bind_run hlast,
        require_bind hnames]
      rfl

theorem images_names (transaction : DomainTransaction) :
    ∀ image ∈ transaction.images, DomainName image.filename := by
  intro image himage
  rcases List.mem_append.mp himage with himage | himage
  · obtain ⟨bank, -, rfl⟩ := List.mem_map.mp himage
    exact .inl rfl
  · obtain ⟨player, -, rfl⟩ := List.mem_map.mp himage
    exact .inr rfl

end PlayerDomain

end Duris.Flatfile
