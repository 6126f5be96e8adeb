import Duris.Economy.CollectorPolicy

/-!
# A collector listing lives one life

What an applied call can have done is said once, in `Applied`: one constructor per
operation, with the guards it passed and the record it leaves. `perform_cases` is
the inversion, and every invariant is a case analysis over it.
-/

namespace Duris.Economy.Collector

theorem toNat_maximum : maximum.toNat = 2 ^ 64 - 1 := by simp [maximum]

theorem add_eq_some {left right sum : BitVec 64} :
    add left right = some sum ↔ sum.toNat = left.toNat + right.toNat := by
  have hroom : (maximum - left).toNat = 2 ^ 64 - 1 - left.toNat := by
    rw [BitVec.toNat_sub_of_le (by rw [BitVec.le_def, toNat_maximum]; omega), toNat_maximum]
  rw [add]
  split
  · next hover =>
      rw [BitVec.lt_def, hroom] at hover
      simp only [reduceCtorEq, false_iff]
      omega
  · next hfits =>
      rw [BitVec.lt_def, hroom] at hfits
      rw [Option.some.injEq, BitVec.toNat_eq, BitVec.toNat_add, Nat.mod_eq_of_lt (by omega)]
      exact eq_comm

theorem toNat_succ {counter : BitVec 64} (h : counter ≠ maximum) :
    (counter + 1).toNat = counter.toNat + 1 := by
  have hlt := counter.isLt
  have hne : counter.toNat ≠ 2 ^ 64 - 1 := by
    rwa [← toNat_maximum, ne_eq, ← BitVec.toNat_eq]
  rw [BitVec.toNat_add, Nat.mod_eq_of_lt (by simp; omega)]
  rfl

theorem succ_ne_zero {counter : BitVec 64} (h : counter ≠ maximum) : counter + 1 ≠ 0 := by
  intro hzero
  have hsucc := toNat_succ h
  rw [hzero] at hsucc
  simp at hsucc

theorem price_cases (base : BitVec 64) (policy : Rules) :
    (∃ priced, priced ≠ .applied ∧ price base policy = .error priced) ∨
      ∃ gold, policy.minimumValue ≤ gold ∧ price base policy = .ok gold := by
  rw [price]
  generalize (if 0 < base.toInt then base else 0) = positive
  split
  · exact .inl ⟨.invalid, by simp, rfl⟩
  · dsimp only
    split
    · exact .inl ⟨.overflow, by simp, rfl⟩
    · split
      · exact .inl ⟨.overflow, by simp, rfl⟩
      · refine .inr ⟨_, ?_, rfl⟩
        split
        · exact BitVec.le_refl _
        · next hmin => exact BitVec.not_lt.mp hmin

variable {entry entry' : Record} {expected : BitVec 64} {call : Call}

theorem check_eq_applied {required : State} :
    check entry expected required = .applied ↔
      validRecord entry = true ∧ entry.revision = expected ∧ entry.status = required ∧
        entry.revision ≠ maximum := by
  rw [check]
  split
  · next h => simp_all
  · split
    · next h => simp only [reduceCtorEq, false_iff]; rintro ⟨-, h₁, h₂, -⟩; simp_all
    · split
      · next h => simp [h]
      · simp_all

/-! ## What an applied call did -/

/-- The applied calls: the guards each passed, and the record it leaves. -/
inductive Applied (entry : Record) : Call → Record → Prop
  | collect {expected item base now gold} (hstatus : entry.status = .candidate)
      (hdue : entry.collectAt ≤ now) (hitem : entry.itemRevision ≤ item)
      (hroom : item ≠ maximum) (hprice : price base entry.policy = .ok gold)
      (hmin : entry.policy.minimumValue ≤ gold) :
      Applied entry (.collect expected item item true base now)
        { entry with
          priceValue := gold, itemRevision := item + 1, status := .collected,
          revision := entry.revision + 1 }
  | activate {expected now expiry} (hstatus : entry.status = .collected)
      (hdue : entry.saleAt ≤ now) (hadd : add now entry.policy.holdingDuration = some expiry) :
      Applied entry (.activate expected now)
        { entry with
          availableAt := now, expiresAt := expiry, status := .available,
          revision := entry.revision + 1 }
  | pause {expected now} (hstatus : entry.status = .available)
      (hrunning : entry.holdingPaused = false) (hlow : entry.availableAt ≤ now)
      (hhigh : now < entry.expiresAt) :
      Applied entry (.pause expected now)
        { entry with holdingPaused := true, pausedAt := now, revision := entry.revision + 1 }
  | resume {expected now expiry} (hstatus : entry.status = .available)
      (hpaused : entry.holdingPaused = true) (hlow : entry.pausedAt ≤ now)
      (hadd : add entry.expiresAt (now - entry.pausedAt) = some expiry) :
      Applied entry (.resume expected now)
        { entry with
          expiresAt := expiry, holdingPaused := false, pausedAt := 0,
          revision := entry.revision + 1 }
  | purchase {expected actor carried now} (hstatus : entry.status = .available)
      (hactor : actor = entry.beneficiary) (hrunning : entry.holdingPaused = false)
      (hlow : entry.availableAt ≤ now) (hhigh : now < entry.expiresAt)
      (hfunds : entry.priceValue ≤ carried) (hroom : entry.itemRevision ≠ maximum) :
      Applied entry (.purchase expected actor carried true now)
        { entry with
          status := .purchased, itemRevision := entry.itemRevision + 1,
          revision := entry.revision + 1 }
  | expire {expected now} (hstatus : entry.status = .available)
      (hrunning : entry.holdingPaused = false) (hdue : entry.expiresAt ≤ now)
      (hroom : entry.itemRevision ≠ maximum) :
      Applied entry (.expire expected now)
        { entry with
          status := .expired, closedReason := .holdingElapsed,
          itemRevision := entry.itemRevision + 1, revision := entry.revision + 1 }
  | cancelCandidate {expected why} (hstatus : entry.status = .candidate)
      (hwhy : cancellationReason why = true) :
      Applied entry (.cancel expected why)
        { entry with
          status := .cancelled, closedReason := why, holdingPaused := false, pausedAt := 0,
          revision := entry.revision + 1 }
  | cancelHeld {expected why} (hstatus : entry.status = .collected ∨ entry.status = .available)
      (hwhy : cancellationReason why = true) (hclaimed : why ≠ .claimed)
      (hroom : entry.itemRevision ≠ maximum) :
      Applied entry (.cancel expected why)
        { entry with
          status := .cancelled, closedReason := why, holdingPaused := false, pausedAt := 0,
          itemRevision := entry.itemRevision + 1, revision := entry.revision + 1 }

/-- How a call ends: refused with the record untouched, or applied to a valid
record whose revision has a successor. -/
def Ends (entry : Record) (call : Call) (answer : Outcome × Record) : Prop :=
  (answer.1 ≠ .applied ∧ answer.2 = entry) ∨
    (answer.1 = .applied ∧ validRecord entry = true ∧ entry.revision ≠ maximum ∧
      Applied entry call answer.2)

theorem Ends.refused {outcome : Outcome} (h : outcome ≠ .applied) :
    Ends entry call (outcome, entry) := .inl ⟨h, rfl⟩

theorem Ends.of_check {required : State} {rest : Outcome × Record}
    (h : entry.status = required → rest.1 ≠ .applied ∧ rest.2 = entry ∨
      rest.1 = .applied ∧ Applied entry call rest.2) :
    Ends entry call (if check entry expected required ≠ .applied then
      (check entry expected required, entry) else rest) := by
  by_cases hchecked : check entry expected required = .applied
  · rw [if_neg (not_not.mpr hchecked)]
    obtain ⟨hvalid, -, hstatus, hrevision⟩ := check_eq_applied.mp hchecked
    rcases h hstatus with hrefused | ⟨happlied, hdone⟩
    · exact .inl hrefused
    · exact .inr ⟨happlied, hvalid, hrevision, hdone⟩
  · rw [if_pos hchecked]
    exact .refused hchecked

theorem collect_ends (entry : Record) (expected expectedItem item : BitVec 64) (active : Bool)
    (base now : BitVec 64) :
    Ends entry (.collect expected expectedItem item active base now)
      (collect entry expected expectedItem item active base now) := by
  rw [collect]
  apply Ends.of_check
  intro hstatus
  split
  · simp
  · next hdue =>
      split
      · simp
      · next hguard =>
          simp only [Bool.not_eq_true', not_or, Bool.not_eq_false, not_not] at hguard
          obtain ⟨rfl, -, rfl, hitem⟩ := hguard
          split
          · simp
          · next hroom =>
              rcases price_cases base entry.policy with ⟨priced, hpriced, heq⟩ | ⟨gold, hgold, heq⟩
              · rw [heq]
                exact .inl ⟨hpriced, rfl⟩
              · rw [heq]
                exact .inr ⟨rfl, .collect hstatus (BitVec.not_lt.mp hdue)
                  (BitVec.not_lt.mp hitem) hroom heq hgold⟩

theorem activate_ends (entry : Record) (expected now : BitVec 64) :
    Ends entry (.activate expected now) (activate entry expected now) := by
  rw [activate]
  apply Ends.of_check
  intro hstatus
  split
  · simp
  · next hdue =>
      split
      · simp
      · next expiry hadd => exact .inr ⟨rfl, .activate hstatus (BitVec.not_lt.mp hdue) hadd⟩

theorem pause_ends (entry : Record) (expected now : BitVec 64) :
    Ends entry (.pause expected now) (pause entry expected now) := by
  rw [pause]
  apply Ends.of_check
  intro hstatus
  split
  · simp
  · next hguard =>
      simp only [not_or, Bool.not_eq_true] at hguard
      obtain ⟨hrunning, hlow, hhigh⟩ := hguard
      exact .inr ⟨rfl, .pause hstatus hrunning (BitVec.not_lt.mp hlow) (BitVec.not_le.mp hhigh)⟩

theorem resume_ends (entry : Record) (expected now : BitVec 64) :
    Ends entry (.resume expected now) (resume entry expected now) := by
  rw [resume]
  apply Ends.of_check
  intro hstatus
  split
  · simp
  · next hguard =>
      simp only [Bool.not_eq_true', not_or, Bool.not_eq_false] at hguard
      obtain ⟨hpaused, hlow⟩ := hguard
      split
      · simp
      · next expiry hadd =>
          exact .inr ⟨rfl, .resume hstatus hpaused (BitVec.not_lt.mp hlow) hadd⟩

theorem purchase_ends (entry : Record) (expected : BitVec 64) (actor : BitVec 32)
    (carried : BitVec 64) (room : Bool) (now : BitVec 64) :
    Ends entry (.purchase expected actor carried room now)
      (purchase entry expected actor carried room now) := by
  rw [purchase]
  apply Ends.of_check
  intro hstatus
  split
  · simp
  · next hactor =>
      simp only [not_or, not_not] at hactor
      split
      · simp
      · next hguard =>
          simp only [not_or, Bool.not_eq_true] at hguard
          obtain ⟨hrunning, hlow, hhigh⟩ := hguard
          split
          · simp
          · next hcapacity =>
              obtain rfl : room = true := by simpa using hcapacity
              split
              · simp
              · next hfunds =>
                  split
                  · simp
                  · next hroom =>
                      exact .inr ⟨rfl, .purchase hstatus hactor.2 hrunning (BitVec.not_lt.mp hlow)
                        (BitVec.not_le.mp hhigh) (BitVec.not_lt.mp hfunds) hroom⟩

theorem expire_ends (entry : Record) (expected now : BitVec 64) :
    Ends entry (.expire expected now) (expire entry expected now) := by
  rw [expire]
  apply Ends.of_check
  intro hstatus
  split
  · simp
  · next hguard =>
      simp only [not_or, Bool.not_eq_true] at hguard
      split
      · simp
      · next hroom =>
          exact .inr ⟨rfl, .expire hstatus hguard.1 (BitVec.not_lt.mp hguard.2) hroom⟩

theorem cancel_ends (entry : Record) (expected : BitVec 64) (why : Reason) :
    Ends entry (.cancel expected why) (cancel entry expected why) := by
  rw [cancel]
  split
  · exact .refused (by simp)
  · next hwhy =>
      replace hwhy : cancellationReason why = true := by simpa using hwhy
      apply Ends.of_check
      intro _
      split
      · simp
      · next hguard =>
          simp only [not_or, Bool.not_eq_true, not_and, not_not] at hguard
          obtain ⟨hlive, hclaimed⟩ := hguard
          split
          · simp
          · next hroom =>
              refine .inr ⟨rfl, ?_⟩
              rw [not_and] at hroom
              -- the terminal states are excluded, a candidate is not held, the other two are
              cases hstatus : entry.status with
              | candidate => simpa [hstatus] using Applied.cancelCandidate hstatus hwhy
              | collected =>
                  have hheld : entry.status = .collected ∨ entry.status = .available := .inl hstatus
                  simp only [true_or, if_true]
                  exact .cancelHeld hheld hwhy (by simp_all) (hroom hheld)
              | available =>
                  have hheld : entry.status = .collected ∨ entry.status = .available := .inr hstatus
                  simp only [or_true, if_true]
                  exact .cancelHeld hheld hwhy (by simp_all) (hroom hheld)
              | purchased => simp [hstatus, terminal] at hlive
              | cancelled => simp [hstatus, terminal] at hlive
              | expired => simp [hstatus, terminal] at hlive

theorem perform_ends (entry : Record) (call : Call) : Ends entry call (perform entry call) := by
  cases call with
  | collect expected expectedItem item active base now =>
      exact collect_ends entry expected expectedItem item active base now
  | activate expected now => exact activate_ends entry expected now
  | pause expected now => exact pause_ends entry expected now
  | resume expected now => exact resume_ends entry expected now
  | purchase expected actor carried room now =>
      exact purchase_ends entry expected actor carried room now
  | expire expected now => exact expire_ends entry expected now
  | cancel expected why => exact cancel_ends entry expected why

/-! ## Validity is kept -/

/-- The terms of a listing: what enrolment fixes and no call changes. -/
structure SameTerms (entry entry' : Record) : Prop where
  version : entry'.version = entry.version
  listing : entry'.listing = entry.listing
  deathOperation : entry'.deathOperation = entry.deathOperation
  beneficiary : entry'.beneficiary = entry.beneficiary
  uid : entry'.uid = entry.uid
  deathTime : entry'.deathTime = entry.deathTime
  collectAt : entry'.collectAt = entry.collectAt
  saleAt : entry'.saleAt = entry.saleAt
  policy : entry'.policy = entry.policy

theorem SameTerms.refl (entry : Record) : SameTerms entry entry :=
  ⟨rfl, rfl, rfl, rfl, rfl, rfl, rfl, rfl, rfl⟩

theorem Applied.sameTerms (h : Applied entry call entry') : SameTerms entry entry' := by
  cases h <;> exact ⟨rfl, rfl, rfl, rfl, rfl, rfl, rfl, rfl, rfl⟩

theorem Applied.revision (h : Applied entry call entry') :
    entry'.revision = entry.revision + 1 := by
  cases h <;> rfl

/-- An applied call leaves the item revision alone or moves it past where it was. -/
theorem Applied.itemRevision (h : Applied entry call entry') :
    entry.itemRevision.toNat ≤ entry'.itemRevision.toNat := by
  cases h with
  | collect _ _ hitem hroom =>
      have hsucc := toNat_succ hroom
      have hle := BitVec.le_def.mp hitem
      dsimp only
      omega
  | activate | pause | resume | cancelCandidate => exact Nat.le_refl _
  | purchase _ _ _ _ _ _ hroom | expire _ _ _ hroom | cancelHeld _ _ _ hroom =>
      have hsucc := toNat_succ hroom
      dsimp only
      omega

theorem Applied.priceValue (h : Applied entry call entry') :
    entry'.priceValue = entry.priceValue ∨
      entry.status = .candidate ∧ entry.policy.minimumValue ≤ entry'.priceValue := by
  cases h with
  | collect hstatus _ _ _ _ hmin => exact .inr ⟨hstatus, hmin⟩
  | activate | pause | resume | purchase | expire | cancelCandidate | cancelHeld => exact .inl rfl

theorem validReason_eq_true (why : Reason) : validReason why = true := by
  cases why <;> rfl

theorem validHeader_of_applied (hvalid : validHeader entry = true)
    (hrevision : entry.revision ≠ maximum) (h : Applied entry call entry') :
    validHeader entry' = true := by
  have hterms := h.sameTerms
  have hitem : entry'.itemRevision ≠ 0 := by
    have hmono := h.itemRevision
    have hpos : entry.itemRevision ≠ 0 := by
      simp only [validHeader, Bool.and_eq_true, bne_iff_ne] at hvalid
      tauto
    rw [ne_eq, BitVec.toNat_eq] at hpos ⊢
    simp only [BitVec.ofNat_eq_ofNat, BitVec.toNat_ofNat, Nat.zero_mod] at hpos ⊢
    omega
  have hprice : entry'.priceValue = 0 ∨ entry'.policy.minimumValue ≤ entry'.priceValue := by
    simp only [validHeader, Bool.and_eq_true, Bool.or_eq_true, beq_iff_eq, decide_eq_true_eq]
      at hvalid
    rcases h.priceValue with hsame | ⟨-, hmin⟩
    · rw [hsame, hterms.policy]
      exact hvalid.2
    · rw [hterms.policy]
      exact .inr hmin
  simp only [validHeader, Bool.and_eq_true, Bool.or_eq_true, bne_iff_ne, beq_iff_eq,
    decide_eq_true_eq, hterms.version, hterms.listing, hterms.deathOperation, hterms.beneficiary,
    hterms.uid, hterms.deathTime, hterms.collectAt, hterms.saleAt, h.revision,
    validReason_eq_true] at hvalid ⊢
  rw [hterms.policy] at hprice ⊢
  have hnext := succ_ne_zero hrevision
  tauto

theorem availabilityValid_iff :
    availabilityValid entry = true ↔
      entry.availableAt ≠ 0 ∧ entry.priceValue ≠ 0 ∧
      entry.saleAt.toNat ≤ entry.availableAt.toNat ∧
      entry.availableAt.toNat + entry.policy.holdingDuration.toNat ≤ entry.expiresAt.toNat ∧
      (entry.holdingPaused = true → entry.availableAt.toNat ≤ entry.pausedAt.toNat) ∧
      (entry.holdingPaused = false → entry.pausedAt = 0) := by
  have hlasts : (entry.availableAt ≤ entry.expiresAt ∧
      entry.policy.holdingDuration ≤ entry.expiresAt - entry.availableAt) ↔
      entry.availableAt.toNat + entry.policy.holdingDuration.toNat ≤ entry.expiresAt.toNat := by
    rw [BitVec.le_def, BitVec.le_def]
    by_cases hle : entry.availableAt.toNat ≤ entry.expiresAt.toNat
    · rw [BitVec.toNat_sub_of_le (BitVec.le_def.mpr hle)]
      omega
    · omega
  rw [← hlasts]
  cases hpaused : entry.holdingPaused <;>
    simp [availabilityValid, hpaused, BitVec.le_def, and_assoc]

/-- The sale opens after the death, so a listing on sale is recognised by its
`available_at`. -/
theorem saleAt_pos (h : validHeader entry = true) : 0 < entry.saleAt.toNat := by
  simp only [validHeader, Bool.and_eq_true, beq_iff_eq] at h
  have hadd : add entry.deathTime entry.policy.saleDelay = some entry.saleAt := by tauto
  have hrules : validRules entry.policy = true := by tauto
  rw [add_eq_some] at hadd
  simp only [validRules, Bool.and_eq_true, bne_iff_ne, decide_eq_true_eq, BitVec.le_def] at hrules
  have hdelay : entry.policy.collectionDelay.toNat ≠ 0 := by
    have hne := hrules.1.1.1.1
    simpa [BitVec.toNat_eq] using hne
  omega

theorem minimumValue_ne_zero (h : validHeader entry = true) :
    entry.policy.minimumValue.toNat ≠ 0 := by
  simp only [validHeader, Bool.and_eq_true, beq_iff_eq] at h
  have hrules : validRules entry.policy = true := by tauto
  simp only [validRules, Bool.and_eq_true, bne_iff_ne] at hrules
  simpa [BitVec.toNat_eq] using hrules.2

theorem validStatus_of_applied (hheader : validHeader entry = true)
    (hvalid : validStatus entry = true) (h : Applied entry call entry') :
    validStatus entry' = true := by
  rw [validStatus] at hvalid
  cases h with
  | collect hstatus hdue hitem hroom hprice hmin =>
      have hpos := minimumValue_ne_zero hheader
      rw [BitVec.le_def] at hmin
      simp only [hstatus, Bool.and_eq_true] at hvalid
      simp only [validStatus, Bool.and_eq_true, bne_iff_ne]
      refine ⟨⟨?_, hvalid.1.2⟩, hvalid.2⟩
      intro hzero
      rw [hzero] at hmin
      simp at hmin
      omega
  | activate hstatus hdue hadd =>
      have hpos := saleAt_pos hheader
      rw [add_eq_some] at hadd
      rw [BitVec.le_def] at hdue
      simp only [hstatus, Bool.and_eq_true, beforeAvailability, bne_iff_ne, beq_iff_eq,
        Bool.not_eq_true'] at hvalid
      simp only [validStatus, Bool.and_eq_true, availabilityValid_iff, beq_iff_eq]
      refine ⟨⟨?_, hvalid.1.1, hdue, hadd.symm.le, ?_, fun _ => hvalid.1.2.2⟩, hvalid.2⟩
      · intro hzero
        simp [hzero] at hdue
        omega
      · simp [hvalid.1.2.1.2]
  | pause hstatus hrunning hlow hhigh =>
      simp only [hstatus, Bool.and_eq_true, availabilityValid_iff] at hvalid
      simp only [validStatus, hstatus, Bool.and_eq_true, availabilityValid_iff]
      exact ⟨⟨hvalid.1.1, hvalid.1.2.1, hvalid.1.2.2.1, hvalid.1.2.2.2.1,
        fun _ => BitVec.le_def.mp hlow, by simp⟩, hvalid.2⟩
  | resume hstatus hpaused hlow hadd =>
      rw [add_eq_some] at hadd
      simp only [hstatus, Bool.and_eq_true, availabilityValid_iff] at hvalid
      simp only [validStatus, hstatus, Bool.and_eq_true, availabilityValid_iff]
      exact ⟨⟨hvalid.1.1, hvalid.1.2.1, hvalid.1.2.2.1, by have := hvalid.1.2.2.2.1; omega,
        by simp, by simp⟩, hvalid.2⟩
  | purchase hstatus hactor hrunning =>
      simp only [hstatus, Bool.and_eq_true] at hvalid
      simp only [validStatus, Bool.and_eq_true]
      exact ⟨⟨hvalid.1, by simp [hrunning]⟩, hvalid.2⟩
  | expire hstatus hrunning =>
      simp only [hstatus, Bool.and_eq_true] at hvalid
      simp only [validStatus, Bool.and_eq_true]
      exact ⟨⟨hvalid.1, by simp [hrunning]⟩, by simp⟩
  | cancelCandidate hstatus hwhy =>
      simp only [hstatus, Bool.and_eq_true, beforeAvailability, beq_iff_eq] at hvalid
      simp [validStatus, hwhy, beforeAvailability, hvalid]
  | cancelHeld hstatus hwhy hclaimed =>
      rcases hstatus with hstatus | hstatus
      · simp only [hstatus, Bool.and_eq_true, beforeAvailability, beq_iff_eq, bne_iff_ne] at hvalid
        simp [validStatus, hwhy, hclaimed, beforeAvailability, hvalid]
      · simp only [hstatus, Bool.and_eq_true, availabilityValid_iff] at hvalid
        have hlisted := hvalid.1.1
        have hpriced := hvalid.1.2.1
        simp only [validStatus, hwhy, Bool.not_true, Bool.false_eq_true, if_false, if_neg hclaimed,
          if_pos hpriced, if_pos hlisted, availabilityValid_iff]
        exact ⟨hlisted, hpriced, hvalid.1.2.2.1, hvalid.1.2.2.2.1, by simp, by simp⟩

theorem Applied.validRecord (hvalid : validRecord entry = true)
    (hrevision : entry.revision ≠ maximum) (h : Applied entry call entry') :
    validRecord entry' = true := by
  rw [Collector.validRecord, Bool.and_eq_true] at hvalid ⊢
  exact ⟨validHeader_of_applied hvalid.1 hrevision h, validStatus_of_applied hvalid.1 hvalid.2 h⟩

theorem validDeathOperationId_copy {operation : List UInt8}
    (h : validDeathOperation operation = true) :
    validDeathOperationId (Vector.ofFn fun index => operation.getD index 0) = true := by
  have hsize : operation.length = deathOperationHexSize := by
    simp only [validDeathOperation, Bool.and_eq_true, beq_iff_eq] at h
    exact h.1.1
  have htext : (Vector.ofFn fun index : Fin (deathOperationHexSize + 1) =>
      operation.getD index 0).toList.take deathOperationHexSize = operation := by
    apply List.ext_getElem
    · simp [hsize]
    · intro index hleft hright
      simp [List.getElem?_eq_getElem hright]
  rw [validDeathOperationId, htext, h, Vector.getElem_ofFn]
  simp [← hsize]

theorem validRecord_of_enroll {listing uid itemRevision deathTime : BitVec 64}
    {deathOperation : List UInt8} {beneficiary : BitVec 32} {policy : Rules}
    (h : enroll listing deathOperation beneficiary uid itemRevision deathTime policy = .ok entry) :
    validRecord entry = true ∧ entry.status = .candidate ∧ entry.beneficiary = beneficiary := by
  rw [enroll] at h
  split at h
  · simp at h
  · next hgiven =>
      simp only [not_or, Bool.not_eq_true', Bool.not_eq_false] at hgiven
      obtain ⟨hlisting, hoperation, hbeneficiary, huid, hitem, henabled, hrules⟩ := hgiven
      split at h
      · next collectAt saleAt hcollect hsale =>
          cases h
          refine ⟨?_, rfl, rfl⟩
          simp only [BitVec.ofNat_eq_ofNat] at hlisting hbeneficiary huid hitem
          have hid := validDeathOperationId_copy hoperation
          simp only [List.getD_eq_getElem?_getD] at hid
          simp [validRecord, validHeader, validStatus, beforeAvailability, validReason, hlisting,
            hbeneficiary, huid, hitem, henabled, hrules, hcollect, hsale, hid]
      · simp at h

/-! ## Over a run -/

theorem Applied.not_terminal (h : Applied entry call entry') : terminal entry.status = false := by
  cases h with
  | collect hstatus | activate hstatus | pause hstatus | resume hstatus | purchase hstatus
  | expire hstatus | cancelCandidate hstatus => rw [hstatus]; rfl
  | cancelHeld hstatus => rcases hstatus with hstatus | hstatus <;> (rw [hstatus]; rfl)

theorem priceValue_of_candidate (h : validRecord entry = true)
    (hstatus : entry.status = .candidate) : entry.priceValue = 0 := by
  simp only [validRecord, validStatus, hstatus, Bool.and_eq_true, beq_iff_eq] at h
  exact h.2.1.1

theorem Applied.of_purchase {carried now : BitVec 64} {actor : BitVec 32} {room : Bool}
    (hvalid : Collector.validRecord entry = true)
    (h : Applied entry (.purchase expected actor carried room now) entry') :
    actor = entry.beneficiary ∧ entry.priceValue ≠ 0 ∧ entry.priceValue ≤ carried := by
  cases h with
  | purchase hstatus hactor _ _ _ hfunds =>
      simp only [Collector.validRecord, validStatus, hstatus, Bool.and_eq_true,
        availabilityValid_iff] at hvalid
      exact ⟨hactor, hvalid.2.1.2.1, hfunds⟩

/-- A listing that was enrolled as `enrolled`: valid, on its original terms. -/
structure Lives (enrolled entry : Record) : Prop where
  valid : validRecord entry = true
  terms : SameTerms enrolled entry

theorem lives_advance {enrolled : Record} (h : Lives enrolled entry) (call : Call) :
    Lives enrolled (advance entry call) := by
  rw [advance]
  rcases perform_ends entry call with ⟨-, hsame⟩ | ⟨-, hvalid, hrevision, happlied⟩
  · rw [hsame]
    exact h
  · obtain ⟨h₁, h₂, h₃, h₄, h₅, h₆, h₇, h₈, h₉⟩ := happlied.sameTerms
    obtain ⟨k₁, k₂, k₃, k₄, k₅, k₆, k₇, k₈, k₉⟩ := h.terms
    exact ⟨happlied.validRecord hvalid hrevision, h₁.trans k₁, h₂.trans k₂, h₃.trans k₃,
      h₄.trans k₄, h₅.trans k₅, h₆.trans k₆, h₇.trans k₇, h₈.trans k₈, h₉.trans k₉⟩

/-- The sales a listing has seen can be read off its state. -/
def sold (status : State) : Nat :=
  match status with
  | .purchased | .expired => 1
  | .candidate | .collected | .available | .cancelled => 0

theorem sold_le (status : State) : sold status ≤ 1 := by
  cases status <;> simp [sold]

theorem sold_advance (entry : Record) (call : Call) :
    sold (advance entry call).status = sold entry.status + (closesSale entry call).toNat := by
  rw [advance]
  rcases perform_ends entry call with ⟨hrefused, hsame⟩ | ⟨happlied, -, -, hdone⟩
  · simp [closesSale, hrefused, hsame]
  · generalize hanswer : (perform entry call).2 = entry' at hdone ⊢
    cases hdone with
    | collect hstatus | activate hstatus | pause hstatus | resume hstatus | purchase hstatus
    | expire hstatus | cancelCandidate hstatus => simp [closesSale, happlied, sold, hstatus]
    | cancelHeld hstatus =>
        rcases hstatus with hstatus | hstatus <;> simp [closesSale, happlied, sold, hstatus]

theorem sold_run (entry : Record) (calls : List Call) :
    sold (run advance entry calls).status = sold entry.status +
      tally advance (fun entry call => (closesSale entry call).toNat) entry calls :=
  run_tally_invariant (P := fun (entry : Record) n => sold entry.status = n)
    (fun s e _ hn => hn ▸ sold_advance s e) calls rfl

/-- What the completed pauses added to the holding time. -/
def Held (entry : Record) (paused : Nat) : Prop :=
  match entry.status with
  | .candidate | .collected => paused = 0
  | .available =>
      entry.expiresAt.toNat =
        entry.availableAt.toNat + paused + entry.policy.holdingDuration.toNat
  | .purchased | .cancelled | .expired => True

theorem completedPause_of_refused (h : (perform entry call).1 ≠ .applied) :
    completedPause entry call = 0 := by
  cases call with
  | resume expected now => exact if_neg h
  | collect | activate | pause | purchase | expire | cancel => rfl

theorem held_advance (entry : Record) (call : Call) (paused : Nat) (h : Held entry paused) :
    Held (advance entry call) (paused + completedPause entry call) := by
  rw [advance]
  rcases perform_ends entry call with ⟨hrefused, hsame⟩ | ⟨happlied, -, -, hdone⟩
  · rw [hsame, completedPause_of_refused hrefused]
    exact h
  · rw [Held] at h
    generalize hanswer : (perform entry call).2 = entry' at hdone ⊢
    cases hdone with
    | collect hstatus => simpa [Held, completedPause, hstatus] using h
    | activate hstatus hdue hadd =>
        rw [add_eq_some] at hadd
        simp only [hstatus] at h
        simp only [Held, completedPause, h]
        omega
    | pause hstatus => simpa [Held, completedPause, hstatus] using h
    | @resume expected now expiry hstatus hpaused hlow hadd =>
        rw [add_eq_some, BitVec.toNat_sub_of_le hlow] at hadd
        simp only [hstatus] at h
        have hdone : (resume entry expected now).1 = .applied := happlied
        simp only [Held, hstatus, completedPause, if_pos hdone]
        omega
    | purchase | expire | cancelCandidate | cancelHeld => simp [Held]

/-- **A collector listing lives one life.** Whatever calls follow an enrolment, in
whatever order and with whatever arguments and clock readings: the record stays
valid, at most one `purchase` or `expire` is ever applied, and while it is on sale
the completed pauses are exactly what extends its holding time. An applied call
advances the revision by one and never lowers the item revision; any other call,
and any call on a closed listing, leaves the record as it was; a price once
recorded stays, and only the beneficiary buys, with at least that price. -/
theorem listing_lives_one_life {listing uid itemRevision deathTime : BitVec 64}
    {deathOperation : List UInt8} {beneficiary : BitVec 32} {policy : Rules} {entry : Record}
    (henroll : enroll listing deathOperation beneficiary uid itemRevision deathTime policy =
      .ok entry) (calls : List Call) :
    let reached := run advance entry calls
    validRecord reached = true ∧
    tally advance (fun entry call => (closesSale entry call).toNat) entry calls ≤ 1 ∧
    (reached.status = .available → reached.expiresAt.toNat = reached.availableAt.toNat +
      tally advance completedPause entry calls + reached.policy.holdingDuration.toNat) ∧
    ∀ call : Call,
      let answer := perform reached call
      (answer.1 = .applied → answer.2.revision.toNat = reached.revision.toNat + 1 ∧
        reached.itemRevision.toNat ≤ answer.2.itemRevision.toNat) ∧
      (answer.1 ≠ .applied → answer.2 = reached) ∧
      (terminal reached.status = true → answer.2 = reached) ∧
      (reached.priceValue ≠ 0 → answer.2.priceValue = reached.priceValue) ∧
      (∀ expected actor carried room now, call = .purchase expected actor carried room now →
        answer.1 = .applied → actor = beneficiary ∧ reached.priceValue ≠ 0 ∧
          reached.priceValue ≤ carried) := by
  obtain ⟨hvalid, hstatus, hbeneficiary⟩ := validRecord_of_enroll henroll
  intro reached
  have hlives : Lives entry reached :=
    run_invariant (P := Lives entry) (fun _ call hs => lives_advance hs call) calls
      ⟨hvalid, .refl entry⟩
  have hsold := sold_run entry calls
  have hheld : Held reached (tally advance completedPause entry calls) := by
    have hrun := run_tally_invariant held_advance calls (s := entry) (n := 0)
      (by rw [Held, hstatus])
    rwa [Nat.zero_add] at hrun
  refine ⟨hlives.valid, ?_, ?_, ?_⟩
  · have hle := sold_le (run advance entry calls).status
    omega
  · intro havailable
    rw [Held, havailable] at hheld
    exact hheld
  · intro call answer
    have hends : Ends reached call answer := perform_ends reached call
    rcases hends with ⟨hrefused, hsame⟩ | ⟨happlied, hrecord, hrevision, hdone⟩
    · refine ⟨fun h => absurd h hrefused, fun _ => hsame, fun _ => hsame,
        fun _ => by rw [hsame], ?_⟩
      intro _ _ _ _ _ _ h
      exact absurd h hrefused
    · refine ⟨fun _ => ⟨?_, hdone.itemRevision⟩, fun h => absurd happlied h, ?_, ?_, ?_⟩
      · rw [hdone.revision, toNat_succ hrevision]
      · intro hterminal
        rw [hdone.not_terminal] at hterminal
        exact absurd hterminal (by simp)
      · intro hpriced
        rcases hdone.priceValue with hsame | ⟨hcandidate, -⟩
        · exact hsame
        · exact absurd (priceValue_of_candidate hrecord hcandidate) hpriced
      · intro expected actor carried room now hcall _
        obtain ⟨hactor, hpriced, hfunds⟩ := (hcall ▸ hdone).of_purchase hrecord
        exact ⟨hactor.trans (hlives.terms.beneficiary.trans hbeneficiary), hpriced, hfunds⟩

/-- A listing that is collected, put on sale, paused for an hour and bought. -/
theorem listing_lives_one_life_bought :
    ∃ entry, enroll 1 (List.replicate 32 'a'.toUInt8) 7 9 3 1000 { enabled := true } = .ok entry ∧
      validRecord (run advance entry
        [.collect 1 3 3 true 500 50000, .activate 2 90000, .pause 3 100000, .resume 4 103600,
          .purchase 5 7 1000 true 110000]) = true := by
  have henroll : ∃ entry,
      enroll 1 (List.replicate 32 'a'.toUInt8) 7 9 3 1000 { enabled := true } = .ok entry :=
    ⟨_, rfl⟩
  obtain ⟨entry, henroll⟩ := henroll
  exact ⟨entry, henroll, (listing_lives_one_life henroll _).1⟩

end Duris.Economy.Collector
