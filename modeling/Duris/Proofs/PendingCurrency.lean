import Duris.Economy.CurrencyTransaction
import Duris.Lib.Run

/-!
# Every accepted operation is in one place

An accepted operation is in the map, out at a coin callback, or finished, and its ticket
counts one over the three. A key is in the map or out at a callback, not both, because no
one submits under the id of an operation that is out; that is what lets a refused coin
callback put its entry back.
-/

namespace Duris.Economy

open Persistence

/-! ## The map -/

section Map

variable {pending : List PendingCurrency} {entry : PendingCurrency}

theorem perm_erasePending (hunique : (pending.map PendingCurrency.operationId).Nodup)
    (hentry : entry ∈ pending) :
    pending.Perm (entry :: erasePending pending entry.operationId) :=
  Keyed.perm_cons_erase hunique hentry

theorem perm_setEntry (hunique : (pending.map PendingCurrency.operationId).Nodup)
    (hentry : entry ∈ pending) {new : PendingCurrency}
    (hkey : new.operationId = entry.operationId) :
    (setEntry pending new).Perm (new :: erasePending pending entry.operationId) :=
  Keyed.perm_map_replace hunique hentry hkey

theorem emplace_absent (habsent : ∀ other ∈ pending, other.operationId ≠ entry.operationId) :
    emplace pending entry = pending ++ [entry] := by
  unfold emplace findPending
  rw [Keyed.lookup_eq_none.mpr habsent]
  exact if_neg (by simp)

theorem erasePending_emplace (habsent : ∀ other ∈ pending, other.operationId ≠ entry.operationId) :
    erasePending (emplace pending entry) entry.operationId = pending := by
  rw [emplace_absent habsent]
  unfold erasePending Keyed.erase
  rw [List.filter_append, List.filter_cons_of_neg (by simp), List.filter_nil, List.append_nil,
    List.filter_eq_self]
  intro other hother
  rw [decide_eq_true_eq]
  exact habsent other hother

end Map

/-! ## Outcomes of a publication -/

def CurrencyNotice.isCoin : CurrencyNotice → Bool
  | .currency .. => false
  | .coin .. => true

/-- The notice says of the receipt what it is, and the receipt is final. -/
def Reported (entry : PendingCurrency) (notice : CurrencyNotice) : Prop :=
  notice.committed = receiptCommitted entry.completed ∧
    (receiptCommitted entry.completed = false → entry.completed.outcome = .terminalFailure)

section Outcome

variable {sha256 : Bytes → Vector UInt8 32} {world world' : World}
  {entry entry' : PendingCurrency} {character : Option CharacterRef}

variable {malformed : Bool}

theorem publishCurrency_notify {notice : CurrencyNotice}
    (h : publishCurrency world entry character = (world', .notify notice malformed)) :
    notice.committed = receiptCommitted entry.completed ∧ notice.isCoin = false := by
  unfold publishCurrency at h
  dsimp only at h
  split at h
  · split at h
    · cases h
    · next hrejected =>
        cases h
        exact ⟨(Bool.not_eq_true _ ▸ hrejected).symm, rfl⟩
  · split at h
    · cases h
      exact ⟨rfl, rfl⟩
    · split at h
      · cases h
      · next hrejected =>
          cases h
          exact ⟨(Bool.not_eq_true _ ▸ hrejected).symm, rfl⟩

theorem publishEntry_retained {reason : String}
    (h : publishEntry sha256 world entry character = (world', entry', .retained reason malformed)) :
    entry' = entry := by
  unfold publishEntry at h
  split at h
  · cases h
    rfl
  · split at h
    · unfold publishCoin at h
      split at h
      · cases h
        rfl
      · split at h
        · cases h
          rfl
        · cases h
    · rw [Prod.mk.injEq, Prod.mk.injEq] at h
      exact h.2.1.symm

theorem publishEntry_notify {notice : CurrencyNotice}
    (h : publishEntry sha256 world entry character = (world', entry', .notify notice malformed)) :
    (∃ published, entry' = { entry with coinWalletsPublished := published }) ∧
      Reported entry notice ∧ notice.isCoin = entry.coin.isSome := by
  unfold publishEntry at h
  split at h
  · cases h
  · next hfinal =>
      rw [not_and, not_not] at hfinal
      split at h
      · next coin hcoin =>
          unfold publishCoin at h
          split at h
          · cases h
          · split at h
            · cases h
            · cases h
              exact ⟨⟨_, rfl⟩, ⟨rfl, hfinal⟩, by rw [hcoin]; rfl⟩
      · next hcoin =>
          split at h
          next published _ hpublish =>
            cases h
            obtain ⟨hcommitted, hkind⟩ := publishCurrency_notify hpublish
            exact ⟨⟨entry.coinWalletsPublished, rfl⟩, ⟨hcommitted, hfinal⟩,
              by rw [hkind, hcoin]; rfl⟩

end Outcome

/-! ## The log -/

def lastStaged (log : List Record) (ticket : Nat) : Option CriticalCompletion :=
  (log.filterMap fun record =>
    match record with
    | .staged other receipt => if other = ticket then some receipt else none
    | _ => none).getLast?

/-- What a record says is so, given what was recorded before it: a publication is tried
on an entry that waits for one, and it is tried, reported and finished on the receipt
staged last. -/
def Honest (before : List Record) : Record → Prop
  | .staged _ _ => True
  | .tried entry => entry.publicationState.isLivePending = true ∧
      lastStaged before entry.ticket = some entry.completed
  | .notified entry notice => lastStaged before entry.ticket = some entry.completed ∧
      Reported entry notice
  | .finished entry committed => lastStaged before entry.ticket = some entry.completed ∧
      committed = receiptCommitted entry.completed ∧
      (committed = false → entry.completed.outcome = .terminalFailure)

def append (log : List Record) (record : Record) : List Record := log ++ [record]

def HonestLog (log : List Record) : Prop := Along append Honest [] log

theorem run_append_records (log : List Record) :
    ∀ before : List Record, run append before log = before ++ log := by
  induction log with
  | nil => intro before; simp
  | cons record log ih =>
      intro before
      rw [run_cons, ih, append, List.append_assoc, List.singleton_append]

theorem honestLog_append {log : List Record} {record : Record} :
    HonestLog (log ++ [record]) ↔ HonestLog log ∧ Honest log record := by
  unfold HonestLog
  rw [along_append, run_append_records, List.nil_append]
  simp [Along]

theorem lastStaged_staged (log : List Record) (ticket other : Nat) (receipt : CriticalCompletion) :
    lastStaged (log ++ [.staged other receipt]) ticket =
      if other = ticket then some receipt else lastStaged log ticket := by
  unfold lastStaged
  rw [List.filterMap_append, List.filterMap_cons, List.filterMap_nil]
  split
  · next hskip => simp_all
  · next found hfound => simp_all

@[simp] theorem lastStaged_tried (log : List Record) (ticket : Nat) (entry : PendingCurrency) :
    lastStaged (log ++ [.tried entry]) ticket = lastStaged log ticket := by
  simp [lastStaged]

@[simp] theorem lastStaged_notified (log : List Record) (ticket : Nat) (entry : PendingCurrency)
    (notice : CurrencyNotice) :
    lastStaged (log ++ [.notified entry notice]) ticket = lastStaged log ticket := by
  simp [lastStaged]

@[simp] theorem lastStaged_finished (log : List Record) (ticket : Nat) (entry : PendingCurrency)
    (committed : Bool) :
    lastStaged (log ++ [.finished entry committed]) ticket = lastStaged log ticket := by
  simp [lastStaged]

def Record.ending : Record → Option PendingCurrency
  | .finished entry _ => some entry
  | _ => none

/-- The operation that is no coin transfer whose callback a record calls. -/
def Record.notice : Record → Option PendingCurrency
  | .notified entry _ => if entry.coin.isSome then none else some entry
  | _ => none

/-- The operation that is no coin transfer and has a callback which a record finishes. -/
def Record.due : Record → Option PendingCurrency
  | .finished entry _ =>
      if entry.coin.isSome ∨ entry.completion.isNone then none else some entry
  | _ => none

/-! ## The stack -/

def Frame.out : Frame → Option PendingCurrency
  | .notifying entry notice _ => if notice.isCoin then some entry else none
  | _ => none

def Frame.remaining : Frame → List CriticalOperationId
  | .handling ready => ready
  | .readying ready _ => ready
  | _ => []

namespace CurrencyTransactions

def out (s : CurrencyTransactions) : List PendingCurrency := s.frames.filterMap Frame.out

def remaining (s : CurrencyTransactions) : List CriticalOperationId :=
  s.frames.flatMap Frame.remaining

def ended (s : CurrencyTransactions) : List PendingCurrency := s.log.filterMap Record.ending

structure Custody (s : CurrencyTransactions) : Prop where
  keys : ∀ identity, (s.pending.map PendingCurrency.operationId).count identity +
    (s.out.map PendingCurrency.operationId).count identity ≤ 1
  tickets : ∀ ticket, (s.pending.map PendingCurrency.ticket).count ticket +
    (s.out.map PendingCurrency.ticket).count ticket +
    (s.ended.map PendingCurrency.ticket).count ticket = if ticket < s.accepted then 1 else 0

structure Inv (s : CurrencyTransactions) : Prop where
  custody : Custody s
  distinct : s.remaining.Nodup
  queued : ∀ identity ∈ s.remaining, ∃ entry ∈ s.pending, entry.operationId = identity ∧
    entry.publicationState.isLivePending = true
  receipts : ∀ entry ∈ s.pending, entry.publicationState ≠ .awaitingCompletion →
    lastStaged s.log entry.ticket = some entry.completed
  callbacks : ∀ entry notice last, Frame.notifying entry notice last ∈ s.frames →
    notice.isCoin = true → entry.coin.isSome = true ∧
      lastStaged s.log entry.ticket = some entry.completed ∧ Reported entry notice
  blocked : s.pending.countP (fun entry => entry.publicationState.isBlocked) ≤
    s.health.publicationBlocked
  honest : HonestLog s.log
  notices : s.log.filterMap Record.notice = s.log.filterMap Record.due

/-! ## Consequences -/

section Consequences

variable {s : CurrencyTransactions} {entry other : PendingCurrency}
  {identity : CriticalOperationId}

theorem Custody.pending_nodup (h : Custody s) :
    (s.pending.map PendingCurrency.operationId).Nodup := by
  rw [List.nodup_iff_count_le_one]
  intro identity
  have := h.keys identity
  omega

theorem Custody.eq_of_ticket (h : Custody s) (hentry : entry ∈ s.pending)
    (hother : other ∈ s.pending) (hticket : entry.ticket = other.ticket) : entry = other := by
  have hnodup : (s.pending.map PendingCurrency.ticket).Nodup := by
    rw [List.nodup_iff_count_le_one]
    intro ticket
    have := h.tickets ticket
    split at this <;> omega
  exact Keyed.eq_of_key_eq hnodup hentry hother hticket

theorem Custody.eq_of_key (h : Custody s) (hentry : entry ∈ s.pending)
    (hother : other ∈ s.pending) (hkey : entry.operationId = other.operationId) :
    entry = other :=
  Keyed.eq_of_key_eq h.pending_nodup hentry hother hkey

theorem Custody.not_out (h : Custody s) (hentry : entry ∈ s.pending) (hother : other ∈ s.out) :
    entry.operationId ≠ other.operationId ∧ entry.ticket ≠ other.ticket := by
  have hkey := h.keys entry.operationId
  have hticket := h.tickets entry.ticket
  have hin := List.count_pos_iff.mpr (List.mem_map_of_mem (f := PendingCurrency.operationId) hentry)
  have hin' := List.count_pos_iff.mpr (List.mem_map_of_mem (f := PendingCurrency.ticket) hentry)
  refine ⟨fun hsame => ?_, fun hsame => ?_⟩
  · have hout := List.count_pos_iff.mpr
      (List.mem_map_of_mem (f := PendingCurrency.operationId) hother)
    rw [← hsame] at hout
    omega
  · have hout := List.count_pos_iff.mpr (List.mem_map_of_mem (f := PendingCurrency.ticket) hother)
    rw [← hsame] at hout
    split at hticket <;> omega

theorem findPending_eq_some (h : findPending s.pending identity = some entry) :
    entry ∈ s.pending ∧ entry.operationId = identity :=
  Keyed.mem_of_lookup h

theorem livePending_not_awaiting {state : CurrencyPublicationState}
    (h : state.isLivePending = true) : state ≠ .awaitingCompletion := by
  rintro rfl
  cases h

theorem livePending_not_blocked {state : CurrencyPublicationState}
    (h : state.isLivePending = true) : state.isBlocked = false := by
  cases state with
  | blockedReceipt => cases h
  | awaitingCompletion => cases h
  | ready => rfl
  | waitingForPlayer => rfl
  | retryingCallback => rfl

end Consequences

/-! ## Entries change and leave -/

section Moves

variable {s s' : CurrencyTransactions} {entry new : PendingCurrency}

theorem countP_blocked (h : Custody s) (hentry : entry ∈ s.pending) :
    s.pending.countP (fun other => other.publicationState.isBlocked) =
      (erasePending s.pending entry.operationId).countP
        (fun other => other.publicationState.isBlocked) +
      entry.publicationState.isBlocked.toNat := by
  rw [(perm_erasePending h.pending_nodup hentry).countP_eq, List.countP_cons]
  cases entry.publicationState.isBlocked <;> rfl

theorem Custody.set (h : Custody s) (hentry : entry ∈ s.pending)
    (hkey : new.operationId = entry.operationId) (hticket : new.ticket = entry.ticket)
    (hpending : s'.pending = setEntry s.pending new) (hout : s'.out = s.out)
    (hended : s'.ended = s.ended) (haccepted : s'.accepted = s.accepted) : Custody s' := by
  have hold := perm_erasePending h.pending_nodup hentry
  have hnew := perm_setEntry h.pending_nodup hentry hkey
  refine ⟨fun identity => ?_, fun ticket => ?_⟩
  · have hcount := h.keys identity
    rw [hpending, hout, (hnew.map _).count_eq, List.map_cons, hkey, ← List.map_cons,
      ← (hold.map _).count_eq]
    exact hcount
  · have hcount := h.tickets ticket
    rw [hpending, hout, hended, haccepted, (hnew.map _).count_eq, List.map_cons, hticket,
      ← List.map_cons, ← (hold.map _).count_eq]
    exact hcount

theorem Inv.set (h : Inv s) (hentry : entry ∈ s.pending) (new : PendingCurrency)
    (hkey : new.operationId = entry.operationId) (hticket : new.ticket = entry.ticket)
    (hidle : entry.operationId ∉ s.remaining ∨ new.publicationState.isLivePending = true)
    (hpending : s'.pending = setEntry s.pending new) (hframes : s'.frames = s.frames)
    (haccepted : s'.accepted = s.accepted)
    (hlog : ∀ ticket, ticket ≠ entry.ticket → lastStaged s'.log ticket = lastStaged s.log ticket)
    (hended : s'.log.filterMap Record.ending = s.log.filterMap Record.ending)
    (hhonest : HonestLog s'.log)
    (hnotices : s'.log.filterMap Record.notice = s'.log.filterMap Record.due)
    (hreceipt : new.publicationState ≠ .awaitingCompletion →
      lastStaged s'.log entry.ticket = some new.completed)
    (hblocked : s.pending.countP (fun other => other.publicationState.isBlocked) +
      new.publicationState.isBlocked.toNat ≤
        s'.health.publicationBlocked + entry.publicationState.isBlocked.toNat) : Inv s' := by
  have hout : s'.out = s.out := congrArg (List.filterMap Frame.out) hframes
  have hremaining : s'.remaining = s.remaining := congrArg (List.flatMap Frame.remaining) hframes
  have hnew := perm_setEntry h.custody.pending_nodup hentry hkey
  have hmem : ∀ other, other ∈ s'.pending ↔
      other = new ∨ other ∈ s.pending ∧ other.operationId ≠ entry.operationId := by
    intro other
    rw [hpending, hnew.mem_iff, List.mem_cons]
    exact or_congr_right Keyed.mem_erase
  refine ⟨h.custody.set hentry hkey hticket hpending hout hended haccepted, ?_, ?_, ?_, ?_, ?_,
    hhonest, hnotices⟩
  · rw [hremaining]
    exact h.distinct
  · intro identity hidentity
    rw [hremaining] at hidentity
    obtain ⟨found, hfound, rfl, hlive⟩ := h.queued identity hidentity
    by_cases hsame : found.operationId = entry.operationId
    · rcases hidle with hidle | hidle
      · exact absurd (hsame ▸ hidentity) hidle
      · exact ⟨new, (hmem new).mpr (.inl rfl), hkey.trans hsame.symm, hidle⟩
    · exact ⟨found, (hmem found).mpr (.inr ⟨hfound, hsame⟩), rfl, hlive⟩
  · intro other hother hstate
    rcases (hmem other).mp hother with rfl | ⟨hold, hne⟩
    · rw [hticket]
      exact hreceipt hstate
    · rw [hlog other.ticket fun hsame =>
        hne (congrArg PendingCurrency.operationId (h.custody.eq_of_ticket hold hentry hsame))]
      exact h.receipts other hold hstate
  · intro other notice last hframe hcoin
    rw [hframes] at hframe
    obtain ⟨hkind, hstaged, hreported⟩ := h.callbacks other notice last hframe hcoin
    have hother : other ∈ s.out :=
      List.mem_filterMap.mpr ⟨_, hframe, by simp [Frame.out, hcoin]⟩
    refine ⟨hkind, ?_, hreported⟩
    rw [hlog other.ticket (h.custody.not_out hentry hother).2.symm]
    exact hstaged
  · have hcount := countP_blocked h.custody hentry
    rw [hpending, hnew.countP_eq, List.countP_cons]
    cases hstate : new.publicationState.isBlocked with
    | true =>
        rw [hstate] at hblocked
        simp only [Bool.toNat_true, if_true] at hblocked ⊢
        omega
    | false =>
        rw [hstate] at hblocked
        simp only [Bool.toNat_false, Bool.false_eq_true, if_false] at hblocked ⊢
        omega

theorem Inv.leave (h : Inv s) (hentry : entry ∈ s.pending) (hidle : entry.operationId ∉ s.remaining)
    (hpending : s'.pending = erasePending s.pending entry.operationId)
    (hremaining : s'.remaining = s.remaining) (haccepted : s'.accepted = s.accepted)
    (hkeys : s'.out.map PendingCurrency.operationId =
        entry.operationId :: s.out.map PendingCurrency.operationId ∨
      s'.out.map PendingCurrency.operationId = s.out.map PendingCurrency.operationId)
    (htickets : (s'.out.map PendingCurrency.ticket ++ s'.ended.map PendingCurrency.ticket).Perm
      (entry.ticket :: (s.out.map PendingCurrency.ticket ++ s.ended.map PendingCurrency.ticket)))
    (hlog : ∀ ticket, lastStaged s'.log ticket = lastStaged s.log ticket)
    (hcallbacks : ∀ other notice last, Frame.notifying other notice last ∈ s'.frames →
      notice.isCoin = true → Frame.notifying other notice last ∈ s.frames ∨
        (other.coin.isSome = true ∧ lastStaged s.log other.ticket = some other.completed ∧
          Reported other notice))
    (hhonest : HonestLog s'.log)
    (hnotices : s'.log.filterMap Record.notice = s'.log.filterMap Record.due)
    (hblocked : s.health.publicationBlocked ≤ s'.health.publicationBlocked) : Inv s' := by
  have hold := perm_erasePending h.custody.pending_nodup hentry
  have hmem : ∀ other, other ∈ s'.pending ↔
      other ∈ s.pending ∧ other.operationId ≠ entry.operationId := by
    intro other
    rw [hpending]
    exact Keyed.mem_erase
  refine ⟨⟨fun identity => ?_, fun ticket => ?_⟩, ?_, ?_, ?_, ?_, ?_, hhonest, hnotices⟩
  · have hcount := h.custody.keys identity
    rw [(hold.map _).count_eq, List.map_cons, List.count_cons] at hcount
    rw [hpending]
    rcases hkeys with hkeys | hkeys
    · rw [hkeys, List.count_cons]
      omega
    · rw [hkeys]
      omega
  · have hcount := h.custody.tickets ticket
    have hmoved := htickets.count_eq ticket
    rw [(hold.map _).count_eq, List.map_cons, List.count_cons] at hcount
    rw [List.count_append, List.count_cons, List.count_append] at hmoved
    rw [hpending, haccepted]
    omega
  · rw [hremaining]
    exact h.distinct
  · intro identity hidentity
    rw [hremaining] at hidentity
    obtain ⟨found, hfound, rfl, hlive⟩ := h.queued identity hidentity
    exact ⟨found, (hmem found).mpr ⟨hfound, fun hsame => hidle (hsame ▸ hidentity)⟩, rfl, hlive⟩
  · intro other hother hstate
    rw [hlog]
    exact h.receipts other ((hmem other).mp hother).1 hstate
  · intro other notice last hframe hcoin
    rw [hlog]
    rcases hcallbacks other notice last hframe hcoin with hold | hnew
    · exact h.callbacks other notice last hold hcoin
    · exact hnew
  · have hcount := countP_blocked h.custody hentry
    have := h.blocked
    rw [hpending]
    omega

theorem keep_inv (h : Inv s) (hpending : ∀ other ∈ s.pending, other.operationId ≠ entry.operationId)
    (hout : ∀ other ∈ s.out, other.operationId ≠ entry.operationId)
    (hnew : entry.publicationState = .awaitingCompletion) : Inv (s.keep entry) := by
  have hjoined : (s.keep entry).pending = s.pending ++ [{ entry with ticket := s.accepted }] :=
    emplace_absent hpending
  have habsent : (s.pending.map PendingCurrency.operationId).count entry.operationId = 0 ∧
      (s.out.map PendingCurrency.operationId).count entry.operationId = 0 := by
    refine ⟨List.count_eq_zero.mpr fun hmem => ?_, List.count_eq_zero.mpr fun hmem => ?_⟩
    · obtain ⟨other, hother, hsame⟩ := List.mem_map.mp hmem
      exact hpending other hother hsame
    · obtain ⟨other, hother, hsame⟩ := List.mem_map.mp hmem
      exact hout other hother hsame
  refine ⟨⟨fun identity => ?_, fun ticket => ?_⟩, h.distinct, ?_, ?_, ?_, ?_, h.honest, h.notices⟩
  · have hcount := h.custody.keys identity
    show _ + (s.out.map PendingCurrency.operationId).count identity ≤ 1
    rw [hjoined, List.map_append, List.map_singleton, List.count_append, List.count_singleton]
    split
    · next hsame =>
        rw [beq_iff_eq] at hsame
        subst hsame
        dsimp only at habsent ⊢
        omega
    · omega
  · have hcount := h.custody.tickets ticket
    show _ + (s.out.map PendingCurrency.ticket).count ticket +
      (s.ended.map PendingCurrency.ticket).count ticket = if ticket < s.accepted + 1 then 1 else 0
    rw [hjoined, List.map_append, List.map_singleton, List.count_append, List.count_singleton]
    by_cases hsame : s.accepted = ticket
    · subst hsame
      rw [if_neg (Nat.lt_irrefl _)] at hcount
      simp only [beq_self_eq_true, if_true, if_pos (Nat.lt_succ_self _)]
      omega
    · rw [if_neg (by simpa using hsame)]
      by_cases hlt : ticket < s.accepted
      · rw [if_pos hlt] at hcount
        rw [if_pos (Nat.lt_succ_of_lt hlt)]
        omega
      · rw [if_neg hlt] at hcount
        rw [if_neg (by omega)]
        omega
  · intro identity hidentity
    obtain ⟨found, hfound, hkey, hlive⟩ := h.queued identity hidentity
    exact ⟨found, hjoined ▸ List.mem_append_left _ hfound, hkey, hlive⟩
  · intro other hother hstate
    rw [hjoined] at hother
    rcases List.mem_append.mp hother with hold | hjoin
    · exact h.receipts other hold hstate
    · rw [List.mem_singleton.mp hjoin] at hstate
      exact absurd hnew hstate
  · intro other notice last hframe hcoin
    refine h.callbacks other notice last ?_ hcoin
    rcases List.mem_cons.mp hframe with hframe | hframe
    · cases hframe
    · exact hframe
  · have := h.blocked
    rw [hjoined, List.countP_append, List.countP_singleton]
    rw [hnew]
    exact this

section

variable {last : Bool} {frames : List Frame} {notice : CurrencyNotice} (h : Inv s)
  (hframes : s.frames = .notifying entry notice last :: frames) (hcoin : notice.isCoin = true)

include hframes

theorem remaining_notifying : s.remaining = frames.flatMap Frame.remaining := by
  unfold remaining
  rw [hframes]
  rfl

include hcoin

theorem out_notifying : s.out = entry :: frames.filterMap Frame.out := by
  unfold out
  rw [hframes]
  exact List.filterMap_cons_some (by simp [Frame.out, hcoin])

include h

theorem Inv.back (hkey : new.operationId = entry.operationId) (hticket : new.ticket = entry.ticket)
    (hcompleted : new.completed = entry.completed)
    (hstate : new.publicationState.isBlocked = false) :
    Inv { s with frames, pending := emplace s.pending new } := by
  have hout := out_notifying hframes hcoin
  have hremaining := remaining_notifying hframes
  have hjoined : emplace s.pending new = s.pending ++ [new] := by
    refine emplace_absent fun other hother => ?_
    rw [hkey]
    exact (h.custody.not_out hother (hout ▸ List.mem_cons_self)).1
  have hcallback := h.callbacks entry notice last (hframes ▸ List.mem_cons_self) hcoin
  rw [hjoined]
  refine ⟨⟨fun identity => ?_, fun ticket => ?_⟩, ?_, ?_, ?_, ?_, ?_, h.honest, h.notices⟩
  · have hcount := h.custody.keys identity
    show ((s.pending ++ [new]).map _).count identity +
      ((frames.filterMap Frame.out).map PendingCurrency.operationId).count identity ≤ 1
    rw [hout, List.map_cons, List.count_cons] at hcount
    rw [List.map_append, List.map_singleton, List.count_append, List.count_singleton, hkey]
    omega
  · have hcount := h.custody.tickets ticket
    show ((s.pending ++ [new]).map _).count ticket +
      ((frames.filterMap Frame.out).map PendingCurrency.ticket).count ticket +
      (s.ended.map PendingCurrency.ticket).count ticket = if ticket < s.accepted then 1 else 0
    rw [hout, List.map_cons, List.count_cons] at hcount
    rw [List.map_append, List.map_singleton, List.count_append, List.count_singleton, hticket]
    omega
  · show (frames.flatMap Frame.remaining).Nodup
    rw [← hremaining]
    exact h.distinct
  · intro identity hidentity
    obtain ⟨found, hfound, hsame, hlive⟩ := h.queued identity (hremaining ▸ hidentity)
    exact ⟨found, List.mem_append_left _ hfound, hsame, hlive⟩
  · intro other hother hstate'
    rcases List.mem_append.mp hother with hold | hjoin
    · exact h.receipts other hold hstate'
    · rw [List.mem_singleton.mp hjoin, hticket, hcompleted]
      exact hcallback.2.1
  · intro other otherNotice otherLast hframe
    exact h.callbacks other otherNotice otherLast (hframes ▸ List.mem_cons_of_mem _ hframe)
  · have := h.blocked
    show (s.pending ++ [new]).countP _ ≤ s.health.publicationBlocked
    rw [List.countP_append, List.countP_singleton, hstate]
    exact this

theorem Inv.close (hticket : new.ticket = entry.ticket)
    (hcompleted : new.completed = entry.completed) (hkind : new.coin = entry.coin) :
    Inv ({ s with frames }.finish new notice.committed) := by
  have hout := out_notifying hframes hcoin
  have hremaining := remaining_notifying hframes
  obtain ⟨hcoinEntry, hstaged, hreported⟩ :=
    h.callbacks entry notice last (hframes ▸ List.mem_cons_self) hcoin
  have hended : ({ s with frames }.finish new notice.committed).ended = s.ended ++ [new] := by
    simp [ended, finish, Record.ending]
  have hlog : ∀ ticket, lastStaged ({ s with frames }.finish new notice.committed).log ticket =
      lastStaged s.log ticket := fun ticket => lastStaged_finished ..
  refine ⟨⟨fun identity => ?_, fun ticket => ?_⟩, ?_, ?_, ?_, ?_, h.blocked, ?_, ?_⟩
  · have hcount := h.custody.keys identity
    show (s.pending.map _).count identity +
      ((frames.filterMap Frame.out).map PendingCurrency.operationId).count identity ≤ 1
    rw [hout, List.map_cons, List.count_cons] at hcount
    omega
  · have hcount := h.custody.tickets ticket
    show (s.pending.map _).count ticket +
      ((frames.filterMap Frame.out).map PendingCurrency.ticket).count ticket + _ =
        if ticket < s.accepted then 1 else 0
    rw [hended, List.map_append, List.map_singleton, List.count_append, List.count_singleton,
      hticket]
    rw [hout, List.map_cons, List.count_cons] at hcount
    omega
  · show (frames.flatMap Frame.remaining).Nodup
    rw [← hremaining]
    exact h.distinct
  · intro identity hidentity
    exact h.queued identity (hremaining ▸ hidentity)
  · intro other hother hstate
    rw [hlog]
    exact h.receipts other hother hstate
  · intro other otherNotice otherLast hframe
    rw [hlog]
    exact h.callbacks other otherNotice otherLast (hframes ▸ List.mem_cons_of_mem _ hframe)
  · refine honestLog_append.mpr ⟨h.honest, ?_⟩
    rw [Honest, hticket, hcompleted]
    exact ⟨hstaged, hreported.1, fun hno => hreported.2 (hreported.1 ▸ hno)⟩
  · show (s.log ++ [_]).filterMap Record.notice = (s.log ++ [_]).filterMap Record.due
    rw [List.filterMap_append, List.filterMap_append, h.notices]
    simp [Record.notice, Record.due, hkind, hcoinEntry]

theorem Inv.again {final : CurrencyNotice}
    (hkey : new.operationId = entry.operationId) (hticket : new.ticket = entry.ticket)
    (hcompleted : new.completed = entry.completed) (hkind : new.coin = entry.coin)
    (hfinal : final.isCoin = true ∧ final.committed = notice.committed) :
    Inv ({ s with frames }.notify new final true) := by
  have hout := out_notifying hframes hcoin
  have hout' : ({ s with frames }.notify new final true).out =
      new :: frames.filterMap Frame.out :=
    List.filterMap_cons_some (by simp [Frame.out, hfinal.1])
  have hremaining := remaining_notifying hframes
  obtain ⟨hcoinEntry, hstaged, hreported⟩ :=
    h.callbacks entry notice last (hframes ▸ List.mem_cons_self) hcoin
  have hended : ({ s with frames }.notify new final true).ended = s.ended := by
    simp [ended, notify, Record.ending]
  have hlog : ∀ ticket, lastStaged ({ s with frames }.notify new final true).log ticket =
      lastStaged s.log ticket := fun ticket => lastStaged_notified ..
  have hreportedNew : Reported new final := by
    unfold Reported
    rw [hcompleted, hfinal.2]
    exact hreported
  refine ⟨⟨fun identity => ?_, fun ticket => ?_⟩, ?_, ?_, ?_, ?_, h.blocked, ?_, ?_⟩
  · have hcount := h.custody.keys identity
    rw [hout, List.map_cons] at hcount
    rw [hout', List.map_cons, hkey]
    exact hcount
  · have hcount := h.custody.tickets ticket
    rw [hout, List.map_cons] at hcount
    rw [hout', List.map_cons, hticket, hended]
    exact hcount
  · show (frames.flatMap Frame.remaining).Nodup
    rw [← hremaining]
    exact h.distinct
  · intro identity hidentity
    exact h.queued identity (hremaining ▸ hidentity)
  · intro other hother hstate
    rw [hlog]
    exact h.receipts other hother hstate
  · intro other otherNotice otherLast hframe hotherCoin
    rw [hlog]
    rcases List.mem_cons.mp hframe with hsame | hframe
    · cases hsame
      rw [hkind, hticket, hcompleted]
      exact ⟨hcoinEntry, hstaged, hreportedNew⟩
    · exact h.callbacks other otherNotice otherLast (hframes ▸ List.mem_cons_of_mem _ hframe)
        hotherCoin
  · refine honestLog_append.mpr ⟨h.honest, ?_⟩
    rw [Honest, hticket, hcompleted]
    exact ⟨hstaged, hreportedNew⟩
  · show (s.log ++ [_]).filterMap Record.notice = (s.log ++ [_]).filterMap Record.due
    rw [List.filterMap_append, List.filterMap_append, h.notices]
    simp [Record.notice, Record.due, hkind, hcoinEntry]

end

/-- What changes neither the map, nor what is out or to be published, nor the log. -/
theorem Inv.same (h : Inv s) (hpending : s'.pending = s.pending) (hout : s'.out = s.out)
    (hremaining : s'.remaining.Sublist s.remaining) (haccepted : s'.accepted = s.accepted)
    (hlog : s'.log = s.log)
    (hcallbacks : ∀ other notice last, Frame.notifying other notice last ∈ s'.frames →
      notice.isCoin = true → Frame.notifying other notice last ∈ s.frames)
    (hblocked : s'.pending.countP (fun other => other.publicationState.isBlocked) ≤
      s'.health.publicationBlocked) : Inv s' := by
  refine ⟨⟨?_, ?_⟩, h.distinct.sublist hremaining, ?_, ?_, ?_, hblocked, ?_, ?_⟩
  · rw [hpending, hout]
    exact h.custody.keys
  · have hended : s'.ended = s.ended := congrArg (List.filterMap Record.ending) hlog
    rw [hpending, hout, haccepted, hended]
    exact h.custody.tickets
  · intro identity hidentity
    rw [hpending]
    exact h.queued identity (hremaining.subset hidentity)
  · rw [hpending, hlog]
    exact h.receipts
  · intro other notice last hframe hcoin
    rw [hlog]
    exact h.callbacks other notice last (hcallbacks other notice last hframe hcoin) hcoin
  · rw [hlog]
    exact h.honest
  · rw [hlog]
    exact h.notices

end Moves

end CurrencyTransactions

end Duris.Economy
