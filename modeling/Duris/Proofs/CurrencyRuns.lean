import Duris.Proofs.CoinTransfer
import Duris.Proofs.PendingCurrency

/-!
# Pending operations over a run

What each function of the module does to the invariant, and from it what holds after every
run of submissions, batches of completions, players who are ready and callbacks that
submit again.
-/

namespace Duris.Economy

open Persistence

namespace CurrencyTransactions

/-! ## Prepared entries -/

section Prepared

variable {sha256 : Bytes → Vector UInt8 32} {s : CurrencyTransactions} {entry : PendingCurrency}
  {completion : Option CallbackRef} {context : Bytes} {answers : CoordinatorAnswers}

theorem ite_error_eq_ok {ε α : Type} {c : Prop} [Decidable c] {e : ε} {x : Except ε α} {v : α} :
    (if c then .error e else x) = .ok v ↔ ¬c ∧ x = .ok v := by
  split
  · next hc => simp [hc]
  · next hc => simp [hc]

theorem prepareEntry_ok {character : CharacterRef} {command : CriticalCommand}
    (h : s.prepareEntry sha256 character command completion context answers = .ok entry) :
    entry.operationId = command.operationId ∧
      (∀ other ∈ s.pending, other.operationId ≠ command.operationId) ∧
      entry.publicationState = .awaitingCompletion := by
  unfold prepareEntry at h
  split at h
  · cases h
  · rw [ite_error_eq_ok, ite_error_eq_ok, ite_error_eq_ok, ite_error_eq_ok] at h
    obtain ⟨-, habsent, -, -, hentry⟩ := h
    rw [Option.not_isSome_iff_eq_none] at habsent
    cases hentry
    exact ⟨rfl, Keyed.lookup_eq_none.mp habsent, rfl⟩

theorem coinEntry_some {actor : CharacterRef} {payload : CoinTransferPayload}
    {operationId : CriticalOperationId}
    (h : s.coinEntry sha256 actor payload operationId completion context answers = some entry) :
    entry.operationId = operationId ∧ entry.publicationState = .awaitingCompletion := by
  unfold coinEntry at h
  split at h
  · cases h
  · split at h
    · cases h
    · split at h
      · cases h
      · cases h
        exact ⟨rfl, rfl⟩

end Prepared

/-! ## The steps -/

section Steps

variable {s : CurrencyTransactions} {entry : PendingCurrency} {identity : CriticalOperationId}

theorem stage_inv (h : Inv s) (identity : CriticalOperationId) (completion : CriticalCompletion)
    (retrySameBlockedReceipt : Bool) :
    Inv (s.stage identity completion retrySameBlockedReceipt) := by
  unfold stage
  split
  · exact h
  · next entry hfound =>
      split
      · exact h
      · have hentry := (findPending_eq_some hfound).1
        have := h.blocked
        refine h.set hentry { entry with completed := completion, publicationState := .ready }
          rfl rfl (.inr rfl) rfl rfl rfl ?_ ?_ ?_ ?_ ?_ ?_
        · intro ticket hne
          rw [lastStaged_staged, if_neg (Ne.symm hne)]
        · simp [Record.ending]
        · exact honestLog_append.mpr ⟨h.honest, trivial⟩
        · show (s.log ++ [_]).filterMap Record.notice = (s.log ++ [_]).filterMap Record.due
          rw [List.filterMap_append, List.filterMap_append, h.notices]
          rfl
        · intro _
          rw [lastStaged_staged, if_pos rfl]
        · show _ + 0 ≤ s.health.publicationBlocked + _
          omega

theorem attempt_inv (h : Inv s) (hentry : entry ∈ s.pending)
    (hlive : entry.publicationState.isLivePending = true) (world : World) :
    Inv (s.attempt entry world) := by
  have hlog : ∀ ticket, lastStaged (s.attempt entry world).log ticket = lastStaged s.log ticket :=
    fun ticket => lastStaged_tried ..
  have hended : (s.attempt entry world).ended = s.ended := by
    simp [ended, attempt, Record.ending]
  have hstaged := h.receipts entry hentry (livePending_not_awaiting hlive)
  refine ⟨⟨h.custody.keys, ?_⟩, h.distinct, h.queued, ?_, ?_, h.blocked,
    honestLog_append.mpr ⟨h.honest, hlive, hstaged⟩, ?_⟩
  · intro ticket
    rw [hended]
    exact h.custody.tickets ticket
  · intro other hother hstate
    rw [hlog]
    exact h.receipts other hother hstate
  · intro other notice last hframe hcoin
    rw [hlog]
    exact h.callbacks other notice last hframe hcoin
  · show (s.log ++ [_]).filterMap Record.notice = (s.log ++ [_]).filterMap Record.due
    rw [List.filterMap_append, List.filterMap_append, h.notices]
    rfl

theorem retain_inv (h : Inv s) (hentry : entry ∈ s.pending)
    (hlive : entry.publicationState.isLivePending = true) (hidle : entry.operationId ∉ s.remaining)
    (malformed : Bool) : Inv (s.retain entry malformed) := by
  have hstaged := h.receipts entry hentry (livePending_not_awaiting hlive)
  have hunblocked := livePending_not_blocked hlive
  have := h.blocked
  unfold retain
  rw [if_neg (by simp [hunblocked])]
  refine h.set hentry { entry with publicationState := .blockedReceipt } rfl rfl (.inl hidle)
    rfl rfl rfl (fun _ _ => rfl) rfl h.honest h.notices (fun _ => hstaged) ?_
  rw [hunblocked]
  show _ + 1 ≤ s.health.publicationBlocked + 1 + 0
  omega

section Extract

variable {published : Bool} {notice : CurrencyNotice}

theorem ended_perm (s : CurrencyTransactions) (entry : PendingCurrency) (committed : Bool) :
    (s.out.map PendingCurrency.ticket ++
      ((s.log ++ [Record.finished entry committed]).filterMap Record.ending).map
        PendingCurrency.ticket).Perm
      (entry.ticket :: (s.out.map PendingCurrency.ticket ++
        s.ended.map PendingCurrency.ticket)) := by
  have hended : (s.log ++ [Record.finished entry committed]).filterMap Record.ending =
      s.ended ++ [entry] := by
    simp [ended, Record.ending]
  rw [hended, List.map_append, List.map_singleton, ← List.append_assoc]
  exact List.perm_append_singleton ..

theorem eraseFinish_inv (h : Inv s) (hentry : entry ∈ s.pending)
    (hlive : entry.publicationState.isLivePending = true) (hidle : entry.operationId ∉ s.remaining)
    (hreported : Reported entry notice)
    (hdue : entry.coin.isSome = true ∨ entry.completion.isNone = true) :
    Inv ((s.erase { entry with coinWalletsPublished := published }).finish
      { entry with coinWalletsPublished := published } notice.committed) := by
  have hstaged := h.receipts entry hentry (livePending_not_awaiting hlive)
  refine h.leave hentry hidle rfl rfl rfl (.inr rfl) (ended_perm s _ _)
    (fun ticket => lastStaged_finished ..) (fun _ _ _ hframe _ => .inl hframe) ?_ ?_
    (Nat.le_refl _)
  · exact honestLog_append.mpr ⟨h.honest, hstaged, hreported.1,
      fun hno => hreported.2 (hreported.1 ▸ hno)⟩
  · show (s.log ++ [_]).filterMap Record.notice = (s.log ++ [_]).filterMap Record.due
    rw [List.filterMap_append, List.filterMap_append, h.notices]
    simp only [List.filterMap_cons, List.filterMap_nil, Record.notice, Record.due, if_pos hdue]

theorem eraseFinishNotify_inv (h : Inv s) (hentry : entry ∈ s.pending)
    (hlive : entry.publicationState.isLivePending = true) (hidle : entry.operationId ∉ s.remaining)
    (hreported : Reported entry notice) (hkind : notice.isCoin = false)
    (hcoin : entry.coin = none) (hcallback : entry.completion.isSome = true) :
    Inv (((s.erase { entry with coinWalletsPublished := published }).finish
      { entry with coinWalletsPublished := published } notice.committed).notify
        { entry with coinWalletsPublished := published } notice false) := by
  have hstaged := h.receipts entry hentry (livePending_not_awaiting hlive)
  refine h.leave hentry hidle rfl rfl rfl (.inr ?_) ?_ ?_ ?_ ?_ ?_ (Nat.le_refl _)
  · show (List.filterMap Frame.out (_ :: s.frames)).map _ = _
    rw [List.filterMap_cons_none (by simp [Frame.out, hkind])]
    rfl
  · refine List.Perm.trans (List.Perm.of_eq ?_) (ended_perm s
      { entry with coinWalletsPublished := published } notice.committed)
    congr 1
    · show (List.filterMap Frame.out (_ :: s.frames)).map _ = _
      rw [List.filterMap_cons_none (by simp [Frame.out, hkind])]
      rfl
    · show ((s.log ++ [_] ++ [_]).filterMap Record.ending).map _ = _
      rw [List.filterMap_append, List.filterMap_cons_none rfl, List.filterMap_nil,
        List.append_nil]
  · intro ticket
    show lastStaged (s.log ++ [_] ++ [_]) ticket = _
    rw [lastStaged_notified, lastStaged_finished]
  · intro other otherNotice last hframe hotherCoin
    rcases List.mem_cons.mp hframe with hsame | hframe
    · cases hsame
      rw [hkind] at hotherCoin
      cases hotherCoin
    · exact .inl hframe
  · refine honestLog_append.mpr ⟨honestLog_append.mpr ⟨h.honest, hstaged, hreported.1,
      fun hno => hreported.2 (hreported.1 ▸ hno)⟩, ?_⟩
    exact ⟨(lastStaged_finished ..).trans hstaged, hreported⟩
  · show (s.log ++ [_] ++ [_]).filterMap Record.notice = (s.log ++ [_] ++ [_]).filterMap Record.due
    simp only [List.filterMap_append, h.notices]
    simp [Record.notice, Record.due, hcoin, Option.isSome_iff_ne_none.mp hcallback,
      List.filterMap_cons]

theorem eraseNotify_inv (h : Inv s) (hentry : entry ∈ s.pending)
    (hlive : entry.publicationState.isLivePending = true) (hidle : entry.operationId ∉ s.remaining)
    (hreported : Reported entry notice) (hkind : notice.isCoin = true)
    (hcoin : entry.coin.isSome = true) :
    Inv ((s.erase { entry with coinWalletsPublished := published }).notify
      { entry with coinWalletsPublished := published } notice false) := by
  have hstaged := h.receipts entry hentry (livePending_not_awaiting hlive)
  have hout : ((s.erase { entry with coinWalletsPublished := published }).notify
      { entry with coinWalletsPublished := published } notice false).out =
        { entry with coinWalletsPublished := published } :: s.out :=
    List.filterMap_cons_some (by simp [Frame.out, hkind])
  have hended : ((s.erase { entry with coinWalletsPublished := published }).notify
      { entry with coinWalletsPublished := published } notice false).ended = s.ended := by
    simp [ended, notify, erase, Record.ending]
  refine h.leave hentry hidle rfl rfl rfl (.inl ?_) ?_ (fun ticket => lastStaged_notified ..) ?_
    ?_ ?_ (Nat.le_refl _)
  · rw [hout]
    rfl
  · rw [hout, hended]
    rfl
  · intro other otherNotice last hframe _
    rcases List.mem_cons.mp hframe with hsame | hframe
    · cases hsame
      exact .inr ⟨hcoin, hstaged, hreported⟩
    · exact .inl hframe
  · exact honestLog_append.mpr ⟨h.honest, hstaged, hreported⟩
  · show (s.log ++ [_]).filterMap Record.notice = (s.log ++ [_]).filterMap Record.due
    rw [List.filterMap_append, List.filterMap_append, h.notices]
    simp [Record.notice, Record.due, hcoin]

theorem extract_inv (h : Inv s) (hentry : entry ∈ s.pending)
    (hlive : entry.publicationState.isLivePending = true) (hidle : entry.operationId ∉ s.remaining)
    (hreported : Reported entry notice) (hkind : notice.isCoin = entry.coin.isSome) :
    Inv (s.extract { entry with coinWalletsPublished := published } notice) := by
  unfold extract
  split
  · next hcoin =>
      split
      · next hcallback =>
          exact eraseFinishNotify_inv h hentry hlive hidle hreported
            (hkind.trans (Option.isSome_eq_false_iff.mpr (Option.isNone_iff_eq_none.mpr hcoin)))
            hcoin hcallback
      · next hnone =>
          exact eraseFinish_inv h hentry hlive hidle hreported (.inr (by simpa using hnone))
  · next coin hcoin =>
      have hsome : entry.coin.isSome = true := Option.isSome_iff_exists.mpr ⟨coin, hcoin⟩
      split
      · exact eraseNotify_inv h hentry hlive hidle hreported (hkind.trans hsome) hsome
      · exact eraseFinish_inv h hentry hlive hidle hreported (.inl hsome)

end Extract

/-! ## Publishing and submitting -/

variable {sha256 : Bytes → Vector UInt8 32} {frame : Frame}

theorem publish_inv (h : Inv s) (hidle : identity ∉ s.remaining)
    (hlive : ∀ entry ∈ s.pending, entry.operationId = identity →
      entry.publicationState.isLivePending = true) (character : Option CharacterRef) :
    Inv (s.publish sha256 identity character) := by
  unfold publish
  split
  · exact h
  · next entry hfound =>
      obtain ⟨hentry, rfl⟩ := findPending_eq_some hfound
      have hentryLive := hlive entry hentry rfl
      split
      next world published publication hpublish =>
        have hattempt := attempt_inv h hentry hentryLive world
        cases publication with
        | retained reason malformed =>
            rw [publishEntry_retained hpublish]
            exact retain_inv hattempt hentry hentryLive hidle malformed
        | notify notice malformed =>
            obtain ⟨⟨walletsPublished, rfl⟩, hreported, hkind⟩ := publishEntry_notify hpublish
            have hcounted : Inv ((s.attempt entry world).countMalformed malformed) :=
              hattempt.same rfl rfl (List.Sublist.refl _) rfl rfl (fun _ _ _ hframe _ => hframe)
                hattempt.blocked
            exact extract_inv hcounted hentry hentryLive hidle hreported hkind

theorem stage_frames (s : CurrencyTransactions) (identity : CriticalOperationId)
    (completion : CriticalCompletion) (retrySameBlockedReceipt : Bool) :
    (s.stage identity completion retrySameBlockedReceipt).frames = s.frames := by
  unfold stage
  split
  · rfl
  · split <;> rfl

theorem stage_live (completion : CriticalCompletion)
    (hentry : entry ∈ (s.stage identity completion true).pending)
    (hkey : entry.operationId = identity) : entry.publicationState.isLivePending = true := by
  unfold stage at hentry
  split at hentry
  · next habsent => exact absurd hkey (Keyed.lookup_eq_none.mp habsent entry hentry)
  · next found hfound =>
      rw [if_neg (by simp)] at hentry
      obtain ⟨other, hother, hset⟩ := List.mem_map.mp hentry
      obtain ⟨-, hsame⟩ := findPending_eq_some hfound
      split at hset
      · rw [← hset]
        rfl
      · next hne =>
          rw [hset] at hne
          exact absurd (hkey.trans hsame.symm) hne

theorem submitEntry_inv (h : Inv s)
    (hpending : ∀ other ∈ s.pending, other.operationId ≠ entry.operationId)
    (hout : ∀ other ∈ s.out, other.operationId ≠ entry.operationId)
    (hnew : entry.publicationState = .awaitingCompletion) (character : CharacterRef)
    (answers : CoordinatorAnswers) : Inv (s.submitEntry sha256 entry character answers) := by
  have hkept := keep_inv h hpending hout hnew
  -- No loop is to publish what was not there when it began.
  have hidle : entry.operationId ∉ s.remaining := by
    intro hqueued
    obtain ⟨other, hother, hkey, -⟩ := h.queued _ hqueued
    exact hpending other hother hkey
  unfold submitEntry
  split
  · unfold publishCompletedIfAvailable
    split
    · exact hkept
    · next completion _ =>
        refine publish_inv (stage_inv hkept _ completion true) ?_
          (fun _ => stage_live completion) _
        unfold remaining
        rw [stage_frames]
        exact hidle
  · split
    · exact hkept
    · exact h.same (erasePending_emplace hpending) rfl (List.Sublist.refl _) rfl rfl
        (fun _ _ _ hframe _ => hframe) (by
          show (erasePending (emplace s.pending entry) entry.operationId).countP _ ≤ _
          rw [erasePending_emplace hpending]
          exact h.blocked)

theorem submitPrepared_inv (h : Inv s) (character : CharacterRef) (command : CriticalCommand)
    (completion : Option CallbackRef) (context : Bytes) (answers : CoordinatorAnswers)
    (hunused : ∀ other ∈ s.out, other.operationId ≠ command.operationId) :
    Inv (s.submitPrepared sha256 character command completion context answers) := by
  unfold submitPrepared
  split
  · exact h
  · next entry hprepared =>
      obtain ⟨hkey, habsent, hnew⟩ := prepareEntry_ok hprepared
      refine submitEntry_inv h ?_ ?_ hnew character answers
      · rw [hkey]
        exact habsent
      · rw [hkey]
        exact hunused

theorem submitCoin_inv (h : Inv s) (actor : CharacterRef) (payload : CoinTransferPayload)
    (operationId : CriticalOperationId) (completion : Option CallbackRef) (context : Bytes)
    (answers : CoordinatorAnswers) (hpending : ∀ other ∈ s.pending, other.operationId ≠ operationId)
    (hout : ∀ other ∈ s.out, other.operationId ≠ operationId) :
    Inv (s.submitCoin sha256 actor payload operationId completion context answers) := by
  unfold submitCoin
  split
  · exact h
  · next entry hprepared =>
      obtain ⟨hkey, hnew⟩ := coinEntry_some hprepared
      refine submitEntry_inv h ?_ ?_ hnew actor answers
      · rw [hkey]
        exact hpending
      · rw [hkey]
        exact hout

/-! ## The game thread -/

theorem updateRetainedHealth_inv (h : Inv s) : Inv s.updateRetainedHealth :=
  h.same rfl rfl (List.Sublist.refl _) rfl rfl (fun _ _ _ hframe _ => hframe) (Nat.le_refl _)

theorem reframe_inv (h : Inv s) (before : List Frame) {after : List Frame}
    (hframes : s.frames = frame :: after) (hout : Frame.out frame = none)
    (hbefore : before.filterMap Frame.out = [])
    (hremaining : (before.flatMap Frame.remaining).Sublist frame.remaining)
    (hplain : ∀ other notice last, Frame.notifying other notice last ∉ before) :
    Inv { s with frames := before ++ after } := by
  refine h.same rfl ?_ ?_ rfl rfl ?_ h.blocked
  · unfold out
    rw [hframes, List.filterMap_cons_none hout]
    show (before ++ after).filterMap Frame.out = _
    rw [List.filterMap_append, hbefore, List.nil_append]
  · unfold remaining
    rw [hframes, List.flatMap_cons]
    show ((before ++ after).flatMap Frame.remaining).Sublist _
    rw [List.flatMap_append]
    exact List.Sublist.append hremaining (List.Sublist.refl _)
  · intro other notice last hframe _
    rw [hframes]
    rcases List.mem_append.mp hframe with hnew | hold
    · exact absurd hnew (hplain other notice last)
    · exact List.mem_cons_of_mem _ hold

theorem collect_spec (h : Inv s) (order : List CriticalOperationId)
    (wanted : PendingCurrency → Bool) :
    (s.collect order wanted).Nodup ∧ ∀ identity ∈ s.collect order wanted,
      ∃ entry ∈ s.pending, entry.operationId = identity ∧ wanted entry = true := by
  have hwalked : (walked order s.pending).Nodup := by
    unfold walked
    split
    · next hperm => exact (List.isPerm_iff.mp hperm).nodup_iff.mpr h.custody.pending_nodup
    · exact h.custody.pending_nodup
  refine ⟨(hwalked.filter _).sublist (List.take_sublist ..), ?_⟩
  intro identity hidentity
  have hwanted := (List.mem_filter.mp (List.mem_of_mem_take hidentity)).2
  obtain ⟨entry, hfound, hyes⟩ := (Option.any_eq_true _ _).mp hwanted
  obtain ⟨hentry, hkey⟩ := findPending_eq_some hfound
  exact ⟨entry, hentry, hkey, hyes⟩

theorem begin_inv (h : Inv s) (hframes : s.frames = []) (hout : frame.out = none)
    (hplain : ∀ other notice last, frame ≠ .notifying other notice last)
    (hdistinct : frame.remaining.Nodup)
    (hlive : ∀ identity ∈ frame.remaining, ∃ entry ∈ s.pending, entry.operationId = identity ∧
      entry.publicationState.isLivePending = true) :
    Inv { s with frames := frame :: s.frames } := by
  have hremaining : ({ s with frames := frame :: s.frames } : CurrencyTransactions).remaining =
      frame.remaining := by
    show (frame :: s.frames).flatMap Frame.remaining = _
    rw [hframes, List.flatMap_cons, List.flatMap_nil, List.append_nil]
  have houtSame : ({ s with frames := frame :: s.frames } : CurrencyTransactions).out = s.out :=
    List.filterMap_cons_none hout
  refine ⟨⟨?_, ?_⟩, ?_, ?_, h.receipts, ?_, h.blocked, h.honest, h.notices⟩
  · rw [houtSame]
    exact h.custody.keys
  · rw [houtSame]
    exact h.custody.tickets
  · rw [hremaining]
    exact hdistinct
  · rw [hremaining]
    exact hlive
  · intro other notice last hframe
    rcases List.mem_cons.mp hframe with hsame | hold
    · exact absurd hsame.symm (hplain other notice last)
    · exact h.callbacks other notice last hold

theorem stageAll_inv (completions : List CriticalCompletion) :
    ∀ {s : CurrencyTransactions}, Inv s →
      Inv (completions.foldl (fun s completion => s.stage completion.operationId completion false)
        s) ∧
      (completions.foldl (fun s completion => s.stage completion.operationId completion false)
        s).frames = s.frames := by
  induction completions with
  | nil => intro s h; exact ⟨h, rfl⟩
  | cons completion completions ih =>
      intro s h
      obtain ⟨hinv, hframes⟩ := ih (stage_inv h completion.operationId completion false)
      exact ⟨hinv, hframes.trans (stage_frames ..)⟩

theorem isLivePending_of_isReady {state : CurrencyPublicationState} (h : state.isReady = true) :
    state.isLivePending = true := by
  unfold CurrencyPublicationState.isLivePending
  rw [h]
  rfl

theorem handleCompletions_inv (h : Inv s) (hframes : s.frames = [])
    (completions : List CriticalCompletion) (order : List CriticalOperationId) :
    Inv (s.handleCompletions completions order) := by
  obtain ⟨hstaged, hsame⟩ := stageAll_inv completions h
  obtain ⟨hdistinct, hwanted⟩ := collect_spec hstaged order fun entry =>
    entry.publicationState.isReady
  refine begin_inv hstaged (hsame.trans hframes) rfl (fun _ _ _ => nofun) hdistinct ?_
  intro identity hidentity
  obtain ⟨entry, hentry, hkey, hready⟩ := hwanted identity hidentity
  exact ⟨entry, hentry, hkey, isLivePending_of_isReady hready⟩

theorem playerReady_inv (h : Inv s) (hframes : s.frames = []) (character : CharacterRef)
    (order : List CriticalOperationId) : Inv (s.playerReady character order) := by
  unfold playerReady
  split
  · exact h
  · obtain ⟨hdistinct, hwanted⟩ := collect_spec h order fun entry =>
      entry.pid == (s.game.world.character character).pid && entry.publicationState.isLivePending
    refine begin_inv h hframes rfl (fun _ _ _ => nofun) hdistinct ?_
    intro identity hidentity
    obtain ⟨entry, hentry, hkey, hyes⟩ := hwanted identity hidentity
    rw [Bool.and_eq_true] at hyes
    exact ⟨entry, hentry, hkey, hyes.2⟩

theorem handleOne_inv (h : Inv s) (hidle : identity ∉ s.remaining)
    (hlive : ∀ entry ∈ s.pending, entry.operationId = identity →
      entry.publicationState.isLivePending = true) : Inv (s.handleOne sha256 identity) := by
  unfold handleOne
  split
  · exact h
  · next entry hfound =>
      split
      · exact publish_inv h hidle hlive _
      · obtain ⟨hentry, rfl⟩ := findPending_eq_some hfound
        have hstaged := h.receipts entry hentry
          (livePending_not_awaiting (hlive entry hentry rfl))
        have := h.blocked
        refine h.set hentry { entry with publicationState := .waitingForPlayer } rfl rfl
          (.inr rfl) rfl rfl rfl (fun _ _ => rfl) rfl h.honest h.notices (fun _ => hstaged) ?_
        show _ + 0 ≤ s.health.publicationBlocked + _
        omega

/-- What a loop takes up next is in the map and live, and it does not come again. -/
theorem next_spec (h : Inv s) {ready : List CriticalOperationId} {frames : List Frame}
    (hframes : s.frames = frame :: frames) (hremaining : frame.remaining = identity :: ready) :
    identity ∉ ready ++ frames.flatMap Frame.remaining ∧ ∀ entry ∈ s.pending,
      entry.operationId = identity → entry.publicationState.isLivePending = true := by
  have hall : s.remaining = identity :: (ready ++ frames.flatMap Frame.remaining) := by
    unfold remaining
    rw [hframes, List.flatMap_cons, hremaining, List.cons_append]
  refine ⟨(List.nodup_cons.mp (hall ▸ h.distinct)).1, ?_⟩
  intro entry hentry hkey
  obtain ⟨other, hother, hsame, hlive⟩ := h.queued identity (hall ▸ List.mem_cons_self)
  rw [h.custody.eq_of_key hentry hother (hkey.trans hsame.symm)]
  exact hlive

theorem advance_inv (h : Inv s) (sha256 : Bytes → Vector UInt8 32) : Inv (s.advance sha256) := by
  unfold advance
  split
  · next frames hframes =>
      exact updateRetainedHealth_inv (reframe_inv h [] hframes rfl rfl
        (List.Sublist.refl _) (fun _ _ _ => nofun))
  · next identity ready frames hframes =>
      obtain ⟨hidle, hlive⟩ := next_spec h hframes rfl
      have hnext : Inv { s with frames := .handling ready :: frames } :=
        reframe_inv h [.handling ready] hframes rfl rfl
          (by simp [Frame.remaining]) (by simp)
      exact handleOne_inv hnext hidle hlive
  · next character frames hframes =>
      exact updateRetainedHealth_inv (reframe_inv h [] hframes rfl rfl
        (List.Sublist.refl _) (fun _ _ _ => nofun))
  · next identity ready character frames hframes =>
      obtain ⟨hidle, hlive⟩ := next_spec h hframes rfl
      have hnext : Inv { s with frames := .readying ready character :: frames } :=
        reframe_inv h [.readying ready character] hframes rfl rfl
          (by simp [Frame.remaining]) (by simp)
      exact publish_inv hnext hidle hlive _
  · next frames hframes =>
      exact updateRetainedHealth_inv (reframe_inv h [] hframes rfl rfl
        (List.Sublist.refl _) (fun _ _ _ => nofun))
  · next frames hframes =>
      have hdone : Inv { s with frames } := reframe_inv h [] hframes rfl rfl
        (List.Sublist.refl _) (fun _ _ _ => nofun)
      exact hdone.same rfl rfl (List.Sublist.refl _) rfl rfl (fun _ _ _ hframe _ => hframe)
        hdone.blocked
  · exact h

theorem cleanupNotice_spec (notice : CurrencyNotice) (hcoin : notice.isCoin = true)
    (hcommitted : notice.committed = true) :
    (cleanupNotice notice).isCoin = true ∧
      (cleanupNotice notice).committed = notice.committed := by
  cases notice with
  | currency => cases hcoin
  | coin => exact ⟨rfl, hcommitted.symm⟩

theorem concludeCoin_inv (h : Inv s) {notice : CurrencyNotice} {last : Bool}
    {frames : List Frame} (hframes : s.frames = .notifying entry notice last :: frames)
    (hcoin : notice.isCoin = true) (attempts : Nat) (published : Bool) :
    Inv (({ s with frames } : CurrencyTransactions).concludeCoin
      { entry with publicationAttempts := attempts } notice published) := by
  have habandoned : Inv s.abandon :=
    h.same rfl rfl (List.Sublist.refl _) rfl rfl (fun _ _ _ hframe _ => hframe) h.blocked
  unfold concludeCoin
  split
  · exact h.close hframes hcoin rfl rfl rfl
  · split
    · exact h.back hframes hcoin rfl rfl rfl rfl
    · split
      · next hagain =>
          exact habandoned.again hframes hcoin rfl rfl rfl rfl
            (cleanupNotice_spec notice hcoin hagain.1)
      · exact habandoned.close hframes hcoin rfl rfl rfl

theorem callbackReturns_inv (h : Inv s) (published : Bool) : Inv (s.callbackReturns published) := by
  unfold callbackReturns
  split
  · next frames hframes =>
      exact h.same rfl (by unfold out; rw [hframes]; rfl)
        (by unfold remaining; rw [hframes]; exact List.Sublist.refl _) rfl rfl
        (fun _ _ _ hframe _ => hframes ▸ List.mem_cons_of_mem _ hframe) h.blocked
  · next entry actor committed payload result errorCode last frames hframes =>
      split
      · exact h.close hframes rfl rfl rfl rfl
      · exact concludeCoin_inv h hframes rfl _ published
  · exact h

/-! ## Runs -/

/-- An id that `critical_operation_id_generate` made is no other operation's, and nobody
submits under the id of an operation that is out at a callback. -/
def IdsUnused (s : CurrencyTransactions) : Event → Prop
  | .submitPrepared _ command _ _ _ => ∀ other ∈ s.out, other.operationId ≠ command.operationId
  | .submitCoin _ _ operationId _ _ _ =>
      (∀ other ∈ s.pending, other.operationId ≠ operationId) ∧
        ∀ other ∈ s.out, other.operationId ≠ operationId
  | _ => True

theorem step_inv (h : Inv s) (e : Event) (hunused : IdsUnused s e) : Inv (step sha256 s e) := by
  cases e with
  | submitPrepared character command completion context answers =>
      rw [step]
      split
      · exact submitPrepared_inv h character command completion context answers hunused
      · exact h
  | submitCoin actor payload operationId completion context answers =>
      rw [step]
      split
      · exact submitCoin_inv h actor payload operationId completion context answers hunused.1
          hunused.2
      · exact h
  | handleCompletions completions order =>
      rw [step]
      split
      · next hidle => exact handleCompletions_inv h (List.isEmpty_iff.mp hidle) completions order
      · exact h
  | playerReady character order =>
      rw [step]
      split
      · next hidle => exact playerReady_inv h (List.isEmpty_iff.mp hidle) character order
      · exact h
  | advance => exact advance_inv h sha256
  | callbackReturns published => exact callbackReturns_inv h published
  | healthCopy =>
      rw [step]
      split
      · exact updateRetainedHealth_inv h
      · exact h
  | play game =>
      rw [step]
      split
      · exact h.same rfl rfl (List.Sublist.refl _) rfl rfl (fun _ _ _ hframe _ => hframe)
          h.blocked
      · exact h

theorem start_inv (game : Game) : Inv { game } := by
  refine ⟨⟨fun _ => Nat.zero_le _, fun ticket => (if_neg (Nat.not_lt_zero ticket)).symm⟩,
    List.nodup_nil, ?_, ?_, ?_, Nat.le_refl _, trivial, rfl⟩
  · intro identity hidentity
    cases hidentity
  · intro entry hentry
    cases hentry
  · intro entry notice last hframe
    cases hframe

theorem run_inv (game : Game) (events : List Event)
    (hunused : Along (step sha256) IdsUnused { game } events) :
    Inv (run (step sha256) { game } events) :=
  run_invariant_along (P := Inv) (fun _ e h hok => step_inv h e hok) events (start_inv game) hunused

end Steps

/-! ## Blocked entries -/

def tries (s : CurrencyTransactions) (ticket : Nat) : Nat :=
  s.log.countP fun record =>
    match record with
    | .tried entry => entry.ticket == ticket
    | _ => false

/-- The entry is where it was, and nothing was tried on it. -/
def Quiet (entry : PendingCurrency) (s s' : CurrencyTransactions) : Prop :=
  entry ∈ s'.pending ∧ s'.tries entry.ticket = s.tries entry.ticket

section Blocked

variable {s s' s'' : CurrencyTransactions} {entry other : PendingCurrency}
  {identity : CriticalOperationId} {sha256 : Bytes → Vector UInt8 32}

theorem Quiet.refl (hentry : entry ∈ s.pending) : Quiet entry s s := ⟨hentry, rfl⟩

theorem Quiet.trans (h : Quiet entry s s') (h' : Quiet entry s' s'') : Quiet entry s s'' :=
  ⟨h'.1, h'.2.trans h.2⟩

theorem mem_setEntry (hentry : entry ∈ s.pending) (hne : entry.operationId ≠ other.operationId) :
    entry ∈ setEntry s.pending other :=
  List.mem_map.mpr ⟨entry, hentry, if_neg hne⟩

theorem mem_emplace (hentry : entry ∈ s.pending) : entry ∈ emplace s.pending other := by
  unfold emplace
  split
  · exact hentry
  · exact List.mem_append_left _ hentry

theorem tries_tried (s : CurrencyTransactions) (world : World) (other : PendingCurrency)
    {ticket : Nat} (hne : other.ticket ≠ ticket) :
    (s.attempt other world).tries ticket = s.tries ticket := by
  show (s.log ++ [_]).countP _ = s.log.countP _
  rw [List.countP_append, List.countP_singleton]
  simp [hne]

theorem tries_finish (s : CurrencyTransactions) (other : PendingCurrency) (committed : Bool)
    (ticket : Nat) : (s.finish other committed).tries ticket = s.tries ticket := by
  show (s.log ++ [_]).countP _ = s.log.countP _
  rw [List.countP_append, List.countP_singleton]
  rfl

theorem tries_notify (s : CurrencyTransactions) (other : PendingCurrency) (notice : CurrencyNotice)
    (last : Bool) (ticket : Nat) : (s.notify other notice last).tries ticket = s.tries ticket := by
  show (s.log ++ [_]).countP _ = s.log.countP _
  rw [List.countP_append, List.countP_singleton]
  rfl

theorem concludeCoin_quiet (hentry : entry ∈ s.pending) (other : PendingCurrency)
    (notice : CurrencyNotice) (published : Bool) :
    Quiet entry s (s.concludeCoin other notice published) := by
  unfold concludeCoin
  split
  · exact ⟨hentry, tries_finish ..⟩
  · split
    · exact ⟨mem_emplace hentry, rfl⟩
    · split
      · exact ⟨hentry, tries_notify ..⟩
      · exact ⟨hentry, tries_finish ..⟩

theorem extract_quiet (hentry : entry ∈ s.pending) (other : PendingCurrency)
    (hne : entry.operationId ≠ other.operationId) (notice : CurrencyNotice) :
    Quiet entry s (s.extract other notice) := by
  have herased : entry ∈ (s.erase other).pending := Keyed.mem_erase.mpr ⟨hentry, hne⟩
  unfold extract
  split
  · split
    · exact ⟨herased, (tries_notify ..).trans (tries_finish ..)⟩
    · exact ⟨herased, tries_finish ..⟩
  · split
    · exact ⟨herased, tries_notify ..⟩
    · exact concludeCoin_quiet herased other notice true

theorem publish_quiet (h : Custody s) (hentry : entry ∈ s.pending)
    (hne : entry.operationId ≠ identity) (character : Option CharacterRef) :
    Quiet entry s (s.publish sha256 identity character) := by
  unfold publish
  split
  · exact Quiet.refl hentry
  · next other hfound =>
      obtain ⟨hother, rfl⟩ := findPending_eq_some hfound
      have hticket : other.ticket ≠ entry.ticket := fun hsame =>
        hne (congrArg PendingCurrency.operationId (h.eq_of_ticket hother hentry hsame)).symm
      split
      next world published publication hpublish =>
        have htried : Quiet entry s (s.attempt other world) :=
          ⟨hentry, tries_tried s world other hticket⟩
        refine htried.trans ?_
        cases publication with
        | retained reason malformed =>
            rw [publishEntry_retained hpublish]
            show Quiet entry _ (retain _ _ _)
            unfold retain
            split
            · exact ⟨mem_setEntry hentry hne, rfl⟩
            · exact ⟨mem_setEntry hentry hne, rfl⟩
        | notify notice malformed =>
            obtain ⟨⟨walletsPublished, rfl⟩, -, -⟩ := publishEntry_notify hpublish
            have hcounted : entry ∈ ((s.attempt other world).countMalformed malformed).pending :=
              hentry
            exact extract_quiet hcounted { other with coinWalletsPublished := walletsPublished } hne
              notice

theorem stage_quiet (hentry : entry ∈ s.pending)
    (hblocked : entry.publicationState.isBlocked = true) (h : Custody s)
    {completion : CriticalCompletion} {retrySameBlockedReceipt : Bool}
    (hsame : identity = entry.operationId → retrySameBlockedReceipt = false ∧
      samePublicationReceipt entry.completed completion = true) :
    Quiet entry s (s.stage identity completion retrySameBlockedReceipt) := by
  unfold stage
  split
  · exact Quiet.refl hentry
  · next other hfound =>
      obtain ⟨hother, rfl⟩ := findPending_eq_some hfound
      split
      · exact Quiet.refl hentry
      · next hstaged =>
          have hne : entry.operationId ≠ other.operationId := by
            intro hkey
            rw [← h.eq_of_key hentry hother hkey] at hstaged
            exact hstaged ⟨(hsame hkey.symm).1, hblocked, (hsame hkey.symm).2⟩
          refine ⟨mem_setEntry hentry hne, ?_⟩
          show (s.log ++ [_]).countP _ = s.log.countP _
          rw [List.countP_append, List.countP_singleton]
          rfl

theorem stageAll_quiet (hblocked : entry.publicationState.isBlocked = true)
    (completions : List CriticalCompletion)
    (hsame : ∀ completion ∈ completions, completion.operationId = entry.operationId →
      samePublicationReceipt entry.completed completion = true) :
    ∀ {s : CurrencyTransactions}, Inv s → entry ∈ s.pending →
      Quiet entry s (completions.foldl (fun s completion =>
        s.stage completion.operationId completion false) s) := by
  induction completions with
  | nil => intro s _ hentry; exact Quiet.refl hentry
  | cons completion completions ih =>
      intro s h hentry
      rw [List.forall_mem_cons] at hsame
      have hfirst : Quiet entry s (s.stage completion.operationId completion false) :=
        stage_quiet hentry hblocked h.custody fun hkey => ⟨rfl, hsame.1 hkey⟩
      exact hfirst.trans (ih hsame.2 (stage_inv h _ completion false) hfirst.1)

theorem submitEntry_quiet (h : Inv s) (hentry : entry ∈ s.pending)
    (hblocked : entry.publicationState.isBlocked = true)
    (hpending : ∀ before ∈ s.pending, before.operationId ≠ other.operationId)
    (hout : ∀ before ∈ s.out, before.operationId ≠ other.operationId)
    (hnew : other.publicationState = .awaitingCompletion) (character : CharacterRef)
    (answers : CoordinatorAnswers) :
    Quiet entry s (s.submitEntry sha256 other character answers) := by
  have hkept := keep_inv h hpending hout hnew
  have hquiet : Quiet entry s (s.keep other) := ⟨mem_emplace hentry, rfl⟩
  have hne := hpending entry hentry
  unfold submitEntry
  split
  · unfold publishCompletedIfAvailable
    split
    · exact hquiet
    · next completion _ =>
        have hstaged : Quiet entry (s.keep other)
            ((s.keep other).stage other.operationId completion true) :=
          stage_quiet hquiet.1 hblocked hkept.custody fun hkey => absurd hkey.symm hne
        exact (hquiet.trans hstaged).trans
          (publish_quiet (stage_inv hkept _ completion true).custody hstaged.1 hne _)
  · split
    · exact hquiet
    · exact ⟨Keyed.mem_erase.mpr ⟨mem_emplace hentry, hne⟩, rfl⟩

theorem handleOne_quiet (h : Inv s) (hentry : entry ∈ s.pending)
    (hne : entry.operationId ≠ identity) : Quiet entry s (s.handleOne sha256 identity) := by
  unfold handleOne
  split
  · exact Quiet.refl hentry
  · next other hfound =>
      obtain ⟨-, rfl⟩ := findPending_eq_some hfound
      split
      · exact publish_quiet h.custody hentry hne _
      · exact ⟨mem_setEntry hentry hne, rfl⟩

theorem next_ne (h : Inv s) (hentry : entry ∈ s.pending)
    (hblocked : entry.publicationState.isBlocked = true) {frame : Frame}
    {ready : List CriticalOperationId} {frames : List Frame} (hframes : s.frames = frame :: frames)
    (hremaining : frame.remaining = identity :: ready) : entry.operationId ≠ identity := by
  intro hkey
  have hlive := (next_spec h hframes hremaining).2 entry hentry hkey
  rw [livePending_not_blocked hlive] at hblocked
  cases hblocked

theorem advance_quiet (h : Inv s) (hentry : entry ∈ s.pending)
    (hblocked : entry.publicationState.isBlocked = true) :
    Quiet entry s (s.advance sha256) := by
  unfold advance
  split
  · exact ⟨hentry, rfl⟩
  · next identity ready frames hframes =>
      have hnext : Inv { s with frames := .handling ready :: frames } :=
        reframe_inv h [.handling ready] hframes rfl rfl
          (by simp [Frame.remaining]) (by simp)
      exact handleOne_quiet hnext hentry (next_ne h hentry hblocked hframes rfl)
  · exact ⟨hentry, rfl⟩
  · next identity ready character frames hframes =>
      exact publish_quiet (s := { s with frames := .readying ready character :: frames })
        (reframe_inv h [.readying ready character] hframes rfl rfl
          (by simp [Frame.remaining]) (by simp)).custody hentry
        (next_ne h hentry hblocked hframes rfl) _
  · exact ⟨hentry, rfl⟩
  · exact ⟨hentry, rfl⟩
  · exact Quiet.refl hentry

theorem callbackReturns_quiet (hentry : entry ∈ s.pending) (published : Bool) :
    Quiet entry s (s.callbackReturns published) := by
  unfold callbackReturns
  split
  · exact ⟨hentry, rfl⟩
  · next out actor committed payload result errorCode last frames hframes =>
      split
      · exact ⟨hentry, tries_finish ..⟩
      · exact concludeCoin_quiet (s := { s with frames }) hentry _ _ published
  · exact Quiet.refl hentry

/-- The batch of an event has no receipt for the entry but the one that blocked it. -/
def SameReceipts (entry : PendingCurrency) : Event → Prop
  | .handleCompletions completions _ => ∀ completion ∈ completions,
      completion.operationId = entry.operationId →
        samePublicationReceipt entry.completed completion = true
  | _ => True

theorem step_quiet (h : Inv s) (hentry : entry ∈ s.pending)
    (hblocked : entry.publicationState.isBlocked = true) (e : Event) (hunused : IdsUnused s e)
    (hsame : SameReceipts entry e) : Quiet entry s (step sha256 s e) := by
  cases e with
  | submitPrepared character command completion context answers =>
      rw [step]
      split
      · unfold submitPrepared
        split
        · exact Quiet.refl hentry
        · next other hprepared =>
            obtain ⟨hkey, habsent, hnew⟩ := prepareEntry_ok hprepared
            exact submitEntry_quiet h hentry hblocked (hkey ▸ habsent) (hkey ▸ hunused) hnew
              character answers
      · exact Quiet.refl hentry
  | submitCoin actor payload operationId completion context answers =>
      rw [step]
      split
      · unfold submitCoin
        split
        · exact Quiet.refl hentry
        · next other hprepared =>
            obtain ⟨hkey, hnew⟩ := coinEntry_some hprepared
            exact submitEntry_quiet h hentry hblocked (hkey ▸ hunused.1) (hkey ▸ hunused.2) hnew
              actor answers
      · exact Quiet.refl hentry
  | handleCompletions completions order =>
      rw [step]
      split
      · exact stageAll_quiet hblocked completions hsame h hentry
      · exact Quiet.refl hentry
  | playerReady character order =>
      rw [step]
      split
      · unfold playerReady
        split
        · exact Quiet.refl hentry
        · exact ⟨hentry, rfl⟩
      · exact Quiet.refl hentry
  | advance => exact advance_quiet h hentry hblocked
  | callbackReturns published => exact callbackReturns_quiet hentry published
  | healthCopy =>
      rw [step]
      split
      · exact ⟨hentry, rfl⟩
      · exact Quiet.refl hentry
  | play game =>
      rw [step]
      split
      · exact ⟨hentry, rfl⟩
      · exact Quiet.refl hentry

theorem run_quiet (h : Inv s) (hentry : entry ∈ s.pending)
    (hblocked : entry.publicationState.isBlocked = true) (events : List Event)
    (hunused : Along (step sha256) IdsUnused s events)
    (hsame : ∀ e ∈ events, SameReceipts entry e) :
    Quiet entry s (run (step sha256) s events) := by
  induction events generalizing s with
  | nil => exact Quiet.refl hentry
  | cons e events ih =>
      rw [List.forall_mem_cons] at hsame
      have hfirst : Quiet entry s (step sha256 s e) :=
        step_quiet h hentry hblocked e hunused.1 hsame.1
      exact hfirst.trans (ih (step_inv h e hunused.1) hfirst.1 hunused.2 hsame.2)

end Blocked

/-! ## What holds over a run -/

def Reachable (sha256 : Bytes → Vector UInt8 32) (s : CurrencyTransactions) : Prop :=
  ∃ game events, Along (step sha256) IdsUnused { game } events ∧
    s = run (step sha256) { game } events

/-- An operation is reported on a receipt that was staged for it and is final. -/
def Final (s : CurrencyTransactions) (entry : PendingCurrency) (committed : Bool) : Prop :=
  Record.staged entry.ticket entry.completed ∈ s.log ∧
    committed = receiptCommitted entry.completed ∧
    (committed = false → entry.completed.outcome = .terminalFailure)

/-- The receipt is unresolved, or it is not what its outcome calls for, or its balances cannot
go live. A rejection that is no coin transfer's calls for nothing. -/
def Unpublishable (sha256 : Bytes → Vector UInt8 32) (world : World)
    (character : Option CharacterRef) (entry : PendingCurrency) : Prop :=
  (receiptCommitted entry.completed = false ∧ entry.completed.outcome ≠ .terminalFailure) ∨
    (entry.coin = none ∧ receiptCommitted entry.completed = true ∧
      ∀ result, currencyCommandDecodeResult (receiptBytes entry.completed) = some result →
        (publishBalancesTo world character entry result).1 = false) ∨
    ∃ coin, entry.coin = some coin ∧
      ∀ result stale, coinReceipt sha256 coin entry.completed = .ok (result, stale) →
        (publishCoinBalances sha256 world entry coin result stale).2 ≠ none

section Over

variable {sha256 : Bytes → Vector UInt8 32} {s : CurrencyTransactions} {entry : PendingCurrency}

theorem staged_of_lastStaged {log : List Record} {ticket : Nat} {receipt : CriticalCompletion}
    (h : lastStaged log ticket = some receipt) : Record.staged ticket receipt ∈ log := by
  obtain ⟨record, hrecord, hreceipt⟩ := List.mem_filterMap.mp (List.mem_of_getLast? h)
  cases record with
  | staged other found =>
      obtain ⟨hsame, hfound⟩ := Option.ite_none_right_eq_some.mp hreceipt
      rw [← hsame, ← Option.some.inj hfound]
      exact hrecord
  | tried => cases hreceipt
  | notified => cases hreceipt
  | finished => cases hreceipt

theorem honest_of_mem {log : List Record} (h : HonestLog log) {record : Record}
    (hrecord : record ∈ log) : ∃ before, before.Sublist log ∧ Honest before record := by
  obtain ⟨before, after, rfl⟩ := List.append_of_mem hrecord
  unfold HonestLog at h
  rw [along_append, run_append_records, List.nil_append] at h
  exact ⟨before, List.sublist_append_left .., h.2.1⟩

theorem final_of_finished (h : HonestLog s.log) {committed : Bool}
    (hrecord : Record.finished entry committed ∈ s.log) : Final s entry committed := by
  obtain ⟨before, hbefore, hstaged, hcommitted, hfailed⟩ := honest_of_mem h hrecord
  exact ⟨hbefore.subset (staged_of_lastStaged hstaged), hcommitted, hfailed⟩

theorem final_of_notified (h : HonestLog s.log) {notice : CurrencyNotice}
    (hrecord : Record.notified entry notice ∈ s.log) : Final s entry notice.committed := by
  obtain ⟨before, hbefore, hstaged, hcommitted, hfailed⟩ := honest_of_mem h hrecord
  exact ⟨hbefore.subset (staged_of_lastStaged hstaged), hcommitted,
    fun hno => hfailed (hcommitted ▸ hno)⟩

theorem due_sublist_ending (log : List Record) :
    ((log.filterMap Record.due).map PendingCurrency.ticket).Sublist
      ((log.filterMap Record.ending).map PendingCurrency.ticket) := by
  induction log with
  | nil => exact List.Sublist.refl _
  | cons record log ih =>
      cases record with
      | finished entry committed =>
          rw [List.filterMap_cons_some (rfl : Record.ending (.finished entry committed) = _),
            List.filterMap_cons, Record.due]
          split
          · next hnone => exact ih.trans (List.sublist_cons_self ..)
          · next found hfound =>
              obtain ⟨-, hsame⟩ := Option.ite_none_left_eq_some.mp hfound
              rw [← Option.some.inj hsame]
              exact ih.cons_cons _
      | staged => exact ih
      | tried => exact ih
      | notified => exact ih

theorem notices_nodup (h : Inv s) :
    ((s.log.filterMap Record.notice).map PendingCurrency.ticket).Nodup := by
  rw [h.notices]
  refine List.Nodup.sublist (due_sublist_ending s.log) (List.nodup_iff_count_le_one.mpr ?_)
  intro ticket
  have hcount := h.custody.tickets ticket
  unfold ended at hcount
  split at hcount <;> omega

theorem publishEntry_retained {world : World} {character : Option CharacterRef}
    (h : Unpublishable sha256 world character entry) : ∃ world' reason malformed,
      publishEntry sha256 world entry character = (world', entry, .retained reason malformed) := by
  unfold publishEntry
  split
  · exact ⟨_, _, _, rfl⟩
  · next hfinal =>
      rcases h with hunresolved | ⟨hcoin, hcommitted, hlive⟩ | ⟨coin, hcoin, hlive⟩
      · exact absurd hunresolved hfinal
      · rw [hcoin]
        unfold publishCurrency
        dsimp only
        cases hdecode : currencyCommandDecodeResult (receiptBytes entry.completed) with
        | none =>
            rw [if_pos hcommitted]
            exact ⟨_, _, _, rfl⟩
        | some result =>
            dsimp only
            rcases hbalances : publishBalancesTo world character entry result with ⟨live, world'⟩
            have hrefused : live = false := by simpa [hbalances] using hlive result hdecode
            rw [hrefused]
            dsimp only
            rw [if_pos hcommitted]
            exact ⟨_, _, _, rfl⟩
      · rw [hcoin]
        dsimp only
        unfold publishCoin
        cases hreceipt : coinReceipt sha256 coin entry.completed with
        | error reason => exact ⟨_, _, _, rfl⟩
        | ok receipt =>
            obtain ⟨reason, hreason⟩ :=
              Option.ne_none_iff_exists'.mp (hlive receipt.1 receipt.2 hreceipt)
            obtain ⟨result, stale⟩ := receipt
            dsimp only
            rcases hbalances : publishCoinBalances sha256 world entry coin result stale with
              ⟨world', refusal⟩
            have hrefused : refusal = some reason := by simpa [hbalances] using hreason
            rw [hrefused]
            exact ⟨_, _, _, rfl⟩

/-- An entry whose receipt cannot be published stays and is blocked, and nothing is called. -/
theorem publish_retained (h : Custody s) (hentry : entry ∈ s.pending)
    {character : Option CharacterRef}
    (hunpublishable : Unpublishable sha256 s.game.world character entry) :
    (s.publish sha256 entry.operationId character).pending =
        setEntry s.pending { entry with publicationState := .blockedReceipt } ∧
      (s.publish sha256 entry.operationId character).frames = s.frames := by
  obtain ⟨world, reason, malformed, hpublish⟩ := publishEntry_retained hunpublishable
  have hfound : findPending s.pending entry.operationId = some entry :=
    Keyed.lookup_of_mem h.pending_nodup hentry
  have hretained : s.publish sha256 entry.operationId character =
      (s.attempt entry world).retain entry malformed := by
    unfold publish
    rw [hfound]
    dsimp only
    rw [hpublish]
    rfl
  rw [hretained]
  unfold retain
  split
  · next hblocked =>
      have hstate : entry.publicationState = .blockedReceipt := by
        simpa [CurrencyPublicationState.isBlocked] using hblocked
      rw [← hstate]
      exact ⟨rfl, rfl⟩
  · exact ⟨rfl, rfl⟩

theorem playerBusy_of_mem {character : CharacterRef} (hentry : entry ∈ s.pending)
    (hopen : entry.coin = none ∨ entry.coinWalletsPublished = false)
    (hplayer : s.game.isPlayer character = true)
    (hsame : sameHolder s.game character entry.pid entry.racewar entry.accountName = true) :
    s.playerBusy sha256 character = true := by
  unfold playerBusy
  rw [hplayer, Bool.true_and, List.any_eq_true]
  refine ⟨entry, hentry, ?_⟩
  unfold pendingAffectsCharacter
  split
  · exact hsame
  · next coin hcoin =>
      rcases hopen with hnone | hunpublished
      · rw [hnone] at hcoin
        cases hcoin
      · rw [hunpublished, hsame, Bool.or_true]
        rfl

theorem prepareEntry_busy {character : CharacterRef} {command : CriticalCommand}
    {payload : CurrencyCommandPayload} (hbusy : s.playerBusy sha256 character = true)
    (hdecode : currencyCommandDecodePayload sha256 command = some payload)
    (hdebit : currencyCommandIsRebasableReward payload = false)
    (hnew : findPending s.pending command.operationId = none) (completion : Option CallbackRef)
    (context : Bytes) (answers : CoordinatorAnswers) :
    s.prepareEntry sha256 character command completion context answers = .error false := by
  unfold prepareEntry
  rw [hdecode]
  dsimp only
  rw [hnew, hdebit, hbusy, Bool.true_or,
    if_neg (by simp : ¬ (none : Option PendingCurrency).isSome),
    if_neg (by simp : ¬ false = true), if_pos rfl]
  split
  · rfl
  · split <;> rfl

theorem coinEntry_busy {actor : CharacterRef} (hbusy : s.playerBusy sha256 actor = true)
    (payload : CoinTransferPayload) (operationId : CriticalOperationId)
    (completion : Option CallbackRef) (context : Bytes) (answers : CoordinatorAnswers) :
    s.coinEntry sha256 actor payload operationId completion context answers = none := by
  unfold coinEntry
  refine if_pos (.inl ?_)
  unfold canSubmitNonrebasable
  rw [hbusy]
  exact Bool.and_false _

theorem publicationBlocked_eq_scan (h : Inv s) (character : CharacterRef) :
    s.publicationBlocked sha256 character = (s.game.isPlayer character &&
      s.pending.any fun entry => entry.publicationState.isBlocked &&
        pendingAffectsCharacter sha256 s.game character entry) := by
  unfold publicationBlocked
  by_cases hzero : s.health.publicationBlocked = 0
  · have hnone : s.pending.countP (fun entry => entry.publicationState.isBlocked) = 0 := by
      have := h.blocked
      omega
    have hscan : (s.pending.any fun entry => entry.publicationState.isBlocked &&
        pendingAffectsCharacter sha256 s.game character entry) = false := by
      rw [List.any_eq_false]
      intro entry hentry hboth
      exact List.countP_eq_zero.mp hnone entry hentry (Bool.and_eq_true _ _ ▸ hboth).1
    rw [hscan, Bool.and_false, Bool.and_false]
  · rw [show (s.health.publicationBlocked != 0) = true from bne_iff_ne.mpr hzero, Bool.and_true]

/-- Over every run an accepted operation is kept until it is finished, once, on a final
receipt; one that cannot be published stays, holds up its player and account, and is not
tried again before another receipt arrives; and the count of blocked entries is zero only
when there are none. -/
theorem pending_currency_custody (h : Reachable sha256 s) :
    (∀ ticket < s.accepted, (s.pending.map PendingCurrency.ticket).count ticket +
      (s.out.map PendingCurrency.ticket).count ticket +
      (s.ended.map PendingCurrency.ticket).count ticket = 1) ∧
    s.log.filterMap Record.notice = s.log.filterMap Record.due ∧
    ((s.log.filterMap Record.notice).map PendingCurrency.ticket).Nodup ∧
    HonestLog s.log ∧
    (∀ entry committed, Record.finished entry committed ∈ s.log → Final s entry committed) ∧
    (∀ entry notice, Record.notified entry notice ∈ s.log → Final s entry notice.committed) ∧
    (∀ entry ∈ s.pending, ∀ character, Unpublishable sha256 s.game.world character entry →
      (s.publish sha256 entry.operationId character).pending =
          setEntry s.pending { entry with publicationState := .blockedReceipt } ∧
        (s.publish sha256 entry.operationId character).frames = s.frames) ∧
    (∀ entry ∈ s.pending, entry.publicationState.isBlocked = true →
      (entry.coin = none ∨ entry.coinWalletsPublished = false) → ∀ character,
      s.game.isPlayer character = true →
      sameHolder s.game character entry.pid entry.racewar entry.accountName = true →
      (∀ command payload, currencyCommandDecodePayload sha256 command = some payload →
        currencyCommandIsRebasableReward payload = false →
        findPending s.pending command.operationId = none → ∀ completion context answers,
        s.prepareEntry sha256 character command completion context answers = .error false) ∧
      ∀ payload operationId completion context answers,
        s.coinEntry sha256 character payload operationId completion context answers = none) ∧
    (∀ entry ∈ s.pending, entry.publicationState.isBlocked = true → ∀ events,
      Along (step sha256) IdsUnused s events → (∀ e ∈ events, SameReceipts entry e) →
      Quiet entry s (run (step sha256) s events)) ∧
    (s.health.publicationBlocked = 0 →
      ∀ entry ∈ s.pending, entry.publicationState.isBlocked = false) ∧
    ∀ character, s.publicationBlocked sha256 character = (s.game.isPlayer character &&
      s.pending.any fun entry => entry.publicationState.isBlocked &&
        pendingAffectsCharacter sha256 s.game character entry) := by
  obtain ⟨game, events, hunused, rfl⟩ := h
  have h := run_inv game events hunused
  refine ⟨?_, h.notices, notices_nodup h, h.honest, fun _ _ => final_of_finished h.honest,
    fun _ _ => final_of_notified h.honest, ?_, ?_, ?_, ?_, publicationBlocked_eq_scan h⟩
  · intro ticket hticket
    rw [h.custody.tickets ticket, if_pos hticket]
  · exact fun entry hentry _ hunpublishable => publish_retained h.custody hentry hunpublishable
  · intro entry hentry _ hopen character hplayer hsame
    have hbusy : playerBusy sha256 _ character = true :=
      playerBusy_of_mem hentry hopen hplayer hsame
    exact ⟨fun command payload hdecode hdebit hnew => prepareEntry_busy hbusy hdecode hdebit hnew,
      coinEntry_busy hbusy⟩
  · intro entry hentry hblocked later hlater hsame
    exact run_quiet h hentry hblocked later hlater hsame
  · intro hzero entry hentry
    have hcount := h.blocked
    rw [hzero, Nat.le_zero, List.countP_eq_zero] at hcount
    exact Bool.not_eq_true _ ▸ hcount entry hentry

end Over

/-! ## A payment whose receipt is one byte -/

/-- Player 1 of the account `a`, alone in the game. -/
def payerGame : Game :=
  { world := { character := fun _ => { pid := 1, racewar := 1 }, characters := [0] }
    playing := [0]
    account := fun _ => some [97] }

def shortReceipt (outcome : CriticalApplyOutcome) : CriticalCompletion :=
  { noReceipt with operationId := paymentId, outcome, resultSize := 1, resultPayload := [7] }

/-- The payer's command is accepted, and its receipt comes back. -/
def payerEvents (outcome : CriticalApplyOutcome) : List Event :=
  [.submitPrepared 0 (walletCommand 1 (-5)) none [] { submitted := .accepted }, .advance,
    .handleCompletions [shortReceipt outcome] [], .advance]

theorem payerEvents_reachable (outcome : CriticalApplyOutcome) :
    Reachable walletDigests
      (run (step walletDigests) { game := payerGame } (payerEvents outcome)) := by
  refine ⟨payerGame, payerEvents outcome, ?_, rfl⟩
  simp only [payerEvents, Along, IdsUnused, and_true]
  intro other hother
  cases hother

/-- The receipt leaves the outcome open: the entry is blocked, and no run gets it tried
again without another receipt. -/
theorem pending_currency_custody_ambiguous : ∃ s entry, Reachable walletDigests s ∧
    entry ∈ s.pending ∧ entry.publicationState.isBlocked = true ∧
    ∀ events, Along (step walletDigests) IdsUnused s events →
      (∀ e ∈ events, SameReceipts entry e) →
      Quiet entry s (run (step walletDigests) s events) := by
  have hblocked : (run (step walletDigests) { game := payerGame }
      (payerEvents .ambiguousCommit)).pending.any
        (fun entry => entry.publicationState.isBlocked) = true := by
    decide +kernel
  obtain ⟨entry, hentry, hstate⟩ := List.any_eq_true.mp hblocked
  obtain ⟨-, -, -, -, -, -, -, -, hquiet, -, -⟩ :=
    pending_currency_custody (payerEvents_reachable .ambiguousCommit)
  exact ⟨_, entry, payerEvents_reachable .ambiguousCommit, hentry, hstate,
    hquiet entry hentry hstate⟩

/-- The operation a record rejects on bytes that are no result. -/
def badlyRejected : Record → Bool
  | .finished entry committed =>
      !committed && entry.coin.isNone && entry.completed.resultSize != 0 &&
        (currencyCommandDecodeResult (receiptBytes entry.completed)).isNone
  | _ => false

/-- The receipt is a rejection: its byte is no result, and the operation is finished. -/
theorem short_rejection_not_kept : ∃ s entry, Reachable walletDigests s ∧
    entry.coin = none ∧ Record.finished entry false ∈ s.log ∧ entry.completed.resultSize ≠ 0 ∧
    currencyCommandDecodeResult (receiptBytes entry.completed) = none ∧ s.pending = [] := by
  have hrejected : ((run (step walletDigests) { game := payerGame }
      (payerEvents .terminalFailure)).pending.isEmpty &&
      (run (step walletDigests) { game := payerGame }
        (payerEvents .terminalFailure)).log.any badlyRejected) = true := by
    decide +kernel
  rw [Bool.and_eq_true, List.isEmpty_iff, List.any_eq_true] at hrejected
  obtain ⟨hpending, record, hrecord, hbad⟩ := hrejected
  cases record with
  | finished entry committed =>
      cases committed with
      | false =>
          simp only [badlyRejected, Bool.not_false, Bool.true_and, Bool.and_eq_true,
            Option.isNone_iff_eq_none, bne_iff_ne] at hbad
          obtain ⟨⟨hcoin, hsize⟩, hunread⟩ := hbad
          exact ⟨_, entry, payerEvents_reachable .terminalFailure, hcoin, hrecord, hsize,
            hunread, hpending⟩
      | true => cases hbad
  | staged => cases hbad
  | tried => cases hbad
  | notified => cases hbad

end CurrencyTransactions

end Duris.Economy
