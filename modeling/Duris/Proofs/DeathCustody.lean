import Duris.Proofs.LoadFence

/-!
# A death stays until it is applied

Four places drop older snapshots of a player. The worker's tail replacement, the
journal's checkpoint and the replay each ask whether the older one is a death;
`enqueue_snapshot` does not. A newer save of the player that finds the death still in
`pending_append` takes its place there, and nothing else has it yet
(`newer_save_overwrites_death`).

The checkpoint keeps a death at every revision but the durable one, and takes the
durable revision to be the death's own. A save of the same player captured once more
at the revision of the death releases the death's frame.

`KeepsDeaths` excludes these steps, an allocation failure that drops what could not be
appended, and the appends that a torn frame can hide; then a death is in
`pending_append`, in the append in flight or in the journal, whatever else happens.
-/

namespace Duris.Player

/-! ## What the journal owes -/

def InJournal (j : JournalState) (snapshot : PlayerSnapshot) : Prop :=
  ∃ frame ∈ j.owed, frame.snapshot = snapshot

variable {quota : Nat} {j : JournalState} {d : PlayerSnapshot}

theorem InJournal.append (h : InJournal j d) (snapshot : PlayerSnapshot)
    (createdMsec sequence : BitVec 64) (io : AppendIo) :
    InJournal (playerSaveJournalAppend quota j snapshot createdMsec sequence io).2 d := by
  obtain ⟨frame, hframe, hsnapshot⟩ := h
  refine ⟨frame, ?_, hsnapshot⟩
  unfold playerSaveJournalAppend
  split
  · exact hframe
  split
  · exact hframe
  split
  · exact hframe
  split
  · exact hframe
  split
  · exact hframe
  split
  · exact List.mem_append_left _ hframe
  · exact hframe

theorem inJournal_of_append_ok {snapshot : PlayerSnapshot} {createdMsec sequence : BitVec 64}
    {io : AppendIo}
    (h : (playerSaveJournalAppend quota j snapshot createdMsec sequence io).1 = .ok) :
    InJournal (playerSaveJournalAppend quota j snapshot createdMsec sequence io).2 snapshot := by
  unfold playerSaveJournalAppend at h ⊢
  split at h
  · cases h
  next hinit =>
  rw [if_neg hinit]
  split at h
  · cases h
  next frame hframe =>
  split at h
  · cases h
  next hopened =>
  split at h
  · cases h
  next hquota =>
  split at h
  · cases h
  next hwritten =>
  split at h
  · next hsynced =>
      rw [if_neg hopened, if_neg hquota]
      rw [if_neg hwritten, if_pos hsynced]
      exact ⟨frame, List.mem_append_right _ (List.mem_singleton.mpr rfl),
        (buildFrame_valid hframe).2⟩
  · cases h

theorem InJournal.checkpoint (h : InJournal j d) {pid : Pid} {durable : Revision} (io : ScanIo)
    (compaction : Compaction) (hdeath : d.death.isSome = true)
    (hother : d.pid = pid → d.revision ≠ durable) :
    InJournal (playerSaveJournalCheckpoint quota j pid durable io compaction).2 d := by
  obtain ⟨frame, hframe, rfl⟩ := h
  have hkept : retainedAt pid durable frame = true := by
    unfold retainedAt
    by_cases hpid : frame.snapshot.pid = pid
    · simp [hdeath, hother hpid]
    · simp [hpid]
  refine ⟨frame, ?_, rfl⟩
  unfold playerSaveJournalCheckpoint
  split
  · exact hframe
  split
  · exact hframe
  dsimp only
  split
  · exact hframe
  · cases compaction with
    | failed => exact hframe
    | renamed => exact List.mem_filter.mpr ⟨hframe, hkept⟩
    | done => exact List.mem_filter.mpr ⟨hframe, hkept⟩

theorem InJournal.init (h : InJournal j d) (io : ScanIo) (compaction : Compaction) :
    InJournal (playerSaveJournalInit quota j io compaction).2 d := by
  obtain ⟨frame, hframe, hsnapshot⟩ := h
  refine ⟨frame, ?_, hsnapshot⟩
  unfold playerSaveJournalInit
  split
  · exact hframe
  dsimp only
  split
  · exact hframe
  split
  · exact hframe
  · cases compaction with
    | failed => exact hframe
    | renamed => exact List.mem_filter.mpr ⟨hframe, rfl⟩
    | done => exact List.mem_filter.mpr ⟨hframe, rfl⟩

namespace Pipeline

def DeathHeld (s : Pipeline) (d : PlayerSnapshot) : Prop :=
  d ∈ s.pendingAppend ∨ s.dispatcher.inflight = some d ∨ d ∈ s.durableReady ∨
    (∃ job ∈ s.worker.queue, job.snapshot = some d) ∨
    (∃ job, s.worker.inflight = some job ∧ job.snapshot = some d) ∨
    ∃ frame ∈ (scanFrom 0 s.journal.file).frames, frame.snapshot = d

/-- The pipeline takes snapshots of this player. -/
def Admits (s : Pipeline) (pid : Pid) : Prop :=
  s.initialized = true ∧ s.stopRequested = false ∧ s.targetFenced pid = false

/-- The newer `snapshot` takes the place of `queued` in `pending_append`. -/
def Overwrites (s : Pipeline) (snapshot queued : PlayerSnapshot) : Prop :=
  Admits s snapshot.pid ∧ s.firstPending snapshot.pid = some queued ∧
    queued.revision < snapshot.revision ∧
    snapshot.components &&& queued.components = queued.components ∧
    snapshot.size ≤ playerSavePipelineMaxBytes - (s.retainedBytes - queued.size)

/-- A checkpoint of the player at `durable` names none of these deaths. -/
def Spares (deaths : Set PlayerSnapshot) (pid : Pid) (durable : Revision) : Prop :=
  ∀ d ∈ deaths, d.pid = pid → d.revision ≠ durable

def KeepsDeaths (s : Pipeline) : Event → Prop
  | .capture snapshot _ =>
      (∀ queued, Overwrites s snapshot queued → queued ∉ s.unapplied) ∧
      ∀ queued, Admits s snapshot.pid → s.firstPending snapshot.pid = some queued →
        snapshot.revision ≤ queued.revision → snapshot.death = none
  | .dispatcherAppend createdMsec sequence io =>
      ∀ snapshot, s.dispatcher = .appending snapshot →
        AppendSafe playerSaveJournalMaxBytes s.journal (.append snapshot createdMsec sequence io)
  | .dispatcherSettle allocates =>
      ∀ snapshot result, s.dispatcher = .appended snapshot result → result ≠ .ok →
        allocates = false → snapshot ∉ s.unapplied
  | .attemptEnd result _ =>
      ∀ job snapshot, s.worker.inflight = some job → job.snapshot = some snapshot →
        result.outcome.succeeded = true →
        Spares (s.released snapshot result) snapshot.pid (durableOf snapshot result)
  | .replayApply (some result) _ =>
      ∀ frame plan acknowledged, s.dispatcher = .replaying (frame :: plan) acknowledged →
        frame.snapshot.death.isSome = true → result.outcome.succeeded = true →
        Spares (s.released frame.snapshot result) frame.snapshot.pid frame.snapshot.revision
  | .replayRelease _ =>
      ∀ pid durable rest, s.dispatcher = .replaying [] ((pid, durable) :: rest) →
        Spares s.unapplied pid durable
  | _ => True

/-! ## The invariant -/

def Kept (s : Pipeline) (d : PlayerSnapshot) : Prop :=
  d ∈ s.pendingAppend ∨ s.dispatcher.inflight = some d ∨ InJournal s.journal d

structure Custody (s : Pipeline) : Prop where
  journal : s.journal.Inv
  deaths : ∀ d ∈ s.unapplied, d.death.isSome = true
  kept : ∀ d ∈ s.unapplied, Kept s d
  appended : ∀ snapshot, s.dispatcher = .appended snapshot .ok → snapshot ∈ s.unapplied →
    snapshot ∈ s.pendingAppend ∨ InJournal s.journal snapshot
  emptied : s.dispatcher = .gone → s.pendingAppend = []
  down : s.initialized = false → s.dispatcher = .gone
  closed : s.dispatcher = .gone → s.initialized = false ∨ s.stopRequested = true
  starting : s.starting = true → s.initialized = false

variable {s s' : Pipeline} {snapshot : PlayerSnapshot}

/-- Steps that leave the queue, the dispatcher, the journal and the ledger alone. -/
theorem Custody.same (h : Custody s) (hpending : s'.pendingAppend = s.pendingAppend)
    (hdispatcher : s'.dispatcher = s.dispatcher) (hjournal : s'.journal = s.journal)
    (hunapplied : s'.unapplied = s.unapplied) (hinit : s'.initialized = s.initialized)
    (hstarting : s'.starting = s.starting)
    (hstop : s.stopRequested = true → s'.stopRequested = true) : Custody s' := by
  refine ⟨?_, ?_, ?_, ?_, ?_, ?_, ?_, ?_⟩
  · rw [hjournal]; exact h.journal
  · rw [hunapplied]; exact h.deaths
  · unfold Kept
    rw [hunapplied, hpending, hdispatcher, hjournal]; exact h.kept
  · rw [hdispatcher, hunapplied, hpending, hjournal]; exact h.appended
  · rw [hdispatcher, hpending]; exact h.emptied
  · rw [hinit, hdispatcher]; exact h.down
  · rw [hdispatcher, hinit]
    intro hgone
    rcases h.closed hgone with hdown | hstopped
    · exact .inl hdown
    · exact .inr (hstop hstopped)
  · rw [hstarting, hinit]; exact h.starting

theorem Custody.shrink (h : Custody s) (hinv : s'.journal.Inv)
    (hpending : s'.pendingAppend = s.pendingAppend)
    (hinflight : s'.dispatcher.inflight = s.dispatcher.inflight)
    (hlive : s'.dispatcher = .gone ↔ s.dispatcher = .gone)
    (happended : ∀ snapshot, s'.dispatcher = .appended snapshot .ok →
      s.dispatcher = .appended snapshot .ok) (hunapplied : s'.unapplied ⊆ s.unapplied)
    (hjournal : ∀ d ∈ s'.unapplied, InJournal s.journal d → InJournal s'.journal d)
    (hinit : s'.initialized = s.initialized) (hstarting : s'.starting = s.starting)
    (hstop : s'.stopRequested = s.stopRequested) : Custody s' := by
  refine ⟨hinv, fun d hd => h.deaths d (hunapplied hd), ?_, ?_, ?_, ?_, ?_, ?_⟩
  · intro d hd
    unfold Kept
    rw [hpending, hinflight]
    rcases h.kept d (hunapplied hd) with hqueued | hflight | howed
    · exact .inl hqueued
    · exact .inr (.inl hflight)
    · exact .inr (.inr (hjournal d hd howed))
  · intro snapshot hs hd
    rw [hpending]
    rcases h.appended snapshot (happended snapshot hs) (hunapplied hd) with hqueued | howed
    · exact .inl hqueued
    · exact .inr (hjournal snapshot hd howed)
  · rw [hlive, hpending]; exact h.emptied
  · rw [hinit, hlive]; exact h.down
  · rw [hlive, hinit, hstop]; exact h.closed
  · rw [hstarting, hinit]; exact h.starting

theorem released_subset (s : Pipeline) (snapshot : PlayerSnapshot) (result : ApplyResult) :
    s.released snapshot result ⊆ s.unapplied := by
  unfold released
  split
  · exact Set.sdiff_subset
  · exact Set.Subset.rfl

/-! ## Admission -/

theorem overwriteFirst_mem {queued : PlayerSnapshot} {pending : List PlayerSnapshot}
    (hfirst : pending.find? (fun q => q.pid = snapshot.pid) = some queued) :
    snapshot ∈ overwriteFirst snapshot pending := by
  induction pending with
  | nil => cases hfirst
  | cons head pending ih =>
      rw [overwriteFirst]
      split
      · exact List.mem_cons_self
      · next hhead =>
          rw [List.find?_cons_of_neg (by simpa using hhead)] at hfirst
          exact List.mem_cons_of_mem head (ih hfirst)

theorem mem_overwriteFirst {queued d : PlayerSnapshot} {pending : List PlayerSnapshot}
    (hfirst : pending.find? (fun q => q.pid = snapshot.pid) = some queued) (hd : d ∈ pending)
    (hne : d ≠ queued) : d ∈ overwriteFirst snapshot pending := by
  induction pending with
  | nil => cases hd
  | cons head pending ih =>
      rw [overwriteFirst]
      split
      · next hhead =>
          rw [List.find?_cons_of_pos (by simpa using hhead), Option.some.injEq] at hfirst
          rcases List.mem_cons.mp hd with rfl | hd
          · exact absurd hfirst hne
          · exact List.mem_cons_of_mem _ hd
      · next hhead =>
          rw [List.find?_cons_of_neg (by simpa using hhead)] at hfirst
          rcases List.mem_cons.mp hd with rfl | hd
          · exact List.mem_cons_self
          · exact List.mem_cons_of_mem _ (ih hfirst hd)

section

variable (h : Custody s)

include h

theorem Custody.admit (hadmits : Admits s snapshot.pid)
    (hstored : snapshot ∈ s'.pendingAppend)
    (hkeeps : ∀ d ∈ s.unapplied, d ∈ s.pendingAppend → d ∈ s'.pendingAppend)
    (hunapplied : s'.unapplied = s.admitDeath snapshot) (hdispatcher : s'.dispatcher = s.dispatcher)
    (hjournal : s'.journal = s.journal) (hinit : s'.initialized = s.initialized)
    (hstarting : s'.starting = s.starting) : Custody s' := by
  obtain ⟨hup, hrunning, -⟩ := hadmits
  have hlive : s.dispatcher ≠ .gone := by
    intro hgone
    rcases h.closed hgone with hdown | hstopped
    · rw [hup] at hdown; cases hdown
    · rw [hrunning] at hstopped; cases hstopped
  have hmem : ∀ d ∈ s'.unapplied, d ∈ s.unapplied ∨ d = snapshot ∧ d.death.isSome = true := by
    rw [hunapplied]
    unfold admitDeath
    split
    · next hdeath =>
        intro d hd
        rcases Set.mem_insert_iff.mp hd with rfl | hd
        · exact .inr ⟨rfl, hdeath⟩
        · exact .inl hd
    · exact fun d hd => .inl hd
  refine ⟨hjournal ▸ h.journal, ?_, ?_, ?_, ?_, ?_, ?_, ?_⟩
  · intro d hd
    rcases hmem d hd with hd | ⟨-, hdeath⟩
    · exact h.deaths d hd
    · exact hdeath
  · intro d hd
    unfold Kept
    rw [hdispatcher, hjournal]
    rcases hmem d hd with hd | ⟨rfl, -⟩
    · rcases h.kept d hd with hqueued | helsewhere
      · exact .inl (hkeeps d hd hqueued)
      · exact .inr helsewhere
    · exact .inl hstored
  · rw [hdispatcher, hjournal]
    intro appended happended hd
    rcases hmem appended hd with hd | ⟨rfl, -⟩
    · rcases h.appended appended happended hd with hqueued | howed
      · exact .inl (hkeeps appended hd hqueued)
      · exact .inr howed
    · exact .inl hstored
  · rw [hdispatcher]; exact fun hgone => absurd hgone hlive
  · rw [hinit, hdispatcher]; exact h.down
  · rw [hdispatcher]; exact fun hgone => absurd hgone hlive
  · rw [hstarting, hinit]; exact h.starting

theorem Custody.capture (allocates : Bool)
    (hkeeps : KeepsDeaths s (.capture snapshot allocates)) :
    Custody (s.submitCapture snapshot allocates) := by
  obtain ⟨hoverwrites, hignores⟩ := hkeeps
  unfold submitCapture
  split
  · unfold enqueueSnapshot
    split
    · exact h
    · next hopen =>
        simp only [not_or, Bool.not_eq_false, Bool.not_eq_true] at hopen
        have hadmits : Admits s snapshot.pid := hopen
        split
        · next queued hfirst =>
            split
            · next hrevision =>
                have hdeath := hignores queued hadmits hfirst hrevision
                refine h.same rfl rfl rfl ?_ rfl rfl id
                simp [admitDeath, hdeath]
            · next hrevision =>
                split
                · exact h
                · next hcomponents =>
                    split
                    · exact h
                    · next hsize =>
                        have hspared := hoverwrites queued ⟨hadmits, hfirst,
                          by simpa using hrevision, by simpa using hcomponents,
                          by simpa using hsize⟩
                        refine h.admit hadmits (overwriteFirst_mem hfirst) ?_ rfl rfl rfl rfl rfl
                        intro d hd hqueued
                        exact mem_overwriteFirst hfirst hqueued fun heq => hspared (heq ▸ hd)
        · split
          · exact h
          · refine h.admit hadmits ?_ ?_ rfl rfl rfl rfl rfl
            · exact List.mem_append_right _ (List.mem_singleton.mpr rfl)
            · exact fun d _ hqueued => List.mem_append_left _ hqueued
  · exact h

/-! ## The dispatcher -/

theorem Custody.checkpoint {pid : Pid} {durable : Revision}
    {deaths : Set PlayerSnapshot} (hspares : Spares deaths pid durable)
    (hsubset : deaths ⊆ s.unapplied) (io : CheckpointIo) :
    (s.checkpoint pid durable io).2.Inv ∧
      ∀ d ∈ deaths, InJournal s.journal d → InJournal (s.checkpoint pid durable io).2 d :=
  ⟨inv_checkpoint h.journal pid durable io.scan io.compaction, fun d hd howed =>
    howed.checkpoint io.scan io.compaction (h.deaths d (hsubset hd)) (hspares d hd)⟩

theorem Custody.replayScan (mysqlReady : Bool) (io : ScanIo) :
    Custody (s.replayScan mysqlReady io) := by
  unfold Pipeline.replayScan
  split
  · next hstarting =>
      dsimp only
      split <;>
        exact h.shrink h.journal rfl (by rw [hstarting]; rfl) (by simp [hstarting])
          (fun _ hs => by cases hs) Set.Subset.rfl (fun _ _ howed => howed) rfl rfl rfl
  · exact h

theorem Custody.replayApply (result : Option ApplyResult) (io : CheckpointIo)
    (hkeeps : KeepsDeaths s (.replayApply result io)) : Custody (s.replayApply result io) := by
  unfold Pipeline.replayApply
  split
  · next frame plan acknowledged result hreplaying =>
      have hsubset := s.released_subset frame.snapshot result
      have hblocked : Custody { s with
          dispatcher := .waiting, unapplied := s.released frame.snapshot result } :=
        h.shrink h.journal rfl (by rw [hreplaying]; rfl) (by simp [hreplaying])
          (fun _ hs => by cases hs) hsubset (fun _ _ howed => howed) rfl rfl rfl
      split
      · exact hblocked
      · next hsucceeded =>
          rw [Bool.not_eq_false] at hsucceeded
          split
          · exact hblocked
          · split
            · next hdeath =>
                obtain ⟨hinv, howed⟩ := h.checkpoint
                  (hkeeps frame plan acknowledged hreplaying hdeath hsucceeded) hsubset io
                refine h.shrink hinv rfl ?_ ?_ ?_ hsubset howed rfl rfl rfl
                · dsimp only
                  split <;> (rw [hreplaying]; rfl)
                · dsimp only
                  split <;> simp [hreplaying]
                · dsimp only
                  intro snapshot hs
                  split at hs <;> cases hs
            · exact h.shrink h.journal rfl (by rw [hreplaying]; rfl) (by simp [hreplaying])
                (fun _ hs => by cases hs) hsubset (fun _ _ howed => howed) rfl rfl rfl
  · next hreplaying =>
      exact h.shrink h.journal rfl (by rw [hreplaying]; rfl) (by simp [hreplaying])
        (fun _ hs => by cases hs) Set.Subset.rfl (fun _ _ howed => howed) rfl rfl rfl
  · exact h

theorem Custody.replayRelease (io : CheckpointIo)
    (hkeeps : KeepsDeaths s (.replayRelease io)) : Custody (s.replayRelease io) := by
  unfold Pipeline.replayRelease
  split
  · next hreplaying =>
      exact h.shrink h.journal rfl (by rw [hreplaying]; rfl) (by simp [hreplaying])
        (fun _ hs => by cases hs) Set.Subset.rfl (fun _ _ howed => howed) rfl rfl rfl
  · next pid durable rest hreplaying =>
      split
      · exact h.shrink h.journal rfl (by rw [hreplaying]; rfl) (by simp [hreplaying])
          (fun _ hs => by cases hs) Set.Subset.rfl (fun _ _ howed => howed) rfl rfl rfl
      · obtain ⟨hinv, howed⟩ := h.checkpoint (hkeeps pid durable rest hreplaying)
          Set.Subset.rfl io
        refine h.shrink hinv rfl ?_ ?_ ?_ Set.Subset.rfl howed rfl rfl rfl
        · dsimp only
          split <;> (rw [hreplaying]; rfl)
        · dsimp only
          split <;> simp [hreplaying]
        · dsimp only
          intro snapshot hs
          split at hs <;> cases hs
  · exact h

theorem Custody.dispatcherTake : Custody s.dispatcherTake := by
  unfold Pipeline.dispatcherTake
  split
  · next snapshot rest hwaiting hpending =>
      refine ⟨h.journal, h.deaths, ?_, ?_, ?_, ?_, ?_, h.starting⟩
      · intro d hd
        rcases h.kept d hd with hqueued | hflight | howed
        · rw [hpending, List.mem_cons] at hqueued
          rcases hqueued with rfl | hqueued
          · exact .inr (.inl rfl)
          · exact .inl hqueued
        · rw [hwaiting] at hflight
          cases hflight
        · exact .inr (.inr howed)
      · rintro appended ⟨⟩
      · rintro ⟨⟩
      · intro hdown
        have := h.down hdown
        rw [hwaiting] at this
        cases this
      · rintro ⟨⟩
  · next hwaiting hpending =>
      split
      · next hstop =>
          refine ⟨h.journal, h.deaths, ?_, ?_, fun _ => hpending, fun _ => rfl,
            fun _ => .inr hstop, h.starting⟩
          · intro d hd
            rcases h.kept d hd with hqueued | hflight | howed
            · exact .inl hqueued
            · rw [hwaiting] at hflight
              cases hflight
            · exact .inr (.inr howed)
          · rintro appended ⟨⟩
      · exact h
  · exact h

theorem Custody.dispatcherAppend (createdMsec sequence : BitVec 64) (io : AppendIo)
    (hkeeps : KeepsDeaths s (.dispatcherAppend createdMsec sequence io)) :
    Custody (s.dispatcherAppend createdMsec sequence io) := by
  unfold Pipeline.dispatcherAppend
  split
  · next snapshot happending =>
      refine ⟨inv_append h.journal (hkeeps snapshot happending), h.deaths, ?_, ?_, ?_, ?_, ?_,
        h.starting⟩
      · intro d hd
        rcases h.kept d hd with hqueued | hflight | howed
        · exact .inl hqueued
        · rw [happending] at hflight
          exact .inr (.inl hflight)
        · exact .inr (.inr (howed.append snapshot createdMsec sequence io))
      · intro appended happended hd
        simp only [Dispatcher.appended.injEq] at happended
        obtain ⟨rfl, hok⟩ := happended
        exact .inr (inJournal_of_append_ok hok)
      · rintro ⟨⟩
      · intro hdown
        have := h.down hdown
        rw [happending] at this
        cases this
      · rintro ⟨⟩
  · exact h

theorem Custody.dispatcherSettle (allocates : Bool)
    (hkeeps : KeepsDeaths s (.dispatcherSettle allocates)) :
    Custody (s.dispatcherSettle allocates) := by
  unfold Pipeline.dispatcherSettle
  split
  · next snapshot result happended =>
      have hup : s.initialized = false → False := by
        intro hdown
        have := h.down hdown
        rw [happended] at this
        cases this
      -- The dispatcher lets go of the snapshot: it is owed, put back, or no death.
      have hsettled : ∀ pending durable bytes,
          (∀ d ∈ s.pendingAppend, d ∈ pending) →
          (snapshot ∈ s.unapplied → snapshot ∈ pending ∨ InJournal s.journal snapshot) →
          Custody { s with
            dispatcher := .waiting
            pendingAppend := pending
            durableReady := durable
            retainedBytes := bytes } := by
        intro pending durable bytes hpending hplaced
        refine ⟨h.journal, h.deaths, ?_, ?_, ?_, fun hdown => (hup hdown).elim, ?_, h.starting⟩
        · intro d hd
          rcases h.kept d hd with hqueued | hflight | howed
          · exact .inl (hpending d hqueued)
          · rw [happended] at hflight
            cases hflight
            rcases hplaced hd with hqueued | howed
            · exact .inl hqueued
            · exact .inr (.inr howed)
          · exact .inr (.inr howed)
        · rintro appended ⟨⟩
        · rintro ⟨⟩
        · rintro ⟨⟩
      split
      · next hspill =>
          refine hsettled s.pendingAppend s.durableReady _ (fun d hd => hd) fun hd => ?_
          by_cases hok : result = .ok
          · subst hok
            exact h.appended snapshot happended hd
          · exact absurd hd (hkeeps snapshot result happended hok hspill)
      · split
        · next hok =>
            subst hok
            exact hsettled s.pendingAppend _ s.retainedBytes (fun d hd => hd)
              (h.appended snapshot happended)
        · exact hsettled _ s.durableReady s.retainedBytes
            (fun d hd => List.mem_cons_of_mem snapshot hd) fun _ => .inl List.mem_cons_self
  · exact h

/-! ## The writer, the game thread, start and stop -/

theorem Custody.attemptEnd (result : ApplyResult) (io : CheckpointIo)
    (hkeeps : KeepsDeaths s (.attemptEnd result io)) : Custody (s.attemptEnd result io) := by
  unfold Pipeline.attemptEnd
  split
  · next job hphase hinflight =>
      split
      · next snapshot hkind hsnapshot =>
          have hsubset := s.released_subset snapshot result
          split
          · next hsucceeded =>
              obtain ⟨hinv, howed⟩ := h.checkpoint
                (hkeeps job snapshot hinflight hsnapshot hsucceeded) hsubset io
              exact h.shrink hinv rfl rfl Iff.rfl (fun _ hs => hs) hsubset howed rfl rfl rfl
          · exact h.shrink h.journal rfl rfl Iff.rfl (fun _ hs => hs) hsubset
              (fun _ _ howed => howed) rfl rfl rfl
      · exact h.same rfl rfl rfl rfl rfl rfl id
  · exact h

theorem Custody.retire (pid : Pid) : Custody (s.retireEndedPlayer pid) := by
  unfold retireEndedPlayer
  split
  · exact h
  · split
    · exact h.same rfl rfl rfl rfl rfl rfl id
    · exact h

end

theorem Custody.submitReady (budget : Nat) :
    ∀ (allocates : List Bool) {s : Pipeline}, Custody s →
      Custody (Pipeline.submitReady budget allocates s) := by
  induction budget with
  | zero => exact fun allocates s h => h
  | succ budget ih =>
      intro allocates s h
      unfold Pipeline.submitReady
      split
      · exact h
      · split
        · exact h
        · exact h
        · exact ih allocates.tail (h.same rfl rfl rfl rfl rfl rfl id)

theorem Custody.pulse (h : Custody s) (allocates : List Bool) : Custody (s.pulse allocates) := by
  have hretired : ∀ (completions : List Completion) {s : Pipeline}, Custody s → Custody
      (completions.foldl (fun s completion => s.retireEndedPlayer completion.pid) s) := by
    intro completions
    induction completions with
    | nil => exact fun h => h
    | cons completion completions ih => exact fun h => ih (h.retire completion.pid)
  exact Custody.submitReady _ allocates (hretired _ (h.same rfl rfl rfl rfl rfl rfl id))

theorem Custody.initBegin (h : Custody s) (io : CheckpointIo) (starts : Bool) :
    Custody (s.initBegin io starts) := by
  have hinv := @inv_init _ playerSaveJournalMaxBytes h.journal io.scan io.compaction
  have howed : ∀ d ∈ s.unapplied, InJournal s.journal d → InJournal
      (playerSaveJournalInit playerSaveJournalMaxBytes s.journal io.scan io.compaction).2 d :=
    fun d _ howed => howed.init io.scan io.compaction
  unfold Pipeline.initBegin
  split
  · exact h
  · next hdown =>
      simp only [not_or, Bool.not_eq_true] at hdown
      dsimp only
      split
      · exact h.shrink hinv rfl rfl Iff.rfl (fun _ hs => hs) Set.Subset.rfl howed rfl rfl rfl
      · split
        · exact h.shrink { hinv with } rfl rfl Iff.rfl (fun _ hs => hs) Set.Subset.rfl howed
            rfl rfl rfl
        · have hquiet : Custody { s with
              journal := (playerSaveJournalInit playerSaveJournalMaxBytes s.journal io.scan
                io.compaction).2
              worker := (s.worker.init starts).2 } :=
            h.shrink hinv rfl rfl Iff.rfl (fun _ hs => hs) Set.Subset.rfl howed rfl rfl rfl
          exact { hquiet with starting := fun _ => hdown.1 }

theorem Custody.initFinish (h : Custody s) (starts : Bool) : Custody (s.initFinish starts) := by
  unfold Pipeline.initFinish
  split
  · exact h
  · next hstarting =>
      rw [Bool.not_eq_false] at hstarting
      have hdown := h.starting hstarting
      have hgone := h.down hdown
      split
      · exact ⟨{ h.journal with }, h.deaths, h.kept, h.appended, h.emptied, h.down, h.closed,
          by rintro ⟨⟩⟩
      · refine ⟨h.journal, h.deaths, ?_, by rintro snapshot ⟨⟩, by rintro ⟨⟩, by rintro ⟨⟩,
          by rintro ⟨⟩, by rintro ⟨⟩⟩
        intro d hd
        rcases h.kept d hd with hqueued | hflight | howed
        · exact .inl hqueued
        · rw [hgone] at hflight
          cases hflight
        · exact .inr (.inr howed)

theorem Custody.shutdownFinish (h : Custody s) : Custody s.shutdownFinish := by
  unfold Pipeline.shutdownFinish
  split
  · next hgone =>
      split
      · refine ⟨{ h.journal with }, h.deaths, ?_, ?_, fun _ => rfl,
          fun _ => hgone, fun _ => .inl rfl, fun _ => rfl⟩
        · intro d hd
          rcases h.kept d hd with hqueued | hflight | howed
          · rw [h.emptied hgone] at hqueued
            cases hqueued
          · exact .inr (.inl hflight)
          · exact .inr (.inr howed)
        · intro snapshot happended
          rw [hgone] at happended
          cases happended
      · exact h
  · exact h

theorem step_custody (s : Pipeline) (e : Event) (h : Custody s) (hkeeps : KeepsDeaths s e) :
    Custody (s.step e) := by
  cases e with
  | initBegin io starts => exact h.initBegin io starts
  | initFinish starts => exact h.initFinish starts
  | replayScan mysqlReady io => exact h.replayScan mysqlReady io
  | replayApply result io => exact h.replayApply result io hkeeps
  | replayRelease io => exact h.replayRelease io hkeeps
  | capture snapshot allocates => exact h.capture allocates hkeeps
  | dispatcherTake => exact h.dispatcherTake
  | dispatcherAppend createdMsec sequence io =>
      exact h.dispatcherAppend createdMsec sequence io hkeeps
  | dispatcherSettle allocates => exact h.dispatcherSettle allocates hkeeps
  | attemptEnd result io => exact h.attemptEnd result io hkeeps
  | worker e =>
      simp only [step]
      split
      · exact h.same rfl rfl rfl rfl rfl rfl id
      · exact h
  | pulse allocates => exact h.pulse allocates
  | revision op => exact h.same rfl rfl rfl rfl rfl rfl id
  | endSession pid =>
      simp only [step, endSession]
      split
      · exact h
      · have hended : Custody { s with revisions := playerRevisionEndSession s.revisions pid } :=
          h.same rfl rfl rfl rfl rfl rfl id
        exact hended.retire pid
  | live pid present => exact h.same rfl rfl rfl rfl rfl rfl id
  | targetFence pid held => exact h.same rfl rfl rfl rfl rfl rfl id
  | shutdownStop => exact h.same rfl rfl rfl rfl rfl rfl fun _ => rfl
  | shutdownFinish => exact h.shutdownFinish

theorem custody_empty : Custody {} :=
  ⟨inv_empty, by simp, by simp, by rintro snapshot ⟨⟩, fun _ => rfl, fun _ => rfl,
    fun _ => .inl rfl, by rintro ⟨⟩⟩

/-- In every run whose steps all keep deaths, an admitted death is held until its own
application has succeeded. -/
theorem pipeline_keeps_deaths (events : List Event)
    (hkeeps : Along step KeepsDeaths {} events) :
    ∀ d ∈ (run step {} events).unapplied, DeathHeld (run step {} events) d := by
  have hcustody : Custody (run step {} events) :=
    run_invariant_along step_custody events custody_empty hkeeps
  intro d hd
  rcases hcustody.kept d hd with hqueued | hflight | ⟨frame, hframe, hsnapshot⟩
  · exact .inl hqueued
  · exact .inr (.inl hflight)
  · exact .inr (.inr (.inr (.inr (.inr
      ⟨frame, hcustody.journal.owed_scanned frame hframe, hsnapshot⟩))))

def corpseOfSeven : PlayerItemSnapshot :=
  { parentIndex := -1, equipmentSlot := 0, objectUid := 1, generatedKey := 0
    vnum := vobjCorpse, type := itemCorpse, stringMask := 0, name := []
    shortDescription := [], description := [], actionDescription := []
    values := #v[0, 1, 0, 7, 0, 0, 1, 0], timers := Vector.replicate 6 0, wearFlags := 0
    extraFlags := 0, antiFlags := 0, anti2Flags := 0, extra2Flags := 0, weight := 0
    material := 0, cost := 0, condition := 0, craftsmanship := 0
    bitvectors := Vector.replicate 5 0, affects := Vector.replicate 4 (Vector.replicate 2 0)
    dynamicAffects := [], extraDescriptions := [] }

/-- The death of player 7 at revision 5, with nothing in the corpse. -/
def deathOfSeven : PlayerSnapshot :=
  { bareSnapshot 7 5 [] with
    schemaVersion := playerSnapshotDeathSchemaVersion
    components := playerCheckpointComponentAll
    saveIntent := rentDeath
    death := some
      { operationId := ⟨List.replicate 16 1, rfl⟩, corpseRoomVnum := 1, walletRevision := 1
        walletBefore := Vector.replicate 4 0, walletPileUid := 0, corpse := [corpseOfSeven]
        custody := [], unresolvedOperations := [] } }

def laterSaveOfSeven : PlayerSnapshot :=
  { bareSnapshot 7 6 [] with components := playerCheckpointComponentAll }

/-- The dispatcher has taken the death when the later save comes. -/
def saveBehindDeath : List Event :=
  [.capture deathOfSeven true, .replayScan false ⟨true, true⟩, .dispatcherTake,
    .capture laterSaveOfSeven true]

theorem pipeline_keeps_death_of_seven :
    Along step KeepsDeaths {} (freshStart ++ saveBehindDeath) ∧
      deathOfSeven ∈ (run step {} (freshStart ++ saveBehindDeath)).unapplied ∧
      DeathHeld (run step {} (freshStart ++ saveBehindDeath)) deathOfSeven := by
  have hkeeps : Along step KeepsDeaths {} (freshStart ++ saveBehindDeath) := by
    rw [along_append, run_freshStart]
    refine ⟨⟨trivial, trivial, trivial⟩, ⟨?_, ?_⟩, trivial, trivial, ⟨?_, ?_⟩, trivial⟩
    · rintro queued ⟨-, hfirst, -⟩
      cases hfirst
    · rintro queued - hfirst
      cases hfirst
    · rintro queued ⟨-, hfirst, -⟩
      cases hfirst
    · rintro queued - hfirst
      cases hfirst
  have hdeath : deathOfSeven ∈ (run step {} (freshStart ++ saveBehindDeath)).unapplied := by
    rw [run_append, run_freshStart]
    exact Set.mem_insert _ _
  exact ⟨hkeeps, hdeath, pipeline_keeps_deaths _ hkeeps deathOfSeven hdeath⟩

/-- A death that waits for the dispatcher, and a later save of the player. -/
theorem newer_save_overwrites_death :
    validMetadata deathOfSeven = true ∧ validDeath deathOfSeven = true ∧
    deathOfSeven ∈ (run step {} (freshStart ++
      [.capture deathOfSeven true, .capture laterSaveOfSeven true])).unapplied ∧
    ¬ DeathHeld (run step {} (freshStart ++
      [.capture deathOfSeven true, .capture laterSaveOfSeven true])) deathOfSeven := by
  have hstate : run step {} (freshStart ++
      [.capture deathOfSeven true, .capture laterSaveOfSeven true]) =
        { journal := { initialized := true }
          worker := (Worker.init {} true).2
          initialized := true
          dispatcher := .starting
          pendingAppend := [laterSaveOfSeven]
          retainedBytes := 4096
          unapplied := insert deathOfSeven ∅ } := by
    rw [run_append, run_freshStart]
    rfl
  rw [hstate]
  refine ⟨by decide +kernel, by decide +kernel, Set.mem_insert _ _, ?_⟩
  rintro (hqueued | hflight | hready | ⟨job, hjob, -⟩ | ⟨job, hjob, -⟩ | ⟨frame, hframe, -⟩)
  · have hrevision := congrArg PlayerSnapshot.revision (List.mem_singleton.mp hqueued)
    exact absurd hrevision (by decide)
  · cases hflight
  · cases hready
  · cases hjob
  · cases hjob
  · rw [scanFrom_stop 0 [] (.inl rfl)] at hframe
    cases hframe

end Pipeline

end Duris.Player
