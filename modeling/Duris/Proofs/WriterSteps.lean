import Duris.Lib.Run
import Duris.Player.SaveWorker

/-!
# What a step of the writer can do

Thirteen events move jobs between four places: the queue, the slot in flight, the
completions and what the game has consumed. `Effect` says once what a step can do
to them: nothing, start or end an attempt, append, replace the tail, take the head,
report, or hand completions over. Every invariant of the writer is an induction over
that list, and nothing behind this module unfolds a step.

Two invariants stand here because all the others need them. `Indexed`: the owner
index names each owner's newest queued job and nothing else, so that the tail a
submission replaces is its own owner's. `Filed`: whatever the writer holds or has
reported is what it was given under that ticket.
-/

namespace Duris.Player

namespace Worker

def busy : WriterPhase → Bool
  | .ready _ | .attempting _ | .backoff _ _ | .settled _ _ => true
  | .waiting | .exiting | .gone => false

/-- The writer holds a job whose next attempt has not ended. -/
def early : WriterPhase → Bool
  | .ready _ | .attempting _ => true
  | _ => false

def attempting : WriterPhase → Bool
  | .attempting _ => true
  | _ => false

/-- A step that leaves all jobs where they are. -/
structure SameCustody (w w' : Worker) : Prop where
  queue : w'.queue = w.queue
  index : w'.queuedByOwner = w.queuedByOwner
  inflight : w'.inflight = w.inflight
  results : w'.results = w.results
  bytes : w'.queuedBytes = w.queuedBytes
  node : w'.nextNode = w.nextNode
  admitted : w'.admitted = w.admitted
  delivered : w'.delivered = w.delivered
  superseded : w'.superseded = w.superseded

/-- `job` as it is admitted: in its node and under its ticket. -/
def placed (job : QueuedJob) (node ticket : Nat) : QueuedJob := { job with node, ticket }

@[simp] theorem placed_node (job : QueuedJob) (node ticket : Nat) :
    (placed job node ticket).node = node := rfl

@[simp] theorem placed_ticket (job : QueuedJob) (node ticket : Nat) :
    (placed job node ticket).ticket = ticket := rfl

@[simp] theorem placed_key (job : QueuedJob) (node ticket : Nat) :
    (placed job node ticket).key = job.key := rfl

/-- The queue, index and ledger after an append. -/
def appendJob (w : Worker) (job : QueuedJob) : Worker :=
  let job := placed job w.nextNode w.admitted.length
  { w with
    queue := w.queue ++ [job]
    queuedByOwner := Function.update w.queuedByOwner job.key (some job.node)
    queuedBytes := w.queuedBytes + job.bytes
    nextNode := w.nextNode + 1
    admitted := w.admitted ++ [job] }

/-- The same after `job` took the place of `tail`. -/
def replaceJob (w : Worker) (ahead : List QueuedJob) (tail job : QueuedJob) : Worker :=
  let job := placed job tail.node w.admitted.length
  { w with
    queue := ahead ++ [job]
    queuedBytes := w.queuedBytes - tail.bytes + job.bytes
    admitted := w.admitted ++ [job]
    superseded := w.superseded ++ [⟨ahead, tail, job⟩] }

def takeJob (w : Worker) (job : QueuedJob) (rest : List QueuedJob) : Worker :=
  { w with
    queue := rest
    queuedByOwner := forgetOwner w.queuedByOwner job
    inflight := some job
    queuedBytes := w.queuedBytes - job.bytes
    phase := .ready 0 }

/-- The same after the writer reported `job`. -/
def reportJob (w : Worker) (job : QueuedJob) (retries : Nat) (result : ApplyResult)
    (phase : WriterPhase) : Worker :=
  { w with
    results := w.results ++ [completionOf job retries result]
    inflight := none
    phase }

def Submitted : Event → QueuedJob → Prop
  | .submitRetained snapshot _, job => validSnapshot snapshot = true ∧ job = playerJob snapshot
  | .writerSubmit kind owner bytes _ _, job =>
      kind ≠ .player ∧ job = { kind, owner, snapshot := none, bytes }
  | _, _ => False

inductive Effect (w : Worker) (e : Event) : Worker → Prop where
  | idle {w' : Worker} (same : SameCustody w w') (attempts : w'.attempts = w.attempts)
      (hbusy : busy w'.phase = true → busy w.phase = true)
      (hearly : early w.phase = true → w'.phase = w.phase)
      (hattempting : attempting w'.phase = true → attempting w.phase = true) : Effect w e w'
  | start {w' : Worker} (same : SameCustody w w') (attempts : w'.attempts = w.attempts)
      (hexited : w.writerExited = true) (hphase : w'.phase = .waiting) : Effect w e w'
  | attemptStart {w' : Worker} (job : QueuedJob) (retries : Nat) (same : SameCustody w w')
      (hphase : w.phase = .ready retries) (hinflight : w.inflight = some job)
      (hphase' : w'.phase = .attempting retries)
      (attempts : w'.attempts = w.attempts ++ [.started job.ticket]) : Effect w e w'
  | attemptEnd {w' : Worker} (job : QueuedJob) (retries : Nat) (same : SameCustody w w')
      (hphase : w.phase = .attempting retries) (hinflight : w.inflight = some job)
      (hearly : early w'.phase = false)
      (attempts : w'.attempts = w.attempts ++ [.ended job.ticket]) : Effect w e w'
  | append (job : QueuedJob) (hsubmitted : Submitted e job)
      (hroom : w.pendingJobs < playerSaveWorkerMaxPendingJobs) : Effect w e (w.appendJob job)
  | replace (ahead : List QueuedJob) (tail job : QueuedJob) (hsubmitted : Submitted e job)
      (hqueue : w.queue = ahead ++ [tail])
      (hindex : w.queuedByOwner job.key = some tail.node) (hjob : job.death = false)
      (htail : tail.death = false) : Effect w e (w.replaceJob ahead tail job)
  | take (job : QueuedJob) (rest : List QueuedJob) (hqueue : w.queue = job :: rest)
      (hevent : e = .wake) (hphase : w.phase = .waiting) (hstop : w.stopRequested = false) :
      Effect w e (w.takeJob job rest)
  | report (job : QueuedJob) (retries : Nat) (result : ApplyResult) (phase : WriterPhase)
      (hinflight : w.inflight = some job) (hearly : early w.phase = false)
      (hphase : busy phase = false) : Effect w e (w.reportJob job retries result phase)
  | consume (capacity : Nat) : Effect w e (w.pulse capacity).2

theorem SameCustody.refl (w : Worker) : SameCustody w w :=
  ⟨rfl, rfl, rfl, rfl, rfl, rfl, rfl, rfl, rfl⟩

theorem Effect.refl (w : Worker) (e : Event) : Effect w e w :=
  .idle (SameCustody.refl w) rfl id (fun _ => rfl) id

variable {w w' : Worker} {job tail : QueuedJob} {e : Event} {queue : List QueuedJob}
  {k : PersistenceJobOwner}

theorem replaceTail_eq_some (h : w.replaceTail job = some tail) :
    w.queue = w.queue.dropLast ++ [tail] ∧ w.queuedByOwner job.key = some tail.node ∧
      job.death = false ∧ tail.death = false := by
  unfold replaceTail at h
  split at h
  · next node last hindex hlast =>
      split at h
      · next hc =>
          cases h
          refine ⟨?_, by rw [hindex, hc.1], hc.2⟩
          rw [← List.dropLast_append_getLast? _ hlast]
          simp
      · cases h
  · cases h

theorem enqueue_effect (w : Worker) (hsubmitted : Submitted e job) (allocates : Bool) :
    Effect w e (w.enqueue job allocates).2 := by
  unfold enqueue
  split
  · exact Effect.refl w e
  · next hopen =>
      simp only [not_or, Bool.not_eq_false] at hopen
      cases htail : w.replaceTail job with
      | some tail =>
          obtain ⟨hqueue, hindex, hjob, hdeath⟩ := replaceTail_eq_some htail
          dsimp only
          split
          · exact Effect.refl w e
          · exact .replace _ tail job hsubmitted hqueue hindex hjob hdeath
      | none =>
          dsimp only
          split
          · exact Effect.refl w e
          · next hspace =>
              split
              · exact Effect.refl w e
              · refine .append job hsubmitted ?_
                simp only [not_or, Option.isNone_none, true_and, Nat.not_le] at hspace
                exact hspace.2.2

theorem step_effect (w : Worker) (e : Event) : Effect w e (w.step e) := by
  cases e with
  | init starts =>
      simp only [step, init]
      split
      · exact Effect.refl w _
      · next hdown =>
          split
          · refine .start ⟨rfl, rfl, rfl, rfl, rfl, rfl, rfl, rfl, rfl⟩ rfl ?_ rfl
            simp only [not_or, Bool.not_eq_false] at hdown
            exact hdown.2.2
          · exact .idle ⟨rfl, rfl, rfl, rfl, rfl, rfl, rfl, rfl, rfl⟩ rfl id (fun _ => rfl) id
  | submitRetained snapshot allocates =>
      simp only [step, submitRetained]
      split
      · exact Effect.refl w _
      · next hvalid =>
          rw [Bool.not_eq_false] at hvalid
          have hsubmitted : Submitted (.submitRetained snapshot allocates) (playerJob snapshot) :=
            ⟨hvalid, rfl⟩
          have heffect := enqueue_effect w hsubmitted allocates
          split <;> (next hq => rw [hq] at heffect; exact heffect)
  | writerSubmit kind owner bytes writable allocates =>
      simp only [step, writerSubmit]
      split
      · exact Effect.refl w _
      · next hvalid =>
          rw [not_or] at hvalid
          have hsubmitted : Submitted (.writerSubmit kind owner bytes writable allocates)
              { kind, owner, snapshot := none, bytes } := ⟨hvalid.1, rfl⟩
          have heffect := enqueue_effect w hsubmitted allocates
          split <;> (next hq => rw [hq] at heffect; exact heffect)
  | wake =>
      simp only [step, wake]
      split
      · exact Effect.refl w _
      · next hphase =>
          rw [ne_eq, not_not] at hphase
          split
          · refine .idle ⟨rfl, rfl, rfl, rfl, rfl, rfl, rfl, rfl, rfl⟩ rfl
              (fun h => by cases h) (fun h => ?_) (fun h => by cases h)
            rw [hphase] at h
            cases h
          · next hstop =>
              split
              · exact Effect.refl w _
              · next job rest hqueue =>
                  exact .take job rest hqueue rfl hphase (by simpa using hstop)
  | attemptStart =>
      simp only [step, attemptStart]
      split
      · next retries job hphase hinflight =>
          exact .attemptStart job retries ⟨rfl, rfl, rfl, rfl, rfl, rfl, rfl, rfl, rfl⟩
            hphase hinflight rfl rfl
      · exact Effect.refl w _
  | attemptEnd result =>
      simp only [step, attemptEnd]
      split
      · next retries job hphase hinflight =>
          refine .attemptEnd job retries ⟨rfl, rfl, rfl, rfl, rfl, rfl, rfl, rfl, rfl⟩
            hphase hinflight ?_ rfl
          split <;> rfl
      · exact Effect.refl w _
  | retry =>
      simp only [step, retry]
      split
      · next retries result hphase =>
          refine .idle ⟨rfl, rfl, rfl, rfl, rfl, rfl, rfl, rfl, rfl⟩ rfl
            (fun _ => by rw [hphase]; rfl) (fun h => ?_) (fun h => ?_)
          · rw [hphase] at h
            cases h
          · split at h <;> cases h
      · exact Effect.refl w _
  | complete =>
      simp only [step, complete]
      split
      · next retries result job hphase hinflight =>
          have hidle : busy (if w.stopRequested then WriterPhase.exiting else .waiting) =
            false := by
            split <;> rfl
          split
          · next hstop =>
              refine .idle ⟨rfl, rfl, rfl, rfl, rfl, rfl, rfl, rfl, rfl⟩ rfl
                (fun h => by rw [hidle] at h; cases h) (fun h => ?_) (fun h => ?_)
              · rw [hphase] at h
                cases h
              · rw [hstop.1] at h
                cases h
          · exact .report job retries result _ hinflight (by rw [hphase]; rfl) hidle
      · exact Effect.refl w _
  | exit =>
      simp only [step, exit]
      split
      · next hphase =>
          refine .idle ⟨rfl, rfl, rfl, rfl, rfl, rfl, rfl, rfl, rfl⟩ rfl
            (fun h => by cases h) (fun h => ?_) (fun h => by cases h)
          rw [hphase] at h
          cases h
      · exact Effect.refl w _
  | pulse capacity => exact .consume capacity
  | shutdownBegin =>
      exact .idle ⟨rfl, rfl, rfl, rfl, rfl, rfl, rfl, rfl, rfl⟩ rfl id (fun _ => rfl) id
  | shutdownDetach =>
      simp only [step, shutdownDetach]
      split
      · exact .idle ⟨rfl, rfl, rfl, rfl, rfl, rfl, rfl, rfl, rfl⟩ rfl id (fun _ => rfl) id
      · exact Effect.refl w _
  | shutdownFinish =>
      simp only [step, shutdownFinish]
      split
      · exact .idle ⟨rfl, rfl, rfl, rfl, rfl, rfl, rfl, rfl, rfl⟩ rfl id (fun _ => rfl) id
      · exact Effect.refl w _

/-! ## The index names the newest job of each owner -/

def newest (queue : List QueuedJob) (k : PersistenceJobOwner) : Option QueuedJob :=
  (queue.filter fun job => job.key = k).getLast?

theorem newest_append (queue : List QueuedJob) (job : QueuedJob) (k : PersistenceJobOwner) :
    newest (queue ++ [job]) k = if job.key = k then some job else newest queue k := by
  unfold newest
  rw [List.filter_append]
  split
  · next hk => simp [hk]
  · next hk => simp [hk]

theorem newest_cons (job : QueuedJob) (queue : List QueuedJob) (k : PersistenceJobOwner) :
    newest (job :: queue) k =
      (newest queue k).or (if job.key = k then some job else none) := by
  unfold newest
  rw [List.filter_cons]
  split
  · next hk =>
      rw [List.getLast?_cons]
      cases hrest : (queue.filter fun job => job.key = k).getLast? <;> simp_all
  · next hk => simp_all

theorem newest_mem (h : newest queue k = some job) : job ∈ queue ∧ job.key = k := by
  have hmem := List.mem_of_getLast? h
  rw [List.mem_filter] at hmem
  exact ⟨hmem.1, by simpa using hmem.2⟩

theorem newest_isSome_iff : (newest queue k).isSome = true ↔ ∃ job ∈ queue, job.key = k := by
  unfold newest
  rw [List.getLast?_isSome, ne_eq, List.filter_eq_nil_iff]
  simp

/-- The queue's nodes are distinct, and the index holds the newest of each owner. -/
structure Indexed (w : Worker) : Prop where
  nodup : (w.queue.map QueuedJob.node).Nodup
  fresh : ∀ job ∈ w.queue, job.node < w.nextNode
  newest : ∀ k, w.queuedByOwner k = (newest w.queue k).map QueuedJob.node

theorem eq_of_node_eq (h : (queue.map QueuedJob.node).Nodup) {a b : QueuedJob} (ha : a ∈ queue)
    (hb : b ∈ queue) (hnode : a.node = b.node) : a = b :=
  List.inj_on_of_nodup_map h ha hb hnode

theorem Indexed.key_eq (h : Indexed w) (hmem : job ∈ w.queue)
    (hindex : w.queuedByOwner k = some job.node) : job.key = k := by
  rw [h.newest, Option.map_eq_some_iff] at hindex
  obtain ⟨found, hfound, hnode⟩ := hindex
  obtain ⟨hin, hkey⟩ := newest_mem hfound
  rw [← hkey, eq_of_node_eq h.nodup hin hmem hnode]

theorem Indexed.same (h : Indexed w) (same : SameCustody w w') : Indexed w' := by
  obtain ⟨hnodup, hfresh, hnewest⟩ := h
  refine ⟨?_, ?_, ?_⟩
  · rw [same.queue]; exact hnodup
  · rw [same.queue, same.node]; exact hfresh
  · rw [same.queue, same.index]; exact hnewest

theorem Indexed.append (h : Indexed w) (job : QueuedJob) : Indexed (w.appendJob job) := by
  refine ⟨?_, ?_, ?_⟩
  · simp only [appendJob, List.map_append, List.map_cons, List.map_nil]
    rw [List.nodup_append]
    refine ⟨h.nodup, by simp, ?_⟩
    intro a ha b hb
    rw [List.mem_singleton, placed_node] at hb
    obtain ⟨queued, hqueued, rfl⟩ := List.mem_map.mp ha
    have := h.fresh queued hqueued
    omega
  · intro queued hqueued
    simp only [appendJob, List.mem_append, List.mem_singleton] at hqueued ⊢
    rcases hqueued with hqueued | rfl
    · have := h.fresh queued hqueued
      omega
    · exact Nat.lt_succ_self _
  · intro k
    simp only [appendJob]
    rw [newest_append, Function.update_apply, placed_key]
    by_cases hk : job.key = k
    · rw [if_pos hk.symm, if_pos hk]
      rfl
    · rw [if_neg (fun h => hk h.symm), if_neg hk, h.newest]

theorem Indexed.replace (h : Indexed w) {ahead : List QueuedJob}
    (hqueue : w.queue = ahead ++ [tail]) (hindex : w.queuedByOwner job.key = some tail.node) :
    Indexed (w.replaceJob ahead tail job) := by
  have hkey : tail.key = job.key := h.key_eq (by simp [hqueue]) hindex
  have hnodup := h.nodup
  have hfresh := h.fresh
  rw [hqueue] at hnodup hfresh
  refine ⟨?_, ?_, ?_⟩
  · simpa only [replaceJob, List.map_append, List.map_cons, List.map_nil, placed_node]
      using hnodup
  · intro queued hqueued
    simp only [replaceJob, List.mem_append, List.mem_singleton] at hqueued ⊢
    rcases hqueued with hqueued | rfl
    · exact hfresh queued (by simp [hqueued])
    · exact hfresh tail (by simp)
  · intro k
    simp only [replaceJob]
    rw [h.newest, hqueue, newest_append, newest_append, placed_key, hkey]
    split <;> rfl

theorem Indexed.take (h : Indexed w) {rest : List QueuedJob} (hqueue : w.queue = job :: rest) :
    Indexed (w.takeJob job rest) := by
  have hnodup := h.nodup
  have hnewest := h.newest
  rw [hqueue] at hnodup
  simp only [hqueue, newest_cons] at hnewest
  rw [List.map_cons, List.nodup_cons] at hnodup
  refine ⟨hnodup.2, ?_, ?_⟩
  · intro queued hqueued
    have hmem : queued ∈ rest := hqueued
    exact h.fresh queued (by simp [hqueue, hmem])
  intro k
  simp only [takeJob, forgetOwner]
  by_cases hk : job.key = k
  · subst hk
    have hentry := hnewest job.key
    rw [if_pos rfl] at hentry
    cases hrest : Worker.newest rest job.key with
    | none =>
        -- The head was its owner's only job: the entry names it and goes.
        rw [hrest, Option.none_or, Option.map_some] at hentry
        rw [if_pos hentry, Function.update_self]
        rfl
    | some later =>
        rw [hrest] at hentry
        have hne : later.node ≠ job.node := by
          intro heq
          exact hnodup.1 (heq ▸ List.mem_map_of_mem (newest_mem hrest).1)
        rw [if_neg (by rw [hentry]; simpa using hne), hentry]
        rfl
  · have hentry := hnewest k
    rw [if_neg hk, Option.or_none] at hentry
    split
    · rw [Function.update_of_ne (fun h => hk h.symm), hentry]
    · exact hentry

theorem Effect.indexed (heffect : Effect w e w') (h : Indexed w) : Indexed w' := by
  cases heffect with
  | idle same => exact h.same same
  | start same => exact h.same same
  | attemptStart job retries same => exact h.same same
  | attemptEnd job retries same => exact h.same same
  | append job => exact h.append job
  | replace ahead tail job hsubmitted hqueue hindex => exact h.replace hqueue hindex
  | take job rest hqueue => exact h.take hqueue
  | report => exact ⟨h.nodup, h.fresh, h.newest⟩
  | consume => exact ⟨h.nodup, h.fresh, h.newest⟩

/-! ## Everything held is what was admitted -/

/-- A player's job holds a snapshot of the player it is indexed under. -/
def Named (job : QueuedJob) : Prop :=
  job.kind = .player → ∃ snapshot, job.snapshot = some snapshot ∧
    job.owner = snapshot.pid.signExtend 64 ∧ Pid.valid snapshot.pid = true

theorem validSnapshot_pid {snapshot : PlayerSnapshot} (h : validSnapshot snapshot = true) :
    Pid.valid snapshot.pid = true := by
  simp only [validSnapshot, Bool.and_eq_true] at h
  exact h.1.1.1.1.1.2

theorem Submitted.named (h : Submitted e job) : Named job := by
  cases e with
  | submitRetained snapshot =>
      obtain ⟨hvalid, rfl⟩ := h
      exact fun _ => ⟨snapshot, rfl, rfl, validSnapshot_pid hvalid⟩
  | writerSubmit kind =>
      obtain ⟨hkind, rfl⟩ := h
      exact fun hplayer => absurd hplayer hkind
  | init => cases h
  | wake => cases h
  | attemptStart => cases h
  | attemptEnd => cases h
  | retry => cases h
  | complete => cases h
  | exit => cases h
  | pulse => cases h
  | shutdownBegin => cases h
  | shutdownDetach => cases h
  | shutdownFinish => cases h

/-- What the writer holds, reports and replaces is what it was given. The job at the
tail of the queue is the last one admitted, so a replaced job and its replacement are
neighbours. -/
structure Filed (w : Worker) : Prop where
  named : ∀ job ∈ w.admitted, Named job
  queued : ∀ job ∈ w.queue, w.admitted[job.ticket]? = some job
  inflight : ∀ job, w.inflight = some job → w.admitted[job.ticket]? = some job
  reported : ∀ completion ∈ w.results ++ w.delivered, ∃ job retries result,
    w.admitted[completion.ticket]? = some job ∧ completion = completionOf job retries result
  last : ∀ job, w.queue.getLast? = some job → job.ticket + 1 = w.admitted.length
  replaced : ∀ s ∈ w.superseded,
    w.admitted[s.old.ticket]? = some s.old ∧ w.admitted[s.new.ticket]? = some s.new ∧
      s.new.ticket = s.old.ticket + 1 ∧ s.old.key = s.new.key ∧
      s.old.death = false ∧ s.new.death = false
  bytes : w.queuedBytes = (w.queue.map QueuedJob.bytes).sum
  capacity : w.pendingJobs ≤ playerSaveWorkerMaxPendingJobs

theorem named_append (h : Filed w) (hjob : Named job) :
    ∀ admitted ∈ w.admitted ++ [job], Named admitted := by
  intro admitted hadmitted
  rcases List.mem_append.mp hadmitted with hadmitted | hadmitted
  · exact h.named admitted hadmitted
  · rw [List.mem_singleton.mp hadmitted]
    exact hjob

theorem getElem?_append_of_some {α : Type} {xs ys : List α} {i : Nat} {x : α}
    (h : xs[i]? = some x) : (xs ++ ys)[i]? = some x := by
  obtain ⟨hi, -⟩ := List.getElem?_eq_some_iff.mp h
  rw [List.getElem?_append_left hi, h]

theorem Filed.same (h : Filed w) (same : SameCustody w w') : Filed w' := by
  obtain ⟨hnamed, hqueued, hinflight, hreported, hlast, hreplaced, hbytes, hcapacity⟩ := h
  refine ⟨?_, ?_, ?_, ?_, ?_, ?_, ?_, ?_⟩
  · rw [same.admitted]; exact hnamed
  · rw [same.queue, same.admitted]; exact hqueued
  · rw [same.inflight, same.admitted]; exact hinflight
  · rw [same.results, same.delivered, same.admitted]; exact hreported
  · rw [same.queue, same.admitted]; exact hlast
  · rw [same.superseded, same.admitted]; exact hreplaced
  · rw [same.bytes, same.queue]; exact hbytes
  · unfold pendingJobs at hcapacity ⊢
    rw [same.queue, same.inflight, same.results]
    exact hcapacity

theorem Filed.append (h : Filed w) (hnamed : Named job)
    (hroom : w.pendingJobs < playerSaveWorkerMaxPendingJobs) : Filed (w.appendJob job) := by
  refine ⟨named_append h hnamed, ?_, ?_, ?_, ?_, ?_, ?_, ?_⟩
  · intro queued hqueued
    simp only [appendJob, List.mem_append, List.mem_singleton] at hqueued ⊢
    rcases hqueued with hqueued | rfl
    · exact getElem?_append_of_some (h.queued queued hqueued)
    · simp
  · exact fun job hjob => getElem?_append_of_some (h.inflight job hjob)
  · intro completion hcompletion
    obtain ⟨job, retries, result, hjob, heq⟩ := h.reported completion hcompletion
    exact ⟨job, retries, result, getElem?_append_of_some hjob, heq⟩
  · intro last hlast
    simp only [appendJob, List.getLast?_concat, Option.some.injEq] at hlast ⊢
    subst hlast
    simp
  · intro s hs
    obtain ⟨hold, hnew, hrest⟩ := h.replaced s hs
    exact ⟨getElem?_append_of_some hold, getElem?_append_of_some hnew, hrest⟩
  · simp only [appendJob, List.map_append, List.sum_append, List.map_cons, List.map_nil,
      List.sum_cons, List.sum_nil, h.bytes]
    rfl
  · unfold pendingJobs at hroom ⊢
    simp only [appendJob, List.length_append, List.length_cons, List.length_nil]
    omega

theorem Filed.replace (h : Filed w) (hindexed : Indexed w) {ahead : List QueuedJob}
    (hnamed : Named job) (hqueue : w.queue = ahead ++ [tail])
    (hindex : w.queuedByOwner job.key = some tail.node) (hjob : job.death = false)
    (htail : tail.death = false) : Filed (w.replaceJob ahead tail job) := by
  have hkey : tail.key = job.key := hindexed.key_eq (by simp [hqueue]) hindex
  have hticket : tail.ticket + 1 = w.admitted.length := h.last tail (by simp [hqueue])
  have hfiled : w.admitted[tail.ticket]? = some tail := h.queued tail (by simp [hqueue])
  have hbytes := h.bytes
  have hcapacity := h.capacity
  rw [hqueue] at hbytes
  refine ⟨named_append h hnamed, ?_, ?_, ?_, ?_, ?_, ?_, ?_⟩
  · intro queued hqueued
    simp only [replaceJob, List.mem_append, List.mem_singleton] at hqueued ⊢
    rcases hqueued with hqueued | rfl
    · exact getElem?_append_of_some (h.queued queued (by simp [hqueue, hqueued]))
    · simp
  · exact fun job hjob => getElem?_append_of_some (h.inflight job hjob)
  · intro completion hcompletion
    obtain ⟨job, retries, result, hjob, heq⟩ := h.reported completion hcompletion
    exact ⟨job, retries, result, getElem?_append_of_some hjob, heq⟩
  · intro last hlast
    simp only [replaceJob, List.getLast?_concat, Option.some.injEq] at hlast ⊢
    subst hlast
    simp
  · intro s hs
    simp only [replaceJob, List.mem_append, List.mem_singleton] at hs ⊢
    rcases hs with hs | rfl
    · obtain ⟨hold, hnew, hrest⟩ := h.replaced s hs
      exact ⟨getElem?_append_of_some hold, getElem?_append_of_some hnew, hrest⟩
    · exact ⟨getElem?_append_of_some hfiled, by simp, by simp [hticket], by simpa using hkey,
        htail, hjob⟩
  · simp only [List.map_append, List.sum_append, List.map_cons, List.map_nil, List.sum_cons,
      List.sum_nil] at hbytes
    simp only [replaceJob, List.map_append, List.sum_append, List.map_cons, List.map_nil,
      List.sum_cons, List.sum_nil]
    omega
  · unfold pendingJobs at hcapacity ⊢
    rw [hqueue] at hcapacity
    simpa only [replaceJob, List.length_append, List.length_cons, List.length_nil]
      using hcapacity

theorem Filed.take (h : Filed w) {rest : List QueuedJob} (hqueue : w.queue = job :: rest) :
    Filed (w.takeJob job rest) := by
  have hbytes := h.bytes
  have hcapacity := h.capacity
  rw [hqueue] at hbytes
  refine ⟨h.named, ?_, ?_, h.reported, ?_, h.replaced, ?_, ?_⟩
  · exact fun queued hqueued => h.queued queued (hqueue ▸ List.mem_cons_of_mem job hqueued)
  · intro held hheld
    simp only [takeJob, Option.some.injEq] at hheld ⊢
    subst hheld
    exact h.queued job (by simp [hqueue])
  · intro last hlast
    refine h.last last ?_
    have hlast' : rest.getLast? = some last := hlast
    rw [hqueue, List.getLast?_cons, hlast']
    rfl
  · simp only [List.map_cons, List.sum_cons] at hbytes
    simp only [takeJob]
    omega
  · unfold pendingJobs at hcapacity ⊢
    rw [hqueue] at hcapacity
    simp only [takeJob, List.length_cons, Option.toList_some, List.length_nil] at hcapacity ⊢
    omega

theorem Filed.report (h : Filed w) (retries : Nat) (result : ApplyResult) (phase : WriterPhase)
    (hinflight : w.inflight = some job) : Filed (w.reportJob job retries result phase) := by
  have hcapacity := h.capacity
  refine ⟨h.named, h.queued, (by rintro job ⟨⟩), ?_, h.last, h.replaced, h.bytes, ?_⟩
  · intro completion hcompletion
    simp only [reportJob, List.mem_append, List.mem_singleton] at hcompletion
    rcases hcompletion with (hcompletion | rfl) | hcompletion
    · exact h.reported completion (by simp [hcompletion])
    · exact ⟨job, retries, result, h.inflight job hinflight, rfl⟩
    · exact h.reported completion (by simp [hcompletion])
  · unfold pendingJobs at hcapacity ⊢
    rw [hinflight] at hcapacity
    simp only [reportJob, List.length_append, List.length_cons, List.length_nil,
      Option.toList_some, Option.toList_none] at hcapacity ⊢
    omega

theorem mem_of_mem_pulse {capacity : Nat} {completion : Completion}
    (h : completion ∈ (w.pulse capacity).2.results ++ (w.pulse capacity).2.delivered) :
    completion ∈ w.results ++ w.delivered := by
  simp only [pulse, List.mem_append] at h ⊢
  rcases h with hdrop | hdelivered | htake
  · exact .inl (List.mem_of_mem_drop hdrop)
  · exact .inr hdelivered
  · exact .inl (List.mem_of_mem_take htake)

theorem Filed.consume (h : Filed w) (capacity : Nat) : Filed (w.pulse capacity).2 := by
  have hcapacity := h.capacity
  refine ⟨h.named, h.queued, h.inflight, ?_, h.last, h.replaced, h.bytes, ?_⟩
  · exact fun completion hcompletion => h.reported completion (mem_of_mem_pulse hcompletion)
  · unfold pendingJobs at hcapacity ⊢
    simp only [pulse, List.length_drop]
    omega

theorem Effect.filed (heffect : Effect w e w') (hindexed : Indexed w) (h : Filed w) : Filed w' := by
  cases heffect with
  | idle same => exact h.same same
  | start same => exact h.same same
  | attemptStart job retries same => exact h.same same
  | attemptEnd job retries same => exact h.same same
  | append job hsubmitted hroom => exact h.append hsubmitted.named hroom
  | replace ahead tail job hsubmitted hqueue hindex hjob htail =>
      exact h.replace hindexed hsubmitted.named hqueue hindex hjob htail
  | take job rest hqueue => exact h.take hqueue
  | report job retries result phase hinflight => exact h.report retries result phase hinflight
  | consume capacity => exact h.consume capacity

/-! ## A job leaves the slot only with an attempt behind it -/

theorem step_exited (w : Worker) (e : Event) (h : w.writerExited = true → w.phase = .gone) :
    (w.step e).writerExited = true → (w.step e).phase = .gone := by
  have henqueue : ∀ job allocates, (w.enqueue job allocates).2.writerExited = w.writerExited ∧
      (w.enqueue job allocates).2.phase = w.phase := by
    intro job allocates
    unfold enqueue
    split
    · exact ⟨rfl, rfl⟩
    · cases htail : w.replaceTail job <;> dsimp only <;> split <;>
        first | exact ⟨rfl, rfl⟩ | (split <;> exact ⟨rfl, rfl⟩)
  cases e with
  | init starts =>
      simp only [step, init]
      split
      · exact h
      · split
        · rintro ⟨⟩
        · exact h
  | submitRetained snapshot allocates =>
      obtain ⟨hexited, hphase⟩ := henqueue (playerJob snapshot) allocates
      simp only [step, submitRetained]
      split
      · exact h
      · split <;> (next hq => rw [hq] at hexited hphase; rw [hexited, hphase]; exact h)
  | writerSubmit kind owner bytes writable allocates =>
      obtain ⟨hexited, hphase⟩ := henqueue { kind, owner, snapshot := none, bytes } allocates
      simp only [step, writerSubmit]
      split
      · exact h
      · split <;> (next hq => rw [hq] at hexited hphase; rw [hexited, hphase]; exact h)
  | wake =>
      simp only [step, wake]
      split
      · exact h
      · next hphase =>
          rw [ne_eq, not_not] at hphase
          have halive : w.writerExited = true → False := by
            intro hexited
            rw [h hexited] at hphase
            cases hphase
          split
          · exact fun hexited => (halive hexited).elim
          · split
            · exact h
            · exact fun hexited => (halive hexited).elim
  | attemptStart =>
      simp only [step, attemptStart]
      split
      · next hphase _ => intro hexited; rw [h hexited] at hphase; cases hphase
      · exact h
  | attemptEnd result =>
      simp only [step, attemptEnd]
      split
      · next hphase _ => intro hexited; rw [h hexited] at hphase; cases hphase
      · exact h
  | retry =>
      simp only [step, retry]
      split
      · next hphase => intro hexited; rw [h hexited] at hphase; cases hphase
      · exact h
  | complete =>
      simp only [step, complete]
      split
      · next hphase _ =>
          split <;> (intro hexited; rw [h hexited] at hphase; cases hphase)
      · exact h
  | exit =>
      simp only [step, exit]
      split
      · exact fun _ => rfl
      · exact h
  | pulse capacity => exact h
  | shutdownBegin => exact h
  | shutdownDetach => simp only [step, shutdownDetach]; split <;> exact h
  | shutdownFinish => simp only [step, shutdownFinish]; split <;> exact h

/-- The job in the slot has had an attempt end, unless its next one is under way. -/
structure Attempted (w : Worker) : Prop where
  exited : w.writerExited = true → w.phase = .gone
  holding : busy w.phase = true → w.inflight.isSome = true
  written : ∀ job, w.inflight = some job → early w.phase = false →
    Attempt.ended job.ticket ∈ w.attempts
  reported : ∀ completion ∈ w.results ++ w.delivered,
    Attempt.ended completion.ticket ∈ w.attempts
  known : ∀ a ∈ w.attempts, a.ticket < w.admitted.length

theorem Attempted.attempt (h : Attempted w) (hfiled : Filed w) (same : SameCustody w w')
    {a : Attempt} (hinflight : w.inflight = some job)
    (hexited : w'.writerExited = true → w'.phase = .gone) (hticket : a.ticket = job.ticket)
    (attempts : w'.attempts = w.attempts ++ [a])
    (hwritten : early w'.phase = false → a = .ended job.ticket) : Attempted w' := by
  have hknown : job.ticket < w.admitted.length :=
    (List.getElem?_eq_some_iff.mp (hfiled.inflight job hinflight)).1
  refine ⟨hexited, ?_, ?_, ?_, ?_⟩
  · rw [same.inflight, hinflight]
    exact fun _ => rfl
  · intro held hheld hearly
    rw [same.inflight, hinflight] at hheld
    cases hheld
    rw [attempts, hwritten hearly]
    simp
  · rw [same.results, same.delivered, attempts]
    exact fun completion hcompletion => List.mem_append_left _ (h.reported completion hcompletion)
  · rw [same.admitted, attempts]
    intro b hb
    rcases List.mem_append.mp hb with hb | hb
    · exact h.known b hb
    · rw [List.mem_singleton.mp hb, hticket]
      exact hknown

theorem Effect.attempted (heffect : Effect w e w') (hfiled : Filed w)
    (hexited : w'.writerExited = true → w'.phase = .gone) (h : Attempted w) : Attempted w' := by
  cases heffect with
  | idle same attempts hbusy hearly =>
      refine ⟨hexited, ?_, ?_, ?_, ?_⟩
      · rw [same.inflight]
        exact fun hb => h.holding (hbusy hb)
      · rw [same.inflight, attempts]
        intro job hjob hnot
        refine h.written job hjob ?_
        by_contra hcon
        rw [Bool.not_eq_false] at hcon
        rw [hearly hcon, hcon] at hnot
        cases hnot
      · rw [same.results, same.delivered, attempts]; exact h.reported
      · rw [same.admitted, attempts]; exact h.known
  | start same attempts hgone hphase =>
      have hstopped := h.exited hgone
      refine ⟨hexited, ?_, ?_, ?_, ?_⟩
      · rw [hphase]; rintro ⟨⟩
      · rw [same.inflight, attempts]
        exact fun job hjob _ => h.written job hjob (by rw [hstopped]; rfl)
      · rw [same.results, same.delivered, attempts]; exact h.reported
      · rw [same.admitted, attempts]; exact h.known
  | attemptStart job retries same hphase hinflight hphase' attempts =>
      refine h.attempt hfiled same hinflight hexited rfl attempts ?_
      rw [hphase']
      rintro ⟨⟩
  | attemptEnd job retries same hphase hinflight hearly attempts =>
      exact h.attempt hfiled same hinflight hexited rfl attempts (fun _ => rfl)
  | append job hsubmitted hroom =>
      refine ⟨h.exited, h.holding, h.written, h.reported, ?_⟩
      intro a ha
      have := h.known a ha
      simp only [appendJob, List.length_append, List.length_singleton]
      omega
  | replace ahead tail job hsubmitted hqueue hindex hjob htail =>
      refine ⟨h.exited, h.holding, h.written, h.reported, ?_⟩
      intro a ha
      have := h.known a ha
      simp only [replaceJob, List.length_append, List.length_singleton]
      omega
  | take job rest hqueue hevent hphase =>
      refine ⟨?_, fun _ => rfl, ?_, h.reported, h.known⟩
      · intro hgone
        have := h.exited hgone
        rw [hphase] at this
        cases this
      · rintro held - ⟨⟩
  | report job retries result phase hinflight hearly hphase =>
      refine ⟨hexited, ?_, ?_, ?_, h.known⟩
      · intro hb
        rw [show (w.reportJob job retries result phase).phase = phase from rfl, hphase] at hb
        cases hb
      · rintro held ⟨⟩
      · intro completion hcompletion
        simp only [reportJob, List.mem_append, List.mem_singleton] at hcompletion ⊢
        rcases hcompletion with (hcompletion | rfl) | hcompletion
        · exact h.reported completion (by simp [hcompletion])
        · exact h.written job hinflight hearly
        · exact h.reported completion (by simp [hcompletion])
  | consume capacity =>
      refine ⟨h.exited, h.holding, h.written, ?_, h.known⟩
      exact fun completion hcompletion => h.reported completion (mem_of_mem_pulse hcompletion)

structure Inv (w : Worker) : Prop where
  indexed : Indexed w
  filed : Filed w
  attempted : Attempted w

theorem inv_empty : Inv {} where
  indexed := ⟨by simp, by simp, fun k => rfl⟩
  filed := ⟨by simp, by simp, by simp, by simp, by simp, by simp, rfl, by simp [pendingJobs]⟩
  attempted := ⟨fun _ => rfl, by simp [busy], by simp, by simp, by simp⟩

theorem step_inv (w : Worker) (e : Event) (h : Inv w) : Inv (w.step e) :=
  have heffect := step_effect w e
  ⟨heffect.indexed h.indexed, heffect.filed h.indexed h.filed,
    heffect.attempted h.filed (step_exited w e h.attempted.exited) h.attempted⟩

theorem run_inv (events : List Event) : Inv (run step {} events) :=
  run_invariant step_inv events inv_empty

end Worker

end Duris.Player
