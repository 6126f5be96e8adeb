import Mathlib.Algebra.Order.BigOperators.Group.List
import Duris.Proofs.WriterSteps

/-!
# The writer's books

Three things the writer counts on without checking them. The completions live in a ring
of as many slots as there may be jobs, and a delivery never looks whether one is free: a
job holds a slot from its admission until the game has consumed its completion, so there
is one. The index has an entry for exactly the owners with a job in the queue, and it
names the last of them. And the sums of bytes, which are `size_t`, never wrap: what is
queued and in flight together stays within the limit that admission checks.
-/

namespace Duris.Player

namespace Worker

def sizeT (bytes : Nat) : BitVec 64 := BitVec.ofNat 64 bytes

def replacedBytes (w : Worker) (job : QueuedJob) : Nat :=
  match w.replaceTail job with
  | none => 0
  | some tail => tail.bytes

theorem holds_popFronts {ring : Ring Completion} {results : List Completion}
    (h : ring.Holds results) (capacity : Nat) :
    (popFronts capacity ring).Holds (results.drop capacity) := by
  induction capacity generalizing ring results with
  | zero => exact h
  | succ capacity ih =>
      cases results with
      | nil =>
          rw [popFronts, Ring.pop_of_holds_nil h, List.drop_nil]
          simpa using ih h
      | cons completion results => exact ih h.pop

theorem capacity_popFronts (ring : Ring Completion) (capacity : Nat) :
    (popFronts capacity ring).capacity = ring.capacity := by
  induction capacity generalizing ring with
  | zero => rfl
  | succ capacity ih =>
      rw [popFronts, ih, Ring.pop]
      split <;> rfl

variable {w : Worker}

theorem Filed.results_lt (h : Filed w) {job : QueuedJob} (hinflight : w.inflight = some job) :
    w.results.length < playerSaveWorkerMaxPendingJobs := by
  have hcapacity := h.capacity
  rw [pendingJobs, hinflight] at hcapacity
  simp only [Option.toList_some, List.length_singleton] at hcapacity
  omega

theorem complete_results (w : Worker) : w.complete.results = w.results ++ w.reported.toList := by
  rw [complete, reported]
  split
  · dsimp only
    split
    · rw [Option.toList_none, List.append_nil]
    · rfl
  · rw [Option.toList_none, List.append_nil]

theorem reported_inflight {completion : Completion} (h : w.reported = some completion) :
    ∃ job, w.inflight = some job := by
  rw [reported] at h
  split at h
  · next hinflight => exact ⟨_, hinflight⟩
  · cases h

theorem enqueue_results (w : Worker) (job : QueuedJob) (allocates : Bool) :
    (w.enqueue job allocates).2.results = w.results := by
  rw [enqueue]
  split
  · rfl
  · cases w.replaceTail job with
    | some tail =>
        dsimp only
        split <;> rfl
    | none =>
        dsimp only
        split
        · rfl
        · split <;> rfl

theorem step_results (w : Worker) (e : Event) : (w.step e).results =
    match e with
    | .complete => w.results ++ w.reported.toList
    | .pulse capacity => w.results.drop capacity
    | _ => w.results := by
  cases e with
  | init starts =>
      simp only [step, init]
      split
      · rfl
      · split <;> rfl
  | submitRetained snapshot allocates =>
      have henqueue := enqueue_results w (playerJob snapshot) allocates
      simp only [step, submitRetained]
      split
      · rfl
      · split <;> (next hq => rw [hq] at henqueue; exact henqueue)
  | writerSubmit kind owner bytes writable allocates =>
      have henqueue := enqueue_results w { kind, owner, snapshot := none, bytes } allocates
      simp only [step, writerSubmit]
      split
      · rfl
      · split <;> (next hq => rw [hq] at henqueue; exact henqueue)
  | wake =>
      simp only [step, wake]
      split
      · rfl
      · split
        · rfl
        · split <;> rfl
  | attemptStart =>
      simp only [step, attemptStart]
      split <;> rfl
  | attemptEnd result =>
      simp only [step, attemptEnd]
      split <;> rfl
  | retry =>
      simp only [step, retry]
      split <;> rfl
  | complete => exact complete_results w
  | exit =>
      simp only [step, exit]
      split <;> rfl
  | pulse capacity => rfl
  | shutdownBegin => rfl
  | shutdownDetach =>
      simp only [step, shutdownDetach]
      split <;> rfl
  | shutdownFinish =>
      simp only [step, shutdownFinish]
      split <;> rfl

/-- The ring stands for the completions, and has as many slots as there may be jobs. -/
structure Slotted (s : Worker × Ring Completion) : Prop where
  holds : s.2.Holds s.1.results
  capacity : s.2.capacity = playerSaveWorkerMaxPendingJobs

theorem stepSlots_slotted (s : Worker × Ring Completion) (e : Event) (hinv : Inv s.1)
    (h : Slotted s) : Slotted (stepSlots s e) := by
  have hresults := step_results s.1 e
  cases e with
  | complete =>
      cases hreported : s.1.reported with
      | none =>
          rw [hreported, Option.toList_none, List.append_nil] at hresults
          rw [stepSlots, completionStep, hreported]
          exact ⟨by rw [hresults]; exact h.holds, h.capacity⟩
      | some completion =>
          rw [hreported, Option.toList_some] at hresults
          rw [stepSlots, completionStep, hreported]
          obtain ⟨job, hinflight⟩ := reported_inflight hreported
          have hroom : s.2.count < s.2.capacity := by
            rw [h.holds.count_eq, h.capacity]
            exact hinv.filed.results_lt hinflight
          exact ⟨by rw [hresults]; exact h.holds.push hroom completion, h.capacity⟩
  | pulse capacity =>
      rw [stepSlots, completionStep]
      exact ⟨by rw [hresults]; exact holds_popFronts h.holds capacity,
        (capacity_popFronts _ _).trans h.capacity⟩
  | _ => exact ⟨hresults ▸ h.holds, h.capacity⟩

/-- What is queued and in flight stays within the limit. -/
def WithinBytes (w : Worker) : Prop :=
  w.queuedBytes + w.inflightBytes ≤ playerSaveWorkerMaxPendingBytes

theorem Filed.replacedBytes_le (h : Filed w) (job : QueuedJob) :
    w.replacedBytes job ≤ w.queuedBytes := by
  rw [replacedBytes]
  cases htail : w.replaceTail job with
  | none => exact Nat.zero_le _
  | some tail =>
      obtain ⟨hqueue, -⟩ := replaceTail_eq_some htail
      have hmem : tail ∈ w.queue := by
        rw [hqueue]
        exact List.mem_append_right _ (List.mem_singleton_self tail)
      rw [h.bytes]
      exact List.le_sum_of_mem (List.mem_map_of_mem hmem)

/-- What an admission leaves queued: the bytes of the job in place of those it replaced. -/
theorem enqueue_bytes (w : Worker) (job : QueuedJob) (allocates : Bool) :
    (((w.enqueue job allocates).1 = .stopped ∨ (w.enqueue job allocates).1 = .noSpace) ∧
      (w.enqueue job allocates).2 = w) ∨
    (job.bytes ≤ playerSaveWorkerMaxPendingBytes ∧
      w.queuedBytes + w.inflightBytes - w.replacedBytes job ≤
        playerSaveWorkerMaxPendingBytes - job.bytes ∧
      (w.enqueue job allocates).2.inflight = w.inflight ∧
      (w.enqueue job allocates).2.queuedBytes =
        w.queuedBytes - w.replacedBytes job + job.bytes) := by
  rw [enqueue, replacedBytes]
  split
  · exact .inl ⟨.inl rfl, rfl⟩
  · cases w.replaceTail job with
    | some tail =>
        dsimp only
        split
        · exact .inl ⟨.inr rfl, rfl⟩
        · next hroom =>
            rw [not_or, not_or, Nat.not_lt, Nat.not_lt] at hroom
            exact .inr ⟨hroom.1, hroom.2.1, rfl, rfl⟩
    | none =>
        dsimp only
        split
        · exact .inl ⟨.inr rfl, rfl⟩
        · next hroom =>
            rw [not_or, not_or, Nat.not_lt, Nat.not_lt] at hroom
            split
            · exact .inl ⟨.inr rfl, rfl⟩
            · exact .inr ⟨hroom.1, hroom.2.1, rfl, rfl⟩

theorem enqueue_within (hfiled : Filed w) (h : WithinBytes w) (job : QueuedJob) (allocates : Bool) :
    WithinBytes (w.enqueue job allocates).2 := by
  have hreplaced := hfiled.replacedBytes_le job
  rcases enqueue_bytes w job allocates with ⟨-, hsame⟩ | ⟨hjob, hroom, hinflight, hnew⟩
  · rw [hsame]
    exact h
  · rw [WithinBytes, inflightBytes, hinflight, ← inflightBytes, hnew]
    omega

theorem step_bytes_le (w : Worker) (hfiled : Filed w) {e : Event} (hno : ∀ job, ¬ Submitted e job) :
    (w.step e).queuedBytes + (w.step e).inflightBytes ≤ w.queuedBytes + w.inflightBytes := by
  have hsame : ∀ {w' : Worker}, SameCustody w w' →
      w'.queuedBytes + w'.inflightBytes ≤ w.queuedBytes + w.inflightBytes := by
    intro w' same
    rw [same.bytes, inflightBytes, same.inflight, ← inflightBytes]
  have heffect := step_effect w e
  generalize w.step e = w' at heffect
  cases heffect with
  | idle same => exact hsame same
  | start same => exact hsame same
  | attemptStart _ _ same => exact hsame same
  | attemptEnd _ _ same => exact hsame same
  | append job hsubmitted => exact absurd hsubmitted (hno job)
  | replace _ _ job hsubmitted => exact absurd hsubmitted (hno job)
  | take job rest hqueue =>
      have hbytes := hfiled.bytes
      rw [hqueue, List.map_cons, List.sum_cons] at hbytes
      show w.queuedBytes - job.bytes + job.bytes ≤ _
      omega
  | report =>
      show w.queuedBytes + 0 ≤ _
      exact Nat.add_le_add_left (Nat.zero_le _) _
  | consume => exact Nat.le_refl _

theorem step_within (hfiled : Filed w) (h : WithinBytes w) (e : Event) :
    WithinBytes (w.step e) := by
  have hother : (∀ job, ¬ Submitted e job) → WithinBytes (w.step e) :=
    fun hno => Nat.le_trans (step_bytes_le w hfiled hno) h
  cases e with
  | submitRetained snapshot allocates =>
      have henqueue := enqueue_within hfiled h (playerJob snapshot) allocates
      simp only [step, submitRetained]
      split
      · exact h
      · split <;> (next hq => rw [hq] at henqueue; exact henqueue)
  | writerSubmit kind owner bytes writable allocates =>
      have henqueue := enqueue_within hfiled h { kind, owner, snapshot := none, bytes } allocates
      simp only [step, writerSubmit]
      split
      · exact h
      · split <;> (next hq => rw [hq] at henqueue; exact henqueue)
  | _ => exact hother fun _ hsubmitted => hsubmitted

structure Kept (s : Worker × Ring Completion) : Prop where
  inv : Inv s.1
  slotted : Slotted s
  within : WithinBytes s.1

theorem kept_initial : Kept ({}, completionQueue) where
  inv := inv_empty
  slotted := ⟨Ring.holds_nil rfl rfl rfl, rfl⟩
  within := Nat.zero_le _

theorem run_kept (events : List Event) : Kept (run stepSlots ({}, completionQueue) events) :=
  run_invariant (fun s e h => ⟨step_inv s.1 e h.inv, stepSlots_slotted s e h.inv h.slotted,
    step_within h.inv.filed h.within e⟩) events kept_initial

/-- The entry of an owner is the last of its jobs: those behind it are of others. -/
theorem Indexed.entry (h : Indexed w) {key : PersistenceJobOwner} {node : Nat}
    (hentry : w.queuedByOwner key = some node) :
    ∃ ahead job behind, w.queue = ahead ++ job :: behind ∧ job.node = node ∧ job.key = key ∧
      ∀ later ∈ behind, later.key ≠ key := by
  rw [h.newest, Option.map_eq_some_iff] at hentry
  obtain ⟨job, hjob, rfl⟩ := hentry
  generalize w.queue = queue at hjob
  induction queue using List.reverseRecOn with
  | nil => cases hjob
  | append_singleton queue last ih =>
      rw [newest_append] at hjob
      split at hjob
      · next hkey =>
          cases hjob
          exact ⟨queue, job, [], rfl, rfl, hkey, nofun⟩
      · next hkey =>
          obtain ⟨ahead, found, behind, hqueue, hnode, hfound, hlater⟩ := ih hjob
          refine ⟨ahead, found, behind ++ [last], ?_, hnode, hfound, ?_⟩
          · rw [hqueue, List.append_assoc, List.cons_append]
          · intro later hmem
            rcases List.mem_append.mp hmem with hmem | hmem
            · exact hlater later hmem
            · rw [List.mem_singleton.mp hmem]
              exact hkey

theorem toNat_sizeT {bytes : Nat} (h : bytes < 2 ^ 64) : (sizeT bytes).toNat = bytes := by
  rw [sizeT, BitVec.toNat_ofNat, Nat.mod_eq_of_lt h]

theorem sizeT_arith {a b c : Nat} (hba : b ≤ a) (hsum : a - b + c < 2 ^ 64) (ha : a < 2 ^ 64) :
    sizeT a - sizeT b + sizeT c = sizeT (a - b + c) := by
  apply BitVec.eq_of_toNat_eq
  have hb := toNat_sizeT (Nat.lt_of_le_of_lt hba ha)
  have hc := toNat_sizeT (show c < 2 ^ 64 by omega)
  rw [toNat_sizeT hsum, BitVec.toNat_add, BitVec.toNat_sub, toNat_sizeT ha, hb, hc]
  omega

/-- What `enqueue` computes for `job` in `size_t`, before it decides and after it has
admitted it, is what it means. -/
structure Exact (w : Worker) (job : QueuedJob) (allocates : Bool) : Prop where
  retained : sizeT w.queuedBytes + sizeT w.inflightBytes - sizeT (w.replacedBytes job) =
    sizeT (w.queuedBytes + w.inflightBytes - w.replacedBytes job)
  fits : w.queuedBytes + w.inflightBytes < 2 ^ 64 ∧ w.replacedBytes job ≤ w.queuedBytes
  admitted : (w.enqueue job allocates).1 = .accepted ∨ (w.enqueue job allocates).1 = .replaced →
    sizeT w.queuedBytes - sizeT (w.replacedBytes job) + sizeT job.bytes =
        sizeT (w.enqueue job allocates).2.queuedBytes ∧
      (w.enqueue job allocates).2.queuedBytes < 2 ^ 64

theorem exact_of_within (hfiled : Filed w) (h : WithinBytes w) (job : QueuedJob)
    (allocates : Bool) : Exact w job allocates := by
  have hreplaced := hfiled.replacedBytes_le job
  have hlimit : playerSaveWorkerMaxPendingBytes < 2 ^ 32 := by decide
  rw [WithinBytes] at h
  refine ⟨?_, ⟨by omega, hreplaced⟩, fun hanswer => ?_⟩
  · have hsum : sizeT w.queuedBytes + sizeT w.inflightBytes =
        sizeT (w.queuedBytes + w.inflightBytes) := by
      apply BitVec.eq_of_toNat_eq
      rw [BitVec.toNat_add, toNat_sizeT (by omega), toNat_sizeT (by omega),
        toNat_sizeT (by omega), Nat.mod_eq_of_lt (by omega)]
    have hdiff := @sizeT_arith (w.queuedBytes + w.inflightBytes) (w.replacedBytes job) 0
      (by omega) (by omega) (by omega)
    rw [show sizeT 0 = 0#64 from rfl, BitVec.add_zero, Nat.add_zero] at hdiff
    rw [hsum, hdiff]
  · rcases enqueue_bytes w job allocates with ⟨hrefused, -⟩ | ⟨hjob, hroom, hinflight, hnew⟩
    · rcases hanswer with hanswer | hanswer <;> rcases hrefused with hrefused | hrefused <;>
        (rw [hanswer] at hrefused; cases hrefused)
    · rw [hnew]
      exact ⟨sizeT_arith hreplaced (by omega) (by omega), by omega⟩

/-- The writer's books: what the index, the counts and the ring say of the queue. -/
structure Balanced (s : Worker × Ring Completion) : Prop where
  entry : ∀ key, (s.1.queuedByOwner key).isSome = true ↔ ∃ job ∈ s.1.queue, job.key = key
  last : ∀ key node, s.1.queuedByOwner key = some node →
    ∃ ahead job behind, s.1.queue = ahead ++ job :: behind ∧ job.node = node ∧
      job.key = key ∧ ∀ later ∈ behind, later.key ≠ key
  nodes : (s.1.queue.map QueuedJob.node).Nodup
  bytes : s.1.queuedBytes = (s.1.queue.map QueuedJob.bytes).sum
  slots : s.1.queue.length + s.1.inflight.toList.length + s.1.results.length ≤
    playerSaveWorkerMaxPendingJobs
  ring : s.2.Holds s.1.results
  delivery : s.1.reported.isSome = true → s.2.count < playerSaveWorkerMaxPendingJobs
  arithmetic : ∀ job allocates, Exact s.1 job allocates

/-- The books balance in every state of the writer. -/
theorem writer_books_balance (events : List Event) :
    Balanced (run stepSlots ({}, completionQueue) events) := by
  have h := run_kept events
  generalize run stepSlots ({}, completionQueue) events = s at h
  refine ⟨?_, fun _ _ => h.inv.indexed.entry, h.inv.indexed.nodup, h.inv.filed.bytes,
    h.inv.filed.capacity, h.slotted.holds, ?_, exact_of_within h.inv.filed h.within⟩
  · intro key
    rw [h.inv.indexed.newest, Option.isSome_map, newest_isSome_iff]
  · intro hreported
    obtain ⟨completion, hcompletion⟩ := Option.isSome_iff_exists.mp hreported
    obtain ⟨job, hinflight⟩ := reported_inflight hcompletion
    rw [h.slotted.holds.count_eq]
    exact h.inv.filed.results_lt hinflight

end Worker

end Duris.Player
