import Duris.Redis.FloorStore

/-!
# The floor hash is the net effect of the floor log

Three invariants. `Buffers` says what the two buffers hold in terms of the operations since
the last flush; `Ordered` says what the batch of each flush has to do with the operations
before it, and is where the reordering of a flush is harmless; and `Executing` says where
the hash stands while a batch is sent, perhaps for the second time. They hold together in
every run that is `Regular` and never overflows the list of removals; what is said of the
barrier holds in every run.
-/

namespace Duris.Redis.Floor

open Redo

/-! ## The log -/

/-- What the mutations of a flush have to do with the operations they stand for, after the
operations `before`: a key is written as by its last operation, or its last operation is a
removal of what was not there. -/
def Covers (before ops writes : List Write) : Prop :=
  ∀ uid, lastWrite writes uid = lastWrite ops uid ∨
    (lastWrite writes uid = none ∧ lastWrite ops uid = some none ∧
      ∀ held, lastWrite before uid ≠ some (some held))

/-- Every flush of the log covers its operations. -/
def Ordered : List Write → List LogEntry → Prop
  | _, [] => True
  | before, entry :: log =>
      Covers before entry.ops entry.writes ∧ Ordered (before ++ entry.ops) log

theorem ordered_append {log log' : List LogEntry} :
    ∀ {before : List Write}, Ordered before (log ++ log') ↔
      Ordered before log ∧ Ordered (before ++ log.flatMap LogEntry.ops) log' := by
  induction log with
  | nil => intro before; simp [Ordered]
  | cons entry log ih =>
      intro before
      rw [List.cons_append, Ordered, ih, Ordered, List.flatMap_cons, List.append_assoc, and_assoc]

theorem covers_nil (before : List Write) : Covers before [] [] := fun _ => .inl rfl

/-- Executing the batches of a log has the effect of its operations, from any point of the
log on. -/
theorem Ordered.applyWrites_eq {log : List LogEntry} :
    ∀ {before since : List Write}, Ordered before log →
      (∀ uid held, lastWrite since uid = some (some held) →
        lastWrite before uid = some (some held)) →
      applyWrites (log.flatMap LogEntry.writes) (applyWrites since fun _ => none) =
        applyWrites (since ++ log.flatMap LogEntry.ops) fun _ => none := by
  induction log with
  | nil =>
      intro before since _ _
      rw [List.flatMap_nil, List.flatMap_nil, List.append_nil, applyWrites_nil]
  | cons entry log ih =>
      intro before since hordered hsince
      obtain ⟨hcovers, hrest⟩ := hordered
      have hentry : applyWrites entry.writes (applyWrites since fun _ => none) =
          applyWrites (since ++ entry.ops) fun _ => none := by
        funext uid
        rw [applyWrites_append, applyWrites_apply, applyWrites_apply entry.ops]
        rcases hcovers uid with hsame | ⟨hwrites, hops, hbefore⟩
        · rw [hsame]
        · rw [hwrites, hops, Option.getD_none, Option.getD_some, applyWrites_apply]
          cases hlast : lastWrite since uid with
          | none => rfl
          | some value =>
              cases value with
              | none => rfl
              | some held => exact absurd (hsince uid held hlast) (hbefore held)
      rw [List.flatMap_cons, List.flatMap_cons, applyWrites_append, hentry, ih hrest,
        List.append_assoc]
      intro uid held hlast
      rw [lastWrite_append] at hlast ⊢
      cases hops : lastWrite entry.ops uid with
      | some value =>
          rw [hops, Option.some_or] at hlast
          rw [Option.some_or, hlast]
      | none =>
          rw [hops, Option.none_or] at hlast
          rw [Option.none_or]
          exact hsince uid held hlast

/-! ## The buffers -/

/-- What the buffers hold, after the flushed operations `flushed`. -/
structure Buffers (s : State) (flushed : List Write) : Prop where
  distinct : (s.batch.map Prod.fst).Nodup
  batched : ∀ uid record, (uid, record) ∈ s.batch ↔
    lastWrite s.ledger.buffered uid = some (some record)
  unremoved : ∀ uid, lastWrite s.ledger.buffered uid = none → uid ∉ s.removes
  removed : ∀ uid, lastWrite s.ledger.buffered uid ≠ none →
    uid ∈ s.removes ∨ ∀ held, lastWrite flushed uid ≠ some (some held)

theorem lastWrite_flushWrites {removes : List Uid} {batch : List (Uid × Bytes)}
    (hdistinct : (batch.map Prod.fst).Nodup) (uid : Uid) :
    (∀ record, (uid, record) ∈ batch →
        lastWrite (flushWrites removes batch) uid = some (some record)) ∧
      (uid ∉ batch.map Prod.fst →
        lastWrite (flushWrites removes batch) uid =
          if uid ∈ removes then some none else none) := by
  have hkeys : (batch.map fun drop => (drop.1, some drop.2)).map Prod.fst =
      batch.map Prod.fst := by
    rw [List.map_map]
    rfl
  constructor
  · intro record hmem
    rw [flushWrites, lastWrite_append,
      lastWrite_of_mem (by rw [hkeys]; exact hdistinct) (List.mem_map.mpr ⟨_, hmem, rfl⟩),
      Option.some_or]
  · intro habsent
    have hdrops : lastWrite (batch.map fun drop => (drop.1, some drop.2)) uid = none := by
      rw [lastWrite_eq_none, hkeys]
      exact habsent
    rw [flushWrites, lastWrite_append, hdrops, Option.none_or]
    split
    · next hmem =>
        cases hlast : lastWrite (removes.map fun uid => ((uid, none) : Write)) uid with
        | none =>
            rw [lastWrite_eq_none, List.map_map] at hlast
            exact absurd (List.mem_map.mpr ⟨uid, hmem, rfl⟩) hlast
        | some value =>
            obtain ⟨uid', -, hpair⟩ := List.mem_map.mp (mem_of_lastWrite hlast)
            cases hpair
            rfl
    · next hmem =>
        rw [lastWrite_eq_none, List.map_map]
        intro hin
        obtain ⟨uid', huid, rfl⟩ := List.mem_map.mp hin
        exact hmem huid

variable {flushed : List Write}

theorem Buffers.of_eq {s s' : State} (h : Buffers s flushed) (hbatch : s'.batch = s.batch)
    (hremoves : s'.removes = s.removes) (hbuffered : s'.ledger.buffered = s.ledger.buffered) :
    Buffers s' flushed := by
  constructor
  · rw [hbatch]
    exact h.distinct
  · rw [hbatch, hbuffered]
    exact h.batched
  · rw [hremoves, hbuffered]
    exact h.unremoved
  · rw [hremoves, hbuffered]
    exact h.removed

theorem Buffers.absent {s : State} (h : Buffers s flushed) {uid : Uid}
    (hlast : ∀ record, lastWrite s.ledger.buffered uid ≠ some (some record)) :
    uid ∉ s.batch.map Prod.fst := by
  intro hmem
  obtain ⟨⟨uid', record⟩, hin, rfl⟩ := List.mem_map.mp hmem
  exact hlast record ((h.batched uid' record).mp hin)

theorem Buffers.covers {s : State} (h : Buffers s flushed) :
    Covers flushed s.ledger.buffered (flushWrites s.removes s.batch) := by
  intro uid
  obtain ⟨hin, hout⟩ := @lastWrite_flushWrites s.removes s.batch h.distinct uid
  cases hlast : lastWrite s.ledger.buffered uid with
  | none =>
      have habsent : uid ∉ s.batch.map Prod.fst := by
        refine h.absent fun record heq => ?_
        rw [hlast] at heq
        cases heq
      rw [hout habsent, if_neg (h.unremoved uid hlast)]
      exact .inl rfl
  | some value =>
      cases value with
      | some record => exact .inl (hin record ((h.batched uid record).mpr hlast))
      | none =>
          have habsent : uid ∉ s.batch.map Prod.fst := by
            refine h.absent fun record heq => ?_
            rw [hlast] at heq
            cases heq
          have hwritten : lastWrite s.ledger.buffered uid ≠ none := by
            rw [hlast]
            exact Option.some_ne_none _
          rw [hout habsent]
          split
          · exact .inl rfl
          · next hunremoved =>
              refine .inr ⟨rfl, rfl, ?_⟩
              rcases h.removed uid hwritten with hmem | hflushed
              · exact absurd hmem hunremoved
              · exact hflushed

/-- Taking an entry out of the batch, whichever place the last one moves to. -/
theorem swapRemove_perm {batch : List (Uid × Bytes)} {index : Nat} (h : index < batch.length) :
    (batch[index] :: swapRemove batch index).Perm batch := by
  rcases List.eq_nil_or_concat batch with rfl | ⟨front, last, hbatch⟩
  · exact absurd h (Nat.not_lt_zero _)
  · rw [List.concat_eq_append] at hbatch
    subst hbatch
    rw [swapRemove, List.getLast?_concat]
    dsimp only
    have h' := h
    rw [List.length_append, List.length_singleton] at h'
    rcases Nat.lt_succ_iff_lt_or_eq.mp h' with hlt | rfl
    · have hfront : front = front.take index ++ front[index] :: front.drop (index + 1) := by
        rw [List.getElem_cons_drop, List.take_append_drop]
      rw [List.set_append_left _ _ hlt, List.dropLast_concat, List.getElem_append_left hlt,
        List.set_eq_take_append_cons_drop, if_pos hlt]
      refine (List.perm_middle.cons _).trans ((List.Perm.swap _ _ _).trans ?_)
      refine (List.Perm.cons last List.perm_middle.symm).trans ?_
      rw [← hfront]
      exact (List.perm_append_singleton _ _).symm
    · rw [List.set_append_right _ _ (Nat.le_refl _), Nat.sub_self, List.set_cons_zero,
        List.dropLast_concat, List.getElem_append_right (Nat.le_refl _)]
      simp only [Nat.sub_self, List.getElem_cons_zero]
      exact (List.perm_append_singleton _ _).symm

section

variable {encode : Bytes → Option Bytes}

/-! ## The jobs -/

def encoded (encode : Bytes → Option Bytes) (write : Write) : Write :=
  (write.1, write.2.bind encode)

def Encodes (encode : Bytes → Option Bytes) (writes : List Write) : Prop :=
  ∀ write ∈ writes, ∀ record, write.2 = some record → (encode record).isSome

/-- A mutation carries a write, its record encoded or not yet. -/
def Carries (encode : Bytes → Option Bytes) (mutation : OwnedMutation) (write : Write) : Prop :=
  mutation.uid = write.1 ∧
    ((mutation.remove = true ∧ mutation.encodeWorldObject = false ∧ write.2 = none) ∨
      (mutation.remove = false ∧ ∃ record, write.2 = some record ∧
        ((mutation.encodeWorldObject = true ∧ mutation.value = record) ∨
          (mutation.encodeWorldObject = false ∧ encode record = some mutation.value))))

/-- A batch carries the writes of its log entry. -/
def JobOk (encode : Bytes → Option Bytes) : FloorJob → Prop
  | .barrier => True
  | .batch mutations _ _ entry => List.Forall₂ (Carries encode) mutations entry.writes

theorem carries_ofWrite (write : Write) : Carries encode (.ofWrite write) write := by
  obtain ⟨uid, value⟩ := write
  cases value with
  | none => exact ⟨rfl, .inl ⟨rfl, rfl, rfl⟩⟩
  | some record => exact ⟨rfl, .inr ⟨rfl, record, rfl, .inl ⟨rfl, rfl⟩⟩⟩

theorem carries_submitted (writes : List Write) :
    List.Forall₂ (Carries encode) (writes.map .ofWrite) writes := by
  induction writes with
  | nil => exact .nil
  | cons write writes ih => exact .cons (carries_ofWrite write) ih

theorem Carries.write_eq {mutation : OwnedMutation} {write : Write}
    (h : Carries encode mutation write) (hplain : mutation.encodeWorldObject = false) :
    mutation.write = encoded encode write ∧
      ∀ record, write.2 = some record → (encode record).isSome := by
  obtain ⟨huid, ⟨hremove, -, hnone⟩ | ⟨hremove, record, hrecord, hvalue⟩⟩ := h
  · rw [OwnedMutation.write, encoded, hremove, hnone, huid]
    exact ⟨rfl, nofun⟩
  · rcases hvalue with ⟨hflag, -⟩ | ⟨-, hencode⟩
    · rw [hplain] at hflag
      cases hflag
    · rw [OwnedMutation.write, encoded, hremove, hrecord, huid, Option.bind_some, hencode]
      refine ⟨rfl, fun record' hrecord' => ?_⟩
      cases hrecord'
      rw [hencode]
      rfl

variable {mutations : List OwnedMutation} {s s' : State} {uid : Uid} {record : Bytes}
  {rest : List FloorJob}

/-- What `prepare_batch` leaves carries the same writes; when it succeeds they can be
sent. -/
theorem carries_prepareBatch {writes : List Write}
    (h : List.Forall₂ (Carries encode) mutations writes) :
    List.Forall₂ (Carries encode) (prepareBatch encode mutations).1 writes ∧
      ((prepareBatch encode mutations).2 = true →
        (prepareBatch encode mutations).1.map OwnedMutation.write =
            writes.map (encoded encode) ∧ Encodes encode writes) := by
  induction h with
  | nil => exact ⟨.nil, fun _ => ⟨rfl, nofun⟩⟩
  | @cons mutation write mutations writes hhead htail ih =>
      obtain ⟨hcarries, hdone⟩ := ih
      rw [prepareBatch]
      cases hflag : mutation.encodeWorldObject with
      | false =>
          rw [if_neg Bool.false_ne_true]
          refine ⟨.cons hhead hcarries, fun hprepared => ?_⟩
          obtain ⟨hwrites, hencodes⟩ := hdone hprepared
          obtain ⟨hwrite, hencode⟩ := hhead.write_eq hflag
          exact ⟨by rw [List.map_cons, List.map_cons, hwrites, hwrite],
            List.forall_mem_cons.mpr ⟨hencode, hencodes⟩⟩
      | true =>
          rw [if_pos rfl]
          cases hvalue : encode mutation.value with
          | none => exact ⟨.cons hhead htail, nofun⟩
          | some value =>
              have hhead' : Carries encode
                  { mutation with value := value, encodeWorldObject := false } write := by
                obtain ⟨huid, ⟨-, hplain, -⟩ | ⟨hremove, record, hrecord, hheld⟩⟩ := hhead
                · rw [hflag] at hplain
                  cases hplain
                · rcases hheld with ⟨-, heq⟩ | ⟨hplain, -⟩
                  · exact ⟨huid, .inr ⟨hremove, record, hrecord, .inr ⟨rfl, heq ▸ hvalue⟩⟩⟩
                  · rw [hflag] at hplain
                    cases hplain
              refine ⟨.cons hhead' hcarries, fun hprepared => ?_⟩
              obtain ⟨hwrites, hencodes⟩ := hdone hprepared
              obtain ⟨hwrite, hencode⟩ := hhead'.write_eq rfl
              exact ⟨by rw [List.map_cons, List.map_cons, hwrites, hwrite],
                List.forall_mem_cons.mpr ⟨hencode, hencodes⟩⟩

/-! ## The invariant -/

/-- What the batches executed since the clearing publication have made of the hash. -/
def base (encode : Bytes → Option Bytes) (s : State) : Uid → Option Bytes :=
  applyWrites
    (((s.ledger.log.take s.ledger.reached).drop s.ledger.cleared).flatMap fun entry =>
      entry.writes.map (encoded encode)) fun _ => none

def frontWrites (encode : Bytes → Option Bytes) (s : State) : List Write :=
  match s.pendingJobs with
  | [] => []
  | job :: _ => job.entry.writes.map (encoded encode)

/-- Where the hash is: a batch that is tried again may have left some of its writes, and a
batch being sent has left its first ones. -/
def Executing (encode : Bytes → Option Bytes) (s : State) : Prop :=
  match s.phase with
  | .waiting => AgreeOff (frontWrites encode s) s.hash (base encode s)
  | .executing first =>
      ∃ mutations bytes attempts entry rest, s.pendingJobs =
          .batch mutations bytes attempts entry :: rest ∧
        mutations.map OwnedMutation.write = entry.writes.map (encoded encode) ∧
        Encodes encode entry.writes ∧
        ∃ before, AgreeOff (entry.writes.map (encoded encode)) before (base encode s) ∧
          s.hash = applyWrites ((entry.writes.map (encoded encode)).take first) before

structure Inv (encode : Bytes → Option Bytes) (s : State) : Prop where
  buffers : Buffers s (s.ledger.log.flatMap LogEntry.ops)
  ordered : Ordered [] s.ledger.log
  pending : s.ledger.log.drop s.ledger.reached = s.pendingJobs.map FloorJob.entry
  cleared : s.ledger.cleared ≤ s.ledger.reached
  reached : s.ledger.reached ≤ s.ledger.log.length
  jobs : ∀ job ∈ s.pendingJobs, JobOk encode job
  encodes : ∀ entry ∈ s.ledger.log.take s.ledger.reached, Encodes encode entry.writes
  executing : Executing encode s
  index : ∀ uid, s.index uid = (s.hash uid).isSome
  idle : s.paused = true → s.phase = .waiting

theorem inv_initial : Inv encode {} where
  buffers := ⟨.nil, fun _ _ => ⟨nofun, nofun⟩, fun _ _ => nofun, fun _ h => absurd rfl h⟩
  ordered := trivial
  pending := rfl
  cleared := le_rfl
  reached := le_rfl
  jobs := nofun
  encodes := nofun
  executing := agreeOff_refl _ _
  index _ := rfl
  idle := nofun

theorem base_append (s : State) (hreached : s.ledger.reached ≤ s.ledger.log.length)
    (entry : LogEntry) (s' : State) (hlog : s'.ledger.log = s.ledger.log ++ [entry])
    (hreached' : s'.ledger.reached = s.ledger.reached)
    (hcleared : s'.ledger.cleared = s.ledger.cleared) : base encode s' = base encode s := by
  rw [base, base, hlog, hreached', hcleared, List.take_append_of_le_length hreached]

theorem Inv.queued (h : Inv encode s) (job : FloorJob)
    (hjobs : s'.pendingJobs = s.pendingJobs ++ [job])
    (hlog : s'.ledger.log = s.ledger.log ++ [job.entry])
    (hreached : s'.ledger.reached = s.ledger.reached)
    (hcleared : s'.ledger.cleared = s.ledger.cleared) (hphase : s'.phase = s.phase)
    (hhash : s'.hash = s.hash) (hindex : s'.index = s.index) (hpaused : s'.paused = s.paused)
    (hcovers : Covers (s.ledger.log.flatMap LogEntry.ops) job.entry.ops job.entry.writes)
    (hjob : JobOk encode job) (hbuffers : Buffers s' (s'.ledger.log.flatMap LogEntry.ops)) :
    Inv encode s' where
  buffers := hbuffers
  ordered := by
    rw [hlog, ordered_append]
    exact ⟨h.ordered, by rw [List.nil_append]; exact ⟨hcovers, trivial⟩⟩
  pending := by
    rw [hlog, hreached, hjobs, List.drop_append_of_le_length h.reached, h.pending, List.map_append]
    rfl
  cleared := by
    rw [hreached, hcleared]
    exact h.cleared
  reached := by
    rw [hreached, hlog, List.length_append]
    exact Nat.le_trans h.reached (Nat.le_add_right _ _)
  jobs := by
    rw [hjobs]
    intro other hother
    rcases List.mem_append.mp hother with hold | hnew
    · exact h.jobs other hold
    · rw [List.mem_singleton.mp hnew]
      exact hjob
  encodes := by
    rw [hlog, hreached, List.take_append_of_le_length h.reached]
    exact h.encodes
  executing := by
    have hbase : base encode s' = base encode s :=
      base_append s h.reached job.entry s' hlog hreached hcleared
    have hexecuting := h.executing
    unfold Executing at hexecuting ⊢
    rw [hphase, hbase, hhash, hjobs]
    cases hat : s.phase with
    | waiting =>
        rw [hat] at hexecuting
        unfold frontWrites at hexecuting ⊢
        rw [hjobs]
        cases hpending : s.pendingJobs with
        | nil =>
            rw [hpending] at hexecuting
            exact fun uid _ => hexecuting uid nofun
        | cons front rest =>
            rw [hpending] at hexecuting
            exact hexecuting
    | executing first =>
        rw [hat] at hexecuting
        obtain ⟨mutations, bytes, attempts, entry, rest, hpending, hsent⟩ := hexecuting
        exact ⟨mutations, bytes, attempts, entry, rest ++ [job], by rw [hpending]; rfl, hsent⟩
  index := by
    rw [hindex, hhash]
    exact h.index
  idle := by
    rw [hpaused, hphase]
    exact h.idle

/-! ## The game thread -/

theorem submit_eq_some {ops writes : List Write} (h : submit s ops writes = some s') :
    s' =
      { s with
        pendingJobs := s.pendingJobs ++
          [.batch (writes.map .ofWrite) (writes.map mutationBytes).sum 0 (.flushed ops writes)]
        pendingBytes := s.pendingBytes + (writes.map mutationBytes).sum
        ledger := { s.ledger with log := s.ledger.log ++ [.flushed ops writes] } } := by
  rw [submit] at h
  split at h
  · cases h
  · dsimp only at h
    split at h
    · cases h
    · exact (Option.some.inj h).symm

theorem flushFloorDrops_cases (s : State) :
    flushFloorDrops s = s ∨
      flushFloorDrops s =
        { s with
          batch := []
          removes := []
          pendingJobs := s.pendingJobs ++
            [.batch ((flushWrites s.removes s.batch).map .ofWrite)
              ((flushWrites s.removes s.batch).map mutationBytes).sum 0
              (.flushed s.ledger.buffered (flushWrites s.removes s.batch))]
          pendingBytes := s.pendingBytes +
            ((flushWrites s.removes s.batch).map mutationBytes).sum
          ledger :=
            { s.ledger with
              buffered := []
              log := s.ledger.log ++
                [.flushed s.ledger.buffered (flushWrites s.removes s.batch)] } } := by
  unfold flushFloorDrops
  split
  · exact .inl rfl
  · split
    · exact .inl rfl
    · next s' hsubmit =>
        rw [submit_eq_some hsubmit]
        exact .inr rfl

theorem flushFloorDrops_ops (s : State) : (flushFloorDrops s).ops = s.ops := by
  rcases flushFloorDrops_cases s with h | h
  · rw [h]
  · rw [h, State.ops, State.ops, List.flatMap_append]
    simp only [List.flatMap_cons, List.flatMap_nil, LogEntry.ops, List.append_nil]

theorem Inv.flushFloorDrops (h : Inv encode s) : Inv encode (flushFloorDrops s) := by
  rcases flushFloorDrops_cases s with heq | heq
  · rw [heq]
    exact h
  · rw [heq]
    refine h.queued _ rfl rfl rfl rfl rfl rfl rfl rfl h.buffers.covers
      (carries_submitted _) ⟨.nil, fun _ _ => ⟨nofun, nofun⟩, fun _ _ => nofun, ?_⟩
    exact fun _ hne => absurd rfl hne

/-- A drop that is recorded is one more entry of the batch, perhaps after a flush. -/
theorem logFloorDrop_of_recorded
    (hrecorded : (logFloorDrop s uid record).ops = s.ops ++ [(uid, some record)]) :
    ∃ s', (s' = s ∨ s' = Floor.flushFloorDrops s) ∧
      logFloorDrop s uid record =
        { s' with
          batch := s'.batch ++ [(uid, record)]
          ledger :=
            { s'.ledger with buffered := s'.ledger.buffered ++ [(uid, some record)] } } := by
  have hlonger : ∀ {s' : State}, logFloorDrop s uid record = s' → s'.ops = s.ops → False := by
    intro s' hlogged hops
    rw [hlogged, hops] at hrecorded
    have hlength := congrArg List.length hrecorded
    rw [List.length_append, List.length_singleton] at hlength
    omega
  by_cases huid : uid = 0
  · exact (hlonger (by rw [logFloorDrop, if_pos huid]) rfl).elim
  · rw [logFloorDrop, if_neg huid]
    have hlogged : ∀ s', (if maxFloorDropBatch ≤ s.batch.length then
        Floor.flushFloorDrops s else s) = s' → s'.ops = s.ops := by
      intro s' heq
      subst heq
      split
      · exact flushFloorDrops_ops s
      · rfl
    have hfrom : (if maxFloorDropBatch ≤ s.batch.length then
        Floor.flushFloorDrops s else s) = s ∨
        (if maxFloorDropBatch ≤ s.batch.length then
          Floor.flushFloorDrops s else s) = Floor.flushFloorDrops s := by
      split
      · exact .inr rfl
      · exact .inl rfl
    have hdef : logFloorDrop s uid record =
        (let s := if maxFloorDropBatch ≤ s.batch.length then
            Floor.flushFloorDrops s else s
          if maxFloorDropBatch ≤ s.batch.length then s
          else if record.length = 0 then s
          else
            { s with
              batch := s.batch ++ [(uid, record)]
              ledger := { s.ledger with buffered := s.ledger.buffered ++ [(uid, some record)] } })
          := by
      rw [logFloorDrop, if_neg huid]
    generalize (if maxFloorDropBatch ≤ s.batch.length then
        Floor.flushFloorDrops s else s) = s' at hdef hlogged hfrom ⊢
    dsimp only at hdef ⊢
    split at hdef
    · exact (hlonger hdef (hlogged s' rfl)).elim
    · next hroom =>
        split at hdef
        · exact (hlonger hdef (hlogged s' rfl)).elim
        · next hrecord =>
            rw [if_neg hroom, if_neg hrecord]
            exact ⟨s', hfrom, rfl⟩

theorem Inv.pushDrop (h : Inv encode s) (hfresh : ∀ held, lastWrite s.ops uid ≠ some (some held)) :
    Inv encode
      { s with
        batch := s.batch ++ [(uid, record)]
        ledger :=
          { s.ledger with buffered := s.ledger.buffered ++ [(uid, some record)] } } := by
  have hbuffered : ∀ held, lastWrite s.ledger.buffered uid ≠ some (some held) := by
    intro held heq
    refine hfresh held ?_
    rw [State.ops, lastWrite_append, heq, Option.some_or]
  have habsent := h.buffers.absent hbuffered
  refine ⟨⟨?_, ?_, ?_, ?_⟩, h.ordered, h.pending, h.cleared, h.reached, h.jobs, h.encodes,
    h.executing, h.index, h.idle⟩
  · rw [List.map_append, List.nodup_append]
    refine ⟨h.buffers.distinct, List.nodup_singleton _, ?_⟩
    intro uid' hmem other hother heq
    rw [List.map_singleton, List.mem_singleton] at hother
    rw [heq, hother] at hmem
    exact habsent hmem
  · intro uid' record'
    rw [List.mem_append, List.mem_singleton, lastWrite_concat]
    split
    · next heq =>
        dsimp only at heq
        subst heq
        constructor
        · rintro (hmem | hnew)
          · exact absurd (List.mem_map_of_mem hmem) habsent
          · cases hnew
            rfl
        · intro hlast
          cases hlast
          exact .inr rfl
    · next hne =>
        rw [h.buffers.batched]
        constructor
        · rintro (hlast | hnew)
          · exact hlast
          · cases hnew
            exact absurd rfl hne
        · exact .inl
  · intro uid' hlast
    rw [lastWrite_concat] at hlast
    split at hlast
    · cases hlast
    · exact h.buffers.unremoved uid' hlast
  · intro uid' hlast
    rw [lastWrite_concat] at hlast
    split at hlast
    · next heq =>
        dsimp only at heq
        subst heq
        cases hold : lastWrite s.ledger.buffered uid with
        | some value =>
            refine h.buffers.removed uid ?_
            rw [hold]
            exact Option.some_ne_none _
        | none =>
            right
            intro held hflushed
            refine hfresh held ?_
            rw [State.ops, lastWrite_append, hold, Option.none_or, hflushed]
    · exact h.buffers.removed uid' hlast

theorem Inv.logFloorDrop (h : Inv encode s)
    (hfresh : ∀ held, lastWrite s.ops uid ≠ some (some held))
    (hrecorded : (logFloorDrop s uid record).ops = s.ops ++ [(uid, some record)]) :
    Inv encode (logFloorDrop s uid record) := by
  obtain ⟨s', hfrom, hlogged⟩ := logFloorDrop_of_recorded hrecorded
  rw [hlogged]
  rcases hfrom with rfl | rfl
  · exact h.pushDrop hfresh
  · refine h.flushFloorDrops.pushDrop ?_
    rw [flushFloorDrops_ops]
    exact hfresh

/-- Removing a drop that is still buffered takes it out of the batch; removing another one
queues it. -/
theorem Inv.removeFloorDrop (h : Inv encode s) {held : Bytes}
    (hheld : lastWrite s.ops uid = some (some held))
    (hroom : uid ∈ s.batch.map Prod.fst ∨ s.removes.length < maxFloorDropBatch) :
    Inv encode (removeFloorDrop s uid) := by
  rw [Floor.removeFloorDrop]
  split
  · exact h
  · rw [State.ops, lastWrite_append] at hheld
    split
    · next index hfind =>
        rw [List.findIdx?_eq_some_iff_getElem] at hfind
        obtain ⟨hindex, hkey, -⟩ := hfind
        rw [decide_eq_true_eq] at hkey
        have hperm := swapRemove_perm hindex
        have hkeys := hperm.map Prod.fst
        rw [List.map_cons, hkey] at hkeys
        have hnodup := hkeys.nodup_iff.mpr h.buffers.distinct
        rw [List.nodup_cons] at hnodup
        have hlast : lastWrite s.ledger.buffered uid ≠ none := by
          have hin : (uid, s.batch[index].2) ∈ s.batch := by
            rw [← hkey]
            exact List.getElem_mem hindex
          rw [(h.buffers.batched uid _).mp hin]
          exact Option.some_ne_none _
        refine ⟨⟨hnodup.2, ?_, ?_, ?_⟩, h.ordered, h.pending, h.cleared, h.reached, h.jobs,
          h.encodes, h.executing, h.index, h.idle⟩
        · intro uid' record
          rw [lastWrite_concat]
          split
          · next heq =>
              dsimp only at heq
              subst heq
              refine ⟨fun hmem => absurd (List.mem_map_of_mem hmem) hnodup.1, fun heq => ?_⟩
              cases heq
          · next hne =>
              rw [← h.buffers.batched, ← hperm.mem_iff, List.mem_cons]
              constructor
              · exact .inr
              · rintro (heq | hmem)
                · exact absurd (by rw [← hkey, ← heq]) hne
                · exact hmem
        · intro uid' hnone
          rw [lastWrite_concat] at hnone
          split at hnone
          · cases hnone
          · exact h.buffers.unremoved uid' hnone
        · intro uid' hne
          rw [lastWrite_concat] at hne
          split at hne
          · next heq =>
              dsimp only at heq
              subst heq
              exact h.buffers.removed uid hlast
          · exact h.buffers.removed uid' hne
    · next hfind =>
        rw [List.findIdx?_eq_none_iff] at hfind
        have habsent : uid ∉ s.batch.map Prod.fst := by
          intro hmem
          obtain ⟨drop, hdrop, hkey⟩ := List.mem_map.mp hmem
          have := hfind drop hdrop
          rw [decide_eq_false_iff_not] at this
          exact this hkey
        have hbuffered : lastWrite s.ledger.buffered uid = none := by
          cases hlast : lastWrite s.ledger.buffered uid with
          | none => rfl
          | some value =>
              rw [hlast, Option.some_or] at hheld
              cases hheld
              exact absurd (List.mem_map_of_mem ((h.buffers.batched uid held).mpr hlast)) habsent
        rw [if_pos (hroom.resolve_left habsent)]
        refine ⟨⟨h.buffers.distinct, ?_, ?_, ?_⟩, h.ordered, h.pending, h.cleared, h.reached,
          h.jobs, h.encodes, h.executing, h.index, h.idle⟩
        · intro uid' record
          rw [lastWrite_concat]
          split
          · next heq =>
              dsimp only at heq
              subst heq
              refine ⟨fun hmem => absurd (List.mem_map_of_mem hmem) habsent, fun heq => ?_⟩
              cases heq
          · exact h.buffers.batched uid' record
        · intro uid' hnone
          rw [lastWrite_concat] at hnone
          split at hnone
          · cases hnone
          · next hne =>
              rw [List.mem_append, List.mem_singleton, not_or]
              exact ⟨h.buffers.unremoved uid' hnone, fun heq => hne heq.symm⟩
        · intro uid' hne
          rw [lastWrite_concat] at hne
          rw [List.mem_append, List.mem_singleton]
          split at hne
          · next heq => exact .inl (.inr heq.symm)
          · rcases h.buffers.removed uid' hne with hmem | hflushed
            · exact .inl (.inl hmem)
            · exact .inr hflushed

/-! ## The worker -/

theorem Inv.front (h : Inv encode s) {job : FloorJob} (hjobs : s.pendingJobs = job :: rest) :
    s.ledger.reached < s.ledger.log.length ∧
      s.ledger.log.take (s.ledger.reached + 1) =
        s.ledger.log.take s.ledger.reached ++ [job.entry] ∧
      s.ledger.log.drop (s.ledger.reached + 1) = rest.map FloorJob.entry := by
  have hpending := h.pending
  rw [hjobs, List.map_cons] at hpending
  have hlength := congrArg List.length hpending
  rw [List.length_drop, List.length_cons] at hlength
  have hlt : s.ledger.reached < s.ledger.log.length := by omega
  rw [List.drop_eq_getElem_cons hlt, List.cons.injEq] at hpending
  refine ⟨hlt, ?_, hpending.2⟩
  rw [List.take_succ_eq_append_getElem hlt, hpending.1]

theorem Inv.popped (h : Inv encode s) {job : FloorJob} (hjobs : s.pendingJobs = job :: rest)
    (hjobs' : s'.pendingJobs = rest) (hphase : s'.phase = .waiting)
    (hlog : s'.ledger.log = s.ledger.log) (hreached : s'.ledger.reached = s.ledger.reached + 1)
    (hcleared : s'.ledger.cleared = s.ledger.cleared)
    (hhash : s'.hash = applyWrites (job.entry.writes.map (encoded encode)) (base encode s))
    (hindex : ∀ uid, s'.index uid = (s'.hash uid).isSome)
    (hencodes : Encodes encode job.entry.writes)
    (hbuffers : Buffers s' (s.ledger.log.flatMap LogEntry.ops)) : Inv encode s' := by
  obtain ⟨hlt, htake, hdrop⟩ := h.front hjobs
  have hcl := h.cleared
  refine ⟨?_, ?_, ?_, ?_, ?_, ?_, ?_, ?_, hindex, fun _ => hphase⟩
  · rw [hlog]
    exact hbuffers
  · rw [hlog]
    exact h.ordered
  · rw [hlog, hreached, hjobs', hdrop]
  · rw [hreached, hcleared]
    omega
  · rw [hreached, hlog]
    omega
  · rw [hjobs']
    exact fun other hother => h.jobs other (hjobs ▸ List.mem_cons_of_mem _ hother)
  · rw [hlog, hreached, htake]
    intro entry hentry
    rcases List.mem_append.mp hentry with hold | hnew
    · exact h.encodes entry hold
    · rw [List.mem_singleton.mp hnew]
      exact hencodes
  · unfold Executing
    rw [hphase]
    dsimp only
    have hbase : base encode s' = s'.hash := by
      rw [hhash, base, base, hlog, hreached, hcleared, htake,
        List.drop_append_of_le_length (by rw [List.length_take]; omega), List.flatMap_append,
        applyWrites_append, List.flatMap_cons, List.flatMap_nil, List.append_nil]
    rw [hbase]
    exact agreeOff_refl _ _

theorem Inv.retried (h : Inv encode s) {mutations' : List OwnedMutation}
    {bytes attempts attempts' : Nat} {entry : LogEntry}
    (hjobs : s.pendingJobs = .batch mutations bytes attempts entry :: rest)
    (hjobs' : s'.pendingJobs = .batch mutations' bytes attempts' entry :: rest)
    (hcarries : List.Forall₂ (Carries encode) mutations' entry.writes)
    (hphase : s'.phase = .waiting) (hlog : s'.ledger.log = s.ledger.log)
    (hreached : s'.ledger.reached = s.ledger.reached)
    (hcleared : s'.ledger.cleared = s.ledger.cleared)
    (hhash : AgreeOff (entry.writes.map (encoded encode)) s'.hash (base encode s))
    (hindex : ∀ uid, s'.index uid = (s'.hash uid).isSome)
    (hbuffers : Buffers s' (s.ledger.log.flatMap LogEntry.ops)) : Inv encode s' := by
  refine ⟨?_, ?_, ?_, ?_, ?_, ?_, ?_, ?_, hindex, fun _ => hphase⟩
  · rw [hlog]
    exact hbuffers
  · rw [hlog]
    exact h.ordered
  · rw [hlog, hreached, hjobs', h.pending, hjobs]
    rfl
  · rw [hreached, hcleared]
    exact h.cleared
  · rw [hreached, hlog]
    exact h.reached
  · rw [hjobs']
    intro other hother
    rcases List.mem_cons.mp hother with rfl | hrest
    · exact hcarries
    · exact h.jobs other (hjobs ▸ List.mem_cons_of_mem _ hrest)
  · rw [hlog, hreached]
    exact h.encodes
  · unfold Executing
    rw [hphase]
    rw [frontWrites, hjobs']
    have hbase : base encode s' = base encode s := by
      rw [base, base, hlog, hreached, hcleared]
    rw [hbase]
    exact hhash

theorem batchFailed_eq {bytes attempts : Nat} {entry : LogEntry}
    (h : (batchFailed s mutations bytes attempts entry rest).ledger.acts.head? ≠ some .dropped) :
    batchFailed s mutations bytes attempts entry rest =
      { s with
        pendingJobs := .batch mutations bytes (attempts + 1) entry :: rest
        phase := .waiting } := by
  rw [batchFailed] at h ⊢
  split at h
  · exact absurd rfl h
  · next hattempts => rw [if_neg hattempts]

theorem Inv.pickJob (h : Inv encode s) {connected : Bool}
    (hkept : (pickJob encode s connected).ledger.acts.head? ≠ some .dropped) :
    Inv encode (pickJob encode s connected) := by
  rw [Floor.pickJob] at hkept ⊢
  split
  · exact h
  · next hpaused =>
      rw [if_neg hpaused] at hkept
      have hexecuting := h.executing
      unfold Executing at hexecuting
      split at hkept
      · next rest hphase hjobs =>
          simp only [hphase] at hexecuting
          rw [frontWrites, hjobs] at hexecuting
          refine h.popped hjobs rfl hphase rfl rfl rfl ?_ h.index nofun
            (h.buffers.of_eq rfl rfl rfl)
          funext uid
          exact hexecuting uid nofun
      · next mutations bytes attempts entry rest hphase hjobs =>
          have hcarries := carries_prepareBatch
            (h.jobs (.batch mutations bytes attempts entry) (hjobs ▸ List.mem_cons_self))
          simp only [hphase] at hexecuting
          rw [frontWrites, hjobs] at hexecuting
          split at hkept
          · next hconnected =>
              rw [if_pos hconnected]
              split at hkept
              · next hprepared =>
                  rw [if_pos hprepared]
                  obtain ⟨hwrites, hencodes⟩ := hcarries.2 hprepared
                  refine ⟨h.buffers.of_eq rfl rfl rfl, h.ordered, ?_, h.cleared, h.reached, ?_,
                    h.encodes, ?_,
                    h.index, fun hp => absurd hp hpaused⟩
                  · rw [h.pending, hjobs]
                    rfl
                  · intro other hother
                    rcases List.mem_cons.mp hother with rfl | hrest
                    · exact hcarries.1
                    · exact h.jobs other (hjobs ▸ List.mem_cons_of_mem _ hrest)
                  · exact ⟨_, _, _, _, _, rfl, hwrites, hencodes, s.hash, hexecuting, rfl⟩
              · next hprepared =>
                  rw [if_neg hprepared, batchFailed_eq hkept]
                  exact h.retried hjobs rfl hcarries.1 rfl rfl rfl rfl hexecuting h.index
                    (h.buffers.of_eq rfl rfl rfl)
          · next hconnected =>
              rw [if_neg hconnected]
              exact h
      · exact h

theorem executeGroup_index (hindex : ∀ uid, s.index uid = (s.hash uid).isSome)
    (mutations : List OwnedMutation) (uid : Uid) :
    (executeGroup s mutations).index uid = ((executeGroup s mutations).hash uid).isSome := by
  simp only [executeGroup]
  rw [applyWrites_apply]
  cases lastWrite (mutations.map OwnedMutation.write) uid with
  | some value => rfl
  | none => exact hindex uid

theorem Inv.sendGroup (h : Inv encode s) {answer : Answer}
    (hkept : (sendGroup s answer).ledger.acts.head? ≠ some .dropped) :
    Inv encode (sendGroup s answer) := by
  rw [Floor.sendGroup] at hkept ⊢
  split at hkept
  · next first mutations bytes attempts entry rest hphase hjobs =>
      dsimp only at hkept ⊢
      have hexecuting := h.executing
      unfold Executing at hexecuting
      simp only [hphase] at hexecuting
      obtain ⟨mutations', bytes', attempts', entry', rest', hjobs', hwrites, hencodes, before,
        hbefore, hhash⟩ := hexecuting
      rw [hjobs] at hjobs'
      cases hjobs'
      have hjob : JobOk encode (.batch mutations bytes attempts entry) :=
        h.jobs _ (hjobs ▸ List.mem_cons_self)
      generalize hcount : groupCount 0 0 (mutations.drop first) = count at hkept ⊢
      -- the group, as writes of the batch
      have hgroup : ((mutations.drop first).take count).map OwnedMutation.write =
          ((entry.writes.map (encoded encode)).drop first).take count := by
        rw [← hwrites, List.map_take, List.map_drop]
      have hoff : AgreeOff (entry.writes.map (encoded encode)) s.hash (base encode s) := by
        rw [hhash]
        exact hbefore.applyPart fun write hwrite => List.mem_of_mem_take hwrite
      have hsent : AgreeOff (entry.writes.map (encoded encode))
          (executeGroup s ((mutations.drop first).take count)).hash (base encode s) := by
        refine hoff.applyPart fun write hwrite => ?_
        rw [hgroup] at hwrite
        exact List.mem_of_mem_drop (List.mem_of_mem_take hwrite)
      have hnext : (executeGroup s ((mutations.drop first).take count)).hash =
          applyWrites ((entry.writes.map (encoded encode)).take (first + count)) before := by
        rw [List.take_add, applyWrites_append, ← hhash, ← hgroup]
        rfl
      split at hkept
      · next hanswered =>
          rw [if_pos hanswered, hanswered]
          split at hkept
          · next hmore =>
              rw [if_pos hmore]
              refine ⟨h.buffers.of_eq rfl rfl rfl, h.ordered, h.pending, h.cleared, h.reached,
                h.jobs, h.encodes, ?_, executeGroup_index h.index _, ?_⟩
              · exact ⟨mutations, bytes, attempts, entry, rest, hjobs, hwrites, hencodes, before,
                  hbefore, hnext⟩
              · intro hpaused
                have hwaiting := h.idle hpaused
                rw [hphase] at hwaiting
                cases hwaiting
          · next hlast =>
              rw [if_neg hlast]
              refine h.popped hjobs rfl rfl rfl rfl rfl ?_ (executeGroup_index h.index _)
                hencodes (h.buffers.of_eq rfl rfl rfl)
              refine hnext.trans ?_
              rw [List.take_of_length_le]
              · exact hbefore.applyWrites_eq
              · rw [← hwrites, List.length_map]
                omega
      · next hanswered =>
          rw [if_neg hanswered, batchFailed_eq hkept]
          split
          · exact h.retried hjobs rfl hjob rfl rfl rfl rfl hsent (executeGroup_index h.index _)
              (h.buffers.of_eq rfl rfl rfl)
          · exact h.retried hjobs rfl hjob rfl rfl rfl rfl hoff h.index
              (h.buffers.of_eq rfl rfl rfl)
  · exact h

/-! ## Barriers and publications -/

theorem Inv.requestBarrier (h : Inv encode s) : Inv encode (requestBarrier s) := by
  rw [Floor.requestBarrier]
  split
  · exact h
  · split
    · exact h
    · refine h.queued .barrier rfl rfl rfl rfl rfl rfl rfl rfl (covers_nil _) trivial ?_
      have hops : (s.ledger.log ++ [LogEntry.barrier]).flatMap LogEntry.ops =
          s.ledger.log.flatMap LogEntry.ops := by
        rw [List.flatMap_append]
        exact List.append_nil _
      show Buffers _ ((s.ledger.log ++ [LogEntry.barrier]).flatMap LogEntry.ops)
      rw [hops]
      exact h.buffers.of_eq rfl rfl rfl

theorem Inv.takeBarrier (h : Inv encode s) : Inv encode (takeBarrier s) := by
  rw [Floor.takeBarrier]
  split
  · exact h
  · exact ⟨h.buffers.of_eq rfl rfl rfl, h.ordered, h.pending, h.cleared, h.reached, h.jobs,
      h.encodes, h.executing, h.index, h.idle⟩

theorem Inv.resume (h : Inv encode s) : Inv encode (resume s) := by
  rw [Floor.resume]
  split
  · exact ⟨h.buffers.of_eq rfl rfl rfl, h.ordered, h.pending, h.cleared, h.reached, h.jobs,
      h.encodes, h.executing, h.index, nofun⟩
  · exact ⟨h.buffers.of_eq rfl rfl rfl, h.ordered, h.pending, h.cleared, h.reached, h.jobs,
      h.encodes, h.executing, h.index, h.idle⟩

theorem Inv.publish (h : Inv encode s) : Inv encode (publish s) := by
  rw [Floor.publish]
  split
  · next hpaused =>
      refine ⟨h.buffers.of_eq rfl rfl rfl, h.ordered, h.pending, le_rfl, h.reached, h.jobs,
        h.encodes, ?_, fun _ => rfl, h.idle⟩
      unfold Executing
      simp only [h.idle hpaused]
      intro uid _
      have hlength : (s.ledger.log.take s.ledger.reached).length ≤ s.ledger.reached :=
        List.length_take_le _ _
      rw [base, List.drop_eq_nil_of_le hlength]
      rfl
  · exact h

/-! ## The run -/

/-- A step of a regular run, with room for a removal. -/
def Careful (encode : Bytes → Option Bytes) (s : State) (event : Event) : Prop :=
  Regular encode s event ∧ RoomForRemoval s event

theorem Inv.step (h : Inv encode s) (event : Event) (hcareful : Careful encode s event) :
    Inv encode (step encode s event) := by
  obtain ⟨hregular, hroom⟩ := hcareful
  cases event with
  | drop uid record => exact h.logFloorDrop hregular.1 hregular.2
  | remove uid =>
      obtain ⟨held, hheld⟩ := hregular
      exact h.removeFloorDrop hheld hroom
  | flush => exact h.flushFloorDrops
  | requestBarrier => exact h.requestBarrier
  | takeBarrier => exact h.takeBarrier
  | resume => exact h.resume
  | publish => exact h.publish
  | pick connected => exact h.pickJob hregular
  | send answer => exact h.sendGroup hregular

/-- Once everything flushed is executed, the hash is the net effect of the log. -/
theorem Inv.netEffect (h : Inv encode s) (hexecuted : Executed s) : NetEffect encode s := by
  obtain ⟨hbarriers, hphase⟩ := hexecuted
  have hcl := h.cleared
  have hre := h.reached
  have hsplit : s.ledger.log.drop s.ledger.cleared =
      (s.ledger.log.take s.ledger.reached).drop s.ledger.cleared ++
        s.ledger.log.drop s.ledger.reached := by
    have hlength : s.ledger.cleared ≤ (s.ledger.log.take s.ledger.reached).length := by
      rw [List.length_take]
      omega
    rw [← List.drop_append_of_le_length hlength, List.take_append_drop]
  -- what is still queued is barriers, which write nothing
  have hrest : (s.ledger.log.drop s.ledger.reached).flatMap LogEntry.writes = [] := by
    rw [h.pending, List.flatMap_eq_nil_iff]
    intro entry hentry
    obtain ⟨job, hjob, rfl⟩ := List.mem_map.mp hentry
    rw [hbarriers job hjob]
    rfl
  have hwrites : (s.ledger.log.drop s.ledger.cleared).flatMap LogEntry.writes =
      ((s.ledger.log.take s.ledger.reached).drop s.ledger.cleared).flatMap LogEntry.writes := by
    rw [hsplit, List.flatMap_append, hrest, List.append_nil]
  have hordered : Ordered ([] ++ (s.ledger.log.take s.ledger.cleared).flatMap LogEntry.ops)
      (s.ledger.log.drop s.ledger.cleared) := by
    have hwhole := h.ordered
    rw [← List.take_append_drop s.ledger.cleared s.ledger.log, ordered_append] at hwhole
    exact hwhole.2
  have hnet : applyWrites ((s.ledger.log.drop s.ledger.cleared).flatMap LogEntry.writes)
      (fun _ => none) = applyWrites s.sinceClearing fun _ => none := by
    have heq : applyWrites _ (applyWrites [] fun _ => none) = applyWrites ([] ++ _) _ :=
      hordered.applyWrites_eq nofun
    rwa [applyWrites_nil, List.nil_append] at heq
  have hbase : ∀ uid, base encode s uid =
      (applyWrites s.sinceClearing (fun _ => none) uid).bind encode := by
    intro uid
    rw [← hnet, hwrites, ← applyWrites_bind, base, List.map_flatMap]
    rfl
  have hhash : ∀ uid, s.hash uid = base encode s uid := by
    have hexecuting := h.executing
    unfold Executing at hexecuting
    split at hexecuting
    · intro uid
      refine hexecuting uid ?_
      unfold frontWrites
      split
      · nofun
      · next job rest hjobs =>
          rw [hbarriers job (hjobs ▸ List.mem_cons_self)]
          nofun
    · next first hat =>
        rw [hat] at hphase
        exact hphase.elim
  intro uid
  refine ⟨(hhash uid).trans (hbase uid), ?_⟩
  rw [h.index, hhash, hbase]
  cases hheld : applyWrites s.sinceClearing (fun _ => none) uid with
  | none => rfl
  | some record =>
      rw [← hnet, hwrites, applyWrites_apply] at hheld
      have hlast : lastWrite (((s.ledger.log.take s.ledger.reached).drop
          s.ledger.cleared).flatMap LogEntry.writes) uid = some (some record) := by
        cases hfound : lastWrite (((s.ledger.log.take s.ledger.reached).drop
            s.ledger.cleared).flatMap LogEntry.writes) uid with
        | none => rw [hfound] at hheld; cases hheld
        | some value => rw [hfound] at hheld; exact congrArg some hheld
      obtain ⟨entry, hentry, hwrite⟩ := List.mem_flatMap.mp (mem_of_lastWrite hlast)
      rw [Option.bind_some, h.encodes entry (List.mem_of_mem_drop hentry) _ hwrite record rfl]
      rfl

/-! ## What holds of every run: the barrier -/

def SinceBarrier (acts recent older : List WorkerAct) : Prop :=
  acts = recent ++ older ∧ (older = [] ∨ older.head? = some .barrier)

structure BarrierInv (s : State) : Prop where
  ready : s.barrierReady = true → s.paused = true
  taken : s.ledger.taken = true → s.paused = true
  idle : s.paused = true → s.phase = .waiting
  /-- Without a failure, all the jobs since the last barrier were completed. -/
  recent : ∃ recent older, SinceBarrier s.ledger.acts recent older ∧
    (s.failureBeforeBarrier = false → ∀ act ∈ recent, act = .completed)
  /-- A barrier that is ready with success follows only completed jobs. -/
  success : s.barrierReady = true → s.barrierSucceeded = true →
    ∃ acts older, s.ledger.acts = .barrier :: (acts ++ older) ∧
      (∀ act ∈ acts, act = .completed) ∧ (older = [] ∨ older.head? = some .barrier)

/-- The game thread's moves leave this much of the worker alone. -/
structure SameWorker (s s' : State) : Prop where
  ready : s'.barrierReady = s.barrierReady
  succeeded : s'.barrierSucceeded = s.barrierSucceeded
  failure : s'.failureBeforeBarrier = s.failureBeforeBarrier
  paused : s'.paused = s.paused
  phase : s'.phase = s.phase
  taken : s'.ledger.taken = s.ledger.taken
  acts : s'.ledger.acts = s.ledger.acts

theorem SameWorker.refl (s : State) : SameWorker s s := ⟨rfl, rfl, rfl, rfl, rfl, rfl, rfl⟩

theorem SameWorker.barrierInv (h : SameWorker s s') (hinv : BarrierInv s) : BarrierInv s' := by
  obtain ⟨hready, hsucceeded, hfailure, hpaused, hphase, htaken, hacts⟩ := h
  constructor
  · rw [hready, hpaused]
    exact hinv.ready
  · rw [htaken, hpaused]
    exact hinv.taken
  · rw [hpaused, hphase]
    exact hinv.idle
  · rw [hacts, hfailure]
    exact hinv.recent
  · rw [hready, hsucceeded, hacts]
    exact hinv.success

theorem sameWorker_flush (s : State) : SameWorker s (flushFloorDrops s) := by
  rcases flushFloorDrops_cases s with h | h
  · rw [h]
    exact .refl s
  · rw [h]
    exact ⟨rfl, rfl, rfl, rfl, rfl, rfl, rfl⟩

theorem sameWorker_drop (s : State) (uid : Uid) (record : Bytes) :
    SameWorker s (logFloorDrop s uid record) := by
  rw [logFloorDrop]
  split
  · exact .refl s
  · have hflushed : SameWorker s
        (if maxFloorDropBatch ≤ s.batch.length then flushFloorDrops s else s) := by
      split
      · exact sameWorker_flush s
      · exact .refl s
    generalize (if maxFloorDropBatch ≤ s.batch.length then flushFloorDrops s else s) = s'
      at hflushed ⊢
    dsimp only
    split
    · exact hflushed
    · split
      · exact hflushed
      · obtain ⟨hready, hsucceeded, hfailure, hpaused, hphase, htaken, hacts⟩ := hflushed
        exact ⟨hready, hsucceeded, hfailure, hpaused, hphase, htaken, hacts⟩

theorem sameWorker_remove (s : State) (uid : Uid) : SameWorker s (removeFloorDrop s uid) := by
  rw [removeFloorDrop]
  split
  · exact .refl s
  · split
    · exact ⟨rfl, rfl, rfl, rfl, rfl, rfl, rfl⟩
    · split <;> exact ⟨rfl, rfl, rfl, rfl, rfl, rfl, rfl⟩

theorem BarrierInv.removeFront (hinv : BarrierInv s) (hrunning : s.paused = false)
    (rest : List FloorJob) (bytes : Nat) (dropped : Bool) :
    BarrierInv (removeFront s rest bytes dropped) := by
  have hnot : s.barrierReady ≠ true := fun hready => by
    have := hinv.ready hready
    rw [hrunning] at this
    cases this
  refine ⟨hinv.ready, hinv.taken, fun _ => rfl, ?_, fun hready => absurd hready hnot⟩
  obtain ⟨recent, older, ⟨hacts, holder⟩, hcompleted⟩ := hinv.recent
  refine ⟨(if dropped then .dropped else .completed) :: recent, older, ⟨?_, holder⟩, ?_⟩
  · show _ :: s.ledger.acts = _
    rw [hacts, List.cons_append]
  · intro hfailure
    have hboth : (s.failureBeforeBarrier || dropped) = false := hfailure
    rw [Bool.or_eq_false_iff] at hboth
    rw [hboth.2, if_neg Bool.false_ne_true]
    exact List.forall_mem_cons.mpr ⟨rfl, hcompleted hboth.1⟩

theorem BarrierInv.batchFailed (hinv : BarrierInv s) (hrunning : s.paused = false)
    (mutations : List OwnedMutation) (bytes attempts : Nat) (entry : LogEntry)
    (rest : List FloorJob) : BarrierInv (batchFailed s mutations bytes attempts entry rest) := by
  rw [Floor.batchFailed]
  split
  · exact hinv.removeFront hrunning rest bytes true
  · exact ⟨hinv.ready, hinv.taken, fun _ => rfl, hinv.recent, hinv.success⟩

theorem BarrierInv.pickJob (hinv : BarrierInv s) (connected : Bool) :
    BarrierInv (pickJob encode s connected) := by
  rw [Floor.pickJob]
  split
  · exact hinv
  · next hpaused =>
      rw [Bool.not_eq_true] at hpaused
      split
      · next rest hphase hjobs =>
          refine ⟨fun _ => rfl, fun _ => rfl, fun _ => hphase, ?_, ?_⟩
          · exact ⟨[], _, ⟨rfl, .inr rfl⟩, fun _ => nofun⟩
          · intro _ hsucceeded
            obtain ⟨recent, older, ⟨hacts, holder⟩, hcompleted⟩ := hinv.recent
            have hfailure : s.failureBeforeBarrier = false := by
              simpa using hsucceeded
            exact ⟨recent, older, by rw [← hacts], hcompleted hfailure, holder⟩
      · split
        · split
          · refine ⟨hinv.ready, hinv.taken, ?_, hinv.recent, hinv.success⟩
            intro hp
            rw [show s.paused = true from hp] at hpaused
            cases hpaused
          · exact hinv.batchFailed hpaused _ _ _ _ _
        · exact hinv
      · exact hinv

theorem BarrierInv.sendGroup (hinv : BarrierInv s) (answer : Answer) :
    BarrierInv (sendGroup s answer) := by
  rw [Floor.sendGroup]
  split
  · next first mutations bytes attempts entry rest hphase hjobs =>
      have hrunning : s.paused = false := by
        rw [← Bool.not_eq_true]
        intro hpaused
        rw [hinv.idle hpaused] at hphase
        cases hphase
      have hsame : SameWorker s (if answer.executed then
          executeGroup s ((mutations.drop first).take (groupCount 0 0 (mutations.drop first)))
          else s) := by
        split
        · exact ⟨rfl, rfl, rfl, rfl, rfl, rfl, rfl⟩
        · exact .refl s
      have hsent := hsame.barrierInv hinv
      have hpaused := hsame.paused.trans hrunning
      dsimp only
      split
      · split
        · refine ⟨hsent.ready, hsent.taken, ?_, hsent.recent, hsent.success⟩
          intro hp
          have hp' := hpaused.symm.trans hp
          cases hp'
        · exact hsent.removeFront hpaused rest bytes false
      · exact hsent.batchFailed hpaused _ _ _ _ _
  · exact hinv

theorem BarrierInv.step (hinv : BarrierInv s) (event : Event) :
    BarrierInv (step encode s event) := by
  cases event with
  | drop uid record => exact (sameWorker_drop s uid record).barrierInv hinv
  | remove uid => exact (sameWorker_remove s uid).barrierInv hinv
  | flush => exact (sameWorker_flush s).barrierInv hinv
  | requestBarrier =>
      simp only [Floor.step, Floor.requestBarrier]
      split
      · exact hinv
      · split
        · exact hinv
        · exact ⟨hinv.ready, hinv.taken, hinv.idle, hinv.recent, hinv.success⟩
  | takeBarrier =>
      simp only [Floor.step, Floor.takeBarrier, barrierAnswer]
      split
      · exact hinv
      · next hanswer =>
          split at hanswer
          · next hready =>
              exact ⟨nofun, fun _ => hinv.ready hready, hinv.idle, hinv.recent, nofun⟩
          · cases hanswer
  | resume =>
      simp only [Floor.step, Floor.resume]
      split
      · exact ⟨nofun, nofun, nofun, hinv.recent, nofun⟩
      · exact ⟨hinv.ready, nofun, hinv.idle, hinv.recent, hinv.success⟩
  | publish =>
      simp only [Floor.step, Floor.publish]
      split
      · exact ⟨hinv.ready, hinv.taken, hinv.idle, hinv.recent, hinv.success⟩
      · exact hinv
  | pick connected => exact hinv.pickJob connected
  | send answer => exact hinv.sendGroup answer

theorem barrierInv_initial : BarrierInv {} where
  ready := nofun
  taken := nofun
  idle := nofun
  recent := ⟨[], [], ⟨rfl, .inl rfl⟩, fun _ => nofun⟩
  success := nofun

theorem BarrierInv.quietWhileTaken (hinv : BarrierInv s) (event : Event) :
    QuietWhileTaken encode s event := by
  intro htaken
  have hpaused := hinv.taken htaken
  have hphase := hinv.idle hpaused
  cases event with
  | pick connected =>
      have hstays : Floor.pickJob encode s connected = s := by rw [Floor.pickJob, if_pos hpaused]
      show (Floor.pickJob encode s connected).hash = _ ∧ _
      exact ⟨by rw [hstays], by rw [Floor.step, hstays]⟩
  | send answer =>
      have hstays : Floor.sendGroup s answer = s := by rw [Floor.sendGroup, hphase]
      show (Floor.sendGroup s answer).hash = _ ∧ _
      exact ⟨by rw [hstays], by rw [Floor.step, hstays]⟩
  | _ => trivial

theorem BarrierInv.honestBarrier (hinv : BarrierInv s) (event : Event) : HonestBarrier s event := by
  cases event with
  | takeBarrier =>
      intro hanswer
      rw [barrierAnswer] at hanswer
      split at hanswer
      · next hready => exact hinv.success hready (Option.some.inj hanswer)
      · cases hanswer
  | _ => trivial

/-! ## Where the hash was cleared -/

/-- A paused worker stands behind a barrier of the log, and so did the worker at the last
clearing publication. -/
structure Standing (s : State) : Prop where
  paused : s.paused = true →
    0 < s.ledger.reached ∧ s.ledger.log[s.ledger.reached - 1]? = some .barrier
  cleared : s.ledger.cleared = 0 ∨ s.ledger.log[s.ledger.cleared - 1]? = some .barrier

theorem Standing.grows (h : Standing s) {more : List LogEntry}
    (hlog : s'.ledger.log = s.ledger.log ++ more) (hreached : s'.ledger.reached = s.ledger.reached)
    (hcleared : s'.ledger.cleared = s.ledger.cleared)
    (hpaused : s'.paused = true → s.paused = true) : Standing s' := by
  have hat : ∀ {n : Nat}, s.ledger.log[n]? = some .barrier →
      s'.ledger.log[n]? = some .barrier := by
    intro n hn
    rw [hlog, List.getElem?_append_left (List.getElem?_eq_some_iff.mp hn).1, hn]
  constructor
  · intro hp
    rw [hreached]
    exact ⟨(h.paused (hpaused hp)).1, hat (h.paused (hpaused hp)).2⟩
  · rw [hcleared]
    exact h.cleared.imp id hat

theorem Standing.runs (h : Standing s) (hlog : s'.ledger.log = s.ledger.log)
    (hcleared : s'.ledger.cleared = s.ledger.cleared) (hrunning : s'.paused = false) :
    Standing s' := by
  constructor
  · intro hp
    rw [hrunning] at hp
    cases hp
  · rw [hlog, hcleared]
    exact h.cleared

theorem Standing.flushFloorDrops (h : Standing s) : Standing (flushFloorDrops s) := by
  rcases flushFloorDrops_cases s with heq | heq
  · rw [heq]
    exact h
  · rw [heq]
    exact h.grows rfl rfl rfl id

theorem Standing.batchFailed (h : Standing s) (hrunning : s.paused = false)
    (mutations : List OwnedMutation) (bytes attempts : Nat) (entry : LogEntry)
    (rest : List FloorJob) : Standing (batchFailed s mutations bytes attempts entry rest) := by
  rw [Floor.batchFailed]
  split
  · exact h.runs rfl rfl hrunning
  · exact h.runs rfl rfl hrunning

theorem Standing.step (h : Standing s) (hinv : Inv encode s) (event : Event)
    (hcareful : Careful encode s event) : Standing (step encode s event) := by
  have hsame : ∀ {s' : State}, s'.ledger.log = s.ledger.log →
      s'.ledger.reached = s.ledger.reached → s'.ledger.cleared = s.ledger.cleared →
      (s'.paused = true → s.paused = true) → Standing s' :=
    fun hlog => h.grows (hlog.trans (List.append_nil _).symm)
  cases event with
  | drop uid record =>
      obtain ⟨s', hfrom, hlogged⟩ := logFloorDrop_of_recorded hcareful.1.2
      simp only [Floor.step]
      rw [hlogged]
      have hs' : Standing s' := by
        rcases hfrom with rfl | rfl
        · exact h
        · exact h.flushFloorDrops
      exact ⟨hs'.paused, hs'.cleared⟩
  | remove uid =>
      simp only [Floor.step, Floor.removeFloorDrop]
      split
      · exact h
      · split
        · exact hsame rfl rfl rfl id
        · split <;> exact hsame rfl rfl rfl id
  | flush => exact h.flushFloorDrops
  | requestBarrier =>
      simp only [Floor.step, Floor.requestBarrier]
      split
      · exact h
      · split
        · exact h
        · exact h.grows rfl rfl rfl id
  | takeBarrier =>
      simp only [Floor.step, Floor.takeBarrier]
      split
      · exact h
      · exact hsame rfl rfl rfl id
  | resume =>
      simp only [Floor.step, Floor.resume]
      split
      · exact h.runs rfl rfl rfl
      · exact hsame rfl rfl rfl id
  | publish =>
      simp only [Floor.step, Floor.publish]
      split
      · next hpaused => exact ⟨h.paused, .inr (h.paused hpaused).2⟩
      · exact h
  | pick connected =>
      simp only [Floor.step, Floor.pickJob]
      split
      · exact h
      · next hpaused =>
          rw [Bool.not_eq_true] at hpaused
          split
          · next rest hphase hjobs =>
              refine ⟨fun _ => ⟨Nat.succ_pos _, ?_⟩, h.cleared⟩
              obtain ⟨hlt, htake, -⟩ := hinv.front hjobs
              show s.ledger.log[s.ledger.reached + 1 - 1]? = _
              rw [Nat.add_sub_cancel, ← List.getElem?_take_of_lt (Nat.lt_succ_self _), htake,
                List.getElem?_append_right (List.length_take_le _ _), List.length_take,
                Nat.min_eq_left (Nat.le_of_lt hlt), Nat.sub_self]
              rfl
          · split
            · split
              · exact h.runs rfl rfl hpaused
              · exact h.batchFailed hpaused _ _ _ _ _
            · exact h
          · exact h
  | send answer =>
      simp only [Floor.step, Floor.sendGroup]
      split
      · next first mutations bytes attempts entry rest hphase hjobs =>
          have hrunning : s.paused = false := by
            rw [← Bool.not_eq_true]
            intro hpaused
            rw [hinv.idle hpaused] at hphase
            cases hphase
          generalize hsent : (if answer.executed = true then
            executeGroup s ((mutations.drop first).take (groupCount 0 0 (mutations.drop first)))
            else s) = sent
          have hrun : Standing sent ∧ sent.paused = false := by
            rw [← hsent]
            split
            · exact ⟨h.runs rfl rfl hrunning, hrunning⟩
            · exact ⟨h, hrunning⟩
          split
          · split
            · exact hrun.1.runs rfl rfl hrun.2
            · exact hrun.1.runs rfl rfl hrun.2
          · exact hrun.1.batchFailed hrun.2 _ _ _ _ _
      · exact h

/-- In every regular run that has room for its removals, the hash was last cleared at a
barrier of the log, and the hash and its index are the net effect of the operations flushed
since that barrier as soon as all that was flushed is executed. In every run nothing is
executed while a barrier is taken, and a barrier that reports success follows batches that
were all completed. -/
theorem floorHash_netEffect (encode : Bytes → Option Bytes) (events : List Event) :
    (Along (step encode) (Careful encode) ({} : State) events →
        Executed (run (step encode) ({} : State) events) →
        NetEffect encode (run (step encode) ({} : State) events) ∧
          ((run (step encode) ({} : State) events).ledger.cleared = 0 ∨
            (run (step encode) ({} : State) events).ledger.log[
              (run (step encode) ({} : State) events).ledger.cleared - 1]? =
                some .barrier)) ∧
      Along (step encode) (QuietWhileTaken encode) ({} : State) events ∧
      Along (step encode) HonestBarrier ({} : State) events := by
  have htrue : Along (step encode) (fun _ _ => True) ({} : State) events :=
    along_of_forall (fun _ _ _ => trivial) events _ (fun _ _ => (trivial : True))
  refine ⟨fun hcareful hexecuted => ?_, ?_, ?_⟩
  · have hstep : ∀ (s : State) (event : Event), Inv encode s ∧ Standing s →
        Careful encode s event →
        Inv encode (step encode s event) ∧ Standing (step encode s event) :=
      fun s event h hc => ⟨h.1.step event hc, h.2.step h.1 event hc⟩
    have hinitial : Inv encode ({} : State) ∧ Standing ({} : State) :=
      ⟨inv_initial, nofun, .inl rfl⟩
    obtain ⟨hinv, hstanding⟩ := run_invariant_along hstep events hinitial hcareful
    exact ⟨hinv.netEffect hexecuted, hstanding.cleared⟩
  · exact along_of_invariant (fun s event (h : BarrierInv s) _ => h.step event)
      (fun s event h => h.quietWhileTaken event) events barrierInv_initial htrue
  · exact along_of_invariant (fun s event (h : BarrierInv s) _ => h.step event)
      (fun s event h => h.honestBarrier event) events barrierInv_initial htrue

/-- A drop that is taken back while it is buffered, a batch whose answer is lost and that is
executed again, a queued removal, a publication at a barrier, and both kinds of removal behind
it. -/
def turnover : List Event :=
  [.drop 1 [1], .drop 2 [2], .remove 1, .drop 3 [3], .flush, .pick true, .send .lost,
    .pick true, .send .answered, .remove 2, .flush, .requestBarrier, .pick true,
    .send .answered, .pick true, .takeBarrier, .publish, .resume, .drop 1 [4], .drop 2 [5],
    .remove 1, .remove 3, .flush, .pick true, .send .answered]

theorem turnover_netEffect :
    let s := run (step some) ({} : State) turnover
    NetEffect some s ∧ s.ledger.cleared = 3 ∧ s.hash 2 = some [5] ∧ s.hash 3 = none := by
  have hcareful : Along (step some) (Careful some) ({} : State) turnover :=
    ⟨⟨⟨nofun, rfl⟩, trivial⟩, ⟨⟨nofun, rfl⟩, trivial⟩, ⟨⟨[1], rfl⟩, .inl (by decide)⟩,
      ⟨⟨nofun, rfl⟩, trivial⟩, ⟨trivial, trivial⟩, ⟨nofun, trivial⟩, ⟨nofun, trivial⟩,
      ⟨nofun, trivial⟩, ⟨nofun, trivial⟩, ⟨⟨[2], rfl⟩, .inr (by decide)⟩, ⟨trivial, trivial⟩,
      ⟨trivial, trivial⟩, ⟨nofun, trivial⟩, ⟨nofun, trivial⟩, ⟨nofun, trivial⟩,
      ⟨trivial, trivial⟩, ⟨trivial, trivial⟩, ⟨trivial, trivial⟩, ⟨⟨nofun, rfl⟩, trivial⟩,
      ⟨⟨nofun, rfl⟩, trivial⟩, ⟨⟨[4], rfl⟩, .inl (by decide)⟩, ⟨⟨[3], rfl⟩, .inr (by decide)⟩,
      ⟨trivial, trivial⟩, ⟨nofun, trivial⟩, ⟨nofun, trivial⟩, trivial⟩
  exact ⟨((floorHash_netEffect some turnover).1 hcareful ⟨nofun, trivial⟩).1, rfl, rfl, rfl⟩

end

/-! ## A removal that finds no room -/

def dropOne : List Event := [.drop 1 [1], .flush, .pick true, .send .answered]

/-- The buffers after these drops of the record `[1]`. -/
def pushDrops (s : State) (uids : List Uid) : State :=
  { s with
    batch := s.batch ++ uids.map fun uid => (uid, [1])
    ledger :=
      { s.ledger with buffered := s.ledger.buffered ++ uids.map fun uid => (uid, some [1]) } }

def pushRemoves (s : State) (uids : List Uid) : State :=
  { s with
    removes := s.removes ++ uids
    ledger :=
      { s.ledger with buffered := s.ledger.buffered ++ uids.map fun uid => (uid, none) } }

theorem pushDrops_ops (s : State) (uids : List Uid) :
    (pushDrops s uids).ops = s.ops ++ uids.map fun uid => (uid, some [1]) :=
  (List.append_assoc _ _ _).symm

theorem pushRemoves_ops (s : State) (uids : List Uid) :
    (pushRemoves s uids).ops = s.ops ++ uids.map fun uid => (uid, none) :=
  (List.append_assoc _ _ _).symm

theorem run_drops {encode : Bytes → Option Bytes} (uids : List Uid) :
    ∀ {s : State}, uids.Nodup → 0 ∉ uids → s.batch.length + uids.length ≤ maxFloorDropBatch →
      (∀ uid ∈ uids, ∀ held, lastWrite s.ops uid ≠ some (some held)) →
      run (step encode) s (uids.map fun uid => .drop uid [1]) = pushDrops s uids ∧
        Along (step encode) (Regular encode) s (uids.map fun uid => .drop uid [1]) := by
  induction uids with
  | nil =>
      intro s _ _ _ _
      refine ⟨?_, trivial⟩
      simp only [pushDrops, List.map_nil, List.append_nil, run_nil]
  | cons uid uids ih =>
      intro s hnodup hzero hroom hfresh
      rw [List.nodup_cons] at hnodup
      rw [List.mem_cons, not_or] at hzero
      rw [List.length_cons] at hroom
      have hstep : logFloorDrop s uid [1] = pushDrops s [uid] := by
        have hfull : ¬ maxFloorDropBatch ≤ s.batch.length := by omega
        rw [logFloorDrop, if_neg (Ne.symm hzero.1), if_neg hfull]
        rw [if_neg hfull]
        rfl
      have hrest := ih (s := pushDrops s [uid]) hnodup.2 hzero.2
        (by
          show (s.batch ++ [_]).length + uids.length ≤ _
          rw [List.length_append, List.length_singleton]
          omega)
        (by
          intro other hother held
          rw [pushDrops_ops, List.map_singleton, lastWrite_concat, if_neg]
          · exact hfresh other (List.mem_cons_of_mem _ hother) held
          · rintro rfl
            exact hnodup.1 hother)
      refine ⟨?_, ⟨hfresh uid List.mem_cons_self, ?_⟩, ?_⟩
      · rw [List.map_cons, run_cons]
        show run _ (logFloorDrop s uid [1]) _ = _
        rw [hstep, hrest.1, pushDrops, pushDrops, pushDrops]
        simp only [List.map_cons, List.map_nil, List.append_assoc, List.cons_append,
          List.nil_append]
      · rw [hstep, pushDrops_ops]
        rfl
      · show Along _ _ (logFloorDrop s uid [1]) _
        rw [hstep]
        exact hrest.2

/-- Removals of objects that are no longer buffered, while the list has room. -/
theorem run_removes {encode : Bytes → Option Bytes} (uids : List Uid) :
    ∀ {s : State}, uids.Nodup → 0 ∉ uids → s.batch = [] →
      s.removes.length + uids.length ≤ maxFloorDropBatch →
      (∀ uid ∈ uids, ∃ held, lastWrite s.ops uid = some (some held)) →
      run (step encode) s (uids.map .remove) = pushRemoves s uids ∧
        Along (step encode) (Regular encode) s (uids.map .remove) := by
  induction uids with
  | nil =>
      intro s _ _ _ _ _
      refine ⟨?_, trivial⟩
      simp only [pushRemoves, List.map_nil, List.append_nil, run_nil]
  | cons uid uids ih =>
      intro s hnodup hzero hbatch hroom hheld
      rw [List.nodup_cons] at hnodup
      rw [List.mem_cons, not_or] at hzero
      rw [List.length_cons] at hroom
      have hstep : removeFloorDrop s uid = pushRemoves s [uid] := by
        rw [removeFloorDrop, if_neg (Ne.symm hzero.1), hbatch]
        show (if _ then _ else _) = _
        rw [if_pos (by omega), pushRemoves, hbatch]
        rfl
      have hrest := ih (s := pushRemoves s [uid]) hnodup.2 hzero.2 hbatch
        (by
          show (s.removes ++ [uid]).length + uids.length ≤ _
          rw [List.length_append, List.length_singleton]
          omega)
        (by
          intro other hother
          rw [pushRemoves_ops, List.map_singleton, lastWrite_concat, if_neg]
          · exact hheld other (List.mem_cons_of_mem _ hother)
          · rintro rfl
            exact hnodup.1 hother)
      refine ⟨?_, hheld uid List.mem_cons_self, ?_⟩
      · rw [List.map_cons, run_cons]
        show run _ (removeFloorDrop s uid) _ = _
        rw [hstep, hrest.1, pushRemoves, pushRemoves, pushRemoves]
        simp only [List.map_cons, List.map_nil, List.append_assoc, List.cons_append,
          List.nil_append]
      · show Along _ _ (removeFloorDrop s uid) _
        rw [hstep]
        exact hrest.2

/-- A worker whose records all encode gives no batch up while its groups are answered. -/
theorem regular_worker (events : List Event)
    (hevents : ∀ event ∈ events, event = .pick true ∨ event = .send .answered) :
    ∀ {s : State}, s.ledger.acts.head? ≠ some .dropped →
      Along (step some) (Regular some) s events := by
  have hprepared : ∀ mutations : List OwnedMutation, (prepareBatch some mutations).2 = true := by
    intro mutations
    induction mutations with
    | nil => rfl
    | cons mutation mutations ih =>
        rw [prepareBatch]
        split
        · exact ih
        · exact ih
  induction events with
  | nil => intro s _; trivial
  | cons event events ih =>
      intro s hkept
      rw [List.forall_mem_cons] at hevents
      rcases hevents.1 with rfl | rfl
      · have hpicked : (pickJob some s true).ledger.acts.head? ≠ some .dropped := by
          rw [pickJob]
          split
          · exact hkept
          · split
            · nofun
            · rw [if_pos rfl, if_pos (hprepared _)]
              exact hkept
            · exact hkept
        exact ⟨hpicked, ih hevents.2 hpicked⟩
      · have hsent : (sendGroup s .answered).ledger.acts.head? ≠ some .dropped := by
          unfold sendGroup
          split
          · simp only [if_true]
            split
            · exact hkept
            · nofun
          · exact hkept
        exact ⟨hsent, ih hevents.2 hsent⟩

/-- Objects are dropped and then removed, and so is object 1, with no flush between the
removals. -/
def overflowEvents (uids : List Uid) : List Event :=
  dropOne ++ (uids.map (fun uid => .drop uid [1]) ++ (.flush :: (uids.map .remove ++
    [.remove 1, .flush])))

def overflowing (uids : List Uid) : State :=
  pushRemoves (flushFloorDrops (pushDrops (run (step some) ({} : State) dropOne) uids)) uids

/-- The overflow is a regular run, when the objects fit both buffers and their drops can
be queued. -/
theorem overflow_regular (uids : List Uid) (hdistinct : uids.Nodup) (hzero : 0 ∉ uids)
    (hone : 1 ∉ uids) (hsize : uids.length ≤ maxFloorDropBatch)
    (hqueued : (flushFloorDrops (pushDrops (run (step some) ({} : State) dropOne)
      uids)).pendingJobs ≠ []) :
    run (step some) ({} : State) (overflowEvents uids) =
        flushFloorDrops (removeFloorDrop (overflowing uids) 1) ∧
      Along (step some) (Regular some) ({} : State) (overflowEvents uids) := by
  have hops : (run (step some) ({} : State) dropOne).ops = [(1, some [1])] := rfl
  have hbatch : (run (step some) ({} : State) dropOne).batch = [] := rfl
  have hpending : (run (step some) ({} : State) dropOne).pendingJobs = [] := rfl
  have hfirst : Along (step some) (Regular some) ({} : State) dropOne :=
    ⟨⟨nofun, rfl⟩, trivial, nofun, nofun, trivial⟩
  unfold overflowing overflowEvents
  rw [run_append, along_append]
  generalize run (step some) ({} : State) dropOne = s at hops hbatch hpending hqueued ⊢
  have hdrops := @run_drops some uids s hdistinct hzero
    (by
      rw [hbatch, List.length_nil]
      omega)
    (by
      intro uid hmem held
      have hne : (1 : Uid) ≠ uid := by
        rintro rfl
        exact hone hmem
      rw [hops, lastWrite, lastWrite_nil, Option.none_or, if_neg hne]
      exact (Option.some_ne_none _).symm)
  have hlast : ∀ uid, uid ∈ uids ∨ uid = 1 →
      lastWrite (flushFloorDrops (pushDrops s uids)).ops uid = some (some [1]) := by
    intro uid hmem
    rw [flushFloorDrops_ops, pushDrops_ops, hops]
    have hkeys : ((1, some [1]) :: uids.map fun uid => ((uid, some [1]) : Write)).map
        Prod.fst = 1 :: uids := by
      rw [List.map_cons, List.map_map]
      exact congrArg _ (List.map_id _)
    refine lastWrite_of_mem ?_ ?_
    · rw [List.singleton_append, hkeys]
      exact List.nodup_cons.mpr ⟨hone, hdistinct⟩
    · rcases hmem with hmem | rfl
      · exact List.mem_append_right _ (List.mem_map.mpr ⟨uid, hmem, rfl⟩)
      · exact List.mem_append_left _ List.mem_cons_self
  have hflushed : (flushFloorDrops (pushDrops s uids)).batch = [] ∧
      (flushFloorDrops (pushDrops s uids)).removes = [] := by
    rcases flushFloorDrops_cases (pushDrops s uids) with heq | heq
    · rw [heq] at hqueued
      exact absurd hpending hqueued
    · rw [heq]
      exact ⟨rfl, rfl⟩
  have hremoves := @run_removes some uids (flushFloorDrops (pushDrops s uids)) hdistinct hzero
    hflushed.1
    (by
      rw [hflushed.2, List.length_nil]
      omega)
    (fun uid hmem => ⟨[1], hlast uid (.inl hmem)⟩)
  rw [run_append, along_append, hdrops.1, run_cons]
  refine ⟨?_, hfirst, hdrops.2, trivial, ?_⟩
  · show run _ (flushFloorDrops _) _ = _
    rw [run_append, hremoves.1]
    rfl
  · show Along _ _ (flushFloorDrops _) _
    rw [along_append, hremoves.1]
    refine ⟨hremoves.2, ⟨[1], ?_⟩, trivial, trivial⟩
    have hunmoved : lastWrite (uids.map fun uid => ((uid, none) : Write)) 1 = none := by
      rw [lastWrite_eq_none, List.map_map]
      exact fun hmem => hone (by rwa [← List.map_id uids])
    rw [pushRemoves_ops, lastWrite_append, hunmoved, Option.none_or, hlast 1 (.inr rfl)]

/-- As many objects as the list of removals takes. -/
def crowd : List Uid := (List.range 1024).map fun k => BitVec.ofNat 64 (k + 2)

theorem crowd_distinct : crowd.Nodup ∧ 0 ∉ crowd ∧ 1 ∉ crowd := by
  have hvalue : ∀ k ∈ List.range 1024, (BitVec.ofNat 64 (k + 2)).toNat = k + 2 := by
    intro k hk
    rw [List.mem_range] at hk
    rw [BitVec.toNat_ofNat]
    exact Nat.mod_eq_of_lt (by omega)
  refine ⟨List.Nodup.map_on ?_ List.nodup_range, ?_, ?_⟩
  · intro a ha b hb heq
    have := congrArg BitVec.toNat heq
    rw [hvalue a ha, hvalue b hb] at this
    omega
  · intro hmem
    obtain ⟨k, hk, heq⟩ := List.mem_map.mp hmem
    have := congrArg BitVec.toNat heq
    rw [hvalue k hk] at this
    cases this
  · intro hmem
    obtain ⟨k, hk, heq⟩ := List.mem_map.mp hmem
    have := congrArg BitVec.toNat heq
    rw [hvalue k hk] at this
    cases this

def sendCrowd : List Event := .pick true :: List.replicate 16 (.send .answered)

/-- The worker has nothing left to do and the hash holds object 1, which is gone. -/
def holdsGone (s : State) : Bool :=
  s.pendingJobs.isEmpty &&
    (match s.phase with
      | .waiting => true
      | .executing _ => false) &&
    s.hash 1 == some [1] && applyWrites s.sinceClearing (fun _ => none) 1 == none

theorem holdsGone_not_netEffect {s : State} (hgone : holdsGone s = true) :
    Executed s ∧ ¬ NetEffect some s := by
  unfold holdsGone at hgone
  simp only [Bool.and_eq_true, List.isEmpty_iff, beq_iff_eq] at hgone
  obtain ⟨⟨⟨hpending, hphase⟩, hhash⟩, hnone⟩ := hgone
  refine ⟨⟨by rw [hpending]; nofun, ?_⟩, fun hnet => ?_⟩
  · cases hwaiting : s.phase with
    | waiting => trivial
    | executing _ =>
        rw [hwaiting] at hphase
        cases hphase
  · have hone := (hnet 1).1
    rw [hhash, hnone] at hone
    cases hone

theorem sendCrowd_worker :
    ∀ event ∈ sendCrowd ++ sendCrowd, event = .pick true ∨ event = .send .answered := by
  intro event hevent
  have hcrowd : event ∈ sendCrowd := (List.mem_append.mp hevent).elim id id
  rcases List.mem_cons.mp hcrowd with rfl | hmem
  · exact .inl rfl
  · exact .inr (List.eq_of_mem_replicate hmem)

/-- After 1025 removals without a flush the hash holds an object that is gone, although the
worker has executed all that was flushed. -/
theorem overflow_not_netEffect :
    ¬ ∀ (encode : Bytes → Option Bytes) (events : List Event),
      Along (step encode) (Regular encode) ({} : State) events →
        Executed (run (step encode) ({} : State) events) →
        NetEffect encode (run (step encode) ({} : State) events) := by
  intro h
  obtain ⟨hdistinct, hzero, hone⟩ := crowd_distinct
  have hsize : crowd.length ≤ maxFloorDropBatch := by
    rw [crowd, List.length_map, List.length_range]
    exact Nat.le_refl 1024
  have hqueued : (flushFloorDrops (pushDrops (run (step some) ({} : State) dropOne)
      crowd)).pendingJobs ≠ [] := by
    rw [← List.isEmpty_eq_false_iff]
    decide +kernel
  obtain ⟨hrun, hregular⟩ := overflow_regular crowd hdistinct hzero hone hsize hqueued
  have hkept : (flushFloorDrops (removeFloorDrop (overflowing crowd) 1)).ledger.acts.head? ≠
      some .dropped := by decide +kernel
  have hgone : holdsGone (run (step some)
      (flushFloorDrops (removeFloorDrop (overflowing crowd) 1)) (sendCrowd ++ sendCrowd)) =
        true := by decide +kernel
  have hworker := sendCrowd_worker
  generalize sendCrowd ++ sendCrowd = worker at hgone hworker
  rw [← hrun, ← run_append] at hgone
  rw [← hrun] at hkept
  have hmoves := (along_append _ _ _).mpr ⟨hregular, regular_worker worker hworker hkept⟩
  obtain ⟨hexecuted, hstale⟩ := holdsGone_not_netEffect hgone
  exact hstale (h some _ hmoves hexecuted)

end Duris.Redis.Floor
