import Duris.Redis.FloorRuntime
import Duris.Proofs.FloorRecord
import Duris.Proofs.FloorStore

/-!
# When the floor log can be flushed

The buffers hold up to `MAX_FLOOR_DROP_BATCH` drops of up to `WORLD_RECOVERY_MAX_ITEM_TREE`
items each, and a flush offers them to the queue as one batch. The count of a batch is
within the bound of the store for every content of the buffers, the size of each record is
within its bound as well, but the size of the batch need not be within the bound of the
queue. A refused batch stays in the buffers, so it is refused again.
-/

namespace Duris.Redis.Floor

open World (FloorObject writeObjectRecord writeObjectRecord_length)

/-! ## What the buffers hold -/

def bufferedBytes (s : State) : Nat :=
  (s.batch.map fun drop => drop.2.length + worldRecoveryFloorPrefixBytes).sum

def TreeRecord (record : Bytes) : Prop :=
  ∃ count, 0 < count ∧ count ≤ World.worldRecoveryMaxItemTree ∧
    record.length = World.objectRecordBytes + count * World.itemSnapshotBytes

structure Buffered (s : State) : Prop where
  batch_le : s.batch.length ≤ maxFloorDropBatch
  removes_le : s.removes.length ≤ maxFloorDropBatch
  removes_uid : ∀ uid ∈ s.removes, uid ≠ 0
  drops : ∀ drop ∈ s.batch, drop.1 ≠ 0 ∧ TreeRecord drop.2
  booked : s.pendingBytes = (s.pendingJobs.map FloorJob.bytes).sum

theorem TreeRecord.valid {record : Bytes} (h : TreeRecord record) {uid : Uid} (huid : uid ≠ 0) :
    mutationValid (uid, some record) = true := by
  obtain ⟨count, hpos, hcount, hlength⟩ := h
  have hbounded : record.length ≤ redisFloorValueMaxBytes := by
    rw [hlength, World.objectRecordBytes, World.itemSnapshotBytes, redisFloorValueMaxBytes]
    rw [World.worldRecoveryMaxItemTree] at hcount
    omega
  have hne : record ≠ [] := by
    rw [← List.length_pos_iff, hlength, World.objectRecordBytes]
    omega
  simpa [mutationValid, hne, hbounded] using huid

namespace Buffered

variable {s : State}

theorem all_valid (h : Buffered s) : (flushWrites s.removes s.batch).all mutationValid = true := by
  rw [List.all_eq_true]
  intro write hwrite
  rcases List.mem_append.mp hwrite with hremove | hdrop
  · obtain ⟨uid, huid, rfl⟩ := List.mem_map.mp hremove
    simpa [mutationValid] using h.removes_uid uid huid
  · obtain ⟨drop, hmem, rfl⟩ := List.mem_map.mp hdrop
    obtain ⟨huid, hrecord⟩ := h.drops drop hmem
    exact hrecord.valid huid

theorem length_le (h : Buffered s) :
    (flushWrites s.removes s.batch).length ≤ redisFloorBatchCapacity := by
  have hbatch := h.batch_le
  have hremoves := h.removes_le
  rw [maxFloorDropBatch] at hbatch hremoves
  rw [flushWrites, List.length_append, List.length_map, List.length_map, redisFloorBatchCapacity]
  omega

end Buffered

theorem flushWrites_bytes (removes : List Uid) (batch : List (Uid × Bytes)) :
    ((flushWrites removes batch).map mutationBytes).sum =
      (batch.map fun drop => drop.2.length + worldRecoveryFloorPrefixBytes).sum := by
  have hremoves : (removes.map fun uid => mutationBytes (uid, none)).sum = 0 := by
    induction removes with
    | nil => rfl
    | cons uid removes ih =>
        rw [List.map_cons, List.sum_cons, ih]
        rfl
  rw [flushWrites, List.map_append, List.sum_append, List.map_map, List.map_map]
  exact (congrArg (· + _) hremoves).trans (Nat.zero_add _)

theorem flushWrites_eq_nil {removes : List Uid} {batch : List (Uid × Bytes)} :
    flushWrites removes batch = [] ↔ batch = [] ∧ removes = [] := by
  rw [flushWrites, List.append_eq_nil_iff, List.map_eq_nil_iff, List.map_eq_nil_iff, and_comm]

theorem Buffered.submit_eq {s : State} (h : Buffered s) (hsome : ¬(s.batch = [] ∧ s.removes = []))
    (ops : List Write) :
    (submit s ops (flushWrites s.removes s.batch)).isSome = true ↔
      s.pendingJobs.length < redisFloorQueueCapacity ∧
        bufferedBytes s ≤ redisFloorQueueMaxBytes - s.pendingBytes := by
  have hvalid : ¬(flushWrites s.removes s.batch = [] ∨
      redisFloorBatchCapacity < (flushWrites s.removes s.batch).length ∨
        (!(flushWrites s.removes s.batch).all mutationValid) = true) := by
    rw [flushWrites_eq_nil, h.all_valid]
    have hlength := h.length_le
    rintro (hnone | hlong | hinvalid)
    · exact hsome hnone
    · omega
    · cases hinvalid
  rw [submit, if_neg hvalid]
  dsimp only
  rw [flushWrites_bytes]
  split
  · next hrefused =>
    refine ⟨fun haccepted => absurd haccepted Bool.false_ne_true, fun hroom => ?_⟩
    rw [bufferedBytes] at hroom
    omega
  · next haccepted =>
    refine ⟨fun _ => ?_, fun _ => rfl⟩
    rw [bufferedBytes]
    omega

/-! ## The store keeps its books -/

section

variable {encode : Bytes → Option Bytes} {s : State}

variable {s' : State} {rest : List FloorJob}

section

variable (h : Buffered s)

include h

theorem Buffered.store (hbatch : s'.batch = s.batch)
    (hremoves : s'.removes = s.removes)
    (hbooked : s'.pendingBytes = (s'.pendingJobs.map FloorJob.bytes).sum) : Buffered s' where
  batch_le := hbatch ▸ h.batch_le
  removes_le := hremoves ▸ h.removes_le
  removes_uid := hremoves ▸ h.removes_uid
  drops := hbatch ▸ h.drops
  booked := hbooked

theorem Buffered.popped (hbatch : s'.batch = s.batch)
    (hremoves : s'.removes = s.removes) {job : FloorJob} (hjobs : s.pendingJobs = job :: rest)
    (hrest : s'.pendingJobs = rest) (hbytes : s'.pendingBytes = s.pendingBytes - job.bytes) :
    Buffered s' := by
  refine h.store hbatch hremoves ?_
  rw [hbytes, h.booked, hjobs, hrest, List.map_cons, List.sum_cons, Nat.add_sub_cancel_left]

theorem Buffered.replaced (hbatch : s'.batch = s.batch)
    (hremoves : s'.removes = s.removes) {job job' : FloorJob} (hjobs : s.pendingJobs = job :: rest)
    (hjobs' : s'.pendingJobs = job' :: rest) (hsame : job'.bytes = job.bytes)
    (hbytes : s'.pendingBytes = s.pendingBytes) : Buffered s' := by
  refine h.store hbatch hremoves ?_
  rw [hbytes, h.booked, hjobs, hjobs', List.map_cons, List.map_cons, hsame]

theorem Buffered.batchFailed {mutations mutations' : List OwnedMutation}
    {bytes attempts : Nat} {entry : LogEntry}
    (hjobs : s.pendingJobs = .batch mutations bytes attempts entry :: rest) :
    Buffered (batchFailed s mutations' bytes attempts entry rest) := by
  rw [Floor.batchFailed]
  split
  · exact h.popped rfl rfl hjobs rfl rfl
  · exact h.replaced rfl rfl hjobs rfl rfl rfl

theorem Buffered.pickJob (connected : Bool) :
    Buffered (pickJob encode s connected) := by
  rw [Floor.pickJob]
  split
  · exact h
  · split
    · next rest hphase hjobs => exact h.popped rfl rfl hjobs rfl rfl
    · next mutations bytes attempts entry rest hphase hjobs =>
      split
      · split
        · exact h.replaced rfl rfl hjobs rfl rfl rfl
        · exact h.batchFailed hjobs
      · exact h
    · exact h

theorem Buffered.sendGroup (answer : Answer) :
    Buffered (sendGroup s answer) := by
  rw [Floor.sendGroup]
  split
  · next first mutations bytes attempts entry rest hphase hjobs =>
    have hsent : ∀ t : State, t = (if answer.executed then
        executeGroup s ((mutations.drop first).take (groupCount 0 0 (mutations.drop first)))
        else s) → Buffered t ∧ t.pendingJobs = s.pendingJobs := by
      rintro t rfl
      split
      · exact ⟨h.store rfl rfl h.booked, rfl⟩
      · exact ⟨h, rfl⟩
    obtain ⟨hbuffered, hsame⟩ := hsent _ rfl
    have hjobs' := hsame.trans hjobs
    dsimp only
    split
    · split
      · exact hbuffered.store rfl rfl hbuffered.booked
      · exact hbuffered.popped rfl rfl hjobs' rfl rfl
    · exact hbuffered.batchFailed hjobs'
  · exact h

theorem Buffered.requestBarrier : Buffered (requestBarrier s) := by
  rw [Floor.requestBarrier]
  split
  · exact h
  · split
    · exact h
    · refine h.store rfl rfl ?_
      rw [List.map_append, List.sum_append, ← h.booked]
      rfl

theorem Buffered.resume : Buffered (resume s) := by
  rw [Floor.resume]
  split
  · exact h.store rfl rfl h.booked
  · exact h.store rfl rfl h.booked

theorem Buffered.takeBarrier : Buffered (takeBarrier s) := by
  rw [Floor.takeBarrier]
  split
  · exact h
  · exact h.store rfl rfl h.booked

theorem Buffered.publish : Buffered (publish s) := by
  rw [Floor.publish]
  split
  · exact h.store rfl rfl h.booked
  · exact h

theorem Buffered.clearStore : Buffered (Runtime.clearStore s) :=
  h.store rfl rfl rfl

end

/-! The store leaves the drops alone. -/

theorem same_takeBarrier (s : State) : (Floor.takeBarrier s).batch = s.batch := by
  rw [Floor.takeBarrier]
  split <;> rfl

theorem same_resume (s : State) : (Floor.resume s).batch = s.batch := by
  rw [Floor.resume]
  split <;> rfl

theorem same_publish (s : State) : (Floor.publish s).batch = s.batch := by
  rw [Floor.publish]
  split <;> rfl

theorem same_batchFailed (s : State) (mutations : List OwnedMutation) (bytes attempts : Nat)
    (entry : LogEntry) (rest : List FloorJob) :
    (Floor.batchFailed s mutations bytes attempts entry rest).batch = s.batch := by
  rw [Floor.batchFailed]
  split <;> rfl

theorem same_pickJob (s : State) (connected : Bool) :
    (Floor.pickJob encode s connected).batch = s.batch := by
  rw [Floor.pickJob]
  split
  · rfl
  · split
    · rfl
    · split
      · split
        · rfl
        · exact same_batchFailed ..
      · rfl
    · rfl

theorem same_sendGroup (s : State) (answer : Answer) :
    (Floor.sendGroup s answer).batch = s.batch := by
  rw [Floor.sendGroup]
  split
  · next first mutations bytes attempts entry rest hphase hjobs =>
    have hsent : (if answer.executed then
        executeGroup s ((mutations.drop first).take (groupCount 0 0 (mutations.drop first)))
        else s).batch = s.batch := by
      split <;> rfl
    dsimp only
    split
    · split <;> exact hsent
    · exact (same_batchFailed ..).trans hsent
  · rfl

theorem Buffered.removeFloorDrop (h : Buffered s) {uid : Uid} :
    Buffered (removeFloorDrop s uid) := by
  rw [Floor.removeFloorDrop]
  split
  · exact h
  · next huid =>
    split
    · next index hindex =>
      have hlt : index < s.batch.length := (List.findIdx?_eq_some_iff_findIdx_eq.mp hindex).1
      have hperm := swapRemove_perm hlt
      have hlength := hperm.length_eq
      rw [List.length_cons] at hlength
      refine ⟨?_, h.removes_le, h.removes_uid, fun drop hdrop => ?_, h.booked⟩
      · exact Nat.le_trans (by rw [← hlength]; exact Nat.le_succ _) h.batch_le
      · exact h.drops drop (hperm.subset (List.mem_cons_of_mem _ hdrop))
    · split
      · next hroom =>
        refine ⟨h.batch_le, ?_, fun other hother => ?_, h.drops, h.booked⟩
        · rw [List.length_append, List.length_singleton]
          exact hroom
        · rcases List.mem_append.mp hother with hbefore | hnow
          · exact h.removes_uid other hbefore
          · rw [List.mem_singleton.mp hnow]
            exact huid
      · exact h.store rfl rfl h.booked

theorem Buffered.submitted (h : Buffered s) {ops writes : List Write}
    (hsubmit : submit s ops writes = some s') (ledger : Ledger) :
    Buffered { s' with batch := [], removes := [], ledger } := by
  rw [submit_eq_some hsubmit]
  refine ⟨Nat.zero_le _, Nat.zero_le _, fun _ huid => absurd huid List.not_mem_nil,
    fun _ hdrop => absurd hdrop List.not_mem_nil, ?_⟩
  rw [List.map_append, List.sum_append, ← h.booked]
  rfl

end

namespace Runtime

variable {encode : Bytes → Option Bytes} {s : Runtime}

theorem flushDrops_cases (s : Runtime) :
    s.flushDrops.2 = s ∨
      ∃ floor, s.storeSubmit (flushWrites s.floor.removes s.floor.batch) = some floor ∧
        s.flushDrops.2 = { s with
          floor :=
            { floor with
              batch := [], removes := [], ledger := { floor.ledger with buffered := [] } } } := by
  rw [flushDrops]
  split
  · exact .inl rfl
  · split
    · exact .inl rfl
    · split
      · exact .inl rfl
      · split
        · exact .inl rfl
        · next floor hsubmit => exact .inr ⟨floor, hsubmit, rfl⟩

theorem storeSubmit_eq_some {writes : List Write} {floor : State}
    (h : s.storeSubmit writes = some floor) :
    submit s.floor s.floor.ledger.buffered writes = some floor := by
  rw [storeSubmit] at h
  split at h
  · cases h
  · exact h

theorem buffered_flushDrops (h : Buffered s.floor) : Buffered s.flushDrops.2.floor := by
  rcases s.flushDrops_cases with heq | ⟨floor, hsubmit, heq⟩
  · rw [heq]
    exact h
  · rw [heq]
    exact h.submitted (storeSubmit_eq_some hsubmit) _

theorem buffered_pushDrop (h : Buffered s.floor) {object : FloorObject} (huid : object.uid ≠ 0)
    (lookup : BitVec 64 → Option Item.OwnershipEntry) (room : BitVec 32) :
    Buffered (s.pushDrop lookup object room).floor := by
  rw [pushDrop]
  split
  · exact h
  · next hroom =>
    split
    · exact h
    · next record hrecord =>
      obtain ⟨-, htree⟩ := writeObjectRecord_length hrecord
      refine ⟨?_, h.removes_le, h.removes_uid, fun drop hdrop => ?_, h.booked⟩
      · rw [List.length_append, List.length_singleton]
        exact Nat.lt_of_not_le hroom
      · rcases List.mem_append.mp hdrop with hbefore | hnow
        · exact h.drops drop hbefore
        · rw [List.mem_singleton.mp hnow]
          exact ⟨huid, htree⟩

theorem buffered_step (h : Buffered s.floor) (event : Event) :
    Buffered (s.step encode event).floor := by
  cases event with
  | setPwipe | configure | setEnabled | setQuiesced | setMaterializing => exact h
  | reset =>
      exact ⟨Nat.zero_le _, Nat.zero_le _, fun _ huid => absurd huid List.not_mem_nil,
        fun _ hdrop => absurd hdrop List.not_mem_nil, h.booked⟩
  | drop lookup object room now =>
      simp only [step, logDrop]
      split
      · exact h
      · split
        · exact h
        · next hopen =>
          have huid : object.uid ≠ 0 := fun huid => hopen (.inr (.inr huid))
          split
          · exact h
          · refine buffered_pushDrop ?_ huid lookup room
            split
            · exact buffered_flushDrops h
            · exact h
  | remove uid =>
      simp only [step, removeDrop]
      split
      · exact h
      · exact h.removeFloorDrop
  | flush => exact buffered_flushDrops h
  | capture =>
      have hflushed := buffered_flushDrops h
      simp only [step, requestCapture]
      split
      · next t heq =>
        rw [heq] at hflushed
        exact hflushed
      · next t heq =>
        rw [heq] at hflushed
        rw [storeRequestBarrier]
        split
        · exact hflushed
        · split
          · exact hflushed
          · split
            · exact hflushed
            · exact hflushed.requestBarrier
  | storeInit started =>
      simp only [step, storeInit]
      split
      · exact h
      · exact h.store rfl rfl rfl
  | storeClose =>
      simp only [step, storeClose]
      split
      · exact h
      · split
        · exact h.store rfl rfl h.booked
        · exact h
  | storeStop =>
      simp only [step, storeStop]
      split
      · exact h
      · exact h.clearStore
  | takeBarrier => exact h.takeBarrier
  | resume =>
      simp only [step, storeResume]
      split
      · exact h
      · exact h.resume
  | publish => exact h.publish
  | pick connected =>
      simp only [step, storePick]
      split
      · next rest hphase hjobs =>
        split
        · exact h.popped rfl rfl hjobs rfl rfl
        · exact h.pickJob connected
      · exact h.pickJob connected
  | send answer => exact h.sendGroup answer

theorem buffered_run (encode : Bytes → Option Bytes) (events : List Event) :
    Buffered (run (step encode) ({} : Runtime) events).floor := by
  have hempty : Buffered ({} : Runtime).floor :=
    ⟨Nat.zero_le _, Nat.zero_le _, fun _ huid => absurd huid List.not_mem_nil,
      fun _ hdrop => absurd hdrop List.not_mem_nil, rfl⟩
  exact run_invariant (P := fun s : Runtime => Buffered s.floor)
    (fun _ event h => buffered_step h event)
    events hempty

/-! ## A flush -/

/-- The flush answers true and empties both buffers. -/
def Flushes (s : Runtime) : Prop :=
  s.flushDrops.1 = true ∧ s.flushDrops.2.floor.batch = [] ∧ s.flushDrops.2.floor.removes = []

/-- The runtime is on and the buffered drops fit into the queue, or there is nothing to
flush. -/
def Flushable (s : Runtime) : Prop :=
  if s.enabled = true ∧ s.quiesced = false then
    s.keysSet = true ∧ bufferedBytes s.floor ≤ redisFloorQueueMaxBytes
  else s.floor.batch = [] ∧ s.floor.removes = []

theorem flushes_iff (h : Buffered s.floor) (hinitialized : s.initialized = true)
    (haccepting : s.accepting = true) (hempty : s.floor.pendingJobs = []) :
    Flushes s ↔ Flushable s := by
  have hbooked : s.floor.pendingBytes = 0 := by
    rw [h.booked, hempty]
    rfl
  have hsubmit : s.storeSubmit (flushWrites s.floor.removes s.floor.batch) =
      submit s.floor s.floor.ledger.buffered (flushWrites s.floor.removes s.floor.batch) := by
    rw [storeSubmit, hinitialized, haccepting]
    exact if_neg (by decide)
  rw [Flushes, Flushable, flushDrops]
  by_cases hon : s.enabled = true ∧ s.quiesced = false
  · rw [if_pos hon, if_neg (by simp [hon]), hinitialized]
    cases hkeys : s.keysSet with
    | false => simp
    | true =>
        rw [if_neg (by simp)]
        by_cases hnone : s.floor.batch = [] ∧ s.floor.removes = []
        · rw [if_pos (by simp [hnone]), bufferedBytes, hnone.1]
          exact ⟨fun _ => ⟨rfl, Nat.zero_le _⟩, fun _ => ⟨rfl, rfl, hnone.2⟩⟩
        · rw [if_neg (by simpa [List.length_eq_zero_iff] using hnone), hsubmit]
          have haccepts := h.submit_eq hnone s.floor.ledger.buffered
          rw [hempty, hbooked, List.length_nil, Nat.sub_zero] at haccepts
          cases hfloor : submit s.floor s.floor.ledger.buffered
              (flushWrites s.floor.removes s.floor.batch) with
          | none =>
              rw [hfloor] at haccepts
              refine ⟨fun hflushed => absurd hflushed.1 Bool.false_ne_true, fun hfits => ?_⟩
              exact absurd (haccepts.mpr ⟨by decide, hfits.2⟩) Bool.false_ne_true
          | some floor =>
              rw [hfloor] at haccepts
              exact ⟨fun _ => ⟨rfl, (haccepts.mp rfl).2⟩, fun _ => ⟨rfl, rfl, rfl⟩⟩
  · have hoff : !s.enabled ∨ s.quiesced := by
      cases henabled : s.enabled <;> cases hquiesced : s.quiesced <;> simp_all
    rw [if_neg hon, if_pos hoff]
    exact ⟨fun hflushed => hflushed.2, fun hnothing => ⟨rfl, hnothing⟩⟩

/-- After every run, a flush over an accepting store with an empty queue empties the buffers
exactly where the runtime is on and the drops of the batch fit into the queue together, or
where there was nothing to flush. -/
theorem floor_log_flushes_iff (encode : Bytes → Option Bytes) (events : List Event)
    {s : Runtime} (hrun : run (step encode) {} events = s) (hinitialized : s.initialized = true)
    (haccepting : s.accepting = true) (hempty : s.floor.pendingJobs = []) :
    Flushes s ↔ Flushable s := by
  subst hrun
  exact flushes_iff (buffered_run encode events) hinitialized haccepting hempty

/-! ## Buffers that no flush empties -/

/-- The runtime is on and its buffered drops exceed the whole queue. -/
structure Wedged (s : Runtime) : Prop where
  enabled : s.enabled = true
  quiesced : s.quiesced = false
  exceeds : redisFloorQueueMaxBytes < bufferedBytes s.floor

/-- The event neither switches the runtime nor takes a drop away. -/
def Event.keepsBuffers : Event → Bool
  | .reset | .configure _ | .setEnabled _ | .setQuiesced _ | .remove _ => false
  | .setPwipe _ | .setMaterializing _ | .drop .. | .flush | .capture | .storeInit _ | .storeClose
  | .storeStop | .takeBarrier | .resume | .publish | .pick _ | .send _ => true

namespace Wedged

theorem refused (h : Wedged s) (hbuffered : Buffered s.floor) : s.flushDrops = (false, s) := by
  have hsome : ¬(s.floor.batch = [] ∧ s.floor.removes = []) := by
    intro hnone
    have hexceeds := h.exceeds
    rw [bufferedBytes, hnone.1] at hexceeds
    exact absurd hexceeds (Nat.not_lt_zero _)
  have hsubmit : s.storeSubmit (flushWrites s.floor.removes s.floor.batch) = none := by
    rw [storeSubmit]
    split
    · rfl
    · rw [← Option.not_isSome_iff_eq_none, hbuffered.submit_eq hsome]
      intro hroom
      exact absurd (Nat.lt_of_lt_of_le h.exceeds hroom.2) (Nat.not_lt.mpr (Nat.sub_le _ _))
  rw [flushDrops, if_neg (by simp [h.enabled, h.quiesced])]
  split
  · rfl
  · rw [if_neg (by simpa [List.length_eq_zero_iff] using hsome), hsubmit]

theorem of_same (h : Wedged s) {s' : Runtime} (henabled : s'.enabled = s.enabled)
    (hquiesced : s'.quiesced = s.quiesced) (hbatch : s'.floor.batch = s.floor.batch) :
    Wedged s' where
  enabled := henabled.trans h.enabled
  quiesced := hquiesced.trans h.quiesced
  exceeds := by
    rw [bufferedBytes, hbatch]
    exact h.exceeds

theorem step (h : Wedged s) (hbuffered : Buffered s.floor) {event : Event}
    (hkeeps : event.keepsBuffers = true) : Wedged (s.step encode event) := by
  cases event with
  | reset | configure _ | setEnabled _ | setQuiesced _ | remove _ => cases hkeeps
  | setPwipe | setMaterializing => exact h.of_same rfl rfl rfl
  | drop lookup object room now =>
      simp only [Runtime.step, logDrop, h.refused hbuffered, ite_self]
      split
      · exact h
      · split
        · exact h
        · split
          · exact h
          · rw [pushDrop]
            split
            · exact h
            · split
              · exact h
              · refine ⟨h.enabled, h.quiesced, Nat.lt_of_lt_of_le h.exceeds ?_⟩
                rw [bufferedBytes, bufferedBytes, List.map_append, List.sum_append]
                exact Nat.le_add_right _ _
  | flush =>
      simp only [Runtime.step, h.refused hbuffered]
      exact h
  | capture =>
      simp only [Runtime.step, requestCapture, h.refused hbuffered]
      exact h
  | storeInit started =>
      simp only [Runtime.step, storeInit]
      split
      · exact h
      · exact h.of_same rfl rfl rfl
  | storeClose =>
      simp only [Runtime.step, storeClose]
      split
      · exact h
      · split <;> exact h.of_same rfl rfl rfl
  | storeStop =>
      simp only [Runtime.step, storeStop]
      split
      · exact h
      · exact h.of_same rfl rfl rfl
  | takeBarrier => exact h.of_same rfl rfl (same_takeBarrier s.floor)
  | resume =>
      simp only [Runtime.step, storeResume]
      split
      · exact h
      · exact h.of_same rfl rfl (same_resume s.floor)
  | publish => exact h.of_same rfl rfl (same_publish s.floor)
  | pick connected =>
      simp only [Runtime.step, storePick]
      split
      · split
        · exact h.of_same rfl rfl rfl
        · exact h.of_same rfl rfl (same_pickJob s.floor connected)
      · exact h.of_same rfl rfl (same_pickJob s.floor connected)
  | send answer => exact h.of_same rfl rfl (same_sendGroup s.floor answer)

end Wedged

/-! ## The runtime that is on -/

/-- The runtime and the store that `FloorStore` speaks of. -/
structure On (s : Runtime) : Prop where
  pwipe : s.pwipe = false
  enabled : s.enabled = true
  quiesced : s.quiesced = false
  keysSet : s.keysSet = true
  initialized : s.initialized = true
  accepting : s.accepting = true

theorem On.flushDrops (h : On s) :
    On s.flushDrops.2 ∧ s.flushDrops.2.floor = flushFloorDrops s.floor := by
  have hsubmit : s.storeSubmit (flushWrites s.floor.removes s.floor.batch) =
      submit s.floor s.floor.ledger.buffered (flushWrites s.floor.removes s.floor.batch) := by
    rw [storeSubmit, h.initialized, h.accepting]
    exact if_neg (by decide)
  rw [Runtime.flushDrops, if_neg (by simp [h.enabled, h.quiesced]),
    if_neg (by simp [h.initialized, h.keysSet]), hsubmit, flushFloorDrops]
  split
  · exact ⟨h, rfl⟩
  · cases submit s.floor s.floor.ledger.buffered (flushWrites s.floor.removes s.floor.batch) with
    | none => exact ⟨h, rfl⟩
    | some floor =>
        exact ⟨⟨h.pwipe, h.enabled, h.quiesced, h.keysSet, h.initialized, h.accepting⟩, rfl⟩

/-- Logging a drop is the step of `FloorStore` with the record that was written. -/
theorem On.logDrop (h : On s) {lookup : BitVec 64 → Option Item.OwnershipEntry}
    {object : FloorObject} {room : BitVec 32} {now : Int}
    (hfresh : corpseTooOld object now = false) :
    On (s.logDrop lookup object room now) ∧
      (s.logDrop lookup object room now).floor =
        logFloorDrop s.floor object.uid
          ((writeObjectRecord lookup object room floorDropRecordMaxBytes).getD []) := by
  rw [Runtime.logDrop, logFloorDrop, h.pwipe, if_neg Bool.false_ne_true]
  by_cases huid : object.uid = 0
  · rw [if_pos (.inr (.inr huid)), if_pos huid]
    exact ⟨h, rfl⟩
  · rw [if_neg (by simpa [h.enabled, h.quiesced] using huid), if_neg huid, hfresh,
      if_neg Bool.false_ne_true]
    have hpush : ∀ t : Runtime, On t → On (t.pushDrop lookup object room) ∧
        (t.pushDrop lookup object room).floor =
          (if maxFloorDropBatch ≤ t.floor.batch.length then t.floor
          else if ((writeObjectRecord lookup object room
            floorDropRecordMaxBytes).getD []).length = 0
            then t.floor
          else
            { t.floor with
              batch := t.floor.batch ++ [(object.uid,
                (writeObjectRecord lookup object room floorDropRecordMaxBytes).getD [])]
              ledger := { t.floor.ledger with
                buffered := t.floor.ledger.buffered ++ [(object.uid, some
                  ((writeObjectRecord lookup object room
                    floorDropRecordMaxBytes).getD []))] } }) := by
      intro t ht
      rw [pushDrop]
      split
      · exact ⟨ht, rfl⟩
      · cases hrecord : writeObjectRecord lookup object room floorDropRecordMaxBytes with
        | none => exact ⟨ht, rfl⟩
        | some record =>
            obtain ⟨-, count, -, -, hlength⟩ := writeObjectRecord_length hrecord
            have hsome : record.length ≠ 0 := by
              rw [hlength, World.objectRecordBytes]
              omega
            refine ⟨⟨ht.pwipe, ht.enabled, ht.quiesced, ht.keysSet, ht.initialized,
              ht.accepting⟩, ?_⟩
            rw [Option.getD_some, if_neg hsome]
    split
    · obtain ⟨hon, hfloor⟩ := h.flushDrops
      rw [← hfloor]
      exact hpush _ hon
    · exact hpush s h

/-! ## Ten full crates -/

def plainData : World.ObjectData :=
  { vnum := 1, type := 0, values := Vector.replicate 8 0, timers := Vector.replicate 6 0
    name := none, shortDescription := none, description := none, actionDescription := none
    wearFlags := 0, extraFlags := 0, antiFlags := 0, anti2Flags := 0, extra2Flags := 0, weight := 0
    material := 0, cost := 0, trapEff := 0, trapDam := 0, trapCharge := 0, trapLevel := 0
    condition := 0, craftsmanship := 0, zCord := 0, bitvectors := Vector.replicate 5 0
    affectLocations := Vector.replicate 4 0, affectModifiers := Vector.replicate 4 0 }

def plainItem (uid : Nat) : FloorObject := .mk (BitVec.ofNat 64 uid) plainData []

def crateUids (number : Nat) : List Nat :=
  (List.range 511).map fun i => 1000 * (number + 1) + i + 1

/-- A container with 511 items in it, none of which has a custody row. -/
def crate (number : Nat) : FloorObject :=
  .mk (BitVec.ofNat 64 (1000 * (number + 1))) plainData ((crateUids number).map plainItem)

def noCustody : BitVec 64 → Option Item.OwnershipEntry := fun _ => none

theorem uid_ne_zero {n : Nat} (hpos : 0 < n) (hlt : n < 2 ^ 64) : BitVec.ofNat 64 n ≠ 0 := by
  intro hzero
  have hnat : n % 2 ^ 64 = 0 := congrArg BitVec.toNat hzero
  omega

theorem captureItemTree_plain {uid root parent : BitVec 64} {capture : World.Capture}
    (huid : uid ≠ 0) (hroom : capture.items.length < World.worldRecoveryMaxItemTree)
    (contains : List FloorObject) :
    World.captureItemTree noCustody 1 root parent capture (.mk uid plainData contains) =
      World.captureContents noCustody 1 (if root = 0 then uid else root) uid
        { capture with
          items := capture.items ++
            [⟨uid, if root = 0 then uid else root, parent, 0, plainData⟩] } contains := by
  rw [World.captureItemTree, if_neg (by
    rintro (hplace | hfull | hnone | hvnum)
    · exact absurd hplace (by decide)
    · exact Nat.not_le.mpr hroom hfull
    · exact huid hnone
    · exact absurd hvnum (by decide))]
  rfl

theorem captureContents_items {root parent : BitVec 64} (hroot : root ≠ 0) :
    ∀ {uids : List Nat} {capture : World.Capture},
      (∀ uid ∈ uids, BitVec.ofNat 64 uid ≠ 0) →
      capture.items.length + uids.length ≤ World.worldRecoveryMaxItemTree →
      ∃ captured, World.captureContents noCustody 1 root parent capture (uids.map plainItem) =
          some captured ∧
        captured.items.length = capture.items.length + uids.length ∧
        captured.skip = capture.skip := by
  intro uids
  induction uids with
  | nil => exact fun _ _ => ⟨_, rfl, rfl, rfl⟩
  | cons uid uids ih =>
      intro capture huids hcount
      rw [List.length_cons] at hcount
      obtain ⟨huid, hrest⟩ := List.forall_mem_cons.mp huids
      have hroom : ¬World.worldRecoveryMaxItemTree ≤ capture.items.length := by omega
      obtain ⟨captured, hcaptured, hlength, hskip⟩ :=
        @ih { capture with
          items := capture.items ++ [⟨BitVec.ofNat 64 uid, root, parent, 0, plainData⟩] } hrest (by
            rw [List.length_append, List.length_singleton]
            omega)
      refine ⟨captured, ?_, ?_, hskip⟩
      · have hitem : World.captureItemTree noCustody 1 root parent capture (plainItem uid) =
            some { capture with
              items := capture.items ++ [⟨BitVec.ofNat 64 uid, root, parent, 0, plainData⟩] } := by
          rw [plainItem, captureItemTree_plain huid (Nat.lt_of_not_le hroom), if_neg hroot]
          rfl
        rw [List.map_cons, World.captureContents, hitem]
        exact hcaptured
      · rw [hlength, List.length_append, List.length_singleton, List.length_cons]
        omega

theorem crate_record {number : Nat} (h : number < 10) :
    ∃ record, writeObjectRecord noCustody (crate number) 1 floorDropRecordMaxBytes = some record ∧
      record.length = floorDropRecordMaxBytes := by
  have hroot : BitVec.ofNat 64 (1000 * (number + 1)) ≠ 0 := uid_ne_zero (by omega) (by omega)
  have huids : ∀ uid ∈ crateUids number, BitVec.ofNat 64 uid ≠ 0 := by
    intro uid huid
    obtain ⟨i, hi, rfl⟩ := List.mem_map.mp huid
    rw [List.mem_range] at hi
    exact uid_ne_zero (by omega) (by omega)
  have hcount : (crateUids number).length = 511 := by
    rw [crateUids, List.length_map, List.length_range]
  obtain ⟨captured, hcaptured, hlength, hskip⟩ :=
    @captureContents_items (BitVec.ofNat 64 (1000 * (number + 1)))
      (BitVec.ofNat 64 (1000 * (number + 1))) hroot _
      { items := [⟨BitVec.ofNat 64 (1000 * (number + 1)), BitVec.ofNat 64 (1000 * (number + 1)), 0,
          0, plainData⟩] } huids (by
        rw [hcount]
        exact Nat.le_refl _)
  rw [hcount, List.length_singleton] at hlength
  have htree : World.captureItemTree noCustody 1 0 0 {} (crate number) = some captured := by
    rw [crate, captureItemTree_plain hroot (by decide), if_pos rfl]
    exact hcaptured
  have hwritten : writeObjectRecord noCustody (crate number) 1 floorDropRecordMaxBytes =
      some (World.recordBytes 1 captured.items) := by
    rw [writeObjectRecord, if_neg (by decide), htree]
    simp only [hlength, hskip]
    rw [if_neg (by decide), if_neg (by decide)]
  obtain ⟨-, count, -, -, hcount⟩ := writeObjectRecord_length hwritten
  refine ⟨_, hwritten, ?_⟩
  have hbounded : World.Capture.Bounded {} :=
    ⟨Nat.zero_le _, fun _ item hitem => absurd hitem List.not_mem_nil⟩
  rw [World.recordBytes_length ((World.captureItemTree_bounded hbounded htree).1.texts hskip),
    hlength, floorDropRecordMaxBytes, World.worldRecoveryMaxItemTree]

/-- The runtime is on, nothing is queued, and so many full records are buffered. -/
structure Loaded (s : Runtime) (count : Nat) : Prop extends On s where
  jobs : s.floor.pendingJobs = []
  batch : s.floor.batch.length = count
  bytes : bufferedBytes s.floor =
    count * (floorDropRecordMaxBytes + worldRecoveryFloorPrefixBytes)

theorem Loaded.drop {count number : Nat} (h : Loaded s count) (hcount : count < maxFloorDropBatch)
    (hnumber : number < 10) :
    Loaded (s.step encode (.drop noCustody (crate number) 1 0)) (count + 1) := by
  obtain ⟨record, hrecord, hlength⟩ := crate_record hnumber
  have huid : (crate number).uid ≠ 0 := uid_ne_zero (by omega) (by omega)
  have hroom : ¬maxFloorDropBatch ≤ s.floor.batch.length := by
    rw [h.batch]
    exact Nat.not_le.mpr hcount
  obtain ⟨hon, hfloor⟩ := @On.logDrop s h.toOn noCustody (crate number) 1 0 rfl
  have hpushed : logFloorDrop s.floor (crate number).uid record =
      { s.floor with
        batch := s.floor.batch ++ [((crate number).uid, record)]
        ledger := { s.floor.ledger with
          buffered := s.floor.ledger.buffered ++ [((crate number).uid, some record)] } } := by
    rw [logFloorDrop, if_neg huid, if_neg hroom, if_neg hroom, if_neg (by rw [hlength]; decide)]
  rw [hrecord, Option.getD_some, hpushed] at hfloor
  refine ⟨hon, ?_, ?_, ?_⟩
  · exact (congrArg State.pendingJobs hfloor).trans h.jobs
  · refine (congrArg (fun floor : State => floor.batch.length) hfloor).trans ?_
    rw [List.length_append, List.length_singleton, h.batch]
  · refine (congrArg bufferedBytes hfloor).trans ?_
    rw [bufferedBytes, List.map_append, List.sum_append, Nat.succ_mul, ← h.bytes]
    simp only [List.map_cons, List.map_nil, List.sum_cons, List.sum_nil, hlength, Nat.add_zero,
      bufferedBytes]

def dropCrates (count : Nat) : List Event :=
  [.configure true, .storeInit true, .setEnabled true] ++
    (List.range count).map fun number => .drop noCustody (crate number) 1 0

theorem dropCrates_loaded (encode : Bytes → Option Bytes) {crates : Nat} (hcrates : crates ≤ 10) :
    Loaded (run (step encode) {} (dropCrates crates)) crates := by
  have hdrops : ∀ (numbers : List Nat) (t : Runtime) (count : Nat), Loaded t count →
      (∀ number ∈ numbers, number < 10) → count + numbers.length ≤ maxFloorDropBatch →
      Loaded (run (step encode) t
        (numbers.map fun number => .drop noCustody (crate number) 1 0))
          (count + numbers.length) := by
    intro numbers
    induction numbers with
    | nil => exact fun t count ht _ _ => ht
    | cons number numbers ih =>
        intro t count ht hnumbers hcount
        obtain ⟨hnumber, hrest⟩ := List.forall_mem_cons.mp hnumbers
        rw [List.length_cons] at hcount ⊢
        have hdropped : Loaded (t.step encode (.drop noCustody (crate number) 1 0)) (count + 1) :=
          ht.drop (by omega) hnumber
        have hnext := ih _ (count + 1) hdropped hrest (by omega)
        rw [List.map_cons, run_cons, Nat.add_comm numbers.length 1, ← Nat.add_assoc]
        exact hnext
  have hstart : Loaded (run (step encode) ({} : Runtime)
      [.configure true, .storeInit true, .setEnabled true]) 0 :=
    ⟨⟨rfl, rfl, rfl, rfl, rfl, rfl⟩, rfl, rfl, (Nat.zero_mul _).symm⟩
  have hloaded := hdrops (List.range crates) _ 0 hstart
    (fun number hnumber => Nat.lt_of_lt_of_le (List.mem_range.mp hnumber) hcrates) (by
      rw [List.length_range, maxFloorDropBatch]
      omega)
  rw [List.length_range, Nat.zero_add] at hloaded
  rw [dropCrates, run_append]
  exact hloaded

/-- Nine crates fit into the queue. -/
theorem nine_crates_flush : Flushes (run (step some) {} (dropCrates 9)) := by
  have hloaded : Loaded (run (step some) {} (dropCrates 9)) 9 := dropCrates_loaded some (by decide)
  refine (floor_log_flushes_iff some (dropCrates 9) rfl hloaded.initialized hloaded.accepting
    hloaded.jobs).mpr ?_
  rw [Flushable, if_pos ⟨hloaded.enabled, hloaded.quiesced⟩, hloaded.bytes]
  exact ⟨hloaded.keysSet, by decide⟩

/-- Ten do not. The queue is empty and the store accepts, the flush is refused, and so is
every later one and every world capture, until a drop is taken away or the runtime is
switched. -/
theorem ten_crates_wedge :
    (run (step some) {} (dropCrates 10)).initialized = true ∧
      (run (step some) {} (dropCrates 10)).accepting = true ∧
      (run (step some) {} (dropCrates 10)).floor.pendingJobs = [] ∧
      ¬Flushes (run (step some) {} (dropCrates 10)) ∧
      ∀ events : List Event, (∀ event ∈ events, event.keepsBuffers = true) →
        (run (step some) (run (step some) {} (dropCrates 10)) events).flushDrops.1 = false ∧
          (run (step some) (run (step some) {} (dropCrates 10)) events).requestCapture.1 =
            false := by
  have hloaded : Loaded (run (step some) {} (dropCrates 10)) 10 :=
    dropCrates_loaded some (Nat.le_refl _)
  have hbuffered := buffered_run some (dropCrates 10)
  have hwedged : Wedged (run (step some) {} (dropCrates 10)) :=
    ⟨hloaded.enabled, hloaded.quiesced, by rw [hloaded.bytes]; decide⟩
  refine ⟨hloaded.initialized, hloaded.accepting, hloaded.jobs, fun hflushes => ?_,
    fun events hevents => ?_⟩
  · have hanswer := hflushes.1
    rw [hwedged.refused hbuffered] at hanswer
    cases hanswer
  · have hend : Wedged (run (step some) (run (step some) {} (dropCrates 10)) events) ∧
        Buffered (run (step some) (run (step some) {} (dropCrates 10)) events).floor := by
      refine run_invariant_along (P := fun t : Runtime => Wedged t ∧ Buffered t.floor) ?_ events
        ⟨hwedged, hbuffered⟩ (along_of_forall (fun _ _ hkeeps => hkeeps) events _ hevents)
      exact fun t event ht hkeeps => ⟨ht.1.step ht.2 hkeeps, buffered_step ht.2 event⟩
    rw [requestCapture, hend.1.refused hend.2]
    exact ⟨rfl, rfl⟩

end Runtime

end Duris.Redis.Floor
