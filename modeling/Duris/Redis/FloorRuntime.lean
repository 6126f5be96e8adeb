import Duris.Redis.FloorStore
import Duris.World.FloorRecord

/-!
# The floor log of the game

`src/redis/redis_floor_runtime.c` with its switches, over the store of
`src/redis/redis_floor_store.c` with its start and its stop. `FloorStore` has the buffers,
the queue and the worker of a runtime that is enabled and a store that accepts; here both
can be otherwise. A drop is an object with its contents, and `lookup` is the ownership
mirror at that time.

The keys are set or they are not. The buffers hold both without loss, the two differ in
their suffix, so the store never refuses them.
-/

namespace Duris.Redis.Floor

open World (FloorObject writeObjectRecord)

def floorDropRecordMaxBytes : Nat :=
  World.objectRecordBytes + World.worldRecoveryMaxItemTree * World.itemSnapshotBytes

def corpseVnum : BitVec 32 := 2
def corpseLogSeconds : Int := 86400

structure Runtime where
  pwipe : Bool := false
  enabled : Bool := false
  quiesced : Bool := false
  materializing : Bool := false
  keysSet : Bool := false
  initialized : Bool := false
  accepting : Bool := false
  floor : State := {}

namespace Runtime

/-- What `redis_floor_store_init` and `stop_worker` clear. -/
def clearStore (s : State) : State :=
  { s with
    pendingJobs := [], pendingBytes := 0, phase := .waiting, paused := false
    barrierRequested := false, barrierReady := false }

/-- `redis_floor_store_init`, which may fail to start its thread. -/
def storeInit (s : Runtime) (started : Bool) : Runtime :=
  if s.initialized then s
  else
    { s with
      initialized := started
      accepting := started
      floor := { clearStore s.floor with
        barrierSucceeded := false, failureBeforeBarrier := false } }

/-- `redis_floor_store_shutdown`, up to its drain. -/
def storeClose (s : Runtime) : Runtime :=
  if !s.initialized then s
  else if s.floor.paused then
    { s with
      accepting := false, floor := { s.floor with paused := false, barrierRequested := false } }
  else { s with accepting := false }

/-- `stop_worker`, at the end of a shutdown or of a cancellation. -/
def storeStop (s : Runtime) : Runtime :=
  if !s.initialized then s
  else { s with initialized := false, accepting := false, floor := clearStore s.floor }

def storeSubmit (s : Runtime) (writes : List Write) : Option State :=
  if !s.initialized ∨ !s.accepting then none else submit s.floor s.floor.ledger.buffered writes

def storeRequestBarrier (s : Runtime) : Bool × Runtime :=
  if !s.initialized ∨ !s.accepting then (false, s)
  else if s.floor.barrierRequested then (true, s)
  else if redisFloorQueueCapacity ≤ s.floor.pendingJobs.length then (false, s)
  else (true, { s with floor := requestBarrier s.floor })

def storeResume (s : Runtime) : Runtime :=
  if !s.initialized ∨ !s.floor.barrierRequested then s else { s with floor := resume s.floor }

/-- The worker takes up the front job; while the store closes a barrier is only removed. -/
def storePick (encode : Bytes → Option Bytes) (s : Runtime) (connected : Bool) : Runtime :=
  match s.floor.phase, s.floor.pendingJobs with
  | .waiting, .barrier :: rest =>
      if !s.floor.paused ∧ !s.accepting then
        { s with floor := { s.floor with pendingJobs := rest, barrierRequested := false } }
      else { s with floor := pickJob encode s.floor connected }
  | _, _ => { s with floor := pickJob encode s.floor connected }

/-- `redis_floor_runtime_configure`, behind which both keys stand or do not. -/
def configure (s : Runtime) (keysSet : Bool) : Runtime := { s with enabled := false, keysSet }

def reset (s : Runtime) : Runtime :=
  { s with
    enabled := false, quiesced := false, materializing := false, keysSet := false
    floor := { s.floor with batch := [], removes := [] } }

def flushDrops (s : Runtime) : Bool × Runtime :=
  if !s.enabled ∨ s.quiesced then (true, s)
  else if !s.initialized ∨ !s.keysSet then (false, s)
  else if s.floor.batch.length = 0 ∧ s.floor.removes.length = 0 then (true, s)
  else
    match s.storeSubmit (flushWrites s.floor.removes s.floor.batch) with
    | none => (false, s)
    | some floor =>
        (true, { s with
          floor :=
            { floor with
              batch := [], removes := [], ledger := { floor.ledger with buffered := [] } } })

def corpseTooOld (object : FloorObject) (now : Int) : Bool :=
  object.data.vnum = corpseVnum ∧ 0 < (object.data.values.getD 6 0).toInt ∧
    corpseLogSeconds < now - (object.data.values.getD 6 0).toInt

/-- The entry `redis_log_floor_drop` adds, if there is room and the object has a record. -/
def pushDrop (s : Runtime) (lookup : BitVec 64 → Option Item.OwnershipEntry)
    (object : FloorObject) (room : BitVec 32) : Runtime :=
  if maxFloorDropBatch ≤ s.floor.batch.length then s
  else
    match writeObjectRecord lookup object room floorDropRecordMaxBytes with
    | none => s
    | some record =>
        { s with
          floor :=
            { s.floor with
              batch := s.floor.batch ++ [(object.uid, record)]
              ledger := { s.floor.ledger with
                buffered := s.floor.ledger.buffered ++ [(object.uid, some record)] } } }

def logDrop (s : Runtime) (lookup : BitVec 64 → Option Item.OwnershipEntry)
    (object : FloorObject) (room : BitVec 32) (now : Int) : Runtime :=
  if s.pwipe then s
  else if !s.enabled ∨ s.quiesced ∨ object.uid = 0 then s
  else if corpseTooOld object now then s
  else
    let s := if maxFloorDropBatch ≤ s.floor.batch.length then s.flushDrops.2 else s
    s.pushDrop lookup object room

def removeDrop (s : Runtime) (uid : Uid) : Runtime :=
  if !s.enabled ∨ s.quiesced ∨ s.materializing ∨ uid = 0 then s
  else { s with floor := removeFloorDrop s.floor uid }

/-- The end of `redis_save_world_state`: a capture needs a flush and then a barrier. -/
def requestCapture (s : Runtime) : Bool × Runtime :=
  match s.flushDrops with
  | (false, s) => (false, s)
  | (true, s) => s.storeRequestBarrier

inductive Event where
  | setPwipe (pwipe : Bool)
  | configure (keysSet : Bool)
  | reset
  | setEnabled (enabled : Bool)
  | setQuiesced (quiesced : Bool)
  | setMaterializing (active : Bool)
  | drop (lookup : BitVec 64 → Option Item.OwnershipEntry) (object : FloorObject)
      (room : BitVec 32) (now : Int)
  | remove (uid : Uid)
  | flush
  | capture
  | storeInit (started : Bool)
  | storeClose
  | storeStop
  | takeBarrier
  | resume
  | publish
  | pick (connected : Bool)
  | send (answer : Answer)

def step (encode : Bytes → Option Bytes) (s : Runtime) : Event → Runtime
  | .setPwipe pwipe => { s with pwipe }
  | .configure keysSet => s.configure keysSet
  | .reset => s.reset
  | .setEnabled enabled => { s with enabled }
  | .setQuiesced quiesced => { s with quiesced }
  | .setMaterializing active => { s with materializing := active }
  | .drop lookup object room now => s.logDrop lookup object room now
  | .remove uid => s.removeDrop uid
  | .flush => s.flushDrops.2
  | .capture => s.requestCapture.2
  | .storeInit started => s.storeInit started
  | .storeClose => s.storeClose
  | .storeStop => s.storeStop
  | .takeBarrier => { s with floor := Floor.takeBarrier s.floor }
  | .resume => s.storeResume
  | .publish => { s with floor := Floor.publish s.floor }
  | .pick connected => s.storePick encode connected
  | .send answer => { s with floor := sendGroup s.floor answer }

end Runtime

end Duris.Redis.Floor
