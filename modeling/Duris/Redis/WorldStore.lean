import Duris.Lib.Run
import Duris.Redis.WorldManifest

/-!
# Publishing world generations to Redis

The writing side of `src/redis/redis_world_store.c`, and the publisher thread of
`src/world/world_recovery_pipeline.c` that drives it. Redis is a store that executes one
command or one script at a time; the calls are sequences of commands, and a step of the
system is one command of one call, so that the calls of any number of writers interleave.
What happens to a command is the environment's: it may never be sent, be executed with
its reply lost, or be answered with an error. After the first two the connection is in
error, and hiredis sends no later command of that call.

Renewing and releasing the fence read it under `WATCH` and write in `MULTI`/`EXEC`, which
is one compare-and-write. A value written as a number is held as a number. Expiry is left
out, `loseFence` aside.

Two things are not in the source: a published upload is remembered in `published`, and
`ChangesCurrent` and `Event.writer` are there to say who changes what.
-/

namespace Duris.Redis

/-- The keys of the season. The floor keys are written by the floor worker. -/
structure Store where
  fence : Option Token := none
  current : Option Sequence := none
  timestamp : Option Int := none
  sequence : Option Sequence := none
  checksum : Option (BitVec 32) := none
  complete : Bool := false
  cleanShutdown : Option Sequence := none
  floorDrops : List (BitVec 64 × Bytes) := []
  floorDropIndex : List (BitVec 64) := []
  generation : Sequence → Option Bytes := fun _ => none
  chunk : ChunkKey → Option Bytes := fun _ => none

structure Generation where
  sequence : Sequence
  data : Bytes
  timestamp : Int
  checksum : BitVec 32

inductive Answer where
  | answered
  | unsent
  | lost
  | refused
  deriving DecidableEq

namespace Answer

def executed : Answer → Bool
  | .answered | .lost => true
  | .unsent | .refused => false

def connected : Answer → Bool
  | .answered | .refused => true
  | .unsent | .lost => false

end Answer

/-! ## Commands -/

namespace Store

/-- `SET` of one chunk. -/
def setChunk (store : Store) (key : ChunkKey) (bytes : Bytes) : Store :=
  { store with chunk := Function.update store.chunk key (some bytes) }

/-- `DEL` of a manifest. -/
def delGeneration (store : Store) (sequence : Sequence) : Store :=
  { store with generation := Function.update store.generation sequence none }

/-- How many chunks one `DEL` names. -/
def chunkBatch : Nat := 16

/-- `delete_chunk_batch`: `DEL` of the chunks from `first` on. -/
def delChunks (store : Store) (sequence : Sequence) (uploadToken : Token) (first : Nat) :
    Store :=
  { store with
    chunk := fun key =>
      if key.sequence = sequence ∧ key.uploadToken = uploadToken ∧ first ≤ key.index ∧
          key.index < first + min chunkBatch (worldGenerationMaxChunks - first) then none
      else store.chunk key }

/-- Whether `WORLD_PUBLISH_SCRIPT` returns 1. -/
def publishes (store : Store) (writer : Token) (expected : Option Sequence) : Bool :=
  store.fence == some writer && store.current == expected

/-- `WORLD_PUBLISH_SCRIPT`. -/
def publishScript (store : Store) (writer : Token) (expected : Option Sequence)
    (manifest : Bytes) (generation : Generation) : Store :=
  if store.publishes writer expected then
    { store with
      generation := Function.update store.generation generation.sequence (some manifest)
      current := some generation.sequence
      timestamp := some generation.timestamp
      sequence := some generation.sequence
      checksum := some generation.checksum
      complete := true
      floorDrops := []
      floorDropIndex := [] }
  else store

/-- Whether the script of `redis_world_store_consume_generation` returns 1. -/
def consumes (store : Store) (writer : Token) (sequence : Sequence) : Bool :=
  store.fence == some writer && store.current == some sequence

/-- The script of `redis_world_store_consume_generation`. -/
def consumeScript (store : Store) (writer : Token) (sequence : Sequence) : Store :=
  if store.consumes writer sequence then
    { store with
      current := none
      generation := Function.update store.generation sequence none
      timestamp := none
      sequence := none
      checksum := none
      complete := false
      cleanShutdown := none }
  else store

end Store

/-! ## A publish call -/

/-- Where `redis_world_store_publish_observed` is: the command it sends next. -/
inductive PublishPhase where
  | readCurrent
  | readFence (current : Option Sequence)
  | upload (previous : Option Sequence) (index : Nat)
  | evaluate (previous : Option Sequence)
  | discard (first : Nat)
  | measureManifest (previous : Sequence)
  | fetchManifest (previous : Sequence) (length : Nat)
  | dropManifest (previous : Sequence) (uploadToken : Token)
  | dropChunks (previous : Sequence) (uploadToken : Token) (first : Nat)

inductive Progress (φ : Type) where
  | running (phase : φ)
  | returned (result : Bool)

/-- The next batch of `delete_generation_artifacts`, or the end of it. -/
def nextBatch {φ : Type} (first : Nat) (phase : Nat → φ) (result : Bool) : Progress φ :=
  if first + Store.chunkBatch < worldGenerationMaxChunks then
    .running (phase (first + Store.chunkBatch))
  else .returned result

/-- After a failure on a connection that still works, or on one that does not. -/
def failed (answer : Answer) : Progress PublishPhase :=
  if answer.connected then .running (.discard 0) else .returned false

section

variable (crypto : Crypto) (config : Config)

/-- The checks `redis_world_store_publish_observed` makes before it connects. -/
def publishable (generation : Generation) : Bool :=
  generation.data ≠ [] && generation.data.length ≤ worldRecoveryMaxBytes &&
    generation.sequence ≠ 0 && 0 < generation.timestamp

/-- After the script returned 1: clean up the generation that was current, unless there
was none or it was this one. -/
def superseded (previous : Option Sequence) (generation : Generation) :
    Progress PublishPhase :=
  match previous with
  | none => .returned true
  | some previous =>
      if previous ≠ generation.sequence then .running (.measureManifest previous)
      else .returned true

/-- One command of `redis_world_store_publish_observed`. -/
def publishStep (writer : Token) (generation : Generation) (phase : PublishPhase)
    (answer : Answer) (store : Store) : Store × Progress PublishPhase :=
  match phase with
  | .readCurrent =>
      (store,
        if answer = .answered then .running (.readFence store.current) else failed answer)
  | .readFence current =>
      (store,
        if answer = .answered ∧ store.fence = some writer ∧
            (encodeManifest crypto config generation.sequence generation.data
              writer).isSome then
          .running (.upload current 0)
        else failed answer)
  | .upload previous index =>
      (if answer.executed then
          store.setChunk ⟨generation.sequence, writer, index⟩ (chunkOf generation.data index)
        else store,
        if answer = .answered then
          if index + 1 < chunkCount generation.data.length then
            .running (.upload previous (index + 1))
          else .running (.evaluate previous)
        else failed answer)
  | .evaluate previous =>
      match encodeManifest crypto config generation.sequence generation.data writer with
      | none => (store, failed answer)
      | some manifest =>
          (if answer.executed then store.publishScript writer previous manifest generation
            else store,
            if answer = .answered ∧ store.publishes writer previous then
              superseded previous generation
            else failed answer)
  | .discard first =>
      (if answer.executed then store.delChunks generation.sequence writer first else store,
        if answer.connected then nextBatch first .discard false else .returned false)
  | .measureManifest previous =>
      (store,
        match answer, store.generation previous with
        | .answered, some manifest =>
            if manifest.length = worldGenerationManifestBytes then
              .running (.fetchManifest previous manifest.length)
            else .returned true
        | _, _ => .returned true)
  | .fetchManifest previous length =>
      (store,
        match answer, store.generation previous with
        | .answered, some manifest =>
            if manifest.length = length then
              match decodeManifest crypto config previous manifest with
              | some entry => .running (.dropManifest previous entry.uploadToken)
              | none => .returned true
            else .returned true
        | _, _ => .returned true)
  | .dropManifest previous uploadToken =>
      (if answer.executed then store.delGeneration previous else store,
        if answer.connected then .running (.dropChunks previous uploadToken 0)
        else .returned true)
  | .dropChunks previous uploadToken first =>
      (if answer.executed then store.delChunks previous uploadToken first else store,
        if answer.connected then nextBatch first (.dropChunks previous uploadToken) true
        else .returned true)

/-! ## A consume call -/

/-- Where `redis_world_store_consume_generation` is. -/
inductive ConsumePhase where
  | measureManifest
  | fetchManifest (length : Nat)
  | evaluate (uploadToken : Token)
  | dropChunks (uploadToken : Token) (first : Nat)

/-- One command of `redis_world_store_consume_generation`. -/
def consumeStep (writer : Token) (sequence : Sequence) (phase : ConsumePhase)
    (answer : Answer) (store : Store) : Store × Progress ConsumePhase :=
  match phase with
  | .measureManifest =>
      (store,
        match answer, store.generation sequence with
        | .answered, some manifest =>
            if manifest.length = worldGenerationManifestBytes then
              .running (.fetchManifest manifest.length)
            else .returned false
        | _, _ => .returned false)
  | .fetchManifest length =>
      (store,
        match answer, store.generation sequence with
        | .answered, some manifest =>
            if manifest.length = length then
              match decodeManifest crypto config sequence manifest with
              | some entry => .running (.evaluate entry.uploadToken)
              | none => .returned false
            else .returned false
        | _, _ => .returned false)
  | .evaluate uploadToken =>
      (if answer.executed then store.consumeScript writer sequence else store,
        if answer = .answered ∧ store.consumes writer sequence then
          .running (.dropChunks uploadToken 0)
        else .returned false)
  | .dropChunks uploadToken first =>
      (if answer.executed then store.delChunks sequence uploadToken first else store,
        if answer.connected then nextBatch first (.dropChunks uploadToken) true
        else .returned true)

end

/-! ## The writers -/

/-- What `publisher_main` is doing: `attempts` counts the attempts that have ended. -/
inductive PublisherState where
  | idle
  | waiting (generation : Generation) (attempts : Nat)
  | attempting (generation : Generation) (attempts : Nat) (phase : PublishPhase)

def PublisherState.generation? : PublisherState → Option Generation
  | .idle => none
  | .waiting generation _ => some generation
  | .attempting generation _ _ => some generation

/-- A writer's pipeline: its sequence counter and its publisher thread. -/
structure Publisher where
  nextSequence : Sequence := 1
  state : PublisherState := .idle

def worldRecoveryMaxRetries : Nat := 3

/-- An attempt of `publisher_main` has ended. -/
def attempted (generation : Generation) (attempts : Nat) (published : Bool) : PublisherState :=
  if published then .idle
  else if attempts + 1 < worldRecoveryMaxRetries then .waiting generation (attempts + 1)
  else .idle

def Progress.publisher (generation : Generation) (attempts : Nat) :
    Progress PublishPhase → PublisherState
  | .running phase => .attempting generation attempts phase
  | .returned published => attempted generation attempts published

structure Consumer where
  writer : Token
  sequence : Sequence
  phase : ConsumePhase

def Progress.consumer (call : Consumer) : Progress ConsumePhase → Option Consumer
  | .running phase => some { call with phase := phase }
  | .returned _ => none

/-- The store, every writer's pipeline, and the consume calls in progress. -/
structure State where
  store : Store := {}
  publisher : Token → Publisher := fun _ => {}
  consumer : Nat → Option Consumer := fun _ => none
  published : Option (Token × Generation) := none

inductive Event where
  /-- A captured generation reaches the idle publisher. -/
  | capture (writer : Token) (data : Bytes) (timestamp : Int) (checksum : BitVec 32)
  | setSequenceFloor (writer : Token) (durable : Sequence)
  /-- The publisher calls publish, which connects or does not. -/
  | attempt (writer : Token) (connected : Bool)
  /-- The next command of a writer's publish call. -/
  | publish (writer : Token) (answer : Answer)
  | consume (call : Nat) (writer : Token) (sequence : Sequence)
  | consumer (call : Nat) (answer : Answer)
  | claimFence (writer : Token) (answer : Answer)
  | renewFence (writer : Token) (answer : Answer)
  | releaseFence (writer : Token) (answer : Answer)
  | loseFence
  | floorWorker (drops : List (BitVec 64 × Bytes)) (index : List (BitVec 64))

namespace State

def setPublisher (s : State) (writer : Token) (publisher : Publisher) : State :=
  { s with publisher := Function.update s.publisher writer publisher }

def setConsumer (s : State) (call : Nat) (consumer : Option Consumer) : State :=
  { s with consumer := Function.update s.consumer call consumer }

end State

variable (crypto : Crypto) (config : Config)

/-- The upload that the script of a publish call has just made current. -/
def publication (writer : Token) (generation : Generation) (phase : PublishPhase)
    (answer : Answer) (store : Store) : Option (Token × Generation) :=
  match phase with
  | .evaluate previous =>
      if answer.executed ∧ store.publishes writer previous ∧
          (encodeManifest crypto config generation.sequence generation.data writer).isSome then
        some (writer, generation)
      else none
  | _ => none

def step (s : State) : Event → State
  | .capture writer data timestamp checksum =>
      match (s.publisher writer).state with
      | .idle =>
          s.setPublisher writer
            { nextSequence := (s.publisher writer).nextSequence + 1
              state := .waiting
                ⟨(s.publisher writer).nextSequence, data, timestamp, checksum⟩ 0 }
      | _ => s
  | .setSequenceFloor writer durable =>
      match (s.publisher writer).state with
      | .idle =>
          if durable = BitVec.allOnes 64 then s
          else
            s.setPublisher writer
              { nextSequence :=
                  if (s.publisher writer).nextSequence < durable + 1 then durable + 1
                  else (s.publisher writer).nextSequence
                state := .idle }
      | _ => s
  | .attempt writer connected =>
      match (s.publisher writer).state with
      | .waiting generation attempts =>
          s.setPublisher writer
            { s.publisher writer with
              state :=
                if publishable generation ∧ connected then
                  .attempting generation attempts .readCurrent
                else attempted generation attempts false }
      | _ => s
  | .publish writer answer =>
      match (s.publisher writer).state with
      | .attempting generation attempts phase =>
          let moved := publishStep crypto config writer generation phase answer s.store
          { s.setPublisher writer
              { s.publisher writer with state := moved.2.publisher generation attempts } with
            store := moved.1
            published :=
              (publication crypto config writer generation phase answer s.store).or
                s.published }
      | _ => s
  | .consume call writer sequence =>
      if sequence = 0 then s
      else s.setConsumer call (some ⟨writer, sequence, .measureManifest⟩)
  | .consumer call answer =>
      match s.consumer call with
      | some consumer =>
          let moved := consumeStep crypto config consumer.writer consumer.sequence
            consumer.phase answer s.store
          { s.setConsumer call (moved.2.consumer consumer) with store := moved.1 }
      | none => s
  | .claimFence writer answer =>
      if answer.executed ∧ s.store.fence = none then
        { s with store := { s.store with fence := some writer } }
      else s
  | .renewFence _ _ => s
  | .releaseFence writer answer =>
      if answer.executed ∧ s.store.fence = some writer then
        { s with store := { s.store with fence := none } }
      else s
  | .loseFence => { s with store := { s.store with fence := none } }
  | .floorWorker drops index =>
      { s with store := { s.store with floorDrops := drops, floorDropIndex := index } }

/-! ## What is to hold -/

/-- The current generation reads back as the bytes whose publication made it current. -/
def Readable (s : State) : Prop :=
  ∀ sequence, s.store.current = some sequence →
    ∃ writer generation, s.published = some (writer, generation) ∧
      generation.sequence = sequence ∧
      readGeneration crypto config s.store.generation s.store.chunk sequence =
        some generation.data

def currentEntry (store : Store) : Option (Sequence × ManifestEntry) :=
  store.current.bind fun sequence =>
    (readManifest crypto config store.generation sequence).map fun entry => (sequence, entry)

def KeepsCurrentChunks (before after : Store) : Prop :=
  ∀ sequence entry, currentEntry crypto config before = some (sequence, entry) →
    ∀ index < entry.chunkCount,
      after.chunk ⟨sequence, entry.uploadToken, index⟩ =
        before.chunk ⟨sequence, entry.uploadToken, index⟩

/-- The current pointer, or the manifest it names, is not what it was. -/
def ChangesCurrent (before after : Store) : Prop :=
  after.current ≠ before.current ∨
    ∃ sequence, before.current = some sequence ∧
      after.generation sequence ≠ before.generation sequence

def State.writer (s : State) : Event → Option Token
  | .publish writer _ => some writer
  | .consumer call _ => (s.consumer call).map Consumer.writer
  | _ => none

/-- One step: the chunks of the current generation stay, and only the holder of the fence
changes the pointer or its manifest. -/
def StepSafe (s : State) (event : Event) : Prop :=
  KeepsCurrentChunks crypto config s.store (step crypto config s event).store ∧
    (ChangesCurrent s.store (step crypto config s event).store →
      ∃ writer, s.writer event = some writer ∧ s.store.fence = some writer)

/-! ## When it holds -/

/-- A publish call that has not failed yet fails here, on a connection that still works:
its command is refused, the fence is not its own, or the script finds fence or pointer
changed. -/
def TurnsBack (writer : Token) (store : Store) (answer : Answer) : PublishPhase → Prop
  | .readCurrent | .upload _ _ => answer = .refused
  | .readFence _ => answer = .refused ∨ (answer = .answered ∧ store.fence ≠ some writer)
  | .evaluate previous =>
      answer = .refused ∨ (answer = .answered ∧ store.publishes writer previous = false)
  | _ => False

/-- The pointer names this writer's upload of the sequence. -/
def OwnUploadCurrent (store : Store) (writer : Token) (sequence : Sequence) : Prop :=
  ∃ entry, currentEntry crypto config store = some (sequence, entry) ∧
    entry.uploadToken = writer

/-- The writer has chunks of the sequence in Redis that its script is still to name. -/
def Uploading (s : State) (writer : Token) (sequence : Sequence) : Prop :=
  ∃ generation attempts phase,
    (s.publisher writer).state = .attempting generation attempts phase ∧
      generation.sequence = sequence ∧
      match phase with
      | .upload _ _ | .evaluate _ => True
      | _ => False

/-- The clean-up of a superseded or consumed generation finds its chunks no longer in
use. -/
def Abandoned (s : State) (sequence : Sequence) (uploadToken : Token) : Prop :=
  ¬ OwnUploadCurrent crypto config s.store uploadToken sequence ∧
    ¬ Uploading s uploadToken sequence

/-- A publish call does not fail while its own upload is current, no clean-up reaches a
generation that is current again or being uploaded again, and a sequence counter does not
wrap. -/
def Careful (s : State) : Event → Prop
  | .capture writer _ _ _ => (s.publisher writer).nextSequence ≠ BitVec.allOnes 64
  | .publish writer answer =>
      ∀ generation attempts phase,
        (s.publisher writer).state = .attempting generation attempts phase →
        (TurnsBack writer s.store answer phase →
          ¬ OwnUploadCurrent crypto config s.store writer generation.sequence) ∧
        (∀ previous uploadToken, phase = .dropManifest previous uploadToken →
          s.store.current ≠ some previous) ∧
        (∀ previous uploadToken first, phase = .dropChunks previous uploadToken first →
          Abandoned crypto config s previous uploadToken)
  | .consumer call _ =>
      ∀ writer sequence uploadToken first,
        s.consumer call = some ⟨writer, sequence, .dropChunks uploadToken first⟩ →
        Abandoned crypto config s sequence uploadToken
  | _ => True

end Duris.Redis
