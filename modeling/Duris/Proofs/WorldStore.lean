import Duris.Lib.Sha256
import Duris.Proofs.WorldManifest
import Duris.Redis.WorldStore

/-!
# The current generation stays readable

The invariant behind `Readable`: the manifest under the current pointer and every chunk
it names are what the publication put there, every upload in progress has the chunks it
has written so far, and a call that is clearing its own failed upload is not clearing the
current one. A retry writes the bytes that are already there, because a writer gives each
sequence to one generation only.

A command that is not one of the two scripts leaves the pointer alone, and `Kept` is what
such a command must leave in place; each deletion is `Kept` for a reason of its own, which
is where the conditions of `Careful` go in. A script changes the pointer at once, for its
own upload or to nothing.
-/

namespace Duris.Redis

section

variable {crypto : Crypto} {config : Config} {store : Store} {s' : State}

/-! ## What the commands do to chunks -/

/-- The first `n` chunks of a writer's upload are in the store. -/
def HasChunks (store : Store) (writer : Token) (generation : Generation) (n : Nat) : Prop :=
  ∀ index < n,
    store.chunk ⟨generation.sequence, writer, index⟩ = some (chunkOf generation.data index)

/-- How many chunks a call in this phase has written. -/
def PublishPhase.uploaded (count : Nat) : PublishPhase → Nat
  | .upload _ index => index
  | .evaluate _ => count
  | _ => 0

@[simp] theorem uploaded_evaluate (count : Nat) (previous : Option Sequence) :
    (PublishPhase.evaluate previous).uploaded count = count := rfl

variable {generation generation' : Generation} {n attempts : Nat} {store' : Store}
  {sequence : Sequence} {s : State} {exempt : Option Token} {phase : PublishPhase}

theorem HasChunks.mono {writer : Token} {m : Nat} (h : HasChunks store writer generation n)
    (hle : m ≤ n) : HasChunks store writer generation m :=
  fun index hindex => h index (lt_of_lt_of_le hindex hle)

theorem hasChunks_zero (store : Store) (writer : Token) (generation : Generation) :
    HasChunks store writer generation 0 := fun _ hindex => absurd hindex (Nat.not_lt_zero _)

theorem HasChunks.of_chunk_eq {writer : Token} (h : HasChunks store writer generation n)
    (hchunk : store'.chunk = store.chunk) : HasChunks store' writer generation n := by
  intro index hindex
  rw [hchunk]
  exact h index hindex

theorem HasChunks.setChunk {writer writer' : Token} {index' : Nat}
    (h : HasChunks store writer generation n)
    (hagree : writer = writer' → generation.sequence = generation'.sequence →
      generation.data = generation'.data) :
    HasChunks
      (store.setChunk ⟨generation'.sequence, writer', index'⟩ (chunkOf generation'.data index'))
      writer generation n := by
  intro index hindex
  by_cases hkey : (⟨generation.sequence, writer, index⟩ : ChunkKey) =
      ⟨generation'.sequence, writer', index'⟩
  · obtain ⟨hsequence, hwriter, hindex'⟩ := ChunkKey.mk.injEq .. ▸ hkey
    show Function.update _ _ _ _ = _
    rw [hkey, Function.update_self, hagree hwriter hsequence, hindex']
  · show Function.update _ _ _ _ = _
    rw [Function.update_of_ne hkey]
    exact h index hindex

theorem HasChunks.setChunk_succ {writer : Token} (h : HasChunks store writer generation n) :
    HasChunks (store.setChunk ⟨generation.sequence, writer, n⟩ (chunkOf generation.data n))
      writer generation (n + 1) := by
  intro index hindex
  rcases Nat.lt_succ_iff_lt_or_eq.mp hindex with hlt | rfl
  · exact h.setChunk (fun _ _ => rfl) index hlt
  · show Function.update _ _ _ _ = _
    rw [Function.update_self]

theorem HasChunks.delChunks {writer uploadToken : Token} {first : Nat}
    (h : HasChunks store writer generation n)
    (hother : ¬(generation.sequence = sequence ∧ writer = uploadToken)) :
    HasChunks (store.delChunks sequence uploadToken first) writer generation n := by
  intro index hindex
  show (if _ then _ else _) = _
  rw [if_neg fun hkey => hother ⟨hkey.1, hkey.2.1⟩]
  exact h index hindex

/-! ## The invariant -/

def CurrentStored (crypto : Crypto) (config : Config) (s : State) : Prop :=
  ∀ sequence, s.store.current = some sequence →
    ∃ writer generation manifest, s.published = some (writer, generation) ∧
      generation.sequence = sequence ∧
      encodeManifest crypto config sequence generation.data writer = some manifest ∧
      s.store.generation sequence = some manifest ∧
      HasChunks s.store writer generation (chunkCount generation.data.length)

/-- What is preserved by every step that is `Careful`. -/
structure Inv (crypto : Crypto) (config : Config) (s : State) : Prop where
  current : CurrentStored crypto config s
  /-- The publication's sequence belongs to its writer, for these bytes alone. -/
  named : ∀ writer generation, s.published = some (writer, generation) →
    generation.sequence < (s.publisher writer).nextSequence ∧
      ∀ generation', (s.publisher writer).state.generation? = some generation' →
        generation'.sequence = generation.sequence → generation'.data = generation.data
  uploads : ∀ writer generation attempts phase,
    (s.publisher writer).state = .attempting generation attempts phase →
      HasChunks s.store writer generation
        (phase.uploaded (chunkCount generation.data.length))
  discards : ∀ writer generation attempts first,
    (s.publisher writer).state = .attempting generation attempts (.discard first) →
      ¬ OwnUploadCurrent crypto config s.store writer generation.sequence
  numbered : ∀ writer generation,
    (s.publisher writer).state.generation? = some generation →
      generation.sequence < (s.publisher writer).nextSequence

theorem currentEntry_congr (hcurrent : store'.current = store.current)
    (hgeneration : ∀ sequence, store.current = some sequence →
      store'.generation sequence = store.generation sequence) :
    currentEntry crypto config store' = currentEntry crypto config store := by
  rw [currentEntry, currentEntry, hcurrent]
  cases h : store.current with
  | none => rfl
  | some sequence =>
      rw [Option.bind_some, Option.bind_some, readManifest, readManifest,
        hgeneration sequence h]

theorem ownUploadCurrent_congr {writer : Token}
    (h : currentEntry crypto config store' = currentEntry crypto config store) :
    OwnUploadCurrent crypto config store' writer sequence ↔
      OwnUploadCurrent crypto config store writer sequence := by
  rw [OwnUploadCurrent, OwnUploadCurrent, h]

theorem Inv.currentEntry_eq (h : Inv crypto config s) (hcurrent : s.store.current = some sequence) :
    ∃ writer generation manifest, s.published = some (writer, generation) ∧
      generation.sequence = sequence ∧
      encodeManifest crypto config sequence generation.data writer = some manifest ∧
      currentEntry crypto config s.store =
        some (sequence, ⟨generation.data.length, chunkCount generation.data.length, writer,
          crypto.sha256 generation.data⟩) := by
  obtain ⟨writer, generation, manifest, hpublished, hsequence, hencode, hmanifest, hchunks⟩ :=
    h.current sequence hcurrent
  subst hsequence
  refine ⟨writer, generation, manifest, hpublished, rfl, hencode, ?_⟩
  rw [currentEntry, hcurrent, Option.bind_some,
    (readGeneration_stored hencode hmanifest hchunks).1, Option.map_some]

theorem Inv.of_ownUploadCurrent (h : Inv crypto config s) {writer : Token}
    (hown : OwnUploadCurrent crypto config s.store writer sequence) :
    s.store.current = some sequence ∧ ∃ generation manifest,
      s.published = some (writer, generation) ∧ generation.sequence = sequence ∧
      encodeManifest crypto config sequence generation.data writer = some manifest := by
  obtain ⟨entry, hentry, hwriter⟩ := hown
  cases hcurrent : s.store.current with
  | none => rw [currentEntry, hcurrent] at hentry; cases hentry
  | some current =>
      obtain ⟨writer', generation, manifest, hpublished, hsequence, hencode, hfound⟩ :=
        h.currentEntry_eq hcurrent
      rw [hfound] at hentry
      obtain ⟨rfl, rfl⟩ := Prod.mk.injEq .. ▸ Option.some.inj hentry
      subst hwriter
      exact ⟨rfl, generation, manifest, hpublished, hsequence, hencode⟩

theorem Inv.encodes (h : Inv crypto config s) {writer : Token}
    (hstate : (s.publisher writer).state.generation? = some generation)
    (hown : OwnUploadCurrent crypto config s.store writer generation.sequence) :
    (encodeManifest crypto config generation.sequence generation.data writer).isSome := by
  obtain ⟨-, generation', manifest, hpublished, hsequence, hencode⟩ := h.of_ownUploadCurrent hown
  rw [(h.named writer generation' hpublished).2 generation hstate hsequence.symm, hencode]
  rfl

theorem Inv.readable (h : Inv crypto config s) : Readable crypto config s := by
  intro sequence hcurrent
  obtain ⟨writer, generation, manifest, hpublished, hsequence, hencode, hmanifest, hchunks⟩ :=
    h.current sequence hcurrent
  subst hsequence
  exact ⟨writer, generation, hpublished, rfl,
    (readGeneration_stored hencode hmanifest hchunks).2⟩

/-! ## Steps that leave the pointer alone -/

/-- A command other than the scripts: the pointer and its manifest stay, and so do the
chunks of the current generation and of every upload in progress, `exempt`'s apart. -/
structure Kept (s : State) (exempt : Option Token) (store' : Store) : Prop where
  current : store'.current = s.store.current
  generation : ∀ sequence, s.store.current = some sequence →
    store'.generation sequence = s.store.generation sequence
  published : ∀ writer generation n, s.published = some (writer, generation) →
    s.store.current = some generation.sequence → HasChunks s.store writer generation n →
    HasChunks store' writer generation n
  uploads : ∀ writer generation attempts phase count, some writer ≠ exempt →
    (s.publisher writer).state = .attempting generation attempts phase →
    HasChunks s.store writer generation (phase.uploaded count) →
    HasChunks store' writer generation (phase.uploaded count)

theorem Kept.refl : Kept s exempt s.store :=
  ⟨rfl, fun _ _ => rfl, fun _ _ _ _ _ h => h, fun _ _ _ _ _ _ _ h => h⟩

theorem Kept.of_eq (hcurrent : store'.current = s.store.current)
    (hgeneration : store'.generation = s.store.generation) (hchunk : store'.chunk = s.store.chunk) :
    Kept s exempt store' :=
  ⟨hcurrent, fun _ _ => by rw [hgeneration], fun _ _ _ _ _ h => h.of_chunk_eq hchunk,
    fun _ _ _ _ _ _ _ h => h.of_chunk_eq hchunk⟩

theorem Kept.ite {executed : Prop} [Decidable executed] (h : executed → Kept s exempt store') :
    Kept s exempt (if executed then store' else s.store) := by
  split
  · next hexecuted => exact h hexecuted
  · exact .refl

theorem Kept.setChunk (hinv : Inv crypto config s) {writer : Token}
    (hstate : (s.publisher writer).state = .attempting generation attempts phase) (index : Nat) :
    Kept s (some writer)
      (s.store.setChunk ⟨generation.sequence, writer, index⟩
        (chunkOf generation.data index)) where
  current := rfl
  generation _ _ := rfl
  published := by
    intro writer' generation' n hpublished _ hchunks
    refine hchunks.setChunk fun hwriter hsequence => ?_
    subst hwriter
    have hat : (s.publisher writer').state.generation? = some generation := by
      rw [hstate]
      rfl
    exact ((hinv.named writer' generation' hpublished).2 generation hat hsequence.symm).symm
  uploads := by
    intro writer' generation' attempts' phase' count hne _ hchunks
    exact hchunks.setChunk fun hwriter _ => absurd (congrArg some hwriter) hne

/-- Deleting chunks of an upload that is neither current nor, `exempt` apart, going on. -/
theorem Kept.delChunks (hinv : Inv crypto config s) {uploadToken : Token} (first : Nat)
    (hnotown : ¬ OwnUploadCurrent crypto config s.store uploadToken sequence)
    (hnotuploading : some uploadToken ≠ exempt → ¬ Uploading s uploadToken sequence) :
    Kept s exempt (s.store.delChunks sequence uploadToken first) where
  current := rfl
  generation _ _ := rfl
  published := by
    intro writer generation n hpublished hcurrent hchunks
    refine hchunks.delChunks ?_
    rintro ⟨rfl, rfl⟩
    obtain ⟨writer', generation', manifest, hpublished', -, -, hentry⟩ :=
      hinv.currentEntry_eq hcurrent
    rw [hpublished] at hpublished'
    obtain ⟨rfl, rfl⟩ := Prod.mk.injEq .. ▸ Option.some.inj hpublished'
    exact hnotown ⟨_, hentry, rfl⟩
  uploads := by
    intro writer generation attempts phase count hne hstate hchunks
    cases phase with
    | upload previous index =>
        refine hchunks.delChunks ?_
        rintro ⟨rfl, rfl⟩
        exact hnotuploading hne ⟨generation, attempts, _, hstate, rfl, trivial⟩
    | evaluate previous =>
        refine hchunks.delChunks ?_
        rintro ⟨rfl, rfl⟩
        exact hnotuploading hne ⟨generation, attempts, _, hstate, rfl, trivial⟩
    | _ => exact hasChunks_zero _ _ _

theorem Kept.delGeneration (hother : s.store.current ≠ some sequence) :
    Kept s exempt (s.store.delGeneration sequence) where
  current := rfl
  generation := by
    intro sequence' hcurrent
    refine Function.update_of_ne ?_ _ _
    rintro rfl
    exact hother hcurrent
  published _ _ _ _ _ h := h.of_chunk_eq rfl
  uploads _ _ _ _ _ _ _ h := h.of_chunk_eq rfl

theorem Kept.currentEntry (h : Kept s exempt store') :
    currentEntry crypto config store' = Redis.currentEntry crypto config s.store :=
  currentEntry_congr h.current h.generation

theorem Kept.currentStored (hinv : Inv crypto config s) (h : Kept s exempt store')
    (hstore : s'.store = store') (hpublished : s'.published = s.published) :
    CurrentStored crypto config s' := by
  intro sequence hcurrent
  rw [hstore, h.current] at hcurrent
  obtain ⟨writer, generation, manifest, hpub, hsequence, hencode, hmanifest, hchunks⟩ :=
    hinv.current sequence hcurrent
  subst hsequence
  refine ⟨writer, generation, manifest, hpublished ▸ hpub, rfl, hencode, ?_, ?_⟩
  · rw [hstore, h.generation _ hcurrent, hmanifest]
  · rw [hstore]
    exact h.published writer generation _ hpub hcurrent hchunks

theorem Inv.of_kept (hinv : Inv crypto config s) (h : Kept s none s'.store)
    (hpublisher : s'.publisher = s.publisher) (hpublished : s'.published = s.published) :
    Inv crypto config s' where
  current := h.currentStored hinv rfl hpublished
  named := by
    rw [hpublisher, hpublished]
    exact hinv.named
  uploads := by
    rw [hpublisher]
    intro writer generation attempts phase hstate
    exact h.uploads writer generation attempts phase _ (by simp) hstate
      (hinv.uploads writer generation attempts phase hstate)
  discards := by
    rw [hpublisher]
    intro writer generation attempts first hstate
    rw [ownUploadCurrent_congr h.currentEntry]
    exact hinv.discards writer generation attempts first hstate
  numbered := by
    rw [hpublisher]
    exact hinv.numbered

/-! ## A publish call -/

theorem failed_eq_running {answer : Answer} (h : failed answer = .running phase) :
    phase = .discard 0 ∧ answer.connected := by
  unfold failed at h
  split at h
  · next hconnected =>
      cases h
      exact ⟨rfl, hconnected⟩
  · cases h

theorem Answer.refused_of_connected {answer : Answer} (hconnected : answer.connected)
    (h : answer ≠ .answered) : answer = .refused := by
  cases answer with
  | answered => exact absurd rfl h
  | refused => rfl
  | unsent => cases hconnected
  | lost => cases hconnected

theorem nextBatch_eq_running {φ : Type} {first : Nat} {make : Nat → φ} {result : Bool}
    {phase : φ} (h : nextBatch first make result = .running phase) :
    phase = make (first + Store.chunkBatch) := by
  unfold nextBatch at h
  split at h
  · cases h
    rfl
  · cases h

/-- Where the call goes on it relies on no chunk, and it has not turned back. -/
def Forward (progress : Progress PublishPhase) : Prop :=
  ∀ phase', progress = .running phase' →
    (∀ count, phase'.uploaded count = 0) ∧ ∀ first, phase' ≠ .discard first

theorem Forward.returned {result : Bool} : Forward (.returned result) := nofun

theorem Forward.running (huploaded : ∀ count, phase.uploaded count = 0)
    (hnot : ∀ first, phase ≠ .discard first) : Forward (.running phase) := by
  intro _ hphase
  cases hphase
  exact ⟨huploaded, hnot⟩

theorem forward_superseded (previous : Option Sequence) (generation : Generation) :
    Forward (superseded previous generation) := by
  unfold superseded
  split
  · exact .returned
  · split
    · exact .running (fun _ => rfl) nofun
    · exact .returned

theorem publisher_generation {progress : Progress PublishPhase}
    (h : (progress.publisher generation attempts).generation? = some generation') :
    generation' = generation := by
  cases progress with
  | running phase =>
      cases h
      rfl
  | returned published =>
      rw [Progress.publisher, attempted] at h
      split at h
      · cases h
      · split at h
        · cases h
          rfl
        · cases h

theorem publisher_attempting {attempts' : Nat} {progress : Progress PublishPhase}
    (h : progress.publisher generation attempts = .attempting generation' attempts' phase) :
    progress = .running phase ∧ generation' = generation := by
  cases progress with
  | running phase' =>
      cases h
      exact ⟨rfl, rfl⟩
  | returned published =>
      rw [Progress.publisher, attempted] at h
      split at h
      · cases h
      · split at h <;> cases h

/-- The state after a command of a writer's publish call. -/
def publishMoved (s : State) (writer : Token) (generation : Generation) (attempts : Nat)
    (store' : Store) (progress : Progress PublishPhase)
    (published : Option (Token × Generation)) : State :=
  { s.setPublisher writer
      { s.publisher writer with state := progress.publisher generation attempts } with
    store := store'
    published := published }

section

variable {s : State} {writer : Token} {generation : Generation} {attempts : Nat}
  {phase : PublishPhase} {store' : Store} {progress : Progress PublishPhase}
  {published : Option (Token × Generation)}

theorem publishMoved_self :
    (publishMoved s writer generation attempts store' progress published).publisher writer =
      { s.publisher writer with state := progress.publisher generation attempts } :=
  Function.update_self ..

theorem publishMoved_of_ne {writer' : Token} (hne : writer' ≠ writer) :
    (publishMoved s writer generation attempts store' progress published).publisher writer' =
      s.publisher writer' :=
  Function.update_of_ne hne _ _

theorem publishMoved_nextSequence (writer' : Token) :
    ((publishMoved s writer generation attempts store' progress published).publisher
      writer').nextSequence = (s.publisher writer').nextSequence := by
  by_cases hwriter : writer' = writer
  · subst hwriter
    rw [publishMoved_self]
  · rw [publishMoved_of_ne hwriter]

theorem publishMoved_generation
    (hstate : (s.publisher writer).state = .attempting generation attempts phase)
    {writer' : Token} {generation' : Generation}
    (h : ((publishMoved s writer generation attempts store' progress published).publisher
      writer').state.generation? = some generation') :
    (s.publisher writer').state.generation? = some generation' := by
  by_cases hwriter : writer' = writer
  · subst hwriter
    rw [publishMoved_self] at h
    rw [publisher_generation h, hstate]
    rfl
  · rwa [publishMoved_of_ne hwriter] at h

variable (hinv : Inv crypto config s)

include hinv

theorem Inv.publishMoved
    (hstate : (s.publisher writer).state = .attempting generation attempts phase)
    (hcurrent : CurrentStored crypto config
      (publishMoved s writer generation attempts store' progress published))
    (hpublished : published = s.published ∨ published = some (writer, generation))
    (hothers : ∀ writer' generation' attempts' phase' count, writer' ≠ writer →
      (s.publisher writer').state = .attempting generation' attempts' phase' →
      HasChunks s.store writer' generation' (phase'.uploaded count) →
      HasChunks store' writer' generation' (phase'.uploaded count))
    (hown : ∀ phase', progress = .running phase' →
      HasChunks store' writer generation
        (phase'.uploaded (chunkCount generation.data.length)))
    (hdiscards : ∀ writer' generation' attempts' first, writer' ≠ writer →
      (s.publisher writer').state = .attempting generation' attempts' (.discard first) →
      ¬ OwnUploadCurrent crypto config store' writer' generation'.sequence)
    (hdiscard : ∀ first, progress = .running (.discard first) →
      ¬ OwnUploadCurrent crypto config store' writer generation.sequence) :
    Inv crypto config (publishMoved s writer generation attempts store' progress published)
      where
  current := hcurrent
  named := by
    intro writer' generation' hpub
    rw [publishMoved_nextSequence]
    have hat : (s.publisher writer).state.generation? = some generation := by
      rw [hstate]
      rfl
    rcases hpublished with hsame | hnew
    · obtain ⟨hlt, hdata⟩ := hinv.named writer' generation' (hsame ▸ hpub)
      exact ⟨hlt, fun other hother => hdata other (publishMoved_generation hstate hother)⟩
    · obtain ⟨rfl, rfl⟩ := Prod.mk.injEq .. ▸ Option.some.inj (hnew.symm.trans hpub)
      refine ⟨hinv.numbered _ _ hat, fun other hother _ => ?_⟩
      rw [publishMoved_self] at hother
      rw [publisher_generation hother]
  uploads := by
    intro writer' generation' attempts' phase' hmoved
    by_cases hwriter : writer' = writer
    · subst hwriter
      rw [publishMoved_self] at hmoved
      obtain ⟨hrunning, rfl⟩ := publisher_attempting hmoved
      exact hown phase' hrunning
    · rw [publishMoved_of_ne hwriter] at hmoved
      exact hothers writer' generation' attempts' phase' _ hwriter hmoved
        (hinv.uploads writer' generation' attempts' phase' hmoved)
  discards := by
    intro writer' generation' attempts' first hmoved
    by_cases hwriter : writer' = writer
    · subst hwriter
      rw [publishMoved_self] at hmoved
      obtain ⟨hrunning, rfl⟩ := publisher_attempting hmoved
      exact hdiscard first hrunning
    · rw [publishMoved_of_ne hwriter] at hmoved
      exact hdiscards writer' generation' attempts' first hwriter hmoved
  numbered := by
    intro writer' generation' hgeneration
    rw [publishMoved_nextSequence]
    exact hinv.numbered writer' generation' (publishMoved_generation hstate hgeneration)

theorem Inv.publishKept
    (hstate : (s.publisher writer).state = .attempting generation attempts phase)
    (hkept : Kept s (some writer) store')
    (hown : ∀ phase', progress = .running phase' →
      HasChunks store' writer generation
        (phase'.uploaded (chunkCount generation.data.length)))
    (hdiscard : ∀ first, progress = .running (.discard first) →
      ¬ OwnUploadCurrent crypto config s.store writer generation.sequence) :
    Inv crypto config
      (Redis.publishMoved s writer generation attempts store' progress s.published) := by
  refine hinv.publishMoved hstate (hkept.currentStored hinv rfl rfl) (.inl rfl) ?_ hown ?_ ?_
  · intro writer' generation' attempts' phase' count hne hother hchunks
    exact hkept.uploads writer' generation' attempts' phase' count
      (fun heq => hne (Option.some.inj heq)) hother hchunks
  · intro writer' generation' attempts' first _ hother
    rw [ownUploadCurrent_congr hkept.currentEntry]
    exact hinv.discards writer' generation' attempts' first hother
  · intro first hrunning
    rw [ownUploadCurrent_congr hkept.currentEntry]
    exact hdiscard first hrunning

theorem Inv.publishScript {previous : Option Sequence}
    {manifest : Bytes}
    (hstate : (s.publisher writer).state = .attempting generation attempts (.evaluate previous))
    (hencode : encodeManifest crypto config generation.sequence generation.data writer =
      some manifest)
    (hpublishes : s.store.publishes writer previous = true) (hprogress : Forward progress) :
    Inv crypto config
      (Redis.publishMoved s writer generation attempts
        (s.store.publishScript writer previous manifest generation) progress
        (some (writer, generation))) := by
  have hchunks := hinv.uploads writer generation attempts _ hstate
  rw [uploaded_evaluate] at hchunks
  have hstored : CurrentStored crypto config
      (Redis.publishMoved s writer generation attempts
        (s.store.publishScript writer previous manifest generation) progress
        (some (writer, generation))) := by
    intro sequence hcurrent
    simp only [Redis.publishMoved, Store.publishScript, hpublishes, if_true,
      Option.some.injEq] at hcurrent ⊢
    subst hcurrent
    exact ⟨writer, generation, manifest, rfl, rfl, hencode, Function.update_self .., hchunks⟩
  have hscript : (s.store.publishScript writer previous manifest generation).chunk =
      s.store.chunk := by
    rw [Store.publishScript, if_pos hpublishes]
  refine hinv.publishMoved hstate hstored (.inr rfl) ?_ ?_ ?_ ?_
  · intro writer' generation' attempts' phase' count _ _ hother
    exact hother.of_chunk_eq hscript
  · intro phase' hrunning
    rw [(hprogress phase' hrunning).1]
    exact hasChunks_zero _ _ _
  · intro writer' generation' attempts' first hne _ hown
    obtain ⟨entry, hentry, hwriter⟩ := hown
    rw [currentEntry, Store.publishScript, if_pos hpublishes] at hentry
    simp only [Option.bind_some, Option.map_eq_some_iff, Prod.mk.injEq] at hentry
    obtain ⟨found, hread, -, rfl⟩ := hentry
    rw [(readGeneration_stored hencode (Function.update_self ..) hchunks).1] at hread
    cases hread
    exact hne hwriter.symm
  · intro first hrunning
    exact absurd rfl ((hprogress _ hrunning).2 first)

/-- A call that has not failed yet and fails here, on a good connection, turns back. -/
theorem Inv.publishFailed
    (hstate : (s.publisher writer).state = .attempting generation attempts phase)
    (hkept : Kept s (some writer) store') {answer : Answer}
    (hcareful : TurnsBack writer s.store answer phase →
      ¬ OwnUploadCurrent crypto config s.store writer generation.sequence)
    (hanswer : answer.connected →
      TurnsBack writer s.store answer phase ∨
        ¬ (encodeManifest crypto config generation.sequence generation.data writer).isSome) :
    Inv crypto config
      (Redis.publishMoved s writer generation attempts store' (failed answer) s.published) := by
  have hat : (s.publisher writer).state.generation? = some generation := by
    rw [hstate]
    rfl
  refine hinv.publishKept hstate hkept ?_ ?_
  · intro phase' hrunning
    rw [(failed_eq_running hrunning).1]
    exact hasChunks_zero _ _ _
  · intro first hrunning
    rcases hanswer (failed_eq_running hrunning).2 with hturns | hencode
    · exact hcareful hturns
    · exact fun hown => hencode (hinv.encodes hat hown)

theorem Inv.publishForward
    (hstate : (s.publisher writer).state = .attempting generation attempts phase)
    (hkept : Kept s (some writer) store') (hprogress : Forward progress) :
    Inv crypto config
      (Redis.publishMoved s writer generation attempts store' progress s.published) := by
  refine hinv.publishKept hstate hkept ?_ ?_
  · intro phase' hrunning
    rw [(hprogress phase' hrunning).1]
    exact hasChunks_zero _ _ _
  · intro first hrunning
    exact absurd rfl ((hprogress _ hrunning).2 first)

theorem Inv.publishEvaluate {previous : Option Sequence}
    (hstate : (s.publisher writer).state = .attempting generation attempts (.evaluate previous))
    (answer : Answer)
    (hcareful : TurnsBack writer s.store answer (.evaluate previous) →
      ¬ OwnUploadCurrent crypto config s.store writer generation.sequence) :
    Inv crypto config
      (Redis.publishMoved s writer generation attempts
        (Redis.publishStep crypto config writer generation (.evaluate previous) answer s.store).1
        (Redis.publishStep crypto config writer generation (.evaluate previous) answer s.store).2
        ((publication crypto config writer generation (.evaluate previous) answer s.store).or
          s.published)) := by
  cases hencode : encodeManifest crypto config generation.sequence generation.data writer with
  | none =>
      simp only [Redis.publishStep, publication, hencode, Option.isSome_none,
        Bool.false_eq_true, and_false, if_false, Option.none_or]
      exact hinv.publishFailed hstate .refl hcareful fun _ =>
        .inr (by rw [hencode]; exact Bool.false_ne_true)
  | some manifest =>
      simp only [Redis.publishStep, publication, hencode, Option.isSome_some, and_true]
      cases hpublishes : s.store.publishes writer previous with
      | true =>
          by_cases hanswer : answer = .answered
          · subst hanswer
            have hexecuted : Answer.answered.executed = true := rfl
            rw [hexecuted, if_pos rfl, if_pos ⟨rfl, rfl⟩, if_pos ⟨rfl, rfl⟩, Option.some_or]
            exact hinv.publishScript hstate hencode hpublishes (forward_superseded _ _)
          · rw [if_neg (fun h : answer = .answered ∧ true = true => hanswer h.1)]
            have hrefused (hconnected : answer.connected) : answer = .refused :=
              Answer.refused_of_connected hconnected hanswer
            cases hexecuted : answer.executed with
            | true =>
                rw [if_pos rfl, if_pos ⟨rfl, rfl⟩, Option.some_or]
                refine hinv.publishScript hstate hencode hpublishes fun phase' hrunning => ?_
                rw [hrefused (failed_eq_running hrunning).2] at hexecuted
                cases hexecuted
            | false =>
                rw [if_neg Bool.false_ne_true, if_neg (fun h => Bool.false_ne_true h.1),
                  Option.none_or]
                exact hinv.publishFailed hstate .refl hcareful fun hconnected =>
                  .inl (.inl (hrefused hconnected))
      | false =>
          have hscript : s.store.publishScript writer previous manifest generation =
              s.store := by
            rw [Store.publishScript, hpublishes, if_neg Bool.false_ne_true]
          rw [hscript, ite_self, if_neg (fun h => Bool.false_ne_true h.2),
            if_neg (fun h => Bool.false_ne_true h.2), Option.none_or]
          refine hinv.publishFailed hstate .refl hcareful fun hconnected => .inl ?_
          by_cases hanswer : answer = .answered
          · exact .inr ⟨hanswer, hpublishes⟩
          · exact .inl (Answer.refused_of_connected hconnected hanswer)

theorem Inv.publishStep
    (hstate : (s.publisher writer).state = .attempting generation attempts phase)
    (answer : Answer)
    (hcareful : TurnsBack writer s.store answer phase →
      ¬ OwnUploadCurrent crypto config s.store writer generation.sequence)
    (hmanifest : ∀ previous uploadToken, phase = .dropManifest previous uploadToken →
      s.store.current ≠ some previous)
    (hchunks : ∀ previous uploadToken first, phase = .dropChunks previous uploadToken first →
      Abandoned crypto config s previous uploadToken) :
    Inv crypto config
      (Redis.publishMoved s writer generation attempts
        (Redis.publishStep crypto config writer generation phase answer s.store).1
        (Redis.publishStep crypto config writer generation phase answer s.store).2
        ((publication crypto config writer generation phase answer s.store).or
          s.published)) := by
  cases phase with
  | readCurrent =>
      simp only [Redis.publishStep, publication, Option.none_or]
      split
      · exact hinv.publishForward hstate .refl (.running (fun _ => rfl) nofun)
      · next hanswer =>
        exact hinv.publishFailed hstate .refl hcareful fun hconnected =>
          .inl (Answer.refused_of_connected hconnected hanswer)
  | readFence current =>
      simp only [Redis.publishStep, publication, Option.none_or]
      split
      · exact hinv.publishForward hstate .refl (.running (fun _ => rfl) nofun)
      · next hnot =>
        refine hinv.publishFailed hstate .refl hcareful fun hconnected => ?_
        by_cases hanswer : answer = .answered
        · by_cases hfence : s.store.fence = some writer
          · exact .inr fun hsome => hnot ⟨hanswer, hfence, hsome⟩
          · exact .inl (.inr ⟨hanswer, hfence⟩)
        · exact .inl (.inl (Answer.refused_of_connected hconnected hanswer))
  | upload previous index =>
      have hbefore : HasChunks s.store writer generation index :=
        hinv.uploads writer generation attempts _ hstate
      have hset := Kept.setChunk hinv hstate index
      simp only [Redis.publishStep, publication, Option.none_or]
      by_cases hanswer : answer = .answered
      · have hexecuted : answer.executed := by
          rw [hanswer]
          rfl
        rw [if_pos hexecuted, if_pos hanswer]
        split
        · refine hinv.publishKept hstate hset (fun phase' hrunning => ?_) nofun
          cases hrunning
          exact hbefore.setChunk_succ
        · next hlast =>
          refine hinv.publishKept hstate hset (fun phase' hrunning => ?_) nofun
          cases hrunning
          rw [uploaded_evaluate]
          exact hbefore.setChunk_succ.mono (Nat.le_of_not_lt hlast)
      · rw [if_neg hanswer]
        exact hinv.publishFailed hstate (Kept.ite fun _ => hset) hcareful fun hconnected =>
          .inl (Answer.refused_of_connected hconnected hanswer)
  | evaluate previous => exact hinv.publishEvaluate hstate answer hcareful
  | discard first =>
      have hnot := hinv.discards writer generation attempts first hstate
      refine hinv.publishKept hstate
        (Kept.ite fun _ => .delChunks hinv first hnot fun hne => absurd rfl hne) ?_ ?_
      · intro phase' hrunning
        simp only [Redis.publishStep] at hrunning
        split at hrunning
        · rw [nextBatch_eq_running hrunning]
          exact hasChunks_zero _ _ _
        · cases hrunning
      · exact fun _ _ => hnot
  | measureManifest previous =>
      refine hinv.publishForward hstate .refl ?_
      dsimp only [Redis.publishStep]
      split
      · split
        · exact .running (fun _ => rfl) nofun
        · exact .returned
      · exact .returned
  | fetchManifest previous length =>
      refine hinv.publishForward hstate .refl ?_
      dsimp only [Redis.publishStep]
      split
      · split
        · split
          · exact .running (fun _ => rfl) nofun
          · exact .returned
        · exact .returned
      · exact .returned
  | dropManifest previous uploadToken =>
      refine hinv.publishForward hstate
        (Kept.ite fun _ => .delGeneration (hmanifest previous uploadToken rfl)) ?_
      dsimp only [Redis.publishStep]
      split
      · exact .running (fun _ => rfl) nofun
      · exact .returned
  | dropChunks previous uploadToken first =>
      obtain ⟨hnotown, hnotuploading⟩ := hchunks previous uploadToken first rfl
      refine hinv.publishForward hstate
        (Kept.ite fun _ => .delChunks hinv first hnotown fun _ => hnotuploading) ?_
      dsimp only [Redis.publishStep]
      split
      · intro phase' hrunning
        rw [nextBatch_eq_running hrunning]
        exact ⟨fun _ => rfl, nofun⟩
      · exact .returned

end

/-! ## The other steps -/

variable {s : State}

/-- A pipeline moves between two commands: its counter does not fall, and a generation it
did not have before is numbered by it. -/
theorem Inv.setPublisher (hinv : Inv crypto config s) {writer : Token} {publisher : Publisher}
    (hnext : (s.publisher writer).nextSequence ≤ publisher.nextSequence)
    (hnumbered : ∀ generation, publisher.state.generation? = some generation →
      generation.sequence < publisher.nextSequence)
    (hnew : ∀ generation, publisher.state.generation? = some generation →
      (s.publisher writer).state.generation? = some generation ∨
        (s.publisher writer).nextSequence ≤ generation.sequence)
    (hphase : ∀ generation attempts phase,
      publisher.state = .attempting generation attempts phase → phase = .readCurrent) :
    Inv crypto config (s.setPublisher writer publisher) := by
  have hself : (s.setPublisher writer publisher).publisher writer = publisher :=
    Function.update_self ..
  have hother : ∀ writer', writer' ≠ writer →
      (s.setPublisher writer publisher).publisher writer' = s.publisher writer' :=
    fun writer' hne => Function.update_of_ne hne _ _
  refine ⟨hinv.current, ?_, ?_, ?_, ?_⟩
  · intro writer' generation hpublished
    obtain ⟨hlt, hdata⟩ := hinv.named writer' generation hpublished
    by_cases hwriter : writer' = writer
    · subst hwriter
      rw [hself]
      refine ⟨Nat.lt_of_lt_of_le hlt hnext, fun generation' hstate hsequence => ?_⟩
      rcases hnew generation' hstate with hold | hfresh
      · exact hdata generation' hold hsequence
      · rw [hsequence] at hfresh
        exact absurd hlt (BitVec.not_lt.mpr hfresh)
    · rw [hother writer' hwriter]
      exact ⟨hlt, hdata⟩
  · intro writer' generation attempts phase hstate
    by_cases hwriter : writer' = writer
    · subst hwriter
      rw [hself] at hstate
      rw [hphase generation attempts phase hstate]
      exact hasChunks_zero _ _ _
    · rw [hother writer' hwriter] at hstate
      exact hinv.uploads writer' generation attempts phase hstate
  · intro writer' generation attempts first hstate
    by_cases hwriter : writer' = writer
    · subst hwriter
      rw [hself] at hstate
      cases hphase generation attempts _ hstate
    · rw [hother writer' hwriter] at hstate
      exact hinv.discards writer' generation attempts first hstate
  · intro writer' generation hstate
    by_cases hwriter : writer' = writer
    · subst hwriter
      rw [hself] at hstate ⊢
      exact hnumbered generation hstate
    · rw [hother writer' hwriter] at hstate ⊢
      exact hinv.numbered writer' generation hstate

/-- What a command may do: keep all that is in use, or move the pointer by a script of the
fence's holder. -/
def Fenced (s : State) (writer : Token) (exempt : Option Token) (store' : Store) : Prop :=
  Kept s exempt store' ∨ (store'.chunk = s.store.chunk ∧ s.store.fence = some writer)

section

variable (hinv : Inv crypto config s)

include hinv

theorem Kept.stepSafe {exempt : Option Token} {store' : Store}
    (h : Kept s exempt store') :
    KeepsCurrentChunks crypto config s.store store' ∧ ¬ ChangesCurrent s.store store' := by
  constructor
  · intro sequence entry hentry index hindex
    cases hcurrent : s.store.current with
    | none => rw [Redis.currentEntry, hcurrent] at hentry; cases hentry
    | some current =>
        obtain ⟨writer, generation, manifest, hpublished, hsequence, -, -, hchunks⟩ :=
          hinv.current current hcurrent
        obtain ⟨writer', generation', -, hpublished', -, -, hfound⟩ :=
          hinv.currentEntry_eq hcurrent
        rw [hpublished] at hpublished'
        obtain ⟨rfl, rfl⟩ := Prod.mk.injEq .. ▸ Option.some.inj hpublished'
        rw [hfound] at hentry
        obtain ⟨rfl, rfl⟩ := Prod.mk.injEq .. ▸ Option.some.inj hentry
        subst hsequence
        rw [hchunks index hindex,
          h.published writer generation _ hpublished hcurrent hchunks index hindex]
  · rintro (hcurrent | ⟨sequence, hcurrent, hgeneration⟩)
    · exact hcurrent h.current
    · exact hgeneration (h.generation sequence hcurrent)

theorem Fenced.stepSafe {writer : Token} {exempt : Option Token}
    {store' : Store} (h : Fenced s writer exempt store') :
    KeepsCurrentChunks crypto config s.store store' ∧
      (ChangesCurrent s.store store' → s.store.fence = some writer) := by
  rcases h with hkept | ⟨hchunk, hfence⟩
  · obtain ⟨hchunks, hnot⟩ := hkept.stepSafe hinv
    exact ⟨hchunks, fun hchanges => absurd hchanges hnot⟩
  · exact ⟨fun _ _ _ _ _ => by rw [hchunk], fun _ => hfence⟩

theorem publishStep_fenced {writer : Token} {generation : Generation}
    {attempts : Nat} {phase : PublishPhase}
    (hstate : (s.publisher writer).state = .attempting generation attempts phase) (answer : Answer)
    (hmanifest : ∀ previous uploadToken, phase = .dropManifest previous uploadToken →
      s.store.current ≠ some previous)
    (hchunks : ∀ previous uploadToken first, phase = .dropChunks previous uploadToken first →
      Abandoned crypto config s previous uploadToken) :
    Fenced s writer (some writer)
      (publishStep crypto config writer generation phase answer s.store).1 := by
  cases phase with
  | upload previous index => exact .inl (Kept.ite fun _ => .setChunk hinv hstate index)
  | evaluate previous =>
      rw [publishStep]
      split
      · exact .inl .refl
      · show Fenced s writer _ (if _ then _ else _)
        split
        · rw [Store.publishScript]
          split
          · next hpublishes =>
              rw [Store.publishes, Bool.and_eq_true, beq_iff_eq] at hpublishes
              exact .inr ⟨rfl, hpublishes.1⟩
          · exact .inl .refl
        · exact .inl .refl
  | discard first =>
      have hnot := hinv.discards writer generation attempts first hstate
      exact .inl (Kept.ite fun _ => .delChunks hinv first hnot fun hne => absurd rfl hne)
  | dropManifest previous uploadToken =>
      exact .inl (Kept.ite fun _ => .delGeneration (hmanifest previous uploadToken rfl))
  | dropChunks previous uploadToken first =>
      obtain ⟨hnotown, hnotuploading⟩ := hchunks previous uploadToken first rfl
      exact .inl (Kept.ite fun _ => .delChunks hinv first hnotown fun _ => hnotuploading)
  | _ => exact .inl .refl

theorem consumeStep_fenced {writer : Token} {sequence : Sequence}
    {phase : ConsumePhase} (answer : Answer)
    (hchunks : ∀ uploadToken first, phase = .dropChunks uploadToken first →
      Abandoned crypto config s sequence uploadToken) :
    Fenced s writer none (consumeStep crypto config writer sequence phase answer s.store).1 ∧
      (((consumeStep crypto config writer sequence phase answer s.store).1.current = none ∧
          (consumeStep crypto config writer sequence phase answer s.store).1.chunk =
            s.store.chunk) ∨
        Kept s none (consumeStep crypto config writer sequence phase answer s.store).1) := by
  cases phase with
  | evaluate uploadToken =>
      rw [consumeStep]
      split
      · rw [Store.consumeScript]
        split
        · next hconsumes =>
            rw [Store.consumes, Bool.and_eq_true, beq_iff_eq] at hconsumes
            exact ⟨.inr ⟨rfl, hconsumes.1⟩, .inl ⟨rfl, rfl⟩⟩
        · exact ⟨.inl .refl, .inr .refl⟩
      · exact ⟨.inl .refl, .inr .refl⟩
  | dropChunks uploadToken first =>
      obtain ⟨hnotown, hnotuploading⟩ := hchunks uploadToken first rfl
      have hkept : Kept s none
          (consumeStep crypto config writer sequence (.dropChunks uploadToken first) answer
            s.store).1 :=
        Kept.ite fun _ => .delChunks hinv first hnotown fun _ => hnotuploading
      exact ⟨.inl hkept, .inr hkept⟩
  | _ => exact ⟨.inl .refl, .inr .refl⟩

theorem Inv.of_current_none (hcurrent : s'.store.current = none)
    (hchunk : s'.store.chunk = s.store.chunk) (hpublisher : s'.publisher = s.publisher)
    (hpublished : s'.published = s.published) :
    Inv crypto config s' where
  current := by
    intro sequence hsome
    rw [hcurrent] at hsome
    cases hsome
  named := by
    rw [hpublisher, hpublished]
    exact hinv.named
  uploads := by
    rw [hpublisher]
    intro writer generation attempts phase hstate
    exact (hinv.uploads writer generation attempts phase hstate).of_chunk_eq hchunk
  discards := by
    rintro writer generation attempts first - ⟨entry, hentry, -⟩
    rw [currentEntry, hcurrent] at hentry
    cases hentry
  numbered := by
    rw [hpublisher]
    exact hinv.numbered

end

theorem lt_add_one_of_ne_allOnes {n : Sequence} (h : n ≠ BitVec.allOnes 64) : n < n + 1 := by
  have hne : n.toNat ≠ 2 ^ 64 - 1 := fun heq =>
    h (BitVec.eq_of_toNat_eq (by rw [heq, BitVec.toNat_allOnes]))
  rw [BitVec.lt_def, BitVec.toNat_add]
  have hlt := n.isLt
  have hone : (1 : BitVec 64).toNat = 1 := rfl
  rw [hone, Nat.mod_eq_of_lt (by omega)]
  omega

theorem Inv.step (hinv : Inv crypto config s) (event : Event)
    (hcareful : Careful crypto config s event) :
    Inv crypto config (step crypto config s event) ∧ StepSafe crypto config s event := by
  have hsafe : ∀ {s' : State}, s'.store = s.store →
      KeepsCurrentChunks crypto config s.store s'.store ∧
        (ChangesCurrent s.store s'.store →
          ∃ writer, s.writer event = some writer ∧ s.store.fence = some writer) := by
    intro s' hstore
    rw [hstore]
    obtain ⟨hchunks, hnot⟩ := (Kept.refl : Kept s none s.store).stepSafe hinv
    exact ⟨hchunks, fun hchanges => absurd hchanges hnot⟩
  have hkept : ∀ {s' : State}, s'.store.current = s.store.current →
      s'.store.generation = s.store.generation → s'.store.chunk = s.store.chunk →
      s'.publisher = s.publisher → s'.published = s.published →
      Inv crypto config s' ∧ KeepsCurrentChunks crypto config s.store s'.store ∧
        (ChangesCurrent s.store s'.store →
          ∃ writer, s.writer event = some writer ∧ s.store.fence = some writer) := by
    intro s' hcurrent hgeneration hchunk hpublisher hpublished
    have h : Kept s none s'.store := .of_eq hcurrent hgeneration hchunk
    obtain ⟨hchunks, hnot⟩ := h.stepSafe hinv
    exact ⟨hinv.of_kept h hpublisher hpublished, hchunks,
      fun hchanges => absurd hchanges hnot⟩
  unfold StepSafe
  cases event with
  | capture writer data timestamp checksum =>
      simp only [Redis.step]
      cases hstate : (s.publisher writer).state with
      | idle =>
          refine ⟨hinv.setPublisher ?_ ?_ ?_ ?_, hsafe rfl⟩
          · exact BitVec.le_of_lt (lt_add_one_of_ne_allOnes hcareful)
          · intro generation hgeneration
            cases hgeneration
            exact lt_add_one_of_ne_allOnes hcareful
          · intro generation hgeneration
            cases hgeneration
            exact .inr (BitVec.le_refl _)
          · intro generation attempts phase hattempting
            cases hattempting
      | _ => exact ⟨hinv, hsafe rfl⟩
  | setSequenceFloor writer durable =>
      simp only [Redis.step]
      cases hstate : (s.publisher writer).state with
      | idle =>
          dsimp only
          split
          · exact ⟨hinv, hsafe rfl⟩
          · refine ⟨hinv.setPublisher ?_ nofun nofun nofun, hsafe rfl⟩
            show _ ≤ if _ then _ else _
            split
            · next hlt => exact BitVec.le_of_lt hlt
            · exact BitVec.le_refl _
      | _ => exact ⟨hinv, hsafe rfl⟩
  | attempt writer connected =>
      simp only [Redis.step]
      cases hstate : (s.publisher writer).state with
      | waiting generation attempts =>
          have hat : ∀ generation', (if publishable generation = true ∧ connected = true then
              PublisherState.attempting generation attempts .readCurrent
              else attempted generation attempts false).generation? = some generation' →
              (s.publisher writer).state.generation? = some generation' := by
            intro generation' hgeneration
            rw [hstate]
            split at hgeneration
            · exact hgeneration
            · rw [@publisher_generation _ _ _ (.returned false) hgeneration]
              rfl
          refine ⟨hinv.setPublisher (BitVec.le_refl _) ?_ ?_ ?_, hsafe rfl⟩
          · exact fun generation' hgeneration =>
              hinv.numbered writer generation' (hat generation' hgeneration)
          · exact fun generation' hgeneration => .inl (hat generation' hgeneration)
          · intro generation' attempts' phase hattempting
            split at hattempting
            · cases hattempting
              rfl
            · cases (@publisher_attempting _ _ _ _ _ (.returned false) hattempting).1
      | _ => exact ⟨hinv, hsafe rfl⟩
  | publish writer answer =>
      simp only [Redis.step]
      cases hstate : (s.publisher writer).state with
      | attempting generation attempts phase =>
          obtain ⟨hturns, hmanifest, hchunks⟩ := hcareful generation attempts phase hstate
          obtain ⟨hkeeps, hfence⟩ :=
            (publishStep_fenced hinv hstate answer hmanifest hchunks).stepSafe hinv
          exact ⟨hinv.publishStep hstate answer hturns hmanifest hchunks, hkeeps,
            fun hchanges => ⟨writer, rfl, hfence hchanges⟩⟩
      | _ => exact ⟨hinv, hsafe rfl⟩
  | consume call writer sequence =>
      simp only [Redis.step]
      split
      · exact ⟨hinv, hsafe rfl⟩
      · exact hkept rfl rfl rfl rfl rfl
  | consumer call answer =>
      simp only [Redis.step]
      cases hcall : s.consumer call with
      | none => exact ⟨hinv, hsafe rfl⟩
      | some consumer =>
          have hchunks : ∀ uploadToken first,
              consumer.phase = .dropChunks uploadToken first →
              Abandoned crypto config s consumer.sequence uploadToken := by
            intro uploadToken first hphase
            refine hcareful consumer.writer consumer.sequence uploadToken first ?_
            rw [hcall, ← hphase]
          obtain ⟨hfenced, hinvariant⟩ :=
            @consumeStep_fenced _ _ _ hinv consumer.writer _ _ answer hchunks
          obtain ⟨hkeeps, hfence⟩ := hfenced.stepSafe hinv
          refine ⟨?_, hkeeps, fun hchanges => ⟨consumer.writer, ?_, hfence hchanges⟩⟩
          · rcases hinvariant with ⟨hcurrent, hchunk⟩ | h
            · exact hinv.of_current_none hcurrent hchunk rfl rfl
            · exact hinv.of_kept h rfl rfl
          · rw [State.writer, hcall]
            rfl
  | claimFence writer answer =>
      simp only [Redis.step]
      split
      · exact hkept rfl rfl rfl rfl rfl
      · exact ⟨hinv, hsafe rfl⟩
  | renewFence writer answer => exact ⟨hinv, hsafe rfl⟩
  | releaseFence writer answer =>
      simp only [Redis.step]
      split
      · exact hkept rfl rfl rfl rfl rfl
      · exact ⟨hinv, hsafe rfl⟩
  | loseFence => exact hkept rfl rfl rfl rfl rfl
  | floorWorker drops index => exact hkept rfl rfl rfl rfl rfl

theorem inv_initial : Inv crypto config {} where
  current := nofun
  named := nofun
  uploads := nofun
  discards := nofun
  numbered := nofun

/-- In every run whose steps are careful, the current generation is readable in every state
reached, its chunks are never touched, and only the holder of the fence moves the pointer
or changes the manifest it names. -/
theorem worldGeneration_readable (crypto : Crypto) (config : Config) (events : List Event)
    (hcareful : Along (step crypto config) (Careful crypto config) ({} : State) events) :
    (∀ before after, events = before ++ after →
        Readable crypto config (run (step crypto config) ({} : State) before)) ∧
      Along (step crypto config) (StepSafe crypto config) ({} : State) events := by
  have hstep : ∀ s event, Inv crypto config s → Careful crypto config s event →
      Inv crypto config (step crypto config s event) :=
    fun s event hinv hc => (hinv.step event hc).1
  constructor
  · rintro before after rfl
    have hbefore := ((along_append before after ({} : State)).mp hcareful).1
    exact (run_invariant_along hstep before inv_initial hbefore).readable
  · exact along_of_invariant_along hstep (fun s event hinv hc => (hinv.step event hc).2) events
      inv_initial hcareful

end

/-! ## Runs on one writer -/

def openCrypto : Crypto where
  sha256 message := (Sha256.hash message).toList
  hmac secret message := (Sha256.hmac secret message).toList
  sha256_length _ := Vector.length_toList
  hmac_length _ _ := Vector.length_toList

def mudConfig : Config where
  keyNamespace := [109, 117, 100]
  secret := List.replicate 32 115
  previousSecret := []
  seasonEpoch := 42

/-- The writer `aaaa…`. -/
def writerA : Token where
  text := List.replicate 32 97
  size := rfl
  hex := by decide

/-- A writer publishes generation 1, and the reply to the script is lost. -/
def lostPublication : List Event :=
  [.claimFence writerA .answered, .capture writerA [1] 1 0, .attempt writerA true,
    .publish writerA .answered, .publish writerA .answered, .publish writerA .answered,
    .publish writerA .lost]

def refusedRetry : List Event :=
  [.attempt writerA true, .publish writerA .answered, .publish writerA .answered,
    .publish writerA .refused, .publish writerA .answered]

/-- After a publication whose reply was lost, a retry that fails deletes the chunks of the
generation that is current. -/
theorem refusedRetry_unreadable :
    ¬ ∀ (crypto : Crypto) (config : Config) (events : List Event),
      Readable crypto config (run (step crypto config) ({} : State) events) := by
  intro h
  have hcurrent : (run (step openCrypto mudConfig) ({} : State)
      (lostPublication ++ refusedRetry)).store.current = some 1 := by decide +kernel
  have hmissing : readGeneration openCrypto mudConfig
      (run (step openCrypto mudConfig) ({} : State)
        (lostPublication ++ refusedRetry)).store.generation
      (run (step openCrypto mudConfig) ({} : State)
        (lostPublication ++ refusedRetry)).store.chunk 1 = none := by decide +kernel
  obtain ⟨writer, generation, -, -, hread⟩ := h openCrypto mudConfig _ 1 hcurrent
  rw [hmissing] at hread
  cases hread

/-- The lost publication itself is careful. -/
theorem lostPublication_readable :
    ((∀ before after, lostPublication = before ++ after →
        Readable openCrypto mudConfig
          (run (step openCrypto mudConfig) ({} : State) before)) ∧
      Along (step openCrypto mudConfig) (StepSafe openCrypto mudConfig) ({} : State)
        lostPublication) ∧
      (run (step openCrypto mudConfig) ({} : State) lostPublication).store.current =
        some 1 := by
  refine ⟨worldGeneration_readable openCrypto mudConfig lostPublication ?_, by decide +kernel⟩
  refine ⟨trivial, nofun, trivial, ?_, ?_, ?_, ?_, trivial⟩
  · intro generation attempts phase h
    cases h
    exact ⟨nofun, nofun, nofun⟩
  · intro generation attempts phase h
    cases h
    refine ⟨fun hturns => ?_, nofun, nofun⟩
    rcases hturns with hrefused | hfence
    · cases hrefused
    · exact absurd rfl hfence.2
  · intro generation attempts phase h
    cases h
    exact ⟨nofun, nofun, nofun⟩
  · intro generation attempts phase h
    cases h
    refine ⟨fun hturns => ?_, nofun, nofun⟩
    rcases hturns with hrefused | hanswered
    · cases hrefused
    · cases hanswered.1

end Duris.Redis
