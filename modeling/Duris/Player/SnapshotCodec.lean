import Duris.Player.Snapshot

/-!
# The snapshot codec

`src/player/player_snapshot_codec.c`. Encoder and decoder are two separate
traversals there, and stay two here: the encoder appends bytes and carries a
flag for what was too large, the decoder walks an offset and counts the rows and
objects of every vector against two totals that the encoder does not know.

The decoder's state keeps its two counters within their limits by construction.
An allocation that fails is not modelled.
-/

namespace Duris.Player

open Duris.Persistence (CriticalOperationId)

/-- `player_snapshot_codec_result`, less `ok` and the allocation failure. -/
inductive CodecFailure where
  | invalidValue
  | limitExceeded
  | truncated
  | unsupportedVersion
  deriving DecidableEq

/-! ## The encoder -/

structure Encoder where
  bytes : Bytes := []
  valid : Bool := true

namespace Encoder

instance : Append Encoder where
  append a b := ⟨a.bytes ++ b.bytes, a.valid && b.valid⟩

def all (parts : List Encoder) : Encoder := parts.foldr (· ++ ·) {}

def number {n : Nat} (x : BitVec n) : Encoder := { bytes := appendLe x }

def boolean (value : Bool) : Encoder := number (if value then 1#8 else 0#8)

def string (maximum : Nat) (value : Bytes) : Encoder :=
  if maximum < value.length then { valid := false }
  else { bytes := appendLe (BitVec.ofNat 32 value.length) ++ value }

def text (value : Bytes) : Encoder := string playerSnapshotMaxStringBytes value

def vector {α : Type} (write : α → Encoder) (values : List α) : Encoder :=
  if playerSnapshotMaxRows < values.length then { valid := false }
  else number (BitVec.ofNat 32 values.length) ++ all (values.map write)

/-- The loop over a `std::array`, which writes no count. -/
def array {α : Type} {n : Nat} (write : α → Encoder) (values : Vector α n) : Encoder :=
  all (values.toList.map write)

/-- An enumerator of an enum of `k`, at `n` bits. -/
def enumerator (n : Nat) {k : Nat} (value : Fin k) : Encoder :=
  number (BitVec.ofNat n value)

def operation (id : CriticalOperationId) : Encoder := { bytes := id.bytes }

end Encoder

open Encoder in
def encodeIndexRow (row : PlayerIndexValueSnapshot) : Encoder :=
  all [number row.index, number row.value, number row.auxiliary]

def encodeIndexRows (rows : List PlayerIndexValueSnapshot) : Encoder :=
  Encoder.vector encodeIndexRow rows

open Encoder in
def encodeDynamicAffect (affect : PlayerItemDynamicAffectSnapshot) : Encoder :=
  all [number affect.type, number affect.data, number affect.extra2]

open Encoder in
def encodeExtraDescription (description : PlayerItemExtraDescriptionSnapshot) : Encoder :=
  all [text description.keyword, text description.description,
    boolean description.spellbook, vector number description.spellIds]

open Encoder in
def encodeItem (row : PlayerItemSnapshot) : Encoder :=
  all [number row.parentIndex, number row.equipmentSlot, number row.objectUid,
    number row.generatedKey, number row.vnum, number row.type, number row.stringMask,
    text row.name, text row.shortDescription, text row.description,
    text row.actionDescription, array number row.values, array number row.timers,
    number row.wearFlags, number row.extraFlags, number row.antiFlags,
    number row.anti2Flags, number row.extra2Flags, number row.weight,
    number row.material, number row.cost, number row.condition,
    number row.craftsmanship, array number row.bitvectors,
    array (array number) row.affects, vector encodeDynamicAffect row.dynamicAffects,
    vector encodeExtraDescription row.extraDescriptions]

def encodeItems (items : List PlayerItemSnapshot) : Encoder :=
  Encoder.vector encodeItem items

open Encoder in
def encodeStatusInteger (row : PlayerSnapshotInteger) : Encoder :=
  all [enumerator 16 row.field, number row.signedValue, number row.unsignedValue,
    boolean row.isUnsigned]

open Encoder in
def encodeStatusString (row : PlayerSnapshotString) : Encoder :=
  all [enumerator 8 row.field, text row.value]

open Encoder in
def encodeSkill (row : PlayerSkillSnapshot) : Encoder :=
  all [number row.skillId, number row.learned, number row.taught]

open Encoder in
def encodeAffect (row : PlayerAffectSnapshot) : Encoder :=
  all [number row.type, number row.duration, number row.flags, number row.modifier,
    number row.location, number row.level, array number row.bitvectors,
    text row.wearOffCharacter, text row.wearOffRoom]

open Encoder in
def encodePet (pet : PlayerPetSnapshot) : Encoder :=
  all [number pet.petUid, number pet.mobVnum, number pet.order, number pet.hit,
    number pet.maxHit, number pet.mana, number pet.maxMana, number pet.vitality,
    number pet.maxVitality, number pet.charmDuration, number pet.roomVnum,
    encodeItems pet.items, string petRestoreStateMaxBytes pet.restoreState,
    number pet.holdReason]

open Encoder in
def encodeShape (row : PlayerShapeSnapshot) : Encoder :=
  all [number row.mobVnum, number row.timesResearched, number row.lastResearched,
    number row.lastShapechanged]

open Encoder in
def encodeTrophy (row : PlayerTrophySnapshot) : Encoder :=
  all [number row.zoneNumber, number row.experience]

open Encoder in
def encodeCustody (row : PlayerDeathCustodySnapshot) : Encoder :=
  all [number row.item.itemUid, number row.item.rootItemUid, number row.item.parentItemUid,
    number row.item.expectedItemRevision, number row.item.vnum,
    number row.item.expectedState, number row.owner.type, number row.owner.id,
    number row.owner.contextId, number row.ownerRevision]

open Encoder in
def encodeDeath (death : PlayerDeathSnapshot) : Encoder :=
  all [operation death.operationId, number death.corpseRoomVnum,
    number death.walletRevision, array number death.walletBefore,
    number death.walletPileUid, encodeItems death.corpse,
    vector encodeCustody death.custody, vector operation death.unresolvedOperations]

def encodeDeathSection : Option PlayerDeathSnapshot → Encoder
  | none => {}
  | some death => encodeDeath death

open Encoder in
/-- Everything `player_snapshot_encode` writes. -/
def encodeSnapshot (snapshot : PlayerSnapshot) : Encoder :=
  all [number snapshot.schemaVersion, number snapshot.pid, number snapshot.revision,
    number snapshot.components, number snapshot.saveIntent, number snapshot.roomVnum,
    number snapshot.encodedSizeBound, vector encodeStatusInteger snapshot.statusIntegers,
    vector encodeStatusString snapshot.statusStrings, array number snapshot.conditions,
    array number snapshot.questValues, encodeIndexRows snapshot.languages,
    encodeIndexRows snapshot.introductions, encodeIndexRows snapshot.timers,
    encodeIndexRows snapshot.undeadSlots, encodeIndexRows snapshot.forgedItems,
    vector number snapshot.grantedCommands, vector encodeSkill snapshot.skills,
    vector encodeAffect snapshot.affects, encodeItems snapshot.items,
    vector encodePet snapshot.pets, vector encodeShape snapshot.shapes,
    vector encodeTrophy snapshot.trophies, boolean snapshot.recipesAreExternal,
    string outputPreferenceMaxBytes snapshot.outputPreferences,
    encodeDeathSection snapshot.death]

/-! ## The decoder -/

structure DecoderState where
  input : Bytes
  rows : Nat
  objects : Nat
  rows_le : rows ≤ playerSnapshotMaxRows
  objects_le : objects ≤ playerSnapshotMaxObjects

/-- A read: a value and the advanced decoder, or the failure it reports. -/
abbrev Decoder := StateT DecoderState (Except CodecFailure)

namespace Decoder

def start (encoded : Bytes) : DecoderState :=
  ⟨encoded, 0, 0, Nat.zero_le _, Nat.zero_le _⟩

def fail {α : Type} (failure : CodecFailure) : Decoder α := fun _ => .error failure

/-- Go on only under `c`. -/
def check (c : Prop) [Decidable c] (failure : CodecFailure) : Decoder Unit := fun st =>
  if c then .ok ((), st) else .error failure

def number (n : Nat) : Decoder (BitVec n) := fun st =>
  match readLe n st.input with
  | none => .error .truncated
  | some (x, rest) => .ok (x, { st with input := rest })

def boolean : Decoder Bool := do
  let encoded ← number 8
  check (encoded ≤ 1) .invalidValue
  return encoded != 0

/-- `length` bytes, as they stand. -/
def raw (length : Nat) : Decoder { bs : Bytes // bs.length = length } := fun st =>
  if h : (st.input.take length).length = length then
    .ok (⟨st.input.take length, h⟩, { st with input := st.input.drop length })
  else .error .truncated

def string (maximum : Nat) : Decoder Bytes := do
  let length ← number 32
  check (length.toNat ≤ maximum) .limitExceeded
  let value ← raw length.toNat
  return value.1

def text : Decoder Bytes := string playerSnapshotMaxStringBytes

/-- Count `count` rows, and as many objects when the rows are objects. -/
def account (count : Nat) (objectRows : Bool) : Decoder Unit := fun st =>
  if h : st.rows + count ≤ playerSnapshotMaxRows ∧
      st.objects + (if objectRows then count else 0) ≤ playerSnapshotMaxObjects then
    .ok ((), { st with
      rows := st.rows + count
      objects := st.objects + (if objectRows then count else 0)
      rows_le := h.1
      objects_le := h.2 })
  else .error .limitExceeded

def many {α : Type} (read : Decoder α) :
    (n : Nat) → Decoder { xs : List α // xs.length = n }
  | 0 => return ⟨[], rfl⟩
  | n + 1 => do
      let x ← read
      let xs ← many read n
      return ⟨x :: xs.1, by rw [List.length_cons, xs.2]⟩

def vector {α : Type} (read : Decoder α) (objectRows : Bool) : Decoder (List α) := do
  let count ← number 32
  account count.toNat objectRows
  let values ← many read count.toNat
  return values.1

/-- The loop over a `std::array` of `n` elements. -/
def array {α : Type} (n : Nat) (read : Decoder α) : Decoder (Vector α n) := do
  let values ← many read n
  return ⟨values.1.toArray, by rw [List.size_toArray, values.2]⟩

/-- An integer that has to be one of `k` enumerators. -/
def enumerator (n k : Nat) : Decoder (Fin k) := do
  let value ← number n
  if h : value.toNat < k then return ⟨value.toNat, h⟩ else fail .invalidValue

def operation : Decoder CriticalOperationId := do
  let bytes ← raw 16
  return .ofRaw bytes

end Decoder

open Decoder

def decodeIndexRow : Decoder PlayerIndexValueSnapshot := do
  let index ← number 32
  let value ← number 64
  let auxiliary ← number 64
  return { index, value, auxiliary }

def decodeIndexRows : Decoder (List PlayerIndexValueSnapshot) := vector decodeIndexRow false

def decodeDynamicAffect : Decoder PlayerItemDynamicAffectSnapshot := do
  let type ← number 16
  let data ← number 16
  let extra2 ← number 64
  return { type, data, extra2 }

def decodeExtraDescription : Decoder PlayerItemExtraDescriptionSnapshot := do
  let keyword ← text
  let description ← text
  let spellbook ← boolean
  let spellIds ← vector (number 32) false
  return { keyword, description, spellbook, spellIds }

def decodeItem : Decoder PlayerItemSnapshot := do
  let parentIndex ← number 32
  let equipmentSlot ← number 16
  let objectUid ← number 64
  let generatedKey ← number 64
  let vnum ← number 32
  let type ← number 8
  let stringMask ← number 8
  let name ← text
  let shortDescription ← text
  let description ← text
  let actionDescription ← text
  let values ← array 8 (number 32)
  let timers ← array 6 (number 64)
  let wearFlags ← number 32
  let extraFlags ← number 32
  let antiFlags ← number 32
  let anti2Flags ← number 32
  let extra2Flags ← number 32
  let weight ← number 32
  let material ← number 8
  let cost ← number 32
  let condition ← number 16
  let craftsmanship ← number 16
  let bitvectors ← array 5 (number 64)
  let affects ← array 4 (array 2 (number 16))
  let dynamicAffects ← vector decodeDynamicAffect false
  let extraDescriptions ← vector decodeExtraDescription false
  return { parentIndex, equipmentSlot, objectUid, generatedKey, vnum, type, stringMask,
           name, shortDescription, description, actionDescription, values, timers,
           wearFlags, extraFlags, antiFlags, anti2Flags, extra2Flags, weight, material,
           cost, condition, craftsmanship, bitvectors, affects, dynamicAffects,
           extraDescriptions }

def decodeItems : Decoder (List PlayerItemSnapshot) := vector decodeItem true

def decodeStatusInteger : Decoder PlayerSnapshotInteger := do
  let field ← enumerator 16 63
  let signedValue ← number 64
  let unsignedValue ← number 64
  let isUnsigned ← boolean
  return { field, signedValue, unsignedValue, isUnsigned }

def decodeStatusString : Decoder PlayerSnapshotString := do
  let field ← enumerator 8 7
  let value ← text
  return { field, value }

def decodeSkill : Decoder PlayerSkillSnapshot := do
  let skillId ← number 32
  let learned ← number 8
  let taught ← number 8
  return { skillId, learned, taught }

def decodeAffect : Decoder PlayerAffectSnapshot := do
  let type ← number 16
  let duration ← number 32
  let flags ← number 32
  let modifier ← number 32
  let location ← number 8
  let level ← number 16
  let bitvectors ← array 5 (number 64)
  let wearOffCharacter ← text
  let wearOffRoom ← text
  return { type, duration, flags, modifier, location, level, bitvectors, wearOffCharacter,
           wearOffRoom }

/-- The uid came with wire version 7, the restore state and hold reason with 3. -/
def decodePet (wireVersion : BitVec 32) : Decoder PlayerPetSnapshot := do
  let petUid ← if 7 ≤ wireVersion then number 64 else pure 0
  let mobVnum ← number 32
  let order ← number 32
  let hit ← number 32
  let maxHit ← number 32
  let mana ← number 32
  let maxMana ← number 32
  let vitality ← number 32
  let maxVitality ← number 32
  let charmDuration ← number 32
  let roomVnum ← number 32
  let items ← decodeItems
  let restoreState ← if wireVersion < 3 then pure [] else string petRestoreStateMaxBytes
  let holdReason ← if wireVersion < 3 then pure PetHoldReason.none else number 32
  return { petUid, mobVnum, order, hit, maxHit, mana, maxMana, vitality, maxVitality,
           charmDuration, roomVnum, items, restoreState, holdReason }

def decodeShape : Decoder PlayerShapeSnapshot := do
  let mobVnum ← number 32
  let timesResearched ← number 32
  let lastResearched ← number 64
  let lastShapechanged ← number 64
  return { mobVnum, timesResearched, lastResearched, lastShapechanged }

def decodeTrophy : Decoder PlayerTrophySnapshot := do
  let zoneNumber ← number 32
  let experience ← number 32
  return { zoneNumber, experience }

def decodeCustody : Decoder PlayerDeathCustodySnapshot := do
  let itemUid ← number 64
  let rootItemUid ← number 64
  let parentItemUid ← number 64
  let expectedItemRevision ← number 64
  let vnum ← number 32
  let expectedState ← number 8
  let ownerType ← number 8
  let ownerId ← number 64
  let contextId ← number 64
  let ownerRevision ← number 64
  return { item := { itemUid, rootItemUid, parentItemUid, expectedItemRevision, vnum,
                     expectedState }
           owner := { type := ownerType, id := ownerId, contextId }
           ownerRevision }

def decodeDeath : Decoder PlayerDeathSnapshot := do
  let operationId ← operation
  let corpseRoomVnum ← number 32
  let walletRevision ← number 64
  let walletBefore ← array 4 (number 32)
  let walletPileUid ← number 64
  let corpse ← decodeItems
  let custody ← vector decodeCustody false
  let unresolvedOperations ← vector operation false
  return { operationId, corpseRoomVnum, walletRevision, walletBefore, walletPileUid, corpse,
           custody, unresolvedOperations }

def currentSchema (wireVersion : BitVec 32) : BitVec 32 :=
  if wireVersion = 1 ∨ wireVersion = 3 ∨ wireVersion = 5 then playerSnapshotSchemaVersion
  else if wireVersion = 2 ∨ wireVersion = 4 ∨ wireVersion = 6 then
    playerSnapshotDeathSchemaVersion
  else wireVersion

def decodeDeathSection (schemaVersion : BitVec 32) : Decoder (Option PlayerDeathSnapshot) :=
  if schemaVersion = playerSnapshotDeathSchemaVersion then do
    let death ← decodeDeath
    return some death
  else return none

/-- The sections between the metadata and the end of the input. -/
def decodeSections (wireVersion schemaVersion : BitVec 32) (pid : Pid) (revision : Revision)
    (components : ComponentMask) (saveIntent roomVnum : BitVec 32)
    (encodedSizeBound : BitVec 64) : Decoder PlayerSnapshot := do
  let statusIntegers ← vector decodeStatusInteger false
  let statusStrings ← vector decodeStatusString false
  let conditions ← array 5 (number 32)
  let questValues ← array 14 (number 32)
  let languages ← decodeIndexRows
  let introductions ← decodeIndexRows
  let timers ← decodeIndexRows
  let undeadSlots ← decodeIndexRows
  let forgedItems ← decodeIndexRows
  let grantedCommands ← vector (number 32) false
  let skills ← vector decodeSkill false
  let affects ← vector decodeAffect false
  let items ← decodeItems
  let pets ← vector (decodePet wireVersion) false
  let shapes ← vector decodeShape false
  let trophies ← vector decodeTrophy false
  let recipesAreExternal ← boolean
  let outputPreferences ←
    if 5 ≤ wireVersion then string outputPreferenceMaxBytes else pure []
  let death ← decodeDeathSection schemaVersion
  return { schemaVersion, pid, revision, components, saveIntent, roomVnum,
           encodedSizeBound, statusIntegers, statusStrings, conditions, questValues,
           languages, introductions, timers, undeadSlots, forgedItems, grantedCommands,
           skills, affects, items, pets, shapes, trophies, recipesAreExternal,
           outputPreferences, death }

def decodeVersioned (wireVersion : BitVec 32) : Decoder PlayerSnapshot := do
  let schemaVersion := currentSchema wireVersion
  check (schemaVersion = playerSnapshotSchemaVersion ∨
    schemaVersion = playerSnapshotDeathSchemaVersion) .unsupportedVersion
  let pid ← number 32
  let revision ← number 64
  let components ← number 64
  let saveIntent ← number 32
  let roomVnum ← number 32
  let encodedBound ← number 64
  check (metadataOf schemaVersion pid revision components encodedBound = true) .invalidValue
  let snapshot ← decodeSections wireVersion schemaVersion pid revision components saveIntent
    roomVnum encodedBound
  check (validDeath snapshot = true) .invalidValue
  return snapshot

def decodeSnapshot : Decoder PlayerSnapshot := do
  let wireVersion ← number 32
  decodeVersioned wireVersion

def playerSnapshotDecode (encoded : Bytes) : Except CodecFailure PlayerSnapshot :=
  if encoded = [] then .error .invalidValue
  else if playerSnapshotMaxBytes < encoded.length then .error .limitExceeded
  else
    match decodeSnapshot (start encoded) with
    | .error failure => .error failure
    | .ok (snapshot, st) =>
        if st.input ≠ [] ∨ validItemRelationships snapshot.items = false ∨
            snapshot.pets.all (fun pet => validItemRelationships pet.items) = false then
          .error .invalidValue
        else .ok snapshot

/-- `player_item_snapshot_list_decode`: a list of item trees on its own. -/
def playerItemSnapshotListDecode (encoded : Bytes) :
    Except CodecFailure (List PlayerItemSnapshot) :=
  if encoded = [] then .error .invalidValue
  else if playerSnapshotMaxBytes < encoded.length then .error .limitExceeded
  else
    match decodeItems (start encoded) with
    | .error failure => .error failure
    | .ok (items, st) =>
        if st.input ≠ [] ∨ validItemRelationships items = false then .error .invalidValue
        else .ok items

def playerSnapshotEncode (snapshot : PlayerSnapshot) : Except CodecFailure Bytes :=
  if validMetadata snapshot = false ∨ validItemRelationships snapshot.items = false ∨
      snapshot.pets.all (fun pet => validItemRelationships pet.items) = false ∨
      validDeath snapshot = false then .error .invalidValue
  else
    let out := encodeSnapshot snapshot
    if out.valid = false ∨ playerSnapshotMaxBytes < out.bytes.length then
      .error .limitExceeded
    else
      match playerSnapshotDecode out.bytes with
      | .error failure => .error failure
      | .ok _ => .ok out.bytes

end Duris.Player
