import Duris.Persistence.Command
import Duris.Player.RevisionState

/-!
# Player snapshots

`src/player/player_snapshot.h`: what the game captures of a player and hands to
the save path, and the checks of `player_snapshot_codec.c` on such a value
(metadata, item trees, and the death record).

Integers keep their C width, signed ones read through `BitVec.toInt`. An enum the
decoder checks before it casts into it is the type of its enumerators; one it
casts into without looking (a pet's hold reason, a custody state, an owner type)
can hold anything, and is its underlying integer with the enumerators as
constants. A `std::string` is its bytes.
-/

namespace Duris.Player

open Duris.Persistence (CriticalOperationId)

def playerSnapshotSchemaVersion : BitVec 32 := 7
def playerSnapshotDeathSchemaVersion : BitVec 32 := 8
def playerSnapshotMaxBytes : Nat := 4 * 1024 * 1024
def playerSnapshotMaxRows : Nat := 8192
def playerSnapshotMaxObjects : Nat := 4096
def playerSnapshotMaxDepth : Nat := 32
def playerSnapshotMaxStringBytes : Nat := 16384
def petRestoreStateMaxBytes : Nat := 32768
def outputPreferenceMaxBytes : Nat := 512

def playerSnapshotNoParent : Int := -1

def noParentIndex : BitVec 32 := BitVec.ofInt 32 playerSnapshotNoParent

/-- `player_status_field`, by position from `class_primary` to `last_ip`. -/
abbrev PlayerStatusField := Fin 63

structure PlayerSnapshotInteger where
  field : PlayerStatusField
  signedValue : BitVec 64
  unsignedValue : BitVec 64
  isUnsigned : Bool

/-- `player_status_string_field`, from `name` to `poof_out`. -/
abbrev PlayerStatusStringField := Fin 7

structure PlayerSnapshotString where
  field : PlayerStatusStringField
  value : Bytes

structure PlayerIndexValueSnapshot where
  index : BitVec 32
  value : BitVec 64
  auxiliary : BitVec 64

structure PlayerSkillSnapshot where
  skillId : BitVec 32
  learned : BitVec 8
  taught : BitVec 8

structure PlayerAffectSnapshot where
  type : BitVec 16
  duration : BitVec 32
  flags : BitVec 32
  modifier : BitVec 32
  location : BitVec 8
  level : BitVec 16
  bitvectors : Vector (BitVec 64) 5
  wearOffCharacter : Bytes
  wearOffRoom : Bytes

structure PlayerItemExtraDescriptionSnapshot where
  keyword : Bytes
  description : Bytes
  spellbook : Bool
  spellIds : List (BitVec 32)

structure PlayerItemDynamicAffectSnapshot where
  type : BitVec 16
  data : BitVec 16
  extra2 : BitVec 64

structure PlayerItemSnapshot where
  parentIndex : BitVec 32
  equipmentSlot : BitVec 16
  objectUid : BitVec 64
  generatedKey : BitVec 64
  vnum : BitVec 32
  type : BitVec 8
  stringMask : BitVec 8
  name : Bytes
  shortDescription : Bytes
  description : Bytes
  actionDescription : Bytes
  values : Vector (BitVec 32) 8
  timers : Vector (BitVec 64) 6
  wearFlags : BitVec 32
  extraFlags : BitVec 32
  antiFlags : BitVec 32
  anti2Flags : BitVec 32
  extra2Flags : BitVec 32
  weight : BitVec 32
  material : BitVec 8
  cost : BitVec 32
  condition : BitVec 16
  craftsmanship : BitVec 16
  bitvectors : Vector (BitVec 64) 5
  affects : Vector (Vector (BitVec 16) 2) 4
  dynamicAffects : List PlayerItemDynamicAffectSnapshot
  extraDescriptions : List PlayerItemExtraDescriptionSnapshot

abbrev PetHoldReason := BitVec 32

def PetHoldReason.none : PetHoldReason := 0

structure PlayerPetSnapshot where
  petUid : BitVec 64
  mobVnum : BitVec 32
  order : BitVec 32
  hit : BitVec 32
  maxHit : BitVec 32
  mana : BitVec 32
  maxMana : BitVec 32
  vitality : BitVec 32
  maxVitality : BitVec 32
  charmDuration : BitVec 32
  roomVnum : BitVec 32
  items : List PlayerItemSnapshot
  restoreState : Bytes
  holdReason : PetHoldReason

structure PlayerShapeSnapshot where
  mobVnum : BitVec 32
  timesResearched : BitVec 32
  lastResearched : BitVec 64
  lastShapechanged : BitVec 64

structure PlayerTrophySnapshot where
  zoneNumber : BitVec 32
  experience : BitVec 32

/-- `item_custody_state`: absent, active, destroyed, quarantined. -/
abbrev ItemCustodyState := BitVec 8

def ItemCustodyState.absent : ItemCustodyState := 0
def ItemCustodyState.active : ItemCustodyState := 1
def ItemCustodyState.destroyed : ItemCustodyState := 2
def ItemCustodyState.quarantined : ItemCustodyState := 3

/-- `item_owner_type`, from `unknown` to `pet`. -/
abbrev ItemOwnerType := BitVec 8

def ItemOwnerType.unknown : ItemOwnerType := 0
def ItemOwnerType.player : ItemOwnerType := 1
def ItemOwnerType.container : ItemOwnerType := 2
def ItemOwnerType.room : ItemOwnerType := 3
def ItemOwnerType.corpse : ItemOwnerType := 4
def ItemOwnerType.locker : ItemOwnerType := 5
def ItemOwnerType.auction : ItemOwnerType := 6
def ItemOwnerType.system : ItemOwnerType := 7
def ItemOwnerType.destruction : ItemOwnerType := 8
def ItemOwnerType.shopkeeper : ItemOwnerType := 9
def ItemOwnerType.collector : ItemOwnerType := 10
def ItemOwnerType.pet : ItemOwnerType := 11

def itemTransferAbsentRevision : BitVec 64 := BitVec.allOnes 64

structure ItemTransferEntry where
  itemUid : BitVec 64
  rootItemUid : BitVec 64
  parentItemUid : BitVec 64
  expectedItemRevision : BitVec 64
  vnum : BitVec 32
  expectedState : ItemCustodyState

structure ItemOwnerIdentity where
  type : ItemOwnerType
  id : BitVec 64
  contextId : BitVec 64

structure PlayerDeathCustodySnapshot where
  item : ItemTransferEntry
  owner : ItemOwnerIdentity
  ownerRevision : BitVec 64

structure PlayerDeathSnapshot where
  operationId : CriticalOperationId
  corpseRoomVnum : BitVec 32
  walletRevision : BitVec 64
  walletBefore : Vector (BitVec 32) 4
  walletPileUid : BitVec 64
  corpse : List PlayerItemSnapshot
  custody : List PlayerDeathCustodySnapshot
  unresolvedOperations : List CriticalOperationId

structure PlayerSnapshot where
  schemaVersion : BitVec 32
  pid : Pid
  revision : Revision
  components : ComponentMask
  saveIntent : BitVec 32
  roomVnum : BitVec 32
  encodedSizeBound : BitVec 64
  statusIntegers : List PlayerSnapshotInteger
  statusStrings : List PlayerSnapshotString
  conditions : Vector (BitVec 32) 5
  questValues : Vector (BitVec 32) 14
  languages : List PlayerIndexValueSnapshot
  introductions : List PlayerIndexValueSnapshot
  timers : List PlayerIndexValueSnapshot
  undeadSlots : List PlayerIndexValueSnapshot
  forgedItems : List PlayerIndexValueSnapshot
  grantedCommands : List (BitVec 32)
  skills : List PlayerSkillSnapshot
  affects : List PlayerAffectSnapshot
  items : List PlayerItemSnapshot
  pets : List PlayerPetSnapshot
  shapes : List PlayerShapeSnapshot
  trophies : List PlayerTrophySnapshot
  recipesAreExternal : Bool
  outputPreferences : Bytes
  death : Option PlayerDeathSnapshot

/-! ## The checks -/

/-- `valid_metadata`, on the fields it reads: the decoder calls it before it has
the rest. -/
def metadataOf (schemaVersion : BitVec 32) (pid : Pid) (revision : Revision)
    (components : ComponentMask) (encodedSizeBound : BitVec 64) : Bool :=
  (schemaVersion == playerSnapshotSchemaVersion ||
      schemaVersion == playerSnapshotDeathSchemaVersion) &&
    Pid.valid pid && revision != 0 && components != 0 &&
    components &&& ~~~playerCheckpointComponentAll == 0 && encodedSizeBound != 0 &&
    decide (encodedSizeBound.toNat ≤ playerSnapshotMaxBytes)

def validMetadata (snapshot : PlayerSnapshot) : Bool :=
  metadataOf snapshot.schemaVersion snapshot.pid snapshot.revision snapshot.components
    snapshot.encodedSizeBound

/-- The loop of `valid_item_relationships`; `depths` are those of the items already
seen, so its length is the index of the next. The index is compared as an `int32_t`. -/
def itemRelationshipsFrom (depths : List Nat) : List PlayerItemSnapshot → Bool
  | [] => true
  | item :: items =>
      let parent := item.parentIndex.toInt
      if parent < playerSnapshotNoParent ∨ (BitVec.ofNat 32 depths.length).toInt ≤ parent then
        false
      else if 0 ≤ parent then
        let depth := depths.getD parent.toNat 0 + 1
        if playerSnapshotMaxDepth < depth then false
        else itemRelationshipsFrom (depths ++ [depth]) items
      else itemRelationshipsFrom (depths ++ [1]) items

def validItemRelationships (items : List PlayerItemSnapshot) : Bool :=
  itemRelationshipsFrom [] items

def nonzeroOperation (id : CriticalOperationId) : Bool := id.bytes.any (· != 0)

def rentDeath : BitVec 32 := 4
def vobjCorpse : BitVec 32 := 2
def vobjCoins : BitVec 32 := 3
def itemMoney : BitVec 8 := 20
def itemCorpse : BitVec 8 := 24
def corpseFlags : Fin 8 := 1
def corpsePid : Fin 8 := 3
def corpseSaveid : Fin 8 := 6
def pcCorpse : BitVec 32 := 1

/-- The check of one corpse item against the wallet the death recorded. -/
def walletPileMatches (death : PlayerDeathSnapshot) (item : PlayerItemSnapshot) : Bool :=
  item.vnum == vobjCoins && item.type == itemMoney && item.parentIndex == 0 &&
    (List.finRange 4).all fun denomination =>
      item.values[denomination.castLE (by decide : 4 ≤ 8)] == death.walletBefore[denomination]

/-- The loop over the corpse: the uids it captured, or `none` where it refuses. -/
def captureCorpse (death : PlayerDeathSnapshot) :
    Nat → List (BitVec 64) → List PlayerItemSnapshot → Option (List (BitVec 64))
  | _, captured, [] => some captured
  | index, captured, item :: items =>
      if item.objectUid = 0 ∨ item.objectUid ∈ captured ∨
          (index ≠ 0 ∧ item.parentIndex.toInt = playerSnapshotNoParent) then none
      else if item.objectUid = death.walletPileUid ∧ walletPileMatches death item = false then
        none
      else captureCorpse death (index + 1) (item.objectUid :: captured) items

def validCustody (row : PlayerDeathCustodySnapshot) : Bool :=
  row.item.itemUid != 0 && decide (0 < row.item.vnum.toInt) &&
    decide (row.item.expectedState ≤ ItemCustodyState.quarantined) &&
    decide (row.owner.type ≤ ItemOwnerType.pet) &&
    if row.item.expectedState = ItemCustodyState.absent then
      row.item.expectedItemRevision == itemTransferAbsentRevision &&
        row.owner.type == ItemOwnerType.unknown && row.owner.id == 0 &&
        row.owner.contextId == 0 && row.ownerRevision == 0
    else
      row.item.expectedItemRevision != 0 &&
        row.item.expectedItemRevision != itemTransferAbsentRevision &&
        row.item.rootItemUid != 0 && row.owner.type != ItemOwnerType.unknown

/-- The loop over the custody rows: what stays uncovered of `captured`. -/
def observeCustody :
    List (BitVec 64) → List (BitVec 64) → List PlayerDeathCustodySnapshot →
      Option (List (BitVec 64))
  | captured, _, [] => some captured
  | captured, observed, row :: rows =>
      if validCustody row = false ∨ row.item.itemUid ∈ observed then none
      else observeCustody (captured.filter (· != row.item.itemUid))
        (row.item.itemUid :: observed) rows

def validUnresolved (death : PlayerDeathSnapshot) :
    List CriticalOperationId → List CriticalOperationId → Bool
  | _, [] => true
  | operations, id :: ids =>
      if nonzeroOperation id = false ∨ id.bytes = death.operationId.bytes ∨ id ∈ operations
      then false
      else validUnresolved death (id :: operations) ids

/-- What `valid_death` asks of the death record of `snapshot`. -/
def validDeathRecord (snapshot : PlayerSnapshot) (death : PlayerDeathSnapshot) : Bool :=
  match death.corpse with
  | [] => false
  | corpse :: _ =>
      if nonzeroOperation death.operationId = false ∨ death.corpseRoomVnum.toInt ≤ 0 ∨
          death.walletRevision = 0 ∨ validItemRelationships death.corpse = false then false
      else if corpse.vnum ≠ vobjCorpse ∨ corpse.type ≠ itemCorpse ∨
          corpse.values[corpsePid] ≠ snapshot.pid ∨ corpse.values[corpseSaveid].toInt ≤ 0 ∨
          corpse.values[corpseFlags] &&& pcCorpse = 0 then false
      else if death.walletBefore.toList.any (fun amount => amount.toInt < 0) then false
      else
        let hasWallet := death.walletBefore.toList.any (· != 0)
        if hasWallet ≠ (death.walletPileUid != 0) then false
        else
          match captureCorpse death 0 [] death.corpse with
          | none => false
          | some captured =>
              if hasWallet = true ∧ (death.walletPileUid = corpse.objectUid ∨
                  death.walletPileUid ∉ captured) then false
              else
                match observeCustody (captured.filter (· != corpse.objectUid)) []
                    death.custody with
                | none => false
                | some uncovered =>
                    uncovered.isEmpty && validUnresolved death [] death.unresolvedOperations

def validDeath (snapshot : PlayerSnapshot) : Bool :=
  if snapshot.schemaVersion = playerSnapshotSchemaVersion then snapshot.death.isNone
  else
    match snapshot.death with
    | none => false
    | some death =>
        snapshot.saveIntent == rentDeath &&
          snapshot.components == playerCheckpointComponentAll && snapshot.items.isEmpty &&
          snapshot.pets.all (fun pet => pet.holdReason != PetHoldReason.none) &&
          validDeathRecord snapshot death

end Duris.Player
