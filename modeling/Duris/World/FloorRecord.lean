import Duris.Item.OwnershipRuntime

/-!
# The record of a floor object

`write_object_record` of `src/world/world_recovery_pipeline.c`, without copyover custody:
an object and everything in it, outermost first, as native `world_recovery_item_snapshot`
structures behind a `world_recovery_object_record`. The layout is that of the 64-bit
targets: `values` ends at byte 68, so four bytes of padding follow it.

Texts are the characters before their terminator, and nothing for a null pointer.
-/

namespace Duris.World

open Player (ItemOwnerIdentity ItemOwnerType ItemCustodyState)

def worldRecoveryMaxItemTree : Nat := 512

/-- `sizeof(world_recovery_object_record)` -/
def objectRecordBytes : Nat := 8

/-- `sizeof(world_recovery_item_snapshot)` -/
def itemSnapshotBytes : Nat := 3328

def itemNameCapacity : Nat := 513
def itemDescriptionCapacity : Nat := 1025

/-- `WORLD_RECOVERY_ITEM_AUTHORITY_REQUIRED` -/
def itemAuthorityRequired : BitVec 32 := 1

/-- What a snapshot copies from an object, in the widths of the snapshot. -/
structure ObjectData where
  vnum : BitVec 32
  type : BitVec 32
  values : Vector (BitVec 32) 8
  timers : Vector (BitVec 64) 6
  name : Option Bytes
  shortDescription : Option Bytes
  description : Option Bytes
  actionDescription : Option Bytes
  wearFlags : BitVec 32
  extraFlags : BitVec 32
  antiFlags : BitVec 32
  anti2Flags : BitVec 32
  extra2Flags : BitVec 32
  weight : BitVec 32
  material : BitVec 32
  cost : BitVec 32
  trapEff : BitVec 32
  trapDam : BitVec 32
  trapCharge : BitVec 32
  trapLevel : BitVec 32
  condition : BitVec 32
  craftsmanship : BitVec 32
  zCord : BitVec 32
  bitvectors : Vector (BitVec 64) 5
  affectLocations : Vector (BitVec 32) 4
  affectModifiers : Vector (BitVec 32) 4

inductive FloorObject where
  | mk (uid : BitVec 64) (data : ObjectData) (contains : List FloorObject)

def FloorObject.uid : FloorObject → BitVec 64
  | .mk uid _ _ => uid

def FloorObject.data : FloorObject → ObjectData
  | .mk _ data _ => data

structure ItemSnapshot where
  itemUid : BitVec 64
  rootItemUid : BitVec 64
  parentItemUid : BitVec 64
  flags : BitVec 32
  data : ObjectData

/-- An array of characters that holds a text and is zero behind it. -/
def charArray (capacity : Nat) (text : Option Bytes) : Bytes :=
  text.getD [] ++ List.replicate (capacity - (text.getD []).length) 0

def ItemSnapshot.bytes (item : ItemSnapshot) : Bytes :=
  let data := item.data
  appendLe item.itemUid ++ appendLe item.rootItemUid ++ appendLe item.parentItemUid ++
    appendLe data.vnum ++ appendLe data.type ++ appendLe item.flags ++
    data.values.toList.flatMap appendLe ++ List.replicate 4 0 ++
    data.timers.toList.flatMap appendLe ++ charArray itemNameCapacity data.name ++
    charArray itemNameCapacity data.shortDescription ++
    charArray itemDescriptionCapacity data.description ++
    charArray itemDescriptionCapacity data.actionDescription ++
    appendLe data.wearFlags ++ appendLe data.extraFlags ++ appendLe data.antiFlags ++
    appendLe data.anti2Flags ++ appendLe data.extra2Flags ++ appendLe data.weight ++
    appendLe data.material ++ appendLe data.cost ++ appendLe data.trapEff ++
    appendLe data.trapDam ++ appendLe data.trapCharge ++ appendLe data.trapLevel ++
    appendLe data.condition ++ appendLe data.craftsmanship ++ appendLe data.zCord ++
    data.bitvectors.toList.flatMap appendLe ++ data.affectLocations.toList.flatMap appendLe ++
    data.affectModifiers.toList.flatMap appendLe

/-- `copy_text` of the four texts. -/
def ObjectData.textsFit (data : ObjectData) : Bool :=
  (data.name.getD []).length < itemNameCapacity ∧
    (data.shortDescription.getD []).length < itemNameCapacity ∧
    (data.description.getD []).length < itemDescriptionCapacity ∧
    (data.actionDescription.getD []).length < itemDescriptionCapacity

/-- The items captured so far, and whether the tree is to be left out. -/
structure Capture where
  items : List ItemSnapshot := []
  skip : Bool := false

section

-- `item_ownership_runtime_lookup`
variable (lookup : BitVec 64 → Option Item.OwnershipEntry)

/-- Custody has the item where it lies: the comparison of `capture_item_tree`. -/
def custodyAgrees (authority : Item.OwnershipEntry) (room : BitVec 32)
    (root parent : BitVec 64) (data : ObjectData) : Bool :=
  Item.ownerEqual authority.owner
      { type := ItemOwnerType.room, id := room.signExtend 64, contextId := 0 } ∧
    authority.rootItemUid = root ∧ authority.parentItemUid = parent ∧
    authority.vnum = data.vnum ∧ authority.state = ItemCustodyState.active

mutual

def captureItemTree (room : BitVec 32) (root parent : BitVec 64) (capture : Capture) :
    FloorObject → Option Capture
  | .mk uid data contains =>
      if room.toInt ≤ 0 ∨ worldRecoveryMaxItemTree ≤ capture.items.length ∨ uid = 0 ∨
          data.vnum.toInt ≤ 0 then none
      else
        let root := if root = 0 then uid else root
        let entry :=
          { itemUid := uid, rootItemUid := root, parentItemUid := parent, flags := 0, data }
        match lookup uid with
        | none =>
            if !data.textsFit then none
            else
              captureContents room root uid
                { capture with items := capture.items ++ [entry] } contains
        | some authority =>
            -- the rest of the entry stays empty in the source; a tree left out has no record
            if !custodyAgrees authority room root parent data then
              some { items := capture.items ++ [entry], skip := true }
            else if !data.textsFit then none
            else
              captureContents room root uid
                { capture with
                  items := capture.items ++ [{ entry with flags := itemAuthorityRequired }] }
                contains

/-- The loop of `capture_item_tree` over the contents. -/
def captureContents (room : BitVec 32) (root parent : BitVec 64) (capture : Capture) :
    List FloorObject → Option Capture
  | [] => some capture
  | child :: children =>
      match captureItemTree room root parent capture child with
      | none => none
      | some capture => captureContents room root parent capture children

end

def recordBytes (room : BitVec 32) (items : List ItemSnapshot) : Bytes :=
  appendLe room ++ appendLe (BitVec.ofNat 32 items.length) ++ items.flatMap ItemSnapshot.bytes

/-- `write_object_record`: nothing is written of a tree that is refused or left out. -/
def writeObjectRecord (object : FloorObject) (room : BitVec 32) (maximum : Nat) : Option Bytes :=
  if room.toInt ≤ 0 ∨ maximum < objectRecordBytes then none
  else
    match captureItemTree lookup room 0 0 {} object with
    | none => none
    | some capture =>
        if capture.items.length = 0 ∨ capture.skip then none
        else if maximum < objectRecordBytes + capture.items.length * itemSnapshotBytes then none
        else some (recordBytes room capture.items)

end

end Duris.World
