import Duris.Flatfile.Materialization
import Duris.Lib.ParentWalk

/-!
# Reconciling a save with the log

`flatfile_shop_trade_materialization_reconcile` of
`src/flatfile/flatfile_shop_trade_materialization.c`: at a login the player's last save is
brought up to the custody of his items. The log says which items events speak of and how
each looked when it last came in; custody says who has them. What is his and missing is
added, what is no longer his is left out, and the trees are put together again.

A hash map that is only looked up in is a function; the set of the mentioned uids is
walked through in the order its hash table has, which is an argument. The recursion of
`normalize_items` over parents is bounded by the number of nodes, which it does not reach.
-/

namespace Duris.Flatfile.Materialization

open Persistence Player Item Economy Ownership
open ParentWalk (Colour)

def playerLoadPetMax : Nat := 64

/-- The order in which a hash set hands out its elements. -/
structure IterationOrder where
  list : Finset (BitVec 64) → List (BitVec 64)
  mem : ∀ uids uid, uid ∈ list uids ↔ uid ∈ uids
  nodup : ∀ uids, (list uids).Nodup

/-! ## What the log says of a player -/

structure Reading where
  /-- `raised_pets`, by ascending uid. -/
  raisedPets : List PlayerPetSnapshot := []
  mentioned : Finset (BitVec 64) := ∅
  latestInbound : BitVec 64 → Option PlayerItemSnapshot := fun _ => none

def Reading.mention (inbound : Bool) (reading : Reading) (item : PlayerItemSnapshot) : Reading :=
  { reading with
    mentioned := insert item.objectUid reading.mentioned
    latestInbound :=
      if inbound then Function.update reading.latestInbound item.objectUid (some item)
      else reading.latestInbound }

def Reading.raise (reading : Reading) (pet : PlayerPetSnapshot) : Option Reading :=
  if reading.raisedPets.any (fun raised => raised.petUid == pet.petUid) then none
  else
    some { reading with
      raisedPets := Sorted.insert uidLess PlayerPetSnapshot.petUid reading.raisedPets pet }

def Reading.event (playerPid : BitVec 32) (reading : Reading) (event : MaterializationEvent) :
    Except Refusal Reading :=
  if event.playerPid ≠ playerPid then .ok reading
  else if event.action = .petRaise then
    match decodePetEvent event with
    | none => .error .invalid
    | some (pet, items) =>
        match reading.raise pet with
        | none => .error .invalid
        | some raised => .ok (items.foldl (Reading.mention event.action.inbound) raised)
  else
    match decodeItems event with
    | none => .error .invalid
    | some items => .ok (items.foldl (Reading.mention event.action.inbound) reading)

def readLog (playerPid : BitVec 32) (events : List MaterializationEvent) :
    Except Refusal Reading :=
  events.foldlM (Reading.event playerPid) {}

/-! ## What custody says -/

abbrev OwnerRecords := BitVec 64 → Option FlatfileItemOwnershipRecord

/-- `emplace` one after the other; nothing when a uid is there already. -/
def emplaceRecords : OwnerRecords → List FlatfileItemOwnershipRecord → Option OwnerRecords
  | records, [] => some records
  | records, record :: rest =>
      if (records record.itemUid).isSome then none
      else emplaceRecords (Function.update records record.itemUid (some record)) rest

/-- `flatfile_item_repository_load_owner_locked`, without the owner's revision. -/
def loadOwner (catalog : OwnershipCatalog) (owner : ItemOwnerIdentity) :
    Option (List FlatfileItemOwnershipRecord) :=
  if itemOwnerIdentityValid owner = false then none
  else
    match findOwner catalog owner with
    | none => none
    | some _ =>
        some (catalog.items.filter fun entry =>
          entry.state == .active && itemOwnerIdentityEqual entry.owner owner)

def petOwner (playerPid : BitVec 32) (petUid : BitVec 64) : ItemOwnerIdentity :=
  ⟨.pet, petUid, playerPid.setWidth 64⟩

def playerOwner (playerPid : BitVec 32) : ItemOwnerIdentity := ⟨.player, playerPid.setWidth 64, 0⟩

def petRecords (custody : Option OwnershipCatalog) (playerPid : BitVec 32) :
    List PlayerPetSnapshot → OwnerRecords → Option OwnerRecords
  | [], records => some records
  | pet :: pets, records =>
      match custody with
      | none => none
      | some catalog =>
          match loadOwner catalog (petOwner playerPid pet.petUid) with
          | none => none
          | some owned =>
              match emplaceRecords records owned with
              | none => none
              | some records => petRecords custody playerPid pets records

def coinItem (record : FlatfileItemOwnershipRecord) : Option PlayerItemSnapshot :=
  match playerItemSnapshotListDecode record.coinPayload with
  | .ok [coin] => if coin.objectUid = record.itemUid then some coin else none
  | _ => none

def mentionCoins : List FlatfileItemOwnershipRecord → Reading → Option Reading
  | [], reading => some reading
  | record :: records, reading =>
      if record.coinPayload = [] then mentionCoins records reading
      else
        match coinItem record with
        | none => none
        | some coin => mentionCoins records (reading.mention true coin)

def savedCoins (snapshot : PlayerSnapshot) : List (BitVec 64) :=
  ((snapshot.items ++ snapshot.pets.flatMap PlayerPetSnapshot.items).filter fun item =>
    item.type == Player.itemMoney).map PlayerItemSnapshot.objectUid

/-- The saved coins that custody has destroyed are mentioned as well. -/
def mentionDestroyed (custody : Option OwnershipCatalog) (uids : List (BitVec 64))
    (reading : Reading) : Option Reading :=
  if uids = [] then some reading
  else if playerSnapshotMaxObjects < uids.length then none
  else
    match custody with
    | none => none
    | some catalog =>
        some ((uids.filterMap (findRow catalog)).foldl (fun reading coin =>
          if coin.state = .destroyed ∧ coin.owner.type = .destruction then
            { reading with mentioned := insert coin.itemUid reading.mentioned }
          else reading) reading)

/-! ## What the save has -/

structure Existing where
  all : Finset (BitVec 64) := ∅
  player : Finset (BitVec 64) := ∅
  legacyPets : Finset (BitVec 64) := ∅
  pets : BitVec 64 → Finset (BitVec 64) := fun _ => ∅

def Existing.addPlayer (existing : Existing) (item : PlayerItemSnapshot) : Option Existing :=
  if item.objectUid ∈ existing.all then none
  else
    some { existing with
      all := insert item.objectUid existing.all
      player := insert item.objectUid existing.player }

def Existing.addPet (petUid : BitVec 64) (existing : Existing) (item : PlayerItemSnapshot) :
    Option Existing :=
  if item.objectUid ∈ existing.all then none
  else if petUid ≠ 0 then
    some { existing with
      all := insert item.objectUid existing.all
      pets := Function.update existing.pets petUid (insert item.objectUid (existing.pets petUid)) }
  else
    some { existing with
      all := insert item.objectUid existing.all
      legacyPets := insert item.objectUid existing.legacyPets }

def existingOf (snapshot : PlayerSnapshot) : Option Existing := do
  let existing ← snapshot.items.foldlM Existing.addPlayer {}
  snapshot.pets.foldlM (fun existing pet => pet.items.foldlM (Existing.addPet pet.petUid) existing)
    existing

/-! ## What is missing -/

structure Additions where
  player : List PlayerItemSnapshot := []
  pets : BitVec 64 → List PlayerItemSnapshot := fun _ => []

def Additions.mention (playerPid : BitVec 32) (records : OwnerRecords) (reading : Reading)
    (existing : Existing) (additions : Additions) (uid : BitVec 64) : Option Additions :=
  match records uid with
  | none => some additions
  | some record =>
      if record.owner.type = .player ∧ record.owner.id = playerPid.setWidth 64 then
        if uid ∈ existing.player ∨ uid ∈ existing.legacyPets then some additions
        else
          match reading.latestInbound uid with
          | none => none
          | some item => some { additions with player := additions.player ++ [item] }
      else if record.owner.type = .pet ∧ record.owner.contextId = playerPid.setWidth 64 ∧
          reading.raisedPets.any (fun pet => pet.petUid == record.owner.id) then
        if uid ∈ existing.pets record.owner.id then some additions
        else
          match reading.latestInbound uid with
          | none => none
          | some item =>
              some { additions with
                pets := Function.update additions.pets record.owner.id
                  (additions.pets record.owner.id ++ [item]) }
      else none

/-- The raised pets the save does not have, each at the first order that is free. -/
def addRaisedPets : List PlayerPetSnapshot → Finset (BitVec 32) → List PlayerPetSnapshot →
    Option (List PlayerPetSnapshot)
  | [], _, pets => some pets
  | raised :: rest, orders, pets =>
      if pets.any (fun pet => pet.petUid == raised.petUid) then addRaisedPets rest orders pets
      else if playerLoadPetMax ≤ pets.length then none
      else
        match (List.range playerLoadPetMax).find? fun order =>
            decide (BitVec.ofNat 32 order ∉ orders) with
        | none => none
        | some order =>
            addRaisedPets rest (insert (BitVec.ofNat 32 order) orders)
              (pets ++ [{ raised with order := BitVec.ofNat 32 order }])

/-! ## `normalize_items` -/

structure SnapshotNode where
  item : PlayerItemSnapshot
  parentUid : BitVec 64

structure NodeTable where
  nodes : List SnapshotNode := []
  positions : BitVec 64 → Option Nat := fun _ => none

/-- `positions.emplace` and `nodes.push_back`. -/
def NodeTable.push (table : NodeTable) (uid : BitVec 64) (node : SnapshotNode) :
    Option NodeTable :=
  if (table.positions uid).isSome then none
  else
    some { nodes := table.nodes ++ [node]
           positions := Function.update table.positions uid (some table.nodes.length) }

def savedParent (original : List PlayerItemSnapshot) (index : Nat) (item : PlayerItemSnapshot) :
    Option (BitVec 64) :=
  if item.parentIndex.toInt = playerSnapshotNoParent then some 0
  else if item.parentIndex.toInt < 0 ∨ index ≤ item.parentIndex.toNat then none
  else original[item.parentIndex.toNat]?.map PlayerItemSnapshot.objectUid

/-- The loop over the saved items: who is mentioned is where custody has him, or gone. -/
def originalNodes (original : List PlayerItemSnapshot) (mentioned : Finset (BitVec 64))
    (owned : OwnerRecords) (expectedOwner : ItemOwnerIdentity) :
    Nat → List PlayerItemSnapshot → NodeTable → Option NodeTable
  | _, [], table => some table
  | index, item :: items, table =>
      match savedParent original index item with
      | none => none
      | some parentUid =>
          let next := originalNodes original mentioned owned expectedOwner (index + 1) items
          let push (parentUid : BitVec 64) : Option NodeTable :=
            if item.objectUid = 0 then none
            else
              match owned item.objectUid with
              | none => table.push item.objectUid ⟨item, parentUid⟩
              | some record =>
                  if record.coinPayload = [] then table.push item.objectUid ⟨item, parentUid⟩
                  else
                    match coinItem record with
                    | none => none
                    | some coin =>
                        if coin.objectUid = item.objectUid then
                          table.push item.objectUid ⟨coin, parentUid⟩
                        else none
          if item.objectUid ∈ mentioned then
            match owned item.objectUid with
            | none => next table
            | some record =>
                if itemOwnerIdentityEqual record.owner expectedOwner = false then next table
                else (push record.parentItemUid).bind next
          else (push parentUid).bind next

def additionNodes (owned : OwnerRecords) (expectedOwner : ItemOwnerIdentity) :
    List PlayerItemSnapshot → NodeTable → Option NodeTable
  | [], table => some table
  | item :: items, table =>
      match owned item.objectUid with
      | none => none
      | some record =>
          if record.vnum ≠ item.vnum ∨
              itemOwnerIdentityEqual record.owner expectedOwner = false then
            none
          else
            (table.push item.objectUid ⟨item, record.parentItemUid⟩).bind
              (additionNodes owned expectedOwner items)

structure Visiting where
  states : Nat → Colour := fun _ => .unseen
  order : List Nat := []

/-- `visit`, with a bound on the depth of its recursion. -/
def visit (table : NodeTable) : Nat → Nat → Visiting → Option Visiting
  | 0, _, _ => none
  | fuel + 1, index, visiting =>
      let onPath := { visiting with states := Function.update visiting.states index .onPath }
      let settle (visiting : Visiting) : Visiting :=
        { states := Function.update visiting.states index .settled
          order := visiting.order ++ [index] }
      match visiting.states index with
      | .settled => some visiting
      | .onPath => none
      | .unseen =>
          match table.nodes[index]? with
          | none => none
          | some node =>
              if node.parentUid = 0 then some (settle onPath)
              else
                match table.positions node.parentUid with
                | none => none
                | some parent => (visit table fuel parent onPath).map settle

/-- The nodes in their order, each with the new index of its parent. -/
def emit (table : NodeTable) : List Nat → List PlayerItemSnapshot → (BitVec 64 → Option Nat) →
    Option (List PlayerItemSnapshot)
  | [], result, _ => some result
  | index :: rest, result, newPositions =>
      match table.nodes[index]? with
      | none => none
      | some node =>
          let place (parentIndex : BitVec 32) :=
            emit table rest (result ++ [{ node.item with parentIndex }])
              (if (newPositions node.item.objectUid).isSome then newPositions
                else Function.update newPositions node.item.objectUid (some result.length))
          if node.parentUid = 0 then place noParentIndex
          else
            match newPositions node.parentUid with
            | none => none
            | some parent => place (BitVec.ofNat 32 parent)

def normalizeItems (original additions : List PlayerItemSnapshot) (mentioned : Finset (BitVec 64))
    (owned : OwnerRecords) (expectedOwner : ItemOwnerIdentity) :
    Option (List PlayerItemSnapshot) := do
  let table ← originalNodes original mentioned owned expectedOwner 0 original {}
  let table ← additionNodes owned expectedOwner additions table
  let visiting ← (List.range table.nodes.length).foldlM
    (fun visiting index => visit table (table.nodes.length + 1) index visiting) {}
  emit table visiting.order [] fun _ => none

/-! ## The whole -/

/-- The items of the player and of his pets after all of it fit into a snapshot. -/
def withinObjects (items : List PlayerItemSnapshot) (pets : List PlayerPetSnapshot) : Bool :=
  decide (items.length + (pets.map fun pet => pet.items.length).sum ≤ playerSnapshotMaxObjects)

/-- What `reconcile` makes of the save, once it knows what is mentioned. -/
def reconcileSnapshot (order : IterationOrder) (playerPid : BitVec 32) (records : OwnerRecords)
    (reading : Reading) (snapshot : PlayerSnapshot) : Option PlayerSnapshot := do
  let existing ← existingOf snapshot
  let additions ← (order.list reading.mentioned).foldlM
    (Additions.mention playerPid records reading existing) {}
  let pets ← addRaisedPets reading.raisedPets
    (snapshot.pets.map PlayerPetSnapshot.order).toFinset snapshot.pets
  let items ← normalizeItems snapshot.items additions.player reading.mentioned records
    (playerOwner playerPid)
  let pets ← pets.mapM fun pet =>
    (normalizeItems pet.items (additions.pets pet.petUid) reading.mentioned records
      (if pet.petUid ≠ 0 then petOwner playerPid pet.petUid else playerOwner playerPid)).map
      fun items => { pet with items }
  if withinObjects items pets then some { snapshot with items, pets } else none

/-- `flatfile_shop_trade_materialization_reconcile` behind `load_catalog`. `custody` is the
catalogue of the item repository, if it can be loaded. -/
def reconcileCatalog (order : IterationOrder) (custody : Option OwnershipCatalog)
    (catalog : MaterializationCatalog) (playerPid : BitVec 32)
    (owned : List FlatfileItemOwnershipRecord) (snapshot : PlayerSnapshot) :
    Except Refusal PlayerSnapshot :=
  match emplaceRecords (fun _ => none) owned with
  | none => .error .invalid
  | some records =>
      match readLog playerPid catalog.events with
      | .error refusal => .error refusal
      | .ok reading =>
          match petRecords custody playerPid reading.raisedPets records,
            mentionCoins owned reading with
          | some records, some reading =>
              match mentionDestroyed custody (savedCoins snapshot) reading with
              | none => .error .invalid
              | some reading =>
                  if reading.mentioned = ∅ ∧ reading.raisedPets = [] then .ok snapshot
                  else
                    match reconcileSnapshot order playerPid records reading snapshot with
                    | none => .error .invalid
                    | some reconciled => .ok reconciled
          | _, _ => .error .invalid

def reconcile (sha256 : Bytes → Vector UInt8 32) (order : IterationOrder) (store : Option Bytes)
    (custodyStore : Option Bytes) (playerPid : BitVec 32)
    (owned : List FlatfileItemOwnershipRecord) (snapshot : PlayerSnapshot) :
    Except Refusal PlayerSnapshot :=
  if playerPid = 0 ∨ snapshot.pid ≠ playerPid then .error .invalid
  else
    match loadCatalog sha256 store with
    | .error refusal => .error refusal
    | .ok catalog =>
        reconcileCatalog order (Ownership.loadCatalog sha256 custodyStore) catalog playerPid owned
          snapshot

end Duris.Flatfile.Materialization
