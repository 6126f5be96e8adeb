import Duris.Item.OwnershipMirror

/-!
# What the live mirror takes of corpses

The `item_ownership_runtime_apply_corpse_*` functions and
`item_ownership_runtime_apply_world_corpse_raise` of `src/item/item_ownership_runtime.c`: a
committed command on a corpse moves what the corpse owns, and the clocks with it.
-/

namespace Duris.Item

open Player Flatfile.Ownership

/-- The part of `corpse_lifecycle_result` that is published. -/
structure CorpseLifecycleResult where
  ownerPid : BitVec 32 := 0
  saveId : BitVec 32 := 0
  action : CorpseLifecycleAction := .upsert
  corpseRevision : BitVec 64 := 0
  catalogRevision : BitVec 64 := 0
  corpseOwnerRevision : BitVec 64 := 0
  roomOwnerRevision : BitVec 64 := 0
  playerOwnerRevision : BitVec 64 := 0
  petOwnerRevision : BitVec 64 := 0
  walletRevision : BitVec 64 := 0
  bankRevision : BitVec 64 := 0
  maxItemRevision : BitVec 64 := 0
  itemCount : BitVec 32 := 0
  destructionOwnerRevision : BitVec 64 := 0
  maxDiscardedItemRevision : BitVec 64 := 0
  discardedItemCount : BitVec 32 := 0

namespace Mirror

def clockOrZero (m : Mirror) (owner : ItemOwnerIdentity) : BitVec 64 := (m.clock owner).getD 0

/-- The loop over the rows of a corpse: their number and the highest revision they get. -/
def countOwned (corpse : ItemOwnerIdentity) :
    Nat → BitVec 64 → List (BitVec 64 × OwnershipEntry) → Option (Nat × BitVec 64)
  | count, maximum, [] => some (count, maximum)
  | count, maximum, (_, entry) :: rows =>
      if ownerEqual entry.owner corpse = false then countOwned corpse count maximum rows
      else if entry.state ≠ ItemCustodyState.active ∨ entry.itemRevision = uint64Max then none
      else countOwned corpse (count + 1) (later maximum (entry.itemRevision + 1)) rows

/-- The rows of a corpse are as many, and get the revisions, as the result says. -/
def corpseCounted (m : Mirror) (corpse : ItemOwnerIdentity) (result : CorpseLifecycleResult) :
    Bool :=
  countOwned corpse 0 0 m.rows == some (result.itemCount.toNat, result.maxItemRevision)

def moveOwned (m : Mirror) (corpse : ItemOwnerIdentity)
    (move : OwnershipEntry → OwnershipEntry) : Mirror :=
  m.rows.foldl
    (fun m row => if ownerEqual row.2.owner corpse then m.setEntry row.1 (move row.2) else m) m

/-- A count of items and their highest revision are both there or both not. -/
def countConsistent (result : CorpseLifecycleResult) : Bool :=
  !((result.itemCount == 0 && result.maxItemRevision != 0) ||
    (result.itemCount != 0 && result.maxItemRevision == 0))

structure NestedTarget where
  rootItemUid : BitVec 64 := 0
  parentItemUid : BitVec 64 := 0
  parentRevision : BitVec 64 := 0

def NestedTarget.given (target : NestedTarget) : Bool :=
  target.rootItemUid != 0 && target.parentItemUid != 0 && target.parentRevision != 0

def corpseDisposition (m : Mirror) (ownerPid saveId : BitVec 32)
    (destination : ItemOwnerIdentity) (action : CorpseLifecycleAction)
    (result : CorpseLifecycleResult) (target : NestedTarget) : Option Mirror := do
  let nested : Bool := action = .releaseNested
  let destinationRevision :=
    if destination.type = ItemOwnerType.player then result.playerOwnerRevision
    else result.roomOwnerRevision
  if ownerPid = 0 ∨ saveId = 0 ∨ itemOwnerIdentityValid destination = false ∨
      result.ownerPid ≠ ownerPid ∨ result.saveId ≠ saveId ∨ result.action ≠ action ∨
      result.corpseRevision ≠ 0 ∨ result.corpseOwnerRevision = 0 ∨ destinationRevision = 0 ∨
      nested ≠ target.given ∨ countConsistent result = false then
    none
  let corpse : ItemOwnerIdentity := ⟨ItemOwnerType.corpse, corpseOwnerId ownerPid saveId, 0⟩
  if m.clockOrZero corpse ≠ result.corpseOwnerRevision - 1 ∨
      m.clockOrZero destination ≠ destinationRevision - 1 then
    none
  if nested ∧ ¬(m.find target.parentItemUid).any (fun parent =>
      parent.rootItemUid == target.rootItemUid && ownerEqual parent.owner destination &&
        parent.itemRevision == target.parentRevision &&
        parent.state == ItemCustodyState.active) then
    none
  if corpseCounted m corpse result = false then none
  let m := (m.setClock corpse result.corpseOwnerRevision).setClock destination destinationRevision
  some (m.moveOwned corpse fun entry =>
    { entry with
      itemRevision := entry.itemRevision + 1
      owner := destination
      ownerRevision := destinationRevision
      rootItemUid := if nested then target.rootItemUid else entry.rootItemUid
      parentItemUid :=
        if nested ∧ entry.parentItemUid = 0 then target.parentItemUid else entry.parentItemUid
      state := if action = .destroy then ItemCustodyState.destroyed else entry.state })

def applyCorpseRelease (m : Mirror) (ownerPid saveId roomVnum : BitVec 32)
    (result : CorpseLifecycleResult) : Mirror × Bool :=
  if roomVnum.toInt ≤ 0 then (m, false)
  else m.commit (m.corpseDisposition ownerPid saveId (roomOwner roomVnum) .release result {})

def applyCorpseDestruction (m : Mirror) (ownerPid saveId : BitVec 32)
    (result : CorpseLifecycleResult) : Mirror × Bool :=
  m.commit (m.corpseDisposition ownerPid saveId destructionOwner .destroy result {})

def applyCorpseNestedRelease (m : Mirror) (ownerPid saveId : BitVec 32)
    (destination : ItemOwnerIdentity) (target : NestedTarget) (result : CorpseLifecycleResult) :
    Mirror × Bool :=
  if destination.type ≠ ItemOwnerType.player ∧ destination.type ≠ ItemOwnerType.room then
    (m, false)
  else m.commit (m.corpseDisposition ownerPid saveId destination .releaseNested result target)

/-- The id of a corpse's owner where the ids are not checked first. -/
def packedCorpseId (ownerPid saveId : BitVec 32) : BitVec 64 :=
  (ownerPid.setWidth 64 <<< 32) ||| saveId.setWidth 64

def playerOwner (playerPid : BitVec 32) : ItemOwnerIdentity :=
  ⟨ItemOwnerType.player, playerPid.setWidth 64, 0⟩

def petOwner (petUid : BitVec 64) (playerPid : BitVec 32) : ItemOwnerIdentity :=
  ⟨ItemOwnerType.pet, petUid, playerPid.setWidth 64⟩

/-- What a resurrection and a raise do with the rows of the corpse. -/
def handOver (m : Mirror) (corpse destination : ItemOwnerIdentity) (revision : BitVec 64) :
    Mirror :=
  m.moveOwned corpse fun entry =>
    { entry with
      itemRevision := entry.itemRevision + 1
      owner := destination
      ownerRevision := revision }

def applyCorpseResurrection (m : Mirror) (ownerPid saveId playerPid oldRoomVnum : BitVec 32)
    (result : CorpseLifecycleResult) : Mirror × Bool :=
  m.commit <|
    if ownerPid = 0 ∨ saveId = 0 ∨ playerPid = 0 ∨ oldRoomVnum.toInt ≤ 0 ∨
        result.ownerPid ≠ ownerPid ∨ result.saveId ≠ saveId ∨ result.action ≠ .resurrect ∨
        result.corpseRevision ≠ 0 ∨ result.corpseOwnerRevision = 0 ∨
        result.roomOwnerRevision = 0 ∨ result.playerOwnerRevision = 0 ∨
        result.walletRevision = 0 ∨ countConsistent result = false then
      none
    else
      let corpse : ItemOwnerIdentity := ⟨ItemOwnerType.corpse, packedCorpseId ownerPid saveId, 0⟩
      let player := playerOwner playerPid
      let room := roomOwner oldRoomVnum
      if m.clockOrZero corpse ≠ result.corpseOwnerRevision - 1 ∨
          m.clockOrZero player ≠ result.playerOwnerRevision - 1 ∨
          m.clockOrZero room ≠ result.roomOwnerRevision - 1 then
        none
      else if corpseCounted m corpse result = false then none
      else
        let m := ((m.setClock corpse result.corpseOwnerRevision).setClock player
          result.playerOwnerRevision).setClock room result.roomOwnerRevision
        some (m.handOver corpse player result.playerOwnerRevision)

def applyCorpseRaise (m : Mirror) (ownerPid saveId playerPid : BitVec 32) (petUid : BitVec 64)
    (result : CorpseLifecycleResult) : Mirror × Bool :=
  let destinationRevision :=
    if petUid ≠ 0 then result.petOwnerRevision else result.playerOwnerRevision
  m.commit <|
    if ownerPid = 0 ∨ saveId = 0 ∨ playerPid = 0 ∨ result.ownerPid ≠ ownerPid ∨
        result.saveId ≠ saveId ∨ result.action ≠ .raiseFollower ∨ result.corpseRevision ≠ 0 ∨
        result.corpseOwnerRevision = 0 ∨ result.roomOwnerRevision ≠ 0 ∨
        destinationRevision = 0 ∨ result.walletRevision = 0 ∨ countConsistent result = false then
      none
    else
      let corpse : ItemOwnerIdentity := ⟨ItemOwnerType.corpse, packedCorpseId ownerPid saveId, 0⟩
      let destination := if petUid ≠ 0 then petOwner petUid playerPid else playerOwner playerPid
      if m.clockOrZero corpse ≠ result.corpseOwnerRevision - 1 ∨
          m.clockOrZero destination ≠ destinationRevision - 1 then
        none
      else if corpseCounted m corpse result = false then none
      else
        let m := (m.setClock corpse result.corpseOwnerRevision).setClock destination
          destinationRevision
        some (m.handOver corpse destination destinationRevision)

/-- The loop from a discarded item to the topmost discarded one above it: that one, and what
stands above it, with as many steps left. -/
def discardedRoot (m : Mirror) (selected : List (BitVec 64)) :
    Nat → BitVec 64 → BitVec 64 → BitVec 64 × BitVec 64
  | 0, root, parent => (root, parent)
  | steps + 1, root, parent =>
      if selected.contains parent then
        discardedRoot m selected steps parent
          (((m.find parent).map OwnershipEntry.parentItemUid).getD 0)
      else (root, parent)

def targetRoots (m : Mirror) (itemUids : List (BitVec 64)) : Option (List (BitVec 64)) :=
  itemUids.mapM fun uid =>
    let (root, parent) := discardedRoot m itemUids itemUids.length uid
      (((m.find uid).map OwnershipEntry.parentItemUid).getD 0)
    if itemUids.contains parent then none else some root

def discardedEntry (itemUids : List (BitVec 64)) (result : CorpseLifecycleResult)
    (root : BitVec 64) (entry : OwnershipEntry) : OwnershipEntry :=
  { entry with
    rootItemUid := root
    parentItemUid := if itemUids.contains entry.parentItemUid then entry.parentItemUid else 0
    itemRevision := entry.itemRevision + 1
    owner := destructionOwner
    ownerRevision := result.destructionOwnerRevision
    state := ItemCustodyState.destroyed }

def applyCorpseDiscarded (m : Mirror) (ownerPid saveId : BitVec 32) (itemUids : List (BitVec 64))
    (result : CorpseLifecycleResult) : Mirror × Bool :=
  if (result.action ≠ .release ∧ result.action ≠ .releaseNested ∧ result.action ≠ .destroy ∧
        result.action ≠ .resurrect ∧ result.action ≠ .raiseFollower) ∨
      result.ownerPid ≠ ownerPid ∨ result.saveId ≠ saveId ∨
      itemUids.length ≠ result.discardedItemCount.toNat then
    (m, false)
  else if itemUids = [] then
    (m, result.destructionOwnerRevision = 0 && result.maxDiscardedItemRevision = 0)
  else
    m.commit <| do
      if ownerPid = 0 ∨ saveId = 0 ∨ result.corpseOwnerRevision < 2 ∨
          result.destructionOwnerRevision = 0 ∨ result.maxDiscardedItemRevision = 0 then
        none
      let corpse : ItemOwnerIdentity := ⟨ItemOwnerType.corpse, corpseOwnerId ownerPid saveId, 0⟩
      if m.clockOrZero corpse ≠ result.corpseOwnerRevision - 2 ∨
          (m.clock destructionOwner).any (· ≠ result.destructionOwnerRevision - 1) then
        none
      if ¬itemUids.Nodup ∨ itemUids.any fun uid => uid == 0 || !((m.find uid).any fun entry =>
          ownerEqual entry.owner corpse && entry.state == ItemCustodyState.active &&
            entry.itemRevision != uint64Max) then
        none
      let roots ← targetRoots m itemUids
      let revisions := itemUids.filterMap fun uid =>
        (m.find uid).map fun entry => entry.itemRevision + 1
      if revisions.foldl later 0 ≠ result.maxDiscardedItemRevision then none
      let discarded := (itemUids.zip roots).foldl
        (fun m row =>
          match m.find row.1 with
          | some entry => m.setEntry row.1 (discardedEntry itemUids result row.2 entry)
          | none => m) m
      some ((discarded.setClock corpse (result.corpseOwnerRevision - 1)).setClock
        destructionOwner result.destructionOwnerRevision)

/-! ## Corpses of the world -/

structure PlannedEntry where
  uid : BitVec 64
  root : BitVec 64
  parent : BitVec 64
  revision : BitVec 64
  destroy : Bool

/-- Whether an ancestor is of the other kind, by the loop up to the topmost item; `depth` is
how many steps were made. -/
def detachedAbove (m : Mirror) (discardedUids : List (BitVec 64)) (destroy : Bool) (limit : Nat) :
    Nat → Nat → Bool → BitVec 64 → Option Bool
  | 0, _, _, _ => none
  | fuel + 1, depth, detached, ancestorUid =>
      if ancestorUid = 0 then some detached
      else if limit < depth then none
      else
        match m.find ancestorUid with
        | none => none
        | some ancestor =>
            detachedAbove m discardedUids destroy limit fuel (depth + 1)
              (detached || discardedUids.contains ancestorUid != destroy) ancestor.parentItemUid

/-- The loop from a kept parent to the topmost item of its kind. -/
def plannedRoot (m : Mirror) (kind : BitVec 64 → Bool) : Nat → BitVec 64 → Option (BitVec 64)
  | steps, root =>
      match m.find root with
      | none => none
      | some ancestor =>
          let next := ancestor.parentItemUid
          if next = 0 ∨ kind next = false then some root
          else
            match steps with
            | 0 => none
            | steps + 1 => plannedRoot m kind steps next

/-- The root and the parent an item of the corpse gets: its parent stays when it is kept or
destroyed with it. -/
def plannedPlace (m : Mirror) (kind : BitVec 64 → Bool) (limit : Nat) (uid parent : BitVec 64) :
    Option (BitVec 64 × BitVec 64) :=
  if parent ≠ 0 ∧ kind parent then (plannedRoot m kind limit parent).map fun root => (root, parent)
  else some (uid, 0)

/-- The new place of one item of the corpse, with whether it is on a boundary. -/
def planEntry (m : Mirror) (sourceUid petUid : BitVec 64)
    (durableUids discardedUids : List (BitVec 64)) (uid : BitVec 64) (entry : OwnershipEntry) :
    Option (PlannedEntry × Bool) :=
  let destroy := discardedUids.contains uid
  let limit := durableUids.length + discardedUids.length
  let kind (item : BitVec 64) : Bool :=
    if destroy then discardedUids.contains item else durableUids.contains item
  let parentSelected := entry.parentItemUid != 0 &&
    (durableUids.contains entry.parentItemUid || discardedUids.contains entry.parentItemUid)
  if (destroy = false ∧ durableUids.contains uid = false) ∨
      entry.state ≠ ItemCustodyState.active ∨ entry.itemRevision = uint64Max then
    none
  else if if uid = sourceUid then entry.parentItemUid ≠ 0 else parentSelected = false then none
  else
    match detachedAbove m discardedUids destroy limit (limit + 3) 0 false entry.parentItemUid,
        plannedPlace m kind limit uid entry.parentItemUid with
    | some detached, some (root, parent) =>
        let revision := entry.itemRevision + (if detached then 1 else 0) +
          (if destroy || petUid != 0 then 1 else 0)
        if revision < entry.itemRevision then none
        else
          some ({ uid, root, parent, revision, destroy },
            entry.parentItemUid != 0 && discardedUids.contains entry.parentItemUid != destroy)
    | _, _ => none

def planRaise (m : Mirror) (sourceUid petUid : BitVec 64) (room : ItemOwnerIdentity)
    (durableUids discardedUids : List (BitVec 64)) : Option (List (PlannedEntry × Bool)) :=
  (m.rows.filter fun row =>
      ownerEqual row.2.owner room && row.2.rootItemUid == sourceUid).mapM fun row =>
    planEntry m sourceUid petUid durableUids discardedUids row.1 row.2

/-- The arguments of `item_ownership_runtime_apply_world_corpse_raise` but the result. -/
structure WorldRaise where
  sourceUid : BitVec 64
  roomVnum : BitVec 32
  playerPid : BitVec 32
  petUid : BitVec 64
  durableUids : List (BitVec 64)
  discardedUids : List (BitVec 64)

def WorldRaise.room (raise : WorldRaise) : ItemOwnerIdentity := roomOwner raise.roomVnum

def raisedEntry (raise : WorldRaise) (result : CorpseLifecycleResult) (change : PlannedEntry)
    (entry : OwnershipEntry) : OwnershipEntry :=
  { entry with
    rootItemUid := change.root
    parentItemUid := change.parent
    itemRevision := change.revision
    owner :=
      if change.destroy then destructionOwner
      else if raise.petUid ≠ 0 then petOwner raise.petUid raise.playerPid
      else raise.room
    ownerRevision :=
      if change.destroy then result.destructionOwnerRevision
      else if raise.petUid ≠ 0 then result.petOwnerRevision
      else result.corpseOwnerRevision
    state := if change.destroy then ItemCustodyState.destroyed else entry.state }

def writePlanned (raise : WorldRaise) (result : CorpseLifecycleResult) :
    Mirror → List PlannedEntry → Mirror × Bool
  | m, [] => (m, true)
  | m, change :: planned =>
      match m.find change.uid with
      | none => (m, false)
      | some entry =>
          writePlanned raise result (m.setEntry change.uid (raisedEntry raise result change entry))
            planned

/-- What `item_ownership_runtime_apply_world_corpse_raise` requires of its arguments. -/
def worldRaiseRequested (raise : WorldRaise) (result : CorpseLifecycleResult) : Bool :=
  raise.sourceUid != 0 && raise.sourceUid == packedCorpseId result.ownerPid result.saveId &&
    decide (0 < raise.roomVnum.toInt) && raise.playerPid != 0 &&
    result.action == .raiseWorldFollower && result.corpseRevision == 0 &&
    result.catalogRevision == result.corpseOwnerRevision && result.corpseOwnerRevision != 0 &&
    result.roomOwnerRevision == 0 && result.playerOwnerRevision == 0 &&
    result.walletRevision == 0 && result.bankRevision == 0 &&
    result.itemCount.toNat == raise.durableUids.length &&
    result.discardedItemCount.toNat == raise.discardedUids.length &&
    result.discardedItemCount != 0 &&
    (if raise.petUid ≠ 0 then
      result.petOwnerRevision != 0 && raise.petUid == raise.sourceUid
    else result.petOwnerRevision == 0) &&
    !raise.durableUids.contains 0 && raise.durableUids.Nodup &&
    !raise.discardedUids.contains 0 && raise.discardedUids.Nodup &&
    !raise.discardedUids.any raise.durableUids.contains &&
    raise.discardedUids.contains raise.sourceUid

def highestPlanned (planned : List PlannedEntry) (destroy : Bool) : BitVec 64 :=
  ((planned.filter (·.destroy == destroy)).map PlannedEntry.revision).foldl later 0

/-- What `item_ownership_runtime_apply_world_corpse_raise` requires of the rows it planned, with
their boundaries, and of the clocks. -/
def worldRaisePlanned (m : Mirror) (raise : WorldRaise) (result : CorpseLifecycleResult)
    (rows : List (PlannedEntry × Bool)) : Bool :=
  let planned := rows.map Prod.fst
  let sourceSteps := (rows.filter Prod.snd).length + 1 + (if raise.petUid ≠ 0 then 1 else 0)
  planned.length == raise.durableUids.length + raise.discardedUids.length &&
    highestPlanned planned false == result.maxItemRevision &&
    highestPlanned planned true == result.maxDiscardedItemRevision &&
    decide (sourceSteps ≤ result.corpseOwnerRevision.toNat) &&
    m.clockOrZero raise.room == result.corpseOwnerRevision - BitVec.ofNat 64 sourceSteps &&
    (raise.petUid == 0 ||
      m.clockOrZero (petOwner raise.petUid raise.playerPid) == result.petOwnerRevision - 1) &&
    (m.clock destructionOwner).all (· == result.destructionOwnerRevision - 1)

/-- The checks of `item_ownership_runtime_apply_world_corpse_raise`: what it plans. -/
def worldRaisePlan (m : Mirror) (raise : WorldRaise) (result : CorpseLifecycleResult) :
    Option (List PlannedEntry) :=
  if worldRaiseRequested raise result = false then none
  else
    match planRaise m raise.sourceUid raise.petUid raise.room raise.durableUids
        raise.discardedUids with
    | none => none
    | some rows =>
        if worldRaisePlanned m raise result rows then some (rows.map Prod.fst) else none

def applyWorldCorpseRaise (m : Mirror) (raise : WorldRaise) (result : CorpseLifecycleResult) :
    Mirror × Bool :=
  match worldRaisePlan m raise result with
  | none => (m, false)
  | some planned =>
      match writePlanned raise result m planned with
      | (m, false) => (m, false)
      | (m, true) =>
          let m := (m.setClock raise.room result.corpseOwnerRevision).setClock destructionOwner
            result.destructionOwnerRevision
          (if raise.petUid ≠ 0 then
              m.setClock (petOwner raise.petUid raise.playerPid) result.petOwnerRevision
            else m, true)

/-! ## Publications -/

inductive Publication where
  | hydrate (entry : OwnershipEntry)
  | hydrateBatch (batch : List OwnershipEntry)
  | hydrateManyAtomic (batch : List OwnershipEntry)
  | reconcileCollector (batch : List OwnershipEntry)
  | apply (payload : ItemTransferPayload) (result : ItemTransferResult)
  | applyCollector (payload : Economy.CollectorCommandPayload) (result : CollectorCommandResult)
  | applyCorpseRelease (ownerPid saveId roomVnum : BitVec 32) (result : CorpseLifecycleResult)
  | applyCorpseDestruction (ownerPid saveId : BitVec 32) (result : CorpseLifecycleResult)
  | applyCorpseNestedRelease (ownerPid saveId : BitVec 32) (destination : ItemOwnerIdentity)
      (target : NestedTarget) (result : CorpseLifecycleResult)
  | applyCorpseResurrection (ownerPid saveId playerPid oldRoomVnum : BitVec 32)
      (result : CorpseLifecycleResult)
  | applyCorpseRaise (ownerPid saveId playerPid : BitVec 32) (petUid : BitVec 64)
      (result : CorpseLifecycleResult)
  | applyCorpseDiscarded (ownerPid saveId : BitVec 32) (itemUids : List (BitVec 64))
      (result : CorpseLifecycleResult)
  | applyWorldCorpseRaise (raise : WorldRaise) (result : CorpseLifecycleResult)

def publish (m : Mirror) : Publication → Mirror × Bool
  | .hydrate entry => m.hydrate entry
  | .hydrateBatch batch => m.hydrateBatch batch
  | .hydrateManyAtomic batch => m.hydrateManyAtomic batch
  | .reconcileCollector batch => m.reconcileCollector batch
  | .apply payload result => m.apply payload result
  | .applyCollector payload result => m.applyCollector payload result
  | .applyCorpseRelease ownerPid saveId roomVnum result =>
      m.applyCorpseRelease ownerPid saveId roomVnum result
  | .applyCorpseDestruction ownerPid saveId result =>
      m.applyCorpseDestruction ownerPid saveId result
  | .applyCorpseNestedRelease ownerPid saveId destination target result =>
      m.applyCorpseNestedRelease ownerPid saveId destination target result
  | .applyCorpseResurrection ownerPid saveId playerPid oldRoomVnum result =>
      m.applyCorpseResurrection ownerPid saveId playerPid oldRoomVnum result
  | .applyCorpseRaise ownerPid saveId playerPid petUid result =>
      m.applyCorpseRaise ownerPid saveId playerPid petUid result
  | .applyCorpseDiscarded ownerPid saveId itemUids result =>
      m.applyCorpseDiscarded ownerPid saveId itemUids result
  | .applyWorldCorpseRaise raise result => m.applyWorldCorpseRaise raise result

end Mirror

end Duris.Item
