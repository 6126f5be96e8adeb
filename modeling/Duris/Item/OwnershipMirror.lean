import Duris.Item.OwnershipRuntime
import Duris.Flatfile.ItemCustody
import Mathlib

/-!
# What the live mirror of item ownership takes

`src/item/item_ownership_runtime.c`: the game thread keeps two hash maps, the items by uid and
the clocks of the owners, and brings them up to what the repositories have committed. Here is
how entries are hydrated and how a transfer and a collector command are published; the
corpses follow in `Duris.Item.OwnershipCorpses`.

A hash map is an association list in the order it is walked through. A function that writes
only behind its last check is the option of the mirror it leaves, and `commit` answers for it;
the others give the mirror they leave in either case. Pointers are not null and allocation
succeeds, so what only a failed allocation undoes is left out.
-/

namespace Duris.Item

open Player Economy

deriving instance DecidableEq for OwnershipEntry

/-- `ITEM_OWNERSHIP_RUNTIME_MAX`. -/
def ownershipRuntimeMax : Nat := 262144

def uint64Max : BitVec 64 := BitVec.allOnes 64

/-- `std::max` of two revisions. -/
def later (left right : BitVec 64) : BitVec 64 := if left < right then right else left

/-- `entries` and `owner_revisions`. -/
structure Mirror where
  entries : AList fun _ : BitVec 64 => OwnershipEntry
  ownerRevisions : AList fun _ : ItemOwnerIdentity => BitVec 64

namespace Mirror

def find (m : Mirror) (itemUid : BitVec 64) : Option OwnershipEntry := m.entries.lookup itemUid

def clock (m : Mirror) (owner : ItemOwnerIdentity) : Option (BitVec 64) :=
  m.ownerRevisions.lookup owner

def size (m : Mirror) : Nat := m.entries.entries.length

def rows (m : Mirror) : List (BitVec 64 × OwnershipEntry) :=
  m.entries.entries.map fun row => (row.1, row.2)

def setEntry (m : Mirror) (itemUid : BitVec 64) (entry : OwnershipEntry) : Mirror :=
  { m with entries := m.entries.insert itemUid entry }

def eraseEntry (m : Mirror) (itemUid : BitVec 64) : Mirror :=
  { m with entries := m.entries.erase itemUid }

def setClock (m : Mirror) (owner : ItemOwnerIdentity) (revision : BitVec 64) : Mirror :=
  { m with ownerRevisions := m.ownerRevisions.insert owner revision }

def eraseClock (m : Mirror) (owner : ItemOwnerIdentity) : Mirror :=
  { m with ownerRevisions := m.ownerRevisions.erase owner }

/-- The answer of a function that writes behind its last check. -/
def commit (m : Mirror) : Option Mirror → Mirror × Bool
  | some after => (after, true)
  | none => (m, false)

/-! ## Hydration -/

def hydrateOwner (m : Mirror) (owner : ItemOwnerIdentity) (revision : BitVec 64) :
    Mirror × Bool :=
  m.commit <|
    if itemOwnerIdentityValid owner = false then none
    else
      match m.clock owner with
      | some current => if revision < current then none else some (m.setClock owner revision)
      | none => some (m.setClock owner revision)

def hydrate (m : Mirror) (entry : OwnershipEntry) : Mirror × Bool :=
  if entry.itemUid = 0 ∨ entry.rootItemUid = 0 ∨ itemOwnerIdentityValid entry.owner = false ∨
      entry.state = ItemCustodyState.absent ∨ entry.vnum.toInt < 0 then
    (m, false)
  else
    let found := m.find entry.itemUid
    let (m, hydrated) := m.hydrateOwner entry.owner entry.ownerRevision
    if !hydrated then (m, false)
    else
      match found with
      | some current =>
          if entry.itemRevision < current.itemRevision then (m, false)
          else (m.setEntry entry.itemUid entry, true)
      | none =>
          if ownershipRuntimeMax ≤ m.size then (m, false)
          else (m.setEntry entry.itemUid entry, true)

/-- A row of the mirror that is newer than an entry, or as new and another. -/
def contradicts (current entry : OwnershipEntry) : Bool :=
  entry.itemRevision < current.itemRevision ||
    (current.itemRevision == entry.itemRevision &&
      (current.rootItemUid != entry.rootItemUid ||
        current.parentItemUid != entry.parentItemUid ||
        !ownerEqual current.owner entry.owner || current.vnum != entry.vnum ||
        current.state != entry.state))

/-- What `item_ownership_runtime_hydrate_batch` requires of an entry behind `seen`. -/
def batchEntryValid (m : Mirror) (owner : ItemOwnerIdentity) (ownerRevision : BitVec 64)
    (seen : List (BitVec 64)) (entry : OwnershipEntry) : Bool :=
  entry.itemUid != 0 && entry.rootItemUid != 0 && ownerEqual entry.owner owner &&
    entry.ownerRevision == ownerRevision && entry.state == ItemCustodyState.active &&
    decide (0 ≤ entry.vnum.toInt) && !seen.contains entry.itemUid &&
    (m.find entry.itemUid).all fun current => !contradicts current entry

def batchValidFrom (m : Mirror) (owner : ItemOwnerIdentity) (ownerRevision : BitVec 64) :
    List (BitVec 64) → List OwnershipEntry → Bool
  | _, [] => true
  | seen, entry :: batch =>
      batchEntryValid m owner ownerRevision seen entry &&
        batchValidFrom m owner ownerRevision (entry.itemUid :: seen) batch

def newCount (m : Mirror) (batch : List OwnershipEntry) : Nat :=
  batch.countP fun entry => (m.find entry.itemUid).isNone

def restoreEntries (before : Mirror) (m : Mirror) : List OwnershipEntry → Mirror
  | [] => m
  | entry :: batch =>
      match before.find entry.itemUid with
      | some value => restoreEntries before (m.setEntry entry.itemUid value) batch
      | none => restoreEntries before (m.eraseEntry entry.itemUid) batch

def restoreClock (before : Mirror) (m : Mirror) (owner : ItemOwnerIdentity) : Mirror :=
  match before.clock owner with
  | some revision => m.setClock owner revision
  | none => m.eraseClock owner

/-- The loop of `item_ownership_runtime_hydrate_batch`: whether all were taken. -/
def hydrateAll : Mirror → List OwnershipEntry → Mirror × Bool
  | m, [] => (m, true)
  | m, entry :: batch =>
      match m.hydrate entry with
      | (m, true) => hydrateAll m batch
      | (m, false) => (m, false)

def hydrateBatch (m : Mirror) (batch : List OwnershipEntry) : Mirror × Bool :=
  if ownershipRuntimeMax < batch.length then (m, false)
  else
    match batch with
    | [] => (m, true)
    | first :: _ =>
        if batchValidFrom m first.owner first.ownerRevision [] batch = false then (m, false)
        else if (m.clock first.owner).any (first.ownerRevision < ·) then (m, false)
        else if ownershipRuntimeMax - newCount m batch < m.size then (m, false)
        else
          match hydrateAll m batch with
          | (after, true) => (after, true)
          | (after, false) =>
              (restoreClock m (restoreEntries m after batch) first.owner, false)

/-- What `item_ownership_runtime_hydrate_many_atomic` has gathered of the batch. -/
structure Incoming where
  itemUids : List (BitVec 64) := []
  owners : AList (fun _ : ItemOwnerIdentity => BitVec 64) := ∅

def Incoming.admits (m : Mirror) (incoming : Incoming) (entry : OwnershipEntry) : Bool :=
  entry.itemUid != 0 && entry.rootItemUid != 0 && itemOwnerIdentityValid entry.owner &&
    entry.state != ItemCustodyState.absent && decide (0 ≤ entry.vnum.toInt) &&
    !incoming.itemUids.contains entry.itemUid &&
    ((incoming.owners.lookup entry.owner).all fun revision => revision == entry.ownerRevision) &&
    (m.find entry.itemUid).all fun current => !contradicts current entry

def Incoming.gather (m : Mirror) : Incoming → List OwnershipEntry → Option Incoming
  | incoming, [] => some incoming
  | incoming, entry :: batch =>
      if incoming.admits m entry then
        gather m
          { itemUids := entry.itemUid :: incoming.itemUids
            owners := incoming.owners.insert entry.owner entry.ownerRevision } batch
      else none

/-- The checks of `item_ownership_runtime_hydrate_many_atomic`: the owners of the batch. -/
def manyOwners (m : Mirror) (batch : List OwnershipEntry) :
    Option (AList fun _ : ItemOwnerIdentity => BitVec 64) :=
  match Incoming.gather m {} batch with
  | none => none
  | some incoming =>
      if incoming.owners.entries.any fun row => (m.clock row.1).any (row.2 < ·) then none
      else if ownershipRuntimeMax - newCount m batch < m.size then none
      else some incoming.owners

def hydrateManyAtomic (m : Mirror) (batch : List OwnershipEntry) : Mirror × Bool :=
  if ownershipRuntimeMax < batch.length then (m, false)
  else if batch = [] then (m, true)
  else
    m.commit <| (manyOwners m batch).map fun owners =>
      owners.entries.foldl (fun m row => m.setClock row.1 row.2)
        (batch.foldl (fun m entry => m.setEntry entry.itemUid entry) m)

/-! ## The collector's domain -/

/-- What `item_ownership_runtime_reconcile_collector` requires of an entry behind `seen`. -/
def collectorEntryValid (m : Mirror) (seen : List OwnershipEntry) (entry : OwnershipEntry) :
    Bool :=
  entry.itemUid != 0 && entry.rootItemUid == entry.itemUid && entry.parentItemUid == 0 &&
    entry.owner.type == ItemOwnerType.collector && entry.owner.id != 0 &&
    entry.owner.contextId == 0 && entry.itemRevision != 0 && entry.ownerRevision != 0 &&
    decide (0 < entry.vnum.toInt) && entry.state == ItemCustodyState.active &&
    seen.all (fun other => other.itemUid != entry.itemUid && other.owner.id != entry.owner.id) &&
    ((m.find entry.itemUid).all fun current =>
      !(contradicts current entry ||
        (current.itemRevision == entry.itemRevision &&
          current.ownerRevision != entry.ownerRevision))) &&
    (m.clock entry.owner).all fun revision => !(entry.ownerRevision < revision)

def collectorValidFrom (m : Mirror) : List OwnershipEntry → List OwnershipEntry → Bool
  | _, [] => true
  | seen, entry :: batch =>
      collectorEntryValid m seen entry && collectorValidFrom m (entry :: seen) batch

/-- A row of the collector that the batch does not name. -/
def staleEntry (batch : List OwnershipEntry) (itemUid : BitVec 64) (entry : OwnershipEntry) :
    Bool :=
  entry.owner.type == ItemOwnerType.collector &&
    batch.all fun incoming => incoming.itemUid != itemUid

/-- A clock of the collector that the batch does not name. -/
def staleOwner (batch : List OwnershipEntry) (owner : ItemOwnerIdentity) : Bool :=
  owner.type == ItemOwnerType.collector && batch.all fun incoming => incoming.owner.id != owner.id

/-- The rows and the clocks of the collector that the batch does not name go. -/
def extractStale (m : Mirror) (batch : List OwnershipEntry) : Mirror :=
  { entries := ⟨m.entries.entries.filter fun row => !staleEntry batch row.1 row.2,
      m.entries.nodupKeys.sublist List.filter_sublist⟩
    ownerRevisions := ⟨m.ownerRevisions.entries.filter fun row => !staleOwner batch row.1,
      m.ownerRevisions.nodupKeys.sublist List.filter_sublist⟩ }

def reconcileCollector (m : Mirror) (batch : List OwnershipEntry) : Mirror × Bool :=
  m.commit <|
    if ownershipRuntimeMax < batch.length then none
    else if collectorValidFrom m [] batch = false then none
    else
      let staleEntryCount := (m.rows.filter fun row => staleEntry batch row.1 row.2).length
      if ownershipRuntimeMax - newCount m batch < m.size - staleEntryCount then none
      else
        some (batch.foldl
          (fun m entry => (m.setEntry entry.itemUid entry).setClock entry.owner entry.ownerRevision)
          (extractStale m batch))

/-! ## Transfers -/

/-- `item_ownership_runtime_owner_revision`: an owner the mirror has no clock for gets one. -/
def ownerRevision (m : Mirror) (owner : ItemOwnerIdentity) : Mirror × Option (BitVec 64) :=
  match m.clock owner with
  | some revision => (m, some revision)
  | none =>
      match m.hydrateOwner owner 0 with
      | (m, true) => (m, some 0)
      | (m, false) => (m, none)

def destructionOwner : ItemOwnerIdentity := ⟨ItemOwnerType.destruction, 0, 0⟩

def craftConsumed (m : Mirror) (payload : ItemTransferPayload) (result : ItemTransferResult)
    (expected : ItemTransferEntry) : Option OwnershipEntry :=
  match itemTransferTargetTopology payload expected.itemUid with
  | none => none
  | some (targetRoot, targetParent) =>
      if expected.expectedItemRevision = uint64Max then none
      else
        let fits (current : OwnershipEntry) : Bool :=
          current.vnum == expected.vnum && current.rootItemUid == expected.rootItemUid &&
            current.parentItemUid == expected.parentItemUid &&
            (current.itemRevision == expected.expectedItemRevision &&
                ownerEqual current.owner payload.fromOwner &&
                current.state == ItemCustodyState.active ||
              current.itemRevision == expected.expectedItemRevision + 1 &&
                current.owner.type == ItemOwnerType.destruction &&
                current.state == ItemCustodyState.destroyed)
        if (m.find expected.itemUid).all fits then
          some
            { itemUid := expected.itemUid
              rootItemUid := targetRoot
              parentItemUid := targetParent
              owner := destructionOwner
              itemRevision := expected.expectedItemRevision + 1
              ownerRevision := result.fromOwnerRevision
              vnum := expected.vnum
              state := ItemCustodyState.destroyed }
        else none

/-- The loop from an output to the root above it, with as many steps left. -/
def craftRoot (outputs : List PlayerItemSnapshot) :
    Nat → BitVec 64 → BitVec 32 → Option (BitVec 64)
  | steps, root, parent =>
      if parent = noParentIndex then some root
      else
        match steps with
        | 0 => none
        | steps + 1 =>
            if parent.toInt < 0 then none
            else
              match outputs[parent.toNat]? with
              | none => none
              | some above => craftRoot outputs steps above.objectUid above.parentIndex

def craftProduced (m : Mirror) (payload : ItemTransferPayload) (result : ItemTransferResult)
    (outputs : List PlayerItemSnapshot) (output : PlayerItemSnapshot) : Option OwnershipEntry :=
  if output.objectUid = 0 ∨ output.vnum.toInt ≤ 0 then none
  else
    match craftRoot outputs outputs.length output.objectUid output.parentIndex with
    | none => none
    | some root =>
        let parentUid :=
          if output.parentIndex = noParentIndex then 0
          else ((outputs[output.parentIndex.toNat]?).map PlayerItemSnapshot.objectUid).getD 0
        let fits (existing : OwnershipEntry) : Bool :=
          existing.itemRevision == 1 && existing.rootItemUid == root &&
            existing.parentItemUid == parentUid && existing.vnum == output.vnum &&
            existing.state == ItemCustodyState.active && ownerEqual existing.owner payload.toOwner
        if (m.find output.objectUid).all fits then
          some
            { itemUid := output.objectUid
              rootItemUid := root
              parentItemUid := parentUid
              owner := payload.toOwner
              itemRevision := 1
              ownerRevision := result.toOwnerRevision
              vnum := output.vnum
              state := ItemCustodyState.active }
        else none

/-- The outputs of a craft, the selected item first and no uid twice. -/
def craftedOutputs (payload : ItemTransferPayload) : Option (List PlayerItemSnapshot) :=
  let decoded :=
    if payload.itemBlob = [] then some []
    else (playerItemSnapshotListDecode payload.itemBlob).toOption
  decoded.filter fun outputs =>
    outputs.head?.all (·.objectUid == payload.selectedItemUid) &&
      (outputs.map PlayerItemSnapshot.objectUid).Nodup

/-- What `item_ownership_runtime_apply_craft` puts together before it writes. -/
def craftChanges (m : Mirror) (payload : ItemTransferPayload) (result : ItemTransferResult) :
    Option (List OwnershipEntry) :=
  if payload.reason ≠ ItemTransferReason.craft ∨ payload.items = [] ∨
      result.itemCount.toNat ≠ payload.items.length ∨
      result.rootItemUid ≠ payload.selectedItemUid ∨
      result.fromOwnerRevision ≠ result.toOwnerRevision ∨
      ownerEqual payload.fromOwner payload.toOwner = false then
    none
  else do
    let outputs ← craftedOutputs payload
    let consumed ← payload.items.mapM (craftConsumed m payload result)
    let produced ← outputs.mapM (craftProduced m payload result outputs)
    some (consumed ++ produced)

def applyCraft (m : Mirror) (payload : ItemTransferPayload) (result : ItemTransferResult) :
    Mirror × Bool :=
  match craftChanges m payload result with
  | none => (m, false)
  | some changes =>
      match m.hydrateManyAtomic changes with
      | (m, false) => (m, false)
      | (m, true) =>
          match m.hydrateOwner payload.fromOwner result.fromOwnerRevision with
          | (m, false) => (m, false)
          | (m, true) => m.hydrateOwner destructionOwner result.fromOwnerRevision

def createdEntry (m : Mirror) (payload : ItemTransferPayload) (result : ItemTransferResult)
    (item : ItemTransferEntry) : Option OwnershipEntry :=
  if item.expectedState ≠ ItemCustodyState.absent ∨
      item.expectedItemRevision ≠ itemTransferAbsentRevision ∨
      (m.find item.itemUid).isSome then
    none
  else
    match itemTransferTargetTopology payload item.itemUid with
    | none => none
    | some (targetRoot, targetParent) =>
        if item.vnum.toInt ≤ 0 then none
        else
          some
            { itemUid := item.itemUid
              rootItemUid := targetRoot
              parentItemUid := targetParent
              owner := payload.toOwner
              itemRevision := 1
              ownerRevision := result.toOwnerRevision
              vnum := item.vnum
              state := ItemCustodyState.active }

def transferClocksValid (m : Mirror) (payload : ItemTransferPayload)
    (result : ItemTransferResult) : Bool :=
  let follows (owner : ItemOwnerIdentity) (expected published : BitVec 64) : Bool :=
    match m.clock owner with
    | some revision =>
        revision != uint64Max && !(published < revision) &&
          (expected == 0 || expected == revision)
    | none => expected == 0
  itemOwnerIdentityValid payload.fromOwner && itemOwnerIdentityValid payload.toOwner &&
    result.fromOwnerRevision != 0 && result.toOwnerRevision != 0 &&
    follows payload.fromOwner payload.expectedFromRevision result.fromOwnerRevision &&
    follows payload.toOwner payload.expectedToRevision result.toOwnerRevision &&
    !(ownerEqual payload.fromOwner payload.toOwner &&
      result.fromOwnerRevision != result.toOwnerRevision)

def stagedEntry (m : Mirror) (payload : ItemTransferPayload) (result : ItemTransferResult)
    (item : ItemTransferEntry) : Option OwnershipEntry :=
  match m.find item.itemUid, itemTransferTargetTopology payload item.itemUid with
  | some found, some (targetRoot, targetParent) =>
      if item.itemUid = 0 ∨ found.itemRevision ≠ item.expectedItemRevision ∨
          found.rootItemUid ≠ item.rootItemUid ∨ found.parentItemUid ≠ item.parentItemUid ∨
          found.vnum ≠ item.vnum ∨ found.state ≠ item.expectedState ∨
          item.expectedState = ItemCustodyState.absent ∨
          ownerEqual found.owner payload.fromOwner = false ∨ found.itemRevision = uint64Max then
        none
      else
        some { found with
          itemRevision := found.itemRevision + 1
          rootItemUid := targetRoot
          parentItemUid := targetParent
          owner := payload.toOwner
          ownerRevision := result.toOwnerRevision
          state :=
            if payload.toOwner.type = ItemOwnerType.destruction then ItemCustodyState.destroyed
            else ItemCustodyState.active }
  | _, _ => none

/-- The plain branch of `item_ownership_runtime_apply`. -/
def applyPlain (m : Mirror) (payload : ItemTransferPayload) (result : ItemTransferResult) :
    Option Mirror := do
  if transferClocksValid m payload result = false then none
  let staged ← payload.items.mapM fun item =>
    (stagedEntry m payload result item).map fun after => (item.itemUid, after)
  if ¬(payload.items.map ItemTransferEntry.itemUid).Nodup then none
  if result.maxItemRevision ≠ (staged.map fun row => row.2.itemRevision).foldl later 0 then none
  let moved := staged.foldl (fun m row => m.setEntry row.1 row.2) m
  some ((moved.setClock payload.fromOwner result.fromOwnerRevision).setClock payload.toOwner
    result.toOwnerRevision)

/-- The container an item goes into stands as the payload expects it. -/
def targetParentValid (m : Mirror) (payload : ItemTransferPayload) : Bool :=
  payload.targetParentItemUid == 0 ||
    (m.find payload.targetParentItemUid).any fun parent =>
      parent.rootItemUid == payload.targetRootItemUid && ownerEqual parent.owner payload.toOwner &&
        parent.itemRevision == payload.expectedTargetParentRevision &&
        parent.state == ItemCustodyState.active

def apply (m : Mirror) (payload : ItemTransferPayload) (result : ItemTransferResult) :
    Mirror × Bool :=
  if payload.reason = ItemTransferReason.craft then m.applyCraft payload result
  else if payload.items = [] ∨ itemTransferMaxItems < payload.items.length ∨
      result.itemCount.toNat ≠ payload.items.length ∨
      result.rootItemUid ≠ itemTransferResultRoot payload then
    (m, false)
  else if targetParentValid m payload = false then (m, false)
  else if payload.fromOwner.type = ItemOwnerType.system then
    match payload.items.mapM (createdEntry m payload result) with
    | none => (m, false)
    | some created =>
        match m.hydrateBatch created with
        | (m, false) => (m, false)
        | (m, true) => (m.setClock payload.fromOwner result.fromOwnerRevision, true)
  else m.commit (m.applyPlain payload result)

/-! ## Collector commands -/

/-- The part of `collector_command_result` that is published. -/
structure CollectorCommandResult where
  action : CollectorAction
  recordPresent : Bool
  fromOwnerRevision : BitVec 64
  toOwnerRevision : BitVec 64
  entry : Collector.Record

def collectorPayloadItem (payload : CollectorCommandPayload) (itemUid : BitVec 64) :
    Option ItemTransferEntry := findItem payload.items itemUid

/-- The loop of `collector_root_after_detach`, with as many steps left. -/
def detachClimb (payload : CollectorCommandPayload) : Nat → ItemTransferEntry → BitVec 64
  | 0, _ => 0
  | steps + 1, cursor =>
      if cursor.parentItemUid = payload.selectedItemUid then cursor.itemUid
      else
        match collectorPayloadItem payload cursor.parentItemUid with
        | none => 0
        | some above => detachClimb payload steps above

def collectorRootAfterDetach (payload : CollectorCommandPayload) (item : ItemTransferEntry) :
    BitVec 64 :=
  if payload.items.head?.any (·.rootItemUid ≠ payload.selectedItemUid) ∨
      item.itemUid = payload.selectedItemUid then
    if item.itemUid = payload.selectedItemUid then item.itemUid else item.rootItemUid
  else detachClimb payload (payload.items.length + 1) item

def collectorEntryMatches (left right : OwnershipEntry) : Bool :=
  left.itemUid == right.itemUid && left.rootItemUid == right.rootItemUid &&
    left.parentItemUid == right.parentItemUid && ownerEqual left.owner right.owner &&
    left.itemRevision == right.itemRevision && left.vnum == right.vnum &&
    left.state == right.state

/-- What one desired row asks for: nothing when the mirror has it, or a later one. -/
def collectorChange (m : Mirror) (payload : CollectorCommandPayload)
    (publishedFrom publishedTo : BitVec 64) (target : OwnershipEntry) :
    Option (Option OwnershipEntry) :=
  match collectorPayloadItem payload target.itemUid, m.find target.itemUid with
  | some expected, some current =>
      if current.itemRevision < expected.expectedItemRevision then none
      else if current.itemRevision = expected.expectedItemRevision then
        if current.rootItemUid ≠ expected.rootItemUid ∨
            current.parentItemUid ≠ expected.parentItemUid ∨
            ownerEqual current.owner payload.fromOwner = false ∨ current.vnum ≠ expected.vnum ∨
            current.state ≠ expected.expectedState then
          none
        else
          some (some { target with
            ownerRevision :=
              if ownerEqual target.owner payload.fromOwner then publishedFrom else publishedTo })
      else if current.itemRevision = target.itemRevision then
        if collectorEntryMatches current target then some none else none
      else if current.itemRevision < target.itemRevision then none
      else some none
  | _, _ => none

/-- The rows `collector_publish_authority` writes. -/
def collectorChanges (m : Mirror) (payload : CollectorCommandPayload)
    (publishedFrom publishedTo : BitVec 64) (desired : List OwnershipEntry) :
    Option (List OwnershipEntry) :=
  (desired.mapM (collectorChange m payload publishedFrom publishedTo)).map fun changes =>
    changes.reduceOption

/-- The end of `collector_publish_authority`: the rows, and then the two clocks. -/
def collectorWrite (m : Mirror) (payload : CollectorCommandPayload)
    (publishedFrom publishedTo : BitVec 64) (changes : List OwnershipEntry) : Mirror × Bool :=
  match if changes = [] then (m, true) else m.hydrateManyAtomic changes with
  | (m, false) => (m, false)
  | (m, true) =>
      match m.hydrateOwner payload.fromOwner publishedFrom with
      | (m, false) => (m, false)
      | (m, true) => m.hydrateOwner payload.toOwner publishedTo

def collectorPublishAuthority (m : Mirror) (payload : CollectorCommandPayload)
    (result : CollectorCommandResult) (desired : List OwnershipEntry) : Mirror × Bool :=
  if result.fromOwnerRevision ≠ payload.expectedFromOwnerRevision + 1 ∨
      result.toOwnerRevision ≠ payload.expectedToOwnerRevision + 1 then
    (m, false)
  else
    match m.ownerRevision payload.fromOwner with
    | (m, none) => (m, false)
    | (m, some fromRevision) =>
        match m.ownerRevision payload.toOwner with
        | (m, none) => (m, false)
        | (m, some toRevision) =>
            if fromRevision < payload.expectedFromOwnerRevision ∨
                toRevision < payload.expectedToOwnerRevision then
              (m, false)
            else
              let publishedFrom := later fromRevision result.fromOwnerRevision
              let publishedTo := later toRevision result.toOwnerRevision
              match collectorChanges m payload publishedFrom publishedTo desired with
              | none => (m, false)
              | some changes => m.collectorWrite payload publishedFrom publishedTo changes

/-- The row `item_ownership_runtime_apply_collector` wants for one item. -/
def collectorDesiredEntry (payload : CollectorCommandPayload) (result : CollectorCommandResult)
    (collection : Bool) (selected item : ItemTransferEntry) : Option OwnershipEntry :=
  if item.expectedItemRevision = uint64Max then none
  else if collection ∧ item.itemUid ≠ payload.selectedItemUid then
    let root := collectorRootAfterDetach payload item
    let parent :=
      if item.parentItemUid = payload.selectedItemUid then selected.parentItemUid
      else item.parentItemUid
    if root = 0 then none
    else
      some
        { itemUid := item.itemUid
          rootItemUid := root
          parentItemUid := parent
          owner := payload.fromOwner
          itemRevision := item.expectedItemRevision + 1
          ownerRevision := result.fromOwnerRevision
          vnum := item.vnum
          state := ItemCustodyState.active }
  else if !collection ∧ item.itemUid ≠ payload.selectedItemUid then none
  else
    some
      { itemUid := item.itemUid
        rootItemUid := item.itemUid
        parentItemUid := 0
        owner := payload.toOwner
        itemRevision := item.expectedItemRevision + 1
        ownerRevision := result.toOwnerRevision
        vnum := item.vnum
        state := payload.targetState }

/-- The rows `item_ownership_runtime_apply_collector` wants, when it moves any. -/
def collectorDesired (payload : CollectorCommandPayload) (result : CollectorCommandResult)
    (collection : Bool) : Option (List OwnershipEntry) := do
  if payload.items = [] ∨ collectorCommandMaxItems < payload.items.length ∨
      result.entry.uid ≠ payload.selectedItemUid then
    none
  let selected ← collectorPayloadItem payload payload.selectedItemUid
  let desired ← payload.items.mapM
    (collectorDesiredEntry payload result collection selected)
  if !collection ∧ desired.length ≠ 1 then none
  if result.entry.itemRevision ≠ selected.expectedItemRevision + 1 then none
  some desired

def applyCollector (m : Mirror) (payload : CollectorCommandPayload)
    (result : CollectorCommandResult) : Mirror × Bool :=
  if result.action ≠ payload.action ∨ result.recordPresent = false ∨
      result.entry.listing ≠ payload.listing then
    (m, false)
  else
    let collection : Bool := payload.action = .collect
    let held : Bool :=
      payload.action = .purchase || payload.action = .expire ||
        (payload.action = .cancel && payload.items ≠ [])
    if !collection && !held then
      (m, payload.items = [] && result.fromOwnerRevision = 0 && result.toOwnerRevision = 0)
    else
      match collectorDesired payload result collection with
      | none => (m, false)
      | some desired => m.collectorPublishAuthority payload result desired

end Mirror

end Duris.Item
