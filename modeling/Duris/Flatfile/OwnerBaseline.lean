import Duris.Flatfile.AuthorityTransaction
import Duris.Flatfile.ItemRepository

/-!
# The first rows of an owner

`flatfile_item_repository_establish_owner` of `src/flatfile/flatfile_item_repository.c`:
an owner that has never moved anything gets the rows of its saved inventory, at revision
one. The list is checked row by row and merged into the catalogue.

How the lock, the recovery and the read in front end is an argument, and so is how the write
ends. A store is the file, if there is one, as that recovery leaves it: what a log it carries
out does to the file is the matter of `AuthorityTransaction`. A root directory is named.
-/

namespace Duris.Flatfile.Ownership

open Persistence Player Item Economy

inductive FlatfileItemBaselineResult where
  | applied | alreadyApplied | conflict | invalid | ioError
  deriving DecidableEq

/-- `item_equal`: everything but the coin payload. -/
def itemEqual (left right : FlatfileItemOwnershipRecord) : Bool :=
  left.itemUid == right.itemUid && left.rootItemUid == right.rootItemUid &&
    left.parentItemUid == right.parentItemUid && itemOwnerIdentityEqual left.owner right.owner &&
    left.itemRevision == right.itemRevision && left.vnum == right.vnum &&
    left.state == right.state

/-- One row of a baseline: live, at revision one, of that owner, and its own root or under
a parent of the list that has the same root. -/
def baselineRow (items : List FlatfileItemOwnershipRecord) (owner : ItemOwnerIdentity)
    (entry : FlatfileItemOwnershipRecord) : Bool :=
  entry.itemUid != 0 && entry.rootItemUid != 0 && decide (0 < entry.vnum.toInt) &&
    entry.itemRevision == 1 && entry.state == ItemCustodyState.active &&
    itemOwnerIdentityEqual entry.owner owner &&
    (if entry.parentItemUid ≠ 0 then
      match Sorted.find uidLess FlatfileItemOwnershipRecord.itemUid items entry.parentItemUid with
      | none => false
      | some parent => parent.rootItemUid == entry.rootItemUid
    else entry.rootItemUid == entry.itemUid)

def baselineList (owner : ItemOwnerIdentity) (items : List FlatfileItemOwnershipRecord) : Bool :=
  itemOwnerIdentityValid owner && decide (items.length ≤ ownershipMaximumEntries) &&
    decide (items.IsChain fun left right => uidLess right.itemUid left.itemUid = false) &&
    items.all (baselineRow items owner) &&
    decide (items.IsChain fun left right => left.itemUid ≠ right.itemUid)

def existingRows (catalog : OwnershipCatalog) (owner : ItemOwnerIdentity) :
    List FlatfileItemOwnershipRecord :=
  catalog.items.filter fun entry => itemOwnerIdentityEqual entry.owner owner

/-- `stored_owner->revision`, where there is one. -/
def storedRevision (catalog : OwnershipCatalog) (owner : ItemOwnerIdentity) :
    Option (BitVec 64) :=
  (findOwner catalog owner).map OwnerState.revision

def baselineThere (catalog : OwnershipCatalog) (owner : ItemOwnerIdentity)
    (items : List FlatfileItemOwnershipRecord) : Bool :=
  storedRevision catalog owner == some 1 &&
    (existingRows catalog owner).length == items.length &&
    ((existingRows catalog owner).zip items).all fun pair => itemEqual pair.1 pair.2

def ownerUsed (catalog : OwnershipCatalog) (owner : ItemOwnerIdentity) : Bool :=
  (storedRevision catalog owner).any (· != 0) || !(existingRows catalog owner).isEmpty

/-- The catalogue with the rows merged in and the owner at revision one. -/
def withBaseline (catalog : OwnershipCatalog) (owner : ItemOwnerIdentity)
    (items : List FlatfileItemOwnershipRecord) : OwnershipCatalog :=
  { catalog with
    owners := catalog.owners.map fun entry =>
      if entry.owner = owner then { entry with revision := 1 } else entry
    items := sortRows (catalog.items ++ items) }

/-- How the lock, the recovery, the read of the file and the allocations end. -/
inductive BaselineFront where
  | ready | ioError | invalid
  deriving DecidableEq

/-- `flatfile_atomic_write` on the file, and what is answered behind it. -/
def writeBaseline (store : Option Bytes) (encoded : Bytes) :
    StepOutcome → Option Bytes × Option FlatfileItemBaselineResult
  | .done => (some encoded, some .applied)
  | .failed effect => (if effect then some encoded else store, some .ioError)
  | .crashed effect => (if effect then some encoded else store, none)

/-- `flatfile_item_repository_establish_owner`: the file it leaves, and the answer, unless
the process dies. -/
def flatfileItemRepositoryEstablishOwner (sha256 : Bytes → Vector UInt8 32)
    (front : BaselineFront) (write : StepOutcome) (store : Option Bytes)
    (owner : ItemOwnerIdentity) (items : List FlatfileItemOwnershipRecord) :
    Option Bytes × Option FlatfileItemBaselineResult :=
  if baselineList owner items = false then (store, some .invalid)
  else
    match front with
    | .ioError => (store, some .ioError)
    | .invalid => (store, some .invalid)
    | .ready =>
        match loadCatalog sha256 store with
        | none => (store, some .invalid)
        | some catalog =>
            if baselineThere catalog owner items then (store, some .alreadyApplied)
            else if ownerUsed catalog owner then (store, some .conflict)
            else if ownershipMaximumEntries - items.length < catalog.items.length ∨
                catalog.revision = BitVec.allOnes 64 then (store, some .conflict)
            else
              match ensureOwner catalog owner with
              | none => (store, some .ioError)
              | some ensured =>
                  match encodeCatalog sha256 (withBaseline ensured owner items)
                      (catalog.revision + 1) with
                  | none => (store, some .invalid)
                  | some encoded => writeBaseline store encoded write

end Duris.Flatfile.Ownership
