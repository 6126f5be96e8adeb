import Duris.Flatfile.ItemCatalog

/-!
# Transfers and crafts over the catalogue

`apply_transfer` and `apply_craft` of `src/flatfile/flatfile_item_repository.c`: one
item transfer carried out on the catalogue in memory. Both answer with a code and fill
in a result as they go, and both have already changed the catalogue at some of their
refusals; `Attempt` is all three. Rows reached through pointers in the source are
reached through their uid here, which no two rows of a valid catalogue share.
-/

namespace Duris.Flatfile.Ownership

open Persistence Player Item

def enoent : BitVec 32 := 2
def eio : BitVec 32 := 5
def eexist : BitVec 32 := 17
def einval : BitVec 32 := 22
def enospc : BitVec 32 := 28
def erange : BitVec 32 := 34
def ebadmsg : BitVec 32 := 74
def eilseq : BitVec 32 := 84
def emsgsize : BitVec 32 := 90
def eopnotsupp : BitVec 32 := 95
def estale : BitVec 32 := 116
def itemTransferTopologyCardinality : BitVec 32 := 0x445201

/-- `{ item_owner_type::destruction, 0, 0 }`. -/
def destructionOwner : ItemOwnerIdentity := ⟨ItemOwnerType.destruction, 0, 0⟩

/-- What a transfer leaves: its code, the catalogue and the result. -/
structure Attempt where
  code : BitVec 32
  catalog : OwnershipCatalog
  result : ItemTransferResult := {}

def maxRevision (left right : BitVec 64) : BitVec 64 := if left < right then right else left

/-! ## The rows of a transfer -/

/-- `root_items`: the rows under a root of the payload. -/
def rootItems (catalog : OwnershipCatalog) (payload : ItemTransferPayload) :
    List FlatfileItemOwnershipRecord :=
  catalog.items.filter fun entry =>
    (payload.items.map ItemTransferEntry.rootItemUid).contains entry.rootItemUid

/-- The loop of `descendant_of`, with as many steps left as the first argument has. -/
def descendantFrom (rows : List FlatfileItemOwnershipRecord) (selectedUid : BitVec 64) :
    Nat → BitVec 64 → Bool
  | 0, _ => false
  | depth + 1, ancestor =>
      if ancestor = selectedUid then true
      else
        match rows.find? (fun entry => entry.itemUid == ancestor) with
        | none => false
        | some parent =>
            if parent.parentItemUid = 0 then false
            else descendantFrom rows selectedUid depth parent.parentItemUid

def descendantOf (rows : List FlatfileItemOwnershipRecord)
    (candidate : FlatfileItemOwnershipRecord) (selectedUid : BitVec 64) : Bool :=
  descendantFrom rows selectedUid (rows.length + 1) candidate.itemUid

/-- `selected_roots`: the rows of the payload that are their own selected root. -/
def selectedRoots (payload : ItemTransferPayload) : List (BitVec 64) :=
  (payload.items.map ItemTransferEntry.itemUid).filter fun itemUid =>
    itemTransferSelectedRoot payload itemUid == itemUid

/-- `selected`: the rows under a selected root. -/
def selectedRows (catalog : OwnershipCatalog) (payload : ItemTransferPayload) :
    List FlatfileItemOwnershipRecord :=
  let rows := rootItems catalog payload
  sortRows (rows.filter fun entry => (selectedRoots payload).any (descendantOf rows entry))

def rowMatches (owner : ItemOwnerIdentity) (stored : FlatfileItemOwnershipRecord)
    (expected : ItemTransferEntry) : Bool :=
  stored.itemUid == expected.itemUid && stored.rootItemUid == expected.rootItemUid &&
    stored.parentItemUid == expected.parentItemUid &&
    itemOwnerIdentityEqual stored.owner owner &&
    stored.itemRevision == expected.expectedItemRevision && stored.vnum == expected.vnum &&
    stored.state == expected.expectedState

/-- The comparison of the selected rows with the payload: the highest revision up to the
first row that differs, and whether none does. -/
def compareRows (owner : ItemOwnerIdentity) :
    List FlatfileItemOwnershipRecord → List ItemTransferEntry → BitVec 64 → BitVec 64 × Bool
  | stored :: rows, expected :: entries, highest =>
      let highest := maxRevision highest stored.itemRevision
      if rowMatches owner stored expected then compareRows owner rows entries highest
      else (highest, false)
  | _, _, highest => (highest, true)

/-- The row the moved trees go under is there and as the payload expects it. -/
def targetParentMatches (catalog : OwnershipCatalog) (payload : ItemTransferPayload) : Bool :=
  if payload.targetParentItemUid = 0 then true
  else
    match findRow catalog payload.targetParentItemUid with
    | none => false
    | some parent =>
        parent.rootItemUid == payload.targetRootItemUid &&
          itemOwnerIdentityEqual parent.owner payload.toOwner &&
          parent.itemRevision == payload.expectedTargetParentRevision &&
          parent.state == ItemCustodyState.active

/-! ## Creation -/

def createdRow (payload : ItemTransferPayload) (entry : ItemTransferEntry)
    (topology : BitVec 64 × BitVec 64) : FlatfileItemOwnershipRecord :=
  { itemUid := entry.itemUid
    rootItemUid := topology.1
    parentItemUid := topology.2
    owner := payload.toOwner
    itemRevision := 1
    vnum := entry.vnum
    state := ItemCustodyState.active }

/-- The rows pushed up to the first entry without a target, and whether there is none. -/
def createRows (payload : ItemTransferPayload) :
    List ItemTransferEntry → List FlatfileItemOwnershipRecord × Bool
  | [] => ([], true)
  | entry :: entries =>
      match itemTransferTargetTopology payload entry.itemUid with
      | none => ([], false)
      | some topology =>
          let rest := createRows payload entries
          (createdRow payload entry topology :: rest.1, rest.2)

/-! ## Moving rows -/

/-- The loop that looks for a refusal before any row is touched. -/
def moveRefusal (payload : ItemTransferPayload) :
    List FlatfileItemOwnershipRecord → Option (BitVec 32)
  | [] => none
  | row :: rows =>
      if row.itemRevision = BitVec.allOnes 64 then some erange
      else if (itemTransferTargetTopology payload row.itemUid).isNone then some einval
      else moveRefusal payload rows

/-- One selected row at its new owner. The loop before has found its target. -/
def moveRow (payload : ItemTransferPayload) (row : FlatfileItemOwnershipRecord) :
    FlatfileItemOwnershipRecord :=
  match itemTransferTargetTopology payload row.itemUid with
  | none => row
  | some (rootItemUid, parentItemUid) =>
      { row with
        itemRevision := row.itemRevision + 1
        rootItemUid
        parentItemUid
        owner := payload.toOwner
        state :=
          if payload.toOwner.type = ItemOwnerType.destruction then ItemCustodyState.destroyed
          else ItemCustodyState.active }

/-- `f` on the rows of the catalogue that are among `rows`. -/
def updateRows (items rows : List FlatfileItemOwnershipRecord)
    (f : FlatfileItemOwnershipRecord → FlatfileItemOwnershipRecord) :
    List FlatfileItemOwnershipRecord :=
  items.map fun row =>
    if (rows.map FlatfileItemOwnershipRecord.itemUid).contains row.itemUid then f row else row

/-! ## `apply_transfer` -/

/-- The last steps: the clocks of both owners, once when they are the same, and the
revisions of the result. -/
def finishTransfer (catalog : OwnershipCatalog) (payload : ItemTransferPayload)
    (fromOwner toOwner : OwnerState) (items : List FlatfileItemOwnershipRecord)
    (result : ItemTransferResult) : Attempt :=
  let sameOwner := itemOwnerIdentityEqual payload.fromOwner payload.toOwner
  let owners := bumpOwner catalog.owners payload.fromOwner
  { code := 0
    catalog := { catalog with
      items
      owners := if sameOwner then owners else bumpOwner owners payload.toOwner }
    result := { result with
      fromOwnerRevision := fromOwner.revision + 1
      toOwnerRevision :=
        if sameOwner then fromOwner.revision + 1 else toOwner.revision + 1 } }

/-- The branch of a creation behind the checks of its payload against the catalogue. -/
def applyCreation (catalog : OwnershipCatalog) (payload : ItemTransferPayload)
    (fromOwner toOwner : OwnerState) (result : ItemTransferResult) : Attempt :=
  let created := createRows payload payload.items
  let result := if created.1 = [] then result else { result with maxItemRevision := 1 }
  if created.2 = false then
    ⟨einval, { catalog with items := catalog.items ++ created.1 }, result⟩
  else
    finishTransfer catalog payload fromOwner toOwner (sortRows (catalog.items ++ created.1)) result

def applyMove (catalog : OwnershipCatalog) (payload : ItemTransferPayload)
    (fromOwner toOwner : OwnerState) (selected : List FlatfileItemOwnershipRecord)
    (result : ItemTransferResult) : Attempt :=
  match moveRefusal payload selected with
  | some code => ⟨code, catalog, result⟩
  | none =>
      finishTransfer catalog payload fromOwner toOwner
        (updateRows catalog.items selected (moveRow payload))
        { result with
          maxItemRevision :=
            (selected.map fun row => (moveRow payload row).itemRevision).foldl maxRevision
              result.maxItemRevision }

/-- `apply_transfer` behind the comparison of the owners' revisions. -/
def applyRows (catalog : OwnershipCatalog) (payload : ItemTransferPayload)
    (fromOwner toOwner : OwnerState) (result : ItemTransferResult) : Attempt :=
  let creation := payload.fromOwner.type == ItemOwnerType.system
  let rows := rootItems catalog payload
  let exhausted :=
    fromOwner.revision == BitVec.allOnes 64 ||
      (!itemOwnerIdentityEqual payload.fromOwner payload.toOwner &&
        toOwner.revision == BitVec.allOnes 64)
  if creation then
    if rows ≠ [] ∨
        payload.items.any (fun entry => (findRow catalog entry.itemUid).isSome) = true then
      ⟨eexist, catalog, result⟩
    else if ownershipMaximumEntries - payload.items.length < catalog.items.length then
      ⟨enospc, catalog, result⟩
    else if targetParentMatches catalog payload = false then ⟨estale, catalog, result⟩
    else if exhausted then ⟨erange, catalog, result⟩
    else applyCreation catalog payload fromOwner toOwner result
  else if rows = [] then ⟨enoent, catalog, result⟩
  else
    let selected := selectedRows catalog payload
    if selected.length ≠ payload.items.length then
      ⟨itemTransferTopologyCardinality, catalog, result⟩
    else
      let compared := compareRows payload.fromOwner selected payload.items result.maxItemRevision
      let result := { result with maxItemRevision := compared.1 }
      if compared.2 = false ∨ targetParentMatches catalog payload = false then
        ⟨estale, catalog, result⟩
      else if exhausted then ⟨erange, catalog, result⟩
      else applyMove catalog payload fromOwner toOwner selected result

/-- The result as `apply_transfer` first sets it. -/
def openingResult (payload : ItemTransferPayload) (fromOwner toOwner : OwnerState) :
    ItemTransferResult :=
  { rootItemUid := itemTransferResultRoot payload
    itemCount := BitVec.ofNat 16 payload.items.length
    fromOwnerRevision := fromOwner.revision
    toOwnerRevision := toOwner.revision }

def applyTransfer (catalog : OwnershipCatalog) (payload : ItemTransferPayload) : Attempt :=
  match ensureOwner catalog payload.fromOwner with
  | none => ⟨enospc, catalog, {}⟩
  | some catalog =>
      match ensureOwner catalog payload.toOwner with
      | none => ⟨enospc, catalog, {}⟩
      | some catalog =>
          match findOwner catalog payload.fromOwner, findOwner catalog payload.toOwner with
          | some fromOwner, some toOwner =>
              let result := openingResult payload fromOwner toOwner
              if fromOwner.revision ≠ payload.expectedFromRevision ∨
                  toOwner.revision ≠ payload.expectedToRevision then ⟨estale, catalog, result⟩
              else applyRows catalog payload fromOwner toOwner result
          | _, _ => ⟨eilseq, catalog, {}⟩

/-! ## `apply_craft` -/

/-- `source`: the active rows of the crafter under a root of the payload. -/
def craftSource (catalog : OwnershipCatalog) (payload : ItemTransferPayload) :
    List FlatfileItemOwnershipRecord :=
  sortRows (catalog.items.filter fun entry =>
    entry.state == ItemCustodyState.active &&
      itemOwnerIdentityEqual entry.owner payload.fromOwner &&
      (payload.items.map ItemTransferEntry.rootItemUid).contains entry.rootItemUid)

/-- The comparison of the source rows with the payload. -/
def craftRefusal : List FlatfileItemOwnershipRecord → List ItemTransferEntry → Option (BitVec 32)
  | stored :: rows, expected :: entries =>
      if stored.itemUid ≠ expected.itemUid ∨ stored.rootItemUid ≠ expected.rootItemUid ∨
          stored.parentItemUid ≠ expected.parentItemUid ∨
          stored.itemRevision ≠ expected.expectedItemRevision ∨ stored.vnum ≠ expected.vnum ∨
          stored.state ≠ ItemCustodyState.active then some estale
      else if stored.itemRevision = BitVec.allOnes 64 then some erange
      else craftRefusal rows entries
  | _, _ => none

/-- The check of the outputs: real items under uids not in use, each parent before its
child. -/
def outputRefusal (catalog : OwnershipCatalog) :
    Nat → List (BitVec 64) → List PlayerItemSnapshot → Option (BitVec 32)
  | _, _, [] => none
  | index, seen, output :: outputs =>
      if output.objectUid = 0 ∨ output.vnum.toInt ≤ 0 ∨ seen.contains output.objectUid = true ∨
          (findRow catalog output.objectUid).isSome = true then some eexist
      else if (index : Int) ≤ output.parentIndex.toInt ∨
          output.parentIndex.toInt < playerSnapshotNoParent then some ebadmsg
      else outputRefusal catalog (index + 1) (output.objectUid :: seen) outputs

/-- The loop from an output up to the topmost one above it: its uid, and nothing when the
parents run out of the outputs or go round. -/
def outputRoot (outputs : List PlayerItemSnapshot) :
    Nat → BitVec 64 → Int → Option (BitVec 64)
  | depth, root, parent =>
      if parent = playerSnapshotNoParent then some root
      else
        match depth with
        | 0 => none
        | depth + 1 =>
            if parent < 0 then none
            else
              match outputs[parent.toNat]? with
              | none => none
              | some output =>
                  outputRoot outputs depth output.objectUid output.parentIndex.toInt

def outputParentUid (outputs : List PlayerItemSnapshot) (output : PlayerItemSnapshot) :
    BitVec 64 :=
  if output.parentIndex.toInt = playerSnapshotNoParent then 0
  else
    match outputs[output.parentIndex.toInt.toNat]? with
    | none => 0
    | some parent => parent.objectUid

/-- The rows of the outputs up to the first without a root, and whether there is none. -/
def outputRows (owner : ItemOwnerIdentity) (outputs : List PlayerItemSnapshot) :
    List PlayerItemSnapshot → List FlatfileItemOwnershipRecord × Bool
  | [] => ([], true)
  | output :: rest =>
      match outputRoot outputs outputs.length output.objectUid output.parentIndex.toInt with
      | none => ([], false)
      | some root =>
          let rows := outputRows owner outputs rest
          ({ itemUid := output.objectUid
             rootItemUid := root
             parentItemUid := outputParentUid outputs output
             owner
             itemRevision := 1
             vnum := output.vnum
             state := ItemCustodyState.active } :: rows.1, rows.2)

/-- A crafted-away row: at destruction, where it was in its tree. -/
def retireRow (row : FlatfileItemOwnershipRecord) : FlatfileItemOwnershipRecord :=
  { row with
    itemRevision := row.itemRevision + 1
    owner := destructionOwner
    state := ItemCustodyState.destroyed }

/-- `apply_craft` from where it starts to change rows. -/
def finishCraft (catalog : OwnershipCatalog) (payload : ItemTransferPayload) (owner : OwnerState)
    (source : List FlatfileItemOwnershipRecord) (outputs : List PlayerItemSnapshot)
    (result : ItemTransferResult) : Attempt :=
  let retired := (source.map fun row => (retireRow row).itemRevision).foldl maxRevision
    result.maxItemRevision
  let rows := outputRows payload.toOwner outputs outputs
  let result := { result with
    maxItemRevision := if rows.1 = [] then retired else maxRevision retired 1 }
  let items := updateRows catalog.items source retireRow ++ rows.1
  let owners := bumpOwner catalog.owners payload.fromOwner
  if rows.2 = false then ⟨ebadmsg, { catalog with owners, items }, result⟩
  else
    ⟨0, { catalog with owners, items := sortRows items },
      { result with
        fromOwnerRevision := owner.revision + 1
        toOwnerRevision := owner.revision + 1 }⟩

/-- The items in the blob, `EBADMSG` when it does not read. -/
def blobOutputs (payload : ItemTransferPayload) : Option (List PlayerItemSnapshot) :=
  if payload.itemBlob = [] then some []
  else
    match playerItemSnapshotListDecode payload.itemBlob with
    | .error _ => none
    | .ok outputs => some outputs

/-- `apply_craft` behind the comparison of the owner's revision. -/
def craftRows (catalog : OwnershipCatalog) (payload : ItemTransferPayload) (owner : OwnerState)
    (result : ItemTransferResult) : Attempt :=
  match blobOutputs payload with
  | none => ⟨ebadmsg, catalog, result⟩
  | some outputs =>
      if (outputs.head?.any fun output => output.objectUid != payload.selectedItemUid) = true then
        ⟨ebadmsg, catalog, result⟩
      else
        let source := craftSource catalog payload
        if source.length ≠ payload.items.length then ⟨emsgsize, catalog, result⟩
        else
          match craftRefusal source payload.items with
          | some code => ⟨code, catalog, result⟩
          | none =>
              match outputRefusal catalog 0 [] outputs with
              | some code => ⟨code, catalog, result⟩
              | none =>
                  if ownershipMaximumEntries < outputs.length ∨
                      ownershipMaximumEntries - outputs.length < catalog.items.length then
                    ⟨enospc, catalog, result⟩
                  else
                    match ensureOwner catalog destructionOwner with
                    | none => ⟨enospc, catalog, result⟩
                    | some catalog => finishCraft catalog payload owner source outputs result

def applyCraft (catalog : OwnershipCatalog) (payload : ItemTransferPayload) : Attempt :=
  if payload.reason ≠ ItemTransferReason.craft ∨
      itemOwnerIdentityEqual payload.fromOwner payload.toOwner = false then ⟨einval, catalog, {}⟩
  else
    match ensureOwner catalog payload.fromOwner with
    | none => ⟨enospc, catalog, {}⟩
    | some catalog =>
        match findOwner catalog payload.fromOwner with
        | none => ⟨eilseq, catalog, {}⟩
        | some owner =>
            let result : ItemTransferResult :=
              { rootItemUid := payload.selectedItemUid
                itemCount := BitVec.ofNat 16 payload.items.length
                fromOwnerRevision := owner.revision
                toOwnerRevision := owner.revision }
            if owner.revision ≠ payload.expectedFromRevision ∨
                owner.revision ≠ payload.expectedToRevision then ⟨estale, catalog, result⟩
            else if owner.revision = BitVec.allOnes 64 ∨
                catalog.revision = BitVec.allOnes 64 then ⟨erange, catalog, result⟩
            else craftRows catalog payload owner result

end Duris.Flatfile.Ownership
