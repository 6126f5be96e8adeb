import Duris.Lib.ParentWalk
import Duris.Player.Snapshot

/-!
# Parents of loaded items

`src/player/player_load_topology.c`: the item rows of a player come from the database in
any order, each with the custody record's word on its parent. The parents are written into
the rows as positions, a row whose parent is missing becomes a root of its own, and the
roots of all that lies below it follow.

The two lists the source rewrites in place are read as one list of rows. An answer of false
leaves them half rewritten, and says nothing here; so does a failed allocation, which
answers false too. The walk over the parents is the one of `ParentWalk`: `visit_state` is
its colours, and `depth`, `promoted` and the roots are what it resolves. A path is as long
as there are rows at most, which is the bound it gets; `running` would be a walk that is
not done by then.
-/

namespace Duris.Player

open ParentWalk

structure PlayerLoadItemIdentity where
  databaseId : BitVec 64
  serializedParentId : BitVec 64
  quantity : BitVec 32
  overrideMask : BitVec 16
  itemUid : BitVec 64
  rootItemUid : BitVec 64
  parentItemUid : BitVec 64
  owner : ItemOwnerIdentity
  itemRevision : BitVec 64
  ownerRevision : BitVec 64
  state : ItemCustodyState

def playerLoadItemMax : Nat := playerSnapshotMaxObjects

/-- `(*items)[index]` and `(*identities)[index]`. -/
structure LoadRow where
  item : PlayerItemSnapshot
  identity : PlayerLoadItemIdentity

/-- The first loop: every row has ids of its own. -/
def indexRows : List (BitVec 64) → List (BitVec 64) → List LoadRow → Bool
  | _, _, [] => true
  | databaseIds, uids, row :: rows =>
      row.identity.databaseId != 0 && row.identity.itemUid != 0 &&
        row.identity.itemUid == row.item.objectUid &&
        !databaseIds.contains row.identity.databaseId && !uids.contains row.identity.itemUid &&
        indexRows (row.identity.databaseId :: databaseIds) (row.identity.itemUid :: uids) rows

/-- `uid_indices.find`. -/
def uidIndex (rows : List LoadRow) (uid : BitVec 64) : Option Nat :=
  rows.findIdx? fun row => row.identity.itemUid = uid

def databaseIdAt (rows : List LoadRow) (index : Nat) : BitVec 64 :=
  (rows.map fun row => row.identity.databaseId).getD index 0

structure Relinked where
  row : LoadRow
  parent : Option Nat
  promoted : Bool
  repaired : Bool

def relink (rows : List LoadRow) (index : Nat) (row : LoadRow) : Option Relinked :=
  if row.identity.parentItemUid = 0 then
    some
      { row :=
          { item := { row.item with parentIndex := noParentIndex }
            identity := { row.identity with serializedParentId := 0 } }
        parent := none
        promoted := false
        repaired := row.identity.serializedParentId != 0 }
  else
    match uidIndex rows row.identity.parentItemUid with
    | none =>
        some
          { row :=
              { item := { row.item with parentIndex := noParentIndex, equipmentSlot := 0 }
                identity := { row.identity with
                  serializedParentId := 0
                  parentItemUid := 0
                  rootItemUid := row.identity.itemUid } }
            parent := none
            promoted := true
            repaired := row.item.equipmentSlot != 0 }
    | some parent =>
        if parent = index ∨ 2 ^ 31 - 1 < parent then none
        else
          some
            { row :=
                { item := { row.item with
                    parentIndex := BitVec.ofNat 32 parent
                    equipmentSlot := 0 }
                  identity := { row.identity with
                    serializedParentId := databaseIdAt rows parent } }
              parent := some parent
              promoted := false
              repaired := row.identity.serializedParentId != databaseIdAt rows parent ||
                row.item.equipmentSlot != 0 }

def relinkFrom (rows : List LoadRow) : Nat → List LoadRow → Option (List Relinked)
  | _, [] => some []
  | index, row :: rest =>
      match relink rows index row, relinkFrom rows (index + 1) rest with
      | some relinked, some others => some (relinked :: others)
      | _, _ => none

/-- `parents[node]`. -/
def parentOf (relinked : List Relinked) (node : Nat) : Option Nat :=
  relinked[node]?.bind Relinked.parent

/-- `depth`, `promoted` and `root_item_uid` of a row that was visited. -/
structure Resolved where
  depth : Nat
  promoted : Bool
  root : BitVec 64

/-- The body of the way down, given what the parent resolved to. -/
def resolveRow (relinked : List Relinked) (node : Nat) (parent : Option Resolved) :
    Option Resolved :=
  match relinked[node]?, parent with
  | none, _ => none
  | some row, none =>
      if playerSnapshotMaxDepth < 1 then none
      else if row.row.identity.rootItemUid ≠ row.row.identity.itemUid then none
      else some ⟨1, row.promoted, row.row.identity.rootItemUid⟩
  | some row, some parent =>
      if playerSnapshotMaxDepth < parent.depth + 1 then none
      else if parent.promoted = true then some ⟨parent.depth + 1, true, parent.root⟩
      else if row.row.identity.rootItemUid ≠ parent.root then none
      else some ⟨parent.depth + 1, row.promoted, row.row.identity.rootItemUid⟩

/-- The lists as they are left, and what the two counters grew by. -/
structure Reconciled where
  items : List PlayerItemSnapshot
  identities : List PlayerLoadItemIdentity
  promotedRows : Nat
  repairedRows : Nat

def reconciled (relinked : List Relinked) (w : Walk Resolved) : Reconciled :=
  { items := relinked.map fun relinked => relinked.row.item
    identities := relinked.mapIdx fun index relinked =>
      match w.value index with
      | none => relinked.row.identity
      | some resolved => { relinked.row.identity with rootItemUid := resolved.root }
    promotedRows := relinked.countP Relinked.promoted
    repairedRows := relinked.countP Relinked.repaired }

def reconcileRows (rows : List LoadRow) : Except Stop Reconciled :=
  if indexRows [] [] rows = false then .error .refused
  else
    match relinkFrom rows 0 rows with
    | none => .error .refused
    | some relinked =>
        match visitAll (parentOf relinked) (resolveRow relinked) (rows.length + 1)
            (List.range rows.length) {} with
        | .error stop => .error stop
        | .ok w => .ok (reconciled relinked w)

def playerLoadReconcileItemTopology (items : List PlayerItemSnapshot)
    (identities : List PlayerLoadItemIdentity) : Except Stop Reconciled :=
  if items.length ≠ identities.length ∨ playerLoadItemMax < items.length then .error .refused
  else reconcileRows (List.zipWith LoadRow.mk items identities)

end Duris.Player
