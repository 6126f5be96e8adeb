import Duris.Player.Snapshot

/-!
# The live mirror of item ownership

`src/item/item_ownership_runtime.h` and `src/item/item_ownership_runtime.c`.
-/

namespace Duris.Item

open Player (ItemOwnerIdentity ItemCustodyState)

structure OwnershipEntry where
  itemUid : BitVec 64
  rootItemUid : BitVec 64
  parentItemUid : BitVec 64
  owner : ItemOwnerIdentity
  itemRevision : BitVec 64
  ownerRevision : BitVec 64
  vnum : BitVec 32
  state : ItemCustodyState

def ownerEqual (left right : ItemOwnerIdentity) : Bool :=
  left.type = right.type ∧ left.id = right.id ∧ left.contextId = right.contextId

end Duris.Item
