import Duris.Player.Snapshot

/-!
# Taking items out of a list

`src/player/player_snapshot_codec.c`, `player_item_snapshot_extract_subtree` and
`player_item_snapshot_extract_forest`: an item with all that it contains, or several, leave
a list of items; what leaves and what stays are lists of their own, with the positional
parents renumbered.

A list of positions holds an entry for every item already looked at, where the source has
one for every item from the start; an item that is not in the part has `NO_PARENT` there.
The two lists a call writes to are `ExtractOut`. A failed allocation shows nowhere but in
the answer, so `allocates` is one answer for the whole of a call's `try`.
-/

namespace Duris.Player

/-- `player_snapshot_codec_result`, as far as the two calls answer it. -/
inductive ExtractResult where
  | ok
  | invalidValue
  | allocationFailure
  deriving DecidableEq

/-- `*selected_out` and `*remaining_out`. -/
structure ExtractOut where
  selected : List PlayerItemSnapshot
  remaining : List PlayerItemSnapshot

/-- The locals of `player_item_snapshot_extract_subtree`. -/
structure Extraction where
  included : List Bool := []
  selectedPositions : List (BitVec 32) := []
  remainingPositions : List (BitVec 32) := []
  selected : List PlayerItemSnapshot := []
  remaining : List PlayerItemSnapshot := []

namespace Extraction

/-- `included[index]`. -/
def includes (st : Extraction) (selectedIndex : Nat) (item : PlayerItemSnapshot) : Bool :=
  if st.included.length = selectedIndex then true
  else if item.parentIndex ≠ noParentIndex then st.included.getD item.parentIndex.toNat false
  else false

def select (st : Extraction) (item : PlayerItemSnapshot) (parent : BitVec 32) : Extraction :=
  { included := st.included ++ [true]
    selectedPositions := st.selectedPositions ++ [BitVec.ofNat 32 st.selected.length]
    remainingPositions := st.remainingPositions ++ [noParentIndex]
    selected := st.selected ++ [{ item with parentIndex := parent }]
    remaining := st.remaining }

def keep (st : Extraction) (item : PlayerItemSnapshot) (parent : BitVec 32) : Extraction :=
  { included := st.included ++ [false]
    selectedPositions := st.selectedPositions ++ [noParentIndex]
    remainingPositions := st.remainingPositions ++ [BitVec.ofNat 32 st.remaining.length]
    selected := st.selected
    remaining := st.remaining ++ [{ item with parentIndex := parent }] }

/-- One item; `none` is the `invalid_value` of the loop. -/
def next (st : Extraction) (selectedIndex : Nat) (item : PlayerItemSnapshot) :
    Option Extraction :=
  if st.includes selectedIndex item = true then
    if st.included.length = selectedIndex then some (st.select item noParentIndex)
    else
      let parent := st.selectedPositions.getD item.parentIndex.toNat noParentIndex
      if parent = noParentIndex then none else some (st.select item parent)
  else if item.parentIndex = noParentIndex then some (st.keep item noParentIndex)
  else
    let parent := st.remainingPositions.getD item.parentIndex.toNat noParentIndex
    if parent = noParentIndex then none else some (st.keep item parent)

def nexts (selectedIndex : Nat) : List PlayerItemSnapshot → Extraction → Option Extraction
  | [], st => some st
  | item :: items, st =>
      match st.next selectedIndex item with
      | none => none
      | some st => nexts selectedIndex items st

end Extraction

def playerItemSnapshotExtractSubtree (items : List PlayerItemSnapshot) (selectedUid : BitVec 64)
    (allocates : Bool) (out : ExtractOut) : ExtractResult × ExtractOut :=
  if selectedUid = 0 ∨ validItemRelationships items = false then (.invalidValue, out)
  else
    match items.findIdx? fun item => item.objectUid = selectedUid with
    | none => (.invalidValue, out)
    | some selectedIndex =>
        if allocates = false then (.allocationFailure, out)
        else
          match Extraction.nexts selectedIndex items {} with
          | none => (.invalidValue, out)
          | some st => (.ok, ⟨st.selected, st.remaining⟩)

/-- The check of `player_item_snapshot_extract_forest` on the roots. -/
def usableRoots (uids : List (BitVec 64)) : Bool :=
  !uids.isEmpty && uids.all (· != 0) && (uids.zip uids.tail).all fun pair => pair.1 < pair.2

/-- A tree's item, behind `offset` items of other trees. -/
def rebase (offset : Nat) (item : PlayerItemSnapshot) : PlayerItemSnapshot :=
  if item.parentIndex = noParentIndex then item
  else { item with parentIndex := item.parentIndex + BitVec.ofNat 32 offset }

/-- The loop over the roots; each round allocates for the extraction and for what it puts
behind `selected`. -/
def extractTrees (out : ExtractOut) :
    List (BitVec 64) → List Bool → ExtractOut → ExtractResult × ExtractOut
  | [], _, st => (.ok, st)
  | uid :: uids, allocates, st =>
      match playerItemSnapshotExtractSubtree st.remaining uid (allocates.headD true) ⟨[], []⟩ with
      | (.ok, tree) =>
          if allocates.tail.headD true = false then (.allocationFailure, out)
          else
            extractTrees out uids allocates.tail.tail
              ⟨st.selected ++ tree.selected.map (rebase st.selected.length), tree.remaining⟩
      | (failure, _) => (failure, out)

def playerItemSnapshotExtractForest (items : List PlayerItemSnapshot)
    (selectedRootUids : List (BitVec 64)) (allocates : List Bool) (out : ExtractOut) :
    ExtractResult × ExtractOut :=
  if usableRoots selectedRootUids = false then (.invalidValue, out)
  else if allocates.headD true = false then (.allocationFailure, out)
  else extractTrees out selectedRootUids allocates.tail ⟨[], items⟩

end Duris.Player
