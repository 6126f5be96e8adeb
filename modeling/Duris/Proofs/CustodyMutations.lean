import Duris.Lib.Sha256
import Duris.Proofs.CollectorForest
import Duris.Proofs.CraftForest

/-!
# What keeps the custody forest

Shop trades and raised corpses are transfers put together, so they keep the forest as
transfers do. With that each of the nine ways a catalogue is changed is accounted for:
eight keep the forest whatever they are given, and an auction exactly when nothing lies in
what it moves.
-/

namespace Duris.Flatfile.Ownership

open Persistence Player Item Economy Relation Forest

theorem of_ite_ok {ε α : Type} {c : Prop} [Decidable c] {refusal : ε} {rest : Except ε α}
    {answer : α} (h : (if c then .error refusal else rest) = .ok answer) : rest = .ok answer := by
  split at h
  · cases h
  · exact h

/-! ## Shop trades -/

section Trade

variable {payload : ShopTradePayload} {fromOwner toOwner : ItemOwnerIdentity}
  {reason : ItemTransferReason} {fromRevision toRevision : BitVec 64}

theorem tradeEnds_eq_some (h : tradeEnds payload = some (fromOwner, toOwner, reason)) :
    reason ≠ ItemTransferReason.craft ∧
      (fromOwner.type = ItemOwnerType.system ↔ payload.creation = true) := by
  unfold tradeEnds at h
  have hother {owner : ItemOwnerIdentity} {action : ShopTradeAction}
      (howner : owner.type ≠ ItemOwnerType.system) (haction : payload.action = action)
      (hmoves : action ≠ .buyProduced) :
      owner.type = ItemOwnerType.system ↔ payload.creation = true := by
    refine iff_of_false howner fun hcreation => hmoves ?_
    rw [← haction]
    exact beq_iff_eq.mp hcreation
  have hplayer : (playerOwner payload.playerPid).type ≠ ItemOwnerType.system :=
    show ItemOwnerType.player ≠ ItemOwnerType.system by decide
  have hshop : (shopOwner payload.shopId).type ≠ ItemOwnerType.system :=
    show ItemOwnerType.shopkeeper ≠ ItemOwnerType.system by decide
  cases haction : payload.action <;> rw [haction] at h <;> cases h
  case buyExisting => exact ⟨by decide, hother hshop haction (by decide)⟩
  case buyProduced => exact ⟨by decide, iff_of_true rfl (beq_iff_eq.mpr haction)⟩
  case sellStore => exact ⟨by decide, hother hplayer haction (by decide)⟩
  case sellDestroy => exact ⟨by decide, hother hplayer haction (by decide)⟩
  case discardInvalid => exact ⟨by decide, hother hshop haction (by decide)⟩

structure TradeTree (payload : ShopTradePayload) : Prop where
  selected : payload.selectedItemUid ≠ 0
  ascending : (payload.items.map ItemTransferEntry.itemUid).Pairwise (· < ·)
  nonzero : ∀ entry ∈ payload.items, entry.itemUid ≠ 0
  state : ∀ entry ∈ payload.items, entry.expectedState =
    if payload.creation = true then ItemCustodyState.absent else ItemCustodyState.active
  apart : ∀ entry ∈ payload.items, entry.itemUid ≠ payload.targetParentItemUid
  root : ∃ entry ∈ payload.items, entry.itemUid = payload.selectedItemUid
  reaches : ∀ entry ∈ payload.items, entry.itemUid = payload.selectedItemUid ∨
    reachesRoot payload.items payload.selectedItemUid payload.items.length
      entry.parentItemUid = true

theorem tradeTree_of_encodable (h : payload.encodable = true) : TradeTree payload := by
  unfold ShopTradePayload.encodable ShopTradePayload.valid at h
  simp only [Bool.and_eq_true, List.all_eq_true, bne_iff_ne, Bool.or_eq_true, beq_iff_eq,
    and_assoc] at h
  obtain ⟨_, _, _, _, _, hselected, _, _, _, _, _, _, hrows, hascending, hroot, hreaches, _⟩ := h
  have hrow {entry : ItemTransferEntry} (hentry : entry ∈ payload.items) :
      entry.itemUid ≠ 0 ∧ entry.expectedState =
        (if payload.creation = true then ItemCustodyState.absent else ItemCustodyState.active) ∧
        entry.itemUid ≠ payload.targetParentItemUid := by
    have := hrows entry hentry
    simp only [ShopTradePayload.validItem, Bool.and_eq_true, bne_iff_ne, beq_iff_eq] at this
    obtain ⟨⟨⟨⟨⟨⟨⟨huid, _⟩, _⟩, _⟩, hstate⟩, _⟩, hapart⟩, _⟩ := this
    exact ⟨huid, hstate, hapart⟩
  refine ⟨hselected, ascending_pairwise hascending, fun entry hentry => (hrow hentry).1,
    fun entry hentry => (hrow hentry).2.1, fun entry hentry => (hrow hentry).2.2, ?_, hreaches⟩
  split at hroot
  · cases hroot
  · next root hfound => exact ⟨root, findItem_mem hfound⟩

theorem tradeTransfer_movable (h : TradeTree payload)
    (hreason : reason ≠ ItemTransferReason.craft) (hmoves : ¬ payload.creation = true) :
    Movable (tradeTransfer payload fromOwner toOwner reason fromRevision toRevision) where
  reason := hreason
  live entry hentry := by
    rw [h.state entry hentry, if_neg hmoves]
    decide
  apart _ entry hentry := h.apart entry hentry

theorem tradeTransfer_creatable (h : TradeTree payload)
    (hreason : reason ≠ ItemTransferReason.craft) :
    Creatable (tradeTransfer payload fromOwner toOwner reason fromRevision toRevision) := by
  have hselected : effectiveSelected
      (tradeTransfer payload fromOwner toOwner reason fromRevision toRevision) =
        payload.selectedItemUid := if_pos h.selected
  refine creatable_single hreason rfl h.ascending h.nonzero h.apart ?_ ?_
  · rw [hselected]
    exact h.root
  · rw [hselected]
    exact h.reaches

end Trade

theorem prepareShopTrade_keepsForest {sha256 : Bytes → Vector UInt8 32}
    {catalog : OwnershipCatalog} (hformed : WellFormed catalog) {payload : ShopTradePayload}
    {staged : Staged ItemShopTradeMutation}
    (h : prepareShopTrade sha256 catalog payload = .ok staged) :
    KeepsForest catalog staged.catalog := by
  unfold prepareShopTrade at h
  dsimp only at h
  split at h
  · cases h
  · next hencodable =>
      have htree := tradeTree_of_encodable (Bool.eq_true_of_not_eq_false hencodable)
      split at h
      · cases h
      · split at h
        · cases h
        · split at h
          · cases h
          · cases h
          · next fromOwner toOwner reason grown hends hgrown =>
              obtain ⟨hreason, hsystem⟩ := tradeEnds_eq_some hends
              have hgrown : KeepsForest catalog grown := by
                unfold ensureTradeOwner at hgrown
                split at hgrown
                · exact (ensureOwner_grown hformed hgrown).keepsForest hformed
                · exact (ensureOwner_grown hformed hgrown).keepsForest hformed
                · exact (ensureOwner_grown hformed hgrown).keepsForest hformed
                · cases hgrown
                  exact .refl hformed
              split at h
              · split at h
                · cases h
                · next hcode =>
                    obtain ⟨hcatalog, _, _⟩ := stage_eq_ok (of_ite_ok h)
                    rw [hcatalog]
                    refine hgrown.trans (applyTransfer_keepsForest hgrown.wellFormed
                      (Decidable.not_not.mp hcode) (fun hmoves => ?_) fun _ => ?_)
                    · exact tradeTransfer_movable htree hreason (mt hsystem.mpr hmoves)
                    · exact tradeTransfer_creatable htree hreason
              · cases h

/-! ## Raised corpses -/

section Raise

variable {catalog : OwnershipCatalog}

theorem fillTransfer_active {room : ItemOwnerIdentity}
    {selected : FlatfileItemOwnershipRecord → Bool} {items : List ItemTransferEntry}
    (h : fillTransfer catalog room selected = some items) :
    ∀ entry ∈ items, entry.expectedState = ItemCustodyState.active := by
  unfold fillTransfer at h
  dsimp only at h
  split at h
  · cases h
  · cases h
    intro entry hentry
    obtain ⟨row, _, rfl⟩ := List.mem_map.mp hentry
    rfl

variable {source : BitVec 64} {vnum : BitVec 32} {payload : CorpseLifecyclePayload}

theorem raiseTransfer_keepsForest (hformed : WellFormed catalog) {toOwner : ItemOwnerIdentity}
    {reason : ItemTransferReason} (hreason : reason ≠ ItemTransferReason.craft)
    {fromRevision toRevision selectedItemUid : BitVec 64} {multiRoot : Bool}
    {items : List ItemTransferEntry}
    (hitems : ∀ entry ∈ items, entry.expectedState = ItemCustodyState.active)
    (hcode : (applyTransfer catalog (raiseTransfer source (roomOwner vnum) toOwner reason
      fromRevision toRevision selectedItemUid multiRoot items)).code = 0) :
    KeepsForest catalog (applyTransfer catalog (raiseTransfer source (roomOwner vnum) toOwner
      reason fromRevision toRevision selectedItemUid multiRoot items)).catalog := by
  refine applyTransfer_keepsForest hformed hcode (fun _ => ⟨hreason, fun entry hentry => ?_,
    fun hne => absurd rfl hne⟩) fun hsystem => ?_
  · rw [hitems entry hentry]
    decide
  · exact absurd hsystem (show ItemOwnerType.room ≠ ItemOwnerType.system by decide)

theorem detachBoundary_keepsForest (hformed : WellFormed catalog) {size : Nat}
    {boundary : BitVec 64} {after : OwnershipCatalog}
    (h : detachBoundary source (roomOwner vnum) size catalog boundary = some after) :
    KeepsForest catalog after := by
  unfold detachBoundary at h
  split at h
  · cases h
  · next items hitems =>
      dsimp only at h
      split at h
      · cases h
      · next hcode =>
          cases h
          exact raiseTransfer_keepsForest hformed (by decide) (fillTransfer_active hitems)
            (Decidable.not_not.mp hcode)

theorem detachBoundaries_keepsForest {size : Nat} :
    ∀ {boundaries : List (BitVec 64)} {catalog after : OwnershipCatalog}, WellFormed catalog →
      boundaries.foldlM (detachBoundary source (roomOwner vnum) size) catalog = some after →
        KeepsForest catalog after := by
  intro boundaries
  induction boundaries with
  | nil =>
      intro catalog after hformed h
      cases h
      exact .refl hformed
  | cons boundary boundaries ih =>
      intro catalog after hformed h
      rw [List.foldlM_cons] at h
      obtain ⟨next, hnext, hrest⟩ := Option.bind_eq_some_iff.mp h
      have hkept := detachBoundary_keepsForest hformed hnext
      exact hkept.trans (ih hkept.wellFormed hrest)

variable (hformed : WellFormed catalog)

include hformed

theorem WellFormed.with_clocks (left right : ItemOwnerIdentity) :
    KeepsForest catalog
      { catalog with owners := bumpOwner (bumpOwner catalog.owners left) right } where
  wellFormed := {
    owners := ordered_of_owners (by rw [bumpOwner_owners, bumpOwner_owners]) hformed.owners
    items := hformed.items
    nonzero := hformed.nonzero
    forest := hformed.forest }
  evolved := .refl _

theorem raiseDurable_keepsForest {pet : ItemOwnerIdentity}
    {durableUids : List (BitVec 64)} {durable : DurablePart}
    (h : raiseDurable catalog payload (roomOwner payload.roomVnum) pet durableUids = some durable) :
    KeepsForest catalog durable.catalog := by
  unfold raiseDurable at h
  dsimp only at h
  split at h
  · obtain ⟨items, hitems, h⟩ := Option.bind_eq_some_iff.mp h
    split at h
    · cases h
    · next hcode =>
        obtain ⟨rows, _, h⟩ := Option.bind_eq_some_iff.mp h
        cases h
        exact raiseTransfer_keepsForest hformed (by decide) (fillTransfer_active hitems)
          (Decidable.not_not.mp hcode)
  · split at h
    · split at h
      · cases h
      · cases h
        exact hformed.with_clocks _ _
    · obtain ⟨rows, _, h⟩ := Option.bind_eq_some_iff.mp h
      cases h
      exact .refl hformed

theorem raiseDiscarded_keepsForest {discardedUids : List (BitVec 64)}
    {attempt : Attempt}
    (h : raiseDiscarded catalog payload (roomOwner payload.roomVnum) discardedUids = some attempt) :
    KeepsForest catalog attempt.catalog := by
  unfold raiseDiscarded at h
  obtain ⟨items, hitems, h⟩ := Option.bind_eq_some_iff.mp h
  dsimp only at h
  split at h
  · cases h
  · next hcode =>
      cases h
      exact raiseTransfer_keepsForest hformed (by decide) (fillTransfer_active hitems)
        (Decidable.not_not.mp hcode)

theorem ensureRaiseOwners_keepsForest {after : OwnershipCatalog}
    (h : ensureRaiseOwners catalog payload = some after) : KeepsForest catalog after := by
  unfold ensureRaiseOwners at h
  obtain ⟨first, hfirst, h⟩ := Option.bind_eq_some_iff.mp h
  have hkept := (ensureOwner_grown hformed hfirst).keepsForest hformed
  split at h
  · exact hkept.trans ((ensureOwner_grown hkept.wellFormed h).keepsForest hkept.wellFormed)
  · cases h
    exact hkept

theorem prepareWorldCorpseRaise_keepsForest {sha256 : Bytes → Vector UInt8 32}
    {expectedItems : List CorpseCustodyItem}
    {durableUids discardedUids : List (BitVec 64)} {staged : Staged ItemCorpseReleaseMutation}
    (h : prepareWorldCorpseRaise sha256 catalog payload expectedItems durableUids discardedUids =
      .ok staged) : KeepsForest catalog staged.catalog := by
  unfold prepareWorldCorpseRaise at h
  dsimp only at h
  split at h
  · cases h
  · split at h
    · cases h
    · next grown hgrown =>
        have hgrown := ensureRaiseOwners_keepsForest hformed hgrown
        split at h
        · cases h
        · split at h
          · cases h
          · next durable discarded hcarried =>
              obtain ⟨hcatalog, _, _⟩ := stage_eq_ok h
              rw [hcatalog]
              unfold carryOutRaise at hcarried
              obtain ⟨boundaries, _, hcarried⟩ := Option.bind_eq_some_iff.mp hcarried
              obtain ⟨detached, hdetached, hcarried⟩ := Option.bind_eq_some_iff.mp hcarried
              obtain ⟨part, hdurable, hcarried⟩ := Option.bind_eq_some_iff.mp hcarried
              obtain ⟨attempt, hdiscarded, hcarried⟩ := Option.bind_eq_some_iff.mp hcarried
              cases hcarried
              have hdetached := detachBoundaries_keepsForest hgrown.wellFormed hdetached
              have hdurable := raiseDurable_keepsForest hdetached.wellFormed hdurable
              have hdiscarded := raiseDiscarded_keepsForest hdurable.wellFormed hdiscarded
              exact hgrown.trans (hdetached.trans (hdurable.trans hdiscarded))

end Raise

/-! ## The nine of them -/

/-- A change of the catalogue, as one of the functions of the repository makes it. A craft
is a transfer with the reason for it. -/
inductive CustodyCommand where
  | transfer (payload : ItemTransferPayload)
  | auction (payload : AuctionCommandPayload) (auctionId : BitVec 32) (toAuction : Bool)
  | shopTrade (payload : ShopTradePayload)
  | collector (payload : CollectorCommandPayload)
  | corpseRelease (payload : CorpseLifecyclePayload) (expectedItems : List CorpseCustodyItem)
  | worldCorpseRaise (payload : CorpseLifecyclePayload) (expectedItems : List CorpseCustodyItem)
      (durableUids discardedUids : List (BitVec 64))
  | deathQuarantine (pid : BitVec 32) (custodyUids : List (BitVec 64))
  | playerRemove (pid : BitVec 32)

namespace CustodyCommand

def Decoded : CustodyCommand → Prop
  | .transfer payload => ∃ version, validatePayload payload version = true
  | .collector payload => validCollectorPayload payload = true
  | _ => True

/-- Nothing lies in what an auction moves. -/
def TakesWhole (catalog : OwnershipCatalog) : CustodyCommand → Prop
  | .auction payload _ _ =>
      Contained catalog.items (payload.items.map AuctionItemEntry.itemUid)
  | _ => True

/-- The catalogue behind a command that succeeds. -/
def carryOut (sha256 : Bytes → Vector UInt8 32) (catalog : OwnershipCatalog) :
    CustodyCommand → Option OwnershipCatalog
  | .transfer payload =>
      let attempt :=
        if payload.reason = ItemTransferReason.craft then applyCraft catalog payload
        else applyTransfer catalog payload
      if attempt.code = 0 then some attempt.catalog else none
  | .auction payload auctionId toAuction =>
      (prepareAuctionTransfer sha256 catalog payload auctionId toAuction).toOption.map
        Staged.catalog
  | .shopTrade payload => (prepareShopTrade sha256 catalog payload).toOption.map Staged.catalog
  | .collector payload =>
      (prepareCollectorTransfer sha256 catalog payload).toOption.map Staged.catalog
  | .corpseRelease payload expectedItems =>
      (prepareCorpseRelease sha256 catalog payload expectedItems).toOption.map Staged.catalog
  | .worldCorpseRaise payload expectedItems durableUids discardedUids =>
      (prepareWorldCorpseRaise sha256 catalog payload expectedItems durableUids
        discardedUids).toOption.map Staged.catalog
  | .deathQuarantine pid custodyUids =>
      (prepareDeathQuarantine sha256 catalog pid custodyUids).toOption.map Staged.catalog
  | .playerRemove pid => (preparePlayerRemove sha256 catalog pid).toOption.map Staged.catalog

end CustodyCommand

theorem toOption_map_eq_some {μ : Type} {prepared : Except CustodyRefusal (Staged μ)}
    {after : OwnershipCatalog} (h : prepared.toOption.map Staged.catalog = some after) :
    ∃ staged, prepared = .ok staged ∧ staged.catalog = after := by
  cases prepared with
  | error refusal => cases h
  | ok staged => exact ⟨staged, rfl, Option.some.inj h⟩

theorem playerOwner_ne_auctionOwner (pid auctionId : BitVec 32) :
    playerOwner pid ≠ auctionOwner auctionId := by
  intro heq
  have := congrArg ItemOwnerIdentity.type heq
  exact absurd this (show ItemOwnerType.player ≠ ItemOwnerType.auction by decide)

/-- Whatever changes the catalogue keeps the custody forest, lets no row go and no revision
fall, but for an auction, which does so exactly when nothing lies in what it moves. -/
theorem carryOut_keepsForest_iff {sha256 : Bytes → Vector UInt8 32}
    {catalog after : OwnershipCatalog} (hformed : WellFormed catalog) {command : CustodyCommand}
    (hdecoded : command.Decoded) (h : command.carryOut sha256 catalog = some after) :
    KeepsForest catalog after ↔ command.TakesWhole catalog := by
  cases command with
  | transfer payload =>
      obtain ⟨version, hvalid⟩ := hdecoded
      have hchecked := validatePayload_iff.mp hvalid
      refine iff_of_true ?_ trivial
      unfold CustodyCommand.carryOut at h
      obtain ⟨hcode, hafter⟩ := Option.ite_none_right_eq_some.mp h
      cases hafter
      split at hcode
      · next hcraft =>
          rw [if_pos hcraft]
          exact applyCraft_keepsForest hformed hcode
      · next hreason =>
          rw [if_neg hreason]
          exact applyTransfer_keepsForest hformed hcode
            (movable_of_checked hchecked hreason) fun _ => creatable_of_checked hchecked hreason
  | auction payload auctionId toAuction =>
      obtain ⟨staged, hstaged, rfl⟩ := toOption_map_eq_some h
      refine (prepareAuctionTransfer_moved hformed hstaged).keepsForest_iff ?_
      cases toAuction with
      | false => exact (playerOwner_ne_auctionOwner _ _).symm
      | true => exact playerOwner_ne_auctionOwner _ _
  | shopTrade payload =>
      obtain ⟨staged, hstaged, rfl⟩ := toOption_map_eq_some h
      exact iff_of_true (prepareShopTrade_keepsForest hformed hstaged) trivial
  | collector payload =>
      obtain ⟨staged, hstaged, rfl⟩ := toOption_map_eq_some h
      exact iff_of_true (prepareCollectorTransfer_keepsForest hformed hdecoded hstaged) trivial
  | corpseRelease payload expectedItems =>
      obtain ⟨staged, hstaged, rfl⟩ := toOption_map_eq_some h
      obtain ⟨hreleased, hvalid⟩ := prepareCorpseRelease_released hformed hstaged
      exact iff_of_true hreleased.keepsForest trivial
  | worldCorpseRaise payload expectedItems durableUids discardedUids =>
      obtain ⟨staged, hstaged, rfl⟩ := toOption_map_eq_some h
      exact iff_of_true (prepareWorldCorpseRaise_keepsForest hformed hstaged) trivial
  | deathQuarantine pid custodyUids =>
      obtain ⟨staged, hstaged, rfl⟩ := toOption_map_eq_some h
      exact iff_of_true (prepareDeathQuarantine_keepsForest hformed hstaged) trivial
  | playerRemove pid =>
      obtain ⟨staged, hstaged, rfl⟩ := toOption_map_eq_some h
      exact iff_of_true (preparePlayerRemove_keepsForest hformed hstaged) trivial

/-! ## A full bag at auction -/

def bagRow (itemUid rootItemUid parentItemUid : BitVec 64) : FlatfileItemOwnershipRecord :=
  { itemUid, rootItemUid, parentItemUid
    owner := playerOwner 1
    itemRevision := 1
    vnum := 3
    state := ItemCustodyState.active }

def twoBags : OwnershipCatalog :=
  { revision := 1
    owners := [⟨playerOwner 1, 5⟩]
    items := [bagRow 9 9 0, bagRow 10 10 0, bagRow 11 10 10] }

theorem twoBags_wellFormed : WellFormed twoBags where
  owners := List.pairwise_singleton _ _
  items := by unfold Sorted.Ordered; decide
  nonzero := by decide
  forest := {
    unique := by decide
    joined := fun row hrow _ hparent => by
      have hrow : row = bagRow 9 9 0 ∨ row = bagRow 10 10 0 ∨ row = bagRow 11 10 10 := by
        simpa [twoBags] using hrow
      rcases hrow with rfl | rfl | rfl
      · exact absurd rfl hparent
      · exact absurd rfl hparent
      · exact ⟨bagRow 10 10 0, by decide, rfl, rfl, rfl, rfl⟩
    rooted := by decide
    acyclic := by
      have hlink : ∀ k p, ParentLink twoBags.items k p → k = 11 ∧ p = 10 := by
        intro k p ⟨row, hrow, huid, hparent, hnonzero⟩
        have hrow : row = bagRow 9 9 0 ∨ row = bagRow 10 10 0 ∨ row = bagRow 11 10 10 := by
          simpa [twoBags] using hrow
        rcases hrow with rfl | rfl | rfl
        · exact absurd hparent.symm hnonzero
        · exact absurd hparent.symm hnonzero
        · exact ⟨huid.symm, hparent.symm⟩
      refine acyclic_of_grounded (fun k p q hp hq =>
        (hlink k p hp).2.trans (hlink k q hq).2.symm) fun k => ?_
      by_cases hlinked : ∃ p, ParentLink twoBags.items k p
      · obtain ⟨p, hp⟩ := hlinked
        refine .of_link hp (.of_top fun q hq => ?_)
        have := (hlink p q hq).1.symm.trans (hlink k p hp).2
        exact absurd this (by decide)
      · exact .of_top fun p hp => hlinked ⟨p, hp⟩ }

theorem twoBags_empty_bag : ∃ after,
    (CustodyCommand.auction ⟨1, [⟨9, 1, 3⟩]⟩ 7 true).carryOut Sha256.hash
      twoBags = some after ∧
    (KeepsForest twoBags after ↔ Contained twoBags.items [9]) := by
  obtain ⟨after, hafter⟩ := Option.isSome_iff_exists.mp (show
    ((CustodyCommand.auction ⟨1, [⟨9, 1, 3⟩]⟩ 7 true).carryOut Sha256.hash
      twoBags).isSome = true by decide +kernel)
  have hdecoded : (CustodyCommand.auction ⟨1, [⟨9, 1, 3⟩]⟩ 7 true).Decoded := trivial
  exact ⟨after, hafter, carryOut_keepsForest_iff twoBags_wellFormed hdecoded hafter⟩

/-- Both bags put up at once: the full one goes, what is in it stays with the player. -/
theorem twoBags_split : WellFormed twoBags ∧ ∃ after,
    (CustodyCommand.auction ⟨1, [⟨9, 1, 3⟩, ⟨10, 1, 3⟩]⟩ 7 true).carryOut
      Sha256.hash twoBags = some after ∧
    ¬ CustodyForest after.items := by
  obtain ⟨after, hafter⟩ := Option.isSome_iff_exists.mp (show
    ((CustodyCommand.auction ⟨1, [⟨9, 1, 3⟩, ⟨10, 1, 3⟩]⟩ 7 true).carryOut
      Sha256.hash twoBags).isSome = true by decide +kernel)
  refine ⟨twoBags_wellFormed, after, hafter, fun hforest => ?_⟩
  have hitems : after.items = [auctionRow (auctionOwner 7) (bagRow 9 9 0),
      auctionRow (auctionOwner 7) (bagRow 10 10 0), bagRow 11 10 10] := by
    have hrun : ((CustodyCommand.auction ⟨1, [⟨9, 1, 3⟩, ⟨10, 1, 3⟩]⟩ 7 true).carryOut
        Sha256.hash twoBags).map OwnershipCatalog.items =
          some [auctionRow (auctionOwner 7) (bagRow 9 9 0),
            auctionRow (auctionOwner 7) (bagRow 10 10 0), bagRow 11 10 10] := by
      decide +kernel
    rw [hafter] at hrun
    exact Option.some.inj hrun
  rw [hitems] at hforest
  obtain ⟨parent, hmem, huid, hsame⟩ := hforest.joined (bagRow 11 10 10) (by decide) (by decide)
    (by decide)
  have hparent := eq_of_uid hforest hmem
    (show auctionRow (auctionOwner 7) (bagRow 10 10 0) ∈ _ by decide) huid
  have howner := hsame.owner
  rw [hparent] at howner
  exact absurd howner (by decide)

end Duris.Flatfile.Ownership
