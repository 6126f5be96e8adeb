import Duris.Economy.LiveBalances
import Duris.Lib.Latest
import Duris.Lib.Run

/-!
# Receipts reach a character in any order

A character's wallet and bank are two latest-wins registers: publishing a receipt
in range is `Stamped.accept` on each. The wallet is guarded by "skip the older",
the bank by "take what is not older", and the loop over the account's descriptors
comes back to the character it started from with the very balance it already has.
Everything else is the library's account of such registers.
-/

namespace Duris.Economy

def walletOf (character : Character) : Stamped Nat (Vector (BitVec 32) 4) :=
  ⟨character.walletRevision.toNat, character.cash⟩

def bankOf (character : Character) : Stamped Nat (Vector (BitVec 32) 4) :=
  ⟨character.bankRevision.toNat, character.balance⟩

def walletWrite (receipt : CurrencyCommandResult) : Stamped Nat (Vector (BitVec 32) 4) :=
  ⟨receipt.walletRevision.toNat, liveCoins receipt.wallet⟩

def bankWrite (receipt : CurrencyCommandResult) : Stamped Nat (Vector (BitVec 32) 4) :=
  ⟨receipt.bankRevision.toNat, liveCoins receipt.bank⟩

def InRange (receipt : CurrencyCommandResult) : Prop :=
  publishable receipt.wallet = true ∧ publishable receipt.bank = true

def SameCharacter (before after : Character) : Prop :=
  after.pid = before.pid ∧ after.npc = before.npc ∧ after.racewar = before.racewar ∧
    after.room = before.room

theorem SameCharacter.trans {a b c : Character} (hab : SameCharacter a b)
    (hbc : SameCharacter b c) : SameCharacter a c := by
  obtain ⟨h₁, h₂, h₃, h₄⟩ := hab
  obtain ⟨k₁, k₂, k₃, k₄⟩ := hbc
  exact ⟨k₁.trans h₁, k₂.trans h₂, k₃.trans h₃, k₄.trans h₄⟩

/-- The two registers and what no publication changes are the whole character. -/
theorem character_eq {before a b : Character} (ha : SameCharacter before a)
    (hb : SameCharacter before b) (hwallet : walletOf a = walletOf b)
    (hbank : bankOf a = bankOf b) : a = b := by
  obtain ⟨hpid, hnpc, hracewar, hroom⟩ := ha
  obtain ⟨hpid', hnpc', hracewar', hroom'⟩ := hb
  simp only [walletOf, bankOf, Stamped.mk.injEq, ← BitVec.toNat_eq] at hwallet hbank
  cases a
  cases b
  simp_all

theorem liveCoins_toInt {balances : CurrencyVector} (h : publishable balances = true) (i : Fin 4) :
    ((liveCoins balances).get i).toInt = (balances.amount.get i).toInt := by
  have hrange : 0 ≤ (balances.amount.get i).toInt ∧ (balances.amount.get i).toInt ≤ 2147483647 := by
    simp only [publishable, List.all_eq_true, Bool.and_eq_true, decide_eq_true_eq] at h
    exact h _ (Vector.mem_toList_iff.mpr (Vector.getElem_mem i.isLt))
  have hlive : (liveCoins balances).get i = (balances.amount.get i).setWidth 32 :=
    Vector.getElem_map _ i.isLt
  rw [hlive, BitVec.toInt_eq_toNat_cond, BitVec.toNat_setWidth]
  rw [BitVec.toInt_eq_toNat_cond] at hrange ⊢
  split at hrange <;> omega

theorem coinValue_liveCoins {balances : CurrencyVector} (h : publishable balances = true) :
    coinValue (liveCoins balances) = coinValue balances.amount := by
  have h₀ := liveCoins_toInt h 0
  have h₁ := liveCoins_toInt h 1
  have h₂ := liveCoins_toInt h 2
  have h₃ := liveCoins_toInt h 3
  change (liveCoins balances)[0].toInt = _ at h₀
  change (liveCoins balances)[1].toInt = _ at h₁
  change (liveCoins balances)[2].toInt = _ at h₂
  change (liveCoins balances)[3].toInt = _ at h₃
  rw [coinValue, h₀, h₁, h₂, h₃]
  rfl

@[simp] theorem World.set_character (world : World) (ref : CharacterRef) (character : Character) :
    (world.set ref character).character ref = character := Function.update_self ..

variable {world : World} {accountName : Bytes} {racewar : BitVec 8} {bankRevision : BitVec 64}
  {ref : CharacterRef}

/-- A descriptor is served only with a balance that is not older, or that carries
no revision. -/
theorem publishTarget_eq_some {descriptor : Descriptor}
    (h : publishTarget world accountName racewar bankRevision descriptor = some ref) :
    bankRevision = noRevision ∨ (world.character ref).bankRevision ≤ bankRevision := by
  rw [publishTarget] at h
  split at h
  · next target name _ _ =>
      simp only at h
      split at h
      · simp at h
      · next hguard =>
          cases h
          simp only [not_or, not_and, BitVec.not_lt] at hguard
          by_cases hnone : bankRevision = noRevision
          · exact .inl hnone
          · exact .inr (hguard.2.2.2.2 hnone)
  · simp at h

theorem le_noRevision (revision : BitVec 64) : revision ≤ noRevision := by
  rw [BitVec.le_def, noRevision, BitVec.toNat_allOnes]
  omega

/-- A descriptor that leads back to a character that already holds the balance
changes nothing about it. -/
theorem publishToDescriptor_character {balances : Vector (BitVec 32) 4} (descriptor : Descriptor)
    (hrevision : bankRevision ≤ (world.character ref).bankRevision)
    (hbalance : (world.character ref).bankRevision = bankRevision →
      (world.character ref).balance = balances) :
    (publishToDescriptor accountName racewar balances bankRevision world descriptor).character ref =
      world.character ref := by
  rw [publishToDescriptor]
  cases htarget : publishTarget world accountName racewar bankRevision descriptor with
  | none => rfl
  | some other =>
      by_cases hother : other = ref
      · subst hother
        have hle : (world.character other).bankRevision ≤ bankRevision := by
          rcases publishTarget_eq_some htarget with hnone | hle
          · rw [hnone]
            exact le_noRevision _
          · exact hle
        have hequal := BitVec.le_antisymm hle hrevision
        rw [World.set_character, ← hbalance hequal, hequal, ite_self, ← hequal]
      · exact Function.update_of_ne (Ne.symm hother) ..

theorem publishAccountBankBalancesRevision_character {balances : Vector (BitVec 32) 4}
    (hrevision : bankRevision ≤ (world.character ref).bankRevision)
    (hbalance : (world.character ref).bankRevision = bankRevision →
      (world.character ref).balance = balances) :
    (publishAccountBankBalancesRevision world accountName racewar balances bankRevision).character
      ref = world.character ref := by
  rw [publishAccountBankBalancesRevision]
  split
  · rfl
  · generalize world.descriptors = descriptors
    induction descriptors generalizing world with
    | nil => rfl
    | cons descriptor descriptors ih =>
        have hstep : (publishToDescriptor accountName racewar balances bankRevision world
            descriptor).character ref = world.character ref :=
          publishToDescriptor_character descriptor hrevision hbalance
        rw [List.foldl_cons, ih (by rw [hstep]; exact hrevision)
          (by rw [hstep]; exact hbalance), hstep]

theorem publishToDescriptor_events (accountName : Bytes) (racewar : BitVec 8)
    (balances : Vector (BitVec 32) 4) (bankRevision : BitVec 64) (world : World)
    (descriptor : Descriptor) :
    (publishToDescriptor accountName racewar balances bankRevision world descriptor).events =
      world.events := by
  rw [publishToDescriptor]
  split <;> rfl

theorem publishAccountBankBalancesRevision_events (world : World) (accountName : Bytes)
    (racewar : BitVec 8) (balances : Vector (BitVec 32) 4) (bankRevision : BitVec 64) :
    (publishAccountBankBalancesRevision world accountName racewar balances bankRevision).events =
      world.events := by
  rw [publishAccountBankBalancesRevision]
  split
  · rfl
  · generalize world.descriptors = descriptors
    induction descriptors generalizing world with
    | nil => rfl
    | cons descriptor descriptors ih =>
        rw [List.foldl_cons, ih, publishToDescriptor_events]

theorem publishWallet_spec {wallet : CurrencyVector} (hrange : publishable wallet = true)
    (world : World) (ref : CharacterRef) (revision : BitVec 64) :
    ∃ world', publishWallet world ref wallet revision = (true, world') ∧
      SameCharacter (world.character ref) (world'.character ref) ∧
      bankOf (world'.character ref) = bankOf (world.character ref) ∧
      walletOf (world'.character ref) =
        (walletOf (world.character ref)).accept ⟨revision.toNat, liveCoins wallet⟩ ∧
      (walletOf (world'.character ref) = walletOf (world.character ref) →
        world'.events = world.events) := by
  rw [publishWallet, hrange]
  simp only [Bool.not_true, Bool.false_eq_true, if_false]
  split
  · next hold =>
      refine ⟨world, rfl, ⟨rfl, rfl, rfl, rfl⟩, rfl, ?_, fun _ => rfl⟩
      exact (Stamped.accept_of_lt (BitVec.lt_def.mp hold)).symm
  · next hnew =>
      refine ⟨_, rfl, ?_, ?_, ?_, ?_⟩
      · simp [SameCharacter]
      · simp [bankOf]
      · rw [Stamped.accept_of_le (BitVec.le_def.mp (BitVec.not_lt.mp hnew))]
        simp [walletOf]
      · simp only [walletOf, World.set_character, Stamped.mk.injEq, and_imp]
        intro _ hcash
        have hdelta : coinValue wallet.amount - coinValue (world.character ref).cash = 0 := by
          rw [← hcash, coinValue_liveCoins hrange]
          omega
        rw [walletEvents, if_pos hdelta, List.append_nil]

theorem publishOwnBank_spec (world : World) (ref : CharacterRef) (bank : CurrencyVector)
    (revision : BitVec 64) :
    let owned := publishOwnBank world ref bank revision
    SameCharacter (world.character ref) (owned.character ref) ∧
      walletOf (owned.character ref) = walletOf (world.character ref) ∧
      bankOf (owned.character ref) =
        (bankOf (world.character ref)).accept ⟨revision.toNat, liveCoins bank⟩ ∧
      owned.events = world.events ∧
      revision ≤ (owned.character ref).bankRevision ∧
      ((owned.character ref).bankRevision = revision →
        (owned.character ref).balance = liveCoins bank) := by
  simp only [publishOwnBank]
  split
  · next hnew =>
      refine ⟨by simp [SameCharacter], by simp [walletOf], ?_, rfl, ?_, ?_⟩
      · rw [Stamped.accept_of_le (BitVec.le_def.mp hnew)]
        simp [bankOf]
      · rw [World.set_character]
        exact BitVec.le_refl _
      · rw [World.set_character]
        exact fun _ => rfl
  · next hold =>
      have hlt := BitVec.not_le.mp hold
      refine ⟨⟨rfl, rfl, rfl, rfl⟩, rfl, ?_, rfl, BitVec.le_of_lt hlt, ?_⟩
      · exact (Stamped.accept_of_lt (BitVec.lt_def.mp hlt)).symm
      · intro hequal
        rw [hequal] at hlt
        exact absurd hlt (BitVec.lt_irrefl _)

theorem publishBank_spec {bank : CurrencyVector} (hrange : publishable bank = true)
    (world : World) (ref : CharacterRef) (accountName : Bytes) (racewar : BitVec 8)
    (revision : BitVec 64) :
    ∃ world', publishBank world (some ref) accountName racewar bank revision = (true, world') ∧
      SameCharacter (world.character ref) (world'.character ref) ∧
      walletOf (world'.character ref) = walletOf (world.character ref) ∧
      bankOf (world'.character ref) =
        (bankOf (world.character ref)).accept ⟨revision.toNat, liveCoins bank⟩ ∧
      world'.events = world.events := by
  obtain ⟨hsame, hwallet, hbank, hevents, hrevision, hbalance⟩ :=
    publishOwnBank_spec world ref bank revision
  have hloop : (publishAccountBankBalancesRevision (publishOwnBank world ref bank revision)
      accountName racewar (liveCoins bank) revision).character ref = _ :=
    publishAccountBankBalancesRevision_character hrevision hbalance
  refine ⟨publishAccountBankBalancesRevision (publishOwnBank world ref bank revision)
    accountName racewar (liveCoins bank) revision, ?_, ?_, ?_, ?_, ?_⟩
  · rw [publishBank, hrange]
    rfl
  · rw [hloop]; exact hsame
  · rw [hloop]; exact hwallet
  · rw [hloop]; exact hbank
  · rw [publishAccountBankBalancesRevision_events, hevents]

def publishReceipt (ref : CharacterRef) (accountName : Bytes) (racewar : BitVec 8)
    (world : World) (receipt : CurrencyCommandResult) : World :=
  (publishBalances world ref accountName racewar receipt.wallet receipt.bank
    receipt.walletRevision receipt.bankRevision).2

section

variable (ref : CharacterRef) (accountName : Bytes) (racewar : BitVec 8)

/-- A receipt in range is accepted, and is one write to each of the two registers. -/
theorem publishReceipt_spec (world : World) {receipt : CurrencyCommandResult}
    (hrange : InRange receipt) :
    let after := publishReceipt ref accountName racewar world receipt
    (publishBalances world ref accountName racewar receipt.wallet receipt.bank
        receipt.walletRevision receipt.bankRevision).1 = true ∧
      SameCharacter (world.character ref) (after.character ref) ∧
      walletOf (after.character ref) =
        (walletOf (world.character ref)).accept (walletWrite receipt) ∧
      bankOf (after.character ref) = (bankOf (world.character ref)).accept (bankWrite receipt) ∧
      (walletOf (after.character ref) = walletOf (world.character ref) →
        after.events = world.events) := by
  obtain ⟨mid, hmid, hsame, hbank, hwallet, hevents⟩ :=
    publishWallet_spec hrange.1 world ref receipt.walletRevision
  obtain ⟨last, hlast, hsame', hwallet', hbank', hevents'⟩ :=
    publishBank_spec hrange.2 mid ref accountName racewar receipt.bankRevision
  have hanswer : publishBalances world ref accountName racewar receipt.wallet receipt.bank
      receipt.walletRevision receipt.bankRevision = (true, last) := by
    rw [publishBalances, hrange.2, hmid]
    exact hlast
  simp only [publishReceipt, hanswer]
  refine ⟨trivial, hsame.trans hsame', ?_, ?_, ?_⟩
  · rw [hwallet', hwallet, walletWrite]
  · rw [hbank', hbank, bankWrite]
  · intro hunchanged
    rw [hevents', hevents (hwallet' ▸ hunchanged)]

theorem run_publishReceipt {receipts : List CurrencyCommandResult}
    (hrange : ∀ receipt ∈ receipts, InRange receipt) (world : World) :
    let after := run (publishReceipt ref accountName racewar) world receipts
    SameCharacter (world.character ref) (after.character ref) ∧
      walletOf (after.character ref) =
        (receipts.map walletWrite).foldl Stamped.accept (walletOf (world.character ref)) ∧
      bankOf (after.character ref) =
        (receipts.map bankWrite).foldl Stamped.accept (bankOf (world.character ref)) := by
  induction receipts generalizing world with
  | nil => exact ⟨⟨rfl, rfl, rfl, rfl⟩, rfl, rfl⟩
  | cons receipt receipts ih =>
      rw [List.forall_mem_cons] at hrange
      obtain ⟨-, hsame, hwallet, hbank, -⟩ :=
        publishReceipt_spec ref accountName racewar world hrange.1
      obtain ⟨hsame', hwallet', hbank'⟩ :=
        ih hrange.2 (publishReceipt ref accountName racewar world receipt)
      refine ⟨hsame.trans hsame', ?_, ?_⟩
      · rw [run_cons, hwallet', hwallet, List.map_cons, List.foldl_cons]
      · rw [run_cons, hbank', hbank, List.map_cons, List.foldl_cons]

end

/-- The balance of the highest revision among the receipts and what was there
before; the receipt counts when they tie. -/
def Latest (receipts : List CurrencyCommandResult)
    (revision : CurrencyCommandResult → BitVec 64)
    (balances : CurrencyCommandResult → CurrencyVector)
    (before after : Stamped Nat (Vector (BitVec 32) 4)) : Prop :=
  (∃ receipt ∈ receipts, before.revision ≤ (revision receipt).toNat ∧
    (∀ other ∈ receipts, (revision other).toNat ≤ (revision receipt).toNat) ∧
    after.revision = (revision receipt).toNat ∧
    ∀ i : Fin 4, (after.value.get i).toInt = ((balances receipt).amount.get i).toInt) ∨
  (∀ receipt ∈ receipts, (revision receipt).toNat < before.revision) ∧ after = before

section

variable {receipts : List CurrencyCommandResult} {revision : CurrencyCommandResult → BitVec 64}
  {balances : CurrencyCommandResult → CurrencyVector}

theorem latest_foldl (hrange : ∀ receipt ∈ receipts, publishable (balances receipt) = true)
    (before : Stamped Nat (Vector (BitVec 32) 4)) :
    Latest receipts revision balances before ((receipts.map fun receipt =>
      ⟨(revision receipt).toNat, liveCoins (balances receipt)⟩).foldl Stamped.accept before) := by
  rcases Stamped.foldl_accept_cases (receipts.map fun receipt =>
      ⟨(revision receipt).toNat, liveCoins (balances receipt)⟩) before with
    ⟨hend, hall⟩ | ⟨hmem, hbefore, hall⟩
  · right
    refine ⟨?_, hend⟩
    intro receipt hreceipt
    exact hall _ (List.mem_map_of_mem hreceipt)
  · left
    obtain ⟨receipt, hreceipt, heq⟩ := List.mem_map.mp hmem
    rw [← heq] at hbefore hall ⊢
    refine ⟨receipt, hreceipt, hbefore, ?_, rfl, liveCoins_toInt (hrange receipt hreceipt)⟩
    intro other hother
    exact hall _ (List.mem_map_of_mem hother)

theorem agree_map (hagree : ∀ a ∈ receipts, ∀ b ∈ receipts,
      revision a = revision b → balances a = balances b) :
    Stamped.Agree (receipts.map fun receipt =>
      (⟨(revision receipt).toNat, liveCoins (balances receipt)⟩ :
        Stamped Nat (Vector (BitVec 32) 4))) := by
  intro a ha b hb hequal
  obtain ⟨left, hleft, rfl⟩ := List.mem_map.mp ha
  obtain ⟨right, hright, rfl⟩ := List.mem_map.mp hb
  have hrevision : revision left = revision right := BitVec.eq_of_toNat_eq hequal
  rw [hrevision, hagree left hleft right hright hrevision]

end

/-- **Receipts reach a character in any order.** In whatever order receipts are
published, each is accepted, no revision of the character ever goes down, and the
character ends with the wallet of the highest wallet revision and the bank of the
highest bank revision among the receipts and what it held; every order ends in the
same character. Publishing again what was published changes nothing about it and
records no economic event. -/
theorem publishBalances_latest_wins (world : World) (ref : CharacterRef) (accountName : Bytes)
    (racewar : BitVec 8) (receipts : List CurrencyCommandResult)
    (hrange : ∀ receipt ∈ receipts, InRange receipt)
    (hwallet : ∀ a ∈ receipts, ∀ b ∈ receipts,
      a.walletRevision = b.walletRevision → a.wallet = b.wallet)
    (hbank : ∀ a ∈ receipts, ∀ b ∈ receipts,
      a.bankRevision = b.bankRevision → a.bank = b.bank)
    (order : List CurrencyCommandResult) (horder : order.Perm receipts) :
    let publish := publishReceipt ref accountName racewar
    let after := run publish world order
    Latest receipts (·.walletRevision) (·.wallet) (walletOf (world.character ref))
      (walletOf (after.character ref)) ∧
    Latest receipts (·.bankRevision) (·.bank) (bankOf (world.character ref))
      (bankOf (after.character ref)) ∧
    after.character ref = (run publish world receipts).character ref ∧
    Along publish (fun now receipt =>
      (publishBalances now ref accountName racewar receipt.wallet receipt.bank
        receipt.walletRevision receipt.bankRevision).1 = true ∧
      (now.character ref).walletRevision ≤ ((publish now receipt).character ref).walletRevision ∧
      (now.character ref).bankRevision ≤ ((publish now receipt).character ref).bankRevision)
      world order ∧
    ∀ receipt ∈ receipts, (publish after receipt).character ref = after.character ref ∧
      (publish after receipt).events = after.events := by
  intro publish after
  have hrange' : ∀ receipt ∈ order, InRange receipt :=
    fun receipt hreceipt => hrange receipt (horder.mem_iff.mp hreceipt)
  have hagreeWallet := agree_map hwallet
  have hagreeBank := agree_map hbank
  obtain ⟨hsame, hwalletEnd, hbankEnd⟩ :=
    run_publishReceipt ref accountName racewar hrange' world
  obtain ⟨hsame', hwalletAll, hbankAll⟩ :=
    run_publishReceipt ref accountName racewar hrange world
  have hwalletOrder := Stamped.foldl_accept_perm hagreeWallet (horder.map walletWrite)
    (walletOf (world.character ref))
  have hbankOrder := Stamped.foldl_accept_perm hagreeBank (horder.map bankWrite)
    (bankOf (world.character ref))
  refine ⟨?_, ?_, ?_, ?_, ?_⟩
  · rw [show walletOf (after.character ref) = _ from hwalletEnd, hwalletOrder]
    exact latest_foldl (fun receipt hreceipt => (hrange receipt hreceipt).1) _
  · rw [show bankOf (after.character ref) = _ from hbankEnd, hbankOrder]
    exact latest_foldl (fun receipt hreceipt => (hrange receipt hreceipt).2) _
  · refine character_eq hsame hsame' ?_ ?_
    · rw [hwalletEnd, hwalletAll]
      exact hwalletOrder
    · rw [hbankEnd, hbankAll]
      exact hbankOrder
  · refine along_of_forall ?_ order world hrange'
    intro now receipt hin
    obtain ⟨haccepted, -, hwalletNow, hbankNow, -⟩ :=
      publishReceipt_spec ref accountName racewar now hin
    have hle := Stamped.revision_le_accept (walletOf (now.character ref)) (walletWrite receipt)
    have hle' := Stamped.revision_le_accept (bankOf (now.character ref)) (bankWrite receipt)
    rw [← hwalletNow] at hle
    rw [← hbankNow] at hle'
    exact ⟨haccepted, BitVec.le_def.mpr hle, BitVec.le_def.mpr hle'⟩
  · intro receipt hreceipt
    obtain ⟨-, hsameAgain, hwalletAgain, hbankAgain, hevents⟩ :=
      publishReceipt_spec ref accountName racewar after (hrange receipt hreceipt)
    have hwalletKept : walletOf ((publish after receipt).character ref) =
        walletOf (after.character ref) := by
      rw [show walletOf ((publish after receipt).character ref) = _ from hwalletAgain,
        show walletOf (after.character ref) = _ from hwalletEnd, hwalletOrder]
      exact Stamped.accept_foldl_of_mem hagreeWallet _ (List.mem_map_of_mem hreceipt)
    have hbankKept : bankOf ((publish after receipt).character ref) =
        bankOf (after.character ref) := by
      rw [show bankOf ((publish after receipt).character ref) = _ from hbankAgain,
        show bankOf (after.character ref) = _ from hbankEnd, hbankOrder]
      exact Stamped.accept_foldl_of_mem hagreeBank _ (List.mem_map_of_mem hreceipt)
    exact ⟨character_eq hsameAgain ⟨rfl, rfl, rfl, rfl⟩ hwalletKept hbankKept,
      hevents hwalletKept⟩

/-- Two receipts that arrive in the wrong order, for a character that plays. -/
theorem publishBalances_latest_wins_swapped :
    let older : CurrencyCommandResult := { walletRevision := 4, bankRevision := 9 }
    let newer : CurrencyCommandResult :=
      { wallet := ⟨#v[5, 0, 0, 1]⟩, walletRevision := 5, bankRevision := 9 }
    let world : World :=
      { character := fun _ => { pid := 7, walletRevision := 3, bankRevision := 8 }
        descriptors := [⟨true, some 0, some [65]⟩] }
    (run (publishReceipt 0 [97] 0) world [newer, older]).character 0 =
      (run (publishReceipt 0 [97] 0) world [older, newer]).character 0 := by
  intro older newer world
  exact (publishBalances_latest_wins world 0 [97] 0 [older, newer] (by simp [InRange]; decide)
    (by simp; decide) (by simp; decide) [newer, older] (List.Perm.swap ..)).2.2.1

end Duris.Economy
