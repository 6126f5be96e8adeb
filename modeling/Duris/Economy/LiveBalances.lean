import Duris.Economy.CurrencyCommand

/-!
# Publishing balances to live characters

The part of `src/economy/currency_transaction.c` that writes a committed balance
into the game (`currency_transaction_publish_wallet`, `publish_bank`,
`currency_transaction_publish_balances`), with the loop of `src/core/utility.c`
that carries a shared bank balance to every playing character of the account
(`publish_account_bank_balances_revision`).

A pointer to a character is a `CharacterRef`, and the world says what stands
behind each. A descriptor names the character it plays, already resolved through
`original` and the morph. Client notifications (`gmcp_char_vitals`) change nothing
that is read here and are left out.
-/

namespace Duris.Economy

abbrev CharacterRef := Nat

/-- What publication reads and writes of a character: `points.cash`, the `spare`
fields that hold the bank balance, and the two revisions. -/
structure Character where
  pid : BitVec 32
  npc : Bool := false
  racewar : BitVec 8 := 0
  room : Int := 0
  cash : Vector (BitVec 32) 4 := Vector.replicate 4 0
  balance : Vector (BitVec 32) 4 := Vector.replicate 4 0
  walletRevision : BitVec 64 := 0
  bankRevision : BitVec 64 := 0
  deriving DecidableEq

structure Descriptor where
  playing : Bool
  target : Option CharacterRef
  accountName : Option Bytes
  deriving DecidableEq

inductive EconomicAction where
  | walletAdd | walletSub
  deriving DecidableEq

/-- An `economic_event_record` of the source `wallet_commit`. -/
structure EconomicEvent where
  pid : BitVec 32
  action : EconomicAction
  amount : Int
  room : Int
  deriving DecidableEq

/-- The live world. `characters` are the pointers reachable through
`find_player_by_pid` and `character_list`, in the order they are searched. -/
structure World where
  character : CharacterRef → Character
  characters : List CharacterRef := []
  descriptors : List Descriptor := []
  events : List EconomicEvent := []

def World.set (world : World) (ref : CharacterRef) (character : Character) : World :=
  { world with character := Function.update world.character ref character }

/-- The range check on a published amount: `amount < 0 || amount > INT_MAX` is
refused. -/
def publishable (balances : CurrencyVector) : Bool :=
  balances.amount.toList.all fun amount =>
    decide (0 ≤ amount.toInt) && decide (amount.toInt ≤ 2147483647)

/-- `static_cast<int>` of the four amounts. -/
def liveCoins (balances : CurrencyVector) : Vector (BitVec 32) 4 :=
  balances.amount.map (·.setWidth 32)

def coinValue {n : Nat} (coins : Vector (BitVec n) 4) : Int :=
  coins[0].toInt + 10 * coins[1].toInt + 100 * coins[2].toInt + 1000 * coins[3].toInt

/-- The economic event of a wallet that changes from one value to another; none
when the value stays. -/
def walletEvents (character : Character) (wallet : CurrencyVector) : List EconomicEvent :=
  let delta := coinValue wallet.amount - coinValue character.cash
  if delta = 0 then []
  else
    [{ pid := character.pid
       action := if 0 < delta then .walletAdd else .walletSub
       amount := delta
       room := character.room }]

def publishWallet (world : World) (ref : CharacterRef) (wallet : CurrencyVector)
    (walletRevision : BitVec 64) : Bool × World :=
  let character := world.character ref
  if !publishable wallet then (false, world)
  else if walletRevision < character.walletRevision then (true, world)
  else
    (true, { world.set ref { character with
        cash := liveCoins wallet
        walletRevision := walletRevision } with
      events := world.events ++ walletEvents character wallet })

/-- `strcasecmp` answers zero. -/
def sameAccount (left right : Bytes) : Bool :=
  (cString left).map toLower == (cString right).map toLower

/-- `UINT64_MAX`, the revision of a balance that carries none. -/
def noRevision : BitVec 64 := BitVec.allOnes 64

def publishTarget (world : World) (accountName : Bytes) (racewar : BitVec 8)
    (bankRevision : BitVec 64) (descriptor : Descriptor) : Option CharacterRef :=
  match descriptor.target, descriptor.accountName with
  | some ref, some name =>
      let character := world.character ref
      if !descriptor.playing ∨ character.npc ∨ !sameAccount name accountName ∨
          character.racewar ≠ racewar ∨
          (bankRevision ≠ noRevision ∧ bankRevision < character.bankRevision) then none
      else some ref
  | _, _ => none

/-- One iteration of `publish_account_bank_balances_revision`. -/
def publishToDescriptor (accountName : Bytes) (racewar : BitVec 8)
    (balances : Vector (BitVec 32) 4) (bankRevision : BitVec 64) (world : World)
    (descriptor : Descriptor) : World :=
  match publishTarget world accountName racewar bankRevision descriptor with
  | none => world
  | some ref =>
      let character := world.character ref
      world.set ref { character with
        balance := balances
        bankRevision := if bankRevision = noRevision then character.bankRevision
          else bankRevision }

def publishAccountBankBalancesRevision (world : World) (accountName : Bytes) (racewar : BitVec 8)
    (balances : Vector (BitVec 32) 4) (bankRevision : BitVec 64) : World :=
  if cString accountName = [] ∨ balances.toList.any (fun coins => decide (coins.toInt < 0)) then
    world
  else
    world.descriptors.foldl (publishToDescriptor accountName racewar balances bankRevision) world

/-- The write of `publish_bank` to the character it is given. -/
def publishOwnBank (world : World) (ref : CharacterRef) (bank : CurrencyVector)
    (bankRevision : BitVec 64) : World :=
  let character := world.character ref
  if character.bankRevision ≤ bankRevision then
    world.set ref { character with balance := liveCoins bank, bankRevision := bankRevision }
  else world

/-- `publish_bank`; the character is null for an endpoint that is not loaded. -/
def publishBank (world : World) (character : Option CharacterRef) (accountName : Bytes)
    (racewar : BitVec 8) (bank : CurrencyVector) (bankRevision : BitVec 64) : Bool × World :=
  if !publishable bank then (false, world)
  else
    let owned :=
      match character with
      | none => world
      | some ref => publishOwnBank world ref bank bankRevision
    (true, publishAccountBankBalancesRevision owned accountName racewar (liveCoins bank)
      bankRevision)

def publishBalances (world : World) (ref : CharacterRef) (accountName : Bytes)
    (racewar : BitVec 8) (wallet bank : CurrencyVector) (walletRevision bankRevision : BitVec 64) :
    Bool × World :=
  if !publishable bank then (false, world)
  else
    match publishWallet world ref wallet walletRevision with
    | (false, world) => (false, world)
    | (true, world) => publishBank world (some ref) accountName racewar bank bankRevision

end Duris.Economy
