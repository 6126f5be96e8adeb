import Duris.Economy.CurrencyPublication

/-!
# Pending currency operations

The rest of `src/economy/currency_transaction.c`: the map of pending operations, the two
submissions that put an entry there (`submit_prepared` and `submit_coin`), and the three
ways to publish one, a batch of completions, a player who is ready, and a submission the
coordinator had already completed.

A step is what the game thread does up to the next call of a callback or return from one;
`frames` is what it comes back to. A callback may submit again, and no callback hands over
completions or brings a player in. The coordinator is what it answers: who holds a fence,
how it took a submission, and the completion it remembers. The map is a list with one
entry a key, in the order of insertion; the order the map is walked in is the caller's,
when it lists the same keys. Pointers are not null. Alerts, texts for the player and
allocation failure are left out, but for the one a coin callback ends in, which counts as
an answer of false.

`accepted`, the tickets and `log` are not in the source: how many operations were taken
on, the number each goes by, and what happened to them in order.
-/

namespace Duris.Economy

open Persistence

def currencyPendingMax : Nat := 1024
def currencyPendingContextMaxBytes : Nat := 64
def currencyCoinPublicationMaxAttempts : Nat := 8

structure CurrencyTransactionHealth where
  pending : Nat := 0
  retainedOffline : Nat := 0
  publicationBlocked : Nat := 0
  publicationRetrying : Nat := 0
  submitted : Nat := 0
  committed : Nat := 0
  rejected : Nat := 0
  submissionFailures : Nat := 0
  malformedCompletions : Nat := 0
  publicationAbandoned : Nat := 0

/-- The game around the module. `playing` are the characters of the descriptors that are
playing, in the order `find_player_by_pid` looks at them, and `account` is the account
name of a character's descriptor. -/
structure Game where
  world : World
  playing : List CharacterRef := []
  account : CharacterRef → Option Bytes := fun _ => none

structure CoordinatorAnswers where
  fenced : CriticalEntityKey → Option CriticalOperationId := fun _ => none
  submitted : CriticalSubmitResult
  completed : Option CriticalCompletion := none

/-- What is on the stack: a loop over the operations that are ready, the end of a
submission, or a callback that has not returned. `last` marks the cleanup notification
after which a coin transfer is done whatever is answered. -/
inductive Frame where
  | handling (ready : List CriticalOperationId)
  | readying (ready : List CriticalOperationId) (character : CharacterRef)
  | submitting (coin : Bool)
  | notifying (entry : PendingCurrency) (notice : CurrencyNotice) (last : Bool)

inductive Record where
  | staged (ticket : Nat) (receipt : CriticalCompletion)
  | tried (entry : PendingCurrency)
  | notified (entry : PendingCurrency) (notice : CurrencyNotice)
  | finished (entry : PendingCurrency) (committed : Bool)

structure CurrencyTransactions where
  pending : List PendingCurrency := []
  health : CurrencyTransactionHealth := {}
  game : Game
  frames : List Frame := []
  accepted : Nat := 0
  log : List Record := []

/-- `critical_submit_result_keeps_operation`, of the answers there are. -/
def keepsOperation : CriticalSubmitResult → Bool
  | .accepted | .attached => true
  | _ => false

/-! ## The map -/

def findPending (pending : List PendingCurrency) (identity : CriticalOperationId) :
    Option PendingCurrency :=
  Keyed.lookup PendingCurrency.operationId pending identity

/-- `emplace` and `insert`: nothing when the key is there. -/
def emplace (pending : List PendingCurrency) (entry : PendingCurrency) : List PendingCurrency :=
  if (findPending pending entry.operationId).isSome then pending else pending ++ [entry]

def setEntry (pending : List PendingCurrency) (entry : PendingCurrency) : List PendingCurrency :=
  pending.map fun other => if other.operationId = entry.operationId then entry else other

def erasePending (pending : List PendingCurrency) (identity : CriticalOperationId) :
    List PendingCurrency :=
  Keyed.erase PendingCurrency.operationId pending identity

def walked (order : List CriticalOperationId) (pending : List PendingCurrency) :
    List CriticalOperationId :=
  if order.isPerm (pending.map PendingCurrency.operationId) then order
  else pending.map PendingCurrency.operationId

/-! ## Who is affected -/

/-- `"Unknown"`. -/
def unknownAccount : Bytes := [85, 110, 107, 110, 111, 119, 110]

namespace Game

def findPlayerByPid (game : Game) (pid : BitVec 32) : Option CharacterRef :=
  game.playing.find? fun ref =>
    !(game.world.character ref).npc && (game.world.character ref).pid == pid

def getAccountNameSafe (game : Game) (ref : CharacterRef) : Bytes :=
  (game.account ref).getD unknownAccount

def isPlayer (game : Game) (ref : CharacterRef) : Bool :=
  !(game.world.character ref).npc && decide (0 < (game.world.character ref).pid.toInt)

def accountKnown (game : Game) (ref : CharacterRef) : Bool :=
  cString (game.getAccountNameSafe ref) != unknownAccount

end Game

/-- Whether something held under a pid, a side and an account is the character's. -/
def sameHolder (game : Game) (ref : CharacterRef) (pid : BitVec 32) (racewar : BitVec 8)
    (accountName : Bytes) : Bool :=
  pid == (game.world.character ref).pid ||
    (game.accountKnown ref && racewar == (game.world.character ref).racewar &&
      sameAccount accountName (game.getAccountNameSafe ref))

def endpointAffectsCharacter (sha256 : Bytes → Vector UInt8 32) (game : Game)
    (ref : CharacterRef) (endpoint : CoinTransferEndpoint) : Bool :=
  endpoint.change.type == CriticalCommandType.accountBank &&
    match currencyCommandDecodePayload sha256 endpoint.change with
    | none => false
    | some wallet => sameHolder game ref wallet.pid wallet.racewar wallet.accountName.toList

def pendingAffectsCharacter (sha256 : Bytes → Vector UInt8 32) (game : Game)
    (ref : CharacterRef) (entry : PendingCurrency) : Bool :=
  match entry.coin with
  | none => sameHolder game ref entry.pid entry.racewar entry.accountName
  | some coin =>
      !entry.coinWalletsPublished &&
        (endpointAffectsCharacter sha256 game ref coin.source ||
          endpointAffectsCharacter sha256 game ref coin.destination ||
          sameHolder game ref entry.pid entry.racewar entry.accountName)

namespace CurrencyTransactions

variable (sha256 : Bytes → Vector UInt8 32)

def publicationBlocked (s : CurrencyTransactions) (ref : CharacterRef) : Bool :=
  s.game.isPlayer ref && s.health.publicationBlocked != 0 &&
    s.pending.any fun entry =>
      entry.publicationState.isBlocked && pendingAffectsCharacter sha256 s.game ref entry

def playerBusy (s : CurrencyTransactions) (ref : CharacterRef) : Bool :=
  s.game.isPlayer ref && s.pending.any (pendingAffectsCharacter sha256 s.game ref)

def canAdmit (s : CurrencyTransactions) (ref : CharacterRef) (answers : CoordinatorAnswers) :
    Bool :=
  let character := s.game.world.character ref
  let accountName := s.game.getAccountNameSafe ref
  s.game.isPlayer ref && decide (s.pending.length < currencyPendingMax) &&
    s.game.accountKnown ref &&
    decide ((cString accountName).length ≤ currencyAccountNameMaxBytes) &&
    match currencyAccountKey sha256 accountName character.racewar with
    | none => false
    | some accountKey =>
        (answers.fenced ⟨CriticalEntityType.player, character.pid.setWidth 64⟩).isNone &&
          (answers.fenced accountKey).isNone

def canSubmitNonrebasable (s : CurrencyTransactions) (ref : CharacterRef)
    (answers : CoordinatorAnswers) : Bool :=
  s.canAdmit sha256 ref answers && !s.playerBusy sha256 ref

/-! ## Publication -/

def updateRetainedHealth (s : CurrencyTransactions) : CurrencyTransactions :=
  { s with health := { s.health with
      pending := s.pending.length
      retainedOffline := s.pending.countP fun entry =>
        entry.publicationState == .waitingForPlayer
      publicationBlocked := s.pending.countP fun entry => entry.publicationState.isBlocked
      publicationRetrying := s.pending.countP fun entry =>
        entry.publicationState == .retryingCallback } }

/-- `retain_unresolved_publication`. -/
def retain (s : CurrencyTransactions) (entry : PendingCurrency) (malformed : Bool) :
    CurrencyTransactions :=
  if entry.publicationState.isBlocked then { s with pending := setEntry s.pending entry }
  else
    { s with
      pending := setEntry s.pending { entry with publicationState := .blockedReceipt }
      health := { s.health with
        publicationBlocked := s.health.publicationBlocked + 1
        malformedCompletions := s.health.malformedCompletions + malformed.toNat } }

def finish (s : CurrencyTransactions) (entry : PendingCurrency) (committed : Bool) :
    CurrencyTransactions :=
  { s with
    health := { s.health with
      committed := s.health.committed + committed.toNat
      rejected := s.health.rejected + (!committed).toNat }
    log := s.log ++ [.finished entry committed] }

def notify (s : CurrencyTransactions) (entry : PendingCurrency) (notice : CurrencyNotice)
    (last : Bool) : CurrencyTransactions :=
  { s with
    frames := .notifying entry notice last :: s.frames
    log := s.log ++ [.notified entry notice] }

def cleanupNotice : CurrencyNotice → CurrencyNotice
  | .coin actor _ payload result _ => .coin actor true payload result eownerdead
  | notice => notice

def abandon (s : CurrencyTransactions) : CurrencyTransactions :=
  { s with health := { s.health with
      publicationAbandoned := s.health.publicationAbandoned + 1 } }

/-- `publish_coin` after its callback has answered; `entry` counts the attempt. -/
def concludeCoin (s : CurrencyTransactions) (entry : PendingCurrency) (notice : CurrencyNotice)
    (published : Bool) : CurrencyTransactions :=
  if published then s.finish entry notice.committed
  else if entry.publicationAttempts < currencyCoinPublicationMaxAttempts then
    { s with pending := emplace s.pending { entry with publicationState := .retryingCallback } }
  else if notice.committed ∧ entry.coinCompletion.isSome then
    s.abandon.notify entry (cleanupNotice notice) true
  else s.abandon.finish entry notice.committed

def erase (s : CurrencyTransactions) (entry : PendingCurrency) : CurrencyTransactions :=
  { s with pending := erasePending s.pending entry.operationId }

/-- The entry leaves the map and its callback, if it has one, is called. -/
def extract (s : CurrencyTransactions) (entry : PendingCurrency) (notice : CurrencyNotice) :
    CurrencyTransactions :=
  match entry.coin with
  | none =>
      if entry.completion.isSome then
        ((s.erase entry).finish entry notice.committed).notify entry notice false
      else (s.erase entry).finish entry notice.committed
  | some _ =>
      if entry.coinCompletion.isSome then (s.erase entry).notify entry notice false
      else (s.erase entry).concludeCoin entry notice true

/-- The publication of an entry is tried, with what it did to the world. -/
def attempt (s : CurrencyTransactions) (entry : PendingCurrency) (world : World) :
    CurrencyTransactions :=
  { s with
    game := { s.game with world := world }
    log := s.log ++ [.tried entry] }

def countMalformed (s : CurrencyTransactions) (malformed : Bool) : CurrencyTransactions :=
  { s with health := { s.health with
      malformedCompletions := s.health.malformedCompletions + malformed.toNat } }

/-- What `publish` does with the outcome of a publication. -/
def conclude (s : CurrencyTransactions) (entry : PendingCurrency) :
    Publication → CurrencyTransactions
  | .retained _ malformed => s.retain entry malformed
  | .notify notice malformed => (s.countMalformed malformed).extract entry notice

/-- `publish`, of the entry of a key that is in the map. -/
def publish (s : CurrencyTransactions) (identity : CriticalOperationId)
    (character : Option CharacterRef) : CurrencyTransactions :=
  match findPending s.pending identity with
  | none => s
  | some entry =>
      match publishEntry sha256 s.game.world entry character with
      | (world, published, publication) =>
          (s.attempt entry world).conclude published publication

/-- `stage_publication_receipt`, of the entry of a key. -/
def stage (s : CurrencyTransactions) (identity : CriticalOperationId)
    (completion : CriticalCompletion) (retrySameBlockedReceipt : Bool) : CurrencyTransactions :=
  match findPending s.pending identity with
  | none => s
  | some entry =>
      if retrySameBlockedReceipt = false ∧ entry.publicationState.isBlocked = true ∧
          samePublicationReceipt entry.completed completion = true then s
      else
        { s with
          pending := setEntry s.pending
            { entry with completed := completion, publicationState := .ready }
          log := s.log ++ [.staged entry.ticket completion] }

def publishCompletedIfAvailable (s : CurrencyTransactions) (identity : CriticalOperationId)
    (character : CharacterRef) (completed : Option CriticalCompletion) : CurrencyTransactions :=
  match completed with
  | none => s
  | some completion => (s.stage identity completion true).publish sha256 identity (some character)

/-! ## Submissions -/

def keep (s : CurrencyTransactions) (entry : PendingCurrency) : CurrencyTransactions :=
  { s with
    pending := emplace s.pending { entry with ticket := s.accepted }
    health := { s.health with submitted := s.health.submitted + 1 }
    frames := .submitting entry.coin.isSome :: s.frames
    accepted := s.accepted + 1 }

/-- From `pending.emplace` on: the coordinator keeps the operation, or the key is erased
again. -/
def submitEntry (s : CurrencyTransactions) (entry : PendingCurrency) (character : CharacterRef)
    (answers : CoordinatorAnswers) : CurrencyTransactions :=
  if answers.submitted = .attached then
    (s.keep entry).publishCompletedIfAvailable sha256 entry.operationId character
      answers.completed
  else if keepsOperation answers.submitted then s.keep entry
  else
    { s with
      pending := erasePending (emplace s.pending entry) entry.operationId
      health := { s.health with submissionFailures := s.health.submissionFailures + 1 } }

/-- `submit_prepared` up to `pending.emplace`: the entry, or what it returns at once. -/
def prepareEntry (s : CurrencyTransactions) (character : CharacterRef) (command : CriticalCommand)
    (completion : Option CallbackRef) (context : Bytes) (answers : CoordinatorAnswers) :
    Except Bool PendingCurrency :=
  match currencyCommandDecodePayload sha256 command with
  | none => .error false
  | some payload =>
      if (s.game.world.character character).npc = true ∨
          currencyPendingContextMaxBytes < context.length ∨
          payload.pid ≠ (s.game.world.character character).pid ∨
          payload.racewar ≠ (s.game.world.character character).racewar ∨
          sameAccount (s.game.getAccountNameSafe character) payload.accountName.toList = false then
        .error false
      else if (findPending s.pending command.operationId).isSome then .error true
      else if currencyPendingMax ≤ s.pending.length then .error false
      else if
          if currencyCommandIsRebasableReward payload then s.publicationBlocked sha256 character
          else s.playerBusy sha256 character || command.keys.any fun key =>
            match answers.fenced key with
            | none => false
            | some holder => holder != command.operationId then
        .error false
      else
        .ok {
          operationId := command.operationId
          pid := (s.game.world.character character).pid
          accountName := payload.accountName.toList
          racewar := payload.racewar
          completion
          context }

def submitPrepared (s : CurrencyTransactions) (character : CharacterRef)
    (command : CriticalCommand) (completion : Option CallbackRef) (context : Bytes)
    (answers : CoordinatorAnswers) : CurrencyTransactions :=
  match s.prepareEntry sha256 character command completion context answers with
  | .error _ => s
  | .ok entry => s.submitEntry sha256 entry character answers

/-- A wallet endpoint belongs to somebody who is playing and not busy. -/
def endpointIdle (s : CurrencyTransactions) (endpoint : CoinTransferEndpoint) : Bool :=
  if endpoint.change.type = CriticalCommandType.accountBank then
    match currencyCommandDecodePayload sha256 endpoint.change with
    | none => false
    | some wallet =>
        match s.game.findPlayerByPid wallet.pid with
        | none => false
        | some character => !s.playerBusy sha256 character
  else true

/-- `submit_coin` up to `pending.emplace`, under the id that was generated. -/
def coinEntry (s : CurrencyTransactions) (actor : CharacterRef) (payload : CoinTransferPayload)
    (operationId : CriticalOperationId) (completion : Option CallbackRef) (context : Bytes)
    (answers : CoordinatorAnswers) : Option PendingCurrency :=
  if s.canSubmitNonrebasable sha256 actor answers = false ∨
      currencyPendingContextMaxBytes < context.length then none
  else
    match coinTransferCommandBuild sha256 operationId payload CriticalSourceSite.command
        CriticalDeadlineClass.interactive with
    | .error _ => none
    | .ok command =>
        if command.keys.any (fun key => (answers.fenced key).isSome) ∨
            s.endpointIdle sha256 payload.source = false ∨
            s.endpointIdle sha256 payload.destination = false then none
        else
          some {
            operationId
            pid := (s.game.world.character actor).pid
            accountName := s.game.getAccountNameSafe actor
            racewar := (s.game.world.character actor).racewar
            completion := none
            context
            coin := some payload
            coinCompletion := completion }

def submitCoin (s : CurrencyTransactions) (actor : CharacterRef) (payload : CoinTransferPayload)
    (operationId : CriticalOperationId) (completion : Option CallbackRef) (context : Bytes)
    (answers : CoordinatorAnswers) : CurrencyTransactions :=
  match s.coinEntry sha256 actor payload operationId completion context answers with
  | none => s
  | some entry => s.submitEntry sha256 entry actor answers

/-! ## The game thread -/

def collect (s : CurrencyTransactions) (order : List CriticalOperationId)
    (wanted : PendingCurrency → Bool) : List CriticalOperationId :=
  ((walked order s.pending).filter fun identity =>
    (findPending s.pending identity).any wanted).take currencyPendingMax

/-- `currency_transaction_handle_completions` up to its second loop. -/
def handleCompletions (s : CurrencyTransactions) (completions : List CriticalCompletion)
    (order : List CriticalOperationId) : CurrencyTransactions :=
  let staged := completions.foldl
    (fun s completion => s.stage completion.operationId completion false) s
  { staged with frames := .handling (staged.collect order fun entry =>
      entry.publicationState.isReady) :: staged.frames }

/-- `currency_transaction_player_ready` up to its second loop. -/
def playerReady (s : CurrencyTransactions) (character : CharacterRef)
    (order : List CriticalOperationId) : CurrencyTransactions :=
  if (s.game.world.character character).npc then s
  else
    { s with frames := .readying (s.collect order fun entry =>
        entry.pid == (s.game.world.character character).pid &&
          entry.publicationState.isLivePending) character :: s.frames }

def replace (s : CurrencyTransactions) (entry : PendingCurrency) : CurrencyTransactions :=
  { s with pending := setEntry s.pending entry }

/-- One iteration of the loop over a batch of completions. -/
def handleOne (s : CurrencyTransactions) (identity : CriticalOperationId) : CurrencyTransactions :=
  match findPending s.pending identity with
  | none => s
  | some entry =>
      if (s.game.findPlayerByPid entry.pid).isSome ∨ entry.coin.isSome then
        s.publish sha256 identity (s.game.findPlayerByPid entry.pid)
      else s.replace { entry with publicationState := .waitingForPlayer }

/-- The thread goes on with what is on top of the stack, when it is not in a callback. -/
def advance (s : CurrencyTransactions) : CurrencyTransactions :=
  match s.frames with
  | .handling [] :: frames => { s with frames }.updateRetainedHealth
  | .handling (identity :: ready) :: frames =>
      { s with frames := .handling ready :: frames }.handleOne sha256 identity
  | .readying [] _ :: frames => { s with frames }.updateRetainedHealth
  | .readying (identity :: ready) character :: frames =>
      { s with frames := .readying ready character :: frames }.publish sha256 identity
        (some character)
  | .submitting true :: frames => { s with frames }.updateRetainedHealth
  | .submitting false :: frames =>
      { s with frames, health := { s.health with pending := s.pending.length } }
  | _ => s

def callbackReturns (s : CurrencyTransactions) (published : Bool) : CurrencyTransactions :=
  match s.frames with
  | .notifying _ (.currency ..) _ :: frames => { s with frames }
  | .notifying entry (.coin actor committed payload result errorCode) last :: frames =>
      if last then { s with frames }.finish entry committed
      else
        { s with frames }.concludeCoin
          { entry with publicationAttempts :=
              entry.publicationAttempts + (!published).toNat }
          (.coin actor committed payload result errorCode) published
  | _ => s

/-! ## Runs -/

inductive Event where
  | submitPrepared (character : CharacterRef) (command : CriticalCommand)
      (completion : Option CallbackRef) (context : Bytes) (answers : CoordinatorAnswers)
  | submitCoin (actor : CharacterRef) (payload : CoinTransferPayload)
      (operationId : CriticalOperationId) (completion : Option CallbackRef) (context : Bytes)
      (answers : CoordinatorAnswers)
  | handleCompletions (completions : List CriticalCompletion)
      (order : List CriticalOperationId)
  | playerReady (character : CharacterRef) (order : List CriticalOperationId)
  | advance
  | callbackReturns (published : Bool)
  | healthCopy
  | play (game : Game)

/-- Other code runs: outside the module, or in a callback. -/
def outside (s : CurrencyTransactions) : Bool :=
  match s.frames with
  | [] => true
  | .notifying .. :: _ => true
  | _ => false

def step (s : CurrencyTransactions) :
    Event → CurrencyTransactions
  | .submitPrepared character command completion context answers =>
      if s.outside then s.submitPrepared sha256 character command completion context answers
      else s
  | .submitCoin actor payload operationId completion context answers =>
      if s.outside then
        s.submitCoin sha256 actor payload operationId completion context answers
      else s
  | .handleCompletions completions order =>
      if s.frames.isEmpty then s.handleCompletions completions order else s
  | .playerReady character order =>
      if s.frames.isEmpty then s.playerReady character order else s
  | .advance => s.advance sha256
  | .callbackReturns published => s.callbackReturns published
  | .healthCopy => if s.outside then s.updateRetainedHealth else s
  | .play game => if s.outside then { s with game } else s

end CurrencyTransactions

end Duris.Economy
