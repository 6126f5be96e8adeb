import Mathlib.Data.List.AList
import Mathlib.Data.BitVec

/-!
# Player revision state

`src/player/player_revision_state.{h,c}`: per player, which checkpoint
components changed since they were last acknowledged, the revision counter that
orders captures, and what is queued and in flight. Revisions and component masks
are the 64-bit integers of the source.

Each operation of the source looks its player up in `revision_states` and works
on the entry it finds, so each is modelled twice: on the entry, and lifted to the
map. `none` is the `false` of the source, which leaves the state alone except
where `player_revision_mark` records an overflow.
-/

namespace Duris.Player

/-- `player_revision_t`. -/
abbrev Revision := BitVec 64

abbrev ComponentMask := BitVec 64

/-- A player id, the `int32_t` of the source; `Pid.valid` is its sign check. -/
abbrev Pid := BitVec 32

def Pid.valid (pid : Pid) : Bool := decide (0 < pid.toInt)

def maxPlayerRevisionStates : Nat := 8192

/-- `PLAYER_CHECKPOINT_COMPONENT_ALL`: the fourteen checkpoint components. -/
def playerCheckpointComponentAll : ComponentMask := 0x3fff

structure PlayerRevisionEntry where
  currentRevision : Revision := 0
  acknowledgedRevision : Revision := 0
  queuedRevision : Revision := 0
  inflightRevision : Revision := 0
  dirtyComponents : ComponentMask := 0
  unacknowledgedComponents : ComponentMask := 0
  queuedComponents : ComponentMask := 0
  inflightComponents : ComponentMask := 0
  componentRevisions : Vector Revision 14 := Vector.replicate 14 0
  overflowed : Bool := false
  sessionEnded : Bool := false
  deriving DecidableEq

def validComponents (components : ComponentMask) : Bool :=
  components != 0 && components &&& ~~~playerCheckpointComponentAll == 0

/-- `UINT64_C(1) << index`. -/
def componentBit (index : Fin 14) : ComponentMask := 1#64 <<< (index : Nat)

namespace PlayerRevisionEntry

/-- The component is named, and not marked since `revision`. -/
def Clears (state : PlayerRevisionEntry) (revision : Revision) (components : ComponentMask)
    (index : Fin 14) : Prop :=
  components &&& componentBit index ≠ 0 ∧ state.componentRevisions[index] ≤ revision

instance (state : PlayerRevisionEntry) (revision : Revision) (components : ComponentMask)
    (index : Fin 14) : Decidable (state.Clears revision components index) :=
  inferInstanceAs (Decidable (_ ∧ _))

/-- One iteration of `clear_acknowledged_components`. -/
def clearComponent (revision : Revision) (components : ComponentMask)
    (state : PlayerRevisionEntry) (index : Fin 14) : PlayerRevisionEntry :=
  if state.Clears revision components index then
    { state with
      unacknowledgedComponents := state.unacknowledgedComponents &&& ~~~componentBit index
      dirtyComponents := state.dirtyComponents &&& ~~~componentBit index
      queuedComponents := state.queuedComponents &&& ~~~componentBit index }
  else state

def clearAcknowledgedComponents (state : PlayerRevisionEntry) (revision : Revision)
    (components : ComponentMask) : PlayerRevisionEntry :=
  (List.finRange 14).foldl (clearComponent revision components) state

/-- The branch of `player_revision_hydrate` that finds an entry. The first answer
is whether it accepted. -/
def hydrate (state : PlayerRevisionEntry) (durableRevision : Revision) :
    Bool × PlayerRevisionEntry :=
  if state.unacknowledgedComponents ≠ 0 ∨ state.queuedComponents ≠ 0 ∨
      state.inflightComponents ≠ 0 then
    (durableRevision == state.acknowledgedRevision, state)
  else if durableRevision < state.acknowledgedRevision then (false, state)
  else
    (true, { state with
      currentRevision := durableRevision
      acknowledgedRevision := durableRevision
      componentRevisions := Vector.replicate 14 durableRevision
      sessionEnded := false })

/-- The entry `player_revision_hydrate` creates for a player it does not know. -/
def hydrated (durableRevision : Revision) : PlayerRevisionEntry :=
  { currentRevision := durableRevision
    acknowledgedRevision := durableRevision
    componentRevisions := Vector.replicate 14 durableRevision }

/-- `player_revision_mark`: the new revision when it answers true. -/
def mark (state : PlayerRevisionEntry) (components : ComponentMask) :
    Option Revision × PlayerRevisionEntry :=
  if !validComponents components || state.overflowed then (none, state)
  else if state.currentRevision = BitVec.allOnes 64 then
    (none, { state with overflowed := true })
  else
    let revision := state.currentRevision + 1
    (some revision, { state with
      currentRevision := revision
      dirtyComponents := state.dirtyComponents ||| components
      unacknowledgedComponents := state.unacknowledgedComponents ||| components
      componentRevisions := Vector.ofFn fun index : Fin 14 =>
        if components &&& componentBit index ≠ 0 then revision
        else state.componentRevisions[index] })

/-- `player_revision_queue`: the captured revision and components. -/
def queue (state : PlayerRevisionEntry) :
    Option (Revision × ComponentMask) × PlayerRevisionEntry :=
  if state.unacknowledgedComponents = 0 then (none, state)
  else
    (some (state.currentRevision, state.unacknowledgedComponents), { state with
      queuedRevision := state.currentRevision
      queuedComponents := state.unacknowledgedComponents
      dirtyComponents := 0 })

def beginInflight (state : PlayerRevisionEntry) (revision : Revision)
    (components : ComponentMask) : Bool × PlayerRevisionEntry :=
  if state.inflightComponents ≠ 0 ∨ revision ≠ state.queuedRevision ∨
      components ≠ state.queuedComponents ∨ validComponents components = false then
    (false, state)
  else
    (true, { state with
      inflightRevision := revision
      inflightComponents := components
      queuedRevision := 0
      queuedComponents := 0 })

def acknowledge (state : PlayerRevisionEntry) (revision : Revision)
    (components : ComponentMask) : Bool × PlayerRevisionEntry :=
  if revision ≠ state.inflightRevision ∨ components ≠ state.inflightComponents ∨
      validComponents components = false then (false, state)
  else
    let cleared := state.clearAcknowledgedComponents revision components
    (true, { cleared with
      acknowledgedRevision :=
        if cleared.acknowledgedRevision < revision then revision
        else cleared.acknowledgedRevision
      inflightRevision := 0
      inflightComponents := 0 })

def acknowledgeDurable (state : PlayerRevisionEntry) (revision : Revision)
    (components : ComponentMask) : Bool × PlayerRevisionEntry :=
  if validComponents components = false ∨ revision < state.acknowledgedRevision ∨
      state.currentRevision < revision then (false, state)
  else
    let after := state.clearAcknowledgedComponents revision components
    let cleared := state.unacknowledgedComponents &&& ~~~after.unacknowledgedComponents
    let inflight := after.inflightComponents &&& ~~~cleared
    (true, { after with
      inflightComponents := inflight
      queuedRevision := if after.queuedComponents = 0 then 0 else after.queuedRevision
      inflightRevision := if inflight = 0 then 0 else after.inflightRevision
      acknowledgedRevision :=
        if after.acknowledgedRevision < revision then revision
        else after.acknowledgedRevision })

def failInflight (state : PlayerRevisionEntry) (revision : Revision)
    (components : ComponentMask) : Bool × PlayerRevisionEntry :=
  if revision ≠ state.inflightRevision ∨ components ≠ state.inflightComponents ∨
      validComponents components = false then (false, state)
  else
    (true, { state with
      inflightRevision := 0
      inflightComponents := 0
      queuedRevision := state.currentRevision
      queuedComponents := state.unacknowledgedComponents })

def endSession (state : PlayerRevisionEntry) : PlayerRevisionEntry :=
  { state with sessionEnded := true }

end PlayerRevisionEntry

abbrev RevisionStates := AList (fun _ : Pid => PlayerRevisionEntry)

/-- Run an operation on the entry of `pid`; `missing` is the answer without one. -/
def onEntry {α : Type} (states : RevisionStates) (pid : Pid) (missing : α)
    (op : PlayerRevisionEntry → α × PlayerRevisionEntry) : α × RevisionStates :=
  match states.lookup pid with
  | none => (missing, states)
  | some state => ((op state).1, states.insert pid (op state).2)

def playerRevisionHydrate (states : RevisionStates) (pid : Pid) (durableRevision : Revision) :
    Bool × RevisionStates :=
  if !pid.valid then (false, states)
  else
    match states.lookup pid with
    | some _ => onEntry states pid false (·.hydrate durableRevision)
    | none =>
        if maxPlayerRevisionStates ≤ states.keys.length then (false, states)
        else (true, states.insert pid (.hydrated durableRevision))

def playerRevisionMark (states : RevisionStates) (pid : Pid) (components : ComponentMask) :
    Option Revision × RevisionStates :=
  onEntry states pid none (·.mark components)

def playerRevisionQueue (states : RevisionStates) (pid : Pid) :
    Option (Revision × ComponentMask) × RevisionStates :=
  onEntry states pid none (·.queue)

def playerRevisionBeginInflight (states : RevisionStates) (pid : Pid) (revision : Revision)
    (components : ComponentMask) : Bool × RevisionStates :=
  onEntry states pid false (·.beginInflight revision components)

def playerRevisionAcknowledge (states : RevisionStates) (pid : Pid) (revision : Revision)
    (components : ComponentMask) : Bool × RevisionStates :=
  onEntry states pid false (·.acknowledge revision components)

def playerRevisionAcknowledgeDurable (states : RevisionStates) (pid : Pid)
    (revision : Revision) (components : ComponentMask) : Bool × RevisionStates :=
  onEntry states pid false (·.acknowledgeDurable revision components)

def playerRevisionFailInflight (states : RevisionStates) (pid : Pid) (revision : Revision)
    (components : ComponentMask) : Bool × RevisionStates :=
  onEntry states pid false (·.failInflight revision components)

def playerRevisionEndSession (states : RevisionStates) (pid : Pid) : RevisionStates :=
  (onEntry states pid () (fun state => ((), state.endSession))).2

def playerRevisionForget (states : RevisionStates) (pid : Pid) : RevisionStates :=
  if pid.valid then states.erase pid else states

inductive RevisionOp where
  | hydrate (pid : Pid) (durableRevision : Revision)
  | mark (pid : Pid) (components : ComponentMask)
  | queue (pid : Pid)
  | beginInflight (pid : Pid) (revision : Revision) (components : ComponentMask)
  | acknowledge (pid : Pid) (revision : Revision) (components : ComponentMask)
  | acknowledgeDurable (pid : Pid) (revision : Revision) (components : ComponentMask)
  | failInflight (pid : Pid) (revision : Revision) (components : ComponentMask)
  | endSession (pid : Pid)
  deriving DecidableEq

def RevisionOp.apply (states : RevisionStates) : RevisionOp → RevisionStates
  | .hydrate pid revision => (playerRevisionHydrate states pid revision).2
  | .mark pid components => (playerRevisionMark states pid components).2
  | .queue pid => (playerRevisionQueue states pid).2
  | .beginInflight pid revision components =>
      (playerRevisionBeginInflight states pid revision components).2
  | .acknowledge pid revision components =>
      (playerRevisionAcknowledge states pid revision components).2
  | .acknowledgeDurable pid revision components =>
      (playerRevisionAcknowledgeDurable states pid revision components).2
  | .failInflight pid revision components =>
      (playerRevisionFailInflight states pid revision components).2
  | .endSession pid => playerRevisionEndSession states pid

end Duris.Player
