import Duris.Lib.FlaggedCount
import Duris.Lib.Run

/-!
# The shutdown of the telemetry transport

`src/telemetry/telemetry_transport.c`, `finalize_shutdown`, `producer_guard`,
`telemetry_transport_request_stop`, `telemetry_transport_shutdown` and the gate of
`telemetry_transport_init`.

Calls of `telemetry_transport_enqueue` run against the owner's shutdown, and every
atomic operation is one step. Between two of them a call is a local state that names
the next operation and what it compares with. What a call decides from a value it has
read, it decides in the step that reads it. A straight line of stores is the list of
those still to do.

The queue itself is only counted: `resets` says how often its records were discarded.
The health atoms are left out, since no operation here reads them; so are the operations
of an enqueue between the two ends of its guard.
-/

namespace Duris.Telemetry

inductive Lifecycle where
  | uninitialized
  | starting
  | active
  | stopping
  | disabled
  | stopped
  deriving DecidableEq

def admissionClosed : BitVec 64 := 1#64 <<< 63

def admissionFinalizing : BitVec 64 := 1#64 <<< 62

def admissionCountMask : BitVec 64 := ~~~(admissionClosed ||| admissionFinalizing)

structure Shared where
  lifecycle : Lifecycle := .uninitialized
  stopRequested : Bool := false
  quiesced : Bool := false
  restartAllowed : Bool := false
  shutdownRequested : Bool := false
  admissionState : BitVec 64 := 0
  repositoryReady : Bool := false
  resets : Nat := 0
  deriving DecidableEq

/-- An operation that writes whatever it finds. -/
inductive Store where
  | lifecycle (value : Lifecycle)
  | stopRequested (value : Bool)
  | quiesced (value : Bool)
  | restartAllowed (value : Bool)
  | shutdownRequested (value : Bool)
  | repositoryReady (value : Bool)
  | admissionState (value : BitVec 64)
  | admissionOr (mask : BitVec 64)
  | queueReset
  deriving DecidableEq

def Store.perform (s : Shared) : Store → Shared
  | .lifecycle value => { s with lifecycle := value }
  | .stopRequested value => { s with stopRequested := value }
  | .quiesced value => { s with quiesced := value }
  | .restartAllowed value => { s with restartAllowed := value }
  | .shutdownRequested value => { s with shutdownRequested := value }
  | .repositoryReady value => { s with repositoryReady := value }
  | .admissionState value => { s with admissionState := value }
  | .admissionOr mask => { s with admissionState := s.admissionState ||| mask }
  | .queueReset => { s with resets := s.resets + 1 }

/-- The end of `finalize_shutdown`, once the count was found to be zero. -/
def finalizeBody : List Store :=
  [.queueReset, .repositoryReady false, .quiesced true, .stopRequested false, .restartAllowed true,
    .shutdownRequested false, .lifecycle .stopped, .admissionState 0]

def requestStopBody : List Store :=
  [.admissionOr admissionClosed, .stopRequested true, .quiesced true, .lifecycle .stopping]

/-- `telemetry_transport_shutdown`, up to its call of `finalize_shutdown`. -/
def shutdownBody : List Store :=
  [.stopRequested true, .quiesced true, .lifecycle .stopping, .shutdownRequested true]

inductive Finalize where
  /-- Before the first load of `ADMISSION_STATE`. -/
  | load
  /-- Before the exchange that sets the closed flag. -/
  | close (admission : BitVec 64)
  /-- Before the exchange that sets the finalizing flag. -/
  | mark (admission : BitVec 64)
  /-- A producer was inside: before the operation that clears the finalizing flag. -/
  | release
  | body (rest : List Store)
  | done
  deriving DecidableEq

/-- The head of the loop, with what `ADMISSION_STATE` was read to be. -/
def Finalize.decide (admission : BitVec 64) : Finalize :=
  if admission &&& admissionFinalizing ≠ 0 then .done
  else if admission &&& admissionClosed = 0 then .close admission
  else .mark admission

/-- Behind the loop, with the value the finalizing flag was set on. -/
def Finalize.marked (admission : BitVec 64) : Finalize :=
  if admission &&& admissionCountMask ≠ 0 then .release else .body finalizeBody

def Finalize.step (s : Shared) : Finalize → Shared × Finalize
  | .load => (s, .decide s.admissionState)
  | .close admission =>
      if s.admissionState = admission then
        ({ s with admissionState := admission ||| admissionClosed },
          .mark (admission ||| admissionClosed))
      else (s, .decide s.admissionState)
  | .mark admission =>
      if s.admissionState = admission then
        ({ s with admissionState := admission ||| admissionFinalizing },
          .marked (admission ||| admissionFinalizing))
      else (s, .decide s.admissionState)
  | .release => ({ s with admissionState := s.admissionState &&& ~~~admissionFinalizing }, .done)
  | .body [] => (s, .done)
  | .body [store] => (store.perform s, .done)
  | .body (store :: rest) => (store.perform s, .body rest)
  | .done => (s, .done)

inductive Producer where
  /-- Before the constructor's load of `ADMISSION_STATE`. -/
  | load
  /-- Before the load of `LIFECYCLE` in the loop. -/
  | lifecycle (admission : BitVec 64)
  /-- Before the exchange that counts the producer. -/
  | enter (admission : BitVec 64)
  /-- Counted, before `LIFECYCLE` is read again. -/
  | recheckLifecycle
  /-- Counted, before `SHUTDOWN_REQUESTED` is read. -/
  | recheckShutdown
  /-- Counted, and about to leave without having entered. -/
  | backOut
  | entered
  /-- The last one out, before `SHUTDOWN_REQUESTED` is read. -/
  | last
  | finalizing (call : Finalize)
  | returned
  deriving DecidableEq

def Producer.decide (admission : BitVec 64) : Producer :=
  if admission &&& (admissionClosed ||| admissionFinalizing) ≠ 0 then .returned
  else .lifecycle admission

/-- The decrement of the constructor and of the destructor. -/
def Producer.leave (s : Shared) : Shared × Producer :=
  ({ s with admissionState := s.admissionState - 1 },
    if s.admissionState &&& admissionCountMask = 1 then .last else .returned)

def Producer.finalizeStep (s : Shared) (call : Finalize) : Shared × Producer :=
  ((call.step s).1, if (call.step s).2 = .done then .returned else .finalizing (call.step s).2)

def Producer.step (s : Shared) : Producer → Shared × Producer
  | .load => (s, .decide s.admissionState)
  | .lifecycle admission =>
      if s.lifecycle ≠ .active then (s, .returned)
      else if admission = admissionCountMask then (s, .returned)
      else (s, .enter admission)
  | .enter admission =>
      if s.admissionState = admission then
        ({ s with admissionState := admission + 1 }, .recheckLifecycle)
      else (s, .decide s.admissionState)
  | .recheckLifecycle => (s, if s.lifecycle ≠ .active then .backOut else .recheckShutdown)
  | .recheckShutdown => (s, if s.shutdownRequested then .backOut else .entered)
  | .backOut => Producer.leave s
  | .entered => Producer.leave s
  | .last => (s, if s.shutdownRequested then .finalizing .load else .returned)
  | .finalizing call => Producer.finalizeStep s call
  | .returned => (s, .returned)

inductive Owner where
  /-- The owner may call `telemetry_transport_request_stop` or, once, the shutdown. -/
  | idle
  | requesting (rest : List Store)
  /-- In the shutdown, before the load of `LIFECYCLE`. -/
  | lifecycle
  | stopping (rest : List Store)
  | finalizing (call : Finalize)
  | returned
  deriving DecidableEq

def Owner.step (s : Shared) : Owner → Shared × Owner
  | .idle => (s, .idle)
  | .requesting [] => (s, .idle)
  | .requesting [store] => (store.perform s, .idle)
  | .requesting (store :: rest) => (store.perform s, .requesting rest)
  | .lifecycle => (s, if s.lifecycle = .stopped then .returned else .stopping shutdownBody)
  | .stopping [] => (s, .finalizing .load)
  | .stopping [store] => (store.perform s, .finalizing .load)
  | .stopping (store :: rest) => (store.perform s, .stopping rest)
  | .finalizing call =>
      ((call.step s).1, if (call.step s).2 = .done then .returned else .finalizing (call.step s).2)
  | .returned => (s, .returned)

structure Handshake where
  shared : Shared := {}
  owner : Owner := .idle
  producers : List Producer := []

namespace Handshake

inductive Event where
  | enqueue
  | requestStop
  | shutdown
  /-- The next operation of the `i`-th enqueue call. -/
  | producer (i : Nat)
  | owner

def step (s : Handshake) : Event → Handshake
  | .enqueue => { s with producers := s.producers ++ [.load] }
  | .requestStop =>
      match s.owner with
      | .idle => { s with owner := .requesting requestStopBody }
      | _ => s
  | .shutdown =>
      match s.owner with
      | .idle => { s with owner := .lifecycle }
      | _ => s
  | .producer i =>
      match s.producers[i]? with
      | some producer =>
          { s with
            shared := (producer.step s.shared).1
            producers := s.producers.set i (producer.step s.shared).2 }
      | none => s
  | .owner =>
      { s with shared := (s.owner.step s.shared).1, owner := (s.owner.step s.shared).2 }

end Handshake

/-- `telemetry_transport_outcome`, as far as the gate answers it. -/
inductive TransportOutcome where
  | started
  | alreadyStarted
  | flatfileDisabled
  | invalidConfig
  | stopping
  | unavailable
  deriving DecidableEq

/-- What `telemetry_transport_init` answers when nothing else runs, given whether
`telemetry_transport_config_is_bounded` holds and whether the backend is
`flatfile_disabled`. -/
def telemetryTransportInit (bounded flatfile : Bool) (s : Shared) : TransportOutcome :=
  if s.stopRequested then .stopping
  else if !bounded then .invalidConfig
  else match s.lifecycle with
    | .active => .alreadyStarted
    | .starting => .alreadyStarted
    | .stopping => .stopping
    | .uninitialized => if flatfile then .flatfileDisabled else .started
    | .stopped =>
        if !s.restartAllowed then .stopping
        else if flatfile then .flatfileDisabled else .started
    | .disabled => .unavailable

end Duris.Telemetry
