import Duris.Telemetry.ShutdownHandshake

/-!
# Who finalizes the telemetry transport

The last of two parties is to reset the transport: the owner, when no producer is
inside, or else the producer that leaves last. `Party` puts both in one list, and
`Role` says what a party has to do with the handshake; the admission word is then the
census of the roles (`Inv.word`), and a step is one of the few moves of `Move`.

Two steps of the source break the handshake. The producer that leaves last returns at
once when it finds the finalizing flag set, although the party that set it may have
found a producer inside and be about to give up (`handoverLost`): then nobody resets.
And a call that decided to finalize before the reset goes through its loop after it
(`resetTwice`). `HandsOver` excludes these two steps and nothing else; in every run
without them a shutdown completes (`shutdown_completes`).
-/

namespace Duris.Telemetry

open Handshake (Event)

/-! ## Parties and roles -/

inductive Party where
  | owner (state : Owner)
  | producer (state : Producer)

inductive Role where
  | outside
  /-- Counted by the admission word. -/
  | inside
  /-- Left last, and about to read `SHUTDOWN_REQUESTED`. -/
  | last
  /-- In the loop of `finalize_shutdown`. -/
  | looping
  | releasing
  | resetting (rest : List Store)
  /-- The owner, before it calls `finalize_shutdown`. -/
  | before
  deriving DecidableEq

def Finalize.role : Finalize → Role
  | .load => .looping
  | .close _ => .looping
  | .mark _ => .looping
  | .release => .releasing
  | .body rest => .resetting rest
  | .done => .outside

def Owner.role : Owner → Role
  | .idle => .before
  | .requesting _ => .before
  | .lifecycle => .before
  | .stopping _ => .before
  | .finalizing call => call.role
  | .returned => .outside

def Producer.role : Producer → Role
  | .load => .outside
  | .lifecycle _ => .outside
  | .enter _ => .outside
  | .recheckLifecycle => .inside
  | .recheckShutdown => .inside
  | .backOut => .inside
  | .entered => .inside
  | .last => .last
  | .finalizing call => call.role
  | .returned => .outside

def Party.role : Party → Role
  | .owner state => state.role
  | .producer state => state.role

def Party.step (g : Shared) : Party → Shared × Party
  | .owner state => ((state.step g).1, .owner (state.step g).2)
  | .producer state => ((state.step g).1, .producer (state.step g).2)

def Handshake.parties (s : Handshake) : List Party := .owner s.owner :: s.producers.map .producer

/-! ## A shutdown that completes -/

/-- The shutdown has returned and no enqueue call is in progress. -/
def Handshake.Quiet (s : Handshake) : Prop :=
  s.owner = .returned ∧ ∀ producer ∈ s.producers, producer = .returned

/-- The queue is reset at most once, never with a producer inside, and once all calls
have returned the transport can be started again. -/
structure Handshake.Completes (s : Handshake) : Prop where
  once : s.shared.resets ≤ 1
  alone : ∀ party ∈ s.parties, ∀ rest, party.role = .resetting rest →
    ∀ other ∈ s.parties, other.role ≠ .inside
  stopped : s.Quiet → s.shared.lifecycle = .stopped ∧ s.shared.admissionState = 0 ∧
    s.shared.restartAllowed = true ∧ telemetryTransportInit true false s.shared = .started

def startOf (lifecycle : Lifecycle) : Handshake := { shared := { lifecycle := lifecycle } }

/-- What a call in the loop of `finalize_shutdown` must not meet: the reset done, or the
last producer gone while the finalizing flag is about to be given back. -/
def Handshake.Meets (s : Handshake) : Prop :=
  (s.shared.lifecycle = .stopped ∧ s.shared.admissionState &&& admissionFinalizing = 0) ∨
    (s.shared.admissionState &&& admissionCountMask = 0 ∧
      ∃ party ∈ s.parties, party.role = .releasing)

def Handshake.Event.party : Event → Option Nat
  | .producer i => some (i + 1)
  | .owner => some 0
  | _ => none

/-- No call takes a step of the loop where it meets either. -/
def HandsOver (s : Handshake) (e : Event) : Prop :=
  ∀ party ∈ e.party.bind (s.parties[·]?), party.role = .looping → ¬ s.Meets

instance (s : Handshake) : Decidable s.Quiet :=
  inferInstanceAs (Decidable (s.owner = .returned ∧ ∀ producer ∈ s.producers, producer = .returned))

instance (s : Handshake) : Decidable s.Meets :=
  inferInstanceAs (Decidable
    ((s.shared.lifecycle = .stopped ∧ s.shared.admissionState &&& admissionFinalizing = 0) ∨
      (s.shared.admissionState &&& admissionCountMask = 0 ∧
        ∃ party ∈ s.parties, party.role = .releasing)))

instance (s : Handshake) (e : Event) : Decidable (HandsOver s e) :=
  inferInstanceAs (Decidable
    (∀ party ∈ e.party.bind (s.parties[·]?), party.role = .looping → ¬ s.Meets))

/-! ## The admission word -/

/-- The word with its flags and the number of producers inside. -/
def admission (closed finalizing : Bool) (count : Nat) : BitVec 64 :=
  flagged (w := 62) closed finalizing count

def countLimit : Nat := 2 ^ 62

variable {closed finalizing : Bool} {n m : Nat}

section

variable (hn : n < countLimit)

include hn

theorem admission_closed :
    admission closed finalizing n &&& admissionClosed = 0 ↔ closed = false := by
  have h : admission closed finalizing n &&& admissionClosed ≠ 0 ↔ closed = true :=
    flagged_high (w := 62) hn
  rw [← Bool.not_eq_true, ← h, not_not]

theorem admission_finalizing :
    admission closed finalizing n &&& admissionFinalizing = 0 ↔ finalizing = false := by
  have h : admission closed finalizing n &&& admissionFinalizing ≠ 0 ↔ finalizing = true :=
    flagged_low (w := 62) hn
  rw [← Bool.not_eq_true, ← h, not_not]

theorem admission_flags :
    admission closed finalizing n &&& (admissionClosed ||| admissionFinalizing) = 0 ↔
      closed = false ∧ finalizing = false := by
  rw [BitVec.and_or_distrib_left]
  exact BitVec.or_eq_zero_iff.trans (and_congr (admission_closed hn) (admission_finalizing hn))

theorem admission_count (hm : m < countLimit) :
    admission closed finalizing n &&& admissionCountMask = BitVec.ofNat 64 m ↔ n = m :=
  flagged_count_eq (w := 62) hn hm

theorem admission_inj {closed' finalizing' : Bool} (hm : m < countLimit)
    (h : admission closed finalizing n = admission closed' finalizing' m) :
    closed = closed' ∧ finalizing = finalizing' ∧ n = m :=
  flagged_inj (w := 62) hn hm h

theorem admission_close :
    admission closed finalizing n ||| admissionClosed = admission true finalizing n :=
  flagged_or_high (w := 62) hn

theorem admission_mark :
    admission closed finalizing n ||| admissionFinalizing = admission closed true n :=
  flagged_or_low (w := 62) hn

theorem admission_release :
    admission closed finalizing n &&& ~~~admissionFinalizing = admission closed false n :=
  flagged_and_not_low (w := 62) hn

end

theorem admission_enter : admission closed finalizing n + 1 = admission closed finalizing (n + 1) :=
  flagged_add_one (w := 62) _ _ _

theorem admission_leave : admission closed finalizing (n + 1) - 1 = admission closed finalizing n :=
  flagged_sub_one (w := 62) _ _ _

theorem admission_mask : admissionCountMask = admission false false (countLimit - 1) := by
  decide

/-! ## What a step can do -/

/-- The steps of a party with a given role, when the admission word has these flags and
this count. -/
inductive Move (g : Shared) (closed finalizing : Bool) (n : Nat) : Role → Shared → Role → Prop
  | look (role : Role) : Move g closed finalizing n role g role
  | found : finalizing = true → Move g closed finalizing n .looping g .outside
  | asks : g.shutdownRequested = true → Move g closed finalizing n .last g .looping
  | passes : g.shutdownRequested = false → Move g closed finalizing n .last g .outside
  | stays : g.lifecycle = .stopped → Move g closed finalizing n .before g .outside
  | enters : closed = false → finalizing = false → n + 1 < countLimit →
      Move g closed finalizing n .outside { g with admissionState := admission false false (n + 1) }
        .inside
  | leaves (m : Nat) : n = m + 1 → m ≠ 0 → Move g closed finalizing n .inside
      { g with admissionState := admission closed finalizing m } .outside
  | leavesLast : n = 1 → Move g closed finalizing n .inside
      { g with admissionState := admission closed finalizing 0 } .last
  | closes : finalizing = false → Move g closed finalizing n .looping
      { g with admissionState := admission true false n } .looping
  | gives : closed = true → finalizing = false → n ≠ 0 → Move g closed finalizing n .looping
      { g with admissionState := admission true true n } .releasing
  | takes : closed = true → finalizing = false → n = 0 → Move g closed finalizing n .looping
      { g with admissionState := admission true true 0 } (.resetting finalizeBody)
  | releases : Move g closed finalizing n .releasing
      { g with admissionState := admission closed false n } .outside
  | resets (store : Store) (rest : List Store) : rest ≠ [] → store :: rest <:+ finalizeBody →
      Move g closed finalizing n (.resetting (store :: rest)) (store.perform g) (.resetting rest)
  | finishes : Move g closed finalizing n (.resetting [.admissionState 0])
      { g with admissionState := 0 } .outside
  | prepares (store : Store) :
      store ∈ requestStopBody ++ shutdownBody → store ≠ .shutdownRequested true →
      Move g closed finalizing n .before (store.perform g) .before
  | requests : Move g closed finalizing n .before { g with shutdownRequested := true } .looping

/-- What the local state of a call remembers is a word without the finalizing flag. -/
def Finalize.Sound : Finalize → Prop
  | .close word => ∃ n < countLimit, word = admission false false n
  | .mark word => ∃ n < countLimit, word = admission true false n
  | .body rest => rest ≠ [] ∧ rest <:+ finalizeBody
  | _ => True

def Party.Sound : Party → Prop
  | .owner (.requesting rest) => rest ≠ [] ∧ rest <:+ requestStopBody
  | .owner (.stopping rest) => rest ≠ [] ∧ rest <:+ shutdownBody
  | .owner (.finalizing call) => call.Sound
  | .producer (.lifecycle word) => ∃ n < countLimit, word = admission false false n
  | .producer (.enter word) => ∃ n, n + 1 < countLimit ∧ word = admission false false n
  | .producer (.finalizing call) => call.Sound
  | _ => True

variable {g : Shared}

theorem Finalize.decide_sound (hn : n < countLimit) :
    (Finalize.decide (admission closed finalizing n)).Sound := by
  unfold Finalize.decide
  split
  · trivial
  · next hf =>
    have hfin := (admission_finalizing hn).mp (not_not.mp hf)
    subst hfin
    split
    · next hc =>
      have hclosed := (admission_closed hn).mp hc
      subst hclosed
      exact ⟨n, hn, rfl⟩
    · next hc =>
      have hclosed : closed = true := by
        cases closed with
        | true => rfl
        | false => exact absurd ((admission_closed hn).mpr rfl) hc
      subst hclosed
      exact ⟨n, hn, rfl⟩

theorem Finalize.decide_move (hn : n < countLimit) :
    Move g closed finalizing n .looping g
      (Finalize.decide (admission closed finalizing n)).role := by
  unfold Finalize.decide
  split
  · next hf =>
    refine .found ?_
    cases finalizing with
    | true => rfl
    | false => exact absurd ((admission_finalizing hn).mpr rfl) hf
  · split
    · exact .look _
    · exact .look _

theorem Finalize.step_sound {call : Finalize} (hcall : call.Sound)
    (hword : g.admissionState = admission closed finalizing n) (hn : n < countLimit) :
    (call.step g).2.Sound := by
  cases call with
  | load =>
      rw [Finalize.step, hword]
      exact decide_sound hn
  | close word =>
      obtain ⟨m, hm, rfl⟩ := hcall
      rw [Finalize.step, hword]
      split
      · exact ⟨m, hm, admission_close hm⟩
      · exact decide_sound hn
  | mark word =>
      rw [Finalize.step, hword]
      split
      · rw [Finalize.marked]
        split
        · trivial
        · exact ⟨by decide, List.suffix_rfl⟩
      · exact decide_sound hn
  | release => trivial
  | body rest =>
      obtain ⟨hne, hsuffix⟩ := hcall
      match rest, hne with
      | [store], _ => trivial
      | store :: next :: rest, _ =>
          exact ⟨by simp, (List.suffix_cons _ _).trans hsuffix⟩
  | done => trivial

theorem Finalize.step_move {call : Finalize} (hcall : call.Sound)
    (hword : g.admissionState = admission closed finalizing n) (hn : n < countLimit) :
    Move g closed finalizing n call.role (call.step g).1 (call.step g).2.role := by
  cases call with
  | load =>
      rw [Finalize.step, hword]
      exact decide_move hn
  | close word =>
      obtain ⟨m, hm, rfl⟩ := hcall
      rw [Finalize.step, hword]
      split
      · next heq =>
        obtain ⟨rfl, rfl, rfl⟩ := admission_inj hn hm heq
        rw [admission_close hn]
        exact .closes rfl
      · exact decide_move hn
  | mark word =>
      obtain ⟨m, hm, rfl⟩ := hcall
      rw [Finalize.step, hword]
      split
      · next heq =>
        obtain ⟨rfl, rfl, rfl⟩ := admission_inj hn hm heq
        rw [admission_mark hn, Finalize.marked]
        split
        · next hcount =>
          refine .gives rfl rfl ?_
          intro hzero
          exact hcount ((admission_count hn (by decide : 0 < countLimit)).mpr hzero)
        · next hcount =>
          have hzero := (admission_count hn (by decide : 0 < countLimit)).mp (not_not.mp hcount)
          subst hzero
          exact .takes rfl rfl rfl
      · exact decide_move hn
  | release =>
      rw [Finalize.step, hword, admission_release hn]
      exact .releases
  | body rest =>
      obtain ⟨hne, hsuffix⟩ := hcall
      match rest, hne with
      | [store], _ =>
          obtain ⟨front, hfront⟩ := hsuffix
          have hlast := congrArg List.getLast? hfront
          rw [List.getLast?_concat] at hlast
          obtain rfl : store = .admissionState 0 := Option.some.inj hlast
          exact .finishes
      | store :: next :: rest, _ => exact .resets _ _ (by simp) hsuffix
  | done => exact .look _

theorem Producer.leave_move (hword : g.admissionState = admission closed finalizing n)
    (hn : n < countLimit) (hpos : n ≠ 0) :
    Move g closed finalizing n .inside (Producer.leave g).1 (Producer.leave g).2.role := by
  obtain ⟨m, rfl⟩ := Nat.exists_eq_succ_of_ne_zero hpos
  have hone : admission closed finalizing (m + 1) &&& admissionCountMask = 1 ↔ m + 1 = 1 :=
    admission_count hn (by decide : 1 < countLimit)
  rw [Producer.leave, hword, admission_leave]
  split
  · next h =>
    obtain rfl : m = 0 := Nat.succ.inj (hone.mp h)
    exact .leavesLast rfl
  · next h =>
    exact .leaves m rfl fun hm => h (hone.mpr (congrArg Nat.succ hm))

theorem Producer.decide_role (word : BitVec 64) : (Producer.decide word).role = .outside := by
  unfold Producer.decide
  split <;> rfl

theorem Producer.finalizeStep_role (g : Shared) (call : Finalize) :
    (Producer.finalizeStep g call).2.role = (call.step g).2.role := by
  unfold Producer.finalizeStep
  split
  · next h => rw [h]; rfl
  · rfl

theorem Producer.step_move {producer : Producer} (hsound : (Party.producer producer).Sound)
    (hword : g.admissionState = admission closed finalizing n) (hn : n < countLimit)
    (hpos : producer.role = .inside → n ≠ 0) :
    Move g closed finalizing n producer.role (producer.step g).1 (producer.step g).2.role := by
  cases producer with
  | load =>
      rw [Producer.step, Producer.decide_role]
      exact .look _
  | lifecycle word =>
      rw [Producer.step]
      split
      · exact .look _
      · split
        · exact .look _
        · exact .look _
  | enter word =>
      obtain ⟨m, hm, rfl⟩ := hsound
      rw [Producer.step, hword]
      split
      · next heq =>
        obtain ⟨rfl, rfl, rfl⟩ := admission_inj hn (Nat.lt_of_succ_lt hm) heq
        rw [admission_enter]
        exact .enters rfl rfl hm
      · rw [Producer.decide_role]
        exact .look _
  | recheckLifecycle =>
      rw [Producer.step]
      split <;> exact .look _
  | recheckShutdown =>
      rw [Producer.step]
      split <;> exact .look _
  | backOut => exact leave_move hword hn (hpos rfl)
  | entered => exact leave_move hword hn (hpos rfl)
  | last =>
      rw [Producer.step]
      split
      · next h => exact .asks h
      · next h => exact .passes (Bool.eq_false_iff.mpr h)
  | finalizing call =>
      rw [Producer.step, Producer.finalizeStep_role]
      exact call.step_move hsound hword hn
  | returned => exact .look _

theorem Owner.step_move {owner : Owner} (hsound : (Party.owner owner).Sound)
    (hword : g.admissionState = admission closed finalizing n) (hn : n < countLimit) :
    Move g closed finalizing n owner.role (owner.step g).1 (owner.step g).2.role := by
  cases owner with
  | idle => exact .look _
  | requesting rest =>
      obtain ⟨hne, hsuffix⟩ := hsound
      have hmem : ∀ store ∈ rest, store ∈ requestStopBody ++ shutdownBody ∧
          store ≠ .shutdownRequested true := by
        intro store hstore
        have hbody := hsuffix.subset hstore
        exact ⟨List.mem_append_left _ hbody, fun h => by subst h; revert hbody; decide⟩
      match rest, hne with
      | [store], _ => exact .prepares _ (hmem _ (by simp)).1 (hmem _ (by simp)).2
      | store :: next :: rest, _ => exact .prepares _ (hmem _ (by simp)).1 (hmem _ (by simp)).2
  | lifecycle =>
      rw [Owner.step]
      split
      · next h => exact .stays h
      · exact .look _
  | stopping rest =>
      obtain ⟨hne, hsuffix⟩ := hsound
      match rest, hne with
      | [store], _ =>
          obtain ⟨front, hfront⟩ := hsuffix
          have hlast := congrArg List.getLast? hfront
          rw [List.getLast?_concat] at hlast
          obtain rfl : store = .shutdownRequested true := Option.some.inj hlast
          exact .requests
      | store :: next :: rest, _ =>
          refine .prepares _ (List.mem_append_right _ (hsuffix.subset (by simp))) ?_
          intro hstore
          subst hstore
          simp [shutdownBody, List.suffix_cons_iff] at hsuffix
  | finalizing call =>
      have hrole : (Owner.step g (.finalizing call)).2.role = (call.step g).2.role := by
        rw [Owner.step]
        split
        · next h => rw [h]; rfl
        · rfl
      rw [hrole]
      exact call.step_move hsound hword hn
  | returned => exact .look _

theorem Producer.decide_sound (hn : n < countLimit) :
    (Party.producer (Producer.decide (admission closed finalizing n))).Sound := by
  unfold Producer.decide
  split
  · trivial
  · next h =>
    obtain ⟨rfl, rfl⟩ := (admission_flags hn).mp (not_not.mp h)
    exact ⟨n, hn, rfl⟩

theorem Producer.step_sound {producer : Producer} (hsound : (Party.producer producer).Sound)
    (hword : g.admissionState = admission closed finalizing n) (hn : n < countLimit) :
    (Party.producer (producer.step g).2).Sound := by
  cases producer with
  | load =>
      rw [Producer.step, hword]
      exact decide_sound hn
  | lifecycle word =>
      obtain ⟨m, hm, rfl⟩ := hsound
      rw [Producer.step]
      split
      · trivial
      · split
        · trivial
        · next hmask =>
          refine ⟨m, Nat.lt_of_le_of_ne hm ?_, rfl⟩
          intro hfull
          apply hmask
          rw [admission_mask, ← hfull]
          rfl
  | enter word =>
      rw [Producer.step, hword]
      split
      · trivial
      · exact decide_sound hn
  | recheckLifecycle =>
      rw [Producer.step]
      split <;> trivial
  | recheckShutdown =>
      rw [Producer.step]
      split <;> trivial
  | backOut =>
      rw [Producer.step, Producer.leave]
      split <;> trivial
  | entered =>
      rw [Producer.step, Producer.leave]
      split <;> trivial
  | last =>
      rw [Producer.step]
      split <;> trivial
  | finalizing call =>
      rw [Producer.step, Producer.finalizeStep]
      split
      · trivial
      · exact Finalize.step_sound hsound hword hn
  | returned => trivial

theorem Owner.step_sound {owner : Owner} (hsound : (Party.owner owner).Sound)
    (hword : g.admissionState = admission closed finalizing n) (hn : n < countLimit) :
    (Party.owner (owner.step g).2).Sound := by
  cases owner with
  | idle => trivial
  | requesting rest =>
      obtain ⟨hne, hsuffix⟩ := hsound
      match rest, hne with
      | [store], _ => trivial
      | store :: next :: rest, _ => exact ⟨by simp, (List.suffix_cons _ _).trans hsuffix⟩
  | lifecycle =>
      rw [Owner.step]
      split
      · trivial
      · exact ⟨by decide, List.suffix_rfl⟩
  | stopping rest =>
      obtain ⟨hne, hsuffix⟩ := hsound
      match rest, hne with
      | [store], _ => trivial
      | store :: next :: rest, _ => exact ⟨by simp, (List.suffix_cons _ _).trans hsuffix⟩
  | finalizing call =>
      rw [Owner.step]
      split
      · trivial
      · exact Finalize.step_sound hsound hword hn
  | returned => trivial

/-! ## The invariant -/

def Role.isInside (role : Role) : Bool := role = .inside

def Role.isBefore (role : Role) : Bool := role = .before

def Role.isResetting : Role → Bool
  | .resetting _ => true
  | _ => false

def Role.isHolding : Role → Bool
  | .releasing => true
  | .resetting _ => true
  | _ => false

/-- The parties that will still look whether they are to finalize. -/
def Role.isPending : Role → Bool
  | .inside => true
  | .last => true
  | .looping => true
  | _ => false

/-- The parties in `finalize_shutdown`. -/
def Role.isCall : Role → Bool
  | .looping => true
  | .releasing => true
  | .resetting _ => true
  | _ => false

structure Reset (g : Shared) : Prop where
  lifecycle : g.lifecycle = .stopped
  restart : g.restartAllowed = true
  shutdown : g.shutdownRequested = false
  stop : g.stopRequested = false
  once : g.resets = 1

theorem Reset.word {g : Shared} (h : Reset g) (word : BitVec 64) :
    Reset { g with admissionState := word } :=
  ⟨h.lifecycle, h.restart, h.shutdown, h.stop, h.once⟩

inductive Phase (g : Shared) (roles : List Role) : Prop where
  | before : roles.countP Role.isBefore = 1 → roles.countP Role.isCall = 0 →
      g.shutdownRequested = false → g.lifecycle ≠ .stopped → g.resets = 0 → Phase g roles
  | asked : roles.countP Role.isBefore = 0 → roles.countP Role.isResetting = 0 →
      g.shutdownRequested = true → g.lifecycle ≠ .stopped → g.resets = 0 →
      0 < roles.countP Role.isPending → Phase g roles
  | resetting : roles.countP Role.isBefore = 0 → roles.countP Role.isResetting = 1 →
      roles.countP Role.isInside = 0 →
      (∀ rest, .resetting rest ∈ roles → Reset (rest.foldl Store.perform g)) → Phase g roles
  | settled : roles.countP Role.isBefore = 0 → roles.countP Role.isHolding = 0 → Reset g →
      g.admissionState = admission false false (roles.countP Role.isInside) → Phase g roles

/-- The admission word, with `n` parties inside and `m` that hold the finalizing flag. -/
structure Word (g : Shared) (n m : Nat) (closed : Bool) : Prop where
  counted : n < countLimit
  single : m ≤ 1
  word : g.admissionState = admission closed (decide (0 < m)) n
  closed : 0 < m → closed = true

structure Inv (g : Shared) (roles : List Role) : Prop where
  word : ∃ closed, Word g (roles.countP Role.isInside) (roles.countP Role.isHolding) closed
  phase : Phase g roles

theorem not_mem_of_countP_zero {f : Role → Bool} {roles : List Role} {role : Role}
    (h : roles.countP f = 0) (hrole : f role = true) : role ∉ roles := by
  intro hmem
  exact List.countP_eq_zero.mp h role hmem hrole

section Moves

variable {roles : List Role} {i : Nat} {role role' : Role} {g' : Shared}

theorem Phase.inside_zero (h : Phase g roles) {rest : List Store}
    (hmem : Role.resetting rest ∈ roles) : roles.countP Role.isInside = 0 := by
  cases h with
  | before _ hcall => exact absurd hmem (not_mem_of_countP_zero hcall rfl)
  | asked _ hreset => exact absurd hmem (not_mem_of_countP_zero hreset rfl)
  | resetting _ _ hinside => exact hinside
  | settled _ hholding => exact absurd hmem (not_mem_of_countP_zero hholding rfl)

variable {store : Store}

theorem body_admission {rest : List Store} (hne : rest ≠ []) (h : store :: rest <:+ finalizeBody) :
    (store.perform g).admissionState = g.admissionState := by
  simp only [finalizeBody, List.suffix_cons_iff, List.cons.injEq, List.suffix_nil,
    List.cons_ne_nil, or_false] at h
  rcases h with ⟨rfl, -⟩ | ⟨rfl, -⟩ | ⟨rfl, -⟩ | ⟨rfl, -⟩ | ⟨rfl, -⟩ | ⟨rfl, -⟩ | ⟨rfl, -⟩ | ⟨-, h⟩
  all_goals first | rfl | exact absurd h hne

/-- What the owner stores before it calls `finalize_shutdown`, up to the request. -/
theorem prepare_store (h : store ∈ requestStopBody ++ shutdownBody)
    (hrequest : store ≠ .shutdownRequested true) :
    (store.perform g).shutdownRequested = g.shutdownRequested ∧
    (g.lifecycle ≠ .stopped → (store.perform g).lifecycle ≠ .stopped) ∧
    (store.perform g).resets = g.resets := by
  simp only [requestStopBody, shutdownBody, List.cons_append, List.nil_append, List.mem_cons,
    List.not_mem_nil, or_false] at h
  rcases h with rfl | rfl | rfl | rfl | rfl | rfl | rfl | rfl
  · exact ⟨rfl, id, rfl⟩
  · exact ⟨rfl, id, rfl⟩
  · exact ⟨rfl, id, rfl⟩
  · exact ⟨rfl, fun _ => Lifecycle.noConfusion, rfl⟩
  · exact ⟨rfl, id, rfl⟩
  · exact ⟨rfl, id, rfl⟩
  · exact ⟨rfl, fun _ => Lifecycle.noConfusion, rfl⟩
  · exact absurd rfl hrequest

theorem prepare_admission (h : store ∈ requestStopBody ++ shutdownBody) :
    (store.perform g).admissionState = g.admissionState ∨
      (store.perform g).admissionState = g.admissionState ||| admissionClosed := by
  simp only [requestStopBody, shutdownBody, List.cons_append, List.nil_append, List.mem_cons,
    List.not_mem_nil, or_false] at h
  rcases h with rfl | rfl | rfl | rfl | rfl | rfl | rfl | rfl
  · exact .inr rfl
  all_goals exact .inl rfl

theorem Word.move {n m n' m' : Nat} (h : Word g n m closed)
    (hinside : n' + role.isInside.toNat = n + role'.isInside.toNat)
    (hholding : m' + role.isHolding.toNat = m + role'.isHolding.toNat)
    (hreset : ∀ rest, role = .resetting rest → n = 0)
    (hmove : Move g closed (decide (0 < m)) n role g' role') :
    ∃ closed', Word g' n' m' closed' := by
  obtain ⟨hcounted, hsingle, hword, hclosed⟩ := h
  cases hmove with
  | look =>
      obtain rfl : n' = n := by omega
      obtain rfl : m' = m := by omega
      exact ⟨closed, hcounted, hsingle, hword, hclosed⟩
  | found =>
      obtain rfl : n' = n := hinside
      obtain rfl : m' = m := hholding
      exact ⟨closed, hcounted, hsingle, hword, hclosed⟩
  | asks =>
      obtain rfl : n' = n := hinside
      obtain rfl : m' = m := hholding
      exact ⟨closed, hcounted, hsingle, hword, hclosed⟩
  | passes =>
      obtain rfl : n' = n := hinside
      obtain rfl : m' = m := hholding
      exact ⟨closed, hcounted, hsingle, hword, hclosed⟩
  | stays =>
      obtain rfl : n' = n := hinside
      obtain rfl : m' = m := hholding
      exact ⟨closed, hcounted, hsingle, hword, hclosed⟩
  | enters hopen hfree hlimit =>
      obtain rfl : n' = n + 1 := hinside
      obtain rfl : m' = m := hholding
      have hm : ¬ 0 < m' := of_decide_eq_false hfree
      exact ⟨false, hlimit, hsingle, by rw [hfree], fun hpos => absurd hpos hm⟩
  | leaves k hk =>
      obtain rfl : m' = m := hholding
      obtain rfl : n' = k := Nat.succ.inj (hinside.trans hk)
      exact ⟨closed, by omega, hsingle, rfl, hclosed⟩
  | leavesLast hn =>
      obtain rfl : m' = m := hholding
      obtain rfl : n' = 0 := Nat.succ.inj (hinside.trans hn)
      exact ⟨closed, by decide, hsingle, rfl, hclosed⟩
  | closes hfree =>
      obtain rfl : n' = n := hinside
      obtain rfl : m' = m := hholding
      exact ⟨true, hcounted, hsingle, by rw [hfree], fun _ => rfl⟩
  | gives hclose hfree hn =>
      obtain rfl : n' = n := hinside
      obtain rfl : m' = m + 1 := hholding
      have hm : ¬ 0 < m := of_decide_eq_false hfree
      exact ⟨true, hcounted, by omega, by rw [decide_eq_true (Nat.succ_pos m)], fun _ => rfl⟩
  | takes hclose hfree hn =>
      obtain rfl : n' = n := hinside
      obtain rfl : m' = m + 1 := hholding
      have hm : ¬ 0 < m := of_decide_eq_false hfree
      subst hn
      exact ⟨true, hcounted, by omega, by rw [decide_eq_true (Nat.succ_pos m)], fun _ => rfl⟩
  | releases =>
      obtain rfl : n' = n := hinside
      obtain rfl : m' + 1 = m := hholding
      obtain rfl : m' = 0 := by omega
      exact ⟨closed, hcounted, by omega, rfl, fun hpos => absurd hpos (Nat.lt_irrefl 0)⟩
  | resets store rest hne hsuffix =>
      obtain rfl : n' = n := hinside
      obtain rfl : m' = m := Nat.succ.inj hholding
      exact ⟨closed, hcounted, hsingle, (body_admission hne hsuffix).trans hword, hclosed⟩
  | finishes =>
      obtain rfl : n = 0 := hreset _ rfl
      obtain rfl : n' = 0 := hinside
      obtain rfl : m' + 1 = m := hholding
      obtain rfl : m' = 0 := by omega
      exact ⟨false, hcounted, by omega, flagged_zero.symm,
        fun hpos => absurd hpos (Nat.lt_irrefl 0)⟩
  | prepares store hstore hrequest =>
      obtain rfl : n' = n := hinside
      obtain rfl : m' = m := hholding
      cases prepare_admission hstore with
      | inl hsame => exact ⟨closed, hcounted, hsingle, hsame.trans hword, hclosed⟩
      | inr hclose =>
          refine ⟨true, hcounted, hsingle, ?_, fun _ => rfl⟩
          rw [hclose, hword, admission_close hcounted]
  | requests =>
      obtain rfl : n' = n := hinside
      obtain rfl : m' = m := hholding
      exact ⟨closed, hcounted, hsingle, hword, hclosed⟩

/-! ## The phases -/

/-- The move of a party, and the condition on it: what a call in the loop may not meet. -/
structure Moved (g : Shared) (roles : List Role) (closed : Bool) (i : Nat) (role : Role)
    (g' : Shared) (role' : Role) : Prop where
  here : roles[i]? = some role
  word : Word g (roles.countP Role.isInside) (roles.countP Role.isHolding) closed
  move : Move g closed (decide (0 < roles.countP Role.isHolding)) (roles.countP Role.isInside)
    role g' role'
  handsOver : role = .looping →
    ¬ ((g.lifecycle = .stopped ∧ roles.countP Role.isHolding = 0) ∨
      (roles.countP Role.isInside = 0 ∧ .releasing ∈ roles))

theorem Moved.count (h : Moved g roles closed i role g' role') (f : Role → Bool) :
    (roles.set i role').countP f + (f role).toNat = roles.countP f + (f role').toNat :=
  countP_move h.here role'

theorem Moved.mem (h : Moved g roles closed i role g' role') : role ∈ roles :=
  List.mem_of_getElem? h.here

theorem isInside_le_isPending (roles : List Role) :
    roles.countP Role.isInside ≤ roles.countP Role.isPending :=
  List.countP_mono_left fun role _ h => by
    rw [Role.isInside, decide_eq_true_iff] at h
    rw [h]
    rfl

theorem isResetting_le_isHolding (roles : List Role) :
    roles.countP Role.isResetting ≤ roles.countP Role.isHolding :=
  List.countP_mono_left fun role _ h => by
    cases role <;> first | rfl | exact h

section

variable (h : Moved g roles closed i role g' role')

include h

theorem Moved.before
    (hbefore : roles.countP Role.isBefore = 1) (hcall : roles.countP Role.isCall = 0)
    (hshutdown : g.shutdownRequested = false) (hlife : g.lifecycle ≠ .stopped)
    (honce : g.resets = 0) : Phase g' (roles.set i role') := by
  have hbefore' := h.count Role.isBefore
  have hcall' := h.count Role.isCall
  have hpending' := h.count Role.isPending
  have hreset' := h.count Role.isResetting
  have hnocall : ∀ r, r.isCall = true → r ∈ roles → False := fun r hr hmem =>
    not_mem_of_countP_zero hcall hr hmem
  cases h.move with
  | look => exact .before (by omega) (by omega) hshutdown hlife honce
  | found => exact absurd h.mem (hnocall _ rfl)
  | asks hasked => exact absurd hasked (by rw [hshutdown]; exact Bool.false_ne_true)
  | passes => exact .before (hbefore'.trans hbefore) (hcall'.trans hcall) hshutdown hlife honce
  | stays hstopped => exact absurd hstopped hlife
  | enters => exact .before (hbefore'.trans hbefore) (hcall'.trans hcall) hshutdown hlife honce
  | leaves => exact .before (hbefore'.trans hbefore) (hcall'.trans hcall) hshutdown hlife honce
  | leavesLast => exact .before (hbefore'.trans hbefore) (hcall'.trans hcall) hshutdown hlife honce
  | closes => exact absurd h.mem (hnocall _ rfl)
  | gives => exact absurd h.mem (hnocall _ rfl)
  | takes => exact absurd h.mem (hnocall _ rfl)
  | releases => exact absurd h.mem (hnocall _ rfl)
  | resets => exact absurd h.mem (hnocall _ rfl)
  | finishes => exact absurd h.mem (hnocall _ rfl)
  | prepares store hstore hrequest =>
      obtain ⟨hsame, hlives, hresets⟩ := prepare_store (g := g) hstore hrequest
      exact .before (Nat.succ.inj (hbefore'.trans (congrArg (· + 1) hbefore)))
        (hcall'.trans hcall) (hsame.trans hshutdown) (hlives hlife) (hresets.trans honce)
  | requests =>
      have hnone : roles.countP Role.isResetting = 0 := by
        rw [List.countP_eq_zero]
        intro r hr hreset
        refine hnocall r ?_ hr
        cases r <;> first | rfl | exact absurd hreset Bool.false_ne_true
      refine .asked ?_ (hreset'.trans hnone) rfl hlife honce ?_
      · have hone : (roles.set i .looping).countP Role.isBefore + 1 = 1 := hbefore'.trans hbefore
        omega
      · have hmore : (roles.set i .looping).countP Role.isPending =
            roles.countP Role.isPending + 1 := hpending'
        omega

theorem Moved.asked
    (hbefore : roles.countP Role.isBefore = 0) (hreset : roles.countP Role.isResetting = 0)
    (hshutdown : g.shutdownRequested = true) (hlife : g.lifecycle ≠ .stopped)
    (honce : g.resets = 0) (hpending : 0 < roles.countP Role.isPending) :
    Phase g' (roles.set i role') := by
  have hbefore' := h.count Role.isBefore
  have hreset' := h.count Role.isResetting
  have hpending' := h.count Role.isPending
  have hinside' := h.count Role.isInside
  have hle := isInside_le_isPending (roles.set i role')
  have hnobefore : Role.before ∉ roles := not_mem_of_countP_zero hbefore rfl
  have hnoreset : ∀ rest, Role.resetting rest ∉ roles := fun rest =>
    not_mem_of_countP_zero hreset rfl
  cases h.move with
  | look => exact .asked (by omega) (by omega) hshutdown hlife honce (by omega)
  | found hfin =>
      -- the holder gives the flag back, so the condition leaves a producer inside
      have hholding : 0 < roles.countP Role.isHolding := of_decide_eq_true hfin
      obtain ⟨r, hr, hrole⟩ := List.countP_pos_iff.mp hholding
      have hreleasing : Role.releasing ∈ roles := by
        cases r with
        | releasing => exact hr
        | resetting rest => exact absurd hr (hnoreset rest)
        | _ => exact absurd hrole Bool.false_ne_true
      have hinside : roles.countP Role.isInside ≠ 0 := fun hzero =>
        h.handsOver rfl (.inr ⟨hzero, hreleasing⟩)
      have hsame : (roles.set i .outside).countP Role.isInside = roles.countP Role.isInside :=
        hinside'
      exact .asked (hbefore'.trans hbefore) (hreset'.trans hreset) hshutdown hlife honce (by omega)
  | asks =>
      have hsame : (roles.set i .looping).countP Role.isPending = roles.countP Role.isPending :=
        Nat.succ.inj hpending'
      exact .asked (hbefore'.trans hbefore) (hreset'.trans hreset) hshutdown hlife honce (by omega)
  | passes hno => exact absurd hno (by rw [hshutdown]; exact fun hb => Bool.noConfusion hb)
  | stays => exact absurd h.mem hnobefore
  | enters =>
      have hmore : (roles.set i .inside).countP Role.isPending = roles.countP Role.isPending + 1 :=
        hpending'
      exact .asked (hbefore'.trans hbefore) (hreset'.trans hreset) hshutdown hlife honce (by omega)
  | leaves m hm hpos =>
      have hrest : (roles.set i .outside).countP Role.isInside + 1 = m + 1 := hinside'.trans hm
      exact .asked (hbefore'.trans hbefore) (hreset'.trans hreset) hshutdown hlife honce (by omega)
  | leavesLast =>
      have hsame : (roles.set i .last).countP Role.isPending = roles.countP Role.isPending :=
        Nat.succ.inj hpending'
      exact .asked (hbefore'.trans hbefore) (hreset'.trans hreset) hshutdown hlife honce (by omega)
  | closes =>
      have hsame : (roles.set i .looping).countP Role.isPending = roles.countP Role.isPending :=
        Nat.succ.inj hpending'
      exact .asked (hbefore'.trans hbefore) (hreset'.trans hreset) hshutdown hlife honce (by omega)
  | gives _ _ hn =>
      have hsame : (roles.set i .releasing).countP Role.isInside = roles.countP Role.isInside :=
        hinside'
      exact .asked (hbefore'.trans hbefore) (hreset'.trans hreset) hshutdown hlife honce (by omega)
  | takes _ _ hn =>
      refine .resetting (hbefore'.trans hbefore)
        (hreset'.trans (congrArg (· + 1) hreset)) (hinside'.trans hn) ?_
      intro rest hrest
      cases List.mem_or_eq_of_mem_set hrest with
      | inl hold => exact absurd hold (hnoreset rest)
      | inr hnew =>
          cases hnew
          exact ⟨rfl, rfl, rfl, rfl, congrArg (· + 1) honce⟩
  | releases =>
      have hsame : (roles.set i .outside).countP Role.isPending = roles.countP Role.isPending :=
        hpending'
      exact .asked (hbefore'.trans hbefore) (hreset'.trans hreset) hshutdown hlife honce (by omega)
  | resets => exact absurd h.mem (hnoreset _)
  | finishes => exact absurd h.mem (hnoreset _)
  | prepares => exact absurd h.mem hnobefore
  | requests => exact absurd h.mem hnobefore

theorem Moved.resetting
    (hbefore : roles.countP Role.isBefore = 0) (hreset : roles.countP Role.isResetting = 1)
    (hinside : roles.countP Role.isInside = 0)
    (hrest : ∀ rest, .resetting rest ∈ roles → Reset (rest.foldl Store.perform g)) :
    Phase g' (roles.set i role') := by
  have hbefore' := h.count Role.isBefore
  have hreset' := h.count Role.isResetting
  have hinside' := h.count Role.isInside
  have hholding' := h.count Role.isHolding
  have hnobefore : Role.before ∉ roles := not_mem_of_countP_zero hbefore rfl
  have hnoinside : Role.inside ∉ roles := not_mem_of_countP_zero hinside rfl
  have hle := isResetting_le_isHolding roles
  have hle' := isResetting_le_isHolding (roles.set i role')
  have hholding : roles.countP Role.isHolding = 1 := by
    have hsingle := h.word.single
    omega
  have htaken : decide (0 < roles.countP Role.isHolding) ≠ false := by
    rw [hholding]
    decide
  -- a party that is not the one in the body leaves the shared state as it is
  have hother : g' = g → (∀ rest, role' ≠ .resetting rest) →
      (roles.set i role').countP Role.isBefore = 0 →
      (roles.set i role').countP Role.isResetting = 1 →
      (roles.set i role').countP Role.isInside = 0 → Phase g' (roles.set i role') := by
    intro hg hnot hb hr hi
    refine .resetting hb hr hi ?_
    intro rest hmem
    rw [hg]
    cases List.mem_or_eq_of_mem_set hmem with
    | inl hold => exact hrest rest hold
    | inr hnew => exact absurd hnew.symm (hnot rest)
  cases h.move with
  | look =>
      rw [set_same h.here]
      exact .resetting hbefore hreset hinside hrest
  | found =>
      exact hother rfl (by simp) (hbefore'.trans hbefore) (hreset'.trans hreset)
        (hinside'.trans hinside)
  | asks =>
      exact hother rfl (by simp) (hbefore'.trans hbefore) (hreset'.trans hreset)
        (hinside'.trans hinside)
  | passes =>
      exact hother rfl (by simp) (hbefore'.trans hbefore) (hreset'.trans hreset)
        (hinside'.trans hinside)
  | stays => exact absurd h.mem hnobefore
  | enters _ hfree => exact absurd hfree htaken
  | leaves => exact absurd h.mem hnoinside
  | leavesLast => exact absurd h.mem hnoinside
  | closes hfree => exact absurd hfree htaken
  | gives _ hfree => exact absurd hfree htaken
  | takes _ hfree => exact absurd hfree htaken
  | releases =>
      have hgone : (roles.set i .outside).countP Role.isHolding + 1 = 1 :=
        hholding'.trans hholding
      have hkept : (roles.set i .outside).countP Role.isResetting = 1 := hreset'.trans hreset
      omega
  | resets store rest hne =>
      have hkept : (roles.set i (.resetting rest)).countP Role.isResetting = 1 :=
        Nat.succ.inj (hreset'.trans (congrArg (· + 1) hreset))
      refine .resetting (hbefore'.trans hbefore) hkept (hinside'.trans hinside) ?_
      intro other hmem
      have hhere : Role.resetting rest ∈ roles.set i (.resetting rest) := by
        obtain ⟨hi, -⟩ := List.getElem?_eq_some_iff.mp h.here
        exact List.mem_set hi _
      obtain rfl := Role.resetting.inj
        (eq_of_countP_le_one (Nat.le_of_eq hkept) hmem hhere rfl rfl)
      exact hrest _ h.mem
  | finishes =>
      have hgone : (roles.set i .outside).countP Role.isHolding = 0 :=
        Nat.succ.inj (hholding'.trans hholding)
      refine .settled (hbefore'.trans hbefore) hgone (hrest _ h.mem) ?_
      rw [show (roles.set i .outside).countP Role.isInside = 0 from hinside'.trans hinside]
      exact flagged_zero.symm
  | prepares => exact absurd h.mem hnobefore
  | requests => exact absurd h.mem hnobefore

theorem Moved.settled
    (hbefore : roles.countP Role.isBefore = 0) (hholding : roles.countP Role.isHolding = 0)
    (hreset : Reset g)
    (hword : g.admissionState = admission false false (roles.countP Role.isInside)) :
    Phase g' (roles.set i role') := by
  have hbefore' := h.count Role.isBefore
  have hinside' := h.count Role.isInside
  have hholding' := h.count Role.isHolding
  have hnobefore : Role.before ∉ roles := not_mem_of_countP_zero hbefore rfl
  have hnolooping : role ≠ .looping := fun hlooping =>
    h.handsOver hlooping (.inl ⟨hreset.lifecycle, hholding⟩)
  have hfree : decide (0 < roles.countP Role.isHolding) = false := by
    rw [hholding]
    rfl
  have hopen : closed = false := by
    have hboth := h.word.word.symm.trans hword
    rw [hfree] at hboth
    exact (admission_inj h.word.counted h.word.counted hboth).1
  cases h.move with
  | look =>
      rw [set_same h.here]
      exact .settled hbefore hholding hreset hword
  | found => exact absurd rfl hnolooping
  | asks hasked => exact absurd hasked (by rw [hreset.shutdown]; exact Bool.false_ne_true)
  | passes =>
      refine .settled (hbefore'.trans hbefore) (hholding'.trans hholding) hreset ?_
      rw [hword]
      exact congrArg _ hinside'.symm
  | stays => exact absurd h.mem hnobefore
  | enters =>
      refine .settled (hbefore'.trans hbefore) (hholding'.trans hholding) (hreset.word _) ?_
      rw [show (roles.set i .inside).countP Role.isInside = roles.countP Role.isInside + 1 from
        hinside']
  | leaves m hm =>
      refine .settled (hbefore'.trans hbefore) (hholding'.trans hholding) (hreset.word _) ?_
      rw [show (roles.set i .outside).countP Role.isInside = m from
        Nat.succ.inj (hinside'.trans hm), hfree, hopen]
  | leavesLast hn =>
      refine .settled (hbefore'.trans hbefore) (hholding'.trans hholding) (hreset.word _) ?_
      rw [show (roles.set i .last).countP Role.isInside = 0 from
        Nat.succ.inj (hinside'.trans hn), hfree, hopen]
  | closes => exact absurd rfl hnolooping
  | gives => exact absurd rfl hnolooping
  | takes => exact absurd rfl hnolooping
  | releases => exact absurd h.mem (not_mem_of_countP_zero hholding rfl)
  | resets => exact absurd h.mem (not_mem_of_countP_zero hholding rfl)
  | finishes => exact absurd h.mem (not_mem_of_countP_zero hholding rfl)
  | prepares => exact absurd h.mem hnobefore
  | requests => exact absurd h.mem hnobefore

end

theorem Inv.moved (h : Inv g roles) (hmoved : Moved g roles closed i role g' role') :
    Inv g' (roles.set i role') := by
  refine ⟨?_, ?_⟩
  · refine hmoved.word.move (hmoved.count _) (hmoved.count _) ?_ hmoved.move
    intro rest hrest
    exact h.phase.inside_zero (hrest ▸ hmoved.mem)
  · cases h.phase with
    | before hbefore hcall hshutdown hlife honce =>
        exact hmoved.before hbefore hcall hshutdown hlife honce
    | asked hbefore hreset hshutdown hlife honce hpending =>
        exact hmoved.asked hbefore hreset hshutdown hlife honce hpending
    | resetting hbefore hreset hinside hrest => exact hmoved.resetting hbefore hreset hinside hrest
    | settled hbefore hholding hreset hword => exact hmoved.settled hbefore hholding hreset hword

theorem Inv.enqueue (h : Inv g roles) : Inv g (roles ++ [Role.outside]) := by
  have hcount : ∀ f : Role → Bool, f Role.outside = false →
      (roles ++ [Role.outside]).countP f = roles.countP f := by
    intro f hf
    rw [List.countP_append, List.countP_singleton, hf]
    rfl
  have hmem : ∀ r, r ∈ roles ++ [Role.outside] → r ≠ .outside → r ∈ roles := by
    intro r hr hne
    cases List.mem_append.mp hr with
    | inl hold => exact hold
    | inr hnew => exact absurd (List.mem_singleton.mp hnew) hne
  refine ⟨?_, ?_⟩
  · rw [hcount Role.isInside rfl, hcount Role.isHolding rfl]
    exact h.word
  · cases h.phase with
    | before hbefore hcall hshutdown hlife honce =>
        exact .before ((hcount Role.isBefore rfl).trans hbefore)
          ((hcount Role.isCall rfl).trans hcall) hshutdown hlife honce
    | asked hbefore hreset hshutdown hlife honce hpending =>
        exact .asked ((hcount Role.isBefore rfl).trans hbefore)
          ((hcount Role.isResetting rfl).trans hreset) hshutdown hlife honce
          (by rw [hcount Role.isPending rfl]; exact hpending)
    | resetting hbefore hreset hinside hrest =>
        exact .resetting ((hcount Role.isBefore rfl).trans hbefore)
          ((hcount Role.isResetting rfl).trans hreset)
          ((hcount Role.isInside rfl).trans hinside)
          fun rest hr => hrest rest (hmem _ hr (by simp))
    | settled hbefore hholding hreset hword =>
        exact .settled ((hcount Role.isBefore rfl).trans hbefore)
          ((hcount Role.isHolding rfl).trans hholding) hreset
          (by rw [hcount Role.isInside rfl]; exact hword)

end Moves

/-! ## Runs -/

def Handshake.roles (s : Handshake) : List Role := s.parties.map Party.role

structure Handshake.Kept (s : Handshake) : Prop where
  sound : ∀ party ∈ s.parties, party.Sound
  inv : Inv s.shared s.roles

theorem Handshake.step_enqueue_parties (s : Handshake) :
    (s.step .enqueue).parties = s.parties ++ [.producer .load] := by
  rw [Handshake.parties, Handshake.step, List.map_append]
  rfl

variable {s : Handshake}

theorem Handshake.step_party {e : Event} (he : e.party = some i) :
    (s.parties[i]? = none ∧ s.step e = s) ∨
    ∃ party, s.parties[i]? = some party ∧ (s.step e).shared = (party.step s.shared).1 ∧
      (s.step e).parties = s.parties.set i (party.step s.shared).2 := by
  cases e with
  | enqueue => cases he
  | requestStop => cases he
  | shutdown => cases he
  | producer k =>
      cases he
      cases hk : s.producers[k]? with
      | none =>
          left
          refine ⟨by rw [Handshake.parties, List.getElem?_cons_succ,
            List.getElem?_map, hk]; rfl, ?_⟩
          rw [Handshake.step, hk]
      | some producer =>
          right
          refine ⟨.producer producer, ?_, ?_, ?_⟩
          · rw [Handshake.parties, List.getElem?_cons_succ, List.getElem?_map, hk]
            rfl
          · rw [Handshake.step, hk]
            rfl
          · rw [Handshake.step, hk, Handshake.parties, Handshake.parties, List.set_cons_succ,
              List.map_set]
            rfl
  | owner =>
      cases he
      exact .inr ⟨.owner s.owner, rfl, rfl, rfl⟩

theorem Party.step_sound {party : Party} (hsound : party.Sound)
    (hword : g.admissionState = admission closed finalizing n) (hn : n < countLimit) :
    (party.step g).2.Sound := by
  cases party with
  | owner state => exact Owner.step_sound hsound hword hn
  | producer state => exact Producer.step_sound hsound hword hn

theorem Party.step_move {party : Party} (hsound : party.Sound)
    (hword : g.admissionState = admission closed finalizing n) (hn : n < countLimit)
    (hpos : party.role = .inside → n ≠ 0) :
    Move g closed finalizing n party.role (party.step g).1 (party.step g).2.role := by
  cases party with
  | owner state => exact Owner.step_move hsound hword hn
  | producer state => exact Producer.step_move hsound hword hn hpos

theorem HandsOver.roles {e : Event} {i : Nat} {party : Party} (h : HandsOver s e)
    (he : e.party = some i) (hi : s.parties[i]? = some party)
    (hword : Word s.shared (s.roles.countP Role.isInside) (s.roles.countP Role.isHolding) closed)
    (hlooping : party.role = .looping) :
    ¬ ((s.shared.lifecycle = .stopped ∧ s.roles.countP Role.isHolding = 0) ∨
      (s.roles.countP Role.isInside = 0 ∧ .releasing ∈ s.roles)) := by
  intro hmeets
  refine h party ?_ hlooping ?_
  · rw [he]
    exact hi
  rcases hmeets with ⟨hlife, hholding⟩ | ⟨hinside, hreleasing⟩
  · refine .inl ⟨hlife, ?_⟩
    rw [hword.word, admission_finalizing hword.counted, hholding]
    rfl
  · obtain ⟨other, hother, hrole⟩ := List.mem_map.mp hreleasing
    refine .inr ⟨?_, other, hother, hrole⟩
    rw [hword.word]
    exact (admission_count hword.counted (by decide : 0 < countLimit)).mpr hinside

theorem Handshake.Kept.owner (h : s.Kept) {owner : Owner} (hrole : owner.role = s.owner.role)
    (hsound : (Party.owner owner).Sound) : ({ s with owner := owner } : Handshake).Kept := by
  refine ⟨?_, ?_⟩
  · intro party hparty
    cases List.mem_cons.mp hparty with
    | inl howner => rw [howner]; exact hsound
    | inr hproducer => exact h.sound party (List.mem_cons_of_mem _ hproducer)
  · have hroles : ({ s with owner := owner } : Handshake).roles = s.roles := by
      rw [Handshake.roles, Handshake.roles, Handshake.parties, Handshake.parties, List.map_cons,
        List.map_cons, Party.role, Party.role, hrole]
    rw [hroles]
    exact h.inv

theorem Handshake.Kept.step {e : Event} (h : s.Kept) (hover : HandsOver s e) : (s.step e).Kept := by
  cases hparty : e.party with
  | some i =>
      rcases Handshake.step_party (s := s) hparty with ⟨-, hsame⟩ | ⟨party, hi, hshared, hparties⟩
      · rw [hsame]
        exact h
      · obtain ⟨closed, hword⟩ := h.inv.word
        have hsound := h.sound party (List.mem_of_getElem? hi)
        have hrole : s.roles[i]? = some party.role := by
          rw [Handshake.roles, List.getElem?_map, hi]
          rfl
        have hpos : party.role = .inside → s.roles.countP Role.isInside ≠ 0 := by
          intro hinside
          refine Nat.ne_of_gt (List.countP_pos_iff.mpr ⟨party.role, List.mem_of_getElem? hrole, ?_⟩)
          rw [hinside]
          rfl
        refine ⟨?_, ?_⟩
        · intro other hother
          rw [hparties] at hother
          cases List.mem_or_eq_of_mem_set hother with
          | inl hold => exact h.sound other hold
          | inr hnew =>
              rw [hnew]
              exact Party.step_sound hsound hword.word hword.counted
        · rw [hshared, Handshake.roles, hparties, List.map_set]
          exact h.inv.moved ⟨hrole, hword, Party.step_move hsound hword.word hword.counted hpos,
            hover.roles hparty hi hword⟩
  | none =>
      cases e with
      | producer i => cases hparty
      | owner => cases hparty
      | enqueue =>
          have hparties := Handshake.step_enqueue_parties s
          refine ⟨?_, ?_⟩
          · intro party hmem
            rw [hparties] at hmem
            cases List.mem_append.mp hmem with
            | inl hold => exact h.sound party hold
            | inr hnew =>
                rw [List.mem_singleton.mp hnew]
                trivial
          · rw [Handshake.roles, hparties, List.map_append]
            exact h.inv.enqueue
      | requestStop =>
          cases hs : s.owner with
          | idle =>
              have hstep : s.step .requestStop =
                { s with owner := .requesting requestStopBody } := by
                rw [Handshake.step, hs]
              rw [hstep]
              refine h.owner ?_ ⟨by decide, List.suffix_rfl⟩
              rw [hs]
              rfl
          | _ => simpa only [Handshake.step, hs] using h
      | shutdown =>
          cases hs : s.owner with
          | idle =>
              have hstep : s.step .shutdown = { s with owner := .lifecycle } := by
                rw [Handshake.step, hs]
              rw [hstep]
              refine h.owner ?_ trivial
              rw [hs]
              rfl
          | _ => simpa only [Handshake.step, hs] using h

theorem resets_le (rest : List Store) (g : Shared) :
    g.resets ≤ (rest.foldl Store.perform g).resets := by
  induction rest generalizing g with
  | nil => exact Nat.le_refl _
  | cons store rest ih =>
      refine Nat.le_trans ?_ (ih (store.perform g))
      cases store <;> first | exact Nat.le_refl _ | exact Nat.le_succ _

theorem startOf_kept {lifecycle : Lifecycle} (h : lifecycle ≠ .stopped) :
    (startOf lifecycle).Kept := by
  have hword : Word (startOf lifecycle).shared 0 0 false :=
    ⟨by decide, by decide, flagged_zero.symm, by decide⟩
  refine ⟨?_, ⟨false, hword⟩, .before rfl rfl rfl h rfl⟩
  intro party hparty
  rw [List.mem_singleton.mp hparty]
  trivial

theorem Handshake.Kept.completes (h : s.Kept) : s.Completes := by
  obtain ⟨closed, hword⟩ := h.inv.word
  have hroles : ∀ party ∈ s.parties, party.role ∈ s.roles := fun party hparty =>
    List.mem_map_of_mem hparty
  refine ⟨?_, ?_, ?_⟩
  · cases h.inv.phase with
    | before _ _ _ _ honce => omega
    | asked _ _ _ _ honce => omega
    | resetting _ hreset _ hrest =>
        obtain ⟨role, hrole, hresetting⟩ := List.countP_pos_iff.mp (by omega :
          0 < s.roles.countP Role.isResetting)
        cases role with
        | resetting rest => exact (resets_le rest _).trans (Nat.le_of_eq (hrest rest hrole).once)
        | _ => exact absurd hresetting Bool.false_ne_true
    | settled _ _ hreset => exact Nat.le_of_eq hreset.once
  · intro party hparty rest hrest other hother hinside
    have hmem : Role.resetting rest ∈ s.roles := hrest ▸ hroles party hparty
    exact not_mem_of_countP_zero (h.inv.phase.inside_zero hmem) rfl (hinside ▸ hroles other hother)
  · intro hquiet
    have hall : ∀ role ∈ s.roles, role = .outside := by
      intro role hrole
      obtain ⟨party, hparty, rfl⟩ := List.mem_map.mp hrole
      cases List.mem_cons.mp hparty with
      | inl howner => rw [howner, Party.role, hquiet.1]; rfl
      | inr hproducer =>
          obtain ⟨producer, hmem, rfl⟩ := List.mem_map.mp hproducer
          rw [Party.role, hquiet.2 producer hmem]
          rfl
    have hnone : ∀ f : Role → Bool, f .outside = false → s.roles.countP f = 0 := by
      intro f hf
      rw [List.countP_eq_zero]
      intro role hrole
      rw [hall role hrole, hf]
      exact Bool.false_ne_true
    cases h.inv.phase with
    | before hbefore =>
        rw [hnone Role.isBefore rfl] at hbefore
        cases hbefore
    | asked _ _ _ _ _ hpending =>
        rw [hnone Role.isPending rfl] at hpending
        exact absurd hpending (Nat.lt_irrefl 0)
    | resetting _ hreset =>
        rw [hnone Role.isResetting rfl] at hreset
        cases hreset
    | settled _ _ hreset hadmission =>
        rw [hnone Role.isInside rfl] at hadmission
        refine ⟨hreset.lifecycle, hadmission.trans flagged_zero, hreset.restart, ?_⟩
        rw [telemetryTransportInit, hreset.stop, hreset.lifecycle, hreset.restart]
        rfl

/-- In every run in which no call meets the reset done or the flag about to be given
back, the shutdown completes. -/
theorem shutdown_completes (lifecycle : Lifecycle) (hstart : lifecycle ≠ .stopped)
    (events : List Event) (h : Along Handshake.step HandsOver (startOf lifecycle) events) :
    (run Handshake.step (startOf lifecycle) events).Completes :=
  (run_invariant_along (fun _ _ => Handshake.Kept.step) events (startOf_kept hstart) h).completes

def enters : List Event := .enqueue :: List.replicate 5 (.producer 0)

/-- The owner's shutdown up to its call of `finalize_shutdown`. -/
def asks : List Event := .shutdown :: List.replicate 5 .owner

/-- The owner finds the producer inside; the producer leaves last and finalizes. -/
def handedOver : List Event :=
  enters ++ asks ++ List.replicate 4 .owner ++ List.replicate 12 (.producer 0)

theorem handed_over_completes : Along Handshake.step HandsOver (startOf .active) handedOver ∧
    (run Handshake.step (startOf .active) handedOver).Quiet ∧
    (run Handshake.step (startOf .active) handedOver).Completes := by
  have hover : Along Handshake.step HandsOver (startOf .active) handedOver := by decide +kernel
  exact ⟨hover, by decide +kernel, shutdown_completes .active (by decide) handedOver hover⟩

/-- The producer leaves while the owner holds the finalizing flag. -/
def handoverLost : List Event :=
  enters ++ asks ++ List.replicate 3 .owner ++ List.replicate 3 (.producer 0) ++ [.owner]

/-- The producer has read the request when the owner starts the reset. -/
def resetTwice : List Event :=
  enters ++ asks ++ List.replicate 2 (.producer 0) ++ List.replicate 11 .owner ++
    List.replicate 11 (.producer 0)

/-- All calls have returned, and the transport is still stopping; and a transport reset
twice. -/
theorem handover_lost :
    (run Handshake.step (startOf .active) handoverLost).Quiet ∧
    (run Handshake.step (startOf .active) handoverLost).shared.lifecycle = .stopping ∧
    ¬ (run Handshake.step (startOf .active) handoverLost).Completes ∧
    (run Handshake.step (startOf .active) resetTwice).shared.resets = 2 ∧
    ¬ (run Handshake.step (startOf .active) resetTwice).Completes := by
  have hquiet : (run Handshake.step (startOf .active) handoverLost).Quiet := by decide +kernel
  have hstopping : (run Handshake.step (startOf .active) handoverLost).shared.lifecycle =
      .stopping := by decide +kernel
  have htwice : (run Handshake.step (startOf .active) resetTwice).shared.resets = 2 := by
    decide +kernel
  refine ⟨hquiet, hstopping, ?_, htwice, ?_⟩
  · intro h
    have hstopped := (h.stopped hquiet).1
    rw [hstopping] at hstopped
    cases hstopped
  · intro h
    have honce := h.once
    rw [htwice] at honce
    omega

end Duris.Telemetry
