import Mathlib.Data.List.Basic

/-!
# Runs of a step function

The stateful parts of the repository are modelled as a state and a total step
function, with everything the environment decides (which thread moves, how a
write ends, what the caller passes) in the event. A run is the fold of the step
over a list of events, so a property of every reachable state is a property of
`run step s events` for every list, and a property of all the steps of a run is
`Along`.

The rules are the inductions every safety argument uses: an invariant that each
step keeps holds after every run, the same when a side condition is granted along
the way, and the same when the invariant counts what the run did.
-/

namespace Duris

variable {σ ε : Type}

def run (step : σ → ε → σ) (s : σ) (events : List ε) : σ := events.foldl step s

/-- `ok` holds of every step of a run, each in the state it is taken from. -/
def Along (step : σ → ε → σ) (ok : σ → ε → Prop) : σ → List ε → Prop
  | _, [] => True
  | s, e :: events => ok s e ∧ Along step ok (step s e) events

instance Along.decidable (step : σ → ε → σ) (ok : σ → ε → Prop) [∀ s e, Decidable (ok s e)] :
    ∀ (s : σ) (events : List ε), Decidable (Along step ok s events)
  | _, [] => inferInstanceAs (Decidable True)
  | s, e :: events =>
      have := Along.decidable step ok (step s e) events
      inferInstanceAs (Decidable (ok s e ∧ Along step ok (step s e) events))

/-- The sum of a weight over the steps of a run, each in the state it is taken
from. -/
def tally (step : σ → ε → σ) (weight : σ → ε → Nat) : σ → List ε → Nat
  | _, [] => 0
  | s, e :: events => weight s e + tally step weight (step s e) events

/-- What the steps of a run put out, in order, each in the state it is taken from. -/
def output {α : Type} (step : σ → ε → σ) (out : σ → ε → List α) : σ → List ε → List α
  | _, [] => []
  | s, e :: events => out s e ++ output step out (step s e) events

variable {step : σ → ε → σ}

@[simp] theorem run_nil (s : σ) : run step s [] = s := rfl

@[simp] theorem run_cons (s : σ) (e : ε) (events : List ε) :
    run step s (e :: events) = run step (step s e) events := rfl

@[simp] theorem run_append (s : σ) (before after : List ε) :
    run step s (before ++ after) = run step (run step s before) after :=
  List.foldl_append

variable {ok : σ → ε → Prop} {P : σ → Prop}

theorem along_append (before after : List ε) :
    ∀ s : σ, Along step ok s (before ++ after) ↔
      Along step ok s before ∧ Along step ok (run step s before) after := by
  induction before with
  | nil => simp [Along]
  | cons e before ih =>
      intro s
      rw [List.cons_append, Along, Along, ih, run_cons, and_assoc]

theorem along_and {ok' : σ → ε → Prop} :
    ∀ {events : List ε} {s : σ}, Along step ok s events → Along step ok' s events →
      Along step (fun s e => ok s e ∧ ok' s e) s events := by
  intro events
  induction events with
  | nil => intro s _ _; trivial
  | cons e events ih => exact fun h h' => ⟨⟨h.1, h'.1⟩, ih h.2 h'.2⟩

/-- Where the state behind every step of a run is good, and a step that ends so was allowed,
every step was. -/
theorem along_of_prefixes {Q : σ → Prop} (hstep : ∀ s e, P s → ok s e → P (step s e))
    (hok : ∀ s e, P s → Q (step s e) → ok s e) :
    ∀ (events : List ε) (s : σ), P s → (∀ before, before <+: events → Q (run step s before)) →
      Along step ok s events := by
  intro events
  induction events with
  | nil => intro s _ _; trivial
  | cons e events ih =>
      intro s hs hall
      have hfirst : ok s e := hok s e hs (hall [e] ⟨events, rfl⟩)
      refine ⟨hfirst, ih _ (hstep s e hs hfirst) fun before hbefore => ?_⟩
      exact hall (e :: before) (List.cons_prefix_cons.mpr ⟨rfl, hbefore⟩)

theorem along_of_forall {Q : ε → Prop} (hstep : ∀ s e, Q e → ok s e) :
    ∀ (events : List ε) (s : σ), (∀ e ∈ events, Q e) → Along step ok s events := by
  intro events
  induction events with
  | nil => intro s _; trivial
  | cons e events ih =>
      intro s hall
      rw [List.forall_mem_cons] at hall
      exact ⟨hstep s e hall.1, ih (step s e) hall.2⟩

/-- A relation between a state and its successor that is reflexive and transitive
relates the two ends of a run. -/
theorem run_related {R : σ → σ → Prop} (hrefl : ∀ s, R s s)
    (htrans : ∀ {a b c}, R a b → R b c → R a c)
    (hstep : ∀ s e, P s → P (step s e) ∧ R s (step s e)) :
    ∀ (events : List ε) {s : σ}, P s → P (run step s events) ∧ R s (run step s events) := by
  intro events
  induction events with
  | nil => intro s hs; exact ⟨hs, hrefl s⟩
  | cons e events ih =>
      intro s hs
      obtain ⟨hp, hr⟩ := hstep s e hs
      obtain ⟨hp', hr'⟩ := ih hp
      exact ⟨hp', htrans hr hr'⟩

/-- An invariant kept by every step that meets `ok` survives a run whose steps all
do. -/
theorem run_invariant_along (hstep : ∀ s e, P s → ok s e → P (step s e)) :
    ∀ (events : List ε) {s : σ}, P s → Along step ok s events → P (run step s events) := by
  intro events
  induction events with
  | nil => intro s hs _; exact hs
  | cons e events ih =>
      intro s hs hok
      exact ih (hstep s e hs hok.1) hok.2

/-- What the invariant and the condition grant of a step holds along such a run. -/
theorem along_of_invariant_along {Q : σ → ε → Prop} (hstep : ∀ s e, P s → ok s e → P (step s e))
    (hgrant : ∀ s e, P s → ok s e → Q s e) :
    ∀ (events : List ε) {s : σ}, P s → Along step ok s events → Along step Q s events := by
  intro events
  induction events with
  | nil => intro s _ _; trivial
  | cons e events ih =>
      intro s hs hok
      exact ⟨hgrant s e hs hok.1, ih (hstep s e hs hok.1) hok.2⟩

theorem along_of_invariant {Q : σ → ε → Prop} (hstep : ∀ s e, P s → ok s e → P (step s e))
    (hgrant : ∀ s e, P s → Q s e) (events : List ε) {s : σ} (hs : P s)
    (hok : Along step ok s events) : Along step Q s events :=
  along_of_invariant_along hstep (fun s e h _ => hgrant s e h) events hs hok

theorem run_invariant (hstep : ∀ s e, P s → P (step s e)) (events : List ε) {s : σ} (hs : P s) :
    P (run step s events) := by
  induction events generalizing s with
  | nil => exact hs
  | cons e events ih => exact ih (hstep s e hs)

/-- The same for an invariant that speaks of what the run has added up so far. -/
theorem run_tally_invariant {weight : σ → ε → Nat} {P : σ → Nat → Prop}
    (hstep : ∀ s e n, P s n → P (step s e) (n + weight s e)) :
    ∀ (events : List ε) {s : σ} {n : Nat}, P s n →
      P (run step s events) (n + tally step weight s events) := by
  intro events
  induction events with
  | nil => intro s n hs; exact hs
  | cons e events ih =>
      intro s n hs
      rw [run_cons, tally, ← Nat.add_assoc]
      exact ih (hstep s e n hs)

/-- The same for an invariant that speaks of what the run has put out so far, where every step
meets `ok`. -/
theorem run_output_invariant_along {α : Type} {out : σ → ε → List α} {P : σ → List α → Prop}
    (hstep : ∀ s e made, P s made → ok s e → P (step s e) (made ++ out s e)) :
    ∀ (events : List ε) {s : σ} {made : List α}, P s made → Along step ok s events →
      P (run step s events) (made ++ output step out s events) := by
  intro events
  induction events with
  | nil =>
      intro s made hs _
      rw [output, List.append_nil]
      exact hs
  | cons e events ih =>
      intro s made hs hok
      rw [run_cons, output, ← List.append_assoc]
      exact ih (hstep s e made hs hok.1) hok.2

end Duris
