import Mathlib.Logic.Function.Basic
import Mathlib.Logic.Relation
import Mathlib.Data.List.Basic
import Mathlib.Data.List.Nodup
import Mathlib.Data.List.Perm.Subperm
import Mathlib.Data.List.Range

/-!
# Parents before children

Rows that name their parents in any order are to be resolved, each from what its parent
resolved to. The walk starts at every row in turn, climbs to a row that has no parent or
is settled, and comes down again along the path it marked; a marked row met on the way up
closes a circle. `Resolves` says what the walk is for, by the recursion along the links.
The walk decides it: `visitAll_ok` and `visitAll_complete`; and it comes to an end, since
it marks a new row on every step up: `visitAll_stops`.
-/

namespace Duris.ParentWalk

open Relation

variable {β : Type}

inductive Colour where
  | unseen
  | onPath
  | settled
  deriving DecidableEq

/-- Why there is no answer: a row was refused, or the bound on the steps was too small. -/
inductive Stop where
  | refused
  | running
  deriving DecidableEq

structure Walk (β : Type) where
  colour : Nat → Colour := fun _ => .unseen
  value : Nat → Option β := fun _ => none

section Definitions

variable (parents : Nat → Option Nat) (resolve : Nat → Option β → Option β)

/-- The way up from `current`, with the rows passed so far, the last one first. -/
def climb : Nat → Option Nat → (Nat → Colour) → List Nat →
    Option (Option Nat × (Nat → Colour) × List Nat)
  | 0, _, _, _ => none
  | _ + 1, none, colour, path => some (none, colour, path)
  | fuel + 1, some current, colour, path =>
      if colour current = .unseen then
        climb fuel (parents current) (Function.update colour current .onPath) (current :: path)
      else some (some current, colour, path)

/-- The way down: every row is resolved from its parent. -/
def descend : List Nat → Walk β → Option (Walk β)
  | [], w => some w
  | node :: path, w =>
      match resolve node ((parents node).bind w.value) with
      | none => none
      | some v =>
          descend path
            { colour := Function.update w.colour node .settled
              value := Function.update w.value node (some v) }

def visit (fuel start : Nat) (w : Walk β) : Except Stop (Walk β) :=
  if w.colour start = .settled then .ok w
  else
    match climb parents fuel (some start) w.colour [] with
    | none => .error .running
    | some (current, colour, path) =>
        if current.any (fun node => colour node = .onPath) = true then .error .refused
        else
          match descend parents resolve path { w with colour } with
          | none => .error .refused
          | some w => .ok w

def visitAll (fuel : Nat) : List Nat → Walk β → Except Stop (Walk β)
  | [], w => .ok w
  | start :: starts, w =>
      match visit parents resolve fuel start w with
      | .error stop => .error stop
      | .ok w => visitAll fuel starts w

inductive Resolves : Nat → β → Prop
  | root {i : Nat} {v : β} (hparent : parents i = none) (hresolve : resolve i none = some v) :
      Resolves i v
  | child {i j : Nat} {u v : β} (hparent : parents i = some j) (hrest : Resolves j u)
      (hresolve : resolve i (some u) = some v) : Resolves i v

/-- Row `i` names `j`. -/
def Names (i j : Nat) : Prop := parents i = some j

end Definitions

variable {parents : Nat → Option Nat} {resolve : Nat → Option β → Option β}

namespace Resolves

theorem unique {i : Nat} {v v' : β} (h : Resolves parents resolve i v)
    (h' : Resolves parents resolve i v') : v = v' := by
  induction h generalizing v' with
  | root hparent hresolve =>
      cases h' with
      | root _ hresolve' =>
          rw [hresolve] at hresolve'
          exact Option.some.inj hresolve'
      | child hparent' _ _ =>
          rw [hparent] at hparent'
          cases hparent'
  | child hparent _ hresolve ih =>
      cases h' with
      | root hparent' _ =>
          rw [hparent] at hparent'
          cases hparent'
      | child hparent' hrest' hresolve' =>
          rw [hparent] at hparent'
          cases hparent'
          rw [ih hrest', hresolve'] at hresolve
          exact (Option.some.inj hresolve).symm

theorem no_circle {i : Nat} {v : β} (h : Resolves parents resolve i v) :
    ¬ TransGen (Names parents) i i := by
  induction h with
  | root hparent _ =>
      intro hcircle
      obtain ⟨j, hj, -⟩ := TransGen.head'_iff.mp hcircle
      rw [Names, hparent] at hj
      cases hj
  | child hparent _ _ ih =>
      intro hcircle
      obtain ⟨k, hk, hback⟩ := TransGen.head'_iff.mp hcircle
      rw [Names, hparent] at hk
      cases hk
      exact ih (TransGen.tail' hback hparent)

theorem above {i j : Nat} {v : β} (h : Resolves parents resolve i v)
    (hup : ReflTransGen (Names parents) i j) : ∃ u, Resolves parents resolve j u := by
  induction hup using ReflTransGen.head_induction_on generalizing v with
  | refl => exact ⟨v, h⟩
  | head hlink _ ih =>
      cases h with
      | root hparent _ =>
          rw [Names, hparent] at hlink
          cases hlink
      | child hparent hrest _ =>
          rw [Names, hparent] at hlink
          cases hlink
          exact ih hrest

end Resolves

/-! ## The way up -/

/-- The rows of the path name each other, and the last one passed names `current`. -/
def Leads (parents : Nat → Option Nat) : List Nat → Option Nat → Prop
  | [], _ => True
  | node :: path, current => parents node = current ∧ Leads parents path (some node)

theorem Leads.circle {path : List Nat} {current : Nat} (h : Leads parents path (some current)) :
    ∀ node ∈ path, TransGen (Names parents) node current := by
  induction path generalizing current with
  | nil => intro node hnode; cases hnode
  | cons head path ih =>
      intro node hnode
      rcases List.mem_cons.mp hnode with rfl | hnode
      · exact .single h.1
      · exact (ih h.2 node hnode).tail h.1

/-- Where a climb stands: the rows of its path, and no others, are marked. -/
structure Climb (parents : Nat → Option Nat) (before : Nat → Colour) (current : Option Nat)
    (colour : Nat → Colour) (path : List Nat) : Prop where
  leads : Leads parents path current
  fresh : ∀ i ∈ path, before i = .unseen
  nodup : path.Nodup
  marked : ∀ i ∈ path, colour i = .onPath
  others : ∀ i, i ∉ path → colour i = before i

theorem Climb.start (colour : Nat → Colour) (current : Option Nat) :
    Climb parents colour current colour [] :=
  ⟨trivial, by simp, List.nodup_nil, by simp, by simp⟩

theorem Climb.step {before colour : Nat → Colour} {current : Nat} {path : List Nat}
    (h : Climb parents before (some current) colour path) (hunseen : colour current = .unseen) :
    Climb parents before (parents current) (Function.update colour current .onPath)
      (current :: path) := by
  have hnew : current ∉ path := by
    intro hmem
    rw [h.marked current hmem] at hunseen
    cases hunseen
  constructor
  · exact ⟨rfl, h.leads⟩
  · intro i hi
    rcases List.mem_cons.mp hi with rfl | hi
    · rw [← h.others i hnew]
      exact hunseen
    · exact h.fresh i hi
  · exact List.nodup_cons.mpr ⟨hnew, h.nodup⟩
  · intro i hi
    rcases List.mem_cons.mp hi with rfl | hi
    · exact Function.update_self _ _ _
    · have hne : i ≠ current := by
        rintro heq
        rw [heq] at hi
        exact hnew hi
      rw [Function.update_of_ne hne]
      exact h.marked i hi
  · intro i hi
    rw [List.mem_cons, not_or] at hi
    rw [Function.update_of_ne hi.1]
    exact h.others i hi.2

theorem climb_spec {before : Nat → Colour} (fuel : Nat) :
    ∀ {current current' : Option Nat} {colour colour' : Nat → Colour} {path path' : List Nat},
      Climb parents before current colour path →
      climb parents fuel current colour path = some (current', colour', path') →
      Climb parents before current' colour' path' ∧
        (∀ node, current' = some node → colour' node ≠ .unseen) ∧
        (∀ i ∈ path, i ∈ path') ∧ ∀ node, current = some node → colour' node ≠ .unseen := by
  induction fuel with
  | zero => intro current current' colour colour' path path' _ hclimb; cases hclimb
  | succ fuel ih =>
      intro current current' colour colour' path path' h hclimb
      cases current with
      | none =>
          cases hclimb
          exact ⟨h, by simp, fun _ hi => hi, by simp⟩
      | some node =>
          rw [climb] at hclimb
          split at hclimb
          · next hunseen =>
              obtain ⟨hlast, hend, hpath, -⟩ := ih (h.step hunseen) hclimb
              refine ⟨hlast, hend, fun i hi => hpath i (List.mem_cons_of_mem _ hi), ?_⟩
              rintro _ ⟨⟩
              rw [hlast.marked node (hpath node (List.mem_cons_self ..))]
              exact Colour.noConfusion
          · next hseen =>
              cases hclimb
              refine ⟨h, ?_, fun _ hi => hi, ?_⟩
              · rintro _ ⟨⟩
                exact hseen
              · rintro _ ⟨⟩
                exact hseen

/-! ## The way down -/

def Settled (parents : Nat → Option Nat) (resolve : Nat → Option β → Option β) (w : Walk β)
    (i : Nat) : Prop :=
  ∃ v, w.value i = some v ∧ Resolves parents resolve i v

structure Steady (parents : Nat → Option Nat) (resolve : Nat → Option β → Option β)
    (w : Walk β) : Prop where
  unmarked : ∀ i, w.colour i ≠ .onPath
  settled : ∀ i, w.colour i = .settled → Settled parents resolve w i

theorem Steady.initial : Steady parents resolve ({} : Walk β) where
  unmarked i := Colour.noConfusion
  settled i h := by cases h

/-- Where a descent stands: the rows of the path are yet to be resolved. -/
structure Descent (parents : Nat → Option Nat) (resolve : Nat → Option β → Option β)
    (path : List Nat) (current : Option Nat) (w : Walk β) : Prop where
  leads : Leads parents path current
  nodup : path.Nodup
  marked : ∀ i ∈ path, w.colour i = .onPath
  unmarked : ∀ i, i ∉ path → w.colour i ≠ .onPath
  settled : ∀ i, w.colour i = .settled → Settled parents resolve w i
  arrived : ∀ node, current = some node → w.colour node = .settled

namespace Descent

variable {path : List Nat} {node : Nat} {current : Option Nat} {w w' : Walk β} {v : β}

/-- The row at the end of the path is resolved from its parent's value as the recursion
says. -/
theorem resolves_iff (h : Descent parents resolve (node :: path) current w) :
    resolve node ((parents node).bind w.value) = some v ↔ Resolves parents resolve node v := by
  have hcurrent : parents node = current := h.leads.1
  cases current with
  | none =>
      rw [hcurrent]
      refine ⟨fun hresolve => .root hcurrent hresolve, fun hresolves => ?_⟩
      cases hresolves with
      | root _ hresolve => exact hresolve
      | child hparent _ _ =>
          rw [hcurrent] at hparent
          cases hparent
  | some parent =>
      obtain ⟨u, hu, hparent⟩ := h.settled parent (h.arrived parent rfl)
      rw [hcurrent]
      show resolve node (w.value parent) = some v ↔ _
      rw [hu]
      refine ⟨fun hresolve => .child hcurrent hparent hresolve, fun hresolves => ?_⟩
      cases hresolves with
      | root hnone _ =>
          rw [hcurrent] at hnone
          cases hnone
      | child hparent' hrest hresolve =>
          rw [hcurrent] at hparent'
          cases hparent'
          rw [hparent.unique hrest]
          exact hresolve

theorem step (h : Descent parents resolve (node :: path) current w)
    (hresolve : resolve node ((parents node).bind w.value) = some v) :
    Descent parents resolve path (some node)
      { colour := Function.update w.colour node .settled
        value := Function.update w.value node (some v) } := by
  obtain ⟨hnew, hnodup⟩ := List.nodup_cons.mp h.nodup
  have hne : ∀ i ∈ path, i ≠ node := by
    rintro i hi rfl
    exact hnew hi
  constructor
  · exact h.leads.2
  · exact hnodup
  · intro i hi
    show Function.update w.colour node .settled i = _
    rw [Function.update_of_ne (hne i hi)]
    exact h.marked i (List.mem_cons_of_mem _ hi)
  · intro i hi
    show Function.update w.colour node .settled i ≠ _
    by_cases heq : i = node
    · rw [heq, Function.update_self]
      exact Colour.noConfusion
    · rw [Function.update_of_ne heq]
      exact h.unmarked i (by rw [List.mem_cons, not_or]; exact ⟨heq, hi⟩)
  · intro i hi
    by_cases heq : i = node
    · subst heq
      exact ⟨v, Function.update_self _ _ _, h.resolves_iff.mp hresolve⟩
    · have hcolour : w.colour i = .settled := by
        rw [← hi]
        exact (Function.update_of_ne heq _ _).symm
      obtain ⟨u, hu, hresolves⟩ := h.settled i hcolour
      refine ⟨u, ?_, hresolves⟩
      show Function.update w.value node (some v) i = _
      rw [Function.update_of_ne heq]
      exact hu
  · rintro _ ⟨⟩
    exact Function.update_self _ _ _

theorem run (h : Descent parents resolve path current w)
    (hend : descend parents resolve path w = some w') :
    Steady parents resolve w' ∧ ∀ i, w.colour i ≠ .unseen → w'.colour i = .settled := by
  induction path generalizing current w with
  | nil =>
      cases hend
      refine ⟨⟨fun i => h.unmarked i List.not_mem_nil, h.settled⟩, fun i hi => ?_⟩
      have hmarked := h.unmarked i List.not_mem_nil
      revert hi hmarked
      cases w'.colour i <;> simp
  | cons node path ih =>
      rw [descend] at hend
      split at hend
      · cases hend
      · next v hresolve =>
          obtain ⟨hsteady, hsettled⟩ := ih (h.step hresolve) hend
          refine ⟨hsteady, fun i hi => hsettled i ?_⟩
          show Function.update w.colour node .settled i ≠ _
          by_cases heq : i = node
          · rw [heq, Function.update_self]
            exact Colour.noConfusion
          · rw [Function.update_of_ne heq]
            exact hi

theorem complete (h : Descent parents resolve path current w)
    (hresolves : ∀ i ∈ path, ∃ v, Resolves parents resolve i v) :
    ∃ w', descend parents resolve path w = some w' := by
  induction path generalizing current w with
  | nil => exact ⟨w, rfl⟩
  | cons node path ih =>
      obtain ⟨v, hv⟩ := hresolves node (List.mem_cons_self ..)
      have hresolve := h.resolves_iff.mpr hv
      obtain ⟨w', hw'⟩ := ih (h.step hresolve) fun i hi => hresolves i (List.mem_cons_of_mem _ hi)
      exact ⟨w', by rw [descend, hresolve]; exact hw'⟩

end Descent

/-! ## Visits -/

variable {fuel start : Nat} {starts : List Nat} {w w' : Walk β}

theorem Steady.descent (h : Steady parents resolve w) {current : Option Nat}
    {colour : Nat → Colour} {path : List Nat}
    (hclimb : climb parents fuel (some start) w.colour [] = some (current, colour, path))
    (harrived : ∀ node, current = some node → colour node ≠ .onPath) :
    Descent parents resolve path current { w with colour } ∧ colour start ≠ .unseen ∧
      ∀ i, w.colour i = .settled → colour i = .settled := by
  obtain ⟨hlast, hend, -, hseen⟩ := climb_spec fuel (Climb.start _ _) hclimb
  have hkept : ∀ i, w.colour i = .settled → colour i = .settled := by
    intro i hi
    have hnot : i ∉ path := by
      intro hmem
      rw [hlast.fresh i hmem] at hi
      cases hi
    rw [hlast.others i hnot, hi]
  refine ⟨⟨hlast.leads, hlast.nodup, hlast.marked, ?_, ?_, ?_⟩, hseen start rfl, hkept⟩
  · intro i hi
    show colour i ≠ _
    rw [hlast.others i hi]
    exact h.unmarked i
  · intro i hi
    refine h.settled i ?_
    by_cases hmem : i ∈ path
    · have hmarked : Colour.settled = .onPath := hi.symm.trans (hlast.marked i hmem)
      cases hmarked
    · rw [← hlast.others i hmem]
      exact hi
  · intro node hnode
    show colour node = .settled
    cases hcolour : colour node with
    | unseen => exact absurd hcolour (hend node hnode)
    | onPath => exact absurd hcolour (harrived node hnode)
    | settled => rfl

theorem visit_ok (h : Steady parents resolve w)
    (hvisit : visit parents resolve fuel start w = .ok w') :
    Steady parents resolve w' ∧ w'.colour start = .settled ∧
      ∀ i, w.colour i = .settled → w'.colour i = .settled := by
  rw [visit] at hvisit
  split at hvisit
  · next hsettled =>
      cases hvisit
      exact ⟨h, hsettled, fun _ hi => hi⟩
  · split at hvisit
    · cases hvisit
    · next current colour path hclimb =>
        split at hvisit
        · cases hvisit
        · next harrived =>
            split at hvisit
            · cases hvisit
            · next last hlast =>
                cases hvisit
                obtain ⟨hdescent, hstart, hkept⟩ := h.descent hclimb (by
                  rintro node rfl hmarked
                  exact harrived (decide_eq_true hmarked))
                obtain ⟨hsteady, hseen⟩ := hdescent.run hlast
                refine ⟨hsteady, hseen start hstart, fun i hi => hseen i ?_⟩
                show colour i ≠ _
                rw [hkept i hi]
                exact Colour.noConfusion

theorem visitAll_ok (h : Steady parents resolve w)
    (hvisit : visitAll parents resolve fuel starts w = .ok w') :
    Steady parents resolve w' ∧ (∀ i ∈ starts, w'.colour i = .settled) ∧
      ∀ i, w.colour i = .settled → w'.colour i = .settled := by
  induction starts generalizing w with
  | nil =>
      cases hvisit
      exact ⟨h, by simp, fun _ hi => hi⟩
  | cons start starts ih =>
      rw [visitAll] at hvisit
      split at hvisit
      · cases hvisit
      · next next hnext =>
          obtain ⟨hsteady, hstart, hkept⟩ := visit_ok h hnext
          obtain ⟨hlast, hstarts, hkept'⟩ := ih hsteady hvisit
          refine ⟨hlast, fun i hi => ?_, fun i hi => hkept' i (hkept i hi)⟩
          rcases List.mem_cons.mp hi with rfl | hi
          · exact hkept' _ hstart
          · exact hstarts i hi

/-! ## When the walk gets an answer -/

theorem climb_reaches (fuel : Nat) : ∀ {current current' : Option Nat}
    {colour colour' : Nat → Colour} {path path' : List Nat},
    climb parents fuel current colour path = some (current', colour', path') →
    ∀ i ∈ path', i ∈ path ∨ ∃ node, current = some node ∧ ReflTransGen (Names parents) node i := by
  induction fuel with
  | zero => intro current current' colour colour' path path' hclimb; cases hclimb
  | succ fuel ih =>
      intro current current' colour colour' path path' hclimb i hi
      cases current with
      | none =>
          cases hclimb
          exact .inl hi
      | some node =>
          rw [climb] at hclimb
          split at hclimb
          · rcases ih hclimb i hi with hmem | ⟨next, hnext, hreaches⟩
            · rcases List.mem_cons.mp hmem with rfl | hmem
              · exact .inr ⟨i, rfl, .refl⟩
              · exact .inl hmem
            · exact .inr ⟨node, rfl, .head hnext hreaches⟩
          · cases hclimb
            exact .inl hi

theorem climb_stops {before : Nat → Colour} {n : Nat}
    (hrows : ∀ i j, parents i = some j → j < n) (fuel : Nat) :
    ∀ {current : Option Nat} {colour : Nat → Colour} {path : List Nat},
      Climb parents before current colour path → (∀ node, current = some node → node < n) →
      (∀ i ∈ path, i < n) → n < fuel + path.length →
      climb parents fuel current colour path ≠ none := by
  induction fuel with
  | zero =>
      intro current colour path h _ hpath hfuel
      have hsub : path ⊆ List.range n := fun i hi => List.mem_range.mpr (hpath i hi)
      have hle := (h.nodup.subperm hsub).length_le
      rw [List.length_range] at hle
      omega
  | succ fuel ih =>
      intro current colour path h hcurrent hpath hfuel
      cases current with
      | none => exact Option.some_ne_none _
      | some node =>
          rw [climb]
          split
          · next hunseen =>
              refine ih (h.step hunseen) (fun j hj => hrows node j hj) (fun i hi => ?_) ?_
              · rcases List.mem_cons.mp hi with rfl | hi
                · exact hcurrent _ rfl
                · exact hpath i hi
              · rw [List.length_cons]
                omega
          · exact Option.some_ne_none _

theorem visit_stops {n : Nat} (hrows : ∀ i j, parents i = some j → j < n) (hstart : start < n) :
    visit parents resolve (n + 1) start w ≠ .error .running := by
  rw [visit]
  split
  · simp
  · have hclimb := climb_stops hrows (n + 1) (Climb.start w.colour (some start))
      (by rintro _ ⟨⟩; exact hstart) (by simp) (Nat.lt_succ_self n)
    split
    · next hnone => exact absurd hnone hclimb
    · split
      · simp
      · split <;> simp

theorem visitAll_stops {n : Nat} (hrows : ∀ i j, parents i = some j → j < n)
    (hstarts : ∀ i ∈ starts, i < n) (w : Walk β) :
    visitAll parents resolve (n + 1) starts w ≠ .error .running := by
  induction starts generalizing w with
  | nil => simp [visitAll]
  | cons start starts ih =>
      rw [visitAll]
      split
      · next stop hstop =>
          intro heq
          cases heq
          exact visit_stops hrows (hstarts start (List.mem_cons_self ..)) hstop
      · exact ih (fun i hi => hstarts i (List.mem_cons_of_mem _ hi)) _

theorem visit_complete {v : β} (h : Steady parents resolve w)
    (hresolves : Resolves parents resolve start v)
    (hstops : visit parents resolve fuel start w ≠ .error .running) :
    ∃ w', visit parents resolve fuel start w = .ok w' := by
  rw [visit] at hstops ⊢
  split
  · exact ⟨w, rfl⟩
  · next hunsettled =>
      rw [if_neg hunsettled] at hstops
      split
      · next hnone =>
          rw [hnone] at hstops
          exact absurd rfl hstops
      · next current colour path hclimb =>
          have hpath : ∀ i ∈ path, ∃ v, Resolves parents resolve i v := by
            intro i hi
            rcases climb_reaches fuel hclimb i hi with hmem | ⟨node, hnode, hreaches⟩
            · cases hmem
            · cases hnode
              exact hresolves.above hreaches
          have hlast := (climb_spec fuel (Climb.start _ _) hclimb).1
          have harrived : ∀ node, current = some node → colour node ≠ .onPath := by
            rintro node rfl hmarked
            by_cases hmem : node ∈ path
            · obtain ⟨u, hu⟩ := hpath node hmem
              exact hu.no_circle (hlast.leads.circle node hmem)
            · rw [hlast.others node hmem] at hmarked
              exact h.unmarked node hmarked
          have hnot : ¬ current.any (fun node => colour node = .onPath) = true := by
            intro hany
            obtain ⟨node, hnode, hmarked⟩ := Option.any_eq_true _ _ |>.mp hany
            exact harrived node hnode (of_decide_eq_true hmarked)
          obtain ⟨hdescent, -, -⟩ := h.descent hclimb harrived
          obtain ⟨w', hw'⟩ := hdescent.complete hpath
          rw [if_neg hnot, hw']
          exact ⟨w', rfl⟩

theorem visitAll_complete {n : Nat} (hrows : ∀ i j, parents i = some j → j < n)
    (hstarts : ∀ i ∈ starts, i < n) (h : Steady parents resolve w)
    (hresolves : ∀ i ∈ starts, ∃ v, Resolves parents resolve i v) :
    ∃ w', visitAll parents resolve (n + 1) starts w = .ok w' := by
  induction starts generalizing w with
  | nil => exact ⟨w, rfl⟩
  | cons start starts ih =>
      obtain ⟨v, hv⟩ := hresolves start (List.mem_cons_self ..)
      obtain ⟨w', hw'⟩ := visit_complete h hv
        (visit_stops hrows (hstarts start (List.mem_cons_self ..)))
      rw [visitAll, hw']
      exact ih (fun i hi => hstarts i (List.mem_cons_of_mem _ hi)) (visit_ok h hw').1
        fun i hi => hresolves i (List.mem_cons_of_mem _ hi)

end Duris.ParentWalk
