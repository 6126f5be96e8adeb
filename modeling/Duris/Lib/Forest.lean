import Mathlib.Logic.Relation
import Mathlib.Data.List.Nodup
import Mathlib.Data.List.Perm.Subperm

/-!
# Parent links without a cycle

A table of rows that name their parent is a forest when no row is above itself. What
changes such a table re-parents a part of it, or adds rows: the links that are left then
go within a part or from one part down to another, and `acyclic_of_layers` is the rule
for that. A loop that follows parents with a bound on its steps sees every path of an
acyclic table, if it may take as many steps as there are rows: `Path.length_le`.
-/

namespace Duris.Forest

open Relation

variable {κ : Type} {up up' : κ → κ → Prop}

def Acyclic (up : κ → κ → Prop) : Prop := ∀ k, ¬ TransGen up k k

theorem Acyclic.mono (h : Acyclic up) (hsub : ∀ k p, up' k p → up k p) : Acyclic up' :=
  fun k hcycle => h k (TransGen.mono hsub _ _ hcycle)

/-- Links along which one gets upwards in an acyclic table make no cycle either. -/
theorem Acyclic.of_above (h : Acyclic up) (habove : ∀ k p, up' k p → TransGen up k p) :
    Acyclic up' :=
  fun k hcycle => h k (TransGen.lift' id (fun a b hab => habove a b hab) k k hcycle)

theorem acyclic_of_layers (layer : κ → Nat) (hdown : ∀ k p, up k p → layer p ≤ layer k)
    (hlevel : ∀ n, Acyclic fun k p => up k p ∧ layer k = n ∧ layer p = n) : Acyclic up := by
  have hpath : ∀ {k p}, TransGen up k p → layer p ≤ layer k ∧
      (layer p = layer k →
        TransGen (fun a b => up a b ∧ layer a = layer k ∧ layer b = layer k) k p) := by
    intro k p hpath
    induction hpath with
    | single hlink => exact ⟨hdown _ _ hlink, fun heq => .single ⟨hlink, rfl, heq⟩⟩
    | @tail a b hka hlink ih =>
        have hle := hdown _ _ hlink
        refine ⟨Nat.le_trans hle ih.1, fun heq => ?_⟩
        have hlayer : layer a = layer k := Nat.le_antisymm ih.1 (heq ▸ hle)
        exact (ih.2 hlayer).tail ⟨hlink, hlayer, heq⟩
  exact fun k hcycle => hlevel (layer k) k ((hpath hcycle).2 rfl)

/-- The way up from a node ends. -/
def Grounded (up : κ → κ → Prop) (k : κ) : Prop :=
  ∃ top, ReflTransGen up k top ∧ ∀ p, ¬ up top p

theorem Grounded.of_top {k : κ} (h : ∀ p, ¬ up k p) : Grounded up k := ⟨k, .refl, h⟩

theorem Grounded.of_link {k p : κ} (hlink : up k p) (h : Grounded up p) : Grounded up k := by
  obtain ⟨top, hpath, hend⟩ := h
  exact ⟨top, .head hlink hpath, hend⟩

theorem acyclic_of_grounded (hfun : ∀ k p q, up k p → up k q → p = q)
    (hgrounded : ∀ k, Grounded up k) : Acyclic up := by
  intro k hcycle
  have hround : ∀ {p}, ReflTransGen up k p → TransGen up p k := by
    intro p hp
    induction hp with
    | refl => exact hcycle
    | @tail a b _ hlink ih =>
        obtain ⟨c, hac, hck⟩ := TransGen.head'_iff.mp ih
        rw [hfun a b c hlink hac]
        exact hcycle.trans_right hck
  obtain ⟨top, hpath, hend⟩ := hgrounded k
  obtain ⟨p, hlink, _⟩ := TransGen.head'_iff.mp (hround hpath)
  exact hend p hlink

/-- `n` links up from one node to another. -/
inductive Path (up : κ → κ → Prop) : Nat → κ → κ → Prop
  | refl (k : κ) : Path up 0 k k
  | step {n : Nat} {k p top : κ} : up k p → Path up n p top → Path up (n + 1) k top

namespace Path

theorem reaches {n : Nat} {k top : κ} (h : Path up n k top) : ReflTransGen up k top := by
  induction h with
  | refl k => exact .refl
  | step hlink _ ih => exact .head hlink ih

theorem of_reaches {k top : κ} (h : ReflTransGen up k top) : ∃ n, Path up n k top := by
  induction h using ReflTransGen.head_induction_on with
  | refl => exact ⟨0, .refl _⟩
  | head hlink _ ih =>
      obtain ⟨n, hpath⟩ := ih
      exact ⟨n + 1, .step hlink hpath⟩

/-- A path passes no node twice, so it has no more links than there are nodes that link. -/
theorem length_le (hacyclic : Acyclic up) {nodes : List κ}
    (hnodes : ∀ k p, up k p → k ∈ nodes) {n : Nat} {k top : κ} (h : Path up n k top) :
    n ≤ nodes.length := by
  suffices ∃ passed : List κ, passed.length = n ∧ passed.Nodup ∧
      ∀ x ∈ passed, x ∈ nodes ∧ ReflTransGen up k x by
    obtain ⟨passed, rfl, hnodup, hpassed⟩ := this
    exact (hnodup.subperm fun x hx => (hpassed x hx).1).length_le
  induction h with
  | refl k => exact ⟨[], rfl, .nil, by simp⟩
  | @step n k p top hlink _ ih =>
      obtain ⟨passed, hlength, hnodup, hpassed⟩ := ih
      refine ⟨k :: passed, by rw [List.length_cons, hlength], ?_, fun x hx => ?_⟩
      · refine List.nodup_cons.mpr ⟨fun hk => ?_, hnodup⟩
        exact hacyclic k (TransGen.head' hlink (hpassed k hk).2)
      · rcases List.mem_cons.mp hx with rfl | hx
        · exact ⟨hnodes _ _ hlink, .refl⟩
        · exact ⟨(hpassed x hx).1, .head hlink (hpassed x hx).2⟩

end Path

/-- The child of `top` at or above a node, `n` links up. -/
inductive Branch (up : κ → κ → Prop) (top : κ) : Nat → κ → κ → Prop
  | child {k : κ} (link : up k top) : Branch up top 0 k k
  | under {n : Nat} {k p child : κ} (link : up k p) (ne : p ≠ top)
      (rest : Branch up top n p child) : Branch up top (n + 1) k child

namespace Branch

variable {top : κ}

variable {n : Nat} {child : κ}

theorem link {k : κ} (h : Branch up top n k child) : up child top := by
  induction h with
  | child hlink => exact hlink
  | under _ _ _ ih => exact ih

theorem unique (hfun : ∀ k p q, up k p → up k q → p = q) {m : Nat} {k child' : κ}
    (h : Branch up top n k child) (h' : Branch up top m k child') : n = m ∧ child = child' := by
  induction h generalizing m with
  | child hlink =>
      cases h' with
      | child _ => exact ⟨rfl, rfl⟩
      | under hlink' hne' _ => exact absurd (hfun _ _ _ hlink' hlink) hne'
  | under hlink hne' _ ih =>
      cases h' with
      | child hlink' => exact absurd (hfun _ _ _ hlink hlink') hne'
      | under hlink' _ hrest =>
          rw [hfun _ _ _ hlink' hlink] at hrest
          obtain ⟨rfl, rfl⟩ := ih hrest
          exact ⟨rfl, rfl⟩

theorem of_path {k : κ} (h : Path up n k top) (hne : k ≠ top) :
    ∃ m < n, ∃ child, Branch up top m k child := by
  generalize htop : top = other at h
  induction h with
  | refl k => exact absurd htop.symm hne
  | @step n k p other hlink hrest ih =>
      subst htop
      by_cases hp : p = top
      · exact ⟨0, Nat.succ_pos n, k, .child (hp ▸ hlink)⟩
      · obtain ⟨m, hm, child, hbranch⟩ := ih hp rfl
        exact ⟨m + 1, Nat.succ_lt_succ hm, child, .under hlink hp hbranch⟩

theorem mono {up' : κ → κ → Prop} (hsub : ∀ k p, up k p → up' k p) {k : κ}
    (h : Branch up top n k child) : Branch up' top n k child := by
  induction h with
  | child hlink => exact .child (hsub _ _ hlink)
  | under hlink hne' _ ih => exact .under (hsub _ _ hlink) hne' ih

end Branch

end Duris.Forest
