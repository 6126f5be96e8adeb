import Mathlib.Data.List.Forall2

/-!
# Lists of optional answers

A loop that computes one answer for every element of a list, and gives up at the first element
that has none, is `List.mapM` over `Option`: its answers stand beside the elements.
-/

namespace Duris

variable {α β : Type} {f : α → Option β}

theorem mapM_eq_some_iff {l : List α} :
    ∀ {answers : List β}, l.mapM f = some answers ↔
      List.Forall₂ (fun x answer => f x = some answer) l answers := by
  induction l with
  | nil =>
      intro answers
      rw [List.mapM_nil, List.forall₂_nil_left_iff]
      exact ⟨fun h => (Option.some.inj h).symm, fun h => h ▸ rfl⟩
  | cons x l ih =>
      intro answers
      rw [List.mapM_cons, List.forall₂_cons_left_iff]
      constructor
      · intro h
        obtain ⟨answer, hanswer, h⟩ := Option.bind_eq_some_iff.mp h
        obtain ⟨rest, hrest, h⟩ := Option.bind_eq_some_iff.mp h
        exact ⟨answer, rest, hanswer, ih.mp hrest, (Option.some.inj h).symm⟩
      · rintro ⟨answer, rest, hanswer, hrest, rfl⟩
        rw [hanswer, ih.mpr hrest]
        rfl

theorem mem_of_mapM {l : List α} {answers : List β} (h : l.mapM f = some answers) {answer : β}
    (hanswer : answer ∈ answers) : ∃ x ∈ l, f x = some answer := by
  rw [mapM_eq_some_iff] at h
  induction h with
  | nil => cases hanswer
  | cons hfirst _ ih =>
      rcases List.mem_cons.mp hanswer with rfl | htail
      · exact ⟨_, List.mem_cons_self, hfirst⟩
      · obtain ⟨x, hx, hfx⟩ := ih htail
        exact ⟨x, List.mem_cons_of_mem _ hx, hfx⟩

end Duris
