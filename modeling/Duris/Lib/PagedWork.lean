import Mathlib.Data.List.Basic

/-!
# Work that is done in pages

A work is run page by page: a run of a page says that the work is finished, or at which
cursor the next page starts, or neither, and then the page has to be run again. The log is
kept newest first; a log entry can also say that whatever was under way is abandoned.

`MayRun` is the only rule: the next page is the last one again, or the one that followed
it, or the first page of a new work after one that finished. A log whose every page could
be run when it was (`Chained`) skips no page, and when new works take new names no work
comes back after another was begun (`Contiguous`).
-/

namespace Duris.PagedWork

variable {ω κ : Type}

inductive Verdict (κ : Type) where
  | again
  | more (next : κ)
  | finished
  deriving DecidableEq

structure Page (ω κ : Type) where
  work : ω
  cursor : κ
  deriving DecidableEq

inductive Entry (ω κ : Type) where
  | abandoned
  | ran (page : Page ω κ) (verdict : Verdict κ)
  deriving DecidableEq

def works : List (Entry ω κ) → List ω
  | [] => []
  | .abandoned :: log => works log
  | .ran page _ :: log => page.work :: works log

def Repeats : List (Entry ω κ) → Page ω κ → Prop
  | .ran last _ :: _, page => page = last
  | _, _ => False

def Continues : List (Entry ω κ) → Page ω κ → Prop
  | .ran last (.more next) :: _, page => page = ⟨last.work, next⟩
  | _, _ => False

def MayStart : List (Entry ω κ) → Prop
  | .ran _ .finished :: _ => True
  | .ran _ _ :: _ => False
  | _ => True

variable [Zero κ]

/-- The page may be run after this log. Works are told apart by their names when `distinct`
holds. -/
def MayRun (distinct : Prop) (log : List (Entry ω κ)) (page : Page ω κ) : Prop :=
  Repeats log page ∨ Continues log page ∨
    (MayStart log ∧ page.cursor = 0 ∧ (distinct → page.work ∉ works log))

/-- Every page of the log could be run when it was. -/
def Chained (distinct : Prop) : List (Entry ω κ) → Prop
  | [] => True
  | .abandoned :: log => Chained distinct log
  | .ran page _ :: log => MayRun distinct log page ∧ Chained distinct log

/-- A work that is in the list twice is there in one piece. -/
def Contiguous : List ω → Prop
  | [] => True
  | work :: older => (work ∈ older → older.head? = some work) ∧ Contiguous older

variable {distinct : Prop} {log : List (Entry ω κ)} {page : Page ω κ}

theorem mayRun_again (verdict : Verdict κ) : MayRun distinct (.ran page verdict :: log) page :=
  .inl rfl

theorem mayRun_more (next : κ) :
    MayRun distinct (.ran page (.more next) :: log) ⟨page.work, next⟩ :=
  .inr (.inl rfl)

theorem mayRun_start (hstart : MayStart log) {work : ω} (hnew : distinct → work ∉ works log) :
    MayRun distinct log ⟨work, 0⟩ :=
  .inr (.inr ⟨hstart, rfl, hnew⟩)

theorem MayRun.weaken (h : MayRun distinct log page) : MayRun False log page :=
  h.imp_right fun h => h.imp_right fun ⟨hstart, hcursor, _⟩ => ⟨hstart, hcursor, False.elim⟩

theorem Chained.weaken {log : List (Entry ω κ)} (h : Chained distinct log) :
    Chained False log := by
  induction log with
  | nil => trivial
  | cons entry log ih =>
      cases entry with
      | abandoned => exact ih h
      | ran page verdict => exact ⟨h.1.weaken, ih h.2⟩

/-- A page that may be run is of the last work or, when works have distinct names, of one
that is not in the log. -/
theorem MayRun.work (h : MayRun True log page) (hmem : page.work ∈ works log) :
    (works log).head? = some page.work := by
  rcases h with hagain | hmore | ⟨_, _, hnew⟩
  · unfold Repeats at hagain
    split at hagain
    · rw [hagain]
      rfl
    · cases hagain
  · unfold Continues at hmore
    split at hmore
    · rw [hmore]
      rfl
    · cases hmore
  · exact absurd hmem (hnew trivial)

theorem Chained.contiguous {log : List (Entry ω κ)} (h : Chained True log) :
    Contiguous (works log) := by
  induction log with
  | nil => trivial
  | cons entry log ih =>
      cases entry with
      | abandoned => exact ih h
      | ran page verdict => exact ⟨h.1.work, ih h.2⟩

end Duris.PagedWork
