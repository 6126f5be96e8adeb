import Mathlib.Data.List.Basic
import Mathlib.Data.List.Infix

/-!
# Frames that take turns on a wire

Several channels write to one wire. Each has a list of frames it was given, and the wire
shows which channel every item came from. `Framed` says that the wire is whole frames,
each channel's in the order it was given them, up to one that is not finished: what a
reader who knows the frames of no channel but one can still take apart.

A channel stands at a boundary when what it has sent is whole frames. One more item keeps
the wire framed when every other channel stands at a boundary, and only then.
-/

namespace Duris

variable {κ β : Type} [DecidableEq κ]

def sentOn (wire : List (κ × β)) (k : κ) : List β :=
  (wire.filter fun item => item.1 = k).map Prod.snd

def tagged (frames : List (κ × List β)) : List (κ × β) :=
  frames.flatMap fun frame => frame.2.map (frame.1, ·)

def framesOn (frames : List (κ × List β)) (k : κ) : List (List β) :=
  (frames.filter fun frame => frame.1 = k).map Prod.snd

/-- The wire is the beginning of whole frames, each channel's the first it accepted. -/
def Framed (accepted : κ → List (List β)) (wire : List (κ × β)) : Prop :=
  ∃ frames, wire <+: tagged frames ∧ ∀ k, framesOn frames k <+: accepted k

/-- A channel that accepted these frames and sent these items is not inside a frame. -/
def Boundary (accepted : List (List β)) (items : List β) : Prop :=
  ∃ whole ∈ accepted.inits, items = whole.flatten

instance [DecidableEq β] (accepted : List (List β)) (items : List β) :
    Decidable (Boundary accepted items) :=
  inferInstanceAs (Decidable (∃ whole ∈ accepted.inits, items = whole.flatten))

section Parts

variable (before after : List (κ × β)) (frames others : List (κ × List β)) (k : κ)

omit [DecidableEq κ] in
@[simp] theorem tagged_append : tagged (frames ++ others) = tagged frames ++ tagged others :=
  List.flatMap_append

omit [DecidableEq κ] in
theorem tagged_cons (items : List β) :
    tagged ((k, items) :: frames) = items.map (k, ·) ++ tagged frames :=
  List.flatMap_cons

omit [DecidableEq κ] in
theorem tagged_singleton (items : List β) : tagged [(k, items)] = items.map (k, ·) :=
  List.flatMap_singleton ..

@[simp] theorem sentOn_append : sentOn (before ++ after) k = sentOn before k ++ sentOn after k := by
  unfold sentOn
  rw [List.filter_append, List.map_append]

theorem sentOn_map_same (items : List β) : sentOn (items.map (k, ·)) k = items := by
  unfold sentOn
  rw [List.filter_eq_self.mpr (by simp), List.map_map]
  exact List.map_id items

theorem sentOn_map_other {j : κ} (hne : j ≠ k) (items : List β) :
    sentOn (items.map (j, ·)) k = [] := by
  unfold sentOn
  rw [List.filter_eq_nil_iff.mpr (by simp [hne]), List.map_nil]

@[simp] theorem framesOn_append :
    framesOn (frames ++ others) k = framesOn frames k ++ framesOn others k := by
  unfold framesOn
  rw [List.filter_append, List.map_append]

theorem framesOn_same (items : List β) : framesOn [(k, items)] k = [items] := by
  simp [framesOn]

theorem framesOn_other {j : κ} (hne : j ≠ k) (items : List β) : framesOn [(j, items)] k = [] := by
  simp [framesOn, hne]

theorem sentOn_tagged : sentOn (tagged frames) k = (framesOn frames k).flatten := by
  induction frames with
  | nil => rfl
  | cons frame frames ih =>
      rw [tagged_cons, ← List.singleton_append, framesOn_append, sentOn_append, ih,
        List.flatten_append]
      congr 1
      by_cases hsame : frame.1 = k
      · subst hsame
        rw [sentOn_map_same, framesOn_same, List.flatten_singleton]
      · rw [sentOn_map_other k hsame, framesOn_other k hsame, List.flatten_nil]

end Parts

variable {accepted accepted' : κ → List (List β)} {wire : List (κ × β)} {k : κ} {item : β}

omit [DecidableEq κ] in
theorem cut_frames (frames : List (κ × List β)) :
    ∀ {wire : List (κ × β)}, wire <+: tagged frames → wire = [] ∨
      ∃ whole j frame rest part last, frames = whole ++ (j, frame) :: rest ∧
        wire = tagged whole ++ (part ++ [last]).map (j, ·) ∧ part ++ [last] <+: frame := by
  induction frames with
  | nil =>
      intro wire hwire
      exact .inl (List.prefix_nil.mp hwire)
  | cons frame frames ih =>
      obtain ⟨j, items⟩ := frame
      intro wire hwire
      have hfirst : ∀ cut : List β, cut <+: items → cut.map (j, ·) = [] ∨
          ∃ whole j' frame rest part last, (j, items) :: frames = whole ++ (j', frame) :: rest ∧
            cut.map (j, ·) = tagged whole ++ (part ++ [last]).map (j', ·) ∧
            part ++ [last] <+: frame := by
        intro cut hcut
        rcases List.eq_nil_or_concat cut with rfl | ⟨part, last, rfl⟩
        · exact .inl rfl
        · rw [List.concat_eq_append] at hcut ⊢
          exact .inr ⟨[], j, items, frames, part, last, rfl, rfl, hcut⟩
      rw [tagged_cons] at hwire
      rcases List.prefix_or_prefix_of_prefix hwire (List.prefix_append _ _) with hcut | ⟨later, rfl⟩
      · obtain ⟨cut, hitems, rfl⟩ := List.prefix_map_iff.mp hcut
        exact hfirst cut hitems
      · rcases ih ((List.prefix_append_right_inj _).mp hwire) with rfl | hlater
        · rw [List.append_nil]
          exact hfirst items List.prefix_rfl
        · obtain ⟨whole, j', frame, rest, part, last, rfl, rfl, hpart⟩ := hlater
          refine .inr ⟨(j, items) :: whole, j', frame, rest, part, last, rfl, ?_, hpart⟩
          rw [tagged_cons, List.append_assoc]

theorem Framed.cut (h : Framed accepted wire) : wire = [] ∨
    ∃ whole j frame part last, wire = tagged whole ++ (part ++ [last]).map (j, ·) ∧
      part ++ [last] <+: frame ∧ ∀ k, framesOn (whole ++ [(j, frame)]) k <+: accepted k := by
  obtain ⟨frames, hwire, haccepted⟩ := h
  rcases cut_frames frames hwire with hnil | ⟨whole, j, frame, rest, part, last, rfl, rfl, hpart⟩
  · exact .inl hnil
  · refine .inr ⟨whole, j, frame, part, last, rfl, hpart, fun k => ?_⟩
    have hall := haccepted k
    rw [← List.singleton_append, ← List.append_assoc, framesOn_append] at hall
    exact (List.prefix_append _ _).trans hall

theorem framed_nil : Framed accepted ([] : List (κ × β)) :=
  ⟨[], List.prefix_rfl, fun _ => List.nil_prefix⟩

theorem Framed.mono (h : Framed accepted wire) (hmore : ∀ k, accepted k <+: accepted' k) :
    Framed accepted' wire := by
  obtain ⟨frames, hwire, haccepted⟩ := h
  exact ⟨frames, hwire, fun k => (haccepted k).trans (hmore k)⟩

theorem next_frame {whole all : List (List β)} (hnonempty : ∀ frame ∈ all, frame ≠ [])
    (hwhole : whole <+: all) (hnext : whole.flatten ++ [item] <+: all.flatten) :
    ∃ frame, [item] <+: frame ∧ whole ++ [frame] <+: all := by
  obtain ⟨rest, rfl⟩ := hwhole
  rw [List.flatten_append] at hnext
  have hrest := (List.prefix_append_right_inj _).mp hnext
  cases rest with
  | nil => cases List.prefix_nil.mp hrest
  | cons frame rest =>
      refine ⟨frame, ?_, ⟨rest, by rw [List.append_assoc, List.singleton_append]⟩⟩
      have hsome : frame ≠ [] :=
        hnonempty frame (List.mem_append_right _ List.mem_cons_self)
      rw [List.flatten_cons] at hrest
      refine List.prefix_of_prefix_length_le hrest (List.prefix_append _ _) ?_
      exact List.length_pos_iff.mpr hsome

theorem boundary_inside {whole all : List (List β)} {frame part : List β} {last : β}
    (hall : whole ++ [frame] <+: all) (hpart : part ++ [last] <+: frame)
    (hboundary : Boundary all (whole.flatten ++ (part ++ [last]))) : part ++ [last] = frame := by
  obtain ⟨sent, hsent, hitems⟩ := hboundary
  rw [List.mem_inits] at hsent
  rcases List.prefix_or_prefix_of_prefix hsent hall with hshort | ⟨rest, rfl⟩
  · rcases List.prefix_concat_iff.mp hshort with rfl | hwhole
    · rw [List.flatten_append, List.flatten_singleton] at hitems
      exact List.append_cancel_left hitems
    · have hle := hwhole.flatten.length_le
      rw [← hitems] at hle
      simp only [List.length_append, List.length_singleton] at hle
      omega
  · rw [List.flatten_append, List.flatten_append, List.flatten_singleton,
      List.append_assoc] at hitems
    have hframe := List.append_cancel_left hitems
    exact hpart.eq_of_length_le (by rw [hframe, List.length_append]; exact Nat.le_add_right _ _)

theorem Framed.snoc (h : Framed accepted wire)
    (hnonempty : ∀ k, ∀ frame ∈ accepted k, frame ≠ [])
    (hothers : ∀ j, j ≠ k → Boundary (accepted j) (sentOn wire j))
    (hnext : sentOn wire k ++ [item] <+: (accepted k).flatten) :
    Framed accepted (wire ++ [(k, item)]) := by
  -- After whole frames `whole`, the channel begins its next one.
  have hbegin : ∀ whole : List (κ × List β), wire = tagged whole →
      (∀ k, framesOn whole k <+: accepted k) → Framed accepted (wire ++ [(k, item)]) := by
    rintro whole rfl hwhole
    rw [sentOn_tagged] at hnext
    obtain ⟨frame, hitem, hframe⟩ := next_frame (hnonempty k) (hwhole k) hnext
    refine ⟨whole ++ [(k, frame)], ?_, fun j => ?_⟩
    · rw [tagged_append, tagged_singleton]
      exact (List.prefix_append_right_inj _).mpr (hitem.map (k, ·))
    · rw [framesOn_append]
      by_cases hsame : k = j
      · subst hsame
        rw [framesOn_same]
        exact hframe
      · rw [framesOn_other j hsame, List.append_nil]
        exact hwhole j
  rcases h.cut with rfl | ⟨whole, j, frame, part, last, rfl, hpart, haccepted⟩
  · exact hbegin [] rfl fun _ => List.nil_prefix
  · have hdone : part ++ [last] = frame → Framed accepted
        (tagged whole ++ (part ++ [last]).map (j, ·) ++ [(k, item)]) := by
      rintro rfl
      refine hbegin (whole ++ [(j, part ++ [last])]) ?_ haccepted
      rw [tagged_append, tagged_singleton]
    have hframes := haccepted j
    rw [framesOn_append, framesOn_same] at hframes
    have hsent : sentOn (tagged whole ++ (part ++ [last]).map (j, ·)) j =
        (framesOn whole j).flatten ++ (part ++ [last]) := by
      rw [sentOn_append, sentOn_tagged, sentOn_map_same]
    by_cases hsame : j = k
    · subst hsame
      by_cases hframe : part ++ [last] = frame
      · exact hdone hframe
      · refine ⟨whole ++ [(j, frame)], ?_, haccepted⟩
        have hboth := hframes.flatten
        rw [List.flatten_append, List.flatten_singleton] at hboth
        rw [hsent, List.append_assoc] at hnext
        have hlonger : part ++ [last] ++ [item] <+: frame := by
          refine (List.prefix_append_right_inj (framesOn whole j).flatten).mp
            (List.prefix_of_prefix_length_le hnext hboth ?_)
          have hlt : (part ++ [last]).length < frame.length :=
            Nat.lt_of_le_of_ne hpart.length_le fun hsame => hframe (hpart.eq_of_length hsame)
          simp only [List.length_append, List.length_singleton] at hlt ⊢
          omega
        rw [tagged_append, tagged_singleton, List.append_assoc]
        refine (List.prefix_append_right_inj _).mpr ?_
        have hmapped := hlonger.map fun b => (j, b)
        rw [List.map_append] at hmapped
        exact hmapped
    · have hboundary := hothers j hsame
      rw [hsent] at hboundary
      exact hdone (boundary_inside hframes hpart hboundary)

theorem Framed.append (items : List β) : ∀ {wire : List (κ × β)}, Framed accepted wire →
    (∀ k, ∀ frame ∈ accepted k, frame ≠ []) →
    (∀ j, j ≠ k → Boundary (accepted j) (sentOn wire j)) →
    sentOn wire k ++ items <+: (accepted k).flatten →
    Framed accepted (wire ++ items.map (k, ·)) := by
  induction items with
  | nil =>
      intro wire h _ _ _
      rw [List.map_nil, List.append_nil]
      exact h
  | cons item items ih =>
      intro wire h hnonempty hothers hnext
      rw [← List.singleton_append, ← List.append_assoc] at hnext
      have hfirst := h.snoc hnonempty hothers ((List.prefix_append _ _).trans hnext)
      rw [List.map_cons, ← List.singleton_append, ← List.append_assoc]
      refine ih hfirst hnonempty ?_ ?_
      · intro j hne
        rw [sentOn_append, ← List.map_singleton, sentOn_map_other j hne.symm, List.append_nil]
        exact hothers j hne
      · rw [sentOn_append, ← List.map_singleton (f := (k, ·)), sentOn_map_same]
        exact hnext

theorem Framed.before {after : List (κ × β)} (h : Framed accepted (wire ++ after)) :
    Framed accepted wire := by
  obtain ⟨frames, hwire, haccepted⟩ := h
  exact ⟨frames, (List.prefix_append _ _).trans hwire, haccepted⟩

/-- What a framed wire ends in was sent while the other channels stood at a boundary. -/
theorem Framed.others (h : Framed accepted (wire ++ [(k, item)])) {j : κ} (hne : j ≠ k) :
    Boundary (accepted j) (sentOn wire j) := by
  rcases h.cut with hnil | ⟨whole, j', frame, part, last, hwire, -, haccepted⟩
  · simp at hnil
  · rw [List.map_append, ← List.append_assoc] at hwire
    obtain ⟨rfl, hlast⟩ := List.append_inj' hwire rfl
    obtain ⟨rfl, -⟩ := Prod.mk.inj (List.singleton_inj.mp hlast)
    refine ⟨framesOn whole j, (List.mem_inits _ _).mpr ?_, ?_⟩
    · have hall := haccepted j
      rw [framesOn_append, framesOn_other j hne.symm, List.append_nil] at hall
      exact hall
    · rw [sentOn_append, sentOn_tagged, sentOn_map_other j hne.symm, List.append_nil]

end Duris
