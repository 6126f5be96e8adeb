import Duris.Economy.CollectorDueQueue

/-!
# The two indexes of the due queue

`Good` says that the set is in order and has exactly the pairs of the map. Every call keeps
it, whatever it is called with, and what a call does is then said by the map alone: which
deadlines change, and to what. The set is only a way of reading the map in the order of
time, and that is what a lease gets: the listings due, from the front.
-/

namespace Duris.Economy.Collector

theorem dueLess_iff {left right : Due} :
    dueLess left right = true ↔ left.1 < right.1 ∨ left.1 = right.1 ∧ left.2 < right.2 := by
  simp [dueLess]

theorem dueLess_strictTotal : StrictTotal dueLess where
  irrefl due := by
    rw [← Bool.not_eq_true, dueLess_iff]
    rintro (hlt | ⟨-, hlt⟩)
    · exact BitVec.lt_irrefl _ hlt
    · exact BitVec.lt_irrefl _ hlt
  trans {a b c} hab hbc := by
    rw [dueLess_iff] at *
    rcases hab with hab | ⟨heq, hab⟩
    · rcases hbc with hbc | ⟨heq', -⟩
      · exact .inl (BitVec.lt_trans hab hbc)
      · exact .inl (heq' ▸ hab)
    · rcases hbc with hbc | ⟨heq', hbc⟩
      · exact .inl (heq ▸ hbc)
      · exact .inr ⟨heq.trans heq', BitVec.lt_trans hab hbc⟩
  eq_of_not_less {a b} hab hba := by
    rw [← Bool.not_eq_true, dueLess_iff, not_or, not_and] at hab hba
    have hfirst : a.1 = b.1 := BitVec.le_antisymm (BitVec.not_lt.mp hba.1) (BitVec.not_lt.mp hab.1)
    exact Prod.ext hfirst (BitVec.le_antisymm (BitVec.not_lt.mp (hba.2 hfirst.symm))
      (BitVec.not_lt.mp (hab.2 hfirst)))

/-! ## The set -/

section Set

variable {set : List Due} {due other : Due}

theorem mem_emplace : other ∈ emplace set due ↔ other = due ∨ other ∈ set := by
  unfold emplace
  split
  · next hmem =>
      refine ⟨.inr, ?_⟩
      rintro (rfl | h)
      · exact hmem
      · exact h
  · rw [(Sorted.Ordered.insert_perm set due).mem_iff, List.mem_cons]

theorem ordered_emplace (h : Sorted.Ordered dueLess id set) :
    Sorted.Ordered dueLess id (emplace set due) := by
  unfold emplace
  split
  · exact h
  · next hmem =>
      refine h.insert dueLess_strictTotal fun other hother heq => hmem ?_
      rw [id_eq, id_eq] at heq
      exact heq ▸ hother

theorem mem_erase (h : Sorted.Ordered dueLess id set) :
    other ∈ set.erase due ↔ other ≠ due ∧ other ∈ set := by
  have hnodup := h.nodup dueLess_strictTotal
  rw [List.map_id] at hnodup
  exact hnodup.mem_erase_iff

theorem ordered_erase (h : Sorted.Ordered dueLess id set) :
    Sorted.Ordered dueLess id (set.erase due) := h.sublist List.erase_sublist

end Set

namespace DueQueue

/-- The set is in order and holds exactly the pairs of the map. -/
structure Good (queue : DueQueue) : Prop where
  ordered : Sorted.Ordered dueLess id queue.byDeadline
  agree : ∀ deadline listing, (deadline, listing) ∈ queue.byDeadline ↔
    queue.byListing.lookup listing = some deadline

section Keeps

variable {queue : DueQueue} {listing deadline found : BitVec 64}

theorem good_empty : Good {} where
  ordered := List.Pairwise.nil
  agree deadline listing := by
    simp only [List.not_mem_nil, false_iff]
    intro h
    cases h

/-- The one change every call makes: the pair of a listing goes, whatever it was, and another
comes for it. -/
theorem Good.move (h : Good queue) {set : List Due} (hordered : Sorted.Ordered dueLess id set)
    (hset : ∀ due, due ∈ set ↔ due = (deadline, listing) ∨
      due ∈ queue.byDeadline ∧ due.2 ≠ listing) :
    Good { byDeadline := set, byListing := queue.byListing.insert listing deadline } where
  ordered := hordered
  agree other name := by
    rw [hset, h.agree, Prod.mk.injEq]
    by_cases hname : name = listing
    · subst hname
      rw [AList.lookup_insert]
      simp [eq_comm]
    · rw [AList.lookup_insert_ne hname]
      simp [hname]

theorem Good.mem_other (h : Good queue) (hfound : queue.byListing.lookup listing = some found)
    {due : Due} : (due ≠ (found, listing) ∧ due ∈ queue.byDeadline) ↔
      due ∈ queue.byDeadline ∧ due.2 ≠ listing := by
  obtain ⟨other, name⟩ := due
  rw [h.agree]
  constructor
  · rintro ⟨hne, hother⟩
    refine ⟨hother, ?_⟩
    rintro rfl
    rw [hfound] at hother
    exact hne (by rw [Option.some.inj hother])
  · rintro ⟨hother, hname⟩
    exact ⟨fun heq => hname (Prod.mk.inj heq).2, hother⟩

theorem Good.erase (h : Good queue) (listing : BitVec 64) : Good (queue.erase listing) := by
  unfold DueQueue.erase
  split
  · exact h
  · next found hfound =>
      refine ⟨ordered_erase h.ordered, fun other name => ?_⟩
      rw [mem_erase h.ordered, h.mem_other hfound, h.agree]
      by_cases hname : name = listing
      · subst hname
        rw [AList.lookup_erase]
        simp
      · rw [AList.lookup_erase_ne hname]
        simp [hname]

theorem lookup_erase (queue : DueQueue) (listing other : BitVec 64) :
    (queue.erase listing).byListing.lookup other =
      if other = listing then none else queue.byListing.lookup other := by
  unfold DueQueue.erase
  split
  · next habsent =>
      split
      · next heq => rw [heq, habsent]
      · rfl
  · split
    · next heq => rw [heq, AList.lookup_erase]
    · next hne => rw [AList.lookup_erase_ne hne]

theorem Good.schedule (h : Good queue) (listing deadline : BitVec 64) :
    Good (queue.schedule listing deadline) := by
  unfold DueQueue.schedule
  split
  · next habsent =>
      refine h.move (ordered_emplace h.ordered) fun due => ?_
      rw [mem_emplace]
      refine or_congr_right ⟨fun hmem => ⟨hmem, ?_⟩, And.left⟩
      rintro rfl
      rw [show due = (due.1, due.2) from rfl, h.agree, habsent] at hmem
      cases hmem
  · next previous hprevious =>
      split
      · exact h
      · next hne =>
          refine h.move (ordered_erase (ordered_emplace h.ordered)) fun due => ?_
          rw [mem_erase (ordered_emplace h.ordered), mem_emplace, and_or_left,
            h.mem_other hprevious]
          refine or_congr_left ⟨And.right, ?_⟩
          rintro rfl
          exact ⟨fun heq => hne (Prod.mk.inj heq).1.symm, rfl⟩

theorem Good.update (h : Good queue) (entry : Record) : Good (queue.update entry).2 := by
  unfold DueQueue.update
  split
  · exact h
  · cases entry.status with
    | candidate => exact h.schedule ..
    | collected => exact h.schedule ..
    | available =>
        dsimp only
        split
        · exact h.erase _
        · exact h.schedule ..
    | purchased => exact h.erase _
    | cancelled => exact h.erase _
    | expired => exact h.erase _

theorem Good.defer (h : Good queue) (listing deadline : BitVec 64) :
    Good (queue.defer listing deadline).2 := by
  unfold DueQueue.defer
  split
  · exact h
  · split
    · exact h
    · next previous hprevious =>
        split
        · exact h
        · next hlater =>
            split
            · exact h
            · refine h.move (ordered_erase (ordered_emplace h.ordered)) fun due => ?_
              rw [mem_erase (ordered_emplace h.ordered), mem_emplace, and_or_left,
                h.mem_other hprevious]
              refine or_congr_left ⟨And.right, ?_⟩
              rintro rfl
              refine ⟨fun heq => hlater ?_, rfl⟩
              rw [(Prod.mk.inj heq).1]
              exact BitVec.le_refl _

theorem lookup_defer (queue : DueQueue) (listing deadline other : BitVec 64) :
    (queue.defer listing deadline).2.byListing.lookup other = queue.byListing.lookup other ∨
      ∃ previous, queue.byListing.lookup other = some previous ∧ previous < deadline ∧
        (queue.defer listing deadline).2.byListing.lookup other = some deadline := by
  unfold DueQueue.defer
  split
  · exact .inl rfl
  · split
    · exact .inl rfl
    · next previous hprevious =>
        split
        · exact .inl rfl
        · next hlater =>
            split
            · exact .inl rfl
            · by_cases hother : other = listing
              · subst hother
                exact .inr ⟨previous, hprevious, BitVec.not_le.mp hlater, AList.lookup_insert _⟩
              · exact .inl (AList.lookup_insert_ne hother)

end Keeps

/-! ## Leases -/

section Leases

variable {queue : DueQueue} {now leaseUntil : BitVec 64} {limit : Nat}

theorem Good.leaseOne (h : Good queue) (leaseUntil listing : BitVec 64) :
    Good (leaseOne leaseUntil queue listing) := by
  unfold DueQueue.leaseOne
  split
  · exact h
  · next found hfound =>
      split
      · refine h.move (ordered_emplace (ordered_erase h.ordered)) fun due => ?_
        rw [mem_emplace, mem_erase h.ordered, h.mem_other hfound]
      · exact h

theorem Good.lookup_leaseOne (h : Good queue) (leaseUntil listing other : BitVec 64) :
    (DueQueue.leaseOne leaseUntil queue listing).byListing.lookup other =
      if other = listing then (queue.byListing.lookup other).map fun _ => leaseUntil
      else queue.byListing.lookup other := by
  unfold DueQueue.leaseOne
  split
  · next habsent =>
      split
      · next heq => rw [heq, habsent, Option.map_none]
      · rfl
  · next found hfound =>
      rw [if_pos ((h.agree _ _).mpr hfound)]
      split
      · next heq => rw [heq, AList.lookup_insert, hfound, Option.map_some]
      · next hne => rw [AList.lookup_insert_ne hne]

theorem Good.leaseAll (leaseUntil : BitVec 64) : ∀ (result : List (BitVec 64)) {queue : DueQueue},
    Good queue → Good (result.foldl (DueQueue.leaseOne leaseUntil) queue) ∧
      ∀ other, (result.foldl (DueQueue.leaseOne leaseUntil) queue).byListing.lookup other =
        if other ∈ result then (queue.byListing.lookup other).map fun _ => leaseUntil
        else queue.byListing.lookup other := by
  intro result
  induction result with
  | nil => exact fun h => ⟨h, fun other => by rw [if_neg List.not_mem_nil]; rfl⟩
  | cons listing result ih =>
      intro queue h
      obtain ⟨hgood, hlookup⟩ := ih (h.leaseOne leaseUntil listing)
      refine ⟨hgood, fun other => ?_⟩
      rw [List.foldl_cons, hlookup, h.lookup_leaseOne]
      by_cases heq : other = listing <;> by_cases hmem : other ∈ result <;>
        simp [heq, hmem, Option.map_map, Function.comp_def]

theorem Good.leaseDue (h : Good queue) (now : BitVec 64) (limit : Nat) (leaseUntil : BitVec 64) :
    Good (queue.leaseDue now limit leaseUntil).2 := by
  unfold DueQueue.leaseDue
  split
  · exact h
  · exact (Good.leaseAll leaseUntil _ h).1

def dueCount (queue : DueQueue) (now : BitVec 64) : Nat :=
  queue.byListing.entries.countP fun entry => decide (entry.2 ≤ now)

theorem Good.front (h : Good queue) (now : BitVec 64) :
    queue.byDeadline.takeWhile (fun due => decide (due.1 ≤ now)) =
      queue.byDeadline.filter fun due => decide (due.1 ≤ now) := by
  refine h.ordered.takeWhile_eq_filter fun {a b} hless hdue => ?_
  rw [decide_eq_true_eq] at *
  rcases dueLess_iff.mp hless with hlt | ⟨heq, -⟩
  · exact BitVec.le_trans (BitVec.le_of_lt hlt) hdue
  · exact heq ▸ hdue

theorem Good.perm (h : Good queue) :
    queue.byDeadline.Perm (queue.byListing.entries.map fun entry => (entry.2, entry.1)) := by
  have hset := h.ordered.nodup dueLess_strictTotal
  rw [List.map_id] at hset
  have hmap : (queue.byListing.entries.map fun entry => ((entry.2, entry.1) : Due)).Nodup := by
    refine List.Nodup.map (fun left right heq => ?_) queue.byListing.nodupKeys.nodup
    obtain ⟨hdeadline, hlisting⟩ := Prod.mk.inj heq
    exact Sigma.ext hlisting (heq_of_eq hdeadline)
  refine (List.perm_ext_iff_of_nodup hset hmap).mpr fun due => ?_
  rw [show due = (due.1, due.2) from rfl, h.agree, ← Option.mem_def, AList.mem_lookup_iff,
    List.mem_map]
  constructor
  · exact fun hmem => ⟨_, hmem, rfl⟩
  · rintro ⟨entry, hmem, heq⟩
    obtain ⟨hdeadline, hlisting⟩ := Prod.mk.inj heq
    rw [← hdeadline, ← hlisting]
    exact hmem

theorem Good.front_length (h : Good queue) (now : BitVec 64) :
    (queue.byDeadline.takeWhile fun due => decide (due.1 ≤ now)).length = dueCount queue now := by
  rw [h.front, ← List.countP_eq_length_filter, h.perm.countP_eq, List.countP_map]
  rfl

/-- The listings leased at `now`, by the map before and after: those due with the least
pairs of deadline and listing, as many as the limit allows, in order. -/
structure Leases (queue after : DueQueue) (now : BitVec 64) (limit : Nat) (leaseUntil : BitVec 64)
    (result : List (BitVec 64)) : Prop where
  due : ∀ listing ∈ result, ∃ deadline,
    queue.byListing.lookup listing = some deadline ∧ deadline ≤ now
  ascending : result.Pairwise fun left right => ∀ deadline deadline',
    queue.byListing.lookup left = some deadline → queue.byListing.lookup right = some deadline' →
      dueLess (deadline, left) (deadline', right) = true
  least : ∀ listing ∈ result, ∀ other ∉ result, ∀ deadline deadline',
    queue.byListing.lookup listing = some deadline →
      queue.byListing.lookup other = some deadline' → deadline' ≤ now →
        dueLess (deadline, listing) (deadline', other) = true
  nodup : result.Nodup
  count : result.length = min limit (dueCount queue now)
  leased : ∀ listing ∈ result, after.byListing.lookup listing = some leaseUntil
  kept : ∀ listing ∉ result, after.byListing.lookup listing = queue.byListing.lookup listing

variable {deadline listing : BitVec 64}

theorem Good.mem_front (h : Good queue) :
    (deadline, listing) ∈ queue.byDeadline.takeWhile (fun due => decide (due.1 ≤ now)) ↔
      queue.byListing.lookup listing = some deadline ∧ deadline ≤ now := by
  rw [h.front, List.mem_filter, h.agree, decide_eq_true_eq]

theorem mem_selectDue :
    listing ∈ queue.selectDue now limit ↔ ∃ deadline, (deadline, listing) ∈
      (queue.byDeadline.takeWhile fun due => decide (due.1 ≤ now)).take limit := by
  rw [selectDue, List.mem_map]
  constructor
  · rintro ⟨due, hmem, rfl⟩
    exact ⟨due.1, hmem⟩
  · rintro ⟨deadline, hmem⟩
    exact ⟨_, hmem, rfl⟩

theorem Good.of_mem_selectDue (h : Good queue) (hmem : listing ∈ queue.selectDue now limit) :
    ∃ deadline, queue.byListing.lookup listing = some deadline ∧ deadline ≤ now := by
  obtain ⟨deadline, hmem⟩ := mem_selectDue.mp hmem
  exact ⟨deadline, h.mem_front.mp (List.mem_of_mem_take hmem)⟩

theorem Good.take_of_selectDue (h : Good queue) (hmem : listing ∈ queue.selectDue now limit)
    (hdeadline : queue.byListing.lookup listing = some deadline) : (deadline, listing) ∈
      (queue.byDeadline.takeWhile fun due => decide (due.1 ≤ now)).take limit := by
  obtain ⟨deadline', hmem⟩ := mem_selectDue.mp hmem
  have hfound := (h.mem_front.mp (List.mem_of_mem_take hmem)).1
  rw [Option.some.inj (hdeadline.symm.trans hfound)]
  exact hmem

theorem Good.front_ordered (h : Good queue) (now : BitVec 64) : Sorted.Ordered dueLess id
    (queue.byDeadline.takeWhile fun due => decide (due.1 ≤ now)) :=
  h.ordered.sublist (List.takeWhile_sublist _)

theorem Good.selectDue_nodup (h : Good queue) : (queue.selectDue now limit).Nodup := by
  have hordered := (h.front_ordered now).sublist (List.take_sublist limit _)
  have hnodup := hordered.nodup dueLess_strictTotal
  rw [List.map_id] at hnodup
  refine hnodup.map_on fun left hleft right hright heq => ?_
  have hleft := (h.mem_front.mp (List.mem_of_mem_take hleft)).1
  have hright := (h.mem_front.mp (List.mem_of_mem_take hright)).1
  rw [heq] at hleft
  exact Prod.ext (Option.some.inj (hleft.symm.trans hright)) heq

theorem Good.selectDue_least (h : Good queue) {other deadline' : BitVec 64}
    (hmem : listing ∈ queue.selectDue now limit) (hother : other ∉ queue.selectDue now limit)
    (hdeadline : queue.byListing.lookup listing = some deadline)
    (hdeadline' : queue.byListing.lookup other = some deadline') (hdue : deadline' ≤ now) :
    dueLess (deadline, listing) (deadline', other) = true := by
  have hfront := h.mem_front.mpr ⟨hdeadline', hdue⟩
  -- what is due and was not taken was dropped, and all that was taken is below
  rw [← List.take_append_drop limit (List.takeWhile _ _), List.mem_append] at hfront
  have hordered := h.front_ordered now
  rw [← List.take_append_drop limit (List.takeWhile _ _), Sorted.Ordered,
    List.pairwise_append] at hordered
  rcases hfront with htaken | hdropped
  · exact absurd (mem_selectDue.mpr ⟨_, htaken⟩) hother
  · exact hordered.2.2 _ (h.take_of_selectDue hmem hdeadline) _ hdropped

theorem Good.leases (h : Good queue) (limit : Nat) (hlater : now < leaseUntil) :
    Leases queue (queue.leaseDue now limit leaseUntil).2 now limit leaseUntil
      (queue.leaseDue now limit leaseUntil).1 := by
  by_cases hlimit : limit = 0
  · subst hlimit
    rw [DueQueue.leaseDue, if_pos (.inl rfl)]
    refine ⟨?_, List.Pairwise.nil, ?_, List.nodup_nil, by simp, ?_, fun _ _ => rfl⟩ <;>
      exact fun _ hmem => absurd hmem List.not_mem_nil
  · rw [DueQueue.leaseDue, if_neg (not_or.mpr ⟨hlimit, BitVec.not_le.mpr hlater⟩)]
    have hafter := (Good.leaseAll leaseUntil (queue.selectDue now limit) h).2
    refine ⟨fun _ => h.of_mem_selectDue, ?_, fun _ hmem _ hother _ _ hdeadline hdeadline' =>
      h.selectDue_least hmem hother hdeadline hdeadline', h.selectDue_nodup, ?_,
      fun listing hmem => ?_, fun listing hmem => ?_⟩
    · have hordered := (h.front_ordered now).sublist (List.take_sublist limit _)
      refine List.pairwise_map.mpr
        (List.Pairwise.imp_of_mem (fun hleft hright hless => ?_) hordered)
      rintro deadline deadline' hdeadline hdeadline'
      have hleft := (h.mem_front.mp (List.mem_of_mem_take hleft)).1
      have hright := (h.mem_front.mp (List.mem_of_mem_take hright)).1
      rw [← Option.some.inj (hleft.symm.trans hdeadline),
        ← Option.some.inj (hright.symm.trans hdeadline')]
      exact hless
    · rw [selectDue, List.length_map, List.length_take, h.front_length]
    · obtain ⟨deadline, hfound, -⟩ := h.of_mem_selectDue hmem
      rw [hafter, if_pos hmem, hfound, Option.map_some]
    · rw [hafter, if_neg hmem]

theorem Good.lookup_leaseDue (h : Good queue) (now : BitVec 64) (limit : Nat)
    (leaseUntil listing : BitVec 64) :
    (queue.leaseDue now limit leaseUntil).2.byListing.lookup listing =
        queue.byListing.lookup listing ∨
      ∃ deadline, queue.byListing.lookup listing = some deadline ∧ deadline < leaseUntil ∧
        (queue.leaseDue now limit leaseUntil).2.byListing.lookup listing = some leaseUntil := by
  by_cases hlater : now < leaseUntil
  · have hleases := h.leases limit hlater
    by_cases hmem : listing ∈ (queue.leaseDue now limit leaseUntil).1
    · obtain ⟨deadline, hfound, hdue⟩ := hleases.due listing hmem
      have hraised : deadline < leaseUntil := by
        rw [BitVec.lt_def] at *
        rw [BitVec.le_def] at hdue
        omega
      exact .inr ⟨deadline, hfound, hraised, hleases.leased listing hmem⟩
    · exact .inl (hleases.kept listing hmem)
  · rw [DueQueue.leaseDue, if_pos (.inr (BitVec.not_lt.mp hlater))]
    exact .inl rfl

end Leases

end DueQueue

/-! ## Runs -/

section Runs

variable {ι : Type} [DecidableEq ι]

open DueQueue

/-- Every queue is as `Good` has it. -/
def AllGood (queues : ι → DueQueue) : Prop := ∀ queue, Good (queues queue)

theorem allGood_update {queues : ι → DueQueue} (h : AllGood queues) {queue : ι}
    {after : DueQueue} (hafter : Good after) : AllGood (Function.update queues queue after) := by
  intro other
  by_cases hother : other = queue
  · rw [hother, Function.update_self]
    exact hafter
  · rw [Function.update_of_ne hother]
    exact h other

theorem allGood_step {queues : ι → DueQueue} (h : AllGood queues) (call : DueCall ι) :
    AllGood (dueStep queues call) := by
  cases call with
  | update queue entry => exact allGood_update h ((h queue).update entry)
  | defer queue listing deadline => exact allGood_update h ((h queue).defer listing deadline)
  | erase queue listing => exact allGood_update h ((h queue).erase listing)
  | leaseDue queue now limit leaseUntil =>
      exact allGood_update h ((h queue).leaseDue now limit leaseUntil)
  | swap queue other => exact allGood_update (allGood_update h (h other)) (h queue)

theorem allGood_run (calls : List (DueCall ι)) : AllGood (dueRun calls) :=
  run_invariant (P := AllGood) (fun _ call h => allGood_step h call) calls fun _ => good_empty

/-- Where the contents of a queue are after a call. -/
def carried (queue : ι) : DueCall ι → ι
  | .swap left right => if queue = right then left else if queue = left then right else queue
  | _ => queue

def heldStep (held : (ι → DueQueue) × ι) (call : DueCall ι) : (ι → DueQueue) × ι :=
  (dueStep held.1 call, carried held.2 call)

def Changes (listing : BitVec 64) (held : (ι → DueQueue) × ι) : DueCall ι → Prop
  | .update queue entry => queue = held.2 ∧
      ((held.1 queue).update entry).2.byListing.lookup listing ≠
        (held.1 queue).byListing.lookup listing
  | _ => False

theorem run_heldStep (later : List (DueCall ι)) : ∀ held : (ι → DueQueue) × ι,
    run heldStep held later = (run dueStep held.1 later, later.foldl carried held.2) := by
  induction later with
  | nil => exact fun _ => rfl
  | cons call later ih => exact fun held => ih (heldStep held call)

/-- The lease has not run out: the listing is gone, or its deadline is not below. -/
def StillLeased (listing leaseUntil : BitVec 64) (held : (ι → DueQueue) × ι) : Prop :=
  AllGood held.1 ∧ ∀ deadline, (held.1 held.2).byListing.lookup listing = some deadline →
    leaseUntil ≤ deadline

/-- A call on the holder that keeps the deadline of the listing or raises it. -/
theorem leased_of_raised {before after : DueQueue} {listing leaseUntil : BitVec 64}
    (h : ∀ deadline, before.byListing.lookup listing = some deadline → leaseUntil ≤ deadline)
    (hraised : after.byListing.lookup listing = before.byListing.lookup listing ∨
      ∃ previous later, before.byListing.lookup listing = some previous ∧ previous < later ∧
        after.byListing.lookup listing = some later) :
    ∀ deadline, after.byListing.lookup listing = some deadline → leaseUntil ≤ deadline := by
  intro deadline hdeadline
  rcases hraised with hsame | ⟨previous, later, hprevious, hlater, hafter⟩
  · exact h deadline (hsame ▸ hdeadline)
  · rw [← Option.some.inj (hafter.symm.trans hdeadline)]
    exact BitVec.le_trans (h previous hprevious) (BitVec.le_of_lt hlater)

theorem stillLeased_step {listing leaseUntil : BitVec 64} (held : (ι → DueQueue) × ι)
    (call : DueCall ι)
    (h : StillLeased listing leaseUntil held) (hcall : ¬Changes listing held call) :
    StillLeased listing leaseUntil (heldStep held call) := by
  obtain ⟨queues, holder⟩ := held
  obtain ⟨hgood, hleased⟩ := h
  refine ⟨allGood_step hgood call, ?_⟩
  -- away from the holder nothing matters, on it each call keeps the deadline or raises it
  have hupdate : ∀ queue (after : DueQueue), (queue = holder →
      ∀ deadline, after.byListing.lookup listing = some deadline → leaseUntil ≤ deadline) →
      ∀ deadline, (Function.update queues queue after holder).byListing.lookup listing =
        some deadline → leaseUntil ≤ deadline := by
    intro queue after hafter
    by_cases hholder : holder = queue
    · rw [hholder, Function.update_self]
      exact hafter hholder.symm
    · rw [Function.update_of_ne hholder]
      exact hleased
  cases call with
  | update queue entry =>
      refine hupdate queue _ fun hqueue => leased_of_raised hleased (.inl ?_)
      subst hqueue
      exact not_not.mp fun hne => hcall ⟨rfl, hne⟩
  | defer queue name deadline =>
      refine hupdate queue _ fun hqueue => leased_of_raised hleased ?_
      subst hqueue
      rcases lookup_defer (queues queue) name deadline listing with hsame | ⟨previous, hraised⟩
      · exact .inl hsame
      · exact .inr ⟨previous, deadline, hraised⟩
  | erase queue name =>
      refine hupdate queue _ fun hqueue deadline hdeadline => ?_
      subst hqueue
      rw [lookup_erase] at hdeadline
      split at hdeadline
      · cases hdeadline
      · exact hleased deadline hdeadline
  | leaseDue queue now limit later =>
      refine hupdate queue _ fun hqueue => leased_of_raised hleased ?_
      subst hqueue
      rcases (hgood queue).lookup_leaseDue now limit later listing with hsame | ⟨previous, hraised⟩
      · exact .inl hsame
      · exact .inr ⟨previous, later, hraised⟩
  | swap queue other =>
      show ∀ deadline, (Function.update (Function.update queues queue (queues other)) other
        (queues queue) (if holder = other then queue else if holder = queue then other
          else holder)).byListing.lookup listing = some deadline → leaseUntil ≤ deadline
      by_cases hother : holder = other
      · subst hother
        rw [if_pos rfl]
        by_cases hself : queue = holder
        · rw [hself, Function.update_self]
          exact hleased
        · rw [Function.update_of_ne hself, Function.update_self]
          exact hleased
      · rw [if_neg hother]
        by_cases hqueue : holder = queue
        · rw [if_pos hqueue, Function.update_self, ← hqueue]
          exact hleased
        · rw [if_neg hqueue, Function.update_of_ne hother, Function.update_of_ne hqueue]
          exact hleased

/-- After every sequence of calls the two indexes of every queue agree; a lease takes the
listings due with the least pairs, as many as it may, and moves these and no others; and
what it took is not leased again from its contents, wherever a swap has taken them,
before the lease runs out, unless an update changed it. -/
theorem due_queue_leases (calls : List (DueCall ι)) :
    (∀ queue deadline listing, (deadline, listing) ∈ (dueRun calls queue).byDeadline ↔
      (dueRun calls queue).byListing.lookup listing = some deadline) ∧
    (∀ queue now limit leaseUntil, now < leaseUntil →
      Leases (dueRun calls queue) ((dueRun calls queue).leaseDue now limit leaseUntil).2 now limit
        leaseUntil ((dueRun calls queue).leaseDue now limit leaseUntil).1) ∧
    (∀ queue now limit leaseUntil listing later now' limit' leaseUntil',
      listing ∈ ((dueRun calls queue).leaseDue now limit leaseUntil).1 →
      Along heldStep (fun held call => ¬Changes listing held call)
        (dueStep (dueRun calls) (.leaseDue queue now limit leaseUntil), queue) later →
      now' < leaseUntil →
      listing ∉ ((run dueStep (dueStep (dueRun calls) (.leaseDue queue now limit leaseUntil)) later
        (later.foldl carried queue)).leaseDue now' limit' leaseUntil').1) := by
  have hgood := allGood_run calls
  refine ⟨fun queue => (hgood queue).agree, fun queue now limit leaseUntil =>
    (hgood queue).leases limit, ?_⟩
  intro queue now limit leaseUntil listing later now' limit' leaseUntil' hleased halong hnow hagain
  have hlater : now < leaseUntil := by
    by_contra hnot
    rw [DueQueue.leaseDue, if_pos (.inr (BitVec.not_lt.mp hnot))] at hleased
    cases hleased
  have hstart : StillLeased listing leaseUntil
      (dueStep (dueRun calls) (.leaseDue queue now limit leaseUntil), queue) := by
    refine ⟨allGood_step hgood (.leaseDue queue now limit leaseUntil), fun deadline hdeadline => ?_⟩
    simp only [dueStep, Function.update_self] at hdeadline
    rw [((hgood queue).leases limit hlater).leased listing hleased] at hdeadline
    rw [← Option.some.inj hdeadline]
    exact BitVec.le_refl _
  have hend := run_invariant_along stillLeased_step later hstart halong
  rw [run_heldStep] at hend
  have hlater' : now' < leaseUntil' := by
    by_contra hnot
    rw [DueQueue.leaseDue, if_pos (.inr (BitVec.not_lt.mp hnot))] at hagain
    cases hagain
  obtain ⟨deadline, hdeadline, hdue⟩ := ((hend.1 _).leases limit' hlater').due listing hagain
  have hfuture := hend.2 deadline hdeadline
  rw [BitVec.lt_def] at hnow
  rw [BitVec.le_def] at hdue hfuture
  omega

def waiting : Record where
  listing := 1
  deathOperation := Vector.ofFn fun index => if index.val < 32 then 'c'.toUInt8 else 0
  beneficiary := 7
  uid := 900
  deathTime := 3600
  collectAt := 46800
  saleAt := 90000
  revision := 1
  itemRevision := 1
  policy := { enabled := true }

def twice : List (DueCall Bool) := [.update true waiting, .update false waiting]

/-- Leased from one of them, it is not leased from that one again. -/
theorem due_queue_leases_twice :
    1 ∈ ((dueRun twice true).leaseDue 46800 1 50000).1 ∧
      1 ∉ ((dueStep (dueRun twice) (.leaseDue true 46800 1 50000)
        true).leaseDue 49999 1 60000).1 := by
  have hleased : 1 ∈ ((dueRun twice true).leaseDue 46800 1 50000).1 := by decide +kernel
  exact ⟨hleased, (due_queue_leases twice).2.2 true 46800 1 50000 1 [] 49999 1 60000 hleased
    trivial (by decide)⟩

/-- The same queue leases it again as soon as it has been given the contents of the other,
though no update came between. -/
theorem swapped_queue_leases_again :
    1 ∈ ((dueRun twice true).leaseDue 46800 1 50000).1 ∧
      1 ∈ ((dueRun (twice ++ [.leaseDue true 46800 1 50000, .swap true false]) true).leaseDue
        49999 1 60000).1 ∧ (49999 : BitVec 64) < 50000 := by
  decide +kernel

end Runs

end Duris.Economy.Collector
