import Duris.Proofs.WriterSteps

/-!
# One writer, one order

Tickets are given out in submission order, so "a was submitted before b" is a
comparison of tickets and the order of writing is the order of tickets in `attempts`.
`Ordered` carries it: the queue ascends, the job in the slot lies below the queue, and
no attempt so far has a ticket above the slot's. A job that is put back to wait for a
connection stays in the slot, so nothing behind it can start; and the tail of the queue
is the last job admitted, so a replacement moves no job past another.
-/

namespace Duris.Player

namespace Worker

def openAttempt (w : Worker) : Option Nat :=
  if attempting w.phase then w.inflight.map QueuedJob.ticket else none

variable {w w' : Worker} {job : QueuedJob}

theorem openAttempt_eq_none (hearly : early w.phase = false) : w.openAttempt = none := by
  unfold openAttempt
  split
  · next hattempting =>
      generalize w.phase = phase at hattempting hearly
      cases phase <;> simp [attempting, early] at hattempting hearly
  · rfl

/-- Before an attempt on `b` starts, every attempt on an earlier job has ended, and
none follows. -/
def Sequential (attempts : List Attempt) : Prop :=
  ∀ before b after, attempts = before ++ .started b :: after → ∀ a < b,
    (∀ x ∈ after, x.ticket ≠ a) ∧ before.count (.started a) = before.count (.ended a)

theorem Sequential.concat {attempts : List Attempt} (h : Sequential attempts) {x : Attempt}
    (hnewest : ∀ y ∈ attempts, y.ticket ≤ x.ticket)
    (hended : ∀ b, x = .started b → ∀ a < b,
      attempts.count (.started a) = attempts.count (.ended a)) :
    Sequential (attempts ++ [x]) := by
  intro before b after hsplit a hab
  rcases List.eq_nil_or_concat after with rfl | ⟨after, last, rfl⟩
  · obtain ⟨rfl, hx⟩ := List.append_inj' hsplit rfl
    rw [List.cons.injEq] at hx
    exact ⟨by simp, hended b hx.1 a hab⟩
  · rw [List.concat_eq_append, ← List.cons_append, ← List.append_assoc] at hsplit
    obtain ⟨hattempts, hx⟩ := List.append_inj' hsplit rfl
    obtain ⟨hafter, hcount⟩ := h before b after hattempts a hab
    refine ⟨?_, hcount⟩
    intro y hy
    rw [List.concat_eq_append, List.mem_append, List.mem_singleton] at hy
    rcases hy with hy | rfl
    · exact hafter y hy
    · rw [List.cons.injEq] at hx
      have hb : b ≤ y.ticket := hx.1 ▸ hnewest (.started b) (by simp [hattempts])
      omega

structure Ordered (w : Worker) : Prop where
  ascending : w.queue.Pairwise fun a b => a.ticket < b.ticket
  ahead : ∀ job, w.inflight = some job → ∀ queued ∈ w.queue, job.ticket < queued.ticket
  behind : ∀ a ∈ w.attempts, ∀ queued ∈ w.queue, a.ticket < queued.ticket
  current : ∀ a ∈ w.attempts, ∀ job, w.inflight = some job → a.ticket ≤ job.ticket
  balanced : ∀ t, w.attempts.count (.started t) =
    w.attempts.count (.ended t) + if w.openAttempt = some t then 1 else 0
  sequential : Sequential w.attempts
  accounted : ∀ t < w.admitted.length, (∃ job ∈ w.queue, job.ticket = t) ∨
    (∃ job, w.inflight = some job ∧ job.ticket = t) ∨ Attempt.ended t ∈ w.attempts ∨
    ∃ s ∈ w.superseded, s.old.ticket = t

theorem Ordered.same (h : Ordered w) (same : SameCustody w w') (attempts : w'.attempts = w.attempts)
    (hopen : w'.openAttempt = w.openAttempt) : Ordered w' := by
  obtain ⟨hascending, hahead, hbehind, hcurrent, hbalanced, hsequential, haccounted⟩ := h
  refine ⟨?_, ?_, ?_, ?_, ?_, ?_, ?_⟩
  · rw [same.queue]; exact hascending
  · rw [same.inflight, same.queue]; exact hahead
  · rw [attempts, same.queue]; exact hbehind
  · rw [attempts, same.inflight]; exact hcurrent
  · rw [attempts, hopen]; exact hbalanced
  · rw [attempts]; exact hsequential
  · rw [same.admitted, same.queue, same.inflight, attempts, same.superseded]; exact haccounted

theorem Ordered.attempt (h : Ordered w) (same : SameCustody w w') {x : Attempt}
    (hinflight : w.inflight = some job) (hticket : x.ticket = job.ticket)
    (attempts : w'.attempts = w.attempts ++ [x]) (hended : ∀ b, x = .started b → ∀ a < b,
      w.attempts.count (.started a) = w.attempts.count (.ended a))
    (hbalanced : ∀ t, (w.attempts ++ [x]).count (.started t) =
      (w.attempts ++ [x]).count (.ended t) + if w'.openAttempt = some t then 1 else 0) :
    Ordered w' := by
  refine ⟨?_, ?_, ?_, ?_, ?_, ?_, ?_⟩
  · rw [same.queue]; exact h.ascending
  · rw [same.inflight, same.queue]; exact h.ahead
  · rw [attempts, same.queue]
    intro a ha queued hqueued
    rcases List.mem_append.mp ha with ha | ha
    · exact h.behind a ha queued hqueued
    · rw [List.mem_singleton.mp ha, hticket]
      exact h.ahead job hinflight queued hqueued
  · rw [attempts, same.inflight]
    intro a ha held hheld
    rcases List.mem_append.mp ha with ha | ha
    · exact h.current a ha held hheld
    · rw [hinflight, Option.some.injEq] at hheld
      rw [List.mem_singleton.mp ha, hticket, hheld]
  · rw [attempts]; exact hbalanced
  · rw [attempts]
    exact h.sequential.concat (fun y hy => hticket ▸ h.current y hy job hinflight) hended
  · rw [same.admitted, same.queue, same.inflight, attempts, same.superseded]
    intro t ht
    rcases h.accounted t ht with hqueue | hslot | hattempt | hreplaced
    · exact .inl hqueue
    · exact .inr (.inl hslot)
    · exact .inr (.inr (.inl (List.mem_append_left _ hattempt)))
    · exact .inr (.inr (.inr hreplaced))

theorem Ordered.attemptStart (h : Ordered w) (same : SameCustody w w') {retries : Nat}
    (hphase : w.phase = .ready retries) (hinflight : w.inflight = some job)
    (hphase' : w'.phase = .attempting retries)
    (attempts : w'.attempts = w.attempts ++ [.started job.ticket]) : Ordered w' := by
  have hnone : w.openAttempt = none := by simp [openAttempt, hphase, attempting]
  have hopen : w'.openAttempt = some job.ticket := by
    simp [openAttempt, hphase', attempting, same.inflight, hinflight]
  have hbalanced := h.balanced
  simp only [hnone, reduceCtorEq, if_false, Nat.add_zero] at hbalanced
  refine h.attempt same hinflight rfl attempts (fun b _ a _ => hbalanced a) ?_
  intro t
  rw [hopen, List.count_append, List.count_append, hbalanced t]
  by_cases ht : job.ticket = t
  · simp [ht]
  · simp [ht]

theorem Ordered.attemptEnd (h : Ordered w) (same : SameCustody w w') {retries : Nat}
    (hphase : w.phase = .attempting retries) (hinflight : w.inflight = some job)
    (hearly : early w'.phase = false) (attempts : w'.attempts = w.attempts ++ [.ended job.ticket]) :
    Ordered w' := by
  have hopen : w.openAttempt = some job.ticket := by
    simp [openAttempt, hphase, attempting, hinflight]
  have hnone : w'.openAttempt = none := openAttempt_eq_none hearly
  have hbalanced := h.balanced
  rw [hopen] at hbalanced
  refine h.attempt same hinflight rfl attempts (fun b hb => by cases hb) ?_
  intro t
  rw [hnone, List.count_append, List.count_append, hbalanced t]
  by_cases ht : job.ticket = t
  · simp [ht]
  · simp [ht]

/-- A new job at the tail, above everything the writer holds or has written; what
stood there before, if anything, stays in the queue or is superseded. -/
theorem Ordered.admit (h : Ordered w) (hinv : Inv w) {ahead : List QueuedJob}
    (hahead : ahead.Sublist w.queue) (hticket : job.ticket = w.admitted.length)
    (hqueue : w'.queue = ahead ++ [job]) (hinflight : w'.inflight = w.inflight)
    (hphase : w'.phase = w.phase) (attempts : w'.attempts = w.attempts)
    (hadmitted : w'.admitted = w.admitted ++ [job])
    (hsuperseded : ∀ s ∈ w.superseded, s ∈ w'.superseded)
    (hkept : ∀ queued ∈ w.queue, queued ∈ ahead ∨
      ∃ s ∈ w'.superseded, s.old.ticket = queued.ticket) : Ordered w' := by
  have hbelow : ∀ {t : Nat} {held : QueuedJob}, w.admitted[t]? = some held →
      t < job.ticket := fun hheld => hticket ▸ (List.getElem?_eq_some_iff.mp hheld).1
  refine ⟨?_, ?_, ?_, ?_, ?_, ?_, ?_⟩
  · rw [hqueue, List.pairwise_append]
    refine ⟨h.ascending.sublist hahead, List.pairwise_singleton _ _, ?_⟩
    intro a ha b hb
    rw [List.mem_singleton.mp hb]
    exact hbelow (hinv.filed.queued a (hahead.subset ha))
  · rw [hinflight, hqueue]
    intro held hheld queued hqueued
    rcases List.mem_append.mp hqueued with hqueued | hqueued
    · exact h.ahead held hheld queued (hahead.subset hqueued)
    · rw [List.mem_singleton.mp hqueued]
      exact hbelow (hinv.filed.inflight held hheld)
  · rw [attempts, hqueue]
    intro a ha queued hqueued
    rcases List.mem_append.mp hqueued with hqueued | hqueued
    · exact h.behind a ha queued (hahead.subset hqueued)
    · rw [List.mem_singleton.mp hqueued, hticket]
      exact hinv.attempted.known a ha
  · rw [attempts, hinflight]; exact h.current
  · have hopen : w'.openAttempt = w.openAttempt := by
      unfold openAttempt
      rw [hphase, hinflight]
    rw [attempts, hopen]
    exact h.balanced
  · rw [attempts]; exact h.sequential
  · intro t ht
    rw [hqueue, hinflight, attempts]
    rw [hadmitted, List.length_append, List.length_singleton] at ht
    by_cases hnew : t = w.admitted.length
    · exact .inl ⟨job, by simp, by rw [hticket, hnew]⟩
    · rcases h.accounted t (by omega) with ⟨queued, hmem, rfl⟩ | hslot | hattempt | ⟨s, hs, hold⟩
      · rcases hkept queued hmem with hmem | hreplaced
        · exact .inl ⟨queued, List.mem_append_left _ hmem, rfl⟩
        · exact .inr (.inr (.inr hreplaced))
      · exact .inr (.inl hslot)
      · exact .inr (.inr (.inl hattempt))
      · exact .inr (.inr (.inr ⟨s, hsuperseded s hs, hold⟩))

theorem Ordered.take (h : Ordered w) (hinv : Inv w) {rest : List QueuedJob}
    (hqueue : w.queue = job :: rest) (hphase : w.phase = .waiting) :
    Ordered (w.takeJob job rest) := by
  have hascending := h.ascending
  rw [hqueue, List.pairwise_cons] at hascending
  have hbalanced := h.balanced
  rw [show w.openAttempt = none by simp [openAttempt, hphase, attempting]] at hbalanced
  refine ⟨hascending.2, ?_, ?_, ?_, hbalanced, h.sequential, ?_⟩
  · intro held hheld
    simp only [takeJob, Option.some.injEq] at hheld ⊢
    subst hheld
    exact hascending.1
  · exact fun a ha queued hqueued =>
      h.behind a ha queued (hqueue ▸ List.mem_cons_of_mem job hqueued)
  · intro a ha held hheld
    simp only [takeJob, Option.some.injEq] at hheld
    subst hheld
    exact Nat.le_of_lt (h.behind a ha job (by simp [hqueue]))
  · intro t ht
    rcases h.accounted t ht with ⟨queued, hmem, rfl⟩ | ⟨old, hold, rfl⟩ | hattempt | hreplaced
    · rw [hqueue, List.mem_cons] at hmem
      rcases hmem with rfl | hmem
      · exact .inr (.inl ⟨queued, rfl, rfl⟩)
      · exact .inl ⟨queued, hmem, rfl⟩
    · -- An abandoned job loses the slot here, with its last attempt behind it.
      exact .inr (.inr (.inl (hinv.attempted.written old hold (by rw [hphase]; rfl))))
    · exact .inr (.inr (.inl hattempt))
    · exact .inr (.inr (.inr hreplaced))

theorem Ordered.report (h : Ordered w) (hinv : Inv w) (retries : Nat) (result : ApplyResult)
    {phase : WriterPhase} (hearly : early w.phase = false) :
    Ordered (w.reportJob job retries result phase) := by
  have hopen : w.openAttempt = none := openAttempt_eq_none hearly
  have hopen' : (w.reportJob job retries result phase).openAttempt = none := by
    unfold openAttempt
    split <;> rfl
  refine ⟨h.ascending, by rintro held ⟨⟩, h.behind, by rintro a - held ⟨⟩, ?_, h.sequential, ?_⟩
  · rw [hopen', ← hopen]
    exact h.balanced
  · intro t ht
    rcases h.accounted t ht with hqueue | ⟨held, hheld, rfl⟩ | hattempt | hreplaced
    · exact .inl hqueue
    · exact .inr (.inr (.inl (hinv.attempted.written held hheld hearly)))
    · exact .inr (.inr (.inl hattempt))
    · exact .inr (.inr (.inr hreplaced))

theorem step_ordered (w : Worker) (e : Event) (hinv : Inv w) (h : Ordered w) :
    Ordered (w.step e) := by
  have heffect := step_effect w e
  generalize w.step e = w' at heffect ⊢
  cases heffect with
  | idle same attempts hbusy hearly hattempting =>
      refine h.same same attempts ?_
      unfold openAttempt
      rw [same.inflight]
      by_cases hw : attempting w.phase = true
      · have hkeep : w'.phase = w.phase := by
          refine hearly ?_
          generalize w.phase = phase at hw
          cases phase <;> first | rfl | cases hw
        rw [hkeep]
      · rw [if_neg hw, if_neg fun hw' => hw (hattempting hw')]
  | start same attempts hexited hphase =>
      refine h.same same attempts ?_
      simp [openAttempt, hphase, hinv.attempted.exited hexited, attempting]
  | attemptStart job retries same hphase hinflight hphase' attempts =>
      exact h.attemptStart same hphase hinflight hphase' attempts
  | attemptEnd job retries same hphase hinflight hearly attempts =>
      exact h.attemptEnd same hphase hinflight hearly attempts
  | append job =>
      exact h.admit hinv (List.Sublist.refl _) rfl rfl rfl rfl rfl rfl (fun s hs => hs)
        (fun queued hqueued => .inl hqueued)
  | replace ahead tail job hsubmitted hqueue =>
      have hahead : ahead.Sublist w.queue := hqueue ▸ List.sublist_append_left ahead [tail]
      refine h.admit hinv hahead rfl rfl rfl rfl rfl rfl ?_ ?_
      · exact fun s hs => List.mem_append_left _ hs
      · intro queued hqueued
        rw [hqueue, List.mem_append, List.mem_singleton] at hqueued
        rcases hqueued with hqueued | rfl
        · exact .inl hqueued
        · exact .inr ⟨_, List.mem_append_right _ (List.mem_singleton.mpr rfl), rfl⟩
  | take job rest hqueue hevent hphase => exact h.take hinv hqueue hphase
  | report job retries result phase hinflight hearly =>
      exact h.report hinv retries result hearly
  | consume capacity =>
      exact ⟨h.ascending, h.ahead, h.behind, h.current, h.balanced, h.sequential, h.accounted⟩

theorem ordered_empty : Ordered {} where
  ascending := List.Pairwise.nil
  ahead := by simp
  behind := by simp
  current := by simp
  balanced := by simp [openAttempt]
  sequential := by
    intro before b after hsplit
    simp at hsplit
  accounted := by simp

theorem run_ordered (events : List Event) :
    Inv (run step {} events) ∧ Ordered (run step {} events) :=
  run_invariant (P := fun w => Inv w ∧ Ordered w)
    (fun w e h => ⟨step_inv w e h.1, step_ordered w e h.1 h.2⟩) events
    ⟨inv_empty, ordered_empty⟩

theorem Ordered.no_overtaking (h : Ordered w) (hinv : Inv w) {before after : List Attempt}
    {a b : Nat} (hsplit : w.attempts = before ++ .started b :: after) (hab : a < b) :
    Attempt.ended a ∈ before ∨ ∃ s ∈ w.superseded, s.old.ticket = a := by
  have hb : Attempt.started b ∈ w.attempts := by simp [hsplit]
  have hbknown := hinv.attempted.known _ hb
  simp only [Attempt.ticket] at hbknown
  rcases h.accounted a (by omega) with ⟨queued, hmem, rfl⟩ | ⟨held, hheld, rfl⟩ | hended | hreplaced
  · have := h.behind _ hb queued hmem
    simp only [Attempt.ticket] at this
    omega
  · have := h.current _ hb held hheld
    simp only [Attempt.ticket] at this
    omega
  · left
    rw [hsplit, List.mem_append, List.mem_cons] at hended
    rcases hended with hended | hended | hended
    · exact hended
    · cases hended
    · exact absurd rfl ((h.sequential before b after hsplit a hab).1 _ hended)
  · exact .inr hreplaced

/-- A step supersedes only the tail of the queue, by a job of the same owner, neither
of them a death. -/
theorem superseded_tail (hinv : Inv w) {e : Event} {s : Superseded}
    (hs : s ∈ (w.step e).superseded) :
    s ∈ w.superseded ∨ w.queue.getLast? = some s.old ∧
      (w.step e).queue = w.queue.dropLast ++ [s.new] ∧ s.new.key = s.old.key ∧
      s.new.death = false ∧ s.old.death = false := by
  have heffect := step_effect w e
  generalize w.step e = w' at heffect hs ⊢
  cases heffect with
  | idle same => exact .inl (same.superseded ▸ hs)
  | start same => exact .inl (same.superseded ▸ hs)
  | attemptStart job retries same => exact .inl (same.superseded ▸ hs)
  | attemptEnd job retries same => exact .inl (same.superseded ▸ hs)
  | append job => exact .inl hs
  | replace ahead tail job hsubmitted hqueue hindex hjob htail =>
      have hkey : tail.key = job.key := hinv.indexed.key_eq (by simp [hqueue]) hindex
      rcases List.mem_append.mp hs with hs | hs
      · exact .inl hs
      · rw [List.mem_singleton.mp hs]
        refine .inr ⟨by simp [hqueue], ?_, hkey.symm, hjob, htail⟩
        rw [hqueue, List.dropLast_concat]
        rfl
  | take => exact .inl hs
  | report => exact .inl hs
  | consume => exact .inl hs

/-- In every run, when an attempt on `b` starts, each earlier job has had its last
attempt or was superseded; and a job is superseded only at the tail of the queue, by a
job of its own owner submitted right after it, neither of them a death. -/
theorem writer_keeps_submission_order (events : List Event) :
    (∀ (before : List Attempt) (b : Nat) (after : List Attempt),
      (run step {} events).attempts = before ++ .started b :: after → ∀ a < b,
        (∀ x ∈ after, x.ticket ≠ a) ∧
        before.count (.started a) = before.count (.ended a) ∧
        (Attempt.ended a ∈ before ∨
          ∃ s ∈ (run step {} events).superseded, s.old.ticket = a)) ∧
    (∀ s ∈ (run step {} events).superseded,
      (run step {} events).admitted[s.old.ticket]? = some s.old ∧
      (run step {} events).admitted[s.old.ticket + 1]? = some s.new) ∧
    (∀ (e : Event), ∀ s ∈ ((run step {} events).step e).superseded,
      s ∈ (run step {} events).superseded ∨
        (run step {} events).queue.getLast? = some s.old ∧
        ((run step {} events).step e).queue =
          (run step {} events).queue.dropLast ++ [s.new] ∧
        s.new.key = s.old.key ∧ s.new.death = false ∧ s.old.death = false) := by
  obtain ⟨hinv, hordered⟩ := run_ordered events
  refine ⟨?_, ?_, ?_⟩
  · intro before b after hsplit a hab
    obtain ⟨hafter, hcount⟩ := hordered.sequential before b after hsplit a hab
    exact ⟨hafter, hcount, hordered.no_overtaking hinv hsplit hab⟩
  · intro s hs
    obtain ⟨hold, hnew, hticket, -⟩ := hinv.filed.replaced s hs
    exact ⟨hold, hticket ▸ hnew⟩
  · exact fun e s hs => superseded_tail hinv hs

end Worker

end Duris.Player
