import Duris.Proofs.RecordQueue
import Duris.Telemetry.Transport
import Mathlib.Data.List.Perm.Subperm

/-!
# The telemetry transport keeps its books

Every admitted record is in one of four places: it has a final answer, it was dropped
and counted so, it is retained with an answer (an isolated batch is not released before
its last record), or it is retained without one. `Account` names the places, `Balanced`
says that the counters, the queue and the batch in flight agree with it, and each thing
that a step can do to the books is one lemma about `Balanced`. Two steps break it: a
disabling answer that arrives inside an isolated batch drops records that have been
answered, and a shutdown over a batch in flight forgets what is queued behind it.
-/

namespace Duris.Telemetry

def Counters.Tracks (counters tally : Counters) : Prop :=
  ∀ counter, counters counter = min uint64Max (tally counter)

variable {counters tally : Counters} {counter : Counter}

theorem Counters.Tracks.eq_tally (h : counters.Tracks tally)
    (hbelow : counters counter < uint64Max) : counters counter = tally counter := by
  have heq := h counter
  omega

theorem saturatingAdd_eq (value amount : Nat) (h : value ≤ uint64Max) :
    saturatingAdd value amount = min uint64Max (value + amount) := by
  rw [saturatingAdd]
  split <;> omega

def Counters.raise (tally : Counters) (counter : Counter) (amount : Nat) : Counters :=
  Function.update tally counter (tally counter + amount)

theorem Counters.Tracks.add (h : counters.Tracks tally) (counter : Counter) (amount : Nat) :
    (counters.add counter amount).Tracks (tally.raise counter amount) := by
  intro other
  rw [Counters.add, Counters.raise]
  by_cases hother : other = counter
  · subst hother
    rw [Function.update_self, Function.update_self, saturatingAdd_eq _ _ (by rw [h]; omega), h]
    omega
  · rw [Function.update_of_ne hother, Function.update_of_ne hother, h]

def Counters.answered (tally : Counters) : Nat :=
  tally .appliedRecords + tally .duplicateRecords + tally .staleCheckpointRecords +
    tally .invalidRecords + tally .conflictRecords

def Counters.admitted (tally : Counters) : Nat :=
  tally .admittedDetail + tally .admittedControl

theorem ApplyOutcome.counter_raise {outcome : ApplyOutcome} (h : outcome.counter = some counter)
    (tally : Counters) :
    (tally.raise counter 1).answered = tally.answered + 1 ∧
      (tally.raise counter 1).admitted = tally.admitted ∧
      ∀ control, (tally.raise counter 1) (.dropped control) = tally (.dropped control) ∧
        (tally.raise counter 1) (.rejected control) = tally (.rejected control) := by
  cases outcome <;> cases h <;>
    refine ⟨?_, by simp [Counters.admitted, Counters.raise], fun control => ?_⟩ <;>
    first
      | (simp only [Counters.answered, Counters.raise, Function.update_apply, reduceCtorEq,
          if_false, if_true]; omega)
      | (cases control <;> simp [Counters.raise, Counter.dropped, Counter.rejected])

theorem Counters.Tracks.addItems {items : List RecordApplyResult}
    (hitems : ∀ item ∈ items, item.outcome.counter.isSome = true) :
    ∀ {counters tally : Counters}, counters.Tracks tally → ∃ tally' : Counters,
      (items.foldl Counters.addItem counters).Tracks tally' ∧
        tally'.answered = tally.answered + items.length ∧ tally'.admitted = tally.admitted ∧
        ∀ control, tally' (.dropped control) = tally (.dropped control) ∧
          tally' (.rejected control) = tally (.rejected control) := by
  induction items with
  | nil => exact fun {_ tally} h => ⟨tally, h, rfl, rfl, fun _ => ⟨rfl, rfl⟩⟩
  | cons item items ih =>
      intro counters tally h
      rw [List.forall_mem_cons] at hitems
      obtain ⟨counter, hcounter⟩ := Option.isSome_iff_exists.mp hitems.1
      obtain ⟨hone, hadmitted, hother⟩ := ApplyOutcome.counter_raise hcounter tally
      have hadd : (counters.addItem item).Tracks (tally.raise counter 1) := by
        rw [Counters.addItem, hcounter]
        exact h.add counter 1
      obtain ⟨tally', htracks, hanswered, hadmitted', hother'⟩ := ih hitems.2 hadd
      refine ⟨tally', htracks, ?_, hadmitted'.trans hadmitted, fun control => ?_⟩
      · rw [hanswered, hone, List.length_cons]
        omega
      · exact ⟨(hother' control).1.trans (hother control).1,
          (hother' control).2.trans (hother control).2⟩

theorem Counters.Tracks.addDropped (h : counters.Tracks tally) {count controls : Nat} :
    ∃ tally' : Counters, (counters.addDropped count controls).Tracks tally' ∧
      tally'.answered = tally.answered ∧ tally'.admitted = tally.admitted ∧
      (∀ control, tally' (.rejected control) = tally (.rejected control)) ∧
      tally' .droppedDetail = tally .droppedDetail + (count - controls) ∧
      tally' .droppedControl = tally .droppedControl + controls := by
  refine ⟨_, (h.add .droppedDetail _).add .droppedControl _, ?_, ?_, fun control => ?_, ?_, ?_⟩
  · simp [Counters.answered, Counters.raise]
  · simp [Counters.admitted, Counters.raise]
  · cases control <;> simp [Counters.raise, Counter.rejected]
  · simp [Counters.raise]
  · simp [Counters.raise]

theorem Counters.Tracks.recordFailedAdmission (h : counters.Tracks tally) (control : Bool) :
    ∃ tally' : Counters, (counters.recordFailedAdmission control).Tracks tally' ∧
      tally'.answered = tally.answered ∧ tally'.admitted = tally.admitted ∧
      ∀ other n, tally (.dropped other) = tally (.rejected other) + n →
        tally' (.dropped other) = tally' (.rejected other) + n := by
  refine ⟨_, (h.add (.dropped control) 1).add (.rejected control) 1, ?_, ?_, fun other n heq => ?_⟩
  · cases control <;> simp [Counters.answered, Counters.raise, Counter.dropped, Counter.rejected]
  · cases control <;> simp [Counters.admitted, Counters.raise, Counter.dropped, Counter.rejected]
  · cases control <;> cases other <;>
      simp only [Counters.raise, Counter.dropped, Counter.rejected, Function.update_apply,
        reduceCtorEq, if_false, if_true, Bool.false_eq_true] at heq ⊢ <;>
      omega

theorem Counters.Tracks.accept (h : counters.Tracks tally) (control : Bool) :
    ∃ tally' : Counters, (counters.add (.admitted control) 1).Tracks tally' ∧
      tally'.answered = tally.answered ∧ tally'.admitted = tally.admitted + 1 ∧
      ∀ other, tally' (.dropped other) = tally (.dropped other) ∧
        tally' (.rejected other) = tally (.rejected other) := by
  refine ⟨_, h.add (.admitted control) 1, ?_, ?_, fun other => ?_⟩
  · cases control <;> simp [Counters.answered, Counters.raise, Counter.admitted]
  · cases control <;> simp only [Counters.admitted, Counters.raise, Counter.admitted,
      Function.update_apply, reduceCtorEq, if_false, if_true, Bool.false_eq_true] <;> omega
  · cases control <;> cases other <;>
      simp [Counters.raise, Counter.admitted, Counter.dropped, Counter.rejected]

variable {Payload : Type}

def QueueSlot.header (slot : QueueSlot Payload) : RecordHeader := slot.record.header

def QueueSlot.key (slot : QueueSlot Payload) : RecordKey := slot.header.key

namespace Transport

structure Account (Payload : Type) where
  gone : List RecordHeader
  resolved : List (QueueSlot Payload)
  pending : List (QueueSlot Payload)
  /-- They left the queue without an answer and were counted. -/
  discarded : List RecordHeader

namespace Account

def retained (a : Account Payload) : List (QueueSlot Payload) := a.resolved ++ a.pending

def accept (a : Account Payload) (slot : QueueSlot Payload) : Account Payload :=
  { a with pending := a.pending ++ [slot] }

/-- The oldest `count` records get their answer. -/
def answer (a : Account Payload) (count : Nat) : Account Payload :=
  { a with
    resolved := a.resolved ++ a.pending.take count
    pending := a.pending.drop count }

def release (a : Account Payload) : Account Payload :=
  { a with gone := a.gone ++ a.resolved.map (·.header), resolved := [] }

/-- The oldest `count` records leave the queue without an answer. -/
def discard (a : Account Payload) (count : Nat) : Account Payload :=
  { a with
    gone := a.gone ++ (a.pending.take count).map (·.header)
    pending := a.pending.drop count
    discarded := a.discarded ++ (a.pending.take count).map (·.header) }

end Account

variable {ledger : Ledger} {last : RecordKey} {a : Account Payload}

structure History (ledger : Ledger) (last : RecordKey) (a : Account Payload) : Prop where
  admitted : ledger.admitted = a.gone ++ a.retained.map (·.header)
  sorted : ledger.admitted.Pairwise (·.key.recordSeq < ·.key.recordSeq)
  bounded : ∀ header ∈ ledger.admitted,
    0 < header.key.recordSeq ∧ header.key.recordSeq ≤ last.recordSeq
  gone : ∀ header ∈ a.gone, header.key ∈ ledger.answered ∨ header ∈ a.discarded
  resolved : ∀ slot ∈ a.resolved, slot.key ∈ ledger.answered
  pending : ∀ slot ∈ a.pending, slot.key ∉ ledger.answered
  offered : ledger.answered ⊆ ledger.offered
  known : ∀ key ∈ ledger.offered, ∃ header ∈ ledger.admitted, header.key = key

namespace History

variable (h : History ledger last a)

include h

theorem retained_sorted :
    a.retained.Pairwise (·.key.recordSeq < ·.key.recordSeq) := by
  have hsorted := h.sorted
  rw [h.admitted] at hsorted
  have hmap := (List.pairwise_append.mp hsorted).2.1
  rw [List.pairwise_map] at hmap
  exact hmap

theorem accept (slot : QueueSlot Payload)
    (hpos : 0 < slot.key.recordSeq) (hlast : last.recordSeq < slot.key.recordSeq) :
    History { ledger with admitted := ledger.admitted ++ [slot.header] } slot.key
      (a.accept slot) where
  admitted := by
    show ledger.admitted ++ [slot.header] =
      a.gone ++ (a.resolved ++ (a.pending ++ [slot])).map (·.header)
    rw [h.admitted, Account.retained, ← List.append_assoc a.resolved,
      @List.map_append _ _ _ (a.resolved ++ a.pending), List.append_assoc]
    rfl
  sorted := by
    refine List.pairwise_append.mpr ⟨h.sorted, List.pairwise_singleton _ _, ?_⟩
    intro header hheader other hother
    cases List.mem_singleton.mp hother
    exact Nat.lt_of_le_of_lt (h.bounded header hheader).2 hlast
  bounded := by
    intro header hheader
    rcases List.mem_append.mp hheader with hold | hnew
    · exact ⟨(h.bounded header hold).1,
        Nat.le_trans (h.bounded header hold).2 (Nat.le_of_lt hlast)⟩
    · cases List.mem_singleton.mp hnew
      exact ⟨hpos, Nat.le_refl _⟩
  gone := h.gone
  resolved := h.resolved
  pending := by
    intro other hother
    rcases List.mem_append.mp hother with hold | hnew
    · exact h.pending other hold
    · cases List.mem_singleton.mp hnew
      intro hanswered
      obtain ⟨header, hheader, hkey⟩ := h.known _ (h.offered hanswered)
      have hbound := (h.bounded header hheader).2
      rw [hkey] at hbound
      exact Nat.not_lt.mpr hbound hlast
  offered := h.offered
  known := by
    intro key hkey
    obtain ⟨header, hheader, hheaderKey⟩ := h.known key hkey
    exact ⟨header, List.mem_append_left _ hheader, hheaderKey⟩

theorem offer {slots : List (QueueSlot Payload)}
    (hslots : slots ⊆ a.retained) :
    History { ledger with offered := ledger.offered ++ slots.map (·.key) } last a where
  admitted := h.admitted
  sorted := h.sorted
  bounded := h.bounded
  gone := h.gone
  resolved := h.resolved
  pending := h.pending
  offered := fun key hkey => List.mem_append_left _ (h.offered hkey)
  known := by
    intro key hkey
    rcases List.mem_append.mp hkey with hold | hnew
    · exact h.known key hold
    · obtain ⟨slot, hslot, rfl⟩ := List.mem_map.mp hnew
      refine ⟨slot.header, ?_, rfl⟩
      rw [h.admitted]
      exact List.mem_append_right _ (List.mem_map_of_mem (hslots hslot))

theorem answer {count : Nat}
    (hoffered : ∀ slot ∈ a.pending.take count, slot.key ∈ ledger.offered) :
    History
      { ledger with answered := ledger.answered ++ (a.pending.take count).map (·.key) } last
      (a.answer count) where
  admitted := by
    show ledger.admitted =
      a.gone ++ ((a.resolved ++ a.pending.take count) ++ a.pending.drop count).map (·.header)
    rw [List.append_assoc, List.take_append_drop]
    exact h.admitted
  sorted := h.sorted
  bounded := h.bounded
  gone := fun header hheader => (h.gone header hheader).imp_left (List.mem_append_left _)
  resolved := by
    intro slot hslot
    rcases List.mem_append.mp hslot with hold | hnew
    · exact List.mem_append_left _ (h.resolved slot hold)
    · exact List.mem_append_right _ (List.mem_map_of_mem hnew)
  pending := by
    intro slot hslot hanswered
    rcases List.mem_append.mp hanswered with hold | hnew
    · exact h.pending slot (List.mem_of_mem_drop hslot) hold
    · obtain ⟨other, hother, hkey⟩ := List.mem_map.mp hnew
      have hsorted := (List.pairwise_append.mp h.retained_sorted).2.1
      rw [← List.take_append_drop count a.pending] at hsorted
      have hlt := (List.pairwise_append.mp hsorted).2.2 other hother slot hslot
      rw [hkey] at hlt
      exact Nat.lt_irrefl _ hlt
  offered := by
    intro key hkey
    rcases List.mem_append.mp hkey with hold | hnew
    · exact h.offered hold
    · obtain ⟨slot, hslot, rfl⟩ := List.mem_map.mp hnew
      exact hoffered slot hslot
  known := h.known

theorem release : History ledger last a.release where
  admitted := by
    show ledger.admitted =
      (a.gone ++ a.resolved.map (·.header)) ++ ([] ++ a.pending).map QueueSlot.header
    rw [List.nil_append, List.append_assoc, ← List.map_append]
    exact h.admitted
  sorted := h.sorted
  bounded := h.bounded
  gone := by
    intro header hheader
    rcases List.mem_append.mp hheader with hold | hnew
    · exact h.gone header hold
    · obtain ⟨slot, hslot, rfl⟩ := List.mem_map.mp hnew
      exact .inl (h.resolved slot hslot)
  resolved := fun slot hslot => absurd hslot List.not_mem_nil
  pending := h.pending
  offered := h.offered
  known := h.known

theorem discard (hresolved : a.resolved = []) (count : Nat) :
    History ledger last (a.discard count) where
  admitted := by
    show ledger.admitted = (a.gone ++ (a.pending.take count).map (·.header)) ++
      (a.resolved ++ a.pending.drop count).map (·.header)
    rw [h.admitted, Account.retained, hresolved, List.nil_append, List.nil_append,
      List.append_assoc, ← List.map_append, List.take_append_drop]
  sorted := h.sorted
  bounded := h.bounded
  gone := by
    intro header hheader
    rcases List.mem_append.mp hheader with hold | hnew
    · exact (h.gone header hold).imp_right (List.mem_append_left _)
    · exact .inr (List.mem_append_right _ hnew)
  resolved := h.resolved
  pending := fun slot hslot => h.pending slot (List.mem_of_mem_drop hslot)
  offered := h.offered
  known := h.known

end History

/-- The counters agree with the account, and `tally` is what they would show if they did
not saturate. -/
structure TalliedBy (tally counters : Counters) (ledger : Ledger) (a : Account Payload) :
    Prop where
  tracks : counters.Tracks tally
  admitted : tally.admitted = ledger.admitted.length
  answered : tally.answered = ledger.answered.length
  dropped : ∀ control, tally (.dropped control) =
    tally (.rejected control) + a.discarded.countP (·.kind.isControl = control)
  total : ledger.admitted.length =
    ledger.answered.length + a.discarded.length + a.pending.length

def Tallied (counters : Counters) (ledger : Ledger) (a : Account Payload) : Prop :=
  ∃ tally, TalliedBy tally counters ledger a

namespace Tallied

variable {counters : Counters} (h : Tallied counters ledger a)

include h

theorem accept (slot : QueueSlot Payload) (control : Bool) :
    Tallied (counters.add (.admitted control) 1)
      { ledger with admitted := ledger.admitted ++ [slot.header] } (a.accept slot) := by
  obtain ⟨_, h⟩ := h
  obtain ⟨tally, htracks, hanswered, hadmitted, hdropped⟩ := h.tracks.accept control
  refine ⟨tally, htracks, ?_, hanswered.trans h.answered, fun other => ?_, ?_⟩
  · show tally.admitted = (ledger.admitted ++ [slot.header]).length
    rw [hadmitted, h.admitted, List.length_append, List.length_singleton]
  · rw [(hdropped other).1, (hdropped other).2]
    exact h.dropped other
  · show (ledger.admitted ++ [slot.header]).length = _ + _ + (a.pending ++ [slot]).length
    rw [List.length_append, List.length_append, h.total]
    rfl

theorem refuse (control : Bool) :
    Tallied (counters.recordFailedAdmission control) ledger a := by
  obtain ⟨_, h⟩ := h
  obtain ⟨tally, htracks, hanswered, hadmitted, hdropped⟩ :=
    h.tracks.recordFailedAdmission control
  exact ⟨tally, htracks, hadmitted.trans h.admitted, hanswered.trans h.answered,
    fun other => hdropped other _ (h.dropped other), h.total⟩

theorem offer (offered : List RecordKey) :
    Tallied counters { ledger with offered } a := by
  obtain ⟨tally, h⟩ := h
  exact ⟨tally, h.tracks, h.admitted, h.answered, h.dropped, h.total⟩

theorem answer {count : Nat} (hcount : count ≤ a.pending.length)
    {items : List RecordApplyResult} (hlength : items.length = count)
    (hitems : ∀ item ∈ items, item.outcome.counter.isSome = true) :
    Tallied (items.foldl Counters.addItem counters)
      { ledger with answered := ledger.answered ++ (a.pending.take count).map (·.key) }
      (a.answer count) := by
  obtain ⟨_, h⟩ := h
  obtain ⟨tally, htracks, hanswered, hadmitted, hdropped⟩ := h.tracks.addItems hitems
  refine ⟨tally, htracks, hadmitted.trans h.admitted, ?_, fun control => ?_, ?_⟩
  · show tally.answered = (ledger.answered ++ (a.pending.take count).map (·.key)).length
    rw [hanswered, h.answered, List.length_append, List.length_map, List.length_take,
      Nat.min_eq_left hcount, hlength]
  · rw [(hdropped control).1, (hdropped control).2]
    exact h.dropped control
  · show ledger.admitted.length =
      (ledger.answered ++ (a.pending.take count).map (·.key)).length + a.discarded.length +
        (a.pending.drop count).length
    rw [List.length_append, List.length_map, List.length_take, List.length_drop, h.total]
    omega

theorem release : Tallied counters ledger a.release := by
  obtain ⟨tally, h⟩ := h
  exact ⟨tally, h.tracks, h.admitted, h.answered, h.dropped, h.total⟩

theorem discard {count controls : Nat}
    (hcount : count ≤ a.pending.length)
    (hcontrols : controls = (a.pending.take count).countP (·.record.isControl)) :
    Tallied (counters.addDropped count controls) ledger (a.discard count) := by
  obtain ⟨before, h⟩ := h
  obtain ⟨tally, htracks, hanswered, hadmitted, hrejected, hdetail, hcontrol⟩ :=
    @Counters.Tracks.addDropped _ _ h.tracks count controls
  have hlength : (a.pending.take count).length = count := List.length_take_of_le hcount
  have hsplit : (a.pending.take count).countP (·.record.isControl) +
      (a.pending.take count).countP (fun slot => !slot.record.isControl) = count := by
    have hboth := @List.length_eq_countP_add_countP _ (fun slot => slot.record.isControl)
      (a.pending.take count)
    simp only [decide_not, Bool.decide_eq_true] at hboth
    rw [← hboth, hlength]
  have hdiscarded : ∀ control,
      (a.discarded ++ (a.pending.take count).map (·.header)).countP
          (·.kind.isControl = control) =
        a.discarded.countP (·.kind.isControl = control) +
          (a.pending.take count).countP (·.record.isControl = control) := by
    intro control
    rw [List.countP_append, List.countP_map]
    rfl
  refine ⟨tally, htracks, hadmitted.trans h.admitted, hanswered.trans h.answered,
    fun control => ?_, ?_⟩
  · show tally _ = tally _ + (a.discarded ++ _).countP _
    rw [hrejected, hdiscarded, ← Nat.add_assoc, ← h.dropped]
    cases control with
    | false =>
        show tally .droppedDetail = before .droppedDetail + _
        rw [hdetail, hcontrols]
        simp only [Bool.decide_eq_false]
        omega
    | true =>
        show tally .droppedControl = before .droppedControl + _
        rw [hcontrol, hcontrols]
        simp only [Bool.decide_eq_true]
  · show ledger.admitted.length = ledger.answered.length +
      (a.discarded ++ (a.pending.take count).map (·.header)).length + (a.pending.drop count).length
    rw [List.length_append, List.length_map, hlength, List.length_drop, h.total]
    omega

end Tallied

end Transport

end Duris.Telemetry
