import Duris.Flatfile.MaterializationReconcile
import Duris.Lib.Compaction
import Duris.Lib.Sha256

/-!
# The compacted log says the same

An event states that its player's items are mentioned and, when it brings them in, how
they look: these are its facts, and `retained_event_indexes` is the compaction of
`Lib.Compaction` over them, with the raises as the entries that must stay
(`retainedEvents_eq`). A login reads the log by a fold that changes only what the facts of
an event are about (`readsLog`), so it reads the same from the compacted one.
-/

namespace Duris.Flatfile.Materialization

open Persistence Player Item Economy Ownership
open Compaction (scan compact)

variable {latest : Latest} {events : List MaterializationEvent} {catalog : MaterializationCatalog}
  {sha256 : Bytes → Vector UInt8 32}

/-! ## The facts of an event -/

inductive Fact where
  | mention (key : PlayerItemKey)
  | inbound (key : PlayerItemKey)

def itemFacts (playerPid : BitVec 32) (inbound : Bool) (item : PlayerItemSnapshot) : Set Fact :=
  fun fact => fact = .mention ⟨playerPid, item.objectUid⟩ ∨
    (inbound = true ∧ fact = .inbound ⟨playerPid, item.objectUid⟩)

def listFacts (playerPid : BitVec 32) (inbound : Bool) : List PlayerItemSnapshot → Set Fact
  | [] => ∅
  | item :: items => itemFacts playerPid inbound item ∪ listFacts playerPid inbound items

def eventFacts (event : MaterializationEvent) : Set Fact :=
  match decodeItems event with
  | none => ∅
  | some items => listFacts event.playerPid event.action.inbound items

def Raises (event : MaterializationEvent) : Prop := event.action = .petRaise

def Latest.facts (latest : Latest) : Set Fact
  | .mention key => key ∈ latest.mentions
  | .inbound key => key ∈ latest.inbound

/-- Every event can be decoded, as `decode_catalog` checks. -/
def Decodes (events : List MaterializationEvent) : Prop :=
  ∀ event ∈ events, ∃ items, decodeItems event = some items

@[simp] theorem mention_mem_itemFacts {playerPid : BitVec 32} {inbound : Bool}
    {item : PlayerItemSnapshot} {key : PlayerItemKey} :
    Fact.mention key ∈ itemFacts playerPid inbound item ↔ key = ⟨playerPid, item.objectUid⟩ := by
  constructor
  · intro h
    rcases h with h | ⟨-, h⟩
    · exact Fact.mention.inj h
    · cases h
  · intro h
    exact .inl (congrArg Fact.mention h)

@[simp] theorem inbound_mem_itemFacts {playerPid : BitVec 32} {inbound : Bool}
    {item : PlayerItemSnapshot} {key : PlayerItemKey} :
    Fact.inbound key ∈ itemFacts playerPid inbound item ↔
      inbound = true ∧ key = ⟨playerPid, item.objectUid⟩ := by
  constructor
  · intro h
    rcases h with h | ⟨hin, h⟩
    · cases h
    · exact ⟨hin, Fact.inbound.inj h⟩
  · intro h
    exact .inr ⟨h.1, congrArg Fact.inbound h.2⟩

theorem Latest.mention_mem {key : PlayerItemKey} :
    Fact.mention key ∈ latest.facts ↔ key ∈ latest.mentions := Iff.rfl

theorem Latest.inbound_mem {key : PlayerItemKey} :
    Fact.inbound key ∈ latest.facts ↔ key ∈ latest.inbound := Iff.rfl

theorem Latest.facts_empty : ({} : Latest).facts = ∅ := by
  ext fact
  cases fact with
  | mention key => simp [mention_mem]
  | inbound key => simp [inbound_mem]

theorem Latest.facts_add (latest : Latest) (event : MaterializationEvent)
    (item : PlayerItemSnapshot) :
    (latest.add event item).facts =
      latest.facts ∪ itemFacts event.playerPid event.action.inbound item := by
  ext fact
  rw [Set.mem_union]
  cases fact with
  | mention key =>
      rw [mention_mem_itemFacts, mention_mem, mention_mem, add, Finset.mem_insert, or_comm]
  | inbound key =>
      rw [inbound_mem_itemFacts, inbound_mem, inbound_mem, add]
      cases event.action.inbound with
      | true => simp [or_comm]
      | false => simp

theorem Latest.facts_foldl (event : MaterializationEvent) (items : List PlayerItemSnapshot) :
    ∀ latest : Latest, (items.foldl (fun latest item => latest.add event item) latest).facts =
      latest.facts ∪ listFacts event.playerPid event.action.inbound items := by
  induction items with
  | nil => intro latest; exact (Set.union_empty _).symm
  | cons item items ih =>
      intro latest
      rw [List.foldl_cons, ih, Latest.facts_add, listFacts, Set.union_assoc]

theorem required_iff {event : MaterializationEvent} {items : List PlayerItemSnapshot} :
    required event items latest = true ↔
      Raises event ∨ ¬ listFacts event.playerPid event.action.inbound items ⊆ latest.facts := by
  rw [required, Bool.or_eq_true, beq_iff_eq]
  refine or_congr_right ?_
  induction items with
  | nil => simp [listFacts]
  | cons item items ih =>
      have hitem : itemFacts event.playerPid event.action.inbound item ⊆ latest.facts ↔
          ⟨event.playerPid, item.objectUid⟩ ∈ latest.mentions ∧ (event.action.inbound = true →
            ⟨event.playerPid, item.objectUid⟩ ∈ latest.inbound) := by
        constructor
        · intro h
          exact ⟨h (mention_mem_itemFacts.mpr rfl),
            fun hin => h (inbound_mem_itemFacts.mpr ⟨hin, rfl⟩)⟩
        · intro h fact hfact
          cases fact with
          | mention key =>
              rw [mention_mem_itemFacts.mp hfact]
              exact h.1
          | inbound key =>
              obtain ⟨hin, rfl⟩ := inbound_mem_itemFacts.mp hfact
              exact h.2 hin
      rw [List.any_cons, Bool.or_eq_true, ih, listFacts, Set.union_subset_iff, not_and_or, hitem]
      refine or_congr_left ?_
      cases event.action.inbound with
      | true => simp [imp_iff_not_or]
      | false => simp

theorem retainedEvents_eq (h : Decodes events) :
    ∃ latest : Latest, retainedEvents events = some ((scan eventFacts Raises ∅ events).1, latest) ∧
      latest.facts = (scan eventFacts Raises ∅ events).2 := by
  induction events with
  | nil => exact ⟨{}, rfl, Latest.facts_empty⟩
  | cons event events ih =>
      obtain ⟨latest, hretained, hlatest⟩ := ih fun e he => h e (List.mem_cons_of_mem _ he)
      obtain ⟨items, hitems⟩ := h event List.mem_cons_self
      have hfacts : eventFacts event = listFacts event.playerPid event.action.inbound items := by
        rw [eventFacts, hitems]
      refine ⟨items.foldl (fun latest item => latest.add event item) latest, ?_, ?_⟩
      · rw [retainedEvents, hretained]
        simp only [hitems, scan, ← hlatest, hfacts, ← required_iff]
      · rw [Latest.facts_foldl, hlatest, ← hfacts]
        rfl

theorem retainedEvents_none (h : ¬ Decodes events) : retainedEvents events = none := by
  induction events with
  | nil => exact absurd (fun _ he => by cases he) h
  | cons event events ih =>
      rw [retainedEvents]
      by_cases hrest : Decodes events
      · obtain ⟨latest, hretained, -⟩ := retainedEvents_eq hrest
        have hevent : decodeItems event = none := by
          by_contra hsome
          refine h fun e he => ?_
          cases List.mem_cons.mp he with
          | inl hhead => rw [hhead]; exact Option.ne_none_iff_exists'.mp hsome
          | inr htail => exact hrest e htail
        rw [hretained]
        simp only [hevent]
      · rw [ih hrest]

theorem compactCatalog_eq (h : Decodes catalog.events) :
    compactCatalog catalog =
      some { catalog with events := compact eventFacts Raises catalog.events } := by
  obtain ⟨latest, hretained, -⟩ := retainedEvents_eq h
  rw [compactCatalog, hretained]
  rfl

theorem compactCatalog_none (h : ¬ Decodes catalog.events) : compactCatalog catalog = none := by
  rw [compactCatalog, retainedEvents_none h]
  rfl

theorem compactCatalog_eq_some {catalog compacted : MaterializationCatalog} :
    compactCatalog catalog = some compacted ↔ Decodes catalog.events ∧
      { catalog with events := compact eventFacts Raises catalog.events } = compacted := by
  by_cases h : Decodes catalog.events
  · rw [compactCatalog_eq h, Option.some.injEq, and_iff_right h]
  · rw [compactCatalog_none h]
    constructor
    · intro hnone
      cases hnone
    · intro hboth
      exact absurd hboth.1 h

theorem decodes_append {events more : List MaterializationEvent} :
    Decodes (events ++ more) ↔ Decodes events ∧ Decodes more := by
  constructor
  · intro h
    exact ⟨fun event he => h event (List.mem_append_left _ he),
      fun event he => h event (List.mem_append_right _ he)⟩
  · intro h event he
    exact (List.mem_append.mp he).elim (h.1 event) (h.2 event)

theorem Decodes.compact (h : Decodes events) :
    Decodes (Compaction.compact eventFacts Raises events) :=
  fun event hevent => h event (Compaction.compact_subset hevent)

/-! ## Reading the log -/

section Reading

variable {playerPid : BitVec 32} {facts : Set Fact} {s s' : Reading}

/-- Two readings of the player's log that differ only in what these facts are about. -/
structure Agree (playerPid : BitVec 32) (facts : Set Fact) (s s' : Reading) : Prop where
  raised : s.raisedPets = s'.raisedPets
  mentioned : ∀ uid, Fact.mention ⟨playerPid, uid⟩ ∉ facts →
    (uid ∈ s.mentioned ↔ uid ∈ s'.mentioned)
  inbound : ∀ uid, Fact.inbound ⟨playerPid, uid⟩ ∉ facts →
    s.latestInbound uid = s'.latestInbound uid

theorem Agree.refl (facts : Set Fact) (s : Reading) : Agree playerPid facts s s :=
  ⟨rfl, fun _ _ => Iff.rfl, fun _ _ => rfl⟩

theorem Agree.mono {facts' : Set Fact} (hsub : facts ⊆ facts') (h : Agree playerPid facts s s') :
    Agree playerPid facts' s s' :=
  ⟨h.raised, fun uid hnot => h.mentioned uid fun hmem => hnot (hsub hmem),
    fun uid hnot => h.inbound uid fun hmem => hnot (hsub hmem)⟩

theorem Agree.eq (h : Agree playerPid ∅ s s') : s = s' := by
  obtain ⟨raised, mentioned, inbound⟩ := s
  obtain ⟨raised', mentioned', inbound'⟩ := s'
  obtain rfl : raised = raised' := h.raised
  obtain rfl : mentioned = mentioned' := Finset.ext fun uid => h.mentioned uid (Set.notMem_empty _)
  obtain rfl : inbound = inbound' := funext fun uid => h.inbound uid (Set.notMem_empty _)
  rfl

theorem Agree.mention {inbound : Bool} {item : PlayerItemSnapshot}
    (h : Agree playerPid (facts ∪ itemFacts playerPid inbound item) s s') :
    Agree playerPid facts (s.mention inbound item) (s'.mention inbound item) := by
  refine ⟨h.raised, ?_, ?_⟩
  · intro uid hnot
    show uid ∈ insert _ s.mentioned ↔ uid ∈ insert _ s'.mentioned
    rw [Finset.mem_insert, Finset.mem_insert]
    by_cases hitem : uid = item.objectUid
    · simp [hitem]
    · rw [h.mentioned uid]
      intro hmem
      rcases hmem with hmem | hmem
      · exact hnot hmem
      · exact hitem (congrArg PlayerItemKey.itemUid (mention_mem_itemFacts.mp hmem))
  · intro uid hnot
    have hother : (inbound = true → uid ≠ item.objectUid) →
        s.latestInbound uid = s'.latestInbound uid := by
      intro hitem
      refine h.inbound uid fun hmem => ?_
      rcases hmem with hmem | hmem
      · exact hnot hmem
      · obtain ⟨hin, hkey⟩ := inbound_mem_itemFacts.mp hmem
        exact hitem hin (congrArg PlayerItemKey.itemUid hkey)
    cases inbound with
    | false => exact hother fun hin => absurd hin Bool.false_ne_true
    | true =>
        show Function.update s.latestInbound _ _ uid = Function.update s'.latestInbound _ _ uid
        by_cases hitem : uid = item.objectUid
        · rw [hitem, Function.update_self, Function.update_self]
        · rw [Function.update_of_ne hitem, Function.update_of_ne hitem]
          exact hother fun _ => hitem

theorem Agree.foldl {inbound : Bool} (items : List PlayerItemSnapshot) :
    ∀ {s s' : Reading}, Agree playerPid (facts ∪ listFacts playerPid inbound items) s s' →
      Agree playerPid facts (items.foldl (Reading.mention inbound) s)
        (items.foldl (Reading.mention inbound) s') := by
  induction items with
  | nil =>
      intro s s' h
      exact h.mono (by rw [listFacts, Set.union_empty])
  | cons item items ih =>
      intro s s' h
      rw [listFacts, Set.union_comm (itemFacts _ _ _), ← Set.union_assoc] at h
      exact ih h.mention

theorem agree_mention (inbound : Bool) (s : Reading) (item : PlayerItemSnapshot) :
    Agree playerPid (itemFacts playerPid inbound item) s (s.mention inbound item) := by
  refine ⟨rfl, ?_, ?_⟩
  · intro uid hnot
    show uid ∈ s.mentioned ↔ uid ∈ insert _ s.mentioned
    rw [Finset.mem_insert, or_iff_right]
    intro hitem
    exact hnot (mention_mem_itemFacts.mpr (by rw [hitem]))
  · intro uid hnot
    cases inbound with
    | false => rfl
    | true =>
        refine (Function.update_of_ne ?_ _ _).symm
        intro hitem
        exact hnot (inbound_mem_itemFacts.mpr ⟨rfl, by rw [hitem]⟩)

theorem Agree.trans {s'' : Reading} (h : Agree playerPid facts s s')
    (h' : Agree playerPid facts s' s'') : Agree playerPid facts s s'' :=
  ⟨h.raised.trans h'.raised,
    fun uid hnot => (h.mentioned uid hnot).trans (h'.mentioned uid hnot),
    fun uid hnot => (h.inbound uid hnot).trans (h'.inbound uid hnot)⟩

theorem agree_foldl (inbound : Bool) (items : List PlayerItemSnapshot) :
    ∀ s : Reading, Agree playerPid (listFacts playerPid inbound items) s
      (items.foldl (Reading.mention inbound) s) := by
  induction items with
  | nil => exact Agree.refl _
  | cons item items ih =>
      intro s
      exact ((agree_mention inbound s item).mono Set.subset_union_left).trans
        ((ih _).mono Set.subset_union_right)

theorem Agree.raise (h : Agree playerPid facts s s') (pet : PlayerPetSnapshot) :
    (s.raise pet = none ∧ s'.raise pet = none) ∨
    ∃ t t', s.raise pet = some t ∧ s'.raise pet = some t' ∧ Agree playerPid facts t t' := by
  rw [Reading.raise, Reading.raise, h.raised]
  split
  · exact .inl ⟨rfl, rfl⟩
  · exact .inr ⟨_, _, rfl, rfl, ⟨rfl, h.mentioned, h.inbound⟩⟩

theorem Agree.other {event : MaterializationEvent} (hpid : event.playerPid ≠ playerPid)
    (h : Agree playerPid (facts ∪ eventFacts event) s s') : Agree playerPid facts s s' := by
  have hnone : ∀ inbound items uid,
      Fact.mention ⟨playerPid, uid⟩ ∉ listFacts event.playerPid inbound items ∧
        Fact.inbound ⟨playerPid, uid⟩ ∉ listFacts event.playerPid inbound items := by
    intro inbound items uid
    induction items with
    | nil => exact ⟨Set.notMem_empty _, Set.notMem_empty _⟩
    | cons item items ih =>
        refine ⟨?_, ?_⟩
        · intro hmem
          rcases hmem with hmem | hmem
          · exact hpid (congrArg PlayerItemKey.playerPid (mention_mem_itemFacts.mp hmem)).symm
          · exact ih.1 hmem
        · intro hmem
          rcases hmem with hmem | hmem
          · exact hpid (congrArg PlayerItemKey.playerPid (inbound_mem_itemFacts.mp hmem).2).symm
          · exact ih.2 hmem
  have hevent : ∀ uid, Fact.mention ⟨playerPid, uid⟩ ∉ eventFacts event ∧
      Fact.inbound ⟨playerPid, uid⟩ ∉ eventFacts event := by
    intro uid
    rw [eventFacts]
    cases decodeItems event with
    | none => exact ⟨Set.notMem_empty _, Set.notMem_empty _⟩
    | some items => exact hnone _ _ uid
  exact ⟨h.raised,
    fun uid hnot => h.mentioned uid fun hmem => hmem.elim hnot (hevent uid).1,
    fun uid hnot => h.inbound uid fun hmem => hmem.elim hnot (hevent uid).2⟩

/-! ### The loop over the events -/

theorem decodePetEvent_some {event : MaterializationEvent} {items : List PlayerItemSnapshot}
    (hraise : event.action = .petRaise) (h : decodeItems event = some items) :
    ∃ pet, decodePetEvent event = some (pet, items) := by
  rw [decodeItems, if_pos hraise] at h
  obtain ⟨⟨pet, items'⟩, hpet, rfl⟩ := Option.map_eq_some_iff.mp h
  exact ⟨pet, hpet⟩

/-- The login's loop over a log that decodes is a reader that compaction respects. -/
theorem readsLog {events : List MaterializationEvent} (h : Decodes events) :
    Compaction.Reads eventFacts Raises (Reading.event playerPid) (Agree playerPid) events := by
  refine ⟨Agree.refl, fun _ _ => Agree.eq, Agree.mono, ?_, ?_⟩
  · intro event hevent facts s s' hagree
    obtain ⟨items, hitems⟩ := h event hevent
    rw [Reading.event, Reading.event]
    by_cases hpid : event.playerPid ≠ playerPid
    · rw [if_pos hpid, if_pos hpid]
      exact .inr ⟨s, s', rfl, rfl, hagree.other hpid⟩
    · rw [if_neg hpid, if_neg hpid]
      have hfacts : eventFacts event = listFacts playerPid event.action.inbound items := by
        rw [eventFacts, hitems, ← not_not.mp hpid]
      rw [hfacts] at hagree
      by_cases hraise : event.action = .petRaise
      · rw [if_pos hraise, if_pos hraise]
        obtain ⟨pet, hpet⟩ := decodePetEvent_some hraise hitems
        simp only [hpet]
        rcases hagree.raise pet with ⟨hnone, hnone'⟩ | ⟨t, t', ht, ht', hrest⟩
        · rw [hnone, hnone']
          exact .inl ⟨.invalid, rfl, rfl⟩
        · rw [ht, ht']
          exact .inr ⟨_, _, rfl, rfl, hrest.foldl items⟩
      · rw [if_neg hraise, if_neg hraise]
        simp only [hitems]
        exact .inr ⟨_, _, rfl, rfl, hagree.foldl items⟩
  · intro event hevent s hraise
    obtain ⟨items, hitems⟩ := h event hevent
    rw [Reading.event]
    by_cases hpid : event.playerPid ≠ playerPid
    · rw [if_pos hpid]
      exact ⟨s, rfl, Agree.refl _ _⟩
    · rw [if_neg hpid, if_neg (show ¬ event.action = .petRaise from hraise)]
      simp only [hitems]
      have hfacts : eventFacts event = listFacts playerPid event.action.inbound items := by
        rw [eventFacts, hitems, ← not_not.mp hpid]
      rw [hfacts]
      exact ⟨_, rfl, agree_foldl _ _ _⟩

end Reading

theorem readLog_compact (h : Decodes events) (playerPid : BitVec 32) :
    readLog playerPid (compact eventFacts Raises events) = readLog playerPid events :=
  (readsLog h).foldlM_compact (fun _ he => he) {}

/-! ## The file -/

theorem Decodes.of_valid (h : ∀ event ∈ events, validEvent event = true) : Decodes events := by
  intro event hevent
  have hvalid := h event hevent
  rw [validEvent, Bool.and_eq_true] at hvalid
  exact Option.isSome_iff_exists.mp hvalid.2

theorem decodeCatalog_decodes {bytes : Bytes} (h : decodeCatalog sha256 bytes = some catalog) :
    Decodes catalog.events := by
  have hread := Reader.whole_eq_some.mp h
  simp only [readCatalog, Reader.bind_eq_ok, Reader.pure_eq_ok, Reader.ofOption_eq_ok] at hread
  obtain ⟨_, _, -, _, _, -, _, _, -, _, _, -, _, _, -, _, _, -, _, _, -, _, _, -, events, _,
    ⟨hevents, -⟩, rfl, -⟩ := hread
  have hpayload := Reader.whole_eq_some.mp hevents
  simp only [readEvents, Reader.bind_eq_ok] at hpayload
  obtain ⟨_, _, -, _, _, -, hmany⟩ := hpayload
  refine Decodes.of_valid (Reader.many_all ?_ hmany)
  intro event input rest hevent
  simp only [readEvent, Reader.bind_eq_ok, Reader.pure_eq_ok, Reader.require_eq_ok] at hevent
  obtain ⟨_, _, -, _, _, -, _, _, -, _, _, -, _, _, -, _, _, -, _, _, ⟨hvalid, -⟩, rfl, -⟩ := hevent
  exact hvalid

theorem readEvent_append {event : MaterializationEvent} (h : validEvent event = true)
    (rest : Bytes) : readEvent (encodeEvent event ++ rest) = .ok (event, rest) := by
  obtain ⟨operationId, action, playerPid, itemBlob⟩ := event
  have hvalid := h
  simp only [validEvent, Bool.and_eq_true, bne_iff_ne, decide_eq_true_eq] at h
  obtain ⟨⟨⟨-, hblob⟩, hsize⟩, -⟩ := h
  have hlength : (BitVec.ofNat 32 itemBlob.length).toNat = itemBlob.length :=
    toNat_ofNat_of_le hsize (by decide)
  have hne : BitVec.ofNat 32 itemBlob.length ≠ 0 := by
    intro hzero
    have hnil := congrArg BitVec.toNat hzero
    rw [hlength] at hnil
    exact hblob (List.length_eq_zero_iff.mp hnil)
  simp only [encodeEvent, List.append_assoc]
  rw [readEvent, Reader.raw_bind operationId.2, Reader.field_bind, Reader.field_bind,
    Reader.field_bind, Reader.require_bind ⟨hne, by rw [hlength]; exact hsize⟩,
    Reader.raw_bind hlength.symm]
  exact Reader.require_bind hvalid _

theorem encodeCatalog_eq_some {bytes : Bytes} (h : encodeCatalog sha256 catalog = some bytes) :
    catalog.revision ≠ 0 ∧ catalog.events ≠ [] ∧ catalog.events.length ≤ catalogMaximumEvents ∧
    (∀ event ∈ catalog.events, validEvent event = true) ∧
    (encodeEvents catalog.events).length ≤ catalogMaximumBytes ∧
    bytes = catalogMagic ++ appendLe catalogVersion ++
      appendLe (BitVec.ofNat 32 (encodeEvents catalog.events).length) ++
      appendLe catalog.revision ++ (sha256 (encodeEvents catalog.events)).toList ++
      encodeEvents catalog.events := by
  unfold encodeCatalog at h
  split at h
  · cases h
  · next hchecked =>
    split at h
    · cases h
    · next hpayload =>
      simp only [not_or, Bool.not_eq_false, Nat.not_lt, List.all_eq_true] at hchecked hpayload
      obtain ⟨hrevision, hnonempty, hcount, hvalid⟩ := hchecked
      cases hfile : decide (catalogMaximumBytes < (catalogMagic ++ appendLe catalogVersion ++
          appendLe (BitVec.ofNat 32 (encodeEvents catalog.events).length) ++
          appendLe catalog.revision ++ (sha256 (encodeEvents catalog.events)).toList ++
          encodeEvents catalog.events).length) with
      | true =>
          rw [if_pos (of_decide_eq_true hfile)] at h
          cases h
      | false =>
          rw [if_neg (of_decide_eq_false hfile)] at h
          exact ⟨hrevision, hnonempty, hcount, hvalid, hpayload, (Option.some.inj h).symm⟩

theorem decodeCatalog_encode {bytes : Bytes} (h : encodeCatalog sha256 catalog = some bytes) :
    decodeCatalog sha256 bytes = some catalog := by
  obtain ⟨hrevision, hnonempty, hcount, hvalid, hsize, rfl⟩ := encodeCatalog_eq_some h
  have hlength : (BitVec.ofNat 32 (encodeEvents catalog.events).length).toNat =
      (encodeEvents catalog.events).length := toNat_ofNat_of_le hsize (by decide)
  have hevents : (BitVec.ofNat 32 catalog.events.length).toNat = catalog.events.length :=
    toNat_ofNat_of_le hcount (by decide)
  have hne : BitVec.ofNat 32 catalog.events.length ≠ 0 := by
    intro hzero
    have hnil := congrArg BitVec.toNat hzero
    rw [hevents] at hnil
    exact hnonempty (List.length_eq_zero_iff.mp hnil)
  have hrows : Reader.whole readEvents (encodeEvents catalog.events) = some catalog.events := by
    have hmany := Reader.many_run
      (fun event hevent => readEvent_append (hvalid event hevent)) []
    rw [List.append_nil] at hmany
    refine Reader.whole_eq_some.mpr ?_
    rw [readEvents, encodeEvents, Reader.field_bind,
      Reader.require_bind ⟨hne, by rw [hevents]; exact hcount⟩, hevents]
    exact hmany
  refine Reader.whole_eq_some.mpr ?_
  simp only [List.append_assoc]
  rw [readCatalog, Reader.raw_bind rfl, Reader.require_bind rfl, Reader.field_bind,
    Reader.field_bind, Reader.field_bind, Reader.raw_bind (by simp),
    Reader.bind_run (Reader.takeRest_eq_ok.mpr ⟨rfl, rfl⟩),
    Reader.require_bind ⟨rfl, hrevision, hlength, rfl⟩, hrows]
  rfl

/-! ## Appending -/

/-- The bytes are those of the stored log with these events behind it. -/
def Appends (sha256 : Bytes → Vector UInt8 32) (store : Option Bytes)
    (additions : List MaterializationEvent) (bytes : Bytes) : Prop :=
  ∃ uncompacted catalog operationId appended, loadCatalog sha256 store = .ok catalog ∧
    appendEvents uncompacted catalog operationId additions = .ok appended ∧
    encodeCatalog sha256 appended = some bytes

/-- The end of the three `prepare` functions; `refused` is what a transfer asks besides. -/
theorem appends_of_prepare {store : Option Bytes} {refused : MaterializationCatalog → Prop}
    [∀ catalog, Decidable (refused catalog)] {uncompacted : Refusal}
    {operationId : CriticalOperationId} {additions : List MaterializationEvent} {bytes : Bytes}
    (h : (do
      let catalog ← loadCatalog sha256 store
      if refused catalog then .error .invalid
      else
        let appended ← appendEvents uncompacted catalog operationId additions
        afterImage sha256 appended) = Except.ok bytes) : Appends sha256 store additions bytes := by
  cases hload : loadCatalog sha256 store with
  | error refusal =>
      rw [hload] at h
      cases h
  | ok catalog =>
      simp only [hload, bind, Except.bind] at h
      split at h
      · cases h
      · cases happend : appendEvents uncompacted catalog operationId additions with
        | error refusal =>
            rw [happend] at h
            cases h
        | ok appended =>
            simp only [happend, afterImage] at h
            cases hencode : encodeCatalog sha256 appended with
            | none =>
                rw [hencode] at h
                cases h
            | some image =>
                rw [hencode] at h
                cases h
                exact ⟨uncompacted, catalog, operationId, appended, hload, happend, hencode⟩

theorem LogRequest.appends {store : Option Bytes} {request : LogRequest} {bytes : Bytes}
    (h : request.prepare sha256 store = .ok bytes) :
    Appends sha256 store request.additions bytes := by
  cases request with
  | trade operationId payload =>
      rw [prepare, shopTradeMaterializationPrepare] at h
      split at h
      · cases h
      · cases hitems : decodeItems (tradeEvent operationId payload) with
        | none => rw [hitems] at h; cases h
        | some items =>
            simp only [hitems] at h
            split at h
            · cases h
            · exact @appends_of_prepare _ _ (fun _ => False) _ _ _ _ _ h
  | transfer operationId payload =>
      rw [prepare, itemTransferMaterializationPrepare] at h
      split at h
      · cases h
      · cases hitems : decodeItems { operationId, action := .unknown, playerPid := 0
                                     itemBlob := payload.itemBlob } with
        | none => rw [hitems] at h; cases h
        | some items =>
            simp only [hitems] at h
            split at h
            · cases h
            · cases hadditions : transferAdditions operationId payload with
              | none => rw [hadditions] at h; cases h
              | some events =>
                  cases events with
                  | nil => rw [hadditions] at h; cases h
                  | cons event events =>
                      simp only [hadditions] at h
                      rw [additions, hadditions]
                      exact appends_of_prepare h
  | corpse operationId payload items =>
      rw [prepare, corpseResurrectionMaterializationPrepare] at h
      split at h
      · cases h
      · split at h
        · cases h
        · cases hblob : playerItemSnapshotListEncode items with
          | none => rw [hblob] at h; cases h
          | some blob =>
              simp only [hblob] at h
              split at h
              · cases h
              · rw [additions, hblob]
                exact @appends_of_prepare _ _ (fun _ => False) _ _ _ _ _ h

/-! ## The log over time -/

theorem compactCatalog_twice (catalog : MaterializationCatalog) :
    (compactCatalog catalog).bind compactCatalog = compactCatalog catalog := by
  by_cases h : Decodes catalog.events
  · rw [compactCatalog_eq h, Option.bind_some, compactCatalog_eq h.compact,
      Compaction.compact_compact]
  · rw [compactCatalog_none h]
    rfl

theorem compactCatalog_append (catalog : MaterializationCatalog)
    (additions : List MaterializationEvent) :
    (compactCatalog catalog).bind (fun compacted =>
        compactCatalog { compacted with events := compacted.events ++ additions }) =
      compactCatalog { catalog with events := catalog.events ++ additions } := by
  by_cases h : Decodes catalog.events
  · rw [compactCatalog_eq h, Option.bind_some]
    by_cases hadditions : Decodes additions
    · rw [compactCatalog_eq (decodes_append.mpr ⟨h.compact, hadditions⟩),
        compactCatalog_eq (decodes_append.mpr ⟨h, hadditions⟩), Compaction.compact_append]
    · rw [compactCatalog_none fun hall => hadditions (decodes_append.mp hall).2,
        compactCatalog_none fun hall => hadditions (decodes_append.mp hall).2]
  · rw [compactCatalog_none h, compactCatalog_none fun hall => h (decodes_append.mp hall).1]
    rfl

/-- The file holds the compaction of the whole history. -/
def MaterializationLog.Compacted (sha256 : Bytes → Vector UInt8 32) (log : MaterializationLog) :
    Prop :=
  ∃ held, loadCatalog sha256 log.store = .ok held ∧
    compactCatalog { held with events := log.history } = some held

theorem appendEvents_eq_ok {uncompacted : Refusal} {catalog appended : MaterializationCatalog}
    {operationId : CriticalOperationId} {additions : List MaterializationEvent}
    (h : appendEvents uncompacted catalog operationId additions = .ok appended) :
    ∃ compacted, compactCatalog { catalog with events := catalog.events ++ additions } =
      some compacted ∧ appended = { compacted with revision := compacted.revision + 1 } := by
  unfold appendEvents at h
  split at h
  · cases h
  · cases hcompact : compactCatalog catalog with
    | none => rw [hcompact] at h; cases h
    | some compacted =>
        simp only [hcompact] at h
        split at h
        · cases h
        · cases hagain : compactCatalog
              { compacted with events := compacted.events ++ additions } with
          | none => rw [hagain] at h; cases h
          | some whole =>
              rw [hagain] at h
              refine ⟨whole, ?_, (Except.ok.inj h).symm⟩
              rw [← compactCatalog_append, hcompact, Option.bind_some, hagain]

theorem MaterializationLog.Compacted.step {log : MaterializationLog} (h : log.Compacted sha256)
    (request : LogRequest) : (log.step sha256 request).Compacted sha256 := by
  rw [MaterializationLog.step]
  cases hprepare : request.prepare sha256 log.store with
  | error refusal => exact h
  | ok bytes =>
      obtain ⟨held, hload, hheld⟩ := h
      obtain ⟨uncompacted, catalog, operationId, appended, hload', happend, hencode⟩ :=
        LogRequest.appends hprepare
      obtain rfl := Except.ok.inj (hload.symm.trans hload')
      obtain ⟨compacted, hcompacted, rfl⟩ := appendEvents_eq_ok happend
      have hhistory := compactCatalog_append { held with events := log.history } request.additions
      rw [hheld, Option.bind_some, hcompacted] at hhistory
      obtain ⟨hdecodes, hevents⟩ := compactCatalog_eq_some.mp hhistory.symm
      have hstore : loadCatalog sha256 (some bytes) =
          .ok { compacted with revision := compacted.revision + 1 } := by
        rw [loadCatalog, decodeCatalog_encode hencode]
      refine ⟨_, hstore, compactCatalog_eq_some.mpr ⟨hdecodes, ?_⟩⟩
      rw [← hevents]

/-- What a login makes of a save does not depend on whether the log is compacted. -/
theorem reconcileCatalog_compact {catalog compacted : MaterializationCatalog}
    (hdecodes : Decodes catalog.events) (h : compactCatalog catalog = some compacted)
    (order : IterationOrder) (custody : Option OwnershipCatalog) (playerPid : BitVec 32)
    (owned : List FlatfileItemOwnershipRecord) (snapshot : PlayerSnapshot) :
    reconcileCatalog order custody compacted playerPid owned snapshot =
      reconcileCatalog order custody catalog playerPid owned snapshot := by
  obtain rfl := (compactCatalog_eq_some.mp h).2
  rw [reconcileCatalog, reconcileCatalog, readLog_compact hdecodes]

/-- A catalogue that can be read is compacted to one with which every login makes the same of
every save, in memory and as a file; compacting it again changes nothing, before an append
or not; and a log that is only appended to holds the compaction of all it was ever given. -/
theorem compaction_preserves (sha256 : Bytes → Vector UInt8 32) {bytes : Bytes}
    {catalog : MaterializationCatalog} (h : decodeCatalog sha256 bytes = some catalog) :
    (∃ compacted, compactCatalog catalog = some compacted ∧
      (∀ order custody playerPid owned snapshot,
        reconcileCatalog order custody compacted playerPid owned snapshot =
          reconcileCatalog order custody catalog playerPid owned snapshot) ∧
      ∀ image, encodeCatalog sha256 compacted = some image →
        ∀ order custodyStore playerPid owned snapshot,
          reconcile sha256 order (some image) custodyStore playerPid owned snapshot =
            reconcile sha256 order (some bytes) custodyStore playerPid owned snapshot) ∧
    (∀ catalog, (compactCatalog catalog).bind compactCatalog = compactCatalog catalog) ∧
    (∀ catalog additions, (compactCatalog catalog).bind (fun compacted =>
        compactCatalog { compacted with events := compacted.events ++ additions }) =
      compactCatalog { catalog with events := catalog.events ++ additions }) ∧
    ∀ requests, (run (MaterializationLog.step sha256) {} requests).Compacted sha256 := by
  have hdecodes := decodeCatalog_decodes h
  have hsame := fun order custody playerPid owned snapshot =>
    reconcileCatalog_compact hdecodes (compactCatalog_eq hdecodes) order custody playerPid owned
      snapshot
  refine ⟨⟨_, compactCatalog_eq hdecodes, hsame, ?_⟩, compactCatalog_twice, compactCatalog_append,
    ?_⟩
  · intro image himage order custodyStore playerPid owned snapshot
    rw [reconcile, reconcile]
    split
    · rfl
    · rw [loadCatalog, loadCatalog, decodeCatalog_encode himage, h]
      exact hsame _ _ _ _ _
  · intro requests
    refine run_invariant (fun _ request hlog => hlog.step request) requests ?_
    exact ⟨{}, rfl, rfl⟩

def boughtItem : PlayerItemSnapshot :=
  { parentIndex := noParentIndex, equipmentSlot := 0, objectUid := 9, generatedKey := 0
    vnum := 5, type := 1, stringMask := 0, name := [], shortDescription := [], description := []
    actionDescription := [], values := Vector.replicate 8 0, timers := Vector.replicate 6 0
    wearFlags := 0, extraFlags := 0, antiFlags := 0, anti2Flags := 0, extra2Flags := 0
    weight := 0, material := 0, cost := 0, condition := 0, craftsmanship := 0
    bitvectors := Vector.replicate 5 0, affects := Vector.replicate 4 (Vector.replicate 2 0)
    dynamicAffects := [], extraDescriptions := [] }

def boughtBy (operation : UInt8) : MaterializationEvent :=
  { operationId := ⟨List.replicate 16 operation, List.length_replicate⟩
    action := .buyExisting, playerPid := 7, itemBlob := (encodeItems [boughtItem]).bytes }

def boughtTwice : MaterializationCatalog := { revision := 1, events := [boughtBy 1, boughtBy 2] }

/-- The first of the two goes, and no login sees it. -/
theorem bought_twice_compacts : ∃ bytes, decodeCatalog Sha256.hash bytes = some boughtTwice ∧
    compactCatalog boughtTwice = some { revision := 1, events := [boughtBy 2] } ∧
    ∀ order custody playerPid owned snapshot,
      reconcileCatalog order custody { revision := 1, events := [boughtBy 2] } playerPid owned
          snapshot =
        reconcileCatalog order custody boughtTwice playerPid owned snapshot := by
  have hencode : (encodeCatalog Sha256.hash boughtTwice).isSome = true := by decide +kernel
  have hcompact : compactCatalog boughtTwice = some { revision := 1, events := [boughtBy 2] } := by
    decide +kernel
  obtain ⟨bytes, hbytes⟩ := Option.isSome_iff_exists.mp hencode
  have hdecode := decodeCatalog_encode hbytes
  obtain ⟨⟨compacted, hcompacted, hsame, -⟩, -⟩ := compaction_preserves Sha256.hash hdecode
  obtain rfl := Option.some.inj (hcompacted.symm.trans hcompact)
  exact ⟨bytes, hdecode, hcompact, hsame⟩

end Duris.Flatfile.Materialization
