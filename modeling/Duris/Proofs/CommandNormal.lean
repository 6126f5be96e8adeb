import Duris.Proofs.CommandKeys

/-!
# One normal form for every order of the entities

A command is a set of keys and a set of expected revisions that its caller wrote down in
some order. `Normalizable` says which commands have a normal form, and it speaks of the
sets only: a key or a revision that stands there twice is refused wherever the sort leaves
it. What the sort makes of the others is determined, because no two of their keys are
equal, so every order has the same normal form, and the normal form is its own.
-/

namespace Duris.Persistence

/-- The same command, with its keys and revisions in another order. -/
structure Rearranged (command other : CriticalCommand) : Prop where
  keys : command.keys.Perm other.keys
  revisions : command.expectedRevisions.Perm other.expectedRevisions
  rest : other = { command with keys := other.keys, expectedRevisions := other.expectedRevisions }

/-- The fields that are not lists of entities pass `critical_command_valid`. -/
structure ScalarsValid (command : CriticalCommand) : Prop where
  schema : command.schemaVersion = criticalCommandSchemaVersion
  operation : criticalOperationIdIsZero command.operationId = false
  version : command.payloadVersion ≠ 0
  type : CriticalCommandType.test ≤ command.type ∧
    command.type ≤ CriticalCommandType.playerDeathRestitution
  site : CriticalSourceSite.command ≤ command.sourceSite ∧
    command.sourceSite ≤ CriticalSourceSite.operatorRepair
  deadline : CriticalDeadlineClass.interactive ≤ command.deadlineClass ∧
    command.deadlineClass ≤ CriticalDeadlineClass.recovery
  accepted : command.acceptedAtUsec ≠ 0
  payload : command.payload.length ≤ criticalCommandMaxPayloadBytes

/-- The keys are distinct and valid, the keys of the revisions are distinct ones of them,
and the scalar fields are valid. -/
structure Normalizable (command : CriticalCommand) : Prop where
  scalars : ScalarsValid command
  nonempty : command.keys ≠ []
  count : command.keys.length ≤ criticalCommandMaxKeys
  distinct : command.keys.Nodup
  valid : ∀ key ∈ command.keys, KeyValid key
  revisionsDistinct : (command.expectedRevisions.map CriticalExpectedRevision.key).Nodup
  revisionsNamed : ∀ revision ∈ command.expectedRevisions, revision.key ∈ command.keys

def sortedCommand (command : CriticalCommand) : CriticalCommand :=
  { command with
    keys := command.keys.mergeSort keyNotAbove
    expectedRevisions :=
      command.expectedRevisions.mergeSort fun a b => keyNotAbove a.key b.key }

/-! ## The checks, read backwards -/

variable {keys : List CriticalEntityKey} {revisions : List CriticalExpectedRevision}
  {command normalized other : CriticalCommand}

theorem validKeys_valid :
    ∀ {previous : Option CriticalEntityKey}, validKeys previous keys = true →
      ∀ key ∈ keys, KeyValid key := by
  induction keys with
  | nil => intro previous _ key hkey; cases hkey
  | cons head keys ih =>
      intro previous h key hkey
      simp only [validKeys, Bool.and_eq_true] at h
      rcases List.mem_cons.mp hkey with rfl | hkey
      · exact ⟨h.1.1.1, bne_iff_ne.mp h.1.1.2⟩
      · exact ih h.2 key hkey

theorem validRevisions_keys :
    ∀ {previous : Option CriticalEntityKey}, validRevisions keys previous revisions = true →
      validKeys previous (revisions.map CriticalExpectedRevision.key) = true := by
  induction revisions with
  | nil => intro previous _; rfl
  | cons head revisions ih =>
      intro previous h
      simp only [validRevisions, Bool.and_eq_true] at h
      obtain ⟨⟨⟨⟨htype, hid⟩, -⟩, habove⟩, hrest⟩ := h
      rw [List.map_cons, validKeys.eq_def]
      simp only [Bool.and_eq_true]
      exact ⟨⟨⟨htype, hid⟩, habove⟩, ih hrest⟩

/-- What a search finds is there: in a strict total order, equivalent keys are equal. -/
theorem mem_of_binarySearch {key : CriticalEntityKey} (hascend : KeysAscend keys)
    (h : binarySearch criticalEntityKeyLess keys key = true) : key ∈ keys := by
  induction keys with
  | nil => cases h
  | cons head keys ih =>
      obtain ⟨-, htail⟩ := List.pairwise_cons.mp hascend
      rw [binarySearch, List.dropWhile_cons] at h
      split at h
      · cases h
      · next found rest hfound =>
          split at hfound
          · next hless =>
              refine List.mem_cons_of_mem _ (ih htail ?_)
              rw [binarySearch, hfound]
              exact h
          · next hless =>
              cases hfound
              rw [Bool.not_eq_true'] at h
              rw [Bool.not_eq_true] at hless
              rw [criticalEntityKeyLess_connected h hless]
              exact List.mem_cons_self

theorem validRevisions_named (hascend : KeysAscend keys) :
    ∀ {previous : Option CriticalEntityKey}, validRevisions keys previous revisions = true →
      ∀ revision ∈ revisions, revision.key ∈ keys := by
  induction revisions with
  | nil => intro previous _ revision hrevision; cases hrevision
  | cons head revisions ih =>
      intro previous h revision hrevision
      simp only [validRevisions, Bool.and_eq_true] at h
      rcases List.mem_cons.mp hrevision with rfl | hrevision
      · exact mem_of_binarySearch hascend h.1.1.2
      · exact ih h.2 revision hrevision

theorem criticalCommandValid_iff :
    criticalCommandValid command = true ↔
      ScalarsValid command ∧ command.keys ≠ [] ∧
        command.keys.length ≤ criticalCommandMaxKeys ∧
        command.expectedRevisions.length ≤ criticalCommandMaxKeys ∧
        validKeys none command.keys = true ∧
        validRevisions command.keys none command.expectedRevisions = true := by
  rw [criticalCommandValid]
  constructor
  · intro h
    split at h
    · cases h
    · next hfields =>
        simp only [not_or, ne_eq, not_not, Bool.not_eq_true, BitVec.not_lt, Nat.not_lt] at hfields
        obtain ⟨hschema, hoperation, hversion, htest, hlast, hcommand, hrepair, hinteractive,
          hrecovery, haccepted, hnonempty, hkeys, hrevisions, hpayload⟩ := hfields
        rw [Bool.and_eq_true] at h
        exact ⟨⟨hschema, hoperation, hversion, ⟨htest, hlast⟩, ⟨hcommand, hrepair⟩,
          ⟨hinteractive, hrecovery⟩, haccepted, hpayload⟩, hnonempty, hkeys, hrevisions, h⟩
  · intro ⟨hscalars, hnonempty, hkeys, hrevisions, hloops⟩
    rw [if_neg, Bool.and_eq_true]
    · exact hloops
    · simp only [not_or, ne_eq, not_not, Bool.not_eq_true, BitVec.not_lt, Nat.not_lt]
      exact ⟨hscalars.schema, hscalars.operation, hscalars.version, hscalars.type.1,
        hscalars.type.2, hscalars.site.1, hscalars.site.2, hscalars.deadline.1,
        hscalars.deadline.2, hscalars.accepted, hnonempty, hkeys, hrevisions, hscalars.payload⟩

/-! ## Sorting -/

theorem adjacentEqual_mergeSort_iff :
    adjacentEqual (keys.mergeSort keyNotAbove) = false ↔ keys.Nodup := by
  constructor
  · intro h
    exact (List.mergeSort_perm keys keyNotAbove).nodup_iff.mp (keysAscend_mergeSort h).nodup
  · intro h
    exact adjacentEqual_of_nodup ((List.mergeSort_perm keys keyNotAbove).nodup_iff.mpr h)

theorem keysAscend_of_nodup (h : keys.Nodup) : KeysAscend (keys.mergeSort keyNotAbove) :=
  keysAscend_mergeSort (adjacentEqual_mergeSort_iff.mpr h)

theorem validKeys_iff (h : keys.Nodup) :
    validKeys none (keys.mergeSort keyNotAbove) = true ↔ ∀ key ∈ keys, KeyValid key := by
  have hmem : ∀ key, key ∈ keys.mergeSort keyNotAbove ↔ key ∈ keys :=
    fun key => (List.mergeSort_perm keys keyNotAbove).mem_iff
  constructor
  · exact fun hvalid key hkey => validKeys_valid hvalid key ((hmem key).mpr hkey)
  · intro hvalid
    exact validKeys_of_ascend (keysAscend_of_nodup h)
      (fun key hkey => hvalid key ((hmem key).mp hkey)) (fun _ h => nomatch h)

/-- The sorted revisions pass exactly when their keys are distinct ones of the command. -/
theorem validRevisions_iff (hkeys : command.keys.Nodup)
    (hvalid : ∀ key ∈ command.keys, KeyValid key) :
    validRevisions (sortedCommand command).keys none
        (sortedCommand command).expectedRevisions = true ↔
      (command.expectedRevisions.map CriticalExpectedRevision.key).Nodup ∧
        ∀ revision ∈ command.expectedRevisions, revision.key ∈ command.keys := by
  have hascend : KeysAscend (sortedCommand command).keys := keysAscend_of_nodup hkeys
  have hmem : ∀ key, key ∈ (sortedCommand command).keys ↔ key ∈ command.keys :=
    fun key => (List.mergeSort_perm _ keyNotAbove).mem_iff
  have hrevisions : ∀ revision, revision ∈ (sortedCommand command).expectedRevisions ↔
      revision ∈ command.expectedRevisions :=
    fun revision => (List.mergeSort_perm _ _).mem_iff
  have hmap : (sortedCommand command).expectedRevisions.map CriticalExpectedRevision.key =
      (command.expectedRevisions.map CriticalExpectedRevision.key).mergeSort keyNotAbove :=
    map_key_mergeSort command.expectedRevisions
  constructor
  · intro h
    refine ⟨?_, fun revision hrevision => ?_⟩
    · have hnodup := validKeys_nodup (validRevisions_keys h)
      rw [hmap] at hnodup
      exact (List.mergeSort_perm _ keyNotAbove).nodup_iff.mp hnodup
    · exact (hmem _).mp
        (validRevisions_named hascend h revision ((hrevisions revision).mpr hrevision))
  · intro ⟨hnodup, hnamed⟩
    refine validRevisions_of_ascend hascend ?_ fun revision hrevision =>
      (hmem _).mpr (hnamed revision ((hrevisions revision).mp hrevision))
    rw [hmap, validKeys_iff hnodup]
    intro key hkey
    obtain ⟨revision, hrevision, rfl⟩ := List.mem_map.mp hkey
    exact hvalid _ (hnamed revision hrevision)

theorem ScalarsValid.sorted : ScalarsValid (sortedCommand command) ↔ ScalarsValid command :=
  ⟨fun ⟨a, b, c, d, e, f, g, h⟩ => ⟨a, b, c, d, e, f, g, h⟩,
    fun ⟨a, b, c, d, e, f, g, h⟩ => ⟨a, b, c, d, e, f, g, h⟩⟩

theorem Normalizable.revisions_length (h : Normalizable command) :
    command.expectedRevisions.length ≤ criticalCommandMaxKeys := by
  have hsubset : command.expectedRevisions.map CriticalExpectedRevision.key ⊆ command.keys := by
    intro key hkey
    obtain ⟨revision, hrevision, rfl⟩ := List.mem_map.mp hkey
    exact h.revisionsNamed revision hrevision
  have hle := (List.subperm_of_subset h.revisionsDistinct hsubset).length_le
  rw [List.length_map] at hle
  exact Nat.le_trans hle h.count

theorem Normalizable.valid_sorted (h : Normalizable command) :
    criticalCommandValid (sortedCommand command) = true := by
  have hlength : (sortedCommand command).keys.length = command.keys.length :=
    List.length_mergeSort _
  have hrevisions : (sortedCommand command).expectedRevisions.length =
      command.expectedRevisions.length := List.length_mergeSort _
  refine criticalCommandValid_iff.mpr ⟨ScalarsValid.sorted.mpr h.scalars, ?_, ?_, ?_,
    (validKeys_iff h.distinct).mpr h.valid,
    (validRevisions_iff h.distinct h.valid).mpr ⟨h.revisionsDistinct, h.revisionsNamed⟩⟩
  · intro hnil
    rw [hnil, List.length_nil] at hlength
    exact h.nonempty (List.length_eq_zero_iff.mp hlength.symm)
  · rw [hlength]
    exact h.count
  · rw [hrevisions]
    exact h.revisions_length

theorem criticalCommandNormalize_iff :
    criticalCommandNormalize command = some normalized ↔
      Normalizable command ∧ normalized = sortedCommand command := by
  constructor
  · intro h
    obtain ⟨hvalid, hsorted⟩ := criticalCommandNormalize_eq_some h
    have hsorted : normalized = sortedCommand command := hsorted
    refine ⟨?_, hsorted⟩
    rw [hsorted] at hvalid
    obtain ⟨hscalars, hnonempty, hcount, -, hkeys, hrevisions⟩ :=
      criticalCommandValid_iff.mp hvalid
    have hperm := List.mergeSort_perm command.keys keyNotAbove
    have hdistinct : command.keys.Nodup := hperm.nodup_iff.mp (validKeys_nodup hkeys)
    have hallValid := (validKeys_iff hdistinct).mp hkeys
    obtain ⟨hrevisionsDistinct, hnamed⟩ := (validRevisions_iff hdistinct hallValid).mp hrevisions
    refine ⟨ScalarsValid.sorted.mp hscalars, ?_, ?_, hdistinct, hallValid, hrevisionsDistinct,
      hnamed⟩
    · intro hnil
      refine hnonempty ?_
      rw [sortedCommand, hnil]
      exact List.mergeSort_nil
    · rw [← hperm.length_eq]
      exact hcount
  · intro ⟨h, hsorted⟩
    have hdistinct : adjacentEqual (command.keys.mergeSort fun a b =>
        !criticalEntityKeyLess b a) = false := adjacentEqual_mergeSort_iff.mpr h.distinct
    rw [criticalCommandNormalize, hdistinct]
    rw [if_neg (by decide), hsorted]
    exact if_pos h.valid_sorted

/-! ## The order does not matter -/

theorem Rearranged.scalars (h : Rearranged command other) (hscalars : ScalarsValid command) :
    ScalarsValid other := by
  rw [h.rest]
  exact ⟨hscalars.schema, hscalars.operation, hscalars.version, hscalars.type, hscalars.site,
    hscalars.deadline, hscalars.accepted, hscalars.payload⟩

theorem Rearranged.normalizable (h : Rearranged command other) (hnormal : Normalizable command) :
    Normalizable other where
  scalars := h.scalars hnormal.scalars
  nonempty := by
    intro hnil
    have hlength := h.keys.length_eq
    rw [hnil, List.length_nil] at hlength
    exact hnormal.nonempty (List.length_eq_zero_iff.mp hlength)
  count := by
    rw [← h.keys.length_eq]
    exact hnormal.count
  distinct := h.keys.nodup_iff.mp hnormal.distinct
  valid key hkey := hnormal.valid key (h.keys.mem_iff.mpr hkey)
  revisionsDistinct := (h.revisions.map _).nodup_iff.mp hnormal.revisionsDistinct
  revisionsNamed revision hrevision :=
    h.keys.mem_iff.mp (hnormal.revisionsNamed revision (h.revisions.mem_iff.mpr hrevision))

theorem Rearranged.symm (h : Rearranged command other) :
    Rearranged other command where
  keys := h.keys.symm
  revisions := h.revisions.symm
  rest := by rw [h.rest]

theorem mergeSort_revisions_of_perm {others : List CriticalExpectedRevision}
    (hperm : revisions.Perm others) (hnodup : (revisions.map CriticalExpectedRevision.key).Nodup) :
    revisions.mergeSort (fun a b => keyNotAbove a.key b.key) =
      others.mergeSort fun a b => keyNotAbove a.key b.key := by
  have hsorted : ∀ revisions : List CriticalExpectedRevision,
      (revisions.mergeSort fun a b => keyNotAbove a.key b.key).Pairwise
        fun a b => keyNotAbove a.key b.key = true :=
    List.pairwise_mergeSort (fun a b c => keyNotAbove_trans a.key b.key c.key)
      (fun a b => keyNotAbove_total a.key b.key)
  refine List.Perm.eq_of_pairwise ?_ (hsorted revisions) (hsorted others)
    ((List.mergeSort_perm revisions _).trans (hperm.trans (List.mergeSort_perm others _).symm))
  intro left right hleft hright hle hge
  rw [List.mem_mergeSort] at hleft hright
  simp only [keyNotAbove, Bool.not_eq_true'] at hle hge
  exact List.inj_on_of_nodup_map hnodup hleft (hperm.mem_iff.mpr hright)
    (criticalEntityKeyLess_connected hge hle)

theorem Rearranged.sorted (h : Rearranged command other) (hnormal : Normalizable command) :
    sortedCommand other = sortedCommand command := by
  have hkeys : command.keys.mergeSort keyNotAbove = other.keys.mergeSort keyNotAbove :=
    mergeSort_of_perm (h.keys.trans (List.mergeSort_perm other.keys keyNotAbove).symm)
      (List.pairwise_mergeSort keyNotAbove_trans keyNotAbove_total other.keys)
  have hrevisions := mergeSort_revisions_of_perm h.revisions hnormal.revisionsDistinct
  rw [sortedCommand, sortedCommand, hkeys, hrevisions, h.rest]

theorem Rearranged.normalize (h : Rearranged command other) :
    criticalCommandNormalize other = criticalCommandNormalize command := by
  refine Option.ext fun normalized => ?_
  rw [criticalCommandNormalize_iff, criticalCommandNormalize_iff]
  constructor
  · intro ⟨hnormal, heq⟩
    exact ⟨h.symm.normalizable hnormal, by rw [heq, h.sorted (h.symm.normalizable hnormal)]⟩
  · intro ⟨hnormal, heq⟩
    exact ⟨h.normalizable hnormal, by rw [heq, h.sorted hnormal]⟩

theorem rearranged_sorted (command : CriticalCommand) :
    Rearranged command (sortedCommand command) where
  keys := (List.mergeSort_perm _ _).symm
  revisions := (List.mergeSort_perm _ _).symm
  rest := rfl

theorem criticalCommandNormalize_idempotent (h : criticalCommandNormalize command = some normalized)
    : criticalCommandNormalize normalized = some normalized := by
  obtain ⟨hnormal, rfl⟩ := criticalCommandNormalize_iff.mp h
  rw [(rearranged_sorted command).normalize, h]

/-! ## Commands that are sorted already -/

theorem mergeSort_keys_idem (keys : List CriticalEntityKey) :
    (keys.mergeSort keyNotAbove).mergeSort keyNotAbove = keys.mergeSort keyNotAbove :=
  List.mergeSort_of_pairwise (List.pairwise_mergeSort keyNotAbove_trans keyNotAbove_total keys)

theorem mergeSort_revisions_idem (revisions : List CriticalExpectedRevision) :
    (revisions.mergeSort fun a b => keyNotAbove a.key b.key).mergeSort
        (fun a b => keyNotAbove a.key b.key) =
      revisions.mergeSort fun a b => keyNotAbove a.key b.key :=
  List.mergeSort_of_pairwise (List.pairwise_mergeSort
    (fun a b c => keyNotAbove_trans a.key b.key c.key)
    (fun a b => keyNotAbove_total a.key b.key) revisions)

theorem normalize_of_sorted (hkeys : command.keys.mergeSort keyNotAbove = command.keys)
    (hrevisions : command.expectedRevisions.mergeSort (fun a b => keyNotAbove a.key b.key) =
      command.expectedRevisions) (h : criticalCommandNormalize command = some normalized) :
    normalized = command := by
  rw [(criticalCommandNormalize_iff.mp h).2, sortedCommand, hkeys, hrevisions]

/-- A command decodes to a payload, as it is and as it is once it is stamped and
normalised. -/
def DecodesTo {α : Type} (decode : CriticalCommand → Option α) (command : CriticalCommand)
    (payload : α) : Prop :=
  decode command = some payload ∧
    ∀ acceptedAtUsec normalized,
      criticalCommandNormalize { command with acceptedAtUsec := acceptedAtUsec } =
        some normalized →
      decode normalized = some payload

theorem decodesTo_of_sorted {α : Type} {decode : CriticalCommand → Option α} {payload : α}
    (hkeys : command.keys.mergeSort keyNotAbove = command.keys)
    (hrevisions : command.expectedRevisions.mergeSort (fun a b => keyNotAbove a.key b.key) =
      command.expectedRevisions) (hstamp : ∀ acceptedAtUsec,
      decode { command with acceptedAtUsec := acceptedAtUsec } = decode command)
    (h : decode command = some payload) : DecodesTo decode command payload := by
  refine ⟨h, fun acceptedAtUsec normalized hnormalized => ?_⟩
  have hsame : normalized = { command with acceptedAtUsec := acceptedAtUsec } :=
    normalize_of_sorted hkeys hrevisions hnormalized
  rw [hsame, hstamp, h]

/-! ## Submissions -/

theorem Rearranged.stamped (h : Rearranged command other) (now : BitVec 64) :
    Rearranged (Coordinator.stamped command now) (Coordinator.stamped other now) := by
  have haccepted : other.acceptedAtUsec = command.acceptedAtUsec := by rw [h.rest]
  rw [Coordinator.stamped, Coordinator.stamped, haccepted]
  split
  · exact ⟨h.keys, h.revisions, by rw [h.rest]⟩
  · exact h

theorem Rearranged.restamped (h : Rearranged command other) (normalized stored : CriticalCommand) :
    Coordinator.restamped other normalized stored =
      Coordinator.restamped command normalized stored := by
  have haccepted : other.acceptedAtUsec = command.acceptedAtUsec := by rw [h.rest]
  rw [Coordinator.restamped, Coordinator.restamped, haccepted]

theorem Rearranged.submit (h : Rearranged command other) (s : Coordinator) (retain : Bool)
    (now : BitVec 64) : s.submitCommand other retain now = s.submitCommand command retain now := by
  rw [Coordinator.submitCommand, Coordinator.submitCommand, (h.stamped now).normalize]
  simp only [h.restamped]

namespace Coordinator

/-- The command the coordinator holds under this identity: of a completed operation it
remembers, or of one that is going on. -/
def stored (s : Coordinator) (identity : CriticalOperationId) : Option CriticalCommand :=
  match s.findCompleted identity with
  | some completed => some completed.command
  | none => (s.findOperation identity).map OperationState.command

variable {command : CriticalCommand} {now : BitVec 64}

theorem normalize_stamped {held : CriticalCommand}
    (hheld : criticalCommandNormalize (stamped command held.acceptedAtUsec) = some held)
    (hnow : now ≠ 0) :
    ∃ normalized, criticalCommandNormalize (stamped command now) = some normalized ∧
      normalized.operationId = held.operationId ∧
      ∀ other : CriticalCommand, other.acceptedAtUsec = held.acceptedAtUsec →
        restamped command normalized other = held := by
  obtain ⟨hnormal, hsorted⟩ := criticalCommandNormalize_iff.mp hheld
  by_cases hsupplied : command.acceptedAtUsec = 0
  · rw [stamped, if_pos hsupplied] at hnormal hsorted
    rw [stamped, if_pos hsupplied]
    have hscalars := hnormal.scalars
    refine ⟨sortedCommand { command with acceptedAtUsec := now },
      criticalCommandNormalize_iff.mpr ⟨⟨⟨hscalars.schema, hscalars.operation, hscalars.version,
        hscalars.type, hscalars.site, hscalars.deadline, hnow, hscalars.payload⟩,
        hnormal.nonempty, hnormal.count, hnormal.distinct, hnormal.valid,
        hnormal.revisionsDistinct, hnormal.revisionsNamed⟩, rfl⟩, ?_, ?_⟩
    · rw [hsorted]
      rfl
    · intro other hother
      rw [restamped, if_pos hsupplied, hother]
      exact hsorted.symm
  · rw [stamped, if_neg hsupplied] at hheld ⊢
    refine ⟨held, hheld, rfl, fun other _ => ?_⟩
    rw [restamped, if_neg hsupplied]

theorem submit_attached {s : Coordinator} {held : CriticalCommand} {retain : Bool}
    (hinitialized : s.initialized = true) (haccepting : s.accepting = true)
    (hstored : s.stored command.operationId = some held)
    (hheld : criticalCommandNormalize (stamped command held.acceptedAtUsec) = some held)
    (hnow : now ≠ 0) : (s.submitCommand command retain now).1 = some .attached := by
  obtain ⟨normalized, hnormalized, hidentity, hrestamped⟩ := normalize_stamped hheld hnow
  have hvalid := (criticalCommandNormalize_eq_some hheld).1
  have hequal : criticalCommandEqual held held = true := criticalCommandEqual_iff.mpr ⟨hvalid, rfl⟩
  have hsame : command.operationId = held.operationId := by
    obtain ⟨-, hsorted⟩ := criticalCommandNormalize_iff.mp hheld
    rw [hsorted, stamped]
    split <;> rfl
  have hopen : ¬ (s.initialized = false ∨ s.accepting = false) := by
    rw [hinitialized, haccepting]
    decide
  rw [stored, hsame] at hstored
  rw [submitCommand, hnormalized]
  dsimp only
  rw [if_neg hopen, hidentity]
  cases hcompleted : s.findCompleted held.operationId with
  | some completed =>
      rw [hcompleted] at hstored
      cases hstored
      dsimp only
      rw [hrestamped _ rfl, if_pos hequal]
  | none =>
      rw [hcompleted, Option.map_eq_some_iff] at hstored
      obtain ⟨found, hfound, rfl⟩ := hstored
      rw [hfound]
      dsimp only
      rw [hrestamped _ rfl, if_pos hequal]

theorem submit_stored {s s' : Coordinator} {retain : Bool}
    (h : s.submitCommand command retain now = (none, s')) :
    ∃ held, s'.stored command.operationId = some held ∧
      criticalCommandNormalize (stamped command held.acceptedAtUsec) = some held := by
  rw [submitCommand] at h
  cases hnormalized : criticalCommandNormalize (stamped command now) with
  | none =>
      rw [hnormalized] at h
      cases h
  | some normalized =>
      rw [hnormalized] at h
      dsimp only at h
      have hsorted := (criticalCommandNormalize_iff.mp hnormalized).2
      have hidentity : normalized.operationId = command.operationId := by
        rw [hsorted, stamped]
        split <;> rfl
      have hagain : stamped command normalized.acceptedAtUsec = stamped command now := by
        rw [hsorted]
        by_cases hsupplied : command.acceptedAtUsec = 0
        · rw [stamped, stamped, if_pos hsupplied, if_pos hsupplied]
          rfl
        · rw [stamped, stamped, if_neg hsupplied, if_neg hsupplied]
      refine ⟨normalized, ?_, by rw [hagain, hnormalized]⟩
      rw [hidentity] at h
      split at h
      · cases h
      · split at h
        · split at h <;> cases h
        · next hcompleted =>
            split at h
            · split at h <;> cases h
            · next hoperation =>
                split at h
                · cases h
                · next encoded _ =>
                    split at h
                    · cases h
                    · cases h
                      have habsent := Keyed.lookup_eq_none.mp hoperation
                      have hkept : (s.reserveLocked normalized encoded.length
                          retain).findCompleted command.operationId = none := hcompleted
                      rw [stored, hkept]
                      rw [findOperation, reserveLocked, updateDepth, Keyed.lookup,
                        List.find?_append, ← Keyed.lookup, Keyed.lookup_eq_none.mpr habsent,
                        Option.none_or, ← hidentity, List.find?_cons_of_pos]
                      · rfl
                      · exact decide_eq_true rfl

end Coordinator

/-- Normalising gives one command for every order of the keys and the revisions, and gives
it again; it succeeds on exactly the commands whose keys are distinct and valid, whose
revisions are under distinct ones of them, and whose scalar fields are valid. So the
coordinator answers a submission as it answers every other order of it: attached, as long
as it holds the command it once accepted under that identity. -/
theorem criticalCommandNormalize_canonical (command : CriticalCommand) :
    (∀ other, Rearranged command other →
      criticalCommandNormalize other = criticalCommandNormalize command) ∧
    (∀ normalized, criticalCommandNormalize command = some normalized →
      criticalCommandNormalize normalized = some normalized) ∧
    ((criticalCommandNormalize command).isSome = true ↔ Normalizable command) ∧
    (∀ (s : Coordinator) other retain now, Rearranged command other →
      s.submitCommand other retain now = s.submitCommand command retain now) ∧
    (∀ (s s' : Coordinator) retain now, s.submitCommand command retain now = (none, s') →
      ∃ held, s'.stored command.operationId = some held ∧
        criticalCommandNormalize (Coordinator.stamped command held.acceptedAtUsec) = some held) ∧
    ∀ (s : Coordinator) other held retain now, s.initialized = true → s.accepting = true →
      s.stored command.operationId = some held →
      criticalCommandNormalize (Coordinator.stamped command held.acceptedAtUsec) = some held →
      Rearranged command other → now ≠ 0 →
      (s.submitCommand other retain now).1 = some .attached := by
  refine ⟨fun other h => h.normalize, fun normalized => criticalCommandNormalize_idempotent, ?_,
    fun s other retain now h => h.submit s retain now,
    fun s s' retain now => Coordinator.submit_stored, ?_⟩
  · rw [Option.isSome_iff_exists]
    constructor
    · intro ⟨normalized, hnormalized⟩
      exact (criticalCommandNormalize_iff.mp hnormalized).1
    · exact fun h => ⟨_, criticalCommandNormalize_iff.mpr ⟨h, rfl⟩⟩
  · intro s other held retain now hinitialized haccepting hstored hheld h hnow
    rw [h.submit]
    exact Coordinator.submit_attached hinitialized haccepting hstored hheld hnow

def itemFirst : CriticalCommand :=
  { schemaVersion := 1
    operationId := ⟨List.replicate 16 6, List.length_replicate⟩
    type := CriticalCommandType.itemTransfer
    payloadVersion := 1
    sourceSite := CriticalSourceSite.command
    deadlineClass := CriticalDeadlineClass.interactive
    acceptedAtUsec := 5
    keys := [⟨CriticalEntityType.item, 7⟩, ⟨CriticalEntityType.player, 9⟩]
    expectedRevisions :=
      [⟨⟨CriticalEntityType.item, 7⟩, 3⟩, ⟨⟨CriticalEntityType.player, 9⟩, 4⟩]
    payload := [] }

theorem itemFirst_normalizes :
    (criticalCommandNormalize itemFirst).isSome = true ∧
      criticalCommandNormalize { itemFirst with keys := itemFirst.keys.reverse } =
        criticalCommandNormalize itemFirst := by
  obtain ⟨hperm, -, hsucceeds, -⟩ := criticalCommandNormalize_canonical itemFirst
  refine ⟨hsucceeds.mpr ⟨⟨rfl, rfl, by decide, by decide, by decide, by decide, by decide,
    by decide⟩, by decide, by decide, by decide, ?_, by decide, by decide⟩, ?_⟩
  · intro key hkey
    rcases List.mem_cons.mp hkey with rfl | hkey
    · exact ⟨rfl, by decide⟩
    · cases List.mem_singleton.mp hkey
      exact ⟨rfl, by decide⟩
  · exact hperm _ ⟨(List.reverse_perm _).symm, List.Perm.refl _, rfl⟩

end Duris.Persistence
