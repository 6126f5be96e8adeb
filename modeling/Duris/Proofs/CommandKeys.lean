import Duris.Proofs.Coordinator

/-!
# Commands whose entities are already in order

A builder sorts the keys and the revisions of its command before it hands the command
over, and `critical_command_normalize` sorts them again. This file says what sorting
gives (strictly ascending keys, once no two neighbours are equal) and what it costs a
command that was sorted already: nothing. So whether such a command is normalised is
decided by its scalar fields, its sizes and the single keys.
-/

namespace Duris.Persistence

theorem criticalEntityKeyLess_connected {a b : CriticalEntityKey}
    (hab : criticalEntityKeyLess a b = false) (hba : criticalEntityKeyLess b a = false) :
    a = b := by
  obtain ⟨aType, aId⟩ := a
  obtain ⟨bType, bId⟩ := b
  unfold criticalEntityKeyLess at hab hba
  simp only [ne_eq] at hab hba
  by_cases htype : aType = bType
  · subst htype
    simp only [not_true_eq_false, if_false, decide_eq_false_iff_not, BitVec.not_lt] at hab hba
    rw [BitVec.le_antisymm hba hab]
  · rw [if_pos htype] at hab
    rw [if_pos (Ne.symm htype)] at hba
    simp only [decide_eq_false_iff_not, BitVec.not_lt] at hab hba
    exact absurd (BitVec.le_antisymm hba hab) htype

theorem criticalEntityKeyLess_asymm {a b : CriticalEntityKey}
    (hab : criticalEntityKeyLess a b = true) : criticalEntityKeyLess b a = false := by
  cases hba : criticalEntityKeyLess b a with
  | false => rfl
  | true =>
      have hself := criticalEntityKeyLess_trans hab hba
      rw [criticalEntityKeyLess_irrefl] at hself
      cases hself

/-- The order `std::sort` is given, read as "not above". -/
abbrev keyNotAbove (a b : CriticalEntityKey) : Bool := !criticalEntityKeyLess b a

theorem keyNotAbove_trans (a b c : CriticalEntityKey) (hab : keyNotAbove a b = true)
    (hbc : keyNotAbove b c = true) : keyNotAbove a c = true := by
  simp only [keyNotAbove, Bool.not_eq_true'] at hab hbc ⊢
  cases hca : criticalEntityKeyLess c a with
  | false => rfl
  | true =>
      -- c is below a, and b is not below a, so b is c or above it.
      cases hcb : criticalEntityKeyLess b c with
      | true =>
          have := criticalEntityKeyLess_trans hcb hca
          rw [hab] at this
          cases this
      | false =>
          have hsame := criticalEntityKeyLess_connected hcb hbc
          subst hsame
          rw [hab] at hca
          cases hca

theorem keyNotAbove_total (a b : CriticalEntityKey) :
    (keyNotAbove a b || keyNotAbove b a) = true := by
  simp only [keyNotAbove, Bool.or_eq_true, Bool.not_eq_true']
  cases hba : criticalEntityKeyLess b a with
  | false => exact .inl rfl
  | true => exact .inr (criticalEntityKeyLess_asymm hba)

def KeysAscend (keys : List CriticalEntityKey) : Prop :=
  keys.Pairwise fun a b => criticalEntityKeyLess a b = true

variable {keys : List CriticalEntityKey}

theorem keysAscend_of_notAbove :
    keys.Pairwise (fun a b => keyNotAbove a b = true) → adjacentEqual keys = false →
      KeysAscend keys := by
  induction keys with
  | nil => intro _ _; exact List.Pairwise.nil
  | cons head keys ih =>
      intro hsorted hdistinct
      obtain ⟨hhead, htail⟩ := List.pairwise_cons.mp hsorted
      cases keys with
      | nil => exact List.pairwise_singleton _ _
      | cons next keys =>
          simp only [adjacentEqual, Bool.or_eq_false_iff] at hdistinct
          have hascend := ih htail hdistinct.2
          have hless : criticalEntityKeyLess head next = true := by
            cases hless : criticalEntityKeyLess head next with
            | true => rfl
            | false =>
                have hnot := hhead next List.mem_cons_self
                simp only [keyNotAbove, Bool.not_eq_true'] at hnot
                have hsame := criticalEntityKeyLess_connected hless hnot
                subst hsame
                simp [criticalEntityKeyEqual] at hdistinct
          refine List.pairwise_cons.mpr ⟨fun key hkey => ?_, hascend⟩
          rcases List.mem_cons.mp hkey with rfl | hkey
          · exact hless
          · exact criticalEntityKeyLess_trans hless
              ((List.pairwise_cons.mp hascend).1 key hkey)

theorem keysAscend_mergeSort (h : adjacentEqual (keys.mergeSort keyNotAbove) = false) :
    KeysAscend (keys.mergeSort keyNotAbove) :=
  keysAscend_of_notAbove
    (List.pairwise_mergeSort keyNotAbove_trans keyNotAbove_total keys) h

theorem KeysAscend.mergeSort (h : KeysAscend keys) : keys.mergeSort keyNotAbove = keys := by
  refine List.mergeSort_of_pairwise (h.imp fun hless => ?_)
  simp only [Bool.not_eq_true']
  exact criticalEntityKeyLess_asymm hless

theorem adjacentEqual_of_nodup (h : keys.Nodup) : adjacentEqual keys = false := by
  induction keys with
  | nil => rfl
  | cons head keys ih =>
      obtain ⟨hhead, htail⟩ := List.nodup_cons.mp h
      cases keys with
      | nil => rfl
      | cons next keys =>
          rw [adjacentEqual, ih htail, Bool.or_false]
          cases hequal : criticalEntityKeyEqual head next with
          | false => rfl
          | true =>
              simp only [criticalEntityKeyEqual, Bool.and_eq_true, beq_iff_eq] at hequal
              have hsame : head = next := by
                cases head; cases next; simp_all
              exact absurd (hsame ▸ List.mem_cons_self) hhead

theorem KeysAscend.nodup (h : KeysAscend keys) : keys.Nodup := by
  refine h.imp fun {left right} hless hsame => ?_
  rw [hsame, criticalEntityKeyLess_irrefl] at hless
  cases hless

theorem mergeSort_of_perm {sorted : List CriticalEntityKey} (hperm : keys.Perm sorted)
    (hsorted : sorted.Pairwise fun a b => keyNotAbove a b = true) :
    keys.mergeSort keyNotAbove = sorted := by
  refine ((List.mergeSort_perm keys keyNotAbove).trans hperm).eq_of_pairwise ?_
    (List.pairwise_mergeSort keyNotAbove_trans keyNotAbove_total keys) hsorted
  intro left right _ _ hle hge
  simp only [keyNotAbove, Bool.not_eq_true'] at hle hge
  exact criticalEntityKeyLess_connected hge hle

theorem map_key_mergeSort (revisions : List CriticalExpectedRevision) :
    (revisions.mergeSort fun a b => keyNotAbove a.key b.key).map CriticalExpectedRevision.key =
      (revisions.map CriticalExpectedRevision.key).mergeSort keyNotAbove :=
  List.map_mergeSort fun _ _ _ _ => rfl

theorem KeysAscend.mergeSort_revisions {revisions : List CriticalExpectedRevision}
    (h : KeysAscend (revisions.map CriticalExpectedRevision.key)) :
    revisions.mergeSort (fun a b => keyNotAbove a.key b.key) = revisions := by
  refine List.mergeSort_of_pairwise ((List.pairwise_map.mp h).imp fun hless => ?_)
  simp only [Bool.not_eq_true']
  exact criticalEntityKeyLess_asymm hless

def KeyValid (key : CriticalEntityKey) : Prop := validEntityType key.type = true ∧ key.id ≠ 0

theorem validKeys_of_ascend :
    ∀ {previous : Option CriticalEntityKey}, KeysAscend keys → (∀ key ∈ keys, KeyValid key) →
      (∀ before ∈ previous, ∀ key ∈ keys, criticalEntityKeyLess before key = true) →
      validKeys previous keys = true := by
  induction keys with
  | nil => intro previous _ _ _; rfl
  | cons head keys ih =>
      intro previous hascend hvalid hprevious
      obtain ⟨hhead, htail⟩ := List.pairwise_cons.mp hascend
      obtain ⟨htype, hid⟩ := hvalid head List.mem_cons_self
      have hrest : validKeys (some head) keys = true :=
        ih htail (fun key hkey => hvalid key (List.mem_cons_of_mem _ hkey))
          (fun before hbefore key hkey => by cases hbefore; exact hhead key hkey)
      have hnonzero : (head.id != 0) = true := bne_iff_ne.mpr hid
      rw [validKeys.eq_def]
      cases previous with
      | none => simp only [htype, hrest, hnonzero, Bool.and_self]
      | some before =>
          have habove := hprevious before rfl head List.mem_cons_self
          simp only [htype, hrest, hnonzero, habove, Bool.and_self]

theorem binarySearch_of_mem {key : CriticalEntityKey} :
    KeysAscend keys → key ∈ keys → binarySearch criticalEntityKeyLess keys key = true := by
  induction keys with
  | nil => intro _ hkey; cases hkey
  | cons head keys ih =>
      intro hascend hkey
      obtain ⟨hhead, htail⟩ := List.pairwise_cons.mp hascend
      rcases List.mem_cons.mp hkey with rfl | hmem
      · simp [binarySearch, criticalEntityKeyLess_irrefl]
      · have hless := hhead key hmem
        have hrest := ih htail hmem
        unfold binarySearch at hrest ⊢
        rw [List.dropWhile_cons, if_pos hless]
        exact hrest

theorem validRevisions_of_ascend (hkeys : KeysAscend keys)
    {revisions : List CriticalExpectedRevision} :
    ∀ {previous : Option CriticalEntityKey},
      validKeys previous (revisions.map CriticalExpectedRevision.key) = true →
      (∀ revision ∈ revisions, revision.key ∈ keys) →
      validRevisions keys previous revisions = true := by
  induction revisions with
  | nil => intro previous _ _; rfl
  | cons head revisions ih =>
      intro previous hvalid hmem
      rw [List.map_cons, validKeys.eq_def] at hvalid
      simp only [Bool.and_eq_true] at hvalid
      obtain ⟨⟨⟨htype, hid⟩, habove⟩, hrest⟩ := hvalid
      have hsearch := binarySearch_of_mem hkeys (hmem head List.mem_cons_self)
      have htail := ih hrest fun revision h => hmem revision (List.mem_cons_of_mem _ h)
      rw [validRevisions.eq_def]
      simp only [htype, hid, hsearch, htail, Bool.true_and, Bool.and_true]
      exact habove

/-- A command that lists its revisions under exactly its keys, both in order, is
normalised as it stands, when it is valid at all. -/
theorem criticalCommandNormalize_of_ascend {command : CriticalCommand}
    (hkeys : KeysAscend command.keys)
    (hrevisions : command.expectedRevisions.map CriticalExpectedRevision.key = command.keys) :
    criticalCommandNormalize command =
      if criticalCommandValid command then some command else none := by
  have hsorted := hkeys.mergeSort
  have hdistinct := adjacentEqual_of_nodup hkeys.nodup
  rw [← hrevisions] at hkeys
  have hsame := hkeys.mergeSort_revisions
  unfold criticalCommandNormalize
  dsimp only
  unfold keyNotAbove at hsorted hsame
  rw [hsorted, hsame, hdistinct]
  simp

theorem criticalCommandValid_of_ascend {command : CriticalCommand}
    (hkeys : KeysAscend command.keys)
    (hrevisions : command.expectedRevisions.map CriticalExpectedRevision.key = command.keys)
    (hvalid : ∀ key ∈ command.keys, KeyValid key)
    (hschema : command.schemaVersion = criticalCommandSchemaVersion)
    (hoperation : criticalOperationIdIsZero command.operationId = false)
    (hversion : command.payloadVersion ≠ 0)
    (htype : CriticalCommandType.test ≤ command.type ∧
      command.type ≤ CriticalCommandType.playerDeathRestitution)
    (hsite : CriticalSourceSite.command ≤ command.sourceSite ∧
      command.sourceSite ≤ CriticalSourceSite.operatorRepair)
    (hclass : CriticalDeadlineClass.interactive ≤ command.deadlineClass ∧
      command.deadlineClass ≤ CriticalDeadlineClass.recovery)
    (haccepted : command.acceptedAtUsec ≠ 0)
    (hnonempty : command.keys ≠ [])
    (hpayload : command.payload.length ≤ criticalCommandMaxPayloadBytes) :
    criticalCommandValid command = true ↔ command.keys.length ≤ criticalCommandMaxKeys := by
  have hcount : command.expectedRevisions.length = command.keys.length := by
    rw [← hrevisions, List.length_map]
  have hloops : (validKeys none command.keys &&
      validRevisions command.keys none command.expectedRevisions) = true := by
    have hall : validKeys none command.keys = true :=
      validKeys_of_ascend hkeys hvalid (by simp)
    rw [hall, Bool.true_and]
    refine validRevisions_of_ascend hkeys (by rw [hrevisions]; exact hall) fun revision hmem => ?_
    rw [← hrevisions]
    exact List.mem_map_of_mem hmem
  unfold criticalCommandValid
  rw [hloops, hcount]
  simp only [hschema, hoperation, hversion, haccepted, hnonempty, ne_eq,
    not_true_eq_false, false_or, Bool.false_eq_true, BitVec.not_lt.mpr htype.1,
    BitVec.not_lt.mpr htype.2,
    BitVec.not_lt.mpr hsite.1, BitVec.not_lt.mpr hsite.2, BitVec.not_lt.mpr hclass.1,
    BitVec.not_lt.mpr hclass.2, Nat.not_lt.mpr hpayload, or_false, or_self]
  simp

end Duris.Persistence
