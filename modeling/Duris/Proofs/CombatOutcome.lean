import Duris.Combat.OutcomeCommand
import Duris.Proofs.CommandNormal
import Duris.Proofs.WireTexts

/-!
# The combat outcome format

The name of the room, and two texts for each participant. As in the auction format the
reader takes the texts as they stand on the wire, the encoder cuts them at the first
zero, and a command comes back byte for byte exactly when there is nothing to cut.
-/

namespace Duris.Combat

open Persistence Economy Reader
open Player (getLe)

def participantFields (entry : CombatOutcomeParticipant) : Bytes :=
  appendLe entry.pid ++ appendLe entry.role.code ++ appendLe entry.flags ++ appendLe entry.level ++
    appendLe entry.racewar ++ appendLe entry.fragDelta ++ appendLe entry.epicDelta ++
    appendLe entry.walletDeltaCopper ++ appendLe entry.expectedFragRevision ++
    appendLe entry.expectedEpicRevision ++ appendLe entry.expectedWalletRevision ++
    appendLe entry.expectedBankRevision

def participantWire (entry : CombatOutcomeParticipant) : Bytes :=
  participantFields entry ++
    (textField 16 entry.accountName ++ textField 16 entry.description)

def outcomeWire (payload : CombatOutcomePayload) : Bytes :=
  appendLe payload.victimPid ++ appendLe payload.roomVnum ++ (textField 16 payload.roomName ++
    (appendLe (BitVec.ofNat 16 payload.participants.length) ++
      payload.participants.flatMap participantWire))

/-- How many bytes stand before each text of so many participants: the fields of the
first behind `gap` bytes, and of the others behind the texts before them. -/
def participantGaps : Nat → Nat → List Nat
  | 0, _ => []
  | count + 1, gap => (gap + 65) :: 0 :: participantGaps count 0

/-- The texts as they stand on the wire. The number of participants is behind the name of
the room. -/
def outcomeWireTexts (bytes : Bytes) : List Bytes :=
  let roomName := (getLe 16 bytes 8).toNat
  let count := (getLe 16 bytes (10 + roomName)).toNat
  textsAfter 16 (8 :: participantGaps count 2) bytes

def participantTexts (entry : CombatOutcomeParticipant) : List Bytes :=
  [entry.accountName, entry.description]

def outcomeTexts (payload : CombatOutcomePayload) : List Bytes :=
  payload.roomName :: payload.participants.flatMap participantTexts

/-- The sizes that the decoder grants, and a role. -/
structure ParticipantShape (entry : CombatOutcomeParticipant) : Prop where
  role : entry.role ≠ .unknown
  accountName : entry.accountName.length < currencyAccountNameMaxBytes + 1
  description : entry.description.length < combatOutcomeDescriptionMaxBytes + 1

structure OutcomeShape (payload : CombatOutcomePayload) : Prop where
  roomName : payload.roomName.length < combatOutcomeRoomNameMaxBytes + 1
  count : payload.participants.length ≤ combatOutcomeMaxParticipants
  participants : ∀ entry ∈ payload.participants, ParticipantShape entry

theorem participantFields_length (entry : CombatOutcomeParticipant) :
    (participantFields entry).length = 65 := by
  simp [participantFields]

theorem textsAfter_participants :
    ∀ {participants : List CombatOutcomeParticipant} (front : Bytes),
      (∀ entry ∈ participants, ParticipantShape entry) →
      textsAfter 16 (participantGaps participants.length front.length)
          (front ++ participants.flatMap participantWire) =
        participants.flatMap participantTexts := by
  intro participants
  induction participants with
  | nil =>
      intro front h
      rfl
  | cons entry participants ih =>
      intro front h
      obtain ⟨hentry, hrest⟩ := List.forall_mem_cons.mp h
      have haccount := hentry.accountName
      have hdescription := hentry.description
      rw [currencyAccountNameMaxBytes] at haccount
      rw [combatOutcomeDescriptionMaxBytes] at hdescription
      have hskip : (front ++ participantFields entry).length = front.length + 65 := by
        rw [List.length_append, participantFields_length]
      have hwire : front ++ (entry :: participants).flatMap participantWire =
          (front ++ participantFields entry) ++ (textField 16 entry.accountName ++
            (textField 16 entry.description ++ participants.flatMap participantWire)) := by
        simp only [List.flatMap_cons, participantWire, List.append_assoc]
      have htail : textsAfter 16 (participantGaps participants.length 0)
          (participants.flatMap participantWire) = participants.flatMap participantTexts :=
        ih [] hrest
      rw [hwire, List.length_cons, participantGaps,
        textsAfter_cons hskip (by omega),
        textsAfter_next (by omega), htail]
      rfl

variable {rest : Bytes} {payload : CombatOutcomePayload} {entry : CombatOutcomeParticipant}

theorem getLe_field {bits : Nat} [Octets bits] {front : Bytes} {offset : Nat}
    (hoffset : front.length = offset) (x : BitVec bits) :
    getLe bits (front ++ (appendLe x ++ rest)) offset = x := by
  rw [getLe, List.drop_left' hoffset, List.take_left' (appendLe_length _), ofNat_leNat_appendLe]

theorem outcomeWireTexts_wire (h : OutcomeShape payload) :
    outcomeWireTexts (outcomeWire payload) = outcomeTexts payload := by
  obtain ⟨hroom, hcount, hparticipants⟩ := h
  rw [combatOutcomeRoomNameMaxBytes] at hroom
  rw [combatOutcomeMaxParticipants] at hcount
  have hfront : (appendLe payload.victimPid ++ appendLe payload.roomVnum).length = 8 := by simp
  have hname : (getLe 16 (outcomeWire payload) 8).toNat = payload.roomName.length := by
    rw [outcomeWire, textField, List.append_assoc (appendLe (BitVec.ofNat 16 _)),
      getLe_field hfront, BitVec.toNat_ofNat, Nat.mod_eq_of_lt (by omega)]
  have hlength : (getLe 16 (outcomeWire payload) (10 + payload.roomName.length)).toNat =
      payload.participants.length := by
    rw [outcomeWire, ← List.append_assoc, getLe_field (by simp; omega),
      BitVec.toNat_ofNat, Nat.mod_eq_of_lt (by omega)]
  unfold outcomeWireTexts
  dsimp only
  rw [hname, hlength, outcomeWire, textsAfter_cons hfront (by omega)]
  have htail := textsAfter_participants (appendLe (BitVec.ofNat 16 payload.participants.length))
    hparticipants
  rw [appendLe_length] at htail
  rw [htail, outcomeTexts]

theorem CombatParticipantRole.ofCode_eq_some {code : BitVec 8} {role : CombatParticipantRole} :
    CombatParticipantRole.ofCode code = some role ↔ role ≠ .unknown ∧ code = role.code := by
  constructor
  · intro h
    have hcode := List.find?_some h
    rw [beq_iff_eq] at hcode
    refine ⟨?_, hcode.symm⟩
    rintro rfl
    exact absurd (List.mem_of_find?_eq_some h) (by decide)
  · rintro ⟨hrole, rfl⟩
    cases role
    case unknown => exact absurd rfl hrole
    all_goals rfl

theorem readParticipant_eq_ok {input : Bytes} :
    readParticipant input = .ok (entry, rest) ↔
      ParticipantShape entry ∧ input = participantWire entry ++ rest := by
  constructor
  · intro h
    simp only [readParticipant, bind_eq_ok, pure_eq_ok, ofOption_eq_ok,
      CombatParticipantRole.ofCode_eq_some,
      readString_eq_ok (show currencyAccountNameMaxBytes + 1 ≤ 2 ^ 16 by decide),
      readString_eq_ok (show combatOutcomeDescriptionMaxBytes + 1 ≤ 2 ^ 16 by decide),
      field_eq_ok] at h
    obtain ⟨pid, _, rfl, _, _, rfl, flags, _, rfl, level, _, rfl, racewar, _, rfl,
      frag, _, rfl, epic, _, rfl, wallet, _, rfl, fragRevision, _, rfl, epicRevision, _, rfl,
      walletRevision, _, rfl, bankRevision, _, rfl, account, _, ⟨haccount, rfl⟩,
      description, _, ⟨hdescription, rfl⟩, role, _, ⟨⟨hrole, rfl⟩, rfl⟩, rfl, rfl⟩ := h
    refine ⟨⟨hrole, haccount, hdescription⟩, ?_⟩
    simp only [participantWire, participantFields, List.append_assoc]
  · rintro ⟨⟨hrole, haccount, hdescription⟩, hinput⟩
    rw [hinput]
    have htext {size : Nat} (hsize : size ≤ 2 ^ 16) {text : Bytes} (htext : text.length < size)
        (rest : Bytes) : readString size (textField 16 text ++ rest) = .ok (text, rest) :=
      (readString_eq_ok hsize).mpr ⟨htext, rfl⟩
    simp only [participantWire, participantFields, List.append_assoc]
    rw [readParticipant, field_bind, field_bind, field_bind, field_bind, field_bind, field_bind,
      field_bind, field_bind, field_bind, field_bind, field_bind, field_bind,
      bind_run (htext (by decide) haccount _), bind_run (htext (by decide) hdescription _),
      CombatParticipantRole.ofCode_eq_some.mpr ⟨hrole, rfl⟩]
    rfl

theorem readOutcome_eq_ok {input : Bytes} :
    readOutcome input = .ok (payload, rest) ↔
      OutcomeShape payload ∧ input = outcomeWire payload ++ rest := by
  constructor
  · intro h
    simp only [readOutcome, bind_eq_ok, pure_eq_ok, require_eq_ok,
      many_all_eq_ok readParticipant_eq_ok,
      readString_eq_ok (show combatOutcomeRoomNameMaxBytes + 1 ≤ 2 ^ 16 by decide),
      field_eq_ok] at h
    obtain ⟨victim, _, rfl, vnum, _, rfl, room, _, ⟨hroom, rfl⟩, count, _, rfl, _, _,
      ⟨hcount, rfl⟩, participants, _, ⟨hlength, hall, rfl⟩, rfl, rfl⟩ := h
    refine ⟨⟨hroom, by rwa [hlength], hall⟩, ?_⟩
    simp only [outcomeWire, hlength, BitVec.ofNat_toNat, BitVec.setWidth_eq, List.append_assoc]
  · rintro ⟨⟨hroom, hcount, hall⟩, hinput⟩
    rw [hinput]
    have hback : (BitVec.ofNat 16 payload.participants.length).toNat =
        payload.participants.length := toNat_ofNat_of_le hcount (by decide)
    have hname : readString (combatOutcomeRoomNameMaxBytes + 1) (textField 16 payload.roomName ++
        (appendLe (BitVec.ofNat 16 payload.participants.length) ++
          (payload.participants.flatMap participantWire ++ rest))) =
        .ok (payload.roomName, appendLe (BitVec.ofNat 16 payload.participants.length) ++
          (payload.participants.flatMap participantWire ++ rest)) :=
      (readString_eq_ok (by decide)).mpr ⟨hroom, rfl⟩
    simp only [outcomeWire, List.append_assoc]
    rw [readOutcome, field_bind, field_bind, bind_run hname, field_bind,
      require_bind (by rwa [hback]),
      bind_run ((many_all_eq_ok readParticipant_eq_ok).mpr ⟨hback.symm, hall, rfl⟩)]
    rfl

theorem outcomeWire_inj {other : CombatOutcomePayload} (h : OutcomeShape payload)
    (hother : OutcomeShape other) (heq : outcomeWire payload = outcomeWire other) :
    payload = other := by
  have hread : readOutcome (outcomeWire payload ++ []) = .ok (payload, []) :=
    readOutcome_eq_ok.mpr ⟨h, rfl⟩
  rw [heq, readOutcome_eq_ok.mpr ⟨hother, rfl⟩] at hread
  exact (Prod.mk.inj (Except.ok.inj hread)).1.symm

def cutParticipant (entry : CombatOutcomeParticipant) : CombatOutcomeParticipant :=
  { entry with accountName := cString entry.accountName, description := cString entry.description }

/-- The payload with each text cut at its first zero. -/
def cutOutcome (payload : CombatOutcomePayload) : CombatOutcomePayload :=
  { payload with
    roomName := cString payload.roomName
    participants := payload.participants.map cutParticipant }

theorem cutParticipant_eq_self :
    cutParticipant entry = entry ↔ ∀ text ∈ participantTexts entry, 0 ∉ text := by
  simp only [participantTexts, List.forall_mem_cons, List.not_mem_nil, false_implies, implies_true,
    and_true, ← cString_eq_self]
  constructor
  · intro h
    exact ⟨congrArg CombatOutcomeParticipant.accountName h,
      congrArg CombatOutcomeParticipant.description h⟩
  · rintro ⟨haccount, hdescription⟩
    rw [cutParticipant, haccount, hdescription]

theorem cutOutcome_eq_self :
    cutOutcome payload = payload ↔ ∀ text ∈ outcomeTexts payload, 0 ∉ text := by
  have hparticipants : payload.participants.map cutParticipant = payload.participants ↔
      ∀ entry ∈ payload.participants, cutParticipant entry = entry := by
    have h := List.map_inj_left (l := payload.participants) (f := cutParticipant) (g := id)
    rwa [List.map_id] at h
  rw [outcomeTexts, List.forall_mem_cons, ← cString_eq_self, List.forall_mem_flatMap]
  simp only [← cutParticipant_eq_self]
  rw [← hparticipants]
  constructor
  · intro h
    exact ⟨congrArg CombatOutcomePayload.roomName h, congrArg CombatOutcomePayload.participants h⟩
  · rintro ⟨hroom, hparticipants⟩
    rw [cutOutcome, hroom, hparticipants]

theorem bounded_cString (size : Nat) (text : Bytes) :
    bounded size (cString text) = bounded size text := by
  rw [bounded, bounded, cString_take_cString]

theorem encodeText_cString (size : Nat) (text : Bytes) :
    encodeText size (cString text) = encodeText size text := by
  rw [encodeText, encodeText, cString_take_cString]

theorem validParticipant_cut (entry : CombatOutcomeParticipant) :
    validParticipant (cutParticipant entry) = validParticipant entry := by
  unfold validParticipant cutParticipant
  rw [bounded_cString, bounded_cString, cString_idem]

theorem encodeParticipant_cut (entry : CombatOutcomeParticipant) :
    encodeParticipant (cutParticipant entry) = encodeParticipant entry := by
  unfold encodeParticipant cutParticipant
  rw [encodeText_cString, encodeText_cString]

theorem validOutcome_cut (payload : CombatOutcomePayload) :
    validOutcome (cutOutcome payload) = validOutcome payload := by
  have hall : (payload.participants.map cutParticipant).all validParticipant =
      payload.participants.all validParticipant := by
    rw [List.all_map]
    exact congrArg payload.participants.all (funext validParticipant_cut)
  have hempty : (payload.participants.map cutParticipant).isEmpty = payload.participants.isEmpty :=
    List.isEmpty_map
  unfold validOutcome cutOutcome
  rw [hall, hempty, bounded_cString, List.length_map, List.map_map, List.any_map]
  rfl

theorem addParticipant_cut (sha256 : Bytes → Vector UInt8 32)
    (fences : List CriticalExpectedRevision) (entry : CombatOutcomeParticipant) :
    addParticipant sha256 fences (cutParticipant entry) = addParticipant sha256 fences entry := by
  have hkey : currencyAccountKey sha256 (cString entry.accountName) entry.racewar =
      currencyAccountKey sha256 entry.accountName entry.racewar :=
    currencyAccountKey_congr (cString_take_cString _ _)
  unfold addParticipant cutParticipant
  rw [hkey]

theorem combatFences_cut (sha256 : Bytes → Vector UInt8 32) (payload : CombatOutcomePayload) :
    combatFences sha256 (cutOutcome payload) = combatFences sha256 payload := by
  unfold combatFences cutOutcome
  rw [List.foldlM_map]
  exact congrArg (fun add => List.foldlM add [] payload.participants)
    (funext fun fences => funext fun entry => addParticipant_cut sha256 fences entry)

theorem encodePayload_cut (payload : CombatOutcomePayload) :
    combatOutcomeCommandEncodePayload (cutOutcome payload) =
      combatOutcomeCommandEncodePayload payload := by
  have hall : (payload.participants.map cutParticipant).flatMap encodeParticipant =
      payload.participants.flatMap encodeParticipant := by
    rw [List.flatMap_map]
    exact congrArg payload.participants.flatMap (funext encodeParticipant_cut)
  unfold combatOutcomeCommandEncodePayload
  rw [validOutcome_cut]
  unfold cutOutcome
  rw [hall, encodeText_cString, List.length_map]

theorem combatOutcomeCommandBuild_cut (sha256 : Bytes → Vector UInt8 32)
    (operationId : CriticalOperationId) (payload : CombatOutcomePayload) :
    combatOutcomeCommandBuild sha256 operationId (cutOutcome payload) =
      combatOutcomeCommandBuild sha256 operationId payload := by
  unfold combatOutcomeCommandBuild
  rw [validOutcome_cut, combatFences_cut, encodePayload_cut]

theorem encodeText_of_lt {size : Nat} {text : Bytes}
    (h : (cString (text.take size)).length < size) :
    encodeText size text = textField 16 (cString text) := by
  rw [encodeText, cString_take_of_lt h, textField]

theorem encodeParticipant_of_valid (h : validParticipant entry = true) :
    ParticipantShape (cutParticipant entry) ∧
      encodeParticipant entry = participantWire (cutParticipant entry) := by
  simp only [validParticipant, bounded, Bool.and_eq_true, decide_eq_true_eq, bne_iff_ne,
    and_assoc] at h
  obtain ⟨-, hrole, haccount, hdescription, -⟩ := h
  have hname := cString_take_of_lt haccount
  have htext := cString_take_of_lt hdescription
  refine ⟨⟨hrole, by rwa [hname] at haccount, by rwa [htext] at hdescription⟩, ?_⟩
  rw [encodeParticipant, encodeText_of_lt haccount, encodeText_of_lt hdescription]
  simp only [participantWire, participantFields, cutParticipant, List.append_assoc]

theorem combatOutcomeCommandEncodePayload_eq_some {encoded : Bytes}
    (h : combatOutcomeCommandEncodePayload payload = some encoded) :
    OutcomeShape (cutOutcome payload) ∧ encoded = outcomeWire (cutOutcome payload) := by
  unfold combatOutcomeCommandEncodePayload at h
  split at h
  · cases h
  · next hvalid =>
      dsimp only at h
      split at h
      · cases h
      · cases h
        simp only [validOutcome, bounded, Bool.not_eq_false, Bool.and_eq_true, decide_eq_true_eq,
          and_assoc, List.all_eq_true] at hvalid
        obtain ⟨-, -, hcount, hroom, hall, -⟩ := hvalid
        have hname := cString_take_of_lt hroom
        have hparticipants : payload.participants.flatMap encodeParticipant =
            (payload.participants.map cutParticipant).flatMap participantWire := by
          rw [List.flatMap_map]
          exact List.flatMap_congr fun entry hentry =>
            (encodeParticipant_of_valid (hall entry hentry)).2
        refine ⟨⟨by rwa [hname] at hroom, by rwa [← List.length_map] at hcount,
          fun entry hentry => ?_⟩,
          ?_⟩
        · obtain ⟨original, horiginal, rfl⟩ := List.mem_map.mp hentry
          exact (encodeParticipant_of_valid (hall original horiginal)).1
        · rw [encodeText_of_lt hroom, hparticipants]
          simp only [outcomeWire, cutOutcome, List.length_map, List.append_assoc]

section Commands

variable {sha256 : Bytes → Vector UInt8 32} {operationId : CriticalOperationId}
  {payload : CombatOutcomePayload} {command : CriticalCommand}

/-- The parts of a built command that the decoder looks at. -/
structure OutcomeBuilt (operationId : CriticalOperationId) (payload : CombatOutcomePayload)
    (command : CriticalCommand) : Prop where
  valid : validOutcome payload = true
  encoded : combatOutcomeCommandEncodePayload payload = some command.payload
  type : command.type = combatOutcomeCommandType
  payloadVersion : command.payloadVersion = combatOutcomePayloadVersion
  operation : command.operationId = operationId
  sortedKeys : command.keys.mergeSort keyNotAbove = command.keys
  sortedRevisions :
    command.expectedRevisions.mergeSort (fun a b => keyNotAbove a.key b.key) =
      command.expectedRevisions

theorem combatOutcomeCommandBuild_eq_some
    (h : combatOutcomeCommandBuild sha256 operationId payload = some command) :
    OutcomeBuilt operationId payload command := by
  unfold combatOutcomeCommandBuild at h
  split at h
  · cases h
  · next hvalid =>
      simp only [Option.bind_eq_bind, Option.bind_eq_some_iff] at h
      obtain ⟨fences, -, encoded, hencoded, h⟩ := h
      split at h
      · cases h
      · cases h
        exact ⟨by simpa using hvalid, hencoded, rfl, rfl, rfl, mergeSort_keys_idem _,
          mergeSort_revisions_idem _⟩

theorem outcome_decodesTo
    (h : combatOutcomeCommandBuild sha256 operationId payload = some command) :
    DecodesTo (combatOutcomeCommandDecodePayload sha256) command (cutOutcome payload) := by
  have hbuilt := combatOutcomeCommandBuild_eq_some h
  obtain ⟨hshape, hencoded⟩ := combatOutcomeCommandEncodePayload_eq_some hbuilt.encoded
  refine decodesTo_of_sorted hbuilt.sortedKeys hbuilt.sortedRevisions (fun _ => rfl) ?_
  have hread : whole readOutcome command.payload = some (cutOutcome payload) :=
    whole_eq_some.mpr (readOutcome_eq_ok.mpr ⟨hshape, by rw [hencoded, List.append_nil]⟩)
  have hrebuilt : combatOutcomeCommandBuild sha256 command.operationId (cutOutcome payload) =
      some command := by
    rw [hbuilt.operation, combatOutcomeCommandBuild_cut, h]
  unfold combatOutcomeCommandDecodePayload
  rw [if_neg (by simp [hbuilt.type, hbuilt.payloadVersion])]
  simp only [hread, hrebuilt, validOutcome_cut, hbuilt.valid, Option.bind_eq_bind,
    Option.bind_some, matchingFences]
  simp

theorem outcome_respelled_iff
    (h : combatOutcomeCommandDecodePayload sha256 command = some payload) :
    combatOutcomeCommandEncodePayload payload = some command.payload ↔
      ∀ text ∈ outcomeWireTexts command.payload, 0 ∉ text := by
  unfold combatOutcomeCommandDecodePayload at h
  split at h
  · cases h
  · simp only [Option.bind_eq_bind, Option.bind_eq_some_iff] at h
    obtain ⟨decoded, hread, h⟩ := h
    split at h
    · cases h
    · simp only [Option.bind_eq_some_iff] at h
      obtain ⟨expected, hexpected, h⟩ := h
      split at h
      · cases h
        obtain ⟨hshape, hbytes⟩ := readOutcome_eq_ok.mp (whole_eq_some.mp hread)
        have hencoded := (combatOutcomeCommandBuild_eq_some hexpected).encoded
        obtain ⟨hcut, hspelled⟩ := combatOutcomeCommandEncodePayload_eq_some hencoded
        rw [List.append_nil] at hbytes
        rw [hencoded, hspelled, hbytes, outcomeWireTexts_wire hshape, ← cutOutcome_eq_self,
          Option.some.injEq]
        exact ⟨outcomeWire_inj hcut hshape, congrArg outcomeWire⟩
      · cases h

end Commands

end Duris.Combat
