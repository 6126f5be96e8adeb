import Duris.Lib.Run
import Duris.Persistence.CommandJournal
import Duris.Proofs.CommandCodec
import Mathlib.Data.List.Flatten

/-!
# The command journal is a list of pending commands

A record is one byte string per command and no record is the beginning of another,
so what a scan accepts is easy to say (`Scans`): records of valid commands, each new
or a repetition, none behind the limit. Files that scan compose, and a file with the
beginning of a record behind it does not scan at all.

With that the journal refines the list of its pending commands. An append puts a
command at the end, a checkpoint takes one out, and the file always scans to the
list, except behind a torn append, where nothing answers ok any more. The two
places where the answer does not tell what happened are an append whose rollback
failed and a rewrite whose directory did not sync; the list follows the file there.
-/

namespace Duris.Persistence.CommandJournal

open Reader
open Player (payloadChecksum)

variable {command : CriticalCommand} {data : Bytes}

/-! ## Records -/

def frameOf (command : CriticalCommand) : JournalFrame :=
  { operationId := command.operationId
    command
    bytes := frameBytes command.operationId (encodeFields command) }

theorem buildFrame_eq_some {frame : JournalFrame} :
    buildFrame command = some frame ↔
      criticalCommandValid command = true ∧ frame = frameOf command := by
  rw [buildFrame]
  cases hencode : criticalCommandEncode command with
  | error e =>
      simp only [reduceCtorEq, false_iff, not_and]
      intro hvalid
      rw [criticalCommandEncode_of_valid hvalid] at hencode
      cases hencode
  | ok payload =>
      obtain ⟨hvalid, rfl⟩ := criticalCommandEncode_eq_ok.mp hencode
      simp only [hvalid, true_and, Option.some.injEq]
      exact eq_comm

theorem frameBytes_length (operationId : CriticalOperationId) (payload : Bytes) :
    (frameBytes operationId payload).length = journalHeaderSize + payload.length := by
  simp only [frameBytes, journalMagic, journalHeaderSize, List.length_append, appendLe_length,
    operationId.size_eq, List.length_cons, List.length_nil]

theorem frameOf_payload (command : CriticalCommand) :
    (frameOf command).payload = encodeFields command := by
  rw [JournalFrame.payload, frameOf, frameBytes, List.drop_left']
  simp [journalMagic, journalHeaderSize, command.operationId.size_eq]

theorem frameOf_bytes_ne_nil (command : CriticalCommand) : (frameOf command).bytes ≠ [] := by
  intro h
  have hlen := frameBytes_length command.operationId (encodeFields command)
  rw [show frameBytes command.operationId (encodeFields command) = [] from h] at hlen
  simp [journalHeaderSize] at hlen
  omega

variable {left right : CriticalCommand} {operationId : CriticalOperationId} {rest file : Bytes}
  {found middle pending : List CriticalCommand} {s : Journal}

theorem encodeFields_injective (hleft : criticalCommandValid left = true)
    (hright : criticalCommandValid right = true) (h : encodeFields left = encodeFields right) :
    left = right := by
  have hl := criticalCommandDecode_eq_ok.mpr ⟨hleft, rfl⟩
  have hr := criticalCommandDecode_eq_ok.mpr ⟨hright, rfl⟩
  rw [h, hr] at hl
  exact (Except.ok.inj hl).symm

theorem decodePayload_eq_ok {checksum : BitVec 32} {payload input : Bytes} :
    decodePayload operationId checksum payload input = .ok (command, rest) ↔
      payloadChecksum payload = checksum ∧ criticalCommandValid command = true ∧
        payload = encodeFields command ∧ command.operationId = operationId ∧ input = rest := by
  rw [decodePayload]
  by_cases hsum : payloadChecksum payload = checksum
  · rw [if_neg (not_not.mpr hsum)]
    cases hdecode : criticalCommandDecode payload with
    | error e =>
        simp only [reduceCtorEq, false_iff]
        intro h
        rw [criticalCommandDecode_eq_ok.mpr ⟨h.2.1, h.2.2.1⟩] at hdecode
        cases hdecode
    | ok decoded =>
        obtain ⟨hvalid, hpayload⟩ := criticalCommandDecode_eq_ok.mp hdecode
        dsimp only
        constructor
        · intro h
          split at h
          · next hid =>
              cases h
              exact ⟨hsum, hvalid, hpayload, hid, rfl⟩
          · cases h
        · intro h
          obtain ⟨-, hvalid', hpayload', hid, rfl⟩ := h
          obtain rfl := encodeFields_injective hvalid hvalid' (hpayload.symm.trans hpayload')
          rw [if_pos hid]
  · rw [if_pos hsum]
    simp [hsum]

theorem bitVec_eq_ofNat {w n : Nat} {x : BitVec w} (h : x.toNat = n) : x = BitVec.ofNat w n := by
  rw [← h, BitVec.ofNat_toNat, BitVec.setWidth_eq]

theorem decodeRecord_eq_ok :
    decodeRecord data = .ok (command, rest) ↔
      criticalCommandValid command = true ∧ data = (frameOf command).bytes ++ rest := by
  simp only [decodeRecord, bind_eq_ok, require_eq_ok, raw_eq_ok, decodePayload_eq_ok, field_eq_ok]
  constructor
  · intro h
    obtain ⟨magic, _, rfl, _, _, ⟨hmagic, rfl⟩, version, _, rfl, recordSize, _, rfl, payloadSize, _,
      rfl, checksum, _, rfl, _, _, ⟨rfl, rfl⟩, _, _, ⟨hsize, rfl⟩, operationId, _, rfl, payload,
      _, rfl, rfl, hvalid, hpayload, hid, rfl⟩ := h
    have hpayloadSize : payloadSize = BitVec.ofNat 32 (encodeFields command).length :=
      bitVec_eq_ofNat (by rw [← hpayload, payload.2])
    have hrecordSize :
        recordSize = BitVec.ofNat 64 (journalHeaderSize + (encodeFields command).length) :=
      bitVec_eq_ofNat (by rw [hsize, ← hpayload, payload.2])
    have hoperationId : command.operationId.bytes = operationId.1 := by
      rw [hid, CriticalOperationId.ofRaw_bytes]
    refine ⟨hvalid, ?_⟩
    rw [frameOf, frameBytes, hoperationId, ← hrecordSize, ← hpayloadSize, ← hpayload, hmagic]
    simp only [List.append_assoc]
  · intro h
    obtain ⟨hvalid, rfl⟩ := h
    have hlen := encodeFields_length_le hvalid
    simp only [criticalCommandMaxEncodedBytes] at hlen
    have hpayloadSize : (BitVec.ofNat 32 (encodeFields command).length).toNat =
        (encodeFields command).length := by
      rw [BitVec.toNat_ofNat, Nat.mod_eq_of_lt (by omega)]
    have hrecordSize :
        (BitVec.ofNat 64 (journalHeaderSize + (encodeFields command).length)).toNat =
          journalHeaderSize + (encodeFields command).length := by
      rw [BitVec.toNat_ofNat, Nat.mod_eq_of_lt (by simp only [journalHeaderSize]; omega)]
    simp only [frameOf, frameBytes, List.append_assoc]
    exact ⟨⟨journalMagic, rfl⟩, _, rfl, (), _, ⟨rfl, rfl⟩, _, _, rfl, _, _, rfl, _, _, rfl,
      _, _, rfl,
      (), _, ⟨rfl, rfl⟩, (), _, ⟨by rw [hrecordSize, hpayloadSize], rfl⟩,
      ⟨command.operationId.bytes, command.operationId.size_eq⟩, _, rfl,
      ⟨encodeFields command, hpayloadSize.symm⟩, _, rfl, rfl, hvalid, rfl, rfl, rfl⟩

theorem frameOf_bytes_prefix (hleft : criticalCommandValid left = true)
    (hright : criticalCommandValid right = true)
    (h : (frameOf right).bytes = (frameOf left).bytes ++ rest) : rest = [] := by
  have hl := decodeRecord_eq_ok.mpr ⟨hleft, h⟩
  have hr := decodeRecord_eq_ok.mpr ⟨hright, (List.append_nil _).symm⟩
  rw [hr] at hl
  exact (congrArg Prod.snd (Except.ok.inj hl)).symm

/-! ## What a scan accepts -/

/-- A scan that has found `known` and has `data` in front of it ends with `found`. -/
inductive Scans : List CriticalCommand → Bytes → List CriticalCommand → Prop where
  | done (known : List CriticalCommand) : Scans known [] known
  | fresh {known found : List CriticalCommand} {command : CriticalCommand} {rest : Bytes}
      (hvalid : criticalCommandValid command = true)
      (hroom : known.length < criticalCommandJournalMaxRecords)
      (hnew : command.operationId ∉ known.map CriticalCommand.operationId)
      (hrest : Scans (known ++ [command]) rest found) :
      Scans known ((frameOf command).bytes ++ rest) found
  | again {known found : List CriticalCommand} {command : CriticalCommand} {rest : Bytes}
      (hroom : known.length < criticalCommandJournalMaxRecords) (hknown : command ∈ known)
      (hrest : Scans known rest found) : Scans known ((frameOf command).bytes ++ rest) found

structure Known (known : List CriticalCommand) : Prop where
  valid : ∀ command ∈ known, criticalCommandValid command = true
  distinct : (known.map CriticalCommand.operationId).Nodup
  bounded : known.length ≤ criticalCommandJournalMaxRecords

theorem Known.nil : Known [] := ⟨by simp, by simp, by simp⟩

theorem Known.push {known : List CriticalCommand} (h : Known known)
    (hvalid : criticalCommandValid command = true)
    (hroom : known.length < criticalCommandJournalMaxRecords)
    (hnew : command.operationId ∉ known.map CriticalCommand.operationId) :
    Known (known ++ [command]) := by
  refine ⟨?_, ?_, by rw [List.length_append]; exact hroom⟩
  · intro other hother
    rcases List.mem_append.mp hother with hold | hlast
    · exact h.valid other hold
    · rw [List.mem_singleton.mp hlast]
      exact hvalid
  · rw [List.map_append, List.nodup_append]
    exact ⟨h.distinct, by simp, by
      intro id hid other hother
      rw [List.map_singleton, List.mem_singleton] at hother
      rw [hother]
      exact ne_of_mem_of_not_mem hid hnew⟩

theorem Scans.known {known : List CriticalCommand} (h : Scans known data found)
    (hknown : Known known) : Known found := by
  induction h with
  | done known => exact hknown
  | fresh hvalid hroom hnew hrest ih => exact ih (hknown.push hvalid hroom hnew)
  | again hroom hmem hrest ih => exact ih hknown

theorem Scans.append {known : List CriticalCommand} {data more : Bytes}
    (h : Scans known data middle) (hmore : Scans middle more found) :
    Scans known (data ++ more) found := by
  induction h with
  | done known => exact hmore
  | fresh hvalid hroom hnew hrest ih =>
      rw [List.append_assoc]
      exact .fresh hvalid hroom hnew (ih hmore)
  | again hroom hmem hrest ih =>
      rw [List.append_assoc]
      exact .again hroom hmem (ih hmore)

theorem Scans.record {known : List CriticalCommand} (hknown : Known known)
    (hvalid : criticalCommandValid command = true)
    (h : Scans known ((frameOf command).bytes ++ rest) found) :
    command.operationId ∉ known.map CriticalCommand.operationId ∧
        Scans (known ++ [command]) rest found ∨
      command ∈ known ∧ Scans known rest found := by
  generalize hdata : (frameOf command).bytes ++ rest = data at h
  have hdecode := decodeRecord_eq_ok.mpr ⟨hvalid, hdata.symm⟩
  cases h with
  | done => exact absurd (List.append_eq_nil_iff.mp hdata).1 (frameOf_bytes_ne_nil command)
  | fresh hvalid' hroom hnew hrest =>
      rw [decodeRecord_eq_ok.mpr ⟨hvalid', rfl⟩] at hdecode
      cases hdecode
      exact .inl ⟨hnew, hrest⟩
  | again hroom hmem hrest =>
      rw [decodeRecord_eq_ok.mpr ⟨hknown.valid _ hmem, rfl⟩] at hdecode
      cases hdecode
      exact .inr ⟨hmem, hrest⟩

/-- A scan of a longer file goes through where the scan of the shorter one ended. -/
theorem Scans.behind {known : List CriticalCommand} {data more : Bytes}
    (h : Scans known data middle) (hknown : Known known) (hall : Scans known (data ++ more) found) :
    Scans middle more found := by
  induction h with
  | done known => exact hall
  | fresh hvalid hroom hnew hrest ih =>
      rw [List.append_assoc] at hall
      rcases hall.record hknown hvalid with ⟨-, hall⟩ | ⟨hmem, -⟩
      · exact ih (hknown.push hvalid hroom hnew) hall
      · exact absurd (List.mem_map_of_mem hmem) hnew
  | again hroom hmem hrest ih =>
      rw [List.append_assoc] at hall
      rcases hall.record hknown (hknown.valid _ hmem) with ⟨hnew, -⟩ | ⟨-, hall⟩
      · exact absurd (List.mem_map_of_mem hmem) hnew
      · exact ih hknown hall

theorem Scans.not_conflicting {known : List CriticalCommand} (h : Scans known data middle)
    (hknown : Known known) {command prior : CriticalCommand}
    (hvalid : criticalCommandValid command = true) (hprior : prior ∈ middle)
    (hid : prior.operationId = command.operationId) (hne : prior ≠ command)
    (found : List CriticalCommand) : ¬ Scans known (data ++ (frameOf command).bytes) found := by
  intro hall
  have hlast := h.behind hknown hall
  have hmiddle := h.known hknown
  rw [← List.append_nil (frameOf command).bytes] at hlast
  rcases hlast.record hmiddle hvalid with ⟨hnew, -⟩ | ⟨hmem, -⟩
  · rw [← hid] at hnew
    exact hnew (List.mem_map_of_mem hprior)
  · have hdistinct := hmiddle.distinct
    exact hne (List.inj_on_of_nodup_map hdistinct hprior hmem hid)

theorem Scans.not_torn {known : List CriticalCommand} (h : Scans known data middle)
    (hknown : Known known) (hvalid : criticalCommandValid command = true) {left : Nat}
    (hpos : 0 < left) (hleft : left < (frameOf command).bytes.length)
    (found : List CriticalCommand) :
    ¬ Scans known (data ++ (frameOf command).bytes.take left) found := by
  intro hall
  have htorn := h.behind hknown hall
  have hmiddle := h.known hknown
  have hlen : ((frameOf command).bytes.take left).length = left := by
    rw [List.length_take]
    omega
  have hwhole : ∀ {other : CriticalCommand} {rest : Bytes},
      criticalCommandValid other = true →
      (frameOf other).bytes ++ rest ≠ (frameOf command).bytes.take left := by
    intro other rest hother heq
    have hsplit : (frameOf command).bytes =
        (frameOf other).bytes ++ (rest ++ (frameOf command).bytes.drop left) := by
      rw [← List.append_assoc, heq, List.take_append_drop]
    have hnil := frameOf_bytes_prefix hother hvalid hsplit
    have hdrop := congrArg List.length (List.append_eq_nil_iff.mp hnil).2
    rw [List.length_drop, List.length_nil] at hdrop
    omega
  generalize hdata : (frameOf command).bytes.take left = torn at htorn
  cases htorn with
  | done =>
      rw [hdata, List.length_nil] at hlen
      omega
  | fresh hvalid' _ _ _ => exact hwhole hvalid' hdata.symm
  | again _ hmem _ => exact hwhole (hmiddle.valid _ hmem) hdata.symm

/-! ## The scanner accepts just that -/

theorem scanFrom_record {known : List CriticalCommand}
    (hvalid : criticalCommandValid command = true)
    (hroom : known.length < criticalCommandJournalMaxRecords) (duplicates : Nat) (rest : Bytes) :
    scanFrom (known.map frameOf) duplicates ((frameOf command).bytes ++ rest) =
      ((known.map frameOf).find? (·.operationId == command.operationId)).elim
        (scanFrom ((known ++ [command]).map frameOf) duplicates rest)
        fun prior =>
          if prior.payload ≠ (frameOf command).payload then
            ⟨.corruptData, known.map frameOf, duplicates⟩
          else scanFrom (known.map frameOf) (duplicates + 1) rest := by
  have hdecode := decodeRecord_eq_ok.mpr
    ⟨hvalid, (rfl : (frameOf command).bytes ++ rest = (frameOf command).bytes ++ rest)⟩
  have hne : (frameOf command).bytes ++ rest ≠ [] := by
    intro h
    exact frameOf_bytes_ne_nil command (List.append_eq_nil_iff.mp h).1
  have hbytes : ((frameOf command).bytes ++ rest).take
      (((frameOf command).bytes ++ rest).length - rest.length) = (frameOf command).bytes := by
    rw [List.length_append, Nat.add_sub_cancel, List.take_left' rfl]
  have hframe : (⟨command.operationId, command, (frameOf command).bytes⟩ : JournalFrame) =
      frameOf command := rfl
  rw [scanFrom, if_neg hne, if_neg (by rw [List.length_map]; omega)]
  split
  · next e herror => rw [hdecode] at herror; cases herror
  · next command' rest' hok =>
      rw [hdecode] at hok
      cases hok
      simp only [hbytes, hframe, List.map_append, List.map_cons, List.map_nil]
      cases (known.map frameOf).find? (·.operationId == command.operationId) with
      | none => rfl
      | some prior => rfl

theorem find_frame {known : List CriticalCommand} {prior : JournalFrame}
    (h : (known.map frameOf).find? (·.operationId == operationId) = some prior) :
    ∃ command ∈ known, prior = frameOf command ∧ command.operationId = operationId := by
  have hid := List.find?_some h
  obtain ⟨command, hcommand, rfl⟩ := List.mem_map.mp (List.mem_of_find?_eq_some h)
  exact ⟨command, hcommand, rfl, by simpa [frameOf] using hid⟩

theorem find_frame_none {known : List CriticalCommand} :
    (known.map frameOf).find? (·.operationId == operationId) = none ↔
      operationId ∉ known.map CriticalCommand.operationId := by
  rw [List.find?_eq_none]
  simp only [List.mem_map, frameOf, forall_exists_index, and_imp, forall_apply_eq_imp_iff₂,
    beq_iff_eq, not_exists, not_and]

theorem Known.eq_of_operationId {known : List CriticalCommand} (h : Known known)
    (hleft : left ∈ known) (hright : right ∈ known) (heq : left.operationId = right.operationId) :
    left = right :=
  List.inj_on_of_nodup_map h.distinct hleft hright heq

theorem scanFrom_again {known : List CriticalCommand} (hknown : Known known)
    (hmem : command ∈ known) (hroom : known.length < criticalCommandJournalMaxRecords)
    (duplicates : Nat) (rest : Bytes) :
    scanFrom (known.map frameOf) duplicates ((frameOf command).bytes ++ rest) =
      scanFrom (known.map frameOf) (duplicates + 1) rest := by
  rw [scanFrom_record (hknown.valid _ hmem) hroom]
  cases hfind : (known.map frameOf).find? (·.operationId == command.operationId) with
  | none => exact absurd (List.mem_map_of_mem hmem) (find_frame_none.mp hfind)
  | some prior =>
      obtain ⟨other, hother, rfl, hid⟩ := find_frame hfind
      obtain rfl := hknown.eq_of_operationId hother hmem hid
      exact if_neg (by simp)

theorem scanFrom_fresh {known : List CriticalCommand}
    (hvalid : criticalCommandValid command = true)
    (hroom : known.length < criticalCommandJournalMaxRecords)
    (hnew : command.operationId ∉ known.map CriticalCommand.operationId) (duplicates : Nat)
    (rest : Bytes) :
    scanFrom (known.map frameOf) duplicates ((frameOf command).bytes ++ rest) =
      scanFrom ((known ++ [command]).map frameOf) duplicates rest := by
  rw [scanFrom_record hvalid hroom, find_frame_none.mpr hnew, Option.elim_none]

theorem Scans.scanFrom {known : List CriticalCommand} (h : Scans known data found)
    (hknown : Known known) (duplicates : Nat) :
    (scanFrom (known.map frameOf) duplicates data).result = .ok ∧
      (scanFrom (known.map frameOf) duplicates data).frames = found.map frameOf := by
  induction h generalizing duplicates with
  | done known =>
      rw [CommandJournal.scanFrom, if_pos rfl]
      exact ⟨rfl, rfl⟩
  | fresh hvalid hroom hnew hrest ih =>
      rw [scanFrom_fresh hvalid hroom hnew]
      exact ih (hknown.push hvalid hroom hnew) duplicates
  | again hroom hmem hrest ih =>
      rw [scanFrom_again hknown hmem hroom]
      exact ih hknown (duplicates + 1)

theorem scans_of_scanFrom (n : Nat) :
    ∀ (known : List CriticalCommand) {duplicates : Nat} {data : Bytes}, data.length ≤ n →
      Known known → (scanFrom (known.map frameOf) duplicates data).result = .ok →
      ∃ found, Scans known data found := by
  induction n with
  | zero =>
      intro known duplicates data hlen _ _
      obtain rfl := List.length_eq_zero_iff.mp (Nat.le_zero.mp hlen)
      exact ⟨known, .done known⟩
  | succ n ih =>
      intro known duplicates data hlen hknown h
      by_cases hne : data = []
      · subst hne
        exact ⟨known, .done known⟩
      by_cases hroom : known.length < criticalCommandJournalMaxRecords
      · cases hdecode : decodeRecord data with
        | error e =>
            rw [scanFrom, if_neg hne, if_neg (by rw [List.length_map]; omega)] at h
            split at h
            · cases h
            · next hok => rw [hdecode] at hok; cases hok
        | ok answer =>
            obtain ⟨command, rest⟩ := answer
            have hshorter := decodeRecord_shorter hdecode
            obtain ⟨hvalid, rfl⟩ := decodeRecord_eq_ok.mp hdecode
            rw [scanFrom_record hvalid hroom] at h
            cases hfind : (known.map frameOf).find? (·.operationId == command.operationId) with
            | some prior =>
                rw [hfind, Option.elim_some] at h
                obtain ⟨other, hother, rfl, -⟩ := find_frame hfind
                split at h
                · cases h
                · next hsame =>
                    rw [not_not, frameOf_payload, frameOf_payload] at hsame
                    obtain rfl := encodeFields_injective (hknown.valid _ hother) hvalid hsame
                    obtain ⟨found, hfound⟩ := ih known (by omega) hknown h
                    exact ⟨found, .again hroom hother hfound⟩
            | none =>
                rw [hfind, Option.elim_none] at h
                have hnew := find_frame_none.mp hfind
                obtain ⟨found, hfound⟩ := ih _ (by omega) (hknown.push hvalid hroom hnew) h
                exact ⟨found, .fresh hvalid hroom hnew hfound⟩
      · rw [scanFrom, if_neg hne, if_pos (by rw [List.length_map]; omega)] at h
        cases h

/-! ## Files after an append or a rewrite -/

def addPending (pending : List CriticalCommand) (command : CriticalCommand) :
    List CriticalCommand :=
  if command.operationId ∈ pending.map CriticalCommand.operationId then pending
  else pending ++ [command]

def without (pending : List CriticalCommand) (operationId : CriticalOperationId) :
    List CriticalCommand :=
  pending.filter fun command => !(command.operationId == operationId)

theorem addPending_length (pending : List CriticalCommand) (command : CriticalCommand) :
    (addPending pending command).length ≤ pending.length + 1 := by
  rw [addPending]
  split
  · omega
  · rw [List.length_append, List.length_singleton]

/-- A command that does not contradict a pending one of its operation. -/
def Agrees (pending : List CriticalCommand) (command : CriticalCommand) : Prop :=
  ∀ prior ∈ pending, prior.operationId = command.operationId → prior = command

theorem Scans.addPending (h : Scans [] file pending)
    (hvalid : criticalCommandValid command = true)
    (hroom : pending.length < criticalCommandJournalMaxRecords) (hagrees : Agrees pending command) :
    Scans [] (file ++ (frameOf command).bytes) (addPending pending command) := by
  refine h.append ?_
  rw [← List.append_nil (frameOf command).bytes, CommandJournal.addPending]
  split
  · next hmem =>
      obtain ⟨prior, hprior, hid⟩ := List.mem_map.mp hmem
      obtain rfl := hagrees prior hprior hid
      exact .again hroom hprior (.done pending)
  · next hnew => exact .fresh hvalid hroom hnew (.done _)

theorem scans_rewritten (known : List CriticalCommand) {kept : List CriticalCommand}
    (h : Known (known ++ kept)) :
    Scans known (rewritten (kept.map frameOf)) (known ++ kept) := by
  induction kept generalizing known with
  | nil =>
      rw [List.append_nil]
      exact .done known
  | cons command kept ih =>
      have hassoc : known ++ command :: kept = known ++ [command] ++ kept := by simp
      have hbounded := h.bounded
      have hdistinct := h.distinct
      rw [List.length_append, List.length_cons] at hbounded
      rw [List.map_append, List.map_cons, List.nodup_append] at hdistinct
      rw [rewritten, List.map_cons, List.flatMap_cons]
      refine .fresh (h.valid command (by simp)) (by omega) ?_ ?_
      · intro hmem
        exact hdistinct.2.2 _ hmem _ (List.mem_cons_self ..) rfl
      · rw [hassoc] at h ⊢
        exact ih _ h

theorem Scans.rewritten_length {known : List CriticalCommand} (h : Scans known data found) :
    (rewritten (found.map frameOf)).length ≤
      (rewritten (known.map frameOf)).length + data.length := by
  induction h with
  | done known => simp
  | fresh hvalid hroom hnew hrest ih =>
      rw [rewritten, rewritten, List.map_append, List.flatMap_append, List.length_append] at ih
      simp only [rewritten, List.length_append, List.map_singleton, List.flatMap_singleton] at ih ⊢
      omega
  | again hroom hmem hrest ih =>
      rw [List.length_append]
      omega

theorem filter_frames (pending : List CriticalCommand) (operationId : CriticalOperationId) :
    (pending.map frameOf).filter (fun frame => !(frame.operationId == operationId)) =
      (without pending operationId).map frameOf := by
  rw [List.filter_map]
  rfl

theorem Known.without (h : Known pending) (operationId : CriticalOperationId) :
    Known (without pending operationId) := by
  have hsub : (CommandJournal.without pending operationId).Sublist pending := List.filter_sublist
  exact ⟨fun command hcommand => h.valid command (hsub.subset hcommand),
    h.distinct.sublist (hsub.map _), hsub.length_le.trans h.bounded⟩

theorem rewritten_without_length (pending : List CriticalCommand)
    (operationId : CriticalOperationId) :
    (rewritten ((without pending operationId).map frameOf)).length ≤
      (rewritten (pending.map frameOf)).length := by
  have hsub : (without pending operationId).Sublist pending := List.filter_sublist
  exact ((hsub.map frameOf).flatMap _).length_le

/-! ## Scans of a whole file -/

theorem scan_ok {quota : Nat} {read : ReadIo} (h : (scan quota file read).result = .ok) :
    file.length ≤ quota ∧ read = .done ∧ ∃ found, Scans [] file found ∧
      (scan quota file read).frames = found.map frameOf := by
  cases read with
  | unsafePermissions | failed | noMemory => cases h
  | done =>
      rw [scan] at h ⊢
      split at h
      · cases h
      · next hquota =>
          obtain ⟨found, hfound⟩ := scans_of_scanFrom file.length [] (Nat.le_refl _)
            Known.nil h
          rw [if_neg hquota]
          exact ⟨Nat.not_lt.mp hquota, rfl, found, hfound, (hfound.scanFrom Known.nil 0).2⟩

theorem scanFrom_result (frames : List JournalFrame) (duplicates : Nat) (data : Bytes) :
    (scanFrom frames duplicates data).result = .ok ∨
      (scanFrom frames duplicates data).result = .corruptData := by
  fun_induction scanFrom frames duplicates data with
  | case1 => exact .inl rfl
  | case2 => exact .inr rfl
  | case3 => exact .inr rfl
  | case4 => exact .inr rfl
  | case5 frames duplicates data hne hroom command rest hdecode frame prior hfind hsame ih =>
      exact ih
  | case6 frames duplicates data hne hroom command rest hdecode frame hfind ih => exact ih

theorem scan_done_ne_ioFailure (quota : Nat) (file : Bytes) :
    (scan quota file .done).result ≠ .ioFailure := by
  rw [scan]
  split
  · simp
  · rcases scanFrom_result [] 0 file with h | h <;> simp [h]

theorem Scans.scan {quota : Nat} (h : Scans [] file found) (hquota : file.length ≤ quota) :
    (scan quota file .done).result = .ok ∧
      (scan quota file .done).frames = found.map frameOf := by
  rw [CommandJournal.scan, if_neg (Nat.not_lt.mpr hquota)]
  exact h.scanFrom Known.nil 0

theorem Scans.unique {left right : List CriticalCommand} (hleft : Scans [] file left)
    (hright : Scans [] file right) : left = right := by
  rw [← List.append_nil file] at hright
  have h := hleft.behind Known.nil hright
  cases h with
  | done => rfl

/-! ## The pending commands of a run -/

/-- The append became uncertain here, and its whole frame stayed in the file. -/
def leavesWhole (s : Journal) (command : CriticalCommand) : AppendIo → Bool
  | .uncertain left =>
      !s.health.appendUncertain &&
        decide ((criticalCommandJournalAppend s command (.uncertain left)).1 = .appendUncertain) &&
        decide ((frameOf command).bytes.length ≤ left)
  | _ => false

def failsRenamed (s : Journal) (operationId : CriticalOperationId) (read : ReadIo)
    (io : RewriteIo) : Bool :=
  decide ((criticalCommandJournalCheckpoint s operationId read io).1 = .ioFailure) &&
    decide (read = .done) && decide (io = .renamed)

def pendingStep (s : Journal) (pending : List CriticalCommand) : Event → List CriticalCommand
  | .append command io =>
      if answersOk s (.append command io) = true ∨ leavesWhole s command io = true then
        addPending pending command
      else pending
  | .checkpoint operationId read io =>
      if answersOk s (.checkpoint operationId read io) = true ∨
          failsRenamed s operationId read io = true then
        without pending operationId
      else pending
  | _ => pending

structure Tracked where
  journal : Journal := {}
  pending : List CriticalCommand := []

def trackedStep (t : Tracked) (e : Event) : Tracked :=
  { journal := step t.journal e, pending := pendingStep t.journal t.pending e }

/-- An append does not contradict a pending command of the same operation. -/
def Consistent (t : Tracked) : Event → Prop
  | .append command _ => Agrees t.pending command
  | _ => True

/-! ## What each call can do -/

structure Quiet (s s' : Journal) : Prop where
  file : s'.file = s.file
  quota : s'.quota = s.quota
  initialized : s'.health.initialized = s.health.initialized
  appendUncertain : s'.health.appendUncertain = s.health.appendUncertain
  records : s'.health.records = s.health.records

theorem quiet_refl (s : Journal) : Quiet s s := ⟨rfl, rfl, rfl, rfl, rfl⟩

theorem recordResult_initialized (health : JournalHealth) (result : JournalResult) :
    (recordResult health result).initialized = health.initialized := by
  cases result <;> rfl

theorem recordResult_appendUncertain (health : JournalHealth) (result : JournalResult) :
    (recordResult health result).appendUncertain = health.appendUncertain := by
  cases result <;> rfl

theorem recordResult_records (health : JournalHealth) (result : JournalResult) :
    (recordResult health result).records = health.records := by
  cases result <;> rfl

theorem quiet_refuse (s : Journal) (result : JournalResult) : Quiet s (s.refuse result).2 :=
  ⟨rfl, rfl, recordResult_initialized .., recordResult_appendUncertain .., recordResult_records ..⟩

theorem quiet_scanned_refuse (s : Journal) (found : Scan) (result : JournalResult) :
    Quiet s (({ s with health := s.health.scanned found } : Journal).refuse result).2 := by
  have h := quiet_refuse { s with health := s.health.scanned found } result
  exact ⟨h.file, h.quota, h.initialized, h.appendUncertain, h.records⟩

/-- The frame of a valid command was written, wholly or up to where it stayed. -/
structure Written (s : Journal) (command : CriticalCommand) : Prop where
  initialized : s.health.initialized = true
  certain : s.health.appendUncertain = false
  valid : criticalCommandValid command = true
  records : s.health.records < criticalCommandJournalMaxRecords
  room : s.file.length + (frameOf command).bytes.length ≤ s.quota

theorem leavesWhole_eq_false {io : AppendIo}
    (h : (criticalCommandJournalAppend s command io).1 ≠ .appendUncertain ∨
      s.health.appendUncertain = true) : leavesWhole s command io = false := by
  cases io with
  | uncertain left =>
      rcases h with h | h
      · simp [leavesWhole, h]
      · simp [leavesWhole, h]
  | notOpened | done | rolledBack => rfl

theorem append_refused {io : AppendIo} {result : JournalResult}
    (h : criticalCommandJournalAppend s command io = s.refuse result) (hok : result ≠ .ok)
    (huncertain : result ≠ .appendUncertain) :
    Quiet s (criticalCommandJournalAppend s command io).2 ∧
      (criticalCommandJournalAppend s command io).1 ≠ .ok ∧ leavesWhole s command io = false := by
  refine ⟨?_, ?_, leavesWhole_eq_false (.inl ?_)⟩
  · rw [h]
    exact quiet_refuse s result
  · rw [h]
    exact hok
  · rw [h]
    exact huncertain

theorem append_cases (s : Journal) (command : CriticalCommand) (io : AppendIo) :
    (Quiet s (criticalCommandJournalAppend s command io).2 ∧
        (criticalCommandJournalAppend s command io).1 ≠ .ok ∧ leavesWhole s command io = false) ∨
      Written s command ∧
        ((∃ left, io = .uncertain left ∧
            (criticalCommandJournalAppend s command io).1 = .appendUncertain ∧
            (criticalCommandJournalAppend s command io).2 =
              { s with
                file := s.file ++ (frameOf command).bytes.take left
                health := recordResult { s.health with appendUncertain := true }
                  .appendUncertain }) ∨
          (criticalCommandJournalAppend s command io).1 = .ok ∧
            (criticalCommandJournalAppend s command io).2.file =
              s.file ++ (frameOf command).bytes ∧
            (criticalCommandJournalAppend s command io).2.quota = s.quota ∧
            (criticalCommandJournalAppend s command io).2.health.records =
              s.health.records + 1) := by
  by_cases hinitialized : s.health.initialized = false
  · have happend : criticalCommandJournalAppend s command io = (.notInitialized, s) := by
      rw [criticalCommandJournalAppend, if_pos hinitialized]
    refine .inl ⟨?_, ?_, leavesWhole_eq_false (.inl ?_)⟩ <;> rw [happend]
    · exact quiet_refl s
    · simp
    · simp
  by_cases huncertain : s.health.appendUncertain = true
  · refine .inl ⟨?_, ?_, leavesWhole_eq_false (.inr huncertain)⟩ <;>
      rw [criticalCommandJournalAppend, if_neg hinitialized, if_pos huncertain]
    · exact ⟨rfl, rfl, rfl, rfl, rfl⟩
    · simp
  cases hframe : buildFrame command with
  | none =>
      refine .inl (append_refused (?_ : _ = s.refuse .invalid) (by simp) (by simp))
      rw [criticalCommandJournalAppend, if_neg hinitialized, if_neg huncertain, hframe]
  | some frame =>
      obtain ⟨hvalid, rfl⟩ := buildFrame_eq_some.mp hframe
      have happend : criticalCommandJournalAppend s command io =
          appendFrame s (frameOf command) io := by
        rw [criticalCommandJournalAppend, if_neg hinitialized, if_neg huncertain, hframe]
      by_cases hrecords : criticalCommandJournalMaxRecords ≤ s.health.records
      · rw [appendFrame.eq_def, if_pos hrecords] at happend
        exact .inl (append_refused happend (by simp) (by simp))
      by_cases hopened : io = .notOpened
      · rw [appendFrame.eq_def, if_neg hrecords, if_pos hopened] at happend
        exact .inl (append_refused happend (by simp) (by simp))
      by_cases hquota : s.quota < (frameOf command).bytes.length ∨
          s.quota - (frameOf command).bytes.length < s.file.length
      · rw [appendFrame.eq_def, if_neg hrecords, if_neg hopened, if_pos hquota] at happend
        exact .inl (append_refused happend (by simp) (by simp))
      rw [appendFrame.eq_def, if_neg hrecords, if_neg hopened, if_neg hquota] at happend
      have hwritten : Written s command :=
        ⟨by simpa using hinitialized, by simpa using huncertain, hvalid, Nat.not_le.mp hrecords,
          by omega⟩
      cases io with
      | notOpened => exact absurd rfl hopened
      | rolledBack => exact .inl (append_refused happend (by simp) (by simp))
      | uncertain left =>
          rw [happend]
          exact .inr ⟨hwritten, .inl ⟨left, rfl, rfl, rfl⟩⟩
      | done =>
          rw [happend]
          exact .inr ⟨hwritten, .inr ⟨rfl, rfl, rfl, rfl⟩⟩

/-- The calls that scan: nothing, or the commands of the file are known. -/
structure Looked (s : Journal) (found : List CriticalCommand) : Prop where
  initialized : s.health.initialized = true
  quota : s.file.length ≤ s.quota
  scans : Scans [] s.file found

theorem sync_cases (s : Journal) (synced : Bool) (read : ReadIo) :
    (Quiet s (criticalCommandJournalSync s synced read).2 ∧
        (criticalCommandJournalSync s synced read).1 ≠ .ok) ∨
      ∃ found, Looked s found ∧
        (criticalCommandJournalSync s synced read).2.file = s.file ∧
        (criticalCommandJournalSync s synced read).2.quota = s.quota ∧
        (criticalCommandJournalSync s synced read).2.health.records = found.length := by
  rw [criticalCommandJournalSync]
  split
  · exact .inl ⟨quiet_refl s, by simp⟩
  · next hinitialized =>
      split
      · exact .inl ⟨quiet_refuse s _, by simp [Journal.refuse]⟩
      · dsimp only
        split
        · next hfailed => exact .inl ⟨quiet_scanned_refuse s _ _, hfailed⟩
        · next hok =>
            rw [not_not] at hok
            obtain ⟨hquota, -, found, hscans, hframes⟩ := scan_ok hok
            refine .inr ⟨found, ⟨by simpa using hinitialized, hquota, hscans⟩, rfl, rfl, ?_⟩
            simp only [updateHealth, hframes, List.length_map]

theorem replay_cases (s : Journal) (replay : CriticalCommand → Bool) (read : ReadIo) :
    Quiet s (criticalCommandJournalReplay s replay read).2 ∧
      ((criticalCommandJournalReplay s replay read).1 = .ok → ∃ found, Looked s found) := by
  rw [criticalCommandJournalReplay]
  split
  · exact ⟨quiet_refl s, by simp⟩
  · next hinitialized =>
      dsimp only
      split
      · next hfailed => exact ⟨quiet_scanned_refuse s _ _, fun h => absurd h hfailed⟩
      · next hok =>
          rw [not_not] at hok
          obtain ⟨hquota, -, found, hscans, -⟩ := scan_ok hok
          exact ⟨⟨rfl, rfl, rfl, rfl, rfl⟩,
            fun _ => ⟨found, by simpa using hinitialized, hquota, hscans⟩⟩

theorem checkpoint_cases (s : Journal) (operationId : CriticalOperationId) (read : ReadIo)
    (io : RewriteIo) :
    (Quiet s (criticalCommandJournalCheckpoint s operationId read io).2 ∧
        (criticalCommandJournalCheckpoint s operationId read io).1 ≠ .ok ∧
        failsRenamed s operationId read io = false) ∨
      ∃ found, Looked s found ∧
        (criticalCommandJournalCheckpoint s operationId read io).2.file =
          rewritten ((without found operationId).map frameOf) ∧
        (criticalCommandJournalCheckpoint s operationId read io).2.quota = s.quota ∧
        ((criticalCommandJournalCheckpoint s operationId read io).1 = .ok ∧
            (criticalCommandJournalCheckpoint s operationId read io).2.health.records =
              (without found operationId).length ∨
          failsRenamed s operationId read io = true ∧
            (criticalCommandJournalCheckpoint s operationId read io).2.health.appendUncertain =
              s.health.appendUncertain ∧
            (criticalCommandJournalCheckpoint s operationId read io).2.health.records =
              s.health.records) := by
  by_cases hinitialized : s.health.initialized = false
  · have hcall : criticalCommandJournalCheckpoint s operationId read io = (.notInitialized, s) := by
      rw [criticalCommandJournalCheckpoint, if_pos hinitialized]
    left
    simp only [failsRenamed, hcall]
    exact ⟨quiet_refl s, by simp, by simp⟩
  by_cases hzero : criticalOperationIdIsZero operationId = true
  · have hcall : criticalCommandJournalCheckpoint s operationId read io = (.invalid, s) := by
      rw [criticalCommandJournalCheckpoint, if_neg hinitialized, if_pos hzero]
    left
    simp only [failsRenamed, hcall]
    exact ⟨quiet_refl s, by simp, by simp⟩
  by_cases hok : (scan s.quota s.file read).result = .ok
  · obtain ⟨hquota, rfl, found, hscans, hframes⟩ := scan_ok hok
    have hlooked : Looked s found := ⟨by simpa using hinitialized, hquota, hscans⟩
    have hcall : criticalCommandJournalCheckpoint s operationId .done io =
        checkpointFound { s with health := s.health.scanned (scan s.quota s.file .done) }
          ((without found operationId).map frameOf) io := by
      rw [criticalCommandJournalCheckpoint, if_neg hinitialized, if_neg hzero, ← filter_frames,
        ← hframes]
      exact if_neg (not_not.mpr hok)
    cases io with
    | failed =>
        left
        simp only [failsRenamed, hcall]
        exact ⟨quiet_scanned_refuse s _ _, by simp [checkpointFound, rewrite, Journal.refuse],
          by simp⟩
    | renamed =>
        right
        simp only [failsRenamed, hcall]
        exact ⟨found, hlooked, rfl, rfl, .inr ⟨rfl, rfl, rfl⟩⟩
    | done =>
        right
        simp only [hcall]
        exact ⟨found, hlooked, rfl, rfl, .inl ⟨rfl, List.length_map _⟩⟩
  · have hcall : criticalCommandJournalCheckpoint s operationId read io =
        ({ s with health := s.health.scanned (scan s.quota s.file read) } : Journal).refuse
          (scan s.quota s.file read).result := by
      rw [criticalCommandJournalCheckpoint, if_neg hinitialized, if_neg hzero]
      exact if_pos hok
    left
    refine ⟨?_, ?_, ?_⟩
    · rw [hcall]
      exact quiet_scanned_refuse s _ _
    · rw [hcall]
      exact hok
    · rw [failsRenamed, hcall]
      cases read with
      | done => simp [Journal.refuse, scan_done_ne_ioFailure]
      | unsafePermissions | failed | noMemory => simp

theorem init_cases (s : Journal) (quota : Nat) (io : InitIo) :
    (criticalCommandJournalInit s quota io).2.file = s.file ∧
      ((criticalCommandJournalInit s quota io).1 = false ∧
          (criticalCommandJournalInit s quota io).2 = s ∨
        (criticalCommandJournalInit s quota io).1 = false ∧
          (criticalCommandJournalInit s quota io).2.health.initialized = false ∨
        (criticalCommandJournalInit s quota io).1 = true ∧ ∃ found, Scans [] s.file found ∧
          s.file.length ≤ (criticalCommandJournalInit s quota io).2.quota ∧
          (criticalCommandJournalInit s quota io).2.health.records = found.length) := by
  rw [criticalCommandJournalInit.eq_def]
  split
  · exact ⟨rfl, .inl ⟨rfl, rfl⟩⟩
  · cases io with
    | mkdirFailed | unsafeDirectory | openFailed | unsafeFile =>
        exact ⟨rfl, .inr (.inl ⟨rfl, rfl⟩)⟩
    | ready read =>
        dsimp only
        split
        · exact ⟨rfl, .inr (.inl ⟨rfl, recordResult_initialized ..⟩)⟩
        · next hok =>
            rw [not_not] at hok
            obtain ⟨hquota, -, found, hscans, hframes⟩ := scan_ok hok
            refine ⟨rfl, .inr (.inr ⟨rfl, found, hscans, hquota, ?_⟩)⟩
            simp only [updateHealth, hframes, List.length_map]

/-! ## The invariant -/

/-- The file is the pending commands, and an append that is let in has room. -/
structure Sound (t : Tracked) : Prop where
  scans : Scans [] t.journal.file t.pending
  counted : t.journal.health.initialized = true → t.journal.health.appendUncertain = false →
    t.pending.length ≤ t.journal.health.records

/-- The file ends in the beginning of a record, and the journal knows. -/
structure Torn (t : Tracked) : Prop where
  scans : ∀ found, ¬ Scans [] t.journal.file found
  uncertain : t.journal.health.initialized = true → t.journal.health.appendUncertain = true

def Inv (t : Tracked) : Prop := Sound t ∨ Torn t

def Ready (t : Tracked) : Prop :=
  Scans [] t.journal.file t.pending ∧ t.journal.file.length ≤ t.journal.quota

theorem inv_quiet {s' : Journal} (hquiet : Quiet s s') (h : Inv ⟨s, pending⟩) :
    Inv ⟨s', pending⟩ := by
  rcases h with h | h
  · refine .inl ⟨?_, ?_⟩
    · rw [hquiet.file]
      exact h.scans
    · rw [hquiet.initialized, hquiet.appendUncertain, hquiet.records]
      exact h.counted
  · refine .inr ⟨?_, ?_⟩
    · rw [hquiet.file]
      exact h.scans
    · rw [hquiet.initialized, hquiet.appendUncertain]
      exact h.uncertain

theorem Inv.scans_eq (h : Inv ⟨s, pending⟩) (hscans : Scans [] s.file found) :
    Sound ⟨s, pending⟩ ∧ found = pending := by
  rcases h with h | h
  · exact ⟨h, hscans.unique h.scans⟩
  · exact absurd hscans (h.scans found)

theorem append_inv (h : Inv ⟨s, pending⟩) (hagrees : Agrees pending command) (io : AppendIo) :
    Inv (trackedStep ⟨s, pending⟩ (.append command io)) ∧
      (answersOk s (.append command io) = true →
        Ready (trackedStep ⟨s, pending⟩ (.append command io))) := by
  show Inv ⟨(criticalCommandJournalAppend s command io).2,
      pendingStep s pending (.append command io)⟩ ∧
    (decide ((criticalCommandJournalAppend s command io).1 = .ok) = true →
      Ready ⟨(criticalCommandJournalAppend s command io).2,
        pendingStep s pending (.append command io)⟩)
  rcases append_cases s command io with ⟨hquiet, hanswer, hleft⟩ | ⟨hwritten, hcases⟩
  · have hpending : pendingStep s pending (.append command io) = pending :=
      if_neg (by simp [answersOk, hanswer, hleft])
    rw [hpending]
    exact ⟨inv_quiet hquiet h, fun hok => absurd (of_decide_eq_true hok) hanswer⟩
  have hsound : Sound ⟨s, pending⟩ := by
    rcases h with h | h
    · exact h
    · have huncertain := h.uncertain hwritten.initialized
      rw [show s.health.appendUncertain = false from hwritten.certain] at huncertain
      cases huncertain
  have hcounted : pending.length ≤ s.health.records :=
    hsound.counted hwritten.initialized hwritten.certain
  have hwhole : Scans [] (s.file ++ (frameOf command).bytes) (addPending pending command) :=
    hsound.scans.addPending hwritten.valid (hcounted.trans_lt hwritten.records) hagrees
  rcases hcases with ⟨left, rfl, hanswer, hafter⟩ | ⟨hanswer, hfile, hquota, hrecords⟩
  · refine ⟨?_, by simp [hanswer]⟩
    have hstill : (recordResult { s.health with appendUncertain := true }
        .appendUncertain).appendUncertain = true := rfl
    have hleft : leavesWhole s command (.uncertain left) =
        decide ((frameOf command).bytes.length ≤ left) := by
      simp [leavesWhole, hanswer, hwritten.certain]
    by_cases hall : (frameOf command).bytes.length ≤ left
    · have hpending : pendingStep s pending (.append command (.uncertain left)) =
          addPending pending command := if_pos (.inr (by rw [hleft]; exact decide_eq_true hall))
      rw [hpending, hafter, List.take_of_length_le hall]
      exact .inl ⟨hwhole, fun _ hcertain => by rw [hstill] at hcertain; cases hcertain⟩
    · have hpending : pendingStep s pending (.append command (.uncertain left)) = pending :=
        if_neg (by simp [answersOk, hanswer, hleft, hall])
      rw [hpending, hafter]
      by_cases hzero : left = 0
      · rw [hzero, List.take_zero, List.append_nil]
        exact .inl ⟨hsound.scans, fun _ hcertain => by rw [hstill] at hcertain; cases hcertain⟩
      · exact .inr ⟨hsound.scans.not_torn Known.nil hwritten.valid (Nat.pos_of_ne_zero hzero)
          (Nat.not_le.mp hall), fun _ => hstill⟩
  · have hpending : pendingStep s pending (.append command io) = addPending pending command :=
      if_pos (.inl (by simp [answersOk, hanswer]))
    rw [hpending]
    refine ⟨.inl ⟨?_, ?_⟩, fun _ => ⟨?_, ?_⟩⟩
    · rw [hfile]
      exact hwhole
    · intro _ _
      have hlength := addPending_length pending command
      dsimp only
      omega
    · rw [hfile]
      exact hwhole
    · rw [hfile, hquota, List.length_append]
      exact hwritten.room

theorem checkpoint_inv (h : Inv ⟨s, pending⟩) (operationId : CriticalOperationId) (read : ReadIo)
    (io : RewriteIo) :
    Inv (trackedStep ⟨s, pending⟩ (.checkpoint operationId read io)) ∧
      (answersOk s (.checkpoint operationId read io) = true →
        Ready (trackedStep ⟨s, pending⟩ (.checkpoint operationId read io))) := by
  show Inv ⟨(criticalCommandJournalCheckpoint s operationId read io).2,
      pendingStep s pending (.checkpoint operationId read io)⟩ ∧
    (decide ((criticalCommandJournalCheckpoint s operationId read io).1 = .ok) = true →
      Ready ⟨(criticalCommandJournalCheckpoint s operationId read io).2,
        pendingStep s pending (.checkpoint operationId read io)⟩)
  rcases checkpoint_cases s operationId read io with
    ⟨hquiet, hanswer, hrenamed⟩ | ⟨found, hlooked, hfile, hquota, hcases⟩
  · have hpending : pendingStep s pending (.checkpoint operationId read io) = pending :=
      if_neg (by simp [answersOk, hanswer, hrenamed])
    rw [hpending]
    exact ⟨inv_quiet hquiet h, fun hok => absurd (of_decide_eq_true hok) hanswer⟩
  obtain ⟨hsound, rfl⟩ := h.scans_eq hlooked.scans
  have hknown := hlooked.scans.known Known.nil
  have hpending : pendingStep s found (.checkpoint operationId read io) =
      without found operationId := by
    refine if_pos ?_
    rcases hcases with ⟨hanswer, -⟩ | ⟨hrenamed, -⟩
    · exact .inl (by simp [answersOk, hanswer])
    · exact .inr hrenamed
  have hscans : Scans [] (criticalCommandJournalCheckpoint s operationId read io).2.file
      (without found operationId) := by
    rw [hfile]
    exact scans_rewritten [] (hknown.without operationId)
  have hlength : (without found operationId).length ≤ found.length := List.length_filter_le ..
  rw [hpending]
  refine ⟨.inl ⟨hscans, ?_⟩, fun _ => ⟨hscans, ?_⟩⟩
  · intro _ hcertain
    rcases hcases with ⟨-, hrecords⟩ | ⟨-, huncertain, hrecords⟩
    · exact hrecords.ge
    · have hcounted := hsound.counted hlooked.initialized (huncertain.symm.trans hcertain)
      dsimp only at hcounted ⊢
      omega
  · have hall := hlooked.scans.rewritten_length
    have hless := rewritten_without_length found operationId
    have hroom := hlooked.quota
    rw [hfile, hquota]
    simp only [rewritten, List.map_nil, List.flatMap_nil, List.length_nil] at hall hless ⊢
    omega

theorem step_inv {t : Tracked} (h : Inv t) {e : Event} (hconsistent : Consistent t e) :
    Inv (trackedStep t e) ∧ (answersOk t.journal e = true → Ready (trackedStep t e)) := by
  obtain ⟨s, pending⟩ := t
  cases e with
  | append command io => exact append_inv h hconsistent io
  | checkpoint operationId read io => exact checkpoint_inv h operationId read io
  | shutdown =>
      refine ⟨?_, fun hok => by cases hok⟩
      rcases h with h | h
      · exact .inl ⟨h.scans, fun hinitialized => by cases hinitialized⟩
      · exact .inr ⟨h.scans, fun hinitialized => by cases hinitialized⟩
  | init quota io =>
      show Inv ⟨(criticalCommandJournalInit s quota io).2, pending⟩ ∧
        ((criticalCommandJournalInit s quota io).1 = true →
          Ready ⟨(criticalCommandJournalInit s quota io).2, pending⟩)
      obtain ⟨hfile, hcases⟩ := init_cases s quota io
      rcases hcases with ⟨hanswer, hsame⟩ | ⟨hanswer, hstopped⟩ |
        ⟨-, found, hscans, hquota, hrecords⟩
      · rw [hsame]
        exact ⟨h, fun hok => by rw [hanswer] at hok; cases hok⟩
      · refine ⟨?_, fun hok => by rw [hanswer] at hok; cases hok⟩
        rcases h with h | h
        · exact .inl ⟨by rw [hfile]; exact h.scans, fun hinitialized => by
            rw [hstopped] at hinitialized; cases hinitialized⟩
        · exact .inr ⟨by rw [hfile]; exact h.scans, fun hinitialized => by
            rw [hstopped] at hinitialized; cases hinitialized⟩
      · obtain ⟨hsound, rfl⟩ := h.scans_eq hscans
        exact ⟨.inl ⟨by rw [hfile]; exact hscans, fun _ _ => hrecords.ge⟩,
          fun _ => ⟨by rw [hfile]; exact hscans, by rw [hfile]; exact hquota⟩⟩
  | sync synced read =>
      show Inv ⟨(criticalCommandJournalSync s synced read).2, pending⟩ ∧
        (decide ((criticalCommandJournalSync s synced read).1 = .ok) = true →
          Ready ⟨(criticalCommandJournalSync s synced read).2, pending⟩)
      rcases sync_cases s synced read with
        ⟨hquiet, hanswer⟩ | ⟨found, hlooked, hfile, hquota, hrecords⟩
      · exact ⟨inv_quiet hquiet h, fun hok => absurd (of_decide_eq_true hok) hanswer⟩
      · obtain ⟨hsound, rfl⟩ := h.scans_eq hlooked.scans
        refine ⟨.inl ⟨by rw [hfile]; exact hlooked.scans, fun _ _ => hrecords.ge⟩,
          fun _ => ⟨by rw [hfile]; exact hlooked.scans, ?_⟩⟩
        rw [hfile, hquota]
        exact hlooked.quota
  | replay replay read =>
      show Inv ⟨(criticalCommandJournalReplay s replay read).2, pending⟩ ∧
        (decide ((criticalCommandJournalReplay s replay read).1 = .ok) = true →
          Ready ⟨(criticalCommandJournalReplay s replay read).2, pending⟩)
      obtain ⟨hquiet, hlooked⟩ := replay_cases s replay read
      refine ⟨inv_quiet hquiet h, fun hok => ?_⟩
      obtain ⟨found, hlooked⟩ := hlooked (of_decide_eq_true hok)
      obtain ⟨hsound, rfl⟩ := h.scans_eq hlooked.scans
      refine ⟨by rw [hquiet.file]; exact hlooked.scans, ?_⟩
      rw [hquiet.file, hquiet.quota]
      exact hlooked.quota

theorem run_inv (events : List Event) {t : Tracked} (h : Inv t)
    (hconsistent : Along trackedStep Consistent t events) : Inv (run trackedStep t events) :=
  run_invariant_along (P := Inv) (fun _ _ hinv hok => (step_inv hinv hok).1) events h hconsistent

theorem inv_fresh : Inv {} := .inl ⟨.done [], fun h => by cases h⟩

/-- The journal refines its pending commands. In every run from an empty journal in
which no append contradicts a pending command of its operation, after every call
that answers ok the file scans, and to the pending commands in the order they were
first appended, one for each operation. Pending are the commands whose append
answered ok, or failed and left its whole frame behind, and that no checkpoint has
since removed, by answering ok or by failing after its rename. -/
theorem journal_refines_pending (events : List Event) (e : Event)
    (hconsistent : Along trackedStep Consistent {} (events ++ [e]))
    (hok : answersOk (run trackedStep {} events).journal e = true) :
    let t := run trackedStep {} (events ++ [e])
    (scan t.journal.quota t.journal.file .done).result = .ok ∧
      (scan t.journal.quota t.journal.file .done).frames.map JournalFrame.command = t.pending ∧
      (t.pending.map CriticalCommand.operationId).Nodup := by
  rw [along_append] at hconsistent
  have hbefore := run_inv events inv_fresh hconsistent.1
  obtain ⟨hscans, hquota⟩ := (step_inv hbefore hconsistent.2.1).2 hok
  rw [run_append]
  obtain ⟨hresult, hframes⟩ := hscans.scan hquota
  refine ⟨hresult, ?_, (hscans.known Known.nil).distinct⟩
  show (scan _ _ _).frames.map JournalFrame.command = _
  rw [run_cons, run_nil, hframes, List.map_map]
  exact List.map_id _

def soleCommand (payload : Bytes) : CriticalCommand :=
  { schemaVersion := criticalCommandSchemaVersion
    operationId := ⟨List.replicate 16 2, rfl⟩
    type := CriticalCommandType.test
    payloadVersion := 1
    sourceSite := CriticalSourceSite.command
    deadlineClass := CriticalDeadlineClass.interactive
    acceptedAtUsec := 1
    keys := [⟨CriticalEntityType.player, 9⟩]
    expectedRevisions := []
    payload }

def opened : Journal := { quota := 4096, health := { initialized := true } }

theorem init_opened : criticalCommandJournalInit {} 4096 (.ready .done) = (true, opened) := by
  have hscan : scan 4096 [] .done = ⟨.ok, [], 0⟩ := by
    rw [scan, if_neg (by simp), scanFrom, if_pos rfl]
  rw [criticalCommandJournalInit.eq_def]
  simp only [hscan]
  rfl

theorem trackedStep_opened :
    trackedStep {} (.init 4096 (.ready .done)) = ⟨opened, []⟩ := by
  show (⟨(criticalCommandJournalInit {} 4096 (.ready .done)).2, []⟩ : Tracked) = _
  rw [init_opened]

/-- The same command twice. -/
theorem journal_refines_pending_repeated :
    let events : List Event := [.init 4096 (.ready .done), .append (soleCommand [9]) .done]
    let t := run trackedStep {} (events ++ [.append (soleCommand [9]) .done])
    (scan t.journal.quota t.journal.file .done).result = .ok ∧
      (scan t.journal.quota t.journal.file .done).frames.map JournalFrame.command = t.pending ∧
      (t.pending.map CriticalCommand.operationId).Nodup := by
  have hpending : pendingStep opened [] (.append (soleCommand [9]) .done) = [soleCommand [9]] := by
    decide +kernel
  refine journal_refines_pending _ _ ⟨trivial, ?_, ?_, trivial⟩ ?_
  · intro prior hprior
    cases hprior
  · rw [trackedStep_opened]
    show Agrees (pendingStep opened [] (.append (soleCommand [9]) .done)) (soleCommand [9])
    rw [hpending]
    intro prior hprior _
    exact List.mem_singleton.mp hprior
  · rw [run_cons, run_cons, run_nil, trackedStep_opened]
    decide +kernel

theorem sync_ok (h : Looked s found) :
    (criticalCommandJournalSync s true .done).1 = .ok ∧
      (criticalCommandJournalSync s true .done).2.file = s.file ∧
      (criticalCommandJournalSync s true .done).2.quota = s.quota := by
  have hscan := (h.scans.scan h.quota).1
  rw [criticalCommandJournalSync, if_neg (by simp [h.initialized]), if_neg (by simp)]
  rw [if_neg (not_not.mpr hscan)]
  exact ⟨rfl, rfl, rfl⟩

/-- The answers alone do not tell what is in the file. An append that fails and
cannot be rolled back may have left its command, which the next sync that answers
ok keeps; and two commands of one operation are both taken, into a file that does
not scan. -/
theorem journal_answers_do_not_tell :
    let failed := run step {} [.init 4096 (.ready .done),
      .append (soleCommand [9]) (.uncertain 4096)]
    let synced := step failed (.sync true .done)
    let first := run step {} [.init 4096 (.ready .done), .append (soleCommand [9]) .done]
    let second := step first (.append (soleCommand [8]) .done)
    (answersOk opened (.append (soleCommand [9]) (.uncertain 4096)) = false ∧
        answersOk failed (.sync true .done) = true ∧
        (scan synced.quota synced.file .done).frames.map JournalFrame.command =
          [soleCommand [9]]) ∧
      answersOk {} (.init 4096 (.ready .done)) = true ∧
      answersOk opened (.append (soleCommand [9]) .done) = true ∧
      answersOk first (.append (soleCommand [8]) .done) = true ∧
      (scan second.quota second.file .done).result = .corruptData := by
  have hinit : step {} (.init 4096 (.ready .done)) = opened := congrArg Prod.snd init_opened
  have hscans : Scans [] (frameOf (soleCommand [9])).bytes [soleCommand [9]] := by
    rw [← List.append_nil (frameOf (soleCommand [9])).bytes]
    exact .fresh (by decide) (by decide) (by simp) (.done _)
  intro failed synced first second
  have hfailed : failed = step opened (.append (soleCommand [9]) (.uncertain 4096)) :=
    congrArg (fun s => step s (.append (soleCommand [9]) (.uncertain 4096))) hinit
  have hfirst : first = step opened (.append (soleCommand [9]) .done) :=
    congrArg (fun s => step s (.append (soleCommand [9]) .done)) hinit
  have hlooked : Looked failed [soleCommand [9]] := by
    rw [hfailed]
    have hfile : (step opened (.append (soleCommand [9]) (.uncertain 4096))).file =
        (frameOf (soleCommand [9])).bytes := by decide +kernel
    refine ⟨by decide +kernel, by decide +kernel, ?_⟩
    rw [hfile]
    exact hscans
  obtain ⟨hsynced, hfile, hquota⟩ := sync_ok hlooked
  refine ⟨⟨by decide +kernel, decide_eq_true hsynced, ?_⟩, congrArg Prod.fst init_opened,
    by decide +kernel, by rw [hfirst]; decide +kernel, ?_⟩
  · have hframes := (hlooked.scans.scan hlooked.quota).2
    show (scan (criticalCommandJournalSync failed true .done).2.quota
      (criticalCommandJournalSync failed true .done).2.file .done).frames.map _ = _
    rw [hfile, hquota, hframes]
    rfl
  · have hsecond : second.file = (frameOf (soleCommand [9])).bytes ++
        (frameOf (soleCommand [8])).bytes ∧ second.file.length ≤ second.quota := by
      show (step first _).file = _ ∧ (step first _).file.length ≤ (step first _).quota
      rw [hfirst]
      decide +kernel
    rw [scan, if_neg (Nat.not_lt.mpr hsecond.2), hsecond.1]
    rcases scanFrom_result [] 0 ((frameOf (soleCommand [9])).bytes ++
      (frameOf (soleCommand [8])).bytes) with hok | hcorrupt
    · obtain ⟨found, hfound⟩ := scans_of_scanFrom _ [] (Nat.le_refl _) Known.nil hok
      have hvalid : criticalCommandValid (soleCommand [8]) = true := by decide
      have hid : (soleCommand [9]).operationId = (soleCommand [8]).operationId := rfl
      exact absurd hfound (hscans.not_conflicting Known.nil hvalid (List.mem_singleton_self _) hid
        (by decide) found)
    · exact hcorrupt

end Duris.Persistence.CommandJournal
