import Duris.Lib.Utf8
import Duris.Net.Unicode

/-!
# One UTF-8 for the socket and the game

Three pieces of code in two files say what UTF-8 is: the ranges of
`websocket_valid_utf8`, the arithmetic of `get_utf8` and the shifts of `put_utf8`. Each is
compared with `Utf8.Spells` at one character, and the three agree on strings by taking
one character after the other off the front.
-/

namespace Duris.Net

open Utf8

structure Scalar (v : Nat) (bytes : Bytes) : Prop where
  spells : Spells v bytes
  valid : v.isValidChar

variable {v : Nat} {bytes str rest : Bytes} {byte first : UInt8} {followers : List (UInt8 × UInt8)}

theorem Scalar.lt (h : Scalar v bytes) : v < 0x110000 := by
  have hvalid := h.valid
  unfold Nat.isValidChar at hvalid
  omega

theorem scalar_char (c : Char) : Scalar c.val.toNat (String.utf8EncodeChar c) where
  spells := by
    have hvalid := c.valid
    rw [encode_char]
    refine spells_encode ?_
    unfold UInt32.isValidChar Nat.isValidChar at hvalid
    omega
  valid := c.valid

theorem Scalar.exists_char (h : Scalar v bytes) : ∃ c : Char, bytes = String.utf8EncodeChar c := by
  refine ⟨Char.ofNatAux v h.valid, ?_⟩
  have hval : (Char.ofNatAux v h.valid).val.toNat = v := rfl
  rw [encode_char, hval]
  exact (spells_iff.mp h.spells).2

/-! ## The arithmetic -/

theorem isUtf8Tail_iff (byte : UInt8) : isUtf8Tail byte = true ↔ Tail byte := by
  unfold Tail
  revert byte
  apply byte_forall
  decide +kernel

theorem lowBits : ∀ byte : UInt8, Tail byte → (byte &&& 0x3f).toNat = byte.toNat - 0x80 := by
  unfold Tail
  apply byte_forall
  decide +kernel

theorem utf8Lead_eq : ∀ first : UInt8, 0xc0 ≤ first.toNat → utf8Lead first =
    if first.toNat < 0xe0 then some (1, first.toNat - 0xc0, 0x80)
    else if first.toNat < 0xf0 then some (2, first.toNat - 0xe0, 0x800)
    else if first.toNat < 0xf8 then some (3, first.toNat - 0xf0, 0x10000) else none := by
  apply byte_forall
  decide +kernel

theorem getTails_succ (h : Tail byte) (len c : Nat) (str : Bytes) :
    getTails (len + 1) c (byte :: str) = getTails len (c * 64 + (byte.toNat - 0x80)) str := by
  rw [getTails, if_pos ((isUtf8Tail_iff byte).mpr h), lowBits byte h, Nat.shiftLeft_eq]

theorem getTails_eq_some {len c : Nat} (h : getTails (len + 1) c str = (some v, rest)) :
    ∃ byte str', str = byte :: str' ∧ Tail byte ∧
      getTails len (c * 64 + (byte.toNat - 0x80)) str' = (some v, rest) := by
  match str with
  | [] => cases h
  | byte :: str =>
      by_cases htail : Tail byte
      · rw [getTails_succ htail] at h
        exact ⟨byte, str, rfl, htail, h⟩
      · rw [getTails, if_neg (mt (isUtf8Tail_iff byte).mp htail)] at h
        cases h

/-! ## `get_utf8` -/

/-- The last checks of `get_utf8`, on what the tails have made. -/
def checkScalar (c least : Nat) (rest : Bytes) : Nat × Bytes :=
  if c < least then (uniBad, rest)
  else if 0xd800 ≤ c ∧ c ≤ 0xdfff then (uniBad, rest)
  else if 0x10ffff < c then (uniBad, rest)
  else (c, rest)

theorem getUtf8_lead (h : 0xc0 ≤ first.toNat) :
    getUtf8 (first :: str) =
      match utf8Lead first with
      | none => eatJunk str
      | some (len, bits, least) =>
          match getTails len bits str with
          | (none, rest) => (uniBad, rest)
          | (some c, rest) => checkScalar c least rest := by
  have hzero : first ≠ 0 := by
    rintro rfl
    exact absurd h (by decide)
  have hascii : ¬ first < 128 := by
    rw [UInt8.lt_iff_toNat_lt]
    exact Nat.not_lt.mpr (Nat.le_trans (by decide) h)
  have hjunk : ¬ first < 0xc0 := by
    rw [UInt8.lt_iff_toNat_lt]
    exact Nat.not_lt.mpr h
  rw [getUtf8, if_neg hzero, if_neg hascii, if_neg hjunk]
  rfl

theorem checkScalar_valid {c least : Nat} (hleast : least ≤ c) (h : c.isValidChar) :
    checkScalar c least rest = (c, rest) := by
  unfold Nat.isValidChar at h
  rw [checkScalar, if_neg (Nat.not_lt.mpr hleast), if_neg (by omega), if_neg (by omega)]

theorem checkScalar_ne_bad {c least : Nat} {rest' : Bytes}
    (h : checkScalar c least rest = (v, rest')) (hv : v ≠ uniBad) :
    v = c ∧ rest' = rest ∧ least ≤ c ∧ c.isValidChar := by
  unfold checkScalar at h
  split at h
  · exact absurd (Prod.mk.inj h).1.symm hv
  · split at h
    · exact absurd (Prod.mk.inj h).1.symm hv
    · split at h
      · exact absurd (Prod.mk.inj h).1.symm hv
      · cases h
        refine ⟨rfl, rfl, by omega, ?_⟩
        unfold Nat.isValidChar
        omega

theorem getUtf8_scalar (h : Scalar v bytes) (hzero : v ≠ 0) (rest : Bytes) :
    getUtf8 (bytes ++ rest) = (v, rest) := by
  have hvalid := h.valid
  cases h.spells with
  | @one a ha =>
      have hne : a ≠ 0 := by
        rintro rfl
        exact hzero rfl
      rw [List.singleton_append, getUtf8, if_neg hne,
        if_pos (by rw [UInt8.lt_iff_toNat_lt]; exact ha)]
  | @two a b _ ha hb hv hmin =>
      rw [List.cons_append, getUtf8_lead ha.1, utf8Lead_eq a ha.1, if_pos ha.2]
      dsimp only
      rw [List.cons_append, getTails_succ hb, ← hv]
      exact checkScalar_valid hmin hvalid
  | @three a b c _ ha hb hc hv hmin =>
      rw [List.cons_append, getUtf8_lead (by omega), utf8Lead_eq a (by omega), if_neg (by omega),
        if_pos ha.2]
      dsimp only
      rw [List.cons_append, getTails_succ hb, List.cons_append, getTails_succ hc, ← hv]
      exact checkScalar_valid hmin hvalid
  | @four a b c d _ ha hb hc hd hv hmin =>
      rw [List.cons_append, getUtf8_lead (by omega), utf8Lead_eq a (by omega), if_neg (by omega),
        if_neg (by omega), if_pos ha.2]
      dsimp only
      rw [List.cons_append, getTails_succ hb, List.cons_append, getTails_succ hc,
        List.cons_append, getTails_succ hd, ← hv]
      exact checkScalar_valid hmin hvalid

/-- Behind a first byte of several, no error means that the tails were there. -/
theorem getTails_of_getUtf8 (hlead : 0xc0 ≤ first.toNat) (h : getUtf8 (first :: str) = (v, rest))
    (hv : v ≠ uniBad) :
    ∃ len bits least, utf8Lead first = some (len, bits, least) ∧
      getTails len bits str = (some v, rest) ∧ least ≤ v ∧ v.isValidChar := by
  rw [getUtf8_lead hlead] at h
  cases hfirst : utf8Lead first with
  | none =>
      rw [hfirst] at h
      exact absurd (Prod.mk.inj h).1.symm hv
  | some lead =>
      obtain ⟨len, bits, least⟩ := lead
      rw [hfirst] at h
      dsimp only at h
      cases htails : getTails len bits str with
      | mk result rest' =>
          rw [htails] at h
          cases result with
          | none => exact absurd (Prod.mk.inj h).1.symm hv
          | some c =>
              obtain ⟨rfl, rfl, hleast, hvalid⟩ := checkScalar_ne_bad h hv
              exact ⟨len, bits, least, rfl, htails, hleast, hvalid⟩

theorem scalar_of_getUtf8 (hfirst : first ≠ 0) (h : getUtf8 (first :: str) = (v, rest))
    (hv : v ≠ uniBad) : ∃ bytes, first :: str = bytes ++ rest ∧ Scalar v bytes := by
  by_cases hlead : 0xc0 ≤ first.toNat
  · obtain ⟨len, bits, least, hsays, htails, hleast, hvalid⟩ := getTails_of_getUtf8 hlead h hv
    rw [utf8Lead_eq first hlead] at hsays
    split_ifs at hsays with htwo hthree hfour
    · obtain ⟨rfl, rfl, rfl⟩ : 1 = len ∧ _ = bits ∧ _ = least := by simpa using hsays
      obtain ⟨b, str, rfl, hb, htails⟩ := getTails_eq_some htails
      obtain ⟨hvalue, rfl⟩ := Prod.mk.inj htails
      exact ⟨[first, b], rfl, .two ⟨hlead, htwo⟩ hb (Option.some.inj hvalue).symm hleast, hvalid⟩
    · obtain ⟨rfl, rfl, rfl⟩ : 2 = len ∧ _ = bits ∧ _ = least := by simpa using hsays
      obtain ⟨b, str, rfl, hb, htails⟩ := getTails_eq_some htails
      obtain ⟨c, str, rfl, hc, htails⟩ := getTails_eq_some htails
      obtain ⟨hvalue, rfl⟩ := Prod.mk.inj htails
      exact ⟨[first, b, c], rfl,
        .three ⟨by omega, hthree⟩ hb hc (Option.some.inj hvalue).symm hleast, hvalid⟩
    · obtain ⟨rfl, rfl, rfl⟩ : 3 = len ∧ _ = bits ∧ _ = least := by simpa using hsays
      obtain ⟨b, str, rfl, hb, htails⟩ := getTails_eq_some htails
      obtain ⟨c, str, rfl, hc, htails⟩ := getTails_eq_some htails
      obtain ⟨d, str, rfl, hd, htails⟩ := getTails_eq_some htails
      obtain ⟨hvalue, rfl⟩ := Prod.mk.inj htails
      exact ⟨[first, b, c, d], rfl,
        .four ⟨by omega, hfour⟩ hb hc hd (Option.some.inj hvalue).symm hleast, hvalid⟩
  · rw [getUtf8, if_neg hfirst] at h
    by_cases hascii : first < 128
    · rw [if_pos hascii] at h
      cases h
      have hsmall : first.toNat < 0x80 := UInt8.lt_iff_toNat_lt.mp hascii
      exact ⟨[first], rfl, .one hsmall, .inl (by omega)⟩
    · have hjunk : first < 0xc0 := by
        rw [UInt8.lt_iff_toNat_lt]
        exact Nat.not_le.mp hlead
      rw [if_neg hascii, if_pos hjunk] at h
      exact absurd (Prod.mk.inj h).1.symm hv

/-! ## `websocket_valid_utf8` -/

theorem validUtf8From_follower {low high : UInt8} (hlow : low.toNat ≤ byte.toNat)
    (hhigh : byte.toNat ≤ high.toNat) (rest : Bytes) :
    validUtf8From ((low, high) :: followers) (byte :: rest) = validUtf8From followers rest := by
  rw [validUtf8From, decide_eq_true (UInt8.le_iff_toNat_le.mpr hlow),
    decide_eq_true (UInt8.le_iff_toNat_le.mpr hhigh)]
  rfl

theorem validUtf8From_followers {low high : UInt8}
    (h : validUtf8From ((low, high) :: followers) str = true) :
    ∃ byte rest, str = byte :: rest ∧ low.toNat ≤ byte.toNat ∧ byte.toNat ≤ high.toNat ∧
      validUtf8From followers rest = true := by
  match str with
  | [] => cases h
  | byte :: rest =>
      rw [validUtf8From, Bool.and_eq_true, Bool.and_eq_true, decide_eq_true_eq,
        decide_eq_true_eq, UInt8.le_iff_toNat_le, UInt8.le_iff_toNat_le] at h
      exact ⟨byte, rest, rfl, h.1.1, h.1.2, h.2⟩

theorem validUtf8From_tail (h : Tail byte) (followers : List (UInt8 × UInt8)) (rest : Bytes) :
    validUtf8From ((0x80, 0xbf) :: followers) (byte :: rest) = validUtf8From followers rest := by
  refine validUtf8From_follower ?_ ?_ rest
  · exact h.1
  · exact Nat.le_of_lt_succ h.2

theorem validUtf8From_tails (h : validUtf8From ((0x80, 0xbf) :: followers) str = true) :
    ∃ byte rest, str = byte :: rest ∧ Tail byte ∧ validUtf8From followers rest = true := by
  obtain ⟨byte, rest, hstr, hlow, hhigh, h⟩ := validUtf8From_followers h
  exact ⟨byte, rest, hstr, ⟨hlow, Nat.lt_succ_of_le hhigh⟩, h⟩

def lowAfter (first : UInt8) : UInt8 :=
  if first.toNat = 0xe0 then 0xa0 else if first.toNat = 0xf0 then 0x90 else 0x80

def highAfter (first : UInt8) : UInt8 :=
  if first.toNat = 0xed then 0x9f else if first.toNat = 0xf4 then 0x8f else 0xbf

/-- The narrower ranges are what keeps off overlong forms, surrogates and what lies above. -/
theorem second_iff (first byte : UInt8) :
    ((lowAfter first).toNat ≤ byte.toNat ∧ byte.toNat ≤ (highAfter first).toNat) ↔
      Tail byte ∧ (first.toNat = 0xe0 → 0xa0 ≤ byte.toNat) ∧
        (first.toNat = 0xf0 → 0x90 ≤ byte.toNat) ∧ (first.toNat = 0xed → byte.toNat ≤ 0x9f) ∧
        (first.toNat = 0xf4 → byte.toNat ≤ 0x8f) := by
  have hlow : (lowAfter first).toNat =
      if first.toNat = 0xe0 then 0xa0 else if first.toNat = 0xf0 then 0x90 else 0x80 := by
    unfold lowAfter
    split_ifs <;> rfl
  have hhigh : (highAfter first).toNat =
      if first.toNat = 0xed then 0x9f else if first.toNat = 0xf4 then 0x8f else 0xbf := by
    unfold highAfter
    split_ifs <;> rfl
  rw [hlow, hhigh]
  unfold Tail
  split_ifs <;> omega

theorem utf8Followers_eq : ∀ first : UInt8, utf8Followers first =
    if first.toNat < 0x80 then some []
    else if first.toNat < 0xc2 then none
    else if first.toNat < 0xe0 then some [(0x80, 0xbf)]
    else if first.toNat < 0xf0 then some [(lowAfter first, highAfter first), (0x80, 0xbf)]
    else if first.toNat < 0xf5 then
      some [(lowAfter first, highAfter first), (0x80, 0xbf), (0x80, 0xbf)]
    else none := by
  apply byte_forall
  decide +kernel

theorem validUtf8From_first (h : utf8Followers first = some followers) (rest : Bytes) :
    validUtf8From [] (first :: rest) = validUtf8From followers rest := by
  rw [validUtf8From, h]

theorem validUtf8From_scalar (h : Scalar v bytes) (rest : Bytes) :
    validUtf8From [] (bytes ++ rest) = validUtf8From [] rest := by
  have hvalid := h.valid
  unfold Nat.isValidChar at hvalid
  cases h.spells with
  | @one a ha =>
      have hfirst : utf8Followers a = some [] := by rw [utf8Followers_eq, if_pos ha]
      rw [List.singleton_append, validUtf8From_first hfirst]
  | @two a b _ ha hb hv hmin =>
      have hfirst : utf8Followers a = some [(0x80, 0xbf)] := by
        unfold Tail at hb
        rw [utf8Followers_eq, if_neg (by omega), if_neg (by omega), if_pos ha.2]
      rw [List.cons_append, validUtf8From_first hfirst]
      exact validUtf8From_tail hb _ rest
  | @three a b c _ ha hb hc hv hmin =>
      have hfirst : utf8Followers a = some [(lowAfter a, highAfter a), (0x80, 0xbf)] := by
        rw [utf8Followers_eq, if_neg (by omega), if_neg (by omega), if_neg (by omega), if_pos ha.2]
      have hsecond : (lowAfter a).toNat ≤ b.toNat ∧ b.toNat ≤ (highAfter a).toNat := by
        rw [second_iff]
        unfold Tail at *
        omega
      rw [List.cons_append, validUtf8From_first hfirst, List.cons_append,
        validUtf8From_follower hsecond.1 hsecond.2]
      exact validUtf8From_tail hc _ rest
  | @four a b c d _ ha hb hc hd hv hmin =>
      have hfirst : utf8Followers a =
          some [(lowAfter a, highAfter a), (0x80, 0xbf), (0x80, 0xbf)] := by
        unfold Tail at hb
        rw [utf8Followers_eq, if_neg (by omega), if_neg (by omega), if_neg (by omega),
          if_neg (by omega), if_pos (by omega)]
      have hsecond : (lowAfter a).toNat ≤ b.toNat ∧ b.toNat ≤ (highAfter a).toNat := by
        rw [second_iff]
        unfold Tail at *
        omega
      rw [List.cons_append, validUtf8From_first hfirst, List.cons_append,
        validUtf8From_follower hsecond.1 hsecond.2, List.cons_append, validUtf8From_tail hc]
      exact validUtf8From_tail hd _ rest

theorem scalar_of_valid (h : validUtf8From [] (first :: str) = true) :
    ∃ v bytes rest, first :: str = bytes ++ rest ∧ Scalar v bytes ∧
      validUtf8From [] rest = true := by
  cases hfirst : utf8Followers first with
  | none =>
      rw [validUtf8From, hfirst] at h
      cases h
  | some followers =>
      rw [validUtf8From_first hfirst] at h
      rw [utf8Followers_eq] at hfirst
      split_ifs at hfirst with hone htwo' htwo hthree hfour
      · cases hfirst
        exact ⟨first.toNat, [first], str, rfl, ⟨.one hone, .inl (by omega)⟩, h⟩
      · cases hfirst
        obtain ⟨b, rest, rfl, hb, h⟩ := validUtf8From_tails h
        refine ⟨_, [first, b], rest, rfl, ⟨.two ⟨by omega, htwo⟩ hb rfl (by omega), ?_⟩, h⟩
        unfold Tail at hb
        unfold Nat.isValidChar
        omega
      · cases hfirst
        obtain ⟨b, rest, rfl, hlow, hhigh, h⟩ := validUtf8From_followers h
        obtain ⟨c, rest, rfl, hc, h⟩ := validUtf8From_tails h
        obtain ⟨hb, he0, -, hed, -⟩ := (second_iff first b).mp ⟨hlow, hhigh⟩
        refine ⟨_, [first, b, c], rest, rfl, ⟨.three ⟨by omega, hthree⟩ hb hc rfl ?_, ?_⟩, h⟩
        · unfold Tail at hb hc
          omega
        · unfold Tail at hb hc
          unfold Nat.isValidChar
          omega
      · cases hfirst
        obtain ⟨b, rest, rfl, hlow, hhigh, h⟩ := validUtf8From_followers h
        obtain ⟨c, rest, rfl, hc, h⟩ := validUtf8From_tails h
        obtain ⟨d, rest, rfl, hd, h⟩ := validUtf8From_tails h
        obtain ⟨hb, -, hf0, -, hf4⟩ := (second_iff first b).mp ⟨hlow, hhigh⟩
        refine ⟨_, [first, b, c, d], rest, rfl,
          ⟨.four ⟨by omega, by omega⟩ hb hc hd rfl ?_, ?_⟩, h⟩
        · unfold Tail at hb hc hd
          omega
        · unfold Tail at hb hc hd
          unfold Nat.isValidChar
          omega

/-! ## Strings -/

def WellFormed (data : Bytes) : Prop :=
  ∃ chars : List Char, data = chars.flatMap String.utf8EncodeChar

theorem WellFormed.cons (h : Scalar v bytes) (hrest : WellFormed rest) :
    WellFormed (bytes ++ rest) := by
  obtain ⟨c, rfl⟩ := h.exists_char
  obtain ⟨chars, rfl⟩ := hrest
  exact ⟨c :: chars, rfl⟩

theorem Scalar.length_pos (h : Scalar v bytes) : 0 < bytes.length :=
  List.length_pos_iff.mpr h.spells.ne_nil

theorem websocketValidUtf8_iff (data : Bytes) :
    websocketValidUtf8 data = true ↔ WellFormed data := by
  constructor
  · -- a character at a time, by the bytes left
    induction hlength : data.length using Nat.strongRecOn generalizing data with
    | _ length ih =>
        intro h
        match data with
        | [] => exact ⟨[], rfl⟩
        | first :: str =>
            obtain ⟨v, bytes, rest, hsplit, hscalar, hrest⟩ := scalar_of_valid h
            rw [hsplit]
            refine WellFormed.cons hscalar (ih rest.length ?_ rest rfl hrest)
            have hpos := hscalar.length_pos
            rw [← hlength, hsplit, List.length_append]
            omega
  · rintro ⟨chars, rfl⟩
    induction chars with
    | nil => rfl
    | cons c chars ih =>
        rw [websocketValidUtf8, List.flatMap_cons, validUtf8From_scalar (scalar_char c)]
        exact ih

theorem decodeUtf8_scalar (h : Scalar v bytes) (hzero : v ≠ 0) (rest : Bytes) :
    decodeUtf8 (bytes ++ rest) = v :: decodeUtf8 rest := by
  have hread := getUtf8_scalar h hzero rest
  match hbytes : bytes ++ rest with
  | [] => exact absurd (List.append_eq_nil_iff.mp hbytes).1 h.spells.ne_nil
  | first :: str =>
      rw [hbytes] at hread
      have hfirst : first ≠ 0 := by
        rintro rfl
        rw [getUtf8, if_pos rfl] at hread
        exact hzero (Prod.mk.inj hread).1.symm
      rw [decodeUtf8, dif_neg hfirst, hread]

theorem decodeUtf8_chars {chars : List Char}
    (hzero : (0 : UInt8) ∉ chars.flatMap String.utf8EncodeChar) :
    decodeUtf8 (chars.flatMap String.utf8EncodeChar) = chars.map fun c => c.val.toNat := by
  induction chars with
  | nil => rw [List.flatMap_nil, decodeUtf8, List.map_nil]
  | cons c chars ih =>
      rw [List.flatMap_cons, List.mem_append, not_or] at hzero
      have hne : c.val.toNat ≠ 0 := by
        intro hval
        refine hzero.1 ?_
        rw [encode_char, hval]
        exact List.mem_singleton.mpr rfl
      rw [List.flatMap_cons, decodeUtf8_scalar (scalar_char c) hne, ih hzero.2, List.map_cons]

theorem wellFormed_of_decodeUtf8 (data : Bytes) (hzero : (0 : UInt8) ∉ data)
    (h : uniBad ∉ decodeUtf8 data) : WellFormed data := by
  induction hlength : data.length using Nat.strongRecOn generalizing data with
  | _ length ih =>
      match data with
      | [] => exact ⟨[], rfl⟩
      | first :: str =>
          have hfirst : first ≠ 0 := fun heq => hzero (heq ▸ List.mem_cons_self ..)
          rw [decodeUtf8, dif_neg hfirst, List.mem_cons, not_or] at h
          obtain ⟨bytes, hsplit, hscalar⟩ := scalar_of_getUtf8 hfirst rfl (Ne.symm h.1)
          rw [hsplit] at hzero hlength ⊢
          have hpos := hscalar.length_pos
          rw [List.length_append] at hlength
          exact WellFormed.cons hscalar (ih _ (by omega) _
            (fun hmem => hzero (List.mem_append_right _ hmem)) h.2 rfl)

/-! ## `put_utf8` -/

/-! The bits a first byte or a tail adds are clear in what it is added to. -/

theorem or_two : ∀ n < 0x20, n ||| 0xc0 = n + 0xc0 := by decide

theorem or_three : ∀ n < 0x10, n ||| 0xe0 = n + 0xe0 := by decide

theorem or_four : ∀ n < 0x08, n ||| 0xf0 = n + 0xf0 := by decide

theorem or_tail (n : Nat) : (n &&& 0x3f) ||| 0x80 = n % 0x40 + 0x80 := by
  have hall : ∀ low < 0x40, low ||| 0x80 = low + 0x80 := by decide
  rw [show n &&& 0x3f = n % 0x40 from Nat.and_two_pow_sub_one_eq_mod n 6]
  exact hall _ (Nat.mod_lt _ (by decide))

theorem putUtf8_scalar (h : Scalar v bytes) : putUtf8 (BitVec.ofNat 32 v) = bytes := by
  have hvalid := h.valid
  unfold Nat.isValidChar at hvalid
  have hv : (BitVec.ofNat 32 v).toNat = v := by
    rw [BitVec.toNat_ofNat]
    omega
  rw [(spells_iff.mp h.spells).2]
  unfold putUtf8 encode
  simp only [hv, or_tail, Nat.shiftRight_eq_div_pow]
  by_cases hone : v ≤ 0x7f
  · rw [if_pos (by omega), if_pos hone]
  · rw [if_neg (by omega), if_neg hone]
    by_cases htwo : v ≤ 0x7ff
    · rw [if_pos (by omega), if_pos htwo, or_two _ (by omega)]
      rw [show v / 64 % 0x20 = v / 2 ^ 6 by omega]
    · rw [if_neg (by omega), if_neg htwo, if_neg (by omega)]
      by_cases hthree : v ≤ 0xffff
      · rw [if_pos (by omega), if_pos hthree, or_three _ (by omega)]
        rw [show v / 4096 % 0x10 = v / 2 ^ 12 by omega]
      · rw [if_neg (by omega), if_pos (by omega), if_neg hthree, or_four _ (by omega)]
        rw [show v / 262144 % 0x08 = v / 2 ^ 18 by omega]

/-! ## The walk -/

theorem validUtf8From_short : ∀ (followers : List (UInt8 × UInt8)) (str : Bytes),
    str.length < followers.length → validUtf8From followers str = false := by
  intro followers
  induction followers with
  | nil => exact fun str h => absurd h (Nat.not_lt_zero _)
  | cons range followers ih =>
      intro str h
      obtain ⟨low, high⟩ := range
      match str with
      | [] => rfl
      | byte :: str =>
          rw [validUtf8From, ih str (by simpa using h), Bool.and_false]

theorem readInRanges_eq (data : Bytes) : ∀ (followers : List (UInt8 × UInt8)) (index : Nat),
    index + followers.length ≤ data.length →
    ∃ answer, readInRanges data index followers = some answer ∧
      validUtf8From followers (data.drop index) =
        (answer && validUtf8From [] (data.drop (index + followers.length))) := by
  intro followers
  induction followers with
  | nil => exact fun index _ => ⟨true, rfl, rfl⟩
  | cons range followers ih =>
      intro index h
      obtain ⟨low, high⟩ := range
      rw [List.length_cons] at h
      have hindex : index < data.length := by omega
      obtain ⟨answer, hread, hrest⟩ := ih (index + 1) (by omega)
      rw [readInRanges, List.getElem?_eq_getElem hindex, List.drop_eq_getElem_cons hindex,
        validUtf8From, hrest, List.length_cons]
      dsimp only
      split
      · next hout =>
          refine ⟨false, rfl, ?_⟩
          rcases hout with hlow | hhigh
          · rw [decide_eq_false (UInt8.not_le.mpr hlow)]
            rfl
          · rw [decide_eq_false (UInt8.not_le.mpr hhigh), Bool.and_false]
            rfl
      · next hin =>
          rw [not_or, UInt8.not_lt, UInt8.not_lt] at hin
          refine ⟨answer, hread, ?_⟩
          rw [decide_eq_true hin.1, decide_eq_true hin.2, Nat.add_right_comm, Nat.add_assoc]
          rfl

theorem validUtf8Walk_eq (data : Bytes) (index : Nat) :
    validUtf8Walk data index = some (validUtf8From [] (data.drop index)) := by
  induction hleft : data.length - index using Nat.strongRecOn generalizing index with
  | _ left ih =>
      rw [validUtf8Walk]
      by_cases hend : data.length ≤ index
      · rw [dif_pos hend, List.drop_eq_nil_of_le hend]
        rfl
      · have hindex := Nat.not_le.mp hend
        rw [dif_neg hend, List.getElem?_eq_getElem hindex, List.drop_eq_getElem_cons hindex,
          validUtf8From]
        dsimp only
        cases utf8Followers data[index] with
        | none => rfl
        | some followers =>
            dsimp only
            split
            · next hshort =>
                rw [validUtf8From_short followers]
                rw [List.length_drop]
                omega
            · next hroom =>
                obtain ⟨answer, hread, hranges⟩ :=
                  readInRanges_eq data followers (index + 1) (Nat.not_lt.mp hroom)
                rw [hread, hranges]
                cases answer with
                | false => rfl
                | true => exact ih _ (by omega) _ rfl

/-! ## The three together -/

theorem uniBad_encoded {chars : List Char} (h : uniBad ∈ chars.map fun c => c.val.toNat) :
    [0xef, 0xbf, 0xbd] <:+: chars.flatMap String.utf8EncodeChar := by
  obtain ⟨c, hmem, hval⟩ := List.mem_map.mp h
  obtain ⟨before, after, rfl⟩ := List.append_of_mem hmem
  refine ⟨before.flatMap String.utf8EncodeChar, after.flatMap String.utf8EncodeChar, ?_⟩
  rw [List.flatMap_append, List.flatMap_cons, encode_char c, hval, List.append_assoc]
  rfl

/-- The checker walks inside its buffer and accepts the well-formed strings. Of strings
without a zero byte and without an encoded U+FFFD these are the ones `get_utf8` finds no
junk in, and what it makes of them `put_utf8` writes back. -/
theorem utf8_agree (data : Bytes) :
    validUtf8Walk data 0 = some (websocketValidUtf8 data) ∧
      (websocketValidUtf8 data = true ↔
        ∃ chars : List Char, data = chars.flatMap String.utf8EncodeChar) ∧
      ((0 : UInt8) ∉ data → ¬ [0xef, 0xbf, 0xbd] <:+: data →
        (websocketValidUtf8 data = true ↔ uniBad ∉ decodeUtf8 data) ∧
        (websocketValidUtf8 data = true →
          (decodeUtf8 data).flatMap (fun v => putUtf8 (BitVec.ofNat 32 v)) = data)) := by
  refine ⟨validUtf8Walk_eq data 0, websocketValidUtf8_iff data, fun hzero hbad => ⟨?_, ?_⟩⟩
  · rw [websocketValidUtf8_iff]
    constructor
    · rintro ⟨chars, rfl⟩ hmem
      rw [decodeUtf8_chars hzero] at hmem
      exact hbad (uniBad_encoded hmem)
    · exact wellFormed_of_decodeUtf8 data hzero
  · rw [websocketValidUtf8_iff]
    rintro ⟨chars, rfl⟩
    rw [decodeUtf8_chars hzero, List.flatMap_map]
    exact List.flatMap_congr fun c _ => putUtf8_scalar (scalar_char c)

/-- An e with an acute accent, by all of them. -/
theorem utf8_agree_acute :
    websocketValidUtf8 [0xc3, 0xa9] = true ∧ uniBad ∉ decodeUtf8 [0xc3, 0xa9] ∧
      (decodeUtf8 [0xc3, 0xa9]).flatMap (fun v => putUtf8 (BitVec.ofNat 32 v)) = [0xc3, 0xa9] := by
  have hvalid : websocketValidUtf8 [0xc3, 0xa9] = true := by decide
  obtain ⟨hagree, hwritten⟩ := (utf8_agree [0xc3, 0xa9]).2.2 (by decide) (by decide)
  exact ⟨hvalid, hagree.mp hvalid, hwritten hvalid⟩

end Duris.Net
