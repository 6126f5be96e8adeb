import Duris.Player.SnapshotCodec

/-!
# The snapshot format reads back

Encoder and decoder are two traversals over some thirty sections. `Reads` ties a
decoder to an encoder: the decoder succeeds with a value exactly on the inputs
that begin with that value's encoding, and its two counters grow by what the
value contains. It is an equivalence, so it says that the format round-trips and
that it is canonical at once, and it composes along `>>=` one field at a time
(`Reads.bind`): the continuation has to be related to the encoding under the
hypothesis that the field read is the field the value has.
-/

namespace Duris.Player

open Duris.Persistence (CriticalOperationId)

variable {st st' : DecoderState}

theorem DecoderState.ext_of {a b : DecoderState} (hinput : a.input = b.input)
    (hrows : a.rows = b.rows) (hobjects : a.objects = b.objects) : a = b := by
  cases a; cases b; cases hinput; cases hrows; cases hobjects; rfl

/-- `q` reads exactly the encodings of the values that meet `C`, and counts `rows`
and `objects`; and no encoding is the start of another. -/
structure Reads {β : Type} (q : Decoder β) (C : β → Prop) (enc : β → Encoder)
    (rows objects : β → Nat) : Prop where
  iff : ∀ st b st', q st = .ok (b, st') ↔
    C b ∧ (enc b).valid = true ∧ st.input = (enc b).bytes ++ st'.input ∧
      st'.rows = st.rows + rows b ∧ st'.objects = st.objects + objects b
  unique : ∀ {b b' : β} {r r' : Bytes}, C b → C b' → (enc b).valid = true →
    (enc b').valid = true → (enc b).bytes ++ r = (enc b').bytes ++ r' → b = b' ∧ r = r'

variable {α β : Type}

theorem decoder_bind_eq_ok {p : Decoder α} {f : α → Decoder β} {b : β} :
    (p >>= f) st = .ok (b, st') ↔
      ∃ a mid, p st = .ok (a, mid) ∧ f a mid = .ok (b, st') := by
  show (Except.bind (p st) fun r => f r.1 r.2) = _ ↔ _
  cases hp : p st with
  | error e => simp [Except.bind]
  | ok r =>
      obtain ⟨a, mid⟩ := r
      simp [Except.bind]

theorem decoder_pure_eq_ok {a b : α} :
    (pure a : Decoder α) st = .ok (b, st') ↔ a = b ∧ st = st' := by
  show Except.ok (a, st) = .ok (b, st') ↔ _
  simp

namespace Encoder

@[simp] theorem append_bytes (a b : Encoder) : (a ++ b).bytes = a.bytes ++ b.bytes := rfl

@[simp] theorem append_valid (a b : Encoder) : (a ++ b).valid = (a.valid && b.valid) := rfl

@[simp] theorem all_nil : all [] = {} := rfl

@[simp] theorem all_cons (a : Encoder) (parts : List Encoder) :
    all (a :: parts) = a ++ all parts := rfl

end Encoder

open Encoder

variable {C : β → Prop} {p read : Decoder α} {f : α → Decoder β} {P : α → Prop} {encP : α → Encoder}
  {rP : α → Nat} {g : β → α} {rest : β → List Encoder} {r o : β → Nat} {q : Decoder β}
  {enc : β → Encoder} {wireVersion : BitVec 32} {s : PlayerSnapshot}

/-- The end of a decoder: every field has been read, so the value is the one the
conditions collected so far describe. -/
theorem Reads.pure {a : β} (hC : ∀ b, C b ↔ a = b) :
    Reads (pure a) C (fun _ => all []) (fun _ => 0) (fun _ => 0) := by
  constructor
  · intro st b st'
    rw [decoder_pure_eq_ok, hC]
    refine and_congr_right fun _ => ?_
    constructor
    · rintro rfl; simp
    · rintro ⟨-, hinput, hrows, hobjects⟩
      exact DecoderState.ext_of (by simpa using hinput) (by simpa using hrows.symm)
        (by simpa using hobjects.symm)
  · intro b b' r r' hb hb' _ _ hbytes
    exact ⟨((hC b).mp hb).symm.trans ((hC b').mp hb'), hbytes⟩

theorem Reads.bind {oP : α → Nat} (hp : Reads p P encP rP oP)
    (hf : ∀ a, P a → Reads (f a) (fun b => C b ∧ g b = a) (fun b => all (rest b)) r o)
    (hC : ∀ b, C b → P (g b)) :
    Reads (p >>= f) C (fun b => all (encP (g b) :: rest b)) (fun b => rP (g b) + r b)
      (fun b => oP (g b) + o b) := by
  constructor
  · intro st b st'
    simp only [decoder_bind_eq_ok, all_cons, append_valid, append_bytes, Bool.and_eq_true]
    constructor
    · rintro ⟨a, mid, hread, hnext⟩
      obtain ⟨hPa, hvalid, hinput, hrows, hobjects⟩ := (hp.iff st a mid).mp hread
      obtain ⟨⟨hCb, rfl⟩, hvalid', hinput', hrows', hobjects'⟩ :=
        ((hf a hPa).iff mid b st').mp hnext
      exact ⟨hCb, ⟨hvalid, hvalid'⟩, by rw [hinput, hinput', List.append_assoc], by omega,
        by omega⟩
    · rintro ⟨hCb, ⟨hvalid, hvalid'⟩, hinput, hrows, hobjects⟩
      have hrows_le := st'.rows_le
      have hobjects_le := st'.objects_le
      -- the state between the field and the rest has to be built within its limits
      refine ⟨g b, ⟨(all (rest b)).bytes ++ st'.input, st.rows + rP (g b),
        st.objects + oP (g b), by omega, by omega⟩, ?_, ?_⟩
      · exact (hp.iff _ _ _).mpr
          ⟨hC b hCb, hvalid, by rw [hinput, List.append_assoc], rfl, rfl⟩
      · exact ((hf (g b) (hC b hCb)).iff _ _ _).mpr
          ⟨⟨hCb, rfl⟩, hvalid', rfl, by rw [hrows]; exact (Nat.add_assoc _ _ _).symm,
            by rw [hobjects]; exact (Nat.add_assoc _ _ _).symm⟩
  · intro b b' r r' hb hb' hvalid hvalid' hbytes
    simp only [all_cons, append_valid, append_bytes, Bool.and_eq_true, List.append_assoc]
      at hvalid hvalid' hbytes
    obtain ⟨hg, hrest⟩ := hp.unique (hC b hb) (hC b' hb') hvalid.1 hvalid'.1 hbytes
    exact (hf (g b) (hC b hb)).unique ⟨hb, rfl⟩ ⟨hb', hg.symm⟩ hvalid.2 hvalid'.2 hrest

theorem Reads.fieldOf (hp : Reads p P encP (fun _ => 0) (fun _ => 0))
    (hf : ∀ a, P a → Reads (f a) (fun b => C b ∧ g b = a) (fun b => all (rest b)) r o)
    (hC : ∀ b, C b → P (g b)) : Reads (p >>= f) C (fun b => all (encP (g b) :: rest b)) r o := by
  have h := Reads.bind hp hf hC
  simpa only [Nat.zero_add] using h

theorem Reads.field (hp : Reads p (fun _ => True) encP (fun _ => 0) (fun _ => 0))
    (hf : ∀ a, Reads (f a) (fun b => C b ∧ g b = a) (fun b => all (rest b)) r o) :
    Reads (p >>= f) C (fun b => all (encP (g b) :: rest b)) r o :=
  hp.fieldOf (fun a _ => hf a) fun _ _ => trivial

theorem Reads.check {c : Prop} [Decidable c] {failure : CodecFailure} (hC : ∀ b, C b → c)
    (hq : c → Reads q C enc r o) : Reads (Decoder.check c failure >>= fun _ => q) C enc r o := by
  constructor
  · intro st b st'
    rw [decoder_bind_eq_ok]
    constructor
    · rintro ⟨_, mid, hcheck, hnext⟩
      unfold Decoder.check at hcheck
      split at hcheck
      · next hc =>
          cases hcheck
          exact ((hq hc).iff _ b st').mp hnext
      · cases hcheck
    · intro h
      have hc := hC b h.1
      exact ⟨(), st, if_pos hc, ((hq hc).iff st b st').mpr h⟩
  · intro b b' r r' hb
    exact (hq (hC b hb)).unique hb

theorem Reads.congr {C' : β → Prop} {enc' : β → Encoder} {r' o' : β → Nat} (h : Reads q C enc r o)
    (hC : ∀ b, (C b ∧ (enc b).valid = true) ↔ (C' b ∧ (enc' b).valid = true))
    (hbytes : ∀ b, (enc' b).valid = true → (enc b).bytes = (enc' b).bytes) (hr : ∀ b, r b = r' b)
    (ho : ∀ b, o b = o' b) : Reads q C' enc' r' o' := by
  constructor
  · intro st b st'
    rw [h.iff st b st', ← and_assoc, hC b, and_assoc, hr b, ho b]
    refine and_congr_right fun _ => and_congr_right fun hvalid => ?_
    rw [hbytes b hvalid]
  · intro b b' s s' hb hb' hvalid hvalid' heq
    obtain ⟨hCb, hv⟩ := (hC b).mpr ⟨hb, hvalid⟩
    obtain ⟨hCb', hv'⟩ := (hC b').mpr ⟨hb', hvalid'⟩
    rw [← hbytes b hvalid, ← hbytes b' hvalid'] at heq
    exact h.unique hCb hCb' hv hv' heq

/-- `Reads.congr` where the encoding agrees only on the values that are read. -/
theorem Reads.congr' {enc' : β → Encoder} {r' o' : β → Nat} (h : Reads q C enc r o)
    (hC : ∀ b, C b → (enc b).valid = (enc' b).valid ∧ (enc b).bytes = (enc' b).bytes ∧
      r b = r' b ∧ o b = o' b) : Reads q C enc' r' o' := by
  constructor
  · intro st b st'
    rw [h.iff st b st']
    refine and_congr_right fun hb => ?_
    obtain ⟨hvalid, hbytes, hr, ho⟩ := hC b hb
    rw [hvalid, hbytes, hr, ho]
  · intro b b' s s' hb hb' hvalid hvalid' heq
    obtain ⟨hv, hbytes, -⟩ := hC b hb
    obtain ⟨hv', hbytes', -⟩ := hC b' hb'
    rw [← hbytes, ← hbytes'] at heq
    exact h.unique hb hb' (hv.trans hvalid) (hv'.trans hvalid') heq

theorem Reads.checked {c : β → Prop} [DecidablePred c] {failure : CodecFailure}
    (h : Reads q C enc r o) :
    Reads (do let b ← q; Decoder.check (c b) failure; return b) (fun b => C b ∧ c b) enc r o := by
  constructor
  · intro st b st'
    simp only [decoder_bind_eq_ok, decoder_pure_eq_ok, h.iff st]
    constructor
    · rintro ⟨_, mid, hread, _, _, hcheck, rfl, rfl⟩
      unfold Decoder.check at hcheck
      split at hcheck
      · next hc =>
          cases hcheck
          exact ⟨⟨hread.1, hc⟩, hread.2⟩
      · cases hcheck
    · rintro ⟨⟨hb, hc⟩, hrest⟩
      exact ⟨b, st', ⟨hb, hrest⟩, (), st', if_pos hc, rfl, rfl⟩
  · intro b b' s s' hb hb'
    exact h.unique hb.1 hb'.1

theorem Reads.single : Reads q C (fun b => all [enc b]) r o ↔ Reads q C enc r o := by
  have hvalid : ∀ b, (all [enc b]).valid = (enc b).valid := by simp
  have hbytes : ∀ b, (all [enc b]).bytes = (enc b).bytes := by simp
  constructor
  · intro h
    exact h.congr (fun b => by rw [hvalid]) (fun b _ => hbytes b) (fun _ => rfl) fun _ => rfl
  · intro h
    exact h.congr (fun b => by rw [hvalid]) (fun b _ => (hbytes b).symm) (fun _ => rfl)
      fun _ => rfl

/-! ## The primitive reads -/

theorem reads_number {n : Nat} [Octets n] :
    Reads (Decoder.number n) (fun _ => True) number (fun _ => 0) (fun _ => 0) := by
  constructor
  · intro st x st'
    unfold Decoder.number
    constructor
    · intro h
      split at h
      · cases h
      · next y rest hread =>
          cases h
          exact ⟨trivial, rfl, readLe_eq_some.mp hread, rfl, rfl⟩
    · rintro ⟨-, -, hinput, hrows, hobjects⟩
      rw [readLe_eq_some.mpr hinput]
      exact congrArg (fun s => Except.ok (x, s))
        (DecoderState.ext_of rfl hrows.symm hobjects.symm)
  · intro x x' r r' _ _ _ _ hbytes
    have hread := readLe_eq_some.mpr hbytes
    rw [number, readLe_append] at hread
    simpa using hread

theorem Reads.scalar {n : Nat} {f : BitVec n → Decoder β} {g : β → BitVec n} [Octets n]
    (hf : ∀ a, Reads (f a) (fun b => C b ∧ g b = a) (fun b => all (rest b)) r o) :
    Reads (Decoder.number n >>= f) C (fun b => all (number (g b) :: rest b)) r o :=
  Reads.field reads_number hf

theorem reads_raw (n : Nat) :
    Reads (Decoder.raw n) (fun _ => True) (fun bs => { bytes := bs.1 }) (fun _ => 0)
      (fun _ => 0) := by
  constructor
  · intro st bs st'
    unfold Decoder.raw
    constructor
    · intro h
      split at h
      · cases h
        exact ⟨trivial, rfl, (List.take_append_drop n st.input).symm, rfl, rfl⟩
      · cases h
    · rintro ⟨-, -, hinput, hrows, hobjects⟩
      have htake : st.input.take n = bs.1 := by rw [hinput]; exact List.take_left' bs.2
      have hdrop : st.input.drop n = st'.input := by
        rw [hinput]; exact List.drop_left' bs.2
      rw [dif_pos (by rw [htake]; exact bs.2)]
      refine congrArg Except.ok (Prod.ext (Subtype.ext htake) ?_)
      exact DecoderState.ext_of hdrop hrows.symm hobjects.symm
  · intro bs bs' r r' _ _ _ _ hbytes
    obtain ⟨hbs, hr⟩ := List.append_inj hbytes (bs.2.trans bs'.2.symm)
    exact ⟨Subtype.ext hbs, hr⟩

theorem reads_operation :
    Reads Decoder.operation (fun _ => True) operation (fun _ => 0) (fun _ => 0) := by
  refine Reads.single.mp ?_
  refine Reads.field (g := fun id : CriticalOperationId => ⟨id.bytes, id.size_eq⟩)
    (reads_raw 16) fun bytes => Reads.pure fun id => ?_
  constructor
  · rintro ⟨-, rfl⟩; rfl
  · rintro rfl; exact ⟨trivial, rfl⟩

theorem reads_boolean :
    Reads Decoder.boolean (fun _ => True) boolean (fun _ => 0) (fun _ => 0) := by
  refine Reads.single.mp ?_
  refine Reads.field (g := fun b : Bool => if b then 1#8 else 0#8)
    reads_number fun encoded => Reads.check ?_ fun hle => Reads.pure ?_
  · rintro b ⟨-, rfl⟩
    cases b <;> decide
  · intro b
    constructor
    · rintro ⟨-, rfl⟩; cases b <;> rfl
    · rintro rfl
      obtain rfl | rfl : encoded = 0 ∨ encoded = 1 := by bv_omega
      · exact ⟨trivial, rfl⟩
      · exact ⟨trivial, rfl⟩

theorem reads_enumerator {n k : Nat} [Octets n] (hk : k ≤ 2 ^ n) :
    Reads (Decoder.enumerator n k) (fun _ => True) (enumerator n) (fun _ => 0)
      (fun _ => 0) := by
  have hcast : ∀ value : Fin k, (BitVec.ofNat n value).toNat = value := fun value => by
    rw [BitVec.toNat_ofNat]
    exact Nat.mod_eq_of_lt (by omega)
  refine Reads.single.mp ?_
  refine Reads.field (g := fun value : Fin k => BitVec.ofNat n value) reads_number
    fun value => ?_
  by_cases h : value.toNat < k
  · rw [dif_pos h]
    refine Reads.pure fun b => ?_
    constructor
    · rintro ⟨-, rfl⟩; exact Fin.ext (hcast b)
    · rintro rfl; exact ⟨trivial, by simp⟩
  · -- not an enumerator, so no value has it
    rw [dif_neg h]
    have hno : ∀ b : Fin k, ¬ (True ∧ BitVec.ofNat n b = value) := by
      rintro b ⟨-, rfl⟩
      exact h (by rw [hcast]; exact b.isLt)
    constructor
    · intro st b st'
      constructor
      · intro hfail; cases hfail
      · intro hb; exact absurd hb.1 (hno b)
    · intro b b' r r' hb
      exact absurd hb (hno b)

theorem reads_bytes (n : Nat) :
    Reads (do let bs ← Decoder.raw n; return bs.1) (fun bs => bs.length = n)
      (fun bs => { bytes := bs }) (fun _ => 0) (fun _ => 0) := by
  constructor
  · intro st bs st'
    simp only [decoder_bind_eq_ok, decoder_pure_eq_ok, (reads_raw n).iff st]
    constructor
    · rintro ⟨raw, _, ⟨-, hvalid, hinput, hrows, hobjects⟩, rfl, rfl⟩
      exact ⟨raw.2, hvalid, hinput, hrows, hobjects⟩
    · rintro ⟨hlen, h⟩
      exact ⟨⟨bs, hlen⟩, st', ⟨trivial, h⟩, rfl, rfl⟩
  · intro bs bs' r r' hlen hlen' _ _ hbytes
    exact List.append_inj hbytes (hlen.trans hlen'.symm)

theorem reads_string {maximum : Nat} (hmax : maximum < 2 ^ 32) :
    Reads (Decoder.string maximum) (fun _ => True) (string maximum) (fun _ => 0)
      (fun _ => 0) := by
  have h : Reads (Decoder.string maximum) (fun bs => bs.length ≤ maximum)
      (fun bs => all [number (BitVec.ofNat 32 bs.length), { bytes := bs }])
      (fun _ => 0) (fun _ => 0) := by
    refine Reads.scalar fun length => Reads.check ?_ fun hle => ?_
    · rintro bs ⟨hbs, rfl⟩
      rw [toNat_ofNat_of_le hbs hmax]
      exact hbs
    · refine Reads.single.mpr ((reads_bytes length.toNat).congr (fun bs => ?_)
        (fun _ _ => rfl) (fun _ => rfl) fun _ => rfl)
      refine and_congr_left fun _ => ?_
      constructor
      · rintro hlen
        exact ⟨by omega, by rw [hlen]; simp⟩
      · rintro ⟨hbs, rfl⟩
        exact (toNat_ofNat_of_le hbs hmax).symm
  refine h.congr (fun bs => ?_) (fun bs hvalid => ?_) (fun _ => rfl) fun _ => rfl
  · rw [string]
    by_cases hbs : maximum < bs.length
    · rw [if_pos hbs]; simp [hbs]
    · rw [if_neg hbs]; simp [Nat.not_lt.mp hbs, number]
  · rw [string] at hvalid ⊢
    by_cases hbs : maximum < bs.length
    · rw [if_pos hbs] at hvalid; cases hvalid
    · rw [if_neg hbs]; simp [number]

theorem reads_text :
    Reads Decoder.text (fun _ => True) text (fun _ => 0) (fun _ => 0) :=
  reads_string (by decide)

/-! ## Loops -/

theorem many_succ_eq_ok {n : Nat} {xs : List α} :
    (do let xs ← Decoder.many read (n + 1); return xs.1 : Decoder (List α)) st
        = .ok (xs, st') ↔
      ∃ x mid ys, read st = .ok (x, mid) ∧
        (do let xs ← Decoder.many read n; return xs.1 : Decoder (List α)) mid
          = .ok (ys, st') ∧ xs = x :: ys := by
  simp only [Decoder.many, decoder_bind_eq_ok, decoder_pure_eq_ok]
  constructor
  · rintro ⟨_, _, ⟨x, mid, hx, ys, last, hys, rfl, rfl⟩, rfl, rfl⟩
    exact ⟨x, mid, ys.1, hx, ⟨ys, last, hys, rfl, rfl⟩, rfl⟩
  · rintro ⟨x, mid, _, hx, ⟨ys, last, hys, rfl, rfl⟩, rfl⟩
    exact ⟨_, _, ⟨x, mid, hx, ys, last, hys, rfl, rfl⟩, rfl, rfl⟩

theorem many_unique {enc : α → Encoder} {r o : α → Nat} (h : Reads read P enc r o) :
    ∀ {xs ys : List α} {s s' : Bytes}, xs.length = ys.length → (∀ x ∈ xs, P x) →
      (∀ y ∈ ys, P y) → (all (xs.map enc)).valid = true → (all (ys.map enc)).valid = true →
      (all (xs.map enc)).bytes ++ s = (all (ys.map enc)).bytes ++ s' → xs = ys ∧ s = s' := by
  intro xs
  induction xs with
  | nil =>
      intro ys s s' hlen _ _ _ _ hbytes
      obtain rfl := List.length_eq_zero_iff.mp hlen.symm
      exact ⟨rfl, by simpa using hbytes⟩
  | cons x xs ih =>
      intro ys s s' hlen hx hy hvalid hvalid' hbytes
      match ys, hlen with
      | y :: ys, hlen =>
          simp only [List.map_cons, all_cons, append_valid, append_bytes, Bool.and_eq_true,
            List.append_assoc, List.forall_mem_cons] at hvalid hvalid' hbytes hx hy
          obtain ⟨rfl, hrest⟩ := h.unique hx.1 hy.1 hvalid.1 hvalid'.1 hbytes
          obtain ⟨rfl, rfl⟩ := ih (by simpa using hlen) hx.2 hy.2 hvalid.2 hvalid'.2 hrest
          exact ⟨rfl, rfl⟩

theorem reads_many {enc : α → Encoder} {r o : α → Nat} (h : Reads read P enc r o) (n : Nat) :
    Reads (do let xs ← Decoder.many read n; return xs.1)
      (fun xs => xs.length = n ∧ ∀ x ∈ xs, P x) (fun xs => all (xs.map enc))
      (fun xs => (xs.map r).sum) (fun xs => (xs.map o).sum) := by
  refine ⟨?_, fun hb hb' => many_unique h (hb.1.trans hb'.1.symm) hb.2 hb'.2⟩
  induction n with
  | zero =>
      intro st xs st'
      simp only [Decoder.many, decoder_bind_eq_ok, decoder_pure_eq_ok]
      constructor
      · rintro ⟨_, _, ⟨rfl, rfl⟩, rfl, rfl⟩
        simp
      · rintro ⟨⟨hlen, -⟩, -, hinput, hrows, hobjects⟩
        obtain rfl := List.length_eq_zero_iff.mp hlen
        refine ⟨⟨[], rfl⟩, st, ⟨rfl, rfl⟩, rfl, ?_⟩
        exact DecoderState.ext_of (by simpa using hinput) (by simpa using hrows.symm)
          (by simpa using hobjects.symm)
  | succ n ih =>
      intro st xs st'
      rw [many_succ_eq_ok]
      constructor
      · rintro ⟨x, mid, ys, hx, hys, rfl⟩
        obtain ⟨hP, hvalid, hinput, hrows, hobjects⟩ := (h.iff st x mid).mp hx
        obtain ⟨⟨hlen, hall⟩, hvalid', hinput', hrows', hobjects'⟩ := (ih mid ys st').mp hys
        refine ⟨⟨by simp [hlen], by simpa [hP] using hall⟩, ?_, ?_, ?_, ?_⟩
        · simp only [List.map_cons, all_cons, append_valid, hvalid, hvalid', Bool.and_self]
        · simp only [List.map_cons, all_cons, append_bytes, List.append_assoc]
          rw [hinput, hinput']
        · simp only [List.map_cons, List.sum_cons]; omega
        · simp only [List.map_cons, List.sum_cons]; omega
      · rintro ⟨⟨hlen, hall⟩, hvalid, hinput, hrows, hobjects⟩
        match xs, hlen with
        | x :: ys, hlen =>
            simp only [List.map_cons, all_cons, append_valid, append_bytes, List.sum_cons,
              Bool.and_eq_true, List.append_assoc] at hvalid hinput hrows hobjects
            have hrows_le := st'.rows_le
            have hobjects_le := st'.objects_le
            refine ⟨x, ⟨(all (ys.map enc)).bytes ++ st'.input, st.rows + r x,
              st.objects + o x, by omega, by omega⟩, ys, ?_, ?_, rfl⟩
            · exact (h.iff _ _ _).mpr ⟨hall x (by simp), hvalid.1, hinput, rfl, rfl⟩
            · exact (ih _ _ _).mpr ⟨⟨by simpa using hlen, fun y hy => hall y (by simp [hy])⟩,
                hvalid.2, rfl, by simp only; omega, by simp only; omega⟩

/-- The rows a vector counts: its own and those inside its elements. -/
def vectorRows (r : α → Nat) (xs : List α) : Nat := xs.length + (xs.map r).sum

def vectorObjects (objectRows : Bool) (o : α → Nat) (xs : List α) : Nat :=
  (if objectRows then xs.length else 0) + (xs.map o).sum

theorem reads_account {count : Nat} {objectRows : Bool} (hq : Reads q C enc r o) :
    Reads (do Decoder.account count objectRows; q) C enc (fun b => count + r b)
      (fun b => (if objectRows then count else 0) + o b) := by
  refine ⟨?_, hq.unique⟩
  intro st b st'
  simp only [decoder_bind_eq_ok]
  constructor
  · rintro ⟨_, mid, haccount, hnext⟩
    unfold Decoder.account at haccount
    by_cases hfits : st.rows + count ≤ playerSnapshotMaxRows ∧
        st.objects + (if objectRows then count else 0) ≤ playerSnapshotMaxObjects
    · rw [dif_pos hfits] at haccount
      cases haccount
      obtain ⟨hC, hvalid, hinput, hrows, hobjects⟩ := (hq.iff _ b st').mp hnext
      exact ⟨hC, hvalid, hinput, hrows.trans (Nat.add_assoc _ _ _),
        hobjects.trans (Nat.add_assoc _ _ _)⟩
    · rw [dif_neg hfits] at haccount
      cases haccount
  · rintro ⟨hC, hvalid, hinput, hrows, hobjects⟩
    have hrows_le := st'.rows_le
    have hobjects_le := st'.objects_le
    refine ⟨(), _, dif_pos ⟨by omega, by omega⟩,
      (hq.iff _ b st').mpr ⟨hC, hvalid, hinput, ?_, ?_⟩⟩
    · exact hrows.trans (Nat.add_assoc _ _ _).symm
    · exact hobjects.trans (Nat.add_assoc _ _ _).symm

theorem reads_vector {enc : α → Encoder} {r o : α → Nat} (h : Reads read P enc r o)
    (objectRows : Bool) :
    Reads (Decoder.vector read objectRows) (fun xs => ∀ x ∈ xs, P x) (vector enc)
      (vectorRows r) (vectorObjects objectRows o) := by
  -- the count is a field of the finished list; the counter bounds the length, and the
  -- encoder's own limit says no more than that
  have hbody : Reads (Decoder.vector read objectRows)
      (fun xs => xs.length ≤ playerSnapshotMaxRows ∧ ∀ x ∈ xs, P x)
      (fun xs => all [number (BitVec.ofNat 32 xs.length), all (xs.map enc)])
      (vectorRows r) (vectorObjects objectRows o) := by
    constructor
    · intro st xs st'
      simp only [Decoder.vector, decoder_bind_eq_ok (p := Decoder.number 32),
        reads_number.iff st]
      constructor
      · rintro ⟨count, mid, ⟨-, -, hinput, hrows, hobjects⟩, hnext⟩
        obtain ⟨⟨hlen, hall⟩, hvalid, hinput', hrows', hobjects'⟩ :=
          ((reads_account (reads_many h count.toNat)).iff mid xs st').mp hnext
        have hrows_le := st'.rows_le
        have hcount : BitVec.ofNat 32 xs.length = count := by rw [hlen]; simp
        refine ⟨⟨by omega, hall⟩, by simpa [number] using hvalid, ?_, ?_, ?_⟩
        · rw [hinput, hinput', hcount]; simp
        · rw [vectorRows]; omega
        · rw [vectorObjects, hlen]; omega
      · rintro ⟨⟨hmax, hall⟩, hvalid, hinput, hrows, hobjects⟩
        have hcount : (BitVec.ofNat 32 xs.length).toNat = xs.length :=
          toNat_ofNat_of_le hmax (by decide)
        refine ⟨BitVec.ofNat 32 xs.length,
          { st with input := (all (xs.map enc)).bytes ++ st'.input },
          ⟨trivial, rfl, by rw [hinput]; simp, rfl, rfl⟩, ?_⟩
        refine ((reads_account (reads_many h _)).iff _ xs st').mpr
          ⟨⟨hcount.symm, hall⟩, by simpa [number] using hvalid, rfl, ?_, ?_⟩
        · rw [hrows, hcount, vectorRows]
        · rw [hobjects, hcount, vectorObjects]
    · rintro xs ys s s' ⟨hmax, hx⟩ ⟨hmax', hy⟩ hvalid hvalid' hbytes
      simp only [all_cons, all_nil, append_valid, append_bytes, Bool.and_eq_true,
        List.append_nil, List.append_assoc] at hvalid hvalid' hbytes
      obtain ⟨hcount, hrest⟩ := reads_number.unique trivial trivial
        rfl rfl hbytes
      have hlen : xs.length = ys.length := by
        rw [← @toNat_ofNat_of_le _ _ 32 hmax (by decide), hcount,
          toNat_ofNat_of_le hmax' (by decide)]
      exact many_unique h hlen hx hy hvalid.2.1 hvalid'.2.1 hrest
  refine hbody.congr (fun xs => ?_) (fun xs hvalid => ?_) (fun _ => rfl) fun _ => rfl
  · rw [vector]
    by_cases hmax : playerSnapshotMaxRows < xs.length
    · rw [if_pos hmax]; simp [hmax]
    · rw [if_neg hmax]; simp [Nat.not_lt.mp hmax, number]
  · rw [vector] at hvalid ⊢
    by_cases hmax : playerSnapshotMaxRows < xs.length
    · rw [if_pos hmax] at hvalid; cases hvalid
    · rw [if_neg hmax]; simp

theorem reads_vector_plain {enc : α → Encoder}
    (h : Reads read (fun _ => True) enc (fun _ => 0) (fun _ => 0)) :
    Reads (Decoder.vector read false) (fun _ => True) (vector enc) List.length
      (fun _ => 0) :=
  (reads_vector h false).congr (fun _ => by simp) (fun _ _ => rfl)
    (fun xs => by simp [vectorRows]) fun xs => by simp [vectorObjects]

theorem reads_array {enc : α → Encoder}
    (h : Reads read (fun _ => True) enc (fun _ => 0) (fun _ => 0)) (n : Nat) :
    Reads (Decoder.array n read) (fun _ => True) (array enc) (fun _ => 0) (fun _ => 0) := by
  constructor
  · intro st v st'
    have hlist : Decoder.array n read st = .ok (v, st') ↔
        (do let xs ← Decoder.many read n; return xs.1 : Decoder (List α)) st
          = .ok (v.toList, st') := by
      simp only [Decoder.array, decoder_bind_eq_ok, decoder_pure_eq_ok]
      constructor
      · rintro ⟨xs, mid, hxs, rfl, rfl⟩
        exact ⟨xs, mid, hxs, by simp, rfl⟩
      · rintro ⟨xs, mid, hxs, hv, rfl⟩
        refine ⟨xs, mid, hxs, ?_, rfl⟩
        apply Vector.toList_inj.mp
        simpa using hv
    rw [hlist, (reads_many h n).iff st v.toList st']
    simp [array]
  · intro v v' s s' _ _ hvalid hvalid' hbytes
    obtain ⟨hv, hs⟩ := many_unique h (by simp) (fun _ _ => trivial) (fun _ _ => trivial)
      hvalid hvalid' hbytes
    exact ⟨Vector.toList_inj.mp hv, hs⟩

/-! ## The rows of the format

Every row is a chain of fields, closed by the remark that a value is determined by
the fields that were read. -/

theorem reads_indexRow :
    Reads decodeIndexRow (fun _ => True) encodeIndexRow (fun _ => 0) (fun _ => 0) := by
  refine Reads.scalar fun index => ?_
  refine Reads.scalar fun value => ?_
  refine Reads.scalar fun auxiliary => ?_
  exact Reads.pure fun b => by cases b; simp [and_assoc, eq_comm]

theorem reads_indexRows :
    Reads decodeIndexRows (fun _ => True) encodeIndexRows List.length (fun _ => 0) :=
  reads_vector_plain reads_indexRow

theorem reads_dynamicAffect :
    Reads decodeDynamicAffect (fun _ => True) encodeDynamicAffect (fun _ => 0)
      (fun _ => 0) := by
  refine Reads.scalar fun type => ?_
  refine Reads.scalar fun data => ?_
  refine Reads.scalar fun extra2 => ?_
  exact Reads.pure fun b => by cases b; simp [and_assoc, eq_comm]

theorem Reads.rows (hp : Reads p (fun _ => True) encP rP (fun _ => 0))
    (hf : ∀ a, Reads (f a) (fun b => C b ∧ g b = a) (fun b => all (rest b)) r o) :
    Reads (p >>= f) C (fun b => all (encP (g b) :: rest b)) (fun b => rP (g b) + r b) o := by
  have h := Reads.bind hp (fun a _ => hf a) (fun _ _ => trivial)
  simpa only [Nat.zero_add] using h

theorem Reads.lastRows (hp : Reads p (fun _ => True) encP rP (fun _ => 0))
    (hf : ∀ a, Reads (f a) (fun b => C b ∧ g b = a) (fun b => all (rest b)) (fun _ => 0) o) :
    Reads (p >>= f) C (fun b => all (encP (g b) :: rest b)) (fun b => rP (g b)) o :=
  Reads.rows hp hf

def extraDescriptionRows (description : PlayerItemExtraDescriptionSnapshot) : Nat :=
  description.spellIds.length

theorem reads_extraDescription :
    Reads decodeExtraDescription (fun _ => True) encodeExtraDescription
      extraDescriptionRows (fun _ => 0) := by
  refine Reads.field reads_text fun keyword => ?_
  refine Reads.field reads_text fun description => ?_
  refine Reads.field reads_boolean fun spellbook => ?_
  refine Reads.lastRows (reads_vector_plain (reads_number (n := 32)))
    fun spellIds => ?_
  exact Reads.pure fun b => by cases b; simp [and_assoc, eq_comm]

def itemRows (row : PlayerItemSnapshot) : Nat :=
  row.dynamicAffects.length + vectorRows extraDescriptionRows row.extraDescriptions

theorem reads_extraDescriptions :
    Reads (Decoder.vector decodeExtraDescription false) (fun _ => True)
      (vector encodeExtraDescription) (vectorRows extraDescriptionRows) (fun _ => 0) :=
  (reads_vector reads_extraDescription false).congr (fun _ => by simp) (fun _ _ => rfl)
    (fun _ => rfl) fun xs => by simp [vectorObjects]

theorem reads_item :
    Reads decodeItem (fun _ => True) encodeItem itemRows (fun _ => 0) := by
  refine Reads.scalar fun parentIndex => ?_
  refine Reads.scalar fun equipmentSlot => ?_
  refine Reads.scalar fun objectUid => ?_
  refine Reads.scalar fun generatedKey => ?_
  refine Reads.scalar fun vnum => ?_
  refine Reads.scalar fun type => ?_
  refine Reads.scalar fun stringMask => ?_
  refine Reads.field reads_text fun name => ?_
  refine Reads.field reads_text fun shortDescription => ?_
  refine Reads.field reads_text fun description => ?_
  refine Reads.field reads_text fun actionDescription => ?_
  refine Reads.field (reads_array reads_number 8) fun values => ?_
  refine Reads.field (reads_array reads_number 6) fun timers => ?_
  refine Reads.scalar fun wearFlags => ?_
  refine Reads.scalar fun extraFlags => ?_
  refine Reads.scalar fun antiFlags => ?_
  refine Reads.scalar fun anti2Flags => ?_
  refine Reads.scalar fun extra2Flags => ?_
  refine Reads.scalar fun weight => ?_
  refine Reads.scalar fun material => ?_
  refine Reads.scalar fun cost => ?_
  refine Reads.scalar fun condition => ?_
  refine Reads.scalar fun craftsmanship => ?_
  refine Reads.field (reads_array reads_number 5) fun bitvectors => ?_
  refine Reads.field (reads_array (reads_array reads_number 2) 4)
    fun affects => ?_
  refine Reads.rows (reads_vector_plain reads_dynamicAffect) fun dynamicAffects => ?_
  refine Reads.lastRows reads_extraDescriptions fun extraDescriptions => ?_
  exact Reads.pure fun b => by cases b; simp [and_assoc, eq_comm]

def itemsRows (items : List PlayerItemSnapshot) : Nat := vectorRows itemRows items

theorem reads_items :
    Reads decodeItems (fun _ => True) encodeItems itemsRows List.length :=
  (reads_vector reads_item true).congr (fun xs => by simp [encodeItems]) (fun _ _ => rfl)
    (fun _ => rfl) fun xs => by simp [vectorObjects]

theorem reads_statusInteger :
    Reads decodeStatusInteger (fun _ => True) encodeStatusInteger (fun _ => 0)
      (fun _ => 0) := by
  refine Reads.field (reads_enumerator (by decide)) fun field => ?_
  refine Reads.scalar fun signedValue => ?_
  refine Reads.scalar fun unsignedValue => ?_
  refine Reads.field reads_boolean fun isUnsigned => ?_
  exact Reads.pure fun b => by cases b; simp [and_assoc, eq_comm]

theorem reads_statusString :
    Reads decodeStatusString (fun _ => True) encodeStatusString (fun _ => 0)
      (fun _ => 0) := by
  refine Reads.field (reads_enumerator (by decide)) fun field => ?_
  refine Reads.field reads_text fun value => ?_
  exact Reads.pure fun b => by cases b; simp [eq_comm]

theorem reads_skill :
    Reads decodeSkill (fun _ => True) encodeSkill (fun _ => 0) (fun _ => 0) := by
  refine Reads.scalar fun skillId => ?_
  refine Reads.scalar fun learned => ?_
  refine Reads.scalar fun taught => ?_
  exact Reads.pure fun b => by cases b; simp [and_assoc, eq_comm]

theorem reads_affect :
    Reads decodeAffect (fun _ => True) encodeAffect (fun _ => 0) (fun _ => 0) := by
  refine Reads.scalar fun type => ?_
  refine Reads.scalar fun duration => ?_
  refine Reads.scalar fun flags => ?_
  refine Reads.scalar fun modifier => ?_
  refine Reads.scalar fun location => ?_
  refine Reads.scalar fun level => ?_
  refine Reads.field (reads_array reads_number 5) fun bitvectors => ?_
  refine Reads.field reads_text fun wearOffCharacter => ?_
  refine Reads.field reads_text fun wearOffRoom => ?_
  exact Reads.pure fun b => by cases b; simp [and_assoc, eq_comm]

theorem Reads.last {oP : α → Nat} (hp : Reads p P encP rP oP)
    (hf : ∀ a, P a → Reads (f a) (fun b => C b ∧ g b = a) (fun b => all (rest b))
      (fun _ => 0) (fun _ => 0)) (hC : ∀ b, C b → P (g b)) :
    Reads (p >>= f) C (fun b => all (encP (g b) :: rest b)) (fun b => rP (g b))
      (fun b => oP (g b)) :=
  Reads.bind hp hf hC

def petRows (pet : PlayerPetSnapshot) : Nat := itemsRows pet.items

def petObjects (pet : PlayerPetSnapshot) : Nat := pet.items.length

/-- A part of the format that came with some version. -/
def since (c : Prop) [Decidable c] (part : Encoder) : Encoder := if c then part else {}

theorem reads_since {c : Prop} [Decidable c] {enc : α → Encoder} (default : α)
    (hp : Reads p (fun _ => True) enc (fun _ => 0) (fun _ => 0)) :
    Reads (if c then p else pure default) (fun a => ¬ c → a = default)
      (fun a => since c (enc a)) (fun _ => 0) (fun _ => 0) := by
  by_cases hc : c
  · simp only [since, if_pos hc]
    exact hp.congr (fun a => by simp [hc]) (fun _ _ => rfl) (fun _ => rfl) fun _ => rfl
  · simp only [since, if_neg hc]
    refine (Reads.pure (a := default) fun a => ?_).congr (fun _ => Iff.rfl) (fun _ _ => rfl)
      (fun _ => rfl) fun _ => rfl
    constructor
    · intro h
      exact (h hc).symm
    · intro h _
      exact h.symm

theorem reads_bindSince {c : Prop} [Decidable c] (default : α)
    (hp : Reads p (fun _ => True) encP (fun _ => 0) (fun _ => 0)) (hf : ∀ a, (¬ c → a = default) →
      Reads (f a) (fun b => C b ∧ g b = a) (fun b => all (rest b)) r o)
    (hC : ∀ b, C b → ¬ c → g b = default) :
    Reads (if c then p >>= f else pure default >>= f) C
      (fun b => all (since c (encP (g b)) :: rest b)) r o := by
  have hjoin : (if c then p >>= f else pure default >>= f) =
      (if c then p else pure default) >>= f := by
    split <;> rfl
  rw [hjoin]
  exact Reads.fieldOf (reads_since default hp) hf hC

def encodePetAt (wireVersion : BitVec 32) (pet : PlayerPetSnapshot) : Encoder :=
  all [since (7 ≤ wireVersion) (number pet.petUid), number pet.mobVnum, number pet.order,
    number pet.hit, number pet.maxHit, number pet.mana, number pet.maxMana, number pet.vitality,
    number pet.maxVitality, number pet.charmDuration, number pet.roomVnum, encodeItems pet.items,
    since (3 ≤ wireVersion) (string petRestoreStateMaxBytes pet.restoreState),
    since (3 ≤ wireVersion) (number pet.holdReason)]

/-- What a wire version cannot spell of a pet has its default. -/
structure PetAt (wireVersion : BitVec 32) (pet : PlayerPetSnapshot) : Prop where
  petUid : ¬ 7 ≤ wireVersion → pet.petUid = 0
  restoreState : ¬ 3 ≤ wireVersion → pet.restoreState = []
  holdReason : ¬ 3 ≤ wireVersion → pet.holdReason = PetHoldReason.none

theorem reads_petAt (wireVersion : BitVec 32) :
    Reads (decodePet wireVersion) (PetAt wireVersion) (encodePetAt wireVersion) petRows
      petObjects := by
  simp only [decodePet, ← BitVec.not_le, ite_not]
  refine reads_bindSince 0 reads_number (fun petUid hpetUid => ?_) fun pet h => h.petUid
  refine Reads.scalar fun mobVnum => ?_
  refine Reads.scalar fun order => ?_
  refine Reads.scalar fun hit => ?_
  refine Reads.scalar fun maxHit => ?_
  refine Reads.scalar fun mana => ?_
  refine Reads.scalar fun maxMana => ?_
  refine Reads.scalar fun vitality => ?_
  refine Reads.scalar fun maxVitality => ?_
  refine Reads.scalar fun charmDuration => ?_
  refine Reads.scalar fun roomVnum => ?_
  refine Reads.last reads_items (fun items _ => ?_) (fun _ _ => trivial)
  refine reads_bindSince [] (reads_string (by decide)) (fun restoreState hrestoreState => ?_)
    fun pet h => ?_
  · refine reads_bindSince PetHoldReason.none reads_number
      (fun holdReason hholdReason => ?_) fun pet h => ?_
    · refine Reads.pure fun b => ?_
      constructor
      · intro h
        cases b
        simp only [and_assoc] at h
        simp only [PlayerPetSnapshot.mk.injEq]
        simp only [h, and_self]
      · intro h
        subst h
        simp only [and_true]
        exact ⟨hpetUid, hrestoreState, hholdReason⟩
    · simp only [and_assoc] at h
      exact h.1.holdReason
  · simp only [and_assoc] at h
    exact h.1.restoreState

theorem reads_shape :
    Reads decodeShape (fun _ => True) encodeShape (fun _ => 0) (fun _ => 0) := by
  refine Reads.scalar fun mobVnum => ?_
  refine Reads.scalar fun timesResearched => ?_
  refine Reads.scalar fun lastResearched => ?_
  refine Reads.scalar fun lastShapechanged => ?_
  exact Reads.pure fun b => by cases b; simp [and_assoc, eq_comm]

theorem reads_trophy :
    Reads decodeTrophy (fun _ => True) encodeTrophy (fun _ => 0) (fun _ => 0) := by
  refine Reads.scalar fun zoneNumber => ?_
  refine Reads.scalar fun experience => ?_
  exact Reads.pure fun b => by cases b; simp [eq_comm]

theorem reads_custody :
    Reads decodeCustody (fun _ => True) encodeCustody (fun _ => 0) (fun _ => 0) := by
  refine Reads.scalar fun itemUid => ?_
  refine Reads.scalar fun rootItemUid => ?_
  refine Reads.scalar fun parentItemUid => ?_
  refine Reads.scalar fun expectedItemRevision => ?_
  refine Reads.scalar fun vnum => ?_
  refine Reads.scalar fun expectedState => ?_
  refine Reads.scalar fun ownerType => ?_
  refine Reads.scalar fun ownerId => ?_
  refine Reads.scalar fun contextId => ?_
  refine Reads.scalar fun ownerRevision => ?_
  exact Reads.pure fun b => by
    obtain ⟨⟨⟩, ⟨⟩, _⟩ := b
    simp [and_assoc, eq_comm]

def deathRows (death : PlayerDeathSnapshot) : Nat :=
  itemsRows death.corpse + (death.custody.length + death.unresolvedOperations.length)

def deathObjects (death : PlayerDeathSnapshot) : Nat := death.corpse.length

theorem reads_death :
    Reads decodeDeath (fun _ => True) encodeDeath deathRows deathObjects := by
  refine Reads.field reads_operation fun operationId => ?_
  refine Reads.scalar fun corpseRoomVnum => ?_
  refine Reads.scalar fun walletRevision => ?_
  refine Reads.field (reads_array reads_number 4) fun walletBefore => ?_
  refine Reads.scalar fun walletPileUid => ?_
  refine Reads.bind (o := fun _ => 0) reads_items (fun corpse _ => ?_) (fun _ _ => trivial)
  refine Reads.rows (reads_vector_plain reads_custody) fun custody => ?_
  refine Reads.lastRows (reads_vector_plain reads_operation) fun unresolvedOperations => ?_
  exact Reads.pure fun b => by cases b; simp [and_assoc, eq_comm]

def deathSectionRows : Option PlayerDeathSnapshot → Nat
  | none => 0
  | some death => deathRows death

def deathSectionObjects : Option PlayerDeathSnapshot → Nat
  | none => 0
  | some death => deathObjects death

theorem reads_deathSection (schemaVersion : BitVec 32) :
    Reads (decodeDeathSection schemaVersion)
      (fun death => death.isSome = decide (schemaVersion = playerSnapshotDeathSchemaVersion))
      encodeDeathSection deathSectionRows deathSectionObjects := by
  unfold decodeDeathSection
  split
  · next hdeath =>
      rw [decide_eq_true hdeath]
      constructor
      · intro st death st'
        simp only [decoder_bind_eq_ok, decoder_pure_eq_ok, reads_death.iff st]
        constructor
        · rintro ⟨record, _, h, rfl, rfl⟩
          exact ⟨rfl, h.2⟩
        · rintro ⟨hsome, h⟩
          cases death with
          | none => cases hsome
          | some record => exact ⟨record, st', ⟨trivial, h⟩, rfl, rfl⟩
      · intro death death' s s' hsome hsome' hvalid hvalid' hbytes
        match death, death', hsome, hsome' with
        | some record, some record', _, _ =>
            obtain ⟨rfl, rfl⟩ := reads_death.unique trivial trivial hvalid hvalid' hbytes
            exact ⟨rfl, rfl⟩
  · next hdeath =>
      rw [decide_eq_false hdeath]
      refine (Reads.pure (a := (none : Option PlayerDeathSnapshot))
        (C := fun death => death.isSome = false) fun death => ?_).congr' ?_
      · cases death <;> simp
      · rintro death hnone
        cases death with
        | some record => cases hnone
        | none => exact ⟨rfl, rfl, rfl, rfl⟩

/-! ## The snapshot -/

def snapshotRows (s : PlayerSnapshot) : Nat :=
  s.statusIntegers.length + (s.statusStrings.length + (s.languages.length +
    (s.introductions.length + (s.timers.length + (s.undeadSlots.length +
    (s.forgedItems.length + (s.grantedCommands.length + (s.skills.length +
    (s.affects.length + (itemsRows s.items + (vectorRows petRows s.pets +
    (s.shapes.length + (s.trophies.length + deathSectionRows s.death)))))))))))))

def snapshotObjects (s : PlayerSnapshot) : Nat :=
  s.items.length + (vectorObjects false petObjects s.pets + deathSectionObjects s.death)

def DeathMatchesSchema (s : PlayerSnapshot) : Prop :=
  s.death.isSome = decide (s.schemaVersion = playerSnapshotDeathSchemaVersion)

def encodeSections (s : PlayerSnapshot) : List Encoder :=
  [vector encodeStatusInteger s.statusIntegers, vector encodeStatusString s.statusStrings,
    array number s.conditions, array number s.questValues, encodeIndexRows s.languages,
    encodeIndexRows s.introductions, encodeIndexRows s.timers,
    encodeIndexRows s.undeadSlots, encodeIndexRows s.forgedItems,
    vector number s.grantedCommands, vector encodeSkill s.skills,
    vector encodeAffect s.affects, encodeItems s.items, vector encodePet s.pets,
    vector encodeShape s.shapes, vector encodeTrophy s.trophies,
    boolean s.recipesAreExternal, string outputPreferenceMaxBytes s.outputPreferences,
    encodeDeathSection s.death]

/-- The part of the encoding behind the metadata, as a wire version spells it. -/
def encodeSectionsAt (wireVersion : BitVec 32) (s : PlayerSnapshot) : List Encoder :=
  [vector encodeStatusInteger s.statusIntegers, vector encodeStatusString s.statusStrings,
    array number s.conditions, array number s.questValues, encodeIndexRows s.languages,
    encodeIndexRows s.introductions, encodeIndexRows s.timers,
    encodeIndexRows s.undeadSlots, encodeIndexRows s.forgedItems,
    vector number s.grantedCommands, vector encodeSkill s.skills,
    vector encodeAffect s.affects, encodeItems s.items, vector (encodePetAt wireVersion) s.pets,
    vector encodeShape s.shapes, vector encodeTrophy s.trophies,
    boolean s.recipesAreExternal,
    since (5 ≤ wireVersion) (string outputPreferenceMaxBytes s.outputPreferences),
    encodeDeathSection s.death]

/-- What a wire version cannot spell of a snapshot has its default. -/
structure SectionsAt (wireVersion : BitVec 32) (s : PlayerSnapshot) : Prop where
  pets : ∀ pet ∈ s.pets, PetAt wireVersion pet
  outputPreferences : ¬ 5 ≤ wireVersion → s.outputPreferences = []

theorem reads_sectionsAt (wireVersion schemaVersion : BitVec 32) (pid : Pid) (revision : Revision)
    (components : ComponentMask) (saveIntent roomVnum : BitVec 32) (bound : BitVec 64) :
    Reads (decodeSections wireVersion schemaVersion pid revision components saveIntent
        roomVnum bound)
      (fun s => (DeathMatchesSchema s ∧ SectionsAt wireVersion s) ∧
        s.schemaVersion = schemaVersion ∧ s.pid = pid ∧
        s.revision = revision ∧ s.components = components ∧ s.saveIntent = saveIntent ∧
        s.roomVnum = roomVnum ∧ s.encodedSizeBound = bound)
      (fun s => all (encodeSectionsAt wireVersion s)) snapshotRows snapshotObjects := by
  simp only [decodeSections]
  refine Reads.rows (reads_vector_plain reads_statusInteger) fun statusIntegers => ?_
  refine Reads.rows (reads_vector_plain reads_statusString) fun statusStrings => ?_
  refine Reads.field (reads_array reads_number 5) fun conditions => ?_
  refine Reads.field (reads_array reads_number 14) fun questValues => ?_
  refine Reads.rows reads_indexRows fun languages => ?_
  refine Reads.rows reads_indexRows fun introductions => ?_
  refine Reads.rows reads_indexRows fun timers => ?_
  refine Reads.rows reads_indexRows fun undeadSlots => ?_
  refine Reads.rows reads_indexRows fun forgedItems => ?_
  refine Reads.rows (reads_vector_plain (reads_number (n := 32)))
    fun grantedCommands => ?_
  refine Reads.rows (reads_vector_plain reads_skill) fun skills => ?_
  refine Reads.rows (reads_vector_plain reads_affect) fun affects => ?_
  refine Reads.bind reads_items (fun items _ => ?_) (fun _ _ => trivial)
  refine Reads.bind (g := PlayerSnapshot.pets) (reads_vector (reads_petAt wireVersion) false)
    (fun pets hpets => ?_) (fun s h => ?_)
  · refine Reads.rows (reads_vector_plain reads_shape) fun shapes => ?_
    refine Reads.rows (reads_vector_plain reads_trophy) fun trophies => ?_
    refine Reads.field reads_boolean fun recipesAreExternal => ?_
    refine reads_bindSince [] (reads_string (by decide)) (fun outputPreferences hpreferences => ?_)
      (fun s h => ?_)
    · refine Reads.last (reads_deathSection schemaVersion) (fun death hdeath => ?_) ?_
      · refine Reads.pure fun s => ?_
        constructor
        · intro h
          cases s
          simp only [and_assoc] at h
          simp only [PlayerSnapshot.mk.injEq]
          simp only [h, and_self]
        · intro h
          subst h
          simp only [and_self, and_true]
          exact ⟨hdeath, hpets, hpreferences⟩
      · intro s h
        simp only [and_assoc] at h
        rw [← h.2.2.1]
        exact h.1
    · simp only [and_assoc] at h
      exact h.2.1.outputPreferences
  · simp only [and_assoc] at h
    exact h.2.1.pets

/-! ## The whole codec -/

theorem currentSchema_of_current (h : wireVersion = playerSnapshotSchemaVersion ∨
      wireVersion = playerSnapshotDeathSchemaVersion) :
    7 ≤ wireVersion ∧ currentSchema wireVersion = wireVersion := by
  obtain rfl | rfl := h
  · exact ⟨by decide, by decide⟩
  · exact ⟨by decide, by decide⟩

def encodeBody (s : PlayerSnapshot) : Encoder :=
  all (number s.pid :: number s.revision :: number s.components :: number s.saveIntent ::
    number s.roomVnum :: number s.encodedSizeBound :: encodeSections s)

/-- The encoding behind the version, as a wire version spells it. -/
def encodeBodyAt (wireVersion : BitVec 32) (s : PlayerSnapshot) : Encoder :=
  all (number s.pid :: number s.revision :: number s.components :: number s.saveIntent ::
    number s.roomVnum :: number s.encodedSizeBound :: encodeSectionsAt wireVersion s)

structure ReadAt (wireVersion : BitVec 32) (s : PlayerSnapshot) : Prop where
  death : DeathMatchesSchema s
  sections : SectionsAt wireVersion s
  metadata : validMetadata s = true
  validDeath : validDeath s = true

theorem reads_versionedAt (hsupported : currentSchema wireVersion = playerSnapshotSchemaVersion ∨
      currentSchema wireVersion = playerSnapshotDeathSchemaVersion) :
    Reads (decodeVersioned wireVersion)
      (fun s => ReadAt wireVersion s ∧ s.schemaVersion = currentSchema wireVersion)
      (encodeBodyAt wireVersion) snapshotRows snapshotObjects := by
  unfold decodeVersioned
  refine Reads.check (fun _ _ => hsupported) fun _ => ?_
  refine Reads.scalar fun pid => ?_
  refine Reads.scalar fun revision => ?_
  refine Reads.scalar fun components => ?_
  refine Reads.scalar fun saveIntent => ?_
  refine Reads.scalar fun roomVnum => ?_
  refine Reads.scalar fun bound => ?_
  refine Reads.check ?_ fun hmeta => ?_
  · intro s h
    simp only [and_assoc] at h
    obtain ⟨hread, hschema, rfl, rfl, rfl, -, -, rfl⟩ := h
    rw [← hschema]
    exact hread.metadata
  refine (Reads.checked (reads_sectionsAt wireVersion (currentSchema wireVersion) pid revision
    components saveIntent roomVnum bound)).congr (fun s => and_congr_left fun _ => ?_)
    (fun _ _ => rfl) (fun _ => rfl) fun _ => rfl
  constructor
  · intro hs
    obtain ⟨⟨⟨hok, hsections⟩, hschema, rfl, rfl, rfl, rfl, rfl, rfl⟩, hdeath⟩ := hs
    rw [← hschema] at hmeta
    exact ⟨⟨⟨⟨⟨⟨⟨⟨hok, hsections, hmeta, hdeath⟩, hschema⟩, rfl⟩, rfl⟩, rfl⟩, rfl⟩, rfl⟩, rfl⟩
  · intro hs
    simp only [and_assoc] at hs
    obtain ⟨hread, hfields⟩ := hs
    exact ⟨⟨⟨hread.death, hread.sections⟩, hfields⟩, hread.validDeath⟩

theorem sectionsAt_current (hwire : 7 ≤ wireVersion) (s : PlayerSnapshot) :
    SectionsAt wireVersion s := by
  have hthree : 3 ≤ wireVersion := by bv_omega
  have hfive : 5 ≤ wireVersion := by bv_omega
  exact ⟨fun pet _ => ⟨fun h => absurd hwire h, fun h => absurd hthree h, fun h => absurd hthree h⟩,
    fun h => absurd hfive h⟩

theorem encodePetAt_current (hwire : 7 ≤ wireVersion) : encodePetAt wireVersion = encodePet := by
  have hthree : 3 ≤ wireVersion := by bv_omega
  funext pet
  simp only [encodePetAt, since, if_pos hwire, if_pos hthree]
  rfl

theorem encodeBodyAt_current (hwire : 7 ≤ wireVersion) : encodeBodyAt wireVersion = encodeBody := by
  have hfive : 5 ≤ wireVersion := by bv_omega
  funext s
  simp only [encodeBodyAt, encodeSectionsAt, encodePetAt_current hwire, since, if_pos hfive]
  rfl

theorem reads_versioned (hcurrent : wireVersion = playerSnapshotSchemaVersion ∨
      wireVersion = playerSnapshotDeathSchemaVersion) :
    Reads (decodeVersioned wireVersion)
      (fun s => (DeathMatchesSchema s ∧ validMetadata s = true ∧ validDeath s = true) ∧
        s.schemaVersion = wireVersion)
      encodeBody snapshotRows snapshotObjects := by
  obtain ⟨hwire, hschema⟩ := currentSchema_of_current hcurrent
  have hsupported : currentSchema wireVersion = playerSnapshotSchemaVersion ∨
      currentSchema wireVersion = playerSnapshotDeathSchemaVersion := by
    rw [hschema]
    exact hcurrent
  have h := reads_versionedAt hsupported
  rw [encodeBodyAt_current hwire, hschema] at h
  refine h.congr (fun s => and_congr_left fun _ => and_congr_left fun _ => ?_) (fun _ _ => rfl)
    (fun _ => rfl) fun _ => rfl
  constructor
  · intro hread
    exact ⟨hread.death, hread.metadata, hread.validDeath⟩
  · intro hread
    exact ⟨hread.1, sectionsAt_current hwire s, hread.2.1, hread.2.2⟩

theorem encodeSnapshot_eq (s : PlayerSnapshot) :
    encodeSnapshot s = number s.schemaVersion ++ encodeBody s := rfl

theorem validMetadata_schema (h : validMetadata s = true) :
    s.schemaVersion = playerSnapshotSchemaVersion ∨
      s.schemaVersion = playerSnapshotDeathSchemaVersion := by
  simp only [validMetadata, metadataOf, Bool.and_eq_true, Bool.or_eq_true, beq_iff_eq] at h
  exact h.1.1.1.1.1.1

theorem deathMatchesSchema (hmeta : validMetadata s = true) (hdeath : validDeath s = true) :
    DeathMatchesSchema s := by
  unfold validDeath at hdeath
  split at hdeath
  · next hschema =>
      rw [Option.isNone_iff_eq_none] at hdeath
      rw [DeathMatchesSchema, hdeath, hschema]
      decide
  · next hschema =>
      have hversion := (validMetadata_schema hmeta).resolve_left hschema
      split at hdeath
      · cases hdeath
      · next death hsome => simp [DeathMatchesSchema, hsome, hversion]

theorem decodeSnapshot_encodeSnapshot {s' : PlayerSnapshot} {st' : DecoderState}
    (hmeta : validMetadata s = true) (hdeath : validDeath s = true)
    (hvalid : (encodeSnapshot s).valid = true)
    (h : decodeSnapshot (Decoder.start (encodeSnapshot s).bytes) = .ok (s', st')) : s' = s := by
  have hcurrent := validMetadata_schema hmeta
  rw [decodeSnapshot, decoder_bind_eq_ok] at h
  obtain ⟨wireVersion, mid, hversion, hbody⟩ := h
  obtain ⟨-, -, hinput, -, -⟩ := (reads_number.iff _ _ _).mp hversion
  -- the version read is the version written
  rw [encodeSnapshot_eq, append_valid, Bool.and_eq_true] at hvalid
  have hstart : (number s.schemaVersion).bytes ++ (encodeBody s).bytes =
      (number wireVersion).bytes ++ mid.input := hinput
  obtain ⟨rfl, hmid⟩ := reads_number.unique trivial trivial rfl rfl hstart
  obtain ⟨hread, hvalid', hinput', -, -⟩ := ((reads_versioned hcurrent).iff _ _ _).mp hbody
  have hbytes : (encodeBody s).bytes ++ [] = (encodeBody s').bytes ++ st'.input := by
    rw [List.append_nil, hmid, hinput']
  obtain ⟨hsame, -⟩ := (reads_versioned hcurrent).unique
    ⟨⟨deathMatchesSchema hmeta hdeath, hmeta, hdeath⟩, rfl⟩ hread hvalid.2 hvalid' hbytes
  exact hsame.symm

theorem playerSnapshotDecode_encode {encoded : Bytes} (h : playerSnapshotEncode s = .ok encoded) :
    playerSnapshotDecode encoded = .ok s ∧ validMetadata s = true := by
  unfold playerSnapshotEncode at h
  split at h
  · cases h
  · next hchecks =>
      simp only [not_or, Bool.not_eq_false] at hchecks
      obtain ⟨hmeta, -, -, hdeath⟩ := hchecks
      dsimp only at h
      split at h
      · cases h
      · next hfits =>
          simp only [not_or, Bool.not_eq_false] at hfits
          split at h
          · cases h
          · next s' hdecode =>
              cases h
              refine ⟨?_, hmeta⟩
              rw [hdecode]
              unfold playerSnapshotDecode at hdecode
              split at hdecode
              · cases hdecode
              split at hdecode
              · cases hdecode
              split at hdecode
              · cases hdecode
              · next read st hread =>
                  split at hdecode
                  · cases hdecode
                  · cases hdecode
                    rw [decodeSnapshot_encodeSnapshot hmeta hdeath hfits.1 hread]

theorem playerSnapshotDecode_size {encoded : Bytes} (h : playerSnapshotDecode encoded = .ok s) :
    encoded ≠ [] ∧ encoded.length ≤ playerSnapshotMaxBytes := by
  unfold playerSnapshotDecode at h
  split at h
  · cases h
  · next hne =>
      split at h
      · cases h
      · next hle => exact ⟨hne, Nat.not_lt.mp hle⟩

end Duris.Player
