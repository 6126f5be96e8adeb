import Duris.Lib.LittleEndian

/-!
# Readers of a byte format

A decoder of the repository walks an offset over a buffer and gives up at the
first thing it does not like. `Reader` is that discipline with the offset left
implicit: a reader takes a value off the front of its input and hands back the
rest, or answers why it refused.

Each reader here comes with one equivalence, named `_eq_ok`, that says on
exactly which inputs it succeeds and what it leaves. Rewriting with them turns a
decoder into the statement of its own format, and a format stated that way is
canonical for free: there is one byte string per value.
-/

namespace Duris

/-- A reader of an `α` that may refuse with an `ε`. -/
def Reader (ε α : Type) : Type := Bytes → Except ε (α × Bytes)

namespace Reader

variable {ε α β : Type}

instance : Monad (Reader ε) where
  pure a := fun input => .ok (a, input)
  bind p f := fun input =>
    match p input with
    | .ok (a, rest) => f a rest
    | .error e => .error e

/-- Go on only under `c`. -/
def require (c : Prop) [Decidable c] (e : ε) : Reader ε Unit :=
  fun input => if c then .ok ((), input) else .error e

def remaining : Reader ε Nat := fun input => .ok (input.length, input)

def takeRest : Reader ε Bytes := fun input => .ok (input, [])

/-- An `n`-bit little-endian field; `short` when the input ends inside it. -/
def field (short : ε) (n : Nat) : Reader ε (BitVec n) := fun input =>
  match readLe n input with
  | some result => .ok result
  | none => .error short

/-- A run of exactly `n` bytes. -/
def raw (short : ε) (n : Nat) : Reader ε { bs : Bytes // bs.length = n } :=
  fun input =>
    if h : (input.take n).length = n then .ok (⟨input.take n, h⟩, input.drop n)
    else .error short

/-- A value the format has to be able to make of what was read. -/
def ofOption (e : ε) : Option α → Reader ε α
  | none => fun _ => .error e
  | some a => pure a

/-- A value computed from what was read, or the refusal of that computation. -/
def ofExcept : Except ε α → Reader ε α
  | .error e => fun _ => .error e
  | .ok a => pure a

/-- Read all of the input; nothing when the reader refuses or leaves a rest. -/
def whole (p : Reader ε α) (input : Bytes) : Option α :=
  match p input with
  | .ok (a, []) => some a
  | _ => none

def many (p : Reader ε α) : Nat → Reader ε (List α)
  | 0 => pure []
  | n + 1 => do
      let x ← p
      let xs ← many p n
      return x :: xs

variable {input rest : Bytes} {p : Reader ε α} {n : Nat} {short : ε} {enc : α → Bytes}

theorem pure_eq_ok {a b : α} :
    (pure a : Reader ε α) input = .ok (b, rest) ↔ a = b ∧ input = rest := by
  show Except.ok (a, input) = .ok (b, rest) ↔ _
  simp

theorem bind_eq_ok {f : α → Reader ε β} {b : β} :
    (p >>= f) input = .ok (b, rest) ↔
      ∃ a mid, p input = .ok (a, mid) ∧ f a mid = .ok (b, rest) := by
  show (match p input with
    | .ok (a, mid) => f a mid
    | .error e => .error e) = _ ↔ _
  cases hp : p input with
  | error e => simp
  | ok r =>
      obtain ⟨a, mid⟩ := r
      simp

theorem bind_run {f : α → Reader ε β} {a : α} {mid : Bytes} (h : p input = .ok (a, mid)) :
    (p >>= f) input = f a mid := by
  show (match p input with
    | .ok (a, mid) => f a mid
    | .error e => .error e) = _
  rw [h]

theorem require_eq_ok {c : Prop} [Decidable c] {e : ε} {u : Unit} :
    require c e input = .ok (u, rest) ↔ c ∧ input = rest := by
  unfold require
  split
  · next hc => simp [hc]
  · next hc => simp [hc]

theorem remaining_eq_ok :
    (remaining : Reader ε Nat) input = .ok (n, rest) ↔
      input.length = n ∧ input = rest := by
  simp [remaining]

theorem takeRest_eq_ok {bs : Bytes} :
    (takeRest : Reader ε Bytes) input = .ok (bs, rest) ↔ bs = input ∧ rest = [] := by
  simp [takeRest, eq_comm]

theorem field_eq_ok [Octets n] {x : BitVec n} :
    field short n input = .ok (x, rest) ↔ input = appendLe x ++ rest := by
  rw [← readLe_eq_some, field]
  cases readLe n input with
  | none => simp
  | some r => simp

theorem raw_eq_ok {x : { bs : Bytes // bs.length = n }} :
    raw short n input = .ok (x, rest) ↔ input = x.1 ++ rest := by
  unfold raw
  constructor
  · intro h
    split at h
    · simp only [Except.ok.injEq, Prod.mk.injEq] at h
      obtain ⟨hx, hrest⟩ := h
      rw [← hx, ← hrest, List.take_append_drop]
    · cases h
  · intro h
    subst h
    have htake : (x.1 ++ rest).take n = x.1 := List.take_left' x.2
    have hdrop : (x.1 ++ rest).drop n = rest := List.drop_left' x.2
    simp [htake, hdrop, x.2]

/-! Running a reader over what it is meant to read, one field at a time. -/

theorem field_bind [Octets n] {f : BitVec n → Reader ε β} (x : BitVec n) (rest : Bytes) :
    (field short n >>= f) (appendLe x ++ rest) = f x rest :=
  bind_run (field_eq_ok.mpr rfl)

theorem raw_bind {f : { bs : Bytes // bs.length = n } → Reader ε β} {bytes : Bytes}
    (h : bytes.length = n) (rest : Bytes) :
    (raw short n >>= f) (bytes ++ rest) = f ⟨bytes, h⟩ rest :=
  bind_run (raw_eq_ok.mpr rfl)

theorem require_bind {c : Prop} [Decidable c] {e : ε} {f : Unit → Reader ε β} (h : c)
    (input : Bytes) : (require c e >>= f) input = f () input :=
  bind_run (require_eq_ok.mpr ⟨h, rfl⟩)

/-! Taking a successful run apart, one field at a time. -/

theorem field_bind_ok [Octets n] {f : BitVec n → Reader ε β} {b : β}
    (h : (field short n >>= f) input = .ok (b, rest)) :
    ∃ x mid, input = appendLe x ++ mid ∧ f x mid = .ok (b, rest) := by
  obtain ⟨x, mid, hread, hrun⟩ := bind_eq_ok.mp h
  exact ⟨x, mid, field_eq_ok.mp hread, hrun⟩

theorem raw_bind_ok {f : { bs : Bytes // bs.length = n } → Reader ε β} {b : β}
    (h : (raw short n >>= f) input = .ok (b, rest)) :
    ∃ (x : { bs : Bytes // bs.length = n }) (mid : Bytes),
      input = x.1 ++ mid ∧ f x mid = .ok (b, rest) := by
  obtain ⟨x, mid, hread, hrun⟩ := bind_eq_ok.mp h
  exact ⟨x, mid, raw_eq_ok.mp hread, hrun⟩

theorem require_bind_ok {c : Prop} [Decidable c] {e : ε} {f : Unit → Reader ε β} {b : β}
    (h : (require c e >>= f) input = .ok (b, rest)) : c ∧ f () input = .ok (b, rest) := by
  obtain ⟨_, mid, hread, hrun⟩ := bind_eq_ok.mp h
  obtain ⟨hc, rfl⟩ := require_eq_ok.mp hread
  exact ⟨hc, hrun⟩

theorem ofOption_eq_ok {e : ε} {value : Option α} {a : α} :
    ofOption e value input = .ok (a, rest) ↔ value = some a ∧ input = rest := by
  cases value with
  | none => simp [ofOption]
  | some b => rw [ofOption, pure_eq_ok, Option.some.injEq]

theorem ofExcept_eq_ok {value : Except ε α} {a : α} :
    ofExcept value input = .ok (a, rest) ↔ value = .ok a ∧ input = rest := by
  cases value with
  | error e => simp [ofExcept]
  | ok b => rw [ofExcept, pure_eq_ok, Except.ok.injEq]

theorem whole_eq_some {a : α} : whole p input = some a ↔ p input = .ok (a, []) := by
  unfold whole
  split
  · next b hp => simp [hp]
  · next hp =>
      constructor
      · intro h
        cases h
      · intro h
        exact absurd h (hp a)

/-- A counted loop over an element with one encoding for each value the reader grants: it
reads exactly the concatenation of that many encodings of such values. -/
theorem many_all_eq_ok {P : α → Prop}
    (hp : ∀ {x input rest}, p input = .ok (x, rest) ↔ P x ∧ input = enc x ++ rest) :
    ∀ {n : Nat} {xs : List α} {input rest : Bytes},
      many p n input = .ok (xs, rest) ↔
        xs.length = n ∧ (∀ x ∈ xs, P x) ∧ input = xs.flatMap enc ++ rest := by
  intro n
  induction n with
  | zero =>
      intro xs input rest
      rw [many, pure_eq_ok, List.length_eq_zero_iff]
      constructor
      · rintro ⟨rfl, rfl⟩; simp
      · rintro ⟨rfl, -, h⟩; simpa using h
  | succ n ih =>
      intro xs input rest
      rw [many]
      simp only [bind_eq_ok, pure_eq_ok, hp, ih]
      constructor
      · rintro ⟨x, mid, ⟨hx, rfl⟩, ys, mid', ⟨hlen, hys, rfl⟩, rfl, rfl⟩
        exact ⟨by simp [hlen], List.forall_mem_cons.mpr ⟨hx, hys⟩, by simp⟩
      · rintro ⟨hlen, hall, rfl⟩
        match xs, hlen, hall with
        | x :: ys, hlen, hall =>
            rw [List.forall_mem_cons] at hall
            refine ⟨x, ys.flatMap enc ++ rest, ⟨hall.1, by simp⟩, ys, rest,
              ⟨?_, hall.2, rfl⟩, rfl, rfl⟩
            simpa using hlen

/-- A counted loop over a canonical element reads exactly the concatenation of
that many element encodings. -/
theorem many_eq_ok (hp : ∀ {x input rest}, p input = .ok (x, rest) ↔ input = enc x ++ rest)
    {xs : List α} :
    many p n input = .ok (xs, rest) ↔ xs.length = n ∧ input = xs.flatMap enc ++ rest := by
  have h := @many_all_eq_ok ε α p enc (fun _ => True) (by simpa only [true_and] using @hp) n xs
    input rest
  simpa using h

theorem many_all {P : α → Prop} (hp : ∀ {x input rest}, p input = .ok (x, rest) → P x) :
    ∀ {n : Nat} {xs : List α} {input rest : Bytes},
      many p n input = .ok (xs, rest) → ∀ x ∈ xs, P x := by
  intro n
  induction n with
  | zero =>
      intro xs input rest h x hx
      rw [many, pure_eq_ok] at h
      rw [← h.1] at hx
      cases hx
  | succ n ih =>
      intro xs input rest h x hx
      rw [many, bind_eq_ok] at h
      obtain ⟨y, mid, hy, h⟩ := h
      obtain ⟨ys, mid', hys, h⟩ := bind_eq_ok.mp h
      obtain ⟨rfl, -⟩ := pure_eq_ok.mp h
      cases List.mem_cons.mp hx with
      | inl hfirst => rw [hfirst]; exact hp hy
      | inr hrest => exact ih hys x hrest

/-- The loop reads back what was written element by element, where each of the elements
reads back on its own. -/
theorem many_run :
    ∀ {xs : List α}, (∀ x ∈ xs, ∀ rest, p (enc x ++ rest) = .ok (x, rest)) → ∀ rest : Bytes,
      many p xs.length (xs.flatMap enc ++ rest) = .ok (xs, rest) := by
  intro xs
  induction xs with
  | nil => exact fun _ rest => rfl
  | cons x xs ih =>
      intro hp rest
      rw [List.length_cons, many, List.flatMap_cons, List.append_assoc,
        bind_run (hp x (List.mem_cons_self ..) _),
        bind_run (ih (fun y hy => hp y (List.mem_cons_of_mem _ hy)) rest)]
      rfl

end Reader

end Duris
