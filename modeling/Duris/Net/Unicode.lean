import Duris.Net.WebsocketInput

/-!
# The game's own UTF-8

`get_utf8` and `put_utf8` of `src/net/unicode.c`, through which all text of the game goes,
and the walk of `websocket_valid_utf8` over its buffer with the reads it makes.

`get_utf8` reads a string that ends in a zero byte; a string here is what stands before
the zero, and beyond its last byte the zero is read. Code points are `int` in the source
and small enough here to be naturals; what `put_utf8` is given is any `int`.
-/

namespace Duris.Net

def uniBad : Nat := 0xfffd

def isUtf8Tail (byte : UInt8) : Bool := byte &&& 0xc0 == 0x80

/-- The label `eat_junk`: the tails go, and one error comes of them. -/
def eatJunk (str : Bytes) : Nat × Bytes := (uniBad, str.dropWhile isUtf8Tail)

/-- What a first byte says: how many follow, its own bits, and the least value. -/
def utf8Lead (first : UInt8) : Option (Nat × Nat × Nat) :=
  if first &&& 0xe0 = 0xc0 then some (1, (first &&& 0x1f).toNat, 0x80)
  else if first &&& 0xf0 = 0xe0 then some (2, (first &&& 0x0f).toNat, 0x800)
  else if first &&& 0xf8 = 0xf0 then some (3, (first &&& 0x07).toNat, 0x10000)
  else none

/-- The loop over the bytes that follow: nothing when one of them is no tail. -/
def getTails : Nat → Nat → Bytes → Option Nat × Bytes
  | 0, c, str => (some c, str)
  | _ + 1, _, [] => (none, [])
  | len + 1, c, byte :: str =>
      if isUtf8Tail byte then getTails len ((c <<< 6) + (byte &&& 0x3f).toNat) str
      else (none, byte :: str)

/-- `get_utf8`: a code point or `UNI_BAD`, and where the string goes on. -/
def getUtf8 : Bytes → Nat × Bytes
  | [] => (0, [])
  | first :: str =>
      if first = 0 then (0, first :: str)
      else if first < 128 then (first.toNat, str)
      else if first < 0xc0 then eatJunk str
      else
        match utf8Lead first with
        | none => eatJunk str
        | some (len, bits, least) =>
            match getTails len bits str with
            | (none, rest) => (uniBad, rest)
            | (some c, rest) =>
                if c < least then (uniBad, rest)
                else if 0xd800 ≤ c ∧ c ≤ 0xdfff then (uniBad, rest)
                else if 0x10ffff < c then (uniBad, rest)
                else (c, rest)

theorem getTails_length_le (str : Bytes) : ∀ len c, (getTails len c str).2.length ≤ str.length := by
  induction str with
  | nil =>
      intro len c
      cases len <;> exact Nat.le_refl _
  | cons byte str ih =>
      intro len c
      cases len with
      | zero => exact Nat.le_refl _
      | succ len =>
          rw [getTails]
          split
          · exact Nat.le_succ_of_le (ih _ _)
          · exact Nat.le_refl _

theorem eatJunk_length_le (str : Bytes) : (eatJunk str).2.length ≤ str.length :=
  (List.dropWhile_sublist _).length_le

theorem getUtf8_length_lt {first : UInt8} (h : first ≠ 0) (str : Bytes) :
    (getUtf8 (first :: str)).2.length < (first :: str).length := by
  rw [List.length_cons, Nat.lt_succ_iff, getUtf8, if_neg h]
  split
  · exact Nat.le_refl _
  · split
    · exact eatJunk_length_le str
    · split
      · exact eatJunk_length_le str
      · next len bits least _ =>
          have htails := getTails_length_le str len bits
          split
          · next htail => rw [htail] at htails; exact htails
          · next htail =>
              rw [htail] at htails
              split
              · exact htails
              · split
                · exact htails
                · split <;> exact htails

/-- `while (*str) get_utf8(str)`: the code points of a string, with `UNI_BAD` for junk. -/
def decodeUtf8 : Bytes → List Nat
  | [] => []
  | first :: str =>
      if _h : first = 0 then []
      else (getUtf8 (first :: str)).1 :: decodeUtf8 (getUtf8 (first :: str)).2
termination_by str => str.length
decreasing_by exact getUtf8_length_lt _h str

/-- `put_utf8`: the bytes it appends. -/
def putUtf8 (v : BitVec 32) : Bytes :=
  let uv := v.toNat
  if uv < 0x80 then [UInt8.ofNat uv]
  else if uv < 0x800 then [UInt8.ofNat ((uv >>> 6) ||| 0xc0), UInt8.ofNat ((uv &&& 0x3f) ||| 0x80)]
  else if 0xd800 ≤ uv ∧ uv ≤ 0xdfff then [0xef, 0xbf, 0xbd]
  else if uv < 0x10000 then
    [UInt8.ofNat ((uv >>> 12) ||| 0xe0), UInt8.ofNat (((uv >>> 6) &&& 0x3f) ||| 0x80),
      UInt8.ofNat ((uv &&& 0x3f) ||| 0x80)]
  else if uv < 0x110000 then
    [UInt8.ofNat ((uv >>> 18) ||| 0xf0), UInt8.ofNat (((uv >>> 12) &&& 0x3f) ||| 0x80),
      UInt8.ofNat (((uv >>> 6) &&& 0x3f) ||| 0x80), UInt8.ofNat ((uv &&& 0x3f) ||| 0x80)]
  else [0xef, 0xbf, 0xbd]

/-- The comparisons with the bytes from `index` on, up to the first that fails. A read at or
past the end of the buffer has no answer. -/
def readInRanges (data : Bytes) : Nat → List (UInt8 × UInt8) → Option Bool
  | _, [] => some true
  | index, (low, high) :: followers =>
      match data[index]? with
      | none => none
      | some byte =>
          if byte < low ∨ high < byte then some false else readInRanges data (index + 1) followers

/-- `websocket_valid_utf8` from `index` on, over the bytes and the length it is given. -/
def validUtf8Walk (data : Bytes) (index : Nat) : Option Bool :=
  if _h : data.length ≤ index then some true
  else
    match data[index]? with
    | none => none
    | some first =>
        match utf8Followers first with
        | none => some false
        | some followers =>
            if data.length < index + 1 + followers.length then some false
            else
              match readInRanges data (index + 1) followers with
              | none => none
              | some false => some false
              | some true => validUtf8Walk data (index + 1 + followers.length)
termination_by data.length - index

end Duris.Net
