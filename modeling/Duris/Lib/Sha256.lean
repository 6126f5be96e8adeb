import Duris.Lib.LittleEndian

/-!
# SHA-256

The repository takes its hash, and the keyed hash made of it, from a library, so a model that
needs one takes it as a parameter. This is that function: what is said of a fixed input is
said with it. A word is a natural below `2 ^ 32`.
-/

namespace Duris.Sha256

def roundConstants : List Nat :=
  [0x428a2f98, 0x71374491, 0xb5c0fbcf, 0xe9b5dba5, 0x3956c25b, 0x59f111f1, 0x923f82a4,
    0xab1c5ed5, 0xd807aa98, 0x12835b01, 0x243185be, 0x550c7dc3, 0x72be5d74, 0x80deb1fe,
    0x9bdc06a7, 0xc19bf174, 0xe49b69c1, 0xefbe4786, 0x0fc19dc6, 0x240ca1cc, 0x2de92c6f,
    0x4a7484aa, 0x5cb0a9dc, 0x76f988da, 0x983e5152, 0xa831c66d, 0xb00327c8, 0xbf597fc7,
    0xc6e00bf3, 0xd5a79147, 0x06ca6351, 0x14292967, 0x27b70a85, 0x2e1b2138, 0x4d2c6dfc,
    0x53380d13, 0x650a7354, 0x766a0abb, 0x81c2c92e, 0x92722c85, 0xa2bfe8a1, 0xa81a664b,
    0xc24b8b70, 0xc76c51a3, 0xd192e819, 0xd6990624, 0xf40e3585, 0x106aa070, 0x19a4c116,
    0x1e376c08, 0x2748774c, 0x34b0bcb5, 0x391c0cb3, 0x4ed8aa4a, 0x5b9cca4f, 0x682e6ff3,
    0x748f82ee, 0x78a5636f, 0x84c87814, 0x8cc70208, 0x90befffa, 0xa4506ceb, 0xbef9a3f7,
    0xc67178f2]

structure Words where
  a : Nat := 0x6a09e667
  b : Nat := 0xbb67ae85
  c : Nat := 0x3c6ef372
  d : Nat := 0xa54ff53a
  e : Nat := 0x510e527f
  f : Nat := 0x9b05688c
  g : Nat := 0x1f83d9ab
  h : Nat := 0x5be0cd19

def word (n : Nat) : Nat := n % 4294967296

def rotr (n x : Nat) : Nat := (x >>> n) ||| word (x <<< (32 - n))

/-- One round, on a constant and a word of the schedule. -/
def round (s : Words) (constant w : Nat) : Words :=
  let choose := (s.e &&& s.f) ^^^ ((4294967295 ^^^ s.e) &&& s.g)
  let majority := (s.a &&& s.b) ^^^ (s.a &&& s.c) ^^^ (s.b &&& s.c)
  let first := s.h + (rotr 6 s.e ^^^ rotr 11 s.e ^^^ rotr 25 s.e) + choose + constant + w
  let second := (rotr 2 s.a ^^^ rotr 13 s.a ^^^ rotr 22 s.a) + majority
  ⟨word (first + second), s.a, s.b, s.c, word (s.d + first), s.e, s.f, s.g⟩

/-- The word of the schedule behind the sixteen given. -/
def nextWord (window : List Nat) : Nat :=
  let late := window.getD 14 0
  let early := window.getD 1 0
  word ((rotr 17 late ^^^ rotr 19 late ^^^ (late >>> 10)) + window.getD 9 0 +
    (rotr 7 early ^^^ rotr 18 early ^^^ (early >>> 3)) + window.getD 0 0)

def rounds : List Nat → List Nat → Words → Words
  | constant :: constants, w :: window, s =>
      rounds constants (window ++ [nextWord (w :: window)]) (round s constant w)
  | _, _, s => s

def compress (s : Words) (block : List Nat) : Words :=
  let t := rounds roundConstants block s
  ⟨word (s.a + t.a), word (s.b + t.b), word (s.c + t.c), word (s.d + t.d), word (s.e + t.e),
    word (s.f + t.f), word (s.g + t.g), word (s.h + t.h)⟩

def bigEndian : Bytes → List Nat
  | a :: b :: c :: d :: bytes =>
      (((a.toNat * 256 + b.toNat) * 256 + c.toNat) * 256 + d.toNat) :: bigEndian bytes
  | _ => []

/-- The message with its padding and its length in bits. -/
def padded (message : Bytes) : Bytes :=
  message ++ 0x80 :: List.replicate ((119 - message.length % 64) % 64) 0 ++
    beBytes 8 (8 * message.length)

def blocks : Nat → List Nat → Words → Words
  | 0, _, s => s
  | n + 1, words, s => blocks n (words.drop 16) (compress s (words.take 16))

def hash (message : Bytes) : Vector UInt8 32 :=
  let words := bigEndian (padded message)
  let s := blocks (words.length / 16) words {}
  let digest := [s.a, s.b, s.c, s.d, s.e, s.f, s.g, s.h].flatMap (beBytes 4)
  Vector.ofFn fun i => digest.getD i 0

example : beNat (hash [97, 98, 99]).toList =
    0xba7816bf8f01cfea414140de5dae2223b00361a396177a9cb410ff61f20015ad := by
  decide +kernel

/-- HMAC with this hash. -/
def hmac (secret message : Bytes) : Vector UInt8 32 :=
  let short := if 64 < secret.length then (hash secret).toList else secret
  let key := short ++ List.replicate (64 - short.length) 0
  let inner := hash (key.map (· ^^^ 0x36) ++ message)
  hash (key.map (· ^^^ 0x5c) ++ inner.toList)

end Duris.Sha256
