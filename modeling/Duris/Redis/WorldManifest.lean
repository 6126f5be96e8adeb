import Duris.Lib.LittleEndian

/-!
# World generations in chunks

`encode_manifest`, `decode_manifest`, `bounded_string` and the reading side of
`src/redis/redis_world_store.c`. A generation is stored in chunks under the token of the
writer that uploaded it; its manifest says how long it is, which token the chunks carry,
and what they hash to, under a tag made with a secret that the season and the sequence
are part of.

The hash functions are parameters. `readGeneration` is the source's function over what
the store holds at one moment: a chunk is looked up by sequence, token and index, which
is what the formatted key spells.
-/

namespace Duris.Redis

abbrev Sequence := BitVec 64

/-- A digit of `redis_world_writer_token_create`. -/
def hexDigit (byte : UInt8) : Bool :=
  (48 ≤ byte && byte ≤ 57) || (97 ≤ byte && byte ≤ 102)

structure Token where
  text : Bytes
  size : text.length = 32
  hex : text.all hexDigit = true
  deriving DecidableEq

/-- SHA-256 and HMAC-SHA-256, the secret first. -/
structure Crypto where
  sha256 : Bytes → Bytes
  hmac : Bytes → Bytes → Bytes
  sha256_length : ∀ message, (sha256 message).length = 32
  hmac_length : ∀ secret message, (hmac secret message).length = 32

/-- `redis_world_store_config`, without the connection and the time to live. -/
structure Config where
  keyNamespace : Bytes
  secret : Bytes
  previousSecret : Bytes
  seasonEpoch : BitVec 64

def worldGenerationChunkBytes : Nat := 1024 * 1024
def worldGenerationManifestBytes : Nat := 120
def worldGenerationMaxChunks : Nat := 64
def worldRecoveryMaxBytes : Nat := 64 * 1024 * 1024

def authenticationSecretValid (secret : Bytes) : Bool :=
  32 ≤ secret.length && secret.length ≤ 256

def chunkCount (size : Nat) : Nat :=
  (size + worldGenerationChunkBytes - 1) / worldGenerationChunkBytes

def chunkOf (data : Bytes) (index : Nat) : Bytes :=
  (data.drop (index * worldGenerationChunkBytes)).take worldGenerationChunkBytes

/-- `manifest_tag`: the tag of the first 88 bytes of a manifest. -/
def manifestTag (crypto : Crypto) (config : Config) (sequence : Sequence) (signed : Bytes)
    (secret : Bytes) : Option Bytes :=
  if config.keyNamespace = [] ∨ sequence = 0 ∨ !authenticationSecretValid secret ∨
      63 < config.keyNamespace.length then none
  else some (crypto.hmac secret
    (signed.take 88 ++ config.keyNamespace ++ [0] ++ appendLe config.seasonEpoch ++
      appendLe sequence))

/-- `"WRG2"`. -/
def manifestMagic : Bytes := [87, 82, 71, 50]

/-- The part of a manifest its tag is made over. -/
def manifestPrefix (crypto : Crypto) (generation : Bytes) (uploadToken : Token) : Bytes :=
  manifestMagic ++ leBytes 4 2 ++ leBytes 8 generation.length ++
    leBytes 4 (chunkCount generation.length) ++ leBytes 4 worldGenerationChunkBytes ++
    uploadToken.text ++ crypto.sha256 generation

def encodeManifest (crypto : Crypto) (config : Config) (sequence : Sequence)
    (generation : Bytes) (uploadToken : Token) : Option Bytes :=
  if !authenticationSecretValid config.secret ∨ sequence = 0 ∨ generation = [] ∨
      worldRecoveryMaxBytes < generation.length then none
  else if chunkCount generation.length = 0 ∨
      worldGenerationMaxChunks < chunkCount generation.length then none
  else
    (manifestTag crypto config sequence (manifestPrefix crypto generation uploadToken)
      config.secret).map (manifestPrefix crypto generation uploadToken ++ ·)

def manifestField (data : Bytes) (offset size : Nat) : Bytes := (data.drop offset).take size

/-- What `decode_manifest` finds in a manifest. -/
structure ManifestEntry where
  generationSize : Nat
  chunkCount : Nat
  uploadToken : Token
  generationDigest : Bytes

def Token.ofText (text : Bytes) : Option Token :=
  if hsize : text.length = 32 then
    if hhex : text.all hexDigit = true then some ⟨text, hsize, hhex⟩ else none
  else none

def tagged (crypto : Crypto) (config : Config) (sequence : Sequence) (data secret : Bytes) :
    Bool :=
  manifestTag crypto config sequence data secret == some (manifestField data 88 32)

def decodeManifest (crypto : Crypto) (config : Config) (sequence : Sequence) (data : Bytes) :
    Option ManifestEntry :=
  if sequence = 0 ∨ data.length ≠ worldGenerationManifestBytes ∨
      manifestField data 0 4 ≠ manifestMagic ∨ leNat (manifestField data 4 4) ≠ 2 ∨
      leNat (manifestField data 20 4) ≠ worldGenerationChunkBytes then none
  else if !(tagged crypto config sequence data config.secret ||
      tagged crypto config sequence data config.previousSecret) then none
  else
    let total := leNat (manifestField data 8 8)
    let chunks := leNat (manifestField data 16 4)
    if total = 0 ∨ worldRecoveryMaxBytes < total ∨ chunks = 0 ∨
        worldGenerationMaxChunks < chunks ∨ chunks ≠ chunkCount total then none
    else
      (Token.ofText (manifestField data 24 32)).map fun token =>
        ⟨total, chunks, token, manifestField data 56 32⟩

structure ChunkKey where
  sequence : Sequence
  uploadToken : Token
  index : Nat
  deriving DecidableEq

/-- `bounded_string` on the value found under a key: a length of 0 expected is any. -/
def boundedString (value : Option Bytes) (maximumBytes expectedBytes : Nat) : Option Bytes :=
  value.bind fun bytes =>
    if bytes.length = 0 ∨ maximumBytes < bytes.length ∨
        (expectedBytes ≠ 0 ∧ bytes.length ≠ expectedBytes) then none
    else some bytes

/-- The chunks from `index` on, `remaining` of them. -/
def readChunks (chunk : ChunkKey → Option Bytes) (sequence : Sequence) (entry : ManifestEntry)
    (index : Nat) : Nat → Option Bytes
  | 0 => some []
  | remaining + 1 =>
      (boundedString (chunk ⟨sequence, entry.uploadToken, index⟩) worldGenerationChunkBytes
        (min worldGenerationChunkBytes
          (entry.generationSize - index * worldGenerationChunkBytes))).bind fun bytes =>
        (readChunks chunk sequence entry (index + 1) remaining).map (bytes ++ ·)

/-- `manifest_upload_token`, with the rest of what the manifest says. -/
def readManifest (crypto : Crypto) (config : Config) (generation : Sequence → Option Bytes)
    (sequence : Sequence) : Option ManifestEntry :=
  (boundedString (generation sequence) worldGenerationManifestBytes
    worldGenerationManifestBytes).bind (decodeManifest crypto config sequence)

def readGeneration (crypto : Crypto) (config : Config) (generation : Sequence → Option Bytes)
    (chunk : ChunkKey → Option Bytes) (sequence : Sequence) : Option Bytes :=
  (readManifest crypto config generation sequence).bind fun entry =>
    (readChunks chunk sequence entry 0 entry.chunkCount).bind fun data =>
      if crypto.sha256 data = entry.generationDigest then some data else none

end Duris.Redis
