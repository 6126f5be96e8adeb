import Duris.Lib.Reader

/-!
# Sealed files

A store keeps its payload in a file behind a header: the magic of the store, a version,
the size of the payload, a revision and the digest of the payload. `wrap` writes such a
file and `unwrap` reads it, whatever the digest is, as long as the size of the payload fits
its field.
-/

namespace Duris

/-- What stands in a sealed file: the payload, and the two words of the header that are not
computed from it. -/
structure Envelope where
  version : BitVec 32
  revision : BitVec 64
  payload : Bytes

namespace Envelope

open Reader

variable (digest : Bytes → Vector UInt8 32) (magic : Bytes)

/-- The header behind the magic, and the payload. -/
def encode (envelope : Envelope) : Bytes :=
  appendLe envelope.version ++ (appendLe (BitVec.ofNat 32 envelope.payload.length) ++
    (appendLe envelope.revision ++ ((digest envelope.payload).toList ++ envelope.payload)))

def wrap (envelope : Envelope) : Bytes := magic ++ envelope.encode digest

def read : Reader Unit Envelope := do
  let found ← raw () magic.length
  require (found.1 = magic) ()
  let version ← field () 32
  let payloadSize ← field () 32
  let revision ← field () 64
  let found ← raw () 32
  let payload ← takeRest
  require (payloadSize.toNat = payload.length ∧ found.1 = (digest payload).toList) ()
  return { version, revision, payload }

def unwrap (bytes : Bytes) : Option Envelope := whole (read digest magic) bytes

variable {digest magic} {envelope : Envelope} {bytes : Bytes}

theorem wrap_length :
    (envelope.wrap digest magic).length = magic.length + 48 + envelope.payload.length := by
  simp only [wrap, encode, List.length_append, appendLe_length, Vector.length_toList]
  omega

theorem unwrap_wrap (h : envelope.payload.length < 2 ^ 32) :
    unwrap digest magic (envelope.wrap digest magic) = some envelope := by
  have hsize : (BitVec.ofNat 32 envelope.payload.length).toNat = envelope.payload.length := by
    rw [BitVec.toNat_ofNat, Nat.mod_eq_of_lt h]
  rw [unwrap, whole_eq_some, read, wrap, encode, raw_bind rfl, require_bind rfl, field_bind,
    field_bind, field_bind, raw_bind (Vector.length_toList ..),
    bind_run (takeRest_eq_ok.mpr ⟨rfl, rfl⟩), require_bind ⟨hsize, rfl⟩]
  rfl

end Envelope

end Duris
