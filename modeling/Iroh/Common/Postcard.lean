import Iroh.Common.Bytes

/-!
# Postcard primitives

Reference: `internal/postcard/postcard.go`.

The byte-level encoders the wire types are assembled from.  An encoder is the bytes it appends.
-/

namespace Iroh.Postcard

/-- `appendVarint`: little-endian base 128, a set high bit marking a continuation byte. -/
def varint (v : ℕ) : Bytes :=
  if v < 0x80 then [UInt8.ofNat v] else UInt8.ofNat (v % 0x80 + 0x80) :: varint (v / 0x80)
termination_by v
decreasing_by omega

/-- `Encoder.BytesValue`: length prefix and bytes. -/
def bytesValue (b : Bytes) : Bytes := varint b.length ++ b

def bool (v : Bool) : Bytes := [if v then 1 else 0]

def slice {α : Type*} (enc : α → Bytes) (l : List α) : Bytes := varint l.length ++ l.flatMap enc

end Iroh.Postcard
