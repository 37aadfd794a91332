import Iroh.Common.Bytes
import Mathlib

/-!
# Signed packets

Reference: `internal/pkarr` (`pkarr.go`, `dns.go`), `key/key.go` (`Z32`, `ParseEndpointIDZ32`).

Strings are byte strings.  A DNS message on the wire is given as what it says: the library is a faithful
codec, whose packing fails on a character-string of more than 255 bytes and on a name with a label of no
bytes or more than 63.  What else the packets need of libraries is `Lib`.
-/

namespace Iroh.Dns

def ascii (s : String) : Bytes := s.toList.map fun c => .ofNat c.toNat

def zBase32Alphabet : Bytes := ascii "ybndrfg8ejkmcpqxot1uwisza345h769"

def joinDigits (base width : ℕ) (digits : List ℕ) : ℕ :=
  digits.foldl (fun v d => v * base + d) 0 * base ^ (width - digits.length)

/-- The first `n` of `width` digits. -/
def splitDigits (base width n v : ℕ) : List ℕ :=
  (List.range n).map fun i => v / base ^ (width - 1 - i) % base

def decodeQuantum (symbols : List ℕ) : Bytes :=
  (splitDigits 256 5 ([0, 0, 1, 0, 2, 3, 0, 4, 5].getD symbols.length 0) (joinDigits 32 8 symbols)).map .ofNat

def decodeQuanta : List ℕ → Bytes
  | a :: b :: c :: d :: e :: f :: g :: h :: rest => decodeQuantum [a, b, c, d, e, f, g, h] ++ decodeQuanta rest
  | symbols => decodeQuantum symbols

/-- `decodeZBase32`, as `encoding/base32` does it: line breaks are skipped, and the bits of the last symbol
that make no byte are ignored. -/
def decodeZBase32 (s : Bytes) : Option Bytes :=
  let symbols := s.filter fun b => b ≠ 10 ∧ b ≠ 13
  if symbols.all (· ∈ zBase32Alphabet) then some (decodeQuanta (symbols.map zBase32Alphabet.idxOf)) else none

def encodeQuantum (bytes : Bytes) : Bytes :=
  (splitDigits 32 8 ([0, 2, 4, 5, 7, 8].getD bytes.length 0) (joinDigits 256 5 (bytes.map UInt8.toNat))).map
    (zBase32Alphabet.getD · 0)

def encodeZBase32 : Bytes → Bytes
  | a :: b :: c :: d :: e :: rest => encodeQuantum [a, b, c, d, e] ++ encodeZBase32 rest
  | bytes => encodeQuantum bytes

def typeTXT : ℕ := 16

def classINET : ℕ := 1

structure Question where
  name : Bytes
  type : ℕ
  cls : ℕ
deriving DecidableEq

/-- A resource record; `txt` has the character-strings of a TXT record. -/
structure Resource where
  name : Bytes
  type : ℕ
  cls : ℕ
  ttl : ℕ
  txt : List Bytes
deriving DecidableEq

structure Message where
  id : ℕ
  response : Bool
  authoritative : Bool
  recursionDesired : Bool
  rcode : ℕ
  questions : List Question
  answers : List Resource
deriving DecidableEq

def Message.txtAnswers (m : Message) : List (Bytes × Bytes) :=
  (m.answers.filter (·.type = typeTXT)).map fun r => (r.name, r.txt.flatten)

/-! ## Packets -/

/-- The libraries: which bytes are a point of the curve, ed25519, and the parser of DNS messages. -/
structure Lib where
  valid : Bytes32 → Bool
  verify : Bytes32 → Bytes → Bytes → Bool
  unpack : Bytes → Option Message

/-- `PublicKeyFromSlice`. -/
def Lib.publicKey (L : Lib) (b : Bytes) : Option Bytes32 :=
  if h : b.length = 32 then if L.valid ⟨b.toArray, h⟩ then some ⟨b.toArray, h⟩ else none else none

def Lib.parseEndpointIDZ32 (L : Lib) (s : Bytes) : Option Bytes32 := (decodeZBase32 s).bind L.publicKey

/-- `SignedPacket`, by its parts. -/
structure SignedPacket where
  publicKey : Bytes32
  signature : Bytes
  timestamp : ℕ
  encodedPacket : Bytes
deriving DecidableEq

def signable (timestamp : ℕ) (v : Bytes) : Bytes :=
  ascii "3:seqi" ++ ascii (toString timestamp) ++ ascii "e1:v" ++ ascii (toString v.length) ++ ascii ":" ++ v

def Lib.fromBytes (L : Lib) (b : Bytes) : Option SignedPacket := do
  guard (104 ≤ b.length ∧ b.length ≤ 1104)
  let publicKey ← L.publicKey (b.take 32)
  let signature := (b.drop 32).take 64
  let timestamp := ((b.drop 96).take 8).foldl (fun v x => v * 256 + x.toNat) 0
  let encoded := b.drop 104
  guard (L.verify publicKey (signable timestamp encoded) signature)
  let _ ← L.unpack encoded
  return ⟨publicKey, signature, timestamp, encoded⟩

def Lib.packetFromRelayPayload (L : Lib) (keyLabel payload : Bytes) : Option SignedPacket :=
  (L.parseEndpointIDZ32 keyLabel).bind fun id => L.fromBytes (id.toList ++ payload)

namespace SignedPacket

def moreRecentThan (p other : SignedPacket) : Bool :=
  if p.timestamp = other.timestamp then bytesCompare p.encodedPacket other.encodedPacket = .gt
  else p.timestamp > other.timestamp

/-- `strings.TrimSuffix(s, ".")`. -/
def trimDot (s : Bytes) : Bytes := if s.getLast? = some 46 then s.dropLast else s

def normalizeName (origin name : Bytes) : Bytes :=
  let name := trimDot name
  let last := (name.splitOn 46).getLastD []
  if last = origin then name
  else if last = ascii "@" ∨ last = [] then origin
  else name ++ 46 :: origin

/-- `withoutZone`, of a name in the zone. -/
def withoutZone (name origin : Bytes) : Option Bytes :=
  if name = origin then some []
  else if (46 :: origin) <:+ name then some (name.take (name.length - (origin.length + 1)))
  else none

def txtRecords (L : Lib) (p : SignedPacket) (name : Bytes) : List Bytes :=
  let origin := encodeZBase32 p.publicKey.toList
  match L.unpack p.encodedPacket with
  | none => []
  | some m => (m.txtAnswers.filter fun r => trimDot r.1 = normalizeName origin name ∨
      withoutZone (trimDot r.1) origin = some (trimDot name)).map Prod.snd

end SignedPacket

end Iroh.Dns
