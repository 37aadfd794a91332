import Iroh.Common.GoMap
import Iroh.Blobs.Serve

/-!
# The filesystem store

Reference: `blobs/fsstore.go`, `blobs/tags.go`, `blobs/hash.go`.

The store is a directory of data files, a directory of outboards, and the tags in memory.  A
directory is its listing: entries by name, each a file or another directory.  A file may be there and
still not be readable.

The iteration order of the tag maps is the order of their lists, so what holds for every store holds
for every iteration order.
-/

namespace Iroh.Blobs

/-! ## Hashes as text -/

def hexDigit (n : ℕ) : Char := "0123456789abcdef".toList.getD n '0'

def hexEncode (b : Bytes) : String :=
  String.ofList (b.flatMap fun x => [hexDigit (x.toNat / 16), hexDigit (x.toNat % 16)])

def hexValue (c : Char) : Option ℕ :=
  if '0' ≤ c ∧ c ≤ '9' then some (c.toNat - '0'.toNat)
  else if 'a' ≤ c ∧ c ≤ 'f' then some (c.toNat - 'a'.toNat + 10)
  else if 'A' ≤ c ∧ c ≤ 'F' then some (c.toNat - 'A'.toNat + 10)
  else none

def hexDecode : List Char → Option Bytes
  | [] => some []
  | [_] => none
  | a :: b :: rest => do
      let hi ← hexValue a
      let lo ← hexValue b
      let l ← hexDecode rest
      return UInt8.ofNat (16 * hi + lo) :: l

def Hash.string (h : Hash) : String := hexEncode h.toList

/-- `ParseHash`.  `base32` is `base32NoPad.DecodeString` after `strings.ToUpper`. -/
def parseHash (base32 : String → Option Bytes) (s : String) : Option Hash := do
  let b ← if s.utf8ByteSize = 64 then hexDecode s.toList else base32 s
  if b.length ≠ 32 then none else return Vector.ofFn fun i : Fin 32 => b.getD i 0

lemma hexValue_hexDigit (h : n < 16) : hexValue (hexDigit n) = some n := by
  have key : ∀ m : Fin 16, hexValue (hexDigit m) = some m.val := by decide
  exact key ⟨n, h⟩

lemma utf8Size_hexDigit (h : n < 16) : (hexDigit n).utf8Size = 1 := by
  have key : ∀ m : Fin 16, (hexDigit m).utf8Size = 1 := by decide
  exact key ⟨n, h⟩

lemma hexEncode_cons (x : UInt8) (b : Bytes) : (hexEncode (x :: b)).toList =
      hexDigit (x.toNat / 16) :: hexDigit (x.toNat % 16) :: (hexEncode b).toList := by
  simp [hexEncode]

lemma utf8ByteSize_hexEncode (b : Bytes) : (hexEncode b).utf8ByteSize = 2 * b.length := by
  induction b with
  | nil => rfl
  | cons x b ih =>
    have hx := x.toNat_lt
    have hcons : hexEncode (x :: b) = String.singleton (hexDigit (x.toNat / 16)) ++
        (String.singleton (hexDigit (x.toNat % 16)) ++ hexEncode b) := by
      unfold hexEncode
      rw [List.flatMap_cons, List.cons_append, List.cons_append, List.nil_append,
        String.ofList_cons, String.ofList_cons]
    rw [hcons, String.utf8ByteSize_append, String.utf8ByteSize_append,
      String.utf8ByteSize_singleton, String.utf8ByteSize_singleton, utf8Size_hexDigit (by omega),
      utf8Size_hexDigit (Nat.mod_lt _ (by decide)), List.length_cons]
    omega

lemma hexDecode_hexEncode (b : Bytes) : hexDecode (hexEncode b).toList = some b := by
  induction b with
  | nil => rfl
  | cons x b ih =>
    have hx := x.toNat_lt
    have hbyte : UInt8.ofNat (16 * (x.toNat / 16) + x.toNat % 16) = x := by
      rw [Nat.div_add_mod, UInt8.ofNat_toNat]
    rw [hexEncode_cons, hexDecode, hexValue_hexDigit (by omega),
      hexValue_hexDigit (Nat.mod_lt _ (by decide)), ih]
    exact congrArg (fun y => some (y :: b)) hbyte

lemma parseHash_string (base32 : String → Option Bytes) (h : Hash) :
    parseHash base32 h.string = some h := by
  have hlength : h.toList.length = 32 := length_toList32 h
  have hsize : h.string.utf8ByteSize = 64 := by
    rw [Hash.string, utf8ByteSize_hexEncode, hlength]
  simp only [parseHash, if_pos hsize]
  rw [Hash.string, hexDecode_hexEncode]
  simp

def emptyHash : Hash := blake3Empty

/-- The hash of `abc`. -/
def abcRoot : Hash :=
  #v[100, 55, 179, 172, 56, 70, 81, 51, 255, 182, 59, 117, 39, 58, 141, 181, 72, 197, 88, 70, 93, 121,
    219, 3, 253, 53, 156, 108, 213, 189, 157, 133]

/-! ## The store -/

/-- `hash.go::BlobFormat`, an integer of which two values have names. -/
inductive BlobFormat where
  | raw
  | hashSeq
  | other (n : ℕ)
deriving DecidableEq

structure HashAndFormat where
  hash : Hash
  format : BlobFormat
deriving DecidableEq

inductive DirEntry where
  | dir
  | file (content : Bytes) (readable : Bool)
deriving DecidableEq

def DirEntry.isDir : DirEntry → Bool
  | .dir => true
  | .file _ _ => false

/-- A directory, as `os.ReadDir` lists it. -/
abbrev Dir := GoMap String DirEntry

/-- `fsstore.go::FSStore`: its two directories and its tags. -/
structure FSStore where
  data : Dir
  bao : Dir
  tags : GoMap String HashAndFormat
  temp : GoMap ℕ HashAndFormat

namespace FSStore

/-- `os.ReadFile(s.dataPath(hash))`. -/
def readData (s : FSStore) (hash : Hash) : Option Bytes :=
  match s.data.get? hash.string with
  | some (.file content true) => some content
  | _ => none

def content (s : FSStore) (hash : Hash) : Option Bytes :=
  match s.data.get? hash.string with
  | some (.file content _) => some content
  | _ => none

end FSStore

def sequenceOf (b : Option Bytes) : List Hash :=
  match b with
  | none => []
  | some b => match parseHashSequence b with
    | .ok seq => seq
    | .error _ => []

end Iroh.Blobs
