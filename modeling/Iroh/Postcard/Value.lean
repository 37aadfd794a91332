import Iroh.Postcard.Decoder

/-!
# Postcard values

Reference: `internal/postcard/postcard.go`.

`Marshal` and `Unmarshal` go by reflection over the type of their argument.  A `Ty` is such a type, for
the kinds that postcard supports without a method of their own, and `Ty.Value` are its values: integers
that fit their width, arrays of the declared length, slices of at most `math.MaxInt` elements.  A slice
can be nil, and a string is its bytes.

The source copies arrays and slices of bytes as they are and goes through the elements of all others;
so do `Encoder.elems` and `Decoder.elems`.
-/

namespace Iroh.Postcard

def maxInt : ℕ := 2 ^ 63 - 1

/-- The values of an unsigned integer type, among those of `uint64`. -/
def Width.FitsUint (w : Width) (x : UInt64) : Prop := x.toNat < 2 ^ w.bits

/-- The values of a signed integer type, among those of `int64`. -/
def Width.FitsInt (w : Width) (x : Int64) : Prop :=
  -2 ^ (w.bits - 1) ≤ x.toInt ∧ x.toInt < 2 ^ (w.bits - 1)

instance Width.decidableFitsUint (w : Width) (x : UInt64) : Decidable (w.FitsUint x) :=
  inferInstanceAs (Decidable (_ < _))

instance Width.decidableFitsInt (w : Width) (x : Int64) : Decidable (w.FitsInt x) :=
  inferInstanceAs (Decidable (_ ∧ _))

structure Elems (α : Type) where
  toList : List α
  length_le : toList.length ≤ maxInt

mutual

inductive Ty where
  | bool
  | u8
  | i8
  | uint (w : Width)
  | int (w : Width)
  | string
  | array (n : ℕ) (elem : Ty)
  | slice (elem : Ty)
  | pointer (elem : Ty)
  | struct (fields : Fields)

inductive Fields where
  | nil
  | cons (head : Ty) (tail : Fields)

end

mutual

def Ty.Value : Ty → Type
  | .bool => Bool
  | .u8 => UInt8
  | .i8 => Int8
  | .uint w => { x : UInt64 // w.FitsUint x }
  | .int w => { x : Int64 // w.FitsInt x }
  | .string => ByteString
  | .array n t => List.Vector t.Value n
  | .slice t => Option (Elems t.Value)
  | .pointer t => Option t.Value
  | .struct fs => fs.Values

def Fields.Values : Fields → Type
  | .nil => Unit
  | .cons t ts => t.Value × ts.Values

end

/-! ## Encoding -/

def Encoder.slice {α : Type} (elems : List α → Bytes) : Option (Elems α) → Bytes
  | none => varint 0
  | some s => varint s.toList.length ++ elems s.toList

def Encoder.pointer {α : Type} (value : α → Bytes) : Option α → Bytes
  | none => [0]
  | some v => [1] ++ value v

def Encoder.elems : (t : Ty) → (t.Value → Bytes) → List t.Value → Bytes
  | .u8, _, l => l
  | _, enc, l => l.flatMap enc

mutual

def Encoder.value : (t : Ty) → t.Value → Bytes
  | .bool, v => bool v
  | .u8, v => [v]
  | .i8, v => [v.toUInt8]
  | .uint _, v => varint v.val.toNat
  | .int _, v => int v.val
  | .string, v => bytesValue v.val
  | .array _ t, v => Encoder.elems t (Encoder.value t) v.toList
  | .slice t, v => Encoder.slice (Encoder.elems t (Encoder.value t)) v
  | .pointer t, v => Encoder.pointer (Encoder.value t) v
  | .struct fs, v => Encoder.fields fs v

/-- `Encoder.value`'s loop over the fields of a struct. -/
def Encoder.fields : (fs : Fields) → fs.Values → Bytes
  | .nil, _ => []
  | .cons t ts, v => Encoder.value t v.1 ++ Encoder.fields ts v.2

end

def marshal (t : Ty) (v : t.Value) : Bytes := Encoder.value t v

/-! ## Decoding -/

def Decoder.uintOf (w : Width) : Decoder { x : UInt64 // w.FitsUint x } := do
  let x ← Decoder.uint
  if h : w.FitsUint x then return ⟨x, h⟩ else throw (.overflowsUint x w)

def Decoder.intOf (w : Width) : Decoder { x : Int64 // w.FitsInt x } := do
  let i ← Decoder.int
  if h : w.FitsInt i then return ⟨i, h⟩ else throw (.overflowsInt i w)

def Decoder.elems : (t : Ty) → Decoder t.Value → (n : ℕ) → Decoder (List.Vector t.Value n)
  | .u8, _, n => Decoder.rawBytes n
  | _, dec, n => dec.vector n

/-- The checks of the length of a slice: an `int`, and not more than the bytes that are left. -/
def Decoder.checkLen (n : UInt64) : Decoder { n : ℕ // n ≤ maxInt } := fun b =>
  if h : n.toNat > maxInt then .error .sequenceTooLarge b
  else if n.toNat > b.length then .error .short b
  else .ok ⟨n.toNat, Nat.not_lt.mp h⟩ b

def Decoder.slice {α : Type} (elems : (n : ℕ) → Decoder (List.Vector α n)) :
    Decoder (Option (Elems α)) := do
  let x ← Decoder.uint
  let n ← Decoder.checkLen x
  let v ← elems n.val
  return some ⟨v.toList, v.toList_length.trans_le n.property⟩

def Decoder.pointer {α : Type} (value : Decoder α) : Decoder (Option α) := do
  let ok ← Decoder.option
  if ok then
    let v ← value
    return some v
  else return none

mutual

/-- `Decoder.value`, into a variable that holds no pointers yet. -/
def Decoder.value (utf8Valid : Bytes → Bool) : (t : Ty) → Decoder t.Value
  | .bool => Decoder.bool
  | .u8 => Decoder.byte
  | .i8 => Decoder.int8
  | .uint w => Decoder.uintOf w
  | .int w => Decoder.intOf w
  | .string => Decoder.string utf8Valid
  | .array n t => Decoder.elems t (Decoder.value utf8Valid t) n
  | .slice t => Decoder.slice (Decoder.elems t (Decoder.value utf8Valid t))
  | .pointer t => Decoder.pointer (Decoder.value utf8Valid t)
  | .struct fs => Decoder.fields utf8Valid fs

/-- `Decoder.value`'s loop over the fields of a struct. -/
def Decoder.fields (utf8Valid : Bytes → Bool) : (fs : Fields) → Decoder fs.Values
  | .nil => return ()
  | .cons t ts => do
      let v ← Decoder.value utf8Valid t
      let vs ← Decoder.fields utf8Valid ts
      return (v, vs)

end

def unmarshal (utf8Valid : Bytes → Bool) (t : Ty) (data : Bytes) : Except DecodeError t.Value :=
  match Decoder.value utf8Valid t data with
  | .error e _ => .error e
  | .ok v rest => if rest ≠ [] then .error .trailingBytes else .ok v

end Iroh.Postcard
