import Mathlib.Data.List.Lex
import Mathlib.Order.Compare

/-!
# Byte strings

Go's `[]byte` is a list of `UInt8` and `[32]byte` a vector of 32 of them.  `bytes.Compare` is the
lexicographic comparison of byte strings: Mathlib's order of lists, once bytes are a linear order.
-/

namespace Iroh

abbrev Bytes := List UInt8

/-- A Go `[32]byte`: hashes, public keys, peer and topic identifiers. -/
abbrev Bytes32 := Vector UInt8 32

instance lawfulBEqBytes32 : LawfulBEq Bytes32 := inferInstance

def blake3Empty : Bytes32 :=
  #v[175, 19, 73, 185, 245, 249, 161, 166, 160, 64, 77, 234, 54, 220, 201, 73, 155, 203, 37, 201, 173,
    193, 18, 183, 204, 154, 147, 202, 228, 31, 50, 98]

instance linearOrderUInt8 : LinearOrder UInt8 where
  le_refl := UInt8.le_refl
  le_trans _ _ _ := UInt8.le_trans
  le_antisymm _ _ := UInt8.le_antisymm
  le_total := UInt8.le_total
  lt_iff_le_not_ge a b := by
    rw [UInt8.not_le]
    exact ⟨fun h => ⟨UInt8.le_of_lt h, h⟩, fun h => h.2⟩
  toDecidableLE := inferInstance
  toDecidableEq := inferInstance
  toDecidableLT := inferInstance

instance linearOrderUInt64 : LinearOrder UInt64 where
  le_refl := UInt64.le_refl
  le_trans _ _ _ := UInt64.le_trans
  le_antisymm _ _ := UInt64.le_antisymm
  le_total := UInt64.le_total
  lt_iff_le_not_ge a b := by
    rw [UInt64.not_le]
    exact ⟨fun h => ⟨UInt64.le_of_lt h, h⟩, fun h => h.2⟩
  toDecidableLE := inferInstance
  toDecidableEq := inferInstance
  toDecidableLT := inferInstance

/-- Go's `bytes.Compare`: lexicographic, a proper prefix coming first. -/
def bytesCompare : Bytes → Bytes → Ordering
  | [], [] => .eq
  | [], _ :: _ => .lt
  | _ :: _, [] => .gt
  | a :: as, b :: bs => if a < b then .lt else if b < a then .gt else bytesCompare as bs

@[simp] lemma bytesCompare_eq_iff {a b : Bytes} : bytesCompare a b = .eq ↔ a = b := by
  induction a, b using bytesCompare.induct with
  | case4 a as b bs h => simp [bytesCompare, h, h.ne]
  | case5 a as b bs h h' => simp [bytesCompare, h, h', h'.ne']
  | case6 a as b bs h h' ih =>
    simp [bytesCompare, ih, le_antisymm (not_lt.mp h') (not_lt.mp h)]
  | _ => simp [bytesCompare]

@[simp] lemma bytesCompare_lt_iff {a b : Bytes} : bytesCompare a b = .lt ↔ a < b := by
  induction a, b using bytesCompare.induct with
  | case4 a as b bs h => simp [bytesCompare, h, List.cons_lt_cons_iff]
  | case5 a as b bs h h' => simp [bytesCompare, h', h'.ne', List.cons_lt_cons_iff]
  | case6 a as b bs h h' ih =>
    simp [bytesCompare, ih, le_antisymm (not_lt.mp h') (not_lt.mp h)]
  | _ => simp [bytesCompare]

@[simp] lemma bytesCompare_gt_iff {a b : Bytes} : bytesCompare a b = .gt ↔ b < a := by
  rw [← not_le, le_iff_lt_or_eq, ← bytesCompare_lt_iff, ← bytesCompare_eq_iff (a := a)]
  cases bytesCompare a b <;> simp

@[simp] lemma bytesCompare_isLE_iff {a b : Bytes} : (bytesCompare a b).isLE ↔ a ≤ b := by
  rw [← not_lt, ← bytesCompare_gt_iff]
  cases bytesCompare a b <;> simp

@[simp] lemma bytesCompare_isGE_iff {a b : Bytes} : (bytesCompare a b).isGE ↔ b ≤ a := by
  rw [← not_lt, ← bytesCompare_lt_iff]
  cases bytesCompare a b <;> simp

lemma toList_inj32 {a b : Bytes32} : a.toList = b.toList ↔ a = b := by
  constructor
  · intro h
    exact Vector.toArray_inj.mp (Array.toList_inj.mp h)
  · rintro rfl; rfl

@[simp] lemma length_toList32 (a : Bytes32) : a.toList.length = 32 := by
  simp

end Iroh
