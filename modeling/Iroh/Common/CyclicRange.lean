import Mathlib.Data.List.Rotate
import Mathlib.Data.Prod.Lex
import Mathlib.Order.BooleanAlgebra.Basic

/-!
# Half-open ranges on a cycle

A linear order closes into a cycle: after the greatest elements come the least.  The range from `a`
to `b` starts at `a` and runs upwards, wrapping around if it must, up to but not including `b`; from
`a` back to `a` it is everything.

Reading the cycle from a base `a` gives a linear order again, `pos a`, in which `a` comes first.
-/

namespace Iroh

open List

variable {α : Type*} [LinearOrder α]

/-- `x` lies in the half-open range from `a` to `b`. -/
def Within (a b x : α) : Prop := a = b ∨ (a < b ∧ a ≤ x ∧ x < b) ∨ (b < a ∧ (a ≤ x ∨ x < b))

/-- The position of `x` on the cycle read from `a`. -/
def pos (a x : α) : Bool ×ₗ α := toLex (decide (x < a), x)

lemma pos_lt_pos {a x y : α} : pos a x < pos a y ↔ (a ≤ x ∧ y < a) ∨ ((a ≤ x ↔ a ≤ y) ∧ x < y) := by
  rw [pos, pos, Prod.Lex.toLex_lt_toLex]
  have hlt : ∀ p q : Bool, p < q ↔ p = false ∧ q = true := by decide
  grind

lemma pos_injective (a : α) : Function.Injective (pos a) := by
  intro x y h
  exact congrArg Prod.snd (toLex_inj.mp h)

lemma pos_self_le (a x : α) : pos a a ≤ pos a x := by
  rw [← not_lt, pos_lt_pos]
  grind

lemma within_iff_pos_lt {a b x : α} (h : a ≠ b) : Within a b x ↔ pos a x < pos a b := by
  rw [pos_lt_pos, Within]
  grind

lemma within_iff_of_pos_lt {a u v x : α} (h : pos a u < pos a v) :
    Within u v x ↔ pos a u ≤ pos a x ∧ pos a x < pos a v := by
  rw [← not_lt]
  rw [pos_lt_pos] at h ⊢
  rw [pos_lt_pos, Within]
  grind

lemma within_base_iff {a u x : α} (h : u ≠ a) : Within u a x ↔ pos a u ≤ pos a x := by
  rw [← not_lt, pos_lt_pos, Within]
  grind

lemma pos_lt_pos_of_rebase {a b x y : α} (hb : pos a b ≤ pos a x) (h : pos a x < pos a y) :
    pos b x < pos b y := by
  rw [← not_lt] at hb
  rw [pos_lt_pos] at hb h ⊢
  grind

lemma exists_between_of_lt {β : Type*} [LinearOrder β] (c : ℕ → β) (m : ℕ) {x : β}
    (h : x < c m) : x < c 0 ∨ ∃ i < m, c i ≤ x ∧ x < c (i + 1) := by
  induction m with
  | zero => exact Or.inl h
  | succ m ih =>
    rcases lt_or_ge x (c m) with hlt | hge
    · rcases ih hlt with h0 | ⟨i, hi, hbetween⟩
      · exact Or.inl h0
      · exact Or.inr ⟨i, by omega, hbetween⟩
    · exact Or.inr ⟨m, by omega, hge, h⟩

lemma exists_within_of_pos_lt {a x : α} (q : ℕ → α) (m : ℕ) (h : pos a x < pos a (q m)) :
    (a ≠ q 0 ∧ Within a (q 0) x) ∨ ∃ i < m, q i ≠ q (i + 1) ∧ Within (q i) (q (i + 1)) x := by
  rcases exists_between_of_lt (fun i => pos a (q i)) m h with h0 | ⟨i, hi, hle, hlt⟩
  · have hne : a ≠ q 0 := by
      intro heq
      exact absurd (pos_self_le a x) (not_le.mpr (heq ▸ h0))
    exact Or.inl ⟨hne, (within_iff_pos_lt hne).mpr h0⟩
  · have hpos : pos a (q i) < pos a (q (i + 1)) := hle.trans_lt hlt
    refine Or.inr ⟨i, hi, ?_, (within_iff_of_pos_lt hpos).mpr ⟨hle, hlt⟩⟩
    exact fun heq => hpos.ne (congrArg (pos a) heq)

def rotation (l : List α) (a : α) : ℕ :=
  if l.findIdx (a ≤ ·) = l.length then 0 else l.findIdx (a ≤ ·)

lemma rotate_sorted {l : List α} (hl : l.Pairwise (· < ·)) (a : α) :
    (l.rotate (rotation l a)).Pairwise fun x y => pos a x < pos a y := by
  set m := l.findIdx (a ≤ ·) with hm
  have hbelow : ∀ x ∈ l.take m, x < a := by
    intro x hx
    obtain ⟨i, hi, rfl⟩ := mem_take_iff_getElem.mp hx
    have hlt : i < l.findIdx (a ≤ ·) := by omega
    simpa using not_of_lt_findIdx hlt
  rcases eq_or_ne m l.length with hall | hlt
  · -- nothing lies at or above `a`: the list is read as it is
    have hrot : rotation l a = 0 := if_pos hall
    rw [hall, take_length] at hbelow
    rw [hrot, rotate_zero]
    refine hl.imp_of_mem ?_
    intro x y hx hy hxy
    have hxa := hbelow x hx
    have hya := hbelow y hy
    rw [pos_lt_pos]
    exact Or.inr ⟨iff_of_false hxa.not_ge hya.not_ge, hxy⟩
  · have hrot : rotation l a = m := if_neg hlt
    have hmlt : m < l.length := lt_of_le_of_ne findIdx_le_length hlt
    have habove : ∀ x ∈ l.drop m, a ≤ x := by
      have hfirst : a ≤ l[m] := by
        simpa using findIdx_getElem (p := (a ≤ ·)) (w := hmlt)
      intro x hx
      obtain ⟨i, hi, rfl⟩ := mem_drop_iff_getElem.mp hx
      rcases Nat.eq_zero_or_pos i with rfl | hpos
      · simpa using hfirst
      · have hlt := pairwise_iff_getElem.mp hl m (m + i) hmlt (by omega) (by omega)
        exact hfirst.trans hlt.le
    rw [hrot, rotate_eq_drop_append_take hmlt.le, pairwise_append]
    refine ⟨(hl.sublist (drop_sublist m l)).imp_of_mem ?_,
      (hl.sublist (take_sublist m l)).imp_of_mem ?_, ?_⟩
    · intro x y hx hy hxy
      rw [pos_lt_pos]
      exact Or.inr ⟨iff_of_true (habove x hx) (habove y hy), hxy⟩
    · intro x y hx hy hxy
      rw [pos_lt_pos]
      exact Or.inr ⟨iff_of_false (hbelow x hx).not_ge (hbelow y hy).not_ge, hxy⟩
    · intro x hx y hy
      rw [pos_lt_pos]
      exact Or.inl ⟨habove x hx, hbelow y hy⟩

end Iroh
