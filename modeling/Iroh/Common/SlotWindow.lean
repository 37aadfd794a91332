import Mathlib.Algebra.GroupWithZero.Nat
import Mathlib.Algebra.Order.BigOperators.Group.List
import Mathlib.Algebra.Order.Group.Nat
import Mathlib.Data.List.Sort

/-!
# Numbered slots

A window of consecutive numbers is a list of slots and the number of the first; a slot is empty once
its element is gone.  Elements are added at the end, taken out anywhere, and the empty slots at the
start are cut off from time to time.  `slotEntries` reads the window as the list of its elements with
their numbers; the lemmas say what each operation does to that list.
-/

namespace Iroh

open List

universe u

variable {α : Type u}

/-- The elements of slots numbered from `n` on. -/
def slotEntries : ℕ → List (Option α) → List (ℕ × α)
  | _, [] => []
  | n, none :: slots => slotEntries (n + 1) slots
  | n, some a :: slots => (n, a) :: slotEntries (n + 1) slots

/-- How many slots at the start are empty. -/
def leadingEmpty : List (Option α) → ℕ
  | none :: slots => leadingEmpty slots + 1
  | _ => 0

lemma slotEntries_eq (n : ℕ) (slots : List (Option α)) :
    slotEntries n slots = (slots.zipIdx n).filterMap fun s => s.1.map (s.2, ·) := by
  induction slots generalizing n with
  | nil => rfl
  | cons slot slots ih =>
    cases slot with
    | none => exact ih (n + 1)
    | some a => exact congrArg ((n, a) :: ·) (ih (n + 1))

lemma slotEntries_append (n : ℕ) (slots slots' : List (Option α)) : slotEntries n (slots ++ slots') =
      slotEntries n slots ++ slotEntries (n + slots.length) slots' := by
  simp [slotEntries_eq, zipIdx_append]

variable {n : ℕ} {slots : List (Option α)} {e : ℕ × α} {β : Type u}

lemma mem_slotEntries : e ∈ slotEntries n slots ↔ n ≤ e.1 ∧ slots[e.1 - n]? = some (some e.2) := by
  rw [slotEntries_eq, mem_filterMap, ← mk_mem_zipIdx_iff_le_and_getElem?_sub]
  constructor
  · rintro ⟨⟨slot, i⟩, hmem, hslot⟩
    obtain ⟨a, rfl, rfl⟩ := Option.map_eq_some_iff.mp hslot
    exact hmem
  · exact fun hmem => ⟨(some e.2, e.1), hmem, rfl⟩

lemma slotEntries_bounds (he : e ∈ slotEntries n slots) : n ≤ e.1 ∧ e.1 < n + slots.length := by
  obtain ⟨hle, hslot⟩ := mem_slotEntries.mp he
  have hlt := (List.getElem?_eq_some_iff.mp hslot).1
  omega

lemma slotEntries_pairwise (n : ℕ) (slots : List (Option α)) :
    (slotEntries n slots).Pairwise fun e e' => e.1 < e'.1 := by
  induction slots generalizing n with
  | nil => exact .nil
  | cons slot slots ih =>
    cases slot with
    | none => exact ih (n + 1)
    | some a =>
      refine pairwise_cons.mpr ⟨fun e he => ?_, ih (n + 1)⟩
      have hbounds := slotEntries_bounds he
      omega

lemma eq_of_mem_slotEntries {e' : ℕ × α} (he : e ∈ slotEntries n slots)
    (he' : e' ∈ slotEntries n slots) (hnum : e.1 = e'.1) : e = e' := by
  have hslot := (mem_slotEntries.mp he).2
  rw [hnum, (mem_slotEntries.mp he').2] at hslot
  exact Prod.ext hnum (Option.some.inj (Option.some.inj hslot)).symm

lemma slotEntries_set_none (n i : ℕ) (slots : List (Option α)) :
    slotEntries n (slots.set i none) = (slotEntries n slots).filter fun e => e.1 ≠ n + i := by
  refine (slotEntries_pairwise n _).eq_of_mem_iff ((slotEntries_pairwise n slots).filter _)
    fun e => ?_
  rw [mem_filter, mem_slotEntries, mem_slotEntries, getElem?_set]
  grind

lemma slotEntries_drop_leadingEmpty (n : ℕ) (slots : List (Option α)) :
    slotEntries (n + leadingEmpty slots) (slots.drop (leadingEmpty slots)) = slotEntries n slots := by
  induction slots generalizing n with
  | nil => rfl
  | cons slot slots ih =>
    cases slot with
    | none =>
      have htail := ih (n + 1)
      rw [leadingEmpty]
      have hshift : n + (leadingEmpty slots + 1) = n + 1 + leadingEmpty slots := by omega
      rw [hshift]
      exact htail
    | some a => rfl

lemma drop_leadingEmpty_ne_none (slots rest : List (Option α)) :
    slots.drop (leadingEmpty slots) ≠ none :: rest := by
  induction slots with
  | nil => simp
  | cons slot slots ih =>
    cases slot with
    | none => exact ih
    | some a => simp [leadingEmpty]

lemma leadingEmpty_le (slots : List (Option α)) : leadingEmpty slots ≤ slots.length := by
  induction slots with
  | nil => exact Nat.le_refl 0
  | cons slot slots ih =>
    cases slot with
    | none => exact Nat.succ_le_succ ih
    | some a => exact Nat.zero_le _

/-! ## Weights -/

def totalBy {β : Type u} (w : β → ℕ) : List β → ℕ
  | [] => 0
  | b :: l => w b + totalBy w l

lemma totalBy_eq_sum (w : β → ℕ) (l : List β) : totalBy w l = (l.map w).sum := by
  induction l with
  | nil => rfl
  | cons b l ih => rw [totalBy, ih, map_cons, sum_cons]

lemma totalBy_append (w : β → ℕ) (l l' : List β) :
    totalBy w (l ++ l') = totalBy w l + totalBy w l' := by
  simp [totalBy_eq_sum]

lemma totalBy_congr {w w' : β → ℕ} {l : List β} (h : ∀ b ∈ l, w b = w' b) :
    totalBy w l = totalBy w' l := by
  rw [totalBy_eq_sum, totalBy_eq_sum, map_congr_left h]

lemma totalBy_filter (w : β → ℕ) (p : β → Bool) (l : List β) :
    totalBy w (l.filter p) = totalBy (fun b => if p b then w b else 0) l := by
  induction l with
  | nil => rfl
  | cons b l ih =>
    rw [filter_cons, totalBy]
    by_cases hb : p b = true
    · rw [if_pos hb, if_pos hb, totalBy, ih]
    · rw [if_neg hb, if_neg hb, ih, Nat.zero_add]

lemma totalBy_lt {w w' : β → ℕ} {l : List β} (h : ∀ b ∈ l, w b ≤ w' b) {b : β} (hb : b ∈ l)
    (hlt : w b < w' b) : totalBy w l < totalBy w' l := by
  rw [totalBy_eq_sum, totalBy_eq_sum]
  exact sum_lt_sum w w' h ⟨b, hb, hlt⟩

lemma totalBy_filter_ne (w : ℕ × α → ℕ) {l : List (ℕ × α)} (hl : l.Pairwise fun e e' => e.1 < e'.1)
    (he : e ∈ l) : totalBy w (l.filter fun e' => e'.1 ≠ e.1) + w e = totalBy w l := by
  induction l with
  | nil => cases he
  | cons b l ih =>
    obtain ⟨hb, hl⟩ := pairwise_cons.mp hl
    rw [filter_cons, totalBy]
    rcases mem_cons.mp he with rfl | he
    · -- the others have higher numbers
      have hrest : (l.filter fun e' => decide (e'.1 ≠ e.1)) = l := by
        refine filter_eq_self.mpr fun e' he' => ?_
        have hlt := hb e' he'
        simp only [decide_eq_true_eq]
        omega
      rw [if_neg (by simp), hrest]
      omega
    · have hlt := hb e he
      have hrest := ih hl he
      rw [if_pos (by simp only [decide_eq_true_eq]; omega), totalBy]
      omega

end Iroh
