import Mathlib.Order.Nat
import Mathlib.Tactic.Common

/-!
# `sort.Search`

Go's binary search for the smallest index at which a predicate holds, given that the predicate stays
true once it is.  `sortSearch_spec` is all a caller needs: below the result the predicate fails, from
the result on it holds.
-/

namespace Iroh

open List

/-- The loop of `sort.Search`: the answer lies in `[i, j]`. -/
def sortSearchLoop (f : ℕ → Bool) (i j : ℕ) : ℕ :=
  if h : i < j then
    let m := (i + j) / 2
    if !f m then sortSearchLoop f (m + 1) j else sortSearchLoop f i m
  else i
termination_by j - i
decreasing_by all_goals omega

/-- `sort.Search`. -/
def sortSearch (n : ℕ) (f : ℕ → Bool) : ℕ := sortSearchLoop f 0 n

lemma sortSearchLoop_spec {f : ℕ → Bool} {n : ℕ}
    (hmono : ∀ a b, a ≤ b → b < n → f a = true → f b = true) (i j : ℕ) (hij : i ≤ j) (hjn : j ≤ n)
    (hlow : ∀ k < i, f k = false) (hhigh : ∀ k, j ≤ k → k < n → f k = true) :
    sortSearchLoop f i j ≤ n ∧ (∀ k < sortSearchLoop f i j, f k = false) ∧
      ∀ k, sortSearchLoop f i j ≤ k → k < n → f k = true := by
  fun_induction sortSearchLoop f i j with
  | case1 i j h m hm ih =>
    -- the predicate fails at the middle, hence below it
    have hfm : f m = false := by simpa using hm
    refine ih (by omega) hjn (fun k hk => ?_) hhigh
    by_contra hne
    have htrue := hmono k m (by omega) (by omega) (by simpa using hne)
    simp [hfm] at htrue
  | case2 i j h m hm ih =>
    have hfm : f m = true := by simpa using hm
    exact ih (by omega) (by omega) hlow fun k hmk hkn => hmono m k hmk hkn hfm
  | case3 i j h =>
    have heq : i = j := by omega
    subst heq
    exact ⟨hjn, hlow, hhigh⟩

lemma sortSearch_spec {n : ℕ} {f : ℕ → Bool} (hmono : ∀ a b, a ≤ b → b < n → f a = true → f b = true) :
    sortSearch n f ≤ n ∧ (∀ k < sortSearch n f, f k = false) ∧
      ∀ k, sortSearch n f ≤ k → k < n → f k = true :=
  sortSearchLoop_spec hmono 0 n (Nat.zero_le n) le_rfl (fun _ hk => absurd hk (Nat.not_lt_zero _))
    fun _ hnk hkn => absurd hkn (not_lt.mpr hnk)

lemma take_sortSearch {α : Type*} {l : List α} {p : α → Bool} {f : ℕ → Bool}
    (hf : ∀ i (h : i < l.length), f i = p l[i]) (hl : l.Pairwise fun a b => p a = true → p b = true) :
    l.take (sortSearch l.length f) = l.filter (fun a => !p a) ∧
      l.drop (sortSearch l.length f) = l.filter p := by
  have hmono : ∀ a b, a ≤ b → b < l.length → f a = true → f b = true := by
    intro a b hab hb ha
    rcases hab.eq_or_lt with rfl | hlt
    · exact ha
    · rw [hf b hb]
      rw [hf a (by omega)] at ha
      exact pairwise_iff_getElem.mp hl a b (by omega) hb hlt ha
  obtain ⟨hle, hbelow, habove⟩ := sortSearch_spec hmono
  set m := sortSearch l.length f
  have htake : ∀ a ∈ l.take m, p a = false := by
    intro a ha
    obtain ⟨i, hi, rfl⟩ := mem_take_iff_getElem.mp ha
    rw [← hf i (by omega)]
    exact hbelow i (by omega)
  have hdrop : ∀ a ∈ l.drop m, p a = true := by
    intro a ha
    obtain ⟨i, hi, rfl⟩ := mem_drop_iff_getElem.mp ha
    rw [← hf (m + i) (by omega)]
    exact habove (m + i) (by omega) (by omega)
  have hsplit : l = l.take m ++ l.drop m := (take_append_drop m l).symm
  constructor
  · conv_rhs => rw [hsplit, filter_append]
    rw [filter_eq_self.mpr (by simpa using htake),
      filter_eq_nil_iff.mpr (by simpa using hdrop), append_nil]
  · conv_rhs => rw [hsplit, filter_append]
    rw [filter_eq_nil_iff.mpr (by simpa using htake), filter_eq_self.mpr hdrop, nil_append]

end Iroh
