import Iroh.Common.GoMap
import Mathlib.Data.Int.Notation

/-!
# Sums over Go maps

`GoMap.sum` adds up a number for each entry of a map, whatever the iteration order.  Storing and
deleting change it by the numbers of the entries involved.
-/

namespace Iroh

open List

universe u v

namespace GoMap

section Sum

variable {κ : Type u} {α : Type v}

def sum (m : GoMap κ α) (f : κ → α → ℤ) : ℤ := m.toList.foldr (fun e n => f e.1 e.2 + n) 0

lemma foldr_add_perm {l l' : List (κ × α)} (h : l.Perm l') (f : κ → α → ℤ) :
    l.foldr (fun e n => f e.1 e.2 + n) 0 = l'.foldr (fun e n => f e.1 e.2 + n) 0 := by
  refine h.foldr_eq' (fun _ _ _ _ n => ?_) 0
  omega

lemma sum_zero (m : GoMap κ α) : (m.sum fun _ _ => 0) = 0 := by
  unfold sum
  induction m.toList with
  | nil => rfl
  | cons e l ih => rw [foldr_cons, ih, Int.add_zero]

lemma sum_sub (m : GoMap κ α) (f g : κ → α → ℤ) :
    (m.sum fun k v => f k v - g k v) = m.sum f - m.sum g := by
  unfold sum
  induction m.toList with
  | nil => rfl
  | cons e l ih =>
    simp only [foldr_cons, ih]
    omega

lemma sum_nonneg (m : GoMap κ α) {f : κ → α → ℤ} (hf : ∀ k v, 0 ≤ f k v) : 0 ≤ m.sum f := by
  unfold sum
  induction m.toList with
  | nil => exact Int.le_refl _
  | cons e l ih =>
    have := hf e.1 e.2
    rw [foldr_cons]
    omega

variable [DecidableEq κ]

lemma perm_delete {m : GoMap κ α} {k : κ} {v : α} (h : m.get? k = some v) :
    m.toList.Perm ((k, v) :: (m.delete k).toList) := by
  have hnodup : ∀ m : GoMap κ α, m.toList.Nodup := fun m => m.nodup.of_map
  have hnot : (k, v) ∉ (m.delete k).toList := by
    rw [← get?_eq_some, get?_delete, if_pos rfl]
    exact nofun
  refine (perm_ext_iff_of_nodup (hnodup m) (nodup_cons.mpr ⟨hnot, hnodup _⟩)).mpr ?_
  rintro ⟨k', v'⟩
  rw [mem_cons, ← get?_eq_some, ← get?_eq_some]
  by_cases hk : k' = k
  · subst hk
    simp [h, eq_comm]
  · simp [hk]

variable (m : GoMap κ α) (k : κ)

lemma sum_delete (f : κ → α → ℤ) : (m.delete k).sum f = m.sum f - ((m.get? k).map (f k)).getD 0 := by
  cases hget : m.get? k with
  | none =>
    have hsame : (m.delete k).toList = m.toList := by
      refine filter_eq_self.mpr fun e he => ?_
      have hne : e.1 ≠ k := by
        rintro rfl
        cases (get?_eq_some.mpr he).symm.trans hget
      simp [hne]
    simp [sum, hsame]
  | some v =>
    have hperm := foldr_add_perm (perm_delete hget) f
    rw [foldr_cons] at hperm
    simp only [sum, hperm, Option.map_some, Option.getD_some]
    omega

lemma sum_set (v : α) (f : κ → α → ℤ) :
    (m.set k v).sum f = m.sum f - ((m.get? k).map (f k)).getD 0 + f k v := by
  have happend : ∀ (l : List (κ × α)), (l ++ [(k, v)]).foldr (fun e n => f e.1 e.2 + n) 0 =
      l.foldr (fun e n => f e.1 e.2 + n) 0 + f k v := by
    intro l
    induction l with
    | nil => simp
    | cons e l ih =>
      rw [cons_append, foldr_cons, foldr_cons]
      omega
  rw [← sum_delete]
  exact happend (m.delete k).toList

lemma len_delete_le : (m.delete k).len ≤ m.len := length_filter_le _ _

lemma len_set_le (v : α) : (m.set k v).len ≤ m.len + 1 := by
  have := m.len_delete_le k
  simp only [len, set, length_append, length_singleton] at this ⊢
  omega

end Sum

/-! ## Maps of lists -/

section Lists

variable {κ : Type u} {β : Type v}

lemma sum_countP (m : GoMap κ (List β)) (q : β → Bool) :
    (m.sum fun _ l => (l.countP q : ℕ)) = (m.values.flatten.countP q : ℕ) := by
  unfold sum values
  induction m.toList with
  | nil => rfl
  | cons e l ih =>
    rw [foldr_cons, ih, map_cons, flatten_cons, countP_append]
    dsimp only
    omega

variable [DecidableEq κ]

/-- Stores a list, or deletes the key if there is nothing to store. -/
def put (m : GoMap κ (List β)) (k : κ) (l : List β) : GoMap κ (List β) :=
  if l.isEmpty then m.delete k else m.set k l

/-- `m[k]`, a missing entry being the nil slice. -/
def listAt (m : GoMap κ (List β)) (k : κ) : List β := (m.get? k).getD []

variable {m : GoMap κ (List β)} {k : κ} {l : List β} {f : κ → List β → ℤ}

lemma listAt_of_get? (h : m.get? k = some l) : m.listAt k = l := by rw [listAt, h, Option.getD_some]

lemma mem_keys_of_listAt_ne_nil (h : m.listAt k ≠ []) : k ∈ m.keys := by
  rw [← contains_iff, contains, Option.isSome_iff_ne_none]
  intro hnone
  exact h (by rw [listAt, hnone, Option.getD_none])

lemma mem_keys_of_mem_put {k' : κ} (hk : k ∈ m.keys) (h : k' ∈ (m.put k l).keys) : k' ∈ m.keys := by
  unfold put at h
  split at h
  · exact (mem_keys_delete.mp h).2
  · rcases mem_keys_set.mp h with rfl | h
    · exact hk
    · exact h

lemma get?_put (m : GoMap κ (List β)) (k k' : κ) (l : List β) :
    (m.put k l).get? k' = if k' = k then (if l.isEmpty then none else some l) else m.get? k' := by
  unfold put
  split <;> simp

lemma sum_put (m : GoMap κ (List β)) (k : κ) (l : List β) (hf : f k [] = 0) :
    (m.put k l).sum f = m.sum f - f k (m.listAt k) + f k l := by
  have hold : ((m.get? k).map (f k)).getD 0 = f k (m.listAt k) := by
    unfold listAt
    cases m.get? k with
    | none => exact hf.symm
    | some l => rfl
  unfold put
  split
  next hl => rw [sum_delete, hold, isEmpty_iff.mp hl, hf, Int.add_zero]
  · rw [sum_set, hold]

lemma of_get?_put {k' : κ} {l' : List β} (h : (m.put k l).get? k' = some l') :
    k' = k ∧ l' = l ∧ l ≠ [] ∨ k' ≠ k ∧ m.get? k' = some l' := by
  rw [get?_put] at h
  split at h
  next hk =>
    split at h
    · cases h
    next hl => exact .inl ⟨hk, (Option.some.inj h).symm, fun hnil => hl (isEmpty_iff.mpr hnil)⟩
  · exact .inr ⟨‹_›, h⟩

/-! ## Rewriting every list -/

/-- The loop `for k, l := range m` that stores `g l` at every key, or deletes it. -/
def putAll (m : GoMap κ (List β)) (g : List β → List β) : GoMap κ (List β) :=
  m.toList.foldl (fun m e => m.put e.1 (g e.2)) m

lemma sum_foldl_put (g : List β → List β) (hf : ∀ k, f k [] = 0) (l : List (κ × List β))
    (hkeys : (l.map Prod.fst).Nodup) (m : GoMap κ (List β)) (hm : ∀ e ∈ l, m.get? e.1 = some e.2) :
    (l.foldl (fun m e => m.put e.1 (g e.2)) m).sum f = m.sum f - l.foldr (fun e n => f e.1 e.2 + n) 0 +
        l.foldr (fun e n => f e.1 (g e.2) + n) 0 := by
  induction l generalizing m with
  | nil => simp
  | cons e l ih =>
    rw [map_cons, nodup_cons] at hkeys
    have hrest : ∀ e' ∈ l, (m.put e.1 (g e.2)).get? e'.1 = some e'.2 := by
      intro e' he'
      have hne : e'.1 ≠ e.1 := by
        intro heq
        exact hkeys.1 (heq ▸ mem_map_of_mem he')
      rw [get?_put, if_neg hne]
      exact hm e' (mem_cons_of_mem e he')
    have hhead := m.sum_put e.1 (g e.2) (hf e.1)
    rw [listAt_of_get? (hm e mem_cons_self)] at hhead
    rw [foldl_cons, ih hkeys.2 _ hrest, foldr_cons, foldr_cons]
    omega

lemma sum_putAll (m : GoMap κ (List β)) (g : List β → List β) (hf : ∀ k, f k [] = 0) :
    (m.putAll g).sum f = m.sum fun k l => f k (g l) := by
  have hloop := sum_foldl_put g hf m.toList m.nodup m fun e he => get?_eq_some.mpr he
  rw [putAll, hloop]
  simp only [sum]
  omega

lemma of_get?_putAll {g : List β → List β} {l' : List β} (h : (m.putAll g).get? k = some l') :
    ∃ l, m.get? k = some l ∧ l' = g l ∧ l' ≠ [] := by
  have hloop : ∀ (es : List (κ × List β)) (m : GoMap κ (List β)),
      (es.foldl (fun m e => m.put e.1 (g e.2)) m).get? k = some l' →
        (∃ l, (k, l) ∈ es ∧ l' = g l ∧ l' ≠ []) ∨ k ∉ es.map Prod.fst ∧ m.get? k = some l' := by
    intro es
    induction es with
    | nil => exact fun m h => .inr ⟨not_mem_nil, h⟩
    | cons e es ih =>
      intro m h
      rcases ih _ h with ⟨l, hl, hg⟩ | ⟨hnot, hget⟩
      · exact .inl ⟨l, mem_cons_of_mem e hl, hg⟩
      · rcases of_get?_put hget with ⟨hk, hl', hne⟩ | ⟨hk, hget⟩
        · subst hk
          exact .inl ⟨e.2, mem_cons_self, hl', hl' ▸ hne⟩
        · refine .inr ⟨?_, hget⟩
          rw [map_cons, mem_cons, not_or]
          exact ⟨hk, hnot⟩
  rcases hloop m.toList m h with ⟨l, hl, hg⟩ | ⟨hnot, hget⟩
  · exact ⟨l, get?_eq_some.mpr hl, hg⟩
  · exact absurd (mem_map_of_mem (get?_eq_some.mp hget)) hnot

end Lists

end GoMap

end Iroh
