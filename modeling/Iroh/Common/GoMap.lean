import Mathlib.Data.List.Induction
import Mathlib.Data.List.Nodup

/-!
# Go maps

A Go map is the list of its entries in some iteration order, with pairwise distinct keys.  Go promises no
order: every `range` loop of the program may visit the entries in another one.

`rangeDelete` is the loop `for k, v := range m { if p(k, v) { delete(m, k) } }`: deleting the
visited key during a `range` is allowed by Go and visits every other entry once.
-/

namespace Iroh

open List

universe u v

/-- A Go `map[κ]α`, as its entries in one iteration order. -/
structure GoMap (κ : Type u) (α : Type v) where
  toList : List (κ × α)
  nodup : (toList.map Prod.fst).Nodup

/-- A Go `map[κ]struct{}`. -/
abbrev GoSet (κ : Type u) := GoMap κ Unit

namespace GoMap

variable {κ : Type u} {α : Type v}

def empty : GoMap κ α := ⟨[], List.nodup_nil⟩

instance : Inhabited (GoMap κ α) := ⟨empty⟩

def keys (m : GoMap κ α) : List κ := m.toList.map Prod.fst

def values (m : GoMap κ α) : List α := m.toList.map Prod.snd

def len (m : GoMap κ α) : ℕ := m.toList.length

/-- The loop that deletes every visited entry satisfying `p`. -/
def rangeDelete (m : GoMap κ α) (p : κ → α → Bool) : GoMap κ α where
  toList := m.toList.filter fun e => !p e.1 e.2
  nodup := m.nodup.sublist (List.filter_sublist.map _)

/-- The loop that stores `f(k, v)` under every visited key. -/
def rangeUpdate (m : GoMap κ α) (f : κ → α → α) : GoMap κ α where
  toList := m.toList.map fun e => (e.1, f e.1 e.2)
  nodup := by
    rw [List.map_map]
    exact m.nodup

/-- The same map in the iteration order that `rank` gives its keys. -/
def arrange (m : GoMap κ α) (rank : κ → ℕ) : GoMap κ α where
  toList := m.toList.mergeSort fun e e' => rank e.1 ≤ rank e'.1
  nodup := ((List.mergeSort_perm _ _).map Prod.fst).nodup_iff.mpr m.nodup

variable {m : GoMap κ α} {k : κ} {v : α}

lemma len_eq_zero : m.len = 0 ↔ ∀ k, k ∉ m.keys := by
  rw [len, ← length_map Prod.fst, length_eq_zero_iff]
  exact eq_nil_iff_forall_not_mem

variable [DecidableEq κ]

/-- `v, ok := m[k]`. -/
def get? (m : GoMap κ α) (k : κ) : Option α := (m.toList.find? fun e => e.1 = k).map Prod.snd

/-- `_, ok := m[k]`. -/
def contains (m : GoMap κ α) (k : κ) : Bool := (m.get? k).isSome

/-- `delete(m, k)`. -/
def delete (m : GoMap κ α) (k : κ) : GoMap κ α := m.rangeDelete fun k' _ => k' = k

/-- `m[k] = v`. -/
def set (m : GoMap κ α) (k : κ) (v : α) : GoMap κ α where
  toList := (m.delete k).toList ++ [(k, v)]
  nodup := by
    rw [List.map_append, List.nodup_append]
    refine ⟨(m.delete k).nodup, by simp, ?_⟩
    simp only [delete, rangeDelete, List.mem_map, List.mem_filter, List.map_cons, List.map_nil,
      List.mem_singleton]
    rintro _ ⟨e, ⟨-, hne⟩, rfl⟩ _ rfl heq
    simp [heq] at hne

/-! ## Lookups -/

lemma get?_eq_some : m.get? k = some v ↔ (k, v) ∈ m.toList := by
  obtain ⟨l, hl⟩ := m
  simp only [get?]
  induction l with
  | nil => simp
  | cons e l ih =>
    obtain ⟨k', w⟩ := e
    simp only [map_cons, nodup_cons] at hl
    by_cases hk : k' = k
    · subst hk
      have hnot : (k', v) ∉ l := fun h => hl.1 (mem_map_of_mem (f := Prod.fst) h)
      simp [hnot, eq_comm]
    · have hne : (k, v) ≠ (k', w) := fun h => hk (congrArg Prod.fst h).symm
      simpa [hk, hne] using ih hl.2

@[simp] lemma get?_empty (k : κ) : (empty : GoMap κ α).get? k = none := rfl

@[simp] lemma get?_rangeDelete (m : GoMap κ α) (p : κ → α → Bool) (k : κ) :
    (m.rangeDelete p).get? k = (m.get? k).filter fun v => !p k v := by
  refine Option.ext fun v => ?_
  rw [get?_eq_some, Option.filter_eq_some_iff, get?_eq_some]
  simp [rangeDelete]

@[simp] lemma get?_rangeUpdate (m : GoMap κ α) (f : κ → α → α) (k : κ) :
    (m.rangeUpdate f).get? k = (m.get? k).map (f k) := by
  refine Option.ext fun v => ?_
  rw [get?_eq_some, Option.map_eq_some_iff]
  constructor
  · intro h
    obtain ⟨e, he, heq⟩ := mem_map.mp h
    obtain ⟨rfl, rfl⟩ := heq
    exact ⟨e.2, get?_eq_some.mpr he, rfl⟩
  · rintro ⟨w, hw, rfl⟩
    exact mem_map.mpr ⟨(k, w), get?_eq_some.mp hw, rfl⟩

@[simp] lemma get?_arrange (m : GoMap κ α) (rank : κ → ℕ) (k : κ) :
    (m.arrange rank).get? k = m.get? k := by
  refine Option.ext fun v => ?_
  rw [get?_eq_some, get?_eq_some, arrange, mem_mergeSort]

@[simp] lemma get?_delete (m : GoMap κ α) (k k' : κ) :
    (m.delete k).get? k' = if k' = k then none else m.get? k' := by
  rw [delete, get?_rangeDelete]
  cases hget : m.get? k' with
  | none => simp
  | some v => by_cases hk : k' = k <;> simp [Option.filter]

@[simp] lemma get?_set (m : GoMap κ α) (k k' : κ) (v : α) :
    (m.set k v).get? k' = if k' = k then some v else m.get? k' := by
  refine Option.ext fun w => ?_
  rw [get?_eq_some]
  simp only [set, delete, rangeDelete]
  by_cases hk : k' = k
  · simp [hk, eq_comm]
  · simp [hk, get?_eq_some]

lemma of_get?_set {k' : κ} {v' : α} (h : (m.set k v).get? k' = some v') :
    k' = k ∧ v' = v ∨ k' ≠ k ∧ m.get? k' = some v' := by
  rw [get?_set] at h
  split at h
  next hk => exact .inl ⟨hk, (Option.some.inj h).symm⟩
  next hk => exact .inr ⟨hk, h⟩

lemma of_get?_delete {k' : κ} (h : (m.delete k).get? k' = some v) : k' ≠ k ∧ m.get? k' = some v := by
  rw [get?_delete] at h
  split at h
  · cases h
  next hk => exact ⟨hk, h⟩

@[simp] lemma contains_iff : m.contains k ↔ k ∈ m.keys := by
  simp [contains, Option.isSome_iff_exists, get?_eq_some, keys]

lemma mem_keys_iff : k ∈ m.keys ↔ ∃ v, m.get? k = some v := by
  rw [← contains_iff, contains, Option.isSome_iff_exists]

lemma get?_eq_none : m.get? k = none ↔ k ∉ m.keys := by
  rw [mem_keys_iff, Option.eq_none_iff_forall_ne_some, not_exists]

lemma mem_values_iff : v ∈ m.values ↔ ∃ k, m.get? k = some v := by
  simp [values, get?_eq_some]

lemma mem_keys_rangeDelete {p : κ → α → Bool} :
    k ∈ (m.rangeDelete p).keys ↔ ∃ v, m.get? k = some v ∧ p k v = false := by
  simp [mem_keys_iff]

@[simp] lemma mem_keys_set {k' : κ} : k' ∈ (m.set k v).keys ↔ k' = k ∨ k' ∈ m.keys := by
  rw [← contains_iff, ← contains_iff, contains, contains, get?_set]
  split <;> simp_all

@[simp] lemma mem_keys_delete {k' : κ} : k' ∈ (m.delete k).keys ↔ k' ≠ k ∧ k' ∈ m.keys := by
  rw [← contains_iff, ← contains_iff, contains, contains, get?_delete]
  split <;> simp_all

lemma delete_of_not_mem (h : k ∉ m.keys) : (m.delete k).toList = m.toList := by
  refine filter_eq_self.mpr fun e he => ?_
  have hne : e.1 ≠ k := fun heq => h (mem_map.mpr ⟨e, he, heq⟩)
  simpa using hne

lemma set_of_not_mem (h : k ∉ m.keys) : (m.set k v).toList = m.toList ++ [(k, v)] := by
  show (m.delete k).toList ++ [(k, v)] = _
  rw [delete_of_not_mem h]

lemma len_set_of_not_mem (h : k ∉ m.keys) : (m.set k v).len = m.len + 1 := by
  rw [len, set_of_not_mem h, length_append]
  rfl

omit [DecidableEq κ] in
@[simp] lemma not_mem_keys_empty : k ∉ (empty : GoMap κ α).keys := by
  simp [keys, empty]

/-! ## Building a map -/

/-- The map that storing the entries one after the other makes. -/
def ofList (l : List (κ × α)) : GoMap κ α := l.foldl (fun m e => m.set e.1 e.2) empty

lemma ofList_append_singleton (l : List (κ × α)) (e : κ × α) :
    ofList (l ++ [e]) = (ofList l).set e.1 e.2 :=
  foldl_append

lemma mem_keys_ofList {l : List (κ × α)} : k ∈ (ofList l).keys ↔ k ∈ l.map Prod.fst := by
  induction l using reverseRecOn with
  | nil => simp [ofList]
  | append_singleton l e ih =>
    rw [ofList_append_singleton, mem_keys_set, ih]
    simp [or_comm]

lemma get?_ofList {l : List (κ × α)} (hl : (l.map Prod.fst).Nodup) :
    (ofList l).get? k = some v ↔ (k, v) ∈ l := by
  induction l using reverseRecOn with
  | nil => simp [ofList]
  | append_singleton l e ih =>
    rw [map_append, nodup_append] at hl
    obtain ⟨hnodup, -, hdisjoint⟩ := hl
    rw [ofList_append_singleton, get?_set]
    split
    case isTrue hk =>
      -- the last entry has this key, so none of the others does
      subst hk
      have hnot : (e.1, v) ∉ l := by
        intro hmem
        exact hdisjoint e.1 (mem_map.mpr ⟨_, hmem, rfl⟩) e.1 (by simp) rfl
      simp [hnot, Prod.ext_iff, eq_comm]
    case isFalse hk =>
      have hne : (k, v) ≠ e := fun heq => hk (congrArg Prod.fst heq)
      rw [ih hnodup]
      simp [hne]

end GoMap

end Iroh
