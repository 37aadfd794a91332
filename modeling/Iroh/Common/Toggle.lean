import Mathlib.Data.Set.Insert
import Mathlib.Data.List.Basic

/-!
# Sets followed through up and down events

A component that announces each entry into a set by an `up` event and each exit by a `down` event gives its
listeners the set: `Follows A l B` says that the events `l` take the set `A` to `B`, each legal where it
stands.
-/

namespace Iroh

open List

variable {α : Type*}

/-- An element entering or leaving a set. -/
inductive Toggle (α : Type*) where
  | up (a : α)
  | down (a : α)
deriving DecidableEq

/-- The events `l` take `A` to `B`: nothing enters twice, and only members leave. -/
inductive Follows (A : Set α) : List (Toggle α) → Set α → Prop where
  | nil : Follows A [] A
  | up {l : List (Toggle α)} {B : Set α} {a : α} :
      Follows A l B → a ∉ B → Follows A (l ++ [.up a]) (insert a B)
  | down {l : List (Toggle α)} {B : Set α} {a : α} :
      Follows A l B → a ∈ B → Follows A (l ++ [.down a]) (B \ {a})

variable {A B : Set α} {l : List (Toggle α)}

lemma Follows.trans {C : Set α} {m : List (Toggle α)} (h : Follows A l B) (h' : Follows B m C) :
    Follows A (l ++ m) C := by
  induction h' with
  | nil => rwa [append_nil]
  | up _ ha ih =>
    rw [← append_assoc]
    exact ih.up ha
  | down _ ha ih =>
    rw [← append_assoc]
    exact ih.down ha

def Toggle.apply (A : Set α) : Toggle α → Set α
  | .up a => insert a A
  | .down a => A \ {a}

lemma Follows.eq_foldl (h : Follows A l B) : B = l.foldl Toggle.apply A := by
  induction h with
  | nil => rfl
  | up _ _ ih | down _ _ ih => rw [foldl_append, ← ih]; rfl

def Toggle.elem : Toggle α → α
  | .up a => a
  | .down a => a

namespace Toggle

variable [DecidableEq α]

/-- What an event says of `a`: in, out, or nothing. -/
def status (a : α) : Toggle α → Option Bool
  | .up b => if b = a then some true else none
  | .down b => if b = a then some false else none

/-- The events of one element, `true` for `up`. -/
def trace (a : α) (l : List (Toggle α)) : List Bool := l.filterMap (status a)

lemma trace_snoc (a : α) (l : List (Toggle α)) (e : Toggle α) :
    trace a (l ++ [e]) = trace a l ++ (status a e).toList := by
  rw [trace, trace]
  cases h : status a e <;> simp [h]

/-- Strict alternation, starting with `up`. -/
def Alternates (l : List Bool) : Prop := ∀ i b, l[i]? = some b → (b = true ↔ i % 2 = 0)

lemma Alternates.snoc {l : List Bool} {b : Bool} (h : Alternates l)
    (hb : b = true ↔ l.length % 2 = 0) : Alternates (l ++ [b]) := by
  intro i b' hi
  rcases Nat.lt_trichotomy i l.length with hlt | rfl | hgt
  · rw [getElem?_append_left hlt] at hi
    exact h i b' hi
  · rw [getElem?_concat_length] at hi
    cases hi
    exact hb
  · rw [getElem?_eq_none (by simp; omega)] at hi
    cases hi

lemma Alternates.getLast?_eq {l : List Bool} (h : Alternates l) :
    l.getLast? = some true ↔ l.length % 2 = 1 := by
  rw [getLast?_eq_getElem?]
  cases hl : l[l.length - 1]? with
  | none =>
    have : l.length = 0 := by
      have := getElem?_eq_none_iff.mp hl
      omega
    simp [this]
  | some b =>
    have hlt := (List.getElem?_eq_some_iff.mp hl).1
    have hb := h _ b hl
    rw [Option.some.injEq, hb]
    omega

end Toggle

open Toggle in
/-- From the empty set an element's events alternate, and their number says whether it is in. -/
lemma Follows.alternates_and_parity [DecidableEq α] (h : Follows ∅ l B) (a : α) :
    Alternates (trace a l) ∧ (a ∈ B ↔ (trace a l).length % 2 = 1) := by
  induction h with
  | nil => simp [trace, Alternates]
  | @up l B b _ hb ih =>
    rw [trace_snoc]
    by_cases hba : b = a
    · subst hba
      -- the element was out, so its events so far are even in number
      have heven := ih.2.not.mp hb
      simp only [status, if_true, Option.toList_some, length_append, length_singleton,
        Set.mem_insert_iff, true_or, true_iff]
      exact ⟨ih.1.snoc (by simp only [true_iff]; omega), by omega⟩
    · simpa [status, hba, Ne.symm hba] using ih
  | @down l B b _ hb ih =>
    rw [trace_snoc]
    by_cases hba : b = a
    · subst hba
      have hodd := ih.2.mp hb
      simp only [status, if_true, Option.toList_some, length_append, length_singleton,
        Set.mem_sdiff, Set.mem_singleton_iff, not_true, and_false, false_iff]
      exact ⟨ih.1.snoc (by simp only [Bool.false_eq_true, false_iff]; omega), by omega⟩
    · simpa [status, hba, Ne.symm hba] using ih

open Toggle in
theorem Follows.mem_iff_getLast? [DecidableEq α] (h : Follows ∅ l B) (a : α) :
    a ∈ B ↔ (trace a l).getLast? = some true :=
  (h.alternates_and_parity a).2.trans (h.alternates_and_parity a).1.getLast?_eq.symm

end Iroh
