import Mathlib.Data.Set.Finite.Lattice
import Mathlib.Order.Preorder.Finite

/-!
# Keeping the maximal elements of a growing set

A component that drops every element dominated by another keeps the maximal elements of all it has been given.
`insertMax` is one insertion: a dominated newcomer is dropped, otherwise it enters and what it dominates
leaves.  Nothing of the past has to be remembered, because an element that was dropped is dominated by one
that is kept.
-/

namespace Iroh

variable {β : Type*} [PartialOrder β]

def maximals (L : Set β) : Set β := {x | Maximal (· ∈ L) x}

open Classical in
/-- One insertion into a set that is kept free of dominated elements. -/
noncomputable def insertMax (S : Set β) (x : β) : Set β :=
  if ∃ e ∈ S, x ≤ e then S else insert x {e ∈ S | ¬ e ≤ x}

lemma maximals_subset (L : Set β) : maximals L ⊆ L := fun _ hx => hx.prop

variable {L : Set β} {x : β}

lemma exists_le_maximals (hL : L.Finite) (hx : x ∈ L) : ∃ m ∈ maximals L, x ≤ m := by
  obtain ⟨m, hm, hmax⟩ := hL.exists_le_maximal hx
  exact ⟨m, hmax, hm⟩

lemma exists_le_iff_exists_le_maximals (hL : L.Finite) (x : β) :
    (∃ e ∈ L, x ≤ e) ↔ ∃ e ∈ maximals L, x ≤ e := by
  constructor
  · rintro ⟨e, he, hxe⟩
    obtain ⟨m, hm, hem⟩ := exists_le_maximals hL he
    exact ⟨m, hm, hxe.trans hem⟩
  · rintro ⟨e, he, hxe⟩
    exact ⟨e, maximals_subset L he, hxe⟩

lemma maximals_insert_of_le {e : β} (he : e ∈ L) (hxe : x ≤ e) :
    maximals (insert x L) = maximals L := by
  ext y
  constructor
  · rintro ⟨hy, hmax⟩
    have hyL : y ∈ L := by
      rcases hy with rfl | hy
      · rwa [hxe.antisymm (hmax (Set.mem_insert_of_mem _ he) hxe)]
      · exact hy
    exact ⟨hyL, fun z hz hyz => hmax (Set.mem_insert_of_mem _ hz) hyz⟩
  · rintro ⟨hy, hmax⟩
    refine ⟨Set.mem_insert_of_mem _ hy, ?_⟩
    rintro z (rfl | hz) hyz
    · exact hxe.trans (hmax he (hyz.trans hxe))
    · exact hmax hz hyz

lemma maximals_insert_of_not_le (hx : ∀ e ∈ L, ¬ x ≤ e) :
    maximals (insert x L) = insert x {e ∈ maximals L | ¬ e ≤ x} := by
  ext y
  constructor
  · rintro ⟨hy, hmax⟩
    rcases hy with rfl | hy
    · exact Set.mem_insert _ _
    · refine Set.mem_insert_of_mem _ ⟨⟨hy, fun z hz hyz => ?_⟩, fun hyx => ?_⟩
      · exact hmax (Set.mem_insert_of_mem _ hz) hyz
      · exact hx y hy (hmax (Set.mem_insert _ _) hyx)
  · rintro (rfl | ⟨⟨hy, hmax⟩, hyx⟩)
    · refine ⟨Set.mem_insert _ _, ?_⟩
      rintro z (rfl | hz) hyz
      · exact le_rfl
      · exact absurd hyz (hx z hz)
    · refine ⟨Set.mem_insert_of_mem _ hy, ?_⟩
      rintro z (rfl | hz) hyz
      · exact absurd hyz hyx
      · exact hmax hz hyz

/-- **The step.** Inserting into the maximal elements of a finite `L` gives those of
`insert x L`. -/
theorem insertMax_maximals (hL : L.Finite) (x : β) :
    insertMax (maximals L) x = maximals (insert x L) := by
  unfold insertMax
  rw [← exists_le_iff_exists_le_maximals hL]
  split
  next h =>
    obtain ⟨e, he, hxe⟩ := h
    exact (maximals_insert_of_le he hxe).symm
  next h => exact (maximals_insert_of_not_le fun e he hxe => h ⟨e, he, hxe⟩).symm

lemma mem_maximals_iff : x ∈ maximals L ↔ x ∈ L ∧ ∀ y ∈ L, y ≠ x → ¬ x ≤ y := by
  constructor
  · intro hx
    exact ⟨hx.prop, fun y hy hne hle => hne (hx.eq_of_le hy hle).symm⟩
  · rintro ⟨hx, hmax⟩
    refine ⟨hx, fun y hy hle => ?_⟩
    by_contra hnle
    exact hmax y hy (fun heq => hnle heq.le) hle

/-- An element maximal in a larger set is maximal in every smaller one that has it. -/
lemma mem_maximals_of_subset {U : Set β} (hLU : L ⊆ U) (hx : x ∈ maximals U) (hxL : x ∈ L) :
    x ∈ maximals L :=
  ⟨hxL, fun _ hy hle => hx.2 (hLU hy) hle⟩

lemma maximals_eq_of_subset {U : Set β} (hU : U.Finite) (hLU : L ⊆ U) (hML : maximals U ⊆ L) :
    maximals L = maximals U := by
  ext x
  constructor
  · intro hx
    obtain ⟨m, hm, hle⟩ := exists_le_maximals hU (hLU hx.prop)
    rwa [hx.eq_of_le (hML hm) hle]
  · intro hx
    exact mem_maximals_of_subset hLU hx (hML hx)

lemma maximals_eq_self {S : Set β} (hS : S ⊆ maximals L) : maximals S = S := by
  refine Set.Subset.antisymm (maximals_subset S) fun x hx => ?_
  exact ⟨hx, fun y hy hle => (hS hx).2 (hS hy).prop hle⟩

lemma insertMax_sep {S : Set β} {p : β → Prop} (hx : p x) (hp : ∀ e, x ≤ e ∨ e ≤ x → p e) :
    {e ∈ insertMax S x | p e} = insertMax {e ∈ S | p e} x := by
  have hcond : (∃ e ∈ {e ∈ S | p e}, x ≤ e) ↔ ∃ e ∈ S, x ≤ e := by
    constructor
    · rintro ⟨e, ⟨he, -⟩, hle⟩
      exact ⟨e, he, hle⟩
    · rintro ⟨e, he, hle⟩
      exact ⟨e, ⟨he, hp e (Or.inl hle)⟩, hle⟩
  unfold insertMax
  split
  next h => rw [if_pos (hcond.mpr h)]
  next h =>
    rw [if_neg (mt hcond.mp h)]
    ext e
    constructor
    · rintro ⟨rfl | ⟨he, hle⟩, hpe⟩
      · exact Or.inl rfl
      · exact Or.inr ⟨⟨he, hpe⟩, hle⟩
    · rintro (rfl | ⟨⟨he, hpe⟩, hle⟩)
      · exact ⟨Or.inl rfl, hx⟩
      · exact ⟨Or.inr ⟨he, hle⟩, hpe⟩

lemma eq_of_le_of_mem_maximals {y : β} (hx : x ∈ maximals L) (hy : y ∈ maximals L) (h : x ≤ y) :
    x = y :=
  hx.eq_of_le hy.prop h

end Iroh
