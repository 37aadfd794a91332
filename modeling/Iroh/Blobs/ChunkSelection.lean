import Iroh.Blobs.Range
import Iroh.Common.SortSearch
import Mathlib.Algebra.Order.Ring.Nat
import Mathlib.Order.Interval.Finset.Nat

/-!
# Selections of chunks

Reference: `blobs/chunkrange_bao.go`, `selectChunks` to `leftChunks`.

A selection is a list of half-open intervals of chunk indices.  It is ordered (`Ordered`), which lets
`intersecting` find by binary search the intervals that meet a span: they are the ones a filter would keep.
-/

namespace Iroh.Blobs

open List

abbrev ChunkSelection := List (ℕ × ℕ)

namespace ChunkSelection

def intersecting (s : ChunkSelection) (lo hi : ℕ) : ChunkSelection :=
  if lo ≥ hi || s.length = 0 then []
  else
    let first := sortSearch s.length fun i => (s[i]?.map fun r => decide (lo < r.2)).getD false
    let rest := s.drop first
    rest.take (sortSearch rest.length fun i => (rest[i]?.map fun r => decide (hi ≤ r.1)).getD false)

def count (s : ChunkSelection) (lo hi : ℕ) : ℕ :=
  (s.intersecting lo hi).foldl (fun n r =>
    let a := max r.1 lo
    let b := min r.2 hi
    if a < b then n + (b - a) else n) 0

def Selected (s : ChunkSelection) (i : ℕ) : Prop := ∃ r ∈ s, r.1 ≤ i ∧ i < r.2

instance (s : ChunkSelection) : DecidablePred s.Selected := fun _ =>
  inferInstanceAs (Decidable (∃ r ∈ s, _))

/-- The ranges are nonempty, disjoint and in order. -/
structure Ordered (s : ChunkSelection) : Prop where
  nonempty : ∀ r ∈ s, r.1 < r.2
  disjoint : s.Pairwise fun a b => a.2 ≤ b.1

variable {s : ChunkSelection}

lemma Ordered.sublist {t : ChunkSelection} (hs : s.Ordered) (h : t.Sublist s) : t.Ordered :=
  ⟨fun r hr => hs.nonempty r (h.subset hr), hs.disjoint.sublist h⟩

/-! ## Narrowing -/

variable {lo hi i chunks : ℕ} {r : ChunkRanges} {l : List (ℕ × ℕ)} {rest : ChunkSelection}

lemma Ordered.intersecting_eq_filter (hs : s.Ordered) (h : lo < hi) :
    s.intersecting lo hi = s.filter fun r => lo < r.2 && r.1 < hi := by
  rcases Nat.eq_zero_or_pos s.length with hlen | hlen
  · simp [length_eq_zero_iff.mp hlen, intersecting]
  rw [intersecting, if_neg (by simp only [Bool.or_eq_true, decide_eq_true_eq]; omega)]
  dsimp only
  have hfirst := (take_sortSearch (l := s) (p := fun r => decide (lo < r.2))
    (f := fun i => (s[i]?.map fun r => decide (lo < r.2)).getD false)
    (by intro i hi; simp [hi]) ?_).2
  · rw [hfirst]
    have hrest := hs.sublist (filter_sublist (p := fun r => decide (lo < r.2)))
    have hlast := (take_sortSearch (l := s.filter fun r => decide (lo < r.2))
      (p := fun r => decide (hi ≤ r.1))
      (f := fun i => ((s.filter fun r => decide (lo < r.2))[i]?.map
        fun r => decide (hi ≤ r.1)).getD false)
      (by intro i hi; simp [hi]) ?_).1
    · rw [hlast, filter_filter]
      congr 1
      funext r
      rw [Bool.and_comm, ← decide_not]
      simp
    · refine hrest.disjoint.imp_of_mem ?_
      intro a b ha _ hab hhi
      have := hrest.nonempty a ha
      simp only [decide_eq_true_eq] at hhi ⊢
      omega
  · refine hs.disjoint.imp_of_mem ?_
    intro a b _ hb hab hlo
    have := hs.nonempty b hb
    simp only [decide_eq_true_eq] at hlo ⊢
    omega

lemma Ordered.intersecting (hs : s.Ordered) (lo hi : ℕ) : (s.intersecting lo hi).Ordered := by
  rcases Nat.lt_or_ge lo hi with h | h
  · rw [hs.intersecting_eq_filter h]
    exact hs.sublist filter_sublist
  · have hnil : s.intersecting lo hi = [] := if_pos (by simp [h])
    rw [hnil]
    exact ⟨by simp, List.Pairwise.nil⟩

lemma Ordered.selected_intersecting (hs : s.Ordered) (hlo : lo ≤ i) (hhi : i < hi) :
    (s.intersecting lo hi).Selected i ↔ s.Selected i := by
  rw [hs.intersecting_eq_filter (by omega)]
  constructor
  · rintro ⟨r, hr, hi⟩
    exact ⟨r, mem_of_mem_filter hr, hi⟩
  · rintro ⟨r, hr, hri⟩
    refine ⟨r, mem_filter.mpr ⟨hr, ?_⟩, hri⟩
    simp only [Bool.and_eq_true, decide_eq_true_eq]
    omega

/-! ## Counting -/

def overlap (r : ℕ × ℕ) (lo hi : ℕ) : ℕ := min r.2 hi - max r.1 lo

lemma foldl_overlap (l : ChunkSelection) (lo hi n : ℕ) : l.foldl (fun n r =>
      let a := max r.1 lo
      let b := min r.2 hi
      if a < b then n + (b - a) else n) n = n + (l.map fun r => overlap r lo hi).sum := by
  induction l generalizing n with
  | nil => simp
  | cons r l ih =>
    rw [foldl_cons, ih, map_cons, sum_cons, overlap]
    dsimp only
    split <;> omega

lemma Ordered.sum_overlap (hs : s.Ordered) (lo hi : ℕ) :
    (s.map fun r => overlap r lo hi).sum = ((Finset.Ico lo hi).filter s.Selected).card := by
  induction s with
  | nil => simp [Selected, Finset.filter_false_of_mem]
  | cons r s ih =>
    have htail : Ordered s := hs.sublist (sublist_cons_self r s)
    have hafter := (pairwise_cons.mp hs.disjoint).1
    have hsplit : (Finset.Ico lo hi).filter (Selected (r :: s)) =
        Finset.Ico (max r.1 lo) (min r.2 hi) ∪ (Finset.Ico lo hi).filter (Selected s) := by
      ext i
      simp only [Selected, mem_cons, exists_eq_or_imp, Finset.mem_filter, Finset.mem_union,
        Finset.mem_Ico]
      constructor
      · rintro ⟨hi, h | h⟩
        · exact Or.inl (by omega)
        · exact Or.inr ⟨hi, h⟩
      · rintro (h | ⟨hi, h⟩)
        · exact ⟨by omega, Or.inl (by omega)⟩
        · exact ⟨hi, Or.inr h⟩
    have hdisj : Disjoint (Finset.Ico (max r.1 lo) (min r.2 hi))
        ((Finset.Ico lo hi).filter (Selected s)) := by
      rw [Finset.disjoint_left]
      intro i hi hsel
      obtain ⟨-, r', hr', hle, -⟩ := Finset.mem_filter.mp hsel
      have := hafter r' hr'
      rw [Finset.mem_Ico] at hi
      omega
    rw [map_cons, sum_cons, ih htail, hsplit, Finset.card_union_of_disjoint hdisj,
      Nat.card_Ico, overlap]

theorem Ordered.count_eq_card (hs : s.Ordered) (lo hi : ℕ) :
    s.count lo hi = ((Finset.Ico lo hi).filter s.Selected).card := by
  rw [count, foldl_overlap, Nat.zero_add, (hs.intersecting lo hi).sum_overlap]
  congr 1
  refine Finset.filter_congr fun i hi => ?_
  rw [Finset.mem_Ico] at hi
  exact hs.selected_intersecting hi.1 hi.2

lemma Ordered.count_eq_zero_iff (hs : s.Ordered) :
    s.count lo hi = 0 ↔ ∀ i, lo ≤ i → i < hi → ¬ s.Selected i := by
  rw [hs.count_eq_card, Finset.card_eq_zero, Finset.filter_eq_empty_iff]
  simp only [Finset.mem_Ico, and_imp]

lemma Ordered.count_eq_length_iff (hs : s.Ordered) :
    s.count lo (lo + n) = n ↔ ∀ i, lo ≤ i → i < lo + n → s.Selected i := by
  have hcard : (Finset.Ico lo (lo + n)).card = n := by simp
  rw [hs.count_eq_card]
  conv_lhs => rhs; rw [← hcard]
  rw [Finset.card_filter_eq_iff]
  simp only [Finset.mem_Ico, and_imp]

/-! ## Selecting -/

/-- The loop of `selectChunks` over the ranges: what reaches past the last chunk selects the last
chunk at least, and ends the loop. -/
def selectLoop (chunks : ℕ) : List (ℕ × ℕ) → ChunkSelection
  | [] => []
  | r :: rest =>
    if r.1 ≥ r.2 then selectLoop chunks rest
    else if r.2 > chunks - 1 then [(min r.1 (chunks - 1), chunks)]
    else if r.1 < chunks then (r.1, min r.2 chunks) :: selectLoop chunks rest
    else selectLoop chunks rest

/-- The intervals of normalized ranges, an open one reaching to `math.MaxUint64`; the open range that
starts there stands for the last chunk only. -/
def rangeIntervals (r : ChunkRanges) : List (ℕ × ℕ) :=
  r.ranges.map (fun cr => (cr.start.toNat, cr.stop.toNat)) ++
    match r.openStart with
    | some start => if start = maxUint64 then [] else [(start.toNat, maxUint64.toNat)]
    | none => []

def selectChunks (ranges : ChunkRanges) (chunks : ℕ) : ChunkSelection :=
  let ranges := ranges.normalize
  let lastOnly := ranges.openStart = some maxUint64
  if chunks = 0 then []
  else
    let last := chunks - 1
    let out := selectLoop chunks (rangeIntervals ranges)
    if lastOnly && out.count last chunks = 0 then out ++ [(last, chunks)] else out

lemma rangeIntervals_ordered (hr : r.Normalized) : Ordered (rangeIntervals r) := by
  have hopen : ∀ q ∈ (match r.openStart with
      | some start => if start = maxUint64 then [] else [(start.toNat, maxUint64.toNat)]
      | none => []), ∃ start, r.openStart = some start ∧ start < maxUint64 ∧
        q = (start.toNat, maxUint64.toNat) := by
    intro q hq
    split at hq
    next start heq =>
      split at hq
      · simp at hq
      next hne => exact ⟨start, heq, lt_of_le_of_ne (le_maxUint64 start) hne, mem_singleton.mp hq⟩
    · simp at hq
  constructor
  · intro q hq
    rcases mem_append.mp hq with hq | hq
    · obtain ⟨cr, hcr, rfl⟩ := mem_map.mp hq
      exact hr.nonempty cr hcr
    · obtain ⟨start, -, hlt, rfl⟩ := hopen q hq
      exact hlt
  · rw [rangeIntervals, pairwise_append]
    refine ⟨?_, ?_, ?_⟩
    · rw [pairwise_map]
      exact hr.gaps.imp fun h => le_of_lt h
    · split
      · split <;> simp
      · simp
    · intro a ha b hb
      obtain ⟨cr, hcr, rfl⟩ := mem_map.mp ha
      obtain ⟨start, heq, -, rfl⟩ := hopen b hb
      exact le_of_lt (hr.openAbove start heq cr hcr)

lemma mem_selectLoop (hchunks : 0 < chunks) (hq : q ∈ selectLoop chunks l) :
    q.1 < q.2 ∧ q.2 ≤ chunks ∧ ∃ r ∈ l, min r.1 (chunks - 1) ≤ q.1 := by
  induction l with
  | nil => simp [selectLoop] at hq
  | cons r rest ih =>
    have hrest : q ∈ selectLoop chunks rest →
        q.1 < q.2 ∧ q.2 ≤ chunks ∧ ∃ r' ∈ r :: rest, min r'.1 (chunks - 1) ≤ q.1 := by
      intro h
      obtain ⟨hlt, hle, r', hr', hmin⟩ := ih h
      exact ⟨hlt, hle, r', mem_cons_of_mem _ hr', hmin⟩
    unfold selectLoop at hq
    split at hq
    · exact hrest hq
    · split at hq
      · obtain rfl := mem_singleton.mp hq
        exact ⟨by omega, le_rfl, r, mem_cons_self, le_rfl⟩
      · split at hq
        · rcases mem_cons.mp hq with rfl | hq
          · exact ⟨by omega, by omega, r, mem_cons_self, min_le_left _ _⟩
          · exact hrest hq
        · exact hrest hq

lemma selectLoop_ordered (hchunks : 0 < chunks) (hl : Ordered l) : Ordered (selectLoop chunks l) := by
  refine ⟨fun q hq => (mem_selectLoop hchunks hq).1, ?_⟩
  induction l with
  | nil => exact List.Pairwise.nil
  | cons r rest ih =>
    have htail := ih (hl.sublist (sublist_cons_self r rest))
    have hafter := (pairwise_cons.mp hl.disjoint).1
    unfold selectLoop
    split
    · exact htail
    · split
      · exact pairwise_singleton _ _
      · split
        · refine pairwise_cons.mpr ⟨fun q hq => ?_, htail⟩
          obtain ⟨-, -, r', hr', hmin⟩ := mem_selectLoop hchunks hq
          have := hafter r' hr'
          omega
        · exact htail

lemma selected_cons {r : ℕ × ℕ} : Selected (r :: rest) i ↔ (r.1 ≤ i ∧ i < r.2) ∨ Selected rest i := by
  simp [Selected]

lemma Ordered.le_of_selected {r : ℕ × ℕ} (hl : Ordered (r :: rest)) (h : Selected rest i) :
    r.2 ≤ i := by
  obtain ⟨r', hr', hle, -⟩ := h
  exact ((pairwise_cons.mp hl.disjoint).1 r' hr').trans hle

lemma selected_past {r : ℕ × ℕ} (hr : r.1 < r.2) (hl : Ordered (r :: rest)) (hpast : r.2 > chunks - 1) :
    Selected [(min r.1 (chunks - 1), chunks)] i ↔ i < chunks ∧ (Selected (r :: rest) i ∨
      (i = chunks - 1 ∧ ∃ x, chunks - 1 ≤ x ∧ Selected (r :: rest) x)) := by
  constructor
  · rintro ⟨q, hq, hle, hlt⟩
    obtain rfl := mem_singleton.mp hq
    refine ⟨hlt, ?_⟩
    rcases Nat.lt_or_ge i r.1 with hi | hi
    · exact Or.inr ⟨by omega, r.2 - 1, by omega, selected_cons.mpr (Or.inl (by omega))⟩
    · exact Or.inl (selected_cons.mpr (Or.inl (by omega)))
  · rintro ⟨hlt, hsel⟩
    refine ⟨_, mem_singleton_self _, ?_, hlt⟩
    rcases hsel with hsel | ⟨rfl, -⟩
    · rcases selected_cons.mp hsel with hin | hin
      · omega
      · have := hl.le_of_selected hin
        omega
    · omega

/-- **What the loop selects**: the selected indices that exist, and the last chunk when something at
or past it is selected. -/
theorem selected_selectLoop (hchunks : 0 < chunks) (hl : Ordered l) : Selected (selectLoop chunks l) i ↔
      i < chunks ∧ (Selected l i ∨ (i = chunks - 1 ∧ ∃ x, chunks - 1 ≤ x ∧ Selected l x)) := by
  induction l with
  | nil => simp [selectLoop, Selected]
  | cons r rest ih =>
    have hr := hl.nonempty r mem_cons_self
    have htail : Ordered rest := hl.sublist (sublist_cons_self r rest)
    unfold selectLoop
    rw [if_neg (by omega)]
    split
    next hpast => exact selected_past hr hl hpast
    · have hmin : min r.2 chunks = r.2 := by omega
      rw [if_pos (by omega), selected_cons, hmin, ih htail]
      constructor
      · rintro (hin | ⟨hlt, hsel | ⟨heq, x, hx, hsel⟩⟩)
        · exact ⟨by omega, Or.inl (selected_cons.mpr (Or.inl hin))⟩
        · exact ⟨hlt, Or.inl (selected_cons.mpr (Or.inr hsel))⟩
        · exact ⟨hlt, Or.inr ⟨heq, x, hx, selected_cons.mpr (Or.inr hsel)⟩⟩
      · rintro ⟨hlt, hsel | ⟨heq, x, hx, hsel⟩⟩
        · rcases selected_cons.mp hsel with hin | hin
          · exact Or.inl hin
          · exact Or.inr ⟨hlt, Or.inl hin⟩
        · rcases selected_cons.mp hsel with hin | hin
          · omega
          · exact Or.inr ⟨hlt, Or.inr ⟨heq, x, hx, hin⟩⟩

/-! ## `selectChunks` -/

/-- The open range that starts at `math.MaxUint64`. -/
def LastOnly (r : ChunkRanges) : Prop := r.normalize.openStart = some maxUint64

def InRanges (r : ChunkRanges) (i : ℕ) : Prop := Selected (rangeIntervals r.normalize) i

section

variable {r : ChunkRanges} {chunks : ℕ} (hchunks : 0 < chunks)
include hchunks

/-- **What `selectChunks` selects**: the chunks in the ranges, and the last chunk when the ranges
reach it or past it, or ask for it alone. -/
theorem selected_selectChunks : Selected (selectChunks r chunks) i ↔ i < chunks ∧ (InRanges r i ∨
      (i = chunks - 1 ∧ ((∃ x, chunks - 1 ≤ x ∧ InRanges r x) ∨ LastOnly r))) := by
  have hord := rangeIntervals_ordered r.normalize_normalized
  have hloop := selectLoop_ordered hchunks hord
  have hcount : (selectLoop chunks (rangeIntervals r.normalize)).count (chunks - 1) chunks = 0 ↔
      ¬ Selected (selectLoop chunks (rangeIntervals r.normalize)) (chunks - 1) := by
    rw [hloop.count_eq_zero_iff]
    constructor
    · intro h
      exact h _ le_rfl (by omega)
    · intro h j hj hj'
      obtain rfl : j = chunks - 1 := by omega
      exact h
  rw [selectChunks]
  rw [if_neg (by omega)]
  by_cases honly : r.normalize.openStart = some maxUint64 ∧
      ¬ Selected (selectLoop chunks (rangeIntervals r.normalize)) (chunks - 1)
  · -- the last chunk is appended
    rw [if_pos (by simp [honly.1, hcount.mpr honly.2])]
    have happend : Selected (selectLoop chunks (rangeIntervals r.normalize) ++
        [(chunks - 1, chunks)]) i ↔
        Selected (selectLoop chunks (rangeIntervals r.normalize)) i ∨ i = chunks - 1 := by
      simp only [Selected, mem_append, mem_singleton, or_and_right, exists_or, exists_eq_left]
      refine or_congr_right ⟨fun h => by omega, fun h => by omega⟩
    rw [happend, selected_selectLoop hchunks hord]
    constructor
    · rintro (⟨hlt, h | ⟨heq, h⟩⟩ | heq)
      · exact ⟨hlt, Or.inl h⟩
      · exact ⟨hlt, Or.inr ⟨heq, Or.inl h⟩⟩
      · exact ⟨by omega, Or.inr ⟨heq, Or.inr honly.1⟩⟩
    · rintro ⟨hlt, h | ⟨heq, -⟩⟩
      · exact Or.inl ⟨hlt, Or.inl h⟩
      · exact Or.inr heq
  · rw [if_neg (by simpa [hcount] using honly), selected_selectLoop hchunks hord]
    constructor
    · rintro ⟨hlt, h | ⟨heq, h⟩⟩
      · exact ⟨hlt, Or.inl h⟩
      · exact ⟨hlt, Or.inr ⟨heq, Or.inl h⟩⟩
    · rintro ⟨hlt, h | ⟨rfl, h | h⟩⟩
      · exact ⟨hlt, Or.inl h⟩
      · exact ⟨hlt, Or.inr ⟨rfl, h⟩⟩
      · -- asked for alone and yet not appended, so already there
        have hsel := not_not.mp fun hnot => honly ⟨h, hnot⟩
        exact (selected_selectLoop hchunks hord).mp hsel

lemma selectChunks_ordered : Ordered (selectChunks r chunks) := by
  have hord := rangeIntervals_ordered r.normalize_normalized
  have hloop := selectLoop_ordered hchunks hord
  rw [selectChunks]
  dsimp only
  rw [if_neg (by omega)]
  split
  next honly =>
    simp only [Bool.and_eq_true, decide_eq_true_eq] at honly
    have hnot := hloop.count_eq_zero_iff.mp honly.2
    refine ⟨?_, pairwise_append.mpr ⟨hloop.disjoint, pairwise_singleton _ _, ?_⟩⟩
    · intro q hq
      rcases mem_append.mp hq with hq | hq
      · exact hloop.nonempty q hq
      · obtain rfl := mem_singleton.mp hq
        omega
    · -- an interval that reached the end would hold the last chunk
      intro q hq b hb
      obtain rfl := mem_singleton.mp hb
      obtain ⟨hlt, hle, -⟩ := mem_selectLoop hchunks hq
      by_contra hgt
      exact hnot (chunks - 1) le_rfl (by omega) ⟨q, hq, by omega, by omega⟩
  · exact hloop

lemma selectChunks_ne_nil_iff :
    selectChunks r chunks ≠ [] ↔ ∃ i < chunks, Selected (selectChunks r chunks) i := by
  constructor
  · intro hne
    obtain ⟨q, hq⟩ := exists_mem_of_ne_nil _ hne
    have hsel : Selected (selectChunks r chunks) q.1 :=
      ⟨q, hq, le_rfl, (selectChunks_ordered hchunks).nonempty q hq⟩
    exact ⟨q.1, ((selected_selectChunks hchunks).mp hsel).1, hsel⟩
  · rintro ⟨i, -, q, hq, -⟩
    exact ne_nil_of_mem hq

end

lemma selectChunks_ne_nil_iff_inRanges (hchunks : 0 < chunks) :
    selectChunks r chunks ≠ [] ↔ (∃ x, InRanges r x) ∨ LastOnly r := by
  rw [selectChunks_ne_nil_iff hchunks]
  simp only [selected_selectChunks hchunks]
  constructor
  · rintro ⟨i, -, -, h | ⟨-, ⟨x, -, h⟩ | h⟩⟩
    · exact Or.inl ⟨i, h⟩
    · exact Or.inl ⟨x, h⟩
    · exact Or.inr h
  · rintro (⟨x, h⟩ | h)
    · rcases Nat.lt_or_ge x chunks with hx | hx
      · exact ⟨x, hx, hx, Or.inl h⟩
      · exact ⟨chunks - 1, by omega, by omega, Or.inr ⟨rfl, Or.inl ⟨x, by omega, h⟩⟩⟩
    · exact ⟨chunks - 1, by omega, by omega, Or.inr ⟨rfl, Or.inr h⟩⟩

lemma selectChunks_ne_nil_of_normalized (hchunks : 0 < chunks) (hr : r.Normalized)
    (hne : r.isEmpty = false) : selectChunks r chunks ≠ [] := by
  rw [selectChunks_ne_nil_iff_inRanges hchunks]
  unfold InRanges LastOnly
  rw [hr.normalize_eq]
  cases hranges : r.ranges with
  | cons cr rest =>
    have hcr : cr ∈ r.ranges := hranges ▸ mem_cons_self
    refine Or.inl ⟨cr.start.toNat, (cr.start.toNat, cr.stop.toNat), ?_, le_rfl,
      UInt64.lt_iff_toNat_lt.mp (hr.nonempty cr hcr)⟩
    exact mem_append_left _ (mem_map_of_mem hcr)
  | nil =>
    cases hopen : r.openStart with
    | none => simp [ChunkRanges.isEmpty, hranges, hopen] at hne
    | some start =>
      by_cases hmax : start = maxUint64
      · exact Or.inr (by rw [hmax])
      · have hlt : start < maxUint64 := lt_of_le_of_ne (le_maxUint64 start) hmax
        refine Or.inl ⟨start.toNat, (start.toNat, maxUint64.toNat), ?_, le_rfl,
          UInt64.lt_iff_toNat_lt.mp hlt⟩
        simp [rangeIntervals, hopen, hmax]

lemma selected_rangeAll (hchunks : chunks ≤ maxUint64.toNat) (hi : i < chunks) :
    Selected (selectChunks .rangeAll chunks) i := by
  have hall : ChunkRanges.normalize .rangeAll = .rangeAll := ChunkRanges.Normalized.normalize_eq
    ⟨by simp [ChunkRanges.rangeAll], by simp [ChunkRanges.rangeAll], by simp [ChunkRanges.rangeAll]⟩
  refine (selected_selectChunks (by omega)).mpr ⟨hi, Or.inl ?_⟩
  unfold InRanges
  rw [hall]
  exact ⟨(0, maxUint64.toNat), by simp [ChunkRanges.rangeAll]; decide, by simp, by
    omega⟩

end ChunkSelection

end Iroh.Blobs
