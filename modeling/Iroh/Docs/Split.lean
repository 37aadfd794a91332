import Iroh.Common.CyclicRange
import Iroh.Docs.Scope

/-!
# Splitting a range

`splitRange` cuts a range at pivots taken from the store's own entries.  Read from the right base (the range's
start, or the first entry when the range is everything) the pivots come in increasing order, so the pieces
cover the range, stay inside it, and each of them misses an entry of the store: a piece ends before the pivot
it ends at, and the last piece lies behind the first entry.
-/

namespace Iroh.Docs

open List

lemma Range.contains_iff_within {r : Range} {id : RecordIdentifier} :
    r.contains id ↔ Within r.start r.stop id := Range.contains_iff

namespace MemoryStore

/-! ## Pivots -/

lemma splitStart_eq_rotation (entries : List SignedEntry) (r : Range) :
    splitStart entries r = rotation (entries.map fun e => e.entry.id) r.start := by
  have hpred : (fun e : SignedEntry => (e.entry.id.compare r.start).isGE) =
      (fun id => decide (r.start ≤ id)) ∘ fun e : SignedEntry => e.entry.id := by
    funext e
    rw [Function.comp_apply, Bool.eq_iff_iff, RecordIdentifier.compare_isGE_iff, decide_eq_true_iff]
  rw [splitStart, rotation, findIdx_map, length_map, hpred]

def rotatedIds (entries : List SignedEntry) (r : Range) : List RecordIdentifier :=
  (entries.map fun e => e.entry.id).rotate (splitStart entries r)

variable {entries : List SignedEntry} {r : Range} {k : ℕ}

lemma mem_rotatedIds {id : RecordIdentifier} :
    id ∈ rotatedIds entries r ↔ ∃ e ∈ entries, e.entry.id = id := by
  simp [rotatedIds]

lemma rotatedIds_sorted (h : entries.Pairwise fun a b => a.entry.id < b.entry.id) (r : Range) :
    (rotatedIds entries r).Pairwise fun x y => pos r.start x < pos r.start y := by
  rw [rotatedIds, splitStart_eq_rotation]
  exact rotate_sorted (pairwise_map.mpr h) r.start

lemma getElem_rotatedIds (entries : List SignedEntry) (r : Range) (hm : m < entries.length) :
    (rotatedIds entries r)[m]? =
      (entries[(splitStart entries r + m) % entries.length]?).map fun e => e.entry.id := by
  rw [rotatedIds, getElem?_rotate (by simpa using hm), getElem?_map, length_map, Nat.add_comm]

lemma splitPivot_eq (r : Range) (hn : 0 < entries.length) (hi : i + 1 < k) :
    (rotatedIds entries r)[entries.length * (i + 1) / k]? = some (splitPivot entries r k i) := by
  have hoffset : entries.length * (i + 1) / k < entries.length := by
    rw [Nat.div_lt_iff_lt_mul (by omega)]
    exact Nat.mul_lt_mul_of_pos_left hi hn
  rw [getElem_rotatedIds entries r hoffset, splitPivot, Nat.mod_eq_of_lt (by omega : i < k)]
  rw [getElem?_eq_getElem (Nat.mod_lt _ hn)]
  rfl

lemma splitPivot_last (r : Range) (hn : 0 < entries.length) (hk : 0 < k) :
    (rotatedIds entries r)[0]? = some (splitPivot entries r k (k - 1)) := by
  have hshare : entries.length * ((k - 1) % k + 1) / k = entries.length := by
    rw [Nat.mod_eq_of_lt (by omega), Nat.sub_add_cancel hk, Nat.mul_div_cancel _ hk]
  rw [getElem_rotatedIds entries r hn, splitPivot, hshare, Nat.add_mod_right, Nat.add_zero]
  rw [getElem?_eq_getElem (Nat.mod_lt _ hn)]
  rfl

lemma splitPivot_wrap (entries : List SignedEntry) (r : Range) (k : ℕ) :
    splitPivot entries r k k = splitPivot entries r k 0 := by
  simp [splitPivot]

lemma mem_pivotRanges : r ∈ pivotRanges pivot m ↔
      ∃ i < m, pivot i ≠ pivot (i + 1) ∧ r = ⟨pivot i, pivot (i + 1)⟩ := by
  simp only [pivotRanges, mem_filterMap, mem_range, Option.ite_none_right_eq_some,
    ne_eq, RecordIdentifier.compare_eq_iff, Option.some.injEq, eq_comm (a := r)]

/-! ## Pivots in order

`a` is the base from which the rotated identifiers are sorted. -/

section

variable {entries : List SignedEntry} {r : Range} {a : RecordIdentifier}
  (hsorted : (rotatedIds entries r).Pairwise fun x y => pos a x < pos a y)
include hsorted

variable {i : ℕ}

lemma pos_lt_of_index_lt (hx : (rotatedIds entries r)[i]? = some x)
    (hy : (rotatedIds entries r)[j]? = some y) (hij : i < j) : pos a x < pos a y := by
  obtain ⟨hi, rfl⟩ := List.getElem?_eq_some_iff.mp hx
  obtain ⟨hj, rfl⟩ := List.getElem?_eq_some_iff.mp hy
  exact pairwise_iff_getElem.mp hsorted i j hi hj hij

lemma pos_le_of_index_le (hx : (rotatedIds entries r)[i]? = some x)
    (hy : (rotatedIds entries r)[j]? = some y) (hij : i ≤ j) : pos a x ≤ pos a y := by
  rcases hij.eq_or_lt with rfl | hlt
  · rw [hx] at hy
    rw [Option.some.inj hy]
  · exact (pos_lt_of_index_lt hsorted hx hy hlt).le

lemma pos_splitPivot_le (hn : 0 < entries.length) (hi : i + 2 < k) :
    pos a (splitPivot entries r k i) ≤ pos a (splitPivot entries r k (i + 1)) := by
  refine pos_le_of_index_le hsorted (splitPivot_eq r hn (by omega)) (splitPivot_eq r hn hi) ?_
  exact Nat.div_le_div_right (Nat.mul_le_mul_left _ (by omega))

lemma pos_first_lt_lastCut (hn : 2 ≤ entries.length) (hk : 2 ≤ k) :
    pos a (splitPivot entries r k (k - 1)) < pos a (splitPivot entries r k (k - 2)) := by
  refine pos_lt_of_index_lt hsorted (splitPivot_last r (by omega) (by omega))
    (splitPivot_eq r (by omega) (by omega)) ?_
  obtain ⟨j, rfl⟩ : ∃ j, k = j + 2 := ⟨k - 2, by omega⟩
  rw [Nat.div_pos_iff]
  refine ⟨by omega, ?_⟩
  calc j + 2 ≤ 2 * (j + 1) := by omega
    _ ≤ entries.length * (j + 2 - 2 + 1) := Nat.mul_le_mul hn (by omega)

end

lemma splitPivot_mem (r : Range) (hn : 0 < entries.length) (hi : i + 1 < k) :
    ∃ e ∈ entries, e.entry.id = splitPivot entries r k i :=
  mem_rotatedIds.mp (mem_of_getElem? (splitPivot_eq r hn hi))

lemma splitPivot_last_mem (r : Range) (hn : 0 < entries.length) (hk : 0 < k) :
    ∃ e ∈ entries, e.entry.id = splitPivot entries r k (k - 1) :=
  mem_rotatedIds.mp (mem_of_getElem? (splitPivot_last r hn hk))

/-! ## The pieces of a proper range -/

lemma mem_properPieces : r' ∈ nonEmptyRanges (⟨r.start, splitPivot entries r k 0⟩ ::
        pivotRanges (splitPivot entries r k) (k - 2) ++ [⟨splitPivot entries r k (k - 2), r.stop⟩]) ↔
      r'.start ≠ r'.stop ∧ (r' = ⟨r.start, splitPivot entries r k 0⟩ ∨
        (∃ i < k - 2, r' = ⟨splitPivot entries r k i, splitPivot entries r k (i + 1)⟩) ∨
        r' = ⟨splitPivot entries r k (k - 2), r.stop⟩) := by
  simp only [nonEmptyRanges, mem_filter, mem_append, mem_cons, mem_pivotRanges,
    decide_eq_true_eq, ne_eq, RecordIdentifier.compare_eq_iff, not_mem_nil, or_false]
  constructor
  · rintro ⟨(rfl | ⟨i, hi, hne, rfl⟩) | rfl, hends⟩
    · exact ⟨hends, Or.inl rfl⟩
    · exact ⟨hends, Or.inr (Or.inl ⟨i, hi, rfl⟩)⟩
    · exact ⟨hends, Or.inr (Or.inr rfl)⟩
  · rintro ⟨hends, rfl | ⟨i, hi, rfl⟩ | rfl⟩
    · exact ⟨Or.inl (Or.inl rfl), hends⟩
    · exact ⟨Or.inl (Or.inr ⟨i, hi, hends, rfl⟩), hends⟩
    · exact ⟨Or.inr rfl, hends⟩

lemma properPieces_cover (hne : r.start ≠ r.stop) {id : RecordIdentifier} (h : r.contains id) :
    ∃ r' ∈ nonEmptyRanges (⟨r.start, splitPivot entries r k 0⟩ ::
        pivotRanges (splitPivot entries r k) (k - 2) ++
          [⟨splitPivot entries r k (k - 2), r.stop⟩]), r'.contains id := by
  simp only [mem_properPieces, Range.contains_iff_within]
  rw [Range.contains_iff_within, within_iff_pos_lt hne] at h
  rcases lt_or_ge (pos r.start id) (pos r.start (splitPivot entries r k (k - 2))) with hlt | hge
  · rcases exists_within_of_pos_lt (splitPivot entries r k) (k - 2) hlt with
      ⟨hne0, hwithin⟩ | ⟨i, hi, hnei, hwithin⟩
    · exact ⟨⟨r.start, splitPivot entries r k 0⟩, ⟨hne0, Or.inl rfl⟩, hwithin⟩
    · exact ⟨⟨_, _⟩, ⟨hnei, Or.inr (Or.inl ⟨i, hi, rfl⟩)⟩, hwithin⟩
  · have hlast : pos r.start (splitPivot entries r k (k - 2)) < pos r.start r.stop := hge.trans_lt h
    refine ⟨⟨splitPivot entries r k (k - 2), r.stop⟩, ⟨?_, Or.inr (Or.inr rfl)⟩,
      (within_iff_of_pos_lt hlast).mpr ⟨hge, h⟩⟩
    exact fun heq => hlast.ne (congrArg (pos r.start) heq)

section

variable {entries : List SignedEntry} {r : Range} {k : ℕ}
  (hsorted : entries.Pairwise fun x y => x.entry.id < y.entry.id)
  (hn : 2 ≤ entries.length) (hk : 2 ≤ k)
include hsorted hn hk

lemma properPieces_piece (hne : r.start ≠ r.stop)
    (hin : ∀ e ∈ entries, r.contains e.entry.id) {r' : Range}
    (h : r' ∈ nonEmptyRanges (⟨r.start, splitPivot entries r k 0⟩ ::
        pivotRanges (splitPivot entries r k) (k - 2) ++ [⟨splitPivot entries r k (k - 2), r.stop⟩])) :
    (∀ id, r'.contains id → r.contains id) ∧ ∃ e ∈ entries, ¬ r'.contains e.entry.id := by
  have hpos_n : 0 < entries.length := by omega
  have hrot := rotatedIds_sorted hsorted r
  have hpos : ∀ e ∈ entries, pos r.start e.entry.id < pos r.start r.stop := by
    intro e he
    have hcontains := hin e he
    rwa [Range.contains_iff_within, within_iff_pos_lt hne] at hcontains
  -- every piece is an interval of positions that ends at or before `r.stop`
  have hinterval : ∀ u v, u ≠ v → pos r.start u ≤ pos r.start v →
      pos r.start v ≤ pos r.start r.stop → (∃ e ∈ entries,
        ¬ (pos r.start u ≤ pos r.start e.entry.id ∧ pos r.start e.entry.id < pos r.start v)) →
      (∀ id, (Range.mk u v).contains id → r.contains id) ∧
        ∃ e ∈ entries, ¬ (Range.mk u v).contains e.entry.id := by
    intro u v huv hle hstop hmiss
    have hlt : pos r.start u < pos r.start v :=
      lt_of_le_of_ne hle fun heq => huv (pos_injective _ heq)
    simp only [Range.contains_iff_within, within_iff_of_pos_lt hlt, within_iff_pos_lt hne]
    exact ⟨fun id hid => hid.2.trans_le hstop, hmiss⟩
  obtain ⟨hends, rfl | ⟨i, hi, rfl⟩ | rfl⟩ := mem_properPieces.mp h
  · obtain ⟨e, he, heq⟩ := splitPivot_mem r (k := k) (i := 0) hpos_n (by omega)
    rw [← heq] at hends ⊢
    exact hinterval _ _ hends (pos_self_le _ _) (hpos e he).le ⟨e, he, fun hbad => hbad.2.false⟩
  · obtain ⟨e, he, heq⟩ := splitPivot_mem r (k := k) (i := i + 1) hpos_n (by omega)
    have hle := pos_splitPivot_le hrot (k := k) (i := i) (by omega) (by omega)
    rw [← heq] at hends hle ⊢
    exact hinterval _ _ hends hle (hpos e he).le ⟨e, he, fun hbad => hbad.2.false⟩
  · obtain ⟨e, he, heq⟩ := splitPivot_mem r (k := k) (i := k - 2) hpos_n (by omega)
    obtain ⟨e₀, he₀, heq₀⟩ := splitPivot_last_mem r (k := k) hpos_n (by omega)
    have hfirst := pos_first_lt_lastCut hrot hn hk
    rw [← heq₀] at hfirst
    refine hinterval _ _ hends ?_ le_rfl ⟨e₀, he₀, fun hbad => (hbad.1.trans_lt hfirst).false⟩
    rw [← heq]
    exact (hpos e he).le

/-! ## The pieces of the whole set -/

lemma rotatedIds_sorted_from_first : (rotatedIds entries r).Pairwise fun x y =>
      pos (splitPivot entries r k (k - 1)) x < pos (splitPivot entries r k (k - 1)) y := by
  have hrot := rotatedIds_sorted hsorted r
  have hfirst : (rotatedIds entries r)[0]? = some (splitPivot entries r k (k - 1)) :=
    splitPivot_last r (by omega) (by omega)
  refine hrot.imp_of_mem ?_
  intro x y hx _ hxy
  obtain ⟨i, hi⟩ := mem_iff_getElem?.mp hx
  exact pos_lt_pos_of_rebase (pos_le_of_index_le hrot hfirst hi (Nat.zero_le _)) hxy

lemma allPieces_cover (id : RecordIdentifier) :
    ∃ r' ∈ pivotRanges (splitPivot entries r k) k, r'.contains id := by
  simp only [mem_pivotRanges, Range.contains_iff_within]
  have hrot := rotatedIds_sorted_from_first hsorted hn hk (r := r)
  have hfirst := pos_first_lt_lastCut hrot hn hk
  have hsucc : k - 2 + 1 = k - 1 := by omega
  rcases lt_or_ge (pos (splitPivot entries r k (k - 1)) id)
    (pos (splitPivot entries r k (k - 1)) (splitPivot entries r k (k - 2))) with hlt | hge
  · rcases exists_within_of_pos_lt (splitPivot entries r k) (k - 2) hlt with
      ⟨hne0, hwithin⟩ | ⟨i, hi, hnei, hwithin⟩
    · -- the range from the last pivot, the first entry, to pivot `k`, which is pivot 0
      have hwrap : splitPivot entries r k (k - 1 + 1) = splitPivot entries r k 0 := by
        rw [Nat.sub_add_cancel (by omega), splitPivot_wrap]
      exact ⟨⟨_, _⟩, ⟨k - 1, by omega, by rwa [hwrap], rfl⟩, by rwa [hwrap]⟩
    · exact ⟨⟨_, _⟩, ⟨i, by omega, hnei, rfl⟩, hwithin⟩
  · have hne : splitPivot entries r k (k - 2) ≠ splitPivot entries r k (k - 1) :=
      fun heq => hfirst.ne' (congrArg (pos _) heq)
    refine ⟨⟨_, _⟩, ⟨k - 2, by omega, by rwa [hsucc], rfl⟩, ?_⟩
    rw [hsucc]
    exact (within_base_iff hne).mpr hge

omit hsorted in
lemma allPieces_miss (h : r' ∈ pivotRanges (splitPivot entries r k) k) :
    ∃ e ∈ entries, ¬ r'.contains e.entry.id := by
  obtain ⟨i, hi, hne, rfl⟩ := mem_pivotRanges.mp h
  -- a proper range never holds its own end
  have hend : ∃ e ∈ entries, e.entry.id = splitPivot entries r k (i + 1) := by
    rcases Nat.lt_trichotomy (i + 2) k with hlt | heq | hgt
    · exact splitPivot_mem r (by omega) (by omega)
    · have hlast : i + 1 = k - 1 := by omega
      rw [hlast]
      exact splitPivot_last_mem r (by omega) (by omega)
    · have hwrap : i + 1 = k := by omega
      rw [hwrap, splitPivot_wrap]
      exact splitPivot_mem r (by omega) (by omega)
  obtain ⟨e, he, heq⟩ := hend
  refine ⟨e, he, ?_⟩
  rw [Range.contains_iff_within, within_iff_pos_lt hne, heq]
  exact lt_irrefl _

end

/-! ## `splitRange` -/

section

variable {s : MemoryStore} {sc : NamespaceScope} {r : Range}
  (hn : 2 ≤ (s.scopeRange sc r).length) (splitFactor : ℤ)
include hn

/-- **The pieces cover the range.** -/
theorem splitRange_cover {id : RecordIdentifier} (h : r.contains id) :
    ∃ r' ∈ s.splitRange sc r splitFactor, r'.contains id := by
  have hk : 2 ≤ if splitFactor < 2 then 2 else splitFactor.toNat := by
    split <;> omega
  unfold splitRange
  rw [if_neg (by omega)]
  split
  · exact allPieces_cover (s.scopeRange_sorted sc r) hn hk id
  next hall => exact properPieces_cover (mt Range.isAll_iff.mpr hall) h

/-- **Each piece lies in the range and misses an entry of it.** -/
theorem splitRange_piece (h : r' ∈ s.splitRange sc r splitFactor) :
    (∀ id, r'.contains id → r.contains id) ∧ ∃ e ∈ s.scopeRange sc r, ¬ r'.contains e.entry.id := by
  have hk : 2 ≤ if splitFactor < 2 then 2 else splitFactor.toNat := by
    split <;> omega
  unfold splitRange at h
  rw [if_neg (by omega)] at h
  split at h
  next hall =>
    refine ⟨fun id _ => ?_, allPieces_miss hn hk h⟩
    exact Range.contains_iff_within.mpr (Or.inl (Range.isAll_iff.mp hall))
  next hall =>
    exact properPieces_piece (s.scopeRange_sorted sc r) hn hk (mt Range.isAll_iff.mpr hall)
      (fun e he => (mem_scopeRange.mp he).2.2) h

end

/-- **A split covers its range and makes progress**: what is in a piece is in the range and the other way
round, and each piece has fewer entries. -/
theorem splitRange_splits (s : MemoryStore) (sc : NamespaceScope) (r : Range) (splitFactor : ℤ)
    (hn : 2 ≤ (s.scopeRange sc r).length) :
    (∀ id, r.contains id ↔ ∃ r' ∈ s.splitRange sc r splitFactor, r'.contains id) ∧
      ∀ r' ∈ s.splitRange sc r splitFactor, (s.scopeRange sc r').length < (s.scopeRange sc r).length := by
  refine ⟨fun id => ⟨fun h => splitRange_cover hn splitFactor h, ?_⟩, fun r' hr' => ?_⟩
  · rintro ⟨r', hr', hid⟩
    exact (splitRange_piece hn splitFactor hr').1 id hid
  · obtain ⟨hsub, e, he, hmiss⟩ := splitRange_piece hn splitFactor hr'
    have hnodup : (e :: s.scopeRange sc r').Nodup := by
      refine nodup_cons.mpr ⟨fun hmem => hmiss (mem_scopeRange.mp hmem).2.2, ?_⟩
      exact (s.scopeRange_sorted sc r').imp fun hlt => ne_of_apply_ne (·.entry.id) hlt.ne
    refine (hnodup.subperm fun x hx => ?_).length_le
    rcases mem_cons.mp hx with rfl | hx
    · exact he
    · obtain ⟨hstored, hscope, hin⟩ := mem_scopeRange.mp hx
      exact mem_scopeRange.mpr ⟨hstored, hscope, hsub _ hin⟩

theorem splitRange_splits_three :
    let s := ((((new.put (.unsigned (.replicate 32 0) [1] 5)).1.put (.unsigned (.replicate 32 0) [2] 5)).1.put
      (.unsigned (.replicate 32 0) [3] 5)).1)
    let sc : NamespaceScope := .inNamespace (.replicate 32 0)
    (s.scopeRange sc .zero).length = 3 ∧
      ∀ r' ∈ s.splitRange sc .zero 2, (s.scopeRange sc r').length < (s.scopeRange sc .zero).length := by
  intro s sc
  have hlength : (s.scopeRange sc .zero).length = 3 := by decide +kernel
  exact ⟨hlength, (splitRange_splits s sc .zero 2 (by omega)).2⟩

end MemoryStore

end Iroh.Docs
