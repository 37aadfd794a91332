import Iroh.Blobs.Bitfield
import Iroh.Blobs.ChunkSelection

/-!
# What chunk ranges select

Reference: `blobs/range.go`, `blobs/bitfield.go` (`chunkRangesSubset`), `blobs/chunkrange_bao.go`
(`selectChunks`).

`Mem` reads ranges as a set of chunk numbers.  `normalize` keeps the set, and its result is the only normal
form of the set: between two ranges of a normal form there is a gap, so an interval of the set lies inside one
of them (`Normalized.covers`).
-/

namespace Iroh.Blobs

open List

/-- Chunk `c` is in the half-open range. -/
def ChunkRange.Mem (cr : ChunkRange) (c : ℕ) : Prop := cr.start.toNat ≤ c ∧ c < cr.stop.toNat

namespace ChunkRanges

def Mem (r : ChunkRanges) (c : ℕ) : Prop :=
  (∃ cr ∈ r.ranges, cr.Mem c) ∨ ∃ start ∈ r.openStart, start.toNat ≤ c

variable {out l : List ChunkRange} {cr : ChunkRange} {c lo hi : ℕ} {a b : ChunkRanges}

/-! ## `normalize` keeps the set -/

lemma start_mergeRange (hx : x ∈ mergeRange out cr) :
    x.start = cr.start ∨ ∃ o ∈ out, x.start = o.start := by
  unfold mergeRange at hx
  split at hx
  · exact .inr ⟨x, hx, rfl⟩
  · cases out with
    | nil => exact .inl (congrArg _ (mem_singleton.mp hx))
    | cons last rest => grind

lemma mem_mergeRange (h : ∀ o ∈ out, o.start ≤ cr.start) :
    (∃ x ∈ mergeRange out cr, x.Mem c) ↔ (∃ x ∈ out, x.Mem c) ∨ cr.Mem c := by
  unfold mergeRange ChunkRange.Mem
  simp only [UInt64.lt_iff_toNat_lt, UInt64.le_iff_toNat_le] at h ⊢
  split
  · simp only [iff_self_or]
    omega
  · cases out with
    | nil => simp
    | cons last rest =>
      have hstart := h last mem_cons_self
      dsimp only
      split
      · simp [or_comm]
      · split <;> simp only [mem_cons, exists_eq_or_imp, or_right_comm (b := ∃ x ∈ rest, _)]
        · exact or_congr_left (by omega)
        · exact or_congr_left (by omega)

lemma mem_foldl_mergeRange (hl : l.Pairwise (·.start ≤ ·.start))
    (h : ∀ cr ∈ l, ∀ o ∈ out, o.start ≤ cr.start) :
    (∃ x ∈ l.foldl mergeRange out, x.Mem c) ↔ (∃ x ∈ out, x.Mem c) ∨ ∃ x ∈ l, x.Mem c := by
  induction l generalizing out with
  | nil => simp
  | cons cr l ih =>
    obtain ⟨hcr, hl⟩ := pairwise_cons.mp hl
    rw [foldl_cons, ih hl, mem_mergeRange (h cr mem_cons_self)]
    · simp [or_assoc]
    · intro d hd o ho
      rcases start_mergeRange ho with heq | ⟨o', ho', heq⟩
      · exact heq ▸ hcr d hd
      · exact heq ▸ h d (mem_cons_of_mem _ hd) o' ho'

lemma mem_absorbOpen (out : List ChunkRange) (start : UInt64) :
    ((∃ x ∈ (absorbOpen out start).1, x.Mem c) ∨ (absorbOpen out start).2.toNat ≤ c) ↔
      (∃ x ∈ out, x.Mem c) ∨ start.toNat ≤ c := by
  induction out generalizing start with
  | nil => rfl
  | cons last rest ih =>
    unfold absorbOpen
    split
    next hstop =>
      rw [ih]
      simp only [mem_cons, exists_eq_or_imp, ChunkRange.Mem, or_comm (b := ∃ x ∈ rest, _),
        or_assoc, UInt64.lt_iff_toNat_lt, UInt64.le_iff_toNat_le] at *
      refine or_congr_right ?_
      split <;> omega
    · rfl

theorem mem_normalize (r : ChunkRanges) : r.normalize.Mem c ↔ r.Mem c := by
  have hsorted : (r.ranges.mergeSort sortLE).Pairwise (·.start ≤ ·.start) := by
    refine (pairwise_mergeSort ?_ ?_ _).imp ?_ <;> intros <;> simp_all [sortLE] <;> grind
  have hmerge : (∃ x ∈ (r.ranges.mergeSort sortLE).foldl mergeRange [], x.Mem c) ↔
      ∃ x ∈ r.ranges, x.Mem c := by
    rw [mem_foldl_mergeRange hsorted (by simp)]
    simp
  unfold normalize
  split
  · simp_all [isEmpty, Mem, rangeEmpty]
  · cases hopen : r.openStart with
    | none => simp [Mem, hmerge, hopen]
    | some start =>
      have habsorb := mem_absorbOpen (c := c) ((r.ranges.mergeSort sortLE).foldl mergeRange []) start
      rw [hmerge] at habsorb
      simpa [Mem, hopen] using habsorb

/-! ## A normal form is the only one of its set -/

lemma Normalized.eq_of_meet (h : a.Normalized) (hx : x ∈ a.ranges)
    (hy : y ∈ a.ranges) (h₁ : x.start.toNat ≤ y.stop.toNat) (h₂ : y.start.toNat ≤ x.stop.toNat) :
    x = y := by
  let apart (x y : ChunkRange) : Prop := x.stop < y.start ∨ y.stop < x.start
  have : Std.Symm apart := ⟨fun _ _ => Or.symm⟩
  have hsep : a.ranges.Pairwise apart := h.gaps.imp .inl
  by_contra hne
  rcases hsep.forall hx hy hne with hlt | hlt
  · exact absurd (UInt64.lt_iff_toNat_lt.mp hlt) (Nat.not_lt.mpr h₂)
  · exact absurd (UInt64.lt_iff_toNat_lt.mp hlt) (Nat.not_lt.mpr h₁)

/-- **An interval of the set lies inside one range of its normal form**, or in the open one. -/
theorem Normalized.covers (h : a.Normalized) (hlt : lo < hi) (hin : ∀ c, lo ≤ c → c < hi → a.Mem c) :
    (∃ x ∈ a.ranges, x.start.toNat ≤ lo ∧ hi ≤ x.stop.toNat) ∨
      ∃ start ∈ a.openStart, start.toNat ≤ lo := by
  rcases hin lo le_rfl hlt with ⟨x, hx, hlo, hstop⟩ | hopen
  · refine .inl ⟨x, hx, hlo, ?_⟩
    -- the chunk behind the range would be in the set, across the gap
    by_contra hgt
    rcases hin x.stop.toNat (by omega) (by omega) with ⟨y, hy, hy₁, hy₂⟩ | ⟨start, hs, hle⟩
    · obtain rfl := h.eq_of_meet hx hy (by omega) hy₁
      exact Nat.lt_irrefl _ hy₂
    · exact absurd (UInt64.lt_iff_toNat_lt.mp (h.openAbove start hs x hx)) (by omega)
  · exact .inr hopen

lemma Normalized.openStart_le (h : a.Normalized) (hin : ∀ c, lo ≤ c → a.Mem c) :
    ∃ start ∈ a.openStart, start.toNat ≤ lo := by
  have hcovers := h.covers (show lo < max (lo + 1) (2 ^ 64) by omega) fun c hc _ => hin c hc
  refine hcovers.resolve_left ?_
  rintro ⟨x, -, -, hle⟩
  have := x.stop.toNat_lt
  omega

variable (ha : a.Normalized) (hb : b.Normalized)
include ha hb

section

variable (h : ∀ c, a.Mem c ↔ b.Mem c)
include h

lemma Normalized.mem_ranges_of_mem_iff (hcr : cr ∈ a.ranges) : cr ∈ b.ranges := by
  have hne : cr.start.toNat < cr.stop.toNat := UInt64.lt_iff_toNat_lt.mp (ha.nonempty cr hcr)
  have hin : ∀ c, cr.start.toNat ≤ c → c < cr.stop.toNat → b.Mem c :=
    fun c h₁ h₂ => (h c).mp (.inl ⟨cr, hcr, h₁, h₂⟩)
  rcases hb.covers hne hin with ⟨y, hy, hy₁, hy₂⟩ | ⟨start, hs, hle⟩
  · -- the range of `b` around it lies inside a range of `a`, which can only be it
    have hback : ∀ c, y.start.toNat ≤ c → c < y.stop.toNat → a.Mem c :=
      fun c h₁ h₂ => (h c).mpr (.inl ⟨y, hy, h₁, h₂⟩)
    rcases ha.covers (by omega) hback with ⟨z, hz, hz₁, hz₂⟩ | ⟨start, hs, hle⟩
    · obtain rfl := ha.eq_of_meet hcr hz (by omega) (by omega)
      have hstart : cr.start = y.start := UInt64.toNat_inj.mp (by omega)
      have hstop : cr.stop = y.stop := UInt64.toNat_inj.mp (by omega)
      rwa [show cr = y by cases cr; cases y; simp_all]
    · exact absurd (UInt64.lt_iff_toNat_lt.mp (ha.openAbove start hs cr hcr)) (by omega)
  · obtain ⟨start', hs', hle'⟩ := ha.openStart_le fun c hc => (h c).mpr (.inr ⟨start, hs, hc⟩)
    exact absurd (UInt64.lt_iff_toNat_lt.mp (ha.openAbove start' hs' cr hcr)) (by omega)

lemma Normalized.openStart_of_mem_iff (hs : start ∈ a.openStart) : start ∈ b.openStart := by
  obtain ⟨t, ht, hle⟩ := hb.openStart_le fun c hc => (h c).mp (.inr ⟨start, hs, hc⟩)
  obtain ⟨u, hu, hle'⟩ := ha.openStart_le fun c hc => (h c).mpr (.inr ⟨t, ht, hc⟩)
  cases hs.symm.trans hu
  rwa [show start = t from UInt64.toNat_inj.mp (by omega)]

theorem Normalized.eq_of_mem_iff : a = b := by
  have hranges : a.ranges = b.ranges := by
    have hlt : ∀ {r : ChunkRanges}, r.Normalized → r.ranges.Pairwise (·.start < ·.start) :=
      fun hr => hr.gaps.imp_of_mem fun hx _ hlt => (hr.nonempty _ hx).trans hlt
    refine List.Perm.eq_of_pairwise (fun x y _ _ h₁ h₂ => absurd h₁ h₂.not_gt) (hlt ha) (hlt hb) ?_
    refine (perm_ext_iff_of_nodup ?_ ?_).mpr fun cr => ⟨?_, ?_⟩
    · exact (hlt ha).imp fun h => by rintro rfl; exact lt_irrefl _ h
    · exact (hlt hb).imp fun h => by rintro rfl; exact lt_irrefl _ h
    · exact ha.mem_ranges_of_mem_iff hb h
    · exact hb.mem_ranges_of_mem_iff ha fun c => (h c).symm
  have hopen : a.openStart = b.openStart := Option.ext fun s =>
    ⟨ha.openStart_of_mem_iff hb h, hb.openStart_of_mem_iff ha fun c => (h c).symm⟩
  cases a
  cases b
  simp_all

end

omit ha hb

/-! ## Comparing normal forms -/

lemma forall_mem_zip_eq_iff (hlen : l.length = l'.length) :
    (∀ x y, (x, y) ∈ l.zip l' → x = y) ↔ l = l' := by
  induction l generalizing l' with
  | nil => cases l' <;> simp_all
  | cons x l ih => cases l' <;> simp_all [or_imp, forall_and]

lemma chunkRangesEqual_iff (a b : ChunkRanges) :
    chunkRangesEqual a b = true ↔ a.normalize = b.normalize := by
  unfold chunkRangesEqual
  generalize a.normalize = a
  generalize b.normalize = b
  obtain ⟨ranges, openStart⟩ := a
  obtain ⟨ranges', openStart'⟩ := b
  by_cases hlen : ranges.length = ranges'.length
  · cases openStart <;> cases openStart' <;> simp [hlen, forall_mem_zip_eq_iff hlen]
  · have hne : ranges ≠ ranges' := fun heq => hlen (congrArg _ heq)
    simp [hlen, hne]

lemma Normalized.chunkRangeCovered_iff (h : b.Normalized) (hcr : cr.start < cr.stop) :
    Bitfield.chunkRangeCovered cr b = true ↔ ∀ c, cr.Mem c → b.Mem c := by
  rw [Bitfield.chunkRangeCovered, if_neg (not_le.mpr hcr)]
  simp only [Bool.or_eq_true, any_eq_true, Bool.and_eq_true, decide_eq_true_eq, Option.any_eq_true,
    UInt64.le_iff_toNat_le]
  constructor
  · rintro (⟨x, hx, hle, hle'⟩ | ⟨start, hs, hle⟩) c ⟨h₁, h₂⟩
    · exact .inl ⟨x, hx, by omega, by omega⟩
    · exact .inr ⟨start, hs, by omega⟩
  · intro hin
    exact h.covers (UInt64.lt_iff_toNat_lt.mp hcr) fun c h₁ h₂ => hin c ⟨h₁, h₂⟩

lemma chunkRangesSubset_iff (a b : ChunkRanges) :
    Bitfield.chunkRangesSubset a b = true ↔ ∀ c, a.Mem c → b.Mem c := by
  have ha := a.normalize_normalized
  have hb := b.normalize_normalized
  have hranges : (a.normalize.ranges.all fun cr => Bitfield.chunkRangeCovered cr b.normalize) = true ↔
      ∀ c, (∃ cr ∈ a.normalize.ranges, cr.Mem c) → b.normalize.Mem c := by
    rw [all_eq_true]
    constructor
    · rintro h c ⟨cr, hcr, hc⟩
      exact (hb.chunkRangeCovered_iff (ha.nonempty cr hcr)).mp (h cr hcr) c hc
    · intro h cr hcr
      exact (hb.chunkRangeCovered_iff (ha.nonempty cr hcr)).mpr fun c hc => h c ⟨cr, hcr, hc⟩
  simp only [Bitfield.chunkRangesSubset, Bool.and_eq_true, hranges, ← mem_normalize a,
    ← mem_normalize b]
  refine Iff.trans (and_congr_right fun _ => ?_) ((forall_congr' fun _ => or_imp).trans forall_and).symm
  cases hopen : a.normalize.openStart with
  | none => simp
  | some start =>
    simp only [Option.any_eq_true, decide_eq_true_eq, UInt64.le_iff_toNat_le]
    constructor
    · rintro ⟨t, ht, hle⟩ c ⟨s, hs, hc⟩
      cases hs
      exact .inr ⟨t, ht, hle.trans hc⟩
    · intro h
      exact hb.openStart_le fun c hc => h c ⟨start, rfl, hc⟩

/-- **Chunk ranges have a canonical form.**  `normalize` denotes the same set in normal form, leaves a
normal form as it is, and the comparisons of ranges compare sets. -/
theorem normalize_canonical (a b : ChunkRanges) :
    (∀ c, a.normalize.Mem c ↔ a.Mem c) ∧ a.normalize.Normalized ∧
      a.normalize.normalize = a.normalize ∧
      (chunkRangesEqual a b = true ↔ ∀ c, a.Mem c ↔ b.Mem c) ∧
      (Bitfield.chunkRangesSubset a b = true ↔ ∀ c, a.Mem c → b.Mem c) := by
  have ha := a.normalize_normalized
  refine ⟨fun _ => a.mem_normalize, ha, ha.normalize_eq, ?_, chunkRangesSubset_iff a b⟩
  rw [chunkRangesEqual_iff]
  constructor
  · intro heq c
    rw [← a.mem_normalize, heq, b.mem_normalize]
  · intro h
    refine ha.eq_of_mem_iff b.normalize_normalized fun c => ?_
    rw [a.mem_normalize, b.mem_normalize, h c]

end ChunkRanges

/-! ## Selecting chunks -/

namespace ChunkSelection

variable {r : ChunkRanges} {c : ℕ}

lemma inRanges_iff : InRanges r c ↔ (∃ cr ∈ r.normalize.ranges, cr.Mem c) ∨
    ∃ start ∈ r.normalize.openStart, start ≠ maxUint64 ∧ start.toNat ≤ c ∧ c < maxUint64.toNat := by
  unfold InRanges Selected rangeIntervals
  simp only [mem_append, or_and_right, exists_or]
  refine or_congr (by simp [ChunkRange.Mem]) ?_
  cases r.normalize.openStart with
  | none => simp
  | some start => by_cases hmax : start = maxUint64 <;> simp

lemma inRanges_iff_mem (hc : c < maxUint64.toNat) : InRanges r c ↔ r.Mem c := by
  rw [inRanges_iff, ← r.mem_normalize]
  refine or_congr_right (exists_congr fun start => and_congr_right fun _ => ?_)
  constructor
  · exact fun h => h.2.1
  · intro hle
    refine ⟨?_, hle, hc⟩
    rintro rfl
    omega

lemma exists_inRanges_iff (hc : c < maxUint64.toNat) :
    ((∃ x, c ≤ x ∧ InRanges r x) ∨ LastOnly r) ↔ ∃ x, c ≤ x ∧ r.Mem x := by
  simp only [← r.mem_normalize, inRanges_iff]
  constructor
  · rintro (⟨x, hx, h | ⟨start, hs, -, hle, -⟩⟩ | honly)
    · exact ⟨x, hx, .inl h⟩
    · exact ⟨x, hx, .inr ⟨start, hs, hle⟩⟩
    · exact ⟨maxUint64.toNat, hc.le, .inr ⟨_, honly, le_rfl⟩⟩
  · rintro ⟨x, hx, h | ⟨start, hs, hle⟩⟩
    · exact .inl ⟨x, hx, .inl h⟩
    · by_cases hmax : start = maxUint64
      · subst hmax
        exact .inr hs
      · have hlt := UInt64.lt_iff_toNat_lt.mp (lt_of_le_of_ne (le_maxUint64 start) hmax)
        exact .inl ⟨max c start.toNat, by omega, .inr ⟨start, hs, hmax, by omega, by omega⟩⟩

/-- **Chunk selection means what the protocol says.**  The selection is in order and inside the blob, it
has the chunks of the ranges, and the last one when the ranges reach it, and it counts them exactly. -/
theorem selectChunks_means (r : ChunkRanges) (chunks : UInt64) (hchunks : 0 < chunks) :
    (selectChunks r chunks.toNat).Ordered ∧
      (∀ q ∈ selectChunks r chunks.toNat, q.2 ≤ chunks.toNat) ∧
      (∀ c, Selected (selectChunks r chunks.toNat) c ↔ c < chunks.toNat ∧ (r.Mem c ∨
        (c = chunks.toNat - 1 ∧ ((∃ x, chunks.toNat - 1 ≤ x ∧ r.Mem x) ∨ r = .rangeLastChunk)))) ∧
      (selectChunks r chunks.toNat = [] → ∀ c, ¬r.Mem c) ∧
      ∀ lo hi, lo < hi → count (selectChunks r chunks.toNat) lo hi =
            ((Finset.Ico lo hi).filter (Selected (selectChunks r chunks.toNat))).card ∧
          count (selectChunks r chunks.toNat) lo hi =
            count (intersecting (selectChunks r chunks.toNat) lo hi) lo hi := by
  have hpos : 0 < chunks.toNat := UInt64.lt_iff_toNat_lt.mp hchunks
  have hle : chunks.toNat ≤ maxUint64.toNat := UInt64.le_iff_toNat_le.mp (le_maxUint64 chunks)
  have hord := selectChunks_ordered (r := r) hpos
  have hlast : r = .rangeLastChunk → ∃ x, chunks.toNat - 1 ≤ x ∧ r.Mem x := by
    rintro rfl
    exact ⟨maxUint64.toNat, by omega, .inr ⟨_, rfl, le_rfl⟩⟩
  have hsel : ∀ c, Selected (selectChunks r chunks.toNat) c ↔ c < chunks.toNat ∧ (r.Mem c ∨
      (c = chunks.toNat - 1 ∧ ((∃ x, chunks.toNat - 1 ≤ x ∧ r.Mem x) ∨ r = .rangeLastChunk))) := by
    intro c
    rw [selected_selectChunks hpos, exists_inRanges_iff (by omega), or_iff_left_of_imp hlast]
    exact and_congr_right fun hc => by rw [inRanges_iff_mem (by omega)]
  refine ⟨hord, ?_, hsel, ?_, fun lo hi hlt => ⟨hord.count_eq_card lo hi, ?_⟩⟩
  · intro q hq
    have hne := hord.nonempty q hq
    have := ((hsel (q.2 - 1)).mp ⟨q, hq, by omega, by omega⟩).1
    omega
  · intro hnil c hc
    have hnone := (hsel (min c (chunks.toNat - 1))).not.mp (by simp [hnil, Selected])
    rcases Nat.lt_or_ge c (chunks.toNat - 1) with hlt | hge
    · exact hnone ⟨by omega, .inl (by rwa [Nat.min_eq_left hlt.le])⟩
    · exact hnone ⟨by omega, .inr ⟨by omega, .inl ⟨c, hge, hc⟩⟩⟩
  · rw [hord.count_eq_card, (hord.intersecting lo hi).count_eq_card]
    congr 1
    refine Finset.filter_congr fun c hc => ?_
    rw [Finset.mem_Ico] at hc
    exact (hord.selected_intersecting hc.1 hc.2).symm

theorem selectChunks_means_last :
    (0 : UInt64) < 4 ∧ Selected (selectChunks .rangeLastChunk (4 : UInt64).toNat) 3 :=
  ⟨by decide, ((selectChunks_means .rangeLastChunk 4 (by decide)).2.2.1 3).mpr
    ⟨by decide, .inr ⟨rfl, .inr rfl⟩⟩⟩

end ChunkSelection

end Iroh.Blobs
