import Iroh.Common.Bytes

/-!
# Chunk ranges

Reference: `blobs/range.go`.

`ChunkRanges` selects chunks of one blob: finite half-open ranges and possibly an open end.
`normalize` sorts and merges them; `Normalized` is what its result satisfies whatever the input
looked like, and is all the rest of the development uses of it.
-/

namespace Iroh.Blobs

open List

/-- `range.go::ChunkRange`, a half-open range of 1024-byte chunks. -/
structure ChunkRange where
  start : UInt64
  stop : UInt64
deriving DecidableEq

structure ChunkRanges where
  ranges : List ChunkRange
  openStart : Option UInt64
deriving DecidableEq

def maxUint64 : UInt64 := 0xffffffffffffffff

lemma le_maxUint64 (x : UInt64) : x ≤ maxUint64 := by
  rw [UInt64.le_iff_toNat_le]
  have := x.toNat_lt
  have hmax : maxUint64.toNat = 2 ^ 64 - 1 := rfl
  omega

namespace ChunkRanges

def rangeEmpty : ChunkRanges := ⟨[], none⟩

def rangeAll : ChunkRanges := ⟨[], some 0⟩

def rangeLastChunk : ChunkRanges := ⟨[], some maxUint64⟩

def rangeChunks (start stop : UInt64) : ChunkRanges :=
  if start ≥ stop then rangeEmpty else ⟨[⟨start, stop⟩], none⟩

def isEmpty (r : ChunkRanges) : Bool := r.ranges.isEmpty && r.openStart.isNone

def isAll (r : ChunkRanges) : Bool := r.ranges.isEmpty && r.openStart = some 0

/-- The order of `normalize`'s sort: by start, then by end. -/
def sortLE (a b : ChunkRange) : Bool := a.start < b.start || (a.start = b.start && a.stop ≤ b.stop)

/-- One turn of `normalize`'s merge loop.  `out` is kept with its last element first. -/
def mergeRange (out : List ChunkRange) (cr : ChunkRange) : List ChunkRange :=
  if cr.start ≥ cr.stop then out
  else match out with
    | [] => [cr]
    | last :: rest =>
      if cr.start > last.stop then cr :: out
      else if cr.stop > last.stop then ⟨last.start, cr.stop⟩ :: rest
      else out

/-- `normalize`'s loop that lets the open range swallow the ranges it touches. -/
def absorbOpen : List ChunkRange → UInt64 → List ChunkRange × UInt64
  | [], start => ([], start)
  | last :: rest, start =>
    if last.stop ≥ start then absorbOpen rest (if last.start < start then last.start else start)
    else (last :: rest, start)

def normalize (r : ChunkRanges) : ChunkRanges :=
  if r.isEmpty then rangeEmpty
  else
    let out := (r.ranges.mergeSort sortLE).foldl mergeRange []
    match r.openStart with
    | some start =>
      let swallowed := absorbOpen out start
      ⟨swallowed.1.reverse, some swallowed.2⟩
    | none => ⟨out.reverse, none⟩

def chunkRangesEqual (a b : ChunkRanges) : Bool :=
  let a := a.normalize
  let b := b.normalize
  if a.ranges.length ≠ b.ranges.length then false
  else if (a.ranges.zip b.ranges).any fun q => q.1 ≠ q.2 then false
  else match a.openStart, b.openStart with
    | some x, some y => x = y
    | none, none => true
    | _, _ => false

/-- Ranges are non-empty, increasing and separated by gaps, and the open range comes last. -/
structure Normalized (r : ChunkRanges) : Prop where
  nonempty : ∀ cr ∈ r.ranges, cr.start < cr.stop
  gaps : r.ranges.Pairwise fun a b => a.stop < b.start
  openAbove : ∀ start, r.openStart = some start → ∀ cr ∈ r.ranges, cr.stop < start

lemma mergeRange_inv (hne : ∀ cr ∈ out, cr.start < cr.stop)
    (hgaps : out.Pairwise fun a b => b.stop < a.start) (cr : ChunkRange) :
    (∀ c ∈ mergeRange out cr, c.start < c.stop) ∧
      (mergeRange out cr).Pairwise fun a b => b.stop < a.start := by
  unfold mergeRange
  split
  · exact ⟨hne, hgaps⟩
  next hcr =>
    rw [not_le] at hcr
    cases out with
    | nil => simp [hcr]
    | cons last rest =>
      obtain ⟨hlast, hrest⟩ := pairwise_cons.mp hgaps
      have hlastne := hne last mem_cons_self
      dsimp only
      split
      next habove =>
        refine ⟨?_, pairwise_cons.mpr ⟨?_, hgaps⟩⟩
        · intro c hc
          rcases mem_cons.mp hc with rfl | hc
          · exact hcr
          · exact hne c hc
        · intro c hc
          rcases mem_cons.mp hc with rfl | hc
          · exact habove
          · exact (hlast c hc).trans (hlastne.trans habove)
      · split
        next hlonger =>
          refine ⟨?_, pairwise_cons.mpr ⟨hlast, hrest⟩⟩
          intro c hc
          rcases mem_cons.mp hc with rfl | hc
          · exact hlastne.trans hlonger
          · exact hne c (mem_cons_of_mem _ hc)
        · exact ⟨hne, hgaps⟩

lemma foldl_mergeRange_inv (l out : List ChunkRange)
    (hne : ∀ cr ∈ out, cr.start < cr.stop) (hgaps : out.Pairwise fun a b => b.stop < a.start) :
    (∀ c ∈ l.foldl mergeRange out, c.start < c.stop) ∧
      (l.foldl mergeRange out).Pairwise fun a b => b.stop < a.start := by
  induction l generalizing out with
  | nil => exact ⟨hne, hgaps⟩
  | cons cr l ih =>
    obtain ⟨hne', hgaps'⟩ := mergeRange_inv hne hgaps cr
    exact ih _ hne' hgaps'

lemma absorbOpen_spec (hne : ∀ cr ∈ out, cr.start < cr.stop)
    (hgaps : out.Pairwise fun a b => b.stop < a.start) (start : UInt64) :
    (absorbOpen out start).1 <:+ out ∧
      ∀ cr ∈ (absorbOpen out start).1, cr.stop < (absorbOpen out start).2 := by
  induction out generalizing start with
  | nil => simp [absorbOpen]
  | cons last rest ih =>
    obtain ⟨hlast, hrest⟩ := pairwise_cons.mp hgaps
    unfold absorbOpen
    split
    · obtain ⟨hsuffix, hbelow⟩ := ih (fun c hc => hne c (mem_cons_of_mem _ hc)) hrest
        (if last.start < start then last.start else start)
      exact ⟨hsuffix.trans (suffix_cons last rest), hbelow⟩
    next hstop =>
      rw [not_le] at hstop
      refine ⟨suffix_rfl, fun c hc => ?_⟩
      rcases mem_cons.mp hc with rfl | hc
      · exact hstop
      · exact (hlast c hc).trans ((hne last mem_cons_self).trans hstop)

theorem normalize_normalized (r : ChunkRanges) : r.normalize.Normalized := by
  have hinv := foldl_mergeRange_inv (r.ranges.mergeSort sortLE) [] (by simp) List.Pairwise.nil
  unfold normalize
  split
  · exact ⟨by simp [rangeEmpty], by simp [rangeEmpty], by simp [rangeEmpty]⟩
  · split
    next start _ =>
      obtain ⟨hsuffix, hbelow⟩ := absorbOpen_spec hinv.1 hinv.2 start
      refine ⟨?_, ?_, ?_⟩
      · intro cr hcr
        exact hinv.1 cr (hsuffix.subset (mem_reverse.mp hcr))
      · rw [pairwise_reverse]
        exact hinv.2.sublist hsuffix.sublist
      · rintro _ ⟨⟩ cr hcr
        exact hbelow cr (mem_reverse.mp hcr)
    · refine ⟨fun cr hcr => hinv.1 cr (mem_reverse.mp hcr), ?_, by simp⟩
      rw [pairwise_reverse]
      exact hinv.2

lemma foldl_mergeRange_of_gaps (l : List ChunkRange) : ∀ out : List ChunkRange,
    (∀ cr ∈ l, cr.start < cr.stop) → (l.Pairwise fun a b => a.stop < b.start) →
    (∀ cr ∈ l, ∀ c ∈ out, c.stop < cr.start) → l.foldl mergeRange out = l.reverse ++ out := by
  induction l with
  | nil =>
    intro out _ _ _
    rfl
  | cons cr l ih =>
    intro out hne hgaps habove
    obtain ⟨hcr, hl⟩ := pairwise_cons.mp hgaps
    have hmerge : mergeRange out cr = cr :: out := by
      unfold mergeRange
      rw [if_neg (not_le.mpr (hne cr mem_cons_self))]
      cases out with
      | nil => rfl
      | cons last rest =>
        exact if_pos (habove cr mem_cons_self last mem_cons_self)
    rw [foldl_cons, hmerge, ih (cr :: out) (fun c hc => hne c (mem_cons_of_mem _ hc)) hl,
      reverse_cons, append_assoc]
    · rfl
    · intro c hc d hd
      rcases mem_cons.mp hd with rfl | hd
      · exact hcr c hc
      · exact habove c (mem_cons_of_mem _ hc) d hd

lemma Normalized.normalize_eq {r : ChunkRanges} (h : r.Normalized) : r.normalize = r := by
  obtain ⟨ranges, openStart⟩ := r
  have hsort : ranges.mergeSort sortLE = ranges := by
    refine mergeSort_of_pairwise (h.gaps.imp_of_mem fun {a b} ha _ hab => ?_)
    have : a.start < b.start := (h.nonempty a ha).trans hab
    simp [sortLE, this]
  have hout : ranges.foldl mergeRange [] = ranges.reverse := by
    rw [foldl_mergeRange_of_gaps ranges [] h.nonempty h.gaps (by simp), append_nil]
  unfold normalize
  split
  next hempty =>
    simp only [isEmpty, Bool.and_eq_true, List.isEmpty_iff, Option.isNone_iff_eq_none] at hempty
    obtain ⟨rfl, rfl⟩ := hempty
    rfl
  · rw [hsort, hout]
    cases openStart with
    | none => simp
    | some start =>
      have habsorb : absorbOpen ranges.reverse start = (ranges.reverse, start) := by
        cases hrev : ranges.reverse with
        | nil => rfl
        | cons last rest =>
          have hlast : last ∈ ranges := mem_reverse.mp (hrev ▸ mem_cons_self)
          exact if_neg (not_le.mpr (h.openAbove start rfl last hlast))
      simp [habsorb]

end ChunkRanges

end Iroh.Blobs
