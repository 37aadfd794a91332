import Iroh.Blobs.RequestRoundTrip

/-!
# What a bitfield says

Reference: `blobs/bitfield.go`.

`NewBitfield` writes the chunks of a blob in a canonical way: from the last chunk on they count as present, so
that a bitfield that has the last chunk gets an open end behind it.  The open end replaces the one the ranges
had, though, and that one may start inside the blob: then its chunks are lost.
-/

namespace Iroh.Blobs

open List

open ChunkRanges (rangeAll rangeChunks)

/-! ## Reading an observe item -/

def slicesSorted : List UInt64 → Bool
  | a :: b :: rest => !(b < a) && slicesSorted (b :: rest)
  | _ => true

/-- The ranges between pairs of boundaries, the last boundary alone being an open start. -/
def rangesBetween : List UInt64 → ChunkRanges
  | start :: stop :: rest => ⟨⟨start, stop⟩ :: (rangesBetween rest).ranges, (rangesBetween rest).openStart⟩
  | [start] => ⟨[], some start⟩
  | [] => ⟨[], none⟩

def decodeChunkRangesBoundaries : Parser ChunkRanges := do
  let n ← Parser.count 1
  let bounds ← Parser.repeat Parser.varint n
  if slicesSorted bounds then return (rangesBetween bounds).normalize
  else throw (.verify "chunk range boundaries are not sorted")

def decodeObserveItem : Parser Bitfield := do
  let size ← Parser.varint
  let ranges ← decodeChunkRangesBoundaries
  return .new size ranges

def Bitfield.isComplete (b : Bitfield) : Bool :=
  if b.size = 0 then b.ranges.isAll
  else chunkRangesSubset (rangeChunks 0 (chunkCount b.size)) b.ranges

variable {r : ChunkRanges} {size : UInt64} {c : ℕ}

lemma rangesBetween_boundaries (ranges : List ChunkRange) (openStart : Option UInt64) :
    rangesBetween (boundaries ⟨ranges, openStart⟩) = ⟨ranges, openStart⟩ := by
  induction ranges with
  | nil => cases openStart <;> rfl
  | cons cr ranges ih =>
    show rangesBetween (cr.start :: cr.stop :: boundaries ⟨ranges, openStart⟩) = _
    rw [rangesBetween, ih]

lemma slicesSorted_boundaries (h : r.Normalized) : slicesSorted (boundaries r) = true := by
  obtain ⟨ranges, openStart⟩ := r
  induction ranges with
  | nil => cases openStart <;> rfl
  | cons cr ranges ih =>
    have htail := ih ⟨fun c hc => h.nonempty c (mem_cons_of_mem _ hc), h.gaps.tail,
      fun s hs c hc => h.openAbove s hs c (mem_cons_of_mem _ hc)⟩
    have hcr := h.nonempty cr mem_cons_self
    show slicesSorted (cr.start :: cr.stop :: boundaries ⟨ranges, openStart⟩) = true
    rw [slicesSorted, decide_eq_false hcr.not_gt]
    cases ranges with
    | cons cr' ranges =>
      have hgap : cr.stop < cr'.start := (pairwise_cons.mp h.gaps).1 cr' mem_cons_self
      show (!decide (cr'.start < cr.stop) && slicesSorted (cr'.start :: _)) = true
      rw [decide_eq_false hgap.not_gt]
      exact htail
    | nil =>
      cases openStart with
      | none => rfl
      | some start =>
        have habove := h.openAbove start rfl cr mem_cons_self
        show (!decide (start < cr.stop) && true) = true
        rw [decide_eq_false habove.not_gt]
        rfl

lemma reads_decodeObserveItem {b : Bitfield} (hlen : b.encodeObserveItem.length < 2 ^ 64) :
    Reads decodeObserveItem b.encodeObserveItem (.new b.size b.ranges.normalize) := by
  have hnorm := b.ranges.normalize_normalized
  have hbounds := length_mul_le_flatMap (l := Bitfield.chunkRangeBoundaries b.ranges) fun x _ =>
    one_le_length_varint x.toNat
  simp only [Bitfield.encodeObserveItem, Postcard.slice, length_append] at hlen
  refine (reads_uint64 b.size).bind (Reads.bind_pure (a := b.ranges.normalize) ?_ _)
  refine reads_count_bind (by omega) Nat.one_pos hbounds ?_
  have hrepeat := reads_repeat (l := Bitfield.chunkRangeBoundaries b.ranges) (f := id)
    fun x _ => reads_uint64 x
  rw [map_id] at hrepeat
  intro rest
  refine bind_eq_ok.mpr ⟨_, rest, hrepeat rest, ?_⟩
  have hsorted : slicesSorted (Bitfield.chunkRangeBoundaries b.ranges) = true :=
    slicesSorted_boundaries hnorm
  refine (congrFun (if_pos hsorted) rest).trans (pure_eq_ok.mpr ⟨?_, rfl⟩)
  exact (congrArg _ (rangesBetween_boundaries _ _)).trans hnorm.normalize_eq

/-! ## The chunks of a bitfield -/

namespace Bitfield

lemma containsChunk_iff (chunk : UInt64) : containsChunk r chunk = true ↔ r.Mem chunk.toNat := by
  rw [← r.mem_normalize]
  simp only [containsChunk, ChunkRanges.Mem, ChunkRange.Mem, Bool.or_eq_true, any_eq_true,
    Bool.and_eq_true, Option.any_eq_true, decide_eq_true_eq, Option.mem_def, UInt64.le_iff_toNat_le,
    UInt64.lt_iff_toNat_lt]

lemma mem_rangeChunks (stop : UInt64) : (rangeChunks 0 stop).Mem c ↔ c < stop.toNat := by
  unfold rangeChunks
  split
  next h =>
    have h0 : stop.toNat = 0 := Nat.le_zero.mp (UInt64.le_iff_toNat_le.mp h)
    simp [ChunkRanges.Mem, ChunkRanges.rangeEmpty, h0]
  · simp [ChunkRanges.Mem, ChunkRange.Mem]

lemma subset_rangeChunks (stop : UInt64) (r : ChunkRanges) :
    chunkRangesSubset (rangeChunks 0 stop) r = true ↔ ∀ c < stop.toNat, r.Mem c := by
  simp [ChunkRanges.chunkRangesSubset_iff, mem_rangeChunks]

/-- The number of chunks, as `chunkCount` has it. -/
def chunks (size : UInt64) : ℕ := (chunkCount size).toNat

lemma chunks_pos (hsize : size ≠ 0) : 0 < chunks size := by
  have hlt := size.toNat_lt
  have hpos : 1 ≤ size.toNat := Nat.one_le_iff_ne_zero.mpr fun h => hsize (UInt64.toNat_inj.mp h)
  have hsub : (size - 1).toNat = size.toNat - 1 :=
    UInt64.toNat_sub_of_le _ _ (UInt64.le_iff_toNat_le.mpr hpos)
  rw [chunks, chunkCount, if_neg hsize, UInt64.toNat_add, UInt64.toNat_div, hsub]
  show 0 < ((size.toNat - 1) / 1024 + 1) % 2 ^ 64
  omega

def HasAll (size : UInt64) (r : ChunkRanges) : Prop := ∀ c < chunks size, r.Mem c

lemma new_cases (hsize : size ≠ 0) (r : ChunkRanges) : (HasAll size r ∧ new size r = complete size) ∨
      (¬HasAll size r ∧ ¬r.Mem (chunks size - 1) ∧ new size r = ⟨size, r.normalize⟩) ∨
      (¬HasAll size r ∧ r.Mem (chunks size - 1) ∧
        new size r = ⟨size, ChunkRanges.normalize ⟨r.normalize.ranges, some (chunkCount size)⟩⟩) := by
  have hpos := chunks_pos hsize
  have hlast : (chunkCount size - 1).toNat = chunks size - 1 :=
    UInt64.toNat_sub_of_le _ _ (UInt64.le_iff_toNat_le.mpr hpos)
  have hall : chunkRangesSubset (rangeChunks 0 (chunkCount size)) r = true ↔ HasAll size r :=
    subset_rangeChunks _ r
  unfold new
  rw [if_neg hsize]
  by_cases h : HasAll size r
  · exact .inl ⟨h, if_pos (hall.mpr h)⟩
  · rw [if_neg (hall.not.mpr h)]
    by_cases hc : r.Mem (chunks size - 1)
    · exact .inr (.inr ⟨h, hc, if_pos ((containsChunk_iff _).mpr (hlast.symm ▸ hc))⟩)
    · exact .inr (.inl ⟨h, hc, if_neg ((containsChunk_iff _).not.mpr (hlast.symm ▸ hc))⟩)

lemma new_normalize (size : UInt64) (r : ChunkRanges) : new size r.normalize = new size r := by
  unfold new chunkRangesSubset containsChunk
  rw [r.normalize_normalized.normalize_eq]

/-- A bitfield says what it was built from: it has the chunks of the ranges, is complete exactly when
they hold all chunks, and is read back as it was sent. -/
structure Faithful (size : UInt64) (r : ChunkRanges) : Prop where
  mem : ∀ c < chunks size, ((new size r).ranges.Mem c ↔ r.Mem c)
  complete : (new size r).isComplete = true ↔ HasAll size r
  decoded : decodeObserveItem (new size r).encodeObserveItem = .ok (new size r) []

lemma size_new (size : UInt64) (r : ChunkRanges) : (new size r).size = size := by
  unfold new
  grind [complete]

/-- **A bitfield says what it was built from exactly when the ranges hold all chunks or lack the
last.**  The encoded item is a Go slice. -/
theorem faithful_iff_complete_or_not_last (size : UInt64) (r : ChunkRanges) (hsize : size ≠ 0)
    (hlen : (new size r).encodeObserveItem.length < 2 ^ 63) :
    Faithful size r ↔ (∀ c < chunks size, r.Mem c) ∨ ¬r.Mem (chunks size - 1) := by
  have hdecode : decodeObserveItem (new size r).encodeObserveItem = .ok (new size (new size r).ranges) [] := by
    have hread := reads_decodeObserveItem (b := new size r) (by omega) []
    rwa [append_nil, new_normalize, size_new] at hread
  have hcomplete : (new size r).isComplete = true ↔ HasAll size (new size r).ranges := by
    rw [isComplete, size_new, if_neg hsize, subset_rangeChunks]
    rfl
  rcases new_cases hsize r with ⟨hall, hnew⟩ | ⟨hnot, hlast, hnew⟩ | ⟨hnot, hlast, hnew⟩
  · have hmem : ∀ c, (new size r).ranges.Mem c := fun c => by
      rw [hnew]
      exact .inr ⟨0, rfl, Nat.zero_le c⟩
    refine iff_of_true ⟨fun c hc => iff_of_true (hmem c) (hall c hc),
      hcomplete.trans (iff_of_true (fun c _ => hmem c) hall), ?_⟩ (.inl hall)
    rcases new_cases hsize (new size r).ranges with ⟨-, hagain⟩ | ⟨h, -⟩ | ⟨h, -⟩
    · rw [hdecode, hagain, hnew]
    · exact absurd (fun c _ => hmem c) h
    · exact absurd (fun c _ => hmem c) h
  · have hmem : ∀ c, (new size r).ranges.Mem c ↔ r.Mem c := fun c => by
      rw [hnew, r.mem_normalize]
    refine iff_of_true ⟨fun c _ => hmem c, hcomplete.trans ?_, ?_⟩ (.inr hlast)
    · simp [HasAll, hmem]
    · rw [hdecode]
      conv_lhs => rw [hnew, new_normalize]
  · -- the open end is written again over the one that the first time made
    refine iff_of_false ?_ (not_or.mpr ⟨hnot, not_not.mpr hlast⟩)
    rintro ⟨hmem, -, hdecoded⟩
    generalize hm : (new size r).ranges = m at hmem hdecode
    have hpos := chunks_pos hsize
    have hnorm : m.Normalized := by
      rw [← hm, hnew]
      exact ChunkRanges.normalize_normalized _
    have hbehind : ∀ c, chunks size ≤ c → m.Mem c := by
      intro c hc
      rw [← hm, hnew, ChunkRanges.mem_normalize]
      exact .inr ⟨_, rfl, hc⟩
    have hmlast : m.Mem (chunks size - 1) := (hmem _ (by omega)).mpr hlast
    obtain ⟨start, hs, hle⟩ := hnorm.openStart_le fun c (hc : chunks size - 1 ≤ c) => by
      rcases Nat.lt_or_ge c (chunks size) with h | h
      · rwa [show c = chunks size - 1 by omega]
      · exact hbehind c h
    have hmnot : ¬HasAll size m := fun h => hnot fun c hc => (hmem c hc).mp (h c hc)
    rcases new_cases hsize m with ⟨h, -⟩ | ⟨-, h, -⟩ | ⟨-, -, hagain⟩
    · exact hmnot h
    · exact h hmlast
    · rw [hdecode, hagain, EStateM.Result.ok.injEq] at hdecoded
      have heq : ChunkRanges.normalize ⟨m.normalize.ranges, some (chunkCount size)⟩ = m :=
        (congrArg Bitfield.ranges hdecoded.1).trans hm
      rw [← heq, ChunkRanges.mem_normalize, hnorm.normalize_eq] at hmlast
      rcases hmlast with ⟨cr, hcr, -, hlt⟩ | ⟨_, ⟨⟩, hge⟩
      · have := UInt64.lt_iff_toNat_lt.mp (hnorm.openAbove start hs cr hcr)
        omega
      · exact absurd hge (by unfold chunks at hpos; unfold chunks; omega)

theorem faithful_iff_complete_or_not_last_two : ¬HasAll 4096 ⟨[⟨0, 1⟩, ⟨2, 3⟩], none⟩ ∧
    Faithful 4096 ⟨[⟨0, 1⟩, ⟨2, 3⟩], none⟩ := by
  have hchunks : chunks 4096 = 4 := by decide
  have hlast : ¬(⟨[⟨0, 1⟩, ⟨2, 3⟩], none⟩ : ChunkRanges).Mem (chunks 4096 - 1) := by
    simp [hchunks, ChunkRanges.Mem, ChunkRange.Mem]
  have hnot : ¬HasAll 4096 ⟨[⟨0, 1⟩, ⟨2, 3⟩], none⟩ := fun h => hlast (h _ (by rw [hchunks]; decide))
  have hnorm : ChunkRanges.normalize ⟨[⟨0, 1⟩, ⟨2, 3⟩], none⟩ = ⟨[⟨0, 1⟩, ⟨2, 3⟩], none⟩ :=
    ChunkRanges.Normalized.normalize_eq ⟨by simp, by simp, by simp⟩
  have hnew : new 4096 ⟨[⟨0, 1⟩, ⟨2, 3⟩], none⟩ = ⟨4096, ⟨[⟨0, 1⟩, ⟨2, 3⟩], none⟩⟩ := by
    rcases new_cases (by decide : (4096 : UInt64) ≠ 0) ⟨[⟨0, 1⟩, ⟨2, 3⟩], none⟩ with
      ⟨h, -⟩ | ⟨-, -, h⟩ | ⟨-, h, -⟩
    · exact absurd h hnot
    · rw [h, hnorm]
    · exact absurd h hlast
  have hlen : (new 4096 ⟨[⟨0, 1⟩, ⟨2, 3⟩], none⟩).encodeObserveItem.length < 2 ^ 63 := by
    have hsize : Postcard.varint 4096 = [128, 32] := by
      rw [Postcard.varint_large (by decide), Postcard.varint_small (by decide)]
      rfl
    rw [hnew]
    simp [encodeObserveItem, hsize, chunkRangeBoundaries, hnorm, Postcard.slice, Postcard.varint_small]
  exact ⟨hnot, (faithful_iff_complete_or_not_last 4096 _ (by decide) hlen).mpr (.inr hlast)⟩

/-- Of four chunks the ranges have all but the second; the bitfield has only the first. -/
theorem open_end_overwritten : (new 4096 ⟨[⟨0, 1⟩], some 2⟩).ranges = ⟨[⟨0, 1⟩], some 4⟩ ∧
      ¬Faithful 4096 ⟨[⟨0, 1⟩], some 2⟩ := by
  have hnew : (new 4096 ⟨[⟨0, 1⟩], some 2⟩).ranges = ⟨[⟨0, 1⟩], some 4⟩ := by
    decide +kernel
  refine ⟨hnew, fun h => ?_⟩
  have hmem := h.mem 2 (by decide)
  rw [hnew] at hmem
  simp [ChunkRanges.Mem, ChunkRange.Mem] at hmem

end Bitfield

end Iroh.Blobs
