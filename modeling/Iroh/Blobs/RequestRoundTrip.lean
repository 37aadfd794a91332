import Mathlib.Data.UInt
import Iroh.Postcard.Decoder
import Iroh.Blobs.RangeSets
import Iroh.Blobs.Request

/-!
# Requests round trip

Reference: `blobs/range.go`, `blobs/protocol.go`.

Ranges are sent as widths of alternating spans, and a sequence of ranges as the offsets at which they change,
again as differences.  The sums are taken in `uint64` arithmetic, where adding back a difference always gives
the number it was taken to.
-/

namespace Iroh.Blobs

open List

open Postcard (varint readVarintLoop varint_ne_nil)

/-! ## The parser reads what the encoders write -/

variable {α β : Type} {p : Parser α} {n : ℕ} {b rest body : Bytes}

lemma varintLoop_of_readVarintLoop
    (h : readVarintLoop i v b = .ok (w, rest)) : varintLoop i v b = .ok (w, rest) := by
  induction b generalizing i v with
  | nil => cases h
  | cons c b ih =>
    rw [readVarintLoop] at h
    rw [varintLoop]
    split at h
    · cases h
    · have hshift : ∀ x : UInt64, shiftLeft64 x (7 * i) = x <<< UInt64.ofNat (7 * i) :=
        fun x => if_pos (by omega)
      rw [hshift, hshift]
      split at h
      · cases h
      next hlast =>
        split at h
        next hend =>
          rw [if_pos hend, if_neg (not_or.mpr ⟨by omega, hlast⟩)]
          split at h
          · cases h
          · cases h
            rw [Postcard.and_low_of_lt hend]
        next hmore =>
          rw [if_neg hmore]
          exact ih h

lemma reads_varint (hn : n < 2 ^ 64) : Reads Parser.varint (varint n) (UInt64.ofNat n) := by
  intro rest
  obtain ⟨w, hread, hw⟩ := Postcard.readVarintLoop_varint (v := 0) rest (Nat.zero_le 9) hn (.inl rfl)
    Nat.one_pos
  have hw : w = UInt64.ofNat n := by
    refine UInt64.toNat_inj.mp (hw.trans ?_)
    rw [UInt64.toNat_ofNat', Nat.mod_eq_of_lt hn]
    simp
  rw [Parser.varint, varintLoop_of_readVarintLoop hread, hw]

lemma reads_uint64 (x : UInt64) : Reads Parser.varint (varint x.toNat) x := by
  have h := reads_varint x.toNat_lt
  rwa [UInt64.ofNat_toNat] at h

lemma reads_hash (h : Hash) : Reads Parser.hash h.toList h := by
  refine Reads.bind_pure_eq (a := h.toList) ?_ ?_
  · intro rest
    simp [Parser.bytes]
  · ext i hi
    simp

lemma reads_count_bind {elem : ℕ} (hn : n < 2 ^ 64) (helem : 0 < elem)
    (hlen : n * elem ≤ body.length) (h : Reads (g n) body a) :
    Reads (Parser.count elem >>= g) (varint n ++ body) a := by
  intro rest
  rw [append_assoc]
  refine bind_eq_ok.mpr ⟨n, body ++ rest, bind_eq_ok.mpr ⟨_, _, reads_varint hn _, ?_⟩, h rest⟩
  have hle : n ≤ (body ++ rest).length / elem := by
    rw [Nat.le_div_iff_mul_le helem, length_append]
    omega
  refine (bind_of_ok rfl _).trans ?_
  rw [UInt64.toNat_ofNat', Nat.mod_eq_of_lt hn, if_neg (Nat.not_lt.mpr hle)]
  rfl

lemma reads_repeat {l : List β} (h : ∀ x ∈ l, Reads p (enc x) (f x)) :
    Reads (Parser.repeat p l.length) (l.flatMap enc) (l.map f) := by
  induction l with
  | nil => exact reads_pure []
  | cons x l ih =>
    have htail := ih fun y hy => h y (mem_cons_of_mem _ hy)
    exact (h x mem_cons_self).bind (htail.bind_pure _)

lemma length_mul_le_flatMap {f : β → Bytes} {l : List β} (h : ∀ x ∈ l, n ≤ (f x).length) :
    l.length * n ≤ (l.flatMap f).length := by
  induction l with
  | nil => simp
  | cons x l ih =>
    have htail := ih fun y hy => h y (mem_cons_of_mem _ hy)
    have hhead := h x mem_cons_self
    simp only [length_cons, flatMap_cons, length_append, Nat.succ_mul]
    omega

lemma one_le_length_varint (n : ℕ) : 1 ≤ (varint n).length := length_pos_iff.mpr (varint_ne_nil n)

lemma reads_varints {l : List UInt64} (hlen : l.length < 2 ^ 64) :
    Reads (Parser.count 1 >>= Parser.repeat Parser.varint)
      (Postcard.slice (fun x : UInt64 => varint x.toNat) l) l := by
  have hrepeat := reads_repeat (l := l) (f := id) fun x _ => reads_uint64 x
  rw [map_id] at hrepeat
  exact reads_count_bind hlen Nat.one_pos
    (length_mul_le_flatMap fun x _ => one_le_length_varint x.toNat) hrepeat

lemma spansLoop_spanWidths {ranges l : List ChunkRange}
    (hne : ∀ cr ∈ ranges, cr.start < cr.stop) (cur : UInt64) :
    spansLoop (spanWidths cur (boundaries ⟨ranges, o⟩)) cur false l = ⟨l ++ ranges, o⟩ := by
  induction ranges generalizing cur l with
  | nil => cases o <;> simp [boundaries, spanWidths, spansLoop]
  | cons cr ranges ih =>
    have hcr := hne cr mem_cons_self
    have htail := ih (l := l ++ [cr]) (fun c hc => hne c (mem_cons_of_mem _ hc)) cr.stop
    rw [append_assoc, singleton_append] at htail
    rw [← htail]
    simp [boundaries, spanWidths, spansLoop, hcr]

lemma chunkRanges_rangeSpecFromRanges (r : ChunkRanges) :
    (rangeSpecFromRanges r).chunkRanges = r.normalize := by
  have hr := r.normalize_normalized
  have hloop := spansLoop_spanWidths (l := []) (o := r.normalize.openStart) hr.nonempty 0
  have hspec : (rangeSpecFromRanges r).spans = spanWidths 0 (boundaries r.normalize) := by
    unfold rangeSpecFromRanges
    cases boundaries r.normalize <;> simp [spanWidths]
  rw [RangeSpec.chunkRanges, hspec]
  exact (congrArg _ hloop).trans hr.normalize_eq

lemma reads_decodeRangeSpec (hlen : s.spans.length < 2 ^ 64) : Reads decodeRangeSpec s.encode s := by
  unfold decodeRangeSpec
  simp only [← bind_assoc]
  exact (reads_varints hlen).bind_pure RangeSpec.mk

/-! ## Range sequences -/

section At

variable {k : UInt64} {entries : List ChunkRangesSeqEntry} {e : ChunkRangesSeqEntry}
  {l : List ChunkRanges} {prev : ChunkRanges}

lemma atLoop_chunkRangesSeqLoop (hlen : i + l.length ≤ 2 ^ 64) (hprev : prev.Normalized) :
    atLoop k (chunkRangesSeqLoop l i prev) prev =
      ((l.map ChunkRanges.normalize).take (k.toNat + 1 - i)).getLastD prev := by
  induction l generalizing i prev with
  | nil => simp [chunkRangesSeqLoop, atLoop]
  | cons r l ih =>
    rw [length_cons] at hlen
    have hr := r.normalize_normalized
    rw [chunkRangesSeqLoop, map_cons]
    rcases Nat.lt_or_ge k.toNat i with hlt | hge
    · have hgt : UInt64.ofNat i > k := by
        rw [gt_iff_lt, UInt64.lt_iff_toNat_lt, UInt64.toNat_ofNat', Nat.mod_eq_of_lt (by omega)]
        exact hlt
      have hzero : k.toNat + 1 - i = 0 := by omega
      rw [hzero, take_zero]
      split
      · rw [ih (by omega) hprev, show k.toNat + 1 - (i + 1) = 0 by omega, take_zero]
      · exact if_pos hgt
    · have hle : ¬UInt64.ofNat i > k := by
        rw [gt_iff_lt, UInt64.lt_iff_toNat_lt, UInt64.toNat_ofNat']
        omega
      have hsucc : k.toNat + 1 - i = (k.toNat + 1 - (i + 1)) + 1 := by omega
      rw [hsucc, take_succ_cons, getLastD_cons]
      split
      next heq =>
        rw [ChunkRanges.chunkRangesEqual_iff, hr.normalize_eq, hprev.normalize_eq] at heq
        rw [ih (by omega) hprev, heq]
      · rw [atLoop, if_neg hle, ih (by omega) hr]

lemma offset_chunkRangesSeqLoop (hlen : i + l.length < 2 ^ 64)
    (he : e ∈ chunkRangesSeqLoop l i prev) : e.offset.toNat < i + l.length := by
  induction l generalizing i prev with
  | nil => cases he
  | cons r l ih =>
    rw [length_cons] at hlen ⊢
    have htail : ∀ {prev}, e ∈ chunkRangesSeqLoop l (i + 1) prev → e.offset.toNat < i + (l.length + 1) :=
      fun h => (ih (by omega) h).trans_eq (by omega)
    rw [chunkRangesSeqLoop] at he
    split at he
    · exact htail he
    · rcases mem_cons.mp he with rfl | he
      · rw [UInt64.toNat_ofNat']
        omega
      · exact htail he

lemma normalized_chunkRangesSeqLoop (he : e ∈ chunkRangesSeqLoop l i prev) : e.ranges.Normalized := by
  induction l generalizing i prev with
  | nil => cases he
  | cons r l ih =>
    rw [chunkRangesSeqLoop] at he
    split at he
    · exact ih he
    · rcases mem_cons.mp he with rfl | he
      · exact r.normalize_normalized
      · exact ih he

lemma atLoop_concat_of_lt (h : k < e.offset) (r : ChunkRanges) :
    atLoop k (entries ++ [e]) r = atLoop k entries r := by
  induction entries generalizing r with
  | nil => exact if_pos h
  | cons e' entries ih => simp [atLoop, ih]

lemma atLoop_of_le (h : ∀ e ∈ entries, e.offset ≤ k) (r : ChunkRanges) :
    atLoop k entries r = (entries.map ChunkRangesSeqEntry.ranges).getLastD r := by
  induction entries generalizing r with
  | nil => rfl
  | cons e entries ih =>
    rw [atLoop, if_neg (not_lt.mpr (h e mem_cons_self)), map_cons, getLastD_cons]
    exact ih (fun e' he' => h e' (mem_cons_of_mem _ he')) e.ranges

lemma normalized_rangeEmpty : ChunkRanges.rangeEmpty.Normalized :=
  ⟨by simp [ChunkRanges.rangeEmpty], by simp [ChunkRanges.rangeEmpty], by simp [ChunkRanges.rangeEmpty]⟩

lemma at_chunkRangesSeqFromRangesOpen (hlen : l.length < 2 ^ 64) :
    (chunkRangesSeqFromRangesOpen l).at k =
      ((l[k.toNat]?.or l.getLast?).map ChunkRanges.normalize).getD .rangeEmpty := by
  have hloop := atLoop_chunkRangesSeqLoop (k := k) (l := l) (i := 0) (by omega) normalized_rangeEmpty
  rw [getLastD_eq_getLast?, getLast?_take] at hloop
  refine hloop.trans ?_
  simp only [Nat.sub_zero, Nat.succ_ne_zero, if_false, Nat.add_sub_cancel, getElem?_map,
    getLast?_map, Option.map_or]

lemma at_chunkRangesSeqFromRanges (hlen : l.length < 2 ^ 64) :
    (chunkRangesSeqFromRanges l).at k = (l[k.toNat]?.map ChunkRanges.normalize).getD .rangeEmpty := by
  have hopen := at_chunkRangesSeqFromRangesOpen (k := k) hlen
  unfold chunkRangesSeqFromRangesOpen ChunkRangesSeq.at at hopen
  unfold chunkRangesSeqFromRanges ChunkRangesSeq.at
  dsimp only
  have hoff : (UInt64.ofNat l.length).toNat = l.length := by
    rw [UInt64.toNat_ofNat', Nat.mod_eq_of_lt hlen]
  rcases Nat.lt_or_ge k.toNat l.length with hlt | hge
  · -- the entry that ends the sequence is still to come
    rw [getElem?_eq_getElem hlt] at hopen ⊢
    split
    · rw [atLoop_concat_of_lt (UInt64.lt_iff_toNat_lt.mpr (hoff.symm ▸ hlt)), hopen]
      rfl
    · exact hopen
  · have hle : ∀ e ∈ chunkRangesSeqLoop l 0 .rangeEmpty, e.offset ≤ k := by
      intro e he
      have hlt := offset_chunkRangesSeqLoop (by omega) he
      exact UInt64.le_iff_toNat_le.mpr (by omega)
    rw [getElem?_eq_none hge]
    split
    · rw [atLoop_of_le]
      · simp
      · intro e he
        rcases mem_append.mp he with he | he
        · exact hle e he
        · obtain rfl := mem_singleton.mp he
          exact UInt64.le_iff_toNat_le.mpr (hoff.symm ▸ hge)
    · rw [atLoop_of_le hle, getLastD_eq_getLast?, getLast?_map]
      cases hget : (chunkRangesSeqLoop l 0 .rangeEmpty).getLast? with
      | none => rfl
      | some e =>
        obtain ⟨offset, ranges, openStart⟩ := e
        simp_all [ChunkRanges.isEmpty, ChunkRanges.rangeEmpty]

end At

/-! ## Requests -/

lemma reads_decodeEntries {entries : List ChunkRangesSeqEntry} (offset : UInt64)
    (hlen : (encodeEntries offset entries).length < 2 ^ 64)
    (hnorm : ∀ e ∈ entries, e.ranges.Normalized) :
    Reads (decodeEntries entries.length offset) (encodeEntries offset entries) entries := by
  induction entries generalizing offset with
  | nil => exact reads_pure []
  | cons e entries ih =>
    simp only [encodeEntries, RangeSpec.encode, Postcard.slice, length_append] at hlen
    have hspans := length_mul_le_flatMap (l := (rangeSpecFromRanges e.ranges).spans) fun x _ =>
      one_le_length_varint x.toNat
    have htail := ih e.offset (by omega) fun e' he' => hnorm e' (mem_cons_of_mem _ he')
    refine (reads_uint64 _).bind ((reads_decodeRangeSpec (by omega)).bind ?_)
    rw [add_sub_cancel, chunkRanges_rangeSpecFromRanges, (hnorm e mem_cons_self).normalize_eq]
    exact htail.bind_pure _

lemma length_le_encodeEntries (offset : UInt64) (entries : List ChunkRangesSeqEntry) :
    entries.length * 1 ≤ (encodeEntries offset entries).length := by
  induction entries generalizing offset with
  | nil => simp
  | cons e entries ih =>
    have htail := ih e.offset
    have hhead := one_le_length_varint (e.offset - offset).toNat
    simp only [encodeEntries, length_cons, length_append]
    omega

lemma reads_decodeChunkRangesSeq {seq : ChunkRangesSeq} (hlen : seq.encode.length < 2 ^ 64)
    (hnorm : ∀ e ∈ seq.entries, e.ranges.Normalized) : Reads decodeChunkRangesSeq seq.encode seq := by
  have hcount := length_le_encodeEntries 0 seq.entries
  rw [ChunkRangesSeq.encode, length_append] at hlen
  exact reads_count_bind (by omega) Nat.one_pos hcount
    ((reads_decodeEntries 0 (by omega) hnorm).bind_pure ChunkRangesSeq.mk)

/-- A sequence made by `ChunkRangesSeqFromRanges` or `ChunkRangesSeqFromRangesOpen`. -/
def ChunkRangesSeq.Made (seq : ChunkRangesSeq) : Prop :=
  ∃ l, seq = chunkRangesSeqFromRanges l ∨ seq = chunkRangesSeqFromRangesOpen l

def Request.Made : Request → Prop
  | .get r => r.ranges.Made
  | .observe r => ∃ ranges, r.ranges = rangeSpecFromRanges ranges
  | .getMany r => r.ranges.Made

lemma ChunkRangesSeq.Made.normalized {seq : ChunkRangesSeq} (h : seq.Made) :
    ∀ e ∈ seq.entries, e.ranges.Normalized := by
  intro e he
  obtain ⟨l, rfl | rfl⟩ := h
  · unfold chunkRangesSeqFromRanges at he
    dsimp only at he
    split at he
    · rcases mem_append.mp he with he | he
      · exact normalized_chunkRangesSeqLoop he
      · obtain rfl := mem_singleton.mp he
        exact normalized_rangeEmpty
    · exact normalized_chunkRangesSeqLoop he
  · exact normalized_chunkRangesSeqLoop he

lemma reads_decodeRequest {req : Request} (hmade : req.Made)
    (hlen : (encodeRequestBytes req).length < 2 ^ 64) :
    Reads decodeRequest (encodeRequestBytes req) req := by
  cases req with
  | get r =>
    simp only [encodeRequestBytes, length_append] at hlen
    exact (reads_varint (by decide)).bind (((reads_hash r.hash).bind
      ((reads_decodeChunkRangesSeq (by omega) hmade.normalized).bind_pure _)).bind_pure Request.get)
  | observe r =>
    simp only [encodeRequestBytes, RangeSpec.encode, Postcard.slice, length_append] at hlen
    have hspans := length_mul_le_flatMap (l := r.ranges.spans) fun x _ => one_le_length_varint x.toNat
    exact (reads_varint (by decide)).bind (((reads_hash r.hash).bind
      ((reads_decodeRangeSpec (by omega)).bind_pure _)).bind_pure Request.observe)
  | getMany r =>
    have hhashes := length_mul_le_flatMap (l := r.hashes) (f := Vector.toList) (n := 32) fun h _ => by
      simp
    simp only [encodeRequestBytes, length_append] at hlen
    have hrepeat := reads_repeat (l := r.hashes) (f := id) fun h _ => reads_hash h
    rw [map_id] at hrepeat
    refine (reads_varint (by decide)).bind ((reads_count_bind (by omega) (by decide) ?_
      (hrepeat.bind ((reads_decodeChunkRangesSeq (by omega) hmade.normalized).bind_pure _))).bind_pure
        Request.getMany)
    rw [length_append]
    omega

/-- **The wire format of requests round trips with its meaning.**  The lengths are those of Go slices. -/
theorem requests_round_trip (l : List ChunkRanges) (hl : l.length < 2 ^ 63) (i : UInt64)
    (r : ChunkRanges) (req : Request) (hmade : req.Made)
    (hlen : (encodeRequestBytes req).length < 2 ^ 63) :
    (chunkRangesSeqFromRanges l).at i = (l[i.toNat]?.map ChunkRanges.normalize).getD .rangeEmpty ∧
      (chunkRangesSeqFromRangesOpen l).at i =
        ((l[i.toNat]?.or l.getLast?).map ChunkRanges.normalize).getD .rangeEmpty ∧
      (rangeSpecFromRanges r).chunkRanges = r.normalize ∧
      decodeRequestBytes (encodeRequestBytes req) = .ok req := by
  refine ⟨at_chunkRangesSeqFromRanges (by omega), at_chunkRangesSeqFromRangesOpen (by omega),
    chunkRanges_rangeSpecFromRanges r, ?_⟩
  have hread := reads_decodeRequest hmade (by omega) []
  rw [append_nil] at hread
  simp [decodeRequestBytes, hread]

def severalRanges : List ChunkRanges :=
  [⟨[⟨0, 1⟩, ⟨3, 5⟩], none⟩, .rangeChunks 2 9, .rangeChunks 2 9, .rangeAll]

theorem requests_round_trip_several :
    (chunkRangesSeqFromRanges severalRanges).at 2 = .rangeChunks 2 9 ∧
    decodeRequestBytes (encodeRequestBytes
      (.get ⟨Vector.replicate 32 7, chunkRangesSeqFromRanges severalRanges⟩)) =
    .ok (.get ⟨Vector.replicate 32 7, ⟨[⟨0, ⟨[⟨0, 1⟩, ⟨3, 5⟩], none⟩⟩, ⟨1, .rangeChunks 2 9⟩,
      ⟨3, .rangeAll⟩, ⟨4, .rangeEmpty⟩]⟩⟩) := by
  have htwo : ChunkRanges.normalize ⟨[⟨0, 1⟩, ⟨3, 5⟩], none⟩ = ⟨[⟨0, 1⟩, ⟨3, 5⟩], none⟩ :=
    ChunkRanges.Normalized.normalize_eq ⟨by simp, by simp, by simp⟩
  have hone : ChunkRanges.normalize (.rangeChunks 2 9) = .rangeChunks 2 9 := by decide +kernel
  have hall : ChunkRanges.normalize .rangeAll = .rangeAll := by decide +kernel
  have hempty : ChunkRanges.normalize .rangeEmpty = .rangeEmpty := by decide +kernel
  have hseq : chunkRangesSeqFromRanges severalRanges =
      ⟨[⟨0, ⟨[⟨0, 1⟩, ⟨3, 5⟩], none⟩⟩, ⟨1, .rangeChunks 2 9⟩, ⟨3, .rangeAll⟩, ⟨4, .rangeEmpty⟩]⟩ := by
    have heq {r r' : ChunkRanges} (h : r.normalize = r) (h' : r'.normalize = r') :
        ChunkRanges.chunkRangesEqual r r' = decide (r = r') := by
      rw [Bool.eq_iff_iff, ChunkRanges.chunkRangesEqual_iff, h, h', decide_eq_true_iff]
    simp only [severalRanges, chunkRangesSeqFromRanges, chunkRangesSeqLoop, htwo, hone, hall, heq htwo hempty,
      heq hone htwo, heq hone hone, heq hall hone]
    decide +kernel
  -- each boundary is written as its distance to the one before
  have hspans : (rangeSpecFromRanges ⟨[⟨0, 1⟩, ⟨3, 5⟩], none⟩).spans = [0, 1, 2, 2] ∧
      (rangeSpecFromRanges (.rangeChunks 2 9)).spans = [2, 7] ∧
      (rangeSpecFromRanges .rangeAll).spans = [0] ∧ (rangeSpecFromRanges .rangeEmpty).spans = [] := by
    simp only [rangeSpecFromRanges, htwo, hone, hall, hempty]
    decide +kernel
  have hlen : (encodeRequestBytes (.get ⟨Vector.replicate 32 7,
      chunkRangesSeqFromRanges severalRanges⟩)).length < 2 ^ 63 := by
    rw [hseq]
    simp [encodeRequestBytes, ChunkRangesSeq.encode, encodeEntries, RangeSpec.encode, hspans,
      Postcard.slice, Postcard.varint_small]
  have h := requests_round_trip severalRanges (by decide) 2 .rangeAll
    (.get ⟨Vector.replicate 32 7, chunkRangesSeqFromRanges severalRanges⟩) ⟨_, .inl rfl⟩ hlen
  refine ⟨h.1.trans hone, ?_⟩
  rw [← hseq]
  exact h.2.2.2

end Iroh.Blobs
