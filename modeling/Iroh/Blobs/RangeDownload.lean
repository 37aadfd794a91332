import Iroh.Blobs.ChunkSoundness
import Iroh.Blobs.RangeSets

/-!
# Downloading a range of a blob

Reference: `blobs/transfer.go`, `DownloadBlobRange`.

The range is cut to the size that the provider claims.  The claim is settled by the chunks that are
asked for: either the range ends before the claimed last chunk, and then it lies inside the blob, or the
last chunk is among those sent, and then the claimed size is the blob's (`size_eq_of_last_selected`).
-/

namespace Iroh.Blobs

open ChunkSelection List
open ChunkRanges (rangeChunks)

/-- `chunkRangeTrimWriter`, with what it passed on. -/
structure TrimWriter where
  output : Bytes
  skip : ℕ
  remain : ℕ
  written : ℕ

/-- `chunkRangeTrimWriter.Write`, to a writer that takes what it is given. -/
def TrimWriter.write (w : TrimWriter) (p : Bytes) : TrimWriter :=
  let drop := min w.skip p.length
  let w := { w with skip := w.skip - drop }
  let p := p.drop drop
  let keep := min w.remain p.length
  if w.remain = 0 ∨ keep = 0 then w
  else { w with output := w.output ++ p.take keep, written := w.written + keep,
                remain := w.remain - keep }

inductive RangeError where
  | unaligned (offset : ℕ)
  | overflows (offset length : ℕ)
  | blob (err : BlobError)
  | trailingBytes
  | wrongLength (got want : ℕ)
deriving DecidableEq

/-- `DownloadBlobRange` from a provider that answers with `response` and closes the stream: what the
writer got.  The decoder's writes are trimmed together, which is to trim them one after the other
(`TrimWriter.write_append`). -/
def downloadBlobRange (G : Guts) (hash : Hash) (offset length : UInt64) (response : Bytes) :
    Except RangeError Bytes :=
  if length = 0 then .ok []
  else if offset.toNat % chunkSize ≠ 0 then .error (.unaligned offset.toNat)
  else if offset + length < offset then .error (.overflows offset.toNat length.toNat)
  else
    let stop := offset + length
    let ranges := rangeChunks (offset / 1024) ((stop - 1) / 1024 + 1)
    let checkSize := fun size => if offset.toNat > size then
      some "blobs: invalid blob: range starts beyond blob size" else none
    match decodeBlobChunksWith G hash ranges (some checkSize) ⟨response, []⟩ with
    | .error err _ => .error (.blob err)
    | .ok size st =>
      if st.input ≠ [] then .error .trailingBytes
      else
        let want := min length.toNat (size - offset.toNat)
        let trim := TrimWriter.write ⟨[], offset.toNat % chunkSize, want, 0⟩ st.output
        if trim.written ≠ want then .error (.wrongLength trim.written want) else .ok trim.output

/-- The bytes of a write that are passed on are those after what is skipped, as far as some remain. -/
lemma TrimWriter.write_eq (w : TrimWriter) (p : Bytes) :
    w.write p = ⟨w.output ++ (p.drop w.skip).take w.remain, w.skip - p.length,
      w.remain - (p.length - w.skip), w.written + min w.remain (p.length - w.skip)⟩ := by
  have hskip : w.skip - min w.skip p.length = w.skip - p.length := by omega
  have hdrop : p.drop (min w.skip p.length) = p.drop w.skip := by
    rcases Nat.le_total w.skip p.length with h | h
    · rw [Nat.min_eq_left h]
    · rw [Nat.min_eq_right h, drop_length, drop_eq_nil_of_le h]
  simp only [write, hskip, hdrop, length_drop]
  split
  next h =>
    have hnone : (p.drop w.skip).take w.remain = [] := by
      rw [← length_eq_zero_iff, length_take, length_drop]
      omega
    have hremain : w.remain - (p.length - w.skip) = w.remain := by omega
    have hwritten : min w.remain (p.length - w.skip) = 0 := by omega
    rw [hnone, append_nil, hremain, hwritten, Nat.add_zero]
  · have htake : (p.drop w.skip).take (min w.remain (p.length - w.skip)) = (p.drop w.skip).take w.remain := by
      rw [← length_drop, ← take_eq_take_min]
    have hremain : w.remain - min w.remain (p.length - w.skip) = w.remain - (p.length - w.skip) := by omega
    rw [htake, hremain]

/-- **Writing two pieces is writing them together.** -/
theorem TrimWriter.write_append (w : TrimWriter) (p q : Bytes) : w.write (p ++ q) = (w.write p).write q := by
  rw [write_eq, write_eq, write_eq]
  simp only [drop_append, take_append, length_drop, length_append, append_assoc, mk.injEq, true_and]
  omega

lemma TrimWriter.write_front (want : ℕ) (p : Bytes) :
    (TrimWriter.write ⟨[], 0, want, 0⟩ p).output = p.take want := by
  simp [write_eq]

variable {G : Guts} {data out : Bytes} {size a b i : ℕ}

lemma selected_rangeChunks (hlt : start < stop) (hn : 0 < n) (hmax : n ≤ maxUint64.toNat) :
    (selectChunks (rangeChunks start stop) n).Selected i ↔ i < n ∧
      ((start.toNat ≤ i ∧ i < stop.toNat) ∨ (i = n - 1 ∧ n - 1 < stop.toNat)) := by
  have hlt' := UInt64.lt_iff_toNat_lt.mp hlt
  have hmem : ∀ c, (rangeChunks start stop).Mem c ↔ start.toNat ≤ c ∧ c < stop.toNat := by
    intro c
    rw [rangeChunks, if_neg (not_le.mpr hlt)]
    simp [ChunkRanges.Mem, ChunkRange.Mem]
  rw [selected_selectChunks hn, exists_inRanges_iff (by omega)]
  refine and_congr_right fun hi => ?_
  rw [inRanges_iff_mem (by omega), hmem]
  refine or_congr_right (and_congr_right fun _ => ?_)
  simp only [hmem]
  constructor
  · rintro ⟨x, hx, -, hx'⟩
    omega
  · intro h
    exact ⟨max (n - 1) start.toNat, by omega, by omega, by omega⟩

lemma selectedBytes_interval [DecidablePred P] (hab : a ≤ b) (hbn : b ≤ n)
    (hP : ∀ i < n, P i ↔ a ≤ i ∧ i < b) : selectedBytes data P 0 n = spanBytes data a (b - a) := by
  have hbelow : NoneIn P 0 a := fun i _ hi h => by
    have := (hP i (by omega)).mp h
    omega
  have hin : AllIn P a (b - a) := fun i h₁ h₂ => (hP i (by omega)).mpr (by omega)
  have habove : NoneIn P b (n - b) := fun i h₁ h₂ h => by
    have := (hP i (by omega)).mp h
    omega
  have hsplit : n = a + ((b - a) + (n - b)) := by omega
  rw [hsplit, selectedBytes_add, selectedBytes_add, Nat.zero_add, Nat.add_sub_cancel' hab,
    selectedBytes_none hbelow, selectedBytes_all hin, selectedBytes_none habove, nil_append,
    append_nil]

/-- **With the claimed last chunk among those sent, the claimed size is the blob's.** -/
theorem size_eq_of_last_selected [DecidablePred P] (hpos : 0 < chunkCount size)
    (hgen : Genuine data size P 0 (chunkCount size) 0 (max 1 (chunkCount data.length)) [] out)
    (hlast : P (chunkCount size - 1)) : size = data.length := by
  obtain ⟨-, -, hlen, hend⟩ := hgen.real _ (Nat.zero_le _) (by omega) hlast
  have hlt := hgen.lt_chunkCount (by omega) hlast
  exact size_eq_of_last hpos (by omega) hlen

lemma take_output_eq {offset length : ℕ} [DecidablePred P] (hsize : 0 < size)
    (hoffset : offset = a * 1024) (hle : offset ≤ size) (hlength : 0 < length)
    (hb : b = (offset + length - 1) / 1024 + 1) (hP : ∀ i, P i ↔ i < chunkCount size ∧
      ((a ≤ i ∧ i < b) ∨ (i = chunkCount size - 1 ∧ chunkCount size - 1 < b)))
    (hgen : Genuine data size P 0 (chunkCount size) 0 (max 1 (chunkCount data.length)) [] out) :
    offset ≤ data.length ∧ out.take (min length (size - offset)) =
      (data.drop offset).take (min (offset + length) data.length - offset) := by
  have hcount := chunkCount_eq size
  have hout := hgen.output
  by_cases hlast : P (chunkCount size - 1)
  · -- the size is the blob's
    obtain rfl := size_eq_of_last_selected (by omega) hgen hlast
    refine ⟨hle, ?_⟩
    rw [show min (offset + length) data.length - offset = min length (data.length - offset) by omega]
    rcases Nat.eq_or_lt_of_le hle with heq | hlt
    · simp [heq]
    · have hb' : chunkCount data.length ≤ b := by
        have := (hP _).mp hlast
        omega
      rw [selectedBytes_interval (a := a) (b := chunkCount data.length) (by omega) le_rfl
        fun i hi => by rw [hP]; omega, nil_append] at hout
      rw [hout, spanBytes, take_take, chunkSize, ← hoffset, Nat.min_eq_left (by omega)]
  · -- the range ends inside the blob
    have hb' : b < chunkCount size := by
      by_contra hge
      exact hlast ((hP _).mpr (by omega))
    obtain ⟨-, -, hlen, -⟩ := hgen.real (b - 1) (Nat.zero_le _) (by omega) ((hP _).mpr (by omega))
    rw [sizeForChunk_eq, sizeForChunk_eq] at hlen
    rw [selectedBytes_interval (a := a) (b := b) (by omega) (by omega) fun i hi => by
      rw [hP]
      omega, nil_append] at hout
    refine ⟨by omega, ?_⟩
    rw [hout, spanBytes, take_take, chunkSize, ← hoffset]
    congr 1
    omega

/-- **A downloaded range is the range of the blob**, whatever the provider sent. -/
theorem downloadBlobRange_exact (G : Guts) (hG : G.IsBlake3) (data : Bytes)
    (hbind : Binds G data 0 (max 1 (chunkCount data.length)) true) (offset length : UInt64)
    (hlength : length ≠ 0) (response out : Bytes)
    (h : downloadBlobRange G (newHash G data) offset length response = .ok out) :
    offset.toNat ≤ data.length ∧ out = (data.drop offset.toNat).take
        (min (offset.toNat + length.toNat) data.length - offset.toNat) := by
  unfold downloadBlobRange at h
  rw [if_neg hlength] at h
  split at h
  · cases h
  rename_i halign
  split at h
  · cases h
  rename_i hfits
  dsimp only at h
  split at h
  · cases h
  rename_i size st hrun
  split at h
  · cases h
  split at h
  · cases h
  obtain rfl := Except.ok.inj h
  rw [not_not.mp halign, TrimWriter.write_front]
  obtain ⟨-, hmax, hcheck, hcase⟩ := decodeBlobChunksWith_sound hG hbind hrun
  have hle : offset.toNat ≤ size := by
    by_contra hgt
    simp [Nat.lt_of_not_le hgt] at hcheck
  rcases hcase with ⟨rfl, hhash, hout⟩ | ⟨hsize, -, hgen⟩
  · obtain rfl := eq_nil_of_newHash_eq hG hbind hhash
    simp [Nat.le_zero.mp hle]
  have hpos : 0 < length.toNat := Nat.pos_of_ne_zero fun h => hlength (UInt64.toNat_inj.mp h)
  have hstop : (offset + length).toNat = offset.toNat + length.toNat := by
    have h₂ := length.toNat_lt
    rw [not_lt, UInt64.le_iff_toNat_le, UInt64.toNat_add] at hfits
    rw [UInt64.toNat_add]
    omega
  have hend : ((offset + length - 1) / 1024 + 1).toNat = (offset.toNat + length.toNat - 1) / 1024 + 1 := by
    have hlt := (offset + length).toNat_lt
    have hsub : (offset + length - 1).toNat = (offset + length).toNat - 1 :=
      UInt64.toNat_sub_of_le _ _ (UInt64.le_iff_toNat_le.mpr (show 1 ≤ _ by omega))
    rw [UInt64.toNat_add, UInt64.toNat_div, hsub, hstop]
    show ((offset.toNat + length.toNat - 1) / 1024 + 1) % 2 ^ 64 = _
    omega
  have hstart : (offset / 1024).toNat = offset.toNat / 1024 := UInt64.toNat_div _ _
  have halign : offset.toNat % 1024 = 0 := not_not.mp halign
  have hcount := chunkCount_eq size
  have hbound : maxInt64 < 2 ^ 63 := by decide
  have hmax64 : maxUint64.toNat = 2 ^ 64 - 1 := rfl
  refine take_output_eq (a := offset.toNat / 1024) hsize (by omega) hle hpos rfl (fun i => ?_) hgen
  rw [selected_rangeChunks (UInt64.lt_iff_toNat_lt.mpr (by omega)) (by omega) (by omega), hstart, hend]

/-- The second chunk of a blob of two. -/
theorem downloadBlobRange_exact_zeros :
    downloadBlobRange zerosGuts zerosHash 1024 1 zerosSecond = .ok [0] ∧
      [0] = (zeros.drop (1024 : UInt64).toNat).take
        (min ((1024 : UInt64).toNat + (1 : UInt64).toNat) 1025 - (1024 : UInt64).toNat) := by
  have hrun : downloadBlobRange zerosGuts zerosHash 1024 1 zerosSecond = .ok [0] := by decide +kernel
  have hexact := (downloadBlobRange_exact zerosGuts (Guts.ofChainingValue_isBlake3 _) zeros
    (by rw [chunkCount_zeros]; exact zerosGuts_binds) 1024 1 (by decide) _ _ hrun).2
  rw [length_zeros] at hexact
  exact ⟨hrun, hexact⟩

end Iroh.Blobs
