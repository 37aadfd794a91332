import Iroh.Blobs.ChunkResponse

/-!
# The encoder writes the response and the decoder reads it back

The encoder goes two ways: above groups it copies pairs from the outboard, inside a group it hashes the chunks
it has read and writes the pairs behind them.  Both give `response` (`encodePartialBlock_eq`,
`encodeSubtree_ok`).
-/

namespace Iroh.Blobs

open ChunkSelection List

variable {G : Guts} {data : Bytes} {P : ℕ → Prop} [DecidablePred P]

/-! ## Inside a group -/

variable {n start size : ℕ} {sel : ChunkSelection} {root : Bool} {rest out : Bytes}

lemma take_spanBytes (data : Bytes) (start : ℕ) (hn : 2 ≤ n) :
    let cut := min (leftChunks n * chunkSize) (spanBytes data start n).length
    (spanBytes data start n).take cut = spanBytes data start (leftChunks n) ∧
      (spanBytes data start n).drop cut =
        spanBytes data (start + leftChunks n) (n - leftChunks n) := by
  intro cut
  have hlt := leftChunks_lt hn
  have hlen : cut = (spanBytes data start (leftChunks n)).length := by
    simp only [cut, length_spanBytes, show chunkSize = 1024 from rfl]
    omega
  rw [hlen, spanBytes_split data start hn, take_left, drop_left]
  exact ⟨rfl, rfl⟩

lemma encodePartialBlock_eq (hpos : 0 < n) (hn : n ≤ blockChunks) :
    ∀ {sel : ChunkSelection} (root : Bool), Agrees sel P start n →
      encodePartialBlock G sel start n (spanBytes data start n) root =
        (treeCV G data start n root, response G data P start n) := by
  induction start, n using treeInduction with
  | leaf start n hn1 =>
    intro sel root hsel
    obtain rfl : n = 1 := by omega
    rw [encodePartialBlock]
    by_cases hnone : NoneIn P start 1
    · rw [if_pos (hsel.count_eq_zero_iff.mpr hnone), hashChunkTree_spanBytes G data start hpos,
        response_none hnone]
    · have hall : AllIn P start 1 := (noneIn_or_allIn le_rfl).resolve_left hnone
      rw [if_neg (mt hsel.count_eq_zero_iff.mp hnone), dif_pos le_rfl,
        response_all hnone hn hall, treeCV_leaf G data start le_rfl, spanBytes_one]
  | parent start n hn2 ihl ihr =>
    intro sel root hsel
    have hlt := leftChunks_lt hn2
    have hlpos := leftChunks_pos n
    rw [encodePartialBlock]
    by_cases hnone : NoneIn P start n
    · rw [if_pos (hsel.count_eq_zero_iff.mpr hnone), hashChunkTree_spanBytes G data start hpos,
        response_none hnone]
    rw [if_neg (mt hsel.count_eq_zero_iff.mp hnone), dif_neg (by omega)]
    by_cases hall : AllIn P start n
    · simp only [if_pos (hsel.count_eq_length_iff.mpr hall)]
      rw [hashChunkTree_spanBytes G data start hpos, response_all hnone hn hall]
    · simp only [if_neg (mt hsel.count_eq_length_iff.mp hall)]
      obtain ⟨hcutl, hcutr⟩ := take_spanBytes data start hn2
      rw [hcutl, hcutr, ihl hlpos (by omega) false (hsel.left hn2),
        ihr (by omega) (by omega) false (hsel.right hn2), treeCV_parent G data start hn2,
        response_parent hnone (fun h => hall h.2) hn2]
      simp [ownPair]

/-! ## Above groups -/

lemma Encoder.write_apply (p : Bytes) (w : Written) :
    Encoder.write p w = .ok () ⟨w.output ++ p, w.reads⟩ := rfl

lemma readAtFull_of_prefix (h : p <+: b.drop off) : readAtFull b off p.length = .ok p := by
  obtain ⟨rest, hrest⟩ := h
  simp [readAtFull, ← hrest]

lemma readAtFull_block (data : Bytes) (start n : ℕ) : readAtFull data (start * chunkSize)
      (min (n * chunkSize) (data.length - start * chunkSize)) = .ok (spanBytes data start n) := by
  have hlen : min (n * chunkSize) (data.length - start * chunkSize) =
      (spanBytes data start n).length := (length_spanBytes data start n).symm
  rw [hlen]
  exact readAtFull_of_prefix <| take_prefix _ _

lemma encodeSubtree_group (hpos : 0 < n) (hn : n ≤ blockChunks)
    (root : Bool) (w : Written) (hsel : Agrees sel P start n) :
    encodeSubtree G data outb data.length sel start n root off (treeCV G data start n root) w =
      .ok () ⟨w.output ++ response G data P start n,
        w.reads ++ outboardReads G data P start n off⟩ := by
  rw [encodeSubtree]
  by_cases hnone : NoneIn P start n
  · simp only [if_pos (hsel.count_eq_zero_iff.mpr hnone)]
    simp [response_none hnone, outboardReads_none hnone]
  simp only [if_neg (mt hsel.count_eq_zero_iff.mp hnone), dif_pos hn, readAtFull_block,
    outboardReads_group hn]
  by_cases hall : AllIn P start n
  · simp only [if_pos (hsel.count_eq_length_iff.mpr hall), hashChunkTree_spanBytes G data start hpos,
      response_all hnone hn hall]
    simp [Encoder.write_apply]
  · simp only [if_neg (mt hsel.count_eq_length_iff.mp hall),
      encodePartialBlock_eq hpos hn root hsel]
    simp [Encoder.write_apply]

lemma encodeSubtree_ok (outb : Bytes) (hpos : 0 < n) :
    ∀ {sel : ChunkSelection} (root : Bool) {off : ℕ} (w : Written), Agrees sel P start n →
      outboardPairs G data start n <+: outb.drop off →
      encodeSubtree G data outb data.length sel start n root off (treeCV G data start n root) w =
        .ok () ⟨w.output ++ response G data P start n,
          w.reads ++ outboardReads G data P start n off⟩ := by
  induction start, n using groupInduction with
  | group start n hle => exact fun root _ w hsel _ => encodeSubtree_group hpos hle root w hsel
  | parent start n hn2 hbig ihl ihr =>
    intro sel root off w hsel hpairs
    have hlt := leftChunks_lt hn2
    rw [encodeSubtree]
    by_cases hnone : NoneIn P start n
    · simp only [if_pos (hsel.count_eq_zero_iff.mpr hnone)]
      simp [response_none hnone, outboardReads_none hnone]
    simp only [if_neg (mt hsel.count_eq_zero_iff.mp hnone), dif_neg (Nat.not_le.mpr hbig)]
    have hlen := length_outboardPairs G data start (leftChunks n) (leftChunks_pos n)
    rw [outboardPairs_parent hbig] at hpairs
    have hown : ownPair G data start n <+: outb.drop off := (prefix_append _ _).trans hpairs
    have hrest : outboardPairs G data start (leftChunks n) ++
        outboardPairs G data (start + leftChunks n) (n - leftChunks n) <+: outb.drop (off + 64) := by
      have := hpairs.drop 64
      rwa [drop_left' length_ownPair, drop_drop] at this
    have hread := readAtFull_of_prefix hown
    rw [length_ownPair] at hread
    simp only [hread, bytesToCV_take_ownPair, bytesToCV_drop_ownPair,
      ← treeCV_parent G data start hn2, ne_eq, ← hlen]
    -- note the read, copy the pair, then both halves
    refine (bind_of_ok rfl _).trans ((bind_of_ok (Encoder.write_apply _ _) _).trans ?_)
    have hl := ihl (leftChunks_pos n) false ⟨w.output ++ ownPair G data start n,
      w.reads ++ [⟨start, n, off, ownPair G data start n⟩]⟩ (hsel.left hn2)
      ((prefix_append _ _).trans hrest)
    refine (bind_of_ok hl _).trans ?_
    have hr := hrest.drop (outboardPairs G data start (leftChunks n)).length
    rw [drop_left, drop_drop] at hr
    rw [ihr (by omega) false _ (hsel.right hn2) hr, response_parent hnone (fun h => by omega) hn2,
      outboardReads_parent hnone hbig]
    simp

/-! ## Reading it back -/

def Fits (size : ℕ) (data : Bytes) (P : ℕ → Prop) (start n : ℕ) : Prop :=
  ∀ i, start ≤ i → i < start + n → P i → sizeForChunk size i = (chunkBytes data i).length

omit [DecidablePred P] in
lemma Fits.left (h : Fits size data P start n) (hn : 2 ≤ n) :
    Fits size data P start (leftChunks n) := fun i hlo hhi =>
  h i hlo (by have := leftChunks_lt hn; omega)

omit [DecidablePred P] in
lemma Fits.right (h : Fits size data P start n) :
    Fits size data P (start + leftChunks n) (n - leftChunks n) := fun i hlo hhi =>
  h i (by omega) (by omega)

lemma Decoder.write_apply (p input output : Bytes) :
    Decoder.write p ⟨input, output⟩ = .ok () ⟨input, output ++ p⟩ := rfl

lemma readFull_append (hp : p.length = k) (rest out : Bytes) :
    readFull k ⟨p ++ rest, out⟩ = .ok p ⟨rest, out⟩ := by
  simp [readFull, ← hp]

lemma readChunkCV_append (cv : CV) (rest out : Bytes) :
    readChunkCV ⟨cvBytes cv ++ rest, out⟩ = .ok cv ⟨rest, out⟩ := by
  refine (bind_of_ok (readFull_append (length_cvBytes cv) rest out) _).trans ?_
  rw [bytesToCV_cvBytes]
  rfl

lemma readChunkCV_ownPair {α : Type} (start n : ℕ) (rest out : Bytes) (f : CV → CV → Decoder α) :
    (do let l ← readChunkCV; let r ← readChunkCV; f l r) ⟨ownPair G data start n ++ rest, out⟩ =
      f (treeCV G data start (leftChunks n) false)
        (treeCV G data (start + leftChunks n) (n - leftChunks n) false) ⟨rest, out⟩ := by
  rw [ownPair, append_assoc]
  exact (bind_of_ok (readChunkCV_append _ _ _) _).trans (bind_of_ok (readChunkCV_append _ _ _) _)

omit [DecidablePred P] in
lemma sum_sizeForChunk (hfit : Fits size data P start n) (hall : AllIn P start n) :
    ((List.range' start n).map fun i => min chunkSize (sizeForChunk size i)).sum =
      (spanBytes data start n).length := by
  rw [spanBytes_eq_flatMap, length_flatMap]
  refine congrArg sum (map_congr_left fun i hi => ?_)
  obtain ⟨hlo, hhi⟩ := mem_range'_1.mp hi
  rw [hfit i hlo hhi (hall i hlo hhi), length_chunkBytes, sizeForChunk_eq]
  show min 1024 _ = _
  omega

def Decodes (G : Guts) (data : Bytes) (P : ℕ → Prop) [DecidablePred P] (start n : ℕ)
    (d : Decoder Bool) : Prop :=
  ∀ rest out, d ⟨response G data P start n ++ rest, out⟩ =
    .ok true ⟨rest, out ++ selectedBytes data P start n⟩

lemma Decodes.none (hnone : NoneIn P start n) : Decodes G data P start n (pure true) := by
  intro rest out
  rw [response_none hnone, selectedBytes_none hnone, append_nil]
  rfl

lemma Decodes.pair {left right : CV → Decoder Bool} (hnone : ¬ NoneIn P start n)
    (hwhole : ¬ (n ≤ blockChunks ∧ AllIn P start n)) (hn : 2 ≤ n)
    (hl : Decodes G data P start (leftChunks n) (left (treeCV G data start (leftChunks n) false)))
    (hr : Decodes G data P (start + leftChunks n) (n - leftChunks n)
      (right (treeCV G data (start + leftChunks n) (n - leftChunks n) false))) :
    Decodes G data P start n (do
      let l ← readChunkCV
      let r ← readChunkCV
      if parentCV G l r root ≠ treeCV G data start n root then throw e
      else
        let ok ← left l
        if !ok then return ok else right r) := by
  intro rest out
  rw [response_parent hnone hwhole hn, append_assoc, append_assoc]
  refine (readChunkCV_ownPair start n _ _ _).trans ?_
  simp only [← treeCV_parent G data start hn, ne_eq]
  refine (bind_of_ok (hl _ _) _).trans ?_
  simp only [Bool.not_true, Bool.false_eq_true, if_false]
  rw [hr, selectedBytes_split hn, append_assoc]

lemma decodeBlock_whole (hpos : 0 < n) (hn : n ≤ blockChunks) (hsel : Agrees sel P start n)
    (hfit : Fits size data P start n) (hcase : NoneIn P start n ∨ AllIn P start n) :
    Decodes G data P start n (decodeBlock G size sel start n root (treeCV G data start n root)) := by
  rw [decodeBlock]
  by_cases hnone : NoneIn P start n
  · simp only [if_pos (hsel.count_eq_zero_iff.mpr hnone)]
    exact .none hnone
  · have hall := hcase.resolve_left hnone
    intro rest out
    simp only [if_neg (mt hsel.count_eq_zero_iff.mp hnone),
      if_pos (hsel.count_eq_length_iff.mpr hall), sum_sizeForChunk hfit hall,
      response_all hnone hn hall, selectedBytes_all hall]
    refine (bind_of_ok (readFull_append rfl _ _) _).trans ?_
    simp only [hashChunkTree_spanBytes G data start hpos, ne_eq]
    exact bind_of_ok (Decoder.write_apply _ _ _) _

lemma decodeBlock_response (hpos : 0 < n) (hn : n ≤ blockChunks) :
    ∀ {sel : ChunkSelection} (root : Bool), Agrees sel P start n → Fits size data P start n →
      Decodes G data P start n (decodeBlock G size sel start n root (treeCV G data start n root)) := by
  induction start, n using treeInduction with
  | leaf start n hn1 =>
    exact fun root hsel hfit => decodeBlock_whole hpos hn hsel hfit (noneIn_or_allIn hn1)
  | parent start n hn2 ihl ihr =>
    intro sel root hsel hfit
    by_cases hcase : NoneIn P start n ∨ AllIn P start n
    · exact decodeBlock_whole hpos hn hsel hfit hcase
    rw [not_or] at hcase
    have hlt := leftChunks_lt hn2
    have hlpos := leftChunks_pos n
    rw [decodeBlock]
    simp only [if_neg (mt hsel.count_eq_zero_iff.mp hcase.1),
      if_neg (mt hsel.count_eq_length_iff.mp hcase.2), dif_neg (show ¬ n ≤ 1 by omega)]
    exact .pair hcase.1 (fun h => hcase.2 h.2) hn2
      (ihl hlpos (by omega) false (hsel.left hn2) (hfit.left hn2))
      (ihr (by omega) (by omega) false (hsel.right hn2) hfit.right)

lemma decodeSubtree_response (hpos : 0 < n) :
    ∀ {sel : ChunkSelection} (root : Bool), Agrees sel P start n → Fits size data P start n →
      Decodes G data P start n
        (decodeSubtree G size sel start n root (treeCV G data start n root)) := by
  have hnone : ∀ {start n sel root want}, Agrees sel P start n → NoneIn P start n →
      Decodes G data P start n (decodeSubtree G size sel start n root want) := by
    intro start n sel root want hsel hnone
    rw [decodeSubtree]
    simp only [if_pos (hsel.count_eq_zero_iff.mpr hnone)]
    exact .none hnone
  induction start, n using groupInduction with
  | group start n hle =>
    intro sel root hsel hfit
    by_cases h : NoneIn P start n
    · exact hnone hsel h
    rw [decodeSubtree]
    simp only [if_neg (mt hsel.count_eq_zero_iff.mp h), dif_pos hle]
    exact decodeBlock_response hpos hle root hsel hfit
  | parent start n hn2 hbig ihl ihr =>
    intro sel root hsel hfit
    by_cases h : NoneIn P start n
    · exact hnone hsel h
    have hlt := leftChunks_lt hn2
    rw [decodeSubtree]
    simp only [if_neg (mt hsel.count_eq_zero_iff.mp h), dif_neg (Nat.not_le.mpr hbig)]
    exact .pair h (fun h => by omega) hn2
      (ihl (leftChunks_pos n) false (hsel.left hn2) (hfit.left hn2))
      (ihr (by omega) false (hsel.right hn2) hfit.right)

/-! ## Whole responses -/

lemma selectChunks_agrees (r : ChunkRanges) (hpos : 0 < chunks) :
    Agrees (selectChunks r chunks) (selectChunks r chunks).Selected 0 chunks :=
  ⟨selectChunks_ordered hpos, fun _ _ _ => Iff.rfl⟩

lemma decodeBlobChunksToWriter_response (hG : G.IsBlake3)
    (hN : N = chunkCount data.length) (hpos : 0 < N) (hsize : size ≤ maxInt64)
    (hchunks : chunkCount size = N) (hsel : selectChunks r N ≠ [])
    (hfit : Fits size data (selectChunks r N).Selected 0 N) (rest : Bytes) :
    decodeBlobChunksToWriter G (newHash G data) r
        ⟨leBytes 8 size ++ (response G data (selectChunks r N).Selected 0 N ++ rest), []⟩ =
      .ok size ⟨rest, selectedBytes data (selectChunks r N).Selected 0 N⟩ := by
  have hroot : hashToCV (newHash G data) = treeCV G data 0 N true := by
    rw [hashToCV_newHash hG, ← hN, max_eq_right hpos]
  have hprefix : ((readFull 8).adaptExcept fun _ => BlobError.invalidBlob .truncatedSizePrefix)
      ⟨leBytes 8 size ++ (response G data (selectChunks r N).Selected 0 N ++ rest), []⟩ =
        .ok (leBytes 8 size) ⟨response G data (selectChunks r N).Selected 0 N ++ rest, []⟩ :=
    adaptExcept_eq_ok.mpr (readFull_append (length_leBytes 8 size) _ _)
  have hle : leNat (leBytes 8 size) = size := by
    rw [leNat_leBytes, Nat.mod_eq_of_lt]
    have : maxInt64 < 256 ^ 8 := by decide
    omega
  have htree : ((decodeSubtree G size (selectChunks r N) 0 N true (treeCV G data 0 N true)).adaptExcept
      fun err => BlobError.invalidBlob (.chunk err))
        ⟨response G data (selectChunks r N).Selected 0 N ++ rest, []⟩ =
      .ok true ⟨rest, selectedBytes data (selectChunks r N).Selected 0 N⟩ :=
    adaptExcept_eq_ok.mpr
      (decodeSubtree_response hpos true (selectChunks_agrees r hpos) hfit rest [])
  refine (bind_of_ok hprefix _).trans ?_
  simp only [hle, if_neg (show ¬ size > maxInt64 by omega), hchunks,
    if_neg (show ¬ N = 0 by omega), length_eq_zero_iff, if_neg hsel, hroot]
  refine (bind_of_ok htree _).trans ?_
  rfl

lemma mem_outboardReads : ∀ {off : ℕ} {rd : OutboardRead}, rd ∈ outboardReads G data P start n off →
      Below start n rd.start rd.n ∧ blockChunks < rd.n ∧
        rd.pair = ownPair G data rd.start rd.n := by
  induction start, n using groupInduction with
  | group start n hle =>
    intro off rd hrd
    rw [outboardReads_group hle] at hrd
    exact absurd hrd not_mem_nil
  | parent start n hn2 hbig ihl ihr =>
    intro off rd hrd
    by_cases hnone : NoneIn P start n
    · rw [outboardReads_none hnone] at hrd
      exact absurd hrd not_mem_nil
    rw [outboardReads_parent hnone hbig, mem_cons, mem_append] at hrd
    rcases hrd with rfl | hl | hr
    · exact ⟨.refl start n, hbig, rfl⟩
    · exact ⟨.left hn2 (ihl hl).1, (ihl hl).2⟩
    · exact ⟨.right hn2 (ihr hr).1, (ihr hr).2⟩

lemma exists_mem_outboardReads (hm : blockChunks < m) (hbelow : Below start n s m)
    (hsome : ¬ NoneIn P s m) :
    ∀ off, ∃ rd ∈ outboardReads G data P start n off, rd.start = s ∧ rd.n = m := by
  induction hbelow with
  | refl start n =>
    intro off
    exact ⟨⟨start, n, off, _⟩, by rw [outboardReads_parent hsome hm]; exact mem_cons_self, rfl, rfl⟩
  | @left start n s m hn hb ih =>
    intro off
    obtain ⟨rd, hrd, heq⟩ := ih hm hsome (off + 64)
    have hspan := hb.span
    have hlt := leftChunks_lt hn
    have hup : ¬ NoneIn P start n := fun h => hsome fun i hlo hhi => h i (by omega) (by omega)
    rw [outboardReads_parent hup (by omega)]
    exact ⟨rd, mem_cons_of_mem _ (mem_append_left _ hrd), heq⟩
  | @right start n s m hn hb ih =>
    intro off
    obtain ⟨rd, hrd, heq⟩ := ih hm hsome
      (off + 64 + (outboardPairs G data start (leftChunks n)).length)
    have hspan := hb.span
    have hup : ¬ NoneIn P start n := fun h => hsome fun i hlo hhi => h i (by omega) (by omega)
    rw [outboardReads_parent hup (by omega)]
    exact ⟨rd, mem_cons_of_mem _ (mem_append_right _ hrd), heq⟩

lemma encodeBlobChunks_ok (hG : G.IsBlake3) (data : Bytes) (hsize : data.length ≤ maxInt64)
    (hsel : data = [] ∨ selectChunks r (chunkCount data.length) ≠ []) (w : Written) :
    encodeBlobChunks G (newHash G data) data.length data (outboard G data) r w =
      .ok () ⟨w.output ++ baoResponse G data r,
        w.reads ++ outboardReads G data (selectChunks r (chunkCount data.length)).Selected 0
          (chunkCount data.length) 8⟩ := by
  rw [encodeBlobChunks, if_neg (by omega), baoResponse, ← append_assoc]
  refine (bind_of_ok (Encoder.write_apply _ _) _).trans ?_
  by_cases hnil : data = []
  · subst hnil
    have hzero : chunkCount ([] : Bytes).length = 0 := by decide
    have hnone : NoneIn (selectChunks r (chunkCount ([] : Bytes).length)).Selected 0
        (chunkCount ([] : Bytes).length) := fun i _ hhi => absurd hhi (by omega)
    simp only [if_pos hzero, response_none hnone, outboardReads_none hnone]
    simp
  · have hne := hsel.resolve_left hnil
    have hpos := chunkCount_pos.mpr (length_pos_iff.mpr hnil)
    have hroot : hashToCV (newHash G data) = treeCV G data 0 (chunkCount data.length) true := by
      rw [hashToCV_newHash hG, max_eq_right hpos]
    have hpairs : outboardPairs G data 0 (chunkCount data.length) <+: (outboard G data).drop 8 := by
      rw [outboard, drop_left' (length_leBytes 8 _)]
    simp only [if_neg (show ¬ chunkCount data.length = 0 by omega), length_eq_zero_iff,
      if_neg hne, hroot]
    exact encodeSubtree_ok (outboard G data) hpos true _ (selectChunks_agrees r hpos) hpairs

lemma decodeBlobChunks_empty (r : ChunkRanges) :
    decodeBlobChunks G (newHash G []) (leBytes 8 0) r = .ok ([], 0) := by
  have hprefix : ((readFull 8).adaptExcept fun _ => BlobError.invalidBlob .truncatedSizePrefix)
      ⟨leBytes 8 0, []⟩ = .ok (leBytes 8 0) ⟨[], []⟩ :=
    adaptExcept_eq_ok.mpr (readFull_append (length_leBytes 8 0) [] [])
  have hrun : decodeBlobChunksToWriter G (newHash G []) r ⟨leBytes 8 0, []⟩ = .ok 0 ⟨[], []⟩ := by
    refine (bind_of_ok hprefix _).trans ?_
    simp [show chunkCount 0 = 0 by decide]
  rw [decodeBlobChunks, hrun]
  rfl

/-- **Chunk-range round trip.**  For a blob that fits an `int64`, with its own hash and outboard, and ranges
that select something of it, the decoder turns what the encoder writes into the selected chunks in order, and
the size. -/
theorem encodeBlobChunks_decodes (G : Guts) (hG : G.IsBlake3) (data : Bytes) (r : ChunkRanges)
    (hsize : data.length ≤ maxInt64)
    (hsel : data = [] ∨ selectChunks r (chunkCount data.length) ≠ []) :
    ∃ w, encodeBlobChunks G (newHash G data) data.length data (outboard G data) r ⟨[], []⟩ =
        .ok () w ∧
      (∀ rd ∈ w.reads, Below 0 (chunkCount data.length) rd.start rd.n ∧ blockChunks < rd.n ∧
        rd.pair = ownPair G data rd.start rd.n) ∧
      (∀ s m, Below 0 (chunkCount data.length) s m → blockChunks < m →
        (∃ i, s ≤ i ∧ i < s + m ∧ (selectChunks r (chunkCount data.length)).Selected i) →
        ∃ rd ∈ w.reads, rd.start = s ∧ rd.n = m) ∧
      decodeBlobChunks G (newHash G data) w.output r =
        .ok (selectedBytes data (selectChunks r (chunkCount data.length)).Selected 0
          (chunkCount data.length), data.length) := by
  refine ⟨_, encodeBlobChunks_ok hG data hsize hsel _, fun rd hrd => mem_outboardReads hrd,
    fun s m hb hm hsome => ?_, ?_⟩
  · obtain ⟨i, hlo, hhi, hi⟩ := hsome
    exact exists_mem_outboardReads hm hb (fun hnone => hnone i hlo hhi hi) 8
  · rw [nil_append, baoResponse]
    by_cases hnil : data = []
    · subst hnil
      have hnone : NoneIn (selectChunks r (chunkCount 0)).Selected 0 (chunkCount 0) :=
        fun i _ hhi => absurd hhi (by rw [show chunkCount 0 = 0 by decide]; omega)
      simp only [length_nil, response_none hnone]
      exact decodeBlobChunks_empty r
    · have hne := hsel.resolve_left hnil
      have hpos := chunkCount_pos.mpr (length_pos_iff.mpr hnil)
      have hfit : Fits data.length data (selectChunks r (chunkCount data.length)).Selected 0
          (chunkCount data.length) := fun i _ _ _ => (length_chunkBytes data i).symm
      have hrun := decodeBlobChunksToWriter_response hG rfl hpos hsize rfl hne hfit []
      rw [append_nil] at hrun
      rw [decodeBlobChunks, hrun]
      rfl

def zeros : Bytes := replicate 1025 0

lemma length_zeros : zeros.length = 1025 := length_replicate

lemma chunkCount_zeros : chunkCount zeros.length = 2 := by
  rw [length_zeros]
  decide

def zerosLeft : CV :=
  #v[3596251537, 593020977, 3257684525, 1384146943, 1418497064, 1823196687, 1276159327, 957169334]

def zerosRight : CV :=
  #v[3031000763, 4012153381, 1157326842, 1103904131, 430093039, 2922396485, 4178706514, 4133994409]

def zerosRoot : CV :=
  #v[2645868242, 2979915143, 4047489908, 2568490820, 3748145474, 252054887, 2658520791, 3881877900]

/-- BLAKE3 on 1025 zero bytes, which are two chunks; it has no other values. -/
def zerosGuts : Guts := .ofChainingValue fun y =>
  if y = .chunk (replicate 1024 0) 0 false then zerosLeft
  else if y = .chunk [0] 1 false then zerosRight
  else if y = .parent zerosLeft zerosRight true then zerosRoot
  else Vector.replicate 8 0

def zerosHash : Hash := newHash zerosGuts zeros

/-- What a provider sends of the second chunk. -/
def zerosSecond : Bytes := leBytes 8 1025 ++ cvBytes zerosLeft ++ cvBytes zerosRight ++ [0]

theorem encodeBlobChunks_decodes_zeros : selectChunks (.rangeChunks 1 2) 2 ≠ [] ∧
    ∃ w, encodeBlobChunks zerosGuts zerosHash 1025 zeros (outboard zerosGuts zeros) (.rangeChunks 1 2)
        ⟨[], []⟩ = .ok () w ∧
      decodeBlobChunks zerosGuts zerosHash w.output (.rangeChunks 1 2) = .ok ([0], 1025) := by
  have hne : selectChunks (.rangeChunks 1 2) 2 ≠ [] := by decide +kernel
  obtain ⟨w, hw, -, -, hdec⟩ := encodeBlobChunks_decodes zerosGuts (Guts.ofChainingValue_isBlake3 _) zeros
    (.rangeChunks 1 2) (by rw [length_zeros]; decide) (Or.inr (by rwa [chunkCount_zeros]))
  rw [chunkCount_zeros, length_zeros] at hdec
  rw [length_zeros] at hw
  refine ⟨hne, w, hw, hdec.trans ?_⟩
  decide +kernel

end Iroh.Blobs
