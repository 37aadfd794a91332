import Iroh.Blobs.ChunkRoundTrip

/-!
# What an accepted chunk-range response proves

The peer chooses the size prefix, and with it the shape of the tree the decoder walks, so a claimed
node of `n` chunks from `start` on is compared with a node of the blob's own tree that need not be
the same one.  `Genuine` is what both recursions prove about such a pair of nodes: every selected
chunk of the claimed node is a chunk of the real one, with the same length, and is the last of one
exactly when it is the last of the other.

The size is settled only when the last chunk of the blob is among the selected ones: otherwise any size with
the same number of chunks is accepted.
-/

namespace Iroh.Blobs

open ChunkSelection List

variable {G : Guts} {data : Bytes} {P : ℕ → Prop} [DecidablePred P]

/-! ## Trees with one value -/

variable {s' n' n size start : ℕ} {root ok : Bool} {buf out : Bytes} {st st' : Stream} {r : ChunkRanges}

lemma Binds.chunk_eq (hb : Binds G data s' n' root) (hn' : 0 < n')
    (h : chunkCV G buf counter root = treeCV G data s' n' root) :
    n' = 1 ∧ counter = s' ∧ buf = chunkBytes data s' := by
  cases hb with
  | leaf hle hbind =>
    have heq := hbind _ h
    rw [HashInput.chunk.injEq] at heq
    exact ⟨by omega, heq.2.1, heq.1⟩
  | parent _ hbind _ _ =>
    exact absurd (hbind _ h) (by simp)

lemma Binds.parent_eq {l r : CV} (hb : Binds G data s' n' root)
    (h : parentCV G l r root = treeCV G data s' n' root) :
    2 ≤ n' ∧ l = treeCV G data s' (leftChunks n') false ∧
      r = treeCV G data (s' + leftChunks n') (n' - leftChunks n') false ∧
      Binds G data s' (leftChunks n') false ∧
      Binds G data (s' + leftChunks n') (n' - leftChunks n') false := by
  cases hb with
  | leaf _ hbind =>
    exact absurd (hbind _ h) (by simp)
  | parent hn hbind hl hr =>
    have heq := hbind _ h
    rw [HashInput.parent.injEq] at heq
    exact ⟨hn, heq.1, heq.2.1, hl, hr⟩

lemma hashChunkSubtree_shape (hn : 0 < n) :
    ∀ {root : Bool} {s' n' : ℕ}, 0 < n' → Binds G data s' n' root →
      hashChunkSubtree G buf first loc n root = treeCV G data s' n' root →
      n = n' ∧ first + loc = s' ∧ ∀ i < n, chunkBytes buf (loc + i) = chunkBytes data (s' + i) := by
  induction loc, n using treeInduction with
  | leaf loc n hn1 =>
    intro root s' n' hn' hb h
    rw [hashChunkSubtree_leaf G buf first loc hn1] at h
    obtain ⟨rfl, rfl, hbuf⟩ := hb.chunk_eq hn' h
    refine ⟨by omega, rfl, fun i hi => ?_⟩
    obtain rfl : i = 0 := by omega
    exact hbuf
  | parent loc n hn2 ihl ihr =>
    intro root s' n' hn' hb h
    rw [hashChunkSubtree, dif_neg (by omega)] at h
    obtain ⟨hn2', hl, hr, hbl, hbr⟩ := hb.parent_eq h
    have hlt := leftChunks_lt hn2
    have hlt' := leftChunks_lt hn2'
    obtain ⟨hleft, hplace, hcl⟩ := ihl (leftChunks_pos n) (leftChunks_pos n') hbl hl
    obtain ⟨hright, -, hcr⟩ := ihr (by omega) (by omega) hbr hr
    refine ⟨by omega, hplace, fun i hi => ?_⟩
    by_cases hi' : i < leftChunks n
    · exact hcl i hi'
    · have := hcr (i - leftChunks n) (by omega)
      rwa [show loc + leftChunks n + (i - leftChunks n) = loc + i by omega,
        show s' + leftChunks n' + (i - leftChunks n) = s' + i by omega] at this

/-! ## Claimed and real nodes -/

/-- What an accepted node says: the claimed node is `start, n`, the real one `s', n'`, and the output
has grown by the selected chunks. -/
structure Genuine (data : Bytes) (size : ℕ) (P : ℕ → Prop) [DecidablePred P] (start n s' n' : ℕ)
    (out out' : Bytes) : Prop where
  output : out' = out ++ selectedBytes data P start n
  real : ∀ i, start ≤ i → i < start + n → P i → s' ≤ i ∧ i < s' + n' ∧
    sizeForChunk size i = sizeForChunk data.length i ∧ (i + 1 = start + n ↔ i + 1 = s' + n')

lemma Genuine.none (h : NoneIn P start n) : Genuine data size P start n s' n' out out :=
  ⟨by rw [selectedBytes_none h, append_nil], fun i hlo hhi hi => absurd hi (h i hlo hhi)⟩

lemma Genuine.parent (hn : 2 ≤ n) (hn' : 2 ≤ n')
    (hl : Genuine data size P start (leftChunks n) s' (leftChunks n') out mid)
    (hr : Genuine data size P (start + leftChunks n) (n - leftChunks n) (s' + leftChunks n')
      (n' - leftChunks n') mid out') : Genuine data size P start n s' n' out out' := by
  have hlt := leftChunks_lt hn
  have hlt' := leftChunks_lt hn'
  refine ⟨?_, fun i hlo hhi hi => ?_⟩
  · rw [hr.output, hl.output, append_assoc, ← selectedBytes_split hn]
  · by_cases hleft : i < start + leftChunks n
    · obtain ⟨h1, h2, h3, h4⟩ := hl.real i hlo hleft hi
      exact ⟨h1, by omega, h3, by omega⟩
    · obtain ⟨h1, h2, h3, h4⟩ := hr.real i (by omega) (by omega) hi
      exact ⟨by omega, by omega, h3, by omega⟩

lemma sum_sizeForChunk_eq (size start n : ℕ) :
    ((List.range' start n).map fun i => min chunkSize (sizeForChunk size i)).sum =
      min (n * 1024) (size - start * 1024) := by
  have hfit : Fits size (replicate size 0) (fun _ => True) start n := fun i _ _ _ => by
    rw [length_chunkBytes, length_replicate]
  rw [sum_sizeForChunk hfit fun _ _ _ => trivial, length_spanBytes, length_replicate]

lemma Genuine.whole (hpos : 0 < n) (hpos' : 0 < n') (hb : Binds G data s' n' root) (hlen : buf.length =
      ((List.range' start n).map fun i => min chunkSize (sizeForChunk size i)).sum)
    (hhash : hashChunkTree G buf start n root = treeCV G data s' n' root) (hall : AllIn P start n) :
    Genuine data size P start n s' n' out (out ++ buf) := by
  obtain ⟨rfl, hstart, hchunks⟩ := hashChunkSubtree_shape hpos hpos' hb hhash
  subst hstart
  simp only [Nat.zero_add] at hchunks
  rw [sum_sizeForChunk_eq] at hlen
  have hbuf : buf = spanBytes data start n := by
    have hself : spanBytes buf 0 n = buf := by
      refine take_of_length_le ?_
      show buf.length ≤ n * 1024
      omega
    have hrange : range' start n = (range' 0 n).map (start + ·) := by
      rw [map_add_range', Nat.add_zero]
    rw [← hself, spanBytes_eq_flatMap, spanBytes_eq_flatMap, hrange, flatMap_map]
    refine flatMap_congr fun i hi => hchunks i ?_
    have := mem_range'_1.mp hi
    omega
  rw [hbuf, length_spanBytes] at hlen
  refine ⟨by rw [hbuf, selectedBytes_all hall], fun i hlo hhi _ => ⟨hlo, hhi, ?_, Iff.rfl⟩⟩
  rw [sizeForChunk_eq, sizeForChunk_eq]
  omega

/-! ## The decoder -/

lemma readFull_eq_ok (h : readFull k st = .ok p st') :
    p = st.input.take k ∧ p.length = k ∧ st'.output = st.output := by
  unfold readFull at h
  split at h
  next hk =>
    cases h
    exact ⟨rfl, by simp [hk], rfl⟩
  · cases h

lemma readChunkCV_eq_ok (h : readChunkCV st = .ok cv st') : st'.output = st.output := by
  obtain ⟨p, st₁, hread, hpure⟩ := bind_eq_ok.mp h
  obtain ⟨-, rfl⟩ := pure_eq_ok.mp hpure
  exact (readFull_eq_ok hread).2.2

lemma write_eq_ok (h : Decoder.write p st = .ok u st') : st'.output = st.output ++ p := by
  cases h
  rfl

def DecodesOnly (data : Bytes) (size : ℕ) (P : ℕ → Prop) [DecidablePred P] (start n s' n' : ℕ)
    (d : Decoder Bool) : Prop :=
  ∀ st st' ok, d st = .ok ok st' →
    ok = true ∧ Genuine data size P start n s' n' st.output st'.output

lemma DecodesOnly.none (hnone : NoneIn P start n) :
    DecodesOnly data size P start n s' n' (pure true) := by
  intro st st' ok h
  obtain ⟨rfl, rfl⟩ := pure_eq_ok.mp h
  exact ⟨rfl, .none hnone⟩

lemma DecodesOnly.pair {left right : CV → Decoder Bool} (hn : 2 ≤ n)
    (hb : Binds G data s' n' root) (hleft : ∀ {s' n'}, 0 < n' → Binds G data s' n' false →
      DecodesOnly data size P start (leftChunks n) s' n' (left (treeCV G data s' n' false)))
    (hright : ∀ {s' n'}, 0 < n' → Binds G data s' n' false →
      DecodesOnly data size P (start + leftChunks n) (n - leftChunks n) s' n'
        (right (treeCV G data s' n' false))) :
    DecodesOnly data size P start n s' n' (do
      let l ← readChunkCV
      let r ← readChunkCV
      if parentCV G l r root ≠ treeCV G data s' n' root then throw e
      else
        let ok ← left l
        if !ok then return ok else right r) := by
  intro st st' ok h
  obtain ⟨l, st₁, hl, h⟩ := bind_eq_ok.mp h
  obtain ⟨r, st₂, hr, h⟩ := bind_eq_ok.mp h
  split at h
  · exact absurd h throw_ne_ok
  · -- two values that hash to a node of the blob's tree are those of its children
    rename_i hcv
    obtain ⟨hn', rfl, rfl, hbl, hbr⟩ := hb.parent_eq (not_not.mp hcv)
    have hlt' := leftChunks_lt hn'
    obtain ⟨okl, st₃, hl', h⟩ := bind_eq_ok.mp h
    obtain ⟨rfl, hgl⟩ := hleft (leftChunks_pos n') hbl _ _ _ hl'
    obtain ⟨rfl, hgr⟩ := hright (by omega) hbr _ _ _ h
    rw [readChunkCV_eq_ok hr, readChunkCV_eq_ok hl] at hgl
    exact ⟨rfl, hgl.parent hn hn' hgr⟩

lemma decodeBlock_sound_whole (hpos : 0 < n) (hpos' : 0 < n')
    (hb : Binds G data s' n' root) (hsel : Agrees sel P start n)
    (hcase : NoneIn P start n ∨ AllIn P start n) : DecodesOnly data size P start n s' n'
      (decodeBlock G size sel start n root (treeCV G data s' n' root)) := by
  rw [decodeBlock]
  by_cases hnone : NoneIn P start n
  · simp only [if_pos (hsel.count_eq_zero_iff.mpr hnone)]
    exact .none hnone
  · have hall := hcase.resolve_left hnone
    intro st st' ok h
    simp only [if_neg (mt hsel.count_eq_zero_iff.mp hnone),
      if_pos (hsel.count_eq_length_iff.mpr hall)] at h
    obtain ⟨buf, st₁, hread, h⟩ := bind_eq_ok.mp h
    obtain ⟨-, hlen, hout⟩ := readFull_eq_ok hread
    split at h
    · exact absurd h throw_ne_ok
    next hhash =>
      obtain ⟨_, st₂, hwrite, h⟩ := bind_eq_ok.mp h
      obtain ⟨rfl, rfl⟩ := pure_eq_ok.mp h
      rw [write_eq_ok hwrite, hout]
      exact ⟨rfl, .whole hpos hpos' hb hlen (not_not.mp hhash) hall⟩

lemma decodeBlock_sound (hpos : 0 < n) :
    ∀ {sel : ChunkSelection} {root : Bool} {s' n' : ℕ}, 0 < n' → Binds G data s' n' root →
      Agrees sel P start n → DecodesOnly data size P start n s' n'
        (decodeBlock G size sel start n root (treeCV G data s' n' root)) := by
  induction start, n using treeInduction with
  | leaf start n hn1 =>
    exact fun hpos' hb hsel => decodeBlock_sound_whole hpos hpos' hb hsel (noneIn_or_allIn hn1)
  | parent start n hn2 ihl ihr =>
    intro sel root s' n' hpos' hb hsel
    by_cases hcase : NoneIn P start n ∨ AllIn P start n
    · exact decodeBlock_sound_whole hpos hpos' hb hsel hcase
    rw [not_or] at hcase
    have hlt := leftChunks_lt hn2
    rw [decodeBlock]
    simp only [if_neg (mt hsel.count_eq_zero_iff.mp hcase.1),
      if_neg (mt hsel.count_eq_length_iff.mp hcase.2), dif_neg (show ¬ n ≤ 1 by omega)]
    exact .pair hn2 hb (fun hpos' hb => ihl (leftChunks_pos n) hpos' hb (hsel.left hn2))
      fun hpos' hb => ihr (by omega) hpos' hb (hsel.right hn2)

lemma decodeSubtree_sound (hpos : 0 < n) :
    ∀ {sel : ChunkSelection} {root : Bool} {s' n' : ℕ}, 0 < n' → Binds G data s' n' root →
      Agrees sel P start n → DecodesOnly data size P start n s' n'
        (decodeSubtree G size sel start n root (treeCV G data s' n' root)) := by
  have hnone : ∀ {start n s' n' sel root want}, Agrees sel P start n → NoneIn P start n →
      DecodesOnly data size P start n s' n' (decodeSubtree G size sel start n root want) := by
    intro start n s' n' sel root want hsel hnone
    rw [decodeSubtree]
    simp only [if_pos (hsel.count_eq_zero_iff.mpr hnone)]
    exact .none hnone
  induction start, n using groupInduction with
  | group start n hle =>
    intro sel root s' n' hpos' hb hsel
    by_cases h : NoneIn P start n
    · exact hnone hsel h
    rw [decodeSubtree]
    simp only [if_neg (mt hsel.count_eq_zero_iff.mp h), dif_pos hle]
    exact decodeBlock_sound hpos hpos' hb hsel
  | parent start n hn2 hbig ihl ihr =>
    intro sel root s' n' hpos' hb hsel
    have hlt := leftChunks_lt hn2
    by_cases h : NoneIn P start n
    · exact hnone hsel h
    rw [decodeSubtree]
    simp only [if_neg (mt hsel.count_eq_zero_iff.mp h), dif_neg (Nat.not_le.mpr hbig)]
    exact .pair hn2 hb (fun hpos' hb => ihl (leftChunks_pos n) hpos' hb (hsel.left hn2))
      fun hpos' hb => ihr (by omega) hpos' hb (hsel.right hn2)

/-! ## Whole responses -/

lemma decodeBlobChunksWith_sound (hG : G.IsBlake3)
    (hbind : Binds G data 0 (max 1 (chunkCount data.length)) true)
    (h : decodeBlobChunksWith G (newHash G data) r checkSize ⟨b, []⟩ = .ok size st) :
    size = leNat (b.take 8) ∧ size ≤ maxInt64 ∧ checkSize.bind (· size) = none ∧
      ((size = 0 ∧ newHash G data = newHash G [] ∧ st.output = []) ∨
        (0 < size ∧ selectChunks r (chunkCount size) ≠ [] ∧
          Genuine data size (selectChunks r (chunkCount size)).Selected 0 (chunkCount size) 0
            (max 1 (chunkCount data.length)) [] st.output)) := by
  obtain ⟨sizeBuf, st₁, hread, h⟩ := bind_eq_ok.mp h
  obtain ⟨rfl, -, hout⟩ := readFull_eq_ok (adaptExcept_eq_ok.mp hread)
  replace hout : st₁.output = [] := hout
  split at h
  · exact absurd h throw_ne_ok
  rename_i hmax
  cases hcheck : checkSize.bind (· (leNat (b.take 8))) with
  | some text =>
    simp only [hcheck] at h
    exact absurd h throw_ne_ok
  | none => ?_
  simp only [hcheck] at h
  rcases Nat.eq_zero_or_pos (leNat (b.take 8)) with hzero | hsize
  · rw [hzero] at h hcheck
    simp only [if_pos (show chunkCount 0 = 0 by decide)] at h
    split at h
    · exact absurd h throw_ne_ok
    rename_i hhash
    obtain ⟨rfl, rfl⟩ := pure_eq_ok.mp h
    exact ⟨hzero.symm, Nat.zero_le _, hcheck, Or.inl ⟨rfl, not_not.mp hhash, hout⟩⟩
  · have hpos := chunkCount_pos.mpr hsize
    simp only [if_neg hpos.ne'] at h
    split at h
    · exact absurd h throw_ne_ok
    rename_i hne
    obtain ⟨ok, st₂, htree, h⟩ := bind_eq_ok.mp h
    rw [hashToCV_newHash hG] at htree
    obtain ⟨rfl, hgen⟩ := decodeSubtree_sound hpos (by omega) hbind (selectChunks_agrees r hpos) _ _ _
      (adaptExcept_eq_ok.mp htree)
    obtain ⟨rfl, rfl⟩ := pure_eq_ok.mp h
    exact ⟨rfl, Nat.not_lt.mp hmax, hcheck,
      Or.inr ⟨hsize, mt length_eq_zero_iff.mpr hne, hout ▸ hgen⟩⟩

lemma Genuine.lt_chunkCount
    (h : Genuine data size P 0 (chunkCount size) 0 m out out') (hi : i < chunkCount size)
    (hP : P i) : i < chunkCount data.length := by
  obtain ⟨-, -, hlen, -⟩ := h.real i (Nat.zero_le i) (by omega) hP
  rw [← sizeForChunk_pos_iff, ← hlen, sizeForChunk_pos_iff]
  exact hi

/-- **Soundness of chunk-range decoding.**  Whatever the bytes `b` are, when they are accepted for
the hash of `data`, and their prefix claims `leNat (b.take 8)` bytes, then the output is the chunks
of `data` that the ranges select from that many bytes, in order, each is a chunk of `data`, and all of
`b` was read. -/
theorem decodeBlobChunks_sound (G : Guts) (hG : G.IsBlake3) (data : Bytes)
    (hbind : Binds G data 0 (max 1 (chunkCount data.length)) true) (r : ChunkRanges) (b out : Bytes)
    (size : ℕ) (h : decodeBlobChunks G (newHash G data) b r = .ok (out, size)) :
    out = selectedBytes data (selectChunks r (chunkCount (leNat (b.take 8)))).Selected 0
        (chunkCount (leNat (b.take 8))) ∧
      (∀ i < chunkCount (leNat (b.take 8)),
        (selectChunks r (chunkCount (leNat (b.take 8)))).Selected i → i < chunkCount data.length) ∧
      decodeBlobChunksToWriter G (newHash G data) r ⟨b, []⟩ = .ok (leNat (b.take 8)) ⟨[], out⟩ := by
  rw [decodeBlobChunks] at h
  split at h
  · cases h
  rename_i size' st hrun
  split at h
  · cases h
  rename_i hleft
  cases h
  have hinput : st = ⟨[], st.output⟩ := by
    rw [← length_eq_zero_iff.mp (not_not.mp hleft)]
  obtain ⟨rfl, -, -, hcase⟩ := decodeBlobChunksWith_sound hG hbind hrun
  rcases hcase with ⟨hzero, -, hout⟩ | ⟨-, -, hgen⟩
  · have hcount : chunkCount (leNat (b.take 8)) = 0 := by rw [hzero]; decide
    refine ⟨?_, fun i hi => absurd hi (by omega), by rw [hrun]; exact congrArg _ hinput⟩
    rw [hout, selectedBytes_none fun i _ hi => absurd hi (by omega)]
  · exact ⟨by rw [hgen.output, nil_append], fun i hi hP => hgen.lt_chunkCount hi hP,
      by rw [hrun]; exact congrArg _ hinput⟩

lemma zerosGuts_inj (y y' : HashInput) (hne : zerosGuts.chainingValue y' ≠ Vector.replicate 8 0)
    (h : zerosGuts.chainingValue y = zerosGuts.chainingValue y') : y = y' := by
  have hlr : zerosLeft ≠ zerosRight := by decide
  have hlp : zerosLeft ≠ zerosRoot := by decide
  have hrp : zerosRight ≠ zerosRoot := by decide
  simp only [zerosGuts, Guts.ofChainingValue] at h hne
  split_ifs at h hne <;> first
    | exact Eq.trans ‹y = _› (Eq.symm ‹y' = _›)
    | exact absurd h ‹_›
    | exact absurd h.symm ‹_›
    | exact absurd rfl hne

lemma zerosGuts_binds : Binds zerosGuts zeros 0 2 true := by
  refine .parent le_rfl (fun y hy => zerosGuts_inj y _ ?_ (hy.trans (treeCV_parent _ _ _ le_rfl _)))
    (.leaf (by decide) fun y hy => zerosGuts_inj y _ ?_ (hy.trans (treeCV_leaf _ _ _ (by decide) _)))
    (.leaf (by decide) fun y hy => zerosGuts_inj y _ ?_ (hy.trans (treeCV_leaf _ _ _ (by decide) _)))
  all_goals decide +kernel

theorem decodeBlobChunks_sound_zeros :
    decodeBlobChunks zerosGuts zerosHash zerosSecond (.rangeChunks 1 2) = .ok ([0], 1025) ∧
      decodeBlobChunksToWriter zerosGuts zerosHash (.rangeChunks 1 2) ⟨zerosSecond, []⟩ =
        .ok 1025 ⟨[], [0]⟩ := by
  have hrun : decodeBlobChunks zerosGuts zerosHash zerosSecond (.rangeChunks 1 2) = .ok ([0], 1025) := by
    decide +kernel
  exact ⟨hrun, (decodeBlobChunks_sound zerosGuts (Guts.ofChainingValue_isBlake3 _) zeros
    (by rw [chunkCount_zeros]; exact zerosGuts_binds) (.rangeChunks 1 2) _ _ _ hrun).2.2⟩

/-! ## The size -/

lemma eq_nil_of_newHash_eq (hG : G.IsBlake3)
    (hbind : Binds G data 0 (max 1 (chunkCount data.length)) true)
    (h : newHash G data = newHash G []) : data = [] := by
  have hcv := congrArg hashToCV h
  rw [hashToCV_newHash hG, hashToCV_newHash hG [], treeCV_leaf G [] 0 (by decide)] at hcv
  obtain ⟨hone, -, hchunk⟩ := hbind.chunk_eq (by omega) hcv.symm
  have hlen := congrArg length hchunk
  rw [length_chunkBytes, length_chunkBytes, sizeForChunk_eq, sizeForChunk_eq, length_nil] at hlen
  exact length_eq_zero_iff.mp (by omega)

lemma reaches_of_selected_last (hN : 0 < N) (h : (selectChunks r N).Selected (N - 1)) :
    (∃ x, N - 1 ≤ x ∧ InRanges r x) ∨ LastOnly r := by
  rcases (selected_selectChunks hN).mp h with ⟨-, hin | ⟨-, hcase⟩⟩
  · exact Or.inl ⟨N - 1, le_rfl, hin⟩
  · exact hcase

lemma chunks_eq_of_selected_last (hn : 0 < n) (hN : 0 < N)
    (hlast : (selectChunks r N).Selected (N - 1))
    (hsame : ∀ i < n, (selectChunks r n).Selected i → i < N ∧ (i + 1 = n ↔ i + 1 = N)) :
    n = N ∧ (selectChunks r n).Selected (n - 1) := by
  have hsel := fun i => selected_selectChunks (r := r) (i := i) hn
  rcases reaches_of_selected_last hN hlast with ⟨x, hx, hin⟩ | honly
  · by_cases hxn : x + 1 < n
    · -- a chunk of the ranges before the claimed end is beyond the real one, or its last
      have := hsame x (by omega) ((hsel x).mpr ⟨by omega, Or.inl hin⟩)
      omega
    · have hsel' : (selectChunks r n).Selected (n - 1) :=
        (hsel (n - 1)).mpr ⟨by omega, Or.inr ⟨rfl, Or.inl ⟨x, by omega, hin⟩⟩⟩
      have := hsame (n - 1) (by omega) hsel'
      exact ⟨by omega, hsel'⟩
  · have hsel' : (selectChunks r n).Selected (n - 1) :=
      (hsel (n - 1)).mpr ⟨by omega, Or.inr ⟨rfl, Or.inr honly⟩⟩
    have := hsame (n - 1) (by omega) hsel'
    exact ⟨by omega, hsel'⟩

lemma size_eq_of_selected_last (hsize : 0 < size) (hdata : data ≠ [])
    (hgen : Genuine data size (selectChunks r (chunkCount size)).Selected 0 (chunkCount size) 0
      (max 1 (chunkCount data.length)) [] out)
    (hlast : (selectChunks r (chunkCount data.length)).Selected (chunkCount data.length - 1)) :
    size = data.length := by
  have hpos := chunkCount_pos.mpr hsize
  have hN := chunkCount_pos.mpr (length_pos_iff.mpr hdata)
  obtain ⟨hcount, hsel⟩ := chunks_eq_of_selected_last hpos hN hlast fun i hi hP => by
    obtain ⟨-, -, -, hend⟩ := hgen.real i (Nat.zero_le i) (by omega) hP
    exact ⟨hgen.lt_chunkCount hi hP, by omega⟩
  obtain ⟨-, -, hlen, -⟩ := hgen.real _ (Nat.zero_le _) (by omega) hsel
  exact size_eq_of_last hpos hcount hlen

lemma exists_other_size (hpos : 0 < size) (hmax : size ≤ maxInt64) :
    ∃ size', size' ≠ size ∧ size' ≤ maxInt64 ∧ chunkCount size' = chunkCount size ∧
      ∀ i, i + 1 < chunkCount size → sizeForChunk size' i = sizeForChunk size i := by
  have hbound : maxInt64 = 9007199254740992 * 1024 - 1 := by decide
  obtain ⟨k, hk⟩ : ∃ k, chunkCount size = k + 1 := ⟨chunkCount size - 1, by
    rw [chunkCount_eq]
    omega⟩
  simp only [sizeForChunk_eq, chunkCount_eq] at hk ⊢
  by_cases hone : size = k * 1024 + 1
  · exact ⟨size + 1, by omega, by omega, by omega, fun i hi => by omega⟩
  · exact ⟨k * 1024 + 1, by omega, by omega, by omega, fun i hi => by omega⟩

/-- **When the returned size is verified.**  Every response accepted for the hash of `data` returns
the size of `data` exactly when `data` is empty, or the ranges select none of its chunks (then no
response is accepted), or they select its last chunk. -/
theorem decodeBlobChunksToWriter_size_iff (G : Guts) (hG : G.IsBlake3) (data : Bytes)
    (hbind : Binds G data 0 (max 1 (chunkCount data.length)) true)
    (hsize : data.length ≤ maxInt64) (r : ChunkRanges) :
    (∀ b size st, decodeBlobChunksToWriter G (newHash G data) r ⟨b, []⟩ = .ok size st →
        size = data.length) ↔
      data = [] ∨ selectChunks r (chunkCount data.length) = [] ∨
        (selectChunks r (chunkCount data.length)).Selected (chunkCount data.length - 1) := by
  constructor
  · intro h
    by_contra hcond
    rw [not_or, not_or] at hcond
    obtain ⟨hdata, hne, hlast⟩ := hcond
    have hpos := length_pos_iff.mpr hdata
    have hN := chunkCount_pos.mpr hpos
    obtain ⟨size', hother, hmax, hcount, hlens⟩ := exists_other_size hpos hsize
    have hfit : Fits size' data (selectChunks r (chunkCount data.length)).Selected 0
        (chunkCount data.length) := fun i _ hi hP => by
      have hi' : i ≠ chunkCount data.length - 1 := fun heq => hlast (heq ▸ hP)
      rw [length_chunkBytes, hlens i (by omega)]
    exact hother (h _ _ _ (decodeBlobChunksToWriter_response hG rfl hN hmax hcount hne hfit []))
  · intro hcond b size st hrun
    obtain ⟨-, -, -, hcase⟩ := decodeBlobChunksWith_sound hG hbind hrun
    rcases hcase with ⟨rfl, hhash, -⟩ | ⟨hpos, hne, hgen⟩
    · rw [eq_nil_of_newHash_eq hG hbind hhash, length_nil]
    have hcount := chunkCount_pos.mpr hpos
    -- something is selected, so the blob has a chunk
    obtain ⟨i, hi, hP⟩ := (selectChunks_ne_nil_iff hcount).mp hne
    have hN : 0 < chunkCount data.length := Nat.zero_lt_of_lt (hgen.lt_chunkCount hi hP)
    have hdata : data ≠ [] := by
      rintro rfl
      exact absurd hN (by decide)
    rcases hcond with hnil | hnone | hlast
    · exact absurd hnil hdata
    · rw [selectChunks_ne_nil_iff_inRanges hcount, ← selectChunks_ne_nil_iff_inRanges hN] at hne
      exact absurd hnone hne
    · exact size_eq_of_selected_last hpos hdata hgen hlast

theorem decodeBlobChunksToWriter_size_iff_zeros : (selectChunks .rangeLastChunk 2).Selected 1 ∧
      ∀ b size st, decodeBlobChunksToWriter zerosGuts zerosHash .rangeLastChunk ⟨b, []⟩ = .ok size st →
        size = 1025 := by
  have hlast : (selectChunks .rangeLastChunk 2).Selected 1 := by decide +kernel
  have hsize := decodeBlobChunksToWriter_size_iff zerosGuts (Guts.ofChainingValue_isBlake3 _) zeros
    (by rw [chunkCount_zeros]; exact zerosGuts_binds) (by rw [length_zeros]; decide) .rangeLastChunk
  rw [chunkCount_zeros, length_zeros] at hsize
  exact ⟨hlast, hsize.mpr (Or.inr (Or.inr hlast))⟩

/-- A provider of 1025 zero bytes that claims 1026 of them is believed when only the first chunk is
asked for. -/
theorem decodeBlobChunksToWriter_accepts_wrong_size :
    zerosGuts.IsBlake3 ∧ Binds zerosGuts (replicate 1025 0) 0 2 true ∧
      EStateM.run' (decodeBlobChunksToWriter zerosGuts (newHash zerosGuts (replicate 1025 0))
        (.rangeChunks 0 1))
        ⟨leBytes 8 1026 ++ cvBytes zerosLeft ++ cvBytes zerosRight ++ replicate 1024 0, []⟩ =
        some 1026 :=
  ⟨Guts.ofChainingValue_isBlake3 _, zerosGuts_binds, by decide +kernel⟩

end Iroh.Blobs
