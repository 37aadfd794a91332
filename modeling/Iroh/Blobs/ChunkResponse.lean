import Iroh.Blobs.ChunkCodec

/-!
# What a chunk-range response is

The response for a node, as a function of the blob and of which chunks are selected, without
selections as lists, buffers or offsets.  The encoder produces it and the decoder accepts it
(`Iroh.Blobs.ChunkRoundTrip`).
-/

namespace Iroh.Blobs

open ChunkSelection List

/-! ## Which chunks of a node are selected -/

def NoneIn (P : ℕ → Prop) (start n : ℕ) : Prop := ∀ i, start ≤ i → i < start + n → ¬ P i

def AllIn (P : ℕ → Prop) (start n : ℕ) : Prop := ∀ i, start ≤ i → i < start + n → P i

instance (P : ℕ → Prop) [DecidablePred P] (start n : ℕ) : Decidable (NoneIn P start n) :=
  decidable_of_iff (∀ i ∈ List.range' start n, ¬ P i)
    (by simp only [NoneIn, List.mem_range'_1, and_imp])

instance (P : ℕ → Prop) [DecidablePred P] (start n : ℕ) : Decidable (AllIn P start n) :=
  decidable_of_iff (∀ i ∈ List.range' start n, P i)
    (by simp only [AllIn, List.mem_range'_1, and_imp])

/-- An ordered selection that selects `P` in a subtree. -/
structure Agrees (sel : ChunkSelection) (P : ℕ → Prop) (start n : ℕ) : Prop where
  ordered : sel.Ordered
  iff : ∀ i, start ≤ i → i < start + n → (sel.Selected i ↔ P i)

namespace Agrees

variable {sel : ChunkSelection} {P : ℕ → Prop} {start n : ℕ}

variable (h : Agrees sel P start n)
include h

lemma count_eq_zero_iff : sel.count start (start + n) = 0 ↔ NoneIn P start n := by
  rw [h.ordered.count_eq_zero_iff]
  exact forall₃_congr fun i hlo hhi => not_congr (h.iff i hlo hhi)

lemma count_eq_length_iff : sel.count start (start + n) = n ↔ AllIn P start n := by
  rw [h.ordered.count_eq_length_iff]
  exact forall₃_congr fun i hlo hhi => h.iff i hlo hhi

lemma intersecting (hlo : start ≤ lo) (hhi : lo + m ≤ start + n) :
    Agrees (sel.intersecting lo (lo + m)) P lo m := by
  refine ⟨h.ordered.intersecting _ _, fun i hi hi' => ?_⟩
  rw [h.ordered.selected_intersecting hi hi', h.iff i (by omega) (by omega)]

lemma left (hn : 2 ≤ n) :
    Agrees (sel.intersecting start (start + leftChunks n)) P start (leftChunks n) :=
  h.intersecting le_rfl (by have := leftChunks_lt hn; omega)

lemma right (hn : 2 ≤ n) :
    Agrees (sel.intersecting (start + leftChunks n) (start + n)) P (start + leftChunks n)
      (n - leftChunks n) := by
  have hlt := leftChunks_lt hn
  have hend : start + n = start + leftChunks n + (n - leftChunks n) := by omega
  rw [hend]
  exact h.intersecting (by omega) (by omega)

end Agrees

lemma noneIn_or_allIn (hn : n ≤ 1) : NoneIn P start n ∨ AllIn P start n := by
  by_cases h : P start
  · refine Or.inr fun i hlo hhi => ?_
    obtain rfl : i = start := by omega
    exact h
  · refine Or.inl fun i hlo hhi => ?_
    obtain rfl : i = start := by omega
    exact h

/-! ## The response -/

section

variable (G : Guts) (data : Bytes) (P : ℕ → Prop) [DecidablePred P]

def ownPair (start n : ℕ) : Bytes :=
  cvBytes (treeCV G data start (leftChunks n) false) ++
    cvBytes (treeCV G data (start + leftChunks n) (n - leftChunks n) false)

def response (start n : ℕ) : Bytes :=
  if NoneIn P start n then []
  else if n ≤ blockChunks ∧ AllIn P start n then spanBytes data start n
  else if _h : n ≤ 1 then []
  else ownPair G data start n ++ (response start (leftChunks n) ++
    response (start + leftChunks n) (n - leftChunks n))
termination_by n
decreasing_by
  · exact leftChunks_lt (by omega)
  · have := leftChunks_pos n
    omega

def selectedBytes (start n : ℕ) : Bytes :=
  ((List.range' start n).filter P).flatMap (chunkBytes data)

def outboardPairs (start n : ℕ) : Bytes :=
  if _h : n ≤ blockChunks then []
  else ownPair G data start n ++ (outboardPairs start (leftChunks n) ++
    outboardPairs (start + leftChunks n) (n - leftChunks n))
termination_by n
decreasing_by
  · have : blockChunks = 16 := rfl
    exact leftChunks_lt (by omega)
  · have : blockChunks = 16 := rfl
    have := leftChunks_pos n
    omega

def outboardReads (start n off : ℕ) : List OutboardRead :=
  if NoneIn P start n then []
  else if _h : n ≤ blockChunks then []
  else ⟨start, n, off, ownPair G data start n⟩ :: (outboardReads start (leftChunks n) (off + 64) ++
    outboardReads (start + leftChunks n) (n - leftChunks n)
      (off + 64 + (outboardPairs G data start (leftChunks n)).length))
termination_by n
decreasing_by
  · have : blockChunks = 16 := rfl
    exact leftChunks_lt (by omega)
  · have : blockChunks = 16 := rfl
    have := leftChunks_pos n
    omega

def outboard : Bytes := leBytes 8 data.length ++ outboardPairs G data 0 (chunkCount data.length)

end

variable {G : Guts} {data : Bytes} {P : ℕ → Prop} [DecidablePred P] {start n : ℕ}

@[simp] lemma length_ownPair : (ownPair G data start n).length = 64 := by
  simp [ownPair]

lemma bytesToCV_take_ownPair :
    bytesToCV ((ownPair G data start n).take 32) = treeCV G data start (leftChunks n) false := by
  rw [ownPair, take_left' (length_cvBytes _), bytesToCV_cvBytes]

lemma bytesToCV_drop_ownPair : bytesToCV ((ownPair G data start n).drop 32) =
      treeCV G data (start + leftChunks n) (n - leftChunks n) false := by
  rw [ownPair, drop_left' (length_cvBytes _), bytesToCV_cvBytes]

lemma response_none (h : NoneIn P start n) : response G data P start n = [] := by
  rw [response, if_pos h]

lemma response_all (h : ¬ NoneIn P start n) (hn : n ≤ blockChunks) (hall : AllIn P start n) :
    response G data P start n = spanBytes data start n := by
  rw [response, if_neg h, if_pos ⟨hn, hall⟩]

lemma response_parent (h : ¬ NoneIn P start n) (hall : ¬ (n ≤ blockChunks ∧ AllIn P start n))
    (hn : 2 ≤ n) :
    response G data P start n = ownPair G data start n ++ (response G data P start (leftChunks n) ++
        response G data P (start + leftChunks n) (n - leftChunks n)) := by
  rw [response, if_neg h, if_neg hall, dif_neg (by omega)]

lemma outboardPairs_parent (hn : blockChunks < n) :
    outboardPairs G data start n = ownPair G data start n ++
      (outboardPairs G data start (leftChunks n) ++
        outboardPairs G data (start + leftChunks n) (n - leftChunks n)) := by
  rw [outboardPairs, dif_neg (by omega)]

lemma length_outboardPairs (G : Guts) (data : Bytes) (start n : ℕ) (hn : 0 < n) :
    (outboardPairs G data start n).length = 64 * ((n + blockChunks - 1) / blockChunks - 1) := by
  have hblock : blockChunks = 16 := rfl
  rw [hblock]
  induction start, n using groupInduction with
  | group start n hle =>
    rw [outboardPairs, dif_pos hle, length_nil]
    omega
  | parent start n hn2 hbig ihl ihr =>
    have hlt := leftChunks_lt hn2
    obtain ⟨m, hm, hleft⟩ := exists_leftChunks_eq_mul hbig
    rw [outboardPairs_parent hbig, length_append, length_append, length_ownPair]
    omega

lemma outboardReads_none (h : NoneIn P start n) : outboardReads G data P start n off = [] := by
  rw [outboardReads, if_pos h]

lemma outboardReads_group (hn : n ≤ blockChunks) : outboardReads G data P start n off = [] := by
  rw [outboardReads, dif_pos hn, ite_self]

lemma outboardReads_parent (h : ¬ NoneIn P start n) (hn : blockChunks < n) :
    outboardReads G data P start n off = ⟨start, n, off, ownPair G data start n⟩ ::
      (outboardReads G data P start (leftChunks n) (off + 64) ++
        outboardReads G data P (start + leftChunks n) (n - leftChunks n)
          (off + 64 + (outboardPairs G data start (leftChunks n)).length)) := by
  rw [outboardReads, if_neg h, dif_neg (by omega)]

lemma selectedBytes_none (h : NoneIn P start n) : selectedBytes data P start n = [] := by
  have hfilter : (range' start n).filter (fun i => decide (P i)) = [] := by
    refine filter_eq_nil_iff.mpr fun i hi => ?_
    have hspan := mem_range'_1.mp hi
    simpa using h i hspan.1 hspan.2
  rw [selectedBytes, hfilter, flatMap_nil]

lemma selectedBytes_all (h : AllIn P start n) :
    selectedBytes data P start n = spanBytes data start n := by
  have hfilter : (range' start n).filter (fun i => decide (P i)) = range' start n := by
    refine filter_eq_self.mpr fun i hi => ?_
    have hspan := mem_range'_1.mp hi
    simpa using h i hspan.1 hspan.2
  rw [selectedBytes, hfilter, spanBytes_eq_flatMap]

lemma selectedBytes_add (data : Bytes) (P : ℕ → Prop) [DecidablePred P] (start m n : ℕ) :
    selectedBytes data P start (m + n) =
      selectedBytes data P start m ++ selectedBytes data P (start + m) n := by
  unfold selectedBytes
  rw [← range'_append_1, filter_append, flatMap_append]

lemma selectedBytes_split (hn : 2 ≤ n) :
    selectedBytes data P start n = selectedBytes data P start (leftChunks n) ++
      selectedBytes data P (start + leftChunks n) (n - leftChunks n) := by
  have hlt := leftChunks_lt hn
  rw [← selectedBytes_add, Nat.add_sub_cancel' hlt.le]

lemma response_congr [DecidablePred Q] (h : ∀ i, start ≤ i → i < start + n → (P i ↔ Q i)) :
    response G data P start n = response G data Q start n := by
  have hnone : ∀ {start n}, (∀ i, start ≤ i → i < start + n → (P i ↔ Q i)) →
      (NoneIn P start n ↔ NoneIn Q start n) :=
    fun h => forall₃_congr fun i hlo hhi => not_congr (h i hlo hhi)
  have hall : ∀ {start n}, (∀ i, start ≤ i → i < start + n → (P i ↔ Q i)) →
      (AllIn P start n ↔ AllIn Q start n) := fun h => forall₃_congr h
  induction start, n using treeInduction with
  | leaf start n hn =>
    conv_lhs => rw [response]
    conv_rhs => rw [response]
    simp [hnone h, hall h, dif_pos hn]
  | parent start n hn ihl ihr =>
    have hlt := leftChunks_lt hn
    conv_lhs => rw [response]
    conv_rhs => rw [response]
    simp [hnone h, hall h, ihl fun i hlo hhi => h i hlo (by omega),
      ihr fun i hlo hhi => h i (by omega) (by omega)]

/-! ## Whole responses -/

def baoResponse (G : Guts) (data : Bytes) (r : ChunkRanges) : Bytes :=
  leBytes 8 data.length ++
    response G data (selectChunks r (chunkCount data.length)).Selected 0 (chunkCount data.length)

/-- The full-range response of a blob: its size, and in pre-order the pairs of the nodes larger than
a group and the groups. -/
def fullResponse (G : Guts) (data : Bytes) : Bytes :=
  leBytes 8 data.length ++ response G data (fun _ => True) 0 (chunkCount data.length)

lemma baoResponse_rangeAll (G : Guts) (hsize : data.length ≤ maxInt64) :
    baoResponse G data .rangeAll = fullResponse G data := by
  have hmax : maxUint64.toNat = 2 ^ 64 - 1 := rfl
  have hint : maxInt64 = 2 ^ 63 - 1 := rfl
  have hcount : chunkCount data.length ≤ maxUint64.toNat := by
    rw [chunkCount_eq]
    omega
  refine congrArg (leBytes 8 data.length ++ ·) (response_congr fun i _ hi => ?_)
  exact iff_of_true (selected_rangeAll hcount (by omega)) trivial

lemma response_true_inj (hlen : data.length = data'.length) :
    ∀ {rest rest' : Bytes}, response G data (fun _ => True) start n ++ rest =
        response G data' (fun _ => True) start n ++ rest' →
      spanBytes data start n = spanBytes data' start n ∧ rest = rest' := by
  have hsome : ∀ start n, 0 < n → ¬ NoneIn (fun _ => True) start n := fun start n hn h =>
    h start le_rfl (by omega) trivial
  induction start, n using groupInduction with
  | group start n hle =>
    intro rest rest' h
    rcases Nat.eq_zero_or_pos n with rfl | hpos
    · rw [response_none fun i _ hi => absurd hi (by omega),
        response_none fun i _ hi => absurd hi (by omega)] at h
      exact ⟨by simp, by simpa using h⟩
    · rw [response_all (hsome start n hpos) hle fun _ _ _ => trivial,
        response_all (hsome start n hpos) hle fun _ _ _ => trivial] at h
      exact append_inj h (by rw [length_spanBytes, length_spanBytes, hlen])
  | parent start n hn hbig ihl ihr =>
    intro rest rest' h
    rw [response_parent (hsome start n (by omega)) (fun hw => by omega) hn,
      response_parent (hsome start n (by omega)) (fun hw => by omega) hn] at h
    simp only [append_assoc] at h
    obtain ⟨-, h⟩ := append_inj h (by rw [length_ownPair, length_ownPair])
    obtain ⟨hl, h⟩ := ihl h
    obtain ⟨hr, h⟩ := ihr h
    exact ⟨by rw [spanBytes_split data start hn, spanBytes_split data' start hn, hl, hr], h⟩

/-- **The full-range response determines the blob.** -/
theorem fullResponse_injective (h64 : data.length < 256 ^ 8)
    (h64' : data'.length < 256 ^ 8) (h : fullResponse G data = fullResponse G data') :
    data = data' := by
  obtain ⟨hsize, htree⟩ := append_inj h (by rw [length_leBytes, length_leBytes])
  have hlen : data.length = data'.length := by
    have := congrArg leNat hsize
    rwa [leNat_leBytes, leNat_leBytes, Nat.mod_eq_of_lt h64, Nat.mod_eq_of_lt h64'] at this
  have hwhole : ∀ b : Bytes, spanBytes b 0 (chunkCount b.length) = b := fun b => by
    refine take_of_length_le ?_
    rw [chunkCount_eq]
    show b.length ≤ _ * 1024
    omega
  rw [← hlen, ← append_nil (response G data _ _ _), ← append_nil (response G data' _ _ _)] at htree
  have hspan := (response_true_inj hlen htree).1
  rw [hwhole data, hlen, hwhole data'] at hspan
  exact hspan

end Iroh.Blobs
