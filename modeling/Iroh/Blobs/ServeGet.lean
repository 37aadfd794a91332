import Iroh.Blobs.ChunkRoundTrip
import Iroh.Blobs.Serve

/-!
# What a get request is answered with

A get request means: the root's response for the ranges at offset 0, then each child's response for the ranges
at its own offset, as far as these ask for anything (`getResponse`).  `writeGet` computes this in pieces:
requests that look like a single blob never look at offsets, requests that look like the root alone never look
at children, and the loop over the children moves a cursor instead of calling `At`.
-/

namespace Iroh.Blobs

open List

/-! ## The cursor -/

lemma advance_snd (offset : UInt64) (entries : List ChunkRangesSeqEntry) :
    ∀ ranges, (advance offset entries ranges).2 = atLoop offset entries ranges := by
  induction entries with
  | nil => exact fun _ => rfl
  | cons e entries ih =>
    intro ranges
    rw [advance, atLoop]
    split
    next h => rw [if_neg (not_lt.mpr h), ih]
    next h => rw [if_pos (not_le.mp h)]

variable {offset : UInt64} {G : Guts} {data : Bytes} {r : ChunkRanges} {content : Hash → Bytes}
  {ranges : ChunkRangesSeq}

lemma atLoop_advance (h : offset ≤ offset') (entries : List ChunkRangesSeqEntry) :
    ∀ ranges, atLoop offset' (advance offset entries ranges).1 (advance offset entries ranges).2 =
      atLoop offset' entries ranges := by
  induction entries with
  | nil => exact fun _ => rfl
  | cons e entries ih =>
    intro ranges
    rw [advance]
    split
    next he => rw [ih, atLoop, if_neg (not_lt.mpr (he.trans h))]
    · rfl

lemma atLoop_mem (offset : UInt64) (entries : List ChunkRangesSeqEntry) : ∀ ranges : ChunkRanges,
    atLoop offset entries ranges = ranges ∨ ∃ e ∈ entries, atLoop offset entries ranges = e.ranges := by
  induction entries with
  | nil => exact fun _ => Or.inl rfl
  | cons e entries ih =>
    intro ranges
    rw [atLoop]
    split
    · exact Or.inl rfl
    · rcases ih e.ranges with h | ⟨e', he', h⟩
      · exact Or.inr ⟨e, mem_cons_self, h⟩
      · exact Or.inr ⟨e', mem_cons_of_mem _ he', h⟩

lemma at_normalized {seq : ChunkRangesSeq} (h : ∀ e ∈ seq.entries, e.ranges.Normalized)
    (offset : UInt64) : (seq.at offset).Normalized := by
  unfold ChunkRangesSeq.at
  rcases atLoop_mem offset seq.entries .rangeEmpty with heq | ⟨e, he, heq⟩
  · rw [heq]
    exact ⟨by simp [ChunkRanges.rangeEmpty], by simp [ChunkRanges.rangeEmpty],
      by simp [ChunkRanges.rangeEmpty]⟩
  · rw [heq]
    exact h e he

/-! ## Stored blobs -/

/-- What the `bao` package does for a whole blob. -/
structure Bao.IsBao (bao : Bao) (G : Guts) : Prop where
  encodeBuf_eq : ∀ data, bao.encodeBuf data = (fullResponse G data, newHash G data)
  extractSlice_eq : ∀ data, bao.extractSlice data (outboard G data) 0 data.length =
    .ok (fullResponse G data)

def memBlob (G : Guts) (data : Bytes) : Blob :=
  ⟨data.length, true, true, .ok data, .ok (outboard G data)⟩

/-- The store has `data` under its hash, and opens it. -/
structure Stored (G : Guts) (store : Store) (hash : Hash) (data : Bytes) : Prop where
  hash_eq : newHash G data = hash
  length_le : data.length ≤ maxInt64
  open_eq : store hash = .ok (memBlob G data)

def part (G : Guts) (data : Bytes) (r : ChunkRanges) : Bytes :=
  if r.isEmpty then [] else baoResponse G data r

lemma part_eq_nil_iff : part G data r = [] ↔ r.isEmpty = true := by
  unfold part
  split
  · simp_all
  next h =>
    have hlen : (leBytes 8 data.length).length = 8 := length_leBytes 8 _
    refine iff_of_false (fun hnil => ?_) h
    have := congrArg length hnil
    rw [baoResponse, length_append, length_nil] at this
    omega

lemma part_of_nonempty (h : r.isEmpty = false) : part G data r = baoResponse G data r := by
  rw [part, h]
  rfl

lemma eq_rangeAll_of_isAll (h : r.isAll = true) : r = .rangeAll := by
  obtain ⟨ranges, openStart⟩ := r
  simp only [ChunkRanges.isAll, Bool.and_eq_true, List.isEmpty_iff, decide_eq_true_eq] at h
  rw [h.1, h.2]
  rfl

lemma Server.lift_ok {α : Type} (a : α) (out : Bytes) : Server.lift (.ok a) out = .ok a out := rfl

lemma eq_rangeEmpty_of_isEmpty (h : r.isEmpty = true) : r = .rangeEmpty := by
  obtain ⟨ranges, openStart⟩ := r
  simp only [ChunkRanges.isEmpty, Bool.and_eq_true, List.isEmpty_iff, Option.isNone_iff_eq_none] at h
  rw [h.1, h.2]
  rfl

section

variable {G : Guts} {bao : Bao} {store : Store} {hash : Hash} {data : Bytes}

lemma Stored.openBlob (h : Stored G store hash data) : openBlob store hash = .ok (memBlob G data) := by
  rw [Blobs.openBlob, h.open_eq]
  rfl

lemma length_outboard_le (hsize : data.length ≤ maxInt64) : (outboard G data).length ≤ maxInt64 := by
  have hint : maxInt64 = 2 ^ 63 - 1 := rfl
  have hblock : blockChunks = 16 := rfl
  rw [outboard, length_append, length_leBytes]
  rcases Nat.eq_zero_or_pos (chunkCount data.length) with hzero | hpos
  · rw [hzero, outboardPairs, dif_pos (by omega), length_nil]
    omega
  · rw [length_outboardPairs G data 0 _ hpos, hblock, chunkCount_eq]
    omega

lemma Stored.writeBlob (h : Stored G store hash data) (hbao : bao.IsBao G) (out : Bytes) :
    writeBlob bao store hash false out = .ok () (out ++ baoResponse G data .rangeAll) := by
  have hextract : extractRange bao (memBlob G data) 0 data.length = .ok (fullResponse G data) := by
    have hnot : ¬ (outboard G data).length > maxInt64 := not_lt.mpr (length_outboard_le h.length_le)
    have hnot' : ¬ data.length > maxInt64 := not_lt.mpr h.length_le
    show (if data.length > maxInt64 then _ else _) = _
    rw [if_neg hnot']
    show (if (outboard G data).length > maxInt64 then _ else _) = _
    rw [if_neg hnot]
    show (bao.extractSlice (data.take data.length) _ 0 data.length).mapError _ = _
    rw [take_length, hbao.extractSlice_eq]
    rfl
  rw [Blobs.writeBlob, h.openBlob, baoResponse_rangeAll G h.length_le]
  refine (bind_of_ok (Server.lift_ok _ out) _).trans ?_
  have hsize : (memBlob G data).size = data.length := rfl
  simp only [hsize, hextract]
  rfl

variable {r : ChunkRanges}

variable (h : Stored G store hash data)
include h

lemma Stored.writeBlobRange (hG : G.IsBlake3) (hr : r.Normalized) (hne : r.isEmpty = false)
    (out : Bytes) : writeBlobRange G store hash r out = .ok () (out ++ baoResponse G data r) := by
  have hsel : data = [] ∨ ChunkSelection.selectChunks r (chunkCount data.length) ≠ [] := by
    by_cases hnil : data = []
    · exact Or.inl hnil
    · have hpos := chunkCount_pos.mpr (length_pos_iff.mpr hnil)
      exact Or.inr (ChunkSelection.selectChunks_ne_nil_of_normalized hpos hr hne)
  have hencode := encodeBlobChunks_ok hG data h.length_le hsel ⟨out, []⟩
  rw [h.hash_eq] at hencode
  rw [Blobs.writeBlobRange, h.openBlob]
  refine (bind_of_ok (Server.lift_ok _ out) _).trans ?_
  simp only [memBlob]
  refine (bind_of_ok (Server.lift_ok data out) _).trans ?_
  refine (bind_of_ok (Server.lift_ok (outboard G data) out) _).trans ?_
  rw [Server.encode, hencode]

lemma Stored.writeRanges (hG : G.IsBlake3) (hbao : bao.IsBao G) (hr : r.Normalized)
    (hne : r.isEmpty = false) (out : Bytes) :
    writeRanges G bao store hash r false out = .ok () (out ++ part G data r) := by
  rw [part_of_nonempty hne, Blobs.writeRanges]
  split
  next hall => rw [eq_rangeAll_of_isAll hall, h.writeBlob hbao]
  · rw [h.writeBlobRange hG hr hne]

lemma Stored.readBlob : readBlob store hash = .ok data := by
  have hnot : ¬ data.length > maxInt64 := not_lt.mpr h.length_le
  rw [Blobs.readBlob, h.openBlob]
  show (if data.length > maxInt64 then _ else _) = _
  rw [if_neg hnot]
  show (if data.length < data.length then _ else _) = _
  rw [if_neg (lt_irrefl _)]
  exact congrArg Except.ok (take_length ..)

lemma Stored.writeBlobBytes (hbao : bao.IsBao G) (out : Bytes) :
    writeBlobBytes bao hash data false out = .ok () (out ++ baoResponse G data .rangeAll) := by
  have hencode : encoderFor bao false data = .ok (hash, fullResponse G data) := by
    simp [encoderFor, hbao.encodeBuf_eq, h.hash_eq]
  rw [Blobs.writeBlobBytes, hencode, baoResponse_rangeAll G h.length_le]
  refine (bind_of_ok (Server.lift_ok _ out) _).trans ?_
  simp only [ne_eq]
  rfl

lemma Stored.writeRoot (hG : G.IsBlake3) (hbao : bao.IsBao G) (hr : r.Normalized) (out : Bytes) :
    writeRoot G bao store hash data r false out = .ok () (out ++ part G data r) := by
  rw [Blobs.writeRoot]
  by_cases hempty : r.isEmpty = true
  · rw [if_pos hempty, part_eq_nil_iff.mpr hempty, append_nil]
    rfl
  · have hne : r.isEmpty = false := by simpa using hempty
    rw [if_neg hempty, part_of_nonempty hne]
    split
    next hall => rw [eq_rangeAll_of_isAll hall, h.writeBlobBytes hbao]
    · rw [h.writeBlobRange hG hr hne]

end

/-! ## The children -/

def childrenResponse (G : Guts) (content : Hash → Bytes) (ranges : ChunkRangesSeq) (i : ℕ)
    (hashes : List Hash) : Bytes :=
  (hashes.zipIdx i).flatMap fun p => part G (content p.1) (ranges.at (UInt64.ofNat (p.2 + 1)))

lemma childrenResponse_cons (G : Guts) (content : Hash → Bytes) (ranges : ChunkRangesSeq) (i : ℕ)
    (hash : Hash) (hashes : List Hash) : childrenResponse G content ranges i (hash :: hashes) =
      part G (content hash) (ranges.at (UInt64.ofNat (i + 1))) ++
        childrenResponse G content ranges (i + 1) hashes := by
  rfl

/-- **The cursor loop sends what `At` says**, whatever the entries are. -/
theorem writeChildren_ok {bao : Bao} (hG : G.IsBlake3) (hbao : bao.IsBao G)
    (hranges : ∀ e ∈ ranges.entries, e.ranges.Normalized) (hashes : List Hash) :
    ∀ (i : ℕ) (entries : List ChunkRangesSeqEntry) (childRanges : ChunkRanges) (out : Bytes),
      i + hashes.length + 1 < 2 ^ 64 → (∀ h ∈ hashes, Stored G store h (content h)) →
      (∀ offset, UInt64.ofNat (i + 1) ≤ offset → atLoop offset entries childRanges = ranges.at offset) →
      writeChildren G bao store false i hashes entries childRanges out =
        .ok () (out ++ childrenResponse G content ranges i hashes) := by
  induction hashes with
  | nil =>
    intro i entries childRanges out _ _ _
    rw [childrenResponse, zipIdx_nil, flatMap_nil, append_nil]
    rfl
  | cons hash hashes ih =>
    intro i entries childRanges out hbound hstored hat
    rw [length_cons] at hbound
    have hnext : UInt64.ofNat i + 1 = UInt64.ofNat (i + 1) := by simp
    have hcursor : (advance (UInt64.ofNat (i + 1)) entries childRanges).2 =
        ranges.at (UInt64.ofNat (i + 1)) := by
      rw [advance_snd, hat _ le_rfl]
    have hle : UInt64.ofNat (i + 1) ≤ UInt64.ofNat (i + 1 + 1) := by
      rw [UInt64.le_iff_toNat_le, UInt64.toNat_ofNat_of_lt' (by simp [UInt64.size]; omega),
        UInt64.toNat_ofNat_of_lt' (by simp [UInt64.size]; omega)]
      omega
    have hrest := fun out' => ih (i + 1) (advance (UInt64.ofNat (i + 1)) entries childRanges).1
      (advance (UInt64.ofNat (i + 1)) entries childRanges).2 out' (by omega)
      (fun h hh => hstored h (mem_cons_of_mem _ hh)) fun offset hoff => by
        rw [atLoop_advance (hle.trans hoff), hat _ (hle.trans hoff)]
    rw [writeChildren, childrenResponse_cons]
    simp only [hnext]
    by_cases hempty : (ranges.at (UInt64.ofNat (i + 1))).isEmpty = true
    · rw [if_pos (hcursor ▸ hempty), hrest, part_eq_nil_iff.mpr hempty, nil_append]
    · have hne : (ranges.at (UInt64.ofNat (i + 1))).isEmpty = false := by simpa using hempty
      rw [if_neg (hcursor ▸ hempty)]
      have hsend := (hstored hash mem_cons_self).writeRanges hG hbao
        (at_normalized hranges _) hne out
      rw [← hcursor] at hsend
      refine (bind_of_ok hsend _).trans ?_
      rw [hrest, hcursor, append_assoc]

lemma childrenResponse_eq_nil_iff (hashes : List Hash) :
    childrenResponse G content ranges 0 hashes = [] ↔
      ∀ i < hashes.length, (ranges.at (UInt64.ofNat (i + 1))).isEmpty = true := by
  simp only [childrenResponse, flatMap_eq_nil_iff, part_eq_nil_iff, Prod.forall,
    mk_mem_zipIdx_iff_getElem?]
  constructor
  · exact fun h i hi => h _ i (getElem?_eq_getElem hi)
  · exact fun h _ i hget => h i (List.getElem?_eq_some_iff.mp hget).1

/-! ## Requests that look like a single blob -/

lemma isBlob_iff : ranges.isBlob = true ↔
    ∃ offset, ranges.entries = [⟨offset, .rangeAll⟩, ⟨offset + 1, .rangeEmpty⟩] := by
  obtain ⟨entries⟩ := ranges
  constructor
  · intro h
    unfold ChunkRangesSeq.isBlob at h
    split at h
    next a b heq =>
      simp only [Bool.and_eq_true, decide_eq_true_eq] at h
      obtain ⟨⟨hall, hoffset⟩, hempty⟩ := h
      refine ⟨a.offset, heq.trans ?_⟩
      rw [← eq_rangeAll_of_isAll hall, ← eq_rangeEmpty_of_isEmpty hempty, hoffset]
    · cases h
  · rintro ⟨offset, h⟩
    subst h
    simp [ChunkRangesSeq.isBlob, ChunkRanges.isAll, ChunkRanges.isEmpty, ChunkRanges.rangeAll,
      ChunkRanges.rangeEmpty]

lemma at_of_isBlob (h : ranges.entries = [⟨offset, .rangeAll⟩, ⟨offset + 1, .rangeEmpty⟩])
    (hj : j + 1 < 2 ^ 64) :
    ranges.at (UInt64.ofNat j) = if j = offset.toNat then .rangeAll else .rangeEmpty := by
  have hjnat : (UInt64.ofNat j).toNat = j := UInt64.toNat_ofNat_of_lt' (by simp [UInt64.size]; omega)
  have hsucc : (offset + 1).toNat = (offset.toNat + 1) % 2 ^ 64 := by simp
  unfold ChunkRangesSeq.at
  rw [h, atLoop, atLoop]
  simp only [UInt64.lt_iff_toNat_lt]
  split_ifs <;> first | rfl | omega

lemma childrenResponse_of_isBlob
    (h : ranges.entries = [⟨offset, .rangeAll⟩, ⟨offset + 1, .rangeEmpty⟩]) (hashes : List Hash) :
    ∀ i, i + hashes.length + 1 < 2 ^ 64 → childrenResponse G content ranges i hashes =
        if i < offset.toNat then
          (hashes[offset.toNat - 1 - i]?).elim [] fun hash => baoResponse G (content hash) .rangeAll
        else [] := by
  induction hashes with
  | nil => simp [childrenResponse]
  | cons hash hashes ih =>
    intro i hi
    rw [length_cons] at hi
    rw [childrenResponse_cons, ih (i + 1) (by omega), at_of_isBlob h (by omega)]
    split
    · rw [if_neg (by omega), if_pos (by omega), append_nil, show offset.toNat - 1 - i = 0 by omega]
      rfl
    · rw [part_eq_nil_iff.mpr rfl, nil_append]
      by_cases hlater : i + 1 < offset.toNat
      · rw [if_pos hlater, if_pos (by omega),
          show offset.toNat - 1 - i = offset.toNat - 1 - (i + 1) + 1 by omega, getElem?_cons_succ]
      · rw [if_neg hlater, if_neg (by omega)]

/-! ## The whole request -/

def getResponse (G : Guts) (content : Hash → Bytes) (root : Hash) (seq : List Hash)
    (ranges : ChunkRangesSeq) : Bytes :=
  part G (content root) (ranges.at 0) ++ childrenResponse G content ranges 0 seq

/-- The requests that are answered as asked.  A request of the form "everything at one offset" must
be for the root, or for a child that is the root itself; and a request whose entries beyond offset 0
ask for nothing, nor for the first child, must ask for no child at all. -/
def AnsweredAsAsked (root : Hash) (seq : List Hash) (ranges : ChunkRangesSeq) : Prop :=
  (ranges.isBlob = true → ∀ e, ranges.entries.head? = some e →
    e.offset = 0 ∨ seq[e.offset.toNat - 1]? = some root) ∧
  (ranges.isBlob = false → (ranges.at 1).isEmpty = true →
    (∀ e ∈ ranges.entries, 0 < e.offset → e.ranges.isEmpty = true) →
    ∀ i < seq.length, (ranges.at (UInt64.ofNat (i + 1))).isEmpty = true)

lemma childrenRequested_eq_false_iff : childrenRequested ranges = false ↔ (ranges.at 1).isEmpty = true ∧
      ∀ e ∈ ranges.entries, 0 < e.offset → e.ranges.isEmpty = true := by
  simp [childrenRequested]

lemma length_hashSequenceLoop (n : ℕ) : ∀ b, (hashSequenceLoop n b).length = n := by
  induction n with
  | zero => exact fun _ => rfl
  | succ n ih => exact fun b => congrArg (· + 1) (ih (b.drop 32))

lemma length_of_parseHashSequence (h : parseHashSequence b = .ok seq) : seq.length = b.length / 32 := by
  unfold parseHashSequence at h
  split at h
  · cases h
  · cases h
    exact length_hashSequenceLoop _ _

lemma Stored.sequence_length_lt {hash : Hash}
    (h : Stored G store hash data) (hseq : parseHashSequence data = .ok seq) :
    0 + seq.length + 1 < 2 ^ 64 := by
  have hint : maxInt64 = 2 ^ 63 - 1 := rfl
  have hle := h.length_le
  rw [length_of_parseHashSequence hseq]
  omega

section

variable {G : Guts} {bao : Bao} {store : Store} {content : Hash → Bytes} {req : GetRequest}
  {seq : List Hash}

/-- **The three ways `writeGet` goes**, on a stored hash sequence with stored children. -/
theorem writeGet_eq (hG : G.IsBlake3) (hbao : bao.IsBao G)
    (hranges : ∀ e ∈ req.ranges.entries, e.ranges.Normalized)
    (hroot : Stored G store req.hash (content req.hash))
    (hseq : parseHashSequence (content req.hash) = .ok seq)
    (hchildren : ∀ h ∈ seq, Stored G store h (content h)) (out : Bytes) :
    writeGet G bao store req false out = .ok () (out ++
      if req.ranges.isBlob then baoResponse G (content req.hash) .rangeAll
      else if childrenRequested req.ranges then getResponse G content req.hash seq req.ranges
      else part G (content req.hash) (req.ranges.at 0)) := by
  rw [writeGet]
  by_cases hblob : req.ranges.isBlob = true
  · rw [if_pos hblob, if_pos hblob, hroot.writeBlob hbao]
  rw [if_neg hblob, if_neg hblob]
  by_cases hrequested : childrenRequested req.ranges = true
  · have hlen := hroot.sequence_length_lt hseq
    simp only [hrequested, if_true, hroot.readBlob]
    refine (bind_of_ok (Server.lift_ok _ out) _).trans ?_
    simp only [hseq]
    refine (bind_of_ok (Server.lift_ok _ out) _).trans ?_
    refine (bind_of_ok (hroot.writeRoot hG hbao (at_normalized hranges 0) out) _).trans ?_
    rw [writeChildren_ok hG hbao hranges seq 0 _ _ _ hlen hchildren fun _ _ => rfl, getResponse,
      append_assoc]
  · simp only [hrequested, Bool.not_false, if_true, Bool.false_eq_true, if_false]
    split
    next hempty =>
      rw [part_eq_nil_iff.mpr hempty, append_nil]
      rfl
    next hempty => rw [hroot.writeRanges hG hbao (at_normalized hranges 0) (by simpa using hempty)]

lemma getResponse_of_isBlob_iff (hblob : req.ranges.isBlob = true)
    (hroot : Stored G store req.hash (content req.hash))
    (hlen : 0 + seq.length + 1 < 2 ^ 64) (hchildren : ∀ h ∈ seq, Stored G store h (content h)) :
    baoResponse G (content req.hash) .rangeAll = getResponse G content req.hash seq req.ranges ↔
      ∀ e, req.ranges.entries.head? = some e →
        e.offset = 0 ∨ seq[e.offset.toNat - 1]? = some req.hash := by
  obtain ⟨offset, hentries⟩ := isBlob_iff.mp hblob
  have hat : req.ranges.at 0 = if 0 = offset.toNat then .rangeAll else .rangeEmpty :=
    at_of_isBlob hentries (by norm_num)
  have hzero : offset = 0 ↔ offset.toNat = 0 := by
    rw [← UInt64.toNat_inj]
    rfl
  simp only [hentries, head?_cons, Option.some.injEq, forall_eq']
  rw [getResponse, hat, childrenResponse_of_isBlob hentries seq 0 hlen, hzero]
  by_cases ho : offset.toNat = 0
  · rw [if_pos ho.symm, if_neg (by omega), append_nil]
    exact iff_of_true rfl (Or.inl ho)
  · rw [if_neg (Ne.symm ho), if_pos (by omega), part_eq_nil_iff.mpr rfl, nil_append,
      or_iff_right ho]
    cases hget : seq[offset.toNat - 1]? with
    | none =>
      refine iff_of_false (fun hnil => ?_) (by simp)
      rw [← part_of_nonempty rfl] at hnil
      exact absurd (part_eq_nil_iff.mp hnil) (by decide)
    | some hash =>
      have hstored := hchildren hash (mem_of_getElem? hget)
      have h64 : ∀ b : Bytes, b.length ≤ maxInt64 → b.length < 256 ^ 8 := fun b hb =>
        lt_of_le_of_lt hb (by decide)
      simp only [Option.elim_some, Option.some.injEq]
      constructor
      · intro heq
        rw [baoResponse_rangeAll G hroot.length_le, baoResponse_rangeAll G hstored.length_le] at heq
        rw [← hstored.hash_eq, ← fullResponse_injective (h64 _ hroot.length_le)
          (h64 _ hstored.length_le) heq, hroot.hash_eq]
      · rintro rfl
        rfl

end

/-- **When a get request is served as its range sequence says.**  For a request that fits the limit
and decodes to `req`, with the root stored as a hash sequence and its children stored, the response
of `ServeBlob` is what was asked for exactly when `AnsweredAsAsked` holds. -/
theorem serveBlob_get_iff (G : Guts) (hG : G.IsBlake3) (bao : Bao) (hbao : bao.IsBao G)
    (store : Store) (content : Hash → Bytes) (sent : Bytes) (hsent : sent.length ≤ maxRequestSize)
    (req : GetRequest) (hreq : decodeRequestBytes sent = .ok (.get req)) (seq : List Hash)
    (hroot : Stored G store req.hash (content req.hash))
    (hseq : parseHashSequence (content req.hash) = .ok seq)
    (hchildren : ∀ h ∈ seq, Stored G store h (content h)) :
    serveBlob G bao store false true sent [] =
        .ok () (getResponse G content req.hash seq req.ranges) ↔
      AnsweredAsAsked req.hash seq req.ranges := by
  have hlen := hroot.sequence_length_lt hseq
  have hserve : serveBlob G bao store false true sent [] = writeGet G bao store req false [] := by
    rw [serveBlob]
    simp only [take_of_length_le (show sent.length ≤ maxRequestSize + 1 by omega),
      if_neg (not_lt.mpr hsent), hreq]
    exact bind_of_ok (Server.lift_ok _ []) _
  rw [hserve, writeGet_eq hG hbao (decodeRequestBytes_normalized hreq) hroot hseq hchildren,
    nil_append, EStateM.Result.ok.injEq, eq_self_iff_true, true_and, AnsweredAsAsked]
  by_cases hblob : req.ranges.isBlob = true
  · rw [if_pos hblob, getResponse_of_isBlob_iff hblob hroot hlen hchildren]
    simp [hblob]
  · have hblob' : req.ranges.isBlob = false := by simpa using hblob
    rw [if_neg hblob]
    simp only [hblob', Bool.false_eq_true, false_imp_iff, true_and, true_imp_iff]
    by_cases hrequested : childrenRequested req.ranges = true
    · rw [if_pos hrequested]
      refine iff_of_true rfl fun h1 h2 => ?_
      exact absurd (childrenRequested_eq_false_iff.mpr ⟨h1, h2⟩) (by simp [hrequested])
    · have hnot : childrenRequested req.ranges = false := by simpa using hrequested
      obtain ⟨h1, h2⟩ := childrenRequested_eq_false_iff.mp hnot
      rw [if_neg hrequested, getResponse, self_eq_append_right, childrenResponse_eq_nil_iff]
      exact ⟨fun h _ _ => h, fun h => h h1 h2⟩

/-! ## A sequence of one child -/

def abcHash : Bytes :=
  [100, 55, 179, 172, 56, 70, 81, 51, 255, 182, 59, 117, 39, 58, 141, 181, 72, 197, 88, 70, 93, 121,
    219, 3, 253, 53, 156, 108, 213, 189, 157, 133]

def seqGuts : Guts := .ofChainingValue fun y =>
  if y = .chunk [97, 98, 99] 0 true then
    #v[2897426276, 860964408, 1966847743, 3045931559, 1180222792, 64715101, 1822176765, 2241707477]
  else if y = .chunk abcHash 0 true then
    #v[2373136348, 3970414615, 182316803, 2463361173, 2516946507, 1839939664, 697957834, 3559588244]
  else Vector.replicate 8 0

/-- The `bao` package on whole blobs. -/
def seqBao : Bao where
  encodeBuf data := (fullResponse seqGuts data, newHash seqGuts data)
  extractSlice data _ _ _ := .ok (fullResponse seqGuts data)

lemma seqBao_isBao : seqBao.IsBao seqGuts := ⟨fun _ => rfl, fun _ => rfl⟩

def seqContent (h : Hash) : Bytes := if h = newHash seqGuts abcHash then abcHash else [97, 98, 99]

def seqStore : Store := fun h =>
  if h = newHash seqGuts abcHash ∨ h = newHash seqGuts [97, 98, 99] then
    .ok (memBlob seqGuts (seqContent h))
  else .error "blobs: blob not found"

lemma seqStore_root :
    Stored seqGuts seqStore (newHash seqGuts abcHash) (seqContent (newHash seqGuts abcHash)) := by
  refine ⟨by decide +kernel, by decide +kernel, ?_⟩
  rw [seqStore, if_pos (Or.inl rfl)]

lemma seqStore_child : Stored seqGuts seqStore (newHash seqGuts [97, 98, 99])
    (seqContent (newHash seqGuts [97, 98, 99])) := by
  refine ⟨by decide +kernel, by decide +kernel, ?_⟩
  rw [seqStore, if_pos (Or.inr rfl)]

def getSeq (ranges : Bytes) : Bytes := 0 :: (newHash seqGuts abcHash).toList ++ ranges

theorem serveBlob_get_iff_all :
    AnsweredAsAsked (newHash seqGuts abcHash) [newHash seqGuts [97, 98, 99]] ⟨[⟨0, .rangeAll⟩]⟩ ∧
      serveBlob seqGuts seqBao seqStore false true (getSeq [1, 0, 1, 0]) [] =
        .ok () ([32, 0, 0, 0, 0, 0, 0, 0] ++ abcHash ++ ([3, 0, 0, 0, 0, 0, 0, 0] ++ [97, 98, 99])) := by
  have hcond : AnsweredAsAsked (newHash seqGuts abcHash) [newHash seqGuts [97, 98, 99]]
      ⟨[⟨0, .rangeAll⟩]⟩ :=
    ⟨fun h => absurd h (by decide), fun _ h => absurd h (by decide)⟩
  refine ⟨hcond, ((serveBlob_get_iff seqGuts (Guts.ofChainingValue_isBlake3 _) seqBao seqBao_isBao
    seqStore seqContent (getSeq [1, 0, 1, 0]) (by decide +kernel)
    ⟨newHash seqGuts abcHash, ⟨[⟨0, .rangeAll⟩]⟩⟩ (by decide +kernel)
    [newHash seqGuts [97, 98, 99]] seqStore_root (by decide +kernel) ?_).mpr hcond).trans ?_⟩
  · intro h hh
    rw [mem_singleton.mp hh]
    exact seqStore_child
  · decide +kernel

/-- A request for all of the first child and nothing else is answered with the root. -/
theorem serveBlob_get_sends_root : decodeRequestBytes (getSeq [2, 1, 1, 0, 1, 0]) =
        .ok (.get ⟨newHash seqGuts abcHash, ⟨[⟨1, .rangeAll⟩, ⟨2, .rangeEmpty⟩]⟩⟩) ∧
      Stored seqGuts seqStore (newHash seqGuts abcHash) abcHash ∧
      Stored seqGuts seqStore (newHash seqGuts [97, 98, 99]) [97, 98, 99] ∧
      parseHashSequence abcHash = .ok [newHash seqGuts [97, 98, 99]] ∧
      serveBlob seqGuts seqBao seqStore false true (getSeq [2, 1, 1, 0, 1, 0]) [] =
        .ok () ([32, 0, 0, 0, 0, 0, 0, 0] ++ abcHash) ∧
      getResponse seqGuts seqContent (newHash seqGuts abcHash) [newHash seqGuts [97, 98, 99]]
        ⟨[⟨1, .rangeAll⟩, ⟨2, .rangeEmpty⟩]⟩ = [3, 0, 0, 0, 0, 0, 0, 0] ++ [97, 98, 99] := by
  have hroot : seqContent (newHash seqGuts abcHash) = abcHash := by decide +kernel
  have hchild : seqContent (newHash seqGuts [97, 98, 99]) = [97, 98, 99] := by decide +kernel
  have hstored := seqStore_root
  have hstored' := seqStore_child
  rw [hroot] at hstored
  rw [hchild] at hstored'
  exact ⟨by decide +kernel, hstored, hstored', by decide +kernel, by decide +kernel,
    by decide +kernel⟩

end Iroh.Blobs
