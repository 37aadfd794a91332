import Iroh.Common.LittleEndian
import Mathlib.Data.Nat.Log

/-!
# The chunk tree of a blob

Reference: `blobs/chunkrange_bao.go`, `chunkCV` to `readChunkCV`; `blobs/bao.go`, `blobs/hash.go`.

BLAKE3 hashes a blob as a binary tree over its 1024-byte chunks; the left half of a node of `n`
chunks holds the largest power of two below `n`.  The compression function is third-party code and a
parameter here (`Guts`).

`hashChunkTree` hashes a buffer.  `treeCV` is the value of a node of a blob's own tree, named by its
first chunk and its number of chunks; `hashChunkTree_eq_treeCV` says that hashing the bytes of the
node gives it.
-/

namespace Iroh.Blobs

abbrev Hash := Bytes32

abbrev CV := Vector UInt32 8

def chunkSize : ℕ := 1024

/-- `blockChunks`: the chunks of a group of `BlockSize` bytes. -/
def blockChunks : ℕ := 16

/-- What goes into one chaining value: a chunk with its counter, or two children.  The flag marks the
root of the tree. -/
inductive HashInput where
  | chunk (data : Bytes) (counter : ℕ) (root : Bool)
  | parent (left right : CV) (root : Bool)
deriving DecidableEq

/-- The parts of BLAKE3 the code calls: `guts.ChainingValue` of a chunk or parent node, and
`blake3.Sum256`. -/
structure Guts where
  chainingValue : HashInput → CV
  sum256 : Bytes → Hash

def newHash (G : Guts) (b : Bytes) : Hash := G.sum256 b

def cvBytes (cv : CV) : Bytes := cv.toList.flatMap fun word => leBytes 4 word.toNat

def bytesToCV (p : Bytes) : CV :=
  Vector.ofFn fun i : Fin 8 => UInt32.ofNat (leNat ((p.drop (i * 4)).take 4))

def hashToCV (h : Hash) : CV := bytesToCV h.toList

def len64 (n : ℕ) : ℕ := if n = 0 then 0 else n.log2 + 1

/-- `leftChunks`, for a node of at least two chunks. -/
def leftChunks (n : ℕ) : ℕ := 1 <<< (len64 (n - 1) - 1)

def chunkCV (G : Guts) (data : Bytes) (counter : ℕ) (root : Bool) : CV :=
  G.chainingValue (.chunk data counter root)

def parentCV (G : Guts) (left right : CV) (root : Bool) : CV :=
  G.chainingValue (.parent left right root)

/-! ## The shape of the tree -/

open List

variable {n : ℕ} {G : Guts}

lemma leftChunks_eq (hn : 2 ≤ n) : leftChunks n = 2 ^ (n - 1).log2 := by
  rw [leftChunks, len64, if_neg (by omega), Nat.add_sub_cancel, Nat.one_shiftLeft]

lemma leftChunks_pos (n : ℕ) : 0 < leftChunks n := by
  rw [leftChunks, Nat.one_shiftLeft]
  exact Nat.two_pow_pos _

lemma leftChunks_lt (hn : 2 ≤ n) : leftChunks n < n := by
  rw [leftChunks_eq hn]
  have := Nat.log2_self_le (n := n - 1) (by omega)
  omega

lemma exists_leftChunks_eq_mul (hn : blockChunks < n) : ∃ m, 0 < m ∧ leftChunks n = 16 * m := by
  have hn' : 16 < n := hn
  have hlog : 4 ≤ (n - 1).log2 := (Nat.le_log2 (by omega)).mpr (by omega)
  refine ⟨2 ^ ((n - 1).log2 - 4), Nat.two_pow_pos _, ?_⟩
  rw [leftChunks_eq (by omega), show 16 = 2 ^ 4 from rfl, ← Nat.pow_add]
  congr 1
  omega

/-- `hashChunkSubtree`.  It is never called for no chunks at all. -/
def hashChunkSubtree (G : Guts) (data : Bytes) (first loc n : ℕ) (root : Bool) : CV :=
  if _h : n ≤ 1 then
    let lo := min (loc * chunkSize) data.length
    let hi := min (lo + chunkSize) data.length
    chunkCV G ((data.take hi).drop lo) (first + loc) root
  else
    let left := leftChunks n
    parentCV G (hashChunkSubtree G data first loc left false)
      (hashChunkSubtree G data first (loc + left) (n - left) false) root
termination_by n
decreasing_by
  · exact leftChunks_lt (by omega)
  · have := leftChunks_pos n
    omega

def hashChunkTree (G : Guts) (data : Bytes) (first n : ℕ) (root : Bool) : CV :=
  hashChunkSubtree G data first 0 n root

/-! ## Chunks and spans of chunks -/

def chunkBytes (data : Bytes) (i : ℕ) : Bytes := (data.drop (i * chunkSize)).take chunkSize

/-- The bytes of `n` chunks from `start` on. -/
def spanBytes (data : Bytes) (start n : ℕ) : Bytes :=
  (data.drop (start * chunkSize)).take (n * chunkSize)

/-- The number of chunks of `size` bytes. -/
def chunkCount (size : ℕ) : ℕ := (size + chunkSize - 1) / chunkSize

/-- `chunkRangeDecoder.sizeForChunk`: how much of chunk `i` a blob of `size` bytes fills. -/
def sizeForChunk (size i : ℕ) : ℕ :=
  let start := i * chunkSize
  if start ≥ size then 0 else min chunkSize (size - start)

lemma sizeForChunk_eq (size i : ℕ) : sizeForChunk size i = min 1024 (size - i * 1024) := by
  unfold sizeForChunk chunkSize
  dsimp only
  split <;> omega

lemma chunkCount_eq (size : ℕ) : chunkCount size = (size + 1023) / 1024 := by
  unfold chunkCount chunkSize
  omega

lemma chunkCount_pos : 0 < chunkCount size ↔ 0 < size := by
  rw [chunkCount_eq]
  omega

lemma length_chunkBytes (data : Bytes) (i : ℕ) :
    (chunkBytes data i).length = sizeForChunk data.length i := by
  rw [chunkBytes, sizeForChunk_eq, length_take, length_drop, chunkSize]

variable (data : Bytes) (start : ℕ)

lemma chunkBytes_spanBytes (hi : i < n) :
    chunkBytes (spanBytes data start n) i = chunkBytes data (start + i) := by
  have hle : chunkSize ≤ n * chunkSize - i * chunkSize := by
    simp only [chunkSize]
    omega
  rw [chunkBytes, spanBytes, chunkBytes, drop_take, take_take, drop_drop,
    Nat.min_eq_left hle, Nat.add_mul]

lemma spanBytes_add (start m n : ℕ) :
    spanBytes data start (m + n) = spanBytes data start m ++ spanBytes data (start + m) n := by
  rw [spanBytes, spanBytes, spanBytes, Nat.add_mul, take_add, drop_drop, Nat.add_mul]

lemma spanBytes_split (hn : 2 ≤ n) : spanBytes data start n = spanBytes data start (leftChunks n) ++
      spanBytes data (start + leftChunks n) (n - leftChunks n) := by
  rw [← spanBytes_add, Nat.add_sub_cancel' (leftChunks_lt hn).le]

lemma length_spanBytes (start n : ℕ) :
    (spanBytes data start n).length = min (n * 1024) (data.length - start * 1024) := by
  rw [spanBytes, length_take, length_drop]
  rfl

@[simp] lemma spanBytes_one : spanBytes data start 1 = chunkBytes data start := by
  rw [spanBytes, chunkBytes, Nat.one_mul]

@[simp] lemma spanBytes_zero : spanBytes data start 0 = [] := by
  simp [spanBytes]

lemma spanBytes_eq_flatMap (start n : ℕ) :
    spanBytes data start n = (List.range' start n).flatMap (chunkBytes data) := by
  induction n generalizing start with
  | zero => simp
  | succ n ih =>
    rw [Nat.add_comm n 1, spanBytes_add, ih, Nat.add_comm 1 n, range'_succ, flatMap_cons, spanBytes_one]

lemma sizeForChunk_pos_iff : 0 < sizeForChunk size i ↔ i < chunkCount size := by
  rw [sizeForChunk_eq, chunkCount_eq]
  omega

lemma size_eq_of_last (hpos : 0 < chunkCount size) (hcount : chunkCount size = chunkCount size')
    (hlast : sizeForChunk size (chunkCount size - 1) = sizeForChunk size' (chunkCount size - 1)) :
    size = size' := by
  rw [sizeForChunk_eq, sizeForChunk_eq] at hlast
  simp only [chunkCount_eq] at hpos hcount hlast
  omega

/-! ## Values of the nodes of a blob -/

/-- The value of the node of `n` chunks from `start` on. -/
def treeCV (G : Guts) (data : Bytes) (start n : ℕ) (root : Bool) : CV :=
  if _h : n ≤ 1 then chunkCV G (chunkBytes data start) start root
  else
    let left := leftChunks n
    parentCV G (treeCV G data start left false) (treeCV G data (start + left) (n - left) false) root
termination_by n
decreasing_by
  · exact leftChunks_lt (by omega)
  · have := leftChunks_pos n
    omega

lemma treeCV_leaf (G : Guts) (data : Bytes) (start : ℕ) (hn : n ≤ 1) (root : Bool) :
    treeCV G data start n root = chunkCV G (chunkBytes data start) start root := by
  rw [treeCV, dif_pos hn]

lemma treeCV_parent (G : Guts) (data : Bytes) (start : ℕ) (hn : 2 ≤ n) (root : Bool) :
    treeCV G data start n root = parentCV G (treeCV G data start (leftChunks n) false)
      (treeCV G data (start + leftChunks n) (n - leftChunks n) false) root := by
  rw [treeCV, dif_neg (by omega)]

lemma treeInduction {motive : ℕ → ℕ → Prop} (leaf : ∀ start n, n ≤ 1 → motive start n)
    (parent : ∀ start n, 2 ≤ n → motive start (leftChunks n) →
      motive (start + leftChunks n) (n - leftChunks n) → motive start n) (start n : ℕ) :
    motive start n := by
  induction n using Nat.strong_induction_on generalizing start with
  | h n ih =>
    rcases Nat.lt_or_ge n 2 with hn | hn
    · exact leaf start n (by omega)
    · have hpos := leftChunks_pos n
      exact parent start n hn (ih _ (leftChunks_lt hn) start) (ih _ (by omega) _)

lemma groupInduction {motive : ℕ → ℕ → Prop} (group : ∀ start n, n ≤ blockChunks → motive start n)
    (parent : ∀ start n, 2 ≤ n → blockChunks < n → motive start (leftChunks n) →
      motive (start + leftChunks n) (n - leftChunks n) → motive start n) (start n : ℕ) :
    motive start n := by
  induction start, n using treeInduction with
  | leaf start n hn => exact group start n (hn.trans (by decide))
  | parent start n hn ihl ihr =>
    rcases Nat.lt_or_ge blockChunks n with hbig | hle
    · exact parent start n hn hbig ihl ihr
    · exact group start n hle

lemma hashChunkSubtree_leaf (G : Guts) (buf : Bytes) (first loc : ℕ) (hn : n ≤ 1) (root : Bool) :
    hashChunkSubtree G buf first loc n root = chunkCV G (chunkBytes buf loc) (first + loc) root := by
  have hslice : (buf.take (min (min (loc * chunkSize) buf.length + chunkSize) buf.length)).drop
      (min (loc * chunkSize) buf.length) = chunkBytes buf loc := by
    rw [chunkBytes, drop_take]
    rcases Nat.le_total (loc * chunkSize) buf.length with h | h
    · rw [Nat.min_eq_left h]
      rcases Nat.le_total (loc * chunkSize + chunkSize) buf.length with h' | h'
      · rw [Nat.min_eq_left h', Nat.add_sub_cancel_left]
      · rw [Nat.min_eq_right h', take_of_length_le (by simp), take_of_length_le (by simp; omega)]
    · rw [Nat.min_eq_right h, drop_of_length_le h, drop_length, take_nil, take_nil]
  rw [hashChunkSubtree, dif_pos hn]
  dsimp only
  rw [hslice]

theorem hashChunkSubtree_eq_treeCV (G : Guts) (buf data : Bytes) (first : ℕ) (start n : ℕ) :
    ∀ (loc : ℕ) (root : Bool), first + loc = start →
      (∀ i < max 1 n, chunkBytes buf (loc + i) = chunkBytes data (start + i)) →
      hashChunkSubtree G buf first loc n root = treeCV G data start n root := by
  induction start, n using treeInduction with
  | leaf start n hn =>
    intro loc root hfirst hchunks
    rw [hashChunkSubtree_leaf G buf first loc hn, treeCV_leaf G data start hn, hfirst]
    have := hchunks 0 (by omega)
    simp only [Nat.add_zero] at this
    rw [this]
  | parent start n hn ihl ihr =>
    intro loc root hfirst hchunks
    have hlt := leftChunks_lt hn
    rw [hashChunkSubtree, dif_neg (by omega), treeCV_parent G data start hn]
    dsimp only
    rw [ihl loc false hfirst fun i hi => hchunks i (by omega),
      ihr (loc + leftChunks n) false (by omega) fun i hi => by
        rw [Nat.add_assoc, Nat.add_assoc]
        exact hchunks _ (by omega)]

lemma hashChunkTree_spanBytes (G : Guts) (data : Bytes) (start : ℕ) (hn : 0 < n) (root : Bool) :
    hashChunkTree G (spanBytes data start n) start n root = treeCV G data start n root := by
  refine hashChunkSubtree_eq_treeCV G _ data start start n 0 root rfl fun i hi => ?_
  rw [Nat.zero_add, chunkBytes_spanBytes data start (by omega)]

/-- What `blake3.Sum256` computes: the value of the root of the whole tree. -/
structure Guts.IsBlake3 (G : Guts) : Prop where
  sum256_eq : ∀ data : Bytes,
    (G.sum256 data).toList = cvBytes (treeCV G data 0 (max 1 (chunkCount data.length)) true)

/-- Nothing but the inputs of the node of `n` chunks from `start` on, and of the nodes below it, gives
their values.  No compression to 32 bytes is injective, but this can hold. -/
inductive Binds (G : Guts) (data : Bytes) : ℕ → ℕ → Bool → Prop where
  | leaf {start n : ℕ} {root : Bool} : n ≤ 1 →
      (∀ y, G.chainingValue y = treeCV G data start n root →
        y = .chunk (chunkBytes data start) start root) → Binds G data start n root
  | parent {start n : ℕ} {root : Bool} : 2 ≤ n →
      (∀ y, G.chainingValue y = treeCV G data start n root →
        y = .parent (treeCV G data start (leftChunks n) false)
          (treeCV G data (start + leftChunks n) (n - leftChunks n) false) root) →
      Binds G data start (leftChunks n) false →
      Binds G data (start + leftChunks n) (n - leftChunks n) false → Binds G data start n root

/-- `s, m` is the node `start, n` or one below it. -/
inductive Below : ℕ → ℕ → ℕ → ℕ → Prop where
  | refl (start n : ℕ) : Below start n start n
  | left {start n s m : ℕ} : 2 ≤ n → Below start (leftChunks n) s m → Below start n s m
  | right {start n s m : ℕ} : 2 ≤ n → Below (start + leftChunks n) (n - leftChunks n) s m →
      Below start n s m

lemma Below.span (h : Below start n s m) : start ≤ s ∧ s + m ≤ start + n := by
  induction h with
  | refl start n => exact ⟨le_rfl, le_rfl⟩
  | left hn _ ih | right hn _ ih =>
    have := leftChunks_lt hn
    omega

/-! ## Chaining values as bytes -/

@[simp] lemma length_cvBytes (cv : CV) : (cvBytes cv).length = 32 := by
  simp [cvBytes]

@[simp] lemma bytesToCV_cvBytes (cv : CV) : bytesToCV (cvBytes cv) = cv := by
  have hword : ∀ w : UInt32, UInt32.ofNat (leNat (leBytes 4 w.toNat)) = w := by
    intro w
    have hlt : w.toNat < 256 ^ 4 := w.toNat_lt
    rw [leNat_leBytes, Nat.mod_eq_of_lt hlt, UInt32.ofNat_toNat]
  have hpiece : ∀ (l : List UInt32) (i : ℕ) (hi : i < l.length),
      ((l.flatMap fun w => leBytes 4 w.toNat).drop (i * 4)).take 4 = leBytes 4 l[i].toNat := by
    intro l
    induction l with
    | nil => intro i hi; simp at hi
    | cons w l ih =>
      intro i hi
      cases i with
      | zero => simp
      | succ i =>
        rw [flatMap_cons, Nat.succ_mul, Nat.add_comm, ← drop_drop]
        exact ih i (by simpa using hi)
  ext i hi
  rw [bytesToCV, Vector.getElem_ofFn, cvBytes, hpiece _ i (by simpa using hi)]
  simp

lemma treeCV_congr {G' : Guts} (h : G.chainingValue = G'.chainingValue) (data : Bytes) (start n : ℕ) :
    ∀ root, treeCV G data start n root = treeCV G' data start n root := by
  induction start, n using treeInduction with
  | leaf start n hn =>
    intro root
    rw [treeCV_leaf G data start hn, treeCV_leaf G' data start hn, chunkCV, chunkCV, h]
  | parent start n hn ihl ihr =>
    intro root
    rw [treeCV_parent G data start hn, treeCV_parent G' data start hn, ihl, ihr, parentCV, parentCV, h]

def Guts.ofChainingValue (cv : HashInput → CV) : Guts where
  chainingValue := cv
  sum256 data :=
    let root :=
      treeCV ⟨cv, fun _ => Vector.replicate 32 0⟩ data 0 (max 1 (chunkCount data.length)) true
    ⟨(cvBytes root).toArray, by simp⟩

lemma Guts.ofChainingValue_isBlake3 (cv : HashInput → CV) : (ofChainingValue cv).IsBlake3 := by
  refine ⟨fun data => congrArg cvBytes (treeCV_congr ?_ data _ _ true)⟩
  rfl

lemma hashToCV_newHash (hG : G.IsBlake3) (data : Bytes) :
    hashToCV (newHash G data) = treeCV G data 0 (max 1 (chunkCount data.length)) true := by
  rw [hashToCV, newHash, hG.sum256_eq, bytesToCV_cvBytes]

end Iroh.Blobs
