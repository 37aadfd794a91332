import Iroh.Common.Bytes
import Iroh.Common.SortSearch

/-!
# Frames

Reference: `internal/qng/internal/wire`, `internal/qng/internal/ackhandler/ack_eliciting.go`.

The frames as a packer sees them: which kind they are and how long they get.  An ACK frame has its
ranges, the highest first; one that was parsed, or that the receiver's history makes, passes
`validateAckRanges`.
-/

namespace Iroh.Qng

open List

/-- `quicvarint.Len`, for numbers below `2 ^ 62`. -/
def varintLen (i : ℕ) : ℕ :=
  if i ≤ 63 then 1 else if i ≤ 16383 then 2 else if i ≤ 1073741823 then 4 else 8

/-! ## ACK frames -/

structure AckRange where
  smallest : ℕ
  largest : ℕ
deriving DecidableEq

def AckRange.Contains (r : AckRange) (pn : ℕ) : Prop := r.smallest ≤ pn ∧ pn ≤ r.largest

instance decidableContains (r : AckRange) (pn : ℕ) : Decidable (r.Contains pn) :=
  inferInstanceAs (Decidable (_ ∧ _))

/-- The second loop of `validateAckRanges`. -/
def ackRangesDescend : List AckRange → Bool
  | last :: r :: l => (r.smallest < last.smallest && r.largest + 1 < last.smallest) &&
      ackRangesDescend (r :: l)
  | _ => true

def validateAckRanges (ranges : List AckRange) : Bool :=
  !ranges.isEmpty && ranges.all (fun r => r.smallest ≤ r.largest) && ackRangesDescend ranges

lemma pairwise_of_ackRangesDescend : ∀ {ranges : List AckRange},
    (∀ r ∈ ranges, r.smallest ≤ r.largest) → ackRangesDescend ranges = true →
      ranges.Pairwise fun a b => b.largest + 1 < a.smallest
  | [], _, _ => .nil
  | [r], _, _ => List.pairwise_singleton _ r
  | a :: b :: l, hordered, hdescend => by
      simp only [ackRangesDescend, Bool.and_eq_true, decide_eq_true_eq] at hdescend
      obtain ⟨⟨-, hgap⟩, hrest⟩ := hdescend
      have hb := hordered b (by simp)
      have htail := pairwise_of_ackRangesDescend (fun r hr => hordered r (mem_cons_of_mem a hr))
        hrest
      refine pairwise_cons.mpr ⟨?_, htail⟩
      intro r hr
      rcases mem_cons.mp hr with rfl | hr
      · exact hgap
      · have hlt := (pairwise_cons.mp htail).1 r hr
        omega

structure AckFrame where
  ackRanges : List AckRange
  delayTime : ℕ
  ect0 : ℕ
  ect1 : ℕ
  ecnce : ℕ
  valid : validateAckRanges ackRanges = true
deriving DecidableEq

namespace AckFrame

variable (f : AckFrame)

lemma ranges_ne_nil : f.ackRanges ≠ [] := by
  have hvalid := f.valid
  intro hnil
  rw [hnil] at hvalid
  simp [validateAckRanges] at hvalid

lemma ranges_pairwise : f.ackRanges.Pairwise fun a b => b.largest + 1 < a.smallest := by
  have hvalid := f.valid
  simp only [validateAckRanges, Bool.and_eq_true, all_eq_true, decide_eq_true_eq] at hvalid
  exact pairwise_of_ackRangesDescend hvalid.1.2 hvalid.2

lemma ranges_ordered (hr : r ∈ f.ackRanges) : r.smallest ≤ r.largest := by
  have hvalid := f.valid
  simp only [validateAckRanges, Bool.and_eq_true, all_eq_true, decide_eq_true_eq] at hvalid
  exact hvalid.1.2 r hr

def largestAcked : ℕ := (f.ackRanges.head f.ranges_ne_nil).largest

def lowestAcked : ℕ := (f.ackRanges.getLast f.ranges_ne_nil).smallest

def acksPacket (p : ℕ) : Bool :=
  if p < f.lowestAcked || f.largestAcked < p then false
  else
    let i := sortSearch f.ackRanges.length fun i => f.ackRanges[i]?.any (·.smallest ≤ p)
    f.ackRanges[i]?.any (p ≤ ·.largest)

def Acks (pn : ℕ) : Prop := ∃ r ∈ f.ackRanges, r.Contains pn

instance decidableAcks (pn : ℕ) : Decidable (f.Acks pn) := inferInstanceAs (Decidable (∃ _ ∈ _, _))

lemma reverse_ranges_pairwise : f.ackRanges.reverse.Pairwise fun a b => a.largest + 1 < b.smallest :=
  pairwise_reverse.mpr f.ranges_pairwise

lemma getLast_reverse_ranges (hr : f.ackRanges.reverse.getLast? = some r) :
    r.largest = f.largestAcked := by
  rw [getLast?_reverse, head?_eq_some_head f.ranges_ne_nil] at hr
  rw [← Option.some.inj hr]
  rfl

lemma acks_bounds (h : f.Acks pn) : f.lowestAcked ≤ pn ∧ pn ≤ f.largestAcked := by
  obtain ⟨r, hr, hsmall, hlarge⟩ := h
  have hpair := f.ranges_pairwise
  constructor
  · -- the last range is the lowest
    have hlast : r = f.ackRanges.getLast f.ranges_ne_nil ∨
        (f.ackRanges.getLast f.ranges_ne_nil).largest + 1 < r.smallest := by
      rw [← dropLast_append_getLast f.ranges_ne_nil] at hr hpair
      rcases mem_append.mp hr with hr | hr
      · exact .inr ((pairwise_append.mp hpair).2.2 r hr _ (mem_singleton_self _))
      · exact .inl (mem_singleton.mp hr)
    have hordered := f.ranges_ordered (getLast_mem f.ranges_ne_nil)
    unfold lowestAcked
    rcases hlast with rfl | hlt
    · exact hsmall
    · omega
  · have hhead : r = f.ackRanges.head f.ranges_ne_nil ∨
        r.largest + 1 < (f.ackRanges.head f.ranges_ne_nil).smallest := by
      rw [← cons_head_tail f.ranges_ne_nil] at hr hpair
      rcases mem_cons.mp hr with hr | hr
      · exact .inl hr
      · exact .inr ((pairwise_cons.mp hpair).1 r hr)
    have hordered := f.ranges_ordered (head_mem f.ranges_ne_nil)
    unfold largestAcked
    rcases hhead with rfl | hlt
    · exact hlarge
    · omega

/-- `encodeAckRange` of a range that follows `last`. -/
def encodeAckRange (last r : AckRange) : ℕ × ℕ :=
  (last.smallest - r.largest - 2, r.largest - r.smallest)

def laterRangeLens : List AckRange → List ℕ
  | last :: r :: l =>
    (varintLen (encodeAckRange last r).1 + varintLen (encodeAckRange last r).2) ::
      laterRangeLens (r :: l)
  | _ => []

def maxNumAckRanges : ℕ := 64

/-- `encodeAckDelay`, of a time in nanoseconds. -/
def encodeAckDelay (delay : ℕ) : ℕ := delay / (1000 * 8)

def hasECN : Bool := 0 < f.ect0 || 0 < f.ect1 || 0 < f.ecnce

def baseLength : ℕ :=
  let first := f.ackRanges.head f.ranges_ne_nil
  1 + varintLen f.largestAcked + varintLen (encodeAckDelay f.delayTime) + 1 +
    varintLen (first.largest - first.smallest) +
    if f.hasECN then varintLen f.ect0 + varintLen f.ect1 + varintLen f.ecnce else 0

def length : ℕ :=
  ((laterRangeLens f.ackRanges).take (maxNumAckRanges - 1)).foldl (· + ·) f.baseLength

/-- The slow path of `numEncodableAckRanges`: how many of the later ranges fit. -/
def encodableRanges (maxSize : ℕ) : ℕ → List ℕ → ℕ
  | _, [] => 0
  | length, l :: rest =>
    if maxSize < length + l then 0 else encodableRanges maxSize (length + l) rest + 1

def worstLength (numRanges : ℕ) : ℕ :=
  1 + 8 + 8 + 1 + 8 + (if f.hasECN then 8 + 8 + 8 else 0) + 2 * 8 * (numRanges - 1)

def numEncodableAckRanges (maxSize : ℕ) : ℕ :=
  let numRanges := min f.ackRanges.length maxNumAckRanges
  if f.worstLength numRanges ≤ maxSize then numRanges
  else 1 + encodableRanges maxSize f.baseLength ((laterRangeLens f.ackRanges).take (numRanges - 1))

lemma numEncodableAckRanges_pos (maxSize : ℕ) : 0 < f.numEncodableAckRanges maxSize := by
  have hlen : 0 < f.ackRanges.length := length_pos_of_ne_nil f.ranges_ne_nil
  have hnum : 0 < min f.ackRanges.length maxNumAckRanges := lt_min hlen (by decide)
  unfold numEncodableAckRanges
  dsimp only
  split
  · exact hnum
  · omega

lemma validateAckRanges_take {ranges : List AckRange} (h : validateAckRanges ranges = true)
    (hn : 0 < n) : validateAckRanges (ranges.take n) = true := by
  simp only [validateAckRanges, Bool.and_eq_true, all_eq_true, Bool.not_eq_true', isEmpty_eq_false_iff] at h ⊢
  obtain ⟨⟨hne, hordered⟩, hdescend⟩ := h
  refine ⟨⟨?_, fun r hr => hordered r (mem_of_mem_take hr)⟩, ?_⟩
  · rw [Ne, take_eq_nil_iff]
    rintro (rfl | hnil)
    · exact absurd hn (Nat.lt_irrefl 0)
    · exact hne hnil
  · clear hne hordered hn
    induction n generalizing ranges with
    | zero => simp [ackRangesDescend]
    | succ n ih =>
      match ranges, n with
      | [], _ => simp [ackRangesDescend]
      | [r], _ => simp [ackRangesDescend]
      | _ :: _ :: _, 0 => simp [ackRangesDescend]
      | a :: b :: l, n + 1 =>
        simp only [ackRangesDescend, Bool.and_eq_true] at hdescend
        have htail := ih hdescend.2
        simp only [take_succ_cons, ackRangesDescend, Bool.and_eq_true] at htail ⊢
        exact ⟨hdescend.1, htail⟩

def truncate (maxSize : ℕ) : AckFrame :=
  { f with
    ackRanges := f.ackRanges.take (f.numEncodableAckRanges maxSize)
    valid := validateAckRanges_take f.valid (f.numEncodableAckRanges_pos maxSize) }

end AckFrame

/-! ## The other frames -/

abbrev Token := BitVec 64

/-- A frame that is queued for sending: any but ACK, PATH_ACK, CONNECTION_CLOSE, STREAM and DATAGRAM.
Of most of them only the length matters here. -/
inductive ControlFrame where
  | ping
  | pathChallenge (data : Token)
  | pathResponse (data : Token)
  | other (length : ℕ)
deriving DecidableEq

def ControlFrame.length : ControlFrame → ℕ
  | .ping => 1
  | .pathChallenge _ => 1 + 8
  | .pathResponse _ => 1 + 8
  | .other length => length

/-- `wire.Frame`, other than STREAM. -/
inductive Frame where
  | ack (f : AckFrame)
  | pathAck (pathID : ℕ) (f : AckFrame)
  | connectionClose (length : ℕ)
  | datagram (data : Bytes)
  | control (f : ControlFrame)
deriving DecidableEq

namespace Frame

/-- `Length`.  The types of PATH_ACK and PATH_ACK_ECN are 0x3e and 0x3f. -/
def length : Frame → ℕ
  | .ack f => f.length
  | .pathAck pathID f =>
    f.length - 1 + (varintLen (if f.hasECN then 0x3f else 0x3e) + varintLen pathID)
  | .connectionClose length => length
  | .datagram data => 1 + data.length + varintLen data.length
  | .control f => f.length

def isAckEliciting : Frame → Bool
  | .ack _ => false
  | .pathAck _ _ => false
  | .connectionClose _ => false
  | .datagram _ => true
  | .control _ => true

end Frame

def hasAckElicitingFrames (frames : List Frame) : Bool := frames.any Frame.isAckEliciting

structure StreamFrame where
  length : ℕ
deriving DecidableEq

end Iroh.Qng
