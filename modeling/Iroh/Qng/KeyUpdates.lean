import Iroh.Common.Runs
import Iroh.Qng.KeyEndpoint

/-!
# When keys are updated

An endpoint may begin a phase after `k ≥ 1` only when a packet of phase `k` was acknowledged, and an
acknowledgement of a packet of the current phase from a peer that has not updated its keys is an error.
`SetLargestAcked` and `updateAllowed` decide both by comparing the number of the acknowledged packet with that
of the first packet sent in the phase.
-/

namespace Iroh.Qng

open List

inductive UpdateStep where
  | keyPhase (intervals : KeyUpdateIntervals)
  | confirm
  | sealPacket (pid pn : ℕ) (plaintext : Bytes)
  | openPacket (p : Packet) (rcvTime pto : ℕ)
  /-- `handleAckFrame` and `handleAckFrameForPath`: the peer acknowledges a packet. -/
  | ack (p : Packet)

namespace Endpoint

/-- An honest peer acknowledges a packet of a phase once it sends with keys of that phase itself. -/
def Honest (e : Endpoint) (p : Packet) : Prop := p ∈ e.sent ∧ ∃ q ∈ e.opened, p.phase ≤ q.phase

instance decidableHonest (e : Endpoint) (p : Packet) : Decidable (e.Honest p) :=
  inferInstanceAs (Decidable (_ ∧ _))

def step (e : Endpoint) : UpdateStep → Endpoint
  | .keyPhase intervals => e.keyPhase intervals
  | .confirm => e.confirm
  | .sealPacket pid pn plaintext => e.sealPacket pid pn plaintext
  | .openPacket p rcvTime pto => e.openPacket p rcvTime pto
  | .ack p => if e.Honest p then e.ack p else e

lemma Ok.step {e : Endpoint} (h : e.Ok) (a : UpdateStep) : (e.step a).Ok := by
  cases a with
  | keyPhase intervals => exact h.keyPhase intervals
  | confirm => exact h.confirm
  | sealPacket pid pn plaintext => exact h.sealPacket pid pn plaintext
  | openPacket p rcvTime pto => exact h.openPacket p rcvTime pto
  | ack p =>
    dsimp only [Endpoint.step]
    split
    case isTrue hp => exact h.ack hp.1
    case isFalse => exact h

/-! ## The rules, and when they are kept -/

/-- No acknowledgement of an honest peer is an error, and a phase after the first ends only when one of
its packets was acknowledged. -/
def KeepsRules (e : Endpoint) : UpdateStep → Prop
  | .ack p => e.Honest p → (e.aead.setLargestAcked p.pn).2 = none
  | .keyPhase intervals =>
    0 < e.aead.keyPhase → (e.keyPhase intervals).aead.keyPhase ≠ e.aead.keyPhase →
      ∃ p ∈ e.acked, p.phase = e.aead.keyPhase
  | _ => True

/-- An update is due in a phase after the first: as many packets as the interval asks for were opened or
sent. -/
def Due (e : Endpoint) (intervals : KeyUpdateIntervals) : Prop :=
  0 < e.aead.keyPhase ∧ e.aead.handshakeConfirmed = true ∧
    (intervals.later ≤ e.aead.numRcvdWithCurrentKey ∨
      intervals.later ≤ e.aead.numSentWithCurrentKey)

/-- What is needed of the paths.  An acknowledgement that comes before a packet was opened with the key
of the phase, other than the one that began it, is of an old packet on the path of the first packet sent
in the phase, or its number is lower.  When an update is due one of the packets of the phase was
acknowledged, or the packet last acknowledged is on that path, or its number is lower. -/
def PathsAgree (e : Endpoint) : UpdateStep → Prop
  | .ack p => e.Honest p → e.aead.numRcvdWithCurrentKey = 0 → ∀ first, e.firstSent = some first →
      (p.phase < e.aead.keyPhase ∧ p.pid = first.pid) ∨ p.pn < first.pn
  | .keyPhase intervals => e.Due intervals → (∃ p ∈ e.acked, p.phase = e.aead.keyPhase) ∨
        ∀ first last, e.firstSent = some first → e.acked.getLast? = some last →
          last.pid = first.pid ∨ last.pn < first.pn
  | _ => True

variable {e : Endpoint}

lemma firstSent_mem (hfirst : e.firstSent = some first) :
    first ∈ e.sent ∧ first.phase = e.aead.keyPhase := by
  refine ⟨mem_of_find?_eq_some hfirst, ?_⟩
  simpa using find?_some hfirst

lemma Ok.setLargestAcked_eq_none_iff (h : e.Ok) (pn : ℕ) : (e.aead.setLargestAcked pn).2 = none ↔
      (e.aead.numRcvdWithCurrentKey = 0 → ∀ first, e.firstSent = some first → pn < first.pn) := by
  unfold UpdatableAEAD.setLargestAcked
  rw [h.firstSent]
  cases e.firstSent with
  | none => simp
  | some first =>
    by_cases hnum : e.aead.numRcvdWithCurrentKey = 0
    · by_cases hle : first.pn ≤ pn
      · simp [hnum, hle]
      · have hlt : pn < first.pn := Nat.not_le.mp hle
        simp [hle, hlt]
    · simp [hnum]

lemma keyPhase_ne_iff (intervals : KeyUpdateIntervals) :
    (e.keyPhase intervals).aead.keyPhase ≠ e.aead.keyPhase ↔
      e.aead.shouldInitiateKeyUpdate intervals = true := by
  unfold keyPhase UpdatableAEAD.callKeyPhase
  by_cases hroll : e.aead.shouldInitiateKeyUpdate intervals = true
  · simp [hroll, UpdatableAEAD.rollKeys]
  · simp [hroll]

lemma Ok.shouldInitiateKeyUpdate_iff (h : e.Ok) (intervals : KeyUpdateIntervals)
    (hpos : 0 < e.aead.keyPhase) : e.aead.shouldInitiateKeyUpdate intervals = true ↔ e.Due intervals ∧
        ∃ first last, e.firstSent = some first ∧ e.acked.getLast? = some last ∧ first.pn ≤ last.pn := by
  have hne : e.aead.keyPhase ≠ 0 := by omega
  unfold UpdatableAEAD.shouldInitiateKeyUpdate UpdatableAEAD.updateAllowed Due
  rw [h.firstSent, h.lastAcked]
  cases e.firstSent with
  | none => simp [hne]
  | some first =>
    cases e.acked.getLast? with
    | none => simp [hne]
    | some last =>
      simp [hne, hpos, and_comm, and_left_comm, and_assoc]

lemma keepsRules_iff (h : e.Ok) (a : UpdateStep) : e.KeepsRules a ↔ e.PathsAgree a := by
  cases a with
  | ack p =>
    refine forall_congr' fun hp => ?_
    rw [h.setLargestAcked_eq_none_iff]
    refine forall₃_congr fun _ first hfirst => ?_
    constructor
    · exact .inr
    · rintro (⟨hphase, hpid⟩ | hlt)
      · obtain ⟨hmem, hcurrent⟩ := firstSent_mem hfirst
        exact h.number_lt hp.1 hmem (by omega) hpid
      · exact hlt
  | keyPhase intervals =>
    dsimp only [KeepsRules]
    rw [keyPhase_ne_iff]
    constructor
    · intro hkeeps hdue
      by_cases hacked : ∃ p ∈ e.acked, p.phase = e.aead.keyPhase
      · exact .inl hacked
      · refine .inr fun first last hfirst hlast => .inr ?_
        by_contra hle
        exact hacked (hkeeps hdue.1 ((h.shouldInitiateKeyUpdate_iff intervals hdue.1).mpr
          ⟨hdue, first, last, hfirst, hlast, Nat.not_lt.mp hle⟩))
    · intro hagree hpos hroll
      obtain ⟨hdue, first, last, hfirst, hlast, hle⟩ :=
        (h.shouldInitiateKeyUpdate_iff intervals hpos).mp hroll
      rcases hagree hdue with hacked | hpaths
      · exact hacked
      · -- the packet last acknowledged is on the path of the first, so it is not of an old phase
        have hmem : last ∈ e.acked := mem_of_getLast? hlast
        obtain ⟨hsent, hcurrent⟩ := firstSent_mem hfirst
        have hpid := (hpaths first last hfirst hlast).resolve_right (Nat.not_lt.mpr hle)
        have hphase := h.sentPhase last (h.ackedSent last hmem)
        refine ⟨last, hmem, le_antisymm hphase ?_⟩
        by_contra hold
        have hlt := h.number_lt (h.ackedSent last hmem) hsent (by omega) hpid
        omega
  | _ => exact Iff.rfl

/-- **The rules of key updates are kept exactly while the paths agree.** -/
theorem rules_kept_iff (limit : ℕ) (steps : List UpdateStep) :
    EachStep step KeepsRules (start limit) steps ↔
      EachStep step PathsAgree (start limit) steps := by
  have hok : ∀ pre : List UpdateStep, (pre.foldl step (start limit)).Ok := by
    intro pre
    apply foldlRecOn (motive := Ok) pre _ (ok_start limit)
    intro e h a _
    exact h.step a
  refine forall₃_congr fun pre a _ => ?_
  exact keepsRules_iff (hok pre) a

def sentOnPath2 : Packet := ⟨2, 99, 0, ⟨⟨0⟩, 2, 99, []⟩⟩

def fromPeer : Packet := ⟨0, 0, 0, ⟨⟨0⟩, 0, 0, []⟩⟩

/-- A hundred packets on path 2 bring about the first update; then a packet on path 1 is sent. -/
def updateAfterPath2 : List UpdateStep :=
  (range 100).map (fun pn => .sealPacket 2 pn []) ++
    [.openPacket fromPeer 0 0, .confirm, .keyPhase .default, .sealPacket 1 5 []]

/-- The acknowledgement of the last packet on path 2 is an error: its number is not below that of the
packet on path 1. -/
theorem late_ack_of_path2_fails : ¬ EachStep step KeepsRules (start invalidPacketLimitAES)
      (updateAfterPath2 ++ [.ack sentOnPath2]) := by
  intro h
  have hack := h updateAfterPath2 (.ack sentOnPath2) prefix_rfl
  have herr : ((updateAfterPath2.foldl step
      (start invalidPacketLimitAES)).aead.setLargestAcked sentOnPath2.pn).2 ≠ none := by
    decide +kernel
  exact herr (hack (by decide +kernel))

end Endpoint

end Iroh.Qng
