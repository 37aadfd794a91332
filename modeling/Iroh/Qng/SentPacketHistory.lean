import Iroh.Common.SlotWindow
import Iroh.Qng.PacketPacker

/-!
# The packets that were sent

Reference: `internal/qng/internal/ackhandler/packet.go`, `sent_packet_history.go`,
`packet_number_generator.go`.

The history of a packet number space is a window of slots, one per packet number; a slot is emptied when
its packet is acknowledged or declared lost.  A packet number that was skipped has an empty slot from the
start.  Each operation is given by what it does to the packets in the history (`entries`).

A panic is an error here, so that its absence can be proved.  While an iterator runs the history puts
off cutting its empty slots; the iterator has saved the number it started from, so that here they are
cut at once.
-/

namespace Iroh.Qng.AckHandler

open List

inductive HandlerError where
  | panic (message : String)
  | protocolViolation (message : String)
  | other (message : String)
deriving DecidableEq

structure Packet where
  sendTime : ℕ
  streamFrame : Option StreamFrame
  streamFrames : List StreamFrame
  frames : List Frame
  length : ℕ
  isPathMTUProbePacket : Bool
  includedInBytesInFlight : Bool
  isPathProbePacket : Bool
  pathID : ℕ
deriving DecidableEq

namespace Packet

def isAckEliciting (p : Packet) : Bool :=
  p.streamFrame.isSome || 0 < p.streamFrames.length || 0 < p.frames.length

def outstanding (p : Packet) : Bool :=
  !p.isPathMTUProbePacket && !p.isPathProbePacket && p.isAckEliciting

def probePlaceholder : Packet := ⟨0, none, [], [], 0, false, false, true, 0⟩

end Packet

def maxSkippedPackets : ℕ := 4

/-- `sentPacketHistory`.  `none` is `InvalidPacketNumber`. -/
structure SentPacketHistory where
  packets : List (Option Packet)
  pathProbePackets : List (ℕ × Packet)
  skippedPackets : List ℕ
  numOutstanding : ℕ
  firstPacketNumber : Option ℕ
  highestPacketNumber : Option ℕ
deriving DecidableEq

namespace SentPacketHistory

def new : SentPacketHistory := ⟨[], [], [], 0, none, none⟩

/-- `Packets`: the packets of the history, with their numbers. -/
def entries (h : SentPacketHistory) : List (ℕ × Packet) :=
  slotEntries (h.firstPacketNumber.getD 0) h.packets

def checkSequentialPacketNumberUse (h : SentPacketHistory) (pn : ℕ) :
    Except HandlerError SentPacketHistory :=
  if h.highestPacketNumber.any fun highest => pn ≠ highest + 1 then
    throw (.panic "non-sequential packet number use")
  else
    pure { h with
      highestPacketNumber := some pn
      firstPacketNumber := if h.packets.isEmpty then some pn else h.firstPacketNumber }

def skippedPacket (h : SentPacketHistory) (pn : ℕ) : Except HandlerError SentPacketHistory := do
  let h ← h.checkSequentialPacketNumberUse pn
  let skipped :=
    if h.skippedPackets.length = maxSkippedPackets then h.skippedPackets.drop 1 else h.skippedPackets
  return { h with
    packets := if h.packets.isEmpty then h.packets else h.packets ++ [none]
    skippedPackets := skipped ++ [pn] }

def sentPacket (h : SentPacketHistory) (pn : ℕ) (p : Packet) :
    Except HandlerError SentPacketHistory := do
  let h ← h.checkSequentialPacketNumberUse pn
  return { h with
    packets := h.packets ++ [some p]
    numOutstanding := h.numOutstanding + if p.outstanding then 1 else 0 }

def sentPathProbePacket (h : SentPacketHistory) (pn : ℕ) (p : Packet) :
    Except HandlerError SentPacketHistory := do
  let h ← h.checkSequentialPacketNumberUse pn
  return { h with
    packets := h.packets ++ [some .probePlaceholder]
    pathProbePackets := h.pathProbePackets ++ [(pn, p)] }

def getIndex (h : SentPacketHistory) (pn : ℕ) : Option ℕ :=
  if h.packets.isEmpty then none
  else
    let first := h.firstPacketNumber.getD 0
    if pn < first then none
    else if h.packets.length - 1 < pn - first then none
    else some (pn - first)

def cleanupStart (h : SentPacketHistory) : SentPacketHistory :=
  let i := leadingEmpty h.packets
  if i = h.packets.length then { h with packets := [], firstPacketNumber := none }
  else
    { h with packets := h.packets.drop i, firstPacketNumber := h.firstPacketNumber.map (· + i) }

/-- The packet in a slot leaves the history: the common part of `Remove` and `DeclareLost`. -/
def emptySlot (h : SentPacketHistory) (idx : ℕ) : Except HandlerError SentPacketHistory :=
  match h.packets[idx]? with
  | some (some p) =>
    let h' := { h with packets := h.packets.set idx none }
    if p.outstanding then
      if h.numOutstanding = 0 then throw (.panic "negative number of outstanding packets")
      else pure { h' with numOutstanding := h.numOutstanding - 1 }
    else pure h'
  | _ => throw (.panic "nil pointer dereference")

def remove (h : SentPacketHistory) (pn : ℕ) : Except HandlerError SentPacketHistory :=
  match h.getIndex pn with
  | none => throw (.other ("packet " ++ toString pn ++ " not found in sent packet history"))
  | some idx => do
      let h ← h.emptySlot idx
      let hasPacketBefore := (h.packets.take idx).any Option.isSome
      let h := if hasPacketBefore then h else h.cleanupStart
      if h.packets.head? = some none then throw (.panic "cleanup failed")
      return h

def declareLost (h : SentPacketHistory) (pn : ℕ) : Except HandlerError SentPacketHistory :=
  match h.getIndex pn with
  | none => pure h
  | some idx => do
      let h ← h.emptySlot idx
      return if idx = 0 then h.cleanupStart else h

def removePathProbe (h : SentPacketHistory) (pn : ℕ) : SentPacketHistory × Option Packet :=
  ({ h with pathProbePackets := h.pathProbePackets.eraseP (·.1 = pn) },
    (h.pathProbePackets.find? (·.1 = pn)).map Prod.snd)

def difference (h : SentPacketHistory) (a b : ℕ) : ℕ :=
  match h.skippedPackets.head?, h.skippedPackets.getLast? with
  | some first, some last =>
    if a < first || last < b then a - b
    else a - b - h.skippedPackets.countP fun p => b < p && p < a
  | _, _ => a - b

def firstOutstanding (h : SentPacketHistory) : Option (ℕ × Packet) :=
  if h.numOutstanding = 0 then none else h.entries.find? (·.2.outstanding)

/-! ## What the operations do to the packets -/

def outstandingOf (e : ℕ × Packet) : ℕ := if e.2.outstanding then 1 else 0

/-- The numbers of the window follow one another. -/
structure Ok (h : SentPacketHistory) : Prop where
  window : h.packets ≠ [] → ∃ first highest, h.firstPacketNumber = some first ∧
    h.highestPacketNumber = some highest ∧ first + h.packets.length = highest + 1
  head : h.packets.head? ≠ some none
  count : h.numOutstanding = totalBy outstandingOf h.entries

lemma ok_new : new.Ok := ⟨fun h => absurd rfl h, by simp [new], rfl⟩

variable {h h' : SentPacketHistory}

lemma entries_pairwise (h : SentPacketHistory) : h.entries.Pairwise fun e e' => e.1 < e'.1 :=
  slotEntries_pairwise _ _

variable {e : ℕ × Packet} {pn : ℕ} {E : HandlerError → Prop}

lemma packets_ne_nil (he : e ∈ h.entries) : h.packets ≠ [] := by
  intro hnil
  rw [entries, hnil] at he
  cases he

lemma Ok.entries_le (hok : h.Ok) (he : e ∈ h.entries) :
    ∃ highest, h.highestPacketNumber = some highest ∧ e.1 ≤ highest := by
  obtain ⟨first, highest, hfirst, hhighest, hlen⟩ := hok.window (packets_ne_nil he)
  have hbounds := slotEntries_bounds he
  rw [hfirst, Option.getD_some] at hbounds
  exact ⟨highest, hhighest, by omega⟩

def Next (h : SentPacketHistory) (pn : ℕ) : Prop :=
  ∀ highest, h.highestPacketNumber = some highest → pn = highest + 1

lemma checkSequentialPacketNumberUse_eq (hpn : h.Next pn) :
    h.checkSequentialPacketNumberUse pn = .ok { h with
      highestPacketNumber := some pn
      firstPacketNumber := if h.packets.isEmpty then some pn else h.firstPacketNumber } := by
  have hseq : ¬ (h.highestPacketNumber.any fun highest => decide (pn ≠ highest + 1)) = true := by
    cases hhighest : h.highestPacketNumber with
    | none => simp
    | some highest => simp [hpn highest hhighest]
  unfold checkSequentialPacketNumberUse
  rw [if_neg hseq]
  rfl

/-- The history with packets added at its end. -/
structure Extended (h : SentPacketHistory) (pn : ℕ) (added : List (ℕ × Packet))
    (h' : SentPacketHistory) : Prop where
  ok : h'.Ok
  entries : h'.entries = h.entries ++ added
  highest : h'.highestPacketNumber = some pn

section

variable (hok : h.Ok) (hpn : h.Next pn)
include hok hpn

lemma Ok.push (slot : Option Packet) (hslot : h.packets = [] → slot ≠ none)
    (hpackets : h'.packets = h.packets ++ [slot]) (hhighest : h'.highestPacketNumber = some pn)
    (hfirst : h'.firstPacketNumber = if h.packets.isEmpty then some pn else h.firstPacketNumber)
    (hcount : h'.numOutstanding = h.numOutstanding + totalBy outstandingOf (slotEntries pn [slot])) :
    h.Extended pn (slotEntries pn [slot]) h' := by
  have hentries : h'.entries = h.entries ++ slotEntries pn [slot] ∧
      ∃ first, h'.firstPacketNumber = some first ∧ first + h'.packets.length = pn + 1 := by
    by_cases hnil : h.packets = []
    · rw [entries, entries, hpackets, hfirst, hnil]
      exact ⟨rfl, pn, rfl, rfl⟩
    · obtain ⟨first, highest, hf, hh, hlen⟩ := hok.window hnil
      have hpn' := hpn highest hh
      have hnext : first + h.packets.length = pn := by omega
      rw [isEmpty_eq_false_iff.mpr hnil] at hfirst
      have hf' : h'.firstPacketNumber = some first := hfirst.trans hf
      refine ⟨?_, first, hf', ?_⟩
      · rw [entries, entries, hpackets, hf', hf, Option.getD_some, slotEntries_append, hnext]
      · rw [hpackets, length_append, length_singleton]
        omega
  obtain ⟨hentries, first, hf, hlen⟩ := hentries
  refine ⟨⟨fun _ => ⟨first, pn, hf, hhighest, hlen⟩, ?_, ?_⟩, hentries, hhighest⟩
  · rw [hpackets]
    cases hcases : h.packets with
    | nil => simpa using hslot hcases
    | cons slot' slots =>
      have hhead := hok.head
      rw [hcases] at hhead
      simpa using hhead
  · rw [hcount, hok.count, hentries, totalBy_append]

lemma Ok.sentPacket (p : Packet) :
    Ends E (fun h' => h.Extended pn [(pn, p)] h' ∧ h'.pathProbePackets = h.pathProbePackets)
      (h.sentPacket pn p) := by
  unfold SentPacketHistory.sentPacket
  rw [checkSequentialPacketNumberUse_eq hpn]
  exact ⟨hok.push hpn (some p) (fun _ => by simp) rfl rfl rfl rfl, rfl⟩

lemma Ok.sentPathProbePacket (p : Packet) :
    Ends E (fun h' => h.Extended pn [(pn, .probePlaceholder)] h' ∧
      h'.pathProbePackets = h.pathProbePackets ++ [(pn, p)]) (h.sentPathProbePacket pn p) := by
  unfold SentPacketHistory.sentPathProbePacket
  rw [checkSequentialPacketNumberUse_eq hpn]
  exact ⟨hok.push hpn (some .probePlaceholder) (fun _ => by simp) rfl rfl rfl rfl, rfl⟩

lemma Ok.skippedPacket :
    Ends E (fun h' => h.Extended pn [] h' ∧ h'.pathProbePackets = h.pathProbePackets)
      (h.skippedPacket pn) := by
  unfold SentPacketHistory.skippedPacket
  rw [checkSequentialPacketNumberUse_eq hpn]
  refine ⟨?_, rfl⟩
  by_cases hnil : h.packets = []
  · have hcount := hok.count
    refine ⟨⟨?_, ?_, ?_⟩, ?_, rfl⟩
    · simp [hnil]
    · simp [hnil]
    · simpa [entries, hnil, slotEntries] using hcount
    · simp [entries, hnil, slotEntries]
  · have hempty : h.packets.isEmpty = false := isEmpty_eq_false_iff.mpr hnil
    exact hok.push hpn none (fun h => absurd h hnil) (by simp [hempty]) rfl rfl rfl

end

/-- The history with some packets gone. -/
structure Without (h : SentPacketHistory) (gone : List ℕ) (h' : SentPacketHistory) : Prop where
  ok : h'.Ok
  entries : h'.entries = h.entries.filter fun e => e.1 ∉ gone
  highest : h'.highestPacketNumber = h.highestPacketNumber
  probes : ∀ e ∈ h'.pathProbePackets, e ∈ h.pathProbePackets

lemma cleanupStart_spec (hwindow : h.packets ≠ [] → ∃ first highest, h.firstPacketNumber = some first ∧
      h.highestPacketNumber = some highest ∧ first + h.packets.length = highest + 1)
    (hcount : h.numOutstanding = totalBy outstandingOf h.entries) :
    h.cleanupStart.Ok ∧ h.cleanupStart.entries = h.entries ∧
      h.cleanupStart.highestPacketNumber = h.highestPacketNumber ∧
      h.cleanupStart.pathProbePackets = h.pathProbePackets := by
  have hdrop := slotEntries_drop_leadingEmpty (h.firstPacketNumber.getD 0) h.packets
  unfold cleanupStart
  dsimp only
  split
  case isTrue hall =>
    rw [hall, drop_length] at hdrop
    exact ⟨⟨fun hne => absurd rfl hne, by simp, hcount.trans (congrArg _ hdrop.symm)⟩, hdrop, rfl, rfl⟩
  case isFalse hsome =>
    have hne : h.packets ≠ [] := by
      intro hnil
      rw [hnil] at hsome
      exact hsome rfl
    obtain ⟨first, highest, hfirst, hhighest, hlen⟩ := hwindow hne
    have hle := leadingEmpty_le h.packets
    have hentries : slotEntries (first + leadingEmpty h.packets)
        (h.packets.drop (leadingEmpty h.packets)) = h.entries := by
      rw [entries, ← hdrop, hfirst, Option.getD_some]
    rw [hfirst, Option.map_some]
    refine ⟨⟨fun _ => ⟨_, highest, rfl, hhighest, ?_⟩, ?_, hcount.trans (congrArg _ hentries.symm)⟩,
      hentries, rfl, rfl⟩
    · rw [length_drop]
      omega
    · intro hhead
      obtain ⟨rest, hrest⟩ := head?_eq_some_iff.mp hhead
      exact drop_leadingEmpty_ne_none _ _ hrest

lemma getIndex_of_mem (he : e ∈ h.entries) :
    ∃ idx, h.getIndex e.1 = some idx ∧ h.packets[idx]? = some (some e.2) ∧
      h.firstPacketNumber.getD 0 + idx = e.1 := by
  have hbounds := slotEntries_bounds he
  refine ⟨e.1 - h.firstPacketNumber.getD 0, ?_, (mem_slotEntries.mp he).2, by omega⟩
  unfold getIndex
  rw [isEmpty_eq_false_iff.mpr (packets_ne_nil he)]
  rw [if_neg (by decide), if_neg (by omega), if_neg (by omega)]

section

variable (hok : h.Ok) (he : e ∈ h.entries)
include hok he

lemma Ok.emptySlot (hslot : h.packets[idx]? = some (some e.2))
    (hidx : h.firstPacketNumber.getD 0 + idx = e.1) :
    Ends E (fun k => h.Without [e.1] k.cleanupStart ∧ (0 < idx → h.Without [e.1] k))
      (h.emptySlot idx) := by
  have hentries : slotEntries (h.firstPacketNumber.getD 0) (h.packets.set idx none) =
      h.entries.filter fun e' => e'.1 ≠ e.1 := by
    rw [slotEntries_set_none, hidx, entries]
  have htotal := totalBy_filter_ne outstandingOf h.entries_pairwise he
  rw [← hok.count, ← hentries] at htotal
  have hempty : ∀ num k, num + outstandingOf e = h.numOutstanding →
      k = { h with packets := h.packets.set idx none, numOutstanding := num } →
      h.Without [e.1] k.cleanupStart ∧ (0 < idx → h.Without [e.1] k) := by
    intro num k hnum hk
    have hwindow := hok.window (packets_ne_nil he)
    rw [← length_set (i := idx) (a := none)] at hwindow
    have hcount : k.numOutstanding = totalBy outstandingOf k.entries := by
      rw [hk]
      exact Nat.add_right_cancel (hnum.trans htotal.symm)
    obtain ⟨hok', hentries', hhighest, hprobes⟩ := cleanupStart_spec (fun _ => hk ▸ hwindow) hcount
    subst hk
    have hgone : h.entries.filter (fun e' => e'.1 ≠ e.1) = h.entries.filter fun e' => e'.1 ∉ [e.1] := by
      simp
    refine ⟨⟨hok', hentries'.trans (hentries.trans hgone), hhighest, fun e he => hprobes ▸ he⟩, ?_⟩
    refine fun hpos => ⟨⟨fun _ => hwindow, ?_, hcount⟩, hentries.trans hgone, rfl, fun _ => id⟩
    rw [head?_eq_getElem?, getElem?_set_ne hpos.ne', ← head?_eq_getElem?]
    exact hok.head
  unfold SentPacketHistory.emptySlot
  rw [hslot]
  dsimp only
  by_cases hout : e.2.outstanding = true
  · have hone : outstandingOf e = 1 := if_pos hout
    rw [if_pos hout, if_neg (by omega)]
    exact hempty _ _ (by omega) rfl
  · have hzero : outstandingOf e = 0 := if_neg hout
    rw [if_neg hout]
    exact hempty _ _ (by omega) rfl

lemma Ok.declareLost : Ends E (h.Without [e.1]) (h.declareLost e.1) := by
  obtain ⟨idx, hindex, hslot, hidx⟩ := getIndex_of_mem he
  unfold SentPacketHistory.declareLost
  rw [hindex]
  refine (hok.emptySlot he hslot hidx).bind ?_
  rintro k ⟨hcut, hlater⟩
  split
  · exact hcut
  · exact hlater (Nat.pos_of_ne_zero ‹_›)

lemma Ok.remove : Ends E (h.Without [e.1]) (h.remove e.1) := by
  obtain ⟨idx, hindex, hslot, hidx⟩ := getIndex_of_mem he
  unfold SentPacketHistory.remove
  rw [hindex]
  refine (hok.emptySlot he hslot hidx).bind ?_
  rintro k ⟨hcut, hlater⟩
  have hwithout : h.Without [e.1]
      (if (k.packets.take idx).any Option.isSome then k else k.cleanupStart) := by
    split
    case isTrue hbefore =>
      refine hlater (Nat.pos_of_ne_zero ?_)
      rintro rfl
      simp at hbefore
    case isFalse => exact hcut
  rw [if_neg hwithout.ok.head]
  exact hwithout

end

lemma firstOutstanding_mem (he : h.firstOutstanding = some e) :
    e ∈ h.entries ∧ e.2.outstanding = true := by
  unfold firstOutstanding at he
  split at he
  · cases he
  · refine ⟨mem_of_find?_eq_some he, ?_⟩
    simpa using find?_some he

end SentPacketHistory

end Iroh.Qng.AckHandler
