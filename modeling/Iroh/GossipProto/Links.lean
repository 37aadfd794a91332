import Iroh.GossipProto.Views

/-!
# The connections of a HyParView call

Reference: `internal/gossipproto/hyparview.go`.

A call sheds active peers, each with a `disconnectPeer`, and takes in at most the sender of a message
(`Serves`): after it no peer is active that the caller was told to disconnect.
-/

namespace Iroh.GossipProto

open List

/-- A peer enters as the sender, and one that leaves is disconnected. -/
structure Serves (s : HyparviewState) (sender : Option PeerID) (c : HyparviewCall) : Prop where
  entered : ∀ p ∈ c.active, p ∈ s.active ∨ sender = some p
  closed : ∀ p, .disconnectPeer p ∈ c.out → p ∉ c.active
  left : ∀ p ∈ s.active, p ∉ c.active → .disconnectPeer p ∈ c.out

variable {s : HyparviewState} {ev : HyparviewInEvent} {sender asked : Option PeerID}
  {c c' : HyparviewCall} {peer : PeerID}

lemma mem_out_of_frame (hframe : c'.frame = c.frame) (out : HyparviewOutEvent)
    (hout : out.isSignal = true) : out ∈ c'.out ↔ out ∈ c.out := by
  obtain ⟨-, -, -, -, -, hsignals⟩ := HyparviewCall.frame_eq_iff.mp hframe
  have hmem := congrArg (out ∈ ·) hsignals
  simpa [hout] using hmem

lemma Serves.same (h : Serves s sender c) (hactive : c'.active = c.active)
    (hout : ∀ p, .disconnectPeer p ∈ c'.out ↔ .disconnectPeer p ∈ c.out) : Serves s sender c' where
  entered p hp := h.entered p (hactive ▸ hp)
  closed p hp := hactive ▸ h.closed p ((hout p).mp hp)
  left p hp hnot := (hout p).mpr (h.left p hp (hactive ▸ hnot))

lemma Serves.erase (h : Serves s sender c) (hnodup : c.active.Nodup)
    (hactive : c'.active = c.active.erase peer)
    (hout : ∀ p, .disconnectPeer p ∈ c'.out ↔ .disconnectPeer p ∈ c.out ∨ p = peer) :
    Serves s sender c' where
  entered p hp := h.entered p (List.mem_of_mem_erase (hactive ▸ hp))
  closed p hp := by
    rw [hactive, hnodup.mem_erase_iff, not_and_or, not_not]
    exact ((hout p).mp hp).symm.imp_right (h.closed p)
  left p hp hnot := by
    rw [hactive, hnodup.mem_erase_iff, not_and_or, not_not] at hnot
    exact (hout p).mpr (hnot.symm.imp_left (h.left p hp))

lemma Shed.serves (hs : s.WellFormed) (h : Shed s ev c) :
    Serves s ev.sender c ∧ ∀ p, .disconnectPeer p ∈ c.out → p ∈ s.active := by
  induction h with
  | start =>
    refine ⟨⟨fun p hp => .inl hp, ?_, fun p hp hnot => absurd hp hnot⟩, ?_⟩ <;>
      exact fun p hp => absurd hp not_mem_nil
  | quiet _ hframe ih =>
    obtain ⟨-, -, hactive, -⟩ := HyparviewCall.frame_eq_iff.mp hframe
    have hout := fun p => mem_out_of_frame hframe (.disconnectPeer p) rfl
    exact ⟨ih.1.same hactive hout, fun p hp => ih.2 p ((hout p).mp hp)⟩
  | erasePassive _ _ ih | insertPassive _ _ _ _ _ ih | clearPending _ _ ih =>
    exact ⟨ih.1.same rfl fun _ => .rfl, ih.2⟩
  | @drop c peer h hold _ ih | @leave c peer h _ hold ih =>
    refine ⟨ih.1.erase (h.keeps hs).views.active_nodup rfl fun p => ?_, fun p hp => ?_⟩
    · simp [HyparviewCall.emit]
    · have hp : .disconnectPeer p ∈ c.out ∨ p = peer := by simpa [HyparviewCall.emit] using hp
      exact hp.elim (ih.2 p) fun heq => heq ▸ hold
  | @enter c peer h hsender _ hnew _ _ ih =>
    have hout : ∀ p, .disconnectPeer p ∈ (c.emit (.emitEvent (.neighborUp peer))).out ↔
        .disconnectPeer p ∈ c.out := by
      simp [HyparviewCall.emit]
    refine ⟨⟨fun p hp => ?_, fun p hp hmem => ?_, fun p hp hnot => ?_⟩, fun p hp => ih.2 p ((hout p).mp hp)⟩
    · rcases mem_append.mp hp with hp | hp
      · exact ih.1.entered p hp
      · exact .inr (mem_singleton.mp hp ▸ hsender)
    · -- who was told to disconnect had been active, so it is not the peer that enters
      rcases mem_append.mp hmem with hmem | hmem
      · exact ih.1.closed p ((hout p).mp hp) hmem
      · exact hnew (mem_singleton.mp hmem ▸ ih.2 p ((hout p).mp hp))
    · exact (hout p).mpr (ih.1.left p hp fun hmem => hnot (mem_append_left _ hmem))

lemma Served.serves (hs : s.WellFormed) (h : Served s ev asked c) : Serves s ev.sender c := by
  induction h with
  | shed h | asked h => exact (h.serves hs).1
  | ask h => exact (h.serves hs).1.same rfl fun _ => .rfl
  | quiet _ hframe ih =>
    obtain ⟨-, -, hactive, -⟩ := HyparviewCall.frame_eq_iff.mp hframe
    exact ih.same hactive fun p => mem_out_of_frame hframe (.disconnectPeer p) rfl
  | request _ _ ih | shuffle _ _ ih => exact ih.same rfl fun p => by simp [HyparviewCall.emit]
  | refuse _ hpeer ih =>
    refine ⟨ih.entered, fun p hp => ?_, fun p hp hnot => mem_append_left _ (ih.left p hp hnot)⟩
    rcases mem_append.mp hp with hp | hp
    · exact ih.closed p hp
    · obtain rfl := HyparviewOutEvent.disconnectPeer.inj (mem_singleton.mp hp)
      exact hpeer

namespace HyparviewState

theorem WellFormed.serves_call (h : s.WellFormed) (ev : HyparviewInEvent) :
    Serves s ev.sender (s.call ev) :=
  (h.served_call ev).serves h

lemma WellFormed.call_quit (h : s.WellFormed) :
    (s.call .quit).active = [] ∧ ∀ p, .disconnectPeer p ∈ (s.call .quit).out ↔ p ∈ s.active := by
  obtain ⟨hshed, hactive⟩ := HyparviewCall.shed_handleQuit s
  have hend : (s.call .quit).active = (HyparviewCall.mk s []).handleQuit.active ∧ ∀ p,
      .disconnectPeer p ∈ (s.call .quit).out ↔
        .disconnectPeer p ∈ (HyparviewCall.mk s []).handleQuit.out := by
    unfold call HyparviewCall.forgetStrangers HyparviewCall.scheduleShuffle
    split
    · exact ⟨rfl, fun _ => .rfl⟩
    · exact ⟨rfl, fun p => by simp [HyparviewCall.emit, HyparviewCall.handleEvent]⟩
  refine ⟨hend.1.trans hactive, fun p => (hend.2 p).trans ⟨(hshed.serves h).2 p, fun hp => ?_⟩⟩
  exact (hshed.serves h).1.left p hp (hactive ▸ not_mem_nil)

end HyparviewState

end Iroh.GossipProto
