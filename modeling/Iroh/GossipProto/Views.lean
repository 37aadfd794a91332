import Iroh.Common.Toggle
import Iroh.GossipProto.Moves

/-!
# The views of HyParView

Reference: `internal/gossipproto/hyparview.go`.

Every call keeps the views well formed, and the neighbor events of a call lead from the active view at
its start to the one at its end (`Tracks`).  A quit empties the active view in silence, so of it only the
first half holds (`Keeps`).
-/

namespace Iroh.GossipProto

def HyparviewOutEvent.toggle : HyparviewOutEvent → Option (Toggle PeerID)
  | .emitEvent (.neighborUp peer) => some (.up peer)
  | .emitEvent (.neighborDown peer) => some (.down peer)
  | _ => none

def neighborEvents (out : List HyparviewOutEvent) : List (Toggle PeerID) :=
  out.filterMap HyparviewOutEvent.toggle

/-- The neighbor events take the active view to what it is now. -/
structure Tracks (s : HyparviewState) (c : HyparviewCall) : Prop extends Keeps s c where
  follows : Follows {p | p ∈ s.active} (neighborEvents c.out) {p | p ∈ c.active}

variable {s : HyparviewState} {ev : HyparviewInEvent} {c c' : HyparviewCall} {asked : Option PeerID}

lemma neighborEvents_of_frame (hframe : c'.frame = c.frame) :
    neighborEvents c'.out = neighborEvents c.out := by
  have hsignals : ∀ out : List HyparviewOutEvent,
      neighborEvents (out.filter HyparviewOutEvent.isSignal) = neighborEvents out := by
    intro out
    rw [neighborEvents, List.filterMap_filter]
    refine List.filterMap_congr fun ev _ => ?_
    cases ev <;> rfl
  obtain ⟨-, -, -, -, -, hout⟩ := HyparviewCall.frame_eq_iff.mp hframe
  rw [← hsignals, hout, hsignals]

lemma neighborEvents_emit (c : HyparviewCall) (ev : HyparviewOutEvent) :
    neighborEvents (c.emit ev).out = neighborEvents c.out ++ ev.toggle.toList := by
  cases h : ev.toggle <;> simp [neighborEvents, HyparviewCall.emit, h]

lemma Shed.follows (hs : s.WellFormed) (hquit : ev ≠ .quit) (h : Shed s ev c) :
    Follows {p | p ∈ s.active} (neighborEvents c.out) {p | p ∈ c.active} := by
  induction h with
  | start => exact .nil
  | quiet _ hframe ih =>
    obtain ⟨-, -, hactive, -⟩ := HyparviewCall.frame_eq_iff.mp hframe
    rwa [neighborEvents_of_frame hframe, hactive]
  | erasePassive _ _ ih | insertPassive _ _ _ _ _ ih | clearPending _ _ ih => exact ih
  | @drop c peer h _ hmem ih =>
    have hset : {p | p ∈ c.active.erase peer} = {p | p ∈ c.active} \ {peer} := by
      ext p
      simp only [(h.keeps hs).views.active_nodup.mem_erase_iff]
      exact and_comm
    rw [neighborEvents_emit, neighborEvents_emit]
    show Follows _ (neighborEvents c.out ++ [.down peer] ++ []) {p | p ∈ c.active.erase peer}
    rw [List.append_nil, hset]
    exact ih.down hmem
  | leave _ h _ => exact absurd h hquit
  | @enter c peer _ _ _ _ hactive _ ih =>
    have hset : {p | p ∈ c.active ++ [peer]} = insert peer {p | p ∈ c.active} := by
      ext p
      simp [or_comm]
    rw [neighborEvents_emit]
    show Follows _ _ {p | p ∈ c.active ++ [peer]}
    rw [hset]
    exact ih.up hactive

lemma Served.tracks (hs : s.WellFormed) (hquit : ev ≠ .quit) (h : Served s ev asked c) :
    Tracks s c := by
  refine ⟨h.keeps hs, ?_⟩
  induction h with
  | shed h | asked h | ask h => exact (h.follows hs hquit :)
  | quiet _ hframe ih =>
    obtain ⟨-, -, hactive, -⟩ := HyparviewCall.frame_eq_iff.mp hframe
    rwa [neighborEvents_of_frame hframe, hactive]
  | request _ _ ih | refuse _ _ ih | shuffle _ _ ih =>
    rw [neighborEvents_emit]
    exact (List.append_nil _).symm ▸ ih

lemma HyparviewCall.mem_keys_forgetStrangers (h : peer ∈ c.forgetStrangers.peerData.keys) :
    peer ∈ c.active ∨ peer ∈ c.passive ∨ peer ∈ c.pendingNeighbor.keys := by
  obtain ⟨data, -, hkept⟩ := GoMap.mem_keys_rangeDelete.mp h
  by_contra hstranger
  simp only [not_or] at hstranger
  simp [hstranger] at hkept

/-! ## Whole runs -/

namespace HyparviewState

/-- **One call announces exactly what it does to the active view**, unless it is a quit. -/
theorem WellFormed.tracks_call (h : s.WellFormed) (hquit : ev ≠ .quit) : Tracks s (s.call ev) :=
  (h.served_call ev).tracks h hquit

theorem WellFormed.keeps_call (h : s.WellFormed) (ev : HyparviewInEvent) : Keeps s (s.call ev) :=
  (h.served_call ev).keeps h

def run (s : HyparviewState) (evs : List HyparviewInEvent) : HyparviewState :=
  evs.foldl (fun s ev => (s.handle ev).1) s

/-- The views are disjoint sets, within their limits. -/
structure ViewInvariant (me : PeerID) (config : HyparviewConfig) (s : HyparviewState) : Prop where
  active_nodup : s.active.Nodup
  passive_nodup : s.passive.Nodup
  disjoint : ∀ p ∈ s.active, p ∉ s.passive
  me_not_active : me ∉ s.active
  me_not_passive : me ∉ s.passive
  active_le : (s.active.length : ℤ) ≤ config.activeViewCapacity
  passive_le : (s.passive.length : ℤ) ≤ config.passiveViewCapacity
  peerData_known : ∀ p ∈ s.peerData.keys, p ∈ s.active ∨ p ∈ s.passive ∨ p ∈ s.pendingNeighbor.keys

lemma run_keeps (h : s.WellFormed)
    (hdata : ∀ p ∈ s.peerData.keys, p ∈ s.active ∨ p ∈ s.passive ∨ p ∈ s.pendingNeighbor.keys)
    (evs : List HyparviewInEvent) :
    (s.run evs).me = s.me ∧ (s.run evs).config = s.config ∧ (s.run evs).WellFormed ∧
      ∀ p ∈ (s.run evs).peerData.keys,
        p ∈ (s.run evs).active ∨ p ∈ (s.run evs).passive ∨ p ∈ (s.run evs).pendingNeighbor.keys := by
  induction evs generalizing s with
  | nil => exact ⟨rfl, rfl, h, hdata⟩
  | cons ev evs ih =>
    have hk := h.keeps_call ev
    obtain ⟨hme, hconfig, hrun⟩ := ih (s := (s.handle ev).1) hk.views
      fun p => HyparviewCall.mem_keys_forgetStrangers
    exact ⟨hme.trans hk.me_eq, hconfig.trans hk.config_eq, hrun⟩

lemma wellFormed_newHyparviewState (me : PeerID) (data : Option PeerData)
    (config : HyparviewConfig) (rand : Rand) : (newHyparviewState me data config rand).WellFormed where
  active_nodup := List.nodup_nil
  passive_nodup := List.nodup_nil
  disjoint := by simp [newHyparviewState]
  me_not_active := by simp [newHyparviewState]
  me_not_passive := by simp [newHyparviewState]
  active_le := by simp [newHyparviewState]
  passive_le := by simp [newHyparviewState]

/-- **The views stay well formed after every call**, whatever the inputs and the random choices. -/
theorem run_viewInvariant (me : PeerID) (data : Option PeerData) (config : HyparviewConfig)
    (rand : Rand) (evs : List HyparviewInEvent)
    (hactive : 1 ≤ (newHyparviewState me data config rand).config.activeViewCapacity)
    (hpassive : 1 ≤ (newHyparviewState me data config rand).config.passiveViewCapacity) :
    ViewInvariant me (newHyparviewState me data config rand).config
      ((newHyparviewState me data config rand).run evs) := by
  obtain ⟨hme, hconfig, hviews, hdata⟩ := run_keeps
    (wellFormed_newHyparviewState me data config rand) (by simp [newHyparviewState]) evs
  rw [WellFormed, hconfig, show _ = me from hme] at hviews
  refine { hviews with active_le := ?_, passive_le := ?_, peerData_known := hdata }
  · simpa only [max_eq_right hactive] using hviews.active_le
  · simpa only [max_eq_right hpassive] using hviews.passive_le

/-- In a node with room for one peer in each view, the second to join sends the first to the passive
view; a join that claims to be from the node itself changes nothing. -/
theorem run_viewInvariant_two_joins :
    let me : PeerID := .replicate 32 0
    let a : PeerID := .replicate 32 1
    let b : PeerID := .replicate 32 2
    let s := newHyparviewState me none ⟨1, 1, 6, 3, 6, 3, 4, 60, 5⟩ ⟨fun _ => 0, 0⟩
    let evs : List HyparviewInEvent := [.recvMessage a (.join (some [7])), .recvMessage b (.join none),
      .recvMessage me (.join (some [8]))]
    (1 ≤ s.config.activeViewCapacity ∧ 1 ≤ s.config.passiveViewCapacity) ∧
      ((s.run evs).active = [b] ∧ (s.run evs).passive = [a] ∧ (s.run evs).peerData.keys = [a]) ∧
      ViewInvariant me s.config (s.run evs) :=
  ⟨by decide, by decide, run_viewInvariant _ _ _ _ _ (by decide) (by decide)⟩

end HyparviewState

end Iroh.GossipProto
