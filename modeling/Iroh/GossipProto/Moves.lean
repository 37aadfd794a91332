import Iroh.GossipProto.Hyparview
import Mathlib.Tactic.Linarith

/-!
# The moves of a HyParView call

Reference: `internal/gossipproto/hyparview.go`.

Most of a handler only sends messages and remembers peer data: it leaves the views, the pending requests and
the other outputs, the *signals*, as they were.  The rest is a few moves.  Peers go into and out of the
passive view, leave the active view with a notice to the caller, and the sender of a message may enter it
(`Shed`); then at most one peer is asked to become a neighbor, and the call closes (`Served`).
-/

namespace Iroh.GossipProto

open List

/-! ## Well-formed views -/

/-- The views are disjoint sets, within their capacities. -/
structure Views (me : PeerID) (config : HyparviewConfig) (active passive : List PeerID) : Prop where
  active_nodup : active.Nodup
  passive_nodup : passive.Nodup
  disjoint : ∀ p ∈ active, p ∉ passive
  me_not_active : me ∉ active
  me_not_passive : me ∉ passive
  active_le : (active.length : ℤ) ≤ max 1 config.activeViewCapacity
  passive_le : (passive.length : ℤ) ≤ max 1 config.passiveViewCapacity

def HyparviewState.WellFormed (s : HyparviewState) : Prop := Views s.me s.config s.active s.passive

section Moves

variable {me : PeerID} {config : HyparviewConfig} {active passive : List PeerID} {peer : PeerID}

variable (h : Views me config active passive)
include h

lemma Views.erase_passive (peer : PeerID) : Views me config active (passive.erase peer) where
  __ := h
  passive_nodup := h.passive_nodup.erase peer
  disjoint p hp hmem := h.disjoint p hp (List.mem_of_mem_erase hmem)
  me_not_passive hmem := h.me_not_passive (List.mem_of_mem_erase hmem)
  passive_le := by
    have := length_erase_le (a := peer) (l := passive)
    have := h.passive_le
    omega

lemma Views.erase_active (peer : PeerID) : Views me config (active.erase peer) passive where
  __ := h
  active_nodup := h.active_nodup.erase peer
  disjoint p hp := h.disjoint p (List.mem_of_mem_erase hp)
  me_not_active hmem := h.me_not_active (List.mem_of_mem_erase hmem)
  active_le := by
    have := length_erase_le (a := peer) (l := active)
    have := h.active_le
    omega

lemma Views.insert_passive (hme : peer ≠ me) (ha : peer ∉ active) (hp : peer ∉ passive)
    (hroom : (passive.length : ℤ) < max 1 config.passiveViewCapacity) :
    Views me config active (PeerList.insert passive peer) := by
  rw [PeerList.insert, if_neg hp]
  refine ⟨h.active_nodup, ?_, ?_, h.me_not_active, ?_, h.active_le, ?_⟩
  · exact nodup_append'.mpr ⟨h.passive_nodup, nodup_singleton peer, by simpa using hp⟩
  · intro p hpa hmem
    rcases mem_append.mp hmem with hmem | hmem
    · exact h.disjoint p hpa hmem
    · exact ha (mem_singleton.mp hmem ▸ hpa)
  · simpa [h.me_not_passive] using hme.symm
  · rw [length_append, length_singleton]
    omega

lemma Views.insert_active (hme : peer ≠ me) (ha : peer ∉ active) (hp : peer ∉ passive)
    (hroom : (active.length : ℤ) < max 1 config.activeViewCapacity) :
    Views me config (active ++ [peer]) passive := by
  refine ⟨?_, h.passive_nodup, ?_, ?_, h.me_not_passive, ?_, h.passive_le⟩
  · exact nodup_append'.mpr ⟨h.active_nodup, nodup_singleton peer, by simpa using ha⟩
  · intro p hmem
    rcases mem_append.mp hmem with hmem | hmem
    · exact h.disjoint p hmem
    · rwa [mem_singleton.mp hmem]
  · simpa [h.me_not_active] using hme.symm
  · rw [length_append, length_singleton]
    omega

end Moves

/-! ## The moves -/

def HyparviewOutEvent.isSignal : HyparviewOutEvent → Bool
  | .sendMessage _ _ => false
  | .peerData _ _ => false
  | _ => true

def HyparviewCall.frame (c : HyparviewCall) :
    PeerID × HyparviewConfig × List PeerID × List PeerID × GoSet PeerID × List HyparviewOutEvent :=
  (c.me, c.config, c.active, c.passive, c.pendingNeighbor, c.out.filter HyparviewOutEvent.isSignal)

def HyparviewInEvent.sender : HyparviewInEvent → Option PeerID
  | .recvMessage sender _ => some sender
  | _ => none

/-- The calls that start at `s`, while they move peers: out of the active view, each with a notice, and into
and out of the passive view and the pending requests. -/
inductive Shed (s : HyparviewState) (ev : HyparviewInEvent) : HyparviewCall → Prop where
  | start : Shed s ev (HyparviewCall.mk s [])
  | quiet {c c' : HyparviewCall} (h : Shed s ev c) (hframe : c'.frame = c.frame) : Shed s ev c'
  | erasePassive {c : HyparviewCall} (h : Shed s ev c) (peer : PeerID) :
      Shed s ev { c with passive := c.passive.erase peer }
  | insertPassive {c : HyparviewCall} {peer : PeerID} (h : Shed s ev c) (hme : peer ≠ c.me)
      (hactive : peer ∉ c.active) (hpassive : peer ∉ c.passive)
      (hroom : (c.passive.length : ℤ) < max 1 c.config.passiveViewCapacity) :
      Shed s ev { c with passive := PeerList.insert c.passive peer }
  | clearPending {c : HyparviewCall} (h : Shed s ev c) (peer : PeerID) : Shed s ev (c.clearPending peer)
  | drop {c : HyparviewCall} {peer : PeerID} (h : Shed s ev c) (hold : peer ∈ s.active)
      (hmem : peer ∈ c.active) : Shed s ev (({ c with active := c.active.erase peer }.emit
        (.emitEvent (.neighborDown peer))).emit (.disconnectPeer peer))
  | leave {c : HyparviewCall} {peer : PeerID} (h : Shed s ev c) (hquit : ev = .quit)
      (hold : peer ∈ s.active) :
      Shed s ev ({ c with active := c.active.erase peer }.emit (.disconnectPeer peer))
  | enter {c : HyparviewCall} {peer : PeerID} (h : Shed s ev c) (hsender : ev.sender = some peer)
      (hme : peer ≠ c.me) (hnew : peer ∉ s.active) (hactive : peer ∉ c.active)
      (hroom : (c.active.length : ℤ) < max 1 c.config.activeViewCapacity) :
      Shed s ev ({ c with passive := c.passive.erase peer, active := c.active ++ [peer] }.emit
        (.emitEvent (.neighborUp peer)))

/-- The calls that start at `s`, when they have moved peers: they ask one peer at most. -/
inductive Served (s : HyparviewState) (ev : HyparviewInEvent) :
    Option PeerID → HyparviewCall → Prop where
  | shed {c : HyparviewCall} (h : Shed s ev c) : Served s ev none c
  | asked {c : HyparviewCall} {peer : PeerID} (h : Shed s ev c)
      (hpending : peer ∈ c.pendingNeighbor.keys) : Served s ev (some peer) c
  | ask {c : HyparviewCall} (h : Shed s ev c) (peer : PeerID) :
      Served s ev (some peer) { c with pendingNeighbor := c.pendingNeighbor.set peer () }
  | request {c : HyparviewCall} {peer : PeerID} (h : Served s ev (some peer) c) (after : Duration) :
      Served s ev none (c.emit (.scheduleTimer after (.pendingNeighborRequest peer)))
  | quiet {asked : Option PeerID} {c c' : HyparviewCall} (h : Served s ev asked c)
      (hframe : c'.frame = c.frame) : Served s ev asked c'
  | refuse {asked : Option PeerID} {c : HyparviewCall} {peer : PeerID} (h : Served s ev asked c)
      (hpeer : peer ∉ c.active) : Served s ev asked (c.emit (.disconnectPeer peer))
  | shuffle {asked : Option PeerID} {c : HyparviewCall} (h : Served s ev asked c) (after : Duration) :
      Served s ev asked (c.emit (.scheduleTimer after .doShuffle))

/-- A call keeps the views well formed. -/
structure Keeps (s : HyparviewState) (c : HyparviewCall) : Prop where
  me_eq : c.me = s.me
  config_eq : c.config = s.config
  views : Views c.me c.config c.active c.passive

variable {s : HyparviewState} {ev : HyparviewInEvent} {c c' : HyparviewCall} {asked : Option PeerID}

lemma HyparviewCall.frame_eq_iff : c'.frame = c.frame ↔ c'.me = c.me ∧ c'.config = c.config ∧
    c'.active = c.active ∧ c'.passive = c.passive ∧ c'.pendingNeighbor = c.pendingNeighbor ∧
      c'.out.filter HyparviewOutEvent.isSignal = c.out.filter HyparviewOutEvent.isSignal := by
  simp [frame]

lemma Keeps.same (h : Keeps s c) (hframe : c'.frame = c.frame) : Keeps s c' := by
  obtain ⟨hme, hconfig, hviews⟩ := h
  obtain ⟨hme', hconfig', hactive, hpassive, -⟩ := HyparviewCall.frame_eq_iff.mp hframe
  rw [← hme', ← hconfig', ← hactive, ← hpassive] at hviews
  exact ⟨hme'.trans hme, hconfig'.trans hconfig, hviews⟩

lemma Shed.keeps (hs : s.WellFormed) (h : Shed s ev c) : Keeps s c := by
  induction h with
  | start => exact ⟨rfl, rfl, hs⟩
  | quiet _ hframe ih => exact ih.same hframe
  | erasePassive _ peer ih => exact { ih with views := ih.views.erase_passive peer }
  | insertPassive _ hme hactive hpassive hroom ih =>
    exact { ih with views := ih.views.insert_passive hme hactive hpassive hroom }
  | clearPending _ _ ih => exact { ih with }
  | drop _ _ _ ih | leave _ _ _ ih => exact { ih with views := ih.views.erase_active _ }
  | enter _ _ hme _ hactive hroom ih =>
    refine { ih with views := (ih.views.erase_passive _).insert_active hme hactive ?_ hroom }
    exact ih.views.passive_nodup.not_mem_erase

lemma Served.keeps (hs : s.WellFormed) (h : Served s ev asked c) : Keeps s c := by
  induction h with
  | shed h | asked h => exact h.keeps hs
  | ask h =>
    have hkeeps := h.keeps hs
    exact { hkeeps with }
  | quiet _ hframe ih => exact ih.same hframe
  | request _ _ ih | refuse _ _ ih | shuffle _ _ ih => exact { ih with }

/-! ## What moves no peer -/

lemma PeerList.random_spec (l : List PeerID) (r : Rand) :
    (∃ peer ∈ l, (PeerList.random l r).1 = some peer) ∨ l = [] ∧ (PeerList.random l r).1 = none := by
  cases l with
  | nil => exact .inr ⟨rfl, rfl⟩
  | cons a l =>
    left
    have hlt : (r.intn (a :: l).length).1 < (a :: l).length := Nat.mod_lt _ (by simp)
    exact ⟨_, getElem_mem hlt, getElem?_eq_getElem hlt⟩

namespace HyparviewCall

lemma frame_emit (c : HyparviewCall) {out : HyparviewOutEvent} (h : out.isSignal = false) :
    (c.emit out).frame = c.frame := by
  simp [frame, emit, h]

lemma frame_insertPeerInfo (c : HyparviewCall) (info : PeerInfo) :
    (c.insertPeerInfo info).frame = c.frame := by
  unfold insertPeerInfo
  split
  · rfl
  · split
    · exact c.frame_emit rfl
    · rfl

lemma frame_sendDisconnect (c : HyparviewCall) (peer : PeerID) (alive : Bool) :
    (c.sendDisconnect peer alive).frame = (c.emit (.disconnectPeer peer)).frame := by
  simp [sendDisconnect, sendShuffleReply, frame, emit, HyparviewOutEvent.isSignal]

lemma frame_forwardWalk (c : HyparviewCall) (skip : List PeerID) (message : HyparviewMessage) :
    (c.forwardWalk skip message).frame = c.frame := by
  unfold forwardWalk
  dsimp only
  split
  · exact c.frame_emit rfl
  · rfl

/-! ## What moves peers -/

section

variable (hs : s.WellFormed)
include hs

lemma shed_evictPassive (h : Shed s ev c) :
    Shed s ev c.evictPassive ∧ c.evictPassive.me = c.me ∧ c.evictPassive.active = c.active ∧
      (∀ p ∈ c.evictPassive.passive, p ∈ c.passive) ∧
      (c.evictPassive.passive.length : ℤ) < max 1 c.evictPassive.config.passiveViewCapacity := by
  have hle := (h.keeps hs).views.passive_le
  unfold evictPassive
  split
  · dsimp only
    have hrand : Shed s ev { c with rand := (PeerList.random c.passive c.rand).2 } := h.quiet rfl
    rcases PeerList.random_spec c.passive c.rand with ⟨old, hold, hq⟩ | ⟨hnil, hq⟩
    · rw [hq]
      refine ⟨hrand.erasePassive old, rfl, rfl, fun p => mem_of_mem_erase, ?_⟩
      have := length_erase_of_mem hold
      dsimp only
      omega
    · rw [hq]
      refine ⟨hrand, rfl, rfl, fun p hp => hp, ?_⟩
      simp only [hnil, length_nil]
      omega
  · exact ⟨h, rfl, rfl, fun p hp => hp, by omega⟩

lemma shed_addPassive (h : Shed s ev c) (peer : PeerID) (data : Option PeerData) :
    Shed s ev (c.addPassive peer data) ∧ (c.addPassive peer data).active = c.active := by
  have hinfo := c.frame_insertPeerInfo ⟨peer, data⟩
  obtain ⟨-, -, hactive, -⟩ := frame_eq_iff.mp hinfo
  unfold addPassive
  dsimp only
  split
  · exact ⟨h.quiet hinfo, hactive⟩
  next hnew =>
    rw [not_or, not_or] at hnew
    obtain ⟨hevict, hme, hactive', hsub, hroom⟩ := shed_evictPassive hs (h.quiet hinfo)
    refine ⟨hevict.insertPassive (hme ▸ hnew.1) (hactive' ▸ hnew.2.1) ?_ hroom, hactive'.trans hactive⟩
    exact fun hmem => hnew.2.2 (hsub _ hmem)

lemma shed_addPassiveAll (h : Shed s ev c) (nodes : List PeerInfo) :
    Shed s ev (c.addPassiveAll nodes) := by
  apply foldlRecOn (motive := Shed s ev) nodes _ h
  intro c' h' node _
  exact (shed_addPassive hs h' node.id node.data).1

lemma shed_keepInPassive (h : Shed s ev c) (peer : PeerID) (reason : RemovalReason) :
    Shed s ev (c.keepInPassive peer reason) ∧ (c.keepInPassive peer reason).active = c.active := by
  have hdata : Shed s ev { c with peerData := c.peerData.delete peer } := h.quiet rfl
  obtain ⟨hadd, hactive⟩ := shed_addPassive hs hdata peer (c.peerData.get? peer)
  unfold keepInPassive
  split
  · exact ⟨hadd, hactive⟩
  · exact ⟨hadd.quiet rfl, hactive⟩

lemma shed_afterRemoval (h : Shed s ev (c.emit (.disconnectPeer peer)))
    (reason : RemovalReason) (alive : Bool) : Shed s ev (c.afterRemoval peer reason alive false) ∧
      (c.afterRemoval peer reason alive false).active = c.active := by
  -- the notice to the peer and the account of live disconnects do not touch the views
  have hkeep : ∀ c₁ : HyparviewCall, c₁.frame = (c.emit (.disconnectPeer peer)).frame → ∀ keep : Bool,
      Shed s ev (if keep then c₁.keepInPassive peer reason else c₁) ∧
        (if keep then c₁.keepInPassive peer reason else c₁).active = c.active := by
    intro c₁ hframe keep
    obtain ⟨-, -, hactive, -⟩ := frame_eq_iff.mp hframe
    cases keep with
    | false => exact ⟨h.quiet hframe, hactive⟩
    | true =>
      obtain ⟨hshed, hsame⟩ := shed_keepInPassive hs (h.quiet hframe) peer reason
      exact ⟨hshed, hsame.trans hactive⟩
  cases reason with
  | connectionClosed | disconnectReceived => exact hkeep _ (by rfl) _
  | random => exact hkeep _ (c.frame_sendDisconnect peer true) true

lemma shed_removeActive (h : Shed s ev c) (hold : peer ∈ s.active)
    (reason : RemovalReason) (alive : Bool) : Shed s ev (c.removeActive peer reason alive false) ∧
      (c.removeActive peer reason alive false).active = c.active.erase peer := by
  unfold removeActive
  split
  next hmem => exact ⟨h, (erase_of_not_mem hmem).symm⟩
  next hmem =>
    exact shed_afterRemoval hs ((h.clearPending peer).drop hold (not_not.mp hmem)) reason alive

lemma shed_evictActive (h : Shed s ev c) (hactive : c.active = s.active) :
    Shed s ev c.evictActive ∧ (∀ p ∈ c.evictActive.active, p ∈ c.active) ∧
      (c.evictActive.active.length : ℤ) < max 1 c.evictActive.config.activeViewCapacity := by
  have hkeeps := h.keeps hs
  have hle := hkeeps.views.active_le
  unfold evictActive
  split
  · dsimp only
    have hrand : Shed s ev { c with rand := (PeerList.random c.active c.rand).2 } := h.quiet rfl
    rcases PeerList.random_spec c.active c.rand with ⟨old, hold, hq⟩ | ⟨hnil, hq⟩
    · rw [hq]
      obtain ⟨hshed, hleft⟩ := shed_removeActive hs hrand (hactive ▸ hold) .random false
      refine ⟨hshed, fun p hp => mem_of_mem_erase (hleft ▸ hp), ?_⟩
      rw [(hshed.keeps hs).config_eq, ← hkeeps.config_eq, hleft]
      have := length_erase_of_mem hold
      dsimp only
      omega
    · rw [hq]
      refine ⟨hrand, fun p hp => hp, ?_⟩
      simp only [hnil, length_nil]
      omega
  · exact ⟨h, fun p hp => hp, by omega⟩

end

/-! ## Asking -/

lemma served_sendNeighbor (h : Shed s ev c) (peer : PeerID) (priority : Priority) :
    Served s ev (some peer) (c.sendNeighbor peer priority) := by
  unfold sendNeighbor
  split
  next hpending => exact .asked h (GoMap.contains_iff.mp hpending)
  · exact (Served.ask h peer).quiet (frame_emit _ rfl)

lemma served_refillActiveFromPassive (h : Shed s ev c) (skip : List PeerID) :
    Served s ev none (c.refillActiveFromPassive skip) := by
  unfold refillActiveFromPassive
  split
  · exact .shed h
  · dsimp only
    split
    · exact .shed (h.quiet rfl)
    · exact (served_sendNeighbor (h.quiet (by rfl)) _ _).request _

lemma active_refillActiveFromPassive (c : HyparviewCall) (skip : List PeerID) :
    (c.refillActiveFromPassive skip).active = c.active := by
  unfold refillActiveFromPassive sendNeighbor
  split
  · rfl
  · dsimp only
    split
    · rfl
    · split <;> rfl

lemma served_removeActive (hs : s.WellFormed) (h : Shed s ev c)
    (hold : peer ∈ s.active) (reason : RemovalReason) (alive : Bool) :
    Served s ev none (c.removeActive peer reason alive true) ∧
      (c.removeActive peer reason alive true).active = c.active.erase peer := by
  obtain ⟨hremove, hactive⟩ := shed_removeActive hs h hold reason alive
  unfold removeActive at hremove hactive ⊢
  split
  next hmem => exact ⟨.shed h, (erase_of_not_mem hmem).symm⟩
  next hmem =>
    rw [if_neg hmem] at hremove hactive
    exact ⟨served_refillActiveFromPassive hremove [peer],
      (active_refillActiveFromPassive _ [peer]).trans hactive⟩

def Accepts (c : HyparviewCall) (peer : PeerID) (priority : Priority) : Prop :=
  peer ≠ c.me ∧
    (peer ∈ c.active ∨ ¬(priority = .low ∧ c.active.length ≥ c.config.activeViewCapacity))

lemma addActive_of_accepts (hs : s.WellFormed) (h : Shed s ev c) (hactive : c.active = s.active)
    (hsender : ev.sender = some peer)
    (haccepts : c.Accepts peer priority) (data : Option PeerData) (reply : Bool) :
    ∃ c', Shed s ev c' ∧ c.addActive peer data priority reply =
      (true, if reply then c'.sendNeighbor peer priority else c') := by
  have hinfo := c.frame_insertPeerInfo ⟨peer, data⟩
  obtain ⟨hme', hconfig', hactive', -⟩ := frame_eq_iff.mp hinfo
  unfold addActive
  rw [if_neg haccepts.1]
  dsimp only
  rw [hactive', hconfig']
  split
  · exact ⟨_, h.quiet hinfo, rfl⟩
  next hnew =>
    rw [if_neg (haccepts.2.resolve_left hnew)]
    obtain ⟨hevict, hsub, hroom⟩ := shed_evictActive hs (h.quiet hinfo) (hactive'.trans hactive)
    have hnew' : peer ∉ (c.insertPeerInfo ⟨peer, data⟩).evictActive.active :=
      fun hmem => hnew (hactive' ▸ hsub peer hmem)
    have hme : peer ≠ (c.insertPeerInfo ⟨peer, data⟩).evictActive.me := by
      rw [(hevict.keeps hs).me_eq, ← (h.keeps hs).me_eq]
      exact haccepts.1
    unfold enterActive
    rw [if_neg hnew']
    exact ⟨_, hevict.enter hsender hme (hactive ▸ hnew) hnew' hroom, rfl⟩

lemma addActive_of_not_accepts
    (hrefuses : ¬c.Accepts peer priority) (data : Option PeerData) (reply : Bool) :
    ∃ c', c'.frame = c.frame ∧ c.addActive peer data priority reply = (false, c') := by
  have hinfo := c.frame_insertPeerInfo ⟨peer, data⟩
  obtain ⟨-, hconfig, hactive, -⟩ := frame_eq_iff.mp hinfo
  unfold addActive
  split
  · exact ⟨c, rfl, rfl⟩
  next hme =>
    have hnot := not_or.mp fun h => hrefuses ⟨hme, h⟩
    dsimp only
    rw [hactive, hconfig, if_neg hnot.1, if_pos (not_not.mp hnot.2)]
    exact ⟨_, hinfo, rfl⟩

end HyparviewCall

/-! ## Handlers -/

/-- The peer that a call asks without a timer. -/
def HyparviewState.asks (s : HyparviewState) : HyparviewInEvent → Option PeerID
  | .recvMessage sender (.join _) => if sender = s.me then none else some sender
  | .recvMessage _ (.forwardJoin message) =>
    if message.peer.id ∈ s.active ∨ message.ttl = 0 ∨ s.active.length ≤ 1 then some message.peer.id
    else none
  | .recvMessage sender (.neighbor message) =>
    if sender ≠ s.me ∧ sender ∉ s.pendingNeighbor.keys ∧ (sender ∈ s.active ∨
        ¬(message.priority = .low ∧ s.active.length ≥ s.config.activeViewCapacity)) then some sender
    else none
  | _ => none

namespace HyparviewCall

variable {sender : PeerID}

section

variable (hs : s.WellFormed) (hframe : c.frame = (HyparviewCall.mk s []).frame)
include hs hframe

lemma served_onJoin (hsender : ev.sender = some sender) (data : Option PeerData) :
    Served s ev (if sender = s.me then none else some sender) (c.onJoin sender data) := by
  obtain ⟨hme, -, hactive, -⟩ := frame_eq_iff.mp hframe
  have hclear : Shed s ev (c.clearPending sender) := (Shed.start.quiet hframe).clearPending sender
  have hadd : Served s ev (if sender = s.me then none else some sender)
      ((c.clearPending sender).addActive sender data .high true).2 := by
    split
    next heq =>
      have hrefuses : ¬(c.clearPending sender).Accepts sender .high := fun h => h.1 (heq.trans hme.symm)
      obtain ⟨c', hframe', heq'⟩ := addActive_of_not_accepts hrefuses data true
      rw [heq']
      exact .shed (hclear.quiet hframe')
    next hne =>
      have haccepts : (c.clearPending sender).Accepts sender .high :=
        ⟨fun heq => hne (heq.trans hme), .inr nofun⟩
      obtain ⟨c', hshed, heq'⟩ := addActive_of_accepts hs hclear hactive hsender haccepts data true
      rw [heq']
      exact served_sendNeighbor hshed sender .high
  apply foldlRecOn (motive := Served s ev _) _ _ hadd
  intro c' h' node _
  exact h'.quiet (c'.frame_emit rfl)

lemma served_onForwardJoin (message : ForwardJoin) :
    Served s ev (if message.peer.id ∈ s.active ∨ message.ttl = 0 ∨ s.active.length ≤ 1 then
      some message.peer.id else none) (c.onForwardJoin sender message) := by
  obtain ⟨-, -, hactive, -⟩ := frame_eq_iff.mp hframe
  have hclear : Shed s ev (c.clearPending message.peer.id) := (Shed.start.quiet hframe).clearPending _
  have hask := served_sendNeighbor (hclear.quiet (frame_insertPeerInfo _ message.peer))
    message.peer.id .high
  unfold onForwardJoin
  simp only [show (c.clearPending message.peer.id).active = s.active from hactive]
  by_cases hmem : message.peer.id ∈ s.active
  · rw [if_pos (.inl hmem), if_pos hmem]
    exact hask
  · rw [if_neg hmem]
    by_cases hend : message.ttl = 0 ∨ s.active.length ≤ 1
    · rw [if_pos (.inr hend), if_pos hend]
      exact hask
    · rw [if_neg (not_or.mpr ⟨hmem, hend⟩), if_neg hend]
      refine .shed (Shed.quiet ?_ (frame_forwardWalk _ _ _))
      -- the walk passes through the passive view at one of its steps
      split
      · exact (shed_addPassive hs hclear _ _).1
      · exact hclear

lemma served_onNeighbor (hsender : ev.sender = some sender) (message : Neighbor) :
    Served s ev (if sender ≠ s.me ∧ sender ∉ s.pendingNeighbor.keys ∧ (sender ∈ s.active ∨
        ¬(message.priority = .low ∧ s.active.length ≥ s.config.activeViewCapacity)) then some sender
      else none) (c.onNeighbor sender message) := by
  obtain ⟨hme, hconfig, hactive, -, hpending, -⟩ := frame_eq_iff.mp hframe
  have hclear : Shed s ev (c.clearPending sender) := (Shed.start.quiet hframe).clearPending sender
  have hiff : (c.clearPending sender).Accepts sender message.priority ↔ sender ≠ s.me ∧ (sender ∈
      s.active ∨ ¬(message.priority = .low ∧ s.active.length ≥ s.config.activeViewCapacity)) := by
    show c.Accepts sender message.priority ↔ _
    rw [Accepts, hme, hconfig, hactive]
  unfold onNeighbor
  dsimp only
  by_cases haccepts : (c.clearPending sender).Accepts sender message.priority
  · obtain ⟨c', hshed, heq⟩ := addActive_of_accepts hs hclear hactive hsender haccepts
      message.data (!c.pendingNeighbor.contains sender)
    obtain ⟨hne, haccept⟩ := hiff.mp haccepts
    rw [heq]
    by_cases hasked : sender ∈ c.pendingNeighbor.keys
    · rw [if_neg fun h => h.2.1 (hpending ▸ hasked), GoMap.contains_iff.mpr hasked]
      exact .shed hshed
    · -- nobody has asked this peer, so that it is asked back
      rw [if_pos ⟨hne, hpending ▸ hasked, haccept⟩, Bool.eq_false_iff.mpr (mt GoMap.contains_iff.mp hasked)]
      exact served_sendNeighbor hshed sender message.priority
  · obtain ⟨c', hframe', heq⟩ := addActive_of_not_accepts haccepts message.data
      (!c.pendingNeighbor.contains sender)
    rw [heq, if_neg fun h => haccepts (hiff.mpr ⟨h.1, h.2.2⟩)]
    obtain ⟨-, -, hactive', -⟩ := frame_eq_iff.mp hframe'
    have hnot : sender ∉ c'.active := by
      rw [hactive']
      intro hmem
      have hmem' : sender ∈ s.active := hactive ▸ hmem
      refine haccepts (hiff.mpr ⟨?_, .inl hmem'⟩)
      rintro rfl
      exact hs.me_not_active hmem'
    exact ((Served.shed (hclear.quiet hframe')).refuse hnot).quiet (frame_sendDisconnect _ _ _)

lemma served_onDisconnect (details : Disconnect) :
    Served s ev none (c.onDisconnect sender details) := by
  obtain ⟨-, -, hactive, -⟩ := frame_eq_iff.mp hframe
  have hclear : Shed s ev (c.clearPending sender) := (Shed.start.quiet hframe).clearPending sender
  unfold onDisconnect
  dsimp only
  split
  next hmem =>
    exact (served_removeActive hs hclear (hactive ▸ hmem) .disconnectReceived details.alive).1
  · split
    · exact .shed (hclear.quiet rfl)
    · exact .shed hclear

end

lemma served_handleConnectionClosed (hs : s.WellFormed) (peer : PeerID) :
    Served s ev none ((HyparviewCall.mk s []).handleConnectionClosed peer) := by
  have hclear : Shed s ev ((HyparviewCall.mk s []).clearPending peer) := Shed.start.clearPending peer
  unfold handleConnectionClosed
  dsimp only
  split
  next hmem => exact (served_removeActive hs hclear hmem .connectionClosed false).1
  · split
    · exact .shed (hclear.quiet rfl)
    · exact .shed ((hclear.erasePassive peer).quiet rfl)

lemma served_onMessage (hs : s.WellFormed) (hframe : c.frame = (HyparviewCall.mk s []).frame)
    (message : HyparviewMessage) :
    Served s (.recvMessage sender message) (s.asks (.recvMessage sender message))
      (c.onMessage sender message) := by
  have hstart : Shed s (.recvMessage sender message) c := Shed.start.quiet hframe
  cases message with
  | join data => exact served_onJoin hs hframe rfl data
  | forwardJoin message => exact served_onForwardJoin hs hframe message
  | shuffle message =>
    show Served s _ none (c.onShuffle sender message)
    unfold onShuffle
    split
    · exact .shed ((shed_addPassiveAll hs hstart _).quiet (frame_emit _ rfl))
    · exact .shed (hstart.quiet (c.frame_forwardWalk _ _))
  | shuffleReply nodes => exact served_refillActiveFromPassive (shed_addPassiveAll hs hstart nodes) []
  | neighbor message => exact served_onNeighbor hs hframe rfl message
  | disconnect message => exact served_onDisconnect hs hframe message
  | unknown kind => exact .shed hstart

lemma served_disconnect (h : Served s ev asked c) (sender : PeerID) (message : HyparviewMessage) :
    Served s ev asked (if !isDisconnect message && sender ∉ c.active then
      c.emit (.disconnectPeer sender) else c) := by
  split
  next hif =>
    simp only [Bool.and_eq_true, decide_eq_true_eq] at hif
    exact h.refuse hif.2
  · exact h

lemma served_handleMessage (hs : s.WellFormed) (sender : PeerID) (message : HyparviewMessage) :
    Served s (.recvMessage sender message) (s.asks (.recvMessage sender message))
      ((HyparviewCall.mk s []).handleMessage sender message) := by
  refine served_disconnect (served_onMessage hs ?_ message) sender message
  split <;> rfl

lemma served_handleShuffleTimer (s : HyparviewState) :
    Served s ev none (HyparviewCall.mk s []).handleShuffleTimer := by
  refine Served.shuffle (.shed (Shed.start.quiet ?_)) _
  split
  · rfl
  · exact frame_emit _ rfl

lemma served_handlePendingNeighborTimer (s : HyparviewState) (peer : PeerID) :
    Served s ev none ((HyparviewCall.mk s []).handlePendingNeighborTimer peer) := by
  unfold handlePendingNeighborTimer
  split
  · exact .shed .start
  · exact served_refillActiveFromPassive ((Shed.start.clearPending peer).erasePassive peer) []

lemma shed_handleQuit (s : HyparviewState) : Shed s .quit (HyparviewCall.mk s []).handleQuit ∧
    (HyparviewCall.mk s []).handleQuit.active = [] := by
  -- the loop runs over the view it empties
  have hloop : ∀ (peers : List PeerID) (c : HyparviewCall), Shed s .quit c → c.active = peers →
      (∀ p ∈ peers, p ∈ s.active) → Shed s .quit (peers.foldl (fun c peer =>
        { c with active := c.active.erase peer }.sendDisconnect peer false) c) ∧
        (peers.foldl (fun c peer =>
          { c with active := c.active.erase peer }.sendDisconnect peer false) c).active = [] := by
    intro peers
    induction peers with
    | nil => exact fun c h hc _ => ⟨h, hc⟩
    | cons peer peers ih =>
      intro c h hc hsub
      have hframe := frame_sendDisconnect { c with active := c.active.erase peer } peer false
      obtain ⟨-, -, hactive, -⟩ := frame_eq_iff.mp hframe
      refine ih _ ((h.leave rfl (hsub peer mem_cons_self)).quiet hframe) ?_ fun p hp =>
        hsub p (mem_cons_of_mem peer hp)
      show c.active.erase peer = peers
      rw [hc, erase_cons_head]
  exact hloop s.active _ .start rfl fun p hp => hp

/-- **What a call does is made of moves.** -/
theorem served_handleEvent (hs : s.WellFormed) (ev : HyparviewInEvent) :
    Served s ev (s.asks ev) ((HyparviewCall.mk s []).handleEvent ev) := by
  cases ev with
  | recvMessage sender message => exact served_handleMessage hs sender message
  | timerExpired timer =>
    cases timer with
    | doShuffle => exact served_handleShuffleTimer s
    | pendingNeighborRequest peer => exact served_handlePendingNeighborTimer s peer
    | unknown kind => exact .shed .start
  | peerDisconnected peer => exact served_handleConnectionClosed hs peer
  | requestJoin peer => exact .shed (Shed.start.quiet (frame_emit _ rfl))
  | updatePeerData data => exact .shed (Shed.start.quiet rfl)
  | quit => exact .shed (shed_handleQuit s).1
  | unknown kind => exact .shed .start

lemma served_scheduleShuffle (h : Served s ev asked c) : Served s ev asked c.scheduleShuffle := by
  unfold HyparviewCall.scheduleShuffle
  split
  · exact h
  · exact (h.shuffle _).quiet rfl

end HyparviewCall

namespace HyparviewState

/-- The call of `Handle` that `ev` makes, up to its return. -/
def call (s : HyparviewState) (ev : HyparviewInEvent) : HyparviewCall :=
  ((HyparviewCall.mk s []).handleEvent ev).scheduleShuffle.forgetStrangers

lemma WellFormed.served_call (hs : s.WellFormed) (ev : HyparviewInEvent) :
    Served s ev (s.asks ev) (s.call ev) :=
  (HyparviewCall.served_scheduleShuffle (HyparviewCall.served_handleEvent hs ev)).quiet rfl

end HyparviewState

end Iroh.GossipProto
