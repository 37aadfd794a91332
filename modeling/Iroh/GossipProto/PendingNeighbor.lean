import Iroh.GossipProto.Links
import Iroh.Common.Runs

/-!
# Pending neighbor requests and their timers

Reference: `internal/gossipproto/hyparview.go`.

A peer that was sent a `Neighbor` is pending until it answers, and counts against the active view while
it is.  `refillActiveFromPassive` schedules a timer with the request, so that a silent peer is given up.
The other three places that send a `Neighbor` (the answers to a join, to a forwarded join and to a
`Neighbor` nobody asked for) do not, and their requests can stay pending for ever.
-/

namespace Iroh.GossipProto

open List GoMap

def Awaits (out : List HyparviewOutEvent) (p : PeerID) : Prop :=
  ∃ after, .scheduleTimer after (.pendingNeighborRequest p) ∈ out

def Answers (s : HyparviewState) (c : HyparviewCall) : Option PeerID → Prop
  | some peer => (∀ p ∈ c.pendingNeighbor.keys, p ∈ s.pendingNeighbor.keys ∨ p = peer) ∧
      peer ∈ c.pendingNeighbor.keys ∧ ∀ p, ¬Awaits c.out p
  | none => ∀ p ∈ c.pendingNeighbor.keys, p ∈ s.pendingNeighbor.keys ∨ Awaits c.out p

variable {s : HyparviewState} {ev : HyparviewInEvent} {asked : Option PeerID} {c c' : HyparviewCall}

lemma awaits_of_frame (hframe : c'.frame = c.frame) (p : PeerID) : Awaits c'.out p ↔ Awaits c.out p :=
  exists_congr fun _ => mem_out_of_frame hframe (.scheduleTimer _ (.pendingNeighborRequest p)) rfl

lemma awaits_emit (c : HyparviewCall)
    (hout : ∀ after p, out ≠ .scheduleTimer after (.pendingNeighborRequest p)) (p : PeerID) :
    Awaits (c.emit out).out p ↔ Awaits c.out p := by
  refine exists_congr fun after => ?_
  simp [HyparviewCall.emit, (hout after p).symm]

lemma Shed.withdraws (h : Shed s ev c) :
    (∀ p ∈ c.pendingNeighbor.keys, p ∈ s.pendingNeighbor.keys) ∧ ∀ p, ¬Awaits c.out p := by
  induction h with
  | start => exact ⟨fun p hp => hp, fun p ⟨_, hp⟩ => absurd hp not_mem_nil⟩
  | quiet _ hframe ih =>
    obtain ⟨-, -, -, -, hpending, -⟩ := HyparviewCall.frame_eq_iff.mp hframe
    exact ⟨hpending ▸ ih.1, fun p hp => ih.2 p ((awaits_of_frame hframe p).mp hp)⟩
  | erasePassive _ _ ih | insertPassive _ _ _ _ _ ih => exact ih
  | clearPending _ _ ih => exact ⟨fun p hp => ih.1 p (mem_keys_delete.mp hp).2, ih.2⟩
  | drop _ _ _ ih =>
    refine ⟨ih.1, fun p hp => ih.2 p ?_⟩
    exact (awaits_emit _ (by simp) p).mp ((awaits_emit _ (by simp) p).mp hp)
  | leave _ _ _ ih | enter _ _ _ _ _ _ ih =>
    exact ⟨ih.1, fun p hp => ih.2 p ((awaits_emit _ (by simp) p).mp hp)⟩

lemma Answers.same (h : Answers s c asked) (hpending : c'.pendingNeighbor = c.pendingNeighbor)
    (htimers : ∀ p, Awaits c'.out p ↔ Awaits c.out p) : Answers s c' asked := by
  unfold Answers at h ⊢
  simp only [hpending, htimers]
  exact h

lemma Served.answers (h : Served s ev asked c) : Answers s c asked := by
  induction h with
  | shed h => exact fun p hp => .inl (h.withdraws.1 p hp)
  | asked h hpending => exact ⟨fun p hp => .inl (h.withdraws.1 p hp), hpending, h.withdraws.2⟩
  | ask h peer =>
    refine ⟨fun p hp => ?_, mem_keys_set.mpr (.inl rfl), h.withdraws.2⟩
    exact (mem_keys_set.mp hp).symm.imp_left (h.withdraws.1 p)
  | @request c peer _ after ih =>
    refine fun p hp => (ih.1 p hp).imp_right ?_
    rintro rfl
    exact ⟨after, mem_append_right _ (mem_singleton.mpr rfl)⟩
  | quiet _ hframe ih =>
    obtain ⟨-, -, -, -, hpending, -⟩ := HyparviewCall.frame_eq_iff.mp hframe
    exact ih.same hpending (awaits_of_frame hframe)
  | refuse _ _ ih | shuffle _ _ ih => exact ih.same rfl (awaits_emit _ (by simp))

lemma HyparviewState.awaits_call_timer (s : HyparviewState) (peer : PeerID)
    (h : peer ∈ (s.call (.timerExpired (.pendingNeighborRequest peer))).pendingNeighbor.keys) :
    Awaits (s.call (.timerExpired (.pendingNeighborRequest peer))).out peer := by
  -- the call goes on from a state without the request
  have hserved : ∃ s₁ : HyparviewState, peer ∉ s₁.pendingNeighbor.keys ∧
      Served s₁ (.timerExpired (.pendingNeighborRequest peer)) none
        ((HyparviewCall.mk s []).handlePendingNeighborTimer peer) := by
    unfold HyparviewCall.handlePendingNeighborTimer
    split
    next hnot =>
      refine ⟨s, fun hmem => ?_, .shed .start⟩
      rw [GoMap.contains_iff.mpr hmem] at hnot
      cases hnot
    · have hstart : Shed { s with pendingNeighbor := s.pendingNeighbor.delete peer }
          (.timerExpired (.pendingNeighborRequest peer)) ((HyparviewCall.mk s []).clearPending peer) :=
        .start
      have hrefill := HyparviewCall.served_refillActiveFromPassive (hstart.erasePassive peer) []
      exact ⟨_, fun hmem => (mem_keys_delete.mp hmem).1 rfl, hrefill⟩
  obtain ⟨s₁, hnot, hserved⟩ := hserved
  have hquiet : Served s₁ (.timerExpired (.pendingNeighborRequest peer)) _
      (s.call (.timerExpired (.pendingNeighborRequest peer))) :=
    (HyparviewCall.served_scheduleShuffle hserved).quiet rfl
  have hcall := hquiet.answers
  exact (hcall peer h).resolve_left hnot

/-! ## Whole runs -/

def HyparviewOutEvent.timer? : HyparviewOutEvent → Option HyparviewTimer
  | .scheduleTimer _ timer => some timer
  | _ => none

def HyparviewInEvent.fired : HyparviewInEvent → Option HyparviewTimer
  | .timerExpired timer => some timer
  | _ => none

def hyparviewMachine : TimedMachine HyparviewState HyparviewInEvent HyparviewTimer where
  step s ev := (s.handle ev).1
  scheduled s ev := (s.handle ev).2.filterMap HyparviewOutEvent.timer?
  fired := HyparviewInEvent.fired

def PendingTimed (q : HyparviewState × List HyparviewTimer) : Prop :=
  ∀ p ∈ q.1.pendingNeighbor.keys, .pendingNeighborRequest p ∈ q.2

def AsksTimed (q : HyparviewState × List HyparviewTimer) (ev : HyparviewInEvent) : Prop :=
  ∀ p, q.1.asks ev = some p → .pendingNeighborRequest p ∈ q.2

lemma mem_scheduled_iff :
    .pendingNeighborRequest p ∈ hyparviewMachine.scheduled s ev ↔ Awaits (s.call ev).out p := by
  refine mem_filterMap.trans ⟨?_, fun ⟨after, h⟩ => ⟨_, h, rfl⟩⟩
  rintro ⟨out, hout, htimer⟩
  unfold HyparviewOutEvent.timer? at htimer
  split at htimer
  next after timer =>
    cases htimer
    exact ⟨after, hout⟩
  · cases htimer

/-- **A step keeps the pending requests timed exactly when the peer it asks without a timer has one.** -/
theorem pendingTimed_next_iff (hs : q.1.WellFormed) (h : PendingTimed q) (ev : HyparviewInEvent) :
    PendingTimed (hyparviewMachine.next q ev) ↔ AsksTimed q ev := by
  have hcall := (hs.served_call ev).answers
  unfold AsksTimed
  cases hask : q.1.asks ev with
  | none =>
    rw [hask] at hcall
    refine iff_of_true (fun p hp => ?_) fun _ => nofun
    have hawaits : Awaits (q.1.call ev).out p →
        .pendingNeighborRequest p ∈ (hyparviewMachine.next q ev).2 :=
      fun ha => mem_append_right _ (mem_scheduled_iff.mpr ha)
    rcases hcall p hp with hold | ha
    · by_cases hfired : ev = .timerExpired (.pendingNeighborRequest p)
      · subst hfired
        exact hawaits (q.1.awaits_call_timer p hp)
      · refine TimedMachine.mem_next (h p hold) fun hev => hfired ?_
        cases ev with
        | timerExpired timer => exact congrArg _ (Option.some.inj hev)
        | _ => cases hev
    · exact hawaits ha
  | some peer =>
    rw [hask] at hcall
    -- only messages ask, and no timer fires with them
    have hremaining : hyparviewMachine.remaining q.2 ev = q.2 := by
      cases ev with
      | recvMessage sender message => rfl
      | _ => cases hask
    have htimers : ∀ p, .pendingNeighborRequest p ∈ (hyparviewMachine.next q ev).2 ↔
        .pendingNeighborRequest p ∈ q.2 := by
      intro p
      have hnone : .pendingNeighborRequest p ∉ hyparviewMachine.scheduled q.1 ev := by
        rw [mem_scheduled_iff]
        exact hcall.2.2 p
      rw [TimedMachine.next, hremaining, mem_append, or_iff_left hnone]
    constructor
    · rintro hnext p ⟨⟩
      exact (htimers peer).mp (hnext peer hcall.2.1)
    · intro hpeer p hp
      rw [htimers]
      rcases hcall.1 p hp with hold | rfl
      · exact h p hold
      · exact hpeer p rfl

/-- **Pending requests have timers throughout a run exactly when every peer that is asked without one
has a timer outstanding.** -/
theorem run_pendingTimed_iff (me : PeerID) (data : Option PeerData) (config : HyparviewConfig)
    (rand : Rand) (evs : List HyparviewInEvent) :
    EachState hyparviewMachine.next PendingTimed (newHyparviewState me data config rand, []) evs ↔
      EachStep hyparviewMachine.next AsksTimed (newHyparviewState me data config rand, []) evs := by
  refine eachState_iff_of_inv (fun q => q.1.WellFormed) ?_ ?_ ?_ ?_ evs
  · exact fun q ev hs => (hs.keeps_call ev).views
  · exact fun q ev hs h => pendingTimed_next_iff hs h ev
  · exact HyparviewState.wellFormed_newHyparviewState me data config rand
  · exact fun p hp => absurd hp not_mem_keys_empty

/-- Five forwarded joins of peers that never answer: they stay pending without a timer, and when a
shuffle brings a peer that could be asked, the refill finds the view full, although it is empty. -/
theorem pending_without_timer :
    let me : PeerID := .replicate 32 0
    let stranger : PeerID := .replicate 32 1
    let forward : UInt8 → HyparviewInEvent := fun n =>
      .recvMessage stranger (.forwardJoin ⟨⟨.replicate 32 n, none⟩, 0⟩)
    let reply : HyparviewInEvent := .recvMessage stranger (.shuffleReply [⟨.replicate 32 9, none⟩])
    let q₀ := (newHyparviewState me none defaultHyparviewConfig ⟨fun _ => 0, 0⟩,
      ([] : List HyparviewTimer))
    let q₁ := hyparviewMachine.next q₀ (forward 2)
    let q₂ := [forward 3, forward 4, forward 5, forward 6].foldl hyparviewMachine.next q₁
    let q₃ := hyparviewMachine.next q₂ reply
    (q₁.1.pendingNeighbor.keys = [.replicate 32 2] ∧ q₁.2 = [.doShuffle]) ∧
      (q₂.1.pendingNeighbor.len = 5 ∧ q₂.1.active = [] ∧ q₂.2 = [.doShuffle]) ∧
      q₃.1.passive = [.replicate 32 9] ∧ q₃.1.pendingNeighbor.keys = q₂.1.pendingNeighbor.keys ∧
        q₃.2 = [.doShuffle] :=
  ⟨by decide, by decide, by decide⟩

end Iroh.GossipProto
