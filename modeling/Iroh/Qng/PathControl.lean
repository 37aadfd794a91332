import Iroh.Common.Runs
import Iroh.Qng.MultipathOutgoing

/-!
# PATH_CHALLENGE and PATH_RESPONSE are sent or kept

Reference: `internal/qng/multipath_outgoing.go`.

Every PATH_CHALLENGE received on an open path is to be answered or still owed, and `challengeSent` is to
mean that one of ours was sent.  `driveMultipath` clears `pendingResponses` and sets `challengeSent`
before `sendPathPacket`, which does nothing while the send queue is full, so that frames are lost; and
all the responses go into one packet, which is too large if the peer has sent enough challenges.  Of
several challenges in one packet only the last is noted.
-/

namespace Iroh.Qng

open List

/-! ## The property of one path -/

def Frame.responseToken : Frame → Option Token
  | .control (.pathResponse data) => some data
  | _ => none

def Frame.challengeToken : Frame → Option Token
  | .control (.pathChallenge data) => some data
  | _ => none

def ControlLog.answered (log : ControlLog) : List Token :=
  log.handed.flatMap (·.filterMap Frame.responseToken)

def ControlLog.challenged (log : ControlLog) : List Token :=
  log.handed.flatMap (·.filterMap Frame.challengeToken)

namespace PathOpenState

/-- Each token was answered or is pending as often as it was received; and if `challengeSent`, a packet
with a PATH_CHALLENGE with a recorded token was handed over. -/
@[mk_iff] structure Kept (st : PathOpenState) : Prop where
  responses : ∀ tok, st.log.received.count tok ≤
    st.pendingResponses.count tok + st.log.answered.count tok
  challenge : st.challengeSent = true → ∃ tok ∈ st.log.recorded, tok ∈ st.log.challenged

/-- No token is answered more often than it was received, and only recorded tokens are sent. -/
@[mk_iff] structure Ok (st : PathOpenState) : Prop where
  responses : ∀ tok, st.pendingResponses.count tok + st.log.answered.count tok ≤
    st.log.received.count tok
  unsent : st.challengeSent = false → st.log.recorded = []
  challenge : ∀ tok ∈ st.log.challenged, tok ∈ st.log.recorded

lemma kept_new (validated : Bool) (route : Option AddrPort) : (new validated route).Kept :=
  ⟨fun _ => Nat.le_refl 0, fun h => absurd h Bool.false_ne_true⟩

lemma ok_new (validated : Bool) (route : Option AddrPort) : (new validated route).Ok :=
  ⟨fun _ => Nat.le_refl 0, fun _ => rfl, fun _ h => absurd h not_mem_nil⟩

def control (st : PathOpenState) : List Token × Bool × List Token × List Token × List Token × List Token :=
  (st.pendingResponses, st.challengeSent, st.log.received, st.log.recorded, st.log.answered,
    st.log.challenged)

variable {st st' : PathOpenState}

lemma kept_congr (h : st'.control = st.control) : st'.Kept ↔ st.Kept := by
  simp only [control, Prod.mk.injEq] at h
  simp only [kept_iff, h]

lemma ok_congr (h : st'.control = st.control) : st'.Ok ↔ st.Ok := by
  simp only [control, Prod.mk.injEq] at h
  simp only [ok_iff, h]

def hand (st : PathOpenState) (frames : List Frame) : PathOpenState :=
  { st with log := { st.log with handed := st.log.handed ++ [frames] } }

lemma answered_hand (st : PathOpenState) (frames : List Frame) :
    (st.hand frames).log.answered = st.log.answered ++ frames.filterMap Frame.responseToken := by
  simp [hand, ControlLog.answered]

lemma challenged_hand (st : PathOpenState) (frames : List Frame) :
    (st.hand frames).log.challenged = st.log.challenged ++ frames.filterMap Frame.challengeToken := by
  simp [hand, ControlLog.challenged]

lemma control_hand (st : PathOpenState)
    (h : ∀ f ∈ frames, f.responseToken = none ∧ f.challengeToken = none) :
    (st.hand frames).control = st.control := by
  rw [control, answered_hand, challenged_hand, filterMap_eq_nil_iff.mpr fun f hf => (h f hf).1,
    filterMap_eq_nil_iff.mpr fun f hf => (h f hf).2, append_nil, append_nil]
  rfl

/-! ## The responses that are owed -/

def takeResponses (st : PathOpenState) : PathOpenState := { st with pendingResponses := [] }

def responseFrames (st : PathOpenState) : List Frame :=
  (st.pendingResponses.map ControlFrame.pathResponse).map .control

lemma filterMap_responseFrames (st : PathOpenState) :
    st.responseFrames.filterMap Frame.responseToken = st.pendingResponses ∧
      st.responseFrames.filterMap Frame.challengeToken = [] := by
  unfold responseFrames
  rw [map_map]
  constructor
  · rw [filterMap_map]
    exact filterMap_some
  · rw [filterMap_map]
    exact filterMap_eq_nil_iff.mpr fun _ _ => rfl

lemma hand_responses (st : PathOpenState) :
    (∀ tok, (st.takeResponses.hand st.responseFrames).pendingResponses.count tok +
        (st.takeResponses.hand st.responseFrames).log.answered.count tok =
        st.pendingResponses.count tok + st.log.answered.count tok) ∧
      (st.takeResponses.hand st.responseFrames).log.challenged = st.log.challenged := by
  rw [answered_hand, challenged_hand, (filterMap_responseFrames st).1, (filterMap_responseFrames st).2,
    append_nil]
  refine ⟨fun tok => ?_, rfl⟩
  rw [count_append]
  exact (Nat.zero_add _).trans (Nat.add_comm _ _)

lemma kept_hand_responses_iff : (st.takeResponses.hand st.responseFrames).Kept ↔ st.Kept := by
  simp only [kept_iff, hand_responses st]
  rfl

lemma ok_hand_responses (hok : st.Ok) : (st.takeResponses.hand st.responseFrames).Ok := by
  simp only [ok_iff, hand_responses st]
  exact (ok_iff st).mp hok

lemma not_kept_takeResponses (hok : st.Ok) (hne : st.pendingResponses ≠ []) :
    ¬ st.takeResponses.Kept := by
  intro h
  obtain ⟨tok, htok⟩ := exists_mem_of_ne_nil _ hne
  have hpos := count_pos_iff.mpr htok
  have hle := hok.responses tok
  have hge : st.log.received.count tok ≤ 0 + st.log.answered.count tok := h.responses tok
  omega

lemma ok_takeResponses (hok : st.Ok) : st.takeResponses.Ok := by
  refine ⟨fun tok => ?_, hok.unsent, hok.challenge⟩
  have hle := hok.responses tok
  show 0 + st.log.answered.count tok ≤ st.log.received.count tok
  omega

/-! ## Our own challenge -/

/-- A token is recorded and `challengeSent` is set. -/
def recordChallenge (st : PathOpenState) (tok : Token) : PathOpenState :=
  { st with
    challenges := st.challenges ++ [tok]
    challengeSent := true
    log := { st.log with recorded := st.log.recorded ++ [tok] } }

lemma kept_hand_challenge_iff (tok : Token) (hsent : st.challengeSent = false) :
    ((st.recordChallenge tok).hand [.control (.pathChallenge tok)]).Kept ↔ st.Kept := by
  have hmem : ∀ tokens : List Token, tok ∈ tokens ++ [tok] :=
    fun _ => mem_append_right _ (mem_singleton_self tok)
  have hanswered : ((st.recordChallenge tok).hand [.control (.pathChallenge tok)]).log.answered =
      st.log.answered := by
    rw [answered_hand]
    exact append_nil _
  rw [kept_iff, kept_iff, hanswered, challenged_hand]
  exact and_congr Iff.rfl (iff_of_true (fun _ => ⟨tok, hmem _, hmem _⟩) (by simp [hsent]))

lemma ok_recordChallenge (hok : st.Ok) (tok : Token) : (st.recordChallenge tok).Ok :=
  ⟨hok.responses, fun h => absurd h.symm Bool.false_ne_true,
    fun tok' htok' => mem_append_left _ (hok.challenge tok' htok')⟩

lemma ok_hand_challenge (hok : st.Ok) (tok : Token) :
    ((st.recordChallenge tok).hand [.control (.pathChallenge tok)]).Ok := by
  refine ⟨fun tok' => ?_, fun h => absurd h.symm Bool.false_ne_true, fun tok' htok' => ?_⟩
  · rw [answered_hand]
    exact (append_nil st.log.answered).symm ▸ hok.responses tok'
  · rw [challenged_hand] at htok'
    rcases mem_append.mp htok' with htok' | htok'
    · exact mem_append_left _ (hok.challenge tok' htok')
    · exact mem_append_right _ htok'

lemma not_kept_recordChallenge (hok : st.Ok) (hsent : st.challengeSent = false) (tok : Token) :
    ¬ (st.recordChallenge tok).Kept := by
  intro h
  obtain ⟨tok', -, hmem⟩ := h.challenge rfl
  have hrecorded : tok' ∈ st.log.recorded := hok.challenge tok' hmem
  rw [hok.unsent hsent] at hrecorded
  cases hrecorded

end PathOpenState

/-! ## One visit of a path -/

namespace PathCall

variable {c : PathCall} {q : SendQueue} {st : PathOpenState} {v : Visit} {hdr : ShortHeader}

/-- `sendPathPacket` sends: the route of the path, if it has one, has a port, and the send queue has room
unless there is a route. -/
def CanSend (st : PathOpenState) (q : SendQueue) : Prop :=
  st.hasInvalidQNTRoute = false ∧ st.pathSendQueueBlocked q = false

/-- Nothing is lost, and every frame fits. -/
structure Good (c : PathCall) : Prop where
  kept : c.st.Kept
  fits : ∀ size allowed, c.err ≠ some (.pack (.tooLarge size allowed))

lemma good_iff (herr : c.err = none) : c.Good ↔ c.st.Kept := by
  refine ⟨Good.kept, fun h => ⟨h, fun size allowed hlarge => ?_⟩⟩
  cases herr.symm.trans hlarge

lemma sendPathBuffer_eq (hblocked : c.st.pathSendQueueBlocked c.queue = false)
    (frames : List Frame) (size : ℕ) (inlineWrite : Bool) :
    ∃ queue, c.sendPathBuffer frames size inlineWrite = ⟨queue, c.st.hand frames, c.err⟩ := by
  unfold sendPathBuffer
  split
  · exact ⟨c.queue, rfl⟩
  next hroute =>
    have hroom : c.queue.len < sendQueueCapacity := by
      have hle := c.queue.bound
      simp only [PathOpenState.pathSendQueueBlocked, SendQueue.wouldBlock, Bool.and_eq_false_iff,
        decide_eq_false_iff_not] at hblocked
      rcases hblocked with hsome | hlen
      · rw [Option.isNone_eq_false_iff] at hsome
        exact absurd hsome hroute
      · omega
    have hsend : ∃ queue, c.queue.send size inlineWrite = some queue := by
      unfold SendQueue.send
      split
      · exact ⟨_, rfl⟩
      · exact ⟨⟨c.queue.len + 1, hroom⟩, rfl⟩
    obtain ⟨queue, hsend⟩ := hsend
    rw [hsend]
    exact ⟨queue, rfl⟩

lemma sendPathPacket_dropped (hcan : ¬ CanSend c.st c.queue) (pid : ℕ) (hdr : ShortHeader)
    (frames : List ControlFrame) (maxPacketSize : ℕ) : c.sendPathPacket pid hdr frames maxPacketSize = c := by
  unfold sendPathPacket
  split
  · rfl
  next hroute =>
    split
    · rfl
    next hblocked =>
      exact absurd ⟨Bool.eq_false_iff.mpr hroute, Bool.eq_false_iff.mpr hblocked⟩ hcan

lemma sendPathPacket_cases (hcan : CanSend c.st c.queue) (pid : ℕ) (frames : List ControlFrame)
    (maxPacketSize : ℕ) (hpn : 1 ≤ hdr.pnLen) (hne : frames ≠ []) (h : ∀ f ∈ frames, f.length = 9) :
    (hdr.len + 9 * frames.length + sealerOverhead ≤ maxPacketSize ∧
      ∃ queue, c.sendPathPacket pid hdr frames maxPacketSize =
        ⟨queue, c.st.hand (frames.map .control), c.err⟩) ∨
      (¬ hdr.len + 9 * frames.length + sealerOverhead ≤ maxPacketSize ∧
        ∃ size allowed, c.sendPathPacket pid hdr frames maxPacketSize =
          { c with err := some (.pack (.tooLarge size allowed)) }) := by
  unfold sendPathPacket
  rw [if_neg (Bool.eq_false_iff.mp hcan.1), if_neg (Bool.eq_false_iff.mp hcan.2)]
  rcases packPathFramesPacket_cases pid maxPacketSize hpn hne h with
    ⟨hfits, p, hp, hframes⟩ | ⟨hlarge, size, allowed, hp⟩
  · refine .inl ⟨hfits, ?_⟩
    rw [hp, ← hframes]
    exact sendPathBuffer_eq hcan.2 p.frames p.length false
  · refine .inr ⟨hlarge, size, allowed, ?_⟩
    rw [hp]

/-- What a packing step comes to. -/
structure Spec (c : PathCall) (st : PathOpenState) (P : Prop) : Prop where
  ok : c.st.Ok
  good : c.Good ↔ st.Kept ∧ P

lemma Spec.of_kept (hok : c.st.Ok) (herr : c.err = none) (hkept : c.st.Kept ↔ st.Kept)
    (hP : P) : c.Spec st P :=
  ⟨hok, (good_iff herr).trans (hkept.trans (and_iff_left hP).symm)⟩

lemma Spec.of_lost (hok : c.st.Ok) (hlost : ¬ c.Good) (hP : ¬ P) : c.Spec st P :=
  ⟨hok, iff_of_false hlost fun h => hP h.2⟩

def FlushOk (q : SendQueue) (st : PathOpenState) (v : Visit) (hdr : ShortHeader) : Prop :=
  st.pendingResponses ≠ [] → CanSend st (q.drain v.drained.1) ∧
    hdr.len + 9 * st.pendingResponses.length + sealerOverhead ≤ v.maxPacketSize

lemma flushResponses_spec (hok : st.Ok) (hpn : 1 ≤ hdr.pnLen) :
    (flushResponses ⟨q, st, none⟩ v hdr).Spec st (FlushOk q st v hdr) ∧
      (FlushOk q st v hdr → (flushResponses ⟨q, st, none⟩ v hdr).err = none) := by
  unfold flushResponses
  by_cases hnil : st.pendingResponses = []
  · rw [if_neg (by simp [hnil])]
    exact ⟨.of_kept hok rfl Iff.rfl fun hne => absurd hnil hne, fun _ => rfl⟩
  rw [if_pos (length_pos_of_ne_nil hnil)]
  by_cases hcan : CanSend st (q.drain v.drained.1)
  · have hne : st.pendingResponses.map ControlFrame.pathResponse ≠ [] := by simpa using hnil
    have hlen : ∀ f ∈ st.pendingResponses.map ControlFrame.pathResponse, f.length = 9 := by
      intro f hf
      obtain ⟨tok, -, rfl⟩ := mem_map.mp hf
      rfl
    rcases sendPathPacket_cases (c := ⟨q.drain v.drained.1, st.takeResponses, none⟩) hcan v.pid
        _ v.maxPacketSize hpn hne hlen with ⟨hfits, queue, hrun⟩ | ⟨hlarge, size, allowed, hrun⟩
    · rw [length_map] at hfits
      dsimp only [PathOpenState.takeResponses] at hrun
      rw [hrun]
      exact ⟨.of_kept (PathOpenState.ok_hand_responses hok) rfl PathOpenState.kept_hand_responses_iff
        fun _ => ⟨hcan, hfits⟩, fun _ => rfl⟩
    · rw [length_map] at hlarge
      have hflush : ¬ FlushOk q st v hdr := fun h => hlarge (h hnil).2
      dsimp only [PathOpenState.takeResponses] at hrun
      rw [hrun]
      exact ⟨.of_lost (PathOpenState.ok_takeResponses hok) (fun h => h.fits size allowed rfl) hflush,
        fun h => absurd h hflush⟩
  · have hflush : ¬ FlushOk q st v hdr := fun h => hcan (h hnil).1
    have hrun := sendPathPacket_dropped (c := ⟨q.drain v.drained.1, st.takeResponses, none⟩)
      hcan v.pid hdr (st.pendingResponses.map ControlFrame.pathResponse) v.maxPacketSize
    dsimp only [PathOpenState.takeResponses] at hrun
    rw [hrun]
    exact ⟨.of_lost (PathOpenState.ok_takeResponses hok)
      (fun h => PathOpenState.not_kept_takeResponses hok hnil h.kept) hflush, fun h => absurd h hflush⟩

def NextOk (c : PathCall) (v : Visit) : Prop :=
  c.st.validated = false → c.st.challengeSent = false → v.mode.allowsPath = true →
    CanSend c.st (c.queue.drain v.drained.2)

section

variable (hok : st.Ok) (hpn : 1 ≤ hdr.pnLen)
include hok hpn

lemma sendPathChallenge_spec (hsize : hdr.len + 9 + sealerOverhead ≤ v.maxPacketSize) :
    (sendPathChallenge ⟨q, st, none⟩ v hdr).Spec st
      (st.challengeSent = false → v.mode.allowsPath = true → CanSend st q) := by
  unfold sendPathChallenge
  split
  next hsent =>
    refine .of_kept hok rfl Iff.rfl fun hunsent => ?_
    cases hunsent.symm.trans hsent
  next hunsent =>
    have hunsent := Bool.eq_false_iff.mpr hunsent
    split
    next hmode =>
      refine .of_kept hok rfl Iff.rfl fun _ hallows => ?_
      rw [hallows] at hmode
      cases hmode
    next hmode =>
      have hmode : v.mode.allowsPath = true := by simpa using hmode
      by_cases hcan : CanSend st q
      · rcases sendPathPacket_cases (c := ⟨q, st.recordChallenge v.token, none⟩) hcan v.pid
            [.pathChallenge v.token] v.maxPacketSize hpn (cons_ne_nil _ _)
            (forall_mem_singleton.mpr rfl) with ⟨-, queue, hrun⟩ | ⟨hlarge, -⟩
        · dsimp only [PathOpenState.recordChallenge] at hrun
          rw [hrun]
          exact .of_kept (PathOpenState.ok_hand_challenge hok v.token) rfl
            (PathOpenState.kept_hand_challenge_iff v.token hunsent) fun _ _ => hcan
        · exact absurd hsize hlarge
      · have hrun := sendPathPacket_dropped (c := ⟨q, st.recordChallenge v.token, none⟩) hcan v.pid hdr
          [.pathChallenge v.token] v.maxPacketSize
        dsimp only [PathOpenState.recordChallenge] at hrun
        rw [hrun]
        exact .of_lost (PathOpenState.ok_recordChallenge hok v.token)
          (fun h => PathOpenState.not_kept_recordChallenge hok hunsent v.token h.kept)
          fun h => hcan (h hunsent hmode)

lemma sendOnPath_spec (hsize : hdr.len + 4 + sealerOverhead ≤ v.maxPacketSize) (hP : P) :
    (sendOnPath ⟨q, st, none⟩ v hdr).Spec st P := by
  unfold sendOnPath
  dsimp only
  split
  · exact .of_kept hok rfl Iff.rfl hP
  · split
    · exact .of_kept hok rfl Iff.rfl hP
    next hblocked =>
      split
      · exact .of_kept hok rfl Iff.rfl hP
      · generalize hpack : appendPacketForPath (some hdr) v.pid v.ack
          (if v.mode = .any then st.sendData else []) v.maxPacketSize = result
        match result with
        | .error e =>
          obtain rfl := appendPacketForPath_error hpn hsize hpack
          exact .of_kept hok rfl Iff.rfl hP
        | .ok (p, packed) =>
          -- the packet has a PATH_ACK and datagrams
          have hpacket : (PackerCall.appendPacketForPath (some hdr) v.pid v.ack
              (if v.mode = .any then st.sendData else []) v.maxPacketSize).packet = .ok p := by
            dsimp only [PackerCall.packet]
            rw [hpack]
            rfl
          obtain ⟨hdr', -, hframes, -⟩ := PackerCall.packet_appendPacketForPath hpacket
          have hother : ∀ f ∈ p.frames, f.responseToken = none ∧ f.challengeToken = none := by
            intro f hf
            rw [hframes] at hf
            rcases mem_append.mp hf with hf | hf
            · obtain ⟨a, -, rfl⟩ := mem_map.mp (mem_of_mem_filter hf)
              exact ⟨rfl, rfl⟩
            · obtain ⟨data, -, rfl⟩ := mem_map.mp hf
              exact ⟨rfl, rfl⟩
          obtain ⟨queue, hrun⟩ := sendPathBuffer_eq
            (c := ⟨q, { st with sendData := st.sendData.drop packed }, none⟩)
            (Bool.eq_false_iff.mpr hblocked) p.frames p.length v.inlineWrite
          dsimp only
          rw [hrun]
          have hsame : PathOpenState.control
              (.hand { st with sendData := st.sendData.drop packed } p.frames) = st.control :=
            PathOpenState.control_hand _ hother
          exact .of_kept ((PathOpenState.ok_congr hsame).mpr hok) rfl (PathOpenState.kept_congr hsame) hP

lemma sendNext_spec (hsize : hdr.len + 9 + sealerOverhead ≤ v.maxPacketSize) :
    (sendNext ⟨q, st, none⟩ v hdr).Spec st (NextOk ⟨q, st, none⟩ v) := by
  unfold sendNext
  rw [if_neg (by simp)]
  dsimp only
  split
  next hvalid => exact sendOnPath_spec hok hpn (by omega) (by simp [NextOk, hvalid])
  next hvalid =>
    have hspec := sendPathChallenge_spec (q := q.drain v.drained.2) (v := v) hok hpn hsize
    refine ⟨hspec.ok, hspec.good.trans (and_congr_right fun _ => ?_)⟩
    exact ⟨fun h _ => h, fun h => h (Bool.eq_false_iff.mpr hvalid)⟩

end

def VisitOk (q : SendQueue) (st : PathOpenState) (v : Visit) : Prop :=
  ∀ hdr, v.hdr = some hdr → FlushOk q st v hdr ∧ NextOk (flushResponses ⟨q, st, none⟩ v hdr) v

/-- **A visit is good exactly when the path was and nothing is dropped.** -/
theorem visit_spec (hok : st.Ok) : (visit ⟨q, st, none⟩ v).Spec st (VisitOk q st v) := by
  unfold visit
  cases hhdr : v.hdr with
  | none =>
    have hsame : PathOpenState.control { st with cidBlockedSent := true } = st.control := rfl
    exact .of_kept ((PathOpenState.ok_congr hsame).mpr hok) rfl (PathOpenState.kept_congr hsame)
      (by simp [VisitOk, hhdr])
  | some hdr =>
    obtain ⟨hid, hpn, hpn'⟩ := v.hdr_bounds hdr hhdr
    have hbound := v.size_bound
    have hsize : hdr.len + 9 + sealerOverhead ≤ v.maxPacketSize := by
      simp only [ShortHeader.len, sealerOverhead, minInitialPacketSize] at hbound ⊢
      omega
    obtain ⟨⟨hok', hgood⟩, herr⟩ := flushResponses_spec (q := q) (v := v) hok hpn
    have hcond : VisitOk q st v ↔
        FlushOk q st v hdr ∧ NextOk (flushResponses ⟨q, st, none⟩ v hdr) v := by
      simp [VisitOk, hhdr]
    dsimp only
    rw [hcond]
    generalize hcall : flushResponses ⟨q, st, none⟩ v hdr = c at hok' hgood herr
    obtain ⟨queue, st', err⟩ := c
    cases err with
    | none =>
      have hnext := sendNext_spec (q := queue) (v := v) hok' hpn hsize
      refine ⟨hnext.ok, hnext.good.trans ?_⟩
      rw [← and_assoc, ← hgood, good_iff rfl]
    | some e =>
      have hflush : ¬ FlushOk q st v hdr := fun h => by cases herr h
      exact .of_lost hok' (fun h => hflush (hgood.mp h).2) fun h => hflush h.1

end PathCall

/-! ## Runs of the connection -/

namespace MultipathConn

variable {c : MultipathConn} {pid : ℕ} {st : PathOpenState}

/-- The property of every open path, and `driveMultipath` has not returned that a packet is too large. -/
structure Kept (c : MultipathConn) : Prop where
  paths : ∀ pid st, c.paths pid = some st → st.Kept
  fits : ∀ size allowed, c.failed ≠ some (.pack (.tooLarge size allowed))

/-- What holds in every run: the paths are in order, and have numbers that were given. -/
structure Ok (c : MultipathConn) : Prop where
  paths : ∀ pid st, c.paths pid = some st → st.Ok
  numbers : ∀ pid, c.nextPathID ≤ pid → c.paths pid = none

lemma set_self (c : MultipathConn) (pid : ℕ) (st : PathOpenState) :
    (c.set pid st).paths pid = some st := Function.update_self ..

lemma set_of_ne (c : MultipathConn) (st : PathOpenState) (hne : q ≠ pid) :
    (c.set pid st).paths q = c.paths q := Function.update_of_ne hne ..

lemma forall_set {P : PathOpenState → Prop} (hst : P st)
    (h : ∀ q st', q ≠ pid → c.paths q = some st' → P st') :
    ∀ q st', (c.set pid st).paths q = some st' → P st' := by
  intro q st' hq
  by_cases hne : q = pid
  · subst hne
    rw [set_self] at hq
    exact Option.some.inj hq ▸ hst
  · rw [set_of_ne c st hne] at hq
    exact h q st' hne hq

lemma Ok.set (hok : c.Ok) (hold : (c.paths pid).isSome = true) (hst : st.Ok) : (c.set pid st).Ok where
  paths := forall_set hst fun q st' _ hq => hok.paths q st' hq
  numbers := by
    intro q hq
    have hnone := hok.numbers q hq
    have hne : q ≠ pid := by
      rintro rfl
      rw [hnone] at hold
      cases hold
    rw [set_of_ne c st hne]
    exact hnone

lemma Kept.set (hkept : c.Kept) (hst : st.Kept) : (c.set pid st).Kept where
  paths := forall_set hst fun q st' _ hq => hkept.paths q st' hq
  fits := hkept.fits

lemma Ok.openPath (hok : c.Ok) (hst : st.Ok) : (c.openPath st).Ok where
  paths := forall_set hst fun q st' _ hq => hok.paths q st' hq
  numbers := by
    intro q hq
    have hlt : c.nextPathID < q := hq
    exact (set_of_ne c st hlt.ne').trans (hok.numbers q hlt.le)

lemma Ok.maybeJoinPath (hok : c.Ok) (pid : ℕ) : (c.maybeJoinPath pid).Ok := by
  unfold MultipathConn.maybeJoinPath
  split
  · exact hok
  · split
    · exact hok
    · refine ⟨forall_set (PathOpenState.ok_new true none) fun q st' _ hq => hok.paths q st' hq, ?_⟩
      intro q hq
      dsimp only at hq
      have hbounds : pid < q ∧ c.nextPathID ≤ q := by
        split at hq
        · omega
        · omega
      exact (set_of_ne c _ hbounds.1.ne').trans (hok.numbers q hbounds.2)

/-! ### Driving -/

def VisitOk (c : MultipathConn) (v : Visit) : Prop :=
  c.failed = none → ∀ st, c.paths v.pid = some st → PathCall.VisitOk c.queue st v

lemma visit_spec (hok : c.Ok) (v : Visit) :
    (c.visit v).Ok ∧ ((c.visit v).Kept ↔ c.Kept ∧ c.VisitOk v) := by
  unfold visit
  split
  next hfailed => exact ⟨hok, (and_iff_left fun hnone => by simp [hnone] at hfailed).symm⟩
  next hfailed =>
    have hfailed : c.failed = none := by
      simpa using hfailed
    split
    next hpath => exact ⟨hok, (and_iff_left (by simp [VisitOk, hpath])).symm⟩
    next st hpath =>
      obtain ⟨hok', hgood⟩ := PathCall.visit_spec (q := c.queue) (v := v) (hok.paths v.pid st hpath)
      have hset : (c.set v.pid (PathCall.visit ⟨c.queue, st, none⟩ v).st).Ok :=
        hok.set (by rw [hpath]; rfl) hok'
      have hcond : c.VisitOk v ↔ PathCall.VisitOk c.queue st v := by
        simp [VisitOk, hfailed, hpath]
      refine ⟨⟨hset.paths, hset.numbers⟩, ?_⟩
      rw [hcond]
      constructor
      · rintro ⟨hpaths, hfits⟩
        obtain ⟨hst, hvisit⟩ := hgood.mp ⟨hpaths v.pid _ (set_self ..), hfits⟩
        refine ⟨⟨fun q st' hq => ?_, fun size allowed hlarge => ?_⟩, hvisit⟩
        · by_cases hne : q = v.pid
          · subst hne
            cases hpath.symm.trans hq
            exact hst
          · exact hpaths q st' ((set_of_ne c _ hne).trans hq)
        · cases hfailed.symm.trans hlarge
      · rintro ⟨hkept, hvisit⟩
        obtain ⟨hst, hfits⟩ := hgood.mpr ⟨hkept.paths v.pid st hpath, hvisit⟩
        exact ⟨(hkept.set hst).paths, hfits⟩

/-! ### Runs -/

inductive Action where
  | confirmHandshake
  | openPath
  | qntOpenPath (route : AddrPort)
  | joinPath (pid : ℕ)
  | pathChallenges (pid : ℕ) (challenges : List Token)
  | pathResponse (data : Token) (order : List ℕ)
  | datagram (pid : ℕ) (data : Bytes)
  | sendPackets (n : ℕ)
  | drain (n : ℕ)
  | drive (visits : List Visit)

def step (c : MultipathConn) (a : Action) : MultipathConn :=
  if c.failed.isSome then c
  else
    match a with
    | .confirmHandshake => { c with handshakeConfirmed := true }
    | .openPath => c.openPath (.new false none)
    | .qntOpenPath route => c.openPath (.new true (some route))
    | .joinPath pid => c.maybeJoinPath pid
    | .pathChallenges pid challenges => c.queueMultipathPathResponse pid challenges
    | .pathResponse data order => c.handleMultipathPathResponse data order
    | .datagram pid data => c.drainPathDatagram pid data
    | .sendPackets n => { c with queue := c.queue.fill n }
    | .drain n => { c with queue := c.queue.drain n }
    | .drive visits => c.driveMultipath visits

/-- A packet has one PATH_CHALLENGE at most, and each visit of `driveMultipath` sends what it takes
out. -/
def ActionOk (c : MultipathConn) : Action → Prop
  | .pathChallenges pid challenges =>
    c.failed = none → (c.paths pid).isSome = true → challenges.length ≤ 1
  | .drive visits => c.failed = none → c.handshakeConfirmed = true → EachStep visit VisitOk c visits
  | _ => True

lemma set_of_control_eq (hok : c.Ok) (hpath : c.paths pid = some st) (st' : PathOpenState)
    (hsame : st'.control = st.control) : (c.set pid st').Ok ∧ (c.Kept → (c.set pid st').Kept) :=
  ⟨hok.set (by rw [hpath]; rfl) ((PathOpenState.ok_congr hsame).mpr (hok.paths pid st hpath)),
    fun hkept => hkept.set ((PathOpenState.kept_congr hsame).mpr (hkept.paths pid st hpath))⟩

lemma handleMultipathPathResponse_spec (hok : c.Ok) (data : Token) (order : List ℕ) :
    (c.handleMultipathPathResponse data order).Ok ∧
      (c.Kept → (c.handleMultipathPathResponse data order).Kept) := by
  induction order with
  | nil => exact ⟨hok, id⟩
  | cons pid order ih =>
    unfold handleMultipathPathResponse
    split
    · exact ih
    next st hpath =>
      split
      · split
        · exact ⟨hok, id⟩
        · exact set_of_control_eq hok hpath _ rfl
      · exact ih

lemma count_getLast?_le (tokens : List Token) (tok : Token) :
    tokens.getLast?.toList.count tok ≤ tokens.count tok := by
  cases tokens using reverseRecOn with
  | nil => exact Nat.le_refl _
  | append_singleton l a => simp

lemma queueMultipathPathResponse_spec (hok : c.Ok) (pid : ℕ) (challenges : List Token) :
    (c.queueMultipathPathResponse pid challenges).Ok ∧
      (c.Kept → ((c.queueMultipathPathResponse pid challenges).Kept ↔
        ((c.paths pid).isSome = true → challenges.length ≤ 1))) := by
  unfold queueMultipathPathResponse
  split
  next hpath =>
    rw [hpath]
    exact ⟨hok, fun h => iff_of_true h fun hsome => absurd hsome Bool.false_ne_true⟩
  next st hpath =>
    have hst := hok.paths pid st hpath
    rw [hpath]
    constructor
    · refine hok.set (by rw [hpath]; rfl) ⟨fun tok => ?_, hst.unsent, hst.challenge⟩
      have hle := hst.responses tok
      have hlast := count_getLast?_le challenges tok
      show (st.pendingResponses ++ challenges.getLast?.toList).count tok + st.log.answered.count tok ≤
        (st.log.received ++ challenges).count tok
      rw [count_append, count_append]
      omega
    · intro hkept
      have hst' := hkept.paths pid st hpath
      constructor
      · -- the first of several is not pending
        intro h _
        match challenges with
        | [] => exact Nat.zero_le 1
        | [tok] => exact Nat.le_refl 1
        | tok :: tok' :: rest =>
          have hle : (st.log.received ++ tok :: tok' :: rest).count tok ≤
              (st.pendingResponses ++ (tok' :: rest).getLast?.toList).count tok +
                st.log.answered.count tok := (h.paths pid _ (set_self ..)).responses tok
          have hlast := count_getLast?_le (tok' :: rest) tok
          have hok' := hst.responses tok
          rw [count_append, count_append, count_cons_self] at hle
          omega
      · intro hone
        refine hkept.set ⟨fun tok => ?_, hst'.challenge⟩
        have hle := hst'.responses tok
        have hall : challenges.getLast?.toList = challenges := by
          match challenges, hone rfl with
          | [], _ => rfl
          | [_], _ => rfl
        show (st.log.received ++ challenges).count tok ≤
          (st.pendingResponses ++ challenges.getLast?.toList).count tok + st.log.answered.count tok
        rw [hall, count_append, count_append]
        omega

lemma driveMultipath_spec (hok : c.Ok) (visits : List Visit) :
    (c.driveMultipath visits).Ok ∧ ((c.driveMultipath visits).Kept ↔
      c.Kept ∧ (c.handshakeConfirmed = true → EachStep visit VisitOk c visits)) := by
  unfold driveMultipath
  split
  next hconfirmed =>
    constructor
    · exact foldlRecOn (motive := Ok) visits _ hok fun c hc v _ => (visit_spec hc v).1
    · rw [foldl_iff_eachStep Ok (fun c v hc => (visit_spec hc v).1) (fun c v hc => (visit_spec hc v).2)
        hok visits]
      exact and_congr_right fun _ => ⟨fun h _ => h, fun h => h hconfirmed⟩
  next hconfirmed => exact ⟨hok, (and_iff_left fun h => absurd h hconfirmed).symm⟩

lemma step_spec (hok : c.Ok) (a : Action) :
    (c.step a).Ok ∧ (c.Kept → ((c.step a).Kept ↔ c.ActionOk a)) := by
  unfold step
  split
  next hfailed =>
    refine ⟨hok, fun hkept => iff_of_true hkept ?_⟩
    cases a with
    | drive visits => exact fun hnone => by simp [hnone] at hfailed
    | pathChallenges pid challenges => exact fun hnone => by simp [hnone] at hfailed
    | _ => trivial
  next hfailed =>
    have hfailed : c.failed = none := by
      simpa using hfailed
    cases a with
    | openPath | qntOpenPath route =>
      refine ⟨hok.openPath (PathOpenState.ok_new _ _), fun h => iff_of_true ?_ trivial⟩
      exact ⟨(h.set (PathOpenState.kept_new _ _)).paths, h.fits⟩
    | joinPath pid =>
      refine ⟨hok.maybeJoinPath pid, fun h => iff_of_true ?_ trivial⟩
      dsimp only [maybeJoinPath]
      split
      · exact h
      · split
        · exact h
        · exact ⟨(h.set (PathOpenState.kept_new _ _)).paths, h.fits⟩
    | pathChallenges pid challenges =>
      have hspec := queueMultipathPathResponse_spec hok pid challenges
      refine ⟨hspec.1, fun h => (hspec.2 h).trans ?_⟩
      exact ⟨fun h _ => h, fun h => h hfailed⟩
    | pathResponse data order =>
      have hspec := handleMultipathPathResponse_spec hok data order
      exact ⟨hspec.1, fun h => iff_of_true (hspec.2 h) trivial⟩
    | datagram pid data =>
      dsimp only [drainPathDatagram]
      split
      · exact ⟨hok, fun h => iff_of_true h trivial⟩
      next st hpath =>
        have hspec := set_of_control_eq hok hpath { st with sendData := st.sendData ++ [data] } rfl
        exact ⟨hspec.1, fun h => iff_of_true (hspec.2 h) trivial⟩
    | drive visits =>
      obtain ⟨hok', hkept⟩ := driveMultipath_spec hok visits
      refine ⟨hok', fun h => hkept.trans ?_⟩
      rw [and_iff_right h]
      exact ⟨fun h _ => h, fun h => h hfailed⟩
    | _ =>
      exact ⟨⟨hok.paths, hok.numbers⟩, fun h => iff_of_true ⟨h.paths, h.fits⟩ trivial⟩

lemma ok_new : new.Ok := ⟨fun _ _ h => (Option.some_ne_none _ h.symm).elim, fun _ _ => rfl⟩

lemma kept_new : new.Kept :=
  ⟨fun _ _ h => (Option.some_ne_none _ h.symm).elim,
    fun _ _ h => (Option.some_ne_none _ h.symm).elim⟩

/-- **No path number is given twice**: the next is free in every state of a run. -/
theorem nextPathID_free (actions : List Action) :
    EachState step (fun c => c.paths c.nextPathID = none) new actions := by
  intro pre _
  have hok := foldlRecOn (motive := Ok) pre _ ok_new fun c hc a _ => (step_spec hc a).1
  exact hok.numbers _ (Nat.le_refl _)

/-- **Path control frames are sent or kept along a run exactly when no packet has two PATH_CHALLENGEs
and, whenever `driveMultipath` takes out responses or makes a challenge, the packet can be sent and the
responses fit into it.** -/
theorem control_frames_kept_iff (actions : List Action) :
    EachState step Kept new actions ↔ EachStep step ActionOk new actions := by
  exact eachState_iff_of_inv Ok (fun c a hc => (step_spec hc a).1)
    (fun c a hc hkept => (step_spec hc a).2 hkept) ok_new kept_new actions

def plainVisit (pid : ℕ) : Visit where
  pid := pid
  hdr := some ⟨8, 2⟩
  maxPacketSize := 1200
  mode := .any
  token := 7
  ack := none
  inlineWrite := false
  drained := (0, 0)
  hdr_bounds := by decide
  size_bound := by decide

/-- Path 0 fills the send queue before `driveMultipath` comes to a path that owes a response. -/
def blockedResponse : List Action :=
  [.confirmHandshake, .joinPath 1, .pathChallenges 1 [5], .sendPackets 64, .drive [plainVisit 1]]

def blockedChallenge : List Action :=
  [.confirmHandshake, .openPath, .sendPackets 64, .drive [plainVisit 1]]

def manyChallenges : List Action :=
  [.confirmHandshake, .joinPath 1] ++ List.replicate 131 (.pathChallenges 1 [5]) ++ [.drive [plainVisit 1]]

/-- The response is lost; the challenge is lost although `challengeSent` is set; and the connection fails
with a packet that is too large. -/
theorem control_frames_lost : ((blockedResponse.foldl step new).paths 1).map
        (fun st => (st.log.received, st.pendingResponses, st.log.handed)) = some ([5], [], []) ∧
      ((blockedChallenge.foldl step new).paths 1).map
        (fun st => (st.challengeSent, st.log.recorded, st.log.handed)) = some (true, [7], []) ∧
      (manyChallenges.foldl step new).failed = some (.pack (.tooLarge 1206 1200)) ∧
      ¬ EachState step Kept new blockedResponse ∧ ¬ EachState step Kept new blockedChallenge ∧
      ¬ EachState step Kept new manyChallenges := by
  have hresponse : ((blockedResponse.foldl step new).paths 1).map
      (fun st => (st.log.received, st.pendingResponses, st.log.handed)) = some ([5], [], []) := by
    decide
  have hchallenge : ((blockedChallenge.foldl step new).paths 1).map
      (fun st => (st.challengeSent, st.log.recorded, st.log.handed)) = some (true, [7], []) := by
    decide
  have hlarge : (manyChallenges.foldl step new).failed = some (.pack (.tooLarge 1206 1200)) := by
    decide +kernel
  refine ⟨hresponse, hchallenge, hlarge, fun h => ?_, fun h => ?_, fun h => ?_⟩
  · obtain ⟨st, hpath, hst⟩ := Option.map_eq_some_iff.mp hresponse
    obtain ⟨hreceived, hpending, hhanded⟩ : st.log.received = [5] ∧ st.pendingResponses = [] ∧
        st.log.handed = [] := by simpa using hst
    have hle := ((h _ prefix_rfl).paths 1 st hpath).responses 5
    rw [hreceived, hpending, ControlLog.answered, hhanded] at hle
    exact absurd hle (by decide)
  · obtain ⟨st, hpath, hst⟩ := Option.map_eq_some_iff.mp hchallenge
    obtain ⟨hsent, -, hhanded⟩ : st.challengeSent = true ∧ st.log.recorded = [7] ∧
        st.log.handed = [] := by simpa using hst
    obtain ⟨tok, -, hmem⟩ := ((h _ prefix_rfl).paths 1 st hpath).challenge hsent
    rw [ControlLog.challenged, hhanded] at hmem
    cases hmem
  · exact (h _ prefix_rfl).fits 1206 1200 hlarge

end MultipathConn

end Iroh.Qng
