import Iroh.Qng.UpdatableAEAD

/-!
# An endpoint and what it has sent and opened

The fields of `updatableAEAD` are numbers without their path.  `Endpoint` keeps the packets next to
them, and `Endpoint.Ok` says which packet each number belongs to: `firstSentWithCurrentKey` is the
number of the first packet sent in the current phase, `firstRcvdWithCurrentKey` of the first one opened,
`largestAcked` of the packet last acknowledged.
-/

namespace Iroh.Qng

open List

namespace UpdatableAEAD

/-! ## The keys of a phase -/

/-- The keys and secrets are those of the key phase. -/
structure Keyed (a : UpdatableAEAD) : Prop where
  send : a.sendAEAD = createAEAD a.keyPhase
  rcv : a.rcvAEAD = createAEAD a.keyPhase
  nextSendSecret : a.nextSendTrafficSecret = a.keyPhase + 1
  nextRcvSecret : a.nextRcvTrafficSecret = a.keyPhase + 1
  nextSend : a.nextSendAEAD = createAEAD (a.keyPhase + 1)
  nextRcv : a.nextRcvAEAD = createAEAD (a.keyPhase + 1)
  prev : ∀ k, a.prevRcvAEAD = some k → k.secret + 1 = a.keyPhase

lemma keyed_new (limit : ℕ) : (new limit).Keyed :=
  ⟨rfl, rfl, rfl, rfl, rfl, rfl, fun k hk => by cases hk⟩

variable {a : UpdatableAEAD}

lemma Keyed.rcv_secret (h : a.Keyed) : a.rcvAEAD.secret = a.keyPhase := congrArg AEAD.secret h.rcv

lemma Keyed.nextRcv_secret (h : a.Keyed) : a.nextRcvAEAD.secret = a.keyPhase + 1 :=
  congrArg AEAD.secret h.nextRcv

lemma Keyed.rollKeys (h : a.Keyed) : a.rollKeys.Keyed where
  send := h.nextSend
  rcv := h.nextRcv
  nextSendSecret := congrArg (· + 1) h.nextSendSecret
  nextRcvSecret := congrArg (· + 1) h.nextRcvSecret
  nextSend := congrArg (fun ts => createAEAD (ts + 1)) h.nextSendSecret
  nextRcv := congrArg (fun ts => createAEAD (ts + 1)) h.nextRcvSecret
  prev := by
    intro k hk
    obtain rfl : a.rcvAEAD = k := Option.some.inj hk
    rw [h.rcv]
    rfl

/-- How `Open` ends, after the expired key is gone. -/
inductive Opening (a : UpdatableAEAD) (p : Packet) (rcvTime pto : ℕ) :
    UpdatableAEAD × Except KeyError Bytes → Prop where
  | failed (count : ℕ) (err : KeyError) :
      Opening a p rcvTime pto ({ a with invalidPacketCount := count }, .error err)
  | prev (k : AEAD) : p.kp ≠ a.bit → a.takesForPrev p.pn = true → a.prevRcvAEAD = some k →
      p.phase = k.secret → p.Genuine → Opening a p rcvTime pto (a, .ok p.body.plaintext)
  | next : p.kp ≠ a.bit → a.takesForPrev p.pn = false → p.phase = a.nextRcvAEAD.secret →
      p.Genuine → (0 < a.keyPhase → a.firstSentWithCurrentKey ≠ none) →
      Opening a p rcvTime pto ({ a.rollKeys.startKeyDropTimer rcvTime pto with
        firstRcvdWithCurrentKey := some p.pn }, .ok p.body.plaintext)
  | current (expiry : Option ℕ) : p.kp = a.bit → p.phase = a.rcvAEAD.secret → p.Genuine →
      Opening a p rcvTime pto ({ a with
        numRcvdWithCurrentKey := a.numRcvdWithCurrentKey + 1
        prevRcvAEADExpiry := expiry
        firstRcvdWithCurrentKey := some (a.firstRcvdWithCurrentKey.getD p.pn) },
        .ok p.body.plaintext)

lemma opening_openWithKeys (a : UpdatableAEAD) (p : Packet) (rcvTime pto : ℕ) :
    Opening a p rcvTime pto (a.openWithKeys p rcvTime pto) := by
  have hfailed : ∀ err, Opening a p rcvTime pto (a, .error err) := .failed a.invalidPacketCount
  unfold openWithKeys
  split
  case isTrue hkp =>
    split
    case isTrue hprev =>
      split
      · exact hfailed _
      case h_2 k hk =>
        split
        · exact hfailed _
        case h_2 dec hdec =>
          obtain ⟨hphase, hgenuine, rfl⟩ := AEAD.openCiphertext_eq_some.mp hdec
          exact .prev k hkp hprev hk hphase hgenuine
    case isFalse hprev =>
      split
      · exact hfailed _
      case h_2 dec hdec =>
        obtain ⟨hphase, hgenuine, rfl⟩ := AEAD.openCiphertext_eq_some.mp hdec
        split
        · exact hfailed _
        case isFalse hallowed =>
          refine .next hkp (by simpa using hprev) hphase hgenuine ?_
          intro hpos hnone
          exact hallowed (by simp [hpos, hnone])
  case isFalse hkp =>
    split
    · exact hfailed _
    case h_2 dec hdec =>
      obtain ⟨hphase, hgenuine, rfl⟩ := AEAD.openCiphertext_eq_some.mp hdec
      have hbit : p.kp = a.bit := by simpa using hkp
      have hcurrent : ∀ expiry, Opening a p rcvTime pto ({ a with
          numRcvdWithCurrentKey := a.numRcvdWithCurrentKey + 1
          prevRcvAEADExpiry := expiry
          firstRcvdWithCurrentKey := some (a.firstRcvdWithCurrentKey.getD p.pn) },
          .ok p.body.plaintext) :=
        fun expiry => .current expiry hbit hphase hgenuine
      dsimp only
      split
      case h_1 first hfirst =>
        rw [hfirst, Option.getD_some, ← hfirst] at hcurrent
        exact hcurrent a.prevRcvAEADExpiry
      case h_2 hfirst =>
        rw [hfirst] at hcurrent
        split
        · exact hcurrent (some (rcvTime + 3 * pto))
        · exact hcurrent a.prevRcvAEADExpiry

lemma opening_openPacket (a : UpdatableAEAD) (p : Packet) (rcvTime pto : ℕ) :
    Opening (a.dropExpired rcvTime) p rcvTime pto (a.openPacket p rcvTime pto) := by
  have hopening := opening_openWithKeys (a.dropExpired rcvTime) p rcvTime pto
  unfold openPacket
  generalize (a.dropExpired rcvTime).openWithKeys p rcvTime pto = r at hopening ⊢
  cases hopening with
  | failed count err =>
    cases err with
    | decryptionFailed =>
      dsimp only
      split
      · exact .failed (count + 1) .aeadLimitReached
      · exact .failed (count + 1) .decryptionFailed
    | _ => exact .failed count _
  | prev k hkp hprev hk hphase hgenuine => exact .prev k hkp hprev hk hphase hgenuine
  | next hkp hprev hphase hgenuine hsent => exact .next hkp hprev hphase hgenuine hsent
  | current expiry hkp hphase hgenuine => exact .current expiry hkp hphase hgenuine

lemma dropExpired_cases (a : UpdatableAEAD) (rcvTime : ℕ) : a.dropExpired rcvTime = a ∨
      a.dropExpired rcvTime = { a with prevRcvAEAD := none, prevRcvAEADExpiry := none } := by
  unfold dropExpired
  split
  · exact .inr rfl
  · exact .inl rfl

lemma Keyed.dropExpired (h : a.Keyed) (rcvTime : ℕ) : (a.dropExpired rcvTime).Keyed := by
  rcases a.dropExpired_cases rcvTime with heq | heq
  · rw [heq]
    exact h
  · rw [heq]
    exact { h with prev := fun k hk => by cases hk }

end UpdatableAEAD

/-! ## Endpoints -/

/-- An endpoint: its keys, and the packets it has sent, opened and had acknowledged, in order. -/
structure Endpoint where
  aead : UpdatableAEAD
  sent : List Packet
  opened : List Packet
  acked : List Packet

namespace Endpoint

def start (invalidPacketLimit : ℕ) : Endpoint := ⟨.new invalidPacketLimit, [], [], []⟩

def firstSent (e : Endpoint) : Option Packet := e.sent.find? (·.phase = e.aead.keyPhase)

def firstOpened (e : Endpoint) : Option Packet := e.opened.find? (·.phase = e.aead.keyPhase)

def keyPhase (e : Endpoint) (intervals : KeyUpdateIntervals) : Endpoint :=
  { e with aead := (e.aead.callKeyPhase intervals).1 }

def confirm (e : Endpoint) : Endpoint := { e with aead := e.aead.setHandshakeConfirmed }

/-- `Seal`.  The numbers of a path increase, so no other is asked for. -/
def sealPacket (e : Endpoint) (pid pn : ℕ) (plaintext : Bytes) : Endpoint :=
  if e.sent.all fun p => p.pid ≠ pid || p.pn < pn then
    let r := e.aead.sealPacket pid pn plaintext
    { e with aead := r.1, sent := e.sent ++ [r.2] }
  else e

def openPacket (e : Endpoint) (p : Packet) (rcvTime pto : ℕ) : Endpoint :=
  let r := e.aead.openPacket p rcvTime pto
  { e with aead := r.1, opened := e.opened ++ if r.2.isOk then [p] else [] }

/-- `SetLargestAcked`, for a packet that was acknowledged. -/
def ack (e : Endpoint) (p : Packet) : Endpoint :=
  let r := e.aead.setLargestAcked p.pn
  { e with aead := r.1, acked := e.acked ++ if r.2.isNone then [p] else [] }

/-- What was sent and opened belongs to phases up to the current one. -/
structure Ok (e : Endpoint) : Prop where
  keyed : e.aead.Keyed
  sentPhase : ∀ p ∈ e.sent, p.phase ≤ e.aead.keyPhase
  sentBit : ∀ p ∈ e.sent, p.kp = p.phase % 2 ∧ p.Genuine
  /-- Later packets are of no earlier phase, and of a higher number if they are on the same path. -/
  sentOrder : e.sent.Pairwise fun p q => p.phase ≤ q.phase ∧ (p.pid = q.pid → p.pn < q.pn)
  firstSent : e.aead.firstSentWithCurrentKey = e.firstSent.map (·.pn)
  openedPhase : ∀ p ∈ e.opened, p.phase ≤ e.aead.keyPhase
  firstOpened : e.aead.firstRcvdWithCurrentKey = e.firstOpened.map (·.pn)
  ackedSent : ∀ p ∈ e.acked, p ∈ e.sent
  lastAcked : e.aead.largestAcked = e.acked.getLast?.map (·.pn)

lemma ok_start (limit : ℕ) : (start limit).Ok where
  keyed := UpdatableAEAD.keyed_new limit
  sentPhase := by simp [start]
  sentBit := by simp [start]
  sentOrder := .nil
  firstSent := rfl
  openedPhase := by simp [start]
  firstOpened := rfl
  ackedSent := by simp [start]
  lastAcked := rfl

lemma find?_next_phase {l : List Packet} (h : ∀ p ∈ l, p.phase ≤ k) :
    l.find? (·.phase = k + 1) = none := by
  rw [find?_eq_none]
  intro p hp hphase
  have hle := h p hp
  simp only [decide_eq_true_eq] at hphase
  omega

variable {e : Endpoint} {p : Packet}

lemma find?_snoc (l : List Packet) (hp : p.phase = k) :
    (l ++ [p]).find? (·.phase = k) = (l.find? (·.phase = k)).or (some p) := by
  rw [find?_append, find?_singleton, if_pos (decide_eq_true hp)]

variable (h : e.Ok)
include h

lemma Ok.of_aead {opened : List Packet} (hkeyed : a.Keyed) (hphase : a.keyPhase = e.aead.keyPhase)
    (hsent : a.firstSentWithCurrentKey = e.aead.firstSentWithCurrentKey)
    (hacked : a.largestAcked = e.aead.largestAcked) (hopened : ∀ p ∈ opened, p.phase ≤ e.aead.keyPhase)
    (hrcvd : a.firstRcvdWithCurrentKey = (opened.find? (·.phase = e.aead.keyPhase)).map (·.pn)) :
    Ok { e with aead := a, opened := opened } where
  keyed := hkeyed
  sentPhase := fun p hp => hphase ▸ h.sentPhase p hp
  sentBit := h.sentBit
  sentOrder := h.sentOrder
  firstSent := by
    rw [Endpoint.firstSent, hphase]
    exact hsent.trans h.firstSent
  openedPhase := fun p hp => hphase ▸ hopened p hp
  firstOpened := by
    rw [Endpoint.firstOpened, hphase]
    exact hrcvd
  ackedSent := h.ackedSent
  lastAcked := hacked.trans h.lastAcked

lemma Ok.rollKeys : Ok { e with aead := e.aead.rollKeys } :=
  { h with
    keyed := h.keyed.rollKeys
    sentPhase := fun p hp => (h.sentPhase p hp).trans (Nat.le_succ _)
    firstSent := (congrArg (Option.map _) (find?_next_phase h.sentPhase)).symm
    openedPhase := fun p hp => (h.openedPhase p hp).trans (Nat.le_succ _)
    firstOpened := (congrArg (Option.map _) (find?_next_phase h.openedPhase)).symm }

lemma Ok.keyPhase (intervals : KeyUpdateIntervals) : (e.keyPhase intervals).Ok := by
  unfold Endpoint.keyPhase UpdatableAEAD.callKeyPhase
  split
  · exact h.rollKeys
  · exact h

lemma Ok.confirm : e.confirm.Ok := { h with keyed := { h.keyed with } }

lemma Ok.sealPacket (pid pn : ℕ) (plaintext : Bytes) : (e.sealPacket pid pn plaintext).Ok := by
  unfold Endpoint.sealPacket
  split
  case isFalse => exact h
  case isTrue hfresh =>
    have hphase : (e.aead.sealPacket pid pn plaintext).2.phase = e.aead.keyPhase :=
      congrArg AEAD.secret h.keyed.send
    refine { h with
      keyed := { h.keyed with }
      sentPhase := forall_mem_append.mpr ⟨h.sentPhase, forall_mem_singleton.mpr hphase.le⟩
      sentBit := forall_mem_append.mpr ⟨h.sentBit, forall_mem_singleton.mpr ?_⟩
      sentOrder := pairwise_append.mpr ⟨h.sentOrder, pairwise_singleton _ _, ?_⟩
      firstSent := ?_
      ackedSent := fun p hp => mem_append_left _ (h.ackedSent p hp) }
    · rw [hphase]
      exact ⟨rfl, rfl, rfl⟩
    · intro p hp q hq
      rw [mem_singleton.mp hq]
      refine ⟨(h.sentPhase p hp).trans hphase.ge, fun hpid => ?_⟩
      have hpid' : p.pid = pid := hpid
      have hlt : p.pn < pn := by simpa [hpid'] using all_eq_true.mp hfresh p hp
      exact hlt
    · -- the new packet is the first of its phase only if there was none
      refine Eq.trans ?_ (congrArg (Option.map _) (find?_snoc e.sent hphase)).symm
      dsimp only [UpdatableAEAD.sealPacket]
      rw [h.firstSent, Endpoint.firstSent]
      cases e.sent.find? (·.phase = e.aead.keyPhase) with
      | _ => rfl

lemma Ok.ack (hp : p ∈ e.sent) : (e.ack p).Ok := by
  unfold Endpoint.ack UpdatableAEAD.setLargestAcked
  split
  case isTrue =>
    have hsame : Ok { e with acked := e.acked ++ [] } := by
      rw [append_nil]
      exact h
    exact hsame
  case isFalse =>
    exact { h with
      keyed := { h.keyed with }
      ackedSent := forall_mem_append.mpr ⟨h.ackedSent, forall_mem_singleton.mpr hp⟩
      lastAcked := by simp }

lemma Ok.open_current (hp : p.phase = e.aead.keyPhase) (hkeyed : a.Keyed)
    (hphase : a.keyPhase = e.aead.keyPhase)
    (hsent : a.firstSentWithCurrentKey = e.aead.firstSentWithCurrentKey)
    (hrcvd : a.firstRcvdWithCurrentKey = some (e.aead.firstRcvdWithCurrentKey.getD p.pn))
    (hacked : a.largestAcked = e.aead.largestAcked) :
    Ok { e with aead := a, opened := e.opened ++ [p] } := by
  refine h.of_aead hkeyed hphase hsent hacked
    (forall_mem_append.mpr ⟨h.openedPhase, forall_mem_singleton.mpr hp.le⟩) ?_
  rw [hrcvd, h.firstOpened, find?_snoc e.opened hp, Endpoint.firstOpened]
  cases e.opened.find? (·.phase = e.aead.keyPhase) with
  | _ => rfl

lemma Ok.openPacket (p : Packet) (rcvTime pto : ℕ) : (e.openPacket p rcvTime pto).Ok := by
  have hdrop : Ok { e with aead := e.aead.dropExpired rcvTime } := by
    have hkeyed := h.keyed.dropExpired rcvTime
    rcases e.aead.dropExpired_cases rcvTime with heq | heq
    · rw [heq]
      exact h
    · rw [heq] at hkeyed ⊢
      exact { h with keyed := hkeyed }
  have hopening := e.aead.opening_openPacket p rcvTime pto
  unfold Endpoint.openPacket
  generalize e.aead.openPacket p rcvTime pto = r at hopening ⊢
  generalize e.aead.dropExpired rcvTime = a at hdrop hopening
  have hkeyed := hdrop.keyed
  cases hopening with
  | failed count err =>
    have hfailed : Ok { e with
        aead := { a with invalidPacketCount := count }, opened := e.opened ++ [] } := by
      rw [append_nil]
      exact { hdrop with keyed := { hkeyed with } }
    exact hfailed
  | prev k hkp hprev hk hphase hgenuine =>
    -- the packet is of an earlier phase
    have hlt : p.phase < a.keyPhase := by
      rw [hphase]
      exact (hkeyed.prev k hk).le
    have hfind : (e.opened ++ [p]).find? (·.phase = a.keyPhase) =
        e.opened.find? (·.phase = a.keyPhase) := by
      rw [find?_append, find?_singleton, if_neg (by simpa using hlt.ne), Option.or_none]
    exact hdrop.of_aead hkeyed rfl rfl rfl
      (forall_mem_append.mpr ⟨hdrop.openedPhase, forall_mem_singleton.mpr hlt.le⟩)
      (hdrop.firstOpened.trans (congrArg (Option.map _) hfind.symm))
  | next hkp hprev hphase hgenuine hsent =>
    -- the phase is rolled first; nothing was opened in the new one
    have hroll := hdrop.rollKeys
    have hnew : p.phase = a.rollKeys.keyPhase := by
      rw [hphase, hkeyed.nextRcv_secret]
      rfl
    exact hroll.open_current hnew { hroll.keyed with } rfl rfl rfl rfl
  | current expiry hkp hphase hgenuine =>
    have hnow : p.phase = a.keyPhase := by
      rw [hphase, hkeyed.rcv_secret]
    exact hdrop.open_current hnow { hkeyed with } rfl rfl rfl rfl

lemma Ok.number_lt (hp : p ∈ e.sent) (hq : q ∈ e.sent) (hphase : p.phase < q.phase)
    (hpid : p.pid = q.pid) : p.pn < q.pn := by
  obtain ⟨i, hi, rfl⟩ := getElem_of_mem hp
  obtain ⟨j, hj, rfl⟩ := getElem_of_mem hq
  have horder := pairwise_iff_getElem.mp h.sentOrder
  rcases Nat.lt_trichotomy i j with hlt | rfl | hgt
  · exact (horder i j hi hj hlt).2 hpid
  · exact absurd hphase (Nat.lt_irrefl _)
  · exact absurd (horder j i hj hi hgt).1 (Nat.not_le.mpr hphase)

lemma Ok.firstSent_eq_none_iff : e.aead.firstSentWithCurrentKey = none ↔ e.firstSent = none := by
  rw [h.firstSent, Option.map_eq_none_iff]

end Endpoint

end Iroh.Qng
