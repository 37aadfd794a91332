import Iroh.Common.Runs
import Iroh.Qng.AckedPackets

/-!
# Bytes in flight

Reference: `internal/qng/internal/ackhandler/sent_packet_handler.go`, `packet.go`, `ack_eliciting.go`.

The bytes in flight of a path are to be the lengths of its packets that elicit an acknowledgement and
were neither acknowledged nor declared lost.  `IsAckEliciting` of a packet asks whether it has any
frames.  That is right for the frames of path 0, where the ACK is kept apart from the frames; on other
paths a PATH_ACK is one of the frames, and a packet with nothing else counts although no one will
acknowledge it.
-/

namespace Iroh.Qng.AckHandler

open List Function

/-! ## What is in flight -/

def PathLog.Open (log : PathLog) (pn : ℕ) : Prop := (∀ f ∈ log.acks, ¬ f.Acks pn) ∧ pn ∉ log.lost

instance PathLog.decidableOpen (log : PathLog) (pn : ℕ) : Decidable (log.Open pn) :=
  inferInstanceAs (Decidable (_ ∧ _))

def Packet.elicitsAck (p : Packet) : Bool :=
  p.streamFrame.isSome || !p.streamFrames.isEmpty || hasAckElicitingFrames p.frames

def PathLog.inFlight (log : PathLog) : ℕ :=
  totalBy (fun e => e.2.length) (log.sent.filter fun e =>
    !e.2.isPathProbePacket && decide (log.Open e.1) && e.2.elicitsAck)

def countedLength (e : ℕ × Packet) : ℕ := if e.2.includedInBytesInFlight then e.2.length else 0

/-- A packet counts as in flight exactly if it should. -/
structure Packet.Registered (pid : ℕ) (p : Packet) : Prop where
  probe : p.isPathProbePacket = true → p.includedInBytesInFlight = false
  packet : p.isPathProbePacket = false → p.includedInBytesInFlight = p.isAckEliciting ∧ p.pathID = pid

lemma Packet.Registered.pathID_of_included {p : Packet} (h : p.Registered pid)
    (hincluded : p.includedInBytesInFlight = true) : p.pathID = pid := by
  cases hprobe : p.isPathProbePacket with
  | true =>
    rw [h.probe hprobe] at hincluded
    cases hincluded
  | false => exact (h.packet hprobe).2

/-- The bytes in flight of a path are those of the packets in its history and `pending` more. -/
structure AppDataPath.Counted (R : Packet → Prop) (pid pending next : ℕ) (path : AppDataPath) :
    Prop where
  history : path.history.Ok
  inOrder : path.history.Next next
  packets : ∀ e ∈ path.history.entries, e.2.Registered pid
  probes : ∀ e ∈ path.history.pathProbePackets, e.2.includedInBytesInFlight = false
  bytes : path.bytesInFlight = totalBy countedLength path.history.entries + pending
  tracked : path.history.entries.filter (fun e => !e.2.isPathProbePacket) =
    path.log.sent.filter fun e => !e.2.isPathProbePacket && decide (path.log.Open e.1)
  closed : ∀ pn, ¬ path.log.Open pn → pn < next
  largestSent : ∀ pn, path.largestSent = some pn → pn < next
  sent : ∀ e ∈ path.log.sent, R e.2

namespace AppDataPath.Counted

variable {R : Packet → Prop} {pid pending next : ℕ} {path path' : AppDataPath}

lemma new (R : Packet → Prop) (pid r : ℕ) :
    (AppDataPath.new r).Counted R pid 0 (AppDataPath.new r).pns.next where
  history := SentPacketHistory.ok_new
  inOrder := fun highest hhighest => by cases hhighest
  packets := fun e he => absurd he not_mem_nil
  probes := fun e he => absurd he not_mem_nil
  bytes := rfl
  tracked := rfl
  closed := fun pn hclosed => absurd ⟨fun f hf => absurd hf not_mem_nil, not_mem_nil⟩ hclosed
  largestSent := fun pn hpn => by cases hpn
  sent := fun e he => absurd he not_mem_nil

section

variable (h : path.Counted R pid pending next)
include h

lemma of_eq (hhistory : path'.history = path.history)
    (hbytes : path'.bytesInFlight = path.bytesInFlight) (hlog : path'.log = path.log)
    (hlargest : path'.largestSent = path.largestSent) : path'.Counted R pid pending next where
  history := hhistory ▸ h.history
  inOrder := hhistory ▸ h.inOrder
  packets := hhistory ▸ h.packets
  probes := hhistory ▸ h.probes
  bytes := by rw [hbytes, hhistory]; exact h.bytes
  tracked := by rw [hlog, hhistory]; exact h.tracked
  closed := hlog ▸ h.closed
  largestSent := hlargest ▸ h.largestSent
  sent := hlog ▸ h.sent

lemma entries_lt (he : e ∈ path.history.entries) : e.1 < next := by
  obtain ⟨highest, hhighest, hle⟩ := h.history.entries_le he
  have hnext := h.inOrder highest hhighest
  omega

lemma open_next : path.log.Open next :=
  Decidable.not_not.mp fun hclosed => Nat.lt_irrefl _ (h.closed next hclosed)

lemma extend (logged : List (ℕ × Packet)) (hhistory : path.history.Extended next added path'.history)
    (hadded : ∀ e ∈ added, e.2.Registered pid) (hprobes : ∀ e ∈ path'.history.pathProbePackets,
      e ∈ path.history.pathProbePackets ∨ e.2.includedInBytesInFlight = false)
    (hbytes : path'.bytesInFlight = path.bytesInFlight + totalBy countedLength added)
    (hlog : path'.log = { path.log with sent := path.log.sent ++ logged })
    (hsame : added.filter (fun e => !e.2.isPathProbePacket) =
      logged.filter fun e => !e.2.isPathProbePacket && decide (path.log.Open e.1))
    (hlargest : path'.largestSent = path.largestSent ∨ path'.largestSent = some next)
    (hR : ∀ e ∈ logged, R e.2) : path'.Counted R pid pending (next + 1) where
  history := hhistory.ok
  inOrder := fun highest hh => by rw [Option.some.inj (hhistory.highest.symm.trans hh)]
  packets := by
    rw [hhistory.entries]
    exact forall_mem_append.mpr ⟨h.packets, hadded⟩
  probes := fun e he => (hprobes e he).elim (h.probes e) id
  bytes := by
    rw [hbytes, h.bytes, hhistory.entries, totalBy_append]
    omega
  tracked := by
    rw [hhistory.entries, hlog, filter_append, filter_append]
    exact congr (congrArg _ h.tracked) hsame
  closed := by
    rw [hlog]
    exact fun pn hclosed => Nat.lt_succ_of_lt (h.closed pn hclosed)
  largestSent := by
    intro pn hpn
    rcases hlargest with hlargest | hlargest
    · exact Nat.lt_succ_of_lt (h.largestSent pn (hlargest ▸ hpn))
    · rw [Option.some.inj (hlargest.symm.trans hpn)]
      exact Nat.lt_succ_self pn
  sent := by
    rw [hlog]
    exact forall_mem_append.mpr ⟨h.sent, hR⟩

end

variable {E : HandlerError → Prop}

variable (h : path.Counted R pid pending next)
include h

lemma skipped :
    Ends E (fun history => ({ path with history := history } : AppDataPath).Counted R pid pending
      (next + 1)) (path.history.skippedPacket next) := by
  refine (h.history.skippedPacket h.inOrder).mono ?_
  rintro history ⟨hextended, hprobes⟩
  refine h.extend [] hextended ?_ (fun e he => .inl (hprobes ▸ he)) rfl
    (by rw [append_nil]) rfl (.inl rfl) ?_
  · exact fun e he => absurd he not_mem_nil
  · exact fun e he => absurd he not_mem_nil

lemma leave {history : SentPacketHistory} {log : PathLog}
    [DecidablePred gone] {bytes : ℕ} (hhistory : path.history.Without nums history)
    (hbytes : totalBy countedLength history.entries + bytes =
      totalBy countedLength path.history.entries)
    (hnums : ∀ e ∈ path.history.entries, e.2.isPathProbePacket = false → (e.1 ∈ nums ↔ gone e.1))
    (hsent : log.sent = path.log.sent) (hopen : ∀ pn, log.Open pn ↔ path.log.Open pn ∧ ¬ gone pn)
    (hgone : ∀ pn, gone pn → pn < next) :
    ({ path with history := history, log := log } : AppDataPath).Counted R pid (pending + bytes)
      next where
  history := hhistory.ok
  inOrder := fun highest hh => h.inOrder highest (hhistory.highest ▸ hh)
  packets := by
    rw [hhistory.entries]
    exact fun e he => h.packets e (mem_of_mem_filter he)
  probes := fun e he => h.probes e (hhistory.probes e he)
  bytes := by
    have hcounted := h.bytes
    dsimp only
    omega
  tracked := by
    have hstay : history.entries.filter (fun e => !e.2.isPathProbePacket) =
        (path.history.entries.filter fun e => !e.2.isPathProbePacket).filter fun e =>
          decide (¬ gone e.1) := by
      rw [hhistory.entries, filter_filter, filter_filter]
      refine filter_congr fun e he => ?_
      cases hprobe : e.2.isPathProbePacket with
      | true => simp
      | false => simp [hnums e he hprobe]
    rw [hstay, h.tracked, hsent, filter_filter]
    refine filter_congr fun e _ => ?_
    rw [Bool.eq_iff_iff]
    simp only [Bool.and_eq_true, decide_eq_true_eq, hopen]
    tauto
  closed := by
    intro pn hclosed
    rw [hopen, not_and_not_right] at hclosed
    by_cases hpn : path.log.Open pn
    · exact hgone pn (hclosed hpn)
    · exact h.closed pn hpn
  largestSent := h.largestSent
  sent := fun e he => h.sent e (hsent ▸ he)

lemma declareLost {e : ℕ × Packet} (he : e ∈ path.history.entries) :
    Ends E (fun history => path.history.Without [e.1] history ∧ ({ path with
          history := history
          log := { path.log with lost := path.log.lost ++ [e.1] } } : AppDataPath).Counted
        R pid (pending + countedLength e) next) (path.history.declareLost e.1) := by
  refine (h.history.declareLost he).mono fun history hwithout => ⟨hwithout, ?_⟩
  have hopen : ∀ pn, ({ path.log with lost := path.log.lost ++ [e.1] } : PathLog).Open pn ↔
      path.log.Open pn ∧ ¬ pn = e.1 := by
    intro pn
    simp [PathLog.Open, and_assoc]
  refine h.leave hwithout ?_ (fun _ _ _ => mem_singleton) rfl hopen ?_
  · simp only [hwithout.entries, mem_singleton]
    exact totalBy_filter_ne countedLength path.history.entries_pairwise he
  · rintro pn rfl
    exact h.entries_lt he

end AppDataPath.Counted

namespace SentPacketHandler

/-! ## The handler -/

/-- The counter of a path is the sum over its packets in flight. -/
structure Inv (R : Packet → Prop) (h : SentPacketHandler) (pid pending : ℕ) : Prop where
  zero : (h.appDataPaths 0).isSome = true
  present : (h.appDataPaths pid).isSome = true
  counted : ∀ q path, h.appDataPaths q = some path →
    path.Counted R q (if q = pid then pending else 0) path.pns.next

variable {R : Packet → Prop} {E : HandlerError → Prop} {h h' : SentPacketHandler}
  {pid pending next q : ℕ} {path : AppDataPath}

lemma set_self (h : SentPacketHandler) (pid : ℕ) (path : AppDataPath) :
    (h.set pid path).appDataPaths pid = some path := update_self ..

lemma set_of_ne (h : SentPacketHandler) (path : AppDataPath) (hne : q ≠ pid) :
    (h.set pid path).appDataPaths q = h.appDataPaths q := update_of_ne hne ..

lemma isSome_set (hq : (h.appDataPaths q).isSome = true) :
    ((h.set pid path).appDataPaths q).isSome = true := by
  by_cases hne : q = pid
  · rw [hne, set_self]
    rfl
  · rw [set_of_ne h path hne]
    exact hq

lemma Inv.of_get (hinv : Inv R h pid pending) (hpath : h.appDataPaths pid = some path) :
    path.Counted R pid pending path.pns.next := by
  have hcounted := hinv.counted pid path hpath
  rw [if_pos rfl] at hcounted
  exact hcounted

lemma Inv.getAppDataPath (hinv : Inv R h pid pending) :
    Ends E (fun path => h.appDataPaths pid = some path ∧
      path.Counted R pid pending path.pns.next) (h.getAppDataPath pid) := by
  obtain ⟨path, hpath⟩ := Option.isSome_iff_exists.mp hinv.present
  unfold SentPacketHandler.getAppDataPath
  rw [hpath]
  exact ⟨rfl, hinv.of_get hpath⟩

lemma Inv.set (hinv : Inv R h pid pending)
    (hpath : path.Counted R pid pending' path.pns.next) : Inv R (h.set pid path) pid pending' where
  zero := isSome_set hinv.zero
  present := isSome_set hinv.present
  counted := by
    intro q path' hq
    by_cases hne : q = pid
    · subst hne
      rw [set_self] at hq
      rw [if_pos rfl, ← Option.some.inj hq]
      exact hpath
    · rw [set_of_ne h path hne] at hq
      have hcounted := hinv.counted q path' hq
      rw [if_neg hne] at hcounted ⊢
      exact hcounted

lemma Inv.on (hinv : Inv R h pid 0) (hq : (h.appDataPaths q).isSome = true) : Inv R h q 0 where
  zero := hinv.zero
  present := hq
  counted := by
    intro q' path' hq'
    have hcounted := hinv.counted q' path' hq'
    rw [ite_self] at hcounted ⊢
    exact hcounted

lemma Inv.onZero (hinv : Inv R h pid 0) : Inv R h 0 0 := hinv.on hinv.zero

def InHistory (h : SentPacketHandler) (pid : ℕ) (e : ℕ × Packet) : Prop :=
  ∃ path, h.appDataPaths pid = some path ∧ e ∈ path.history.entries

variable {e : ℕ × Packet} {l : List (ℕ × Packet)}

lemma InHistory.mem (he : h.InHistory pid e) (hpath : h.appDataPaths pid = some path) :
    e ∈ path.history.entries := by
  obtain ⟨path', hpath', he⟩ := he
  rw [Option.some.inj (hpath.symm.trans hpath')]
  exact he

lemma Inv.registered (hinv : Inv R h pid pending) (he : h.InHistory pid e) : e.2.Registered pid := by
  obtain ⟨path, hpath, he⟩ := he
  exact (hinv.counted pid path hpath).packets e he

/-! ## Losing packets -/

lemma declareLost_spec (hinv : Inv R h pid pending) (he : h.InHistory pid e) :
    Ends E (fun h' => Inv R h' pid (pending + countedLength e) ∧
      ∀ e', h.InHistory pid e' → e'.1 ≠ e.1 → h'.InHistory pid e') (h.declareLost pid e.1) := by
  refine hinv.getAppDataPath.bind ?_
  rintro path ⟨hpath, hcounted⟩
  refine (hcounted.declareLost (he.mem hpath)).bind ?_
  rintro history ⟨hwithout, hcounted'⟩
  refine ⟨hinv.set hcounted', fun e' he' hne => ⟨_, set_self .., ?_⟩⟩
  rw [hwithout.entries, mem_filter, decide_eq_true_eq, mem_singleton]
  exact ⟨he'.mem hpath, hne⟩

lemma removeFromBytesInFlight_spec (hinv : Inv R h pid (pending + countedLength e))
    (he : e.2.includedInBytesInFlight = true → e.2.pathID = pid) :
    Ends E (fun h' => Inv R h' pid pending ∧ ∀ e', h.InHistory pid e' → h'.InHistory pid e')
      (h.removeFromBytesInFlight e.2) := by
  unfold removeFromBytesInFlight
  by_cases hincluded : e.2.includedInBytesInFlight = true
  · have hlength : countedLength e = e.2.length := if_pos hincluded
    rw [if_pos hincluded, he hincluded, hinv.present]
    refine hinv.getAppDataPath.bind ?_
    rintro path ⟨hpath, hcounted⟩
    have hbytes := hcounted.bytes
    rw [if_neg (by omega)]
    refine ⟨hinv.set { hcounted with bytes := ?_ }, fun e' he' => ⟨_, set_self .., (he'.mem hpath :)⟩⟩
    dsimp only
    omega
  · have hlength : countedLength e = 0 := if_neg hincluded
    rw [hlength] at hinv
    rw [if_neg hincluded]
    exact ⟨hinv, fun e' he' => he'⟩

def loseBytes (h : SentPacketHandler) (pid : ℕ) (e : ℕ × Packet) :
    Except HandlerError SentPacketHandler := do
  let h ← h.declareLost pid e.1
  h.removeFromBytesInFlight e.2

lemma loseBytes_spec (hinv : Inv R h pid pending) (he : h.InHistory pid e) :
    Ends E (fun h' => Inv R h' pid pending ∧
      ∀ e', h.InHistory pid e' → e'.1 ≠ e.1 → h'.InHistory pid e') (h.loseBytes pid e) := by
  refine (declareLost_spec hinv he).bind ?_
  rintro h₁ ⟨hinv₁, hothers₁⟩
  refine (removeFromBytesInFlight_spec hinv₁ (hinv.registered he).pathID_of_included).mono ?_
  rintro h₂ ⟨hinv₂, hothers₂⟩
  exact ⟨hinv₂, fun e' he' hne => hothers₂ e' (hothers₁ e' he' hne)⟩

lemma removeFromBytesInFlight_of_not (h : SentPacketHandler)
    (hp : p.includedInBytesInFlight = false) : h.removeFromBytesInFlight p = .ok h := by
  unfold removeFromBytesInFlight
  rw [hp]
  rfl

lemma queueFramesForRetransmission_eq (hp : p.isAckEliciting = true) :
    queueFramesForRetransmission p = .ok () := by
  unfold queueFramesForRetransmission
  rw [if_neg]
  · rfl
  · intro hempty
    simp only [Bool.and_eq_true, decide_eq_true_eq, Option.isNone_iff_eq_none] at hempty
    simp [Packet.isAckEliciting, hempty] at hp

lemma losePacket_eq (he : e.2.Registered pid) : h.losePacket pid e = h.loseBytes pid e := by
  refine bind_congr fun h₁ => ?_
  cases hprobe : e.2.isPathProbePacket with
  | true => exact (removeFromBytesInFlight_of_not h₁ (he.probe hprobe)).symm
  | false =>
    have hincluded := (he.packet hprobe).1
    cases helicit : e.2.isAckEliciting with
    | true =>
      rw [queueFramesForRetransmission_eq helicit]
      exact bind_pure _
    | false =>
      rw [helicit] at hincluded
      exact (removeFromBytesInFlight_of_not h₁ hincluded).symm

lemma detectLostLoop_spec (now lossDelay largestAcked : ℕ) (difference : ℕ → ℕ)
    (hinv : Inv R h pid pending) (hsorted : l.Pairwise fun e e' => e.1 < e'.1)
    (hl : ∀ e ∈ l, h.InHistory pid e) : Ends E (Inv R · pid pending)
      (detectLostLoop now lossDelay pid largestAcked difference l h) := by
  induction l generalizing h with
  | nil => exact hinv
  | cons e l ih =>
    obtain ⟨hlt, hsorted⟩ := pairwise_cons.mp hsorted
    obtain ⟨he, hl⟩ := forall_mem_cons.mp hl
    unfold detectLostLoop
    split
    · exact hinv
    · split
      · rw [losePacket_eq (hinv.registered he)]
        refine (loseBytes_spec hinv he).bind ?_
        rintro h₁ ⟨hinv₁, hothers⟩
        exact ih hinv₁ hsorted fun e' he' => hothers e' (hl e' he') (hlt e' he').ne'
      · refine hinv.getAppDataPath.bind ?_
        rintro path ⟨hpath, hcounted⟩
        exact ih (hinv.set (hcounted.of_eq rfl rfl rfl rfl)) hsorted fun e' he' =>
          ⟨_, set_self .., ((hl e' he').mem hpath :)⟩

lemma detectLostPackets_spec (now lossDelay : ℕ) (hinv : Inv R h pid pending) :
    Ends E (Inv R · pid pending) (h.detectLostPackets now lossDelay pid) := by
  refine hinv.getAppDataPath.bind ?_
  rintro path ⟨hpath, hcounted⟩
  have hinv' : Inv R (h.set pid { path with lossTime := none }) pid pending :=
    hinv.set (hcounted.of_eq rfl rfl rfl rfl)
  split
  · exact hinv'
  · exact detectLostLoop_spec _ _ _ _ hinv' path.history.entries_pairwise fun e he =>
      ⟨_, set_self .., he⟩

lemma detectLostPathProbes_spec (now : ℕ) (hinv : Inv R h pid pending) :
    Ends E (Inv R · pid pending) (h.detectLostPathProbes now) := by
  obtain ⟨path, hpath⟩ := Option.isSome_iff_exists.mp hinv.zero
  have hcounted := hinv.counted 0 path hpath
  unfold detectLostPathProbes SentPacketHandler.getAppDataPath
  rw [hpath]
  refine ⟨isSome_set hinv.zero, isSome_set hinv.present, ?_⟩
  intro q path' hq
  by_cases hne : q = 0
  · subst hne
    cases hq
    exact { hcounted with
      history := ⟨hcounted.history.window, hcounted.history.head, hcounted.history.count⟩
      probes := fun e he => hcounted.probes e (mem_of_mem_filter he) }
  · rw [set_of_ne _ _ hne] at hq
    exact hinv.counted q path' hq

lemma declareLostLoop_cons (he : e.2.Registered pid) :
    declareLostLoop pid (e :: l) h = h.loseBytes pid e >>= declareLostLoop pid l := by
  unfold declareLostLoop loseBytes
  rw [bind_assoc]
  refine bind_congr fun h₁ => ?_
  cases hprobe : e.2.isPathProbePacket with
  | true =>
    rw [removeFromBytesInFlight_of_not h₁ (he.probe hprobe)]
    rfl
  | false =>
    refine bind_congr fun h₂ => ?_
    cases helicit : e.2.isAckEliciting with
    | true =>
      rw [queueFramesForRetransmission_eq helicit]
      rfl
    | false => rfl

lemma declareLostLoop_spec (hinv : Inv R h pid pending)
    (hsorted : l.Pairwise fun e e' => e.1 < e'.1) (hl : ∀ e ∈ l, h.InHistory pid e) :
    Ends E (Inv R · pid pending) (declareLostLoop pid l h) := by
  induction l generalizing h with
  | nil => exact hinv
  | cons e l ih =>
    obtain ⟨hlt, hsorted⟩ := pairwise_cons.mp hsorted
    obtain ⟨he, hl⟩ := forall_mem_cons.mp hl
    rw [declareLostLoop_cons (hinv.registered he)]
    refine (loseBytes_spec hinv he).bind ?_
    rintro h₁ ⟨hinv₁, hothers⟩
    exact ih hinv₁ hsorted fun e' he' => hothers e' (hl e' he') (hlt e' he').ne'

lemma declareAppDataPathLost_spec (hinv : Inv R h pid pending) :
    Ends E (Inv R · pid pending) (h.declareAppDataPathLost pid) := by
  obtain ⟨path, hpath⟩ := Option.isSome_iff_exists.mp hinv.present
  unfold declareAppDataPathLost
  rw [hpath]
  exact declareLostLoop_spec hinv path.history.entries_pairwise fun e he => ⟨path, hpath, he⟩

lemma queueProbePacket_spec (hinv : Inv R h 0 pending) :
    Ends E (Inv R · 0 pending) h.queueProbePacket := by
  refine hinv.getAppDataPath.bind ?_
  rintro path ⟨hpath, -⟩
  cases hfirst : path.history.firstOutstanding with
  | none => exact hinv
  | some e =>
    obtain ⟨hmem, houtstanding⟩ := SentPacketHistory.firstOutstanding_mem hfirst
    simp only [Packet.outstanding, Bool.and_eq_true] at houtstanding
    have he : h.InHistory 0 e := ⟨path, hpath, hmem⟩
    refine (declareLost_spec hinv he).bind ?_
    rintro h₁ ⟨hinv₁, -⟩
    refine (removeFromBytesInFlight_spec hinv₁ (hinv.registered he).pathID_of_included).bind ?_
    rintro h₂ ⟨hinv₂, -⟩
    rw [queueFramesForRetransmission_eq houtstanding.2]
    exact hinv₂

/-! ## Acknowledgements -/

lemma removeAckedBytes_spec (hinv : Inv R h pid (totalBy countedLength l))
    (hl : ∀ e ∈ l, e.2.includedInBytesInFlight = true → e.2.pathID = pid) :
    Ends E (Inv R · pid 0) (removeAckedBytes l h) := by
  induction l generalizing h with
  | nil => exact hinv
  | cons e l ih =>
    obtain ⟨he, hl⟩ := forall_mem_cons.mp hl
    rw [totalBy, Nat.add_comm] at hinv
    exact (removeFromBytesInFlight_spec hinv he).bind fun h₁ hinv₁ => ih hinv₁.1 hl

variable {ack : AckFrame} {acked : List (ℕ × Packet)} {history : SentPacketHistory}

lemma acked_weight (hcounted : path.Counted R pid 0 next)
    (hacked : Acked ack path.history.entries path.history acked history) (he : e ∈ acked) :
    (∃ e' ∈ path.history.entries, e'.1 = e.1 ∧ countedLength e' = countedLength e) ∧
      (e.2.includedInBytesInFlight = true → e.2.pathID = pid) := by
  obtain ⟨e', he', hnum, hsource⟩ := hacked.source e he
  have hregistered := hcounted.packets e' he'
  rcases hsource with rfl | ⟨hprobe, hmem⟩
  · exact ⟨⟨e', he', rfl, rfl⟩, hregistered.pathID_of_included⟩
  · have hout := hcounted.probes e hmem
    refine ⟨⟨e', he', hnum, ?_⟩, fun hincluded => ?_⟩
    · unfold countedLength
      rw [hregistered.probe hprobe, hout]
      rfl
    · cases hout.symm.trans hincluded

lemma acked_mem_iff (hacked : Acked ack path.history.entries path.history acked history)
    (he : e ∈ path.history.entries) (hprobe : e.2.isPathProbePacket = false) :
    e.1 ∈ acked.map Prod.fst ↔ ack.Acks e.1 := by
  rw [← hacked.acked_iff e he hprobe]
  constructor
  · intro hmem
    obtain ⟨a, ha, hnum⟩ := mem_map.mp hmem
    obtain ⟨e', he', hnum', hsource⟩ := hacked.source a ha
    obtain rfl : e' = e := eq_of_mem_slotEntries he' he (hnum'.trans hnum)
    rcases hsource with rfl | ⟨hprobe', -⟩
    · exact ha
    · cases hprobe.symm.trans hprobe'
  · exact fun hmem => mem_map_of_mem hmem

lemma detectAndRemoveAckedPackets_spec (hE : ∀ m, E (.protocolViolation m))
    (hcounted : path.Counted R pid 0 next) (hack : ∀ pn, ack.Acks pn → pn < next) :
    Ends E (fun r => r.2.pns = path.pns ∧ r.2.Counted R pid (totalBy countedLength r.1) next ∧
        ∀ e ∈ r.1, e.2.includedInBytesInFlight = true → e.2.pathID = pid)
      (detectAndRemoveAckedPackets path ack) := by
  unfold detectAndRemoveAckedPackets
  split
  · exact hE _
  · refine (ackedLoop_spec path.history (nil_append _).symm
      (reverse_ne_nil_iff.mpr ack.ranges_ne_nil) (fun r hr => absurd hr not_mem_nil)
      path.history.entries_pairwise).bind ?_
    rintro ⟨acked, middle⟩ hacked
    obtain ⟨probes, rfl, hprobes⟩ := hacked.fewer
    have hok : ({ path.history with pathProbePackets := probes } : SentPacketHistory).Ok :=
      ⟨hcounted.history.window, hcounted.history.head, hcounted.history.count⟩
    refine (removeAll_spec countedLength hok hacked.sorted fun e he =>
      (acked_weight hcounted hacked he).1).bind ?_
    rintro history ⟨hwithout, htotal⟩
    have hopen : ∀ pn, ({ path.log with acks := path.log.acks ++ [ack] } : PathLog).Open pn ↔
        path.log.Open pn ∧ ¬ ack.Acks pn := by
      intro pn
      simp only [PathLog.Open, forall_mem_append, forall_mem_singleton]
      tauto
    refine ⟨rfl, ?_, fun e he => (acked_weight hcounted hacked he).2⟩
    rw [← Nat.zero_add (totalBy countedLength acked)]
    exact hcounted.leave ⟨hwithout.ok, hwithout.entries, hwithout.highest,
        fun e he => hprobes e (hwithout.probes e he)⟩ htotal
      (fun e he hprobe => acked_mem_iff hacked he hprobe) rfl hopen hack

lemma receivedAckForPath_spec (hE : ∀ m, E (.protocolViolation m)) (ack : AckFrame)
    (pid rcvTime lossDelay : ℕ) (hinv : Inv R h 0 0) :
    Ends E (Inv R · 0 0) (h.receivedAckForPath ack pid rcvTime lossDelay) := by
  unfold receivedAckForPath
  split
  · exact hE _
  next path hpath =>
    have hinv' : Inv R h pid 0 := hinv.on (by rw [hpath]; rfl)
    have hcounted := hinv'.of_get hpath
    split
    · exact hE _
    next hsent =>
      have hack : ∀ pn, ack.Acks pn → pn < path.pns.next := by
        intro pn hacks
        have hbounds := ack.acks_bounds hacks
        cases hlargest : path.largestSent with
        | none =>
          rw [hlargest] at hsent
          exact absurd rfl hsent
        | some largest =>
          have hlt := hcounted.largestSent largest hlargest
          simp only [hlargest, Option.all_some, decide_eq_true_eq] at hsent
          omega
      refine (detectAndRemoveAckedPackets_spec hE hcounted hack).bind ?_
      rintro ⟨acked, path'⟩ ⟨hpns, hcounted', hpid⟩
      rw [← hpns] at hcounted'
      have hinv₁ := hinv'.set hcounted'
      split
      next hempty =>
        rw [isEmpty_iff.mp hempty] at hinv₁
        exact hinv₁.onZero
      · refine Ends.bind (P := (Inv R · pid (totalBy countedLength acked))) ?_ fun h₂ hinv₂ => ?_
        · exact detectLostPackets_spec rcvTime lossDelay
            (hinv₁.set (hcounted'.of_eq rfl rfl rfl rfl))
        refine (detectLostPathProbes_spec rcvTime hinv₂).bind fun h₃ hinv₃ => ?_
        exact (removeAckedBytes_spec hinv₃ hpid).mono fun h₄ hinv₄ => hinv₄.onZero

/-! ## Sending and timers -/

lemma set_set (h : SentPacketHandler) (pid : ℕ) (path path' : AppDataPath) :
    (h.set pid path).set pid path' = h.set pid path' := by
  unfold SentPacketHandler.set
  rw [update_idem]

lemma popPacketNumberForPath_spec (r : ℕ) (hinv : Inv R h pid pending) :
    Ends E (fun popped => ∃ path', popped.2 = h.set pid path' ∧ path'.pns.next = popped.1 + 1 ∧
      path'.Counted R pid pending popped.1) (h.popPacketNumberForPath pid r) := by
  obtain ⟨path, hpath⟩ := Option.isSome_iff_exists.mp hinv.present
  have hcounted := hinv.of_get hpath
  unfold popPacketNumberForPath
  rw [hpath]
  dsimp only
  unfold PacketNumberGenerator.pop
  split
  · exact hcounted.skipped.bind fun history hskipped =>
      ⟨_, rfl, rfl, hskipped.of_eq rfl rfl rfl rfl⟩
  · exact ⟨_, rfl, rfl, hcounted.of_eq rfl rfl rfl rfl⟩

lemma sentPacket_spec (t : ℕ) (streamFrame : Option StreamFrame)
    (streamFrames : List StreamFrame) (frames : List Frame) (size : ℕ)
    (isPathMTUProbePacket isPathProbePacket : Bool) (hpath : h.appDataPaths pid = some path)
    (hcounted : path.Counted R pid pending pn)
    (hR : ∀ included, R ⟨t, streamFrame, streamFrames, frames, size, isPathMTUProbePacket, included,
      isPathProbePacket, pid⟩) :
    Ends E (fun h' => ∃ path' included, h' = h.set pid path' ∧ path'.pns = path.pns ∧
        path'.Counted R pid pending (pn + 1) ∧
        (pn, ⟨t, streamFrame, streamFrames, frames, size, isPathMTUProbePacket, included,
          isPathProbePacket, pid⟩) ∈ path'.log.sent ∧ path'.log.Open pn)
      (h.sentPacket t pn pid streamFrame streamFrames frames size isPathMTUProbePacket
        isPathProbePacket) := by
  have hopen := hcounted.open_next
  unfold SentPacketHandler.sentPacket SentPacketHandler.getAppDataPath
  rw [hpath]
  cases isPathProbePacket with
  | true =>
    refine (hcounted.history.sentPathProbePacket hcounted.inOrder _).bind ?_
    rintro history ⟨hextended, hprobes⟩
    refine ⟨_, _, rfl, rfl, hcounted.extend _ hextended ?_ ?_ rfl rfl ?_ (.inr rfl) ?_,
      mem_append_right _ (mem_singleton_self _), hopen⟩
    · exact forall_mem_singleton.mpr ⟨fun _ => rfl, fun hfalse => by cases hfalse⟩
    · rw [hprobes]
      exact forall_mem_append.mpr ⟨fun e => .inl, forall_mem_singleton.mpr (.inr rfl)⟩
    · simp [Packet.probePlaceholder]
    · exact forall_mem_singleton.mpr (hR false)
  | false =>
    refine (hcounted.history.sentPacket hcounted.inOrder _).bind ?_
    rintro history ⟨hextended, hprobes⟩
    refine ⟨_, _, rfl, rfl, hcounted.extend _ hextended ?_ ?_ rfl rfl ?_ (.inr rfl) ?_,
      mem_append_right _ (mem_singleton_self _), hopen⟩
    · exact forall_mem_singleton.mpr
        ⟨fun htrue => absurd htrue Bool.false_ne_true, fun _ => ⟨rfl, rfl⟩⟩
    · rw [hprobes]
      exact fun e => .inl
    · simp [hopen]
    · exact forall_mem_singleton.mpr (hR _)

lemma registerPackedShortHeaderPacket_eq (h : SentPacketHandler) (p : ShortHeaderPacket) (pn t : ℕ)
    (hprobe : p.isPathProbePacket = true → p.pathID = 0) : ∃ streamFrame streamFrames,
      h.registerPackedShortHeaderPacket p pn t = h.sentPacket t pn p.pathID streamFrame streamFrames
        p.frames p.length p.isPathMTUProbePacket p.isPathProbePacket ∧
      (p.streamFrame = none → streamFrame = none) ∧ (p.streamFrames = [] → streamFrames = []) := by
  unfold registerPackedShortHeaderPacket
  split
  next htrue =>
    rw [hprobe htrue, htrue]
    exact ⟨_, _, rfl, fun _ => rfl, id⟩
  next hfalse =>
    rw [Bool.eq_false_iff.mpr hfalse]
    split
    · exact ⟨_, _, rfl, fun _ => rfl, id⟩
    next hzero =>
      rw [Decidable.not_not.mp hzero]
      split
      · exact ⟨_, _, rfl, id, fun _ => rfl⟩
      · exact ⟨_, _, rfl, fun _ => rfl, id⟩

def Logged (h : SentPacketHandler) (p : ShortHeaderPacket) : Prop :=
  ∃ path e, h.appDataPaths p.pathID = some path ∧ e ∈ path.log.sent ∧ path.log.Open e.1 ∧
    (p.streamFrame = none → e.2.streamFrame = none) ∧
    (p.streamFrames = [] → e.2.streamFrames = []) ∧ e.2.frames = p.frames ∧
    e.2.isPathProbePacket = p.isPathProbePacket ∧ e.2.length = p.length

lemma send_spec (call : PackerCall) (t r : ℕ) (hinv : Inv R h 0 0)
    (hR : ∀ (p : ShortHeaderPacket) (q : Packet), call.packet = .ok p →
      (h.appDataPaths p.pathID).isSome = true → q.frames = p.frames → R q) :
    Ends E (fun h' => Inv R h' 0 0 ∧ ∀ p, call.packet = .ok p →
      (h.appDataPaths p.pathID).isSome = true → h'.Logged p) (h.send call t r) := by
  unfold send
  cases hcall : call.packet with
  | error e => exact ⟨hinv, fun p hp => by cases hp⟩
  | ok p =>
    dsimp only
    split
    next hnone =>
      refine ⟨hinv, fun p' hp' hsome => ?_⟩
      obtain rfl := Except.ok.inj hp'
      rw [Option.isNone_iff_eq_none.mp hnone] at hsome
      cases hsome
    next hsome =>
      have hpresent : (h.appDataPaths p.pathID).isSome = true := by
        rw [Option.isSome_iff_ne_none]
        exact fun hnone => hsome (Option.isNone_iff_eq_none.mpr hnone)
      have hinv' := hinv.on hpresent
      refine (popPacketNumberForPath_spec r hinv').bind ?_
      rintro ⟨pn, h₁⟩ ⟨path₁, rfl, hnext, hcounted₁⟩
      obtain ⟨streamFrame, streamFrames, hregister, hstream, hstreams⟩ :=
        registerPackedShortHeaderPacket_eq (h.set p.pathID path₁) p pn t
          (PackerCall.packet_pathID_of_probe hcall)
      rw [hregister]
      refine (sentPacket_spec t streamFrame streamFrames p.frames p.length p.isPathMTUProbePacket
        p.isPathProbePacket (set_self h p.pathID path₁) hcounted₁
        fun _ => hR p _ hcall hpresent rfl).mono ?_
      rintro _ ⟨path₂, included, rfl, hpns, hcounted₂, hsent, hopen⟩
      rw [← hnext, ← hpns] at hcounted₂
      rw [set_set]
      refine ⟨(hinv'.set hcounted₂).onZero, fun p' hp' _ => ?_⟩
      obtain rfl := Except.ok.inj hp'
      exact ⟨path₂, _, set_self .., hsent, hopen, hstream, hstreams, rfl, rfl, rfl⟩

lemma earlier_present (hbest : ∀ b, best = some b → (h.appDataPaths b.2).isSome = true)
    (ht : t ≠ none → (h.appDataPaths pid).isSome = true) (hb : earlier best t pid = some b) :
    (h.appDataPaths b.2).isSome = true := by
  unfold earlier at hb
  split at hb
  · obtain ⟨t', ht', rfl⟩ := Option.map_eq_some_iff.mp hb
    exact ht (by rw [ht']; exact Option.some_ne_none t')
  · exact hbest b hb
  · split at hb
    · rw [← Option.some.inj hb]
      exact ht (Option.some_ne_none _)
    · exact hbest b hb

lemma foldl_earlier_present {l : List ℕ}
    (hb : l.foldl (fun best pid => earlier best ((h.appDataPaths pid).bind time) pid) none = some b) :
    (h.appDataPaths b.2).isSome = true := by
  refine foldlRecOn (motive := fun best => ∀ b, best = some b → (h.appDataPaths b.2).isSome = true)
    l _ (fun b hb => by cases hb) ?_ b hb
  intro best hbest pid _ b hb
  refine earlier_present hbest (fun ht => ?_) hb
  rw [Option.isSome_iff_ne_none]
  intro hnone
  rw [hnone] at ht
  exact ht rfl

lemma onLossDetectionTimeout_spec (now lossDelay scaledPTO r : ℕ) (hinv : Inv R h 0 0) :
    Ends E (Inv R · 0 0) (h.onLossDetectionTimeout now lossDelay scaledPTO r) := by
  refine (detectLostPathProbes_spec now hinv).bind fun h₁ hinv₁ => ?_
  split
  next t pid hloss =>
    exact (detectLostPackets_spec now lossDelay (hinv₁.on (foldl_earlier_present hloss))).mono
      fun h₂ hinv₂ => hinv₂.onZero
  · split
    · exact hinv₁
    next t pid hpto =>
      split
      · exact (declareAppDataPathLost_spec (hinv₁.on (foldl_earlier_present hpto))).mono
          fun h₂ hinv₂ => hinv₂.onZero
      · refine (popPacketNumberForPath_spec r hinv₁).bind ?_
        rintro ⟨pn, h₂⟩ ⟨path₁, rfl, hnext, hcounted₁⟩
        refine hcounted₁.skipped.bind fun history hcounted₂ => ?_
        rw [← hnext] at hcounted₂
        rw [set_set]
        exact hinv₁.set hcounted₂

/-! ## Paths come and go -/

lemma inv_new (r : ℕ) : Inv R (SentPacketHandler.new r) 0 0 where
  zero := rfl
  present := rfl
  counted := by
    intro q path hq
    by_cases hne : q = 0
    · subst hne
      cases hq
      exact .new R 0 r
    · dsimp only [SentPacketHandler.new] at hq
      rw [update_of_ne hne] at hq
      cases hq

lemma addPath_spec (r : ℕ) (hinv : Inv R h 0 0) : Inv R (h.addPath pid r) 0 0 := by
  unfold addPath
  split
  · exact hinv
  · split
    · exact hinv
    · refine ⟨isSome_set hinv.zero, isSome_set hinv.zero, ?_⟩
      intro q path hq
      rw [ite_self]
      by_cases hne : q = pid
      · subst hne
        obtain rfl := Option.some.inj ((set_self ..).symm.trans hq)
        exact .new R q r
      · have hcounted := hinv.counted q path ((set_of_ne h _ hne).symm.trans hq)
        rw [ite_self] at hcounted
        exact hcounted

lemma removePath_spec (hinv : Inv R h 0 0) : Inv R (h.removePath pid) 0 0 := by
  unfold removePath
  split
  · exact hinv
  next hzero =>
    have hkeep : (update h.appDataPaths pid none 0).isSome = true := by
      rw [update_of_ne (Ne.symm hzero)]
      exact hinv.zero
    refine ⟨hkeep, hkeep, fun q path hq => ?_⟩
    dsimp only at hq
    by_cases hne : q = pid
    · subst hne
      rw [update_self] at hq
      cases hq
    · rw [update_of_ne hne] at hq
      exact hinv.counted q path hq

end SentPacketHandler

namespace SentPacketHandler

/-! ## Runs -/

inductive Action where
  | addPath (pid r : ℕ)
  | removePath (pid : ℕ)
  | send (call : PackerCall) (t r : ℕ)
  | receivedAck (ack : AckFrame) (pid rcvTime lossDelay : ℕ)
  | lossDetectionTimeout (now lossDelay scaledPTO r : ℕ)
  | queueProbePacket

def apply (h : SentPacketHandler) : Action → Except HandlerError SentPacketHandler
  | .addPath pid r => pure (h.addPath pid r)
  | .removePath pid => pure (h.removePath pid)
  | .send call t r => h.send call t r
  | .receivedAck ack pid rcvTime lossDelay => h.receivedAckForPath ack pid rcvTime lossDelay
  | .lossDetectionTimeout now lossDelay scaledPTO r =>
    h.onLossDetectionTimeout now lossDelay scaledPTO r
  | .queueProbePacket => h.queueProbePacket

def step (s : Except HandlerError SentPacketHandler) (a : Action) :
    Except HandlerError SentPacketHandler := s >>= fun h => h.apply a

/-- The bytes in flight of each path are the lengths of its packets in flight; a call fails only if the
peer has violated the protocol. -/
def Exact : Except HandlerError SentPacketHandler → Prop
  | .ok h => ∀ pid path, h.appDataPaths pid = some path → path.bytesInFlight = path.log.inFlight
  | .error e => ∃ m, e = .protocolViolation m

def SendsNoLonePathAck (s : Except HandlerError SentPacketHandler) : Action → Prop
  | .send call _ _ => ∀ h p, s = .ok h → call.packet = .ok p →
      (h.appDataPaths p.pathID).isSome = true → ¬ call.OnlyPathAck
  | _ => True

def RunInv (R : Packet → Prop) : Except HandlerError SentPacketHandler → Prop :=
  Ends (fun e => ∃ m, e = .protocolViolation m) (Inv R · 0 0)

variable {R : Packet → Prop}

lemma step_runInv (hs : RunInv R s)
    (hR : ∀ h call t r (p : ShortHeaderPacket) (q : Packet), s = .ok h → a = .send call t r →
      call.packet = .ok p → (h.appDataPaths p.pathID).isSome = true → q.frames = p.frames → R q) :
    RunInv R (step s a) := by
  cases s with
  | error e => exact hs
  | ok h =>
    cases a with
    | addPath pid r => exact addPath_spec r hs
    | removePath pid => exact removePath_spec hs
    | send call t r =>
      exact (send_spec call t r hs fun p q => hR h call t r p q rfl rfl).mono fun h' => And.left
    | receivedAck ack pid rcvTime lossDelay =>
      exact receivedAckForPath_spec (fun m => ⟨m, rfl⟩) ack pid rcvTime lossDelay hs
    | lossDetectionTimeout now lossDelay scaledPTO r =>
      exact onLossDetectionTimeout_spec now lossDelay scaledPTO r hs
    | queueProbePacket => exact queueProbePacket_spec hs

lemma bytesInFlight_eq (hinv : Inv R h 0 0) (hpath : h.appDataPaths pid = some path) :
    path.bytesInFlight = totalBy (fun e => if e.2.isAckEliciting then e.2.length else 0)
      (path.log.sent.filter fun e => !e.2.isPathProbePacket && decide (path.log.Open e.1)) := by
  have hcounted := hinv.counted pid path hpath
  rw [ite_self] at hcounted
  rw [hcounted.bytes, ← hcounted.tracked, totalBy_filter]
  refine totalBy_congr fun e he => ?_
  have hregistered := hcounted.packets e he
  unfold countedLength
  cases hprobe : e.2.isPathProbePacket with
  | true => rw [hregistered.probe hprobe]; rfl
  | false => rw [(hregistered.packet hprobe).1]; rfl

lemma inFlight_eq (log : PathLog) :
    log.inFlight = totalBy (fun e => if e.2.elicitsAck then e.2.length else 0)
      (log.sent.filter fun e => !e.2.isPathProbePacket && decide (log.Open e.1)) := by
  rw [← totalBy_filter, filter_filter]
  refine congrArg _ (filter_congr fun e _ => ?_)
  exact Bool.and_comm _ _

lemma isAckEliciting_of_elicitsAck {p : Packet} (hp : p.elicitsAck = true) :
    p.isAckEliciting = true := by
  simp only [Packet.elicitsAck, Bool.or_eq_true, Bool.not_eq_true', isEmpty_eq_false_iff,
    hasAckElicitingFrames, any_eq_true] at hp
  simp only [Packet.isAckEliciting, Bool.or_eq_true, decide_eq_true_eq, length_pos_iff]
  rcases hp with hp | ⟨f, hf, -⟩
  · exact .inl hp
  · exact .inr (ne_nil_of_mem hf)

lemma exact_of_runInv
    (hs : RunInv (fun p => p.isAckEliciting = true → p.elicitsAck = true) s) : Exact s := by
  cases s with
  | error e => exact hs
  | ok h =>
    intro pid path hpath
    have hcounted := hs.counted pid path hpath
    rw [bytesInFlight_eq hs hpath, inFlight_eq]
    refine totalBy_congr fun e he => ?_
    have hiff : e.2.isAckEliciting = e.2.elicitsAck := by
      rw [Bool.eq_iff_iff]
      exact ⟨hcounted.sent e (mem_of_mem_filter he), isAckEliciting_of_elicitsAck⟩
    rw [hiff]

lemma inFlight_lt (hinv : Inv R h 0 0) (hpath : h.appDataPaths pid = some path) (he : e ∈ path.log.sent)
    (hopen : path.log.Open e.1) (hprobe : e.2.isPathProbePacket = false)
    (hframes : e.2.isAckEliciting = true) (hnone : e.2.elicitsAck = false) (hlength : 0 < e.2.length) :
    path.log.inFlight < path.bytesInFlight := by
  rw [bytesInFlight_eq hinv hpath, inFlight_eq]
  refine totalBy_lt (fun e' _ => ?_) (b := e) ?_ ?_
  · cases helicit : e'.2.elicitsAck with
    | true => rw [isAckEliciting_of_elicitsAck helicit]
    | false => exact Nat.zero_le _
  · rw [mem_filter, hprobe]
    exact ⟨he, by simpa using hopen⟩
  · rw [hnone, hframes]
    exact hlength

/-- **The bytes in flight are exact along a run exactly when no packet is sent whose only frame is a
PATH_ACK.** -/
theorem bytesInFlight_exact_iff (r : ℕ) (actions : List Action) :
    EachState step Exact (.ok (new r)) actions ↔
      EachStep step SendsNoLonePathAck (.ok (new r)) actions := by
  constructor
  · intro hexact pre a hpre
    have hinv : RunInv (fun _ => True) (pre.foldl step (.ok (new r))) := by
      refine foldlRecOn (motive := RunInv fun _ => True) pre _ (inv_new r) ?_
      exact fun s hs a _ => step_runInv hs fun _ _ _ _ _ _ _ _ _ _ _ => trivial
    have hafter := hexact (pre ++ [a]) hpre
    rw [foldl_append] at hafter
    cases a with
    | send call t r' =>
      intro h p hs hp hpresent hlone
      rw [hs] at hinv hafter
      have hsend : Ends (fun _ => False) _ (h.send call t r') :=
        send_spec call t r' hinv fun _ _ _ _ _ => trivial
      change Exact (h.send call t r') at hafter
      cases hrun : h.send call t r' with
      | error e =>
        rw [hrun] at hsend
        exact hsend
      | ok h' =>
      rw [hrun] at hsend hafter
      obtain ⟨path, e, hpath, he, hopen, hstream, hstreams, hframes, hprobe, hlength⟩ :=
        hsend.2 p hp hpresent
      obtain ⟨hne, hnone, hstream', hstreams', hprobe'⟩ := PackerCall.packet_onlyPathAck hp hlone
      have hlt := inFlight_lt hsend.1 hpath he hopen (hprobe.trans hprobe') (by
          rw [Packet.isAckEliciting, hframes]
          simp [length_pos_iff.mpr hne]) (by
          rw [Packet.elicitsAck, hstream hstream', hstreams hstreams', hframes, hnone]
          rfl) (by
          rw [hlength]
          exact PackerCall.packet_length_pos hp)
      have heq := hafter p.pathID path hpath
      omega
    | _ => trivial
  · intro hsends pre hpre
    refine exact_of_runInv ?_
    have hstart : RunInv (fun p => p.isAckEliciting = true → p.elicitsAck = true) (.ok (new r)) :=
      inv_new r
    refine eachState_of_eachStep (fun s a hok hs => ?_) hstart hsends pre hpre
    refine step_runInv hs ?_
    rintro h call t r p q rfl rfl hp hpresent hframes helicit
    -- a packet with frames has one that elicits an acknowledgement
    rcases PackerCall.packet_hasAckElicitingFrames hp (hok h p rfl hp hpresent) with hnil | hany
    · simp only [Packet.isAckEliciting, hframes, hnil, Bool.or_eq_true, decide_eq_true_eq,
        length_pos_iff] at helicit
      simp only [Packet.elicitsAck, Bool.or_eq_true, Bool.not_eq_true', isEmpty_eq_false_iff]
      exact .inl (helicit.resolve_right fun h => h rfl)
    · rw [Packet.elicitsAck, hframes, hany, Bool.or_true]

def loneAckRun : List Action :=
  [.addPath 1 0,
    .send (.appendPacketForPath (some ⟨8, 2⟩) 1 (some ⟨[⟨0, 0⟩], 0, 0, 0, 0, by decide⟩) [] 1200) 0 0]

/-- The PATH_ACK is in flight for the handler, and will be until it is given up. -/
theorem lone_pathAck_counts :
    (loneAckRun.foldl step (.ok (new 0))).toOption.bind (fun h => (h.appDataPaths 1).map fun path =>
        (path.bytesInFlight, path.log.inFlight)) = some (33, 0) ∧
      ¬ EachState step Exact (.ok (new 0)) loneAckRun := by
  have hrun : (loneAckRun.foldl step (.ok (new 0))).toOption.bind (fun h =>
      (h.appDataPaths 1).map fun path => (path.bytesInFlight, path.log.inFlight)) = some (33, 0) := by
    decide
  refine ⟨hrun, fun hexact => ?_⟩
  have hafter := hexact loneAckRun prefix_rfl
  cases hstate : loneAckRun.foldl step (.ok (new 0)) with
  | error e =>
    rw [hstate] at hrun
    cases hrun
  | ok h =>
    rw [hstate] at hrun hafter
    obtain ⟨path, hpath, hbytes⟩ := Option.map_eq_some_iff.mp hrun
    have heq := hafter 1 path hpath
    rw [Prod.mk.injEq] at hbytes
    omega

end SentPacketHandler
end Iroh.Qng.AckHandler
