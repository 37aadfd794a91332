import Iroh.Common.Runs
import Iroh.Qng.KeyEndpoint

/-!
# Opening packets of neighbouring phases

Two endpoints send each other packets on any number of paths; the network delivers each at most once, in any
order.  One of a neighbouring phase is opened if the comparison with the first packet received in the phase
goes the right way (`packets_open_iff`), which is certain only for packets of the path of that first packet.
-/

namespace Iroh.Qng

open List

/-! ## What `Open` does with a packet of a neighbouring phase -/

namespace UpdatableAEAD

variable {a : UpdatableAEAD} {p : Packet}

lemma dropExpired_of_not (hexpired : a.expired rcvTime = false) : a.dropExpired rcvTime = a := by
  simp [dropExpired, hexpired]

lemma openPacket_of_ok (hexpired : a.expired rcvTime = false)
    (h : (a.openWithKeys p rcvTime pto).2 = .ok d) : (a.openPacket p rcvTime pto).2 = .ok d := by
  unfold openPacket
  rw [dropExpired_of_not hexpired]
  generalize a.openWithKeys p rcvTime pto = r at h ⊢
  obtain ⟨a', d'⟩ := r
  dsimp only at h
  rw [h]

variable (rcvTime pto : ℕ)

lemma openWithKeys_current (hkp : p.kp = a.bit) (hphase : p.phase = a.rcvAEAD.secret)
    (hgenuine : p.Genuine) : (a.openWithKeys p rcvTime pto).2 = .ok p.body.plaintext := by
  have hdec := AEAD.openCiphertext_eq_some.mpr ⟨hphase, hgenuine, rfl⟩
  unfold openWithKeys
  rw [if_neg (not_not.mpr hkp), hdec]
  dsimp only
  split <;> rfl

lemma openWithKeys_next (hkp : p.kp ≠ a.bit) (hnot : a.takesForPrev p.pn = false)
    (hphase : p.phase = a.nextRcvAEAD.secret) (hgenuine : p.Genuine)
    (hsent : 0 < a.keyPhase → a.firstSentWithCurrentKey ≠ none) :
    (a.openWithKeys p rcvTime pto).2 = .ok p.body.plaintext := by
  have hdec := AEAD.openCiphertext_eq_some.mpr ⟨hphase, hgenuine, rfl⟩
  have hallowed : ¬ (0 < a.keyPhase && a.firstSentWithCurrentKey.isNone) = true := by
    simpa [Option.isSome_iff_ne_none] using hsent
  unfold openWithKeys
  rw [if_pos hkp, if_neg (by simp [hnot]), hdec]
  dsimp only
  rw [if_neg hallowed]

lemma openWithKeys_prev (hkp : p.kp ≠ a.bit) (htakes : a.takesForPrev p.pn = true)
    (hprev : a.prevRcvAEAD = some k) (hphase : p.phase = k.secret) (hgenuine : p.Genuine) :
    (a.openWithKeys p rcvTime pto).2 = .ok p.body.plaintext := by
  have hdec := AEAD.openCiphertext_eq_some.mpr ⟨hphase, hgenuine, rfl⟩
  unfold openWithKeys
  rw [if_pos hkp, if_pos htakes, hprev]
  dsimp only
  rw [hdec]

end UpdatableAEAD

namespace Endpoint

variable {e : Endpoint} {p : Packet} {rcvTime pto : ℕ}

lemma Ok.not_takesForPrev_iff (h : e.Ok) (pn : ℕ) : e.aead.takesForPrev pn = false ↔
      (0 < e.aead.keyPhase → e.firstOpened ≠ none) ∧ ∀ q, e.firstOpened = some q → q.pn ≤ pn := by
  unfold UpdatableAEAD.takesForPrev
  rw [h.firstOpened]
  cases e.firstOpened with
  | _ => simp

variable (h : e.Ok) (hexpired : e.aead.expired rcvTime = false)
include h hexpired

lemma Ok.opens_iff (hbit : p.kp = p.phase % 2) (hgenuine : p.Genuine) :
    (e.aead.openPacket p rcvTime pto).2 = .ok p.body.plaintext ↔ p.phase = e.aead.keyPhase ∨
        (p.phase + 1 = e.aead.keyPhase ∧ e.aead.prevRcvAEAD.isSome) ∧ e.aead.takesForPrev p.pn = true ∨
        p.phase = e.aead.keyPhase + 1 ∧ e.aead.takesForPrev p.pn = false ∧
          (0 < e.aead.keyPhase → e.aead.firstSentWithCurrentKey ≠ none) := by
  constructor
  · intro hok
    have hopening := e.aead.opening_openPacket p rcvTime pto
    rw [UpdatableAEAD.dropExpired_of_not hexpired] at hopening
    generalize e.aead.openPacket p rcvTime pto = r at hok hopening
    cases hopening with
    | failed count err => cases hok
    | prev k hkp hprev hk hphase hgenuine =>
      have hk' := h.keyed.prev k hk
      exact .inr (.inl ⟨⟨by omega, by simp [hk]⟩, hprev⟩)
    | next hkp hprev hphase hgenuine hsent =>
      exact .inr (.inr ⟨hphase.trans h.keyed.nextRcv_secret, hprev, hsent⟩)
    | current expiry hkp hphase hgenuine => exact .inl (hphase.trans h.keyed.rcv_secret)
  · intro hphase
    apply UpdatableAEAD.openPacket_of_ok hexpired
    rcases hphase with hphase | ⟨⟨hphase, hprev⟩, htakes⟩ | ⟨hphase, hnot, hsent⟩
    · apply UpdatableAEAD.openWithKeys_current _ _ _ _ hgenuine
      · rw [hbit, hphase, UpdatableAEAD.bit]
      · rw [hphase, h.keyed.rcv_secret]
    · obtain ⟨k, hk⟩ := Option.isSome_iff_exists.mp hprev
      have hk' := h.keyed.prev k hk
      apply UpdatableAEAD.openWithKeys_prev _ _ _ htakes hk _ hgenuine
      · rw [UpdatableAEAD.bit]
        omega
      · omega
    · apply UpdatableAEAD.openWithKeys_next _ _ _ hnot _ hgenuine hsent
      · rw [UpdatableAEAD.bit]
        omega
      · rw [hphase, h.keyed.nextRcv_secret]

end Endpoint

/-! ## Two endpoints -/

structure KeyPair where
  ends : Bool → Endpoint
  delivered : Bool → List Packet

inductive KeyStep where
  | keyPhase (intervals : KeyUpdateIntervals)
  | confirm
  | sealPacket (pid pn : ℕ) (plaintext : Bytes)
  | deliver (p : Packet) (rcvTime pto : ℕ)
  | ack (p : Packet)

namespace KeyPair

def start (limit : Bool → ℕ) : KeyPair := ⟨fun side => .start (limit side), fun _ => []⟩

/-- A packet that is on its way to `side`, and that finds the previous key not expired. -/
def Arrives (s : KeyPair) (side : Bool) (p : Packet) (rcvTime : ℕ) : Prop :=
  p ∈ (s.ends !side).sent ∧ p ∉ s.delivered side ∧ (s.ends side).aead.expired rcvTime = false

instance decidableArrives (s : KeyPair) (side : Bool) (p : Packet) (rcvTime : ℕ) :
    Decidable (s.Arrives side p rcvTime) :=
  inferInstanceAs (Decidable (_ ∧ _ ∧ _))

def put (s : KeyPair) (side : Bool) (e : Endpoint) : KeyPair :=
  { s with ends := Function.update s.ends side e }

lemma put_self (s : KeyPair) (side : Bool) (e : Endpoint) : (s.put side e).ends side = e := by
  simp [put]

lemma put_ne {s : KeyPair} (hne : side' ≠ side) (e : Endpoint) :
    (s.put side e).ends side' = s.ends side' := by
  simp [put, hne]

def step (s : KeyPair) : Bool × KeyStep → KeyPair
  | (side, .keyPhase intervals) => s.put side ((s.ends side).keyPhase intervals)
  | (side, .confirm) => s.put side (s.ends side).confirm
  | (side, .sealPacket pid pn plaintext) => s.put side ((s.ends side).sealPacket pid pn plaintext)
  | (side, .deliver p rcvTime pto) =>
    if s.Arrives side p rcvTime then
      { s.put side ((s.ends side).openPacket p rcvTime pto) with
        delivered := Function.update s.delivered side (p :: s.delivered side) }
    else s
  | (side, .ack p) =>
    if p ∈ (s.ends side).sent ∧ p ∈ (s.ends !side).opened then s.put side ((s.ends side).ack p)
    else s

/-- Both ends are in order, and only what was sent is opened. -/
structure Inv (s : KeyPair) : Prop where
  ok : ∀ side, (s.ends side).Ok
  opened : ∀ side, ∀ p ∈ (s.ends side).opened, p ∈ (s.ends !side).sent

lemma inv_start (limit : Bool → ℕ) : (start limit).Inv where
  ok := fun side => Endpoint.ok_start (limit side)
  opened := by
    intro side p hp
    cases hp

lemma Inv.put {s : KeyPair} (h : s.Inv) (hok : e.Ok) (hsent : ∀ p ∈ (s.ends side).sent, p ∈ e.sent)
    (hopened : ∀ p ∈ e.opened, p ∈ (s.ends side).opened ∨ p ∈ (s.ends !side).sent) :
    (s.put side e).Inv := by
  have hother : (s.put side e).ends (!side) = s.ends (!side) := put_ne (by simp) e
  refine ⟨(Bool.forall_bool' side).mpr ⟨?_, ?_⟩, (Bool.forall_bool' side).mpr ⟨?_, ?_⟩⟩
  · rw [put_self]
    exact hok
  · rw [hother]
    exact h.ok _
  · rw [put_self, hother]
    exact fun p hp => (hopened p hp).elim (h.opened side p) id
  · rw [hother, Bool.not_not, put_self]
    exact fun p hp => hsent p (by simpa using h.opened (!side) p hp)

lemma step_inv {s : KeyPair} (h : s.Inv) (a : Bool × KeyStep) : (s.step a).Inv := by
  obtain ⟨side, a⟩ := a
  have hok := h.ok side
  cases a with
  | keyPhase intervals =>
    exact h.put (hok.keyPhase intervals) (fun p hp => hp) (fun p hp => .inl hp)
  | confirm => exact h.put hok.confirm (fun p hp => hp) (fun p hp => .inl hp)
  | sealPacket pid pn plaintext =>
    apply h.put (hok.sealPacket pid pn plaintext)
    · intro p hp
      unfold Endpoint.sealPacket
      split
      · exact mem_append_left _ hp
      · exact hp
    · intro p hp
      unfold Endpoint.sealPacket at hp
      split at hp <;> exact .inl hp
  | deliver p rcvTime pto =>
    dsimp only [step]
    split
    case isTrue harrives =>
      have hput := h.put (hok.openPacket p rcvTime pto) (fun q hq => hq) (by
        intro q hq
        rcases mem_append.mp hq with hold | hnew
        · exact .inl hold
        · refine .inr ?_
          split at hnew
          · rw [mem_singleton.mp hnew]
            exact harrives.1
          · cases hnew)
      exact ⟨hput.ok, hput.opened⟩
    case isFalse => exact h
  | ack p =>
    dsimp only [step]
    split
    case isTrue hp => exact h.put (hok.ack hp.1) (fun q hq => hq) (fun q hq => .inl hq)
    case isFalse => exact h

/-! ## Which packets are opened -/

/-- A packet of the receiver's phase, of the one after, or of the one before while its key is there, is
opened. -/
def Opens (s : KeyPair) (a : Bool × KeyStep) : Prop :=
  ∀ side p rcvTime pto, a = (side, .deliver p rcvTime pto) → s.Arrives side p rcvTime →
    let aead := (s.ends side).aead
    (p.phase = aead.keyPhase ∨ p.phase = aead.keyPhase + 1 ∨
      (p.phase + 1 = aead.keyPhase ∧ aead.prevRcvAEAD.isSome)) →
    (aead.openPacket p rcvTime pto).2 = .ok p.body.plaintext

/-- A packet of the phase after comes when the receiver has opened and sent in its own phase, or is in
the first; and if it is not of the path of the first packet opened in the phase its number is not below
that packet's.  A packet of the phase before has a lower number than that, or is of its path. -/
def InOrder (s : KeyPair) (a : Bool × KeyStep) : Prop :=
  ∀ side p rcvTime pto, a = (side, .deliver p rcvTime pto) → s.Arrives side p rcvTime →
    let e := s.ends side
    (p.phase = e.aead.keyPhase + 1 →
      (0 < e.aead.keyPhase → e.firstOpened ≠ none ∧ e.firstSent ≠ none) ∧
        ∀ q, e.firstOpened = some q → q.pid ≠ p.pid → q.pn ≤ p.pn) ∧
    (p.phase + 1 = e.aead.keyPhase → e.aead.prevRcvAEAD.isSome →
      ∀ q, e.firstOpened = some q → q.pid ≠ p.pid → p.pn < q.pn)

lemma Inv.firstOpened_mem {s : KeyPair} (h : s.Inv) (hq : (s.ends side).firstOpened = some q) :
    q ∈ (s.ends !side).sent ∧ q.phase = (s.ends side).aead.keyPhase := by
  refine ⟨h.opened side q (mem_of_find?_eq_some hq), ?_⟩
  simpa using find?_some hq

lemma opens_iff {s : KeyPair} (h : s.Inv) (a : Bool × KeyStep) : s.Opens a ↔ s.InOrder a := by
  refine forall₄_congr fun side p rcvTime pto => forall₂_congr fun _ harrives => ?_
  obtain ⟨hsent, -, hexpired⟩ := harrives
  have hok := h.ok side
  obtain ⟨hbit, hgenuine⟩ := (h.ok (!side)).sentBit p hsent
  -- packets of one path are in order anyway
  have hsame : ∀ q, (s.ends side).firstOpened = some q → q.pid = p.pid →
      (p.phase = (s.ends side).aead.keyPhase + 1 → q.pn ≤ p.pn) ∧
        (p.phase + 1 = (s.ends side).aead.keyPhase → p.pn < q.pn) := by
    intro q hq hpid
    obtain ⟨hmem, hqphase⟩ := h.firstOpened_mem hq
    have hpeer := h.ok (!side)
    constructor
    · exact fun hphase => (hpeer.number_lt hmem hsent (by omega) hpid).le
    · exact fun hphase => hpeer.number_lt hsent hmem (by omega) hpid.symm
  have htakes : ∀ hphase : p.phase + 1 = (s.ends side).aead.keyPhase,
      (s.ends side).aead.takesForPrev p.pn = true ↔
        ∀ q, (s.ends side).firstOpened = some q → p.pn < q.pn := by
    intro hphase
    rw [← Bool.not_eq_false, hok.not_takesForPrev_iff]
    cases (s.ends side).firstOpened with
    | none => simp; omega
    | some q => simp
  dsimp only
  rw [hok.opens_iff hexpired hbit hgenuine]
  constructor
  · intro hopens
    constructor
    · intro hphase
      rcases hopens (.inr (.inl hphase)) with hcurrent | ⟨⟨hprev, -⟩, -⟩ | ⟨-, hnot, hfirst⟩
      · omega
      · omega
      · obtain ⟨hopened, hle⟩ := (hok.not_takesForPrev_iff p.pn).mp hnot
        refine ⟨fun hpos => ⟨hopened hpos, ?_⟩, fun q hq _ => hle q hq⟩
        exact mt hok.firstSent_eq_none_iff.mpr (hfirst hpos)
    · intro hphase hkey q hq _
      rcases hopens (.inr (.inr ⟨hphase, hkey⟩)) with hcurrent | ⟨-, hprev⟩ | ⟨hnext, -⟩
      · omega
      · exact (htakes hphase).mp hprev q hq
      · omega
  · rintro ⟨hafter, hbefore⟩ (hphase | hphase | ⟨hphase, hkey⟩)
    · exact .inl hphase
    · obtain ⟨hfirst, hle⟩ := hafter hphase
      refine .inr (.inr ⟨hphase, (hok.not_takesForPrev_iff p.pn).mpr ⟨fun hpos => (hfirst hpos).1, ?_⟩,
        fun hpos => mt hok.firstSent_eq_none_iff.mp (hfirst hpos).2⟩)
      intro q hq
      by_cases hpid : q.pid = p.pid
      · exact (hsame q hq hpid).1 hphase
      · exact hle q hq hpid
    · refine .inr (.inl ⟨⟨hphase, hkey⟩, (htakes hphase).mpr fun q hq => ?_⟩)
      by_cases hpid : q.pid = p.pid
      · exact (hsame q hq hpid).2 hphase
      · exact hbefore hphase hkey q hq hpid

/-- **A packet of a neighbouring phase is opened exactly when the numbers say which.** -/
theorem packets_open_iff (limit : Bool → ℕ) (steps : List (Bool × KeyStep)) :
    EachStep step Opens (start limit) steps ↔ EachStep step InOrder (start limit) steps := by
  have hinv : ∀ pre : List (Bool × KeyStep), (pre.foldl step (start limit)).Inv := by
    intro pre
    apply foldlRecOn (motive := Inv) pre _ (inv_start limit)
    intro s h a _
    exact step_inv h a
  refine forall₃_congr fun pre a _ => ?_
  exact opens_iff (hinv pre) a

def oldPacket : Packet := ⟨0, 99, 0, ⟨⟨0⟩, 0, 99, []⟩⟩

def newPacket : Packet := ⟨1, 0, 1, ⟨⟨1⟩, 1, 0, []⟩⟩

/-- The sender has sent a hundred packets, the last of which arrives; it updates its keys and starts a
path, whose first packet arrives. -/
def updateThenNewPath : List (Bool × KeyStep) :=
  (List.range 100).map (fun pn => (true, .sealPacket 0 pn [])) ++
    [(false, .deliver oldPacket 0 0), (true, .confirm), (true, .keyPhase .default),
      (true, .sealPacket 1 0 [])]

/-- The receiver has no previous key, and looks for it: the number is below the first it received. -/
theorem newPacket_keys_dropped : ¬ EachStep step Opens (start fun _ => invalidPacketLimitAES)
      (updateThenNewPath ++ [(false, .deliver newPacket 0 0)]) := by
  intro h
  have hopens := h updateThenNewPath (false, .deliver newPacket 0 0) prefix_rfl
  have hdropped : (((updateThenNewPath.foldl step (start fun _ => invalidPacketLimitAES)).ends
        false).aead.openPacket newPacket 0 0).2 = .error .keysDropped := by
    decide +kernel
  have hok := hopens false newPacket 0 0 rfl (by decide +kernel) (.inr (.inl (by decide +kernel)))
  cases hdropped.symm.trans hok

end KeyPair

end Iroh.Qng
