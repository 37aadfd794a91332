import Iroh.Common.Bytes

/-!
# Keys of 1-RTT packets

Reference: `internal/qng/internal/handshake/updatable_aead.go`.

An endpoint seals with the key of its phase and opens with the key of its phase, of the phase before
or of the phase after.  The bit in the header only tells two neighbouring phases apart; whether a packet
with the other bit is of the phase before or after is decided by comparing its number with the number of
the first packet received in the current phase.  There is one such number for all paths, although each
path counts its packets by itself.

The AEAD is ideal: a key opens exactly what was sealed with it, under the same path and number.  A
traffic secret stands for the number of updates it went through, so that secrets never repeat.
-/

namespace Iroh.Qng

/-! ## Ciphertexts -/

def getNextTrafficSecret (ts : ℕ) : ℕ := ts + 1

structure AEAD where
  secret : ℕ
deriving DecidableEq

def createAEAD (ts : ℕ) : AEAD := ⟨ts⟩

structure Ciphertext where
  aead : AEAD
  pid : ℕ
  pn : ℕ
  plaintext : Bytes
deriving DecidableEq

/-- `cipher.AEAD.Open`, with the nonce of `putPathNonce`. -/
def AEAD.openCiphertext (k : AEAD) (pid pn : ℕ) (c : Ciphertext) : Option Bytes :=
  if c.aead = k ∧ c.pid = pid ∧ c.pn = pn then some c.plaintext else none

/-- A packet: its header, as `Open` gets it, and its payload. -/
structure Packet where
  pid : ℕ
  pn : ℕ
  kp : ℕ
  body : Ciphertext
deriving DecidableEq

namespace Packet

def phase (p : Packet) : ℕ := p.body.aead.secret

def Genuine (p : Packet) : Prop := p.body.pid = p.pid ∧ p.body.pn = p.pn

end Packet

lemma AEAD.openCiphertext_eq_some {k : AEAD} {p : Packet} :
    k.openCiphertext p.pid p.pn p.body = some d ↔
      p.phase = k.secret ∧ p.Genuine ∧ d = p.body.plaintext := by
  obtain ⟨pid, pn, kp, ⟨⟨secret⟩, bpid, bpn, plaintext⟩⟩ := p
  obtain ⟨ksecret⟩ := k
  simp only [openCiphertext, Packet.phase, Packet.Genuine, AEAD.mk.injEq]
  split
  case isTrue h => simp [h, eq_comm]
  case isFalse h =>
    constructor
    · intro hd
      cases hd
    · rintro ⟨hs, hg, -⟩
      exact absurd ⟨hs, hg⟩ h

/-! ## The endpoint's keys -/

inductive KeyError where
  | keysDropped
  | decryptionFailed
  | aeadLimitReached
  /-- `qerr.KeyUpdateError`. -/
  | keyUpdateError (message : String)
deriving DecidableEq

/-- The package variables `FirstKeyUpdateInterval` and `keyUpdateInterval`. -/
structure KeyUpdateIntervals where
  first : ℕ
  later : ℕ

def KeyUpdateIntervals.default : KeyUpdateIntervals := ⟨100, 100 * 1000⟩

def invalidPacketLimitAES : ℕ := 1 <<< 52

/-- `updatableAEAD`.  `none` is `InvalidPacketNumber`, the zero time and the nil AEAD. -/
structure UpdatableAEAD where
  keyPhase : ℕ
  largestAcked : Option ℕ
  handshakeConfirmed : Bool
  invalidPacketLimit : ℕ
  invalidPacketCount : ℕ
  prevRcvAEADExpiry : Option ℕ
  prevRcvAEAD : Option AEAD
  firstRcvdWithCurrentKey : Option ℕ
  firstSentWithCurrentKey : Option ℕ
  numRcvdWithCurrentKey : ℕ
  numSentWithCurrentKey : ℕ
  rcvAEAD : AEAD
  sendAEAD : AEAD
  nextRcvAEAD : AEAD
  nextSendAEAD : AEAD
  nextRcvTrafficSecret : ℕ
  nextSendTrafficSecret : ℕ
deriving DecidableEq

namespace UpdatableAEAD

/-- `newUpdatableAEAD`, after `SetReadKey` and `SetWriteKey` with the handshake's secrets. -/
def new (invalidPacketLimit : ℕ) : UpdatableAEAD where
  keyPhase := 0
  largestAcked := none
  handshakeConfirmed := false
  invalidPacketLimit := invalidPacketLimit
  invalidPacketCount := 0
  prevRcvAEADExpiry := none
  prevRcvAEAD := none
  firstRcvdWithCurrentKey := none
  firstSentWithCurrentKey := none
  numRcvdWithCurrentKey := 0
  numSentWithCurrentKey := 0
  rcvAEAD := createAEAD 0
  sendAEAD := createAEAD 0
  nextRcvAEAD := createAEAD (getNextTrafficSecret 0)
  nextSendAEAD := createAEAD (getNextTrafficSecret 0)
  nextRcvTrafficSecret := getNextTrafficSecret 0
  nextSendTrafficSecret := getNextTrafficSecret 0

def bit (a : UpdatableAEAD) : ℕ := a.keyPhase % 2

def rollKeys (a : UpdatableAEAD) : UpdatableAEAD :=
  let nextRcvTrafficSecret := getNextTrafficSecret a.nextRcvTrafficSecret
  let nextSendTrafficSecret := getNextTrafficSecret a.nextSendTrafficSecret
  { a with
    prevRcvAEADExpiry := if a.prevRcvAEAD.isSome then none else a.prevRcvAEADExpiry
    keyPhase := a.keyPhase + 1
    firstRcvdWithCurrentKey := none
    firstSentWithCurrentKey := none
    numRcvdWithCurrentKey := 0
    numSentWithCurrentKey := 0
    prevRcvAEAD := some a.rcvAEAD
    rcvAEAD := a.nextRcvAEAD
    sendAEAD := a.nextSendAEAD
    nextRcvTrafficSecret := nextRcvTrafficSecret
    nextSendTrafficSecret := nextSendTrafficSecret
    nextRcvAEAD := createAEAD nextRcvTrafficSecret
    nextSendAEAD := createAEAD nextSendTrafficSecret }

/-- `startKeyDropTimer`, where `pto` is the probe timeout now. -/
def startKeyDropTimer (a : UpdatableAEAD) (now pto : ℕ) : UpdatableAEAD :=
  { a with prevRcvAEADExpiry := some (now + 3 * pto) }

/-- The previous key has expired at `rcvTime`. -/
def expired (a : UpdatableAEAD) (rcvTime : ℕ) : Bool :=
  a.prevRcvAEAD.isSome && a.prevRcvAEADExpiry.any (· < rcvTime)

/-- The first block of `open`. -/
def dropExpired (a : UpdatableAEAD) (rcvTime : ℕ) : UpdatableAEAD :=
  if a.expired rcvTime then { a with prevRcvAEAD := none, prevRcvAEADExpiry := none } else a

/-- The condition on which `open` takes a packet with the other bit to be of the phase before. -/
def takesForPrev (a : UpdatableAEAD) (pn : ℕ) : Bool :=
  (0 < a.keyPhase && a.firstRcvdWithCurrentKey.isNone) || a.firstRcvdWithCurrentKey.any (pn < ·)

/-- `open`, after the expired key is gone. -/
def openWithKeys (a : UpdatableAEAD) (p : Packet) (rcvTime pto : ℕ) :
    UpdatableAEAD × Except KeyError Bytes :=
  if p.kp ≠ a.bit then
    if a.takesForPrev p.pn then
      match a.prevRcvAEAD with
      | none => (a, .error .keysDropped)
      | some prev =>
        match prev.openCiphertext p.pid p.pn p.body with
        | none => (a, .error .decryptionFailed)
        | some dec => (a, .ok dec)
    else
      match a.nextRcvAEAD.openCiphertext p.pid p.pn p.body with
      | none => (a, .error .decryptionFailed)
      | some dec =>
        if 0 < a.keyPhase && a.firstSentWithCurrentKey.isNone then
          (a, .error (.keyUpdateError "keys updated too quickly"))
        else
          ({ a.rollKeys.startKeyDropTimer rcvTime pto with
            firstRcvdWithCurrentKey := some p.pn }, .ok dec)
  else
    match a.rcvAEAD.openCiphertext p.pid p.pn p.body with
    | none => (a, .error .decryptionFailed)
    | some dec =>
      let a := { a with numRcvdWithCurrentKey := a.numRcvdWithCurrentKey + 1 }
      match a.firstRcvdWithCurrentKey with
      | some _ => (a, .ok dec)
      | none =>
        let a := if 0 < a.keyPhase then a.startKeyDropTimer rcvTime pto else a
        ({ a with firstRcvdWithCurrentKey := some p.pn }, .ok dec)

/-- `Open`. -/
def openPacket (a : UpdatableAEAD) (p : Packet) (rcvTime pto : ℕ) :
    UpdatableAEAD × Except KeyError Bytes :=
  match (a.dropExpired rcvTime).openWithKeys p rcvTime pto with
  | (a, .error .decryptionFailed) =>
    let a := { a with invalidPacketCount := a.invalidPacketCount + 1 }
    if a.invalidPacketLimit ≤ a.invalidPacketCount then (a, .error .aeadLimitReached)
    else (a, .error .decryptionFailed)
  | r => r

/-- `Seal`, with the header that goes with it. -/
def sealPacket (a : UpdatableAEAD) (pid pn : ℕ) (plaintext : Bytes) : UpdatableAEAD × Packet :=
  ({ a with
      firstSentWithCurrentKey := some (a.firstSentWithCurrentKey.getD pn)
      numSentWithCurrentKey := a.numSentWithCurrentKey + 1 },
    ⟨pid, pn, a.bit, ⟨a.sendAEAD, pid, pn, plaintext⟩⟩)

def setLargestAcked (a : UpdatableAEAD) (pn : ℕ) : UpdatableAEAD × Option KeyError :=
  if a.firstSentWithCurrentKey.any (· ≤ pn) && a.numRcvdWithCurrentKey = 0 then
    (a, some (.keyUpdateError ("received ACK for key phase " ++ toString a.keyPhase ++
      ", but peer didn't update keys")))
  else ({ a with largestAcked := some pn }, none)

def setHandshakeConfirmed (a : UpdatableAEAD) : UpdatableAEAD := { a with handshakeConfirmed := true }

def updateAllowed (a : UpdatableAEAD) : Bool :=
  a.handshakeConfirmed && (a.keyPhase = 0 ||
      a.firstSentWithCurrentKey.any fun first => a.largestAcked.any (first ≤ ·))

def shouldInitiateKeyUpdate (a : UpdatableAEAD) (intervals : KeyUpdateIntervals) : Bool :=
  a.updateAllowed && ((a.keyPhase = 0 &&
        (intervals.first ≤ a.numRcvdWithCurrentKey || intervals.first ≤ a.numSentWithCurrentKey)) ||
      intervals.later ≤ a.numRcvdWithCurrentKey || intervals.later ≤ a.numSentWithCurrentKey)

/-- `KeyPhase`: the keys after the call, and the bit it returns. -/
def callKeyPhase (a : UpdatableAEAD) (intervals : KeyUpdateIntervals) : UpdatableAEAD × ℕ :=
  let a := if a.shouldInitiateKeyUpdate intervals then a.rollKeys else a
  (a, a.bit)

end UpdatableAEAD

end Iroh.Qng
